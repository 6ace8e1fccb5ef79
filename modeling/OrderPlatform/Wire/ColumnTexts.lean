import OrderPlatform.Wire.Values

/-! # What the database makes of values

The client hands a text to the database as it is, writes a number or a truth value as the runtime
does, an object as JSON and a list in the notation of the database's own lists. No column takes the
character zero, and a column with a width cuts blanks beyond it off and refuses other excess.
-/

namespace Wire

/-- A character in a JSON text. -/
def quoteChar (c : Char) : List Char :=
  match c with
  | '"' => ['\\', '"']
  | '\\' => ['\\', '\\']
  | '\x08' => ['\\', 'b']
  | '\x0c' => ['\\', 'f']
  | '\n' => ['\\', 'n']
  | '\r' => ['\\', 'r']
  | '\t' => ['\\', 't']
  | c =>
    if c.toNat < 32 then
      ['\\', 'u', '0', '0', Nat.digitChar (c.toNat / 16), Nat.digitChar (c.toNat % 16)]
    else [c]

/-- A text in a JSON text. -/
def quote (s : String) : String := "\"" ++ String.ofList (s.toList.flatMap quoteChar) ++ "\""

/-- A text in a list of the database, between quotes with those in it escaped. -/
def escapeElement (s : String) : String :=
  "\"" ++ String.ofList (s.toList.flatMap fun c => if c = '"' ∨ c = '\\' then ['\\', c] else [c]) ++
    "\""

namespace Json

/-- `JSON.stringify`. -/
def stringify : Json → String
  | .null => "null"
  | .bool b => toString b
  | .num q => numberText q
  | .str s => quote s
  | .arr elems => "[" ++ elements elems ++ "]"
  | .obj fields => "\x7b" ++ members fields ++ "\x7d"
where
  elements : List Json → String
    | [] => ""
    | [j] => stringify j
    | j :: js => stringify j ++ "," ++ elements js
  members : List (String × Json) → String
    | [] => ""
    | [(name, j)] => quote name ++ ":" ++ stringify j
    | (name, j) :: fields => quote name ++ ":" ++ stringify j ++ "," ++ members fields

/-- The value in a column of texts. -/
def columnText : Json → String
  | .null => "null"
  | .bool b => toString b
  | .num q => numberText q
  | .str s => s
  | .arr elems => "\x7b" ++ elements elems ++ "\x7d"
  | .obj fields => stringify (.obj fields)
where
  element : Json → String
    | .null => "NULL"
    | .arr elems => "\x7b" ++ elements elems ++ "\x7d"
    | .bool b => escapeElement (toString b)
    | .num q => escapeElement (numberText q)
    | .str s => escapeElement s
    | .obj fields => escapeElement (stringify (.obj fields))
  elements : List Json → String
    | [] => ""
    | [j] => element j
    | j :: js => element j ++ "," ++ elements js

example : columnText (.obj [("a", .num 1), ("b", .arr [.str "x\"y", .null])]) =
    "\x7b\"a\":1,\"b\":[\"x\\\"y\",null]\x7d" := by decide +kernel

end Json

/-- The text holds no character zero, so the database takes it. -/
def storable (s : String) : Bool := s.toList.all fun c => c ≠ '\x00'

/-- No text in the value holds the character zero, so a column of JSON takes it. -/
def Json.storable : Json → Bool
  | .str s => Wire.storable s
  | .arr elems => elements elems
  | .obj fields => members fields
  | _ => true
where
  elements : List Json → Bool
    | [] => true
    | j :: js => j.storable && elements js
  members : List (String × Json) → Bool
    | [] => true
    | (name, j) :: fields => Wire.storable name && j.storable && members fields

/-- What a column of `n` characters keeps of a text, unless it refuses it. -/
def varchar (n : ℕ) (s : String) : Option String :=
  if storable s && (s.toList.drop n).all fun c => c = ' ' then
    some (String.ofList (s.toList.take n))
  else none

section Columns

variable {n : ℕ} {s t : String}

/-- A text within the width is kept as it is. -/
theorem varchar_of_le (hs : storable s = true) (hn : s.length ≤ n) : varchar n s = some s := by
  have hlength : s.toList.length ≤ n := hn
  rw [varchar, List.drop_eq_nil_of_le hlength, List.take_of_length_le hlength, String.ofList_toList,
    hs, List.all_nil, Bool.and_self, if_pos rfl]

end Columns

end Wire
