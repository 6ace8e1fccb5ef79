import Mathlib.Data.List.Basic
import Mathlib.Data.Fintype.Basic

/-! # Buffers and their texts

A buffer is read as UTF-8, what is not UTF-8 being replaced, and written in base64. A text
comes back from its UTF-8 bytes, and a buffer from its base64 text.
-/

namespace Wire

abbrev Buffer := List UInt8

namespace Buffer

/-- The UTF-8 bytes of a text. -/
def ofText (s : String) : Buffer := s.toList.flatMap String.utf8EncodeChar

def isContinuation (b : UInt8) : Bool := 0x80 ≤ b && b ≤ 0xBF

/-- The bytes that may follow the first one of a character of three or four bytes. -/
def mayFollow (first second : UInt8) : Bool :=
  match first with
  | 0xE0 => 0xA0 ≤ second && second ≤ 0xBF
  | 0xED => 0x80 ≤ second && second ≤ 0x9F
  | 0xF0 => 0x90 ≤ second && second ≤ 0xBF
  | 0xF4 => 0x80 ≤ second && second ≤ 0x8F
  | _ => isContinuation second

/-- How many bytes after the first one a single replacement stands for. -/
def replaced (first : UInt8) (rest : Buffer) : ℕ :=
  match rest with
  | second :: third :: _ =>
    if 0xE0 ≤ first && first ≤ 0xF4 && mayFollow first second then
      if 0xF0 ≤ first && isContinuation third then 2 else 1
    else 0
  | [second] => if 0xE0 ≤ first && first ≤ 0xF4 && mayFollow first second then 1 else 0
  | [] => 0

/-- The characters of a buffer after the given number of bytes. -/
def chars : ℕ → Buffer → List Char
  | _, [] => []
  | k + 1, _ :: bs => chars k bs
  | 0, b :: bs =>
    match (b :: bs).toByteArray.utf8DecodeChar? 0 with
    | some c => c :: chars (c.utf8Size - 1) bs
    | none => '\uFFFD' :: chars (replaced b bs) bs

/-- The text of a buffer. -/
def text (b : Buffer) : String := String.ofList (chars 0 b)

theorem chars_append (l b : Buffer) : chars l.length (l ++ b) = chars 0 b := by
  induction l with
  | nil => rfl
  | cons a l ih => simpa [chars] using ih

theorem chars_encodeChar (c : Char) (b : Buffer) :
    chars 0 (String.utf8EncodeChar c ++ b) = c :: chars 0 b := by
  obtain ⟨a, l, hl⟩ := List.exists_cons_of_length_pos
    ((String.length_utf8EncodeChar c).symm ▸ Char.utf8Size_pos c)
  have hd : (a :: (l ++ b)).toByteArray.utf8DecodeChar? 0 = some c := by
    have h := ByteArray.utf8DecodeChar?_utf8EncodeChar_append (b := b.toByteArray) (c := c)
    rwa [← List.toByteArray_append, hl, List.cons_append] at h
  have hs : c.utf8Size - 1 = l.length := by
    rw [← String.length_utf8EncodeChar, hl]
    rfl
  rw [hl, List.cons_append, chars, hd]
  simp only [hs, chars_append]

@[simp] theorem text_ofText (s : String) : (ofText s).text = s := by
  have h : ∀ cs : List Char, chars 0 (cs.flatMap String.utf8EncodeChar) = cs := fun cs => by
    induction cs with
    | nil => rfl
    | cons c cs ih => rw [List.flatMap_cons, chars_encodeChar, ih]
  rw [text, ofText, h, String.ofList_toList]

/-- Only the empty buffer has no text. -/
@[simp] theorem text_eq_empty {b : Buffer} : b.text = "" ↔ b = [] := by
  cases b with
  | nil => simp [text, chars]
  | cons a b =>
    simp only [text, chars]
    split <;> simp

/-- The digits of base64. -/
def digits : List Char :=
  "ABCDEFGHIJKLMNOPQRSTUVWXYZabcdefghijklmnopqrstuvwxyz0123456789+/".toList

def digit (i : Fin 64) : Char := digits.getD i '='

/-- The value of a digit, also of the two that take the place of `+` and `/` in URLs. -/
def digitValue (c : Char) : Option (Fin 64) :=
  (List.finRange 64).find? fun i =>
    digit i = if c = '-' then '+' else if c = '_' then '/' else c

/-- The bits of a buffer in groups of six, the last one filled with zeros. -/
def sextets : Buffer → List (Fin 64)
  | [] => []
  | [a] => [.ofNat 64 (a.toNat / 4), .ofNat 64 (a.toNat % 4 * 16)]
  | [a, b] => [.ofNat 64 (a.toNat / 4), .ofNat 64 (a.toNat % 4 * 16 + b.toNat / 16),
      .ofNat 64 (b.toNat % 16 * 4)]
  | a :: b :: c :: bs =>
    .ofNat 64 (a.toNat / 4) :: .ofNat 64 (a.toNat % 4 * 16 + b.toNat / 16) ::
      .ofNat 64 (b.toNat % 16 * 4 + c.toNat / 64) :: .ofNat 64 (c.toNat % 64) :: sextets bs

/-- Groups of six bits as bytes; what is left of the last byte is dropped. -/
def ofSextets : List (Fin 64) → Buffer
  | x :: y :: z :: w :: rest =>
    .ofNat (x * 4 + y / 16) :: .ofNat (y % 16 * 16 + z / 4) :: .ofNat (z % 4 * 64 + w) ::
      ofSextets rest
  | [x, y, z] => [.ofNat (x * 4 + y / 16), .ofNat (y % 16 * 16 + z / 4)]
  | [x, y] => [.ofNat (x * 4 + y / 16)]
  | _ => []

/-- The base64 text of a buffer. -/
def base64 (b : Buffer) : String :=
  String.ofList ((sextets b).map digit ++ List.replicate ((3 - b.length % 3) % 3) '=')

/-- The buffer a base64 text stands for, up to its padding; other characters are ignored. -/
def ofBase64 (s : String) : Buffer :=
  ofSextets ((s.toList.takeWhile fun c => c ≠ '=').filterMap digitValue)

theorem digit_ne_padding : ∀ i, digit i ≠ '=' := by decide +kernel

@[simp] theorem digitValue_digit : ∀ i, digitValue (digit i) = some i := by decide +kernel

theorem ofNat_eq_byte {n : ℕ} {a : UInt8} (h : n % 256 = a.toNat) : UInt8.ofNat n = a :=
  UInt8.toNat_inj.mp (by simpa using h)

theorem ofSextets_sextets : ∀ b : Buffer, ofSextets (sextets b) = b
  | [] => rfl
  | [a] => by
    have ha := a.toNat_lt
    simp only [sextets, ofSextets, Fin.val_ofNat, List.cons.injEq, and_true]
    exact ofNat_eq_byte (by omega)
  | [a, b] => by
    have ha := a.toNat_lt
    have hb := b.toNat_lt
    simp only [sextets, ofSextets, Fin.val_ofNat, List.cons.injEq, and_true]
    exact ⟨ofNat_eq_byte (by omega), ofNat_eq_byte (by omega)⟩
  | a :: b :: c :: bs => by
    have ha := a.toNat_lt
    have hb := b.toNat_lt
    have hc := c.toNat_lt
    simp only [sextets, ofSextets, Fin.val_ofNat, List.cons.injEq]
    exact ⟨ofNat_eq_byte (by omega), ofNat_eq_byte (by omega), ofNat_eq_byte (by omega),
      ofSextets_sextets bs⟩

@[simp] theorem ofBase64_base64 (b : Buffer) : ofBase64 b.base64 = b := by
  have hp : ∀ c ∈ (sextets b).map digit, decide (c ≠ '=') = true := by
    simpa using fun i _ => digit_ne_padding i
  have hd : ((sextets b).map digit).filterMap digitValue = sextets b := by
    rw [List.filterMap_map]
    exact (List.filterMap_congr fun i _ => digitValue_digit i).trans List.filterMap_some
  rw [ofBase64, base64, String.toList_ofList, List.takeWhile_append_of_pos hp,
    List.filterMap_append, hd]
  simp [ofSextets_sextets]

example : base64 (ofText "OrderCreated") = "T3JkZXJDcmVhdGVk" := by decide +kernel

end Buffer

end Wire
