import Mathlib.Algebra.Group.Nat.Defs
import Mathlib.Data.List.Forall2
import Mathlib.Data.Nat.Log
import Mathlib.Data.Rat.Defs

/-! # Values of the runtime

JSON values with property access and text conversion, the falsy default of strings,
and the exceptions the services throw.
-/

universe u

namespace Wire

/-- Identifiers drawn from the generator, which never repeats a draw. -/
abbrev Uuid := ℕ

theorem Uuid.text_injective {m n : Uuid} (h : toString m = toString n) : m = n := by
  have hd := congrArg (fun s => Nat.ofDigitChars 10 s.toList 0) h
  simpa [Nat.toString_eq_repr, Nat.toList_repr] using hd

inductive Json where
  | null
  | bool (b : Bool)
  | num (q : ℚ)
  | str (s : String)
  | arr (elems : List Json)
  | obj (fields : List (String × Json))

/-- Exceptions thrown by the services; the rest carry no modelled text. -/
inductive Thrown where
  | notFound (message : String)
  | badRequest (message : String)
  | forbidden (message : String)
  | database
  | typeError
  | syntaxError
  | referenceError
  deriving DecidableEq, Repr

theorem bind_eq_ok {α β : Type u} {ε : Type*} {m : Except ε α} {f : α → Except ε β} {b : β} :
    (m >>= f) = .ok b ↔ ∃ a, m = .ok a ∧ f a = .ok b := by
  constructor
  · intro h
    cases m with
    | error e => cases h
    | ok a => exact ⟨a, rfl, h⟩
  · rintro ⟨a, rfl, h⟩
    exact h

/-- A sequence of fallible steps that succeeds passed each of them. -/
theorem ok_of_bind {α β : Type u} {ε : Type*} {m : Except ε α} {f : α → Except ε β} {b : β}
    (h : (m >>= f) = .ok b) : ∃ a, m = .ok a ∧ f a = .ok b :=
  bind_eq_ok.mp h

theorem map_eq_ok {α β ε : Type*} {m : Except ε α} {f : α → β} {b : β} :
    m.map f = .ok b ↔ ∃ a, m = .ok a ∧ f a = b := by
  cases m with
  | error e => simp [Except.map]
  | ok a => simp [Except.map]

/-- A fallible step taken for each element of a list yields a result for each. -/
theorem mapM_ok_iff {α β ε : Type*} {f : α → Except ε β} :
    ∀ {as : List α} {bs : List β}, as.mapM f = .ok bs ↔ List.Forall₂ (fun a b => f a = .ok b) as bs
  | [], bs => by
    rw [List.mapM_nil, List.forall₂_nil_left_iff]
    exact ⟨fun h => (Except.ok.inj h).symm, fun h => h ▸ rfl⟩
  | a :: as, bs => by
    rw [List.mapM_cons, List.forall₂_cons_left_iff]
    constructor
    · intro h
      obtain ⟨b, hb, h⟩ := ok_of_bind h
      obtain ⟨bs', hbs, h⟩ := ok_of_bind h
      exact ⟨b, bs', hb, mapM_ok_iff.mp hbs, (Except.ok.inj h).symm⟩
    · rintro ⟨b, bs', hb, hbs, rfl⟩
      rw [hb, mapM_ok_iff.mpr hbs]
      rfl

theorem mapM_isOk_iff {α β ε : Type*} {f : α → Except ε β} {as : List α} :
    (∃ bs, as.mapM f = .ok bs) ↔ ∀ a ∈ as, ∃ b, f a = .ok b := by
  simp only [mapM_ok_iff]
  induction as with
  | nil => simp
  | cons a as ih =>
    rw [List.forall_mem_cons, ← ih]
    constructor
    · rintro ⟨bs, h⟩
      obtain ⟨b, bs', hb, hbs, -⟩ := List.forall₂_cons_left_iff.mp h
      exact ⟨⟨b, hb⟩, bs', hbs⟩
    · rintro ⟨⟨b, hb⟩, bs, hbs⟩
      exact ⟨b :: bs, .cons hb hbs⟩

/-- Up to `n` decimal digits of the fraction `r / d`. -/
def fractionDigits : ℕ → ℕ → ℕ → List Char
  | 0, _, _ => []
  | _, 0, _ => []
  | n + 1, r, d => Nat.digitChar (r * 10 / d) :: fractionDigits n (r * 10 % d) d

/-- The decimal text of `n / d`, with at most `places` digits after the point. -/
def decimalText (places n d : ℕ) : String :=
  let fraction := fractionDigits places (n % d) d
  toString (n / d) ++ if fraction = [] then "" else "." ++ String.ofList fraction

/-- The text of a number; from 10²¹ on and below 10⁻⁶ it has an exponent. -/
def numberText (q : ℚ) : String :=
  let n := q.num.natAbs
  let d := q.den
  (if q.num < 0 then "-" else "") ++
    if n = 0 ∨ (d ≤ n * 10 ^ 6 ∧ n < d * 10 ^ 21) then decimalText 22 n d
    else if d ≤ n then
      let e := Nat.log 10 (n / d)
      decimalText 16 n (d * 10 ^ e) ++ "e+" ++ toString e
    else
      let e := Nat.clog 10 ((d + n - 1) / n)
      decimalText 16 (n * 10 ^ e) d ++ "e-" ++ toString e

/-- `a || b` on a string that may be missing: the empty string counts as missing. -/
def orDefault (a : Option String) (b : String) : String :=
  match a with
  | none => b
  | some s => if s = "" then b else s

namespace Json

/-- The member of an object, an array or scalar having none; `null` has no members to read. -/
def member (j : Json) (name : String) : Except Thrown (Option Json) :=
  match j with
  | .null => .error .typeError
  | .obj fields => .ok ((fields.find? fun f => f.1 = name).map Prod.snd)
  | _ => .ok none

def object (members : List (String × Option Json)) : Json :=
  .obj (members.filterMap fun m => m.2.map fun j => (m.1, j))

/-- The text of an array's element: `null` is written as nothing. -/
def elementText (j : Json) (text : String) : String :=
  match j with
  | .null => ""
  | _ => text

def text : Json → String
  | .null => "null"
  | .bool b => toString b
  | .num q => numberText q
  | .str s => s
  | .arr elems => joinTexts elems
  | .obj _ => "[object Object]"
where
  joinTexts : List Json → String
    | [] => ""
    | [j] => elementText j (text j)
    | j :: js => elementText j (text j) ++ "," ++ joinTexts js

/-- No object in the value has a `toString` of its own, which would make its text a type error. -/
def convertible : Json → Bool
  | .arr elems => convertibles elems
  | .obj fields => fields.all fun f => f.1 ≠ "toString"
  | _ => true
where
  convertibles : List Json → Bool
    | [] => true
    | j :: js => convertible j && convertibles js

/-- The value in a template string. -/
def template (j : Json) : Except Thrown String :=
  if j.convertible then .ok j.text else .error .typeError

@[simp] theorem template_str (s : String) : (Json.str s).template = .ok s := rfl

/-- No object anywhere in the value has a `toString` of its own. -/
def plain : Json → Bool
  | .arr elems => plainElems elems
  | .obj fields => plainFields fields
  | _ => true
where
  plainElems : List Json → Bool
    | [] => true
    | j :: js => plain j && plainElems js
  plainFields : List (String × Json) → Bool
    | [] => true
    | (name, j) :: fields => name ≠ "toString" && plain j && plainFields fields

/-- The value counts as true in a condition. -/
def truthy : Json → Bool
  | .null => false
  | .bool b => b
  | .num q => q ≠ 0
  | .str s => s ≠ ""
  | .arr _ | .obj _ => true

end Json

def present : Option Json → Option Json
  | some .null => none
  | j => j

theorem mem_of_present {m : Option Json} {j : Json} (h : present m = some j) : m = some j := by
  unfold present at h
  split at h
  · cases h
  · exact h

theorem present_ne_null (m : Option Json) : present m ≠ some .null := by
  unfold present
  split
  · simp
  · rename_i h
    exact h

namespace Json

/-- A value one member of which can be read is not `null`. -/
theorem member_of_ok {j : Json} {name : String} {m : Option Json} (h : j.member name = .ok m)
    (other : String) : ∃ k, j.member other = .ok k := by
  cases j with
  | null => cases h
  | _ => exact ⟨_, rfl⟩

theorem mem_plainFields {fields : List (String × Json)} (h : plain.plainFields fields = true) :
    ∀ f ∈ fields, f.1 ≠ "toString" ∧ f.2.plain = true := by
  induction fields with
  | nil => simp
  | cons f fields ih =>
    obtain ⟨name, j⟩ := f
    simp only [plain.plainFields, Bool.and_eq_true, decide_eq_true_eq] at h
    intro g hg
    rcases List.mem_cons.mp hg with rfl | hg
    · exact h.1
    · exact ih h.2 g hg

theorem plain_member {j k : Json} {name : String} (h : j.plain = true)
    (hk : j.member name = .ok (some k)) : k.plain = true := by
  cases j with
  | obj fields =>
    simp only [member, Except.ok.injEq, Option.map_eq_some_iff] at hk
    obtain ⟨f, hf, rfl⟩ := hk
    exact (mem_plainFields h f (List.mem_of_find?_eq_some hf)).2
  | null => cases hk
  | bool | num | str | arr => cases hk

theorem convertible_of_plain : ∀ j : Json, j.plain = true → j.convertible = true
  | .arr elems, h => convertibles_of_plain elems h
  | .obj fields, h => List.all_eq_true.mpr fun f hf => by simpa using (mem_plainFields h f hf).1
  | .null, _ | .bool _, _ | .num _, _ | .str _, _ => rfl
where
  convertibles_of_plain : ∀ js : List Json, plain.plainElems js = true →
      convertible.convertibles js = true
    | [], _ => rfl
    | j :: js, h => by
      simp only [plain.plainElems, Bool.and_eq_true] at h
      simp only [convertible.convertibles, convertible_of_plain j h.1,
        convertibles_of_plain js h.2, Bool.and_self]

theorem template_of_plain {j : Json} (h : j.plain = true) : ∃ s, j.template = .ok s :=
  ⟨j.text, if_pos (convertible_of_plain j h)⟩

/-- A member that is there is plain when the value is, and so is a default that is. -/
theorem plain_present {j d : Json} {name : String} {m : Option Json} (h : j.plain = true)
    (hm : j.member name = .ok m) (hd : d.plain = true) : ((present m).getD d).plain = true := by
  cases hp : present m with
  | none => exact hd
  | some k => exact plain_member h (hm.trans (congrArg _ (mem_of_present hp)))

end Json

namespace Json

/-- A member declared as an optional string; `none` when it holds something else. -/
def stringMember (j : Json) (name : String) : Option (Option String) :=
  match j.member name with
  | .error _ => none
  | .ok m =>
    match present m with
    | none => some none
    | some (.str s) => some (some s)
    | some _ => none

/-- A member declared as an optional number; `none` when it holds something else. -/
def numberMember (j : Json) (name : String) : Option (Option ℚ) :=
  match j.member name with
  | .error _ => none
  | .ok m =>
    match present m with
    | none => some none
    | some (.num q) => some (some q)
    | some _ => none

end Json

end Wire
