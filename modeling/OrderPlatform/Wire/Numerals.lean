import Mathlib.Data.List.DropRight
import Mathlib.Data.Rat.Floor
import Mathlib.Tactic.FieldSimp
import Mathlib.Tactic.Linarith
import Mathlib.Tactic.Ring

/-! # Decimal numerals in texts

A numeral is a run of digits with at most one point. A reader takes the longest numeral at
the start of a text; white space around it is trimmed first. A text is read as the numeral
it was put together of when nothing after that could belong to it.
-/

namespace Wire

/-- The text does not begin with a character of the kind. -/
def Stops (p : Char → Bool) (cs : List Char) : Prop := ∀ c ∈ cs.head?, p c = false

def trim (space : Char → Bool) (cs : List Char) : List Char :=
  (cs.dropWhile space).rdropWhile space

/-- White space and line terminators, as JavaScript has them. -/
def isSpace (c : Char) : Bool :=
  c.toNat ∈ [9, 10, 11, 12, 13, 32, 0xa0, 0x1680, 0x2028, 0x2029, 0x202f, 0x205f, 0x3000, 0xfeff] ||
    0x2000 ≤ c.toNat && c.toNat ≤ 0x200a

theorem isSpace_of_isDigit {c : Char} (h : c.isDigit = true) : isSpace c = false := by
  have hd : 48 ≤ c.toNat ∧ c.toNat ≤ 57 := Char.isDigit_iff_toNat.mp h
  simp only [isSpace, List.mem_cons, List.not_mem_nil, or_false, Bool.or_eq_false_iff,
    decide_eq_false_iff_not, Bool.and_eq_false_iff]
  omega

/-- A character that is a letter in lower case is neither a digit nor white space. -/
theorem of_isLower_toLower {c : Char} (h : c.toLower.isLower = true) :
    c.isDigit = false ∧ isSpace c = false := by
  have hc : (97 ≤ c.toNat ∧ c.toNat ≤ 122) ∨ (65 ≤ c.toNat ∧ c.toNat ≤ 90) := by
    unfold Char.toLower at h
    split at h
    · rename_i hu
      exact Or.inr (by simpa [UInt32.le_iff_toNat_le] using hu)
    · rw [show c.isLower = (decide (97 ≤ c.val) && decide (c.val ≤ 122)) from rfl] at h
      exact Or.inl (by simpa [UInt32.le_iff_toNat_le] using h)
  constructor
  · rw [Bool.eq_false_iff, Ne, Char.isDigit_iff_toNat]
    simp only [Char.reduceToNat]
    omega
  · simp only [isSpace, List.mem_cons, List.not_mem_nil, or_false, Bool.or_eq_false_iff,
      decide_eq_false_iff_not, Bool.and_eq_false_iff]
    omega

section Runs

variable {p : Char → Bool} {cs ds lead trail : List Char} {c : Char}

@[simp] theorem stops_nil : Stops p [] := fun _ h => nomatch h

@[simp] theorem stops_cons : Stops p (c :: cs) ↔ p c = false := by
  simp [Stops]

theorem Stops.dropWhile (h : Stops p cs) : cs.dropWhile p = cs := by
  cases cs with
  | nil => rfl
  | cons c cs => exact List.dropWhile_cons_of_neg (by simp [stops_cons.mp h])

theorem Stops.takeWhile (h : Stops p cs) : cs.takeWhile p = [] := by
  cases cs with
  | nil => rfl
  | cons c cs => exact List.takeWhile_cons_of_neg (by simp [stops_cons.mp h])

theorem stops_of_forall (h : ∀ c ∈ cs, p c = false) : Stops p cs :=
  fun c hc => h c (List.mem_of_mem_head? hc)

theorem stops_append (h : ∀ c ∈ ds, p c = false) (hne : ds ≠ []) : Stops p (ds ++ cs) := by
  obtain ⟨d, ds, rfl⟩ := List.exists_cons_of_ne_nil hne
  exact stops_cons.mpr (h d List.mem_cons_self)

theorem mem_takeWhile (h : c ∈ cs.takeWhile p) : p c = true :=
  List.all_eq_true.mp List.all_takeWhile c h

/-- White space around a text whose ends are none is trimmed away. -/
theorem trim_append (hl : ∀ c ∈ lead, p c = true) (ht : ∀ c ∈ trail, p c = true)
    (hfirst : Stops p cs) (hlast : Stops p cs.reverse) :
    trim p (lead ++ cs ++ trail) = cs := by
  rw [trim, List.append_assoc, List.dropWhile_append_of_pos hl]
  by_cases hcs : cs = []
  · subst hcs
    rw [List.nil_append, List.dropWhile_eq_nil_iff.mpr ht, List.rdropWhile_nil]
  · obtain ⟨c, cs, rfl⟩ := List.exists_cons_of_ne_nil hcs
    have hd : (c :: cs ++ trail).dropWhile p = c :: cs ++ trail :=
      List.dropWhile_cons_of_neg (by simp [stops_cons.mp hfirst])
    rw [hd, List.rdropWhile, List.reverse_append,
      List.dropWhile_append_of_pos fun d hd => ht d (List.mem_reverse.mp hd), hlast.dropWhile,
      List.reverse_reverse]

end Runs

/-- A numeral as it is written; the fraction is absent when there is no point. -/
@[ext] structure Decimal where
  whole : List Char
  fraction : Option (List Char)
  whole_digits : ∀ c ∈ whole, c.isDigit = true
  fraction_digits : ∀ ds, fraction = some ds → ∀ c ∈ ds, c.isDigit = true
  deriving DecidableEq

namespace Decimal

def chars (d : Decimal) : List Char := d.whole ++ d.fraction.elim [] ('.' :: ·)

/-- The number made of some digits. -/
def digitsValue (ds : List Char) : ℕ := Nat.ofDigitChars 10 ds 0

def toRat (d : Decimal) : ℚ :=
  digitsValue d.whole + digitsValue (d.fraction.getD []) / 10 ^ (d.fraction.getD []).length

theorem takeWhile_digits (cs : List Char) : ∀ c ∈ cs.takeWhile Char.isDigit, c.isDigit = true :=
  fun _ => mem_takeWhile

theorem fraction_takeWhile (cs : List Char) :
    ∀ ds, some (cs.takeWhile Char.isDigit) = some ds → ∀ c ∈ ds, c.isDigit = true := by
  rintro _ ⟨⟩
  exact takeWhile_digits cs

theorem fraction_none :
    ∀ ds, (none : Option (List Char)) = some ds → ∀ c ∈ ds, c.isDigit = true :=
  fun _ h => nomatch h

/-- The longest numeral at the start of a text, and the rest. -/
def scan (cs : List Char) : Decimal × List Char :=
  match cs.dropWhile Char.isDigit with
  | '.' :: rest =>
    (⟨cs.takeWhile Char.isDigit, some (rest.takeWhile Char.isDigit), takeWhile_digits cs,
      fraction_takeWhile rest⟩, rest.dropWhile Char.isDigit)
  | rest => (⟨cs.takeWhile Char.isDigit, none, takeWhile_digits cs, fraction_none⟩, rest)

variable {d : Decimal} {cs rest : List Char}

/-- A numeral and the rest of a text put it together again. -/
theorem chars_scan (cs : List Char) : (scan cs).1.chars ++ (scan cs).2 = cs := by
  have hcs := List.takeWhile_append_dropWhile (p := Char.isDigit) (l := cs)
  unfold scan
  split
  · rename_i rest hrest
    simp only [chars, Option.elim, List.append_assoc, List.cons_append,
      List.takeWhile_append_dropWhile]
    rw [← hrest, hcs]
  · simp only [chars, Option.elim, List.append_nil, hcs]

/-- The digits a numeral ends in, when it does. -/
def tail (d : Decimal) : List Char := d.fraction.getD d.whole

theorem chars_eq_tail (d : Decimal) :
    d.chars = (d.fraction.elim [] fun _ => d.whole ++ ['.']) ++ d.tail := by
  unfold chars tail
  cases d.fraction <;> simp

theorem isDigit_of_mem_tail {c : Char} (h : c ∈ d.tail) : c.isDigit = true := by
  unfold tail at h
  cases hf : d.fraction with
  | none =>
    rw [hf] at h
    exact d.whole_digits c h
  | some ds =>
    rw [hf] at h
    exact d.fraction_digits ds hf c h

/-- A numeral that ends in a digit begins with one, or with the point. -/
theorem chars_eq_cons (h : d.tail ≠ []) :
    ∃ c cs, d.chars = c :: cs ∧ (c.isDigit = true ∨ c = '.') := by
  unfold tail at h
  unfold chars
  rcases hw : d.whole with _ | ⟨c, cs⟩
  · rcases hf : d.fraction with _ | ds
    · rw [hf, hw] at h
      exact absurd rfl h
    · exact ⟨'.', ds, rfl, Or.inr rfl⟩
  · exact ⟨c, _, rfl, Or.inl (d.whole_digits c (hw ▸ List.mem_cons_self))⟩

theorem toRat_of_none (h : d.fraction = none) : d.toRat = digitsValue d.whole := by
  simp [toRat, h, digitsValue]

end Decimal

end Wire
