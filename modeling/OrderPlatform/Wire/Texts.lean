import Mathlib.Data.Nat.Digits.Defs
import OrderPlatform.Wire.Values

/-! # Texts put together of parts

Parts of a text that a separator keeps apart can be read back, and so can a number that is
padded with zeros.
-/

namespace Wire

/-- What comes before the first separator, and what comes after it. -/
theorem append_cons_inj {α : Type*} {c : α} {xs xs' ys ys' : List α} (h : c ∉ xs) (h' : c ∉ xs')
    (he : xs ++ c :: ys = xs' ++ c :: ys') : xs = xs' ∧ ys = ys' := by
  induction xs generalizing xs' with
  | nil =>
    cases xs' with
    | nil => exact ⟨rfl, (List.cons.inj he).2⟩
    | cons x xs' =>
      obtain ⟨rfl, -⟩ := List.cons.inj he
      exact absurd List.mem_cons_self h'
  | cons x xs ih =>
    cases xs' with
    | nil =>
      obtain ⟨rfl, -⟩ := List.cons.inj he
      exact absurd List.mem_cons_self h
    | cons x' xs' =>
      obtain ⟨rfl, hrest⟩ := List.cons.inj he
      obtain ⟨rfl, rfl⟩ := ih (fun hm => h (List.mem_cons_of_mem _ hm))
        (fun hm => h' (List.mem_cons_of_mem _ hm)) hrest
      exact ⟨rfl, rfl⟩

theorem joined_inj {a a' b b' sep : String} {c : Char} (hsep : sep.toList = [c])
    (ha : c ∉ a.toList) (ha' : c ∉ a'.toList) (h : a ++ sep ++ b = a' ++ sep ++ b') :
    a = a' ∧ b = b' := by
  have hl := congrArg String.toList h
  simp only [String.toList_append, hsep, List.append_assoc, List.singleton_append] at hl
  obtain ⟨hfirst, hrest⟩ := append_cons_inj ha ha' hl
  exact ⟨String.toList_inj.mp hfirst, String.toList_inj.mp hrest⟩

theorem prefixed_joined_inj {p a a' b b' sep : String} {c : Char} (hsep : sep.toList = [c])
    (ha : c ∉ a.toList) (ha' : c ∉ a'.toList) (h : p ++ a ++ sep ++ b = p ++ a' ++ sep ++ b') :
    a = a' ∧ b = b' := by
  simp only [String.append_assoc, String.append_right_inj] at h
  rw [← String.append_assoc, ← String.append_assoc] at h
  exact joined_inj hsep ha ha' h

/-- The text of a number has digits only. -/
theorem notMem_toString {c : Char} (hc : c.isDigit = false) (n : ℕ) : c ∉ (toString n).toList := by
  intro hm
  rw [Nat.toString_eq_repr, Nat.toList_repr] at hm
  have := Nat.isDigit_of_mem_toDigits (by decide) (by decide) hm
  simp [hc] at this

/-- `padStart` with zeros keeps numbers apart. -/
theorem leftpad_toString_inj {k m n : ℕ}
    (h : (toString m).toList.leftpad k '0' = (toString n).toList.leftpad k '0') : m = n := by
  have hvalue (n : ℕ) : Nat.ofDigitChars 10 ((toString n).toList.leftpad k '0') 0 = n := by
    simp [List.leftpad, Nat.ofDigitChars_append, Nat.ofDigitChars_replicate_zero]
  rw [← hvalue m, h, hvalue]

theorem toString_inj {m n : ℕ} : toString m = toString n ↔ m = n :=
  ⟨fun h => leftpad_toString_inj (k := 0) (by rw [h]), congrArg _⟩

/-- A number written with at least `k` digits. -/
def padStart (k n : ℕ) : List Char := (toString n).toList.leftpad k '0'

theorem padStart_inj {k m n : ℕ} : padStart k m = padStart k n ↔ m = n :=
  ⟨leftpad_toString_inj, congrArg _⟩

theorem notMem_padStart {c : Char} (hc : c.isDigit = false) (k n : ℕ) : c ∉ padStart k n := by
  rw [padStart, List.leftpad, List.mem_append, not_or]
  refine ⟨fun hm => ?_, notMem_toString hc n⟩
  rw [List.eq_of_mem_replicate hm] at hc
  exact absurd hc (by decide)

theorem length_padStart {k n : ℕ} (hk : 0 < k) (hn : n < 10 ^ k) : (padStart k n).length = k := by
  rw [padStart, List.length_leftpad, String.length_toList, Nat.toString_eq_repr]
  exact max_eq_left (Nat.repr_length n k hk hn)

end Wire
