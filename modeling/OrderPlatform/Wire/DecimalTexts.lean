import Mathlib.Tactic.IntervalCases
import OrderPlatform.Store.Numeric
import OrderPlatform.Wire.Values

/-! # Texts of decimal columns

The text of a decimal column has two digits after its point. A number with the same text is
the value of the column, and two columns with one text have one value.
-/

namespace Wire

open Store

section Digits

variable {ds es xs ys : List Char} {k n r d : ℕ} {a b : Char}

theorem isDigit_of_mem_toString {c : Char} (h : c ∈ (toString n).toList) : c.isDigit = true := by
  rw [Nat.toString_eq_repr, Nat.toList_repr] at h
  exact Nat.isDigit_of_mem_toDigits (by decide) (by decide) h

/-- Digits end at the first point. -/
theorem split_point (hds : ∀ c ∈ ds, c.isDigit = true) (hes : ∀ c ∈ es, c.isDigit = true)
    (h : ds ++ '.' :: xs = es ++ '.' :: ys) : ds = es ∧ xs = ys := by
  induction ds generalizing es with
  | nil =>
    cases es with
    | nil => exact ⟨rfl, (List.cons.inj h).2⟩
    | cons e es =>
      obtain rfl := (List.cons.inj h).1
      exact absurd (hes _ List.mem_cons_self) (by decide)
  | cons c ds ih =>
    cases es with
    | nil =>
      obtain rfl := (List.cons.inj h).1
      exact absurd (hds _ List.mem_cons_self) (by decide)
    | cons e es =>
      obtain ⟨rfl, htail⟩ := List.cons.inj h
      obtain ⟨rfl, hxs⟩ := ih (fun b hb => hds b (List.mem_cons_of_mem _ hb))
        (fun b hb => hes b (List.mem_cons_of_mem _ hb)) htail
      exact ⟨rfl, hxs⟩

theorem toString_injective {m n : ℕ} (h : (toString m).toList = (toString n).toList) : m = n :=
  Uuid.text_injective (String.toList_injective h)

theorem digitChar_inj {x y : ℕ} (hx : x < 10) (hy : y < 10)
    (h : Nat.digitChar x = Nat.digitChar y) : x = y := by
  interval_cases x <;> interval_cases y <;> first | rfl | exact absurd h (by decide)

/-- A fraction of two digits is a number of hundredths. -/
theorem fractionDigits_two (hd : 0 < d) (hr : r < d) (h : fractionDigits (k + 3) r d = [a, b]) :
    ∃ x y, x < 10 ∧ y < 10 ∧ a = Nat.digitChar x ∧ b = Nat.digitChar y ∧
      r * 100 = (10 * x + y) * d := by
  rcases r with _ | r
  · cases h
  · obtain ⟨ha, h⟩ := List.cons.inj h
    have hlt : (r + 1) * 10 / d < 10 := Nat.div_lt_of_lt_mul (by omega)
    have hfirst := Nat.div_add_mod ((r + 1) * 10) d
    have hmod := Nat.mod_lt ((r + 1) * 10) hd
    generalize (r + 1) * 10 / d = x at *
    generalize (r + 1) * 10 % d = s at *
    rcases s with _ | s
    · cases h
    · obtain ⟨hb, h⟩ := List.cons.inj h
      have hlt' : (s + 1) * 10 / d < 10 := Nat.div_lt_of_lt_mul (by omega)
      have hsecond := Nat.div_add_mod ((s + 1) * 10) d
      generalize (s + 1) * 10 / d = y at *
      generalize (s + 1) * 10 % d = s' at *
      rcases s' with _ | s'
      · refine ⟨x, y, hlt, hlt', ha.symm, hb.symm, ?_⟩
        calc (r + 1) * 100 = (d * x + (s + 1)) * 10 := by rw [hfirst]; ring
          _ = d * (10 * x) + d * y := by rw [add_mul, ← hsecond]; ring
          _ = (10 * x + y) * d := by ring
      · cases h

/-- The digits of a number of hundredths. -/
theorem hundredths_digits (hn : n < 100) :
    (if n < 10 then "0" else "").toList ++ (toString n).toList =
      [Nat.digitChar (n / 10), Nat.digitChar (n % 10)] := by
  have h : ∀ n < 100, (if n < 10 then "0" else "").toList ++ (toString n).toList =
      [Nat.digitChar (n / 10), Nat.digitChar (n % 10)] := by decide +kernel
  exact h n hn

end Digits

section Columns

variable {m n : Numeric} {q : ℚ}

theorem chars_decimalText (places n d : ℕ) : (decimalText places n d).toList =
    (toString (n / d)).toList ++ if fractionDigits places (n % d) d = [] then [] else
      '.' :: fractionDigits places (n % d) d := by
  unfold decimalText
  dsimp only
  rw [String.toList_append]
  split <;> simp

theorem chars_text (n : Numeric) : n.text.toList = (if n.cents < 0 then ['-'] else []) ++
    ((toString (n.cents.natAbs / 100)).toList ++ '.' ::
      [Nat.digitChar (n.cents.natAbs % 100 / 10), Nat.digitChar (n.cents.natAbs % 100 % 10)]) := by
  rw [← hundredths_digits (Nat.mod_lt _ (by decide))]
  unfold Numeric.text
  split <;> simp

/-- Of a text with a sign before digits, sign and digits are determined. -/
theorem sign_inj {a b : Prop} [Decidable a] [Decidable b] {cs ds : List Char}
    (hcs : ∀ c ∈ cs.head?, c ≠ '-') (hds : ∀ d ∈ ds.head?, d ≠ '-')
    (h : (if a then ['-'] else []) ++ cs = (if b then ['-'] else []) ++ ds) :
    (a ↔ b) ∧ cs = ds := by
  by_cases ha : a <;> by_cases hb : b <;> simp only [ha, hb, if_true, if_false,
    List.cons_append, List.nil_append, List.cons.injEq, true_and] at h
  · exact ⟨iff_of_true ha hb, h⟩
  · exact absurd rfl (hds '-' (h ▸ rfl))
  · exact absurd rfl (hcs '-' (h ▸ rfl))
  · exact ⟨iff_of_false ha hb, h⟩

theorem head_toString {k : ℕ} {cs : List Char} :
    ∀ c ∈ ((toString k).toList ++ cs).head?, c ≠ '-' := by
  rintro c hc rfl
  have hne : (toString k).toList ≠ [] := by
    rw [Nat.toString_eq_repr, Nat.toList_repr]
    exact Nat.toDigits_ne_nil
  rw [List.head?_append_of_ne_nil _ hne] at hc
  exact absurd (isDigit_of_mem_toString (List.mem_of_mem_head? hc)) (by decide)

theorem text_injective : Function.Injective Numeric.text := by
  intro m n h
  have h := congrArg String.toList h
  rw [chars_text, chars_text] at h
  obtain ⟨hsign, h⟩ := sign_inj head_toString head_toString h
  obtain ⟨hwhole, hcents⟩ := split_point (fun _ => isDigit_of_mem_toString)
    (fun _ => isDigit_of_mem_toString) h
  simp only [List.cons.injEq, and_true] at hcents
  have h₁ := toString_injective hwhole
  have h₂ := digitChar_inj (by omega) (by omega) hcents.1
  have h₃ := digitChar_inj (by omega) (by omega) hcents.2
  obtain ⟨m⟩ := m
  obtain ⟨n⟩ := n
  simp only [Numeric.mk.injEq] at *
  omega

theorem not_exponent_text (n : Numeric) : 'e' ∉ n.text.toList := by
  rw [chars_text]
  simp only [List.mem_append, List.mem_cons, List.not_mem_nil, or_false, not_or]
  have hdigit (k : ℕ) (hk : k < 10) : 'e' ≠ Nat.digitChar k := by
    interval_cases k <;> decide
  refine ⟨?_, fun h => absurd (isDigit_of_mem_toString h) (by decide), by decide,
    hdigit _ (by omega), hdigit _ (by omega)⟩
  split <;> decide

/-- A number written without an exponent is written as its sign and its digits. -/
theorem numberText_of_plain (h : 'e' ∉ (numberText q).toList) :
    numberText q = (if q.num < 0 then "-" else "") ++ decimalText 22 q.num.natAbs q.den := by
  unfold numberText at h ⊢
  dsimp only at h ⊢
  rw [String.toList_append, List.mem_append, not_or] at h
  replace h := h.2
  refine congrArg _ ?_
  split
  · rfl
  · rename_i hlarge
    rw [if_neg hlarge] at h
    split at h <;> simp at h

/-- A quotient that is written with the digits of so many hundredths is as many hundredths. -/
theorem mul_hundred_of_digits {n d m : ℕ} (hd : 0 < d)
    (h : (decimalText 22 n d).toList = (toString (m / 100)).toList ++ '.' ::
      [Nat.digitChar (m % 100 / 10), Nat.digitChar (m % 100 % 10)]) : n * 100 = m * d := by
  rw [chars_decimalText] at h
  -- a whole number is written without a point, so the fraction is there
  split at h
  · rw [List.append_nil] at h
    have hpoint : '.' ∈ (toString (n / d)).toList :=
      h ▸ List.mem_append_right _ List.mem_cons_self
    exact absurd (isDigit_of_mem_toString hpoint) (by decide)
  · obtain ⟨hwhole, hfraction⟩ := split_point (fun _ => isDigit_of_mem_toString)
      (fun _ => isDigit_of_mem_toString) h
    obtain ⟨x, y, hx, hy, hxc, hyc, hrest⟩ := fractionDigits_two hd (Nat.mod_lt _ hd) hfraction
    have hw := toString_injective hwhole
    have hx' := digitChar_inj (by omega) hx hxc
    have hy' := digitChar_inj (by omega) hy hyc
    have hm : m = 100 * (n / d) + (10 * x + y) := by omega
    rw [hm, add_mul, ← hrest]
    nth_rewrite 1 [← Nat.div_add_mod n d]
    ring

/-- A quotient of as many hundredths and the same sign is the column's value. -/
theorem toNumber_of_hundredths {n : Numeric} (hsign : q.num < 0 ↔ n.cents < 0)
    (h : q.num.natAbs * 100 = n.cents.natAbs * q.den) : n.toNumber = q := by
  have hnum : q.num * 100 = n.cents * q.den := by
    have hcast : (q.num.natAbs : ℤ) * 100 = n.cents.natAbs * q.den := by exact_mod_cast h
    by_cases hneg : q.num < 0
    · rw [Int.ofNat_natAbs_of_nonpos hneg.le,
        Int.ofNat_natAbs_of_nonpos (hsign.mp hneg).le] at hcast
      linarith
    · have hn : ¬ n.cents < 0 := fun hn => hneg (hsign.mpr hn)
      rwa [Int.natAbs_of_nonneg (not_lt.mp hneg), Int.natAbs_of_nonneg (not_lt.mp hn)] at hcast
  have hd : (q.den : ℚ) ≠ 0 := by exact_mod_cast q.den_ne_zero
  have hcast : (q.num : ℚ) * 100 = n.cents * q.den := by exact_mod_cast hnum
  rw [Numeric.toNumber, ← Rat.num_div_den q, div_eq_div_iff (by norm_num) hd]
  exact hcast.symm

/-- A number written like a column's value is that value. -/
theorem ofNumber_of_text (h : numberText q = n.text) : Numeric.ofNumber q = n := by
  have hchars := congrArg String.toList h
  have hminus : (if q.num < 0 then "-" else "").toList = if q.num < 0 then ['-'] else [] := by
    split <;> rfl
  rw [numberText_of_plain (h ▸ not_exponent_text n), String.toList_append, hminus,
    chars_text] at hchars
  have hdigits : ∀ c ∈ (decimalText 22 q.num.natAbs q.den).toList.head?, c ≠ '-' := by
    rw [chars_decimalText]
    exact head_toString
  obtain ⟨hsign, hchars⟩ := sign_inj hdigits head_toString hchars
  rw [← toNumber_of_hundredths hsign (mul_hundred_of_digits q.den_pos hchars),
    Numeric.ofNumber_toNumber]

end Columns

end Wire
