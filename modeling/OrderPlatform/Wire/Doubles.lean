import Mathlib.Algebra.Order.Field.Rat
import Mathlib.Data.Int.Log
import Mathlib.Data.Rat.Floor

/-! # Numbers of the runtime

A number is known to its readers by its text: the shortest decimal whose nearest binary64 value
it is. Products and sums are rounded to the nearest value, so they are exact for whole numbers
of 53 binary digits, and seldom for others. Values beyond the largest one are not modelled.
-/

namespace Wire

namespace Double

/-- The nearest whole number, the even one of two that are equally near. -/
def roundEven (q : ℚ) : ℤ :=
  let below := ⌊q⌋
  if q - below < 1 / 2 ∨ q - below = 1 / 2 ∧ below % 2 = 0 then below else below + 1

/-- The nearest binary64 value. -/
def nearest (q : ℚ) : ℚ :=
  let unit : ℚ := 2 ^ max (Int.log 2 |q| - 52) (-1074)
  roundEven (q / unit) * unit

/-- The two decimals of `k` digits about a number, the nearer one first. -/
def neighbours (k : ℕ) (x : ℚ) : List ℚ :=
  let unit : ℚ := 10 ^ (Int.log 10 |x| + 1 - k)
  let near := roundEven (x / unit)
  [near * unit, (if near * unit ≤ x then near + 1 else near - 1) * unit]

/-- The first decimal of `k` digits or more that is read as the value. -/
def shortestFrom (x : ℚ) : ℕ → ℕ → ℚ
  | 0, _ => x
  | n + 1, k => ((neighbours k x).find? fun s => nearest s = x).getD (shortestFrom x n (k + 1))

/-- The decimal that a value is written as; seventeen digits always tell it. -/
def shortest (x : ℚ) : ℚ := shortestFrom x 17 1

def plus (a b : ℚ) : ℚ := shortest (nearest (nearest a + nearest b))

def times (a b : ℚ) : ℚ := shortest (nearest (nearest a * nearest b))

section Rounding

variable {q : ℚ} {z : ℤ} {n : ℕ}

@[simp] theorem roundEven_intCast (z : ℤ) : roundEven z = z := by
  simp [roundEven]

theorem le_roundEven (h : (z : ℚ) ≤ q) : z ≤ roundEven q := by
  have hz : z ≤ ⌊q⌋ := Int.le_floor.mpr h
  unfold roundEven
  dsimp only
  split <;> omega

theorem log_natCast (b n : ℕ) : Int.log b |(n : ℚ)| = Nat.log b n := by
  rw [Nat.abs_cast, Int.log_natCast]

/-- A whole number of 53 binary digits is a value of its own. -/
theorem nearest_natCast (h : n < 2 ^ 53) : nearest n = n := by
  have hlog : Nat.log 2 n ≤ 52 := by
    rcases Nat.eq_zero_or_pos n with rfl | hn
    · simp
    · exact Nat.lt_succ_iff.mp (Nat.log_lt_of_lt_pow hn.ne' h)
  obtain ⟨k, hk⟩ := Nat.exists_eq_add_of_le hlog
  have hunit : max ((Nat.log 2 n : ℤ) - 52) (-1074) = -(k : ℤ) := by omega
  have hscaled : (n : ℚ) / 2 ^ (-(k : ℤ)) = ((n * 2 ^ k : ℕ) : ℤ) := by
    rw [zpow_neg, div_inv_eq_mul, zpow_natCast]
    push_cast
    rfl
  unfold nearest
  dsimp only
  rw [log_natCast, hunit, hscaled, roundEven_intCast, ← hscaled]
  exact div_mul_cancel₀ _ (zpow_ne_zero _ two_ne_zero)

/-- Rounding takes no number of more digits below these. -/
theorem le_nearest (h : 2 ^ 53 ≤ n) : 2 ^ 53 ≤ nearest n := by
  have hn : n ≠ 0 := fun he => by rw [he] at h; exact absurd h (by decide)
  have hlog : 53 ≤ Nat.log 2 n := Nat.le_log_of_pow_le (by decide) h
  obtain ⟨k, hk⟩ := Nat.exists_eq_add_of_le hlog
  have hunit : max ((Nat.log 2 n : ℤ) - 52) (-1074) = ((k + 1 : ℕ) : ℤ) := by omega
  have hpow : (2 : ℚ) ^ (52 + (k + 1)) ≤ n := by
    have := Nat.pow_log_le_self 2 hn
    rw [hk, show 53 + k = 52 + (k + 1) by ring] at this
    exact_mod_cast this
  have hround : (2 ^ 52 : ℤ) ≤ roundEven (n / 2 ^ (k + 1)) := by
    refine le_roundEven ?_
    rw [le_div_iff₀ (by positivity), Int.cast_pow, Int.cast_ofNat, ← pow_add]
    exact hpow
  unfold nearest
  dsimp only
  rw [log_natCast, hunit, zpow_natCast]
  have hround : (2 : ℚ) ^ 52 ≤ roundEven (n / 2 ^ (k + 1)) := by exact_mod_cast hround
  have hunit' : (2 : ℚ) ^ 1 ≤ 2 ^ (k + 1) := pow_le_pow_right₀ one_le_two (by omega)
  calc (2 : ℚ) ^ 53 = 2 ^ 52 * 2 ^ 1 := by norm_num
    _ ≤ (roundEven (n / 2 ^ (k + 1)) : ℚ) * 2 ^ (k + 1) :=
      mul_le_mul hround hunit' (by norm_num) (le_trans (by norm_num) hround)

/-- No other whole number is read as one of 53 binary digits. -/
theorem eq_of_nearest {m : ℕ} (hn : n < 2 ^ 53) (h : nearest m = n) : m = n := by
  rcases Nat.lt_or_ge m (2 ^ 53) with hm | hm
  · rw [nearest_natCast hm] at h
    exact_mod_cast h
  · have hle := le_nearest hm
    rw [h] at hle
    have : 2 ^ 53 ≤ n := by exact_mod_cast hle
    omega

end Rounding

section Texts

variable {s : ℚ} {k m n : ℕ}

/-- With no more digits than its own, the decimals about a whole number are whole. -/
theorem natCast_of_mem_neighbours (hk : k ≤ Nat.log 10 n + 1) (h : s ∈ neighbours k n) :
    ∃ m : ℕ, s = m := by
  obtain ⟨j, hj⟩ := Nat.exists_eq_add_of_le hk
  have hunit : (10 : ℚ) ^ (Int.log 10 |(n : ℚ)| + 1 - k) = ((10 ^ j : ℕ) : ℚ) := by
    rw [log_natCast, show ((Nat.log 10 n : ℤ) + 1 - k) = (j : ℤ) by omega, zpow_natCast]
    push_cast
    rfl
  unfold neighbours at h
  dsimp only at h
  rw [hunit] at h
  generalize hz : roundEven ((n : ℚ) / (10 ^ j : ℕ)) = z at h
  have hnonneg : 0 ≤ z := hz ▸ le_roundEven (by push_cast; positivity)
  have hcast (y : ℤ) (hy : 0 ≤ y) : ∃ m : ℕ, (y : ℚ) * (10 ^ j : ℕ) = m := by
    obtain ⟨y, rfl⟩ := Int.eq_ofNat_of_zero_le hy
    exact ⟨y * 10 ^ j, by push_cast; rfl⟩
  simp only [List.mem_cons, List.not_mem_nil, or_false] at h
  rcases h with rfl | rfl
  · exact hcast z hnonneg
  · split
    · exact hcast (z + 1) (by omega)
    · rename_i hlt
      refine hcast (z - 1) ?_
      -- a decimal above the number is not zero
      rcases hnonneg.lt_or_eq with hpos | rfl
      · omega
      · exact absurd (by simp) hlt

theorem mem_neighbours_self : (n : ℚ) ∈ neighbours (Nat.log 10 n + 1) n := by
  have hunit : (Nat.log 10 n : ℤ) + 1 - ((Nat.log 10 n + 1 : ℕ) : ℤ) = 0 := by omega
  have hround : roundEven (n : ℚ) = n := by exact_mod_cast roundEven_intCast (n : ℤ)
  unfold neighbours
  dsimp only
  rw [log_natCast, hunit, zpow_zero, div_one, hround]
  simp

theorem shortestFrom_natCast (hn : n < 2 ^ 53) {fuel : ℕ} (hk : k ≤ Nat.log 10 n + 1)
    (hfuel : Nat.log 10 n + 1 < k + fuel) : shortestFrom n fuel k = n := by
  induction fuel generalizing k with
  | zero => omega
  | succ fuel ih =>
    rw [shortestFrom]
    cases hf : (neighbours k (n : ℚ)).find? fun s => nearest s = n with
    | some s =>
      obtain ⟨m, rfl⟩ := natCast_of_mem_neighbours hk (List.mem_of_find?_eq_some hf)
      have hs : nearest m = n := by simpa using List.find?_some hf
      rw [Option.getD_some, eq_of_nearest hn hs]
    | none =>
      have hne : k ≠ Nat.log 10 n + 1 := by
        rintro rfl
        have hself := List.find?_eq_none.mp hf n mem_neighbours_self
        rw [nearest_natCast hn] at hself
        exact hself (by simp)
      exact ih (by omega) (by omega)

/-- A whole number of 53 binary digits is written as itself. -/
theorem shortest_natCast (hn : n < 2 ^ 53) : shortest n = n := by
  have hlog : Nat.log 10 n < 16 := by
    rcases Nat.eq_zero_or_pos n with rfl | h
    · simp
    · exact Nat.log_lt_of_lt_pow h.ne' (hn.trans (by norm_num))
  exact shortestFrom_natCast hn (by omega) (by omega)

theorem plus_natCast (h : m + n < 2 ^ 53) : plus m n = ((m + n : ℕ) : ℚ) := by
  rw [plus, nearest_natCast (by omega), nearest_natCast (by omega), ← Nat.cast_add,
    nearest_natCast h, shortest_natCast h]

theorem times_natCast (hm : m < 2 ^ 53) (hn : n < 2 ^ 53) (h : m * n < 2 ^ 53) :
    times m n = ((m * n : ℕ) : ℚ) := by
  rw [times, nearest_natCast hm, nearest_natCast hn, ← Nat.cast_mul, nearest_natCast h,
    shortest_natCast h]

end Texts

end Double

/-- How amounts are multiplied and added: as decimals, or as the runtime's numbers. -/
inductive Arithmetic
  | exact | double
  deriving DecidableEq, Repr

namespace Arithmetic

def plus : Arithmetic → ℚ → ℚ → ℚ
  | .exact => (· + ·)
  | .double => Double.plus

def times : Arithmetic → ℚ → ℚ → ℚ
  | .exact => (· * ·)
  | .double => Double.times

/-- The amounts added up one after the other, from nothing. -/
def sum (a : Arithmetic) (qs : List ℚ) : ℚ := qs.foldl a.plus 0

@[simp] theorem times_exact (q r : ℚ) : exact.times q r = q * r := rfl

@[simp] theorem sum_exact (qs : List ℚ) : exact.sum qs = qs.sum :=
  (List.sum_eq_foldl ..).symm

/-- Whole numbers are added up without a rounding error as long as the sum has 53 digits. -/
theorem sum_natCast {ns : List ℕ} (h : ns.sum < 2 ^ 53) :
    double.sum (ns.map fun n : ℕ => (n : ℚ)) = (ns.sum : ℕ) := by
  have hfold (m : ℕ) (hm : m + ns.sum < 2 ^ 53) :
      (ns.map fun n : ℕ => (n : ℚ)).foldl Double.plus m = ((m + ns.sum : ℕ) : ℚ) := by
    induction ns generalizing m with
    | nil => simp
    | cons n ns ih =>
      rw [List.sum_cons] at hm h
      rw [List.map_cons, List.foldl_cons, Double.plus_natCast (by omega),
        ih (by omega) _ (by omega), List.sum_cons, add_assoc]
  have := hfold 0 (by omega)
  rwa [Nat.cast_zero, zero_add] at this

end Arithmetic

example : Arithmetic.double.times (1 / 10) 3 = 30000000000000004 / 10 ^ 17 := by decide +kernel

end Wire
