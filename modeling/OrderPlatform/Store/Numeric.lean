import Mathlib.Data.Rat.Floor
import Mathlib.Tactic.FieldSimp
import Mathlib.Tactic.Linarith
import Mathlib.Tactic.Ring

/-! # Decimal columns with two places

A stored decimal is a whole number of hundredths. Reading it gives an exact number;
storing a number rounds it to two places, half away from zero. Numbers that already
have two places survive the round trip.
-/

namespace Store

/-- A value of a decimal column with two places, in hundredths. -/
structure Numeric where
  cents : ℤ
  deriving DecidableEq, Repr

namespace Numeric

def toNumber (n : Numeric) : ℚ := n.cents / 100

/-- Round a number to the two places of the column, half away from zero. -/
def ofNumber (q : ℚ) : Numeric :=
  ⟨if 0 ≤ q then ⌊q * 100 + 1 / 2⌋ else -⌊-q * 100 + 1 / 2⌋⟩

def text (n : Numeric) : String :=
  (if n.cents < 0 then "-" else "") ++ toString (n.cents.natAbs / 100) ++ "." ++
    (if n.cents.natAbs % 100 < 10 then "0" else "") ++ toString (n.cents.natAbs % 100)

def TwoDecimals (q : ℚ) : Prop := ∃ n : Numeric, n.toNumber = q

/-- A column of this many digits, two of them after the point, holds the value. -/
def Fits (precision : ℕ) (n : Numeric) : Prop := n.cents.natAbs < 10 ^ precision

instance (precision : ℕ) (n : Numeric) : Decidable (n.Fits precision) :=
  inferInstanceAs (Decidable (_ < _))

variable {m n : Numeric} {q r : ℚ} {precision : ℕ}

@[simp] theorem ofNumber_toNumber (n : Numeric) : ofNumber n.toNumber = n := by
  have h : n.toNumber * 100 = (n.cents : ℚ) := by simp [toNumber]
  have hn : -n.toNumber * 100 = ((-n.cents : ℤ) : ℚ) := by rw [neg_mul, h]; push_cast; rfl
  have hf : ∀ z : ℤ, ⌊(z : ℚ) + 1 / 2⌋ = z := fun z => by
    rw [Int.floor_intCast_add]
    norm_num
  unfold ofNumber
  rw [h, hn, hf, hf]
  simp

theorem toNumber_ofNumber (h : TwoDecimals q) : (ofNumber q).toNumber = q := by
  obtain ⟨n, rfl⟩ := h
  simp

@[simp] theorem twoDecimals_toNumber (n : Numeric) : TwoDecimals n.toNumber := ⟨n, rfl⟩

theorem toNumber_injective : Function.Injective toNumber := fun m n h => by
  have := congrArg ofNumber h
  simpa using this

@[simp] theorem toNumber_mk_zero : toNumber ⟨0⟩ = 0 := by simp [toNumber]

theorem TwoDecimals.add (hq : TwoDecimals q) (hr : TwoDecimals r) : TwoDecimals (q + r) := by
  obtain ⟨m, rfl⟩ := hq
  obtain ⟨n, rfl⟩ := hr
  exact ⟨⟨m.cents + n.cents⟩, by simp only [toNumber]; push_cast; ring⟩

theorem TwoDecimals.sub (hq : TwoDecimals q) (hr : TwoDecimals r) : TwoDecimals (q - r) := by
  obtain ⟨m, rfl⟩ := hq
  obtain ⟨n, rfl⟩ := hr
  exact ⟨⟨m.cents - n.cents⟩, by simp only [toNumber]; push_cast; ring⟩

theorem TwoDecimals.mul_natCast (hq : TwoDecimals q) (k : ℕ) : TwoDecimals (q * k) := by
  obtain ⟨n, rfl⟩ := hq
  exact ⟨⟨n.cents * k⟩, by simp only [toNumber]; push_cast; ring⟩

theorem twoDecimals_natCast (k : ℕ) : TwoDecimals k :=
  ⟨⟨k * 100⟩, by simp [toNumber]⟩

theorem TwoDecimals.sum {qs : List ℚ} (h : ∀ q ∈ qs, TwoDecimals q) : TwoDecimals qs.sum := by
  induction qs with
  | nil => exact ⟨⟨0⟩, toNumber_mk_zero⟩
  | cons q qs ih =>
    rw [List.sum_cons]
    exact (h q List.mem_cons_self).add (ih fun r hr => h r (List.mem_cons_of_mem _ hr))

theorem TwoDecimals.den_dvd (h : TwoDecimals q) : q.den ∣ 100 := by
  obtain ⟨n, rfl⟩ := h
  have hn : n.toNumber = Rat.divInt n.cents 100 := by
    rw [Rat.divInt_eq_div]
    simp [toNumber]
  rw [hn]
  exact_mod_cast Rat.den_dvd n.cents 100

theorem toNumber_ofNumber_nonneg (h : 0 ≤ q) : 0 ≤ (ofNumber q).toNumber := by
  have hf : 0 ≤ ⌊q * 100 + 1 / 2⌋ := Int.floor_nonneg.mpr (by linarith)
  have : (0 : ℚ) ≤ ⌊q * 100 + 1 / 2⌋ := by exact_mod_cast hf
  simp only [ofNumber, if_pos h, toNumber]
  linarith

theorem natAbs_cents (h : 0 ≤ n.toNumber) : (n.cents.natAbs : ℚ) = n.toNumber * 100 := by
  have hc : (n.cents : ℚ) = n.toNumber * 100 := by simp [toNumber]
  rw [Nat.cast_natAbs, Int.cast_abs, hc, abs_of_nonneg (by positivity)]

/-- A value that is not negative fits when its whole part has two digits less. -/
theorem fits_iff (h : 0 ≤ n.toNumber) : n.Fits (precision + 2) ↔ n.toNumber < 10 ^ precision := by
  rw [Fits, ← Nat.cast_lt (α := ℚ), natAbs_cents h, pow_add]
  push_cast
  constructor <;> intro hlt <;> linarith

theorem Fits.of_le (hn : n.Fits precision) (h : 0 ≤ m.toNumber) (hle : m.toNumber ≤ n.toNumber) :
    m.Fits precision := by
  have hq : (m.cents.natAbs : ℚ) ≤ n.cents.natAbs := by
    rw [natAbs_cents h, natAbs_cents (h.trans hle)]
    linarith
  exact (Nat.cast_le.mp hq).trans_lt hn

end Numeric

end Store
