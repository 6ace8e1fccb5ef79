import Mathlib.Data.Nat.Find
import OrderPlatform.Wire.Texts

/-! # Days, months and years

The calendar of a clock that counts milliseconds since 1970: the year is the last one that
has begun, the month the last one of the year that has begun, and an ISO text is their digits.
-/

namespace Wire

def msPerDay : ℕ := 86400000

/-- The last of a sequence of days that has come by a given day. -/
def lastStart (start : ℕ → ℕ) (bound day : ℕ) : ℕ := Nat.findGreatest (fun n => start n ≤ day) bound

section LastStart

variable {start : ℕ → ℕ} {bound bound' day day' : ℕ}

theorem start_lastStart_le (h0 : start 0 = 0) : start (lastStart start bound day) ≤ day :=
  Nat.findGreatest_spec (P := fun n => start n ≤ day) (Nat.zero_le bound)
    (h0.trans_le (Nat.zero_le day))

theorem lt_start_lastStart_succ (hb : lastStart start bound day < bound) :
    day < start (lastStart start bound day + 1) :=
  not_le.1 (Nat.findGreatest_is_greatest (P := fun n => start n ≤ day) (Nat.lt_succ_self _) hb)

theorem lastStart_mono (hb : bound ≤ bound') (hd : day ≤ day') :
    lastStart start bound day ≤ lastStart start bound' day' :=
  Nat.findGreatest_mono (fun _ h => h.trans hd) hb

end LastStart

def isLeap (year : ℕ) : Bool := year % 4 = 0 ∧ (year % 100 ≠ 0 ∨ year % 400 = 0)

/-- The day on which the `n`-th year after 1970 begins. -/
def yearStart : ℕ → ℕ
  | 0 => 0
  | n + 1 => yearStart n + if isLeap (1970 + n) then 366 else 365

/-- Years since 1970. -/
def yearsSince (day : ℕ) : ℕ := lastStart yearStart (day / 365) day

def dayInYear (day : ℕ) : ℕ := day - yearStart (yearsSince day)

/-- The day of the year on which a month begins; January is month 0. -/
def monthStart (leap : Bool) (month : ℕ) : ℕ :=
  (([31, if leap then 29 else 28, 31, 30, 31, 30, 31, 31, 30, 31, 30, 31] : List ℕ).take month).sum

def year (day : ℕ) : ℕ := 1970 + yearsSince day

def month (day : ℕ) : ℕ := lastStart (monthStart (isLeap (year day))) 11 (dayInYear day)

/-- The day of the month, from 0 on. -/
def dayInMonth (day : ℕ) : ℕ := dayInYear day - monthStart (isLeap (year day)) (month day)

/-- The date an ISO text begins with; a year of more than four digits has a sign and six. -/
def isoDate (day : ℕ) : List Char :=
  (if year day ≤ 9999 then padStart 4 (year day) else '+' :: padStart 6 (year day)) ++
    '-' :: padStart 2 (month day + 1) ++ '-' :: padStart 2 (dayInMonth day + 1)

section Bounds

variable {day day' : ℕ}

theorem mul_le_yearStart (n : ℕ) : 365 * n ≤ yearStart n := by
  induction n with
  | zero => exact le_rfl
  | succ n ih =>
    rw [yearStart]
    split <;> omega

theorem yearStart_le (day : ℕ) : yearStart (yearsSince day) ≤ day := start_lastStart_le rfl

theorem lt_yearStart_succ (day : ℕ) : day < yearStart (yearsSince day + 1) := by
  rcases Nat.lt_or_ge (yearsSince day) (day / 365) with h | h
  · exact lt_start_lastStart_succ h
  · have := mul_le_yearStart (yearsSince day + 1)
    omega

theorem year_mono (h : day ≤ day') : year day ≤ year day' :=
  Nat.add_le_add_left (lastStart_mono (Nat.div_le_div_right h) h) _

theorem monthStart_month_le (day : ℕ) :
    monthStart (isLeap (year day)) (month day) ≤ dayInYear day := start_lastStart_le rfl

theorem month_le (day : ℕ) : month day ≤ 11 := Nat.findGreatest_le _

theorem dayInYear_lt (day : ℕ) : dayInYear day < monthStart (isLeap (year day)) 12 := by
  have h := lt_yearStart_succ day
  rw [yearStart] at h
  rw [dayInYear, year]
  cases hl : isLeap (1970 + yearsSince day) <;> rw [hl] at h
  · change _ < 365
    simp only [Bool.false_eq_true, if_false] at h
    have := yearStart_le day
    omega
  · change _ < 366
    simp only [if_true] at h
    have := yearStart_le day
    omega

theorem monthStart_succ_le (leap : Bool) : ∀ m ≤ 11, monthStart leap (m + 1) ≤
    monthStart leap m + 31 := by
  cases leap <;> decide

theorem dayInMonth_lt (day : ℕ) : dayInMonth day < 31 := by
  have hsucc := monthStart_succ_le (isLeap (year day)) _ (month_le day)
  have hle := monthStart_month_le day
  have hlt : dayInYear day < monthStart (isLeap (year day)) (month day + 1) := by
    rcases Nat.lt_or_ge (month day) 11 with h | h
    · exact lt_start_lastStart_succ h
    · rw [le_antisymm (month_le day) h]
      exact dayInYear_lt day
  rw [dayInMonth]
  omega

end Bounds

section Order

variable {day day' day'' : ℕ}

theorem dayInYear_add (day : ℕ) : yearStart (yearsSince day) + dayInYear day = day := by
  rw [dayInYear]
  have := yearStart_le day
  omega

theorem dayInMonth_add (day : ℕ) :
    monthStart (isLeap (year day)) (month day) + dayInMonth day = dayInYear day := by
  rw [dayInMonth]
  have := monthStart_month_le day
  omega

theorem yearsSince_eq (h : year day = year day') : yearsSince day = yearsSince day' :=
  Nat.add_left_cancel h

/-- Within a year, months come in order. -/
theorem month_mono (hy : year day = year day') (h : day ≤ day') : month day ≤ month day' := by
  have hd : dayInYear day ≤ dayInYear day' := by
    rw [dayInYear, dayInYear, yearsSince_eq hy]
    omega
  rw [month, month, hy]
  exact lastStart_mono le_rfl hd

/-- A day is told by its year, its month and its day in the month. -/
theorem day_ext (hy : year day = year day') (hm : month day = month day')
    (hd : dayInMonth day = dayInMonth day') : day = day' := by
  rw [← dayInYear_add day, ← dayInYear_add day', ← dayInMonth_add day, ← dayInMonth_add day', hy,
    hm, hd, yearsSince_eq hy]

end Order

end Wire
