import OrderPlatform.OrderService.Validation
import OrderPlatform.Wire.Calendar

/-! # Order numbers over time

The number of an order is a date and a count: the date is the UTC one, the count is of the
orders since local midnight. A day of either calendar meets two of the other, and the count
starts over in the middle of a date.
-/

namespace OrderService

open Wire

/-- The first ten characters of an ISO text, without the dashes. -/
def dateStr (now : ℕ) : String :=
  String.ofList (((isoDate (now / msPerDay)).take 10).filter (· ≠ '-'))

/-- The day of a clock that is `offset` ahead of UTC. -/
def localDay (offset : ℤ) (now : ℕ) : ℤ := (now + offset) / msPerDay

/-- `startOfDay.setHours(0, 0, 0, 0)`. -/
def startOfDay (offset : ℤ) (now : ℕ) : ℕ := (localDay offset now * msPerDay - offset).toNat

def clockAt (offset : ℤ) (now : ℕ) (timestamp : String) : CreateClock :=
  ⟨now, timestamp, dateStr now, startOfDay offset now⟩

/-- The last instant a date of the runtime holds. -/
def maxTime : ℕ := 8640000000000000

section Dates

variable {t t' t'' : ℕ}

theorem notMem_dateStr (t : ℕ) : '-' ∉ (dateStr t).toList := by
  rw [dateStr, String.toList_ofList, List.mem_filter]
  simp

theorem filter_padStart (k n : ℕ) : (padStart k n).filter (· ≠ '-') = padStart k n := by
  refine List.filter_eq_self.2 fun c hc => decide_eq_true fun h => ?_
  exact notMem_padStart (by decide) k n (h ▸ hc)

theorem filter_dash (l : List Char) : ('-' :: l).filter (· ≠ '-') = l.filter (· ≠ '-') :=
  List.filter_cons_of_neg (by decide)

theorem year_lt (ht : t ≤ maxTime) : year (t / msPerDay) < 10 ^ 6 := by
  have h := (mul_le_yearStart _).trans (yearStart_le (t / msPerDay))
  have hd : t / msPerDay ≤ 100000000 := Nat.div_le_of_le_mul ht
  rw [year]
  omega

theorem length_month (day : ℕ) : (padStart 2 (month day + 1)).length = 2 :=
  length_padStart (by decide) (by have := month_le day; omega)

theorem length_dayInMonth (day : ℕ) : (padStart 2 (dayInMonth day + 1)).length = 2 :=
  length_padStart (by decide) (by have := dayInMonth_lt day; omega)

/-- A year of four digits leaves room for the whole date. -/
theorem toList_dateStr_of_le (h : year (t / msPerDay) ≤ 9999) :
    (dateStr t).toList = padStart 4 (year (t / msPerDay)) ++
      (padStart 2 (month (t / msPerDay) + 1) ++ padStart 2 (dayInMonth (t / msPerDay) + 1)) := by
  have hy : (padStart 4 (year (t / msPerDay))).length = 4 := length_padStart (by decide) (by omega)
  rw [dateStr, String.toList_ofList, isoDate, if_pos h, List.take_of_length_le]
  · rw [List.filter_append, List.filter_append, filter_dash, filter_dash, filter_padStart,
      filter_padStart, filter_padStart, List.append_assoc]
  · simp [hy, length_month, length_dayInMonth]

/-- A longer one takes the place of the day. -/
theorem toList_dateStr_of_lt (h : 9999 < year (t / msPerDay)) (ht : t ≤ maxTime) :
    (dateStr t).toList = '+' :: padStart 6 (year (t / msPerDay)) ++
      padStart 2 (month (t / msPerDay) + 1) := by
  have hy : (padStart 6 (year (t / msPerDay))).length = 6 :=
    length_padStart (by decide) (year_lt ht)
  rw [dateStr, String.toList_ofList, isoDate, if_neg (not_le.2 h), List.take_left']
  · rw [List.filter_append, filter_dash, List.filter_cons_of_pos (by decide), filter_padStart,
      filter_padStart]
  · simp [hy, length_month]

/-- What the date of a number tells of the day. -/
structure SameDate (t t' : ℕ) : Prop where
  year : year (t / msPerDay) = year (t' / msPerDay)
  month : month (t / msPerDay) = month (t' / msPerDay)
  day : Wire.year (t / msPerDay) ≤ 9999 → t / msPerDay = t' / msPerDay

/-- The sign tells the two forms apart. -/
theorem plus_mem_iff (ht : t ≤ maxTime) :
    '+' ∈ (dateStr t).toList ↔ 9999 < year (t / msPerDay) := by
  rcases Nat.lt_or_ge 9999 (year (t / msPerDay)) with h | h
  · rw [toList_dateStr_of_lt h ht]
    exact iff_of_true (List.mem_append_left _ List.mem_cons_self) h
  · have hp (k n : ℕ) : '+' ∉ padStart k n := notMem_padStart (by decide) k n
    rw [toList_dateStr_of_le h]
    exact iff_of_false (by simp [hp]) (not_lt.2 h)

theorem dateStr_eq_iff (ht : t ≤ maxTime) (ht' : t' ≤ maxTime) :
    dateStr t = dateStr t' ↔ SameDate t t' := by
  have hlen (day : ℕ) (k : ℕ) (hk : 0 < k) (hy : year day < 10 ^ k) :
      (padStart k (year day)).length = k := length_padStart hk hy
  constructor
  · intro h
    have hp := (plus_mem_iff ht).symm.trans ((by rw [h]) : _ ↔ '+' ∈ (dateStr t').toList)
    rw [plus_mem_iff ht'] at hp
    rw [← String.toList_inj] at h
    rcases Nat.lt_or_ge 9999 (year (t / msPerDay)) with hy | hy
    · rw [toList_dateStr_of_lt hy ht, toList_dateStr_of_lt (hp.1 hy) ht'] at h
      obtain ⟨hyear, hmonth⟩ := List.append_inj (List.cons.inj h).2
        (by rw [hlen _ 6 (by decide) (year_lt ht), hlen _ 6 (by decide) (year_lt ht')])
      exact ⟨padStart_inj.1 hyear, Nat.succ.inj (padStart_inj.1 hmonth), fun h => by omega⟩
    · have hy' : year (t' / msPerDay) ≤ 9999 := not_lt.1 fun h => not_lt.2 hy (hp.2 h)
      rw [toList_dateStr_of_le hy, toList_dateStr_of_le hy'] at h
      obtain ⟨hyear, h⟩ := List.append_inj h
        (by rw [hlen _ 4 (by decide) (by omega), hlen _ 4 (by decide) (by omega)])
      obtain ⟨hmonth, hday⟩ := List.append_inj h (by rw [length_month, length_month])
      have hyear := padStart_inj.1 hyear
      have hmonth := Nat.succ.inj (padStart_inj.1 hmonth)
      exact ⟨hyear, hmonth, fun _ => day_ext hyear hmonth (Nat.succ.inj (padStart_inj.1 hday))⟩
  · rintro ⟨hyear, hmonth, hday⟩
    rw [← String.toList_inj]
    rcases Nat.lt_or_ge 9999 (year (t / msPerDay)) with hy | hy
    · rw [toList_dateStr_of_lt hy ht, toList_dateStr_of_lt (hyear ▸ hy) ht', hyear, hmonth]
    · rw [dateStr, dateStr, hday hy]

/-- Between two instants of one date, every instant has that date. -/
theorem dateStr_convex (h : t ≤ t') (h' : t' ≤ t'') (ht : t'' ≤ maxTime)
    (hd : dateStr t = dateStr t'') : dateStr t' = dateStr t'' := by
  obtain ⟨hyear, hmonth, hday⟩ := (dateStr_eq_iff ((h.trans h').trans ht) ht).1 hd
  have hz : t / msPerDay ≤ t' / msPerDay := Nat.div_le_div_right h
  have hz' : t' / msPerDay ≤ t'' / msPerDay := Nat.div_le_div_right h'
  have hyear' := le_antisymm (year_mono hz') (hyear.ge.trans (year_mono hz))
  have hmonth' := le_antisymm (month_mono hyear' hz')
    (hmonth.ge.trans (month_mono (hyear.trans hyear'.symm) hz))
  refine (dateStr_eq_iff (h'.trans ht) ht).2 ⟨hyear', hmonth', fun hy => ?_⟩
  exact le_antisymm hz' ((hday (by rwa [hyear, ← hyear'])).ge.trans hz)

end Dates

/-- How many orders the count of a number takes in. -/
def rank (offset : ℤ) (orders : List Order) (now : ℕ) : ℕ :=
  orders.countP fun o => startOfDay offset now ≤ o.createdAt

def orderNumber (date : String) (sequence : ℕ) : String :=
  "ORD-" ++ date ++ "-" ++ String.ofList (padStart 5 sequence)

section Numbers

variable {offset : ℤ} {t t' : ℕ} {orders orders' : List Order}

theorem generateOrderNumber_clockAt (db : Db) (offset : ℤ) (now : ℕ) (timestamp : String) :
    db.generateOrderNumber (clockAt offset now timestamp) =
      orderNumber (dateStr now) (rank offset db.orders now + 1) := rfl

theorem orderNumber_inj {date date' : String} {n n' : ℕ} (hd : '-' ∉ date.toList)
    (hd' : '-' ∉ date'.toList) :
    orderNumber date n = orderNumber date' n' ↔ date = date' ∧ n = n' := by
  constructor
  · intro h
    obtain ⟨hdate, hn⟩ := prefixed_joined_inj rfl hd hd' h
    exact ⟨hdate, padStart_inj.1 (String.ofList_injective hn)⟩
  · rintro ⟨rfl, rfl⟩
    rfl

theorem number_eq_iff :
    orderNumber (dateStr t) (rank offset orders t + 1) =
      orderNumber (dateStr t') (rank offset orders' t' + 1) ↔
    dateStr t = dateStr t' ∧ rank offset orders t = rank offset orders' t' := by
  rw [orderNumber_inj (notMem_dateStr t) (notMem_dateStr t'), Nat.add_right_cancel_iff]

theorem localDay_mono (h : t ≤ t') : localDay offset t ≤ localDay offset t' :=
  Int.ediv_le_ediv (by decide) (by omega)

theorem startOfDay_le_iff : startOfDay offset t ≤ t' ↔ localDay offset t ≤ localDay offset t' := by
  rw [startOfDay, Int.toNat_le, sub_le_iff_le_add]
  exact (Int.le_ediv_iff_mul_le (by decide)).symm

/-- As long as no order lies ahead, the count is of the orders of the local day. -/
theorem rank_eq (h : ∀ o ∈ orders, o.createdAt ≤ t) :
    rank offset orders t =
      orders.countP fun o => localDay offset o.createdAt = localDay offset t := by
  refine List.countP_congr fun o ho => ?_
  rw [decide_eq_true_iff, decide_eq_true_iff, startOfDay_le_iff]
  exact ⟨fun hle => le_antisymm (localDay_mono (h o ho)) hle, fun he => he.ge⟩

end Numbers

/-- A number that was generated: when, and among how many orders. -/
structure Generation where
  now : ℕ
  rows : ℕ
  number : String
  deriving DecidableEq, Repr

/-- The number generated at an instant, among the orders there are. -/
def Generation.draw (offset : ℤ) (orders : List Order) (now : ℕ) : Generation :=
  ⟨now, orders.length, orderNumber (dateStr now) (rank offset orders now + 1)⟩

/-- The number is the one of its instant among the orders there were. -/
structure Generation.Counted (offset : ℤ) (orders : List Order) (g : Generation) : Prop where
  rows : g.rows ≤ orders.length
  number : g.number = orderNumber (dateStr g.now) (rank offset (orders.take g.rows) g.now + 1)

section Counted

variable {offset : ℤ} {orders : List Order} {g : Generation} {now : ℕ}

theorem countP_take_add_drop {α : Type*} (p : α → Bool) (l : List α) (n : ℕ) :
    l.countP p = (l.take n).countP p + (l.drop n).countP p := by
  rw [← List.countP_append, List.take_append_drop]

theorem Generation.counted_draw (offset : ℤ) (orders : List Order) (now : ℕ) :
    (draw offset orders now).Counted offset orders :=
  ⟨le_rfl, by rw [draw, List.take_length]⟩

/-- Orders are added at the end, after those a number counted. -/
theorem Generation.Counted.append (h : g.Counted offset orders) (os : List Order) :
    g.Counted offset (orders ++ os) := by
  constructor
  · exact h.rows.trans (by rw [List.length_append]; omega)
  · rw [List.take_append_of_le_length h.rows]
    exact h.number

theorem Generation.Counted.number_ne_iff (h : g.Counted offset orders) :
    g.number ≠ (draw offset orders now).number ↔
      (dateStr g.now = dateStr now →
        rank offset (orders.take g.rows) g.now ≠ rank offset orders now) := by
  rw [h.number, draw, Ne, number_eq_iff, not_and]

/-- On one local day, the count grows by the orders stored since that bear the day or a later. -/
theorem rank_same_day (hl : localDay offset g.now = localDay offset now) :
    rank offset orders now = rank offset (orders.take g.rows) g.now +
      rank offset (orders.drop g.rows) now := by
  have hstart : startOfDay offset g.now = startOfDay offset now := by
    rw [startOfDay, startOfDay, hl]
  rw [rank, countP_take_add_drop _ orders g.rows, rank, hstart, rank]

end Counted

end OrderService
