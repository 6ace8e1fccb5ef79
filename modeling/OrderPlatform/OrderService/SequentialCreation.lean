import OrderPlatform.OrderService.OrderNumbers
import OrderPlatform.Runs.Basic

/-! # Orders created one after another

Each call generates a number and stores its order before the next one starts. A number comes
again where a date goes on past local midnight, unless the local day before it had more orders
under the earlier date.
-/

namespace OrderService

open Runs Store Wire

/-- A call of `createOrder` at an instant, with its failure. -/
structure CreateCall where
  dto : CreateOrderDto
  services : Services
  correlationId : Option String
  now : ℕ
  timestamp : String
  failAt : Option CallFailure

/-- The call gets as far as a number. -/
def CreateCall.numbered (c : CreateCall) : Bool :=
  (c.dto.validate c.services).isOk && c.failAt ≠ some .generateOrderNumber

/-- A number that was generated, and whether its order was stored. -/
structure NumberedCall extends Generation where
  failAt : Option CallFailure
  created : Bool
  deriving DecidableEq, Repr

/-- The service between two calls. -/
structure Sales where
  w : World
  clock : ℕ
  generated : List NumberedCall

def Sales.start : Sales := ⟨.empty, 0, []⟩

/-- One call after another; an instant of the clock is never before the last one. -/
def Sales.call (isUuid : String → Bool) (offset : ℤ) (s : Sales) (c : CreateCall) : Option Sales :=
  if s.clock ≤ c.now ∧ c.now ≤ maxTime then
    let x := clockAt offset c.now c.timestamp
    let r := c.dto.createOrder c.services s.w isUuid c.correlationId x c.failAt
    let g : NumberedCall := ⟨⟨c.now, s.w.db.orders.length, s.w.db.generateOrderNumber x⟩, c.failAt,
      r.2.isOk⟩
    some { w := r.1
           clock := c.now
           generated := s.generated ++ if c.numbered then [g] else [] }
  else none

/-- No number was generated twice, and a call failed only where something else did. -/
structure Sales.Distinct (s : Sales) : Prop where
  numbers : (s.generated.map fun g => g.number).Nodup
  created : ∀ g ∈ s.generated, g.failAt = none → g.created = true

/-- The orders on the local day of `t` whose date is not the one of `now`. -/
def earlierCount (offset : ℤ) (orders : List Order) (t now : ℕ) : ℕ :=
  orders.countP fun o =>
    localDay offset o.createdAt = localDay offset t ∧ dateStr o.createdAt ≠ dateStr now

/--
A number of the same date is out of the way: on the same local day an order was stored
after it, and on another one more orders bear an earlier date than the call's day has so far.
-/
def Generation.OutOfWay (offset : ℤ) (orders : List Order) (now : ℕ) (g : Generation) : Prop :=
  if localDay offset g.now = localDay offset now then g.rows < orders.length
  else
    (orders.countP fun o => localDay offset o.createdAt = localDay offset now) <
      earlierCount offset orders g.now now

/-- A call comes after no number that its own would repeat. -/
def InOrder (offset : ℤ) (s : Sales) (c : CreateCall) : Prop :=
  c.numbered = true → ∀ g ∈ s.generated, dateStr g.now = dateStr c.now →
    g.OutOfWay offset s.w.db.orders c.now

/-- What the log keeps of a number, as orders are added. -/
structure Generation.Logged (offset : ℤ) (orders : List Order) (clock : ℕ) (g : Generation) :
    Prop where
  now : g.now ≤ clock
  before : ∀ o ∈ orders.take g.rows, o.createdAt ≤ g.now
  after : ∀ o ∈ orders.drop g.rows, g.now ≤ o.createdAt
  counted : g.Counted offset orders

/-- Every order stored took the number generated for it among the orders before it. -/
structure Sales.Good (offset : ℤ) (s : Sales) : Prop where
  past : ∀ o ∈ s.w.db.orders, o.createdAt ≤ s.clock
  log : ∀ g ∈ s.generated, g.Logged offset s.w.db.orders s.clock
  source : ∀ pre o post, s.w.db.orders = pre ++ o :: post →
    ∃ g ∈ s.generated, g.rows = pre.length ∧ g.now = o.createdAt ∧ g.number = o.orderNumber
  distinct : s.Distinct

section Fresh

/-- The first element with `n` others of its kind before it. -/
theorem exists_split_of_lt_countP {α : Type*} {p : α → Bool} {l : List α} {n : ℕ}
    (h : n < l.countP p) : ∃ pre a post, l = pre ++ a :: post ∧ p a = true ∧ pre.countP p = n := by
  induction l generalizing n with
  | nil => cases h
  | cons a l ih =>
    by_cases ha : p a = true
    · rw [List.countP_cons_of_pos ha] at h
      cases n with
      | zero => exact ⟨[], a, l, rfl, ha, rfl⟩
      | succ n =>
        obtain ⟨pre, b, post, rfl, hb, hn⟩ := ih (Nat.lt_of_succ_lt_succ h)
        exact ⟨a :: pre, b, post, rfl, hb, by rw [List.countP_cons_of_pos ha, hn]⟩
    · rw [List.countP_cons_of_neg ha] at h
      obtain ⟨pre, b, post, rfl, hb, hn⟩ := ih h
      exact ⟨a :: pre, b, post, rfl, hb, by rw [List.countP_cons_of_neg ha, hn]⟩

variable {offset : ℤ} {s : Sales} {now : ℕ} {g : NumberedCall}
variable (hs : s.Good offset) (hclock : s.clock ≤ now) (hmax : now ≤ maxTime)

include hs hclock in
theorem rank_now : rank offset s.w.db.orders now =
    s.w.db.orders.countP fun o => localDay offset o.createdAt = localDay offset now :=
  rank_eq fun o ho => (hs.past o ho).trans hclock

include hs hclock hmax in
/-- The orders of an earlier date were all there before the number. -/
theorem earlierCount_take (hg : g ∈ s.generated) (hd : dateStr g.now = dateStr now) :
    earlierCount offset s.w.db.orders g.now now =
      earlierCount offset (s.w.db.orders.take g.rows) g.now now := by
  rw [earlierCount, countP_take_add_drop _ s.w.db.orders g.rows, earlierCount, Nat.add_eq_left,
    List.countP_eq_zero]
  intro o ho hc
  have hafter := (hs.log g hg).after o ho
  have hpast := (hs.past o (List.mem_of_mem_drop ho)).trans hclock
  exact (of_decide_eq_true hc).2 (dateStr_convex hafter hpast hmax hd)

include hs in
/-- On one local day, the count grows by the orders stored since. -/
theorem rank_same (hg : g ∈ s.generated) (hl : localDay offset g.now = localDay offset now) :
    rank offset s.w.db.orders now =
      rank offset (s.w.db.orders.take g.rows) g.now + (s.w.db.orders.length - g.rows) := by
  have hdrop : rank offset (s.w.db.orders.drop g.rows) now =
      (s.w.db.orders.drop g.rows).length := by
    refine List.countP_eq_length.2 fun o ho => decide_eq_true (startOfDay_le_iff.2 ?_)
    exact hl.ge.trans (localDay_mono ((hs.log g hg).after o ho))
  rw [rank_same_day hl, hdrop, List.length_drop]

include hs hclock hmax in
theorem rank_ne_of_outOfWay (hg : g ∈ s.generated) (hd : dateStr g.now = dateStr now)
    (h : g.OutOfWay offset s.w.db.orders now) :
    rank offset (s.w.db.orders.take g.rows) g.now ≠ rank offset s.w.db.orders now := by
  by_cases hl : localDay offset g.now = localDay offset now
  · rw [Generation.OutOfWay, if_pos hl] at h
    rw [rank_same hs hg hl]
    omega
  · rw [Generation.OutOfWay, if_neg hl, ← rank_now hs hclock] at h
    have hle : earlierCount offset (s.w.db.orders.take g.rows) g.now now ≤
        rank offset (s.w.db.orders.take g.rows) g.now := by
      rw [rank_eq (hs.log g hg).before]
      exact List.countP_mono_left fun o _ ho => decide_eq_true (of_decide_eq_true ho).1
    exact (h.trans_le ((earlierCount_take hs hclock hmax hg hd).trans_le hle)).ne'

include hs in
theorem exists_source {o : Order} {n : ℕ} (ho : o ∈ s.w.db.orders.take n) :
    ∃ g ∈ s.generated, g.rows < n ∧ g.now = o.createdAt := by
  obtain ⟨pre, mid, hsplit⟩ := List.mem_iff_append.1 ho
  have horders : s.w.db.orders = pre ++ o :: (mid ++ s.w.db.orders.drop n) := by
    rw [← List.cons_append, ← List.append_assoc, ← hsplit, List.take_append_drop]
  obtain ⟨g, hg, hrows, hnow, -⟩ := hs.source _ _ _ horders
  refine ⟨g, hg, ?_, hnow⟩
  have hlen := congrArg List.length hsplit
  rw [List.length_take, List.length_append, List.length_cons] at hlen
  omega

include hs hclock hmax in
/-- The first number of a date on a local day counts the orders of the date before. -/
theorem exists_first (hg : g ∈ s.generated) (hd : dateStr g.now = dateStr now) :
    ∃ g₀ ∈ s.generated, localDay offset g₀.now = localDay offset g.now ∧
      dateStr g₀.now = dateStr now ∧ rank offset (s.w.db.orders.take g₀.rows) g₀.now =
        earlierCount offset s.w.db.orders g.now now := by
  classical
  have hex : ∃ n, ∃ g₀ ∈ s.generated, (localDay offset g₀.now = localDay offset g.now ∧
      dateStr g₀.now = dateStr now) ∧ g₀.rows = n := ⟨_, g, hg, ⟨rfl, hd⟩, rfl⟩
  obtain ⟨g₀, hg₀, ⟨hl, hdate⟩, hrows⟩ := Nat.find_spec hex
  refine ⟨g₀, hg₀, hl, hdate, ?_⟩
  have htake := earlierCount_take hs hclock hmax hg₀ hdate
  rw [earlierCount, hl] at htake
  rw [earlierCount, htake, earlierCount, rank_eq (hs.log g₀ hg₀).before, hl]
  refine List.countP_congr fun o ho => ?_
  rw [decide_eq_true_iff, decide_eq_true_iff, iff_self_and]
  intro hday hodate
  -- an order of the date would have a number before the first one
  obtain ⟨g', hg', hlt, hnow⟩ := exists_source hs ho
  have hmin := Nat.find_min' hex ⟨g', hg', ⟨hnow ▸ hday, hnow ▸ hodate⟩, rfl⟩
  omega

include hs hclock hmax in
theorem outOfWay_of_rank_ne (hfresh : ∀ g ∈ s.generated, dateStr g.now = dateStr now →
      rank offset (s.w.db.orders.take g.rows) g.now ≠ rank offset s.w.db.orders now)
    (hg : g ∈ s.generated) (hd : dateStr g.now = dateStr now) :
    g.OutOfWay offset s.w.db.orders now := by
  rw [Generation.OutOfWay]
  split
  · rename_i hl
    have hne := hfresh g hg hd
    rw [rank_same hs hg hl] at hne
    omega
  · rename_i hl
    obtain ⟨g₀, hg₀, hl₀, hd₀, hrank₀⟩ := exists_first hs hclock hmax hg hd
    have hne := hfresh g₀ hg₀ hd₀
    rw [hrank₀, rank_now hs hclock] at hne
    by_contra hle
    obtain ⟨pre, o, post, horders, ho, hcount⟩ :=
      exists_split_of_lt_countP (lt_of_le_of_ne (not_lt.1 hle) hne)
    obtain ⟨h, hh, hrows, hnow, -⟩ := hs.source _ _ _ horders
    have hlh : localDay offset h.now = localDay offset now := hnow ▸ of_decide_eq_true ho
    -- the order of that rank today took the number of `g₀`
    have hgh : g.now ≤ h.now := by
      refine le_of_not_ge fun hge => hl (le_antisymm (localDay_mono ?_) ?_)
      · exact ((hs.log g hg).now).trans hclock
      · exact hlh ▸ localDay_mono hge
    have hdh : dateStr h.now = dateStr now :=
      dateStr_convex hgh (((hs.log h hh).now).trans hclock) hmax hd
    have hpre : s.w.db.orders.take h.rows = pre := by
      rw [hrows, horders, List.take_left]
    have hrank : rank offset (s.w.db.orders.take h.rows) h.now =
        rank offset (s.w.db.orders.take g₀.rows) g₀.now := by
      rw [hrank₀, rank_eq (hs.log h hh).before, hlh, hpre, hcount]
    have hnumber : h.number = g₀.number := by
      rw [(hs.log h hh).counted.number, (hs.log g₀ hg₀).counted.number]
      exact number_eq_iff.2 ⟨hdh.trans hd₀.symm, hrank⟩
    have heq := List.inj_on_of_nodup_map hs.distinct.numbers hh hg₀ hnumber
    exact hl (by rw [← hl₀, ← heq, hlh])

include hs hclock hmax in
/-- A number is new exactly when every number of its date is out of its way. -/
theorem fresh_iff : (∀ g ∈ s.generated,
      g.number ≠ (Generation.draw offset s.w.db.orders now).number) ↔
    ∀ g ∈ s.generated, dateStr g.now = dateStr now → g.OutOfWay offset s.w.db.orders now := by
  have hne (g) (hg : g ∈ s.generated) :
      g.number ≠ (Generation.draw offset s.w.db.orders now).number ↔
        (dateStr g.now = dateStr now →
          rank offset (s.w.db.orders.take g.rows) g.now ≠ rank offset s.w.db.orders now) := by
    exact (hs.log g hg).counted.number_ne_iff
  constructor
  · intro h g hg hd
    exact outOfWay_of_rank_ne hs hclock hmax (fun g hg => (hne g hg).1 (h g hg)) hg hd
  · intro h g hg
    exact (hne g hg).2 fun hd => rank_ne_of_outOfWay hs hclock hmax hg hd (h g hg hd)

end Fresh

section Calls

variable {isUuid : String → Bool} {offset : ℤ} {s t : Sales} {c : CreateCall} {g : NumberedCall}

/-- What one call does to the orders. -/
inductive CreateCall.Effect (c : CreateCall) (w : World) (number : String) :
    World × Except Thrown OrderCreated → Prop
  | threw (fresh : Uuid) (e : Thrown) : CreateCall.Effect c w number (⟨w.db, fresh⟩, .error e)
  | placed (d : OrderDraft) (fresh : Uuid) (created : OrderCreated) (hn : c.numbered = true)
      (hnow : d.order.createdAt = c.now) (hnumber : d.order.orderNumber = number) :
      CreateCall.Effect c w number (⟨d.created w.db, fresh⟩, .ok created)

theorem CreateCall.effect (c : CreateCall) (w : World) :
    c.Effect w (w.db.generateOrderNumber (clockAt offset c.now c.timestamp))
      (c.dto.createOrder c.services w isUuid c.correlationId
        (clockAt offset c.now c.timestamp) c.failAt) := by
  rcases c.dto.createOrder_cases c.services w isUuid c.correlationId
    (clockAt offset c.now c.timestamp) c.failAt with ⟨fresh, e, -, h⟩ | ⟨items, hv, h⟩
  · rw [h]
    exact .threw fresh e
  · have hn : c.numbered = true := by
      rw [numbered, hv]
      rw [CreateOrderDto.createOrder, hv] at h
      refine decide_eq_true fun hf => ?_
      rw [hf] at h
      cases congrArg Prod.snd h
    rw [h]
    exact .placed _ _ _ hn rfl rfl

/-- The unique column is the one thing besides a failure that turns a numbered call down. -/
theorem CreateCall.isOk_of_unused {w : World} (hn : c.numbered = true) (hf : c.failAt = none)
    (hunused : ∀ o ∈ w.db.orders,
      o.orderNumber ≠ w.db.generateOrderNumber (clockAt offset c.now c.timestamp)) :
    (c.dto.createOrder c.services w isUuid c.correlationId
      (clockAt offset c.now c.timestamp) c.failAt).2.isOk = true := by
  rw [numbered, Bool.and_eq_true] at hn
  rw [CreateOrderDto.createOrder, hf]
  cases hv : c.dto.validate c.services with
  | error e =>
    rw [hv] at hn
    cases hn.1
  | ok items =>
    have hdata : ∀ o ∈ w.db.orders, o.orderNumber ≠ (c.dto.data items
        (w.db.generateOrderNumber (clockAt offset c.now c.timestamp)) c.correlationId
        (clockAt offset c.now c.timestamp)).orderNumber := hunused
    simp only [createOrder_of_unused hdata]
    rfl

theorem call_eq_some : s.call isUuid offset c = some t ↔
    (s.clock ≤ c.now ∧ c.now ≤ maxTime) ∧
      let x := clockAt offset c.now c.timestamp
      let r := c.dto.createOrder c.services s.w isUuid c.correlationId x c.failAt
      let g : NumberedCall := ⟨⟨c.now, s.w.db.orders.length, s.w.db.generateOrderNumber x⟩,
        c.failAt, r.2.isOk⟩
      t = ⟨r.1, c.now, s.generated ++ if c.numbered then [g] else []⟩ := by
  rw [Sales.call, Option.ite_none_right_eq_some]
  exact and_congr_right fun _ => ⟨fun h => (Option.some.inj h).symm, fun h => congrArg some h.symm⟩

theorem Generation.Logged.append {g : Generation} {orders os : List Order} {clock clock' : ℕ}
    (h : g.Logged offset orders clock) (hclock : clock ≤ clock')
    (hos : ∀ o ∈ os, clock' = o.createdAt) : g.Logged offset (orders ++ os) clock' := by
  constructor
  · exact h.now.trans hclock
  · rw [List.take_append_of_le_length h.counted.rows]
    exact h.before
  · rw [List.drop_append_of_le_length h.counted.rows]
    intro o ho
    rcases List.mem_append.1 ho with ho | ho
    · exact h.after o ho
    · exact (h.now.trans hclock).trans_eq (hos o ho)
  · exact h.counted.append os

/-- The entry a numbered call adds to the log. -/
def CreateCall.generation (isUuid : String → Bool) (offset : ℤ) (c : CreateCall) (s : Sales) :
    NumberedCall :=
  ⟨.draw offset s.w.db.orders c.now, c.failAt,
    (c.dto.createOrder c.services s.w isUuid c.correlationId
      (clockAt offset c.now c.timestamp) c.failAt).2.isOk⟩

/-- A call keeps every order and may add one, under the number it generated. -/
theorem orders_of_call (h : s.call isUuid offset c = some t) :
    ∃ os, t.w.db.orders = s.w.db.orders ++ os ∧ (∀ o ∈ os, c.now = o.createdAt) ∧
      (os = [] ∧ (c.generation isUuid offset s).created = false ∨
        ∃ o, os = [o] ∧ c.numbered = true ∧
          o.orderNumber = (Generation.draw offset s.w.db.orders c.now).number) := by
  obtain ⟨-, rfl⟩ := call_eq_some.1 h
  have heff := @CreateCall.effect isUuid offset c s.w
  dsimp only [CreateCall.generation]
  generalize c.dto.createOrder c.services s.w isUuid c.correlationId
    (clockAt offset c.now c.timestamp) c.failAt = r at heff ⊢
  cases heff with
  | threw fresh e => exact ⟨[], (List.append_nil _).symm, by simp, .inl ⟨rfl, rfl⟩⟩
  | placed d fresh created hn hnow hnumber =>
    exact ⟨[d.order], rfl, by simpa using hnow.symm, .inr ⟨_, rfl, hn, hnumber⟩⟩

theorem generated_of_call (h : s.call isUuid offset c = some t) :
    s.clock ≤ c.now ∧ c.now ≤ maxTime ∧ t.clock = c.now ∧
      t.generated = s.generated ++ if c.numbered then [c.generation isUuid offset s] else [] := by
  obtain ⟨⟨hclock, hmax⟩, rfl⟩ := call_eq_some.1 h
  exact ⟨hclock, hmax, rfl, rfl⟩

/-- The numbers after a call are distinct when those before it are and its own is new. -/
theorem numbers_of_call (h : s.call isUuid offset c = some t) :
    (t.generated.map fun g => g.number).Nodup ↔ (s.generated.map fun g => g.number).Nodup ∧
      (c.numbered = true → ∀ g ∈ s.generated,
        g.number ≠ (Generation.draw offset s.w.db.orders c.now).number) := by
  obtain ⟨-, -, -, hgen⟩ := generated_of_call h
  rw [hgen, List.map_append, List.nodup_append]
  cases hn : c.numbered with
  | false => simp
  | true => simp [CreateCall.generation]

theorem fresh_call_iff (hs : s.Good offset) (h : s.call isUuid offset c = some t) :
    InOrder offset s c ↔
      (c.numbered = true → ∀ g ∈ s.generated,
        g.number ≠ (Generation.draw offset s.w.db.orders c.now).number) := by
  obtain ⟨hclock, hmax, -, -⟩ := generated_of_call h
  exact imp_congr_right fun _ => (fresh_iff hs hclock hmax).symm

theorem logged_of_call (hs : s.Good offset) (h : s.call isUuid offset c = some t) :
    ∀ g ∈ t.generated, g.Logged offset t.w.db.orders t.clock := by
  obtain ⟨hclock, -, hnow, hgen⟩ := generated_of_call h
  obtain ⟨os, horders, hos, -⟩ := orders_of_call h
  intro g hg
  rw [hgen, List.mem_append] at hg
  rw [horders, hnow]
  rcases hg with hg | hg
  · exact (hs.log g hg).append hclock hos
  · obtain ⟨-, hg⟩ : c.numbered = true ∧ g = c.generation isUuid offset s := by
      split at hg
      · exact ⟨‹_›, List.mem_singleton.1 hg⟩
      · cases hg
    have htake : (s.w.db.orders ++ os).take s.w.db.orders.length = s.w.db.orders := List.take_left
    have hdrop : (s.w.db.orders ++ os).drop s.w.db.orders.length = os := List.drop_left
    subst hg
    constructor
    · exact le_rfl
    · intro o ho
      exact (hs.past o (htake ▸ ho)).trans hclock
    · intro o ho
      exact (hos o (hdrop ▸ ho)).le
    · exact (Generation.counted_draw offset s.w.db.orders c.now).append os

theorem source_of_call (hs : s.Good offset) (h : s.call isUuid offset c = some t)
    (pre : List Order) (o : Order) (post : List Order) (hsplit : t.w.db.orders = pre ++ o :: post) :
    ∃ g ∈ t.generated, g.rows = pre.length ∧ g.now = o.createdAt ∧ g.number = o.orderNumber := by
  obtain ⟨-, -, -, hgen⟩ := generated_of_call h
  obtain ⟨os, horders, hos, hcases⟩ := orders_of_call h
  have hold (post' : List Order) (he : s.w.db.orders = pre ++ o :: post') :
      ∃ g ∈ t.generated, g.rows = pre.length ∧ g.now = o.createdAt ∧ g.number = o.orderNumber := by
    obtain ⟨g, hg, hsource⟩ := hs.source pre o post' he
    exact ⟨g, hgen ▸ List.mem_append_left _ hg, hsource⟩
  rw [horders] at hsplit
  rcases hcases with ⟨rfl, -⟩ | ⟨new, rfl, hn, hnumber⟩
  · rw [List.append_nil] at hsplit
    exact hold post hsplit
  · rcases List.eq_nil_or_concat post with rfl | ⟨post', last, rfl⟩
    · obtain ⟨hpre, hnew⟩ := List.append_inj' hsplit rfl
      obtain rfl : new = o := List.head_eq_of_cons_eq hnew
      refine ⟨c.generation isUuid offset s, ?_, congrArg List.length hpre,
        hos new List.mem_cons_self, hnumber.symm⟩
      rw [hgen, hn]
      exact List.mem_append_right _ List.mem_cons_self
    · have hsplit' : s.w.db.orders ++ [new] = (pre ++ o :: post') ++ [last] := by
        rw [hsplit, List.concat_eq_append, List.append_assoc, List.cons_append]
      exact hold post' (List.append_inj' hsplit' rfl).1

theorem good_call (hs : s.Good offset) (hc : InOrder offset s c)
    (h : s.call isUuid offset c = some t) : t.Good offset where
  past := by
    obtain ⟨hclock, -, hnow, -⟩ := generated_of_call h
    obtain ⟨os, horders, hos, -⟩ := orders_of_call h
    intro o ho
    rw [horders, List.mem_append] at ho
    rw [hnow]
    rcases ho with ho | ho
    · exact (hs.past o ho).trans hclock
    · exact (hos o ho).ge
  log := logged_of_call hs h
  source := source_of_call hs h
  distinct := by
    have hfresh := (fresh_call_iff hs h).1 hc
    obtain ⟨-, -, -, hgen⟩ := generated_of_call h
    refine ⟨(numbers_of_call h).2 ⟨hs.distinct.numbers, hfresh⟩, fun g hg hf => ?_⟩
    rw [hgen, List.mem_append] at hg
    rcases hg with hg | hg
    · exact hs.distinct.created g hg hf
    · split at hg
      · rename_i hn
        obtain rfl := List.mem_singleton.1 hg
        refine c.isOk_of_unused hn hf fun o ho => ?_
        obtain ⟨pre, post, horders⟩ := List.mem_iff_append.1 ho
        obtain ⟨g, hg, -, -, hnumber⟩ := hs.source pre o post horders
        exact hnumber ▸ hfresh hn g hg
      · cases hg

theorem not_distinct_of_call (hs : s.Good offset) (hc : ¬ InOrder offset s c)
    (h : s.call isUuid offset c = some t) : ¬ t.Distinct := fun ht =>
  hc ((fresh_call_iff hs h).2 ((numbers_of_call h).1 ht.numbers).2)

/-- Every number went to an order. -/
def Sales.Stored (s : Sales) : Prop :=
  ∀ g ∈ s.generated, g.failAt = none ∧ g.rows < s.w.db.orders.length

/-- In UTC a date of a four-digit year is a day, and the count of a day only grows. -/
theorem inOrder_of_stored (hs : s.Good 0) (hstored : s.Stored)
    (hyear : year (c.now / msPerDay) ≤ 9999) (h : s.call isUuid 0 c = some t) :
    InOrder 0 s c := by
  obtain ⟨hclock, hmax, -, -⟩ := generated_of_call h
  intro _ g hg hd
  have hgmax : g.now ≤ maxTime := ((hs.log g hg).now.trans hclock).trans hmax
  obtain ⟨hy, -, hday⟩ := (dateStr_eq_iff hgmax hmax).1 hd
  have hl : localDay 0 g.now = localDay 0 c.now := by
    rw [localDay, localDay, add_zero, add_zero, ← Int.natCast_ediv, ← Int.natCast_ediv,
      hday (hy.trans_le hyear)]
  rw [Generation.OutOfWay, if_pos hl]
  exact (hstored g hg).2

theorem stored_call (hs : s.Good offset) (hstored : s.Stored) (hf : c.failAt = none)
    (hc : InOrder offset s c) (h : s.call isUuid offset c = some t) : t.Stored := by
  have hcreated := (good_call hs hc h).distinct.created
  obtain ⟨-, -, -, hgen⟩ := generated_of_call h
  obtain ⟨os, horders, -, hcases⟩ := orders_of_call h
  intro g hg
  have hg' := hg
  rw [hgen, List.mem_append] at hg
  rw [horders, List.length_append]
  rcases hg with hg | hg
  · exact ⟨(hstored g hg).1, Nat.lt_add_right _ (hstored g hg).2⟩
  · split at hg
    · obtain rfl := List.mem_singleton.1 hg
      rcases hcases with ⟨-, hc⟩ | ⟨o, rfl, -, -⟩
      · exact absurd ((hcreated _ hg' hf).symm.trans hc) (by decide)
      · exact ⟨hf, Nat.lt_succ_self _⟩
    · cases hg

theorem good_start (offset : ℤ) : Sales.start.Good offset where
  past := by rintro o ⟨⟩
  log := by rintro g ⟨⟩
  source := fun pre o post h => by simp [Sales.start, World.empty] at h
  distinct := ⟨List.nodup_nil, by rintro g ⟨⟩⟩

end Calls

instance (offset : ℤ) (orders : List Order) (now : ℕ) (g : Generation) :
    Decidable (g.OutOfWay offset orders now) :=
  inferInstanceAs (Decidable (if localDay offset g.now = localDay offset now then _ < _ else _ < _))

instance (offset : ℤ) (s : Sales) (c : CreateCall) : Decidable (InOrder offset s c) :=
  inferInstanceAs (Decidable (c.numbered = true → ∀ g ∈ s.generated,
    dateStr g.now = dateStr c.now → g.OutOfWay offset s.w.db.orders c.now))

/-- Along a sequence of calls no number repeats exactly as long as every call comes in order. -/
theorem numbers_distinct_iff (isUuid : String → Bool) (offset : ℤ) (calls : List CreateCall)
    (t : Sales) (h : exec (Sales.call isUuid offset) .start calls = some t) :
    Always (Sales.call isUuid offset) Sales.Distinct .start calls ↔
      AllSteps (Sales.call isUuid offset) (InOrder offset) .start calls :=
  always_iff_allSteps (fun _ _ _ hs hc hcall => good_call hs hc hcall) (fun _ hs => hs.distinct)
    (fun _ _ _ hs hc hcall => not_distinct_of_call hs hc hcall) (good_start offset) h

def callAt (now : ℕ) : CreateCall where
  dto := sampleDto
  services := sampleServices
  correlationId := none
  now := now
  timestamp := "1970-01-01T00:00:00.000Z"
  failAt := none

/-- Before and after local midnight, at ten and at eighteen hours UTC, the count is zero. -/
theorem number_repeats_after_midnight :
    ¬ ∀ (isUuid : String → Bool) (offset : ℤ) (calls : List CreateCall) (t : Sales),
      exec (Sales.call isUuid offset) .start calls = some t →
      Always (Sales.call isUuid offset) Sales.Distinct .start calls := by
  intro h
  have hnumbers : (exec (Sales.call (fun _ => false) 25200000) .start
      [callAt 36000000, callAt 64800000]).map (fun t => t.generated.map fun g => g.number) =
      some ["ORD-19700101-00001", "ORD-19700101-00001"] := by decide +kernel
  obtain ⟨t, ht, hdup⟩ := Option.map_eq_some_iff.1 hnumbers
  have hd := (h _ _ _ t ht _ List.prefix_rfl t ht).numbers
  rw [hdup] at hd
  exact absurd hd (by decide)

/-- In a zone seven hours ahead, the order before midnight is the second of its day. -/
theorem numbers_around_midnight :
    Always (Sales.call (fun _ => false) 25200000) Sales.Distinct .start
      [callAt 63000000, callAt 122400000, callAt 149400000] := by
  obtain ⟨t, ht⟩ := Option.isSome_iff_exists.1 (by decide +kernel :
    (exec (Sales.call (fun _ => false) 25200000) .start
      [callAt 63000000, callAt 122400000, callAt 149400000]).isSome = true)
  exact (numbers_distinct_iff _ _ _ t ht).2 (by decide +kernel)

/-- On a server in UTC, calls that meet no failure are numbered apart up to the year 9999. -/
theorem numbers_distinct_of_utc {isUuid : String → Bool} {calls : List CreateCall} {t : Sales}
    (hcalls : ∀ c ∈ calls, c.failAt = none ∧ year (c.now / msPerDay) ≤ 9999)
    (h : exec (Sales.call isUuid 0) .start calls = some t) : t.Distinct := by
  have hC : AllSteps (Sales.call isUuid 0)
      (fun _ c => c.failAt = none ∧ year (c.now / msPerDay) ≤ 9999) .start calls :=
    allSteps_of_forall fun c hc _ => hcalls c hc
  have hI := exec_invariant_of_allSteps (I := fun s => s.Good 0 ∧ s.Stored)
    (fun s c u ⟨hs, hstored⟩ ⟨hf, hyear⟩ hcall =>
      have hc := inOrder_of_stored hs hstored hyear hcall
      ⟨good_call hs hc hcall, stored_call hs hstored hf hc hcall⟩)
    ⟨good_start 0, by rintro g ⟨⟩⟩ hC h
  exact hI.1.distinct

end OrderService
