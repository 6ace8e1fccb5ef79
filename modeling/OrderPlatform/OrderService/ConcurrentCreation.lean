import OrderPlatform.OrderService.OrderNumbers
import OrderPlatform.Runs.Pool

/-! # Orders created concurrently

The number of an order is generated before the transaction that stores it begins, so any
number of calls can be between the two. On a server in UTC two calls generate one number
exactly when the second counts no order that was stored after the first had counted.
-/

namespace OrderService

open Runs Store Wire

/-- A call whose data was validated. -/
structure ValidCall where
  dto : CreateOrderDto
  services : Services
  correlationId : Option String
  items : List ValidatedItem
  valid : dto.validate services = .ok items

/-- Where a call stands; a failure of the database that nothing else caused is not named. -/
inductive CreatePoint
  | validated (call : ValidCall)
  | numbered (call : ValidCall) (g : Generation)
  | returned (g : Generation) (created : OrderCreated)
  | threw (g : Option Generation) (failAt : Option CallFailure)

namespace CreatePoint

def generation : CreatePoint → Option Generation
  | .validated _ => none
  | .numbered _ g => some g
  | .returned g _ => some g
  | .threw g _ => g

def result : CreatePoint → Option (Except Thrown OrderCreated)
  | .returned _ created => some (.ok created)
  | .threw _ _ => some (.error .database)
  | _ => none

end CreatePoint

/-- The instant of a step, and the failure the call meets. -/
structure CreateEnv where
  now : ℕ
  timestamp : String
  failAt : Option CallFailure

/-- The steps of `OrderService.createOrder` on a server in UTC: the number, the transaction. -/
def createStep (isUuid : String → Bool) : Machine World CreatePoint CreateEnv
  | w, .validated call, x =>
    if x.failAt = some .generateOrderNumber then some (w, .threw none x.failAt)
    else some (w, .numbered call ⟨x.now, w.db.orders.length,
      w.db.generateOrderNumber (clockAt 0 x.now x.timestamp)⟩)
  | w, .numbered call g, x =>
    let data := call.dto.data call.items g.number call.correlationId (clockAt 0 x.now x.timestamp)
    let record (failAt : Option CreateStep) :=
      let r := createOrder w isUuid data failAt
      match r.2 with
      | .ok id => some (r.1, CreatePoint.returned g ⟨id, .pending, g.number⟩)
      | .error _ => some (r.1, .threw (some g) (failAt.map .recording))
    match x.failAt with
    | some .startTransaction => some (w, .threw (some g) x.failAt)
    | some (.recording step) => record (some step)
    | some .generateOrderNumber | none => record none
  | _, .returned _ _, _ => none
  | _, .threw _ _, _ => none

section Solo

variable (isUuid : String → Bool) (w : World) (call : ValidCall) (x : CreateEnv)

/-- A call run alone through its steps computes `createOrder`. -/
theorem createOrder_solo :
    ∃ n p, exec (Machine.solo (createStep isUuid)) (w, .validated call) (List.replicate n x) =
        some ((call.dto.createOrder call.services w isUuid call.correlationId
          (clockAt 0 x.now x.timestamp) x.failAt).1, p) ∧
      p.result = some (call.dto.createOrder call.services w isUuid call.correlationId
          (clockAt 0 x.now x.timestamp) x.failAt).2 := by
  by_cases hg : x.failAt = some .generateOrderNumber
  · refine ⟨1, .threw none x.failAt, ?_, ?_⟩
    · simp [exec_cons, Machine.solo, createStep, CreateOrderDto.createOrder, call.valid, hg]
    · simp [CreatePoint.result, CreateOrderDto.createOrder, call.valid, hg]
  · have hfirst : createStep isUuid w (.validated call) x = some (w, .numbered call
        ⟨x.now, w.db.orders.length, w.db.generateOrderNumber (clockAt 0 x.now x.timestamp)⟩) :=
      if_neg hg
    refine ⟨2, ?_⟩
    simp only [List.replicate_succ, List.replicate_zero, exec_cons, exec_nil, Machine.solo, hfirst,
      Option.bind_some, Option.bind_fun_some, CreateOrderDto.createOrder, call.valid]
    have hrecord (failAt : Option CreateStep) := createOrder_cases w isUuid
      (call.dto.data call.items (w.db.generateOrderNumber (clockAt 0 x.now x.timestamp))
        call.correlationId (clockAt 0 x.now x.timestamp)) failAt
    match hf : x.failAt with
    | some .generateOrderNumber => exact absurd hf hg
    | some .startTransaction => exact ⟨_, by simp only [createStep, hf]; rfl, rfl⟩
    | some (.recording step) =>
      rcases hrecord (some step) with h | h
      · exact ⟨_, by simp only [createStep, hf, h]; rfl, by simp only [h]; rfl⟩
      · exact ⟨_, by simp only [createStep, hf, h]; rfl, by simp only [h]; rfl⟩
    | none =>
      rcases hrecord none with h | h
      · exact ⟨_, by simp only [createStep, hf, h]; rfl, by simp only [h]; rfl⟩
      · exact ⟨_, by simp only [createStep, hf, h]; rfl, by simp only [h]; rfl⟩

end Solo

/-- What a step of a call can do. -/
inductive CreateEffect (w : World) (x : CreateEnv) : CreatePoint → World → CreatePoint → Prop
  | unread (call : ValidCall) (hf : x.failAt = some .generateOrderNumber) :
    CreateEffect w x (.validated call) w (.threw none x.failAt)
  | number (call : ValidCall) (hf : x.failAt ≠ some .generateOrderNumber) :
    CreateEffect w x (.validated call) w (.numbered call (.draw 0 w.db.orders x.now))
  | failed (call : ValidCall) (g : Generation) (fresh : Uuid) (f : CallFailure) :
    CreateEffect w x (.numbered call g) ⟨w.db, fresh⟩ (.threw (some g) (some f))
  | refused (call : ValidCall) (g : Generation) (fresh : Uuid)
      (htaken : ∃ o ∈ w.db.orders, o.orderNumber = g.number) :
    CreateEffect w x (.numbered call g) ⟨w.db, fresh⟩ (.threw (some g) none)
  | placed (call : ValidCall) (g : Generation) (fresh : Uuid) (d : OrderDraft)
      (created : OrderCreated) (hn : d.order.orderNumber = g.number) :
    CreateEffect w x (.numbered call g) ⟨d.created w.db, fresh⟩ (.returned g created)

section Effect

variable {isUuid : String → Bool} {w w' : World} {x : CreateEnv} {c c' : CreatePoint}

/-- A transaction that meets no failure is turned down by the unique column alone. -/
theorem taken_of_error {data : CreateOrder} {e : Thrown}
    (h : createOrder w isUuid data none = (⟨w.db, w.fresh + 5⟩, .error e)) :
    ∃ o ∈ w.db.orders, o.orderNumber = data.orderNumber := by
  by_contra hn
  push Not at hn
  rw [createOrder_of_unused hn] at h
  cases congrArg Prod.snd h

theorem createStep_effect (h : createStep isUuid w c x = some (w', c')) :
    CreateEffect w x c w' c' := by
  cases c with
  | validated call =>
    simp only [createStep] at h
    split at h
    · cases h
      exact .unread call ‹_›
    · cases h
      exact .number call ‹_›
  | numbered call g =>
    simp only [createStep] at h
    split at h
    · rename_i hf
      cases h
      rw [hf]
      exact .failed call g _ _
    · rename_i step hf
      rcases createOrder_cases w isUuid (call.dto.data call.items g.number call.correlationId
        (clockAt 0 x.now x.timestamp)) (some step) with hr | hr <;> rw [hr] at h <;> cases h
      · exact .failed call g _ _
      · exact .placed call g _ _ _ rfl
    -- no failure of its own is left for the transaction
    all_goals
      rcases createOrder_cases w isUuid (call.dto.data call.items g.number call.correlationId
        (clockAt 0 x.now x.timestamp)) none with hr | hr <;> rw [hr] at h <;> cases h
      · exact .refused call g _ (taken_of_error hr)
      · exact .placed call g _ _ _ rfl
  | returned g created => cases h
  | threw g failAt => cases h

end Effect

namespace CreatePoint

/-- Two calls did not generate the same number. -/
def Apart (c c' : CreatePoint) : Prop :=
  ∀ g g', c.generation = some g → c'.generation = some g' → g.number ≠ g'.number

def pending : CreatePoint → Bool
  | .validated _ => true
  | _ => false

end CreatePoint

/-- On the day of a number an order was stored after it, for the next number to count. -/
def Generation.Overtaken (orders : List Order) (now : ℕ) (g : Generation) : Prop :=
  if localDay 0 g.now = localDay 0 now then
    ∃ o ∈ orders.drop g.rows, startOfDay 0 now ≤ o.createdAt
  else rank 0 (orders.take g.rows) g.now ≠ rank 0 orders now

theorem Generation.Counted.overtaken_iff {orders : List Order} {now : ℕ} {g : Generation}
    (h : g.Counted 0 orders) :
    g.number ≠ (draw 0 orders now).number ↔
      (dateStr g.now = dateStr now → g.Overtaken orders now) := by
  rw [h.number_ne_iff]
  refine imp_congr_right fun _ => ?_
  rw [Overtaken]
  split
  · rename_i hl
    rw [rank_same_day hl, Ne, Nat.left_eq_add, ← Ne, ← Nat.pos_iff_ne_zero, rank,
      List.countP_pos_iff]
    simp only [decide_eq_true_iff]
  · rfl

section Pools

variable {Id : Type*} [DecidableEq Id]

/-- No two calls generated one number, and none failed but for a failure of its own. -/
structure Distinct (p : Pool World CreatePoint Id) : Prop where
  numbers : ∀ i j, i ≠ j → (p.calls i).Apart (p.calls j)
  unharmed : ∀ i g, p.calls i ≠ .threw g none

/-- A call generates its number when every number of the same date has been overtaken. -/
def InTurn (p : Pool World CreatePoint Id) (a : Id × CreateEnv) : Prop :=
  (p.calls a.1).pending = true → a.2.failAt ≠ some .generateOrderNumber →
    ∀ j, ∀ g ∈ (p.calls j).generation, dateStr g.now = dateStr a.2.now →
      g.Overtaken p.store.db.orders a.2.now

/-- Every number was counted, and every order stored has the number of a call that returned. -/
structure Numbered (p : Pool World CreatePoint Id) : Prop where
  counted : ∀ i g, (p.calls i).generation = some g → g.Counted 0 p.store.db.orders
  source : ∀ o ∈ p.store.db.orders, ∃ i g created, p.calls i = .returned g created ∧
    g.number = o.orderNumber
  distinct : Distinct p

variable {isUuid : String → Bool} {p q : Pool World CreatePoint Id} {a : Id × CreateEnv}

theorem CreatePoint.Apart.symm {c c' : CreatePoint} (h : c.Apart c') : c'.Apart c :=
  fun g g' hg hg' => (h g' g hg' hg).symm

/-- A call that only moves on keeps its number, and the order it stores bears it. -/
theorem Numbered.move {w : World} {c : CreatePoint} {os : List Order} (hp : Numbered p)
    (horders : w.db.orders = p.store.db.orders ++ os)
    (hc : c.generation = (p.calls a.1).generation) (hu : ∀ g, c ≠ .threw g none)
    (hstay : ∀ g created, p.calls a.1 ≠ .returned g created)
    (hos : ∀ o ∈ os, ∃ g created, c = .returned g created ∧ g.number = o.orderNumber) :
    Numbered ⟨w, Function.update p.calls a.1 c⟩ where
  counted := by
    refine forall_update (P := fun k : CreatePoint => ∀ g : Generation, k.generation = some g →
      g.Counted 0 w.db.orders) ?_ ?_
    · intro g hg
      rw [horders]
      exact (hp.counted a.1 g (hc ▸ hg)).append os
    · intro j g hg
      rw [horders]
      exact (hp.counted j g hg).append os
  source := by
    intro o ho
    dsimp only at ho ⊢
    rw [horders, List.mem_append] at ho
    rcases ho with ho | ho
    · obtain ⟨j, g, created, hj, hn⟩ := hp.source o ho
      have hne : j ≠ a.1 := by
        rintro rfl
        exact hstay g created hj
      exact ⟨j, g, created, by rw [Function.update_of_ne hne, hj], hn⟩
    · obtain ⟨g, created, hret, hn⟩ := hos o ho
      exact ⟨a.1, g, created, by rw [Function.update_self, hret], hn⟩
  distinct :=
    { numbers := apart_update hp.distinct.numbers fun j hj => by
        have hap := hp.distinct.numbers a.1 j (Ne.symm hj)
        rw [CreatePoint.Apart, ← hc] at hap
        exact ⟨hap, CreatePoint.Apart.symm hap⟩
      unharmed := forall_update (P := fun k => ∀ g, k ≠ CreatePoint.threw g none) hu
        hp.distinct.unharmed }

omit [DecidableEq Id] in
/-- The number a call generates is new exactly when its turn has come. -/
theorem inTurn_iff (hp : Numbered p) (hpending : (p.calls a.1).pending = true)
    (hf : a.2.failAt ≠ some .generateOrderNumber) :
    InTurn p a ↔ ∀ j, ∀ g, (p.calls j).generation = some g →
      g.number ≠ (Generation.draw 0 p.store.db.orders a.2.now).number := by
  constructor
  · intro h j g hg
    exact (hp.counted j g hg).overtaken_iff.2 (h hpending hf j g hg)
  · intro h _ _ j g hg
    exact (hp.counted j g hg).overtaken_iff.1 (h j g hg)

/-- A new number keeps its call apart from the others. -/
theorem Numbered.draw {call : ValidCall} (hp : Numbered p) (hcall : p.calls a.1 = .validated call)
    (hfresh : ∀ j, ∀ g, (p.calls j).generation = some g →
      g.number ≠ (Generation.draw 0 p.store.db.orders a.2.now).number) :
    Numbered ⟨p.store, Function.update p.calls a.1
      (.numbered call (.draw 0 p.store.db.orders a.2.now))⟩ where
  counted := by
    refine forall_update (P := fun k : CreatePoint => ∀ g : Generation, k.generation = some g →
      g.Counted 0 p.store.db.orders) ?_ hp.counted
    rintro g ⟨⟩
    exact Generation.counted_draw _ _ _
  source := by
    intro o ho
    obtain ⟨j, g, created, hj, hn⟩ := hp.source o ho
    have hne : j ≠ a.1 := by
      rintro rfl
      cases hcall.symm.trans hj
    exact ⟨j, g, created, (Function.update_of_ne hne _ _).trans hj, hn⟩
  distinct :=
    { numbers := apart_update hp.distinct.numbers fun j _ => by
        have hap : CreatePoint.Apart (p.calls j)
            (.numbered call (.draw 0 p.store.db.orders a.2.now)) := by
          rintro g g' hg ⟨⟩
          exact hfresh j g hg
        exact ⟨hap.symm, hap⟩
      unharmed := forall_update (P := fun k => ∀ g, k ≠ CreatePoint.threw g none)
        (by rintro g ⟨⟩) hp.distinct.unharmed }

theorem Numbered.act (hp : Numbered p) (ha : InTurn p a)
    (h : p.act (createStep isUuid) a = some q) : Numbered q := by
  obtain ⟨w, c, hstep, rfl⟩ := Pool.act_eq_some.mp h
  have heff := createStep_effect hstep
  generalize hcall : p.calls a.1 = c₀ at heff
  cases heff with
  | unread call hf =>
    refine hp.move (List.append_nil _).symm ?_ ?_ ?_ (by rintro o ⟨⟩)
    · rw [hcall]; rfl
    · intro g he
      cases hf.symm.trans (CreatePoint.threw.inj he).2
    · rw [hcall]; rintro g created ⟨⟩
  | number call hf =>
    exact hp.draw hcall ((inTurn_iff hp (by rw [hcall]; rfl) hf).1 ha)
  | failed call g fresh f =>
    refine hp.move (List.append_nil _).symm ?_ ?_ ?_ (by rintro o ⟨⟩)
    · rw [hcall]; rfl
    · rintro g ⟨⟩
    · rw [hcall]; rintro g created ⟨⟩
  | refused call g fresh htaken =>
    -- the number is that of another call, which returned
    obtain ⟨o, ho, hn⟩ := htaken
    obtain ⟨j, g', created, hj, hn'⟩ := hp.source o ho
    have hne : j ≠ a.1 := by
      rintro rfl
      rw [hcall] at hj
      cases hj
    exact absurd (hn'.trans hn) (hp.distinct.numbers j a.1 hne g' g (by rw [hj]; rfl)
      (by rw [hcall]; rfl))
  | placed call g fresh d created hn =>
    refine hp.move (rfl : _ = p.store.db.orders ++ [d.order]) ?_ ?_ ?_ ?_
    · rw [hcall]; rfl
    · rintro g ⟨⟩
    · rw [hcall]; rintro g created ⟨⟩
    · intro o ho
      rw [List.mem_singleton.1 ho]
      exact ⟨g, created, rfl, hn.symm⟩

/-- A number generated out of turn is another call's. -/
theorem not_distinct_of_act (hp : Numbered p) (ha : ¬ InTurn p a)
    (h : p.act (createStep isUuid) a = some q) : ¬ Distinct q := by
  obtain ⟨w, c, hstep, rfl⟩ := Pool.act_eq_some.mp h
  have hpending : (p.calls a.1).pending = true := by
    by_contra hn
    exact ha fun hp => absurd hp hn
  have hf : a.2.failAt ≠ some .generateOrderNumber := fun hn => ha fun _ hf => absurd hn hf
  rw [inTurn_iff hp hpending hf] at ha
  push Not at ha
  obtain ⟨j, g, hg, hnumber⟩ := ha
  have heff := createStep_effect hstep
  generalize hcall : p.calls a.1 = c₀ at heff hpending
  cases heff with
  | unread call hf' => exact absurd hf' hf
  | number call hf =>
    have hne : j ≠ a.1 := by
      rintro rfl
      rw [hcall] at hg
      cases hg
    intro hd
    refine hd.numbers j a.1 hne g (.draw 0 p.store.db.orders a.2.now) ?_ ?_ hnumber
    · dsimp only
      rw [Function.update_of_ne hne, hg]
    · dsimp only
      rw [Function.update_self]
      rfl
  | failed | refused | placed => cases hpending

omit [DecidableEq Id] in
theorem numbered_start (call : Id → ValidCall) :
    Numbered (⟨.empty, fun i => .validated (call i)⟩ : Pool World CreatePoint Id) where
  counted := by rintro i g ⟨⟩
  source := by rintro o ⟨⟩
  distinct := ⟨by rintro i j - g g' ⟨⟩, by rintro i g ⟨⟩⟩

instance (orders : List Order) (now : ℕ) (g : Generation) : Decidable (g.Overtaken orders now) :=
  inferInstanceAs (Decidable (if localDay 0 g.now = localDay 0 now then
    ∃ o ∈ orders.drop g.rows, startOfDay 0 now ≤ o.createdAt else _ ≠ _))

instance [Fintype Id] (p : Pool World CreatePoint Id) (a : Id × CreateEnv) :
    Decidable (InTurn p a) :=
  inferInstanceAs (Decidable (_ → _ → ∀ j, ∀ g ∈ (p.calls j).generation,
    dateStr g.now = dateStr a.2.now → g.Overtaken p.store.db.orders a.2.now))

/--
In every interleaving of valid calls, no two generate one number and none fails because of
another exactly as long as every number is generated in its turn.
-/
theorem concurrent_numbers_distinct_iff (isUuid : String → Bool) (call : Id → ValidCall)
    (steps : List (Id × CreateEnv)) (q : Pool World CreatePoint Id)
    (h : exec (Pool.act (createStep isUuid)) ⟨.empty, fun i => .validated (call i)⟩ steps =
      some q) :
    Always (Pool.act (createStep isUuid)) Distinct ⟨.empty, fun i => .validated (call i)⟩ steps ↔
      AllSteps (Pool.act (createStep isUuid)) InTurn ⟨.empty, fun i => .validated (call i)⟩
        steps :=
  always_iff_allSteps (fun _ _ _ hp ha hact => hp.act ha hact) (fun _ hp => hp.distinct)
    (fun _ _ _ hp ha hact => not_distinct_of_act hp ha hact) (numbered_start call) h

end Pools

theorem sampleItems_valid : sampleDto.validate sampleServices =
    .ok [⟨"product-1", 2, .text ⟨1999⟩, "Pen", "PEN-1"⟩,
      ⟨"product-1", 1, .text ⟨1999⟩, "Pen", "PEN-X"⟩] := by
  decide +kernel

def sampleCall : ValidCall := ⟨sampleDto, sampleServices, none, _, sampleItems_valid⟩

def envAt (now : ℕ) : CreateEnv := ⟨now, "1970-01-01T00:00:00.000Z", none⟩

/-- Two calls count before either has stored its order; the second one then throws. -/
theorem number_generated_twice :
    ¬ ∀ (Id : Type) [DecidableEq Id] (isUuid : String → Bool) (call : Id → ValidCall)
      (steps : List (Id × CreateEnv)) (q : Pool World CreatePoint Id),
      exec (Pool.act (createStep isUuid)) ⟨.empty, fun i => .validated (call i)⟩ steps = some q →
      Always (Pool.act (createStep isUuid)) Distinct ⟨.empty, fun i => .validated (call i)⟩
        steps := by
  intro h
  have hnumbers : (exec (Pool.act (createStep fun _ => false))
      (⟨.empty, fun _ => .validated sampleCall⟩ : Pool World CreatePoint Bool)
      [(true, envAt 1), (false, envAt 2), (true, envAt 3), (false, envAt 4)]).map
        (fun q => ((q.calls true).generation, (q.calls false).generation)) =
      some (some ⟨1, 0, "ORD-19700101-00001"⟩, some ⟨2, 0, "ORD-19700101-00001"⟩) := by
    decide +kernel
  obtain ⟨q, hq, hcalls⟩ := Option.map_eq_some_iff.1 hnumbers
  obtain ⟨htrue, hfalse⟩ := Prod.mk.inj hcalls
  exact (h Bool _ _ _ q hq _ List.prefix_rfl q hq).numbers true false (by decide) _ _ htrue hfalse
    rfl

/-- A call that starts once the other has returned counts its order. -/
theorem numbers_generated_apart :
    Always (Pool.act (createStep fun _ => false)) Distinct
      (⟨.empty, fun _ => .validated sampleCall⟩ : Pool World CreatePoint Bool)
      [(true, envAt 1), (true, envAt 2), (false, envAt 3), (false, envAt 4)] := by
  obtain ⟨q, hq⟩ := Option.isSome_iff_exists.1 (by decide +kernel :
    (exec (Pool.act (createStep fun _ => false))
      (⟨.empty, fun _ => .validated sampleCall⟩ : Pool World CreatePoint Bool)
      [(true, envAt 1), (true, envAt 2), (false, envAt 3), (false, envAt 4)]).isSome = true)
  exact (concurrent_numbers_distinct_iff _ _ _ q hq).2 (by decide +kernel)

end OrderService
