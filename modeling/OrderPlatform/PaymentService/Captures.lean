import OrderPlatform.PaymentService.ConcurrentCharges
import OrderPlatform.Store.Once

/-! # Captures and their rows

The provider captures once per order, the payments table is unique per order and per
client key. A capture whose insert is refused because of another order's key, or whose
order is recorded with another call's amount, is not recorded faithfully.
-/

namespace PaymentService

open Runs Store Wire Numeric

/-- The captures of a provider that carries out every idempotency key once. -/
def World.captured (w : World) : List ProviderCharge :=
  performed ProviderCharge.idempotencyKey (fun c => c.result.success) w.charges

/-- The row records the capture: its success, its amount and its transaction. -/
structure Payment.Records (p : Payment) (c : ProviderCharge) : Prop where
  status : p.status = .processed
  amount : c.amount.map ofNumber = some p.amount
  transaction : p.providerTransactionId = some c.result.providerTransactionId

instance (p : Payment) (c : ProviderCharge) : Decidable (p.Records c) :=
  decidable_of_iff (p.status = .processed ∧ c.amount.map ofNumber = some p.amount ∧
    p.providerTransactionId = some c.result.providerTransactionId)
    ⟨fun ⟨hs, ha, ht⟩ => ⟨hs, ha, ht⟩, fun ⟨hs, ha, ht⟩ => ⟨hs, ha, ht⟩⟩

/-- Every order for which the provider captured money has a row that records the capture. -/
def CapturesRecorded (w : World) : Prop :=
  ∀ c ∈ w.captured, ∃ p ∈ w.db.payments, p.orderId = c.orderId ∧ p.Records c

instance (w : World) : Decidable (CapturesRecorded w) :=
  inferInstanceAs (Decidable (∀ c ∈ w.captured, ∃ p ∈ w.db.payments, _))

section Pools

variable {ι : Type}

/-- For a key already used, the provider answers with the result of the first call. -/
def ProviderReplays (q : Pool World ChargeCall ι) (a : ι × Env) : Prop :=
  match q.calls a.1 with
  | .charging attempt => ∀ c ∈ q.store.charges,
      c.idempotencyKey = attempt.params.orderId → c.result = a.2.result
  | _ => True

instance (q : Pool World ChargeCall ι) (a : ι × Env) : Decidable (ProviderReplays q a) := by
  unfold ProviderReplays
  split <;> infer_instance

/--
The order has its row already, or no committed row has the client key of the charge and
its amount is the captured one.
-/
def SavesCapture (w : World) (d : ChargeDraft) : Prop :=
  (∃ p ∈ w.db.payments, p.orderId = d.params.orderId) ∨
    (∀ p ∈ w.db.payments, p.idempotencyKey ≠ d.idempotencyKey) ∧
      d.params.amount.isSome ∧ ∀ c ∈ w.captured, c.orderId = d.params.orderId →
        c.amount.map ofNumber = d.params.amount.map ofNumber

instance (w : World) (d : ChargeDraft) : Decidable (SavesCapture w d) :=
  inferInstanceAs (Decidable ((∃ p ∈ w.db.payments, _) ∨ (∀ p ∈ w.db.payments, _) ∧ _ ∧
    ∀ c ∈ w.captured, _))

/-- The database does not fail, and an insert of a successful charge records the capture. -/
def InsertsCapture (q : Pool World ChargeCall ι) (a : ι × Env) : Prop :=
  a.2.failAt = none ∧
    match q.calls a.1 with
    | .saving d => d.result.success = true → SavesCapture q.store d
    | _ => True

instance (q : Pool World ChargeCall ι) (a : ι × Env) : Decidable (InsertsCapture q a) := by
  unfold InsertsCapture
  split <;> infer_instance

end Pools

/-- A row of an order the provider was called for, which records the order's capture. -/
structure RowOk (w : World) (p : Payment) : Prop where
  called : ∃ c ∈ w.charges, c.orderId = p.orderId
  records : ∀ c ∈ w.captured, c.orderId = p.orderId → p.Records c

structure Captured (w : World) : Prop where
  keys : ∀ c ∈ w.charges, c.idempotencyKey = c.orderId
  replays : ∀ c ∈ w.charges, ∀ c' ∈ w.charges, c.orderId = c'.orderId → c.result = c'.result
  rows : ∀ p ∈ w.db.payments, RowOk w p

structure ChargeCall.Captures (w : World) (c : ChargeCall) : Prop where
  called : ∀ d, c.draft = some d → d.providerCall d.result ∈ w.charges
  inserted : ∀ p, c.inserted = some p → RowOk w p

section Steps

variable {w w' : World} {c c' l : ChargeCall} {env : Env} {d : ChargeDraft} {p : Payment}
  {cap : ProviderCharge}

theorem RowOk.of_charges (h : RowOk w p) (hw : w'.charges = w.charges) : RowOk w' p := by
  constructor
  · rw [hw]
    exact h.called
  · unfold World.captured
    rw [hw]
    exact h.records

/-- A call under a used key is no new capture, so the rows of its order stay right. -/
theorem RowOk.call (h : RowOk w p) (hw : Captured w) (hkey : cap.idempotencyKey = cap.orderId)
    (hreplay : ∀ c ∈ w.charges, c.idempotencyKey = cap.idempotencyKey → c.result = cap.result) :
    RowOk { w with charges := w.charges ++ [cap] } p := by
  obtain ⟨c, hc, hcp⟩ := h.called
  constructor
  · exact ⟨c, List.mem_append_left _ hc, hcp⟩
  · intro c' hc' hcp'
    simp only [World.captured, performed_concat] at hc'
    split at hc'
    · rename_i hnew
      rcases List.mem_append.mp hc' with hc' | hc'
      · exact h.records c' hc' hcp'
      · obtain rfl := List.mem_singleton.mp hc'
        have hkeys : c.idempotencyKey = c'.idempotencyKey := by
          rw [hw.keys c hc, hkey, hcp, hcp']
        have hsuccess : c.result.success = true := by
          rw [hreplay c hc hkeys]
          exact hnew.1
        obtain ⟨e, he, hek⟩ : ∃ e ∈ w.captured, e.idempotencyKey = c.idempotencyKey :=
          exists_performed hc hsuccess
        exact absurd (hek.trans hkeys) (hnew.2 e he)
    · exact h.records c' hc' hcp'

theorem mem_captured (h : cap ∈ w.captured) : cap ∈ w.charges ∧ cap.result.success = true :=
  mem_performed h

/-- The row a successful charge inserts records the capture of its order. -/
theorem RowOk.insert (hw : Captured w) (hd : d.providerCall d.result ∈ w.charges) {amount : ℚ}
    (ha : d.params.amount = some amount)
    (hamount : ∀ c ∈ w.captured, c.orderId = d.params.orderId →
      c.amount.map ofNumber = d.params.amount.map ofNumber) : RowOk w (d.payment amount) := by
  constructor
  · exact ⟨_, hd, rfl⟩
  · intro c hc hco
    obtain ⟨hmem, hsuccess⟩ := mem_captured hc
    have hresult : c.result = d.result := hw.replays c hmem _ hd hco
    rw [hresult] at hsuccess
    constructor
    · simp [ChargeDraft.payment, ChargeDraft.finalStatus, hsuccess]
    · rw [hamount c hc hco, ha]
      rfl
    · rw [hresult]
      rfl

/-- How an insert ends when the database does not fail. -/
theorem saving_cases (hf : env.failAt = none)
    (h : chargeStep w (.saving d) env = some (w', c')) :
    (c' = .threw .database ∧ w' = w ∧ ∀ amount, d.params.amount = some amount →
      ∃ p ∈ w.db.payments, p.Conflicts (d.payment amount)) ∨
    ∃ amount, d.params.amount = some amount ∧ c' = .entering d amount ∧
      w' = { w with uncommitted := d.payment amount :: w.uncommitted } ∧
      ∀ p ∈ w.db.payments, ¬ p.Conflicts (d.payment amount) := by
  simp only [chargeStep, hf, reduceCtorEq, false_or] at h
  split at h
  · rename_i ha
    cases h
    exact Or.inl ⟨rfl, rfl, by simp [ha]⟩
  · rename_i amount ha
    split at h
    · rename_i hc
      cases h
      refine Or.inl ⟨rfl, rfl, fun amount' ha' => ?_⟩
      obtain rfl : amount = amount' := Option.some.inj (ha.symm.trans ha')
      exact hc
    · rename_i hc
      split at h
      · cases h
      · cases h
        push Not at hc
        exact Or.inr ⟨amount, ha, rfl, rfl, hc⟩

theorem Captured.of_charges (hw : Captured w) (hcharges : w'.charges = w.charges)
    (hrows : ∀ p ∈ w'.db.payments, RowOk w p) : Captured w' := by
  refine ⟨?_, ?_, fun p hp => (hrows p hp).of_charges hcharges⟩
  · rw [hcharges]
    exact hw.keys
  · rw [hcharges]
    exact hw.replays

theorem ChargeCall.Captures.of_charges (hc : c.Captures w) (hcharges : w'.charges = w.charges) :
    c.Captures w' := by
  refine ⟨?_, fun p hp => (hc.inserted p hp).of_charges hcharges⟩
  rw [hcharges]
  exact hc.called

theorem ChargeCall.Captures.of_idle (hd : c.draft = none) (hi : c.inserted = none) :
    c.Captures w := by
  constructor
  · simp [hd]
  · simp [hi]

theorem Captured.call {a : ChargeAttempt} (hw : Captured w)
    (hreplay : ∀ c ∈ w.charges, c.idempotencyKey = a.params.orderId → c.result = env.result) :
    Captured { w with charges := w.charges ++ [a.providerCall env.result] } := by
  have hsame : ∀ c ∈ w.charges, c.orderId = a.params.orderId → c.result = env.result :=
    fun c hc ho => hreplay c hc ((hw.keys c hc).trans ho)
  constructor
  · exact forall_mem_concat hw.keys rfl
  · intro c hc c' hc' ho
    rcases List.mem_append.mp hc with hc | hc <;> rcases List.mem_append.mp hc' with hc' | hc'
    · exact hw.replays c hc c' hc' ho
    · obtain rfl := List.mem_singleton.mp hc'
      exact hsame c hc ho
    · obtain rfl := List.mem_singleton.mp hc
      exact (hsame c' hc' ho.symm).symm
    · rw [List.mem_singleton.mp hc, List.mem_singleton.mp hc']
  · exact fun p hp => (hw.rows p hp).call hw rfl hreplay

/-- A successful charge is saved under the condition, or is not the order's capture. -/
theorem amount_of_insert (hw : Captured w) (hd : d.providerCall d.result ∈ w.charges)
    (hok : d.result.success = true → SavesCapture w d)
    (hfree : ∀ p ∈ w.db.payments, p.orderId ≠ d.params.orderId) :
    ∀ c ∈ w.captured, c.orderId = d.params.orderId →
      c.amount.map ofNumber = d.params.amount.map ofNumber := by
  intro c hc ho
  obtain ⟨hmem, hsuccess⟩ := mem_captured hc
  rw [hw.replays c hmem _ hd ho] at hsuccess
  rcases hok hsuccess with ⟨p, hp, hpo⟩ | ⟨-, -, hamount⟩
  · exact absurd hpo (hfree p hp)
  · exact hamount c hc ho

theorem captured_own (hw : Captured w) (hc : c.Captures w) (hf : env.failAt = none)
    (hreplay : ∀ a, c = .charging a → ∀ b ∈ w.charges,
      b.idempotencyKey = a.params.orderId → b.result = env.result)
    (hok : ∀ d, c = .saving d → d.result.success = true → SavesCapture w d)
    (h : chargeStep w c env = some (w', c')) : Captured w' ∧ c'.Captures w' := by
  have he := chargeStep_effect h
  cases he with
  | found | refused => exact ⟨hw, .of_idle rfl rfl⟩
  | draw => exact ⟨hw.of_charges rfl fun p hp => hw.rows p hp, .of_idle rfl rfl⟩
  | rollback => exact ⟨hw.of_charges rfl fun p hp => hw.rows p hp, .of_idle rfl rfl⟩
  | enter d amount => exact ⟨hw, hc.called, hc.inserted⟩
  | append d amount =>
    exact ⟨hw.of_charges rfl fun p hp => hw.rows p hp,
      (⟨hc.called, hc.inserted⟩ : ChargeCall.Captures w (.committing d amount)).of_charges rfl⟩
  | commit d amount =>
    exact ⟨hw.of_charges rfl (forall_mem_concat hw.rows (hc.inserted _ rfl)), .of_idle rfl rfl⟩
  | call a =>
    refine ⟨hw.call (hreplay a rfl), ?_, by simp [ChargeCall.inserted]⟩
    rintro d ⟨⟩
    exact List.mem_append_right _ List.mem_cons_self
  | insert d amount free =>
    obtain ⟨hc', -⟩ | ⟨amount', ha, hc', -, hfree⟩ := saving_cases hf h
    · cases hc'
    · cases hc'
      have hd := hc.called d rfl
      have hrow : RowOk w (d.payment amount) := .insert hw hd ha
        (amount_of_insert hw hd (hok d rfl) fun p hp ho => hfree p hp (Or.inl ho))
      refine ⟨hw.of_charges rfl fun p hp => hw.rows p hp, ?_, ?_⟩
      · rintro d' ⟨⟩
        exact hd
      · rintro p ⟨⟩
        exact hrow.of_charges rfl

theorem captured_other (hw : Captured w) (hl : l.Captures w)
    (hreplay : ∀ a, c = .charging a → ∀ b ∈ w.charges,
      b.idempotencyKey = a.params.orderId → b.result = env.result)
    (h : chargeStep w c env = some (w', c')) : l.Captures w' := by
  cases chargeStep_effect h with
  | found | refused | enter => exact hl
  | draw | rollback | insert | append | commit => exact hl.of_charges rfl
  | call a =>
    constructor
    · exact fun d hd => List.mem_append_left _ (hl.called d hd)
    · exact fun p hp => (hl.inserted p hp).call hw rfl (hreplay a rfl)

/-- The order of a capture keeps its row or the call that is about to insert it. -/
theorem order_kept (hw : Captured w) (hc : c.Captures w) (hf : env.failAt = none)
    (hok : ∀ d, c = .saving d → d.result.success = true → SavesCapture w d)
    (h : chargeStep w c env = some (w', c')) (hd : c.draft = some d) (hcap : cap ∈ w.captured)
    (ho : d.params.orderId = cap.orderId) :
    (∃ p ∈ w'.db.payments, p.orderId = cap.orderId) ∨ c'.draft = some d := by
  cases c with
  | looking | charging | returned | threw => cases hd
  | saving d' =>
    cases hd
    rcases saving_cases hf h with ⟨-, rfl, hconflict⟩ | ⟨amount, -, rfl, -, -⟩
    · left
      obtain ⟨hmem, hsuccess⟩ := mem_captured hcap
      rw [hw.replays cap hmem _ (hc.called d rfl) ho.symm] at hsuccess
      rcases hok d rfl hsuccess with ⟨p, hp, hpo⟩ | ⟨hkeys, hamount, -⟩
      · exact ⟨p, hp, hpo.trans ho⟩
      · obtain ⟨amount, ha⟩ := Option.isSome_iff_exists.mp hamount
        obtain ⟨p, hp, hpo | hpk⟩ := hconflict amount ha
        · exact ⟨p, hp, hpo.trans ho⟩
        · exact absurd hpk (hkeys p hp)
    · exact Or.inr rfl
  | entering d' amount | appending d' amount =>
    cases hd
    simp only [chargeStep, hf, reduceCtorEq, if_false, Option.some.injEq, Prod.mk.injEq] at h
    obtain ⟨-, rfl⟩ := h
    exact Or.inr rfl
  | committing d' amount =>
    cases hd
    simp only [chargeStep, hf, reduceCtorEq, if_false, Option.some.injEq, Prod.mk.injEq] at h
    obtain ⟨rfl, -⟩ := h
    exact Or.inl ⟨d.payment amount, List.mem_append_right _ List.mem_cons_self, ho⟩

theorem payments_kept (h : chargeStep w c env = some (w', c')) :
    ∀ p ∈ w.db.payments, p ∈ w'.db.payments := by
  intro p hp
  cases chargeStep_effect h with
  | found | draw | call | refused | insert | enter | append | rollback => exact hp
  | commit => exact List.mem_append_left _ hp

/-- A capture is an earlier one, or the one of the call that made the step. -/
theorem captured_cases (h : chargeStep w c env = some (w', c')) (hcap : cap ∈ w'.captured) :
    cap ∈ w.captured ∨ ∃ d, c'.draft = some d ∧ d.params.orderId = cap.orderId := by
  cases chargeStep_effect h with
  | found | draw | refused | insert | enter | append | commit | rollback => exact Or.inl hcap
  | call a =>
    simp only [World.captured, performed_concat] at hcap
    split at hcap
    · rcases List.mem_append.mp hcap with hcap | hcap
      · exact Or.inl hcap
      · obtain rfl := List.mem_singleton.mp hcap
        exact Or.inr ⟨_, rfl, rfl⟩
    · exact Or.inl hcap

end Steps

variable {ι : Type} {q q' : Pool World ChargeCall ι} {a : ι × Env}

/-- Every capture has a row of its order, or a call that is still about to insert one. -/
structure Capturing (q : Pool World ChargeCall ι) : Prop where
  store : Captured q.store
  calls : ∀ i, (q.calls i).Captures q.store
  owed : ∀ c ∈ q.store.captured, (∃ p ∈ q.store.db.payments, p.orderId = c.orderId) ∨
    ∃ i d, (q.calls i).draft = some d ∧ d.params.orderId = c.orderId

theorem Capturing.recorded (hq : Capturing q) (hidle : ∀ i, (q.calls i).draft = none) :
    CapturesRecorded q.store := by
  intro c hc
  obtain ⟨p, hp, ho⟩ := (hq.owed c hc).resolve_right (by simp [hidle])
  exact ⟨p, hp, ho, (hq.store.rows p hp).records c hc ho.symm⟩

variable [DecidableEq ι]

theorem Capturing.act (hq : Capturing q) (hM : ProviderReplays q a) (hC : InsertsCapture q a)
    (h : q.act chargeStep a = some q') : Capturing q' := by
  obtain ⟨w', c', hstep, rfl⟩ := Pool.act_eq_some.mp h
  obtain ⟨hf, hsave⟩ := hC
  have hreplay : ∀ att, q.calls a.1 = .charging att → ∀ b ∈ q.store.charges,
      b.idempotencyKey = att.params.orderId → b.result = a.2.result := by
    intro att hatt
    simpa only [ProviderReplays, hatt] using hM
  have hok : ∀ d, q.calls a.1 = .saving d → d.result.success = true →
      SavesCapture q.store d := by
    intro d hd
    simpa only [hd] using hsave
  obtain ⟨hstore, hself⟩ := captured_own hq.store (hq.calls a.1) hf hreplay hok hstep
  refine ⟨hstore, forall_update hself fun j =>
    captured_other hq.store (hq.calls j) hreplay hstep, ?_⟩
  have hmine : ∀ d, c'.draft = some d →
      ∃ i e, (Function.update q.calls a.1 c' i).draft = some e ∧
        e.params.orderId = d.params.orderId := fun d hd =>
    ⟨a.1, d, by rwa [Function.update_self], rfl⟩
  intro cap hcap
  rcases captured_cases hstep hcap with hcap | ⟨d, hd, ho⟩
  · rcases hq.owed cap hcap with ⟨p, hp, ho⟩ | ⟨i, d, hd, ho⟩
    · exact Or.inl ⟨p, payments_kept hstep p hp, ho⟩
    · by_cases hi : i = a.1
      · subst hi
        rcases order_kept hq.store (hq.calls a.1) hf hok hstep hd hcap ho with hrow | hd'
        · exact Or.inl hrow
        · exact Or.inr (ho ▸ hmine d hd')
      · exact Or.inr ⟨i, d, by simpa [hi] using hd, ho⟩
  · exact Or.inr (ho ▸ hmine d hd)

/-- The provider behaves as documented towards a run of charges. -/
def Replaying (params : ι → ChargeParams) (as : List (ι × Env)) : Prop :=
  AllSteps (Pool.act chargeStep) ProviderReplays ⟨World.empty, fun i => .looking (params i)⟩ as

/--
Charges interleaved in any order record every capture faithfully whenever no call is in
flight, if each insert of a successful charge meets the condition.
-/
theorem captures_recorded (params : ι → ChargeParams) (as : List (ι × Env))
    (hreplays : Replaying params as)
    (hC : AllSteps (Pool.act chargeStep) InsertsCapture
      ⟨World.empty, fun i => .looking (params i)⟩ as) :
    Always (Pool.act chargeStep)
      (fun q => (∀ i, (q.calls i).draft = none) → CapturesRecorded q.store)
      ⟨World.empty, fun i => .looking (params i)⟩ as := by
  refine always_of_allSteps (I := Capturing)
    (fun _ _ _ hq hC h => hq.act hC.1 hC.2 h) (fun _ hq => hq.recorded) ?_ (hreplays.and hC)
  refine ⟨⟨?_, ?_, ?_⟩, fun i => .of_idle rfl rfl, ?_⟩ <;> simp [World.empty, World.captured,
    performed]

/-- Two orders, charged under the client keys the caller chose for them. -/
def twoOrders (key : Bool → String) (i : Bool) : ChargeParams :=
  { sampleCharge with
    orderId := if i then "order-1" else "order-2"
    idempotencyKey := some (key i) }

def captureStep (i : Bool) : Bool × Env :=
  (i, ⟨⟨0, ⟨true, if i then "txn-1" else "txn-2", "mock", none⟩⟩, none⟩)

/-- Both charges miss the lookup and are captured before one of them commits. -/
def bothCapture : List (Bool × Env) :=
  [true, false, true, false, true, true, true, true, false].map captureStep

/-- The two orders share their client key, and the second insert discards its capture. -/
theorem capture_discarded :
    Replaying (twoOrders fun _ => "key") bothCapture ∧
    ∃ q ∈ exec (Pool.act chargeStep)
        ⟨World.empty, fun i => .looking (twoOrders (fun _ => "key") i)⟩ bothCapture,
      (∀ i, (q.calls i).draft = none) ∧ ¬ CapturesRecorded q.store := by
  constructor
  · unfold Replaying
    decide +kernel
  · decide +kernel

theorem captures_of_distinct_keys :
    Always (Pool.act chargeStep)
      (fun q => (∀ i, (q.calls i).draft = none) → CapturesRecorded q.store)
      ⟨World.empty, fun i => .looking (twoOrders (fun i => if i then "key-1" else "key-2") i)⟩
      (bothCapture ++ [false, false, false].map captureStep) := by
  refine captures_recorded _ _ ?_ ?_
  · unfold Replaying
    decide +kernel
  · decide +kernel

end PaymentService
