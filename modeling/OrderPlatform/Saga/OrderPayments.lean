import OrderPlatform.Saga.Announcements
import OrderPlatform.Saga.Cancellation
import OrderPlatform.Saga.OrderCreated

/-! # Payments and the orders they are for

The payment service learns of an order from its message alone, and of its total from a number of
the payload, which the column of the total may have rounded. However often the message comes and
wherever a charge or a refund of it stops, what the provider is asked for, what is stored and what
is announced agree with the order's row.
-/

namespace Saga

open Runs Store Wire
open OrderService (Order Outbox)
open PaymentService (Payment ChargeParams ChargeCall ChargeDraft ProviderCharge RefundStage
  RefundDraft Env processOrderCreated process_of_held process_of_free dedupKey dispatch chargeStep
  chargeStep_effect refundStatement refundStatement_effect)

/-- The charge asked for is that of the order. -/
structure Asks (o : Order) (params : ChargeParams) : Prop where
  order : params.orderId = toString o.id
  customer : params.customerUserId = o.customerUserId
  amount : ∃ q, params.amount = some q ∧ Totals o q
  currency : orDefault params.currency "USD" = o.currency
  correlation : params.correlationId = o.correlationId ∧ o.correlationId ≠ some ""
  keyless : params.idempotencyKey = none

/-- The payment is for the order, its whole total and its customer. -/
structure PaidFor (o : Order) (p : Payment) : Prop where
  order : p.orderId = toString o.id
  customer : p.customerUserId = o.customerUserId
  amount : p.amount = o.totalAmount
  currency : p.currency = o.currency

structure ChargedFor (o : Order) (c : ProviderCharge) : Prop where
  order : c.orderId = toString o.id
  key : c.idempotencyKey = toString o.id
  amount : ∃ q, c.amount = some q ∧ Totals o q
  currency : c.currency = o.currency

/-- The event tells the order, its customer and its total, under its correlation identifier. -/
structure TellsOf (o : Order) (row : PaymentService.Outbox) : Prop where
  order : row.payload.member "orderId" = .ok (some (.str (toString o.id)))
  customer : row.payload.member "customerUserId" = .ok (some (.str o.customerUserId))
  amount : ∃ q, row.payload.member "amount" = .ok (some (.num q)) ∧ Totals o q
  currency : row.payload.member "currency" = .ok (some (.str o.currency))
  correlation : ∃ c, row.headers = some [("correlationId", c)] ∧
    ∀ k, o.correlationId = some k → c = k

/-- All that the payment service holds and has asked for agrees with the orders. -/
structure OrdersPaid (orders : List Order) (w : PaymentService.World) : Prop where
  payments : ∀ p ∈ w.db.payments ++ w.uncommitted, ∃ o ∈ orders, PaidFor o p
  charges : ∀ c ∈ w.charges, ∃ o ∈ orders, ChargedFor o c
  events : ∀ row ∈ w.db.outbox, row.eventType ≠ .refundIssued → ∃ o ∈ orders, TellsOf o row

def chargeParams : ChargeCall → Option ChargeParams
  | .looking params => some params
  | .charging a => some a.params
  | .saving d | .entering d _ | .appending d _ | .committing d _ => some d.params
  | .returned _ | .threw _ => none

/-- A charge in flight is that of an order, and inside its transaction at the amount given. -/
structure ChargeCall.ForOrder (orders : List Order) (c : ChargeCall) : Prop where
  asks : ∀ params, chargeParams c = some params → ∃ o ∈ orders, Asks o params
  amount : ∀ p, c.inserted = some p → ∃ o ∈ orders, PaidFor o p

section Terms

variable {o o' : Order} {orders orders' : List Order} {w w' : PaymentService.World}
  {c c' : ChargeCall} {x : Env}

theorem Asks.of_terms {params : ChargeParams} (h : Asks o params) (ht : terms o' = terms o) :
    Asks o' params := by
  have hterms : Asks (terms o) params :=
    ⟨h.order, h.customer, h.amount, h.currency, h.correlation, h.keyless⟩
  rw [← ht] at hterms
  exact ⟨hterms.order, hterms.customer, hterms.amount, hterms.currency, hterms.correlation,
    h.keyless⟩

theorem PaidFor.of_terms {p : Payment} (h : PaidFor o p) (ht : terms o' = terms o) :
    PaidFor o' p := by
  have hterms : PaidFor (terms o) p := ⟨h.order, h.customer, h.amount, h.currency⟩
  rw [← ht] at hterms
  exact ⟨hterms.order, hterms.customer, hterms.amount, hterms.currency⟩

theorem ChargedFor.of_terms {p : ProviderCharge} (h : ChargedFor o p) (ht : terms o' = terms o) :
    ChargedFor o' p := by
  have hterms : ChargedFor (terms o) p := ⟨h.order, h.key, h.amount, h.currency⟩
  rw [← ht] at hterms
  exact ⟨hterms.order, hterms.key, hterms.amount, hterms.currency⟩

theorem TellsOf.of_terms {row : PaymentService.Outbox} (h : TellsOf o row)
    (ht : terms o' = terms o) : TellsOf o' row := by
  have hterms : TellsOf (terms o) row :=
    ⟨h.order, h.customer, h.amount, h.currency, h.correlation⟩
  rw [← ht] at hterms
  exact ⟨hterms.order, hterms.customer, hterms.amount, hterms.currency, hterms.correlation⟩

theorem OrdersPaid.mono (h : OrdersPaid orders w)
    (hk : ∀ o ∈ orders, ∃ o' ∈ orders', Follows o o') : OrdersPaid orders' w where
  payments p hp := by
    obtain ⟨o, ho, hpaid⟩ := h.payments p hp
    obtain ⟨o', ho', hf⟩ := hk o ho
    exact ⟨o', ho', hpaid.of_terms hf.same⟩
  charges c hc := by
    obtain ⟨o, ho, hcharged⟩ := h.charges c hc
    obtain ⟨o', ho', hf⟩ := hk o ho
    exact ⟨o', ho', hcharged.of_terms hf.same⟩
  events row hrow htype := by
    obtain ⟨o, ho, htells⟩ := h.events row hrow htype
    obtain ⟨o', ho', hf⟩ := hk o ho
    exact ⟨o', ho', htells.of_terms hf.same⟩

theorem ChargeCall.ForOrder.mono (h : ChargeCall.ForOrder orders c)
    (hk : ∀ o ∈ orders, ∃ o' ∈ orders', Follows o o') : ChargeCall.ForOrder orders' c where
  asks params hp := by
    obtain ⟨o, ho, hasks⟩ := h.asks params hp
    obtain ⟨o', ho', hf⟩ := hk o ho
    exact ⟨o', ho', hasks.of_terms hf.same⟩
  amount p hp := by
    obtain ⟨o, ho, hpaid⟩ := h.amount p hp
    obtain ⟨o', ho', hf⟩ := hk o ho
    exact ⟨o', ho', hpaid.of_terms hf.same⟩

theorem Asks.paidFor {d : ChargeDraft} (h : Asks o d.params) {amount : ℚ}
    (ha : d.params.amount = some amount) : PaidFor o (d.payment amount) where
  order := h.order
  customer := h.customer
  amount := by
    obtain ⟨q, hq, ht⟩ := h.amount
    obtain rfl : amount = q := Option.some.inj (ha.symm.trans hq)
    exact ht
  currency := h.currency

theorem Asks.chargedFor {a : PaymentService.ChargeAttempt} (h : Asks o a.params)
    (result : PaymentService.ChargeResult) : ChargedFor o (a.providerCall result) :=
  ⟨h.order, h.order, h.amount, h.currency⟩

theorem Asks.tellsOf {d : ChargeDraft} (h : Asks o d.params) : TellsOf o d.outboxRow := by
  obtain ⟨q, hq, ht⟩ := h.amount
  constructor
  · simp [ChargeDraft.outboxRow, PaymentService.Outbox.append, Json.object, Json.member, h.order]
  · simp [ChargeDraft.outboxRow, PaymentService.Outbox.append, Json.object, Json.member, h.customer]
  · refine ⟨q, ?_, ht⟩
    simp [ChargeDraft.outboxRow, PaymentService.Outbox.append, Json.object, Json.member, hq]
  · simp [ChargeDraft.outboxRow, PaymentService.Outbox.append, Json.object, Json.member, hq,
      h.currency]
  · refine ⟨_, rfl, fun k hk => ?_⟩
    have hne : k ≠ "" := fun he => h.correlation.2 (he ▸ hk)
    simp [h.correlation.1, hk, orDefault, hne]

end Terms

section Steps

variable {orders : List Order} {w w' : PaymentService.World} {c c' : ChargeCall} {x : Env}

theorem forOrder_ended (h : chargeParams c = none) : ChargeCall.ForOrder orders c where
  asks params hp := by
    rw [h] at hp
    cases hp
  amount p hp := by
    cases c with
    | returned | threw => cases hp
    | looking | charging | saving | entering | appending | committing => cases h

theorem ordersPaid_abandon {p : Payment} (hw : OrdersPaid orders w) :
    OrdersPaid orders (w.rollback p) where
  payments q hq := by
    refine hw.payments q ?_
    rcases List.mem_append.mp hq with hq | hq
    · exact List.mem_append_left _ hq
    · exact List.mem_append_right _ (List.mem_of_mem_erase hq)
  charges := hw.charges
  events := hw.events

/-- The insert that opens a transaction is at the amount of the parameters. -/
theorem amount_of_saving {d d' : ChargeDraft} {amount : ℚ}
    (h : chargeStep w (.saving d) x = some (w', .entering d' amount)) :
    d.params.amount = some amount := by
  simp only [chargeStep] at h
  split at h
  · cases h
  · rename_i a ha
    split at h
    · cases h
    · split at h <;> cases h
      exact ha

/-- A charge keeps to the order it is for, and what it writes and asks for is that order's. -/
theorem ordersPaid_charge (h : chargeStep w c x = some (w', c')) (hw : OrdersPaid orders w)
    (hc : ChargeCall.ForOrder orders c) : OrdersPaid orders w' ∧ ChargeCall.ForOrder orders c' := by
  have he := chargeStep_effect h
  cases he with
  | found | refused => exact ⟨hw, forOrder_ended rfl⟩
  | draw params =>
    exact ⟨⟨hw.payments, hw.charges, hw.events⟩, hc.asks, fun p hp => nomatch hp⟩
  | call a =>
    obtain ⟨o, ho, hasks⟩ := hc.asks a.params rfl
    refine ⟨⟨hw.payments, ?_, hw.events⟩, hc.asks, fun p hp => nomatch hp⟩
    exact forall_mem_concat hw.charges ⟨o, ho, hasks.chargedFor x.result⟩
  | insert d amount free =>
    obtain ⟨o, ho, hasks⟩ := hc.asks d.params rfl
    have hpaid : PaidFor o (d.payment amount) := hasks.paidFor (amount_of_saving h)
    refine ⟨⟨fun p hp => ?_, hw.charges, hw.events⟩, hc.asks, ?_⟩
    · rcases List.mem_append.mp hp with hp | hp
      · exact hw.payments p (List.mem_append_left _ hp)
      · rcases List.mem_cons.mp hp with rfl | hp
        · exact ⟨o, ho, hpaid⟩
        · exact hw.payments p (List.mem_append_right _ hp)
    · rintro p ⟨⟩
      exact ⟨o, ho, hpaid⟩
  | enter d amount => exact ⟨hw, hc.asks, hc.amount⟩
  | append d amount =>
    obtain ⟨o, ho, hasks⟩ := hc.asks d.params rfl
    refine ⟨⟨hw.payments, hw.charges, ?_⟩, hc.asks, hc.amount⟩
    exact forall_mem_concat hw.events fun _ => ⟨o, ho, hasks.tellsOf⟩
  | commit d amount =>
    refine ⟨⟨fun p hp => ?_, hw.charges, hw.events⟩, forOrder_ended rfl⟩
    simp only [PaymentService.World.commit, PaymentService.World.rollback, List.mem_append,
      List.mem_singleton] at hp
    rcases hp with (hp | rfl) | hp
    · exact hw.payments p (List.mem_append_left _ hp)
    · exact hc.amount _ rfl
    · exact hw.payments p (List.mem_append_right _ (List.mem_of_mem_erase hp))
  | rollback c p hins => exact ⟨ordersPaid_abandon hw, forOrder_ended rfl⟩

theorem paidFor_apply {o : Order} {p : Payment} (h : PaidFor o p) (d : RefundDraft) :
    PaidFor o (d.apply p) :=
  ⟨h.order, h.customer, h.amount, h.currency⟩

/-- A refund changes neither what a payment is for nor what was charged. -/
theorem ordersPaid_refund {c c' : RefundStage} (h : refundStatement w c x = some (w', c'))
    (hw : OrdersPaid orders w) : OrdersPaid orders w' := by
  cases refundStatement_effect h with
  | append d =>
    exact ⟨hw.payments, hw.charges, forall_mem_concat hw.events fun htype => absurd rfl htype⟩
  | commit d =>
    refine ⟨fun p hp => ?_, hw.charges, hw.events⟩
    rcases List.mem_append.mp hp with hp | hp
    · obtain ⟨p', hp', rfl⟩ := mem_update.mp hp
      obtain ⟨o, ho, hpaid⟩ := hw.payments p' (List.mem_append_left _ hp')
      refine ⟨o, ho, ?_⟩
      split
      · exact paidFor_apply hpaid d
      · exact hpaid
    · exact hw.payments p (List.mem_append_right _ hp)
  | draw | call | decline => exact ⟨hw.payments, hw.charges, hw.events⟩
  | _ => exact hw

/-- What taking the message of a row makes of the call its type leads to. -/
theorem receive_message {n n' : Network} {row : Outbox} {k : ℕ} {partition : String} {now : ℕ}
    (h : n.receive (delivery row.message k partition now) = some (n', some c)) :
    ∃ data corr event,
      dispatch (some (.str row.eventType.text)) row.payload
        (PaymentService.correlationId (delivery row.message k partition now).info
          (.str (toString row.eventId))) = .ok (some (.processOrderCreated data corr)) ∧
      PaymentService.OrderCreatedEvent.ofJson data = some event ∧
      c = .looking (processOrderCreated event corr.text) := by
  have he := @event_of_message _ (delivery row.message k partition now) row rfl rfl
  by_cases hheld :
      n.redis.held (dedupKey PaymentService.orderEvents (toString row.eventId)) now = true
  · rw [Network.receive, process_of_held ⟨n.redis, none⟩ he hheld] at h
    cases h
  · have hfree :
        n.redis.held (dedupKey PaymentService.orderEvents (toString row.eventId)) now = false :=
      Bool.eq_false_iff.mpr hheld
    rw [Network.receive, process_of_free ⟨n.redis, none⟩ he hfree] at h
    simp only [PaymentService.Event.run] at h
    cases hd : dispatch (some (.str row.eventType.text)) row.payload
        (PaymentService.correlationId (delivery row.message k partition now).info
          (.str (toString row.eventId))) with
    | error e =>
      simp only [hd] at h
      cases h
    | ok call =>
      cases call with
      | none =>
        simp only [hd] at h
        cases h
      | some call =>
        simp only [hd, accept] at h
        cases call with
        | processOrderCreated data corr =>
          obtain ⟨event, hevent, he⟩ := Option.map_eq_some_iff.mp h
          cases he
          exact ⟨data, corr, event, rfl, hevent, rfl⟩
        | processRefundRequired | processInventoryReservationFailed => cases h

/-- The message of a row starts the charge of the order it announces, or nothing. -/
theorem asks_of_receive {n n' : Network} {o : Order} {row : Outbox} {k : ℕ} {partition : String}
    {now : ℕ} (ho : Origin o row)
    (h : n.receive (delivery row.message k partition now) = some (n', some c)) :
    ∃ params, c = .looking params ∧ Asks o params := by
  obtain ⟨data, corr, event, hd, hevent, rfl⟩ := receive_message h
  cases ho with
  | created d hc ht =>
    have hcorr : PaymentService.correlationId (delivery d.entry.message k partition now).info
        (.str (toString d.entry.eventId)) = .str d.correlationId := by
      simp [PaymentService.correlationId, PaymentService.Meta.header, delivery,
        (correlation_header d hc).1]
    rw [hcorr] at hd
    cases (dispatch_payload d (.str d.correlationId)).symm.trans hd
    cases (ofJson_payload d).symm.trans hevent
    have hasks : Asks d.order (processOrderCreated (createdEvent d) d.correlationId) := by
      rw [charge_params d hc]
      refine ⟨rfl, rfl, ⟨_, rfl, rfl⟩, rfl, ⟨(correlation_header d hc).2, fun he => ?_⟩, rfl⟩
      exact hc (Option.some.inj he)
    exact ⟨_, rfl, hasks.of_terms ht.symm⟩
  | changed r hr order ht hid hs fresh x =>
    have htype : (r.entry order fresh x).eventType = r.target.eventType := rfl
    rw [htype] at hd
    cases hr : r.target <;> rw [hr] at hd <;> cases hd

end Steps

section Network

variable {isUuid : String → Bool} {n n' : Network} {q q' : Party}

def Party.ForOrders (n : Network) : Party → Prop
  | .charging (some c) => ChargeCall.ForOrder n.orders.db.orders c
  | _ => True

theorem Party.ForOrders.kept (h : q.ForOrders n) (hk : n.Kept n') : q.ForOrders n' := by
  unfold Party.ForOrders at h ⊢
  split at h
  · exact ChargeCall.ForOrder.mono h hk.orders
  · trivial

theorem Party.Starts.forOrders (h : q.Starts) : q.ForOrders n := by
  cases h <;> trivial

theorem live_eq {c c' : ChargeCall} (h : ChargeCall.live c = some c') : c = c' := by
  unfold ChargeCall.live at h
  split at h <;> cases h
  rfl

theorem forOrders_live {c : ChargeCall} (h : ChargeCall.ForOrder n.orders.db.orders c) :
    (Party.charging (ChargeCall.live c)).ForOrders n := by
  cases hc : ChargeCall.live c with
  | none => trivial
  | some c' => exact live_eq hc ▸ h

theorem ordersPaid_abandoned {c : ChargeCall} (hw : OrdersPaid n.orders.db.orders n.payments) :
    OrdersPaid (n.abandon c).orders.db.orders (n.abandon c).payments := by
  rw [orders_abandon]
  unfold Network.abandon
  split
  · exact ordersPaid_abandon hw
  · exact hw

theorem NetworkEffect.ordersPaid (hn : n.Announcing)
    (hw : OrdersPaid n.orders.db.orders n.payments) (hq : q.ForOrders n)
    (h : NetworkEffect isUuid n q n' q') :
    OrdersPaid n'.orders.db.orders n'.payments ∧ q'.ForOrders n' := by
  have hk := h.kept
  cases h with
  | create | change | relay => exact ⟨hw.mono hk.orders, trivial⟩
  | receive m k partition now n' c hm h =>
    obtain ⟨o, ho, row, hrow, rfl⟩ := hn.outbox m (hn.published m hm)
    rw [receive_redis h]
    refine ⟨hw, ?_⟩
    cases c with
    | none => trivial
    | some c =>
      obtain ⟨params, rfl, hasks⟩ := asks_of_receive hrow h
      refine ⟨?_, fun p hp => nomatch hp⟩
      rintro params ⟨⟩
      exact ⟨o, ho, hasks⟩
  | charge c c' x w h =>
    obtain ⟨hw', hc'⟩ := ordersPaid_charge h hw hq
    exact ⟨hw', forOrders_live hc'⟩
  | abandon c => exact ⟨ordersPaid_abandoned hw, trivial⟩
  | refund c c' x w h => exact ⟨ordersPaid_refund h hw, trivial⟩
  | _ => exact ⟨hw, trivial⟩

end Network

theorem paying_exec {isUuid : String → Bool} {Id : Type} [DecidableEq Id] {parties : Id → Party}
    (hparties : ∀ i, (parties i).Starts) {inputs : List (Id × Stimulus)}
    {q : Pool Network Party Id}
    (h : exec (Pool.act (networkStep isUuid)) ⟨.empty, parties⟩ inputs = some q) :
    q.store.Announcing ∧ OrdersPaid q.store.orders.db.orders q.store.payments := by
  have hempty : OrdersPaid Network.empty.orders.db.orders Network.empty.payments :=
    ⟨fun _ h => (nomatch h), fun _ h => (nomatch h), fun _ h => (nomatch h)⟩
  refine network_invariant (fun n => OrdersPaid n.orders.db.orders n.payments)
    (fun n q => q.ForOrders n) hempty (fun q hq => hq.forOrders) ?_ ?_ hparties h
  · exact fun n n' q q' hn _ hG hL he => he.ordersPaid hn hG hL
  · exact fun n n' l hk hl => hl.kept hk

/--
However orders are created and changed, messages relayed and redelivered, and charges and refunds
fail or stop: every payment stored is one for a stored order, its customer, its total and its
currency; the provider was asked for nothing else; and each event of a charge tells that order.
-/
theorem orders_paid {isUuid : String → Bool} {Id : Type} [DecidableEq Id] {parties : Id → Party}
    (hparties : ∀ i, (parties i).Starts) {inputs : List (Id × Stimulus)}
    {q : Pool Network Party Id}
    (h : exec (Pool.act (networkStep isUuid)) ⟨.empty, parties⟩ inputs = some q) :
    OrdersPaid q.store.orders.db.orders q.store.payments :=
  (paying_exec hparties h).2

/-- A customer, a relay, a consumer of the payment service and a refund. -/
def shop : Fin 4 → Party
  | 0 => .client
  | 1 => .relaying .idle
  | 2 => .charging none
  | 3 => .refunding (.outside (.compensating "1" "corr-1"))

theorem shop_starts : ∀ i, (shop i).Starts
  | 0 => .client
  | 1 => .relaying
  | 2 => .charging
  | 3 => .compensating _ _

/-- The relay crashes after a publication: the order is announced twice, and charged once. -/
def shopping : List (Fin 4 × Stimulus) :=
  [(0, .create sampleOrder none)] ++
    List.replicate 2 (1, .poll ⟨fun _ => 0, 1, false, false⟩) ++ [(1, .crash)] ++
    List.replicate 4 (1, .poll ⟨fun _ => 0, 2, false, false⟩) ++
    [(2, .receive 0 0 1)] ++ List.replicate 6 (2, .payment PaymentService.approved.env) ++
    [(2, .receive 1 0 2)] ++ List.replicate 4 (3, .payment PaymentService.approved.env)

theorem shopping_paid : ∃ q ∈ exec (Pool.act (networkStep fun _ => false)) ⟨.empty, shop⟩ shopping,
    q.store.payments.db.payments ≠ [] ∧ q.store.published.length = 2 ∧
    OrdersPaid q.store.orders.db.orders q.store.payments := by
  obtain ⟨q, hq, hpaid⟩ : ∃ q ∈
      exec (Pool.act (networkStep fun _ => false)) ⟨.empty, shop⟩ shopping,
      q.store.payments.db.payments ≠ [] ∧ q.store.published.length = 2 := by
    decide +kernel
  exact ⟨q, hq, hpaid.1, hpaid.2, orders_paid shop_starts hq⟩

end Saga
