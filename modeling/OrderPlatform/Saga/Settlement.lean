import OrderPlatform.Saga.Journal
import OrderPlatform.Saga.OrderCharges

/-! # Every order is charged

As long as nothing fails, no order is forgotten and none is charged for twice: when the outbox is
sent and every message handled, each order has its one payment, for its customer and its total.
Messages that are published twice, handlers that overlap and charges that lose the race for the
unique keys do not change that.
-/

namespace Saga

open Runs Store Wire
open OrderService (Order Outbox Message)
open PaymentService (ChargeParams ChargeCall chargeStep dedupKey orderEvents)

/-- The charge of a handler; one that waits for a message has none in flight. -/
def Handler.charge (h : Handler) : ChargeCall := h.call.getD (.threw .database)

namespace System

variable {ι κ ν : Type}

/-- The order is paid, or a handler is charging it. -/
def Covered (s : System ι κ ν) (id : Uuid) : Prop :=
  Paid s.payments id ∨ ∃ n c, (s.handlers n).call = some c ∧ Charges id c

/-- What was marked or handled is covered, and what is in flight is charged once. -/
structure Charging (s : System ι κ ν) : Prop where
  keyed : Keyed s.payments
  handlers : ∀ n k c, s.handlers n = .charging k c → ∃ row : Outbox,
    s.published[k]? = some row.message ∧ row.eventType = .orderCreated ∧ Charges row.aggregateId c
  handled : ∀ k ∈ s.handled, ∃ m, s.published[k]? = some m ∧
    ∀ row : Outbox, m = row.message → row.eventType = .orderCreated → s.Covered row.aggregateId
  marked : ∀ e : Uuid, s.redis (dedupKey orderEvents (toString e)) ≠ none →
    ∃ row : Outbox, row.message ∈ s.published ∧ row.eventId = e ∧
      (row.eventType = .orderCreated → s.Covered row.aggregateId)

variable {s t : System ι κ ν} {id : Uuid}

theorem Covered.mono (h : s.Covered id) (hp : Paid s.payments id → Paid t.payments id)
    (hh : ∀ n c, (s.handlers n).call = some c → Charges id c →
      Paid t.payments id ∨ ∃ c', (t.handlers n).call = some c' ∧ Charges id c') : t.Covered id := by
  rcases h with h | ⟨n, c, hn, hc⟩
  · exact Or.inl (hp h)
  · exact (hh n c hn hc).imp_right fun ⟨c', hn', hc'⟩ => ⟨n, c', hn', hc'⟩

section Messages

variable [DecidableEq ν] {n : ν} {k : ℕ} {row : Outbox} {o : Order}
  {partition : String} {now : ℕ}

/-- The duplicate check of a row's event lets it pass, and is marked. -/
def marking (s : System ι κ ν) (row : Outbox) (now : ℕ) : Expiring String :=
  Function.update s.redis (dedupKey orderEvents (toString row.eventId)) (some (now + 86400))

/-- What taking the message of a row does: skip it, pass over it, or start the order's charge. -/
inductive Taken (s : System ι κ ν) (n : ν) (k : ℕ) (row : Outbox) (now : ℕ) :
    System ι κ ν → Prop
  | skipped (h : s.redis (dedupKey orderEvents (toString row.eventId)) ≠ none) :
    Taken s n k row now { s with handled := k :: s.handled }
  | passed (h : row.eventType ≠ .orderCreated) :
    Taken s n k row now { s with
      redis := s.marking row now
      handled := k :: s.handled }
  | charging (params : ChargeParams) (h : row.eventType = .orderCreated)
    (hc : Charges row.aggregateId (.looking params)) :
    Taken s n k row now { s with
      redis := s.marking row now
      handlers := Function.update s.handlers n (.charging k (.looking params)) }

theorem taken_of_receive (ho : Origin o row)
    (h : s.receive n k (delivery row.message k partition now) = some t) :
    Taken s n k row now t := by
  have he := @event_of_message _ (delivery row.message k partition now) row rfl rfl
  by_cases hheld : s.redis.held (dedupKey orderEvents (toString row.eventId)) now = true
  · rw [receive, PaymentService.process_of_held ⟨s.redis, none⟩ he hheld] at h
    cases h
    exact .skipped (Expiring.ne_none_of_held hheld)
  · rw [receive, PaymentService.process_of_free ⟨s.redis, none⟩ he (Bool.eq_false_iff.mpr hheld)]
      at h
    simp only [PaymentService.Event.run] at h
    cases ho with
    | created d hc ht =>
      have hd (corr : Json) :
          PaymentService.dispatch (some (.str d.entry.eventType.text)) d.entry.payload corr =
            .ok (some (.processOrderCreated d.payload corr)) := dispatch_payload d corr
      simp only [hd, accept, ofJson_payload, Option.map_some] at h
      cases h
      refine .charging _ rfl ⟨⟨_, rfl, rfl, ?_, rfl⟩, ?_⟩
      · exact Option.some_ne_none _
      · rintro a ⟨⟩
    | changed r hr order ht hid hs fresh x =>
      have htype : (r.entry order fresh x).eventType = r.target.eventType := rfl
      rw [htype] at h
      have hne : (r.entry order fresh x).eventType ≠ .orderCreated := by
        rw [htype]
        cases r.target <;> decide
      cases hr : r.target <;> rw [hr] at h <;> cases h <;> exact .passed hne

end Messages

section Steps

variable [DecidableEq ι] [DecidableEq κ] [DecidableEq ν] {isUuid : String → Bool}
  {a : Action ι κ ν}

omit [DecidableEq ι] [DecidableEq κ] [DecidableEq ν] in
/-- What stands at a position stays there, and what is in flight or handled stays covered. -/
theorem Charging.of_same (hs : s.Charging) (hp : t.payments = s.payments)
    (hh : t.handlers = s.handlers) (hd : t.handled = s.handled) (hr : t.redis = s.redis)
    (hpub : s.published <+: t.published) : t.Charging := by
  have hcov : ∀ id, s.Covered id → t.Covered id := by
    intro id h
    unfold Covered
    rw [hp, hh]
    exact h
  have hat : ∀ (k : ℕ) (m : Message), s.published[k]? = some m → t.published[k]? = some m := by
    intro k m hm
    obtain ⟨rest, hrest⟩ := hpub
    rw [← hrest, List.getElem?_append_left (List.getElem?_eq_some_iff.mp hm).1, hm]
  constructor
  · exact hp ▸ hs.keyed
  · rw [hh]
    intro n k c hn
    obtain ⟨row, hk, hrest⟩ := hs.handlers n k c hn
    exact ⟨row, hat k _ hk, hrest⟩
  · rw [hd]
    intro k hk
    obtain ⟨m, hm, hrow⟩ := hs.handled k hk
    exact ⟨m, hat k m hm, fun row he ht => hcov _ (hrow row he ht)⟩
  · rw [hr]
    intro e he
    obtain ⟨row, hrow, hid, hc⟩ := hs.marked e he
    exact ⟨row, hpub.subset hrow, hid, fun ht => hcov _ (hc ht)⟩

omit [DecidableEq ι] [DecidableEq κ] [DecidableEq ν] in
theorem marked_marking {row : Outbox} {now : ℕ} {e : Uuid}
    (h : s.marking row now (dedupKey orderEvents (toString e)) ≠ none) :
    e = row.eventId ∨ s.redis (dedupKey orderEvents (toString e)) ≠ none := by
  by_cases he : dedupKey orderEvents (toString e) = dedupKey orderEvents (toString row.eventId)
  · exact Or.inl (toString_inj.mp (PaymentService.dedupKey_inj he).2)
  · right
    rwa [marking, Function.update_of_ne he] at h

omit [DecidableEq ι] [DecidableEq κ] in
/-- Taking the message of a row covers its order, unless an earlier message has done so. -/
theorem Charging.taken (hs : s.Charging) {n : ν} {k : ℕ} {row : Outbox} {now : ℕ}
    (hevents : ∀ row' : Outbox, row'.message ∈ s.published → row'.eventId = row.eventId →
      row'.message = row.message)
    (hn : s.handlers n = .idle) (hm : s.published[k]? = some row.message)
    (h : Taken s n k row now t) : t.Charging := by
  have hmem := List.mem_of_getElem? hm
  cases h with
  | skipped hne =>
    obtain ⟨row', hrow', hid, hcov⟩ := hs.marked row.eventId hne
    refine ⟨hs.keyed, hs.handlers, List.forall_mem_cons.mpr ⟨⟨_, hm, ?_⟩, hs.handled⟩, hs.marked⟩
    intro row'' he ht
    obtain ⟨-, hagg, -, htype⟩ := message_inj ((hevents row' hrow' hid).trans he)
    exact hagg ▸ hcov (htype.trans ht)
  | passed htype =>
    refine ⟨hs.keyed, hs.handlers, List.forall_mem_cons.mpr ⟨⟨_, hm, ?_⟩, hs.handled⟩, ?_⟩
    · intro row' he ht
      exact absurd ((message_inj he).2.2.2.trans ht) htype
    · intro e he
      rcases marked_marking he with rfl | he
      · exact ⟨row, hmem, rfl, fun ht => absurd ht htype⟩
      · exact hs.marked e he
  | charging params htype hc =>
    have hcov : ∀ id, s.Covered id → Covered { s with
        redis := s.marking row now
        handlers := Function.update s.handlers n (.charging k (.looking params)) } id := by
      intro id h
      refine h.mono (fun hp => hp) fun m c hcall hc => Or.inr ⟨c, ?_, hc⟩
      by_cases hmn : m = n
      · subst hmn
        rw [hn] at hcall
        cases hcall
      · simpa [hmn] using hcall
    refine ⟨hs.keyed, ?_, ?_, ?_⟩
    · intro m k' c hcall
      by_cases hmn : m = n
      · subst hmn
        simp only [Function.update_self] at hcall
        cases hcall
        exact ⟨row, hm, htype, hc⟩
      · simp only [Function.update_of_ne hmn] at hcall
        exact hs.handlers m k' c hcall
    · intro k' hk'
      obtain ⟨m, hm', hrow⟩ := hs.handled k' hk'
      exact ⟨m, hm', fun row' he ht => hcov _ (hrow row' he ht)⟩
    · intro e he
      rcases marked_marking he with rfl | he
      · refine ⟨row, hmem, rfl, fun _ => Or.inr ⟨n, _, ?_, hc⟩⟩
        simp [Handler.call]
      · obtain ⟨row', hrow', hid, hc'⟩ := hs.marked e he
        exact ⟨row', hrow', hid, fun ht => hcov _ (hc' ht)⟩

omit [DecidableEq ι] [DecidableEq κ] in
theorem advance_same (s : System ι κ ν) (n : ν) (k : ℕ) (w : PaymentService.World)
    (c : ChargeCall) : (s.advance n k w c).published = s.published ∧
      (s.advance n k w c).redis = s.redis ∧
      ((s.advance n k w c).handled = s.handled ∨
        (s.advance n k w c).handled = k :: s.handled ∧ chargeParams c = none) := by
  cases c <;> simp [advance, chargeParams]

theorem live_of_charges {c : ChargeCall} (h : Charges id c) : ChargeCall.live c = some c := by
  obtain ⟨⟨params, hp, -⟩, -⟩ := h
  cases c with
  | returned | threw => cases hp
  | looking | charging | saving | entering | appending | committing => rfl

theorem live_of_ended {c : ChargeCall} (h : chargeParams c = none) : ChargeCall.live c = none := by
  cases c with
  | returned | threw => rfl
  | looking | charging | saving | entering | appending | committing => cases h

omit [DecidableEq ι] [DecidableEq κ] in
/-- A step of a handler keeps its order covered, and its message is handled when it is paid. -/
theorem Charging.handle (hs : s.Charging) {n : ν} {k : ℕ} {c c' : ChargeCall}
    {w : PaymentService.World} {x : PaymentService.Answer} (hn : s.handlers n = .charging k c)
    (h : chargeStep s.payments c x.env = some (w, c')) : (s.advance n k w c').Charging := by
  obtain ⟨row, hk, htype, hc⟩ := hs.handlers n k c hn
  obtain ⟨hnet, hh, -, -⟩ := @network_advance _ _ _ _ s n k w c'
  obtain ⟨hpub, hredis, hhandled⟩ := s.advance_same n k w c'
  have hpay : (s.advance n k w c').payments = w := congrArg Network.payments hnet
  generalize s.advance n k w c' = t at hh hpub hredis hhandled hpay ⊢
  subst hpay
  have hself : (t.handlers n).call = ChargeCall.live c' := by
    rw [hh, Function.update_self, call_elim]
  have hcov : ∀ id, s.Covered id → t.Covered id := by
    intro id hid
    refine hid.mono (fun hp => hp.charge h) fun m l hl hcl => ?_
    by_cases hm : m = n
    · subst hm
      rw [hn] at hl
      cases hl
      rcases charges_step h hs.keyed hcl with ⟨hp, -⟩ | hc'
      · exact Or.inl hp
      · exact Or.inr ⟨c', hself.trans (live_of_charges hc'), hc'⟩
    · rw [hh, Function.update_of_ne hm]
      exact Or.inr ⟨l, hl, hcl⟩
  have hold : ∀ k ∈ s.handled, ∃ m, t.published[k]? = some m ∧ ∀ row : Outbox, m = row.message →
      row.eventType = .orderCreated → t.Covered row.aggregateId := by
    intro k hk
    obtain ⟨m, hm, hrow⟩ := hs.handled k hk
    exact ⟨m, hpub ▸ hm, fun row he ht => hcov _ (hrow row he ht)⟩
  constructor
  · exact keyed_charge h hs.keyed hc
  · intro m k' l hl
    rw [hh] at hl
    by_cases hm : m = n
    · subst hm
      rw [Function.update_self] at hl
      rcases charges_step h hs.keyed hc with ⟨-, hended⟩ | hc'
      · rw [live_of_ended hended] at hl
        cases hl
      · rw [live_of_charges hc'] at hl
        cases hl
        exact ⟨row, hpub ▸ hk, htype, hc'⟩
    · rw [Function.update_of_ne hm] at hl
      rw [hpub]
      exact hs.handlers m k' l hl
  · rcases hhandled with hsame | ⟨hnew, hended⟩
    · exact hsame ▸ hold
    · rw [hnew]
      refine List.forall_mem_cons.mpr ⟨⟨row.message, hpub ▸ hk, fun row' he ht => ?_⟩, hold⟩
      rcases charges_step h hs.keyed hc with ⟨hp, -⟩ | hc'
      · exact Or.inl ((message_inj he).2.1 ▸ hp)
      · obtain ⟨⟨params, hp, -⟩, -⟩ := hc'
        cases hended.symm.trans hp
  · rw [hredis, hpub]
    intro e he
    obtain ⟨row', hrow', hid, hc'⟩ := hs.marked e he
    exact ⟨row', hrow', hid, fun ht => hcov _ (hc' ht)⟩

/-- What holds in every state of a run. -/
structure Settling (s : System ι κ ν) : Prop where
  agreeing : s.Agreeing
  told : s.Told
  once : Once s.payments fun n => (s.handlers n).charge
  charging : s.Charging

omit [DecidableEq ι] [DecidableEq κ] in
theorem charge_update {n : ν} {handler : Handler} {handlers : ν → Handler} :
    (fun m => (Function.update handlers n handler m).charge) =
      Function.update (fun m => (handlers m).charge) n handler.charge := by
  funext m
  by_cases hm : m = n
  · subst hm
    simp
  · simp [hm]

theorem charge_elim (c : Option ChargeCall) (k : ℕ) :
    Handler.charge (c.elim .idle (.charging k)) = c.getD (.threw .database) := by
  cases c <;> rfl

omit [DecidableEq ι] [DecidableEq κ] in
theorem once_advance {n : ν} {k : ℕ} {c c' : ChargeCall} {w : PaymentService.World}
    {x : PaymentService.Env} (hs : Once s.payments fun n => (s.handlers n).charge)
    (hn : s.handlers n = .charging k c) (h : chargeStep s.payments c x = some (w, c')) :
    Once (s.advance n k w c').payments fun m => ((s.advance n k w c').handlers m).charge := by
  obtain ⟨hnet, hh, -, -⟩ := @network_advance _ _ _ _ s n k w c'
  have hpay : (s.advance n k w c').payments = w := congrArg Network.payments hnet
  have hcall : (s.handlers n).charge = c := by rw [hn]; rfl
  have hstep : Once w (Function.update (fun m => (s.handlers m).charge) n c') :=
    once_charge (hcall.symm ▸ h) hs
  rw [hpay, hh, charge_update, charge_elim]
  cases hc : chargeParams c' with
  | none =>
    rw [live_of_ended hc, ← Function.update_idem c']
    exact once_place hstep rfl
  | some params =>
    have hlive : ChargeCall.live c' = some c' := by
      cases c' with
      | returned | threw => cases hc
      | looking | charging | saving | entering | appending | committing => rfl
    rw [hlive]
    exact hstep

theorem Settling.step (hs : s.Settling) (h : step isUuid s a = some t) : t.Settling := by
  have hagree := hs.agreeing.step h
  cases a with
  | create data =>
    cases h
    exact ⟨hagree, hs.told.create isUuid data, hs.once,
      hs.charging.of_same rfl rfl rfl rfl List.prefix_rfl⟩
  | cancel i x =>
    obtain ⟨⟨w, c⟩, hr, rfl⟩ := Option.map_eq_some_iff.mp h
    exact ⟨hagree, hs.told.status (OrderService.statusStep_effect hr), hs.once,
      hs.charging.of_same rfl rfl rfl rfl List.prefix_rfl⟩
  | poll j rank now =>
    obtain ⟨⟨b, c⟩, hr, rfl⟩ := Option.map_eq_some_iff.mp h
    have he := OrderService.relayStep_effect hr
    exact ⟨hagree, hs.told.relay he, hs.once,
      hs.charging.of_same rfl rfl rfl rfl (published_relay he)⟩
  | receive n k partition now =>
    simp only [System.step] at h
    split at h
    · rename_i m hn hm
      have hpub := hs.agreeing.announcing.published
      obtain ⟨o, -, row, ho, rfl⟩ := hs.agreeing.announcing.outbox m
        (hpub m (List.mem_of_getElem? hm))
      have htaken := taken_of_receive ho h
      obtain ⟨horders, -, hrelays, hbroker, -⟩ := receive_frame h
      refine ⟨hagree, ⟨horders ▸ hs.told.journaled, hbroker ▸ hs.told.broker, ?_⟩, ?_, ?_⟩
      · rw [hrelays, hbroker]
        exact hs.told.relays
      · cases htaken with
        | skipped | passed => exact hs.once
        | charging params htype hc =>
          rw [charge_update]
          exact once_place hs.once rfl
      · refine hs.charging.taken (fun row' hrow' hid => ?_) hn hm htaken
        exact hs.told.journaled.events row' row (hpub _ hrow')
          (hpub _ (List.mem_of_getElem? hm)) hid
    · cases h
  | handle n x =>
    simp only [System.step] at h
    split at h
    · cases h
    · rename_i k c hn
      obtain ⟨⟨w, c'⟩, hr, rfl⟩ := Option.map_eq_some_iff.mp h
      obtain ⟨horders, -, hrelays, hbroker, -⟩ := s.advance_frame n k w c'
      refine ⟨hagree, ⟨horders ▸ hs.told.journaled, hbroker ▸ hs.told.broker, ?_⟩,
        once_advance hs.once hn hr, hs.charging.handle hn hr⟩
      rw [hrelays, hbroker]
      exact hs.told.relays

omit [DecidableEq ι] [DecidableEq κ] [DecidableEq ν] in
theorem settling_start (requests : ι → Cancellation) :
    (start requests : System ι κ ν).Settling := by
  refine ⟨agreeing_start requests, ⟨?_, ?_, fun j => trivial⟩, ?_, ?_⟩
  · constructor <;> simp [start]
  · constructor <;> simp [start, broker]
  · refine ⟨?_, fun n => ?_, fun n m _ => ?_⟩
    · constructor <;> simp [start, PaymentService.World.empty]
    · constructor <;> simp [start, Handler.charge, Handler.call, ChargeCall.draw,
        ChargeCall.inserted]
    · simp [start, Handler.charge, Handler.call, ChargeCall.Apart, ChargeCall.draw]
  · constructor
    · constructor <;> simp [start, PaymentService.World.empty]
    all_goals simp [start]

end Steps

/-- Every order has its one payment, and every payment is that of an order. -/
structure Settled (s : System ι κ ν) : Prop where
  paid : ∀ o ∈ s.orders.db.orders, ∃ p,
    (s.payments.db.payments.filter fun p => p.orderId = toString o.id) = [p] ∧ PaidFor o p
  owed : ∀ p ∈ s.payments.db.payments, ∃ o ∈ s.orders.db.orders, PaidFor o p

/-- The announcement of an order was sent, published and handled, so the order is covered. -/
theorem Settling.covered (hs : s.Settling) (hq : s.Quiescent) {o : Order}
    (ho : o ∈ s.orders.db.orders) : s.Covered o.id := by
  obtain ⟨row, hrow, htype, hid⟩ := hs.told.journaled.created o ho
  obtain ⟨stored, hstored, hm⟩ := List.mem_map.mp hrow
  have hacked := hs.told.broker.sent stored hstored (hq.1 stored hstored)
  obtain ⟨k, hk⟩ := List.mem_iff_getElem?.mp (hs.told.broker.acked _ hacked)
  obtain ⟨m, hm', hcov⟩ := hs.charging.handled k (hq.2 k (List.getElem?_eq_some_iff.mp hk).1)
  obtain rfl : m = stored.message := Option.some.inj (hm'.symm.trans hk)
  exact hid ▸ hcov row hm htype

theorem Settling.settled (hs : s.Settling) (hq : s.Quiescent)
    (hidle : ∀ n, s.handlers n = .idle) : s.Settled where
  paid o ho := by
    obtain ⟨p, hp, hid⟩ : Paid s.payments o.id := by
      rcases hs.covered hq ho with hpaid | ⟨n, c, hn, -⟩
      · exact hpaid
      · rw [hidle n] at hn
        cases hn
    obtain ⟨o', ho', hfor⟩ := hs.agreeing.paid.payments p (List.mem_append_left _ hp)
    have hsame : o'.id = o.id := toString_inj.mp (hfor.order.symm.trans hid)
    obtain rfl : o' = o := List.inj_on_of_nodup_map hs.told.journaled.ids ho' ho hsame
    refine ⟨p, ?_, hfor⟩
    have hmem : p ∈ s.payments.db.payments.filter fun p => p.orderId = toString o'.id :=
      List.mem_filter.mpr ⟨hp, by simpa using hid⟩
    have hone := hs.once.store.chargedOnce.payments (toString o'.id)
    obtain ⟨q, hq⟩ := List.length_eq_one_iff.mp (hone.antisymm (List.length_pos_of_mem hmem))
    rw [hq] at hmem ⊢
    rw [List.mem_singleton.mp hmem]
  owed p hp := hs.agreeing.paid.payments p (List.mem_append_left _ hp)

/--
In every run in which nothing fails, creations and cancellations, polls of any number of relays and
handlers of any number of consumers in any order: once the outbox is sent, every message handled
and no handler at work, each order has exactly one payment, for its customer, its total and its
currency, and there are no other payments.
-/
theorem orders_settled [DecidableEq ι] [DecidableEq κ] [DecidableEq ν] {isUuid : String → Bool}
    {requests : ι → Cancellation} {as : List (Action ι κ ν)}
    (h : exec (step isUuid) (start requests) as = some s) (hq : s.Quiescent)
    (hidle : ∀ n, s.handlers n = .idle) : s.Settled :=
  (exec_invariant (fun _ _ _ hs h => hs.step h) (settling_start requests) h).settled hq hidle

end System

/-- Two relays publish the order's message twice, and two handlers take both copies. -/
def publishedTwice : List (Action Unit Bool Bool) :=
  [.create sampleOrder, .poll true (fun _ => 0) 1, .poll false (fun _ => 0) 1] ++
    List.replicate 3 (.poll true (fun _ => 0) 2) ++ List.replicate 3 (.poll false (fun _ => 0) 2) ++
    [.receive true 0 "0" 3, .receive false 1 "0" 3] ++
    List.replicate 6 (.handle true PaymentService.approved)

theorem publishedTwice_settled :
    ∃ s ∈ exec (System.step fun _ => false) (System.start sampleCancellation) publishedTwice,
      s.published.length = 2 ∧ s.orders.db.orders ≠ [] ∧ s.Settled := by
  obtain ⟨s, hs, hp, ho, hq, hidle⟩ : ∃ s ∈ exec (System.step fun _ => false)
      (System.start sampleCancellation) publishedTwice, s.published.length = 2 ∧
        s.orders.db.orders ≠ [] ∧ s.Quiescent ∧ ∀ n, (s.handlers n).call = none := by
    decide +kernel
  exact ⟨s, hs, hp, ho, System.orders_settled hs hq fun n => Handler.idle_of_call (hidle n)⟩

end Saga
