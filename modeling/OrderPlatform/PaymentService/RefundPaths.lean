import OrderPlatform.PaymentService.RefundRetries
import OrderPlatform.PaymentService.StatusMoves

/-! # The ways to a refund

Requests, `RefundRequired` events and the compensation of a failed reservation end in the
same function, and only a request checks the row first. So the event path agrees with the
request path on the refunds a request admits, and a compensation that has run once runs
again.
-/

namespace PaymentService

open Runs Store Wire

/-- Between the two states the provider received one more refund call. -/
def Performs (w w' : World) : Prop := ∃ call, w'.refunds = w.refunds ++ [call]

/-- The call threw and left everything as it was. -/
def Rejects (w : World) (r : World × Except Thrown (Option Payment)) : Prop :=
  (∃ e, r.2 = .error e) ∧ r.1 = w

/-- Two calls that both refund and leave the same row of the payment, or both reject. -/
structure SameRefund (w : World) (paymentId : Uuid)
    (r r' : World × Except Thrown (Option Payment)) : Prop where
  performs : Performs w r.1 ↔ Performs w r'.1
  row : Performs w r.1 → r.1.db.findPayment paymentId = r'.1.db.findPayment paymentId
  rejects : ¬ Performs w r.1 → Rejects w r ∧ Rejects w r'

/-- What a request checks of the row: it was charged, and the amount is left of it. -/
def Payment.Refundable (p : Payment) (amount : ℚ) : Prop :=
  (p.status = .processed ∨ p.status = .partiallyRefunded) ∧ 0 < amount ∧ amount ≤ p.available

/-- Nothing reached the provider, and no table changed. -/
structure Idle (w w' : World) : Prop where
  refunds : w'.refunds = w.refunds
  charges : w'.charges = w.charges
  db : w'.db = w.db

variable {w : World} {params : ExecuteRefundParams} {payment : Payment} {env : Env}

theorem not_performs_self : ¬ Performs w w := by
  rintro ⟨call, h⟩
  simpa using congrArg List.length h

theorem rejects_of_error (e : Thrown) : Rejects w (w, .error e) := ⟨⟨e, rfl⟩, rfl⟩

theorem Rejects.not_performs {r : World × Except Thrown (Option Payment)} (h : Rejects w r) :
    ¬ Performs w r.1 := by
  rw [h.2]
  exact not_performs_self

theorem SameRefund.of_rejects {r r' : World × Except Thrown (Option Payment)} {paymentId : Uuid}
    (h : Rejects w r) (h' : Rejects w r') : SameRefund w paymentId r r' where
  performs := iff_of_false h.not_performs h'.not_performs
  row hp := absurd hp h.not_performs
  rejects _ := ⟨h, h'⟩

theorem executeRefund_rejects (hp : w.db.findPayment params.paymentId = some payment)
    {e : Thrown} (ht : payment.transactionId = .error e) :
    Rejects w (executeRefund w params env) := by
  have ha : w.refundAttempt params = .error e := by
    simp [World.refundAttempt, hp, ht, Except.map]
  simp only [executeRefund, ha]
  exact rejects_of_error e

theorem refundAttempt_eq_ok (hp : w.db.findPayment params.paymentId = some payment)
    {t : String} (ht : payment.transactionId = .ok t) :
    w.refundAttempt params = .ok ⟨params, payment, t, w.fresh, w.fresh + 1⟩ := by
  simp [World.refundAttempt, hp, ht, Except.map]

theorem executeRefund_performs {a : RefundAttempt} (ha : w.refundAttempt params = .ok a) :
    Performs w (executeRefund w params env).1 :=
  ⟨_, (executeRefund_again ha env).1⟩

theorem RefundDraft.apply_congr {d d' : RefundDraft} (hp : d.payment = d'.payment)
    (ha : d.params.amount = d'.params.amount) : d.apply = d'.apply := by
  have hnew : d.newRefundedAmount = d'.newRefundedAmount := by
    rw [newRefundedAmount, newRefundedAmount, hp, ha]
  have hstatus : d.newStatus = d'.newStatus := by
    rw [newStatus, newStatus, isFullRefund, isFullRefund, hnew, hp]
  funext p
  rw [apply, apply, hnew, hstatus]

/-- The row a refund leaves is determined by the row it read and its amount. -/
theorem executeRefund_row {params' : ExecuteRefundParams}
    (hp : w.db.findPayment params.paymentId = some payment) {t : String}
    (ht : payment.transactionId = .ok t) (hid : params'.paymentId = params.paymentId)
    (hamount : params'.amount = params.amount) :
    (executeRefund w params env).1.db.findPayment params.paymentId =
      (executeRefund w params' env).1.db.findPayment params.paymentId := by
  have hp' : w.db.findPayment params'.paymentId = some payment := hid ▸ hp
  simp only [executeRefund, refundAttempt_eq_ok hp ht, refundAttempt_eq_ok hp' ht, Db.findPayment,
    refunded_payments]
  have happly := @RefundDraft.apply_congr
    ⟨⟨params, payment, t, w.fresh, w.fresh + 1⟩, env.result, env.now⟩
    ⟨⟨params', payment, t, w.fresh, w.fresh + 1⟩, env.result, env.now⟩ rfl hamount.symm
  rw [happly]

theorem refundable_of_admitRefund {request : RefundParams} {amount : ℚ}
    (hp : w.db.findPayment request.paymentId = some payment)
    (hamount : request.amount = some amount) {admitted : ExecuteRefundParams}
    (h : w.admitRefund request = .ok admitted) : payment.Refundable amount := by
  obtain ⟨row, a, hrow, ha, -⟩ := World.admitRefund_ok h
  obtain rfl : payment = row := Option.some.inj (hp.symm.trans hrow)
  obtain ⟨rfl, hpos, hle, hstatus⟩ := refundAmount_ok ha
  rw [hamount] at hpos hle
  exact ⟨hstatus, hpos, hle⟩

theorem admitRefund_of_refundable {request : RefundParams} {amount : ℚ}
    (hp : w.db.findPayment request.paymentId = some payment)
    (hamount : request.amount = some amount) (h : payment.Refundable amount) :
    w.admitRefund request = .ok (request.execute amount) := by
  obtain ⟨hstatus, hpos, hle⟩ := h
  have hok : refundAmount payment (some amount) = .ok amount := refundAmount_eq_ok hpos hstatus hle
  simp [World.admitRefund, hp, hamount, hok, Except.map]

/--
An event and a request for the same amount of a payment refund alike exactly when the
payment has no transaction to refund, or the amount is one the request's checks admit.
-/
theorem refundPaths_agree_iff (w : World) (payment : Payment) (event : RefundRequiredEvent)
    (correlationId : String) (reason requestId : Option String) (env : Env)
    (hp : w.db.findPayment event.paymentId = some payment) (_ : env.result.success = true) :
    SameRefund w event.paymentId (processRefundRequired w event correlationId env)
        (requestRefund w ⟨event.paymentId, some event.amount, reason, requestId⟩ env) ↔
      (∃ e, payment.transactionId = .error e) ∨ payment.Refundable event.amount := by
  set request : RefundParams := ⟨event.paymentId, some event.amount, reason, requestId⟩ with hreq
  unfold processRefundRequired requestRefund
  cases ht : payment.transactionId with
  | error e =>
    refine iff_of_true ?_ (Or.inl ⟨e, rfl⟩)
    apply SameRefund.of_rejects
    · exact executeRefund_rejects hp ht
    · cases hadmits : w.admitRefund request with
      | error e' => exact rejects_of_error e'
      | ok admitted =>
        obtain ⟨-, amount, -, -, rfl⟩ := World.admitRefund_ok hadmits
        exact executeRefund_rejects hp ht
  | ok t =>
    simp only [reduceCtorEq, exists_false, false_or]
    have hevent := @executeRefund_performs w ⟨event.paymentId, event.amount, event.reason,
      some correlationId⟩ env _ (refundAttempt_eq_ok hp ht)
    constructor
    · intro h
      have hrequest := h.performs.mp hevent
      cases hadmits : w.admitRefund request with
      | error e =>
        rw [hadmits] at hrequest
        exact absurd hrequest not_performs_self
      | ok admitted => exact refundable_of_admitRefund hp rfl hadmits
    · intro h
      rw [admitRefund_of_refundable hp rfl h]
      have hrequest := @executeRefund_performs w (request.execute event.amount) env _
        (refundAttempt_eq_ok hp ht)
      refine ⟨iff_of_true hevent hrequest, fun _ => ?_, fun hn => absurd hevent hn⟩
      exact executeRefund_row hp ht rfl rfl

def refundEvent (amount : ℚ) : RefundRequiredEvent := ⟨"order-1", 0, amount, "damaged"⟩

theorem chargedOnce_found :
    ∃ payment, chargedOnce.db.findPayment 0 = some payment ∧ payment.Refundable 40 := by
  refine ⟨_, rfl, Or.inl rfl, by norm_num, ?_⟩
  decide +kernel

/-- An event refunds 150 of a charge of 100, which a request may not. -/
theorem event_refunds_more_than_charged :
    ¬ ∀ (w : World) (payment : Payment) (event : RefundRequiredEvent) (correlationId : String)
      (reason requestId : Option String) (env : Env),
      w.db.findPayment event.paymentId = some payment → env.result.success = true →
      SameRefund w event.paymentId (processRefundRequired w event correlationId env)
        (requestRefund w ⟨event.paymentId, some event.amount, reason, requestId⟩ env) := by
  intro h
  obtain ⟨payment, hp, -⟩ := chargedOnce_found
  have hsame := h chargedOnce payment (refundEvent 150) "corr-1" none none approved.env hp rfl
  have hevent : Performs chargedOnce
      (processRefundRequired chargedOnce (refundEvent 150) "corr-1" approved.env).1 := ⟨_, rfl⟩
  obtain ⟨call, hcall⟩ := hsame.performs.mp hevent
  have hlength : (requestRefund chargedOnce ⟨0, some 150, none, none⟩
      approved.env).1.refunds.length = chargedOnce.refunds.length := by decide +kernel
  rw [refundEvent] at hcall
  simp [hcall] at hlength

theorem refundPaths_agree_forty :
    ∃ payment, chargedOnce.db.findPayment 0 = some payment ∧
      (SameRefund chargedOnce 0
          (processRefundRequired chargedOnce (refundEvent 40) "corr-1" approved.env)
          (requestRefund chargedOnce ⟨0, some 40, none, none⟩ approved.env) ↔
        (∃ e, payment.transactionId = .error e) ∨ payment.Refundable 40) := by
  obtain ⟨payment, hp, -⟩ := chargedOnce_found
  exact ⟨payment, hp, refundPaths_agree_iff chargedOnce payment (refundEvent 40) "corr-1" none none
    approved.env hp rfl⟩

/-- A refund leaves the row of the payment's order, under the same identifier. -/
theorem executeRefund_findByOrder {orderId : String} (hp : w.db.findByOrder orderId = some payment)
    (params : ExecuteRefundParams) (env : Env) :
    ∃ q, (executeRefund w params env).1.db.findByOrder orderId = some q ∧ q.id = payment.id := by
  unfold executeRefund
  cases ha : w.refundAttempt params with
  | error e => exact ⟨payment, hp, rfl⟩
  | ok a =>
    let d : RefundDraft := ⟨a, env.result, env.now⟩
    have hkeep {β : Type} (g : Payment → β) (hg : ∀ p, g (d.apply p) = g p) (p : Payment) :
        g (if p.id = d.payment.id then d.apply p else p) = g p := by
      split
      · exact hg p
      · rfl
    unfold Db.findByOrder at hp ⊢
    dsimp only
    rw [refunded_payments]
    split
    · rw [update, lookup_map (hkeep Payment.orderId fun _ => rfl), hp]
      exact ⟨_, rfl, hkeep Payment.id (fun _ => rfl) payment⟩
    · exact ⟨payment, hp, rfl⟩

/-- What a completed compensation of a payment leaves is refunded once more. -/
theorem processInventoryReservationFailed_again {orderId correlationId : String}
    (hp : w.db.findByOrder orderId = some payment) {answer : Option Payment}
    (hfirst : (processInventoryReservationFailed w orderId correlationId env).2 = .ok answer)
    (correlationId' : String) (env' : Env) :
    Performs (processInventoryReservationFailed w orderId correlationId env).1
      (processInventoryReservationFailed
        (processInventoryReservationFailed w orderId correlationId env).1
        orderId correlationId' env').1 := by
  have hfold : ∀ w' c x q, w'.db.findByOrder orderId = some q →
      processInventoryReservationFailed w' orderId c x =
        executeRefund w' (compensation q c) x := by
    intro w' c x q hq
    rw [processInventoryReservationFailed, hq]
  rw [hfold w correlationId env payment hp] at hfirst ⊢
  cases ha : w.refundAttempt (compensation payment correlationId) with
  | error e => simp [executeRefund, ha] at hfirst
  | ok a =>
    obtain ⟨-, b, hb, -⟩ := executeRefund_again ha env
    obtain ⟨hb, -, ht⟩ := World.refundAttempt_ok hb
    obtain ⟨q, hq, hid⟩ := executeRefund_findByOrder hp (compensation payment correlationId) env
    rw [hfold _ correlationId' env' q hq]
    have hb' : (executeRefund w (compensation payment correlationId) env).1.db.findPayment
        (compensation q correlationId').paymentId = some b.payment := by
      rw [← hb]
      exact congrArg _ hid
    exact executeRefund_performs (refundAttempt_eq_ok hb' ht)

/--
A compensation that completed leaves the next one of its order nothing to do exactly when
the order has no payment.
-/
theorem compensation_idempotent_iff (w : World) (orderId correlationId correlationId' : String)
    (env env' : Env)
    (hfirst : ∃ answer,
      (processInventoryReservationFailed w orderId correlationId env).2 = .ok answer) :
    Idle (processInventoryReservationFailed w orderId correlationId env).1
        (processInventoryReservationFailed
          (processInventoryReservationFailed w orderId correlationId env).1
          orderId correlationId' env').1 ↔
      w.db.findByOrder orderId = none := by
  constructor
  · intro h
    by_contra hsome
    obtain ⟨payment, hp⟩ := Option.ne_none_iff_exists'.mp hsome
    obtain ⟨answer, hanswer⟩ := hfirst
    obtain ⟨call, hcall⟩ :=
      processInventoryReservationFailed_again hp hanswer correlationId' env'
    rw [h.refunds] at hcall
    simpa using congrArg List.length hcall
  · intro h
    have hskip : ∀ c x, processInventoryReservationFailed w orderId c x = (w, .ok none) := by
      intro c x
      rw [processInventoryReservationFailed, h]
    rw [hskip correlationId env, hskip correlationId' env']
    exact ⟨rfl, rfl, rfl⟩

/-- The second event of an order refunds nothing at the provider and records it. -/
theorem second_compensation_refunds :
    ¬ ∀ (calls : List PaymentCall) (w : World), exec callStep World.empty calls = some w →
      ∀ (orderId correlationId correlationId' : String) (env env' : Env),
      (∃ answer,
        (processInventoryReservationFailed w orderId correlationId env).2 = .ok answer) →
      Idle (processInventoryReservationFailed w orderId correlationId env).1
        (processInventoryReservationFailed
          (processInventoryReservationFailed w orderId correlationId env).1
          orderId correlationId' env').1 := by
  intro h
  have hidle := h [.charge sampleCharge approved.env] chargedOnce rfl "order-1" "corr-1" "corr-2"
    approved.env approved.env ⟨_, rfl⟩
  have hlength := congrArg (fun db => db.ledger.length) hidle.db
  revert hlength
  decide +kernel

theorem compensation_of_unpaid_order :
    Idle (processInventoryReservationFailed chargedOnce "order-2" "corr-1" approved.env).1
        (processInventoryReservationFailed
          (processInventoryReservationFailed chargedOnce "order-2" "corr-1" approved.env).1
          "order-2" "corr-2" approved.env).1 ↔
      chargedOnce.db.findByOrder "order-2" = none :=
  compensation_idempotent_iff chargedOnce "order-2" "corr-1" "corr-2" approved.env approved.env
    ⟨none, by decide +kernel⟩

end PaymentService
