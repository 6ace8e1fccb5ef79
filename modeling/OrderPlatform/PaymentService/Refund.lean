import OrderPlatform.PaymentService.Entities
import OrderPlatform.Runs.Pool

/-! # Refunding a payment

`requestRefund`, `executeRefund` and the compensation handler are the service's
functions; `refundStep` cuts them at their reads, at the provider call and at the
database transaction, so that calls can interleave.
-/

namespace PaymentService

open Runs Store Wire

def Payment.available (p : Payment) : ℚ := p.amount.toNumber - p.refundedAmount.toNumber

/-- The checks of `requestRefund` on the row it read, and the amount to refund. -/
def refundAmount (payment : Payment) (amount : Option ℚ) : Except Thrown ℚ :=
  if payment.status ≠ .processed ∧ payment.status ≠ .partiallyRefunded then
    .error (.badRequest ("Payment in status " ++ payment.status.text ++ " cannot be refunded"))
  else
    let refundAmount := amount.getD payment.available
    if refundAmount ≤ 0 then .error (.badRequest "Refund amount must be positive")
    else if refundAmount > payment.available then
      .error (.badRequest ("Refund amount " ++ numberText refundAmount ++ " exceeds available "
        ++ numberText payment.available))
    else .ok refundAmount

def paymentNotFound (id : Uuid) : Thrown :=
  .notFound ("Payment " ++ toString id ++ " not found")

/-- `!payment.providerTransactionId`, else the transaction to refund. -/
def Payment.transactionId (p : Payment) : Except Thrown String :=
  match p.providerTransactionId with
  | none => .error (.badRequest "Payment has no provider transaction to refund")
  | some t =>
    if t = "" then .error (.badRequest "Payment has no provider transaction to refund") else .ok t

/-- A refund about to be sent to the provider, with the row it read and its identifiers. -/
structure RefundAttempt where
  params : ExecuteRefundParams
  payment : Payment
  transactionId : String
  eventId : Uuid
  outboxId : Uuid
  deriving DecidableEq, Repr

structure RefundDraft extends RefundAttempt where
  result : ChargeResult
  now : ℕ
  deriving DecidableEq, Repr

def RefundAttempt.providerCall (a : RefundAttempt) (now : ℕ) (result : ChargeResult) :
    ProviderRefund where
  paymentId := a.payment.id
  providerTransactionId := a.transactionId
  amount := a.params.amount
  idempotencyKey := "refund_" ++ toString a.payment.id ++ "_" ++ toString now
  result := result

namespace RefundDraft

variable (d : RefundDraft)

def newRefundedAmount : ℚ := d.payment.refundedAmount.toNumber + d.params.amount

def isFullRefund : Bool := d.newRefundedAmount ≥ d.payment.amount.toNumber

def newStatus : PaymentStatus := if d.isFullRefund then .refunded else .partiallyRefunded

/-- The columns the update writes; the refunded amount is absolute, not an increment. -/
def apply (p : Payment) : Payment :=
  { p with refundedAmount := .ofNumber d.newRefundedAmount, status := d.newStatus }

def ledgerEntry : LedgerEntry where
  paymentId := d.payment.id
  type := .refund
  amount := .ofNumber d.params.amount
  reason := some d.params.reason
  createdAt := d.now

def outboxRow : Outbox :=
  .append d.outboxId d.payment.id .refundIssued d.eventId
    (.object [
      ("paymentId", some (.str (toString d.payment.id))),
      ("orderId", some (.str d.payment.orderId)),
      ("customerUserId", some (.str d.payment.customerUserId)),
      ("refundAmount", some (.num d.params.amount)),
      ("refundedAmount", some (.num d.newRefundedAmount)),
      ("isFullRefund", some (.bool d.isFullRefund)),
      ("status", some (.str d.newStatus.text)),
      ("reason", some (.str d.params.reason)),
      ("providerTransactionId", some (.str d.transactionId))])
    [("correlationId", orDefault d.params.correlationId (toString d.eventId))] d.now

def updatePayment (db : Db) : Db :=
  { db with payments := update Payment.id d.payment.id d.apply db.payments }

def saveLedger (db : Db) : Db := { db with ledger := db.ledger ++ [d.ledgerEntry] }

def append (db : Db) : Db := { db with outbox := db.outbox ++ [d.outboxRow] }

def statements : List (Stmt DbStep Db) :=
  [.managed .updatePayment fun db => some (d.updatePayment db),
    .managed .saveLedger fun db => some (d.saveLedger db),
    .direct .append d.append,
    .managed .findPayment some]

def declined : Thrown :=
  .badRequest ("Refund failed: " ++ orDefault d.result.message "Provider error")

/-- What `executeRefund` does once the provider has answered; a declined refund only throws. -/
def record (failAt : Option DbStep) (db : Db) : Db × Except Thrown (Option Payment) :=
  if d.result.success then
    match transaction failAt .commit d.statements db with
    | (db, some view) => (db, .ok (view.findPayment d.payment.id))
    | (db, none) => (db, .error .database)
  else (db, .error d.declined)

end RefundDraft

def World.refundAttempt (w : World) (params : ExecuteRefundParams) :
    Except Thrown RefundAttempt :=
  match w.db.findPayment params.paymentId with
  | none => .error (paymentNotFound params.paymentId)
  | some payment => payment.transactionId.map fun t =>
      ⟨params, payment, t, w.fresh, w.fresh + 1⟩

def World.refunded (w : World) (d : RefundDraft) (failAt : Option DbStep) : World :=
  { w with
    db := (d.record failAt w.db).1
    refunds := w.refunds ++ [d.providerCall d.now d.result]
    fresh := w.fresh + 2 }

/-- `PaymentsService.executeRefund`, run without interruption. -/
def executeRefund (w : World) (params : ExecuteRefundParams) (env : Env) :
    World × Except Thrown (Option Payment) :=
  match w.refundAttempt params with
  | .error e => (w, .error e)
  | .ok a =>
    let d : RefundDraft := ⟨a, env.result, env.now⟩
    (w.refunded d env.failAt, (d.record env.failAt w.db).2)

def RefundParams.execute (params : RefundParams) (amount : ℚ) : ExecuteRefundParams :=
  ⟨params.paymentId, amount, orDefault params.reason "Customer requested refund",
    params.correlationId⟩

def World.admitRefund (w : World) (params : RefundParams) : Except Thrown ExecuteRefundParams :=
  match w.db.findPayment params.paymentId with
  | none => .error (paymentNotFound params.paymentId)
  | some payment => (refundAmount payment params.amount).map params.execute

/-- `PaymentsService.requestRefund`, run without interruption. -/
def requestRefund (w : World) (params : RefundParams) (env : Env) :
    World × Except Thrown (Option Payment) :=
  match w.admitRefund params with
  | .error e => (w, .error e)
  | .ok p => executeRefund w p env

/-- The parameters the compensation handler hands to `executeRefund`: all that is left. -/
def compensation (payment : Payment) (correlationId : String) : ExecuteRefundParams :=
  ⟨payment.id, payment.available, "Inventory reservation failed — saga compensation",
    some correlationId⟩

/-- `PaymentsService.processInventoryReservationFailed`, run without interruption. -/
def processInventoryReservationFailed (w : World) (orderId correlationId : String) (env : Env) :
    World × Except Thrown (Option Payment) :=
  match w.db.findByOrder orderId with
  | none => (w, .ok none)
  | some payment => executeRefund w (compensation payment correlationId) env

structure RefundRequiredEvent where
  orderId : String
  paymentId : Uuid
  amount : ℚ
  reason : String
  deriving DecidableEq, Repr

/-- `PaymentsService.processRefundRequired`, run without interruption. -/
def processRefundRequired (w : World) (event : RefundRequiredEvent) (correlationId : String)
    (env : Env) : World × Except Thrown (Option Payment) :=
  executeRefund w ⟨event.paymentId, event.amount, event.reason, some correlationId⟩ env

inductive RefundCall
  | requesting (params : RefundParams)
  | compensating (orderId correlationId : String)
  | executing (params : ExecuteRefundParams)
  | refunding (a : RefundAttempt)
  | recording (d : RefundDraft)
  | returned (payment : Option Payment)
  | threw (e : Thrown)
  deriving DecidableEq, Repr

def RefundCall.finished : RefundCall → Bool
  | .returned _ | .threw _ => true
  | _ => false

def RefundCall.ended : Except Thrown (Option Payment) → RefundCall
  | .ok payment => .returned payment
  | .error e => .threw e

/-- One step of a refund; the database transaction is one step. -/
def refundStep : Machine World RefundCall Env
  | w, .requesting params, _ =>
    match w.admitRefund params with
    | .error e => some (w, .threw e)
    | .ok p => some (w, .executing p)
  | w, .compensating orderId correlationId, _ =>
    match w.db.findByOrder orderId with
    | none => some (w, .returned none)
    | some payment => some (w, .executing (compensation payment correlationId))
  | w, .executing params, _ =>
    match w.refundAttempt params with
    | .error e => some (w, .threw e)
    | .ok a => some ({ w with fresh := w.fresh + 2 }, .refunding a)
  | w, .refunding a, env =>
    let d : RefundDraft := ⟨a, env.result, env.now⟩
    some ({ w with refunds := w.refunds ++ [a.providerCall env.now env.result] },
      if env.result.success then .recording d else .threw d.declined)
  | w, .recording d, env =>
    some ({ w with db := (d.record env.failAt w.db).1 }, .ended (d.record env.failAt w.db).2)
  | _, .returned _, _ => none
  | _, .threw _, _ => none

theorem refundAmount_ok {p : Payment} {amount : Option ℚ} {a : ℚ}
    (h : refundAmount p amount = .ok a) :
    a = amount.getD p.available ∧ 0 < a ∧ a ≤ p.available ∧
      (p.status = .processed ∨ p.status = .partiallyRefunded) := by
  unfold refundAmount at h
  dsimp only at h
  split at h
  · cases h
  · split at h
    · cases h
    · split at h
      · cases h
      · cases h
        refine ⟨rfl, by linarith, by linarith, ?_⟩
        tauto

theorem refundAmount_eq_ok {p : Payment} {amount : Option ℚ}
    (hpos : 0 < amount.getD p.available)
    (hstatus : p.status = .processed ∨ p.status = .partiallyRefunded)
    (hle : amount.getD p.available ≤ p.available) :
    refundAmount p amount = .ok (amount.getD p.available) := by
  have hst : ¬ (p.status ≠ .processed ∧ p.status ≠ .partiallyRefunded) := by tauto
  simp [refundAmount, hst, not_le.mpr hpos, not_lt.mpr hle]

variable {w : World}

theorem World.refundAttempt_ok {params : ExecuteRefundParams} {a : RefundAttempt}
    (h : w.refundAttempt params = .ok a) :
    w.db.findPayment params.paymentId = some a.payment ∧ a.params = params ∧
      a.payment.transactionId = .ok a.transactionId := by
  unfold refundAttempt at h
  split at h
  · cases h
  · rename_i payment hp
    cases ht : payment.transactionId with
    | error e => simp [ht, Except.map] at h
    | ok t =>
      simp only [ht, Except.map, Except.ok.injEq] at h
      subst h
      exact ⟨hp, rfl, ht⟩

theorem World.admitRefund_ok {params : RefundParams} {p : ExecuteRefundParams}
    (h : w.admitRefund params = .ok p) :
    ∃ payment a, w.db.findPayment params.paymentId = some payment ∧
      refundAmount payment params.amount = .ok a ∧ p = params.execute a := by
  unfold admitRefund at h
  split at h
  · cases h
  · rename_i payment hp
    cases ha : refundAmount payment params.amount with
    | error e => simp [ha, Except.map] at h
    | ok a =>
      simp only [ha, Except.map, Except.ok.injEq] at h
      exact ⟨payment, a, hp, ha, h.symm⟩

/-- `executeRefund` is the run of its steps without interruption. -/
theorem executeRefund_solo (w : World) (params : ExecuteRefundParams) (env : Env) :
    ∃ n, exec (Machine.solo refundStep) (w, .executing params) (List.replicate n env) =
      some ((executeRefund w params env).1, .ended (executeRefund w params env).2) := by
  unfold executeRefund
  cases ha : w.refundAttempt params with
  | error e => exact ⟨1, by simp [exec_cons, Machine.solo, refundStep, ha, RefundCall.ended]⟩
  | ok a =>
    cases hs : env.result.success with
    | false =>
      exact ⟨2, by simp [List.replicate_succ, exec_cons, Machine.solo, refundStep, ha, hs,
        World.refunded, RefundDraft.record, RefundCall.ended]⟩
    | true =>
      exact ⟨3, by simp [List.replicate_succ, exec_cons, Machine.solo, refundStep, ha, hs,
        World.refunded]⟩

theorem requestRefund_solo (w : World) (params : RefundParams) (env : Env) :
    ∃ n, exec (Machine.solo refundStep) (w, .requesting params) (List.replicate n env) =
      some ((requestRefund w params env).1, .ended (requestRefund w params env).2) := by
  unfold requestRefund
  cases h : w.admitRefund params with
  | error e => exact ⟨1, by simp [exec_cons, Machine.solo, refundStep, h, RefundCall.ended]⟩
  | ok p =>
    obtain ⟨n, hn⟩ := executeRefund_solo w p env
    exact ⟨n + 1, by simp [List.replicate_succ, exec_cons, Machine.solo, refundStep, h, hn]⟩

/-- Uninterrupted among any other calls, a refund computes `requestRefund`. -/
theorem requestRefund_uninterrupted {ι : Type} [DecidableEq ι] (w : World)
    (params : RefundParams) (env : Env) (c : ι → RefundCall) (i : ι)
    (hi : c i = .requesting params) :
    ∃ n, exec (Pool.act refundStep) ⟨w, c⟩ (List.replicate n (i, env)) =
      some ⟨(requestRefund w params env).1,
        Function.update c i (.ended (requestRefund w params env).2)⟩ :=
  Pool.exec_replicate hi (requestRefund_solo w params env)

theorem processInventoryReservationFailed_solo (w : World) (orderId correlationId : String)
    (env : Env) :
    ∃ n, exec (Machine.solo refundStep) (w, .compensating orderId correlationId)
        (List.replicate n env) =
      some ((processInventoryReservationFailed w orderId correlationId env).1,
        .ended (processInventoryReservationFailed w orderId correlationId env).2) := by
  unfold processInventoryReservationFailed
  cases h : w.db.findByOrder orderId with
  | none => exact ⟨1, by simp [exec_cons, Machine.solo, refundStep, h, RefundCall.ended]⟩
  | some payment =>
    obtain ⟨n, hn⟩ := executeRefund_solo w (compensation payment correlationId) env
    exact ⟨n + 1, by simp [List.replicate_succ, exec_cons, Machine.solo, refundStep, h, hn]⟩

end PaymentService
