import OrderPlatform.PaymentService.Entities
import OrderPlatform.Runs.Pool

/-! # Charging an order

`charge` is the service's function with its database transaction; `chargeStep` is the
same function cut at every database statement and at the provider call, so that calls
can interleave. A call that runs alone through its steps computes `charge`.
-/

namespace PaymentService

open Runs Store Wire

structure OrderCreatedEvent where
  orderId : String
  customerUserId : String
  amount : Option ℚ
  totalAmount : Option ℚ
  currency : Option String
  cardToken : Option String
  idempotencyKey : Option String
  deriving DecidableEq, Repr

/-- The value as the handler's parameter type declares it; `none` when a member has another type. -/
def OrderCreatedEvent.ofJson (data : Json) : Option OrderCreatedEvent := do
  let orderId ← data.stringMember "orderId"
  let customerUserId ← data.stringMember "customerUserId"
  let amount ← data.numberMember "amount"
  let totalAmount ← data.numberMember "totalAmount"
  let currency ← data.stringMember "currency"
  let cardToken ← data.stringMember "cardToken"
  let idempotencyKey ← data.stringMember "idempotencyKey"
  return ⟨← orderId, ← customerUserId, amount, totalAmount, currency, cardToken, idempotencyKey⟩

/-- The only effect of `processOrderCreated` is a charge with these parameters. -/
def processOrderCreated (event : OrderCreatedEvent) (correlationId : String) : ChargeParams where
  orderId := event.orderId
  customerUserId := event.customerUserId
  amount := event.amount.or event.totalAmount
  currency := event.currency
  cardToken := event.cardToken.getD "tok_mock_default"
  idempotencyKey := event.idempotencyKey
  correlationId := some correlationId

def ChargeParams.key (params : ChargeParams) (now : ℕ) : String :=
  orDefault params.idempotencyKey ("pay_" ++ params.orderId ++ "_" ++ toString now)

/-- A charge that found no existing payment, with the identifiers it drew. -/
structure ChargeAttempt where
  params : ChargeParams
  idempotencyKey : String
  paymentId : Uuid
  eventId : Uuid
  outboxId : Uuid
  deriving DecidableEq, Repr

structure ChargeDraft extends ChargeAttempt where
  result : ChargeResult
  now : ℕ
  deriving DecidableEq, Repr

/-- The provider call of a charge; the provider's key is the order's identifier. -/
def ChargeAttempt.providerCall (a : ChargeAttempt) (result : ChargeResult) : ProviderCharge where
  orderId := a.params.orderId
  amount := a.params.amount
  currency := orDefault a.params.currency "USD"
  cardToken := a.params.cardToken
  idempotencyKey := a.params.orderId
  result := result

namespace ChargeDraft

variable (d : ChargeDraft)

def finalStatus : PaymentStatus := if d.result.success then .processed else .failed

def outboxEventType : OutboxEventType :=
  if d.result.success then .paymentSucceeded else .paymentFailed

def payment (amount : ℚ) : Payment where
  id := d.paymentId
  orderId := d.params.orderId
  customerUserId := d.params.customerUserId
  amount := .ofNumber amount
  currency := orDefault d.params.currency "USD"
  status := d.finalStatus
  method := .card
  provider := some d.result.provider
  providerTransactionId := some d.result.providerTransactionId
  idempotencyKey := d.idempotencyKey
  refundedAmount := ⟨0⟩
  createdAt := d.now

def ledgerEntry (amount : ℚ) : LedgerEntry where
  paymentId := d.paymentId
  type := .charge
  amount := .ofNumber amount
  reason := if d.result.success then none else some (orDefault d.result.message "Charge failed")
  createdAt := d.now

def outboxRow : Outbox :=
  .append d.outboxId d.paymentId d.outboxEventType d.eventId
    (.object [
      ("paymentId", some (.str (toString d.paymentId))),
      ("orderId", some (.str d.params.orderId)),
      ("customerUserId", some (.str d.params.customerUserId)),
      ("amount", d.params.amount.map .num),
      ("currency", some (.str (orDefault d.params.currency "USD"))),
      ("status", some (.str d.finalStatus.text)),
      ("providerTransactionId", some (.str d.result.providerTransactionId)),
      ("provider", some (.str d.result.provider))])
    [("correlationId", orDefault d.params.correlationId (toString d.eventId))] d.now

/-- Insert the payments row: a missing amount or a taken key makes the insert throw. -/
def savePayment (db : Db) : Option Db :=
  d.params.amount.bind fun amount =>
    if ∃ p ∈ db.payments, p.Conflicts (d.payment amount) then none
    else some { db with payments := db.payments ++ [d.payment amount] }

def saveLedger (db : Db) : Option Db :=
  d.params.amount.map fun amount => { db with ledger := db.ledger ++ [d.ledgerEntry amount] }

def append (db : Db) : Db := { db with outbox := db.outbox ++ [d.outboxRow] }

/-- The statements of the transaction; the outbox row goes through its own repository. -/
def statements : List (Stmt DbStep Db) :=
  [.managed .savePayment d.savePayment, .managed .saveLedger d.saveLedger,
    .direct .append d.append]

def record (failAt : Option DbStep) (db : Db) : Db × Option Db :=
  transaction failAt .commit d.statements db

end ChargeDraft

def World.chargeAttempt (w : World) (params : ChargeParams) (now : ℕ) : ChargeAttempt :=
  ⟨params, params.key now, w.fresh, w.fresh + 1, w.fresh + 2⟩

def World.charged (w : World) (d : ChargeDraft) (failAt : Option DbStep) : World :=
  { w with
    db := (d.record failAt w.db).1
    charges := w.charges ++ [d.providerCall d.result]
    fresh := w.fresh + 3 }

/-- `PaymentsService.charge`, run without interruption. -/
def charge (w : World) (params : ChargeParams) (env : Env) : World × Except Thrown Payment :=
  match w.db.findExisting params.orderId (params.key env.now) with
  | some existing => (w, .ok existing)
  | none =>
    let d : ChargeDraft := ⟨w.chargeAttempt params env.now, env.result, env.now⟩
    (w.charged d env.failAt,
      match (d.record env.failAt w.db).2, params.amount with
      | some _, some amount => .ok (d.payment amount)
      | _, _ => .error .database)

/-- The program points of a charge; inside the transaction the amount is known to be given. -/
inductive ChargeCall
  | looking (params : ChargeParams)
  | charging (a : ChargeAttempt)
  | saving (d : ChargeDraft)
  | entering (d : ChargeDraft) (amount : ℚ)
  | appending (d : ChargeDraft) (amount : ℚ)
  | committing (d : ChargeDraft) (amount : ℚ)
  | returned (payment : Payment)
  | threw (e : Thrown)
  deriving DecidableEq, Repr

def ChargeCall.ended : Except Thrown Payment → ChargeCall
  | .ok payment => .returned payment
  | .error e => .threw e

def World.rollback (w : World) (payment : Payment) : World :=
  { w with uncommitted := w.uncommitted.erase payment }

def World.commit (w : World) (payment : Payment) (entry : LedgerEntry) : World :=
  { w.rollback payment with db := { w.db with
    payments := w.db.payments ++ [payment],
    ledger := w.db.ledger ++ [entry] } }

/--
One step of a charge. An insert that meets an uncommitted row with the same unique key
waits for that row's transaction to end.
-/
def chargeStep : Machine World ChargeCall Env
  | w, .looking params, env =>
    match w.db.findExisting params.orderId (params.key env.now) with
    | some existing => some (w, .returned existing)
    | none =>
      some ({ w with fresh := w.fresh + 3 }, .charging (w.chargeAttempt params env.now))
  | w, .charging a, env =>
    some ({ w with charges := w.charges ++ [a.providerCall env.result] },
      .saving ⟨a, env.result, env.now⟩)
  | w, .saving d, env =>
    match d.params.amount with
    | none => some (w, .threw .database)
    | some amount =>
      if env.failAt = some .savePayment ∨ ∃ p ∈ w.db.payments, p.Conflicts (d.payment amount) then
        some (w, .threw .database)
      else if ∃ p ∈ w.uncommitted, p.Conflicts (d.payment amount) then none
      else some ({ w with uncommitted := d.payment amount :: w.uncommitted }, .entering d amount)
  | w, .entering d amount, env =>
    if env.failAt = some .saveLedger then some (w.rollback (d.payment amount), .threw .database)
    else some (w, .appending d amount)
  | w, .appending d amount, env =>
    if env.failAt = some .append then some (w.rollback (d.payment amount), .threw .database)
    else some ({ w with db := d.append w.db }, .committing d amount)
  | w, .committing d amount, env =>
    if env.failAt = some .commit then some (w.rollback (d.payment amount), .threw .database)
    else some (w.commit (d.payment amount) (d.ledgerEntry amount), .returned (d.payment amount))
  | _, .returned _, _ => none
  | _, .threw _, _ => none

end PaymentService
