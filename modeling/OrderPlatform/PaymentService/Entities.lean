import OrderPlatform.Store.Numeric
import OrderPlatform.Store.Table
import OrderPlatform.Store.Transaction
import OrderPlatform.Wire.Values

/-! # Payment service: entities and stores

The rows of the payment database, the calls the payment provider has received, and the
parameters of the service's operations.
-/

namespace PaymentService

open Store Wire

inductive PaymentStatus
  | pending | processed | failed | refunded | partiallyRefunded
  deriving DecidableEq, Repr

def PaymentStatus.text : PaymentStatus → String
  | .pending => "PENDING"
  | .processed => "PROCESSED"
  | .failed => "FAILED"
  | .refunded => "REFUNDED"
  | .partiallyRefunded => "PARTIALLY_REFUNDED"

inductive PaymentMethod
  | card | bankTransfer
  deriving DecidableEq, Repr

inductive LedgerEntryType
  | charge | refund
  deriving DecidableEq, Repr

inductive OutboxEventType
  | paymentSucceeded | paymentFailed | refundIssued
  deriving DecidableEq, Repr

def OutboxEventType.text : OutboxEventType → String
  | .paymentSucceeded => "PaymentSucceeded"
  | .paymentFailed => "PaymentFailed"
  | .refundIssued => "RefundIssued"

inductive OutboxStatus
  | pending | sent
  deriving DecidableEq, Repr

structure Payment where
  id : Uuid
  orderId : String
  customerUserId : String
  amount : Numeric
  currency : String
  status : PaymentStatus
  method : PaymentMethod
  provider : Option String
  providerTransactionId : Option String
  idempotencyKey : String
  refundedAmount : Numeric
  createdAt : ℕ
  deriving DecidableEq, Repr

structure LedgerEntry where
  paymentId : Uuid
  type : LedgerEntryType
  amount : Numeric
  reason : Option String
  createdAt : ℕ
  deriving DecidableEq, Repr

structure Outbox where
  id : Uuid
  aggregateId : Uuid
  eventType : OutboxEventType
  eventId : Uuid
  payload : Json
  headers : Option (List (String × String))
  status : OutboxStatus
  createdAt : ℕ
  processedAt : Option ℕ

structure Db where
  payments : List Payment
  ledger : List LedgerEntry
  outbox : List Outbox

structure ChargeResult where
  success : Bool
  providerTransactionId : String
  provider : String
  message : Option String
  deriving DecidableEq, Repr

/-- A charge call received by the provider, with the order it was made for. -/
structure ProviderCharge where
  orderId : String
  amount : Option ℚ
  currency : String
  cardToken : String
  idempotencyKey : String
  result : ChargeResult
  deriving DecidableEq, Repr

/-- A refund call received by the provider, with the payment it was made for. -/
structure ProviderRefund where
  paymentId : Uuid
  providerTransactionId : String
  amount : ℚ
  idempotencyKey : String
  result : ChargeResult
  deriving DecidableEq, Repr

/--
Everything the payment service reads and writes: the committed database, the payments
rows of transactions still open, the provider's calls, and the next identifier.
-/
structure World where
  db : Db
  uncommitted : List Payment
  charges : List ProviderCharge
  refunds : List ProviderRefund
  fresh : Uuid

def World.empty : World := ⟨⟨[], [], []⟩, [], [], [], 0⟩

/-- The database steps of a charge or a refund at which a failure can strike. -/
inductive DbStep
  | savePayment | updatePayment | saveLedger | append | findPayment | commit
  deriving DecidableEq, Repr

structure ChargeParams where
  orderId : String
  customerUserId : String
  amount : Option ℚ
  currency : Option String
  cardToken : String
  idempotencyKey : Option String
  correlationId : Option String
  deriving DecidableEq, Repr

structure RefundParams where
  paymentId : Uuid
  amount : Option ℚ
  reason : Option String
  correlationId : Option String
  deriving DecidableEq, Repr

structure ExecuteRefundParams where
  paymentId : Uuid
  amount : ℚ
  reason : String
  correlationId : Option String
  deriving DecidableEq, Repr

structure Answer where
  now : ℕ
  result : ChargeResult
  deriving DecidableEq, Repr

structure Env extends Answer where
  failAt : Option DbStep := none
  deriving DecidableEq, Repr

def Answer.env (x : Answer) : Env := { x with }

@[simp] theorem Answer.failAt_env (x : Answer) : x.env.failAt = none := rfl

def Db.findExisting (db : Db) (orderId key : String) : Option Payment :=
  db.payments.find? fun p => p.orderId = orderId || p.idempotencyKey = key

def Db.findPayment (db : Db) (id : Uuid) : Option Payment := lookup Payment.id id db.payments

def Db.findByOrder (db : Db) (orderId : String) : Option Payment :=
  lookup Payment.orderId orderId db.payments

/-- The two rows violate a unique constraint of the payments table together. -/
def Payment.Conflicts (p q : Payment) : Prop :=
  p.orderId = q.orderId ∨ p.idempotencyKey = q.idempotencyKey

instance (p q : Payment) : Decidable (p.Conflicts q) := inferInstanceAs (Decidable (_ ∨ _))

def Outbox.append (id aggregateId : Uuid) (eventType : OutboxEventType) (eventId : Uuid)
    (payload : Json) (headers : List (String × String)) (now : ℕ) : Outbox where
  id := id
  aggregateId := aggregateId
  eventType := eventType
  eventId := eventId
  payload := payload
  headers := some headers
  status := .pending
  createdAt := now
  processedAt := none

def sampleCharge : ChargeParams where
  orderId := "order-1"
  customerUserId := "user-1"
  amount := some 100
  currency := none
  cardToken := "tok_mock_default"
  idempotencyKey := none
  correlationId := none

def approved : Answer := ⟨0, ⟨true, "txn-1", "mock", none⟩⟩

end PaymentService
