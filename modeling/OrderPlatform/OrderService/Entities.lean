import OrderPlatform.Store.Numeric
import OrderPlatform.Store.Table
import OrderPlatform.Wire.Values

/-! # Order service: entities and stores

The rows of the order database, the requests that change an order's status, and the rows
they append to the outbox.
-/

namespace OrderService

open Store Wire

inductive OrderStatus
  | pending | confirmed | cancelled | failed
  deriving DecidableEq, Repr

def OrderStatus.text : OrderStatus → String
  | .pending => "PENDING"
  | .confirmed => "CONFIRMED"
  | .cancelled => "CANCELLED"
  | .failed => "FAILED"

inductive EventType
  | orderCreated | orderConfirmed | orderCancelled
  deriving DecidableEq, Repr

def EventType.text : EventType → String
  | .orderCreated => "OrderCreated"
  | .orderConfirmed => "OrderConfirmed"
  | .orderCancelled => "OrderCancelled"

inductive OutboxStatus
  | pending | sent
  deriving DecidableEq, Repr

structure Order where
  id : Uuid
  orderNumber : String
  customerUserId : String
  status : OrderStatus
  shippingAddressId : String
  totalAmount : Numeric
  currency : String
  paymentMethod : Option String
  correlationId : Option String
  version : ℕ
  createdAt : ℕ
  deriving DecidableEq, Repr

structure OrderItem where
  orderId : Uuid
  productId : String
  sku : String
  quantity : ℕ
  unitPrice : Numeric
  lineTotal : Numeric
  name : String
  deriving DecidableEq, Repr

structure Outbox where
  id : Uuid
  aggregateId : Uuid
  eventType : EventType
  eventId : Uuid
  payload : Json
  headers : Option (List (String × Option String))
  status : OutboxStatus
  createdAt : ℕ
  processedAt : Option ℕ

structure Db where
  orders : List Order
  items : List OrderItem
  outbox : List Outbox

structure World where
  db : Db
  fresh : Uuid

def World.empty : World := ⟨⟨[], [], []⟩, 0⟩

def Db.findById (db : Db) (id : Uuid) : Option Order := lookup Order.id id db.orders

/-- `OutboxRepository.createEntry`: the row it saves, with the identifiers it draws. -/
def createEntry (id eventId aggregateId : Uuid) (eventType : EventType) (payload : Json)
    (headers : List (String × Option String)) (now : ℕ) : Outbox where
  id := id
  aggregateId := aggregateId
  eventType := eventType
  eventId := eventId
  payload := payload
  headers := some headers
  status := .pending
  createdAt := now
  processedAt := none

structure CurrentUser where
  sub : String
  roles : Option (List String)
  deriving DecidableEq, Repr

/-- `OrderService.checkRoles`. -/
def checkRoles (order : Order) (currentUser : CurrentUser) : Except Thrown Unit :=
  let roles := currentUser.roles.getD []
  if "admin" ∈ roles ∨ "support" ∈ roles ∨ order.customerUserId = currentUser.sub then .ok ()
  else .error (.forbidden "You do not have permission to access this order")

end OrderService
