import OrderPlatform.OrderService.Entities
import OrderPlatform.Store.Transaction
import OrderPlatform.Wire.Doubles

/-! # Creating an order

An order, its items and its `OrderCreated` event are written by one transaction, all
through its query runner, so a failure at any statement leaves nothing behind.
-/

namespace OrderService

open Store Wire

/-- A price of the catalogue, written as the text of its decimal column or as a number. -/
inductive Price
  | text (n : Numeric)
  | number (n : Numeric)
  deriving DecidableEq, Repr

def Price.amount : Price → Numeric
  | .text n => n
  | .number n => n

def Price.toNumber (p : Price) : ℚ := p.amount.toNumber

def Price.json : Price → Json
  | .text n => .str n.text
  | .number n => .num n.toNumber

structure ValidatedItem where
  productId : String
  quantity : ℕ
  validatedPrice : Price
  validatedName : String
  validatedSku : String
  deriving DecidableEq, Repr

/-- A validated request, with the order number generated for it and how its totals are counted. -/
structure CreateOrder where
  customerUserId : String
  shippingAddressId : String
  paymentMethod : Option String
  items : List ValidatedItem
  orderNumber : String
  correlationId : Option String
  now : ℕ
  timestamp : String
  arithmetic : Arithmetic := .exact
  deriving DecidableEq, Repr

inductive CreateStep
  | saveOrder | saveItems | createEntry | commit
  deriving DecidableEq, Repr

/-- An order about to be written, with its identifiers. -/
structure OrderDraft where
  data : CreateOrder
  correlationId : String
  orderId : Uuid
  headerId : Uuid
  outboxId : Uuid
  eventId : Uuid
  deriving DecidableEq, Repr

def ValidatedItem.lineTotal (arithmetic : Arithmetic) (item : ValidatedItem) : ℚ :=
  arithmetic.times item.validatedPrice.toNumber item.quantity

/-- The entry of an item in the event's payload. -/
def ValidatedItem.payload (arithmetic : Arithmetic) (item : ValidatedItem) : Json := .object [
  ("productId", some (.str item.productId)),
  ("sku", some (.str item.validatedSku)),
  ("quantity", some (.num item.quantity)),
  ("unitPrice", some item.validatedPrice.json),
  ("lineTotal", some (.num (item.lineTotal arithmetic))),
  ("name", some (.str item.validatedName))]

def CreateOrder.totalAmount (data : CreateOrder) : ℚ :=
  data.arithmetic.sum (data.items.map (ValidatedItem.lineTotal data.arithmetic))

namespace OrderDraft

variable (d : OrderDraft)

def order : Order where
  id := d.orderId
  orderNumber := d.data.orderNumber
  customerUserId := d.data.customerUserId
  status := .pending
  shippingAddressId := d.data.shippingAddressId
  totalAmount := .ofNumber d.data.totalAmount
  currency := "USD"
  paymentMethod := d.data.paymentMethod
  correlationId := some d.correlationId
  version := 0
  createdAt := d.data.now

def items : List OrderItem := d.data.items.map fun item =>
  { orderId := d.orderId
    productId := item.productId
    sku := item.validatedSku
    quantity := item.quantity
    unitPrice := .ofNumber item.validatedPrice.toNumber
    lineTotal := .ofNumber (item.lineTotal d.data.arithmetic)
    name := item.validatedName }

/-- The event's payload; its prices are the catalogue's, its totals the numbers computed. -/
def payload : Json := .object [
  ("eventType", some (.str "OrderCreated")),
  ("orderId", some (.str (toString d.orderId))),
  ("orderNumber", some (.str d.data.orderNumber)),
  ("customerUserId", some (.str d.data.customerUserId)),
  ("items", some (.arr (d.data.items.map (ValidatedItem.payload d.data.arithmetic)))),
  ("shippingAddressId", some (.str d.data.shippingAddressId)),
  ("totalAmount", some (.num d.data.totalAmount)),
  ("currency", some (.str "USD")),
  ("paymentMethod", some (d.data.paymentMethod.elim .null .str)),
  ("timestamp", some (.str d.data.timestamp))]

def entry : Outbox :=
  createEntry d.outboxId d.eventId d.orderId .orderCreated d.payload
    [("correlationId", some d.correlationId), ("eventId", some (toString d.headerId))] d.data.now

def saveOrder (db : Db) : Option Db :=
  if ∃ o ∈ db.orders, o.orderNumber = d.data.orderNumber then none
  else some { db with orders := db.orders ++ [d.order] }

def saveItems (db : Db) : Db := { db with items := db.items ++ d.items }

def saveEntry (db : Db) : Db := { db with outbox := db.outbox ++ [d.entry] }

def statements : List (Stmt CreateStep Db) :=
  [.managed .saveOrder d.saveOrder, .managed .saveItems fun db => some (d.saveItems db),
    .managed .createEntry fun db => some (d.saveEntry db)]

def record (failAt : Option CreateStep) (db : Db) : Db × Option Db :=
  transaction failAt .commit d.statements db

def created (db : Db) : Db where
  orders := db.orders ++ [d.order]
  items := db.items ++ d.items
  outbox := db.outbox ++ [d.entry]

variable {d} {failAt : Option CreateStep} {db : Db}

theorem managed_of_mem_statements : ∀ st ∈ d.statements, st.Managed := by
  intro st hst
  simp only [statements, List.mem_cons, List.not_mem_nil, or_false] at hst
  rcases hst with rfl | rfl | rfl <;> trivial

/-- A failed creation leaves no trace, and any other one writes all three tables. -/
theorem record_cases : d.record failAt db = (db, none) ∨
    d.record failAt db = (d.created db, some (d.created db)) := by
  rcases transaction_allOrNone managed_of_mem_statements with h | ⟨v, hv, h⟩
  · exact Or.inl h
  · right
    simp only [statements, writes, saveOrder, Option.bind_some] at hv
    split at hv
    · cases hv
    · cases hv
      exact h

/-- Left to itself, a creation is recorded unless its number is taken. -/
theorem record_of_unused (h : ∀ o ∈ db.orders, o.orderNumber ≠ d.data.orderNumber) :
    d.record none db = (d.created db, some (d.created db)) := by
  have hfree : ¬ ∃ o ∈ db.orders, o.orderNumber = d.data.orderNumber := fun ⟨o, ho, he⟩ => h o ho he
  simp only [record, transaction, runStmts, statements, saveOrder, if_neg hfree, reduceCtorEq,
    if_false]
  rfl

theorem record_isSome_iff : (d.record failAt db).2.isSome = true ↔
    failAt = none ∧ ∀ o ∈ db.orders, o.orderNumber ≠ d.data.orderNumber := by
  by_cases hfree : ∀ o ∈ db.orders, o.orderNumber ≠ d.data.orderNumber
  · have hnone : ¬ ∃ o ∈ db.orders, o.orderNumber = d.data.orderNumber :=
      fun ⟨o, ho, he⟩ => hfree o ho he
    cases failAt with
    | none =>
      rw [record_of_unused hfree]
      exact iff_of_true rfl ⟨rfl, hfree⟩
    | some step =>
      refine iff_of_false ?_ (by simp)
      cases step <;>
        simp [record, transaction, runStmts, statements, saveOrder, if_neg hnone]
  · have htaken : ∃ o ∈ db.orders, o.orderNumber = d.data.orderNumber := by
      push Not at hfree
      exact hfree
    refine iff_of_false ?_ fun h => hfree h.2
    have hruns : runStmts failAt d.statements db db = (db, none) := by
      simp only [runStmts, statements, saveOrder, if_pos htaken]
      split <;> rfl
    simp [record, transaction, hruns]

end OrderDraft

/-- The draft of a request; a correlation identifier that is none is replaced. -/
def World.orderDraft (w : World) (isUuid : String → Bool) (data : CreateOrder) : OrderDraft where
  data := data
  correlationId :=
    match data.correlationId with
    | none => toString w.fresh
    | some c => if c = "" ∨ isUuid c = false then toString w.fresh else c
  orderId := w.fresh + 1
  headerId := w.fresh + 2
  outboxId := w.fresh + 3
  eventId := w.fresh + 4

theorem World.correlationId_orderDraft (w : World) (isUuid : String → Bool) (data : CreateOrder) :
    (w.orderDraft isUuid data).correlationId ≠ "" := by
  unfold orderDraft
  dsimp only
  split
  · exact Nat.repr_ne_empty
  · split
    · exact Nat.repr_ne_empty
    · rename_i h
      exact fun hc => h (Or.inl hc)

/-- `OrderService.createOrder` once the request is validated: the identifier of the order. -/
def createOrder (w : World) (isUuid : String → Bool) (data : CreateOrder)
    (failAt : Option CreateStep) : World × Except Thrown Uuid :=
  let d := w.orderDraft isUuid data
  ({ db := (d.record failAt w.db).1
     fresh := w.fresh + 5 },
    if (d.record failAt w.db).2.isSome then .ok d.orderId else .error .database)

theorem createOrder_cases (w : World) (isUuid : String → Bool) (data : CreateOrder)
    (failAt : Option CreateStep) :
    createOrder w isUuid data failAt = (⟨w.db, w.fresh + 5⟩, .error .database) ∨
      createOrder w isUuid data failAt = (⟨(w.orderDraft isUuid data).created w.db, w.fresh + 5⟩,
        .ok (w.orderDraft isUuid data).orderId) := by
  simp only [createOrder]
  rcases @OrderDraft.record_cases (w.orderDraft isUuid data) failAt w.db with h | h
  · exact Or.inl (by simp [h])
  · exact Or.inr (by simp [h])

theorem createOrder_of_unused {w : World} {isUuid : String → Bool} {data : CreateOrder}
    (h : ∀ o ∈ w.db.orders, o.orderNumber ≠ data.orderNumber) :
    createOrder w isUuid data none = (⟨(w.orderDraft isUuid data).created w.db, w.fresh + 5⟩,
      .ok (w.orderDraft isUuid data).orderId) := by
  have hr := @OrderDraft.record_of_unused (w.orderDraft isUuid data) w.db h
  simp only [createOrder, hr, Option.isSome_some, if_true]

theorem createOrder_orders (w : World) (isUuid : String → Bool) (data : CreateOrder)
    (failAt : Option CreateStep) :
    (createOrder w isUuid data failAt).1.db = w.db ∨
      (createOrder w isUuid data failAt).1.db = (w.orderDraft isUuid data).created w.db :=
  (createOrder_cases w isUuid data failAt).imp (fun h => by rw [h]) (fun h => by rw [h])

end OrderService
