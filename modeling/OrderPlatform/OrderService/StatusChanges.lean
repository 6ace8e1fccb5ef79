import OrderPlatform.OrderService.Entities
import OrderPlatform.Runs.Pool

/-! # Changes of an order's status

A cancellation and the two inventory handlers read the order, update its status without
looking at it again, read it back, and append an event. Each of these is a step of its
own, so that requests can interleave and fail in between.
-/

namespace OrderService

open Runs Store Wire

inductive Target
  | confirmed | cancelled
  deriving DecidableEq, Repr

def Target.status : Target → OrderStatus
  | .confirmed => .confirmed
  | .cancelled => .cancelled

def Target.eventType : Target → EventType
  | .confirmed => .orderConfirmed
  | .cancelled => .orderCancelled

/--
A request to change an order's status: its checks on the row it reads (`none` ends the
request quietly), its answer to the row it reads back, which only a missing row can make
throw, and the event it appends.
-/
structure StatusChange where
  orderId : Uuid
  target : Target
  check : Option Order → Except Thrown (Option Order)
  answer : Option Order → Except Thrown (Option Order)
  payload : Order → String → Json
  correlationId : Order → Option String
  answer_row : ∀ order, ∃ a, answer (some order) = .ok a

def orderNotFound (orderId : Uuid) : Thrown :=
  .notFound ("Order " ++ toString orderId ++ " not found")

/-- `OrderService.cancelOrder`. -/
def cancelOrder (orderId : Uuid) (currentUser : CurrentUser) (reason : Option String) :
    StatusChange where
  orderId := orderId
  target := .cancelled
  check
    | none => .error (orderNotFound orderId)
    | some order => do
      checkRoles order currentUser
      if order.status ≠ .pending ∧ order.status ≠ .confirmed then
        .error (.badRequest ("Order " ++ toString orderId ++
          " cannot be cancelled. Current status: " ++ order.status.text))
      else .ok (some order)
  answer
    | none => .error (orderNotFound orderId)
    | some order => .ok (some order)
  payload order timestamp := .object [
    ("eventType", some (.str "OrderCancelled")),
    ("orderId", some (.str (toString orderId))),
    ("orderNumber", some (.str order.orderNumber)),
    ("customerUserId", some (.str order.customerUserId)),
    ("reason", some (.str (orDefault reason "Cancelled by user"))),
    ("cancelledBy", some (.str currentUser.sub)),
    ("timestamp", some (.str timestamp))]
  correlationId order := order.correlationId
  answer_row order := ⟨some order, rfl⟩

/-- The check of both inventory handlers: only a pending order is changed. -/
def checkPending : Option Order → Except Thrown (Option Order)
  | none => .ok none
  | some order => if order.status ≠ .pending then .ok none else .ok (some order)

def eventCorrelation (correlationId : Option String) (order : Order) : Option String :=
  match correlationId with
  | none => order.correlationId
  | some c => if c = "" then order.correlationId else some c

/-- `InventoryEventProcessor.handleInventoryReserved`. -/
def handleInventoryReserved (orderId : Uuid) (correlationId : Option String) : StatusChange where
  orderId := orderId
  target := .confirmed
  check := checkPending
  answer _ := .ok none
  payload order timestamp := .object [
    ("eventType", some (.str "OrderConfirmed")),
    ("orderId", some (.str (toString orderId))),
    ("orderNumber", some (.str order.orderNumber)),
    ("customerUserId", some (.str order.customerUserId)),
    ("totalAmount", some (.str order.totalAmount.text)),
    ("currency", some (.str order.currency)),
    ("timestamp", some (.str timestamp))]
  correlationId := eventCorrelation correlationId
  answer_row _ := ⟨none, rfl⟩

/-- `InventoryEventProcessor.handleInventoryReservationFailed`. -/
def handleInventoryReservationFailed (orderId : Uuid) (correlationId reason : Option String) :
    StatusChange where
  orderId := orderId
  target := .cancelled
  check := checkPending
  answer _ := .ok none
  payload order timestamp := .object [
    ("eventType", some (.str "OrderCancelled")),
    ("orderId", some (.str (toString orderId))),
    ("orderNumber", some (.str order.orderNumber)),
    ("customerUserId", some (.str order.customerUserId)),
    ("reason", some (.str (orDefault reason "Inventory reservation failed"))),
    ("timestamp", some (.str timestamp))]
  correlationId := eventCorrelation correlationId
  answer_row _ := ⟨none, rfl⟩

/-- The program points of a request; the order is the row its first read returned. -/
inductive StatusCall
  | reading (r : StatusChange)
  | updating (r : StatusChange) (order : Order)
  | rereading (r : StatusChange) (order : Order)
  | inserting (r : StatusChange) (order : Order) (answer : Option Order)
  | returned (answer : Option Order)
  | threw (e : Thrown)

structure Clock where
  now : ℕ
  timestamp : String
  deriving DecidableEq, Repr

/-- The clock, and whether the step fails or the process crashes instead of taking it. -/
structure StatusAnswer extends Clock where
  fails : Bool
  deriving DecidableEq, Repr

/-- The update of `OrderRepository.updateStatus`; the version is counted, not compared. -/
def World.updateStatus (w : World) (id : Uuid) (status : OrderStatus) : World :=
  { w with db := { w.db with
      orders := update Order.id id
        (fun order => { order with status := status, version := order.version + 1 })
        w.db.orders } }

def StatusChange.entry (r : StatusChange) (order : Order) (fresh : Uuid) (x : Clock) :
    Outbox :=
  createEntry (fresh + 1) (fresh + 2) r.orderId r.target.eventType (r.payload order x.timestamp)
    [("correlationId", r.correlationId order), ("eventId", some (toString fresh))] x.now

def World.append (w : World) (row : Outbox) : World :=
  { db := { w.db with outbox := w.db.outbox ++ [row] }
    fresh := w.fresh + 3 }

/-- One step of a request. -/
def statusStep : Machine World StatusCall StatusAnswer
  | w, .reading r, x =>
    if x.fails then some (w, .threw .database)
    else match r.check (w.db.findById r.orderId) with
      | .error e => some (w, .threw e)
      | .ok none => some (w, .returned none)
      | .ok (some order) => some (w, .updating r order)
  | w, .updating r order, x =>
    if x.fails then some (w, .threw .database)
    else some (w.updateStatus r.orderId r.target.status, .rereading r order)
  | w, .rereading r order, x =>
    if x.fails then some (w, .threw .database)
    else match r.answer (w.db.findById r.orderId) with
      | .error e => some (w, .threw e)
      | .ok answer => some (w, .inserting r order answer)
  | w, .inserting r order answer, x =>
    if x.fails then some (w, .threw .database)
    else some (w.append (r.entry order w.fresh x.toClock), .returned answer)
  | _, .returned _, _ => none
  | _, .threw _, _ => none

def statusStepOk : Machine World StatusCall Clock := fun w c x => statusStep w c ⟨x, false⟩

inductive StatusEffect (w : World) (x : StatusAnswer) : StatusCall → World → StatusCall → Prop
  | fail (c : StatusCall) (h : x.fails = true) : StatusEffect w x c w (.threw .database)
  | refuse (r : StatusChange) (e : Thrown) : StatusEffect w x (.reading r) w (.threw e)
  | skip (r : StatusChange) : StatusEffect w x (.reading r) w (.returned none)
  | read (r : StatusChange) (order : Order)
    (h : r.check (w.db.findById r.orderId) = .ok (some order)) :
    StatusEffect w x (.reading r) w (.updating r order)
  | update (r : StatusChange) (order : Order) :
    StatusEffect w x (.updating r order) (w.updateStatus r.orderId r.target.status)
      (.rereading r order)
  | vanish (r : StatusChange) (order : Order) (e : Thrown)
    (h : w.db.findById r.orderId = none) :
    StatusEffect w x (.rereading r order) w (.threw e)
  | reread (r : StatusChange) (order : Order) (answer : Option Order) :
    StatusEffect w x (.rereading r order) w (.inserting r order answer)
  | insert (r : StatusChange) (order : Order) (answer : Option Order) :
    StatusEffect w x (.inserting r order answer) (w.append (r.entry order w.fresh x.toClock))
      (.returned answer)

theorem statusStep_effect {w w' : World} {c c' : StatusCall} {x : StatusAnswer}
    (h : statusStep w c x = some (w', c')) : StatusEffect w x c w' c' := by
  cases hx : x.fails with
  | true => cases c <;> simp only [statusStep, hx, if_true] at h <;> cases h <;> exact .fail _ hx
  | false =>
    cases c with
    | reading r =>
      simp only [statusStep, hx, Bool.false_eq_true, if_false] at h
      split at h <;> cases h
      · exact .refuse _ _
      · exact .skip _
      · exact .read _ _ (by assumption)
    | updating r order =>
      simp only [statusStep, hx, Bool.false_eq_true, if_false] at h
      cases h
      exact .update _ _
    | rereading r order =>
      simp only [statusStep, hx, Bool.false_eq_true, if_false] at h
      split at h <;> cases h
      · rename_i e he
        refine .vanish _ _ _ ?_
        cases hf : w.db.findById r.orderId with
        | none => rfl
        | some row =>
          obtain ⟨a, ha⟩ := r.answer_row row
          rw [hf, ha] at he
          cases he
      · exact .reread _ _ _
    | inserting r order answer =>
      simp only [statusStep, hx, Bool.false_eq_true, if_false] at h
      cases h
      exact .insert _ _ _
    | returned answer => cases h
    | threw e => cases h

def sampleWorld : World where
  db := ⟨[⟨0, "ORD-19700101-00001", "user-1", .pending, "address-1", ⟨10000⟩, "USD", none, none, 0,
    0⟩], [], []⟩
  fresh := 1

end OrderService
