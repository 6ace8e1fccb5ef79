import OrderPlatform.OrderService.StatusChanges
import OrderPlatform.Wire.ColumnTexts

/-! # Inventory events

`process` looks an event up among those already processed, runs the handler of its type
and marks the event; whatever is thrown on the way is caught. Its only effect on orders
and outbox is that of a handler which runs to its end.
-/

namespace OrderService

open Runs Store Wire

/-- A request that runs alone to its end. -/
def StatusChange.run (r : StatusChange) (w : World) (x : Clock) :
    World × Except Thrown (Option Order) :=
  match r.check (w.db.findById r.orderId) with
  | .error e => (w, .error e)
  | .ok none => (w, .ok none)
  | .ok (some order) =>
    let w := w.updateStatus r.orderId r.target.status
    match r.answer (w.db.findById r.orderId) with
    | .error e => (w, .error e)
    | .ok answer => (w.append (r.entry order w.fresh x), .ok answer)

def StatusCall.ended : Except Thrown (Option Order) → StatusCall
  | .ok answer => .returned answer
  | .error e => .threw e

/-- The steps of a request that nothing interrupts compute `run`. -/
theorem StatusChange.run_solo (r : StatusChange) (w : World) (x : Clock) :
    ∃ n, exec (Machine.solo statusStepOk) (w, .reading r) (List.replicate n x) =
      some ((r.run w x).1, .ended (r.run w x).2) := by
  cases hc : r.check (w.db.findById r.orderId) with
  | error e =>
    refine ⟨1, ?_⟩
    simp [exec_cons, Machine.solo, statusStepOk, statusStep, run, hc, StatusCall.ended]
  | ok found =>
    cases found with
    | none =>
      refine ⟨1, ?_⟩
      simp [exec_cons, Machine.solo, statusStepOk, statusStep, run, hc, StatusCall.ended]
    | some order =>
      cases ha : r.answer ((w.updateStatus r.orderId r.target.status).db.findById r.orderId) with
      | error e =>
        refine ⟨3, ?_⟩
        simp [exec_cons, Machine.solo, statusStepOk, statusStep, run, hc, ha, StatusCall.ended,
          List.replicate_succ]
      | ok answer =>
        refine ⟨4, ?_⟩
        simp [exec_cons, Machine.solo, statusStepOk, statusStep, run, hc, ha, StatusCall.ended,
          List.replicate_succ]

structure ProcessedEvent where
  eventId : Uuid
  eventType : Json
  expiresAt : ℕ

/-- The database of the service, with the events its inventory consumer has processed. -/
structure Service where
  world : World
  processed : List ProcessedEvent

/-- A message of the inventory topic; the value is `none` when it is not JSON. -/
structure InventoryMessage where
  parsed : Option Json
  headers : List (String × String)

/--
The clock at the check, in the handler and at the mark, and what a query by a missing
identifier does: it throws, or it returns some row of the table.
-/
structure ProcessAnswer extends Clock where
  checkedAt : ℕ
  markedAt : ℕ
  anyOrder : Option ℕ
  deriving DecidableEq, Repr

/-- A member that counts as true, else a header; a missing one is `null`. -/
def InventoryMessage.memberOrHeader (m : InventoryMessage) (event : Json) (name header : String) :
    Except Thrown Json :=
  (event.member name).map fun j =>
    (j.filter Json.truthy).getD (((m.headers.lookup header).map Json.str).getD .null)

/-- A value in a condition on a `uuid` column; only some texts are accepted there. -/
def uuidOf (readUuid : String → Option Uuid) : Json → Except Thrown Uuid
  | .str s => (readUuid s).elim (.error .database) .ok
  | _ => .error .database

/-- The text of a member declared as an optional string. -/
def optionalText (j : Option Json) : Option String := (j.filter Json.truthy).map Json.text

/-- The switch on the event's type. -/
def handlerOf : Json → Option (Uuid → Option String → Option String → StatusChange)
  | .str "InventoryReserved" => some fun orderId correlationId _ =>
    handleInventoryReserved orderId correlationId
  | .str "InventoryReservationFailed" => some handleInventoryReservationFailed
  | _ => none

/--
Run a handler on an event. Without an order's identifier the first query has no condition
and the update rejects its empty criteria.
-/
def World.handle (w : World) (readUuid : String → Option Uuid)
    (handler : Uuid → Option String → Option String → StatusChange) (event : Json)
    (x : ProcessAnswer) : World × Except Thrown Unit :=
  match event.member "orderId", event.member "correlationId", event.member "reason" with
  | .ok orderId, .ok correlationId, .ok reason =>
    match present orderId with
    | some orderId =>
      match uuidOf readUuid orderId with
      | .error e => (w, .error e)
      | .ok orderId =>
        let r := handler orderId (optionalText correlationId) (optionalText reason)
        ((r.run w x.toClock).1, (r.run w x.toClock).2.map fun _ => ())
    | none =>
      match x.anyOrder.map fun k => checkPending w.db.orders[k % w.db.orders.length]? with
      | some (.ok none) => (w, .ok ())
      | _ => (w, .error .database)
  | _, _, _ => (w, .error .typeError)

namespace Service

variable (s : Service)

def empty : Service := ⟨.empty, []⟩

/-- An entry past its expiry is removed, and its event counts as new. -/
def isEventProcessed (eventId : Uuid) (now : ℕ) : Service × Bool :=
  match lookup ProcessedEvent.eventId eventId s.processed with
  | none => (s, false)
  | some found =>
    if found.expiresAt < now then
      ({ s with processed := s.processed.eraseP fun p => p.eventId = eventId }, false)
    else (s, true)

/-- The type's column is not null and holds a hundred characters. -/
def fits : Json → Bool
  | .null => false
  | eventType => (varchar 100 eventType.columnText).isSome

/-- Errors of the insert, such as that of an event already marked, are swallowed. -/
def markEventProcessed (eventId : Uuid) (eventType : Json) (now ttl : ℕ) : Service :=
  if (lookup ProcessedEvent.eventId eventId s.processed).isSome ∨ fits eventType = false then s
  else { s with processed := s.processed ++ [⟨eventId, eventType, now + ttl⟩] }

/-- The switch on the type of a new event, and its mark unless the handler throws. -/
def dispatch (readUuid : String → Option Uuid) (ttl : ℕ) (eventId : Uuid) (eventType event : Json)
    (x : ProcessAnswer) : Service :=
  match handlerOf eventType with
  | none => s.markEventProcessed eventId eventType x.markedAt ttl
  | some handler =>
    match s.world.handle readUuid handler event x with
    | (w, .error _) => { s with world := w }
    | (w, .ok ()) =>
      { s with world := w }.markEventProcessed eventId eventType x.markedAt ttl

/-- `InventoryEventProcessor.process`. -/
def process (readUuid : String → Option Uuid) (ttl : ℕ) (m : InventoryMessage)
    (x : ProcessAnswer) : Service :=
  match m.parsed with
  | none => s
  | some event =>
    match m.memberOrHeader event "eventType" "event-type",
        m.memberOrHeader event "eventId" "event-id" with
    | .ok eventType, .ok eventId =>
      if eventId.truthy = false then s
      else match uuidOf readUuid eventId with
        | .error _ => s
        | .ok eventId =>
          match s.isEventProcessed eventId x.checkedAt with
          | (s, true) => s
          | (s, false) => s.dispatch readUuid ttl eventId eventType event x
    | _, _ => s

end Service

/-- The requests the inventory consumer makes. -/
inductive InventoryRequest : StatusChange → Prop
  | reserved (orderId : Uuid) (correlationId : Option String) :
    InventoryRequest (handleInventoryReserved orderId correlationId)
  | failed (orderId : Uuid) (correlationId reason : Option String) :
    InventoryRequest (handleInventoryReservationFailed orderId correlationId reason)

section Process

variable {s : Service} {readUuid : String → Option Uuid} {eventId : Uuid} {eventType event : Json}
  {w : World} {handler : Uuid → Option String → Option String → StatusChange} {x : ProcessAnswer}
  {now ttl : ℕ}

theorem request_of_handlerOf (h : handlerOf eventType = some handler) (orderId : Uuid)
    (correlationId reason : Option String) :
    InventoryRequest (handler orderId correlationId reason) := by
  unfold handlerOf at h
  split at h
  · cases h
    exact .reserved _ _
  · cases h
    exact .failed _ _ _
  · cases h

theorem handle_world : (w.handle readUuid handler event x).1 = w ∨
    ∃ orderId correlationId reason, (w.handle readUuid handler event x).1 =
      ((handler orderId correlationId reason).run w x.toClock).1 := by
  unfold World.handle
  split
  · split
    · split
      · exact Or.inl rfl
      · exact Or.inr ⟨_, _, _, rfl⟩
    · split <;> exact Or.inl rfl
  · exact Or.inl rfl

@[simp] theorem world_isEventProcessed : (s.isEventProcessed eventId now).1.world = s.world := by
  unfold Service.isEventProcessed
  split
  · rfl
  · split <;> rfl

@[simp] theorem world_markEventProcessed :
    (s.markEventProcessed eventId eventType now ttl).world = s.world := by
  unfold Service.markEventProcessed
  split <;> rfl

theorem dispatch_world : (s.dispatch readUuid ttl eventId eventType event x).world = s.world ∨
    ∃ r, InventoryRequest r ∧
      (s.dispatch readUuid ttl eventId eventType event x).world = (r.run s.world x.toClock).1 := by
  unfold Service.dispatch
  split
  · exact Or.inl world_markEventProcessed
  · rename_i handler hh
    have hw : (s.world.handle readUuid handler event x).1 = s.world ∨ ∃ r, InventoryRequest r ∧
        (s.world.handle readUuid handler event x).1 = (r.run s.world x.toClock).1 :=
      handle_world.imp id fun ⟨_, _, _, h⟩ => ⟨_, request_of_handlerOf hh _ _ _, h⟩
    split <;> rename_i h <;> rw [h] at hw
    · exact hw
    · rw [world_markEventProcessed]
      exact hw

/-- An event leaves orders and outbox alone, or runs one request of the consumer on them. -/
theorem process_world (s : Service) (readUuid : String → Option Uuid) (ttl : ℕ)
    (m : InventoryMessage) (x : ProcessAnswer) :
    (s.process readUuid ttl m x).world = s.world ∨ ∃ r, InventoryRequest r ∧
      (s.process readUuid ttl m x).world = (r.run s.world x.toClock).1 := by
  unfold Service.process
  split
  · exact Or.inl rfl
  · split
    · split
      · exact Or.inl rfl
      · split
        · exact Or.inl rfl
        · rename_i eventId _
          have hs : (s.isEventProcessed eventId x.checkedAt).1.world = s.world :=
            world_isEventProcessed
          split
          · rename_i t ht
            rw [ht] at hs
            exact Or.inl hs
          · rename_i t ht
            rw [ht] at hs
            rw [← hs]
            exact dispatch_world
    · exact Or.inl rfl

end Process

end OrderService
