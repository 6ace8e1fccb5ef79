import OrderPlatform.OrderService.InventoryEvents
import OrderPlatform.Wire.Broker

/-! # The inventory consumer

`process` with database statements that may fail. It catches whatever is thrown, so the
consumer commits the offset of every message; a statement that fails before the handler
has run to its end therefore drops the event.
-/

namespace OrderService

open Store Wire

/-- What `handleMessage` hands to `process`; an empty message is skipped. -/
def handleMessage (message : KafkaMessage) : Option InventoryMessage :=
  match message.value with
  | some (.text parsed) =>
    some ⟨parsed, message.headers.filterMap fun h => h.2.map fun v => (h.1, v.listText)⟩
  | _ => none

/-- The database statements of `process`, each of which it makes once at most. -/
inductive Statement
  | findProcessed | removeExpired | findOrder | updateStatus | rereadOrder | createEntry
  | saveProcessed
  deriving DecidableEq, Repr

namespace Attempt

variable (fails : Statement → Bool) (readUuid : String → Option Uuid) (ttl : ℕ)

/-- A request that runs alone, up to the first statement that fails. -/
def run (r : StatusChange) (w : World) (x : Clock) : World × Except Thrown (Option Order) :=
  if fails .findOrder then (w, .error .database)
  else match r.check (w.db.findById r.orderId) with
  | .error e => (w, .error e)
  | .ok none => (w, .ok none)
  | .ok (some order) =>
    if fails .updateStatus then (w, .error .database)
    else
      let w := w.updateStatus r.orderId r.target.status
      if fails .rereadOrder then (w, .error .database)
      else match r.answer (w.db.findById r.orderId) with
      | .error e => (w, .error e)
      | .ok answer =>
        if fails .createEntry then (w, .error .database)
        else (w.append (r.entry order w.fresh x), .ok answer)

def handle (w : World) (handler : Uuid → Option String → Option String → StatusChange)
    (event : Json) (x : ProcessAnswer) : World × Except Thrown Unit :=
  match event.member "orderId", event.member "correlationId", event.member "reason" with
  | .ok orderId, .ok correlationId, .ok reason =>
    match present orderId with
    | some orderId =>
      match uuidOf readUuid orderId with
      | .error e => (w, .error e)
      | .ok orderId =>
        let r := handler orderId (optionalText correlationId) (optionalText reason)
        ((run fails r w x.toClock).1, (run fails r w x.toClock).2.map fun _ => ())
    | none =>
      if fails .findOrder then (w, .error .database)
      else match x.anyOrder.map fun k => checkPending w.db.orders[k % w.db.orders.length]? with
      | some (.ok none) => (w, .ok ())
      | _ => (w, .error .database)
  | _, _, _ => (w, .error .typeError)

def isEventProcessed (s : Service) (eventId : Uuid) (now : ℕ) : Service × Except Thrown Bool :=
  if fails .findProcessed then (s, .error .database)
  else match lookup ProcessedEvent.eventId eventId s.processed with
  | none => (s, .ok false)
  | some found =>
    if found.expiresAt < now then
      if fails .removeExpired then (s, .error .database)
      else ({ s with processed := s.processed.eraseP fun p => p.eventId = eventId }, .ok false)
    else (s, .ok true)

def markEventProcessed (s : Service) (eventId : Uuid) (eventType : Json) (now : ℕ) : Service :=
  if fails .saveProcessed then s else s.markEventProcessed eventId eventType now ttl

/-- The switch on the type of a new event, and its mark unless the handler throws. -/
def dispatch (s : Service) (eventId : Uuid) (eventType event : Json) (x : ProcessAnswer) :
    Conclusion Service :=
  match handlerOf eventType with
  | none => ⟨markEventProcessed fails ttl s eventId eventType x.markedAt, false, .ok ()⟩
  | some handler =>
    match handle fails readUuid s.world handler event x with
    | (w, .error e) => ⟨{ s with world := w }, false, .error e⟩
    | (w, .ok ()) =>
      ⟨markEventProcessed fails ttl { s with world := w } eventId eventType x.markedAt, true,
        .ok ()⟩

/-- The block of `process` under its `try`. -/
def body (s : Service) (m : InventoryMessage) (x : ProcessAnswer) : Conclusion Service :=
  match m.parsed with
  | none => ⟨s, false, .error .syntaxError⟩
  | some event =>
    match m.memberOrHeader event "eventType" "event-type",
        m.memberOrHeader event "eventId" "event-id" with
    | .ok eventType, .ok eventId =>
      if eventId.truthy = false then ⟨s, false, .ok ()⟩
      else match uuidOf readUuid eventId with
        | .error e => ⟨s, false, .error e⟩
        | .ok eventId =>
          match isEventProcessed fails s eventId x.checkedAt with
          | (s, .error e) => ⟨s, false, .error e⟩
          | (s, .ok true) => ⟨s, false, .ok ()⟩
          | (s, .ok false) => dispatch fails readUuid ttl s eventId eventType event x
    | _, _ => ⟨s, false, .error .typeError⟩

/-- `InventoryEventProcessor.process`. -/
def process (s : Service) (m : InventoryMessage) (x : ProcessAnswer) : Conclusion Service :=
  (body fails readUuid ttl s m x).caught (.ok ())

/-- `KafkaConsumerService.handleMessage`. -/
def receive (s : Service) (message : KafkaMessage) (x : ProcessAnswer) : Conclusion Service :=
  match handleMessage message with
  | none => ⟨s, false, .ok ()⟩
  | some m => process fails readUuid ttl s m x

end Attempt

/--
The message is well formed: an event with an identifier, the identifier of an order, and a
type that has a handler.
-/
structure InventoryMessage.Carries (m : InventoryMessage) (readUuid : String → Option Uuid)
    (event : Json) (eventId orderId : Uuid)
    (handler : Uuid → Option String → Option String → StatusChange) : Prop where
  parsed : m.parsed = some event
  handled : ∃ eventType, m.memberOrHeader event "eventType" "event-type" = .ok eventType ∧
    handlerOf eventType = some handler
  identified : ∃ id, m.memberOrHeader event "eventId" "event-id" = .ok (.str id) ∧ id ≠ "" ∧
    readUuid id = some eventId
  ordered : ∃ id, event.member "orderId" = .ok (some (.str id)) ∧ readUuid id = some orderId

/-- The event is recorded as processed. -/
def Service.Recorded (s : Service) (eventId : Uuid) : Prop :=
  lookup ProcessedEvent.eventId eventId s.processed ≠ none

/-- None of the statements that come before the mark of a new event fails. -/
structure Attempt.Succeeds (fails : Statement → Bool) (w : World) (orderId : Uuid) : Prop where
  findProcessed : fails .findProcessed = false
  findOrder : fails .findOrder = false
  change : ∀ order, w.db.findById orderId = some order → order.status = .pending →
    fails .updateStatus = false ∧ fails .rereadOrder = false ∧ fails .createEntry = false

section NoFailure

variable {readUuid : String → Option Uuid} {ttl : ℕ}

/-- Statements that succeed make of every part of `process` what it is without failures. -/
theorem Attempt.run_of_ok (r : StatusChange) (w : World) (x : Clock) :
    run (fun _ => false) r w x = r.run w x := by
  unfold run StatusChange.run
  rfl

theorem Attempt.handle_of_ok (w : World)
    (handler : Uuid → Option String → Option String → StatusChange) (event : Json)
    (x : ProcessAnswer) :
    handle (fun _ => false) readUuid w handler event x = w.handle readUuid handler event x := by
  unfold handle World.handle
  simp only [run_of_ok]
  rfl

theorem Attempt.isEventProcessed_of_ok (s : Service) (eventId : Uuid) (now : ℕ) :
    isEventProcessed (fun _ => false) s eventId now =
      ((s.isEventProcessed eventId now).1, .ok (s.isEventProcessed eventId now).2) := by
  simp only [isEventProcessed, Service.isEventProcessed, Bool.false_eq_true, if_false]
  cases lookup ProcessedEvent.eventId eventId s.processed with
  | none => rfl
  | some found => by_cases he : found.expiresAt < now <;> simp [he]

theorem Attempt.dispatch_of_ok (s : Service) (eventId : Uuid) (eventType event : Json)
    (x : ProcessAnswer) :
    (dispatch (fun _ => false) readUuid ttl s eventId eventType event x).store =
      s.dispatch readUuid ttl eventId eventType event x := by
  simp only [dispatch, Service.dispatch, handle_of_ok, markEventProcessed, Bool.false_eq_true,
    if_false]
  cases handlerOf eventType with
  | none => rfl
  | some handler =>
    dsimp only
    rcases s.world.handle readUuid handler event x with ⟨w, e | ⟨⟩⟩ <;> rfl

theorem Attempt.process_of_ok (s : Service) (m : InventoryMessage) (x : ProcessAnswer) :
    (process (fun _ => false) readUuid ttl s m x).store = s.process readUuid ttl m x := by
  simp only [process, Conclusion.caught, body, Service.process, isEventProcessed_of_ok]
  cases m.parsed with
  | none => rfl
  | some event =>
    dsimp only
    rcases m.memberOrHeader event "eventType" "event-type" with e | eventType
    · rfl
    rcases m.memberOrHeader event "eventId" "event-id" with e | id
    · rfl
    dsimp only
    cases id.truthy with
    | false => rfl
    | true =>
      simp only [Bool.true_eq_false, if_false]
      rcases uuidOf readUuid id with e | eventId
      · rfl
      dsimp only
      rcases s.isEventProcessed eventId x.checkedAt with ⟨t, _ | _⟩
      · exact dispatch_of_ok t eventId eventType event x
      · rfl

end NoFailure

section Process

variable {fails : Statement → Bool} {readUuid : String → Option Uuid} {ttl : ℕ} {s : Service}
  {m : InventoryMessage} {x : ProcessAnswer} {w : World} {event : Json} {eventId orderId : Uuid}
  {handler : Uuid → Option String → Option String → StatusChange}

/-- Whatever is thrown, the consumer's call returns normally. -/
theorem Attempt.ended_receive (message : KafkaMessage) :
    (receive fails readUuid ttl s message x).ended = .ok () := by
  unfold receive
  cases handleMessage message with
  | none => rfl
  | some m => exact Conclusion.ended_caught _

theorem InventoryRequest.check_eq {r : StatusChange} (hr : InventoryRequest r) :
    r.check = checkPending := by
  cases hr <;> rfl

theorem InventoryRequest.answer_eq {r : StatusChange} (hr : InventoryRequest r) (o : Option Order) :
    r.answer o = .ok none := by
  cases hr <;> rfl

/-- A request of the consumer ends normally when the statements it makes succeed. -/
theorem Attempt.run_ok_iff {r : StatusChange} (hr : InventoryRequest r) (x : Clock) :
    (∃ a, (run fails r w x).2 = .ok a) ↔ fails .findOrder = false ∧
      ∀ order, w.db.findById r.orderId = some order → order.status = .pending →
        fails .updateStatus = false ∧ fails .rereadOrder = false ∧ fails .createEntry = false := by
  unfold run
  rw [hr.check_eq]
  cases hf : fails .findOrder with
  | true => simp
  | false =>
    cases ho : w.db.findById r.orderId with
    | none => simp [checkPending]
    | some order =>
      by_cases hp : order.status = .pending
      · cases hu : fails .updateStatus <;> cases hre : fails .rereadOrder <;>
          cases hc : fails .createEntry <;> simp [checkPending, hp, hr.answer_eq]
      · simp [checkPending, hp]

/-- The handler of a well-formed event ends as its request for the event's order does. -/
theorem InventoryMessage.Carries.handle (h : m.Carries readUuid event eventId orderId handler)
    (fails : Statement → Bool) (w : World) (x : ProcessAnswer) :
    ∃ r, InventoryRequest r ∧ r.orderId = orderId ∧
      Attempt.handle fails readUuid w handler event x = ((Attempt.run fails r w x.toClock).1,
        (Attempt.run fails r w x.toClock).2.map fun _ => ()) := by
  obtain ⟨eventType, -, hh⟩ := h.handled
  obtain ⟨id, hid, ho⟩ := h.ordered
  obtain ⟨correlationId, hc⟩ := Json.member_of_ok hid "correlationId"
  obtain ⟨reason, hr⟩ := Json.member_of_ok hid "reason"
  have hreq := request_of_handlerOf hh orderId (optionalText correlationId) (optionalText reason)
  refine ⟨_, hreq, ?_, ?_⟩
  · unfold handlerOf at hh
    split at hh <;> cases hh <;> rfl
  · simp only [Attempt.handle, hid, hc, hr, present, uuidOf, ho, Option.elim]

theorem Attempt.handled_dispatch (h : m.Carries readUuid event eventId orderId handler)
    {eventType : Json} (ht : handlerOf eventType = some handler) :
    (dispatch fails readUuid ttl s eventId eventType event x).handled = true ↔
      fails .findOrder = false ∧
      ∀ order, s.world.db.findById orderId = some order → order.status = .pending →
        fails .updateStatus = false ∧ fails .rereadOrder = false ∧ fails .createEntry = false := by
  obtain ⟨r, hr, rfl, hh⟩ := h.handle fails s.world x
  rw [← run_ok_iff hr x.toClock]
  simp only [dispatch, ht, hh]
  cases (run fails r s.world x.toClock).2 <;> simp [Except.map]

/-- A well-formed event reaches its handler unless it is found recorded. -/
theorem InventoryMessage.Carries.body (h : m.Carries readUuid event eventId orderId handler)
    (fails : Statement → Bool) (ttl : ℕ) (s : Service) (x : ProcessAnswer) :
    ∃ eventType, handlerOf eventType = some handler ∧
      Attempt.body fails readUuid ttl s m x =
        match Attempt.isEventProcessed fails s eventId x.checkedAt with
        | (s, .error e) => ⟨s, false, .error e⟩
        | (s, .ok true) => ⟨s, false, .ok ()⟩
        | (s, .ok false) => Attempt.dispatch fails readUuid ttl s eventId eventType event x := by
  obtain ⟨eventType, ht, hh⟩ := h.handled
  obtain ⟨id, hid, hne, hu⟩ := h.identified
  refine ⟨eventType, hh, ?_⟩
  have htrue : (Json.str id).truthy = true := decide_eq_true hne
  simp only [Attempt.body, h.parsed, ht, hid, htrue, uuidOf, hu, Option.elim, Bool.true_eq_false,
    if_false]

/--
An event is not dropped exactly when it was recorded before, or no statement fails before
its mark.
-/
theorem Attempt.notDropped_iff (h : m.Carries readUuid event eventId orderId handler) :
    (process fails readUuid ttl s m x).NotDropped (s.Recorded eventId) ↔
      s.Recorded eventId ∨ Succeeds fails s.world orderId := by
  obtain ⟨eventType, ht, hb⟩ := h.body fails ttl s x
  have hp : (process fails readUuid ttl s m x).NotDropped (s.Recorded eventId) ↔
      (body fails readUuid ttl s m x).handled = true ∨ s.Recorded eventId :=
    ⟨fun h => h (Conclusion.ended_caught _), fun h _ => h⟩
  rw [hp, or_comm]
  refine or_congr_right' fun hnew => ?_
  have hl : lookup ProcessedEvent.eventId eventId s.processed = none := not_not.mp hnew
  have hs : Succeeds fails s.world orderId ↔ fails .findProcessed = false ∧
      fails .findOrder = false ∧
      ∀ order, s.world.db.findById orderId = some order → order.status = .pending →
        fails .updateStatus = false ∧ fails .rereadOrder = false ∧ fails .createEntry = false :=
    ⟨fun h => ⟨h.1, h.2, h.3⟩, fun h => ⟨h.1, h.2.1, h.2.2⟩⟩
  rw [hs, hb, isEventProcessed, hl]
  cases fails .findProcessed with
  | true => simp
  | false => simpa using handled_dispatch h ht

end Process

end OrderService
