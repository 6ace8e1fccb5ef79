import OrderPlatform.OrderService.EventWindow
import OrderPlatform.OrderService.Validation

/-! # Orders and their events

The outbox rows of an order are its history. When creations, cancellations and inventory
events run one after another, the history is one of four, its last event names the status
of the order, and the order's version counts the changes. This is so until the column of the
payload refuses an event: a change whose event holds the character zero has been made by then.
-/

namespace OrderService

open Runs Store Wire

def EventType.status : EventType → OrderStatus
  | .orderCreated => .pending
  | .orderConfirmed => .confirmed
  | .orderCancelled => .cancelled

/-- The events of an order, oldest first. -/
def World.history (w : World) (id : Uuid) : List EventType :=
  (w.db.outbox.filter fun row => row.aggregateId = id).map Outbox.eventType

def histories : List (List EventType) :=
  [[.orderCreated], [.orderCreated, .orderConfirmed], [.orderCreated, .orderCancelled],
    [.orderCreated, .orderConfirmed, .orderCancelled]]

/-- An order's row and its history agree. -/
structure Agrees (order : Order) (history : List EventType) : Prop where
  mem : history ∈ histories
  status : history.getLast?.map EventType.status = some order.status
  version : history.length = order.version + 1

/-- A request changes a pending order only, or cancels a confirmed one. -/
def StatusChange.Guarded (r : StatusChange) : Prop :=
  ∀ found order, r.check found = .ok (some order) → found = some order ∧
    (order.status = .pending ∨ r.target = .cancelled ∧ order.status = .confirmed)

theorem cancelOrder_guarded (orderId : Uuid) (currentUser : CurrentUser) (reason : Option String) :
    (cancelOrder orderId currentUser reason).Guarded := by
  intro found order h
  cases found with
  | none => cases h
  | some row =>
    obtain ⟨-, -, h⟩ := ok_of_bind h
    split at h
    · cases h
    · rename_i hs
      cases h
      refine ⟨rfl, ?_⟩
      by_cases hp : order.status = .pending
      · exact Or.inl hp
      · exact Or.inr ⟨rfl, by simpa [hp] using hs⟩

theorem checkPending_eq {found : Option Order} {order : Order}
    (h : checkPending found = .ok (some order)) : found = some order ∧ order.status = .pending := by
  cases found with
  | none => cases h
  | some row =>
    by_cases hs : row.status = .pending
    · obtain rfl : row = order := by simpa [checkPending, hs] using h
      exact ⟨rfl, hs⟩
    · simp [checkPending, hs] at h

theorem InventoryRequest.guarded {r : StatusChange} (h : InventoryRequest r) : r.Guarded := by
  cases h <;> exact fun _ _ hc => (checkPending_eq hc).imp id Or.inl

section Agrees

variable {order : Order} {history : List EventType} {t : Target}

theorem Agrees.of_pending (h : Agrees order history) (hp : order.status = .pending) :
    history = [.orderCreated] := by
  have hs := h.status
  have hm := h.mem
  simp only [histories, List.mem_cons, List.not_mem_nil, or_false] at hm
  rcases hm with rfl | rfl | rfl | rfl
  · rfl
  all_goals simp [hp, EventType.status] at hs

theorem Agrees.of_confirmed (h : Agrees order history) (hc : order.status = .confirmed) :
    history = [.orderCreated, .orderConfirmed] := by
  have hs := h.status
  have hm := h.mem
  simp only [histories, List.mem_cons, List.not_mem_nil, or_false] at hm
  rcases hm with rfl | rfl | rfl | rfl
  case inr.inl => rfl
  all_goals simp [hc, EventType.status] at hs

theorem Agrees.change (h : Agrees order history)
    (ht : order.status = .pending ∨ t = .cancelled ∧ order.status = .confirmed) :
    Agrees { order with
      status := t.status
      version := order.version + 1 } (history ++ [t.eventType]) where
  mem := by
    rcases ht with hp | ⟨rfl, hc⟩
    · rw [h.of_pending hp]
      cases t <;> simp [histories, Target.eventType]
    · rw [h.of_confirmed hc]
      simp [histories, Target.eventType]
  status := by cases t <;> simp [Target.eventType, Target.status, EventType.status]
  version := by simp [h.version]

end Agrees

/-- Every order agrees with its history; identifiers are fresh, and no two orders share one. -/
structure Consistent (w : World) : Prop where
  ids : (w.db.orders.map Order.id).Nodup
  fresh : ∀ order ∈ w.db.orders, order.id < w.fresh
  rows : ∀ row ∈ w.db.outbox, row.aggregateId < w.fresh
  agrees : ∀ order ∈ w.db.orders, Agrees order (w.history order.id)

section Keep

variable {w : World} {id : Uuid} {row : Outbox}

theorem history_append : (w.append row).history id =
    w.history id ++ if row.aggregateId = id then [row.eventType] else [] := by
  by_cases h : row.aggregateId = id <;> simp [World.history, World.append, h]

theorem history_of_fresh (h : ∀ row ∈ w.db.outbox, row.aggregateId < w.fresh)
    (hid : w.fresh ≤ id) : w.history id = [] := by
  have hf : w.db.outbox.filter (fun row => row.aggregateId = id) = [] := by
    rw [List.filter_eq_nil_iff]
    intro row hrow he
    have hlt := h row hrow
    rw [of_decide_eq_true he] at hlt
    exact absurd hid (Nat.not_le.mpr hlt)
  rw [World.history, hf, List.map_nil]

theorem Consistent.fresh_mono {fresh : Uuid} (h : Consistent w) (hf : w.fresh ≤ fresh) :
    Consistent ⟨w.db, fresh⟩ where
  ids := h.ids
  fresh order ho := (h.fresh order ho).trans_le hf
  rows row hr := (h.rows row hr).trans_le hf
  agrees := h.agrees

theorem Consistent.created (h : Consistent w) (isUuid : String → Bool) (data : CreateOrder) :
    Consistent ⟨(w.orderDraft isUuid data).created w.db, w.fresh + 5⟩ := by
  have hne : ∀ order ∈ w.db.orders, order.id ≠ w.fresh + 1 := fun order ho =>
    ((h.fresh order ho).trans (Nat.lt_succ_self _)).ne
  constructor
  · exact nodup_map_concat h.ids hne
  · refine forall_mem_concat (fun order ho => ?_) ?_
    · exact (h.fresh order ho).trans_le (Nat.le_add_right _ _)
    · exact Nat.add_lt_add_left (by omega) _
  · refine forall_mem_concat (fun row hr => ?_) ?_
    · exact (h.rows row hr).trans_le (Nat.le_add_right _ _)
    · exact Nat.add_lt_add_left (by omega) _
  · have hh : ∀ id, World.history ⟨(w.orderDraft isUuid data).created w.db, w.fresh + 5⟩ id =
        w.history id ++ if w.fresh + 1 = id then [.orderCreated] else [] := fun id =>
      @history_append w id (w.orderDraft isUuid data).entry
    refine forall_mem_concat (fun order ho => ?_) ?_
    · rw [hh, if_neg (hne order ho).symm, List.append_nil]
      exact h.agrees order ho
    · have hid : (w.orderDraft isUuid data).order.id = w.fresh + 1 := rfl
      rw [hh, hid, if_pos rfl, history_of_fresh h.rows (Nat.le_add_right _ _)]
      exact ⟨by simp [histories], rfl, rfl⟩

@[simp] theorem history_updateStatus {s : OrderStatus} {id' : Uuid} :
    (w.updateStatus id' s).history id = w.history id := rfl

/-- What a request that finds its order and goes on leaves behind. -/
theorem Consistent.change (h : Consistent w) {t : Target} {order : Order}
    (ho : order ∈ w.db.orders)
    (ht : order.status = .pending ∨ t = .cancelled ∧ order.status = .confirmed)
    (hid : row.aggregateId = order.id) (htype : row.eventType = t.eventType) :
    Consistent ((w.updateStatus order.id t.status).append row) where
  ids := by
    have hm : (w.updateStatus order.id t.status).db.orders.map Order.id =
        w.db.orders.map Order.id := map_update_of_eq _ fun _ _ => by rfl
    simpa [World.append, hm] using h.ids
  fresh := by
    intro o hmem
    obtain ⟨o', ho', rfl⟩ := mem_update.mp hmem
    have := (h.fresh o' ho').trans_le (Nat.le_add_right _ 3)
    split <;> exact this
  rows := by
    refine forall_mem_concat (fun row hr => ?_) ?_
    · exact (h.rows row hr).trans_le (Nat.le_add_right _ _)
    · rw [hid]
      exact (h.fresh order ho).trans_le (Nat.le_add_right _ _)
  agrees := by
    intro o hmem
    obtain ⟨o', ho', rfl⟩ := mem_update.mp hmem
    rw [history_append, history_updateStatus]
    by_cases he : o'.id = order.id
    · obtain rfl : o' = order := List.inj_on_of_nodup_map h.ids ho' ho he
      simp only [if_true, hid, htype]
      exact (h.agrees o' ho).change ht
    · rw [if_neg he, if_neg (by rw [hid]; exact Ne.symm he), List.append_nil]
      exact h.agrees o' ho'

theorem Consistent.run (h : Consistent w) {r : StatusChange} (hr : r.Guarded) (x : Clock) :
    Consistent (r.run w x).1 := by
  unfold StatusChange.run
  split
  · exact h
  · exact h
  · rename_i order hc
    obtain ⟨hf, ht⟩ := hr _ _ hc
    obtain ⟨ho, hid⟩ := lookup_eq_some hf
    dsimp only
    split
    · rename_i e he
      have hl : (w.updateStatus r.orderId r.target.status).db.findById r.orderId =
          (w.db.findById r.orderId).map _ := lookup_update_self fun _ => rfl
      obtain ⟨a, ha⟩ := r.answer_row _
      rw [hl, hf, Option.map_some, ha] at he
      cases he
    · rw [← hid]
      exact h.change ho ht hid.symm rfl

end Keep

/-- The database refuses the row of an event, as its JSON columns take no character zero. -/
def refusing (refused : Bool) : Statement → Bool := fun st => st = .createEntry && refused

/-- What a cancellation hands on to its event. -/
def storesCancellation (currentUser : CurrentUser) (reason : Option String) : Bool :=
  storable currentUser.sub && reason.all storable

def storesMember (event : Json) (name : String) : Bool :=
  match event.member name with
  | .ok (some j) => j.storable
  | _ => true

/-- What an inventory message hands on to the event of its order. -/
def InventoryMessage.stores (m : InventoryMessage) : Bool :=
  match m.parsed with
  | none => true
  | some event =>
    match m.memberOrHeader event "eventType" "event-type" with
    | .ok (.str "InventoryReserved") => storesMember event "correlationId"
    | _ => storesMember event "correlationId" && storesMember event "reason"

/-- The rows of a creation that is validated hold the character zero. -/
def CreateOrderDto.refused (dto : CreateOrderDto) (services : Services) (w : World)
    (isUuid : String → Bool) (correlationId : Option String) (x : CreateClock) : Bool :=
  match dto.validate services with
  | .error _ => false
  | .ok items =>
    let d := w.orderDraft isUuid (dto.data items (w.db.generateOrderNumber x) correlationId x)
    !(d.payload.storable && storable d.correlationId)

/-- A call of the service, with the clock and what the other services answer. -/
inductive Call
  | createOrder (dto : CreateOrderDto) (services : Services) (correlationId : Option String)
    (x : CreateClock) (failAt : Option CallFailure)
  | cancelOrder (orderId : Uuid) (currentUser : CurrentUser) (reason : Option String) (x : Clock)
  | process (m : InventoryMessage) (x : ProcessAnswer)

/--
One whole call; inventory events are remembered for `ttl`. Only a creation takes the row of its
event and the rest back together; what else an order's own row holds can be stored again.
-/
def Service.call (isUuid : String → Bool) (readUuid : String → Option Uuid) (ttl : ℕ)
    (s : Service) : Call → Option Service
  | .createOrder dto services correlationId x failAt =>
    let refused := dto.refused services s.world isUuid correlationId x
    let failAt := if refused then failAt.or (some (.recording .createEntry)) else failAt
    some { s with world := (dto.createOrder services s.world isUuid correlationId x failAt).1 }
  | .cancelOrder orderId currentUser reason x => some { s with
      world := (Attempt.run (refusing !(storesCancellation currentUser reason))
        (OrderService.cancelOrder orderId currentUser reason) s.world x).1 }
  | .process m x => some (Attempt.process (refusing !m.stores) readUuid ttl s m x).store

/-- The message's event is new and would change its order. -/
def Service.Awaits (s : Service) (readUuid : String → Option Uuid) (m : InventoryMessage)
    (x : ProcessAnswer) : Prop :=
  ∃ event eventId orderId handler order, m.Carries readUuid event eventId orderId handler ∧
    (s.isEventProcessed eventId x.checkedAt).2 = false ∧
    s.world.db.findById orderId = some order ∧ order.status = .pending

/-- A call that would change an order's status hands on nothing that cannot be stored. -/
def Service.Stores (readUuid : String → Option Uuid) (s : Service) : Call → Prop
  | .createOrder .. => True
  | .cancelOrder orderId currentUser reason _ =>
    (∃ order, (OrderService.cancelOrder orderId currentUser reason).check
        (s.world.db.findById orderId) = .ok (some order)) →
      storesCancellation currentUser reason = true
  | .process m x => s.Awaits readUuid m x → m.stores = true

section Refusals

variable {r : StatusChange} {w : World} {x : Clock} {refused : Bool}

theorem refusing_false : refusing false = fun _ => false := by
  funext st
  rw [refusing, Bool.and_false]

/-- A request that goes on changes the order's status, and appends its event unless refused. -/
theorem run_refusing {order : Order} (hc : r.check (w.db.findById r.orderId) = .ok (some order))
    (hg : r.Guarded) : (Attempt.run (refusing refused) r w x).1 =
      if refused then w.updateStatus r.orderId r.target.status
      else (w.updateStatus r.orderId r.target.status).append
        (r.entry order (w.updateStatus r.orderId r.target.status).fresh x) := by
  obtain ⟨hf, -⟩ := hg _ _ hc
  have hl : (w.updateStatus r.orderId r.target.status).db.findById r.orderId =
      (w.db.findById r.orderId).map _ := lookup_update_self fun _ => rfl
  obtain ⟨a, ha⟩ := r.answer_row { order with
    status := r.target.status
    version := order.version + 1 }
  rw [hf, Option.map_some] at hl
  simp only [Attempt.run, refusing, hc, hl, ha]
  cases refused <;> simp

/-- A request that does not go on leaves everything as it is. -/
theorem run_refusing_of_none
    (hc : ¬ ∃ order, r.check (w.db.findById r.orderId) = .ok (some order)) :
    (Attempt.run (refusing refused) r w x).1 = w := by
  rcases h : r.check (w.db.findById r.orderId) with e | _ | order
  · simp [Attempt.run, refusing, h]
  · simp [Attempt.run, refusing, h]
  · exact absurd ⟨order, h⟩ hc

end Refusals

section Runs

variable {isUuid : String → Bool} {readUuid : String → Option Uuid} {ttl : ℕ} {s t : Service}
  {m : InventoryMessage} {x : ProcessAnswer} {refused : Bool} {c : Call}

theorem isEventProcessed_refusing (s : Service) (eventId : Uuid) (now : ℕ) :
    Attempt.isEventProcessed (refusing refused) s eventId now =
      ((s.isEventProcessed eventId now).1, .ok (s.isEventProcessed eventId now).2) := by
  rw [← Attempt.isEventProcessed_of_ok]
  simp [Attempt.isEventProcessed, refusing]

/-- The handler of a well-formed message runs one request on the message's order. -/
theorem handle_refusing {event : Json} {eventId orderId : Uuid}
    {handler : Uuid → Option String → Option String → StatusChange} {w : World}
    (h : m.Carries readUuid event eventId orderId handler) :
    (∃ r order, InventoryRequest r ∧ r.check (w.db.findById r.orderId) = .ok (some order) ∧
        (∃ order, w.db.findById orderId = some order ∧ order.status = .pending) ∧
        (Attempt.handle (refusing refused) readUuid w handler event x).1 =
          (Attempt.run (refusing refused) r w x.toClock).1) ∨
      (¬ ∃ order, w.db.findById orderId = some order ∧ order.status = .pending) ∧
        (Attempt.handle (refusing refused) readUuid w handler event x).1 = w := by
  obtain ⟨r, hr, rfl, hhandle⟩ := h.handle (refusing refused) w x
  rw [hhandle]
  by_cases hp : ∃ order, w.db.findById r.orderId = some order ∧ order.status = .pending
  · obtain ⟨order, ho, hs⟩ := hp
    refine Or.inl ⟨r, order, hr, ?_, ⟨order, ho, hs⟩, rfl⟩
    rw [hr.check_eq, ho]
    simp [checkPending, hs]
  · refine Or.inr ⟨hp, run_refusing_of_none ?_⟩
    rintro ⟨order, hc⟩
    rw [hr.check_eq] at hc
    obtain ⟨ho, hs⟩ := checkPending_eq hc
    exact hp ⟨order, ho, hs⟩

/-- Without an order that the database can look up, all orders are left alone. -/
theorem handle_of_unordered {event : Json}
    {handler : Uuid → Option String → Option String → StatusChange} {w : World}
    (h : ¬ ∃ id orderId, event.member "orderId" = .ok (some (.str id)) ∧
      readUuid id = some orderId) :
    (Attempt.handle (refusing refused) readUuid w handler event x).1 = w := by
  unfold Attempt.handle
  split
  · rename_i orderId correlationId reason horder hcorrelation hreason
    cases hp : present orderId with
    | none =>
      dsimp only
      split
      · rfl
      · split <;> rfl
    | some j =>
      dsimp only
      cases hu : uuidOf readUuid j with
      | error e => rfl
      | ok id =>
        obtain ⟨text, rfl, hread⟩ := uuidOf_eq_ok hu
        exact absurd ⟨text, id, mem_of_present hp ▸ horder, hread⟩ h
  · rfl

/-- A message runs one request on the order its event would change, or leaves all orders alone. -/
theorem process_refusing (s : Service) (m : InventoryMessage) (x : ProcessAnswer) :
    (s.Awaits readUuid m x ∧ ∃ r order, InventoryRequest r ∧
        r.check (s.world.db.findById r.orderId) = .ok (some order) ∧
        (Attempt.process (refusing refused) readUuid ttl s m x).store.world =
          (Attempt.run (refusing refused) r s.world x.toClock).1) ∨
      ¬ s.Awaits readUuid m x ∧
        (Attempt.process (refusing refused) readUuid ttl s m x).store.world = s.world := by
  cases hi : Attempt.invokes (refusing refused) readUuid s m x with
  | false =>
    refine Or.inr ⟨?_, (@Attempt.process_of_not_invokes _ _ ttl _ _ _ hi).1⟩
    rintro ⟨event, eventId, orderId, handler, order, hc, hnew, -, -⟩
    obtain ⟨eventType, ht, hh⟩ := hc.handled
    obtain ⟨id, hid, hne, hu⟩ := hc.identified
    have htrue : (Json.str id).truthy = true := decide_eq_true hne
    simp [Attempt.invokes, hc.parsed, ht, hid, htrue, uuidOf, hu, isEventProcessed_refusing, hnew,
      hh] at hi
  | true =>
    obtain ⟨handler, event, eventId, hparsed, ⟨t, hcheck⟩, hcarries, hw, -⟩ :=
      @Attempt.process_of_invokes _ _ ttl _ _ _ hi
    rw [hw]
    have hevent : ∀ {event' eventId' orderId' handler'},
        m.Carries readUuid event' eventId' orderId' handler' → ∃ id,
          event.member "orderId" = .ok (some (.str id)) ∧ readUuid id = some orderId' := by
      intro event' eventId' orderId' handler' hc'
      obtain rfl : event' = event := Option.some.inj (hc'.parsed.symm.trans hparsed)
      exact hc'.ordered
    have hnew : (s.isEventProcessed eventId x.checkedAt).2 = false := by
      rw [isEventProcessed_refusing] at hcheck
      exact Except.ok.inj (Prod.mk.inj hcheck).2
    by_cases hid : ∃ id orderId, event.member "orderId" = .ok (some (.str id)) ∧
        readUuid id = some orderId
    · obtain ⟨id, orderId, horder, hread⟩ := hid
      have hc := hcarries id orderId horder hread
      rcases @handle_refusing readUuid m x refused event eventId orderId handler s.world hc with
        ⟨r, order, hr, hcheck, ⟨order', ho, hp⟩, hhandle⟩ | ⟨hnone, hhandle⟩
      · exact Or.inl ⟨⟨event, eventId, orderId, handler, order', hc, hnew, ho, hp⟩, r, order, hr,
          hcheck, hhandle⟩
      · refine Or.inr ⟨?_, hhandle⟩
        rintro ⟨event', eventId', orderId', handler', order, hc', -, ho, hp⟩
        obtain ⟨id', horder', hread'⟩ := hevent hc'
        cases horder.symm.trans horder'
        cases hread.symm.trans hread'
        exact hnone ⟨order, ho, hp⟩
    · refine Or.inr ⟨?_, handle_of_unordered hid⟩
      rintro ⟨event', eventId', orderId', handler', order, hc', -⟩
      obtain ⟨id, horder, hread⟩ := hevent hc'
      exact hid ⟨id, orderId', horder, hread⟩

theorem Consistent.call (hs : Consistent s.world) (hc : s.Stores readUuid c)
    (h : s.call isUuid readUuid ttl c = some t) : Consistent t.world := by
  cases c with
  | createOrder dto services correlationId x failAt =>
    cases h
    rcases dto.createOrder_cases services s.world isUuid correlationId x _ with
      ⟨fresh, e, hf, hc⟩ | ⟨items, -, hc⟩
    · rw [hc]
      exact hs.fresh_mono hf
    · rw [hc]
      exact hs.created isUuid _
  | cancelOrder orderId currentUser reason x =>
    cases h
    have hg := cancelOrder_guarded orderId currentUser reason
    by_cases hrun : ∃ order, (OrderService.cancelOrder orderId currentUser reason).check
        (s.world.db.findById orderId) = .ok (some order)
    · dsimp only
      rw [hc hrun, Bool.not_true, refusing_false, Attempt.run_of_ok]
      exact hs.run hg x
    · rw [@run_refusing_of_none (cancelOrder orderId currentUser reason) s.world x _ hrun]
      exact hs
  | process m x =>
    cases h
    rcases @process_refusing readUuid ttl _ s m x with ⟨hawaits, r, order, hr, -, hw⟩ | ⟨-, hw⟩
    · rw [hw, hc hawaits, Bool.not_true, refusing_false, Attempt.run_of_ok]
      exact hs.run hr.guarded _
    · exact hw ▸ hs

/-- A change of status without its event leaves an order that does not agree with its history. -/
theorem not_agrees_updateStatus {w : World} {order : Order} (hw : Consistent w)
    (ho : order ∈ w.db.orders) (status : OrderStatus) :
    ¬ ∀ o ∈ (w.updateStatus order.id status).db.orders,
      Agrees o ((w.updateStatus order.id status).history o.id) := by
  intro h
  have hmem : { order with
      status := status
      version := order.version + 1 } ∈ (w.updateStatus order.id status).db.orders :=
    mem_update.mpr ⟨order, ho, by rw [if_pos rfl]⟩
  have hversion := (h _ hmem).version
  have hbefore := (hw.agrees order ho).version
  rw [history_updateStatus] at hversion
  dsimp only at hversion
  omega

theorem not_agrees_call (hs : Consistent s.world) (hc : ¬ s.Stores readUuid c)
    (h : s.call isUuid readUuid ttl c = some t) :
    ¬ ∀ order ∈ t.world.db.orders, Agrees order (t.world.history order.id) := by
  have hlost {r : StatusChange} {order : Order} {x : Clock}
      (hcheck : r.check (s.world.db.findById r.orderId) = .ok (some order)) (hg : r.Guarded)
      (hw : t.world = (Attempt.run (refusing true) r s.world x).1) :
      ¬ ∀ order ∈ t.world.db.orders, Agrees order (t.world.history order.id) := by
    obtain ⟨hf, -⟩ := hg _ _ hcheck
    obtain ⟨ho, hid⟩ := lookup_eq_some hf
    rw [hw, run_refusing hcheck hg, if_pos rfl, ← hid]
    exact not_agrees_updateStatus hs ho _
  cases c with
  | createOrder dto services correlationId x failAt => exact absurd trivial hc
  | cancelOrder orderId currentUser reason x =>
    obtain ⟨⟨order, hcheck⟩, hstores⟩ := Classical.not_imp.mp hc
    cases h
    refine hlost hcheck (cancelOrder_guarded orderId currentUser reason) (x := x) ?_
    dsimp only
    rw [Bool.eq_false_iff.mpr hstores, Bool.not_false]
  | process m x =>
    obtain ⟨hawaits, hstores⟩ := Classical.not_imp.mp hc
    cases h
    rcases @process_refusing readUuid ttl (!m.stores) s m x with
      ⟨-, r, order, hr, hcheck, hw⟩ | ⟨hnone, -⟩
    · refine hlost hcheck hr.guarded (x := x.toClock) ?_
      rw [hw, Bool.eq_false_iff.mpr hstores, Bool.not_false]
    · exact absurd hawaits hnone

end Runs

/-- The inventory of the order with this identifier is reserved. -/
def inventoryReserved (orderId eventId : Uuid) : InventoryMessage where
  parsed := some (.object [
    ("eventType", some (.str "InventoryReserved")),
    ("eventId", some (.str (toString eventId))),
    ("orderId", some (.str (toString orderId)))])
  headers := []

/-- The order's number, its confirmation and a repetition of it, and its cancellation. -/
def confirmedAndCancelled (reason : Option String) : List Call :=
  [.createOrder sampleDto sampleServices none ⟨0, "", "19700101", 0⟩ none,
    .process (inventoryReserved 1 7) ⟨⟨1, ""⟩, 1, 1, none⟩,
    .process (inventoryReserved 1 7) ⟨⟨2, ""⟩, 2, 2, none⟩,
    .cancelOrder 1 ⟨"user-1", none⟩ reason ⟨3, ""⟩]

def readDigit (text : String) : Option Uuid := (List.range 10).find? fun id => toString id = text

example : (exec (Service.call (fun _ => false) readDigit 86400000) .empty
    (confirmedAndCancelled none)).map (fun s => s.world.history 1) =
    some [.orderCreated, .orderConfirmed, .orderCancelled] := by
  decide +kernel

end OrderService
