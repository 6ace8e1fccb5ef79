import Mathlib.Data.Fintype.Basic
import OrderPlatform.NotificationService.Entities
import OrderPlatform.Runs.Pool
import OrderPlatform.Wire.Broker
import OrderPlatform.Wire.ColumnTexts

/-! # Events and their notifications

`process` checks that an event is new, creates its delivery record and marks the event as
processed, in three steps on two tables. Two deliveries of an event that overlap, or a
delivery that ends before its mark, leave more than one record.
-/

namespace NotificationService

open Runs Store Wire

structure Meta where
  topic : String
  partition : ℕ
  headers : List (String × String)

/-- A header under either of two names, the first preferred. -/
def Meta.header (info : Meta) (name other : String) : Option String :=
  (info.headers.lookup name).or (info.headers.lookup other)

/-- A message handed to `process`; the value is `none` when it is not JSON. -/
structure Message where
  parsed : Option Json
  info : Meta

/-- What `handleMessage` hands to `process`; an empty message is skipped. -/
def handleMessage (topic : String) (partition : ℕ) (message : KafkaMessage) : Option Message :=
  match message.value with
  | some (.text parsed) => some ⟨parsed, ⟨topic, partition, message.decodedHeaders⟩⟩
  | _ => none

structure Event where
  eventId : String
  eventType : Json
  payload : Json
  correlationId : Option String

/-- A header, else the member of the value; a missing one is `null`. -/
def headerOrMember (info : Meta) (parsed : Json) (header name : String) : Except Thrown Json :=
  match info.header header name with
  | some s => .ok (.str s)
  | none => (parsed.member name).map fun m => m.getD .null

/-- What `process` computes before it reads the database; `none` when it gives up. -/
def Message.event (m : Message) : Except Thrown (Option Event) :=
  match m.parsed with
  | none => .ok none
  | some parsed => do
    let eventId ← headerOrMember m.info parsed "event-id" "eventId"
    let eventType ← headerOrMember m.info parsed "event-type" "eventType"
    if !eventId.truthy || !eventType.truthy then return none
    let payload ← parsed.member "payload"
    return some ⟨eventId.columnText, eventType, (present payload).getD parsed,
      m.info.header "correlation-id" "correlationId"⟩

/-- A member, else a default, as it is written to a text column. -/
def textMember (payload : Json) (name default : String) : Except Thrown String :=
  (payload.member name).map fun m => ((present m).map Json.columnText).getD default

/-- A member, else a default, in a template string. -/
def templateMember (payload : Json) (name default : String) : Except Thrown String := do
  let m ← payload.member name
  ((present m).getD (.str default)).template

/-- The non-empty parts of a text, joined by blanks. -/
def sentence (parts : List String) : String :=
  String.intercalate " " (parts.filter fun p => p ≠ "")

def emailTo (recipient subject body : String) : CreateNotificationDto :=
  ⟨.email, recipient, "email", some subject, body⟩

def onOrderCreated (payload : Json) : Except Thrown CreateNotificationDto := do
  let recipientEmail ← textMember payload "recipientEmail" "customer@example.com"
  let orderId ← payload.member "orderId"
  let orderNumber ← payload.member "orderNumber"
  let orderNumber ← (((present orderNumber).or (present orderId)).getD (.str "unknown")).template
  let totalAmount ← payload.member "totalAmount"
  let total ← match present totalAmount with
    | none => pure ""
    | some totalAmount => do
      pure ("Total: " ++ (← totalAmount.template) ++ " " ++
        (← templateMember payload "currency" "USD"))
  return emailTo recipientEmail ("Order " ++ orderNumber ++ " Received") (sentence [
    "Your order " ++ orderNumber ++ " has been received.", total,
    "We will notify you once it is confirmed."])

def onOrderConfirmed (payload : Json) : Except Thrown CreateNotificationDto := do
  let recipientEmail ← textMember payload "recipientEmail" "customer@example.com"
  let orderId ← templateMember payload "orderId" "unknown"
  return emailTo recipientEmail ("Order " ++ orderId ++ " Confirmed")
    ("Your order " ++ orderId ++ " has been confirmed. Thank you for your purchase!")

def onOrderCancelled (payload : Json) : Except Thrown CreateNotificationDto := do
  let recipientEmail ← textMember payload "recipientEmail" "customer@example.com"
  let orderId ← templateMember payload "orderId" "unknown"
  let reason ← payload.member "reason"
  let reason ← match (present reason).filter Json.truthy with
    | none => pure ""
    | some reason => do pure ("Reason: " ++ (← reason.template))
  return emailTo recipientEmail ("Order " ++ orderId ++ " Cancelled") (sentence [
    "Your order " ++ orderId ++ " has been cancelled.", reason,
    "If you were charged, a refund will be processed shortly."])

def onInventoryReservationFailed (payload : Json) : Except Thrown CreateNotificationDto := do
  let recipientEmail ← textMember payload "recipientEmail" "customer@example.com"
  let orderId ← templateMember payload "orderId" "unknown"
  return emailTo recipientEmail ("Order " ++ orderId ++ " Could Not Be Completed")
    ("We're sorry, but we could not complete your order " ++ orderId ++
      " due to inventory issues. Your payment has been refunded.")

/-- The switch on the event's type; other types are passed over. -/
def Event.notification (e : Event) : Except Thrown (Option CreateNotificationDto) :=
  match e.eventType with
  | .str "OrderCreated" => (onOrderCreated e.payload).map some
  | .str "OrderConfirmed" => (onOrderConfirmed e.payload).map some
  | .str "OrderCancelled" => (onOrderCancelled e.payload).map some
  | .str "InventoryReservationFailed" => (onInventoryReservationFailed e.payload).map some
  | _ => .ok none

def Event.type (e : Event) : String := e.eventType.columnText

def Event.meta (e : Event) : EventMeta := ⟨some e.eventId, some e.type, e.correlationId⟩

/-- The program points of `process`. -/
inductive Call
  | received (m : Message)
  | handling (e : Event)
  | marking (e : Event)
  | finished
  | threw (e : Thrown)

structure Answer where
  now : ℕ
  fails : Bool
  deriving DecidableEq, Repr

/--
One step of `process`: the parse with the existence check, the insert of the record, or
the mark. Errors after the check are caught, errors before it are thrown.
-/
def notifyStep : Machine World Call Answer
  | w, .received m, x =>
    match m.event with
    | .error e => some (w, .threw e)
    | .ok none => some (w, .finished)
    | .ok (some e) =>
      if x.fails then some (w, .threw .database)
      else if w.existsByEventIdAndType e.eventId e.type then some (w, .finished)
      else some (w, .handling e)
  | w, .handling e, x =>
    match e.notification with
    | .error _ => some (w, .finished)
    | .ok none => some (w, .finished)
    | .ok (some dto) =>
      if x.fails then some (w, .finished)
      else some (w.create dto e.meta x.now, .marking e)
  | w, .marking e, x =>
    if x.fails ∨ w.existsByEventIdAndType e.eventId e.type then some (w, .finished)
    else some (w.markProcessed e.eventId e.type e.correlationId x.now, .finished)
  | _, .finished, _ => none
  | _, .threw _, _ => none

/--
What can happen: a step of a delivery, a crash after which the message is delivered again,
and a dispatch that writes its copy of a record back.
-/
inductive Action (ι : Type)
  | step (i : ι) (x : Answer)
  | crash (i : ι)
  | save (record : NotificationDelivery)

variable {ι : Type}

/-- Deliveries of the messages to any number of instances of the consumer. -/
def consumerStep [DecidableEq ι] (messages : ι → Message) (q : Pool World Call ι) :
    Action ι → Option (Pool World Call ι)
  | .step i x => q.act notifyStep (i, x)
  | .crash i => some { q with calls := Function.update q.calls i (.received (messages i)) }
  | .save record =>
    if ∃ d ∈ q.store.deliveries, d.id = record.id ∧ d.eventId = record.eventId ∧
        d.eventType = record.eventType then
      some { q with store := q.store.save record }
    else none

/-- The event a delivery has found new and not marked yet. -/
def Call.holds : Call → Option (String × String)
  | .handling e | .marking e => some (e.eventId, e.type)
  | _ => none

def Call.isMarking : Call → Bool
  | .marking _ => true
  | _ => false

/--
A check that finds its event new finds no other delivery of the event between its check
and its mark, and no delivery crashes or fails between its record and its mark.
-/
def Orderly (q : Pool World Call ι) : Action ι → Prop
  | .step i x =>
    match q.calls i with
    | .received m =>
      match m.event with
      | .ok (some e) => q.store.existsByEventIdAndType e.eventId e.type = false →
          ∀ j, j ≠ i → (q.calls j).holds ≠ some (e.eventId, e.type)
      | _ => True
    | .marking _ => x.fails = false
    | _ => True
  | .crash i => (q.calls i).isMarking = false
  | .save _ => True

/-- At most one delivery record exists for each event. -/
def NotifiedOnce (w : World) : Prop :=
  ∀ eventId eventType, (w.notifications eventId eventType).length ≤ 1

inductive NotifyEffect (w : World) (x : Answer) : Call → World → Call → Prop
  | stop (m : Message) (c : Call) (hc : c.holds = none) : NotifyEffect w x (.received m) w c
  | accept (m : Message) (e : Event) (he : m.event = .ok (some e))
    (hnew : w.existsByEventIdAndType e.eventId e.type = false) :
    NotifyEffect w x (.received m) w (.handling e)
  | drop (e : Event) : NotifyEffect w x (.handling e) w .finished
  | create (e : Event) (dto : CreateNotificationDto) :
    NotifyEffect w x (.handling e) (w.create dto e.meta x.now) (.marking e)
  | leave (e : Event) (h : x.fails = true ∨ w.existsByEventIdAndType e.eventId e.type = true) :
    NotifyEffect w x (.marking e) w .finished
  | mark (e : Event) : NotifyEffect w x (.marking e)
      (w.markProcessed e.eventId e.type e.correlationId x.now) .finished

section Effects

variable {w w' : World} {c c' : Call} {x : Answer}

theorem notifyStep_effect (h : notifyStep w c x = some (w', c')) : NotifyEffect w x c w' c' := by
  cases c with
  | received m =>
    simp only [notifyStep] at h
    split at h
    · cases h
      exact .stop m _ rfl
    · cases h
      exact .stop m _ rfl
    · rename_i e he
      split at h
      · cases h
        exact .stop m _ rfl
      · split at h
        · cases h
          exact .stop m _ rfl
        · rename_i hnew
          cases h
          exact .accept m e he (by simpa using hnew)
  | handling e =>
    simp only [notifyStep] at h
    split at h
    · cases h
      exact .drop e
    · cases h
      exact .drop e
    · split at h <;> cases h
      · exact .drop e
      · exact .create e _
  | marking e =>
    simp only [notifyStep] at h
    split at h <;> cases h
    · rename_i hx
      exact .leave e hx
    · exact .mark e
  | finished => cases h
  | threw e => cases h

theorem notifications_create (dto : CreateNotificationDto) (info : EventMeta) (now : ℕ)
    (i t : String) :
    ((w.create dto info now).notifications i t).length =
      (w.notifications i t).length +
        if info.eventId = some i ∧ info.eventType = some t then 1 else 0 := by
  simp only [World.notifications, World.create, List.filter_append, List.length_append,
    List.filter_singleton, World.record]
  by_cases hi : info.eventId = some i <;> by_cases ht : info.eventType = some t <;>
    simp [hi, ht]

/-- Writing a copy of a record back leaves the records of every event. -/
theorem notifications_save (hn : (w.deliveries.map NotificationDelivery.id).Nodup)
    {record d : NotificationDelivery} (hd : d ∈ w.deliveries) (hid : d.id = record.id)
    (hi : d.eventId = record.eventId) (ht : d.eventType = record.eventType) (i t : String) :
    ((w.save record).notifications i t).length = (w.notifications i t).length := by
  simp only [World.notifications, World.save, update, List.filter_map, List.length_map]
  congr 1
  apply List.filter_congr
  intro e he
  by_cases hie : e.id = record.id
  · obtain rfl : e = d := List.inj_on_of_nodup_map hn he hd (hie.trans hid.symm)
    simp [hie, hi, ht]
  · simp [hie]

theorem exists_markProcessed (i t i' t' : String) (k : Option String) (now : ℕ) :
    (w.markProcessed i t k now).existsByEventIdAndType i' t' =
      (w.existsByEventIdAndType i' t' || (i = i' ∧ t = t' : Bool)) := by
  simp [World.markProcessed, World.existsByEventIdAndType]

end Effects

variable {messages : ι → Message} {q q' : Pool World Call ι} {a : Action ι}

/--
An event has at most one record; it has one only when it is marked or about to be, and
none while a delivery that found it new has not created it.
-/
structure Notifying (q : Pool World Call ι) : Prop where
  distinct : (q.store.deliveries.map NotificationDelivery.id).Nodup
  drawn : ∀ d ∈ q.store.deliveries, d.id < q.store.fresh
  once : NotifiedOnce q.store
  apart : ∀ i j, i ≠ j → ∀ k, (q.calls i).holds = some k → (q.calls j).holds ≠ some k
  handling : ∀ i e, q.calls i = .handling e →
    (q.store.notifications e.eventId e.type).length = 0
  known : ∀ i t, (q.store.notifications i t).length ≠ 0 →
    q.store.existsByEventIdAndType i t = true ∨
      ∃ j, (q.calls j).isMarking = true ∧ (q.calls j).holds = some (i, t)

theorem Notifying.save (hq : Notifying q) {record d : NotificationDelivery}
    (hd : d ∈ q.store.deliveries) (hid : d.id = record.id) (hi : d.eventId = record.eventId)
    (ht : d.eventType = record.eventType) :
    Notifying { q with store := q.store.save record } := by
  have hlen := notifications_save hq.distinct hd hid hi ht
  constructor
  · rw [ids_save]
    exact hq.distinct
  · exact id_lt_save hq.drawn
  · intro i t
    rw [hlen]
    exact hq.once i t
  · exact hq.apart
  · intro i e he
    rw [hlen]
    exact hq.handling i e he
  · intro i t h
    rw [hlen] at h
    exact hq.known i t h

section Steps

variable {i : ι} {w' : World} {c' : Call} {x : Answer}

theorem holds_apart [DecidableEq ι] (hq : Notifying q)
    (h : ∀ j, j ≠ i → ∀ k, c'.holds = some k → (q.calls j).holds ≠ some k) :
    ∀ j l, j ≠ l → ∀ k, (Function.update q.calls i c' j).holds = some k →
      (Function.update q.calls i c' l).holds ≠ some k :=
  apart_update (D := fun c d : Call => ∀ k, c.holds = some k → d.holds ≠ some k) hq.apart
    fun j hj => ⟨h j hj, fun k hk hk' => h j hj k hk' hk⟩

/-- A step after which the call holds no event, or the one it held before, stays apart. -/
theorem apart_of_holds [DecidableEq ι] (hq : Notifying q)
    (h : c'.holds = none ∨ c'.holds = (q.calls i).holds) :
    ∀ j l, j ≠ l → ∀ k, (Function.update q.calls i c' j).holds = some k →
      (Function.update q.calls i c' l).holds ≠ some k := by
  apply holds_apart hq
  intro j hj k hk
  rcases h with h | h
  · rw [h] at hk
    cases hk
  · exact hq.apart i j (Ne.symm hj) k (h.symm.trans hk)

theorem marking_update [DecidableEq ι] {k : String × String} (hi : (q.calls i).isMarking = false)
    (h : ∃ j, (q.calls j).isMarking = true ∧ (q.calls j).holds = some k) :
    ∃ j, (Function.update q.calls i c' j).isMarking = true ∧
      (Function.update q.calls i c' j).holds = some k := by
  obtain ⟨j, hm, hk⟩ := h
  have hj : j ≠ i := by
    rintro rfl
    rw [hi] at hm
    cases hm
  exact ⟨j, by rwa [Function.update_of_ne hj], by rwa [Function.update_of_ne hj]⟩

/-- A step that leaves the tables and does not end a mark keeps the invariant. -/
theorem Notifying.quiet [DecidableEq ι] (hq : Notifying q)
    (happart : ∀ j l, j ≠ l → ∀ k, (Function.update q.calls i c' j).holds = some k →
      (Function.update q.calls i c' l).holds ≠ some k)
    (hi : (q.calls i).isMarking = false)
    (hnew : ∀ e, c' = .handling e → (q.store.notifications e.eventId e.type).length = 0) :
    Notifying ⟨q.store, Function.update q.calls i c'⟩ := by
  refine ⟨hq.distinct, hq.drawn, hq.once, happart, ?_, ?_⟩
  · intro j e he
    by_cases hj : j = i
    · subst hj
      exact hnew e (by simpa using he)
    · exact hq.handling j e (by simpa [hj] using he)
  · intro id t h
    exact (hq.known id t h).imp (fun hk => hk) (marking_update hi)

end Steps

theorem Notifying.create [DecidableEq ι] (hq : Notifying q) {i : ι} {e : Event}
    {dto : CreateNotificationDto} {now : ℕ} (hi : q.calls i = .handling e) :
    Notifying ⟨q.store.create dto e.meta now, Function.update q.calls i (.marking e)⟩ := by
  have hlen : ∀ id t, ((q.store.create dto e.meta now).notifications id t).length =
      (q.store.notifications id t).length + if e.eventId = id ∧ e.type = t then 1 else 0 := by
    intro id t
    rw [notifications_create]
    simp [Event.meta]
  have hmine := hq.handling i e hi
  constructor
  · exact nodup_map_concat hq.distinct fun d hd => (hq.drawn d hd).ne
  · exact forall_mem_concat (fun d hd => Nat.lt_succ_of_lt (hq.drawn d hd)) (Nat.lt_succ_self _)
  · intro id t
    rw [hlen]
    split
    · rename_i he
      rw [← he.1, ← he.2, hmine]
    · exact hq.once id t
  · exact apart_of_holds hq (Or.inr (by rw [hi]; rfl))
  · intro j e' he'
    by_cases hj : j = i
    · subst hj
      simp at he'
    · simp only [ne_eq, hj, not_false_eq_true, Function.update_of_ne] at he'
      rw [hlen, hq.handling j e' he']
      have hne : ¬ (e.eventId = e'.eventId ∧ e.type = e'.type) := by
        rintro ⟨hid, ht⟩
        apply hq.apart i j (Ne.symm hj) (e.eventId, e.type) (by rw [hi]; rfl)
        rw [he', hid, ht]
        rfl
      simp [hne]
  · intro id t h
    by_cases he : e.eventId = id ∧ e.type = t
    · refine Or.inr ⟨i, by simp [Call.isMarking], ?_⟩
      obtain ⟨rfl, rfl⟩ := he
      simp [Call.holds]
    · rw [hlen, if_neg he, Nat.add_zero] at h
      exact (hq.known id t h).imp (fun hk => hk)
        (marking_update (by rw [hi]; rfl))

/-- The end of a mark: the event is processed now, or was before. -/
theorem Notifying.settle [DecidableEq ι] (hq : Notifying q) {i : ι} {e : Event} {w' : World}
    (hi : q.calls i = .marking e) (hdel : w'.deliveries = q.store.deliveries)
    (hfresh : w'.fresh = q.store.fresh)
    (hold : ∀ id t, q.store.existsByEventIdAndType id t = true →
      w'.existsByEventIdAndType id t = true)
    (hmine : w'.existsByEventIdAndType e.eventId e.type = true) :
    Notifying ⟨w', Function.update q.calls i .finished⟩ := by
  have hnot : ∀ id t, w'.notifications id t = q.store.notifications id t := by
    intro id t
    rw [World.notifications, hdel, World.notifications]
  constructor
  · rw [hdel]
    exact hq.distinct
  · rw [hdel, hfresh]
    exact hq.drawn
  · intro id t
    rw [hnot]
    exact hq.once id t
  · exact apart_of_holds hq (Or.inl rfl)
  · intro j e' he'
    by_cases hj : j = i
    · subst hj
      simp at he'
    · rw [hnot]
      exact hq.handling j e' (by simpa [hj] using he')
  · intro id t h
    rw [hnot] at h
    rcases hq.known id t h with hk | ⟨j, hm, hk⟩
    · exact Or.inl (hold id t hk)
    · by_cases hj : j = i
      · subst hj
        rw [hi] at hk
        cases hk
        exact Or.inl hmine
      · refine Or.inr ⟨j, ?_, ?_⟩ <;> simpa [hj]

variable [DecidableEq ι]

theorem Notifying.step (hq : Notifying q) (hC : Orderly q a)
    (h : consumerStep messages q a = some q') : Notifying q' := by
  cases a with
  | step i x =>
    obtain ⟨w', c', hM, rfl⟩ := Pool.act_eq_some.mp h
    have he := notifyStep_effect hM
    dsimp only at he ⊢
    generalize hi : q.calls i = c at he
    simp only [Orderly, hi] at hC
    cases he with
    | stop m c' hc =>
      refine hq.quiet (apart_of_holds hq (Or.inl hc)) (by rw [hi]; rfl) ?_
      rintro e rfl
      cases hc
    | accept m e he hnew =>
      simp only [he] at hC
      refine hq.quiet (holds_apart hq ?_) (by rw [hi]; rfl) ?_
      · rintro j hj k ⟨⟩
        exact hC hnew j hj
      · rintro e' ⟨⟩
        by_contra hne
        rcases hq.known e.eventId e.type hne with hk | ⟨j, hm, hk⟩
        · rw [hnew] at hk
          cases hk
        · by_cases hj : j = i
          · rw [hj, hi] at hm
            cases hm
          · exact hC hnew j hj hk
    | drop e =>
      refine hq.quiet (apart_of_holds hq (Or.inl rfl)) (by rw [hi]; rfl) ?_
      rintro e' ⟨⟩
    | create e dto => exact hq.create hi
    | leave e hx =>
      exact hq.settle hi rfl rfl (fun _ _ hk => hk) (hx.resolve_left (by simp [hC]))
    | mark e =>
      refine hq.settle hi rfl rfl ?_ ?_
      · intro id t hk
        rw [exists_markProcessed, hk, Bool.true_or]
      · simp [exists_markProcessed]
  | crash i =>
    cases h
    refine hq.quiet (apart_of_holds hq (Or.inl rfl)) hC ?_
    rintro e ⟨⟩
  | save record =>
    simp only [consumerStep] at h
    split at h
    · rename_i hd
      cases h
      obtain ⟨d, hd, hid, hi, ht⟩ := hd
      exact hq.save hd hid hi ht
    · cases h

/-- Every message is about to be received, and nothing is stored yet. -/
def consumerStart (messages : ι → Message) : Pool World Call ι :=
  ⟨World.empty, fun i => .received (messages i)⟩

/--
In every run in which no event is checked while another delivery of it is between its
check and its mark, and none fails between its record and its mark, every event has at
most one delivery record.
-/
theorem notified_once (messages : ι → Message) (as : List (Action ι))
    (hC : AllSteps (consumerStep messages) Orderly (consumerStart messages) as) :
    Always (consumerStep messages) (fun q => NotifiedOnce q.store) (consumerStart messages) as := by
  refine always_of_allSteps (I := Notifying) (fun _ _ _ hq hC h => hq.step hC h)
    (fun _ hq => hq.once) ?_ hC
  constructor <;> simp [consumerStart, World.empty, NotifiedOnce, World.notifications, Call.holds]

instance [Fintype ι] (q : Pool World Call ι) (a : Action ι) : Decidable (Orderly q a) := by
  unfold Orderly
  split
  · split
    · split <;> infer_instance
    · infer_instance
    · infer_instance
  · infer_instance
  · infer_instance

def confirmation : Message where
  parsed := some (.obj [("orderId", .str "order-1")])
  info := ⟨"order-events", 0, [("event-id", "event-1"), ("event-type", "OrderConfirmed")]⟩

/-- Two deliveries of one message whose checks both come before the first mark. -/
def overlapping : List (Action Bool) :=
  [true, false, true, false, true, false].map fun i => .step i ⟨0, false⟩

theorem notified_twice :
    ∃ q ∈ exec (consumerStep fun _ => confirmation) (consumerStart fun _ => confirmation)
      overlapping, ¬ NotifiedOnce q.store := by
  obtain ⟨q, hq, h⟩ : ∃ q ∈ exec (consumerStep fun _ => confirmation)
      (consumerStart fun _ => confirmation) overlapping,
      (q.store.notifications "event-1" "OrderConfirmed").length = 2 := by decide +kernel
  refine ⟨q, hq, fun hn => ?_⟩
  have := hn "event-1" "OrderConfirmed"
  omega

/-- One delivery crashes after its check, and another is complete before it is repeated. -/
def oneAfterAnother : List (Action Bool) :=
  [.step true ⟨0, false⟩, .crash true] ++
    [false, false, false, true].map fun i => .step i ⟨0, false⟩

theorem notified_once_in_order :
    Always (consumerStep fun _ => confirmation) (fun q => NotifiedOnce q.store)
      (consumerStart fun _ => confirmation) oneAfterAnother :=
  notified_once _ _ (by decide +kernel)

end NotificationService
