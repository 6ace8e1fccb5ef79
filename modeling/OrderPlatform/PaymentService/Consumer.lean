import Mathlib.Data.List.Basic
import OrderPlatform.Runs.Basic
import OrderPlatform.Store.Expiring
import OrderPlatform.Wire.Broker
import OrderPlatform.Wire.Texts

/-! # The consumer's duplicate check

`process` marks an event as seen before it runs the handler. An event whose handler
throws therefore leaves its mark behind, and its redelivery is skipped.
-/

namespace PaymentService

open Runs Store Wire

/-- A topic name; the broker admits no colon in one. -/
structure Topic where
  name : String
  legal : ':' ∉ name.toList
  deriving DecidableEq

def orderEvents : Topic := ⟨"order-events", by decide⟩

structure Meta where
  topic : Topic
  partition : String
  offset : Option String
  headers : List (String × String)

/-- A header under either of two names, the first preferred. -/
def Meta.header (info : Meta) (name other : String) : Option String :=
  (info.headers.lookup name).or (info.headers.lookup other)

/--
A delivery: the value (`none` when it is not JSON), its metadata, the time in seconds,
and what the environment of its handler answers.
-/
structure Delivery (ε : Type*) where
  parsed : Option Json
  info : Meta
  now : ℕ
  answer : ε

/-- What `handleMessage` hands to `process`; an empty message is skipped. -/
def handleMessage {ε : Type*} (topic : Topic) (partition : ℕ) (message : KafkaMessage) (now : ℕ)
    (answer : ε) : Option (Delivery ε) :=
  match message.value with
  | some (.text parsed) => some {
      parsed := parsed
      info := ⟨topic, toString partition, some message.offset, message.decodedHeaders⟩
      now := now
      answer := answer }
  | _ => none

inductive HandlerCall
  | processOrderCreated (data correlationId : Json)
  | processRefundRequired (data correlationId : Json)
  | processInventoryReservationFailed (data correlationId : Json)

/-- The event's type: a header, else a member of the value. -/
def eventType (info : Meta) (parsed : Json) : Except Thrown (Option Json) :=
  match info.header "event-type" "eventType" with
  | some t => .ok (some (.str t))
  | none => parsed.member "eventType"

def Meta.position (info : Meta) : String :=
  match info.offset with
  | none => info.topic.name ++ "-" ++ info.partition
  | some offset =>
    if offset = "" then info.topic.name ++ "-" ++ info.partition
    else info.topic.name ++ "-" ++ info.partition ++ "-" ++ offset

/-- The event's identifier: a header, else a member of the value, else the position. -/
def eventId (info : Meta) (parsed : Json) : Except Thrown Json :=
  match info.header "event-id" "eventId" with
  | some i => .ok (.str i)
  | none => (parsed.member "eventId").map fun i => (present i).getD (.str info.position)

def dedupKey (topic : Topic) (eventId : String) : String :=
  "dedup:" ++ topic.name ++ ":" ++ eventId

theorem dedupKey_inj {t t' : Topic} {i i' : String} (h : dedupKey t i = dedupKey t' i') :
    t = t' ∧ i = i' := by
  obtain ⟨ht, hi⟩ := prefixed_joined_inj rfl t.legal t'.legal h
  exact ⟨by cases t; cases t'; simpa using ht, hi⟩

def payload (parsed : Json) : Except Thrown Json :=
  (parsed.member "payload").map fun p => (present p).getD parsed

def correlationId (info : Meta) (eventId : Json) : Json :=
  ((info.header "correlation-id" "correlationId").map Json.str).getD eventId

/-- The log line of a new event, which writes its type, and the switch on the type. -/
def dispatch (eventType : Option Json) (parsed correlationId : Json) :
    Except Thrown (Option HandlerCall) := do
  let _ ← (eventType.map Json.template).getD (.ok "undefined")
  match eventType with
  | some (.str "OrderCreated") =>
    (payload parsed).map fun data => some (.processOrderCreated data correlationId)
  | some (.str "RefundRequired") =>
    (payload parsed).map fun data => some (.processRefundRequired data correlationId)
  | some (.str "InventoryReservationFailed") =>
    (payload parsed).map fun data => some (.processInventoryReservationFailed data correlationId)
  | _ => .ok none

/-- How a delivery ends: the switch ran through, it was skipped, or `process` threw. -/
inductive Outcome
  | completed | skipped | threw
  deriving DecidableEq, Repr

section Process

variable {σ ε : Type*} (handle : σ → HandlerCall → ε → σ × Except Thrown Unit)

structure Event where
  topic : Topic
  eventId : String
  call : Except Thrown (Option HandlerCall)

/-- What `process` computes up to the duplicate check; it may throw there already. -/
def Delivery.event (d : Delivery ε) : Except Thrown Event :=
  match d.parsed with
  | none => .error .syntaxError
  | some parsed => do
    let type ← eventType d.info parsed
    let id ← eventId d.info parsed
    return ⟨d.info.topic, ← id.template, dispatch type parsed (correlationId d.info id)⟩

structure Consumer (σ : Type*) where
  redis : Expiring String
  store : σ

def Event.run (e : Event) (store : σ) (answer : ε) : σ × Outcome :=
  match e.call with
  | .error _ => (store, .threw)
  | .ok none => (store, .completed)
  | .ok (some call) =>
    match handle store call answer with
    | (store, .ok ()) => (store, .completed)
    | (store, .error _) => (store, .threw)

/-- `KafkaEventProcessor.process`. -/
def process (c : Consumer σ) (d : Delivery ε) : Consumer σ × Outcome :=
  match d.event with
  | .error _ => (c, .threw)
  | .ok e =>
    match c.redis.setNx (dedupKey e.topic e.eventId) d.now 86400 with
    | none => (c, .skipped)
    | some redis =>
      let r := e.run handle c.store d.answer
      (⟨redis, r.1⟩, r.2)

structure Session (σ ε : Type*) where
  consumer : Consumer σ
  history : List (Delivery ε × Outcome)

def Session.deliver (s : Session σ ε) (d : Delivery ε) : Option (Session σ ε) :=
  let r := process handle s.consumer d
  some ⟨r.1, (d, r.2) :: s.history⟩

/-- The two deliveries carry the same topic and event identifier. -/
def SameEvent (d d' : Delivery ε) : Prop :=
  ∃ e e', d.event = .ok e ∧ d'.event = .ok e' ∧ e.topic = e'.topic ∧ e.eventId = e'.eventId

/-- An earlier delivery of the same event ran its handler to completion. -/
def CompletedBefore (history : List (Delivery ε × Outcome)) (d : Delivery ε) : Prop :=
  ∃ x ∈ history, x.2 = .completed ∧ SameEvent x.1 d

/-- Every delivery skipped as a duplicate had been completed before. -/
def NoneLost : List (Delivery ε × Outcome) → Prop
  | [] => True
  | x :: earlier => (x.2 = .skipped → CompletedBefore earlier x.1) ∧ NoneLost earlier

/--
If the delivery takes its mark, its handler call does not throw, unless the event was
completed before.
-/
def Session.Safe (s : Session σ ε) (d : Delivery ε) : Prop :=
  ∀ e, d.event = .ok e → s.consumer.redis.held (dedupKey e.topic e.eventId) d.now = false →
    CompletedBefore s.history d ∨ ∃ call, e.call = .ok call ∧ ∀ c, call = some c →
      (handle s.consumer.store c d.answer).2 = .ok ()

variable {handle} {s t : Session σ ε} {d : Delivery ε} {e : Event}

theorem SameEvent.of_key {d' : Delivery ε} {e' : Event} (hd : d.event = .ok e)
    (hd' : d'.event = .ok e') (h : dedupKey e.topic e.eventId = dedupKey e'.topic e'.eventId) :
    SameEvent d d' := by
  obtain ⟨ht, hi⟩ := dedupKey_inj h
  exact ⟨e, e', hd, hd', ht, hi⟩

theorem CompletedBefore.cons {history : List (Delivery ε × Outcome)}
    (h : CompletedBefore history d) (x : Delivery ε × Outcome) : CompletedBefore (x :: history) d :=
  h.imp fun _ hy => ⟨List.mem_cons_of_mem _ hy.1, hy.2⟩

theorem SameEvent.trans {d₁ d₂ d₃ : Delivery ε} (h : SameEvent d₁ d₂) (h' : SameEvent d₂ d₃) :
    SameEvent d₁ d₃ := by
  obtain ⟨e₁, e₂, h₁, h₂, ht, hi⟩ := h
  obtain ⟨e₂', e₃, h₂', h₃, ht', hi'⟩ := h'
  obtain rfl : e₂ = e₂' := Except.ok.inj (h₂.symm.trans h₂')
  exact ⟨e₁, e₃, h₁, h₃, ht.trans ht', hi.trans hi'⟩

theorem SameEvent.symm {d₁ d₂ : Delivery ε} (h : SameEvent d₁ d₂) : SameEvent d₂ d₁ := by
  obtain ⟨e₁, e₂, h₁, h₂, ht, hi⟩ := h
  exact ⟨e₂, e₁, h₂, h₁, ht.symm, hi.symm⟩

theorem CompletedBefore.trans {history : List (Delivery ε × Outcome)} {d' : Delivery ε}
    (h : CompletedBefore history d) (hs : SameEvent d d') : CompletedBefore history d' :=
  h.imp fun _ hx => ⟨hx.1, hx.2.1, hx.2.2.trans hs⟩

/-- Every mark was left by an event that has been completed, and nothing was lost so far. -/
structure Marked (s : Session σ ε) : Prop where
  completed : ∀ d e, d.event = .ok e → s.consumer.redis (dedupKey e.topic e.eventId) ≠ none →
    CompletedBefore s.history d
  noneLost : NoneLost s.history

theorem process_of_held (c : Consumer σ) (he : d.event = .ok e)
    (h : c.redis.held (dedupKey e.topic e.eventId) d.now = true) :
    process handle c d = (c, .skipped) := by
  simp only [process, he, Expiring.setNx, h, if_true]

theorem process_of_free (c : Consumer σ) (he : d.event = .ok e)
    (h : c.redis.held (dedupKey e.topic e.eventId) d.now = false) :
    process handle c d =
      (⟨Function.update c.redis (dedupKey e.topic e.eventId) (some (d.now + 86400)),
        (e.run handle c.store d.answer).1⟩, (e.run handle c.store d.answer).2) := by
  simp only [process, he, Expiring.setNx, h, Bool.false_eq_true, if_false]

theorem process_cases (handle : σ → HandlerCall → ε → σ × Except Thrown Unit) (c : Consumer σ)
    (d : Delivery ε) :
    (process handle c d).1.redis = c.redis ∧ (process handle c d).2 = .threw ∨
    ∃ e, d.event = .ok e ∧
      ((process handle c d).1.redis = c.redis ∧ (process handle c d).2 = .skipped ∧
          c.redis.held (dedupKey e.topic e.eventId) d.now = true ∨
        c.redis.held (dedupKey e.topic e.eventId) d.now = false ∧
          c.redis.setNx (dedupKey e.topic e.eventId) d.now 86400 =
            some (process handle c d).1.redis ∧
          (process handle c d).2 = (e.run handle c.store d.answer).2) := by
  unfold process
  cases he : d.event with
  | error x => exact Or.inl ⟨rfl, rfl⟩
  | ok e =>
    right
    refine ⟨e, rfl, ?_⟩
    cases hs : c.redis.setNx (dedupKey e.topic e.eventId) d.now 86400 with
    | none => exact Or.inl ⟨by simp [hs], by simp [hs], Expiring.setNx_eq_none.mp hs⟩
    | some redis =>
      refine Or.inr ⟨?_, by simp [hs], by simp [hs]⟩
      rw [← Bool.not_eq_true, ← Expiring.setNx_eq_none, hs]
      simp

theorem Event.run_ne_skipped (store : σ) (answer : ε) :
    (e.run handle store answer).2 ≠ .skipped := by
  unfold Event.run
  split
  · simp
  · simp
  · split <;> simp

theorem Event.run_completed {store : σ} {answer : ε} :
    (e.run handle store answer).2 = .completed ↔ ∃ call, e.call = .ok call ∧
      ∀ c, call = some c → (handle store c answer).2 = .ok () := by
  unfold Event.run
  cases hcall : e.call with
  | error x => simp
  | ok call =>
    cases call with
    | none => simp
    | some c =>
      rcases hh : handle store c answer with ⟨store', x | x⟩ <;> simp [hh]

theorem Marked.deliver (hs : Marked s) (hsafe : s.Safe handle d)
    (h : s.deliver handle d = some t) : Marked t := by
  cases h
  rcases process_cases handle s.consumer d with
    ⟨hr, ho⟩ | ⟨e, he, ⟨hr, ho, hheld⟩ | ⟨hfree, hr, ho⟩⟩
  · constructor
    · intro d' e' hd' hm
      exact (hs.completed d' e' hd' (hr ▸ hm)).cons _
    · exact ⟨by simp [ho], hs.noneLost⟩
  · constructor
    · intro d' e' hd' hm
      exact (hs.completed d' e' hd' (hr ▸ hm)).cons _
    · exact ⟨fun _ => hs.completed d e he (Expiring.ne_none_of_held hheld), hs.noneLost⟩
  · constructor
    · intro d' e' hd' hm
      rcases Expiring.of_setNx hr hm with hk | hm
      · have hsame : SameEvent d d' := SameEvent.of_key he hd' hk.symm
        rcases hsafe e he hfree with hc | ⟨call, hcall, hok⟩
        · exact (hc.trans hsame).cons _
        · exact ⟨_, List.mem_cons_self, ho.trans (Event.run_completed.mpr ⟨call, hcall, hok⟩),
            hsame⟩
      · exact (hs.completed d' e' hd' hm).cons _
    · exact ⟨fun hsk => absurd (ho.symm.trans hsk) (Event.run_ne_skipped _ _), hs.noneLost⟩

def Session.start (store : σ) : Session σ ε := ⟨⟨fun _ => none, store⟩, []⟩

theorem marked_start (store : σ) : Marked (Session.start store : Session σ ε) :=
  ⟨fun _ _ _ h => absurd rfl h, trivial⟩

variable (handle)

/--
In every run in which no delivery that takes its mark then fails, unless the event was
completed before, no event is lost.
-/
theorem none_lost_of_safe (store : σ) (ds : List (Delivery ε))
    (h : AllSteps (Session.deliver handle) (Session.Safe handle) (Session.start store) ds) :
    Always (Session.deliver handle) (fun s => NoneLost s.history) (Session.start store) ds :=
  always_of_allSteps (I := Marked) (fun _ _ _ hs hC h => hs.deliver hC h) (fun _ hs => hs.noneLost)
    (marked_start store) h

variable {handle}

/-- An unsafe delivery is lost as soon as it is redelivered in its mark's lifetime. -/
theorem lost_of_unsafe {u : Session σ ε} {r : Delivery ε} (hd : ¬ s.Safe handle d)
    (hsame : SameEvent d r) (hnow : r.now < d.now + 86400) (ht : s.deliver handle d = some t)
    (hu : t.deliver handle r = some u) : ¬ NoneLost u.history := by
  simp only [Session.Safe, not_forall, not_or] at hd
  obtain ⟨e, he, hfree, hnew, hfail⟩ := hd
  obtain ⟨e₀, e', he₀, he', htopic, hid⟩ := id hsame
  obtain rfl : e = e₀ := Except.ok.inj (he.symm.trans he₀)
  have hne : (e.run handle s.consumer.store d.answer).2 ≠ .completed := fun hc =>
    hfail (Event.run_completed.mp hc)
  have hheld : Expiring.held (Function.update s.consumer.redis (dedupKey e.topic e.eventId)
      (some (d.now + 86400))) (dedupKey e'.topic e'.eventId) r.now = true := by
    rw [← htopic, ← hid, Expiring.held_update]
    exact decide_eq_true hnow
  simp only [Session.deliver, process_of_free s.consumer he hfree, Option.some.injEq] at ht
  subst ht
  rw [Session.deliver, process_of_held _ he' hheld] at hu
  cases hu
  rintro ⟨hlost, -⟩
  obtain ⟨x, hx, hc, hxr⟩ := hlost rfl
  rcases List.mem_cons.mp hx with rfl | hx
  · exact hne hc
  · exact hnew ⟨x, hx, hc, hxr.trans hsame.symm⟩

end Process

def transient (store : Unit) (_ : HandlerCall) (ok : Bool) : Unit × Except Thrown Unit :=
  (store, if ok then .ok () else .error .database)

def sampleDelivery (now : ℕ) (ok : Bool) : Delivery Bool where
  parsed := some (.obj [("orderId", .str "order-1"), ("amount", .num 100)])
  info := ⟨orderEvents, "0", some "7",
    [("event-id", "evt-1"), ("event-type", "OrderCreated")]⟩
  now := now
  answer := ok

theorem sampleDelivery_event (now : ℕ) (ok : Bool) : (sampleDelivery now ok).event =
    .ok ⟨orderEvents, "evt-1", .ok (some (.processOrderCreated
      (.obj [("orderId", .str "order-1"), ("amount", .num 100)]) (.str "evt-1")))⟩ := by
  simp [Delivery.event, sampleDelivery, eventType, eventId, Meta.header, List.lookup_cons, dispatch,
    payload, correlationId, present, Json.member, Except.map, bind, Except.bind, pure, Except.pure]

/-- The handler fails, the message is redelivered and skipped: the event is lost. -/
theorem redelivery_skipped :
    ∃ s ∈ exec (Session.deliver transient) (Session.start ())
      [sampleDelivery 0 false, sampleDelivery 5 true], ¬ NoneLost s.history := by
  refine ⟨_, rfl, lost_of_unsafe (d := sampleDelivery 0 false) (r := sampleDelivery 5 true)
    (fun hs => ?_) ⟨_, _, sampleDelivery_event _ _, sampleDelivery_event _ _, rfl, rfl⟩ (by decide)
    rfl rfl⟩
  rcases hs _ (sampleDelivery_event _ _) rfl with ⟨x, hx, -⟩ | ⟨call, hc, hok⟩
  · cases hx
  · cases hc
    cases hok _ rfl

theorem redelivery_of_handled :
    Always (Session.deliver transient) (fun s => NoneLost s.history) (Session.start ())
      [sampleDelivery 0 true, sampleDelivery 5 true] := by
  refine none_lost_of_safe transient () _
    ⟨fun e he _ => ?_, fun s _ => ⟨fun e he _ => ?_, fun _ _ => trivial⟩⟩
  all_goals
    obtain rfl := Except.ok.inj ((sampleDelivery_event _ _).symm.trans he)
    exact Or.inr ⟨_, rfl, fun c _ => rfl⟩

end PaymentService
