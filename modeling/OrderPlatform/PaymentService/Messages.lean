import OrderPlatform.PaymentService.Consumer

/-! # Messages the payment consumer throws on

`process` parses the value, reads its members and writes its log line without a `try`, so
what is thrown there reaches the consumer's client, which delivers the message again.
-/

namespace PaymentService

open Store Wire

variable {σ ε : Type*} (handle : σ → HandlerCall → ε → σ × Except Thrown Unit)

/-- `KafkaConsumerService.handleMessage`. -/
def receive (c : Consumer σ) (topic : Topic) (partition : ℕ) (message : KafkaMessage) (now : ℕ)
    (answer : ε) : Consumer σ × Outcome :=
  match handleMessage topic partition message now answer with
  | none => (c, .skipped)
  | some d => process handle c d

/-- The types that have a handler. -/
def handledTypes : List String := ["OrderCreated", "RefundRequired", "InventoryReservationFailed"]

/--
What keeps the switch from throwing: the type has a text, and if it has a handler the value
is not `null` and the handler does not throw.
-/
structure Dispatches (c : Consumer σ) (d : Delivery ε) (parsed id : Json) (type : Option Json) :
    Prop where
  text : ∀ t, type = some t → t.convertible = true
  value : ∀ t ∈ handledTypes, type = some (.str t) → parsed ≠ .null
  handler : ∀ call, dispatch type parsed (correlationId d.info id) = .ok (some call) →
    (handle c.store call d.answer).2 = .ok ()

/--
What keeps `process` from throwing: the value is JSON, and `null` only under headers for
both of its fields; its identifier has a text; and unless it is held as a duplicate, the
switch does not throw.
-/
def Delivery.Tolerated (c : Consumer σ) (d : Delivery ε) : Prop :=
  ∃ parsed, d.parsed = some parsed ∧
    (parsed = .null → d.info.header "event-type" "eventType" ≠ none ∧
      d.info.header "event-id" "eventId" ≠ none) ∧
    ∀ id type, eventId d.info parsed = .ok id → eventType d.info parsed = .ok type →
      id.convertible = true ∧ (c.redis.held (dedupKey d.info.topic id.text) d.now = false →
        Dispatches handle c d parsed id type)

variable {handle} {c : Consumer σ} {d : Delivery ε} {parsed : Json}

theorem eventType_ok (info : Meta) :
    (∃ t, eventType info parsed = .ok t) ↔
      (parsed = .null → info.header "event-type" "eventType" ≠ none) := by
  unfold eventType
  cases info.header "event-type" "eventType" <;> cases parsed <;> simp [Json.member]

theorem eventId_ok (info : Meta) :
    (∃ i, eventId info parsed = .ok i) ↔
      (parsed = .null → info.header "event-id" "eventId" ≠ none) := by
  unfold eventId
  cases info.header "event-id" "eventId" <;> cases parsed <;> simp [Json.member, Except.map]

theorem payload_ok : (∃ p, payload parsed = .ok p) ↔ parsed ≠ .null := by
  cases parsed <;> simp [payload, Json.member, Except.map]

theorem map_payload_ok {α : Type*} (f : Json → α) :
    (∃ call, (payload parsed).map f = .ok call) ↔ parsed ≠ .null := by
  rw [← payload_ok]
  cases payload parsed <;> simp [Except.map]

/-- The switch reads the value's payload for the types that have a handler. -/
theorem dispatch_ok (type : Option Json) (correlationId : Json) :
    (∃ call, dispatch type parsed correlationId = .ok call) ↔
      (∀ t, type = some t → t.convertible = true) ∧
        ∀ t ∈ handledTypes, type = some (.str t) → parsed ≠ .null := by
  by_cases hc : ∀ t, type = some t → t.convertible = true
  · have hl : (type.map Json.template).getD (.ok "undefined") =
        .ok ((type.map Json.text).getD "undefined") := by
      cases type with
      | none => rfl
      | some t => exact if_pos (hc t rfl)
    rw [and_iff_right hc]
    simp only [dispatch, hl, bind, Except.bind]
    split
    · simp [map_payload_ok, handledTypes]
    · simp [map_payload_ok, handledTypes]
    · simp [map_payload_ok, handledTypes]
    · rename_i h₁ h₂ h₃
      refine iff_of_true ⟨none, rfl⟩ fun t ht htype => ?_
      simp only [handledTypes, List.mem_cons, List.not_mem_nil, or_false] at ht
      rcases ht with rfl | rfl | rfl
      · exact absurd htype h₁
      · exact absurd htype h₂
      · exact absurd htype h₃
  · refine iff_of_false ?_ fun h => hc h.1
    push Not at hc
    obtain ⟨t, rfl, ht⟩ := hc
    simp [dispatch, Json.template, ht, bind, Except.bind]

theorem tolerated_iff {id : Json} {type : Option Json} (hp : d.parsed = some parsed)
    (hi : eventId d.info parsed = .ok id) (ht : eventType d.info parsed = .ok type) :
    d.Tolerated handle c ↔ id.convertible = true ∧
      (c.redis.held (dedupKey d.info.topic id.text) d.now = false →
        Dispatches handle c d parsed id type) := by
  constructor
  · rintro ⟨parsed', hp', -, h⟩
    cases hp.symm.trans hp'
    exact h id type hi ht
  · intro h
    refine ⟨parsed, hp, fun hn => ⟨(eventType_ok d.info).mp ⟨type, ht⟩ hn,
      (eventId_ok d.info).mp ⟨id, hi⟩ hn⟩, fun id' type' hi' ht' => ?_⟩
    cases hi.symm.trans hi'
    cases ht.symm.trans ht'
    exact h

theorem Event.run_ne_threw {e : Event} {store : σ} {answer : ε} :
    (e.run handle store answer).2 ≠ .threw ↔ ∃ call, e.call = .ok call ∧
      ∀ h, call = some h → (handle store h answer).2 = .ok () := by
  rw [← Event.run_completed]
  have hs : (e.run handle store answer).2 ≠ .skipped := Event.run_ne_skipped store answer
  cases ho : (e.run handle store answer).2 <;> simp_all

/-- `process` returns normally exactly on the deliveries it tolerates. -/
theorem process_ne_threw : (process handle c d).2 ≠ .threw ↔ d.Tolerated handle c := by
  cases hp : d.parsed with
  | none => simp [process, Delivery.event, hp, Delivery.Tolerated]
  | some parsed =>
    rcases ht : eventType d.info parsed with x | type
    · refine iff_of_false (by simp [process, Delivery.event, hp, ht, bind, Except.bind]) ?_
      rintro ⟨parsed', hp', hnull, -⟩
      cases hp.symm.trans hp'
      obtain ⟨t, ht'⟩ := (eventType_ok d.info).mpr fun h => (hnull h).1
      cases ht.symm.trans ht'
    rcases hi : eventId d.info parsed with x | id
    · refine iff_of_false (by simp [process, Delivery.event, hp, ht, hi, bind, Except.bind]) ?_
      rintro ⟨parsed', hp', hnull, -⟩
      cases hp.symm.trans hp'
      obtain ⟨i, hi'⟩ := (eventId_ok d.info).mpr fun h => (hnull h).2
      cases hi.symm.trans hi'
    rw [tolerated_iff hp hi ht]
    cases hc : id.convertible with
    | false => simp [process, Delivery.event, hp, ht, hi, bind, Except.bind, Json.template, hc]
    | true =>
      have he : d.event = .ok ⟨d.info.topic, id.text,
          dispatch type parsed (correlationId d.info id)⟩ := by
        simp only [Delivery.event, hp, ht, hi, bind, Except.bind, Json.template, hc, if_true, pure,
          Except.pure]
      cases hh : c.redis.held (dedupKey d.info.topic id.text) d.now with
      | true => simp [process_of_held c he hh]
      | false =>
        rw [process_of_free c he hh, Event.run_ne_threw]
        simp only [true_and, forall_const]
        constructor
        · rintro ⟨call, hcall, hok⟩
          have hd := (dispatch_ok type _).mp ⟨call, hcall⟩
          refine ⟨hd.1, hd.2, fun h hh' => ?_⟩
          cases hcall.symm.trans hh'
          exact hok h rfl
        · rintro ⟨htext, hvalue, hhandler⟩
          obtain ⟨call, hcall⟩ := (dispatch_ok type (correlationId d.info id)).mpr ⟨htext, hvalue⟩
          exact ⟨call, hcall, fun h hh' => hhandler h (hh' ▸ hcall)⟩

end PaymentService
