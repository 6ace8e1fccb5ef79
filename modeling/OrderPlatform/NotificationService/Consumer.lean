import OrderPlatform.NotificationService.Events

/-! # The notification consumer

`process` with database statements that may fail. What its handlers throw is caught, what
its existence check throws is not. Its log lines write the event's type and identifier,
and a value that has no text makes them throw.
-/

namespace NotificationService

open Runs Store Wire

/-- The database statements of `process`, each of which it makes once at most. -/
inductive Statement
  | countProcessed | saveDelivery | saveProcessed
  deriving DecidableEq, Repr

/-- A log line that writes the type and the identifier of an event. -/
def logEvent (eventType eventId : Json) : Except Thrown Unit := do
  let _ ← eventType.template
  let _ ← eventId.template

/-- A log line that writes the type of an event. -/
def logType (eventType : Json) : Except Thrown Unit := do
  let _ ← eventType.template

/-- The identifier as `process` has read it, before the database makes a text of it. -/
def Message.eventId (m : Message) : Json :=
  match m.parsed with
  | none => .null
  | some parsed =>
    match headerOrMember m.info parsed "event-id" "eventId" with
    | .ok eventId => eventId
    | .error _ => .null

namespace Attempt

variable (fails : Statement → Bool)

/-- The block of `process` under its second `try`. -/
def body (w : World) (e : Event) (eventId : Json) (now : ℕ) : Conclusion World :=
  match e.notification with
  | .error x => ⟨w, false, .error x⟩
  | .ok none => ⟨w, false, logType e.eventType⟩
  | .ok (some dto) =>
    if fails .saveDelivery then ⟨w, false, .error .database⟩
    else
      let w := w.create dto e.meta now
      if fails .saveProcessed ∨ w.existsByEventIdAndType e.eventId e.type then
        ⟨w, true, .error .database⟩
      else
        ⟨w.markProcessed e.eventId e.type e.correlationId now, true, logEvent e.eventType eventId⟩

/-- `KafkaEventProcessor.process`. -/
def process (w : World) (m : Message) (now : ℕ) : Conclusion World :=
  match m.event with
  | .error x => ⟨w, false, .error x⟩
  | .ok none => ⟨w, false, .ok ()⟩
  | .ok (some e) =>
    if fails .countProcessed then ⟨w, false, .error .database⟩
    else if w.existsByEventIdAndType e.eventId e.type then
      ⟨w, false, logEvent e.eventType m.eventId⟩
    else (body fails w e m.eventId now).caught (logEvent e.eventType m.eventId)

/-- `KafkaConsumerService.handleMessage`. -/
def receive (w : World) (topic : String) (partition : ℕ) (message : KafkaMessage) (now : ℕ) :
    Conclusion World :=
  match handleMessage topic partition message with
  | none => ⟨w, false, .ok ()⟩
  | some m => process fails w m now

end Attempt

/-- The types that have a handler. -/
def handledTypes : List String :=
  ["OrderCreated", "OrderConfirmed", "OrderCancelled", "InventoryReservationFailed"]

/--
The message is well formed: its value has a text throughout, and it is an event with an
identifier and a type that has a handler.
-/
structure Message.Carries (m : Message) (e : Event) : Prop where
  plain : ∀ parsed, m.parsed = some parsed → parsed.plain = true
  event : m.event = .ok (some e)
  handled : ∃ t ∈ handledTypes, e.eventType = .str t

/--
What keeps `process` from throwing while no statement fails: a `null` comes with both of
its fields in headers, one of them empty; the type of an event has a text, and so has its
identifier unless the event is new and its type has no handler.
-/
structure Message.Tolerated (w : World) (m : Message) : Prop where
  null : m.parsed = some .null → ∃ eventId eventType,
    m.info.header "event-id" "eventId" = some eventId ∧
    m.info.header "event-type" "eventType" = some eventType ∧ (eventId = "" ∨ eventType = "")
  text : ∀ e, m.event = .ok (some e) → e.eventType.convertible = true ∧
    (m.eventId.convertible = true ∨ w.existsByEventIdAndType e.eventId e.type = false ∧
      ∀ t ∈ handledTypes, e.eventType ≠ .str t)

section Handlers

variable {payload : Json} {k : Option Json} {name : String}

theorem textMember_ok (h : payload.member "orderId" = .ok k) (name d : String) :
    ∃ s, textMember payload name d = .ok s := by
  obtain ⟨m, hm⟩ := Json.member_of_ok h name
  simp only [textMember, hm, Except.map]
  exact ⟨_, rfl⟩

theorem templateMember_ok (hp : payload.plain = true) (h : payload.member "orderId" = .ok k)
    (name d : String) : ∃ s, templateMember payload name d = .ok s := by
  obtain ⟨m, hm⟩ := Json.member_of_ok h name
  obtain ⟨s, hs⟩ := Json.template_of_plain (Json.plain_present (d := .str d) hp hm rfl)
  exact ⟨s, by simp only [templateMember, hm, bind, Except.bind, hs]⟩

theorem onOrderCreated_ok (hp : payload.plain = true) (h : payload.member "orderId" = .ok k) :
    ∃ dto, onOrderCreated payload = .ok dto := by
  obtain ⟨recipient, hr⟩ := textMember_ok h "recipientEmail" "customer@example.com"
  obtain ⟨number, hn⟩ := Json.member_of_ok h "orderNumber"
  obtain ⟨total, ht⟩ := Json.member_of_ok h "totalAmount"
  obtain ⟨currency, hc⟩ := templateMember_ok hp h "currency" "USD"
  have hid : ((present k).getD (.str "unknown")).plain = true := Json.plain_present hp h rfl
  have hnum : (((present number).or (present k)).getD (.str "unknown")).plain = true := by
    cases hpn : present number with
    | none => exact hid
    | some j => exact Json.plain_member hp (hn.trans (congrArg _ (mem_of_present hpn)))
  obtain ⟨orderNumber, ho⟩ := Json.template_of_plain hnum
  simp only [onOrderCreated, hr, h, hn, ht, hc, ho, bind, Except.bind, pure, Except.pure]
  cases hpt : present total with
  | none => exact ⟨_, rfl⟩
  | some j =>
    obtain ⟨s, hs⟩ := Json.template_of_plain
      (Json.plain_member hp (ht.trans (congrArg _ (mem_of_present hpt))))
    simp only [hs]
    exact ⟨_, rfl⟩

theorem onOrderConfirmed_ok (hp : payload.plain = true) (h : payload.member "orderId" = .ok k) :
    ∃ dto, onOrderConfirmed payload = .ok dto := by
  obtain ⟨recipient, hr⟩ := textMember_ok h "recipientEmail" "customer@example.com"
  obtain ⟨orderId, ho⟩ := templateMember_ok hp h "orderId" "unknown"
  simp only [onOrderConfirmed, hr, ho, bind, Except.bind, pure, Except.pure]
  exact ⟨_, rfl⟩

theorem onOrderCancelled_ok (hp : payload.plain = true) (h : payload.member "orderId" = .ok k) :
    ∃ dto, onOrderCancelled payload = .ok dto := by
  obtain ⟨recipient, hr⟩ := textMember_ok h "recipientEmail" "customer@example.com"
  obtain ⟨orderId, ho⟩ := templateMember_ok hp h "orderId" "unknown"
  obtain ⟨reason, hre⟩ := Json.member_of_ok h "reason"
  simp only [onOrderCancelled, hr, ho, hre, bind, Except.bind, pure, Except.pure]
  cases hpr : (present reason).filter Json.truthy with
  | none => exact ⟨_, rfl⟩
  | some j =>
    have hj : present reason = some j := (Option.filter_eq_some_iff.mp hpr).1
    obtain ⟨s, hs⟩ := Json.template_of_plain
      (Json.plain_member hp (hre.trans (congrArg _ (mem_of_present hj))))
    simp only [hs]
    exact ⟨_, rfl⟩

theorem onInventoryReservationFailed_ok (hp : payload.plain = true)
    (h : payload.member "orderId" = .ok k) :
    ∃ dto, onInventoryReservationFailed payload = .ok dto := by
  obtain ⟨recipient, hr⟩ := textMember_ok h "recipientEmail" "customer@example.com"
  obtain ⟨orderId, ho⟩ := templateMember_ok hp h "orderId" "unknown"
  simp only [onInventoryReservationFailed, hr, ho, bind, Except.bind, pure, Except.pure]
  exact ⟨_, rfl⟩

end Handlers

section Process

variable {fails : Statement → Bool} {w : World} {m : Message} {e : Event} {now : ℕ}

theorem logEvent_ok (eventType eventId : Json) :
    logEvent eventType eventId = .ok () ↔
      eventType.convertible = true ∧ eventId.convertible = true := by
  cases ht : eventType.convertible <;> cases hi : eventId.convertible <;>
    simp [logEvent, Json.template, ht, hi, bind, Except.bind, pure, Except.pure]

theorem logType_ok (eventType : Json) :
    logType eventType = .ok () ↔ eventType.convertible = true := by
  cases ht : eventType.convertible <;>
    simp [logType, Json.template, ht, bind, Except.bind, pure, Except.pure]

/-- What an event is made of was read from a value, which is not `null`. -/
theorem Message.event_some (h : m.event = .ok (some e)) : ∃ parsed eventId payload,
    m.parsed = some parsed ∧ headerOrMember m.info parsed "event-id" "eventId" = .ok eventId ∧
    headerOrMember m.info parsed "event-type" "eventType" = .ok e.eventType ∧
    parsed.member "payload" = .ok payload ∧ e.payload = (present payload).getD parsed ∧
    m.eventId = eventId := by
  cases hp : m.parsed with
  | none => simp [event, hp] at h
  | some parsed =>
    simp only [event, hp, bind, Except.bind] at h
    cases hi : headerOrMember m.info parsed "event-id" "eventId" with
    | error x => simp [hi] at h
    | ok eventId =>
      cases ht : headerOrMember m.info parsed "event-type" "eventType" with
      | error x => simp [hi, ht] at h
      | ok eventType =>
        simp only [hi, ht] at h
        split at h
        · cases h
        · cases hm : parsed.member "payload" with
          | error x => simp [hm] at h
          | ok payload =>
            simp only [hm] at h
            cases h
            exact ⟨parsed, eventId, payload, rfl, hi, ht, hm, rfl,
              by simp [Message.eventId, hp, hi]⟩

/-- The handler of a well-formed event has a notification to create. -/
theorem Message.Carries.notification (h : m.Carries e) :
    ∃ dto, e.notification = .ok (some dto) := by
  obtain ⟨parsed, eventId, payload, hp, -, -, hm, hpay, -⟩ := Message.event_some h.event
  have hplain : e.payload.plain = true :=
    hpay ▸ Json.plain_present (h.plain _ hp) hm (h.plain _ hp)
  obtain ⟨k, hk⟩ : ∃ k, e.payload.member "orderId" = .ok k := by
    rw [hpay]
    cases hpr : present payload with
    | none => exact Json.member_of_ok hm "orderId"
    | some j =>
      cases j with
      | null => exact absurd hpr (present_ne_null payload)
      | _ => exact ⟨_, rfl⟩
  obtain ⟨t, ht, htype⟩ := h.handled
  simp only [handledTypes, List.mem_cons, List.not_mem_nil, or_false] at ht
  rcases ht with rfl | rfl | rfl | rfl
  · obtain ⟨dto, hd⟩ := onOrderCreated_ok hplain hk
    exact ⟨dto, by simp [Event.notification, htype, hd, Except.map]⟩
  · obtain ⟨dto, hd⟩ := onOrderConfirmed_ok hplain hk
    exact ⟨dto, by simp [Event.notification, htype, hd, Except.map]⟩
  · obtain ⟨dto, hd⟩ := onOrderCancelled_ok hplain hk
    exact ⟨dto, by simp [Event.notification, htype, hd, Except.map]⟩
  · obtain ⟨dto, hd⟩ := onInventoryReservationFailed_ok hplain hk
    exact ⟨dto, by simp [Event.notification, htype, hd, Except.map]⟩

/-- The log lines of a well-formed event can be written. -/
theorem Message.Carries.log (h : m.Carries e) : logEvent e.eventType m.eventId = .ok () := by
  obtain ⟨parsed, eventId, payload, hp, hi, -, -, -, hid⟩ := Message.event_some h.event
  obtain ⟨t, -, htype⟩ := h.handled
  refine (logEvent_ok _ _).mpr ⟨by rw [htype]; rfl, ?_⟩
  rw [hid]
  apply Json.convertible_of_plain
  unfold headerOrMember at hi
  split at hi
  · cases hi
    rfl
  · cases hm : parsed.member "eventId" with
    | error x => simp [hm, Except.map] at hi
    | ok k =>
      simp only [hm, Except.map, Except.ok.injEq] at hi
      subst hi
      cases k with
      | none => rfl
      | some j => exact Json.plain_member (h.plain _ hp) hm

/--
An event is not dropped exactly when its existence check fails, which stops the consumer,
or it was recorded before, or the insert of its delivery record does not fail.
-/
theorem Attempt.notDropped_iff (h : m.Carries e) :
    (process fails w m now).NotDropped (w.existsByEventIdAndType e.eventId e.type = true) ↔
      fails .countProcessed = true ∨ w.existsByEventIdAndType e.eventId e.type = true ∨
        fails .saveDelivery = false := by
  obtain ⟨dto, hd⟩ := h.notification
  have hl := h.log
  cases hc : fails .countProcessed with
  | true => simp [process, h.event, hc, Conclusion.NotDropped]
  | false =>
    cases hx : w.existsByEventIdAndType e.eventId e.type with
    | true => simp [process, h.event, hc, hx, Conclusion.NotDropped]
    | false =>
      have hx' : (w.create dto e.meta now).existsByEventIdAndType e.eventId e.type = false := hx
      cases hs : fails .saveDelivery <;> cases hm : fails .saveProcessed <;>
        simp [process, h.event, hc, hx, hx', body, hd, hs, hm, hl, Conclusion.NotDropped,
          Conclusion.caught]

/-- The steps of a delivery that nothing interrupts leave the store that `process` leaves. -/
theorem Attempt.process_solo (fails : Statement → Bool) (w : World) (m : Message) (now : ℕ) :
    ∃ n c, exec (Machine.solo notifyStep) (w, .received m)
      ([⟨now, fails .countProcessed⟩, ⟨now, fails .saveDelivery⟩, ⟨now, fails .saveProcessed⟩].take
        n) = some ((process fails w m now).store, c) := by
  unfold process
  rcases he : m.event with y | _ | e
  · exact ⟨1, .threw y, by simp [exec_cons, Machine.solo, notifyStep, he]⟩
  · exact ⟨1, .finished, by simp [exec_cons, Machine.solo, notifyStep, he]⟩
  cases hc : fails .countProcessed with
  | true => exact ⟨1, .threw .database, by simp [exec_cons, Machine.solo, notifyStep, he]⟩
  | false =>
    cases hx : w.existsByEventIdAndType e.eventId e.type with
    | true => exact ⟨1, .finished, by simp [exec_cons, Machine.solo, notifyStep, he, hx]⟩
    | false =>
      simp only [Bool.false_eq_true, if_false, Conclusion.caught, body]
      rcases hn : e.notification with y | _ | dto
      · exact ⟨2, .finished, by simp [exec_cons, Machine.solo, notifyStep, he, hx, hn]⟩
      · exact ⟨2, .finished, by simp [exec_cons, Machine.solo, notifyStep, he, hx, hn]⟩
      have hx' : (w.create dto e.meta now).existsByEventIdAndType e.eventId e.type = false := hx
      refine ⟨if fails .saveDelivery then 2 else 3, .finished, ?_⟩
      cases hd : fails .saveDelivery <;> cases hm : fails .saveProcessed <;>
        simp [exec_cons, Machine.solo, notifyStep, he, hx, hn, hx']

theorem notification_none :
    e.notification = .ok none ↔ ∀ t ∈ handledTypes, e.eventType ≠ .str t := by
  have hmap : ∀ x : Except Thrown CreateNotificationDto, x.map some ≠ .ok none := by
    intro x
    cases x <;> simp [Except.map]
  unfold Event.notification
  split
  · rename_i h
    exact iff_of_false (hmap _) fun hn => hn "OrderCreated" (by simp [handledTypes]) h
  · rename_i h
    exact iff_of_false (hmap _) fun hn => hn "OrderConfirmed" (by simp [handledTypes]) h
  · rename_i h
    exact iff_of_false (hmap _) fun hn => hn "OrderCancelled" (by simp [handledTypes]) h
  · rename_i h
    exact iff_of_false (hmap _) fun hn => hn "InventoryReservationFailed" (by simp [handledTypes]) h
  · rename_i h₁ h₂ h₃ h₄
    refine iff_of_true rfl fun t ht htype => ?_
    simp only [handledTypes, List.mem_cons, List.not_mem_nil, or_false] at ht
    rcases ht with rfl | rfl | rfl | rfl
    · exact h₁ htype
    · exact h₂ htype
    · exact h₃ htype
    · exact h₄ htype

/-- A value that is not `null` can be read. -/
theorem Message.event_ok (h : m.parsed ≠ some .null) : ∃ r, m.event = .ok r := by
  cases hp : m.parsed with
  | none => exact ⟨none, by simp [event, hp]⟩
  | some parsed =>
    have hm : ∀ name, ∃ k, parsed.member name = .ok k := by
      cases parsed with
      | null => exact absurd hp h
      | _ => exact fun _ => ⟨_, rfl⟩
    have hh : ∀ header name, ∃ k, headerOrMember m.info parsed header name = .ok k := by
      intro header name
      obtain ⟨k, hk⟩ := hm name
      unfold headerOrMember
      split
      · exact ⟨_, rfl⟩
      · exact ⟨k.getD .null, by simp [hk, Except.map]⟩
    obtain ⟨i, hi⟩ := hh "event-id" "eventId"
    obtain ⟨t, ht⟩ := hh "event-type" "eventType"
    obtain ⟨k, hk⟩ := hm "payload"
    simp only [event, hp, hi, ht, hk, bind, Except.bind, pure, Except.pure]
    split <;> exact ⟨_, rfl⟩

/-- A `null` is passed over when both of its fields are in headers and one is empty. -/
theorem Message.event_null (h : m.parsed = some .null) :
    m.event = .ok none ∧ (∃ eventId eventType, m.info.header "event-id" "eventId" = some eventId ∧
      m.info.header "event-type" "eventType" = some eventType ∧
      (eventId = "" ∨ eventType = "")) ∨
    m.event = .error .typeError ∧ ¬ ∃ eventId eventType,
      m.info.header "event-id" "eventId" = some eventId ∧
      m.info.header "event-type" "eventType" = some eventType ∧
      (eventId = "" ∨ eventType = "") := by
  simp only [event, h, headerOrMember]
  cases m.info.header "event-id" "eventId" with
  | none => simp [Json.member, Except.map, bind, Except.bind]
  | some i =>
    cases m.info.header "event-type" "eventType" with
    | none => simp [Json.member, Except.map, bind, Except.bind]
    | some t =>
      by_cases hi : i = "" <;> by_cases ht : t = "" <;>
        simp [Json.member, Json.truthy, bind, Except.bind, pure, Except.pure, hi, ht]

theorem Attempt.ended_event (h : m.event = .ok (some e)) :
    (process (fun _ => false) w m now).ended = .ok () ↔ e.eventType.convertible = true ∧
      (m.eventId.convertible = true ∨ w.existsByEventIdAndType e.eventId e.type = false ∧
        ∀ t ∈ handledTypes, e.eventType ≠ .str t) := by
  have hlog := logEvent_ok e.eventType m.eventId
  simp only [process, h, Bool.false_eq_true, if_false]
  cases hx : w.existsByEventIdAndType e.eventId e.type with
  | true => simpa using hlog
  | false =>
    have hx' : ∀ dto, (w.create dto e.meta now).existsByEventIdAndType e.eventId e.type = false :=
      fun _ => hx
    rw [← notification_none]
    simp only [Bool.false_eq_true, if_false, true_and]
    rcases hn : e.notification with y | _ | dto
    · simp [body, hn, Conclusion.caught, hlog]
    · cases hl : logType e.eventType with
      | ok u => simp [body, hn, Conclusion.caught, hl, (logType_ok _).mp hl]
      | error y =>
        have ht : e.eventType.convertible = false := by
          rw [← Bool.not_eq_true, ← logType_ok, hl]
          simp
        simp [body, hn, Conclusion.caught, hl, hlog, ht]
    · cases hl : logEvent e.eventType m.eventId with
      | ok u => simp [body, hn, hx', Conclusion.caught, hl, hlog.mp hl]
      | error y => simp [body, hn, hx', Conclusion.caught, hl, ← hlog]

/-- `process` returns normally exactly on the messages it tolerates. -/
theorem Attempt.ended_process :
    (process (fun _ => false) w m now).ended = .ok () ↔ m.Tolerated w := by
  by_cases hp : m.parsed = some .null
  · rcases Message.event_null hp with ⟨he, hh⟩ | ⟨he, hh⟩
    · refine iff_of_true (by simp [process, he]) ⟨fun _ => hh, fun e he' => ?_⟩
      cases he.symm.trans he'
    · exact iff_of_false (by simp [process, he]) fun h => hh (h.null hp)
  · obtain ⟨r, he⟩ := Message.event_ok hp
    cases r with
    | none =>
      refine iff_of_true (by simp [process, he]) ⟨fun h => absurd h hp, fun e he' => ?_⟩
      cases he.symm.trans he'
    | some e =>
      rw [ended_event he]
      constructor
      · refine fun h => ⟨fun hn => absurd hn hp, fun e' he' => ?_⟩
        cases he.symm.trans he'
        exact h
      · exact fun h => h.text e he

end Process

end NotificationService
