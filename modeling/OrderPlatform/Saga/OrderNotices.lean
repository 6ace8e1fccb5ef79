import OrderPlatform.Saga.Announcements
import OrderPlatform.Saga.Cancellation
import OrderPlatform.Saga.OrderCreated
import OrderPlatform.Wire.DecimalTexts

/-! # Notices of orders

The notification service writes its e-mails from the payload of an event, whichever of its
processes comes to it, and dispatches a record now or after five minutes. However often it does,
a record that is for an event of the order service tells an order the customer has.
-/

namespace Saga

open Runs Store Wire
open OrderService (Order Outbox OrderDraft EventType)
open NotificationService (NotificationDelivery CreateNotificationDto DispatchCall DispatchEffect
  emailTo sentence onOrderCreated onOrderConfirmed onOrderCancelled templateMember textMember
  dispatchStep_effect)

def receivedMail (o : Order) (total : ℚ) : CreateNotificationDto :=
  emailTo "customer@example.com" ("Order " ++ o.orderNumber ++ " Received")
    (sentence ["Your order " ++ o.orderNumber ++ " has been received.",
      "Total: " ++ numberText total ++ " " ++ o.currency,
      "We will notify you once it is confirmed."])

def confirmedMail (o : Order) : CreateNotificationDto :=
  emailTo "customer@example.com" ("Order " ++ toString o.id ++ " Confirmed")
    ("Your order " ++ toString o.id ++ " has been confirmed. Thank you for your purchase!")

def cancelledMail (o : Order) (reason : String) : CreateNotificationDto :=
  emailTo "customer@example.com" ("Order " ++ toString o.id ++ " Cancelled")
    (sentence ["Your order " ++ toString o.id ++ " has been cancelled.", "Reason: " ++ reason,
      "If you were charged, a refund will be processed shortly."])

/-- The e-mail on an event of an order, with the total and the reason that the event tells. -/
inductive Mail (o : Order) (row : Outbox) : CreateNotificationDto → Prop
  | received (total : ℚ) (he : row.eventType = .orderCreated)
    (hm : row.payload.member "totalAmount" = .ok (some (.num total))) (ht : Totals o total) :
    Mail o row (receivedMail o total)
  | confirmed (he : row.eventType = .orderConfirmed) (hs : o.status ≠ .pending) :
    Mail o row (confirmedMail o)
  | cancelled (reason : String) (he : row.eventType = .orderCancelled)
    (hm : row.payload.member "reason" = .ok (some (.str reason))) (hs : o.status ≠ .pending) :
    Mail o row (cancelledMail o reason)

structure Notice (o : Order) (row : Outbox) (d : NotificationDelivery) : Prop where
  order : row.aggregateId = o.id
  event : d.eventId = some (toString row.eventId)
  type : d.eventType = some row.eventType.text
  correlation : d.correlationId = row.message.headers.lookup "correlation-id"
  mail : Mail o row ⟨d.kind, d.recipient, d.channel, d.subject, d.body⟩

/-- The record is for an event of another service. -/
def OfOthers (d : NotificationDelivery) : Prop :=
  ∃ eventId, d.eventId = some eventId ∧ ∀ n : ℕ, eventId ≠ toString n

/-- The event that the notification service reads from the message of a row. -/
def eventOf (row : Outbox) : NotificationService.Event :=
  ⟨toString row.eventId, .str row.eventType.text, row.payload,
    row.message.headers.lookup "correlation-id"⟩

section Mail

variable {o o' : Order} {row : Outbox}

theorem Mail.follows {dto : CreateNotificationDto} (h : Mail o row dto) (hf : Follows o o') :
    Mail o' row dto := by
  have hn : o.orderNumber = o'.orderNumber :=
    show (terms o).orderNumber = (terms o').orderNumber from congrArg _ hf.same.symm
  have ht : o.totalAmount = o'.totalAmount :=
    show (terms o).totalAmount = (terms o').totalAmount from congrArg _ hf.same.symm
  have hc : o.currency = o'.currency :=
    show (terms o).currency = (terms o').currency from congrArg _ hf.same.symm
  cases h with
  | received total he hm htotal =>
    unfold receivedMail
    rw [hn, hc]
    exact .received total he hm (htotal.trans ht)
  | confirmed he hs =>
    unfold confirmedMail
    rw [id_of_terms hf.same.symm]
    exact .confirmed he (hf.settled hs)
  | cancelled reason he hm hs =>
    unfold cancelledMail
    rw [id_of_terms hf.same.symm]
    exact .cancelled reason he hm (hf.settled hs)

/-- The e-mail is read from the row's type and payload. -/
theorem Mail.of_row {dto : CreateNotificationDto} {row' : Outbox} (h : Mail o row dto)
    (ht : row'.eventType = row.eventType) (hp : row'.payload = row.payload) : Mail o row' dto := by
  cases h with
  | received total he hm htotal => exact .received total (ht.trans he) (hp ▸ hm) htotal
  | confirmed he hs => exact .confirmed (ht.trans he) hs
  | cancelled reason he hm hs => exact .cancelled reason (ht.trans he) (hp ▸ hm) hs

theorem orDefault_ne_empty (a : Option String) {b : String} (hb : b ≠ "") : orDefault a b ≠ "" := by
  unfold orDefault
  split
  · exact hb
  · split
    · exact hb
    · assumption

theorem mail_created (d : OrderDraft) :
    onOrderCreated d.payload = .ok (receivedMail d.order d.data.totalAmount) := by
  simp [onOrderCreated, textMember, templateMember, OrderDraft.payload, Json.object, Json.member,
    Json.template, Json.convertible, Json.text, present, Except.map, bind, Except.bind, pure,
    Except.pure, receivedMail, OrderDraft.order]

theorem mail_confirmed {payload : Json} {orderId : String}
    (hr : payload.member "recipientEmail" = .ok none)
    (ho : payload.member "orderId" = .ok (some (.str orderId))) :
    onOrderConfirmed payload = .ok (emailTo "customer@example.com" ("Order " ++ orderId ++
      " Confirmed") ("Your order " ++ orderId ++
        " has been confirmed. Thank you for your purchase!")) := by
  simp [onOrderConfirmed, textMember, templateMember, hr, ho, Json.template, Json.convertible,
    Json.text, present, Except.map, bind, Except.bind, pure, Except.pure]

theorem mail_cancelled {payload : Json} {orderId reason : String}
    (hr : payload.member "recipientEmail" = .ok none)
    (ho : payload.member "orderId" = .ok (some (.str orderId)))
    (hreason : payload.member "reason" = .ok (some (.str reason))) (hne : reason ≠ "") :
    onOrderCancelled payload = .ok (emailTo "customer@example.com" ("Order " ++ orderId ++
      " Cancelled") (sentence ["Your order " ++ orderId ++ " has been cancelled.",
        "Reason: " ++ reason, "If you were charged, a refund will be processed shortly."])) := by
  have htrue : (some (Json.str reason)).filter Json.truthy = some (.str reason) := by
    simp [Json.truthy, hne]
  simp [onOrderCancelled, textMember, templateMember, hr, ho, hreason, htrue, Json.template,
    Json.convertible, Json.text, present, Except.map, bind, Except.bind, pure, Except.pure]

/-- Every event of an order becomes an e-mail about it. -/
theorem mail_of_origin (h : Origin o row) :
    ∃ dto, (eventOf row).notification = .ok (some dto) ∧ Mail o row dto := by
  cases h with
  | created d hc ht =>
    have hmail : Mail d.order d.entry (receivedMail d.order d.data.totalAmount) :=
      .received _ rfl d.member_totalAmount rfl
    refine ⟨receivedMail d.order d.data.totalAmount, ?_, hmail.follows ⟨ht.symm, fun h => ?_⟩⟩
    · have hn : (eventOf d.entry).notification = (onOrderCreated d.payload).map some := rfl
      rw [hn, mail_created]
      rfl
    · exact absurd rfl h
  | changed r hr order ht hid hs fresh x =>
    cases hr with
    | cancel orderId currentUser reason =>
      obtain rfl : orderId = o.id := hid
      refine ⟨cancelledMail o (orDefault reason "Cancelled by user"), ?_,
        .cancelled _ rfl rfl hs⟩
      have hn : (eventOf ((OrderService.cancelOrder o.id currentUser reason).entry order fresh
          x)).notification = (onOrderCancelled ((OrderService.cancelOrder o.id currentUser
            reason).payload order x.timestamp)).map some := rfl
      rw [hn, mail_cancelled rfl rfl rfl (orDefault_ne_empty reason (by decide))]
      rfl
    | inventory r hi =>
      cases hi with
      | reserved orderId correlationId =>
        obtain rfl : orderId = o.id := hid
        refine ⟨confirmedMail o, ?_, .confirmed rfl hs⟩
        have hn : (eventOf ((OrderService.handleInventoryReserved o.id correlationId).entry order
            fresh x)).notification = (onOrderConfirmed ((OrderService.handleInventoryReserved o.id
              correlationId).payload order x.timestamp)).map some := rfl
        rw [hn, mail_confirmed rfl rfl]
        rfl
      | failed orderId correlationId reason =>
        obtain rfl : orderId = o.id := hid
        refine ⟨cancelledMail o (orDefault reason "Inventory reservation failed"), ?_,
          .cancelled _ rfl rfl hs⟩
        have hn : (eventOf ((OrderService.handleInventoryReservationFailed o.id correlationId
            reason).entry order fresh x)).notification =
              (onOrderCancelled ((OrderService.handleInventoryReservationFailed o.id correlationId
                reason).payload order x.timestamp)).map some := rfl
        rw [hn, mail_cancelled rfl rfl rfl (orDefault_ne_empty reason (by decide))]
        rfl

end Mail

section Reading

variable {o : Order} {row row' : Outbox}

theorem lookup_other_header (row : Outbox) :
    row.message.headers.lookup "correlationId" = none := by
  unfold OrderService.Outbox.message OrderService.Outbox.correlationHeader
  dsimp only
  split
  · split <;> simp [List.lookup_cons]
  · simp [List.lookup_cons]

theorem payload_member (h : Origin o row) : row.payload.member "payload" = .ok none := by
  cases h with
  | created d hc ht => exact member_payload d
  | changed r hr order ht hid hs fresh x =>
    cases hr with
    | cancel => rfl
    | inventory r hi => cases hi <;> rfl

theorem event_of_origin (h : Origin o row) (topic : String) (partition : ℕ) :
    (⟨some row.payload, ⟨topic, partition, row.message.headers⟩⟩ :
      NotificationService.Message).event = .ok (some (eventOf row)) := by
  obtain ⟨hid, htype⟩ := header_message row
  have hne : (Json.str (toString row.eventId)).truthy = true := decide_eq_true Nat.repr_ne_empty
  have hne' : (Json.str row.eventType.text).truthy = true := by
    cases row.eventType <;> rfl
  simp only [NotificationService.Message.event, NotificationService.headerOrMember,
    NotificationService.Meta.header, hid, htype, payload_member h, lookup_other_header, hne, hne',
    Option.some_or, Option.or_none, bind, Except.bind, Bool.not_true, Bool.or_self,
    Bool.false_eq_true, if_false]
  rfl

theorem text_inj {t t' : EventType} (h : t.text = t'.text) : t = t' := by
  cases t <;> cases t' <;> first | rfl | exact absurd h (by decide)

/-- A notice of a row is one of every row with the same message. -/
theorem Notice.of_message {d : NotificationDelivery} (h : Notice o row d)
    (hm : row'.message = row.message) : Notice o row' d := by
  obtain ⟨hid, htype⟩ := header_message row
  obtain ⟨hid', htype'⟩ := header_message row'
  rw [hm] at hid' htype'
  have hi : toString row'.eventId = toString row.eventId := Option.some.inj (hid'.symm.trans hid)
  have ht : row'.eventType = row.eventType := text_inj (Option.some.inj (htype'.symm.trans htype))
  have hk : toString row'.aggregateId = toString row.aggregateId :=
    congrArg OrderService.Message.key hm
  constructor
  · exact (Uuid.text_injective hk).trans h.order
  · rw [hi]
    exact h.event
  · rw [ht]
    exact h.type
  · rw [hm]
    exact h.correlation
  · exact h.mail.of_row ht (congrArg OrderService.Message.value hm)

theorem order_of_origin (h : Origin o row) : row.aggregateId = o.id := by
  cases h with
  | created d hc ht => exact id_of_terms ht
  | changed r hr order ht hid hs fresh x => exact hid

/-- The record made for the event of a row is a notice of it. -/
theorem notice_record (h : Origin o row) (w : NotificationService.World) (now : ℕ)
    {dto : CreateNotificationDto} (hn : (eventOf row).notification = .ok (some dto)) :
    Notice o row (w.record dto (eventOf row).meta now) := by
  obtain ⟨dto', hdto, hmail⟩ := mail_of_origin h
  obtain rfl : dto' = dto := Option.some.inj (Except.ok.inj (hdto.symm.trans hn))
  exact ⟨order_of_origin h, rfl, rfl, rfl, hmail⟩

end Reading

section Network

variable {isUuid : String → Bool} {n n' : Network} {q q' : Party} {row : Outbox}
  {d : NotificationDelivery}

def Known (n : Network) (row : Outbox) : Prop :=
  (∃ o ∈ n.orders.db.orders, Origin o row) ∧ row.message ∈ n.orders.db.outbox.map Outbox.message

def Noticed (n : Network) (d : NotificationDelivery) : Prop :=
  d.eventId = none ∨ OfOthers d ∨ ∃ o ∈ n.orders.db.orders, ∃ row,
    row.message ∈ n.orders.db.outbox.map Outbox.message ∧ Notice o row d

structure Network.Noticing (n : Network) : Prop where
  deliveries : ∀ d ∈ n.notices.deliveries, Noticed n d
  started : ∀ d ∈ n.started, Noticed n d

def Party.Noticing (n : Network) : Party → Prop
  | .notifying (some (.received m)) => Foreign m = true ∨ ∃ row partition, Known n row ∧
      m = ⟨some row.payload, ⟨"order-events", partition, row.message.headers⟩⟩
  | .notifying (some (.handling e)) => (∀ n : ℕ, e.eventId ≠ toString n) ∨
      ∃ row, Known n row ∧ e = eventOf row
  | .dispatching (.creating _ info) => info.eventId = none
  | .dispatching c => ∀ d ∈ c.held, Noticed n d
  | _ => True

theorem Known.kept (h : Known n row) (hk : n.Kept n') : Known n' row := by
  obtain ⟨⟨o, ho, hrow⟩, hm⟩ := h
  obtain ⟨o', ho', hf⟩ := hk.orders o ho
  exact ⟨⟨o', ho', hrow.follows hf⟩, hk.outbox _ hm⟩

theorem Noticed.kept (h : Noticed n d) (hk : n.Kept n') : Noticed n' d := by
  refine h.imp id (Or.imp id ?_)
  rintro ⟨o, ho, row, hm, hd⟩
  obtain ⟨o', ho', hf⟩ := hk.orders o ho
  have hid : row.aggregateId = o'.id := hd.order.trans (id_of_terms hf.same).symm
  exact ⟨o', ho', row, hk.outbox _ hm, hid, hd.event, hd.type, hd.correlation, hd.mail.follows hf⟩

theorem Network.Noticing.kept (h : n.Noticing) (hk : n.Kept n')
    (hd : n'.notices.deliveries = n.notices.deliveries) (hs : n'.started = n.started) :
    n'.Noticing where
  deliveries d hm := (h.deliveries d (hd ▸ hm)).kept hk
  started d hm := (h.started d (hs ▸ hm)).kept hk

theorem Party.Noticing.kept (h : q.Noticing n) (hk : n.Kept n') : q.Noticing n' := by
  unfold Party.Noticing at h ⊢
  split at h
  · exact h.imp id fun ⟨row, partition, hrow, hm⟩ => ⟨row, partition, hrow.kept hk, hm⟩
  · exact h.imp id fun ⟨row, hrow, he⟩ => ⟨row, hrow.kept hk, he⟩
  · exact h
  · exact fun d hd => (h d hd).kept hk
  · trivial

/-- What the provider answers does not touch what the record is about. -/
theorem Noticed.answered (h : Noticed n d)
    (result : Except String NotificationService.DispatchResult) (now : ℕ) :
    Noticed n (d.answered result now) := by
  have hsame : ∀ status providerToken errorMessage sentAt,
      Noticed n { d with
        status := status, providerToken := providerToken, errorMessage := errorMessage
        sentAt := sentAt } :=
    fun _ _ _ _ => h.imp id (Or.imp id fun ⟨o, ho, row, hm, hd⟩ =>
      ⟨o, ho, row, hm, hd.order, hd.event, hd.type, hd.correlation, hd.mail⟩)
  unfold NotificationDelivery.answered
  split
  · split <;> exact hsame _ _ _ _
  · exact hsame _ _ _ _

theorem noticed_of_known (h : Known n row) (w : NotificationService.World) (now : ℕ)
    {dto : CreateNotificationDto} (hn : (eventOf row).notification = .ok (some dto)) :
    Noticed n (w.record dto (eventOf row).meta now) := by
  obtain ⟨⟨o, ho, hrow⟩, hm⟩ := h
  exact Or.inr (Or.inr ⟨o, ho, row, hm, notice_record hrow w now hn⟩)

theorem foreign_event {m : NotificationService.Message} {e : NotificationService.Event}
    (h : Foreign m = true) (he : m.event = .ok (some e)) (n : ℕ) : e.eventId ≠ toString n := by
  intro hid
  have hdigits : (toString n).toList.all Char.isDigit = true :=
    List.all_eq_true.mpr fun _ => isDigit_of_mem_toString
  simp only [Foreign, he, hid, hdigits, Bool.not_true, Bool.false_eq_true] at h

/-- A consumer writes records of the events it reads. -/
theorem noticing_notify {w : NotificationService.World} {c c' : NotificationService.Call}
    {x : NotificationService.Answer} (hn : n.Noticing)
    (hq : (Party.notifying (some c)).Noticing n)
    (h : NotificationService.notifyStep n.notices c x = some (w, c')) :
    (∀ d ∈ w.deliveries, Noticed n d) ∧ (Party.notifying (some c')).Noticing n := by
  cases c with
  | received m =>
    simp only [NotificationService.notifyStep] at h
    split at h
    · cases h
      exact ⟨hn.deliveries, trivial⟩
    · cases h
      exact ⟨hn.deliveries, trivial⟩
    · rename_i e he
      split at h
      · cases h
        exact ⟨hn.deliveries, trivial⟩
      · split at h <;> cases h
        · exact ⟨hn.deliveries, trivial⟩
        · refine ⟨hn.deliveries, hq.imp (foreign_event · he) ?_⟩
          rintro ⟨row, partition, hrow, rfl⟩
          obtain ⟨o, -, ho⟩ := hrow.1
          exact ⟨row, hrow, Option.some.inj (Except.ok.inj (he.symm.trans
            (event_of_origin ho _ _)))⟩
  | handling e =>
    simp only [NotificationService.notifyStep] at h
    split at h
    · cases h
      exact ⟨hn.deliveries, trivial⟩
    · cases h
      exact ⟨hn.deliveries, trivial⟩
    · rename_i dto hdto
      split at h <;> cases h
      · exact ⟨hn.deliveries, trivial⟩
      · refine ⟨forall_mem_concat hn.deliveries ?_, trivial⟩
        rcases hq with hothers | ⟨row, hrow, rfl⟩
        · exact Or.inr (Or.inl ⟨_, rfl, hothers⟩)
        · exact noticed_of_known hrow _ _ hdto
  | marking e =>
    simp only [NotificationService.notifyStep] at h
    split at h <;> cases h <;> exact ⟨hn.deliveries, trivial⟩
  | finished | threw => cases h

/-- A dispatch keeps to the records it has, and one made for a request is for no event. -/
theorem noticing_dispatch {w : NotificationService.World} {c c' : DispatchCall}
    {x : NotificationService.DispatchAnswer} (hn : n.Noticing)
    (hq : (Party.dispatching c).Noticing n) (h : DispatchEffect n.notices c x w c') :
    (∀ d ∈ w.deliveries, Noticed n d) ∧ (Party.dispatching c').Noticing n := by
  cases h with
  | refused | ended | unsaved => exact ⟨hn.deliveries, fun _ hd => (nomatch hd)⟩
  | created hx =>
    rename_i dto info
    have hrec : Noticed n (n.notices.record dto info x.now) := Or.inl hq
    exact ⟨forall_mem_concat hn.deliveries hrec, fun d hd => List.mem_singleton.mp hd ▸ hrec⟩
  | fetched hx =>
    exact ⟨hn.deliveries, fun d hd => hn.deliveries d (NotificationService.mem_stale hd).1⟩
  | dispatched =>
    refine ⟨hn.deliveries, fun d hd => ?_⟩
    rcases List.mem_cons.mp hd with rfl | hd
    · exact (hq _ List.mem_cons_self).answered _ _
    · exact hq d (List.mem_cons_of_mem _ hd)
  | saved hx =>
    refine ⟨fun d hd => ?_, fun d hd => hq d (List.mem_cons_of_mem _ hd)⟩
    rcases NotificationService.save_cases hd with rfl | ⟨hd, -⟩
    · exact hq _ List.mem_cons_self
    · exact hn.deliveries d hd

theorem NetworkEffect.noticing (hn : n.Announcing) (hw : n.Noticing) (hq : q.Noticing n)
    (h : NetworkEffect isUuid n q n' q') : n'.Noticing ∧ q'.Noticing n' := by
  have hk := h.kept
  cases h with
  | fetch m partition hm =>
    obtain ⟨o, ho, row, hrow, rfl⟩ := hn.outbox m (hn.published m hm)
    exact ⟨hw, Or.inr ⟨row, partition, ⟨⟨o, ho, hrow⟩, hn.published _ hm⟩, rfl⟩⟩
  | stock m hm => exact ⟨hw, Or.inl hm⟩
  | notify c c' x w h =>
    obtain ⟨hd, hc⟩ := noticing_notify hw hq h
    have hd' : ∀ d ∈ w.deliveries, Noticed _ d := fun d hm => (hd d hm).kept hk
    refine ⟨⟨hd', fun d hm => ?_⟩, ?_⟩
    · rcases List.mem_append.mp hm with hm | hm
      · exact (hw.started d hm).kept hk
      · exact hd' d (List.mem_of_mem_drop hm)
    · cases c' with
      | finished | threw => trivial
      | received | handling | marking => exact hc.kept hk
  | dispatch c c' x w h =>
    obtain ⟨hd, hc⟩ := noticing_dispatch hw hq (dispatchStep_effect h)
    exact ⟨⟨fun d hm => (hd d hm).kept hk, fun d hm => (hw.started d hm).kept hk⟩, hc.kept hk⟩
  | background record i h =>
    refine ⟨⟨hw.deliveries, fun d hm => ?_⟩, fun d hm => ?_⟩
    · exact (hw.started d (List.mem_of_mem_eraseIdx hm)).kept hk
    · exact List.mem_singleton.mp hm ▸ (hw.started _ h).kept hk
  | minute => exact ⟨hw, fun _ hd => (nomatch hd)⟩
  | receive m k partition now n' c hm h =>
    have hr := receive_redis h
    exact ⟨hw.kept hk (by rw [hr]) (by rw [hr]), trivial⟩
  | abandon c =>
    refine ⟨hw.kept hk ?_ ?_, trivial⟩ <;> unfold Network.abandon <;> split <;> rfl
  | _ => exact ⟨hw.kept hk rfl rfl, trivial⟩

theorem Party.Starts.noticing (h : q.Starts) : q.Noticing n := by
  cases h with
  | creating => rfl
  | retrying => exact fun _ hd => (nomatch hd)
  | _ => trivial

theorem noticing_exec {Id : Type} [DecidableEq Id] {parties : Id → Party}
    (hparties : ∀ i, (parties i).Starts) {inputs : List (Id × Stimulus)}
    {q : Pool Network Party Id}
    (h : exec (Pool.act (networkStep isUuid)) ⟨.empty, parties⟩ inputs = some q) :
    q.store.Noticing := by
  have hempty : Network.empty.Noticing := ⟨fun _ h => (nomatch h), fun _ h => (nomatch h)⟩
  exact (network_invariant Network.Noticing (fun n q => q.Noticing n) hempty
    (fun _ hq => hq.noticing) (fun _ _ _ _ hn _ hG hL he => he.noticing hn hG hL)
    (fun _ _ _ hk hl => hl.kept hk) hparties h).2

end Network

/--
However often events are delivered and records dispatched, whatever fails and whatever the
inventory service publishes: every record for an event of the order service is the e-mail on an
event of a stored order, with the texts of that order and the total and the reason of the event,
and a confirmation or a cancellation is told only of an order that has left its first status. All
other records were asked for by a request or are for events of another service.
-/
theorem orders_noticed {isUuid : String → Bool} {Id : Type} [DecidableEq Id] {parties : Id → Party}
    (hparties : ∀ i, (parties i).Starts) {inputs : List (Id × Stimulus)}
    {q : Pool Network Party Id}
    (h : exec (Pool.act (networkStep isUuid)) ⟨.empty, parties⟩ inputs = some q) :
    ∀ d ∈ q.store.notices.deliveries, d.eventId = none ∨ OfOthers d ∨
      ∃ o ∈ q.store.orders.db.orders, ∃ row ∈ q.store.orders.db.outbox, Notice o row d := by
  intro d hd
  have hw := noticing_exec hparties h
  refine (hw.deliveries d hd).imp id (Or.imp id ?_)
  rintro ⟨o, ho, row, hm, hnotice⟩
  obtain ⟨row', hrow', heq⟩ := List.mem_map.mp hm
  exact ⟨o, ho, row', hrow', hnotice.of_message heq⟩

/-- A customer, a cancellation, a relay, a consumer and a dispatcher of notifications. -/
def mailroom : Fin 5 → Party
  | 0 => .client
  | 1 => .changing (.reading (OrderService.cancelOrder 1 ⟨"user-1", none⟩ none))
  | 2 => .relaying .idle
  | 3 => .notifying none
  | 4 => .dispatching .retrying

theorem mailroom_starts : ∀ i, (mailroom i).Starts
  | 0 => .client
  | 1 => .changing _ (.cancel _ _ _)
  | 2 => .relaying
  | 3 => .notifying
  | 4 => .retrying

def sent : NotificationService.DispatchAnswer :=
  ⟨5, fun _ => 0, .ok ⟨true, some "msg-1", none⟩, false⟩

/-- The inventory service reports that it cannot reserve the goods, to an address of its own. -/
def outOfStock : NotificationService.Message where
  parsed := some (.obj [("orderId", .str "1"), ("recipientEmail", .str "stock@example.com")])
  info := ⟨"inventory-events", 0,
    [("event-id", "inv-1"), ("event-type", "InventoryReservationFailed")]⟩

/--
The order is created and cancelled, both events and one of the inventory service are read, and
one e-mail is sent.
-/
def mailing : List (Fin 5 × Stimulus) :=
  [(0, .create sampleOrder none)] ++
    List.replicate 4 (1, .status ⟨⟨2, "1970-01-01T00:00:02.000Z"⟩, false⟩) ++
    List.replicate 6 (2, .poll ⟨fun _ => 0, 3, false, false⟩) ++
    [(3, .receive 0 0 4)] ++ List.replicate 3 (3, .notice ⟨4, false⟩) ++
    [(3, .receive 1 0 4)] ++ List.replicate 3 (3, .notice ⟨4, false⟩) ++
    [(3, .inventory outOfStock)] ++ List.replicate 3 (3, .notice ⟨4, false⟩) ++
    List.replicate 2 (4, .dispatch sent) ++ [(4, .background 0)] ++
    List.replicate 3 (4, .dispatch sent)

theorem mailing_noticed :
    ∃ q ∈ exec (Pool.act (networkStep fun _ => false)) ⟨.empty, mailroom⟩ mailing,
      q.store.notices.deliveries.map NotificationDelivery.status = [.sent, .pending, .pending] ∧
      ∀ d ∈ q.store.notices.deliveries, d.eventId = none ∨ OfOthers d ∨
        ∃ o ∈ q.store.orders.db.orders, ∃ row ∈ q.store.orders.db.outbox, Notice o row d := by
  obtain ⟨q, hq, hs⟩ : ∃ q ∈ exec (Pool.act (networkStep fun _ => false)) ⟨.empty, mailroom⟩
      mailing, q.store.notices.deliveries.map NotificationDelivery.status =
        [.sent, .pending, .pending] := by
    decide +kernel
  exact ⟨q, hq, hs, orders_noticed mailroom_starts hq⟩

end Saga
