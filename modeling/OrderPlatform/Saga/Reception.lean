import OrderPlatform.Saga.System

/-! # Messages of the order topic

What the payment service makes of a message of the order service: a new order becomes a
charge of its total amount, any other event is passed over. No message of a run makes the
consumer stop.
-/

namespace Saga

open Runs Store Wire
open OrderService (Outbox OrderDraft Broker Relay RelayEffect StatusChange createOrder_orders)
open PaymentService (OrderCreatedEvent dispatch correlationId eventType eventId payload)

def createdEvent (d : OrderDraft) : OrderCreatedEvent where
  orderId := toString d.orderId
  customerUserId := d.data.customerUserId
  amount := none
  totalAmount := some d.data.totalAmount
  currency := some "USD"
  cardToken := none
  idempotencyKey := none

theorem ofJson_payload (d : OrderDraft) :
    OrderCreatedEvent.ofJson d.payload = some (createdEvent d) := by
  simp [OrderCreatedEvent.ofJson, OrderDraft.payload, Json.object, Json.stringMember,
    Json.numberMember, Json.member, present, createdEvent]

theorem member_payload (d : OrderDraft) : d.payload.member "payload" = .ok none := by
  simp [OrderDraft.payload, Json.object, Json.member]

theorem header_message (row : Outbox) :
    row.message.headers.lookup "event-id" = some (toString row.eventId) ∧
      row.message.headers.lookup "event-type" = some row.eventType.text := by
  unfold OrderService.Outbox.message OrderService.Outbox.correlationHeader
  dsimp only
  split
  · split <;> simp [List.lookup_cons]
  · simp [List.lookup_cons]

theorem event_of_message {ε : Type*} {d : PaymentService.Delivery ε} {row : Outbox}
    (hp : d.parsed = some row.payload) (hh : d.info.headers = row.message.headers) :
    d.event = .ok ⟨d.info.topic, toString row.eventId,
      dispatch (some (.str row.eventType.text)) row.payload
        (correlationId d.info (.str (toString row.eventId)))⟩ := by
  obtain ⟨hid, htype⟩ := header_message row
  simp only [PaymentService.Delivery.event, hp, eventType, eventId, PaymentService.Meta.header, hh,
    hid, htype, Option.some_or]
  rfl

theorem event_message (row : Outbox) (k : ℕ) (partition : String) (now : ℕ) :
    ∃ topic c, (delivery row.message k partition now).event = .ok ⟨topic, toString row.eventId,
      dispatch (some (.str row.eventType.text)) row.payload c⟩ :=
  ⟨_, _, event_of_message rfl rfl⟩

/-- A row of the order outbox; one of a new order carries the payload of the order. -/
def Emitted (row : Outbox) : Prop :=
  row.eventType = .orderCreated → ∃ d : OrderDraft, row.payload = d.payload

theorem dispatch_payload (d : OrderDraft) (c : Json) :
    dispatch (some (.str OrderService.EventType.orderCreated.text)) d.payload c =
      .ok (some (.processOrderCreated d.payload c)) := by
  simp [OrderService.EventType.text, dispatch, payload, member_payload, Except.map, present, bind,
    Except.bind]

/-- Such a row leads to a charge for the order it was written for, or to nothing. -/
theorem dispatch_emitted {row : Outbox} (h : Emitted row) (c : Json) :
    dispatch (some (.str row.eventType.text)) row.payload c = .ok none ∨
      ∃ d : OrderDraft, dispatch (some (.str row.eventType.text)) row.payload c =
        .ok (some (.processOrderCreated d.payload c)) := by
  cases ht : row.eventType with
  | orderCreated =>
    obtain ⟨d, hd⟩ := h ht
    right
    refine ⟨d, ?_⟩
    rw [hd, dispatch_payload]
  | orderConfirmed => exact Or.inl rfl
  | orderCancelled => exact Or.inl rfl

def entries : Relay → List Outbox
  | .idle => []
  | .publishing entries => entries
  | .marking entry entries | .failing entry entries => entry :: entries

/-- The rows of the outbox and of the messages are the service's own. -/
structure Emitting (b : Broker) : Prop where
  outbox : ∀ row ∈ b.outbox, Emitted row
  published : ∀ m ∈ b.published, ∃ row, Emitted row ∧ m = row.message

theorem emitted_update {id : Uuid} {f : Outbox → Outbox} {rows : List Outbox}
    (ht : ∀ row, (f row).eventType = row.eventType) (hp : ∀ row, (f row).payload = row.payload)
    (h : ∀ row ∈ rows, Emitted row) : ∀ row ∈ update Outbox.id id f rows, Emitted row := by
  intro row hrow
  obtain ⟨row', hrow', rfl⟩ := mem_update.mp hrow
  split
  · unfold Emitted
    rw [ht, hp]
    exact h row' hrow'
  · exact h row' hrow'

theorem emitting_of_effect {b b' : Broker} {c c' : Relay} (he : RelayEffect b c b' c')
    (hb : Emitting b) (hc : ∀ row ∈ entries c, Emitted row) :
    Emitting b' ∧ ∀ row ∈ entries c', Emitted row := by
  have hpub : ∀ row, Emitted row → ∀ m ∈ b.published ++ [row.message],
      ∃ row, Emitted row ∧ m = row.message :=
    fun row hrow => forall_mem_concat hb.published ⟨row, hrow, rfl⟩
  cases he with
  | fetch rows hrows => exact ⟨hb, fun row hrow => hb.outbox row (hrows row hrow)⟩
  | stop => exact ⟨hb, by simp [entries]⟩
  | reject | unmarked => exact ⟨hb, hc⟩
  | lose entry rest | acknowledge entry rest =>
    exact ⟨⟨hb.outbox, hpub entry (hc entry List.mem_cons_self)⟩, hc⟩
  | mark entry rest now c h =>
    refine ⟨⟨emitted_update (fun _ => by rfl) (fun _ => by rfl) hb.outbox, hb.published⟩, ?_⟩
    rcases h with rfl | rfl
    · exact fun row hrow => hc row (List.mem_cons_of_mem _ hrow)
    · exact hc
  | reset entry rest c h =>
    refine ⟨⟨emitted_update (fun _ => by rfl) (fun _ => by rfl) hb.outbox, hb.published⟩, ?_⟩
    rcases h with rfl | rfl
    · exact fun row hrow => hc row (List.mem_cons_of_mem _ hrow)
    · simp [entries]

theorem emitted_of_effect {w w' : OrderService.World} {x : OrderService.StatusAnswer}
    {c c' : OrderService.StatusCall} (he : OrderService.StatusEffect w x c w' c')
    (h : ∀ row ∈ w.db.outbox, Emitted row) : ∀ row ∈ w'.db.outbox, Emitted row := by
  cases he with
  | insert r order answer =>
    apply forall_mem_concat h
    intro ht
    cases hr : r.target <;> simp [StatusChange.entry, OrderService.createEntry, hr,
      OrderService.Target.eventType] at ht
  | _ => exact h

namespace System
variable {ι κ ν : Type} [DecidableEq ν]

theorem receive_isSome (s : System ι κ ν) (n : ν) (k : ℕ) {row : Outbox} (h : Emitted row)
    (partition : String) (now : ℕ) :
    (s.receive n k (delivery row.message k partition now)).isSome := by
  obtain ⟨topic, c, he⟩ := event_message row k partition now
  simp only [receive, PaymentService.process, he]
  cases hs : s.redis.setNx (PaymentService.dedupKey topic (toString row.eventId))
      (delivery row.message k partition now).now 86400 with
  | none => simp only [Option.isSome_some]
  | some redis =>
    rcases dispatch_emitted h c with hd | ⟨d, hd⟩
    · simp only [PaymentService.Event.run, hd, Option.isSome_some]
    · simp only [PaymentService.Event.run, hd, accept, ofJson_payload, Option.map_some,
        Option.isSome_some]

structure Understood (s : System ι κ ν) : Prop where
  broker : Emitting s.broker
  relays : ∀ j, ∀ row ∈ entries (s.relays j), Emitted row

theorem emitted_create (w : OrderService.World) (isUuid : String → Bool)
    (data : OrderService.CreateOrder) (h : ∀ row ∈ w.db.outbox, Emitted row) :
    ∀ row ∈ (OrderService.createOrder w isUuid data none).1.db.outbox, Emitted row := by
  rcases createOrder_orders w isUuid data none with hdb | hdb
  · rw [hdb]
    exact h
  · rw [hdb]
    apply forall_mem_concat h
    intro _
    exact ⟨_, rfl⟩

variable [DecidableEq ι] [DecidableEq κ] {isUuid : String → Bool} {s t : System ι κ ν}
  {a : Action ι κ ν}

theorem Understood.step (hs : s.Understood) (h : step isUuid s a = some t) : t.Understood := by
  cases step_effect h with
  | create data =>
    exact ⟨⟨emitted_create s.orders isUuid data hs.broker.outbox, hs.broker.published⟩, hs.relays⟩
  | cancel i x w c he =>
    exact ⟨⟨emitted_of_effect he hs.broker.outbox, hs.broker.published⟩, hs.relays⟩
  | poll j rank now b c he =>
    obtain ⟨hb, hc⟩ := emitting_of_effect he hs.broker (hs.relays j)
    exact ⟨hb, forall_update (P := fun r => ∀ row ∈ entries r, Emitted row) hc hs.relays⟩
  | receive n k partition now m t hn hm hr =>
    obtain ⟨-, -, hrel, hb, -⟩ := receive_frame hr
    exact ⟨hb ▸ hs.broker, hrel ▸ hs.relays⟩
  | handle n x k c w c' hn he =>
    obtain ⟨-, -, hrel, hb, -⟩ := s.advance_frame n k w c'
    exact ⟨hb ▸ hs.broker, hrel ▸ hs.relays⟩

/-- In every state of every run an idle handler can receive any message published so far. -/
theorem receivable (requests : ι → Cancellation) (as : List (Action ι κ ν))
    (h : exec (step isUuid) (start requests : System ι κ ν) as = some s) (n : ν)
    (hn : s.handlers n = .idle) (k : ℕ) (hk : k < s.published.length) (partition : String)
    (now : ℕ) : (step isUuid s (.receive n k partition now)).isSome := by
  have hstart : (start requests : System ι κ ν).Understood :=
    ⟨by constructor <;> simp [start, broker], by simp [start, entries]⟩
  have hs : s.Understood := exec_invariant (fun _ _ _ hs h => hs.step h) hstart h
  obtain ⟨row, hrow, hm⟩ := hs.broker.published s.published[k] (List.getElem_mem hk)
  have hk' : s.published[k]? = some row.message := by
    rw [List.getElem?_eq_getElem hk]
    exact congrArg some hm
  simp only [System.step, hn, hk']
  exact s.receive_isSome n k hrow partition now

end System

end Saga
