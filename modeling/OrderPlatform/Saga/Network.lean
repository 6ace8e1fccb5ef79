import OrderPlatform.NotificationService.Dispatch
import OrderPlatform.NotificationService.Events
import OrderPlatform.OrderService.InventoryEvents
import OrderPlatform.PaymentService.RefundStatements
import OrderPlatform.Saga.Reception

/-! # The platform and its failures

The order service with its relays, the order topic, the payment service and the notification
service, any number of processes of each. Database statements and publications fail, processes
crash and start again, payments are refunded meanwhile, and a message is delivered any number of
times and in any order.
-/

namespace Saga

open Runs Store Wire
open OrderService (CreateOrder CreateStep StatusChange StatusCall StatusAnswer StatusEffect Relay
  RelayAnswer RelayEffect Message createOrder cancelOrder InventoryRequest statusStep
  statusStep_effect relayStep relayStep_effect)
open PaymentService (ChargeCall RefundStage Delivery Env OrderCreatedEvent processOrderCreated
  process chargeStep refundStatement)
open NotificationService (NotificationDelivery DispatchCall DispatchAnswer CreateNotificationDto
  notifyStep dispatchStep)

/-- The stores of the services and the topic; `started` are dispatches still to be run. -/
structure Network where
  orders : OrderService.World
  published : List Message
  acked : List Message
  redis : Expiring String
  payments : PaymentService.World
  notices : NotificationService.World
  started : List NotificationDelivery

namespace Network

def empty : Network :=
  ⟨.empty, [], [], fun _ => none, .empty, .empty, []⟩

def broker (n : Network) : OrderService.Broker := ⟨n.orders.db.outbox, n.published, n.acked⟩

def setBroker (n : Network) (b : OrderService.Broker) : Network :=
  { n with
    orders := { n.orders with db := { n.orders.db with outbox := b.outbox } }
    published := b.published
    acked := b.acked }

/-- The payment consumer takes a message: the duplicate check, and the handler it starts. -/
def receive (n : Network) (d : Delivery Unit) : Option (Network × Option ChargeCall) :=
  match process accept ⟨n.redis, none⟩ d with
  | (c, .threw) => some ({ n with redis := c.redis }, none)
  | (_, .skipped) => some (n, none)
  | (c, .completed) =>
    match c.store with
    | none => some ({ n with redis := c.redis }, none)
    | some (.processOrderCreated data correlationId) =>
      (OrderCreatedEvent.ofJson data).map fun event =>
        ({ n with redis := c.redis },
          some (.looking (processOrderCreated event correlationId.text)))
    | some _ => none

/-- An open transaction is rolled back when its process dies. -/
def abandon (n : Network) (c : ChargeCall) : Network :=
  match c.inserted with
  | some payment => { n with payments := n.payments.rollback payment }
  | none => n

end Network

/-- The processes; a consumer without a message waits for one. -/
inductive Party
  | client
  | changing (c : StatusCall)
  | relaying (c : Relay)
  | charging (c : Option ChargeCall)
  | refunding (c : RefundStage)
  | notifying (c : Option NotificationService.Call)
  | dispatching (c : DispatchCall)

/-- The message's event, if it has one, is not one of the order service's. -/
def Foreign (m : NotificationService.Message) : Bool :=
  match m.event with
  | .ok (some e) => !e.eventId.toList.all Char.isDigit
  | _ => true

/--
What makes a process take a step, with the answers of its environment; the inventory service
publishes what it likes, under identifiers of its own.
-/
inductive Stimulus
  | create (data : CreateOrder) (failAt : Option CreateStep)
  | status (x : StatusAnswer)
  | poll (x : RelayAnswer)
  | receive (k partition now : ℕ)
  | inventory (m : NotificationService.Message)
  | payment (x : Env)
  | notice (x : NotificationService.Answer)
  | dispatch (x : DispatchAnswer)
  | background (i : ℕ)
  | minute
  | crash

def ChargeCall.live : ChargeCall → Option ChargeCall
  | .returned _ | .threw _ => none
  | c => some c

def NotificationCall.live : NotificationService.Call → Option NotificationService.Call
  | .finished | .threw _ => none
  | c => some c

/-- One step of a process. -/
def networkStep (isUuid : String → Bool) : Machine Network Party Stimulus
  | n, .client, .create data failAt =>
    some ({ n with orders := (createOrder n.orders isUuid data failAt).1 }, .client)
  | n, .changing c, .status x =>
    (statusStep n.orders c x).map fun r => ({ n with orders := r.1 }, .changing r.2)
  | n, .relaying c, .poll x =>
    (relayStep n.broker c x).map fun r => (n.setBroker r.1, .relaying r.2)
  | n, .relaying _, .crash => some (n, .relaying .idle)
  | n, .charging none, .receive k partition now =>
    n.published[k]?.bind fun m =>
      (n.receive (delivery m k (toString partition) now)).map fun r => (r.1, .charging r.2)
  | n, .charging (some c), .payment x =>
    (chargeStep n.payments c x).map fun r =>
      ({ n with payments := r.1 }, .charging (ChargeCall.live r.2))
  | n, .charging (some c), .crash => some (n.abandon c, .charging none)
  | n, .refunding c, .payment x =>
    (refundStatement n.payments c x).map fun r => ({ n with payments := r.1 }, .refunding r.2)
  | n, .notifying none, .receive k partition _ =>
    n.published[k]?.map fun m =>
      (n, .notifying ((NotificationService.handleMessage "order-events" partition
        (.sent m.value m.headers (toString k))).map .received))
  | n, .notifying none, .inventory m =>
    if Foreign m then some (n, .notifying (some (.received m))) else none
  | n, .notifying (some c), .notice x =>
    (notifyStep n.notices c x).map fun r =>
      ({ n with
          notices := r.1
          started := n.started ++ r.1.deliveries.drop n.notices.deliveries.length },
        .notifying (NotificationCall.live r.2))
  | n, .notifying (some _), .crash => some (n, .notifying none)
  | n, .dispatching c, .dispatch x =>
    (dispatchStep n.notices c x).map fun r => ({ n with notices := r.1 }, .dispatching r.2)
  | n, .dispatching .finished, .background i =>
    n.started[i]?.map fun record =>
      ({ n with started := n.started.eraseIdx i }, .dispatching (.dispatching [record]))
  | n, .dispatching .finished, .minute => some (n, .dispatching .retrying)
  | _, _, _ => none

/-- The requests that change the status of an order. -/
inductive StatusRequest : StatusChange → Prop
  | cancel (orderId : Uuid) (currentUser : OrderService.CurrentUser) (reason : Option String) :
    StatusRequest (cancelOrder orderId currentUser reason)
  | inventory (r : StatusChange) (h : InventoryRequest r) : StatusRequest r

/-- Where a process begins; a record asked for by a request of its own is for no event. -/
inductive Party.Starts : Party → Prop
  | client : Starts .client
  | changing (r : StatusChange) (h : StatusRequest r) : Starts (.changing (.reading r))
  | relaying : Starts (.relaying .idle)
  | charging : Starts (.charging none)
  | requesting (params : PaymentService.RefundParams) :
    Starts (.refunding (.outside (.requesting params)))
  | compensating (orderId correlationId : String) :
    Starts (.refunding (.outside (.compensating orderId correlationId)))
  | executing (params : PaymentService.ExecuteRefundParams) :
    Starts (.refunding (.outside (.executing params)))
  | notifying : Starts (.notifying none)
  | creating (dto : CreateNotificationDto) :
    Starts (.dispatching (.creating dto ⟨none, none, none⟩))
  | retrying : Starts (.dispatching .retrying)

/-- What a step can do to the stores. -/
inductive NetworkEffect (isUuid : String → Bool) (n : Network) : Party → Network → Party → Prop
  | create (data : CreateOrder) (failAt : Option CreateStep) :
    NetworkEffect isUuid n .client
      { n with orders := (createOrder n.orders isUuid data failAt).1 } .client
  | change (c c' : StatusCall) (x : StatusAnswer) (w : OrderService.World)
    (h : StatusEffect n.orders x c w c') :
    NetworkEffect isUuid n (.changing c) { n with orders := w } (.changing c')
  | relay (c c' : Relay) (b : OrderService.Broker) (h : RelayEffect n.broker c b c') :
    NetworkEffect isUuid n (.relaying c) (n.setBroker b) (.relaying c')
  | restart (c : Relay) : NetworkEffect isUuid n (.relaying c) n (.relaying .idle)
  | receive (m : Message) (k : ℕ) (partition : String) (now : ℕ) (n' : Network)
    (c : Option ChargeCall) (hm : m ∈ n.published)
    (h : n.receive (delivery m k partition now) = some (n', c)) :
    NetworkEffect isUuid n (.charging none) n' (.charging c)
  | charge (c c' : ChargeCall) (x : Env) (w : PaymentService.World)
    (h : chargeStep n.payments c x = some (w, c')) :
    NetworkEffect isUuid n (.charging (some c)) { n with payments := w }
      (.charging (ChargeCall.live c'))
  | abandon (c : ChargeCall) : NetworkEffect isUuid n (.charging (some c)) (n.abandon c)
      (.charging none)
  | refund (c c' : RefundStage) (x : Env) (w : PaymentService.World)
    (h : refundStatement n.payments c x = some (w, c')) :
    NetworkEffect isUuid n (.refunding c) { n with payments := w } (.refunding c')
  | fetch (m : Message) (partition : ℕ) (hm : m ∈ n.published) :
    NetworkEffect isUuid n (.notifying none) n
      (.notifying (some (.received ⟨some m.value, ⟨"order-events", partition, m.headers⟩⟩)))
  | stock (m : NotificationService.Message) (hm : Foreign m = true) :
    NetworkEffect isUuid n (.notifying none) n (.notifying (some (.received m)))
  | notify (c c' : NotificationService.Call) (x : NotificationService.Answer)
    (w : NotificationService.World) (h : notifyStep n.notices c x = some (w, c')) :
    NetworkEffect isUuid n (.notifying (some c))
      { n with
        notices := w
        started := n.started ++ w.deliveries.drop n.notices.deliveries.length }
      (.notifying (NotificationCall.live c'))
  | forget (c : NotificationService.Call) :
    NetworkEffect isUuid n (.notifying (some c)) n (.notifying none)
  | dispatch (c c' : DispatchCall) (x : DispatchAnswer) (w : NotificationService.World)
    (h : dispatchStep n.notices c x = some (w, c')) :
    NetworkEffect isUuid n (.dispatching c) { n with notices := w } (.dispatching c')
  | background (record : NotificationDelivery) (i : ℕ) (h : record ∈ n.started) :
    NetworkEffect isUuid n (.dispatching .finished) { n with started := n.started.eraseIdx i }
      (.dispatching (.dispatching [record]))
  | minute : NetworkEffect isUuid n (.dispatching .finished) n (.dispatching .retrying)

section Effect

variable {isUuid : String → Bool} {n n' : Network} {q q' : Party} {x : Stimulus}

theorem networkStep_effect (h : networkStep isUuid n q x = some (n', q')) :
    NetworkEffect isUuid n q n' q' := by
  unfold networkStep at h
  split at h
  · cases h
    exact .create _ _
  · obtain ⟨⟨w, c⟩, hr, he⟩ := Option.map_eq_some_iff.mp h
    cases he
    exact .change _ c _ w (statusStep_effect hr)
  · obtain ⟨⟨b, c⟩, hr, he⟩ := Option.map_eq_some_iff.mp h
    cases he
    exact .relay _ c b (relayStep_effect hr)
  · cases h
    exact .restart _
  · obtain ⟨m, hm, h⟩ := Option.bind_eq_some_iff.mp h
    obtain ⟨⟨n₁, c⟩, hr, he⟩ := Option.map_eq_some_iff.mp h
    cases he
    exact .receive m _ _ _ _ c (List.mem_of_getElem? hm) hr
  · obtain ⟨⟨w, c⟩, hr, he⟩ := Option.map_eq_some_iff.mp h
    cases he
    exact .charge _ c _ w hr
  · cases h
    exact .abandon _
  · obtain ⟨⟨w, c⟩, hr, he⟩ := Option.map_eq_some_iff.mp h
    cases he
    exact .refund _ c _ w hr
  · obtain ⟨m, hm, he⟩ := Option.map_eq_some_iff.mp h
    have hmem := List.mem_of_getElem? hm
    simp only [NotificationService.handleMessage, KafkaMessage.decodedHeaders_sent] at he
    cases he
    exact .fetch m _ hmem
  · split at h <;> cases h
    exact .stock _ (by assumption)
  · obtain ⟨⟨w, c⟩, hr, he⟩ := Option.map_eq_some_iff.mp h
    cases he
    exact .notify _ c _ w hr
  · cases h
    exact .forget _
  · obtain ⟨⟨w, c⟩, hr, he⟩ := Option.map_eq_some_iff.mp h
    cases he
    exact .dispatch _ c _ w hr
  · obtain ⟨record, hrec, he⟩ := Option.map_eq_some_iff.mp h
    cases he
    exact .background record _ (List.mem_of_getElem? hrec)
  · cases h
    exact .minute
  · cases h

end Effect

end Saga
