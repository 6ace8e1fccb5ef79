import OrderPlatform.NotificationService.Events
import OrderPlatform.OrderService.Validation
import OrderPlatform.Saga.Reception

/-! # A new order at its consumers

The payment service reads the message of a new order as a charge of the payload's total, and
the notification service as an event of the same identifier. The two read the headers and
the flat payload through fallbacks of their own. The total of the payload is the sum as the
runtime makes it; the order's is rounded to the column.
-/

namespace Saga

open Store Wire
open OrderService (Order Outbox OrderDraft CreateOrderDto Services CreateClock CallFailure
  OrderCreated ValidatedItem)
open PaymentService (Topic HandlerCall OrderCreatedEvent ChargeParams Payment Consumer Outcome
  Delivery processOrderCreated process process_of_held process_of_free dedupKey dispatch)

/-- The message of an outbox row, as a consumer receives it. -/
def received (row : Outbox) (offset : String) : KafkaMessage :=
  .sent row.message.value row.message.headers offset

@[simp] theorem decodedHeaders_received (row : Outbox) (offset : String) :
    (received row offset).decodedHeaders = row.message.headers :=
  KafkaMessage.decodedHeaders_sent _ _ _

section Payments

variable {σ ε : Type*} (charge : σ → ChargeParams → ε → σ × Except Thrown Payment)
  (other : σ → HandlerCall → ε → σ × Except Thrown Unit)

/-- The handlers of the payment service, given its charge and its other handlers. -/
def handlers (s : σ) (call : HandlerCall) (x : ε) : σ × Except Thrown Unit :=
  match call with
  | .processOrderCreated data correlationId =>
    match OrderCreatedEvent.ofJson data with
    | some event =>
      let r := charge s (processOrderCreated event correlationId.text) x
      (r.1, r.2.map fun _ => ())
    | none => other s call x
  | _ => other s call x

def correlationOf (row : Outbox) : Option String :=
  ((row.headers.getD []).lookup "correlationId").join

/-- The charge of an amount for an order. -/
def chargeAt (order : Order) (row : Outbox) (amount : ℚ) : ChargeParams where
  orderId := toString order.id
  customerUserId := order.customerUserId
  amount := some amount
  currency := some order.currency
  cardToken := "tok_mock_default"
  idempotencyKey := none
  correlationId := correlationOf row

/-- The number is stored as the order's total. -/
def Totals (o : Order) (q : ℚ) : Prop := .ofNumber q = o.totalAmount

/-- The charge an order asks for. -/
def chargeOf (order : Order) (row : Outbox) : ChargeParams :=
  chargeAt order row order.totalAmount.toNumber

def outcomeOf {α : Type*} : Except Thrown α → Outcome
  | .ok _ => .completed
  | .error _ => .threw

/--
The message of a row leads to one charge with the parameters, under the row's event identifier,
unless that identifier is held already.
-/
def Charged (params : ChargeParams) (row : Outbox) : Prop :=
  ∀ (topic : Topic) (partition : ℕ) (offset : String) (now : ℕ) (answer : ε) (c : Consumer σ),
    ∃ d, PaymentService.handleMessage topic partition (received row offset) now answer = some d ∧
      process (handlers charge other) c d =
        if c.redis.held (dedupKey topic (toString row.eventId)) now then (c, .skipped)
        else
          let r := charge c.store params answer
          (⟨Function.update c.redis (dedupKey topic (toString row.eventId)) (some (now + 86400)),
            r.1⟩, outcomeOf r.2)

end Payments

/-- The message of a row is read as an event of its identifier and of type `OrderCreated`. -/
def Notified (row : Outbox) : Prop :=
  ∀ (topic : String) (partition : ℕ) (offset : String), ∃ m e,
    NotificationService.handleMessage topic partition (received row offset) = some m ∧
      m.event = .ok (some e) ∧ e.eventId = toString row.eventId ∧ e.type = "OrderCreated"

section Draft

variable {σ ε : Type*} (charge : σ → ChargeParams → ε → σ × Except Thrown Payment)
  (other : σ → HandlerCall → ε → σ × Except Thrown Unit) (d : OrderDraft)

theorem correlation_header (hc : d.correlationId ≠ "") :
    d.entry.message.headers.lookup "correlation-id" = some d.correlationId ∧
      correlationOf d.entry = some d.correlationId := by
  simp [OrderService.Outbox.message, OrderService.Outbox.correlationHeader, OrderDraft.entry,
    OrderService.createEntry, correlationOf, hc]

/-- The consumer asks for the number that the payload tells. -/
theorem charge_params (hc : d.correlationId ≠ "") :
    processOrderCreated (createdEvent d) d.correlationId =
      chargeAt d.order d.entry d.data.totalAmount := by
  simp [processOrderCreated, createdEvent, chargeAt, OrderDraft.order, (correlation_header d hc).2]

/-- That is the charge of the order where the number has two decimals, and only there. -/
theorem chargeOf_eq_iff : chargeOf d.order d.entry = chargeAt d.order d.entry d.data.totalAmount ↔
    Numeric.TwoDecimals d.data.totalAmount := by
  constructor
  · exact fun h => ⟨_, Option.some.inj (congrArg ChargeParams.amount h)⟩
  · exact fun h => congrArg (chargeAt d.order d.entry) (Numeric.toNumber_ofNumber h)

theorem handlers_payload (s : σ) (x : ε) (hc : d.correlationId ≠ "") :
    handlers charge other s (.processOrderCreated d.payload (.str d.correlationId)) x =
      ((charge s (chargeAt d.order d.entry d.data.totalAmount) x).1,
        (charge s (chargeAt d.order d.entry d.data.totalAmount) x).2.map fun _ => ()) := by
  simp only [handlers, ofJson_payload, Json.text, charge_params d hc]

/-- What the payment service's `process` receives of a row. -/
def delivered (row : Outbox) (topic : Topic) (partition : ℕ) (offset : String) (now : ℕ)
    (answer : ε) : Delivery ε where
  parsed := some row.payload
  info := ⟨topic, toString partition, some offset, row.message.headers⟩
  now := now
  answer := answer

theorem handleMessage_received (row : Outbox) (topic : Topic) (partition : ℕ) (offset : String)
    (now : ℕ) (answer : ε) :
    PaymentService.handleMessage topic partition (received row offset) now answer =
      some (delivered row topic partition offset now answer) := by
  unfold PaymentService.handleMessage
  rw [decodedHeaders_received]
  rfl

theorem charged_draft (hc : d.correlationId ≠ "") :
    Charged charge other (chargeAt d.order d.entry d.data.totalAmount) d.entry := by
  intro topic partition offset now answer c
  refine ⟨_, handleMessage_received _ _ _ _ _ _, ?_⟩
  have hcorr : PaymentService.correlationId
      (delivered d.entry topic partition offset now answer).info (.str (toString d.entry.eventId)) =
        .str d.correlationId := by
    simp [PaymentService.correlationId, PaymentService.Meta.header, delivered,
      (correlation_header d hc).1]
  have hd : dispatch (some (.str d.entry.eventType.text)) d.entry.payload
      (.str d.correlationId) = .ok (some (.processOrderCreated d.payload (.str d.correlationId))) :=
    dispatch_payload d _
  have he : (delivered d.entry topic partition offset now answer).event =
      .ok ⟨topic, toString d.entry.eventId,
        .ok (some (.processOrderCreated d.payload (.str d.correlationId)))⟩ := by
    rw [@event_of_message ε _ d.entry rfl rfl, hcorr, hd]
    rfl
  by_cases hheld : c.redis.held (dedupKey topic (toString d.entry.eventId)) now = true
  · rw [if_pos hheld, process_of_held c he hheld]
  · rw [if_neg hheld, process_of_free c he (Bool.eq_false_iff.mpr hheld)]
    simp only [PaymentService.Event.run, delivered, handlers_payload charge other d _ _ hc]
    cases (charge c.store (chargeAt d.order d.entry d.data.totalAmount) answer).2 <;> rfl

theorem notified_draft : Notified d.entry := by
  intro topic partition offset
  obtain ⟨hid, htype⟩ := header_message d.entry
  have hm : d.entry.payload.member "payload" = .ok none := member_payload d
  have hne : toString d.entry.eventId ≠ "" := Nat.repr_ne_empty
  refine ⟨⟨some d.entry.payload, ⟨topic, partition, d.entry.message.headers⟩⟩,
    ⟨toString d.entry.eventId, .str d.entry.eventType.text, d.entry.payload,
      NotificationService.Meta.header ⟨topic, partition, d.entry.message.headers⟩
        "correlation-id" "correlationId"⟩, ?_, ?_, rfl, rfl⟩
  · unfold NotificationService.handleMessage
    rw [decodedHeaders_received]
    rfl
  · have htrue : (Json.str d.entry.eventType.text).truthy = true := rfl
    have htrue' : (Json.str (toString d.entry.eventId)).truthy = true := decide_eq_true hne
    simp only [NotificationService.Message.event, NotificationService.headerOrMember,
      NotificationService.Meta.header, hid, htype, hm, htrue, htrue', Option.some_or, bind,
      Except.bind, Bool.not_true, Bool.or_self, Bool.false_eq_true, if_false]
    rfl

/-- Notes the charges it is asked for. -/
def noting (asked : List ChargeParams) (params : ChargeParams) (_ : Unit) :
    List ChargeParams × Except Thrown Payment := (asked ++ [params], .error .database)

/-- The message of a row leads to a charge with one set of parameters. -/
theorem charged_unique {row : Outbox} {params params' : ChargeParams}
    (h : Charged noting (fun s _ _ => (s, .ok ())) params row)
    (h' : Charged noting (fun s _ _ => (s, .ok ())) params' row) : params = params' := by
  obtain ⟨m, hm, hp⟩ := h PaymentService.orderEvents 0 "0" 0 () ⟨fun _ => none, []⟩
  obtain ⟨m', hm', hp'⟩ := h' PaymentService.orderEvents 0 "0" 0 () ⟨fun _ => none, []⟩
  obtain rfl : m = m' := Option.some.inj (hm.symm.trans hm')
  have hstore := congrArg (fun r => r.1.store) (hp.symm.trans hp')
  simpa [Expiring.held, noting] using hstore

end Draft

/-- The message of the row is understood as an order's: charged once, and known as its event. -/
structure Understood (order : Order) (row : Outbox) : Prop where
  event : row.eventType = .orderCreated ∧ row.aggregateId = order.id
  correlation : correlationOf row = order.correlationId
  charged : ∀ {σ ε : Type} (charge : σ → ChargeParams → ε → σ × Except Thrown Payment)
    (other : σ → HandlerCall → ε → σ × Except Thrown Unit),
    Charged charge other (chargeOf order row) row
  notified : Notified row

/--
The prices times the quantities come to two decimals when the runtime's numbers multiply them
and add them up.
-/
def SumsToCents (items : List ValidatedItem) : Prop :=
  Numeric.TwoDecimals (Arithmetic.double.sum
    (items.map fun item => Arithmetic.double.times item.validatedPrice.toNumber item.quantity))

/-- Whole prices do, as long as the total has 53 binary digits. -/
theorem sumsToCents_of_whole {items : List ValidatedItem} {price : ValidatedItem → ℕ}
    (hprice : ∀ item ∈ items, item.validatedPrice.toNumber = price item ∧ price item < 2 ^ 53 ∧
      item.quantity < 2 ^ 53)
    (hsum : (items.map fun item => price item * item.quantity).sum < 2 ^ 53) :
    SumsToCents items := by
  have hitems : (items.map fun item =>
      Arithmetic.double.times item.validatedPrice.toNumber item.quantity) =
        (items.map fun item => price item * item.quantity).map fun n : ℕ => (n : ℚ) := by
    rw [List.map_map]
    refine List.map_congr_left fun item hitem => ?_
    obtain ⟨hp, hlt, hquantity⟩ := hprice item hitem
    have hle : price item * item.quantity < 2 ^ 53 :=
      (List.single_le_sum (fun _ _ => Nat.zero_le _) _ (List.mem_map_of_mem hitem)).trans_lt hsum
    rw [hp]
    exact Double.times_natCast hlt hquantity hle
  rw [SumsToCents, hitems, Arithmetic.sum_natCast hsum]
  exact Numeric.twoDecimals_natCast _

theorem understood_draft_iff {d : OrderDraft} (hc : d.correlationId ≠ "") :
    Understood d.order d.entry ↔ Numeric.TwoDecimals d.data.totalAmount := by
  rw [← chargeOf_eq_iff]
  constructor
  · intro h
    exact charged_unique (h.charged _ _) (charged_draft noting _ d hc)
  · intro h
    refine ⟨⟨rfl, rfl⟩, (correlation_header d hc).2, fun charge other => ?_, notified_draft d⟩
    rw [h]
    exact charged_draft charge other d hc

/--
A call that creates an order adds one order and one outbox row. The payment service reads the
row's message as one charge for that order, of its stored total, and the notification service
as the same event, if and only if the catalogue's prices times the quantities, multiplied and
added up in the runtime's numbers, come to two decimals.
-/
theorem orderCreated_understood_iff (dto : CreateOrderDto) (services : Services)
    (w : OrderService.World) (isUuid : String → Bool) (correlationId : Option String)
    (x : CreateClock) (failAt : Option CallFailure) (items : List ValidatedItem)
    (created : OrderCreated) (hv : dto.validate services = .ok items)
    (h : (dto.createOrder services w isUuid correlationId x failAt .double).2 = .ok created) :
    (∃ order row,
      (dto.createOrder services w isUuid correlationId x failAt .double).1.db.orders =
        w.db.orders ++ [order] ∧
      (dto.createOrder services w isUuid correlationId x failAt .double).1.db.outbox =
        w.db.outbox ++ [row] ∧
      Understood order row) ↔ SumsToCents items := by
  rcases dto.createOrder_cases services w isUuid correlationId x failAt .double with
    ⟨fresh, e, -, hc⟩ | ⟨items', hv', hc⟩
  · rw [hc] at h
    cases h
  · obtain rfl : items = items' := Except.ok.inj (hv.symm.trans hv')
    have hne := w.correlationId_orderDraft isUuid
      (dto.data items (w.db.generateOrderNumber x) correlationId x .double)
    rw [hc, SumsToCents]
    refine Iff.trans ?_ (understood_draft_iff hne)
    constructor
    · rintro ⟨order, row, horder, hrow, hu⟩
      obtain rfl := List.singleton_injective (List.append_cancel_left horder)
      obtain rfl := List.singleton_injective (List.append_cancel_left hrow)
      exact hu
    · exact fun hu => ⟨_, _, rfl, rfl, hu⟩

/-- The catalogue of the sample, with its product at the price. -/
def pricedServices (price : Numeric) : Services :=
  { OrderService.sampleServices with
    catalogue := fun productId => .found ⟨productId, "Pen", .text price, "PEN-1"⟩ }

def threePens : CreateOrderDto :=
  { OrderService.sampleDto with items := [⟨"product-1", none, 3, none⟩] }

def pricedPens (price : Numeric) : List ValidatedItem :=
  [⟨"product-1", 3, .text price, "Pen", "PEN-1"⟩]

def firstMorning : CreateClock := ⟨0, "1970-01-01T00:00:00.000Z", "19700101", 0⟩

theorem pens_understood : ∃ order row,
    (threePens.createOrder (pricedServices ⟨1999⟩) .empty (fun _ => false) none firstMorning none
      .double).1.db.orders = [] ++ [order] ∧
    (threePens.createOrder (pricedServices ⟨1999⟩) .empty (fun _ => false) none firstMorning none
      .double).1.db.outbox = [] ++ [row] ∧
    Understood order row :=
  (orderCreated_understood_iff threePens (pricedServices ⟨1999⟩) .empty (fun _ => false) none
    firstMorning none (pricedPens ⟨1999⟩) ⟨1, .pending, "ORD-19700101-00001"⟩ (by decide +kernel)
    (by decide +kernel)).mpr ⟨⟨5997⟩, by decide +kernel⟩

/-- Three times 0.10 is stored as 0.30, and 0.30000000000000004 is asked for. -/
theorem dimes_misunderstood :
    let r := threePens.createOrder (pricedServices ⟨10⟩) .empty (fun _ => false) none firstMorning
      none .double
    ∃ order row, r.1.db.orders = [order] ∧ r.1.db.outbox = [row] ∧ order.totalAmount = ⟨30⟩ ∧
      Charged noting (fun s _ _ => (s, .ok ()))
        (chargeAt order row (30000000000000004 / 10 ^ 17)) row ∧ ¬ Understood order row := by
  have hne := OrderService.World.correlationId_orderDraft .empty (fun _ => false)
    (threePens.data (pricedPens ⟨10⟩) "ORD-19700101-00001" none firstMorning .double)
  have htotal : (threePens.data (pricedPens ⟨10⟩) "ORD-19700101-00001" none firstMorning
      .double).totalAmount = 30000000000000004 / 10 ^ 17 := by decide +kernel
  refine ⟨_, _, rfl, rfl, by decide +kernel, ?_, fun hu => ?_⟩
  · rw [← htotal]
    exact charged_draft noting _ _ hne
  · have htwo := (understood_draft_iff hne).mp hu
    have hround := Numeric.toNumber_ofNumber (htotal ▸ htwo)
    exact absurd hround (by decide +kernel)

end Saga
