import OrderPlatform.OrderService.ClientFields
import OrderPlatform.PaymentService.StatusMoves
import OrderPlatform.ProductService.Existence
import OrderPlatform.Saga.OrderCreated

/-! # The currency of an order

A product is quoted in a currency of its own, which the order service does not read: every
order is in dollars, and so is its charge. What is added up and charged is what was quoted
exactly when every product asked for is quoted in dollars.
-/

namespace Saga

open Store Wire
open OrderService (Order Outbox OrderDraft CreateOrder CreateOrderDto Services CreateClock
  CallFailure OrderCreated Lookup ValidatedProduct CreateSetting)
open PaymentService (Topic HandlerCall ChargeParams Payment Consumer process Env charge)
open ProductService (Product)

/-- What the order service reads of a product. -/
def validatedProduct (product : Product) : ValidatedProduct where
  id := ProductService.uuidText product.id
  name := product.name
  price := .text product.price.stored
  sku := product.sku

def Lookup.map {α β : Type*} (f : α → β) : Lookup α → Lookup β
  | .failed => .failed
  | .missing => .missing
  | .found a => .found (f a)

theorem Lookup.exists_of_map {α β : Type*} {f : α → β} {l : Lookup α} {b : β}
    (h : Lookup.map f l = .found b) : ∃ a, l = .found a := by
  cases l with
  | found a => exact ⟨a, rfl⟩
  | failed | missing => cases h

/-- The services during a call, where the product service answers from its products. -/
def answering (products : String → Lookup Product) (services : Services) : Services :=
  { services with catalogue := fun productId => Lookup.map validatedProduct (products productId) }

/-- What a step of the payment service charges and stores is in the currency. -/
structure ChargesIn (currency : String) (w w' : PaymentService.World) : Prop where
  charges : ∃ new, w'.charges = w.charges ++ new ∧ ∀ c ∈ new, c.currency = currency
  payments : ∃ new, w'.db.payments = w.db.payments ++ new ∧ ∀ p ∈ new, p.currency = currency

/-- The products asked for are quoted in the order's currency, and its event is charged in it. -/
structure Unmixed (products : String → Lookup Product) (dto : CreateOrderDto) (order : Order)
    (row : Outbox) : Prop where
  quoted : ∀ p ∈ dto.items, ∃ product, products p.productId = .found product ∧
    product.currency = order.currency
  charged : ∀ (other : PaymentService.World → HandlerCall → Env →
      PaymentService.World × Except Thrown Unit) (topic : Topic) (partition : ℕ) (offset : String)
      (now : ℕ) (answer : Env) (c : Consumer PaymentService.World),
    ∃ d, PaymentService.handleMessage topic partition (received row offset) now answer = some d ∧
      ChargesIn order.currency c.store (process (handlers charge other) c d).1.store

section Charges

variable {currency : String} {w : PaymentService.World}

theorem ChargesIn.refl : ChargesIn currency w w where
  charges := ⟨[], (List.append_nil _).symm, fun _ h => nomatch h⟩
  payments := ⟨[], (List.append_nil _).symm, fun _ h => nomatch h⟩

theorem charge_charges (w : PaymentService.World) (params : ChargeParams) (env : Env) :
    (charge w params env).1.charges = w.charges ∨
      (charge w params env).1.charges =
        w.charges ++ [(w.chargeAttempt params env.now).providerCall env.result] := by
  unfold charge
  split
  · exact Or.inl rfl
  · exact Or.inr rfl

/-- A charge asks the provider for its currency, and stores it. -/
theorem charge_chargesIn (w : PaymentService.World) (params : ChargeParams) (env : Env) :
    ChargesIn (orDefault params.currency "USD") w (charge w params env).1 := by
  constructor
  · rcases charge_charges w params env with h | h
    · exact ⟨[], by rw [h, List.append_nil], fun _ h => nomatch h⟩
    · refine ⟨_, h, fun c hc => ?_⟩
      rw [List.mem_singleton.mp hc]
      rfl
  · rcases PaymentService.charge_row w params env with h | ⟨amount, -, h⟩
    · exact ⟨[], by rw [h, List.append_nil], fun _ h => nomatch h⟩
    · refine ⟨_, h, fun p hp => ?_⟩
      rw [List.mem_singleton.mp hp]
      rfl

end Charges

section Orders

variable {products : String → Lookup Product} {services : Services} {dto : CreateOrderDto}
  {d : OrderDraft}

theorem charged_draft_in (hc : d.correlationId ≠ "")
    (other : PaymentService.World → HandlerCall → Env →
      PaymentService.World × Except Thrown Unit) (topic : Topic) (partition : ℕ) (offset : String)
    (now : ℕ) (answer : Env) (c : Consumer PaymentService.World) :
    ∃ e, PaymentService.handleMessage topic partition (received d.entry offset) now answer =
        some e ∧
      ChargesIn d.order.currency c.store (process (handlers charge other) c e).1.store := by
  obtain ⟨e, he, hp⟩ := charged_draft charge other d hc topic partition offset now answer c
  refine ⟨e, he, ?_⟩
  rw [hp]
  split
  · exact .refl
  · exact charge_chargesIn c.store (chargeAt d.order d.entry d.data.totalAmount) answer

theorem quoted_draft (h : dto.validate (answering products services) = .ok d.data.items) :
    (∀ p ∈ dto.items, ∃ product, products p.productId = .found product ∧
        product.currency = d.order.currency) ↔
      ∀ p ∈ dto.items, ∀ product, products p.productId = .found product →
        product.currency = "USD" := by
  have hfound : ∀ p ∈ dto.items, ∃ product, products p.productId = .found product := by
    refine (OrderService.forall_mem_iff_of_forall₂ (OrderService.madeOf_validate h)
      fun p item hm => iff_of_true ?_ trivial).mpr fun item _ => trivial
    obtain ⟨product, hproduct, -⟩ := hm
    exact Lookup.exists_of_map hproduct
  constructor
  · intro hq p hp product hproduct
    obtain ⟨product', hproduct', hcurrency⟩ := hq p hp
    cases hproduct.symm.trans hproduct'
    exact hcurrency
  · intro hq p hp
    obtain ⟨product, hproduct⟩ := hfound p hp
    exact ⟨product, hproduct, hq p hp product hproduct⟩

/--
A call that succeeds adds up prices of the order's currency and has the order charged in
them exactly when every product asked for is quoted in dollars.
-/
theorem unmixed_iff (products : String → Lookup Product) (dto : CreateOrderDto)
    (services : Services) (w : OrderService.World) (isUuid : String → Bool)
    (correlationId : Option String) (x : CreateClock) (failAt : Option CallFailure)
    (created : OrderCreated)
    (h : (dto.createOrder (answering products services) w isUuid correlationId x failAt).2 =
      .ok created) :
    ∃ order row,
      (dto.createOrder (answering products services) w isUuid correlationId x failAt).1.db.orders =
        w.db.orders ++ [order] ∧
      (dto.createOrder (answering products services) w isUuid correlationId x failAt).1.db.outbox =
        w.db.outbox ++ [row] ∧
      (Unmixed products dto order row ↔
        ∀ p ∈ dto.items, ∀ product, products p.productId = .found product →
          product.currency = "USD") := by
  rcases dto.createOrder_cases (answering products services) w isUuid correlationId x failAt with
    ⟨fresh, e, -, hc⟩ | ⟨items, hv, hc⟩
  · rw [hc] at h
    cases h
  · rw [hc]
    refine ⟨_, _, rfl, rfl, ?_⟩
    rw [← quoted_draft (d := dto.draft w isUuid correlationId x items) hv]
    refine ⟨fun hu => hu.quoted, fun hq => ⟨hq, ?_⟩⟩
    exact charged_draft_in (w.correlationId_orderDraft isUuid
      (dto.data items (w.db.generateOrderNumber x) correlationId x))

end Orders

/-- A catalogue of one pen, quoted in a currency. -/
def penIn (currency : String) (productId : String) : Lookup Product :=
  if productId = "product-1" then .found { ProductService.pen with currency := currency }
  else .missing

theorem pen_created (currency : String) : ((OrderService.penDto none none).createOrder
    (answering (penIn currency) OrderService.sampleServices) .empty (fun _ => false) none
    ⟨0, "1970-01-01T00:00:00.000Z", "19700101", 0⟩ none).2 = .ok OrderService.penCreated := by
  rfl

/-- The pen quoted in dollars. -/
theorem dollars_unmixed : ∃ order row,
    ((OrderService.penDto none none).createOrder
      (answering (penIn "USD") OrderService.sampleServices) .empty (fun _ => false) none
      ⟨0, "1970-01-01T00:00:00.000Z", "19700101", 0⟩ none).1.db.orders = [] ++ [order] ∧
    ((OrderService.penDto none none).createOrder
      (answering (penIn "USD") OrderService.sampleServices) .empty (fun _ => false) none
      ⟨0, "1970-01-01T00:00:00.000Z", "19700101", 0⟩ none).1.db.outbox = [] ++ [row] ∧
    (Unmixed (penIn "USD") (OrderService.penDto none none) order row ↔
      ∀ p ∈ (OrderService.penDto none none).items, ∀ product,
        penIn "USD" p.productId = .found product → product.currency = "USD") :=
  unmixed_iff _ _ _ .empty _ _ _ _ OrderService.penCreated (pen_created "USD")

/-- The pen quoted in euros is ordered in dollars. -/
theorem euros_as_dollars : ∃ order row,
    ((OrderService.penDto none none).createOrder
      (answering (penIn "EUR") OrderService.sampleServices) .empty (fun _ => false) none
      ⟨0, "1970-01-01T00:00:00.000Z", "19700101", 0⟩ none).1.db.orders = [] ++ [order] ∧
    ((OrderService.penDto none none).createOrder
      (answering (penIn "EUR") OrderService.sampleServices) .empty (fun _ => false) none
      ⟨0, "1970-01-01T00:00:00.000Z", "19700101", 0⟩ none).1.db.outbox = [] ++ [row] ∧
    order.currency = "USD" ∧ order.totalAmount = ⟨3998⟩ ∧
    ¬ Unmixed (penIn "EUR") (OrderService.penDto none none) order row := by
  refine ⟨_, _, rfl, rfl, rfl, by decide +kernel, fun h => ?_⟩
  obtain ⟨product, hproduct, hcurrency⟩ := h.quoted _ (List.mem_singleton_self _)
  cases hproduct
  exact absurd hcurrency (by decide)

end Saga
