import OrderPlatform.OrderService.Creation

/-! # Validating and pricing a request

A request for an order is checked against the user, address and product services and
priced from the catalogue before anything is written. A call that throws leaves the
database as it was; one that succeeds adds one order at the catalogue's prices, its items
in the order asked for, and one event that carries the same items and total.
-/

namespace OrderService

open Store Wire

structure CreateOrderItemDto where
  productId : String
  sku : Option String
  quantity : ℕ
  unitPrice : Option ℚ
  deriving DecidableEq, Repr

structure CreateOrderDto where
  customerUserId : String
  items : List CreateOrderItemDto
  shippingAddressId : String
  paymentMethod : Option String
  deriving DecidableEq, Repr

structure ValidatedProduct where
  id : String
  name : String
  price : Price
  sku : String
  deriving DecidableEq, Repr

/-- The answer to a lookup: the request fails, or the body has no identifier, or it has one. -/
inductive Lookup (α : Type*)
  | failed
  | missing
  | found (a : α)

def Lookup.check {α : Type*} (notFound unavailable : String) : Lookup α → Except Thrown α
  | .failed => .error (.badRequest unavailable)
  | .missing => .error (.badRequest notFound)
  | .found a => .ok a

/--
The other services during a call: which of the products they miss (`none` when the request
fails), which of the product lookups reach them, and the order in which these end.
-/
structure Services where
  user (userId : String) : Lookup String
  address (userId addressId : String) : Lookup String
  missing (ids : List String) : Option (List String)
  catalogue (productId : String) : Lookup ValidatedProduct
  reached (lookup : ℕ) : Bool
  settled : List ℕ

def rejection {α : Type*} : Except Thrown α → Option Thrown
  | .error e => some e
  | .ok _ => none

/-- `Promise.all` of calls that end in the given order: the first rejection, or all results. -/
def promiseAll {α : Type*} (settled : List ℕ) (results : List (Except Thrown α)) :
    Except Thrown (List α) :=
  match settled.findSome? fun i => results[i]?.bind rejection with
  | some e => .error e
  | none => results.mapM id

section ValidationService

variable (services : Services)

def validateUser (userId : String) : Except Thrown String :=
  (services.user userId).check ("User " ++ userId ++ " not found")
    ("Unable to validate user " ++ userId ++ ". User service may be unavailable")

def validateAddress (userId addressId : String) : Except Thrown String :=
  (services.address userId addressId).check
    ("Address " ++ addressId ++ " not found for user " ++ userId)
    ("Unable to validate address " ++ addressId ++ ". User Service may be unavailable.")

/-- The lookup of one product; a price sent by the client is not looked at. -/
def priceProduct (i : ℕ) (p : CreateOrderItemDto) : Except Thrown ValidatedItem :=
  ((if services.reached i then services.catalogue p.productId else .failed).check
    ("Product " ++ p.productId ++ " not found")
    ("Unable to validate product " ++ p.productId ++
      ". Product Service may be unavailable.")).map fun product =>
    { productId := p.productId
      quantity := p.quantity
      validatedPrice := product.price
      validatedName := product.name
      validatedSku := orDefault p.sku product.sku }

def validateAndPriceProducts (products : List CreateOrderItemDto) :
    Except Thrown (List ValidatedItem) :=
  match services.missing (products.map CreateOrderItemDto.productId) with
  | none =>
    .error (.badRequest "Unable to validate products. Product Service may be unavailable.")
  | some [] => promiseAll services.settled (products.mapIdx (priceProduct services))
  | some (m :: ms) =>
    .error (.badRequest ("Products not found: " ++ String.intercalate ", " (m :: ms)))

end ValidationService

/-- The clock of a creation: the day as the number of an order writes it, and its start. -/
structure CreateClock where
  now : ℕ
  timestamp : String
  today : String
  startOfDay : ℕ
  deriving DecidableEq, Repr

def Db.generateOrderNumber (db : Db) (x : CreateClock) : String :=
  let count := db.orders.countP fun order => x.startOfDay ≤ order.createdAt
  "ORD-" ++ x.today ++ "-" ++ String.ofList ((toString (count + 1)).toList.leftpad 5 '0')

/-- Where a call fails once its request is validated. -/
inductive CallFailure
  | generateOrderNumber
  | startTransaction
  | recording (step : CreateStep)
  deriving DecidableEq, Repr

structure OrderCreated where
  orderId : Uuid
  status : OrderStatus
  orderNumber : String
  deriving DecidableEq, Repr

namespace CreateOrderDto

variable (dto : CreateOrderDto) (services : Services)

def validate : Except Thrown (List ValidatedItem) := do
  let _ ← validateUser services dto.customerUserId
  let _ ← validateAddress services dto.customerUserId dto.shippingAddressId
  validateAndPriceProducts services dto.items

def data (items : List ValidatedItem) (orderNumber : String) (correlationId : Option String)
    (x : CreateClock) (arithmetic : Arithmetic := .exact) : CreateOrder where
  customerUserId := dto.customerUserId
  shippingAddressId := dto.shippingAddressId
  paymentMethod := dto.paymentMethod
  items := items
  orderNumber := orderNumber
  correlationId := correlationId
  now := x.now
  timestamp := x.timestamp
  arithmetic := arithmetic

/-- `OrderService.createOrder`. -/
def createOrder (w : World) (isUuid : String → Bool) (correlationId : Option String)
    (x : CreateClock) (failAt : Option CallFailure) (arithmetic : Arithmetic := .exact) :
    World × Except Thrown OrderCreated :=
  match dto.validate services with
  | .error e => (w, .error e)
  | .ok items =>
    let data := dto.data items (w.db.generateOrderNumber x) correlationId x arithmetic
    let record (failAt : Option CreateStep) :=
      let r := OrderService.createOrder w isUuid data failAt
      (r.1, r.2.map fun id => ⟨id, .pending, data.orderNumber⟩)
    match failAt with
    | some .generateOrderNumber | some .startTransaction => (w, .error .database)
    | some (.recording step) => record (some step)
    | none => record none

end CreateOrderDto

/-- An item of an order is an item of the request at the catalogue's price. -/
structure PricedItem (services : Services) (order : Order) (p : CreateOrderItemDto)
    (item : OrderItem) : Prop where
  order : item.orderId = order.id
  product : item.productId = p.productId
  quantity : item.quantity = p.quantity
  price : ∃ product, services.catalogue p.productId = .found product ∧
    item.unitPrice = product.price.amount
  lineTotal : item.lineTotal.toNumber = item.unitPrice.toNumber * item.quantity

/-- A JSON value of an amount: its decimal text, or the number. -/
def Carries (j : Json) (n : Numeric) : Prop := j = .str n.text ∨ j = .num n.toNumber

/-- The entry of an item in the payload of the event. -/
structure ItemPayload (item : OrderItem) (j : Json) : Prop where
  product : j.member "productId" = .ok (some (.str item.productId))
  sku : j.member "sku" = .ok (some (.str item.sku))
  quantity : j.member "quantity" = .ok (some (.num item.quantity))
  unitPrice : ∃ v, j.member "unitPrice" = .ok (some v) ∧ Carries v item.unitPrice
  lineTotal : ∃ v, j.member "lineTotal" = .ok (some v) ∧ Carries v item.lineTotal
  name : j.member "name" = .ok (some (.str item.name))

/-- The rows of a created order. -/
structure Placed (services : Services) (dto : CreateOrderDto) (order : Order)
    (items : List OrderItem) (row : Outbox) : Prop where
  customer : order.customerUserId = dto.customerUserId
  address : order.shippingAddressId = dto.shippingAddressId
  status : order.status = .pending
  version : order.version = 0
  priced : List.Forall₂ (PricedItem services order) dto.items items
  total : order.totalAmount.toNumber = (items.map fun item => item.lineTotal.toNumber).sum
  event : row.eventType = .orderCreated ∧ row.aggregateId = order.id
  payload : ∃ entries, row.payload.member "items" = .ok (some (.arr entries)) ∧
    List.Forall₂ ItemPayload items entries
  payloadTotal : ∃ v, row.payload.member "totalAmount" = .ok (some v) ∧
    Carries v order.totalAmount

section Pricing

variable {services : Services} {products : List CreateOrderItemDto} {items : List ValidatedItem}

theorem of_promiseAll {α : Type*} {settled : List ℕ} {results : List (Except Thrown α)}
    {as : List α} (h : promiseAll settled results = .ok as) : results = as.map .ok := by
  have hm : results.mapM id = .ok as := by
    unfold promiseAll at h
    split at h
    · cases h
    · exact h
  have hr : List.Forall₂ (fun r r' => r = r') results (as.map Except.ok) :=
    List.forall₂_map_right_iff.mpr (mapM_ok_iff.mp hm)
  rwa [List.forall₂_eq_eq_eq] at hr

theorem forall₂_of_mapIdx {α β ε : Type*} {R : α → β → Prop} {f : ℕ → α → Except ε β}
    {as : List α} {bs : List β} (hf : ∀ i a b, f i a = .ok b → R a b)
    (h : as.mapIdx f = bs.map .ok) : List.Forall₂ R as bs := by
  induction as generalizing f bs with
  | nil =>
    obtain rfl : bs = [] := by simpa using h.symm
    exact .nil
  | cons a as ih =>
    cases bs with
    | nil => simp at h
    | cons b bs =>
      rw [List.mapIdx_cons, List.map_cons, List.cons.injEq] at h
      exact .cons (hf 0 a b h.1) (ih (fun i => hf (i + 1)) h.2)

/-- What the validation of a product makes of an item of the request. -/
structure Validated (services : Services) (p : CreateOrderItemDto) (item : ValidatedItem) :
    Prop where
  product : item.productId = p.productId
  quantity : item.quantity = p.quantity
  price : ∃ product, services.catalogue p.productId = .found product ∧
    item.validatedPrice = product.price

theorem of_priceProduct {i : ℕ} {p : CreateOrderItemDto} {item : ValidatedItem}
    (h : priceProduct services i p = .ok item) : Validated services p item := by
  unfold priceProduct at h
  split at h
  · cases hc : services.catalogue p.productId with
    | found product =>
      rw [hc] at h
      cases h
      exact ⟨rfl, rfl, product, hc, rfl⟩
    | failed | missing =>
      rw [hc] at h
      cases h
  · cases h

theorem of_validateAndPriceProducts (h : validateAndPriceProducts services products = .ok items) :
    List.Forall₂ (Validated services) products items := by
  unfold validateAndPriceProducts at h
  split at h
  · cases h
  · exact forall₂_of_mapIdx (fun _ _ _ => of_priceProduct) (of_promiseAll h)
  · cases h

theorem of_validate {dto : CreateOrderDto} (h : dto.validate services = .ok items) :
    List.Forall₂ (Validated services) dto.items items := by
  unfold CreateOrderDto.validate at h
  obtain ⟨user, -, h⟩ := ok_of_bind h
  obtain ⟨address, -, h⟩ := ok_of_bind h
  exact of_validateAndPriceProducts h

end Pricing

section Amounts

variable (d : OrderDraft) (item : ValidatedItem)

@[simp] theorem Price.ofNumber_toNumber (p : Price) : Numeric.ofNumber p.toNumber = p.amount :=
  Numeric.ofNumber_toNumber p.amount

theorem Price.carries (p : Price) : Carries p.json p.amount := by
  cases p with
  | text n => exact Or.inl rfl
  | number n => exact Or.inr rfl

theorem ValidatedItem.twoDecimals : Numeric.TwoDecimals (item.lineTotal .exact) :=
  (Numeric.twoDecimals_toNumber _).mul_natCast _

theorem CreateOrder.twoDecimals {data : CreateOrder} (h : data.arithmetic = .exact) :
    Numeric.TwoDecimals data.totalAmount := by
  rw [totalAmount, h, Arithmetic.sum_exact]
  refine .sum fun q hq => ?_
  obtain ⟨item, -, rfl⟩ := List.mem_map.mp hq
  exact item.twoDecimals

theorem carries_num {q : ℚ} (h : Numeric.TwoDecimals q) : Carries (.num q) (.ofNumber q) :=
  Or.inr (by rw [Numeric.toNumber_ofNumber h])

variable {d} in
theorem OrderDraft.total (h : d.data.arithmetic = .exact) : d.order.totalAmount.toNumber =
    (d.items.map fun item => item.lineTotal.toNumber).sum := by
  simp only [order, items, List.map_map, Numeric.toNumber_ofNumber (CreateOrder.twoDecimals h)]
  rw [CreateOrder.totalAmount, h, Arithmetic.sum_exact]
  refine congrArg List.sum (List.map_congr_left fun item _ => ?_)
  exact (Numeric.toNumber_ofNumber item.twoDecimals).symm

theorem OrderDraft.member_items : d.payload.member "items" =
    .ok (some (.arr (d.data.items.map (ValidatedItem.payload d.data.arithmetic)))) := by
  simp [payload, Json.object, Json.member]

theorem OrderDraft.member_totalAmount :
    d.payload.member "totalAmount" = .ok (some (.num d.data.totalAmount)) := by
  simp [payload, Json.object, Json.member]

variable {d} in
theorem OrderDraft.itemPayloads (h : d.data.arithmetic = .exact) : List.Forall₂ ItemPayload
    d.items (d.data.items.map (ValidatedItem.payload d.data.arithmetic)) := by
  simp only [items, List.forall₂_map_left_iff, List.forall₂_map_right_iff, List.forall₂_same, h]
  intro item _
  constructor <;> simp [ValidatedItem.payload, Json.object, Json.member]
  · exact item.validatedPrice.carries
  · exact carries_num item.twoDecimals

variable {d} in
theorem OrderDraft.pricedItems {services : Services} {dto : CreateOrderDto}
    (ha : d.data.arithmetic = .exact)
    (h : List.Forall₂ (Validated services) dto.items d.data.items) :
    List.Forall₂ (PricedItem services d.order) dto.items d.items := by
  simp only [items, List.forall₂_map_right_iff, ha]
  refine h.imp fun p item hv => ?_
  obtain ⟨product, hp, hprice⟩ := hv.price
  constructor
  · rfl
  · exact hv.product
  · exact hv.quantity
  · exact ⟨product, hp, by simp [hprice]⟩
  · rw [Numeric.toNumber_ofNumber item.twoDecimals, Price.ofNumber_toNumber]
    rfl

end Amounts

section Call

variable (dto : CreateOrderDto) (services : Services) (w : World) (isUuid : String → Bool)
  (correlationId : Option String) (x : CreateClock) (failAt : Option CallFailure)

/-- The draft of a call whose validation returned the items. -/
def CreateOrderDto.draft (items : List ValidatedItem) (arithmetic : Arithmetic := .exact) :
    OrderDraft :=
  w.orderDraft isUuid (dto.data items (w.db.generateOrderNumber x) correlationId x arithmetic)

variable {dto services w isUuid correlationId x} in
theorem CreateOrderDto.placed_draft {items : List ValidatedItem}
    (h : dto.validate services = .ok items) :
    Placed services dto (dto.draft w isUuid correlationId x items).order
      (dto.draft w isUuid correlationId x items).items
      (dto.draft w isUuid correlationId x items).entry where
  customer := rfl
  address := rfl
  status := rfl
  version := rfl
  priced := OrderDraft.pricedItems rfl (of_validate h)
  total := OrderDraft.total rfl
  event := ⟨rfl, rfl⟩
  payload := ⟨_, OrderDraft.member_items _, OrderDraft.itemPayloads rfl⟩
  payloadTotal := ⟨_, OrderDraft.member_totalAmount _, carries_num (CreateOrder.twoDecimals rfl)⟩

/-- A call throws and writes nothing, or its validation passed and it writes its draft. -/
theorem CreateOrderDto.createOrder_cases (arithmetic : Arithmetic := .exact) :
    (∃ fresh e, w.fresh ≤ fresh ∧
      dto.createOrder services w isUuid correlationId x failAt arithmetic =
        (⟨w.db, fresh⟩, .error e)) ∨
    ∃ items, dto.validate services = .ok items ∧
      dto.createOrder services w isUuid correlationId x failAt arithmetic =
        (⟨(dto.draft w isUuid correlationId x items arithmetic).created w.db, w.fresh + 5⟩,
          .ok ⟨(dto.draft w isUuid correlationId x items arithmetic).orderId, .pending,
            w.db.generateOrderNumber x⟩) := by
  unfold createOrder
  cases hv : dto.validate services with
  | error e => exact Or.inl ⟨w.fresh, e, le_rfl, rfl⟩
  | ok items =>
    have hrecord (failAt : Option CreateStep) :=
      OrderService.createOrder_cases w isUuid
        (dto.data items (w.db.generateOrderNumber x) correlationId x arithmetic) failAt
    match failAt with
    | some .generateOrderNumber | some .startTransaction =>
      exact Or.inl ⟨w.fresh, .database, le_rfl, rfl⟩
    | some (.recording step) =>
      rcases hrecord (some step) with h | h
      · exact Or.inl ⟨w.fresh + 5, .database, Nat.le_add_right _ _, by simp only [h]; rfl⟩
      · exact Or.inr ⟨items, rfl, by simp only [h]; rfl⟩
    | none =>
      rcases hrecord none with h | h
      · exact Or.inl ⟨w.fresh + 5, .database, Nat.le_add_right _ _, by simp only [h]; rfl⟩
      · exact Or.inr ⟨items, rfl, by simp only [h]; rfl⟩

/-- What is left to fail once the request is validated: a statement, or the order's number. -/
theorem CreateOrderDto.createOrder_of_validated {items : List ValidatedItem}
    (h : dto.validate services = .ok items) :
    (dto.createOrder services w isUuid correlationId x failAt).2 =
      if failAt = none ∧ ∀ o ∈ w.db.orders, o.orderNumber ≠ w.db.generateOrderNumber x then
        .ok ⟨(dto.draft w isUuid correlationId x items).orderId, .pending,
          w.db.generateOrderNumber x⟩
      else .error .database := by
  have hrecord (failAt : Option CreateStep) := @OrderDraft.record_isSome_iff
    (dto.draft w isUuid correlationId x items) failAt w.db
  unfold createOrder
  simp only [h]
  match failAt with
  | some .generateOrderNumber | some .startTransaction => rfl
  | some (.recording step) =>
    have hs : ¬ ((dto.draft w isUuid correlationId x items).record (some step) w.db).2.isSome =
        true := fun hr => by cases ((hrecord _).mp hr).1
    simp only [OrderService.createOrder, reduceCtorEq, false_and, if_false]
    exact congrArg (Except.map _) (if_neg hs)
  | none =>
    by_cases hfree : ∀ o ∈ w.db.orders, o.orderNumber ≠ w.db.generateOrderNumber x
    · have hs := (hrecord none).mpr ⟨rfl, hfree⟩
      rw [if_pos ⟨rfl, hfree⟩]
      exact congrArg (Except.map _) (if_pos hs)
    · have hs := fun hr => hfree ((hrecord none).mp hr).2
      rw [if_neg fun hn => hfree hn.2]
      exact congrArg (Except.map _) (if_neg hs)

end Call

/--
A call that throws leaves every table as it was. One that succeeds adds one PENDING order
of version 0, one item for each item asked for, at the catalogue's price, and one
`OrderCreated` row that carries the same items and total.
-/
theorem CreateOrderDto.createOrder_placed (dto : CreateOrderDto) (services : Services) (w : World)
    (isUuid : String → Bool) (correlationId : Option String) (x : CreateClock)
    (failAt : Option CallFailure) :
    match dto.createOrder services w isUuid correlationId x failAt with
    | (w', .error _) => w'.db = w.db
    | (w', .ok created) => ∃ order items row,
        w'.db.orders = w.db.orders ++ [order] ∧ w'.db.items = w.db.items ++ items ∧
        w'.db.outbox = w.db.outbox ++ [row] ∧ created.orderId = order.id ∧
        Placed services dto order items row := by
  rcases dto.createOrder_cases services w isUuid correlationId x failAt with
    ⟨fresh, e, -, h⟩ | ⟨items, hv, h⟩
  · rw [h]
  · rw [h]
    exact ⟨_, _, _, rfl, rfl, rfl, rfl, placed_draft hv⟩

/-- A product asked for twice, at a price sent by the client that is not the catalogue's. -/
def sampleDto : CreateOrderDto where
  customerUserId := "user-1"
  items := [⟨"product-1", none, 2, some 1⟩, ⟨"product-1", some "PEN-X", 1, none⟩]
  shippingAddressId := "address-1"
  paymentMethod := none

def sampleServices : Services where
  user userId := .found userId
  address _ addressId := .found addressId
  missing _ := some []
  catalogue productId := .found ⟨productId, "Pen", .text ⟨1999⟩, "PEN-1"⟩
  reached _ := true
  settled := [1, 0]

example : ((sampleDto.createOrder sampleServices .empty (fun _ => false) none
    ⟨0, "1970-01-01T00:00:00.000Z", "19700101", 0⟩ none).1.db.orders.map fun order =>
      (order.orderNumber, order.totalAmount)) = [("ORD-19700101-00001", ⟨5997⟩)] := by
  decide +kernel

end OrderService
