import OrderPlatform.OrderService.Controller
import OrderPlatform.ProductService.Echoes
import OrderPlatform.Saga.Currencies
import OrderPlatform.UserService.Addresses
import OrderPlatform.Wire.Dtos

/-! # References between the services

An order names a user, an address and products that other services keep, and no database
checks them. A creation looks each of them up by a request of its own, and between these and the
insert all the services go on. Nothing they do takes away what a creation has seen.
-/

namespace Saga

open Runs Store Wire
open OrderService (CreateOrderDto CreateOrderItemDto ValidatedItem Services StatusCall StatusAnswer
  StatusEffect CreateClock CallFailure CreateStep OrderCreated Lookup Order validateUser
  validateAddress priceProduct promiseAll validateAndPriceProducts statusStep statusStep_effect)
open ProductService (ProductId checkExistence readUuid)
open UserService (Accounts AccountCall AuthService Address)

/-- The services that take part, with what their databases make of texts. -/
structure Platform where
  auth : AuthService
  isUuid : String → Bool
  numeral : ℚ → String
  ilike : String → String → Bool
  rank : Uuid → ℕ

/-- The tables of the services. -/
structure Databases where
  accounts : Accounts
  catalogue : ProductService.World
  orders : OrderService.World

def Databases.empty : Databases := ⟨.empty, ⟨[], Cache.empty, 0⟩, .empty⟩

/-- The identifier of a product, if a text is one the endpoint lets by. -/
def productId (text : String) : Option ProductId :=
  match h : readUuid text with
  | none => none
  | some uuid => some ⟨text, uuid, h⟩

/-- The body of `POST /products/exists` that names products only, at most so many. -/
def productIds (texts : List String) : Option (List ProductId) :=
  if texts.length ≤ 200 then texts.mapM productId else none

section Requests

variable (s : AuthService) (t : Databases)

/-- What a request of the order service reads; without a response, or with an error's, it fails. -/
def Databases.services (reached : Bool) : Services where
  user userId :=
    match s.findById t.accounts.users userId ⟨0, none⟩ with
    | .ok user => if reached then .found user.id else .failed
    | .error _ => .failed
  address userId addressId :=
    match t.accounts.showAddress s.uuidColumn userId addressId with
    | .ok address => if reached then .found address.id else .failed
    | .error _ => .failed
  missing ids :=
    if reached then
      (productIds ids).map fun ids => (checkExistence t.catalogue.products (some ids) none).missing
    else none
  catalogue id :=
    match productId id with
    | none => .failed
    | some id =>
      match (t.catalogue.findById id).2 with
      | .ok (.product product) => .found (validatedProduct product)
      | .ok _ => .missing
      | .error _ => .failed
  reached _ := reached
  settled := []

/-- The product service after the lookup of a product, which may have filled its cache. -/
def Databases.afterLookup (id : String) (reached : Bool) : Databases :=
  match productId id with
  | none => t
  | some id => if reached then { t with catalogue := (t.catalogue.findById id).1 } else t

end Requests

/-- The first half of `validateAndPriceProducts`. -/
def checkProducts (services : Services) (products : List CreateOrderItemDto) : Except Thrown Unit :=
  match services.missing (products.map CreateOrderItemDto.productId) with
  | none =>
    .error (.badRequest "Unable to validate products. Product Service may be unavailable.")
  | some [] => .ok ()
  | some (m :: ms) =>
    .error (.badRequest ("Products not found: " ++ String.intercalate ", " (m :: ms)))

theorem validateAndPriceProducts_eq (services : Services) (products : List CreateOrderItemDto) :
    validateAndPriceProducts services products = (checkProducts services products).bind fun _ =>
      promiseAll services.settled (products.mapIdx (priceProduct services)) := by
  unfold validateAndPriceProducts checkProducts
  rcases services.missing (products.map CreateOrderItemDto.productId) with _ | _ | ⟨m, ms⟩ <;> rfl

/-- Where a call stands; the first three kinds are the callers that create no order. -/
inductive Point
  | accounts
  | catalogue
  | status (c : StatusCall)
  | validatingUser (dto : CreateOrderDto) (correlationId : Option String)
  | validatingAddress (dto : CreateOrderDto) (correlationId : Option String)
  | checkingProducts (dto : CreateOrderDto) (correlationId : Option String)
  | pricing (dto : CreateOrderDto) (correlationId : Option String)
      (items : List (Option ValidatedItem))
  | numbering (dto : CreateOrderDto) (correlationId : Option String) (items : List ValidatedItem)
  | recording (dto : CreateOrderDto) (correlationId : Option String) (items : List ValidatedItem)
      (orderNumber : String)
  | returned (created : OrderCreated)
  | threw (e : Thrown)

/-- What a step is given: the call of another caller, an answer, or the clock. -/
inductive Input
  | account (c : AccountCall)
  | product (c : ProductService.Call)
  | status (x : StatusAnswer)
  | reply (reached : Bool)
  | priced (i : ℕ) (reached : Bool)
  | clock (x : CreateClock) (failAt : Option CallFailure)

/-- The products are looked up at once, and the call goes on when all of them are there. -/
def Point.priced (dto : CreateOrderDto) (correlationId : Option String)
    (items : List (Option ValidatedItem)) : Point :=
  match items.mapM id with
  | none => .pricing dto correlationId items
  | some items => .numbering dto correlationId items

section Steps

variable (p : Platform)

/-- The transaction of a creation, whose insert refuses a customer that is no identifier. -/
def recordOrder (t : Databases) (dto : CreateOrderDto) (correlationId : Option String)
    (items : List ValidatedItem) (orderNumber : String) (x : CreateClock)
    (failAt : Option CreateStep) : Databases × Point :=
  match OrderService.createOrder t.orders p.isUuid (dto.data items orderNumber correlationId x)
      failAt with
  | (w, .error e) => ({ t with orders := w }, .threw e)
  | (w, .ok id) =>
    match p.auth.uuidColumn dto.customerUserId with
    | none => ({ t with orders := { t.orders with fresh := w.fresh } }, .threw .database)
    | some c => ({ t with orders := w.spelled id c }, .returned ⟨id, .pending, orderNumber⟩)

/-- One step of a call, in which one service answers one request or runs one statement. -/
def databasesStep : Machine Databases Point Input
  | t, .accounts, .account c => some ({ t with accounts := t.accounts.call p.auth c }, .accounts)
  | t, .catalogue, .product c =>
    (t.catalogue.call p.numeral p.ilike p.rank c).map fun w =>
      ({ t with catalogue := w }, .catalogue)
  | t, .status c, .status x =>
    (statusStep t.orders c x).map fun r => ({ t with orders := r.1 }, .status r.2)
  | t, .validatingUser dto corr, .reply reached =>
    match validateUser (t.services p.auth reached) dto.customerUserId with
    | .error e => some (t, .threw e)
    | .ok _ => some (t, .validatingAddress dto corr)
  | t, .validatingAddress dto corr, .reply reached =>
    match validateAddress (t.services p.auth reached) dto.customerUserId
        dto.shippingAddressId with
    | .error e => some (t, .threw e)
    | .ok _ => some (t, .checkingProducts dto corr)
  | t, .checkingProducts dto corr, .reply reached =>
    match checkProducts (t.services p.auth reached) dto.items with
    | .error e => some (t, .threw e)
    | .ok () => some (t, .priced dto corr (dto.items.map fun _ => none))
  | t, .pricing dto corr items, .priced i reached =>
    match dto.items[i]?, items[i]? with
    | some item, some none =>
      match priceProduct (t.services p.auth reached) i item with
      | .error e => some (t.afterLookup item.productId reached, .threw e)
      | .ok priced =>
        some (t.afterLookup item.productId reached, .priced dto corr (items.set i (some priced)))
    | _, _ => none
  | t, .numbering dto corr items, .clock x failAt =>
    if failAt = some .generateOrderNumber then some (t, .threw .database)
    else some (t, .recording dto corr items (t.orders.db.generateOrderNumber x))
  | t, .recording dto corr items orderNumber, .clock x failAt =>
    match failAt with
    | some .generateOrderNumber => none
    | some .startTransaction => some (t, .threw .database)
    | some (.recording step) => some (recordOrder p t dto corr items orderNumber x (some step))
    | none => some (recordOrder p t dto corr items orderNumber x none)
  | _, _, _ => none

end Steps

section Solo

variable {s : AuthService} {t : Databases} {p : Platform}

/-- A lookup that fills the cache answers the next one as that would have been answered. -/
theorem findById_findById (w : ProductService.World) (id id' : ProductId) :
    ((w.findById id).1.findById id').2 = (w.findById id').2 := by
  generalize hr : w.findById id = r
  have hf := hr ▸ @ProductService.found_findById w id
  cases hf with
  | hit e hc => rfl
  | missing hc hn => rfl
  | filled product hc hp =>
    by_cases hid : id' = id
    · subst hid
      rw [hr]
      simp [ProductService.World.findById]
    · have hne : ProductService.productKey id'.text ≠ ProductService.productKey id.text :=
        fun h => hid (ProductService.productKey_inj.mp h)
      unfold ProductService.World.findById
      simp only [Cache.set_of_ne hne]
      cases w.cache (ProductService.productKey id'.text) with
      | some e => rfl
      | none =>
        have hrow : (⟨w.products,
          w.cache.set (ProductService.productKey id.text) (.product product), w.fresh⟩ :
            ProductService.World).row id'.uuid = w.row id'.uuid := rfl
        simp only [hrow]
        cases w.row id'.uuid <;> rfl

theorem products_findById (w : ProductService.World) (id : ProductId) :
    (w.findById id).1.products = w.products := by
  generalize hr : w.findById id = r
  have hf := hr ▸ @ProductService.found_findById w id
  cases hf <;> rfl

/-- The lookup of a product may fill the cache, and does nothing else. -/
theorem afterLookup_cases (t : Databases) (text : String) (reached : Bool) :
    t.afterLookup text reached = t ∨ ∃ id : ProductId,
      t.afterLookup text reached = { t with catalogue := (t.catalogue.findById id).1 } := by
  unfold Databases.afterLookup
  cases productId text with
  | none => exact Or.inl rfl
  | some id =>
    cases reached with
    | false => exact Or.inl rfl
    | true => exact Or.inr ⟨id, rfl⟩

theorem services_afterLookup (text : String) :
    (t.afterLookup text true).services s true = t.services s true := by
  rcases afterLookup_cases t text true with h | ⟨id, h⟩
  · rw [h]
  · rw [h]
    simp only [Databases.services, products_findById, findById_findById]

theorem orders_afterLookup (text : String) (reached : Bool) :
    (t.afterLookup text reached).orders = t.orders := by
  rcases afterLookup_cases t text reached with h | ⟨id, h⟩ <;> rw [h]

variable {dto : CreateOrderDto} {corr : Option String} {items : List ValidatedItem}

/-- A creation goes on when all of its items are priced, and waits until then. -/
theorem priced_cases (dto : CreateOrderDto) (corr : Option String)
    (l : List (Option ValidatedItem)) : Point.priced dto corr l = .pricing dto corr l ∨
      ∃ items : List ValidatedItem, l = items.map some ∧
        Point.priced dto corr l = .numbering dto corr items := by
  unfold Point.priced
  split
  · exact Or.inl rfl
  · rename_i items hitems
    have hr : List.Forall₂ (fun r r' => r = r') l (items.map some) :=
      List.forall₂_map_right_iff.mpr (mapM_eq_some_iff.mp hitems)
    rw [List.forall₂_eq_eq_eq] at hr
    exact Or.inr ⟨items, hr, rfl⟩

theorem priced_map_some : Point.priced dto corr (items.map some) = .numbering dto corr items := by
  have hm : (items.map some).mapM id = some items :=
    mapM_eq_some_iff.mpr (List.forall₂_map_left_iff.mpr (List.forall₂_same.mpr fun _ _ => rfl))
  simp only [Point.priced, hm]

theorem priced_of_none {l : List (Option ValidatedItem)} (h : none ∈ l) :
    Point.priced dto corr l = .pricing dto corr l := by
  rcases priced_cases dto corr l with hp | ⟨all, rfl, -⟩
  · exact hp
  · obtain ⟨v, -, hv⟩ := List.mem_map.mp h
    cases hv

/-- The result of a call that has ended. -/
def Point.result : Point → Option (Except Thrown OrderCreated)
  | .returned created => some (.ok created)
  | .threw e => some (.error e)
  | _ => none

/-- The point the lookups of the remaining products lead to. -/
def Point.ofPriced (dto : CreateOrderDto) (corr : Option String) (done : List ValidatedItem) :
    Except Thrown (List ValidatedItem) → Point
  | .error e => .threw e
  | .ok items => .numbering dto corr (done ++ items)

/-- Products looked up in the order of the request are priced as the catalogue prices them. -/
theorem pricing_solo (rest : List CreateOrderItemDto) (t : Databases) (done : List ValidatedItem)
    (before : List CreateOrderItemDto) (hitems : dto.items = before ++ rest)
    (hlen : before.length = done.length) : ∃ inputs t',
      exec (Machine.solo (databasesStep p))
          (t, .priced dto corr (done.map some ++ rest.map fun _ => none)) inputs =
        some (t', .ofPriced dto corr done
          (rest.mapM (priceProduct (t.services p.auth true) 0))) ∧ t'.orders = t.orders := by
  induction rest generalizing t done before with
  | nil =>
    refine ⟨[], t, ?_, rfl⟩
    simp [priced_map_some, Point.ofPriced, pure, Except.pure]
  | cons item rest ih =>
    let i := done.length
    let l := done.map some ++ (item :: rest).map fun _ => (none : Option ValidatedItem)
    have hpoint : Point.priced dto corr l = .pricing dto corr l := priced_of_none (by simp [l])
    have hitem : dto.items[i]? = some item := by simp [hitems, i, ← hlen]
    have hnone : l[i]? = some none := by simp [l, i]
    have hprice : priceProduct (t.services p.auth true) i item =
        priceProduct (t.services p.auth true) 0 item := rfl
    have hset (v : ValidatedItem) :
        l.set i (some v) = (done ++ [v]).map some ++ rest.map fun _ => none := by
      simp [l, i]
    rw [hpoint]
    cases hv : priceProduct (t.services p.auth true) 0 item with
    | error e =>
      refine ⟨[.priced i true], t.afterLookup item.productId true, ?_, orders_afterLookup _ _⟩
      simp [exec_cons, Machine.solo, databasesStep, hitem, hnone, hprice, hv, Point.ofPriced, bind,
        Except.bind]
    | ok v =>
      obtain ⟨inputs, t', hexec, horders⟩ := ih (t.afterLookup item.productId true) (done ++ [v])
        (before ++ [item]) (by simp [hitems]) (by simp [hlen])
      rw [services_afterLookup] at hexec
      refine ⟨.priced i true :: inputs, t', ?_, horders.trans (orders_afterLookup _ _)⟩
      have hstep : Machine.solo (databasesStep p) (t, .pricing dto corr l) (.priced i true) =
          some (t.afterLookup item.productId true,
            .priced dto corr ((done ++ [v]).map some ++ rest.map fun _ => none)) := by
        simp only [Machine.solo, databasesStep, hitem, hnone, hprice, hv, hset]
      rw [exec_cons, hstep, Option.bind_some, hexec]
      simp only [List.mapM_cons, hv, bind, Except.bind]
      cases rest.mapM (priceProduct (t.services p.auth true) 0) with
      | error e => rfl
      | ok items => simp [Point.ofPriced, pure, Except.pure]

theorem validate_eq (services : Services) (hs : services.settled = [])
    (hr : ∀ i, priceProduct services i = priceProduct services 0) : dto.validate services =
      (validateUser services dto.customerUserId).bind fun _ =>
        (validateAddress services dto.customerUserId dto.shippingAddressId).bind fun _ =>
          (checkProducts services dto.items).bind fun _ =>
            dto.items.mapM (priceProduct services 0) := by
  have hmap : dto.items.mapIdx (priceProduct services) = dto.items.map (priceProduct services 0) :=
    List.ext_getElem (by simp) fun i _ _ => by simp [hr i]
  simp only [CreateOrderDto.validate, validateAndPriceProducts_eq, promiseAll, hs, hmap,
    List.findSome?_nil, List.mapM_map]
  rfl

/-- The recording of an order is the rest of its creation. -/
theorem recordOrder_eq (x : OrderService.Occasion) (failAt : Option CreateStep)
    (hv : dto.validate x.services = .ok items)
    (hf : x.createFails = failAt.map .recording) :
    let r := recordOrder p t dto corr items (t.orders.db.generateOrderNumber x.clock) x.clock failAt
    r.1.orders = (t.orders.createOrder p.auth.uuidColumn p.isUuid dto corr x).1 ∧
      r.2.result = some (t.orders.createOrder p.auth.uuidColumn p.isUuid dto corr x).2 := by
  have hrun : dto.createOrder x.services t.orders p.isUuid corr x.clock x.createFails =
      ((OrderService.createOrder t.orders p.isUuid
          (dto.data items (t.orders.db.generateOrderNumber x.clock) corr x.clock) failAt).1,
        (OrderService.createOrder t.orders p.isUuid
          (dto.data items (t.orders.db.generateOrderNumber x.clock) corr x.clock) failAt).2.map
          fun id => ⟨id, .pending, t.orders.db.generateOrderNumber x.clock⟩) := by
    unfold CreateOrderDto.createOrder
    rw [hv, hf]
    cases failAt <;> rfl
  unfold OrderService.World.createOrder recordOrder
  rw [hrun]
  generalize OrderService.createOrder t.orders p.isUuid
    (dto.data items (t.orders.db.generateOrderNumber x.clock) corr x.clock) failAt = r
  rcases r with ⟨w, e | id⟩
  · exact ⟨rfl, rfl⟩
  · simp only [Except.map]
    cases p.auth.uuidColumn dto.customerUserId <;> exact ⟨rfl, rfl⟩

/-- The requests of a validation that all reach their services, one after the other. -/
theorem validate_solo (dto : CreateOrderDto) (corr : Option String) : ∃ inputs t',
    exec (Machine.solo (databasesStep p)) (t, .validatingUser dto corr) inputs =
        some (t', .ofPriced dto corr [] (dto.validate (t.services p.auth true))) ∧
      t'.orders = t.orders := by
  rw [@validate_eq dto (t.services p.auth true) rfl fun _ => rfl]
  cases hu : validateUser (t.services p.auth true) dto.customerUserId with
  | error e =>
    refine ⟨[.reply true], t, ?_, rfl⟩
    simp [exec_cons, Machine.solo, databasesStep, hu, Except.bind, Point.ofPriced]
  | ok user =>
    cases ha : validateAddress (t.services p.auth true) dto.customerUserId
      dto.shippingAddressId with
    | error e =>
      refine ⟨[.reply true, .reply true], t, ?_, rfl⟩
      simp [exec_cons, Machine.solo, databasesStep, hu, ha, Except.bind, Point.ofPriced]
    | ok address =>
      cases hp : checkProducts (t.services p.auth true) dto.items with
      | error e =>
        refine ⟨[.reply true, .reply true, .reply true], t, ?_, rfl⟩
        simp [exec_cons, Machine.solo, databasesStep, hu, ha, hp, Except.bind, Point.ofPriced]
      | ok _ =>
        obtain ⟨inputs, t', hexec, horders⟩ := @pricing_solo p dto corr dto.items t [] []
          rfl rfl
        refine ⟨.reply true :: .reply true :: .reply true :: inputs, t', ?_, horders⟩
        simp only [exec_cons, Machine.solo, databasesStep, hu, ha, hp, Option.bind_some]
        exact hexec

/-- The steps of a call that nothing interrupts compute the creation of an order. -/
theorem createOrder_solo (dto : CreateOrderDto) (corr : Option String) (x : OrderService.Occasion)
    (hx : x.services = t.services p.auth true) : ∃ inputs t' q',
      exec (Machine.solo (databasesStep p)) (t, .validatingUser dto corr) inputs = some (t', q') ∧
      t'.orders = (t.orders.createOrder p.auth.uuidColumn p.isUuid dto corr x).1 ∧
      q'.result = some (t.orders.createOrder p.auth.uuidColumn p.isUuid dto corr x).2 := by
  obtain ⟨inputs, t₁, hexec, horders⟩ := @validate_solo t p dto corr
  rw [← hx] at hexec
  cases hv : dto.validate x.services with
  | error e =>
    refine ⟨inputs, t₁, .threw e, by rw [hexec, hv]; rfl, ?_, ?_⟩
    · simp only [horders, OrderService.World.createOrder, CreateOrderDto.createOrder, hv]
    · simp only [Point.result, OrderService.World.createOrder, CreateOrderDto.createOrder, hv]
  | ok items =>
    have hrest (more : List Input) (r : Databases × Point)
        (hr : exec (Machine.solo (databasesStep p)) (t₁, .numbering dto corr items) more = some r) :
        exec (Machine.solo (databasesStep p)) (t, .validatingUser dto corr) (inputs ++ more) =
          some r := by
      rw [exec_append, hexec, hv]
      exact hr
    have hrecord (failAt : Option CreateStep) (hf : x.createFails = failAt.map .recording) :=
      @recordOrder_eq t₁ p dto corr items x failAt hv hf
    match hf : x.createFails with
    | some .generateOrderNumber =>
      refine ⟨_, t₁, .threw .database,
        hrest [.clock x.clock (some .generateOrderNumber)] _ rfl, ?_, ?_⟩
      · simp only [horders, OrderService.World.createOrder, CreateOrderDto.createOrder, hv, hf]
      · simp only [Point.result, OrderService.World.createOrder, CreateOrderDto.createOrder, hv, hf]
    | some .startTransaction =>
      refine ⟨_, t₁, .threw .database,
        hrest [.clock x.clock none, .clock x.clock (some .startTransaction)] _ rfl, ?_, ?_⟩
      · simp only [horders, OrderService.World.createOrder, CreateOrderDto.createOrder, hv, hf]
      · simp only [Point.result, OrderService.World.createOrder, CreateOrderDto.createOrder, hv, hf]
    | some (.recording step) =>
      let r := recordOrder p t₁ dto corr items (t₁.orders.db.generateOrderNumber x.clock) x.clock
        (some step)
      refine ⟨_, r.1, r.2,
        hrest [.clock x.clock none, .clock x.clock (some (.recording step))] r rfl, ?_⟩
      rw [← horders]
      exact hrecord (some step) hf
    | none =>
      let r := recordOrder p t₁ dto corr items (t₁.orders.db.generateOrderNumber x.clock) x.clock
        none
      refine ⟨_, r.1, r.2, hrest [.clock x.clock none, .clock x.clock none] r rfl, ?_⟩
      rw [← horders]
      exact hrecord none hf

end Solo

/-- What a step can do to the tables, and what an answer it goes on with says of them. -/
inductive Outcome (p : Platform) (t : Databases) : Point → Databases → Point → Prop
  | account (c : AccountCall) :
    Outcome p t .accounts { t with accounts := t.accounts.call p.auth c } .accounts
  | product (c : ProductService.Call) (w : ProductService.World)
    (h : t.catalogue.call p.numeral p.ilike p.rank c = some w) :
    Outcome p t .catalogue { t with catalogue := w } .catalogue
  | status (c c' : StatusCall) (x : StatusAnswer) (w : OrderService.World)
    (h : StatusEffect t.orders x c w c') :
    Outcome p t (.status c) { t with orders := w } (.status c')
  | refused (q : Point) (e : Thrown) : Outcome p t q t (.threw e)
  | user (dto : CreateOrderDto) (corr : Option String) :
    Outcome p t (.validatingUser dto corr) t (.validatingAddress dto corr)
  | address (dto : CreateOrderDto) (corr : Option String) (address : Address)
    (h : t.accounts.showAddress p.auth.uuidColumn dto.customerUserId dto.shippingAddressId =
      .ok address) :
    Outcome p t (.validatingAddress dto corr) t (.checkingProducts dto corr)
  | checked (dto : CreateOrderDto) (corr : Option String) :
    Outcome p t (.checkingProducts dto corr) t (.priced dto corr (dto.items.map fun _ => none))
  | unpriced (dto : CreateOrderDto) (corr : Option String) (items : List (Option ValidatedItem))
    (id : String) (reached : Bool) (e : Thrown) :
    Outcome p t (.pricing dto corr items) (t.afterLookup id reached) (.threw e)
  | priced (dto : CreateOrderDto) (corr : Option String) (items : List (Option ValidatedItem))
    (i : ℕ) (id : ProductId) (reached : Bool) (quantity : ℕ) (sku : String)
    (product : ProductService.Product)
    (h : (t.catalogue.findById id).2 = .ok (.product product)) :
    Outcome p t (.pricing dto corr items) (t.afterLookup id.text reached)
      (.priced dto corr (items.set i
        (some ⟨id.text, quantity, .text product.price.stored, product.name, sku⟩)))
  | numbered (dto : CreateOrderDto) (corr : Option String) (items : List ValidatedItem)
    (orderNumber : String) :
    Outcome p t (.numbering dto corr items) t (.recording dto corr items orderNumber)
  | unrecorded (dto : CreateOrderDto) (corr : Option String) (items : List ValidatedItem)
    (orderNumber : String) (fresh : Uuid) (e : Thrown) (hf : t.orders.fresh ≤ fresh) :
    Outcome p t (.recording dto corr items orderNumber) { t with orders := ⟨t.orders.db, fresh⟩ }
      (.threw e)
  | recorded (dto : CreateOrderDto) (corr : Option String) (items : List ValidatedItem)
    (orderNumber : String) (d : OrderService.OrderDraft) (x : CreateClock) (fresh : Uuid)
    (customer : String) (hd : d.data = dto.data items orderNumber corr x)
    (hle : t.orders.fresh ≤ d.orderId) (hlt : d.orderId < fresh)
    (h : p.auth.uuidColumn dto.customerUserId = some customer) :
    Outcome p t (.recording dto corr items orderNumber)
      { t with orders :=
          (⟨d.created t.orders.db, fresh⟩ : OrderService.World).spelled d.orderId customer }
      (.returned ⟨d.orderId, .pending, orderNumber⟩)

section Outcome

variable {p : Platform} {t t' : Databases} {q q' : Point} {x : Input}

theorem Lookup.of_check {α : Type*} {notFound unavailable : String} {l : Lookup α} {a : α}
    (h : l.check notFound unavailable = .ok a) : l = .found a := by
  cases l with
  | failed | missing => cases h
  | found b =>
    cases h
    rfl

theorem address_of_validate {dto : CreateOrderDto} {reached : Bool} {id : String}
    (h : validateAddress (t.services p.auth reached) dto.customerUserId dto.shippingAddressId =
      .ok id) : ∃ address, t.accounts.showAddress p.auth.uuidColumn dto.customerUserId
        dto.shippingAddressId = .ok address := by
  have hl : (t.services p.auth reached).address dto.customerUserId dto.shippingAddressId =
      .found id := Lookup.of_check h
  simp only [Databases.services] at hl
  split at hl
  · exact ⟨_, by assumption⟩
  · cases hl

theorem text_of_productId {text : String} {id : ProductId} (h : productId text = some id) :
    id.text = text := by
  unfold productId at h
  split at h
  · cases h
  · cases h
    rfl

/-- A product that is priced was found, and gives the item its price and name. -/
theorem product_of_price {i : ℕ} {item : CreateOrderItemDto} {v : ValidatedItem} {reached : Bool}
    (h : priceProduct (t.services p.auth reached) i item = .ok v) :
    ∃ (id : ProductId) (quantity : ℕ) (sku : String) (product : ProductService.Product),
      id.text = item.productId ∧ (t.catalogue.findById id).2 = .ok (.product product) ∧
      v = ⟨id.text, quantity, .text product.price.stored, product.name, sku⟩ := by
  obtain ⟨-, -, found, hfound, -⟩ := OrderService.of_priceProduct h
  have hreached : reached = true := by
    cases reached with
    | true => rfl
    | false => cases h
  subst hreached
  simp only [Databases.services] at hfound
  split at hfound
  · cases hfound
  · rename_i id hid
    split at hfound
    · rename_i product hproduct
      refine ⟨id, item.quantity, orDefault item.sku product.sku, product, text_of_productId hid,
        hproduct, ?_⟩
      simp only [priceProduct, Databases.services, hid, hproduct, if_true] at h
      cases h
      rw [text_of_productId hid]
      rfl
    · cases hfound
    · cases hfound

theorem outcome_recordOrder (t : Databases) (dto : CreateOrderDto) (corr : Option String)
    (items : List ValidatedItem) (orderNumber : String) (x : CreateClock)
    (failAt : Option CreateStep) :
    Outcome p t (.recording dto corr items orderNumber)
      (recordOrder p t dto corr items orderNumber x failAt).1
      (recordOrder p t dto corr items orderNumber x failAt).2 := by
  unfold recordOrder
  rcases OrderService.createOrder_cases t.orders p.isUuid (dto.data items orderNumber corr x)
    failAt with h | h
  · rw [h]
    exact .unrecorded dto corr items orderNumber _ _ (Nat.le_add_right _ _)
  · rw [h]
    cases hc : p.auth.uuidColumn dto.customerUserId with
    | none => exact .unrecorded dto corr items orderNumber _ _ (Nat.le_add_right _ _)
    | some c =>
      exact .recorded dto corr items orderNumber _ x _ c rfl (Nat.le_succ _)
        (Nat.add_lt_add_left (by omega) _) hc

theorem databasesStep_outcome (h : databasesStep p t q x = some (t', q')) :
    Outcome p t q t' q' := by
  unfold databasesStep at h
  split at h
  · cases h
    exact .account _
  · obtain ⟨w, hw, he⟩ := Option.map_eq_some_iff.mp h
    cases he
    exact .product _ w hw
  · obtain ⟨⟨w, c'⟩, hr, he⟩ := Option.map_eq_some_iff.mp h
    cases he
    exact .status _ c' _ w (statusStep_effect hr)
  · split at h <;> cases h
    · exact .refused _ _
    · exact .user _ _
  · split at h <;> cases h
    · exact .refused _ _
    · rename_i hok
      obtain ⟨address, ha⟩ := address_of_validate hok
      exact .address _ _ address ha
  · split at h <;> cases h
    · exact .refused _ _
    · exact .checked _ _
  · split at h
    · split at h <;> cases h
      · exact .unpriced _ _ _ _ _ _
      · rename_i hok
        obtain ⟨id, quantity, sku, product, hid, hp, rfl⟩ := product_of_price hok
        rw [← hid]
        exact .priced _ _ _ _ id _ quantity sku product hp
    · cases h
  · split at h <;> cases h
    · exact .refused _ _
    · exact .numbered _ _ _ _
  · split at h
    · cases h
    · cases h
      exact .refused _ _
    · obtain ⟨rfl, rfl⟩ := Prod.ext_iff.mp (Option.some.inj h)
      exact outcome_recordOrder _ _ _ _ _ _ _
    · obtain ⟨rfl, rfl⟩ := Prod.ext_iff.mp (Option.some.inj h)
      exact outcome_recordOrder _ _ _ _ _ _ _
  · cases h

end Outcome

/-- Of the users, addresses and products nothing is taken away. -/
structure Databases.Keeps (t t' : Databases) : Prop where
  users : ∀ user ∈ t.accounts.users.rows, ∃ user' ∈ t'.accounts.users.rows, user'.id = user.id
  addresses : ∀ a ∈ t.accounts.addresses, a ∈ t'.accounts.addresses
  products : ∀ u, (t.catalogue.row u).isSome = true → (t'.catalogue.row u).isSome = true

/-- The texts name an address and the user it belongs to. -/
def Databases.HasAddress (uuidColumn : String → Option String) (t : Databases)
    (customerUserId addressId : String) : Prop :=
  ∃ a ∈ t.accounts.addresses, uuidColumn addressId = some a.id ∧ a.userId = customerUserId

def Databases.HasProduct (t : Databases) (id : String) : Prop :=
  ∃ u, readUuid id = some u ∧ (t.catalogue.row u).isSome = true

/-- What a creation has looked up by the time it is at a point. -/
def Point.Seen (uuidColumn : String → Option String) (t : Databases) : Point → Prop
  | .checkingProducts dto _ => t.HasAddress uuidColumn dto.customerUserId dto.shippingAddressId
  | .pricing dto _ items =>
    t.HasAddress uuidColumn dto.customerUserId dto.shippingAddressId ∧
      ∀ v, some v ∈ items → t.HasProduct v.productId
  | .numbering dto _ items =>
    t.HasAddress uuidColumn dto.customerUserId dto.shippingAddressId ∧
      ∀ v ∈ items, t.HasProduct v.productId
  | .recording dto _ items _ =>
    t.HasAddress uuidColumn dto.customerUserId dto.shippingAddressId ∧
      ∀ v ∈ items, t.HasProduct v.productId
  | _ => True

/-- Whatever an order names is there: its customer, an address of theirs, and its products. -/
structure Databases.Referential (uuidColumn : String → Option String) (t : Databases) : Prop where
  customer : ∀ o ∈ t.orders.db.orders, ∃ user ∈ t.accounts.users.rows, user.id = o.customerUserId
  address : ∀ o ∈ t.orders.db.orders, ∃ a ∈ t.accounts.addresses,
    uuidColumn o.shippingAddressId = some a.id ∧ a.userId = o.customerUserId
  product : ∀ item ∈ t.orders.db.items, ∃ product ∈ t.catalogue.products,
    readUuid item.productId = some product.id

/-- The tables of each service are sound, and orders name what is in them. -/
structure Databases.Sound (uuidColumn : String → Option String) (t : Databases) : Prop where
  accounts : t.accounts.Sound uuidColumn
  catalogue : t.catalogue.Sound
  drawn : ∀ o ∈ t.orders.db.orders, o.id < t.orders.fresh
  address : ∀ o ∈ t.orders.db.orders, t.HasAddress uuidColumn o.customerUserId o.shippingAddressId
  product : ∀ item ∈ t.orders.db.items, t.HasProduct item.productId

section Invariant

variable {uuidColumn : String → Option String} {p : Platform} {t t' u : Databases} {q q' : Point}

theorem Databases.Keeps.of_eq (ha : t'.accounts = t.accounts)
    (hc : t'.catalogue.products = t.catalogue.products) : t.Keeps t' where
  users user h := ⟨user, ha.symm ▸ h, rfl⟩
  addresses a h := ha.symm ▸ h
  products u h := by rwa [ProductService.World.row, hc]

theorem Databases.HasAddress.keeps {customerUserId addressId : String}
    (h : t.HasAddress uuidColumn customerUserId addressId) (hk : t.Keeps t') :
    t'.HasAddress uuidColumn customerUserId addressId := by
  obtain ⟨a, ha, hid⟩ := h
  exact ⟨a, hk.addresses a ha, hid⟩

theorem Databases.HasProduct.keeps {id : String} (h : t.HasProduct id) (hk : t.Keeps t') :
    t'.HasProduct id := by
  obtain ⟨u, hu, hrow⟩ := h
  exact ⟨u, hu, hk.products u hrow⟩

theorem Point.Seen.keeps (h : q.Seen uuidColumn t) (hk : t.Keeps t') : q.Seen uuidColumn t' := by
  cases q with
  | checkingProducts dto corr => exact Databases.HasAddress.keeps h hk
  | pricing dto corr items => exact ⟨h.1.keeps hk, fun v hv => (h.2 v hv).keeps hk⟩
  | numbering dto corr items => exact ⟨h.1.keeps hk, fun v hv => (h.2 v hv).keeps hk⟩
  | recording dto corr items orderNumber => exact ⟨h.1.keeps hk, fun v hv => (h.2 v hv).keeps hk⟩
  | _ => trivial

theorem addresses_call (s : AuthService) (acc : Accounts) (c : AccountCall) :
    ∀ a ∈ acc.addresses, a ∈ (acc.call s c).addresses := by
  intro a ha
  cases c with
  | auth call m => exact ha
  | addAddress userId data now fails =>
    rcases @UserService.addAddress_cases s.uuidColumn acc userId data now fails with h |
      ⟨user, -, -, h⟩
    · exact (congrArg (fun acc : Accounts => a ∈ acc.addresses) h).mpr ha
    · exact (congrArg (fun acc : Accounts => a ∈ acc.addresses) h).mpr
        (List.mem_append_left _ ha)

theorem users_call (s : AuthService) (acc : Accounts) (c : AccountCall) :
    ∀ user ∈ acc.users.rows, ∃ user' ∈ (acc.call s c).users.rows, user'.id = user.id := by
  intro user hu
  cases c with
  | auth call m => exact UserService.mem_serve s acc.users call m hu
  | addAddress userId data now fails =>
    rcases @UserService.addAddress_cases s.uuidColumn acc userId data now fails with h |
      ⟨other, -, -, h⟩
    · exact ⟨user, (congrArg (fun acc : Accounts => user ∈ acc.users.rows) h).mpr hu, rfl⟩
    · exact ⟨user, (congrArg (fun acc : Accounts => user ∈ acc.users.rows) h).mpr hu, rfl⟩

/-- No call of the product service removes a product. -/
theorem row_call {w w' : ProductService.World} {c : ProductService.Call}
    (h : w.call p.numeral p.ilike p.rank c = some w') :
    ∀ u, (w.row u).isSome = true → (w'.row u).isSome = true := by
  intro u hu
  cases c with
  | create dto y =>
    obtain rfl : (w.create dto y).1 = w' := Option.some.inj h
    unfold ProductService.World.create
    split
    · exact hu
    · obtain ⟨q, hq⟩ := Option.isSome_iff_exists.mp hu
      have hl : lookup ProductService.Product.id u w.products = some q := hq
      simp only [ProductService.World.row, ProductService.World.invalidateListCaches]
      rw [lookup_append, hl, Option.some_or, Option.isSome_some]
  | update id dto y =>
    obtain rfl : (w.update id dto y).1 = w' := Option.some.inj h
    rcases @ProductService.update_cases w id dto y with ⟨hstop, -⟩ | ⟨q, v, -, -, -, hsaved⟩
    · rw [hstop, ProductService.World.row, products_findById]
      exact hu
    · rw [hsaved, ProductService.row_saved]
      split
      · rfl
      · exact hu
  | findById id =>
    cases h
    rwa [ProductService.World.row, products_findById]
  | findPriceById id =>
    obtain rfl : (w.findPriceById id).1 = w' := Option.some.inj h
    generalize hr : w.findPriceById id = r
    have hf := hr ▸ @ProductService.found_findPriceById w id
    cases hf <;> exact hu
  | list params =>
    obtain rfl : (w.list p.numeral p.ilike p.rank params).1 = w' := Option.some.inj h
    obtain ⟨hrows, -, -⟩ := @ProductService.list_keeps p.numeral p.ilike p.rank w params
    rwa [ProductService.World.row, hrows]
  | expire key =>
    cases h
    exact hu

theorem keeps_afterLookup (t : Databases) (text : String) (reached : Bool) :
    t.Keeps (t.afterLookup text reached) := by
  rcases afterLookup_cases t text reached with h | ⟨id, h⟩
  · exact h.symm ▸ .of_eq rfl rfl
  · exact h.symm ▸ .of_eq rfl (products_findById _ _)

theorem Outcome.keeps (h : Outcome p t q t' q') : t.Keeps t' := by
  cases h with
  | account c => exact ⟨users_call _ _ c, addresses_call _ _ c, fun u hu => hu⟩
  | product c w h => exact ⟨fun user hu => ⟨user, hu, rfl⟩, fun a ha => ha, row_call h⟩
  | unpriced dto corr items id reached e => exact keeps_afterLookup t id reached
  | priced dto corr items i id reached => exact keeps_afterLookup t id.text reached
  | _ => exact .of_eq rfl rfl

/-- Services that stay sound and keep what orders name, beside orders that name nothing new. -/
theorem Databases.Sound.of_keeps (hs : t.Sound uuidColumn) (hk : t.Keeps t')
    (ha : t'.accounts.Sound uuidColumn) (hc : t'.catalogue.Sound)
    (ho : ∀ o' ∈ t'.orders.db.orders, ∃ o ∈ t.orders.db.orders, o.id = o'.id ∧
      o.customerUserId = o'.customerUserId ∧ o.shippingAddressId = o'.shippingAddressId)
    (hi : t'.orders.db.items = t.orders.db.items) (hf : t.orders.fresh ≤ t'.orders.fresh) :
    t'.Sound uuidColumn where
  accounts := ha
  catalogue := hc
  drawn o' ho' := by
    obtain ⟨o, hm, hid, -⟩ := ho o' ho'
    exact hid ▸ (hs.drawn o hm).trans_le hf
  address o' ho' := by
    obtain ⟨o, hm, -, hcustomer, haddress⟩ := ho o' ho'
    exact hcustomer ▸ haddress ▸ (hs.address o hm).keeps hk
  product item hm := (hs.product item (hi ▸ hm)).keeps hk

/-- Nothing that changes a status touches what an order names. -/
theorem StatusEffect.orders {w w' : OrderService.World} {x : StatusAnswer} {c c' : StatusCall}
    (h : StatusEffect w x c w' c') :
    (∀ o' ∈ w'.db.orders, ∃ o ∈ w.db.orders, o.id = o'.id ∧
      o.customerUserId = o'.customerUserId ∧ o.shippingAddressId = o'.shippingAddressId) ∧
      w'.db.items = w.db.items ∧ w.fresh ≤ w'.fresh := by
  cases h with
  | update r order =>
    refine ⟨fun o' ho' => ?_, rfl, le_rfl⟩
    obtain ⟨o, ho, rfl⟩ := mem_update.mp ho'
    refine ⟨o, ho, ?_⟩
    split <;> exact ⟨rfl, rfl, rfl⟩
  | insert r order answer =>
    exact ⟨fun o ho => ⟨o, ho, rfl, rfl, rfl⟩, rfl, Nat.le_add_right _ _⟩
  | _ => exact ⟨fun o ho => ⟨o, ho, rfl, rfl, rfl⟩, rfl, le_rfl⟩

theorem Databases.Sound.afterLookup (hs : t.Sound uuidColumn) (text : String) (reached : Bool) :
    (t.afterLookup text reached).Sound uuidColumn := by
  have hsame : ∀ o ∈ t.orders.db.orders, ∃ o' ∈ t.orders.db.orders, o'.id = o.id ∧
      o'.customerUserId = o.customerUserId ∧ o'.shippingAddressId = o.shippingAddressId :=
    fun o ho => ⟨o, ho, rfl, rfl, rfl⟩
  rcases afterLookup_cases t text reached with h | ⟨id, h⟩
  · rwa [h]
  · rw [h]
    exact hs.of_keeps (.of_eq rfl (products_findById _ _)) hs.accounts
      (hs.catalogue.read (v := .product id)) hsame rfl le_rfl

/-- The insert of an order gives its row the customer's spelling. -/
theorem orders_spelled {db : OrderService.Db} {d : OrderService.OrderDraft} {customer : String}
    {fresh : Uuid} (hne : ∀ o ∈ db.orders, o.id ≠ d.orderId) :
    (OrderService.World.spelled ⟨d.created db, fresh⟩ d.orderId customer).db.orders =
      db.orders ++ [{ d.order with customerUserId := customer }] := by
  simp only [OrderService.World.spelled, OrderService.OrderDraft.created, update_append,
    update_of_ne hne]
  simp [update, OrderService.OrderDraft.order]

theorem Outcome.sound (hc : ∀ text c, p.auth.uuidColumn text = some c →
      p.auth.uuidColumn c = some c)
    (hs : t.Sound p.auth.uuidColumn) (hq : q.Seen p.auth.uuidColumn t)
    (h : Outcome p t q t' q') : t'.Sound p.auth.uuidColumn := by
  have hsame : ∀ o ∈ t.orders.db.orders, ∃ o' ∈ t.orders.db.orders, o'.id = o.id ∧
      o'.customerUserId = o.customerUserId ∧ o'.shippingAddressId = o.shippingAddressId :=
    fun o ho => ⟨o, ho, rfl, rfl, rfl⟩
  have hk := h.keeps
  cases h with
  | account c => exact hs.of_keeps hk (hs.accounts.call hc c) hs.catalogue hsame rfl le_rfl
  | product c w h => exact hs.of_keeps hk hs.accounts (hs.catalogue.call h) hsame rfl le_rfl
  | status c c' x w h =>
    obtain ⟨ho, hi, hf⟩ := StatusEffect.orders h
    exact hs.of_keeps hk hs.accounts hs.catalogue ho hi hf
  | unpriced dto corr items id reached e => exact hs.afterLookup id reached
  | priced dto corr items i id reached => exact hs.afterLookup id.text reached
  | unrecorded dto corr items orderNumber fresh e hf =>
    exact hs.of_keeps hk hs.accounts hs.catalogue hsame rfl hf
  | recorded dto corr items orderNumber d x fresh customer hd hle hlt hcustomer =>
    obtain ⟨⟨a, ha, haddress, howner⟩, hproducts⟩ := hq
    have hspelled : customer = dto.customerUserId := by
      have hcanon := hs.accounts.spelled a ha
      rw [howner, hcustomer] at hcanon
      exact Option.some.inj hcanon
    have hne : ∀ o ∈ t.orders.db.orders, o.id ≠ d.orderId :=
      fun o ho => ((hs.drawn o ho).trans_le hle).ne
    have horders := @orders_spelled t.orders.db d customer fresh hne
    constructor
    · exact hs.accounts
    · exact hs.catalogue
    · intro o ho
      refine (forall_mem_concat (P := fun o => o.id < fresh) ?_ hlt) o (horders ▸ ho)
      exact fun o ho => (hs.drawn o ho).trans (hle.trans_lt hlt)
    · intro o ho
      have hnew : t.HasAddress p.auth.uuidColumn customer d.data.shippingAddressId := by
        rw [hd, hspelled]
        exact ⟨a, ha, haddress, howner⟩
      exact (forall_mem_concat hs.address hnew) o (horders ▸ ho)
    · intro item hm
      rcases List.mem_append.mp hm with hm | hm
      · exact hs.product item hm
      · obtain ⟨v, hv, rfl⟩ := List.mem_map.mp hm
        rw [hd] at hv
        exact hproducts v hv
  | _ => exact hs

theorem seen_priced {dto : CreateOrderDto} {corr : Option String}
    {items : List (Option ValidatedItem)}
    (ha : t.HasAddress uuidColumn dto.customerUserId dto.shippingAddressId)
    (hp : ∀ v, some v ∈ items → t.HasProduct v.productId) :
    (Point.priced dto corr items).Seen uuidColumn t := by
  rcases priced_cases dto corr items with h | ⟨all, rfl, h⟩ <;> rw [h]
  · exact ⟨ha, hp⟩
  · exact ⟨ha, fun v hv => hp v (List.mem_map_of_mem hv)⟩

/-- An answer that a creation goes on with tells of rows that are there. -/
theorem Outcome.seen (hs : t.Sound p.auth.uuidColumn) (hq : q.Seen p.auth.uuidColumn t)
    (h : Outcome p t q t' q') : q'.Seen p.auth.uuidColumn t' := by
  cases h with
  | address dto corr address h =>
    obtain ⟨-, howner, key, hkey, hl⟩ := UserService.showAddress_eq_ok.mp h
    obtain ⟨hm, rfl⟩ := lookup_eq_some hl
    exact ⟨address, hm, hkey, howner⟩
  | checked dto corr =>
    refine seen_priced hq fun v hv => ?_
    obtain ⟨item, -, hn⟩ := List.mem_map.mp hv
    cases hn
  | priced dto corr items i id reached quantity sku product h =>
    have hk := keeps_afterLookup t id.text reached
    refine seen_priced (hq.1.keeps hk) fun v hv => ?_
    rcases List.mem_or_eq_of_mem_set hv with hv | hv
    · exact (hq.2 v hv).keeps hk
    · cases hv
      obtain ⟨-, -, hrow⟩ := hs.catalogue.of_findById h
      exact Databases.HasProduct.keeps ⟨id.uuid, id.reads, hrow⟩ hk
  | numbered dto corr items orderNumber => exact hq
  | _ => trivial

theorem Databases.Sound.referential (hs : t.Sound uuidColumn) : t.Referential uuidColumn where
  customer o ho := by
    obtain ⟨a, ha, -, howner⟩ := hs.address o ho
    exact howner ▸ hs.accounts.owned a ha
  address o ho := hs.address o ho
  product item hm := by
    obtain ⟨u, hu, hrow⟩ := hs.product item hm
    obtain ⟨product, hrow⟩ := Option.isSome_iff_exists.mp hrow
    obtain ⟨hmem, rfl⟩ := ProductService.id_of_row hrow
    exact ⟨product, hmem, hu⟩

theorem sound_databasesEmpty : Databases.empty.Sound uuidColumn where
  accounts := UserService.sound_empty
  catalogue := ⟨fun _ h => (nomatch h), fun _ _ h => (nomatch h)⟩
  drawn _ h := nomatch h
  address _ h := nomatch h
  product _ h := nomatch h

end Invariant

/-- The points at which a call begins. -/
def Point.Starts : Point → Prop
  | .accounts | .catalogue | .status (.reading _) | .validatingUser _ _ => True
  | _ => False

theorem Point.Starts.seen {uuidColumn : String → Option String} {t : Databases} {q : Point}
    (h : q.Starts) : q.Seen uuidColumn t := by
  cases q with
  | checkingProducts | pricing | numbering | recording => exact h.elim
  | _ => trivial

/--
However the calls of the user, product and order services interleave, and whichever of their
requests fail, every order names a user, an address of that user and products that are in the
tables of the services that keep them.
-/
theorem orders_referential {Id : Type} [DecidableEq Id] (p : Platform)
    (hc : ∀ text c, p.auth.uuidColumn text = some c → p.auth.uuidColumn c = some c)
    (calls : Id → Point) (hcalls : ∀ i, (calls i).Starts) (inputs : List (Id × Input))
    (q : Pool Databases Point Id)
    (h : exec (Pool.act (databasesStep p)) ⟨.empty, calls⟩ inputs = some q) :
    q.store.Referential p.auth.uuidColumn := by
  have hstart : Pool.Holds (fun t : Databases => t.Sound p.auth.uuidColumn)
      (fun t q => q.Seen p.auth.uuidColumn t) (fun _ _ => True)
      (⟨.empty, calls⟩ : Pool Databases Point Id) :=
    ⟨sound_databasesEmpty, fun i => (hcalls i).seen, fun _ _ _ => trivial⟩
  have hend := exec_invariant (fun s a s' hs hact => ?_) hstart h
  · exact hend.store.referential
  · refine hs.act (fun t' q' hsound hseen hstep => ?_)
      (fun t' q' l hsound hseen hl _ _ hstep => ?_) hact
    · have ho := databasesStep_outcome hstep
      exact ⟨ho.sound hc hsound hseen, ho.seen hsound hseen⟩
    · exact ⟨hl.keeps (databasesStep_outcome hstep).keeps, trivial, trivial⟩

def samplePlatform : Platform where
  auth := UserService.sampleService
  isUuid _ := false
  numeral _ := ""
  ilike _ _ := true
  rank := id

def saleDto : CreateOrderDto where
  customerUserId := "0"
  items := [⟨"00000000-0000-0000-0000-000000000000", none, 2, none⟩]
  shippingAddressId := "0"
  paymentMethod := none

def saleClock : CreateClock := ⟨0, "1970-01-01T00:00:00.000Z", "19700101", 0⟩

inductive Desk
  | users | products | orders
  deriving DecidableEq

/-- Jane registers and adds an address, a pen is put on sale, and she orders two of them. -/
def saleInputs : List (Desk × Input) := [
  (.users, .account (.auth (.register
    ⟨"jane@example.com", "Jane", "Doe", none, some "password123"⟩ "hash of password123")
    ⟨0, none⟩)),
  (.users, .account (.addAddress "0" UserService.sampleAddress 1 false)),
  (.products, .product (.create
    ⟨"PEN-1", "Pen", none, none, 1999 / 100, none, none, none, none⟩ ⟨0, false⟩)),
  (.orders, .reply true), (.orders, .reply true), (.orders, .reply true),
  (.orders, .priced 0 true), (.orders, .clock saleClock none), (.orders, .clock saleClock none)]

def saleCalls : Desk → Point
  | .users => .accounts
  | .products => .catalogue
  | .orders => .validatingUser saleDto none

def sale : Option (Pool Databases Point Desk) :=
  exec (Pool.act (databasesStep samplePlatform)) ⟨.empty, saleCalls⟩ saleInputs

theorem sale_referential : ∃ q, sale = some q ∧ q.store.Referential some := by
  have hrun : sale.isSome = true := by decide +kernel
  obtain ⟨q, hq⟩ := Option.isSome_iff_exists.mp hrun
  refine ⟨q, hq, orders_referential samplePlatform (fun _ _ _ => rfl) saleCalls (fun i => ?_)
    saleInputs q hq⟩
  cases i <;> trivial

example : sale.map (fun q => q.store.orders.db.orders.map Order.totalAmount) = some [⟨3998⟩] := by
  decide +kernel

end Saga
