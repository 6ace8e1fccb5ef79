import OrderPlatform.OrderService.InventoryConsumer
import OrderPlatform.OrderService.Validation

/-! # The order endpoints

Requests to create, read, list and cancel orders, behind the token and role guards. Each
endpoint keeps a customer to their own orders in its own way: the body is rewritten, the row
read is compared with the token, or the query is filtered. What one request can return and
change is said once, and isolation follows from it.
-/

namespace OrderService

open Runs Store Wire

/-- A number of the runtime; one that is not finite is `none`. -/
abbrev Number := Option ℚ

/-- The payload of a token whose signature and expiry were verified. -/
structure JwtPayload where
  sub : Option String
  roles : Option (List String)
  deriving DecidableEq, Repr

inductive HttpError
  | unauthorized (message : String)
  | threw (e : Thrown)
  deriving DecidableEq, Repr

/-- `InternalJwtStrategy.validate`, behind the guard that asks for a verified token. -/
def validate : Option JwtPayload → Except HttpError CurrentUser
  | none => .error (.unauthorized "Unauthorized")
  | some payload =>
    match payload.sub with
    | none => .error (.unauthorized "Invalid token payload")
    | some sub =>
      if sub = "" then .error (.unauthorized "Invalid token payload")
      else .ok ⟨sub, payload.roles⟩

/-- `RolesGuard.canActivate`. -/
def canActivate (requiredRoles : List String) (user : CurrentUser) : Except HttpError Unit :=
  if requiredRoles = [] then .ok ()
  else
    let userRoles := user.roles.getD []
    if "admin" ∈ userRoles then .ok ()
    else if requiredRoles.any (· ∈ userRoles) then .ok ()
    else .error (.threw (.forbidden ("Required roles: " ++ String.intercalate ", " requiredRoles ++
      ". Your roles: " ++ String.intercalate ", " userRoles)))

structure ListOrdersQueryDto where
  status : Option OrderStatus
  page : Option Number
  limit : Option Number
  deriving DecidableEq, Repr

inductive Request
  | createOrder (dto : CreateOrderDto) (correlationId : Option String)
  | getOrder (id : Uuid)
  | listOrders (query : ListOrdersQueryDto)
  | cancelOrder (id : Uuid) (reason : Option String)
  deriving DecidableEq, Repr

def Request.requiredRoles : Request → List String
  | .createOrder _ _ => ["customer", "admin"]
  | .getOrder _ => ["customer", "staff", "admin"]
  | .listOrders _ => ["customer", "staff", "admin"]
  | .cancelOrder _ _ => ["customer", "staff", "admin"]

structure OrderItemResponse where
  productId : String
  sku : String
  quantity : ℕ
  unitPrice : Numeric
  lineTotal : Numeric
  name : String
  deriving DecidableEq, Repr

structure OrderResponse where
  id : Uuid
  orderNumber : String
  customerUserId : String
  status : OrderStatus
  shippingAddressId : String
  totalAmount : Numeric
  currency : String
  paymentMethod : Option String
  correlationId : Option String
  version : ℕ
  createdAt : ℕ
  items : List OrderItemResponse
  deriving DecidableEq, Repr

def Db.itemsOf (db : Db) (id : Uuid) : List OrderItem := db.items.filter fun i => i.orderId = id

/-- An order as it is read, with its items. -/
def mapToResponse (db : Db) (order : Order) : OrderResponse where
  id := order.id
  orderNumber := order.orderNumber
  customerUserId := order.customerUserId
  status := order.status
  shippingAddressId := order.shippingAddressId
  totalAmount := order.totalAmount
  currency := order.currency
  paymentMethod := order.paymentMethod
  correlationId := order.correlationId
  version := order.version
  createdAt := order.createdAt
  items := (db.itemsOf order.id).map fun i =>
    ⟨i.productId, i.sku, i.quantity, i.unitPrice, i.lineTotal, i.name⟩

inductive Answer
  | created (order : OrderCreated)
  | order (order : OrderResponse)
  | list (orders : List OrderResponse) (total : ℕ) (page limit : Number)
  deriving DecidableEq, Repr

/-- The orders an answer shows. -/
def Answer.orders : Answer → List OrderResponse
  | .created _ => []
  | .order o => [o]
  | .list orders _ _ _ => orders

/--
Rows skipped and taken by a query with joined items: without either number there is no
window, and the database rounds fractions and refuses negative numbers.
-/
def window {α : Type*} (offset limit : Number) (rows : List α) : Except Thrown (List α) :=
  match offset, limit with
  | some skip, some take =>
    if skip = 0 ∧ take = 0 then .ok rows
    else if skip < 0 ∨ take < 0 then .error .database
    else .ok ((rows.drop (skip + 1 / 2).floor.toNat).take (take + 1 / 2).floor.toNat)
  | _, _ => .error .database

section Endpoints

/-!
`uuidColumn` is the database's reading of a text as an identifier, in the one spelling it
writes back; `rank` is its order of rows created at the same time.
-/

variable (uuidColumn : String → Option String) (isUuid : String → Bool) (rank : Uuid → ℕ)

/-- The condition on the customer, which a query has unless it is given no text, or the empty. -/
def customerCondition (customerUserId : Option String) : Except Thrown (Option String) :=
  match customerUserId.filter (· ≠ "") with
  | none => .ok none
  | some text => (uuidColumn text).elim (.error .database) fun c => .ok (some c)

/-- `OrderRepository.findAll`: the rows and their number before paging. -/
def Db.findAll (db : Db) (customerUserId : Option String) (status : Option OrderStatus)
    (page limit : Number) : Except Thrown (List Order × ℕ) := do
  let customer ← customerCondition uuidColumn customerUserId
  let rows := db.orders.filter fun order =>
    customer.all (order.customerUserId = ·) ∧ status.all (order.status = ·)
  let newestFirst := rows.insertionSort fun a b =>
    b.createdAt < a.createdAt ∨ b.createdAt = a.createdAt ∧ rank a.id ≤ rank b.id
  let offset := Option.map₂ (fun p l => (p - 1) * l) page limit
  let orders ← window offset limit newestFirst
  .ok (orders, rows.length)

/-- `OrderService.getOrder`. -/
def getOrder (db : Db) (orderId : Uuid) (currentUser : CurrentUser) : Except Thrown Order :=
  match db.findById orderId with
  | none => .error (orderNotFound orderId)
  | some order => (checkRoles order currentUser).map fun _ => order

/-- `OrderService.listOrders`. -/
def listOrders (db : Db) (query : ListOrdersQueryDto) (currentUser : CurrentUser) :
    Except Thrown Answer := do
  let page := query.page.getD (some 1)
  let limit := query.limit.getD (some 20)
  let roles := currentUser.roles.getD []
  let customerUserId :=
    if "admin" ∈ roles ∨ "support" ∈ roles then none else some currentUser.sub
  let (orders, total) ← db.findAll uuidColumn rank customerUserId query.status page limit
  .ok (.list (orders.map (mapToResponse db)) total page limit)

/-- What goes on around one request: other services, the clock, and the statements that fail. -/
structure Occasion where
  services : Services
  clock : CreateClock
  createFails : Option CallFailure
  fails : Statement → Bool
  listFails : Bool

/-- The body's customer is replaced by the one of the token, unless the caller is no customer. -/
def CreateOrderDto.forUser (dto : CreateOrderDto) (user : CurrentUser) : CreateOrderDto :=
  if "customer" ∈ user.roles.getD [] ∧ dto.customerUserId ≠ user.sub then
    { dto with customerUserId := user.sub }
  else dto

/-- The identifier column of a new row keeps the identifier and not its spelling. -/
def World.spelled (w : World) (orderId : Uuid) (customerUserId : String) : World :=
  { w with db := { w.db with
      orders := update Order.id orderId (fun o => { o with customerUserId := customerUserId })
        w.db.orders } }

/-- The order is written, or its insert refuses a customer that is no identifier. -/
def World.createOrder (w : World) (dto : CreateOrderDto) (correlationId : Option String)
    (x : Occasion) : World × Except Thrown OrderCreated :=
  match dto.createOrder x.services w isUuid correlationId x.clock x.createFails with
  | (w', .error e) => (w', .error e)
  | (w', .ok created) =>
    match uuidColumn dto.customerUserId with
    | none => ({ w with fresh := w'.fresh }, .error .database)
    | some c => (w'.spelled created.orderId c, .ok created)

/-- The methods of `OrderController`, for a user the guards let through. -/
def World.handleRequest (w : World) (user : CurrentUser) (x : Occasion) :
    Request → World × Except Thrown Answer
  | .createOrder dto correlationId =>
    let (w', created) :=
      w.createOrder uuidColumn isUuid (dto.forUser user) correlationId x
    (w', created.map .created)
  | .getOrder id =>
    if x.fails .findOrder then (w, .error .database)
    else (w, (getOrder w.db id user).map fun order => .order (mapToResponse w.db order))
  | .listOrders query =>
    if x.listFails then (w, .error .database)
    else (w, listOrders uuidColumn rank w.db query user)
  | .cancelOrder id reason =>
    match Attempt.run x.fails (cancelOrder id user reason) w ⟨x.clock.now, x.clock.timestamp⟩ with
    | (w', .error e) => (w', .error e)
    | (w', .ok none) => (w', .error .typeError)
    | (w', .ok (some order)) => (w', .ok (.order (mapToResponse w'.db order)))

/-- A request with its token, through both guards. -/
def World.serve (w : World) (token : Option JwtPayload) (request : Request) (x : Occasion) :
    World × Except HttpError Answer :=
  match validate token with
  | .error e => (w, .error e)
  | .ok user =>
    match canActivate request.requiredRoles user with
    | .error e => (w, .error e)
    | .ok () =>
      let (w', answer) := w.handleRequest uuidColumn isUuid rank user x request
      (w', answer.mapError .threw)

end Endpoints

/-- The database reads the user's `sub` as this identifier. -/
def CurrentUser.Is (uuidColumn : String → Option String) (user : CurrentUser)
    (customerUserId : String) : Prop := uuidColumn user.sub = some customerUserId

/-- Keys are distinct and were drawn; customers stand in the spelling the column writes. -/
structure World.Keyed (uuidColumn : String → Option String) (w : World) : Prop where
  ids : (w.db.orders.map Order.id).Nodup
  drawn : ∀ order ∈ w.db.orders, order.id < w.fresh
  spelled : ∀ order ∈ w.db.orders, uuidColumn order.customerUserId = some order.customerUserId

/-- A `sub` in the spelling of the column, as tokens are signed with, is the identifier. -/
theorem CurrentUser.Is.eq_sub {uuidColumn : String → Option String} {user : CurrentUser}
    {customerUserId : String} (h : user.Is uuidColumn customerUserId)
    (hs : uuidColumn user.sub = some user.sub) : customerUserId = user.sub :=
  Option.some.inj (h.symm.trans hs)

/-- Nothing that belongs to the order with this identifier differs. -/
structure Db.SameOrder (db db' : Db) (id : Uuid) : Prop where
  order : (db'.orders.filter fun o => o.id = id) = db.orders.filter fun o => o.id = id
  items : db'.itemsOf id = db.itemsOf id
  outbox : (db'.outbox.filter fun row => row.aggregateId = id) =
    db.outbox.filter fun row => row.aggregateId = id

/-- The identifier is that of an order whose customer, before and after, is one of these. -/
structure Db.OrderOf (customers : String → Prop) (db db' : Db) (id : Uuid) : Prop where
  stored : ∃ o ∈ db'.orders, o.id = id
  before : ∀ o ∈ db.orders, o.id = id → customers o.customerUserId
  after : ∀ o ∈ db'.orders, o.id = id → customers o.customerUserId

/-- What a request that concerns only orders of these customers leaves behind. -/
inductive Effect (customers : String → Prop) (w : World) : World → Prop
  | read (fresh : Uuid) (hf : w.fresh ≤ fresh) : Effect customers w ⟨w.db, fresh⟩
  | created (order : Order) (items : List OrderItem) (row : Outbox) (fresh : Uuid)
    (hid : w.fresh ≤ order.id) (hf : order.id < fresh) (hu : customers order.customerUserId)
    (hi : ∀ i ∈ items, i.orderId = order.id) (hr : row.aggregateId = order.id) :
    Effect customers w
      ⟨⟨w.db.orders ++ [order], w.db.items ++ items, w.db.outbox ++ [row]⟩, fresh⟩
  | changed (order : Order) (rows : List Outbox) (fresh : Uuid) (hf : w.fresh ≤ fresh)
    (ho : order ∈ w.db.orders) (hu : customers order.customerUserId)
    (hr : ∀ row ∈ rows, row.aggregateId = order.id) :
    Effect customers w
      ⟨⟨(w.updateStatus order.id .cancelled).db.orders, w.db.items, w.db.outbox ++ rows⟩, fresh⟩

/-- The orders an answer shows are of these customers, and so is one it says was created. -/
structure Shows {ε : Type*} (customers : String → Prop) (w : World) (answer : Except ε Answer) :
    Prop where
  shown : ∀ a, answer = .ok a → ∀ o ∈ a.orders, customers o.customerUserId
  created : ∀ c, answer = .ok (.created c) →
    ∃ o ∈ w.db.orders, o.id = c.orderId ∧ customers o.customerUserId

/-- The checks a request makes on its way admit orders of these customers only. -/
structure Scope (customers : String → Prop) (uuidColumn : String → Option String)
    (rank : Uuid → ℕ) (w : World) (user : CurrentUser) (request : Request) : Prop where
  create : ∀ dto correlationId, request = .createOrder dto correlationId → ∀ c,
    uuidColumn (dto.forUser user).customerUserId = some c → customers c
  read : ∀ order ∈ w.db.orders, checkRoles order user = .ok () → customers order.customerUserId
  list : ∀ query answer, listOrders uuidColumn rank w.db query user = .ok answer →
    ∀ o ∈ answer.orders, customers o.customerUserId

section Guards

variable {token : Option JwtPayload} {user : CurrentUser} {requiredRoles : List String}

theorem sub_of_validate (h : validate token = .ok user) : user.sub ≠ "" := by
  unfold validate at h
  split at h
  · cases h
  · split at h
    · cases h
    · split at h
      · cases h
      · rename_i hs
        cases h
        exact hs

/-- A caller without the admin role has one of the roles an endpoint asks for. -/
theorem role_of_canActivate (h : canActivate requiredRoles user = .ok ())
    (hne : requiredRoles ≠ []) (ha : "admin" ∉ user.roles.getD []) :
    ∃ role ∈ requiredRoles, role ∈ user.roles.getD [] := by
  simp only [canActivate, if_neg hne, if_neg ha] at h
  split at h
  · rename_i hany
    simpa using hany
  · cases h

end Guards

section Reads

variable {uuidColumn : String → Option String} {rank : Uuid → ℕ} {db : Db} {user : CurrentUser}
  {order : Order}

theorem mem_of_window {α : Type*} {offset limit : Number} {rows as : List α} {a : α}
    (h : window offset limit rows = .ok as) (ha : a ∈ as) : a ∈ rows := by
  unfold window at h
  split at h
  · split at h
    · cases h
      exact ha
    · split at h
      · cases h
      · cases h
        exact List.mem_of_mem_drop (List.mem_of_mem_take ha)
  · cases h

theorem customerCondition_some {sub : String} {customer : Option String} (hs : sub ≠ "")
    (h : customerCondition uuidColumn (some sub) = .ok customer) :
    customer ≠ none ∧ customer = uuidColumn sub := by
  have hf : (some sub).filter (· ≠ "") = some sub := by simp [hs]
  rw [customerCondition, hf] at h
  cases hu : uuidColumn sub with
  | none => simp [hu] at h
  | some c =>
    simp only [hu, Option.elim] at h
    cases h
    exact ⟨Option.some_ne_none c, rfl⟩

/-- The rows of a query, and those of one customer if it filters by a text that is not empty. -/
theorem of_findAll {customerUserId : Option String} {status : Option OrderStatus}
    {page limit : Number} {orders : List Order} {total : ℕ}
    (h : db.findAll uuidColumn rank customerUserId status page limit = .ok (orders, total))
    (ho : order ∈ orders) : order ∈ db.orders ∧
      ∀ sub, customerUserId = some sub → sub ≠ "" →
        uuidColumn sub = some order.customerUserId := by
  obtain ⟨customer, hc, h⟩ := ok_of_bind h
  obtain ⟨orders, hw, h⟩ := ok_of_bind h
  cases h
  have hm := (List.mem_insertionSort _).mp (mem_of_window hw ho)
  simp only [List.mem_filter, decide_eq_true_eq] at hm
  refine ⟨hm.1, ?_⟩
  rintro sub rfl hs
  obtain ⟨hne, rfl⟩ := customerCondition_some hs hc
  obtain ⟨c, hu⟩ := Option.ne_none_iff_exists'.mp hne
  have he : order.customerUserId = c := by simpa [hu] using hm.2.1
  rw [hu, he]

theorem of_getOrder {id : Uuid} (h : getOrder db id user = .ok order) :
    order ∈ db.orders ∧ checkRoles order user = .ok () := by
  unfold getOrder at h
  split at h
  · cases h
  · rename_i found hf
    obtain ⟨⟨⟩, hc, rfl⟩ := map_eq_ok.mp h
    exact ⟨(lookup_eq_some hf).1, hc⟩

/-- Every order listed was found by a query for the customer, or by one for all of them. -/
theorem of_listOrders {query : ListOrdersQueryDto} {answer : Answer}
    (h : listOrders uuidColumn rank db query user = .ok answer) :
    ∀ o ∈ answer.orders, ∃ order ∈ db.orders, o.customerUserId = order.customerUserId ∧
      ("admin" ∉ user.roles.getD [] → "support" ∉ user.roles.getD [] → user.sub ≠ "" →
        user.Is uuidColumn order.customerUserId) := by
  obtain ⟨found, hf, h⟩ := ok_of_bind h
  cases h
  intro o ho
  obtain ⟨order, hm, rfl⟩ := List.mem_map.mp ho
  obtain ⟨hmem, hsub⟩ := of_findAll hf hm
  refine ⟨order, hmem, rfl, fun ha hs => hsub user.sub ?_⟩
  rw [if_neg (by simp [ha, hs])]

theorem customer_of_checkRoles (h : checkRoles order user = .ok ())
    (ha : "admin" ∉ user.roles.getD []) (hs : "support" ∉ user.roles.getD []) :
    order.customerUserId = user.sub := by
  simp only [checkRoles, ha, hs, false_or] at h
  split at h
  · assumption
  · cases h

end Reads

/-- A request that may fail at any statement stops before its update, or after it. -/
theorem Attempt.run_cases (fails : Statement → Bool) (r : StatusChange) (w : World) (x : Clock) :
    ((run fails r w x).1 = w ∧ ∀ o, (run fails r w x).2 ≠ .ok (some o)) ∨
    ∃ order, r.check (w.db.findById r.orderId) = .ok (some order) ∧
      ((∃ e, run fails r w x = (w.updateStatus r.orderId r.target.status, .error e)) ∨
        ∃ answer row,
          r.answer ((w.updateStatus r.orderId r.target.status).db.findById r.orderId) =
            .ok answer ∧
          row.aggregateId = r.orderId ∧
          run fails r w x =
            ((w.updateStatus r.orderId r.target.status).append row, .ok answer)) := by
  simp only [run]
  split
  · exact Or.inl ⟨rfl, by simp⟩
  · split
    · exact Or.inl ⟨rfl, by simp⟩
    · exact Or.inl ⟨rfl, by simp⟩
    · rename_i order hc
      split
      · exact Or.inl ⟨rfl, by simp⟩
      · refine Or.inr ⟨order, hc, ?_⟩
        split
        · exact Or.inl ⟨_, rfl⟩
        · split
          · exact Or.inl ⟨_, rfl⟩
          · rename_i answer hans
            split
            · exact Or.inl ⟨_, rfl⟩
            · exact Or.inr ⟨answer, _, hans, rfl, rfl⟩

/-- What the check of a cancellation lets through. -/
theorem of_check_cancelOrder {id : Uuid} {user : CurrentUser} {reason : Option String}
    {found : Option Order} {order : Order}
    (h : (cancelOrder id user reason).check found = .ok (some order)) :
    found = some order ∧ checkRoles order user = .ok () := by
  cases found with
  | none => simp [cancelOrder] at h
  | some o =>
    obtain ⟨⟨⟩, hc, h⟩ := ok_of_bind h
    split at h
    · cases h
    · cases h
      exact ⟨rfl, hc⟩

section Effects

variable {customers : String → Prop} {uuidColumn : String → Option String}
  {isUuid : String → Bool} {rank : Uuid → ℕ} {w : World} {user : CurrentUser} {x : Occasion}
  {request : Request}

theorem Shows.error {ε : Type*} (e : ε) : Shows customers w (.error e) :=
  ⟨fun _ h => (nomatch h), fun _ h => (nomatch h)⟩

theorem Shows.mapError {ε ε' : Type*} {answer : Except ε Answer} (h : Shows customers w answer)
    (f : ε → ε') : Shows customers w (answer.mapError f) := by
  cases answer with
  | error e => exact .error _
  | ok a =>
    constructor
    · rintro b ⟨⟩
      exact h.shown a rfl
    · rintro c ⟨⟩
      exact h.created c rfl

theorem Shows.order {ε : Type*} {o : OrderResponse} (h : customers o.customerUserId) :
    Shows (ε := ε) customers w (.ok (.order o)) where
  shown a ha := by
    cases ha
    simpa [Answer.orders] using h
  created c hc := by cases hc

theorem createOrder_effect (hw : w.Keyed uuidColumn) {dto : CreateOrderDto}
    (hd : ∀ c, uuidColumn dto.customerUserId = some c → customers c)
    (correlationId : Option String) :
    Effect customers w (w.createOrder uuidColumn isUuid dto correlationId x).1 ∧
      Shows customers (w.createOrder uuidColumn isUuid dto correlationId x).1
        ((w.createOrder uuidColumn isUuid dto correlationId x).2.map .created) := by
  unfold World.createOrder
  rcases dto.createOrder_cases x.services w isUuid correlationId x.clock x.createFails with
    ⟨fresh, e, hf, h⟩ | ⟨items, -, h⟩
  · rw [h]
    exact ⟨.read fresh hf, .error e⟩
  · rw [h]
    cases hc : uuidColumn dto.customerUserId with
    | none => exact ⟨.read _ (Nat.le_add_right _ _), .error _⟩
    | some c =>
      let d := dto.draft w isUuid correlationId x.clock items
      have hne : ∀ order ∈ w.db.orders, order.id ≠ d.orderId := fun order ho =>
        ((hw.drawn order ho).trans (Nat.lt_succ_self _)).ne
      let order : Order := { d.order with customerUserId := c }
      have horders : (World.spelled ⟨d.created w.db, w.fresh + 5⟩ d.orderId c).db.orders =
          w.db.orders ++ [order] := by
        simp only [World.spelled, OrderDraft.created, update_append, update_of_ne hne]
        simp [update, OrderDraft.order, order]
      have hs : World.spelled ⟨d.created w.db, w.fresh + 5⟩ d.orderId c =
          ⟨⟨w.db.orders ++ [order], w.db.items ++ d.items, w.db.outbox ++ [d.entry]⟩,
            w.fresh + 5⟩ := by
        rw [← horders]
        rfl
      dsimp only
      rw [hs]
      refine ⟨.created order d.items d.entry _ (Nat.le_succ _) ?_ (hd c hc) ?_ rfl, ?_, ?_⟩
      · exact Nat.add_lt_add_left (by omega) _
      · intro i hi
        obtain ⟨item, -, rfl⟩ := List.mem_map.mp hi
        rfl
      · intro a ha o ho
        cases ha
        cases ho
      · intro created hcreated
        cases hcreated
        exact ⟨order, List.mem_append_right _ (List.mem_singleton_self _), rfl, hd c hc⟩

theorem cancelOrder_effect
    (hread : ∀ order ∈ w.db.orders, checkRoles order user = .ok () → customers order.customerUserId)
    (id : Uuid) (reason : Option String) :
    Effect customers w
        (w.handleRequest uuidColumn isUuid rank user x (.cancelOrder id reason)).1 ∧
      Shows customers (w.handleRequest uuidColumn isUuid rank user x (.cancelOrder id reason)).1
        (w.handleRequest uuidColumn isUuid rank user x (.cancelOrder id reason)).2 := by
  let r := cancelOrder id user reason
  let clock : Clock := ⟨x.clock.now, x.clock.timestamp⟩
  simp only [World.handleRequest]
  rcases Attempt.run_cases x.fails r w clock with ⟨hw', hn⟩ | ⟨order, hc, hrun⟩
  · have hsame : Effect customers w w := .read w.fresh le_rfl
    rcases hres : Attempt.run x.fails r w clock with ⟨w', e | none | o⟩
    · rw [hres] at hw'
      exact ⟨hw' ▸ hsame, .error e⟩
    · rw [hres] at hw'
      exact ⟨hw' ▸ hsame, .error _⟩
    · exact absurd (by rw [hres]) (hn o)
  · obtain ⟨hf, hroles⟩ := of_check_cancelOrder hc
    obtain ⟨ho, rfl⟩ := lookup_eq_some hf
    have hu := hread order ho hroles
    have hchanged (rows : List Outbox) (fresh : Uuid) := @Effect.changed customers w order
      rows fresh
    rcases hrun with ⟨e, hrun⟩ | ⟨answer, row, hanswer, hrow, hrun⟩
    · have he := hchanged [] w.fresh le_rfl ho hu (by simp)
      rw [List.append_nil] at he
      rw [hrun]
      exact ⟨he, .error e⟩
    · have he := hchanged [row] (w.fresh + 3) (Nat.le_add_right _ _) ho hu
        (List.forall_mem_singleton.mpr hrow)
      have hl : (w.updateStatus order.id .cancelled).db.findById order.id =
          (w.db.findById order.id).map _ := lookup_update_self fun _ => rfl
      have hf' : w.db.findById order.id = some order := hf
      rw [hf', Option.map_some] at hl
      have ha : r.answer ((w.updateStatus r.orderId r.target.status).db.findById r.orderId) =
          .ok (some _) := congrArg r.answer hl
      rw [ha] at hanswer
      cases hanswer
      rw [hrun]
      exact ⟨he, .order hu⟩

/-- What a request does that the guards let through, endpoint by endpoint. -/
theorem handleRequest_effect (hw : w.Keyed uuidColumn)
    (h : Scope customers uuidColumn rank w user request) :
    Effect customers w (w.handleRequest uuidColumn isUuid rank user x request).1 ∧
      Shows customers (w.handleRequest uuidColumn isUuid rank user x request).1
        (w.handleRequest uuidColumn isUuid rank user x request).2 := by
  have hsame : Effect customers w w := .read w.fresh le_rfl
  cases request with
  | createOrder dto correlationId =>
    exact createOrder_effect hw (h.create dto correlationId rfl) correlationId
  | getOrder id =>
    simp only [World.handleRequest]
    split
    · exact ⟨hsame, .error _⟩
    · refine ⟨hsame, ?_⟩
      cases hg : getOrder w.db id user with
      | error e => exact .error e
      | ok order =>
        obtain ⟨ho, hc⟩ := of_getOrder hg
        exact .order (h.read order ho hc)
  | listOrders query =>
    simp only [World.handleRequest]
    split
    · exact ⟨hsame, .error _⟩
    · refine ⟨hsame, fun a ha => h.list query a ha, fun c hc => ?_⟩
      simp only [listOrders, bind, Except.bind] at hc
      split at hc <;> cases hc
  | cancelOrder id reason => exact cancelOrder_effect h.read id reason

end Effects

section Frames

variable {customers : String → Prop} {uuidColumn : String → Option String} {user : CurrentUser}
  {w w' : World}

/-- An order whose parts a request changes is one of its customers', before and after. -/
theorem Effect.frame (hw : w.Keyed uuidColumn) (h : Effect customers w w') (id : Uuid) :
    w.db.SameOrder w'.db id ∨ w.db.OrderOf customers w'.db id := by
  cases h with
  | read fresh hf => exact Or.inl ⟨rfl, rfl, rfl⟩
  | created order items row fresh hid hf hu hi hr =>
    have hold : ∀ o ∈ w.db.orders, o.id ≠ order.id := fun o ho =>
      ((hw.drawn o ho).trans_le hid).ne
    have hlast : order ∈ w.db.orders ++ [order] :=
      List.mem_append_right _ (List.mem_singleton_self _)
    by_cases he : order.id = id
    · right
      refine ⟨⟨order, hlast, he⟩, fun o ho ho' => absurd (ho'.trans he.symm) (hold o ho), ?_⟩
      intro o ho ho'
      rcases List.mem_append.mp ho with ho | ho
      · exact absurd (ho'.trans he.symm) (hold o ho)
      · rw [List.mem_singleton.mp ho]
        exact hu
    · left
      constructor
      · simp [he]
      · simp [Db.itemsOf, filter_eq_nil_of_ne hi he]
      · simp [hr, he]
  | changed order rows fresh hf ho hu hr =>
    by_cases he : order.id = id
    · right
      have hsame : ∀ o ∈ w.db.orders, o.id = id → o = order := fun o ho' hid =>
        List.inj_on_of_nodup_map hw.ids ho' ho (hid.trans he.symm)
      refine ⟨⟨_, mem_update.mpr ⟨order, ho, if_pos rfl⟩, he⟩, ?_, ?_⟩
      · intro o ho' hid
        rw [hsame o ho' hid]
        exact hu
      · intro o ho' hid
        obtain ⟨o', hmem, rfl⟩ := mem_update.mp ho'
        by_cases hk : o'.id = order.id
        · rw [if_pos hk, hsame o' hmem (hk.trans he)]
          exact hu
        · rw [if_neg hk] at hid
          exact absurd (hid.trans he.symm) hk
    · left
      constructor
      · exact filter_update_of_ne (fun _ => rfl) (Ne.symm he)
      · rfl
      · simp [filter_eq_nil_of_ne hr he]

theorem World.Keyed.effect (hw : w.Keyed uuidColumn)
    (h : Effect (fun c => uuidColumn c = some c) w w') : w'.Keyed uuidColumn := by
  cases h with
  | read fresh hf => exact ⟨hw.ids, fun o ho => (hw.drawn o ho).trans_le hf, hw.spelled⟩
  | created order items row fresh hid hf hu hi hr =>
    constructor
    · exact nodup_map_concat hw.ids fun o ho => ((hw.drawn o ho).trans_le hid).ne
    · refine forall_mem_concat (fun o ho => ?_) hf
      exact ((hw.drawn o ho).trans_le hid).trans hf
    · exact forall_mem_concat hw.spelled hu
  | changed order rows fresh hf ho hu hr =>
    constructor
    · have hm : (w.updateStatus order.id .cancelled).db.orders.map Order.id =
          w.db.orders.map Order.id := map_update_of_eq _ fun _ _ => by rfl
      rw [hm]
      exact hw.ids
    · intro o hmem
      obtain ⟨o', ho', rfl⟩ := mem_update.mp hmem
      have := (hw.drawn o' ho').trans_le hf
      split <;> exact this
    · intro o hmem
      obtain ⟨o', ho', rfl⟩ := mem_update.mp hmem
      have := hw.spelled o' ho'
      split <;> exact this

end Frames

section Guarded

variable {uuidColumn : String → Option String} {isUuid : String → Bool} {rank : Uuid → ℕ}
  {w : World} {token : Option JwtPayload} {user : CurrentUser} {request : Request} {x : Occasion}

/-- A customer's body is for the customer, whatever it says. -/
theorem CreateOrderDto.customer_forUser {dto : CreateOrderDto}
    (h : "customer" ∈ user.roles.getD []) : (dto.forUser user).customerUserId = user.sub := by
  unfold forUser
  by_cases hd : dto.customerUserId = user.sub
  · rw [if_neg (fun hc => hc.2 hd), hd]
  · rw [if_pos ⟨h, hd⟩]

/-- The four checks keep a caller who is neither admin nor support to their own orders. -/
theorem scope_of_customer (hw : w.Keyed uuidColumn) (hu : validate token = .ok user)
    (hr : canActivate request.requiredRoles user = .ok ())
    (ha : "admin" ∉ user.roles.getD []) (hs : "support" ∉ user.roles.getD []) :
    Scope (user.Is uuidColumn) uuidColumn rank w user request where
  create := by
    rintro dto correlationId rfl c hc
    obtain ⟨role, hmem, hrole⟩ := role_of_canActivate hr (List.cons_ne_nil _ _) ha
    have hcustomer : "customer" ∈ user.roles.getD [] := by
      simp only [Request.requiredRoles, List.mem_cons, List.not_mem_nil, or_false] at hmem
      rcases hmem with rfl | rfl
      · exact hrole
      · exact absurd hrole ha
    rwa [CreateOrderDto.customer_forUser hcustomer] at hc
  read order ho hc := by
    unfold CurrentUser.Is
    rw [← customer_of_checkRoles hc ha hs]
    exact hw.spelled order ho
  list query answer h o ho := by
    obtain ⟨order, -, he, his⟩ := of_listOrders h o ho
    rw [he]
    exact his ha hs (sub_of_validate hu)

/-- Whoever the caller is, the customers stand in the spelling of the column. -/
theorem scope_spelled (hc : ∀ text c, uuidColumn text = some c → uuidColumn c = some c)
    (hw : w.Keyed uuidColumn) :
    Scope (fun c => uuidColumn c = some c) uuidColumn rank w user request where
  create _ _ _ _ h := hc _ _ h
  read order ho _ := hw.spelled order ho
  list query answer h o ho := by
    obtain ⟨order, hm, he, -⟩ := of_listOrders h o ho
    rw [he]
    exact hw.spelled order hm

/-- A request the guards turn down changes nothing; any other one is handled. -/
theorem serve_world : (w.serve uuidColumn isUuid rank token request x).1 = w ∨
    ∃ user, (w.serve uuidColumn isUuid rank token request x).1 =
      (w.handleRequest uuidColumn isUuid rank user x request).1 := by
  unfold World.serve
  split
  · exact Or.inl rfl
  · split
    · exact Or.inl rfl
    · exact Or.inr ⟨_, rfl⟩

theorem World.Keyed.serve (hc : ∀ text c, uuidColumn text = some c → uuidColumn c = some c)
    (hw : w.Keyed uuidColumn) :
    (w.serve uuidColumn isUuid rank token request x).1.Keyed uuidColumn := by
  rcases @serve_world uuidColumn isUuid rank w token request x with h | ⟨user, h⟩
  · rw [h]
    exact hw
  · rw [h]
    exact hw.effect (handleRequest_effect hw (scope_spelled hc hw)).1

/-- The tables are keyed after any requests from empty ones, whoever makes them. -/
theorem keyed_exec (hc : ∀ text c, uuidColumn text = some c → uuidColumn c = some c)
    {requests : List (Option JwtPayload × Request × Occasion)}
    (h : exec (fun w r => some (World.serve uuidColumn isUuid rank w r.1 r.2.1 r.2.2).1) .empty
      requests = some w) : w.Keyed uuidColumn := by
  refine exec_invariant (I := World.Keyed uuidColumn) ?_ ?_ h
  · intro w r w' hw hstep
    cases hstep
    exact hw.serve hc
  · constructor <;> simp [World.empty]

end Guarded

/--
A request of a caller whose roles are neither admin nor support, once it is past the two
guards: the orders it shows, creates or changes are the caller's, and what belongs to any
other order stays as it was.
-/
theorem serve_isolated (uuidColumn : String → Option String) (isUuid : String → Bool)
    (rank : Uuid → ℕ) (w : World) (hw : w.Keyed uuidColumn) (token : Option JwtPayload)
    (user : CurrentUser) (hu : validate token = .ok user) (request : Request)
    (hr : canActivate request.requiredRoles user = .ok ())
    (ha : "admin" ∉ user.roles.getD []) (hs : "support" ∉ user.roles.getD []) (x : Occasion) :
    Shows (user.Is uuidColumn) (w.serve uuidColumn isUuid rank token request x).1
        (w.serve uuidColumn isUuid rank token request x).2 ∧
      ∀ id, w.db.SameOrder (w.serve uuidColumn isUuid rank token request x).1.db id ∨
        w.db.OrderOf (user.Is uuidColumn)
          (w.serve uuidColumn isUuid rank token request x).1.db id := by
  have h : Effect (user.Is uuidColumn) w
        (w.handleRequest uuidColumn isUuid rank user x request).1 ∧
      Shows (user.Is uuidColumn) (w.handleRequest uuidColumn isUuid rank user x request).1
        (w.handleRequest uuidColumn isUuid rank user x request).2 :=
    handleRequest_effect hw (scope_of_customer hw hu hr ha hs)
  simp only [World.serve, hu, hr]
  exact ⟨h.2.mapError _, h.1.frame hw⟩

/-- Identifiers are texts of thirty-six characters, written back in lower case. -/
def sampleColumn (text : String) : Option String :=
  if text.length = 36 then some (String.ofList (text.toList.map Char.toLower)) else none

/-- One order of another customer than the caller below. -/
def othersWorld : World where
  db := ⟨[⟨0, "ORD-19700101-00001", "0a1b2c3d-0000-4000-8000-00000000000b", .pending, "address-1",
    ⟨10000⟩, "USD", none, none, 0, 0⟩], [], []⟩
  fresh := 1

def callerToken : JwtPayload := ⟨some "0A1B2C3D-0000-4000-8000-00000000000A", some ["customer"]⟩

/-- A body that names the other customer. -/
def othersBody : CreateOrderDto :=
  { sampleDto with customerUserId := "0a1b2c3d-0000-4000-8000-00000000000b" }

def sampleOccasion : Occasion where
  services := sampleServices
  clock := ⟨1, "", "19700101", 0⟩
  createFails := none
  fails _ := false
  listFails := false

theorem othersBody_isolated :
    Shows (CurrentUser.Is sampleColumn ⟨"0A1B2C3D-0000-4000-8000-00000000000A", some ["customer"]⟩)
        (othersWorld.serve sampleColumn (fun _ => false) id callerToken
          (.createOrder othersBody none) sampleOccasion).1
        (othersWorld.serve sampleColumn (fun _ => false) id callerToken
          (.createOrder othersBody none) sampleOccasion).2 ∧
      ∀ id', othersWorld.db.SameOrder
          (othersWorld.serve sampleColumn (fun _ => false) id callerToken
            (.createOrder othersBody none) sampleOccasion).1.db id' ∨
        othersWorld.db.OrderOf
          (CurrentUser.Is sampleColumn ⟨"0A1B2C3D-0000-4000-8000-00000000000A", some ["customer"]⟩)
          (othersWorld.serve sampleColumn (fun _ => false) id callerToken
            (.createOrder othersBody none) sampleOccasion).1.db id' :=
  serve_isolated sampleColumn (fun _ => false) id othersWorld
    ⟨by decide, by decide, by decide +kernel⟩ callerToken _ rfl (.createOrder othersBody none)
    (by decide +kernel) (by decide) (by decide) sampleOccasion

example : ((othersWorld.serve sampleColumn (fun _ => false) id callerToken
    (.createOrder othersBody none) sampleOccasion).1.db.orders.map Order.customerUserId) =
    ["0a1b2c3d-0000-4000-8000-00000000000b", "0a1b2c3d-0000-4000-8000-00000000000a"] := by
  decide +kernel

end OrderService
