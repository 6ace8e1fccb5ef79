import OrderPlatform.NotificationService.Entities
import OrderPlatform.OrderService.Controller
import OrderPlatform.PaymentService.ConcurrentRefunds
import OrderPlatform.ProductService.Calls
import OrderPlatform.Store.Pages

/-! # The listings of the four services

Orders, payments, products and delivery records are listed alike: the rows that match, newest
first, and of them one page. No query says how rows created at the same time are sorted.
-/

namespace PaymentService

open Store Wire

structure QueryPaymentsDto where
  orderId : Option String
  customerUserId : Option String
  status : Option PaymentStatus
  page : Option ℕ
  limit : Option ℕ
  deriving DecidableEq, Repr

/-- The conditions of a listing; an empty text is none. -/
def QueryPaymentsDto.matches (params : QueryPaymentsDto) (p : Payment) : Bool :=
  (params.orderId.filter (· ≠ "")).all (p.orderId = ·) &&
    (params.customerUserId.filter (· ≠ "")).all (p.customerUserId = ·) &&
    params.status.all (p.status = ·)

def Db.matching (db : Db) (params : QueryPaymentsDto) : List Payment :=
  db.payments.filter params.matches

/-- `PaymentsService.findAll`. -/
def Db.findAll (db : Db) (rank : Uuid → ℕ) (params : QueryPaymentsDto) : List Payment × ℕ :=
  let page := (params.page.filter (· ≠ 0)).getD 1
  let limit := (params.limit.filter (· ≠ 0)).getD 20
  let rows := newestFirst Payment.createdAt Payment.id rank (db.matching params)
  ((rows.drop ((page - 1) * limit)).take limit, (db.matching params).length)

variable {db : Db} {rank : Uuid → ℕ} {params : QueryPaymentsDto} {limit : ℕ}

/-- A number that is not zero is not replaced by the default. -/
theorem getD_filter {n d : ℕ} (h : n ≠ 0) : ((some n).filter fun m => m ≠ 0).getD d = n := by
  simp [Option.filter, h]

theorem findAll_page (hlimit : 0 < limit) (i : ℕ) :
    db.findAll rank { params with page := some (i + 1), limit := some limit } =
      ((Windows.ofLimit (db.matching params).length limit).page i
        (newestFirst Payment.createdAt Payment.id rank (db.matching params)),
        (db.matching params).length) := by
  have hm : db.matching { params with page := some (i + 1), limit := some limit } =
      db.matching params := rfl
  simp only [Db.findAll, hm]
  rw [page_ofLimit, getD_filter i.succ_ne_zero, getD_filter hlimit.ne', Nat.succ_sub_one]

end PaymentService

namespace NotificationService

open Store Wire

structure ListNotificationsDto where
  page : ℕ
  limit : ℕ
  kind : Option String
  status : Option NotificationStatus
  recipientEmail : Option String
  deriving DecidableEq, Repr

def NotificationKind.text : NotificationKind → String
  | .email => "EMAIL"
  | .sms => "SMS"
  | .push => "PUSH"

/-- The condition on the kind; the column's enumeration refuses every other text. -/
def kindCondition (kind : Option String) : Except Thrown (Option NotificationKind) :=
  match kind.filter (· ≠ "") with
  | none => .ok none
  | some text =>
    ([.email, .sms, .push].find? fun k : NotificationKind => k.text = text).elim
      (.error .database) fun k => .ok (some k)

def World.matching (w : World) (ilike : String → String → Bool) (kind : Option NotificationKind)
    (params : ListNotificationsDto) : List NotificationDelivery :=
  w.deliveries.filter fun d =>
    kind.all (d.kind = ·) && params.status.all (d.status = ·) &&
      (params.recipientEmail.filter (· ≠ "")).all fun text => ilike d.recipient ("%" ++ text ++ "%")

/-- `NotificationDeliveryRepository.findAll`. -/
def World.findAll (w : World) (ilike : String → String → Bool) (rank : Uuid → ℕ)
    (params : ListNotificationsDto) : Except Thrown (List NotificationDelivery × ℕ) := do
  let kind ← kindCondition params.kind
  let rows := newestFirst NotificationDelivery.createdAt NotificationDelivery.id rank
    (w.matching ilike kind params)
  .ok ((rows.drop ((params.page - 1) * params.limit)).take params.limit,
    (w.matching ilike kind params).length)

variable {w : World} {ilike : String → String → Bool} {rank : Uuid → ℕ}
  {kind : Option NotificationKind} {params : ListNotificationsDto}

theorem findAll_page (hk : kindCondition params.kind = .ok kind) (i : ℕ) :
    w.findAll ilike rank { params with page := i + 1 } =
      .ok ((Windows.ofLimit (w.matching ilike kind params).length params.limit).page i
        (newestFirst NotificationDelivery.createdAt NotificationDelivery.id rank
          (w.matching ilike kind params)), (w.matching ilike kind params).length) := by
  have hm : w.matching ilike kind { params with page := i + 1 } = w.matching ilike kind params :=
    rfl
  simp only [World.findAll, hk, bind, Except.bind, hm]
  rw [page_ofLimit, Nat.add_sub_cancel]

end NotificationService

namespace OrderService

open Store Wire

/-- The orders a listing is about, once the database has read the customer's identifier. -/
def Db.matching (db : Db) (customer : Option String) (status : Option OrderStatus) : List Order :=
  db.orders.filter fun order =>
    customer.all (order.customerUserId = ·) ∧ status.all (order.status = ·)

variable {uuidColumn : String → Option String} {rank : Uuid → ℕ} {db : Db}
  {customerUserId customer : Option String} {status : Option OrderStatus} {limit : ℚ}

theorem window_eq {α : Type*} {skip take : ℚ} (hskip : 0 ≤ skip) (htake : 0 < take)
    (rows : List α) :
    window (some skip) (some take) rows = .ok ((rows.drop (rounded skip)).take (rounded take)) := by
  have hzero : ¬ (skip = 0 ∧ take = 0) := fun h => htake.ne' h.2
  have hneg : ¬ (skip < 0 ∨ take < 0) := by
    rintro (h | h)
    · exact hskip.not_gt h
    · exact htake.not_gt h
  simp only [window, if_neg hzero, if_neg hneg]
  rfl

/-- A query for a page shows its window of the orders that match. -/
theorem findAll_page (hc : customerCondition uuidColumn customerUserId = .ok customer)
    (hlimit : 1 ≤ limit) (i : ℕ) :
    db.findAll uuidColumn rank customerUserId status (some ((i + 1 : ℕ) : ℚ)) (some limit) =
      .ok ((Windows.ofLimit (db.matching customer status).length limit).page i
        (newestFirst Order.createdAt Order.id rank (db.matching customer status)),
        (db.matching customer status).length) := by
  have hpos : 0 < limit := zero_lt_one.trans_le hlimit
  have hskip : (((i + 1 : ℕ) : ℚ) - 1) * limit = i * limit := by push_cast; ring
  have hw := window_eq (mul_nonneg i.cast_nonneg hpos.le) hpos
    (newestFirst Order.createdAt Order.id rank (db.matching customer status))
  simp only [Db.findAll, hc, bind, Except.bind, Option.map₂_some_some, hskip]
  rw [newestFirst, Db.matching] at hw
  rw [hw]
  rfl

end OrderService

namespace ProductService

open Store Wire

/-- The same query for another page. -/
def ProductListParams.turn (params : ProductListParams) (page : ℕ) : ProductListParams :=
  { params with page := max 1 page, one_le_page := le_max_left _ _ }

variable {ilike : String → String → Bool} {rank : Uuid → ℕ} {products : List Product}
  {params : ProductListParams}

theorem findMany_page (i : ℕ) :
    ((findMany ilike rank products (params.turn (i + 1))).data,
      (findMany ilike rank products (params.turn (i + 1))).total) =
    ((Windows.ofLimit (products.filter (params.matches ilike)).length params.limit).page i
        (newestFirst Product.createdAt Product.id rank (products.filter (params.matches ilike))),
      (products.filter (params.matches ilike)).length) := by
  have hpage : (params.turn (i + 1)).page = i + 1 := by
    simp [ProductListParams.turn]
  have hskip : ((params.turn (i + 1)).page - 1) * params.limit = i * params.limit := by
    rw [hpage]
    ring
  have hm : (params.turn (i + 1)).matches ilike = params.matches ilike := rfl
  have hl : (params.turn (i + 1)).limit = params.limit := rfl
  simp only [findMany, hm, hl, hskip]
  rfl

end ProductService

namespace Saga

open OrderService PaymentService ProductService NotificationService Store Wire

/-- The tables behind the listings; a row's identifier is its primary key. -/
structure Tables where
  orders : OrderService.Db
  payments : PaymentService.Db
  products : List Product
  notifications : NotificationService.World
  order_ids : (orders.orders.map Order.id).Nodup
  payment_ids : (payments.payments.map Payment.id).Nodup
  product_ids : (products.map Product.id).Nodup
  notification_ids : (notifications.deliveries.map NotificationDelivery.id).Nodup

namespace Tables

variable (t : Tables) (uuidColumn : String → Option String) (ilike : String → String → Bool)

/-- The query for a page of a listing, and the order the database finds rows of one time in. -/
def orderQuery (customerUserId : Option String) (status : Option OrderStatus) (limit : ℚ)
    (page : ℕ) (rank : Uuid → ℕ) : Except Thrown (List Order × ℕ) :=
  t.orders.findAll uuidColumn rank customerUserId status (some (page : ℚ)) (some limit)

def paymentQuery (params : QueryPaymentsDto) (limit page : ℕ) (rank : Uuid → ℕ) :
    Except Thrown (List Payment × ℕ) :=
  .ok (t.payments.findAll rank { params with page := some page, limit := some limit })

def productQuery (params : ProductListParams) (page : ℕ) (rank : Uuid → ℕ) :
    Except Thrown (List Product × ℕ) :=
  .ok ((findMany ilike rank t.products (params.turn page)).data,
    (findMany ilike rank t.products (params.turn page)).total)

def notificationQuery (params : ListNotificationsDto) (page : ℕ) (rank : Uuid → ℕ) :
    Except Thrown (List NotificationDelivery × ℕ) :=
  t.notifications.findAll ilike rank { params with page := page }

end Tables

theorem nodup_map_filter {α β : Type*} {f : α → β} {rows : List α} {p : α → Bool}
    (h : (rows.map f).Nodup) : ((rows.filter p).map f).Nodup :=
  h.sublist (List.filter_sublist.map f)

/--
Each listing covers its rows if and only if rows created at one time are never split between
pages; where the limit may have a fraction, the windows themselves must also fit together.
-/
theorem listings_cover_iff (t : Tables) (uuidColumn : String → Option String)
    (ilike : String → String → Bool) :
    (∀ (customerUserId customer : Option String) (status : Option OrderStatus) (limit : ℚ),
      customerCondition uuidColumn customerUserId = .ok customer → 1 ≤ limit →
      (Covers (t.orderQuery uuidColumn customerUserId status limit) limit
          (t.orders.matching customer status) ↔
        (Windows.ofLimit (t.orders.matching customer status).length limit).Whole Order.createdAt
          (t.orders.matching customer status))) ∧
    (∀ (params : QueryPaymentsDto) (limit : ℕ), 1 ≤ limit →
      (Covers (t.paymentQuery params limit) limit (t.payments.matching params) ↔
        Unsplit Payment.createdAt (t.payments.matching params) limit)) ∧
    (∀ params : ProductListParams,
      (Covers (t.productQuery ilike params) params.limit
          (t.products.filter (params.matches ilike)) ↔
        (Windows.ofLimit (t.products.filter (params.matches ilike)).length params.limit).Whole
          Product.createdAt (t.products.filter (params.matches ilike)))) ∧
    (∀ (params : ListNotificationsDto) (kind : Option NotificationKind),
      kindCondition params.kind = .ok kind → 1 ≤ params.limit →
      (Covers (t.notificationQuery ilike params) params.limit
          (t.notifications.matching ilike kind params) ↔
        Unsplit NotificationDelivery.createdAt (t.notifications.matching ilike kind params)
          params.limit)) := by
  refine ⟨?_, ?_, ?_, ?_⟩
  · intro customerUserId customer status limit hc hlimit
    exact covers_iff_whole (nodup_map_filter t.order_ids) hlimit
      fun i rank => OrderService.findAll_page hc hlimit i
  · intro params limit hlimit
    rw [← whole_ofLimit_iff hlimit]
    exact covers_iff_whole (nodup_map_filter t.payment_ids) (by exact_mod_cast hlimit)
      fun i rank => congrArg Except.ok (PaymentService.findAll_page hlimit i)
  · intro params
    exact covers_iff_whole (nodup_map_filter t.product_ids) params.one_le_limit
      fun i rank => congrArg Except.ok (findMany_page i)
  · intro params kind hk hlimit
    rw [← whole_ofLimit_iff hlimit]
    exact covers_iff_whole (nodup_map_filter t.notification_ids) (by exact_mod_cast hlimit)
      fun i rank => NotificationService.findAll_page hk i

/-- Queries that all find orders of one time in the same order list them one after another. -/
theorem orders_listed_of_one_order (t : Tables) {uuidColumn : String → Option String}
    {customerUserId customer : Option String} (status : Option OrderStatus) {limit : ℕ}
    (hc : customerCondition uuidColumn customerUserId = .ok customer) (hlimit : 1 ≤ limit)
    (rank : Uuid → ℕ) :
    allPages (fun page => t.orderQuery uuidColumn customerUserId status limit page rank) limit =
      .ok (newestFirst Order.createdAt Order.id rank (t.orders.matching customer status)) :=
  allPages_of_one_order hlimit perm_newestFirst.length_eq fun i =>
    OrderService.findAll_page hc (by exact_mod_cast hlimit) i

/-- Two payments of one millisecond, for two orders of one customer. -/
def twin (id : Uuid) : Payment :=
  { samplePayment with id := id, orderId := toString id, idempotencyKey := toString id }

def twins : Tables where
  orders := ⟨[], [], []⟩
  payments := ⟨[twin 0, twin 1], [], []⟩
  products := []
  notifications := .empty
  order_ids := List.nodup_nil
  payment_ids := by decide
  product_ids := List.nodup_nil
  notification_ids := List.nodup_nil

def everyPayment : QueryPaymentsDto := ⟨none, none, none, none, none⟩

/-- On pages of two the twins are not split. -/
theorem twins_covered :
    Covers (twins.paymentQuery everyPayment 2) 2 (twins.payments.matching everyPayment) := by
  refine ((listings_cover_iff twins some fun _ _ => true).2.1 everyPayment 2 (by decide)).mpr ?_
  intro x hx k
  have hrows : twins.payments.matching everyPayment = [twin 0, twin 1] := by decide +kernel
  have hcreated : x.createdAt = (twin 0).createdAt := by
    rw [hrows] at hx
    rcases List.mem_pair.mp hx with rfl | rfl
    · rfl
    · rfl
  have hboth : since Payment.createdAt [twin 0, twin 1] (twin 0).createdAt = 2 := by
    decide +kernel
  have hnone : since Payment.createdAt [twin 0, twin 1] ((twin 0).createdAt + 1) = 0 := by
    decide +kernel
  rw [hrows, hcreated, hboth, hnone]
  omega

/-- On pages of one, the second query may find the twins the other way round. -/
theorem twins_not_covered :
    ¬ Covers (twins.paymentQuery everyPayment 1) 1 (twins.payments.matching everyPayment) := by
  intro h
  obtain ⟨shown, hshown, hperm⟩ := h fun page id => if page = 1 then id else 1 - id
  have hpages : allPages (fun page => twins.paymentQuery everyPayment 1 page
      (fun id => if page = 1 then id else 1 - id)) 1 = .ok [twin 0, twin 0] := by
    decide +kernel
  rw [hpages, Except.ok.injEq] at hshown
  rw [← hshown] at hperm
  exact absurd hperm (by decide +kernel)

end Saga
