import OrderPlatform.Access.Credentials
import OrderPlatform.Saga.Listings
import OrderPlatform.Saga.Settlement
import OrderPlatform.Wire.NumberTexts

/-! # The payments a customer is shown

The policy lets every role list payments, and the handler keeps a customer to their own. As each
payment was made for an order, a credential lists payments of its user's orders. No query with a
parameter passes the pipe, so a customer is shown the first page only; once the platform has come
to rest, it shows the newest orders of the user, each by its one payment.
-/

namespace PaymentService

open Access Store Wire
open OrderService (Number window mem_of_window)
open UserService (Claims)

/-- A query as the handler reads it. -/
structure PaymentQuery where
  orderId : Option String := none
  customerUserId : Option String := none
  status : Option String := none
  page : Option String := none
  limit : Option String := none
  deriving DecidableEq, Repr

/-- The condition on the status; the column's enumeration refuses every other text. -/
def statusCondition (status : Option String) : Except Thrown (Option PaymentStatus) :=
  match status.filter (· ≠ "") with
  | none => .ok none
  | some text =>
    ([.pending, .processed, .failed, .refunded, .partiallyRefunded].find?
      fun s : PaymentStatus => s.text = text).elim (.error .database) fun s => .ok (some s)

section Handler

/-! `number` is the runtime's reading of a text as a number. -/

variable (number : String → Number) (db : Db) (rank : Uuid → ℕ)

/-- `PaymentsController.findAll`: the query of a customer names the customer. -/
def PaymentsController.findAll (user : AuthSubject) (query : PaymentQuery) :
    Except Thrown (List Payment × ℕ) := do
  let status ← statusCondition query.status
  let filters : QueryPaymentsDto := {
    orderId := query.orderId
    customerUserId := if user.role = .customer then some user.sub else query.customerUserId
    status := status
    page := none
    limit := none }
  let page := (query.page.filter (· ≠ "")).elim (some 1) number
  let limit := (query.limit.filter (· ≠ "")).elim (some 20) number
  let rows := newestFirst Payment.createdAt Payment.id rank (db.matching filters)
  let data ← window (Option.map₂ (fun page limit => (page - 1) * limit) page limit) limit rows
  .ok (data, (db.matching filters).length)

/--
`GET /payments`: the guards first, then the pipe on the parameters of the query, then the handler.
The class of the query is imported as a type, and of the function that the pipe makes in its place
the handler reads no parameter.
-/
def getPayments (config : RefundConfig) (secret : String) (token : Option (Token Claims))
    (now : ℤ) (query : List (String × Json)) : Except (Refusal ⊕ Thrown) (List Payment × ℕ) := do
  let user ← guards config secret .findAll token now
  (acceptUntyped (some (.obj query))).mapError .inr
  (PaymentsController.findAll number db rank user {}).mapError .inr

end Handler

section Customer

variable {number : String → Number} {db : Db} {rank : Uuid → ℕ} {user : AuthSubject}
  {query : PaymentQuery} {data : List Payment} {total : ℕ}

/-- The payments of a customer. -/
def Db.paymentsOf (db : Db) (userId : String) : List Payment :=
  db.payments.filter fun p => p.customerUserId = userId

/-- The database as if the customer's payments were all there are. -/
def Db.only (db : Db) (userId : String) : Db := { db with payments := db.paymentsOf userId }

theorem owner_of_matches {params : QueryPaymentsDto} {userId : String} {p : Payment}
    (hc : params.customerUserId = some userId) (hne : userId ≠ "")
    (h : params.matches p = true) : p.customerUserId = userId := by
  simp only [QueryPaymentsDto.matches, hc, Bool.and_eq_true] at h
  simpa [hne] using h.1.2

/-- A query for a customer's payments finds the same rows among those alone. -/
theorem matching_only {params : QueryPaymentsDto} {userId : String}
    (hc : params.customerUserId = some userId) (hne : userId ≠ "") :
    (db.only userId).matching params = db.matching params := by
  simp only [Db.matching, Db.only, Db.paymentsOf, List.filter_filter]
  refine List.filter_congr fun p _ => ?_
  cases hm : params.matches p with
  | false => rfl
  | true => simpa using owner_of_matches hc hne hm

theorem findAll_only (hrole : user.role = .customer) (hsub : user.sub ≠ "") :
    PaymentsController.findAll number (db.only user.sub) rank user query =
      PaymentsController.findAll number db rank user query := by
  have hm (status : Option PaymentStatus) :
      (db.only user.sub).matching ⟨query.orderId, some user.sub, status, none, none⟩ =
        db.matching ⟨query.orderId, some user.sub, status, none, none⟩ := matching_only rfl hsub
  simp only [PaymentsController.findAll, if_pos hrole, hm]

/-- What a customer is shown, and told the number of, are payments of that customer. -/
theorem own_of_findAll (hrole : user.role = .customer) (hsub : user.sub ≠ "")
    (h : PaymentsController.findAll number db rank user query = .ok (data, total)) :
    (∀ p ∈ data, p ∈ db.paymentsOf user.sub) ∧ total ≤ (db.paymentsOf user.sub).length := by
  rw [← findAll_only hrole hsub] at h
  obtain ⟨status, -, h⟩ := bind_eq_ok.mp h
  obtain ⟨rows, hw, h⟩ := bind_eq_ok.mp h
  cases h
  constructor
  · intro p hp
    exact (List.mem_filter.mp (perm_newestFirst.mem_iff.mp (mem_of_window hw hp))).1
  · exact List.length_filter_le _ _

/-- Without parameters a customer is shown the twenty newest payments, and their number. -/
theorem findAll_first_page (hrole : user.role = .customer) (hsub : user.sub ≠ "") :
    PaymentsController.findAll number db rank user {} =
      .ok ((newestFirst Payment.createdAt Payment.id rank (db.paymentsOf user.sub)).take 20,
        (db.paymentsOf user.sub).length) := by
  have hm : db.matching ⟨none, some user.sub, none, none, none⟩ = db.paymentsOf user.sub := by
    have hsome : (some user.sub).filter (· ≠ "") = some user.sub := by simp [hsub]
    refine List.filter_congr fun p _ => ?_
    simp only [QueryPaymentsDto.matches, hsome]
    simp
  have hw (rows : List Payment) : window (some 0) (some 20) rows = .ok (rows.take 20) := by
    have hskip : rounded 0 = 0 := by decide +kernel
    have htake : rounded 20 = 20 := by decide +kernel
    rw [OrderService.window_eq le_rfl (by norm_num), hskip, htake, List.drop_zero]
  simp only [PaymentsController.findAll, statusCondition, Option.filter_none, if_pos hrole, hm,
    Option.elim, Option.map₂_some_some, sub_self, zero_mul, hw, bind, Except.bind]

end Customer

end PaymentService

namespace Access

open Wire
open OrderService (Number)
open PaymentService (AuthSubject Payment RefundConfig)
open UserService (Claims)

/-- `GET /payments` as it is deployed, with a bearer token. -/
def Deployment.getPayments (d : Deployment) (number : String → Number) (db : PaymentService.Db)
    (rank : Uuid → ℕ) (token : Token Claims) (now : ℤ) (query : List (String × Json)) :
    Except (Refusal ⊕ Thrown) (List Payment × ℕ) :=
  PaymentService.getPayments number db rank d.refunds d.users.internalJwtSecret (some token) now
    query

variable {config : RefundConfig} {secret : String} {token : Token Claims} {now : ℤ}
  {user : AuthSubject} {userId : String}

/-- The user that the guards of a listing read off a customer's token is that customer. -/
theorem NamesCustomer.user_of_guards (h : NamesCustomer userId token.claims)
    (hg : PaymentService.guards config secret .findAll (some token) now = .ok user) :
    user.sub = userId ∧ user.role = .customer ∧ userId ≠ "" := by
  have hv : PaymentService.validate token.claims = .ok user := by
    unfold PaymentService.guards at hg
    rcases bearer_cases secret PaymentService.validate token now with hb | hb
    · rw [hb] at hg
      cases hg
    · rw [hb] at hg
      split at hg
      · cases hg
      · split at hg
        · cases hg
        · cases hg
          assumption
  unfold PaymentService.validate at hv
  split at hv
  · rename_i sub role hs hr
    obtain ⟨hs, hne⟩ := Option.filter_eq_some_iff.mp hs
    obtain ⟨hr, -⟩ := Option.filter_eq_some_iff.mp hr
    obtain rfl : sub = userId := Option.some.inj (hs.symm.trans h.sub)
    rcases h.role with hn | hc
    · cases hn.symm.trans hr
    · obtain rfl : role = "customer" := Option.some.inj (hr.symm.trans hc)
      cases hv
      exact ⟨rfl, rfl, by simpa using hne⟩
  · cases hv

end Access

namespace Saga

open Access Runs Store Wire
open OrderService (Order Number)
open PaymentService (Payment)
open UserService (Claims User)

/-- Each payment was made for an order of the user. -/
def ForOwnOrders (orders : List Order) (userId : String) (payments : List Payment) : Prop :=
  ∀ p ∈ payments, ∃ o ∈ orders, o.customerUserId = userId ∧ PaidFor o p

theorem OrdersPaid.forOwnOrders {orders : List Order} {w : PaymentService.World}
    (h : OrdersPaid orders w) (userId : String) :
    ForOwnOrders orders userId (w.db.paymentsOf userId) := by
  intro p hp
  obtain ⟨hp, howner⟩ := List.mem_filter.mp hp
  obtain ⟨o, ho, hpaid⟩ := h.payments p (List.mem_append_left _ hp)
  exact ⟨o, ho, hpaid.customer.symm.trans (by simpa using howner), hpaid⟩

section Listed

variable {d : Deployment} {expiresIn now : ℤ} {userId : String} {token : Token Claims}
  {number : String → Number} {rank : Uuid → ℕ} {db : PaymentService.Db}
  {query : List (String × Json)}

/-- Payments of others show in no answer to an issued credential. -/
theorem getPayments_only (ht : Issued d expiresIn userId token) :
    d.getPayments number (db.only userId) rank token now query =
      d.getPayments number db rank token now query := by
  unfold Deployment.getPayments PaymentService.getPayments
  cases hu : PaymentService.guards d.refunds d.users.internalJwtSecret .findAll (some token)
      now with
  | error e => rfl
  | ok user =>
    obtain ⟨rfl, hrole, hne⟩ := ht.claims.user_of_guards hu
    simp only [bind, Except.bind, PaymentService.findAll_only hrole hne]

theorem own_of_getPayments (ht : Issued d expiresIn userId token) {data : List Payment}
    {total : ℕ} (h : d.getPayments number db rank token now query = .ok (data, total)) :
    (∀ p ∈ data, p ∈ db.paymentsOf userId) ∧ total ≤ (db.paymentsOf userId).length := by
  obtain ⟨user, hg, h⟩ := bind_eq_ok.mp h
  obtain ⟨-, -, h⟩ := bind_eq_ok.mp h
  obtain ⟨rfl, hrole, hne⟩ := ht.claims.user_of_guards hg
  cases hf : PaymentService.PaymentsController.findAll number db rank user {} with
  | error e =>
    rw [hf] at h
    cases h
  | ok r =>
    rw [hf] at h
    cases h
    exact PaymentService.own_of_findAll hrole hne hf

/-- A credential that opens the listing is shown the newest of its user's payments. -/
theorem getPayments_first_page (ht : Issued d expiresIn userId token)
    (hg : (Route.payments .findAll).grants d (some token) now = true) :
    d.getPayments number db rank token now [] =
      .ok ((newestFirst Payment.createdAt Payment.id rank (db.paymentsOf userId)).take 20,
        (db.paymentsOf userId).length) := by
  cases hu : PaymentService.guards d.refunds d.users.internalJwtSecret .findAll (some token)
      now with
  | error e =>
    rw [Route.grants, hu] at hg
    cases hg
  | ok user =>
    obtain ⟨rfl, hrole, hne⟩ := ht.claims.user_of_guards hu
    rw [Deployment.getPayments, PaymentService.getPayments, hu]
    simp only [acceptUntyped_eq_ok.mpr blank_empty,
      PaymentService.findAll_first_page hrole hne, Except.mapError, bind, Except.bind]

end Listed

/--
Whatever fails on the platform and whatever a query asks for, an issued credential is shown
payments for its user's own orders and told the number of no others. The payments of others do
not show in its answer at all: it is the same without them.
-/
theorem payments_own {isUuid : String → Bool} {Id : Type} [DecidableEq Id] {parties : Id → Party}
    (hparties : ∀ i, (parties i).Starts) {inputs : List (Id × Stimulus)}
    {q : Pool Network Party Id}
    (h : exec (Pool.act (networkStep isUuid)) ⟨.empty, parties⟩ inputs = some q)
    (d : Deployment) (expiresIn : ℤ) (userId : String) (token : Token Claims)
    (ht : Issued d expiresIn userId token) (number : String → Number) (rank : Uuid → ℕ) (now : ℤ)
    (query : List (String × Json)) :
    d.getPayments number (q.store.payments.db.only userId) rank token now query =
        d.getPayments number q.store.payments.db rank token now query ∧
      ∀ data total, d.getPayments number q.store.payments.db rank token now query =
          .ok (data, total) →
        ForOwnOrders q.store.orders.db.orders userId data ∧
          total ≤ (q.store.payments.db.paymentsOf userId).length := by
  have hown := (paying_exec hparties h).2.forOwnOrders userId
  refine ⟨getPayments_only ht, fun data total hl => ?_⟩
  obtain ⟨hdata, htotal⟩ := own_of_getPayments ht hl
  exact ⟨fun p hp => hown p (hdata p hp), htotal⟩

/-- The runtime's reading of the numerals that queries hold. -/
def readNumeral (text : String) : Number := readNumber isSpace text.toList

/-- The token the gateway makes for the customer of the sample orders. -/
def shopperToken : Token Claims := separate.exchanged 300 ⟨"user-1", true⟩ 0

theorem shopperToken_issued : Issued separate 300 "user-1" shopperToken := by
  have hservice : separate.InService 300 := ⟨by decide, by decide, by decide⟩
  have hid : (⟨"user-1", true⟩ : User).id ≠ "" := by decide
  exact hservice.issued_exchanged hid

/-- Clients, a relay and consumers. -/
def smallNetwork : ℕ → Party
  | 0 => .client
  | 1 => .relaying .idle
  | _ => .charging none

theorem smallNetwork_starts : ∀ i, (smallNetwork i).Starts
  | 0 => .client
  | 1 => .relaying
  | _ + 2 => .charging

/-- Two customers order, and both are charged. -/
def twoShoppers : List (ℕ × Stimulus) :=
  [(0, .create sampleOrder none),
    (0, .create { sampleOrder with
      customerUserId := "user-2"
      orderNumber := "ORD-19700101-00002" } none)] ++
    List.replicate 7 (1, .poll ⟨fun _ => 0, 1, false, false⟩) ++
    [(2, .receive 0 0 1)] ++ List.replicate 6 (2, .payment PaymentService.approved.env) ++
    [(2, .receive 1 0 2)] ++ List.replicate 6 (2, .payment PaymentService.approved.env)

/-- Of the two payments the first customer lists the one, with or without the other's. -/
theorem shopping_own : ∃ q ∈ exec (Pool.act (networkStep fun _ => false)) ⟨.empty, smallNetwork⟩
      twoShoppers,
    q.store.payments.db.payments.length = 2 ∧
      (separate.getPayments readNumeral q.store.payments.db (fun _ => 0) shopperToken 0 []).map
        (fun r => (r.1.length, r.2)) = .ok (1, 1) ∧
      separate.getPayments readNumeral (q.store.payments.db.only "user-1") (fun _ => 0)
          shopperToken 0 [] =
        separate.getPayments readNumeral q.store.payments.db (fun _ => 0) shopperToken 0 [] ∧
      ∀ data total, separate.getPayments readNumeral q.store.payments.db (fun _ => 0)
          shopperToken 0 [] = .ok (data, total) →
        ForOwnOrders q.store.orders.db.orders "user-1" data ∧
          total ≤ (q.store.payments.db.paymentsOf "user-1").length := by
  obtain ⟨q, hq, htwo, hl⟩ : ∃ q ∈
      exec (Pool.act (networkStep fun _ => false)) ⟨.empty, smallNetwork⟩ twoShoppers,
      q.store.payments.db.payments.length = 2 ∧
        (separate.getPayments readNumeral q.store.payments.db (fun _ => 0) shopperToken 0 []).map
          (fun r => (r.1.length, r.2)) = .ok (1, 1) := by
    decide +kernel
  exact ⟨q, hq, htwo, hl, payments_own smallNetwork_starts hq separate 300 "user-1" shopperToken
    shopperToken_issued readNumeral (fun _ => 0) 0 []⟩

namespace System

variable {ι κ ν : Type} {s : System ι κ ν}

theorem Settling.orderIds_perm (hs : s.Settling) (hset : s.Settled) (userId : String) :
    ((s.payments.db.paymentsOf userId).map Payment.orderId).Perm
      ((s.orders.db.orders.filter fun o => o.customerUserId = userId).map
        fun o => toString o.id) := by
  have hpayments : ((s.payments.db.paymentsOf userId).map Payment.orderId).Nodup := by
    refine List.Nodup.sublist (List.filter_sublist.map _) ?_
    refine List.pairwise_map.mpr ((List.pairwise_append.mp hs.once.store.unique).1.imp ?_)
    exact fun hp he => hp (Or.inl he)
  have horders : ((s.orders.db.orders.filter fun o => o.customerUserId = userId).map
      fun o => toString o.id).Nodup := by
    refine List.Nodup.sublist (List.filter_sublist.map _) ?_
    refine (List.pairwise_map.mp hs.told.journaled.ids).map _ ?_
    exact fun a b hne he => hne (toString_inj.mp he)
  rw [List.perm_ext_iff_of_nodup hpayments horders]
  intro id
  simp only [List.mem_map, PaymentService.Db.paymentsOf, List.mem_filter, decide_eq_true_eq]
  constructor
  · rintro ⟨p, ⟨hp, rfl⟩, rfl⟩
    obtain ⟨o, ho, hpaid⟩ := hset.owed p hp
    exact ⟨o, ⟨ho, hpaid.customer.symm⟩, hpaid.order.symm⟩
  · rintro ⟨o, ⟨ho, rfl⟩, rfl⟩
    obtain ⟨p, hp, hpaid⟩ := hset.paid o ho
    have hmem : p ∈ s.payments.db.payments.filter fun p => p.orderId = toString o.id := by
      rw [hp]
      exact List.mem_singleton_self p
    exact ⟨p, ⟨(List.mem_filter.mp hmem).1, hpaid.customer⟩, hpaid.order⟩

/--
Once everything has been sent, handled and answered, a customer is told the number of their orders
and shown the payments of the newest twenty, by the time of the charge, each order once; `rest` are
the payments that no query shows.
-/
theorem payments_listed [DecidableEq ι] [DecidableEq κ] [DecidableEq ν] {isUuid : String → Bool}
    {requests : ι → Cancellation} {as : List (Action ι κ ν)}
    (h : exec (step isUuid) (start requests) as = some s) (hq : s.Quiescent)
    (hidle : ∀ n, s.handlers n = .idle) (d : Deployment) (expiresIn : ℤ) (userId : String)
    (token : Token Claims) (ht : Issued d expiresIn userId token) (now : ℤ)
    (hg : (Route.payments .findAll).grants d (some token) now = true) (number : String → Number)
    (rank : Uuid → ℕ) :
    ∃ shown rest, d.getPayments number s.payments.db rank token now [] =
        .ok (shown, (s.orders.db.orders.filter fun o => o.customerUserId = userId).length) ∧
      shown.length =
        min 20 (s.orders.db.orders.filter fun o => o.customerUserId = userId).length ∧
      ForOwnOrders s.orders.db.orders userId (shown ++ rest) ∧
      ((shown ++ rest).map Payment.orderId).Perm
        ((s.orders.db.orders.filter fun o => o.customerUserId = userId).map
          fun o => toString o.id) ∧
      ∀ p ∈ shown, ∀ r ∈ rest, r.createdAt ≤ p.createdAt := by
  have hs : s.Settling := exec_invariant (fun _ _ _ hs h => hs.step h) (settling_start requests) h
  have hids := hs.orderIds_perm (hs.settled hq hidle) userId
  have hown := hs.agreeing.paid.forOwnOrders userId
  set rows := newestFirst Payment.createdAt Payment.id rank (s.payments.db.paymentsOf userId)
    with hrows
  have hperm : rows.Perm (s.payments.db.paymentsOf userId) := perm_newestFirst
  have hcount : rows.length =
      (s.orders.db.orders.filter fun o => o.customerUserId = userId).length := by
    simpa only [List.length_map] using ((hperm.map _).trans hids).length_eq
  refine ⟨rows.take 20, rows.drop 20, ?_, ?_, ?_, ?_, ?_⟩
  · rw [getPayments_first_page ht hg, ← hcount, hperm.length_eq]
  · rw [List.length_take, hcount]
  · rw [List.take_append_drop]
    intro p hp
    exact hown p (hperm.mem_iff.mp hp)
  · rw [List.take_append_drop]
    exact (hperm.map _).trans hids
  · have hsorted : (rows.take 20 ++ rows.drop 20).Pairwise
        fun p r => r.createdAt ≤ p.createdAt := by
      rw [List.take_append_drop]
      exact pairwise_createdAt
    exact (List.pairwise_append.mp hsorted).2.2

end System

/-- The order that was published twice is listed once. -/
theorem publishedTwice_listed :
    ∃ s ∈ exec (System.step fun _ => false) (System.start sampleCancellation) publishedTwice,
      s.orders.db.orders.length = 1 ∧
      ∃ shown rest, separate.getPayments readNumeral s.payments.db (fun _ => 0) shopperToken 0 [] =
          .ok (shown, (s.orders.db.orders.filter fun o => o.customerUserId = "user-1").length) ∧
        shown.length =
          min 20 (s.orders.db.orders.filter fun o => o.customerUserId = "user-1").length ∧
        ForOwnOrders s.orders.db.orders "user-1" (shown ++ rest) ∧
        ((shown ++ rest).map Payment.orderId).Perm
          ((s.orders.db.orders.filter fun o => o.customerUserId = "user-1").map
            fun o => toString o.id) ∧
        ∀ p ∈ shown, ∀ r ∈ rest, r.createdAt ≤ p.createdAt := by
  obtain ⟨s, hs, ho, hq, hidle⟩ : ∃ s ∈ exec (System.step fun _ => false)
      (System.start sampleCancellation) publishedTwice, s.orders.db.orders.length = 1 ∧
        s.Quiescent ∧ ∀ n, (s.handlers n).call = none := by
    decide +kernel
  have hg : (Route.payments .findAll).grants separate (some shopperToken) 0 = true := by decide
  exact ⟨s, hs, ho, System.payments_listed hs hq (fun n => Handler.idle_of_call (hidle n)) separate
    300 "user-1" shopperToken shopperToken_issued 0 hg readNumeral (fun _ => 0)⟩

end Saga
