import OrderPlatform.OrderService.Controller

/-! # What the staff role opens

The routes and the role guard let `staff` in to read, cancel and list any order. The service
behind them asks for `support` instead, a role no route names, and treats every other
caller as a customer.
-/

namespace OrderService

open Store Wire

section Endpoints

variable (uuidColumn : String → Option String) (isUuid : String → Bool) (rank : Uuid → ℕ)

/-- The listing over the orders of all customers. -/
def Db.listAll (db : Db) (query : ListOrdersQueryDto) : Except Thrown Answer := do
  let page := query.page.getD (some 1)
  let limit := query.limit.getD (some 20)
  let (orders, total) ← db.findAll uuidColumn rank none query.status page limit
  .ok (.list (orders.map (mapToResponse db)) total page limit)

/-- Any order can be read, and cancelled while it may be, and all of them are listed. -/
structure StaffAccess (w : World) (token : Option JwtPayload) (x : Occasion) : Prop where
  get : ∀ id order, w.db.findById id = some order →
    (w.serve uuidColumn isUuid rank token (.getOrder id) x).2 =
      .ok (.order (mapToResponse w.db order))
  cancel : ∀ id order reason, w.db.findById id = some order →
    order.status = .pending ∨ order.status = .confirmed →
    ∃ o, (w.serve uuidColumn isUuid rank token (.cancelOrder id reason) x).2 = .ok (.order o) ∧
      o.id = id ∧ o.status = .cancelled
  list : ∀ query, (w.serve uuidColumn isUuid rank token (.listOrders query) x).2 =
    (w.db.listAll uuidColumn rank query).mapError .threw

/-- The caller's `sub` is an identifier, and every order is one of the caller's own. -/
def CurrentUser.OwnsAll (user : CurrentUser) (db : Db) : Prop :=
  ∃ c, uuidColumn user.sub = some c ∧
    ∀ order ∈ db.orders, order.customerUserId = c ∧ order.customerUserId = user.sub

end Endpoints

section Listings

variable {uuidColumn : String → Option String} {rank : Uuid → ℕ} {db : Db} {user : CurrentUser}

theorem window_isOk {α : Type*} {skip take : ℚ} (hs : 0 ≤ skip) (ht : 0 ≤ take) (rows : List α) :
    ∃ as, window (some skip) (some take) rows = .ok as := by
  have hneg : ¬ (skip < 0 ∨ take < 0) := by
    rintro (h | h)
    · exact absurd hs (not_le.mpr h)
    · exact absurd ht (not_le.mpr h)
  simp only [window, if_neg hneg]
  split
  · exact ⟨rows, rfl⟩
  · exact ⟨_, rfl⟩

/-- The number of rows a query reports is that of the rows it selects. -/
theorem total_of_findAll {customerUserId : Option String} {status : Option OrderStatus}
    {page limit : Number} {orders : List Order} {total : ℕ}
    (h : db.findAll uuidColumn rank customerUserId status page limit = .ok (orders, total)) :
    ∃ customer, customerCondition uuidColumn customerUserId = .ok customer ∧
      total = (db.orders.filter fun order =>
        customer.all (order.customerUserId = ·) ∧ status.all (order.status = ·)).length := by
  obtain ⟨customer, hc, h⟩ := ok_of_bind h
  obtain ⟨rows, -, h⟩ := ok_of_bind h
  cases h
  exact ⟨customer, hc, rfl⟩

theorem customerCondition_of_column {sub c : String} (hc : uuidColumn sub = some c) :
    ∃ customer, customerCondition uuidColumn (some sub) = .ok customer ∧
      (customer = none ∨ customer = some c) := by
  by_cases hs : sub = ""
  · subst hs
    exact ⟨none, rfl, Or.inl rfl⟩
  · have hf : (some sub).filter (· ≠ "") = some sub := by simp [hs]
    refine ⟨some c, ?_, Or.inr rfl⟩
    rw [customerCondition, hf]
    simp only [hc, Option.elim]

/-- A query for the customer of all orders is a query for all orders. -/
theorem findAll_own {sub c : String} (hc : uuidColumn sub = some c)
    (hall : ∀ order ∈ db.orders, order.customerUserId = c) (status : Option OrderStatus)
    (page limit : Number) :
    db.findAll uuidColumn rank (some sub) status page limit =
      db.findAll uuidColumn rank none status page limit := by
  obtain ⟨customer, hcond, hcustomer⟩ := customerCondition_of_column hc
  have hkeep : ∀ order ∈ db.orders, customer.all (order.customerUserId = ·) = true := by
    intro order ho
    rcases hcustomer with rfl | rfl
    · rfl
    · simp [hall order ho]
  have hrows : (db.orders.filter fun order =>
        customer.all (order.customerUserId = ·) ∧ status.all (order.status = ·)) =
      db.orders.filter fun order =>
        (none : Option String).all (order.customerUserId = ·) ∧ status.all (order.status = ·) := by
    refine List.filter_congr fun order ho => ?_
    simp [hkeep order ho]
  have hnone : customerCondition uuidColumn none = .ok none := rfl
  simp only [Db.findAll, hcond, hnone, bind, Except.bind, hrows]

theorem listOrders_of_role (hrole : "admin" ∈ user.roles.getD [] ∨ "support" ∈ user.roles.getD [])
    (query : ListOrdersQueryDto) :
    listOrders uuidColumn rank db query user = db.listAll uuidColumn rank query := by
  simp only [listOrders, if_pos hrole, Db.listAll]

theorem listOrders_of_owns (howns : user.OwnsAll uuidColumn db) (query : ListOrdersQueryDto) :
    listOrders uuidColumn rank db query user = db.listAll uuidColumn rank query := by
  obtain ⟨c, hc, hall⟩ := howns
  by_cases hrole : "admin" ∈ user.roles.getD [] ∨ "support" ∈ user.roles.getD []
  · exact listOrders_of_role hrole query
  · simp only [listOrders, if_neg hrole, Db.listAll,
      findAll_own hc fun order ho => (hall order ho).1]

/-- The first page of all orders, with their number. -/
theorem listAll_first (uuidColumn : String → Option String) (rank : Uuid → ℕ) (db : Db) :
    ∃ orders, db.listAll uuidColumn rank ⟨none, none, none⟩ =
      .ok (.list orders db.orders.length (some 1) (some 20)) := by
  obtain ⟨rows, hrows⟩ := @window_isOk Order ((1 - 1) * 20) 20 (by norm_num) (by norm_num)
    (db.orders.insertionSort fun a b =>
      b.createdAt < a.createdAt ∨ b.createdAt = a.createdAt ∧ rank a.id ≤ rank b.id)
  refine ⟨rows.map (mapToResponse db), ?_⟩
  simp only [Db.listAll, Db.findAll, customerCondition, bind, Except.bind, Option.filter_none,
    Option.getD_none, Option.map₂_coe_right, Option.map_some, Option.all_none, and_self,
    decide_true, List.filter_true, hrows]

/-- A customer whose own listing counts all orders is the customer of each. -/
theorem customer_of_listOrders (ha : "admin" ∉ user.roles.getD [])
    (hs : "support" ∉ user.roles.getD []) (hsub : user.sub ≠ "") {orders : List OrderResponse}
    {page limit : Number} (h : listOrders uuidColumn rank db ⟨none, none, none⟩ user =
      .ok (.list orders db.orders.length page limit)) :
    ∃ c, uuidColumn user.sub = some c ∧ ∀ order ∈ db.orders, order.customerUserId = c := by
  obtain ⟨⟨rows, total⟩, hfound, h⟩ := ok_of_bind h
  rw [if_neg (by simp [ha, hs])] at hfound
  obtain ⟨customer, hcond, htotal⟩ := total_of_findAll hfound
  obtain ⟨hne, rfl⟩ := customerCondition_some hsub hcond
  obtain ⟨c, hc⟩ := Option.ne_none_iff_exists'.mp hne
  simp only [Except.ok.injEq, Answer.list.injEq] at h
  rw [htotal] at h
  refine ⟨c, hc, fun order ho => ?_⟩
  have hkept := List.length_filter_eq_length_iff.mp h.2.1 order ho
  simpa [hc] using hkept

end Listings

section Access

variable {uuidColumn : String → Option String} {isUuid : String → Bool} {rank : Uuid → ℕ}
  {w : World} {token : Option JwtPayload} {user : CurrentUser} {x : Occasion} {order : Order}
  {id : Uuid}

theorem canActivate_of_role {requiredRoles : List String} {role : String}
    (hr : role ∈ requiredRoles) (hu : role ∈ user.roles.getD []) :
    canActivate requiredRoles user = .ok () := by
  have hne : requiredRoles ≠ [] := List.ne_nil_of_mem hr
  have hany : requiredRoles.any (· ∈ user.roles.getD []) = true :=
    List.any_eq_true.mpr ⟨role, hr, decide_eq_true hu⟩
  simp only [canActivate, if_neg hne, hany, if_true, ite_self]

theorem serve_of_canActivate {request : Request} (hu : validate token = .ok user)
    (hr : canActivate request.requiredRoles user = .ok ()) :
    (w.serve uuidColumn isUuid rank token request x).2 =
      (w.handleRequest uuidColumn isUuid rank user x request).2.mapError .threw := by
  simp only [World.serve, hu, hr]

theorem checkRoles_eq_ok : checkRoles order user = .ok () ↔
    "admin" ∈ user.roles.getD [] ∨ "support" ∈ user.roles.getD [] ∨
      order.customerUserId = user.sub := by
  simp only [checkRoles]
  split
  · exact iff_of_true rfl ‹_›
  · exact iff_of_false (by simp) ‹_›

theorem mapError_eq_ok {ε ε' α : Type*} {f : ε → ε'} {r : Except ε α} {a : α} :
    r.mapError f = .ok a ↔ r = .ok a := by
  cases r <;> simp [Except.mapError]

/-- A cancellation whose statements all succeed answers with the cancelled order. -/
theorem cancelOrder_succeeds (hfails : ∀ s, x.fails s = false)
    (hf : w.db.findById id = some order) (hc : checkRoles order user = .ok ())
    (hstatus : order.status = .pending ∨ order.status = .confirmed) (reason : Option String) :
    ∃ o, (w.handleRequest uuidColumn isUuid rank user x (.cancelOrder id reason)).2 =
      .ok (.order o) ∧ o.id = id ∧ o.status = .cancelled := by
  have hcheck : (cancelOrder id user reason).check (w.db.findById id) = .ok (some order) := by
    have hst : ¬ (order.status ≠ .pending ∧ order.status ≠ .confirmed) := by tauto
    simp [cancelOrder, hf, hc, hst, bind, Except.bind]
  have hagain : (w.updateStatus id .cancelled).db.findById id =
      some { order with status := .cancelled, version := order.version + 1 } := by
    have := @lookup_update_self _ _ _ Order.id id
      (fun o => { o with status := .cancelled, version := o.version + 1 }) w.db.orders fun _ => rfl
    simp only [Db.findById, World.updateStatus, this]
    rw [show lookup Order.id id w.db.orders = some order from hf]
    rfl
  have hrun : ∃ w', Attempt.run x.fails (cancelOrder id user reason) w
      ⟨x.clock.now, x.clock.timestamp⟩ =
        (w', .ok (some { order with status := .cancelled, version := order.version + 1 })) := by
    have hid : (cancelOrder id user reason).orderId = id := rfl
    have htarget : (cancelOrder id user reason).target.status = .cancelled := rfl
    simp only [Attempt.run, hfails, Bool.false_eq_true, if_false, hid, hcheck, htarget, hagain]
    exact ⟨_, rfl⟩
  obtain ⟨w', hrun⟩ := hrun
  refine ⟨_, by rw [World.handleRequest, hrun], (lookup_eq_some hf).2, rfl⟩

/-- The role lets the caller past the guards; what is answered is up to the service. -/
theorem staffAccess_of (hu : validate token = .ok user) (hstaff : "staff" ∈ user.roles.getD [])
    (hfails : ∀ s, x.fails s = false) (hlist : x.listFails = false)
    (hroles : ∀ order ∈ w.db.orders, checkRoles order user = .ok ())
    (hall : ∀ query,
      listOrders uuidColumn rank w.db query user = w.db.listAll uuidColumn rank query) :
    StaffAccess uuidColumn isUuid rank w token x where
  get id order hf := by
    rw [serve_of_canActivate hu (canActivate_of_role (by simp [Request.requiredRoles]) hstaff)]
    have hc := hroles order (lookup_eq_some hf).1
    simp [World.handleRequest, hfails, getOrder, hf, hc, Except.map, Except.mapError]
  cancel id order reason hf hstatus := by
    rw [serve_of_canActivate hu (canActivate_of_role (by simp [Request.requiredRoles]) hstaff)]
    obtain ⟨o, ho, hid, hcancelled⟩ := @cancelOrder_succeeds uuidColumn isUuid rank w user x order
      id hfails hf (hroles order (lookup_eq_some hf).1) hstatus reason
    exact ⟨o, mapError_eq_ok.mpr ho, hid, hcancelled⟩
  list query := by
    rw [serve_of_canActivate hu (canActivate_of_role (by simp [Request.requiredRoles]) hstaff)]
    simp [World.handleRequest, hlist, hall query]

/-- A caller without the two roles the service knows owns all there is, if staff access holds. -/
theorem ownsAll_of_staffAccess (hu : validate token = .ok user)
    (hstaff : "staff" ∈ user.roles.getD []) (hfails : ∀ s, x.fails s = false)
    (hlist : x.listFails = false) (ha : "admin" ∉ user.roles.getD [])
    (hs : "support" ∉ user.roles.getD []) (h : StaffAccess uuidColumn isUuid rank w token x) :
    user.OwnsAll uuidColumn w.db := by
  have hguard {request : Request} (hr : "staff" ∈ request.requiredRoles) :=
    @serve_of_canActivate uuidColumn isUuid rank w token user x request hu
      (canActivate_of_role hr hstaff)
  obtain ⟨orders, hfirst⟩ := listAll_first uuidColumn rank w.db
  have hlisted : listOrders uuidColumn rank w.db ⟨none, none, none⟩ user =
      .ok (.list orders w.db.orders.length (some 1) (some 20)) := by
    have hsame := h.list ⟨none, none, none⟩
    rw [hguard (by simp [Request.requiredRoles]), hfirst] at hsame
    simpa [World.handleRequest, hlist] using mapError_eq_ok.mp hsame
  obtain ⟨c, hc, hcustomer⟩ := customer_of_listOrders ha hs (sub_of_validate hu) hlisted
  -- a row that is found under its identifier can be read, so it is the caller's
  have howner : ∀ order ∈ w.db.orders, c = user.sub := by
    intro order ho
    obtain ⟨found, hf⟩ : ∃ found, w.db.findById order.id = some found :=
      Option.ne_none_iff_exists'.mp fun hn => lookup_eq_none.mp hn order ho rfl
    have hread := h.get order.id found hf
    rw [hguard (by simp [Request.requiredRoles])] at hread
    have hgot := mapError_eq_ok.mp hread
    simp only [World.handleRequest, hfails, Bool.false_eq_true, if_false] at hgot
    obtain ⟨row, hrow, -⟩ := map_eq_ok.mp hgot
    obtain ⟨hmem, hroles⟩ := of_getOrder hrow
    rw [← hcustomer row hmem]
    exact customer_of_checkRoles hroles ha hs
  exact ⟨c, hc, fun order ho => ⟨hcustomer order ho, (hcustomer order ho).trans (howner order ho)⟩⟩

end Access

def staffToken : JwtPayload :=
  ⟨some "0a1b2c3d-0000-4000-8000-00000000000a", some ["staff"]⟩

end OrderService
