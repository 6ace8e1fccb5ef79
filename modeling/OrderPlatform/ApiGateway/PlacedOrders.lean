import OrderPlatform.ApiGateway.OrderRequests
import OrderPlatform.OrderService.EventWindow
import OrderPlatform.Saga.Announcements
import OrderPlatform.Wire.DecimalTexts

/-! # Orders read back

An order that the gateway said was created can be asked for again. Whatever requests and
inventory messages the order service has worked on since, and whichever of their statements
failed, its customer is shown what was ordered at the prices that were found.
-/

namespace OrderService

open Runs Store Wire
open Saga (terms id_of_terms)

/-- What the order service works on: a request under whatever token, or an inventory message. -/
inductive Activity
  | request (token : Option JwtPayload) (request : Request) (x : Occasion)
  | message (m : InventoryMessage) (fails : Statement → Bool) (x : ProcessAnswer)

section Definitions

variable (uuidColumn : String → Option String) (isUuid : String → Bool) (rank : Uuid → ℕ)
  (readUuid : String → Option Uuid) (ttl : ℕ)

def Service.act (s : Service) : Activity → Service
  | .request token request x =>
    { s with world := (s.world.serve uuidColumn isUuid rank token request x).1 }
  | .message m fails x => (Attempt.process fails readUuid ttl s m x).store

/-- Orders that were placed are stored under the same terms, with these items and no others. -/
structure Stands (placed : List (Order × List OrderItem)) (w : World) : Prop where
  keyed : w.Keyed uuidColumn
  owned : ∀ i ∈ w.db.items, i.orderId < w.fresh
  stored : ∀ p ∈ placed, ∃ o ∈ w.db.orders, terms o = terms p.1
  items : ∀ p ∈ placed, w.db.itemsOf p.1.id = p.2

/-- An item as it is shown: what was asked for, at the price that was found. -/
structure ShownItem (services : Services) (p : CreateOrderItemDto) (item : OrderItemResponse) :
    Prop where
  product : uuidColumn item.productId = uuidColumn p.productId
  quantity : item.quantity = p.quantity
  price : ∃ product, services.catalogue p.productId = .found product ∧
    item.unitPrice = product.price.amount
  lineTotal : item.lineTotal.toNumber = item.unitPrice.toNumber * item.quantity

/-- The response shows the order that was asked for and said to be created. -/
structure ShowsOrder (services : Services) (userId : String) (dto : CreateOrderDto)
    (created : OrderCreated) (response : OrderResponse) : Prop where
  id : response.id = created.orderId
  orderNumber : response.orderNumber = created.orderNumber
  customer : response.customerUserId = userId
  address : uuidColumn response.shippingAddressId = uuidColumn dto.shippingAddressId
  paymentMethod : response.paymentMethod = dto.paymentMethod
  items : List.Forall₂ (ShownItem uuidColumn services) dto.items response.items
  total : response.totalAmount.toNumber =
    (response.items.map fun item => item.lineTotal.toNumber).sum

end Definitions

section Steps

variable {uuidColumn : String → Option String} {isUuid : String → Bool} {rank : Uuid → ℕ}
  {readUuid : String → Option Uuid} {ttl : ℕ} {placed : List (Order × List OrderItem)}
  {w w' : World} {s : Service}

theorem exists_terms_update {order : Order} (h : ∃ o ∈ w.db.orders, terms o = terms order)
    (id : Uuid) (status : OrderStatus) :
    ∃ o ∈ (w.updateStatus id status).db.orders, terms o = terms order := by
  obtain ⟨o, ho, hterms⟩ := h
  refine ⟨_, mem_update.mpr ⟨o, ho, rfl⟩, ?_⟩
  split
  · exact hterms
  · exact hterms

theorem Stands.effect (h : Stands uuidColumn placed w)
    (he : Effect (fun c => uuidColumn c = some c) w w') : Stands uuidColumn placed w' := by
  have hkeyed := h.keyed.effect he
  cases he with
  | read fresh hf => exact ⟨hkeyed, fun i hi => (h.owned i hi).trans_le hf, h.stored, h.items⟩
  | created order items row fresh hid hf hu hi hr =>
    have hlt : w.fresh < fresh := hid.trans_lt hf
    refine ⟨hkeyed, fun i hmem => ?_, fun p hp => ?_, fun p hp => ?_⟩
    · rcases List.mem_append.mp hmem with hmem | hmem
      · exact (h.owned i hmem).trans hlt
      · exact (hi i hmem).trans_lt hf
    · obtain ⟨o, ho, hterms⟩ := h.stored p hp
      exact ⟨o, List.mem_append_left _ ho, hterms⟩
    · obtain ⟨o, ho, hterms⟩ := h.stored p hp
      have hne : order.id ≠ p.1.id := by
        rw [← id_of_terms hterms]
        exact ((h.keyed.drawn o ho).trans_le hid).ne'
      have hnone : items.filter (fun i => i.orderId = p.1.id) = [] := filter_eq_nil_of_ne hi hne
      rw [← h.items p hp, Db.itemsOf, List.filter_append, hnone, List.append_nil, Db.itemsOf]
  | changed o rows fresh hf ho hu hr =>
    exact ⟨hkeyed, fun i hi => (h.owned i hi).trans_le hf,
      fun p hp => exists_terms_update (h.stored p hp) _ _, h.items⟩

/-- A change of a status, announced or not. -/
theorem Stands.updateStatus (h : Stands uuidColumn placed w) (id : Uuid) (status : OrderStatus) :
    Stands uuidColumn placed (w.updateStatus id status) where
  keyed := by
    have hm : (w.updateStatus id status).db.orders.map Order.id = w.db.orders.map Order.id :=
      map_update_of_eq _ fun _ _ => by rfl
    refine ⟨hm ▸ h.keyed.ids, fun o ho => ?_, fun o ho => ?_⟩
    · obtain ⟨o', ho', rfl⟩ := mem_update.mp ho
      have := h.keyed.drawn o' ho'
      split <;> exact this
    · obtain ⟨o', ho', rfl⟩ := mem_update.mp ho
      have := h.keyed.spelled o' ho'
      split <;> exact this
  owned := h.owned
  stored p hp := exists_terms_update (h.stored p hp) id status
  items := h.items

theorem Stands.append (h : Stands uuidColumn placed w) (row : Outbox) :
    Stands uuidColumn placed (w.append row) where
  keyed := ⟨h.keyed.ids, fun o ho => (h.keyed.drawn o ho).trans_le (Nat.le_add_right _ _),
    h.keyed.spelled⟩
  owned i hi := (h.owned i hi).trans_le (Nat.le_add_right _ _)
  stored := h.stored
  items := h.items

theorem Stands.run (h : Stands uuidColumn placed w) (fails : Statement → Bool)
    (r : StatusChange) (x : Clock) : Stands uuidColumn placed (Attempt.run fails r w x).1 := by
  rcases Attempt.run_cases fails r w x with ⟨hw, -⟩ | ⟨o, -, ⟨e, hr⟩ | ⟨a, row, -, -, hr⟩⟩
  · rw [hw]
    exact h
  · rw [hr]
    exact h.updateStatus _ _
  · rw [hr]
    exact (h.updateStatus _ _).append row

theorem Stands.handle (h : Stands uuidColumn placed w) (fails : Statement → Bool)
    (handler : Uuid → Option String → Option String → StatusChange) (event : Json)
    (x : ProcessAnswer) :
    Stands uuidColumn placed (Attempt.handle fails readUuid w handler event x).1 := by
  unfold Attempt.handle
  split
  · split
    · split
      · exact h
      · exact h.run fails _ _
    · split
      · exact h
      · split <;> exact h
  · exact h

theorem Stands.process (h : Stands uuidColumn placed s.world) (m : InventoryMessage)
    (fails : Statement → Bool) (x : ProcessAnswer) :
    Stands uuidColumn placed (Attempt.process fails readUuid ttl s m x).store.world := by
  cases hi : Attempt.invokes fails readUuid s m x with
  | true =>
    obtain ⟨handler, event, -, -, -, -, hw, -⟩ :=
      @Attempt.process_of_invokes fails readUuid ttl s m x hi
    rw [hw]
    exact h.handle fails handler event x
  | false =>
    rw [(Attempt.process_of_not_invokes hi).1]
    exact h

/-- Whatever the order service works on, what was placed stands. -/
theorem Stands.act (hc : ∀ text c, uuidColumn text = some c → uuidColumn c = some c)
    (h : Stands uuidColumn placed s.world) (a : Activity) :
    Stands uuidColumn placed
      (s.act uuidColumn isUuid rank readUuid ttl a).world := by
  cases a with
  | request token request x =>
    rcases @serve_world uuidColumn isUuid rank s.world token request x with hw | ⟨user, hw⟩
    · exact hw.symm.subst (motive := Stands uuidColumn placed) h
    · have he := (@handleRequest_effect _ uuidColumn isUuid rank s.world user x request h.keyed
        (scope_spelled hc h.keyed)).1
      exact hw.symm.subst (motive := Stands uuidColumn placed) (h.effect he)
  | message m fails x => exact h.process m fails x

theorem Stands.exec (hc : ∀ text c, uuidColumn text = some c → uuidColumn c = some c)
    (h : Stands uuidColumn placed s.world) {activities : List Activity} {s' : Service}
    (hrun : Runs.exec (fun s a => some (Service.act uuidColumn isUuid rank readUuid ttl s a)) s
      activities = some s') : Stands uuidColumn placed s'.world := by
  refine exec_invariant (I := fun s => Stands uuidColumn placed s.world) ?_ h hrun
  intro s a s' hs hstep
  cases hstep
  exact hs.act hc a

end Steps

section Placing

variable {uuidColumn : String → Option String} {isUuid : String → Bool} {rank : Uuid → ℕ}
  {placed : List (Order × List OrderItem)} {w : World} {userId : String} {dto : CreateOrderDto}
  {correlationId : Option String} {x : Occasion} {created : OrderCreated} {order : Order}
  {items : List OrderItem} {row : Outbox}

/-- The customer of a request, as the gateway names one to the order service. -/
def customer (userId : String) : CurrentUser := ⟨userId, some ["customer"]⟩

/-- The rows are those of the order that the caller was told of. -/
structure Told (services : Services) (userId : String) (dto : CreateOrderDto)
    (created : OrderCreated) (order : Order) (items : List OrderItem) : Prop where
  placed : ∃ row, Placed services (dto.forUser (customer userId)) order items row
  id : order.id = created.orderId
  orderNumber : order.orderNumber = created.orderNumber
  paymentMethod : order.paymentMethod = dto.paymentMethod

theorem forUser_same : (dto.forUser (customer userId)).items = dto.items ∧
    (dto.forUser (customer userId)).shippingAddressId = dto.shippingAddressId ∧
    (dto.forUser (customer userId)).paymentMethod = dto.paymentMethod := by
  unfold CreateOrderDto.forUser
  split <;> exact ⟨rfl, rfl, rfl⟩

/-- What a customer is told was created stands from then on. -/
theorem Stands.place (hc : ∀ text c, uuidColumn text = some c → uuidColumn c = some c)
    (hcanon : uuidColumn userId = some userId) (h : Stands uuidColumn placed w)
    (hr : (w.handleRequest uuidColumn isUuid rank (customer userId) x
      (.createOrder dto correlationId)).2 = .ok (.created created)) :
    ∃ order items, Told x.services userId dto created order items ∧
      Stands uuidColumn ((order, items) :: placed)
        (w.handleRequest uuidColumn isUuid rank (customer userId) x
          (.createOrder dto correlationId)).1 := by
  have hstands := h.effect (@handleRequest_effect _ uuidColumn isUuid rank w (customer userId) x
    (.createOrder dto correlationId) h.keyed (scope_spelled hc h.keyed)).1
  have hcustomer : (dto.forUser (customer userId)).customerUserId = userId :=
    CreateOrderDto.customer_forUser (List.mem_singleton_self _)
  simp only [World.handleRequest, World.createOrder, hcustomer, hcanon] at hr hstands ⊢
  rcases (dto.forUser (customer userId)).createOrder_cases x.services w isUuid correlationId
    x.clock x.createFails with ⟨fresh, e, -, hcall⟩ | ⟨validated, hv, hcall⟩
  · rw [hcall] at hr
    cases hr
  · rw [hcall] at hr hstands ⊢
    cases hr
    let d := (dto.forUser (customer userId)).draft w isUuid correlationId x.clock validated
    have hplaced := @CreateOrderDto.placed_draft _ _ w isUuid correlationId x.clock _ hv
    have horder : { d.order with customerUserId := userId } = d.order := by
      rw [← hplaced.customer.trans hcustomer]
    have hne : ∀ order ∈ w.db.orders, order.id ≠ d.orderId := fun order ho =>
      ((h.keyed.drawn order ho).trans (Nat.lt_succ_self _)).ne
    have horders : (World.spelled ⟨d.created w.db, w.fresh + 5⟩ d.orderId userId).db.orders =
        w.db.orders ++ [d.order] := by
      rw [← horder]
      simp only [World.spelled, OrderDraft.created, update_append, update_of_ne hne]
      simp [update, OrderDraft.order]
    refine ⟨d.order, d.items, ⟨⟨_, hplaced⟩, rfl, rfl, forUser_same.2.2⟩, hstands.keyed,
      hstands.owned, ?_, ?_⟩
    · refine List.forall_mem_cons.mpr ⟨⟨d.order, ?_, rfl⟩, hstands.stored⟩
      rw [horders]
      exact List.mem_append_right _ (List.mem_singleton_self _)
    · refine List.forall_mem_cons.mpr ⟨?_, hstands.items⟩
      have hold : w.db.items.filter (fun i => i.orderId = d.order.id) = [] :=
        List.filter_eq_nil_iff.mpr fun i hi => by
          have := h.owned i hi
          simp only [decide_eq_true_eq]
          exact (this.trans (Nat.lt_succ_self _)).ne
      have hnew : d.items.filter (fun i => i.orderId = d.order.id) = d.items :=
        List.filter_eq_self.mpr fun i hi => by
          obtain ⟨item, -, rfl⟩ := List.mem_map.mp hi
          exact decide_eq_true rfl
      show (w.db.items ++ d.items).filter (fun i => i.orderId = d.order.id) = d.items
      rw [List.filter_append, hold, hnew, List.nil_append]

/-- Under its terms an order differs in its status only. -/
theorem eq_of_terms {o : Order} (h : terms o = terms order) :
    o = { order with status := o.status, version := o.version } := by
  cases o
  cases order
  cases h
  rfl

theorem Told.shows {services : Services} (h : Told services userId dto created order items)
    {o : Order} (ho : terms o = terms order) {db : Db} (hitems : db.itemsOf order.id = items) :
    ShowsOrder uuidColumn services userId dto created (mapToResponse db o) := by
  obtain ⟨row, hplaced⟩ := h.placed
  obtain ⟨hsame, haddress, -⟩ := @forUser_same userId dto
  have hcustomer : (dto.forUser (customer userId)).customerUserId = userId :=
    CreateOrderDto.customer_forUser (List.mem_singleton_self _)
  rw [eq_of_terms ho]
  constructor
  · exact h.id
  · exact h.orderNumber
  · exact hplaced.customer.trans hcustomer
  · exact congrArg uuidColumn (hplaced.address.trans haddress)
  · exact h.paymentMethod
  · have hpriced := hplaced.priced
    rw [hsame] at hpriced
    simp only [mapToResponse, hitems, List.forall₂_map_right_iff]
    refine hpriced.imp fun p item hi => ⟨congrArg uuidColumn hi.product, hi.quantity, hi.price, ?_⟩
    exact hi.lineTotal
  · simp only [mapToResponse, hitems, List.map_map]
    exact hplaced.total

end Placing

end OrderService

namespace ApiGateway

open Access OrderService Runs Store Wire
open Saga (id_of_terms)
open UserService (Claims)

/-- An identifier as the database writes it, in a path. -/
def PathSegment.uuid (id : Uuid) : PathSegment where
  text := toString id
  nonempty := Nat.repr_ne_empty
  plain := by
    refine List.all_eq_true.mpr fun c hc => ?_
    have hd := isDigit_of_mem_toString hc
    simp [Char.isAlphanum, hd]

/-- The gateway accepts the token, and nothing keeps the request from its answer. -/
structure Journey.Answered (d : Deployment) (expiresIn : ℤ) (token : Token Claims) (j : Journey) :
    Prop where
  unthrottled : ∃ record, j.throttle = some record ∧ record.isBlocked = false
  secret : token.secret = d.gatewaySecret
  live : j.now < token.expiresAt
  role : token.claims.role ≠ none
  refused : j.refused = false
  lost : j.lost = false
  inTime : j.delay < expiresIn
  found : j.occasion.fails .findOrder = false

section Replies

variable {d : Deployment} {expiresIn : ℤ} {uuidColumn : String → Option String}
  {isUuid : String → Bool} {rank : Uuid → ℕ} {userId : String} {token : Token Claims} {w : World}
  {j : Journey} {route : Route}

theorem Journey.Answered.throttled (hj : j.Answered d expiresIn token) :
    (ApiGateway.throttled j.throttle : Option (Reply Answer)) = none := by
  obtain ⟨record, hrecord, hfree⟩ := hj.unthrottled
  rw [hrecord, ApiGateway.throttled, hfree]
  rfl

theorem getOrderById_answered {parseUuid : String → Option Uuid}
    (hparse : ∀ id : Uuid, parseUuid (toString id) = some id)
    (h : NamesCustomer userId token.claims) (hid : userId ≠ "")
    (hj : j.Answered d expiresIn token) (id : Uuid) :
    getOrderById d expiresIn uuidColumn isUuid rank parseUuid (.uuid id) w (some token) j =
      (w, shownOrder w.db userId id (toString id)) := by
  have hv : ¬ (token.secret ≠ d.gatewaySecret ∨ token.expiresAt ≤ j.now) := by
    rw [not_or, not_not]
    exact ⟨hj.secret, not_le.mpr hj.live⟩
  have hway : ¬ (j.refused = true ∨ j.lost = true) := by simp [hj.refused, hj.lost]
  have hread : parseUuid (PathSegment.uuid id).text = some id := hparse id
  rw [getOrderById_of_namesCustomer h hid, orderReply, hj.throttled]
  simp only [if_neg hv, if_neg hj.role, if_neg hway, if_neg (not_le.mpr hj.inTime), hread,
    hj.found, Bool.false_eq_true, if_false]
  rfl

/-- Data in a reply are those that the order service sent back. -/
theorem sent_of_data (h : NamesCustomer userId token.claims) (hid : userId ≠ "")
    (hp : route.isPublic = false) {invalid : Bool} {send : GatewayUser → World × Downstream Answer}
    {a : Answer} (hr : (proxy d route invalid send w (some token) j).2.body = .data a) :
    (proxy d route invalid send w (some token) j).1 = (send ⟨userId, "customer"⟩).1 ∧
      (forward (send ⟨userId, "customer"⟩).2).body = .data a := by
  rw [proxy_of_namesCustomer h hid hp] at hr ⊢
  cases hthrottle : (throttled j.throttle : Option (Reply Answer)) with
  | some reply =>
    rw [hthrottle] at hr
    rcases throttled_cases hthrottle with rfl | rfl <;> cases hr
  | none =>
    rw [hthrottle] at hr
    dsimp only at hr ⊢
    split at hr
    · cases hr
    · split at hr
      · cases hr
      · split at hr
        · cases hr
        · split at hr
          · cases hr
          · rename_i hv hrole hvalid hrefused
            rw [if_neg hv, if_neg hrole, if_neg hvalid, if_neg hrefused]
            refine ⟨rfl, ?_⟩
            dsimp only at hr
            split at hr
            · cases hr
            · exact hr

/-- An order that a reply says was created is what the handler returned. -/
theorem handled_of_created {number : String → Option ℚ} {isUUID : String → Bool}
    (h : NamesCustomer userId token.claims) (hid : userId ≠ "") {body : OrderBody}
    {inbound : Option String} {a : Answer}
    (hr : (createOrder d expiresIn uuidColumn isUuid rank number isUUID body inbound w (some token)
      j).2.body = .data a) :
    let correlationId := some (getCorrelationId (intercept inbound) inbound)
    (createOrder d expiresIn uuidColumn isUuid rank number isUUID body inbound w (some token) j).1 =
        (w.handleRequest uuidColumn isUuid rank (customer userId) j.occasion
          (.createOrder (body.dto userId) correlationId)).1 ∧
      (w.handleRequest uuidColumn isUuid rank (customer userId) j.occasion
        (.createOrder (body.dto userId) correlationId)).2 = .ok a := by
  intro correlationId
  obtain ⟨hw, ha⟩ := sent_of_data h hid rfl hr
  rw [createOrder, hw]
  rw [ask_customer hid] at ha ⊢
  split at ha
  · cases ha
  · rename_i hlate
    rw [if_neg hlate]
    by_cases hadmitted : (body.admitted number isUUID userId).isSome = true
    · simp only [if_pos hadmitted, Option.elim_none, forward_respond] at ha ⊢
      refine ⟨rfl, ?_⟩
      rw [customer]
      cases hcall : (w.handleRequest uuidColumn isUuid rank ⟨userId, some ["customer"]⟩ j.occasion
          (.createOrder (body.dto userId) correlationId)).2 with
      | error e =>
        rw [hcall] at ha
        cases ha
      | ok b =>
        rw [hcall] at ha
        cases ha
        rfl
    · simp only [if_neg hadmitted] at ha
      cases ha

end Replies

/-- The shopper's access token of the first second. -/
def shopperToken : Token Claims := (separate.users.issueTokenPair shopper 0).accessToken

/-- The order is placed, then confirmed by the inventory and cancelled by the shopper. -/
def placedService : Service :=
  { Service.empty with world := (createOrder separate 300 lowerColumn (fun _ => false) id
      (fun _ => none) isLong penBody none .empty (some shopperToken) sampleJourney).1 }

def sinceThen : List Activity := [
  .message (inventoryReserved 1 7) (fun _ => false) ⟨⟨2, ""⟩, 2, 2, none⟩,
  .request (some ⟨some shopper.id, some ["customer"]⟩) (.cancelOrder 1 none)
    OrderService.sampleOccasion]

/-- The identifiers read from numerals without leading zeros. -/
def readText (text : String) : Option Uuid :=
  let id := Nat.ofDigitChars 10 text.toList 0
  if toString id = text then some id else none

theorem readText_toString (id : Uuid) : readText (toString id) = some id := by simp [readText]

def cancelledService : Service :=
  sinceThen.foldl (Service.act lowerColumn (fun _ => false) id readText 86400000) placedService

example : (cancelledService.world.db.orders.map Order.status) = [.cancelled] := by decide +kernel

end ApiGateway
