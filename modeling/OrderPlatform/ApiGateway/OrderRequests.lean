import OrderPlatform.ApiGateway.Proxy
import OrderPlatform.Saga.OrderBodies

/-! # Ordering through the gateway

The body of an order is looked at by the gateway's pipe and, sent on with the caller, by the
order service's; then the order service asks the services it depends on and writes. The reply is
the error of the first check that fails along this way, or the order.
-/

namespace ApiGateway

open Access OrderService Store Wire
open UserService (Claims)

structure OrderItemBody where
  productId : String
  quantity : ℚ
  deriving DecidableEq, Repr

/-- The body of an order, as a client can write it for the gateway's class. -/
structure OrderBody where
  items : List OrderItemBody
  shippingAddressId : Option String
  notes : Option String
  deriving DecidableEq, Repr

def OrderItemBody.json (item : OrderItemBody) : Json :=
  .obj [("productId", .str item.productId), ("quantity", .num item.quantity)]

namespace OrderBody

variable (body : OrderBody)

def members : List (String × Json) :=
  [("items", .arr (body.items.map OrderItemBody.json))] ++
    (body.shippingAddressId.toList.map fun s => ("shippingAddressId", .str s)) ++
    (body.notes.toList.map fun s => ("notes", .str s))

/-- What the order service's handler is given of the body and the caller. -/
def dto (userId : String) : CreateOrderDto where
  customerUserId := userId
  items := body.items.map fun item => ⟨item.productId, none, item.quantity.num.toNat, none⟩
  shippingAddressId := body.shippingAddressId.getD ""
  paymentMethod := none

end OrderBody

section Requests

variable (d : Deployment) (expiresIn : ℤ) (uuidColumn : String → Option String)
  (isUuid : String → Bool) (rank : Uuid → ℕ) (number : String → Option ℚ) (isUUID : String → Bool)

/-- The gateway's pipe on a body. -/
def OrderBody.checked (body : OrderBody) : Option (List (String × Json)) :=
  ApiGateway.createOrderDto.accept number isUUID (.obj body.members)

/-- The order service's pipe on what the gateway makes of the body and the caller. -/
def OrderBody.admitted (body : OrderBody) (userId : String) : Option (List (String × Json)) :=
  (body.checked number isUUID).bind fun members =>
    OrderService.createOrderDto.accept number isUUID (orderPayload members userId)

/-- `ProxyController.createOrder`. -/
def createOrder (body : OrderBody) (inbound : Option String) (w : World)
    (token : Option (Token Claims)) (j : Journey) : World × Reply Answer :=
  let correlationId := getCorrelationId (intercept inbound) inbound
  let send (user : GatewayUser) :=
    ask d expiresIn uuidColumn isUuid rank w j
      (.createOrder (body.dto user.userId) (some correlationId))
      (if (body.admitted number isUUID user.userId).isSome then none
        else some (.response 400 .invalid)) user
  proxy d .createOrder (body.checked number isUUID).isNone send w token j

/-- A check on the way of a request; one that fails has a reply. -/
abbrev Check := Option (Reply Answer)

def check (passes : Prop) [Decidable passes] (reply : Reply Answer) : Check :=
  if passes then none else some reply

/-- The reply to a request whose handler throws. -/
def thrown (e : Thrown) : Reply Answer :=
  ⟨(HttpError.threw e).status, .error (some (HttpError.threw e).message)⟩

def checkOk {α : Type} (r : Except Thrown α) : Check := (rejection r).map thrown

def unavailable : Reply Answer := ⟨502, .error (some "Downstream service unavailable")⟩

/-- What stands between a customer's request and the order service, in its order. -/
def gatewayChecks (token : Token Claims) (body : OrderBody) (j : Journey) : List Check := [
  throttled j.throttle,
  check (token.secret = d.gatewaySecret ∧ j.now < token.expiresAt)
    ⟨401, .error (some "Unauthorized")⟩,
  check (token.claims.role ≠ none) ⟨401, .error (some "Invalid token payload")⟩,
  check ((body.checked number isUUID).isSome = true) ⟨400, .invalid⟩,
  check (j.refused = false) unavailable]

/-- What stands between a request that has reached the order service and the order. -/
def orderChecks (w : World) (userId : String) (body : OrderBody) (j : Journey) : List Check :=
  let dto := body.dto userId
  let services := j.occasion.services
  [check (j.delay < expiresIn) ⟨401, .error (some "Unauthorized")⟩,
    check ((body.admitted number isUUID userId).isSome = true) ⟨400, .invalid⟩,
    checkOk (validateUser services dto.customerUserId),
    checkOk (validateAddress services dto.customerUserId dto.shippingAddressId),
    checkOk (validateAndPriceProducts services dto.items),
    check (j.occasion.createFails = none ∧
      ∀ o ∈ w.db.orders, o.orderNumber ≠ w.db.generateOrderNumber j.occasion.clock)
      (thrown .database),
    check (uuidColumn dto.customerUserId ≠ none) (thrown .database)]

/-- A reply on its way back from the order service. -/
def Journey.back (j : Journey) (reply : Reply Answer) : Reply Answer :=
  if j.lost then unavailable else reply

end Requests

section Replies

variable {d : Deployment} {expiresIn : ℤ} {uuidColumn : String → Option String}
  {isUuid : String → Bool} {rank : Uuid → ℕ} {userId : String} {token : Token Claims} {w : World}
  {j : Journey} {isUUID : String → Bool} {number : String → Option ℚ} {body : OrderBody}

theorem eq_of_valueAmong {properties : List Property} {name : String} {v v' : Json}
    (hc : ∀ p ∈ properties, p.name = name → p.type.convert number v = some v)
    (h : valueAmong number isUUID properties name v = some v') : v' = v := by
  obtain ⟨p, hp, hn, hv⟩ := Saga.mem_of_valueAmong h
  obtain ⟨hconvert, -⟩ := Option.filter_eq_some_iff.mp hv
  exact Option.some.inj (hconvert.symm.trans (hc p hp hn))

/-- What both classes of items say of the two members an item has here. -/
def ItemTypes (properties : List Property) : Prop :=
  ∀ p ∈ properties, (p.name = "productId" → p.type = .string) ∧
    (p.name = "quantity" → p.type = .number)

theorem elementValue_json {properties : List Property} (hp : ItemTypes properties)
    {item : OrderItemBody} {v : Json}
    (h : elementValue number isUUID properties item.json = some v) : v = item.json := by
  obtain ⟨ms, hms, rfl⟩ := Option.map_eq_some_iff.mp h
  refine congrArg _ (eq_of_readMembers hms rfl ?_)
  simp only [List.forall_mem_cons]
  refine ⟨?_, ?_, List.forall_mem_nil _⟩
  · refine fun v => eq_of_valueAmong fun p hmem hn => ?_
    rw [(hp p hmem).1 hn]
    rfl
  · refine fun v => eq_of_valueAmong fun p hmem hn => ?_
    rw [(hp p hmem).2 hn]
    rfl

theorem elementValues_json {properties : List Property} (hp : ItemTypes properties)
    {items : List OrderItemBody} {vs : List Json}
    (h : elementValue.elementValues number isUUID properties (items.map OrderItemBody.json) =
      some vs) : vs = items.map OrderItemBody.json := by
  induction items generalizing vs with
  | nil =>
    cases h
    rfl
  | cons item items ih =>
    obtain ⟨v, hv, h⟩ := Option.bind_eq_some_iff.mp h
    obtain ⟨vs', hvs, rfl⟩ := Option.map_eq_some_iff.mp h
    rw [elementValue_json hp hv, ih hvs]
    rfl

/-- A pipe hands on a body of items and texts as it is, if it lets it by. -/
theorem eq_of_accept {dto : Dto} {fields members : List (String × Json)}
    (harray : dto.array = "items") (hitems : ItemTypes dto.element)
    (htexts : ∀ p ∈ dto.properties, p.type = .string) (hown : ownMembers fields = fields)
    (hfields : ∀ f ∈ fields, f = ("items", .arr (body.items.map OrderItemBody.json)) ∨
      f.1 ≠ "items" ∧ ∃ s, f.2 = .str s)
    (h : dto.accept number isUUID (.obj fields) = some members) : members = fields := by
  refine eq_of_readMembers h hown fun f hf v hv => ?_
  unfold Dto.value at hv
  rcases hfields f hf with rfl | ⟨hn, s, hs⟩
  · rw [if_pos harray.symm, Dto.arrayValue] at hv
    split at hv
    · cases hv
    · obtain ⟨vs, hvs, rfl⟩ := Option.map_eq_some_iff.mp hv
      rw [elementValues_json hitems hvs]
  · rw [if_neg (harray ▸ hn), hs] at hv
    rw [hs]
    refine eq_of_valueAmong (fun p hp _ => ?_) hv
    rw [htexts p hp]
    rfl

theorem members_cases : ∀ f ∈ body.members,
    f = ("items", .arr (body.items.map OrderItemBody.json)) ∨
      (f.1 = "shippingAddressId" ∨ f.1 = "notes") ∧ ∃ s, f.2 = .str s := by
  intro f hf
  simp only [OrderBody.members, List.mem_append, List.mem_singleton, List.mem_map] at hf
  rcases hf with (rfl | ⟨s, -, rfl⟩) | ⟨s, -, rfl⟩
  · exact Or.inl rfl
  · exact Or.inr ⟨Or.inl rfl, s, rfl⟩
  · exact Or.inr ⟨Or.inr rfl, s, rfl⟩

theorem filter_members {p : String → Bool}
    (hp : ∀ name ∈ ["items", "shippingAddressId", "notes"], p name = true) :
    (body.members.filter fun f => p f.1) = body.members := by
  refine List.filter_eq_self.mpr fun f hf => hp _ ?_
  rcases members_cases f hf with rfl | ⟨hn | hn, -⟩
  · exact List.mem_cons_self
  · simp [hn]
  · simp [hn]

/-- What reaches the order service's handler: the body's members and the caller. -/
theorem admitted_eq {fields : List (String × Json)}
    (h : body.admitted number isUUID userId = some fields) :
    fields = body.members ++ [("customerUserId", .str userId)] := by
  have htyped : ∀ f ∈ body.members, f = ("items", .arr (body.items.map OrderItemBody.json)) ∨
      f.1 ≠ "items" ∧ ∃ s, f.2 = .str s := fun f hf =>
    (members_cases f hf).imp_right fun hc => ⟨by rcases hc.1 with hn | hn <;> simp [hn], hc.2⟩
  have hown : ownMembers body.members = body.members :=
    filter_members (p := fun name => name ∉ inheritedNames) (by decide)
  obtain ⟨members, hm, h⟩ := Option.bind_eq_some_iff.mp h
  obtain rfl : members = body.members :=
    eq_of_accept rfl (by simp [ItemTypes, createOrderDto, orderItemDto])
      (by simp [createOrderDto]) hown htyped hm
  have hpayload : orderPayload body.members userId =
      .obj (body.members ++ [("customerUserId", .str userId)]) := by
    rw [orderPayload, filter_members (p := fun name => name ≠ "customerUserId") (by decide)]
  rw [hpayload] at h
  have hsent : ∀ f ∈ body.members ++ [("customerUserId", Json.str userId)],
      f = ("items", .arr (body.items.map OrderItemBody.json)) ∨ f.1 ≠ "items" ∧ ∃ s, f.2 = .str s :=
    forall_mem_concat htyped (Or.inr ⟨by simp, userId, rfl⟩)
  refine eq_of_accept rfl (by simp [ItemTypes, OrderService.createOrderDto, createOrderItemDto])
    (by simp [OrderService.createOrderDto]) ?_ hsent h
  rw [ownMembers, List.filter_append]
  exact congrArg₂ _ hown rfl

/-- A customer's new order, as it stands in the table. -/
structure OrderedBy (uuidColumn : String → Option String) (isUuid : String → Bool)
    (userId : String) (inbound : Option String) (order : Order) : Prop where
  customer : uuidColumn userId = some order.customerUserId
  status : order.status = .pending
  correlation : ∀ c, inbound = some c → c ≠ "" → isUuid c = true → order.correlationId = some c

theorem check_of {passes : Prop} [Decidable passes] {reply : Reply Answer} (h : passes) :
    check passes reply = none :=
  if_pos h

theorem check_of_not {passes : Prop} [Decidable passes] {reply : Reply Answer} (h : ¬ passes) :
    check passes reply = some reply :=
  if_neg h

theorem getCorrelationId_of_ne {c : String} (hc : c ≠ "") :
    getCorrelationId (intercept (some c)) (some c) = c := by
  have hi : intercept (some c) = some c := by
    have hlen : 0 < c.length :=
      Nat.pos_of_ne_zero fun h => hc (String.ext (List.length_eq_zero_iff.mp h))
    simp [intercept, hlen]
  simp [getCorrelationId, hi, orDefault, hc]

/-- The handler writes an order for the customer it is told, or nothing at all. -/
theorem createOrder_written (hw : w.Keyed uuidColumn) (dto : CreateOrderDto)
    (inbound : Option String) (x : Occasion) :
    let r := w.handleRequest uuidColumn isUuid rank ⟨userId, some ["customer"]⟩ x
      (.createOrder dto (some (getCorrelationId (intercept inbound) inbound)))
    (r.1.db = w.db ∧ ∃ e, r.2 = .error e) ∨
      ∃ order, r.1.db.orders = w.db.orders ++ [order] ∧
        OrderedBy uuidColumn isUuid userId inbound order ∧
        r.2 = .ok (.created ⟨order.id, .pending, order.orderNumber⟩) := by
  intro r
  set dto' := dto.forUser ⟨userId, some ["customer"]⟩ with hdto
  have hcustomer : dto'.customerUserId = userId :=
    CreateOrderDto.customer_forUser (List.mem_singleton_self _)
  set correlationId := getCorrelationId (intercept inbound) inbound with hcorr
  have hr : r = ((w.createOrder uuidColumn isUuid dto' (some correlationId) x).1,
      (w.createOrder uuidColumn isUuid dto' (some correlationId) x).2.map .created) := rfl
  rw [hr, World.createOrder, hcustomer]
  rcases dto'.createOrder_cases x.services w isUuid (some correlationId) x.clock x.createFails with
    ⟨fresh, e, -, h⟩ | ⟨items, -, h⟩
  · left
    rw [h]
    exact ⟨rfl, e, rfl⟩
  · rw [h]
    cases hc : uuidColumn userId with
    | none =>
      left
      exact ⟨rfl, .database, rfl⟩
    | some c =>
      right
      let draft := dto'.draft w isUuid (some correlationId) x.clock items
      have hne : ∀ order ∈ w.db.orders, order.id ≠ draft.orderId := fun order ho =>
        ((hw.drawn order ho).trans (Nat.lt_succ_self _)).ne
      have horders : (World.spelled ⟨draft.created w.db, w.fresh + 5⟩ draft.orderId c).db.orders =
          w.db.orders ++ [{ draft.order with customerUserId := c }] := by
        simp only [World.spelled, OrderDraft.created, update_append, update_of_ne hne]
        simp [update, OrderDraft.order]
      refine ⟨{ draft.order with customerUserId := c }, horders, ⟨hc, rfl, ?_⟩, rfl⟩
      · rintro c' rfl hc' hu
        have hsame : correlationId = c' := getCorrelationId_of_ne hc'
        have hd : draft.correlationId = c' := by
          simp [draft, CreateOrderDto.draft, World.orderDraft, CreateOrderDto.data, hsame, hc', hu]
        exact congrArg some hd

/-- The first check that fails in the handler is what the handler throws. -/
theorem rejection_createOrder {dto : CreateOrderDto} {correlationId : Option String}
    {x : Occasion} :
    ([checkOk (validateUser x.services dto.customerUserId),
      checkOk (validateAddress x.services dto.customerUserId dto.shippingAddressId),
      checkOk (validateAndPriceProducts x.services dto.items),
      check (x.createFails = none ∧
        ∀ o ∈ w.db.orders, o.orderNumber ≠ w.db.generateOrderNumber x.clock) (thrown .database),
      check (uuidColumn dto.customerUserId ≠ none) (thrown .database)] : List Check).findSome? id =
      (rejection (w.createOrder uuidColumn isUuid dto correlationId x).2).map thrown := by
  have hvalidate : dto.validate x.services =
      (validateUser x.services dto.customerUserId).bind fun _ =>
        (validateAddress x.services dto.customerUserId dto.shippingAddressId).bind fun _ =>
          validateAndPriceProducts x.services dto.items := rfl
  have hrefused {e : Thrown} (h : dto.validate x.services = .error e) :
      (w.createOrder uuidColumn isUuid dto correlationId x).2 = .error e := by
    simp only [World.createOrder, CreateOrderDto.createOrder, h]
  cases hu : validateUser x.services dto.customerUserId with
  | error e =>
    rw [hu] at hvalidate
    rw [hrefused hvalidate]
    rfl
  | ok user =>
    cases ha : validateAddress x.services dto.customerUserId dto.shippingAddressId with
    | error e =>
      rw [hu, ha] at hvalidate
      rw [hrefused hvalidate]
      rfl
    | ok address =>
      cases hp : validateAndPriceProducts x.services dto.items with
      | error e =>
        rw [hu, ha, hp] at hvalidate
        rw [hrefused hvalidate]
        rfl
      | ok items =>
        rw [hu, ha, hp] at hvalidate
        have hcall := dto.createOrder_of_validated x.services w isUuid correlationId x.clock
          x.createFails hvalidate
        unfold World.createOrder
        revert hcall
        generalize dto.createOrder x.services w isUuid correlationId x.clock x.createFails = call
        rcases call with ⟨w', answer⟩
        rintro rfl
        by_cases hfree : x.createFails = none ∧
          ∀ o ∈ w.db.orders, o.orderNumber ≠ w.db.generateOrderNumber x.clock
        · rw [if_pos hfree, check_of hfree]
          cases uuidColumn dto.customerUserId <;> rfl
        · rw [if_neg hfree, check_of_not hfree]
          rfl

/-- A request that passes the gateway: what comes back is the order service's response. -/
theorem createOrder_of_checks (h : NamesCustomer userId token.claims) (hid : userId ≠ "")
    {inbound : Option String} :
    createOrder d expiresIn uuidColumn isUuid rank number isUUID body inbound w (some token) j =
      match (gatewayChecks d number isUUID token body j).findSome? id with
      | some error => (w, error)
      | none =>
        let r := ask d expiresIn uuidColumn isUuid rank w j
          (.createOrder (body.dto userId) (some (getCorrelationId (intercept inbound) inbound)))
          (if (body.admitted number isUUID userId).isSome then none
            else some (.response 400 .invalid)) ⟨userId, "customer"⟩
        (r.1, j.back (forward r.2)) := by
  rw [createOrder, proxy_of_namesCustomer h hid rfl]
  unfold gatewayChecks
  cases throttled j.throttle with
  | some reply => rfl
  | none =>
    dsimp only
    by_cases hv : token.secret ≠ d.gatewaySecret ∨ token.expiresAt ≤ j.now
    · have hnot : ¬ (token.secret = d.gatewaySecret ∧ j.now < token.expiresAt) := fun hc =>
        hv.elim (fun hs => hs hc.1) fun he => not_lt.mpr he hc.2
      rw [if_pos hv, check_of_not hnot]
      rfl
    · have hok : token.secret = d.gatewaySecret ∧ j.now < token.expiresAt := by
        rwa [not_or, not_not, Int.not_le] at hv
      rw [if_neg hv, check_of hok]
      by_cases hr : token.claims.role = none
      · rw [if_pos hr, check_of_not (not_not.mpr hr)]
        rfl
      · rw [if_neg hr, check_of hr]
        cases body.checked number isUUID with
        | none => rfl
        | some members =>
          cases hj : j.refused with
          | true => rfl
          | false => rfl

/--
`POST /orders` at the gateway, for every credential in circulation and every body a client can
write: the reply is the error of the first check that fails, and nothing was written; or an order
was written for the credential's user, under the request's correlation identifier, and the reply
tells it. A connection lost on the way back hides which of the two.
-/
theorem createOrder_reply (d : Deployment) (expiresIn : ℤ) (uuidColumn : String → Option String)
    (isUuid : String → Bool) (rank : Uuid → ℕ) (number : String → Option ℚ)
    (isUUID : String → Bool) (userId : String) (hid : userId ≠ "") (token : Token Claims)
    (ht : Issued d expiresIn userId token) (w : World) (hw : w.Keyed uuidColumn)
    (body : OrderBody) (inbound : Option String) (j : Journey) :
    let r :=
      createOrder d expiresIn uuidColumn isUuid rank number isUUID body inbound w (some token) j
    match (gatewayChecks d number isUUID token body j).findSome? id with
    | some error => r = (w, error)
    | none =>
      match (orderChecks expiresIn uuidColumn number isUUID w userId body j).findSome? id with
      | some error => r.1.db = w.db ∧ r.2 = j.back error
      | none => ∃ order, r.1.db.orders = w.db.orders ++ [order] ∧
          OrderedBy uuidColumn isUuid userId inbound order ∧
          r.2 = j.back ⟨201, .data (.created ⟨order.id, .pending, order.orderNumber⟩)⟩ := by
  intro r
  have hr : r = _ := createOrder_of_checks ht.claims hid
  rw [hr]
  cases (gatewayChecks d number isUUID token body j).findSome? id with
  | some error => rfl
  | none =>
    simp only [ask_customer hid]
    unfold orderChecks
    by_cases hd : expiresIn ≤ j.delay
    · rw [if_pos hd, check_of_not (not_lt.mpr hd)]
      exact ⟨rfl, rfl⟩
    · rw [if_neg hd, check_of (not_le.mp hd)]
      cases body.admitted number isUUID userId with
      | none => exact ⟨rfl, rfl⟩
      | some fields =>
        have hskip (l : List Check) : (none :: check (Option.isSome (some fields) = true)
          ⟨400, .invalid⟩ :: l).findSome? id = l.findSome? id := rfl
        rw [hskip]
        have hrej := @rejection_createOrder uuidColumn isUuid w (body.dto userId)
          (some (getCorrelationId (intercept inbound) inbound)) j.occasion
        rw [hrej]
        have hfor : (body.dto userId).forUser ⟨userId, some ["customer"]⟩ = body.dto userId :=
          if_neg fun h => h.2 rfl
        have hwritten := @createOrder_written uuidColumn isUuid rank userId w hw (body.dto userId)
          inbound j.occasion
        simp only [World.handleRequest, hfor, Option.isSome_some, if_true, Option.elim_none]
          at hwritten ⊢
        revert hwritten
        generalize w.createOrder uuidColumn isUuid (body.dto userId)
          (some (getCorrelationId (intercept inbound) inbound)) j.occasion = call
        rcases call with ⟨w', e | created⟩
        · rintro (⟨hdb, -⟩ | ⟨order, -, -, he⟩)
          · exact ⟨hdb, congrArg j.back (forward_respond _ _)⟩
          · cases he
        · rintro (⟨-, e, he⟩ | ⟨order, ho, hby, he⟩)
          · cases he
          · cases he
            exact ⟨order, ho, hby, rfl⟩

end Replies

/-- Two pens, without a note that the order service would refuse. -/
def penBody : OrderBody := ⟨[⟨Saga.uuidOfPen, 2⟩], some Saga.uuidOfPen, none⟩

/-- Texts of the length of a UUID; the bodies here hold no others of it. -/
def isLong (text : String) : Bool := text.length = 36

theorem penBody_reply : ∃ order,
    (createOrder separate 300 lowerColumn (fun _ => false) id (fun _ => none) isLong penBody none
        .empty (some (separate.users.issueTokenPair shopper 0).accessToken)
        sampleJourney).1.db.orders = [order] ∧
      OrderedBy lowerColumn (fun _ => false) shopper.id none order ∧
      (createOrder separate 300 lowerColumn (fun _ => false) id (fun _ => none) isLong penBody none
          .empty (some (separate.users.issueTokenPair shopper 0).accessToken) sampleJourney).2 =
        ⟨201, .data (.created ⟨order.id, .pending, order.orderNumber⟩)⟩ := by
  have hreply := createOrder_reply separate 300 lowerColumn (fun _ => false) id (fun _ => none)
    isLong shopper.id (by decide) _ (.access shopper 0 rfl) .empty
    (by constructor <;> simp [World.empty]) penBody none sampleJourney
  have hgateway : (gatewayChecks separate (fun _ => none) isLong
      (separate.users.issueTokenPair shopper 0).accessToken penBody sampleJourney).findSome? id =
        none := by decide +kernel
  have horder : (orderChecks 300 lowerColumn (fun _ => none) isLong .empty shopper.id penBody
      sampleJourney).findSome? id = none := by decide +kernel
  simp only [hgateway, horder] at hreply
  exact hreply

/-- The same order with a note: the order service's class does not know it. -/
example : (createOrder separate 300 lowerColumn (fun _ => false) id (fun _ => none) isLong
    { penBody with notes := some "Ring twice" } none .empty
    (some (separate.users.issueTokenPair shopper 0).accessToken) sampleJourney).2 =
      ⟨400, .invalid⟩ := by decide +kernel

end ApiGateway
