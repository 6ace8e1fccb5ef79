import OrderPlatform.Access.Credentials
import OrderPlatform.ApiGateway.Throttler

/-! # Requests through the gateway

A request passes the gateway's throttler, its guards and its pipe, is sent on under a token of
the gateway's own, passes the order service's guards, pipe and checks, and its answer comes back
through `forward`. The reply to a request for an order is worked out for every credential in
circulation.
-/

namespace OrderService

open Wire

/-- The status of an error's response, by the framework's own filter. -/
def HttpError.status : HttpError → ℕ
  | .unauthorized _ => 401
  | .threw (.notFound _) => 404
  | .threw (.badRequest _) => 400
  | .threw (.forbidden _) => 403
  | .threw _ => 500

def HttpError.message : HttpError → String
  | .unauthorized message => message
  | .threw (.notFound message) => message
  | .threw (.badRequest message) => message
  | .threw (.forbidden message) => message
  | .threw _ => "Internal server error"

/-- The status of a successful response; `cancelOrder` is decorated with its own. -/
def Request.status : Request → ℕ
  | .createOrder _ _ => 201
  | .getOrder _ => 200
  | .listOrders _ => 200
  | .cancelOrder _ _ => 200

end OrderService

namespace ApiGateway

open Access OrderService Store Wire
open UserService (Claims)

/-- The data of a response: what the handler returned, an error's message, or those of a pipe. -/
inductive Body (α : Type)
  | data (a : α)
  | error (message : Option String)
  | invalid
  deriving DecidableEq, Repr

/-- How a request sent on ends: with a response, or without one. -/
inductive Downstream (α : Type)
  | response (status : ℕ) (body : Body α)
  | failed
  deriving DecidableEq, Repr

structure Reply (α : Type) where
  status : ℕ
  body : Body α
  deriving DecidableEq, Repr

/-- `ProxyController.forward`; the client resolves with a status from 200 to 299 only. -/
def forward {α : Type} : Downstream α → Reply α
  | .failed => ⟨502, .error (some "Downstream service unavailable")⟩
  | .response status body =>
    if 200 ≤ status ∧ status < 300 then ⟨status, body⟩
    else if status = 502 then ⟨502, .error (some "Downstream service unavailable")⟩
    else
      match body with
      | .error (some message) => ⟨status, .error (some message)⟩
      | .invalid => ⟨status, .invalid⟩
      | _ => ⟨status, .error (some ("Request failed with status code " ++ toString status))⟩

/--
What `ThrottlerGuard` answers in the request's place: it is given the record that `increment`
returned, or none when Redis failed.
-/
def throttled {α : Type} : Option ThrottlerStorageRecord → Option (Reply α)
  | none => some ⟨500, .error (some "Internal server error")⟩
  | some record =>
    if record.isBlocked then
      some ⟨429, .error (some "ThrottlerException: Too Many Requests")⟩
    else none

/-- `ProxyController.getUser`. -/
def getUser (user : Option GatewayUser) : GatewayUser :=
  ⟨(user.map GatewayUser.userId).getD "", (user.map GatewayUser.role).getD ""⟩

/-- `CorrelationInterceptor.intercept`: what it attaches to the request. -/
def intercept (inbound : Option String) : Option String := inbound.filter (0 < ·.length)

/-- `ProxyController.getCorrelationId`. -/
def getCorrelationId (attached inbound : Option String) : String :=
  orDefault attached (orDefault inbound "unknown")

/-- The response to a request of the order service. -/
def respond (request : OrderService.Request) : Except HttpError Answer → Downstream Answer
  | .ok answer => .response request.status (.data answer)
  | .error e => .response e.status (.error (some e.message))

/--
What happens to a request on its way: what the throttler counts, when it reaches the gateway, how
long it takes to the order service, what goes on there, and whether the connection fails before
or after it is served.
-/
structure Journey where
  throttle : Option ThrottlerStorageRecord
  now : ℤ
  delay : ℤ
  occasion : Occasion
  refused : Bool
  lost : Bool

def Refusal.reply {α : Type} : Refusal → Reply α
  | .unauthorized message => ⟨401, .error (some message)⟩
  | .forbidden message => ⟨403, .error (some message)⟩

/-- A path parameter that is sent on as it came: a segment of letters, digits and hyphens. -/
structure PathSegment where
  text : String
  nonempty : text ≠ ""
  plain : (text.toList.all fun c => c.isAlphanum || c = '-') = true

/-- The error of a missing order names it by the text it was asked for. -/
def Downstream.named {α : Type} (text : String) : Downstream α → Downstream α
  | .response 404 (.error _) => .response 404 (.error (some ("Order " ++ text ++ " not found")))
  | r => r

section Proxy

variable (d : Deployment) (expiresIn : ℤ) (uuidColumn : String → Option String)
  (isUuid : String → Bool) (rank : Uuid → ℕ) (parseUuid : String → Option Uuid)

/-- A request at the order service under the token the gateway made for its user. -/
def forwarded (user : GatewayUser) (j : Journey) (request : OrderService.Request) : TokenVisit where
  userId := user.userId
  token := issueInternalToken d.users.internalJwtSecret expiresIn user j.now
  now := j.now + j.delay
  request := request
  occasion := j.occasion

/-- The order service's response; what its pipe refuses has passed its guards. -/
def ask (w : World) (j : Journey) (request : OrderService.Request)
    (refusal : Option (Downstream Answer)) (user : GatewayUser) : World × Downstream Answer :=
  let visit := forwarded d expiresIn user j request
  let (w', answer) := visit.serve uuidColumn isUuid rank d w
  match refusal,
    OrderService.guards d.users.internalJwtSecret request (some visit.token) visit.now with
  | some response, .ok _ => (w, response)
  | _, _ => (w', respond request answer)

/--
A handler of `ProxyController` that asks the order service. The throttler is provided by the
module and so comes before the guards that the bootstrap adds; the pipe comes after them.
-/
def proxy (route : Route) (invalid : Bool) (send : GatewayUser → World × Downstream Answer)
    (w : World) (token : Option (Token Claims)) (j : Journey) : World × Reply Answer :=
  match throttled j.throttle with
  | some reply => (w, reply)
  | none =>
    match guards d.gatewaySecret route token j.now with
    | .error e => (w, Refusal.reply e)
    | .ok user =>
      if invalid then (w, ⟨400, .invalid⟩)
      else if j.refused then (w, forward .failed)
      else
        let (w', response) := send (getUser user)
        (w', forward (if j.lost then .failed else response))

/-- What `ParseUUIDPipe` of the order service answers to a text that is no UUID. -/
def noUuid : Downstream Answer :=
  .response 400 (.error (some "Validation failed (uuid is expected)"))

/-- `ProxyController.getOrderById`; `parseUuid` reads the UUID that a text spells. -/
def getOrderById (id : PathSegment) (w : World) (token : Option (Token Claims)) (j : Journey) :
    World × Reply Answer :=
  let send (user : GatewayUser) :=
    match parseUuid id.text with
    | some orderId =>
      let (w', response) :=
        ask d expiresIn uuidColumn isUuid rank w j (.getOrder orderId) none user
      (w', response.named id.text)
    | none => ask d expiresIn uuidColumn isUuid rank w j (.getOrder 0) (some noUuid) user
  proxy d .getOrderById false send w token j

end Proxy

theorem throttled_cases {α : Type} {record : Option ThrottlerStorageRecord} {reply : Reply α}
    (h : throttled record = some reply) :
    reply = ⟨429, .error (some "ThrottlerException: Too Many Requests")⟩ ∨
      reply = ⟨500, .error (some "Internal server error")⟩ := by
  cases record with
  | none =>
    cases h
    exact Or.inr rfl
  | some record =>
    simp only [throttled] at h
    split at h <;> cases h
    exact Or.inl rfl

/-- A response that is neither 502 nor without its message is passed on as it is. -/
theorem forward_respond (request : OrderService.Request) (answer : Except HttpError Answer) :
    forward (respond request answer) =
      match answer with
      | .ok a => ⟨request.status, .data a⟩
      | .error e => ⟨e.status, .error (some e.message)⟩ := by
  cases answer with
  | ok a => cases request <;> rfl
  | error e =>
    cases e with
    | unauthorized m => rfl
    | threw t => cases t <;> rfl

section Replies

variable {d : Deployment} {expiresIn : ℤ} {uuidColumn : String → Option String}
  {isUuid : String → Bool} {rank : Uuid → ℕ} {userId : String} {token : Token Claims} {w : World}
  {j : Journey} {request : OrderService.Request} {route : Route}

/-- What the gateway makes of a customer's credential: a refresh token names no role. -/
theorem guards_of_namesCustomer (h : NamesCustomer userId token.claims) (hid : userId ≠ "")
    {jwtSecret : String} {now : ℤ} (hp : route.isPublic = false) :
    guards jwtSecret route (some token) now =
      if token.secret ≠ jwtSecret ∨ token.expiresAt ≤ now then
        .error (.unauthorized "Unauthorized")
      else if token.claims.role = none then .error (.unauthorized "Invalid token payload")
      else .ok (some ⟨userId, "customer"⟩) := by
  have hs : (some userId).filter (· ≠ "") = some userId := by simp [hid]
  rw [guards, hp, bearer, Option.bind_some]
  by_cases hv : token.secret ≠ jwtSecret ∨ token.expiresAt ≤ now
  · rw [if_pos hv, Token.verify_eq_none.2 hv]
    rfl
  · have hok : token.secret = jwtSecret ∧ now < token.expiresAt := by
      rwa [not_or, not_not, Int.not_le] at hv
    rw [if_neg hv, Token.verify_eq_some.2 ⟨hok, rfl⟩]
    simp only [validate, h.sub, hs]
    rcases h.role with hr | hr
    · rw [hr]
      rfl
    · rw [hr]
      rfl

/-- The token made at the gateway has to reach the order service before it expires. -/
theorem payload_forwarded : (forwarded d expiresIn ⟨userId, "customer"⟩ j request).payload d =
    if expiresIn ≤ j.delay then none else some ⟨some userId, some ["customer"]⟩ := by
  simp only [TokenVisit.payload, forwarded, issueInternalToken, Token.sign, Token.verify, true_and,
    add_lt_add_iff_left]
  by_cases h : expiresIn ≤ j.delay
  · rw [if_neg (not_lt.2 h), if_pos h]
    rfl
  · rw [if_pos (not_le.1 h), if_neg h]
    rfl

/-- Every endpoint of the order service lets a customer through to its handler. -/
theorem serve_customer (hid : userId ≠ "") (x : Occasion) :
    w.serve uuidColumn isUuid rank (some ⟨some userId, some ["customer"]⟩) request x =
      ((w.handleRequest uuidColumn isUuid rank ⟨userId, some ["customer"]⟩ x request).1,
        (w.handleRequest uuidColumn isUuid rank ⟨userId, some ["customer"]⟩ x request).2.mapError
          .threw) := by
  have hr : canActivate request.requiredRoles ⟨userId, some ["customer"]⟩ = .ok () := by
    cases request <;> rfl
  simp only [World.serve, OrderService.validate, if_neg hid, hr]

/-- The order service's response to a customer: the token's age, the pipe, then the handler. -/
theorem ask_customer (hid : userId ≠ "") (refusal : Option (Downstream Answer)) :
    ask d expiresIn uuidColumn isUuid rank w j request refusal ⟨userId, "customer"⟩ =
      if expiresIn ≤ j.delay then (w, .response 401 (.error (some "Unauthorized")))
      else
        let r := w.handleRequest uuidColumn isUuid rank ⟨userId, some ["customer"]⟩ j.occasion
          request
        refusal.elim (r.1, respond request (r.2.mapError .threw)) fun response =>
          (w, response) := by
  have hpayload : ((some (forwarded d expiresIn ⟨userId, "customer"⟩ j request).token).bind
      fun t => t.verify d.users.internalJwtSecret
        (forwarded d expiresIn ⟨userId, "customer"⟩ j request).now).map payloadOf =
          (forwarded d expiresIn ⟨userId, "customer"⟩ j request).payload d := rfl
  have hserve : (forwarded d expiresIn ⟨userId, "customer"⟩ j request).serve uuidColumn isUuid
      rank d w = w.serve uuidColumn isUuid rank
        ((forwarded d expiresIn ⟨userId, "customer"⟩ j request).payload d) request
          j.occasion := rfl
  simp only [ask, OrderService.guards, hpayload, hserve, payload_forwarded]
  by_cases hd : expiresIn ≤ j.delay
  · simp only [if_pos hd]
    cases refusal <;> rfl
  · have hr : canActivate request.requiredRoles ⟨userId, some ["customer"]⟩ = .ok () := by
      cases request <;> rfl
    simp only [if_neg hd, serve_customer hid, OrderService.validate, if_neg hid, hr]
    cases refusal <;> rfl

/-- The reply to a customer's credential, whatever is sent on. -/
theorem proxy_of_namesCustomer (h : NamesCustomer userId token.claims) (hid : userId ≠ "")
    (hp : route.isPublic = false) (invalid : Bool)
    (send : GatewayUser → World × Downstream Answer) :
    proxy d route invalid send w (some token) j =
      match throttled j.throttle with
      | some reply => (w, reply)
      | none =>
        if token.secret ≠ d.gatewaySecret ∨ token.expiresAt ≤ j.now then
          (w, ⟨401, .error (some "Unauthorized")⟩)
        else if token.claims.role = none then (w, ⟨401, .error (some "Invalid token payload")⟩)
        else if invalid then (w, ⟨400, .invalid⟩)
        else if j.refused then (w, ⟨502, .error (some "Downstream service unavailable")⟩)
        else
          ((send ⟨userId, "customer"⟩).1,
            if j.lost then ⟨502, .error (some "Downstream service unavailable")⟩
            else forward (send ⟨userId, "customer"⟩).2) := by
  rw [proxy, guards_of_namesCustomer h hid hp]
  cases throttled j.throttle with
  | some reply => rfl
  | none =>
    dsimp only
    by_cases hv : token.secret ≠ d.gatewaySecret ∨ token.expiresAt ≤ j.now
    · rw [if_pos hv, if_pos hv]
      rfl
    · rw [if_neg hv, if_neg hv]
      by_cases hr : token.claims.role = none
      · rw [if_pos hr, if_pos hr]
        rfl
      · rw [if_neg hr, if_neg hr]
        have hu : getUser (some ⟨userId, "customer"⟩) = ⟨userId, "customer"⟩ := rfl
        simp only [hu]
        cases hl : j.lost <;> rfl

/-- What a customer who asks for an order is told, once both services have let them in. -/
def shownOrder (db : Db) (userId : String) (id : Uuid) (text : String) : Reply Answer :=
  match db.findById id with
  | none => ⟨404, .error (some ("Order " ++ text ++ " not found"))⟩
  | some order =>
    if order.customerUserId = userId then ⟨200, .data (.order (mapToResponse db order))⟩
    else ⟨403, .error (some "You do not have permission to access this order")⟩

theorem forward_getOrder (id : Uuid) (text : String) :
    forward ((respond (.getOrder id) (((OrderService.getOrder w.db id
      ⟨userId, some ["customer"]⟩).map fun order =>
        Answer.order (mapToResponse w.db order)).mapError .threw)).named text) =
      shownOrder w.db userId id text := by
  rw [shownOrder, OrderService.getOrder]
  cases w.db.findById id with
  | none => rfl
  | some order =>
    by_cases ho : order.customerUserId = userId
    · simp only [checkRoles, ho, or_true, if_true]
      rfl
    · have hc : checkRoles order ⟨userId, some ["customer"]⟩ =
          .error (.forbidden "You do not have permission to access this order") := by
        simp [checkRoles, ho]
      simp only [hc, if_neg ho]
      rfl

/--
What a customer who asks for an order is told: the throttler, the token, the two connections, the
pipe and the database are asked in this order.
-/
def orderReply (d : Deployment) (expiresIn : ℤ) (parseUuid : String → Option Uuid) (db : Db)
    (userId : String) (token : Token Claims) (j : Journey) (id : PathSegment) : Reply Answer :=
  match throttled j.throttle with
  | some reply => reply
  | none =>
    if token.secret ≠ d.gatewaySecret ∨ token.expiresAt ≤ j.now then
      ⟨401, .error (some "Unauthorized")⟩
    else if token.claims.role = none then ⟨401, .error (some "Invalid token payload")⟩
    else if j.refused = true ∨ j.lost = true then
      ⟨502, .error (some "Downstream service unavailable")⟩
    else if expiresIn ≤ j.delay then ⟨401, .error (some "Unauthorized")⟩
    else
      match parseUuid id.text with
      | none => ⟨400, .error (some "Validation failed (uuid is expected)")⟩
      | some orderId =>
        if j.occasion.fails .findOrder then ⟨500, .error (some "Internal server error")⟩
        else shownOrder db userId orderId id.text

/-- What becomes of the request of a customer, from the throttler to the database. -/
theorem getOrderById_of_namesCustomer (h : NamesCustomer userId token.claims) (hid : userId ≠ "")
    (parseUuid : String → Option Uuid) (id : PathSegment) :
    getOrderById d expiresIn uuidColumn isUuid rank parseUuid id w (some token) j =
      (w, orderReply d expiresIn parseUuid w.db userId token j id) := by
  rw [getOrderById, proxy_of_namesCustomer h hid rfl, orderReply]
  simp only [ask_customer hid]
  cases throttled j.throttle with
  | some reply => rfl
  | none =>
    dsimp only
    by_cases hv : token.secret ≠ d.gatewaySecret ∨ token.expiresAt ≤ j.now
    · simp only [if_pos hv]
    · by_cases hr : token.claims.role = none
      · simp only [if_neg hv, if_pos hr]
      · simp only [if_neg hv, if_neg hr, Bool.false_eq_true, if_false]
        cases parseUuid id.text with
        | none =>
          cases hj : j.refused <;> cases hl : j.lost <;>
            simp only [Bool.false_eq_true, if_false, if_true, or_true, or_false]
          · split <;> rfl
          · split <;> rfl
        | some orderId =>
          simp only [World.handleRequest]
          cases hj : j.refused <;> cases hl : j.lost <;>
            simp only [Bool.false_eq_true, if_false, if_true, or_true, or_false]
          · cases hf : j.occasion.fails .findOrder
            · simp only [Bool.false_eq_true, if_false, ← forward_getOrder]
              split <;> rfl
            · simp only [if_true]
              split <;> rfl
          · split
            · rfl
            · split <;> rfl

/--
`GET /orders/:id` at the gateway, for every credential in circulation and every identifier that
is one segment of a path: what the throttler, the credential, the two connections, the pipe and
the database decide between 429, 401, 502, 400, 500, 404, 403 and 200, and the order itself only
for its own customer. Nothing is changed by asking.
-/
theorem getOrderById_reply (d : Deployment) (expiresIn : ℤ) (uuidColumn : String → Option String)
    (isUuid : String → Bool) (rank : Uuid → ℕ) (parseUuid : String → Option Uuid)
    (userId : String) (hid : userId ≠ "") (token : Token Claims)
    (ht : Issued d expiresIn userId token) (w : World) (j : Journey) (id : PathSegment) :
    getOrderById d expiresIn uuidColumn isUuid rank parseUuid id w (some token) j =
      (w, orderReply d expiresIn parseUuid w.db userId token j id) :=
  getOrderById_of_namesCustomer ht.claims hid parseUuid id

end Replies

/-- The first request of a client in its window, which nothing keeps from its answer. -/
def sampleJourney : Journey :=
  ⟨some ⟨1, 60000, false, 0⟩, 1, 1, OrderService.sampleOccasion, false, false⟩

def firstOrder : PathSegment := ⟨"0", by decide, by decide⟩

/-- A reading that knows one identifier. -/
def sampleParse (text : String) : Option Uuid := if text = "0" then some 0 else none

/-- The shopper asks for the order of another customer. -/
theorem othersOrder_reply :
    getOrderById separate 300 lowerColumn (fun _ => false) id sampleParse firstOrder
        OrderService.othersWorld (some (separate.users.issueTokenPair shopper 0).accessToken)
        sampleJourney =
      (OrderService.othersWorld,
        ⟨403, .error (some "You do not have permission to access this order")⟩) :=
  (getOrderById_reply separate 300 lowerColumn (fun _ => false) id _ shopper.id (by decide) _
    (.access shopper 0 rfl) OrderService.othersWorld sampleJourney firstOrder).trans
    (congrArg _ (by decide +kernel))

/-- A client over its limit is told so before anything else is looked at. -/
example : (getOrderById separate 300 lowerColumn (fun _ => false) id (fun _ => none) firstOrder
    OrderService.othersWorld none { sampleJourney with
      throttle := some ⟨101, 30000, true, 60000⟩ }).2.status = 429 := by decide +kernel

end ApiGateway
