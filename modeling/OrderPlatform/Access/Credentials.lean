import OrderPlatform.Access.RefreshTokens

/-! # The credentials in circulation

The user service signs token pairs, and the gateway signs a token of its own for each request
it forwards. Whatever the secrets are, these tokens name customers only, so the routes they
open are a customer's, and at the order service they reach the orders of their own user.
-/

namespace ApiGateway

open Access
open UserService (Claims)

/-- `ProxyService.issueInternalToken`; `expiresIn` is `INTERNAL_JWT_EXPIRES_IN`, in seconds. -/
def issueInternalToken (internalJwtSecret : String) (expiresIn : ℤ) (user : GatewayUser)
    (now : ℤ) : Token Claims :=
  .sign internalJwtSecret
    { sub := some user.userId, role := some user.role, roles := some [user.role] } now expiresIn

variable {jwtSecret : String} {route : Route} {token : Token Claims} {now : ℤ} {user : GatewayUser}

/-- The user of a guarded request is read off the claims of a token the gateway accepts. -/
theorem of_guards (h : guards jwtSecret route (some token) now = .ok (some user)) :
    token.secret = jwtSecret ∧ now < token.expiresAt ∧
      token.claims.sub = some user.userId ∧ token.claims.role = some user.role := by
  unfold guards at h
  split at h
  · cases h
  · rw [bearer, Option.bind_some] at h
    cases hv : token.verify jwtSecret now with
    | none => simp [hv, Except.map] at h
    | some claims =>
      obtain ⟨⟨hsecret, hnow⟩, rfl⟩ := Token.verify_eq_some.1 hv
      simp only [hv, validate] at h
      split at h
      · rename_i sub role hs hr
        cases h
        exact ⟨hsecret, hnow, (Option.filter_eq_some_iff.1 hs).1,
          (Option.filter_eq_some_iff.1 hr).1⟩
      · cases h

/-- A token of the gateway's secret with a subject and a role is let in until it expires. -/
theorem guards_of_claims (hsecret : token.secret = jwtSecret) (hnow : now < token.expiresAt)
    (hsub : token.claims.sub = some user.userId) (hrole : token.claims.role = some user.role)
    (hid : user.userId ≠ "") (hne : user.role ≠ "") (hp : route.isPublic = false) :
    guards jwtSecret route (some token) now = .ok (some user) := by
  have hv : token.verify jwtSecret now = some token.claims :=
    Token.verify_eq_some.2 ⟨⟨hsecret, hnow⟩, rfl⟩
  have hs : token.claims.sub.filter (· ≠ "") = some user.userId := by simp [hsub, hid]
  have hr : token.claims.role.filter (· ≠ "") = some user.role := by simp [hrole, hne]
  rw [guards, hp, bearer, Option.bind_some, hv]
  simp only [validate, hs, hr, Bool.false_eq_true, if_false, Except.map]

end ApiGateway

namespace PaymentService

open Access
open UserService (Claims)

variable {config : RefundConfig} {claims : Claims} {userId : String} {user : AuthSubject}

theorem validate_customer (hsub : claims.sub = some userId) (hrole : claims.role = some "customer")
    (hservice : claims.isServiceAccount = none) :
    validate claims = .error (.unauthorized "Invalid token payload") ∨
      validate claims = .ok ⟨userId, .customer, claims.region, false⟩ := by
  have hr : claims.role.filter (· ≠ "") = some "customer" := by rw [hrole]; rfl
  rw [validate, hr, hsub, hservice]
  by_cases hid : userId = ""
  · left
    simp [hid]
  · right
    have hs : (some userId).filter (· ≠ "") = some userId := by simp [hid]
    rw [hs]
    rfl

/-- No payment is attached to a request when its guard runs, so a customer owns none of them. -/
theorem evaluate_refuses (hrole : user.role = .customer) (hservice : user.isServiceAccount = false)
    {route : Route} (hp : route ≠ .findAll) (id : Option Wire.Uuid) :
    (evaluate config route.policy user { paymentId := id }).allowed = false := by
  cases route with
  | charge => simp [Route.policy, evaluate, evaluateCreate, hrole, hservice, PolicyDecision.deny]
  | findOne => simp [Route.policy, evaluate, evaluateView, hrole, hservice, PolicyDecision.deny]
  | refund => simp [Route.policy, evaluate, evaluateRefund, hrole, hservice, PolicyDecision.deny]
  | findAll => exact absurd rfl hp

theorem canActivate_refuses (hrole : user.role = .customer)
    (hservice : user.isServiceAccount = false) {route : Route} (hp : route ≠ .findAll) :
    ∃ e, canActivate config (some route.policy)
      { user := some user, id := route.id, correlationId := none } = .error e := by
  have hd := @evaluate_refuses config user hrole hservice route hp (route.id.or none)
  simp only [canActivate, Option.getD_none]
  rw [if_neg (Bool.eq_false_iff.1 hd)]
  exact ⟨_, rfl⟩

end PaymentService

namespace Access

open UserService (Claims User canActivate_isOk_iff)

/--
A token in circulation and the user it was issued to: one of a pair the user service has
issued, or the one the gateway signs for a request it lets in.
-/
inductive Issued (d : Deployment) (expiresIn : ℤ) (userId : String) : Token Claims → Prop
  | access (user : User) (issuedAt : ℤ) (hu : user.id = userId) :
    Issued d expiresIn userId (d.users.issueTokenPair user issuedAt).accessToken
  | refresh (user : User) (issuedAt : ℤ) (hu : user.id = userId) :
    Issued d expiresIn userId (d.users.issueTokenPair user issuedAt).refreshToken
  | internal (token : Token Claims) (route : ApiGateway.Route) (now : ℤ)
    (user : ApiGateway.GatewayUser) (h : Issued d expiresIn userId token)
    (hg : ApiGateway.guards d.gatewaySecret route (some token) now = .ok (some user)) :
    Issued d expiresIn userId
      (ApiGateway.issueInternalToken d.users.internalJwtSecret expiresIn user now)

/-- Claims about a user that name no role but the customer's. -/
structure NamesCustomer (userId : String) (claims : Claims) : Prop where
  sub : claims.sub = some userId
  role : claims.role = none ∨ claims.role = some "customer"
  roles : claims.roles = none ∨ claims.roles = some ["customer"]
  isServiceAccount : claims.isServiceAccount = none

/-- The routes that a customer's credentials open. -/
def Route.openToCustomers : Route → Bool
  | .gateway _ => true
  | .getMe => true
  | .orders _ => true
  | .products route => route.isPublic
  | .payments route => route = .findAll
  | .notifications _ => false

variable {d : Deployment} {expiresIn now : ℤ} {userId : String} {token : Token Claims}

/-- The gateway passes on the subject and the role of the token it was shown. -/
theorem Issued.claims (h : Issued d expiresIn userId token) :
    NamesCustomer userId token.claims := by
  induction h with
  | access user issuedAt hu => exact ⟨congrArg some hu, Or.inr rfl, Or.inl rfl, rfl⟩
  | refresh user issuedAt hu => exact ⟨congrArg some hu, Or.inl rfl, Or.inl rfl, rfl⟩
  | internal token route now user h hg ih =>
    obtain ⟨-, -, hsub, hrole⟩ := ApiGateway.of_guards hg
    have hid : user.userId = userId := Option.some.inj (hsub.symm.trans ih.sub)
    have hr : user.role = "customer" := by
      rcases ih.role with hn | hc
      · cases hn.symm.trans hrole
      · exact Option.some.inj (hrole.symm.trans hc)
    constructor
    · exact congrArg some hid
    · exact Or.inr (congrArg some hr)
    · exact Or.inr (congrArg (fun role => some [role]) hr)
    · rfl

section Customers

variable (h : NamesCustomer userId token.claims)

include h

theorem NamesCustomer.products {route : ProductService.Route} (hp : route.isPublic = false) :
    (Route.products route).grants d (some token) now = false := by
  rcases h.roles with hr | hr
  · exact products_refuses hr hp
  · have hv : ProductService.validate token.claims = .ok ⟨token.claims.sub, ["customer"]⟩ := by
      rw [ProductService.validate, hr, Option.getD_some]
    rw [Route.grants, ProductService.guards, hp]
    rcases bearer_cases d.users.internalJwtSecret ProductService.validate token now with hb | hb
    · rw [hb]; rfl
    · rw [hb, hv]
      cases route <;> first | rfl | cases hp

theorem NamesCustomer.notifications (route : NotificationService.Route) :
    (Route.notifications route).grants d (some token) now = false := by
  rcases h.roles with hr | hr
  · exact notifications_refuses hr route
  · have hv : NotificationService.validate token.claims =
        .ok ⟨token.claims.sub, ["customer"]⟩ := by
      rw [NotificationService.validate, hr, Option.getD_some]
    rw [Route.grants, NotificationService.guards]
    rcases bearer_cases d.users.internalJwtSecret NotificationService.validate token now with
      hb | hb
    · rw [hb]; rfl
    · rw [hb, hv]
      cases route <;> rfl

theorem NamesCustomer.payments {route : PaymentService.Route} (hp : route ≠ .findAll) :
    (Route.payments route).grants d (some token) now = false := by
  rcases h.role with hr | hr
  · exact payments_refuses hr route
  · rw [Route.grants, PaymentService.guards]
    rcases bearer_cases d.users.internalJwtSecret PaymentService.validate token now with hb | hb
    · rw [hb]; rfl
    · rw [hb]
      rcases PaymentService.validate_customer h.sub hr h.isServiceAccount with hv | hv
      · rw [hv]; rfl
      · obtain ⟨e, he⟩ := @PaymentService.canActivate_refuses d.refunds
          ⟨userId, .customer, token.claims.region, false⟩ rfl rfl route hp
        simp only [hv, he, Except.isOk, Except.toBool]

end Customers

/-- Whatever a customer's token opens is open to customers. -/
theorem NamesCustomer.openToCustomers (h : NamesCustomer userId token.claims) {route : Route}
    (hg : route.grants d (some token) now = true) : route.openToCustomers = true := by
  cases route with
  | gateway | getMe | orders => rfl
  | products route =>
    cases hp : route.isPublic with
    | true => exact hp
    | false => exact absurd hg (by simp [h.products hp])
  | payments route =>
    by_cases hp : route = .findAll
    · exact decide_eq_true hp
    · exact absurd hg (by simp [h.payments hp])
  | notifications route => exact absurd hg (by simp [h.notifications])

section Opened

/-- The gateway and the user service agree on a secret, and no token is born expired. -/
structure Deployment.InService (d : Deployment) (expiresIn : ℤ) : Prop where
  secret : d.gatewaySecret = d.users.signingSecret
  access : 0 < d.users.accessExpiresIn
  internal : 0 < expiresIn

variable {user : User}

/-- The token the gateway makes of a fresh access token. -/
def Deployment.exchanged (d : Deployment) (expiresIn : ℤ) (user : User) (now : ℤ) :
    Token Claims :=
  ApiGateway.issueInternalToken d.users.internalJwtSecret expiresIn ⟨user.id, "customer"⟩ now

theorem Deployment.InService.admits (h : d.InService expiresIn) (hid : user.id ≠ "")
    {route : ApiGateway.Route} (hp : route.isPublic = false) :
    ApiGateway.guards d.gatewaySecret route (some (d.users.issueTokenPair user now).accessToken)
      now = .ok (some ⟨user.id, "customer"⟩) := by
  have hrole : "customer" ≠ "" := by decide
  exact ApiGateway.guards_of_claims h.secret.symm (Int.lt_add_of_pos_right now h.access) rfl rfl
    hid hrole hp

theorem Deployment.InService.issued_exchanged (h : d.InService expiresIn) (hid : user.id ≠ "") :
    Issued d expiresIn user.id (d.exchanged expiresIn user now) :=
  .internal _ .getMe now _ (.access user now rfl) (h.admits hid rfl)

theorem Deployment.InService.verify_exchanged (h : d.InService expiresIn) :
    (d.exchanged expiresIn user now).verify d.users.internalJwtSecret now =
      some { sub := some user.id, role := some "customer", roles := some ["customer"] } :=
  Token.verify_eq_some.2 ⟨⟨rfl, Int.lt_add_of_pos_right now h.internal⟩, rfl⟩

/-- The exchanged token opens what is open to customers, the gateway apart. -/
theorem Deployment.InService.grants_exchanged (h : d.InService expiresIn) (hid : user.id ≠ "")
    {route : Route} (hg : ∀ r, route ≠ .gateway r) (ho : route.openToCustomers = true) :
    route.grants d (some (d.exchanged expiresIn user now)) now = true := by
  have hv := @Deployment.InService.verify_exchanged d expiresIn now user h
  cases route with
  | gateway r => exact absurd rfl (hg r)
  | getMe => exact canActivate_isOk_iff.2 (Token.verify_eq_some.1 hv).1
  | orders request =>
    rw [Route.grants, OrderService.guards, Option.bind_some, hv]
    simp only [Option.map_some, OrderService.payloadOf, OrderService.validate, if_neg hid]
    cases request <;> rfl
  | products r =>
    rw [Route.grants, ProductService.guards]
    cases r <;> first | rfl | cases ho
  | payments r =>
    obtain rfl : r = .findAll := of_decide_eq_true ho
    have hs : (some user.id).filter (· ≠ "") = some user.id := by simp [hid]
    rw [Route.grants, PaymentService.guards, bearer, Option.bind_some, hv]
    simp only [PaymentService.validate, hs]
    rfl
  | notifications r => cases ho

end Opened

/--
The routes that some credential in a user's name opens are those open to customers: no token
that was ever issued creates or changes a product, reads or sends a notification, charges,
shows or refunds a payment.
-/
theorem opened_iff (d : Deployment) (expiresIn : ℤ) (h : d.InService expiresIn) (user : User)
    (hid : user.id ≠ "") (now : ℤ) (route : Route) :
    (∃ token, Issued d expiresIn user.id token ∧ route.grants d (some token) now = true) ↔
      route.openToCustomers = true := by
  constructor
  · rintro ⟨token, ht, hg⟩
    exact ht.claims.openToCustomers hg
  · intro ho
    by_cases hr : ∃ r, route = .gateway r
    · obtain ⟨r, rfl⟩ := hr
      exact ⟨_, .access user now rfl, accessToken_opens_gateway hid h.secret
        (Int.lt_add_of_pos_right now h.access) r⟩
    · exact ⟨_, h.issued_exchanged hid, h.grants_exchanged hid (fun r he => hr ⟨r, he⟩) ho⟩

/-- A deployment with three secrets of its own. -/
def separate : Deployment where
  users := ⟨"internal-secret-of-the-services", some "signing-secret-of-the-users", 900, 604800,
    by decide, by decide⟩
  gatewaySecret := "signing-secret-of-the-users"
  refunds := ⟨100, false⟩

theorem separate_opened :
    (∃ token, Issued separate 300 "user-1" token ∧
      (Route.payments .findAll).grants separate (some token) 0 = true) ↔
      (Route.payments .findAll).openToCustomers = true :=
  opened_iff separate 300 ⟨by decide, by decide, by decide⟩ ⟨"user-1", true⟩ (by decide) 0 _

section Orders

open OrderService (World Request Occasion Answer HttpError JwtPayload CurrentUser payloadOf Shows
  Scope canActivate_no_roles handleRequest_effect scope_of_customer roles_of_validate)
open Runs Store Wire

variable (uuidColumn : String → Option String) (isUuid : String → Bool) (rank : Uuid → ℕ)

/-- A request as it arrives at the order service, with the user of its credential. -/
structure TokenVisit where
  userId : String
  token : Token Claims
  now : ℤ
  request : Request
  occasion : Occasion

/-- What the service's strategy is handed: the claims of a token that verifies. -/
def TokenVisit.payload (d : Deployment) (v : TokenVisit) : Option JwtPayload :=
  (v.token.verify d.users.internalJwtSecret v.now).map payloadOf

def TokenVisit.serve (d : Deployment) (v : TokenVisit) (w : World) :
    World × Except HttpError Answer :=
  w.serve uuidColumn isUuid rank (v.payload d) v.request v.occasion

/-- The orders that a visit shows, creates or changes are those of its user. -/
structure TokenVisit.Own (d : Deployment) (w : World) (v : TokenVisit) : Prop where
  shown : Shows (fun c => uuidColumn v.userId = some c)
    (v.serve uuidColumn isUuid rank d w).1 (v.serve uuidColumn isUuid rank d w).2
  kept : ∀ id, w.db.SameOrder (v.serve uuidColumn isUuid rank d w).1.db id ∨
    w.db.OrderOf (fun c => uuidColumn v.userId = some c)
      (v.serve uuidColumn isUuid rank d w).1.db id

variable {uuidColumn isUuid rank} {w : World} {v : TokenVisit}

theorem user_of_payload {user : CurrentUser} (h : NamesCustomer v.userId v.token.claims)
    (hu : OrderService.validate (v.payload d) = .ok user) :
    user.sub = v.userId ∧ (user.roles = none ∨ user.roles = some ["customer"]) := by
  cases hv : v.token.verify d.users.internalJwtSecret v.now with
  | none =>
    simp only [TokenVisit.payload, hv, Option.map_none, OrderService.validate] at hu
    cases hu
  | some claims =>
    obtain ⟨-, rfl⟩ := Token.verify_eq_some.1 hv
    simp only [TokenVisit.payload, hv, Option.map_some] at hu
    refine ⟨?_, roles_of_validate hu ▸ h.roles⟩
    simp only [OrderService.validate, payloadOf, h.sub] at hu
    split at hu
    · cases hu
    · cases hu
      rfl

theorem TokenVisit.own (hw : w.Keyed uuidColumn) (h : NamesCustomer v.userId v.token.claims) :
    v.Own uuidColumn isUuid rank d w := by
  have hrefused : ∀ e : HttpError, v.serve uuidColumn isUuid rank d w = (w, .error e) →
      v.Own uuidColumn isUuid rank d w := by
    intro e he
    constructor
    · rw [he]
      exact .error e
    · intro id
      rw [he]
      exact Or.inl ⟨rfl, rfl, rfl⟩
  cases hu : OrderService.validate (v.payload d) with
  | error e => exact hrefused e (by simp only [TokenVisit.serve, World.serve, hu])
  | ok user =>
    obtain ⟨hsub, hroles⟩ := user_of_payload h hu
    cases hr : OrderService.canActivate v.request.requiredRoles user with
    | error e => exact hrefused e (by simp only [TokenVisit.serve, World.serve, hu, hr])
    | ok =>
      rcases hroles with hn | hc
      · cases (canActivate_no_roles hn v.request).symm.trans hr
      · have hscope : Scope (user.Is uuidColumn) uuidColumn rank w user v.request :=
          scope_of_customer hw hu hr (by simp [hc]) (by simp [hc])
        obtain ⟨he, hs⟩ := @handleRequest_effect _ uuidColumn isUuid rank w user v.occasion
          v.request hw hscope
        have his : user.Is uuidColumn = fun c => uuidColumn v.userId = some c := by
          funext c
          rw [CurrentUser.Is, hsub]
        rw [his] at he hs
        constructor
        · simp only [TokenVisit.serve, World.serve, hu, hr]
          exact hs.mapError _
        · simp only [TokenVisit.serve, World.serve, hu, hr]
          exact he.frame hw

/--
Over every run of requests made with issued credentials, whoever makes them and by whichever
way, each request shows, creates and changes orders of its own user only.
-/
theorem visits_isolated (d : Deployment) (expiresIn : ℤ) (uuidColumn : String → Option String)
    (hc : ∀ text c, uuidColumn text = some c → uuidColumn c = some c) (isUuid : String → Bool)
    (rank : Uuid → ℕ) (visits : List TokenVisit)
    (hv : ∀ v ∈ visits, Issued d expiresIn v.userId v.token) :
    AllSteps (fun w v => some (TokenVisit.serve uuidColumn isUuid rank d v w).1)
      (fun w v => v.Own uuidColumn isUuid rank d w) .empty visits := by
  have hempty : World.empty.Keyed uuidColumn := by constructor <;> simp [World.empty]
  refine AllSteps.of_invariant (I := World.Keyed uuidColumn)
    (C := fun _ v => Issued d expiresIn v.userId v.token) ?_ ?_ hempty
    (allSteps_of_forall fun v hm _ => hv v hm)
  · intro w v w' hw _ hstep
    cases hstep
    exact hw.serve hc
  · intro w v hw hi
    exact TokenVisit.own hw hi.claims

/-- The column keeps the texts of thirty-six characters that are in lower case already. -/
def lowerColumn (text : String) : Option String := if text.length = 36 then some text else none

theorem lowerColumn_idem (text c : String) (h : lowerColumn text = some c) :
    lowerColumn c = some c := by
  unfold lowerColumn at h
  split at h
  · cases h
    exact if_pos ‹_›
  · cases h

def shopper : User := ⟨"0a1b2c3d-0000-4000-8000-00000000000a", true⟩

/-- The shopper orders through the gateway, with a body that names another customer. -/
def shopperVisit : TokenVisit where
  userId := shopper.id
  token := separate.exchanged 300 shopper 0
  now := 0
  request := .createOrder OrderService.othersBody none
  occasion := OrderService.sampleOccasion

theorem shopperVisit_isolated :
    AllSteps (fun w v => some (TokenVisit.serve lowerColumn (fun _ => false) id separate v w).1)
      (fun w v => v.Own lowerColumn (fun _ => false) id separate w) .empty [shopperVisit] :=
  visits_isolated separate 300 lowerColumn lowerColumn_idem (fun _ => false) id [shopperVisit]
    (List.forall_mem_singleton.2 (Deployment.InService.issued_exchanged
      ⟨by decide, by decide, by decide⟩ (by decide)))

example : ((shopperVisit.serve lowerColumn (fun _ => false) id separate .empty).1.db.orders.map
    OrderService.Order.customerUserId) = ["0a1b2c3d-0000-4000-8000-00000000000a"] := by
  decide +kernel

end Orders

end Access
