import OrderPlatform.Access.Tokens
import OrderPlatform.OrderService.Controller
import OrderPlatform.PaymentService.RefundPolicy
import OrderPlatform.UserService.Auth

/-! # Refresh tokens at the guards

Every service verifies a bearer token against a secret of its own and reads other claims of
it. A refresh token names its bearer and no role, so every guard that asks for a role refuses
it, whatever the secrets; the guard of `GET /users/me` asks for none.
-/

namespace ApiGateway

open Access
open UserService (Claims)

inductive Route
  | health | ready | getProducts | getProductById | getMe | createOrder | getOrderById
  deriving DecidableEq, Repr

def Route.isPublic : Route → Bool
  | .health => true
  | .ready => true
  | _ => false

structure GatewayUser where
  userId : String
  role : String
  deriving DecidableEq, Repr

/-- `JwtStrategy.validate`. -/
def validate (payload : Claims) : Except Refusal GatewayUser :=
  match payload.sub.filter (· ≠ ""), payload.role.filter (· ≠ "") with
  | some sub, some role => .ok ⟨sub, role⟩
  | _, _ => .error (.unauthorized "Invalid token payload")

/--
The guards that the bootstrap adds, after the throttler's. No handler is decorated with roles, so
`RolesGuard` lets a request by.
-/
def guards (jwtSecret : String) (route : Route) (token : Option (Token Claims)) (now : ℤ) :
    Except Refusal (Option GatewayUser) :=
  if route.isPublic then .ok none
  else (bearer jwtSecret validate token now).map some

end ApiGateway

namespace ProductService

open Access
open UserService (Claims)

inductive Route
  | list | findOne | create | update | findPrice | checkExistence | health | ready
  deriving DecidableEq, Repr

def Route.isPublic : Route → Bool
  | .create => false
  | .update => false
  | _ => true

def Route.requiredRoles : Route → List String
  | .create => ["admin"]
  | .update => ["admin"]
  | _ => []

structure CurrentUser where
  userId : Option String
  roles : List String
  deriving DecidableEq, Repr

/-- `InternalJwtStrategy.validate`. -/
def validate (payload : Claims) : Except Refusal CurrentUser :=
  .ok ⟨payload.sub, payload.roles.getD []⟩

/-- `RolesGuard.canActivate`. -/
def canActivate : List String → Option (List String) → Except Refusal Unit :=
  requireRole "Insufficient permissions" "Insufficient permissions"

def guards (secret : String) (route : Route) (token : Option (Token Claims)) (now : ℤ) :
    Except Refusal (Option CurrentUser) :=
  let user :=
    if route.isPublic then .ok none else (bearer secret validate token now).map some
  match user with
  | .error e => .error e
  | .ok user => (canActivate route.requiredRoles (user.map CurrentUser.roles)).map fun _ => user

end ProductService

namespace NotificationService

open Access
open UserService (Claims)

inductive Route
  | findAll | findOne | create
  deriving DecidableEq, Repr

def Route.requiredRoles : Route → List String
  | .findAll => ["staff", "admin"]
  | .findOne => ["staff", "admin"]
  | .create => ["staff", "admin"]

structure CurrentUser where
  id : Option String
  roles : List String
  deriving DecidableEq, Repr

/-- `JwtStrategy.validate`. -/
def validate (payload : Claims) : Except Refusal CurrentUser :=
  .ok ⟨payload.sub, payload.roles.getD []⟩

/-- `RolesGuard.canActivate`. -/
def canActivate : List String → Option (List String) → Except Refusal Unit :=
  requireRole "No roles found on request user" "User does not have required role(s)"

def guards (secret : String) (route : Route) (token : Option (Token Claims)) (now : ℤ) :
    Except Refusal CurrentUser :=
  match bearer secret validate token now with
  | .error e => .error e
  | .ok user => (canActivate route.requiredRoles (some user.roles)).map fun _ => user

end NotificationService

namespace PaymentService

open Access Wire
open UserService (Claims)

inductive Route
  | charge | findOne (id : Uuid) | refund (id : Uuid) | findAll
  deriving DecidableEq, Repr

/-- The policy a handler is decorated with. -/
def Route.policy : Route → String
  | .charge => "payment:create"
  | .findOne _ => "payment:view"
  | .refund _ => "payment:refund"
  | .findAll => "payment:list"

def Route.id : Route → Option Uuid
  | .findOne id => some id
  | .refund id => some id
  | _ => none

/-- The role a payload names; the policies never ask for a role beyond the first three. -/
def AuthRole.ofText : String → AuthRole
  | "customer" => .customer
  | "staff" => .staff
  | "admin" => .admin
  | _ => .service

/-- `JwtStrategy.validate`. -/
def validate (payload : Claims) : Except Refusal AuthSubject :=
  match payload.sub.filter (· ≠ ""), payload.role.filter (· ≠ "") with
  | some sub, some role =>
    .ok ⟨sub, .ofText role, payload.region, payload.isServiceAccount.getD false⟩
  | _, _ => .error (.unauthorized "Invalid token payload")

/-- Both guards of a request; the strategy and the policy refuse each in their own terms. -/
def guards (config : RefundConfig) (secret : String) (route : Route)
    (token : Option (Token Claims)) (now : ℤ) : Except (Refusal ⊕ Thrown) AuthSubject :=
  match bearer secret validate token now with
  | .error e => .error (.inl e)
  | .ok user =>
    match canActivate config (some route.policy)
        { user := some user, id := route.id, correlationId := none } with
    | .error e => .error (.inr e)
    | .ok () => .ok user

end PaymentService

namespace OrderService

open Access Wire
open UserService (Claims)

/-- The claims `InternalJwtStrategy.validate` reads. -/
def payloadOf (payload : Claims) : JwtPayload := ⟨payload.sub, payload.roles⟩

def guards (secret : String) (request : Request) (token : Option (Token Claims)) (now : ℤ) :
    Except HttpError CurrentUser :=
  match validate ((token.bind fun t => t.verify secret now).map payloadOf) with
  | .error e => .error e
  | .ok user => (canActivate request.requiredRoles user).map fun _ => user

theorem roles_of_validate {payload : JwtPayload} {user : CurrentUser}
    (h : validate (some payload) = .ok user) : user.roles = payload.roles := by
  rw [validate] at h
  split at h
  · cases h
  · split at h
    · cases h
    · cases h
      rfl

/-- Every request names roles, and a caller without any is told so. -/
theorem canActivate_no_roles {user : CurrentUser} (h : user.roles = none) (request : Request) :
    canActivate request.requiredRoles user = .error (.threw (.forbidden ("Required roles: " ++
      String.intercalate ", " request.requiredRoles ++ ". Your roles: "))) := by
  have hne : request.requiredRoles ≠ [] := by cases request <;> exact List.cons_ne_nil _ _
  have hany : request.requiredRoles.any (· ∈ ([] : List String)) = false :=
    List.any_eq_false.2 fun role _ => by simp
  simp only [canActivate, h, Option.getD_none]
  rw [if_neg hne, if_neg List.not_mem_nil, if_neg (Bool.eq_false_iff.1 hany),
    String.intercalate_nil, String.append_empty]

variable {uuidColumn : String → Option String} {isUuid : String → Bool} {rank : Uuid → ℕ}

/-- What the guards refuse changes nothing: `serve` answers with their error. -/
theorem serve_of_guards {secret : String} {request : Request} {token : Option (Token Claims)}
    {now : ℤ} {e : HttpError} (h : guards secret request token now = .error e) (w : World)
    (x : Occasion) :
    w.serve uuidColumn isUuid rank ((token.bind fun t => t.verify secret now).map payloadOf)
      request x = (w, .error e) := by
  rw [guards] at h
  rw [World.serve]
  cases hu : validate ((token.bind fun t => t.verify secret now).map payloadOf) with
  | error e' =>
    rw [hu] at h
    simp only [Except.error.inj h]
  | ok user =>
    rw [hu] at h
    dsimp only at h ⊢
    cases hr : canActivate request.requiredRoles user with
    | error e' =>
      rw [hr] at h
      simp only [Except.error.inj h]
    | ok =>
      rw [hr] at h
      cases h

end OrderService

namespace Access

open UserService (Claims User Config canActivate_isOk_iff)

/-- The settings of the services as deployed; the services share the internal secret. -/
structure Deployment where
  users : Config
  /-- `JWT_SECRET` of the gateway. -/
  gatewaySecret : String
  refunds : PaymentService.RefundConfig

/-- The routes behind the guards of the platform. -/
inductive Route
  | gateway (route : ApiGateway.Route)
  | getMe
  | orders (request : OrderService.Request)
  | products (route : ProductService.Route)
  | payments (route : PaymentService.Route)
  | notifications (route : NotificationService.Route)

def Route.isPublic : Route → Bool
  | .gateway route => route.isPublic
  | .products route => route.isPublic
  | _ => false

/-- The guards of a route let a request with this bearer token through. -/
def Route.grants (d : Deployment) (token : Option (Token Claims)) (now : ℤ) : Route → Bool
  | .gateway route => (ApiGateway.guards d.gatewaySecret route token now).isOk
  | .getMe => (d.users.canActivate token now).isOk
  | .orders request => (OrderService.guards d.users.internalJwtSecret request token now).isOk
  | .products route => (ProductService.guards d.users.internalJwtSecret route token now).isOk
  | .payments route =>
    (PaymentService.guards d.refunds d.users.internalJwtSecret route token now).isOk
  | .notifications route =>
    (NotificationService.guards d.users.internalJwtSecret route token now).isOk

variable {d : Deployment} {token : Token Claims} {now : ℤ}

section NoRole

variable (hrole : token.claims.role = none) (hroles : token.claims.roles = none)

include hrole in
/-- The gateway refuses a token that names no role. -/
theorem gateway_refuses {route : ApiGateway.Route} (hp : route.isPublic = false) :
    (Route.gateway route).grants d (some token) now = false := by
  have hv : ApiGateway.validate token.claims = .error (.unauthorized "Invalid token payload") := by
    rw [ApiGateway.validate, hrole]
    cases token.claims.sub.filter (· ≠ "") <;> rfl
  obtain ⟨e, he⟩ := @bearer_of_error _ _ d.gatewaySecret _ token _ hv now
  rw [Route.grants, ApiGateway.guards, hp, he]
  rfl

include hrole in
theorem payments_refuses (route : PaymentService.Route) :
    (Route.payments route).grants d (some token) now = false := by
  have hv : PaymentService.validate token.claims =
      .error (.unauthorized "Invalid token payload") := by
    rw [PaymentService.validate, hrole]
    cases token.claims.sub.filter (· ≠ "") <;> rfl
  obtain ⟨e, he⟩ := @bearer_of_error _ _ d.users.internalJwtSecret _ token _ hv now
  rw [Route.grants, PaymentService.guards, he]
  rfl

include hroles in
theorem products_refuses {route : ProductService.Route} (hp : route.isPublic = false) :
    (Route.products route).grants d (some token) now = false := by
  have hv : ProductService.validate token.claims = .ok ⟨token.claims.sub, []⟩ := by
    rw [ProductService.validate, hroles, Option.getD_none]
  have hne : route.requiredRoles ≠ [] := by
    cases route <;> first | exact List.cons_ne_nil _ _ | cases hp
  rw [Route.grants, ProductService.guards, hp]
  rcases bearer_cases d.users.internalJwtSecret ProductService.validate token now with h | h
  · rw [h]; rfl
  · rw [h, hv]
    simp only [Bool.false_eq_true, if_false, Except.map, Option.map_some,
      ProductService.canActivate, requireRole_nil hne]
    rfl

include hroles in
theorem notifications_refuses (route : NotificationService.Route) :
    (Route.notifications route).grants d (some token) now = false := by
  have hv : NotificationService.validate token.claims = .ok ⟨token.claims.sub, []⟩ := by
    rw [NotificationService.validate, hroles, Option.getD_none]
  have hne : route.requiredRoles ≠ [] := by cases route <;> exact List.cons_ne_nil _ _
  rw [Route.grants, NotificationService.guards]
  rcases bearer_cases d.users.internalJwtSecret NotificationService.validate token now with h | h
  · rw [h]; rfl
  · rw [h, hv]
    simp only [NotificationService.canActivate, requireRole_nil hne]
    rfl

include hroles in
theorem orders_refuses (request : OrderService.Request) :
    (Route.orders request).grants d (some token) now = false := by
  rw [Route.grants, OrderService.guards, Option.bind_some]
  cases hc : token.verify d.users.internalJwtSecret now with
  | none => rfl
  | some claims =>
    rw [← (Token.verify_eq_some.1 hc).2, Option.map_some]
    cases hu : OrderService.validate (some (OrderService.payloadOf token.claims)) with
    | error e => rfl
    | ok user =>
      have hr : user.roles = none := (OrderService.roles_of_validate hu).trans hroles
      simp only [OrderService.canActivate_no_roles hr request, Except.map, Except.isOk,
        Except.toBool]

end NoRole

/-- What the guards make of a token without roles: only the user service's asks for none. -/
theorem grants_iff_getMe (hrole : token.claims.role = none) (hroles : token.claims.roles = none)
    {route : Route} (hp : route.isPublic = false) :
    route.grants d (some token) now = true ↔
      route = .getMe ∧ token.secret = d.users.internalJwtSecret ∧ now < token.expiresAt := by
  cases route with
  | gateway route => simp [gateway_refuses hrole hp]
  | getMe => simp only [Route.grants, canActivate_isOk_iff, true_and]
  | orders request => simp [orders_refuses hroles request]
  | products route => simp [products_refuses hroles hp]
  | payments route => simp [payments_refuses hrole route]
  | notifications route => simp [notifications_refuses hroles route]

/-- The signing secret is not the services' own exactly when one of its own is set. -/
theorem signingSecret_ne_iff {config : Config} :
    config.signingSecret ≠ config.internalJwtSecret ↔
      ∃ secret, config.jwtSecret = some secret ∧ secret ≠ config.internalJwtSecret := by
  rw [Config.signingSecret]
  cases config.jwtSecret with
  | none => simp
  | some secret => simp

/-- A refresh token opens no guarded route exactly when a secret other than the services' own
signs it, or it has expired. -/
theorem refreshToken_refused_iff (d : Deployment) (user : User) (issuedAt now : ℤ) :
    (∀ route : Route, route.isPublic = false →
      route.grants d (some (d.users.issueTokenPair user issuedAt).refreshToken) now = false) ↔
    (∃ secret, d.users.jwtSecret = some secret ∧ secret ≠ d.users.internalJwtSecret) ∨
      issuedAt + d.users.refreshExpiresIn ≤ now := by
  rw [← signingSecret_ne_iff, ← Int.not_lt]
  have hiff (route : Route) (hp : route.isPublic = false) :=
    @grants_iff_getMe d (d.users.issueTokenPair user issuedAt).refreshToken now rfl rfl route hp
  constructor
  · intro h
    by_contra hc
    rw [not_or, not_not, not_not] at hc
    exact Bool.false_ne_true ((h .getMe rfl).symm.trans ((hiff .getMe rfl).2 ⟨rfl, hc⟩))
  · intro h route hp
    rw [Bool.eq_false_iff, Ne, hiff route hp]
    rintro ⟨-, hsecret, hnow⟩
    exact h.elim (· hsecret) (· hnow)

theorem fallback_length : 16 ≤ UserService.codeUnits "fallback-secret-key-change-me" := by decide

/-- A deployment that leaves the optional secret unset. -/
def fallback : Deployment where
  users := ⟨"fallback-secret-key-change-me", none, 900, 604800, fallback_length,
    UserService.unset_length⟩
  gatewaySecret := "gateway-secret-of-its-own"
  refunds := ⟨100, false⟩

/-- Without a secret of its own, an hour after login the refresh token reads the profile. -/
theorem refreshToken_reads_profile :
    ¬ ∀ (d : Deployment) (user : User) (issuedAt now : ℤ) (route : Route),
      route.isPublic = false →
      route.grants d (some (d.users.issueTokenPair user issuedAt).refreshToken) now = false :=
  fun h => absurd (h fallback ⟨"user-1", true⟩ 0 3600 .getMe rfl) (by decide)

/-- The access token of the same pair opens every route of the gateway. -/
theorem accessToken_opens_gateway {user : User} {issuedAt : ℤ} (hid : user.id ≠ "")
    (hsecret : d.gatewaySecret = d.users.signingSecret)
    (hnow : now < issuedAt + d.users.accessExpiresIn) (route : ApiGateway.Route) :
    (Route.gateway route).grants d (some (d.users.issueTokenPair user issuedAt).accessToken) now =
      true := by
  have hv : (d.users.issueTokenPair user issuedAt).accessToken.verify d.gatewaySecret now =
      some { sub := some user.id, role := some "customer", type := some "access" } :=
    Token.verify_eq_some.2 ⟨⟨hsecret.symm, hnow⟩, rfl⟩
  have hs : (some user.id).filter (· ≠ "") = some user.id := by simp [hid]
  rw [Route.grants, ApiGateway.guards]
  split
  · rfl
  · rw [bearer, Option.bind_some, hv]
    simp only [ApiGateway.validate, hs]
    rfl

end Access
