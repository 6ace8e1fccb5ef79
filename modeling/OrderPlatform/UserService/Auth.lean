import OrderPlatform.Access.Tokens

/-! # The tokens of the user service

A login issues an access token and a refresh token under one secret. Each says what type it
is of; the guard of the service's own route does not ask.
-/

namespace UserService

open Access

/-- What the tokens of the platform say of their bearer. -/
structure Claims where
  sub : Option String
  role : Option String := none
  roles : Option (List String) := none
  region : Option String := none
  isServiceAccount : Option Bool := none
  type : Option String := none
  deriving DecidableEq, Repr

/-- The length of a text as the schema counts it: some characters count twice. -/
def codeUnits (s : String) : ℕ := s.length + s.toList.countP fun c => 0x10000 ≤ c.toNat

/-- The settings the schema admits; lifetimes are in seconds. -/
structure Config where
  internalJwtSecret : String
  jwtSecret : Option String
  accessExpiresIn : ℤ
  refreshExpiresIn : ℤ
  internal_length : 16 ≤ codeUnits internalJwtSecret
  jwt_length : ∀ secret, jwtSecret = some secret → 16 ≤ codeUnits secret

theorem unset_length : ∀ secret, (none : Option String) = some secret → 16 ≤ codeUnits secret :=
  fun _ h => nomatch h

structure User where
  id : String
  isActive : Bool
  deriving DecidableEq, Repr

structure AuthTokenPair where
  accessToken : Token Claims
  refreshToken : Token Claims
  user : User
  deriving DecidableEq, Repr

namespace Config

variable (config : Config)

/-- `AuthApplicationService.signingSecret`. -/
def signingSecret : String := config.jwtSecret.getD config.internalJwtSecret

/-- `AuthApplicationService.issueTokenPair`. -/
def issueTokenPair (user : User) (issuedAt : ℤ) : AuthTokenPair where
  accessToken := .sign config.signingSecret
    { sub := some user.id, role := some "customer", type := some "access" }
    issuedAt config.accessExpiresIn
  refreshToken := .sign config.signingSecret { sub := some user.id, type := some "refresh" }
    issuedAt config.refreshExpiresIn
  user := user

/-- `JwtAuthGuard.canActivate`: the payload it attaches to the request. -/
def canActivate (token : Option (Token Claims)) (now : ℤ) : Except Refusal Claims :=
  match token with
  | none => .error (.unauthorized "Missing authorization token")
  | some token =>
    match token.verify config.internalJwtSecret now with
    | none => .error (.unauthorized "Invalid or expired token")
    | some payload => .ok payload

end Config

variable {config : Config} {token : Token Claims} {now : ℤ}

/-- The guard asks nothing of the claims. -/
theorem canActivate_isOk_iff : (config.canActivate (some token) now).isOk = true ↔
    token.secret = config.internalJwtSecret ∧ now < token.expiresAt := by
  cases hv : token.verify config.internalJwtSecret now with
  | none =>
    rw [Token.verify_eq_none] at hv
    simp only [Config.canActivate, Token.verify_eq_none.2 hv, Except.isOk, Except.toBool,
      Bool.false_eq_true, false_iff, not_and_or, Int.not_lt]
    exact hv
  | some claims =>
    simp only [Config.canActivate, hv, Except.isOk, Except.toBool, true_iff]
    exact (Token.verify_eq_some.1 hv).1

end UserService
