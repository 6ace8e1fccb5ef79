import Mathlib.Data.Int.Notation
import Mathlib.Data.List.Basic
import Mathlib.Order.Basic

/-! # Signed tokens and role checks

A token carries claims under a signature and an expiry. A verifier accepts it exactly when it
knows the secret and the token has not expired; what the claims then open is up to checks of
their own.
-/

namespace Access

/-- A token as its bearer presents it; times are in seconds. -/
structure Token (κ : Type*) where
  secret : String
  claims : κ
  expiresAt : ℤ
  deriving DecidableEq, Repr

/-- Why a guard turns a request down. -/
inductive Refusal
  | unauthorized (message : String)
  | forbidden (message : String)
  deriving DecidableEq, Repr

namespace Token

variable {κ : Type*}

def sign (secret : String) (claims : κ) (issuedAt expiresIn : ℤ) : Token κ :=
  ⟨secret, claims, issuedAt + expiresIn⟩

/-- Verification: the claims of a token signed with the secret that has not expired. -/
def verify (t : Token κ) (secret : String) (now : ℤ) : Option κ :=
  if t.secret = secret ∧ now < t.expiresAt then some t.claims else none

variable {t : Token κ} {secret : String} {now : ℤ} {claims : κ}

theorem verify_eq_some : t.verify secret now = some claims ↔
    (t.secret = secret ∧ now < t.expiresAt) ∧ t.claims = claims := by
  simp [verify]

theorem verify_eq_none : t.verify secret now = none ↔ t.secret ≠ secret ∨ t.expiresAt ≤ now := by
  rw [verify, ite_eq_right_iff, imp_iff_not (Option.some_ne_none _), not_and_or,
    Int.not_lt]

end Token

/-- A bearer strategy: the token is verified, and the service reads the claims its own way. -/
def bearer {κ υ : Type*} (secret : String) (validate : κ → Except Refusal υ)
    (token : Option (Token κ)) (now : ℤ) : Except Refusal υ :=
  match token.bind fun t => t.verify secret now with
  | none => .error (.unauthorized "Unauthorized")
  | some claims => validate claims

/-- A guard that asks for one of some roles, and lets anyone in when it asks for none. -/
def requireRole (absent lacking : String) (requiredRoles : List String)
    (roles : Option (List String)) : Except Refusal Unit :=
  if requiredRoles = [] then .ok ()
  else
    match roles with
    | none => .error (.forbidden absent)
    | some roles =>
      if requiredRoles.any (· ∈ roles) then .ok () else .error (.forbidden lacking)

/-- A strategy turns a token away before its claims are read, or lets the claims decide. -/
theorem bearer_cases {κ υ : Type*} (secret : String) (validate : κ → Except Refusal υ)
    (t : Token κ) (now : ℤ) :
    bearer secret validate (some t) now = .error (.unauthorized "Unauthorized") ∨
      bearer secret validate (some t) now = validate t.claims := by
  rw [bearer, Option.bind_some]
  cases hv : t.verify secret now with
  | none => exact .inl rfl
  | some claims => exact .inr (by rw [(Token.verify_eq_some.1 hv).2])

theorem bearer_of_error {κ υ : Type*} {secret : String} {validate : κ → Except Refusal υ}
    {t : Token κ} {e : Refusal} (h : validate t.claims = .error e) (now : ℤ) :
    ∃ e', bearer secret validate (some t) now = .error e' := by
  rcases bearer_cases secret validate t now with hb | hb
  · exact ⟨_, hb⟩
  · exact ⟨e, hb.trans h⟩

/-- A caller without roles does not get past a guard that asks for one. -/
theorem requireRole_nil {absent lacking : String} {requiredRoles : List String}
    (h : requiredRoles ≠ []) :
    requireRole absent lacking requiredRoles (some []) = .error (.forbidden lacking) := by
  simp [requireRole, h]

end Access
