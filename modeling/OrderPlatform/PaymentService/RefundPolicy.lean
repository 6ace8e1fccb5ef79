import Mathlib.Tactic.NormNum
import OrderPlatform.PaymentService.Charge
import OrderPlatform.PaymentService.Refund
import OrderPlatform.Wire.Dtos

/-! # The refund endpoint and its approval limit

The guard evaluates the policy before the handler runs; the handler attaches the amount
of the refund to the request afterwards. Between the two the pipe refuses every body with a
member of its own, as the class of the body is imported as a type. What is left is a request
for the whole of what remains, and the limit plays no part in it.
-/

namespace PaymentService

open Runs Store Wire

inductive AuthRole
  | customer | staff | admin | service
  deriving DecidableEq, Repr

structure AuthSubject where
  sub : String
  role : AuthRole
  region : Option String
  isServiceAccount : Bool
  deriving DecidableEq, Repr

/-- The attributes of the resource a request is about, as far as they are attached. -/
structure PolicyResource where
  customerUserId : Option String := none
  region : Option String := none
  refundAmount : Option ℚ := none
  paymentId : Option Uuid := none
  deriving DecidableEq, Repr

structure RefundConfig where
  approvalLimit : ℚ
  allowSingleApprover : Bool

structure PolicyDecision where
  allowed : Bool
  reason : Option String := none
  deriving DecidableEq, Repr

def PolicyDecision.deny (reason : String) : PolicyDecision := ⟨false, some reason⟩

def evaluateView (subject : AuthSubject) (resource : PolicyResource) : PolicyDecision :=
  if subject.role = .admin then ⟨true, none⟩
  else if subject.isServiceAccount then ⟨true, none⟩
  else if subject.role = .customer then
    if resource.customerUserId = some subject.sub then ⟨true, none⟩
    else .deny "Customers can only view their own payments"
  else if subject.role = .staff then
    match subject.region with
    | none => .deny "Support agent has no region assigned"
    | some region =>
      if region = "" then .deny "Support agent has no region assigned"
      else if resource.region = some region then ⟨true, none⟩
      else .deny ("Support agent can only view payments in region \"" ++ region ++ "\"")
  else .deny "Insufficient privileges"

def evaluateCreate (subject : AuthSubject) : PolicyDecision :=
  if subject.role = .admin ∨ subject.isServiceAccount then ⟨true, none⟩
  else .deny "Only admin or service accounts can create payments"

def evaluateRefund (config : RefundConfig) (subject : AuthSubject) (resource : PolicyResource) :
    PolicyDecision :=
  let refundAmount := resource.refundAmount.getD 0
  let needsApproval : Bool := refundAmount ≥ config.approvalLimit
  if subject.role = .admin then ⟨true, none⟩
  else if subject.isServiceAccount then ⟨true, none⟩
  else if subject.role = .staff then
    if !needsApproval || config.allowSingleApprover then ⟨true, none⟩
    else .deny ("Refund of " ++ numberText refundAmount ++ " exceeds limit "
      ++ numberText config.approvalLimit ++ "; requires admin approval")
  else if subject.role = .customer then .deny "Customers cannot request refunds directly"
  else .deny "Insufficient privileges for refund"

def evaluateList (subject : AuthSubject) : PolicyDecision :=
  if subject.role ∈ [.admin, .staff, .customer] ∨ subject.isServiceAccount then ⟨true, none⟩
  else .deny "Unknown role"

/-- `PolicyService.evaluate`. -/
def evaluate (config : RefundConfig) (action : String) (subject : AuthSubject)
    (resource : PolicyResource) : PolicyDecision :=
  match action with
  | "payment:view" => evaluateView subject resource
  | "payment:create" => evaluateCreate subject
  | "payment:refund" => evaluateRefund config subject resource
  | "payment:list" => evaluateList subject
  | _ => .deny ("Unknown action: " ++ action)

/-- The parts of an HTTP request that the guard and the handler read and write. -/
structure TypedRequest where
  user : Option AuthSubject
  id : Option Uuid
  correlationId : Option String
  policyResource : Option PolicyResource := none

/-- `PolicyGuard.canActivate`, given the action the handler is decorated with. -/
def canActivate (config : RefundConfig) (metadata : Option String) (request : TypedRequest) :
    Except Thrown Unit :=
  match metadata with
  | none => .ok ()
  | some action =>
    match request.user with
    | none => .error (.forbidden "No authenticated user")
    | some user =>
      let attached := request.policyResource.getD {}
      let resource := { attached with paymentId := request.id.or attached.paymentId }
      let decision := evaluate config action user resource
      if decision.allowed then .ok ()
      else .error (.forbidden (orDefault decision.reason "Access denied by policy"))

structure RefundPaymentDto where
  amount : Option ℚ
  reason : Option String

/-- `PaymentsController.refund`: the request with its resource attached, and the response. -/
def PaymentsController.refund (w : World) (id : Uuid) (dto : RefundPaymentDto)
    (request : TypedRequest) (env : Env) :
    TypedRequest × World × Except Thrown (Option Payment) :=
  match w.db.findPayment id with
  | none => (request, w, .error (paymentNotFound id))
  | some payment =>
    let refundAmount := dto.amount.getD payment.available
    ({ request with policyResource := some {
        customerUserId := some payment.customerUserId
        refundAmount := some refundAmount } },
      requestRefund w
        ⟨id, dto.amount, dto.reason, request.correlationId.filter fun c => c ≠ ""⟩ env)

/-- What the handler reads of the function the pipe makes of a body: neither member is there. -/
def RefundPaymentDto.untyped : RefundPaymentDto := ⟨none, none⟩

/-- `POST /payments/:id/refund`: the guard, then the pipe on the body, then the handler. -/
def postRefund (config : RefundConfig) (w : World) (user : Option AuthSubject) (id : Uuid)
    (correlationId : Option String) (body : Option Json) (env : Env) :
    World × Except Thrown (Option Payment) :=
  let request : TypedRequest := { user := user, id := some id, correlationId := correlationId }
  match canActivate config (some "payment:refund") request with
  | .error e => (w, .error e)
  | .ok () =>
    match acceptUntyped body with
    | .error e => (w, .error e)
    | .ok () => (PaymentsController.refund w id .untyped request env).2

/-- The refund a body asks for: its amount, or what remains of the payment. -/
def requestedAmount (payment : Payment) (body : Option Json) : ℚ :=
  (body.bind fun j => (j.numberMember "amount").join).getD payment.available

/-- The request fails and leaves no refund, payment, ledger or outbox change behind. -/
structure Refused (w : World) (r : World × Except Thrown (Option Payment)) : Prop where
  error : ∃ e, r.2 = .error e
  db : r.1.db = w.db
  refunds : (r.1.refunds.filter fun f => f.result.success) =
    w.refunds.filter fun f => f.result.success

/-- The refund's own checks on the row, or the provider, turn it down. -/
def TurnedDown (payment : Payment) (amount : ℚ) (env : Env) : Prop :=
  (payment.status ≠ .processed ∧ payment.status ≠ .partiallyRefunded) ∨
    payment.available < amount ∨ (∃ e, payment.transactionId = .error e) ∨
    env.result.success = false

variable {config : RefundConfig} {w : World} {user : AuthSubject} {payment : Payment}
  {params : RefundParams} {env : Env}

/-- No amount is attached to the request yet, so the guard lets every staff user pass. -/
theorem canActivate_staff {request : TypedRequest} (hlimit : 0 < config.approvalLimit)
    (huser : request.user = some user) (hrole : user.role = .staff)
    (hresource : request.policyResource = none) :
    canActivate config (some "payment:refund") request = .ok () := by
  have hneeds : ¬ (0 : ℚ) ≥ config.approvalLimit := not_le.mpr hlimit
  simp [canActivate, huser, hresource, evaluate, evaluateRefund, hrole, hneeds]

theorem postRefund_staff {id : Uuid} {correlationId : Option String} {body : Option Json}
    (hlimit : 0 < config.approvalLimit) (hrole : user.role = .staff)
    (hp : w.db.findPayment id = some payment) (hbody : Blank body) :
    postRefund config w (some user) id correlationId body env =
      requestRefund w ⟨id, none, none, correlationId.filter fun c => c ≠ ""⟩ env := by
  have hguard : canActivate config (some "payment:refund")
      ⟨some user, some id, correlationId, none⟩ = .ok () := canActivate_staff hlimit rfl hrole rfl
  simp [postRefund, hguard, acceptUntyped_eq_ok.mpr hbody, PaymentsController.refund, hp,
    RefundPaymentDto.untyped]

/-- A body that the pipe admits names no amount. -/
theorem requestedAmount_of_blank {body : Option Json} (h : Blank body) :
    requestedAmount payment body = payment.available := by
  cases body with
  | none => rfl
  | some j =>
    cases j with
    | null => rfl
    | obj fields =>
      have hnone : fields.find? (fun f => f.1 = "amount") = none := by
        rw [List.find?_eq_none]
        intro f hf he
        have hname : f.1 = "amount" := of_decide_eq_true he
        exact absurd (hname ▸ h f hf) (by decide)
      simp [requestedAmount, Json.numberMember, Json.member, hnone, present]
    | bool | num | str | arr => exact h.elim

theorem Refused.of_error {e : Thrown} : Refused w (w, .error e) := ⟨⟨e, rfl⟩, rfl, rfl⟩

/-- A refund that its checks and the provider admit reaches the provider and succeeds there. -/
theorem requestRefund_refunds (hp : w.db.findPayment params.paymentId = some payment)
    (hpos : 0 < params.amount.getD payment.available)
    (h : ¬ TurnedDown payment (params.amount.getD payment.available) env) :
    ∃ call, call.result.success = true ∧
      (requestRefund w params env).1.refunds = w.refunds ++ [call] := by
  unfold TurnedDown at h
  push Not at h
  obtain ⟨hstatus, hle, htx, hsuccess⟩ := h
  obtain ⟨t, ht⟩ : ∃ t, payment.transactionId = .ok t := by
    cases hc : payment.transactionId with
    | ok t => exact ⟨t, rfl⟩
    | error e => exact absurd hc (htx e)
  have hamount := refundAmount_eq_ok hpos (or_iff_not_imp_left.mpr hstatus) hle
  have hadmits : w.admitRefund params =
      .ok (params.execute (params.amount.getD payment.available)) := by
    simp [World.admitRefund, hp, hamount, Except.map]
  have hattempt : ∃ a, w.refundAttempt (params.execute (params.amount.getD payment.available)) =
      .ok a := by
    simp [World.refundAttempt, RefundParams.execute, hp, ht, Except.map]
  obtain ⟨a, ha⟩ := hattempt
  refine ⟨a.providerCall env.now env.result, ?_, ?_⟩
  · simpa [RefundAttempt.providerCall] using hsuccess
  · simp [requestRefund, hadmits, executeRefund, ha, World.refunded]

theorem refused_of_turnedDown (hp : w.db.findPayment params.paymentId = some payment)
    (h : TurnedDown payment (params.amount.getD payment.available) env) :
    Refused w (requestRefund w params env) := by
  unfold requestRefund
  cases hadmits : w.admitRefund params with
  | error e => exact .of_error
  | ok p =>
    obtain ⟨row, a, hrow, hamount, rfl⟩ := World.admitRefund_ok hadmits
    obtain rfl : payment = row := Option.some.inj (hp.symm.trans hrow)
    obtain ⟨rfl, -, hle, hstatus⟩ := refundAmount_ok hamount
    dsimp only
    unfold executeRefund
    cases hattempt : w.refundAttempt (params.execute _) with
    | error e => exact .of_error
    | ok a =>
      obtain ⟨hfind, -, htx⟩ := World.refundAttempt_ok hattempt
      obtain rfl : payment = a.payment := Option.some.inj (hp.symm.trans hfind)
      have hdeclined : env.result.success = false := by
        rcases h with hs | hs | ⟨e, he⟩ | hs
        · tauto
        · exact absurd hle (not_le.mpr hs)
        · rw [he] at htx; cases htx
        · exact hs
      constructor
      · simp [RefundDraft.record, hdeclined]
      · simp [World.refunded, RefundDraft.record, hdeclined]
      · simp [World.refunded, RefundAttempt.providerCall, hdeclined]

def limit500 : RefundConfig := ⟨500, false⟩

def agent : AuthSubject := ⟨"agent-1", .staff, none, false⟩

/-- One payment of 1000, processed by the provider. -/
def bigCharge : World := (charge .empty { sampleCharge with amount := some 1000 } approved.env).1

theorem bigCharge_found : ∃ payment, bigCharge.db.findPayment 0 = some payment :=
  Option.isSome_iff_exists.mp (by decide +kernel)

theorem bigCharge_available {payment : Payment} (h : bigCharge.db.findPayment 0 = some payment) :
    payment.available = 1000 := by
  have hall : ∀ p ∈ bigCharge.db.findPayment 0, p.available = 1000 := by decide +kernel
  exact hall payment h

end PaymentService
