import OrderPlatform.PaymentService.RefundPolicy

/-! # Reading one payment

The policy compares the caller with the customer of the payment, and it is the handler that
tells it who the customer is. The guard comes before the handler, so it compares the caller
with nobody.
-/

namespace PaymentService

open Store Wire

/-- `PaymentsController.findOne`: the request with its resource attached, and the payment. -/
def PaymentsController.findOne (w : World) (id : Uuid) (request : TypedRequest) :
    TypedRequest × Except Thrown Payment :=
  match w.db.findPayment id with
  | none => (request, .error (paymentNotFound id))
  | some payment =>
    ({ request with policyResource := some { customerUserId := some payment.customerUserId } },
      .ok payment)

/-- `GET /payments/:id`: the guard first, then the handler. -/
def getPayment (config : RefundConfig) (w : World) (user : Option AuthSubject) (id : Uuid)
    (correlationId : Option String) : Except Thrown Payment :=
  let request : TypedRequest := { user := user, id := some id, correlationId := correlationId }
  match canActivate config (some "payment:view") request with
  | .error e => .error e
  | .ok () => (PaymentsController.findOne w id request).2

variable {config : RefundConfig} {w : World} {user : AuthSubject} {payment : Payment} {id : Uuid}
  {correlationId : Option String}

theorem evaluateView_customer {resource : PolicyResource} (hrole : user.role = .customer)
    (hservice : user.isServiceAccount = false) :
    (evaluateView user resource).allowed = true ↔ resource.customerUserId = some user.sub := by
  have hne : user.role ≠ .admin := by simp [hrole]
  rw [evaluateView, if_neg hne, hservice, if_neg Bool.false_ne_true, if_pos hrole]
  split
  · exact iff_of_true rfl ‹_›
  · exact iff_of_false Bool.false_ne_true ‹_›

/-- Past the guard, a customer's request would be decided by what it has attached. -/
theorem canActivate_customer {request : TypedRequest} (huser : request.user = some user)
    (hrole : user.role = .customer) (hservice : user.isServiceAccount = false) :
    canActivate config (some "payment:view") request = .ok () ↔
      (request.policyResource.getD {}).customerUserId = some user.sub := by
  rw [← @evaluateView_customer user
    { request.policyResource.getD {} with
      paymentId := request.id.or (request.policyResource.getD {}).paymentId } hrole hservice]
  simp only [canActivate, huser, evaluate]
  split
  · exact iff_of_true rfl ‹_›
  · exact iff_of_false (by simp) ‹_›

/-- No resource is attached yet when the guard runs. -/
theorem getPayment_customer (hrole : user.role = .customer)
    (hservice : user.isServiceAccount = false) :
    getPayment config w (some user) id correlationId ≠ .ok payment := by
  intro h
  unfold getPayment at h
  dsimp only at h
  split at h
  · cases h
  · rename_i hguard
    have hattached := (canActivate_customer rfl hrole hservice).mp hguard
    simp at hattached

/--
A customer sees a payment exactly when it is theirs, exactly for the payments that are not:
the request for one's own payment is refused like any other.
-/
theorem customer_view_iff (config : RefundConfig) (w : World) (user : AuthSubject) (id : Uuid)
    (payment : Payment) (correlationId : Option String) (_ : w.db.findPayment id = some payment)
    (hrole : user.role = .customer) (hservice : user.isServiceAccount = false) :
    (getPayment config w (some user) id correlationId = .ok payment ↔
        payment.customerUserId = user.sub) ↔ payment.customerUserId ≠ user.sub := by
  have hdenied : getPayment config w (some user) id correlationId ≠ .ok payment :=
    getPayment_customer hrole hservice
  simp [hdenied]

def owner : AuthSubject := ⟨"user-1", .customer, none, false⟩

/-- The customer who was charged may not see the payment. -/
theorem owner_denied :
    ¬ ∀ (config : RefundConfig) (w : World) (user : AuthSubject) (id : Uuid) (payment : Payment)
      (correlationId : Option String), w.db.findPayment id = some payment →
      user.role = .customer → user.isServiceAccount = false →
      (getPayment config w (some user) id correlationId = .ok payment ↔
        payment.customerUserId = user.sub) := by
  intro h
  obtain ⟨payment, hp, hcustomer⟩ : ∃ payment, bigCharge.db.findPayment 0 = some payment ∧
    payment.customerUserId = owner.sub := ⟨_, rfl, rfl⟩
  have hview := (h limit500 bigCharge owner 0 payment none hp rfl rfl).mpr hcustomer
  exact getPayment_customer rfl rfl hview

theorem stranger_view :
    ∃ payment, bigCharge.db.findPayment 0 = some payment ∧
      ((getPayment limit500 bigCharge (some { owner with sub := "user-2" }) 0 none = .ok payment ↔
        payment.customerUserId = "user-2") ↔ payment.customerUserId ≠ "user-2") := by
  obtain ⟨payment, hp⟩ := bigCharge_found
  exact ⟨payment, hp,
    customer_view_iff limit500 bigCharge { owner with sub := "user-2" } 0 payment none hp rfl rfl⟩

end PaymentService
