import OrderPlatform.PaymentService.Atomicity
import OrderPlatform.PaymentService.Charge
import OrderPlatform.Store.Once

/-! # Retries of a refund

A refund whose provider call succeeded and whose transaction failed leaves no trace, so it
is attempted again. The provider performs every key once; the key of an attempt holds the
time of the attempt.
-/

namespace PaymentService

open Store Wire

/-- The refunds a provider has carried out that performs every idempotency key once. -/
def World.executed (w : World) : List ProviderRefund :=
  performed ProviderRefund.idempotencyKey (fun r => r.result.success) w.refunds

/-- The same refund attempted again and again. -/
def World.attempts (w : World) (params : ExecuteRefundParams) (envs : List Env) : World :=
  envs.foldl (fun w env => (executeRefund w params env).1) w

/-- Between the two states the provider has refunded the attempt's amount, once. -/
def RefundedOnce (w w' : World) (a : RefundAttempt) : Prop :=
  ∃ r, w'.executed = w.executed ++ [r] ∧ r.paymentId = a.payment.id ∧ r.amount = a.params.amount

/-- The provider has carried out no refund of the payment that was asked for at this time. -/
def World.UnrefundedAt (w : World) (id : Uuid) (now : ℕ) : Prop :=
  ∀ r ∈ w.executed, r.idempotencyKey ≠ "refund_" ++ toString id ++ "_" ++ toString now

instance (w : World) (id : Uuid) (now : ℕ) : Decidable (w.UnrefundedAt id now) :=
  inferInstanceAs (Decidable (∀ r ∈ w.executed, _))

variable {w : World} {params : ExecuteRefundParams} {a : RefundAttempt} {envs : List Env}

theorem providerCall_key_injective {now now' : ℕ} {r r' : ChargeResult}
    (h : (a.providerCall now r).idempotencyKey = (a.providerCall now' r').idempotencyKey) :
    now = now' := by
  simp only [RefundAttempt.providerCall] at h
  exact Uuid.text_injective (String.append_right_inj _ |>.mp h)

/-- An attempt reaches the provider and leaves the payment's row to be found again. -/
theorem executeRefund_again (ha : w.refundAttempt params = .ok a) (env : Env) :
    (executeRefund w params env).1.refunds =
        w.refunds ++ [a.providerCall env.now env.result] ∧
      ∃ b, (executeRefund w params env).1.refundAttempt params = .ok b ∧ b.params = a.params ∧
        b.payment.id = a.payment.id ∧ b.transactionId = a.transactionId := by
  obtain ⟨hp, rfl, ht⟩ := World.refundAttempt_ok ha
  have hw : (executeRefund w a.params env).1 =
      w.refunded ⟨a, env.result, env.now⟩ env.failAt := by
    simp [executeRefund, ha]
  rw [hw]
  refine ⟨rfl, ?_⟩
  obtain ⟨q, hq, hid, htx⟩ : ∃ q, (w.refunded ⟨a, env.result, env.now⟩ env.failAt).db.findPayment
      a.params.paymentId = some q ∧ q.id = a.payment.id ∧
        q.transactionId = a.payment.transactionId := by
    have hid : a.payment.id = a.params.paymentId := (lookup_eq_some hp).2
    unfold Db.findPayment at hp ⊢
    rw [refunded_payments]
    split
    · set d : RefundDraft := ⟨a, env.result, env.now⟩ with hd
      refine ⟨d.apply a.payment, ?_, rfl, rfl⟩
      rw [hid, lookup_update_self (f := d.apply) fun _ => rfl, hp]
      rfl
    · exact ⟨_, hp, rfl, rfl⟩
  have hagain : ∀ w' : World, w'.db.findPayment a.params.paymentId = some q →
      w'.refundAttempt a.params =
        .ok ⟨a.params, q, a.transactionId, w'.fresh, w'.fresh + 1⟩ := by
    intro w' hw'
    simp [World.refundAttempt, hw', htx, ht, Except.map]
  exact ⟨_, hagain _ hq, rfl, hid, rfl⟩

theorem attempts_refunds (ha : w.refundAttempt params = .ok a) :
    (w.attempts params envs).refunds =
      w.refunds ++ envs.map fun env => a.providerCall env.now env.result := by
  induction envs generalizing w a with
  | nil => simp [World.attempts]
  | cons env envs ih =>
    obtain ⟨hrefunds, b, hb, hparams, hid, htx⟩ := executeRefund_again ha env
    have hcall : ∀ now result, b.providerCall now result = a.providerCall now result := by
      intro now result
      simp only [RefundAttempt.providerCall, hparams, hid, htx]
    have := ih hb
    simp only [World.attempts, List.foldl_cons] at this ⊢
    rw [this, hrefunds, List.append_assoc, List.map_cons, List.singleton_append]
    simp only [hcall]

/-- The attempts at distinct times that the provider carries out are those at times of their own. -/
theorem executed_attempts (ha : w.refundAttempt params = .ok a)
    (hsuccess : ∀ env ∈ envs, env.result.success = true)
    (htimes : (envs.map fun env => env.now).Nodup) :
    (w.attempts params envs).executed = w.executed ++
      (envs.filter fun env => w.UnrefundedAt a.payment.id env.now).map fun env =>
        a.providerCall env.now env.result := by
  set call : Env → ProviderRefund := fun env => a.providerCall env.now env.result with hcall
  have hkeys : ((envs.map call).map ProviderRefund.idempotencyKey).Nodup := by
    rw [List.map_map]
    apply List.Nodup.map_on _ (List.Nodup.of_map _ htimes)
    intro x hx y hy hxy
    exact List.inj_on_of_nodup_map htimes hx hy (providerCall_key_injective hxy)
  unfold World.executed
  rw [attempts_refunds ha, performed_append, foldl_performOnce hkeys
    (by simpa [hcall, RefundAttempt.providerCall] using hsuccess), List.filter_map]
  rfl

def chargedOnce : World := (charge .empty sampleCharge approved.env).1

def refundOfForty : ExecuteRefundParams := ⟨0, 40, "Customer requested refund", none⟩

theorem refundOfForty_attempt : ∃ a, chargedOnce.refundAttempt refundOfForty = .ok a := ⟨_, rfl⟩

end PaymentService
