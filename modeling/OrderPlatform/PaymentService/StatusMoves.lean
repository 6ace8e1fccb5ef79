import OrderPlatform.PaymentService.Atomicity

/-! # The lifecycle of a payment

Charges, requested refunds and refunds asked for by events run one after another. Only
the requested refund checks the status of its payment.
-/

namespace PaymentService

open Runs Store Wire

inductive PaymentCall
  | charge (params : ChargeParams) (env : Env)
  | requestRefund (params : RefundParams) (env : Env)
  | processRefundRequired (event : RefundRequiredEvent) (correlationId : String) (env : Env)
  | processInventoryReservationFailed (orderId correlationId : String) (env : Env)
  deriving DecidableEq, Repr

def PaymentCall.run (w : World) : PaymentCall → World
  | .charge params env => (PaymentService.charge w params env).1
  | .requestRefund params env => (PaymentService.requestRefund w params env).1
  | .processRefundRequired event correlationId env =>
    (PaymentService.processRefundRequired w event correlationId env).1
  | .processInventoryReservationFailed orderId correlationId env =>
    (PaymentService.processInventoryReservationFailed w orderId correlationId env).1

def callStep (w : World) (c : PaymentCall) : Option World := some (c.run w)

/-- A status stays, or moves on towards a full refund of a charged payment. -/
def StatusMove (a b : PaymentStatus) : Prop :=
  a = b ∨ a = .processed ∧ (b = .partiallyRefunded ∨ b = .refunded) ∨
    a = .partiallyRefunded ∧ b = .refunded

instance (a b : PaymentStatus) : Decidable (StatusMove a b) :=
  inferInstanceAs (Decidable (_ ∨ _))

/-- The stored statuses only move forward, and no refund of a failed payment is asked for. -/
structure Forward (w w' : World) : Prop where
  moves : ∀ p ∈ w.db.payments, ∃ q ∈ w'.db.payments, q.id = p.id ∧ StatusMove p.status q.status
  asked : ∃ calls, w'.refunds = w.refunds ++ calls ∧
    ∀ r ∈ calls, ∀ p ∈ w.db.payments, p.id = r.paymentId → p.status ≠ .failed

/--
An event's refund of the payment is in order: it does not reach the provider, or the
payment was charged and, if already refunded, stays so.
-/
def RefundInOrder (p : Payment) (amount : ℚ) (env : Env) : Prop :=
  (∃ e, p.transactionId = .error e) ∨
    (p.status ≠ .failed ∧ (p.status = .refunded → env.RefundCommits →
      p.amount.toNumber ≤ p.refundedAmount.toNumber + amount))

/-- Every refund asked for by an event is in order. -/
def EventInOrder (w : World) : PaymentCall → Prop
  | .processRefundRequired event _ env =>
    ∀ p, w.db.findPayment event.paymentId = some p → RefundInOrder p event.amount env
  | .processInventoryReservationFailed orderId _ env =>
    ∀ p, w.db.findByOrder orderId = some p → RefundInOrder p p.available env
  | _ => True

theorem StatusMove.trans {a b c : PaymentStatus} (h : StatusMove a b) (h' : StatusMove b c) :
    StatusMove a c := by
  revert h h'
  cases a <;> cases b <;> cases c <;> decide

/-- Identifiers of payments are distinct and drawn, and no payment is pending. -/
structure Settled (w : World) : Prop where
  distinct : (w.db.payments.map Payment.id).Nodup
  drawn : ∀ p ∈ w.db.payments, p.id < w.fresh
  decided : ∀ p ∈ w.db.payments, p.status ≠ .pending

section Refunds

variable {w w' : World} {d : RefundDraft} {env : Env} {params : ExecuteRefundParams}

theorem RefundDraft.newStatus_eq_refunded :
    d.newStatus = .refunded ↔ d.payment.amount.toNumber ≤ d.newRefundedAmount := by
  simp [newStatus, isFullRefund]

theorem statusMove_newStatus (h₁ : d.payment.status ≠ .failed) (h₂ : d.payment.status ≠ .pending)
    (h₃ : d.payment.status = .refunded → d.payment.amount.toNumber ≤ d.newRefundedAmount) :
    StatusMove d.payment.status d.newStatus := by
  cases hs : d.payment.status with
  | pending => exact absurd hs h₂
  | failed => exact absurd hs h₁
  | refunded => exact Or.inl (RefundDraft.newStatus_eq_refunded.mpr (h₃ hs)).symm
  | processed | partiallyRefunded =>
    unfold RefundDraft.newStatus
    split <;> decide

theorem Forward.refl (w : World) : Forward w w :=
  ⟨fun p hp => ⟨p, hp, rfl, Or.inl rfl⟩, [], by simp, by simp⟩

theorem refunded_forward_iff (hw : Settled w) (hd : d.payment ∈ w.db.payments)
    (failAt : Option DbStep) :
    Forward w (w.refunded d failAt) ↔ d.payment.status ≠ .failed ∧
      (d.payment.status = .refunded → Env.RefundCommits ⟨⟨d.now, d.result⟩, failAt⟩ →
        d.payment.amount.toNumber ≤ d.newRefundedAmount) := by
  have hself : ∀ p ∈ w.db.payments, p.id = d.payment.id → p = d.payment := fun p hp hid =>
    List.inj_on_of_nodup_map hw.distinct hp hd hid
  constructor
  · intro h
    constructor
    · obtain ⟨calls, hcalls, hasked⟩ := h.asked
      obtain rfl : [d.providerCall d.now d.result] = calls := List.append_cancel_left hcalls
      exact hasked _ List.mem_cons_self d.payment hd rfl
    · intro hs hc
      obtain ⟨q, hq, hid, hmove⟩ := h.moves d.payment hd
      rw [refunded_payments, if_pos hc] at hq
      obtain ⟨p, hp, rfl⟩ := mem_update.mp hq
      by_cases hpid : p.id = d.payment.id
      · obtain rfl := hself p hp hpid
        rw [if_pos rfl, hs] at hmove
        rcases hmove with hm | ⟨hm, -⟩ | ⟨hm, -⟩
        · exact RefundDraft.newStatus_eq_refunded.mp hm.symm
        · cases hm
        · cases hm
      · rw [if_neg hpid] at hid
        exact absurd hid hpid
  · rintro ⟨hfailed, hrefunded⟩
    constructor
    · intro p hp
      rw [refunded_payments]
      split
      · rename_i hc
        refine ⟨_, mem_update.mpr ⟨p, hp, rfl⟩, ?_⟩
        by_cases hpid : p.id = d.payment.id
        · obtain rfl := hself p hp hpid
          rw [if_pos rfl]
          exact ⟨rfl, statusMove_newStatus hfailed (hw.decided _ hd) fun hs => hrefunded hs hc⟩
        · rw [if_neg hpid]
          exact ⟨rfl, Or.inl rfl⟩
      · exact ⟨p, hp, rfl, Or.inl rfl⟩
    · refine ⟨[d.providerCall d.now d.result], rfl, ?_⟩
      intro r hr p hp hid
      obtain rfl := List.mem_singleton.mp hr
      rw [hself p hp hid]
      exact hfailed

theorem executeRefund_forward_iff (hw : Settled w) :
    Forward w (executeRefund w params env).1 ↔
      ∀ p, w.db.findPayment params.paymentId = some p → RefundInOrder p params.amount env := by
  unfold executeRefund
  cases ha : w.refundAttempt params with
  | error e =>
    refine iff_of_true (.refl w) fun p hp => Or.inl ?_
    cases ht : p.transactionId with
    | error e => exact ⟨e, rfl⟩
    | ok t => simp [World.refundAttempt, hp, ht, Except.map] at ha
  | ok a =>
    obtain ⟨hp, rfl, ht⟩ := World.refundAttempt_ok ha
    dsimp only
    rw [refunded_forward_iff hw (lookup_eq_some hp).1, hp]
    simp [RefundInOrder, ht, RefundDraft.newRefundedAmount]

theorem requestRefund_forward (hw : Settled w) (params : RefundParams) (env : Env) :
    Forward w (requestRefund w params env).1 := by
  unfold requestRefund
  cases h : w.admitRefund params with
  | error e => exact .refl w
  | ok p =>
    obtain ⟨payment, a, hp, ha, rfl⟩ := World.admitRefund_ok h
    obtain ⟨-, -, -, hstatus⟩ := refundAmount_ok ha
    rw [executeRefund_forward_iff hw]
    intro q hq
    obtain rfl : payment = q := Option.some.inj (hp.symm.trans hq)
    right
    rcases hstatus with hs | hs <;> simp [hs]

theorem compensation_forward_iff (hw : Settled w) (orderId correlationId : String) (env : Env) :
    Forward w (processInventoryReservationFailed w orderId correlationId env).1 ↔
      ∀ p, w.db.findByOrder orderId = some p → RefundInOrder p p.available env := by
  unfold processInventoryReservationFailed
  cases hp : w.db.findByOrder orderId with
  | none => exact iff_of_true (.refl w) (by simp)
  | some payment =>
    have hl : w.db.findPayment payment.id = some payment :=
      lookup_of_mem hw.distinct (lookup_eq_some hp).1
    dsimp only
    rw [executeRefund_forward_iff hw]
    simp [compensation, hl]

end Refunds

section Charges

variable {w : World} {params : ChargeParams} {env : Env}

/-- A charge keeps every row and adds at most that of its draft. -/
theorem charge_row (w : World) (params : ChargeParams) (env : Env) :
    (charge w params env).1.db.payments = w.db.payments ∨
      ∃ amount, (charge w params env).1.fresh = w.fresh + 3 ∧
        (charge w params env).1.db.payments = w.db.payments ++
          [ChargeDraft.payment ⟨w.chargeAttempt params env.now, env.result, env.now⟩ amount] := by
  unfold charge
  cases w.db.findExisting params.orderId (params.key env.now) with
  | some existing => exact Or.inl rfl
  | none =>
    set d : ChargeDraft := ⟨w.chargeAttempt params env.now, env.result, env.now⟩ with hd
    dsimp only [World.charged]
    by_cases hs : d.savePayment w.db = none
    · left
      rw [ChargeDraft.record_refused hs]
    · obtain ⟨amount, ha, hc⟩ : ∃ amount, d.params.amount = some amount ∧
          ¬ ∃ p ∈ w.db.payments, p.Conflicts (d.payment amount) := by
        simpa [ChargeDraft.savePayment_eq_none] using hs
      rw [ChargeDraft.record_accepted ha hc]
      split
      · exact Or.inl rfl
      · split
        · exact Or.inl rfl
        · exact Or.inr ⟨amount, rfl, rfl⟩

/-- The row it adds has the identifier it drew. -/
theorem charge_payments (w : World) (params : ChargeParams) (env : Env) :
    (charge w params env).1.db.payments = w.db.payments ∨
      ∃ p : Payment, (charge w params env).1.db.payments = w.db.payments ++ [p] ∧
        p.id = w.fresh ∧ (charge w params env).1.fresh = w.fresh + 3 ∧ p.status ≠ .pending := by
  rcases charge_row w params env with h | ⟨amount, hfresh, h⟩
  · exact Or.inl h
  · refine Or.inr ⟨_, h, rfl, hfresh, ?_⟩
    simp only [ChargeDraft.payment, ChargeDraft.finalStatus]
    split <;> decide

theorem charge_refunds (w : World) (params : ChargeParams) (env : Env) :
    (charge w params env).1.refunds = w.refunds := by
  unfold charge
  split <;> rfl

theorem charge_forward (w : World) (params : ChargeParams) (env : Env) :
    Forward w (charge w params env).1 := by
  constructor
  · intro p hp
    refine ⟨p, ?_, rfl, Or.inl rfl⟩
    rcases charge_payments w params env with h | ⟨q, h, -⟩
    · rwa [h]
    · rw [h]
      exact List.mem_append_left _ hp
  · exact ⟨[], by simp [charge_refunds], by simp⟩

theorem charge_fresh_le (w : World) (params : ChargeParams) (env : Env) :
    w.fresh ≤ (charge w params env).1.fresh := by
  unfold charge
  split
  · exact le_rfl
  · exact Nat.le_add_right _ _

theorem Settled.charge (hw : Settled w) : Settled (charge w params env).1 := by
  rcases charge_payments w params env with h | ⟨p, h, hid, hfresh, hpending⟩
  · constructor
    · rw [h]
      exact hw.distinct
    · rw [h]
      exact fun p hp => (hw.drawn p hp).trans_le (charge_fresh_le w params env)
    · rw [h]
      exact hw.decided
  · constructor
    · rw [h]
      apply nodup_map_concat hw.distinct
      intro q hq
      rw [hid]
      exact (hw.drawn q hq).ne
    · rw [h, hfresh]
      exact forall_mem_concat (fun q hq => Nat.lt_add_right _ (hw.drawn q hq))
        (by rw [hid]; exact Nat.lt_add_of_pos_right (by decide))
    · rw [h]
      exact forall_mem_concat hw.decided hpending

end Charges

variable {w : World} {params : ExecuteRefundParams} {env : Env} {c : PaymentCall}
  {calls : List PaymentCall}

theorem Settled.executeRefund (hw : Settled w) : Settled (executeRefund w params env).1 := by
  unfold PaymentService.executeRefund
  cases ha : w.refundAttempt params with
  | error e => exact hw
  | ok a =>
    dsimp only
    set d : RefundDraft := ⟨a, env.result, env.now⟩ with hd
    have hpay := refunded_payments (w := w) d env.failAt
    split at hpay
    · constructor
      · rw [hpay, map_update_of_eq Payment.id fun _ _ => by rfl]
        exact hw.distinct
      · rw [hpay]
        intro p hp
        obtain ⟨q, hq, rfl⟩ := mem_update.mp hp
        have := Nat.lt_add_right 2 (hw.drawn q hq)
        split <;> exact this
      · rw [hpay]
        intro p hp
        obtain ⟨q, hq, rfl⟩ := mem_update.mp hp
        split
        · simp only [RefundDraft.apply, RefundDraft.newStatus]
          split <;> decide
        · exact hw.decided q hq
    · constructor <;> rw [hpay]
      · exact hw.distinct
      · exact fun p hp => Nat.lt_add_right 2 (hw.drawn p hp)
      · exact hw.decided

theorem Settled.run (hw : Settled w) (c : PaymentCall) : Settled (c.run w) := by
  cases c with
  | charge params env => exact hw.charge
  | requestRefund params env =>
    simp only [PaymentCall.run, PaymentService.requestRefund]
    split
    · exact hw
    · exact hw.executeRefund
  | processRefundRequired event correlationId env => exact hw.executeRefund
  | processInventoryReservationFailed orderId correlationId env =>
    simp only [PaymentCall.run, PaymentService.processInventoryReservationFailed]
    split
    · exact hw
    · exact hw.executeRefund

/-- One call moves forward exactly when it is not an event's refund out of order. -/
theorem run_forward_iff (hw : Settled w) (c : PaymentCall) :
    Forward w (c.run w) ↔ EventInOrder w c := by
  cases c with
  | charge params env => exact iff_of_true (charge_forward w params env) trivial
  | requestRefund params env => exact iff_of_true (requestRefund_forward hw params env) trivial
  | processRefundRequired event correlationId env => exact executeRefund_forward_iff hw
  | processInventoryReservationFailed orderId correlationId env =>
    exact compensation_forward_iff hw orderId correlationId env

theorem settled_empty : Settled World.empty := by
  constructor <;> simp [World.empty]

/-- Along such a run a failed or refunded payment keeps its status for good. -/
theorem moves_of_allSteps {w' : World}
    (h : AllSteps callStep (fun w c => Forward w (c.run w)) w calls)
    (he : exec callStep w calls = some w') :
    ∀ p ∈ w.db.payments, ∃ q ∈ w'.db.payments, q.id = p.id ∧ StatusMove p.status q.status := by
  induction calls generalizing w with
  | nil =>
    cases he
    exact fun p hp => ⟨p, hp, rfl, Or.inl rfl⟩
  | cons c calls ih =>
    intro p hp
    obtain ⟨q, hq, hqid, hpq⟩ := h.1.moves p hp
    obtain ⟨r, hr, hrid, hqr⟩ := ih (h.2 _ rfl) he q hq
    exact ⟨r, hr, hrid.trans hqid, hpq.trans hqr⟩

/--
In a run from empty tables every call keeps the lifecycle of all payments, exactly when no
event of the run asks for a refund out of order.
-/
theorem lifecycle_iff (calls : List PaymentCall) :
    AllSteps callStep (fun w c => Forward w (c.run w)) World.empty calls ↔
      AllSteps callStep EventInOrder World.empty calls := by
  have keep : ∀ w c w', Settled w → callStep w c = some w' → Settled w' := by
    intro w c w' hw h
    cases h
    exact hw.run c
  constructor
  · exact AllSteps.of_invariant (fun w c w' hw _ h => keep w c w' hw h)
      (fun w c hw h => (run_forward_iff hw c).mp h) settled_empty
  · exact AllSteps.of_invariant (fun w c w' hw _ h => keep w c w' hw h)
      (fun w c hw h => (run_forward_iff hw c).mpr h) settled_empty

/-- A charge that needs an action of the customer. -/
def failedCharge : PaymentCall :=
  .charge sampleCharge { approved.env with result := ⟨false, "pi_1", "stripe",
    some "Payment requires additional action (requires_action)"⟩ }

def compensated : PaymentCall :=
  .processInventoryReservationFailed "order-1" "corr-1" approved.env

/-- The failed payment has a transaction, so the compensation of its order refunds it. -/
theorem failed_payment_refunded :
    (∃ w ∈ exec callStep World.empty [failedCharge, compensated],
      w.db.payments.map Payment.status = [.refunded] ∧ w.refunds.length = 1) ∧
    ¬ AllSteps callStep (fun w c => Forward w (c.run w)) World.empty
      [failedCharge, compensated] := by
  refine ⟨by decide +kernel, ?_⟩
  intro h
  have hforward := (h.2 (failedCharge.run World.empty) rfl).1
  obtain ⟨p, hp, hs⟩ : ∃ p ∈ (failedCharge.run World.empty).db.payments,
    p.status = .failed := by decide +kernel
  obtain ⟨q, hq, -, hmove⟩ := hforward.moves p hp
  have hq' : ∀ q ∈ (compensated.run (failedCharge.run World.empty)).db.payments,
    q.status = .refunded := by decide +kernel
  rw [hs, hq' q hq] at hmove
  revert hmove
  decide

end PaymentService
