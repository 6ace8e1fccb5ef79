import OrderPlatform.PaymentService.RefundPolicy
import OrderPlatform.PaymentService.StatusMoves
import OrderPlatform.Wire.NumberTexts

/-! # The JSON type of a refund's amount

The type of an amount is declared only: given a string for it, the service would compare the number
the string stands for and write its characters after the text of the other number to add it. None
gets as far: the class of the body is imported as a type, so the pipe refuses every body that names
an amount, and what is refunded through the endpoint is what remains.
-/

namespace PaymentService

open Runs Store Wire

/-- If the request succeeds, the row's refunded amount has grown by the amount, within the
payment's. -/
def RefundedBy (payment : Payment) (amount : ℚ) (r : World × Except Thrown (Option Payment)) :
    Prop :=
  ∀ answer, r.2 = .ok answer → ∃ row, r.1.db.findPayment payment.id = some row ∧
    row.refundedAmount.toNumber = payment.refundedAmount.toNumber + amount ∧
    row.refundedAmount.toNumber ≤ payment.amount.toNumber

section Endpoint

variable {config : RefundConfig} {w : World} {user : Option AuthSubject} {id : Uuid}
  {correlationId : Option String} {payment : Payment} {params : RefundParams} {env : Env}
  {answer : Option Payment}

theorem RefundDraft.record_ok {d : RefundDraft} {failAt : Option DbStep} {db : Db}
    (h : (d.record failAt db).2 = .ok answer) :
    (d.record failAt db).1.payments = update Payment.id d.payment.id d.apply db.payments := by
  unfold RefundDraft.record at h ⊢
  by_cases hs : d.result.success = true
  · rw [if_pos hs] at h ⊢
    rcases transaction_cases failAt .commit d.statements db with ⟨db', -, ht⟩ | ⟨view, hw, ht⟩
    · rw [ht] at h
      cases h
    · rw [ht]
      cases hw
      rfl
  · rw [if_neg hs] at h
    cases h

/-- A refund that succeeds has rewritten the row it read. -/
theorem executeRefund_ok {params : ExecuteRefundParams}
    (h : (executeRefund w params env).2 = .ok answer) :
    ∃ a, w.refundAttempt params = .ok a ∧ (executeRefund w params env).1.db.payments =
      update Payment.id a.payment.id (RefundDraft.apply ⟨a, env.result, env.now⟩)
        w.db.payments := by
  unfold executeRefund at h ⊢
  cases hattempt : w.refundAttempt params with
  | error e =>
    rw [hattempt] at h
    cases h
  | ok a =>
    rw [hattempt] at h
    exact ⟨a, rfl, RefundDraft.record_ok h⟩

/-- A refund of what remains that succeeds has refunded all of the payment. -/
theorem requestRefund_rest (hp : w.db.findPayment id = some payment)
    (hid : params.paymentId = id) (hrest : params.amount = none) :
    RefundedBy payment payment.available (requestRefund w params env) := by
  intro answer hok
  unfold requestRefund at hok ⊢
  cases hadmits : w.admitRefund params with
  | error e =>
    rw [hadmits] at hok
    cases hok
  | ok p =>
    obtain ⟨row, a, hrow, hamount, rfl⟩ := World.admitRefund_ok hadmits
    obtain rfl : payment = row := Option.some.inj (hp.symm.trans (hid ▸ hrow))
    obtain ⟨rfl, -, -, -⟩ := refundAmount_ok hamount
    rw [hadmits] at hok
    obtain ⟨b, hattempt, hpayments⟩ := executeRefund_ok hok
    obtain ⟨hfind, hb, -⟩ := World.refundAttempt_ok hattempt
    obtain rfl : payment = b.payment :=
      Option.some.inj (hp.symm.trans ((congrArg _ hid.symm).trans hfind))
    set d : RefundDraft := ⟨b, env.result, env.now⟩ with hd
    have hnew : d.newRefundedAmount = b.payment.amount.toNumber := by
      have hparams : d.params.amount = b.payment.available := by
        rw [hd, hb, hrest]
        rfl
      rw [RefundDraft.newRefundedAmount, hparams, Payment.available]
      ring
    have hamount : (Numeric.ofNumber d.newRefundedAmount).toNumber =
        b.payment.amount.toNumber := by rw [hnew, Numeric.ofNumber_toNumber]
    refine ⟨d.apply b.payment, ?_, ?_, ?_⟩
    · have hself : b.payment.id = id := (lookup_eq_some hp).2
      unfold Db.findPayment at hp ⊢
      dsimp only
      rw [hpayments, lookup_update_self (f := d.apply) fun _ => rfl, hself, hp]
      rfl
    · rw [RefundDraft.apply, hamount, Payment.available]
      ring
    · rw [RefundDraft.apply, hamount]

/-- A request whose body the pipe refuses fails and changes nothing. -/
theorem postRefund_of_not_blank {body : Option Json} (h : ¬ Blank body) :
    ∃ e, postRefund config w user id correlationId body env = (w, .error e) := by
  unfold postRefund
  dsimp only
  split
  · exact ⟨_, rfl⟩
  · split
    · exact ⟨_, rfl⟩
    · rename_i ha
      exact absurd (acceptUntyped_eq_ok.mp ha) h

end Endpoint

/--
The number the amount of a body denotes, with some reading of strings; without an amount it is
what remains.
-/
def denoted (number : String → Option ℚ) (payment : Payment) : Option Json → Option ℚ
  | none => some payment.available
  | some (.num q) => some q
  | some (.str s) => number s
  | some _ => none

/--
Whoever sends whatever body to the refund endpoint, a body with an amount is refused and changes
nothing, and whenever a request succeeds the refunded amount has grown by the number the body
denotes and stays within the payment's amount.
-/
theorem refund_adds_up (number : String → Option ℚ) (config : RefundConfig) (w : World)
    (user : Option AuthSubject) (id : Uuid) (payment : Payment) (correlationId : Option String)
    (fields : List (String × Json)) (amount : Option Json) (q : ℚ) (env : Env)
    (hp : w.db.findPayment id = some payment)
    (hamount : (Json.obj fields).member "amount" = .ok amount)
    (hq : denoted number payment amount = some q) :
    (amount ≠ none →
      ∃ e, postRefund config w user id correlationId (some (.obj fields)) env = (w, .error e)) ∧
    RefundedBy payment q
      (postRefund config w user id correlationId (some (.obj fields)) env) := by
  by_cases hbody : Blank (some (.obj fields))
  · have hnone : amount = none := by
      rw [Json.member, Except.ok.injEq] at hamount
      cases amount with
      | none => rfl
      | some a =>
        obtain ⟨f, hf, -⟩ := Option.map_eq_some_iff.mp hamount
        have hname : f.1 = "amount" := by simpa using List.find?_some hf
        exact absurd (hname ▸ hbody f (List.mem_of_find?_eq_some hf)) (by decide)
    subst hnone
    obtain rfl : payment.available = q := Option.some.inj hq
    refine ⟨fun h => absurd rfl h, ?_⟩
    intro answer hok
    unfold postRefund at hok ⊢
    dsimp only at hok ⊢
    split at hok
    · cases hok
    · rename_i hguard
      rw [acceptUntyped_eq_ok.mpr hbody] at hok
      rw [acceptUntyped_eq_ok.mpr hbody]
      simp only [PaymentsController.refund, hp] at hok ⊢
      exact requestRefund_rest hp rfl rfl answer hok
  · obtain ⟨e, he⟩ := @postRefund_of_not_blank config w user id correlationId env _ hbody
    rw [he]
    exact ⟨fun _ => ⟨e, rfl⟩, fun _ h => by cases h⟩

def admin : AuthSubject := ⟨"admin-1", .admin, none, false⟩

/-- A charge of 100, of which 5 are refunded. -/
def fiveRefunded : World :=
  (PaymentCall.requestRefund ⟨0, some 5, none, none⟩ approved.env).run
    ((PaymentCall.charge sampleCharge approved.env).run .empty)

theorem fiveRefunded_found : ∃ payment ∈ fiveRefunded.db.findPayment 0,
    payment.status = .partiallyRefunded ∧ payment.refundedAmount = ⟨500⟩ := by
  decide +kernel

def readAmount (text : String) : Option ℚ := readNumber isSpace text.toList

/-- An empty body refunds the other 95, and one with an amount in either type nothing. -/
theorem rest_refunded : ∃ payment, fiveRefunded.db.findPayment 0 = some payment ∧
    (postRefund ⟨500, false⟩ fiveRefunded (some admin) 0 none (some (.obj []))
      approved.env).2.isOk = true ∧
    RefundedBy payment payment.available (postRefund ⟨500, false⟩ fiveRefunded (some admin) 0 none
      (some (.obj [])) approved.env) ∧
    (∃ e, postRefund ⟨500, false⟩ fiveRefunded (some admin) 0 none
      (some (.obj [("amount", .num 3)])) approved.env = (fiveRefunded, .error e)) ∧
    ∃ e, postRefund ⟨500, false⟩ fiveRefunded (some admin) 0 none
      (some (.obj [("amount", .str "3.00")])) approved.env = (fiveRefunded, .error e) := by
  obtain ⟨payment, hp, -⟩ := fiveRefunded_found
  have hread : readAmount "3.00" = some 3 := by decide +kernel
  refine ⟨payment, hp, by decide +kernel, ?_, ?_, ?_⟩
  · exact (refund_adds_up readAmount ⟨500, false⟩ fiveRefunded (some admin) 0 payment none [] none
      _ approved.env hp rfl rfl).2
  · exact (refund_adds_up readAmount ⟨500, false⟩ fiveRefunded (some admin) 0 payment none
      [("amount", .num 3)] (some (.num 3)) 3 approved.env hp rfl rfl).1 (by simp)
  · exact (refund_adds_up readAmount ⟨500, false⟩ fiveRefunded (some admin) 0 payment none
      [("amount", .str "3.00")] (some (.str "3.00")) 3 approved.env hp rfl hread).1 (by simp)

end PaymentService
