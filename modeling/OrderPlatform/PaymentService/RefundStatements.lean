import OrderPlatform.PaymentService.Atomicity
import OrderPlatform.PaymentService.Refund

/-! # The statements of a refund's transaction

For a single payment the transaction of a refund is one step: the update locks the row until the
commit. Its outbox row is written over a connection of its own and is there before the commit, so
that the refunds of two payments can be announced in one order and booked in the other. Here the
transaction is cut at its statements; run without interruption they are the step of `refundStep`.
-/

namespace PaymentService

open Runs Store Wire

/-- A refund outside its transaction, or inside it before the statement that is named. -/
inductive RefundStage
  | outside (c : RefundCall)
  | entering (d : RefundDraft)
  | appending (d : RefundDraft)
  | committing (d : RefundDraft)
  deriving DecidableEq, Repr

/-- What the manager has written when the transaction commits; the outbox row is not its own. -/
def RefundDraft.commit (d : RefundDraft) (db : Db) : Db := d.saveLedger (d.updatePayment db)

/--
One statement of a refund. What the manager writes is seen by nobody before the commit, which is
taken together with the read of the updated row.
-/
def refundStatement : Machine World RefundStage Env
  | w, .outside (.recording d), env =>
    if d.result.success = false then some (w, .outside (.threw d.declined))
    else if env.failAt = some .updatePayment then some (w, .outside (.threw .database))
    else some (w, .entering d)
  | w, .outside c, env => (refundStep w c env).map fun r => (r.1, .outside r.2)
  | w, .entering d, env =>
    if env.failAt = some .saveLedger then some (w, .outside (.threw .database))
    else some (w, .appending d)
  | w, .appending d, env =>
    if env.failAt = some .append then some (w, .outside (.threw .database))
    else some ({ w with db := d.append w.db }, .committing d)
  | w, .committing d, env =>
    if env.failAt = some .findPayment ∨ env.failAt = some .commit then
      some (w, .outside (.threw .database))
    else some ({ w with db := d.commit w.db },
      .outside (.returned ((d.commit w.db).findPayment d.payment.id)))

/-- What a statement of a refund can do. -/
inductive RefundEffect (w : World) : RefundStage → World → RefundStage → Prop
  | accept (c : RefundCall) (params : ExecuteRefundParams) :
    RefundEffect w (.outside c) w (.outside (.executing params))
  | draw (params : ExecuteRefundParams) (a : RefundAttempt) (h : w.refundAttempt params = .ok a) :
    RefundEffect w (.outside (.executing params)) { w with fresh := w.fresh + 2 }
      (.outside (.refunding a))
  | call (a : RefundAttempt) (now : ℕ) (result : ChargeResult) (h : result.success = true) :
    RefundEffect w (.outside (.refunding a))
      { w with refunds := w.refunds ++ [a.providerCall now result] }
      (.outside (.recording ⟨a, result, now⟩))
  | decline (a : RefundAttempt) (now : ℕ) (result : ChargeResult) (h : result.success = false)
    (e : Thrown) : RefundEffect w (.outside (.refunding a))
      { w with refunds := w.refunds ++ [a.providerCall now result] } (.outside (.threw e))
  | update (d : RefundDraft) (h : d.result.success = true) :
    RefundEffect w (.outside (.recording d)) w (.entering d)
  | enter (d : RefundDraft) : RefundEffect w (.entering d) w (.appending d)
  | append (d : RefundDraft) :
    RefundEffect w (.appending d) { w with db := d.append w.db } (.committing d)
  | commit (d : RefundDraft) (p : Option Payment) :
    RefundEffect w (.committing d) { w with db := d.commit w.db } (.outside (.returned p))
  | leave (c : RefundStage) (r : Except Thrown (Option Payment)) :
    RefundEffect w c w (.outside (.ended r))

section Effects

variable {w w' : World} {c c' : RefundStage} {env : Env}

theorem refundStatement_effect (h : refundStatement w c env = some (w', c')) :
    RefundEffect w c w' c' := by
  unfold refundStatement at h
  split at h
  · split at h
    · cases h
      exact .leave _ (.error _)
    · have hs := Bool.eq_true_of_not_eq_false ‹_›
      split at h <;> cases h
      · exact .leave _ (.error _)
      · exact .update _ hs
  · rename_i c hne
    obtain ⟨⟨u, l⟩, hstep, he⟩ := Option.map_eq_some_iff.mp h
    cases he
    cases c with
    | requesting params =>
      simp only [refundStep] at hstep
      split at hstep <;> cases hstep
      · exact .leave _ (.error _)
      · exact .accept _ _
    | compensating orderId correlationId =>
      simp only [refundStep] at hstep
      split at hstep <;> cases hstep
      · exact .leave _ (.ok none)
      · exact .accept _ _
    | executing params =>
      simp only [refundStep] at hstep
      split at hstep
      · cases hstep
        exact .leave _ (.error _)
      · rename_i a ha
        cases hstep
        exact .draw params a ha
    | refunding a =>
      cases hstep
      cases hs : env.result.success with
      | true => exact .call a env.now env.result hs
      | false => exact .decline a env.now env.result hs _
    | recording d => exact absurd rfl (hne d)
    | returned | threw => cases hstep
  · split at h <;> cases h
    · exact .leave _ (.error _)
    · exact .enter _
  · split at h <;> cases h
    · exact .leave _ (.error _)
    · exact .append _
  · split at h <;> cases h
    · exact .leave _ (.error _)
    · exact .commit _ _

end Effects

section Solo

variable {w w' : World} {c c' : RefundCall} {env : Env} {d : RefundDraft}

theorem RefundDraft.recorded_eq : d.recorded w.db = d.commit (d.append w.db) := rfl

/-- The statements of one transaction, with nothing between them, are `record`. -/
theorem recording_solo (w : World) (d : RefundDraft) (env : Env) :
    ∃ n, exec (Machine.solo refundStatement) (w, .outside (.recording d)) (List.replicate n env) =
      some ({ w with db := (d.record env.failAt w.db).1 },
        .outside (.ended (d.record env.failAt w.db).2)) := by
  cases hs : d.result.success with
  | false =>
    rw [RefundDraft.record_declined hs]
    exact ⟨1, by simp [exec_cons, Machine.solo, refundStatement, hs, RefundCall.ended]⟩
  | true =>
    rw [RefundDraft.record_accepted hs]
    by_cases h₁ : env.failAt = some .updatePayment
    · exact ⟨1, by simp [exec_cons, Machine.solo, refundStatement, hs, h₁, RefundCall.ended]⟩
    by_cases h₂ : env.failAt = some .saveLedger
    · exact ⟨2, by simp [List.replicate_succ, exec_cons, Machine.solo, refundStatement, hs, h₂,
        RefundCall.ended]⟩
    by_cases h₃ : env.failAt = some .append
    · exact ⟨3, by simp [List.replicate_succ, exec_cons, Machine.solo, refundStatement, hs, h₃,
        RefundCall.ended]⟩
    by_cases h₄ : env.failAt = some .findPayment ∨ env.failAt = some .commit
    · refine ⟨4, ?_⟩
      simp [List.replicate_succ, exec_cons, Machine.solo, refundStatement, hs, h₁, h₂, h₃, h₄,
        RefundCall.ended]
    · refine ⟨4, ?_⟩
      simp [List.replicate_succ, exec_cons, Machine.solo, refundStatement, hs, h₁, h₂, h₃, h₄,
        RefundCall.ended, RefundDraft.recorded_eq]

/-- Every step of `refundStep` is an uninterrupted run of statements. -/
theorem refundStep_statements (h : refundStep w c env = some (w', c')) :
    ∃ n, exec (Machine.solo refundStatement) (w, .outside c) (List.replicate n env) =
      some (w', .outside c') := by
  cases c with
  | recording d =>
    cases h
    exact recording_solo w d env
  | requesting | compensating | executing | refunding | returned | threw =>
    exact ⟨1, by simp [exec_cons, Machine.solo, refundStatement, h]⟩

end Solo

end PaymentService
