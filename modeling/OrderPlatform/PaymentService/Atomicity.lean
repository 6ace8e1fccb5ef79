import OrderPlatform.PaymentService.Charge
import OrderPlatform.PaymentService.Refund

/-! # Atomicity of the three writes

A charge and a refund each change the payments table, the ledger and the outbox. The
outbox row is saved by its own repository, so a failure after it leaves an event of a
payment or refund that was rolled back.
-/

namespace PaymentService

open Store

/-- The intended effect of an operation on each of the three tables. -/
structure Writes where
  payments : List Payment → List Payment
  ledger : List LedgerEntry → List LedgerEntry
  outbox : List Outbox → List Outbox

/-- All three writes are persisted, or none of them is. -/
def AllOrNone (c : Writes) (before after : Db) : Prop :=
  (after.payments = c.payments before.payments ∧ after.ledger = c.ledger before.ledger ∧
    after.outbox = c.outbox before.outbox) ∨
  (after.payments = before.payments ∧ after.ledger = before.ledger ∧
    after.outbox = before.outbox)

namespace ChargeDraft

variable (d : ChargeDraft) {db : Db} {failAt : Option DbStep} {amount : ℚ}

def writes : Writes where
  payments ps := ps ++ (d.params.amount.map d.payment).toList
  ledger es := es ++ (d.params.amount.map d.ledgerEntry).toList
  outbox rows := rows ++ [d.outboxRow]

def recorded (amount : ℚ) (db : Db) : Db where
  payments := db.payments ++ [d.payment amount]
  ledger := db.ledger ++ [d.ledgerEntry amount]
  outbox := db.outbox ++ [d.outboxRow]

variable {d}

theorem savePayment_eq_none : d.savePayment db = none ↔
    ∀ amount, d.params.amount = some amount →
      ∃ p ∈ db.payments, p.Conflicts (d.payment amount) := by
  cases h : d.params.amount with
  | none => simp [savePayment, h]
  | some amount =>
    by_cases hc : ∃ p ∈ db.payments, p.Conflicts (d.payment amount)
    · simp [savePayment, h, hc]
    · simp [savePayment, h, hc]

theorem record_refused (h : d.savePayment db = none) : d.record failAt db = (db, none) := by
  by_cases hf : failAt = some .savePayment <;>
    simp [record, transaction, statements, runStmts, hf, h]

theorem record_accepted (ha : d.params.amount = some amount)
    (hc : ¬ ∃ p ∈ db.payments, p.Conflicts (d.payment amount)) :
    d.record failAt db =
      if failAt = some .savePayment ∨ failAt = some .saveLedger ∨ failAt = some .append then
        (db, none)
      else if failAt = some .commit then (d.append db, none)
      else (d.recorded amount db, some (d.recorded amount db)) := by
  have hs : d.savePayment db =
      some { db with payments := db.payments ++ [d.payment amount] } := by
    simp only [savePayment, ha, Option.bind_some, if_neg hc]
  by_cases h₁ : failAt = some .savePayment
  · simp [record, transaction, statements, runStmts, h₁]
  by_cases h₂ : failAt = some .saveLedger
  · simp [record, transaction, statements, runStmts, h₂, hs]
  by_cases h₃ : failAt = some .append
  · simp [record, transaction, statements, runStmts, h₃, hs, saveLedger, ha]
  by_cases h₄ : failAt = some .commit
  · simp [record, transaction, statements, runStmts, h₄, hs, saveLedger, ha]
  · simp [record, transaction, statements, runStmts, h₁, h₂, h₃, h₄, hs, saveLedger, ha,
      append, recorded]

theorem record_none (ha : d.params.amount = some amount)
    (hc : ¬ ∃ p ∈ db.payments, p.Conflicts (d.payment amount)) :
    d.record none db = (d.recorded amount db, some (d.recorded amount db)) := by
  rw [record_accepted ha hc]
  simp

theorem allOrNone_record_iff : AllOrNone d.writes db (d.record failAt db).1 ↔
    (failAt = some .commit → d.savePayment db = none) := by
  by_cases hs : d.savePayment db = none
  · simp [record_refused hs, hs, AllOrNone]
  · obtain ⟨amount, ha, hc⟩ : ∃ amount, d.params.amount = some amount ∧
        ¬ ∃ p ∈ db.payments, p.Conflicts (d.payment amount) := by
      simpa [savePayment_eq_none] using hs
    rw [record_accepted ha hc]
    by_cases h₄ : failAt = some .commit
    · simp [h₄, hs, AllOrNone, append, writes, ha]
    · simp only [h₄, false_imp_iff, iff_true]
      split
      · exact Or.inr ⟨rfl, rfl, rfl⟩
      · left; simp [writes, recorded, ha]

end ChargeDraft

theorem charge_new {w : World} {params : ChargeParams} {env : Env} {amount : ℚ}
    (he : w.db.findExisting params.orderId (params.key env.now) = none)
    (ha : params.amount = some amount) (hf : env.failAt = none) :
    charge w params env =
      let d : ChargeDraft := ⟨w.chargeAttempt params env.now, env.result, env.now⟩
      ({ w with
          db := d.recorded amount w.db
          charges := w.charges ++ [d.providerCall d.result]
          fresh := w.fresh + 3 }, .ok (d.payment amount)) := by
  set d : ChargeDraft := ⟨w.chargeAttempt params env.now, env.result, env.now⟩ with hd
  have hc : ¬ ∃ p ∈ w.db.payments, p.Conflicts (d.payment amount) := by
    rintro ⟨p, hp, hc⟩
    have := List.find?_eq_none.mp he p hp
    simp only [Bool.or_eq_true, decide_eq_true_eq] at this
    exact this hc
  simp only [charge, he, ← hd, World.charged, hf, ChargeDraft.record_none ha hc, ha]
  rfl

namespace RefundDraft

variable (d : RefundDraft) {db : Db} {failAt : Option DbStep}

def writes : Writes where
  payments ps := update Payment.id d.payment.id d.apply ps
  ledger es := es ++ [d.ledgerEntry]
  outbox rows := rows ++ [d.outboxRow]

def recorded (db : Db) : Db := d.append (d.saveLedger (d.updatePayment db))

variable {d}

theorem record_declined (h : d.result.success = false) :
    d.record failAt db = (db, .error d.declined) := by
  simp [record, h]

theorem record_accepted (h : d.result.success = true) :
    d.record failAt db =
      if failAt = some .updatePayment ∨ failAt = some .saveLedger ∨ failAt = some .append then
        (db, .error .database)
      else if failAt = some .findPayment ∨ failAt = some .commit then
        (d.append db, .error .database)
      else (d.recorded db, .ok ((d.recorded db).findPayment d.payment.id)) := by
  by_cases h₁ : failAt = some .updatePayment
  · simp [record, h, transaction, statements, runStmts, h₁]
  by_cases h₂ : failAt = some .saveLedger
  · simp [record, h, transaction, statements, runStmts, h₂]
  by_cases h₃ : failAt = some .append
  · simp [record, h, transaction, statements, runStmts, h₃]
  by_cases h₄ : failAt = some .findPayment
  · simp [record, h, transaction, statements, runStmts, h₄]
  by_cases h₅ : failAt = some .commit
  · simp [record, h, transaction, statements, runStmts, h₅]
  · simp [record, h, transaction, statements, runStmts, h₁, h₂, h₃, h₄, h₅, recorded]

theorem record_none (h : d.result.success = true) : d.record none db =
    (d.recorded db, .ok ((d.recorded db).findPayment d.payment.id)) := by
  rw [record_accepted h]
  simp

theorem allOrNone_record_iff : AllOrNone d.writes db (d.record failAt db).1 ↔
    (d.result.success = true → failAt ≠ some .findPayment ∧ failAt ≠ some .commit) := by
  cases h : d.result.success with
  | false => simp [record_declined h, AllOrNone]
  | true =>
    rw [record_accepted h]
    by_cases h₄ : failAt = some .findPayment ∨ failAt = some .commit
    · rcases h₄ with rfl | rfl <;> simp [AllOrNone, append, writes]
    · have hne : failAt ≠ some .findPayment ∧ failAt ≠ some .commit := by tauto
      apply iff_of_true _ fun _ => hne
      split
      · exact Or.inr ⟨rfl, rfl, rfl⟩
      · exact Or.inl ⟨rfl, rfl, rfl⟩

end RefundDraft

/-- The provider accepts the refund and the transaction that records it commits. -/
def Env.RefundCommits (env : Env) : Prop :=
  env.result.success = true ∧
    env.failAt ∉ [some .updatePayment, some .saveLedger, some .append, some .findPayment,
      some .commit]

instance (env : Env) : Decidable env.RefundCommits := inferInstanceAs (Decidable (_ ∧ _))

theorem refunded_payments {w : World} (d : RefundDraft) (failAt : Option DbStep) :
    (w.refunded d failAt).db.payments =
      if Env.RefundCommits ⟨⟨d.now, d.result⟩, failAt⟩ then
        update Payment.id d.payment.id d.apply w.db.payments
      else w.db.payments := by
  cases hs : d.result.success with
  | false => simp [World.refunded, RefundDraft.record_declined hs, Env.RefundCommits, hs]
  | true =>
    simp only [World.refunded, RefundDraft.record_accepted hs, Env.RefundCommits, hs, true_and,
      List.mem_cons, List.not_mem_nil, or_false]
    by_cases h₁ : failAt = some .updatePayment ∨ failAt = some .saveLedger ∨
        failAt = some .append
    · rw [if_pos h₁, if_neg (by tauto)]
    · rw [if_neg h₁]
      by_cases h₂ : failAt = some .findPayment ∨ failAt = some .commit
      · rw [if_pos h₂, if_neg (by tauto)]
        rfl
      · rw [if_neg h₂, if_pos (by tauto)]
        rfl

/--
Once the provider has answered, the three writes of a charge are all persisted or all
absent exactly when the commit does not fail after an accepted insert, and those of a
refund exactly when neither the last read nor the commit fails after an accepted refund.
-/
theorem outbox_atomic_iff (db : Db) (failAt : Option DbStep) :
    (∀ d : ChargeDraft, AllOrNone d.writes db (d.record failAt db).1 ↔
      (failAt = some .commit → d.savePayment db = none)) ∧
    (∀ d : RefundDraft, AllOrNone d.writes db (d.record failAt db).1 ↔
      (d.result.success = true → failAt ≠ some .findPayment ∧ failAt ≠ some .commit)) :=
  ⟨fun _ => ChargeDraft.allOrNone_record_iff, fun _ => RefundDraft.allOrNone_record_iff⟩

def sampleDraft : ChargeDraft := ⟨World.empty.chargeAttempt sampleCharge 0, approved.result, 0⟩

/-- A charge whose commit fails leaves the event of a payment that does not exist. -/
theorem failed_commit_leaves_event :
    (sampleDraft.record (some .commit) World.empty.db).1.payments = [] ∧
      (sampleDraft.record (some .commit) World.empty.db).1.outbox = [sampleDraft.outboxRow] ∧
      ¬ AllOrNone sampleDraft.writes World.empty.db
        (sampleDraft.record (some .commit) World.empty.db).1 := by
  have hr : sampleDraft.record (some .commit) World.empty.db =
      (sampleDraft.append World.empty.db, none) :=
    ChargeDraft.record_accepted rfl (by simp [World.empty])
  rw [hr]
  refine ⟨rfl, rfl, ?_⟩
  rintro (⟨h, -, -⟩ | ⟨-, -, h⟩) <;> cases h

end PaymentService
