import OrderPlatform.PaymentService.Charge

/-! # The widths of the payment tables

The amounts of payments and of ledger entries are kept with twelve digits, two of them
after the point. A charge whose amount fits is recorded as on columns of any width.
-/

namespace PaymentService

open Store Wire

/-- The row overflows no numeric column of `payments`. -/
def Payment.Fits (payment : Payment) : Prop :=
  payment.amount.Fits 12 ∧ payment.refundedAmount.Fits 12

/-- The row overflows no numeric column of `ledger_entries`. -/
def LedgerEntry.Fits (entry : LedgerEntry) : Prop := entry.amount.Fits 12

instance (payment : Payment) : Decidable payment.Fits := inferInstanceAs (Decidable (_ ∧ _))

instance (entry : LedgerEntry) : Decidable entry.Fits :=
  inferInstanceAs (Decidable (entry.amount.Fits 12))

namespace ChargeDraft

variable (d : ChargeDraft)

/-- `savePayment` on columns of the widths they have. -/
def insertPayment (db : Db) : Option Db :=
  if ∀ amount ∈ d.params.amount, (d.payment amount).Fits then d.savePayment db else none

/-- `saveLedger` on a column of the width it has. -/
def insertLedger (db : Db) : Option Db :=
  if ∀ amount ∈ d.params.amount, (d.ledgerEntry amount).Fits then d.saveLedger db else none

def inserts : List (Stmt DbStep Db) :=
  [.managed .savePayment d.insertPayment, .managed .saveLedger d.insertLedger,
    .direct .append d.append]

def insert (failAt : Option DbStep) (db : Db) : Db × Option Db :=
  transaction failAt .commit d.inserts db

variable {d}

theorem zero_fits : Numeric.Fits 12 ⟨0⟩ := by decide

theorem insert_of_fits (h : ∀ amount ∈ d.params.amount, (Numeric.ofNumber amount).Fits 12) :
    d.insert = d.record := by
  have hpayment : ∀ amount ∈ d.params.amount, (d.payment amount).Fits :=
    fun amount ha => ⟨h amount ha, zero_fits⟩
  have hentry : ∀ amount ∈ d.params.amount, (d.ledgerEntry amount).Fits := h
  have hp : d.insertPayment = d.savePayment := by
    ext db
    rw [insertPayment, if_pos hpayment]
  have hl : d.insertLedger = d.saveLedger := by
    ext db
    rw [insertLedger, if_pos hentry]
  ext failAt db : 2
  rw [insert, record, inserts, statements, hp, hl]

end ChargeDraft

/-- `charge` on columns of the widths they have. -/
def insertCharge (w : World) (params : ChargeParams) (env : Env) : World × Except Thrown Payment :=
  match w.db.findExisting params.orderId (params.key env.now) with
  | some existing => (w, .ok existing)
  | none =>
    let d : ChargeDraft := ⟨w.chargeAttempt params env.now, env.result, env.now⟩
    ({ w with
      db := (d.insert env.failAt w.db).1
      charges := w.charges ++ [d.providerCall d.result]
      fresh := w.fresh + 3 },
      match (d.insert env.failAt w.db).2, params.amount with
      | some _, some amount => .ok (d.payment amount)
      | _, _ => .error .database)

theorem insertCharge_of_fits {params : ChargeParams}
    (h : ∀ amount ∈ params.amount, (Numeric.ofNumber amount).Fits 12) (w : World) (env : Env) :
    insertCharge w params env = charge w params env := by
  have hd : ChargeDraft.insert ⟨w.chargeAttempt params env.now, env.result, env.now⟩ =
      ChargeDraft.record ⟨w.chargeAttempt params env.now, env.result, env.now⟩ :=
    ChargeDraft.insert_of_fits h
  unfold insertCharge charge
  cases w.db.findExisting params.orderId (params.key env.now) with
  | some existing => rfl
  | none =>
    simp only [hd]
    rfl

end PaymentService
