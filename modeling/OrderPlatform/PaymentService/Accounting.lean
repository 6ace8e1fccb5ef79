import OrderPlatform.PaymentService.Atomicity

/-! # Four accounts of the same money

The payments row, its status, the ledger and the provider's refund calls agree on every
payment after any sequence of charges, refunds and compensations run one after another.
-/

namespace PaymentService

open Store Wire Numeric

/-- What the ledger says was refunded on a payment. -/
def refundTotal (id : Uuid) (ledger : List LedgerEntry) : ℚ :=
  ((ledger.filter fun e => e.paymentId = id ∧ e.type = .refund).map fun e =>
    e.amount.toNumber).sum

/-- What the provider has refunded on a payment. -/
def providerTotal (id : Uuid) (refunds : List ProviderRefund) : ℚ :=
  ((refunds.filter fun r => r.paymentId = id ∧ r.result.success).map fun r => r.amount).sum

def chargeAmounts (id : Uuid) (ledger : List LedgerEntry) : List Numeric :=
  (ledger.filter fun e => e.paymentId = id ∧ e.type = .charge).map fun e => e.amount

section Totals

variable {id : Uuid} {ledger : List LedgerEntry} {refunds : List ProviderRefund}
  {e : LedgerEntry} {r : ProviderRefund}

theorem refundTotal_append : refundTotal id (ledger ++ [e]) =
    refundTotal id ledger +
      if e.paymentId = id ∧ e.type = .refund then e.amount.toNumber else 0 := by
  unfold refundTotal
  split <;> simp_all

theorem providerTotal_append : providerTotal id (refunds ++ [r]) =
    providerTotal id refunds + if r.paymentId = id ∧ r.result.success then r.amount else 0 := by
  unfold providerTotal
  split <;> simp_all

theorem chargeAmounts_append : chargeAmounts id (ledger ++ [e]) =
    chargeAmounts id ledger ++ if e.paymentId = id ∧ e.type = .charge then [e.amount] else [] := by
  unfold chargeAmounts
  split <;> simp_all

theorem refundTotal_fresh (h : ∀ e ∈ ledger, e.paymentId ≠ id) : refundTotal id ledger = 0 := by
  have : ledger.filter (fun e => e.paymentId = id ∧ e.type = .refund) = [] :=
    List.filter_eq_nil_iff.mpr fun e he => by simp [h e he]
  rw [refundTotal, this]
  rfl

theorem providerTotal_fresh (h : ∀ r ∈ refunds, r.paymentId ≠ id) :
    providerTotal id refunds = 0 := by
  have : refunds.filter (fun r => r.paymentId = id ∧ r.result.success) = [] :=
    List.filter_eq_nil_iff.mpr fun r hr => by simp [h r hr]
  rw [providerTotal, this]
  rfl

theorem chargeAmounts_fresh (h : ∀ e ∈ ledger, e.paymentId ≠ id) :
    chargeAmounts id ledger = [] := by
  have : ledger.filter (fun e => e.paymentId = id ∧ e.type = .charge) = [] :=
    List.filter_eq_nil_iff.mpr fun e he => by simp [h e he]
  rw [chargeAmounts, this]
  rfl

end Totals

/-- The payments row, its status, the ledger and the provider agree on the payment. -/
structure Accounted (w : World) (p : Payment) : Prop where
  nonneg : 0 ≤ p.refundedAmount.toNumber
  le_amount : p.refundedAmount.toNumber ≤ p.amount.toNumber
  ledger : refundTotal p.id w.db.ledger = p.refundedAmount.toNumber
  provider : providerTotal p.id w.refunds = p.refundedAmount.toNumber
  charge : chargeAmounts p.id w.db.ledger = [p.amount]
  refunded : p.status = .refunded ↔ p.refundedAmount = p.amount
  partially : p.status = .partiallyRefunded ↔
    0 < p.refundedAmount.toNumber ∧ p.refundedAmount.toNumber < p.amount.toNumber
  untouched : p.status = .processed ∨ p.status = .failed ↔ p.refundedAmount.toNumber = 0

structure Drawn (w : World) : Prop where
  distinct : (w.db.payments.map Payment.id).Nodup
  payments_lt : ∀ p ∈ w.db.payments, p.id < w.fresh
  ledger_lt : ∀ e ∈ w.db.ledger, e.paymentId < w.fresh
  refunds_lt : ∀ r ∈ w.refunds, r.paymentId < w.fresh

/-- Every payment is positive and accounted for. -/
structure Sound (w : World) : Prop extends Drawn w where
  accounted : ∀ p ∈ w.db.payments, Accounted w p
  positive : ∀ p ∈ w.db.payments, 0 < p.amount.toNumber

theorem sound_empty : Sound World.empty := by
  refine ⟨⟨?_, ?_, ?_, ?_⟩, ?_, ?_⟩ <;> simp [World.empty]

theorem Accounted.frame {w w' : World} {p : Payment} (h : Accounted w p)
    (hl : refundTotal p.id w'.db.ledger = refundTotal p.id w.db.ledger)
    (hr : providerTotal p.id w'.refunds = providerTotal p.id w.refunds)
    (hc : chargeAmounts p.id w'.db.ledger = chargeAmounts p.id w.db.ledger) : Accounted w' p where
  nonneg := h.nonneg
  le_amount := h.le_amount
  ledger := hl.trans h.ledger
  provider := hr.trans h.provider
  charge := hc.trans h.charge
  refunded := h.refunded
  partially := h.partially
  untouched := h.untouched

theorem Sound.declined {w : World} (hw : Sound w) {d : RefundDraft} (hd : d.payment ∈ w.db.payments)
    (hs : d.result.success = false) (failAt : Option DbStep) : Sound (w.refunded d failAt) := by
  unfold World.refunded
  rw [RefundDraft.record_declined hs]
  have hid := hw.payments_lt _ hd
  exact {
    accounted := fun p hp => (hw.accounted p hp).frame rfl
      (by simp [providerTotal_append, RefundAttempt.providerCall, hs]) rfl
    positive := hw.positive
    distinct := hw.distinct
    payments_lt := fun p hp => Nat.lt_add_right _ (hw.payments_lt p hp)
    ledger_lt := fun e he => Nat.lt_add_right _ (hw.ledger_lt e he)
    refunds_lt := forall_mem_concat (fun r hr => Nat.lt_add_right _ (hw.refunds_lt r hr))
      (Nat.lt_add_right _ hid) }

theorem RefundDraft.accounted {w w' : World} {d : RefundDraft} (h : Accounted w d.payment)
    (hpos : 0 < d.payment.amount.toNumber) (h₂ : TwoDecimals d.params.amount)
    (hle : d.params.amount ≤ d.payment.available)
    (hlt : 0 < d.params.amount ∨ d.params.amount = d.payment.available)
    (hl : refundTotal d.payment.id w'.db.ledger =
      refundTotal d.payment.id w.db.ledger + d.params.amount)
    (hr : providerTotal d.payment.id w'.refunds =
      providerTotal d.payment.id w.refunds + d.params.amount)
    (hc : chargeAmounts d.payment.id w'.db.ledger = chargeAmounts d.payment.id w.db.ledger) :
    Accounted w' (d.apply d.payment) := by
  have hn : (ofNumber d.newRefundedAmount).toNumber = d.newRefundedAmount :=
    toNumber_ofNumber ((twoDecimals_toNumber _).add h₂)
  have h0 := h.nonneg
  simp only [Payment.available] at hle hlt
  have hnew : 0 < d.newRefundedAmount ∧ d.newRefundedAmount ≤ d.payment.amount.toNumber := by
    unfold newRefundedAmount
    constructor
    · rcases hlt with hlt | hlt <;> linarith
    · linarith
  have hfull : d.newStatus = .refunded ↔ d.newRefundedAmount = d.payment.amount.toNumber := by
    unfold newStatus isFullRefund
    constructor
    · intro hs
      by_contra hne
      have := lt_of_le_of_ne hnew.2 hne
      simp [not_le.mpr this] at hs
    · intro he
      simp [he]
  have hstatus : d.newStatus = .refunded ∨ d.newStatus = .partiallyRefunded := by
    unfold newStatus
    split <;> simp
  constructor <;> simp only [apply]
  · rw [hn]; exact hnew.1.le
  · rw [hn]; exact hnew.2
  · rw [hl, h.ledger, hn]; rfl
  · rw [hr, h.provider, hn]; rfl
  · rw [hc, h.charge]
  · rw [hfull]
    exact ⟨fun he => toNumber_injective (hn.trans he), fun he => by rw [← hn, he]⟩
  · rw [hn]
    constructor
    · intro hs
      refine ⟨hnew.1, lt_of_le_of_ne hnew.2 fun he => ?_⟩
      rw [hfull.mpr he] at hs
      cases hs
    · rintro ⟨-, hlt'⟩
      exact hstatus.resolve_left fun hs => hlt'.ne (hfull.mp hs)
  · rw [hn]
    constructor
    · intro hs
      rcases hstatus with he | he <;> simp [he] at hs
    · intro he
      exact absurd he hnew.1.ne'

theorem Sound.recorded {w : World} (hw : Sound w) {d : RefundDraft} (hd : d.payment ∈ w.db.payments)
    (hs : d.result.success = true) (h₂ : TwoDecimals d.params.amount)
    (hle : d.params.amount ≤ d.payment.available)
    (hlt : 0 < d.params.amount ∨ d.params.amount = d.payment.available) :
    Sound { w with
      db := d.recorded w.db
      refunds := w.refunds ++ [d.providerCall d.now d.result]
      fresh := w.fresh + 2 } where
  accounted p hp := by
    obtain ⟨q, hq, he⟩ := mem_update.mp hp
    by_cases hid : q.id = d.payment.id
    · obtain rfl : q = d.payment := List.inj_on_of_nodup_map hw.distinct hq hd hid
      simp only [if_true] at he
      rw [← he]
      refine RefundDraft.accounted (hw.accounted _ hq) (hw.positive _ hq) h₂ hle hlt ?_ ?_ ?_ <;>
        simp [RefundDraft.recorded, RefundDraft.append, RefundDraft.saveLedger,
          RefundDraft.updatePayment, refundTotal_append, providerTotal_append,
          chargeAmounts_append, RefundDraft.ledgerEntry, RefundAttempt.providerCall, hs,
          toNumber_ofNumber h₂]
    · simp only [hid, if_false] at he
      subst he
      refine (hw.accounted q hq).frame ?_ ?_ ?_ <;>
        simp [RefundDraft.recorded, RefundDraft.append, RefundDraft.saveLedger,
          RefundDraft.updatePayment, refundTotal_append, providerTotal_append,
          chargeAmounts_append, RefundDraft.ledgerEntry, RefundAttempt.providerCall, Ne.symm hid]
  positive p hp := by
    obtain ⟨q, hq, rfl⟩ := mem_update.mp hp
    have := hw.positive q hq
    split <;> exact this
  distinct := by
    have : ((d.recorded w.db).payments).map Payment.id = w.db.payments.map Payment.id :=
      map_update_of_eq Payment.id fun _ _ => rfl
    simpa only [this] using hw.distinct
  payments_lt p hp := by
    obtain ⟨q, hq, rfl⟩ := mem_update.mp hp
    have := Nat.lt_add_right 2 (hw.payments_lt q hq)
    split <;> exact this
  ledger_lt := forall_mem_concat (fun e he => Nat.lt_add_right _ (hw.ledger_lt e he))
    (Nat.lt_add_right _ (hw.payments_lt _ hd))
  refunds_lt := forall_mem_concat (fun r hr => Nat.lt_add_right _ (hw.refunds_lt r hr))
    (Nat.lt_add_right _ (hw.payments_lt _ hd))

theorem Sound.accepted {w : World} (hw : Sound w) {d : RefundDraft} (hd : d.payment ∈ w.db.payments)
    (hs : d.result.success = true) (h₂ : TwoDecimals d.params.amount)
    (hle : d.params.amount ≤ d.payment.available)
    (hlt : 0 < d.params.amount ∨ d.params.amount = d.payment.available) :
    Sound (w.refunded d none) := by
  simp only [World.refunded, RefundDraft.record_none hs]
  exact hw.recorded hd hs h₂ hle hlt

theorem Sound.charged {w : World} (hw : Sound w) {d : ChargeDraft} {amount : ℚ}
    (hid : d.paymentId = w.fresh) (h₂ : TwoDecimals amount) (hpos : 0 < amount)
    (charges : List ProviderCharge) :
    Sound { w with
      db := d.recorded amount w.db
      charges := charges
      fresh := w.fresh + 3 } where
  accounted p hp := by
    rcases List.mem_append.mp hp with h | h
    · have hne : w.fresh ≠ p.id := (hw.payments_lt p h).ne'
      refine (hw.accounted p h).frame ?_ rfl ?_ <;>
        simp [ChargeDraft.recorded, refundTotal_append, chargeAmounts_append,
          ChargeDraft.ledgerEntry, hid, hne]
    · simp only [List.mem_singleton] at h
      have hl : ∀ e ∈ w.db.ledger, e.paymentId ≠ w.fresh := fun e he => (hw.ledger_lt e he).ne
      have hr : ∀ r ∈ w.refunds, r.paymentId ≠ w.fresh := fun r hr => (hw.refunds_lt r hr).ne
      have ha : (ofNumber amount).toNumber = amount := toNumber_ofNumber h₂
      have hne : (⟨0⟩ : Numeric) ≠ ofNumber amount := fun he => by
        rw [← he, toNumber_mk_zero] at ha
        exact hpos.ne ha
      have hst : d.finalStatus = .processed ∨ d.finalStatus = .failed := by
        unfold ChargeDraft.finalStatus
        split <;> simp
      subst h
      constructor <;>
        simp only [ChargeDraft.payment, ChargeDraft.recorded, toNumber_mk_zero, ha, hid]
      · exact le_rfl
      · exact hpos.le
      · rw [refundTotal_append, refundTotal_fresh hl]
        simp [ChargeDraft.ledgerEntry]
      · exact providerTotal_fresh hr
      · rw [chargeAmounts_append, chargeAmounts_fresh hl]
        simp [ChargeDraft.ledgerEntry, hid]
      · rcases hst with h | h <;> simp [h, hne]
      · rcases hst with h | h <;> simp [h]
      · simp [hst]
  positive := forall_mem_concat hw.positive (by
    simpa [ChargeDraft.payment, toNumber_ofNumber h₂] using hpos)
  distinct := by
    apply nodup_map_concat hw.distinct
    intro p hp
    simpa [ChargeDraft.payment, hid] using (hw.payments_lt p hp).ne
  payments_lt := forall_mem_concat (fun p hp => Nat.lt_add_right _ (hw.payments_lt p hp))
    (by simp [ChargeDraft.payment, hid])
  ledger_lt := forall_mem_concat (fun e he => Nat.lt_add_right _ (hw.ledger_lt e he))
    (by simp [ChargeDraft.ledgerEntry, hid])
  refunds_lt r hr := Nat.lt_add_right _ (hw.refunds_lt r hr)

inductive Op
  | charge (params : ChargeParams) (env : Env)
  | requestRefund (params : RefundParams) (env : Env)
  | processInventoryReservationFailed (orderId correlationId : String) (env : Env)

namespace Op

def run (w : World) : Op → World
  | .charge params env => (PaymentService.charge w params env).1
  | .requestRefund params env => (PaymentService.requestRefund w params env).1
  | .processInventoryReservationFailed orderId correlationId env =>
    (PaymentService.processInventoryReservationFailed w orderId correlationId env).1

/--
Charges are of positive amounts with two decimals, refunds of given amounts with two
decimals, and no database step fails.
-/
def Admissible : Op → Prop
  | .charge params env =>
    (∃ amount, params.amount = some amount ∧ TwoDecimals amount ∧ 0 < amount) ∧ env.failAt = none
  | .requestRefund params env =>
    (∀ amount, params.amount = some amount → TwoDecimals amount) ∧ env.failAt = none
  | .processInventoryReservationFailed _ _ env => env.failAt = none

end Op

variable {w : World} {env : Env}

theorem twoDecimals_available (p : Payment) : TwoDecimals p.available :=
  (twoDecimals_toNumber _).sub (twoDecimals_toNumber _)

theorem charge_sound (hw : Sound w) {params : ChargeParams} {amount : ℚ}
    (ha : params.amount = some amount) (h₂ : TwoDecimals amount) (hpos : 0 < amount)
    (hf : env.failAt = none) : Sound (charge w params env).1 := by
  cases he : w.db.findExisting params.orderId (params.key env.now) with
  | some existing => simpa only [charge, he] using hw
  | none =>
    rw [charge_new he ha hf]
    exact hw.charged rfl h₂ hpos _

theorem executeRefund_sound (hw : Sound w) {params : ExecuteRefundParams}
    (h : ∀ p, w.db.findPayment params.paymentId = some p → TwoDecimals params.amount ∧
      params.amount ≤ p.available ∧ (0 < params.amount ∨ params.amount = p.available))
    (hf : env.failAt = none) : Sound (executeRefund w params env).1 := by
  unfold executeRefund
  cases ha : w.refundAttempt params with
  | error e => exact hw
  | ok a =>
    obtain ⟨hp, rfl, -⟩ := World.refundAttempt_ok ha
    obtain ⟨h₂, hle, hlt⟩ := h _ hp
    have hmem := (lookup_eq_some hp).1
    set d : RefundDraft := ⟨a, env.result, env.now⟩ with hd
    cases hs : d.result.success with
    | false => exact hw.declined hmem hs _
    | true =>
      rw [hf]
      exact hw.accepted hmem hs h₂ hle hlt

theorem requestRefund_sound (hw : Sound w) {params : RefundParams}
    (h₂ : ∀ amount, params.amount = some amount → TwoDecimals amount)
    (hf : env.failAt = none) : Sound (requestRefund w params env).1 := by
  unfold requestRefund
  cases h : w.admitRefund params with
  | error e => exact hw
  | ok p =>
    obtain ⟨payment, a, hp, ha, rfl⟩ := World.admitRefund_ok h
    obtain ⟨rfl, hpos, hle, -⟩ := refundAmount_ok ha
    apply executeRefund_sound hw _ hf
    intro q hq
    obtain rfl : payment = q := Option.some.inj (hp.symm.trans hq)
    refine ⟨?_, hle, Or.inl hpos⟩
    cases hamt : params.amount with
    | none => exact twoDecimals_available payment
    | some amount => exact h₂ amount hamt

theorem processInventoryReservationFailed_sound (hw : Sound w) {orderId correlationId : String}
    (hf : env.failAt = none) :
    Sound (processInventoryReservationFailed w orderId correlationId env).1 := by
  unfold processInventoryReservationFailed
  cases hp : w.db.findByOrder orderId with
  | none => exact hw
  | some payment =>
    have hl : w.db.findPayment payment.id = some payment :=
      lookup_of_mem hw.distinct (lookup_eq_some hp).1
    apply executeRefund_sound hw _ hf
    intro p hp'
    obtain rfl : payment = p := Option.some.inj (hl.symm.trans hp')
    exact ⟨twoDecimals_available payment, le_rfl, Or.inr rfl⟩

theorem Op.run_sound (hw : Sound w) {op : Op} (h : op.Admissible) : Sound (op.run w) := by
  cases op with
  | charge params env =>
    obtain ⟨⟨amount, ha, h₂, hpos⟩, hf⟩ := h
    exact charge_sound hw ha h₂ hpos hf
  | requestRefund params env => exact requestRefund_sound hw h.1 h.2
  | processInventoryReservationFailed orderId correlationId env =>
    exact processInventoryReservationFailed_sound hw h

theorem Op.runAll_sound {ops : List Op} (hw : Sound w) (h : ∀ op ∈ ops, op.Admissible) :
    Sound (ops.foldl Op.run w) := by
  induction ops generalizing w with
  | nil => exact hw
  | cons op ops ih =>
    exact ih (run_sound hw (h op List.mem_cons_self)) fun o ho => h o (List.mem_cons_of_mem _ ho)

/-- After any sequence of operations on empty tables, every payment is accounted for. -/
theorem payments_accounted (ops : List Op) (h : ∀ op ∈ ops, op.Admissible) :
    ∀ p ∈ (ops.foldl Op.run World.empty).db.payments, Accounted (ops.foldl Op.run World.empty) p :=
  (Op.runAll_sound sound_empty h).accounted

def sampleOps : List Op :=
  [.charge sampleCharge approved.env, .requestRefund ⟨0, some 40, none, none⟩ approved.env,
    .processInventoryReservationFailed "order-1" "corr-1" approved.env]

theorem sampleOps_accounted :
    (sampleOps.foldl Op.run World.empty).db.payments.map Payment.status = [.refunded] ∧
      ∀ p ∈ (sampleOps.foldl Op.run World.empty).db.payments,
        Accounted (sampleOps.foldl Op.run World.empty) p := by
  refine ⟨by decide +kernel, payments_accounted sampleOps fun op hop => ?_⟩
  simp only [sampleOps, List.mem_cons, List.not_mem_nil, or_false] at hop
  rcases hop with rfl | rfl | rfl
  · exact ⟨⟨100, rfl, ⟨⟨10000⟩, by norm_num [toNumber]⟩, by norm_num⟩, rfl⟩
  · exact ⟨fun amount ha => ⟨⟨4000⟩, by cases ha; norm_num [toNumber]⟩, rfl⟩
  · rfl

end PaymentService
