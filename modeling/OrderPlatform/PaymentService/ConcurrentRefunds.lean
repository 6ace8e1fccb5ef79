import OrderPlatform.PaymentService.Accounting

/-! # Concurrent refunds of one payment

Refund calls on one payment interleave at their two reads, the provider call and the
transaction. The transaction writes an absolute amount computed from the second read, so
the row stays in step with the provider exactly when no transaction finds the row changed
since that read and every transaction still finds its amount available.
-/

namespace PaymentService

open Runs Store Wire Numeric

def RefundCall.attempt : RefundCall → Option RefundAttempt
  | .refunding a => some a
  | .recording d => some d.toRefundAttempt
  | _ => none

def RefundCall.Reads (r : ℚ → Prop) (c : RefundCall) : Prop :=
  ∀ a, c.attempt = some a → r a.payment.refundedAmount.toNumber

/-- What the provider has paid back for the call and the database does not show yet. -/
def RefundCall.pending : RefundCall → ℚ
  | .recording d => d.params.amount
  | _ => 0

/--
A call about to write finds the refunded amount its own read returned, and its amount is
still available.
-/
def RefundCall.Current (w : World) : RefundCall → Prop
  | .recording d => ∃ row, w.db.findPayment d.payment.id = some row ∧
      row.refundedAmount = d.payment.refundedAmount ∧ d.params.amount ≤ row.available
  | _ => True

/-- The row shows what the provider has refunded, and that is within the payment's amount. -/
def RefundsSettled (w : World) (p : Payment) : Prop :=
  ∃ row, w.db.findPayment p.id = some row ∧
    row.refundedAmount.toNumber = providerTotal p.id w.refunds ∧
    providerTotal p.id w.refunds ≤ p.amount.toNumber

def RefundCall.On (p : Payment) : RefundCall → Prop
  | .requesting params =>
    params.paymentId = p.id ∧ ∀ amount, params.amount = some amount → TwoDecimals amount
  | .compensating _ _ => False
  | .executing e => e.paymentId = p.id ∧ TwoDecimals e.amount ∧ 0 < e.amount
  | .refunding a =>
    a.payment.id = p.id ∧ a.payment.amount = p.amount ∧ TwoDecimals a.params.amount ∧
      0 < a.params.amount
  | .recording d =>
    d.payment.id = p.id ∧ d.payment.amount = p.amount ∧ TwoDecimals d.params.amount ∧
      0 < d.params.amount ∧ d.result.success = true
  | .returned _ | .threw _ => True

/-- A step that leaves the payments table alone and pays back nothing it does not keep pending. -/
structure RefundCall.Quiet (p : Payment) (w w' : World) (c c' : RefundCall) : Prop where
  payments : w'.db.payments = w.db.payments
  paid : providerTotal p.id w'.refunds - c'.pending = providerTotal p.id w.refunds - c.pending
  on : c'.On p
  current : c.Current w
  attempt : ∀ a, c'.attempt = some a → c.attempt = some a ∨ w.db.findPayment p.id = some a.payment

variable {p : Payment} {w w' : World} {c c' : RefundCall} {env : Env}

/-- A step of a refund is quiet, or it is the transaction of an accepted refund. -/
theorem refundStep_cases (hc : c.On p) (hp : ∀ row, w.db.findPayment p.id = some row →
      row.amount = p.amount) (hf : env.failAt = none)
    (h : refundStep w c env = some (w', c')) :
    RefundCall.Quiet p w w' c c' ∨
      ∃ d row, c = .recording d ∧ w' = { w with db := d.recorded w.db } ∧ c' = .returned row := by
  cases c with
  | requesting params =>
    left
    simp only [refundStep] at h
    cases hadm : w.admitRefund params with
    | error e =>
      simp only [hadm, Option.some.injEq, Prod.mk.injEq] at h
      obtain ⟨rfl, rfl⟩ := h
      exact ⟨rfl, rfl, trivial, trivial, by simp [RefundCall.attempt]⟩
    | ok e =>
      simp only [hadm, Option.some.injEq, Prod.mk.injEq] at h
      obtain ⟨rfl, rfl⟩ := h
      obtain ⟨payment, a, _, ha, rfl⟩ := World.admitRefund_ok hadm
      obtain ⟨rfl, hpos, -, -⟩ := refundAmount_ok ha
      refine ⟨rfl, rfl, ⟨hc.1, ?_, hpos⟩, trivial, by simp [RefundCall.attempt]⟩
      cases hamt : params.amount with
      | none => exact twoDecimals_available payment
      | some amount => exact hc.2 amount hamt
  | compensating orderId correlationId => exact hc.elim
  | executing e =>
    left
    simp only [refundStep] at h
    cases ha : w.refundAttempt e with
    | error e =>
      simp only [ha, Option.some.injEq, Prod.mk.injEq] at h
      obtain ⟨rfl, rfl⟩ := h
      exact ⟨rfl, rfl, trivial, trivial, by simp [RefundCall.attempt]⟩
    | ok a =>
      simp only [ha, Option.some.injEq, Prod.mk.injEq] at h
      obtain ⟨rfl, rfl⟩ := h
      obtain ⟨hrow, rfl, -⟩ := World.refundAttempt_ok ha
      rw [hc.1] at hrow
      refine ⟨rfl, rfl, ⟨(lookup_eq_some hrow).2, hp _ hrow, hc.2.1, hc.2.2⟩, trivial, ?_⟩
      rintro b hb
      cases hb
      exact Or.inr hrow
  | refunding a =>
    left
    simp only [refundStep, Option.some.injEq, Prod.mk.injEq] at h
    obtain ⟨rfl, rfl⟩ := h
    obtain ⟨hid, hamt, h₂, hpos⟩ := hc
    cases hs : env.result.success with
    | false =>
      refine ⟨rfl, ?_, trivial, trivial, by simp [RefundCall.attempt]⟩
      simp [providerTotal_append, RefundAttempt.providerCall, hs, RefundCall.pending]
    | true =>
      refine ⟨rfl, ?_, ⟨hid, hamt, h₂, hpos, hs⟩, trivial, ?_⟩
      · simp [providerTotal_append, RefundAttempt.providerCall, hs, RefundCall.pending, hid]
      · intro b hb
        exact Or.inl hb
  | recording d =>
    right
    simp only [refundStep, hf, RefundDraft.record_none hc.2.2.2.2, Option.some.injEq,
      Prod.mk.injEq, RefundCall.ended] at h
    obtain ⟨rfl, rfl⟩ := h
    exact ⟨d, _, rfl, rfl, rfl⟩
  | returned row => simp [refundStep] at h
  | threw e => simp [refundStep] at h

def refundStepOk : Machine World RefundCall Answer := fun w c x => refundStep w c x.env

section Pool

variable {ι : Type} [Fintype ι] {q q' : Pool World RefundCall ι}

def recordedTotal (p : Payment) (q : Pool World RefundCall ι) : ℚ :=
  providerTotal p.id q.store.refunds - ∑ i, (q.calls i).pending

def Reads (r : ℚ → Prop) (p : Payment) (q : Pool World RefundCall ι) : Prop :=
  (∀ row, q.store.db.findPayment p.id = some row → r row.refundedAmount.toNumber) ∧
    ∀ i, (q.calls i).Reads r

structure OnPayment (p : Payment) (q : Pool World RefundCall ι) : Prop where
  row : ∃ row, q.store.db.findPayment p.id = some row ∧ row.amount = p.amount
  on : ∀ i, (q.calls i).On p
  reads : Reads (· ≤ recordedTotal p q) p q

/-- The row equals what the transactions have refunded, within the payment's amount. -/
structure InStep (p : Payment) (q : Pool World RefundCall ι) : Prop extends OnPayment p q where
  settled : ∀ row, q.store.db.findPayment p.id = some row →
    row.refundedAmount.toNumber = recordedTotal p q
  le_amount : recordedTotal p q ≤ p.amount.toNumber

/-- The row lags behind what the transactions have refunded, or they refunded too much. -/
structure OutOfStep (p : Payment) (q : Pool World RefundCall ι) : Prop extends OnPayment p q where
  missed : Reads (· < recordedTotal p q) p q ∨ p.amount.toNumber < recordedTotal p q

theorem recordedTotal_of_finished (hf : ∀ i, (q.calls i).finished = true) :
    recordedTotal p q = providerTotal p.id q.store.refunds := by
  have hz : ∀ i, (q.calls i).pending = 0 := fun i => by
    have := hf i
    cases hc : q.calls i <;> simp [hc, RefundCall.finished, RefundCall.pending] at this ⊢
  simp [recordedTotal, hz]

theorem InStep.settled_of_finished (hq : InStep p q) (hf : ∀ i, (q.calls i).finished = true) :
    RefundsSettled q.store p := by
  obtain ⟨row, hrow, -⟩ := hq.row
  rw [RefundsSettled, ← recordedTotal_of_finished hf]
  exact ⟨row, hrow, hq.settled row hrow, hq.le_amount⟩

theorem OutOfStep.not_settled (hq : OutOfStep p q) (hf : ∀ i, (q.calls i).finished = true) :
    ¬ RefundsSettled q.store p := by
  rintro ⟨row, hrow, heq, hle⟩
  rw [← recordedTotal_of_finished hf] at heq hle
  rcases hq.missed with hm | hlt
  · exact (hm.1 row hrow).ne heq
  · exact hlt.not_ge hle

theorem inStep_requesting {refunds : ι → RefundParams}
    (hrow : w.db.findPayment p.id = some p) (hzero : p.refundedAmount = ⟨0⟩)
    (hnonneg : 0 ≤ p.amount.toNumber) (htotal : providerTotal p.id w.refunds = 0)
    (hid : ∀ i, (refunds i).paymentId = p.id)
    (h₂ : ∀ i a, (refunds i).amount = some a → TwoDecimals a) :
    InStep p ⟨w, fun i => .requesting (refunds i)⟩ := by
  have ht : recordedTotal p ⟨w, fun i => .requesting (refunds i)⟩ = 0 := by
    simp [recordedTotal, RefundCall.pending, htotal]
  have hset : ∀ row, w.db.findPayment p.id = some row → row.refundedAmount.toNumber = 0 := by
    rintro row hrow'
    obtain rfl : p = row := Option.some.inj (hrow.symm.trans hrow')
    simp [hzero]
  refine ⟨⟨⟨p, hrow, rfl⟩, fun i => ⟨hid i, h₂ i⟩, ⟨fun row hr => ?_, fun i b hb => ?_⟩⟩, ?_, ?_⟩
  · rw [ht]
    exact (hset row hr).le
  · cases hb
  · rw [ht]
    exact hset
  · rw [ht]
    exact hnonneg

variable [DecidableEq ι] {a : ι × Answer}

/--
A step either changes nothing the reads depend on, or is the transaction of one refund,
which adds its amount to the total and sets the row to its own sum.
-/
theorem act_cases (hq : OnPayment p q) (h : q.act refundStepOk a = some q') :
    ((q.calls a.1).Current q.store ∧ (∀ i, (q'.calls i).On p) ∧
      q'.store.db.findPayment p.id = q.store.db.findPayment p.id ∧
      recordedTotal p q' = recordedTotal p q ∧ ∀ r, Reads r p q → Reads r p q') ∨
    ∃ d, q.calls a.1 = .recording d ∧ (∀ i, (q'.calls i).On p) ∧
      q'.store.db.findPayment p.id = (q.store.db.findPayment p.id).map d.apply ∧
      recordedTotal p q' = recordedTotal p q + d.params.amount ∧
      ∀ r r' : ℚ → Prop, (∀ x, r x → r' x) → r' d.newRefundedAmount →
        Reads r p q → Reads r' p q' := by
  obtain ⟨w', c', hM, rfl⟩ := Pool.act_eq_some.mp h
  obtain ⟨row, hrow, hamt⟩ := hq.row
  have hp : ∀ row', q.store.db.findPayment p.id = some row' → row'.amount = p.amount := by
    rintro row' h'
    rw [hrow] at h'
    cases h'
    exact hamt
  rcases refundStep_cases (hq.on a.1) hp a.2.failAt_env hM with hs | ⟨d, row', hd, rfl, rfl⟩
  · left
    have hfind : w'.db.findPayment p.id = q.store.db.findPayment p.id := by
      simp only [Db.findPayment, hs.payments]
    refine ⟨hs.current, forall_update hs.on hq.on, hfind, ?_, fun r hr => ⟨fun row hrow => ?_, ?_⟩⟩
    · have := hs.paid
      simp only [recordedTotal, sum_update RefundCall.pending]
      linarith
    · exact hr.1 row (hfind ▸ hrow)
    · refine forall_update (fun b hb => ?_) hr.2
      rcases hs.attempt b hb with hb | hb
      · exact hr.2 a.1 b hb
      · exact hr.1 _ hb
  · right
    have hd' := hq.on a.1
    rw [hd] at hd'
    have hfind : (d.recorded q.store.db).findPayment p.id =
        (q.store.db.findPayment p.id).map d.apply := by
      have hl : lookup Payment.id d.payment.id (d.recorded q.store.db).payments =
          (lookup Payment.id d.payment.id q.store.db.payments).map d.apply :=
        lookup_update_self fun _ => rfl
      rw [hd'.1] at hl
      exact hd'.1 ▸ hl
    refine ⟨d, hd, forall_update trivial hq.on, hfind, ?_, fun r r' hrr hr' hr => ⟨?_, ?_⟩⟩
    · have hc : (q.calls a.1).pending = d.params.amount := by rw [hd]; rfl
      simp only [recordedTotal, sum_update RefundCall.pending, hc]
      simp only [RefundCall.pending]
      ring
    · rintro row hrow
      rw [hfind, Option.map_eq_some_iff] at hrow
      obtain ⟨_, _, rfl⟩ := hrow
      have hn : (ofNumber d.newRefundedAmount).toNumber = d.newRefundedAmount :=
        toNumber_ofNumber ((twoDecimals_toNumber _).add hd'.2.2.1)
      show r' (ofNumber d.newRefundedAmount).toNumber
      rw [hn]
      exact hr'
    · exact forall_update (by simp [RefundCall.Reads, RefundCall.attempt])
        fun j b hb => hrr _ (hr.2 j b hb)

/-- The row is rewritten by a transaction and otherwise left alone, keeping its amount. -/
theorem row_of_map {d : RefundDraft} {r : Option Payment}
    (h : ∃ row, r = some row ∧ row.amount = p.amount) :
    ∃ row, r.map d.apply = some row ∧ row.amount = p.amount := by
  obtain ⟨row, rfl, hamt⟩ := h
  exact ⟨_, rfl, hamt⟩

theorem InStep.act (hq : InStep p q) (hC : (q.calls a.1).Current q.store)
    (h : q.act refundStepOk a = some q') : InStep p q' := by
  rcases act_cases hq.toOnPayment h with ⟨-, hon, hfind, ht, hr⟩ | ⟨d, hd, hon, hfind, ht, hr⟩
  · refine ⟨⟨hfind ▸ hq.row, hon, ht ▸ hr _ hq.reads⟩, fun row hrow => ?_, ht ▸ hq.le_amount⟩
    rw [ht]
    exact hq.settled row (hfind ▸ hrow)
  · have hd' := hq.on a.1
    rw [hd] at hC hd'
    obtain ⟨row, hrow, heq, hle⟩ := hC
    obtain ⟨hid, -, h₂, hpos, -⟩ := hd'
    rw [hid] at hrow
    have hset := hq.settled row hrow
    have hnew : d.newRefundedAmount = recordedTotal p q' := by
      rw [ht, ← hset, heq]
      rfl
    refine ⟨⟨hfind ▸ row_of_map hq.row, hon, ?_⟩, fun row' hrow' => ?_, ?_⟩
    · refine hr _ _ (fun x hx => ?_) hnew.le hq.reads
      simp only [ht]
      linarith
    · rw [hfind, hrow] at hrow'
      cases hrow'
      rw [← hnew]
      exact toNumber_ofNumber ((twoDecimals_toNumber _).add h₂)
    · obtain ⟨row', hrow', hamt⟩ := hq.row
      obtain rfl : row = row' := Option.some.inj (hrow.symm.trans hrow')
      simp only [Payment.available, hset, hamt] at hle
      linarith

theorem InStep.outOfStep (hq : InStep p q) (hC : ¬ (q.calls a.1).Current q.store)
    (h : q.act refundStepOk a = some q') : OutOfStep p q' := by
  rcases act_cases hq.toOnPayment h with ⟨hcur, -⟩ | ⟨d, hd, hon, hfind, ht, hr⟩
  · exact absurd hcur hC
  · have hd' := hq.on a.1
    have hread := hq.reads.2 a.1 d.toRefundAttempt (by rw [hd]; rfl)
    rw [hd] at hC hd'
    obtain ⟨hid, -, h₂, hpos, -⟩ := hd'
    have hn : d.newRefundedAmount ≤ recordedTotal p q' := by
      rw [ht]
      exact add_le_add hread le_rfl
    refine ⟨⟨hfind ▸ row_of_map hq.row, hon, ?_⟩, ?_⟩
    · refine hr _ _ (fun x hx => ?_) hn hq.reads
      simp only [ht]
      linarith
    · obtain ⟨row, hrow, hamt⟩ := hq.row
      have hset := hq.settled row hrow
      by_cases heq : row.refundedAmount = d.payment.refundedAmount
      · right
        have hlt : ¬ d.params.amount ≤ row.available := fun hle =>
          hC ⟨row, hid ▸ hrow, heq, hle⟩
        simp only [Payment.available, hset, hamt] at hlt
        linarith
      · left
        have hlt : d.payment.refundedAmount.toNumber < recordedTotal p q :=
          lt_of_le_of_ne hread fun he => heq (toNumber_injective (hset.trans he.symm))
        refine hr _ _ (fun x hx => ?_) ?_ hq.reads
        · simp only [ht]
          linarith
        · simp only [ht]
          exact add_lt_add_left hlt _

/-- Out of step, every later refund starts from an amount that is too small. -/
theorem OutOfStep.act (hq : OutOfStep p q) (h : q.act refundStepOk a = some q') :
    OutOfStep p q' := by
  rcases act_cases hq.toOnPayment h with ⟨-, hon, hfind, ht, hr⟩ | ⟨d, hd, hon, hfind, ht, hr⟩
  · exact ⟨⟨hfind ▸ hq.row, hon, ht ▸ hr _ hq.reads⟩, ht ▸ hq.missed.imp (hr _) id⟩
  · have hd' := hq.on a.1
    have hatt : (q.calls a.1).attempt = some d.toRefundAttempt := by rw [hd]; rfl
    rw [hd] at hd'
    have hpos := hd'.2.2.2.1
    have hle := hq.reads.2 a.1 _ hatt
    refine ⟨⟨hfind ▸ row_of_map hq.row, hon, ?_⟩, hq.missed.imp (fun hm => ?_) fun hlt => ?_⟩
    · refine hr _ _ (fun x hx => ?_) ?_ hq.reads
      · simp only [ht]
        linarith
      · rw [ht]
        exact add_le_add hle le_rfl
    · have hlt := hm.2 a.1 _ hatt
      refine hr _ _ (fun x hx => ?_) ?_ hm
      · simp only [ht]
        linarith
      · simp only [ht]
        exact add_lt_add_left hlt _
    · linarith

end Pool

theorem charge_created {w₀ : World} {params : ChargeParams} {amount : ℚ} (hw : Drawn w₀)
    (hnew : w₀.db.findExisting params.orderId (params.key env.now) = none)
    (ha : params.amount = some amount) (hpos : 0 < amount) (hf : env.failAt = none)
    (hp : charge w₀ params env = (w, .ok p)) :
    w.db.findPayment p.id = some p ∧ p.refundedAmount = ⟨0⟩ ∧ 0 ≤ p.amount.toNumber ∧
      providerTotal p.id w.refunds = 0 := by
  rw [charge_new hnew ha hf, Prod.mk.injEq, Except.ok.injEq] at hp
  obtain ⟨rfl, rfl⟩ := hp
  refine ⟨?_, rfl, toNumber_ofNumber_nonneg hpos.le, ?_⟩
  · have hn : w₀.db.findPayment w₀.fresh = none :=
      lookup_eq_none.mpr fun q hq => (hw.payments_lt q hq).ne
    simp only [Db.findPayment] at hn ⊢
    simp [ChargeDraft.recorded, lookup_append, ChargeDraft.payment, World.chargeAttempt, hn]
  · exact providerTotal_fresh fun r hr => (hw.refunds_lt r hr).ne

instance (w : World) (p : Payment) : Decidable (RefundsSettled w p) :=
  inferInstanceAs (Decidable (∃ row, row ∈ w.db.findPayment p.id ∧ _ ∧ _))

def samplePayment : Payment := sampleDraft.payment 100

def twoRefunds (amount : Bool → Option ℚ) : Pool World RefundCall Bool where
  store := (charge World.empty sampleCharge approved.env).1
  calls i := .requesting ⟨samplePayment.id, amount i, none, none⟩

/-- Both calls read the row before either of them writes it. -/
def inTurns : List (Bool × Answer) :=
  (List.replicate 4 [(true, approved), (false, approved)]).flatten

def oneByOne : List (Bool × Answer) :=
  List.replicate 4 (true, approved) ++ List.replicate 4 (false, approved)

theorem charge_sample (amount : Bool → Option ℚ) :
    charge World.empty sampleCharge approved.env = ((twoRefunds amount).store, .ok samplePayment) :=
  charge_new rfl rfl rfl

def sixtyForty (i : Bool) : Option ℚ := if i then some 60 else some 40

end PaymentService
