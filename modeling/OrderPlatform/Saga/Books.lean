import Mathlib.Algebra.Order.BigOperators.Group.Finset
import OrderPlatform.PaymentService.ConcurrentCharges
import OrderPlatform.Saga.OrderPayments

/-! # The books of the payment service

Refunds that overlap can lose one another's amounts in the payments table. The ledger loses
nothing and makes nothing up: its charges are the payments, and its refunds are among those that
were announced, which in turn are among those that the provider carried out. The refunds of two
payments can be announced in one order and booked in the other; what is compared is how often
each amount of a payment occurs.
-/

namespace Saga

open Runs Store Wire
open PaymentService (Payment LedgerEntryType ChargeCall ChargeDraft ProviderCharge RefundStage
  RefundDraft Env chargeStep chargeStep_effect refundStatement refundStatement_effect)

/-- The amounts of the ledger's entries of one type, by payment. -/
def booked (w : PaymentService.World) (type : LedgerEntryType) : List (Uuid × Numeric) :=
  (w.db.ledger.filter fun e => e.type = type).map fun e => (e.paymentId, e.amount)

/-- The amount a row of the outbox announces as refunded, by payment. -/
def refundOf (row : PaymentService.Outbox) : Option (Uuid × Numeric) :=
  if row.eventType = .refundIssued then
    match row.payload.member "refundAmount" with
    | .ok (some (.num amount)) => some (row.aggregateId, .ofNumber amount)
    | _ => none
  else none

/-- The amounts the provider has refunded, by payment. -/
def refunded (w : PaymentService.World) : List (Uuid × Numeric) :=
  (w.refunds.filter fun r => r.result.success).map fun r => (r.paymentId, .ofNumber r.amount)

/-- The provider was asked for this payment, and answered what it tells. -/
structure Backs (c : ProviderCharge) (p : Payment) : Prop where
  order : p.orderId = c.orderId
  amount : c.amount.map Numeric.ofNumber = some p.amount
  currency : p.currency = c.currency
  transaction : p.providerTransactionId = some c.result.providerTransactionId
  provider : p.provider = some c.result.provider

/-- The event of a charge of the payment, with the outcome that the provider gave. -/
def Announces (row : PaymentService.Outbox) (c : ProviderCharge) (p : Payment) : Prop :=
  row.aggregateId = p.id ∧
    row.eventType = if c.result.success then .paymentSucceeded else .paymentFailed

structure Booked (w : PaymentService.World) : Prop where
  charges : booked w .charge = w.db.payments.map fun p => (p.id, p.amount)
  backed : ∀ p ∈ w.db.payments, ∃ c ∈ w.charges, Backs c p ∧ ∃ row ∈ w.db.outbox, Announces row c p

/-- What a charge holds was answered by the provider, and announced before its commit. -/
def ChargeCall.Answered (w : PaymentService.World) : ChargeCall → Prop
  | .saving d | .entering d _ | .appending d _ => d.providerCall d.result ∈ w.charges
  | .committing d _ => d.providerCall d.result ∈ w.charges ∧ d.outboxRow ∈ w.db.outbox
  | _ => True

/-- The amount and the draft of a transaction agree. -/
def ChargeCall.Priced : ChargeCall → Prop
  | .entering d amount | .appending d amount | .committing d amount => d.params.amount = some amount
  | _ => True

section Store

variable {w w' : PaymentService.World} {x : Env}

theorem ChargeCall.Answered.kept {c : ChargeCall} (h : ChargeCall.Answered w c)
    (hk : PaymentsKept w w') : ChargeCall.Answered w' c := by
  cases c with
  | saving | entering | appending => exact hk.charges _ h
  | committing => exact ⟨hk.charges _ h.1, hk.events _ h.2⟩
  | looking | charging | returned | threw => trivial

/-- What is kept of the calls and the events backs the payments that were there. -/
theorem Booked.of_kept (hw : Booked w) (hk : PaymentsKept w w')
    (hl : w'.db.ledger = w.db.ledger) (hp : w'.db.payments = w.db.payments) : Booked w' where
  charges := by
    unfold booked
    rw [hl, hp]
    exact hw.charges
  backed p hm := by
    obtain ⟨c, hc, hb, row, hrow, ha⟩ := hw.backed p (hp ▸ hm)
    exact ⟨c, hk.charges _ hc, hb, row, hk.events _ hrow, ha⟩

theorem refundOf_charge (d : ChargeDraft) : refundOf d.outboxRow = none := by
  have ht : d.outboxRow.eventType ≠ .refundIssued := by
    show d.outboxEventType ≠ _
    unfold ChargeDraft.outboxEventType
    split <;> decide
  exact if_neg ht

theorem refundOf_refund (d : RefundDraft) :
    refundOf d.outboxRow = some (d.payment.id, .ofNumber d.params.amount) := by
  simp [refundOf, RefundDraft.outboxRow, PaymentService.Outbox.append, Json.object, Json.member]

theorem backs_draft {d : ChargeDraft} {amount : ℚ} (ha : d.params.amount = some amount) :
    Backs (d.providerCall d.result) (d.payment amount) := by
  refine ⟨rfl, ?_, rfl, rfl, rfl⟩
  show d.params.amount.map Numeric.ofNumber = _
  rw [ha]
  rfl

/-- The commit of a charge books what its row holds. -/
theorem booked_commit {d : ChargeDraft} {amount : ℚ} (hw : Booked w)
    (ha : d.params.amount = some amount) (hc : d.providerCall d.result ∈ w.charges)
    (hrow : d.outboxRow ∈ w.db.outbox) :
    Booked (w.commit (d.payment amount) (d.ledgerEntry amount)) where
  charges := by
    have hcharges := hw.charges
    unfold booked at hcharges ⊢
    simp only [PaymentService.World.commit, List.filter_append, List.map_append, hcharges]
    rfl
  backed := forall_mem_concat hw.backed ⟨_, hc, backs_draft ha, _, hrow, rfl, rfl⟩

theorem booked_charge {c c' : ChargeCall} (h : chargeStep w c x = some (w', c')) (hw : Booked w)
    (hc : ChargeCall.Answered w c ∧ ChargeCall.Priced c) :
    Booked w' ∧ ChargeCall.Answered w' c' ∧ ChargeCall.Priced c' := by
  have hk := paymentsKept_charge h
  have he := chargeStep_effect h
  cases he with
  | found | refused => exact ⟨hw, trivial, trivial⟩
  | draw params => exact ⟨hw.of_kept hk rfl rfl, trivial, trivial⟩
  | call a =>
    refine ⟨hw.of_kept hk rfl rfl, ?_, trivial⟩
    exact List.mem_append_right _ (List.mem_singleton_self _)
  | insert d amount free =>
    exact ⟨hw.of_kept hk rfl rfl, hc.1, amount_of_saving h⟩
  | enter d amount => exact ⟨hw, hc⟩
  | append d amount =>
    refine ⟨hw.of_kept hk rfl rfl, ⟨hc.1, ?_⟩, hc.2⟩
    exact List.mem_append_right _ (List.mem_singleton_self _)
  | commit d amount => exact ⟨booked_commit hw hc.2 hc.1.1 hc.1.2, trivial, trivial⟩
  | rollback c p hins => exact ⟨hw.of_kept hk rfl rfl, trivial, trivial⟩

/-- A refund leaves what a payment is for and who charged it. -/
theorem Backs.apply {c : ProviderCharge} {p : Payment} (h : Backs c p) (d : RefundDraft) :
    Backs c (d.apply p) :=
  ⟨h.order, h.amount, h.currency, h.transaction, h.provider⟩

/-- The commit of a refund books neither a charge nor a payment. -/
theorem booked_refunded {d : RefundDraft} (hw : Booked w) :
    Booked { w with db := d.commit w.db } where
  charges := by
    have hsame : (update Payment.id d.payment.id d.apply w.db.payments).map
        (fun p => (p.id, p.amount)) = w.db.payments.map fun p => (p.id, p.amount) :=
      map_update_of_eq _ fun _ _ => rfl
    have hcharges := hw.charges
    unfold booked at hcharges ⊢
    simp only [RefundDraft.commit, RefundDraft.saveLedger, RefundDraft.updatePayment, hsame,
      List.filter_append, List.map_append, hcharges]
    simp [RefundDraft.ledgerEntry]
  backed p hp := by
    obtain ⟨p', hp', rfl⟩ := mem_update.mp hp
    obtain ⟨c, hc, hb, row, hrow, ha, ht⟩ := hw.backed p' hp'
    refine ⟨c, hc, ?_, row, hrow, ?_, ht⟩
    · split
      · exact hb.apply d
      · exact hb
    · split <;> exact ha

theorem booked_refund {c c' : RefundStage} (h : refundStatement w c x = some (w', c'))
    (hw : Booked w) : Booked w' := by
  have hk := paymentsKept_refund h
  cases refundStatement_effect h with
  | commit => exact booked_refunded hw
  | draw | call | decline | append => exact hw.of_kept hk rfl rfl
  | _ => exact hw

end Store

section Network

variable {isUuid : String → Bool} {n n' : Network} {q q' : Party}

def Party.Booking (n : Network) : Party → Prop
  | .charging (some c) => ChargeCall.Answered n.payments c ∧ ChargeCall.Priced c
  | _ => True

theorem Party.Booking.kept (h : q.Booking n) (hk : n.Kept n') : q.Booking n' := by
  unfold Party.Booking at h ⊢
  split at h
  · exact ⟨h.1.kept hk.payments, h.2⟩
  · trivial

theorem Party.Starts.booking (h : q.Starts) : q.Booking n := by
  cases h <;> trivial

theorem booking_live {c : ChargeCall} (h : ChargeCall.Answered n.payments c ∧ ChargeCall.Priced c) :
    (Party.charging (ChargeCall.live c)).Booking n := by
  cases hc : ChargeCall.live c with
  | none => trivial
  | some c' => exact live_eq hc ▸ h

theorem booked_abandoned {c : ChargeCall} (hw : Booked n.payments) :
    Booked (n.abandon c).payments := by
  unfold Network.abandon
  split
  · exact hw.of_kept ⟨fun _ h => h, fun _ h => h⟩ rfl rfl
  · exact hw

theorem NetworkEffect.booked (hw : Booked n.payments) (hq : q.Booking n)
    (h : NetworkEffect isUuid n q n' q') : Booked n'.payments ∧ q'.Booking n' := by
  cases h with
  | receive m k partition now n' c hm h =>
    rw [receive_redis h]
    refine ⟨hw, ?_⟩
    cases c with
    | none => trivial
    | some c =>
      obtain ⟨params, rfl⟩ := receive_looking h
      exact ⟨trivial, trivial⟩
  | charge c c' x w h =>
    obtain ⟨hw', hc'⟩ := booked_charge h hw hq
    exact ⟨hw', booking_live hc'⟩
  | abandon c => exact ⟨booked_abandoned hw, trivial⟩
  | refund c c' x w h => exact ⟨booked_refund h hw, trivial⟩
  | _ => exact ⟨hw, trivial⟩

end Network

section Counting

variable {isUuid : String → Bool} {n n' : Network} {q q' : Party}

def Network.announced (n : Network) : List (Uuid × Numeric) :=
  n.payments.db.outbox.filterMap refundOf

/-- The payment and the amount of a refund. -/
def refundEntry (d : RefundDraft) : Uuid × Numeric := (d.payment.id, .ofNumber d.params.amount)

/-- One for a refund that the provider has carried out and the call has not announced yet. -/
def Party.owes (k : Uuid × Numeric) : Party → ℤ
  | .refunding (.outside (.recording d)) => if refundEntry d = k then 1 else 0
  | .refunding (.entering d) => if refundEntry d = k then 1 else 0
  | .refunding (.appending d) => if refundEntry d = k then 1 else 0
  | _ => 0

/-- One for a refund that is announced and not committed yet. -/
def Party.unbooked (k : Uuid × Numeric) : Party → ℤ
  | .refunding (.committing d) => if refundEntry d = k then 1 else 0
  | _ => 0

theorem Party.owes_nonneg (k : Uuid × Numeric) (q : Party) : 0 ≤ q.owes k := by
  unfold Party.owes
  split
  · split <;> decide
  · split <;> decide
  · split <;> decide
  · exact le_rfl

theorem Party.unbooked_nonneg (k : Uuid × Numeric) (q : Party) : 0 ≤ q.unbooked k := by
  unfold Party.unbooked
  split
  · split <;> decide
  · exact le_rfl

theorem Party.owes_ended (k : Uuid × Numeric) (r : Except Thrown (Option Payment)) :
    (Party.refunding (.outside (.ended r))).owes k = 0 := by
  cases r <;> rfl

theorem Party.unbooked_ended (k : Uuid × Numeric)
    (r : Except Thrown (Option Payment)) :
    (Party.refunding (.outside (.ended r))).unbooked k = 0 := by
  cases r <;> rfl

/--
What one list holds another holds, when every step that adds to the first takes from what the
parties have pending, and only what is added to the second becomes pending.
-/
theorem subperm_of_pending {Id : Type} [DecidableEq Id] [Fintype Id]
    {f g : Network → List (Uuid × Numeric)} {pending : Uuid × Numeric → Party → ℤ}
    (hnonneg : ∀ k q, 0 ≤ pending k q)
    (hstarts : ∀ k q, q.Starts → pending k q = 0) (hempty : f .empty = [])
    (hstep : ∀ k n q n' q', NetworkEffect isUuid n q n' q' →
      ((f n').count k : ℤ) + pending k q' + (g n).count k ≤
        (f n).count k + pending k q + (g n').count k)
    {parties : Id → Party} (hparties : ∀ i, (parties i).Starts) {inputs : List (Id × Stimulus)}
    {q : Pool Network Party Id}
    (h : exec (Pool.act (networkStep isUuid)) ⟨.empty, parties⟩ inputs = some q) :
    (f q.store).Subperm (g q.store) := by
  rw [List.subperm_ext_iff]
  intro k _
  have hrun := exec_invariant (I := fun p : Pool Network Party Id =>
    ((f p.store).count k : ℤ) + ∑ i, pending k (p.calls i) ≤ (g p.store).count k)
    (fun p a p' hp hact => ?_) ?_ h
  · have hpos : 0 ≤ ∑ i, pending k (q.calls i) := Finset.sum_nonneg fun i _ => hnonneg k _
    have hle : ((f q.store).count k : ℤ) ≤ (g q.store).count k := by linarith
    exact_mod_cast hle
  · obtain ⟨n', q', hact', rfl⟩ := Pool.act_eq_some.mp hact
    have hcount := hstep k _ _ _ _ (networkStep_effect hact')
    rw [sum_update (pending k)]
    linarith
  · have hzero : ∑ i, pending k (parties i) = 0 :=
      Finset.sum_eq_zero fun i _ => hstarts k _ (hparties i)
    simp [hzero, hempty]

theorem charge_books {w w' : PaymentService.World} {c c' : ChargeCall} {x : Env}
    (h : chargeStep w c x = some (w', c')) :
    w'.db.outbox.filterMap refundOf = w.db.outbox.filterMap refundOf ∧
      refunded w' = refunded w ∧ booked w' .refund = booked w .refund := by
  cases chargeStep_effect h with
  | append d amount =>
    refine ⟨?_, rfl, rfl⟩
    simp [ChargeDraft.append, List.filterMap_append, refundOf_charge]
  | commit d amount =>
    refine ⟨rfl, rfl, ?_⟩
    simp [booked, PaymentService.World.commit, ChargeDraft.ledgerEntry]
  | _ => exact ⟨rfl, rfl, rfl⟩

theorem count_announced (k : Uuid × Numeric) {w : PaymentService.World} {d : RefundDraft} :
    ((d.append w.db).outbox.filterMap refundOf).count k =
      (w.db.outbox.filterMap refundOf).count k + if refundEntry d = k then 1 else 0 := by
  have hrow : [d.outboxRow].filterMap refundOf = [refundEntry d] := by
    simp [refundOf_refund, refundEntry]
  rw [RefundDraft.append, List.filterMap_append, List.count_append, hrow, List.count_singleton]
  simp

theorem count_booked (k : Uuid × Numeric) {w : PaymentService.World} {d : RefundDraft} :
    (booked { w with db := d.commit w.db } .refund).count k =
      (booked w .refund).count k + if refundEntry d = k then 1 else 0 := by
  have hentries : booked { w with db := d.commit w.db } .refund =
      booked w .refund ++ [refundEntry d] := by
    simp [booked, RefundDraft.commit, RefundDraft.saveLedger, RefundDraft.updatePayment,
      RefundDraft.ledgerEntry, refundEntry]
  rw [hentries, List.count_append, List.count_singleton]
  simp

theorem count_refunded (k : Uuid × Numeric) {w : PaymentService.World} {d : RefundDraft} :
    (refunded { w with refunds := w.refunds ++ [d.providerCall d.now d.result] }).count k =
      (refunded w).count k +
        if d.result.success = true ∧ refundEntry d = k then 1 else 0 := by
  cases hs : d.result.success with
  | false => simp [refunded, List.filter_append, PaymentService.RefundAttempt.providerCall, hs]
  | true =>
    have hcalls : refunded { w with refunds := w.refunds ++ [d.providerCall d.now d.result] } =
        refunded w ++ [refundEntry d] := by
      simp [refunded, List.filter_append, PaymentService.RefundAttempt.providerCall, hs,
        refundEntry]
    rw [hcalls, List.count_append, List.count_singleton]
    simp

/-- No step announces a refund that the provider has not carried out before. -/
theorem NetworkEffect.counted (k : Uuid × Numeric) (h : NetworkEffect isUuid n q n' q') :
    (n'.announced.count k : ℤ) + q'.owes k + (refunded n.payments).count k ≤
      n.announced.count k + q.owes k + (refunded n'.payments).count k := by
  cases h with
  | receive m k' partition now n' c hm h =>
    rw [receive_redis h]
    exact le_rfl
  | charge c c' x w h =>
    obtain ⟨ho, hr, -⟩ := charge_books h
    simp only [Network.announced, ho, hr]
    exact le_rfl
  | abandon c =>
    unfold Network.abandon
    split <;> exact le_rfl
  | refund c c' x w h =>
    cases refundStatement_effect h with
    | accept c params =>
      have hc := Party.owes_nonneg k (.refunding (.outside c))
      have hc' : (Party.refunding (.outside (.executing params))).owes k = 0 := rfl
      rw [hc']
      linarith
    | leave c r =>
      have hc := Party.owes_nonneg k (.refunding c)
      rw [Party.owes_ended]
      linarith
    | call a now result hs =>
      have hcount := count_refunded k (w := n.payments) (d := ⟨a, result, now⟩)
      simp only [hs, true_and] at hcount
      simp only [Network.announced, Party.owes, hcount, Nat.cast_add, Nat.cast_ite,
        Nat.cast_one, Nat.cast_zero]
      linarith
    | decline a now result hs e =>
      have hcount := count_refunded k (w := n.payments) (d := ⟨a, result, now⟩)
      simp only [hs, Bool.false_eq_true, false_and, if_false, add_zero] at hcount
      simp only [Network.announced, Party.owes, hcount]
      exact le_rfl
    | append d =>
      have hcount := count_announced k (w := n.payments) (d := d)
      have hr : refunded { n.payments with db := d.append n.payments.db } =
        refunded n.payments := rfl
      simp only [Network.announced, Party.owes, hcount, hr, Nat.cast_add, Nat.cast_ite,
        Nat.cast_one, Nat.cast_zero]
      linarith
    | draw | update | enter | commit => exact le_rfl
  | _ => exact le_rfl

/-- No step books a refund that was not announced before. -/
theorem NetworkEffect.counted_booked (k : Uuid × Numeric)
    (h : NetworkEffect isUuid n q n' q') :
    ((Saga.booked n'.payments .refund).count k : ℤ) + q'.unbooked k + n.announced.count k ≤
      (Saga.booked n.payments .refund).count k + q.unbooked k + n'.announced.count k := by
  cases h with
  | receive m k' partition now n' c hm h =>
    rw [receive_redis h]
    exact le_rfl
  | charge c c' x w h =>
    obtain ⟨ho, -, hb⟩ := charge_books h
    simp only [Network.announced, ho, hb]
    exact le_rfl
  | abandon c =>
    unfold Network.abandon
    split <;> exact le_rfl
  | refund c c' x w h =>
    cases refundStatement_effect h with
    | leave c r =>
      have hc := Party.unbooked_nonneg k (.refunding c)
      rw [Party.unbooked_ended]
      linarith
    | append d =>
      have hcount := count_announced k (w := n.payments) (d := d)
      have hb : Saga.booked { n.payments with db := d.append n.payments.db } .refund =
          Saga.booked n.payments .refund := rfl
      simp only [Network.announced, Party.unbooked, hcount, hb, Nat.cast_add, Nat.cast_ite,
        Nat.cast_one, Nat.cast_zero]
      linarith
    | commit d p =>
      have hcount := count_booked k (w := n.payments) (d := d)
      have ha : (d.commit n.payments.db).outbox = n.payments.db.outbox := rfl
      simp only [Network.announced, Party.unbooked, hcount, ha, Nat.cast_add, Nat.cast_ite,
        Nat.cast_one, Nat.cast_zero]
      linarith
    | accept | draw | call | decline | update | enter => exact le_rfl
  | _ => exact le_rfl

theorem Party.Starts.owes (k : Uuid × Numeric) (h : q.Starts) : q.owes k = 0 := by
  cases h <;> rfl

theorem Party.Starts.unbooked (k : Uuid × Numeric) (h : q.Starts) : q.unbooked k = 0 := by
  cases h <;> rfl

end Counting

/--
The ledger under any interleaving of charges, refunds and compensations, statement by statement
and with all their failures: its charges are the payments in their order, each payment backed by
a call of the provider and announced with its outcome; its refunds are among those announced, and
these among the refunds the provider carried out, each of which counts once.
-/
theorem books_kept {isUuid : String → Bool} {Id : Type} [DecidableEq Id] [Fintype Id]
    {parties : Id → Party} (hparties : ∀ i, (parties i).Starts) {inputs : List (Id × Stimulus)}
    {q : Pool Network Party Id}
    (h : exec (Pool.act (networkStep isUuid)) ⟨.empty, parties⟩ inputs = some q) :
    Booked q.store.payments ∧ (booked q.store.payments .refund).Subperm q.store.announced ∧
      q.store.announced.Subperm (refunded q.store.payments) := by
  refine ⟨?_, ?_, ?_⟩
  · have hempty : Booked Network.empty.payments := ⟨rfl, fun _ h => (nomatch h)⟩
    exact (network_invariant (fun n => Booked n.payments) (fun n q => q.Booking n) hempty
      (fun q hq => hq.booking) (fun n n' q q' _ _ hG hL he => he.booked hG hL)
      (fun n n' l hk hl => hl.kept hk) hparties h).2
  · exact subperm_of_pending (f := fun n => booked n.payments .refund) (g := Network.announced)
      Party.unbooked_nonneg (fun k q hq => hq.unbooked k) rfl
      (fun k n q n' q' he => he.counted_booked k) hparties h
  · exact subperm_of_pending (f := Network.announced) (g := fun n => refunded n.payments)
      Party.owes_nonneg (fun k q hq => hq.owes k) rfl (fun k n q n' q' he => he.counted k)
      hparties h

inductive Clerk
  | customer | relay | consumer | larger | smaller
  deriving DecidableEq

instance : Fintype Clerk where
  elems := {.customer, .relay, .consumer, .larger, .smaller}
  complete i := by cases i <;> decide

/-- A shop with two customers and two refunds. -/
def counter : Clerk → Party
  | .customer => .client
  | .relay => .relaying .idle
  | .consumer => .charging none
  | .larger => .refunding (.outside (.requesting ⟨0, some 40, none, none⟩))
  | .smaller => .refunding (.outside (.requesting ⟨3, some 30, none, none⟩))

theorem counter_starts : ∀ i, (counter i).Starts
  | .customer => .client
  | .relay => .relaying
  | .consumer => .charging
  | .larger => .requesting _
  | .smaller => .requesting _

/-- The larger refund is announced first and committed last. -/
def overlappingRefunds : List (Clerk × Stimulus) :=
  [(.customer, .create sampleOrder none),
    (.customer, .create { sampleOrder with orderNumber := "ORD-19700101-00002" } none)] ++
    List.replicate 7 (.relay, .poll ⟨fun _ => 0, 1, false, false⟩) ++
    [(.consumer, .receive 0 0 1)] ++
    List.replicate 6 (.consumer, .payment PaymentService.approved.env) ++
    [(.consumer, .receive 1 0 1)] ++
    List.replicate 6 (.consumer, .payment PaymentService.approved.env) ++
    List.replicate 6 (.larger, .payment PaymentService.approved.env) ++
    List.replicate 7 (.smaller, .payment PaymentService.approved.env) ++
    [(.larger, .payment PaymentService.approved.env)]

theorem overlapping_booked : ∃ q ∈
    exec (Pool.act (networkStep fun _ => false)) ⟨.empty, counter⟩ overlappingRefunds,
      booked q.store.payments .refund = [(3, ⟨3000⟩), (0, ⟨4000⟩)] ∧
      q.store.announced = [(0, ⟨4000⟩), (3, ⟨3000⟩)] ∧ Booked q.store.payments ∧
      (booked q.store.payments .refund).Subperm q.store.announced ∧
      q.store.announced.Subperm (refunded q.store.payments) := by
  obtain ⟨q, hq, hl, hp⟩ : ∃ q ∈
    exec (Pool.act (networkStep fun _ => false)) ⟨.empty, counter⟩ overlappingRefunds,
      booked q.store.payments .refund = [(3, ⟨3000⟩), (0, ⟨4000⟩)] ∧
      q.store.announced = [(0, ⟨4000⟩), (3, ⟨3000⟩)] := by
    decide +kernel
  exact ⟨q, hq, hl, hp, books_kept counter_starts hq⟩

end Saga
