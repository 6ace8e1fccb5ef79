import Mathlib.Data.List.Pairwise
import OrderPlatform.PaymentService.Accounting

/-! # Concurrent charges

Any number of charges interleave at the lookup, the provider call and each statement of
the transaction. The unique constraints leave one payment per order, and each committed
payment has its charge entry and its one event.
-/

namespace PaymentService

open Runs Store Wire

section Solo

variable {w : World} (env : Env)

theorem saving_solo (hw : w.uncommitted = []) (d : ChargeDraft) :
    ∃ n, exec (Machine.solo chargeStep) (w, .saving d) (List.replicate n env) =
      some ({ w with db := (d.record env.failAt w.db).1 },
        .ended (match (d.record env.failAt w.db).2, d.params.amount with
          | some _, some amount => .ok (d.payment amount)
          | _, _ => .error .database)) := by
  by_cases hs : d.savePayment w.db = none
  · refine ⟨1, ?_⟩
    rw [ChargeDraft.record_refused hs]
    rw [ChargeDraft.savePayment_eq_none] at hs
    cases ha : d.params.amount with
    | none => simp [exec_cons, Machine.solo, chargeStep, ha, ChargeCall.ended]
    | some amount =>
      simp [exec_cons, Machine.solo, chargeStep, ha, ChargeCall.ended, hs amount ha]
  · obtain ⟨amount, ha, hc⟩ : ∃ amount, d.params.amount = some amount ∧
        ¬ ∃ p ∈ w.db.payments, p.Conflicts (d.payment amount) := by
      simpa [ChargeDraft.savePayment_eq_none] using hs
    rw [ChargeDraft.record_accepted ha hc]
    by_cases h₁ : env.failAt = some .savePayment
    · exact ⟨1, by simp [exec_cons, Machine.solo, chargeStep, ha, h₁, ChargeCall.ended]⟩
    by_cases h₂ : env.failAt = some .saveLedger
    · exact ⟨2, by simp [List.replicate_succ, exec_cons, Machine.solo, chargeStep, ha, hc, hw, h₂,
        World.rollback, ChargeCall.ended]⟩
    by_cases h₃ : env.failAt = some .append
    · exact ⟨3, by simp [List.replicate_succ, exec_cons, Machine.solo, chargeStep, ha, hc, hw, h₃,
        World.rollback, ChargeCall.ended]⟩
    by_cases h₄ : env.failAt = some .commit
    · exact ⟨4, by simp [List.replicate_succ, exec_cons, Machine.solo, chargeStep, ha, hc, hw, h₄,
        World.rollback, ChargeCall.ended]⟩
    · exact ⟨4, by simp [List.replicate_succ, exec_cons, Machine.solo, chargeStep, ha, hc, hw, h₁,
        h₂, h₃, h₄, World.rollback, World.commit, ChargeDraft.append, ChargeDraft.recorded,
        ChargeCall.ended]⟩

/-- A charge run alone through its steps computes `charge`. -/
theorem charge_solo (hw : w.uncommitted = []) (params : ChargeParams) :
    ∃ n, exec (Machine.solo chargeStep) (w, .looking params) (List.replicate n env) =
      some ((charge w params env).1, .ended (charge w params env).2) := by
  unfold charge
  cases he : w.db.findExisting params.orderId (params.key env.now) with
  | some existing => exact ⟨1, by simp [exec_cons, Machine.solo, chargeStep, he, ChargeCall.ended]⟩
  | none =>
    set d : ChargeDraft := ⟨w.chargeAttempt params env.now, env.result, env.now⟩ with hd
    obtain ⟨n, hn⟩ := saving_solo env (w := { w with
      charges := w.charges ++ [d.providerCall d.result]
      fresh := w.fresh + 3 }) hw d
    refine ⟨n + 2, ?_⟩
    simp only [List.replicate_succ, exec_cons, Machine.solo, chargeStep, he, Option.bind_some]
    exact hn

/-- Uninterrupted among any other calls, a charge computes `charge`. -/
theorem charge_uninterrupted {ι : Type} [DecidableEq ι] (hw : w.uncommitted = [])
    (params : ChargeParams) (c : ι → ChargeCall) (i : ι) (hi : c i = .looking params) :
    ∃ n, exec (Pool.act chargeStep) ⟨w, c⟩ (List.replicate n (i, env)) =
      some ⟨(charge w params env).1, Function.update c i (.ended (charge w params env).2)⟩ :=
  Pool.exec_replicate hi (charge_solo env hw params)

end Solo

namespace ChargeCall

def draw : ChargeCall → Option Uuid
  | .charging a => some a.paymentId
  | .saving d | .entering d _ | .appending d _ | .committing d _ => some d.paymentId
  | _ => none

def draft : ChargeCall → Option ChargeDraft
  | .saving d | .entering d _ | .appending d _ | .committing d _ => some d
  | _ => none

def inserted : ChargeCall → Option Payment
  | .entering d amount | .appending d amount | .committing d amount => some (d.payment amount)
  | _ => none

/-- The outbox rows a call in flight has already made durable. -/
def written : ChargeCall → List Outbox
  | .committing d _ => [d.outboxRow]
  | _ => []

def Apart (c c' : ChargeCall) : Prop := ∀ id, c.draw = some id → c'.draw ≠ some id

theorem Apart.symm {c c' : ChargeCall} (h : c.Apart c') : c'.Apart c :=
  fun id h' hc => h id hc h'

end ChargeCall

def World.events (w : World) (id : Uuid) : List Outbox :=
  w.db.outbox.filter fun row => row.aggregateId = id

/-- Only the call itself has used the identifier it drew. -/
structure ChargeCall.Local (w : World) (c : ChargeCall) : Prop where
  draw_lt : ∀ id, c.draw = some id → id < w.fresh
  payments : ∀ id, c.draw = some id → ∀ p ∈ w.db.payments, p.id ≠ id
  ledger : ∀ id, c.draw = some id → ∀ e ∈ w.db.ledger, e.paymentId ≠ id
  events : ∀ id, c.draw = some id → w.events id = c.written
  inserted : ∀ p, c.inserted = some p → p ∈ w.uncommitted

/-- The payment has its one charge entry and its one event, of the kind its status says. -/
structure Recorded (w : World) (p : Payment) : Prop where
  charge : chargeAmounts p.id w.db.ledger = [p.amount]
  event : ∃ row, w.events p.id = [row] ∧
    (row.eventType = .paymentSucceeded ↔ p.status = .processed) ∧
    (row.eventType = .paymentFailed ↔ p.status = .failed)

/-- The unique constraints hold, open transactions included, and every payment is recorded. -/
structure Ledgered (w : World) : Prop where
  unique : (w.db.payments ++ w.uncommitted).Pairwise fun p q => ¬ p.Conflicts q
  recorded : ∀ p ∈ w.db.payments, Recorded w p
  payments_lt : ∀ p ∈ w.db.payments, p.id < w.fresh
  ledger_lt : ∀ e ∈ w.db.ledger, e.paymentId < w.fresh
  outbox_lt : ∀ row ∈ w.db.outbox, row.aggregateId < w.fresh
  keys : ∀ c ∈ w.charges, c.idempotencyKey = c.orderId

inductive ChargeEffect (w : World) (env : Env) : ChargeCall → World → ChargeCall → Prop
  | found (params : ChargeParams) (p : Payment) :
    ChargeEffect w env (.looking params) w (.returned p)
  | draw (params : ChargeParams) :
    ChargeEffect w env (.looking params) { w with fresh := w.fresh + 3 }
      (.charging (w.chargeAttempt params env.now))
  | call (a : ChargeAttempt) :
    ChargeEffect w env (.charging a) { w with charges := w.charges ++ [a.providerCall env.result] }
      (.saving ⟨a, env.result, env.now⟩)
  | refused (d : ChargeDraft) : ChargeEffect w env (.saving d) w (.threw .database)
  | insert (d : ChargeDraft) (amount : ℚ)
    (free : ∀ p ∈ w.db.payments ++ w.uncommitted, ¬ p.Conflicts (d.payment amount)) :
    ChargeEffect w env (.saving d) { w with uncommitted := d.payment amount :: w.uncommitted }
      (.entering d amount)
  | enter (d : ChargeDraft) (amount : ℚ) :
    ChargeEffect w env (.entering d amount) w (.appending d amount)
  | append (d : ChargeDraft) (amount : ℚ) :
    ChargeEffect w env (.appending d amount) { w with db := d.append w.db } (.committing d amount)
  | commit (d : ChargeDraft) (amount : ℚ) :
    ChargeEffect w env (.committing d amount) (w.commit (d.payment amount) (d.ledgerEntry amount))
      (.returned (d.payment amount))
  | rollback (c : ChargeCall) (p : Payment) (h : c.inserted = some p) :
    ChargeEffect w env c (w.rollback p) (.threw .database)

section Effects

variable {w w' : World} {c c' l : ChargeCall} {env : Env}

theorem chargeStep_effect (h : chargeStep w c env = some (w', c')) :
    ChargeEffect w env c w' c' := by
  cases c with
  | looking params =>
    simp only [chargeStep] at h
    split at h <;> cases h
    · exact .found _ _
    · exact .draw _
  | charging a =>
    cases h
    exact .call _
  | saving d =>
    simp only [chargeStep] at h
    split at h
    · cases h
      exact .refused _
    · split at h
      · cases h
        exact .refused _
      · split at h
        · cases h
        · rename_i amount _ hp hu
          cases h
          apply ChargeEffect.insert d amount
          intro p hp' hc
          rcases List.mem_append.mp hp' with hm | hm
          · exact hp (Or.inr ⟨p, hm, hc⟩)
          · exact hu ⟨p, hm, hc⟩
  | entering d amount =>
    simp only [chargeStep] at h
    split at h <;> cases h
    · exact .rollback _ _ rfl
    · exact .enter _ _
  | appending d amount =>
    simp only [chargeStep] at h
    split at h <;> cases h
    · exact .rollback _ _ rfl
    · exact .append _ _
  | committing d amount =>
    simp only [chargeStep] at h
    split at h <;> cases h
    · exact .rollback _ _ rfl
    · exact .commit _ _
  | returned p => cases h
  | threw e => cases h

theorem Payment.Conflicts.symm {p q : Payment} (h : p.Conflicts q) : q.Conflicts p :=
  h.imp Eq.symm Eq.symm

theorem unique_perm {s t : List Payment} (h : s.Perm t)
    (hs : s.Pairwise fun p q => ¬ p.Conflicts q) : t.Pairwise fun p q => ¬ p.Conflicts q :=
  (h.pairwise_iff fun hn hc => hn hc.symm).mp hs

theorem events_append (d : ChargeDraft) (id : Uuid) :
    World.events { w with db := d.append w.db } id =
      w.events id ++ if d.paymentId = id then [d.outboxRow] else [] := by
  have ha : d.outboxRow.aggregateId = d.paymentId := rfl
  simp only [World.events, ChargeDraft.append, List.filter_append, List.filter_cons,
    List.filter_nil, ha, decide_eq_true_eq]

theorem events_fresh {id : Uuid} (h : ∀ row ∈ w.db.outbox, row.aggregateId ≠ id) :
    w.events id = [] :=
  List.filter_eq_nil_iff.mpr fun row hrow => by simpa using h row hrow

/-- What is recorded of a payment depends on the committed tables only. -/
theorem Recorded.of_db {p : Payment} (h : Recorded w p) (hdb : w'.db = w.db) : Recorded w' p where
  charge := hdb ▸ h.charge
  event := by
    simp only [World.events, hdb]
    exact h.event

theorem recorded_commit {d : ChargeDraft} {amount : ℚ}
    (hc : (ChargeCall.committing d amount).Local w) :
    Recorded (w.commit (d.payment amount) (d.ledgerEntry amount)) (d.payment amount) where
  charge := by
    simp only [World.commit, chargeAmounts_append, ChargeDraft.payment, ChargeDraft.ledgerEntry]
    rw [chargeAmounts_fresh (hc.ledger d.paymentId rfl)]
    simp
  event := by
    refine ⟨d.outboxRow, hc.events d.paymentId rfl, ?_⟩
    cases hs : d.result.success <;>
      simp [ChargeDraft.outboxRow, Outbox.append, ChargeDraft.outboxEventType, ChargeDraft.payment,
        ChargeDraft.finalStatus, hs]

theorem ChargeEffect.ledgered (he : ChargeEffect w env c w' c') (hw : Ledgered w)
    (hc : c.Local w) : Ledgered w' := by
  cases he with
  | found | refused | enter => exact hw
  | draw params =>
    exact { hw with
      recorded := fun p hp => (hw.recorded p hp).of_db rfl
      payments_lt := fun p hp => Nat.lt_add_right _ (hw.payments_lt p hp)
      ledger_lt := fun e h => Nat.lt_add_right _ (hw.ledger_lt e h)
      outbox_lt := fun row h => Nat.lt_add_right _ (hw.outbox_lt row h) }
  | call a =>
    exact { hw with
      recorded := fun p hp => (hw.recorded p hp).of_db rfl
      keys := forall_mem_concat hw.keys rfl }
  | insert d amount free =>
    exact { hw with
      recorded := fun p hp => (hw.recorded p hp).of_db rfl
      unique := unique_perm List.perm_middle.symm
        (List.pairwise_cons.mpr ⟨fun p hp hcf => free p hp hcf.symm, hw.unique⟩) }
  | append d amount =>
    exact { hw with
      recorded := fun p hp => by
        obtain ⟨row, hrow, hk⟩ := (hw.recorded p hp).event
        have hne : d.paymentId ≠ p.id := (hc.payments d.paymentId rfl p hp).symm
        exact ⟨(hw.recorded p hp).charge, row, by rw [events_append]; simp [hne, hrow], hk⟩
      outbox_lt := forall_mem_concat hw.outbox_lt (hc.draw_lt d.paymentId rfl) }
  | commit d amount =>
    have hlt := hc.draw_lt d.paymentId rfl
    exact {
      unique := by
        refine unique_perm ?_ hw.unique
        have hp := List.perm_cons_erase (hc.inserted (d.payment amount) rfl)
        simpa [World.commit, World.rollback] using hp.append_left w.db.payments
      recorded := fun p hp => by
        rcases List.mem_append.mp hp with h | h
        · have hne : d.paymentId ≠ p.id := (hc.payments d.paymentId rfl p h).symm
          refine ⟨?_, (hw.recorded p h).event⟩
          simp only [World.commit, chargeAmounts_append, ChargeDraft.ledgerEntry, hne, false_and,
            if_false, List.append_nil]
          exact (hw.recorded p h).charge
        · simp only [List.mem_singleton] at h
          exact h ▸ recorded_commit hc
      payments_lt := forall_mem_concat hw.payments_lt hlt
      ledger_lt := forall_mem_concat hw.ledger_lt hlt
      outbox_lt := hw.outbox_lt
      keys := hw.keys }
  | rollback c p h =>
    exact { hw with
      recorded := fun p hp => (hw.recorded p hp).of_db rfl
      unique := hw.unique.sublist ((List.erase_sublist).append_left w.db.payments) }

theorem ChargeEffect.local_self (he : ChargeEffect w env c w' c') (hw : Ledgered w)
    (hc : c.Local w) : c'.Local w' := by
  cases he with
  | found | refused | commit | rollback =>
    constructor <;> simp [ChargeCall.draw, ChargeCall.inserted]
  | enter d amount => exact ⟨hc.draw_lt, hc.payments, hc.ledger, hc.events, hc.inserted⟩
  | call a =>
    exact ⟨hc.draw_lt, hc.payments, hc.ledger, hc.events, by simp [ChargeCall.inserted]⟩
  | draw params =>
    constructor <;> simp only [ChargeCall.draw, World.chargeAttempt, Option.some.injEq,
      ChargeCall.inserted, reduceCtorEq, false_imp_iff, implies_true, forall_eq']
    · exact Nat.lt_add_of_pos_right (by decide)
    · exact fun p hp => (hw.payments_lt p hp).ne
    · exact fun e h => (hw.ledger_lt e h).ne
    · exact events_fresh fun row h => (hw.outbox_lt row h).ne
  | insert d amount free =>
    refine ⟨hc.draw_lt, hc.payments, hc.ledger, hc.events, fun p hp => ?_⟩
    cases hp
    exact List.mem_cons_self
  | append d amount =>
    refine ⟨hc.draw_lt, hc.payments, hc.ledger, fun id hid => ?_, hc.inserted⟩
    cases hid
    have hnil : w.events d.paymentId = [] := hc.events _ rfl
    rw [events_append, hnil]
    simp [ChargeCall.written]

theorem ChargeCall.draw_of_inserted {p : Payment} (h : c.inserted = some p) :
    c.draw = some p.id := by
  cases c <;> cases h <;> rfl

/-- The row of another call's transaction survives the end of this one. -/
theorem ChargeCall.Local.inserted_of_erase (hl : l.Local w) (ha : c.Apart l) {p q : Payment}
    (hp : c.inserted = some p) (hq : l.inserted = some q) : q ∈ w.uncommitted.erase p := by
  have hne : q ≠ p := by
    rintro rfl
    exact ha q.id (draw_of_inserted hp) (draw_of_inserted hq)
  exact (List.mem_erase_of_ne hne).mpr (hl.inserted q hq)

theorem ChargeEffect.local_other (he : ChargeEffect w env c w' c') (hc : c.Local w)
    (hl : l.Local w) (ha : c.Apart l) : l.Local w' := by
  cases he with
  | found | refused | enter => exact hl
  | draw params =>
    exact ⟨fun id h => Nat.lt_add_right _ (hl.draw_lt id h), hl.payments, hl.ledger, hl.events,
      hl.inserted⟩
  | call a => exact ⟨hl.draw_lt, hl.payments, hl.ledger, hl.events, hl.inserted⟩
  | insert d amount free =>
    exact ⟨hl.draw_lt, hl.payments, hl.ledger, hl.events,
      fun p hp => List.mem_cons_of_mem _ (hl.inserted p hp)⟩
  | append d amount =>
    refine ⟨hl.draw_lt, hl.payments, hl.ledger, fun id hid => ?_, hl.inserted⟩
    have hne : d.paymentId ≠ id := fun h => ha id (h ▸ rfl) hid
    rw [events_append]
    simp [hne, hl.events id hid]
  | commit d amount =>
    have hne : ∀ id, l.draw = some id → d.paymentId ≠ id := fun id hid h => ha id (h ▸ rfl) hid
    exact ⟨hl.draw_lt, fun id hid => forall_mem_concat (hl.payments id hid) (hne id hid),
      fun id hid => forall_mem_concat (hl.ledger id hid) (hne id hid), hl.events,
      fun q hq => hl.inserted_of_erase ha rfl hq⟩
  | rollback c p h =>
    exact ⟨hl.draw_lt, hl.payments, hl.ledger, hl.events,
      fun q hq => hl.inserted_of_erase ha h hq⟩

theorem ChargeEffect.apart (he : ChargeEffect w env c w' c') (hl : l.Local w) (ha : c.Apart l) :
    c'.Apart l := by
  cases he with
  | found | refused | commit | rollback => simp [ChargeCall.Apart, ChargeCall.draw]
  | call | insert | enter | append => exact ha
  | draw params =>
    intro id hid hl'
    cases hid
    exact (hl.draw_lt _ hl').false

end Effects

/-- No order is charged twice, and every payment has its entry and its event. -/
structure ChargedOnce (w : World) : Prop where
  payments : ∀ orderId, (w.db.payments.filter fun p => p.orderId = orderId).length ≤ 1
  keys : ∀ c ∈ w.charges, ∀ c' ∈ w.charges, c.orderId = c'.orderId →
    c.idempotencyKey = c'.idempotencyKey
  /-- Captures of a provider that executes each key at most once. -/
  captures : ∀ executed : List ProviderCharge, executed.Sublist w.charges →
    (executed.map ProviderCharge.idempotencyKey).Nodup →
      ∀ orderId, (executed.filter fun c => c.orderId = orderId).length ≤ 1
  recorded : ∀ p ∈ w.db.payments, Recorded w p

theorem Ledgered.chargedOnce {w : World} (hw : Ledgered w) : ChargedOnce w where
  payments orderId := by
    apply length_filter_le_one (List.pairwise_append.mp hw.unique).1
    simp only [decide_eq_true_eq, not_not]
    intro a _ b _ ha hb
    exact Or.inl (ha.trans hb.symm)
  keys c hc c' hc' h := by rw [hw.keys c hc, hw.keys c' hc', h]
  captures executed hs hn orderId := by
    apply length_filter_le_one (List.pairwise_map.mp hn)
    simp only [decide_eq_true_eq, not_not]
    intro a ha b hb ha' hb'
    rw [hw.keys a (hs.subset ha), hw.keys b (hs.subset hb), ha', hb']
  recorded := hw.recorded

theorem holds_looking {ι : Type} [DecidableEq ι] (params : ι → ChargeParams) :
    Pool.Holds Ledgered ChargeCall.Local ChargeCall.Apart
      ⟨World.empty, fun i => .looking (params i)⟩ where
  store := by constructor <;> simp [World.empty]
  call i := by constructor <;> simp [ChargeCall.draw, ChargeCall.inserted]
  apart i j _ := by simp [ChargeCall.Apart, ChargeCall.draw]

/-- Any number of charges, interleaved in any order, charge every order at most once. -/
theorem charged_once {ι : Type} [DecidableEq ι] (params : ι → ChargeParams)
    (as : List (ι × Env)) (q : Pool World ChargeCall ι)
    (h : exec (Pool.act chargeStep) ⟨World.empty, fun i => .looking (params i)⟩ as = some q) :
    ChargedOnce q.store := by
  refine (exec_invariant (I := Pool.Holds Ledgered ChargeCall.Local ChargeCall.Apart)
    (fun p a q hp hq => hp.act (fun w' c' hG hL hM => ?_) (fun w' c' l hG hL hl ha _ hM => ?_) hq)
    (holds_looking params) h).store.chargedOnce
  · have he := chargeStep_effect hM
    exact ⟨he.ledgered hG hL, he.local_self hG hL⟩
  · have he := chargeStep_effect hM
    have hap := he.apart hl ha
    exact ⟨he.local_other hL hl ha, hap, hap.symm⟩

def sampleCharges (i : Bool) : ChargeParams :=
  if i then sampleCharge
  else processOrderCreated ⟨"order-1", "user-1", none, some 100, some "EUR", none, none⟩ "corr-1"

/-- Both charges miss the lookup and reach the provider before one of them commits. -/
def bothCharge : List (Bool × Env) :=
  [true, false, true, false, true, true, true, true, false].map fun i => (i, approved.env)

theorem bothCharge_once :
    ∃ q ∈ exec (Pool.act chargeStep) ⟨World.empty, fun i => .looking (sampleCharges i)⟩ bothCharge,
      q.store.charges.length = 2 ∧ q.store.db.payments.length = 1 ∧ ChargedOnce q.store := by
  obtain ⟨q, hq, hc, hp⟩ : ∃ q ∈ exec (Pool.act chargeStep)
      ⟨World.empty, fun i => .looking (sampleCharges i)⟩ bothCharge,
      q.store.charges.length = 2 ∧ q.store.db.payments.length = 1 := by decide +kernel
  exact ⟨q, hq, hc, hp, charged_once sampleCharges bothCharge q hq⟩

end PaymentService
