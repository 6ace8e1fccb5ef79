import OrderPlatform.Saga.Undisturbed

/-! # Charges of orders

A charge for an order that nothing fails for goes on until the order is paid, by itself or by a
charge that was faster: the keys that are made up for two orders differ, so a payment that is in
its way is one of its own order. Of all charges in flight, one leaves the payment.
-/

namespace Saga

open Runs Store Wire
open PaymentService (Payment ChargeParams ChargeCall ChargeAttempt Ledgered chargeStep
  chargeStep_effect)

section Charges

variable {w w' : PaymentService.World} {c c' : ChargeCall} {x : PaymentService.Answer} {id : Uuid}

/-- The key that `charge` makes up for an order. -/
def keyOf (orderId : String) (now : ℕ) : String := "pay_" ++ orderId ++ "_" ++ toString now

def attempt : ChargeCall → Option ChargeAttempt
  | .charging a => some a
  | .saving d | .entering d _ | .appending d _ | .committing d _ => some d.toChargeAttempt
  | _ => none

/-- The payments and the attempts have keys made up for their orders. -/
structure Keyed (w : PaymentService.World) : Prop where
  keys : ∀ p ∈ w.db.payments, ∃ now, p.idempotencyKey = keyOf p.orderId now
  orders : ∀ p ∈ w.db.payments, ∃ id : Uuid, p.orderId = toString id

/-- The call charges the order, and has no key but the one made up for it. -/
structure Charges (id : Uuid) (c : ChargeCall) : Prop where
  params : ∃ params, chargeParams c = some params ∧ params.orderId = toString id ∧
    params.amount ≠ none ∧ params.idempotencyKey = none
  key : ∀ a, attempt c = some a → ∃ now, a.idempotencyKey = keyOf a.params.orderId now

def Paid (w : PaymentService.World) (id : Uuid) : Prop :=
  ∃ p ∈ w.db.payments, p.orderId = toString id

/-- A key made up for an order is that of no payment of another. -/
theorem paid_of_conflict (hw : Keyed w) {p : Payment} (hp : p ∈ w.db.payments) {now : ℕ}
    (h : p.orderId = toString id ∨ p.idempotencyKey = keyOf (toString id) now) : Paid w id := by
  rcases h with h | h
  · exact ⟨p, hp, h⟩
  · obtain ⟨id', hid'⟩ := hw.orders p hp
    obtain ⟨now', hkey⟩ := hw.keys p hp
    rw [hid', h] at hkey
    have hdigit : '_'.isDigit = false := by decide
    have := (prefixed_joined_inj rfl (notMem_toString hdigit id) (notMem_toString hdigit id')
      hkey).1
    exact ⟨p, hp, hid'.trans this.symm⟩

theorem found_of_existing {orderId key : String} {p : Payment}
    (h : w.db.findExisting orderId key = some p) :
    p ∈ w.db.payments ∧ (p.orderId = orderId ∨ p.idempotencyKey = key) := by
  refine ⟨List.mem_of_find?_eq_some h, ?_⟩
  simpa using List.find?_some h

theorem key_of_params {params : ChargeParams} (h : params.idempotencyKey = none) (now : ℕ) :
    params.key now = keyOf params.orderId now := by
  simp [ChargeParams.key, h, orDefault, keyOf]

/-- A charge that nothing fails for goes on, or ends with a payment of its order. -/
theorem charges_step (h : chargeStep w c x.env = some (w', c')) (hw : Keyed w)
    (hc : Charges id c) : (Paid w' id ∧ chargeParams c' = none) ∨ Charges id c' := by
  obtain ⟨⟨params, hp, hid, hamount, hkey⟩, hkeys⟩ := hc
  have hon (c' : ChargeCall) (hp' : chargeParams c' = some params)
      (hk' : ∀ a, attempt c' = some a → ∃ now, a.idempotencyKey = keyOf a.params.orderId now) :
      Charges id c' := ⟨⟨params, hp', hid, hamount, hkey⟩, hk'⟩
  cases c with
  | returned | threw => cases h
  | looking params' =>
    cases hp
    simp only [chargeStep] at h
    split at h <;> cases h
    · rename_i existing he
      obtain ⟨hmem, hconflict⟩ := found_of_existing he
      rw [key_of_params hkey, hid] at hconflict
      exact Or.inl ⟨paid_of_conflict hw hmem hconflict, rfl⟩
    · refine Or.inr (hon _ rfl ?_)
      rintro a ⟨⟩
      exact ⟨_, key_of_params hkey _⟩
  | charging a =>
    cases h
    exact Or.inr (hon _ hp hkeys)
  | saving d =>
    cases hp
    simp only [chargeStep] at h
    cases ha : d.params.amount with
    | none => exact absurd ha hamount
    | some amount =>
      rw [ha] at h
      dsimp only at h
      split at h
      · cases h
        rename_i hconflict
        obtain ⟨p, hmem, hpc⟩ := hconflict.resolve_left (by simp)
        obtain ⟨now, hk⟩ := hkeys _ rfl
        have hpc' : p.orderId = d.params.orderId ∨ p.idempotencyKey = d.idempotencyKey := hpc
        rw [hk, hid] at hpc'
        exact Or.inl ⟨paid_of_conflict hw hmem hpc', rfl⟩
      · split at h <;> cases h
        exact Or.inr (hon _ rfl hkeys)
  | entering d amount | appending d amount =>
    simp only [chargeStep, PaymentService.Answer.failAt_env, reduceCtorEq, if_false] at h
    cases h
    exact Or.inr (hon _ hp hkeys)
  | committing d amount =>
    simp only [chargeStep, PaymentService.Answer.failAt_env, reduceCtorEq, if_false] at h
    cases h
    cases hp
    exact Or.inl ⟨⟨_, List.mem_append_right _ (List.mem_singleton_self _), hid⟩, rfl⟩

theorem keyed_charge (h : chargeStep w c x.env = some (w', c')) (hw : Keyed w)
    (hc : Charges id c) : Keyed w' := by
  obtain ⟨⟨params, hp, hid, hamount, hkey⟩, hkeys⟩ := hc
  rcases (chargeStep_effect h).payments with hsame | ⟨d, amount, rfl, hnew⟩
  · exact ⟨hsame ▸ hw.keys, hsame ▸ hw.orders⟩
  · cases hp
    constructor
    · exact hnew ▸ forall_mem_concat hw.keys (hkeys _ rfl)
    · exact hnew ▸ forall_mem_concat hw.orders ⟨id, hid⟩

theorem Paid.charge (h : chargeStep w c x.env = some (w', c')) (hp : Paid w id) : Paid w' id := by
  obtain ⟨p, hmem, hid⟩ := hp
  refine ⟨p, ?_, hid⟩
  rcases (chargeStep_effect h).payments with hsame | ⟨d, amount, -, hnew⟩
  · exact hsame ▸ hmem
  · exact hnew ▸ List.mem_append_left _ hmem

end Charges

section Calls

variable {ν : Type} [DecidableEq ν] {w w' : PaymentService.World} {c c' : ChargeCall}
  {calls : ν → ChargeCall} {n : ν} {x : PaymentService.Env}

/-- No order is charged twice: the assertions of concurrent charges hold. -/
abbrev Once (w : PaymentService.World) (calls : ν → ChargeCall) : Prop :=
  Pool.Holds Ledgered ChargeCall.Local ChargeCall.Apart (⟨w, calls⟩ : Pool _ _ _)

theorem once_charge (h : chargeStep w (calls n) x = some (w', c')) (hp : Once w calls) :
    Once w' (Function.update calls n c') := by
  refine Pool.Holds.act (M := chargeStep) (a := (n, x)) (fun w' c' hG hL hM => ?_)
    (fun w' c' l hG hL hl ha _ hM => ?_) hp (Pool.act_eq_some.mpr ⟨_, _, h, rfl⟩)
  · have he := chargeStep_effect hM
    exact ⟨he.ledgered hG hL, he.local_self hG hL⟩
  · have he := chargeStep_effect hM
    have hap := he.apart hl ha
    exact ⟨he.local_other hL hl ha, hap, hap.symm⟩

/-- A call that has drawn nothing yet, or has ended, takes a place. -/
theorem once_place (hp : Once w calls) (hd : c.draw = none) :
    Once w (Function.update calls n c) := by
  have hi : c.inserted = none := by
    cases hc : c.inserted with
    | none => rfl
    | some p => rw [PaymentService.ChargeCall.draw_of_inserted hc] at hd; cases hd
  have hl : c.Local w := by constructor <;> simp [hd, hi]
  refine ⟨hp.store, forall_update hl hp.call, ?_⟩
  refine apart_update hp.apart fun j _ => ⟨?_, ?_⟩
  · simp [ChargeCall.Apart, hd]
  · simp [ChargeCall.Apart, hd]

end Calls

end Saga
