import OrderPlatform.PaymentService.ConcurrentCharges
import OrderPlatform.Saga.System

/-! # Cancelled orders and captured money

The payment service has no handler for `OrderCancelled`, and the order service does not
look at the payment before it cancels. A cancelled order therefore keeps no captured
money only when its cancellation and an accepted charge never both happen.
-/

open Runs Store Wire

namespace PaymentService

/-- The provider has accepted a charge for the order. -/
def World.Accepted (w : World) (orderId : String) : Prop :=
  ∃ c ∈ w.charges, c.orderId = orderId ∧ c.result.success = true

instance (w : World) (orderId : String) : Decidable (w.Accepted orderId) :=
  inferInstanceAs (Decidable (∃ c ∈ w.charges, _))

/-- Every payment that is not a failed one was accepted by the provider. -/
def World.Backed (w : World) : Prop :=
  ∀ p ∈ w.db.payments, p.status ≠ .failed → w.Accepted p.orderId

/-- A charge in flight that was answered with success was accepted. -/
def ChargeCall.Backed (w : World) (c : ChargeCall) : Prop :=
  ∀ d, c.draft = some d → d.result.success = true → w.Accepted d.params.orderId

section Charges

variable {w w' : World} {c c' : ChargeCall} {env : Env} {orderId : String}

theorem ChargeEffect.charges (he : ChargeEffect w env c w' c') : w'.charges = w.charges ∨
    ∃ a, c = .charging a ∧ w'.charges = w.charges ++ [a.providerCall env.result] := by
  cases he with
  | call a => exact Or.inr ⟨a, rfl, rfl⟩
  | _ => exact Or.inl rfl

theorem ChargeEffect.accepted (he : ChargeEffect w env c w' c') (h : w.Accepted orderId) :
    w'.Accepted orderId := by
  obtain ⟨x, hx, ho, hs⟩ := h
  refine ⟨x, ?_, ho, hs⟩
  rcases he.charges with hc | ⟨a, -, hc⟩
  · exact hc ▸ hx
  · exact hc ▸ List.mem_append_left _ hx

theorem ChargeEffect.accepted_cases (he : ChargeEffect w env c w' c') (h : w'.Accepted orderId) :
    w.Accepted orderId ∨
      ∃ a, c = .charging a ∧ a.params.orderId = orderId ∧ env.result.success = true := by
  obtain ⟨x, hx, ho, hs⟩ := h
  rcases he.charges with hc | ⟨a, rfl, hc⟩
  · exact Or.inl ⟨x, hc ▸ hx, ho, hs⟩
  · rw [hc] at hx
    rcases List.mem_append.mp hx with hx | hx
    · exact Or.inl ⟨x, hx, ho, hs⟩
    · cases List.mem_singleton.mp hx
      exact Or.inr ⟨a, rfl, ho, hs⟩

theorem ChargeEffect.payments (he : ChargeEffect w env c w' c') :
    w'.db.payments = w.db.payments ∨ ∃ d amount, c = .committing d amount ∧
      w'.db.payments = w.db.payments ++ [d.payment amount] := by
  cases he with
  | commit d amount => exact Or.inr ⟨d, amount, rfl, rfl⟩
  | _ => exact Or.inl rfl

theorem ChargeEffect.backed (he : ChargeEffect w env c w' c') (hw : w.Backed)
    (hc : c.Backed w) : w'.Backed := by
  intro p hp hs
  apply he.accepted
  rcases he.payments with h | ⟨d, amount, rfl, h⟩
  · exact hw p (h ▸ hp) hs
  · rw [h] at hp
    rcases List.mem_append.mp hp with hp | hp
    · exact hw p hp hs
    · cases List.mem_singleton.mp hp
      apply hc d rfl
      by_contra hf
      exact hs (by simp [ChargeDraft.payment, ChargeDraft.finalStatus, hf])

theorem ChargeEffect.call_backed (he : ChargeEffect w env c w' c') (hc : c.Backed w) :
    c'.Backed w' := by
  cases he with
  | found | draw | refused | commit | rollback =>
    intro d hd
    cases hd
  | insert d | enter d | append d => exact hc
  | call a =>
    intro d hd hs
    cases hd
    exact ⟨_, List.mem_append_right _ (List.mem_singleton.mpr rfl), rfl, hs⟩

end Charges

end PaymentService

namespace Saga

open OrderService (CreateOrder StatusCall StatusEffect createOrder createOrder_orders)
open PaymentService (ChargeCall ChargeEffect approved)

variable {ι κ ν : Type}

def updated : StatusCall → Option Uuid
  | .updating r _ => some r.orderId
  | _ => none

theorem cancelled_of_effect {w w' : OrderService.World} {x : OrderService.StatusAnswer}
    {c c' : StatusCall} (he : StatusEffect w x c w' c') :
    ∀ o ∈ w'.db.orders, o.status = .cancelled →
      o.id ∈ updated c ∨ ∃ o' ∈ w.db.orders, o'.id = o.id ∧ o'.status = .cancelled := by
  intro o ho hs
  cases he with
  | update r order =>
    obtain ⟨o', ho', rfl⟩ := mem_update.mp ho
    by_cases hid : o'.id = r.orderId
    · left
      simp [updated, hid]
    · right
      rw [if_neg hid] at hs ⊢
      exact ⟨o', ho', rfl, hs⟩
  | _ => exact Or.inr ⟨o, ho, rfl, hs⟩

def Handler.asking : Handler → Option String
  | .charging _ (.charging a) => some a.params.orderId
  | _ => none

def Handler.Backed (w : PaymentService.World) : Handler → Prop
  | .idle => True
  | .charging _ c => c.Backed w

namespace System

variable (s : System ι κ ν)

/-- Every row of the outbox is sent, and every published message has been handled. -/
def Quiescent : Prop :=
  (∀ row ∈ s.orders.db.outbox, row.status = .sent) ∧ ∀ k < s.published.length, k ∈ s.handled

/-- No cancelled order has captured money. -/
def Uncaptured : Prop :=
  ∀ o ∈ s.orders.db.orders, o.status = .cancelled →
    ∀ p ∈ s.payments.db.payments, p.orderId = toString o.id →
      p.status ≠ .processed ∧ p.status ≠ .partiallyRefunded

def Cancelled (orderId : String) : Prop :=
  ∃ o ∈ s.orders.db.orders, toString o.id = orderId ∧ o.status = .cancelled

/--
A cancellation finds no accepted charge of its order, and the provider accepts a charge
only for an order that is not cancelled.
-/
def Exclusive : Action ι κ ν → Prop
  | .cancel i _ => ∀ id ∈ updated (s.cancels i), ¬ s.payments.Accepted (toString id)
  | .handle n x => ∀ orderId ∈ (s.handlers n).asking,
      x.result.success = true → ¬ s.Cancelled orderId
  | _ => True

instance : Decidable s.Quiescent := inferInstanceAs (Decidable (_ ∧ _))

instance : Decidable s.Uncaptured := inferInstanceAs (Decidable (∀ o ∈ s.orders.db.orders, _))

instance (orderId : String) : Decidable (s.Cancelled orderId) :=
  inferInstanceAs (Decidable (∃ o ∈ s.orders.db.orders, _))

instance : ∀ a, Decidable (s.Exclusive a)
  | .cancel i _ => inferInstanceAs (Decidable (∀ id ∈ updated (s.cancels i), _))
  | .handle n _ => inferInstanceAs (Decidable (∀ orderId ∈ (s.handlers n).asking, _))
  | .create _ | .poll .. | .receive .. => inferInstanceAs (Decidable True)

/-- A cancelled order has no accepted charge, and every captured payment has one. -/
structure Separate : Prop where
  cancelled : ∀ o ∈ s.orders.db.orders, o.status = .cancelled →
    ¬ s.payments.Accepted (toString o.id)
  payments : s.payments.Backed
  handlers : ∀ n, (s.handlers n).Backed s.payments

variable {s}

theorem Separate.uncaptured (hs : s.Separate) : s.Uncaptured := by
  intro o ho hc p hp hid
  have hna : ¬ s.payments.Accepted p.orderId := hid ▸ hs.cancelled o ho hc
  constructor <;> intro hst <;> exact hna (hs.payments p hp (by simp [hst]))

theorem separate_start (requests : ι → Cancellation) :
    (start requests : System ι κ ν).Separate where
  cancelled := by simp [start]
  payments := by simp [start, PaymentService.World.Backed, PaymentService.World.empty]
  handlers _ := trivial

theorem Separate.create (hs : s.Separate) (isUuid : String → Bool) (data : CreateOrder) :
    Separate { s with orders := (createOrder s.orders isUuid data none).1 } where
  cancelled := by
    intro o ho hc
    rcases createOrder_orders s.orders isUuid data none with h | h
    · rw [h] at ho
      exact hs.cancelled o ho hc
    · rw [h] at ho
      rcases List.mem_append.mp ho with ho | ho
      · exact hs.cancelled o ho hc
      · cases List.mem_singleton.mp ho
        cases hc
  payments := hs.payments
  handlers := hs.handlers

section Steps

variable {isUuid : String → Bool} {t : System ι κ ν} {a : Action ι κ ν} [DecidableEq ν]

theorem Separate.handle (hs : s.Separate) {n : ν} {k : ℕ} {c c' : ChargeCall}
    {w : PaymentService.World} {x : PaymentService.Answer} (hn : s.handlers n = .charging k c)
    (hC : s.Exclusive (.handle n x)) (he : ChargeEffect s.payments x.env c w c') :
    (s.advance n k w c').Separate := by
  have hc : c.Backed s.payments := by
    have := hs.handlers n
    rwa [hn] at this
  have hmono : ∀ h : Handler, h.Backed s.payments → h.Backed w := by
    rintro (_ | ⟨k, l⟩) hl
    · trivial
    · exact fun d hd hsuc => he.accepted (hl d hd hsuc)
  obtain ⟨horders, hpay, -, -, hh⟩ := s.advance_frame n k w c'
  constructor
  · intro o ho hst hacc
    rw [horders] at ho
    rw [hpay] at hacc
    rcases he.accepted_cases hacc with h | ⟨a, rfl, ha, hsuc⟩
    · exact hs.cancelled o ho hst h
    · exact hC _ (by rw [hn, ← ha]; rfl) hsuc ⟨o, ho, rfl, hst⟩
  · rw [hpay]
    exact he.backed hs.payments hc
  · rw [hpay]
    rcases hh with h | h
    · exact h ▸ forall_update trivial fun m => hmono _ (hs.handlers m)
    · exact h ▸ forall_update (he.call_backed hc) fun m => hmono _ (hs.handlers m)

variable [DecidableEq ι] [DecidableEq κ]

theorem Separate.step (hs : s.Separate) (hC : s.Exclusive a) (h : step isUuid s a = some t) :
    t.Separate := by
  cases step_effect h with
  | create data => exact hs.create isUuid data
  | cancel i x w c he =>
    refine ⟨?_, hs.payments, hs.handlers⟩
    intro o ho hst
    rcases cancelled_of_effect he o ho hst with hid | ⟨o', ho', hid, hst'⟩
    · exact hC o.id hid
    · exact hid ▸ hs.cancelled o' ho' hst'
  | poll j rank now b c he => exact ⟨hs.cancelled, hs.payments, hs.handlers⟩
  | receive n k partition now m t hn hm hr =>
    obtain ⟨horders, hpay, -, -, hh⟩ := receive_frame hr
    refine ⟨horders ▸ hpay ▸ hs.cancelled, hpay ▸ hs.payments, ?_⟩
    rw [hpay]
    rcases hh with h | ⟨params, h⟩
    · exact h ▸ hs.handlers
    · rw [h]
      exact forall_update (fun d hd => by cases hd) hs.handlers
  | handle n x k c w c' hn he => exact hs.handle hn hC he

/--
In every run whose cancellations find no accepted charge of their order, and in which the
provider accepts a charge only for an order that is not cancelled, no quiescent state has
a cancelled order with captured money.
-/
theorem uncaptured_of_exclusive (isUuid : String → Bool) (requests : ι → Cancellation)
    (as : List (Action ι κ ν))
    (h : AllSteps (step isUuid) Exclusive (start requests : System ι κ ν) as) :
    Always (step isUuid) (fun s => s.Quiescent → s.Uncaptured)
      (start requests : System ι κ ν) as :=
  always_of_allSteps (I := Separate) (fun _ _ _ hs hC h => hs.step hC h)
    (fun _ hs _ => hs.uncaptured) (separate_start requests) h

/-- No event gives money back: what is captured stays captured, cancelled or not. -/
theorem payments_kept {as : List (Action ι κ ν)} (h : exec (step isUuid) s as = some t) :
    s.payments.db.payments <+: t.payments.db.payments := by
  refine exec_rel (R := fun s t => s.payments.db.payments <+: t.payments.db.payments)
    (fun _ => List.prefix_rfl) (fun _ _ _ => List.IsPrefix.trans) (fun s a t h => ?_) h
  cases step_effect h with
  | create | cancel | poll => exact List.prefix_rfl
  | receive n k partition now m t hn hm hr =>
    rw [(receive_frame hr).2.1]
  | handle n x k c w c' hn he =>
    rw [(s.advance_frame n k w c').2.1]
    rcases he.payments with hp | ⟨d, amount, -, hp⟩
    · rw [hp]
    · exact hp ▸ List.prefix_append _ _

end Steps

end System

/-- The customer of an order for one hundred dollars cancels it. -/
def sampleCancellation (_ : Unit) : Cancellation := ⟨1, ⟨"user-1", none⟩, none⟩

def sampleOrder : CreateOrder :=
  ⟨"user-1", "address-1", none, [⟨"product-1", 2, .text ⟨5000⟩, "Pen", "PEN-1"⟩],
    "ORD-19700101-00001", none, 0, "1970-01-01T00:00:00.000Z", .exact⟩

def declined : PaymentService.Answer := ⟨0, ⟨false, "txn-1", "mock", some "declined"⟩⟩

/-- The order is created and charged, then cancelled, and both of its events are handled. -/
def chargedAndCancelled (x : PaymentService.Answer) : List (Action Unit Unit Unit) :=
  [.create sampleOrder] ++ List.replicate 4 (.poll () (fun _ => 0) 1) ++ [.receive () 0 "0" 1] ++
    List.replicate 6 (.handle () x) ++
    List.replicate 4 (.cancel () ⟨2, "1970-01-01T00:00:02.000Z"⟩) ++
    List.replicate 4 (.poll () (fun _ => 0) 3) ++ [.receive () 1 "0" 3]

/-- The charge is accepted, the order cancelled, its event ignored: the money stays captured. -/
theorem cancelled_captured :
    ∃ s ∈ exec (System.step fun _ => false) (System.start sampleCancellation)
      (chargedAndCancelled approved), s.Quiescent ∧ ¬ s.Uncaptured := by
  decide +kernel

theorem cancelled_declined :
    (∃ s ∈ exec (System.step fun _ => false) (System.start sampleCancellation)
      (chargedAndCancelled declined), s.Quiescent ∧ s.Cancelled "1") ∧
    Always (System.step fun _ => false) (fun s => s.Quiescent → s.Uncaptured)
      (System.start sampleCancellation) (chargedAndCancelled declined) :=
  ⟨by decide +kernel, System.uncaptured_of_exclusive _ _ _ (by decide +kernel)⟩

end Saga
