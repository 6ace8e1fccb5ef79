import OrderPlatform.Saga.OrderPayments

/-! # The platform left undisturbed

The system of orders and their charges, in which nothing fails, is the platform with its failures
left out: each of its steps is one of a process of the platform. What every step of the platform
keeps, messages that announce orders and payments that are theirs, is kept here too.
-/

namespace Saga

open Runs Store Wire
open OrderService (statusStep_effect relayStep_effect)
open PaymentService (ChargeCall Delivery process)

variable {ι κ ν : Type}

def Handler.call : Handler → Option ChargeCall
  | .idle => none
  | .charging _ c => some c

theorem Handler.idle_of_call {handler : Handler} (h : handler.call = none) : handler = .idle := by
  cases handler with
  | idle => rfl
  | charging k c => cases h

namespace System

/-- The stores, with a notification service that has nothing to do. -/
def network (s : System ι κ ν) : Network :=
  ⟨s.orders, s.published, s.acked, s.redis, s.payments, .empty, []⟩

/-- The processes: the client, the cancellations, the relays and the handlers. -/
def parties (s : System ι κ ν) : Option (ι ⊕ κ ⊕ ν) → Party
  | none => .client
  | some (.inl i) => .changing (s.cancels i)
  | some (.inr (.inl j)) => .relaying (s.relays j)
  | some (.inr (.inr n)) => .charging (s.handlers n).call

variable [DecidableEq ι] [DecidableEq κ] [DecidableEq ν] {isUuid : String → Bool}
  {s t : System ι κ ν} {a : Action ι κ ν}

omit [DecidableEq ι] [DecidableEq κ] in
/-- What taking a message makes of the stores and of the handlers. -/
theorem network_receive {n : ν} {k : ℕ} {d : Delivery Unit} (hn : s.handlers n = .idle)
    (h : s.receive n k d = some t) : ∃ c, s.network.receive d = some (t.network, c) ∧
      t.handlers = Function.update s.handlers n (c.elim .idle (.charging k)) ∧
      t.cancels = s.cancels ∧ t.relays = s.relays := by
  have hidle : s.handlers = Function.update s.handlers n .idle := by
    rw [← hn, Function.update_eq_self]
  have hredis : s.network.redis = s.redis := rfl
  unfold receive at h
  unfold Network.receive
  rw [hredis]
  generalize process accept ⟨s.redis, none⟩ d = r at h ⊢
  obtain ⟨c, o⟩ := r
  cases o with
  | threw | skipped =>
    cases h
    exact ⟨none, rfl, hidle, rfl, rfl⟩
  | completed =>
    dsimp only at h ⊢
    cases hc : c.store with
    | none =>
      rw [hc] at h
      cases h
      exact ⟨none, rfl, hidle, rfl, rfl⟩
    | some call =>
      rw [hc] at h
      cases call with
      | processRefundRequired | processInventoryReservationFailed => cases h
      | processOrderCreated data corr =>
        obtain ⟨event, hevent, rfl⟩ := Option.map_eq_some_iff.mp h
        dsimp only
        rw [hevent]
        exact ⟨_, rfl, rfl, rfl, rfl⟩

omit [DecidableEq ι] [DecidableEq κ] in
theorem network_advance (n : ν) (k : ℕ) (w : PaymentService.World) (c : ChargeCall) :
    (s.advance n k w c).network = { s.network with payments := w } ∧
      (s.advance n k w c).handlers =
        Function.update s.handlers n ((ChargeCall.live c).elim .idle (.charging k)) ∧
      (s.advance n k w c).cancels = s.cancels ∧ (s.advance n k w c).relays = s.relays := by
  cases c <;> exact ⟨rfl, rfl, rfl, rfl⟩

theorem call_elim (c : Option ChargeCall) (k : ℕ) :
    Handler.call (c.elim .idle (.charging k)) = c := by
  cases c <;> rfl

omit [DecidableEq ι] [DecidableEq κ] in
/-- A step of a handler is one of a consumer. -/
theorem parties_handler {n : ν} {k : ℕ} {c : Option ChargeCall}
    (hh : t.handlers = Function.update s.handlers n (c.elim .idle (.charging k)))
    (hc : t.cancels = s.cancels) (hr : t.relays = s.relays) :
    t.parties (some (.inr (.inr n))) = .charging c ∧
      ∀ i, i ≠ some (.inr (.inr n)) → t.parties i = s.parties i := by
  constructor
  · simp [parties, hh, call_elim]
  · rintro (_ | i | j | m) hne
    · rfl
    · simp [parties, hc]
    · simp [parties, hr]
    · have hm : m ≠ n := fun he => hne (he ▸ rfl)
      simp [parties, hh, hm]

/-- Each step is one of a process of the platform. -/
theorem step_network (h : step isUuid s a = some t) :
    ∃ i q, NetworkEffect isUuid s.network (s.parties i) t.network q ∧
      t.parties i = q ∧ ∀ j, j ≠ i → t.parties j = s.parties j := by
  cases a with
  | create data =>
    cases h
    refine ⟨none, _, .create data none, rfl, fun j _ => ?_⟩
    cases j <;> rfl
  | cancel i x =>
    obtain ⟨⟨w, c⟩, hr, rfl⟩ := Option.map_eq_some_iff.mp h
    refine ⟨some (.inl i), _, .change _ c ⟨x, false⟩ w (statusStep_effect hr), ?_, ?_⟩
    · simp [parties]
    · rintro (_ | i' | j | n) hne <;> try rfl
      have hi : i' ≠ i := fun he => hne (he ▸ rfl)
      simp [parties, hi]
  | poll j rank now =>
    obtain ⟨⟨b, c⟩, hr, rfl⟩ := Option.map_eq_some_iff.mp h
    refine ⟨some (.inr (.inl j)), _, .relay _ c b (relayStep_effect hr), ?_, ?_⟩
    · simp [parties]
    · rintro (_ | i | j' | n) hne <;> try rfl
      have hj : j' ≠ j := fun he => hne (he ▸ rfl)
      simp [parties, hj]
  | receive n k partition now =>
    simp only [step] at h
    split at h
    · rename_i m hn hm
      obtain ⟨c, hc, hh, hcancels, hrelays⟩ := network_receive hn h
      refine ⟨some (.inr (.inr n)), _, ?_, parties_handler hh hcancels hrelays⟩
      simp only [parties, hn]
      exact .receive m k partition now _ c (List.mem_of_getElem? hm) hc
    · cases h
  | handle n x =>
    simp only [step] at h
    split at h
    · cases h
    · rename_i k c hn
      obtain ⟨⟨w, c'⟩, hr, rfl⟩ := Option.map_eq_some_iff.mp h
      obtain ⟨hw, hh, hcancels, hrelays⟩ := @network_advance _ _ _ _ s n k w c'
      refine ⟨some (.inr (.inr n)), _, ?_, parties_handler hh hcancels hrelays⟩
      simp only [parties, hn, hw]
      exact .charge c c' x.env w hr

/-- Messages announce orders, payments are theirs, and every process keeps to both. -/
structure Agreeing (s : System ι κ ν) : Prop where
  announcing : s.network.Announcing
  paid : OrdersPaid s.orders.db.orders s.payments
  parties : ∀ i, (s.parties i).Announcing s.network ∧ (s.parties i).ForOrders s.network

theorem Agreeing.step (hs : s.Agreeing) (h : step isUuid s a = some t) : t.Agreeing := by
  obtain ⟨i, q, he, hq, hother⟩ := step_network h
  obtain ⟨hann, hparty⟩ := he.announcing hs.announcing (hs.parties i).1
  obtain ⟨hpaid, hfor⟩ := he.ordersPaid hs.announcing hs.paid (hs.parties i).2
  refine ⟨hann, hpaid, fun j => ?_⟩
  by_cases hj : j = i
  · subst hj
    exact hq ▸ ⟨hparty, hfor⟩
  · rw [hother j hj]
    exact ⟨(hs.parties j).1.kept he.kept, (hs.parties j).2.kept he.kept⟩

omit [DecidableEq ι] [DecidableEq κ] [DecidableEq ν] in
theorem agreeing_start (requests : ι → Cancellation) :
    (start requests : System ι κ ν).Agreeing := by
  have hnetwork : (start requests : System ι κ ν).network = .empty := rfl
  refine ⟨hnetwork ▸ announcing_empty, ?_, ?_⟩
  · constructor <;> simp [start, PaymentService.World.empty]
  · rintro (_ | i | j | n)
    · exact ⟨Party.Starts.client.announcing, Party.Starts.client.forOrders⟩
    · have hstarts := Party.Starts.changing _ (.cancel (requests i).orderId
        (requests i).currentUser (requests i).reason)
      exact ⟨hstarts.announcing, hstarts.forOrders⟩
    · exact ⟨Party.Starts.relaying.announcing, Party.Starts.relaying.forOrders⟩
    · exact ⟨Party.Starts.charging.announcing, Party.Starts.charging.forOrders⟩

end System

end Saga
