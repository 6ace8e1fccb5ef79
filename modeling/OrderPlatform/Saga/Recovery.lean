import OrderPlatform.OrderService.Draining
import OrderPlatform.Saga.Announcements
import OrderPlatform.Saga.Cancellation

/-! # Recovery of the order topic

Whatever failed and whichever relays died in the middle of a batch, nothing is lost: from every
state the platform can reach, one relay that starts again and is not disturbed publishes all that
was not published yet, once and in order, and leaves every row marked.
-/

namespace Saga

open Runs Store Wire
open OrderService (Outbox Message Broker Relay RelayAnswer RelayEffect Faithful relayStep
  createOrder_cases answers exists_drained published_relayed)

/-- The relays' work is sound, and identifiers of rows are drawn. -/
structure Network.Relayed (n : Network) : Prop where
  broker : Faithful n.broker
  drawn : ∀ row ∈ n.orders.db.outbox, row.id < n.orders.fresh

def Party.Relayed (n : Network) : Party → Prop
  | .relaying c => c.Copies n.broker
  | _ => True

section Invariant

variable {isUuid : String → Bool} {n n' : Network} {q q' : Party}

theorem Network.Relayed.of_orders (hn : n.Relayed) (ho : n'.orders = n.orders)
    (hp : n'.published = n.published) (ha : n'.acked = n.acked) : n'.Relayed where
  broker := by
    unfold Network.broker
    rw [ho, hp, ha]
    exact hn.broker
  drawn := by
    rw [ho]
    exact hn.drawn

/-- A new row under an identifier drawn for it. -/
theorem Network.Relayed.append (hn : n.Relayed) {row : Outbox} (hs : row.status = .pending)
    (hid : n.orders.fresh ≤ row.id) (hf : row.id < n'.orders.fresh)
    (ho : n'.orders.db.outbox = n.orders.db.outbox ++ [row])
    (hp : n'.published = n.published) (ha : n'.acked = n.acked) : n'.Relayed where
  broker := by
    unfold Network.broker
    rw [ho, hp, ha]
    refine hn.broker.append hs fun hm => ?_
    obtain ⟨row', hrow', he⟩ := List.mem_map.mp hm
    exact (hn.drawn row' hrow').not_ge (he ▸ hid)
  drawn := by
    rw [ho]
    exact forall_mem_concat (fun row' hrow' => (hn.drawn row' hrow').trans (hid.trans_lt hf)) hf

theorem ids_of_relay {b b' : Broker} {c c' : Relay} (h : RelayEffect b c b' c') :
    b'.outbox.map Outbox.id = b.outbox.map Outbox.id := by
  have hm := congrArg (List.map Message.rowId) (messages_of_relay h)
  rw [List.map_map, List.map_map] at hm
  exact hm

theorem NetworkEffect.relayed (hn : n.Relayed) (hq : q.Relayed n)
    (h : NetworkEffect isUuid n q n' q') : n'.Relayed ∧ q'.Relayed n' := by
  have hk := h.kept
  cases h with
  | create data failAt =>
    refine ⟨?_, trivial⟩
    rcases createOrder_cases n.orders isUuid data failAt with h | h
    · rw [h]
      exact ⟨hn.broker, fun row hrow => (hn.drawn row hrow).trans_le (Nat.le_add_right _ _)⟩
    · rw [h]
      exact hn.append rfl (Nat.le_add_right _ 3) (Nat.add_lt_add_left (show 3 < 5 by decide) _)
        rfl rfl rfl
  | change c c' x w h =>
    refine ⟨?_, trivial⟩
    cases h with
    | insert r order answer =>
      exact hn.append rfl (Nat.le_add_right _ 1) (Nat.add_lt_add_left (show 1 < 3 by decide) _)
        rfl rfl rfl
    | _ => exact ⟨hn.broker, hn.drawn⟩
  | relay c c' b h =>
    obtain ⟨hb, hc⟩ := h.faithful hn.broker hq
    refine ⟨⟨hb, fun row hrow => ?_⟩, hc⟩
    have hid : row.id ∈ n.orders.db.outbox.map Outbox.id :=
      (ids_of_relay h) ▸ List.mem_map_of_mem hrow
    obtain ⟨row', hrow', he⟩ := List.mem_map.mp hid
    exact he ▸ hn.drawn row' hrow'
  | restart c => exact ⟨hn, trivial⟩
  | receive m k partition now n' c hm h =>
    rw [receive_redis h]
    exact ⟨hn.of_orders rfl rfl rfl, trivial⟩
  | abandon c =>
    refine ⟨hn.of_orders (orders_abandon n c) ?_ (acked_abandon n c), trivial⟩
    unfold Network.abandon
    split <;> rfl
  | _ => exact ⟨hn.of_orders rfl rfl rfl, trivial⟩

theorem Party.Relayed.kept (h : q.Relayed n) (hk : n.Kept n') : q.Relayed n' := by
  unfold Party.Relayed at h ⊢
  split at h
  · exact h.mono hk.outbox hk.acked
  · trivial

theorem relayed_empty : Network.empty.Relayed where
  broker := by constructor <;> simp [Network.empty, Network.broker, OrderService.World.empty]
  drawn _ h := nomatch h

theorem Party.Starts.relayed (h : q.Starts) : q.Relayed n := by
  cases h <;> trivial

end Invariant

section Relays

variable {isUuid : String → Bool} {Id : Type} [DecidableEq Id] {n : Network}

@[simp] theorem setBroker_broker (n : Network) : n.setBroker n.broker = n := rfl

/-- A relay on its own does on the platform what it does on its outbox and topic. -/
theorem solo_relaying {b' : Broker} {c c' : Relay} {xs : List RelayAnswer}
    (h : exec (Machine.solo relayStep) (n.broker, c) xs = some (b', c')) :
    exec (Machine.solo (networkStep isUuid)) (n, .relaying c) (xs.map .poll) =
      some (n.setBroker b', .relaying c') := by
  induction xs generalizing n c with
  | nil =>
    cases h
    rfl
  | cons x xs ih =>
    obtain ⟨⟨b, k⟩, hx, h⟩ := exec_cons_eq_some.mp h
    have hstep : Machine.solo (networkStep isUuid) (n, .relaying c) (.poll x) =
        some (n.setBroker b, .relaying k) :=
      Option.map_eq_some_iff.mpr ⟨_, hx, rfl⟩
    rw [List.map_cons, exec_cons, hstep]
    exact @ih (n.setBroker b) k h

/-- Relays stay relays. -/
theorem relaying_kept {parties : Id → Party} {inputs : List (Id × Stimulus)}
    {q : Pool Network Party Id} {i : Id} (hi : parties i = .relaying .idle)
    (h : exec (Pool.act (networkStep isUuid)) ⟨.empty, parties⟩ inputs = some q) :
    ∃ c, q.calls i = .relaying c := by
  refine exec_invariant (I := fun p : Pool Network Party Id => ∃ c, p.calls i = .relaying c)
    (fun p a p' hp hact => ?_) ⟨.idle, hi⟩ h
  obtain ⟨s, k, hk, rfl⟩ := Pool.act_eq_some.mp hact
  obtain ⟨c, hc⟩ := hp
  by_cases ha : i = a.1
  · subst ha
    rw [hc] at hk
    have he := networkStep_effect hk
    simp only [Function.update_self]
    cases he <;> exact ⟨_, rfl⟩
  · exact ⟨c, (Function.update_of_ne ha _ _).trans hc⟩

theorem relayed_exec {parties : Id → Party} (hparties : ∀ i, (parties i).Starts)
    {inputs : List (Id × Stimulus)} {q : Pool Network Party Id}
    (h : exec (Pool.act (networkStep isUuid)) ⟨.empty, parties⟩ inputs = some q) :
    q.store.Relayed :=
  (network_invariant Network.Relayed (fun n q => q.Relayed n) relayed_empty
    (fun _ hq => hq.relayed) (fun _ _ _ _ _ _ hG hL he => he.relayed hG hL)
    (fun _ _ _ hk hl => hl.kept hk) hparties h).2

end Relays

/--
From every state that a run of the platform reaches, whatever failed in it, any relay that starts
again and meets no failure publishes the rows that are still pending, each once and by age. Then
every event of every order is acknowledged and marked, and nothing else has changed. While the
clock stands and ties fall alike, the entries are those of a single poll without a limit.
-/
theorem outbox_recovers {isUuid : String → Bool} {Id : Type} [DecidableEq Id]
    {parties : Id → Party} (hparties : ∀ i, (parties i).Starts)
    {inputs : List (Id × Stimulus)} {q : Pool Network Party Id}
    (h : exec (Pool.act (networkStep isUuid)) ⟨.empty, parties⟩ inputs = some q) {i : Id}
    (hi : parties i = .relaying .idle) {x : ℕ → RelayAnswer} (hx : ∀ k, (x k).fails = false) :
    ∃ m q' entries,
      exec (Pool.act (networkStep isUuid)) q
        ((i, .crash) :: (answers x m).map fun a => (i, .poll a)) = some q' ∧
      q'.store = q.store.setBroker (q.store.broker.relayed entries) ∧
      q.store.broker.Drains entries ∧
      q'.store.published = q.store.published ++ entries.map (fun e => e.1.message) ∧
      (∀ rank now, (∀ k, (x k).rank = rank ∧ (x k).now = now) →
        entries = (q.store.broker.queue rank).map fun entry => (entry, now)) ∧
      ∀ row ∈ q'.store.orders.db.outbox, row.status = .sent ∧ row.message ∈ q'.store.acked := by
  have hn := relayed_exec hparties h
  obtain ⟨c, hc⟩ := relaying_kept hi h
  obtain ⟨m, entries, hm, hdrains, hconst⟩ := exists_drained q.store.broker hn.broker.ids hx
  have hsolo := @solo_relaying isUuid q.store _ _ _ _ hm
  have hcrash : Pool.act (networkStep isUuid) q (i, .crash) =
      some ⟨q.store, Function.update q.calls i (.relaying .idle)⟩ := by
    refine Pool.act_eq_some.mpr ⟨_, _, ?_, rfl⟩
    rw [hc]
    rfl
  obtain ⟨q', hq', hstore⟩ : ∃ q', exec (Pool.act (networkStep isUuid))
      ⟨q.store, Function.update q.calls i (.relaying .idle)⟩
        (((answers x m).map .poll).map fun a => (i, a)) = some q' ∧
      q'.store = q.store.setBroker (q.store.broker.relayed entries) :=
    ⟨_, Pool.exec_solo (by rwa [Function.update_self]), rfl⟩
  refine ⟨m, q', entries, ?_, hstore, hdrains, ?_, hconst, ?_⟩
  · rw [exec_cons, hcrash, Option.bind_some, ← hq', List.map_map]
    rfl
  · rw [hstore]
    exact published_relayed
  · rw [hstore]
    exact hdrains.settled hn.broker.sent

/-- A relay that dies with the message of an order published and its row not marked. -/
def interrupted : List (Fin 2 × Stimulus) :=
  [(0, .create sampleOrder none)] ++ List.replicate 2 (1, .poll ⟨fun _ => 0, 1, false, false⟩)

def office : Fin 2 → Party
  | 0 => .client
  | 1 => .relaying .idle

theorem office_starts : ∀ i, (office i).Starts
  | 0 => .client
  | 1 => .relaying

/-- The clock goes on from one request to the next. -/
def ticking (k : ℕ) : RelayAnswer := ⟨fun _ => 0, 5 + k, false, false⟩

theorem interrupted_recovers :
    ∃ q ∈ exec (Pool.act (networkStep fun _ => false)) ⟨.empty, office⟩ interrupted,
      (∃ row ∈ q.store.orders.db.outbox, row.status = .pending) ∧
      ∃ m q' entries, exec (Pool.act (networkStep fun _ => false)) q
          ((1, .crash) :: (answers ticking m).map fun a => (1, .poll a)) = some q' ∧
        q'.store = q.store.setBroker (q.store.broker.relayed entries) ∧
        q.store.broker.Drains entries ∧
        q'.store.published = q.store.published ++ entries.map (fun e => e.1.message) ∧
        (∀ rank now, (∀ k, (ticking k).rank = rank ∧ (ticking k).now = now) →
          entries = (q.store.broker.queue rank).map fun entry => (entry, now)) ∧
        ∀ row ∈ q'.store.orders.db.outbox, row.status = .sent ∧ row.message ∈ q'.store.acked := by
  obtain ⟨q, hq, hp⟩ : ∃ q ∈ exec (Pool.act (networkStep fun _ => false)) ⟨.empty, office⟩
      interrupted, ∃ row ∈ q.store.orders.db.outbox, row.status = .pending := by
    decide +kernel
  exact ⟨q, hq, hp, outbox_recovers office_starts hq rfl fun _ => rfl⟩

end Saga
