import OrderPlatform.OrderService.Relay
import OrderPlatform.Store.Pipeline

/-! # Order of an order's events

A poll publishes its batch oldest first, but goes on with the batch after a publish that
failed. The rows of one order first appear in the order of their creation as long as a
row that fails has no younger row of its order behind it in the batch.
-/

namespace OrderService

open Runs Store Wire

/-- Two rows of one order, the first created before the second. -/
def Broker.Precedes (b : Broker) : Uuid → Uuid → Prop :=
  Older Outbox.id Outbox.aggregateId Outbox.createdAt b.outbox

def Broker.publishedIds (b : Broker) : List Uuid := b.published.map Message.rowId

/-- The entries a poll has still to publish. -/
def Relay.queue : Relay → List Outbox
  | .idle => []
  | .publishing entries | .marking _ entries | .failing _ entries => entries

/--
A publish that fails, of a row that was not published before, leaves no younger row of its
order in the batch. A row is appended after the older rows of its order.
-/
def KeepsOrder (p : Pool Broker Relay Unit) : RelayAction Unit → Prop
  | .poll i x =>
    match p.calls i with
    | .publishing (entry :: entries) => x.fails = true → x.lands = false →
        entry.id ∈ p.store.publishedIds ∨ ∀ e ∈ entries, ¬ p.store.Precedes entry.id e.id
    | _ => True
  | .crash _ => True
  | .append row => ∀ r ∈ p.store.outbox, r.aggregateId = row.aggregateId →
      r.createdAt ≤ row.createdAt

instance (b : Broker) (i j : Uuid) : Decidable (b.Precedes i j) :=
  inferInstanceAs (Decidable (Older _ _ _ _ _ _))

instance (p : Pool Broker Relay Unit) (a : RelayAction Unit) : Decidable (KeepsOrder p a) := by
  unfold KeepsOrder
  repeat' split
  all_goals infer_instance

def pipeline (b : Broker) (c : Relay) : Pipeline Uuid where
  seen := b.publishedIds
  flight := []
  queue := c.queue.map Outbox.id
  retired id := ∃ row ∈ b.outbox, row.id = id ∧ row.status = .sent

/-- The published rows and the batch are rows of the outbox, and in order so far. -/
structure Sequenced (b : Broker) (c : Relay) : Prop where
  ids : (b.outbox.map Outbox.id).Nodup
  seen : ∀ id ∈ b.publishedIds, id ∈ b.outbox.map Outbox.id
  queue : ∀ e ∈ c.queue, e.id ∈ b.outbox.map Outbox.id
  ordered : (pipeline b c).Ordered b.Precedes

section Steps

variable {b b' : Broker} {c c' : Relay} {entry : Outbox} {entries : List Outbox}

theorem Sequenced.idle (h : Sequenced b c) : Sequenced b .idle where
  ids := h.ids
  seen := h.seen
  queue := by simp [Relay.queue]
  ordered := h.ordered.drop

/-- Rewriting rows in place changes neither their order nor what has been sent already. -/
theorem Sequenced.rewrite (h : Sequenced b c) {f : Outbox → Outbox} {id : Uuid}
    (hm : ∀ row, (f row).message = row.message) (ht : ∀ row, (f row).createdAt = row.createdAt)
    (hg : ∀ row, (f row).aggregateId = row.aggregateId)
    (hs : ∀ row, row.status = .sent → (f row).status = .sent) (hq : c'.queue = c.queue) :
    Sequenced { b with outbox := update Outbox.id id f b.outbox } c' := by
  have hids : (update Outbox.id id f b.outbox).map Outbox.id = b.outbox.map Outbox.id :=
    map_update_of_eq _ fun row _ => congrArg Message.rowId (hm row)
  refine ⟨hids ▸ h.ids, hids ▸ h.seen, fun e he => hids ▸ h.queue e (hq ▸ he), ?_⟩
  have hp : pipeline { b with outbox := update Outbox.id id f b.outbox } c' =
      { pipeline b c with
        retired := (pipeline { b with outbox := update Outbox.id id f b.outbox } c).retired } := by
    simp only [pipeline, hq]
    rfl
  rw [hp]
  refine h.ordered.rewrite (fun row => congrArg Message.rowId (hm row)) hg ht ?_
  rintro i ⟨row, hrow, rfl, hsent⟩
  have hkept : Kept b { b with outbox := update Outbox.id id f b.outbox } := kept_update hm hs rfl
  obtain ⟨row', hrow', hm', hs'⟩ := hkept row hrow
  exact ⟨row', hrow', congrArg Message.rowId hm', hs' hsent⟩

theorem Sequenced.markSent (h : Sequenced b c) {id : Uuid} {now : ℕ} (hq : c'.queue = c.queue) :
    Sequenced (b.markSent id now) c' :=
  h.rewrite (fun _ => rfl) (fun _ => rfl) (fun _ => rfl) (fun _ _ => rfl) hq

theorem Sequenced.markFailed (h : Sequenced b c) {id : Uuid} (hq : c'.queue = c.queue) :
    Sequenced (b.markFailed id) c' :=
  h.rewrite (fun _ => rfl) (fun _ => rfl) (fun _ => rfl) (fun _ hs => hs) hq

theorem Sequenced.fetch (h : Sequenced b .idle) (rank : Outbox → ℕ) :
    Sequenced b (.publishing (b.fetchPending 50 rank)) := by
  refine ⟨h.ids, h.seen, fun e he => List.mem_map_of_mem
    (List.mem_filter.mp (mem_of_mem_oldest he)).1, h.ordered.fetch h.ids (fun i => ?_) rank 50⟩
  have hs : ∀ row : Outbox, row.status = .sent ↔ decide (row.status = .pending) = false := by
    intro row
    cases row.status <;> decide
  simp only [pipeline, hs]

theorem Sequenced.publish (h : Sequenced b (.publishing (entry :: entries))) (acked : List Message)
    (hq : c'.queue = entries) :
    Sequenced { b with
      published := b.published ++ [entry.message]
      acked := acked } c' := by
  have hid : entry.id ∈ b.outbox.map Outbox.id := h.queue entry (by simp [Relay.queue])
  have hseen : Broker.publishedIds { b with
      published := b.published ++ [entry.message]
      acked := acked } = b.publishedIds ++ [entry.id] := List.map_append
  refine ⟨h.ids, ?_, fun e he => h.queue e ?_, ?_⟩
  · rw [hseen]
    exact forall_mem_concat h.seen hid
  · rw [hq] at he
    exact List.mem_cons_of_mem _ he
  · have hp := h.ordered.pass rfl rfl (Older.irrefl h.ids)
    simp only [pipeline, hseen, hq]
    exact hp

theorem Sequenced.skip (h : Sequenced b (.publishing (entry :: entries)))
    (he : entry.id ∈ b.publishedIds ∨ ∀ e ∈ entries, ¬ b.Precedes entry.id e.id)
    (hq : c'.queue = entries) : Sequenced b c' := by
  refine ⟨h.ids, h.seen, fun e he => h.queue e ?_, ?_⟩
  · rw [hq] at he
    exact List.mem_cons_of_mem _ he
  · have hp := h.ordered.skip (a := entry.id) (q := entries.map Outbox.id) rfl (he.imp_right
      fun hn => by simpa using hn)
    simp only [pipeline, hq]
    exact hp

theorem Sequenced.append (h : Sequenced b c) {row : Outbox} (hid : row.id ∉ b.outbox.map Outbox.id)
    (ht : ∀ r ∈ b.outbox, r.aggregateId = row.aggregateId → r.createdAt ≤ row.createdAt) :
    Sequenced { b with outbox := b.outbox ++ [row] } c := by
  refine ⟨nodup_map_concat h.ids fun r hr he => hid (he ▸ List.mem_map_of_mem hr),
    fun i hi => mem_map_concat (h.seen i hi), fun e he => mem_map_concat (h.queue e he),
    h.ordered.append hid ht h.seen (fun i hi => nomatch hi) (List.forall_mem_map.mpr h.queue) ?_⟩
  rintro i ⟨r, hr, hi, hsent⟩
  exact ⟨r, List.mem_append_left _ hr, hi, hsent⟩

/-- What a step of the only instance keeps, given its condition. -/
theorem Sequenced.step (h : Sequenced b c) {x : RelayAnswer}
    (hx : ∀ entry entries, c = .publishing (entry :: entries) → x.fails = true → x.lands = false →
      entry.id ∈ b.publishedIds ∨ ∀ e ∈ entries, ¬ b.Precedes entry.id e.id)
    (hM : relayStep b c x = some (b', c')) : Sequenced b' c' := by
  cases c with
  | idle =>
    simp only [relayStep] at hM
    split at hM <;> cases hM
    · exact h
    · exact h.fetch x.rank
  | publishing entries =>
    cases entries with
    | nil =>
      cases hM
      exact h.idle
    | cons entry entries =>
      simp only [relayStep] at hM
      split at hM
      · rename_i hf
        split at hM <;> cases hM
        · exact h.publish b.acked rfl
        · rename_i hl
          exact h.skip (hx entry entries rfl hf (by simpa using hl)) rfl
      · cases hM
        exact h.publish _ rfl
  | marking entry entries =>
    simp only [relayStep] at hM
    split at hM
    · split at hM <;> cases hM
      · exact h.markSent rfl
      · exact ⟨h.ids, h.seen, h.queue, h.ordered⟩
    · cases hM
      exact h.markSent rfl
  | failing entry entries =>
    simp only [relayStep] at hM
    split at hM
    · split at hM <;> cases hM
      · have hfailed : Sequenced (b.markFailed entry.id) (.failing entry entries) :=
          h.markFailed rfl
        exact hfailed.idle
      · exact h.idle
    · cases hM
      exact h.markFailed rfl

end Steps

theorem Sequenced.act {p q : Pool Broker Relay Unit} {a : RelayAction Unit}
    (hp : Sequenced p.store (p.calls ())) (hC : KeepsOrder p a) (h : relayAct p a = some q) :
    Sequenced q.store (q.calls ()) := by
  cases a with
  | poll i x =>
    obtain ⟨b', c', hM, rfl⟩ := Pool.act_eq_some.mp h
    simp only [Function.update_self]
    refine hp.step (fun entry entries hc hf hl => ?_) hM
    simp only [KeepsOrder, hc] at hC
    exact hC hf hl
  | crash i =>
    cases h
    simpa using hp.idle
  | append row =>
    simp only [relayAct] at h
    split at h <;> cases h
    rename_i hrow
    exact hp.append hrow.2 hC

def relayOf (outbox : List Outbox) : Pool Broker Relay Unit := ⟨⟨outbox, [], []⟩, fun _ => .idle⟩

/-- The rows of one order are first published in the order of their creation. -/
def InCreationOrder (b : Broker) : Prop := InOrder b.Precedes b.publishedIds

/--
From every outbox, in every run whose steps keep the order, the rows of one order are
first published in the order of their creation.
-/
theorem published_in_order {outbox : List Outbox} (hn : (outbox.map Outbox.id).Nodup)
    (as : List (RelayAction Unit)) (h : AllSteps relayAct KeepsOrder (relayOf outbox) as) :
    Always relayAct (fun p => InCreationOrder p.store) (relayOf outbox) as := by
  refine always_of_allSteps (I := fun p => Sequenced p.store (p.calls ()))
    (fun _ _ _ hp hC h => hp.act hC h) (fun p (hp : Sequenced p.store (p.calls ())) =>
      hp.ordered.seen) ?_ h
  refine ⟨hn, by simp [Broker.publishedIds, relayOf], by simp [Relay.queue, relayOf], ?_⟩
  constructor <;> simp [pipeline, relayOf, Relay.queue, Broker.publishedIds, inOrder_nil]

end OrderService
