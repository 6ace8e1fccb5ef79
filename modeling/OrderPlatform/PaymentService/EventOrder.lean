import OrderPlatform.PaymentService.Relay
import OrderPlatform.Store.Pipeline

/-! # Order of a payment's events

A poll goes on with its batch after a publication that threw, and waits for none of the
sends it has started. The rows of one payment are first accepted in the order of their
creation as long as a row that fails has no younger row of its payment behind it, and the
broker accepts the sends of a payment in their order.
-/

namespace PaymentService

open Runs Store Wire

/-- Two rows of one payment, the first created before the second. -/
def Broker.Precedes (b : Broker) : Uuid → Uuid → Prop :=
  Older Outbox.id Outbox.aggregateId Outbox.createdAt b.outbox

def Broker.acceptedIds (b : Broker) : List Uuid := b.accepted.map Message.rowId

/-- The rows a poll has still to publish. -/
def Poll.queue : Poll → List Outbox
  | .idle => []
  | .publishing pending _ => pending

/--
A row that fails and was not accepted before, when its publication throws or its send is
rejected, has no younger row of its payment behind it; and a send is accepted after those
of the older rows of its payment. A row is appended after the older rows of its payment.
-/
def KeepsOrder (p : Pool Broker Poll Unit) : RelayAction Unit → Prop
  | .poll i x =>
    match p.calls i with
    | .publishing (row :: pending) _ => x.fails = true →
        row.id ∈ p.store.acceptedIds ∨ ∀ r ∈ pending, ¬ p.store.Precedes row.id r.id
    | _ => True
  | .crash _ => True
  | .settle k true => ∀ m ∈ p.store.inFlight[k]?,
      ∀ m' ∈ p.store.inFlight.eraseIdx k, p.store.Precedes m'.rowId m.rowId →
        m'.rowId ∈ p.store.acceptedIds
  | .settle k false => ∀ m ∈ p.store.inFlight[k]?,
      m.rowId ∈ p.store.acceptedIds ∨
        (∀ m' ∈ p.store.inFlight.eraseIdx k, ¬ p.store.Precedes m.rowId m'.rowId) ∧
        ∀ r ∈ (p.calls ()).queue, ¬ p.store.Precedes m.rowId r.id
  | .append row => row.id ∉ p.store.outbox.map Outbox.id ∧
      ∀ r ∈ p.store.outbox, r.aggregateId = row.aggregateId → r.createdAt ≤ row.createdAt

instance (b : Broker) (i j : Uuid) : Decidable (b.Precedes i j) :=
  inferInstanceAs (Decidable (Older _ _ _ _ _ _))

instance (p : Pool Broker Poll Unit) (a : RelayAction Unit) : Decidable (KeepsOrder p a) := by
  unfold KeepsOrder
  repeat' split
  all_goals infer_instance

def pipeline (b : Broker) (c : Poll) : Pipeline Uuid where
  seen := b.acceptedIds
  flight := b.inFlight.map Message.rowId
  queue := c.queue.map Outbox.id
  retired id := ∃ row ∈ b.outbox, row.id = id ∧ row.status = .sent

/-- Accepted messages, sends and the batch are of rows of the outbox, and in order so far. -/
structure Sequenced (b : Broker) (c : Poll) : Prop where
  ids : (b.outbox.map Outbox.id).Nodup
  seen : ∀ id ∈ b.acceptedIds, id ∈ b.outbox.map Outbox.id
  flight : ∀ m ∈ b.inFlight, m.rowId ∈ b.outbox.map Outbox.id
  queue : ∀ r ∈ c.queue, r.id ∈ b.outbox.map Outbox.id
  ordered : (pipeline b c).Ordered b.Precedes

section Steps

variable {b b' : Broker} {c c' : Poll} {row : Outbox} {pending : List Outbox} {ids : List Uuid}

theorem Sequenced.idle (h : Sequenced b c) : Sequenced b .idle :=
  ⟨h.ids, h.seen, h.flight, by simp [Poll.queue], h.ordered.drop⟩

theorem Sequenced.markSent (h : Sequenced b c) (now : ℕ) : Sequenced (b.markSent ids now) c := by
  have hid : ∀ row : Outbox, (if row.id ∈ ids then
      { row with status := .sent, processedAt := some now } else row).id = row.id :=
    ite_eq_of_eq (g := Outbox.id) fun _ => rfl
  have hids : (b.markSent ids now).outbox.map Outbox.id = b.outbox.map Outbox.id := by
    rw [Broker.markSent, List.map_map]
    exact List.map_congr_left fun row _ => hid row
  refine ⟨hids ▸ h.ids, hids ▸ h.seen, hids ▸ h.flight, hids ▸ h.queue,
    Pipeline.Ordered.rewrite (f := fun row => { row with status := .sent, processedAt := some now })
      h.ordered (fun _ => rfl) (fun _ => rfl) (fun _ => rfl) ?_⟩
  rintro i ⟨row, hrow, rfl, hsent⟩
  refine ⟨_, List.mem_map_of_mem hrow, hid row, ?_⟩
  split
  · rfl
  · exact hsent

theorem Sequenced.fetch (h : Sequenced b .idle) (rank : Outbox → ℕ) :
    Sequenced b (.publishing (b.fetchPending 100 rank) []) := by
  refine ⟨h.ids, h.seen, h.flight, fun e he => List.mem_map_of_mem
    (List.mem_filter.mp (mem_of_mem_oldest he)).1, h.ordered.fetch h.ids (fun i => ?_) rank 100⟩
  have hs : ∀ row : Outbox, row.status = .sent ↔ decide (row.status = .pending) = false := by
    intro row
    cases row.status <;> decide
  simp only [pipeline, hs]

theorem Sequenced.publish {sentIds sentIds' : List Uuid}
    (h : Sequenced b (.publishing (row :: pending) sentIds)) (eventId correlationId : Uuid)
    (timestamp : String) (fresh : Uuid) :
    Sequenced { b with
      inFlight := b.inFlight ++ [publishPaymentEvent row eventId correlationId timestamp]
      fresh := fresh } (.publishing pending sentIds') := by
  refine ⟨h.ids, h.seen, forall_mem_concat h.flight (h.queue row List.mem_cons_self),
    fun r hr => h.queue r (List.mem_cons_of_mem _ hr), ?_⟩
  have hp := h.ordered.send (a := row.id) (q := pending.map Outbox.id) rfl
  simp only [pipeline, List.map_append]
  exact hp

theorem Sequenced.skip {sentIds : List Uuid}
    (h : Sequenced b (.publishing (row :: pending) sentIds))
    (hr : row.id ∈ b.acceptedIds ∨ ∀ r ∈ pending, ¬ b.Precedes row.id r.id) :
    Sequenced b (.publishing pending sentIds) := by
  refine ⟨h.ids, h.seen, h.flight, fun r hr => h.queue r (List.mem_cons_of_mem _ hr), ?_⟩
  exact h.ordered.skip (a := row.id) (q := pending.map Outbox.id) rfl
    (hr.imp_right fun hn => by simpa using hn)

theorem inFlight_split {k : ℕ} {m : Message} (h : b.inFlight[k]? = some m) :
    b.inFlight.map Message.rowId = (b.inFlight.take k).map Message.rowId ++
      m.rowId :: (b.inFlight.drop (k + 1)).map Message.rowId ∧
    (b.inFlight.eraseIdx k).map Message.rowId = (b.inFlight.take k).map Message.rowId ++
      (b.inFlight.drop (k + 1)).map Message.rowId := by
  obtain ⟨hk, rfl⟩ := List.getElem?_eq_some_iff.mp h
  constructor
  · conv_lhs => rw [← List.take_append_drop k b.inFlight, List.drop_eq_getElem_cons hk]
    rw [List.map_append, List.map_cons]
  · rw [List.eraseIdx_eq_take_drop_succ, List.map_append]

theorem Sequenced.accept (h : Sequenced b c) {k : ℕ} {m : Message} (hm : b.inFlight[k]? = some m)
    (hold : ∀ m' ∈ b.inFlight.eraseIdx k, b.Precedes m'.rowId m.rowId →
      m'.rowId ∈ b.acceptedIds) :
    Sequenced { b with
      inFlight := b.inFlight.eraseIdx k
      accepted := b.accepted ++ [m] } c := by
  obtain ⟨hf, he⟩ := inFlight_split hm
  have hseen : Broker.acceptedIds { b with
      inFlight := b.inFlight.eraseIdx k
      accepted := b.accepted ++ [m] } = b.acceptedIds ++ [m.rowId] := List.map_append
  refine ⟨h.ids, ?_, fun m' hm' => h.flight m' (List.mem_of_mem_eraseIdx hm'), h.queue, ?_⟩
  · rw [hseen]
    exact forall_mem_concat h.seen (h.flight m (List.mem_of_getElem? hm))
  · have hp := h.ordered.accept hf (fun i hi ho => ?_) (Older.irrefl h.ids)
    · simp only [pipeline, hseen, he]
      exact hp
    · obtain ⟨m', hm', rfl⟩ := List.mem_map.mp (he ▸ hi)
      exact hold m' hm' ho

theorem Sequenced.reject (h : Sequenced b c) {k : ℕ} {m : Message} (hm : b.inFlight[k]? = some m)
    (hnew : m.rowId ∈ b.acceptedIds ∨
      (∀ m' ∈ b.inFlight.eraseIdx k, ¬ b.Precedes m.rowId m'.rowId) ∧
      ∀ r ∈ c.queue, ¬ b.Precedes m.rowId r.id) :
    Sequenced { b with inFlight := b.inFlight.eraseIdx k } c := by
  obtain ⟨hf, he⟩ := inFlight_split hm
  refine ⟨h.ids, h.seen, fun m' hm' => h.flight m' (List.mem_of_mem_eraseIdx hm'), h.queue, ?_⟩
  have hp := h.ordered.lose hf (hnew.imp_right fun hn i hi => ?_) (Older.irrefl h.ids)
  · simp only [pipeline, he]
    exact hp
  · rcases List.mem_append.mp hi with hi | hi
    · obtain ⟨m', hm', rfl⟩ := List.mem_map.mp (he ▸ hi)
      exact hn.1 m' hm'
    · obtain ⟨r, hr, rfl⟩ := List.mem_map.mp hi
      exact hn.2 r hr

theorem Sequenced.append (h : Sequenced b c) (hid : row.id ∉ b.outbox.map Outbox.id)
    (ht : ∀ r ∈ b.outbox, r.aggregateId = row.aggregateId → r.createdAt ≤ row.createdAt) :
    Sequenced { b with outbox := b.outbox ++ [row] } c := by
  refine ⟨nodup_map_concat h.ids fun r hr he => hid (he ▸ List.mem_map_of_mem hr),
    fun i hi => mem_map_concat (h.seen i hi), fun m hm => mem_map_concat (h.flight m hm),
    fun r hr => mem_map_concat (h.queue r hr),
    h.ordered.append hid ht h.seen (List.forall_mem_map.mpr h.flight)
      (List.forall_mem_map.mpr h.queue) ?_⟩
  rintro i ⟨r, hr, hi, hsent⟩
  exact ⟨r, List.mem_append_left _ hr, hi, hsent⟩

theorem Sequenced.step (h : Sequenced b c) {x : PollAnswer}
    (hx : ∀ row pending sentIds, c = .publishing (row :: pending) sentIds → x.fails = true →
      row.id ∈ b.acceptedIds ∨ ∀ r ∈ pending, ¬ b.Precedes row.id r.id)
    (hM : pollStep b c x = some (b', c')) : Sequenced b' c' := by
  cases c with
  | idle =>
    simp only [pollStep] at hM
    split at hM <;> cases hM
    · exact h
    · exact h.fetch x.rank
  | publishing pending sentIds =>
    cases pending with
    | nil =>
      simp only [pollStep] at hM
      split at hM <;> cases hM
      · exact h.idle
      · exact (h.markSent x.now).idle
    | cons row pending =>
      simp only [pollStep] at hM
      split at hM <;> cases hM
      · exact h.skip (hx row pending sentIds rfl (by assumption))
      · exact h.publish b.fresh (b.fresh + 1) x.timestamp (b.fresh + 2)

end Steps

theorem Sequenced.act {p q : Pool Broker Poll Unit} {a : RelayAction Unit}
    (hp : Sequenced p.store (p.calls ())) (hC : KeepsOrder p a) (h : relayStep p a = some q) :
    Sequenced q.store (q.calls ()) := by
  cases a with
  | poll i x =>
    obtain ⟨b', c', hM, rfl⟩ := Pool.act_eq_some.mp h
    simp only [Function.update_self]
    refine hp.step (fun row pending sentIds hc hf => ?_) hM
    simp only [KeepsOrder, hc] at hC
    exact hC hf
  | crash i =>
    cases h
    simpa using hp.idle
  | settle k accepted =>
    obtain ⟨m, hm, rfl⟩ := Option.map_eq_some_iff.mp h
    cases accepted with
    | true => exact hp.accept hm (hC m hm)
    | false => exact hp.reject hm (hC m hm)
  | append row =>
    simp only [relayStep] at h
    split at h <;> cases h
    exact hp.append hC.1 hC.2

def relayOf (outbox : List Outbox) (fresh : Uuid) : Pool Broker Poll Unit :=
  ⟨⟨outbox, [], [], fresh⟩, fun _ => .idle⟩

/-- The rows of one payment are first accepted in the order of their creation. -/
def InCreationOrder (b : Broker) : Prop := InOrder b.Precedes b.acceptedIds

/--
From every outbox, in every run whose steps keep the order, the rows of one payment are
first accepted in the order of their creation.
-/
theorem accepted_in_order {outbox : List Outbox} (hn : (outbox.map Outbox.id).Nodup) (fresh : Uuid)
    (as : List (RelayAction Unit)) (h : AllSteps relayStep KeepsOrder (relayOf outbox fresh) as) :
    Always relayStep (fun p => InCreationOrder p.store) (relayOf outbox fresh) as := by
  refine always_of_allSteps (I := fun p => Sequenced p.store (p.calls ()))
    (fun _ _ _ hp hC h => hp.act hC h) (fun p (hp : Sequenced p.store (p.calls ())) =>
      hp.ordered.seen) ?_ h
  refine ⟨hn, by simp [Broker.acceptedIds, relayOf], by simp [relayOf], by simp [Poll.queue,
    relayOf], ?_⟩
  constructor <;> simp [pipeline, relayOf, Poll.queue, Broker.acceptedIds, inOrder_nil]

end PaymentService
