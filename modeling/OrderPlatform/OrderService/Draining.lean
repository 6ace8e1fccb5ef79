import OrderPlatform.OrderService.Relay

/-! # Draining the outbox

A poll takes fifty rows at most, and the next one goes on with what is left. Once no request
fails, one relay comes to the end of any outbox, and has then published every row that was
pending once, the older before the newer. Where the clock stands and ties fall alike in all polls
that is the order in which a single poll without a limit would have taken them.
-/

namespace OrderService

open Runs Store Wire

/-- An entry is published and acknowledged, and its row marked. -/
def Broker.relay (b : Broker) (entry : Outbox) (now : ℕ) : Broker :=
  Broker.markSent
    { b with
      published := b.published ++ [entry.message]
      acked := b.acked ++ [entry.message] } entry.id now

/-- What is left of an outbox and a topic when entries are relayed, each at its time. -/
def Broker.relayed (b : Broker) (entries : List (Outbox × ℕ)) : Broker :=
  entries.foldl (fun b e => b.relay e.1 e.2) b

/-- All pending rows in the order of a poll. -/
def Broker.queue (b : Broker) (rank : Outbox → ℕ) : List Outbox :=
  b.fetchPending b.pending.length rank

section Lists

variable {α β : Type*} [DecidableEq β] {f : α → β} {l : List α}

/-- What is not among the first rows comes after them. -/
theorem filter_notMem_take (h : (l.map f).Nodup) (n : ℕ) :
    (l.filter fun a => f a ∉ (l.take n).map f) = l.drop n := by
  have hsplit : ((l.take n ++ l.drop n).map f).Nodup := by rwa [List.take_append_drop]
  rw [List.map_append, List.nodup_append] at hsplit
  have htake : ((l.take n).filter fun a => f a ∉ (l.take n).map f) = [] := by
    rw [List.filter_eq_nil_iff]
    intro a ha
    simpa using List.mem_map_of_mem (f := f) ha
  have hdrop : ((l.drop n).filter fun a => f a ∉ (l.take n).map f) = l.drop n := by
    rw [List.filter_eq_self]
    intro a ha
    simp only [decide_eq_true_eq]
    exact fun hm => hsplit.2.2 _ hm _ (List.mem_map_of_mem ha) rfl
  conv_lhs =>
    arg 2
    rw [← List.take_append_drop n l]
  rw [List.filter_append, htake, hdrop, List.nil_append]

end Lists

section Batches

variable {b : Broker} {entry : Outbox} {entries rest : List (Outbox × ℕ)} {now : ℕ}
  {x : ℕ → RelayAnswer} {rank : Outbox → ℕ}

theorem relayed_append : (b.relayed entries).relayed rest = b.relayed (entries ++ rest) :=
  (List.foldl_append ..).symm

theorem published_relayed : (b.relayed entries).published =
    b.published ++ entries.map fun e => e.1.message := by
  induction entries generalizing b with
  | nil => exact (List.append_nil _).symm
  | cons e entries ih =>
    have hrest := @ih (b.relay e.1 e.2)
    rw [Broker.relayed, List.foldl_cons]
    exact hrest.trans (by simp [Broker.relay, Broker.markSent])

theorem acked_relayed : (b.relayed entries).acked =
    b.acked ++ entries.map fun e => e.1.message := by
  induction entries generalizing b with
  | nil => exact (List.append_nil _).symm
  | cons e entries ih =>
    have hrest := @ih (b.relay e.1 e.2)
    rw [Broker.relayed, List.foldl_cons]
    exact hrest.trans (by simp [Broker.relay, Broker.markSent])

theorem ids_relay : (b.relay entry now).outbox.map Outbox.id = b.outbox.map Outbox.id :=
  map_update_of_eq _ fun _ _ => by rfl

theorem ids_relayed : (b.relayed entries).outbox.map Outbox.id = b.outbox.map Outbox.id := by
  induction entries generalizing b with
  | nil => rfl
  | cons e entries ih =>
    rw [Broker.relayed, List.foldl_cons]
    exact ih.trans ids_relay

theorem message_relayed : (b.relayed entries).outbox.map Outbox.message =
    b.outbox.map Outbox.message := by
  induction entries generalizing b with
  | nil => rfl
  | cons e entries ih =>
    rw [Broker.relayed, List.foldl_cons]
    exact ih.trans message_markSent

theorem pending_relay : (b.relay entry now).pending =
    b.pending.filter fun row => row.id ≠ entry.id := by
  simp only [Broker.pending, Broker.relay, Broker.markSent, update]
  induction b.outbox with
  | nil => rfl
  | cons row rows ih =>
    rw [List.map_cons, List.filter_cons, List.filter_cons, ih]
    by_cases h : row.id = entry.id
    · by_cases hp : row.status = .pending <;> simp [h, hp]
    · by_cases hp : row.status = .pending <;> simp [h, hp]

theorem pending_relayed : (b.relayed entries).pending =
    b.pending.filter fun row => row.id ∉ entries.map fun e => e.1.id := by
  induction entries generalizing b with
  | nil => simp [Broker.relayed]
  | cons e entries ih =>
    have hrest := @ih (b.relay e.1 e.2)
    rw [Broker.relayed, List.foldl_cons]
    refine hrest.trans ?_
    rw [pending_relay, List.filter_filter]
    refine List.filter_congr fun row _ => ?_
    rw [Bool.eq_iff_iff]
    simp only [Bool.and_eq_true, decide_eq_true_eq, List.map_cons, List.mem_cons, not_or]
    exact and_comm

/-- The entries of a batch with the times of its answers; every second one is about a row. -/
def stamped : List Outbox → (ℕ → RelayAnswer) → List (Outbox × ℕ)
  | [], _ => []
  | entry :: entries, x => (entry, (x 1).now) :: stamped entries fun k => x (k + 2)

theorem stamped_fst (entries : List Outbox) (x : ℕ → RelayAnswer) :
    (stamped entries x).map Prod.fst = entries := by
  induction entries generalizing x with
  | nil => rfl
  | cons entry entries ih => rw [stamped, List.map_cons, ih]

theorem stamped_of_constant (entries : List Outbox) (hx : ∀ k, (x k).now = now) :
    stamped entries x = entries.map fun entry => (entry, now) := by
  induction entries generalizing x with
  | nil => rfl
  | cons entry entries ih => rw [stamped, List.map_cons, hx, ih fun k => hx (k + 2)]

/-- The answers to the requests of a relay, the first of them at the number given. -/
def answers (x : ℕ → RelayAnswer) (n : ℕ) : List RelayAnswer := (List.range n).map x

theorem answers_add (m n : ℕ) :
    answers x (m + n) = answers x m ++ answers (fun k => x (m + k)) n := by
  simp [answers, List.range_add]

theorem answers_succ (n : ℕ) : answers x (n + 1) = x 0 :: answers (fun k => x (k + 1)) n := by
  simp [answers, List.range_succ_eq_map]

/-- A poll publishes and marks its entries one after another. -/
theorem exec_publishing (hx : ∀ k, (x k).fails = false) (batch : List Outbox) :
    exec (Machine.solo relayStep) (b, .publishing batch) (answers x (2 * batch.length + 1)) =
      some (b.relayed (stamped batch x), .idle) := by
  induction batch generalizing b x with
  | nil => rfl
  | cons entry batch ih =>
    have hlen : 2 * (entry :: batch).length + 1 = (2 * batch.length + 1) + 1 + 1 := by
      simp only [List.length_cons]
      omega
    rw [hlen, answers_succ, answers_succ]
    simp only [exec_cons, Machine.solo, relayStep, hx, Bool.false_eq_true, if_false,
      Option.bind_some]
    exact ih fun k => hx (k + 2)

theorem ids_pending (h : (b.outbox.map Outbox.id).Nodup) : (b.pending.map Outbox.id).Nodup :=
  h.sublist (List.filter_sublist.map _)

theorem queue_insertionSort : b.queue rank = b.pending.insertionSort fun row row' =>
    row.createdAt < row'.createdAt ∨ row.createdAt = row'.createdAt ∧ rank row ≤ rank row' := by
  simp only [Broker.queue, Broker.fetchPending, oldest]
  exact List.take_of_length_le (List.length_insertionSort _ _).le

theorem queue_perm : (b.queue rank).Perm b.pending :=
  queue_insertionSort ▸ List.perm_insertionSort _ _

/-- What a batch takes comes first in the queue, and the rest of the queue is what it leaves. -/
theorem queue_eq (h : (b.outbox.map Outbox.id).Nodup) (n : ℕ)
    (hentries : entries.map Prod.fst = b.fetchPending n rank) :
    b.fetchPending n rank ++ (b.relayed entries).queue rank = b.queue rank := by
  have := total_older Outbox.createdAt rank
  have := isTrans_older Outbox.createdAt rank
  have hsorted := List.perm_insertionSort (fun row row' : Outbox =>
    row.createdAt < row'.createdAt ∨ row.createdAt = row'.createdAt ∧ rank row ≤ rank row')
    b.pending
  have hids : (entries.map fun e => e.1.id) = (b.fetchPending n rank).map Outbox.id := by
    rw [← hentries, List.map_map]
    rfl
  rw [queue_insertionSort, pending_relayed, ← filter_insertionSort, queue_insertionSort, hids,
    Broker.fetchPending, oldest,
    filter_notMem_take ((hsorted.map Outbox.id).nodup_iff.mpr (ids_pending h)),
    List.take_append_drop]

theorem queue_nil (h : b.pending = []) : b.queue rank = [] := by
  rw [queue_insertionSort, h]
  rfl

/-- The queue is by age. -/
theorem queue_pairwise : (b.queue rank).Pairwise fun row row' =>
    row.createdAt ≤ row'.createdAt := by
  rw [queue_insertionSort]
  exact (pairwise_insertionSort_older Outbox.createdAt rank b.pending).imp fun h =>
    h.elim le_of_lt fun he => he.1.le

end Batches

/-- The entries are the pending rows, each once and by age. -/
structure Broker.Drains (b : Broker) (entries : List (Outbox × ℕ)) : Prop where
  all : (entries.map Prod.fst).Perm b.pending
  byAge : (entries.map Prod.fst).Pairwise fun row row' => row.createdAt ≤ row'.createdAt

/-- Once drained, every row is marked, and its message acknowledged now if it was not before. -/
theorem Broker.Drains.settled {b : Broker} {entries : List (Outbox × ℕ)} (h : b.Drains entries)
    (hsent : ∀ row ∈ b.outbox, row.status = .sent → row.message ∈ b.acked) :
    ∀ row ∈ (b.relayed entries).outbox,
      row.status = .sent ∧ row.message ∈ (b.relayed entries).acked := by
  intro row hrow
  constructor
  · cases hs : row.status with
    | sent => rfl
    | pending =>
      have hpending : row ∈ (b.relayed entries).pending :=
        List.mem_filter.mpr ⟨hrow, decide_eq_true hs⟩
      rw [pending_relayed, List.mem_filter, ← h.all.mem_iff, decide_eq_true_eq] at hpending
      obtain ⟨e, he, rfl⟩ := List.mem_map.mp hpending.1
      exact absurd (List.mem_map_of_mem he) hpending.2
  · have hm : row.message ∈ b.outbox.map Outbox.message :=
      message_relayed ▸ List.mem_map_of_mem hrow
    obtain ⟨row', hrow', he⟩ := List.mem_map.mp hm
    rw [acked_relayed, ← he]
    cases hs : row'.status with
    | sent => exact List.mem_append_left _ (hsent row' hrow' hs)
    | pending =>
      have hpending : row' ∈ b.pending := List.mem_filter.mpr ⟨hrow', decide_eq_true hs⟩
      obtain ⟨e, hentry, rfl⟩ := List.mem_map.mp (h.all.mem_iff.mpr hpending)
      exact List.mem_append_right _ (List.mem_map_of_mem hentry)

/-- A batch, and then what drains the rest. -/
theorem Broker.Drains.batch {b : Broker} (h : (b.outbox.map Outbox.id).Nodup) {n : ℕ}
    {rank : Outbox → ℕ} {entries rest : List (Outbox × ℕ)}
    (hentries : entries.map Prod.fst = b.fetchPending n rank)
    (hrest : (b.relayed entries).Drains rest) : b.Drains (entries ++ rest) := by
  have hqueue := queue_eq h n hentries
  have hperm : (rest.map Prod.fst).Perm ((b.relayed entries).queue rank) :=
    hrest.all.trans queue_perm.symm
  have hpairwise := @queue_pairwise b rank
  rw [← hqueue, List.pairwise_append] at hpairwise
  rw [← hentries] at hqueue hpairwise
  constructor
  · rw [List.map_append]
    exact (hperm.append_left _).trans (hqueue ▸ queue_perm)
  · rw [List.map_append, List.pairwise_append]
    exact ⟨hpairwise.1, hrest.byAge, fun row hrow row' hrow' =>
      hpairwise.2.2 row hrow row' (hperm.mem_iff.mp hrow')⟩

/--
A relay whose requests do not fail empties the outbox, whatever the clock shows at each of them
and however ties fall; by induction on the rows that are pending, of which each poll that finds
one takes some.
-/
theorem exists_drained (b : Broker) (h : (b.outbox.map Outbox.id).Nodup) {x : ℕ → RelayAnswer}
    (hx : ∀ k, (x k).fails = false) : ∃ n entries,
      exec (Machine.solo relayStep) (b, .idle) (answers x n) = some (b.relayed entries, .idle) ∧
      b.Drains entries ∧ ∀ rank now, (∀ k, (x k).rank = rank ∧ (x k).now = now) →
        entries = (b.queue rank).map fun entry => (entry, now) := by
  induction hn : b.pending.length using Nat.strong_induction_on generalizing b x with
  | h n ih =>
    cases hbatch : b.fetchPending 50 (x 0).rank with
    | nil =>
      have hnil : b.pending = [] := by
        have hlen := congrArg List.length hbatch
        simp only [Broker.fetchPending, oldest, List.length_take, List.length_insertionSort,
          List.length_nil] at hlen
        exact List.length_eq_zero_iff.mp (by omega)
      refine ⟨0, [], rfl, ⟨hnil ▸ .refl _, .nil⟩, fun rank now _ => ?_⟩
      rw [queue_nil hnil]
      rfl
    | cons entry batch =>
      set entries := stamped (entry :: batch) fun k => x (1 + k) with hentries
      have hfst : entries.map Prod.fst = b.fetchPending 50 (x 0).rank := by
        rw [hbatch, hentries, stamped_fst]
      have hids : ((b.relayed entries).outbox.map Outbox.id).Nodup := by
        rw [ids_relayed]
        exact h
      have hless : (b.relayed entries).pending.length < n := by
        have hmem : entry ∈ b.pending := mem_of_mem_oldest (hbatch ▸ List.mem_cons_self)
        rw [pending_relayed, ← hn]
        refine List.length_filter_lt_length_iff_exists.mpr ⟨entry, hmem, ?_⟩
        simp [hentries, stamped]
      obtain ⟨m, rest, hm, hdrains, hconst⟩ := ih _ hless (b.relayed entries) hids
        (fun k => hx (1 + (2 * (entry :: batch).length + 1) + k)) rfl
      refine ⟨1 + (2 * (entry :: batch).length + 1) + m, entries ++ rest, ?_,
        hdrains.batch h hfst, fun rank now hx' => ?_⟩
      · have hpoll : Machine.solo relayStep (b, .idle) (x 0) =
            some (b, .publishing (entry :: batch)) := by
          simp [Machine.solo, relayStep, hx, hbatch]
        have hone : answers x 1 = [x 0] := rfl
        rw [answers_add, answers_add, hone, List.append_assoc, List.singleton_append, exec_cons,
          hpoll, Option.bind_some, exec_append, exec_publishing fun k => hx (1 + k),
          Option.bind_some, ← hentries, hm, relayed_append]
      · obtain ⟨hrank, -⟩ := hx' 0
        have hbatch' : entries = (b.fetchPending 50 rank).map fun entry => (entry, now) := by
          rw [hentries, stamped_of_constant _ fun k => (hx' (1 + k)).2, ← hbatch, hrank]
        rw [hconst rank now fun k => hx' _, hbatch', ← List.map_append, ← hbatch',
          queue_eq h 50 (hrank ▸ hfst)]

end OrderService
