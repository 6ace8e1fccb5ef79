import OrderPlatform.PaymentService.Relay

/-! # The payment relay on several instances

`fetchPending` locks the rows it selects, and its transaction ends before the first of
them is published. The locks keep no other instance from fetching a row that is being
published; each row is published once when no instance does.
-/

namespace PaymentService

open Runs Store Wire

variable {ι : Type} [DecidableEq ι]

/-- The outbox with its row locks, and which instance has published which row. -/
structure LockedBroker (ι : Type) where
  broker : Broker
  locks : Uuid → Option ι
  publications : List (ι × Uuid)

inductive ScaledPoll
  | idle
  | selected (pending : List Outbox)
  | publishing (pending : List Outbox) (sentIds : List Uuid)

structure PollClock where
  rank : Outbox → ℕ
  now : ℕ
  timestamp : String

/-- A row that one of several instances has locked blocks all others. -/
def LockedBroker.Blocked (s : LockedBroker ι) (i : ι) (ids : List Uuid) : Prop :=
  ∃ id ∈ ids, ∃ j ∈ s.locks id, j ≠ i

instance (s : LockedBroker ι) (i : ι) (ids : List Uuid) : Decidable (s.Blocked i ids) :=
  inferInstanceAs (Decidable (∃ id ∈ ids, ∃ j ∈ s.locks id, j ≠ i))

def LockedBroker.lock (s : LockedBroker ι) (i : ι) (ids : List Uuid) : LockedBroker ι :=
  { s with locks := fun id => if id ∈ ids then some i else s.locks id }

def LockedBroker.unlock (s : LockedBroker ι) (i : ι) : LockedBroker ι :=
  { s with locks := fun id => if s.locks id = some i then none else s.locks id }

/--
One step of `poll` of an instance, none of whose requests fails: the locking select of
`fetchPending`, the end of its transaction, the publication of a row, or the mark. A
request waits for the locks of other instances.
-/
def scaledPoll (p : Pool (LockedBroker ι) ScaledPoll ι) (i : ι) (x : PollClock) :
    Option (Pool (LockedBroker ι) ScaledPoll ι) :=
  let s := p.store
  let b := s.broker
  match p.calls i with
  | .idle =>
    let rows := b.fetchPending 100 x.rank
    let ids := rows.map Outbox.id
    if s.Blocked i ids then none
    else if rows.isEmpty then some p
    else some ⟨s.lock i ids, Function.update p.calls i (.selected rows)⟩
  | .selected rows => some ⟨s.unlock i, Function.update p.calls i (.publishing rows [])⟩
  | .publishing (row :: pending) sentIds =>
    some ⟨{ s with
      broker := { b with
        inFlight := b.inFlight ++ [publishPaymentEvent row b.fresh (b.fresh + 1) x.timestamp]
        fresh := b.fresh + 2 }
      publications := s.publications ++ [(i, row.id)] },
      Function.update p.calls i (.publishing pending (sentIds ++ [row.id]))⟩
  | .publishing [] sentIds =>
    if sentIds.isEmpty then some ⟨s, Function.update p.calls i .idle⟩
    else if s.Blocked i sentIds then none
    else some ⟨{ s with broker := b.markSent sentIds x.now }, Function.update p.calls i .idle⟩

/-- Polls of any instance, and new rows. -/
inductive ScaledAction (ι : Type)
  | poll (i : ι) (x : PollClock)
  | append (row : Outbox)

def scaledStep (p : Pool (LockedBroker ι) ScaledPoll ι) :
    ScaledAction ι → Option (Pool (LockedBroker ι) ScaledPoll ι)
  | .poll i x => scaledPoll p i x
  | .append row =>
    if row.status = .pending ∧ row.id ∉ p.store.broker.outbox.map Outbox.id then
      some { p with store := { p.store with broker := { p.store.broker with
        outbox := p.store.broker.outbox ++ [row] } } }
    else none

def ScaledPoll.erase : ScaledPoll → Poll
  | .idle => .idle
  | .selected pending => .publishing pending []
  | .publishing pending sentIds => .publishing pending sentIds

/-- The relay without its locks. -/
def erase (p : Pool (LockedBroker ι) ScaledPoll ι) : Pool Broker Poll ι :=
  ⟨p.store.broker, fun i => (p.calls i).erase⟩

theorem erase_update (s : LockedBroker ι) (c : ι → ScaledPoll) (i : ι) (k : ScaledPoll) :
    erase ⟨s, Function.update c i k⟩ =
      ⟨s.broker, Function.update (fun j => (c j).erase) i k.erase⟩ := by
  simp only [erase]
  congr 1
  funext j
  by_cases h : j = i
  · subst h
    simp
  · simp [h]

/-- A step is one of a relay whose requests do not fail, or the end of a transaction. -/
theorem scaledStep_erase {p q : Pool (LockedBroker ι) ScaledPoll ι} {a : ScaledAction ι}
    (h : scaledStep p a = some q) :
    erase q = erase p ∨ ∃ a', relayStep (erase p) a' = some (erase q) := by
  cases a with
  | append row =>
    simp only [scaledStep] at h
    split at h <;> cases h
    rename_i hrow
    exact Or.inr ⟨.append row, by simp [relayStep, hrow.1, erase]⟩
  | poll i x =>
    simp only [scaledStep, scaledPoll] at h
    cases hc : p.calls i with
    | idle =>
      simp only [hc] at h
      split at h
      · cases h
      split at h <;> cases h
      · exact Or.inl rfl
      · rename_i hne
        refine Or.inr ⟨.poll i ⟨x.rank, false, x.now, x.timestamp⟩, ?_⟩
        rw [erase_update]
        simp [relayStep, Pool.act, erase, hc, ScaledPoll.erase, pollStep, hne, LockedBroker.lock]
    | selected rows =>
      simp only [hc] at h
      cases h
      left
      rw [erase_update]
      simp [erase, LockedBroker.unlock, ScaledPoll.erase, hc]
    | publishing pending sentIds =>
      refine Or.inr ⟨.poll i ⟨x.rank, false, x.now, x.timestamp⟩, ?_⟩
      cases pending with
      | nil =>
        simp only [hc] at h
        split at h
        · rename_i he
          cases h
          rw [erase_update]
          simp [relayStep, Pool.act, erase, hc, ScaledPoll.erase, pollStep, he]
        · rename_i hne
          split at h <;> cases h
          rw [erase_update]
          simp [relayStep, Pool.act, erase, hc, ScaledPoll.erase, pollStep, hne]
      | cons row pending =>
        simp only [hc] at h
        cases h
        rw [erase_update]
        simp [relayStep, Pool.act, erase, hc, ScaledPoll.erase, pollStep]

/-- The rows an instance has fetched and not published yet. -/
def ScaledPoll.todo : ScaledPoll → List Uuid
  | .idle => []
  | .selected pending | .publishing pending _ => pending.map Outbox.id

/-- The rows an instance has published and not marked yet. -/
def ScaledPoll.done : ScaledPoll → List Uuid
  | .publishing _ sentIds => sentIds
  | _ => []

/-- A fetch finds no row that another instance has fetched and not marked yet. -/
def FetchesFree (p : Pool (LockedBroker ι) ScaledPoll ι) : ScaledAction ι → Prop
  | .poll i x => p.calls i = .idle → ∀ row ∈ p.store.broker.fetchPending 100 x.rank,
      ∀ j, row.id ∉ (p.calls j).todo ∧ row.id ∉ (p.calls j).done
  | .append _ => True

def LockedBroker.publishedIds (s : LockedBroker ι) : List Uuid := s.publications.map Prod.snd

def Broker.Sent (b : Broker) (id : Uuid) : Prop :=
  ∃ row ∈ b.outbox, row.id = id ∧ row.status = .sent

/--
No row is published twice. A row marked as sent since the start was published, by one
instance; and while no poll runs, so was every row that is no longer pending, and no other.
-/
structure PublishedByOne (start : Broker) (p : Pool (LockedBroker ι) ScaledPoll ι) : Prop where
  once : p.store.publishedIds.Nodup
  sent : ∀ row ∈ p.store.broker.outbox, row.status = .sent → ¬ start.Sent row.id →
    ∃! i, (i, row.id) ∈ p.store.publications
  rest : (∀ i, p.calls i = .idle) → ∀ row ∈ p.store.broker.outbox, row.status = .pending →
    ∀ i, (i, row.id) ∉ p.store.publications

/-- What an instance holds is held by it alone, and a row is published while it is held. -/
structure Exclusive (start : Broker) (p : Pool (LockedBroker ι) ScaledPoll ι) : Prop where
  ids : (p.store.broker.outbox.map Outbox.id).Nodup
  once : p.store.publishedIds.Nodup
  distinct : ∀ i, ((p.calls i).todo).Nodup
  apart : ∀ i j, i ≠ j → ∀ id ∈ (p.calls i).todo, id ∉ (p.calls j).todo
  todo : ∀ i, ∀ id ∈ (p.calls i).todo, id ∉ p.store.publishedIds
  done : ∀ i, ∀ id ∈ (p.calls i).done, id ∈ p.store.publishedIds
  published : ∀ id ∈ p.store.publishedIds,
    (∃ i, id ∈ (p.calls i).done) ∨ p.store.broker.Sent id
  sent : ∀ id, p.store.broker.Sent id → start.Sent id ∨ id ∈ p.store.publishedIds
  known : ∀ i, ∀ id ∈ (p.calls i).done ++ (p.calls i).todo,
    id ∈ p.store.broker.outbox.map Outbox.id

inductive ScaledEffect (p : Pool (LockedBroker ι) ScaledPoll ι) (i : ι) (x : PollClock) :
    Pool (LockedBroker ι) ScaledPoll ι → Prop
  | rest : ScaledEffect p i x p
  | select (hc : p.calls i = .idle) :
    ScaledEffect p i x ⟨p.store.lock i ((p.store.broker.fetchPending 100 x.rank).map Outbox.id),
      Function.update p.calls i (.selected (p.store.broker.fetchPending 100 x.rank))⟩
  | commit (rows : List Outbox) (hc : p.calls i = .selected rows) :
    ScaledEffect p i x ⟨p.store.unlock i, Function.update p.calls i (.publishing rows [])⟩
  | publish (row : Outbox) (pending : List Outbox) (sentIds : List Uuid) (b : Broker)
    (hc : p.calls i = .publishing (row :: pending) sentIds)
    (hb : b.outbox = p.store.broker.outbox) :
    ScaledEffect p i x ⟨{ p.store with
        broker := b
        publications := p.store.publications ++ [(i, row.id)] },
      Function.update p.calls i (.publishing pending (sentIds ++ [row.id]))⟩
  | stop (hc : p.calls i = .publishing [] []) :
    ScaledEffect p i x ⟨p.store, Function.update p.calls i .idle⟩
  | mark (sentIds : List Uuid) (hc : p.calls i = .publishing [] sentIds) :
    ScaledEffect p i x ⟨{ p.store with broker := p.store.broker.markSent sentIds x.now },
      Function.update p.calls i .idle⟩

section Effects

variable {p q : Pool (LockedBroker ι) ScaledPoll ι} {i : ι} {x : PollClock} {start : Broker}

theorem scaledPoll_effect (h : scaledPoll p i x = some q) : ScaledEffect p i x q := by
  simp only [scaledPoll] at h
  cases hc : p.calls i with
  | idle =>
    simp only [hc] at h
    split at h
    · cases h
    split at h <;> cases h
    · exact .rest
    · exact .select hc
  | selected rows =>
    simp only [hc] at h
    cases h
    exact .commit rows hc
  | publishing pending sentIds =>
    cases pending with
    | nil =>
      simp only [hc] at h
      split at h
      · rename_i he
        cases h
        exact .stop (by rw [hc, List.isEmpty_iff.mp he])
      · split at h <;> cases h
        exact .mark sentIds hc
    | cons row pending =>
      simp only [hc] at h
      cases h
      exact .publish row pending sentIds _ hc rfl

theorem sent_markSent {b : Broker} {ids : List Uuid} {now : ℕ} {id : Uuid} :
    (b.markSent ids now).Sent id → b.Sent id ∨ id ∈ ids := by
  rintro ⟨row, hrow, rfl, hs⟩
  exact (sent_of_markSent hrow hs).imp (fun ⟨r, hr, hs, hid⟩ => ⟨r, hr, hid, hs⟩) fun h => h

theorem Broker.Sent.markSent {b : Broker} {ids : List Uuid} {now : ℕ} {id : Uuid}
    (h : b.Sent id) : (b.markSent ids now).Sent id := by
  obtain ⟨row, hrow, rfl, hs⟩ := h
  refine ⟨_, List.mem_map_of_mem hrow, ?_, ?_⟩ <;> split <;> first | rfl | exact hs

theorem ids_markSent (b : Broker) (ids : List Uuid) (now : ℕ) :
    (b.markSent ids now).outbox.map Outbox.id = b.outbox.map Outbox.id := by
  rw [Broker.markSent, List.map_map]
  refine List.map_congr_left fun row _ => ?_
  simp only [Function.comp]
  split <;> rfl

/-- The rows published and not marked yet, when the call of one instance changes. -/
theorem exists_done_update {c : ι → ScaledPoll} {k : ScaledPoll} {id : Uuid}
    (h : ∃ j, id ∈ (c j).done) (hi : id ∈ (c i).done → id ∈ k.done) :
    ∃ j, id ∈ (Function.update c i k j).done := by
  obtain ⟨j, hj⟩ := h
  by_cases hji : j = i
  · subst hji
    exact ⟨j, by simpa using hi hj⟩
  · exact ⟨j, by simpa [hji] using hj⟩

theorem Exclusive.congr (hp : Exclusive start p) {s : LockedBroker ι} {k : ScaledPoll}
    (hb : s.broker = p.store.broker) (hl : s.publications = p.store.publications)
    (ht : k.todo = (p.calls i).todo) (hd : k.done = (p.calls i).done) :
    Exclusive start ⟨s, Function.update p.calls i k⟩ := by
  have hids : s.publishedIds = p.store.publishedIds := by rw [LockedBroker.publishedIds, hl]; rfl
  have htodo : ∀ j, (Function.update p.calls i k j).todo = (p.calls j).todo := by
    intro j
    by_cases hj : j = i
    · subst hj
      simpa using ht
    · simp [hj]
  have hdone : ∀ j, (Function.update p.calls i k j).done = (p.calls j).done := by
    intro j
    by_cases hj : j = i
    · subst hj
      simpa using hd
    · simp [hj]
  constructor <;> simp only [hb, hids, htodo, hdone]
  exacts [hp.ids, hp.once, hp.distinct, hp.apart, hp.todo, hp.done, hp.published, hp.sent, hp.known]

/-- The rows of a free fetch are held by no other instance and were not published before. -/
theorem Exclusive.select (hp : Exclusive start p) (hc : p.calls i = .idle)
    (hfree : ∀ row ∈ p.store.broker.fetchPending 100 x.rank,
      ∀ j, row.id ∉ (p.calls j).todo ∧ row.id ∉ (p.calls j).done) :
    Exclusive start ⟨p.store.lock i ((p.store.broker.fetchPending 100 x.rank).map Outbox.id),
      Function.update p.calls i (.selected (p.store.broker.fetchPending 100 x.rank))⟩ := by
  have hmem : ∀ row ∈ p.store.broker.fetchPending 100 x.rank,
      row ∈ p.store.broker.outbox ∧ row.status = .pending := fun row hr => by
    simpa using List.mem_filter.mp (mem_of_mem_oldest hr)
  have hnew : ∀ id ∈ (p.store.broker.fetchPending 100 x.rank).map Outbox.id,
      id ∉ p.store.publishedIds := by
    intro id hid hpub
    obtain ⟨row, hr, rfl⟩ := List.mem_map.mp hid
    rcases hp.published _ hpub with ⟨j, hj⟩ | ⟨row', hrow', hid', hs⟩
    · exact (hfree row hr j).2 hj
    · obtain rfl := List.inj_on_of_nodup_map hp.ids hrow' (hmem row hr).1 hid'
      cases hs.symm.trans (hmem row' hr).2
  refine ⟨hp.ids, hp.once, forall_update (P := fun k : ScaledPoll => k.todo.Nodup) ?_ hp.distinct,
    apart_update (D := fun k l : ScaledPoll => ∀ id ∈ k.todo, id ∉ l.todo) hp.apart ?_,
    forall_update (P := fun k : ScaledPoll => ∀ id ∈ k.todo, id ∉ p.store.publishedIds) hnew
      hp.todo,
    forall_update (P := fun k : ScaledPoll => ∀ id ∈ k.done, id ∈ p.store.publishedIds)
      (by simp [ScaledPoll.done]) hp.done, ?_, hp.sent,
    forall_update (P := fun k : ScaledPoll => ∀ id ∈ k.done ++ k.todo,
      id ∈ p.store.broker.outbox.map Outbox.id) ?_ hp.known⟩
  · exact nodup_map_oldest _ _ _ (hp.ids.sublist (List.filter_sublist.map _))
  · refine fun j _ => ⟨fun id hid hj => ?_, fun id hj hid => ?_⟩
    all_goals
      obtain ⟨row, hr, rfl⟩ := List.mem_map.mp hid
      exact (hfree row hr j).1 hj
  · exact fun id hid => (hp.published id hid).imp_left fun h =>
      exists_done_update h (by simp [hc, ScaledPoll.done])
  · rintro id hid
    obtain ⟨row, hr, rfl⟩ := List.mem_map.mp hid
    exact List.mem_map_of_mem (hmem row hr).1

theorem Exclusive.publish (hp : Exclusive start p) {row : Outbox} {pending : List Outbox}
    {sentIds : List Uuid} (hc : p.calls i = .publishing (row :: pending) sentIds) {b : Broker}
    (hb : b.outbox = p.store.broker.outbox) :
    Exclusive start ⟨{ p.store with
        broker := b
        publications := p.store.publications ++ [(i, row.id)] },
      Function.update p.calls i (.publishing pending (sentIds ++ [row.id]))⟩ := by
  have hsent : ∀ id, b.Sent id ↔ p.store.broker.Sent id := fun id => by rw [Broker.Sent, hb]; rfl
  have hids : LockedBroker.publishedIds { p.store with
      broker := b
      publications := p.store.publications ++ [(i, row.id)] } =
        p.store.publishedIds ++ [row.id] := List.map_append
  have htodo : (p.calls i).todo = row.id :: pending.map Outbox.id := by rw [hc]; rfl
  have hdone : (p.calls i).done = sentIds := by rw [hc]; rfl
  have hrow : row.id ∉ p.store.publishedIds := hp.todo i row.id (by simp [htodo])
  have hdist := htodo ▸ hp.distinct i
  have hother : ∀ j, j ≠ i → ∀ id ∈ (p.calls j).todo, id ≠ row.id := by
    rintro j hj id hid rfl
    exact hp.apart i j (Ne.symm hj) _ (by simp [htodo]) hid
  have hsub : ∀ id ∈ pending.map Outbox.id, id ∈ (p.calls i).todo := fun id hid => by
    rw [htodo]
    exact List.mem_cons_of_mem _ hid
  constructor <;> simp only [hb, hids, hsent]
  · exact hp.ids
  · simpa using hp.once.concat hrow
  · exact forall_update (P := fun k : ScaledPoll => k.todo.Nodup) hdist.of_cons hp.distinct
  · exact apart_update (D := fun k l : ScaledPoll => ∀ id ∈ k.todo, id ∉ l.todo) hp.apart
      fun j hj => ⟨fun id hid => hp.apart i j (Ne.symm hj) id (hsub id hid),
        fun id hid hid' => hp.apart j i hj id hid (hsub id hid')⟩
  · intro j id hid hpub
    have hne : id ≠ row.id ∧ id ∈ (p.calls j).todo := by
      by_cases hj : j = i
      · subst hj
        rw [Function.update_self] at hid
        exact ⟨fun he => (List.nodup_cons.mp hdist).1 (he ▸ hid), hsub id hid⟩
      · rw [Function.update_of_ne hj] at hid
        exact ⟨hother j hj id hid, hid⟩
    rcases List.mem_append.mp hpub with hpub | hpub
    · exact hp.todo j id hne.2 hpub
    · exact hne.1 (List.mem_singleton.mp hpub)
  · refine forall_update (P := fun k : ScaledPoll => ∀ id ∈ k.done,
      id ∈ p.store.publishedIds ++ [row.id]) ?_ fun j id hid =>
        List.mem_append_left _ (hp.done j id hid)
    intro id hid
    rcases List.mem_append.mp hid with hid | hid
    · exact List.mem_append_left _ (hp.done i id (hdone ▸ hid))
    · exact List.mem_append_right _ hid
  · intro id hid
    rcases List.mem_append.mp hid with hid | hid
    · exact (hp.published id hid).imp_left fun h =>
        exists_done_update h fun hi => List.mem_append_left _ (hdone ▸ hi)
    · exact Or.inl ⟨i, by simp [ScaledPoll.done, List.mem_singleton.mp hid]⟩
  · exact fun id hs => (hp.sent id hs).imp_right (List.mem_append_left _)
  · refine forall_update (P := fun k : ScaledPoll => ∀ id ∈ k.done ++ k.todo,
      id ∈ p.store.broker.outbox.map Outbox.id) ?_ hp.known
    intro id hid
    apply hp.known i id
    rw [hdone, htodo]
    simp only [ScaledPoll.done, ScaledPoll.todo, List.mem_append, List.mem_cons] at hid ⊢
    tauto

theorem Exclusive.mark (hp : Exclusive start p) {sentIds : List Uuid}
    (hc : p.calls i = .publishing [] sentIds) (now : ℕ) :
    Exclusive start ⟨{ p.store with broker := p.store.broker.markSent sentIds now },
      Function.update p.calls i .idle⟩ := by
  have hdone : (p.calls i).done = sentIds := by rw [hc]; rfl
  refine ⟨by rw [ids_markSent]; exact hp.ids, hp.once,
    forall_update (P := fun k : ScaledPoll => k.todo.Nodup) List.nodup_nil hp.distinct,
    apart_update (D := fun k l : ScaledPoll => ∀ id ∈ k.todo, id ∉ l.todo) hp.apart
      (by simp [ScaledPoll.todo]),
    forall_update (P := fun k : ScaledPoll => ∀ id ∈ k.todo, id ∉ p.store.publishedIds)
      (by simp [ScaledPoll.todo]) hp.todo,
    forall_update (P := fun k : ScaledPoll => ∀ id ∈ k.done, id ∈ p.store.publishedIds)
      (by simp [ScaledPoll.done]) hp.done, ?_, ?_,
    forall_update (P := fun k : ScaledPoll => ∀ id ∈ k.done ++ k.todo,
      id ∈ (p.store.broker.markSent sentIds now).outbox.map Outbox.id)
      (by simp [ScaledPoll.done, ScaledPoll.todo]) (by rw [ids_markSent]; exact hp.known)⟩
  · intro id hid
    rcases hp.published id hid with ⟨j, hj⟩ | hs
    · by_cases hmem : id ∈ sentIds
      · obtain ⟨row, hrow, rfl⟩ := List.mem_map.mp (hp.known i id (by simp [hdone, hmem]))
        exact Or.inr ⟨_, List.mem_map_of_mem hrow, by simp [hmem]⟩
      · exact Or.inl (exists_done_update ⟨j, hj⟩ fun hi => absurd (hdone ▸ hi) hmem)
    · exact Or.inr hs.markSent
  · intro id hs
    rcases sent_markSent hs with hs | hid
    · exact hp.sent id hs
    · exact Or.inr (hp.done i id (hdone ▸ hid))

omit [DecidableEq ι] in
theorem Exclusive.append (hp : Exclusive start p) {row : Outbox} (hs : row.status = .pending)
    (hid : row.id ∉ p.store.broker.outbox.map Outbox.id) :
    Exclusive start { p with store := { p.store with broker := { p.store.broker with
      outbox := p.store.broker.outbox ++ [row] } } } := by
  have hsent : ∀ id, Broker.Sent { p.store.broker with
      outbox := p.store.broker.outbox ++ [row] } id ↔ p.store.broker.Sent id := by
    intro id
    constructor
    · rintro ⟨r, hr, hid', hrs⟩
      rcases List.mem_append.mp hr with hr | hr
      · exact ⟨r, hr, hid', hrs⟩
      · cases (List.mem_singleton.mp hr ▸ hrs).symm.trans hs
    · rintro ⟨r, hr, hid', hrs⟩
      exact ⟨r, List.mem_append_left _ hr, hid', hrs⟩
  refine ⟨nodup_map_concat hp.ids fun r hr he => hid (he ▸ List.mem_map_of_mem hr), hp.once,
    hp.distinct, hp.apart, hp.todo, hp.done, fun id h => ?_, fun id h => ?_, fun i id h => ?_⟩
  · exact (hp.published id h).imp_right (hsent id).mpr
  · exact hp.sent id ((hsent id).mp h)
  · rw [List.map_append]
    exact List.mem_append_left _ (hp.known i id h)

theorem Exclusive.step (hp : Exclusive start p) {a : ScaledAction ι} (hC : FetchesFree p a)
    (h : scaledStep p a = some q) : Exclusive start q := by
  cases a with
  | poll i x =>
    cases scaledPoll_effect h with
    | rest => exact hp
    | select hc => exact hp.select hc (hC hc)
    | commit rows hc => exact hp.congr rfl rfl (by rw [hc]; rfl) (by rw [hc]; rfl)
    | publish row pending sentIds b hc hb => exact hp.publish hc hb
    | stop hc => exact hp.congr rfl rfl (by rw [hc]; rfl) (by rw [hc]; rfl)
    | mark sentIds hc => exact hp.mark hc x.now
  | append row =>
    simp only [scaledStep] at h
    split at h <;> cases h
    rename_i hrow
    exact hp.append hrow.1 hrow.2

omit [DecidableEq ι] in
theorem Exclusive.publishedByOne (hp : Exclusive start p) : PublishedByOne start p where
  once := hp.once
  sent row hrow hs hstart := by
    have hid := (hp.sent row.id ⟨row, hrow, rfl, hs⟩).resolve_left hstart
    obtain ⟨⟨i, id⟩, hi, rfl⟩ := List.mem_map.mp hid
    refine ⟨i, hi, fun j hj => ?_⟩
    exact congrArg Prod.fst (List.inj_on_of_nodup_map hp.once hj hi rfl)
  rest hidle row hrow hs i hi := by
    rcases hp.published row.id (List.mem_map_of_mem hi) with ⟨j, hj⟩ | ⟨row', hrow', hid, hs'⟩
    · rw [hidle j] at hj
      cases hj
    · obtain rfl := List.inj_on_of_nodup_map hp.ids hrow' hrow hid
      cases hs.symm.trans hs'

end Effects

def scaledOf (b : Broker) : Pool (LockedBroker ι) ScaledPoll ι :=
  ⟨⟨b, fun _ => none, []⟩, fun _ => .idle⟩

/--
In every run of any number of instances on any outbox in which no fetch finds a row that
another instance holds, every row is published by one instance, and once.
-/
theorem published_by_one {b : Broker} (hn : (b.outbox.map Outbox.id).Nodup)
    (as : List (ScaledAction ι)) (h : AllSteps scaledStep FetchesFree (scaledOf b) as) :
    Always scaledStep (PublishedByOne b) (scaledOf b) as := by
  refine always_of_allSteps (I := Exclusive b) (fun _ _ _ hp hC h => hp.step hC h)
    (fun _ hp => hp.publishedByOne) ?_ h
  constructor <;> simp [scaledOf, LockedBroker.publishedIds, ScaledPoll.todo, ScaledPoll.done]
  exact hn

def pendingRow : Broker := ⟨[.append 1 7 .paymentSucceeded 11 (.obj []) [] 0], [], [], 20⟩

def pollOf (i : Bool) : ScaledAction Bool := .poll i ⟨fun _ => 0, 5, "1970-01-01T00:00:05.000Z"⟩

instance (p : Pool (LockedBroker ι) ScaledPoll ι) [Fintype ι] (a : ScaledAction ι) :
    Decidable (FetchesFree p a) := by
  cases a with
  | append row => exact isTrue trivial
  | poll i x =>
    cases hc : p.calls i with
    | idle => exact decidable_of_iff (∀ row ∈ p.store.broker.fetchPending 100 x.rank,
        ∀ j, row.id ∉ (p.calls j).todo ∧ row.id ∉ (p.calls j).done) ⟨fun h _ => h, fun h => h hc⟩
    | selected rows => exact isTrue fun h => by cases hc.symm.trans h
    | publishing pending sentIds => exact isTrue fun h => by cases hc.symm.trans h

theorem two_instances_in_turn :
    Always scaledStep (PublishedByOne pendingRow) (scaledOf pendingRow)
      [pollOf false, pollOf false, pollOf false, pollOf false, pollOf true] :=
  published_by_one (by decide) _ (by decide +kernel)

/-- The second instance fetches the row after the first has let go of its lock. -/
theorem two_instances_publish :
    ¬ Always scaledStep (PublishedByOne pendingRow) (scaledOf pendingRow)
      [pollOf false, pollOf false, pollOf true, pollOf true, pollOf false, pollOf true] := by
  intro h
  obtain ⟨p, hp, hids⟩ : ∃ p ∈ exec scaledStep (scaledOf pendingRow)
      [pollOf false, pollOf false, pollOf true, pollOf true, pollOf false, pollOf true],
      p.store.publishedIds = [1, 1] := by decide +kernel
  have hone := (h _ List.prefix_rfl p hp).once
  rw [hids] at hone
  exact absurd hone (by decide)

end PaymentService
