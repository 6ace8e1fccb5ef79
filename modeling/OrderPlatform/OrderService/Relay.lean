import OrderPlatform.OrderService.Entities
import OrderPlatform.Runs.Pool

/-! # The order service's outbox relay

A poll publishes the pending entries one by one and marks an entry as sent once the
broker has acknowledged it. Instances, failing statements, crashes and new rows
interleave; every message of a row is the same, and a row marked as sent was acknowledged.
-/

namespace OrderService

open Runs Store Wire

/-- A message on the order topic, with the outbox row it was published for. -/
structure Message where
  rowId : Uuid
  key : String
  value : Json
  headers : List (String × String)

structure Broker where
  outbox : List Outbox
  published : List Message
  acked : List Message

def Outbox.correlationHeader (entry : Outbox) : List (String × String) :=
  match (entry.headers.getD []).lookup "correlationId" with
  | some (some c) => if c = "" then [] else [("correlation-id", c)]
  | _ => []

/-- The message `processEntry` publishes. -/
def Outbox.message (entry : Outbox) : Message where
  rowId := entry.id
  key := toString entry.aggregateId
  value := entry.payload
  headers := entry.correlationHeader ++
    [("event-id", toString entry.eventId), ("event-type", entry.eventType.text)]

/--
What the environment answers at a step of a poll: whether the request is reported as
failed, and whether it took effect although it was.
-/
structure RelayAnswer where
  rank : Outbox → ℕ
  now : ℕ
  fails : Bool
  lands : Bool

def Broker.pending (b : Broker) : List Outbox := b.outbox.filter fun row => row.status = .pending

def Broker.fetchPending (b : Broker) (limit : ℕ) (rank : Outbox → ℕ) : List Outbox :=
  oldest Outbox.createdAt rank limit b.pending

def Broker.markSent (b : Broker) (id : Uuid) (now : ℕ) : Broker :=
  { b with
    outbox := update Outbox.id id
      (fun row => { row with status := .sent, processedAt := some now }) b.outbox }

def Broker.markFailed (b : Broker) (id : Uuid) : Broker :=
  { b with
    outbox := update Outbox.id id (fun row => { row with processedAt := none }) b.outbox }

/-- The program points of `pollOutbox` and `processEntry`. -/
inductive Relay
  | idle
  | publishing (entries : List Outbox)
  | marking (entry : Outbox) (entries : List Outbox)
  | failing (entry : Outbox) (entries : List Outbox)

def relayStep : Machine Broker Relay RelayAnswer
  | b, .idle, x =>
    if x.fails ∨ (b.fetchPending 50 x.rank).isEmpty then some (b, .idle)
    else some (b, .publishing (b.fetchPending 50 x.rank))
  | b, .publishing [], _ => some (b, .idle)
  | b, .publishing (entry :: entries), x =>
    if x.fails then
      some (if x.lands then { b with published := b.published ++ [entry.message] } else b,
        .failing entry entries)
    else some ({ b with
      published := b.published ++ [entry.message]
      acked := b.acked ++ [entry.message] }, .marking entry entries)
  | b, .marking entry entries, x =>
    if x.fails then
      some (if x.lands then b.markSent entry.id x.now else b, .failing entry entries)
    else some (b.markSent entry.id x.now, .publishing entries)
  | b, .failing entry entries, x =>
    if x.fails then some (if x.lands then b.markFailed entry.id else b, .idle)
    else some (b.markFailed entry.id, .publishing entries)

/-- Everything that can happen: polls of any instance, crashes, and new rows. -/
inductive RelayAction (ι : Type)
  | poll (i : ι) (x : RelayAnswer)
  | crash (i : ι)
  | append (row : Outbox)

variable {ι : Type} [DecidableEq ι]

def relayAct (p : Pool Broker Relay ι) : RelayAction ι → Option (Pool Broker Relay ι)
  | .poll i x => p.act relayStep (i, x)
  | .crash i => some { p with calls := Function.update p.calls i .idle }
  | .append row =>
    if row.status = .pending ∧ row.id ∉ p.store.outbox.map Outbox.id then
      some { p with store := { p.store with outbox := p.store.outbox ++ [row] } }
    else none

inductive RelayEffect (b : Broker) : Relay → Broker → Relay → Prop
  | fetch (entries : List Outbox) (h : ∀ e ∈ entries, e ∈ b.outbox) :
    RelayEffect b .idle b (.publishing entries)
  | stop (c : Relay) : RelayEffect b c b .idle
  | reject (entry : Outbox) (entries : List Outbox) :
    RelayEffect b (.publishing (entry :: entries)) b (.failing entry entries)
  | lose (entry : Outbox) (entries : List Outbox) :
    RelayEffect b (.publishing (entry :: entries))
      { b with published := b.published ++ [entry.message] } (.failing entry entries)
  | acknowledge (entry : Outbox) (entries : List Outbox) :
    RelayEffect b (.publishing (entry :: entries))
      { b with
        published := b.published ++ [entry.message]
        acked := b.acked ++ [entry.message] } (.marking entry entries)
  | mark (entry : Outbox) (entries : List Outbox) (now : ℕ) (c : Relay)
    (h : c = .publishing entries ∨ c = .failing entry entries) :
    RelayEffect b (.marking entry entries) (b.markSent entry.id now) c
  | unmarked (entry : Outbox) (entries : List Outbox) :
    RelayEffect b (.marking entry entries) b (.failing entry entries)
  | reset (entry : Outbox) (entries : List Outbox) (c : Relay)
    (h : c = .publishing entries ∨ c = .idle) :
    RelayEffect b (.failing entry entries) (b.markFailed entry.id) c

section Effects

variable {b b' : Broker} {c c' : Relay} {x : RelayAnswer} {id : Uuid} {now : ℕ}

theorem relayStep_effect (h : relayStep b c x = some (b', c')) : RelayEffect b c b' c' := by
  cases c with
  | idle =>
    simp only [relayStep] at h
    split at h <;> cases h
    · exact .stop _
    · exact .fetch _ fun e he => (List.mem_filter.mp (mem_of_mem_oldest he)).1
  | publishing entries =>
    cases entries with
    | nil =>
      cases h
      exact .stop _
    | cons entry entries =>
      simp only [relayStep] at h
      split at h
      · split at h <;> cases h
        · exact .lose _ _
        · exact .reject _ _
      · cases h
        exact .acknowledge _ _
  | marking entry entries =>
    simp only [relayStep] at h
    split at h
    · split at h <;> cases h
      · exact .mark _ _ _ _ (Or.inr rfl)
      · exact .unmarked _ _
    · cases h
      exact .mark _ _ _ _ (Or.inl rfl)
  | failing entry entries =>
    simp only [relayStep] at h
    split at h
    · split at h <;> cases h
      · exact .reset _ _ _ (Or.inr rfl)
      · exact .stop _
    · cases h
      exact .reset _ _ _ (Or.inl rfl)

theorem message_markSent : (b.markSent id now).outbox.map Outbox.message =
    b.outbox.map Outbox.message := map_update_of_eq _ fun _ _ => by rfl

theorem message_markFailed : (b.markFailed id).outbox.map Outbox.message =
    b.outbox.map Outbox.message := map_update_of_eq _ fun _ _ => by rfl

/-- The outboxes hold the same rows, and no row marked as sent has become pending again. -/
def Kept (b b' : Broker) : Prop :=
  ∀ row ∈ b.outbox, ∃ row' ∈ b'.outbox, row'.message = row.message ∧
    (row.status = .sent → row'.status = .sent)

theorem Kept.refl (b : Broker) : Kept b b := fun row hrow => ⟨row, hrow, rfl, id⟩

theorem Kept.trans {b'' : Broker} (h : Kept b b') (h' : Kept b' b'') : Kept b b'' := by
  intro row hrow
  obtain ⟨row', hrow', hm, hs⟩ := h row hrow
  obtain ⟨row'', hrow'', hm', hs'⟩ := h' row' hrow'
  exact ⟨row'', hrow'', hm'.trans hm, hs' ∘ hs⟩

theorem kept_update {f : Outbox → Outbox} (hm : ∀ row, (f row).message = row.message)
    (hs : ∀ row, row.status = .sent → (f row).status = .sent)
    (hout : b'.outbox = update Outbox.id id f b.outbox) : Kept b b' := by
  intro row hrow
  refine ⟨_, hout ▸ mem_update.mpr ⟨row, hrow, rfl⟩, ?_⟩
  split
  · exact ⟨hm row, hs row⟩
  · exact ⟨rfl, fun h => h⟩

theorem kept_markSent : Kept b (b.markSent id now) :=
  kept_update (fun _ => by rfl) (fun _ _ => by rfl) rfl

theorem kept_markFailed : Kept b (b.markFailed id) :=
  kept_update (fun _ => by rfl) (fun _ h => by exact h) rfl

theorem RelayEffect.kept (he : RelayEffect b c b' c') : Kept b b' := by
  cases he with
  | fetch | stop | reject | lose | acknowledge | unmarked => exact Kept.refl b
  | mark => exact kept_markSent
  | reset => exact kept_markFailed

end Effects

theorem relayAct_kept {p q : Pool Broker Relay ι} {a : RelayAction ι}
    (h : relayAct p a = some q) : Kept p.store q.store := by
  cases a with
  | poll i x =>
    obtain ⟨b', c', hM, rfl⟩ := Pool.act_eq_some.mp h
    exact (relayStep_effect hM).kept
  | crash i =>
    cases h
    exact Kept.refl _
  | append row =>
    simp only [relayAct] at h
    split at h <;> cases h
    exact fun row' hrow' => ⟨row', List.mem_append_left _ hrow', rfl, id⟩

/-- Messages are those of the rows, and a row marked as sent has had its message acknowledged. -/
structure Faithful (b : Broker) : Prop where
  ids : (b.outbox.map Outbox.id).Nodup
  published : ∀ m ∈ b.published, m ∈ b.outbox.map Outbox.message
  acked : ∀ m ∈ b.acked, m ∈ b.published
  sent : ∀ row ∈ b.outbox, row.status = .sent → row.message ∈ b.acked

/-- A poll works on copies of rows, and marks an entry whose message was acknowledged. -/
def Relay.Copies (b : Broker) : Relay → Prop
  | .idle => True
  | .publishing entries => ∀ e ∈ entries, e.message ∈ b.outbox.map Outbox.message
  | .marking entry entries =>
    entry.message ∈ b.acked ∧ ∀ e ∈ entry :: entries, e.message ∈ b.outbox.map Outbox.message
  | .failing entry entries => ∀ e ∈ entry :: entries, e.message ∈ b.outbox.map Outbox.message

section Invariant

variable {b b' : Broker} {c c' : Relay} {id : Uuid} {now : ℕ}

theorem Relay.Copies.mono (hc : c.Copies b)
    (hm : ∀ m ∈ b.outbox.map Outbox.message, m ∈ b'.outbox.map Outbox.message)
    (ha : ∀ m ∈ b.acked, m ∈ b'.acked) : c.Copies b' := by
  cases c with
  | idle => trivial
  | publishing entries => exact fun e he => hm _ (hc e he)
  | marking entry entries => exact ⟨ha _ hc.1, fun e he => hm _ (hc.2 e he)⟩
  | failing entry entries => exact fun e he => hm _ (hc e he)

theorem Faithful.message_eq (hb : Faithful b) {m m' : Message}
    (hm : m ∈ b.outbox.map Outbox.message) (hm' : m' ∈ b.outbox.map Outbox.message)
    (hid : m.rowId = m'.rowId) : m = m' := by
  obtain ⟨row, hrow, rfl⟩ := List.mem_map.mp hm
  obtain ⟨row', hrow', rfl⟩ := List.mem_map.mp hm'
  rw [List.inj_on_of_nodup_map hb.ids hrow hrow' hid]

theorem Faithful.publish (hb : Faithful b) {m : Message}
    (hm : m ∈ b.outbox.map Outbox.message) (acked : List Message)
    (ha : ∀ m' ∈ acked, m' ∈ b.acked ∨ m' = m) (hs : ∀ m' ∈ b.acked, m' ∈ acked) :
    Faithful { b with
      published := b.published ++ [m]
      acked := acked } where
  ids := hb.ids
  published := forall_mem_concat hb.published hm
  acked m' h := by
    rcases ha m' h with h | rfl
    · exact List.mem_append_left _ (hb.acked m' h)
    · exact List.mem_append_right _ (List.mem_singleton.mpr rfl)
  sent row hrow h := hs _ (hb.sent row hrow h)

/-- Rows are marked in place: their messages stay, and a row marked as sent is acknowledged. -/
theorem Faithful.mark (hb : Faithful b) {f : Outbox → Outbox}
    (hm : ∀ row, (f row).message = row.message)
    (hs : ∀ row ∈ b.outbox, row.id = id → (f row).status = .sent → row.message ∈ b.acked) :
    Faithful { b with outbox := update Outbox.id id f b.outbox } where
  ids := by
    have hids : (update Outbox.id id f b.outbox).map Outbox.id = b.outbox.map Outbox.id :=
      map_update_of_eq _ fun row _ => congrArg Message.rowId (hm row)
    exact hids ▸ hb.ids
  published m h := by
    rw [map_update_of_eq _ fun row _ => hm row]
    exact hb.published m h
  acked := hb.acked
  sent row hrow h := by
    obtain ⟨row', hrow', rfl⟩ := mem_update.mp hrow
    by_cases hid : row'.id = id
    · rw [if_pos hid] at h ⊢
      exact hm row' ▸ hs row' hrow' hid h
    · rw [if_neg hid] at h ⊢
      exact hb.sent row' hrow' h

theorem Faithful.markSent (hb : Faithful b) {entry : Outbox} (ha : entry.message ∈ b.acked)
    (he : entry.message ∈ b.outbox.map Outbox.message) : Faithful (b.markSent entry.id now) :=
  hb.mark (fun _ => rfl) fun _ hrow hid _ =>
    hb.message_eq (List.mem_map_of_mem hrow) he hid ▸ ha

theorem Faithful.markFailed (hb : Faithful b) : Faithful (b.markFailed id) :=
  hb.mark (fun _ => rfl) fun row hrow _ hs => hb.sent row hrow hs

theorem Faithful.append (hb : Faithful b) {row : Outbox} (hs : row.status = .pending)
    (hid : row.id ∉ b.outbox.map Outbox.id) :
    Faithful { b with outbox := b.outbox ++ [row] } where
  ids := nodup_map_concat hb.ids fun row' hrow' he => hid (he ▸ List.mem_map_of_mem hrow')
  published m h := by
    rw [List.map_append]
    exact List.mem_append_left _ (hb.published m h)
  acked := hb.acked
  sent row' hrow' h := by
    rcases List.mem_append.mp hrow' with hrow' | hrow'
    · exact hb.sent row' hrow' h
    · rw [List.mem_singleton.mp hrow', hs] at h
      cases h

theorem RelayEffect.faithful (he : RelayEffect b c b' c') (hb : Faithful b) (hc : c.Copies b) :
    Faithful b' ∧ c'.Copies b' := by
  cases he with
  | fetch entries h => exact ⟨hb, fun e he => List.mem_map_of_mem (h e he)⟩
  | stop => exact ⟨hb, trivial⟩
  | reject entry entries => exact ⟨hb, hc⟩
  | lose entry entries =>
    exact ⟨hb.publish (hc entry List.mem_cons_self) b.acked (fun _ h => Or.inl h) fun _ h => h, hc⟩
  | acknowledge entry entries =>
    refine ⟨hb.publish (hc entry List.mem_cons_self) _ (fun m h => ?_) fun _ h =>
      List.mem_append_left _ h, List.mem_append_right _ (List.mem_singleton.mpr rfl), hc⟩
    exact (List.mem_append.mp h).imp id List.mem_singleton.mp
  | mark entry entries now c h =>
    have hcopies : ∀ e ∈ entry :: entries,
        e.message ∈ (b.markSent entry.id now).outbox.map Outbox.message := by
      rw [message_markSent]
      exact hc.2
    refine ⟨hb.markSent hc.1 (hc.2 entry List.mem_cons_self), ?_⟩
    rcases h with rfl | rfl
    · exact fun e he => hcopies e (List.mem_cons_of_mem _ he)
    · exact hcopies
  | unmarked entry entries => exact ⟨hb, hc.2⟩
  | reset entry entries c h =>
    have hcopies : ∀ e ∈ entry :: entries,
        e.message ∈ (b.markFailed entry.id).outbox.map Outbox.message := by
      rw [message_markFailed]
      exact hc
    refine ⟨hb.markFailed, ?_⟩
    rcases h with rfl | rfl
    · exact fun e he => hcopies e (List.mem_cons_of_mem _ he)
    · trivial

theorem RelayEffect.acked (he : RelayEffect b c b' c') : ∀ m ∈ b.acked, m ∈ b'.acked := by
  cases he with
  | acknowledge => exact fun m hm => List.mem_append_left _ hm
  | _ => exact fun m hm => hm

theorem Kept.messages (h : Kept b b') :
    ∀ m ∈ b.outbox.map Outbox.message, m ∈ b'.outbox.map Outbox.message := by
  intro m hm
  obtain ⟨row, hrow, rfl⟩ := List.mem_map.mp hm
  obtain ⟨row', hrow', hmsg, -⟩ := h row hrow
  exact List.mem_map.mpr ⟨row', hrow', hmsg⟩

end Invariant

structure Relayed (p : Pool Broker Relay ι) : Prop where
  broker : Faithful p.store
  copies : ∀ i, (p.calls i).Copies p.store

theorem Relayed.act {p q : Pool Broker Relay ι} {a : RelayAction ι} (hp : Relayed p)
    (h : relayAct p a = some q) : Relayed q := by
  have hkept := relayAct_kept h
  cases a with
  | poll i x =>
    obtain ⟨b', c', hM, rfl⟩ := Pool.act_eq_some.mp h
    have he := relayStep_effect hM
    obtain ⟨hb, hc⟩ := he.faithful hp.broker (hp.copies i)
    exact ⟨hb, forall_update hc fun j => (hp.copies j).mono hkept.messages he.acked⟩
  | crash i =>
    cases h
    exact ⟨hp.broker, forall_update trivial hp.copies⟩
  | append row =>
    simp only [relayAct] at h
    split at h <;> cases h
    rename_i hrow
    exact ⟨hp.broker.append hrow.1 hrow.2,
      fun j => (hp.copies j).mono hkept.messages fun m hm => hm⟩

/-- What the relay guarantees in every state. -/
structure Reliable (b : Broker) : Prop where
  acked : ∀ row ∈ b.outbox, row.status = .sent → ∃ m ∈ b.acked, m.rowId = row.id
  same : ∀ m ∈ b.published, ∀ m' ∈ b.published, m.rowId = m'.rowId → m = m'
  message : ∀ m ∈ b.published, ∃ row ∈ b.outbox, row.id = m.rowId ∧ m = row.message
  selected : ∀ row ∈ b.outbox, row.status ≠ .sent → row ∈ b.pending

theorem Faithful.reliable {b : Broker} (hb : Faithful b) : Reliable b where
  acked row hrow hs := ⟨row.message, hb.sent row hrow hs, rfl⟩
  same m hm m' hm' hid := hb.message_eq (hb.published m hm) (hb.published m' hm') hid
  message m hm := by
    obtain ⟨row, hrow, rfl⟩ := List.mem_map.mp (hb.published m hm)
    exact ⟨row, hrow, rfl, rfl⟩
  selected row hrow hs := by
    refine List.mem_filter.mpr ⟨hrow, ?_⟩
    cases hst : row.status with
    | pending => rfl
    | sent => exact absurd hst hs

def relayStart : Pool Broker Relay ι := ⟨⟨[], [], []⟩, fun _ => .idle⟩

/--
In every run of any number of relay instances a row marked as sent was acknowledged, all
messages of a row are the same, a row not sent yet is selected again, and from one state
of the run to a later one no row is lost and none marked as sent becomes pending again.
-/
theorem relay_reliable (as bs : List (RelayAction ι)) (p q : Pool Broker Relay ι)
    (h : exec relayAct relayStart as = some p) (h' : exec relayAct p bs = some q) :
    Reliable p.store ∧ Kept p.store q.store := by
  constructor
  · have hstart : Relayed (relayStart : Pool Broker Relay ι) :=
      ⟨by constructor <;> simp [relayStart], fun _ => trivial⟩
    exact (exec_invariant (fun _ _ _ hp h => hp.act h) hstart h).broker.reliable
  · exact exec_rel (R := fun p q => Kept p.store q.store) (fun p => Kept.refl p.store)
      (fun _ _ _ => Kept.trans) (fun _ _ _ => relayAct_kept) h'

def polled (i : Bool) : RelayAction Bool := .poll i ⟨fun _ => 0, 5, false, true⟩

/-- Two instances publish the same row; one crashes before its mark, the other marks it. -/
theorem published_twice :
    ∃ p ∈ exec relayAct relayStart [.append (createEntry 0 1 0 .orderCreated (.obj []) [] 0),
        polled true, polled false, polled true, polled false],
      ∃ q ∈ exec relayAct p [.crash true, polled false],
        q.store.published.length = 2 ∧ q.store.outbox.map Outbox.status = [.sent] ∧
          Reliable p.store ∧ Kept p.store q.store := by
  obtain ⟨p, hp, q, hq, hl, hs⟩ : ∃ p ∈ exec relayAct relayStart
      [.append (createEntry 0 1 0 .orderCreated (.obj []) [] 0), polled true, polled false,
        polled true, polled false],
      ∃ q ∈ exec relayAct p [.crash true, polled false],
        q.store.published.length = 2 ∧ q.store.outbox.map Outbox.status = [.sent] := by
    decide +kernel
  exact ⟨p, hp, q, hq, hl, hs, relay_reliable _ _ p q hp hq⟩

end OrderService
