import OrderPlatform.PaymentService.Entities
import OrderPlatform.Runs.Pool

/-! # The payment service's outbox relay

A poll starts a send for each row of its batch and marks the batch as sent without
waiting for the sends. Instances, sends in flight, crashes and new rows interleave.
-/

namespace PaymentService

open Runs Store Wire

/-- A message on the payment topic, with the outbox row it was published for. -/
structure Message where
  rowId : Uuid
  key : String
  value : Json
  headers : List (String × String)

/-- The outbox, the sends not settled yet, the messages the broker has accepted. -/
structure Broker where
  outbox : List Outbox
  inFlight : List Message
  accepted : List Message
  fresh : Uuid

structure PollAnswer where
  rank : Outbox → ℕ
  fails : Bool
  now : ℕ
  timestamp : String

/-- `KafkaProducerService.publishPaymentEvent`: the message whose send it starts. -/
def publishPaymentEvent (row : Outbox) (eventId correlationId : Uuid) (timestamp : String) :
    Message where
  rowId := row.id
  key := toString row.aggregateId
  value := .object [
    ("eventType", some (.str row.eventType.text)),
    ("eventId", some (.str (toString eventId))),
    ("aggregateId", some (.str (toString row.aggregateId))),
    ("payload", some row.payload)]
  headers := [
    ("eventType", row.eventType.text),
    ("eventId", toString eventId),
    ("correlationId",
      orDefault ((row.headers.getD []).lookup "correlationId") (toString correlationId)),
    ("timestamp", timestamp)]

def Broker.fetchPending (b : Broker) (batchSize : ℕ) (rank : Outbox → ℕ) : List Outbox :=
  oldest Outbox.createdAt rank batchSize (b.outbox.filter fun row => row.status = .pending)

def Broker.markSent (b : Broker) (ids : List Uuid) (now : ℕ) : Broker :=
  { b with outbox := b.outbox.map fun row =>
      if row.id ∈ ids then { row with status := .sent, processedAt := some now } else row }

inductive Poll
  | idle
  | publishing (pending : List Outbox) (sentIds : List Uuid)

/--
One step of `OutboxRelayService.poll`: the fetch, the publication of a row, or the mark.
The send a publication starts settles later, and a failed publication keeps its row out
of the mark only when it throws at once.
-/
def pollStep : Machine Broker Poll PollAnswer
  | b, .idle, x =>
    if x.fails ∨ (b.fetchPending 100 x.rank).isEmpty then some (b, .idle)
    else some (b, .publishing (b.fetchPending 100 x.rank) [])
  | b, .publishing (row :: pending) sentIds, x =>
    if x.fails then some (b, .publishing pending sentIds)
    else some ({ b with
      inFlight := b.inFlight ++ [publishPaymentEvent row b.fresh (b.fresh + 1) x.timestamp]
      fresh := b.fresh + 2 }, .publishing pending (sentIds ++ [row.id]))
  | b, .publishing [] sentIds, x =>
    if x.fails ∨ sentIds.isEmpty then some (b, .idle) else some (b.markSent sentIds x.now, .idle)

inductive PollEffect (b : Broker) (x : PollAnswer) : Poll → Broker → Poll → Prop
  | fetch (pending : List Outbox) (h : ∀ row ∈ pending, row ∈ b.outbox) :
    PollEffect b x .idle b (.publishing pending [])
  | stop (c : Poll) : PollEffect b x c b .idle
  | skip (row : Outbox) (pending : List Outbox) (sentIds : List Uuid) :
    PollEffect b x (.publishing (row :: pending) sentIds) b (.publishing pending sentIds)
  | publish (row : Outbox) (pending : List Outbox) (sentIds : List Uuid) :
    PollEffect b x (.publishing (row :: pending) sentIds)
      { b with
        inFlight := b.inFlight ++ [publishPaymentEvent row b.fresh (b.fresh + 1) x.timestamp]
        fresh := b.fresh + 2 } (.publishing pending (sentIds ++ [row.id]))
  | mark (sentIds : List Uuid) (h : x.fails = false) :
    PollEffect b x (.publishing [] sentIds) (b.markSent sentIds x.now) .idle

/-- Everything that can happen: polls of any instance, settled sends, crashes, new rows. -/
inductive RelayAction (ι : Type)
  | poll (i : ι) (x : PollAnswer)
  | crash (i : ι)
  | settle (k : ℕ) (accepted : Bool)
  | append (row : Outbox)

variable {ι : Type} [DecidableEq ι]

def relayStep (p : Pool Broker Poll ι) : RelayAction ι → Option (Pool Broker Poll ι)
  | .poll i x => p.act pollStep (i, x)
  | .crash i => some { p with calls := Function.update p.calls i .idle }
  | .settle k accepted =>
    p.store.inFlight[k]?.map fun m =>
      { p with store := { p.store with
          inFlight := p.store.inFlight.eraseIdx k
          accepted := if accepted then p.store.accepted ++ [m] else p.store.accepted } }
  | .append row =>
    if row.status = .pending then
      some { p with store := { p.store with outbox := p.store.outbox ++ [row] } }
    else none

/-- The broker has accepted a message published for the row. -/
def Broker.Delivered (b : Broker) (id : Uuid) : Prop := ∃ m ∈ b.accepted, m.rowId = id

/-- A row is marked as sent only if a message for it has been accepted. -/
def SentDelivered (b : Broker) : Prop :=
  ∀ row ∈ b.outbox, row.status = .sent → b.Delivered row.id

/-- A poll that marks its batch finds a message accepted for each of its rows. -/
def MarksDelivered (p : Pool Broker Poll ι) : RelayAction ι → Prop
  | .poll i x =>
    match p.calls i with
    | .publishing [] sentIds => x.fails = false → ∀ id ∈ sentIds, p.store.Delivered id
    | _ => True
  | _ => True

def Broker.Has (b : Broker) (id : Uuid) : Prop := ∃ row ∈ b.outbox, row.id = id

def Poll.Known (b : Broker) : Poll → Prop
  | .idle => True
  | .publishing pending sentIds => (∀ row ∈ pending, b.Has row.id) ∧ ∀ id ∈ sentIds, b.Has id

theorem Poll.Known.mono {b b' : Broker} (h : ∀ id, b.Has id → b'.Has id) {c : Poll}
    (hc : c.Known b) : c.Known b' := by
  cases c with
  | idle => trivial
  | publishing pending sentIds =>
    exact ⟨fun row hr => h _ (hc.1 row hr), fun id hid => h _ (hc.2 id hid)⟩

variable {b b' : Broker} {c c' : Poll} {x : PollAnswer} {ids : List Uuid} {now : ℕ}

theorem Broker.Has.markSent {id : Uuid} (h : b.Has id) : (b.markSent ids now).Has id := by
  obtain ⟨row, hrow, rfl⟩ := h
  refine ⟨_, List.mem_map_of_mem hrow, ?_⟩
  split <;> rfl

theorem pollStep_effect (h : pollStep b c x = some (b', c')) : PollEffect b x c b' c' := by
  cases c with
  | idle =>
    simp only [pollStep] at h
    split at h <;> cases h
    · exact .stop _
    · exact .fetch _ fun row hr => (List.mem_filter.mp (mem_of_mem_oldest hr)).1
  | publishing pending sentIds =>
    cases pending with
    | nil =>
      simp only [pollStep] at h
      split at h <;> cases h
      · exact .stop _
      · rename_i hx
        exact .mark _ (by simpa using (not_or.mp hx).1)
    | cons row pending =>
      simp only [pollStep] at h
      split at h <;> cases h
      · exact .skip _ _ _
      · exact .publish _ _ _

theorem PollEffect.known (he : PollEffect b x c b' c') (hc : c.Known b) : c'.Known b' := by
  cases he with
  | fetch pending h => exact ⟨fun row hr => ⟨row, h row hr, rfl⟩, by simp⟩
  | stop => trivial
  | skip row pending sentIds => exact ⟨fun r hr => hc.1 r (List.mem_cons_of_mem _ hr), hc.2⟩
  | publish row pending sentIds =>
    exact ⟨fun r hr => hc.1 r (List.mem_cons_of_mem _ hr),
      forall_mem_concat hc.2 (hc.1 row List.mem_cons_self)⟩
  | mark => trivial

theorem PollEffect.has (he : PollEffect b x c b' c') {id : Uuid} (h : b.Has id) : b'.Has id := by
  cases he with
  | mark => exact h.markSent
  | _ => exact h

structure Relayed (p : Pool Broker Poll ι) : Prop where
  known : ∀ i, (p.calls i).Known p.store
  sent : SentDelivered p.store

variable {p q : Pool Broker Poll ι} {a : RelayAction ι}

theorem sent_of_markSent {row : Outbox} (h : row ∈ (b.markSent ids now).outbox)
    (hs : row.status = .sent) :
    (∃ row' ∈ b.outbox, row'.status = .sent ∧ row'.id = row.id) ∨ row.id ∈ ids := by
  obtain ⟨row', hrow', rfl⟩ := List.mem_map.mp h
  by_cases hid : row'.id ∈ ids
  · right
    simp [hid]
  · left
    simp only [hid, if_false] at hs ⊢
    exact ⟨row', hrow', hs, rfl⟩

theorem SentDelivered.mono (h : SentDelivered b) (hout : b'.outbox = b.outbox)
    (hacc : ∀ m ∈ b.accepted, m ∈ b'.accepted) : SentDelivered b' := by
  intro row hrow hs
  obtain ⟨m, hm, hid⟩ := h row (hout ▸ hrow) hs
  exact ⟨m, hacc m hm, hid⟩

theorem SentDelivered.markSent (h : SentDelivered b) (hids : ∀ id ∈ ids, b.Delivered id) :
    SentDelivered (b.markSent ids now) := by
  intro row hrow hs
  rcases sent_of_markSent hrow hs with ⟨row', hrow', hs', hid⟩ | hid
  · exact hid ▸ h row' hrow' hs'
  · exact hids _ hid

theorem Relayed.step (hp : Relayed p) (hC : MarksDelivered p a) (h : relayStep p a = some q) :
    Relayed q := by
  cases a with
  | poll i x =>
    obtain ⟨b', c', hM, rfl⟩ := Pool.act_eq_some.mp h
    have he := pollStep_effect hM
    constructor
    · exact forall_update (he.known (hp.known i)) fun j => (hp.known j).mono fun _ => he.has
    · simp only [MarksDelivered] at hC
      generalize p.calls i = c at hC he
      cases he with
      | mark sentIds hx => exact hp.sent.markSent (hC hx)
      | _ => exact hp.sent.mono rfl fun _ hm => hm
  | crash i =>
    cases h
    exact ⟨forall_update trivial hp.known, hp.sent⟩
  | settle k accepted =>
    obtain ⟨m, -, rfl⟩ := Option.map_eq_some_iff.mp h
    constructor
    · exact fun j => (hp.known j).mono fun id hid => hid
    · refine hp.sent.mono rfl ?_
      intro m' hm'
      dsimp only
      split
      · exact List.mem_append_left _ hm'
      · exact hm'
  | append row =>
    simp only [relayStep] at h
    split at h <;> cases h
    rename_i hpending
    constructor
    · intro j
      apply (hp.known j).mono
      rintro id ⟨row', hrow', hid⟩
      exact ⟨row', List.mem_append_left _ hrow', hid⟩
    · intro row' hrow' hs
      rcases List.mem_append.mp hrow' with hrow' | hrow'
      · exact hp.sent row' hrow' hs
      · simp only [List.mem_singleton] at hrow'
        rw [hrow', hpending] at hs
        cases hs

theorem Relayed.marked_early (hp : Relayed p) (hC : ¬ MarksDelivered p a)
    (h : relayStep p a = some q) : ¬ SentDelivered q.store := by
  cases a with
  | poll i x =>
    obtain ⟨b', c', hM, rfl⟩ := Pool.act_eq_some.mp h
    cases hc : p.calls i with
    | idle => simp [MarksDelivered, hc] at hC
    | publishing pending sentIds =>
      cases pending with
      | cons row pending => simp [MarksDelivered, hc] at hC
      | nil =>
        simp only [MarksDelivered, hc, Classical.not_imp, not_forall] at hC
        obtain ⟨hx, id, hid, hnot⟩ := hC
        have hknown := hp.known i
        rw [hc] at hknown hM
        obtain ⟨row, hrow, rfl⟩ := hknown.2 id hid
        have hne : sentIds ≠ [] := List.ne_nil_of_mem hid
        simp only [pollStep, hx, Bool.false_eq_true, List.isEmpty_iff, hne, or_self, if_false,
          Option.some.injEq, Prod.mk.injEq] at hM
        obtain ⟨rfl, -⟩ := hM
        intro hsent
        have hm := hsent _ (List.mem_map_of_mem hrow)
        simp only [hid, if_true] at hm
        exact hnot (hm trivial)
  | crash i => simp [MarksDelivered] at hC
  | settle k accepted => simp [MarksDelivered] at hC
  | append row => simp [MarksDelivered] at hC

def relayStart : Pool Broker Poll ι := ⟨⟨[], [], [], 0⟩, fun _ => .idle⟩

/--
In every state of a run a row is marked as sent only if a message for it was accepted,
exactly when every poll of the run marks its batch after the broker has accepted it.
-/
theorem sent_delivered_iff (as : List (RelayAction ι)) (q : Pool Broker Poll ι)
    (h : exec relayStep relayStart as = some q) :
    Always relayStep (fun p => SentDelivered p.store) relayStart as ↔
      AllSteps relayStep MarksDelivered relayStart as :=
  always_iff_allSteps (I := Relayed) (fun _ _ _ hp hC h => hp.step hC h) (fun _ hp => hp.sent)
    (fun _ _ _ hp hC h => hp.marked_early hC h)
    ⟨fun _ => trivial, fun _ hrow => absurd hrow List.not_mem_nil⟩ h

instance (b : Broker) : Decidable (SentDelivered b) :=
  inferInstanceAs (Decidable (∀ row ∈ b.outbox, row.status = .sent → ∃ m ∈ b.accepted, _))

def onePoll (settled : List (RelayAction Unit)) : List (RelayAction Unit) :=
  let x : PollAnswer := ⟨fun _ => 0, false, 7, "1970-01-01T00:00:07.000Z"⟩
  [.append (.append 2 0 .paymentSucceeded 1 (.obj []) [] 0), .poll () x, .poll () x] ++
    settled ++ [.poll () x]

/-- The row is marked while its send is in flight, and the send fails. -/
theorem sent_before_failure :
    ∃ q ∈ exec relayStep relayStart (onePoll [] ++ [.settle 0 false]),
      q.store.inFlight.length = 0 ∧ ¬ SentDelivered q.store := by
  decide +kernel

theorem sent_after_acceptance :
    ∃ q ∈ exec relayStep relayStart (onePoll [.settle 0 true]),
      (Always relayStep (fun p => SentDelivered p.store) relayStart (onePoll [.settle 0 true]) ↔
        AllSteps relayStep MarksDelivered relayStart (onePoll [.settle 0 true])) := by
  obtain ⟨q, hq, -⟩ : ∃ q ∈ exec relayStep relayStart (onePoll [.settle 0 true]),
      SentDelivered q.store := by decide +kernel
  exact ⟨q, hq, sent_delivered_iff _ q hq⟩

end PaymentService
