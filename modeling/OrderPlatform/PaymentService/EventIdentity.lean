import OrderPlatform.PaymentService.Relay

/-! # The event identifier of a published row

An outbox row stores the identifier of its event. The relay does not hand it to the
producer, which draws another identifier for every message, so no two messages carry the
same one.
-/

namespace PaymentService

open Runs Store Wire

def Message.bodyEventId (m : Message) : Option String := (m.value.stringMember "eventId").join

def Message.headerEventId (m : Message) : Option String := m.headers.lookup "eventId"

/-- The messages published for a row: those on the topic and those on their way to it. -/
def Broker.published (b : Broker) (id : Uuid) : List Message :=
  (b.accepted ++ b.inFlight).filter fun m => m.rowId = id

/-- Every message published for the row carries the stored identifier, body and headers. -/
def StableIdentity (b : Broker) (row : Outbox) : Prop :=
  ∀ m ∈ b.published row.id, m.bodyEventId = some (toString row.eventId) ∧
    m.headerEventId = some (toString row.eventId)

variable {b b' : Broker} {c c' : Poll} {x : PollAnswer}

@[simp] theorem publishPaymentEvent_bodyEventId (row : Outbox) (e k : Uuid) (ts : String) :
    (publishPaymentEvent row e k ts).bodyEventId = some (toString e) := by
  simp [Message.bodyEventId, publishPaymentEvent, Json.stringMember, Json.member, Json.object,
    present]

/-- The identifiers of all messages are distinct and drawn before the next one. -/
structure Identified (b : Broker) : Prop where
  drawn : ∀ m ∈ b.accepted ++ b.inFlight, ∃ e < b.fresh, m.bodyEventId = some (toString e)
  distinct : ((b.accepted ++ b.inFlight).map Message.bodyEventId).Nodup

theorem Identified.sublist (h : Identified b) (hf : b'.fresh = b.fresh)
    (hs : List.Subperm (b'.accepted ++ b'.inFlight) (b.accepted ++ b.inFlight)) :
    Identified b' := by
  constructor
  · intro m hm
    rw [hf]
    exact h.drawn m (hs.subset hm)
  · obtain ⟨l, hp, hl⟩ := hs
    exact (hp.map _).nodup_iff.mp (h.distinct.sublist (hl.map _))

theorem Identified.publish (h : Identified b) (row : Outbox) (timestamp : String) :
    Identified { b with
      inFlight := b.inFlight ++ [publishPaymentEvent row b.fresh (b.fresh + 1) timestamp]
      fresh := b.fresh + 2 } := by
  constructor
  · rw [← List.append_assoc]
    refine forall_mem_concat ?_ ⟨b.fresh, Nat.lt_add_of_pos_right Nat.two_pos, by simp⟩
    intro m hm
    obtain ⟨e, he, hme⟩ := h.drawn m hm
    exact ⟨e, Nat.lt_add_right 2 he, hme⟩
  · rw [← List.append_assoc]
    apply nodup_map_concat h.distinct
    intro m hm heq
    obtain ⟨e, hlt, hme⟩ := h.drawn m hm
    rw [hme, publishPaymentEvent_bodyEventId, Option.some.injEq] at heq
    exact hlt.ne (Uuid.text_injective heq)

variable {ι : Type} [DecidableEq ι] {p q : Pool Broker Poll ι} {a : RelayAction ι}

theorem PollEffect.identified (he : PollEffect b x c b' c') (h : Identified b) :
    Identified b' := by
  cases he with
  | publish row => exact h.publish row x.timestamp
  | mark => exact ⟨h.drawn, h.distinct⟩
  | _ => exact h

theorem settle_subperm {acc fly : List Message} {m : Message} {k : ℕ} (hm : fly[k]? = some m)
    (accepted : Bool) :
    List.Subperm ((if accepted then acc ++ [m] else acc) ++ fly.eraseIdx k) (acc ++ fly) := by
  obtain ⟨hk, rfl⟩ := List.getElem?_eq_some_iff.mp hm
  cases accepted
  · exact ((List.eraseIdx_sublist fly k).append_left acc).subperm
  · have hp : List.Perm (fly[k] :: fly.eraseIdx k) fly := List.getElem_cons_eraseIdx_perm hk
    rw [if_pos rfl, List.append_assoc]
    exact (hp.append_left acc).subperm

theorem Identified.step (h : Identified p.store) (hs : relayStep p a = some q) :
    Identified q.store := by
  cases a with
  | poll i x =>
    obtain ⟨b', c', hM, rfl⟩ := Pool.act_eq_some.mp hs
    exact (pollStep_effect hM).identified h
  | crash i =>
    cases hs
    exact h
  | settle k accepted =>
    obtain ⟨m, hm, rfl⟩ := Option.map_eq_some_iff.mp hs
    exact h.sublist rfl (settle_subperm hm accepted)
  | append row =>
    simp only [relayStep] at hs
    split at hs <;> cases hs
    exact ⟨h.drawn, h.distinct⟩

theorem identified_of_exec {as : List (RelayAction ι)}
    (h : exec relayStep relayStart as = some q) : Identified q.store := by
  refine exec_invariant (I := fun p => Identified p.store) (fun _ _ _ hp h => hp.step h) ?_ h
  exact ⟨by simp [relayStart], by simp [relayStart]⟩

theorem published_distinct {as : List (RelayAction ι)}
    (h : exec relayStep relayStart as = some q) (id : Uuid) :
    ((q.store.published id).map Message.bodyEventId).Nodup :=
  (identified_of_exec h).distinct.sublist (List.filter_sublist.map _)

/-- A row published more than once never keeps its event identifier. -/
theorem event_identity_lost (as : List (RelayAction ι)) (q : Pool Broker Poll ι)
    (h : exec relayStep relayStart as = some q) (row : Outbox)
    (htwice : 2 ≤ (q.store.published row.id).length) : ¬ StableIdentity q.store row := by
  intro hstable
  have hd := published_distinct h row.id
  match hp : q.store.published row.id with
  | [] | [_] => simp [hp] at htwice
  | m :: m' :: _ =>
    have hm := (hstable m (by simp [hp])).1
    have hm' := (hstable m' (by simp [hp])).1
    simp [hp, hm, hm'] at hd

instance (b : Broker) (row : Outbox) : Decidable (StableIdentity b row) :=
  inferInstanceAs (Decidable (∀ m ∈ b.published row.id, _))

def succeeded : Outbox := .append 2 0 .paymentSucceeded 1 (.obj []) [] 0

/-- The relay crashes between its publication and its mark, and publishes again. -/
def publishedTwice : List (RelayAction Unit) :=
  let x : PollAnswer := ⟨fun _ => 0, false, 7, "1970-01-01T00:00:07.000Z"⟩
  [.append succeeded, .poll () x, .poll () x, .settle 0 true, .crash (), .poll () x, .poll () x,
    .settle 0 true]

theorem two_identifiers :
    ∃ q ∈ exec relayStep relayStart publishedTwice, ∃ row ∈ q.store.outbox,
      2 ≤ (q.store.published row.id).length ∧ ¬ StableIdentity q.store row := by
  decide +kernel

theorem republished_identity_lost :
    ∃ q ∈ exec relayStep relayStart publishedTwice,
      2 ≤ (q.store.published succeeded.id).length ∧ ¬ StableIdentity q.store succeeded := by
  obtain ⟨q, hq, h⟩ : ∃ q ∈ exec relayStep relayStart publishedTwice,
      2 ≤ (q.store.published succeeded.id).length := by decide +kernel
  exact ⟨q, hq, h, event_identity_lost _ q hq succeeded h⟩

end PaymentService
