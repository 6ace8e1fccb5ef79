import Mathlib.Algebra.Order.BigOperators.Group.Finset
import OrderPlatform.OrderService.StatusChanges

/-! # Life cycle of an order under concurrent requests

Every request checks the status it read first, but updates whatever is stored by then.
The status moves forward only, with one event for each move, exactly when every update
finds a status it may still change.
-/

namespace OrderService

open Runs Store Wire

def World.status (w : World) (id : Uuid) : Option OrderStatus := (w.db.findById id).map Order.status

def World.announcements (w : World) (id : Uuid) (t : Target) : List Outbox :=
  w.db.outbox.filter fun row => row.aggregateId = id ∧ row.eventType = t.eventType

/-- An update leaves the status as it is, or moves it forward. -/
inductive Move : Option OrderStatus → Option OrderStatus → Prop
  | stay (s : Option OrderStatus) : Move s s
  | confirm : Move (some .pending) (some .confirmed)
  | cancelPending : Move (some .pending) (some .cancelled)
  | cancelConfirmed : Move (some .confirmed) (some .cancelled)

/--
An update to confirmed finds the order pending, and an update to cancelled finds it not
cancelled yet.
-/
def StatusCall.Finds (w : World) : StatusCall → Prop
  | .updating r _ =>
    match r.target with
    | .confirmed => w.status r.orderId = some .pending
    | .cancelled => w.status r.orderId ≠ some .cancelled
  | _ => True

def StatusCall.request : StatusCall → Option StatusChange
  | .reading r | .updating r _ | .rereading r _ | .inserting r _ _ => some r
  | _ => none

def StatusCall.owes (t : Target) : StatusCall → ℤ
  | .rereading r _ | .inserting r _ _ => if r.target = t then 1 else 0
  | _ => 0

def StatusCall.finished : StatusCall → Bool
  | .returned _ | .threw _ => true
  | _ => false

theorem StatusCall.owes_nonneg (t : Target) (c : StatusCall) : 0 ≤ c.owes t := by
  cases c <;> simp only [owes, le_refl]
  all_goals split <;> simp

section World

variable {w : World} {id : Uuid} {t : Target} {row : Outbox} {s : OrderStatus}

@[simp] theorem status_append : (w.append row).status id = w.status id := rfl

@[simp] theorem announcements_updateStatus {id' : Uuid} :
    (w.updateStatus id' s).announcements id t = w.announcements id t := rfl

theorem announcements_append : (w.append row).announcements id t = w.announcements id t ++
    if row.aggregateId = id ∧ row.eventType = t.eventType then [row] else [] := by
  simp only [World.announcements, World.append, List.filter_append, List.filter_cons,
    List.filter_nil, decide_eq_true_eq]

theorem status_updateStatus_self (h : w.status id ≠ none) :
    (w.updateStatus id s).status id = some s := by
  have hl : (w.updateStatus id s).db.findById id = (w.db.findById id).map fun order =>
      { order with status := s, version := order.version + 1 } := lookup_update_self fun _ => rfl
  simp only [World.status, hl, Option.map_map]
  cases hf : w.db.findById id with
  | none => simp [World.status, hf] at h
  | some order => rfl

theorem Target.eventType_injective : Function.Injective Target.eventType := by
  intro t t' h
  cases t <;> cases t' <;> first | rfl | cases h

end World

section Pool

variable {ι : Type} [Fintype ι] {id : Uuid} {q q' : Pool World StatusCall ι}

/-- How often the status has been updated to a target so far. -/
def updates (id : Uuid) (t : Target) (q : Pool World StatusCall ι) : ℤ :=
  (q.store.announcements id t).length + ∑ i, (q.calls i).owes t

/-- The order is stored, and every call is a request for it. -/
structure OnOrder (id : Uuid) (q : Pool World StatusCall ι) : Prop where
  row : q.store.status id ≠ none
  on : ∀ i r, (q.calls i).request = some r → r.orderId = id

/-- The updates so far fit the stored status. -/
structure Orderly (id : Uuid) (q : Pool World StatusCall ι) : Prop extends OnOrder id q where
  not_failed : q.store.status id ≠ some .failed
  pending : q.store.status id = some .pending → ∀ t, updates id t q = 0
  confirmed : q.store.status id = some .confirmed →
    updates id .confirmed q = 1 ∧ updates id .cancelled q = 0
  cancelled : q.store.status id = some .cancelled →
    updates id .confirmed q ≤ 1 ∧ updates id .cancelled q = 1

structure Repeated (id : Uuid) (q : Pool World StatusCall ι) : Prop extends OnOrder id q where
  twice : ∃ t, 2 ≤ updates id t q

theorem length_le_updates (id : Uuid) (t : Target) (q : Pool World StatusCall ι) :
    ((q.store.announcements id t).length : ℤ) ≤ updates id t q :=
  le_add_of_nonneg_right (Finset.sum_nonneg fun i _ => (q.calls i).owes_nonneg t)

theorem updates_of_finished (hf : ∀ i, (q.calls i).finished = true) (t : Target) :
    updates id t q = (q.store.announcements id t).length := by
  have hz : ∀ i, (q.calls i).owes t = 0 := fun i => by
    have := hf i
    cases hc : q.calls i <;> simp [hc, StatusCall.finished, StatusCall.owes] at this ⊢
  simp [updates, hz]

theorem Orderly.length_le_one (hq : Orderly id q) (t : Target) :
    (q.store.announcements id t).length ≤ 1 := by
  have hle := length_le_updates id t q
  have hu : updates id t q ≤ 1 := by
    obtain ⟨s, hs⟩ := Option.ne_none_iff_exists'.mp hq.row
    cases s with
    | pending => simp [hq.pending hs]
    | confirmed =>
      have := hq.confirmed hs
      cases t <;> omega
    | cancelled =>
      have := hq.cancelled hs
      cases t <;> omega
    | failed => exact absurd hs hq.not_failed
  omega

theorem orderly_reading {w : World} {r : ι → StatusChange} (hs : w.status id = some .pending)
    (hn : ∀ t, w.announcements id t = []) (hid : ∀ i, (r i).orderId = id) :
    Orderly id ⟨w, fun i => .reading (r i)⟩ := by
  have hu : ∀ t, updates id t ⟨w, fun i => .reading (r i)⟩ = 0 := fun t => by
    simp [updates, hn, StatusCall.owes]
  refine ⟨⟨by simp [hs], fun i r' h => ?_⟩, ?_, fun _ => hu, ?_, ?_⟩
  · cases h
    exact hid i
  all_goals simp [hs]

variable [DecidableEq ι] {a : ι × Clock}

theorem act_cases (hq : OnOrder id q) (h : q.act statusStepOk a = some q') :
    OnOrder id q' ∧
    ((q.calls a.1).Finds q.store ∧ q'.store.status id = q.store.status id ∧
        (∀ t, updates id t q' = updates id t q) ∨
      ∃ r order, q.calls a.1 = .updating r order ∧
        q'.store.status id = some r.target.status ∧
        ∀ t, updates id t q' = updates id t q + if r.target = t then 1 else 0) := by
  obtain ⟨w', c', hM, rfl⟩ := Pool.act_eq_some.mp h
  have he := statusStep_effect hM
  have hon := hq.on a.1
  have hsum : ∀ t, updates id t ⟨w', Function.update q.calls a.1 c'⟩ =
      (w'.announcements id t).length +
        (∑ i, (q.calls i).owes t - (q.calls a.1).owes t + c'.owes t) := fun t => by
    simp only [updates, sum_update (StatusCall.owes t)]
  generalize q.calls a.1 = c at he hon hsum ⊢
  have hkept : (∀ r, c'.request = some r → c.request = some r) →
      ∀ i r, (Function.update q.calls a.1 c' i).request = some r → r.orderId = id := fun hr =>
    forall_update (P := fun c : StatusCall => ∀ r, c.request = some r → r.orderId = id)
      (fun r h => hon r (hr r h)) hq.on
  have hquiet : ∀ t, w' = q.store → c'.owes t = c.owes t →
      updates id t ⟨w', Function.update q.calls a.1 c'⟩ = updates id t q := by
    intro t hw ho
    rw [hsum, hw, ho, sub_add_cancel]
    rfl
  cases he with
  | fail c hx => cases hx
  | refuse r e | skip r =>
    exact ⟨⟨hq.row, hkept (by simp [StatusCall.request])⟩,
      Or.inl ⟨trivial, rfl, fun t => hquiet t rfl rfl⟩⟩
  | read r order hr =>
    exact ⟨⟨hq.row, hkept fun _ h => h⟩, Or.inl ⟨trivial, rfl, fun t => hquiet t rfl rfl⟩⟩
  | update r order =>
    obtain rfl : r.orderId = id := hon r rfl
    have hs := status_updateStatus_self (s := r.target.status) hq.row
    refine ⟨⟨by simp [hs], hkept fun _ h => h⟩, Or.inr ⟨r, order, rfl, hs, fun t => ?_⟩⟩
    rw [hsum]
    simp only [announcements_updateStatus, updates, StatusCall.owes, sub_zero]
    ring
  | vanish r order e hnone =>
    obtain rfl : r.orderId = id := hon r rfl
    exact absurd (by simp [World.status, hnone]) hq.row
  | reread r order answer =>
    exact ⟨⟨hq.row, hkept fun _ h => h⟩, Or.inl ⟨trivial, rfl, fun t => hquiet t rfl rfl⟩⟩
  | insert r order answer =>
    obtain rfl : r.orderId = id := hon r rfl
    refine ⟨⟨hq.row, hkept (by simp [StatusCall.request])⟩, Or.inl ⟨trivial, rfl, fun t => ?_⟩⟩
    rw [hsum, announcements_append]
    simp only [updates, StatusCall.owes, StatusChange.entry, createEntry, true_and,
      Target.eventType_injective.eq_iff]
    split
    · simp only [List.length_append, List.length_singleton]
      push_cast
      ring
    · simp

theorem Orderly.act (hq : Orderly id q) (hC : (q.calls a.1).Finds q.store)
    (h : q.act statusStepOk a = some q') : Orderly id q' := by
  obtain ⟨hon, ⟨-, hs, hu⟩ | ⟨r, order, hc, hs, hu⟩⟩ := act_cases hq.toOnOrder h
  · refine ⟨hon, ?_, ?_, ?_, ?_⟩ <;> simp only [hs, hu]
    · exact hq.not_failed
    · exact hq.pending
    · exact hq.confirmed
    · exact hq.cancelled
  · have hid : r.orderId = id := hq.on a.1 r (by rw [hc]; rfl)
    rw [hc] at hC
    simp only [StatusCall.Finds, hid] at hC
    cases ht : r.target with
    | confirmed =>
      simp only [ht] at hC
      have hp := hq.pending hC
      constructor <;> simp [hs, hu, ht, Target.status, hp, hon]
    | cancelled =>
      simp only [ht] at hC
      obtain ⟨s, hst⟩ := Option.ne_none_iff_exists'.mp hq.row
      have hbound : updates id .confirmed q ≤ 1 ∧ updates id .cancelled q = 0 := by
        cases s with
        | pending => simp [hq.pending hst]
        | confirmed => exact ⟨(hq.confirmed hst).1.le, (hq.confirmed hst).2⟩
        | cancelled => exact absurd hst hC
        | failed => exact absurd hst hq.not_failed
      constructor <;> simp [hs, hu, ht, Target.status, hbound, hon]

theorem Orderly.repeated (hq : Orderly id q)
    (hM : ∀ q', q.act statusStepOk a = some q' → Move (q.store.status id) (q'.store.status id))
    (hC : ¬ (q.calls a.1).Finds q.store) (h : q.act statusStepOk a = some q') :
    Repeated id q' := by
  have hmove := hM q' h
  obtain ⟨hon, ⟨hf, -⟩ | ⟨r, order, hc, hs, hu⟩⟩ := act_cases hq.toOnOrder h
  · exact absurd hf hC
  · refine ⟨hon, r.target, ?_⟩
    have hid : r.orderId = id := hq.on a.1 r (by rw [hc]; rfl)
    rw [hc] at hC
    simp only [StatusCall.Finds, hid] at hC
    rw [hs] at hmove
    rw [hu, if_pos rfl]
    cases ht : r.target with
    | confirmed =>
      simp only [ht, Target.status] at hC hmove
      generalize hst : q.store.status id = st at hC hmove
      cases hmove with
      | stay =>
        have := (hq.confirmed hst).1
        omega
      | confirm => exact absurd rfl hC
    | cancelled =>
      simp only [ht, not_not] at hC
      have := (hq.cancelled hC).2
      omega

theorem Repeated.act (hq : Repeated id q) (h : q.act statusStepOk a = some q') :
    Repeated id q' := by
  obtain ⟨t, ht⟩ := hq.twice
  obtain ⟨hon, ⟨-, -, hu⟩ | ⟨r, order, -, -, hu⟩⟩ := act_cases hq.toOnOrder h
  · exact ⟨hon, t, by rwa [hu]⟩
  · refine ⟨hon, t, ?_⟩
    rw [hu]
    split <;> omega

theorem Orderly.move (hq : Orderly id q) (hC : (q.calls a.1).Finds q.store)
    (h : q.act statusStepOk a = some q') : Move (q.store.status id) (q'.store.status id) := by
  obtain ⟨hon, ⟨-, hs, -⟩ | ⟨r, order, hc, hs, -⟩⟩ := act_cases hq.toOnOrder h
  · rw [hs]
    exact .stay _
  · have hid : r.orderId = id := hq.on a.1 r (by rw [hc]; rfl)
    rw [hc] at hC
    simp only [StatusCall.Finds, hid] at hC
    rw [hs]
    cases ht : r.target with
    | confirmed =>
      simp only [ht] at hC
      rw [hC]
      exact .confirm
    | cancelled =>
      simp only [ht] at hC
      obtain ⟨s, hst⟩ := Option.ne_none_iff_exists'.mp hq.row
      rw [hst]
      cases s with
      | pending => exact .cancelPending
      | confirmed => exact .cancelConfirmed
      | cancelled => exact absurd hst hC
      | failed => exact absurd hst hq.not_failed

variable (id)

/-- Every step of the run moves the status forward or leaves it. -/
def MovesForward (start : Pool World StatusCall ι) (as : List (ι × Clock)) : Prop :=
  AllSteps (Pool.act statusStepOk)
    (fun q a => ∀ q', q.act statusStepOk a = some q' →
      Move (q.store.status id) (q'.store.status id)) start as

/-- No status of the order is ever announced twice. -/
def AnnouncedOnce (start : Pool World StatusCall ι) (as : List (ι × Clock)) : Prop :=
  Always (Pool.act statusStepOk)
    (fun q => ∀ t, (q.store.announcements id t).length ≤ 1) start as

end Pool

/--
Any number of requests for a pending order, interleaved in any order, move its status
forward only and announce each status at most once when every update finds a status it may
still change; once all of them have run to their end, only then.
-/
theorem forward_iff {ι : Type} [Fintype ι] [DecidableEq ι] (id : Uuid) (w : World)
    (r : ι → StatusChange) (as : List (ι × Clock)) (hs : w.status id = some .pending)
    (hn : ∀ t, w.announcements id t = []) (hid : ∀ i, (r i).orderId = id) :
    (AllSteps (Pool.act statusStepOk) (fun q a => (q.calls a.1).Finds q.store)
        ⟨w, fun i => .reading (r i)⟩ as →
      MovesForward id ⟨w, fun i => .reading (r i)⟩ as ∧
        AnnouncedOnce id ⟨w, fun i => .reading (r i)⟩ as) ∧
    ∀ q, exec (Pool.act statusStepOk) ⟨w, fun i => .reading (r i)⟩ as = some q →
      (∀ i, (q.calls i).finished = true) →
      (MovesForward id ⟨w, fun i => .reading (r i)⟩ as ∧
          AnnouncedOnce id ⟨w, fun i => .reading (r i)⟩ as ↔
        AllSteps (Pool.act statusStepOk) (fun q a => (q.calls a.1).Finds q.store)
          ⟨w, fun i => .reading (r i)⟩ as) := by
  have h₀ := orderly_reading hs hn hid
  have himp : AllSteps (Pool.act statusStepOk) (fun q a => (q.calls a.1).Finds q.store)
        ⟨w, fun i => .reading (r i)⟩ as →
      MovesForward id ⟨w, fun i => .reading (r i)⟩ as ∧
        AnnouncedOnce id ⟨w, fun i => .reading (r i)⟩ as := by
    intro hA
    constructor
    · exact hA.of_invariant (fun _ _ _ hq hC h => hq.act hC h)
        (fun _ _ hq hC _ h => hq.move hC h) h₀
    · exact always_of_allSteps (fun _ _ _ hq hC h => hq.act hC h)
        (fun _ hq => hq.length_le_one) h₀ hA
  refine ⟨himp, fun q hrun hfin => ⟨?_, himp⟩⟩
  rintro ⟨hmoves, honce⟩
  rcases exec_dichotomy (fun _ _ _ hq hC h => hq.act hC h)
    (fun _ _ _ hq hM hC h => hq.repeated hM hC h) (fun _ _ _ hq h => hq.act h) h₀ hmoves hrun
    with ⟨hA, -⟩ | ⟨-, hB⟩
  · exact hA
  · obtain ⟨t, ht⟩ := hB.twice
    have hle := honce as List.prefix_rfl q hrun t
    rw [updates_of_finished hfin] at ht
    omega

def cancelAndReserve (i : Bool) : StatusChange :=
  if i then cancelOrder 0 ⟨"user-1", none⟩ none else handleInventoryReserved 0 none

def scheduled (is : List Bool) : List (Bool × Clock) := is.map fun i => (i, ⟨0, ""⟩)

/-- Both requests read the pending order; the cancelled order is confirmed afterwards. -/
theorem confirmed_after_cancelled :
    ∃ q ∈ exec (Pool.act statusStepOk) ⟨sampleWorld, fun i => .reading (cancelAndReserve i)⟩
        (scheduled [true, false, true, false, true, true, false, false]),
      (∀ i, (q.calls i).finished = true) ∧ q.store.status 0 = some .confirmed ∧
      ¬ (MovesForward 0 ⟨sampleWorld, fun i => .reading (cancelAndReserve i)⟩
            (scheduled [true, false, true, false, true, true, false, false]) ∧
          AnnouncedOnce 0 ⟨sampleWorld, fun i => .reading (cancelAndReserve i)⟩
            (scheduled [true, false, true, false, true, true, false, false])) := by
  obtain ⟨q, hq, hf, hs⟩ : ∃ q ∈ exec (Pool.act statusStepOk)
      ⟨sampleWorld, fun i => .reading (cancelAndReserve i)⟩
      (scheduled [true, false, true, false, true, true, false, false]),
      (∀ i, (q.calls i).finished = true) ∧ q.store.status 0 = some .confirmed := by
    decide +kernel
  refine ⟨q, hq, hf, hs, ?_⟩
  rintro ⟨hm, -⟩
  have hmove : Move (some .cancelled) (some .confirmed) :=
    (((hm.2 _ rfl).2 _ rfl).2 _ rfl).1 _ rfl
  cases hmove

theorem cancelled_before_reserved :
    ∃ q ∈ exec (Pool.act statusStepOk) ⟨sampleWorld, fun i => .reading (cancelAndReserve i)⟩
        (scheduled [true, true, true, true, false]),
      (MovesForward 0 ⟨sampleWorld, fun i => .reading (cancelAndReserve i)⟩
            (scheduled [true, true, true, true, false]) ∧
          AnnouncedOnce 0 ⟨sampleWorld, fun i => .reading (cancelAndReserve i)⟩
            (scheduled [true, true, true, true, false]) ↔
        AllSteps (Pool.act statusStepOk) (fun q a => (q.calls a.1).Finds q.store)
          ⟨sampleWorld, fun i => .reading (cancelAndReserve i)⟩
          (scheduled [true, true, true, true, false])) := by
  obtain ⟨q, hq, hf⟩ : ∃ q ∈ exec (Pool.act statusStepOk)
      ⟨sampleWorld, fun i => .reading (cancelAndReserve i)⟩
      (scheduled [true, true, true, true, false]), ∀ i, (q.calls i).finished = true := by
    decide +kernel
  exact ⟨q, hq, (forward_iff 0 sampleWorld cancelAndReserve _ rfl (fun _ => rfl)
    fun i => by cases i <;> rfl).2 q hq hf⟩

end OrderService
