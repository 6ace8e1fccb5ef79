import OrderPlatform.NotificationService.Entities
import OrderPlatform.Runs.Pool

/-! # Dispatching delivery records

`createAndDispatch` dispatches a new record in the background, the retry run dispatches
the records that are still PENDING after five minutes. Both write their copy of the record
back when the provider has answered, and neither sees the other.
-/

namespace NotificationService

open Runs Store Wire

structure DispatchAnswer where
  now : ℕ
  rank : NotificationDelivery → ℕ
  /-- What the provider answers; an exception comes with its message. -/
  result : Except String DispatchResult
  fails : Bool

def succeeded (result : Except String DispatchResult) : Bool :=
  match result with
  | .ok r => r.success
  | .error _ => false

/-- The record as `dispatchOne` leaves it before it saves it. -/
def NotificationDelivery.answered (record : NotificationDelivery)
    (result : Except String DispatchResult) (now : ℕ) : NotificationDelivery :=
  match result with
  | .ok r =>
    if r.success then
      { record with
        status := .sent
        providerToken := r.providerToken
        sentAt := some now }
    else
      { record with
        status := .failed
        errorMessage := some (r.errorMessage.getD "Dispatch failed") }
  | .error message =>
    { record with
      status := .failed
      errorMessage := some message }

/-- The stale records of a retry run: PENDING, among the 50 oldest, older than five minutes. -/
def World.stale (w : World) (now : ℕ) (rank : NotificationDelivery → ℕ) :
    List NotificationDelivery :=
  (oldest NotificationDelivery.createdAt rank 50
    (w.deliveries.filter fun d => d.status = .pending)).filter
    fun d => d.createdAt + 5 * 60 * 1000 < now

inductive DispatchCall
  | creating (dto : CreateNotificationDto) (info : EventMeta)
  | retrying
  | dispatching (records : List NotificationDelivery)
  | saving (record : NotificationDelivery) (rest : List NotificationDelivery)
  | finished
  deriving DecidableEq

/--
One step of `createAndDispatch` or `retryPendingDeliveries`. An insert, a fetch or a save
that fails ends the call.
-/
def dispatchStep : Machine World DispatchCall DispatchAnswer
  | w, .creating dto info, x =>
    if x.fails then some (w, .finished)
    else some (w.create dto info x.now, .dispatching [w.record dto info x.now])
  | w, .retrying, x =>
    if x.fails then some (w, .finished)
    else some (w, .dispatching (w.stale x.now x.rank))
  | w, .dispatching (record :: rest), x =>
    some ({ w with
      dispatches := w.dispatches ++ [⟨record.id, record.recipient, succeeded x.result⟩] },
      .saving (record.answered x.result x.now) rest)
  | w, .dispatching [], _ => some (w, .finished)
  | w, .saving record rest, x =>
    if x.fails then some (w, .finished) else some (w.save record, .dispatching rest)
  | _, .finished, _ => none

/-- What starts a call: a notification to create, or the minute of a retry run. -/
inductive Request
  | create (dto : CreateNotificationDto) (info : EventMeta)
  | retry

def Request.call : Request → DispatchCall
  | .create dto info => .creating dto info
  | .retry => .retrying

/-- How often the provider has sent the record. -/
def World.successes (w : World) (id : Uuid) : ℕ :=
  (w.dispatches.filter fun d => d.recordId = id ∧ d.success).length

def SentOnce (w : World) : Prop := ∀ id, w.successes id ≤ 1

/-- A record stored as SENT is still stored as SENT. -/
def SentKept (w w' : World) : Prop :=
  ∀ d ∈ w.deliveries, d.status = .sent → ∃ e ∈ w'.deliveries, e.id = d.id ∧ e.status = .sent

def DispatchCall.held : DispatchCall → List NotificationDelivery
  | .dispatching records => records
  | .saving record rest => record :: rest
  | _ => []

variable {ι : Type}

/--
A retry run picks up no record that another call is still to dispatch or to save, and a
save after a successful dispatch does not fail.
-/
def Exclusive (q : Pool World DispatchCall ι) (a : ι × DispatchAnswer) : Prop :=
  match q.calls a.1 with
  | .retrying => a.2.fails = false → ∀ d ∈ q.store.stale a.2.now a.2.rank, ∀ i,
      d.id ∉ (q.calls i).held.map NotificationDelivery.id
  | .saving record _ => record.status = .sent → a.2.fails = false
  | _ => True

instance [Fintype ι] (q : Pool World DispatchCall ι) (a : ι × DispatchAnswer) :
    Decidable (Exclusive q a) := by
  unfold Exclusive
  split <;> infer_instance

/-- A record that a call is still to dispatch: PENDING, and not sent so far. -/
def Queued (w : World) (id : Uuid) : Prop :=
  w.successes id = 0 ∧ ∃ d ∈ w.deliveries, d.id = id ∧ d.status = .pending

/-- A record whose answer is still to be saved: PENDING, and sent if the answer says so. -/
def Answered (w : World) (record : NotificationDelivery) : Prop :=
  w.successes record.id = (if record.status = .sent then 1 else 0) ∧ record.status ≠ .pending ∧
    ∃ d ∈ w.deliveries, d.id = record.id ∧ d.status = .pending

/-- What a call holds is right for its program point. -/
def DispatchCall.Right (w : World) : DispatchCall → Prop
  | .dispatching records => ∀ d ∈ records, Queued w d.id
  | .saving record rest => Answered w record ∧ ∀ d ∈ rest, Queued w d.id
  | _ => True

def DispatchCall.ids (c : DispatchCall) : List Uuid := c.held.map NotificationDelivery.id

/-- Records held by a call are right, and held once; a PENDING record held by none is unsent. -/
structure Dispatching (q : Pool World DispatchCall ι) : Prop where
  distinct : (q.store.deliveries.map NotificationDelivery.id).Nodup
  drawn : ∀ d ∈ q.store.deliveries, d.id < q.store.fresh
  logged : ∀ d ∈ q.store.dispatches, d.recordId < q.store.fresh
  once : SentOnce q.store
  right : ∀ i, (q.calls i).Right q.store
  held : ∀ i, (q.calls i).ids.Nodup
  apart : ∀ i j, i ≠ j → ∀ id ∈ (q.calls i).ids, id ∉ (q.calls j).ids
  free : ∀ d ∈ q.store.deliveries, d.status = .pending → (∀ i, d.id ∉ (q.calls i).ids) →
    q.store.successes d.id = 0

section Stores

variable {w : World} {record d : NotificationDelivery} {id : Uuid}

theorem successes_dispatch (r : String) (b : Bool) :
    World.successes { w with dispatches := w.dispatches ++ [⟨record.id, r, b⟩] } id =
      w.successes id + if record.id = id ∧ b then 1 else 0 := by
  simp only [World.successes, List.filter_append, List.length_append, List.filter_singleton]
  by_cases hid : record.id = id <;> cases b <;> simp [hid]

theorem successes_drawn (h : ∀ d ∈ w.dispatches, d.recordId < w.fresh) :
    w.successes w.fresh = 0 := by
  rw [World.successes, List.length_eq_zero_iff, List.filter_eq_nil_iff]
  intro d hd
  simp [(h d hd).ne]

theorem mem_stale {now : ℕ} {rank : NotificationDelivery → ℕ} (h : d ∈ w.stale now rank) :
    d ∈ w.deliveries ∧ d.status = .pending := by
  have := List.mem_filter.mp (mem_of_mem_oldest (List.mem_filter.mp h).1)
  exact ⟨this.1, by simpa using this.2⟩

theorem stale_nodup (h : (w.deliveries.map NotificationDelivery.id).Nodup) (now : ℕ)
    (rank : NotificationDelivery → ℕ) :
    ((w.stale now rank).map NotificationDelivery.id).Nodup :=
  (nodup_map_oldest _ _ _ (h.sublist (List.filter_sublist.map _))).sublist
    (List.filter_sublist.map _)

/-- The rows of other records are left as they are. -/
theorem mem_save (h : d ∈ w.deliveries) (hne : d.id ≠ record.id) :
    d ∈ (w.save record).deliveries :=
  mem_update.mpr ⟨d, h, if_neg hne⟩

theorem save_cases (h : d ∈ (w.save record).deliveries) :
    d = record ∨ d ∈ w.deliveries ∧ d.id ≠ record.id := by
  obtain ⟨e, he, heq⟩ := mem_update.mp h
  by_cases hid : e.id = record.id
  · rw [if_pos hid] at heq
    exact Or.inl heq.symm
  · rw [if_neg hid] at heq
    subst heq
    exact Or.inr ⟨he, hid⟩

theorem Queued.save (h : Queued w id) (hne : id ≠ record.id) : Queued (w.save record) id := by
  obtain ⟨hs, d, hd, rfl, hp⟩ := h
  exact ⟨hs, d, mem_save hd hne, rfl, hp⟩

theorem Answered.save (h : Answered w d) (hne : d.id ≠ record.id) :
    Answered (w.save record) d := by
  obtain ⟨hs, hne', e, he, hid, hp⟩ := h
  exact ⟨hs, hne', e, mem_save he (hid ▸ hne), hid, hp⟩

theorem Queued.dispatch (h : Queued w id) (hne : record.id ≠ id) (r : String) (b : Bool) :
    Queued { w with dispatches := w.dispatches ++ [⟨record.id, r, b⟩] } id := by
  refine ⟨?_, h.2⟩
  rw [successes_dispatch, h.1]
  simp [hne]

theorem Answered.dispatch (h : Answered w d) (hne : record.id ≠ d.id) (r : String) (b : Bool) :
    Answered { w with dispatches := w.dispatches ++ [⟨record.id, r, b⟩] } d := by
  refine ⟨?_, h.2⟩
  rw [successes_dispatch, h.1]
  simp [hne]

theorem Queued.create (h : Queued w id) (dto : CreateNotificationDto) (info : EventMeta)
    (now : ℕ) : Queued (w.create dto info now) id := by
  obtain ⟨hs, d, hd, hid, hp⟩ := h
  exact ⟨hs, d, List.mem_append_left _ hd, hid, hp⟩

theorem answered_facts (record : NotificationDelivery) (result : Except String DispatchResult)
    (now : ℕ) : (record.answered result now).id = record.id ∧
      (record.answered result now).status ≠ .pending ∧
      ((record.answered result now).status = .sent ↔ succeeded result = true) := by
  unfold NotificationDelivery.answered succeeded
  cases result with
  | error m => simp
  | ok r => cases hs : r.success <;> simp [hs]

end Stores

/-- What a step does: it ends the call, or takes it to the next point. -/
inductive DispatchEffect (w : World) : DispatchCall → DispatchAnswer → World → DispatchCall → Prop
  | refused {c : DispatchCall} {x : DispatchAnswer} :
      x.fails = true → c.held = [] → DispatchEffect w c x w .finished
  | ended {x : DispatchAnswer} : DispatchEffect w (.dispatching []) x w .finished
  | created {dto : CreateNotificationDto} {info : EventMeta} {x : DispatchAnswer} :
      x.fails = false → DispatchEffect w (.creating dto info) x (w.create dto info x.now)
        (.dispatching [w.record dto info x.now])
  | fetched {x : DispatchAnswer} :
      x.fails = false → DispatchEffect w .retrying x w (.dispatching (w.stale x.now x.rank))
  | dispatched {r : NotificationDelivery} {rest : List NotificationDelivery} {x : DispatchAnswer} :
      DispatchEffect w (.dispatching (r :: rest)) x
        { w with dispatches := w.dispatches ++ [⟨r.id, r.recipient, succeeded x.result⟩] }
        (.saving (r.answered x.result x.now) rest)
  | unsaved {r : NotificationDelivery} {rest : List NotificationDelivery} {x : DispatchAnswer} :
      x.fails = true → DispatchEffect w (.saving r rest) x w .finished
  | saved {r : NotificationDelivery} {rest : List NotificationDelivery} {x : DispatchAnswer} :
      x.fails = false → DispatchEffect w (.saving r rest) x (w.save r) (.dispatching rest)

theorem dispatchStep_effect {w w' : World} {c c' : DispatchCall} {x : DispatchAnswer}
    (h : dispatchStep w c x = some (w', c')) : DispatchEffect w c x w' c' := by
  cases c with
  | creating dto info =>
    simp only [dispatchStep] at h
    split at h <;> cases h
    · rename_i hf
      exact .refused hf rfl
    · rename_i hf
      exact .created (by simpa using hf)
  | retrying =>
    simp only [dispatchStep] at h
    split at h <;> cases h
    · rename_i hf
      exact .refused hf rfl
    · rename_i hf
      exact .fetched (by simpa using hf)
  | dispatching records =>
    cases records with
    | nil =>
      cases h
      exact .ended
    | cons r rest =>
      cases h
      exact .dispatched
  | saving r rest =>
    simp only [dispatchStep] at h
    split at h <;> cases h
    · rename_i hf
      exact .unsaved hf
    · rename_i hf
      exact .saved (by simpa using hf)
  | finished => cases h

variable {q q' : Pool World DispatchCall ι} {i : ι}

theorem DispatchCall.Right.known {c : DispatchCall} {w : World} (h : c.Right w) {id : Uuid}
    (hid : id ∈ c.ids) : ∃ d ∈ w.deliveries, d.id = id ∧ d.status = .pending := by
  obtain ⟨r, hr, rfl⟩ := List.mem_map.mp hid
  cases c with
  | dispatching records => exact (h r hr).2
  | saving record rest =>
    rcases List.mem_cons.mp hr with rfl | hr
    · exact h.1.2.2
    · exact (h.2 r hr).2
  | creating | retrying | finished => cases hr

/-- A call stays right when the records it holds keep their rows and their successes. -/
theorem DispatchCall.Right.mono {c : DispatchCall} {w w' : World} (h : c.Right w)
    (hq : ∀ id ∈ c.ids, Queued w id → Queued w' id)
    (ha : ∀ d ∈ c.held, Answered w d → Answered w' d) : c.Right w' := by
  cases c with
  | dispatching records => exact fun d hd => hq d.id (List.mem_map_of_mem hd) (h d hd)
  | saving record rest =>
    refine ⟨ha record List.mem_cons_self h.1, fun d hd => ?_⟩
    exact hq d.id (List.mem_map_of_mem (List.mem_cons_of_mem _ hd)) (h.2 d hd)
  | creating | retrying | finished => trivial

/-- The save of an answer finds its record PENDING, so it overwrites no SENT record. -/
theorem sentKept_save (hq : Dispatching q) {r : NotificationDelivery}
    {rest : List NotificationDelivery} (hi : q.calls i = .saving r rest) :
    SentKept q.store (q.store.save r) := by
  intro d hd hs
  have hr : r.id ∈ (q.calls i).ids := by simp [hi, DispatchCall.ids, DispatchCall.held]
  obtain ⟨e, he, hid, hp⟩ := (hq.right i).known hr
  refine ⟨d, mem_save hd fun hdr => ?_, rfl, hs⟩
  obtain rfl : d = e := List.inj_on_of_nodup_map hq.distinct hd he (hdr.trans hid.symm)
  rw [hs] at hp
  cases hp

theorem SentKept.refl (w : World) : SentKept w w := fun d hd hs => ⟨d, hd, rfl, hs⟩

def dispatchStart (requests : ι → Request) : Pool World DispatchCall ι :=
  ⟨World.empty, fun i => (requests i).call⟩

theorem dispatching_start (requests : ι → Request) : Dispatching (dispatchStart requests) := by
  have hids : ∀ i, (requests i).call.ids = [] := by
    intro i
    cases requests i <;> rfl
  have hright : ∀ i, (requests i).call.Right World.empty := by
    intro i
    cases requests i <;> trivial
  constructor <;> simp [dispatchStart, World.empty, SentOnce, World.successes, hids]
  exact hright

variable [DecidableEq ι]

theorem ids_apart {c : DispatchCall} (hq : Dispatching q)
    (h : ∀ id ∈ c.ids, ∀ j, j ≠ i → id ∉ (q.calls j).ids) :
    ∀ j l, j ≠ l → ∀ id ∈ (Function.update q.calls i c j).ids,
      id ∉ (Function.update q.calls i c l).ids :=
  apart_update (D := fun c d : DispatchCall => ∀ id ∈ c.ids, id ∉ d.ids) hq.apart
    fun j hj => ⟨fun id hid => h id hid j hj, fun id hid hid' => h id hid' j hj hid⟩

/-- The identifiers a call goes on to hold stay apart from the others'. -/
theorem ids_apart_of_subset {c : DispatchCall} (hq : Dispatching q)
    (h : ∀ id ∈ c.ids, id ∈ (q.calls i).ids) :
    ∀ j l, j ≠ l → ∀ id ∈ (Function.update q.calls i c j).ids,
      id ∉ (Function.update q.calls i c l).ids :=
  ids_apart hq fun id hid j hj => hq.apart i j (Ne.symm hj) id (h id hid)

/-- A record held by no call was held by none before, or let go of by the step. -/
theorem free_update {c : DispatchCall} {id : Uuid}
    (h : ∀ j, id ∉ (Function.update q.calls i c j).ids) :
    id ∉ c.ids ∧ ∀ j, j ≠ i → id ∉ (q.calls j).ids := by
  constructor
  · simpa using h i
  · intro j hj
    simpa [hj] using h j

theorem Dispatching.release (hq : Dispatching q)
    (h : ∀ d ∈ (q.calls i).held, q.store.successes d.id = 0) :
    Dispatching ⟨q.store, Function.update q.calls i .finished⟩ := by
  refine { hq with
    right := forall_update (P := fun c : DispatchCall => c.Right q.store) trivial hq.right
    held := forall_update (P := fun c : DispatchCall => c.ids.Nodup) List.nodup_nil hq.held
    apart := ids_apart hq (by simp [DispatchCall.ids, DispatchCall.held])
    free := ?_ }
  intro d hd hp hfree
  obtain ⟨-, hother⟩ := free_update hfree
  by_cases hi : d.id ∈ (q.calls i).ids
  · obtain ⟨r, hr, hid⟩ := List.mem_map.mp hi
    exact hid ▸ h r hr
  · apply hq.free d hd hp
    intro j
    by_cases hj : j = i
    · exact hj ▸ hi
    · exact hother j hj

theorem Dispatching.create (hq : Dispatching q) {dto : CreateNotificationDto} {info : EventMeta}
    {now : ℕ} (hi : q.calls i = .creating dto info) :
    Dispatching ⟨q.store.create dto info now,
      Function.update q.calls i (.dispatching [q.store.record dto info now])⟩ := by
  have hlt : ∀ j, ∀ id ∈ (q.calls j).ids, id < q.store.fresh := by
    intro j id hid
    obtain ⟨d, hd, rfl, -⟩ := (hq.right j).known hid
    exact hq.drawn d hd
  have hzero := successes_drawn hq.logged
  constructor
  · exact nodup_map_concat hq.distinct fun d hd => (hq.drawn d hd).ne
  · exact forall_mem_concat (fun d hd => Nat.lt_succ_of_lt (hq.drawn d hd)) (Nat.lt_succ_self _)
  · exact fun d hd => Nat.lt_succ_of_lt (hq.logged d hd)
  · exact hq.once
  · apply forall_update
    · intro d hd
      obtain rfl := List.mem_singleton.mp hd
      exact ⟨hzero, _, List.mem_append_right _ List.mem_cons_self, rfl, rfl⟩
    · intro j
      refine (hq.right j).mono (fun id _ h => h.create dto info now) fun d _ h => ?_
      obtain ⟨hs, hne, e, he, hid, hp⟩ := h
      exact ⟨hs, hne, e, List.mem_append_left _ he, hid, hp⟩
  · exact forall_update (P := fun c : DispatchCall => c.ids.Nodup) (List.nodup_singleton _) hq.held
  · apply ids_apart hq
    intro id hid j _ hj
    obtain rfl : id = q.store.fresh := by simpa [DispatchCall.ids, DispatchCall.held,
      World.record] using hid
    exact (hlt j _ hj).false
  · intro d hd hp hfree
    obtain ⟨hnew, hother⟩ := free_update hfree
    rcases List.mem_append.mp hd with hd | hd
    · apply hq.free d hd hp
      intro j
      by_cases hj : j = i
      · subst hj
        simp [hi, DispatchCall.ids, DispatchCall.held]
      · exact hother j hj
    · obtain rfl := List.mem_singleton.mp hd
      exact absurd (by simp [DispatchCall.ids, DispatchCall.held]) hnew

theorem Dispatching.fetch (hq : Dispatching q) {now : ℕ} {rank : NotificationDelivery → ℕ}
    (hC : ∀ d ∈ q.store.stale now rank, ∀ j, d.id ∉ (q.calls j).ids)
    (hi : q.calls i = .retrying) :
    Dispatching ⟨q.store, Function.update q.calls i (.dispatching (q.store.stale now rank))⟩ := by
  refine { hq with
    right := forall_update (P := fun c : DispatchCall => c.Right q.store) ?_ hq.right
    held := forall_update (P := fun c : DispatchCall => c.ids.Nodup)
      (stale_nodup hq.distinct _ _) hq.held
    apart := ids_apart hq ?_
    free := ?_ }
  · intro d hd
    obtain ⟨hmem, hp⟩ := mem_stale hd
    exact ⟨hq.free d hmem hp (hC d hd), d, hmem, rfl, hp⟩
  · intro id hid j _
    obtain ⟨d, hd, rfl⟩ := List.mem_map.mp hid
    exact hC d hd j
  · intro d hd hp hfree
    obtain ⟨-, hother⟩ := free_update hfree
    apply hq.free d hd hp
    intro j
    by_cases hj : j = i
    · subst hj
      simp [hi, DispatchCall.ids, DispatchCall.held]
    · exact hother j hj

theorem Dispatching.dispatch (hq : Dispatching q) {r : NotificationDelivery}
    {rest : List NotificationDelivery} {result : Except String DispatchResult} {now : ℕ}
    (hi : q.calls i = .dispatching (r :: rest)) :
    Dispatching ⟨{ q.store with
        dispatches := q.store.dispatches ++ [⟨r.id, r.recipient, succeeded result⟩] },
      Function.update q.calls i (.saving (r.answered result now) rest)⟩ := by
  obtain ⟨hid, hstatus, hsent⟩ := answered_facts r result now
  have hids : (DispatchCall.saving (r.answered result now) rest).ids = (q.calls i).ids := by
    simp [hi, DispatchCall.ids, DispatchCall.held, hid]
  have hmine : r.id ∈ (q.calls i).ids := by simp [hi, DispatchCall.ids, DispatchCall.held]
  have hright := hq.right i
  rw [hi] at hright
  obtain ⟨hzero, hrow⟩ := hright r List.mem_cons_self
  have hnodup := hq.held i
  simp only [hi, DispatchCall.ids, DispatchCall.held, List.map_cons, List.nodup_cons] at hnodup
  constructor
  · exact hq.distinct
  · exact hq.drawn
  · refine forall_mem_concat hq.logged ?_
    obtain ⟨d, hd, hdid, -⟩ := hrow
    exact hdid ▸ hq.drawn d hd
  · intro id
    rw [successes_dispatch]
    by_cases h : r.id = id
    · rw [← h, hzero]
      split <;> omega
    · simpa [h] using hq.once id
  · refine (Function.forall_update_iff q.calls fun _ c => c.Right _).mpr
      ⟨⟨⟨?_, hstatus, hid ▸ hrow⟩, fun d hd => ?_⟩, fun j hj => ?_⟩
    · rw [successes_dispatch, hid, hzero]
      simp [hsent]
    · exact (hright d (List.mem_cons_of_mem _ hd)).dispatch
        (fun h => hnodup.1 (h ▸ List.mem_map_of_mem hd)) _ _
    · have hne : ∀ id ∈ (q.calls j).ids, r.id ≠ id := by
        rintro id hid' rfl
        exact hq.apart j i hj _ hid' hmine
      exact (hq.right j).mono (fun id hid' h => h.dispatch (hne id hid') _ _)
        fun d hd h => h.dispatch (hne d.id (List.mem_map_of_mem hd)) _ _
  · exact forall_update (P := fun c : DispatchCall => c.ids.Nodup) (hids ▸ hq.held i) hq.held
  · exact ids_apart_of_subset hq fun id h => hids ▸ h
  · intro d hd hp hfree
    obtain ⟨hnew, hother⟩ := free_update hfree
    rw [hids] at hnew
    have hne : r.id ≠ d.id := fun h => hnew (h ▸ hmine)
    rw [successes_dispatch]
    simp only [hne, false_and, if_false, Nat.add_zero]
    apply hq.free d hd hp
    intro j
    by_cases hj : j = i
    · exact hj ▸ hnew
    · exact hother j hj

theorem Dispatching.save (hq : Dispatching q) {r : NotificationDelivery}
    {rest : List NotificationDelivery} (hi : q.calls i = .saving r rest) :
    Dispatching ⟨q.store.save r, Function.update q.calls i (.dispatching rest)⟩ := by
  have hmine : r.id ∈ (q.calls i).ids := by simp [hi, DispatchCall.ids, DispatchCall.held]
  have hsub : ∀ id ∈ (DispatchCall.dispatching rest).ids, id ∈ (q.calls i).ids := by
    intro id hid
    rw [hi]
    exact List.mem_cons_of_mem _ hid
  have hright := hq.right i
  rw [hi] at hright
  obtain ⟨⟨-, hstatus, -⟩, hrest⟩ := hright
  have hnodup := hq.held i
  simp only [hi, DispatchCall.ids, DispatchCall.held, List.map_cons, List.nodup_cons] at hnodup
  constructor
  · rw [ids_save]
    exact hq.distinct
  · exact id_lt_save hq.drawn
  · exact hq.logged
  · exact hq.once
  · refine (Function.forall_update_iff q.calls fun _ c => c.Right _).mpr ⟨fun d hd => ?_, ?_⟩
    · exact (hrest d hd).save fun h => hnodup.1 (h ▸ List.mem_map_of_mem hd)
    · intro j hj
      have hne : ∀ id ∈ (q.calls j).ids, id ≠ r.id := by
        rintro id hid rfl
        exact hq.apart j i hj _ hid hmine
      exact (hq.right j).mono (fun id hid h => h.save (hne id hid))
        fun d hd h => h.save (hne d.id (List.mem_map_of_mem hd))
  · exact forall_update (P := fun c : DispatchCall => c.ids.Nodup) hnodup.2 hq.held
  · exact ids_apart_of_subset hq hsub
  · intro d hd hp hfree
    obtain ⟨hnew, hother⟩ := free_update hfree
    rcases save_cases hd with rfl | ⟨hd, hne⟩
    · exact absurd hp hstatus
    · apply hq.free d hd hp
      intro j
      by_cases hj : j = i
      · subst hj
        rw [hi]
        exact List.not_mem_cons_of_ne_of_not_mem hne hnew
      · exact hother j hj

/-- One step under the condition keeps the invariant and every SENT record. -/
theorem Dispatching.act {a : ι × DispatchAnswer} (hq : Dispatching q) (hC : Exclusive q a)
    (h : q.act dispatchStep a = some q') : Dispatching q' ∧ SentKept q.store q'.store := by
  obtain ⟨w', c', hM, rfl⟩ := Pool.act_eq_some.mp h
  generalize hi : q.calls a.1 = c at hM
  cases dispatchStep_effect hM with
  | refused _ hheld => exact ⟨hq.release (by simp [hi, hheld]), .refl _⟩
  | ended => exact ⟨hq.release (by simp [hi, DispatchCall.held]), .refl _⟩
  | created _ => exact ⟨hq.create hi, fun d hd hs => ⟨d, List.mem_append_left _ hd, rfl, hs⟩⟩
  | fetched hf =>
    simp only [Exclusive, hi] at hC
    exact ⟨hq.fetch (hC hf) hi, .refl _⟩
  | dispatched => exact ⟨hq.dispatch hi, .refl _⟩
  | unsaved hf =>
    simp only [Exclusive, hi] at hC
    refine ⟨hq.release ?_, .refl _⟩
    have hright := hq.right a.1
    rw [hi] at hright ⊢
    intro d hd
    rcases List.mem_cons.mp hd with rfl | hd
    · rw [hright.1.1, if_neg fun hs => by simp [hC hs] at hf]
    · exact (hright.2 d hd).1
  | saved _ => exact ⟨hq.save hi, sentKept_save hq hi⟩

/-- The step keeps every record stored as SENT. -/
def KeepsSent (q : Pool World DispatchCall ι) (a : ι × DispatchAnswer) : Prop :=
  ∀ q' ∈ q.act dispatchStep a, SentKept q.store q'.store

instance (w w' : World) : Decidable (SentKept w w') :=
  inferInstanceAs (Decidable (∀ d ∈ w.deliveries, _ → ∃ e ∈ w'.deliveries, _))

instance (q : Pool World DispatchCall ι) (a : ι × DispatchAnswer) : Decidable (KeepsSent q a) :=
  inferInstanceAs (Decidable (∀ q' ∈ q.act dispatchStep a, _))

/--
In every run in which no retry run picks up a record that another call still holds, and no
save after a successful dispatch fails, every record is sent at most once, and a record
stored as SENT stays SENT.
-/
theorem dispatched_once (requests : ι → Request) (as : List (ι × DispatchAnswer))
    (hC : AllSteps (Pool.act dispatchStep) Exclusive (dispatchStart requests) as) :
    Always (Pool.act dispatchStep) (fun q => SentOnce q.store) (dispatchStart requests) as ∧
      AllSteps (Pool.act dispatchStep) KeepsSent (dispatchStart requests) as := by
  constructor
  · exact always_of_allSteps (I := Dispatching) (fun _ _ _ hq hC h => (hq.act hC h).1)
      (fun _ hq => hq.once) (dispatching_start requests) hC
  · exact AllSteps.of_invariant (I := Dispatching) (fun _ _ _ hq hC h => (hq.act hC h).1)
      (fun _ _ hq hC _ h => (hq.act hC h).2) (dispatching_start requests) hC

def answer (now : ℕ) (result : Except String DispatchResult) : DispatchAnswer :=
  ⟨now, fun _ => 0, result, false⟩

def delivered : Except String DispatchResult := .ok ⟨true, some "msg-1", none⟩

/-- A new notification, and the retry run of a later minute. -/
def createAndRetry (i : Bool) : Request :=
  if i then .create ⟨.email, "customer@example.com", "email", none, "Hello"⟩ ⟨none, none, none⟩
  else .retry

/-- The background dispatch takes more than five minutes, and the retry run picks it up. -/
def slowDispatch (second : Except String DispatchResult) : List (Bool × DispatchAnswer) :=
  [(true, answer 0 delivered), (false, answer 300001 delivered), (true, answer 300002 delivered),
    (true, answer 300003 delivered), (false, answer 300004 second), (false, answer 300005 second)]

theorem sent_twice_or_overwritten :
    (∃ q ∈ exec (Pool.act dispatchStep) (dispatchStart createAndRetry) (slowDispatch delivered),
      ¬ SentOnce q.store) ∧
    ¬ AllSteps (Pool.act dispatchStep) KeepsSent (dispatchStart createAndRetry)
      (slowDispatch (.error "connection refused")) := by
  constructor
  · obtain ⟨q, hq, h⟩ : ∃ q ∈ exec (Pool.act dispatchStep) (dispatchStart createAndRetry)
        (slowDispatch delivered), q.store.successes 0 = 2 := by decide +kernel
    refine ⟨q, hq, fun honce => ?_⟩
    have := honce 0
    omega
  · decide +kernel

def fastDispatch : List (Bool × DispatchAnswer) :=
  [(true, answer 0 delivered), (true, answer 1 delivered), (true, answer 2 delivered),
    (false, answer 300001 delivered)]

theorem fastDispatch_once :
    Always (Pool.act dispatchStep) (fun q => SentOnce q.store) (dispatchStart createAndRetry)
        fastDispatch ∧
      AllSteps (Pool.act dispatchStep) KeepsSent (dispatchStart createAndRetry) fastDispatch :=
  dispatched_once createAndRetry fastDispatch (by decide +kernel)

end NotificationService
