import Mathlib.Algebra.Order.Floor.Semifield
import Mathlib.Data.Rat.Floor
import OrderPlatform.NotificationService.Dispatch

/-! # Successive retry runs

A retry run fetches the 50 oldest PENDING records and only then looks at their age. Records
that are stale stand before all that are not, so fresh ones take no place from them: each run
takes 50 records off the backlog, or all that are left.
-/

namespace NotificationService

open Runs Store Wire

/-- The stale PENDING records at a time. -/
def World.backlog (w : World) (time : ℕ) : List NotificationDelivery :=
  w.deliveries.filter fun d => d.status = .pending ∧ d.createdAt + 5 * 60 * 1000 < time

variable {ι : Type}

/-- A record that the call creates is not stale at the start, and a run begins no earlier. -/
def DispatchCall.Timely (start : ℕ) (x : DispatchAnswer) : DispatchCall → Prop
  | .creating _ _ => start ≤ x.now + 5 * 60 * 1000
  | .retrying => start ≤ x.now
  | _ => True

instance (start : ℕ) (x : DispatchAnswer) : (c : DispatchCall) → Decidable (c.Timely start x)
  | .creating _ _ => Nat.decLe _ _
  | .retrying => Nat.decLe _ _
  | .dispatching _ => instDecidableTrue
  | .saving _ _ => instDecidableTrue
  | .finished => instDecidableTrue

def Timely (start : ℕ) (q : Pool World DispatchCall ι) (a : ι × DispatchAnswer) : Prop :=
  (q.calls a.1).Timely start a.2

instance (start : ℕ) (q : Pool World DispatchCall ι) (a : ι × DispatchAnswer) :
    Decidable (Timely start q a) :=
  inferInstanceAs (Decidable ((q.calls a.1).Timely start a.2))

/-- What a call is about to save is no longer PENDING. -/
def DispatchCall.Saves : DispatchCall → Prop
  | .saving record _ => record.status ≠ .pending
  | _ => True

/-- Identifiers are distinct and were drawn, and no call is about to save a PENDING record. -/
structure Recorded (q : Pool World DispatchCall ι) : Prop where
  distinct : (q.store.deliveries.map NotificationDelivery.id).Nodup
  drawn : ∀ d ∈ q.store.deliveries, d.id < q.store.fresh
  saves : ∀ i, (q.calls i).Saves

/-- What steps leave of a table: no record joins the backlog, and none becomes PENDING again. -/
structure Later (start : ℕ) (w w' : World) : Prop where
  backlog : (w'.backlog start).Sublist (w.backlog start)
  fresh : w.fresh ≤ w'.fresh
  pending : ∀ d ∈ w'.deliveries, d.status = .pending → d ∈ w.deliveries ∨ w.fresh ≤ d.id

section Tables

variable {w w' w'' : World} {start now : ℕ} {rank : NotificationDelivery → ℕ}
  {record d : NotificationDelivery}

/-- What is older than something stale is stale. -/
theorem stale_of_le (time : ℕ) (a b : NotificationDelivery) (hab : a.createdAt ≤ b.createdAt)
    (hb : decide (b.createdAt + 5 * 60 * 1000 < time) = true) :
    decide (a.createdAt + 5 * 60 * 1000 < time) = true := by
  simp only [decide_eq_true_eq] at hb ⊢
  omega

/-- The run's records are the oldest of the backlog, though it fetches before it filters. -/
theorem stale_eq : w.stale now rank =
    oldest NotificationDelivery.createdAt rank 50 (w.backlog now) := by
  rw [World.stale, filter_oldest (stale_of_le now), List.filter_filter, World.backlog]
  simp only [Bool.decide_and, Bool.and_comm]

theorem mem_backlog : d ∈ w.backlog start ↔
    d ∈ w.deliveries ∧ d.status = .pending ∧ d.createdAt + 5 * 60 * 1000 < start := by
  simp [World.backlog]

/-- What was stale at the start is among the first a later run takes. -/
theorem oldest_backlog_subset (h : start ≤ now)
    (hd : d ∈ oldest NotificationDelivery.createdAt rank 50 (w.backlog start)) :
    d ∈ w.stale now rank := by
  have hsame : (w.backlog now).filter (fun d => d.createdAt + 5 * 60 * 1000 < start) =
      w.backlog start := by
    rw [World.backlog, World.backlog, List.filter_filter]
    refine List.filter_congr fun d _ => ?_
    rw [← Bool.decide_and, decide_eq_decide]
    constructor
    · rintro ⟨hs, hp, -⟩
      exact ⟨hp, hs⟩
    · rintro ⟨hp, hs⟩
      exact ⟨hs, hp, hs.trans_le h⟩
  rw [← hsame, ← filter_oldest (stale_of_le start), ← stale_eq] at hd
  exact List.mem_of_mem_filter hd

theorem backlog_save (h : record.status ≠ .pending) :
    (w.save record).backlog start = (w.backlog start).filter fun d => d.id ≠ record.id :=
  filter_update_const (by simp [h])

theorem Later.refl (start : ℕ) (w : World) : Later start w w :=
  ⟨.refl _, le_rfl, fun _ hd _ => Or.inl hd⟩

theorem Later.trans (h : Later start w w') (h' : Later start w' w'') : Later start w w'' where
  backlog := h'.backlog.trans h.backlog
  fresh := h.fresh.trans h'.fresh
  pending := by
    intro d hd hp
    rcases h'.pending d hd hp with hd | hd
    · exact h.pending d hd hp
    · exact Or.inr (h.fresh.trans hd)

theorem Later.create (dto : CreateNotificationDto) (info : EventMeta)
    (h : start ≤ now + 5 * 60 * 1000) : Later start w (w.create dto info now) where
  backlog := by
    have hnot : ¬ now + 5 * 60 * 1000 < start := by omega
    simp [World.backlog, World.create, World.record, List.filter_append, hnot]
  fresh := Nat.le_succ _
  pending := by
    intro d hd _
    rcases List.mem_append.mp hd with hd | hd
    · exact Or.inl hd
    · obtain rfl := List.mem_singleton.mp hd
      exact Or.inr le_rfl

theorem Later.save (h : record.status ≠ .pending) : Later start w (w.save record) where
  backlog := by
    rw [backlog_save h]
    exact List.filter_sublist
  fresh := le_rfl
  pending := by
    intro d hd hp
    rcases save_cases hd with rfl | ⟨hd, -⟩
    · exact absurd hp h
    · exact Or.inl hd

end Tables

variable [DecidableEq ι] {start n : ℕ} {i : ι} {q q' q'' : Pool World DispatchCall ι}
  {a : ι × DispatchAnswer}

/-- A call may move on while the table stays as it is. -/
theorem Recorded.move (hq : Recorded q) {c : DispatchCall} (hc : c.Saves) :
    Recorded ⟨q.store, Function.update q.calls i c⟩ :=
  ⟨hq.distinct, hq.drawn, forall_update (P := DispatchCall.Saves) hc hq.saves⟩

theorem Recorded.act (hq : Recorded q) (h : q.act dispatchStep a = some q') : Recorded q' := by
  obtain ⟨w', c', hM, rfl⟩ := Pool.act_eq_some.mp h
  generalize q.calls a.1 = c at hM
  cases dispatchStep_effect hM with
  | refused _ _ => exact hq.move trivial
  | ended => exact hq.move trivial
  | created _ =>
    refine ⟨?_, ?_, forall_update (P := DispatchCall.Saves) trivial hq.saves⟩
    · exact nodup_map_concat hq.distinct fun d hd => (hq.drawn d hd).ne
    · exact forall_mem_concat (fun d hd => Nat.lt_succ_of_lt (hq.drawn d hd)) (Nat.lt_succ_self _)
  | fetched _ => exact hq.move trivial
  | dispatched =>
    refine ⟨hq.distinct, hq.drawn, forall_update (P := DispatchCall.Saves) ?_ hq.saves⟩
    exact (answered_facts _ a.2.result a.2.now).2.1
  | unsaved _ => exact hq.move trivial
  | saved _ =>
    refine ⟨?_, id_lt_save hq.drawn, forall_update (P := DispatchCall.Saves) trivial hq.saves⟩
    rw [ids_save]
    exact hq.distinct

theorem Later.act (hq : Recorded q) (hC : Timely start q a) (h : q.act dispatchStep a = some q') :
    Later start q.store q'.store := by
  obtain ⟨w', c', hM, rfl⟩ := Pool.act_eq_some.mp h
  generalize hi : q.calls a.1 = c at hM
  cases dispatchStep_effect hM with
  | refused _ _ => exact .refl _ _
  | ended => exact .refl _ _
  | created _ =>
    simp only [Timely, hi] at hC
    exact .create _ _ hC
  | fetched _ => exact .refl _ _
  | dispatched => exact ⟨.refl _, le_rfl, fun _ hd _ => Or.inl hd⟩
  | unsaved _ => exact .refl _ _
  | saved _ =>
    have hsaves := hq.saves a.1
    rw [hi] at hsaves
    exact .save hsaves

/-- The number of records of the backlog that the call is not still to dispatch or to save. -/
def unheld (start : ℕ) (i : ι) (q : Pool World DispatchCall ι) : ℕ :=
  (q.store.backlog start).countP fun d => d.id ∉ (q.calls i).ids

/-- Since `q`, the run has not begun, or it has taken its share of the backlog. -/
structure Retrying (start : ℕ) (i : ι) (q q' : Pool World DispatchCall ι) : Prop where
  recorded : Recorded q'
  later : Later start q.store q'.store
  taken : q'.calls i = .retrying ∨ unheld start i q' ≤ (q.store.backlog start).length - 50

omit [DecidableEq ι] in
theorem unheld_le (h : Later start q.store q'.store)
    (hids : ∀ id ∈ (q.calls i).ids, id ∈ (q'.calls i).ids) :
    unheld start i q' ≤ unheld start i q := by
  refine h.backlog.countP_le.trans (List.countP_mono_left ?_)
  intro d _ hd
  simp only [decide_eq_true_eq] at hd ⊢
  exact fun hmem => hd (hids _ hmem)

/-- A fetch leaves out no more of the backlog than is over 50. -/
theorem unheld_fetch {w : World} {now : ℕ} {rank : NotificationDelivery → ℕ}
    {calls : ι → DispatchCall} (h : start ≤ now) :
    unheld start i ⟨w, Function.update calls i (.dispatching (w.stale now rank))⟩ ≤
      (w.backlog start).length - 50 := by
  set run : DispatchCall := .dispatching (w.stale now rank)
  have hheld : ∀ d ∈ oldest NotificationDelivery.createdAt rank 50 (w.backlog start),
      ¬ decide (d.id ∉ (Function.update calls i run i).ids) = true := by
    intro d hd
    have hmem : d.id ∈ (w.stale now rank).map NotificationDelivery.id :=
      List.mem_map_of_mem (oldest_backlog_subset h hd)
    rw [Function.update_self, decide_eq_true_eq, not_not]
    exact hmem
  exact countP_le_of_oldest hheld

theorem unheld_save {record : NotificationDelivery} {rest : List NotificationDelivery}
    (hi : q.calls i = .saving record rest) (h : record.status ≠ .pending) :
    unheld start i ⟨q.store.save record, Function.update q.calls i (.dispatching rest)⟩ ≤
      unheld start i q := by
  simp only [unheld, backlog_save h, List.countP_filter, hi, Function.update_self]
  refine List.countP_mono_left fun d _ hd => ?_
  simp only [Bool.and_eq_true, decide_eq_true_eq] at hd ⊢
  exact List.not_mem_cons_of_ne_of_not_mem hd.2 hd.1

/-- A step of the run itself that does not fail, or any step of another call. -/
theorem Retrying.act (hq : Retrying start i q q') (hC : Timely start q' a)
    (hf : a.1 = i → a.2.fails = false) (h : q'.act dispatchStep a = some q'') :
    Retrying start i q q'' := by
  have hlater := Later.act hq.recorded hC h
  refine ⟨hq.recorded.act h, hq.later.trans hlater, ?_⟩
  obtain ⟨w', c', hM, rfl⟩ := Pool.act_eq_some.mp h
  by_cases hai : a.1 = i
  · subst hai
    replace hf := hf rfl
    have hle (hi : q'.calls a.1 ≠ .retrying) := hq.taken.resolve_left hi
    generalize hi : q'.calls a.1 = c at hM
    cases dispatchStep_effect hM with
    | refused hfails _ => simp [hf] at hfails
    | ended =>
      refine Or.inr ((unheld_le hlater ?_).trans (hle (by simp [hi])))
      simp [hi, DispatchCall.ids, DispatchCall.held]
    | created _ =>
      refine Or.inr ((unheld_le hlater ?_).trans (hle (by simp [hi])))
      simp [hi, DispatchCall.ids, DispatchCall.held]
    | fetched _ =>
      simp only [Timely, hi] at hC
      exact Or.inr ((unheld_fetch hC).trans (Nat.sub_le_sub_right hq.later.backlog.length_le 50))
    | @dispatched r rest _ =>
      refine Or.inr ((unheld_le hlater ?_).trans (hle (by simp [hi])))
      have hsame := (answered_facts r a.2.result a.2.now).1
      simp [hi, DispatchCall.ids, DispatchCall.held, hsame]
    | unsaved hfails => simp [hf] at hfails
    | saved _ =>
      have hsaves := hq.recorded.saves a.1
      rw [hi] at hsaves
      exact Or.inr ((unheld_save hi hsaves).trans (hle (by simp [hi])))
  · have hsame : Function.update q'.calls a.1 c' i = q'.calls i :=
      Function.update_of_ne (Ne.symm hai) _ _
    rcases hq.taken with hi | hle
    · exact Or.inl (hsame.trans hi)
    · refine Or.inr (le_trans (unheld_le hlater ?_) hle)
      intro id hid
      dsimp only
      rwa [hsame]

/-- Between two states a retry run begins and ends, and none of its own steps fails. -/
structure RetryRun (start : ℕ) (i : ι) (q q' : Pool World DispatchCall ι) : Prop where
  begins : q.calls i = .retrying
  ends : q'.calls i = .finished
  steps : ∃ steps, exec (Pool.act dispatchStep) q steps = some q' ∧
    AllSteps (Pool.act dispatchStep) (fun p a => Timely start p a ∧ (a.1 = i → a.2.fails = false))
      q steps

/-- So many retry runs, each begun after the one before it ended. -/
inductive SuccessiveRuns (start : ℕ) (q : Pool World DispatchCall ι) :
    ℕ → Pool World DispatchCall ι → Prop
  | none : SuccessiveRuns start q 0 q
  | next {n : ℕ} {i : ι} {q' q'' : Pool World DispatchCall ι} : SuccessiveRuns start q n q' →
      RetryRun start i q' q'' → SuccessiveRuns start q (n + 1) q''

theorem RetryRun.taken (hq : Recorded q) (h : RetryRun start i q q') :
    Recorded q' ∧ Later start q.store q'.store ∧
      (q'.store.backlog start).length ≤ (q.store.backlog start).length - 50 := by
  obtain ⟨steps, hexec, hall⟩ := h.steps
  have hstart : Retrying start i q q := ⟨hq, .refl _ _, Or.inl h.begins⟩
  have hrun : Retrying start i q q' :=
    exec_invariant_of_allSteps (fun _ _ _ hp hC hs => hp.act hC.1 hC.2 hs) hstart hall hexec
  refine ⟨hrun.recorded, hrun.later, ?_⟩
  have hle := hrun.taken.resolve_left (by simp [h.ends])
  simpa [unheld, h.ends, DispatchCall.ids, DispatchCall.held] using hle

/-- Every run takes 50 records off the backlog, or the last of them. -/
theorem SuccessiveRuns.taken (hq : Recorded q) (h : SuccessiveRuns start q n q') :
    Recorded q' ∧ Later start q.store q'.store ∧
      (q'.store.backlog start).length ≤ (q.store.backlog start).length - 50 * n := by
  induction h with
  | none => exact ⟨hq, .refl _ _, le_rfl⟩
  | next _ hrun ih =>
    obtain ⟨hq', hlater, hle⟩ := ih
    obtain ⟨hq'', hlater', hle'⟩ := hrun.taken hq'
    exact ⟨hq'', hlater.trans hlater', by omega⟩

/-- A record of a cleared backlog is not PENDING under any of its later values. -/
theorem SuccessiveRuns.cleared (hq : Recorded q) (h : SuccessiveRuns start q n q')
    (hn : (q.store.backlog start).length ≤ 50 * n) {d e : NotificationDelivery}
    (hd : d ∈ q.store.backlog start) (he : e ∈ q'.store.deliveries) (hid : e.id = d.id) :
    e.status ≠ .pending := by
  obtain ⟨-, hlater, hle⟩ := h.taken hq
  obtain ⟨hmem, -, hold⟩ := mem_backlog.mp hd
  intro hp
  have hfirst : e ∈ q.store.deliveries :=
    (hlater.pending e he hp).resolve_right (by rw [hid, not_le]; exact hq.drawn d hmem)
  obtain rfl : e = d := List.inj_on_of_nodup_map hq.distinct hfirst hmem hid
  have hleft : e ∈ q'.store.backlog start := mem_backlog.mpr ⟨he, hp, hold⟩
  have := List.length_pos_of_mem hleft
  omega

theorem exec_finished {w : World} {xs : List DispatchAnswer} {p : World × DispatchCall}
    (h : exec (Machine.solo dispatchStep) (w, .finished) xs = some p) : p = (w, .finished) := by
  cases xs with
  | nil => exact (Option.some.inj h).symm
  | cons x xs => cases h

/-- A run that is not interrupted dispatches its records one after another. -/
theorem dispatches_of_solo {records : List NotificationDelivery} {w w' : World}
    {xs : List DispatchAnswer} (hx : ∀ x ∈ xs, x.fails = false)
    (h : exec (Machine.solo dispatchStep) (w, .dispatching records) xs = some (w', .finished)) :
    w'.dispatches.map Dispatch.recordId =
      w.dispatches.map Dispatch.recordId ++ records.map NotificationDelivery.id := by
  induction records generalizing w xs with
  | nil =>
    cases xs with
    | nil => cases h
    | cons x xs =>
      obtain ⟨p, hp, h⟩ := exec_cons_eq_some.mp h
      cases hp
      cases exec_finished h
      simp
  | cons r rest ih =>
    match xs with
    | [] => cases h
    | [_] => cases h
    | x :: y :: xs =>
      obtain ⟨p, hp, h⟩ := exec_cons_eq_some.mp h
      cases hp
      obtain ⟨p, hp, h⟩ := exec_cons_eq_some.mp h
      have hy : y.fails = false := hx y (by simp)
      simp only [Machine.solo, dispatchStep, hy, Bool.false_eq_true, if_false] at hp
      cases hp
      have := ih (fun z hz => hx z (by simp [hz])) h
      rw [this]
      simp [World.save]

/--
A retry run takes and dispatches the 50 oldest records of the backlog, or all of it, in order
of creation. As many successive runs as the backlog at their start has fifties clear it,
whatever other calls create, dispatch and save meanwhile.
-/
theorem retries_clear_backlog :
    (∀ (w : World) (x : DispatchAnswer), x.fails = false → ∃ records,
      OldestOf NotificationDelivery.createdAt 50 (w.backlog x.now) records ∧
      dispatchStep w .retrying x = some (w, .dispatching records) ∧
      ∀ (xs : List DispatchAnswer) (w' : World), (∀ y ∈ xs, y.fails = false) →
        exec (Machine.solo dispatchStep) (w, .dispatching records) xs = some (w', .finished) →
        w'.dispatches.map Dispatch.recordId =
          w.dispatches.map Dispatch.recordId ++ records.map NotificationDelivery.id) ∧
    ∀ (ι : Type) [DecidableEq ι] (w : World), (w.deliveries.map NotificationDelivery.id).Nodup →
      (∀ d ∈ w.deliveries, d.id < w.fresh) →
      ∀ (requests : ι → Request) (history : List (ι × DispatchAnswer))
        (q q' : Pool World DispatchCall ι) (start n : ℕ),
      exec (Pool.act dispatchStep) ⟨w, fun i => (requests i).call⟩ history = some q →
      ⌈((q.store.backlog start).length / 50 : ℚ)⌉₊ ≤ n → SuccessiveRuns start q n q' →
      ∀ d ∈ q.store.backlog start, ∀ e ∈ q'.store.deliveries, e.id = d.id →
        e.status ≠ .pending := by
  constructor
  · intro w x hx
    refine ⟨w.stale x.now x.rank, ?_, ?_, ?_⟩
    · rw [stale_eq]
      exact oldestOf_oldest _ _ _ _
    · simp only [dispatchStep, hx, Bool.false_eq_true, if_false]
    · intro xs w' hxs h
      exact dispatches_of_solo hxs h
  · intro ι _ w hdistinct hdrawn requests history q q' start n hhistory hn hruns d hd e he hid
    have hsaves : ∀ i, (requests i).call.Saves := by
      intro i
      cases requests i <;> trivial
    have hq : Recorded q :=
      exec_invariant (fun _ _ _ hp hs => hp.act hs) ⟨hdistinct, hdrawn, hsaves⟩ hhistory
    have hlength : (q.store.backlog start).length ≤ 50 * n := by
      rw [Nat.ceil_le, div_le_iff₀ (by norm_num)] at hn
      have : (q.store.backlog start).length ≤ n * 50 := by exact_mod_cast hn
      omega
    exact hruns.cleared hq hlength hd he hid

/-- A notification that gets stuck, a retry run, and a notification that comes in meanwhile. -/
def stuckAndRetry (i : Fin 3) : Request :=
  if i = 1 then .retry
  else .create ⟨.email, "customer@example.com", "email", none, "Hello"⟩ ⟨none, none, none⟩

def retrySteps : List (Fin 3 × DispatchAnswer) :=
  [(2, answer 300002 delivered), (1, answer 300003 delivered), (1, answer 300004 delivered),
    (2, answer 300005 delivered), (1, answer 300006 delivered), (1, answer 300007 delivered)]

theorem stuck_retried : ∃ q q' : Pool World DispatchCall (Fin 3),
    exec (Pool.act dispatchStep) (dispatchStart stuckAndRetry) [(0, answer 0 delivered)] = some q ∧
    (q.store.backlog 300001).length = 1 ∧ SuccessiveRuns 300001 q 1 q' ∧
    ∀ d ∈ q.store.backlog 300001, ∀ e ∈ q'.store.deliveries, e.id = d.id → e.status ≠ .pending := by
  obtain ⟨q, hq, hlength, hbegins, hall, q', hq', hends⟩ :
      ∃ q ∈ exec (Pool.act dispatchStep) (dispatchStart stuckAndRetry) [(0, answer 0 delivered)],
        (q.store.backlog 300001).length = 1 ∧ q.calls 1 = .retrying ∧
        AllSteps (Pool.act dispatchStep)
          (fun p a => Timely 300001 p a ∧ (a.1 = 1 → a.2.fails = false)) q retrySteps ∧
        ∃ q' ∈ exec (Pool.act dispatchStep) q retrySteps, q'.calls 1 = .finished := by
    decide +kernel
  have hrun : SuccessiveRuns 300001 q 1 q' := .next .none ⟨hbegins, hends, _, hq', hall⟩
  refine ⟨q, q', hq, hlength, hrun, ?_⟩
  refine retries_clear_backlog.2 (Fin 3) .empty List.nodup_nil (by simp [World.empty])
    stuckAndRetry _ q q' 300001 1 hq ?_ hrun
  rw [hlength]
  norm_num

end NotificationService
