import OrderPlatform.PaymentService.Consumer
import OrderPlatform.Runs.Pool
import OrderPlatform.Store.Table

/-! # Concurrent consumers

Any number of deliveries are processed at the same time, by consumers and Lambda handlers
that share one Redis. The mark is taken in one atomic step before the handler is started,
so an event's handler is started at most once while marks live.
-/

namespace PaymentService

open Runs Store Wire

/-- The shared Redis and database, and the events whose handler has been started. -/
structure SharedConsumer (σ : Type*) where
  consumer : Consumer σ
  started : List (Topic × String)

/-- The program points of `process`. -/
inductive ConsumerCall (ε : Type*)
  | received (d : Delivery ε)
  | marked (d : Delivery ε) (e : Event)
  | handling (d : Delivery ε) (call : HandlerCall)
  | ended (outcome : Outcome)

section Step

variable {σ ε : Type*} (handle : σ → HandlerCall → ε → σ × Except Thrown Unit)

/-- One step of `process`: the parse with the mark, the start of the handler, its run. -/
def consumerStep : Machine (SharedConsumer σ) (ConsumerCall ε) Unit
  | s, .received d, _ =>
    match d.event with
    | .error _ => some (s, .ended .threw)
    | .ok e =>
      match s.consumer.redis.setNx (dedupKey e.topic e.eventId) d.now 86400 with
      | none => some (s, .ended .skipped)
      | some redis => some ({ s with consumer := { s.consumer with redis := redis } }, .marked d e)
  | s, .marked d e, _ =>
    match e.call with
    | .error _ => some (s, .ended .threw)
    | .ok none => some (s, .ended .completed)
    | .ok (some call) =>
      some ({ s with started := s.started ++ [(e.topic, e.eventId)] }, .handling d call)
  | s, .handling d call, _ =>
    match handle s.consumer.store call d.answer with
    | (store, .ok ()) =>
      some ({ s with consumer := { s.consumer with store := store } }, .ended .completed)
    | (store, .error _) =>
      some ({ s with consumer := { s.consumer with store := store } }, .ended .threw)
  | _, .ended _, _ => none

variable {handle} {s : SharedConsumer σ} {d : Delivery ε}

/-- The steps of a delivery that nothing interrupts compute `process`. -/
theorem process_solo (s : SharedConsumer σ) (d : Delivery ε) : ∃ n started,
    exec (Machine.solo (consumerStep handle)) (s, .received d) (List.replicate n ()) =
      some (⟨(process handle s.consumer d).1, started⟩,
        .ended (process handle s.consumer d).2) := by
  unfold process
  cases he : d.event with
  | error x => exact ⟨1, s.started, by simp [exec_cons, Machine.solo, consumerStep, he]⟩
  | ok e =>
    cases hs : s.consumer.redis.setNx (dedupKey e.topic e.eventId) d.now 86400 with
    | none => exact ⟨1, s.started, by simp [exec_cons, Machine.solo, consumerStep, he, hs]⟩
    | some redis =>
      rcases hc : e.call with x | _ | call
      · exact ⟨2, s.started, by simp [exec_cons, Machine.solo, consumerStep, he, hs, Event.run, hc,
          List.replicate_succ]⟩
      · exact ⟨2, s.started, by simp [exec_cons, Machine.solo, consumerStep, he, hs, Event.run, hc,
          List.replicate_succ]⟩
      · refine ⟨3, s.started ++ [(e.topic, e.eventId)], ?_⟩
        rcases hh : handle s.consumer.store call d.answer with ⟨store, x | x⟩ <;>
          simp [exec_cons, Machine.solo, consumerStep, he, hs, Event.run, hc, hh,
            List.replicate_succ]

inductive ConsumerEffect (s : SharedConsumer σ) :
    ConsumerCall ε → SharedConsumer σ → ConsumerCall ε → Prop
  | stop (c : ConsumerCall ε) (o : Outcome) : ConsumerEffect s c s (.ended o)
  | mark (d : Delivery ε) (e : Event) (redis : Expiring String) (he : d.event = .ok e)
    (hr : s.consumer.redis.setNx (dedupKey e.topic e.eventId) d.now 86400 = some redis) :
    ConsumerEffect s (.received d) ⟨⟨redis, s.consumer.store⟩, s.started⟩ (.marked d e)
  | start (d : Delivery ε) (e : Event) (call : HandlerCall) :
    ConsumerEffect s (.marked d e) ⟨s.consumer, s.started ++ [(e.topic, e.eventId)]⟩
      (.handling d call)
  | run (d : Delivery ε) (call : HandlerCall) (store : σ) (o : Outcome) :
    ConsumerEffect s (.handling d call) ⟨⟨s.consumer.redis, store⟩, s.started⟩ (.ended o)

theorem consumerStep_effect {s' : SharedConsumer σ} {c c' : ConsumerCall ε} {x : Unit}
    (h : consumerStep handle s c x = some (s', c')) : ConsumerEffect s c s' c' := by
  cases c with
  | received d =>
    simp only [consumerStep] at h
    split at h
    · cases h
      exact .stop _ _
    · rename_i e he
      split at h <;> cases h
      · exact .stop _ _
      · exact .mark d e _ he (by assumption)
  | marked d e =>
    simp only [consumerStep] at h
    split at h <;> cases h
    · exact .stop _ _
    · exact .stop _ _
    · exact .start d e _
  | handling d call =>
    simp only [consumerStep] at h
    split at h <;> cases h <;> exact .run d call _ _
  | ended o => cases h

end Step

section Lifetime

variable {σ ε : Type*} {t : ℕ} {s s' : SharedConsumer σ} {c c' l : ConsumerCall ε}
  {k : Topic × String}

/-- The event's mark outlives a day from `t` on. -/
def SharedConsumer.Locked (t : ℕ) (s : SharedConsumer σ) (k : Topic × String) : Prop :=
  ∃ n, s.consumer.redis (dedupKey k.1 k.2) = some n ∧ t + 86400 ≤ n

/-- The event a delivery has marked and whose handler it has not started yet. -/
def ConsumerCall.holds : ConsumerCall ε → Option (Topic × String)
  | .marked _ e => some (e.topic, e.eventId)
  | _ => none

/-- No handler has been started twice, and every event with a started handler is marked. -/
def StartedOnce (t : ℕ) (s : SharedConsumer σ) : Prop :=
  s.started.Nodup ∧ ∀ k ∈ s.started, s.Locked t k

/-- A delivery marks on the day from `t` on, and its mark is the first of its event. -/
def ConsumerCall.Fresh (t : ℕ) (s : SharedConsumer σ) (c : ConsumerCall ε) : Prop :=
  (∀ d, c = .received d → t ≤ d.now ∧ d.now < t + 86400) ∧
    ∀ k, c.holds = some k → s.Locked t k ∧ k ∉ s.started

def ConsumerCall.Apart (c c' : ConsumerCall ε) : Prop := ∀ k, c.holds = some k → c'.holds ≠ some k

theorem SharedConsumer.Locked.held (h : s.Locked t k) {now : ℕ} (hnow : now < t + 86400) :
    s.consumer.redis.held (dedupKey k.1 k.2) now = true := by
  obtain ⟨n, hn, hle⟩ := h
  simpa [Expiring.held, hn] using lt_of_lt_of_le hnow hle

theorem Locked.mark {key : String} {now : ℕ} {redis : Expiring String} (hnow : t ≤ now)
    (hr : s.consumer.redis.setNx key now 86400 = some redis) (store : σ)
    (started : List (Topic × String)) (h : s.Locked t k ∨ dedupKey k.1 k.2 = key) :
    SharedConsumer.Locked t ⟨⟨redis, store⟩, started⟩ k := by
  obtain ⟨-, rfl⟩ := Expiring.setNx_eq_some.mp hr
  by_cases hk : dedupKey k.1 k.2 = key
  · exact ⟨now + 86400, by simp [hk], by omega⟩
  · obtain ⟨n, hn, hle⟩ := h.resolve_right hk
    exact ⟨n, by simpa [hk] using hn, hle⟩

theorem ConsumerEffect.own (he : ConsumerEffect s c s' c') (hs : StartedOnce t s)
    (hc : c.Fresh t s) : StartedOnce t s' ∧ c'.Fresh t s' := by
  cases he with
  | stop c o => exact ⟨hs, by simp, by simp [ConsumerCall.holds]⟩
  | mark d e redis he hr =>
    obtain ⟨hle, hlt⟩ := hc.1 d rfl
    refine ⟨⟨hs.1, fun k hk => Locked.mark hle hr _ _ (Or.inl (hs.2 k hk))⟩, by simp, ?_⟩
    rintro k ⟨⟩
    refine ⟨Locked.mark hle hr _ _ (Or.inr rfl), fun hk => ?_⟩
    -- a handler started before would still hold the key
    have hheld := (hs.2 _ hk).held hlt
    exact absurd hheld (by simpa using (Expiring.setNx_eq_some.mp hr).1)
  | start d e call =>
    obtain ⟨hl, hn⟩ := hc.2 _ rfl
    refine ⟨⟨?_, ?_⟩, by simp, by simp [ConsumerCall.holds]⟩
    · simpa using hs.1.concat hn
    · exact forall_mem_concat hs.2 hl
  | run d call store o => exact ⟨hs, by simp, by simp [ConsumerCall.holds]⟩

theorem ConsumerEffect.other (he : ConsumerEffect s c s' c') (hc : c.Fresh t s)
    (hl : l.Fresh t s) (hd : c.Apart l) (hd' : l.Apart c) :
    l.Fresh t s' ∧ c'.Apart l ∧ l.Apart c' := by
  cases he with
  | stop c o => exact ⟨hl, by simp [ConsumerCall.Apart, ConsumerCall.holds],
      by simp [ConsumerCall.Apart, ConsumerCall.holds]⟩
  | mark d e redis he hr =>
    obtain ⟨hle, hlt⟩ := hc.1 d rfl
    -- the mark of another delivery still holds its key
    have hne : ∀ k, l.holds = some k → k ≠ (e.topic, e.eventId) := by
      rintro k hk rfl
      have hheld := (hl.2 _ hk).1.held hlt
      exact absurd hheld (by simpa using (Expiring.setNx_eq_some.mp hr).1)
    refine ⟨⟨hl.1, fun k hk => ?_⟩, ?_, ?_⟩
    · exact ⟨Locked.mark hle hr _ _ (Or.inl (hl.2 k hk).1), (hl.2 k hk).2⟩
    · rintro k ⟨⟩ hk
      exact hne _ hk rfl
    · rintro k hk ⟨⟩
      exact hne _ hk rfl
  | start d e call =>
    refine ⟨⟨hl.1, fun k hk => ⟨(hl.2 k hk).1, ?_⟩⟩, by simp [ConsumerCall.Apart,
      ConsumerCall.holds], by simp [ConsumerCall.Apart, ConsumerCall.holds]⟩
    have hne : k ≠ (e.topic, e.eventId) := by
      rintro rfl
      exact hd' _ hk rfl
    simpa [hne] using (hl.2 k hk).2
  | run d call store o => exact ⟨hl, by simp [ConsumerCall.Apart, ConsumerCall.holds],
      by simp [ConsumerCall.Apart, ConsumerCall.holds]⟩

end Lifetime

/--
Whatever the interleaving of any deliveries on one day, whatever Redis holds before them
and whichever handlers throw, no event's handler is started twice.
-/
theorem started_once {σ ε : Type*} (handle : σ → HandlerCall → ε → σ × Except Thrown Unit)
    {ι : Type} [DecidableEq ι] (d : ι → Delivery ε) (c : Consumer σ) (t : ℕ)
    (hd : ∀ i, t ≤ (d i).now ∧ (d i).now < t + 86400) (as : List (ι × Unit)) :
    Always (Pool.act (consumerStep handle)) (fun q => ∀ k, q.store.started.count k ≤ 1)
      ⟨⟨c, []⟩, fun i => .received (d i)⟩ as := by
  have hstart : Pool.Holds (StartedOnce t) (fun s c => ConsumerCall.Fresh t s c)
      ConsumerCall.Apart (⟨⟨c, []⟩, fun i => .received (d i)⟩ :
        Pool (SharedConsumer σ) (ConsumerCall ε) ι) := by
    refine ⟨⟨List.nodup_nil, by simp⟩, fun i => ⟨?_, by simp [ConsumerCall.holds]⟩, fun i j _ => by
      simp [ConsumerCall.Apart, ConsumerCall.holds]⟩
    rintro d ⟨⟩
    exact hd i
  rintro pre ⟨post, rfl⟩ q hq
  have hh := exec_invariant (fun p a q hp h => hp.act
    (fun s' k' hG hL hM => (consumerStep_effect hM).own hG hL)
    (fun s' k' l _ hL hl hD hD' hM => (consumerStep_effect hM).other hL hl hD hD') h) hstart hq
  exact List.nodup_iff_count_le_one.mp hh.store.1

/-- Two consumers take the same message at the same time, and the handler throws. -/
theorem sample_started_once :
    Always (Pool.act (consumerStep transient)) (fun q => ∀ k, q.store.started.count k ≤ 1)
      ⟨⟨⟨fun _ => none, ()⟩, []⟩, fun _ : Bool => .received (sampleDelivery 5 false)⟩
      [(false, ()), (true, ()), (false, ()), (true, ()), (false, ())] :=
  started_once transient (fun _ => sampleDelivery 5 false) ⟨fun _ => none, ()⟩ 0
    (fun _ => by decide) _

end PaymentService
