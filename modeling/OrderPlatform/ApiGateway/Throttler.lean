import Mathlib.Data.Rat.Floor
import OrderPlatform.Runs.Pool
import OrderPlatform.Store.Counters

/-! # The gateway's throttler

`increment` counts a request under its key in Redis, gives a key it has just created a time
to live, and marks a key over its limit as blocked. It is cut at its commands, so that the
calls of several gateway instances can interleave and one can stop between two of them.
-/

namespace ApiGateway

open Runs Store

/-- The arguments of `increment`; durations are in milliseconds. -/
structure IncrementParams where
  key : String
  ttl : ℚ
  limit : ℚ
  blockDuration : ℚ
  deriving DecidableEq, Repr

namespace IncrementParams

variable (p : IncrementParams)

def ttlSeconds : ℕ := max ⌈p.ttl / 1000⌉.toNat 1

def blockDurationSeconds : ℕ := ⌈p.blockDuration / 1000⌉.toNat

def blockKey : String := p.key ++ ":block"

def isBlocked (current : ℕ) : Bool := p.limit < current

end IncrementParams

structure ThrottlerStorageRecord where
  totalHits : ℕ
  timeToExpire : ℤ
  isBlocked : Bool
  timeToBlockExpire : ℚ
  deriving DecidableEq, Repr

def IncrementParams.record (p : IncrementParams) (current : ℕ) (ttlRemaining : ℤ)
    (timeToBlockExpire : ℚ) : ThrottlerStorageRecord where
  totalHits := current
  timeToExpire := max ttlRemaining 0
  isBlocked := p.isBlocked current
  timeToBlockExpire := max timeToBlockExpire 0

structure Redis where
  now : ℕ
  keys : Counters String

def Redis.empty : Redis := ⟨0, fun _ => none⟩

def Redis.get (s : Redis) (key : String) : Option Counter := s.keys.get key s.now

def Redis.wait (s : Redis) (wait : ℕ) : Redis := { s with now := s.now + wait }

/-- A call of `increment`, before one of its commands. -/
inductive IncrementCall
  | waiting (p : IncrementParams)
  | expiring (p : IncrementParams) (current : ℕ)
  | measuring (p : IncrementParams) (current : ℕ)
  | blocking (p : IncrementParams) (current : ℕ) (ttlRemaining : ℤ)
  | measuringBlock (p : IncrementParams) (current : ℕ) (ttlRemaining : ℤ)
  | returned (record : ThrottlerStorageRecord)
  | stopped
  deriving DecidableEq, Repr

/-- The next command of a call; `none` when it has ended. -/
def command (s : Redis) : IncrementCall → Option (Redis × IncrementCall)
  | .waiting p =>
    let r := s.keys.incr p.key s.now
    some ({ s with keys := r.1 }, if r.2 = 1 then .expiring p r.2 else .measuring p r.2)
  | .expiring p current =>
    some ({ s with keys := s.keys.expire p.key s.now p.ttlSeconds }, .measuring p current)
  | .measuring p current =>
    let ttlRemaining := s.keys.pttl p.key s.now
    some (s, if p.isBlocked current ∧ 0 < p.blockDurationSeconds then
      .blocking p current ttlRemaining else .returned (p.record current ttlRemaining 0))
  | .blocking p current ttlRemaining =>
    match s.keys.setNx p.blockKey s.now p.blockDurationSeconds with
    | some keys => some ({ s with keys }, .returned (p.record current ttlRemaining p.blockDuration))
    | none => some (s, .measuringBlock p current ttlRemaining)
  | .measuringBlock p current ttlRemaining =>
    some (s, .returned (p.record current ttlRemaining (s.keys.pttl p.blockKey s.now)))
  | .returned _ => none
  | .stopped => none

/--
How the next command of a call goes. A call stops when its instance crashes or its command
fails, which may be after the command has taken effect.
-/
inductive Fate
  | completes
  | stops (effective : Bool)
  deriving DecidableEq, Repr

/-- The time that passes before a command, and how it goes. -/
structure Turn where
  wait : ℕ
  fate : Fate
  deriving DecidableEq, Repr

def throttleStep : Machine Redis IncrementCall Turn := fun s c x =>
  match x.fate with
  | .completes => command (s.wait x.wait) c
  | .stops effective => (command (s.wait x.wait) c).map fun r =>
      (if effective then r.1 else s.wait x.wait, .stopped)

/-- A step of a call that nothing stops. -/
def throttleStepOk : Machine Redis IncrementCall ℕ := fun s c wait =>
  throttleStep s c ⟨wait, .completes⟩

/-- Every call is about to be made, over whatever Redis holds. -/
def start {Id : Type} (redis : Redis) (request : Id → IncrementParams) :
    Pool Redis IncrementCall Id :=
  ⟨redis, fun i => .waiting (request i)⟩

/-- What `increment` does once its hit is counted. -/
def answer (s : Redis) (p : IncrementParams) (current : ℕ) : Redis × ThrottlerStorageRecord :=
  let ttlRemaining := s.keys.pttl p.key s.now
  if p.isBlocked current ∧ 0 < p.blockDurationSeconds then
    match s.keys.setNx p.blockKey s.now p.blockDurationSeconds with
    | some keys => ({ s with keys }, p.record current ttlRemaining p.blockDuration)
    | none => (s, p.record current ttlRemaining (s.keys.pttl p.blockKey s.now))
  else (s, p.record current ttlRemaining 0)

/-- `RedisThrottlerStorage.increment`, all of it at one instant. -/
def increment (s : Redis) (p : IncrementParams) : Redis × ThrottlerStorageRecord :=
  let r := s.keys.incr p.key s.now
  let keys := if r.2 = 1 then r.1.expire p.key s.now p.ttlSeconds else r.1
  answer { s with keys } p r.2

def Redis.set (s : Redis) (key : String) (c : Counter) : Redis :=
  { s with keys := Function.update s.keys key (some c) }

/-- The count a call has read, once it has. -/
def IncrementCall.current : IncrementCall → Option ℕ
  | .waiting _ => none
  | .expiring _ current => some current
  | .measuring _ current => some current
  | .blocking _ current _ => some current
  | .measuringBlock _ current _ => some current
  | .returned record => some record.totalHits
  | .stopped => none

/-- The call counts a hit, or gives a key its time to live, with its next command. -/
def IncrementCall.touches : IncrementCall → Bool
  | .waiting _ => true
  | .expiring _ _ => true
  | _ => false

/-- All a command can do. -/
inductive CommandEffect (s : Redis) : IncrementCall → Redis → IncrementCall → Prop
  | created (p : IncrementParams) (h : s.get p.key = none) :
    CommandEffect s (.waiting p) (s.set p.key (.first none)) (.expiring p 1)
  | counted (p : IncrementParams) (c : Counter) (h : s.get p.key = some c) :
    CommandEffect s (.waiting p) (s.set p.key c.hit) (.measuring p (c.count + 1))
  | expired (p : IncrementParams) (current : ℕ) :
    CommandEffect s (.expiring p current)
      { s with keys := s.keys.expire p.key s.now p.ttlSeconds } (.measuring p current)
  | marked (p : IncrementParams) (current : ℕ) (ttlRemaining : ℤ) (h : s.get p.blockKey = none) :
    CommandEffect s (.blocking p current ttlRemaining)
      (s.set p.blockKey (.first (some (s.now + 1000 * p.blockDurationSeconds))))
      (.returned (p.record current ttlRemaining p.blockDuration))
  | read (c c' : IncrementCall) (h : c.touches = false) (h' : c'.touches = false)
    (hc : c'.current = c.current) : CommandEffect s c s c'

variable {s s' : Redis} {c c' : IncrementCall}

theorem command_effect (h : command s c = some (s', c')) : CommandEffect s c s' c' := by
  cases c with
  | waiting p =>
    cases hg : s.get p.key with
    | none =>
      simp only [command, Counters.incr_of_none hg, if_true, Option.some.injEq, Prod.mk.injEq] at h
      obtain ⟨rfl, rfl⟩ := h
      exact .created p hg
    | some c =>
      have hne : c.count + 1 ≠ 1 := Nat.succ_ne_succ_iff.mpr c.pos.ne'
      simp only [command, Counters.incr_of_some hg, if_neg hne, Option.some.injEq,
        Prod.mk.injEq] at h
      obtain ⟨rfl, rfl⟩ := h
      exact .counted p c hg
  | expiring p current =>
    cases h
    exact .expired p current
  | measuring p current =>
    cases h
    split
    · exact .read _ _ rfl rfl rfl
    · exact .read _ _ rfl rfl rfl
  | blocking p current ttlRemaining =>
    cases hg : s.get p.blockKey with
    | none =>
      simp only [command, Counters.setNx_of_none hg, Option.some.injEq, Prod.mk.injEq] at h
      obtain ⟨rfl, rfl⟩ := h
      exact .marked p current ttlRemaining hg
    | some c =>
      simp only [command, Counters.setNx_of_some hg, Option.some.injEq, Prod.mk.injEq] at h
      obtain ⟨rfl, rfl⟩ := h
      exact .read _ _ rfl rfl rfl
  | measuringBlock p current ttlRemaining =>
    cases h
    exact .read _ _ rfl rfl rfl
  | returned record => cases h
  | stopped => cases h

theorem answer_solo (s : Redis) (p : IncrementParams) (current : ℕ) :
    ∃ n, exec (Machine.solo throttleStepOk) (s, .measuring p current) (List.replicate n 0) =
      some ((answer s p current).1, .returned (answer s p current).2) := by
  have hstep (s : Redis) (c : IncrementCall) : Machine.solo throttleStepOk (s, c) 0 = command s c :=
    rfl
  by_cases hb : p.isBlocked current ∧ 0 < p.blockDurationSeconds
  · cases hs : s.keys.setNx p.blockKey s.now p.blockDurationSeconds with
    | some keys =>
      exact ⟨2, by simp [List.replicate_succ, exec_cons, hstep, command, answer, hb, hs]⟩
    | none => exact ⟨3, by simp [List.replicate_succ, exec_cons, hstep, command, answer, hb, hs]⟩
  · exact ⟨1, by simp [exec_cons, hstep, command, answer, hb]⟩

/-- The commands of a call that nothing interrupts compute `increment`. -/
theorem increment_solo (s : Redis) (p : IncrementParams) :
    ∃ n, exec (Machine.solo throttleStepOk) (s, .waiting p) (List.replicate n 0) =
      some ((increment s p).1, .returned (increment s p).2) := by
  have hstep (s : Redis) (c : IncrementCall) : Machine.solo throttleStepOk (s, c) 0 = command s c :=
    rfl
  unfold increment
  by_cases h : (s.keys.incr p.key s.now).2 = 1
  · obtain ⟨n, hn⟩ := answer_solo
      { s with keys := (s.keys.incr p.key s.now).1.expire p.key s.now p.ttlSeconds } p 1
    exact ⟨n + 2, by simp [List.replicate_succ, exec_cons, hstep, command, h, hn]⟩
  · obtain ⟨n, hn⟩ := answer_solo
      { s with keys := (s.keys.incr p.key s.now).1 } p (s.keys.incr p.key s.now).2
    exact ⟨n + 1, by simp [List.replicate_succ, exec_cons, hstep, command, h, hn]⟩

end ApiGateway
