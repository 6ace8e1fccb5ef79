import Mathlib.Tactic.Linarith
import OrderPlatform.ApiGateway.Throttler

/-! # How long a block lasts

A caller over the limit is told how long its block lasts, and a marker is kept for that long.
The answer to a call looks at the counter only, so a block ends with the counter's window
when that is the shorter of the two.
-/

namespace ApiGateway

open Runs Store

variable {s : Redis} {p : IncrementParams} {key : String} {cell : Counter}

namespace IncrementParams

theorem blockKey_ne_key (p : IncrementParams) : p.blockKey ≠ p.key := by
  intro h
  have hlen := congrArg String.length h
  simp [blockKey] at hlen

theorem blockDurationSeconds_pos (h : 0 < p.blockDuration) : 0 < p.blockDurationSeconds := by
  rw [blockDurationSeconds, Int.pos_iff_toNat_pos.symm]
  exact Int.ceil_pos.mpr (by positivity)

end IncrementParams

/-- The keys once the hit of a call is counted. -/
def hit (s : Redis) (p : IncrementParams) : Counters String :=
  let r := s.keys.incr p.key s.now
  if r.2 = 1 then r.1.expire p.key s.now p.ttlSeconds else r.1

theorem increment_eq (s : Redis) (p : IncrementParams) :
    increment s p = answer { s with keys := hit s p } p (s.keys.incr p.key s.now).2 := rfl

@[simp] theorem answer_now {current : ℕ} : (answer s p current).1.now = s.now := by
  unfold answer
  split
  · split <;> rfl
  · rfl

@[simp] theorem answer_isBlocked {current : ℕ} :
    (answer s p current).2.isBlocked = p.isBlocked current := by
  unfold answer
  split
  · split <;> rfl
  · rfl

@[simp] theorem increment_now : (increment s p).1.now = s.now := answer_now

theorem increment_isBlocked :
    (increment s p).2.isBlocked = p.isBlocked (s.keys.incr p.key s.now).2 := answer_isBlocked

theorem hit_of_some (h : s.get p.key = some cell) :
    hit s p = Function.update s.keys p.key (some cell.hit) := by
  have hne : cell.count + 1 ≠ 1 := Nat.succ_ne_succ_iff.mpr cell.pos.ne'
  rw [hit, Counters.incr_of_some h, if_neg hne]

theorem hit_of_ne (h : key ≠ p.key) : hit s p key = s.keys key := by
  unfold hit
  split
  · rw [Counters.expire_of_ne h, Counters.incr_of_ne h]
  · rw [Counters.incr_of_ne h]

/-- The answer to a call leaves every live key alone. -/
theorem answer_keeps {current : ℕ} (h : s.get key = some cell) :
    (answer s p current).1.keys key = some cell := by
  have hk : s.keys key = some cell := (Counters.get_eq_some.mp h).1
  unfold answer
  split
  · split
    · rename_i keys hset
      by_cases he : key = p.blockKey
      · subst he
        rw [Counters.setNx_of_some h] at hset
        cases hset
      · have hother : (s.keys.setNx p.blockKey s.now p.blockDurationSeconds).getD s.keys key =
            s.keys key := Counters.setNx_of_ne he
        rw [hset, Option.getD_some] at hother
        exact hother.trans hk
    · exact hk
  · exact hk

/-- A call leaves the expiry of a live key alone, and its count does not fall. -/
theorem increment_keeps (h : s.get key = some cell) : ∃ cell',
    (increment s p).1.keys key = some cell' ∧ cell'.expiresAt = cell.expiresAt ∧
      cell.count ≤ cell'.count ∧ (key = p.key → cell' = cell.hit) := by
  have hlive : cell.live s.now = true := (Counters.get_eq_some.mp h).2
  rw [increment_eq]
  by_cases he : key = p.key
  · subst he
    refine ⟨cell.hit, answer_keeps ?_, rfl, Nat.le_succ _, fun _ => rfl⟩
    exact Counters.get_eq_some.mpr
      ⟨(congrFun (hit_of_some h) _).trans (Function.update_self ..), hlive⟩
  · refine ⟨cell, answer_keeps ?_, rfl, le_rfl, fun hk => absurd hk he⟩
    exact Counters.get_eq_some.mpr
      ⟨(hit_of_ne he).trans (Counters.get_eq_some.mp h).1, hlive⟩

section Visits

/-- A call of a sequence: the time that passes before it, and its key. -/
structure Visit where
  wait : ℕ
  key : String
  deriving DecidableEq, Repr

variable (ttl limit blockDuration : ℚ)

def Visit.params (v : Visit) : IncrementParams := ⟨v.key, ttl, limit, blockDuration⟩

def visited (s : Redis) (v : Visit) : Redis × ThrottlerStorageRecord :=
  increment (s.wait v.wait) (v.params ttl limit blockDuration)

def visit (s : Redis) (v : Visit) : Option Redis := some (visited ttl limit blockDuration s v).1

/--
Every later call on the key that comes within the block's time, whatever comes in between,
is blocked as well.
-/
def BlockLasts (s : Redis) (v : Visit) : Prop :=
  ∀ later t v', exec (visit ttl limit blockDuration) (visited ttl limit blockDuration s v).1 later =
      some t → v'.key = v.key →
    (t.now + v'.wait : ℚ) <
      s.now + v.wait + (visited ttl limit blockDuration s v).2.timeToBlockExpire →
    (visited ttl limit blockDuration t v').2.isBlocked = true

/-- When the block of a call over its limit ends: the marker is there, or set for the duration. -/
def blockEnd (s : Redis) (p : IncrementParams) : ℚ :=
  match s.get p.blockKey with
  | some marker => (marker.expiresAt.getD s.now : ℕ)
  | none => s.now + p.blockDuration

/-- No caller is let through at all, or the block ends before the counter's window does. -/
def Outlasted (s : Redis) (p : IncrementParams) : Prop :=
  p.limit < 1 ∨ ∀ cell e, s.get p.key = some cell → cell.expiresAt = some e → blockEnd s p ≤ e

end Visits

/-- What a call over the limit is told of its block. -/
theorem blockEnd_of_answer {current : ℕ} (hpos : 0 < p.blockDuration)
    (hb : p.isBlocked current = true) :
    s.now + (answer s p current).2.timeToBlockExpire = blockEnd s p := by
  have hd := IncrementParams.blockDurationSeconds_pos hpos
  unfold answer
  rw [if_pos ⟨hb, hd⟩]
  cases hg : s.get p.blockKey with
  | none =>
    simp only [Counters.setNx_of_none hg, blockEnd, hg, IncrementParams.record, max_eq_left hpos.le]
  | some marker =>
    have hm := Counters.get_eq_some.mp hg
    have hp : s.keys.get p.blockKey s.now = some marker := hg
    simp only [Counters.setNx_of_some hg, blockEnd, hg, IncrementParams.record, Counters.pttl, hp]
    cases he : marker.expiresAt with
    | none => simp
    | some e =>
      have hlt : s.now < e := (Counter.live_iff he).mp hm.2
      have hcast : (s.now : ℚ) < e := by exact_mod_cast hlt
      simp only [Option.elim_some, Option.getD_some]
      push_cast
      rw [max_eq_left (by linarith)]
      ring

/-- A call that is blocked under a limit of one or more finds its key live and not new. -/
theorem get_of_isBlocked (hlimit : 1 ≤ p.limit) (hb : (increment s p).2.isBlocked = true) :
    ∃ cell, s.get p.key = some cell ∧ p.limit < cell.count + 1 := by
  rw [increment_isBlocked] at hb
  cases hg : s.get p.key with
  | none =>
    rw [Counters.incr_of_none hg] at hb
    have : p.limit < (1 : ℕ) := of_decide_eq_true hb
    push_cast at this
    linarith
  | some cell =>
    rw [Counters.incr_of_some hg] at hb
    have : p.limit < (cell.count + 1 : ℕ) := of_decide_eq_true hb
    exact ⟨cell, rfl, by exact_mod_cast this⟩

theorem isBlocked_of_get (hg : s.get p.key = some cell) (h : p.limit < cell.count + 1) :
    (increment s p).2.isBlocked = true := by
  rw [increment_isBlocked, Counters.incr_of_some hg]
  exact decide_eq_true (by exact_mod_cast h)

theorem blockEnd_hit (s : Redis) (p : IncrementParams) :
    blockEnd { s with keys := hit s p } p = blockEnd s p := by
  have hget : Redis.get { s with keys := hit s p } p.blockKey = s.get p.blockKey :=
    Counters.get_congr (hit_of_ne p.blockKey_ne_key)
  simp only [blockEnd, hget]

section Blocks

variable {ttl limit blockDuration : ℚ} {v v' : Visit} {t : Redis}

theorem visited_now : (visited ttl limit blockDuration s v).1.now = s.now + v.wait := increment_now

theorem until_eq_blockEnd (hpos : 0 < blockDuration)
    (hb : (visited ttl limit blockDuration s v).2.isBlocked = true) :
    (s.now : ℚ) + v.wait + (visited ttl limit blockDuration s v).2.timeToBlockExpire =
      blockEnd (s.wait v.wait) (v.params ttl limit blockDuration) := by
  have h := blockEnd_of_answer (s := { s.wait v.wait with
    keys := hit (s.wait v.wait) (v.params ttl limit blockDuration) }) hpos
    (increment_isBlocked.symm.trans hb)
  rw [blockEnd_hit] at h
  rw [← h]
  push_cast [Redis.wait]
  rfl

/-- From a call on, its key has expired, or its count is above what the call found. -/
def Held (cell : Counter) (key : String) (t : Redis) : Prop :=
  (∃ e, cell.expiresAt = some e ∧ e ≤ t.now) ∨
    ∃ cell', t.keys key = some cell' ∧ cell'.expiresAt = cell.expiresAt ∧
      cell.count < cell'.count

theorem Held.get (h : Held cell key t) (wait : ℕ)
    (hnow : ∀ e, cell.expiresAt = some e → t.now + wait < e) :
    ∃ cell', (t.wait wait).get key = some cell' ∧ cell'.expiresAt = cell.expiresAt ∧
      cell.count < cell'.count := by
  rcases h with ⟨e, he, hle⟩ | ⟨cell', hk, he, hlt⟩
  · exact absurd (hnow e he) (by omega)
  · refine ⟨cell', Counters.get_eq_some.mpr ⟨hk, ?_⟩, he, hlt⟩
    cases hc : cell.expiresAt with
    | none => exact Counter.live_of_none (he.trans hc)
    | some e => exact (Counter.live_iff (he.trans hc)).mpr (hnow e hc)

theorem Held.after (h : Held cell key t) (v : Visit) :
    Held cell key (visited ttl limit blockDuration t v).1 := by
  by_cases hnow : ∀ e, cell.expiresAt = some e → t.now + v.wait < e
  · obtain ⟨cell', hg, he, hlt⟩ := h.get v.wait hnow
    obtain ⟨cell'', hk, he', hle, -⟩ := increment_keeps hg
    exact .inr ⟨cell'', hk, he'.trans he, lt_of_lt_of_le hlt hle⟩
  · push Not at hnow
    obtain ⟨e, he, hle⟩ := hnow
    exact .inl ⟨e, he, hle.trans_eq visited_now.symm⟩

theorem Held.exec (h : Held cell key s) {vs : List Visit}
    (ht : Runs.exec (visit ttl limit blockDuration) s vs = some t) : Held cell key t := by
  refine exec_invariant (I := Held cell key) ?_ h ht
  intro s v t hs hstep
  cases hstep
  exact hs.after v

theorem isBlocked_of_limit (h : limit < 1) :
    (visited ttl limit blockDuration t v).2.isBlocked = true := by
  refine increment_isBlocked.trans (decide_eq_true ?_)
  have hone : 1 ≤ ((t.wait v.wait).keys.incr v.key (t.wait v.wait).now).2 := Counters.incr_pos
  exact h.trans_le (by exact_mod_cast hone)

/-- The first call on the key after the window is over is let through. -/
theorem not_blockLasts {e : ℕ} (hpos : 0 < blockDuration)
    (hb : (visited ttl limit blockDuration s v).2.isBlocked = true) (hlimit : 1 ≤ limit)
    (hg : (s.wait v.wait).get v.key = some cell) (he : cell.expiresAt = some e)
    (hlt : (e : ℚ) < blockEnd (s.wait v.wait) (v.params ttl limit blockDuration)) :
    ¬ BlockLasts ttl limit blockDuration s v := by
  intro hlasts
  have hnow : s.now + v.wait < e := (Counter.live_iff he).mp (Counters.get_eq_some.mp hg).2
  let next : Visit := ⟨e - (s.now + v.wait), v.key⟩
  have hat : (visited ttl limit blockDuration s v).1.now + next.wait = e := by
    rw [visited_now]
    exact Nat.add_sub_cancel' hnow.le
  have hblocked := hlasts [] _ next rfl rfl (by
    rw [until_eq_blockEnd hpos hb]
    exact_mod_cast hat ▸ hlt)
  obtain ⟨cell', hk, he', -, -⟩ := increment_keeps (p := v.params ttl limit blockDuration) hg
  obtain ⟨cell'', hg'', -⟩ := get_of_isBlocked (p := next.params ttl limit blockDuration)
    hlimit hblocked
  obtain ⟨hk'', hlive⟩ := Counters.get_eq_some.mp hg''
  cases hk.symm.trans hk''
  have hlater : (visited ttl limit blockDuration s v).1.now + next.wait < e :=
    (Counter.live_iff (he'.trans he)).mp hlive
  omega

theorem blockLasts_of_le (hpos : 0 < blockDuration)
    (hb : (visited ttl limit blockDuration s v).2.isBlocked = true) (hlimit : 1 ≤ limit)
    (hend : ∀ cell e, (s.wait v.wait).get v.key = some cell → cell.expiresAt = some e →
      blockEnd (s.wait v.wait) (v.params ttl limit blockDuration) ≤ e) :
    BlockLasts ttl limit blockDuration s v := by
  intro later t v' ht hkey hlt
  rw [until_eq_blockEnd hpos hb] at hlt
  obtain ⟨cell, hg, hcount⟩ := get_of_isBlocked (p := v.params ttl limit blockDuration) hlimit hb
  have hfirst : Held cell v.key (visited ttl limit blockDuration s v).1 := by
    obtain ⟨cell', hk, he, -, hhit⟩ := increment_keeps (p := v.params ttl limit blockDuration) hg
    rw [hhit rfl] at hk
    exact .inr ⟨cell.hit, hk, rfl, Nat.lt_succ_self _⟩
  obtain ⟨cell', hg', -, hmore⟩ := (hfirst.exec ht).get v'.wait fun e he => by
    exact_mod_cast hlt.trans_le (hend cell e hg he)
  rw [← hkey] at hg'
  have hmore' : (cell.count : ℚ) < cell'.count := by exact_mod_cast hmore
  have hover : limit < cell'.count + 1 := by
    have : limit < cell.count + 1 := hcount
    linarith
  exact isBlocked_of_get (p := v'.params ttl limit blockDuration) hg' hover

/--
In any state, the block of a call over its limit lasts for as long as the call is told exactly
when no caller is ever let through, or the counter's window is not over before the block is.
-/
theorem block_lasts_iff (ttl limit blockDuration : ℚ) (hpos : 0 < blockDuration) (s : Redis)
    (v : Visit) (hb : (visited ttl limit blockDuration s v).2.isBlocked = true) :
    BlockLasts ttl limit blockDuration s v ↔
      Outlasted (s.wait v.wait) (v.params ttl limit blockDuration) := by
  constructor
  · intro hlasts
    by_contra hout
    obtain ⟨hlimit, hend⟩ := not_or.mp hout
    push Not at hend
    obtain ⟨cell, e, hg, he, hlt⟩ := hend
    exact not_blockLasts hpos hb (not_lt.mp hlimit) hg he hlt hlasts
  · rintro (hlimit | hend)
    · exact fun later t v' _ _ _ => isBlocked_of_limit hlimit
    · by_cases hlimit : limit < 1
      · exact fun later t v' _ _ _ => isBlocked_of_limit hlimit
      · exact blockLasts_of_le hpos hb (not_lt.mp hlimit) hend

end Blocks

/-- A request half a minute after the one before. -/
def secondRequest : Visit := ⟨30000, "client"⟩

/-- A second request is blocked for a minute, and the next one half a minute later is let by. -/
theorem block_ends_early : ¬ ∀ (ttl limit blockDuration : ℚ) (earlier : List Visit) (s : Redis)
    (v : Visit), 0 < blockDuration →
      exec (visit ttl limit blockDuration) .empty earlier = some s →
      (visited ttl limit blockDuration s v).2.isBlocked = true →
      BlockLasts ttl limit blockDuration s v := by
  intro h
  have hblocked := h 60000 1 60000 [⟨0, "client"⟩] _ secondRequest (by norm_num) rfl
    (by decide +kernel) [] _ secondRequest rfl rfl (by decide +kernel)
  revert hblocked
  decide +kernel

theorem block_of_secondRequest : ∃ s,
    exec (visit 60000 1 60000) .empty [⟨0, "client"⟩] = some s ∧
      (BlockLasts 60000 1 60000 s secondRequest ↔
        Outlasted (s.wait secondRequest.wait) (secondRequest.params 60000 1 60000)) :=
  ⟨_, rfl, block_lasts_iff 60000 1 60000 (by norm_num) _ secondRequest (by decide +kernel)⟩

end ApiGateway
