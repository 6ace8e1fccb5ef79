import Mathlib.Data.Fintype.Card
import Mathlib.Data.Fintype.EquivFin
import OrderPlatform.ApiGateway.Throttler

/-! # The limit within a window

The calls that count a hit while a key lives draw the numbers 1, 2, 3 and so on, whatever
the other commands do in between. A call is let through when its number is within the limit,
and every call comes to its end after five commands at most.
-/

namespace ApiGateway

open Runs Store

namespace IncrementCall

/-- The call is about to count a hit of the key. -/
def waitsFor (key : String) : IncrementCall → Bool
  | .waiting p => p.key = key
  | _ => false

/-- The count the call has read is within the limit. -/
def within (L : ℕ) (c : IncrementCall) : Bool := c.current.any fun n => n ≤ L

def isReturned : IncrementCall → Bool
  | .returned _ => true
  | _ => false

/-- The call has returned and is let through. -/
def admitted : IncrementCall → Bool
  | .returned record => !record.isBlocked
  | _ => false

/-- The call is one of `increment` with these arguments. -/
def Follows (p : IncrementParams) : IncrementCall → Prop
  | .waiting q => q = p
  | .expiring q _ => q = p
  | .measuring q _ => q = p
  | .blocking q _ _ => q = p
  | .measuringBlock q _ _ => q = p
  | .returned record => record.isBlocked = p.isBlocked record.totalHits
  | .stopped => True

end IncrementCall

variable {s s' : Redis} {c c' : IncrementCall} {params : IncrementParams} {key : String} {wait : ℕ}

theorem follows_command (hc : c.Follows params) (h : command s c = some (s', c')) :
    c'.Follows params := by
  cases c with
  | waiting p =>
    cases h
    split <;> exact hc
  | measuring p current =>
    obtain rfl : p = params := hc
    cases h
    split <;> rfl
  | expiring p current =>
    cases h
    exact hc
  | blocking p current ttlRemaining =>
    obtain rfl : p = params := hc
    unfold command at h
    dsimp only at h
    split at h
    · cases h
      rfl
    · cases h
      rfl
  | measuringBlock p current ttlRemaining =>
    obtain rfl : p = params := hc
    cases h
    rfl
  | returned record => cases h
  | stopped => cases h

theorem IncrementCall.eq_of_isReturned (h : c.isReturned = true) :
    ∃ record, c = .returned record := by
  cases c with
  | returned record => exact ⟨record, rfl⟩
  | _ => cases h

theorem IncrementCall.touches_of_waitsFor (h : c.waitsFor key = true) : c.touches = true := by
  cases c with
  | waiting p => rfl
  | _ => cases h

/-- A call that counts a hit of the key reads the next number of the key. -/
theorem command_draw (hc : c.waitsFor key = true) (h : command s c = some (s', c')) :
    ∃ cell, s'.keys key = some cell ∧ c'.current = some cell.count ∧
      cell.count = (s.get key).elim 0 Counter.count + 1 := by
  cases command_effect h with
  | created p hg =>
    obtain rfl : p.key = key := of_decide_eq_true hc
    exact ⟨.first none, Function.update_self .., rfl, by rw [hg]; rfl⟩
  | counted p cell hg =>
    obtain rfl : p.key = key := of_decide_eq_true hc
    exact ⟨cell.hit, Function.update_self .., rfl, by rw [hg]; rfl⟩
  | expired | marked => cases hc
  | read _ _ ht =>
    rw [IncrementCall.touches_of_waitsFor hc] at ht
    cases ht

/-- Every other command leaves the count of a live key alone. -/
theorem command_keeps {cell : Counter} (hc : c.waitsFor key = false)
    (h : command s c = some (s', c')) (hg : s.get key = some cell) :
    ∃ cell', s'.keys key = some cell' ∧ cell'.count = cell.count := by
  have hk : s.keys key = some cell := (Counters.get_eq_some.mp hg).1
  cases command_effect h with
  | created p | counted p =>
    have hne : key ≠ p.key := fun he => of_decide_eq_false hc he.symm
    exact ⟨cell, (Function.update_of_ne hne ..).trans hk, rfl⟩
  | expired p current =>
    by_cases he : key = p.key
    · subst he
      refine ⟨{ cell with expiresAt := some (s.now + 1000 * p.ttlSeconds) }, ?_, rfl⟩
      exact (congrFun (Counters.expire_of_some hg) _).trans (Function.update_self ..)
    · exact ⟨cell, (Counters.expire_of_ne he).trans hk, rfl⟩
  | marked p current ttlRemaining hn =>
    have hne : key ≠ p.blockKey := by
      rintro rfl
      rw [hn] at hg
      cases hg
    exact ⟨cell, (Function.update_of_ne hne ..).trans hk, rfl⟩
  | read => exact ⟨cell, hk, rfl⟩

theorem command_current {n : ℕ} (hc : c.current = some n) (h : command s c = some (s', c')) :
    c'.current = some n := by
  cases command_effect h with
  | created | counted => cases hc
  | expired | marked => exact hc
  | read _ _ _ _ he => exact he.trans hc

/-- A command that is carried out leaves the call with a count. -/
theorem current_ne_none (h : command s c = some (s', c')) : c'.current ≠ none := by
  cases hc : c.current with
  | some n => simp [command_current hc h]
  | none =>
    cases c with
    | waiting p =>
      cases h
      split <;> simp [IncrementCall.current]
    | stopped => cases h
    | _ => cases hc

variable {Id : Type} [DecidableEq Id] {p q q' r : Pool Redis IncrementCall Id} {a : Id × ℕ}
  {L m : ℕ}

/-- The calls that count a hit of the key on the way from one state of the calls to another. -/
def entered [Fintype Id] (key : String) (before after : Id → IncrementCall) : Finset Id :=
  Finset.univ.filter fun i => (before i).waitsFor key ∧ (after i).current.isSome

/-- The calls whose hit of the key is counted by a command of the window. -/
def counting [Fintype Id] (key : String) (p : Pool Redis IncrementCall Id)
    (window : List (Id × ℕ)) : Finset Id :=
  Finset.univ.filter fun i => (p.calls i).waitsFor key ∧ i ∈ window.map Prod.fst

/-- The key is there when the command is carried out. -/
def Lives (key : String) (p : Pool Redis IncrementCall Id) (a : Id × ℕ) : Prop :=
  (p.store.wait a.2).get key ≠ none

/-- A call creates the key, and no command of the run is carried out after its expiry. -/
inductive Window (key : String) (p q : Pool Redis IncrementCall Id) : List (Id × ℕ) → Prop
  | opened {p' : Pool Redis IncrementCall Id} {a : Id × ℕ} {as : List (Id × ℕ)}
    (waits : (p.calls a.1).waitsFor key = true) (absent : (p.store.wait a.2).get key = none)
    (first : p.act throttleStepOk a = some p') (lives : AllSteps (Pool.act throttleStepOk)
      (Lives key) p' as) (last : exec (Pool.act throttleStepOk) p' as = some q) :
    Window key p q (a :: as)

/-- The first `m` numbers are drawn, and the calls that drew one within the limit counted. -/
structure Counted [Fintype Id] (key : String) (L : ℕ) (before after : Id → IncrementCall)
    (m : ℕ) : Prop where
  idle : ∀ i, (after i).current = none → after i = before i
  card : (entered key before after).card = m
  within : ((entered key before after).filter fun i => (after i).within L).card = min m L

theorem act_command (h : q.act throttleStepOk a = some q') : ∃ s' c',
    command (q.store.wait a.2) (q.calls a.1) = some (s', c') ∧
      q' = ⟨s', Function.update q.calls a.1 c'⟩ :=
  Pool.act_eq_some.mp h

theorem follows_exec {redis : Redis} {request : Id → IncrementParams} {as : List (Id × ℕ)}
    (h : exec (Pool.act throttleStepOk) (start redis request) as = some q) (i : Id) :
    (q.calls i).Follows (request i) := by
  refine exec_invariant (I := fun q => ∀ i, (q.calls i).Follows (request i)) ?_ (fun _ => rfl) h i
  intro q a q' hq hstep i
  obtain ⟨s', c', hc, rfl⟩ := act_command hstep
  by_cases hi : i = a.1
  · subst hi
    simpa using follows_command (hq a.1) hc
  · simpa [hi] using hq i

theorem current_exec {as : List (Id × ℕ)} {i : Id} {n : ℕ} (hi : (q.calls i).current = some n)
    (h : exec (Pool.act throttleStepOk) q as = some r) : (r.calls i).current = some n := by
  refine exec_invariant (I := fun q => (q.calls i).current = some n) ?_ hi h
  intro q a q' hq hstep
  obtain ⟨s', c', hc, rfl⟩ := act_command hstep
  by_cases ha : i = a.1
  · subst ha
    simpa using command_current hq hc
  · simpa [ha] using hq

theorem current_of_waitsFor (h : c.waitsFor key = true) : c.current = none := by
  cases c with
  | waiting p => rfl
  | _ => cases h

theorem key_of_waitsFor (hf : c.Follows params) (h : c.waitsFor key = true) : params.key = key := by
  cases c with
  | waiting p =>
    obtain rfl : p = params := hf
    exact of_decide_eq_true h
  | _ => cases h

theorem Window.exec {window : List (Id × ℕ)} (h : Window key p q window) :
    Runs.exec (Pool.act throttleStepOk) p window = some q := by
  obtain ⟨-, -, first, -, last⟩ := h
  exact exec_cons_eq_some.mpr ⟨_, first, last⟩

/-- A call that drew a number and has returned is let through when the number is in the limit. -/
theorem admitted_iff_within {record : ThrottlerStorageRecord} {n : ℕ}
    (hlimit : params.limit = L) (hf : (IncrementCall.returned record).Follows params)
    (hc : c.current = some n) (hn : (IncrementCall.returned record).current = some n) :
    (IncrementCall.returned record).admitted = c.within L := by
  have hhits : record.totalHits = n := Option.some.inj hn
  have hblocked : record.isBlocked = decide ((L : ℚ) < n) := by
    rw [show record.isBlocked = params.isBlocked record.totalHits from hf, hhits,
      IncrementParams.isBlocked, hlimit]
  rw [IncrementCall.admitted, hblocked, IncrementCall.within, hc, Option.any_some, ← decide_not]
  exact decide_eq_decide.mpr (not_lt.trans Nat.cast_le)

section Count

variable [Fintype Id] {before after : Id → IncrementCall} {i : Id}

omit [DecidableEq Id] in
theorem mem_entered : i ∈ entered key before after ↔
    (before i).waitsFor key = true ∧ (after i).current.isSome = true := by
  simp [entered]

omit [DecidableEq Id] in
theorem counted_refl (key : String) (L : ℕ) (before : Id → IncrementCall) :
    Counted key L before before 0 := by
  have he : entered key before before = ∅ := by
    refine Finset.eq_empty_of_forall_notMem fun i hi => ?_
    obtain ⟨hw, hc⟩ := mem_entered.mp hi
    rw [current_of_waitsFor hw] at hc
    cases hc
  exact ⟨fun _ _ => rfl, by rw [he]; rfl, by rw [he]; simp⟩

/-- A call that draws the next number is counted, within the limit when the number is. -/
theorem Counted.draw (h : Counted key L before after m) (hw : (after i).waitsFor key = true)
    (hc : c'.current = some (m + 1)) :
    Counted key L before (Function.update after i c') (m + 1) := by
  have hnone := current_of_waitsFor hw
  have hout : i ∉ entered key before after := by
    intro hi
    have hsome := (mem_entered.mp hi).2
    rw [hnone] at hsome
    cases hsome
  have he : entered key before (Function.update after i c') =
      insert i (entered key before after) := by
    ext j
    rw [Finset.mem_insert, mem_entered, mem_entered]
    by_cases hj : j = i
    · subst hj
      rw [h.idle j hnone] at hw
      simp [hw, hc]
    · simp [hj]
  have hsame : ((entered key before after).filter fun j =>
      (Function.update after i c' j).within L) =
        (entered key before after).filter fun j => (after j).within L := by
    refine Finset.filter_congr fun j hj => ?_
    have hji : j ≠ i := ne_of_mem_of_not_mem hj hout
    rw [Function.update_of_ne hji]
  have hwithin : c'.within L = decide (m + 1 ≤ L) := by simp [IncrementCall.within, hc]
  constructor
  · intro j hj
    by_cases hji : j = i
    · subst hji
      simp [hc] at hj
    · rw [Function.update_of_ne hji] at hj ⊢
      exact h.idle j hj
  · rw [he, Finset.card_insert_of_notMem hout, h.card]
  · rw [he, Finset.filter_insert, Function.update_self, hsame, hwithin]
    by_cases hL : m + 1 ≤ L
    · have hnot : i ∉ (entered key before after).filter fun j => (after j).within L :=
        fun hi => hout (Finset.mem_of_mem_filter i hi)
      rw [if_pos (decide_eq_true hL), Finset.card_insert_of_notMem hnot, h.within]
      omega
    · rw [if_neg (by simpa using hL), h.within]
      omega

/-- A call that draws no number of the key leaves the count as it is. -/
theorem Counted.other (h : Counted key L before after m) (hw : (after i).waitsFor key = false)
    (hc : command s (after i) = some (s', c')) :
    Counted key L before (Function.update after i c') m := by
  have hcurrent (n : ℕ) (hn : (after i).current = some n) : c'.current = some n :=
    command_current hn hc
  have he : entered key before (Function.update after i c') = entered key before after := by
    ext j
    rw [mem_entered, mem_entered]
    by_cases hj : j = i
    · subst hj
      rw [Function.update_self]
      cases hn : (after j).current with
      | none =>
        rw [h.idle j hn] at hw
        simp [hw]
      | some n => simp [hcurrent n hn]
    · rw [Function.update_of_ne hj]
  have hsame : ((entered key before after).filter fun j =>
      (Function.update after i c' j).within L) =
        (entered key before after).filter fun j => (after j).within L := by
    refine Finset.filter_congr fun j hj => ?_
    by_cases hji : j = i
    · subst hji
      obtain ⟨n, hn⟩ := Option.isSome_iff_exists.mp (mem_entered.mp hj).2
      simp [IncrementCall.within, hn, hcurrent n hn]
    · rw [Function.update_of_ne hji]
  constructor
  · intro j hj
    by_cases hji : j = i
    · subst hji
      rw [Function.update_self] at hj
      exact absurd hj (current_ne_none hc)
    · rw [Function.update_of_ne hji] at hj ⊢
      exact h.idle j hj
  · rw [he, h.card]
  · rw [he, hsame, h.within]

end Count

section Run

variable [Fintype Id]

/-- As long as the key lives, its count is the number of calls that have drawn from it. -/
structure Drawn (key : String) (L : ℕ) (before : Id → IncrementCall)
    (q : Pool Redis IncrementCall Id) (m : ℕ) : Prop where
  counted : Counted key L before q.calls m
  count : ∃ cell, q.store.keys key = some cell ∧ cell.count = m

theorem get_of_lives {s : Redis} {m : ℕ} (h : ∃ cell, s.keys key = some cell ∧ cell.count = m)
    (hl : (s.wait wait).get key ≠ none) :
    ∃ cell, (s.wait wait).get key = some cell ∧ cell.count = m := by
  obtain ⟨cell, hk, hm⟩ := h
  obtain ⟨cell', hg⟩ := Option.ne_none_iff_exists'.mp hl
  have hk' : s.keys key = some cell' := (Counters.get_eq_some.mp hg).1
  cases hk.symm.trans hk'
  exact ⟨cell, hg, hm⟩

theorem Drawn.act {before : Id → IncrementCall} (h : Drawn key L before q m) (hl : Lives key q a)
    (hstep : q.act throttleStepOk a = some q') : ∃ m, Drawn key L before q' m := by
  obtain ⟨s', c', hc, rfl⟩ := act_command hstep
  obtain ⟨cell, hg, hm⟩ := get_of_lives h.count hl
  by_cases hw : (q.calls a.1).waitsFor key = true
  · obtain ⟨cell', hk, hcur, hcount⟩ := command_draw hw hc
    rw [hg, Option.elim_some, hm] at hcount
    exact ⟨m + 1, h.counted.draw hw (by rw [hcur, hcount]), cell', hk, hcount⟩
  · have hw := Bool.eq_false_iff.mpr hw
    obtain ⟨cell', hk, hcount⟩ := command_keeps hw hc hg
    exact ⟨m, h.counted.other hw hc, cell', hk, hcount.trans hm⟩

theorem Window.drawn {window : List (Id × ℕ)} (h : Window key p q window) (L : ℕ) :
    ∃ m, Drawn key L p.calls q m := by
  obtain ⟨waits, absent, first, lives, last⟩ := h
  obtain ⟨s', c', hc, rfl⟩ := act_command first
  obtain ⟨cell, hk, hcur, hcount⟩ := command_draw waits hc
  rw [absent, Option.elim_none] at hcount
  refine exec_invariant_of_allSteps (I := fun q => ∃ m, Drawn key L p.calls q m) ?_
    ⟨1, (counted_refl key L p.calls).draw waits (by rw [hcur, hcount]), cell, hk, hcount⟩ lives last
  rintro q a q' ⟨m, hm⟩ hl hstep
  exact hm.act hl hstep

/-- The commands a call still has before it. -/
def IncrementCall.rank : IncrementCall → ℕ
  | .waiting _ => 5
  | .expiring _ _ => 4
  | .measuring _ _ => 3
  | .blocking _ _ _ => 2
  | .measuringBlock _ _ _ => 1
  | .returned _ => 0
  | .stopped => 0

theorem rank_command (h : command s c = some (s', c')) : c'.rank < c.rank := by
  cases c with
  | waiting p =>
    cases h
    split <;> simp [IncrementCall.rank]
  | expiring p current =>
    cases h
    simp [IncrementCall.rank]
  | measuring p current =>
    cases h
    split <;> simp [IncrementCall.rank]
  | blocking p current ttlRemaining =>
    unfold command at h
    dsimp only at h
    split at h <;> cases h <;> simp [IncrementCall.rank]
  | measuringBlock p current ttlRemaining =>
    cases h
    simp [IncrementCall.rank]
  | returned record => cases h
  | stopped => cases h

/-- A call that has not ended has a next command. -/
theorem command_goes (s : Redis) (hc : ¬ (c.isReturned = true ∨ c = .stopped)) :
    ∃ s' c', command s c = some (s', c') := by
  cases c with
  | blocking p current ttlRemaining =>
    cases h : s.keys.setNx p.blockKey s.now p.blockDurationSeconds with
    | some keys =>
      exact ⟨{ s with keys }, .returned (p.record current ttlRemaining p.blockDuration), by
        simp only [command, h]⟩
    | none => exact ⟨s, .measuringBlock p current ttlRemaining, by simp only [command, h]⟩
  | returned record => exact absurd (Or.inl rfl) hc
  | stopped => exact absurd (Or.inr rfl) hc
  | _ => exact ⟨_, _, rfl⟩

omit [Fintype Id] in
/-- Without failures no call stops on its way. -/
theorem ne_stopped_exec {redis : Redis} {request : Id → IncrementParams} {as : List (Id × ℕ)}
    (h : exec (Pool.act throttleStepOk) (start redis request) as = some q) (i : Id) :
    q.calls i ≠ .stopped := by
  refine exec_invariant (I := fun q => ∀ i, q.calls i ≠ .stopped) ?_ (fun i => ?_) h i
  · intro q a q' hq hstep
    obtain ⟨s', c', hc, rfl⟩ := act_command hstep
    refine forall_update (P := fun c => c ≠ IncrementCall.stopped) ?_ hq
    rintro rfl
    exact current_ne_none hc rfl
  · rintro ⟨⟩

omit [Fintype Id] in
theorem current_of_mem {as : List (Id × ℕ)} {i : Id}
    (h : exec (Pool.act throttleStepOk) p as = some q) (hi : i ∈ as.map Prod.fst) :
    (q.calls i).current ≠ none := by
  induction as generalizing p with
  | nil => cases hi
  | cons a as ih =>
    obtain ⟨p', hp', h⟩ := exec_cons_eq_some.mp h
    obtain ⟨s', c', hc, rfl⟩ := act_command hp'
    by_cases hmem : i ∈ as.map Prod.fst
    · exact ih h hmem
    · rw [List.map_cons, List.mem_cons, or_iff_left hmem] at hi
      rw [Pool.calls_of_notMem h hmem, hi]
      dsimp only
      rw [Function.update_self]
      exact current_ne_none hc

theorem counting_eq_entered {window : List (Id × ℕ)}
    (h : exec (Pool.act throttleStepOk) p window = some q) :
    counting key p window = entered key p.calls q.calls := by
  refine Finset.filter_congr fun i _ => and_congr_right fun hw => ?_
  constructor
  · exact fun hi => Option.isSome_iff_ne_none.mpr (current_of_mem h hi)
  · intro hsome
    by_contra hi
    rw [Pool.calls_of_notMem h hi, current_of_waitsFor hw] at hsome
    cases hsome

/--
Whatever the instances do, no call issues more than five commands, and all calls can be
brought to their end. Of the `n` calls that count a hit of a key between its creation and its
expiry, once they have returned, exactly `min n L` are let through.
-/
theorem admitted_in_window (redis : Redis) (request : Id → IncrementParams) (key : String) (L : ℕ)
    (hL : ∀ i, (request i).key = key → (request i).limit = L) (earlier window later : List (Id × ℕ))
    (p q r : Pool Redis IncrementCall Id)
    (hp : exec (Pool.act throttleStepOk) (start redis request) earlier = some p)
    (hw : Window key p q window) (hr : exec (Pool.act throttleStepOk) q later = some r) :
    (∀ i, (earlier ++ window ++ later).countP (fun a => a.1 = i) ≤ 5) ∧
      (∃ more t, exec (Pool.act throttleStepOk) r more = some t ∧
        ∀ i, (t.calls i).isReturned = true) ∧
      ((∀ i ∈ counting key p window, (r.calls i).isReturned = true) →
        ((counting key p window).filter fun i => (r.calls i).admitted).card =
          min (counting key p window).card L) := by
  have hrun : Runs.exec (Pool.act throttleStepOk) (start redis request)
      (earlier ++ window ++ later) = some r := by
    rw [exec_append, exec_append, hp, Option.bind_some, hw.exec, Option.bind_some, hr]
  refine ⟨fun i => ?_, ?_, fun hdone => ?_⟩
  · have hsteps := Pool.steps_le IncrementCall.rank (fun _ _ _ _ _ => rank_command) hrun i
    exact (Nat.le_add_right _ _).trans hsteps
  · have hgoes (s : Redis) (c : IncrementCall) (hc : ¬ (c.isReturned = true ∨ c = .stopped)) :
        ∃ wait s' c', throttleStepOk s c wait = some (s', c') ∧ c'.rank < c.rank := by
      obtain ⟨s', c', hstep⟩ := command_goes (s.wait 0) hc
      exact ⟨0, s', c', hstep, rank_command hstep⟩
    obtain ⟨more, t, hmore, ht⟩ := Pool.exists_done IncrementCall.rank
      (fun c => c.isReturned = true ∨ c = .stopped) hgoes r
    have hall : Runs.exec (Pool.act throttleStepOk) (start redis request)
        (earlier ++ window ++ later ++ more) = some t := by
      rw [exec_append, hrun, Option.bind_some, hmore]
    exact ⟨more, t, hmore, fun i => (ht i).resolve_right (ne_stopped_exec hall i)⟩
  · rw [counting_eq_entered hw.exec] at hdone ⊢
    obtain ⟨m, hm⟩ := hw.drawn L
    rw [hm.counted.card, ← hm.counted.within]
    refine congrArg Finset.card (Finset.filter_congr fun i hi => ?_)
    obtain ⟨hwaits, hsome⟩ := mem_entered.mp hi
    obtain ⟨n, hn⟩ := Option.isSome_iff_exists.mp hsome
    obtain ⟨record, hrecord⟩ := IncrementCall.eq_of_isReturned (hdone i hi)
    have hkey : (request i).key = key := key_of_waitsFor (follows_exec hp i) hwaits
    have hf := follows_exec hrun i
    have hlast := current_exec hn hr
    rw [hrecord] at hf hlast
    rw [hrecord, admitted_iff_within (hL i hkey) hf hn hlast]

/-- Two requests for a limit of one. -/
def twoRequests : Bool → IncrementParams := fun _ => ⟨"client", 60000, 1, 0⟩

/-- Both count a hit before either has its answer; the first is let through, the second not. -/
theorem one_of_two_admitted : ∃ q r,
    exec (Pool.act throttleStepOk) (start .empty twoRequests) [(false, 0), (true, 0)] = some q ∧
    exec (Pool.act throttleStepOk) q [(true, 0), (false, 0), (false, 0)] = some r ∧
    (r.calls false).admitted = true ∧ (r.calls true).admitted = false ∧
    (counting "client" (start .empty twoRequests) [(false, 0), (true, 0)]).card = 2 ∧
    ((counting "client" (start .empty twoRequests) [(false, 0), (true, 0)]).filter fun i =>
      (r.calls i).admitted).card = 1 := by
  refine ⟨_, _, rfl, rfl, by decide +kernel, by decide +kernel, by decide +kernel, ?_⟩
  refine ((admitted_in_window .empty twoRequests "client" 1 (fun _ _ => by
    simp [twoRequests]) [] [(false, 0), (true, 0)] [(true, 0), (false, 0), (false, 0)] _ _ _ rfl
    (.opened (by decide) rfl rfl ?_ rfl) rfl).2.2 ?_).trans (by decide +kernel)
  · exact ⟨Option.some_ne_none _, fun _ _ => trivial⟩
  · rintro (_ | _) -
    · decide +kernel
    · decide +kernel

end Run

end ApiGateway
