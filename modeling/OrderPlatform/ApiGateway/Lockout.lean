import OrderPlatform.ApiGateway.Throttler

/-! # Keys that never expire

A key is created without an expiry, and only the call that created it sets one. When that call
stops before it has, no later call makes up for it: the key stays, and its count only grows.
-/

namespace ApiGateway

open Runs Store

/-- The key is there and has no expiry. -/
def Endless (key : String) (s : Redis) : Prop :=
  ∃ cell, s.keys key = some cell ∧ cell.expiresAt = none

/-- The key a call is about to give its time to live. -/
def IncrementCall.owes : IncrementCall → Option String
  | .expiring p _ => some p.key
  | _ => none

/-- The call has carried out a command and has not ended. -/
def IncrementCall.inProgress : IncrementCall → Bool
  | .waiting _ => false
  | .returned _ => false
  | .stopped => false
  | _ => true

variable {s s' : Redis} {c c' : IncrementCall} {key l : String} {wait : ℕ} {x : Turn}

theorem Endless.get (h : Endless key s) (wait : ℕ) : (s.wait wait).get key ≠ none := by
  obtain ⟨cell, hk, he⟩ := h
  have hg : (s.wait wait).get key = some cell :=
    Counters.get_eq_some.mpr ⟨hk, Counter.live_of_none he⟩
  rw [hg]
  exact Option.some_ne_none cell

theorem endless_set {cell : Counter} : Endless key (s.set l cell) ↔
    if key = l then cell.expiresAt = none else Endless key s := by
  unfold Endless Redis.set
  by_cases h : key = l
  · subst h
    simp
  · simp [h]

/-- What a step does to the keys without an expiry, and to the call's debt. -/
inductive ThrottleEffect (s : Redis) (x : Turn) : IncrementCall → Redis → IncrementCall → Prop
  | creates (p : IncrementParams) (s' : Redis) (c' : IncrementCall)
    (absent : (s.wait x.wait).get p.key = none)
    (keys : ∀ key, Endless key s' ↔ key = p.key ∨ Endless key s)
    (call : x.fate = .completes ∧ c'.owes = some p.key ∨ x.fate = .stops true ∧ c'.owes = none) :
    ThrottleEffect s x (.waiting p) s' c'
  | expires (p : IncrementParams) (current : ℕ) (s' : Redis) (c' : IncrementCall)
    (fate : x.fate ≠ .stops false)
    (keys : ∀ key, key ≠ p.key → (Endless key s' ↔ Endless key s))
    (gone : Endless p.key s → ¬ Endless p.key s') (call : c'.owes = none) :
    ThrottleEffect s x (.expiring p current) s' c'
  | fails (p : IncrementParams) (current : ℕ) (fate : x.fate = .stops false) :
    ThrottleEffect s x (.expiring p current) (s.wait x.wait) .stopped
  | other (c : IncrementCall) (s' : Redis) (c' : IncrementCall) (owes : c.owes = none)
    (create : ∀ p, c = .waiting p → x.fate = .stops true → (s.wait x.wait).get p.key ≠ none)
    (keys : ∀ key, Endless key s' ↔ Endless key s) (call : c'.owes = none) :
    ThrottleEffect s x c s' c'

theorem owes_of_touches (h : c.touches = false) : c.owes = none := by
  cases c with
  | expiring p current => cases h
  | _ => rfl

/-- A command creates a key without an expiry, or sets a key's expiry, or does neither. -/
theorem command_endless (h : command s c = some (s', c')) :
    (∃ p, c = .waiting p ∧ s.get p.key = none ∧ c'.owes = some p.key ∧
      ∀ key, Endless key s' ↔ key = p.key ∨ Endless key s) ∨
    (∃ p current, c = .expiring p current ∧ c'.owes = none ∧
      (∀ key, key ≠ p.key → (Endless key s' ↔ Endless key s)) ∧
      (Endless p.key s → ¬ Endless p.key s')) ∨
    (c.owes = none ∧ c'.owes = none ∧ (∀ p, c = .waiting p → s.get p.key ≠ none) ∧
      ∀ key, Endless key s' ↔ Endless key s) := by
  cases command_effect h with
  | created p hg =>
    refine .inl ⟨p, rfl, hg, rfl, fun key => endless_set.trans ?_⟩
    by_cases hk : key = p.key <;> simp [hk, Counter.first]
  | counted p cell hg =>
    have hcell := (Counters.get_eq_some.mp hg).1
    refine .inr (.inr ⟨rfl, rfl, ?_, fun key => endless_set.trans ?_⟩)
    · rintro p' ⟨⟩ hn
      rw [hg] at hn
      cases hn
    · by_cases hk : key = p.key
      · subst hk
        simp [Endless, hcell, Counter.hit]
      · simp [hk]
  | expired p current =>
    refine .inr (.inl ⟨p, current, rfl, rfl, fun key hk => ?_, ?_⟩)
    · unfold Endless
      dsimp only
      rw [Counters.expire_of_ne hk]
    · rintro ⟨cell, hcell, he⟩
      have hg : s.get p.key = some cell :=
        Counters.get_eq_some.mpr ⟨hcell, Counter.live_of_none he⟩
      rw [Counters.expire_of_some hg]
      rintro ⟨cell', hcell', he'⟩
      dsimp only at hcell'
      rw [Function.update_self] at hcell'
      cases hcell'
      cases he'
  | marked p current ttlRemaining hn =>
    refine .inr (.inr ⟨rfl, rfl, fun p' he => ?_, fun key => endless_set.trans ?_⟩)
    · cases he
    by_cases hk : key = p.blockKey
    · subst hk
      have hnot : ¬ Endless p.blockKey s := fun he => he.get 0 hn
      simp [hnot, Counter.first]
    · simp [hk]
  | read _ _ ht ht' =>
    refine .inr (.inr ⟨owes_of_touches ht, owes_of_touches ht', ?_, fun _ => Iff.rfl⟩)
    rintro p rfl
    cases ht

theorem throttleStep_effect (h : throttleStep s c x = some (s', c')) :
    ThrottleEffect s x c s' c' := by
  have hwait (key : String) : Endless key (s.wait x.wait) ↔ Endless key s := Iff.rfl
  unfold throttleStep at h
  cases hf : x.fate with
  | completes =>
    rw [hf] at h
    rcases command_endless h with ⟨p, rfl, hg, hc, hk⟩ | ⟨p, n, rfl, hc, hk, hgone⟩ |
      ⟨ho, hc, hw, hk⟩
    · exact .creates p s' c' hg hk (.inl ⟨hf, hc⟩)
    · exact .expires p n s' c' (by simp [hf]) hk hgone hc
    · exact .other c s' c' ho (fun p hp _ => hw p hp) hk hc
  | stops effective =>
    rw [hf] at h
    obtain ⟨⟨u, d⟩, hcommand, hr⟩ := Option.map_eq_some_iff.mp h
    obtain ⟨hu, rfl⟩ := Prod.mk.inj hr
    cases effective with
    | true =>
      obtain rfl : u = s' := hu
      rcases command_endless hcommand with
        ⟨p, rfl, hg, -, hk⟩ | ⟨p, n, rfl, -, hk, hgone⟩ | ⟨ho, -, hw, hk⟩
      · exact .creates p u .stopped hg hk (.inr ⟨hf, rfl⟩)
      · exact .expires p n u .stopped (by simp [hf]) hk hgone rfl
      · exact .other c u .stopped ho (fun p hp _ => hw p hp) hk rfl
    | false =>
      obtain rfl : s.wait x.wait = s' := hu
      cases ho : c.owes with
      | none => exact .other c _ .stopped ho (fun p _ ht => by simp [hf] at ht) hwait rfl
      | some key =>
        cases c with
        | expiring p n => exact .fails p n hf
        | _ => cases ho

section Runs

variable {Id : Type} [DecidableEq Id] {p q : Pool Redis IncrementCall Id} {a : Id × Turn}

/-- The call stops between the creation of a key and the setting of its expiry. -/
def Abandons (p : Pool Redis IncrementCall Id) (a : Id × Turn) : Prop :=
  match p.calls a.1 with
  | .waiting params => a.2.fate = .stops true ∧ (p.store.wait a.2.wait).get params.key = none
  | .expiring _ _ => a.2.fate = .stops false
  | _ => False

/-- Every key without an expiry is owed one by exactly one call, and no other key is. -/
structure Owed (endless : String → Prop) (owes : Id → Option String) : Prop where
  endless_of_owes : ∀ i key, owes i = some key → endless key
  owner : ∀ key, endless key → ∃ i, ∀ j, owes j = some key ↔ j = i

/-- A key has no expiry and no call is about to give it one. -/
def Stuck (p : Pool Redis IncrementCall Id) : Prop :=
  ∃ key, Endless key p.store ∧ ∀ i, (p.calls i).owes ≠ some key

section Debts

variable {endless endless' : String → Prop} {owes owes' : Id → Option String} {i : Id}

theorem Owed.create (h : Owed endless owes) (hi : owes i = none) (hkey : ¬ endless key)
    (hkeys : ∀ k, endless' k ↔ k = key ∨ endless k) (hi' : owes' i = some key)
    (hrest : ∀ j, j ≠ i → owes' j = owes j) : Owed endless' owes' := by
  constructor
  · intro j k hj
    rw [hkeys]
    by_cases hji : j = i
    · subst hji
      exact .inl (Option.some.inj (hj.symm.trans hi'))
    · exact .inr (h.endless_of_owes j k ((hrest j hji).symm.trans hj))
  · intro k hk
    rcases (hkeys k).mp hk with rfl | hk
    · refine ⟨i, fun j => ⟨fun hj => ?_, fun hj => hj ▸ hi'⟩⟩
      by_contra hji
      exact hkey (h.endless_of_owes j k ((hrest j hji).symm.trans hj))
    · obtain ⟨o, ho⟩ := h.owner k hk
      have hoi : o ≠ i := by
        rintro rfl
        rw [(ho o).mpr rfl] at hi
        cases hi
      refine ⟨o, fun j => ?_⟩
      by_cases hji : j = i
      · subst hji
        rw [hi']
        refine ⟨fun he => ?_, fun he => absurd he.symm hoi⟩
        exact absurd (Option.some.inj he ▸ hk) hkey
      · rw [hrest j hji, ho]

theorem Owed.settle (h : Owed endless owes) (hi : owes i = some key)
    (hkeys : ∀ k, endless' k ↔ k ≠ key ∧ endless k) (hi' : owes' i = none)
    (hrest : ∀ j, j ≠ i → owes' j = owes j) : Owed endless' owes' := by
  obtain ⟨o, ho⟩ := h.owner key (h.endless_of_owes i key hi)
  obtain rfl : i = o := (ho i).mp hi
  constructor
  · intro j k hj
    have hji : j ≠ i := by
      rintro rfl
      rw [hi'] at hj
      cases hj
    rw [hrest j hji] at hj
    refine (hkeys k).mpr ⟨?_, h.endless_of_owes j k hj⟩
    rintro rfl
    exact hji ((ho j).mp hj)
  · intro k hk
    obtain ⟨hne, hk⟩ := (hkeys k).mp hk
    obtain ⟨o, ho'⟩ := h.owner k hk
    refine ⟨o, fun j => ?_⟩
    by_cases hji : j = i
    · subst hji
      rw [hi', ← ho', hi]
      simp [Ne.symm hne]
    · rw [hrest j hji, ho']

end Debts

/-- The keys without an expiry, and the keys the calls are about to give one. -/
def Paid (p : Pool Redis IncrementCall Id) : Prop :=
  Owed (fun key => Endless key p.store) fun i => (p.calls i).owes

/-- A step other than an abandonment leaves no key without an expiry but those owed one. -/
theorem Paid.act (hp : Paid p) (hn : ¬ Abandons p a) (h : p.act throttleStep a = some q) :
    Paid q := by
  obtain ⟨s', c', hc, rfl⟩ := Pool.act_eq_some.mp h
  have heffect := throttleStep_effect hc
  have hrest : ∀ j, j ≠ a.1 → (Function.update p.calls a.1 c' j).owes = (p.calls j).owes :=
    fun j hj => by rw [Function.update_of_ne hj]
  have hself : (Function.update p.calls a.1 c' a.1).owes = c'.owes := by
    rw [Function.update_self]
  generalize hi : p.calls a.1 = c at heffect
  unfold Abandons at hn
  rw [hi] at hn
  have howes : (p.calls a.1).owes = c.owes := by rw [hi]
  cases heffect with
  | creates params s' c' absent keys call =>
    have hnot : ¬ Endless params.key p.store := fun he => he.get a.2.wait absent
    have hnew : c'.owes = some params.key := by
      rcases call with ⟨-, ho⟩ | ⟨hf, -⟩
      · exact ho
      · exact absurd ⟨hf, absent⟩ hn
    exact Owed.create hp howes hnot keys (hself.trans hnew) hrest
  | expires params current s' c' fate keys gone call =>
    have hgone := gone (hp.endless_of_owes a.1 params.key howes)
    refine Owed.settle hp howes (fun key => ?_) (hself.trans call) hrest
    by_cases hk : key = params.key
    · subst hk
      simp [hgone]
    · rw [keys key hk]
      simp [hk]
  | fails params current fate => exact absurd fate hn
  | other c s' c' owes create keys call =>
    have hsame : (fun i => (Function.update p.calls a.1 c' i).owes) =
        fun i => (p.calls i).owes := by
      funext j
      by_cases hj : j = a.1
      · rw [hj, hself, call, howes, owes]
      · exact hrest j hj
    have hkeys : (fun key => Endless key s') = fun key => Endless key p.store :=
      funext fun key => propext (keys key)
    unfold Paid
    dsimp only
    rw [hsame, hkeys]
    exact hp

/-- No later step gives a stuck key an expiry. -/
theorem Stuck.act (hp : Stuck p) (h : p.act throttleStep a = some q) : Stuck q := by
  obtain ⟨key, hkey, hnone⟩ := hp
  obtain ⟨s', c', hc, rfl⟩ := Pool.act_eq_some.mp h
  have heffect := throttleStep_effect hc
  have hcall : (p.calls a.1).owes ≠ some key := hnone a.1
  have hstuck (hk : Endless key s') (hc' : c'.owes ≠ some key) :
      Stuck ⟨s', Function.update p.calls a.1 c'⟩ :=
    ⟨key, hk, forall_update (P := fun c : IncrementCall => c.owes ≠ some key) hc' hnone⟩
  generalize p.calls a.1 = c at heffect hcall
  cases heffect with
  | creates params s' c' absent keys call =>
    refine hstuck ((keys key).mpr (.inr hkey)) ?_
    rcases call with ⟨-, ho⟩ | ⟨-, ho⟩
    · rw [ho]
      intro he
      exact hkey.get a.2.wait (Option.some.inj he ▸ absent)
    · simp [ho]
  | expires params current s' c' fate keys gone call =>
    have hne : key ≠ params.key := fun he => hcall (congrArg some he.symm)
    exact hstuck ((keys key hne).mpr hkey) (by simp [call])
  | fails params current fate => exact hstuck hkey (by simp [IncrementCall.owes])
  | other c s' c' owes create keys call => exact hstuck ((keys key).mpr hkey) (by simp [call])

/-- A call that abandons a key leaves it stuck. -/
theorem Paid.stuck (hp : Paid p) (hn : Abandons p a) (h : p.act throttleStep a = some q) :
    Stuck q := by
  obtain ⟨s', c', hc, rfl⟩ := Pool.act_eq_some.mp h
  have heffect := throttleStep_effect hc
  unfold Abandons at hn
  generalize hi : p.calls a.1 = c at heffect hn
  cases heffect with
  | creates params s' c' absent keys call =>
    have hstopped : c'.owes = none := by
      rcases call with ⟨hf, -⟩ | ⟨-, ho⟩
      · exact absurd (hf.symm.trans hn.1) (by simp)
      · exact ho
    have hnone (i : Id) : (p.calls i).owes ≠ some params.key :=
      fun ho => (hp.endless_of_owes i _ ho).get a.2.wait absent
    exact ⟨params.key, (keys _).mpr (.inl rfl),
      forall_update (P := fun c : IncrementCall => c.owes ≠ some params.key) (by simp [hstopped])
        hnone⟩
  | expires params current s' c' fate keys gone call => exact absurd hn fate
  | fails params current fate =>
    have howes : (p.calls a.1).owes = some params.key := by rw [hi]; rfl
    have hend := hp.endless_of_owes a.1 params.key howes
    obtain ⟨o, ho⟩ := hp.owner _ hend
    obtain rfl : a.1 = o := (ho _).mp howes
    refine ⟨params.key, hend, fun j => ?_⟩
    by_cases hj : j = a.1
    · subst hj
      simp [IncrementCall.owes]
    · dsimp only
      rw [Function.update_of_ne hj]
      exact fun he => hj ((ho j).mp he)
  | other c s' c' owes create keys call =>
    cases c with
    | waiting params => exact absurd hn.2 (create params rfl hn.1)
    | expiring params current => cases owes
    | _ => exact hn.elim

/--
In every run from an empty Redis, once no call is in progress every key has an expiry exactly
when no call was stopped between creating a key and giving it one.
-/
theorem expiry_set_iff (request : Id → IncrementParams) (as : List (Id × Turn))
    (p : Pool Redis IncrementCall Id)
    (h : exec (Pool.act throttleStep) (start .empty request) as = some p)
    (hquiet : ∀ i, (p.calls i).inProgress = false) :
    (∀ key cell, p.store.get key = some cell → ∃ e, cell.expiresAt = some e) ↔
      AllSteps (Pool.act throttleStep) (fun p a => ¬ Abandons p a) (start .empty request) as := by
  have hstart : Paid (start .empty request) :=
    ⟨fun i key he => (Option.some_ne_none key he.symm).elim,
      fun key ⟨cell, hk, _⟩ => (Option.some_ne_none cell hk.symm).elim⟩
  have howes (i : Id) (key : String) : (p.calls i).owes ≠ some key := by
    have hi := hquiet i
    revert hi
    cases p.calls i with
    | expiring params current => exact fun hi => by cases hi
    | _ => simp [IncrementCall.owes]
  have hdichotomy := exec_dichotomy (M := fun _ _ => True) (B := Stuck)
    (fun p a q hp hn hstep => Paid.act hp hn hstep)
    (fun p a q hp _ hn hstep => Paid.stuck hp (not_not.mp hn) hstep)
    (fun p a q hp hstep => Stuck.act hp hstep) hstart (allSteps_of_forall fun _ _ _ => trivial) h
  constructor
  · intro hall
    rcases hdichotomy with ⟨hsteps, -⟩ | ⟨-, key, ⟨cell, hk, he⟩, -⟩
    · exact hsteps
    · obtain ⟨e, he'⟩ := hall key cell
        (Counters.get_eq_some.mpr ⟨hk, Counter.live_of_none he⟩)
      rw [he] at he'
      cases he'
  · intro hsteps key cell hg
    rcases hdichotomy with ⟨-, hpaid⟩ | ⟨hnot, -⟩
    · by_contra hnone
      have he : cell.expiresAt = none := Option.eq_none_iff_forall_ne_some.mpr fun e he =>
        hnone ⟨e, he⟩
      obtain ⟨i, hi⟩ := hpaid.owner key ⟨cell, (Counters.get_eq_some.mp hg).1, he⟩
      exact howes i key ((hi i).mpr rfl)
    · exact absurd hsteps hnot

end Runs

/-- One request, whose instance crashes once it has counted the hit. -/
def oneRequest : Unit → IncrementParams := fun _ => ⟨"client", 60000, 100, 60000⟩

def crash : List (Unit × Turn) := [((), ⟨0, .completes⟩), ((), ⟨0, .stops false⟩)]

theorem crash_locks_out : ¬ ∀ (Id : Type) [DecidableEq Id] (request : Id → IncrementParams)
    (as : List (Id × Turn)) (p : Pool Redis IncrementCall Id),
      exec (Pool.act throttleStep) (start .empty request) as = some p →
      (∀ i, (p.calls i).inProgress = false) →
      ∀ key cell, p.store.get key = some cell → ∃ e, cell.expiresAt = some e := by
  intro h
  obtain ⟨e, he⟩ := h Unit oneRequest crash _ rfl (fun _ => rfl) "client" (.first none) rfl
  cases he

theorem expiry_after_crash : ∃ p,
    exec (Pool.act throttleStep) (start .empty oneRequest) crash = some p ∧
      ((∀ key cell, p.store.get key = some cell → ∃ e, cell.expiresAt = some e) ↔
        AllSteps (Pool.act throttleStep) (fun p a => ¬ Abandons p a) (start .empty oneRequest)
          crash) :=
  ⟨_, rfl, expiry_set_iff oneRequest crash _ rfl fun _ => rfl⟩

end ApiGateway
