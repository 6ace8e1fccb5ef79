import Mathlib.Algebra.BigOperators.Group.Finset.Basic
import Mathlib.Algebra.Order.BigOperators.Group.Finset
import Mathlib.Data.Fintype.Basic
import Mathlib.Tactic.Abel
import OrderPlatform.Runs.Basic

/-! # Interleaved calls over a shared store

A machine gives the atomic step of a call at each of its program points. A pool runs
any family of calls over one store, one atomic step at a time and in any order. The
proof rule for pools combines an assertion on the store, one on each call, and one on
each pair of calls.
-/

namespace Runs

/-- The atomic step of a call at a program point, given what the environment answers. -/
abbrev Machine (σ κ ι : Type*) := σ → κ → ι → Option (σ × κ)

/-- A shared store together with the program point of every call. -/
structure Pool (σ κ Id : Type*) where
  store : σ
  calls : Id → κ

variable {σ κ ι Id : Type*} [DecidableEq Id]

def Pool.act (M : Machine σ κ ι) (p : Pool σ κ Id) (a : Id × ι) : Option (Pool σ κ Id) :=
  (M p.store (p.calls a.1) a.2).map fun r => ⟨r.1, Function.update p.calls a.1 r.2⟩

/-- Steps of a single call that runs without interruption. -/
def Machine.solo (M : Machine σ κ ι) (p : σ × κ) (x : ι) : Option (σ × κ) := M p.1 p.2 x

variable {M : Machine σ κ ι} {p q : Pool σ κ Id} {i : Id} {x : ι}

theorem Pool.act_eq_some {a : Id × ι} :
    p.act M a = some q ↔ ∃ s k, M p.store (p.calls a.1) a.2 = some (s, k) ∧
      q = ⟨s, Function.update p.calls a.1 k⟩ := by
  simp only [Pool.act, Option.map_eq_some_iff, Prod.exists]
  constructor <;> rintro ⟨s, k, h, rfl⟩ <;> exact ⟨s, k, h, rfl⟩

theorem forall_update {P : κ → Prop} {c : Id → κ} {k : κ} (hk : P k) (h : ∀ j, P (c j)) :
    ∀ j, P (Function.update c i k j) :=
  (Function.forall_update_iff c fun _ => P).mpr ⟨hk, fun j _ => h j⟩

/-- Calls stay pairwise apart when one of them moves to a point apart from all others. -/
theorem apart_update {D : κ → κ → Prop} {c : Id → κ} {k : κ}
    (hc : ∀ j l, j ≠ l → D (c j) (c l)) (hk : ∀ j, j ≠ i → D k (c j) ∧ D (c j) k) :
    ∀ j l, j ≠ l → D (Function.update c i k j) (Function.update c i k l) := by
  intro j l hjl
  by_cases hj : j = i
  · subst hj
    rw [Function.update_self, Function.update_of_ne (Ne.symm hjl)]
    exact (hk l (Ne.symm hjl)).1
  · rw [Function.update_of_ne hj]
    by_cases hl : l = i
    · subst hl
      rw [Function.update_self]
      exact (hk j hj).2
    · rw [Function.update_of_ne hl]
      exact hc j l hjl

/-- A call run without interruption is a run of any pool that contains it. -/
theorem Pool.exec_solo {xs : List ι} {s s' : σ} {k' : κ} {c : Id → κ}
    (h : exec (Machine.solo M) (s, c i) xs = some (s', k')) :
    exec (Pool.act M) ⟨s, c⟩ (xs.map fun x => (i, x)) = some ⟨s', Function.update c i k'⟩ := by
  induction xs generalizing s c with
  | nil =>
    cases h
    simp
  | cons x xs ih =>
    obtain ⟨⟨u, l⟩, hu, h⟩ := exec_cons_eq_some.mp h
    rw [List.map_cons, exec_cons_eq_some]
    refine ⟨_, Pool.act_eq_some.mpr ⟨u, l, hu, rfl⟩, ?_⟩
    simpa using ih (c := Function.update c i l) (by simpa using h)

theorem Pool.exec_replicate {s s' : σ} {k k' : κ} {c : Id → κ} (hi : c i = k)
    (h : ∃ n, exec (Machine.solo M) (s, k) (List.replicate n x) = some (s', k')) :
    ∃ n, exec (Pool.act M) ⟨s, c⟩ (List.replicate n (i, x)) =
      some ⟨s', Function.update c i k'⟩ := by
  subst hi
  obtain ⟨n, hn⟩ := h
  refine ⟨n, ?_⟩
  have := Pool.exec_solo hn
  rwa [List.map_replicate] at this

theorem sum_update [Fintype Id] {A : Type*} [AddCommGroup A] (f : κ → A) (c : Id → κ) (k : κ) :
    ∑ j, f (Function.update c i k j) = ∑ j, f (c j) - f (c i) + f k := by
  have hr : ∑ j ∈ Finset.univ.erase i, f (Function.update c i k j) =
      ∑ j ∈ Finset.univ.erase i, f (c j) :=
    Finset.sum_congr rfl fun j hj => by rw [Function.update_of_ne (Finset.ne_of_mem_erase hj)]
  rw [← Finset.add_sum_erase _ _ (Finset.mem_univ i),
    ← Finset.add_sum_erase _ (fun j => f (c j)) (Finset.mem_univ i), hr,
    Function.update_self]
  abel

/-- A call that takes no step stays where it is. -/
theorem Pool.calls_of_notMem {as : List (Id × ι)} (h : exec (Pool.act M) p as = some q)
    (hi : i ∉ as.map Prod.fst) : q.calls i = p.calls i := by
  induction as generalizing p with
  | nil =>
    cases h
    rfl
  | cons a as ih =>
    obtain ⟨p', hp', h⟩ := exec_cons_eq_some.mp h
    obtain ⟨s, k, -, rfl⟩ := Pool.act_eq_some.mp hp'
    rw [List.map_cons, List.mem_cons, not_or] at hi
    rw [ih h hi.2]
    exact Function.update_of_ne hi.1 ..

/-- Where every step of a call lowers its rank, a call takes no more steps than its rank. -/
theorem Pool.steps_le (rank : κ → ℕ)
    (lowers : ∀ s k x s' k', M s k x = some (s', k') → rank k' < rank k)
    {as : List (Id × ι)} (h : exec (Pool.act M) p as = some q) (i : Id) :
    as.countP (fun a => a.1 = i) + rank (q.calls i) ≤ rank (p.calls i) := by
  induction as generalizing p with
  | nil =>
    cases h
    simp
  | cons a as ih =>
    obtain ⟨p', hp', h⟩ := exec_cons_eq_some.mp h
    obtain ⟨s, k, hM, rfl⟩ := Pool.act_eq_some.mp hp'
    have hrest := ih h
    have hlower := lowers _ _ _ _ _ hM
    dsimp only at hrest
    by_cases hi : a.1 = i
    · subst hi
      simp only [List.countP_cons, decide_true, if_true, Function.update_self] at hrest ⊢
      omega
    · rw [Function.update_of_ne (Ne.symm hi)] at hrest
      simpa [List.countP_cons, hi] using hrest

/-- Where every call that is not done can take a step that lowers its rank, all can be done. -/
theorem Pool.exists_done [Finite Id] (rank : κ → ℕ) (done : κ → Prop)
    (goes : ∀ s k, ¬ done k → ∃ x s' k', M s k x = some (s', k') ∧ rank k' < rank k)
    (p : Pool σ κ Id) :
    ∃ as q, exec (Pool.act M) p as = some q ∧ ∀ i, done (q.calls i) := by
  obtain ⟨_⟩ := nonempty_fintype Id
  induction hn : ∑ i, rank (p.calls i) using Nat.strong_induction_on generalizing p with
  | _ n ih =>
    by_cases hdone : ∀ i, done (p.calls i)
    · exact ⟨[], p, rfl, hdone⟩
    · push Not at hdone
      obtain ⟨i, hi⟩ := hdone
      obtain ⟨x, s, k, hM, hlower⟩ := goes p.store (p.calls i) hi
      have hstep : p.act M (i, x) = some ⟨s, Function.update p.calls i k⟩ :=
        Pool.act_eq_some.mpr ⟨s, k, hM, rfl⟩
      have hsum : ∑ j, rank (Function.update p.calls i k j) < n := by
        rw [← hn]
        refine Finset.sum_lt_sum (fun j _ => ?_) ⟨i, Finset.mem_univ i, by simpa using hlower⟩
        by_cases hj : j = i
        · subst hj
          simpa using hlower.le
        · rw [Function.update_of_ne hj]
      obtain ⟨as, q, has, hq⟩ := ih _ hsum ⟨s, Function.update p.calls i k⟩ rfl
      exact ⟨(i, x) :: as, q, exec_cons_eq_some.mpr ⟨_, hstep, has⟩, hq⟩

/-- An assertion on the store, on every call, and on every pair of distinct calls. -/
structure Pool.Holds (G : σ → Prop) (L : σ → κ → Prop) (D : κ → κ → Prop)
    (p : Pool σ κ Id) : Prop where
  store : G p.store
  call : ∀ i, L p.store (p.calls i)
  apart : ∀ i j, i ≠ j → D (p.calls i) (p.calls j)

/--
A step keeps the assertions of a pool when it keeps the store's and its own, and does not
interfere with those of any other call.
-/
theorem Pool.Holds.act {G : σ → Prop} {L : σ → κ → Prop} {D : κ → κ → Prop} {a : Id × ι}
    (own : ∀ s', ∀ k', G p.store → L p.store (p.calls a.1) →
      M p.store (p.calls a.1) a.2 = some (s', k') → G s' ∧ L s' k')
    (other : ∀ s' k' l, G p.store → L p.store (p.calls a.1) → L p.store l →
      D (p.calls a.1) l → D l (p.calls a.1) →
      M p.store (p.calls a.1) a.2 = some (s', k') → L s' l ∧ D k' l ∧ D l k')
    (hp : p.Holds G L D) (h : p.act M a = some q) : q.Holds G L D := by
  obtain ⟨s, k, hM, rfl⟩ := Pool.act_eq_some.mp h
  obtain ⟨hG, hL⟩ := own s k hp.store (hp.call a.1) hM
  have ho : ∀ j, j ≠ a.1 → L s (p.calls j) ∧ D k (p.calls j) ∧ D (p.calls j) k := fun j hj =>
    other s k _ hp.store (hp.call a.1) (hp.call j) (hp.apart _ _ (Ne.symm hj))
      (hp.apart _ _ hj) hM
  constructor
  · exact hG
  · intro j
    by_cases hj : j = a.1
    · subst hj; simpa using hL
    · simpa [hj] using (ho j hj).1
  · exact apart_update hp.apart fun j hj => (ho j hj).2

end Runs
