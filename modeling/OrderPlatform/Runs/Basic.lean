import Mathlib.Logic.Function.Basic

/-! # Runs of a partial step function

A system is a partial step function on states; a run executes a list of actions.
Invariants are lifted from one step to whole runs, either unconditionally or for
runs whose steps all meet a condition on the state before the step.
-/

namespace Runs

variable {σ α : Type*} (step : σ → α → Option σ)

/-- Execute a list of actions; `none` when one of them is not enabled. -/
def exec : σ → List α → Option σ
  | s, [] => some s
  | s, a :: as => (step s a).bind fun t => exec t as

/-- Every action of the run meets the condition in the state before it. -/
def AllSteps (C : σ → α → Prop) : σ → List α → Prop
  | _, [] => True
  | s, a :: as => C s a ∧ ∀ t, step s a = some t → AllSteps C t as

instance AllSteps.decidable (C : σ → α → Prop) [∀ s a, Decidable (C s a)] :
    ∀ s as, Decidable (AllSteps step C s as)
  | _, [] => inferInstanceAs (Decidable True)
  | s, a :: as =>
    have := fun t => AllSteps.decidable C t as
    inferInstanceAs (Decidable (C s a ∧ ∀ t ∈ step s a, AllSteps step C t as))

/-- The property holds in every state the run passes through, the first included. -/
def Always (P : σ → Prop) (s : σ) (as : List α) : Prop :=
  ∀ pre, pre <+: as → ∀ t, exec step s pre = some t → P t

variable {step} {s t u : σ} {a : α} {as bs : List α}

@[simp] theorem exec_nil : exec step s [] = some s := rfl

theorem exec_cons : exec step s (a :: as) = (step s a).bind fun t => exec step t as := rfl

theorem exec_cons_eq_some :
    exec step s (a :: as) = some t ↔ ∃ u, step s a = some u ∧ exec step u as = some t := by
  simp [exec_cons, Option.bind_eq_some_iff]

theorem exec_append :
    exec step s (as ++ bs) = (exec step s as).bind fun t => exec step t bs := by
  induction as generalizing s with
  | nil => rfl
  | cons a as ih =>
    rw [List.cons_append, exec_cons, exec_cons, Option.bind_assoc]
    exact Option.bind_congr fun u _ => ih

theorem exists_exec (h : ∀ s a, ∃ t, step s a = some t) (s : σ) (as : List α) :
    ∃ t, exec step s as = some t := by
  induction as generalizing s with
  | nil => exact ⟨s, rfl⟩
  | cons a as ih =>
    obtain ⟨u, hu⟩ := h s a
    obtain ⟨t, ht⟩ := ih u
    exact ⟨t, exec_cons_eq_some.mpr ⟨u, hu, ht⟩⟩

@[simp] theorem allSteps_nil (C : σ → α → Prop) : AllSteps step C s [] := trivial

theorem allSteps_cons {C : σ → α → Prop} (h : step s a = some t) :
    AllSteps step C s (a :: as) ↔ C s a ∧ AllSteps step C t as := by
  simp [AllSteps, h]

theorem allSteps_of_forall {C : σ → α → Prop} (h : ∀ a ∈ as, ∀ s, C s a) :
    AllSteps step C s as := by
  induction as generalizing s with
  | nil => trivial
  | cons a as ih =>
    exact ⟨h a List.mem_cons_self s, fun _ _ => ih fun b hb => h b (List.mem_cons_of_mem _ hb)⟩

theorem AllSteps.of_append {C : σ → α → Prop} (h : AllSteps step C s (as ++ bs)) :
    AllSteps step C s as := by
  induction as generalizing s with
  | nil => trivial
  | cons a as ih => exact ⟨h.1, fun t ht => ih (h.2 t ht)⟩

theorem AllSteps.and {C D : σ → α → Prop} (h : AllSteps step C s as) (h' : AllSteps step D s as) :
    AllSteps step (fun s a => C s a ∧ D s a) s as := by
  induction as generalizing s with
  | nil => trivial
  | cons a as ih => exact ⟨⟨h.1, h'.1⟩, fun t ht => ih (h.2 t ht) (h'.2 t ht)⟩

/-- A run of a machine that carries more along is a run of the machine below it. -/
theorem AllSteps.of_map {σ' : Type*} {step' : σ' → α → Option σ'} {C : σ → α → Prop} {π : σ' → σ}
    (hπ : ∀ s a t, step (π s) a = some t → ∃ s', step' s a = some s' ∧ π s' = t) {s : σ'}
    (h : AllSteps step' (fun s a => C (π s) a) s as) : AllSteps step C (π s) as := by
  induction as generalizing s with
  | nil => trivial
  | cons a as ih =>
    refine ⟨h.1, fun t ht => ?_⟩
    obtain ⟨s', hs', rfl⟩ := hπ s a t ht
    exact ih (h.2 s' hs')

section Invariants

variable {I : σ → Prop} {C : σ → α → Prop}

/-- An invariant kept by every step that meets the condition holds after the run. -/
theorem exec_invariant_of_allSteps
    (keep : ∀ s a t, I s → C s a → step s a = some t → I t) (hs : I s)
    (hC : AllSteps step C s as) (h : exec step s as = some t) : I t := by
  induction as generalizing s with
  | nil => cases h; exact hs
  | cons a as ih =>
    obtain ⟨u, hu, h⟩ := exec_cons_eq_some.mp h
    exact ih (keep _ _ _ hs hC.1 hu) (hC.2 u hu) h

theorem exec_invariant (keep : ∀ s a t, I s → step s a = some t → I t) (hs : I s)
    (h : exec step s as = some t) : I t := by
  induction as generalizing s with
  | nil => cases h; exact hs
  | cons a as ih =>
    obtain ⟨u, hu, h⟩ := exec_cons_eq_some.mp h
    exact ih (keep _ _ _ hs hu) h

/-- A reflexive and transitive relation that every step respects links both ends of a run. -/
theorem exec_rel {R : σ → σ → Prop} (refl : ∀ s, R s s)
    (trans : ∀ s t u, R s t → R t u → R s u)
    (keep : ∀ s a t, step s a = some t → R s t)
    (h : exec step s as = some t) : R s t := by
  induction as generalizing s with
  | nil => cases h; exact refl _
  | cons a as ih =>
    obtain ⟨u, hu, h⟩ := exec_cons_eq_some.mp h
    exact trans _ _ _ (keep _ _ _ hu) (ih h)

/--
A run either meets the condition throughout and keeps the invariant, or has a step that
does not and ends in a state of `B`, which no later step leaves.
-/
theorem exec_dichotomy {B : σ → Prop} {M : σ → α → Prop}
    (keep : ∀ s a t, I s → C s a → step s a = some t → I t)
    (break_ : ∀ s a t, I s → M s a → ¬ C s a → step s a = some t → B t)
    (stay : ∀ s a t, B s → step s a = some t → B t) (hs : I s)
    (hM : AllSteps step M s as) (h : exec step s as = some t) :
    (AllSteps step C s as ∧ I t) ∨ (¬ AllSteps step C s as ∧ B t) := by
  induction as generalizing s with
  | nil => cases h; exact Or.inl ⟨trivial, hs⟩
  | cons a as ih =>
    obtain ⟨u, hu, h⟩ := exec_cons_eq_some.mp h
    simp only [allSteps_cons hu]
    by_cases hC : C s a
    · rcases ih (keep _ _ _ hs hC hu) (hM.2 u hu) h with ⟨hA, hI⟩ | ⟨hA, hB⟩
      · exact Or.inl ⟨⟨hC, hA⟩, hI⟩
      · exact Or.inr ⟨fun hn => hA hn.2, hB⟩
    · exact Or.inr ⟨fun hn => hC hn.1,
        exec_invariant (fun s a t => stay s a t) (break_ _ _ _ hs hM.1 hC hu) h⟩

theorem AllSteps.of_invariant {D : σ → α → Prop}
    (keep : ∀ s a t, I s → C s a → step s a = some t → I t)
    (imp : ∀ s a, I s → C s a → D s a) (hs : I s) (hC : AllSteps step C s as) :
    AllSteps step D s as := by
  induction as generalizing s with
  | nil => trivial
  | cons a as ih =>
    exact ⟨imp _ _ hs hC.1, fun u hu => ih (keep _ _ _ hs hC.1 hu) (hC.2 u hu)⟩

theorem always_of_allSteps {P : σ → Prop}
    (keep : ∀ s a t, I s → C s a → step s a = some t → I t) (imp : ∀ s, I s → P s)
    (hs : I s) (hC : AllSteps step C s as) : Always step P s as := by
  rintro pre ⟨post, rfl⟩ t ht
  exact imp _ (exec_invariant_of_allSteps keep hs hC.of_append ht)

theorem Always.tail {P : σ → Prop} (h : Always step P s (a :: as)) (hu : step s a = some u) :
    Always step P u as := by
  rintro pre hp t ht
  exact h (a :: pre) (List.cons_prefix_cons.mpr ⟨rfl, hp⟩) t (exec_cons_eq_some.mpr ⟨u, hu, ht⟩)

/-- What holds in every state of a run holds in the state each of its steps leads to. -/
theorem Always.allSteps {P : σ → Prop} (h : Always step P s as) :
    AllSteps step (fun s a => ∀ t, step s a = some t → P t) s as := by
  induction as generalizing s with
  | nil => trivial
  | cons a as ih =>
    refine ⟨fun t ht => h [a] ⟨as, rfl⟩ t ?_, fun t ht => ih (h.tail ht)⟩
    simp [exec_cons, ht]

/--
When a step that misses the condition is itself visible, a property holds in every state
of the run exactly when every step meets the condition.
-/
theorem always_iff_allSteps {P : σ → Prop}
    (keep : ∀ s a t, I s → C s a → step s a = some t → I t) (imp : ∀ s, I s → P s)
    (break_ : ∀ s a t, I s → ¬ C s a → step s a = some t → ¬ P t)
    (hs : I s) (h : exec step s as = some t) :
    Always step P s as ↔ AllSteps step C s as := by
  constructor
  · intro hP
    induction as generalizing s with
    | nil => trivial
    | cons a as ih =>
      obtain ⟨u, hu, h⟩ := exec_cons_eq_some.mp h
      have hC : C s a := by
        by_contra hC
        exact break_ _ _ _ hs hC hu (hP [a] ⟨as, rfl⟩ u (by simp [exec_cons, hu]))
      exact (allSteps_cons hu).mpr ⟨hC, ih (keep _ _ _ hs hC hu) h (hP.tail hu)⟩
  · exact always_of_allSteps keep imp hs

end Invariants

end Runs
