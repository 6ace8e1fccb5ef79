import Mathlib.Data.Nat.Notation
import Mathlib.Logic.Function.Basic

/-! # Caches beside a source

A cache holds entries under keys, and a source gives each thing cached the entry it has now.
An entry is filled from the source, deleted, or expires on its own. A cache is coherent when
every entry it holds under the key of a thing is the source's. What a change of the source
asks of the things whose keys are not deleted with it is that those in use keep their entry.
-/

namespace Store

/-- The entries that have not expired. -/
abbrev Cache (κ ε : Type*) := κ → Option ε

namespace Cache

variable {ι κ ε : Type*}

def empty : Cache κ ε := fun _ => none

def set [DecidableEq κ] (c : Cache κ ε) (k : κ) (e : ε) : Cache κ ε := Function.update c k (some e)

def del (c : Cache κ ε) (p : κ → Bool) : Cache κ ε := fun k => if p k then none else c k

def Coherent (key : ι → κ) (source : ι → Option ε) (c : Cache κ ε) : Prop :=
  ∀ i e, c (key i) = some e → source i = some e

variable {key : ι → κ} {source source' : ι → Option ε} {c : Cache κ ε} {k l : κ} {e : ε}
  {p q : κ → Bool}

@[simp] theorem set_self [DecidableEq κ] : c.set k e k = some e := by simp [set]

theorem set_of_ne [DecidableEq κ] (h : l ≠ k) : c.set k e l = c l := by simp [set, h]

theorem del_eq_some : c.del p k = some e ↔ p k = false ∧ c k = some e := by
  unfold del
  cases p k <;> simp

/-- What was set under a key that is deleted does not matter. -/
theorem del_set [DecidableEq κ] (h : p k = true) : (c.set k e).del p = c.del p := by
  funext l
  by_cases hl : l = k
  · subst hl
    simp [del, h]
  · simp [del, set_of_ne hl]

theorem del_del : (c.del p).del q = c.del fun k => p k || q k := by
  funext k
  cases hp : p k <;> cases hq : q k <;> simp [del, hp, hq]

/-- Deleting the keys in use deletes as much as deleting all of them. -/
theorem del_live : (c.del fun k => p k && (c k).isSome) = c.del p := by
  funext k
  cases hc : c k with
  | none => simp [del, hc]
  | some e => cases hp : p k <;> simp [del, hc, hp]

theorem coherent_empty : Coherent key source empty := by
  rintro i e ⟨⟩

theorem Coherent.set [DecidableEq κ] (h : Coherent key source c)
    (he : ∀ i, key i = k → source i = some e) : Coherent key source (c.set k e) := by
  intro i e' hc
  by_cases hik : key i = k
  · rw [hik, set_self] at hc
    exact (he i hik).trans hc
  · rw [set_of_ne hik] at hc
    exact h i e' hc

theorem Coherent.del (h : Coherent key source c) (p : κ → Bool) : Coherent key source (c.del p) :=
  fun i e hc => h i e (del_eq_some.mp hc).2

/-- A change of the source leaves the cache coherent exactly if no key in use is missed. -/
theorem Coherent.change_iff (h : Coherent key source c) :
    Coherent key source' (c.del p) ↔
      ∀ i, p (key i) = false → c (key i) ≠ none → source' i = source i := by
  constructor
  · intro h' i hp hc
    obtain ⟨e, he⟩ := Option.ne_none_iff_exists'.mp hc
    rw [h i e he, h' i e (del_eq_some.mpr ⟨hp, he⟩)]
  · intro hkeep i e hc
    obtain ⟨hp, he⟩ := del_eq_some.mp hc
    rw [hkeep i hp (by simp [he]), h i e he]

theorem Coherent.of_agree (h : Coherent key source c)
    (hs : ∀ i, c (key i) ≠ none → source' i = source i) : Coherent key source' c := by
  intro i e hc
  rw [hs i (by simp [hc]), h i e hc]

end Cache

end Store
