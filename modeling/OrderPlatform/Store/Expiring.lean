import Mathlib.Data.Nat.Notation
import Mathlib.Logic.Function.Basic

/-! # Keys that expire

A store of keys with a time to live, and the command that sets a key only when it is
not held. A key stays held by its last setter until it expires.
-/

namespace Store

/-- The keys ever set, with the time each expires. -/
abbrev Expiring (κ : Type*) := κ → Option ℕ

variable {κ : Type*} [DecidableEq κ]

def Expiring.held (s : Expiring κ) (k : κ) (now : ℕ) : Bool := (s k).any fun t => now < t

/-- Set a key for `ttl` seconds unless it is held; `none` when it is. -/
def Expiring.setNx (s : Expiring κ) (k : κ) (now ttl : ℕ) : Option (Expiring κ) :=
  if s.held k now then none else some (Function.update s k (some (now + ttl)))

variable {s s' : Expiring κ} {k l : κ} {now ttl : ℕ}

omit [DecidableEq κ] in
theorem Expiring.ne_none_of_held (h : s.held k now = true) : s k ≠ none := by
  intro hn
  simp [held, hn] at h

theorem Expiring.setNx_eq_none : s.setNx k now ttl = none ↔ s.held k now = true := by
  simp [setNx]

theorem Expiring.setNx_eq_some : s.setNx k now ttl = some s' ↔
    s.held k now = false ∧ s' = Function.update s k (some (now + ttl)) := by
  unfold setNx
  split <;> rename_i h
  · simp [h]
  · simp [Bool.eq_false_iff.mpr h, eq_comm]

theorem Expiring.of_setNx (h : s.setNx k now ttl = some s') (hl : s' l ≠ none) :
    l = k ∨ s l ≠ none := by
  unfold setNx at h
  split at h
  · cases h
  · cases h
    by_cases hk : l = k
    · exact Or.inl hk
    · exact Or.inr (by simpa [hk] using hl)

theorem Expiring.held_update {t : ℕ} :
    held (Function.update s k (some t)) k now = decide (now < t) := by
  simp [held]

end Store
