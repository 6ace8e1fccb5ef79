import Mathlib.Data.Nat.Notation
import Mathlib.Data.Option.Basic

/-! # Rows written back whole

A write names values for some columns of a row. A log of writes gives each column the value
of the last write that names it. A writer who lays a write over a copy and stores the whole
copy keeps to the log exactly if the copy agrees with the row wherever the write is silent.
-/

namespace Store

variable {γ β : Type*}

/-- A write: the columns it names, with their values. -/
abbrev Write (γ β : Type*) := γ → Option β

/-- The values of the last writes that name each column, over the initial ones. -/
def lastWritten (initial : γ → β) (log : List (Write γ β)) (c : γ) : β :=
  (log.reverse.findSome? fun w => w c).getD (initial c)

def overlay (w : Write γ β) (copy : γ → β) (c : γ) : β := (w c).getD (copy c)

variable {initial row copy : γ → β} {log : List (Write γ β)} {w : Write γ β} {c : γ}

@[simp] theorem lastWritten_nil : lastWritten initial [] = initial := rfl

theorem lastWritten_concat :
    lastWritten initial (log ++ [w]) = overlay w (lastWritten initial log) := by
  funext c
  simp only [lastWritten, overlay, List.reverse_concat, List.findSome?_cons]
  cases w c <;> rfl

@[simp] theorem overlay_overlay : overlay w (overlay w copy) = overlay w copy := by
  funext c
  unfold overlay
  cases w c <;> rfl

theorem overlay_eq_iff : overlay w copy = overlay w row ↔ ∀ c, w c = none → copy c = row c := by
  constructor
  · intro h c hc
    have := congrFun h c
    simpa [overlay, hc] using this
  · intro h
    funext c
    unfold overlay
    cases hc : w c with
    | none => exact h c hc
    | some v => rfl

/-- A whole copy written back follows the log exactly if it agrees with the row elsewhere. -/
theorem overlay_eq_lastWritten_iff (h : row = lastWritten initial log) :
    overlay w copy = lastWritten initial (log ++ [w]) ↔ ∀ c, w c = none → copy c = row c := by
  rw [lastWritten_concat, ← h, overlay_eq_iff]

end Store
