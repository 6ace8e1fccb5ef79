import Mathlib.Data.List.Induction
import Mathlib.Data.List.Nodup

/-! # Performing each key at most once

A performer that receives requests with a key carries out the first accepted request of
each key and no other.
-/

namespace Store

variable {α κ : Type*} [DecidableEq κ] (key : α → κ) (accepted : α → Bool)

def performOnce (done : List α) (a : α) : List α :=
  if accepted a ∧ ∀ d ∈ done, key d ≠ key a then done ++ [a] else done

/-- The requests that were carried out. -/
def performed (requests : List α) : List α := requests.foldl (performOnce key accepted) []

variable {key accepted} {done requests more : List α} {a : α}

theorem performed_append : performed key accepted (requests ++ more) =
    more.foldl (performOnce key accepted) (performed key accepted requests) :=
  List.foldl_append

theorem performed_concat : performed key accepted (requests ++ [a]) =
    if accepted a ∧ ∀ d ∈ performed key accepted requests, key d ≠ key a then
      performed key accepted requests ++ [a]
    else performed key accepted requests := by
  rw [performed_append, List.foldl_cons, List.foldl_nil, performOnce]

theorem mem_performed (h : a ∈ performed key accepted requests) :
    a ∈ requests ∧ accepted a = true := by
  induction requests using List.reverseRecOn with
  | nil => cases h
  | append_singleton requests b ih =>
    rw [performed_concat] at h
    split at h
    · rename_i hb
      rcases List.mem_append.mp h with h | h
      · exact ⟨List.mem_append_left _ (ih h).1, (ih h).2⟩
      · obtain rfl := List.mem_singleton.mp h
        exact ⟨by simp, hb.1⟩
    · exact ⟨List.mem_append_left _ (ih h).1, (ih h).2⟩

/-- The key of every accepted request has been carried out. -/
theorem exists_performed (h : a ∈ requests) (ha : accepted a = true) :
    ∃ d ∈ performed key accepted requests, key d = key a := by
  induction requests using List.reverseRecOn with
  | nil => cases h
  | append_singleton requests b ih =>
    rw [performed_concat]
    rcases List.mem_append.mp h with h | h
    · obtain ⟨d, hd, hk⟩ := ih h
      split
      · exact ⟨d, List.mem_append_left _ hd, hk⟩
      · exact ⟨d, hd, hk⟩
    · obtain rfl := List.mem_singleton.mp h
      split
      · exact ⟨a, by simp, rfl⟩
      · rename_i hn
        push Not at hn
        exact hn ha

/-- Of accepted requests with distinct keys, those whose key is new are carried out. -/
theorem foldl_performOnce (hn : (requests.map key).Nodup)
    (ha : ∀ a ∈ requests, accepted a = true) :
    requests.foldl (performOnce key accepted) done =
      done ++ requests.filter fun a => ∀ d ∈ done, key d ≠ key a := by
  induction requests generalizing done with
  | nil => simp
  | cons a requests ih =>
    obtain ⟨hna, hn⟩ := List.nodup_cons.mp hn
    have ha' := ha a List.mem_cons_self
    rw [List.foldl_cons, ih hn fun b hb => ha b (List.mem_cons_of_mem _ hb)]
    by_cases hk : ∀ d ∈ done, key d ≠ key a
    · have hother : ∀ b ∈ requests, key a ≠ key b := fun b hb he =>
        hna (he ▸ List.mem_map_of_mem hb)
      rw [performOnce, if_pos ⟨ha', hk⟩, List.filter_cons_of_pos (by simpa using hk),
        List.append_assoc, List.singleton_append]
      congr 2
      apply List.filter_congr
      intro b hb
      simp [or_imp, forall_and, hother b hb]
    · rw [performOnce, if_neg fun h => hk h.2, List.filter_cons_of_neg (by simpa using hk)]

end Store
