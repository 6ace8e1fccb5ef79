import Mathlib.Data.Nat.Notation
import OrderPlatform.Store.Table

/-! # Tables whose rows expire

A row counts until its expiry. A table remembers the marks made in it when a key has a row
that counts exactly while a mark of the key is no older than the window.
-/

namespace Store

variable {α κ : Type*} [DecidableEq κ] (key : α → κ) (expiresAt : α → ℕ)

/-- The key has a row that has not expired. -/
def Fresh (t : List α) (k : κ) (now : ℕ) : Prop :=
  ∃ a, lookup key k t = some a ∧ now ≤ expiresAt a

/-- The table without the first row of a key. -/
def without (k : κ) (t : List α) : List α := t.eraseP fun a => key a = k

/-- From a time on, the keys with a row that counts are those marked within the window. -/
structure Remembers (window since : ℕ) (t : List α) (marked : κ → ℕ → Prop) : Prop where
  nodup : (t.map key).Nodup
  fresh_iff : ∀ k now, since ≤ now →
    (Fresh key expiresAt t k now ↔ ∃ made, marked k made ∧ now ≤ made + window)

section Rows

variable {key} {k l : κ} {t : List α}

theorem lookup_without_of_ne (h : l ≠ k) : lookup key l (without key k t) = lookup key l t := by
  induction t with
  | nil => rfl
  | cons a t ih =>
    by_cases ha : key a = k
    · rw [without, List.eraseP_cons_of_pos (by simpa using ha), lookup_cons,
        if_neg fun he => h (he.symm.trans ha)]
    · have hc : without key k (a :: t) = a :: without key k t :=
        List.eraseP_cons_of_neg (by simpa using ha)
      rw [hc, lookup_cons, lookup_cons, ih]

theorem nodup_without (h : (t.map key).Nodup) : ((without key k t).map key).Nodup :=
  h.sublist (List.eraseP_sublist.map key)

theorem lookup_without (h : (t.map key).Nodup) : lookup key k (without key k t) = none := by
  induction t with
  | nil => rfl
  | cons a t ih =>
    rw [List.map_cons, List.nodup_cons] at h
    by_cases ha : key a = k
    · rw [without, List.eraseP_cons_of_pos (by simpa using ha), lookup_eq_none]
      rintro b hb rfl
      exact h.1 (ha ▸ List.mem_map_of_mem hb)
    · have hc : without key k (a :: t) = a :: without key k t :=
        List.eraseP_cons_of_neg (by simpa using ha)
      rw [hc, lookup_cons, if_neg ha, ih h.2]

theorem without_of_none (h : lookup key k t = none) : without key k t = t := by
  refine List.eraseP_of_forall_not fun a ha => ?_
  simpa using lookup_eq_none.mp h a ha

end Rows

section Marks

variable {key expiresAt} {window since now : ℕ} {t : List α} {marked : κ → ℕ → Prop} {k : κ}
  {a : α}

theorem Remembers.nil : Remembers key expiresAt window since ([] : List α) fun _ _ => False where
  nodup := List.nodup_nil
  fresh_iff _ _ _ := ⟨fun ⟨_, h, _⟩ => (nomatch h), fun ⟨_, h, _⟩ => h.elim⟩

theorem Remembers.mono (h : Remembers key expiresAt window since t marked) (hs : since ≤ now) :
    Remembers key expiresAt window now t marked where
  nodup := h.nodup
  fresh_iff k later hl := h.fresh_iff k later (hs.trans hl)

/-- The row of a key that has expired is no longer needed. -/
theorem Remembers.without (h : Remembers key expiresAt window since t marked) (hs : since ≤ now)
    (hk : ¬ Fresh key expiresAt t k now) :
    Remembers key expiresAt window now (without key k t) marked where
  nodup := nodup_without h.nodup
  fresh_iff l later hl := by
    rw [← h.fresh_iff l later (hs.trans hl)]
    by_cases he : l = k
    · subst he
      have hold : ¬ Fresh key expiresAt t l later := fun ⟨b, hb, hlb⟩ => hk ⟨b, hb, hl.trans hlb⟩
      refine iff_of_false ?_ hold
      rintro ⟨b, hb, -⟩
      rw [lookup_without h.nodup] at hb
      cases hb
    · rw [Fresh, lookup_without_of_ne he, Fresh]

/-- A row that expires a window from now stands for a mark made now. -/
theorem Remembers.mark (h : Remembers key expiresAt window now t marked)
    (hk : lookup key k t = none) (ha : key a = k) (hx : expiresAt a = now + window) :
    Remembers key expiresAt window now (t ++ [a]) fun l made =>
      marked l made ∨ k = l ∧ now = made where
  nodup := by
    subst ha
    exact nodup_map_concat h.nodup (lookup_eq_none.mp hk)
  fresh_iff l later hl := by
    have hmade : (∃ made, (marked l made ∨ k = l ∧ now = made) ∧ later ≤ made + window) ↔
        Fresh key expiresAt t l later ∨ k = l ∧ later ≤ now + window := by
      rw [h.fresh_iff l later hl]
      constructor
      · rintro ⟨made, hm | ⟨rfl, rfl⟩, hw⟩
        · exact Or.inl ⟨made, hm, hw⟩
        · exact Or.inr ⟨rfl, hw⟩
      · rintro (⟨made, hm, hw⟩ | ⟨rfl, hw⟩)
        · exact ⟨made, Or.inl hm, hw⟩
        · exact ⟨now, Or.inr ⟨rfl, rfl⟩, hw⟩
    rw [hmade, Fresh, lookup_append, ha, Fresh]
    by_cases he : k = l
    · subst he
      simp [hk, hx]
    · simp [he]

end Marks

end Store
