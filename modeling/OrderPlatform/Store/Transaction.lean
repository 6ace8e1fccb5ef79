import Mathlib.Logic.Function.Basic

/-! # Transactions with statements outside their manager

A transaction runs statements through its manager on a view that becomes durable at
commit and is dropped when a statement throws. A statement that bypasses the manager
commits on its own at once. Only transactions without such statements are atomic at
every failure point.
-/

namespace Store

variable {L D : Type*}

inductive Stmt (L D : Type*) where
  | managed (label : L) (write : D → Option D)
  | direct (label : L) (write : D → D)

def Stmt.Managed : Stmt L D → Prop
  | .managed _ _ => True
  | .direct _ _ => False

variable [DecidableEq L]

/--
Run statements on the durable data `d` and the transaction's view `v`, up to the first
failure; the view is `none` when a statement threw.
-/
def runStmts (failAt : Option L) : List (Stmt L D) → D → D → D × Option D
  | [], d, v => (d, some v)
  | .managed l f :: body, d, v =>
    if failAt = some l then (d, none)
    else match f v with
      | none => (d, none)
      | some v' => runStmts failAt body d v'
  | .direct l f :: body, d, v =>
    if failAt = some l then (d, none) else runStmts failAt body (f d) (f v)

/-- Run a transaction: the data it leaves behind, and the committed view unless it threw. -/
def transaction (failAt : Option L) (commit : L) (body : List (Stmt L D)) (d : D) :
    D × Option D :=
  match runStmts failAt body d d with
  | (d', none) => (d', none)
  | (d', some v) => if failAt = some commit then (d', none) else (v, some v)

/-- What the statements write when none of them fails; `none` when one throws. -/
def writes : List (Stmt L D) → D → Option D
  | [], d => some d
  | .managed _ f :: body, d => (f d).bind (writes body)
  | .direct _ f :: body, d => writes body (f d)

def directWrites : List (Stmt L D) → D → D
  | [], d => d
  | .managed _ _ :: body, d => directWrites body d
  | .direct _ f :: body, d => directWrites body (f d)

variable {failAt : Option L} {commit : L} {body : List (Stmt L D)} {d v d' : D}

omit [DecidableEq L] in
theorem directWrites_of_managed (h : ∀ st ∈ body, st.Managed) : directWrites body d = d := by
  induction body with
  | nil => rfl
  | cons st body ih =>
    cases st with
    | managed l f => exact ih fun st hst => h st (List.mem_cons_of_mem _ hst)
    | direct l f => exact (h _ List.mem_cons_self).elim

theorem runStmts_fst (failAt : Option L) (body : List (Stmt L D)) (d v : D) :
    ∃ done, done <+: body ∧ (runStmts failAt body d v).1 = directWrites done d := by
  induction body generalizing d v with
  | nil => exact ⟨[], List.prefix_rfl, rfl⟩
  | cons st body ih =>
    cases st with
    | managed l f =>
      simp only [runStmts]
      split
      · exact ⟨[], List.nil_prefix, rfl⟩
      · split
        · exact ⟨[], List.nil_prefix, rfl⟩
        · obtain ⟨done, hp, he⟩ := ih d ‹D›
          exact ⟨_ :: done, List.cons_prefix_cons.mpr ⟨rfl, hp⟩, he⟩
    | direct l f =>
      simp only [runStmts]
      split
      · exact ⟨[], List.nil_prefix, rfl⟩
      · obtain ⟨done, hp, he⟩ := ih (f d) (f v)
        exact ⟨_ :: done, List.cons_prefix_cons.mpr ⟨rfl, hp⟩, he⟩

theorem writes_of_runStmts {v' : D} (h : (runStmts failAt body d v).2 = some v') :
    writes body v = some v' := by
  induction body generalizing d v with
  | nil => exact h
  | cons st body ih =>
    cases st with
    | managed l f =>
      simp only [runStmts] at h
      split at h
      · cases h
      · split at h
        · cases h
        · rename_i u hu
          simp only [writes, hu, Option.bind_some]
          exact ih h
    | direct l f =>
      simp only [runStmts] at h
      split at h
      · cases h
      · exact ih h

theorem transaction_cases (failAt : Option L) (commit : L) (body : List (Stmt L D)) (d : D) :
    (∃ d', (runStmts failAt body d d).1 = d' ∧ transaction failAt commit body d = (d', none)) ∨
      ∃ v, writes body d = some v ∧ transaction failAt commit body d = (v, some v) := by
  unfold transaction
  rcases hr : runStmts failAt body d d with ⟨d', _ | v⟩
  · exact Or.inl ⟨d', rfl, rfl⟩
  · by_cases hc : failAt = some commit
    · exact Or.inl ⟨d', rfl, by simp [hc]⟩
    · exact Or.inr ⟨v, writes_of_runStmts (congrArg Prod.snd hr), by simp [hc]⟩

/-- A transaction whose statements all use its manager commits everything or leaves nothing. -/
theorem transaction_allOrNone (h : ∀ st ∈ body, st.Managed) :
    transaction failAt commit body d = (d, none) ∨
      ∃ v, writes body d = some v ∧ transaction failAt commit body d = (v, some v) := by
  rcases transaction_cases failAt commit body d with ⟨d', hd, ht⟩ | ht
  · obtain ⟨done, hp, he⟩ := runStmts_fst failAt body d d
    rw [directWrites_of_managed fun st hst => h st (hp.subset hst), hd] at he
    exact Or.inl (he ▸ ht)
  · exact Or.inr ht

end Store
