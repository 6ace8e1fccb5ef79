import Mathlib.Data.List.Nodup
import Mathlib.Data.List.Sort

/-! # Tables with a key

A table is a list of rows with a key. Lookups read the first row of a key; updates
rewrite the rows of a key in place and keep every other row.
-/

namespace Store

variable {α κ : Type*} [DecidableEq κ] (key : α → κ)

def lookup (k : κ) (t : List α) : Option α := t.find? fun a => key a = k

def update (k : κ) (f : α → α) (t : List α) : List α :=
  t.map fun a => if key a = k then f a else a

variable {key} {k l : κ} {f : α → α} {t : List α} {a b : α}

@[simp] theorem lookup_nil : lookup key k ([] : List α) = none := rfl

theorem lookup_cons : lookup key k (a :: t) = if key a = k then some a else lookup key k t := by
  by_cases h : key a = k <;> simp [lookup, h]

theorem lookup_eq_some (h : lookup key k t = some a) : a ∈ t ∧ key a = k :=
  ⟨List.mem_of_find?_eq_some h, by simpa using List.find?_some h⟩

theorem lookup_eq_none : lookup key k t = none ↔ ∀ a ∈ t, key a ≠ k := by
  simp [lookup]

theorem lookup_append :
    lookup key k (t ++ [a]) = (lookup key k t).or (if key a = k then some a else none) := by
  by_cases h : key a = k <;> simp [lookup, List.find?_append, h]

theorem lookup_of_mem (hn : (t.map key).Nodup) (ha : a ∈ t) : lookup key (key a) t = some a := by
  induction t with
  | nil => cases ha
  | cons b t ih =>
    rw [List.map_cons, List.nodup_cons] at hn
    rw [lookup_cons]
    rcases List.mem_cons.mp ha with rfl | ha
    · simp
    · have hne : key b ≠ key a := fun h => hn.1 (h ▸ List.mem_map_of_mem ha)
      simp [hne, ih hn.2 ha]

/-- Rows rewritten to rows of the same keys are found in place of them. -/
theorem lookup_map {g : α → α} (hg : ∀ a, key (g a) = key a) :
    lookup key k (t.map g) = (lookup key k t).map g := by
  simp only [lookup, List.find?_map, Function.comp_def, hg]

@[simp] theorem update_nil : update key k f ([] : List α) = [] := rfl

theorem mem_update : b ∈ update key k f t ↔ ∃ a ∈ t, (if key a = k then f a else a) = b := by
  simp [update]

theorem update_of_ne (h : ∀ a ∈ t, key a ≠ k) : update key k f t = t := by
  conv_rhs => rw [← List.map_id t]
  apply List.map_congr_left
  intro a ha
  rw [if_neg (h a ha), id]

@[simp] theorem update_append {s : List α} :
    update key k f (s ++ t) = update key k f s ++ update key k f t := List.map_append

/-- An update keeps the rows of every other key. -/
theorem filter_update_of_ne (hf : ∀ a, key (f a) = key a) (hne : l ≠ k) :
    ((update key k f t).filter fun a => key a = l) = t.filter fun a => key a = l := by
  induction t with
  | nil => rfl
  | cons a t ih =>
    have hc : update key k f (a :: t) = (if key a = k then f a else a) :: update key k f t := rfl
    rw [hc, List.filter_cons, List.filter_cons, ih]
    by_cases h : key a = k
    · have ha : ¬ key a = l := fun he => hne (he.symm.trans h)
      simp only [h, if_true, hf, hne.symm, decide_false, Bool.false_eq_true, if_false]
    · rw [if_neg h]

/-- A row replaced by one that is not of a kind is lost to the kind. -/
theorem filter_update_const {p : α → Bool} (hb : ¬ p b = true) :
    (update key k (fun _ => b) t).filter p = (t.filter p).filter fun a => key a ≠ k := by
  induction t with
  | nil => rfl
  | cons a t ih =>
    have hc : update key k (fun _ => b) (a :: t) =
        (if key a = k then b else a) :: update key k (fun _ => b) t := rfl
    rw [hc, List.filter_cons, ih]
    by_cases hk : key a = k
    · cases hp : p a <;> simp [hk, hb, hp]
    · cases hp : p a <;> simp [hk, hp]

theorem map_update_of_eq {β : Type*} (g : α → β) (hg : ∀ a, key a = k → g (f a) = g a) :
    (update key k f t).map g = t.map g := by
  simp only [update, List.map_map]
  apply List.map_congr_left
  intro a _
  by_cases h : key a = k
  · simp [h, hg a h]
  · simp [h]

/-- A row rewritten to one of the same key is found in place of it. -/
theorem lookup_update (hf : ∀ a, key a = k → key (f a) = k) :
    lookup key l (update key k f t) =
      if l = k then (lookup key k t).map f else lookup key l t := by
  induction t with
  | nil => simp
  | cons a t ih =>
    have hc : update key k f (a :: t) = (if key a = k then f a else a) :: update key k f t := rfl
    rw [hc, lookup_cons, lookup_cons, lookup_cons, ih]
    by_cases hl : l = k
    · subst hl
      by_cases h : key a = l <;> simp [h, hf]
    · by_cases h : key a = k
      · simp [h, hf, hl, Ne.symm hl]
      · simp [h, hl]

theorem lookup_update_self (hf : ∀ a, key (f a) = key a) :
    lookup key k (update key k f t) = (lookup key k t).map f := by
  rw [lookup_update fun a h => (hf a).trans h, if_pos rfl]

theorem filter_eq_nil_of_ne (hk : ∀ a ∈ t, key a = k) (hne : k ≠ l) :
    (t.filter fun a => key a = l) = [] := by
  rw [List.filter_eq_nil_iff]
  intro a ha hl
  exact hne ((hk a ha).symm.trans (of_decide_eq_true hl))

/-- What rewriting a row leaves alone is left alone where only some rows are rewritten. -/
theorem ite_eq_of_eq {β : Type*} {changed : α → Prop} [DecidablePred changed] {g : α → β}
    (hg : ∀ a, g (f a) = g a) (a : α) : g (if changed a then f a else a) = g a := by
  split
  · exact hg a
  · rfl

theorem mem_map_concat {β : Type*} {g : α → β} {i : β} (h : i ∈ t.map g) :
    i ∈ (t ++ [a]).map g := by
  rw [List.map_append]
  exact List.mem_append_left _ h

/-- What holds of every row holds after a row it holds of is appended. -/
theorem forall_mem_concat {P : α → Prop} (h : ∀ b ∈ t, P b) (ha : P a) : ∀ b ∈ t ++ [a], P b :=
  List.forall_mem_append.mpr ⟨h, List.forall_mem_singleton.mpr ha⟩

/-- A row whose value is new to the table keeps the values apart. -/
theorem nodup_map_concat {β : Type*} {g : α → β} (h : (t.map g).Nodup)
    (ha : ∀ b ∈ t, g b ≠ g a) : ((t ++ [a]).map g).Nodup := by
  rw [List.map_append, List.map_singleton]
  refine h.append (List.nodup_singleton _) ?_
  rw [List.disjoint_singleton]
  intro hm
  obtain ⟨b, hb, he⟩ := List.mem_map.mp hm
  exact ha b hb he

/-- A list has at most one element of a kind when no two elements of the kind are related. -/
theorem length_filter_le_one {R : α → α → Prop} {p : α → Bool}
    (h : t.Pairwise R) (hp : ∀ a ∈ t, ∀ b ∈ t, p a = true → p b = true → ¬ R a b) :
    (t.filter p).length ≤ 1 := by
  have hf := h.filter p
  match hl : t.filter p with
  | [] => simp
  | [_] => simp
  | a :: b :: _ =>
    have ha := List.mem_filter.mp (hl ▸ List.mem_cons_self : a ∈ t.filter p)
    have hb := List.mem_filter.mp (hl ▸ List.mem_cons_of_mem _ List.mem_cons_self : b ∈ t.filter p)
    rw [hl] at hf
    exact absurd (List.rel_of_pairwise_cons hf List.mem_cons_self) (hp a ha.1 b hb.1 ha.2 hb.2)

/--
The first `n` rows by creation time; rows created at the same time come in the order the
database happens to rank them.
-/
def oldest (createdAt rank : α → ℕ) (n : ℕ) (t : List α) : List α :=
  (t.insertionSort fun a b =>
    createdAt a < createdAt b ∨ createdAt a = createdAt b ∧ rank a ≤ rank b).take n

section Sorting

variable {R : α → α → Prop} [DecidableRel R] [IsTrans α R]

theorem filter_orderedInsert {l : List α} (hl : l.Pairwise R) (p : α → Bool) :
    (l.orderedInsert R a).filter p =
      if p a then (l.filter p).orderedInsert R a else l.filter p := by
  induction l with
  | nil => cases h : p a <;> simp [h]
  | cons b l ih =>
    obtain ⟨hb, hl⟩ := List.pairwise_cons.mp hl
    by_cases hab : R a b
    · rw [List.orderedInsert_cons_of_le R l hab, List.filter_cons]
      split
      · have hall : ∀ c ∈ (b :: l).filter p, R a c := by
          intro c hc
          rcases List.mem_cons.mp (List.mem_of_mem_filter hc) with rfl | hc
          · exact hab
          · exact Trans.trans hab (hb c hc)
        cases hm : (b :: l).filter p with
        | nil => rfl
        | cons c m => rw [List.orderedInsert_cons_of_le R m (hall c (hm ▸ List.mem_cons_self))]
      · rfl
    · rw [List.orderedInsert_of_not_le R l hab, List.filter_cons, ih hl, List.filter_cons]
      cases p a <;> cases p b <;> simp [hab]

/-- Sorting is stable, so it does not matter whether rows are left out before or after. -/
theorem filter_insertionSort [Std.Total R] (p : α → Bool) (t : List α) :
    (t.insertionSort R).filter p = (t.filter p).insertionSort R := by
  induction t with
  | nil => rfl
  | cons a t ih =>
    rw [List.insertionSort_cons, filter_orderedInsert (List.pairwise_insertionSort R t), ih,
      List.filter_cons]
    split <;> rfl

end Sorting

/-- Where a kind of row comes first, the kind can be picked before or after the cut. -/
theorem filter_take {p : α → Bool} (h : t.Pairwise fun a b => p b = true → p a = true) (n : ℕ) :
    (t.take n).filter p = (t.filter p).take n := by
  induction t generalizing n with
  | nil => simp
  | cons a t ih =>
    obtain ⟨ha, ht⟩ := List.pairwise_cons.mp h
    cases n with
    | zero => simp
    | succ n =>
      by_cases hp : p a = true
      · simp [hp, ih ht]
      · have hnone : ∀ b ∈ t, ¬ p b = true := fun b hb hpb => hp (ha b hb hpb)
        have htake : ∀ b ∈ t.take n, ¬ p b = true := fun b hb => hnone b (List.mem_of_mem_take hb)
        rw [List.take_succ_cons, List.filter_cons_of_neg hp, List.filter_cons_of_neg hp,
          List.filter_eq_nil_iff.mpr hnone, List.filter_eq_nil_iff.mpr htake, List.take_nil]

section Oldest

variable {createdAt rank : α → ℕ} {n : ℕ}

theorem total_older (createdAt rank : α → ℕ) : Std.Total fun a b : α =>
    createdAt a < createdAt b ∨ createdAt a = createdAt b ∧ rank a ≤ rank b :=
  ⟨fun a b => by omega⟩

theorem isTrans_older (createdAt rank : α → ℕ) : IsTrans α fun a b =>
    createdAt a < createdAt b ∨ createdAt a = createdAt b ∧ rank a ≤ rank b :=
  ⟨fun a b c => by omega⟩

theorem pairwise_insertionSort_older (createdAt rank : α → ℕ) (t : List α) :
    (t.insertionSort fun a b =>
      createdAt a < createdAt b ∨ createdAt a = createdAt b ∧ rank a ≤ rank b).Pairwise fun a b =>
      createdAt a < createdAt b ∨ createdAt a = createdAt b ∧ rank a ≤ rank b := by
  have := total_older createdAt rank
  have := isTrans_older createdAt rank
  exact List.pairwise_insertionSort _ t

theorem mem_of_mem_oldest (h : a ∈ oldest createdAt rank n t) : a ∈ t :=
  (List.mem_insertionSort _).mp (List.mem_of_mem_take h)

theorem nodup_map_oldest {β : Type*} {f : α → β} (createdAt rank : α → ℕ) (n : ℕ)
    (h : (t.map f).Nodup) : ((oldest createdAt rank n t).map f).Nodup :=
  (((List.perm_insertionSort _ t).map f).nodup_iff.mpr h).sublist ((List.take_sublist _ _).map f)

/-- A row among the oldest comes after every row that was created before it. -/
theorem mem_prefix_of_oldest {pre post : List α}
    (h : oldest createdAt rank n t = pre ++ b :: post) (ha : a ∈ t)
    (hlt : createdAt a < createdAt b) : a ∈ pre := by
  let R : α → α → Prop := fun a b =>
    createdAt a < createdAt b ∨ createdAt a = createdAt b ∧ rank a ≤ rank b
  have hs : t.insertionSort R = pre ++ b :: (post ++ (t.insertionSort R).drop n) := by
    conv_lhs => rw [← List.take_append_drop n (t.insertionSort R)]
    exact (congrArg (· ++ _) h).trans (List.append_assoc pre (b :: post) _)
  have hp : (pre ++ b :: (post ++ (t.insertionSort R).drop n)).Pairwise R :=
    hs ▸ pairwise_insertionSort_older createdAt rank t
  have hmem : a ∈ pre ++ b :: (post ++ (t.insertionSort R).drop n) :=
    hs ▸ (List.mem_insertionSort R).mpr ha
  rcases List.mem_append.mp hmem with hm | hm
  · exact hm
  rcases List.mem_cons.mp hm with rfl | hm
  · exact absurd hlt (lt_irrefl _)
  · have hr : R b a := List.rel_of_pairwise_cons (List.pairwise_append.mp hp).2.1 hm
    dsimp only [R] at hr
    omega

/-- The oldest rows created before some time are those of the rows created before it. -/
theorem filter_oldest {p : α → Bool}
    (hp : ∀ a b, createdAt a ≤ createdAt b → p b = true → p a = true) (t : List α) :
    (oldest createdAt rank n t).filter p = oldest createdAt rank n (t.filter p) := by
  have := total_older createdAt rank
  have := isTrans_older createdAt rank
  have hs := (pairwise_insertionSort_older createdAt rank t).imp fun {a b} h =>
    hp a b (h.elim le_of_lt fun he => he.1.le)
  rw [oldest, filter_take hs, filter_insertionSort, oldest]

/-- Rows of a kind that none of the oldest is of are among the others. -/
theorem countP_le_of_oldest {p : α → Bool} (h : ∀ a ∈ oldest createdAt rank n t, ¬ p a = true) :
    t.countP p ≤ t.length - n := by
  let R : α → α → Prop := fun a b =>
    createdAt a < createdAt b ∨ createdAt a = createdAt b ∧ rank a ≤ rank b
  have hcut : (t.insertionSort R).countP p =
      ((t.insertionSort R).take n).countP p + ((t.insertionSort R).drop n).countP p := by
    rw [← List.countP_append, List.take_append_drop]
  have hnone : ((t.insertionSort R).take n).countP p = 0 := List.countP_eq_zero.mpr h
  have hrest : ((t.insertionSort R).drop n).countP p ≤ t.length - n := by
    rw [← (List.perm_insertionSort R t).length_eq, ← List.length_drop]
    exact List.countP_le_length
  rw [← (List.perm_insertionSort R t).countP_eq, hcut, hnone, Nat.zero_add]
  exact hrest

/-- `l` is made of the `n` oldest rows of `t`, or of all if there are fewer, in that order. -/
structure OldestOf (createdAt : α → ℕ) (n : ℕ) (t l : List α) : Prop where
  rows : l.Subperm t
  length : l.length = min n t.length
  ordered : l.Pairwise fun a b => createdAt a ≤ createdAt b
  older : ∀ a ∈ l, ∀ b ∈ t, b ∉ l → createdAt a ≤ createdAt b

theorem oldestOf_oldest (createdAt rank : α → ℕ) (n : ℕ) (t : List α) :
    OldestOf createdAt n t (oldest createdAt rank n t) where
  rows := (List.take_sublist _ _).subperm.trans (List.perm_insertionSort _ t).subperm
  length := by rw [oldest, List.length_take, (List.perm_insertionSort _ t).length_eq]
  ordered := ((pairwise_insertionSort_older createdAt rank t).sublist (List.take_sublist _ _)).imp
    fun h => h.elim le_of_lt fun he => he.1.le
  older := by
    intro a ha b hb hbl
    by_contra hlt
    obtain ⟨pre, post, hl⟩ := List.append_of_mem ha
    have hpre := mem_prefix_of_oldest hl hb (not_le.mp hlt)
    exact hbl (hl ▸ List.mem_append_left _ hpre)

end Oldest

end Store
