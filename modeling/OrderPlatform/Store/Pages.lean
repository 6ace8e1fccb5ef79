import Mathlib.Algebra.Order.Floor.Semifield
import Mathlib.Data.List.Nodup
import Mathlib.Data.List.Pairwise
import Mathlib.Data.List.Sort
import Mathlib.Data.Rat.Floor
import Mathlib.Logic.Equiv.Basic

/-! # Pages of a sorted table

A listing sorts its rows by creation, newest first, and a page shows one window of them. Rows
created at the same time stand in whatever order the database picks for the query at hand. So
the pages show every row once, whatever is picked, just if all rows created at one time lie in
the window of one page and none of them in another's.
-/

namespace Store

/-- The windows of the pages: how many there are, the rows each skips, and those it takes. -/
structure Windows where
  count : ℕ
  skip : ℕ → ℕ
  take : ℕ

/-- A number of rows, as the database rounds it. -/
def rounded (q : ℚ) : ℕ := ⌊q + 1 / 2⌋₊

/-- As many pages of `limit` rows as `total` rows need. -/
def Windows.ofLimit (total : ℕ) (limit : ℚ) : Windows where
  count := ⌈total / limit⌉₊
  skip i := rounded (i * limit)
  take := rounded limit

section Definitions

variable {α κ : Type*} (createdAt : α → ℕ) (key : α → κ)

def newestFirst (rank : κ → ℕ) (rows : List α) : List α :=
  rows.insertionSort fun a b =>
    createdAt b < createdAt a ∨ createdAt b = createdAt a ∧ rank (key a) ≤ rank (key b)

def Windows.page (w : Windows) (i : ℕ) (rows : List α) : List α :=
  (rows.drop (w.skip i)).take w.take

/--
The number of rows created at a time or later. Rows created at `t` stand at the positions
from `since (t + 1)` on and before `since t`.
-/
def since (rows : List α) (t : ℕ) : ℕ := rows.countP fun a => t ≤ createdAt a

/-- The rows created at one time lie in one page's window, and outside every other's. -/
def Windows.Whole (w : Windows) (rows : List α) : Prop :=
  ∀ x ∈ rows, ∃ i < w.count,
    (w.skip i ≤ since createdAt rows (createdAt x + 1) ∧
      since createdAt rows (createdAt x) ≤ w.skip i + w.take) ∧
    ∀ j < w.count, j ≠ i →
      w.skip j + w.take ≤ since createdAt rows (createdAt x + 1) ∨
        since createdAt rows (createdAt x) ≤ w.skip j

/-- No page of `limit` rows ends among rows that were created at one time. -/
def Unsplit (rows : List α) (limit : ℕ) : Prop :=
  ∀ x ∈ rows, ∀ k, k * limit ≤ since createdAt rows (createdAt x + 1) ∨
    since createdAt rows (createdAt x) ≤ k * limit

/-- What a client collects who asks for page 1, 2, … up to the last that the total needs. -/
def allPages {α ε : Type*} (query : ℕ → Except ε (List α × ℕ)) (limit : ℚ) :
    Except ε (List α) := do
  let (_, total) ← query 1
  let pages ← (List.range ⌈total / limit⌉₊).mapM fun i => (query (i + 1)).map Prod.fst
  .ok pages.flatten

/-- The pages show every row once, whatever order each query finds rows of one time in. -/
def Covers {α κ ε : Type*} (query : ℕ → (κ → ℕ) → Except ε (List α × ℕ)) (limit : ℚ)
    (rows : List α) : Prop :=
  ∀ ranks : ℕ → κ → ℕ, ∃ shown,
    allPages (fun page => query page (ranks page)) limit = .ok shown ∧ shown.Perm rows

end Definitions

section Sorted

variable {α κ : Type*} {createdAt : α → ℕ} {key : α → κ} {rank : κ → ℕ} {rows l : List α} {x : α}

/-- In a list where a kind of element comes first, positions tell the kind. -/
theorem getElem_iff_lt_countP {P : α → Bool} (h : l.Pairwise fun a b => P b = true → P a = true)
    {p : ℕ} (hp : p < l.length) : P l[p] = true ↔ p < l.countP P := by
  induction l generalizing p with
  | nil => cases hp
  | cons a l ih =>
    obtain ⟨ha, hl⟩ := List.pairwise_cons.mp h
    by_cases hPa : P a = true
    · rw [List.countP_cons_of_pos hPa]
      cases p with
      | zero => simpa using hPa
      | succ p => simpa using ih hl (Nat.lt_of_succ_lt_succ hp)
    · have hnone : ∀ b ∈ a :: l, ¬ P b = true := by
        intro b hb hPb
        rcases List.mem_cons.mp hb with rfl | hb
        · exact hPa hPb
        · exact hPa (ha b hb hPb)
      rw [List.countP_eq_zero.mpr hnone]
      exact iff_of_false (hnone _ (List.getElem_mem hp)) (Nat.not_lt_zero p)

theorem perm_newestFirst : (newestFirst createdAt key rank rows).Perm rows :=
  List.perm_insertionSort _ rows

theorem pairwise_newestFirst : (newestFirst createdAt key rank rows).Pairwise fun a b =>
    createdAt b < createdAt a ∨ createdAt b = createdAt a ∧ rank (key a) ≤ rank (key b) := by
  let R : α → α → Prop := fun a b =>
    createdAt b < createdAt a ∨ createdAt b = createdAt a ∧ rank (key a) ≤ rank (key b)
  have : Std.Total R := ⟨fun a b => by dsimp only [R]; omega⟩
  have : IsTrans α R := ⟨fun a b c => by dsimp only [R]; omega⟩
  exact List.pairwise_insertionSort R rows

theorem pairwise_createdAt :
    (newestFirst createdAt key rank rows).Pairwise fun a b => createdAt b ≤ createdAt a := by
  refine pairwise_newestFirst.imp ?_
  intro a b h
  omega

/-- In a list sorted by creation, the rows created at a time or later come first. -/
theorem lt_since_iff (hl : l.Pairwise fun a b => createdAt b ≤ createdAt a) (hperm : l.Perm rows)
    {t p : ℕ} (hp : p < l.length) : p < since createdAt rows t ↔ t ≤ createdAt l[p] := by
  have hpre : l.Pairwise fun a b => decide (t ≤ createdAt b) = true →
      decide (t ≤ createdAt a) = true := by
    refine hl.imp ?_
    intro a b hab hb
    simp only [decide_eq_true_eq] at hb ⊢
    omega
  rw [since, ← hperm.countP_eq, ← getElem_iff_lt_countP hpre hp, decide_eq_true_eq]

theorem since_le_length (t : ℕ) : since createdAt rows t ≤ rows.length := List.countP_le_length

/-- A row stands among those created when it was. -/
theorem since_le_position (hl : l.Pairwise fun a b => createdAt b ≤ createdAt a)
    (hperm : l.Perm rows) {p : ℕ} (hp : p < l.length) :
    since createdAt rows (createdAt l[p] + 1) ≤ p ∧ p < since createdAt rows (createdAt l[p]) := by
  rw [← not_lt, lt_since_iff hl hperm hp, lt_since_iff hl hperm hp]
  omega

theorem since_succ_lt (hx : x ∈ rows) :
    since createdAt rows (createdAt x + 1) < since createdAt rows (createdAt x) := by
  have hperm : (newestFirst createdAt id (fun _ => 0) rows).Perm rows := perm_newestFirst
  obtain ⟨p, hp, rfl⟩ := List.mem_iff_getElem.mp (hperm.mem_iff.mpr hx)
  have hpos := since_le_position pairwise_createdAt hperm hp
  exact hpos.1.trans_lt hpos.2

section Orders

variable [DecidableEq κ]

/-- A list sorted by creation is the one some order of the rows of one time gives. -/
theorem exists_rank (hn : (rows.map key).Nodup)
    (hl : l.Pairwise fun a b => createdAt b ≤ createdAt a) (hperm : l.Perm rows) :
    ∃ rank : κ → ℕ, newestFirst createdAt key rank rows = l := by
  have hkeys : (l.map key).Nodup := (hperm.map key).nodup_iff.mpr hn
  let rank : κ → ℕ := (l.map key).idxOf
  let le : α → α → Prop := fun a b =>
    createdAt b < createdAt a ∨ createdAt b = createdAt a ∧ rank (key a) ≤ rank (key b)
  have hsorted : (newestFirst createdAt key rank rows).Pairwise le := pairwise_newestFirst
  refine ⟨rank, List.Perm.eq_of_pairwise ?_ hsorted ?_ (perm_newestFirst.trans hperm.symm)⟩
  · intro a b ha hb hab hba
    have hr : rank (key a) = rank (key b) := by
      dsimp only [le] at hab hba
      omega
    have hal : a ∈ l := hperm.mem_iff.mpr (perm_newestFirst.mem_iff.mp ha)
    have hk : key a = key b := (List.idxOf_inj (List.mem_map_of_mem hal)).mp hr
    exact List.inj_on_of_nodup_map hkeys hal hb hk
  · rw [List.pairwise_iff_getElem] at hl ⊢
    intro p q hp hq hpq
    have hrank (p : ℕ) (hp : p < l.length) : rank (key l[p]) = p := by
      have := hkeys.idxOf_getElem p (by simpa using hp)
      rwa [List.getElem_map] at this
    dsimp only [le]
    rw [hrank p hp, hrank q hq]
    have := hl p q hp hq hpq
    omega

/-- A row can be found at each position that rows created when it was stand at. -/
theorem exists_rank_idxOf [DecidableEq α] (hn : (rows.map key).Nodup) (hx : x ∈ rows) {q : ℕ}
    (hge : since createdAt rows (createdAt x + 1) ≤ q)
    (hlt : q < since createdAt rows (createdAt x)) :
    ∃ rank : κ → ℕ, (newestFirst createdAt key rank rows).idxOf x = q := by
  set l := newestFirst createdAt key (fun _ => 0) rows with hdef
  have hperm : l.Perm rows := perm_newestFirst
  have hsorted : l.Pairwise fun a b => createdAt b ≤ createdAt a := pairwise_createdAt
  have hnl : l.Nodup := hperm.nodup_iff.mpr hn.of_map
  have hq : q < l.length := by
    rw [hperm.length_eq]
    exact hlt.trans_le (since_le_length _)
  have htie : createdAt l[q] = createdAt x := by
    have h1 := (lt_since_iff hsorted hperm hq).mp hlt
    have h2 := (lt_since_iff hsorted hperm hq).not.mp (not_lt.mpr hge)
    omega
  -- the row changes places with the one that stands there
  have hcreated (a : α) : createdAt (Equiv.swap x l[q] a) = createdAt a := by
    rw [Equiv.swap_apply_def]
    split_ifs with h1 h2
    · rw [htie, h1]
    · rw [← htie, h2]
    · rfl
  have hswap : (l.map (Equiv.swap x l[q])).Perm l := by
    have hmem (a : α) (ha : a ∈ l) : Equiv.swap x l[q] a ∈ l := by
      rw [Equiv.swap_apply_def]
      split_ifs
      · exact List.getElem_mem hq
      · exact hperm.mem_iff.mpr hx
      · exact ha
    rw [List.perm_ext_iff_of_nodup (hnl.map (Equiv.injective _)) hnl]
    intro a
    rw [List.mem_map]
    constructor
    · rintro ⟨b, hb, rfl⟩
      exact hmem b hb
    · intro ha
      exact ⟨_, hmem a ha, Equiv.swap_apply_self _ _ _⟩
  have hsorted' : (l.map (Equiv.swap x l[q])).Pairwise fun a b => createdAt b ≤ createdAt a := by
    rw [List.pairwise_map]
    simpa only [hcreated] using hsorted
  obtain ⟨rank, hrank⟩ := exists_rank hn hsorted' (hswap.trans hperm)
  refine ⟨rank, ?_⟩
  have hat := (hnl.map (Equiv.swap x l[q]).injective).idxOf_getElem q (by simpa using hq)
  rwa [List.getElem_map, Equiv.swap_apply_right, ← hrank] at hat

/-- A row is on the page whose window has its position. -/
theorem mem_page_iff [DecidableEq α] {w : Windows} {i : ℕ} (hl : l.Nodup) (hx : x ∈ l) :
    x ∈ w.page i l ↔ w.skip i ≤ l.idxOf x ∧ l.idxOf x < w.skip i + w.take := by
  constructor
  · intro h
    obtain ⟨k, hk, rfl⟩ := List.mem_iff_getElem.mp h
    rw [Windows.page, List.length_take, List.length_drop] at hk
    have hat : (w.page i l)[k] = l[w.skip i + k] := by simp [Windows.page]
    rw [hat, hl.idxOf_getElem]
    omega
  · rintro ⟨hge, hlt⟩
    have hp : l.idxOf x < l.length := List.idxOf_lt_length_iff.mpr hx
    have hk : l.idxOf x - w.skip i < (w.page i l).length := by
      rw [Windows.page, List.length_take, List.length_drop]
      omega
    have hat : (w.page i l)[l.idxOf x - w.skip i] = x := by
      simp [Windows.page, Nat.add_sub_cancel' hge]
    rw [← hat]
    exact List.getElem_mem hk

/-- Pages of one table together are the table just if each row is on exactly one of them. -/
theorem perm_flatMap_iff {n : ℕ} {page : ℕ → List α} (hn : rows.Nodup)
    (hpage : ∀ i, (page i).Nodup ∧ ∀ x ∈ page i, x ∈ rows) :
    ((List.range n).flatMap page).Perm rows ↔ ∀ x ∈ rows, ∃! i, i < n ∧ x ∈ page i := by
  constructor
  · intro hperm x hx
    have hdisjoint := (List.nodup_flatMap.mp (hperm.nodup_iff.mpr hn)).2
    obtain ⟨i, hi, hxi⟩ := List.mem_flatMap.mp (hperm.mem_iff.mpr hx)
    refine ⟨i, ⟨List.mem_range.mp hi, hxi⟩, ?_⟩
    rintro j ⟨hj, hxj⟩
    by_contra hne
    have : Std.Symm (Function.onFun List.Disjoint page) := ⟨fun _ _ h x hx hy => h hy hx⟩
    exact hdisjoint.forall (List.mem_range.mpr hj) hi hne hxj hxi
  · intro h
    have hdisjoint : (List.range n).Pairwise (Function.onFun List.Disjoint page) := by
      refine List.nodup_range.pairwise_of_forall_ne ?_
      intro i hi j hj hne x hxi hxj
      exact hne ((h x ((hpage i).2 x hxi)).unique ⟨List.mem_range.mp hi, hxi⟩
        ⟨List.mem_range.mp hj, hxj⟩)
    have hnodup := List.nodup_flatMap.mpr ⟨fun i _ => (hpage i).1, hdisjoint⟩
    rw [List.perm_ext_iff_of_nodup hnodup hn]
    intro x
    rw [List.mem_flatMap]
    constructor
    · rintro ⟨i, -, hxi⟩
      exact (hpage i).2 x hxi
    · intro hx
      obtain ⟨i, ⟨hi, hxi⟩, -⟩ := h x hx
      exact ⟨i, List.mem_range.mpr hi, hxi⟩

/--
Positions picked in `a`, …, `b - 1`, one for each window, always meet exactly one window just
if one window has all of them and the others have none.
-/
theorem forall_existsUnique_iff {w : Windows} {a b : ℕ} (hab : a < b) (ht : 0 < w.take) :
    (∀ q : ℕ → ℕ, (∀ i, a ≤ q i ∧ q i < b) →
      ∃! i, i < w.count ∧ w.skip i ≤ q i ∧ q i < w.skip i + w.take) ↔
    ∃ i < w.count, (w.skip i ≤ a ∧ b ≤ w.skip i + w.take) ∧
      ∀ j < w.count, j ≠ i → w.skip j + w.take ≤ a ∨ b ≤ w.skip j := by
  constructor
  · intro h
    obtain ⟨i, ⟨hi, hge, hlt⟩, honly⟩ := h (fun _ => a) fun _ => ⟨le_rfl, hab⟩
    -- one window's position moves to `p`, all others stay at `a`
    have hmove (j p : ℕ) (hp : a ≤ p ∧ p < b) :
        ∃! m, m < w.count ∧ w.skip m ≤ Function.update (fun _ => a) j p m ∧
          Function.update (fun _ => a) j p m < w.skip m + w.take := by
      refine h _ fun m => ?_
      by_cases hm : m = j
      · rw [hm, Function.update_self]
        exact hp
      · rw [Function.update_of_ne hm]
        exact ⟨le_rfl, hab⟩
    refine ⟨i, hi, ⟨hge, ?_⟩, ?_⟩
    · by_contra hb
      obtain ⟨m, ⟨hm, hm1, hm2⟩, -⟩ := hmove i (b - 1) (by omega)
      by_cases hmi : m = i
      · subst hmi
        rw [Function.update_self] at hm2
        omega
      · rw [Function.update_of_ne hmi] at hm1 hm2
        exact hmi (honly m ⟨hm, hm1, hm2⟩)
    · intro j hj hji
      by_contra hmeet
      have hskip : a < w.skip j := by
        by_contra hskip
        exact hji (honly j ⟨hj, by omega, by omega⟩)
      obtain ⟨m, -, hm⟩ := hmove j (w.skip j) (by omega)
      have hmj : j = m := by
        refine hm j ⟨hj, ?_⟩
        rw [Function.update_self]
        exact ⟨le_rfl, Nat.lt_add_of_pos_right ht⟩
      have hmi : i = m := hm i ⟨hi, by rw [Function.update_of_ne hji.symm]; omega⟩
      exact hji (hmj.trans hmi.symm)
  · rintro ⟨i, hi, hin, hout⟩ q hq
    refine ⟨i, ⟨hi, by have := hq i; omega⟩, ?_⟩
    rintro j ⟨hj, hj1, hj2⟩
    by_contra hne
    have := hout j hj hne
    have := hq j
    omega

variable [DecidableEq α] {w : Windows}

omit [DecidableEq κ] in
theorem mem_page_newestFirst (hn : (rows.map key).Nodup) (hx : x ∈ rows) {i : ℕ} :
    x ∈ w.page i (newestFirst createdAt key rank rows) ↔
      w.skip i ≤ (newestFirst createdAt key rank rows).idxOf x ∧
        (newestFirst createdAt key rank rows).idxOf x < w.skip i + w.take :=
  mem_page_iff (perm_newestFirst.nodup_iff.mpr hn.of_map) (perm_newestFirst.mem_iff.mpr hx)

/-- Pages whose rows of one time are ordered anew for each show every row once if and only if
no such rows are split. -/
theorem forall_perm_iff_whole (hn : (rows.map key).Nodup) (ht : 0 < w.take) :
    (∀ ranks : ℕ → κ → ℕ, ((List.range w.count).flatMap fun i =>
      w.page i (newestFirst createdAt key (ranks i) rows)).Perm rows) ↔
    w.Whole createdAt rows := by
  have hpage (rank : κ → ℕ) (i : ℕ) : (w.page i (newestFirst createdAt key rank rows)).Nodup ∧
      ∀ x ∈ w.page i (newestFirst createdAt key rank rows), x ∈ rows := by
    have hsub : (w.page i (newestFirst createdAt key rank rows)).Sublist
        (newestFirst createdAt key rank rows) :=
      (List.take_sublist _ _).trans (List.drop_sublist _ _)
    exact ⟨(perm_newestFirst.nodup_iff.mpr hn.of_map).sublist hsub,
      fun x hx => perm_newestFirst.mem_iff.mp (hsub.subset hx)⟩
  have hpages (ranks : ℕ → κ → ℕ) :=
    @perm_flatMap_iff _ rows w.count _ hn.of_map fun i => hpage (ranks i) i
  constructor
  · intro h x hx
    refine (forall_existsUnique_iff (since_succ_lt hx) ht).mp fun q hq => ?_
    choose ranks hranks using fun i => exists_rank_idxOf hn hx (hq i).1 (hq i).2
    simpa only [mem_page_newestFirst hn hx, hranks] using (hpages ranks).mp (h ranks) x hx
  · intro h ranks
    rw [hpages ranks]
    intro x hx
    have hone := (forall_existsUnique_iff (since_succ_lt hx) ht).mpr (h x hx)
      (fun i => (newestFirst createdAt key (ranks i) rows).idxOf x)
    simp only [mem_page_newestFirst hn hx]
    refine hone fun i => ?_
    have hperm : (newestFirst createdAt key (ranks i) rows).Perm rows := perm_newestFirst
    have hp := List.idxOf_lt_length_iff.mpr (hperm.mem_iff.mpr hx)
    have hpos := since_le_position pairwise_createdAt hperm hp
    rwa [List.getElem_idxOf hp] at hpos

end Orders

end Sorted

section Limits

variable {α κ ε : Type*} {createdAt : α → ℕ} {key : α → κ} {rows : List α} {limit : ℚ}

@[simp] theorem rounded_natCast (n : ℕ) : rounded n = n := by
  rw [rounded, Nat.floor_eq_iff (by positivity)]
  constructor <;> linarith

/-- A limit without a fraction makes windows that follow one another. -/
theorem page_ofLimit {limit total i : ℕ} :
    (Windows.ofLimit total limit).page i rows = (rows.drop (i * limit)).take limit := by
  have hskip : rounded (i * limit) = i * limit := by
    simpa using rounded_natCast (i * limit)
  simp only [Windows.page, Windows.ofLimit, hskip, rounded_natCast]

theorem rounded_pos (h : 1 ≤ limit) : 0 < rounded limit := by
  rw [rounded, Nat.floor_pos]
  linarith

theorem allPages_eq {query : ℕ → Except ε (List α × ℕ)} {page : ℕ → List α} {total : ℕ}
    (h : ∀ i, query (i + 1) = .ok (page i, total)) :
    allPages query limit = .ok ((List.range ⌈total / limit⌉₊).flatMap page) := by
  have hpages : (List.range ⌈total / limit⌉₊).mapM (fun i => (query (i + 1)).map Prod.fst) =
      .ok ((List.range ⌈total / limit⌉₊).map page) := by
    simp only [h, Except.map]
    exact List.mapM_pure
  have h1 : query 1 = .ok (page 0, total) := h 0
  simp only [allPages, h1, hpages, bind, Except.bind, List.flatMap_def]

/-- Windows that follow one another cut a list into pieces. -/
theorem flatMap_windows (l : List α) (limit n : ℕ) :
    ((List.range n).flatMap fun i => (l.drop (i * limit)).take limit) = l.take (n * limit) := by
  induction n with
  | zero => simp
  | succ n ih =>
    rw [List.range_succ, List.flatMap_append, ih, List.flatMap_singleton, add_one_mul,
      List.take_add]

/-- Pages of one sorted list are that list, if the limit has no fraction. -/
theorem allPages_of_one_order {query : ℕ → Except ε (List α × ℕ)} {l : List α} {limit total : ℕ}
    (hlimit : 0 < limit) (hl : l.length = total)
    (h : ∀ i, query (i + 1) = .ok ((Windows.ofLimit total limit).page i l, total)) :
    allPages query limit = .ok l := by
  have hend : l.length ≤ ⌈(total : ℚ) / limit⌉₊ * limit := by
    have hceil := Nat.le_ceil ((total : ℚ) / limit)
    rw [div_le_iff₀ (by exact_mod_cast hlimit)] at hceil
    rw [hl]
    exact_mod_cast hceil
  rw [allPages_eq h]
  simp only [page_ofLimit, flatMap_windows, List.take_of_length_le hend]

/-- The rule of the listings: each query sorts, then shows its window of `limit` rows. -/
theorem covers_iff_whole [DecidableEq α] [DecidableEq κ]
    {query : ℕ → (κ → ℕ) → Except ε (List α × ℕ)} (hn : (rows.map key).Nodup) (hlimit : 1 ≤ limit)
    (h : ∀ i rank, query (i + 1) rank =
      .ok ((Windows.ofLimit rows.length limit).page i (newestFirst createdAt key rank rows),
        rows.length)) :
    Covers query limit rows ↔ (Windows.ofLimit rows.length limit).Whole createdAt rows := by
  rw [← forall_perm_iff_whole hn (rounded_pos hlimit)]
  have hall (ranks : ℕ → κ → ℕ) :=
    @allPages_eq _ _ limit (fun page => query page (ranks page)) _ _ fun i => h i (ranks (i + 1))
  constructor
  · intro hc ranks
    obtain ⟨shown, hshown, hperm⟩ := hc fun page => ranks (page - 1)
    rw [hall, Except.ok.injEq] at hshown
    exact hshown ▸ hperm
  · intro hp ranks
    exact ⟨_, hall ranks, hp fun i => ranks (i + 1)⟩

/-- For a limit without a fraction, what counts is where pages end. -/
theorem whole_ofLimit_iff {limit : ℕ} (hlimit : 0 < limit) :
    (Windows.ofLimit rows.length limit).Whole createdAt rows ↔ Unsplit createdAt rows limit := by
  have hskip (i : ℕ) : (Windows.ofLimit rows.length limit).skip i = i * limit := by
    simpa [Windows.ofLimit] using rounded_natCast (i * limit)
  have htake : (Windows.ofLimit rows.length limit).take = limit := rounded_natCast limit
  have hcount (i : ℕ) :
      i < (Windows.ofLimit rows.length limit).count ↔ i * limit < rows.length := by
    rw [Windows.ofLimit, Nat.lt_ceil, lt_div_iff₀ (by exact_mod_cast hlimit)]
    exact_mod_cast Iff.rfl
  simp only [Windows.Whole, Unsplit, hskip, htake, hcount]
  constructor
  · intro h x hx k
    obtain ⟨i, -, ⟨hge, hle⟩, -⟩ := h x hx
    rcases Nat.lt_or_ge i k with hik | hki
    · have := Nat.mul_le_mul_right limit (Nat.add_one_le_of_lt hik)
      rw [add_one_mul] at this
      exact Or.inr (by omega)
    · exact Or.inl ((Nat.mul_le_mul_right limit hki).trans hge)
  · intro h x hx
    have hab := @since_succ_lt _ createdAt _ _ hx
    have hle := @since_le_length _ createdAt rows (createdAt x)
    set a := since createdAt rows (createdAt x + 1)
    have hdiv := Nat.div_mul_le_self a limit
    have hnext : a < (a / limit + 1) * limit := by
      rw [← Nat.div_lt_iff_lt_mul hlimit]
      exact Nat.lt_succ_self _
    have hend := (h x hx (a / limit + 1)).resolve_left (by omega)
    refine ⟨a / limit, by omega, ⟨hdiv, by rwa [add_one_mul] at hend⟩, ?_⟩
    intro j hj hne
    rcases Nat.lt_or_gt_of_ne hne with hlt | hgt
    · have := Nat.mul_le_mul_right limit (Nat.add_one_le_of_lt hlt)
      rw [add_one_mul] at this
      exact Or.inl (by omega)
    · have := Nat.mul_le_mul_right limit (Nat.add_one_le_of_lt hgt)
      exact Or.inr (by omega)

end Limits

end Store
