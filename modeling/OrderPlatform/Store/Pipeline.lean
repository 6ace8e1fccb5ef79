import OrderPlatform.Store.Table

/-! # Keys relayed in order

Keys pass from a queue through a flight to those seen. The keys come out in order when
none is skipped or lost while a younger one is behind it, and none overtakes an older one.
-/

namespace Store

section InOrder

variable {α : Type*} (older : α → α → Prop)

/-- No key occurs for the first time after a younger one. -/
def InOrder (l : List α) : Prop := ∀ pre a, pre ++ [a] <+: l → a ∉ pre → ∀ b ∈ pre, ¬ older a b

variable {older} {l : List α} {a : α}

theorem inOrder_nil : InOrder older [] := by
  intro pre a h
  simp at h

theorem InOrder.concat (h : InOrder older l) (ha : a ∉ l → ∀ b ∈ l, ¬ older a b) :
    InOrder older (l ++ [a]) := by
  intro pre c hp hc b hb
  rcases List.prefix_concat_iff.mp hp with he | hp
  · obtain ⟨rfl, rfl⟩ := List.append_singleton_inj.mp he
    exact ha hc b hb
  · exact h pre c hp hc b hb

theorem InOrder.mono {older' : α → α → Prop} (h : InOrder older l)
    (hle : ∀ a, ∀ b ∈ l, older' a b → older a b) : InOrder older' l := by
  intro pre c hp hc b hb hold
  refine h pre c hp hc b hb (hle c b ?_ hold)
  exact hp.subset (List.mem_append_left _ hb)

end InOrder

/-- The keys seen so far, those in flight, those still queued, and those never queued again. -/
structure Pipeline (α : Type*) where
  seen : List α
  flight : List α
  queue : List α
  retired : α → Prop

namespace Pipeline

variable {α : Type*} (older : α → α → Prop)

/-- The key will never be seen again. -/
def Gone (p : Pipeline α) (a : α) : Prop := p.retired a ∧ a ∉ p.flight ∧ a ∉ p.queue

/-- Every key older than one that has come so far is ahead of it, or gone. -/
structure Ordered (p : Pipeline α) : Prop where
  seen : InOrder older p.seen
  past : ∀ b ∈ p.seen, ∀ a, older a b → a ∈ p.seen ∨ p.Gone a
  flight : ∀ b ∈ p.flight, ∀ a, older a b → a ∈ p.seen ∨ p.Gone a ∨ a ∈ p.flight
  queue : ∀ pre b post, p.queue = pre ++ b :: post → ∀ a, older a b →
    a ∈ p.seen ∨ p.Gone a ∨ a ∈ p.flight ∨ a ∈ pre

variable {older} {p : Pipeline α} {a : α} {f g q : List α}

theorem Ordered.drop (h : p.Ordered older) : Ordered older { p with queue := [] } := by
  have hg : ∀ a, p.Gone a → Gone { p with queue := [] } a := fun a ha =>
    ⟨ha.1, ha.2.1, List.not_mem_nil⟩
  exact ⟨h.seen, fun b hb a ho => (h.past b hb a ho).imp_right (hg a),
    fun b hb a ho => (h.flight b hb a ho).imp_right (Or.imp_left (hg a)), by simp⟩

/-- A new queue takes no retired key, and with a key all older ones before it. -/
theorem Ordered.load (h : p.Ordered older) (hq : ∀ a ∈ q, ¬ p.retired a)
    (hpre : ∀ pre b post, q = pre ++ b :: post → ∀ a, older a b → p.retired a ∨ a ∈ pre) :
    Ordered older { p with queue := q } := by
  have hg : ∀ a, p.Gone a → Gone { p with queue := q } a := fun a ha =>
    ⟨ha.1, ha.2.1, fun hm => hq a hm ha.1⟩
  refine ⟨h.seen, fun b hb a ho => (h.past b hb a ho).imp_right (hg a),
    fun b hb a ho => (h.flight b hb a ho).imp_right (Or.imp_left (hg a)), ?_⟩
  intro pre b post he a ho
  rcases hpre pre b post he a ho with hr | hm
  · by_cases hf : a ∈ p.flight
    · exact Or.inr (Or.inr (Or.inl hf))
    · exact Or.inr (Or.inl ⟨hr, hf, fun hm => hq a hm hr⟩)
  · exact Or.inr (Or.inr (Or.inr hm))

theorem Gone.tail (hq : p.queue = a :: q) {b : α} (h : p.Gone b) (f : List α) (hf : b ∉ f) :
    Gone { p with flight := f, queue := q } b :=
  ⟨h.1, hf, fun hm => h.2.2 (hq ▸ List.mem_cons_of_mem _ hm)⟩

/-- The head of the queue may be skipped if it was seen, or if nothing behind it is younger. -/
theorem Ordered.skip (h : p.Ordered older) (hq : p.queue = a :: q)
    (ha : a ∈ p.seen ∨ ∀ b ∈ q, ¬ older a b) : Ordered older { p with queue := q } := by
  have hg : ∀ b, p.Gone b → Gone { p with queue := q } b := fun b hb =>
    Gone.tail hq hb p.flight hb.2.1
  refine ⟨h.seen, fun b hb c ho => (h.past b hb c ho).imp_right (hg c),
    fun b hb c ho => (h.flight b hb c ho).imp_right (Or.imp_left (hg c)), ?_⟩
  rintro pre b post rfl c ho
  rcases h.queue (a :: pre) b post hq c ho with hs | hgone | hf | hm
  · exact Or.inl hs
  · exact Or.inr (Or.inl (hg c hgone))
  · exact Or.inr (Or.inr (Or.inl hf))
  · rcases List.mem_cons.mp hm with rfl | hm
    · exact Or.inl (ha.resolve_right fun hn => hn b (by simp) ho)
    · exact Or.inr (Or.inr (Or.inr hm))

theorem Ordered.send (h : p.Ordered older) (hq : p.queue = a :: q) :
    Ordered older { p with flight := p.flight ++ [a], queue := q } := by
  have hg : ∀ b, p.Gone b → Gone { p with flight := p.flight ++ [a], queue := q } b := by
    intro b hb
    refine Gone.tail hq hb _ fun hm => ?_
    rcases List.mem_append.mp hm with hm | hm
    · exact hb.2.1 hm
    · exact hb.2.2 (by simp [hq, List.mem_singleton.mp hm])
  refine ⟨h.seen, fun b hb c ho => (h.past b hb c ho).imp_right (hg c), ?_, ?_⟩
  · intro b hb c ho
    rcases List.mem_append.mp hb with hb | hb
    · exact (h.flight b hb c ho).imp_right (Or.imp (hg c) (List.mem_append_left _))
    · obtain rfl := List.mem_singleton.mp hb
      rcases h.queue [] b q hq c ho with hs | hgone | hf | hm
      · exact Or.inl hs
      · exact Or.inr (Or.inl (hg c hgone))
      · exact Or.inr (Or.inr (List.mem_append_left _ hf))
      · cases hm
  · rintro pre b post rfl c ho
    rcases h.queue (a :: pre) b post hq c ho with hs | hgone | hf | hm
    · exact Or.inl hs
    · exact Or.inr (Or.inl (hg c hgone))
    · exact Or.inr (Or.inr (Or.inl (List.mem_append_left _ hf)))
    · rcases List.mem_cons.mp hm with rfl | hm
      · exact Or.inr (Or.inr (Or.inl (by simp)))
      · exact Or.inr (Or.inr (Or.inr hm))

theorem Gone.settle (hf : p.flight = f ++ a :: g) {b : α} (h : p.Gone b) (seen : List α) :
    Gone { p with seen := seen, flight := f ++ g } b := by
  refine ⟨h.1, fun hm => h.2.1 ?_, h.2.2⟩
  rw [hf]
  rcases List.mem_append.mp hm with hm | hm
  · exact List.mem_append_left _ hm
  · exact List.mem_append_right _ (List.mem_cons_of_mem _ hm)

theorem mem_settled (hf : p.flight = f ++ a :: g) {b : α} (h : b ∈ p.flight) :
    b = a ∨ b ∈ f ++ g := by
  rw [hf] at h
  simp only [List.mem_append, List.mem_cons] at h ⊢
  tauto

/-- A key in flight may be seen if every older one in flight was seen before. -/
theorem Ordered.accept (h : p.Ordered older) (hf : p.flight = f ++ a :: g)
    (ha : ∀ b ∈ f ++ g, older b a → b ∈ p.seen) (hirr : ¬ older a a) :
    Ordered older { p with seen := p.seen ++ [a], flight := f ++ g } := by
  have hg : ∀ b, p.Gone b → Gone { p with seen := p.seen ++ [a], flight := f ++ g } b := fun b hb =>
    Gone.settle hf hb _
  have hmem : a ∈ p.flight := by simp [hf]
  refine ⟨h.seen.concat fun hn b hb ho => ?_, ?_, ?_, ?_⟩
  · rcases h.past b hb a ho with hs | hgone
    · exact hn hs
    · exact hgone.2.1 hmem
  · intro b hb c ho
    rcases List.mem_append.mp hb with hb | hb
    · exact (h.past b hb c ho).imp (List.mem_append_left _) (hg c)
    · obtain rfl := List.mem_singleton.mp hb
      rcases h.flight b hmem c ho with hs | hgone | hm
      · exact Or.inl (List.mem_append_left _ hs)
      · exact Or.inr (hg c hgone)
      · rcases mem_settled hf hm with rfl | hm
        · exact absurd ho hirr
        · exact Or.inl (List.mem_append_left _ (ha c hm ho))
  · intro b hb c ho
    have hb' : b ∈ p.flight := by
      rw [hf]
      simp only [List.mem_append, List.mem_cons] at hb ⊢
      tauto
    rcases h.flight b hb' c ho with hs | hgone | hm
    · exact Or.inl (List.mem_append_left _ hs)
    · exact Or.inr (Or.inl (hg c hgone))
    · rcases mem_settled hf hm with rfl | hm
      · exact Or.inl (by simp)
      · exact Or.inr (Or.inr hm)
  · intro pre b post he c ho
    rcases h.queue pre b post he c ho with hs | hgone | hm | hm
    · exact Or.inl (List.mem_append_left _ hs)
    · exact Or.inr (Or.inl (hg c hgone))
    · rcases mem_settled hf hm with rfl | hm
      · exact Or.inl (by simp)
      · exact Or.inr (Or.inr (Or.inl hm))
    · exact Or.inr (Or.inr (Or.inr hm))

/-- The head of the queue may be seen at once while nothing is in flight. -/
theorem Ordered.pass (h : p.Ordered older) (hf : p.flight = []) (hq : p.queue = a :: q)
    (hirr : ¬ older a a) : Ordered older { p with seen := p.seen ++ [a], queue := q } := by
  have hs := (h.send hq).accept (f := []) (g := []) (by simp [hf]) (by simp) hirr
  simpa [hf] using hs

/-- A key in flight may be lost if it was seen, or if nothing younger is in flight or queued. -/
theorem Ordered.lose (h : p.Ordered older) (hf : p.flight = f ++ a :: g)
    (ha : a ∈ p.seen ∨ ∀ b ∈ f ++ g ++ p.queue, ¬ older a b) (hirr : ¬ older a a) :
    Ordered older { p with flight := f ++ g } := by
  have hg : ∀ b, p.Gone b → Gone { p with flight := f ++ g } b := fun b hb => Gone.settle hf hb _
  have hmem : a ∈ p.flight := by simp [hf]
  refine ⟨h.seen, fun b hb c ho => (h.past b hb c ho).imp_right (hg c), ?_, ?_⟩
  · intro b hb c ho
    have hb' : b ∈ p.flight := by
      rw [hf]
      simp only [List.mem_append, List.mem_cons] at hb ⊢
      tauto
    rcases h.flight b hb' c ho with hs | hgone | hm
    · exact Or.inl hs
    · exact Or.inr (Or.inl (hg c hgone))
    · rcases mem_settled hf hm with rfl | hm
      · exact Or.inl (ha.resolve_right fun hn => hn b (List.mem_append_left _ hb) ho)
      · exact Or.inr (Or.inr hm)
  · intro pre b post he c ho
    rcases h.queue pre b post he c ho with hs | hgone | hm | hm
    · exact Or.inl hs
    · exact Or.inr (Or.inl (hg c hgone))
    · rcases mem_settled hf hm with rfl | hm
      · have hb : b ∈ p.queue := (congrArg (b ∈ ·) he).mpr (by simp)
        exact Or.inl (ha.resolve_right fun hn => hn b (List.mem_append_right _ hb) ho)
      · exact Or.inr (Or.inr (Or.inl hm))
    · exact Or.inr (Or.inr (Or.inr hm))

/-- More keys may be retired at any time. -/
theorem Ordered.retire (h : p.Ordered older) {r : α → Prop} (hr : ∀ a, p.retired a → r a) :
    Ordered older { p with retired := r } := by
  have hg : ∀ b, p.Gone b → Gone { p with retired := r } b := fun b hb => ⟨hr b hb.1, hb.2⟩
  exact ⟨h.seen, fun b hb c ho => (h.past b hb c ho).imp_right (hg c),
    fun b hb c ho => (h.flight b hb c ho).imp_right (Or.imp_left (hg c)),
    fun pre b post he c ho => (h.queue pre b post he c ho).imp_right (Or.imp_left (hg c))⟩

/-- Keys that have not come yet may become younger than others. -/
theorem Ordered.mono {older' : α → α → Prop} (h : p.Ordered older)
    (hle : ∀ a b, b ∈ p.seen ∨ b ∈ p.flight ∨ b ∈ p.queue → older' a b → older a b) :
    p.Ordered older' :=
  ⟨h.seen.mono fun a b hb => hle a b (Or.inl hb),
    fun b hb a ho => h.past b hb a (hle a b (Or.inl hb) ho),
    fun b hb a ho => h.flight b hb a (hle a b (Or.inr (Or.inl hb)) ho),
    fun pre b post he a ho => h.queue pre b post he a
      (hle a b (Or.inr (Or.inr (by simp [he]))) ho)⟩

end Pipeline

section Older

variable {ρ κ γ : Type*} (key : ρ → κ) (group : ρ → γ) (time : ρ → ℕ)

/-- Two rows of one group, the first created before the second. -/
def Older (rows : List ρ) (i j : κ) : Prop :=
  ∃ r ∈ rows, ∃ r' ∈ rows, key r = i ∧ key r' = j ∧ group r = group r' ∧ time r < time r'

instance [DecidableEq κ] [DecidableEq γ] (rows : List ρ) (i j : κ) :
    Decidable (Older key group time rows i j) :=
  inferInstanceAs (Decidable (∃ r ∈ rows, ∃ r' ∈ rows, _))

variable {key group time} {rows rows' : List ρ} {i j : κ} {r : ρ}

theorem Older.irrefl (hn : (rows.map key).Nodup) : ¬ Older key group time rows i i := by
  rintro ⟨r, hr, r', hr', rfl, hk, -, ht⟩
  obtain rfl := List.inj_on_of_nodup_map hn hr' hr hk
  exact lt_irrefl _ ht

/-- Rewriting rows leaves their order when it leaves keys, groups and times. -/
theorem Older.of_map_eq {f : ρ → ρ} (hk : ∀ r, key (f r) = key r) (hg : ∀ r, group (f r) = group r)
    (ht : ∀ r, time (f r) = time r) (h : Older key group time (rows.map f) i j) :
    Older key group time rows i j := by
  obtain ⟨r, hr, r', hr', hi, hj, hgr, hlt⟩ := h
  obtain ⟨s, hs, rfl⟩ := List.mem_map.mp hr
  obtain ⟨s', hs', rfl⟩ := List.mem_map.mp hr'
  exact ⟨s, hs, s', hs', (hk s).symm.trans hi, (hk s').symm.trans hj,
    (hg s).symm.trans (hgr.trans (hg s')), by rwa [ht, ht] at hlt⟩

/-- A row created last of its group is older than none. -/
theorem Older.of_append (hr : ∀ r' ∈ rows, group r' = group r → time r' ≤ time r)
    (hj : j ≠ key r) (h : Older key group time (rows ++ [r]) i j) :
    Older key group time rows i j := by
  obtain ⟨s, hs, s', hs', hi, hj', hgr, hlt⟩ := h
  have hm' : s' ∈ rows := by
    rcases List.mem_append.mp hs' with hm | hm
    · exact hm
    · exact absurd (hj'.symm.trans (congrArg key (List.mem_singleton.mp hm))) hj
  rcases List.mem_append.mp hs with hm | hm
  · exact ⟨s, hm, s', hm', hi, hj', hgr, hlt⟩
  · obtain rfl := List.mem_singleton.mp hm
    exact absurd hlt (not_lt.mpr (hr s' hm' hgr.symm))

/-- Rewriting rows in place keeps the order, and may retire more of them. -/
theorem Pipeline.Ordered.rewrite {p : Pipeline κ} (h : p.Ordered (Older key group time rows))
    {changed : ρ → Prop} [DecidablePred changed] {f : ρ → ρ} (hk : ∀ r, key (f r) = key r)
    (hg : ∀ r, group (f r) = group r) (ht : ∀ r, time (f r) = time r) {retired : κ → Prop}
    (hr : ∀ i, p.retired i → retired i) :
    Ordered (Older key group time (rows.map fun r => if changed r then f r else r))
      { p with retired := retired } :=
  (h.retire hr).mono fun _ _ _ ho =>
    Older.of_map_eq (ite_eq_of_eq hk) (ite_eq_of_eq hg) (ite_eq_of_eq ht) ho

/-- A row created last of its group keeps the order while no row of its key has come. -/
theorem Pipeline.Ordered.append {p : Pipeline κ} (h : p.Ordered (Older key group time rows))
    (hk : key r ∉ rows.map key) (hr : ∀ r' ∈ rows, group r' = group r → time r' ≤ time r)
    (hseen : ∀ i ∈ p.seen, i ∈ rows.map key) (hflight : ∀ i ∈ p.flight, i ∈ rows.map key)
    (hqueue : ∀ i ∈ p.queue, i ∈ rows.map key) {retired : κ → Prop}
    (hret : ∀ i, p.retired i → retired i) :
    Ordered (Older key group time (rows ++ [r])) { p with retired := retired } := by
  refine Ordered.mono (h.retire hret) fun i j hj ho => Older.of_append hr (fun he => hk ?_) ho
  rw [← he]
  rcases hj with hj | hj | hj
  · exact hseen j hj
  · exact hflight j hj
  · exact hqueue j hj

/-- A queue of the oldest pending rows keeps the order, when the other rows are retired. -/
theorem Pipeline.Ordered.fetch {p : Pipeline κ} (h : p.Ordered (Older key group time rows))
    (hn : (rows.map key).Nodup) {pending : ρ → Bool}
    (hr : ∀ i, p.retired i ↔ ∃ r ∈ rows, key r = i ∧ pending r = false) (rank : ρ → ℕ) (n : ℕ) :
    Ordered (Older key group time rows)
      { p with queue := (oldest time rank n (rows.filter pending)).map key } := by
  have hmem : ∀ r ∈ oldest time rank n (rows.filter pending), r ∈ rows ∧ pending r = true :=
    fun r hr => List.mem_filter.mp (mem_of_mem_oldest hr)
  refine h.load ?_ ?_
  · intro i hi hret
    obtain ⟨r, hr', rfl⟩ := List.mem_map.mp hi
    obtain ⟨s, hs, hk, hp⟩ := (hr _).mp hret
    obtain rfl := List.inj_on_of_nodup_map hn hs (hmem r hr').1 hk
    exact absurd (hmem s hr').2 (by simp [hp])
  · rintro pre _ post hsplit i ⟨r, hr', s, hs, rfl, hk, -, hlt⟩
    obtain ⟨pre', rest, hb, rfl, hrest⟩ := List.map_eq_append_iff.mp hsplit
    obtain ⟨e, post', rfl, he, rfl⟩ := List.map_eq_cons_iff.mp hrest
    have hein : e ∈ rows := (hmem e (by simp [hb])).1
    obtain rfl : s = e := List.inj_on_of_nodup_map hn hs hein (hk.trans he.symm)
    cases hp : pending r with
    | false => exact Or.inl ((hr _).mpr ⟨r, hr', rfl, hp⟩)
    | true =>
      right
      exact List.mem_map_of_mem (mem_prefix_of_oldest hb (List.mem_filter.mpr ⟨hr', hp⟩) hlt)

end Older

end Store
