import OrderPlatform.ProductService.Calls
import OrderPlatform.Runs.Pool
import OrderPlatform.Store.LastWriter

/-! # Concurrent updates of products

A read of a product looks into the cache, reads the row and fills the cache in three steps.
An update continues with the product it was given: it saves the whole of it with its own
columns laid over, and then deletes keys. Others may have saved in between, and the entry
may have been filled by a slow reader, so a save can put back old columns. A row follows the
log of the updates exactly as long as every copy saved agrees with the row it replaces.
-/

namespace ProductService

open Runs Store Wire

/-- What a call does with the product it obtains. -/
inductive Task
  | read
  | update (dto : UpdateProductDto)

/-- The program points of `findById`, and of `update`, which begins with it. -/
inductive ProductCall
  | getting (id : ProductId) (task : Task)
  | reading (id : ProductId) (task : Task)
  | setting (id : ProductId) (task : Task) (product : Product)
  | saving (id : ProductId) (dto : UpdateProductDto) (product : Product)
  | deleting (id : ProductId) (saved : Product)
  | scanning (saved : Product)
  | clearing (keys : String → Bool) (saved : Product)
  | returned (e : Entry)
  | threw (e : Thrown)

/-- The time of a step, whether it fails, and whether the entry it asks for has expired. -/
structure ProductAnswer where
  now : ℕ
  fails : Bool
  expired : Bool
  deriving DecidableEq, Repr

/-- The service with the updates saved so far and the products they were called for. -/
structure Shared where
  world : World
  saves : List (Uuid × UpdateProductDto)

/-- The call once `findById` has its product. -/
def Task.resume (id : ProductId) : Task → Entry → ProductCall
  | .read, e => .returned e
  | .update dto, .product product =>
    match dto.assign product with
    | .error e => .threw e
    | .ok product => .saving id dto product
  | .update _, _ => .threw .typeError

def Shared.withCache (s : Shared) (cache : Cache String Entry) : Shared :=
  { s with world := { s.world with cache := cache } }

/-- The cache as a step finds it. -/
def ProductAnswer.cache (x : ProductAnswer) (s : Shared) (key : String) : Cache String Entry :=
  if x.expired then s.world.cache.del (· = key) else s.world.cache

/-- One step of a call. -/
def productStep : Machine Shared ProductCall ProductAnswer
  | s, .getting id task, x =>
    if x.fails then some (s, .threw .database)
    else
      let cache := x.cache s (productKey id.text)
      match cache (productKey id.text) with
      | some cached => some (s.withCache cache, task.resume id cached)
      | none => some (s.withCache cache, .reading id task)
  | s, .reading id task, x =>
    if x.fails then some (s, .threw .database)
    else match s.world.row id.uuid with
      | none => some (s, .threw (World.productNotFound id))
      | some product => some (s, .setting id task product)
  | s, .setting id task product, x =>
    if x.fails then some (s, .threw .database)
    else some (s.withCache (s.world.cache.set (productKey id.text) (.product product)),
      task.resume id (.product product))
  | s, .saving id dto product, x =>
    if x.fails then some (s, .threw .database)
    else some (⟨s.world.save product x.now, s.saves ++ [(id.uuid, dto)]⟩, .deleting id product)
  | s, .deleting id saved, x =>
    if x.fails then some (s, .threw .database)
    else some (⟨s.world.invalidate id, s.saves⟩, .scanning saved)
  | s, .scanning saved, x =>
    if x.fails then some (s, .threw .database)
    else some (s, .clearing (fun k => isListKey k && (s.world.cache k).isSome) saved)
  | s, .clearing keys saved, x =>
    if x.fails then some (s, .threw .database)
    else some (s.withCache (s.world.cache.del keys), .returned (.product saved))
  | _, .returned _, _ => none
  | _, .threw _, _ => none

/-- The updates saved to one product. -/
def Shared.writes (s : Shared) (u : Uuid) : List (Write Column Value) :=
  (s.saves.filter fun save => save.1 = u).map fun save => save.2.value

/-- Every column of every product has the value last written to it. -/
def FollowsLog (products : List Product) (s : Shared) : Prop :=
  ∀ u p, lookup Product.id u products = some p →
    ∃ q, s.world.row u = some q ∧ q.column = lastWritten p.column (s.writes u)

variable {ι : Type*} [DecidableEq ι]

/-- A product saved agrees with the row it replaces on the columns its request leaves out. -/
def SavesNoOldColumn (q : Pool Shared ProductCall ι) (a : ι × ProductAnswer) : Prop :=
  ∀ id dto product, q.calls a.1 = .saving id dto product → a.2.fails = false →
    ∀ p, q.store.world.row id.uuid = some p →
      ∀ c, dto.value c = none → product.column c = p.column c

/-- The id of a product there was at the start, of which this is a copy. -/
def CopyOf (products : List Product) (id : ProductId) (p : Product) : Prop :=
  p.id = id.uuid ∧ (lookup Product.id id.uuid products).isSome

structure Shared.Sound (products : List Product) (s : Shared) : Prop where
  rows : ∀ u, (s.world.row u).isSome = (lookup Product.id u products).isSome
  cached : ∀ (id : ProductId) p, s.world.cache (productKey id.text) = some (.product p) →
    CopyOf products id p

/-- A product on its way is a copy, and one to be saved has its request's values. -/
def ProductCall.Sound (products : List Product) : ProductCall → Prop
  | .setting id _ product => CopyOf products id product
  | .saving id dto product => CopyOf products id product ∧
    overlay dto.value product.column = product.column
  | _ => True

section Steps

variable {products : List Product} {s s' : Shared} {k k' : ProductCall} {x : ProductAnswer}
  {id : ProductId} {p : Product} {u : Uuid}

theorem sound_resume (task : Task) (h : CopyOf products id p) :
    (task.resume id (.product p)).Sound products := by
  cases task with
  | read => trivial
  | update dto =>
    unfold Task.resume
    dsimp only
    cases ha : dto.assign p with
    | error e => trivial
    | ok q =>
      obtain ⟨hid, hc⟩ := of_assign ha
      have hq : q.column = overlay dto.value p.column := funext hc
      refine ⟨⟨hid.trans h.1, h.2⟩, ?_⟩
      rw [hq, overlay_overlay]

theorem sound_resume_entry (task : Task) (e : Entry)
    (h : ∀ p, e = .product p → CopyOf products id p) : (task.resume id e).Sound products := by
  cases e with
  | product p => exact sound_resume task (h p rfl)
  | price | page => cases task <;> trivial

/-- What a step that does not fail does. -/
inductive Moved (s : Shared) (x : ProductAnswer) : ProductCall → Shared → ProductCall → Prop
  | hit (id : ProductId) (task : Task) (e : Entry)
    (h : x.cache s (productKey id.text) (productKey id.text) = some e) :
    Moved s x (.getting id task) (s.withCache (x.cache s (productKey id.text))) (task.resume id e)
  | miss (id : ProductId) (task : Task) :
    Moved s x (.getting id task) (s.withCache (x.cache s (productKey id.text))) (.reading id task)
  | missing (id : ProductId) (task : Task) :
    Moved s x (.reading id task) s (.threw (World.productNotFound id))
  | read (id : ProductId) (task : Task) (p : Product) (h : s.world.row id.uuid = some p) :
    Moved s x (.reading id task) s (.setting id task p)
  | set (id : ProductId) (task : Task) (p : Product) :
    Moved s x (.setting id task p)
      (s.withCache (s.world.cache.set (productKey id.text) (.product p)))
      (task.resume id (.product p))
  | save (id : ProductId) (dto : UpdateProductDto) (p : Product) :
    Moved s x (.saving id dto p) ⟨s.world.save p x.now, s.saves ++ [(id.uuid, dto)]⟩
      (.deleting id p)
  | delete (id : ProductId) (saved : Product) :
    Moved s x (.deleting id saved) ⟨s.world.invalidate id, s.saves⟩ (.scanning saved)
  | scan (saved : Product) (keys : String → Bool) :
    Moved s x (.scanning saved) s (.clearing keys saved)
  | clear (keys : String → Bool) (saved : Product) :
    Moved s x (.clearing keys saved) (s.withCache (s.world.cache.del keys))
      (.returned (.product saved))

/-- A step fails and leaves the store alone, or moves. -/
theorem productStep_cases (h : productStep s k x = some (s', k')) :
    (x.fails = true ∧ s' = s ∧ k' = .threw .database) ∨
      (x.fails = false ∧ Moved s x k s' k') := by
  cases hx : x.fails with
  | true =>
    left
    cases k <;> simp only [productStep, hx, if_true] at h <;> cases h <;> exact ⟨rfl, rfl, rfl⟩
  | false =>
    right
    refine ⟨rfl, ?_⟩
    cases k with
    | getting id task =>
      simp only [productStep, hx, Bool.false_eq_true, if_false] at h
      split at h
      · cases h
        exact .hit _ _ _ (by assumption)
      · cases h
        exact .miss _ _
    | reading id task =>
      simp only [productStep, hx, Bool.false_eq_true, if_false] at h
      split at h
      · cases h
        exact .missing _ _
      · cases h
        exact .read _ _ _ (by assumption)
    | setting id task p =>
      simp only [productStep, hx, Bool.false_eq_true, if_false] at h
      cases h
      exact .set _ _ _
    | saving id dto p =>
      simp only [productStep, hx, Bool.false_eq_true, if_false] at h
      cases h
      exact .save _ _ _
    | deleting id saved =>
      simp only [productStep, hx, Bool.false_eq_true, if_false] at h
      cases h
      exact .delete _ _
    | scanning saved =>
      simp only [productStep, hx, Bool.false_eq_true, if_false] at h
      cases h
      exact .scan _ _
    | clearing keys saved =>
      simp only [productStep, hx, Bool.false_eq_true, if_false] at h
      cases h
      exact .clear _ _
    | returned e => cases h
    | threw e => cases h

theorem cache_of_answer {key l : String} {e : Entry} (h : x.cache s key l = some e) :
    s.world.cache l = some e := by
  unfold ProductAnswer.cache at h
  split at h
  · exact (Cache.del_eq_some.mp h).2
  · exact h

theorem copyOf_row (hs : s.Sound products) (h : s.world.row id.uuid = some p) :
    CopyOf products id p :=
  ⟨(lookup_eq_some h).2, by rw [← hs.rows, h, Option.isSome_some]⟩

/-- A cache with no more entries than the one before. -/
theorem Shared.Sound.withCache (hs : s.Sound products) {cache : Cache String Entry}
    (h : ∀ l e, cache l = some e → s.world.cache l = some e) :
    (s.withCache cache).Sound products where
  rows := hs.rows
  cached id p hc := hs.cached id p (h _ _ hc)

theorem Moved.sound (hs : s.Sound products) (hk : k.Sound products) (h : Moved s x k s' k') :
    s'.Sound products ∧ k'.Sound products := by
  cases h with
  | hit id task e h =>
    refine ⟨hs.withCache fun _ _ => cache_of_answer, sound_resume_entry task e ?_⟩
    rintro p rfl
    exact hs.cached id p (cache_of_answer h)
  | miss id task => exact ⟨hs.withCache fun _ _ => cache_of_answer, trivial⟩
  | missing id task => exact ⟨hs, trivial⟩
  | read id task p h => exact ⟨hs, copyOf_row hs h⟩
  | set id task p =>
    refine ⟨⟨hs.rows, fun id' p' hc => ?_⟩, sound_resume task hk⟩
    by_cases hkey : id' = id
    · subst hkey
      cases (Cache.set_self.symm.trans hc)
      exact hk
    · refine hs.cached id' p' ((Cache.set_of_ne ?_).symm.trans hc)
      rwa [ne_eq, productKey_inj]
  | save id dto p =>
    obtain ⟨⟨hid, hrow⟩, -⟩ := hk
    refine ⟨⟨fun u => ?_, hs.cached⟩, trivial⟩
    rw [row_save]
    split
    · rename_i hu
      rw [hu, hid, hrow, Option.isSome_some]
    · exact hs.rows u
  | delete id saved =>
    have hdel : ∀ l e, (s.world.invalidate id).cache l = some e → s.world.cache l = some e := by
      intro l e hc
      simp only [World.invalidate] at hc
      exact (Cache.del_eq_some.mp hc).2
    exact ⟨⟨hs.rows, fun id' p' hc => hs.cached id' p' (hdel _ _ hc)⟩, trivial⟩
  | scan saved keys => exact ⟨hs, trivial⟩
  | clear keys saved =>
    exact ⟨hs.withCache fun _ _ hc => (Cache.del_eq_some.mp hc).2, trivial⟩

theorem writes_concat {dto : UpdateProductDto} {w : World} :
    Shared.writes ⟨w, s.saves ++ [(id.uuid, dto)]⟩ u =
      s.writes u ++ if id.uuid = u then [dto.value] else [] := by
  by_cases h : id.uuid = u <;> simp [Shared.writes, h]

/-- A save follows the log exactly if the product saved agrees with the row elsewhere. -/
theorem followsLog_save_iff {dto : UpdateProductDto} {t : ℕ}
    (hk : (ProductCall.saving id dto p).Sound products) (hF : FollowsLog products s) :
    FollowsLog products ⟨s.world.save p t, s.saves ++ [(id.uuid, dto)]⟩ ↔
      ∀ q, s.world.row id.uuid = some q → ∀ c, dto.value c = none → p.column c = q.column c := by
  obtain ⟨⟨hid, hrow⟩, hover⟩ := hk
  obtain ⟨p₀, hp₀⟩ := Option.isSome_iff_exists.mp hrow
  obtain ⟨q, hq, hlog⟩ := hF id.uuid p₀ hp₀
  have hiff : p.column = lastWritten p₀.column (s.writes id.uuid ++ [dto.value]) ↔
      ∀ c, dto.value c = none → p.column c = q.column c := by
    rw [← overlay_eq_lastWritten_iff hlog, hover]
  have hself : (⟨s.world.save p t, s.saves ++ [(id.uuid, dto)]⟩ : Shared).world.row id.uuid =
      some (p.written (s.world.row p.id) t) := by rw [row_save, if_pos hid.symm]
  have hcolumn : (p.written (s.world.row p.id) t).column = p.column :=
    funext fun _ => column_written
  constructor
  · intro h q' hq'
    cases hq.symm.trans hq'
    obtain ⟨q', hq', hlog'⟩ := h id.uuid p₀ hp₀
    cases hself.symm.trans hq'
    rw [writes_concat, if_pos rfl, hcolumn] at hlog'
    exact hiff.mp hlog'
  · intro h u p₁ hp₁
    rw [writes_concat]
    by_cases hu : id.uuid = u
    · subst hu
      cases hp₀.symm.trans hp₁
      refine ⟨_, hself, ?_⟩
      rw [if_pos rfl, hcolumn]
      exact hiff.mpr (h q hq)
    · rw [if_neg hu, List.append_nil]
      obtain ⟨q', hq', hlog'⟩ := hF u p₁ hp₁
      refine ⟨q', ?_, hlog'⟩
      rw [row_save, if_neg fun he => hu (hid.symm.trans he.symm), hq']

/-- Steps that save nothing leave rows and log as they are. -/
theorem followsLog_step_iff (hk : k.Sound products)
    (hF : FollowsLog products s) (h : productStep s k x = some (s', k')) :
    FollowsLog products s' ↔ ∀ id dto p, k = .saving id dto p → x.fails = false →
      ∀ q, s.world.row id.uuid = some q → ∀ c, dto.value c = none → p.column c = q.column c := by
  rcases productStep_cases h with ⟨hx, rfl, -⟩ | ⟨hx, hm⟩
  · refine iff_of_true hF fun _ _ _ _ hx' => ?_
    rw [hx] at hx'
    cases hx'
  · cases hm with
    | save id dto p =>
      rw [followsLog_save_iff hk hF]
      constructor
      · rintro h _ _ _ ⟨⟩ -
        exact h
      · exact fun h => h id dto p rfl hx
    | hit | miss | missing | read | set | delete | scan | clear =>
      exact iff_of_true hF fun _ _ _ hsave => by cases hsave

end Steps

section Solo

variable {s : Shared} {id : ProductId} {t : ℕ}

def ProductCall.ended : Except Thrown Entry → ProductCall
  | .ok e => .returned e
  | .error e => .threw e

/-- The steps of a read up to the point where its task goes on. -/
theorem getting_solo (s : Shared) (id : ProductId) (task : Task) (t : ℕ) :
    ∃ n, exec (Machine.solo productStep) (s, .getting id task)
        (List.replicate n ⟨t, false, false⟩) =
      some ({ s with world := (s.world.findById id).1 },
        match (s.world.findById id).2 with
        | .ok e => task.resume id e
        | .error e => .threw e) := by
  have hc : ProductAnswer.cache ⟨t, false, false⟩ s (productKey id.text) = s.world.cache := rfl
  generalize hr : s.world.findById id = r
  have hf := hr ▸ @found_findById s.world id
  cases hf with
  | hit e h =>
    refine ⟨1, ?_⟩
    simp [exec_cons, Machine.solo, productStep, hc, h, Shared.withCache]
  | missing h hrow =>
    refine ⟨2, ?_⟩
    simp [exec_cons, Machine.solo, productStep, hc, h, Shared.withCache, hrow, List.replicate_succ]
  | filled p h hrow =>
    refine ⟨3, ?_⟩
    simp [exec_cons, Machine.solo, productStep, hc, h, Shared.withCache, hrow, List.replicate_succ]

/-- The steps of `findById` that nothing interrupts compute it. -/
theorem findById_solo (s : Shared) (id : ProductId) (t : ℕ) :
    ∃ n, exec (Machine.solo productStep) (s, .getting id .read)
        (List.replicate n ⟨t, false, false⟩) =
      some ({ s with world := (s.world.findById id).1 }, .ended (s.world.findById id).2) := by
  obtain ⟨n, hn⟩ := getting_solo s id .read t
  refine ⟨n, hn.trans ?_⟩
  cases (s.world.findById id).2 <;> rfl

/-- The steps of `update` that nothing interrupts compute it. -/
theorem update_solo (s : Shared) (id : ProductId) (dto : UpdateProductDto) (t : ℕ) :
    ∃ n saves, exec (Machine.solo productStep) (s, .getting id (.update dto))
        (List.replicate n ⟨t, false, false⟩) =
      some (⟨(s.world.update id dto ⟨t, false⟩).1, saves⟩,
        .ended (s.world.update id dto ⟨t, false⟩).2) := by
  obtain ⟨n, hn⟩ := getting_solo s id (.update dto) t
  unfold World.update
  rcases hf : s.world.findById id with ⟨w, e | product | price | page⟩
  · rw [hf] at hn
    exact ⟨n, s.saves, hn⟩
  · rw [hf] at hn
    cases ha : dto.assign product with
    | error e =>
      refine ⟨n, s.saves, hn.trans ?_⟩
      simp [Task.resume, ha, ProductCall.ended]
    | ok copy =>
      refine ⟨n + 4, s.saves ++ [(id.uuid, dto)], ?_⟩
      rw [List.replicate_add, exec_append, hn]
      simp [Task.resume, ha, exec_cons, Machine.solo, productStep, List.replicate_succ,
        ProductCall.ended, Shared.withCache, Cache.del_live, World.invalidateListCaches]
  · rw [hf] at hn
    exact ⟨n, s.saves, hn⟩
  · rw [hf] at hn
    exact ⟨n, s.saves, hn⟩

end Solo

/-- What holds along every interleaving in which no save puts back an old column. -/
structure Sound (products : List Product) (q : Pool Shared ProductCall ι) : Prop where
  store : q.store.Sound products
  calls : ∀ i, (q.calls i).Sound products
  log : FollowsLog products q.store

/-- Any number of calls of `findById` and `update`, none of which has begun. -/
def start (products : List Product) (fresh : Uuid) (calls : ι → ProductId × Task) :
    Pool Shared ProductCall ι :=
  ⟨⟨⟨products, .empty, fresh⟩, []⟩, fun i => .getting (calls i).1 (calls i).2⟩

omit [DecidableEq ι] in
theorem sound_start (products : List Product) (fresh : Uuid) (calls : ι → ProductId × Task) :
    Sound products (start products fresh calls) where
  store := ⟨fun _ => rfl, fun _ _ h => by cases h⟩
  calls _ := trivial
  log u p hp := ⟨p, hp, rfl⟩

/--
In any interleaving of any calls, from any table and an empty cache, every column of every
product has in every state the value last written to it, or its first one, exactly if each
product saved agrees with the row it replaces on the columns its request leaves out.
-/
theorem always_followsLog_iff (products : List Product) (fresh : Uuid)
    (calls : ι → ProductId × Task) (acts : List (ι × ProductAnswer))
    (q : Pool Shared ProductCall ι)
    (h : exec (Pool.act productStep) (start products fresh calls) acts = some q) :
    Always (Pool.act productStep) (fun q => FollowsLog products q.store)
        (start products fresh calls) acts ↔
      AllSteps (Pool.act productStep) SavesNoOldColumn (start products fresh calls) acts := by
  have hiff (p : Pool Shared ProductCall ι) (a : ι × ProductAnswer) (t)
      (hp : Sound products p) (ht : p.act productStep a = some t) :
      (t.store.Sound products ∧ ∀ i, (t.calls i).Sound products) ∧
        (FollowsLog products t.store ↔ SavesNoOldColumn p a) := by
    obtain ⟨s, k, hstep, rfl⟩ := Pool.act_eq_some.mp ht
    have hsound : s.Sound products ∧ k.Sound products := by
      rcases productStep_cases hstep with ⟨-, rfl, rfl⟩ | ⟨-, hm⟩
      · exact ⟨hp.store, trivial⟩
      · exact hm.sound hp.store (hp.calls a.1)
    refine ⟨⟨hsound.1, forall_update hsound.2 hp.calls⟩, ?_⟩
    exact followsLog_step_iff (hp.calls a.1) hp.log hstep
  refine always_iff_allSteps (I := Sound products) ?_ (fun p hp => hp.log) ?_
    (sound_start products fresh calls) h
  · intro p a t hp hc ht
    obtain ⟨⟨hs, hk⟩, hF⟩ := hiff p a t hp ht
    exact ⟨hs, hk, hF.mpr hc⟩
  · intro p a t hp hc ht hF
    exact hc ((hiff p a t hp ht).2.mp hF)

def reprice : UpdateProductDto := { UpdateProductDto.empty with price := some (some 25) }

/-- One call renames a product and the other gives it a new price. -/
def renameAndReprice : Bool → ProductId × Task
  | false => (lowerId, .update rename)
  | true => (lowerId, .update reprice)

def undisturbed : ProductAnswer := ⟨1, false, false⟩

theorem one_after_the_other : ∃ q, exec (Pool.act productStep) (start [pen] 0 renameAndReprice)
      (List.replicate 7 (false, undisturbed) ++ List.replicate 7 (true, undisturbed)) = some q ∧
    (Always (Pool.act productStep) (fun q => FollowsLog [pen] q.store)
        (start [pen] 0 renameAndReprice)
        (List.replicate 7 (false, undisturbed) ++ List.replicate 7 (true, undisturbed)) ↔
      AllSteps (Pool.act productStep) SavesNoOldColumn (start [pen] 0 renameAndReprice)
        (List.replicate 7 (false, undisturbed) ++ List.replicate 7 (true, undisturbed))) :=
  ⟨_, rfl, always_followsLog_iff [pen] 0 renameAndReprice _ _ rfl⟩

/-- Both calls obtain the product before either saves; the second save puts the old name back. -/
theorem name_put_back : ∃ q, exec (Pool.act productStep) (start [pen] 0 renameAndReprice)
      (List.replicate 3 (false, undisturbed) ++ List.replicate 1 (true, undisturbed) ++
        List.replicate 4 (false, undisturbed) ++ List.replicate 4 (true, undisturbed)) = some q ∧
    q.calls false = .returned (.product { pen with name := "Ink pen" }) ∧
      ¬ FollowsLog [pen] q.store := by
  refine ⟨_, rfl, rfl, fun h => ?_⟩
  obtain ⟨p, hp, hc⟩ := h pen.id pen rfl
  cases hp
  exact absurd (congrFun hc .name) (by decide +kernel)

end ProductService
