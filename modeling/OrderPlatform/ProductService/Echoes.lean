import OrderPlatform.ProductService.Existence
import OrderPlatform.ProductService.SingleProducts

/-! # Writes and the prices read after them

A create or an update answers with the price it was given, while the column rounds it, and an
update deletes the cache entries of one spelling of the id. The price of the answer is the one
that is read from then on exactly if rounding leaves it alone and no entry under another
spelling shows another price.
-/

namespace ProductService

open Runs Store Wire

/-- The number a price denotes. -/
def PriceText.toNumber : PriceText → ℚ
  | .column n => n.toNumber
  | .number q => q

/-- The price an entry shows. -/
def Entry.price? : Entry → Option ℚ
  | .product p => some p.price.toNumber
  | .price t _ => some t.toNumber
  | .page _ => none

/-- The read behind a view: `findById` or `findPriceById`. -/
def World.read (w : World) : View → World × Except Thrown Entry
  | .product id => w.findById id
  | .price id => w.findPriceById id

inductive ProductWrite
  | create (dto : CreateProductDto) (x : WriteAnswer)
  | update (id : ProductId) (dto : UpdateProductDto) (x : WriteAnswer)
  deriving DecidableEq

def World.write (w : World) : ProductWrite → World × Except Thrown Entry
  | .create dto x => w.create dto x
  | .update id dto x => w.update id dto x

/-- The call is not an update of the product. -/
def Call.Leaves (u : Uuid) : Call → Prop
  | .update id _ _ => id.uuid ≠ u
  | _ => True

section Echo

variable (numeral : ℚ → String) (ilike : String → String → Bool) (rank : Uuid → ℕ)

/-- Until the product is updated again, every read of it, under any spelling, has this price. -/
def Echoed (w : World) (p : Product) : Prop :=
  ∀ calls w', (∀ c ∈ calls, Call.Leaves p.id c) →
    exec (World.call numeral ilike rank) w calls = some w' →
    ∀ v : View, v.id.uuid = p.id →
      ∃ e, (w'.read v).2 = .ok e ∧ e.price? = some p.price.toNumber

/-- The price `findById` would find. -/
def World.priceOf (w : World) (id : ProductId) : Option ℚ :=
  match w.cache (productKey id.text) with
  | some e => e.price?
  | none => (w.row id.uuid).map fun p => p.price.toNumber

/-- The price an update leaves: its own, or the one it found. -/
def World.priceAfter (w : World) (id : ProductId) (dto : UpdateProductDto) : Option ℚ :=
  dto.price.join.or (w.priceOf id)

/--
The write gives no price of more than two decimals, and the entries it leaves under other
spellings of its id show the price it leaves.
-/
def ProductWrite.Faithful (w : World) : ProductWrite → Prop
  | .create dto _ => Numeric.TwoDecimals dto.price
  | .update id dto _ => (∀ q ∈ dto.price.join, Numeric.TwoDecimals q) ∧
      ∀ v : View, v.id.uuid = id.uuid → v.id ≠ id → ∀ e, w.cache v.key = some e →
        e.price? = w.priceAfter id dto

end Echo

/-- The product is as the table keeps it. -/
def Product.Kept (p : Product) : Prop := ∃ n, p.price = .column n

/-- Rows are as the table keeps them, and every entry is that of such a product. -/
structure World.Sound (w : World) : Prop where
  rows : ∀ p ∈ w.products, p.Kept ∧ p.id < w.fresh
  entries : ∀ (v : View) e, w.cache v.key = some e →
    ∃ p : Product, e = v.entry p ∧ p.id = v.id.uuid ∧ p.Kept ∧ (w.row v.id.uuid).isSome = true

/-- The row of the product and every entry for it have the price. -/
structure World.Shows (w : World) (u : Uuid) (x : ℚ) : Prop where
  row : ∃ q, w.row u = some q ∧ q.price.toNumber = x
  entries : ∀ v : View, v.id.uuid = u → ∀ e, w.cache v.key = some e → e.price? = some x

section Worlds

variable {numeral : ℚ → String} {ilike : String → String → Bool} {rank : Uuid → ℕ}
  {w w' : World} {v : View} {id : ProductId} {u : Uuid} {x : ℚ} {p q : Product} {t : ℕ} {c : Call}

@[simp] theorem price?_entry (v : View) (p : Product) :
    (v.entry p).price? = some p.price.toNumber := by
  cases v <;> rfl

theorem found_read : Found w v.id v.key v.entry (w.read v) := by
  cases v with
  | product id => exact found_findById
  | price id => exact found_findPriceById

theorem kept_stored (p : Product) (t : ℕ) : (p.stored t).Kept := ⟨_, rfl⟩

/-- A save leaves the stored price, also where the row had it already. -/
theorem price_written {r : Option Product} (h : ∀ row ∈ r, row.Kept) :
    (p.written r t).price = .column p.price.stored := by
  rcases @written_cases p r t with ⟨row, hr, hsame, he⟩ | ⟨updatedAt, he⟩
  · obtain ⟨n, hn⟩ := h row hr
    have hcolumn : Value.decimal row.price.stored = .decimal p.price.stored :=
      hsame.column_eq (c := .price)
    rw [he, hn]
    rw [hn] at hcolumn
    exact congrArg _ (Value.decimal.inj hcolumn)
  · rw [he]
    rfl

theorem id_of_row (h : w.row u = some p) : p ∈ w.products ∧ p.id = u := lookup_eq_some h

/-- A cache with no other entries for products, beside rows that stay in place. -/
theorem World.Sound.of_entries (hw : w.Sound) (hrows : ∀ p ∈ w'.products, p.Kept ∧ p.id < w'.fresh)
    (hkeep : ∀ u, (w.row u).isSome = true → (w'.row u).isSome = true)
    (hcache : ∀ (v : View) e, w'.cache v.key = some e → w.cache v.key = some e) : w'.Sound where
  rows := hrows
  entries v e he := by
    obtain ⟨p, rfl, hid, hp, hs⟩ := hw.entries v e (hcache v e he)
    exact ⟨p, rfl, hid, hp, hkeep _ hs⟩

theorem World.Sound.read (hw : w.Sound) : (w.read v).1.Sound := by
  generalize hr : w.read v = r
  have hf := hr ▸ @found_read w v
  cases hf with
  | hit e hc => exact hw
  | missing hc hn => exact hw
  | filled p hc hp =>
    obtain ⟨hmem, hid⟩ := id_of_row hp
    refine ⟨hw.rows, fun v' e he => ?_⟩
    by_cases hv : v' = v
    · subst hv
      obtain rfl := Option.some.inj (Cache.set_self.symm.trans he)
      exact ⟨p, rfl, hid, (hw.rows p hmem).1, Option.isSome_iff_exists.mpr ⟨p, hp⟩⟩
    · have hne : v'.key ≠ v.key := fun h => hv (View.key_inj.mp h)
      exact hw.entries v' e ((Cache.set_of_ne hne).symm.trans he)

/-- What a read under a sound cache finds is a kept product of the id. -/
theorem World.Sound.of_read (hw : w.Sound) {e : Entry} (h : (w.read v).2 = .ok e) :
    ∃ p : Product, e = v.entry p ∧ p.id = v.id.uuid ∧ p.Kept := by
  generalize hr : w.read v = r at h
  have hf := hr ▸ @found_read w v
  cases hf with
  | hit e' hc =>
    cases h
    obtain ⟨p, rfl, hid, hp, -⟩ := hw.entries v _ hc
    exact ⟨p, rfl, hid, hp⟩
  | missing hc hn => cases h
  | filled p hc hp =>
    cases h
    obtain ⟨hmem, hid⟩ := id_of_row hp
    exact ⟨p, rfl, hid, (hw.rows p hmem).1⟩

theorem World.Shows.read (hs : w.Shows u x) : (w.read v).1.Shows u x := by
  generalize hr : w.read v = r
  have hf := hr ▸ @found_read w v
  cases hf with
  | hit e hc => exact hs
  | missing hc hn => exact hs
  | filled p hc hp =>
    refine ⟨hs.row, fun v' hu e he => ?_⟩
    by_cases hv : v' = v
    · subst hv
      obtain rfl := Option.some.inj (Cache.set_self.symm.trans he)
      obtain ⟨q, hq, hx⟩ := hs.row
      rw [← hu] at hq
      cases hp.symm.trans hq
      rw [price?_entry, hx]
    · have hne : v'.key ≠ v.key := fun h => hv (View.key_inj.mp h)
      exact hs.entries v' hu e ((Cache.set_of_ne hne).symm.trans he)

/-- Every read of the product then has the price. -/
theorem World.Shows.of_read (hs : w.Shows u x) (hu : v.id.uuid = u) :
    ∃ e, (w.read v).2 = .ok e ∧ e.price? = some x := by
  obtain ⟨q, hq, hx⟩ := hs.row
  generalize hr : w.read v = r
  have hf := hr ▸ @found_read w v
  cases hf with
  | hit e hc => exact ⟨e, rfl, hs.entries v hu e hc⟩
  | missing hc hn =>
    rw [← hu] at hq
    cases hn.symm.trans hq
  | filled p hc hp =>
    rw [← hu] at hq
    cases hp.symm.trans hq
    exact ⟨_, rfl, by rw [price?_entry, hx]⟩

theorem price_of_assign {dto : UpdateProductDto} (h : dto.assign q = .ok p) :
    p.id = q.id ∧ p.price = (dto.price.join.map PriceText.number).getD q.price := by
  refine ⟨(of_assign h).1, ?_⟩
  obtain ⟨name, -, h⟩ := ok_of_bind h
  obtain ⟨description, -, h⟩ := ok_of_bind h
  obtain ⟨category, -, h⟩ := ok_of_bind h
  obtain ⟨price, hprice, h⟩ := ok_of_bind h
  obtain ⟨currency, -, h⟩ := ok_of_bind h
  obtain ⟨reservationAware, -, h⟩ := ok_of_bind h
  obtain ⟨isActive, -, h⟩ := ok_of_bind h
  cases h
  rcases hq : dto.price with _ | _ | x <;> rw [hq] at hprice <;> cases hprice <;> rfl

/-- An update that succeeds found a product, and saved it with its own columns laid over. -/
theorem update_eq_ok {dto : UpdateProductDto} {y : WriteAnswer}
    (h : w.update id dto y = (w', .ok (.product p))) :
    ∃ product, (w.findById id).2 = .ok (.product product) ∧ dto.assign product = .ok p ∧
      w' = ((w.save p y.now).invalidate id).invalidateListCaches := by
  have hs := @invalidate_save_findById w id p y.now
  unfold World.update at h
  rcases hf : w.findById id with ⟨w₁, e | product | price | page⟩
  · rw [hf] at h
    cases h
  · rw [hf] at h hs
    dsimp only at h
    cases ha : dto.assign product with
    | error e =>
      rw [ha] at h
      cases h
    | ok p' =>
      rw [ha] at h
      dsimp only at h
      split at h
      · cases h
      · cases h
        exact ⟨product, rfl, ha, by rw [hs]⟩
  · rw [hf] at h
    cases h
  · rw [hf] at h
    cases h

/-- The entries that remain for products after an update: those of other spellings. -/
theorem cache_saved {e : Entry} :
    ((w.save p t).invalidate id).invalidateListCaches.cache v.key = some e ↔
      v.id ≠ id ∧ w.cache v.key = some e := by
  have hcache : ((w.save p t).invalidate id).invalidateListCaches.cache =
      w.cache.del fun k => (decide (k = productKey id.text ∨ k = priceKey id.text)) ||
        isListKey k := Cache.del_del
  rw [hcache, Cache.del_eq_some, View.isListKey_key, Bool.or_false, decide_eq_false_iff_not,
    View.key_mem]

theorem row_saved : ((w.save p t).invalidate id).invalidateListCaches.row u =
    if u = p.id then some (p.written (w.row p.id) t) else w.row u := row_save

theorem mem_saveProduct {products : List Product} (h : q ∈ saveProduct products p t) :
    (∃ updatedAt, q = p.stored updatedAt) ∨ q ∈ products := by
  unfold saveProduct at h
  split at h
  · obtain ⟨a, ha, rfl⟩ := mem_update.mp h
    split
    · rcases @written_cases p (some a) t with ⟨row, hrow, -, he⟩ | ⟨updatedAt, he⟩
      · cases hrow
        exact Or.inr (he.symm ▸ ha)
      · exact Or.inl ⟨updatedAt, he⟩
    · exact Or.inr ha
  · rcases List.mem_append.mp h with h | h
    · exact Or.inr h
    · exact Or.inl ⟨_, List.mem_singleton.mp h⟩

/-- Saving a product of a row keeps a sound world sound. -/
theorem World.Sound.saved (hw : w.Sound) (hp : (w.row p.id).isSome = true) :
    ((w.save p t).invalidate id).invalidateListCaches.Sound := by
  refine hw.of_entries (fun q hq => ?_) (fun u hu => ?_) fun v e he => (cache_saved.mp he).2
  · rcases mem_saveProduct hq with ⟨updatedAt, rfl⟩ | hq
    · obtain ⟨q, hrow⟩ := Option.isSome_iff_exists.mp hp
      obtain ⟨hmem, hid⟩ := id_of_row hrow
      exact ⟨kept_stored p updatedAt, hid ▸ (hw.rows q hmem).2⟩
    · exact hw.rows q hq
  · rw [row_saved]
    split
    · rfl
    · exact hu

/-- The product an update found has a row, and the update keeps its id. -/
theorem World.Sound.of_findById (hw : w.Sound) (hq : (w.findById id).2 = .ok (.product q)) :
    q.id = id.uuid ∧ q.Kept ∧ (w.row id.uuid).isSome = true := by
  generalize hr : w.findById id = r at hq
  have hf := hr ▸ @found_findById w id
  cases hf with
  | hit e hc =>
    cases hq
    obtain ⟨p, he, hid, hp, hs⟩ := hw.entries (.product id) _ hc
    cases he
    exact ⟨hid, hp, hs⟩
  | missing hc hn => cases hq
  | filled p hc hp =>
    obtain rfl : p = q := by simpa using hq
    obtain ⟨hmem, hid⟩ := id_of_row hp
    exact ⟨hid, (hw.rows p hmem).1, Option.isSome_iff_exists.mpr ⟨p, hp⟩⟩

/-- A listing fills no key of a product. -/
theorem list_keeps (params : ProductListParams) :
    (w.list numeral ilike rank params).1.products = w.products ∧
      (w.list numeral ilike rank params).1.fresh = w.fresh ∧
      ∀ v : View, (w.list numeral ilike rank params).1.cache v.key = w.cache v.key := by
  unfold World.list
  dsimp only
  split
  · exact ⟨rfl, rfl, fun v => rfl⟩
  · refine ⟨rfl, rfl, fun v => Cache.set_of_ne fun hk => ?_⟩
    have hl := v.isListKey_key
    rw [hk, isListKey_buildListCacheKey] at hl
    cases hl

theorem cache_expire {key : String} {e : Entry}
    (h : (w.cache.del fun k => k = key) v.key = some e) : w.cache v.key = some e :=
  (Cache.del_eq_some.mp h).2

theorem World.Sound.call (hw : w.Sound) (h : w.call numeral ilike rank c = some w') :
    w'.Sound := by
  cases c with
  | create dto y =>
    obtain rfl : (w.create dto y).1 = w' := Option.some.inj h
    unfold World.create
    split
    · exact hw
    · refine hw.of_entries ?_ (fun u hu => ?_) fun v e he => (Cache.del_eq_some.mp he).2
      · refine forall_mem_concat (fun q hq => ?_) ⟨kept_stored _ _, Nat.lt_succ_self _⟩
        exact ⟨(hw.rows q hq).1, Nat.lt_succ_of_lt (hw.rows q hq).2⟩
      · obtain ⟨q, hq⟩ := Option.isSome_iff_exists.mp hu
        have hl : lookup Product.id u w.products = some q := hq
        simp only [World.row, World.invalidateListCaches]
        rw [lookup_append, hl, Option.some_or, Option.isSome_some]
  | update id dto y =>
    obtain rfl : (w.update id dto y).1 = w' := Option.some.inj h
    rcases @update_cases w id dto y with ⟨hstop, -⟩ | ⟨q, p, hq, ha, -, hsaved⟩
    · rw [hstop]
      exact hw.read (v := .product id)
    · obtain ⟨hid, -, hrow⟩ := hw.of_findById hq
      rw [← hid, ← (of_assign ha).1] at hrow
      rw [hsaved]
      exact hw.saved hrow
  | findById id =>
    cases h
    exact hw.read (v := .product id)
  | findPriceById id =>
    cases h
    exact hw.read (v := .price id)
  | list params =>
    obtain rfl : (w.list numeral ilike rank params).1 = w' := Option.some.inj h
    obtain ⟨hrows, hfresh, hcache⟩ := @list_keeps numeral ilike rank w params
    refine hw.of_entries (by rw [hrows, hfresh]; exact hw.rows) (fun u hu => ?_) fun v e he => ?_
    · rwa [World.row, hrows]
    · rwa [hcache] at he
  | expire key =>
    cases h
    exact hw.of_entries hw.rows (fun u hu => hu) fun v e he => cache_expire he

/-- A call that leaves the product alone leaves its price as it shows. -/
theorem World.Shows.call (hw : w.Sound) (hs : w.Shows u x) (hc : Call.Leaves u c)
    (h : w.call numeral ilike rank c = some w') : w'.Shows u x := by
  cases c with
  | create dto y =>
    obtain rfl : (w.create dto y).1 = w' := Option.some.inj h
    unfold World.create
    split
    · exact hs
    · obtain ⟨q, hq, hx⟩ := hs.row
      refine ⟨⟨q, ?_, hx⟩, fun v hu e he => hs.entries v hu e (Cache.del_eq_some.mp he).2⟩
      have hl : lookup Product.id u w.products = some q := hq
      simp only [World.row, World.invalidateListCaches]
      rw [lookup_append, hl, Option.some_or]
  | update id dto y =>
    obtain rfl : (w.update id dto y).1 = w' := Option.some.inj h
    rcases @update_cases w id dto y with ⟨hstop, -⟩ | ⟨q, p, hq, ha, -, hsaved⟩
    · rw [hstop]
      exact hs.read (v := .product id)
    · have hne : u ≠ p.id := by
        rw [(of_assign ha).1, (hw.of_findById hq).1]
        exact Ne.symm hc
      rw [hsaved]
      constructor
      · rw [row_saved, if_neg hne]
        exact hs.row
      · exact fun v hu e he => hs.entries v hu e (cache_saved.mp he).2
  | findById id =>
    cases h
    exact hs.read (v := .product id)
  | findPriceById id =>
    cases h
    exact hs.read (v := .price id)
  | list params =>
    obtain rfl : (w.list numeral ilike rank params).1 = w' := Option.some.inj h
    obtain ⟨hrows, -, hcache⟩ := @list_keeps numeral ilike rank w params
    constructor
    · rw [World.row, hrows]
      exact hs.row
    · intro v hu e he
      rw [hcache] at he
      exact hs.entries v hu e he
  | expire key =>
    cases h
    exact ⟨hs.row, fun v hu e he => hs.entries v hu e (cache_expire he)⟩

theorem World.Shows.exec {calls : List Call} (hw : w.Sound) (hs : w.Shows u x)
    (hc : ∀ c ∈ calls, Call.Leaves u c)
    (h : exec (World.call numeral ilike rank) w calls = some w') : w'.Shows u x := by
  induction calls generalizing w with
  | nil =>
    cases h
    exact hs
  | cons c calls ih =>
    obtain ⟨w₁, hcall, h⟩ := exec_cons_eq_some.mp h
    rw [List.forall_mem_cons] at hc
    exact ih (hw.call hcall) (hs.call hw hc.1 hcall) hc.2 h

/-- Reads of the product tell its price exactly if row and entries have it. -/
theorem echoed_iff_shows (hw : w.Sound)
    (hv : ∃ v : View, v.id.uuid = p.id ∧ w.cache v.key = none) :
    Echoed numeral ilike rank w p ↔ w.Shows p.id p.price.toNumber := by
  constructor
  · intro h
    constructor
    · obtain ⟨v, hid, hc⟩ := hv
      obtain ⟨e, he, hx⟩ := h [] w (fun c hc => nomatch hc) rfl v hid
      generalize hr : w.read v = r at he
      have hf := hr ▸ @found_read w v
      cases hf with
      | hit e' hc' => cases hc.symm.trans hc'
      | missing hc' hn => cases he
      | filled q hc' hq =>
        cases he
        rw [price?_entry] at hx
        exact ⟨q, hid ▸ hq, Option.some.inj hx⟩
    · intro v hid e hc
      obtain ⟨e', he, hx⟩ := h [] w (fun c hc => nomatch hc) rfl v hid
      generalize hr : w.read v = r at he
      have hf := hr ▸ @found_read w v
      cases hf with
      | hit e₁ hc' =>
        cases he
        cases hc.symm.trans hc'
        exact hx
      | missing hc' hn => cases he
      | filled q hc' hq => cases hc.symm.trans hc'
  · intro hs calls w' hcalls h v hid
    exact (hs.exec hw hcalls h).of_read hid

/-- Storing a price leaves it alone when it has two decimals. -/
theorem stored_eq_iff : p.price.stored.toNumber = p.price.toNumber ↔
    ∀ q, p.price = .number q → Numeric.TwoDecimals q := by
  cases hp : p.price with
  | column n =>
    simp [PriceText.stored, PriceText.toNumber]
  | number q =>
    simp only [PriceText.stored, PriceText.toNumber, PriceText.number.injEq]
    constructor
    · rintro h q' rfl
      exact ⟨_, h⟩
    · exact fun h => Numeric.toNumber_ofNumber (h q rfl)

theorem priceOf_of_findById (h : (w.findById id).2 = .ok (.product q)) :
    w.priceOf id = some q.price.toNumber := by
  generalize hr : w.findById id = r at h
  have hf := hr ▸ @found_findById w id
  unfold World.priceOf
  cases hf with
  | hit e hc =>
    obtain rfl : e = .product q := by simpa using h
    rw [hc]
    rfl
  | missing hc hn => cases h
  | filled p hc hp =>
    obtain rfl : p = q := by simpa using h
    rw [hc, hp]
    rfl

/-- The table begins with rows as it keeps them, and identifiers drawn from the generator. -/
theorem World.Sound.start {products : List Product} {fresh : Uuid}
    (h : ∀ p ∈ products, p.Kept ∧ p.id < fresh) : World.Sound ⟨products, .empty, fresh⟩ where
  rows := h
  entries := by rintro v e ⟨⟩

theorem echoed_create_iff (hw : w.Sound) (hfresh : w.fresh < 16 ^ 32) {dto : CreateProductDto}
    {y : WriteAnswer} (h : w.create dto y = (w', .ok (.product p))) :
    Echoed numeral ilike rank w' p ↔ Numeric.TwoDecimals dto.price := by
  have hcall : w.call numeral ilike rank (.create dto y) = some w' := by rw [World.call, h]
  have hw' : w'.Sound := hw.call hcall
  unfold World.create at h
  split at h
  · cases h
  · obtain ⟨hworld, hp⟩ := Prod.mk.inj h
    replace hp := Entry.product.inj (Except.ok.inj hp)
    have hid : p.id = w.fresh := hp ▸ rfl
    have hprice : p.price = .number dto.price := hp ▸ rfl
    have hnone : w.row w.fresh = none := lookup_eq_none.mpr fun q hq => (hw.rows q hq).2.ne
    have hrow : w'.row w.fresh = some (p.stored y.now) := by
      have hl : lookup Product.id w.fresh w.products = none := hnone
      rw [← hworld, ← hp]
      simp only [World.row, World.invalidateListCaches]
      rw [lookup_append, hl, Option.none_or, id_stored, if_pos rfl]
    have hempty (v : View) (hv : v.id.uuid = w.fresh) : w'.cache v.key = none := by
      refine Option.eq_none_iff_forall_ne_some.mpr fun e he => ?_
      rw [← hworld] at he
      obtain ⟨q, -, -, -, hs⟩ := hw.entries v e (Cache.del_eq_some.mp he).2
      rw [hv, hnone] at hs
      cases hs
    let v : View := .product
      ⟨uuidText w.fresh, w.fresh, readUuid_eq_some.mpr (reads_uuidText hfresh)⟩
    rw [echoed_iff_shows hw' ⟨v, hid.symm, hempty v rfl⟩, hid]
    constructor
    · rintro ⟨⟨q, hq, hx⟩, -⟩
      cases hrow.symm.trans hq
      exact stored_eq_iff.mp hx dto.price hprice
    · intro htwo
      refine ⟨⟨_, hrow, stored_eq_iff.mpr fun q hq => ?_⟩, fun v hv e he => ?_⟩
      · rw [hprice] at hq
        cases hq
        exact htwo
      · rw [hempty v hv] at he
        cases he

/-- An update leaves the price it gives, or that of the product it found. -/
theorem priceAfter_of_assign {dto : UpdateProductDto} (hq : (w.findById id).2 = .ok (.product q))
    (ha : dto.assign q = .ok p) : w.priceAfter id dto = some p.price.toNumber := by
  rw [World.priceAfter, priceOf_of_findById hq, (price_of_assign ha).2]
  cases dto.price.join <;> rfl

theorem twoDecimals_of_assign {dto : UpdateProductDto} (hq : q.Kept) (ha : dto.assign q = .ok p) :
    (∀ r, p.price = .number r → Numeric.TwoDecimals r) ↔
      ∀ r ∈ dto.price.join, Numeric.TwoDecimals r := by
  obtain ⟨n, hn⟩ := hq
  rw [(price_of_assign ha).2, hn]
  cases dto.price.join <;> simp

theorem echoed_update_iff (hw : w.Sound) {dto : UpdateProductDto} {y : WriteAnswer}
    (h : w.update id dto y = (w', .ok (.product p))) :
    Echoed numeral ilike rank w' p ↔ ProductWrite.Faithful w (.update id dto y) := by
  have hcall : w.call numeral ilike rank (.update id dto y) = some w' := by rw [World.call, h]
  have hw' : w'.Sound := hw.call hcall
  obtain ⟨q, hq, ha, rfl⟩ := update_eq_ok h
  obtain ⟨hid, hkept, -⟩ := hw.of_findById hq
  have hpid : p.id = id.uuid := (price_of_assign ha).1.trans hid
  have hnone : ((w.save p y.now).invalidate id).invalidateListCaches.cache (View.product id).key =
      none :=
    Option.eq_none_iff_forall_ne_some.mpr fun e he => (cache_saved.mp he).1 rfl
  rw [echoed_iff_shows hw' ⟨.product id, hpid.symm, hnone⟩, hpid, ProductWrite.Faithful,
    ← twoDecimals_of_assign hkept ha, ← stored_eq_iff, priceAfter_of_assign hq ha]
  have hrow : ((w.save p y.now).invalidate id).invalidateListCaches.row id.uuid =
      some (p.written (w.row p.id) y.now) := by
    rw [row_saved, if_pos hpid.symm]
  have hprice : (p.written (w.row p.id) y.now).price.toNumber = p.price.stored.toNumber :=
    congrArg PriceText.toNumber (price_written fun row hr => (hw.rows row (id_of_row hr).1).1)
  constructor
  · rintro ⟨⟨q', hq', hx⟩, hentries⟩
    cases hrow.symm.trans hq'
    exact ⟨hprice.symm.trans hx,
      fun v hv hne e he => hentries v hv e (cache_saved.mpr ⟨hne, he⟩)⟩
  · rintro ⟨hx, hentries⟩
    refine ⟨⟨_, hrow, hprice.trans hx⟩, fun v hv e he => ?_⟩
    obtain ⟨hne, he⟩ := cache_saved.mp he
    exact hentries v hv hne e he

end Worlds

/--
After any run from a table of stored products and an empty cache: when a create or an update
succeeds, every later read of the product, under any spelling of its id, tells the price that
the call returned, until the next update of it, if and only if that price has two decimals
at most and no entry left under another spelling shows another one.
-/
theorem echoed_iff (numeral : ℚ → String) (ilike : String → String → Bool) (rank : Uuid → ℕ)
    (products : List Product) (fresh : Uuid) (calls : List Call) (w w' : World)
    (write : ProductWrite) (p : Product) (hproducts : ∀ p ∈ products, p.Kept ∧ p.id < fresh)
    (hw : exec (World.call numeral ilike rank) ⟨products, .empty, fresh⟩ calls = some w)
    (hfresh : w.fresh < 16 ^ 32) (h : w.write write = (w', .ok (.product p))) :
    Echoed numeral ilike rank w' p ↔ write.Faithful w := by
  have hs : w.Sound :=
    exec_invariant (fun _ _ _ hs hc => World.Sound.call hs hc) (World.Sound.start hproducts) hw
  cases write with
  | create dto y => exact echoed_create_iff hs hfresh h
  | update id dto y => exact echoed_update_iff hs h

def pricedAt (q : ℚ) : CreateProductDto where
  sku := "INK-1"
  name := "Ink"
  description := none
  category := none
  price := q
  currency := none
  reservationAware := none
  isActive := none
  imageUrl := none

/-- A product service without products, which draws this identifier first. -/
def noProducts : World := ⟨[], .empty, lowerId.uuid⟩

theorem two_decimals_echoed : ∃ w' p,
    noProducts.write (.create (pricedAt (1999 / 100)) ⟨1, false⟩) = (w', .ok (.product p)) ∧
      Echoed numberText (fun _ _ => false) id w' p := by
  refine ⟨_, _, rfl, ?_⟩
  refine (echoed_iff numberText (fun _ _ => false) id [] lowerId.uuid [] noProducts _
    (.create (pricedAt (1999 / 100)) ⟨1, false⟩) _ (fun p hp => nomatch hp) rfl (by decide +kernel)
    rfl).mpr ?_
  exact ⟨⟨1999⟩, by norm_num [Numeric.toNumber, pricedAt]⟩

/-- A price of three decimals is answered as it was given, and read rounded. -/
theorem three_decimals_not_echoed : ∃ w' p,
    noProducts.write (.create (pricedAt (19999 / 1000)) ⟨1, false⟩) = (w', .ok (.product p)) ∧
      p.price = .number (19999 / 1000) ∧
      (w'.findPriceById lowerId).2 = .ok (.price (.column ⟨2000⟩) "USD") ∧
      ¬ Echoed numberText (fun _ _ => false) id w' p := by
  refine ⟨_, _, rfl, rfl, by decide +kernel, fun h => ?_⟩
  obtain ⟨e, he, hx⟩ := h [] _ (fun c hc => nomatch hc) rfl (.price lowerId) rfl
  cases he
  exact absurd hx (by decide +kernel)

end ProductService
