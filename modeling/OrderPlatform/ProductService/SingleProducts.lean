import OrderPlatform.ProductService.Calls

/-! # Single products and their cache

A product has two cache entries for each spelling of its id: the keys follow the text of the
id, while the table compares identifiers. An update deletes the two entries of the spelling
it was called with. The cache stays coherent exactly as long as no update that changes what
an entry shows finds that entry under another spelling.
-/

namespace ProductService

open Runs Store Wire

/-- What a read of one product shows. -/
inductive View
  | product (id : ProductId)
  | price (id : ProductId)

namespace View

def id : View → ProductId
  | .product id => id
  | .price id => id

def key : View → String
  | .product id => productKey id.text
  | .price id => priceKey id.text

def entry : View → Product → Entry
  | .product _, p => .product p
  | .price _, p => .price p.price p.currency

/-- The entry the table has for it. -/
def source (products : List Product) (v : View) : Option Entry :=
  (lookup Product.id v.id.uuid products).map v.entry

theorem key_inj {v v' : View} : v.key = v'.key ↔ v = v' := by
  cases v with
  | product id =>
    cases v' with
    | product id' => simp [key, productKey_inj]
    | price id' => simp [key, productKey_ne_priceKey]
  | price id =>
    cases v' with
    | product id' => simp [key, Ne.symm productKey_ne_priceKey]
    | price id' => simp [key, priceKey_inj]

theorem key_mem {v : View} {id : ProductId} :
    v.key = productKey id.text ∨ v.key = priceKey id.text ↔ v.id = id := by
  cases v with
  | product id' => simp [key, View.id, productKey_inj, productKey_ne_priceKey]
  | price id' => simp [key, View.id, priceKey_inj, Ne.symm productKey_ne_priceKey]

theorem isListKey_key (v : View) : isListKey v.key = false := by
  cases v with
  | product id => exact isListKey_productKey
  | price id => exact isListKey_priceKey

end View

/-- Every read of a product that succeeds returns the row of its id as it is. -/
structure FindsCurrent (w : World) : Prop where
  product : ∀ id e, (w.findById id).2 = .ok e → ∃ p, w.row id.uuid = some p ∧ e = .product p
  price : ∀ id e, (w.findPriceById id).2 = .ok e →
    ∃ p, w.row id.uuid = some p ∧ e = .price p.price p.currency

/-- An update that is saved leaves the entries under other spellings of its id as they show. -/
def MissesNoSpelling (w : World) : Call → Prop
  | .update id dto x => x.fails = false → ∀ p p', w.row id.uuid = some p → dto.assign p = .ok p' →
    ∀ other : ProductId, other.uuid = id.uuid → other ≠ id →
      (w.cache (productKey other.text) ≠ none → p'.written (some p) x.now = p) ∧
        (w.cache (priceKey other.text) ≠ none → (p'.written (some p) x.now).price = p.price ∧
          (p'.written (some p) x.now).currency = p.currency)
  | _ => True

section Coherence

variable {numeral : ℚ → String} {ilike : String → String → Bool} {rank : Uuid → ℕ} {w w' : World}
  {id : ProductId} {c : Call}

/-- A cache coherent with the table of products. -/
abbrev World.Coherent (w : World) : Prop :=
  Cache.Coherent View.key (View.source w.products) w.cache

theorem source_eq_some {products : List Product} {v : View} {e : Entry} :
    v.source products = some e ↔
      ∃ p, lookup Product.id v.id.uuid products = some p ∧ e = v.entry p := by
  simp [View.source, eq_comm]

theorem of_found {v : View} {r : World × Except Thrown Entry} {e : Entry} (hw : w.Coherent)
    (hf : Found w v.id v.key v.entry r) (he : r.2 = .ok e) :
    ∃ p, w.row v.id.uuid = some p ∧ e = v.entry p := by
  cases hf with
  | hit e' hc =>
    cases he
    exact source_eq_some.mp (hw v e hc)
  | missing hc hn => cases he
  | filled p hc hp =>
    cases he
    exact ⟨p, hp, rfl⟩

theorem coherent_of_found {v : View} {r : World × Except Thrown Entry} (hw : w.Coherent)
    (hf : Found w v.id v.key v.entry r) : r.1.Coherent := by
  cases hf with
  | hit e hc => exact hw
  | missing hc hn => exact hw
  | filled p hc hp =>
    refine hw.set fun v' hv => ?_
    rw [View.key_inj.mp hv]
    exact source_eq_some.mpr ⟨p, hp, rfl⟩

theorem findsCurrent_iff : FindsCurrent w ↔ w.Coherent := by
  constructor
  · rintro ⟨hproduct, hprice⟩ (id | id) e hc
    · have hf : w.findById id = (w, .ok e) := by
        unfold World.findById
        rw [show w.cache (productKey id.text) = some e from hc]
      exact source_eq_some.mpr (hproduct id e (by rw [hf]))
    · have hf : w.findPriceById id = (w, .ok e) := by
        unfold World.findPriceById
        rw [show w.cache (priceKey id.text) = some e from hc]
      exact source_eq_some.mpr (hprice id e (by rw [hf]))
  · intro h
    constructor
    · exact fun id e he => of_found (v := .product id) h found_findById he
    · exact fun id e he => of_found (v := .price id) h found_findPriceById he

theorem findById_eq_ok (hw : w.Coherent) {p : Product} (hp : w.row id.uuid = some p) :
    (w.findById id).2 = .ok (.product p) := by
  generalize hr : w.findById id = r
  have hf := hr ▸ @found_findById w id
  cases hf with
  | hit e hc =>
    obtain ⟨q, hq, rfl⟩ := source_eq_some.mp (hw (.product id) e hc)
    cases hp.symm.trans hq
    rfl
  | missing hc hn => cases hp.symm.trans hn
  | filled q hc hq =>
    cases hp.symm.trans hq
    rfl

/-- What a saved update asks of the entries it does not delete. -/
theorem coherent_save_iff (hw : w.Coherent) {p q : Product} {t : ℕ} (hid : p.id = id.uuid)
    (hq : w.row id.uuid = some q) :
    ((w.save p t).invalidate id).invalidateListCaches.Coherent ↔
      ∀ v : View, v.id.uuid = id.uuid → v.id ≠ id → w.cache v.key ≠ none →
        v.entry (p.written (some q) t) = v.entry q := by
  have hrow (v : View) : v.source (w.save p t).products =
      if v.id.uuid = id.uuid then some (v.entry (p.written (some q) t))
      else v.source w.products := by
    have hr : lookup Product.id v.id.uuid (w.save p t).products =
        if v.id.uuid = p.id then some (p.written (w.row p.id) t) else w.row v.id.uuid := row_save
    rw [View.source, hr, hid, hq]
    split <;> rfl
  have hsource (v : View) (hv : v.id.uuid = id.uuid) :
      v.source w.products = some (v.entry q) := by
    rw [View.source, hv, show lookup Product.id id.uuid w.products = some q from hq,
      Option.map_some]
  have hdel (v : View) : ((decide (v.key = productKey id.text ∨ v.key = priceKey id.text)) ||
      isListKey v.key) = false ↔ v.id ≠ id := by
    rw [View.isListKey_key, Bool.or_false, decide_eq_false_iff_not, View.key_mem]
  have hcache : ((w.save p t).invalidate id).invalidateListCaches.cache =
      w.cache.del fun k => (decide (k = productKey id.text ∨ k = priceKey id.text)) ||
        isListKey k := Cache.del_del
  unfold World.Coherent
  rw [hcache, hw.change_iff]
  constructor
  · intro h v hv hne hc
    have hs := h v ((hdel v).mpr hne) hc
    rw [hsource v hv] at hs
    have hs' := (hrow v).symm.trans hs
    rw [if_pos hv] at hs'
    exact Option.some.inj hs'
  · intro h v hd hc
    refine (hrow v).trans ?_
    split
    · rename_i hv
      rw [hsource v hv, h v hv ((hdel v).mp hd) hc]
    · rfl

theorem coherent_create (hw : w.Coherent) (dto : CreateProductDto) (x : WriteAnswer) :
    (w.create dto x).1.Coherent := by
  unfold World.create
  split
  · exact hw
  · refine Cache.Coherent.of_agree (Cache.Coherent.del hw isListKey) fun v hc => ?_
    obtain ⟨e, he⟩ := Option.ne_none_iff_exists'.mp hc
    obtain ⟨p, hp, -⟩ := source_eq_some.mp (hw v e (Cache.del_eq_some.mp he).2)
    simp only [View.source, World.invalidateListCaches]
    rw [lookup_append, hp, Option.some_or]

theorem coherent_list (hw : w.Coherent) (params : ProductListParams) :
    (w.list numeral ilike rank params).1.Coherent := by
  unfold World.list
  dsimp only
  split
  · exact hw
  · refine Cache.Coherent.set hw fun v hv => ?_
    have hl := View.isListKey_key v
    rw [hv, isListKey_buildListCacheKey] at hl
    cases hl

theorem coherent_update_iff (hw : w.Coherent) (dto : UpdateProductDto) (x : WriteAnswer) :
    (w.update id dto x).1.Coherent ↔ MissesNoSpelling w (.update id dto x) := by
  rcases @update_cases w id dto x with ⟨hstop, hwhy⟩ | ⟨q, p, hq, ha, hx, hsaved⟩
  · rw [hstop]
    refine iff_of_true (coherent_of_found (v := .product id) hw found_findById) ?_
    intro hx p p' hp hp'
    rw [hwhy p p' (findById_eq_ok hw hp) hp'] at hx
    cases hx
  · obtain ⟨q', hrow, he⟩ := of_found (v := .product id) hw found_findById hq
    replace hrow : w.row id.uuid = some q' := hrow
    cases he
    rw [hsaved, coherent_save_iff hw ((of_assign ha).1.trans (lookup_eq_some hrow).2) hrow]
    constructor
    · intro h _ p₀ p' hp₀ hp' other hu hne
      cases hrow.symm.trans hp₀
      cases ha.symm.trans hp'
      constructor
      · intro hc
        simpa [View.entry] using h (.product other) hu hne hc
      · intro hc
        simpa [View.entry] using h (.price other) hu hne hc
    · intro h v hu hne hc
      have := h hx q p hrow ha v.id hu hne
      cases v with
      | product other => exact congrArg Entry.product (this.1 hc)
      | price other =>
        obtain ⟨hp, hcur⟩ := this.2 hc
        simp only [View.entry, hp, hcur]

theorem coherent_call_iff (hw : w.Coherent) (h : w.call numeral ilike rank c = some w') :
    w'.Coherent ↔ MissesNoSpelling w c := by
  cases c with
  | create dto x =>
    cases h
    exact iff_of_true (coherent_create hw dto x) trivial
  | update id dto x =>
    cases h
    exact coherent_update_iff hw dto x
  | findById id =>
    cases h
    exact iff_of_true (coherent_of_found (v := .product id) hw found_findById) trivial
  | findPriceById id =>
    cases h
    exact iff_of_true (coherent_of_found (v := .price id) hw found_findPriceById) trivial
  | list params =>
    cases h
    exact iff_of_true (coherent_list hw params) trivial
  | expire key =>
    cases h
    exact iff_of_true (hw.del _) trivial

end Coherence

/--
From any table and an empty cache, reads of single products return current rows in every
state of a run exactly if each update that is saved finds no live product entry of its
product under another spelling of the id, unless it leaves the row as it was, and no live
price entry, unless it leaves price and currency as they were.
-/
theorem always_findsCurrent_iff (numeral : ℚ → String) (ilike : String → String → Bool)
    (rank : Uuid → ℕ) (products : List Product) (fresh : Uuid) (calls : List Call) :
    Always (World.call numeral ilike rank) FindsCurrent ⟨products, .empty, fresh⟩ calls ↔
      AllSteps (World.call numeral ilike rank) MissesNoSpelling ⟨products, .empty, fresh⟩
        calls := by
  have htotal : ∀ w c, ∃ w', World.call numeral ilike rank w c = some w' := fun w c => by
    cases c <;> exact ⟨_, rfl⟩
  obtain ⟨w, hw⟩ := exists_exec htotal ⟨products, .empty, fresh⟩ calls
  refine always_iff_allSteps (I := World.Coherent) ?_ (fun w => findsCurrent_iff.mpr) ?_
    Cache.coherent_empty hw
  · exact fun w c w' hw hc h => (coherent_call_iff hw h).mpr hc
  · exact fun w c w' hw hc h hf => hc ((coherent_call_iff hw h).mp (findsCurrent_iff.mp hf))

/-- A product read in upper case and renamed in lower case is still read under its old name. -/
theorem renamed_read_stale : ∃ w, exec (World.call numberText (fun _ _ => false) id)
    ⟨[pen], .empty, 0⟩ [.findById upperId, .update lowerId rename ⟨1, false⟩] = some w ∧
      ¬ FindsCurrent w := by
  refine ⟨_, rfl, fun h => ?_⟩
  obtain ⟨p, hp, he⟩ := h.product upperId (.product pen) rfl
  cases he
  exact absurd hp (by decide +kernel)

end ProductService
