import OrderPlatform.Saga.References

/-! # The prices of ordered items

The price and name of an ordered item pass through the cache of the product service and the
memory of the call before they are written, and the product may be updated meanwhile. They are
those of a row that once stood in the table of products, whatever the client sent.
-/

namespace Saga

open Runs Store Wire
open OrderService (CreateOrderDto ValidatedItem OrderItem StatusEffect)
open ProductService (ProductId Product productKey readUuid)

section Quoted

variable (held : Product → Prop)

/-- The item is one of a product that was held, under its price and name. -/
def Quoted (item : OrderItem) : Prop :=
  ∃ product, held product ∧ readUuid item.productId = some product.id ∧
    item.unitPrice = product.price.stored ∧ item.name = product.name

def QuotedItem (v : ValidatedItem) : Prop :=
  ∃ product, held product ∧ readUuid v.productId = some product.id ∧
    v.validatedPrice.amount = product.price.stored ∧ v.validatedName = product.name

/-- The products of the table and of the cache, and those of the items written, were held. -/
structure Databases.Quoting (t : Databases) : Prop where
  catalogue : t.catalogue.Sound
  rows : ∀ product ∈ t.catalogue.products, held product
  cached : ∀ (id : ProductId) product,
    t.catalogue.cache (productKey id.text) = some (.product product) → held product
  items : ∀ item ∈ t.orders.db.items, Quoted held item

/-- The items a creation has priced were held. -/
def Point.Quoting : Point → Prop
  | .pricing _ _ items => ∀ v, some v ∈ items → QuotedItem held v
  | .numbering _ _ items => ∀ v ∈ items, QuotedItem held v
  | .recording _ _ items _ => ∀ v ∈ items, QuotedItem held v
  | _ => True

end Quoted

section Steps

variable {held : Product → Prop} {p : Platform} {t t' : Databases} {q q' : Point}
  {w w' : ProductService.World} {c : ProductService.Call} {id : ProductId} {product : Product}

/-- A lookup finds a product of the cache or of the table. -/
theorem found_of_findById (h : (w.findById id).2 = .ok (.product product)) :
    w.cache (productKey id.text) = some (.product product) ∨ product ∈ w.products := by
  generalize hr : w.findById id = r at h
  have hf := hr ▸ @ProductService.found_findById w id
  cases hf with
  | hit e hc =>
    cases h
    exact Or.inl hc
  | missing hc hn => cases h
  | filled found hc hp =>
    obtain rfl : found = product := by simpa using h
    exact Or.inr (ProductService.id_of_row hp).1

/-- The products a lookup leaves in the cache were there, or are of the table. -/
theorem cache_findById {id' : ProductId}
    (h : (w.findById id).1.cache (productKey id'.text) = some (.product product)) :
    w.cache (productKey id'.text) = some (.product product) ∨ product ∈ w.products := by
  generalize hr : w.findById id = r at h
  have hf := hr ▸ @ProductService.found_findById w id
  cases hf with
  | hit e hc => exact Or.inl h
  | missing hc hn => exact Or.inl h
  | filled found hc hp =>
    by_cases hid : id' = id
    · subst hid
      obtain rfl : found = product := by simpa using h
      exact Or.inr (ProductService.id_of_row hp).1
    · have hne : productKey id'.text ≠ productKey id.text :=
        fun he => hid (ProductService.productKey_inj.mp he)
      dsimp only at h
      rw [Cache.set_of_ne hne] at h
      exact Or.inl h

/-- So do all other calls, of which those that write fill nothing. -/
theorem cache_call (h : w.call p.numeral p.ilike p.rank c = some w')
    (he : w'.cache (productKey id.text) = some (.product product)) :
    w.cache (productKey id.text) = some (.product product) ∨ product ∈ w.products := by
  cases c with
  | create dto y =>
    obtain rfl : (w.create dto y).1 = w' := Option.some.inj h
    unfold ProductService.World.create at he
    split at he
    · exact Or.inl he
    · exact Or.inl (Cache.del_eq_some.mp he).2
  | update id' dto y =>
    obtain rfl : (w.update id' dto y).1 = w' := Option.some.inj h
    rcases @ProductService.update_cases w id' dto y with ⟨hstop, -⟩ | ⟨q, v, -, -, -, hsaved⟩
    · rw [hstop] at he
      exact cache_findById he
    · rw [hsaved] at he
      exact Or.inl (@ProductService.cache_saved w (.product id) id' v y.now _ |>.mp he).2
  | findById id' =>
    cases h
    exact cache_findById he
  | findPriceById id' =>
    obtain rfl : (w.findPriceById id').1 = w' := Option.some.inj h
    generalize hr : w.findPriceById id' = r at he
    have hf := hr ▸ @ProductService.found_findPriceById w id'
    cases hf with
    | hit e hc => exact Or.inl he
    | missing hc hn => exact Or.inl he
    | filled found hc hp =>
      dsimp only at he
      rw [Cache.set_of_ne ProductService.productKey_ne_priceKey] at he
      exact Or.inl he
  | list params =>
    obtain rfl : (w.list p.numeral p.ilike p.rank params).1 = w' := Option.some.inj h
    obtain ⟨-, -, hcache⟩ := @ProductService.list_keeps p.numeral p.ilike p.rank w params
    exact Or.inl (hcache (.product id) ▸ he)
  | expire key =>
    cases h
    exact Or.inl (ProductService.cache_expire (v := .product id) he)

/-- A lookup of the cache or the table finds what was held. -/
theorem Databases.Quoting.found (hq : t.Quoting held)
    (h : (t.catalogue.findById id).2 = .ok (.product product)) : held product := by
  rcases found_of_findById h with h | h
  · exact hq.cached id product h
  · exact hq.rows product h

theorem Databases.Quoting.afterLookup (hq : t.Quoting held) (text : String) (reached : Bool) :
    (t.afterLookup text reached).Quoting held := by
  rcases afterLookup_cases t text reached with h | ⟨id, h⟩
  · rwa [h]
  · rw [h]
    constructor
    · exact hq.catalogue.read (v := .product id)
    · simp only [products_findById]
      exact hq.rows
    · intro id' product hc
      rcases cache_findById hc with hc | hc
      · exact hq.cached id' product hc
      · exact hq.rows product hc
    · exact hq.items

/-- Only a creation writes items. -/
theorem Databases.Quoting.of_eq (hq : t.Quoting held) (hc : t'.catalogue = t.catalogue)
    (hi : t'.orders.db.items = t.orders.db.items) : t'.Quoting held where
  catalogue := hc.symm ▸ hq.catalogue
  rows := hc.symm ▸ hq.rows
  cached := hc.symm ▸ hq.cached
  items := hi.symm ▸ hq.items

/-- A step after which the rows of the table count as held keeps everything quoted from them. -/
theorem Outcome.quoting (hq : t.Quoting held) (hp : q.Quoting held)
    (hrows : ∀ product ∈ t'.catalogue.products, held product) (h : Outcome p t q t' q') :
    t'.Quoting held := by
  cases h with
  | product c w h =>
    refine ⟨hq.catalogue.call h, hrows, fun id product hc => ?_, hq.items⟩
    rcases cache_call h hc with hc | hc
    · exact hq.cached id product hc
    · exact hq.rows product hc
  | status c c' x w h => exact hq.of_eq rfl (StatusEffect.orders h).2.1
  | unpriced dto corr items id reached e => exact hq.afterLookup id reached
  | priced dto corr items i id reached => exact hq.afterLookup id.text reached
  | recorded dto corr items orderNumber d x fresh customer hd hle hlt hcustomer =>
    refine ⟨hq.catalogue, hq.rows, hq.cached, fun item hm => ?_⟩
    rcases List.mem_append.mp hm with hm | hm
    · exact hq.items item hm
    · obtain ⟨v, hv, rfl⟩ := List.mem_map.mp hm
      rw [hd] at hv
      obtain ⟨product, hheld, hid, hprice, hname⟩ := hp v hv
      exact ⟨product, hheld, hid, by simp [hprice], hname⟩
  | _ => exact hq.of_eq rfl rfl

theorem quoting_priced {dto : CreateOrderDto} {corr : Option String}
    {items : List (Option ValidatedItem)} (h : ∀ v, some v ∈ items → QuotedItem held v) :
    (Point.priced dto corr items).Quoting held := by
  rcases priced_cases dto corr items with hp | ⟨all, rfl, hp⟩ <;> rw [hp]
  · exact h
  · exact fun v hv => h v (List.mem_map_of_mem hv)

theorem Outcome.point_quoting (hq : t.Quoting held) (hp : q.Quoting held)
    (h : Outcome p t q t' q') : q'.Quoting held := by
  cases h with
  | checked dto corr =>
    refine quoting_priced fun v hv => ?_
    obtain ⟨item, -, hn⟩ := List.mem_map.mp hv
    cases hn
  | priced dto corr items i id reached quantity sku product h =>
    refine quoting_priced fun v hv => ?_
    rcases List.mem_or_eq_of_mem_set hv with hv | hv
    · exact hp v hv
    · cases hv
      have hid := (hq.catalogue.of_findById h).1
      exact ⟨product, hq.found h, hid ▸ id.reads, rfl, rfl⟩
  | numbered dto corr items orderNumber => exact hp
  | _ => trivial

theorem quoting_empty : Databases.empty.Quoting held where
  catalogue := (@sound_databasesEmpty some).catalogue
  rows _ h := nomatch h
  cached _ _ h := nomatch h
  items _ h := nomatch h

theorem Point.Starts.quoting (h : q.Starts) : q.Quoting held := by
  cases q with
  | pricing | numbering | recording => exact h.elim
  | _ => trivial

end Steps

/-- The product stood in the table after some first part of the run. -/
def Held {Id : Type} [DecidableEq Id] (p : Platform) (calls : Id → Point)
    (inputs : List (Id × Input)) (product : Product) : Prop :=
  ∃ pre q, pre <+: inputs ∧ exec (Pool.act (databasesStep p)) ⟨.empty, calls⟩ pre = some q ∧
    product ∈ q.store.catalogue.products

/--
However the calls interleave, and however the products are updated while they are cached or a
creation has priced them, every item of an order is at the price and under the name of a row that
stood in the table of products for its identifier at some moment before.
-/
theorem items_quoted {Id : Type} [DecidableEq Id] (p : Platform) (calls : Id → Point)
    (hcalls : ∀ i, (calls i).Starts) (inputs : List (Id × Input)) (q : Pool Databases Point Id)
    (h : exec (Pool.act (databasesStep p)) ⟨.empty, calls⟩ inputs = some q) :
    ∀ item ∈ q.store.orders.db.items, Quoted (Held p calls inputs) item := by
  let held := Held p calls inputs
  have hstart : Pool.Holds (fun t : Databases => t.Quoting held) (fun _ q => q.Quoting held)
      (fun _ _ => True) (⟨.empty, calls⟩ : Pool Databases Point Id) :=
    ⟨quoting_empty, fun i => (hcalls i).quoting, fun _ _ _ => trivial⟩
  have halways : Always (Pool.act (databasesStep p))
      (fun s => ∀ product ∈ s.store.catalogue.products, held product) ⟨.empty, calls⟩ inputs :=
    fun pre hpre s hs product hm => ⟨pre, s, hpre, hs, hm⟩
  have hend := exec_invariant_of_allSteps (fun s a s' hs hrows hact => ?_) hstart halways.allSteps h
  · exact hend.store.items
  · refine hs.act (fun t' q' hq hp hstep => ?_) (fun t' q' l _ _ hl _ _ _ => ⟨hl, trivial, trivial⟩)
      hact
    have ho := databasesStep_outcome hstep
    exact ⟨ho.quoting hq hp (hrows _ (Pool.act_eq_some.mpr ⟨t', q', hstep, rfl⟩)),
      ho.point_quoting hq hp⟩

theorem sale_quoted : ∃ q, sale = some q ∧
    ∀ item ∈ q.store.orders.db.items, Quoted (Held samplePlatform saleCalls saleInputs) item := by
  have hrun : sale.isSome = true := by decide +kernel
  obtain ⟨q, hq⟩ := Option.isSome_iff_exists.mp hrun
  refine ⟨q, hq, items_quoted samplePlatform saleCalls (fun i => ?_) saleInputs q hq⟩
  cases i <;> trivial

end Saga
