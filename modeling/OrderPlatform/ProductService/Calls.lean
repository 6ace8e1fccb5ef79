import OrderPlatform.ProductService.Entities
import OrderPlatform.Runs.Basic
import OrderPlatform.Store.CacheAside

/-! # The calls of the product service

Reads look into the cache first and fill it from the tables; writes go to the tables and
delete the keys they name. Calls are executed one after another, and an entry of the cache
can expire between any two of them.
-/

namespace ProductService

open Runs Store Wire

/-- What is kept under a key: a product, a price or a page of a listing. -/
inductive Entry
  | product (p : Product)
  | price (price : PriceText) (currency : String)
  | page (result : PaginatedResult)
  deriving DecidableEq, Repr

structure World where
  products : List Product
  cache : Cache String Entry
  fresh : Uuid

/-- The time a write is made at, and whether the database fails it. -/
structure WriteAnswer where
  now : ℕ
  fails : Bool
  deriving DecidableEq, Repr

/-- A number of rows, as the database rounds it. -/
def rowCount (q : ℚ) : ℕ := (q + 1 / 2).floor.toNat

section Queries

/-!
`ilike` is the database's matching of a text with a pattern, `rank` its order of rows created
at the same time, `numeral` the text of a number.
-/

variable (numeral : ℚ → String) (ilike : String → String → Bool) (rank : Uuid → ℕ)

/-- The conditions of a listing; an empty category or search is none. -/
def ProductListParams.matches (params : ProductListParams) (p : Product) : Bool :=
  (params.category.filter (· ≠ "")).all (p.category = ·) &&
    (params.search.filter (· ≠ "")).all (fun search =>
      ilike p.name ("%" ++ search ++ "%") || ilike p.description ("%" ++ search ++ "%")) &&
    params.minPrice.all (· ≤ p.price.stored.toNumber) &&
    params.maxPrice.all (p.price.stored.toNumber ≤ ·)

/-- `TypeOrmProductRepository.findMany`. -/
def findMany (products : List Product) (params : ProductListParams) : PaginatedResult :=
  let found := products.filter (params.matches ilike)
  let newestFirst := found.insertionSort fun a b =>
    b.createdAt < a.createdAt ∨ b.createdAt = a.createdAt ∧ rank a.id ≤ rank b.id
  { data := (newestFirst.drop (rowCount ((params.page - 1) * params.limit))).take
      (rowCount params.limit)
    total := found.length
    page := params.page
    limit := params.limit }

/-- `TypeOrmProductRepository.save`: every column of the row becomes the product's. -/
def saveProduct (products : List Product) (product : Product) (now : ℕ) : List Product :=
  if (lookup Product.id product.id products).isSome then
    update Product.id product.id (fun row => product.written (some row) now) products
  else products ++ [product.written none now]

namespace World

variable (w : World)

def row (u : Uuid) : Option Product := lookup Product.id u w.products

/-- `ProductService.list`. -/
def list (params : ProductListParams) : World × Entry :=
  let cacheKey := buildListCacheKey numeral params
  match w.cache cacheKey with
  | some cached => (w, cached)
  | none =>
    let result := .page (findMany ilike rank w.products params)
    ({ w with cache := w.cache.set cacheKey result }, result)

def productNotFound (id : ProductId) : Thrown := .notFound ("Product " ++ id.text ++ " not found")

/-- `ProductService.findById`. -/
def findById (id : ProductId) : World × Except Thrown Entry :=
  match w.cache (productKey id.text) with
  | some cached => (w, .ok cached)
  | none =>
    match w.row id.uuid with
    | none => (w, .error (productNotFound id))
    | some product =>
      ({ w with cache := w.cache.set (productKey id.text) (.product product) },
        .ok (.product product))

/-- `ProductService.findPriceById`. -/
def findPriceById (id : ProductId) : World × Except Thrown Entry :=
  match w.cache (priceKey id.text) with
  | some cached => (w, .ok cached)
  | none =>
    match w.row id.uuid with
    | none => (w, .error (productNotFound id))
    | some product =>
      let result := .price product.price product.currency
      ({ w with cache := w.cache.set (priceKey id.text) result }, .ok result)

def invalidateListCaches : World := { w with cache := w.cache.del isListKey }

/-- `ProductService.create`; a second product of a `sku` is refused. -/
def create (dto : CreateProductDto) (x : WriteAnswer) : World × Except Thrown Entry :=
  if x.fails ∨ ∃ p ∈ w.products, p.sku = dto.sku then (w, .error .database)
  else
    let product : Product :=
      { id := w.fresh
        sku := dto.sku
        name := dto.name
        description := dto.description.getD ""
        category := dto.category.getD ""
        price := .number dto.price
        currency := dto.currency.getD "USD"
        reservationAware := dto.reservationAware.getD true
        isActive := dto.isActive.getD true
        imageUrl := dto.imageUrl
        createdAt := x.now
        updatedAt := x.now }
    ({ w with
        products := w.products ++ [product.stored x.now]
        fresh := w.fresh + 1 }.invalidateListCaches, .ok (.product product))

def save (product : Product) (now : ℕ) : World :=
  { w with products := saveProduct w.products product now }

/-- The deletions of `update`: both keys of the id it was called with. -/
def invalidate (id : ProductId) : World :=
  { w with cache := w.cache.del fun k => k = productKey id.text ∨ k = priceKey id.text }

/-- `ProductService.update`. -/
def update (id : ProductId) (dto : UpdateProductDto) (x : WriteAnswer) :
    World × Except Thrown Entry :=
  match w.findById id with
  | (w, .ok (.product product)) =>
    match dto.assign product with
    | .error e => (w, .error e)
    | .ok product =>
      if x.fails then (w, .error .database)
      else
        (((w.save product x.now).invalidate id).invalidateListCaches, .ok (.product product))
  | (w, .ok _) => (w, .error .typeError)
  | (w, .error e) => (w, .error e)

end World

/-- A call with what the database answers, or the end of a cache entry's time. -/
inductive Call
  | create (dto : CreateProductDto) (x : WriteAnswer)
  | update (id : ProductId) (dto : UpdateProductDto) (x : WriteAnswer)
  | findById (id : ProductId)
  | findPriceById (id : ProductId)
  | list (params : ProductListParams)
  | expire (key : String)

def World.call (w : World) : Call → Option World
  | .create dto x => some (w.create dto x).1
  | .update id dto x => some (w.update id dto x).1
  | .findById id => some (w.findById id).1
  | .findPriceById id => some (w.findPriceById id).1
  | .list params => some (w.list numeral ilike rank params).1
  | .expire key => some { w with cache := w.cache.del (· = key) }

end Queries

section Effects

variable {numeral : ℚ → String} {ilike : String → String → Bool} {rank : Uuid → ℕ} {w w' : World}
  {id : ProductId} {p : Product} {u : Uuid} {t : ℕ}

/-- A saved product is the row of its id, and all other rows stay. -/
theorem row_save :
    (w.save p t).row u = if u = p.id then some (p.written (w.row p.id) t) else w.row u := by
  simp only [World.save, World.row, saveProduct]
  split
  · rename_i hs
    obtain ⟨q, hq⟩ := Option.isSome_iff_exists.mp hs
    rw [lookup_update fun _ _ => id_written, hq, Option.map_some]
  · rename_i hs
    rw [Option.not_isSome_iff_eq_none] at hs
    rw [lookup_append, id_written]
    by_cases hu : u = p.id
    · subst hu
      simp [hs]
    · simp [hu, Ne.symm hu]

/-- A read finds an entry, misses the row, or fills the cache with it. -/
inductive Found (w : World) (id : ProductId) (key : String) (entry : Product → Entry) :
    World × Except Thrown Entry → Prop
  | hit (e : Entry) (h : w.cache key = some e) : Found w id key entry (w, .ok e)
  | missing (hc : w.cache key = none) (h : w.row id.uuid = none) :
    Found w id key entry (w, .error (World.productNotFound id))
  | filled (p : Product) (hc : w.cache key = none) (h : w.row id.uuid = some p) :
    Found w id key entry ({ w with cache := w.cache.set key (entry p) }, .ok (entry p))

theorem found_findById : Found w id (productKey id.text) .product (w.findById id) := by
  unfold World.findById
  split
  · exact .hit _ (by assumption)
  · split
    · exact .missing (by assumption) (by assumption)
    · exact .filled _ (by assumption) (by assumption)

theorem found_findPriceById :
    Found w id (priceKey id.text) (fun p => .price p.price p.currency) (w.findPriceById id) := by
  unfold World.findPriceById
  split
  · exact .hit _ (by assumption)
  · split
    · exact .missing (by assumption) (by assumption)
    · exact .filled _ (by assumption) (by assumption)

/-- What the read of an update put into the cache is deleted again. -/
theorem invalidate_save_findById :
    ((w.findById id).1.save p t).invalidate id = (w.save p t).invalidate id := by
  generalize hr : w.findById id = r
  have h := hr ▸ @found_findById w id
  cases h with
  | hit e h => rfl
  | missing hc h => rfl
  | filled q hc h =>
    simp [World.save, World.invalidate, Cache.del_set]

/-- An update stops after its read, or saves and deletes what it names. -/
theorem update_cases (dto : UpdateProductDto) (x : WriteAnswer) :
    ((w.update id dto x).1 = (w.findById id).1 ∧ ∀ product p,
      (w.findById id).2 = .ok (.product product) → dto.assign product = .ok p →
        x.fails = true) ∨
    ∃ product p, (w.findById id).2 = .ok (.product product) ∧ dto.assign product = .ok p ∧
      x.fails = false ∧
      (w.update id dto x).1 = ((w.save p x.now).invalidate id).invalidateListCaches := by
  have hs (p : Product) := @invalidate_save_findById w id p x.now
  unfold World.update
  rcases hf : w.findById id with ⟨w₁, e | product | price | page⟩
  · exact Or.inl ⟨rfl, by simp⟩
  · rw [hf] at hs
    cases ha : dto.assign product with
    | error e =>
      refine Or.inl ⟨by simp [ha], ?_⟩
      rintro _ p ⟨⟩ hp
      rw [ha] at hp
      cases hp
    | ok p =>
      cases hx : x.fails with
      | true => exact Or.inl ⟨by simp [ha], fun _ _ _ _ => rfl⟩
      | false =>
        refine Or.inr ⟨product, p, rfl, ha, rfl, ?_⟩
        simp only [ha, Bool.false_eq_true, if_false]
        rw [← hs p]
  · exact Or.inl ⟨rfl, by simp⟩
  · exact Or.inl ⟨rfl, by simp⟩

end Effects

end ProductService
