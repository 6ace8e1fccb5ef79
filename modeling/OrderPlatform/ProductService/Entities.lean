import Mathlib.Data.List.Basic
import OrderPlatform.Store.Numeric
import OrderPlatform.Store.Table
import OrderPlatform.Wire.DecimalTexts

/-! # Product service: products, their cache keys and the requests

A product is updated column by column from a request whose members may be absent, null or
a value. Cache keys are texts: one for a product, one for its price, and one for each
listing, built from six parameters.
-/

namespace ProductService

open Store Wire

/-- The text of a price: that of its column, or of a number not yet stored. -/
inductive PriceText
  | column (n : Numeric)
  | number (q : ℚ)
  deriving DecidableEq, Repr

/-- What the column makes of the text. -/
def PriceText.stored : PriceText → Numeric
  | .column n => n
  | .number q => .ofNumber q

def PriceText.text : PriceText → String
  | .column n => n.text
  | .number q => numberText q

structure Product where
  id : Uuid
  sku : String
  name : String
  description : String
  category : String
  price : PriceText
  currency : String
  reservationAware : Bool
  isActive : Bool
  imageUrl : Option String
  createdAt : ℕ
  updatedAt : ℕ
  deriving DecidableEq, Repr

structure CreateProductDto where
  sku : String
  name : String
  description : Option String
  category : Option String
  price : ℚ
  currency : Option String
  reservationAware : Option Bool
  isActive : Option Bool
  imageUrl : Option String
  deriving DecidableEq, Repr

/-- The members may be absent (`none`) or null (`some none`). -/
structure UpdateProductDto where
  name : Option (Option String)
  description : Option (Option String)
  category : Option (Option String)
  price : Option (Option ℚ)
  currency : Option (Option String)
  reservationAware : Option (Option Bool)
  isActive : Option (Option Bool)
  imageUrl : Option (Option String)
  deriving DecidableEq, Repr

def UpdateProductDto.empty : UpdateProductDto :=
  ⟨none, none, none, none, none, none, none, none⟩

structure ProductListParams where
  page : ℚ
  limit : ℚ
  category : Option String
  search : Option String
  minPrice : Option ℚ
  maxPrice : Option ℚ
  one_le_page : 1 ≤ page
  one_le_limit : 1 ≤ limit
  limit_le : limit ≤ 100
  deriving DecidableEq

structure PaginatedResult where
  data : List Product
  total : ℕ
  page : ℚ
  limit : ℚ
  deriving DecidableEq, Repr

section Columns

/-- The columns a request may set. -/
inductive Column
  | name | description | category | price | currency | reservationAware | isActive | imageUrl
  deriving DecidableEq, Repr

inductive Value
  | text (s : String)
  | decimal (n : Numeric)
  | flag (b : Bool)
  | nullable (s : Option String)
  deriving DecidableEq, Repr

def Product.column (p : Product) : Column → Value
  | .name => .text p.name
  | .description => .text p.description
  | .category => .text p.category
  | .price => .decimal p.price.stored
  | .currency => .text p.currency
  | .reservationAware => .flag p.reservationAware
  | .isActive => .flag p.isActive
  | .imageUrl => .nullable p.imageUrl

/-- The value a request gives a column. -/
def UpdateProductDto.value (dto : UpdateProductDto) : Column → Option Value
  | .name => dto.name.join.map .text
  | .description => dto.description.join.map .text
  | .category => dto.category.join.map .text
  | .price => dto.price.join.map fun q => .decimal (.ofNumber q)
  | .currency => dto.currency.join.map .text
  | .reservationAware => dto.reservationAware.join.map .flag
  | .isActive => dto.isActive.join.map .flag
  | .imageUrl => dto.imageUrl.map .nullable

/-- A member set on a column that takes no null; the column refuses one when it is saved. -/
def assigned {α : Type*} (member : Option (Option α)) (a : α) : Except Thrown α :=
  match member with
  | none => .ok a
  | some none => .error .database
  | some (some b) => .ok b

/-- The assignments of `ProductService.update`. -/
def UpdateProductDto.assign (dto : UpdateProductDto) (product : Product) :
    Except Thrown Product := do
  let name ← assigned dto.name product.name
  let description ← assigned dto.description product.description
  let category ← assigned dto.category product.category
  let price ← assigned (dto.price.map fun q => q.map .number) product.price
  let currency ← assigned dto.currency product.currency
  let reservationAware ← assigned dto.reservationAware product.reservationAware
  let isActive ← assigned dto.isActive product.isActive
  .ok { product with
    name, description, category, price, currency, reservationAware, isActive
    imageUrl := dto.imageUrl.getD product.imageUrl }

/-- A product as the table keeps it. -/
def Product.stored (p : Product) (updatedAt : ℕ) : Product :=
  { p with price := .column p.price.stored, updatedAt := updatedAt }

/-- The product has no value that differs from the row's, prices being compared as texts. -/
def Product.Unchanged (p row : Product) : Prop :=
  { p with price := row.price } = row ∧ p.price.text = row.price.stored.text

instance (p row : Product) : Decidable (p.Unchanged row) := inferInstanceAs (Decidable (_ ∧ _))

/--
The row of a product that is saved: no statement is issued when nothing differs from the row
there is, and the time of the change is written unless the product brings another one along.
-/
def Product.written (p : Product) (row : Option Product) (now : ℕ) : Product :=
  match row with
  | none => p.stored p.updatedAt
  | some row =>
    if p.Unchanged row then row else p.stored (if p.updatedAt = row.updatedAt then now
      else p.updatedAt)

variable {p p' row : Product} {r : Option Product} {dto : UpdateProductDto} {c : Column} {t : ℕ}

@[simp] theorem id_stored : (p.stored t).id = p.id := rfl

@[simp] theorem column_stored : (p.stored t).column c = p.column c := by
  cases c <;> rfl

/-- A price with the text of a column is stored as that column's value. -/
theorem PriceText.stored_of_text {price : PriceText} {n : Numeric} (h : price.text = n.text) :
    price.stored = n := by
  cases price with
  | column m => exact text_injective h
  | number q => exact ofNumber_of_text h

theorem Product.Unchanged.id_eq (h : p.Unchanged row) : row.id = p.id := by
  rw [← h.1]

theorem Product.Unchanged.column_eq (h : p.Unchanged row) : row.column c = p.column c := by
  have hprice := PriceText.stored_of_text h.2
  rw [← h.1]
  cases c with
  | price => exact congrArg Value.decimal hprice.symm
  | _ => rfl

/-- A saved product leaves its row as it was, or as the product's columns. -/
theorem written_cases : (∃ row, r = some row ∧ p.Unchanged row ∧ p.written r t = row) ∨
    ∃ updatedAt, p.written r t = p.stored updatedAt := by
  cases r with
  | none => exact Or.inr ⟨_, rfl⟩
  | some row =>
    by_cases h : p.Unchanged row
    · exact Or.inl ⟨row, rfl, h, if_pos h⟩
    · exact Or.inr ⟨_, if_neg h⟩

@[simp] theorem id_written : (p.written r t).id = p.id := by
  rcases @written_cases p r t with ⟨row, -, h, he⟩ | ⟨updatedAt, he⟩
  · rw [he, h.id_eq]
  · rw [he, id_stored]

@[simp] theorem column_written : (p.written r t).column c = p.column c := by
  rcases @written_cases p r t with ⟨row, -, h, he⟩ | ⟨updatedAt, he⟩
  · rw [he, h.column_eq]
  · rw [he, column_stored]

theorem value_assigned {α : Type*} {f : α → Value} {member : Option (Option α)} {a b : α}
    (h : assigned member a = .ok b) : f b = (member.join.map f).getD (f a) := by
  unfold assigned at h
  split at h <;> cases h <;> rfl

/-- The request's columns take its values, and all others keep the product's. -/
theorem of_assign (h : dto.assign p = .ok p') :
    p'.id = p.id ∧ ∀ c, p'.column c = (dto.value c).getD (p.column c) := by
  obtain ⟨name, hname, h⟩ := ok_of_bind h
  obtain ⟨description, hdescription, h⟩ := ok_of_bind h
  obtain ⟨category, hcategory, h⟩ := ok_of_bind h
  obtain ⟨price, hprice, h⟩ := ok_of_bind h
  obtain ⟨currency, hcurrency, h⟩ := ok_of_bind h
  obtain ⟨reservationAware, hreservationAware, h⟩ := ok_of_bind h
  obtain ⟨isActive, hisActive, h⟩ := ok_of_bind h
  cases h
  refine ⟨rfl, ?_⟩
  rintro (_ | _ | _ | _ | _ | _ | _ | _)
  · exact value_assigned hname
  · exact value_assigned hdescription
  · exact value_assigned hcategory
  · have hp := value_assigned (f := fun t : PriceText => Value.decimal t.stored) hprice
    cases hq : dto.price with
    | none => simpa [hq, Product.column, UpdateProductDto.value] using hp
    | some q =>
      cases q <;> simpa [hq, Product.column, UpdateProductDto.value, PriceText.stored] using hp
  · exact value_assigned hcurrency
  · exact value_assigned hreservationAware
  · exact value_assigned hisActive
  · exact (Option.getD_map ..).symm

end Columns

section Keys

def productKey (id : String) : String := "product:" ++ id

def priceKey (id : String) : String := "product:price:" ++ id

/-- The parts of a listing's key, with the text of a number. -/
def listCacheKeyParts (numeral : ℚ → String) (params : ProductListParams) : List String :=
  ["product", "list", numeral params.page, numeral params.limit, params.category.getD "*",
    params.search.getD "*", (params.minPrice.map numeral).getD "*",
    (params.maxPrice.map numeral).getD "*"]

def buildListCacheKey (numeral : ℚ → String) (params : ProductListParams) : String :=
  String.intercalate ":" (listCacheKeyParts numeral params)

/-- The keys that `product:list:*` matches. -/
def isListKey (key : String) : Bool := "product:list:".toList.isPrefixOf key.toList

def isHexDigit (c : Char) : Bool :=
  ('0' ≤ c ∧ c ≤ '9') ∨ ('a' ≤ c ∧ c ≤ 'f') ∨ ('A' ≤ c ∧ c ≤ 'F')

def hexValue (c : Char) : ℕ :=
  if c ≤ '9' then c.toNat - '0'.toNat
  else if c ≤ 'F' then c.toNat - 'A'.toNat + 10
  else c.toNat - 'a'.toNat + 10

/-- Eight, four, four, four and twelve digits, with dashes between. -/
def uuidShape : List Bool :=
  List.replicate 8 false ++ [true] ++ List.replicate 4 false ++ [true] ++
    List.replicate 4 false ++ [true] ++ List.replicate 4 false ++ [true] ++
    List.replicate 12 false

/-- The identifier a text stands for, in either case, if it is one `ParseUUIDPipe` lets by. -/
def readUuid (id : String) : Option Uuid :=
  let digits := id.toList.filter (· ≠ '-')
  if id.toList.map (fun c => decide (c = '-')) = uuidShape ∧ digits.all isHexDigit then
    some (digits.foldl (fun n c => 16 * n + hexValue c) 0)
  else none

/-- The id of a request, in whatever case it was written. -/
structure ProductId where
  text : String
  uuid : Uuid
  reads : readUuid text = some uuid
  deriving DecidableEq

variable {numeral : ℚ → String} {id id' : ProductId}

theorem ProductId.eq_of_text (h : id.text = id'.text) : id = id' := by
  obtain ⟨text, u, hu⟩ := id
  obtain ⟨text', u', hu'⟩ := id'
  obtain rfl : text = text' := h
  cases hu.symm.trans hu'
  rfl

theorem ProductId.colon_notMem (id : ProductId) : ':' ∉ id.text.toList := by
  have h := id.reads
  unfold readUuid at h
  dsimp only at h
  split at h
  · rename_i hid
    intro hc
    have := List.all_eq_true.mp hid.2 ':' (List.mem_filter.mpr ⟨hc, by decide⟩)
    exact absurd this (by decide)
  · cases h

theorem productKey_inj : productKey id.text = productKey id'.text ↔ id = id' := by
  refine ⟨fun h => ProductId.eq_of_text ?_, fun h => by rw [h]⟩
  exact (String.append_right_inj "product:").1 h

theorem priceKey_inj : priceKey id.text = priceKey id'.text ↔ id = id' := by
  refine ⟨fun h => ProductId.eq_of_text ?_, fun h => by rw [h]⟩
  exact (String.append_right_inj "product:price:").1 h

theorem productKey_ne_priceKey : productKey id.text ≠ priceKey id'.text := by
  intro he
  have hid : id.text.toList = "price:".toList ++ id'.text.toList := by
    simpa [productKey, priceKey, String.ext_iff] using he
  refine id.colon_notMem ?_
  rw [hid]
  simp

theorem isListKey_productKey : isListKey (productKey id.text) = false := by
  rw [Bool.eq_false_iff]
  intro hl
  obtain ⟨t, ht⟩ := List.isPrefixOf_iff_prefix.mp hl
  have hid : id.text.toList = "list:".toList ++ t := by
    simpa [productKey] using ht.symm
  refine id.colon_notMem ?_
  rw [hid]
  simp

theorem isListKey_priceKey : isListKey (priceKey id.text) = false := by
  simp [isListKey, priceKey, List.isPrefixOf]

theorem isListKey_buildListCacheKey (params : ProductListParams) :
    isListKey (buildListCacheKey numeral params) = true := by
  simp [isListKey, buildListCacheKey, listCacheKeyParts]

end Keys

def lowerId : ProductId :=
  ⟨"0000000a-0000-4000-8000-000000000000", 0x0000000a000040008000000000000000, by decide +kernel⟩

def upperId : ProductId :=
  ⟨"0000000A-0000-4000-8000-000000000000", 0x0000000a000040008000000000000000, by decide +kernel⟩

def pen : Product where
  id := 0x0000000a000040008000000000000000
  sku := "PEN-1"
  name := "Pen"
  description := ""
  category := "office"
  price := .column ⟨1999⟩
  currency := "USD"
  reservationAware := true
  isActive := true
  imageUrl := none
  createdAt := 0
  updatedAt := 0

def rename : UpdateProductDto := { UpdateProductDto.empty with name := some (some "Ink pen") }

end ProductService
