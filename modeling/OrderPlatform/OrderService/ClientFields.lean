import OrderPlatform.OrderService.Validation

/-! # The optional fields of a request

An item of a request may carry a sku and a unit price. The price is overridden by that of
the catalogue, as the name is, but the sku is stored as the client sent it. Two requests
that differ in these fields only are told apart by nothing else.
-/

namespace OrderService

open Store Wire

/-- What an item asks for, without the fields that are optional. -/
def CreateOrderItemDto.asked (p : CreateOrderItemDto) : CreateOrderItemDto :=
  { p with
    sku := none
    unitPrice := none }

def CreateOrderDto.asked (dto : CreateOrderDto) : CreateOrderDto :=
  { dto with items := dto.items.map CreateOrderItemDto.asked }

/-- The item that validation makes of an item of a request and its product. -/
def validatedItem (p : CreateOrderItemDto) (product : ValidatedProduct) : ValidatedItem where
  productId := p.productId
  quantity := p.quantity
  validatedPrice := product.price
  validatedName := product.name
  validatedSku := orDefault p.sku product.sku

/-- The item is made of the catalogue's product. -/
def MadeOf (catalogue : String → Lookup ValidatedProduct) (p : CreateOrderItemDto)
    (item : ValidatedItem) : Prop :=
  ∃ product, catalogue p.productId = .found product ∧ item = validatedItem p product

/-- The client names no sku, or that of the catalogue. -/
def CreateOrderItemDto.NamesCatalogueSku (catalogue : String → Lookup ValidatedProduct)
    (p : CreateOrderItemDto) : Prop :=
  ∀ product, catalogue p.productId = .found product →
    p.sku = none ∨ p.sku = some "" ∨ p.sku = some product.sku

/-- The stored sku is that of the product with the stored identifier. -/
def OrderItem.HasCatalogueSku (catalogue : String → Lookup ValidatedProduct) (item : OrderItem) :
    Prop :=
  ∃ product, catalogue item.productId = .found product ∧ item.sku = product.sku

/-- An item without the order it belongs to. -/
def OrderItem.content (item : OrderItem) : OrderItem := { item with orderId := 0 }

/-- Two orders store the same items and total, and the skus of the catalogue. -/
structure Unsteered (catalogue : String → Lookup ValidatedProduct) (order order' : Order)
    (items items' : List OrderItem) : Prop where
  content : items.map OrderItem.content = items'.map OrderItem.content
  total : order.totalAmount = order'.totalAmount
  skus : ∀ item ∈ items, item.HasCatalogueSku catalogue
  skus' : ∀ item ∈ items', item.HasCatalogueSku catalogue

section Validation

variable {services : Services} {catalogue : String → Lookup ValidatedProduct}
  {dto : CreateOrderDto} {p : CreateOrderItemDto} {item item' : ValidatedItem}
  {items items' : List ValidatedItem}

theorem orDefault_eq_iff {a : Option String} {b : String} :
    orDefault a b = b ↔ a = none ∨ a = some "" ∨ a = some b := by
  cases a with
  | none => simp [orDefault]
  | some s => by_cases hs : s = "" <;> simp [orDefault, hs]

theorem madeOf_priceProduct {i : ℕ} (h : priceProduct services i p = .ok item) :
    MadeOf services.catalogue p item := by
  unfold priceProduct at h
  split at h
  · cases hc : services.catalogue p.productId with
    | found product =>
      rw [hc] at h
      cases h
      exact ⟨product, hc, rfl⟩
    | failed | missing =>
      rw [hc] at h
      cases h
  · cases h

theorem madeOf_validate (h : dto.validate services = .ok items) :
    List.Forall₂ (MadeOf services.catalogue) dto.items items := by
  unfold CreateOrderDto.validate at h
  obtain ⟨user, -, h⟩ := ok_of_bind h
  obtain ⟨address, -, h⟩ := ok_of_bind h
  unfold validateAndPriceProducts at h
  split at h
  · cases h
  · exact forall₂_of_mapIdx (fun _ _ _ => madeOf_priceProduct) (of_promiseAll h)
  · cases h

theorem rightUnique_madeOf : Relator.RightUnique (MadeOf catalogue) := by
  rintro p item item' ⟨product, hc, rfl⟩ ⟨product', hc', rfl⟩
  cases hc.symm.trans hc'
  rfl

/-- Where the client names no sku of its own, the item is made as if it had named none. -/
theorem MadeOf.asked (h : MadeOf catalogue p item) (hp : p.NamesCatalogueSku catalogue) :
    MadeOf catalogue p.asked item := by
  obtain ⟨product, hc, rfl⟩ := h
  refine ⟨product, hc, ?_⟩
  have hsku : orDefault p.sku product.sku = product.sku := orDefault_eq_iff.mpr (hp product hc)
  rw [validatedItem, hsku]
  rfl

/-- Items made where the client names no skus of its own are those of the bare request. -/
theorem forall₂_asked {ps : List CreateOrderItemDto} (h : List.Forall₂ (MadeOf catalogue) ps items)
    (hp : ∀ p ∈ ps, p.NamesCatalogueSku catalogue) :
    List.Forall₂ (MadeOf catalogue) (ps.map CreateOrderItemDto.asked) items := by
  induction h with
  | nil => exact .nil
  | cons hm _ ih =>
    rw [List.forall_mem_cons] at hp
    exact .cons (hm.asked hp.1) (ih hp.2)

end Validation

section Rows

variable {catalogue : String → Lookup ValidatedProduct} {p : CreateOrderItemDto}
  {item : ValidatedItem} {asked : List CreateOrderItemDto} (d d' : OrderDraft)

/-- The row of a validated item. -/
def OrderDraft.row (item : ValidatedItem) : OrderItem where
  orderId := d.orderId
  productId := item.productId
  sku := item.validatedSku
  quantity := item.quantity
  unitPrice := .ofNumber item.validatedPrice.toNumber
  lineTotal := .ofNumber (item.lineTotal d.data.arithmetic)
  name := item.validatedName

theorem OrderDraft.items_eq : d.items = d.data.items.map d.row := rfl

theorem OrderDraft.content_items (h : d.data.items = d'.data.items)
    (ha : d.data.arithmetic = d'.data.arithmetic) :
    d.items.map OrderItem.content = d'.items.map OrderItem.content := by
  simp only [items_eq, List.map_map, h]
  refine List.map_congr_left fun item _ => ?_
  simp only [Function.comp_apply, row, OrderItem.content, ha]

theorem OrderDraft.hasCatalogueSku_row (h : MadeOf catalogue p item) :
    (d.row item).HasCatalogueSku catalogue ↔ p.NamesCatalogueSku catalogue := by
  obtain ⟨product, hc, rfl⟩ := h
  simp only [OrderItem.HasCatalogueSku, CreateOrderItemDto.NamesCatalogueSku, row, validatedItem,
    hc, Lookup.found.injEq, exists_eq_left', forall_eq', orDefault_eq_iff]

/-- What relates the members of two lists one by one carries over to all of them. -/
theorem forall_mem_iff_of_forall₂ {α β : Type*} {R : α → β → Prop} {as : List α} {bs : List β}
    {P : α → Prop} {Q : β → Prop} (h : List.Forall₂ R as bs) (hR : ∀ a b, R a b → (P a ↔ Q b)) :
    (∀ a ∈ as, P a) ↔ ∀ b ∈ bs, Q b := by
  induction h with
  | nil => simp
  | cons hab _ ih => rw [List.forall_mem_cons, List.forall_mem_cons, hR _ _ hab, ih]

theorem OrderDraft.hasCatalogueSku_items
    (h : List.Forall₂ (MadeOf catalogue) asked d.data.items) :
    (∀ item ∈ d.items, item.HasCatalogueSku catalogue) ↔
      ∀ p ∈ asked, p.NamesCatalogueSku catalogue := by
  rw [items_eq, List.forall_mem_map]
  exact (forall_mem_iff_of_forall₂ h fun p item hm => (d.hasCatalogueSku_row hm).symm).symm

end Rows

section TwoCalls

variable {catalogue : String → Lookup ValidatedProduct} {dto dto' : CreateOrderDto}
  {d d' : OrderDraft}

/-- Drafts of two requests that ask for the same are the same but for the client's skus. -/
theorem unsteered_drafts (ha : dto.asked = dto'.asked)
    (hsame : d.data.arithmetic = d'.data.arithmetic)
    (h : List.Forall₂ (MadeOf catalogue) dto.items d.data.items)
    (h' : List.Forall₂ (MadeOf catalogue) dto'.items d'.data.items) :
    Unsteered catalogue d.order d'.order d.items d'.items ↔
      (∀ p ∈ dto.items, p.NamesCatalogueSku catalogue) ∧
        ∀ p ∈ dto'.items, p.NamesCatalogueSku catalogue := by
  constructor
  · intro hu
    exact ⟨(d.hasCatalogueSku_items h).mp hu.skus, (d'.hasCatalogueSku_items h').mp hu.skus'⟩
  · rintro ⟨hp, hp'⟩
    have hasked : dto'.items.map CreateOrderItemDto.asked =
        dto.items.map CreateOrderItemDto.asked := congrArg CreateOrderDto.items ha.symm
    have hitems : d.data.items = d'.data.items :=
      List.right_unique_forall₂' rightUnique_madeOf (forall₂_asked h hp)
        (hasked ▸ forall₂_asked h' hp')
    constructor
    · exact d.content_items d' hitems hsame
    · simp only [OrderDraft.order, CreateOrder.totalAmount, hitems, hsame]
    · exact (d.hasCatalogueSku_items h).mpr hp
    · exact (d'.hasCatalogueSku_items h').mpr hp'

/-- What a creation is called with, apart from the request. -/
structure CreateSetting where
  services : Services
  world : World
  isUuid : String → Bool
  correlationId : Option String
  clock : CreateClock
  failAt : Option CallFailure

def CreateSetting.run (c : CreateSetting) (dto : CreateOrderDto) :
    World × Except Thrown OrderCreated :=
  dto.createOrder c.services c.world c.isUuid c.correlationId c.clock c.failAt

/-- The call succeeds and adds these rows. -/
structure CreateSetting.Stores (c : CreateSetting) (dto : CreateOrderDto) (order : Order)
    (items : List OrderItem) : Prop where
  succeeds : ∃ created, (c.run dto).2 = .ok created
  order : (c.run dto).1.db.orders = c.world.db.orders ++ [order]
  items : (c.run dto).1.db.items = c.world.db.items ++ items

theorem CreateSetting.Stores.draft {c : CreateSetting} {order : Order} {items : List OrderItem}
    (h : c.Stores dto order items) : ∃ d : OrderDraft, order = d.order ∧ items = d.items ∧
      d.data.arithmetic = .exact ∧
      List.Forall₂ (MadeOf c.services.catalogue) dto.items d.data.items := by
  obtain ⟨⟨created, hok⟩, horder, hitems⟩ := h
  unfold run at hok horder hitems
  obtain ⟨fresh, e, -, hc⟩ | ⟨made, hv, hc⟩ := dto.createOrder_cases c.services c.world c.isUuid
    c.correlationId c.clock c.failAt
  · rw [hc] at hok
    cases hok
  · rw [hc] at horder hitems
    refine ⟨dto.draft c.world c.isUuid c.correlationId c.clock made, ?_, ?_, rfl,
      madeOf_validate hv⟩
    · exact (List.singleton_injective (List.append_cancel_left horder)).symm
    · exact (List.append_cancel_left hitems).symm

/--
Two calls on one catalogue whose requests differ in the optional fields of their items only,
however the services and the database differ otherwise: what they store is the same, with the
catalogue's skus, exactly when neither client names another sku.
-/
theorem unsteered_iff {c c' : CreateSetting} {order order' : Order} {items items' : List OrderItem}
    (hcatalogue : c.services.catalogue = catalogue)
    (hcatalogue' : c'.services.catalogue = catalogue)
    (ha : dto.asked = dto'.asked) (h : c.Stores dto order items)
    (h' : c'.Stores dto' order' items') :
    Unsteered catalogue order order' items items' ↔
      (∀ p ∈ dto.items, p.NamesCatalogueSku catalogue) ∧
        ∀ p ∈ dto'.items, p.NamesCatalogueSku catalogue := by
  obtain ⟨d, rfl, rfl, hd, hm⟩ := h.draft
  obtain ⟨d', rfl, rfl, hd', hm'⟩ := h'.draft
  rw [hcatalogue] at hm
  rw [hcatalogue'] at hm'
  exact unsteered_drafts ha (hd.trans hd'.symm) hm hm'

end TwoCalls

/-- A request for two pens under a sku of the client's choice, if any. -/
def penDto (sku : Option String) (unitPrice : Option ℚ) : CreateOrderDto where
  customerUserId := "user-1"
  items := [⟨"product-1", sku, 2, unitPrice⟩]
  shippingAddressId := "address-1"
  paymentMethod := none

def penSetting : CreateSetting :=
  ⟨sampleServices, .empty, fun _ => false, none, ⟨0, "1970-01-01T00:00:00.000Z", "19700101", 0⟩,
    none⟩

def penOrder : Order where
  id := 1
  orderNumber := "ORD-19700101-00001"
  customerUserId := "user-1"
  status := .pending
  shippingAddressId := "address-1"
  totalAmount := ⟨3998⟩
  currency := "USD"
  paymentMethod := none
  correlationId := some "0"
  version := 0
  createdAt := 0

def penItem (sku : String) : OrderItem := ⟨1, "product-1", sku, 2, ⟨1999⟩, ⟨3998⟩, "Pen"⟩

def penCreated : OrderCreated := ⟨1, .pending, "ORD-19700101-00001"⟩

theorem plain_stored : penSetting.Stores (penDto none (some 1)) penOrder [penItem "PEN-1"] :=
  ⟨⟨penCreated, by decide +kernel⟩, by decide +kernel, by decide +kernel⟩

theorem named_stored : penSetting.Stores (penDto (some "PEN-1") none) penOrder [penItem "PEN-1"] :=
  ⟨⟨penCreated, by decide +kernel⟩, by decide +kernel, by decide +kernel⟩

theorem unsteered_pens :
    Unsteered sampleServices.catalogue penOrder penOrder [penItem "PEN-1"] [penItem "PEN-1"] ↔
      (∀ p ∈ (penDto none (some 1)).items, p.NamesCatalogueSku sampleServices.catalogue) ∧
        ∀ p ∈ (penDto (some "PEN-1") none).items,
          p.NamesCatalogueSku sampleServices.catalogue :=
  unsteered_iff rfl rfl rfl plain_stored named_stored

/-- The sku a client makes up is stored in place of the catalogue's. -/
theorem client_sku_stored : (penDto none (some 1)).asked = (penDto (some "PEN-X") none).asked ∧
    penSetting.Stores (penDto none (some 1)) penOrder [penItem "PEN-1"] ∧
    penSetting.Stores (penDto (some "PEN-X") none) penOrder [penItem "PEN-X"] ∧
    ¬ Unsteered sampleServices.catalogue penOrder penOrder [penItem "PEN-1"] [penItem "PEN-X"] := by
  refine ⟨rfl, plain_stored, ?_, fun h => absurd h.content (by decide)⟩
  exact ⟨⟨penCreated, by decide +kernel⟩, by decide +kernel, by decide +kernel⟩

end OrderService
