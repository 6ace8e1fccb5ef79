import Mathlib.Algebra.Order.BigOperators.Group.List
import OrderPlatform.OrderService.Validation

/-! # The widths of the order tables

The numeric columns of the order tables have a width each, and an insert that overflows one
throws. The price of an item has two digits less than the price of a product, so a creation
that its total lets through is refused when an item costs too much or is too many.
-/

namespace OrderService

open Store Wire

/-- The row overflows no numeric column of `orders`. -/
def Order.Fits (order : Order) : Prop :=
  order.totalAmount.Fits 12 ∧ order.version < 2 ^ 31

/-- The row overflows no numeric column of `order_items`. -/
def OrderItem.Fits (item : OrderItem) : Prop :=
  item.quantity < 2 ^ 31 ∧ item.unitPrice.Fits 10 ∧ item.lineTotal.Fits 12

instance (order : Order) : Decidable order.Fits := inferInstanceAs (Decidable (_ ∧ _))

instance (item : OrderItem) : Decidable item.Fits := inferInstanceAs (Decidable (_ ∧ _))

namespace OrderDraft

variable (d : OrderDraft)

/-- `saveOrder` on a column of the width it has. -/
def insertOrder (db : Db) : Option Db := if d.order.Fits then d.saveOrder db else none

/-- `saveItems` on columns of the widths they have. -/
def insertItems (db : Db) : Option Db :=
  if ∀ item ∈ d.items, item.Fits then some (d.saveItems db) else none

def inserts : List (Stmt CreateStep Db) :=
  [.managed .saveOrder d.insertOrder, .managed .saveItems d.insertItems,
    .managed .createEntry fun db => some (d.saveEntry db)]

def insert (failAt : Option CreateStep) (db : Db) : Db × Option Db :=
  transaction failAt .commit d.inserts db

/-- The rows of the draft overflow no numeric column. -/
def Fits : Prop := d.order.Fits ∧ ∀ item ∈ d.items, item.Fits

variable {d} {db : Db}

theorem insert_of_fits (h : d.Fits) : d.insert = d.record := by
  ext1 failAt
  ext1 db
  have ho : d.insertOrder = d.saveOrder := by
    ext db
    rw [insertOrder, if_pos h.1]
  have hi : d.insertItems = fun db => some (d.saveItems db) := by
    ext db
    rw [insertItems, if_pos h.2]
  rw [insert, record, inserts, statements, ho, hi]

theorem managed_of_mem_inserts : ∀ st ∈ d.inserts, st.Managed := by
  intro st hst
  simp only [inserts, List.mem_cons, List.not_mem_nil, or_false] at hst
  rcases hst with rfl | rfl | rfl <;> trivial

theorem fits_of_writes {v : Db} (h : writes d.inserts db = some v) : d.Fits := by
  simp only [inserts, writes, Option.bind_eq_some_iff] at h
  obtain ⟨db₁, ho, db₂, hi, -⟩ := h
  constructor
  · by_contra hf
    rw [insertOrder, if_neg hf] at ho
    cases ho
  · by_contra hf
    rw [insertItems, if_neg hf] at hi
    cases hi

/-- An overflow rolls the whole creation back. -/
theorem insert_of_not_fits (h : ¬ d.Fits) (failAt : Option CreateStep) (db : Db) :
    d.insert failAt db = (db, none) := by
  rcases transaction_allOrNone managed_of_mem_inserts with ht | ⟨v, hv, -⟩
  · exact ht
  · exact absurd (fits_of_writes hv) h

end OrderDraft

/-- `createOrder` on columns of the widths they have. -/
def insertOrder (w : World) (isUuid : String → Bool) (data : CreateOrder)
    (failAt : Option CreateStep) : World × Except Thrown Uuid :=
  let d := w.orderDraft isUuid data
  ({ db := (d.insert failAt w.db).1
     fresh := w.fresh + 5 },
    if (d.insert failAt w.db).2.isSome then .ok d.orderId else .error .database)

/-- `OrderService.createOrder` on columns of the widths they have. -/
def CreateOrderDto.insertOrder (dto : CreateOrderDto) (services : Services) (w : World)
    (isUuid : String → Bool) (correlationId : Option String) (x : CreateClock)
    (failAt : Option CallFailure) : World × Except Thrown OrderCreated :=
  match dto.validate services with
  | .error e => (w, .error e)
  | .ok items =>
    let data := dto.data items (w.db.generateOrderNumber x) correlationId x
    let record (failAt : Option CreateStep) :=
      let r := OrderService.insertOrder w isUuid data failAt
      (r.1, r.2.map fun id => ⟨id, .pending, data.orderNumber⟩)
    match failAt with
    | some .generateOrderNumber | some .startTransaction => (w, .error .database)
    | some (.recording step) => record (some step)
    | none => record none

section Widths

variable {services : Services} {dto : CreateOrderDto} {items : List ValidatedItem} {w : World}
  {isUuid : String → Bool} {correlationId : Option String} {x : CreateClock}

/-- The price of a product, in the column of the product table. -/
def ValidatedItem.Priced (item : ValidatedItem) : Prop :=
  0 ≤ item.validatedPrice.toNumber ∧ item.validatedPrice.amount.Fits 12

instance (item : ValidatedItem) : Decidable item.Priced := inferInstanceAs (Decidable (_ ∧ _))

/-- What the columns of an item take: a price of eight whole digits, a count of 31 bits. -/
def ValidatedItem.Narrow (item : ValidatedItem) : Prop :=
  item.validatedPrice.toNumber < 10 ^ 8 ∧ item.quantity < 2 ^ 31

instance (item : ValidatedItem) : Decidable item.Narrow := inferInstanceAs (Decidable (_ ∧ _))

theorem ValidatedItem.lineTotal_nonneg {item : ValidatedItem}
    (h : 0 ≤ item.validatedPrice.toNumber) : 0 ≤ item.lineTotal .exact :=
  mul_nonneg h (Nat.cast_nonneg _)

theorem ValidatedItem.lineTotal_le {item : ValidatedItem} (hi : item ∈ items)
    (h : ∀ item ∈ items, 0 ≤ item.validatedPrice.toNumber) :
    item.lineTotal .exact ≤ (items.map (lineTotal .exact)).sum := by
  refine List.single_le_sum (fun q hq => ?_) _ (List.mem_map_of_mem hi)
  obtain ⟨item', hi', rfl⟩ := List.mem_map.mp hq
  exact lineTotal_nonneg (h item' hi')

/-- A draft whose total fits overflows no column when every item is narrow, and only then. -/
theorem OrderDraft.fits_iff {d : OrderDraft} (ha : d.data.arithmetic = .exact)
    (hp : ∀ item ∈ d.data.items, 0 ≤ item.validatedPrice.toNumber)
    (ht : d.order.totalAmount.Fits 12) : d.Fits ↔ ∀ item ∈ d.data.items, item.Narrow := by
  have ho : d.order.Fits := ⟨ht, Nat.two_pow_pos 31⟩
  have hline : ∀ item ∈ d.data.items, (Numeric.ofNumber (item.lineTotal .exact)).Fits 12 := by
    intro item hi
    refine Numeric.Fits.of_le ht ?_ ?_
    · exact Numeric.toNumber_ofNumber_nonneg (ValidatedItem.lineTotal_nonneg (hp item hi))
    · simp only [order, Numeric.toNumber_ofNumber item.twoDecimals,
        Numeric.toNumber_ofNumber (CreateOrder.twoDecimals ha)]
      rw [CreateOrder.totalAmount, ha, Arithmetic.sum_exact]
      exact ValidatedItem.lineTotal_le hi hp
  simp only [Fits, ho, true_and, items, List.forall_mem_map, ha]
  refine forall₂_congr fun item hi => ?_
  have hprice : item.validatedPrice.amount.Fits 10 ↔ item.validatedPrice.toNumber < 10 ^ 8 :=
    Numeric.fits_iff (hp item hi)
  simp only [OrderItem.Fits, Price.ofNumber_toNumber, hprice, hline item hi, and_true,
    ValidatedItem.Narrow]
  exact and_comm

theorem CreateOrderDto.insertOrder_of_fits (hv : dto.validate services = .ok items)
    (hf : (dto.draft w isUuid correlationId x items).Fits) (failAt : Option CallFailure) :
    dto.insertOrder services w isUuid correlationId x failAt =
      dto.createOrder services w isUuid correlationId x failAt := by
  have hr (failAt : Option CreateStep) :
      OrderService.insertOrder w isUuid
          (dto.data items (w.db.generateOrderNumber x) correlationId x) failAt =
        OrderService.createOrder w isUuid
          (dto.data items (w.db.generateOrderNumber x) correlationId x) failAt := by
    have hd := OrderDraft.insert_of_fits hf
    simp only [draft] at hd
    simp only [OrderService.insertOrder, OrderService.createOrder, hd]
  rcases failAt with _ | _ | _ | step <;> simp only [insertOrder, createOrder, hv, hr]

theorem CreateOrderDto.insertOrder_of_not_fits (hv : dto.validate services = .ok items)
    (hf : ¬ (dto.draft w isUuid correlationId x items).Fits) :
    (dto.insertOrder services w isUuid correlationId x none).2 = .error .database := by
  have hd := OrderDraft.insert_of_not_fits hf none w.db
  simp only [draft] at hd
  simp only [insertOrder, hv, OrderService.insertOrder, hd, Option.isSome_none,
    Bool.false_eq_true, if_false]
  rfl

/-- With no row in the tables and no failure, a validated call succeeds on columns of any width. -/
theorem CreateOrderDto.createOrder_empty (hv : dto.validate services = .ok items) :
    ∃ created, (dto.createOrder services .empty isUuid correlationId x none).2 = .ok created := by
  have hr := @OrderService.createOrder_of_unused .empty isUuid
    (dto.data items (World.empty.db.generateOrderNumber x) correlationId x)
    (fun o ho => by cases ho)
  simp only [createOrder, hv, hr]
  exact ⟨_, rfl⟩

end Widths

end OrderService
