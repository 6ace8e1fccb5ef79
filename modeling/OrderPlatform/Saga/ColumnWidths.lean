import OrderPlatform.OrderService.ColumnWidths
import OrderPlatform.PaymentService.ColumnWidths
import OrderPlatform.Saga.OrderCreated

/-! # The widths of the columns an order's amounts cross

A price crosses the columns of three services. The payment tables take every total the order
table takes; the item table is the narrow one.
-/

namespace Saga

open Store Wire
open OrderService (Outbox OrderDraft CreateOrderDto Services CreateClock CallFailure
  ValidatedItem ValidatedProduct)
open PaymentService (Topic HandlerCall Consumer process charge insertCharge)

/-- The payment service handles the message of the row as on columns of any width. -/
def ChargeFits (row : Outbox) : Prop :=
  ∀ (other : PaymentService.World → HandlerCall → PaymentService.Env →
      PaymentService.World × Except Thrown Unit)
    (topic : Topic) (partition : ℕ) (offset : String) (now : ℕ) (env : PaymentService.Env)
    (c : Consumer PaymentService.World), ∃ d,
      PaymentService.handleMessage topic partition (received row offset) now env = some d ∧
      process (handlers insertCharge other) c d = process (handlers charge other) c d

/--
The tables admit an order of the items: a call that validates to them goes as on columns of
any width, and so does the charge of the order it writes.
-/
structure Admitted (dto : CreateOrderDto) (services : Services) : Prop where
  inserts : ∀ w isUuid correlationId x failAt,
    dto.insertOrder services w isUuid correlationId x failAt =
      dto.createOrder services w isUuid correlationId x failAt
  charge : ∀ w isUuid correlationId x items, dto.validate services = .ok items →
    ChargeFits (dto.draft w isUuid correlationId x items).entry

section Charges

variable {d : OrderDraft}

theorem insertCharge_chargeAt (ht : d.order.totalAmount.Fits 12) (w : PaymentService.World)
    (env : PaymentService.Env) :
    insertCharge w (chargeAt d.order d.entry d.data.totalAmount) env =
      charge w (chargeAt d.order d.entry d.data.totalAmount) env := by
  refine PaymentService.insertCharge_of_fits (fun amount ha => ?_) w env
  obtain rfl : d.data.totalAmount = amount := Option.some.inj ha
  exact ht

theorem chargeFits_of_fits (hc : d.correlationId ≠ "") (ht : d.order.totalAmount.Fits 12) :
    ChargeFits d.entry := by
  intro other topic partition offset now env c
  obtain ⟨m, hm, hi⟩ := charged_draft insertCharge other d hc topic partition offset now env c
  obtain ⟨m', hm', hr⟩ := charged_draft charge other d hc topic partition offset now env c
  obtain rfl : m = m' := Option.some.inj (hm.symm.trans hm')
  exact ⟨m, hm, by rw [hi, hr, insertCharge_chargeAt ht]⟩

end Charges

/--
For items at prices of the product table whose total fits the order table, no numeric column
on the way overflows if and only if every price is below 100000000 and every quantity
below 2^31.
-/
theorem admitted_iff (dto : CreateOrderDto) (services : Services) (items : List ValidatedItem)
    (hv : dto.validate services = .ok items) (hp : ∀ item ∈ items, item.Priced)
    (ht : (Numeric.ofNumber (items.map (ValidatedItem.lineTotal .exact)).sum).Fits 12) :
    Admitted dto services ↔ ∀ item ∈ items, item.Narrow := by
  have ht (w : OrderService.World) (isUuid : String → Bool) (correlationId : Option String)
      (x : CreateClock) :
      (dto.draft w isUuid correlationId x items).order.totalAmount.Fits 12 := by
    rwa [← Arithmetic.sum_exact] at ht
  have hfits (w : OrderService.World) (isUuid : String → Bool) (correlationId : Option String)
      (x : CreateClock) : (dto.draft w isUuid correlationId x items).Fits ↔
        ∀ item ∈ items, item.Narrow :=
    OrderDraft.fits_iff rfl (fun item hi => (hp item hi).1) (ht w isUuid correlationId x)
  constructor
  · intro h
    by_contra hn
    let x : CreateClock := ⟨0, "", "", 0⟩
    have hi := CreateOrderDto.insertOrder_of_not_fits hv
      ((hfits .empty (fun _ => false) none x).not.mpr hn)
    obtain ⟨created, hc⟩ :
        ∃ created, (dto.createOrder services .empty (fun _ => false) none x none).2 = .ok created :=
      CreateOrderDto.createOrder_empty hv
    rw [h.inserts, hc] at hi
    cases hi
  · intro hn
    constructor
    · intro w isUuid correlationId x failAt
      exact CreateOrderDto.insertOrder_of_fits hv ((hfits w isUuid correlationId x).mpr hn) failAt
    · intro w isUuid correlationId x items' hv'
      obtain rfl : items = items' := Except.ok.inj (hv.symm.trans hv')
      exact chargeFits_of_fits (w.correlationId_orderDraft isUuid _) (ht w isUuid correlationId x)

/-- The catalogue of the sample, with one product at the price. -/
def servicesAt (price : Numeric) : Services :=
  { OrderService.sampleServices with
    catalogue := fun productId => .found ⟨productId, "Pen", .text price, "PEN-1"⟩ }

def oneItem (quantity : ℕ) : CreateOrderDto :=
  { OrderService.sampleDto with items := [⟨"product-1", none, quantity, none⟩] }

def itemAt (price : Numeric) (quantity : ℕ) : ValidatedItem :=
  ⟨"product-1", quantity, .text price, "Pen", "PEN-1"⟩

theorem admitted_twoPens : Admitted (oneItem 2) (servicesAt ⟨1999⟩) :=
  (admitted_iff _ _ [itemAt ⟨1999⟩ 2] (by decide +kernel) (by decide +kernel)
    (by decide +kernel)).mpr (by decide +kernel)

/-- One product at 100000000.00 fits the product and the order table, and is not recorded. -/
theorem overflow_at_hundredMillion :
    (oneItem 1).validate (servicesAt ⟨10 ^ 10⟩) = .ok [itemAt ⟨10 ^ 10⟩ 1] ∧
    (itemAt ⟨10 ^ 10⟩ 1).Priced ∧
    (Numeric.ofNumber ([itemAt ⟨10 ^ 10⟩ 1].map (ValidatedItem.lineTotal .exact)).sum).Fits 12 ∧
    ((oneItem 1).insertOrder (servicesAt ⟨10 ^ 10⟩) .empty (fun _ => false) none
      ⟨0, "1970-01-01T00:00:00.000Z", "19700101", 0⟩ none).2 = .error .database ∧
    ¬ Admitted (oneItem 1) (servicesAt ⟨10 ^ 10⟩) := by
  have hi : ((oneItem 1).insertOrder (servicesAt ⟨10 ^ 10⟩) .empty (fun _ => false) none
      ⟨0, "1970-01-01T00:00:00.000Z", "19700101", 0⟩ none).2 = .error .database := by
    decide +kernel
  refine ⟨by decide +kernel, by decide +kernel, by decide +kernel, hi, fun h => ?_⟩
  rw [h.inserts] at hi
  exact absurd hi (by decide +kernel)

end Saga
