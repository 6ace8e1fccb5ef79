import OrderPlatform.OrderService.EventOrder
import OrderPlatform.PaymentService.EventOrder

/-! # Event order of both relays

Neither relay stops its batch at a row that fails, so an order's or a payment's younger
event may be published before its older one.
-/

namespace Saga

open Runs Store Wire

/--
From every content of both outboxes, in every run of each relay whose steps keep the order,
the rows of one aggregate are first published in the order of their creation.
-/
theorem events_in_order {orders : List OrderService.Outbox} {payments : List PaymentService.Outbox}
    (ho : (orders.map OrderService.Outbox.id).Nodup)
    (hp : (payments.map PaymentService.Outbox.id).Nodup) (fresh : Uuid)
    (as : List (OrderService.RelayAction Unit)) (bs : List (PaymentService.RelayAction Unit))
    (ha : AllSteps OrderService.relayAct OrderService.KeepsOrder (OrderService.relayOf orders) as)
    (hb : AllSteps PaymentService.relayStep PaymentService.KeepsOrder
      (PaymentService.relayOf payments fresh) bs) :
    Always OrderService.relayAct (fun p => OrderService.InCreationOrder p.store)
        (OrderService.relayOf orders) as ∧
      Always PaymentService.relayStep (fun p => PaymentService.InCreationOrder p.store)
        (PaymentService.relayOf payments fresh) bs :=
  ⟨OrderService.published_in_order ho as ha, PaymentService.accepted_in_order hp fresh bs hb⟩

/-- An order that is created and then confirmed. -/
def orderRows : List OrderService.Outbox :=
  [OrderService.createEntry 1 11 7 .orderCreated (.obj []) [] 0,
    OrderService.createEntry 2 12 7 .orderConfirmed (.obj []) [] 1]

/-- A payment that is charged and then refunded. -/
def paymentRows : List PaymentService.Outbox :=
  [.append 1 7 .paymentSucceeded 11 (.obj []) [] 0, .append 2 7 .refundIssued 12 (.obj []) [] 1]

def orderPoll (fails : List Bool) : List (OrderService.RelayAction Unit) :=
  fails.map fun fails => .poll () ⟨fun _ => 0, 5, fails, false⟩

def paymentPoll (fails : List Bool) : List (PaymentService.RelayAction Unit) :=
  fails.map fun fails => .poll () ⟨fun _ => 0, fails, 5, "1970-01-01T00:00:05.000Z"⟩

theorem all_published_in_order :
    Always OrderService.relayAct (fun p => OrderService.InCreationOrder p.store)
        (OrderService.relayOf orderRows) (orderPoll [false, false, false, false, false, false]) ∧
      Always PaymentService.relayStep (fun p => PaymentService.InCreationOrder p.store)
        (PaymentService.relayOf paymentRows 20)
        (paymentPoll [false, false, false] ++ [.settle 0 true, .settle 0 true]) :=
  events_in_order (by decide) (by decide) 20 _ _ (by decide +kernel) (by decide +kernel)

/-- The older row's publish fails, the younger row's does not: the next poll publishes late. -/
theorem younger_published_first :
    ¬ Always OrderService.relayAct (fun p => OrderService.InCreationOrder p.store)
        (OrderService.relayOf orderRows)
        (orderPoll [false, true, false, false, false, false, false, false]) ∧
      ¬ Always PaymentService.relayStep (fun p => PaymentService.InCreationOrder p.store)
        (PaymentService.relayOf paymentRows 20)
        (paymentPoll [false, true, false, false, false, false] ++
          [.settle 0 true, .settle 0 true]) := by
  constructor
  · intro h
    obtain ⟨p, hp, hids, hold⟩ : ∃ p ∈ exec OrderService.relayAct (OrderService.relayOf orderRows)
        (orderPoll [false, true, false, false, false, false, false, false]),
        p.store.publishedIds = [2, 1] ∧ p.store.Precedes 1 2 := by decide +kernel
    have ho : InOrder p.store.Precedes p.store.publishedIds := h _ List.prefix_rfl p hp
    rw [hids] at ho
    exact ho [2] 1 List.prefix_rfl (by simp) 2 (by simp) hold
  · intro h
    obtain ⟨p, hp, hids, hold⟩ : ∃ p ∈ exec PaymentService.relayStep
        (PaymentService.relayOf paymentRows 20)
        (paymentPoll [false, true, false, false, false, false] ++
          [.settle 0 true, .settle 0 true]),
        p.store.acceptedIds = [2, 1] ∧ p.store.Precedes 1 2 := by decide +kernel
    have ho : InOrder p.store.Precedes p.store.acceptedIds := h _ List.prefix_rfl p hp
    rw [hids] at ho
    exact ho [2] 1 List.prefix_rfl (by simp) 2 (by simp) hold

end Saga
