import OrderPlatform.NotificationService.Consumer
import OrderPlatform.OrderService.InventoryConsumer
import OrderPlatform.PaymentService.Messages

/-! # What the consumers swallow and what they throw

The order and the notification consumer catch what their handlers throw, and lose the
event; the payment consumer throws on values it cannot read, and so does the notification
consumer on some.
-/

namespace Saga

open Store Wire
open OrderService (Service ProcessAnswer InventoryMessage StatusChange Attempt.Succeeds)
open NotificationService (Message Event)
open PaymentService (Topic HandlerCall Consumer orderEvents)

/--
Neither consumer drops a well-formed event exactly when it was recorded before or its
statements succeed up to the mark; in the notification service a failed check throws.
-/
theorem event_notDropped_iff {readUuid : String → Option Uuid} {m : InventoryMessage}
    {value : Json} {eventId orderId : Uuid}
    {handler : Uuid → Option String → Option String → StatusChange} {n : Message} {e : Event}
    (h : m.Carries readUuid value eventId orderId handler) (hn : n.Carries e) (s : Service)
    (ttl : ℕ) (x : ProcessAnswer) (fails : OrderService.Statement → Bool)
    (w : NotificationService.World) (now : ℕ) (fails' : NotificationService.Statement → Bool) :
    ((OrderService.Attempt.process fails readUuid ttl s m x).NotDropped (s.Recorded eventId) ↔
      s.Recorded eventId ∨ Attempt.Succeeds fails s.world orderId) ∧
    ((NotificationService.Attempt.process fails' w n now).NotDropped
        (w.existsByEventIdAndType e.eventId e.type = true) ↔
      fails' .countProcessed = true ∨ w.existsByEventIdAndType e.eventId e.type = true ∨
        fails' .saveDelivery = false) :=
  ⟨OrderService.Attempt.notDropped_iff h, NotificationService.Attempt.notDropped_iff hn⟩

def sampleUuid (s : String) : Option Uuid :=
  if s = "order-0" then some 0 else if s = "evt-1" then some 1 else none

def reservedValue : Json :=
  .obj [("eventId", .str "evt-1"), ("eventType", .str "InventoryReserved"),
    ("orderId", .str "order-0")]

theorem reserved_carries : (⟨some reservedValue, []⟩ : InventoryMessage).Carries sampleUuid
    reservedValue 1 0 fun orderId correlationId _ =>
      OrderService.handleInventoryReserved orderId correlationId :=
  ⟨rfl, ⟨.str "InventoryReserved", rfl, rfl⟩, ⟨"evt-1", rfl, by decide, rfl⟩, ⟨"order-0", rfl, rfl⟩⟩

def confirmedValue : Json :=
  .obj [("eventId", .str "evt-2"), ("eventType", .str "OrderConfirmed"),
    ("orderId", .str "order-0")]

def confirmedMessage : Message := ⟨some confirmedValue, ⟨"order-events", 0, []⟩⟩

theorem confirmed_carries :
    confirmedMessage.Carries ⟨"evt-2", .str "OrderConfirmed", confirmedValue, none⟩ := by
  refine ⟨?_, rfl, "OrderConfirmed", by decide, rfl⟩
  rintro parsed ⟨⟩
  rfl

def sampleAnswer : ProcessAnswer := ⟨⟨0, "1970-01-01T00:00:00.000Z"⟩, 0, 0, none⟩

theorem reserved_notDropped :
    ((OrderService.Attempt.process (fun _ => false) sampleUuid 86400000
        ⟨OrderService.sampleWorld, []⟩ ⟨some reservedValue, []⟩ sampleAnswer).NotDropped
        (Service.Recorded ⟨OrderService.sampleWorld, []⟩ 1) ↔
      Service.Recorded ⟨OrderService.sampleWorld, []⟩ 1 ∨
        Attempt.Succeeds (fun _ => false) OrderService.sampleWorld 0) ∧
    ((NotificationService.Attempt.process (fun _ => false) .empty confirmedMessage 0).NotDropped
        (NotificationService.World.existsByEventIdAndType .empty "evt-2" "OrderConfirmed" = true) ↔
      (false = true) ∨ NotificationService.World.existsByEventIdAndType .empty "evt-2"
        "OrderConfirmed" = true ∨ (false = false)) :=
  event_notDropped_iff reserved_carries confirmed_carries _ _ _ _ _ _ _

/-- The update of the order, or the insert of the record, fails once: the event is dropped. -/
theorem event_dropped :
    ¬ (OrderService.Attempt.process (fun t => t = .updateStatus) sampleUuid 86400000
        ⟨OrderService.sampleWorld, []⟩ ⟨some reservedValue, []⟩ sampleAnswer).NotDropped
        (Service.Recorded ⟨OrderService.sampleWorld, []⟩ 1) ∧
    ¬ (NotificationService.Attempt.process (fun t => t = .saveDelivery) .empty confirmedMessage
        0).NotDropped
        (NotificationService.World.existsByEventIdAndType .empty "evt-2" "OrderConfirmed" =
          true) := by
  constructor
  · rw [OrderService.Attempt.notDropped_iff reserved_carries]
    rintro (hr | hs)
    · exact hr rfl
    · exact absurd (hs.change _ rfl rfl).1 (by decide)
  · intro h
    exact absurd ((NotificationService.Attempt.notDropped_iff confirmed_carries).mp h) (by decide)

section Contents

variable {σ ε : Type*} (handle : σ → HandlerCall → ε → σ × Except Thrown Unit)

/--
While no statement fails, all three consumers return normally from a message exactly when
the notification and the payment service tolerate what it contains.
-/
theorem message_returns_iff (message : KafkaMessage) (readUuid : String → Option Uuid) (ttl : ℕ)
    (s : Service) (x : ProcessAnswer) (w : NotificationService.World) (name : String)
    (partition now : ℕ) (c : Consumer σ) (topic : Topic) (answer : ε) :
    (OrderService.Attempt.receive (fun _ => false) readUuid ttl s message x).ended = .ok () ∧
      (NotificationService.Attempt.receive (fun _ => false) w name partition message now).ended =
        .ok () ∧
      (PaymentService.receive handle c topic partition message now answer).2 ≠ .threw ↔
    (∀ m, NotificationService.handleMessage name partition message = some m → m.Tolerated w) ∧
      ∀ d, PaymentService.handleMessage topic partition message now answer = some d →
        d.Tolerated handle c := by
  rw [and_iff_right (OrderService.Attempt.ended_receive message)]
  refine and_congr ?_ ?_
  · unfold NotificationService.Attempt.receive
    cases NotificationService.handleMessage name partition message with
    | none => simp
    | some m => simpa using NotificationService.Attempt.ended_process
  · unfold PaymentService.receive
    cases PaymentService.handleMessage topic partition message now answer with
    | none => simp
    | some d => simpa using PaymentService.process_ne_threw

/-- The payment consumer throws on a value that is not JSON. -/
theorem text_throws :
    ¬ ((OrderService.Attempt.receive (fun _ => false) sampleUuid 86400000
          ⟨OrderService.sampleWorld, []⟩ ⟨some (.text none), [], "0"⟩ sampleAnswer).ended = .ok () ∧
      (NotificationService.Attempt.receive (fun _ => false) .empty "order-events" 0
          ⟨some (.text none), [], "0"⟩ 0).ended = .ok () ∧
      (PaymentService.receive PaymentService.transient ⟨fun _ => none, ()⟩ orderEvents 0
          ⟨some (.text none), [], "0"⟩ 0 true).2 ≠ .threw) :=
  fun h => h.2.2 rfl

end Contents

end Saga
