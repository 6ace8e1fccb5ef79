import OrderPlatform.Store.Table
import OrderPlatform.Wire.Values

/-! # Notification service: entities and stores

The delivery records, the processed events, and what the dispatcher has been asked to
send.
-/

namespace NotificationService

open Store Wire

inductive NotificationKind
  | email | sms | push
  deriving DecidableEq, Repr

inductive NotificationStatus
  | pending | sent | failed
  deriving DecidableEq, Repr

structure NotificationDelivery where
  id : Uuid
  kind : NotificationKind
  recipient : String
  channel : String
  subject : Option String
  body : String
  status : NotificationStatus
  providerToken : Option String
  eventId : Option String
  eventType : Option String
  correlationId : Option String
  errorMessage : Option String
  sentAt : Option ℕ
  createdAt : ℕ
  deriving DecidableEq, Repr

structure ProcessedEvent where
  eventId : String
  eventType : String
  correlationId : Option String
  processedAt : ℕ
  deriving DecidableEq, Repr

structure CreateNotificationDto where
  kind : NotificationKind
  recipient : String
  channel : String
  subject : Option String
  body : String
  deriving DecidableEq, Repr

/-- The event a record is created for; a record of the REST endpoint has none. -/
structure EventMeta where
  eventId : Option String
  eventType : Option String
  correlationId : Option String
  deriving DecidableEq, Repr

structure DispatchResult where
  success : Bool
  providerToken : Option String
  errorMessage : Option String
  deriving DecidableEq, Repr

/-- A dispatch the provider has answered, with the record it was made for. -/
structure Dispatch where
  recordId : Uuid
  recipient : String
  success : Bool
  deriving DecidableEq, Repr

structure World where
  deliveries : List NotificationDelivery
  processed : List ProcessedEvent
  dispatches : List Dispatch
  fresh : Uuid

def World.empty : World := ⟨[], [], [], 0⟩

/-- The PENDING record of `createAndDispatch`. -/
def World.record (w : World) (dto : CreateNotificationDto) (info : EventMeta) (now : ℕ) :
    NotificationDelivery where
  id := w.fresh
  kind := dto.kind
  recipient := dto.recipient
  channel := dto.channel
  subject := dto.subject
  body := dto.body
  status := .pending
  providerToken := none
  eventId := info.eventId
  eventType := info.eventType
  correlationId := info.correlationId
  errorMessage := none
  sentAt := none
  createdAt := now

/-- `createAndDispatch` up to the point where it starts the dispatch. -/
def World.create (w : World) (dto : CreateNotificationDto) (info : EventMeta) (now : ℕ) : World :=
  { w with
    deliveries := w.deliveries ++ [w.record dto info now]
    fresh := w.fresh + 1 }

/-- `repo.save` of a record that was read or inserted before: every column is written. -/
def World.save (w : World) (record : NotificationDelivery) : World :=
  { w with deliveries := update NotificationDelivery.id record.id (fun _ => record) w.deliveries }

def World.existsByEventIdAndType (w : World) (eventId eventType : String) : Bool :=
  w.processed.any fun p => p.eventId = eventId ∧ p.eventType = eventType

def World.markProcessed (w : World) (eventId eventType : String) (correlationId : Option String)
    (now : ℕ) : World :=
  { w with processed := w.processed ++ [⟨eventId, eventType, correlationId, now⟩] }

/-- The delivery records that exist for an event. -/
def World.notifications (w : World) (eventId eventType : String) : List NotificationDelivery :=
  w.deliveries.filter fun d => d.eventId = some eventId ∧ d.eventType = some eventType

theorem ids_save {w : World} {record : NotificationDelivery} :
    (w.save record).deliveries.map NotificationDelivery.id =
      w.deliveries.map NotificationDelivery.id :=
  map_update_of_eq _ fun _ h => h.symm

theorem id_lt_save {w : World} {record : NotificationDelivery} {n : Uuid}
    (h : ∀ d ∈ w.deliveries, d.id < n) : ∀ d ∈ (w.save record).deliveries, d.id < n := by
  intro d hd
  have hid : d.id ∈ (w.save record).deliveries.map NotificationDelivery.id :=
    List.mem_map_of_mem hd
  rw [ids_save] at hid
  obtain ⟨e, he, heq⟩ := List.mem_map.mp hid
  exact heq ▸ h e he

end NotificationService
