import OrderPlatform.OrderService.Creation
import OrderPlatform.OrderService.Relay
import OrderPlatform.OrderService.StatusChanges
import OrderPlatform.PaymentService.ConcurrentCharges
import OrderPlatform.PaymentService.Consumer

/-! # Orders and their payments

The order service with its relays, the order topic, and the payment service's consumers
as one system. Creations, cancellations, polls and handlers interleave at their atomic
steps; the broker delivers every published message, any number of times.
-/

namespace Saga

open Runs Store Wire
open OrderService (CreateOrder CurrentUser StatusCall StatusEffect Clock Relay RelayEffect Message
  createOrder cancelOrder statusStepOk statusStep_effect relayStep relayStep_effect)
open PaymentService (ChargeCall ChargeEffect ChargeParams HandlerCall Delivery OrderCreatedEvent
  orderEvents processOrderCreated process chargeStep chargeStep_effect)

structure Cancellation where
  orderId : Uuid
  currentUser : CurrentUser
  reason : Option String

inductive Handler
  | idle
  | charging (k : ℕ) (c : ChargeCall)

/--
Both services and the topic between them; `handled` holds the positions of the messages
whose processing has ended.
-/
structure System (ι κ ν : Type) where
  orders : OrderService.World
  cancels : ι → StatusCall
  relays : κ → Relay
  published : List Message
  acked : List Message
  redis : Expiring String
  payments : PaymentService.World
  handlers : ν → Handler
  handled : List ℕ

/-- One atomic step of a party, with what its environment answers. -/
inductive Action (ι κ ν : Type)
  | create (data : CreateOrder)
  | cancel (i : ι) (x : Clock)
  | poll (j : κ) (rank : OrderService.Outbox → ℕ) (now : ℕ)
  | receive (n : ν) (k : ℕ) (partition : String) (now : ℕ)
  | handle (n : ν) (x : PaymentService.Answer)

/-- A published message as the consumer hands it to `process`. -/
def delivery (m : Message) (k : ℕ) (partition : String) (now : ℕ) : Delivery Unit where
  parsed := some m.value
  info := ⟨orderEvents, partition, some (toString k), m.headers⟩
  now := now
  answer := ()

def accept (_ : Option HandlerCall) (call : HandlerCall) (_ : Unit) :
    Option HandlerCall × Except Thrown Unit := (some call, .ok ())

variable {ι κ ν : Type} [DecidableEq ν]

namespace System

def broker (s : System ι κ ν) : OrderService.Broker := ⟨s.orders.db.outbox, s.published, s.acked⟩

def setBroker (s : System ι κ ν) (b : OrderService.Broker) : System ι κ ν :=
  { s with
    orders := { s.orders with db := { s.orders.db with outbox := b.outbox } }
    published := b.published
    acked := b.acked }

/-- Receive a message: the duplicate check, and the start of the handler it asks for. -/
def receive (s : System ι κ ν) (n : ν) (k : ℕ) (d : Delivery Unit) : Option (System ι κ ν) :=
  match process accept ⟨s.redis, none⟩ d with
  | (c, .threw) => some { s with redis := c.redis }
  | (_, .skipped) => some { s with handled := k :: s.handled }
  | (c, .completed) =>
    match c.store with
    | none => some { s with
        redis := c.redis
        handled := k :: s.handled }
    | some (.processOrderCreated data correlationId) =>
      (OrderCreatedEvent.ofJson data).map fun event => { s with
        redis := c.redis
        handlers := Function.update s.handlers n
          (.charging k (.looking (processOrderCreated event correlationId.text))) }
    | some _ => none

theorem receive_frame {s t : System ι κ ν} {n : ν} {k : ℕ} {d : Delivery Unit}
    (h : s.receive n k d = some t) :
    t.orders = s.orders ∧ t.payments = s.payments ∧ t.relays = s.relays ∧
      t.broker = s.broker ∧ (t.handlers = s.handlers ∨ ∃ params,
        t.handlers = Function.update s.handlers n (.charging k (.looking params))) := by
  unfold receive at h
  split at h
  · cases h
    exact ⟨rfl, rfl, rfl, rfl, Or.inl rfl⟩
  · cases h
    exact ⟨rfl, rfl, rfl, rfl, Or.inl rfl⟩
  · split at h
    · cases h
      exact ⟨rfl, rfl, rfl, rfl, Or.inl rfl⟩
    · obtain ⟨event, -, rfl⟩ := Option.map_eq_some_iff.mp h
      exact ⟨rfl, rfl, rfl, rfl, Or.inr ⟨_, rfl⟩⟩
    · cases h

/-- A handler after a step of its charge; one that threw leaves the message to be redelivered. -/
def advance (s : System ι κ ν) (n : ν) (k : ℕ) (w : PaymentService.World) (c : ChargeCall) :
    System ι κ ν :=
  match c with
  | .returned _ => { s with
      payments := w
      handlers := Function.update s.handlers n .idle
      handled := k :: s.handled }
  | .threw _ => { s with
      payments := w
      handlers := Function.update s.handlers n .idle }
  | c => { s with
      payments := w
      handlers := Function.update s.handlers n (.charging k c) }

theorem advance_frame (s : System ι κ ν) (n : ν) (k : ℕ) (w : PaymentService.World)
    (c : ChargeCall) : (s.advance n k w c).orders = s.orders ∧
      (s.advance n k w c).payments = w ∧ (s.advance n k w c).relays = s.relays ∧
      (s.advance n k w c).broker = s.broker ∧
      ((s.advance n k w c).handlers = Function.update s.handlers n .idle ∨
        (s.advance n k w c).handlers = Function.update s.handlers n (.charging k c)) := by
  cases c <;> simp [advance, broker]

variable [DecidableEq ι] [DecidableEq κ]

/-- One step of the system, in which nothing fails. -/
def step (isUuid : String → Bool) (s : System ι κ ν) : Action ι κ ν → Option (System ι κ ν)
  | .create data => some { s with orders := (createOrder s.orders isUuid data none).1 }
  | .cancel i x => (statusStepOk s.orders (s.cancels i) x).map fun r => { s with
      orders := r.1
      cancels := Function.update s.cancels i r.2 }
  | .poll j rank now => (relayStep s.broker (s.relays j) ⟨rank, now, false, false⟩).map fun r =>
      { s.setBroker r.1 with relays := Function.update s.relays j r.2 }
  | .receive n k partition now =>
    match s.handlers n, s.published[k]? with
    | .idle, some m => s.receive n k (delivery m k partition now)
    | _, _ => none
  | .handle n x =>
    match s.handlers n with
    | .idle => none
    | .charging k c => (chargeStep s.payments c x.env).map fun r => s.advance n k r.1 r.2

/-- Empty tables, nothing published, and the given cancellations about to be requested. -/
def start (requests : ι → Cancellation) : System ι κ ν where
  orders := ⟨⟨[], [], []⟩, 0⟩
  cancels i := .reading (cancelOrder (requests i).orderId (requests i).currentUser
    (requests i).reason)
  relays _ := .idle
  published := []
  acked := []
  redis _ := none
  payments := .empty
  handlers _ := .idle
  handled := []

inductive Effect (isUuid : String → Bool) (s : System ι κ ν) :
    Action ι κ ν → System ι κ ν → Prop
  | create (data : CreateOrder) :
    Effect isUuid s (.create data) { s with orders := (createOrder s.orders isUuid data none).1 }
  | cancel (i : ι) (x : Clock) (w : OrderService.World) (c : StatusCall)
    (h : StatusEffect s.orders ⟨x, false⟩ (s.cancels i) w c) :
    Effect isUuid s (.cancel i x) { s with
      orders := w
      cancels := Function.update s.cancels i c }
  | poll (j : κ) (rank : OrderService.Outbox → ℕ) (now : ℕ) (b : OrderService.Broker) (c : Relay)
    (h : RelayEffect s.broker (s.relays j) b c) :
    Effect isUuid s (.poll j rank now)
      { s.setBroker b with relays := Function.update s.relays j c }
  | receive (n : ν) (k : ℕ) (partition : String) (now : ℕ) (m : Message) (t : System ι κ ν)
    (hn : s.handlers n = .idle) (hm : s.published[k]? = some m)
    (h : s.receive n k (delivery m k partition now) = some t) :
    Effect isUuid s (.receive n k partition now) t
  | handle (n : ν) (x : PaymentService.Answer) (k : ℕ) (c : ChargeCall)
    (w : PaymentService.World) (c' : ChargeCall) (hn : s.handlers n = .charging k c)
    (h : ChargeEffect s.payments x.env c w c') :
    Effect isUuid s (.handle n x) (s.advance n k w c')

variable {isUuid : String → Bool} {s t : System ι κ ν} {a : Action ι κ ν}

theorem step_effect (h : step isUuid s a = some t) : Effect isUuid s a t := by
  cases a with
  | create data =>
    cases h
    exact .create data
  | cancel i x =>
    obtain ⟨⟨w, c⟩, hr, rfl⟩ := Option.map_eq_some_iff.mp h
    exact .cancel i x w c (statusStep_effect hr)
  | poll j rank now =>
    obtain ⟨⟨b, c⟩, hr, rfl⟩ := Option.map_eq_some_iff.mp h
    exact .poll j rank now b c (relayStep_effect hr)
  | receive n k partition now =>
    simp only [step] at h
    split at h
    · rename_i hn hm
      exact .receive n k partition now _ t hn hm h
    · cases h
  | handle n x =>
    simp only [step] at h
    split at h
    · cases h
    · rename_i k c hn
      obtain ⟨⟨w, c'⟩, hr, rfl⟩ := Option.map_eq_some_iff.mp h
      exact .handle n x k c w c' hn (chargeStep_effect hr)

end System

end Saga
