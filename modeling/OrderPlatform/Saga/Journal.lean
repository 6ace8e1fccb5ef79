import OrderPlatform.Saga.Undisturbed

/-! # The journal of orders

The rows of the outbox as a journal: every order was announced in it when it was stored, and an
event's identifier belongs to one message. Relays that mark rows, and requests that change orders
and append rows of their own, leave it so.
-/

namespace Saga

open Runs Store Wire
open OrderService (Order Outbox Message Broker Relay RelayEffect Faithful StatusEffect createOrder
  createOrder_cases)

section Messages

variable {row row' : Outbox}

theorem eventType_text_inj {t t' : OrderService.EventType} (h : t.text = t'.text) : t = t' := by
  cases t <;> cases t' <;> first | rfl | exact absurd h (by decide)

/-- What a message says of its row. -/
theorem message_inj (h : row.message = row'.message) :
    row.id = row'.id ∧ row.aggregateId = row'.aggregateId ∧ row.eventId = row'.eventId ∧
      row.eventType = row'.eventType := by
  have hlookup (name : String) :
      row.message.headers.lookup name = row'.message.headers.lookup name := by rw [h]
  have hid := hlookup "event-id"
  have htype := hlookup "event-type"
  rw [(header_message row).1, (header_message row').1] at hid
  rw [(header_message row).2, (header_message row').2] at htype
  refine ⟨congrArg Message.rowId h, ?_, ?_, eventType_text_inj (Option.some.inj htype)⟩
  · exact toString_inj.mp (congrArg Message.key h)
  · exact toString_inj.mp (Option.some.inj hid)

end Messages

/-- Every order was announced when it was stored, and an event's identifier is one message's. -/
structure Journaled (w : OrderService.World) : Prop where
  ids : (w.db.orders.map Order.id).Nodup
  stored : ∀ o ∈ w.db.orders, o.id < w.fresh
  drawn : ∀ row : Outbox, row.message ∈ w.db.outbox.map Outbox.message →
    row.id < w.fresh ∧ row.eventId < w.fresh
  events : ∀ row row' : Outbox, row.message ∈ w.db.outbox.map Outbox.message →
    row'.message ∈ w.db.outbox.map Outbox.message → row.eventId = row'.eventId →
      row.message = row'.message
  created : ∀ o ∈ w.db.orders, ∃ row : Outbox, row.message ∈ w.db.outbox.map Outbox.message ∧
    row.eventType = .orderCreated ∧ row.aggregateId = o.id

section Journal

variable {w w' : OrderService.World}

theorem Journaled.of_messages (h : Journaled w)
    (ho : w'.db.orders.map Order.id = w.db.orders.map Order.id)
    (hm : w'.db.outbox.map Outbox.message = w.db.outbox.map Outbox.message)
    (hf : w.fresh ≤ w'.fresh) : Journaled w' where
  ids := ho ▸ h.ids
  stored o hmem := by
    obtain ⟨o', ho', hid⟩ := List.mem_map.mp (ho ▸ List.mem_map_of_mem hmem)
    exact hid ▸ (h.stored o' ho').trans_le hf
  drawn row hrow := (h.drawn row (hm ▸ hrow)).imp (·.trans_le hf) (·.trans_le hf)
  events := hm ▸ h.events
  created o hmem := by
    obtain ⟨o', ho', hid⟩ := List.mem_map.mp (ho ▸ List.mem_map_of_mem hmem)
    rw [hm, ← hid]
    exact h.created o' ho'

/-- A row with identifiers drawn for it is appended. -/
theorem Journaled.append (h : Journaled w) (row : Outbox) (he : w.fresh ≤ row.eventId)
    (hid' : row.id < w'.fresh) (he' : row.eventId < w'.fresh)
    (ho : w'.db.orders = w.db.orders) (hout : w'.db.outbox = w.db.outbox ++ [row])
    (hf : w.fresh ≤ w'.fresh) : Journaled w' := by
  have hold : ∀ r : Outbox, r.message ∈ w'.db.outbox.map Outbox.message →
      r.message ∈ w.db.outbox.map Outbox.message ∨ r.message = row.message := by
    intro r hr
    rw [hout, List.map_append] at hr
    exact (List.mem_append.mp hr).imp id List.mem_singleton.mp
  have hnew : ∀ r : Outbox, r.message ∈ w.db.outbox.map Outbox.message →
      r.eventId ≠ row.eventId := fun r hr => ((h.drawn r hr).2.trans_le he).ne
  constructor
  · rw [ho]
    exact h.ids
  · rw [ho]
    exact fun o hmem => (h.stored o hmem).trans_le hf
  · intro r hr
    rcases hold r hr with hr | hr
    · exact (h.drawn r hr).imp (·.trans_le hf) (·.trans_le hf)
    · obtain ⟨hi, -, hev, -⟩ := message_inj hr
      exact ⟨hi ▸ hid', hev ▸ he'⟩
  · intro r r' hr hr' heq
    rcases hold r hr with hr | hr <;> rcases hold r' hr' with hr' | hr'
    · exact h.events r r' hr hr' heq
    · exact absurd (heq.trans (message_inj hr').2.2.1) (hnew r hr)
    · exact absurd (heq.symm.trans (message_inj hr).2.2.1) (hnew r' hr')
    · exact hr.trans hr'.symm
  · rw [ho, hout, List.map_append]
    intro o hmem
    obtain ⟨r, hr, htype, hagg⟩ := h.created o hmem
    exact ⟨r, List.mem_append_left _ hr, htype, hagg⟩

theorem Journaled.create (h : Journaled w) (isUuid : String → Bool)
    (data : OrderService.CreateOrder) (failAt : Option OrderService.CreateStep) :
    Journaled (createOrder w isUuid data failAt).1 := by
  rcases createOrder_cases w isUuid data failAt with he | he
  · rw [he]
    exact h.of_messages rfl rfl (Nat.le_add_right _ _)
  · rw [he]
    have hmem : (w.orderDraft isUuid data).entry.message ∈
        ((w.orderDraft isUuid data).created w.db).outbox.map Outbox.message :=
      List.mem_map_of_mem (List.mem_append_right _ (List.mem_singleton_self _))
    have hrows : Journaled ⟨{ w.db with
        outbox := w.db.outbox ++ [(w.orderDraft isUuid data).entry] }, w.fresh + 5⟩ :=
      h.append (w.orderDraft isUuid data).entry (Nat.le_add_right w.fresh 4)
        (Nat.add_lt_add_left (by decide) _) (Nat.add_lt_add_left (by decide) _) rfl rfl
        (Nat.le_add_right _ _)
    constructor
    · show ((w.db.orders ++ [(w.orderDraft isUuid data).order]).map Order.id).Nodup
      refine nodup_map_concat h.ids fun o ho => ?_
      exact ((h.stored o ho).trans (Nat.lt_succ_self _)).ne
    · refine forall_mem_concat (fun o ho => (h.stored o ho).trans_le (Nat.le_add_right _ _)) ?_
      exact Nat.add_lt_add_left (by decide) _
    · exact hrows.drawn
    · exact hrows.events
    · exact forall_mem_concat hrows.created ⟨_, hmem, rfl, rfl⟩

theorem Journaled.status {x : OrderService.StatusAnswer} {c c' : OrderService.StatusCall}
    (h : Journaled w) (he : StatusEffect w x c w' c') : Journaled w' := by
  cases he with
  | update r order =>
    refine h.of_messages (map_update_of_eq _ fun _ _ => by rfl) rfl le_rfl
  | insert r order answer =>
    have hdrawn : w.fresh ≤ (r.entry order w.fresh x.toClock).eventId :=
      Nat.le_add_right w.fresh 2
    refine h.append _ hdrawn ?_ ?_ rfl rfl (Nat.le_add_right w.fresh 3) <;>
      simp [OrderService.StatusChange.entry, OrderService.createEntry, OrderService.World.append]
  | _ => exact h

end Journal

/-- The identifiers of the rows are drawn ones, so that a new row is a new one. -/
theorem Journaled.unused {w : OrderService.World} (h : Journaled w) {id : Uuid}
    (hid : w.fresh ≤ id) : id ∉ w.db.outbox.map Outbox.id := by
  intro hmem
  obtain ⟨row, hrow, rfl⟩ := List.mem_map.mp hmem
  exact ((h.drawn row (List.mem_map_of_mem hrow)).1.trans_le hid).false

namespace System

variable {ι κ ν : Type}

/-- The rows and messages of the order service are in order. -/
structure Told (s : System ι κ ν) : Prop where
  journaled : Journaled s.orders
  broker : Faithful s.broker
  relays : ∀ j, (s.relays j).Copies s.broker

variable {s : System ι κ ν}

theorem told_append {row : Outbox} {b : Broker} (hb : Faithful b) (hs : row.status = .pending)
    (hid : row.id ∉ b.outbox.map Outbox.id) {r : Relay} (hr : r.Copies b) :
    Faithful { b with outbox := b.outbox ++ [row] } ∧
      r.Copies { b with outbox := b.outbox ++ [row] } := by
  refine ⟨hb.append hs hid, hr.mono (fun m hm => ?_) fun m hm => hm⟩
  rw [List.map_append]
  exact List.mem_append_left _ hm

theorem Told.create (hs : s.Told) (isUuid : String → Bool) (data : OrderService.CreateOrder) :
    Told { s with orders := (createOrder s.orders isUuid data none).1 } := by
  have hj := hs.journaled.create isUuid data none
  rcases createOrder_cases s.orders isUuid data none with he | he
  · rw [he] at hj ⊢
    exact ⟨hj, hs.broker, hs.relays⟩
  · rw [he] at hj ⊢
    have hid := hs.journaled.unused (Nat.le_add_right s.orders.fresh 3)
    exact ⟨hj, (told_append hs.broker rfl hid (r := .idle) trivial).1,
      fun j => (told_append hs.broker rfl hid (hs.relays j)).2⟩

theorem Told.status (hs : s.Told) {x : OrderService.StatusAnswer} {c c' : OrderService.StatusCall}
    {cancels : ι → OrderService.StatusCall} (he : StatusEffect s.orders x c w c') : Told { s with
      orders := w
      cancels := cancels } := by
  have hj := hs.journaled.status he
  cases he with
  | insert r order answer =>
    have hid := hs.journaled.unused (Nat.le_add_right s.orders.fresh 1)
    exact ⟨hj, (told_append hs.broker rfl hid (r := .idle) trivial).1,
      fun j => (told_append hs.broker rfl hid (hs.relays j)).2⟩
  | _ => exact ⟨hj, hs.broker, hs.relays⟩

theorem Told.relay [DecidableEq κ] (hs : s.Told) {j : κ} {b : Broker} {c : Relay}
    (he : RelayEffect s.broker (s.relays j) b c) : Told { s.setBroker b with
      relays := Function.update s.relays j c } := by
  obtain ⟨hb, hc⟩ := he.faithful hs.broker (hs.relays j)
  have hm := messages_of_relay he
  refine ⟨hs.journaled.of_messages rfl hm le_rfl, hb, forall_update hc fun i => ?_⟩
  exact (hs.relays i).mono (fun m h => hm ▸ h) he.acked

end System

end Saga
