import OrderPlatform.OrderService.EventLog
import OrderPlatform.PaymentService.Atomicity
import OrderPlatform.PaymentService.ConcurrentCharges
import OrderPlatform.Saga.Network

/-! # Announcements of orders

Whatever fails, a row of the outbox and a message of the topic were written for an order that is
stored, by its creation or by a change of its status, and repeat what does not change about it.
A change is announced only of an order that has left its first status for good.
-/

namespace Saga

open Runs Store Wire
open OrderService (Order Outbox OrderDraft StatusChange StatusCall StatusEffect Relay RelayEffect
  Message Broker Clock createOrder_cases message_markSent message_markFailed)

/-- What stays the same about an order for as long as it is stored. -/
def terms (o : Order) : Order := { o with status := .pending, version := 0 }

/-- A later row of the same order, which is not pending again once it was changed. -/
structure Follows (o o' : Order) : Prop where
  same : terms o' = terms o
  settled : o.status ≠ .pending → o'.status ≠ .pending

/-- The row, as it was first written, announces the creation or a change of the order. -/
inductive Origin (o : Order) : Outbox → Prop
  | created (d : OrderDraft) (hc : d.correlationId ≠ "") (h : terms d.order = terms o) :
    Origin o d.entry
  | changed (r : StatusChange) (hr : StatusRequest r) (order : Order) (h : terms order = terms o)
    (hid : r.orderId = o.id) (hs : o.status ≠ .pending) (fresh : Uuid) (x : Clock) :
    Origin o (r.entry order fresh x)

def Announced (orders : List Order) (m : Message) : Prop :=
  ∃ o ∈ orders, ∃ row, Origin o row ∧ m = row.message

/-- What is known of the order a request works on. -/
def StatusCall.Grounded (orders : List Order) : StatusCall → Prop
  | .reading r => StatusRequest r
  | .updating r order => StatusRequest r ∧ ∃ o ∈ orders, o.id = r.orderId ∧ terms order = terms o
  | .rereading r order | .inserting r order _ =>
    StatusRequest r ∧ ∃ o ∈ orders, o.id = r.orderId ∧ terms order = terms o ∧ o.status ≠ .pending
  | _ => True

/-- Neither a call that the provider received nor an event of the payment service is forgotten. -/
structure PaymentsKept (w w' : PaymentService.World) : Prop where
  charges : ∀ c ∈ w.charges, c ∈ w'.charges
  events : ∀ row ∈ w.db.outbox, row ∈ w'.db.outbox

/-- Orders stay stored, under the same terms, and so do the messages and what is known of them. -/
structure Network.Kept (n n' : Network) : Prop where
  orders : ∀ o ∈ n.orders.db.orders, ∃ o' ∈ n'.orders.db.orders, Follows o o'
  outbox : ∀ m ∈ n.orders.db.outbox.map Outbox.message, m ∈ n'.orders.db.outbox.map Outbox.message
  acked : ∀ m ∈ n.acked, m ∈ n'.acked
  payments : PaymentsKept n.payments n'.payments

/-- Rows announce orders, and messages are those of rows. -/
structure Network.Announcing (n : Network) : Prop where
  outbox : ∀ m ∈ n.orders.db.outbox.map Outbox.message, Announced n.orders.db.orders m
  published : ∀ m ∈ n.published, m ∈ n.orders.db.outbox.map Outbox.message

def Party.Announcing (n : Network) : Party → Prop
  | .changing c => StatusCall.Grounded n.orders.db.orders c
  | .relaying c => ∀ e ∈ entries c, e.message ∈ n.orders.db.outbox.map Outbox.message
  | _ => True

section Terms

variable {o o' : Order} {row : Outbox} {orders orders' : List Order} {m : Message}

theorem id_of_terms (h : terms o = terms o') : o.id = o'.id :=
  show (terms o).id = (terms o').id from congrArg Order.id h

theorem settled_status (t : OrderService.Target) : t.status ≠ .pending := by
  cases t <;> decide

theorem Follows.refl (o : Order) : Follows o o := ⟨rfl, id⟩

theorem Origin.follows (h : Origin o row) (hf : Follows o o') : Origin o' row := by
  cases h with
  | created d hc h => exact .created d hc (h.trans hf.same.symm)
  | changed r hr order h hid hs fresh x =>
    have hid' : r.orderId = o'.id := hid.trans (id_of_terms hf.same).symm
    exact .changed r hr order (h.trans hf.same.symm) hid' (hf.settled hs) fresh x

theorem Announced.mono (h : Announced orders m)
    (hk : ∀ o ∈ orders, ∃ o' ∈ orders', Follows o o') : Announced orders' m := by
  obtain ⟨o, ho, row, hrow, hm⟩ := h
  obtain ⟨o', ho', hf⟩ := hk o ho
  exact ⟨o', ho', row, hrow.follows hf, hm⟩

theorem StatusCall.Grounded.mono {c : StatusCall} (h : StatusCall.Grounded orders c)
    (hk : ∀ o ∈ orders, ∃ o' ∈ orders', Follows o o') : StatusCall.Grounded orders' c := by
  have hchanged (r : StatusChange) (order : Order)
      (h : StatusCall.Grounded orders (.rereading r order)) :
      StatusCall.Grounded orders' (.rereading r order) := by
    obtain ⟨hr, o, ho, hid, ht, hs⟩ := h
    obtain ⟨o', ho', hf⟩ := hk o ho
    exact ⟨hr, o', ho', (id_of_terms hf.same).trans hid, ht.trans hf.same.symm, hf.settled hs⟩
  cases c with
  | reading r => exact h
  | updating r order =>
    obtain ⟨hr, o, ho, hid, ht⟩ := h
    obtain ⟨o', ho', hf⟩ := hk o ho
    exact ⟨hr, o', ho', (id_of_terms hf.same).trans hid, ht.trans hf.same.symm⟩
  | rereading r order => exact hchanged r order h
  | inserting r order answer => exact hchanged r order h
  | returned | threw => trivial

/-- A request reads the row it is about. -/
theorem StatusRequest.reads {r : StatusChange} (hr : StatusRequest r) {found : Option Order}
    (h : r.check found = .ok (some o)) : found = some o := by
  cases hr with
  | cancel orderId currentUser reason =>
    exact (OrderService.cancelOrder_guarded orderId currentUser reason found o h).1
  | inventory r hi => exact (hi.guarded found o h).1

end Terms

section Network

variable {isUuid : String → Bool} {n n' : Network} {q q' : Party}

/-- Taking a message leaves everything but the marks of the events as it was. -/
theorem receive_redis {d : PaymentService.Delivery Unit} {c : Option PaymentService.ChargeCall}
    (h : n.receive d = some (n', c)) : n' = { n with redis := n'.redis } := by
  unfold Network.receive at h
  split at h
  · cases h
    rfl
  · cases h
    rfl
  · split at h
    · cases h
      rfl
    · obtain ⟨event, -, he⟩ := Option.map_eq_some_iff.mp h
      cases he
      rfl
    · cases h

/-- A message that is taken starts a charge at its lookup. -/
theorem receive_looking {d : PaymentService.Delivery Unit} {c : PaymentService.ChargeCall}
    (h : n.receive d = some (n', some c)) : ∃ params, c = .looking params := by
  unfold Network.receive at h
  split at h
  · cases h
  · cases h
  · split at h
    · cases h
    · obtain ⟨event, -, he⟩ := Option.map_eq_some_iff.mp h
      cases he
      exact ⟨_, rfl⟩
    · cases h

theorem orders_abandon (n : Network) (c : PaymentService.ChargeCall) :
    (n.abandon c).orders = n.orders := by
  unfold Network.abandon
  split <;> rfl

theorem acked_abandon (n : Network) (c : PaymentService.ChargeCall) :
    (n.abandon c).acked = n.acked := by
  unfold Network.abandon
  split <;> rfl

theorem PaymentsKept.refl (w : PaymentService.World) : PaymentsKept w w :=
  ⟨fun _ h => h, fun _ h => h⟩

theorem kept_of_orders (h : n'.orders = n.orders) (ha : n'.acked = n.acked)
    (hp : PaymentsKept n.payments n'.payments) : n.Kept n' where
  orders o ho := ⟨o, h ▸ ho, .refl o⟩
  outbox _ hm := h ▸ hm
  acked _ hm := ha ▸ hm
  payments := hp

theorem paymentsKept_charge {w w' : PaymentService.World} {c c' : PaymentService.ChargeCall}
    {x : PaymentService.Env} (h : PaymentService.chargeStep w c x = some (w', c')) :
    PaymentsKept w w' := by
  cases PaymentService.chargeStep_effect h with
  | call => exact ⟨fun _ h => List.mem_append_left _ h, fun _ h => h⟩
  | append => exact ⟨fun _ h => h, fun _ h => List.mem_append_left _ h⟩
  | _ => exact ⟨fun _ h => h, fun _ h => h⟩

theorem paymentsKept_refund {w w' : PaymentService.World} {c c' : PaymentService.RefundStage}
    {x : PaymentService.Env} (h : PaymentService.refundStatement w c x = some (w', c')) :
    PaymentsKept w w' := by
  cases PaymentService.refundStatement_effect h with
  | append => exact ⟨fun _ h => h, fun _ h => List.mem_append_left _ h⟩
  | _ => exact ⟨fun _ h => h, fun _ h => h⟩

theorem messages_of_relay {b b' : Broker} {c c' : Relay} (h : RelayEffect b c b' c') :
    b'.outbox.map Outbox.message = b.outbox.map Outbox.message := by
  cases h with
  | mark => exact message_markSent
  | reset => exact message_markFailed
  | _ => rfl

/-- A relay adds to the topic and takes nothing away. -/
theorem published_relay {b b' : Broker} {c c' : Relay} (h : RelayEffect b c b' c') :
    b.published <+: b'.published := by
  cases h with
  | lose | acknowledge => exact List.prefix_append _ _
  | _ => exact List.prefix_rfl

theorem NetworkEffect.kept (h : NetworkEffect isUuid n q n' q') : n.Kept n' := by
  cases h with
  | create data failAt =>
    rcases createOrder_cases n.orders isUuid data failAt with h | h
    · rw [h]
      exact ⟨fun o ho => ⟨o, ho, .refl o⟩, fun m hm => hm, fun m hm => hm, .refl _⟩
    · rw [h]
      refine ⟨?_, ?_, fun m hm => hm, .refl _⟩
      · exact fun o ho => ⟨o, List.mem_append_left _ ho, .refl o⟩
      · intro m hm
        simp only [OrderDraft.created, List.map_append]
        exact List.mem_append_left _ hm
  | change c c' x w h =>
    cases h with
    | update r order =>
      refine ⟨fun o ho => ⟨_, mem_update.mpr ⟨o, ho, rfl⟩, ?_⟩, fun m hm => hm, fun m hm => hm,
        .refl _⟩
      split
      · exact ⟨rfl, fun _ => settled_status r.target⟩
      · exact .refl o
    | insert r order answer =>
      refine ⟨fun o ho => ⟨o, ho, .refl o⟩, fun m hm => ?_, fun m hm => hm, .refl _⟩
      simp only [OrderService.World.append, List.map_append]
      exact List.mem_append_left _ hm
    | _ => exact kept_of_orders rfl rfl (.refl _)
  | relay c c' b h =>
    refine ⟨fun o ho => ⟨o, ho, .refl o⟩, fun m hm => ?_, h.acked, .refl _⟩
    have hout := messages_of_relay h
    exact hout.symm ▸ hm
  | receive m k partition now n' c hm h =>
    rw [receive_redis h]
    exact kept_of_orders rfl rfl (.refl _)
  | charge c c' x w h => exact kept_of_orders rfl rfl (paymentsKept_charge h)
  | refund c c' x w h => exact kept_of_orders rfl rfl (paymentsKept_refund h)
  | abandon c =>
    refine kept_of_orders (orders_abandon n c) (acked_abandon n c) ?_
    unfold Network.abandon
    split <;> exact ⟨fun _ h => h, fun _ h => h⟩
  | _ => exact kept_of_orders rfl rfl (.refl _)

/-- New rows have to announce an order, and new messages to be those of rows. -/
theorem Network.Announcing.of_kept (hn : n.Announcing) (hk : n.Kept n')
    (hout : ∀ m ∈ n'.orders.db.outbox.map Outbox.message,
      m ∈ n.orders.db.outbox.map Outbox.message ∨ Announced n'.orders.db.orders m)
    (hp : ∀ m ∈ n'.published,
      m ∈ n.published ∨ m ∈ n'.orders.db.outbox.map Outbox.message) : n'.Announcing where
  outbox m hm := (hout m hm).elim (fun h => (hn.outbox m h).mono hk.orders) id
  published m hm := (hp m hm).elim (fun h => hk.outbox m (hn.published m h)) id

theorem Network.Announcing.of_orders (hn : n.Announcing) (hk : n.Kept n')
    (ho : n'.orders = n.orders) (hp : n'.published = n.published) : n'.Announcing :=
  hn.of_kept hk (fun _ hm => Or.inl (ho ▸ hm)) fun _ hm => Or.inl (hp ▸ hm)

theorem published_of_relay {b b' : Broker} {c c' : Relay} (h : RelayEffect b c b' c')
    (hc : ∀ e ∈ entries c, e.message ∈ b.outbox.map Outbox.message)
    (hb : ∀ m ∈ b.published, m ∈ b.outbox.map Outbox.message) :
    (∀ m ∈ b'.published, m ∈ b'.outbox.map Outbox.message) ∧
      ∀ e ∈ entries c', e.message ∈ b'.outbox.map Outbox.message := by
  rw [messages_of_relay h]
  cases h with
  | fetch rows hrows => exact ⟨hb, fun e he => List.mem_map_of_mem (hrows e he)⟩
  | stop => exact ⟨hb, fun e he => nomatch he⟩
  | reject | unmarked => exact ⟨hb, hc⟩
  | lose entry rest | acknowledge entry rest =>
    exact ⟨forall_mem_concat hb (hc entry List.mem_cons_self), hc⟩
  | mark entry rest now c h =>
    refine ⟨hb, ?_⟩
    rcases h with rfl | rfl
    · exact fun e he => hc e (List.mem_cons_of_mem _ he)
    · exact hc
  | reset entry rest c h =>
    refine ⟨hb, ?_⟩
    rcases h with rfl | rfl
    · exact fun e he => hc e (List.mem_cons_of_mem _ he)
    · exact fun e he => nomatch he

/-- A request knows the order it has read, and the row it appends announces that order. -/
theorem grounded_of_effect {w w' : OrderService.World} {x : OrderService.StatusAnswer}
    {c c' : StatusCall} (h : StatusEffect w x c w' c')
    (hc : StatusCall.Grounded w.db.orders c) : StatusCall.Grounded w'.db.orders c' ∧
      ∀ m ∈ w'.db.outbox.map Outbox.message,
        m ∈ w.db.outbox.map Outbox.message ∨ Announced w'.db.orders m := by
  have hsame : ∀ m ∈ w.db.outbox.map Outbox.message,
      m ∈ w.db.outbox.map Outbox.message ∨ Announced w.db.orders m := fun _ hm => Or.inl hm
  cases h with
  | fail | refuse | skip | vanish => exact ⟨trivial, hsame⟩
  | read r order h =>
    have hr : StatusRequest r := hc
    obtain ⟨ho, hid⟩ := lookup_eq_some (hr.reads h)
    exact ⟨⟨hr, order, ho, hid, rfl⟩, hsame⟩
  | update r order =>
    obtain ⟨hr, o, ho, hid, ht⟩ := hc
    refine ⟨⟨hr, _, mem_update.mpr ⟨o, ho, rfl⟩, ?_⟩, fun _ hm => Or.inl hm⟩
    rw [if_pos hid]
    exact ⟨hid, ht, settled_status r.target⟩
  | reread r order answer => exact ⟨hc, hsame⟩
  | insert r order answer =>
    refine ⟨trivial, fun m hm => ?_⟩
    obtain ⟨hr, o, ho, hid, ht, hs⟩ := hc
    simp only [OrderService.World.append, List.map_append, List.mem_append, List.map_cons,
      List.map_nil, List.mem_singleton] at hm
    refine hm.imp id fun hm => ⟨o, ho, _, ?_, hm⟩
    exact .changed r hr order ht hid.symm hs _ _

theorem NetworkEffect.announcing (hn : n.Announcing) (hq : q.Announcing n)
    (h : NetworkEffect isUuid n q n' q') : n'.Announcing ∧ q'.Announcing n' := by
  have hk := h.kept
  cases h with
  | create data failAt =>
    refine ⟨hn.of_kept hk (fun m hm => ?_) fun _ hm => Or.inl hm, trivial⟩
    rcases createOrder_cases n.orders isUuid data failAt with h | h
    · rw [h] at hm
      exact Or.inl hm
    · rw [h] at hm ⊢
      simp only [OrderDraft.created, List.map_append, List.mem_append, List.map_cons,
        List.map_nil, List.mem_singleton] at hm
      refine hm.imp id fun hm => ⟨_, List.mem_append_right _ (List.mem_singleton_self _), _, ?_, hm⟩
      exact .created _ (n.orders.correlationId_orderDraft isUuid data) rfl
  | change c c' x w h =>
    obtain ⟨hc, hout⟩ := grounded_of_effect h hq
    exact ⟨hn.of_kept hk hout fun _ hm => Or.inl hm, hc⟩
  | relay c c' b h =>
    obtain ⟨hp, he⟩ := published_of_relay h hq hn.published
    exact ⟨hn.of_kept hk (fun m hm => Or.inl (messages_of_relay h ▸ hm)) fun m hm =>
      Or.inr (hp m hm), he⟩
  | restart c => exact ⟨hn, fun e he => nomatch he⟩
  | receive m k partition now n' c hm h =>
    rw [receive_redis h] at hk ⊢
    exact ⟨hn.of_orders hk rfl rfl, trivial⟩
  | abandon c =>
    refine ⟨hn.of_orders hk (orders_abandon n c) ?_, trivial⟩
    unfold Network.abandon
    split <;> rfl
  | _ => exact ⟨hn.of_orders hk rfl rfl, trivial⟩

/-- What a process has read of the outbox stays true while other processes go on. -/
theorem Party.Announcing.kept (h : q.Announcing n) (hk : n.Kept n') : q.Announcing n' := by
  cases q with
  | changing c => exact StatusCall.Grounded.mono h hk.orders
  | relaying c => exact fun e he => hk.outbox _ (h e he)
  | _ => trivial

theorem announcing_empty : Network.empty.Announcing where
  outbox _ h := nomatch h
  published _ h := nomatch h

theorem Party.Starts.announcing (h : q.Starts) : q.Announcing n := by
  cases h with
  | changing r hr => exact hr
  | relaying => exact fun e he => nomatch he
  | _ => trivial

end Network

/--
The rule for runs of the platform: an assertion on the stores and one on each process, which
every step keeps beside what is known of announcements, hold after any run from empty stores.
-/
theorem network_invariant {isUuid : String → Bool} {Id : Type} [DecidableEq Id]
    (G : Network → Prop) (L : Network → Party → Prop) (hempty : G .empty)
    (hstarts : ∀ q : Party, q.Starts → L .empty q)
    (own : ∀ n n' q q', n.Announcing → q.Announcing n → G n → L n q →
      NetworkEffect isUuid n q n' q' → G n' ∧ L n' q')
    (other : ∀ n n' l, n.Kept n' → L n l → L n' l)
    {parties : Id → Party} (hparties : ∀ i, (parties i).Starts) {inputs : List (Id × Stimulus)}
    {q : Pool Network Party Id}
    (h : exec (Pool.act (networkStep isUuid)) ⟨.empty, parties⟩ inputs = some q) :
    q.store.Announcing ∧ G q.store := by
  have hstart : Pool.Holds (fun n : Network => n.Announcing ∧ G n)
      (fun n q => q.Announcing n ∧ L n q) (fun _ _ => True)
      (⟨.empty, parties⟩ : Pool Network Party Id) :=
    ⟨⟨announcing_empty, hempty⟩, fun i => ⟨(hparties i).announcing, hstarts _ (hparties i)⟩,
      fun _ _ _ => trivial⟩
  refine (exec_invariant (fun s a s' hs hact => ?_) hstart h).store
  refine hs.act (fun n' q' hn hq hstep => ?_) (fun n' q' l _ _ hl _ _ hstep => ?_) hact
  · have he := networkStep_effect hstep
    obtain ⟨hn', hq'⟩ := he.announcing hn.1 hq.1
    obtain ⟨hG, hL⟩ := own _ _ _ _ hn.1 hq.1 hn.2 hq.2 he
    exact ⟨⟨hn', hG⟩, hq', hL⟩
  · have hk := (networkStep_effect hstep).kept
    exact ⟨⟨hl.1.kept hk, other _ _ _ hk hl.2⟩, trivial, trivial⟩

end Saga
