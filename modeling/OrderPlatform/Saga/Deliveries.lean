import OrderPlatform.Saga.Journal
import OrderPlatform.Saga.OrderNotices
import OrderPlatform.Saga.Recovery

/-! # Every event becomes a notice

A consumer marks an event after it has written its record, and records are dispatched and saved
under the event they were written for. So an event that is passed over as processed has its
record, and where no statement of the consumers fails, so has every event they have read.
-/

namespace Saga

open Runs Store Wire
open OrderService (Outbox Message)
open NotificationService (NotificationDelivery DispatchCall DispatchEffect NotifyEffect notifyStep
  notifyStep_effect dispatchStep_effect)

/-- A record is stored for the event of this identifier and type. -/
def Recorded (w : NotificationService.World) (eventId eventType : String) : Prop :=
  ∃ d ∈ w.deliveries, d.eventId = some eventId ∧ d.eventType = some eventType

/-- The record stands in the table under its key and for its event, whatever else is in it. -/
def Backed (w : NotificationService.World) (record : NotificationDelivery) : Prop :=
  ∃ d ∈ w.deliveries, d.id = record.id ∧ d.eventId = record.eventId ∧
    d.eventType = record.eventType

def RecordsKept (w w' : NotificationService.World) : Prop := ∀ d ∈ w.deliveries, Backed w' d

/-- What is being dispatched was recorded, and what was processed was recorded before. -/
structure Network.Recording (n : Network) : Prop where
  ids : (n.notices.deliveries.map NotificationDelivery.id).Nodup
  drawn : ∀ d ∈ n.notices.deliveries, d.id < n.notices.fresh
  started : ∀ d ∈ n.started, Backed n.notices d
  processed : ∀ p ∈ n.notices.processed, Recorded n.notices p.eventId p.eventType

def Party.Recording (n : Network) : Party → Prop
  | .notifying (some (.marking e)) => Recorded n.notices e.eventId e.type
  | .dispatching c => ∀ d ∈ c.held, Backed n.notices d
  | _ => True

section Records

variable {w w' : NotificationService.World} {d record : NotificationDelivery}
  {eventId eventType : String}

theorem Backed.of_mem (h : d ∈ w.deliveries) : Backed w d := ⟨d, h, rfl, rfl, rfl⟩

theorem RecordsKept.of_subset (h : ∀ d ∈ w.deliveries, d ∈ w'.deliveries) : RecordsKept w w' :=
  fun d hd => .of_mem (h d hd)

theorem Backed.kept (h : Backed w d) (hk : RecordsKept w w') : Backed w' d := by
  obtain ⟨d', hd', hid, he, ht⟩ := h
  obtain ⟨d'', hd'', hid', he', ht'⟩ := hk d' hd'
  exact ⟨d'', hd'', hid'.trans hid, he'.trans he, ht'.trans ht⟩

theorem Recorded.kept (h : Recorded w eventId eventType) (hk : RecordsKept w w') :
    Recorded w' eventId eventType := by
  obtain ⟨d, hd, he, ht⟩ := h
  obtain ⟨d', hd', -, he', ht'⟩ := hk d hd
  exact ⟨d', hd', he'.trans he, ht'.trans ht⟩

/-- The answer to a dispatch changes neither the key nor the event of its record. -/
theorem Backed.answered (h : Backed w record)
    (result : Except String NotificationService.DispatchResult) (now : ℕ) :
    Backed w (record.answered result now) := by
  unfold NotificationDelivery.answered
  split
  · split <;> exact h
  · exact h

/-- A copy that is saved takes the place of the record it is a copy of. -/
theorem recordsKept_save (hn : (w.deliveries.map NotificationDelivery.id).Nodup)
    (h : Backed w record) : RecordsKept w (w.save record) := by
  obtain ⟨old, hold, hid, he, ht⟩ := h
  intro d hd
  by_cases hd' : d.id = record.id
  · obtain rfl : d = old := List.inj_on_of_nodup_map hn hd hold (hd'.trans hid.symm)
    exact ⟨record, mem_update.mpr ⟨d, hd, if_pos hd'⟩, hid.symm, he.symm, ht.symm⟩
  · exact .of_mem (NotificationService.mem_save hd hd')

end Records

section Steps

variable {isUuid : String → Bool} {n n' : Network} {q q' : Party}

/-- What a process does to the records: those that are there stay, and new keys are drawn. -/
structure RecordsGrow (n : Network) (w : NotificationService.World) : Prop where
  ids : (w.deliveries.map NotificationDelivery.id).Nodup
  drawn : ∀ d ∈ w.deliveries, d.id < w.fresh
  kept : RecordsKept n.notices w

theorem Network.Recording.grow (hn : n.Recording) : RecordsGrow n n.notices :=
  ⟨hn.ids, hn.drawn, .of_subset fun _ hd => hd⟩

theorem Network.Recording.create (hn : n.Recording)
    (dto : NotificationService.CreateNotificationDto) (info : NotificationService.EventMeta)
    (now : ℕ) : RecordsGrow n (n.notices.create dto info now) where
  ids := nodup_map_concat hn.ids fun d hd => (hn.drawn d hd).ne
  drawn := forall_mem_concat (fun d hd => (hn.drawn d hd).trans (Nat.lt_succ_self _))
    (Nat.lt_succ_self _)
  kept := .of_subset fun _ hd => List.mem_append_left _ hd

theorem mem_create (w : NotificationService.World)
    (dto : NotificationService.CreateNotificationDto) (info : NotificationService.EventMeta)
    (now : ℕ) : w.record dto info now ∈ (w.create dto info now).deliveries :=
  List.mem_append_right _ (List.mem_singleton_self _)

/-- A consumer that goes on to the mark has written the record. -/
theorem recording_notify {w : NotificationService.World} {c c' : NotificationService.Call}
    {x : NotificationService.Answer} (hn : n.Recording)
    (hq : (Party.notifying (some c)).Recording n) (h : NotifyEffect n.notices x c w c') :
    RecordsGrow n w ∧ (∀ p ∈ w.processed, Recorded w p.eventId p.eventType) ∧
      ∀ e, c' = .marking e → Recorded w e.eventId e.type := by
  cases h with
  | stop m c hc =>
    refine ⟨hn.grow, hn.processed, ?_⟩
    rintro e rfl
    cases hc
  | accept | drop | leave => exact ⟨hn.grow, hn.processed, fun e he => nomatch he⟩
  | create e dto =>
    have hg := hn.create dto e.meta x.now
    refine ⟨hg, fun p hp => (hn.processed p hp).kept hg.kept, ?_⟩
    rintro e' ⟨⟩
    exact ⟨_, mem_create _ _ _ _, rfl, rfl⟩
  | mark e =>
    refine ⟨⟨hn.ids, hn.drawn, .of_subset fun _ hd => hd⟩, ?_, fun e he => nomatch he⟩
    exact forall_mem_concat hn.processed hq

theorem recording_dispatch {w : NotificationService.World} {c c' : DispatchCall}
    {x : NotificationService.DispatchAnswer} (hn : n.Recording)
    (hq : (Party.dispatching c).Recording n) (h : DispatchEffect n.notices c x w c') :
    RecordsGrow n w ∧ w.processed = n.notices.processed ∧ ∀ d ∈ c'.held, Backed w d := by
  cases h with
  | refused | ended | unsaved => exact ⟨hn.grow, rfl, fun _ hd => nomatch hd⟩
  | created hx =>
    refine ⟨hn.create _ _ _, rfl, fun d hd => ?_⟩
    exact List.mem_singleton.mp hd ▸ .of_mem (mem_create _ _ _ _)
  | fetched hx =>
    exact ⟨hn.grow, rfl, fun d hd => .of_mem (NotificationService.mem_stale hd).1⟩
  | dispatched =>
    refine ⟨⟨hn.ids, hn.drawn, .of_subset fun _ hd => hd⟩, rfl, fun d hd => ?_⟩
    rcases List.mem_cons.mp hd with rfl | hd
    · exact (hq _ List.mem_cons_self).answered _ _
    · exact hq d (List.mem_cons_of_mem _ hd)
  | saved hx =>
    rename_i record rest
    have hk := recordsKept_save hn.ids (hq record List.mem_cons_self)
    refine ⟨⟨?_, NotificationService.id_lt_save hn.drawn, hk⟩, rfl, fun d hd => ?_⟩
    · rw [NotificationService.ids_save]
      exact hn.ids
    · exact (hq d (List.mem_cons_of_mem _ hd)).kept hk

theorem Network.Recording.of_same {P : Prop} (hn : n.Recording) (hP : P)
    (hw : n'.notices = n.notices) (hs : ∀ d ∈ n'.started, d ∈ n.started) :
    n'.Recording ∧ P ∧ RecordsKept n.notices n'.notices := by
  refine ⟨⟨hw ▸ hn.ids, hw ▸ hn.drawn, fun d hd => ?_, hw ▸ hn.processed⟩, hP, ?_⟩
  · exact hw ▸ hn.started d (hs d hd)
  · exact .of_subset (hw ▸ fun _ hd => hd)

theorem NetworkEffect.recording (hn : n.Recording) (hq : q.Recording n)
    (h : NetworkEffect isUuid n q n' q') :
    n'.Recording ∧ q'.Recording n' ∧ RecordsKept n.notices n'.notices := by
  cases h with
  | notify c c' x w h =>
    obtain ⟨hg, hp, hm⟩ := recording_notify hn hq (notifyStep_effect h)
    refine ⟨⟨hg.ids, hg.drawn, fun d hd => ?_, hp⟩, ?_, hg.kept⟩
    · rcases List.mem_append.mp hd with hd | hd
      · exact (hn.started d hd).kept hg.kept
      · exact .of_mem (List.mem_of_mem_drop hd)
    · cases c' with
      | marking e => exact hm e rfl
      | received | handling | finished | threw => trivial
  | dispatch c c' x w h =>
    obtain ⟨hg, hp, hc⟩ := recording_dispatch hn hq (dispatchStep_effect h)
    refine ⟨⟨hg.ids, hg.drawn, fun d hd => (hn.started d hd).kept hg.kept, ?_⟩, hc, hg.kept⟩
    exact hp ▸ fun p hp => (hn.processed p hp).kept hg.kept
  | background record i h =>
    refine hn.of_same (fun d hd => ?_) rfl fun _ hd => List.mem_of_mem_eraseIdx hd
    exact List.mem_singleton.mp hd ▸ hn.started _ h
  | minute => exact hn.of_same (fun _ hd => (nomatch hd)) rfl fun _ hd => hd
  | receive m k partition now n' c hm h =>
    rw [receive_redis h]
    exact hn.of_same trivial rfl fun _ hd => hd
  | abandon c =>
    unfold Network.abandon
    split <;> exact hn.of_same trivial rfl fun _ hd => hd
  | _ => exact hn.of_same trivial rfl fun _ hd => hd

theorem Party.Recording.kept (h : q.Recording n) (hk : RecordsKept n.notices n'.notices) :
    q.Recording n' := by
  unfold Party.Recording at h ⊢
  split at h
  · exact h.kept hk
  · exact fun d hd => (h d hd).kept hk
  · trivial

theorem recording_empty : Network.empty.Recording := by
  constructor <;> simp [Network.empty, NotificationService.World.empty]

theorem Party.Starts.recording (h : q.Starts) : q.Recording n := by
  cases h with
  | creating | retrying => exact fun _ hd => (nomatch hd)
  | _ => trivial

theorem NetworkEffect.journaled (hj : Journaled n.orders) (h : NetworkEffect isUuid n q n' q') :
    Journaled n'.orders := by
  cases h with
  | create data failAt => exact hj.create isUuid data failAt
  | change c c' x w h => exact hj.status h
  | relay c c' b h => exact hj.of_messages rfl (messages_of_relay h) le_rfl
  | receive m k partition now n' c hm h =>
    rw [receive_redis h]
    exact hj
  | abandon c => exact orders_abandon n c ▸ hj
  | _ => exact hj

end Steps

/-- A consumer of the notification service. -/
def Party.consumer : Party → Bool
  | .notifying _ => true
  | _ => false

/-- A consumer that has taken a message and is not done with it. -/
def Party.busy : Party → Bool
  | .notifying (some _) => true
  | _ => false

/-- Neither a statement of a consumer fails nor its process. -/
def Stimulus.calm : Stimulus → Bool
  | .notice x => !x.fails
  | .crash => false
  | _ => true

/-- The consumer has read the row's event and is still to write its record. -/
def Party.Reads (row : Outbox) : Party → Prop
  | .notifying (some (.received m)) => ∃ partition,
      m = ⟨some row.payload, ⟨"order-events", partition, row.message.headers⟩⟩
  | .notifying (some (.handling e)) => e = eventOf row
  | _ => False

section Reading

variable {isUuid : String → Bool} {n n' : Network} {q q' : Party} {x : Stimulus} {row : Outbox}

/-- The record of the row's event. -/
def RowRecorded (w : NotificationService.World) (row : Outbox) : Prop :=
  Recorded w (toString row.eventId) row.eventType.text

theorem NetworkEffect.consumer (h : NetworkEffect isUuid n q n' q') :
    q'.consumer = q.consumer := by
  cases h <;> rfl

theorem busy_of_reads (h : q.Reads row) : q.busy = true ∧ q.consumer = true := by
  unfold Party.Reads at h
  split at h
  · exact ⟨rfl, rfl⟩
  · exact ⟨rfl, rfl⟩
  · exact h.elim

theorem NetworkEffect.published (h : NetworkEffect isUuid n q n' q') :
    n.published <+: n'.published := by
  cases h with
  | relay c c' b h => exact published_relay h
  | receive m k partition now n' c hm h => rw [receive_redis h]
  | abandon c =>
    unfold Network.abandon
    split <;> exact List.prefix_rfl
  | _ => exact List.prefix_rfl

theorem recorded_of_exists {eventId eventType : String} (hn : n.Recording)
    (h : n.notices.existsByEventIdAndType eventId eventType = true) :
    Recorded n.notices eventId eventType := by
  obtain ⟨p, hp, he⟩ := List.any_eq_true.mp h
  obtain ⟨rfl, rfl⟩ : p.eventId = eventId ∧ p.eventType = eventType := by simpa using he
  exact hn.processed p hp

/-- A step of the consumer itself takes it to the record, or leaves the event recorded. -/
theorem reads_step (hn : n.Recording) (hrow : Known n row) (hq : q.Reads row)
    (hx : x.calm = true) (h : networkStep isUuid n q x = some (n', q')) :
    RowRecorded n'.notices row ∨ q'.Reads row := by
  obtain ⟨o, -, ho⟩ := hrow.1
  unfold Party.Reads at hq
  split at hq
  · obtain ⟨partition, rfl⟩ := hq
    cases x with
    | notice a =>
      have ha : a.fails = false := by simpa [Stimulus.calm] using hx
      obtain ⟨⟨w, c⟩, hr, he⟩ := Option.map_eq_some_iff.mp h
      simp only [notifyStep, event_of_origin ho, ha, Bool.false_eq_true, if_false] at hr
      split at hr <;> cases hr <;> cases he
      · rename_i hexists
        have hr : RowRecorded n.notices row := recorded_of_exists hn hexists
        exact Or.inl hr
      · exact Or.inr rfl
    | crash => cases hx
    | _ => cases h
  · subst hq
    cases x with
    | notice a =>
      have ha : a.fails = false := by simpa [Stimulus.calm] using hx
      obtain ⟨dto, hdto, -⟩ := mail_of_origin ho
      obtain ⟨⟨w, c⟩, hr, he⟩ := Option.map_eq_some_iff.mp h
      simp only [notifyStep, hdto, ha, Bool.false_eq_true, if_false] at hr
      cases hr
      cases he
      exact Or.inl ⟨_, mem_create _ _ _ _, rfl, rfl⟩
    | crash => cases hx
    | _ => cases h
  · exact hq.elim

/-- What a consumer takes is the message at its position, read as the event of its row. -/
theorem reads_receive {k partition now : ℕ} (hq : q.consumer = true)
    (h : networkStep isUuid n q (.receive k partition now) = some (n', q')) :
    ∃ m, n.published[k]? = some m ∧ ∀ row : Outbox, m = row.message → q'.Reads row := by
  cases q with
  | notifying c =>
    cases c with
    | none =>
      obtain ⟨m, hm, he⟩ := Option.map_eq_some_iff.mp h
      refine ⟨m, hm, ?_⟩
      rintro row rfl
      simp only [NotificationService.handleMessage, KafkaMessage.decodedHeaders_sent] at he
      cases he
      exact ⟨partition, rfl⟩
    | some c => cases h
  | _ => cases hq

end Reading

section Attended

variable {isUuid : String → Bool} {Id : Type} [DecidableEq Id] {p q : Pool Network Party Id}
  {a : Id × Stimulus} {row : Outbox} {parties : Id → Party} {inputs : List (Id × Stimulus)}

/-- The row's event is recorded, or a consumer has read it and is still to record it. -/
def Attended (q : Pool Network Party Id) (row : Outbox) : Prop :=
  RowRecorded q.store.notices row ∨ ∃ i, (q.calls i).Reads row

/-- What holds of the stores and of every process at any time. -/
def Posted (q : Pool Network Party Id) : Prop :=
  q.Holds (fun n => n.Announcing ∧ n.Recording) (fun n l => l.Announcing n ∧ l.Recording n)
    fun _ _ => True

theorem Posted.act (hp : Posted p) (h : p.act (networkStep isUuid) a = some q) : Posted q := by
  refine Pool.Holds.act (fun n' l' hn hl hstep => ?_) (fun n' l' l hn hl hl' _ _ hstep => ?_) hp h
  · have he := networkStep_effect hstep
    obtain ⟨hn', hl'⟩ := he.announcing hn.1 hl.1
    obtain ⟨hn'', hl'', -⟩ := he.recording hn.2 hl.2
    exact ⟨⟨hn', hn''⟩, hl', hl''⟩
  · have he := networkStep_effect hstep
    obtain ⟨-, -, hk⟩ := he.recording hn.2 hl.2
    exact ⟨⟨hl'.1.kept he.kept, hl'.2.kept hk⟩, trivial, trivial⟩

omit [DecidableEq Id] in
theorem posted_start (hparties : ∀ i, (parties i).Starts) :
    Posted (⟨.empty, parties⟩ : Pool Network Party Id) :=
  ⟨⟨announcing_empty, recording_empty⟩, fun i =>
    ⟨(hparties i).announcing, (hparties i).recording⟩, fun _ _ _ => trivial⟩

theorem kept_act (h : p.act (networkStep isUuid) a = some q) : p.store.Kept q.store := by
  obtain ⟨n', l, hstep, rfl⟩ := Pool.act_eq_some.mp h
  exact (networkStep_effect hstep).kept

/-- A message stays at its position in the topic. -/
theorem published_exec (h : exec (Pool.act (networkStep isUuid)) p inputs = some q) {k : ℕ}
    {m : Message} (hm : p.store.published[k]? = some m) : q.store.published[k]? = some m := by
  refine exec_invariant (I := fun p : Pool Network Party Id => p.store.published[k]? = some m)
    (fun p a q hp hact => ?_) hm h
  obtain ⟨n', l, hstep, rfl⟩ := Pool.act_eq_some.mp hact
  obtain ⟨rest, hrest⟩ := (networkStep_effect hstep).published
  dsimp only at hp ⊢
  rw [← hrest, List.getElem?_append_left (List.getElem?_eq_some_iff.mp hp).1, hp]

/-- An event that is attended to stays so, as long as the consumers do not fail. -/
theorem Attended.act (hp : Posted p) (hrow : Known p.store row) (hr : Attended p row)
    (hcalm : (p.calls a.1).consumer = true → a.2.calm = true)
    (h : p.act (networkStep isUuid) a = some q) : Attended q row := by
  obtain ⟨n', l, hstep, rfl⟩ := Pool.act_eq_some.mp h
  rcases hr with hr | ⟨i, hi⟩
  · obtain ⟨-, -, hk⟩ := (networkStep_effect hstep).recording hp.store.2 (hp.call a.1).2
    exact Or.inl (Recorded.kept hr hk)
  · by_cases hia : i = a.1
    · subst hia
      rcases reads_step hp.store.2 hrow hi (hcalm (busy_of_reads hi).2) hstep with hr | hl
      · exact Or.inl hr
      · exact Or.inr ⟨a.1, by simpa using hl⟩
    · exact Or.inr ⟨i, by simpa [hia] using hi⟩

theorem consumer_act (h : p.act (networkStep isUuid) a = some q) (i : Id) :
    (q.calls i).consumer = (p.calls i).consumer := by
  obtain ⟨n', l, hstep, rfl⟩ := Pool.act_eq_some.mp h
  by_cases hi : i = a.1
  · subst hi
    simpa using (networkStep_effect hstep).consumer
  · simp [hi]

theorem Attended.exec (hp : Posted p) (hrow : Known p.store row) (hr : Attended p row)
    (hcalm : ∀ a ∈ inputs, (p.calls a.1).consumer = true → a.2.calm = true)
    (h : Runs.exec (Pool.act (networkStep isUuid)) p inputs = some q) : Attended q row := by
  induction inputs generalizing p with
  | nil =>
    cases h
    exact hr
  | cons a inputs ih =>
    obtain ⟨u, hu, h⟩ := exec_cons_eq_some.mp h
    have hcalm' : ∀ b ∈ inputs, (u.calls b.1).consumer = true → b.2.calm = true := fun b hb hc =>
      hcalm b (List.mem_cons_of_mem _ hb) (consumer_act hu b.1 ▸ hc)
    exact ih (hp.act hu) (hrow.kept (kept_act hu))
      (hr.act hp hrow (hcalm a List.mem_cons_self) hu) hcalm' h

/-- The event of a message that a consumer has taken is attended to from then on. -/
theorem attended_of_received (hp : Posted p)
    (hcalm : ∀ a ∈ inputs, (p.calls a.1).consumer = true → a.2.calm = true)
    (h : exec (Pool.act (networkStep isUuid)) p inputs = some q) {i : Id} {k partition now : ℕ}
    (hi : (p.calls i).consumer = true) (hin : (i, .receive k partition now) ∈ inputs) :
    ∃ row : Outbox, q.store.published[k]? = some row.message ∧ Attended q row := by
  induction inputs generalizing p with
  | nil => cases hin
  | cons a inputs ih =>
    obtain ⟨u, hu, hrest⟩ := exec_cons_eq_some.mp h
    have hcalm' : ∀ b ∈ inputs, (u.calls b.1).consumer = true → b.2.calm = true := fun b hb hc =>
      hcalm b (List.mem_cons_of_mem _ hb) (consumer_act hu b.1 ▸ hc)
    rcases List.mem_cons.mp hin with rfl | hin
    · obtain ⟨n', l, hstep, hu'⟩ := Pool.act_eq_some.mp hu
      obtain ⟨m, hm, hreads⟩ := reads_receive hi hstep
      have hann := hp.store.1
      have hmem := hann.published m (List.mem_of_getElem? hm)
      obtain ⟨o, ho, row, hrow, rfl⟩ := hann.outbox m hmem
      have hknown : Known p.store row := ⟨⟨o, ho, hrow⟩, hmem⟩
      have hread : Attended u row := by
        rw [hu']
        exact Or.inr ⟨i, by simpa using hreads row rfl⟩
      exact ⟨row, published_exec (exec_cons_eq_some.mpr ⟨_, hu, hrest⟩) hm,
        hread.exec (hp.act hu) (hknown.kept (kept_act hu)) hcalm' hrest⟩
    · exact ih (hp.act hu) hcalm' hrest (consumer_act hu i ▸ hi) hin

theorem posted_exec (hparties : ∀ i, (parties i).Starts)
    (h : exec (Pool.act (networkStep isUuid)) ⟨.empty, parties⟩ inputs = some q) :
    Posted q ∧ Journaled q.store.orders := by
  refine exec_invariant (I := fun q : Pool Network Party Id => Posted q ∧ Journaled q.store.orders)
    (fun p a q hp hact => ⟨hp.1.act hact, ?_⟩) ⟨posted_start hparties, ?_⟩ h
  · obtain ⟨n', l, hstep, rfl⟩ := Pool.act_eq_some.mp hact
    exact (networkStep_effect hstep).journaled hp.2
  · constructor <;> simp [Network.empty, OrderService.World.empty]

end Attended

/-- The record of a row's event is the e-mail of its order. -/
theorem noticed_of_recorded {n : Network} (hj : Journaled n.orders) (hw : n.Noticing) {row : Outbox}
    (hrow : row.message ∈ n.orders.db.outbox.map Outbox.message)
    (hr : RowRecorded n.notices row) :
    ∃ o ∈ n.orders.db.orders, ∃ d ∈ n.notices.deliveries, Notice o row d := by
  obtain ⟨d, hd, he, -⟩ := hr
  rcases hw.deliveries d hd with hnone | ⟨eventId, hid, hothers⟩ | ⟨o, ho, row', hrow', hnotice⟩
  · rw [he] at hnone
    cases hnone
  · exact absurd (Option.some.inj (hid.symm.trans he)) (hothers _)
  · have hid : row'.eventId = row.eventId :=
      toString_inj.mp (Option.some.inj (hnotice.event.symm.trans he))
    exact ⟨o, ho, d, hd, hnotice.of_message (hj.events row row' hrow hrow' hid.symm)⟩

inductive PostOffice
  | customer | relay | consumer
  deriving DecidableEq

instance : Fintype PostOffice where
  elems := {.customer, .relay, .consumer}
  complete i := by cases i <;> decide

def postOffice : PostOffice → Party
  | .customer => .client
  | .relay => .relaying .idle
  | .consumer => .notifying none

theorem postOffice_starts : ∀ i, (postOffice i).Starts
  | .customer => .client
  | .relay => .relaying
  | .consumer => .notifying

/-- An announcement whose acknowledgement is lost: its relay dies, and it is published twice. -/
def lostAnswer : List (PostOffice × Stimulus) :=
  [(.customer, .create sampleOrder none), (.relay, .poll ⟨fun _ => 0, 3, false, false⟩),
    (.relay, .poll ⟨fun _ => 0, 3, true, true⟩), (.relay, .crash)] ++
    List.replicate 4 (.relay, .poll ⟨fun _ => 0, 4, false, false⟩) ++
    [(.consumer, .receive 0 0 5)] ++ List.replicate 3 (.consumer, .notice ⟨5, false⟩) ++
    [(.consumer, .receive 1 0 6), (.consumer, .notice ⟨6, false⟩)]

example : (exec (Pool.act (networkStep fun _ => false)) ⟨.empty, postOffice⟩ lostAnswer).map
    (fun q => q.store.notices.deliveries.length) = some 1 := by decide +kernel

end Saga
