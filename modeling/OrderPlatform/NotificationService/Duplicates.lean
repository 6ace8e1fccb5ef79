import OrderPlatform.NotificationService.Consumer
import OrderPlatform.Store.Once

/-! # Messages delivered one after another

Each message is checked, turned into a record and marked before the next one comes, so that
only the first message of an event that can be written out leaves a record, and the other
messages could as well not have come. The columns refuse what is too long for them or holds the
character zero, and cut blanks beyond their width off.
-/

namespace NotificationService

open Store Wire

/-- A message with the time of its delivery. -/
structure Arrival where
  message : Message
  now : ℕ

def Event.key (e : Event) : String × String := (e.eventId, e.type)

/-- A notification and its event as the columns of the two tables keep them. -/
structure Notice where
  dto : CreateNotificationDto
  eventId : String
  eventType : String
  correlationId : Option String
  deriving DecidableEq, Repr

def Notice.key (n : Notice) : String × String := (n.eventId, n.eventType)

def Notice.meta (n : Notice) : EventMeta := ⟨some n.eventId, some n.eventType, n.correlationId⟩

/-- What the columns keep of a notification, unless one of them refuses it. -/
def Event.columns (e : Event) (dto : CreateNotificationDto) : Option Notice := do
  let recipient ← varchar 320 dto.recipient
  let subject ← dto.subject.mapM (varchar 512)
  guard (storable dto.body)
  let eventId ← varchar 128 e.eventId
  let eventType ← varchar 128 e.type
  let correlationId ← e.correlationId.mapM (varchar 128)
  return ⟨⟨dto.kind, recipient, dto.channel, subject, dto.body⟩, eventId, eventType, correlationId⟩

/-- The event of a message and the notification its handler makes of it, as it can be stored. -/
def Message.notice (m : Message) : Option (Event × Notice) :=
  match m.event with
  | .ok (some e) =>
    match e.notification with
    | .ok (some dto) => (e.columns dto).map fun n => (e, n)
    | _ => none
  | _ => none

/-- The key of a message whose event has a handler. -/
def Message.handledKey (m : Message) : Option (String × String) :=
  match m.event with
  | .ok (some e) =>
    match e.eventType with
    | .str t => if t ∈ handledTypes then some e.key else none
    | _ => none
  | _ => none

/-- The record and the mark of a notification; the index of the marks refuses a second one. -/
def World.notify (w : World) (n : Notice) (now : ℕ) : World :=
  let w := w.create n.dto n.meta now
  if w.existsByEventIdAndType n.eventId n.eventType then w
  else w.markProcessed n.eventId n.eventType n.correlationId now

/--
`process` on columns of the widths they have, while the infrastructure does not fail. The lookup of
an event throws on the character zero, and what a refused insert throws is caught.
-/
def World.process (w : World) (m : Message) (now : ℕ) : World :=
  match m.event with
  | .error _ | .ok none => w
  | .ok (some e) =>
    if !storable e.eventId || !storable e.type then w
    else if w.existsByEventIdAndType e.eventId e.type then w
    else match e.notification with
      | .error _ | .ok none => w
      | .ok (some dto) =>
        match e.columns dto with
        | none => w
        | some n => w.notify n now

/-- Messages processed one after another. -/
def World.processAll (w : World) (arrivals : List Arrival) : World :=
  arrivals.foldl (fun w a => w.process a.message a.now) w

/-- The key of the event of a message that makes a notification. -/
def Arrival.key (a : Arrival) : Option (String × String) := a.message.notice.map fun n => n.1.key

/-- The key as the tables keep it. -/
def Arrival.storedKey (a : Arrival) : Option (String × String) :=
  a.message.notice.map fun n => n.2.key

def noticeOnce (done : List Arrival) (a : Arrival) : List Arrival :=
  if a.key.isSome ∧ ∀ d ∈ done, d.storedKey ≠ a.key then done ++ [a] else done

/-- The arrivals that make a notification, but for those whose event has been stored before. -/
def firstNotices (arrivals : List Arrival) : List Arrival := arrivals.foldl noticeOnce []

/-- The record is the one created for the arrival. -/
def RecordOf (a : Arrival) (d : NotificationDelivery) : Prop :=
  ∃ w : World, ∃ n, a.message.notice = some n ∧ d = w.record n.2.dto n.2.meta a.now

section Steps

variable {w : World} {m : Message} {now : ℕ} {e : Event} {n : Event × Notice}

theorem notice_eq_some : m.notice = some n ↔ m.event = .ok (some n.1) ∧
    ∃ dto, n.1.notification = .ok (some dto) ∧ n.1.columns dto = some n.2 := by
  obtain ⟨e, n⟩ := n
  unfold Message.notice
  rcases m.event with x | _ | e'
  · simp
  · simp
  · rcases hn : e'.notification with x | _ | dto'
    · simp only [hn, reduceCtorEq, false_iff]
      rintro ⟨⟨⟩, dto, h, -⟩
      cases hn.symm.trans h
    · simp only [hn, reduceCtorEq, false_iff]
      rintro ⟨⟨⟩, dto, h, -⟩
      cases hn.symm.trans h
    · simp only [hn, Option.map_eq_some_iff, Prod.mk.injEq]
      constructor
      · rintro ⟨n', hc, rfl, rfl⟩
        exact ⟨rfl, dto', hn, hc⟩
      · rintro ⟨⟨⟩, dto, h, hc⟩
        obtain rfl : dto' = dto := by simpa using hn.symm.trans h
        exact ⟨n, hc, rfl, rfl⟩

theorem varchar_storable {k : ℕ} {s t : String} (h : varchar k s = some t) :
    storable s = true := by
  unfold varchar at h
  split at h
  · rename_i hs
    exact (Bool.and_eq_true_iff.mp hs).1
  · cases h

/-- A notification that the columns take has texts that the lookup takes. -/
theorem storable_of_columns {dto : CreateNotificationDto} {n : Notice}
    (h : e.columns dto = some n) : storable e.eventId = true ∧ storable e.type = true := by
  simp only [Event.columns, Option.bind_eq_bind, Option.bind_eq_some_iff] at h
  obtain ⟨-, -, -, -, -, -, i, hi, t, ht, -⟩ := h
  exact ⟨varchar_storable hi, varchar_storable ht⟩

theorem process_of_notice (h : m.notice = some n) :
    w.process m now =
      if w.existsByEventIdAndType n.1.eventId n.1.type then w else w.notify n.2 now := by
  obtain ⟨he, dto, hn, hc⟩ := notice_eq_some.mp h
  obtain ⟨hi, ht⟩ := storable_of_columns hc
  simp only [World.process, he, hi, ht, hn, hc, Bool.not_true, Bool.or_self, Bool.false_eq_true,
    if_false]

theorem process_of_none (h : m.notice = none) : w.process m now = w := by
  unfold World.process
  split
  · rfl
  · rfl
  · rename_i e he
    split
    · rfl
    · split
      · rfl
      · split
        · rfl
        · rfl
        · rename_i dto hn
          split
          · rfl
          · rename_i n hc
            cases h.symm.trans (notice_eq_some (n := (e, n)).mpr ⟨he, dto, hn, hc⟩)

/-- What the columns keep as it is, `process` stores as it does on columns without a width. -/
theorem process_of_kept (h : ∀ e dto, m.event = .ok (some e) → e.notification = .ok (some dto) →
      e.columns dto = some ⟨dto, e.eventId, e.type, e.correlationId⟩)
    (hid : ∀ e, m.event = .ok (some e) → storable e.eventId = true ∧ storable e.type = true) :
    w.process m now = (Attempt.process (fun _ => false) w m now).store := by
  rcases he : m.event with x | _ | e
  · simp [World.process, Attempt.process, he]
  · simp [World.process, Attempt.process, he]
  · obtain ⟨hi, ht⟩ := hid e he
    simp only [World.process, Attempt.process, he, hi, ht, Bool.not_true, Bool.or_self,
      Bool.false_eq_true, if_false]
    split
    · rfl
    · rename_i hnew
      rcases hn : e.notification with x | _ | dto
      · simp [Conclusion.caught, Attempt.body, hn]
      · simp [Conclusion.caught, Attempt.body, hn]
      · have hnew' : ¬ (w.create dto e.meta now).existsByEventIdAndType e.eventId e.type = true :=
          hnew
        simp only [Conclusion.caught, Attempt.body, hn, h e dto he hn, World.notify,
          Bool.false_eq_true, false_or, if_false, if_neg hnew']
        exact if_neg hnew'

end Steps

/-- The records are those of the arrivals, in order, and the events marked are theirs. -/
structure Matches (firsts : List Arrival) (w : World) : Prop where
  records : List.Forall₂ RecordOf firsts w.deliveries
  marked : ∀ eventId eventType, w.existsByEventIdAndType eventId eventType = true ↔
    ∃ d ∈ firsts, d.storedKey = some (eventId, eventType)

section Runs

variable {firsts arrivals : List Arrival} {w : World} {a : Arrival} {n : Event × Notice}

theorem Arrival.key_of_notice (h : a.message.notice = some n) :
    a.key = some (n.1.eventId, n.1.type) := by
  rw [key, h]
  rfl

theorem Arrival.storedKey_of_notice (h : a.message.notice = some n) :
    a.storedKey = some (n.2.eventId, n.2.eventType) := by
  rw [storedKey, h]
  rfl

/-- An arrival is passed over, or it is a first one and leaves its record and its mark. -/
theorem Matches.arrival (h : Matches firsts w) (a : Arrival) :
    (noticeOnce firsts a = firsts ∧ w.process a.message a.now = w) ∨
      ∃ n, a.message.notice = some n ∧ noticeOnce firsts a = firsts ++ [a] ∧
        w.process a.message a.now = w.notify n.2 a.now := by
  cases hn : a.message.notice with
  | none => exact Or.inl ⟨if_neg (by simp [Arrival.key, hn]), process_of_none hn⟩
  | some n =>
    have hkey := Arrival.key_of_notice hn
    have hmarked := h.marked n.1.eventId n.1.type
    rw [process_of_notice hn]
    by_cases hx : w.existsByEventIdAndType n.1.eventId n.1.type = true
    · obtain ⟨d, hd, hk⟩ := hmarked.mp hx
      refine Or.inl ⟨if_neg ?_, if_pos hx⟩
      rintro ⟨-, hnew⟩
      exact hnew d hd (hk.trans hkey.symm)
    · refine Or.inr ⟨n, rfl, if_pos ⟨by simp [hkey], fun d hd hk => ?_⟩, if_neg hx⟩
      exact hx (hmarked.mpr ⟨d, hd, hk.trans hkey⟩)

theorem deliveries_notify {n : Notice} {now : ℕ} :
    (w.notify n now).deliveries = w.deliveries ++ [w.record n.dto n.meta now] := by
  unfold World.notify
  dsimp only
  split <;> rfl

theorem exists_notify {n : Notice} {now : ℕ} {eventId eventType : String} :
    (w.notify n now).existsByEventIdAndType eventId eventType = true ↔
      w.existsByEventIdAndType eventId eventType = true ∨
        n.eventId = eventId ∧ n.eventType = eventType := by
  have hcreate (i t : String) : (w.create n.dto n.meta now).existsByEventIdAndType i t =
      w.existsByEventIdAndType i t := rfl
  unfold World.notify
  dsimp only
  split
  · rename_i hx
    rw [hcreate] at hx ⊢
    refine (or_iff_left_of_imp ?_).symm
    rintro ⟨rfl, rfl⟩
    exact hx
  · rw [exists_markProcessed, hcreate]
    simp

theorem Matches.notify (h : Matches firsts w) (hn : a.message.notice = some n) :
    Matches (firsts ++ [a]) (w.notify n.2 a.now) := by
  constructor
  · rw [deliveries_notify]
    exact List.rel_append h.records (.cons ⟨w, n, hn, rfl⟩ .nil)
  · intro eventId eventType
    rw [exists_notify, h.marked eventId eventType]
    simp [List.mem_append, or_and_right, exists_or, Arrival.storedKey_of_notice hn]

theorem processAll_concat : w.processAll (arrivals ++ [a]) =
    (w.processAll arrivals).process a.message a.now := by
  rw [World.processAll, List.foldl_append]
  rfl

theorem firstNotices_concat :
    firstNotices (arrivals ++ [a]) = noticeOnce (firstNotices arrivals) a := by
  rw [firstNotices, List.foldl_append]
  rfl

theorem matches_processAll (arrivals : List Arrival) :
    Matches (firstNotices arrivals) (World.empty.processAll arrivals) := by
  induction arrivals using List.reverseRecOn with
  | nil => exact ⟨.nil, by simp [World.processAll, World.empty, World.existsByEventIdAndType,
      firstNotices]⟩
  | append_singleton arrivals a ih =>
    rw [firstNotices_concat, processAll_concat]
    rcases ih.arrival a with ⟨hfirsts, hw⟩ | ⟨n, hn, hfirsts, hw⟩
    · rwa [hfirsts, hw]
    · rw [hfirsts, hw]
      exact ih.notify hn

/-- The arrivals that are no first ones could as well not have come. -/
theorem processAll_firstNotices (arrivals : List Arrival) :
    World.empty.processAll arrivals = World.empty.processAll (firstNotices arrivals) := by
  induction arrivals using List.reverseRecOn with
  | nil => rfl
  | append_singleton arrivals a ih =>
    rw [firstNotices_concat, processAll_concat]
    rcases (matches_processAll arrivals).arrival a with ⟨hfirsts, hw⟩ | ⟨n, hn, hfirsts, hw⟩
    · rw [hfirsts, hw, ih]
    · rw [hfirsts, processAll_concat, ← ih]

theorem firstNotices_subset : ∀ a ∈ firstNotices arrivals, a ∈ arrivals := by
  induction arrivals using List.reverseRecOn with
  | nil => exact fun _ h => h
  | append_singleton arrivals b ih =>
    intro a ha
    rw [firstNotices_concat, noticeOnce] at ha
    split at ha
    · rcases List.mem_append.mp ha with h | h
      · exact List.mem_append_left _ (ih a h)
      · exact List.mem_append_right _ h
    · exact List.mem_append_left _ (ih a ha)

/-- An identifier within the width of its column is kept as it is, and so is the type. -/
theorem Arrival.storedKey_eq_key
    (h : ∀ n, a.message.notice = some n → n.1.eventId.length ≤ 128) : a.storedKey = a.key := by
  cases hn : a.message.notice with
  | none => rw [storedKey, key, hn, Option.map_none, Option.map_none]
  | some n =>
    obtain ⟨-, dto, hdto, hc⟩ := notice_eq_some.mp hn
    obtain ⟨hid, htype⟩ := storable_of_columns hc
    have hshort : ∀ t ∈ handledTypes, (Json.str t).columnText.length ≤ 128 := by decide
    have hlength : n.1.type.length ≤ 128 := by
      by_contra hlong
      refine absurd (hdto.symm.trans (notification_none.mpr fun t ht he => hlong ?_)) (by simp)
      rw [Event.type, he]
      exact hshort t ht
    simp only [Event.columns, Option.bind_eq_bind, Option.bind_eq_some_iff,
      varchar_of_le hid (h n hn), varchar_of_le htype hlength, Option.some.injEq] at hc
    obtain ⟨_, -, _, -, _, -, _, rfl, _, rfl, _, -, hn'⟩ := hc
    rw [Arrival.storedKey_of_notice hn, Arrival.key_of_notice hn, ← Option.some.inj hn']

/-- Where no column cuts a key, the first arrival of each key is what is left. -/
theorem firstNotices_of_kept
    (h : ∀ a ∈ arrivals, ∀ n, a.message.notice = some n → n.1.eventId.length ≤ 128) :
    firstNotices arrivals = performed Arrival.key (fun a => a.key.isSome) arrivals := by
  induction arrivals using List.reverseRecOn with
  | nil => rfl
  | append_singleton arrivals a ih =>
    have hold := ih fun b hb => h b (List.mem_append_left _ hb)
    have hkeys : (∀ d ∈ firstNotices arrivals, d.storedKey ≠ a.key) ↔
        ∀ d ∈ firstNotices arrivals, d.key ≠ a.key := forall₂_congr fun d hd => by
      rw [Arrival.storedKey_eq_key (h d (List.mem_append_left _ (firstNotices_subset d hd)))]
    rw [firstNotices_concat, performed_concat, noticeOnce, ← hold]
    simp only [hkeys]

/-- A message whose texts can be written and stored makes a notification when its event has a
handler. -/
theorem key_eq_handledKey
    (h : ∀ parsed, a.message.parsed = some parsed → parsed.plain = true)
    (hfits : ∀ e dto, a.message.event = .ok (some e) → e.notification = .ok (some dto) →
      (e.columns dto).isSome) :
    a.key = a.message.handledKey := by
  rcases he : a.message.event with x | _ | e
  · simp [Arrival.key, Message.notice, Message.handledKey, he]
  · simp [Arrival.key, Message.notice, Message.handledKey, he]
  · by_cases ht : ∃ t ∈ handledTypes, e.eventType = .str t
    · obtain ⟨dto, hdto⟩ := Message.Carries.notification ⟨h, he, ht⟩
      obtain ⟨n, hn⟩ := Option.isSome_iff_exists.mp (hfits e dto he hdto)
      obtain ⟨t, ht, htype⟩ := ht
      rw [Arrival.key_of_notice (notice_eq_some (n := (e, n)).mpr ⟨he, dto, hdto, hn⟩)]
      simp [Message.handledKey, he, htype, ht, Event.key]
    · have hnone : a.message.notice = none := by
        rw [Option.eq_none_iff_forall_ne_some]
        rintro ⟨e', n⟩ hn
        obtain ⟨he', dto, hdto, -⟩ := notice_eq_some.mp hn
        cases he.symm.trans he'
        have := notification_none.mpr fun t ht' htype => ht ⟨t, ht', htype⟩
        cases this.symm.trans hdto
      rw [Arrival.key, hnone, Option.map_none, Message.handledKey, he]
      dsimp only
      split
      · rename_i t htype
        rw [if_neg fun ht' => ht ⟨t, ht', htype⟩]
      · rfl

end Runs

/-- The order's identifier is an object, and one that no template string can write. -/
def unwritable : Message where
  parsed := some (.obj [("eventId", .str "event-1"), ("eventType", .str "OrderConfirmed"),
    ("orderId", .obj [("toString", .num 1)])])
  info := ⟨"order-events", 0, []⟩

end NotificationService
