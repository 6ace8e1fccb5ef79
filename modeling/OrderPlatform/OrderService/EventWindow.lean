import OrderPlatform.OrderService.InventoryConsumer
import OrderPlatform.Store.Windows

/-! # The window of a processed event

Calls of `process` run one after another, each at one instant, while orders and outbox may
change between them. A handler runs exactly when no call that ran it to its end lies within
the window, and skipped duplicates do not move the window.
-/

namespace OrderService

open Store Wire

/-- The message has a type with a handler and names an event. -/
structure InventoryMessage.Names (m : InventoryMessage) (readUuid : String → Option Uuid)
    (eventId : Uuid) : Prop where
  parsed : ∃ event, m.parsed = some event ∧
    (∃ eventType, m.memberOrHeader event "eventType" "event-type" = .ok eventType ∧
      (handlerOf eventType).isSome) ∧
    ∃ id, m.memberOrHeader event "eventId" "event-id" = .ok (.str id) ∧ id ≠ "" ∧
      readUuid id = some eventId

/-- The message gets as far as the handler of its type. -/
def Attempt.invokes (fails : Statement → Bool) (readUuid : String → Option Uuid) (s : Service)
    (m : InventoryMessage) (x : ProcessAnswer) : Bool :=
  match m.parsed with
  | none => false
  | some event =>
    match m.memberOrHeader event "eventType" "event-type",
        m.memberOrHeader event "eventId" "event-id" with
    | .ok eventType, .ok eventId =>
      if eventId.truthy = false then false
      else match uuidOf readUuid eventId with
        | .error _ => false
        | .ok eventId =>
          match isEventProcessed fails s eventId x.checkedAt with
          | (_, .ok false) => (handlerOf eventType).isSome
          | _ => false
    | _, _ => false

section Invoked

variable {fails : Statement → Bool} {readUuid : String → Option Uuid} {ttl : ℕ} {s : Service}
  {m : InventoryMessage} {x : ProcessAnswer} {eventId : Uuid}

theorem Attempt.world_isEventProcessed (fails : Statement → Bool) (s : Service) (eventId : Uuid)
    (now : ℕ) : (isEventProcessed fails s eventId now).1.world = s.world := by
  unfold isEventProcessed
  split
  · rfl
  · split
    · rfl
    · split
      · split <;> rfl
      · rfl

theorem Attempt.world_markEventProcessed (eventType : Json) (now : ℕ) :
    (markEventProcessed fails ttl s eventId eventType now).world = s.world := by
  unfold markEventProcessed
  split
  · rfl
  · exact OrderService.world_markEventProcessed

theorem uuidOf_eq_ok {j : Json} {id : Uuid} (h : uuidOf readUuid j = .ok id) :
    ∃ text, j = .str text ∧ readUuid text = some id := by
  cases j with
  | str text =>
    refine ⟨text, rfl, ?_⟩
    cases hr : readUuid text with
    | none => simp [uuidOf, hr] at h
    | some id' => simpa [uuidOf, hr] using h
  | null | bool | num | arr | obj => cases h

/--
An invoked handler alone decides what becomes of orders and outbox, and whether it ran to its end;
its message is well formed as soon as it names an order.
-/
theorem Attempt.process_of_invokes (h : invokes fails readUuid s m x = true) :
    ∃ handler event eventId, m.parsed = some event ∧
      (∃ t, isEventProcessed fails s eventId x.checkedAt = (t, .ok false)) ∧
      (∀ id orderId, event.member "orderId" = .ok (some (.str id)) → readUuid id = some orderId →
        m.Carries readUuid event eventId orderId handler) ∧
      (process fails readUuid ttl s m x).store.world =
        (handle fails readUuid s.world handler event x).1 ∧
      ((process fails readUuid ttl s m x).handled = true ↔
        (handle fails readUuid s.world handler event x).2 = .ok ()) := by
  unfold invokes at h
  split at h
  · cases h
  rename_i event hparsed
  split at h
  case h_2 => cases h
  rename_i eventType eventId ht hid
  split at h
  · cases h
  rename_i htrue
  split at h
  · cases h
  rename_i id hu
  split at h
  case h_2 => cases h
  rename_i t hnew
  obtain ⟨handler, hh⟩ := Option.isSome_iff_exists.mp h
  have hw := world_isEventProcessed fails s id x.checkedAt
  rw [hnew] at hw
  dsimp only at hw
  refine ⟨handler, event, id, hparsed, ⟨t, hnew⟩, ?_, ?_⟩
  · intro text orderId horder hread
    obtain ⟨text', rfl, hread'⟩ := uuidOf_eq_ok hu
    exact ⟨hparsed, ⟨eventType, ht, hh⟩, ⟨text', hid, by simpa [Json.truthy] using htrue, hread'⟩,
      text, horder, hread⟩
  · simp only [process, Conclusion.caught, body, hparsed, ht, hid, htrue, hu, hnew, dispatch, hh,
      hw, Bool.true_eq_false, if_false]
    rcases handle fails readUuid s.world handler event x with ⟨w, e | ⟨⟩⟩
    · exact ⟨rfl, by simp⟩
    · exact ⟨world_markEventProcessed eventType x.markedAt, by simp⟩

/-- Without it orders and outbox are left alone. -/
theorem Attempt.process_of_not_invokes (h : invokes fails readUuid s m x = false) :
    (process fails readUuid ttl s m x).store.world = s.world ∧
      (process fails readUuid ttl s m x).handled = false := by
  unfold invokes at h
  split at h
  · rename_i hparsed
    simp only [process, Conclusion.caught, body, hparsed, and_self]
  rename_i event hparsed
  split at h
  case h_2 hn =>
    cases ht : m.memberOrHeader event "eventType" "event-type" with
    | error e => simp only [process, Conclusion.caught, body, hparsed, ht, and_self]
    | ok eventType =>
      cases hid : m.memberOrHeader event "eventId" "event-id" with
      | error e => simp only [process, Conclusion.caught, body, hparsed, ht, hid, and_self]
      | ok eventId => exact absurd hid (hn _ _ ht)
  rename_i eventType eventId ht hid
  split at h
  · rename_i hfalse
    simp only [process, Conclusion.caught, body, hparsed, ht, hid, hfalse, if_true, and_self]
  rename_i htrue
  split at h
  · rename_i hu
    simp only [process, Conclusion.caught, body, hparsed, ht, hid, htrue, hu, and_self, if_false,
      Bool.true_eq_false]
  rename_i eventId hu
  have hw := world_isEventProcessed fails s eventId x.checkedAt
  simp only [process, Conclusion.caught, body, hparsed, ht, hid, htrue, hu, Bool.true_eq_false,
    if_false]
  rcases hc : isEventProcessed fails s eventId x.checkedAt with ⟨t, e | _ | _⟩
  · rw [hc] at hw
    exact ⟨hw, rfl⟩
  · rw [hc] at hw h
    have hh : handlerOf eventType = none := by simpa using h
    simp only [dispatch, hh, and_true]
    exact (world_markEventProcessed eventType x.markedAt).trans hw
  · rw [hc] at hw
    exact ⟨hw, rfl⟩

/-- The check of an event that is not fresh leaves no row of it. -/
theorem Attempt.isEventProcessed_eq (hf : fails .findProcessed = false)
    (hr : fails .removeExpired = false) (s : Service) (eventId : Uuid) (now : ℕ) :
    (Fresh ProcessedEvent.eventId ProcessedEvent.expiresAt s.processed eventId now ∧
        isEventProcessed fails s eventId now = (s, .ok true)) ∨
      (¬ Fresh ProcessedEvent.eventId ProcessedEvent.expiresAt s.processed eventId now ∧
        isEventProcessed fails s eventId now =
          ({ s with processed := without ProcessedEvent.eventId eventId s.processed },
            .ok false)) := by
  simp only [isEventProcessed, hf, hr, Bool.false_eq_true, if_false]
  cases hl : lookup ProcessedEvent.eventId eventId s.processed with
  | none =>
    refine Or.inr ⟨?_, ?_⟩
    · rintro ⟨row, hrow, -⟩
      exact Option.some_ne_none row (hrow.symm.trans hl)
    · rw [without_of_none hl]
  | some row =>
    by_cases he : row.expiresAt < now
    · refine Or.inr ⟨?_, if_pos he⟩
      rintro ⟨row', hrow, hlate⟩
      obtain rfl : row = row' := Option.some.inj (hl.symm.trans hrow)
      omega
    · exact Or.inl ⟨⟨row, hl, Nat.not_lt.mp he⟩, if_neg he⟩

theorem fits_of_handlerOf {eventType : Json} (h : (handlerOf eventType).isSome) :
    Service.fits eventType = true := by
  unfold handlerOf at h
  split at h
  · decide
  · decide
  · cases h

theorem Attempt.processed_markEventProcessed {eventType : Json} (hs : fails .saveProcessed = false)
    (hl : lookup ProcessedEvent.eventId eventId s.processed = none)
    (hfits : Service.fits eventType = true) (now : ℕ) :
    (markEventProcessed fails ttl s eventId eventType now).processed =
      s.processed ++ [⟨eventId, eventType, now + ttl⟩] := by
  simp [markEventProcessed, Service.markEventProcessed, hs, hl, hfits]

end Invoked

/--
A call of `process` at one instant, on a message that names an event. Its handler may throw,
but the statements on the processed events do not fail.
-/
structure ProcessCall (readUuid : String → Option Uuid) where
  message : InventoryMessage
  eventId : Uuid
  answer : ProcessAnswer
  fails : Statement → Bool
  world : World
  names : message.Names readUuid eventId
  instant : answer.markedAt = answer.checkedAt
  found : fails .findProcessed = false
  removed : fails .removeExpired = false
  saved : fails .saveProcessed = false

namespace ProcessCall

variable {readUuid : String → Option Uuid}

def time (c : ProcessCall readUuid) : ℕ := c.answer.checkedAt

def conclusion (ttl : ℕ) (c : ProcessCall readUuid) (processed : List ProcessedEvent) :
    Conclusion Service :=
  Attempt.process c.fails readUuid ttl ⟨c.world, processed⟩ c.message c.answer

def invokes (c : ProcessCall readUuid) (processed : List ProcessedEvent) : Bool :=
  Attempt.invokes c.fails readUuid ⟨c.world, processed⟩ c.message c.answer

/-- The handler was invoked and ran to its end. -/
def completes (ttl : ℕ) (c : ProcessCall readUuid) (processed : List ProcessedEvent) : Bool :=
  c.invokes processed && (c.conclusion ttl processed).handled

/-- The processed events after some calls, from none. -/
def processedAfter (ttl : ℕ) (calls : List (ProcessCall readUuid)) : List ProcessedEvent :=
  calls.foldl (fun processed c => (c.conclusion ttl processed).store.processed) []

/-- A handler for the event was invoked at a time, and ran to its end. -/
def Completed (ttl : ℕ) (calls : List (ProcessCall readUuid)) (eventId : Uuid) (time : ℕ) : Prop :=
  ∃ before c after, calls = before ++ c :: after ∧ c.eventId = eventId ∧ c.time = time ∧
    c.completes ttl (processedAfter ttl before) = true

section Step

variable {ttl : ℕ} {c : ProcessCall readUuid} {processed : List ProcessedEvent}
  {calls : List (ProcessCall readUuid)}

/-- A call finds its event fresh and changes nothing, or it drops the event's row, invokes the
handler and, when that runs to its end, marks the event anew. -/
theorem effect (ttl : ℕ) (c : ProcessCall readUuid)
    (hn : (processed.map ProcessedEvent.eventId).Nodup) :
    (Fresh ProcessedEvent.eventId ProcessedEvent.expiresAt processed c.eventId c.time ∧
        c.invokes processed = false ∧ (c.conclusion ttl processed).store.processed = processed) ∨
      (¬ Fresh ProcessedEvent.eventId ProcessedEvent.expiresAt processed c.eventId c.time ∧
        c.invokes processed = true ∧ ∃ eventType,
        (c.conclusion ttl processed).store.processed =
          if (c.conclusion ttl processed).handled then
            without ProcessedEvent.eventId c.eventId processed ++
              [⟨c.eventId, eventType, c.time + ttl⟩]
          else without ProcessedEvent.eventId c.eventId processed) := by
  obtain ⟨event, hparsed, ⟨eventType, ht, hh⟩, id, hid, hne, hu⟩ := c.names.parsed
  have htrue : (Json.str id).truthy = true := decide_eq_true hne
  have hread : uuidOf readUuid (.str id) = .ok c.eventId := by
    simp only [uuidOf, hu, Option.elim]
  obtain ⟨hfresh, hcheck⟩ | ⟨hfresh, hcheck⟩ := Attempt.isEventProcessed_eq
    c.found c.removed ⟨c.world, processed⟩ c.eventId c.time
  · refine Or.inl ⟨hfresh, ?_, ?_⟩
    · simp only [invokes, Attempt.invokes, hparsed, ht, hid, htrue, hread]
      rw [show c.answer.checkedAt = c.time from rfl, hcheck]
      rfl
    · simp only [conclusion, Attempt.process, Conclusion.caught, Attempt.body, hparsed, ht, hid,
        htrue, hread]
      rw [show c.answer.checkedAt = c.time from rfl, hcheck]
      rfl
  · refine Or.inr ⟨hfresh, ?_, eventType, ?_⟩
    · simp only [invokes, Attempt.invokes, hparsed, ht, hid, htrue, hread]
      rw [show c.answer.checkedAt = c.time from rfl, hcheck]
      exact hh
    · have hfits := fits_of_handlerOf hh
      obtain ⟨handler, hh⟩ := Option.isSome_iff_exists.mp hh
      simp only [conclusion, Attempt.process, Conclusion.caught, Attempt.body, hparsed, ht, hid,
        htrue, hread, Bool.true_eq_false, if_false]
      rw [show c.answer.checkedAt = c.time from rfl, hcheck]
      simp only [Attempt.dispatch, hh]
      rcases Attempt.handle c.fails readUuid c.world handler event c.answer with ⟨w, e | ⟨⟩⟩
      · rfl
      · dsimp only
        rw [c.instant]
        exact Attempt.processed_markEventProcessed c.saved (lookup_without hn) hfits c.time

@[simp] theorem processedAfter_concat : processedAfter ttl (calls ++ [c]) =
    (c.conclusion ttl (processedAfter ttl calls)).store.processed := by
  rw [processedAfter, List.foldl_append]
  rfl

theorem completed_nil {eventId : Uuid} {time : ℕ} :
    ¬ Completed ttl ([] : List (ProcessCall readUuid)) eventId time := by
  rintro ⟨before, c, after, h, -⟩
  simp at h

theorem completed_concat {eventId : Uuid} {time : ℕ} :
    Completed ttl (calls ++ [c]) eventId time ↔ Completed ttl calls eventId time ∨
      c.completes ttl (processedAfter ttl calls) = true ∧ c.eventId = eventId ∧ c.time = time := by
  constructor
  · rintro ⟨before, d, after, hsplit, hid, ht, hc⟩
    rcases List.eq_nil_or_concat after with rfl | ⟨after, last, rfl⟩
    · obtain ⟨rfl, hlast⟩ := List.append_inj' hsplit rfl
      obtain rfl := (List.cons.inj hlast).1
      exact Or.inr ⟨hc, hid, ht⟩
    · rw [List.concat_eq_append, ← List.cons_append, ← List.append_assoc] at hsplit
      obtain ⟨rfl, -⟩ := List.append_inj' hsplit rfl
      exact Or.inl ⟨before, d, after, rfl, hid, ht, hc⟩
  · rintro (⟨before, d, after, rfl, hid, ht, hc⟩ | ⟨hc, hid, ht⟩)
    · exact ⟨before, d, after ++ [c], by simp, hid, ht, hc⟩
    · exact ⟨calls, c, [], rfl, hid, ht, hc⟩

/-- One call keeps the table in step with the handlers that completed. -/
theorem remembers_step {since : ℕ} (hs : since ≤ c.time)
    (h : Remembers ProcessedEvent.eventId ProcessedEvent.expiresAt ttl since
      (processedAfter ttl calls) (Completed ttl calls)) :
    Remembers ProcessedEvent.eventId ProcessedEvent.expiresAt ttl c.time
      (processedAfter ttl (calls ++ [c])) (Completed ttl (calls ++ [c])) := by
  have hmarked : Completed ttl (calls ++ [c]) = fun eventId time =>
      Completed ttl calls eventId time ∨ c.completes ttl (processedAfter ttl calls) = true ∧
        c.eventId = eventId ∧ c.time = time := by
    ext eventId time
    exact completed_concat
  rw [hmarked, processedAfter_concat]
  obtain ⟨-, hskip, hrows⟩ | ⟨hexpired, hinvoked, eventType, hrows⟩ := effect ttl c h.nodup
  · rw [hrows]
    simpa [completes, hskip] using h.mono hs
  · have hwithout := h.without hs hexpired
    rw [hrows]
    cases hdone : (c.conclusion ttl (processedAfter ttl calls)).handled with
    | false => simpa [completes, hdone] using hwithout
    | true =>
      simpa [completes, hdone, hinvoked] using hwithout.mark (lookup_without h.nodup)
        (a := ⟨c.eventId, eventType, c.time + ttl⟩) rfl rfl

/-- At every time from the last call on, the fresh events are those that completed within the
window. -/
theorem remembers (ttl : ℕ) (h : calls.Pairwise fun c d => c.time ≤ d.time) {now : ℕ}
    (hnow : ∀ c ∈ calls, c.time ≤ now) :
    Remembers ProcessedEvent.eventId ProcessedEvent.expiresAt ttl now (processedAfter ttl calls)
      (Completed ttl calls) := by
  induction calls using List.reverseRecOn generalizing now with
  | nil =>
    have hnone : Completed ttl ([] : List (ProcessCall readUuid)) = fun _ _ => False := by
      ext eventId time
      exact iff_of_false completed_nil id
    rw [hnone]
    exact Remembers.nil
  | append_singleton calls c ih =>
    obtain ⟨hcalls, -, hlast⟩ := List.pairwise_append.mp h
    have hbefore : ∀ d ∈ calls, d.time ≤ c.time := fun d hd =>
      hlast d hd c (List.mem_singleton_self c)
    exact (remembers_step le_rfl (ih hcalls hbefore)).mono (hnow c (by simp))

/--
In calls that follow one another, a handler is invoked exactly when no earlier invocation
for the event that completed lies within the window, and the table holds no event twice.
-/
theorem invoked_iff (ttl : ℕ) {calls : List (ProcessCall readUuid)}
    (h : calls.Pairwise fun c d => c.time ≤ d.time) :
    (∀ past c rest, calls = past ++ c :: rest →
      (c.invokes (processedAfter ttl past) = true ↔
        ¬ ∃ earlier, Completed ttl past c.eventId earlier ∧ c.time ≤ earlier + ttl)) ∧
    ∀ past rest, calls = past ++ rest →
      ((processedAfter ttl past).map ProcessedEvent.eventId).Nodup := by
  constructor
  · rintro past c rest rfl
    obtain ⟨hpast, -, hlater⟩ := List.pairwise_append.mp h
    have hbefore : ∀ d ∈ past, d.time ≤ c.time := fun d hd => hlater d hd c List.mem_cons_self
    have hr := remembers ttl hpast hbefore
    rw [← hr.fresh_iff c.eventId c.time le_rfl]
    obtain ⟨hfresh, hinvokes, -⟩ | ⟨hfresh, hinvokes, -⟩ := effect ttl c hr.nodup
    · simp [hfresh, hinvokes]
    · simp [hfresh, hinvokes]
  · rintro past rest rfl
    obtain ⟨hpast, -, -⟩ := List.pairwise_append.mp h
    rcases List.eq_nil_or_concat past with rfl | ⟨before, last, rfl⟩
    · exact List.nodup_nil
    rw [List.concat_eq_append] at hpast ⊢
    suffices hlast : ∀ d ∈ before ++ [last], d.time ≤ last.time from
      (remembers ttl hpast hlast).nodup
    intro d hd
    rcases List.mem_append.mp hd with hd | hd
    · exact (List.pairwise_append.mp hpast).2.2 d hd last (List.mem_singleton_self last)
    · rw [List.mem_singleton.mp hd]

end Step

end ProcessCall

def eventReader (text : String) : Option Uuid :=
  if text = "order-0" then some 0 else if text = "evt-1" then some 1 else none

/-- An event about an order that does not exist. -/
def reservedAt (time : ℕ) : ProcessCall eventReader where
  message := ⟨some (.obj [("eventId", .str "evt-1"), ("eventType", .str "InventoryReserved"),
    ("orderId", .str "order-0")]), []⟩
  eventId := 1
  answer := ⟨⟨time, "1970-01-01T00:00:00.000Z"⟩, time, time, none⟩
  fails _ := false
  world := .empty
  names := ⟨_, rfl, ⟨_, rfl, rfl⟩, "evt-1", rfl, by decide, rfl⟩
  instant := rfl
  found := rfl
  removed := rfl
  saved := rfl

theorem reserved_in_order :
    [reservedAt 0, reservedAt 86400000].Pairwise fun c d => c.time ≤ d.time := by
  simp [ProcessCall.time, reservedAt]

/-- A duplicate at the last instant of the window is skipped, and the next one is not. -/
theorem duplicates_of_reserved :
    ((reservedAt 86400000).invokes (ProcessCall.processedAfter 86400000 [reservedAt 0]) = true ↔
      ¬ ∃ earlier, ProcessCall.Completed 86400000 [reservedAt 0] 1 earlier ∧
        86400000 ≤ earlier + 86400000) ∧
    (reservedAt 86400000).invokes (ProcessCall.processedAfter 86400000 [reservedAt 0]) = false ∧
    (reservedAt 86400001).invokes (ProcessCall.processedAfter 86400000
      [reservedAt 0, reservedAt 86400000]) = true :=
  ⟨(ProcessCall.invoked_iff 86400000 reserved_in_order).1 [reservedAt 0] (reservedAt 86400000) []
    rfl, by decide +kernel, by decide +kernel⟩

end OrderService
