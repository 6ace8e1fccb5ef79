import OrderPlatform.PaymentService.Lambda
import OrderPlatform.Wire.Texts

/-! # The marks of events without an identifier

An event without an identifier is marked under the position of its record, which the consumer
passes on with the offset. The Lambda handler would leave the offset out; as the service is built
it passes no record on and no mark is made of it.
-/

namespace PaymentService

open Wire

/-- The ways a record is ingested; in an event its headers stand in some encoding. -/
inductive Ingestion
  | consumer
  | lambda (e : HeaderEncoding)
  deriving DecidableEq, Repr

namespace Ingestion

/-- What is handed to `process` for a record. -/
def pass (path : Ingestion) (r : KafkaRecord) : Option (String × Meta) :=
  match path with
  | .consumer => passed r
  | .lambda e => (Lambda.handler Lambda.packageType (.single (r.msk e))).1.head?

variable (parse : String → Option Json)

/-- The key `process` sets for a record, its value read by `parse`. -/
def key (path : Ingestion) (r : KafkaRecord) : Option String := do
  let (raw, info) ← path.pass r
  let d : Delivery Unit := ⟨parse raw, info, 0, ()⟩
  let e ← d.event.toOption
  return dedupKey e.topic e.eventId

/-- Neither the headers nor the value name the event. -/
def Unidentified (path : Ingestion) (r : KafkaRecord) : Prop :=
  ∀ raw info, path.pass r = some (raw, info) → info.header "event-id" "eventId" = none ∧
    ∀ parsed, parse raw = some parsed → (parsed.member "eventId").map present = .ok none

end Ingestion

section Keys

variable {parse : String → Option Json} {path path' : Ingestion} {r r' : KafkaRecord}

theorem event_of_unidentified {d : Delivery Unit} {e : Event} (h : d.event = .ok e)
    (hh : d.info.header "event-id" "eventId" = none)
    (hm : ∀ parsed, d.parsed = some parsed → (parsed.member "eventId").map present = .ok none) :
    e.topic = d.info.topic ∧ e.eventId = d.info.position := by
  unfold Delivery.event at h
  cases hp : d.parsed with
  | none => simp [hp] at h
  | some parsed =>
    rw [hp] at h
    obtain ⟨type, -, h⟩ := ok_of_bind h
    obtain ⟨id, hid, h⟩ := ok_of_bind h
    obtain ⟨text, htext, h⟩ := ok_of_bind h
    obtain ⟨m, hmember, hnone⟩ := map_eq_ok.mp (hm parsed hp)
    rw [eventId, hh, hmember] at hid
    simp only [Except.map, hnone, Option.getD_none, Except.ok.injEq] at hid
    subst hid
    cases htext
    cases h
    exact ⟨rfl, rfl⟩

/-- Only the consumer passes a record on. -/
theorem pass_eq_some {c : String × Meta} (h : path.pass r = some c) :
    path = .consumer ∧ passed r = some c := by
  cases path with
  | consumer => exact ⟨rfl, h⟩
  | lambda e =>
    rw [Ingestion.pass, Lambda.handler_packageType] at h
    cases h

/-- The mark is under the record's topic and its position. -/
theorem key_eq (hid : path.Unidentified parse r) {k : String} (hk : path.key parse r = some k) :
    ∃ info : Meta, (∃ raw, passed r = some (raw, info)) ∧
      k = dedupKey ⟨r.topic, r.legal⟩ info.position := by
  unfold Ingestion.key at hk
  obtain ⟨⟨raw, info⟩, hpass, hk⟩ := Option.bind_eq_some_iff.mp hk
  obtain ⟨e, he, hk⟩ := Option.bind_eq_some_iff.mp hk
  obtain ⟨hh, hm⟩ := hid raw info hpass
  have hevent : (⟨parse raw, info, 0, ()⟩ : Delivery Unit).event = .ok e := by
    revert he
    cases (⟨parse raw, info, 0, ()⟩ : Delivery Unit).event <;> simp [Except.toOption]
  obtain ⟨het, hei⟩ := event_of_unidentified hevent hh hm
  obtain ⟨-, hp⟩ := pass_eq_some hpass
  refine ⟨info, ⟨raw, hp⟩, ?_⟩
  cases hk
  rw [het, hei]
  obtain ⟨raw', -, hc⟩ := Option.map_eq_some_iff.mp hp
  cases hc
  rfl

theorem position_of_passed {raw : String} {info : Meta} (h : passed r = some (raw, info)) :
    info.position = r.topic ++ "-" ++ (toString r.partition ++
      if r.offset = "" then "" else "-" ++ r.offset) := by
  obtain ⟨raw', -, hc⟩ := Option.map_eq_some_iff.mp h
  cases hc
  by_cases ho : r.offset = "" <;> simp [Meta.position, ho, String.append_assoc]

/-- The digits of a partition end at the separator, so the position names the record. -/
theorem partition_offset_inj {p p' : ℕ} {o o' : String}
    (h : toString p ++ (if o = "" then "" else "-" ++ o) =
      toString p' ++ if o' = "" then "" else "-" ++ o') : p = p' ∧ o = o' := by
  have hdigits (n : ℕ) := notMem_toString (show '-'.isDigit = false by rfl) n
  have hcross (m n : ℕ) (o : String) : toString m ≠ toString n ++ ("-" ++ o) := by
    intro h
    have hmem : '-' ∈ (toString n ++ ("-" ++ o)).toList := by simp
    exact hdigits m (h ▸ hmem)
  split at h <;> split at h
  · rename_i ho ho'
    rw [String.append_empty, String.append_empty] at h
    exact ⟨Uuid.text_injective h, ho.trans ho'.symm⟩
  · rw [String.append_empty] at h
    exact absurd h (hcross _ _ _)
  · rw [String.append_empty] at h
    exact absurd h.symm (hcross _ _ _)
  · rw [← String.append_assoc, ← String.append_assoc] at h
    obtain ⟨hp, ho⟩ := joined_inj rfl (hdigits _) (hdigits _) h
    exact ⟨Uuid.text_injective hp, ho⟩

end Keys

/-- Records of different positions that name no event are marked under different keys. -/
theorem keys_differ (parse : String → Option Json) (path path' : Ingestion) (r r' : KafkaRecord)
    (k k' : String) (hk : path.key parse r = some k) (hk' : path'.key parse r' = some k')
    (hid : path.Unidentified parse r) (hid' : path'.Unidentified parse r')
    (hne : ¬ (r.topic = r'.topic ∧ r.partition = r'.partition ∧ r.offset = r'.offset)) :
    k ≠ k' := by
  obtain ⟨info, ⟨raw, hp⟩, rfl⟩ := key_eq hid hk
  obtain ⟨info', ⟨raw', hp'⟩, rfl⟩ := key_eq hid' hk'
  intro h
  obtain ⟨ht, hposition⟩ := dedupKey_inj h
  have htopic : r.topic = r'.topic := congrArg Topic.name ht
  rw [position_of_passed hp, position_of_passed hp', htopic, String.append_right_inj] at hposition
  exact hne ⟨htopic, partition_offset_inj hposition⟩

def orderText : String := "\x7b\"eventType\":\"OrderCreated\",\"orderId\":\"order-1\"\x7d"

def readOrder (raw : String) : Option Json :=
  if raw = orderText then
    some (.obj [("eventType", .str "OrderCreated"), ("orderId", .str "order-1")])
  else none

/-- A record of the first partition without headers. -/
def bareRecord (offset : String) : KafkaRecord where
  topic := orderEvents.name
  legal := orderEvents.legal
  partition := 0
  offset := offset
  value := some (Buffer.ofText orderText)
  headers := []

theorem bareRecord_pass (offset : String) : passed (bareRecord offset) =
    some (orderText, ⟨orderEvents, toString 0, some offset, []⟩) := by
  have hraw : (bareRecord offset).raw = some orderText :=
    KafkaRecord.raw_eq_some.mpr ⟨_, rfl, by decide, Buffer.text_ofText _⟩
  rw [passed, hraw]
  rfl

theorem bareRecord_unidentified (offset : String) :
    Ingestion.consumer.Unidentified readOrder (bareRecord offset) := by
  intro raw info h
  cases (bareRecord_pass offset).symm.trans h
  refine ⟨rfl, fun parsed hp => ?_⟩
  rw [readOrder, if_pos rfl] at hp
  cases hp
  rfl

/-- Two records of one partition are marked under their offsets. -/
theorem bareRecords_key :
    Ingestion.consumer.key readOrder (bareRecord "7") =
        some (dedupKey orderEvents "order-events-0-7") ∧
      Ingestion.consumer.key readOrder (bareRecord "8") =
        some (dedupKey orderEvents "order-events-0-8") ∧
      dedupKey orderEvents "order-events-0-7" ≠ dedupKey orderEvents "order-events-0-8" := by
  have hkey (offset : String) (ho : offset ≠ "") :
      Ingestion.consumer.key readOrder (bareRecord offset) =
        some (dedupKey orderEvents ("order-events-0-" ++ offset)) := by
    obtain ⟨k, hk⟩ : ∃ k, Ingestion.consumer.key readOrder (bareRecord offset) = some k := by
      simp only [Ingestion.key, Ingestion.pass, bareRecord_pass, Option.bind_eq_bind,
        Option.bind_some, readOrder]
      exact ⟨_, rfl⟩
    obtain ⟨info, ⟨raw, hp⟩, rfl⟩ := key_eq (bareRecord_unidentified offset) hk
    cases (bareRecord_pass offset).symm.trans hp
    simp only [hk, Meta.position, ho, if_false]
    rfl
  exact ⟨hkey "7" (by decide), hkey "8" (by decide),
    keys_differ readOrder .consumer .consumer (bareRecord "7") (bareRecord "8") _ _
      (hkey "7" (by decide)) (hkey "8" (by decide)) (bareRecord_unidentified "7")
      (bareRecord_unidentified "8") (by decide)⟩

end PaymentService
