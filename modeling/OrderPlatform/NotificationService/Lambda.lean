import OrderPlatform.NotificationService.Events
import OrderPlatform.Wire.Msk

/-! # The notification service's Lambda handler

The handler takes headers from a list of objects with a key and a value, both in base64.
An object is no list, and an object that lacks a key or a value is not read.
-/

namespace NotificationService

open Wire

/-- What `handleMessage` passes to `process` for a record. -/
def passed (r : KafkaRecord) : Option (String × Meta) :=
  r.raw.map fun raw => (raw, ⟨r.topic, r.partition, r.headerTexts⟩)

theorem handleMessage_message (r : KafkaRecord) (parse : String → Option Json) :
    handleMessage r.topic r.partition (r.message parse) =
      (passed r).map fun c => ⟨parse c.1, c.2⟩ := by
  unfold handleMessage passed
  rcases r.value_message parse with ⟨raw, hr, hv⟩ | ⟨hr, hv | hv⟩ <;>
    simp only [hr, hv, KafkaRecord.decodedHeaders_message] <;> rfl

namespace Lambda

/-- A header of the list, its key and its value decoded. -/
def entry (h : Json) : Except Thrown (String × String) := do
  let key ← Json.buffer (← h.member "key")
  let value ← Json.buffer (← h.member "value")
  return (key.text, value.text)

def context (r : MskRecord) (headers : List (String × String)) : Meta :=
  ⟨r.topic, r.partition, headers⟩

/-- The body of the loop, which throws where the record is not read. -/
def read (r : MskRecord) : Except Thrown (String × Meta) :=
  readRecord Json.elements entry context r

def handler (event : MskEvent) : List (String × Meta) := calls read event

theorem members_of_entry {h : Json} {t : String × String} (ht : entry h = .ok t) :
    ∃ key value, h.member "key" = .ok (some key) ∧ h.member "value" = .ok (some value) := by
  obtain ⟨key, hk, ht⟩ := ok_of_bind ht
  obtain ⟨k, hkb, ht⟩ := ok_of_bind ht
  obtain ⟨value, hv, ht⟩ := ok_of_bind ht
  obtain ⟨v, hvb, -⟩ := ok_of_bind ht
  cases key with
  | none => cases hkb
  | some key =>
    cases value with
    | none => cases hvb
    | some value => exact ⟨key, value, hk, hv⟩

theorem entry_pair (name : String) (b : Buffer) :
    entry (.obj [("key", .str (Buffer.ofText name).base64), ("value", .str b.base64)]) =
      .ok (name, b.text) := by
  have hk : (Json.obj [("key", .str (Buffer.ofText name).base64), ("value", .str b.base64)]).member
      "key" = .ok (some (.str (Buffer.ofText name).base64)) := by simp [Json.member]
  have hv : (Json.obj [("key", .str (Buffer.ofText name).base64), ("value", .str b.base64)]).member
      "value" = .ok (some (.str b.base64)) := by simp [Json.member]
  unfold entry
  rw [hk, hv]
  simp [bind, Except.bind, pure, Except.pure, Json.buffer]

/-- An object with one member lacks a key or a value. -/
theorem entry_named {name : String} {j : Json} : ¬ ∃ t, entry (.obj [(name, j)]) = .ok t := by
  rintro ⟨t, ht⟩
  obtain ⟨key, value, hk, hv⟩ := members_of_entry ht
  have hn : name = "key" := by
    by_contra hn
    simp [Json.member, hn] at hk
  simp [Json.member, hn] at hv

/-- The headers the handler reads are a list. -/
theorem arr_of_readHeaders {j : Json} {m : List (String × String)} (hj : j.truthy = true)
    (h : readHeaders Json.elements entry (some j) = .ok m) : ∃ elems, j = .arr elems := by
  obtain ⟨as, hl, he⟩ := (readHeaders_isOk hj).mp ⟨m, h⟩
  cases j with
  | arr elems => exact ⟨elems, rfl⟩
  | str s =>
    obtain rfl := Except.ok.inj hl
    have hs : s.toList ≠ [] := by simpa [Json.truthy] using hj
    obtain ⟨c, hc⟩ := List.exists_mem_of_ne_nil _ hs
    obtain ⟨t, ht⟩ := he _ (List.mem_map.mpr ⟨c, hc, rfl⟩)
    obtain ⟨key, -, hk, -⟩ := members_of_entry ht
    cases hk
  | null | bool | num | obj => cases hl

section Encoded

variable {hs : List (String × Buffer)}

theorem readHeaders_pairs :
    readHeaders Json.elements entry (some (HeaderEncoding.pairs.encode hs)) =
      .ok ((hs.map fun h => (h.1, h.2.text)).foldl assign []) :=
  readHeaders_map rfl rfl fun h => entry_pair h.1 h.2

theorem readHeaders_object :
    ¬ ∃ m, readHeaders Json.elements entry (some (HeaderEncoding.object.encode hs)) = .ok m := by
  rintro ⟨m, hm⟩
  obtain ⟨elems, he⟩ := arr_of_readHeaders rfl hm
  cases he

theorem readHeaders_named (hh : hs ≠ []) :
    ¬ ∃ m, readHeaders Json.elements entry (some (HeaderEncoding.named.encode hs)) = .ok m := by
  rw [readHeaders_isOk rfl]
  rintro ⟨as, hl, he⟩
  obtain rfl := Except.ok.inj hl
  obtain ⟨h, hm⟩ := List.exists_mem_of_ne_nil _ hh
  exact entry_named (he _ (List.mem_map.mpr ⟨h, hm, rfl⟩))

end Encoded

/-- Headers in a list of pairs are read as the consumer reads them, record by record. -/
theorem handler_pairs {batch : List (String × List KafkaRecord)}
    (h : ∀ topic ∈ batch, ∀ r ∈ topic.2, (r.headers.map Prod.fst).Nodup ∧ r.value ≠ some []) :
    SameCalls Meta.headers (handler (.encoded .pairs batch))
      (batch.flatMap fun topic => topic.2.filterMap passed) :=
  sameCalls_encoded fun topic ht r hr => sameCalls_of_readHeaders (h topic ht r hr).1
    (h topic ht r hr).2 readHeaders_pairs (fun _ _ => rfl) rfl

end Lambda

end NotificationService
