import OrderPlatform.PaymentService.Consumer
import OrderPlatform.Wire.Msk

/-! # The payment service's Lambda handler

Before any record the handler looks `require` up, which the modules of this package do not have:
it reads nothing at all. Where `require` is there, it takes headers from an object of base64 texts.
Of a list it takes the positions for the names and the elements for the texts, so that the other
encodings are not read.
-/

namespace PaymentService

open Wire

/-- What `handleMessage` passes to `process` for a record. -/
def passed (r : KafkaRecord) : Option (String × Meta) :=
  r.raw.map fun raw => (raw, {
    topic := ⟨r.topic, r.legal⟩
    partition := toString r.partition
    offset := some r.offset
    headers := r.headerTexts })

theorem handleMessage_message {ε : Type*} (r : KafkaRecord) (parse : String → Option Json)
    (now : ℕ) (answer : ε) :
    handleMessage ⟨r.topic, r.legal⟩ r.partition (r.message parse) now answer =
      (passed r).map fun c => ⟨parse c.1, c.2, now, answer⟩ := by
  unfold handleMessage passed
  rcases r.value_message parse with ⟨raw, hr, hv⟩ | ⟨hr, hv | hv⟩ <;>
    simp only [hr, hv, KafkaRecord.decodedHeaders_message] <;> rfl

namespace Lambda

/-- An entry of the headers, its text decoded. -/
def entry (h : String × Json) : Except Thrown (String × String) := do
  let b ← Json.buffer (some h.2)
  return (h.1, b.text)

def context (r : MskRecord) (headers : List (String × String)) : Meta where
  topic := ⟨r.topic, r.legal⟩
  partition := toString r.partition
  offset := none
  headers := headers

/-- The body of the loop, which throws where the record is not read. -/
def read (r : MskRecord) : Except Thrown (String × Meta) :=
  readRecord Json.entries entry context r

/-- What the runtime takes the files of a package for. -/
inductive ModuleSystem
  | commonJs
  | esModules
  deriving DecidableEq, Repr

/-- The `type` of the service's package. -/
def packageType : ModuleSystem := .esModules

/-- The start of the application, which names `require`; it is kept for the next events. -/
def bootstrap : ModuleSystem → Except Thrown Unit
  | .commonJs => .ok ()
  | .esModules => .error .referenceError

/-- The calls of `process` for an event, and how the handler ends. -/
def handler (modules : ModuleSystem) (event : MskEvent) :
    List (String × Meta) × Except Thrown Unit :=
  match bootstrap modules with
  | .error e => ([], .error e)
  | .ok () => (calls read event, .ok ())

/-- As the service is built, every event is answered with the error and no record is read. -/
theorem handler_packageType (event : MskEvent) :
    handler packageType event = ([], .error .referenceError) := rfl

theorem entry_eq_ok {h : String × Json} {t : String × String} :
    entry h = .ok t ↔ ∃ b, Json.buffer (some h.2) = .ok b ∧ (h.1, Buffer.text b) = t := by
  simp only [entry, bind_eq_ok, pure, Except.pure, Except.ok.injEq]

/-- The handler reads a list of headers where each element is read as a buffer. -/
theorem readHeaders_arr {elems : List Json} :
    (∃ m, readHeaders Json.entries entry (some (.arr elems)) = .ok m) ↔
      ∀ j ∈ elems, ∃ b, Json.buffer (some j) = .ok b := by
  rw [readHeaders_isOk rfl]
  constructor
  · rintro ⟨as, hl, h⟩ j hj
    obtain ⟨i, hi, rfl⟩ := List.getElem_of_mem hj
    obtain rfl := Except.ok.inj hl
    obtain ⟨t, ht⟩ := h (toString i, elems[i]) (List.mem_mapIdx.mpr ⟨i, hi, rfl⟩)
    exact (entry_eq_ok.mp ht).imp fun b hb => hb.1
  · intro h
    refine ⟨_, rfl, fun a ha => ?_⟩
    obtain ⟨i, hi, rfl⟩ := List.mem_mapIdx.mp ha
    obtain ⟨b, hb⟩ := h _ (List.getElem_mem hi)
    exact ⟨_, entry_eq_ok.mpr ⟨b, hb, rfl⟩⟩

theorem names_of_entries {as : List (String × Json)} {hs : List (String × String)}
    (h : List.Forall₂ (fun a t => entry a = .ok t) as hs) :
    hs.map Prod.fst = as.map Prod.fst := by
  induction h with
  | nil => rfl
  | cons ha _ ih =>
    obtain ⟨b, -, rfl⟩ := entry_eq_ok.mp ha
    rw [List.map_cons, List.map_cons, ih]

/-- The names it takes from a list are positions. -/
theorem lookup_readHeaders_arr {elems : List Json} {m : List (String × String)}
    (h : readHeaders Json.entries entry (some (.arr elems)) = .ok m) {name v : String}
    (hl : m.lookup name = some v) : ∃ i : ℕ, name = toString i := by
  obtain ⟨as, has, hs, hr, rfl⟩ := (readHeaders_eq_ok rfl).mp h
  have hn : name ∈ as.map Prod.fst :=
    names_of_entries hr ▸ List.mem_map.mpr ⟨_, mem_of_lookup_foldl_assign hl, rfl⟩
  obtain ⟨a, ha, rfl⟩ := List.mem_map.mp hn
  obtain rfl := Except.ok.inj has
  obtain ⟨i, hi, rfl⟩ := List.mem_mapIdx.mp ha
  exact ⟨i, rfl⟩

/-- A pair is no buffer. -/
theorem buffer_pair (key value : String) :
    Json.buffer (some (.obj [("key", .str key), ("value", .str value)])) = .error .typeError := by
  simp [Json.buffer, Json.objectBuffer, Json.objectBuffer.bytes, Json.field]

/-- An object with a list as its one member is a buffer if that member is its length. -/
theorem buffer_named {name : String} {elems : List Json} :
    (∃ b, Json.buffer (some (.obj [(name, .arr elems)])) = .ok b) ↔ name = "length" := by
  by_cases hv : name = "valueOf"
  · simp [hv, Json.buffer, Json.objectBuffer, Json.field]
  by_cases hl : name = "length"
  · simp [hl, Json.buffer, Json.objectBuffer, Json.objectBuffer.bytes, Json.field]
  · by_cases ht : name = "type" <;>
      simp [hv, hl, ht, Json.buffer, Json.objectBuffer, Json.objectBuffer.bytes, Json.field]

section Encoded

variable {hs : List (String × Buffer)}

theorem readHeaders_object :
    readHeaders Json.entries entry (some (HeaderEncoding.object.encode hs)) =
      .ok ((hs.map fun h => (h.1, h.2.text)).foldl assign []) :=
  readHeaders_map rfl rfl fun h => entry_eq_ok.mpr
    ⟨h.2, congrArg Except.ok (Buffer.ofBase64_base64 h.2), rfl⟩

theorem readHeaders_pairs (hh : hs ≠ []) :
    ¬ ∃ m, readHeaders Json.entries entry (some (HeaderEncoding.pairs.encode hs)) = .ok m := by
  rw [HeaderEncoding.encode, readHeaders_arr, List.forall_mem_map]
  intro h
  obtain ⟨g, hg⟩ := List.exists_mem_of_ne_nil _ hh
  obtain ⟨b, hb⟩ := h g hg
  rw [buffer_pair] at hb
  cases hb

theorem readHeaders_named :
    (∃ m, readHeaders Json.entries entry (some (HeaderEncoding.named.encode hs)) = .ok m) ↔
      ∀ h ∈ hs, h.1 = "length" := by
  rw [HeaderEncoding.encode, readHeaders_arr, List.forall_mem_map]
  simp only [buffer_named]

end Encoded

/-- With `require`, headers in an object are read as the consumer reads them, one by one. -/
theorem handler_object {batch : List (String × List KafkaRecord)}
    (h : ∀ topic ∈ batch, ∀ r ∈ topic.2, (r.headers.map Prod.fst).Nodup ∧ r.value ≠ some []) :
    SameCalls Meta.headers (handler .commonJs (.encoded .object batch)).1
      (batch.flatMap fun topic => topic.2.filterMap passed) :=
  sameCalls_encoded fun topic ht r hr => sameCalls_of_readHeaders (h topic ht r hr).1
    (h topic ht r hr).2 readHeaders_object (fun _ _ => rfl) rfl

end Lambda

end PaymentService
