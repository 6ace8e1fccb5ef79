import Mathlib.Data.List.Dedup
import OrderPlatform.Wire.Broker
import OrderPlatform.Wire.Buffers

/-! # Records of the broker and the events made of them

A record reaches a service through the broker's client, which groups its headers by name,
or in an event, a JSON document that holds its value and its headers in some encoding.
-/

namespace Wire

open Buffer (base64 ofBase64 ofText)

/-- Where a record comes from; the broker admits no colon in a topic's name. -/
structure Origin where
  topic : String
  legal : ':' ∉ topic.toList
  partition : ℕ
  offset : String

structure KafkaRecord extends Origin where
  value : Option Buffer
  headers : List (String × Buffer)

/-- A header as the client hands it over: a buffer, or the list of those of one name. -/
inductive HeaderBuffers
  | one (b : Buffer)
  | many (bs : List Buffer)

def HeaderBuffers.text : HeaderBuffers → String
  | .one b => b.text
  | .many bs => Buffer.text bs.flatten

/-- A name that occurs once has one value. -/
theorem values_of_nodup {β : Type} {name : String} {v : β} :
    ∀ {hs : List (String × β)}, (hs.map Prod.fst).Nodup → (name, v) ∈ hs →
      (hs.filterMap fun h => if h.1 = name then some h.2 else none) = [v]
  | h :: hs, hd, hm => by
    obtain ⟨hn, hd⟩ := List.nodup_cons.mp hd
    rcases List.mem_cons.mp hm with rfl | hm
    · have hs' : (hs.filterMap fun h => if h.1 = name then some h.2 else none) = [] :=
        List.filterMap_eq_nil_iff.mpr fun g hg =>
          if_neg fun he => hn (List.mem_map.mpr ⟨g, hg, he⟩)
      simp [hs']
    · have hne : h.1 ≠ name := fun he => hn (List.mem_map.mpr ⟨_, hm, he.symm⟩)
      simp [hne, values_of_nodup hd hm]

namespace KafkaRecord

variable (r : KafkaRecord)

def buffers (name : String) : HeaderBuffers :=
  match r.headers.filterMap fun h => if h.1 = name then some h.2 else none with
  | [b] => .one b
  | bs => .many bs

/-- The headers grouped by name. -/
def grouped : List (String × HeaderBuffers) :=
  (r.headers.map Prod.fst).dedup.map fun name => (name, r.buffers name)

/-- The header map the consumers build from the groups. -/
def headerTexts : List (String × String) := r.grouped.map fun g => (g.1, g.2.text)

/-- `extractMessage`, an empty text being none. -/
def raw : Option String := (r.value.map Buffer.text).filter fun raw => raw ≠ ""

/-- The record as a message, its value read by `parse` and the buffers of a name joined. -/
def message (parse : String → Option Json) : KafkaMessage where
  value := r.value.map fun b => if b.text = "" then .empty else .text (parse b.text)
  headers := r.grouped.map fun g => (g.1, some (.one g.2.text))
  offset := r.offset

@[simp] theorem decodedHeaders_message (parse : String → Option Json) :
    (r.message parse).decodedHeaders = r.headerTexts := by
  simp only [message, KafkaMessage.decodedHeaders, headerTexts, List.filterMap_map]
  exact congrFun List.filterMap_eq_map _

variable {r}

theorem raw_eq_some {raw : String} :
    r.raw = some raw ↔ ∃ b, r.value = some b ∧ b ≠ [] ∧ b.text = raw := by
  unfold KafkaRecord.raw
  constructor
  · intro h
    obtain ⟨hv, hne⟩ := Option.filter_eq_some_iff.mp h
    obtain ⟨b, hb, rfl⟩ := Option.map_eq_some_iff.mp hv
    exact ⟨b, hb, by simpa using hne, rfl⟩
  · rintro ⟨b, hb, hne, rfl⟩
    simp [hb, Option.filter_some, hne]

theorem raw_eq_none : r.raw = none ↔ r.value = none ∨ r.value = some [] := by
  rw [Option.eq_none_iff_forall_ne_some]
  constructor
  · intro h
    cases hv : r.value with
    | none => exact Or.inl rfl
    | some b =>
      by_cases hb : b = []
      · exact Or.inr (congrArg some hb)
      · exact absurd (raw_eq_some.mpr ⟨b, hv, hb, rfl⟩) (h _)
  · rintro (hv | hv) raw h <;> obtain ⟨b, hb, hne, -⟩ := raw_eq_some.mp h
    · cases hv.symm.trans hb
    · exact hne (Option.some.inj (hb.symm.trans hv))

/-- The message of a record has a text to parse where the record has one. -/
theorem value_message (r : KafkaRecord) (parse : String → Option Json) :
    (∃ raw, r.raw = some raw ∧ (r.message parse).value = some (.text (parse raw))) ∨
      r.raw = none ∧ ((r.message parse).value = none ∨ (r.message parse).value = some .empty) := by
  cases hr : r.raw with
  | none =>
    refine Or.inr ⟨rfl, ?_⟩
    rcases raw_eq_none.mp hr with hv | hv
    · exact Or.inl (by simp [message, hv])
    · exact Or.inr (by simp [message, hv])
  | some raw =>
    obtain ⟨b, hv, hne, rfl⟩ := raw_eq_some.mp hr
    exact Or.inl ⟨_, rfl, by simp [message, hv, hne]⟩

theorem buffers_of_nodup {name : String} {b : Buffer} (hd : (r.headers.map Prod.fst).Nodup)
    (h : (name, b) ∈ r.headers) : r.buffers name = .one b := by
  rw [buffers, values_of_nodup hd h]

/-- The header map of a record whose headers have distinct names. -/
theorem headerTexts_of_nodup (hd : (r.headers.map Prod.fst).Nodup) :
    r.headerTexts = r.headers.map fun h => (h.1, h.2.text) := by
  rw [headerTexts, grouped, hd.dedup, List.map_map, List.map_map]
  refine List.map_congr_left fun h hh => ?_
  simp only [Function.comp_apply, buffers_of_nodup hd hh, HeaderBuffers.text]

theorem lookup_headerTexts {name : String} (h : name ∈ r.headers.map Prod.fst) :
    ∃ v, r.headerTexts.lookup name = some v := by
  rw [headerTexts, grouped, List.map_map]
  exact ⟨_, List.lookup_graph _ (List.mem_dedup.mpr h)⟩

end KafkaRecord

/-- A record in an event; its value and headers are what the document holds there. -/
structure MskRecord extends Origin where
  value : Option Json
  headers : Option Json

structure MskEvent where
  records : List (String × List MskRecord)

/-- The three encodings of headers: the two that the handlers declare, and the source's own. -/
inductive HeaderEncoding
  | object | pairs | named
  deriving DecidableEq, Repr

def HeaderEncoding.encode (headers : List (String × Buffer)) : HeaderEncoding → Json
  | .object => .obj (headers.map fun h => (h.1, .str h.2.base64))
  | .pairs => .arr (headers.map fun h =>
      .obj [("key", .str (ofText h.1).base64), ("value", .str h.2.base64)])
  | .named => .arr (headers.map fun h => .obj [(h.1, .arr (h.2.map fun b => .num b.toNat))])

/-- A record in an event, a missing value as `null`. -/
def KafkaRecord.msk (r : KafkaRecord) (e : HeaderEncoding) : MskRecord where
  toOrigin := r.toOrigin
  value := some ((r.value.map fun b => .str b.base64).getD .null)
  headers := some (e.encode r.headers)

namespace Json

/-- The byte an element of a list is stored as: its integer part, modulo 256. -/
def byte : Json → UInt8
  | .num q => .ofNat (q.num.tdiv q.den % 256).toNat
  | .bool b => if b then 1 else 0
  | .str s => .ofNat ((s.toInt?.getD 0) % 256).toNat
  | _ => 0

/-- The bytes of an object with a length; a missing element is stored as zero. -/
def listed (fields : List (String × Json)) (length : ℚ) : Buffer :=
  (List.range length.floor.toNat).map fun i =>
    ((fields.find? fun f => f.1 = toString i).map fun f => f.2.byte).getD 0

/-- The member of an object. -/
def field (fields : List (String × Json)) (name : String) : Option Json :=
  (fields.find? fun f => f.1 = name).map Prod.snd

/-- `Buffer.from` of an object: its primitive, its list of bytes, or a type error. -/
def objectBuffer (fields : List (String × Json)) : Except Thrown Buffer :=
  match field fields "valueOf" with
  | some (.str "") => .ok []
  | some (.bool false) | some .null | some (.num 0) => bytes
  | some _ => .error .typeError
  | none => bytes
where
  bytes : Except Thrown Buffer :=
    match field fields "length" with
    | some (.num length) => .ok (listed fields length)
    | some _ => .ok []
    | none =>
      match field fields "type", field fields "data" with
      | some (.str "Buffer"), some (.arr elems) => .ok (elems.map byte)
      | _, _ => .error .typeError

/-- `Buffer.from(value, 'base64')`. -/
def buffer : Option Json → Except Thrown Buffer
  | some (.str s) => .ok (ofBase64 s)
  | some (.arr elems) => .ok (elems.map byte)
  | some (.obj fields) => objectBuffer fields
  | _ => .error .typeError

/-- `Object.entries`. -/
def entries : Json → Except Thrown (List (String × Json))
  | .null => .error .typeError
  | .obj fields => .ok fields
  | .arr elems => .ok (elems.mapIdx fun i j => (toString i, j))
  | .str s => .ok (s.toList.mapIdx fun i c => (toString i, .str (String.singleton c)))
  | .bool _ | .num _ => .ok []

/-- The elements a loop over a value runs through. -/
def elements : Json → Except Thrown (List Json)
  | .arr elems => .ok elems
  | .str s => .ok (s.toList.map fun c => .str (String.singleton c))
  | _ => .error .typeError

end Json

/-- An assignment to a member of a header map. -/
def assign (headers : List (String × String)) (h : String × String) : List (String × String) :=
  h :: headers.filter fun g => g.1 ≠ h.1

section Handlers

variable {α : Type} {μ : Type} (listing : Json → Except Thrown (List α))
  (entry : α → Except Thrown (String × String))
  (context : MskRecord → List (String × String) → μ)

/-- The header map read entry by entry, empty when the record has no headers. -/
def readHeaders (headers : Option Json) : Except Thrown (List (String × String)) :=
  match headers.filter Json.truthy with
  | none => .ok []
  | some j => do
    let entries ← listing j
    entries.foldlM (fun m a => (entry a).map (assign m)) []

/-- What a handler passes to `process` for a record; it throws where the record is not read. -/
def readRecord (r : MskRecord) : Except Thrown (String × μ) := do
  let rawValue ← Json.buffer r.value
  let headers ← readHeaders listing entry r.headers
  return (rawValue.text, context r headers)

/-- The calls of `process` for an event; a record that is not read is logged and passed over. -/
def calls (read : MskRecord → Except Thrown (String × μ)) (event : MskEvent) : List (String × μ) :=
  event.records.flatMap fun topic => topic.2.filterMap fun r => (read r).toOption

end Handlers

theorem lookup_filter_of_ne {name other : String} (h : name ≠ other) :
    ∀ m : List (String × String), (m.filter fun g => g.1 ≠ other).lookup name = m.lookup name
  | [] => rfl
  | g :: m => by
    by_cases hg : g.1 = other
    · have hn : (name == g.1) = false := by simpa [hg] using h
      rw [List.filter_cons_of_neg (by simpa using hg), lookup_filter_of_ne h m, List.lookup_cons,
        hn]
    · rw [List.filter_cons_of_pos (by simpa using hg), List.lookup_cons, List.lookup_cons,
        lookup_filter_of_ne h m]

@[simp] theorem lookup_assign (m : List (String × String)) (h : String × String) (name : String) :
    (assign m h).lookup name = if name = h.1 then some h.2 else m.lookup name := by
  rw [assign, List.lookup_cons]
  by_cases hn : name = h.1
  · simp [hn]
  · rw [beq_false_of_ne hn, if_neg hn, lookup_filter_of_ne hn]

/-- The last header of a name is the one that stays. -/
theorem lookup_foldl_assign (hs m : List (String × String)) (name : String) :
    (hs.foldl assign m).lookup name = (hs.reverse.lookup name).or (m.lookup name) := by
  induction hs generalizing m with
  | nil => rfl
  | cons h hs ih =>
    rw [List.foldl_cons, ih, List.reverse_cons, List.lookup_append, Option.or_assoc]
    congr 1
    rw [lookup_assign, List.lookup_cons]
    by_cases hn : name = h.1
    · simp [hn]
    · rw [beq_false_of_ne hn, if_neg hn]
      rfl

theorem mem_of_lookup_foldl_assign {hs : List (String × String)} {name v : String}
    (h : (hs.foldl assign []).lookup name = some v) : (name, v) ∈ hs := by
  rw [lookup_foldl_assign, List.lookup_nil, Option.or_none, List.lookup_eq_some_iff] at h
  obtain ⟨l, l', hr, -⟩ := h
  exact List.mem_reverse.mp (hr ▸ List.mem_append_right l List.mem_cons_self)

theorem lookup_eq_some_of_nodup {β : Type} {name : String} {v : β} :
    ∀ {hs : List (String × β)}, (hs.map Prod.fst).Nodup →
      (hs.lookup name = some v ↔ (name, v) ∈ hs)
  | [], _ => by simp
  | (n, w) :: hs, hd => by
    obtain ⟨hn, hd⟩ := List.nodup_cons.mp hd
    rw [List.lookup_cons, List.mem_cons]
    by_cases h : name = n
    · subst h
      have hm : (name, v) ∉ hs := fun hm => hn (List.mem_map.mpr ⟨_, hm, rfl⟩)
      simp [hm, eq_comm]
    · rw [beq_false_of_ne h]
      simp [h, lookup_eq_some_of_nodup hd]

/-- Headers of distinct names are all kept, whatever their order. -/
theorem lookup_foldl_assign_of_nodup {hs : List (String × String)} (hd : (hs.map Prod.fst).Nodup)
    (name : String) : (hs.foldl assign []).lookup name = hs.lookup name := by
  rw [lookup_foldl_assign, List.lookup_nil, Option.or_none]
  refine Option.ext fun v => ?_
  have hr : (hs.reverse.map Prod.fst).Nodup := by rwa [List.map_reverse, List.nodup_reverse]
  rw [lookup_eq_some_of_nodup hr, lookup_eq_some_of_nodup hd, List.mem_reverse]

/-- The value of an encoded record is read back; a missing one is not read. -/
theorem KafkaRecord.buffer_msk {r : KafkaRecord} {e : HeaderEncoding} {b : Buffer} :
    Json.buffer (r.msk e).value = .ok b ↔ r.value = some b := by
  cases hv : r.value <;> simp [KafkaRecord.msk, hv, Json.buffer]

section Reading

variable {α μ : Type} {listing : Json → Except Thrown (List α)}
  {entry : α → Except Thrown (String × String)}
  {context : MskRecord → List (String × String) → μ}

/-- The loop over the entries reads each of them and assigns what it read, in order. -/
theorem foldlM_assign (as : List α) (m : List (String × String)) :
    as.foldlM (fun m a => (entry a).map (assign m)) m =
      (as.mapM entry).map fun hs => hs.foldl assign m := by
  induction as generalizing m with
  | nil => rfl
  | cons a as ih =>
    rw [List.foldlM_cons, List.mapM_cons]
    cases entry a with
    | error e => rfl
    | ok h =>
      refine (ih (assign m h)).trans ?_
      cases as.mapM entry <;> rfl

theorem readHeaders_of_falsy {headers : Option Json} (h : headers.filter Json.truthy = none) :
    readHeaders listing entry headers = .ok [] := by
  rw [readHeaders, h]

theorem readHeaders_eq {j : Json} (hj : j.truthy = true) :
    readHeaders listing entry (some j) =
      (listing j >>= List.mapM entry).map fun hs => hs.foldl assign [] := by
  unfold readHeaders
  rw [Option.filter_some, if_pos hj]
  simp only [foldlM_assign]
  cases listing j <;> rfl

theorem readHeaders_eq_ok {j : Json} (hj : j.truthy = true) {m : List (String × String)} :
    readHeaders listing entry (some j) = .ok m ↔ ∃ as, listing j = .ok as ∧
      ∃ hs, List.Forall₂ (fun a h => entry a = .ok h) as hs ∧ hs.foldl assign [] = m := by
  simp only [readHeaders_eq hj, map_eq_ok, bind_eq_ok, mapM_ok_iff]
  constructor
  · rintro ⟨hs, ⟨as, hl, h⟩, hm⟩
    exact ⟨as, hl, hs, h, hm⟩
  · rintro ⟨as, hl, hs, h, hm⟩
    exact ⟨hs, ⟨as, hl, h⟩, hm⟩

/-- Entries that all are read yield what was read, assigned in order. -/
theorem readHeaders_map {β : Type} {j : Json} (hj : j.truthy = true) {xs : List β} {f : β → α}
    {g : β → String × String} (hl : listing j = .ok (xs.map f))
    (he : ∀ x, entry (f x) = .ok (g x)) :
    readHeaders listing entry (some j) = .ok ((xs.map g).foldl assign []) := by
  refine (readHeaders_eq_ok hj).mpr ⟨_, hl, _, ?_, rfl⟩
  rw [List.forall₂_map_left_iff, List.forall₂_map_right_iff]
  exact List.forall₂_same.mpr fun x _ => he x

theorem readHeaders_isOk {j : Json} (hj : j.truthy = true) :
    (∃ m, readHeaders listing entry (some j) = .ok m) ↔
      ∃ as, listing j = .ok as ∧ ∀ a ∈ as, ∃ h, entry a = .ok h := by
  simp only [readHeaders_eq hj, map_eq_ok, bind_eq_ok, ← mapM_isOk_iff]
  constructor
  · rintro ⟨m, hs, ⟨as, hl, h⟩, -⟩
    exact ⟨as, hl, hs, h⟩
  · rintro ⟨as, hl, hs, h⟩
    exact ⟨_, hs, ⟨as, hl, h⟩, rfl⟩

theorem readRecord_eq_ok {r : MskRecord} {c : String × μ} :
    readRecord listing entry context r = .ok c ↔ ∃ b, Json.buffer r.value = .ok b ∧
      ∃ m, readHeaders listing entry r.headers = .ok m ∧ (b.text, context r m) = c := by
  unfold readRecord
  simp only [bind_eq_ok, pure, Except.pure, Except.ok.injEq]

/-- A record is read where it has a value and its headers are read. -/
theorem readRecord_msk_isOk {r : KafkaRecord} {e : HeaderEncoding} :
    (∃ c, readRecord listing entry context (r.msk e) = .ok c) ↔
      r.value ≠ none ∧ ∃ m, readHeaders listing entry (some (e.encode r.headers)) = .ok m := by
  constructor
  · rintro ⟨c, hc⟩
    obtain ⟨b, hb, m, hm, -⟩ := readRecord_eq_ok.mp hc
    exact ⟨KafkaRecord.buffer_msk.mp hb ▸ nofun, m, hm⟩
  · rintro ⟨hv, m, hm⟩
    obtain ⟨b, hb⟩ := Option.ne_none_iff_exists'.mp hv
    exact ⟨_, readRecord_eq_ok.mpr ⟨b, KafkaRecord.buffer_msk.mpr hb, m, hm, rfl⟩⟩

end Reading

/-- The calls pass the same values and the same header maps. -/
def SameCalls {μ : Type} (headers : μ → List (String × String)) (cs ds : List (String × μ)) :
    Prop :=
  List.Forall₂ (fun c d => c.1 = d.1 ∧
    ∀ name, (headers c.2).lookup name = (headers d.2).lookup name) cs ds

/-- The event with one record. -/
def MskEvent.single (r : MskRecord) : MskEvent := ⟨[(r.topic, [r])]⟩

section Calls

variable {μ : Type} {read : MskRecord → Except Thrown (String × μ)}

theorem calls_single (r : MskRecord) : calls read (.single r) = (read r).toOption.toList := by
  unfold calls MskEvent.single
  cases h : read r <;> simp [h, Except.toOption]

/-- Records of an event are read one by one, whatever becomes of the others. -/
theorem calls_eq (event : MskEvent) :
    calls read event =
      event.records.flatMap fun topic => topic.2.flatMap fun r => calls read (.single r) := by
  simp only [calls_single]
  simp only [calls, List.filterMap_eq_flatMap_toList]

variable {headers : μ → List (String × String)}

theorem sameCalls_nil {r : MskRecord} :
    SameCalls headers (calls read (.single r)) [] ↔ ¬ ∃ c, read r = .ok c := by
  rw [calls_single, SameCalls, List.forall₂_nil_right_iff]
  cases read r <;> simp [Except.toOption]

theorem sameCalls_singleton {r : MskRecord} {d : String × μ} :
    SameCalls headers (calls read (.single r)) [d] ↔ ∃ c, read r = .ok c ∧ c.1 = d.1 ∧
      ∀ name, (headers c.2).lookup name = (headers d.2).lookup name := by
  rw [calls_single, SameCalls]
  cases read r <;> simp [Except.toOption]

/-- The event with the records of the topics, their headers in one encoding. -/
def MskEvent.encoded (e : HeaderEncoding) (batch : List (String × List KafkaRecord)) :
    MskEvent where
  records := batch.map fun topic => (topic.1, topic.2.map fun r => r.msk e)

theorem forall₂_flatMap {α β γ : Type} {R : β → γ → Prop} {f : α → List β} {g : α → List γ} :
    ∀ {as : List α}, (∀ a ∈ as, List.Forall₂ R (f a) (g a)) →
      List.Forall₂ R (as.flatMap f) (as.flatMap g)
  | [], _ => .nil
  | a :: as, h => by
    obtain ⟨ha, has⟩ := List.forall_mem_cons.mp h
    exact List.rel_append ha (forall₂_flatMap has)

theorem calls_encoded_eq_nil {e : HeaderEncoding} {batch : List (String × List KafkaRecord)}
    (h : ∀ topic ∈ batch, ∀ r ∈ topic.2, ¬ ∃ c, read (r.msk e) = .ok c) :
    calls read (.encoded e batch) = [] := by
  rw [calls_eq, MskEvent.encoded, List.flatMap_map, List.flatMap_eq_nil_iff]
  intro topic ht
  rw [List.flatMap_map, List.flatMap_eq_nil_iff]
  intro r hr
  exact List.forall₂_nil_right_iff.mp (@sameCalls_nil _ _ (fun _ => []) _ |>.mpr (h topic ht r hr))

/-- A handler that reads every record of a batch as it is passed reads the whole batch so. -/
theorem sameCalls_encoded {passed : KafkaRecord → Option (String × μ)} {e : HeaderEncoding}
    {batch : List (String × List KafkaRecord)}
    (h : ∀ topic ∈ batch, ∀ r ∈ topic.2,
      SameCalls headers (calls read (.single (r.msk e))) (passed r).toList) :
    SameCalls headers (calls read (.encoded e batch))
      (batch.flatMap fun topic => topic.2.filterMap passed) := by
  rw [calls_eq, MskEvent.encoded, List.flatMap_map]
  simp only [List.flatMap_map, List.filterMap_eq_flatMap_toList]
  exact forall₂_flatMap fun topic ht => forall₂_flatMap (h topic ht)

/-- A record with headers of distinct names is read as it is passed when its headers are. -/
theorem sameCalls_of_readHeaders {α : Type} {listing : Json → Except Thrown (List α)}
    {entry : α → Except Thrown (String × String)} {context : MskRecord → List (String × String) → μ}
    {r : KafkaRecord} {e : HeaderEncoding} {info : μ} (hd : (r.headers.map Prod.fst).Nodup)
    (hv : r.value ≠ some [])
    (hm : readHeaders listing entry (some (e.encode r.headers)) =
      .ok ((r.headers.map fun h => (h.1, h.2.text)).foldl assign []))
    (hc : ∀ m hs, headers (context m hs) = hs) (hi : headers info = r.headerTexts) :
    SameCalls headers (calls (readRecord listing entry context) (.single (r.msk e)))
      (r.raw.map fun raw => (raw, info)).toList := by
  cases hr : r.raw with
  | none =>
    have hn : r.value = none := (KafkaRecord.raw_eq_none.mp hr).resolve_right hv
    refine sameCalls_nil.mpr fun ⟨c, h⟩ => ?_
    obtain ⟨b, hb, -⟩ := readRecord_eq_ok.mp h
    exact absurd (KafkaRecord.buffer_msk.mp hb) (hn ▸ nofun)
  | some raw =>
    obtain ⟨b, hb, -, rfl⟩ := KafkaRecord.raw_eq_some.mp hr
    refine sameCalls_singleton.mpr
      ⟨_, readRecord_eq_ok.mpr ⟨b, KafkaRecord.buffer_msk.mpr hb, _, hm, rfl⟩, rfl, fun name => ?_⟩
    have hn : ((r.headers.map fun h => (h.1, h.2.text)).map Prod.fst).Nodup := by
      rwa [List.map_map]
    rw [hc, hi, KafkaRecord.headerTexts_of_nodup hd, lookup_foldl_assign_of_nodup hn]

end Calls

end Wire
