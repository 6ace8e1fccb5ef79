import OrderPlatform.NotificationService.Lambda
import OrderPlatform.PaymentService.Lambda

/-! # Events for both Lambda handlers

The payment service's handler stops before it reads any record. Were `require` there for it, it
would read headers from an object, and the notification service's handler reads them from a list:
a record with a value and headers would still be missed by one of the two, whichever way the event
writes its headers.
-/

namespace Saga

open Wire
open PaymentService.Lambda (ModuleSystem packageType)

/-- Both handlers call `process` for a record of an event as the consumers do for the record. -/
def BothRead (modules : ModuleSystem) (r : KafkaRecord) (m : MskRecord) : Prop :=
  SameCalls PaymentService.Meta.headers (PaymentService.Lambda.handler modules (.single m)).1
    (PaymentService.passed r).toList ∧
  SameCalls NotificationService.Meta.headers (NotificationService.Lambda.handler (.single m))
    (NotificationService.passed r).toList

variable {r : KafkaRecord} {m : MskRecord}

/-- As the services are built, both agree only where there is nothing to process or to read. -/
theorem bothRead_built : BothRead packageType r m ↔
    r.raw = none ∧ ¬ ∃ c, NotificationService.Lambda.read m = .ok c := by
  unfold BothRead PaymentService.passed NotificationService.passed
  rw [PaymentService.Lambda.handler_packageType]
  cases r.raw with
  | none => exact and_congr (iff_of_true .nil rfl) sameCalls_nil
  | some raw => exact iff_of_false (fun h => by cases h.1) fun h => by cases h.1

/--
A record with headers is read by both handlers as the consumers pass it only where there is
nothing to process: it has no value, or an empty one and headers that the notification service's
handler does not read.
-/
theorem bothRead_iff (hr : r.headers ≠ []) (e : HeaderEncoding) :
    BothRead packageType r (r.msk e) ↔
      r.value = none ∨ r.value = some [] ∧ e ≠ .pairs := by
  have hread : (∃ c, NotificationService.Lambda.read (r.msk e) = .ok c) ↔
      r.value ≠ none ∧ e = .pairs := by
    unfold NotificationService.Lambda.read
    rw [readRecord_msk_isOk]
    refine and_congr_right fun _ => ?_
    cases e with
    | object => simp [@NotificationService.Lambda.readHeaders_object r.headers]
    | pairs => simp [@NotificationService.Lambda.readHeaders_pairs r.headers]
    | named => simp [NotificationService.Lambda.readHeaders_named hr]
  rw [bothRead_built, hread, KafkaRecord.raw_eq_none]
  cases r.value <;> simp

/-- No encoding of headers is read by both handlers. -/
theorem one_cannot_readHeaders : ∀ e : HeaderEncoding,
    (∀ hs : List (String × Buffer), hs ≠ [] → ¬ ∃ m,
      readHeaders Json.entries PaymentService.Lambda.entry (some (e.encode hs)) = .ok m) ∨
    ∀ hs : List (String × Buffer), hs ≠ [] → ¬ ∃ m,
      readHeaders Json.elements NotificationService.Lambda.entry (some (e.encode hs)) = .ok m
  | .object => Or.inr fun _ _ => NotificationService.Lambda.readHeaders_object
  | .pairs => Or.inl fun _ => PaymentService.Lambda.readHeaders_pairs
  | .named => Or.inr fun _ => NotificationService.Lambda.readHeaders_named

/-- With `require` too, one of the handlers passes over a whole batch, however it is encoded. -/
theorem one_handler_idle (e : HeaderEncoding) {batch : List (String × List KafkaRecord)}
    (h : ∀ topic ∈ batch, ∀ r ∈ topic.2, r.headers ≠ []) :
    (PaymentService.Lambda.handler .commonJs (.encoded e batch)).1 = [] ∨
      NotificationService.Lambda.handler (.encoded e batch) = [] :=
  (one_cannot_readHeaders e).imp
    (fun hp => calls_encoded_eq_nil fun topic ht r hr hc =>
      hp _ (h topic ht r hr) (readRecord_msk_isOk.mp hc).2)
    fun hn => calls_encoded_eq_nil fun topic ht r hr hc =>
      hn _ (h topic ht r hr) (readRecord_msk_isOk.mp hc).2

/-- A record with something to process must be read, with the headers that the consumers pass. -/
theorem BothRead.read {raw : String} (h : BothRead .commonJs r m) (hr : r.raw = some raw) :
    (∃ c, PaymentService.Lambda.read m = .ok c ∧
      ∀ name, c.2.headers.lookup name = r.headerTexts.lookup name) ∧
    ∃ c, NotificationService.Lambda.read m = .ok c ∧
      ∀ name, c.2.headers.lookup name = r.headerTexts.lookup name := by
  unfold BothRead PaymentService.passed NotificationService.passed at h
  rw [hr] at h
  obtain ⟨c, hc, -, hcl⟩ := sameCalls_singleton.mp h.1
  obtain ⟨d, hd, -, hdl⟩ := sameCalls_singleton.mp h.2
  exact ⟨⟨c, hc, hcl⟩, d, hd, hdl⟩

/--
With `require` too, no event whatever lets both handlers read a record that has something to
process and a header not named like a position of a list.
-/
theorem not_bothRead {raw name : String} (hraw : r.raw = some raw)
    (hname : name ∈ r.headers.map Prod.fst) (hpos : ∀ i : ℕ, name ≠ toString i) (m : MskRecord) :
    ¬ BothRead .commonJs r m := by
  intro h
  obtain ⟨v, hv⟩ := KafkaRecord.lookup_headerTexts hname
  obtain ⟨⟨c, hc, hl⟩, d, hd, -⟩ := h.read hraw
  obtain ⟨b, -, hs, hm, rfl⟩ := readRecord_eq_ok.mp hc
  obtain ⟨b', -, hs', hm', -⟩ := readRecord_eq_ok.mp hd
  replace hl : hs.lookup name = some v := (hl name).trans hv
  cases hj : m.headers.filter Json.truthy with
  | none =>
    rw [readHeaders_of_falsy hj] at hm
    obtain rfl := Except.ok.inj hm
    cases hl
  | some j =>
    obtain ⟨hj, ht⟩ := Option.filter_eq_some_iff.mp hj
    rw [hj] at hm hm'
    obtain ⟨elems, rfl⟩ := NotificationService.Lambda.arr_of_readHeaders ht hm'
    obtain ⟨i, hi⟩ := PaymentService.Lambda.lookup_readHeaders_arr hm hl
    exact hpos i hi

theorem ne_toString {name : String} {c : Char} (hc : c ∈ name.toList) (hd : c.isDigit = false)
    (i : ℕ) : name ≠ toString i := by
  rintro rfl
  exact notMem_toString hd i hc

/-- An event of the order service with its type in a header. -/
def orderCreated : KafkaRecord where
  topic := PaymentService.orderEvents.name
  legal := PaymentService.orderEvents.legal
  partition := 0
  offset := "0"
  value := some (Buffer.ofText "\x7b\"orderId\":\"o-1\"\x7d")
  headers := [("event-type", Buffer.ofText "OrderCreated")]

/-- The same record without its value. -/
def tombstone : KafkaRecord := { orderCreated with value := none }

theorem orderCreated_raw : orderCreated.raw = some "\x7b\"orderId\":\"o-1\"\x7d" :=
  KafkaRecord.raw_eq_some.mpr ⟨_, rfl, by decide, Buffer.text_ofText _⟩

/-- There is no event from which both handlers take this record, with `require` or without. -/
theorem orderCreated_missed :
    orderCreated.headers ≠ [] ∧ ∀ modules m, ¬ BothRead modules orderCreated m := by
  refine ⟨by decide, fun modules m => ?_⟩
  cases modules with
  | esModules => exact fun h => by cases (bothRead_built.mp h).1.symm.trans orderCreated_raw
  | commonJs =>
    exact not_bothRead orderCreated_raw (List.mem_map.mpr ⟨_, List.mem_cons_self, rfl⟩)
      (@ne_toString "event-type" '-' (by decide) (by decide)) m

theorem tombstone_passed_over :
    BothRead packageType tombstone (tombstone.msk .object) ∧
      ¬ BothRead packageType orderCreated (orderCreated.msk .object) := by
  refine ⟨(bothRead_iff (by decide) .object).mpr (Or.inl rfl), fun h => ?_⟩
  rcases (bothRead_iff (by decide) .object).mp h with hv | ⟨hv, -⟩
  · cases hv
  · exact absurd hv (by decide)

end Saga
