import OrderPlatform.Wire.Dtos

/-! # The body of an order at the gateway and at the order service

The gateway checks the body of an order against a class of its own, adds the caller and sends
it on to the order service, whose class knows no notes.
-/

namespace ApiGateway

open Wire

def orderItemDto : List Property := [
  ⟨"productId", .string, false, [.isString]⟩,
  ⟨"quantity", .number, false, [.isInt, .min 1]⟩]

def createOrderDto : Dto where
  properties := [
    ⟨"shippingAddressId", .string, true, [.isString]⟩,
    ⟨"notes", .string, true, [.isString]⟩]
  array := "items"
  arrayNotEmpty := false
  element := orderItemDto

/-- `ProxyController.createOrder`: the payload made of the checked body and the caller. -/
def orderPayload (body : List (String × Json)) (userId : String) : Json :=
  .obj ((body.filter fun f => f.1 ≠ "customerUserId") ++ [("customerUserId", .str userId)])

end ApiGateway

namespace OrderService

open Wire

def createOrderItemDto : List Property := [
  ⟨"productId", .string, false, [.isUuid]⟩,
  ⟨"sku", .string, true, [.isString]⟩,
  ⟨"quantity", .number, false, [.isNumber, .min 1]⟩,
  ⟨"unitPrice", .number, true, [.isNumber]⟩]

def createOrderDto : Dto where
  properties := [
    ⟨"customerUserId", .string, false, [.isUuid]⟩,
    ⟨"shippingAddressId", .string, false, [.isUuid]⟩,
    ⟨"paymentMethod", .string, true, [.isString]⟩,
    ⟨"requestId", .string, true, [.isString]⟩]
  array := "items"
  arrayNotEmpty := true
  element := createOrderItemDto

end OrderService

namespace Saga

open Wire

section Bodies

variable (number : String → Option ℚ) (isUuid : String → Bool)

/-- Every product identifier in the items is the text of a UUID. -/
def uuidProducts : Json → Prop
  | .arr elems => uuidProductsAll elems
  | .obj fields => ∀ j, ("productId", j) ∈ fields → ∃ s, j = .str s ∧ isUuid s = true
  | _ => True
where
  uuidProductsAll : List Json → Prop
    | [] => True
    | j :: js => uuidProducts j ∧ uuidProductsAll js

/-- A checked body with an item, products by their UUIDs, and a UUID for its address. -/
structure Orderable (body : List (String × Json)) : Prop where
  items : ("items", .arr []) ∉ body
  products : ∀ j, ("items", j) ∈ body → uuidProducts isUuid j
  address : "shippingAddressId" ∈ body.map Prod.fst
  addressUuid : ∀ j, ("shippingAddressId", j) ∈ body → ∃ s, j = .str s ∧ isUuid s = true

variable {number isUuid}

theorem mem_of_valueAmong {properties : List Property} {name : String} {j v : Json}
    (h : valueAmong number isUuid properties name j = some v) :
    ∃ p ∈ properties, p.name = name ∧ p.value number isUuid j = some v := by
  obtain ⟨p, hp, hv⟩ := Option.bind_eq_some_iff.mp h
  exact ⟨p, List.mem_of_find?_eq_some hp, by simpa using List.find?_some hp, hv⟩

theorem value_eq_some {p : Property} {j v : Json} (h : p.value number isUuid j = some v) :
    (p.isOptional && v.isNull) = true ∨ ∀ c ∈ p.checks, c.passes isUuid v = true := by
  obtain ⟨-, hv⟩ := Option.filter_eq_some_iff.mp h
  simpa only [Bool.or_eq_true, List.all_eq_true] using hv

theorem exists_quantity {v : Json} (h : Check.passes isUuid (.min 1) v = true) :
    ∃ q : ℚ, v = .num q ∧ 1 ≤ q := by
  cases v with
  | num q => exact ⟨q, rfl, by simpa [Check.passes] using h⟩
  | _ => cases h

/-- A text converts to itself, and a property takes it when its checks do. -/
theorem valueAmong_str {properties : List Property} {name s : String} (p : Property)
    (hp : properties.find? (fun p => p.name = name) = some p) (ht : p.type = .string)
    (hc : ∀ c ∈ p.checks, c.passes isUuid (.str s) = true) :
    valueAmong number isUuid properties name (.str s) = some (.str s) := by
  rw [valueAmong, hp]
  refine Option.filter_eq_some_iff.mpr ⟨?_, ?_⟩
  · rw [ht]
    rfl
  · simp only [Bool.or_eq_true, List.all_eq_true]
    exact Or.inr hc

theorem valueAmong_num {properties : List Property} {name : String} {q : ℚ} (p : Property)
    (hp : properties.find? (fun p => p.name = name) = some p) (ht : p.type = .number)
    (hc : ∀ c ∈ p.checks, c.passes isUuid (.num q) = true) :
    valueAmong number isUuid properties name (.num q) = some (.num q) := by
  rw [valueAmong, hp]
  refine Option.filter_eq_some_iff.mpr ⟨?_, ?_⟩
  · rw [ht]
    rfl
  · simp only [Bool.or_eq_true, List.all_eq_true]
    exact Or.inr hc

/-- An item that the gateway lets through is an item to the order service. -/
theorem readMembers_item {fields members : List (String × Json)}
    (h : readMembers (requiredNames ApiGateway.orderItemDto)
      (valueAmong number isUuid ApiGateway.orderItemDto) fields = some members)
    (hu : uuidProducts isUuid (.obj members)) :
    ∃ ms, readMembers (requiredNames OrderService.createOrderItemDto)
      (valueAmong number isUuid OrderService.createOrderItemDto) members = some ms := by
  rw [isSome_readMembers, ownMembers_of_readMembers h]
  refine ⟨required_of_readMembers h, fun m hm => ?_⟩
  obtain ⟨j, hj⟩ := value_of_readMembers h hm
  obtain ⟨p, hp, hn, hv⟩ := mem_of_valueAmong hj
  obtain ⟨name, v⟩ := m
  simp only [ApiGateway.orderItemDto, List.mem_cons, List.not_mem_nil, or_false] at hp
  rcases hp with rfl | rfl
  · obtain rfl : "productId" = name := hn
    obtain ⟨s, rfl, hs⟩ := hu v hm
    exact ⟨.str s, valueAmong_str ⟨"productId", .string, false, [.isUuid]⟩ rfl rfl
      (by simpa [Check.passes] using hs)⟩
  · obtain rfl : "quantity" = name := hn
    rcases value_eq_some hv with hnull | hc
    · cases hnull
    · obtain ⟨q, rfl, hq⟩ := exists_quantity (hc (.min 1) (by simp))
      exact ⟨.num q, valueAmong_num ⟨"quantity", .number, false, [.isNumber, .min 1]⟩ rfl rfl
        (by simpa [Check.passes] using hq)⟩

theorem elementValue_item : ∀ j v : Json,
    elementValue number isUuid ApiGateway.orderItemDto j = some v → uuidProducts isUuid v →
      ∃ v', elementValue number isUuid OrderService.createOrderItemDto v = some v'
  | .null, v, h, _ => by
    cases h
    exact ⟨.null, rfl⟩
  | .arr elems, v, h, hu => by
    obtain ⟨vs, hvs, rfl⟩ := Option.map_eq_some_iff.mp h
    obtain ⟨vs', hvs'⟩ := elementValues_item elems vs hvs hu
    exact ⟨.arr vs', Option.map_eq_some_iff.mpr ⟨vs', hvs', rfl⟩⟩
  | .obj fields, v, h, hu => by
    obtain ⟨ms, hms, rfl⟩ := Option.map_eq_some_iff.mp h
    obtain ⟨ms', hms'⟩ := readMembers_item hms hu
    exact ⟨.obj ms', Option.map_eq_some_iff.mpr ⟨ms', hms', rfl⟩⟩
  | .bool _, _, h, _ | .num _, _, h, _ | .str _, _, h, _ => by cases h
where
  elementValues_item : ∀ js vs : List Json,
      elementValue.elementValues number isUuid ApiGateway.orderItemDto js = some vs →
      uuidProducts.uuidProductsAll isUuid vs →
        ∃ vs', elementValue.elementValues number isUuid OrderService.createOrderItemDto vs =
          some vs'
    | [], vs, h, _ => by
      cases h
      exact ⟨[], rfl⟩
    | j :: js, vs, h, hu => by
      obtain ⟨v, hv, h⟩ := Option.bind_eq_some_iff.mp h
      obtain ⟨vs, hvs, rfl⟩ := Option.map_eq_some_iff.mp h
      obtain ⟨v', hv'⟩ := elementValue_item j v hv hu.1
      obtain ⟨vs', hvs'⟩ := elementValues_item js vs hvs hu.2
      exact ⟨v' :: vs', Option.bind_eq_some_iff.mpr
        ⟨v', hv', Option.map_eq_some_iff.mpr ⟨vs', hvs', rfl⟩⟩⟩

variable {body : Json} {members : List (String × Json)} {userId : String}

/-- What the gateway lets through: an array of items, and texts or `null` beside it. -/
theorem member_cases {name : String} {v : Json}
    (h : ∃ j, ApiGateway.createOrderDto.value number isUuid name j = some v) :
    (name = "items" ∧ ∃ elems j, v = .arr elems ∧
      elementValue number isUuid ApiGateway.orderItemDto j = some v) ∨
    name = "shippingAddressId" ∨ name = "notes" := by
  obtain ⟨j, hj⟩ := h
  unfold Dto.value at hj
  split at hj
  · rename_i hn
    refine Or.inl ⟨hn, ?_⟩
    cases j with
    | arr elems =>
      have hv : elementValue number isUuid ApiGateway.orderItemDto (.arr elems) = some v := hj
      obtain ⟨vs, -, rfl⟩ := Option.map_eq_some_iff.mp hv
      exact ⟨vs, .arr elems, rfl, hv⟩
    | _ => cases hj
  · obtain ⟨p, hp, rfl, -⟩ := mem_of_valueAmong hj
    simp only [ApiGateway.createOrderDto, List.mem_cons, List.not_mem_nil, or_false] at hp
    rcases hp with rfl | rfl
    · exact Or.inr (Or.inl rfl)
    · exact Or.inr (Or.inr rfl)

/-- The order service takes a UUID for each of its two required texts. -/
theorem value_uuid {name s : String} (hs : isUuid s = true)
    (hn : name = "shippingAddressId" ∨ name = "customerUserId") :
    ∃ v, OrderService.createOrderDto.value number isUuid name (.str s) = some v := by
  have hc : ∀ c ∈ [Check.isUuid], c.passes isUuid (.str s) = true := by
    simpa [Check.passes] using hs
  refine ⟨.str s, ?_⟩
  rcases hn with rfl | rfl <;> rw [Dto.value, if_neg (by decide)]
  · exact valueAmong_str ⟨"shippingAddressId", .string, false, [.isUuid]⟩ rfl rfl hc
  · exact valueAmong_str ⟨"customerUserId", .string, false, [.isUuid]⟩ rfl rfl hc

theorem value_items {elems : List Json} {j : Json} (hne : elems ≠ [])
    (hj : elementValue number isUuid ApiGateway.orderItemDto j = some (.arr elems))
    (hu : uuidProducts isUuid (.arr elems)) :
    ∃ v, OrderService.createOrderDto.value number isUuid "items" (.arr elems) = some v := by
  obtain ⟨v, hv⟩ := elementValue_item j (.arr elems) hj hu
  refine ⟨v, ?_⟩
  cases elems with
  | nil => exact absurd rfl hne
  | cons e es => exact hv

theorem member_notes (fields : List (String × Json)) :
    (Json.obj fields).member "notes" = .ok none ↔
      "notes" ∉ (ownMembers fields).map Prod.fst := by
  have hi : "notes" ∉ inheritedNames := by decide
  simp only [Json.member, Except.ok.injEq, Option.map_eq_none_iff, List.find?_eq_none,
    decide_eq_true_eq, List.mem_map, ownMembers, List.mem_filter, not_exists, not_and]
  constructor
  · intro h f hf hn
    exact h f hf.1 hn
  · intro h f hf hn
    exact h f ⟨hf, by rwa [hn]⟩ hn

/--
For every body the gateway accepts that orders an item, names products and the address by
UUIDs and comes from a caller with a UUID, the order service accepts what the gateway sends on
if and only if the body has no member `notes`.
-/
theorem forwarded_accepted_iff (number : String → Option ℚ) (isUuid : String → Bool) (body : Json)
    (members : List (String × Json)) (userId : String)
    (h : ApiGateway.createOrderDto.accept number isUuid body = some members)
    (ho : Orderable isUuid members) (hu : isUuid userId = true) :
    (∃ dto, OrderService.createOrderDto.accept number isUuid
      (ApiGateway.orderPayload members userId) = some dto) ↔ body.member "notes" = .ok none := by
  cases body with
  | obj fields =>
    have hr : readMembers ("items" :: requiredNames ApiGateway.createOrderDto.properties)
      (ApiGateway.createOrderDto.value number isUuid) fields = some members := h
    have hcases : ∀ m ∈ members, _ := fun m hm => member_cases (value_of_readMembers hr hm)
    have hcaller : (members.filter fun f => f.1 ≠ "customerUserId") = members := by
      refine List.filter_eq_self.mpr fun m hm => ?_
      rcases hcases m hm with ⟨hn, -⟩ | hn | hn <;> simp [hn]
    have hown : ownMembers (members ++ [("customerUserId", .str userId)]) =
        members ++ [("customerUserId", .str userId)] := by
      rw [ownMembers, List.filter_append]
      exact congrArg₂ _ (ownMembers_of_readMembers hr) rfl
    rw [member_notes, ← names_of_readMembers hr]
    simp only [ApiGateway.orderPayload, hcaller, Dto.accept, isSome_readMembers, hown]
    constructor
    · rintro ⟨-, hv⟩ hn
      obtain ⟨⟨name, j⟩, hm, rfl⟩ := List.mem_map.mp hn
      obtain ⟨v, hv⟩ := hv _ (List.mem_append_left _ hm)
      cases hv
    · intro hn
      constructor
      · intro name hname
        have hname : name = "items" ∨ name = "customerUserId" ∨ name = "shippingAddressId" := by
          simpa [OrderService.createOrderDto, requiredNames] using hname
        rw [List.map_append, List.mem_append]
        rcases hname with rfl | rfl | rfl
        · exact Or.inl (required_of_readMembers hr "items" List.mem_cons_self)
        · exact Or.inr List.mem_cons_self
        · exact Or.inl ho.address
      · intro f hf
        rcases List.mem_append.mp hf with hm | hm
        · obtain ⟨name, v⟩ := f
          rcases hcases _ hm with ⟨rfl, elems, j, rfl, hj⟩ | rfl | rfl
          · refine value_items (fun hnil => ho.items (hnil ▸ hm)) hj (ho.products _ hm)
          · obtain ⟨s, rfl, hs⟩ := ho.addressUuid v hm
            exact value_uuid hs (Or.inl rfl)
          · exact absurd (List.mem_map_of_mem hm) hn
        · obtain rfl := List.mem_singleton.mp hm
          exact value_uuid hu (Or.inr rfl)
  | _ => cases h

end Bodies

def uuidOfPen : String := "7d444840-9dc0-41d1-b245-5ffdce74fad2"

def isSample (s : String) : Bool := s = uuidOfPen

/-- A body that orders two pieces of one product, with further members. -/
def bodyWith (members : List (String × Json)) : List (String × Json) := [
  ("items", .arr [.obj [("productId", .str uuidOfPen), ("quantity", .num 2)]]),
  ("shippingAddressId", .str uuidOfPen)] ++ members

theorem orderable_bodyWith {members : List (String × Json)} (hm : ∀ m ∈ members, m.1 = "notes") :
    Orderable isSample (bodyWith members) := by
  have hnot {name : String} {j : Json} (hne : name ≠ "notes") : (name, j) ∉ members :=
    fun h => hne (hm _ h)
  constructor
  · simp [bodyWith, hnot]
  · intro j hj
    obtain rfl : j = .arr [.obj [("productId", .str uuidOfPen), ("quantity", .num 2)]] := by
      simpa [bodyWith, hnot] using hj
    simp [uuidProducts, uuidProducts.uuidProductsAll, isSample]
  · simp [bodyWith]
  · simp [bodyWith, hnot, isSample]

theorem plain_accepted : ∃ dto, OrderService.createOrderDto.accept (fun _ => none) isSample
    (ApiGateway.orderPayload (bodyWith []) uuidOfPen) = some dto :=
  (forwarded_accepted_iff (fun _ => none) isSample (.obj (bodyWith [])) (bodyWith []) uuidOfPen
    rfl (orderable_bodyWith (by simp)) (by simp [isSample])).mpr rfl

/-- A body with a note passes the gateway, and the order service refuses what is sent on. -/
theorem noted_refused :
    ApiGateway.createOrderDto.accept (fun _ => none) isSample
      (.obj (bodyWith [("notes", .str "Ring twice")])) =
        some (bodyWith [("notes", .str "Ring twice")]) ∧
    Orderable isSample (bodyWith [("notes", .str "Ring twice")]) ∧ isSample uuidOfPen = true ∧
    OrderService.createOrderDto.accept (fun _ => none) isSample
      (ApiGateway.orderPayload (bodyWith [("notes", .str "Ring twice")]) uuidOfPen) = none :=
  ⟨rfl, orderable_bodyWith (by simp), by simp [isSample], rfl⟩

end Saga
