import OrderPlatform.Wire.Values

/-! # Bodies checked against a class

A strict pipe converts the members of a body to the declared types of a class and refuses the
body when a check fails, a required member is missing or a member has no property. The class
has scalar properties and one array of instances of a second class. Of a class that is imported
as a type only the pipe is left with `Function`, which declares no property.
-/

namespace Wire

inductive PropertyType
  | string | number
  deriving DecidableEq, Repr

/-- The decorators of a property. -/
inductive Check
  | isString | isUuid | isInt | isNumber
  | min (n : ℚ)
  deriving DecidableEq, Repr

structure Property where
  name : String
  type : PropertyType
  isOptional : Bool
  checks : List Check
  deriving DecidableEq, Repr

/-- A class with the properties and an array property, whose elements have properties too. -/
structure Dto where
  properties : List Property
  array : String
  arrayNotEmpty : Bool
  element : List Property
  deriving DecidableEq, Repr

def Json.isNull : Json → Bool
  | .null => true
  | _ => false

/-- Names every object inherits; the conversion leaves a member of such a name out. -/
def inheritedNames : List String :=
  ["__proto__", "constructor", "hasOwnProperty", "isPrototypeOf", "propertyIsEnumerable",
    "toLocaleString", "toString", "valueOf", "__defineGetter__", "__defineSetter__",
    "__lookupGetter__", "__lookupSetter__"]

def ownMembers (fields : List (String × Json)) : List (String × Json) :=
  fields.filter fun f => f.1 ∉ inheritedNames

/-- Read the members of an instance, unless a required one is missing or one is refused. -/
def readMembers (required : List String) (value : String → Json → Option Json)
    (fields : List (String × Json)) : Option (List (String × Json)) :=
  if ∀ name ∈ required, name ∈ (ownMembers fields).map Prod.fst then
    (ownMembers fields).mapM fun f => (value f.1 f.2).map fun v => (f.1, v)
  else none

def requiredNames (properties : List Property) : List String :=
  (properties.filter fun p => !p.isOptional).map Property.name

section Pipe

variable (number : String → Option ℚ) (isUuid : String → Bool)

/--
The implicit conversion of a value, given the numbers that texts stand for: `none` when it
throws or yields no number. An array stays one, whatever becomes of its elements.
-/
def PropertyType.convert : PropertyType → Json → Option Json
  | _, .null => some .null
  | _, .arr elems => some (.arr elems)
  | .string, j => if j.convertible then some (.str j.text) else none
  | .number, .bool b => some (.num (if b then 1 else 0))
  | .number, .num q => some (.num q)
  | .number, .str s => (number s).map .num
  | .number, .obj _ => none

def Check.passes : Check → Json → Bool
  | .isString, .str _ => true
  | .isUuid, .str s => isUuid s
  | .isInt, .num q => q.den = 1
  | .isNumber, .num _ => true
  | .min n, .num q => n ≤ q
  | _, _ => false

/-- The value of a property once converted, unless a check refuses it. -/
def Property.value (p : Property) (j : Json) : Option Json :=
  (p.type.convert number j).filter fun v =>
    (p.isOptional && v.isNull) || p.checks.all fun c => c.passes isUuid v

/-- The value of a member of this name; no property is refused as one that must not exist. -/
def valueAmong (properties : List Property) (name : String) (j : Json) : Option Json :=
  (properties.find? fun p => p.name = name).bind fun p => p.value number isUuid j

/-- An element of the array: `null` is not looked at, and an array is checked by its elements. -/
def elementValue (properties : List Property) : Json → Option Json
  | .null => some .null
  | .arr elems => (elementValues elems).map .arr
  | .obj fields =>
    (readMembers (requiredNames properties) (valueAmong number isUuid properties) fields).map .obj
  | _ => none
where
  elementValues : List Json → Option (List Json)
    | [] => some []
    | j :: js => (elementValue properties j).bind fun v => (elementValues js).map (v :: ·)

namespace Dto

variable (dto : Dto)

def arrayValue : Json → Option Json
  | .arr elems =>
    if dto.arrayNotEmpty && elems.isEmpty then none
    else elementValue number isUuid dto.element (.arr elems)
  | _ => none

def value (name : String) (j : Json) : Option Json :=
  if name = dto.array then dto.arrayValue number isUuid j
  else valueAmong number isUuid dto.properties name j

/-- The members of a body as the handler receives them, unless the pipe refuses it. -/
def accept : Json → Option (List (String × Json))
  | .obj fields =>
    readMembers (dto.array :: requiredNames dto.properties) (dto.value number isUuid) fields
  | _ => none

end Dto

end Pipe

section Untyped

/-- Names a function has besides; what is set under them is not seen as a member. -/
def functionNames : List String :=
  inheritedNames ++ ["length", "name", "apply", "bind", "call", "prototype"]

/-- Names under which nothing can be set on a function. -/
def frozenNames : List String := ["arguments", "caller"]

/-- The names of the members that have no property. -/
def undeclaredNames (fields : List (String × Json)) : List String :=
  (fields.map Prod.fst).filter fun name => name ∉ functionNames

/-- What the pipe says of members without a property, one message for each. -/
def shouldNotExist (names : List String) : Thrown :=
  .badRequest (String.intercalate ", " (names.map fun name => "property " ++ name ++
    " should not exist"))

/--
The strict pipe where the class is imported as a type; no body counts as an empty one, an
array has a member more than its elements, and the parser of bodies lets no scalar by.
-/
def acceptUntyped : Option Json → Except Thrown Unit
  | none | some .null => .ok ()
  | some (.obj fields) =>
    if (undeclaredNames fields).any (· ∈ frozenNames) then .error .typeError
    else if undeclaredNames fields = [] then .ok ()
    else .error (shouldNotExist (undeclaredNames fields))
  | some (.arr elems) =>
    .error (shouldNotExist ((List.range elems.length).map toString ++ ["constructor"]))
  | some _ => .error .syntaxError

/-- The body has no member that the pipe sees. -/
def Blank : Option Json → Prop
  | none | some .null => True
  | some (.obj fields) => ∀ f ∈ fields, f.1 ∈ functionNames
  | some _ => False

variable {body : Option Json} {fields : List (String × Json)} {name : String}

theorem blank_empty : Blank (some (.obj [])) := List.forall_mem_nil _

theorem undeclaredNames_eq_nil :
    undeclaredNames fields = [] ↔ ∀ f ∈ fields, f.1 ∈ functionNames := by
  simp [undeclaredNames, List.filter_eq_nil_iff]

theorem acceptUntyped_obj :
    acceptUntyped (some (.obj fields)) = .ok () ↔ undeclaredNames fields = [] := by
  unfold acceptUntyped
  dsimp only
  split
  · rename_i h
    refine iff_of_false (fun he => by cases he) fun hn => ?_
    rw [hn] at h
    cases h
  · split
    · rename_i h
      exact iff_of_true rfl h
    · rename_i h
      exact iff_of_false (fun he => by cases he) h

theorem acceptUntyped_eq_ok : acceptUntyped body = .ok () ↔ Blank body := by
  cases body with
  | none => exact iff_of_true rfl trivial
  | some j =>
    cases j with
    | null => exact iff_of_true rfl trivial
    | obj fields => exact acceptUntyped_obj.trans undeclaredNames_eq_nil
    | bool | num | str | arr => exact iff_of_false (fun he => by cases he) id

end Untyped

section Members

variable {required : List String} {value : String → Json → Option Json}
  {fields members : List (String × Json)}

theorem mapM_eq_some_iff {α β : Type*} {f : α → Option β} {as : List α} {bs : List β} :
    as.mapM f = some bs ↔ List.Forall₂ (fun a b => f a = some b) as bs := by
  induction as generalizing bs with
  | nil => simp [eq_comm]
  | cons a as ih =>
    simp only [List.mapM_cons, Option.bind_eq_bind, Option.bind_eq_some_iff, ih,
      List.forall₂_cons_left_iff, Option.pure_def, Option.some.injEq]
    constructor
    · rintro ⟨b, hb, bs', hbs, rfl⟩
      exact ⟨b, bs', hb, hbs, rfl⟩
    · rintro ⟨b, bs', hb, hbs, rfl⟩
      exact ⟨b, hb, bs', hbs, rfl⟩

theorem readMembers_eq_some : readMembers required value fields = some members ↔
    (∀ name ∈ required, name ∈ (ownMembers fields).map Prod.fst) ∧
      List.Forall₂ (fun f m => value f.1 f.2 = some m.2 ∧ m.1 = f.1) (ownMembers fields)
        members := by
  have hmem (f m : String × Json) : (value f.1 f.2).map (fun v => (f.1, v)) = some m ↔
      value f.1 f.2 = some m.2 ∧ m.1 = f.1 := by
    rw [Option.map_eq_some_iff]
    constructor
    · rintro ⟨v, hv, rfl⟩
      exact ⟨hv, rfl⟩
    · rintro ⟨hv, hn⟩
      exact ⟨m.2, hv, by rw [← hn]⟩
  unfold readMembers
  split
  · rename_i h
    simp only [mapM_eq_some_iff, hmem]
    exact (and_iff_right h).symm
  · rename_i h
    exact iff_of_false (by simp) fun hc => h hc.1

theorem isSome_readMembers : (∃ members, readMembers required value fields = some members) ↔
    (∀ name ∈ required, name ∈ (ownMembers fields).map Prod.fst) ∧
      ∀ f ∈ ownMembers fields, ∃ v, value f.1 f.2 = some v := by
  simp only [readMembers_eq_some, exists_and_left]
  refine and_congr_right fun _ => ?_
  induction ownMembers fields with
  | nil => simp
  | cons f own ih =>
    rw [List.forall_mem_cons, ← ih]
    constructor
    · rintro ⟨ms, h⟩
      obtain ⟨m, ms', hm, hms, -⟩ := List.forall₂_cons_left_iff.mp h
      exact ⟨⟨m.2, hm.1⟩, ms', hms⟩
    · rintro ⟨⟨v, hv⟩, ms, hms⟩
      exact ⟨(f.1, v) :: ms, .cons ⟨hv, rfl⟩ hms⟩

variable (h : readMembers required value fields = some members)

include h

theorem names_of_readMembers : members.map Prod.fst = (ownMembers fields).map Prod.fst := by
  obtain ⟨-, hv⟩ := readMembers_eq_some.mp h
  clear h
  generalize ownMembers fields = own at hv
  induction hv with
  | nil => rfl
  | cons hf _ ih => simp [hf.2, ih]

theorem required_of_readMembers : ∀ name ∈ required, name ∈ members.map Prod.fst := by
  rw [names_of_readMembers h]
  exact (readMembers_eq_some.mp h).1

theorem value_of_readMembers {m : String × Json} (hm : m ∈ members) :
    ∃ j, value m.1 j = some m.2 := by
  obtain ⟨-, hv⟩ := readMembers_eq_some.mp h
  clear h
  generalize ownMembers fields = own at hv
  induction hv with
  | nil => cases hm
  | cons hf _ ih =>
    rcases List.mem_cons.mp hm with rfl | hm
    · exact ⟨_, hf.2 ▸ hf.1⟩
    · exact ih hm

/-- Members of their declared types are read as they are. -/
theorem eq_of_readMembers (hown : ownMembers fields = fields)
    (hv : ∀ f ∈ fields, ∀ v, value f.1 f.2 = some v → v = f.2) : members = fields := by
  obtain ⟨-, hf⟩ := readMembers_eq_some.mp h
  rw [hown] at hf
  clear h hown
  induction hf with
  | nil => rfl
  | cons hm _ ih =>
    rw [List.forall_mem_cons] at hv
    rw [ih hv.2]
    exact congrArg (· :: _) (Prod.ext hm.2 (hv.1 _ hm.1))

theorem ownMembers_of_readMembers : ownMembers members = members := by
  refine List.filter_eq_self.mpr fun m hm => ?_
  have hn : m.1 ∈ (ownMembers fields).map Prod.fst :=
    names_of_readMembers h ▸ List.mem_map_of_mem hm
  obtain ⟨f, hf, he⟩ := List.mem_map.mp hn
  rw [← he]
  exact (List.mem_filter.mp hf).2

end Members

end Wire
