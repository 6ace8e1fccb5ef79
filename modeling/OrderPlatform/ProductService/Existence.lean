import Mathlib.Data.List.Induction
import Mathlib.Tactic.IntervalCases
import OrderPlatform.ProductService.Entities

/-! # The existence check

Products are looked up by the database, which does not mind the letter case of an identifier,
and the identifiers it found are compared with those asked for as texts. The summary is made
from the identifiers alone.
-/

namespace ProductService

open Store Wire

section Texts

/-- The last `n` hexadecimal digits of a number. -/
def hexDigits : ℕ → ℕ → List Char
  | 0, _ => []
  | n + 1, u => hexDigits n (u / 16) ++ [Nat.digitChar (u % 16)]

/-- Put the digits between the dashes of a shape. -/
def weave : List Bool → List Char → List Char
  | [], _ => []
  | true :: shape, digits => '-' :: weave shape digits
  | false :: shape, d :: digits => d :: weave shape digits
  | false :: _, [] => []

/-- An identifier as the database returns it, in lower case. -/
def uuidText (u : Uuid) : String := String.ofList (weave uuidShape (hexDigits 32 u))

def lowerCase (s : String) : String := s.map Char.toLower

def hexAlphabet : List Char := "0123456789abcdefABCDEF".toList

theorem mem_hexAlphabet {c : Char} (h : isHexDigit c = true) : c ∈ hexAlphabet := by
  have hc : c = Char.ofNat c.toNat := (Char.ofNat_toNat c).symm
  have hn : (48 ≤ c.toNat ∧ c.toNat ≤ 57) ∨ (97 ≤ c.toNat ∧ c.toNat ≤ 102) ∨
      (65 ≤ c.toNat ∧ c.toNat ≤ 70) := of_decide_eq_true h
  generalize c.toNat = n at hc hn
  subst hc
  rcases hn with ⟨h, h'⟩ | ⟨h, h'⟩ | ⟨h, h'⟩ <;> interval_cases n <;> decide

theorem forall_hex {p : Char → Prop} [DecidablePred p]
    (h : (hexAlphabet.all fun c => p c) = true) : ∀ c ∈ hexAlphabet, p c := by
  simpa using h

theorem hexValue_lt : ∀ c ∈ hexAlphabet, hexValue c < 16 := forall_hex (by decide)

theorem digitChar_hexValue : ∀ c ∈ hexAlphabet, Nat.digitChar (hexValue c) = c.toLower :=
  forall_hex (by decide)

theorem toLower_ne_dash : ∀ c ∈ hexAlphabet, c.toLower ≠ '-' := forall_hex (by decide)

theorem isHexDigit_toLower : ∀ c ∈ hexAlphabet, isHexDigit c.toLower = true :=
  forall_hex (by decide)

theorem hexValue_toLower : ∀ c ∈ hexAlphabet, hexValue c.toLower = hexValue c :=
  forall_hex (by decide)

theorem hexDigits_foldl (ds : List Char) (h : ∀ c ∈ ds, isHexDigit c = true) :
    hexDigits ds.length (ds.foldl (fun n c => 16 * n + hexValue c) 0) = ds.map Char.toLower := by
  induction ds using List.reverseRecOn with
  | nil => rfl
  | append_singleton ds c ih =>
    have hc := mem_hexAlphabet (h c (by simp))
    have hlt := hexValue_lt c hc
    have hdiv (m : ℕ) : (16 * m + hexValue c) / 16 = m := by omega
    have hmod (m : ℕ) : (16 * m + hexValue c) % 16 = hexValue c := by omega
    simp only [List.foldl_append, List.foldl_cons, List.foldl_nil, List.length_append,
      List.length_singleton, hexDigits, hdiv, hmod, digitChar_hexValue c hc, List.map_append,
      List.map_singleton]
    rw [ih fun d hd => h d (List.mem_append_left _ hd)]

/-- The digits of a text with dashes in the places of a shape put the text together again. -/
theorem weave_filter (cs : List Char) :
    weave (cs.map fun c => decide (c = '-')) ((cs.filter (· ≠ '-')).map Char.toLower) =
      cs.map Char.toLower := by
  induction cs with
  | nil => rfl
  | cons c cs ih =>
    by_cases hc : c = '-'
    · subst hc
      simpa [weave] using ih
    · simpa [weave, hc] using ih

theorem length_filter_dash (cs : List Char) : (cs.filter (· ≠ '-')).length =
    (cs.map fun c => decide (c = '-')).count false := by
  induction cs with
  | nil => rfl
  | cons c cs ih =>
    by_cases hc : c = '-'
    · subst hc
      simpa using ih
    · simpa [hc] using ih

theorem digitChar_hex : ∀ d < 16, isHexDigit (Nat.digitChar d) = true ∧
    hexValue (Nat.digitChar d) = d ∧ Nat.digitChar d ≠ '-' := by
  decide

theorem length_hexDigits (n u : ℕ) : (hexDigits n u).length = n := by
  induction n generalizing u with
  | zero => rfl
  | succ n ih => simp [hexDigits, ih]

theorem mem_hexDigits {n u : ℕ} {c : Char} (h : c ∈ hexDigits n u) :
    isHexDigit c = true ∧ c ≠ '-' := by
  induction n generalizing u with
  | zero => cases h
  | succ n ih =>
    rcases List.mem_append.mp h with h | h
    · exact ih h
    · obtain rfl := List.mem_singleton.mp h
      obtain ⟨hhex, -, hdash⟩ := digitChar_hex (u % 16) (Nat.mod_lt _ (by decide))
      exact ⟨hhex, hdash⟩

theorem foldl_hexDigits (n u : ℕ) :
    (hexDigits n u).foldl (fun n c => 16 * n + hexValue c) 0 = u % 16 ^ n := by
  induction n generalizing u with
  | zero => simp [hexDigits, Nat.mod_one]
  | succ n ih =>
    have hd := (digitChar_hex (u % 16) (Nat.mod_lt _ (by decide))).2.1
    rw [hexDigits, List.foldl_append, ih, List.foldl_cons, List.foldl_nil, hd, Nat.pow_succ',
      Nat.mod_mul]
    exact Nat.add_comm _ _

/-- As many digits as a shape has places for are read back from between the dashes. -/
theorem weave_digits (shape : List Bool) (ds : List Char) (hl : ds.length = shape.count false)
    (hd : ∀ c ∈ ds, c ≠ '-') :
    (weave shape ds).map (fun c => decide (c = '-')) = shape ∧
      (weave shape ds).filter (· ≠ '-') = ds := by
  induction shape generalizing ds with
  | nil =>
    obtain rfl := List.length_eq_zero_iff.mp hl
    exact ⟨rfl, rfl⟩
  | cons b shape ih =>
    cases b with
    | true =>
      obtain ⟨hm, hf⟩ := ih ds (by simpa using hl) hd
      simp only [weave, List.map_cons, hm, decide_true, true_and]
      simpa using hf
    | false =>
      cases ds with
      | nil => simp at hl
      | cons d ds =>
        obtain ⟨hm, hf⟩ := ih ds (by simpa using hl) fun c hc => hd c (List.mem_cons_of_mem _ hc)
        have hne : d ≠ '-' := hd d List.mem_cons_self
        simp only [weave, List.map_cons, hm, hne, decide_false, true_and]
        rw [List.filter_cons_of_pos (by simpa using hne), hf]

variable {t : String} {u : Uuid}

/-- What a text is made of when it stands for an identifier. -/
structure Reads (t : String) (u : Uuid) : Prop where
  shape : t.toList.map (fun c => decide (c = '-')) = uuidShape
  hex : ∀ c ∈ t.toList, c ≠ '-' → isHexDigit c = true
  value : (t.toList.filter (· ≠ '-')).foldl (fun n c => 16 * n + hexValue c) 0 = u

theorem readUuid_eq_some : readUuid t = some u ↔ Reads t u := by
  unfold readUuid
  dsimp only
  constructor
  · intro h
    split at h
    · rename_i hc
      refine ⟨hc.1, fun c hm hd => ?_, Option.some.inj h⟩
      exact List.all_eq_true.mp hc.2 c (List.mem_filter.mpr ⟨hm, decide_eq_true hd⟩)
    · cases h
  · rintro ⟨hshape, hhex, rfl⟩
    refine if_pos ⟨hshape, List.all_eq_true.mpr fun c hm => ?_⟩
    obtain ⟨hm, hd⟩ := List.mem_filter.mp hm
    exact hhex c hm (of_decide_eq_true hd)

/-- The database returns an identifier as it was written, but in lower case. -/
theorem Reads.uuidText (h : Reads t u) : uuidText u = lowerCase t := by
  have hlength : (t.toList.filter (· ≠ '-')).length = 32 := by
    rw [length_filter_dash, h.shape]
    decide
  have hdigits := hexDigits_foldl (t.toList.filter (· ≠ '-')) fun c hm =>
    h.hex c (List.mem_of_mem_filter hm) (of_decide_eq_true (List.mem_filter.mp hm).2)
  rw [hlength, h.value] at hdigits
  rw [ProductService.uuidText, hdigits, ← h.shape, weave_filter, lowerCase, String.map_eq_internal]

theorem Reads.eq_dash_or_mem (h : Reads t u) {c : Char} (hm : c ∈ t.toList) :
    c = '-' ∨ c ∈ hexAlphabet :=
  or_iff_not_imp_left.mpr fun hd => mem_hexAlphabet (h.hex c hm hd)

/-- The text in lower case stands for the same identifier. -/
theorem Reads.lowerCase (h : Reads t u) : Reads (lowerCase t) u := by
  have hlist : (ProductService.lowerCase t).toList = t.toList.map Char.toLower := String.toList_map
  have hdash (c : Char) (hm : c ∈ t.toList) : c.toLower = '-' ↔ c = '-' := by
    obtain rfl | hc := h.eq_dash_or_mem hm
    · decide
    · exact iff_of_false (toLower_ne_dash c hc) fun he => absurd hc (by rw [he]; decide)
  have hfilter : (t.toList.map Char.toLower).filter (· ≠ '-') =
      (t.toList.filter (· ≠ '-')).map Char.toLower := by
    rw [List.filter_map]
    refine congrArg _ (List.filter_congr fun c hm => ?_)
    exact decide_eq_decide.mpr (not_congr (hdash c hm))
  refine ⟨?_, ?_, ?_⟩
  · rw [hlist, ← h.shape, List.map_map]
    refine List.map_congr_left fun c hm => ?_
    simp only [Function.comp_apply, hdash c hm]
  · rw [hlist]
    intro c hm hd
    obtain ⟨c', hm', rfl⟩ := List.mem_map.mp hm
    obtain rfl | hc := h.eq_dash_or_mem hm'
    · exact absurd rfl hd
    · exact isHexDigit_toLower c' hc
  · rw [hlist, hfilter, List.foldl_map, ← h.value]
    refine List.foldl_ext _ _ _ fun n c hm => ?_
    obtain ⟨hm, hd⟩ := List.mem_filter.mp hm
    obtain rfl | hc := h.eq_dash_or_mem hm
    · exact absurd rfl (of_decide_eq_true hd)
    · rw [hexValue_toLower c hc]

/-- Every identifier of the database has a text. -/
theorem reads_uuidText (h : u < 16 ^ 32) : Reads (ProductService.uuidText u) u := by
  obtain ⟨hm, hf⟩ := weave_digits uuidShape (hexDigits 32 u) (length_hexDigits 32 u)
    fun c hc => (mem_hexDigits hc).2
  have hlist : (ProductService.uuidText u).toList = weave uuidShape (hexDigits 32 u) :=
    String.toList_ofList
  refine ⟨by rw [hlist, hm], fun c hc hne => ?_, ?_⟩
  · have hmem : c ∈ (weave uuidShape (hexDigits 32 u)).filter (· ≠ '-') :=
      List.mem_filter.mpr ⟨hlist ▸ hc, decide_eq_true hne⟩
    rw [hf] at hmem
    exact (mem_hexDigits hmem).1
  · rw [hlist, hf, foldl_hexDigits, Nat.mod_eq_of_lt h]

theorem Reads.lowerCase_lowerCase (h : Reads t u) :
    ProductService.lowerCase (ProductService.lowerCase t) = ProductService.lowerCase t := by
  rw [← h.lowerCase.uuidText, h.uuidText]

end Texts

section Model

/-- The rows the database finds for some identifiers; those of inactive products are found too. -/
def findByIds (products : List Product) (ids : List ProductId) : List Product :=
  products.filter fun p => ids.any fun id => id.uuid == p.id

def findBySkus (products : List Product) (skus : List String) : List Product :=
  products.filter fun p => skus.contains p.sku

structure ExistenceSummary where
  existingIds : List String
  existingSkus : List String
  missing : List String
  exists_ : Bool
  deriving DecidableEq, Repr

/-- Either list may be left out of the request. -/
def checkExistence (products : List Product) (ids : Option (List ProductId))
    (skus : Option (List String)) : ExistenceSummary :=
  let requestedIds := (ids.getD []).map (·.text)
  let existingIds := (findByIds products (ids.getD [])).map fun p => uuidText p.id
  let existingSkus := (findBySkus products (skus.getD [])).map (·.sku)
  { existingIds, existingSkus
    missing := requestedIds.filter fun id => !existingIds.contains id
    exists_ := requestedIds.all fun id => existingIds.contains id }

end Model

section Exactness

variable {products : List Product} {ids : Option (List ProductId)}
  {skus : Option (List String)} {id : ProductId}

def HasId (products : List Product) (id : ProductId) : Prop := ∃ p ∈ products, p.id = id.uuid

def HasSku (products : List Product) (sku : String) : Prop := ∃ p ∈ products, p.sku = sku

/-- A summary that tells which of the requested ids and skus have a product. -/
structure Exact (products : List Product) (ids : List ProductId) (skus : List String)
    (summary : ExistenceSummary) : Prop where
  all : summary.exists_ = true ↔
    (∀ id ∈ ids, HasId products id) ∧ ∀ sku ∈ skus, HasSku products sku
  missing : ∀ x, x ∈ summary.missing ↔
    (∃ id ∈ ids, id.text = x ∧ ¬ HasId products id) ∨ (x ∈ skus ∧ ¬ HasSku products x)

/-- An id is found again among the texts of the database when it was written in lower case. -/
theorem text_mem_existing {ids : List ProductId} (hm : id ∈ ids) :
    id.text ∈ (findByIds products ids).map (fun p => uuidText p.id) ↔
      HasId products id ∧ lowerCase id.text = id.text := by
  have hreads (id : ProductId) : Reads id.text id.uuid := readUuid_eq_some.mp id.reads
  constructor
  · intro h
    obtain ⟨p, hp, htext⟩ := List.mem_map.mp h
    obtain ⟨hp, hany⟩ := List.mem_filter.mp hp
    obtain ⟨id', -, hid'⟩ := List.any_eq_true.mp hany
    obtain hid' : id'.uuid = p.id := eq_of_beq hid'
    rw [← hid', (hreads id').uuidText] at htext
    have hsame : readUuid id.text = some id'.uuid :=
      htext ▸ readUuid_eq_some.mpr (hreads id').lowerCase
    have huuid : id'.uuid = id.uuid := Option.some.inj (hsame.symm.trans id.reads)
    refine ⟨⟨p, hp, hid'.symm.trans huuid⟩, ?_⟩
    rw [← htext, (hreads id').lowerCase_lowerCase]
  · rintro ⟨⟨p, hp, hid⟩, hlower⟩
    refine List.mem_map.mpr ⟨p, List.mem_filter.mpr ⟨hp, ?_⟩, ?_⟩
    · exact List.any_eq_true.mpr ⟨id, hm, beq_iff_eq.mpr hid.symm⟩
    · rw [hid, (hreads id).uuidText, hlower]

theorem mem_missing {x : String} :
    x ∈ (checkExistence products ids skus).missing ↔
      ∃ id ∈ ids.getD [], id.text = x ∧ ¬ (HasId products id ∧ lowerCase id.text = id.text) := by
  have hnot (texts : List String) : (!texts.contains x) = true ↔ x ∉ texts := by simp
  refine List.mem_filter.trans ?_
  rw [hnot]
  constructor
  · rintro ⟨hx, hn⟩
    obtain ⟨id, hm, rfl⟩ := List.mem_map.mp hx
    exact ⟨id, hm, rfl, fun h => hn ((text_mem_existing hm).mpr h)⟩
  · rintro ⟨id, hm, rfl, hn⟩
    exact ⟨List.mem_map_of_mem hm, fun h => hn ((text_mem_existing hm).mp h)⟩

/-- The summary says that all exist when it has nothing missing. -/
theorem exists_iff_missing : (checkExistence products ids skus).exists_ = true ↔
    (checkExistence products ids skus).missing = [] := by
  simp only [checkExistence, List.all_eq_true, List.filter_eq_nil_iff, Bool.not_eq_true',
    Bool.not_eq_false]

/-- A summary whose missing ones are right is right about whether all exist. -/
theorem exact_of_missing {reqIds : List ProductId} {reqSkus : List String}
    (h : ∀ x, x ∈ (checkExistence products ids skus).missing ↔
      (∃ id ∈ reqIds, id.text = x ∧ ¬ HasId products id) ∨
        (x ∈ reqSkus ∧ ¬ HasSku products x)) :
    Exact products reqIds reqSkus (checkExistence products ids skus) := by
  refine ⟨?_, h⟩
  rw [exists_iff_missing, List.eq_nil_iff_forall_not_mem]
  constructor
  · intro hnil
    refine ⟨fun id hm => ?_, fun sku hm => ?_⟩
    · by_contra hid
      exact hnil _ ((h _).mpr (Or.inl ⟨id, hm, rfl, hid⟩))
    · by_contra hsku
      exact hnil _ ((h _).mpr (Or.inr ⟨hm, hsku⟩))
  · rintro ⟨hallIds, hallSkus⟩ x hx
    obtain ⟨id, hm, -, hid⟩ | ⟨hm, hsku⟩ := (h x).mp hx
    · exact hid (hallIds id hm)
    · exact hsku (hallSkus x hm)

/-- Every id that has a product was written in lower case, and every sku has a product; a text
may also be asked for as the one and be missing as the other. -/
structure Told (products : List Product) (ids : List ProductId) (skus : List String) : Prop where
  lower : ∀ id ∈ ids, HasId products id → lowerCase id.text ≠ id.text →
    id.text ∈ skus ∧ ¬ HasSku products id.text
  found : ∀ sku ∈ skus, HasSku products sku ∨
    ∃ id ∈ ids, id.text = sku ∧ ¬ (HasId products id ∧ lowerCase id.text = id.text)

/-- The check is exact when the letter case of the ids agrees with that of the database and no
sku is missing, and at no other time. -/
theorem checkExistence_exact_iff :
    Exact products (ids.getD []) (skus.getD []) (checkExistence products ids skus) ↔
      Told products (ids.getD []) (skus.getD []) := by
  generalize hids : ids.getD [] = reqIds
  generalize hskus : skus.getD [] = reqSkus
  have hmissing {x : String} : x ∈ (checkExistence products ids skus).missing ↔
      ∃ id ∈ reqIds, id.text = x ∧ ¬ (HasId products id ∧ lowerCase id.text = id.text) :=
    hids ▸ mem_missing
  constructor
  · rintro ⟨-, hexact⟩
    constructor
    · intro id hm hid hcase
      obtain ⟨id', -, htext, hn⟩ | h := (hexact id.text).mp
        (hmissing.mpr ⟨id, hm, rfl, fun h => hcase h.2⟩)
      · obtain rfl := ProductId.eq_of_text htext
        exact absurd hid hn
      · exact h
    · intro sku hm
      by_cases hsku : HasSku products sku
      · exact Or.inl hsku
      · exact Or.inr (hmissing.mp ((hexact sku).mpr (Or.inr ⟨hm, hsku⟩)))
  · rintro ⟨hlower, hfound⟩
    refine exact_of_missing fun x => hmissing.trans ⟨?_, ?_⟩
    · rintro ⟨id, hm, rfl, hn⟩
      by_cases hid : HasId products id
      · exact Or.inr (hlower id hm hid fun hcase => hn ⟨hid, hcase⟩)
      · exact Or.inl ⟨id, hm, rfl, hid⟩
    · rintro (⟨id, hm, rfl, hid⟩ | ⟨hm, hsku⟩)
      · exact ⟨id, hm, rfl, fun h => hid h.1⟩
      · exact (hfound x hm).resolve_left hsku

/-- The pen is asked for by its identifier in upper case, and is reported missing. -/
theorem upper_case_reported_missing :
    checkExistence [pen] (some [upperId]) none =
      ⟨["0000000a-0000-4000-8000-000000000000"], [], [upperId.text], false⟩ ∧
    ¬ Exact [pen] [upperId] [] (checkExistence [pen] (some [upperId]) none) := by
  refine ⟨by decide +kernel, fun h => ?_⟩
  have hall := h.all.mpr ⟨?_, fun _ hm => nomatch hm⟩
  · revert hall
    decide +kernel
  · intro id hm
    obtain rfl := List.mem_singleton.mp hm
    exact ⟨pen, List.mem_singleton_self _, rfl⟩

end Exactness

end ProductService
