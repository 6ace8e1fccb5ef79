import OrderPlatform.ProductService.Calls

/-! # Cached listings

The key of a listing is joined from six texts, two of which the caller writes. Every write
deletes every listing, so an entry shows what its own query would find now. A listing is
therefore right unless it meets an entry that another query put under the same key, which
takes a category or search that is `*` or has a colon.
-/

namespace ProductService

open Runs Store Wire

/-- Queries that list the same: an empty category or search counts as none. -/
structure ProductListParams.SameQuery (p q : ProductListParams) : Prop where
  page : p.page = q.page
  limit : p.limit = q.limit
  category : p.category.filter (· ≠ "") = q.category.filter (· ≠ "")
  search : p.search.filter (· ≠ "") = q.search.filter (· ≠ "")
  minPrice : p.minPrice = q.minPrice
  maxPrice : p.maxPrice = q.maxPrice

/-- The caller's texts have no colon and are not the star that stands for none. -/
def ProductListParams.Plain (p : ProductListParams) : Prop :=
  ∀ text, p.category = some text ∨ p.search = some text → ':' ∉ text.toList ∧ text ≠ "*"

/-- The service, with the query that last filled each key of a listing. -/
structure Tracked where
  world : World
  filledBy : String → Option ProductListParams

section Listing

variable (numeral : ℚ → String) (ilike : String → String → Bool) (rank : Uuid → ℕ)

def Tracked.fill (s : Tracked) : Call → String → Option ProductListParams
  | .list params =>
    if s.world.cache (buildListCacheKey numeral params) = none then
      Function.update s.filledBy (buildListCacheKey numeral params) (some params)
    else s.filledBy
  | _ => s.filledBy

def Tracked.call (s : Tracked) (c : Call) : Option Tracked :=
  (s.world.call numeral ilike rank c).map fun w => ⟨w, s.fill numeral c⟩

/-- A listing is what the repository finds. -/
def ListsCurrent (w : World) : Call → Prop
  | .list params =>
    (w.list numeral ilike rank params).2 = .page (findMany ilike rank w.products params)
  | _ => True

/-- A listing whose key is in use was put there by the same query. -/
def MeetsOwnEntry (s : Tracked) : Call → Prop
  | .list params => s.world.cache (buildListCacheKey numeral params) ≠ none →
    ∃ q, s.filledBy (buildListCacheKey numeral params) = some q ∧ q.SameQuery params
  | _ => True

end Listing

section Keys

variable {numeral : ℚ → String} {p q : ProductListParams}

theorem eq_of_getD {a b : Option String} (ha : a ≠ some "*") (hb : b ≠ some "*")
    (h : a.getD "*" = b.getD "*") : a = b := by
  cases a with
  | none =>
    cases b with
    | none => rfl
    | some t => exact absurd (congrArg some h.symm) hb
  | some s =>
    cases b with
    | none => exact absurd (congrArg some h) ha
    | some t => exact congrArg some h

/-- Texts without a colon can be read back from what they are joined to. -/
theorem parts_eq {l l' : List String} (hl : ∀ s ∈ l, ':' ∉ s.toList)
    (hl' : ∀ s ∈ l', ':' ∉ s.toList) (hne : l ≠ []) (hne' : l' ≠ [])
    (h : String.intercalate ":" l = String.intercalate ":" l') : l = l' := by
  have hc : [':'].intercalate (l.map String.toList) = [':'].intercalate (l'.map String.toList) := by
    simpa using congrArg String.toList h
  have hsplit {l : List String} (hl : ∀ s ∈ l, ':' ∉ s.toList) (hne : l ≠ []) :
      ([':'].intercalate (l.map String.toList)).splitOn ':' = l.map String.toList :=
    List.splitOn_intercalate ':' (by simpa using hl) (by simpa using hne)
  have hs : l.map String.toList = l'.map String.toList := by
    rw [← hsplit hl hne, hc, hsplit hl' hne']
  exact List.map_injective_iff.mpr (fun _ _ => String.toList_inj.mp) hs

section Plain

variable (hinj : Function.Injective numeral) (hcolon : ∀ x, ':' ∉ (numeral x).toList)
  (hstar : ∀ x, numeral x ≠ "*")

include hcolon in
theorem colon_notMem_parts (hp : p.Plain) : ∀ s ∈ listCacheKeyParts numeral p, ':' ∉ s.toList := by
  have hd {a : Option String} (ha : ∀ text, a = some text → ':' ∉ text.toList) :
      ':' ∉ (a.getD "*").toList := by
    cases a with
    | none => decide
    | some text => exact ha text rfl
  have hn (a : Option ℚ) : ':' ∉ ((a.map numeral).getD "*").toList := by
    refine hd fun text h => ?_
    obtain ⟨x, -, rfl⟩ := Option.map_eq_some_iff.mp h
    exact hcolon x
  intro s hs
  simp only [listCacheKeyParts, List.mem_cons, List.not_mem_nil, or_false] at hs
  rcases hs with rfl | rfl | rfl | rfl | rfl | rfl | rfl | rfl
  · decide
  · decide
  · exact hcolon _
  · exact hcolon _
  · exact hd fun text h => (hp text (Or.inl h)).1
  · exact hd fun text h => (hp text (Or.inr h)).1
  · exact hn _
  · exact hn _

include hinj hcolon hstar in
/-- Keys of plain queries are equal only if the queries are the same. -/
theorem sameQuery_of_key (hp : p.Plain) (hq : q.Plain)
    (h : buildListCacheKey numeral p = buildListCacheKey numeral q) : p.SameQuery q := by
  have hparts := parts_eq (colon_notMem_parts hcolon hp) (colon_notMem_parts hcolon hq)
    (List.cons_ne_nil _ _) (List.cons_ne_nil _ _) h
  simp only [listCacheKeyParts, List.cons.injEq, true_and, and_true] at hparts
  obtain ⟨hpage, hlimit, hcategory, hsearch, hmin, hmax⟩ := hparts
  have hnum {a b : Option ℚ} (hab : (a.map numeral).getD "*" = (b.map numeral).getD "*") :
      a = b := by
    refine Option.map_injective hinj (eq_of_getD ?_ ?_ hab)
    · intro he
      obtain ⟨x, -, hx⟩ := Option.map_eq_some_iff.mp he
      exact hstar x hx
    · intro he
      obtain ⟨x, -, hx⟩ := Option.map_eq_some_iff.mp he
      exact hstar x hx
  have hcat : p.category = q.category :=
    eq_of_getD (fun he => (hp _ (Or.inl he)).2 rfl) (fun he => (hq _ (Or.inl he)).2 rfl) hcategory
  have hsea : p.search = q.search :=
    eq_of_getD (fun he => (hp _ (Or.inr he)).2 rfl) (fun he => (hq _ (Or.inr he)).2 rfl) hsearch
  exact ⟨hinj hpage, hinj hlimit, by rw [hcat], by rw [hsea], hnum hmin, hnum hmax⟩

end Plain

end Keys

section Runs

variable {numeral : ℚ → String} {ilike : String → String → Bool} {rank : Uuid → ℕ}
  {s t : Tracked} {w : World} {c : Call} {params q : ProductListParams}

theorem findMany_congr (h : q.SameQuery params) (products : List Product) :
    findMany ilike rank products q = findMany ilike rank products params := by
  have hm : q.matches ilike = params.matches ilike := by
    funext p
    simp only [ProductListParams.matches, h.category, h.search, h.minPrice, h.maxPrice]
  simp only [findMany, hm, h.page, h.limit]

/-- The page that the query which filled a key would get now. -/
def Tracked.source (ilike : String → String → Bool) (rank : Uuid → ℕ) (s : Tracked)
    (k : { key // isListKey key = true }) : Option Entry :=
  (s.filledBy k.val).map fun q => .page (findMany ilike rank s.world.products q)

/-- Every cached listing shows what its own query would find. -/
def Tracked.Coherent (ilike : String → String → Bool) (rank : Uuid → ℕ) (s : Tracked) : Prop :=
  Cache.Coherent Subtype.val (s.source ilike rank) s.world.cache

/-- Keys of other kinds do not matter to listings. -/
theorem coherent_set_other {key : String} {e : Entry} (hs : s.Coherent ilike rank)
    (hk : isListKey key = false) :
    Tracked.Coherent ilike rank
      ⟨{ s.world with cache := s.world.cache.set key e }, s.filledBy⟩ := by
  refine Cache.Coherent.set hs fun k hk' => ?_
  have := k.property
  rw [hk', hk] at this
  cases this

theorem coherent_found {id : ProductId} {key : String} {entry : Product → Entry}
    {r : World × Except Thrown Entry} (hs : s.Coherent ilike rank)
    (hk : isListKey key = false) (h : Found s.world id key entry r) :
    Tracked.Coherent ilike rank ⟨r.1, s.filledBy⟩ := by
  cases h with
  | hit e h => exact hs
  | missing hc h => exact hs
  | filled p hc h => exact coherent_set_other hs hk

/-- After every listing was deleted there is none left to be wrong. -/
theorem coherent_invalidated (w : World) (filledBy : String → Option ProductListParams) :
    Tracked.Coherent ilike rank ⟨w.invalidateListCaches, filledBy⟩ := by
  intro k e hc
  have := (Cache.del_eq_some.mp hc).1
  rw [k.property] at this
  cases this

theorem Tracked.Coherent.list (hs : s.Coherent ilike rank)
    (h : s.call numeral ilike rank (.list params) = some t) : t.Coherent ilike rank := by
  cases h
  simp only [World.list, Tracked.fill]
  cases hc : s.world.cache (buildListCacheKey numeral params) with
  | some cached => simpa using hs
  | none =>
    simp only [if_true]
    intro k e he
    dsimp only at he
    by_cases hk : k.val = buildListCacheKey numeral params
    · rw [hk, Cache.set_self] at he
      cases he
      simp [Tracked.source, hk]
    · rw [Cache.set_of_ne hk] at he
      simpa [Tracked.source, hk] using hs k e he

theorem Tracked.Coherent.call (hs : s.Coherent ilike rank)
    (h : s.call numeral ilike rank c = some t) : t.Coherent ilike rank := by
  cases c with
  | create dto x =>
    cases h
    unfold World.create
    split
    · exact hs
    · exact coherent_invalidated _ _
  | update id dto x =>
    cases h
    rcases @update_cases s.world id dto x with ⟨hstop, -⟩ | ⟨_, _, _, _, _, hsaved⟩
    · rw [hstop]
      exact coherent_found hs isListKey_productKey found_findById
    · rw [hsaved]
      exact coherent_invalidated _ _
  | findById id =>
    cases h
    exact coherent_found hs isListKey_productKey found_findById
  | findPriceById id =>
    cases h
    exact coherent_found hs isListKey_priceKey found_findPriceById
  | list params => exact hs.list h
  | expire key =>
    cases h
    exact Cache.Coherent.del hs _

theorem listsCurrent_of_coherent (hs : s.Coherent ilike rank) (hc : MeetsOwnEntry numeral s c) :
    ListsCurrent numeral ilike rank s.world c := by
  cases c with
  | list params =>
    simp only [ListsCurrent, World.list]
    cases hcache : s.world.cache (buildListCacheKey numeral params) with
    | none => rfl
    | some cached =>
      obtain ⟨q, hq, hsame⟩ := hc (by simp [hcache])
      have := hs ⟨_, isListKey_buildListCacheKey params⟩ cached hcache
      simp only [Tracked.source, hq, Option.map_some, Option.some.injEq] at this
      rw [← this, findMany_congr hsame]
  | create | update | findById | findPriceById | expire => trivial

end Runs

theorem listings_tracked {numeral : ℚ → String} {ilike : String → String → Bool}
    {rank : Uuid → ℕ} {products : List Product} {fresh : Uuid} {calls : List Call}
    (h : AllSteps (Tracked.call numeral ilike rank) (MeetsOwnEntry numeral)
      ⟨⟨products, .empty, fresh⟩, fun _ => none⟩ calls) :
    AllSteps (World.call numeral ilike rank) (ListsCurrent numeral ilike rank)
      ⟨products, .empty, fresh⟩ calls := by
  have hlists : AllSteps (Tracked.call numeral ilike rank)
      (fun s c => ListsCurrent numeral ilike rank s.world c)
      ⟨⟨products, .empty, fresh⟩, fun _ => none⟩ calls :=
    h.of_invariant (I := Tracked.Coherent ilike rank) (fun s c t hs _ hst => hs.call hst)
      (fun s c hs hc => listsCurrent_of_coherent hs hc) Cache.coherent_empty
  refine AllSteps.of_map (π := Tracked.world) (fun s c w hw => ?_) hlists
  exact ⟨⟨w, s.fill numeral c⟩, by simp [Tracked.call, hw], rfl⟩

/-- The caller's texts of a listing. -/
def Call.Plain : Call → Prop
  | .list params => params.Plain
  | _ => True

/-- Keys were filled by plain queries of that key. -/
def Tracked.FilledPlain (numeral : ℚ → String) (s : Tracked) : Prop :=
  ∀ k q, s.filledBy k = some q → buildListCacheKey numeral q = k ∧ q.Plain

section Plain

variable {numeral : ℚ → String} {ilike : String → String → Bool} {rank : Uuid → ℕ}
  {s t : Tracked} {c : Call}

theorem Tracked.FilledPlain.call (hs : s.FilledPlain numeral) (hc : c.Plain)
    (h : s.call numeral ilike rank c = some t) : t.FilledPlain numeral := by
  obtain ⟨w, -, rfl⟩ := Option.map_eq_some_iff.mp h
  intro k q hq
  cases c with
  | list params =>
    simp only [fill] at hq
    split at hq
    · by_cases hk : k = buildListCacheKey numeral params
      · subst hk
        rw [Function.update_self] at hq
        cases hq
        exact ⟨rfl, hc⟩
      · rw [Function.update_of_ne hk] at hq
        exact hs k q hq
    · exact hs k q hq
  | create | update | findById | findPriceById | expire => exact hs k q hq

theorem Tracked.FilledPlain.meetsOwnEntry (hinj : Function.Injective numeral)
    (hcolon : ∀ x, ':' ∉ (numeral x).toList) (hstar : ∀ x, numeral x ≠ "*")
    (hs : s.FilledPlain numeral) (hw : s.Coherent ilike rank) (hc : c.Plain) :
    MeetsOwnEntry numeral s c := by
  cases c with
  | list params =>
    intro hne
    obtain ⟨e, he⟩ := Option.ne_none_iff_exists'.mp hne
    have hsource := hw ⟨_, isListKey_buildListCacheKey params⟩ e he
    obtain ⟨q, hq, -⟩ := Option.map_eq_some_iff.mp hsource
    obtain ⟨hkey, hplain⟩ := hs _ q hq
    exact ⟨q, hq, sameQuery_of_key hinj hcolon hstar hplain hc hkey⟩
  | create | update | findById | findPriceById | expire => trivial

end Plain

/-- Listings are right in any run whose categories and searches are plain. -/
theorem listings_current_of_plain {numeral : ℚ → String} (hinj : Function.Injective numeral)
    (hcolon : ∀ x, ':' ∉ (numeral x).toList) (hstar : ∀ x, numeral x ≠ "*")
    (ilike : String → String → Bool) (rank : Uuid → ℕ) (products : List Product) (fresh : Uuid)
    (calls : List Call) (h : ∀ c ∈ calls, c.Plain) :
    AllSteps (World.call numeral ilike rank) (ListsCurrent numeral ilike rank)
      ⟨products, .empty, fresh⟩ calls := by
  apply listings_tracked
  have hplain : AllSteps (Tracked.call numeral ilike rank) (fun _ c => c.Plain)
      ⟨⟨products, .empty, fresh⟩, fun _ => none⟩ calls :=
    allSteps_of_forall fun c hc _ => h c hc
  refine hplain.of_invariant (I := fun s => s.Coherent ilike rank ∧ s.FilledPlain numeral)
    ?_ ?_ ⟨Cache.coherent_empty, ?_⟩
  · exact fun s c t hs hc hst => ⟨hs.1.call hst, hs.2.call hc hst⟩
  · exact fun s c hs hc => hs.2.meetsOwnEntry hinj hcolon hstar hs.1 hc
  · rintro k q ⟨⟩

/--
From any table and an empty cache, every listing of a run is what the repository finds at
that moment if no listing meets an entry that a different query put under its key.
-/
theorem listings_current (numeral : ℚ → String) (ilike : String → String → Bool)
    (rank : Uuid → ℕ) (products : List Product) (fresh : Uuid) (calls : List Call)
    (h : AllSteps (Tracked.call numeral ilike rank) (MeetsOwnEntry numeral)
      ⟨⟨products, .empty, fresh⟩, fun _ => none⟩ calls) :
    AllSteps (World.call numeral ilike rank) (ListsCurrent numeral ilike rank)
      ⟨products, .empty, fresh⟩ calls :=
  listings_tracked h

def sampleQuery (category search : Option String) : ProductListParams where
  page := 1
  limit := 20
  category := category
  search := search
  minPrice := none
  maxPrice := none
  one_le_page := le_rfl
  one_le_limit := by norm_num
  limit_le := by norm_num

instance {p q : ProductListParams} : Decidable (p.SameQuery q) :=
  decidable_of_iff (p.page = q.page ∧ p.limit = q.limit ∧
      p.category.filter (· ≠ "") = q.category.filter (· ≠ "") ∧
      p.search.filter (· ≠ "") = q.search.filter (· ≠ "") ∧
      p.minPrice = q.minPrice ∧ p.maxPrice = q.maxPrice)
    ⟨fun ⟨h, h', h'', h₃, h₄, h₅⟩ => ⟨h, h', h'', h₃, h₄, h₅⟩,
      fun ⟨h, h', h'', h₃, h₄, h₅⟩ => ⟨h, h', h'', h₃, h₄, h₅⟩⟩

instance (s : Tracked) (c : Call) : Decidable (MeetsOwnEntry numberText s c) :=
  match c with
  | .list params => inferInstanceAs (Decidable
      (s.world.cache (buildListCacheKey numberText params) ≠ none →
        ∃ q ∈ s.filledBy (buildListCacheKey numberText params), q.SameQuery params))
  | .create _ _ | .update _ _ _ | .findById _ | .findPriceById _ | .expire _ => isTrue trivial

theorem office_listed_again :
    AllSteps (World.call numberText (fun _ _ => false) id)
      (ListsCurrent numberText (fun _ _ => false) id) ⟨[pen], .empty, 0⟩
      [.list (sampleQuery (some "office") none), .update lowerId rename ⟨1, false⟩,
        .list (sampleQuery (some "office") none), .list (sampleQuery (some "office") (some ""))] :=
  listings_current _ _ _ _ _ _ (by decide +kernel)

/-- A listing of the category `*` is answered with the one of all categories. -/
theorem star_listed_as_all :
    ¬ AllSteps (World.call numberText (fun _ _ => false) id)
      (ListsCurrent numberText (fun _ _ => false) id) ⟨[pen], .empty, 0⟩
      [.list (sampleQuery none none), .list (sampleQuery (some "*") none)] := by
  intro h
  have := (h.2 _ rfl).1
  simp only [ListsCurrent] at this
  exact absurd this (by decide +kernel)

end ProductService
