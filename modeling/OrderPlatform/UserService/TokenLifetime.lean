import OrderPlatform.UserService.Registration
import OrderPlatform.Wire.Numerals

/-! # The lifetime of an access token

The signer and the service read the duration of the access token from one setting, each
with a parser of its own. A pair is reported with the lifetime that the service read, and its
access token has the one the signer read.
-/

namespace UserService

open Access Wire

section Durations

/-- The units of a duration, in milliseconds. -/
def units : List (List String × ℕ) := [
  (["", "milliseconds", "millisecond", "msecs", "msec", "ms"], 1),
  (["seconds", "second", "secs", "sec", "s"], 1000),
  (["minutes", "minute", "mins", "min", "m"], 60000),
  (["hours", "hour", "hrs", "hr", "h"], 3600000),
  (["days", "day", "d"], 86400000),
  (["weeks", "week", "w"], 604800000),
  (["years", "year", "yrs", "yr", "y"], 31557600000)]

def unitMillis (unit : String) : Option ℕ :=
  (units.find? fun entry => unit ∈ entry.1).map Prod.snd

def lower (cs : List Char) : String := String.ofList (cs.map Char.toLower)

/-- A duration as it is written: a sign, a numeral, blanks and a unit. -/
structure Duration where
  negative : Bool
  number : Decimal
  blanks : ℕ
  unit : List Char

namespace Duration

def chars (d : Duration) : List Char :=
  (if d.negative then ['-'] else []) ++ d.number.chars ++ List.replicate d.blanks ' ' ++ d.unit

def value (d : Duration) : ℚ := if d.negative then -d.number.toRat else d.number.toRat

/-- The milliseconds of a duration whose numeral ends in a digit and whose unit there is. -/
def millis (d : Duration) : Option ℚ :=
  if d.number.tail = [] then none
  else (unitMillis (lower d.unit)).map fun m : ℕ => d.value * m

/-- A whole number without a sign. -/
def Plain (d : Duration) : Prop := d.negative = false ∧ d.number.fraction = none

instance (d : Duration) : Decidable d.Plain := inferInstanceAs (Decidable (_ ∧ _))

end Duration

def readUnsigned (negative : Bool) (cs : List Char) : Duration where
  negative := negative
  number := (Decimal.scan cs).1
  blanks := ((Decimal.scan cs).2.takeWhile (· = ' ')).length
  unit := (Decimal.scan cs).2.dropWhile (· = ' ')

/-- The parts of a text that `ms` takes for a duration. -/
def readDuration (s : String) : Duration :=
  match s.toList with
  | '-' :: cs => readUnsigned true cs
  | cs => readUnsigned false cs

/-- The milliseconds that the signer's `ms` makes of a text. -/
def ms (s : String) : Option ℚ := if 100 < s.length then none else (readDuration s).millis

/-- The seconds that the signer adds to the time of issue. -/
def lifetime (s : String) : Option ℤ := (ms s).map fun n => ⌊n / 1000⌋

def unitSeconds (unit : String) : ℕ :=
  match unit with
  | "" | "s" => 1
  | "m" => 60
  | "h" => 60 * 60
  | "d" => 60 * 60 * 24
  | _ => 0

/-- The service's own reading; the factor is zero for a text it does not match. -/
def parseDurationToSeconds (duration : String) : ℕ :=
  let cs := trim isSpace duration.toList
  let digits := cs.takeWhile Char.isDigit
  if digits = [] then 0
  else Decimal.digitsValue digits *
    unitSeconds (lower ((cs.dropWhile Char.isDigit).dropWhile isSpace))

/--
Both read the same seconds: the duration is a whole number of seconds, minutes, hours or
days, or it is less than a second and not a bare whole number other than zero.
-/
def ReadAlike (s : String) : Prop :=
  let d := readDuration s
  (d.Plain ∧ lower d.unit ∈ ["s", "m", "h", "d"]) ∨
    (d.Plain ∧ d.unit = [] → d.number.toRat = 0) ∧ ∀ n ∈ d.millis, 0 ≤ n ∧ n < 1000

variable {d : Duration} {s : String} {n : ℚ} {unit : String} {m : ℕ}

theorem chars_readUnsigned (negative : Bool) (cs : List Char) :
    (readUnsigned negative cs).chars = (if negative then ['-'] else []) ++ cs := by
  have hblanks (rest : List Char) : List.replicate (rest.takeWhile (· = ' ')).length ' ' =
      rest.takeWhile (· = ' ') :=
    (List.eq_replicate_of_mem fun c hc => of_decide_eq_true (mem_takeWhile hc)).symm
  rw [Duration.chars, readUnsigned, hblanks, List.append_assoc, List.append_assoc,
    List.takeWhile_append_dropWhile, Decimal.chars_scan]

theorem chars_readDuration (s : String) : (readDuration s).chars = s.toList := by
  unfold readDuration
  split
  · rename_i cs hcs
    rw [chars_readUnsigned, hcs]
    rfl
  · rw [chars_readUnsigned]
    rfl

theorem unitMillis_eq_some (h : unitMillis unit = some m) :
    ∃ entry ∈ units, unit ∈ entry.1 ∧ entry.2 = m := by
  obtain ⟨entry, hf, rfl⟩ := Option.map_eq_some_iff.mp h
  exact ⟨entry, List.mem_of_find?_eq_some hf, by simpa using List.find?_some hf, rfl⟩

theorem all_isLower_units :
    (units.all fun entry => entry.1.all fun unit => unit.toList.all Char.isLower) = true := by
  decide

theorem isLower_of_units : ∀ entry ∈ units, ∀ unit ∈ entry.1, ∀ c ∈ unit.toList,
    c.isLower = true := by
  simpa only [List.all_eq_true] using all_isLower_units

theorem letter_of_unit {cs : List Char} (h : unitMillis (lower cs) = some m) :
    ∀ c ∈ cs, c.isDigit = false ∧ isSpace c = false := by
  obtain ⟨entry, hentry, hunit, -⟩ := unitMillis_eq_some h
  intro c hc
  refine of_isLower_toLower (isLower_of_units entry hentry _ hunit _ ?_)
  rw [lower, String.toList_ofList]
  exact List.mem_map_of_mem hc

theorem of_millis (h : d.millis = some n) :
    d.number.tail ≠ [] ∧ ∃ m : ℕ, unitMillis (lower d.unit) = some m ∧ d.value * m = n := by
  unfold Duration.millis at h
  split at h
  · cases h
  · rename_i hne
    obtain ⟨m, hm, he⟩ := Option.map_eq_some_iff.mp h
    exact ⟨hne, m, hm, he⟩

/-- What follows the numeral once blanks at the end are trimmed away. -/
def Duration.suffix (d : Duration) : List Char :=
  if d.unit = [] then [] else List.replicate d.blanks ' ' ++ d.unit

theorem stops_suffix (hu : ∀ c ∈ d.unit, c.isDigit = false ∧ isSpace c = false) :
    Stops Char.isDigit d.suffix := by
  refine stops_of_forall fun c hc => ?_
  unfold Duration.suffix at hc
  split at hc
  · cases hc
  · rcases List.mem_append.mp hc with hc | hc
    · rw [List.eq_of_mem_replicate hc]
      decide
    · exact (hu c hc).1

theorem dropWhile_suffix (hu : ∀ c ∈ d.unit, c.isDigit = false ∧ isSpace c = false) :
    d.suffix.dropWhile isSpace = d.unit := by
  have hstop : Stops isSpace d.unit := stops_of_forall fun c hc => (hu c hc).2
  unfold Duration.suffix
  split
  · rename_i h
    exact h.symm
  · rw [List.dropWhile_append_of_pos, hstop.dropWhile]
    intro c hc
    rw [List.eq_of_mem_replicate hc]
    decide

/-- The service trims the blanks of a duration without a unit, and nothing else. -/
theorem trim_chars (hne : d.number.tail ≠ [])
    (hu : ∀ c ∈ d.unit, c.isDigit = false ∧ isSpace c = false) :
    trim isSpace d.chars =
      (if d.negative then ['-'] else []) ++ d.number.chars ++ d.suffix := by
  have hsplit : d.chars =
      [] ++ ((if d.negative then ['-'] else []) ++ d.number.chars ++ d.suffix) ++
        if d.unit = [] then List.replicate d.blanks ' ' else [] := by
    unfold Duration.chars Duration.suffix
    by_cases hunit : d.unit = [] <;> simp [hunit]
  rw [hsplit]
  refine trim_append (fun c hc => nomatch hc) (fun c hc => ?_) ?_ ?_
  · split at hc
    · rw [List.eq_of_mem_replicate hc]
      decide
    · cases hc
  · obtain ⟨c, cs, hc, hkind⟩ := Decimal.chars_eq_cons hne
    have hfirst : isSpace c = false := by
      rcases hkind with hd | rfl
      · exact isSpace_of_isDigit hd
      · decide
    cases d.negative with
    | true => exact stops_cons.mpr (by decide)
    | false =>
      rw [hc]
      exact stops_cons.mpr hfirst
  · by_cases hunit : d.unit = []
    · rw [Duration.suffix, if_pos hunit, List.append_nil, List.reverse_append,
        Decimal.chars_eq_tail, List.reverse_append, List.append_assoc]
      refine stops_append (fun c hc => isSpace_of_isDigit ?_) (by simpa using hne)
      exact Decimal.isDigit_of_mem_tail (List.mem_reverse.mp hc)
    · rw [Duration.suffix, if_neg hunit, List.reverse_append, List.reverse_append,
        List.append_assoc]
      exact stops_append (fun c hc => (hu c (List.mem_reverse.mp hc)).2) (by simpa using hunit)

theorem unitSeconds_point (cs : List Char) : unitSeconds (lower ('.' :: cs)) = 0 := by
  have hfirst : (lower ('.' :: cs)).toList.head? = some '.' := by simp [lower]
  unfold unitSeconds
  split
  case h_6 => rfl
  all_goals
    rename_i h
    rw [h] at hfirst
    exact absurd hfirst (by decide)

/-- The service reads a whole number without a sign in its own units, and all else as zero. -/
theorem parse_chars (hs : s.toList = d.chars) (hne : d.number.tail ≠ [])
    (hu : ∀ c ∈ d.unit, c.isDigit = false ∧ isSpace c = false) :
    parseDurationToSeconds s =
      if d.Plain then Decimal.digitsValue d.number.whole * unitSeconds (lower d.unit) else 0 := by
  have hstop := stops_suffix hu
  unfold parseDurationToSeconds
  rw [hs, trim_chars hne hu]
  cases hn : d.negative with
  | true =>
    have hplain : ¬ d.Plain := fun hp => Bool.noConfusion (hn.symm.trans hp.1)
    have hsign : Stops Char.isDigit ('-' :: d.number.chars ++ d.suffix) :=
      stops_cons.mpr (by decide)
    simp only [if_true, List.singleton_append, hsign.takeWhile, hplain, if_false]
  | false =>
    cases hf : d.number.fraction with
    | none =>
      have hplain : d.Plain := ⟨hn, hf⟩
      have hchars : d.number.chars = d.number.whole := by simp [Decimal.chars, hf]
      have hwhole : d.number.whole ≠ [] := by simpa [Decimal.tail, hf] using hne
      have htake : (d.number.whole ++ d.suffix).takeWhile Char.isDigit = d.number.whole := by
        rw [List.takeWhile_append_of_pos d.number.whole_digits, hstop.takeWhile, List.append_nil]
      have hdrop : (d.number.whole ++ d.suffix).dropWhile Char.isDigit = d.suffix := by
        rw [List.dropWhile_append_of_pos d.number.whole_digits, hstop.dropWhile]
      simp only [Bool.false_eq_true, if_false, List.nil_append, hchars, htake, hdrop, hwhole,
        dropWhile_suffix hu, hplain, if_true]
    | some ds =>
      have hplain : ¬ d.Plain := fun hp => Option.some_ne_none ds (hf.symm.trans hp.2)
      have hpoint (p : Char → Bool) (hp : p '.' = false) : Stops p ('.' :: (ds ++ d.suffix)) :=
        stops_cons.mpr hp
      have hdrop : (d.number.whole ++ '.' :: (ds ++ d.suffix)).dropWhile Char.isDigit =
          '.' :: (ds ++ d.suffix) := by
        rw [List.dropWhile_append_of_pos d.number.whole_digits, (hpoint _ (by decide)).dropWhile]
      have hchars : d.number.chars = d.number.whole ++ '.' :: ds := by simp [Decimal.chars, hf]
      simp only [Bool.false_eq_true, if_false, List.nil_append, hchars, List.append_assoc,
        List.cons_append, hdrop, (hpoint isSpace (by decide)).dropWhile, unitSeconds_point,
        mul_zero, ite_self, hplain]

theorem lower_eq_empty {cs : List Char} : lower cs = "" ↔ cs = [] := by
  rw [lower, ← String.toList_inj, String.toList_ofList]
  simp

/-- The units of the service are units of the signer; without a unit the two differ. -/
theorem unit_cases (h : unitMillis unit = some m) :
    (unit ∈ ["s", "m", "h", "d"] ∧ m = 1000 * unitSeconds unit) ∨
      (unit = "" ∧ m = 1 ∧ unitSeconds unit = 1) ∨
      (unit ∉ ["s", "m", "h", "d"] ∧ unit ≠ "" ∧ unitSeconds unit = 0) := by
  by_cases hu : unit ∈ ["s", "m", "h", "d"]
  · left
    refine ⟨hu, ?_⟩
    have hall : ∀ unit ∈ ["s", "m", "h", "d"],
        unitMillis unit = some (1000 * unitSeconds unit) := by
      decide
    exact Option.some.inj (h.symm.trans (hall unit hu))
  · by_cases he : unit = ""
    · subst he
      exact Or.inr (Or.inl ⟨rfl, Option.some.inj (h.symm.trans (by decide)), rfl⟩)
    · refine Or.inr (Or.inr ⟨hu, he, ?_⟩)
      simp only [List.mem_cons, List.not_mem_nil, or_false, not_or] at hu
      obtain ⟨hs, hm, hh, hd⟩ := hu
      unfold unitSeconds
      split <;> first | rfl | contradiction

theorem floor_eq_zero_iff : ((0 : ℕ) : ℤ) = ⌊n / 1000⌋ ↔ 0 ≤ n ∧ n < 1000 := by
  rw [Nat.cast_zero, eq_comm, Int.floor_eq_zero_iff, Set.mem_Ico]
  constructor
  · rintro ⟨h0, h1⟩
    exact ⟨by linarith, by linarith⟩
  · rintro ⟨h0, h1⟩
    exact ⟨by linarith, by linarith⟩

/-- A bare number counts milliseconds for the signer, and seconds for the service. -/
theorem natCast_eq_floor_iff (v : ℕ) : (v : ℤ) = ⌊(v : ℚ) / 1000⌋ ↔ v = 0 := by
  constructor
  · intro h
    have hle : ((v : ℤ) : ℚ) ≤ (v : ℚ) / 1000 := Int.le_floor.mp h.le
    have hv : (v : ℚ) ≤ 0 := by
      push_cast at hle
      linarith
    exact Nat.le_zero.mp (by exact_mod_cast hv)
  · rintro rfl
    simp

theorem parse_eq_lifetime_iff (h : ms s = some n) :
    (parseDurationToSeconds s : ℤ) = ⌊n / 1000⌋ ↔ ReadAlike s := by
  have hmillis : (readDuration s).millis = some n := by
    unfold ms at h
    split at h
    · cases h
    · exact h
  obtain ⟨hne, m, hunit, hn⟩ := of_millis hmillis
  have hparse := parse_chars (chars_readDuration s).symm hne (letter_of_unit hunit)
  unfold ReadAlike
  simp only [hmillis, Option.mem_some_iff, forall_eq']
  generalize readDuration s = d at hne hunit hn hparse ⊢
  by_cases hp : d.Plain
  · rw [if_pos hp] at hparse
    have hvalue : d.value = Decimal.digitsValue d.number.whole := by
      rw [Duration.value, hp.1, if_neg Bool.false_ne_true, Decimal.toRat_of_none hp.2]
    obtain ⟨hu, rfl⟩ | ⟨hu, rfl, hs⟩ | ⟨hu, hblank, hs⟩ := unit_cases hunit
    · -- The service's own units.
      refine iff_of_true ?_ (Or.inl ⟨hp, hu⟩)
      have hsame : n / 1000 =
          ((Decimal.digitsValue d.number.whole * unitSeconds (lower d.unit) : ℕ) : ℤ) := by
        rw [← hn, hvalue]
        push_cast
        ring
      rw [hparse, hsame, Int.floor_intCast]
    · -- A number without a unit.
      have hnone : d.unit = [] := lower_eq_empty.mp hu
      rw [hparse, hs, mul_one, ← hn, hvalue, Nat.cast_one, mul_one, natCast_eq_floor_iff,
        Decimal.toRat_of_none hp.2]
      constructor
      · intro hzero
        rw [hzero]
        exact Or.inr ⟨fun _ => Nat.cast_zero, by norm_num, by norm_num⟩
      · rintro (⟨-, hin⟩ | ⟨hzero, -⟩)
        · rw [hu] at hin
          exact absurd hin (by decide)
        · exact_mod_cast hzero ⟨hp, hnone⟩
    · -- A unit of the signer alone.
      rw [hparse, hs, mul_zero, floor_eq_zero_iff]
      have hnone : d.unit ≠ [] := fun he => hblank (lower_eq_empty.mpr he)
      simp [hu, hnone]
  · rw [if_neg hp] at hparse
    rw [hparse, floor_eq_zero_iff]
    simp [hp]

end Durations

/-- Settings whose durations the signer accepts, with the lifetimes it makes of them. -/
structure TokenSettings extends Config where
  accessDuration : String
  refreshDuration : String
  access_lifetime : lifetime accessDuration = some accessExpiresIn
  refresh_lifetime : lifetime refreshDuration = some refreshExpiresIn

structure AuthResponse extends AuthTokenPair where
  tokenType : String
  expiresIn : ℕ
  deriving DecidableEq, Repr

namespace TokenSettings

variable (settings : TokenSettings)

/-- `AuthApplicationService.issueTokenPair`, with the lifetime it reports. -/
def issueTokenPair (user : User) (issuedAt : ℤ) : AuthResponse where
  toAuthTokenPair := settings.toConfig.issueTokenPair user issuedAt
  tokenType := "Bearer"
  expiresIn := parseDurationToSeconds settings.accessDuration

variable {settings}

/--
The lifetime reported with a pair is that of its access token exactly when the signer and the
service read the configured duration alike.
-/
theorem expiresIn_issueTokenPair {user : User} {now : ℤ} :
    (settings.issueTokenPair user now).expiresIn =
        (settings.issueTokenPair user now).accessToken.expiresAt - now ↔
      ReadAlike settings.accessDuration := by
  obtain ⟨n, hn, hlifetime⟩ := Option.map_eq_some_iff.mp settings.access_lifetime
  have hexpires : (settings.issueTokenPair user now).accessToken.expiresAt - now =
      settings.accessExpiresIn := add_sub_cancel_left now settings.accessExpiresIn
  rw [hexpires, ← hlifetime, ← parse_eq_lifetime_iff hn]
  rfl

end TokenSettings

/-- Settings with the default durations but for that of the access token. -/
def settingsOf (accessDuration : String) (seconds : ℤ)
    (h : lifetime accessDuration = some seconds) : TokenSettings where
  internalJwtSecret := "internal-secret-0"
  jwtSecret := none
  accessExpiresIn := seconds
  refreshExpiresIn := 604800
  internal_length := by decide
  jwt_length := unset_length
  accessDuration := accessDuration
  refreshDuration := "7d"
  access_lifetime := h
  refresh_lifetime := by decide +kernel

def minutes : TokenSettings := settingsOf "15m" 900 (by decide +kernel)

def bare : TokenSettings := settingsOf "900" 0 (by decide +kernel)

example : lifetime "1w" = some 604800 ∧ parseDurationToSeconds "1w" = 0 := by decide +kernel

end UserService
