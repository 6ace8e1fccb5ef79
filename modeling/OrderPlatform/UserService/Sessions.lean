import OrderPlatform.UserService.TokenLifetime

/-! # Who is issued tokens

Users register, log in, renew their tokens and are updated, one call after another. A login
and a renewal look the account up, ask whether it is active, and check a password or a token,
each in an order of its own; either issues a pair exactly to an entitled account, and reports
a lifetime with it that need not be the token's.
-/

namespace UserService

open Access Runs Store Wire

/-- The fields of an update: each is left out, `null` or given. -/
structure UpdateUser where
  firstName : Option (Option String)
  lastName : Option (Option String)
  phone : Option (Option String)
  isActive : Option (Option Bool)
  deriving DecidableEq, Repr

inductive AuthCall
  | register (data : CreateUser) (hash : String)
  | login (email password : String)
  | renewToken (refreshToken : Token Claims)
  | update (id : String) (data : UpdateUser)
  deriving DecidableEq, Repr

/-- The queries of a call at which the database can fail. -/
inductive UserQuery
  | find | save
  deriving DecidableEq, Repr

/-- The clock of a call, and where the database fails it. -/
structure Moment where
  now : ℤ
  failAt : Option UserQuery
  deriving DecidableEq, Repr

inductive SessionError
  | create (e : CreateError)
  | refused (refusal : Refusal)
  | thrown (e : Thrown)
  deriving DecidableEq, Repr

inductive Answer
  | tokens (response : AuthResponse)
  | user (user : UserEntity)
  deriving DecidableEq, Repr

/-- The settings of the service, `bcrypt.compare`, and the text the key column reads. -/
structure AuthService where
  settings : TokenSettings
  compare : String → String → Bool
  uuidColumn : String → Option String

def invalidCredentials : SessionError := .refused (.unauthorized "Invalid email or password")

def invalidRefreshToken : SessionError := .refused (.unauthorized "Invalid refresh token")

def deactivated : SessionError := .refused (.unauthorized "Account is deactivated")

def UserEntity.key (user : UserEntity) : String := user.id

/-- `UserRepository.save` of a row that is there. -/
def Users.save (users : Users) (user : UserEntity) : Users :=
  { users with rows := Store.update UserEntity.key user.key (fun _ => user) users.rows }

/-- What `Object.assign` and `save` store; a column that may not be `null` refuses it. -/
def UpdateUser.assign (data : UpdateUser) (user : UserEntity) : Option UserEntity := do
  let firstName ← data.firstName.getD (some user.firstName)
  let lastName ← data.lastName.getD (some user.lastName)
  let isActive ← data.isActive.getD (some user.isActive)
  return { user with
    firstName := firstName
    lastName := lastName
    phone := data.phone.getD user.phone
    isActive := isActive }

/-- `UserApplicationService.create`, run without interruption. -/
def Users.register (users : Users) (data : CreateUser) (hash : String)
    (failAt : Option UserQuery) : Users × Except SessionError UserEntity :=
  if failAt = some .find then (users, .error (.thrown .database))
  else
    match users.findByEmail data.email with
    | some _ => (users, .error (.create emailTaken))
    | none =>
      if failAt = some .save then (users, .error (.thrown .database))
      else
        match users.create data ((data.password.filter (· ≠ "")).map fun _ => hash) with
        | .ok (users, user) => (users, .ok user)
        | .error e => (users, .error (.create (.ofQuery e)))

/-- `UserApplicationService.findByEmail`. -/
def Users.findUserByEmail (users : Users) (email : String) (m : Moment) :
    Except SessionError UserEntity :=
  if m.failAt = some .find then .error (.thrown .database)
  else
    match users.findByEmail email with
    | none => .error (.thrown (.notFound ("User with email " ++ email ++ " not found")))
    | some user => .ok user

namespace AuthService

variable (s : AuthService)

/-- `UserApplicationService.findById`; an identifier the column cannot read is an error. -/
def findById (users : Users) (id : String) (m : Moment) : Except SessionError UserEntity :=
  if m.failAt = some .find then .error (.thrown .database)
  else
    match s.uuidColumn id with
    | none => .error (.thrown .database)
    | some key =>
      match lookup UserEntity.key key users.rows with
      | none => .error (.thrown (.notFound ("User " ++ id ++ " not found")))
      | some user => .ok user

/-- `UserApplicationService.update`. -/
def update (users : Users) (id : String) (data : UpdateUser) (m : Moment) :
    Users × Except SessionError UserEntity :=
  match s.findById users id m with
  | .error e => (users, .error e)
  | .ok user =>
    match if m.failAt = some .save then none else data.assign user with
    | none => (users, .error (.thrown .database))
    | some user => (users.save user, .ok user)

/-- `AuthApplicationService.login`; whatever the lookup throws counts as nobody found. -/
def login (users : Users) (email password : String) (m : Moment) :
    Except SessionError AuthResponse :=
  match users.findUserByEmail email m with
  | .error _ => .error invalidCredentials
  | .ok user =>
    match user.passwordHash.filter (· ≠ "") with
    | none => .error invalidCredentials
    | some passwordHash =>
      if user.isActive then
        if s.compare password passwordHash then
          .ok (s.settings.issueTokenPair user.toUser m.now)
        else .error invalidCredentials
      else .error deactivated

/-- `AuthApplicationService.resolveRefreshToken`, with the errors of its lookup. -/
def resolveRefreshToken (users : Users) (refreshToken : Token Claims) (m : Moment) :
    Except SessionError UserEntity :=
  match refreshToken.verify s.settings.signingSecret m.now with
  | none => .error invalidRefreshToken
  | some payload =>
    match payload.sub.filter (· ≠ "") with
    | none => .error invalidRefreshToken
    | some sub =>
      if payload.type ≠ some "refresh" then .error invalidRefreshToken
      else
        match s.findById users sub m with
        | .error e => .error e
        | .ok user => if user.isActive then .ok user else .error deactivated

/-- `AuthApplicationService.renewToken`. -/
def renewToken (users : Users) (refreshToken : Token Claims) (m : Moment) :
    Except SessionError AuthResponse :=
  (s.resolveRefreshToken users refreshToken m).map fun user =>
    s.settings.issueTokenPair user.toUser m.now

def serve (users : Users) (call : AuthCall) (m : Moment) : Users × Except SessionError Answer :=
  match call with
  | .register data hash =>
    let r := users.register data hash m.failAt
    (r.1, r.2.map fun user => .tokens (s.settings.issueTokenPair user.toUser m.now))
  | .login email password => (users, (s.login users email password m).map .tokens)
  | .renewToken refreshToken => (users, (s.renewToken users refreshToken m).map .tokens)
  | .update id data =>
    let r := s.update users id data m
    (r.1, r.2.map .user)

end AuthService

/-- A call in its turn: the table it finds, its answer and the table it leaves. -/
structure Turn where
  before : Users
  call : AuthCall
  moment : Moment
  answer : Except SessionError Answer
  after : Users

/-- The turns of calls made one after another. -/
def AuthService.history (s : AuthService) : Users → List (AuthCall × Moment) → List Turn
  | _, [] => []
  | users, (call, m) :: calls =>
    let r := s.serve users call m
    ⟨users, call, m, r.2, r.1⟩ :: s.history r.1 calls

/--
The row is entitled to the tokens the call asks for: it is active, and the call has its
password, or a refresh token that verifies and names it.
-/
def AuthService.Entitled (s : AuthService) (users : Users) (m : Moment) (row : UserEntity) :
    AuthCall → Prop
  | .login email password =>
    users.findByEmail email = some row ∧ row.isActive = true ∧
      ∃ hash, row.passwordHash = some hash ∧ hash ≠ "" ∧ s.compare password hash = true
  | .renewToken refreshToken =>
    ∃ claims sub, refreshToken.verify s.settings.signingSecret m.now = some claims ∧
      claims.type = some "refresh" ∧ claims.sub = some sub ∧ sub ≠ "" ∧
      s.uuidColumn sub = some row.key ∧ lookup UserEntity.key row.key users.rows = some row ∧
      row.isActive = true
  | _ => False

def AuthCall.asksForTokens : AuthCall → Bool
  | .login _ _ | .renewToken _ => true
  | _ => false

/--
A login or a renewal changes nothing. It issues a pair for an entitled row of the table, or it
throws, and then no row is entitled unless the database failed.
-/
def Turn.Proper (s : AuthService) (t : Turn) : Prop :=
  t.call.asksForTokens = true → t.after = t.before ∧
    ((∃ row ∈ t.before.rows, s.Entitled t.before t.moment row t.call ∧
        t.answer = .ok (.tokens (s.settings.issueTokenPair row.toUser t.moment.now))) ∨
      ((∃ e, t.answer = .error e) ∧
        (t.moment.failAt ≠ some .find → ∀ row, ¬ s.Entitled t.before t.moment row t.call)))

section Calls

variable {s : AuthService} {users : Users} {email password id : String} {m : Moment}
  {token : Token Claims} {row : UserEntity} {response : AuthResponse}

theorem findUserByEmail_eq_ok : users.findUserByEmail email m = .ok row ↔
    m.failAt ≠ some .find ∧ users.findByEmail email = some row := by
  unfold Users.findUserByEmail
  split
  · rename_i h
    simp [h]
  · rename_i h
    cases users.findByEmail email <;> simp [h]

theorem findById_eq_ok : s.findById users id m = .ok row ↔
    m.failAt ≠ some .find ∧ s.uuidColumn id = some row.key ∧
      lookup UserEntity.key row.key users.rows = some row := by
  unfold AuthService.findById
  split
  · rename_i h
    simp [h]
  · rename_i h
    cases hc : s.uuidColumn id with
    | none => simp
    | some key =>
      dsimp only
      cases hl : lookup UserEntity.key key users.rows with
      | none =>
        simp only [reduceCtorEq, Option.some.injEq, false_iff, not_and]
        rintro - rfl hr
        rw [hl] at hr
        cases hr
      | some user =>
        obtain ⟨-, rfl⟩ := lookup_eq_some hl
        simp only [Except.ok.injEq, Option.some.injEq]
        constructor
        · rintro rfl
          exact ⟨h, rfl, hl⟩
        · rintro ⟨-, hk, hr⟩
          rw [← hk, hl] at hr
          exact Option.some.inj hr

theorem filter_hash {passwordHash : Option String} {hash : String} :
    passwordHash.filter (· ≠ "") = some hash ↔ passwordHash = some hash ∧ hash ≠ "" := by
  simp [Option.filter_eq_some_iff]

/-- A login succeeds exactly for the row it is entitled by, unless the lookup fails. -/
theorem login_eq_ok : s.login users email password m = .ok response ↔
    m.failAt ≠ some .find ∧ ∃ row, s.Entitled users m row (.login email password) ∧
      response = s.settings.issueTokenPair row.toUser m.now := by
  constructor
  · intro h
    unfold AuthService.login at h
    split at h
    · cases h
    · rename_i user hu
      obtain ⟨hm, hu⟩ := findUserByEmail_eq_ok.mp hu
      split at h
      · cases h
      · rename_i hash hh
        obtain ⟨hh, hne⟩ := filter_hash.mp hh
        split at h
        · rename_i hactive
          split at h
          · rename_i hcompare
            cases h
            exact ⟨hm, user, ⟨hu, hactive, hash, hh, hne, hcompare⟩, rfl⟩
          · cases h
        · cases h
  · rintro ⟨hm, row, ⟨hu, hactive, hash, hh, hne, hcompare⟩, rfl⟩
    simp only [AuthService.login, findUserByEmail_eq_ok.mpr ⟨hm, hu⟩,
      filter_hash.mpr ⟨hh, hne⟩, hactive, hcompare, if_true]

theorem resolveRefreshToken_eq_ok : s.resolveRefreshToken users token m = .ok row ↔
    m.failAt ≠ some .find ∧ s.Entitled users m row (.renewToken token) := by
  constructor
  · intro h
    unfold AuthService.resolveRefreshToken at h
    split at h
    · cases h
    · rename_i claims hv
      split at h
      · cases h
      · rename_i sub hsub
        obtain ⟨hsub, hne⟩ := filter_hash.mp hsub
        split at h
        · cases h
        · rename_i htype
          split at h
          · cases h
          · rename_i user hu
            obtain ⟨hm, hc, hl⟩ := findById_eq_ok.mp hu
            split at h
            · rename_i hactive
              cases h
              exact ⟨hm, claims, sub, hv, not_not.mp htype, hsub, hne, hc, hl, hactive⟩
            · cases h
  · rintro ⟨hm, claims, sub, hv, htype, hsub, hne, hc, hl, hactive⟩
    simp only [AuthService.resolveRefreshToken, hv, filter_hash.mpr ⟨hsub, hne⟩, htype,
      findById_eq_ok.mpr ⟨hm, hc, hl⟩, hactive, ne_eq, not_true_eq_false, if_true, if_false]

theorem renewToken_eq_ok : s.renewToken users token m = .ok response ↔
    m.failAt ≠ some .find ∧ ∃ row, s.Entitled users m row (.renewToken token) ∧
      response = s.settings.issueTokenPair row.toUser m.now := by
  rw [AuthService.renewToken, map_eq_ok]
  simp only [resolveRefreshToken_eq_ok, and_assoc, exists_and_left]
  refine and_congr_right fun _ => exists_congr fun row => and_congr_right fun _ => ?_
  exact eq_comm

/-- How a call of `create` ends, as the callers of `register` are told. -/
def CreateCall.ended : Except CreateError UserEntity → CreateCall
  | .ok user => .returned user
  | .error e => .threw e

/-- A call of `create` that runs alone through its steps ends as `register` does. -/
theorem createStep_alone (users : Users) (data : CreateUser) (hash : String) :
    ∃ n result, (users.register data hash none).2 = result.mapError .create ∧
      exec (Machine.solo createStep) (users, .looking data) (List.replicate n hash) =
        some ((users.register data hash none).1, .ended result) := by
  cases hf : users.findByEmail data.email with
  | some user =>
    have hlook : createStep users (.looking data) hash = some (users, .threw emailTaken) := by
      simp only [createStep, hf]
    have hreg : users.register data hash none = (users, .error (.create emailTaken)) := by
      simp only [Users.register, hf, reduceCtorEq, if_false]
    refine ⟨1, .error emailTaken, by rw [hreg]; rfl, ?_⟩
    rw [hreg]
    exact exec_cons_eq_some.mpr ⟨_, hlook, rfl⟩
  | none =>
    have hcreate (passwordHash : Option String) : users.create data passwordHash =
        .ok (⟨users.rows ++ [data.entity users.fresh passwordHash], users.fresh + 1⟩,
          data.entity users.fresh passwordHash) := by
      simp [Users.create, hf]
    have hinsert (passwordHash : Option String) :
        createStep users (.inserting data passwordHash) hash =
          some (⟨users.rows ++ [data.entity users.fresh passwordHash], users.fresh + 1⟩,
            .returned (data.entity users.fresh passwordHash)) := by
      simp only [createStep, hcreate]
    cases hp : data.password.filter (· ≠ "") with
    | none =>
      have hlook : createStep users (.looking data) hash = some (users, .inserting data none) := by
        simp only [createStep, hf, hp]
      refine ⟨2, .ok (data.entity users.fresh none), ?_, ?_⟩ <;>
        simp only [Users.register, hf, hp, hcreate, reduceCtorEq, if_false, Option.map_none]
      · rfl
      · exact exec_cons_eq_some.mpr ⟨_, hlook, exec_cons_eq_some.mpr ⟨_, hinsert none, rfl⟩⟩
    | some password =>
      have hlook : createStep users (.looking data) hash =
          some (users, .hashing data password) := by
        simp only [createStep, hf, hp]
      refine ⟨3, .ok (data.entity users.fresh (some hash)), ?_, ?_⟩ <;>
        simp only [Users.register, hf, hp, hcreate, reduceCtorEq, if_false, Option.map_some]
      · rfl
      · exact exec_cons_eq_some.mpr ⟨_, hlook, exec_cons_eq_some.mpr
          ⟨_, rfl, exec_cons_eq_some.mpr ⟨_, hinsert (some hash), rfl⟩⟩⟩

theorem mem_of_entitled {call : AuthCall} (h : s.Entitled users m row call) :
    row ∈ users.rows := by
  cases call with
  | login email password => exact (lookup_eq_some h.1).1
  | renewToken token =>
    obtain ⟨claims, sub, -, -, -, -, -, hl, -⟩ := h
    exact (lookup_eq_some hl).1
  | register data hash | update id data => exact h.elim

/-- A call whose successes are the pairs of entitled rows issues one of them or throws. -/
theorem issues_or_throws {call : AuthCall} {result : Except SessionError AuthResponse}
    (h : ∀ response, result = .ok response ↔ m.failAt ≠ some .find ∧ ∃ row,
      s.Entitled users m row call ∧ response = s.settings.issueTokenPair row.toUser m.now) :
    (∃ row ∈ users.rows, s.Entitled users m row call ∧ result.map Answer.tokens =
        .ok (.tokens (s.settings.issueTokenPair row.toUser m.now))) ∨
      ((∃ e, result.map Answer.tokens = .error e) ∧
        (m.failAt ≠ some .find → ∀ row, ¬ s.Entitled users m row call)) := by
  cases result with
  | ok response =>
    obtain ⟨-, row, hrow, rfl⟩ := (h response).mp rfl
    exact Or.inl ⟨row, mem_of_entitled hrow, hrow, rfl⟩
  | error e =>
    refine Or.inr ⟨⟨e, rfl⟩, fun hm row hrow => ?_⟩
    cases (h _).mpr ⟨hm, row, hrow, rfl⟩

/-- Every call that answers with tokens answers with a fresh pair for some user. -/
theorem issued_of_serve {call : AuthCall}
    (h : (s.serve users call m).2 = .ok (.tokens response)) :
    ∃ user, response = s.settings.issueTokenPair user m.now := by
  cases call with
  | register data hash =>
    obtain ⟨user, -, hpair⟩ := map_eq_ok.mp h
    cases hpair
    exact ⟨user.toUser, rfl⟩
  | login email password =>
    obtain ⟨pair, hlogin, hpair⟩ := map_eq_ok.mp h
    obtain ⟨-, row, -, rfl⟩ := login_eq_ok.mp hlogin
    cases hpair
    exact ⟨row.toUser, rfl⟩
  | renewToken refreshToken =>
    obtain ⟨pair, hrenew, hpair⟩ := map_eq_ok.mp h
    obtain ⟨-, row, -, rfl⟩ := renewToken_eq_ok.mp hrenew
    cases hpair
    exact ⟨row.toUser, rfl⟩
  | update id data =>
    obtain ⟨user, -, hpair⟩ := map_eq_ok.mp h
    cases hpair

/-- The refresh endpoint, the sibling of the guards, takes no token of another type. -/
theorem accessToken_not_renewed {user : User} {issuedAt : ℤ} :
    s.renewToken users (s.settings.issueTokenPair user issuedAt).accessToken m ≠
      .ok response := by
  intro h
  obtain ⟨-, row, ⟨claims, sub, hv, htype, -⟩, -⟩ := renewToken_eq_ok.mp h
  obtain ⟨-, rfl⟩ := Token.verify_eq_some.mp hv
  exact absurd (Option.some.inj htype) (by decide)

theorem proper_serve (s : AuthService) (users : Users) (call : AuthCall) (m : Moment) :
    Turn.Proper s ⟨users, call, m, (s.serve users call m).2, (s.serve users call m).1⟩ := by
  intro hc
  cases call with
  | login email password => exact ⟨rfl, issues_or_throws fun response => login_eq_ok⟩
  | renewToken token => exact ⟨rfl, issues_or_throws fun response => renewToken_eq_ok⟩
  | register data hash | update id data => cases hc

end Calls

/-- The service under its settings, with a hash that the password is read off. -/
def serviceOf (settings : TokenSettings) : AuthService where
  settings := settings
  compare password hash := hash = "hash of " ++ password
  uuidColumn id := some id

def sampleService : AuthService := serviceOf minutes

def janeRegisters : AuthCall :=
  .register ⟨"jane@example.com", "Jane", "Doe", none, some "password123"⟩ "hash of password123"

/--
In every sequence of calls, from every table: a login issues a pair only for an active row
whose stored hash matches the password, a renewal only for the active row that a verified
refresh token names, and every other such call throws and changes nothing.
-/
theorem issued_to_entitled (s : AuthService) (users : Users) (calls : List (AuthCall × Moment)) :
    ∀ t ∈ s.history users calls, t.Proper s := by
  induction calls generalizing users with
  | nil => exact fun t ht => nomatch ht
  | cons c calls ih =>
    obtain ⟨call, m⟩ := c
    intro t ht
    rcases List.mem_cons.mp ht with rfl | ht
    · exact proper_serve s users call m
    · exact ih _ t ht

/-- Jane registers, is deactivated and logs in with her password and without. -/
def sampleCalls : List (AuthCall × Moment) := [
  (janeRegisters, ⟨0, none⟩),
  (.login "jane@example.com" "password123", ⟨1, none⟩),
  (.login "jane@example.com" "password124", ⟨2, none⟩),
  (.update "0" ⟨none, none, none, some (some false)⟩, ⟨3, none⟩),
  (.login "jane@example.com" "password123", ⟨4, none⟩)]

example : (sampleService.history ⟨[], 0⟩ sampleCalls).map (fun t => t.answer.isOk) =
    [true, true, false, true, false] := by decide +kernel

theorem sample_proper : ∃ t ∈ sampleService.history ⟨[], 0⟩ sampleCalls,
    t.call = .login "jane@example.com" "password123" ∧ t.Proper sampleService :=
  have ht := List.mem_cons_of_mem _ List.mem_cons_self
  ⟨_, ht, rfl, issued_to_entitled sampleService ⟨[], 0⟩ sampleCalls _ ht⟩

end UserService
