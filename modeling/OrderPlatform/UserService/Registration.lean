import OrderPlatform.Runs.Pool
import OrderPlatform.Store.Table
import OrderPlatform.UserService.Auth
import OrderPlatform.Wire.Values

/-! # Registering a user

`create` looks the email up, hashes the password and inserts the user, in three steps that
other calls can come between. A taken email is noticed by the lookup, or else by the unique
constraint of the table; of any number of calls with one email, one wins.
-/

namespace UserService

open Runs Store Wire

structure CreateUser where
  email : String
  firstName : String
  lastName : String
  phone : Option String
  password : Option String
  deriving DecidableEq, Repr

/-- A row of the users table. -/
structure UserEntity extends User where
  email : String
  phone : Option String
  firstName : String
  lastName : String
  passwordHash : Option String
  deriving DecidableEq, Repr

/-- The users table, and the next identifier its key draws. -/
structure Users where
  rows : List UserEntity
  fresh : Uuid

structure QueryError where
  code : String
  deriving DecidableEq, Repr

inductive CreateError
  | conflict (message : String)
  | query (e : QueryError)
  deriving DecidableEq, Repr

def Users.findByEmail (users : Users) (email : String) : Option UserEntity :=
  lookup UserEntity.email email users.rows

def CreateUser.entity (data : CreateUser) (id : Uuid) (passwordHash : Option String) :
    UserEntity where
  id := toString id
  isActive := true
  email := data.email
  phone := data.phone
  firstName := data.firstName
  lastName := data.lastName
  passwordHash := passwordHash

/-- The insert of `UserRepository.create`; a violation of the unique email changes nothing. -/
def Users.create (users : Users) (data : CreateUser) (passwordHash : Option String) :
    Except QueryError (Users × UserEntity) :=
  if (users.findByEmail data.email).isSome then .error ⟨"23505"⟩
  else
    let user := data.entity users.fresh passwordHash
    .ok (⟨users.rows ++ [user], users.fresh + 1⟩, user)

/-- A call of `UserApplicationService.create`, before one of its steps. -/
inductive CreateCall
  | looking (data : CreateUser)
  | hashing (data : CreateUser) (password : String)
  | inserting (data : CreateUser) (passwordHash : Option String)
  | returned (user : UserEntity)
  | threw (e : CreateError)
  deriving DecidableEq, Repr

def emailTaken : CreateError := .conflict "A user with this email already exists"

/-- What the `catch` around the insert throws. -/
def CreateError.ofQuery (e : QueryError) : CreateError :=
  if e.code = "23505" then emailTaken else .query e

/-- One step of a call, given the hash that bcrypt computes. -/
def createStep : Machine Users CreateCall String
  | users, .looking data, _ =>
    some (users,
      match users.findByEmail data.email with
      | some _ => .threw emailTaken
      | none =>
        match data.password.filter (· ≠ "") with
        | some password => .hashing data password
        | none => .inserting data none)
  | users, .hashing data _, hash => some (users, .inserting data (some hash))
  | users, .inserting data passwordHash, _ =>
    match users.create data passwordHash with
    | .ok (users, user) => some (users, .returned user)
    | .error e => some (users, .threw (.ofQuery e))
  | _, .returned _, _ => none
  | _, .threw _, _ => none

def CreateCall.finished : CreateCall → Bool
  | .returned _ => true
  | .threw _ => true
  | _ => false

/-- The call is on its way to register the email. -/
def CreateCall.Asks (email : String) : CreateCall → Prop
  | .looking data => data.email = email
  | .hashing data _ => data.email = email
  | .inserting data _ => data.email = email
  | _ => False

def Users.Taken (users : Users) (email : String) : Prop := ∃ row ∈ users.rows, row.email = email

variable {users users' : Users} {email hash : String} {c c' : CreateCall}

theorem isSome_findByEmail : (users.findByEmail email).isSome = true ↔ users.Taken email := by
  simp [Users.findByEmail, lookup, Users.Taken]

/-- All a step of a call for the email can do. -/
inductive CreateEffect (users : Users) (email : String) : Users → CreateCall → Prop
  | moved (c' : CreateCall) (asks : c'.Asks email) : CreateEffect users email users c'
  | refused (taken : users.Taken email) : CreateEffect users email users (.threw emailTaken)
  | stored (user : UserEntity) (free : ¬ users.Taken email) (asked : user.email = email) :
    CreateEffect users email ⟨users.rows ++ [user], users.fresh + 1⟩ (.returned user)

theorem createStep_effect (hc : c.Asks email) (h : createStep users c hash = some (users', c')) :
    CreateEffect users email users' c' := by
  cases c with
  | looking data =>
    obtain rfl : data.email = email := hc
    cases hf : users.findByEmail data.email with
    | some row =>
      simp only [createStep, hf, Option.some.injEq, Prod.mk.injEq] at h
      obtain ⟨rfl, rfl⟩ := h
      exact .refused (isSome_findByEmail.mp (by rw [hf]; rfl))
    | none =>
      simp only [createStep, hf, Option.some.injEq, Prod.mk.injEq] at h
      obtain ⟨rfl, rfl⟩ := h
      refine .moved _ ?_
      split <;> rfl
  | hashing data password =>
    cases h
    exact .moved _ hc
  | inserting data passwordHash =>
    obtain rfl : data.email = email := hc
    by_cases ht : users.Taken data.email
    · have hcreate : users.create data passwordHash = .error ⟨"23505"⟩ :=
        if_pos (isSome_findByEmail.mpr ht)
      simp only [createStep, hcreate, Option.some.injEq, Prod.mk.injEq] at h
      obtain ⟨rfl, rfl⟩ := h
      exact .refused ht
    · have hcreate : users.create data passwordHash =
          .ok (⟨users.rows ++ [data.entity users.fresh passwordHash], users.fresh + 1⟩,
            data.entity users.fresh passwordHash) :=
        if_neg (mt isSome_findByEmail.mp ht)
      simp only [createStep, hcreate, Option.some.injEq, Prod.mk.injEq] at h
      obtain ⟨rfl, rfl⟩ := h
      exact .stored _ ht rfl
  | returned user => cases h
  | threw e => cases h

section Race

variable {Id : Type} [DecidableEq Id] {p q : Pool Users CreateCall Id} {a : Id × String}

/-- Every call is about to look its email up. -/
def requested (users : Users) (data : Id → CreateUser) : Pool Users CreateCall Id :=
  ⟨users, fun i => .looking (data i)⟩

/-- The call has not succeeded: it is on its way, or was told that the email is taken. -/
def CreateCall.Beaten (email : String) (c : CreateCall) : Prop :=
  c.Asks email ∨ c = .threw emailTaken

/-- How far the calls for one email have come. -/
inductive Race (users : Users) (email : String) (p : Pool Users CreateCall Id) : Prop
  | taken (ht : users.Taken email) (rows : p.store.rows = users.rows)
    (calls : ∀ i, (p.calls i).Beaten email)
  | undecided (ht : ¬ users.Taken email) (rows : p.store.rows = users.rows)
    (calls : ∀ i, (p.calls i).Asks email)
  | won (i : Id) (user : UserEntity) (ht : ¬ users.Taken email)
    (rows : p.store.rows = users.rows ++ [user]) (asked : user.email = email)
    (winner : p.calls i = .returned user) (calls : ∀ j, j ≠ i → (p.calls j).Beaten email)

theorem CreateCall.Beaten.asks (hc : c.Beaten email)
    (h : createStep users c hash = some (users', c')) : c.Asks email := by
  rcases hc with hc | rfl
  · exact hc
  · cases h

theorem Users.taken_congr (h : users'.rows = users.rows) :
    users'.Taken email ↔ users.Taken email := by
  rw [Taken, Taken, h]

theorem Race.act (hp : Race users email p) (h : p.act createStep a = some q) :
    Race users email q := by
  obtain ⟨s', c', hstep, rfl⟩ := Pool.act_eq_some.mp h
  cases hp with
  | taken ht rows calls =>
    have ht' : p.store.Taken email := (Users.taken_congr rows).mpr ht
    cases createStep_effect ((calls a.1).asks hstep) hstep with
    | moved _ asks => exact .taken ht rows (forall_update (.inl asks) calls)
    | refused => exact .taken ht rows (forall_update (.inr rfl) calls)
    | stored user free => exact absurd ht' free
  | undecided ht rows calls =>
    have ht' : ¬ p.store.Taken email := mt (Users.taken_congr rows).mp ht
    cases createStep_effect (calls a.1) hstep with
    | moved _ asks => exact .undecided ht rows (forall_update asks calls)
    | refused taken => exact absurd taken ht'
    | stored user free asked =>
      refine .won a.1 user ht (congrArg (· ++ [user]) rows) asked (Function.update_self ..) ?_
      intro j hj
      dsimp only
      rw [Function.update_of_ne hj]
      exact .inl (calls j)
  | won i user ht rows asked winner calls =>
    have ht' : p.store.Taken email :=
      ⟨user, rows ▸ List.mem_append_right _ List.mem_cons_self, asked⟩
    have hi : a.1 ≠ i := by
      intro he
      rw [he, winner] at hstep
      cases hstep
    have hrest (hc' : c'.Beaten email) (j : Id) (hj : j ≠ i) :
        (Function.update p.calls a.1 c' j).Beaten email := by
      by_cases hja : j = a.1
      · rw [hja, Function.update_self]
        exact hc'
      · rw [Function.update_of_ne hja]
        exact calls j hj
    have hwinner : Function.update p.calls a.1 c' i = .returned user := by
      rw [Function.update_of_ne hi.symm, winner]
    cases createStep_effect ((calls a.1 hi).asks hstep) hstep with
    | moved _ asks => exact .won i user ht rows asked hwinner (hrest (.inl asks))
    | refused => exact .won i user ht rows asked hwinner (hrest (.inr rfl))
    | stored user free => exact absurd ht' free

theorem Race.exec {data : Id → CreateUser} {as : List (Id × String)}
    (hdata : ∀ i, (data i).email = email)
    (h : Runs.exec (Pool.act createStep) (requested users data) as = some p) :
    Race users email p := by
  refine exec_invariant (fun _ _ _ => Race.act) ?_ h
  by_cases ht : users.Taken email
  · exact .taken ht rfl fun i => .inl (hdata i)
  · exact .undecided ht rfl hdata

omit [DecidableEq Id] in
/-- No interleaving of calls for one email makes two users share an email. -/
theorem Race.nodup (hn : (users.rows.map UserEntity.email).Nodup) (hp : Race users email p) :
    (p.store.rows.map UserEntity.email).Nodup := by
  cases hp with
  | taken _ rows => rwa [rows]
  | undecided _ rows => rwa [rows]
  | won i user ht rows asked =>
    rw [rows]
    exact nodup_map_concat hn fun row hrow he => ht ⟨row, hrow, he.trans asked⟩

theorem CreateCall.Beaten.eq (hc : c.Beaten email) (hf : c.finished = true) :
    c = .threw emailTaken := by
  rcases hc with hc | rfl
  · cases c with
    | returned user => exact hc.elim
    | threw e => exact hc.elim
    | _ => cases hf
  · rfl

/-- The steps a call still has before it. -/
def CreateCall.rank : CreateCall → ℕ
  | .looking _ => 3
  | .hashing _ _ => 2
  | .inserting _ _ => 1
  | .returned _ => 0
  | .threw _ => 0

theorem rank_createStep (h : createStep users c hash = some (users', c')) : c'.rank < c.rank := by
  cases c with
  | looking data =>
    simp only [createStep, Option.some.injEq, Prod.mk.injEq] at h
    obtain ⟨-, rfl⟩ := h
    split
    · simp [CreateCall.rank]
    · split <;> simp [CreateCall.rank]
  | hashing data password =>
    cases h
    simp [CreateCall.rank]
  | inserting data passwordHash =>
    unfold createStep at h
    dsimp only at h
    split at h <;> cases h <;> simp [CreateCall.rank]
  | returned user => cases h
  | threw e => cases h

/-- A call that has not ended can take its next step whatever the table holds. -/
theorem createStep_goes (users : Users) (hc : ¬ c.finished = true) (hash : String) :
    ∃ users' c', createStep users c hash = some (users', c') := by
  cases c with
  | looking data => exact ⟨_, _, rfl⟩
  | hashing data password => exact ⟨_, _, rfl⟩
  | inserting data passwordHash =>
    cases h : users.create data passwordHash with
    | ok r => exact ⟨r.1, .returned r.2, by simp [createStep, h]⟩
    | error e => exact ⟨users, .threw (.ofQuery e), by simp [createStep, h]⟩
  | returned user => exact absurd rfl hc
  | threw e => exact absurd rfl hc

/--
However the calls for one email interleave, no two users ever share an email, no call takes
more than three steps, and all can be brought to their end. Once all have ended, one has
returned the user it stored and the others were told that the email is taken; all were when
it was taken before, and the table is then unchanged.
-/
theorem one_registration [Finite Id] [Nonempty Id] (users : Users)
    (hn : (users.rows.map UserEntity.email).Nodup) (email : String) (data : Id → CreateUser)
    (hdata : ∀ i, (data i).email = email) (as : List (Id × String))
    (p : Pool Users CreateCall Id)
    (h : exec (Pool.act createStep) (requested users data) as = some p) :
    (p.store.rows.map UserEntity.email).Nodup ∧
      (∀ i, as.countP (fun a => a.1 = i) ≤ 3) ∧
      (∃ more q, exec (Pool.act createStep) p more = some q ∧
        ∀ i, (q.calls i).finished = true) ∧
      ((∀ i, (p.calls i).finished = true) →
        (users.Taken email → p.store.rows = users.rows ∧ ∀ i, p.calls i = .threw emailTaken) ∧
        (¬ users.Taken email → ∃ i user, p.store.rows = users.rows ++ [user] ∧
          p.calls i = .returned user ∧ ∀ j, j ≠ i → p.calls j = .threw emailTaken)) := by
  have hrace := Race.exec hdata h
  refine ⟨hrace.nodup hn, fun i => ?_, ?_, fun hdone => ?_⟩
  · have hsteps := Pool.steps_le CreateCall.rank (fun _ _ _ _ _ => rank_createStep) h i
    exact (Nat.le_add_right _ _).trans hsteps
  · refine Pool.exists_done CreateCall.rank (fun c => c.finished = true) (fun users c hc => ?_) p
    obtain ⟨users', c', hstep⟩ := createStep_goes users hc ""
    exact ⟨"", users', c', hstep, rank_createStep hstep⟩
  · cases hrace with
    | taken ht rows calls =>
      exact ⟨fun _ => ⟨rows, fun i => (calls i).eq (hdone i)⟩, fun hnot => absurd ht hnot⟩
    | undecided ht rows calls =>
      obtain ⟨i⟩ := ‹Nonempty Id›
      have hasks : (p.calls i).Beaten email := .inl (calls i)
      have hi := calls i
      rw [hasks.eq (hdone i)] at hi
      exact hi.elim
    | won i user ht rows asked winner calls =>
      exact ⟨fun ht' => absurd ht' ht, fun _ =>
        ⟨i, user, rows, winner, fun j hj => (calls j hj).eq (hdone j)⟩⟩

end Race

/-- Two requests for one email. -/
def rivals (i : Bool) : CreateUser :=
  ⟨"jane.doe@example.com", if i then "Jane" else "Janet", "Doe", none, none⟩

/-- Both find the email free before either stores its user. -/
def raceOfTwo : List (Bool × String) := [(true, ""), (false, ""), (false, ""), (true, "")]

/-- The second to look the email up is the first to store its user, and the other is refused. -/
theorem one_of_two_registers : ∃ p,
    exec (Pool.act createStep) (requested ⟨[], 0⟩ rivals) raceOfTwo = some p ∧
      p.store.rows.length = 1 ∧ p.calls false = .returned ((rivals false).entity 0 none) ∧
      p.calls true = .threw emailTaken ∧
      ∃ i user, p.store.rows = [] ++ [user] ∧ p.calls i = .returned user ∧
        ∀ j, j ≠ i → p.calls j = .threw emailTaken :=
  ⟨_, rfl, rfl, rfl, rfl, ((one_registration ⟨[], 0⟩ List.nodup_nil "jane.doe@example.com" rivals
    (fun _ => rfl) raceOfTwo _ rfl).2.2.2 (by decide)).2 (by rintro ⟨_, ⟨⟩, -⟩)⟩

end UserService
