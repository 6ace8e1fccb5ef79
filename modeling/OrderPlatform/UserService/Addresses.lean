import OrderPlatform.Store.Pages
import OrderPlatform.UserService.Sessions

/-! # The address book

Addresses are added to users and looked up by user. The lookup of one address compares the
user of its row with the text it was asked for, while the listing leaves the comparison to the
database, which reads any spelling of an identifier.
-/

namespace UserService

open Runs Store Wire

inductive AddressType
  | home | work | billing | other
  deriving DecidableEq, Repr

/-- A row of the addresses table; `userId` references a user. -/
structure Address where
  id : String
  userId : String
  line1 : String
  line2 : Option String
  city : String
  state : Option String
  country : String
  postalCode : String
  type : AddressType
  isDefault : Bool
  createdAt : ℕ
  deriving DecidableEq, Repr

structure CreateAddressDto where
  line1 : String
  line2 : Option String
  city : String
  state : Option String
  country : String
  postalCode : String
  type : Option AddressType
  isDefault : Option Bool
  deriving DecidableEq, Repr

/-- The tables of the service. -/
structure Accounts where
  users : Users
  addresses : List Address
  fresh : Uuid

def Accounts.empty : Accounts := ⟨⟨[], 0⟩, [], 0⟩

section Calls

variable (uuidColumn : String → Option String)

/-- `UserRepository.findById`; a text the key column cannot read is an error. -/
def Users.findById (users : Users) (id : String) : Except Thrown (Option UserEntity) :=
  (uuidColumn id).elim (.error .database) fun key => .ok (lookup UserEntity.key key users.rows)

/-- `AddressRepository.findById`. -/
def Accounts.findAddressById (acc : Accounts) (id : String) : Except Thrown (Option Address) :=
  (uuidColumn id).elim (.error .database) fun key => .ok (lookup Address.id key acc.addresses)

def CreateAddressDto.entity (data : CreateAddressDto) (id : Uuid) (userId : String) (now : ℕ) :
    Address where
  id := toString id
  userId := userId
  line1 := data.line1
  line2 := data.line2
  city := data.city
  state := data.state
  country := data.country
  postalCode := data.postalCode
  type := data.type.getD .home
  isDefault := data.isDefault.getD false
  createdAt := now

/--
`AddressApplicationService.addAddress`. Nothing is made of the user it looks up, but the insert
refuses a user that is not there.
-/
def Accounts.addAddress (acc : Accounts) (userId : String) (data : CreateAddressDto) (now : ℕ)
    (fails : Bool) : Accounts × Except Thrown Address :=
  match acc.users.findById uuidColumn userId, uuidColumn userId with
  | .ok (some _), some key =>
    if fails then (acc, .error .database)
    else
      let address := data.entity acc.fresh key now
      ({ acc with
          addresses := acc.addresses ++ [address]
          fresh := acc.fresh + 1 }, .ok { address with userId := userId })
  | _, _ => (acc, .error .database)

/-- The default addresses first, the older of two alike first. -/
def Address.before (rank : String → ℕ) (a b : Address) : Prop :=
  (b.isDefault = false ∧ a.isDefault = true) ∨ a.isDefault = b.isDefault ∧
    (a.createdAt < b.createdAt ∨ a.createdAt = b.createdAt ∧ rank a.id ≤ rank b.id)

instance (rank : String → ℕ) (a b : Address) : Decidable (a.before rank b) :=
  inferInstanceAs (Decidable (_ ∨ _))

/-- `AddressApplicationService.listAddresses`; `rank` is the order of rows that tie. -/
def Accounts.listAddresses (acc : Accounts) (rank : String → ℕ) (userId : String) :
    Except Thrown (List Address) :=
  (uuidColumn userId).elim (.error .database) fun key =>
    .ok ((acc.addresses.filter fun a => a.userId = key).insertionSort (Address.before rank))

/-- `AddressApplicationService.getAddress`: the row's user is compared with the text. -/
def Accounts.getAddress (acc : Accounts) (userId addressId : String) :
    Except Thrown (Option Address) := do
  let _ ← acc.users.findById uuidColumn userId
  let address ← acc.findAddressById uuidColumn addressId
  return address.filter fun a => a.userId = userId

/-- `UserController.getAddress`. -/
def Accounts.showAddress (acc : Accounts) (userId addressId : String) : Except Thrown Address := do
  match ← acc.getAddress uuidColumn userId addressId with
  | none => .error (.notFound ("Address " ++ addressId ++ " not found for user " ++ userId))
  | some address => .ok address

/-- A call of the service: of its users and their tokens, or a new address. -/
inductive AccountCall
  | auth (call : AuthCall) (m : Moment)
  | addAddress (userId : String) (data : CreateAddressDto) (now : ℕ) (fails : Bool)

end Calls

def Accounts.call (s : AuthService) (acc : Accounts) : AccountCall → Accounts
  | .auth call m => { acc with users := (s.serve acc.users call m).1 }
  | .addAddress userId data now fails => (acc.addAddress s.uuidColumn userId data now fails).1

/-- Rows have keys of their own, and every address is that of a user in the table. -/
structure Accounts.Sound (uuidColumn : String → Option String) (acc : Accounts) : Prop where
  ids : (acc.addresses.map Address.id).Nodup
  drawn : ∀ a ∈ acc.addresses, ∃ n < acc.fresh, a.id = toString n
  owned : ∀ a ∈ acc.addresses, ∃ user ∈ acc.users.rows, user.id = a.userId
  spelled : ∀ a ∈ acc.addresses, uuidColumn a.userId = some a.userId

section Sound

variable {uuidColumn : String → Option String} {acc acc' : Accounts} {users : Users}
  {s : AuthService} {userId addressId : String} {address : Address}

/-- A registration that succeeds appends its account, under the next key and its email. -/
theorem register_cases (users : Users) (data : CreateUser) (hash : String)
    (failAt : Option UserQuery) :
    ((users.register data hash failAt).1 = users ∧
        ∃ e, (users.register data hash failAt).2 = .error e) ∨
      ∃ row, row.id = toString users.fresh ∧ row.email = data.email ∧
        users.register data hash failAt = (⟨users.rows ++ [row], users.fresh + 1⟩, .ok row) := by
  unfold Users.register
  split
  · exact Or.inl ⟨rfl, _, rfl⟩
  · split
    · exact Or.inl ⟨rfl, _, rfl⟩
    · split
      · exact Or.inl ⟨rfl, _, rfl⟩
      · split
        · rename_i hc
          unfold Users.create at hc
          split at hc
          · cases hc
          · cases hc
            exact Or.inr ⟨_, rfl, rfl, rfl⟩
        · exact Or.inl ⟨rfl, _, rfl⟩

/-- An update writes a row in the place of one with its key. -/
theorem ids_update (s : AuthService) (users : Users) (id : String) (data : UpdateUser)
    (m : Moment) :
    (s.update users id data m).1.rows.map UserEntity.key = users.rows.map UserEntity.key := by
  unfold AuthService.update
  split
  · rfl
  · split
    · rfl
    · exact map_update_of_eq _ fun _ h => h.symm

/-- No call of the service removes a user. -/
theorem mem_serve (s : AuthService) (users : Users) (call : AuthCall) (m : Moment)
    {user : UserEntity} (hu : user ∈ users.rows) :
    ∃ user' ∈ (s.serve users call m).1.rows, user'.id = user.id := by
  cases call with
  | register data hash =>
    rcases register_cases users data hash m.failAt with ⟨h, -⟩ | ⟨new, -, -, h⟩
    · exact ⟨user, h.symm ▸ hu, rfl⟩
    · refine ⟨user, ?_, rfl⟩
      simp only [AuthService.serve, h]
      exact List.mem_append_left _ hu
  | login email password => exact ⟨user, hu, rfl⟩
  | renewToken refreshToken => exact ⟨user, hu, rfl⟩
  | update id data =>
    have hm : user.key ∈ (s.update users id data m).1.rows.map UserEntity.key :=
      ids_update s users id data m ▸ List.mem_map_of_mem hu
    obtain ⟨user', hu', hid⟩ := List.mem_map.mp hm
    exact ⟨user', hu', hid⟩

theorem findById_eq_some {user : UserEntity}
    (h : users.findById uuidColumn userId = .ok (some user)) :
    ∃ key, uuidColumn userId = some key ∧ user ∈ users.rows ∧ user.id = key := by
  unfold Users.findById at h
  cases hc : uuidColumn userId with
  | none => simp [hc] at h
  | some key =>
    simp only [hc, Option.elim, Except.ok.injEq] at h
    obtain ⟨hm, hk⟩ := lookup_eq_some h
    exact ⟨key, rfl, hm, hk⟩

/-- An address is written for a user the insert finds, in the spelling of the column. -/
theorem addAddress_cases (acc : Accounts) (userId : String) (data : CreateAddressDto) (now : ℕ)
    (fails : Bool) : (acc.addAddress uuidColumn userId data now fails).1 = acc ∨
      ∃ user ∈ acc.users.rows, uuidColumn userId = some user.id ∧
        (acc.addAddress uuidColumn userId data now fails).1 =
          { acc with
            addresses := acc.addresses ++ [data.entity acc.fresh user.id now]
            fresh := acc.fresh + 1 } := by
  unfold Accounts.addAddress
  split
  · rename_i user key hf hc
    obtain ⟨key', hc', hu, hid⟩ := findById_eq_some hf
    obtain rfl : key' = key := Option.some.inj (hc'.symm.trans hc)
    split
    · exact Or.inl rfl
    · exact Or.inr ⟨user, hu, hid ▸ hc', by rw [hid]⟩
  · exact Or.inl rfl

theorem Accounts.Sound.call (hc : ∀ text c, s.uuidColumn text = some c → s.uuidColumn c = some c)
    (h : acc.Sound s.uuidColumn) (c : AccountCall) : (acc.call s c).Sound s.uuidColumn := by
  cases c with
  | auth call m =>
    refine ⟨h.ids, h.drawn, fun a ha => ?_, h.spelled⟩
    obtain ⟨user, hu, hid⟩ := h.owned a ha
    obtain ⟨user', hu', hid'⟩ := mem_serve s acc.users call m hu
    exact ⟨user', hu', hid'.trans hid⟩
  | addAddress userId data now fails =>
    rcases @addAddress_cases s.uuidColumn acc userId data now fails with he | ⟨user, hu, hk, he⟩
    · exact (congrArg (Accounts.Sound s.uuidColumn) he).mpr h
    · refine (congrArg (Accounts.Sound s.uuidColumn) he).mpr ⟨?_, ?_, ?_, ?_⟩
      · refine nodup_map_concat h.ids fun a ha hid => ?_
        obtain ⟨n, hn, hid'⟩ := h.drawn a ha
        exact hn.ne (Uuid.text_injective (hid'.symm.trans hid))
      · refine forall_mem_concat (fun a ha => ?_) ⟨acc.fresh, Nat.lt_succ_self _, rfl⟩
        obtain ⟨n, hn, hid⟩ := h.drawn a ha
        exact ⟨n, Nat.lt_succ_of_lt hn, hid⟩
      · exact forall_mem_concat h.owned ⟨user, hu, rfl⟩
      · exact forall_mem_concat h.spelled (hc _ _ hk)

theorem sound_empty : Accounts.empty.Sound uuidColumn := by
  constructor <;> simp [Accounts.empty]

theorem showAddress_eq_ok : acc.showAddress uuidColumn userId addressId = .ok address ↔
    (∃ key, uuidColumn userId = some key) ∧ address.userId = userId ∧
      ∃ key, uuidColumn addressId = some key ∧
        lookup Address.id key acc.addresses = some address := by
  unfold Accounts.showAddress Accounts.getAddress Users.findById Accounts.findAddressById
  cases hu : uuidColumn userId with
  | none => simp [bind, Except.bind]
  | some key =>
    cases ha : uuidColumn addressId with
    | none => simp [bind, Except.bind]
    | some id =>
      cases hl : lookup Address.id id acc.addresses with
      | none => simp [bind, Except.bind, pure, Except.pure, hl]
      | some found =>
        by_cases ho : found.userId = userId
        · have hf : (some found).filter (fun a => decide (a.userId = userId)) = some found := by
            simp [ho]
          simp only [bind, Except.bind, pure, Except.pure, Option.elim, hl, hf, Except.ok.injEq,
            Option.some.injEq, exists_eq', true_and, exists_eq_left']
          exact ⟨fun h => ⟨h ▸ ho, h⟩, fun h => h.2⟩
        · have hf : (some found).filter (fun a => decide (a.userId = userId)) = none := by
            simp [ho]
          simp only [bind, Except.bind, pure, Except.pure, Option.elim, hl, hf, Option.some.injEq,
            exists_eq', true_and, exists_eq_left', reduceCtorEq, false_iff]
          rintro ⟨h, rfl⟩
          exact ho h

/-- A listing holds the addresses of the user the text is read as, in its order. -/
theorem listAddresses_eq_ok {rank : String → ℕ} {l : List Address}
    (h : acc.listAddresses uuidColumn rank userId = .ok l) :
    ∃ key, uuidColumn userId = some key ∧
      l = (acc.addresses.filter fun a => a.userId = key).insertionSort (Address.before rank) := by
  unfold Accounts.listAddresses at h
  cases hu : uuidColumn userId with
  | none => simp [hu] at h
  | some key =>
    simp only [hu, Option.elim, Except.ok.injEq] at h
    exact ⟨key, rfl, h.symm⟩

theorem before_total (rank : String → ℕ) : Std.Total (Address.before rank) := by
  constructor
  intro a b
  unfold Address.before
  rcases ha : a.isDefault <;> rcases hb : b.isDefault <;> simp <;> omega

theorem before_trans (rank : String → ℕ) : IsTrans Address (Address.before rank) := by
  constructor
  intro a b c
  unfold Address.before
  rcases ha : a.isDefault <;> rcases hb : b.isDefault <;> rcases hc : c.isDefault <;> simp <;> omega

/--
The user's addresses in the table, each once; default ones stand before the others, and older
ones before those created after them.
-/
structure Listed (t : List Address) (userId : String) (l : List Address) : Prop where
  owner : ∀ a ∈ l, a.userId = userId
  all : l.Perm (t.filter fun a => a.userId = userId)
  default : l.Pairwise fun a b => b.isDefault = true → a.isDefault = true
  oldest : l.Pairwise fun a b => a.isDefault = b.isDefault → a.createdAt ≤ b.createdAt

theorem listed_insertionSort (rank : String → ℕ) (key : String) (t : List Address) :
    Listed t key ((t.filter fun a => a.userId = key).insertionSort (Address.before rank)) := by
  have := before_total rank
  have := before_trans rank
  have hs := List.pairwise_insertionSort (Address.before rank) (t.filter fun a => a.userId = key)
  constructor
  · intro a ha
    simpa using (List.mem_filter.mp ((List.mem_insertionSort _).mp ha)).2
  · exact List.perm_insertionSort _ _
  · refine hs.imp fun {a b} hab hb => ?_
    rcases hab with h | h
    · exact h.2
    · exact h.1.trans hb
  · refine hs.imp fun {a b} hab he => ?_
    rcases hab with h | h
    · rw [h.1, h.2] at he
      cases he
    · omega

end Sound

/--
After any calls of the service, the addresses listed for a text are all those of the user it is
read as, the default ones first and the older ones before the newer; and of these the lookup of
a single address shows every one to the user's own spelling, and none to any other.
-/
theorem shown_iff_listed (s : AuthService)
    (hc : ∀ text c, s.uuidColumn text = some c → s.uuidColumn c = some c)
    (calls : List AccountCall) (acc : Accounts)
    (hacc : exec (fun acc c => some (Accounts.call s acc c)) .empty calls = some acc)
    (rank : String → ℕ) (userId : String) (l : List Address)
    (h : acc.listAddresses s.uuidColumn rank userId = .ok l) :
    (∃ key, s.uuidColumn userId = some key ∧ Listed acc.addresses key l) ∧
      ∀ addressId address, acc.showAddress s.uuidColumn userId addressId = .ok address ↔
        address ∈ l ∧ s.uuidColumn addressId = some address.id ∧
          s.uuidColumn userId = some userId := by
  have hs : acc.Sound s.uuidColumn := by
    refine exec_invariant (I := Accounts.Sound s.uuidColumn) ?_ sound_empty hacc
    intro acc c acc' hacc hstep
    cases hstep
    exact hacc.call hc c
  obtain ⟨key, hkey, rfl⟩ := listAddresses_eq_ok h
  refine ⟨⟨key, hkey, listed_insertionSort rank key _⟩, fun addressId address => ?_⟩
  rw [showAddress_eq_ok]
  constructor
  · rintro ⟨-, howner, id, hid, hl⟩
    obtain ⟨hm, rfl⟩ := lookup_eq_some hl
    have hcanon : s.uuidColumn userId = some userId := howner ▸ hs.spelled address hm
    obtain rfl : key = userId := Option.some.inj (hkey.symm.trans hcanon)
    refine ⟨(List.mem_insertionSort _).mpr (List.mem_filter.mpr ⟨hm, ?_⟩), hid, hcanon⟩
    simpa using howner
  · rintro ⟨hm, hid, hcanon⟩
    obtain rfl : key = userId := Option.some.inj (hkey.symm.trans hcanon)
    obtain ⟨hm, howner⟩ := List.mem_filter.mp ((List.mem_insertionSort _).mp hm)
    exact ⟨⟨key, hkey⟩, by simpa using howner, address.id, hid, lookup_of_mem hs.ids hm⟩

def sampleAddress : CreateAddressDto where
  line1 := "1 Main Street"
  line2 := none
  city := "Springfield"
  state := none
  country := "US"
  postalCode := "12345"
  type := none
  isDefault := none

/-- Jane registers and adds an address, and then the one that is to be her default. -/
def janeCalls : List AccountCall := [
  .auth (.register ⟨"jane@example.com", "Jane", "Doe", none, some "password123"⟩
    "hash of password123") ⟨0, none⟩,
  .addAddress "0" sampleAddress 1 false,
  .addAddress "0" { sampleAddress with isDefault := some true } 2 false]

def janeAccounts : Accounts := janeCalls.foldl (Accounts.call sampleService) .empty

theorem jane_shown : ∃ l, janeAccounts.listAddresses some String.length "0" = .ok l ∧
    (∃ key, some "0" = some key ∧ Listed janeAccounts.addresses key l) ∧
      ∀ addressId address, janeAccounts.showAddress some "0" addressId = .ok address ↔
        address ∈ l ∧ some addressId = some address.id ∧ some "0" = some "0" :=
  ⟨_, rfl, shown_iff_listed sampleService (fun _ _ _ => rfl) janeCalls janeAccounts rfl
    String.length "0" _ rfl⟩

example : (janeAccounts.listAddresses some String.length "0").map (·.map Address.id) =
    .ok ["1", "0"] := by decide +kernel

end UserService
