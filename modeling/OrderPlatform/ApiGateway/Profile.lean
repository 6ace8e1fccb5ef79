import OrderPlatform.ApiGateway.Proxy
import OrderPlatform.UserService.Addresses

/-! # One's own account through the gateway

`GET /users/me` passes the gateway's guard under the token of a login, and the guard of the
user service under the token the gateway makes of it. Accounts are updated meanwhile, but they
keep their key and their email, so the token shows the account that its login asked for.
-/

namespace UserService

open Access Runs Store Wire

/-- What `UserResponseDto` exposes of a user. -/
structure UserResponse where
  id : String
  email : String
  phone : Option String
  firstName : String
  lastName : String
  isActive : Bool
  deriving DecidableEq, Repr

def UserEntity.response (user : UserEntity) : UserResponse where
  id := user.id
  email := user.email
  phone := user.phone
  firstName := user.firstName
  lastName := user.lastName
  isActive := user.isActive

/-- The status of an error's response, by the framework's own filter. -/
def SessionError.status : SessionError → ℕ
  | .create (.conflict _) => 409
  | .create (.query _) => 500
  | .refused (.unauthorized _) => 401
  | .refused (.forbidden _) => 403
  | .thrown e => (OrderService.HttpError.threw e).status

def SessionError.message : SessionError → String
  | .create (.conflict message) => message
  | .create (.query _) => "Internal server error"
  | .refused (.unauthorized message) => message
  | .refused (.forbidden message) => message
  | .thrown e => (OrderService.HttpError.threw e).message

/-- `UserController.getMe`, behind `JwtAuthGuard`. -/
def AuthService.getMe (s : AuthService) (users : Users) (token : Option (Token Claims))
    (m : Moment) : Except SessionError UserResponse :=
  match s.settings.toConfig.canActivate token m.now with
  | .error refusal => .error (.refused refusal)
  | .ok payload =>
    match payload.sub with
    | some sub => (s.findById users sub m).map UserEntity.response
    | none =>
      -- a key that is undefined is no condition at all: the query finds any row
      if m.failAt = some .find then .error (.thrown .database)
      else
        match users.rows.head? with
        | some user => .ok user.response
        | none => .error (.thrown (.notFound "User undefined not found"))

/-- The table after calls made one after another. -/
def AuthService.after (s : AuthService) : Users → List (AuthCall × Moment) → Users
  | users, [] => users
  | users, (call, m) :: calls => s.after (s.serve users call m).1 calls

/-- The email that a registration or a login is made with. -/
def AuthCall.email : AuthCall → Option String
  | .register data _ => some data.email
  | .login email _ => some email
  | _ => none

/-- The accounts of one table are in the other, under their key and their email. -/
def Users.Keeps (users users' : Users) : Prop :=
  ∀ row ∈ users.rows, ∃ row' ∈ users'.rows, row'.id = row.id ∧ row'.email = row.email

/-- Every account has a key of its own, drawn by the table. -/
structure Users.Sound (users : Users) : Prop where
  ids : (users.rows.map UserEntity.key).Nodup
  drawn : ∀ row ∈ users.rows, ∃ n < users.fresh, row.id = toString n

section Accounts

variable {s : AuthService} {users users' users'' : Users} {call : AuthCall} {m : Moment}
  {response : AuthResponse}

theorem Users.Keeps.refl (users : Users) : users.Keeps users :=
  fun row hrow => ⟨row, hrow, rfl, rfl⟩

theorem Users.Keeps.trans (h : users.Keeps users') (h' : users'.Keeps users'') :
    users.Keeps users'' := by
  intro row hrow
  obtain ⟨row', hrow', hid, hemail⟩ := h row hrow
  obtain ⟨row'', hrow'', hid', hemail'⟩ := h' row' hrow'
  exact ⟨row'', hrow'', hid'.trans hid, hemail'.trans hemail⟩

theorem assign_keeps {data : UpdateUser} {row row' : UserEntity}
    (h : data.assign row = some row') : row'.id = row.id ∧ row'.email = row.email := by
  simp only [UpdateUser.assign, Option.bind_eq_bind, Option.bind_eq_some_iff, Option.pure_def,
    Option.some.injEq] at h
  obtain ⟨firstName, -, lastName, -, isActive, -, rfl⟩ := h
  exact ⟨rfl, rfl⟩

/-- An update that succeeds writes a row under the key and the email of the one it found. -/
theorem update_cases (s : AuthService) (users : Users) (id : String) (data : UpdateUser)
    (m : Moment) : (s.update users id data m).1 = users ∨
      ∃ row row', lookup UserEntity.key row.key users.rows = some row ∧ row'.id = row.id ∧
        row'.email = row.email ∧ (s.update users id data m).1 = users.save row' := by
  unfold AuthService.update
  split
  · exact Or.inl rfl
  · rename_i row hfind
    obtain ⟨-, -, hl⟩ := findById_eq_ok.mp hfind
    split
    · exact Or.inl rfl
    · rename_i row' hrow'
      split at hrow'
      · cases hrow'
      · obtain ⟨hid, hemail⟩ := assign_keeps hrow'
        exact Or.inr ⟨row, row', hl, hid, hemail, rfl⟩

theorem rows_save {row row' : UserEntity} (hid : row'.id = row.id) :
    (users.save row').rows =
      Store.update UserEntity.key row.key (fun _ => row') users.rows := by
  rw [Users.save, UserEntity.key, hid]
  rfl

theorem Users.Sound.keeps_save {row row' : UserEntity} (hs : users.Sound)
    (hl : lookup UserEntity.key row.key users.rows = some row) (hid : row'.id = row.id)
    (hemail : row'.email = row.email) : users.Keeps (users.save row') := by
  intro other hother
  by_cases hk : other.key = row.key
  · have hsame : lookup UserEntity.key row.key users.rows = some other :=
      hk ▸ lookup_of_mem hs.ids hother
    obtain rfl : other = row := Option.some.inj (hsame.symm.trans hl)
    exact ⟨row', rows_save hid ▸ mem_update.mpr ⟨other, hother, if_pos rfl⟩, hid, hemail⟩
  · exact ⟨other, rows_save hid ▸ mem_update.mpr ⟨other, hother, if_neg hk⟩, rfl, rfl⟩

theorem Users.Sound.save {row row' : UserEntity} (hs : users.Sound)
    (hl : lookup UserEntity.key row.key users.rows = some row) (hid : row'.id = row.id) :
    (users.save row').Sound := by
  constructor
  · have hkeys : (users.save row').rows.map UserEntity.key = users.rows.map UserEntity.key := by
      rw [rows_save hid]
      exact map_update_of_eq _ fun _ hk => hid.trans hk.symm
    exact hkeys ▸ hs.ids
  · intro other hother
    rw [rows_save hid, mem_update] at hother
    obtain ⟨old, hold, rfl⟩ := hother
    split
    · obtain ⟨n, hn, hrow⟩ := hs.drawn row (lookup_eq_some hl).1
      exact ⟨n, hn, hid.trans hrow⟩
    · exact hs.drawn old hold

theorem Users.Sound.append {row : UserEntity} (hs : users.Sound)
    (hid : row.id = toString users.fresh) :
    Users.Sound ⟨users.rows ++ [row], users.fresh + 1⟩ := by
  constructor
  · refine nodup_map_concat hs.ids fun other hother hk => ?_
    obtain ⟨n, hn, hn'⟩ := hs.drawn other hother
    exact hn.ne (Uuid.text_injective (hn'.symm.trans (hk.trans hid)))
  · refine forall_mem_concat (fun other hother => ?_) ⟨users.fresh, Nat.lt_succ_self _, hid⟩
    obtain ⟨n, hn, hn'⟩ := hs.drawn other hother
    exact ⟨n, Nat.lt_succ_of_lt hn, hn'⟩

/-- One call keeps the accounts that are there. -/
theorem Users.Sound.serve (hs : users.Sound) (s : AuthService) (call : AuthCall) (m : Moment) :
    (s.serve users call m).1.Sound ∧ users.Keeps (s.serve users call m).1 := by
  cases call with
  | register data hash =>
    rcases register_cases users data hash m.failAt with ⟨h, -⟩ | ⟨row, hid, -, h⟩
    · simp only [AuthService.serve, h]
      exact ⟨hs, .refl users⟩
    · simp only [AuthService.serve, h]
      exact ⟨hs.append hid, fun other hother => ⟨other, List.mem_append_left _ hother, rfl, rfl⟩⟩
  | login email password => exact ⟨hs, .refl users⟩
  | renewToken refreshToken => exact ⟨hs, .refl users⟩
  | update id data =>
    rcases update_cases s users id data m with h | ⟨row, row', hl, hid, hemail, h⟩
    · simp only [AuthService.serve, h]
      exact ⟨hs, .refl users⟩
    · simp only [AuthService.serve, h]
      exact ⟨hs.save hl hid, hs.keeps_save hl hid hemail⟩

/-- A pair is issued for an account of the table, and for the one whose email was given. -/
theorem issued_serve (h : (s.serve users call m).2 = .ok (.tokens response)) :
    ∃ row ∈ (s.serve users call m).1.rows,
      response = s.settings.issueTokenPair row.toUser m.now ∧
        ∀ email, call.email = some email → row.email = email := by
  cases call with
  | register data hash =>
    rcases register_cases users data hash m.failAt with ⟨-, e, he⟩ | ⟨row, -, hemail, hreg⟩
    · simp only [AuthService.serve, he] at h
      cases h
    · simp only [AuthService.serve, hreg, Except.map, Except.ok.injEq, Answer.tokens.injEq] at h ⊢
      exact ⟨row, List.mem_append_right _ (List.mem_singleton_self _), h.symm,
        fun email hm => hemail.trans (Option.some.inj hm)⟩
  | login email password =>
    obtain ⟨response', hlogin, hsame⟩ := map_eq_ok.mp h
    obtain ⟨-, row, hrow, rfl⟩ := login_eq_ok.mp hlogin
    cases hsame
    exact ⟨row, mem_of_entitled hrow, rfl, fun email' hm =>
      (lookup_eq_some hrow.1).2.trans (Option.some.inj hm)⟩
  | renewToken refreshToken =>
    obtain ⟨response', hrenew, hsame⟩ := map_eq_ok.mp h
    obtain ⟨-, row, hrow, rfl⟩ := renewToken_eq_ok.mp hrenew
    cases hsame
    refine ⟨row, mem_of_entitled hrow, rfl, ?_⟩
    rintro email ⟨⟩
  | update id data =>
    simp only [AuthService.serve] at h
    obtain ⟨row, -, hsame⟩ := map_eq_ok.mp h
    cases hsame

/-- Any calls keep the accounts that are there. -/
theorem Users.Sound.after (s : AuthService) (calls : List (AuthCall × Moment))
    (hs : users.Sound) : (s.after users calls).Sound ∧ users.Keeps (s.after users calls) := by
  induction calls generalizing users with
  | nil => exact ⟨hs, .refl users⟩
  | cons c calls ih =>
    obtain ⟨hserve, hkeeps⟩ := hs.serve s c.1 c.2
    obtain ⟨hafter, hkeeps'⟩ := ih hserve
    exact ⟨hafter, hkeeps.trans hkeeps'⟩

/-- The account of a pair is found in the table after all calls that follow. -/
theorem issued_history (hs : users.Sound) {calls : List (AuthCall × Moment)} {t : Turn}
    (ht : t ∈ s.history users calls) (ha : t.answer = .ok (.tokens response)) :
    ∃ user : User, response = s.settings.issueTokenPair user t.moment.now ∧
      ∃ row ∈ (s.after users calls).rows, row.id = user.id ∧
        ∀ email, t.call.email = some email → row.email = email := by
  induction calls generalizing users with
  | nil => cases ht
  | cons c calls ih =>
    obtain ⟨hserve, -⟩ := hs.serve s c.1 c.2
    rcases List.mem_cons.mp ht with rfl | ht
    · obtain ⟨row, hrow, hpair, hemail⟩ := issued_serve ha
      obtain ⟨row', hrow', hid, hemail'⟩ := (hserve.after s calls).2 row hrow
      exact ⟨row.toUser, hpair, row', hrow', hid, fun email hm =>
        hemail'.trans (hemail email hm)⟩
    · exact ih hserve ht

end Accounts

end UserService

namespace ApiGateway

open Access Store Wire
open UserService

/-- The response to a request for one's own account. -/
def respondMe : Except SessionError UserResponse → Downstream UserResponse
  | .ok user => .response 200 (.data user)
  | .error e => .response e.status (.error (some e.message))

/--
What happens to a request on its way: what the throttler counts, when it reaches the gateway, how
long it takes to the user service, whether the database fails there, and whether the connection
does.
-/
structure ProfileVisit where
  throttle : Option ThrottlerStorageRecord
  now : ℤ
  delay : ℤ
  failAt : Option UserQuery
  disconnected : Bool

/-- `ProxyController.getMe`, behind the gateway's throttler and guards. -/
def getMe (s : AuthService) (gatewaySecret : String) (expiresIn : ℤ) (users : Users)
    (token : Option (Token Claims)) (v : ProfileVisit) : Reply UserResponse :=
  match throttled v.throttle with
  | some reply => reply
  | none =>
    match guards gatewaySecret .getMe token v.now with
    | .error e => Refusal.reply e
    | .ok user =>
      if v.disconnected then forward .failed
      else
        let internalToken :=
          issueInternalToken s.settings.internalJwtSecret expiresIn (getUser user) v.now
        forward (respondMe (s.getMe users (some internalToken) ⟨v.now + v.delay, v.failAt⟩))

section Profile

variable {s : AuthService} {gatewaySecret : String} {expiresIn : ℤ} {users : Users}
  {token : Token Claims} {userId : String} {row : UserEntity} {v : ProfileVisit}

/-- The user service asks the token the gateway made for its user alone. -/
theorem getMe_forwarded (hcol : s.uuidColumn userId = some userId)
    (hl : lookup UserEntity.key userId users.rows = some row) :
    forward (respondMe (s.getMe users (some (issueInternalToken s.settings.internalJwtSecret
        expiresIn ⟨userId, "customer"⟩ v.now)) ⟨v.now + v.delay, v.failAt⟩)) =
      if expiresIn ≤ v.delay then ⟨401, .error (some "Invalid or expired token")⟩
      else if v.failAt = some .find then ⟨500, .error (some "Internal server error")⟩
      else ⟨200, .data row.response⟩ := by
  simp only [AuthService.getMe, Config.canActivate, issueInternalToken, Token.sign, Token.verify,
    true_and, add_lt_add_iff_left]
  by_cases he : expiresIn ≤ v.delay
  · rw [if_neg (not_lt.2 he), if_pos he]
    rfl
  · rw [if_pos (not_le.1 he), if_neg he]
    simp only [AuthService.findById, hcol, hl]
    by_cases hf : v.failAt = some .find
    · simp only [if_pos hf]
      rfl
    · simp only [if_neg hf]
      rfl

/-- What a customer's token makes of the request. -/
theorem getMe_of_namesCustomer (h : NamesCustomer userId token.claims) (hne : userId ≠ "")
    (hcol : s.uuidColumn userId = some userId)
    (hl : lookup UserEntity.key userId users.rows = some row) :
    getMe s gatewaySecret expiresIn users (some token) v =
      match throttled v.throttle with
      | some reply => reply
      | none =>
        if token.secret ≠ gatewaySecret ∨ token.expiresAt ≤ v.now then
          ⟨401, .error (some "Unauthorized")⟩
        else if token.claims.role = none then ⟨401, .error (some "Invalid token payload")⟩
        else if v.disconnected then ⟨502, .error (some "Downstream service unavailable")⟩
        else if expiresIn ≤ v.delay then ⟨401, .error (some "Invalid or expired token")⟩
        else if v.failAt = some .find then ⟨500, .error (some "Internal server error")⟩
        else ⟨200, .data row.response⟩ := by
  rw [getMe, guards_of_namesCustomer h hne rfl]
  cases throttled v.throttle with
  | some reply => rfl
  | none =>
    dsimp only
    by_cases hv : token.secret ≠ gatewaySecret ∨ token.expiresAt ≤ v.now
    · simp only [if_pos hv]
      rfl
    · by_cases hr : token.claims.role = none
      · simp only [if_neg hv, if_pos hr]
        rfl
      · simp only [if_neg hv, if_neg hr]
        split
        · rfl
        · exact getMe_forwarded hcol hl

end Profile

/--
`GET /users/me` at the gateway, after any calls of the user service, under the tokens that any
of them issued. The access token shows one account, as the table has it by now: the one the
pair was issued for, under the email that its registration or login gave, active or not. Before
that the throttler, the token's age, the two connections and the database decide between 429, 401,
502 and 500. The refresh token shows nothing.
-/
theorem getMe_reply (s : AuthService)
    (hcol : ∀ id : Uuid, s.uuidColumn (toString id) = some (toString id))
    (gatewaySecret : String) (expiresIn : ℤ) (calls : List (AuthCall × Moment))
    (t : UserService.Turn) (ht : t ∈ s.history ⟨[], 0⟩ calls) (response : AuthResponse)
    (ha : t.answer = .ok (.tokens response)) :
    ∃ row ∈ (s.after ⟨[], 0⟩ calls).rows, row.id = response.user.id ∧
      (∀ email, t.call.email = some email → row.email = email) ∧
      ∀ v, getMe s gatewaySecret expiresIn (s.after ⟨[], 0⟩ calls) (some response.accessToken) v =
          (match throttled v.throttle with
          | some reply => reply
          | none =>
            if s.settings.signingSecret ≠ gatewaySecret ∨
                response.accessToken.expiresAt ≤ v.now then
              ⟨401, .error (some "Unauthorized")⟩
            else if v.disconnected then ⟨502, .error (some "Downstream service unavailable")⟩
            else if expiresIn ≤ v.delay then ⟨401, .error (some "Invalid or expired token")⟩
            else if v.failAt = some .find then ⟨500, .error (some "Internal server error")⟩
            else ⟨200, .data row.response⟩) ∧
        ∃ message, getMe s gatewaySecret expiresIn (s.after ⟨[], 0⟩ calls)
          (some response.refreshToken) v =
            (throttled v.throttle).getD ⟨401, .error (some message)⟩ := by
  have hempty : Users.Sound ⟨[], 0⟩ := by constructor <;> simp
  obtain ⟨user, rfl, row, hrow, hid, hemail⟩ := issued_history hempty ht ha
  obtain ⟨hs, -⟩ := hempty.after s calls
  obtain ⟨n, -, hn⟩ := hs.drawn row hrow
  have huser : user.id = toString n := hid.symm.trans hn
  have hcol' : s.uuidColumn user.id = some user.id := huser ▸ hcol n
  have hne : user.id ≠ "" := huser ▸ Nat.repr_ne_empty
  have hl : lookup UserEntity.key user.id (s.after ⟨[], 0⟩ calls).rows = some row :=
    hid ▸ lookup_of_mem hs.ids hrow
  refine ⟨row, hrow, hid, hemail, fun v => ⟨?_, ?_⟩⟩
  · have hclaims : NamesCustomer user.id
        (s.settings.issueTokenPair user t.moment.now).accessToken.claims :=
      ⟨rfl, Or.inr rfl, Or.inl rfl, rfl⟩
    exact getMe_of_namesCustomer hclaims hne hcol' hl
  · have hclaims : NamesCustomer user.id
        (s.settings.issueTokenPair user t.moment.now).refreshToken.claims :=
      ⟨rfl, Or.inl rfl, Or.inl rfl, rfl⟩
    rw [getMe_of_namesCustomer hclaims hne hcol' hl]
    cases throttled v.throttle with
    | some reply => exact ⟨"", rfl⟩
    | none =>
      dsimp only
      split
      · exact ⟨_, rfl⟩
      · exact ⟨_, rfl⟩

/-- Jane's login is still good for her account when it has been deactivated. -/
theorem janes_reply : ∃ t ∈ sampleService.history ⟨[], 0⟩ sampleCalls,
    ∃ row ∈ (sampleService.after ⟨[], 0⟩ sampleCalls).rows, row.id = "0" ∧
      t.call = .login "jane@example.com" "password123" ∧ row.isActive = false ∧
        row.email = "jane@example.com" ∧
        getMe sampleService "internal-secret-0" 300 (sampleService.after ⟨[], 0⟩ sampleCalls)
          (some (minutes.issueTokenPair ⟨"0", true⟩ 1).accessToken)
            ⟨some ⟨1, 60000, false, 0⟩, 5, 1, none, false⟩ =
            ⟨200, .data row.response⟩ := by
  obtain ⟨t, ht, hcall, ha⟩ : ∃ t ∈ sampleService.history ⟨[], 0⟩ sampleCalls,
      t.call = .login "jane@example.com" "password123" ∧
        t.answer = .ok (.tokens (minutes.issueTokenPair ⟨"0", true⟩ 1)) := by decide +kernel
  have hactive : ∀ row ∈ (sampleService.after ⟨[], 0⟩ sampleCalls).rows, row.isActive = false := by
    decide +kernel
  obtain ⟨row, hrow, hid, hemail, hreply⟩ := getMe_reply sampleService (fun _ => rfl)
    "internal-secret-0" 300 sampleCalls t ht _ ha
  refine ⟨t, ht, row, hrow, hid, hcall, hactive row hrow, hemail _ (hcall ▸ rfl), ?_⟩
  exact (hreply ⟨some ⟨1, 60000, false, 0⟩, 5, 1, none, false⟩).1.trans (if_neg (by decide))

end ApiGateway
