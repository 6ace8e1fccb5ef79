import OrderPlatform.NotificationService.Dispatch
import OrderPlatform.Saga.Listings

/-! # The dispatchers

`DISPATCH_MODE` decides who dispatches a record: the SMTP dispatcher, which mails records of one
kind and one channel, or the stub, which mails nothing and reports success. What a record says
of its mail is true under the first alone.
-/

namespace NotificationService

open Runs Store Wire

/-- The arguments of `sendMail`. -/
structure MailOptions where
  recipient : String
  subject : String
  text : String
  html : String
  deriving DecidableEq, Repr

/-- A mail that has left, with the identifier its sender was given for it. -/
structure SentMail where
  options : MailOptions
  messageId : Option String
  deriving DecidableEq, Repr

/-- The mailer's answer, and whether the mail left although an error is reported. -/
structure MailerAnswer where
  reply : Except String String
  lands : Bool
  /-- The identifier the stub draws. -/
  token : String

inductive Dispatcher
  | smtp | stub
  deriving DecidableEq, Repr

/-- The factory of the dispatcher. -/
def dispatcherOf (mode : Option String) : Dispatcher :=
  match mode.getD "stub" with
  | "smtp" => .smtp
  | _ => .stub

/-- What `SmtpDispatcher.dispatch` answers to a record it does not mail. -/
def unsupported (record : NotificationDelivery) : Option String :=
  if record.kind ≠ .email then some ("Unsupported notification kind: " ++ record.kind.text)
  else if record.channel ≠ "" ∧ record.channel ≠ "email" then
    some ("Unsupported channel: " ++ record.channel)
  else none

def mailOptions (record : NotificationDelivery) : MailOptions :=
  ⟨record.recipient, record.subject.getD "", record.body, record.body⟩

/-- `dispatch` of the two dispatchers: the mails that leave, and the result. -/
def Dispatcher.dispatch (d : Dispatcher) (record : NotificationDelivery) (x : MailerAnswer) :
    List SentMail × DispatchResult :=
  match d with
  | .stub => ([], ⟨true, some x.token, none⟩)
  | .smtp =>
    match unsupported record with
    | some message => ([], ⟨false, none, some message⟩)
    | none =>
      match x.reply with
      | .ok messageId =>
        ([⟨mailOptions record, some messageId⟩], ⟨true, some messageId, none⟩)
      | .error message =>
        (if x.lands then [⟨mailOptions record, none⟩] else [], ⟨false, none, some message⟩)

/-- The tables and the mails that have left. -/
structure Outgoing where
  notices : World
  mails : List SentMail

structure MailAnswer where
  now : ℕ
  rank : NotificationDelivery → ℕ
  fails : Bool
  mailer : MailerAnswer

/-- What a dispatcher makes of the record a call comes to. -/
def Dispatcher.asked (d : Dispatcher) (c : DispatchCall) (x : MailerAnswer) :
    List SentMail × DispatchResult :=
  match c with
  | .dispatching (record :: _) => d.dispatch record x
  | _ => ([], ⟨false, none, none⟩)

/-- One step of a call whose provider is a dispatcher. -/
def mailStep (d : Dispatcher) : Machine Outgoing DispatchCall MailAnswer
  | m, c, x =>
    (dispatchStep m.notices c ⟨x.now, x.rank, .ok (d.asked c x.mailer).2, x.fails⟩).map fun r =>
      (⟨r.1, m.mails ++ (d.asked c x.mailer).1⟩, r.2)

/-- The two are the same message to the same recipient. -/
structure SameMessage (r r' : NotificationDelivery) : Prop where
  id : r.id = r'.id
  options : mailOptions r = mailOptions r'
  kind : r.kind = r'.kind
  channel : r.channel = r'.channel

/-- The record's mail has left under the token the record holds. -/
def Mailed (mails : List SentMail) (r : NotificationDelivery) : Prop :=
  unsupported r = none ∧ ∃ messageId, r.providerToken = some messageId ∧
    ⟨mailOptions r, some messageId⟩ ∈ mails

/-- The mail is that of a stored record that can be mailed. -/
def FromRecord (w : World) (m : SentMail) : Prop :=
  ∃ r ∈ w.deliveries, unsupported r = none ∧ m.options = mailOptions r

/-- What the status of a record says under a dispatcher: the stub never reports a failure. -/
def Dispatcher.Truthful (d : Dispatcher) (mails : List SentMail) (r : NotificationDelivery) :
    Prop :=
  match d with
  | .smtp => r.status = .sent → Mailed mails r
  | .stub => r.status ≠ .failed

/-- The mails and the stored records agree as the dispatcher promises. -/
structure Dispatcher.Sound (d : Dispatcher) (m : Outgoing) : Prop where
  distinct : (m.notices.deliveries.map NotificationDelivery.id).Nodup
  drawn : ∀ r ∈ m.notices.deliveries, r.id < m.notices.fresh
  mails : ∀ mail ∈ m.mails, FromRecord m.notices mail
  silent : d = .stub → m.mails = []
  truthful : ∀ r ∈ m.notices.deliveries, d.Truthful m.mails r

/-- A record a call holds is a stored message, and says what the dispatcher lets it say. -/
def Dispatcher.Holding (d : Dispatcher) (m : Outgoing) (c : DispatchCall) : Prop :=
  ∀ r ∈ c.held, (∃ e ∈ m.notices.deliveries, SameMessage r e) ∧ d.Truthful m.mails r

/-- Messages are kept, and mails do not come back. -/
def Outgoing.Later (m m' : Outgoing) : Prop :=
  (∀ r ∈ m.notices.deliveries, ∃ r' ∈ m'.notices.deliveries, SameMessage r r') ∧
    ∀ mail ∈ m.mails, mail ∈ m'.mails

section Records

variable {d : Dispatcher} {r r' r'' : NotificationDelivery} {w : World}
  {mails mails' : List SentMail} {x : MailerAnswer}

theorem SameMessage.refl (r : NotificationDelivery) : SameMessage r r := ⟨rfl, rfl, rfl, rfl⟩

theorem SameMessage.trans (h : SameMessage r r') (h' : SameMessage r' r'') : SameMessage r r'' :=
  ⟨h.id.trans h'.id, h.options.trans h'.options, h.kind.trans h'.kind, h.channel.trans h'.channel⟩

theorem SameMessage.symm (h : SameMessage r r') : SameMessage r' r :=
  ⟨h.id.symm, h.options.symm, h.kind.symm, h.channel.symm⟩

theorem SameMessage.unsupported (h : SameMessage r r') :
    NotificationService.unsupported r = NotificationService.unsupported r' := by
  unfold NotificationService.unsupported
  rw [h.kind, h.channel]

theorem sameMessage_answered (r : NotificationDelivery) (result : Except String DispatchResult)
    (now : ℕ) : SameMessage (r.answered result now) r := by
  unfold NotificationDelivery.answered
  split
  · split <;> exact ⟨rfl, rfl, rfl, rfl⟩
  · exact ⟨rfl, rfl, rfl, rfl⟩

theorem Mailed.mono (h : Mailed mails r) (hm : ∀ m ∈ mails, m ∈ mails') : Mailed mails' r := by
  obtain ⟨hu, messageId, ht, hmem⟩ := h
  exact ⟨hu, messageId, ht, hm _ hmem⟩

theorem Dispatcher.Truthful.mono (h : d.Truthful mails r) (hm : ∀ m ∈ mails, m ∈ mails') :
    d.Truthful mails' r := by
  cases d with
  | smtp => exact fun hs => (h hs).mono hm
  | stub => exact h

theorem truthful_pending (h : r.status = .pending) : d.Truthful mails r := by
  cases d <;> simp [Dispatcher.Truthful, h]

/-- Whatever leaves is the record's own mail, and the record can be mailed. -/
theorem mem_dispatch {m : SentMail} (h : m ∈ (d.dispatch r x).1) :
    d = .smtp ∧ unsupported r = none ∧ m.options = mailOptions r := by
  cases d with
  | stub => cases h
  | smtp =>
    simp only [Dispatcher.dispatch] at h
    cases hu : unsupported r with
    | some message => simp [hu] at h
    | none =>
      cases hx : x.reply with
      | ok messageId =>
        simp only [hu, hx, List.mem_singleton] at h
        simp [h]
      | error message =>
        simp only [hu, hx] at h
        split at h
        · simp only [List.mem_singleton] at h
          simp [h]
        · cases h

/-- The answer of a dispatcher leaves a record that says the truth. -/
theorem truthful_answered (now : ℕ) :
    d.Truthful (mails ++ (d.dispatch r x).1) (r.answered (.ok (d.dispatch r x).2) now) := by
  cases d with
  | stub => simp [Dispatcher.Truthful, Dispatcher.dispatch, NotificationDelivery.answered]
  | smtp =>
    intro hs
    cases hu : unsupported r with
    | some message => simp [Dispatcher.dispatch, NotificationDelivery.answered, hu] at hs
    | none =>
      cases hx : x.reply with
      | error message => simp [Dispatcher.dispatch, NotificationDelivery.answered, hu, hx] at hs
      | ok messageId =>
        refine ⟨(sameMessage_answered r _ now).unsupported.trans hu, messageId, ?_, ?_⟩
        · simp [Dispatcher.dispatch, NotificationDelivery.answered, hu, hx]
        · rw [(sameMessage_answered r _ now).options]
          simp [Dispatcher.dispatch, hu, hx]

end Records

section Steps

variable {d : Dispatcher} {m m' : Outgoing} {c c' l : DispatchCall} {x : MailAnswer}

theorem mailStep_effect (h : mailStep d m c x = some (m', c')) :
    DispatchEffect m.notices c ⟨x.now, x.rank, .ok (d.asked c x.mailer).2, x.fails⟩
        m'.notices c' ∧ m'.mails = m.mails ++ (d.asked c x.mailer).1 := by
  obtain ⟨⟨w, k⟩, hw, heq⟩ := Option.map_eq_some_iff.mp h
  cases heq
  exact ⟨dispatchStep_effect hw, rfl⟩

theorem Outgoing.Later.holding (h : m.Later m') (hl : d.Holding m l) : d.Holding m' l := by
  intro r hr
  obtain ⟨⟨e, he, hre⟩, ht⟩ := hl r hr
  obtain ⟨e', he', hee'⟩ := h.1 e he
  exact ⟨⟨e', he', hre.trans hee'⟩, ht.mono h.2⟩

/-- A save of a held record replaces a row by the same message. -/
theorem sameMessage_saved (hs : d.Sound m) (hc : d.Holding m c) {r e : NotificationDelivery}
    (hr : r ∈ c.held) (he : e ∈ m.notices.deliveries) :
    ∃ e' ∈ (m.notices.save r).deliveries, SameMessage e e' := by
  obtain ⟨⟨f, hf, hrf⟩, -⟩ := hc r hr
  by_cases hid : e.id = r.id
  · obtain rfl : e = f := List.inj_on_of_nodup_map hs.distinct he hf (hid.trans hrf.id)
    exact ⟨r, mem_update.mpr ⟨e, he, if_pos hid⟩, hrf.symm⟩
  · exact ⟨e, mem_save he hid, .refl e⟩

theorem mailStep_later (hs : d.Sound m) (hc : d.Holding m c)
    (h : mailStep d m c x = some (m', c')) : m.Later m' := by
  obtain ⟨w', mails'⟩ := m'
  obtain ⟨he, hm⟩ := mailStep_effect h
  refine ⟨fun r hr => ?_, fun mail hmail => hm ▸ List.mem_append_left _ hmail⟩
  cases he with
  | created _ => exact ⟨r, List.mem_append_left _ hr, .refl r⟩
  | saved _ => exact sameMessage_saved hs hc List.mem_cons_self hr
  | refused | ended | fetched | dispatched | unsaved => exact ⟨r, hr, .refl r⟩

/-- Nothing leaves but the mail of the record the call is dispatching. -/
theorem mem_asked {mail : SentMail} {y : MailerAnswer} (h : mail ∈ (d.asked c y).1) :
    d = .smtp ∧ ∃ r ∈ c.held, unsupported r = none ∧ mail.options = mailOptions r := by
  unfold Dispatcher.asked at h
  split at h
  · obtain ⟨hd, hr⟩ := mem_dispatch h
    exact ⟨hd, _, List.mem_cons_self, hr⟩
  · cases h

/-- The mail of a step is that of a stored record. -/
theorem fromRecord_asked (hc : d.Holding m c) {mail : SentMail} {y : MailerAnswer}
    (h : mail ∈ (d.asked c y).1) : FromRecord m.notices mail := by
  obtain ⟨-, r, hr, hu, ho⟩ := mem_asked h
  obtain ⟨⟨e, he, hre⟩, -⟩ := hc r hr
  exact ⟨e, he, hre.unsupported ▸ hu, ho.trans hre.options⟩

theorem FromRecord.later (h : m.Later m') {mail : SentMail} (hm : FromRecord m.notices mail) :
    FromRecord m'.notices mail := by
  obtain ⟨r, hr, hu, ho⟩ := hm
  obtain ⟨r', hr', hrr'⟩ := h.1 r hr
  exact ⟨r', hr', hrr'.unsupported ▸ hu, ho.trans hrr'.options⟩

theorem mailStep_mails (hs : d.Sound m) (hc : d.Holding m c)
    (h : mailStep d m c x = some (m', c')) :
    (∀ mail ∈ m'.mails, FromRecord m'.notices mail) ∧ (d = .stub → m'.mails = []) := by
  have hlater := mailStep_later hs hc h
  obtain ⟨-, hm⟩ := mailStep_effect h
  constructor
  · intro mail hmail
    rcases List.mem_append.mp (hm ▸ hmail) with hmail | hmail
    · exact (hs.mails mail hmail).later hlater
    · exact (fromRecord_asked hc hmail).later hlater
  · rintro rfl
    rw [hm, hs.silent rfl, List.nil_append, List.eq_nil_iff_forall_not_mem]
    intro mail hmail
    cases (mem_asked hmail).1

theorem mailStep_sound (hs : d.Sound m) (hc : d.Holding m c)
    (h : mailStep d m c x = some (m', c')) : d.Sound m' := by
  obtain ⟨hmails, hsilent⟩ := mailStep_mails hs hc h
  have hlater := mailStep_later hs hc h
  have hrows : ∀ r ∈ m.notices.deliveries, d.Truthful m'.mails r :=
    fun r hr => (hs.truthful r hr).mono hlater.2
  obtain ⟨w', mails'⟩ := m'
  obtain ⟨he, -⟩ := mailStep_effect h
  cases he with
  | created _ =>
    refine ⟨?_, ?_, hmails, hsilent, forall_mem_concat hrows (truthful_pending rfl)⟩
    · exact nodup_map_concat hs.distinct fun r hr => (hs.drawn r hr).ne
    · exact forall_mem_concat (fun r hr => Nat.lt_succ_of_lt (hs.drawn r hr)) (Nat.lt_succ_self _)
  | saved _ =>
    refine ⟨?_, id_lt_save hs.drawn, hmails, hsilent, fun r hr => ?_⟩
    · exact ids_save.symm ▸ hs.distinct
    · rcases save_cases hr with rfl | ⟨hr, -⟩
      · exact (hc r List.mem_cons_self).2.mono hlater.2
      · exact hrows r hr
  | refused | ended | fetched | dispatched | unsaved =>
    exact ⟨hs.distinct, hs.drawn, hmails, hsilent, hrows⟩

theorem mailStep_holding (hs : d.Sound m) (hc : d.Holding m c)
    (h : mailStep d m c x = some (m', c')) : d.Holding m' c' := by
  have hlater := mailStep_later hs hc h
  have hheld : d.Holding m' c := hlater.holding hc
  obtain ⟨w', mails'⟩ := m'
  obtain ⟨he, hm⟩ := mailStep_effect h
  cases he with
  | created _ =>
    refine List.forall_mem_singleton.mpr ⟨⟨_, ?_, .refl _⟩, truthful_pending rfl⟩
    exact List.mem_append_right _ List.mem_cons_self
  | fetched _ =>
    intro r hr
    obtain ⟨hr, hp⟩ := mem_stale hr
    exact ⟨⟨r, hr, .refl r⟩, truthful_pending hp⟩
  | @dispatched r rest _ =>
    refine List.forall_mem_cons.mpr ⟨⟨?_, ?_⟩, fun e he => hheld e (List.mem_cons_of_mem _ he)⟩
    · obtain ⟨⟨e, he, hre⟩, -⟩ := hc r List.mem_cons_self
      exact ⟨e, he, (sameMessage_answered r _ _).trans hre⟩
    · rw [hm]
      exact truthful_answered _
  | saved _ => exact fun r hr => hheld r (List.mem_cons_of_mem _ hr)
  | refused | ended | unsaved => exact fun r hr => nomatch hr

end Steps

section Runs

variable {ι : Type}

def mailStart (requests : ι → Request) : Pool Outgoing DispatchCall ι :=
  ⟨⟨World.empty, []⟩, fun i => (requests i).call⟩

def Dispatcher.Kept (d : Dispatcher) (q : Pool Outgoing DispatchCall ι) : Prop :=
  d.Sound q.store ∧ ∀ i, d.Holding q.store (q.calls i)

theorem kept_start (d : Dispatcher) (requests : ι → Request) : d.Kept (mailStart requests) := by
  have hheld : ∀ i, (requests i).call.held = [] := by
    intro i
    cases requests i <;> rfl
  refine ⟨?_, fun i r hr => by simp [mailStart, hheld] at hr⟩
  constructor <;> simp [mailStart, World.empty]

variable [DecidableEq ι]

theorem Dispatcher.Kept.act {d : Dispatcher} {q q' : Pool Outgoing DispatchCall ι}
    {a : ι × MailAnswer} (hq : d.Kept q) (h : q.act (mailStep d) a = some q') : d.Kept q' := by
  obtain ⟨m', c', hM, rfl⟩ := Pool.act_eq_some.mp h
  have hlater := mailStep_later hq.1 (hq.2 a.1) hM
  exact ⟨mailStep_sound hq.1 (hq.2 a.1) hM,
    forall_update (mailStep_holding hq.1 (hq.2 a.1) hM) fun i => hlater.holding (hq.2 i)⟩

/-- What the records say of the mails, by the mode the service is started in. -/
structure Outgoing.AsRecorded (mode : Option String) (m : Outgoing) : Prop where
  recorded : ∀ mail ∈ m.mails, FromRecord m.notices mail
  smtp : mode = some "smtp" → ∀ r ∈ m.notices.deliveries, r.status = .sent → Mailed m.mails r
  stub : mode ≠ some "smtp" → m.mails = [] ∧ ∀ r ∈ m.notices.deliveries, r.status ≠ .failed

theorem dispatcherOf_stub {mode : Option String} (h : mode ≠ some "smtp") :
    dispatcherOf mode = .stub := by
  cases mode with
  | none => rfl
  | some text =>
    unfold dispatcherOf
    split
    · rename_i hs
      exact absurd (congrArg some hs) h
    · rfl

theorem Dispatcher.Sound.asRecorded {mode : Option String} {m : Outgoing}
    (h : (dispatcherOf mode).Sound m) : m.AsRecorded mode := by
  refine ⟨h.mails, ?_, fun hm => ?_⟩
  · rintro rfl
    exact h.truthful
  · have ht := h.truthful
    rw [dispatcherOf_stub hm] at ht
    exact ⟨h.silent (dispatcherOf_stub hm), ht⟩

/--
In every run of the service, new notifications and retry runs in any order, every mail that
has left is that of a stored EMAIL record. In SMTP mode every record stored as SENT has been
mailed under its token. In any other mode no mail ever leaves, and no record is ever FAILED.
-/
theorem mails_recorded {mode : Option String} {requests : ι → Request}
    {as : List (ι × MailAnswer)} {q : Pool Outgoing DispatchCall ι}
    (h : exec (Pool.act (mailStep (dispatcherOf mode))) (mailStart requests) as = some q) :
    q.store.AsRecorded mode :=
  (exec_invariant (I := (dispatcherOf mode).Kept) (fun _ _ _ hq h => hq.act h)
    (kept_start _ requests) h).1.asRecorded

/-- A mail and a text message. -/
def mailAndText (i : Bool) : Request :=
  if i then
    .create ⟨.email, "jane@example.com", "email", some "Hello", "Hello Jane"⟩ ⟨none, none, none⟩
  else .create ⟨.sms, "0123456789", "sms", none, "Hello"⟩ ⟨none, none, none⟩

def mailed (reply : Except String String) (lands : Bool) : MailAnswer :=
  ⟨0, fun _ => 0, false, ⟨reply, lands, "token"⟩⟩

/-- Both are created, dispatched and saved; the mailer is asked for the first alone. -/
def mailTime : List (Bool × MailAnswer) :=
  [true, false, true, false, true, false].map fun i => (i, mailed (.ok "message") false)

theorem mailTime_recorded :
    ∃ q ∈ exec (Pool.act (mailStep (dispatcherOf (some "smtp")))) (mailStart mailAndText) mailTime,
      (q.store.mails.map SentMail.messageId = [some "message"] ∧
        q.store.notices.deliveries.map NotificationDelivery.status = [.sent, .failed]) ∧
      q.store.AsRecorded (some "smtp") := by
  obtain ⟨q, hq, hp⟩ : ∃ q ∈ exec (Pool.act (mailStep (dispatcherOf (some "smtp"))))
      (mailStart mailAndText) mailTime, q.store.mails.map SentMail.messageId = [some "message"] ∧
        q.store.notices.deliveries.map NotificationDelivery.status = [.sent, .failed] := by
    decide +kernel
  exact ⟨q, hq, hp, mails_recorded hq⟩

end Runs

end NotificationService
