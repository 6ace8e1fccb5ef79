import OrderPlatform.OrderService.Lifecycle

/-! # Status changes and their events

The status update and the outbox insert of a request are two statements without a
transaction. A request that fails or crashes between them leaves a status that no event
announces, and the status check turns every retry away.
-/

namespace OrderService

open Runs Store Wire

/-- Every status set by a request is announced in the outbox. -/
def Announced (w : World) : Prop :=
  ∀ order ∈ w.db.orders, ∀ t : Target, order.status = t.status → w.announcements order.id t ≠ []

def StatusCall.inProgress : StatusCall → Bool
  | .updating _ _ | .rereading _ _ | .inserting _ _ _ => true
  | _ => false

def StatusCall.Unannounced (id : Uuid) (t : Target) : StatusCall → Prop
  | .rereading r _ | .inserting r _ _ => r.orderId = id ∧ r.target = t
  | _ => False

theorem StatusCall.Unannounced.inProgress {id : Uuid} {t : Target} {c : StatusCall}
    (h : c.Unannounced id t) : c.inProgress = true := by
  cases c <;> first | rfl | exact h.elim

theorem Target.status_injective : Function.Injective Target.status := by
  intro t t' h
  cases t <;> cases t' <;> first | rfl | cases h

variable {ι : Type} {q q' : Pool World StatusCall ι} {a : ι × StatusAnswer}

/-- A call between its status update and the end of its outbox insert does not fail. -/
def Uninterrupted (q : Pool World StatusCall ι) (a : ι × StatusAnswer) : Prop :=
  ∀ id t, (q.calls a.1).Unannounced id t → a.2.fails = false

/-- Every status set by a request is announced, or a call in progress will announce it. -/
def Owed (q : Pool World StatusCall ι) : Prop :=
  ∀ order ∈ q.store.db.orders, ∀ t : Target, order.status = t.status →
    q.store.announcements order.id t ≠ [] ∨ ∃ i, (q.calls i).Unannounced order.id t

theorem Owed.announced (hq : Owed q) (hidle : ∀ i, (q.calls i).inProgress = false) :
    Announced q.store := by
  intro order ho t ht
  apply (hq order ho t ht).resolve_right
  rintro ⟨i, hi⟩
  exact absurd hi.inProgress (by simp [hidle i])

variable [DecidableEq ι]

theorem Owed.act (hq : Owed q) (hC : Uninterrupted q a) (h : q.act statusStep a = some q') :
    Owed q' := by
  obtain ⟨w', c', hM, rfl⟩ := Pool.act_eq_some.mp h
  have he := statusStep_effect hM
  have hother : ∀ id t, (∃ i, (q.calls i).Unannounced id t) →
      (q.calls a.1).Unannounced id t ∨
        ∃ i, (Function.update q.calls a.1 c' i).Unannounced id t := by
    rintro id t ⟨i, hi⟩
    by_cases hia : i = a.1
    · exact Or.inl (hia ▸ hi)
    · exact Or.inr ⟨i, by rwa [Function.update_of_ne hia]⟩
  have hself : ∀ id t, c'.Unannounced id t →
      ∃ i, (Function.update q.calls a.1 c' i).Unannounced id t := fun id t hc =>
    ⟨a.1, by rwa [Function.update_self]⟩
  simp only [Uninterrupted] at hC
  generalize q.calls a.1 = c at he hother hC
  intro o ho t ht
  cases he with
  | fail c hfail =>
    refine (hq o ho t ht).imp id fun hi => (hother _ _ hi).resolve_left fun hc => ?_
    rw [hC _ _ hc] at hfail
    cases hfail
  | refuse r e | skip r | read r row hr =>
    exact (hq o ho t ht).imp id fun hi => (hother _ _ hi).resolve_left id
  | update r row =>
    obtain ⟨o₀, ho₀, rfl⟩ := mem_update.mp ho
    by_cases hid : o₀.id = r.orderId
    · rw [if_pos hid] at ht
      simp only [if_pos hid]
      exact Or.inr (hself _ _ ⟨hid.symm, Target.status_injective ht⟩)
    · rw [if_neg hid] at ht
      simp only [if_neg hid]
      exact (hq o₀ ho₀ t ht).imp id fun hi => (hother _ _ hi).resolve_left id
  | vanish r row e hnone =>
    refine (hq o ho t ht).imp id fun hi => (hother _ _ hi).resolve_left fun hc => ?_
    exact lookup_eq_none.mp hnone o ho hc.1.symm
  | reread r row answer =>
    exact (hq o ho t ht).imp id fun hi => (hother _ _ hi).elim (hself _ _) id
  | insert r row answer =>
    rw [announcements_append]
    rcases hq o ho t ht with hn | hi
    · exact Or.inl (List.append_ne_nil_of_left_ne_nil hn _)
    · rcases hother _ _ hi with ⟨hid, htarget⟩ | hi
      · left
        simp [StatusChange.entry, createEntry, hid, htarget]
      · exact Or.inr hi

/--
In every run in which no call fails or crashes between its status update and its outbox
insert, every status set is announced whenever no call is in progress.
-/
theorem announced_of_uninterrupted (w : World) (hw : Announced w) (r : ι → StatusChange)
    (as : List (ι × StatusAnswer))
    (hC : AllSteps (Pool.act statusStep) Uninterrupted ⟨w, fun i => .reading (r i)⟩ as) :
    Always (Pool.act statusStep)
      (fun q => (∀ i, (q.calls i).inProgress = false) → Announced q.store)
      ⟨w, fun i => .reading (r i)⟩ as :=
  always_of_allSteps (I := Owed) (fun _ _ _ hq hC h => hq.act hC h) (fun _ hq => hq.announced)
    (fun order ho t ht => Or.inl (hw order ho t ht)) hC

def at0 (i : Bool) (fails : Bool) : Bool × StatusAnswer := (i, ⟨⟨0, ""⟩, fails⟩)

def cancelTwice (_ : Bool) : StatusChange := cancelOrder 0 ⟨"user-1", none⟩ none

/-- The insert of a cancellation fails; the retry is refused, and no event is ever written. -/
theorem cancelled_unannounced :
    ∃ q ∈ exec (Pool.act statusStep) ⟨sampleWorld, fun i => .reading (cancelTwice i)⟩
        [at0 true false, at0 true false, at0 true false, at0 true true, at0 false false],
      (∀ i, (q.calls i).inProgress = false) ∧ ¬ Announced q.store := by
  obtain ⟨q, hq, hf, hs, hn⟩ : ∃ q ∈ exec (Pool.act statusStep)
      ⟨sampleWorld, fun i => .reading (cancelTwice i)⟩
      [at0 true false, at0 true false, at0 true false, at0 true true, at0 false false],
      (∀ i, (q.calls i).inProgress = false) ∧
        (∃ o ∈ q.store.db.orders, o.status = .cancelled) ∧ q.store.db.outbox.length = 0 := by
    decide +kernel
  refine ⟨q, hq, hf, ?_⟩
  intro ha
  obtain ⟨o, ho, hc⟩ := hs
  apply ha o ho .cancelled hc
  simp [World.announcements, List.length_eq_zero_iff.mp hn]

theorem cancelled_announced :
    Always (Pool.act statusStep)
      (fun q => (∀ i, (q.calls i).inProgress = false) → Announced q.store)
      ⟨sampleWorld, fun i => .reading (cancelTwice i)⟩
      [at0 true false, at0 true false, at0 true false, at0 true false, at0 false false] := by
  refine announced_of_uninterrupted sampleWorld ?_ cancelTwice _ ?_
  · intro order ho t ht
    simp only [sampleWorld, List.mem_singleton] at ho
    subst ho
    cases t <;> cases ht
  · apply allSteps_of_forall
    intro a ha q id t _
    simp only [List.mem_cons, List.not_mem_nil, or_false] at ha
    rcases ha with rfl | rfl | rfl | rfl | rfl <;> rfl

end OrderService
