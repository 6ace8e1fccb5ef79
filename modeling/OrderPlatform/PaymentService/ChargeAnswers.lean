import OrderPlatform.PaymentService.StatusMoves

/-! # Whose payment a charge answers with

A charge looks for an existing payment under the order or under the idempotency key, and
answers with what it finds. The two keys are chosen by different parties, so the payment
found can be another order's; then nothing is charged for the order asked for.
-/

namespace PaymentService

open Runs Store Wire

/-- The same tables with the payments read in another order; the lookup asks for none. -/
def World.arranged (w : World) (rows : List Payment) : World :=
  { w with db := { w.db with payments := rows } }

/-- A charge that returns does so with a payment of the order, and the order has a row. -/
structure AnswersFor (orderId : String) (r : World × Except Thrown Payment) : Prop where
  order : ∀ p, r.2 = .ok p → p.orderId = orderId
  stored : ∀ p, r.2 = .ok p → ∃ q ∈ r.1.db.payments, q.orderId = orderId

variable {w : World} {params : ChargeParams} {env : Env} {p : Payment}

theorem findExisting_eq_some {db : Db} {orderId key : String}
    (h : db.findExisting orderId key = some p) :
    p ∈ db.payments ∧ (p.orderId = orderId ∨ p.idempotencyKey = key) :=
  ⟨List.mem_of_find?_eq_some h, by simpa using List.find?_some h⟩

/-- What a charge returns was found, or is of the order asked for and stored now. -/
theorem of_charge_ok (h : (charge w params env).2 = .ok p) :
    (w.db.findExisting params.orderId (params.key env.now) = some p ∧
        (charge w params env).1 = w) ∨
      p.orderId = params.orderId ∧ p ∈ (charge w params env).1.db.payments := by
  unfold charge at h ⊢
  cases he : w.db.findExisting params.orderId (params.key env.now) with
  | some existing =>
    rw [he] at h
    cases h
    exact Or.inl ⟨rfl, rfl⟩
  | none =>
    right
    rw [he] at h
    dsimp only at h ⊢
    set d : ChargeDraft := ⟨w.chargeAttempt params env.now, env.result, env.now⟩ with hd
    by_cases hs : d.savePayment w.db = none
    · simp [ChargeDraft.record_refused hs] at h
    · obtain ⟨amount, ha, hc⟩ : ∃ amount, d.params.amount = some amount ∧
          ¬ ∃ p ∈ w.db.payments, p.Conflicts (d.payment amount) := by
        simpa [ChargeDraft.savePayment_eq_none] using hs
      have ha' : params.amount = some amount := ha
      rw [World.charged]
      rw [ChargeDraft.record_accepted ha hc] at h ⊢
      -- a failed statement or commit throws, so only the written row is left
      split_ifs at h ⊢
      simp only [ha', Except.ok.injEq] at h
      subst h
      exact ⟨rfl, List.mem_append_right _ (List.mem_singleton_self _)⟩

/--
Whichever matching row the lookup finds first, a charge answers for its order exactly when
no payment of another order is stored under the key it looks for.
-/
theorem charge_answers_iff (w : World) (params : ChargeParams) (env : Env) :
    (∀ rows, rows.Perm w.db.payments →
        AnswersFor params.orderId (charge (w.arranged rows) params env)) ↔
      ∀ q ∈ w.db.payments, q.idempotencyKey = params.key env.now → q.orderId = params.orderId := by
  constructor
  · intro h q hq hkey
    have hrows : (q :: w.db.payments.erase q).Perm w.db.payments := (List.perm_cons_erase hq).symm
    refine (h _ hrows).order q ?_
    have hfound : (w.arranged (q :: w.db.payments.erase q)).db.findExisting params.orderId
        (params.key env.now) = some q := by
      simp [Db.findExisting, World.arranged, hkey]
    rw [charge, hfound]
  · intro h rows hrows
    have horder : ∀ p, (charge (w.arranged rows) params env).2 = .ok p →
        p.orderId = params.orderId ∧
          p ∈ (charge (w.arranged rows) params env).1.db.payments := by
      intro p hp
      rcases of_charge_ok hp with ⟨hfound, hsame⟩ | hnew
      · obtain ⟨hmem, hmatch⟩ := findExisting_eq_some hfound
        rw [hsame]
        exact ⟨hmatch.elim id (h p (hrows.mem_iff.mp hmem)), hmem⟩
      · exact hnew
    constructor
    · exact fun p hp => (horder p hp).1
    · exact fun p hp => ⟨p, (horder p hp).2, (horder p hp).1⟩

/-- An order's event under the idempotency key that `order-1` was charged with. -/
def reusedKey : OrderCreatedEvent where
  orderId := "order-2"
  customerUserId := "user-2"
  amount := some 30
  totalAmount := none
  currency := none
  cardToken := none
  idempotencyKey := some "key-1"

def keyedCharge : PaymentCall := .charge { sampleCharge with idempotencyKey := some "key-1" }
  approved.env

/-- The event of `order-2` ends well, and only `order-1` has a payment. -/
theorem order_answered_with_another :
    ¬ ∀ (calls : List PaymentCall) (w : World), exec callStep World.empty calls = some w →
      ∀ (params : ChargeParams) (env : Env), AnswersFor params.orderId (charge w params env) := by
  intro h
  have hanswers := h [keyedCharge] (keyedCharge.run .empty) rfl
    (processOrderCreated reusedKey "corr-1") approved.env
  obtain ⟨q, hq, horder⟩ := hanswers.stored _ rfl
  have hnone : ∀ q ∈ (charge (keyedCharge.run .empty) (processOrderCreated reusedKey "corr-1")
      approved.env).1.db.payments, q.orderId ≠ "order-2" := by decide +kernel
  exact hnone q hq horder

end PaymentService
