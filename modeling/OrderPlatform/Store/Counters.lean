import Mathlib.Data.Int.Notation
import Mathlib.Data.Nat.Notation
import Mathlib.Logic.Function.Basic
import Mathlib.Order.Basic

/-! # Counters that expire

A store of keys, each with a count and perhaps a time at which it expires, and its commands:
count a hit, give a key a time to live, ask how long it has left, and set a marker unless
there is one. A key without an expiry stays until it is given one.
-/

namespace Store

structure Counter where
  count : ℕ
  expiresAt : Option ℕ
  pos : 0 < count
  deriving DecidableEq, Repr

def Counter.live (c : Counter) (now : ℕ) : Bool := c.expiresAt.all fun e => now < e

def Counter.first (expiresAt : Option ℕ) : Counter := ⟨1, expiresAt, Nat.one_pos⟩

def Counter.hit (c : Counter) : Counter := ⟨c.count + 1, c.expiresAt, Nat.succ_pos c.count⟩

/-- The keys ever set; times are in milliseconds. -/
abbrev Counters (κ : Type*) := κ → Option Counter

variable {κ : Type*} [DecidableEq κ]

namespace Counters

variable (s : Counters κ) (k : κ) (now : ℕ)

/-- What the store holds under a key: one that has expired is gone. -/
def get (s : Counters κ) (k : κ) (now : ℕ) : Option Counter := (s k).filter fun c => c.live now

/-- `INCR`: a key that is not there starts at zero, without an expiry. -/
def incr : Counters κ × ℕ :=
  match s.get k now with
  | none => (Function.update s k (some (.first none)), 1)
  | some c => (Function.update s k (some c.hit), c.count + 1)

/-- `EXPIRE`, in seconds. -/
def expire (seconds : ℕ) : Counters κ :=
  match s.get k now with
  | none => s
  | some c => Function.update s k (some { c with expiresAt := some (now + 1000 * seconds) })

/-- `PTTL`: -2 for a key that is not there, and -1 for one without an expiry. -/
def pttl : ℤ :=
  match s.get k now with
  | none => -2
  | some c => c.expiresAt.elim (-1) fun e => (e : ℤ) - now

/-- `SET .. '1' EX .. NX`; `none` when the key is there. -/
def setNx (seconds : ℕ) : Option (Counters κ) :=
  if (s.get k now).isSome then none
  else some (Function.update s k (some (.first (some (now + 1000 * seconds)))))

end Counters

variable {s s' : Counters κ} {k l : κ} {now seconds : ℕ} {c : Counter}

theorem Counter.live_of_none (h : c.expiresAt = none) : c.live now = true := by simp [live, h]

theorem Counter.live_iff {e : ℕ} (h : c.expiresAt = some e) : c.live now = true ↔ now < e := by
  simp [live, h]

namespace Counters

omit [DecidableEq κ] in
theorem get_eq_some : s.get k now = some c ↔ s k = some c ∧ c.live now = true := by
  simp [get, Option.filter_eq_some_iff]

omit [DecidableEq κ] in
theorem get_congr (h : s' k = s k) : s'.get k now = s.get k now := by rw [get, get, h]

theorem incr_of_none (h : s.get k now = none) :
    s.incr k now = (Function.update s k (some (.first none)), 1) := by rw [incr, h]

theorem incr_of_some (h : s.get k now = some c) :
    s.incr k now = (Function.update s k (some c.hit), c.count + 1) := by rw [incr, h]

theorem expire_of_some (h : s.get k now = some c) : s.expire k now seconds =
    Function.update s k (some { c with expiresAt := some (now + 1000 * seconds) }) := by
  rw [expire, h]

theorem setNx_of_some (h : s.get k now = some c) : s.setNx k now seconds = none := by
  simp [setNx, h]

theorem setNx_of_none (h : s.get k now = none) : s.setNx k now seconds =
    some (Function.update s k (some (.first (some (now + 1000 * seconds))))) := by
  simp [setNx, h]

/-- A command leaves every other key alone. -/
theorem incr_of_ne (h : l ≠ k) : (s.incr k now).1 l = s l := by
  cases hg : s.get k now with
  | none => simp [incr_of_none hg, h]
  | some c => simp [incr_of_some hg, h]

theorem expire_of_ne (h : l ≠ k) : s.expire k now seconds l = s l := by
  cases hg : s.get k now with
  | none => rw [expire, hg]
  | some c => simp [expire_of_some hg, h]

theorem setNx_of_ne (h : l ≠ k) : (s.setNx k now seconds).getD s l = s l := by
  cases hg : s.get k now with
  | none => simp [setNx_of_none hg, h]
  | some c => simp [setNx_of_some hg]

theorem incr_pos : 1 ≤ (s.incr k now).2 := by
  cases hg : s.get k now with
  | none =>
    have hcount : (s.incr k now).2 = 1 := congrArg Prod.snd (incr_of_none hg)
    omega
  | some c =>
    have hcount : (s.incr k now).2 = c.count + 1 := congrArg Prod.snd (incr_of_some hg)
    omega

end Counters

end Store
