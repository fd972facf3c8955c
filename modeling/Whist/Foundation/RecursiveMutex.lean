import Mathlib.Tactic

/-! # A recursive mutex

A thread may lock the mutex again while it holds it; others wait.
-/
namespace RecursiveMutex

abbrev State (τ : Type*) := Option (τ × ℕ)

inductive Failure
  | blocked
  | notOwner
deriving DecidableEq

variable {τ : Type*} [DecidableEq τ]

def lock (t : τ) : State τ → Except Failure (State τ)
  | none => .ok (some (t,0))
  | some (owner,n) => if owner = t then .ok (some (t,n + 1)) else .error .blocked

def unlock (t : τ) : State τ → Except Failure (State τ)
  | none => .error .notOwner
  | some (owner,n) =>
    if owner = t then .ok (if n = 0 then none else some (t,n - 1)) else .error .notOwner

theorem unlock_of_lock {t : τ} {m m' : State τ} (h : lock t m = .ok m') : unlock t m' = .ok m := by
  rcases m with _ | ⟨owner,n⟩
  · cases h
    simp [unlock]
  · rw [lock] at h
    split_ifs at h with howner
    · cases h
      simp [unlock, howner]

end RecursiveMutex
