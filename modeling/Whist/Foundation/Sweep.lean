import Mathlib.Tactic

/-! # One pass over all indices

A loop that treats the indices below a bound in ascending order keeps an invariant that is stated for the number
of indices done.
-/
namespace Sweep
variable {σ α : Type*} {n : ℕ}

def sweep (n : ℕ) (f : σ → Fin n → σ) (s : σ) : σ := (List.finRange n).foldl f s

theorem sweep_succ (f : σ → Fin (n + 1) → σ) (s : σ) :
    sweep (n + 1) f s = f (sweep n (fun s i => f s i.castSucc) s) (Fin.last n) := by
  rw [sweep, List.finRange_succ_last, List.foldl_append, List.foldl_map]
  rfl

theorem invariant {P : ℕ → σ → Prop} {f : σ → Fin n → σ} {s : σ} (h₀ : P 0 s)
    (step : ∀ (i : Fin n) s, P i.val s → P (i.val + 1) (f s i)) : P n (sweep n f s) := by
  induction n with
  | zero => exact h₀
  | succ n ih =>
    rw [sweep_succ]
    exact step (Fin.last n) _ (ih fun i s h => step i.castSucc s h)

end Sweep
