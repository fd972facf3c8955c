import Whist.Foundation.Program

/-! # Programs served by a service

A service answers each call from its own state, which the call may change.
-/
namespace Program
variable {Op : Type} {Ans : Op → Type} {α β : Type} {σ : Type}

def serve (answer : σ → (op : Op) → Ans op × σ) : Program Op Ans α → σ → α × σ
  | done a, s => (a,s)
  | call op next, s => (next (answer s op).1).serve answer (answer s op).2

variable {answer : σ → (op : Op) → Ans op × σ}

@[simp] theorem serve_pure (a : α) (s : σ) : (pure a : Program Op Ans α).serve answer s = (a,s) := rfl

@[simp] theorem serve_perform (op : Op) (s : σ) :
    (perform op : Program Op Ans (Ans op)).serve answer s = answer s op := rfl

@[simp] theorem serve_bind (p : Program Op Ans α) (f : α → Program Op Ans β) (s : σ) :
    (p >>= f).serve answer s = (f (p.serve answer s).1).serve answer (p.serve answer s).2 := by
  change (p.bind f).serve answer s = _
  induction p generalizing s with
  | done a => rfl
  | call op next ih => exact ih (answer s op).1 (answer s op).2

end Program
