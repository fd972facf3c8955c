import Whist.Foundation.Program

/-! # Outcomes of a program

The executions of a program under a contract one by one: each call gets an answer that is trusted there.
-/
namespace Program
variable {Op : Type} {Ans : Op → Type} {α : Type} {σ : Type}

/-- From state `s` the program ends in state `t` with the value `a`. -/
inductive Ends (C : Contract Op Ans σ) : Program Op Ans α → σ → σ → α → Prop where
  | done (a : α) (s : σ) : Ends C (.done a) s s a
  | call {op : Op} {next : Ans op → Program Op Ans α} {s t : σ} {r : Ans op} {a : α}
      (hr : C.trusts s op r) (h : Ends C (next r) (C.track s ⟨op,r⟩) t a) :
      Ends C (.call op next) s t a

variable {C : Contract Op Ans σ}

theorem wp_iff_ends (hmay : ∀ s op, C.may s op) {p : Program Op Ans α} {Q : σ → α → Prop} {s : σ} :
    p.wp C Q s ↔ ∀ t a, Ends C p s t a → Q t a := by
  induction p generalizing s with
  | done a =>
    refine ⟨fun h t b hb => ?_,fun h => h s a (.done a s)⟩
    cases hb
    exact h
  | call op next ih =>
    constructor
    · intro h t a ha
      cases ha with
      | call hr hnext => exact (ih _).mp (h.2 _ hr) t a hnext
    · intro h
      exact ⟨hmay s op,fun r hr => (ih r).mpr fun t a ha => h t a (.call hr ha)⟩

theorem Calls.wp_of_le {P : Op → Prop} {R : σ → σ → Prop} {p : Program Op Ans α} (h : p.Calls P)
    (hmay : ∀ s op, C.may s op) (hrefl : ∀ s, R s s) (htrans : ∀ s t u, R s t → R t u → R s u)
    (htrack : ∀ s op r, P op → C.trusts s op r → R s (C.track s ⟨op,r⟩)) (s : σ) :
    p.wp C (fun t _ => R s t) s := by
  induction p generalizing s with
  | done a => exact hrefl s
  | call op next ih =>
    refine ⟨hmay s op,fun r hr => wp_mono (ih r (h.2 r) _) fun t _ ht => ?_⟩
    exact htrans _ _ _ (htrack s op r h.1 hr) ht

def outcome (C : Contract Op Ans σ) [∀ s op r, Decidable (C.trusts s op r)]
    (reply : σ → (op : Op) → Ans op) : Program Op Ans α → σ → Option (σ × α)
  | done a, s => some (s,a)
  | call op next, s =>
    if C.trusts s op (reply s op) then (next (reply s op)).outcome C reply (C.track s ⟨op,reply s op⟩)
    else none

theorem ends_of_outcome [∀ s op r, Decidable (C.trusts s op r)] {reply : σ → (op : Op) → Ans op}
    {p : Program Op Ans α} {s t : σ} {a : α} (h : p.outcome C reply s = some (t,a)) : Ends C p s t a := by
  induction p generalizing s with
  | done b =>
    cases h
    exact .done _ _
  | call op next ih =>
    rw [outcome] at h
    by_cases hr : C.trusts s op (reply s op)
    · rw [if_pos hr] at h
      exact .call hr (ih _ h)
    · rw [if_neg hr] at h
      cases h

end Program
