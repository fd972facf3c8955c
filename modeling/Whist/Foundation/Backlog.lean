import Mathlib.Tactic

/-! # A consumer that serves one item per round

Before round `j + 1` the amount `supply (j + 1)` has arrived in total; the first `p` items together need `need
p`.
-/
namespace Backlog

variable (need supply : ℕ → ℕ) (total : ℕ)

def served : ℕ → ℕ
  | 0 => 0
  | j + 1 =>
    if served j < total ∧ need (served j + 1) ≤ supply (j + 1) then served j + 1 else served j

/-- Each of the first `p` items had arrived early enough to be served within `j` rounds. -/
def InTime (p j : ℕ) : Prop := ∀ m < p, m < j ∧ need (p - m) ≤ supply (j - m)

variable {need supply total}

theorem served_le_total (j : ℕ) : served need supply total j ≤ total := by
  induction j with
  | zero => exact Nat.zero_le _
  | succ j ih =>
    rw [served]
    split_ifs with h
    · exact h.1
    · exact ih

theorem served_mono : Monotone (served need supply total) :=
  monotone_nat_of_le_succ (fun j => by
    rw [served]
    split_ifs <;> omega)

theorem inTime_succ {p j : ℕ} :
    InTime need supply (p + 1) (j + 1) ↔ InTime need supply p j ∧ need (p + 1) ≤ supply (j + 1) := by
  constructor
  · intro h
    refine ⟨fun m hm => ?_,(h 0 (by omega)).2⟩
    have := h (m + 1) (by omega)
    rwa [Nat.add_lt_add_iff_right, Nat.add_sub_add_right, Nat.add_sub_add_right] at this
  · rintro ⟨h,hlast⟩ m hm
    cases m with
    | zero => exact ⟨by omega,hlast⟩
    | succ m =>
      rw [Nat.add_lt_add_iff_right, Nat.add_sub_add_right, Nat.add_sub_add_right]
      exact h m (by omega)

/-- What is served in a number of rounds, in closed form. -/
theorem le_served_iff (hsupply : Monotone supply) {p j : ℕ} (hp : p ≤ total) :
    p ≤ served need supply total j ↔ InTime need supply p j := by
  induction j generalizing p with
  | zero =>
    rw [served, Nat.le_zero]
    constructor
    · rintro rfl m hm
      omega
    · intro h
      by_contra hne
      exact absurd (h 0 (by omega)).1 (lt_irrefl 0)
  | succ j ih =>
    cases p with
    | zero => exact ⟨fun _ m hm => by omega,fun _ => Nat.zero_le _⟩
    | succ p =>
      have hmore : p + 1 ≤ served need supply total j → need (p + 1) ≤ supply (j + 1) := fun h =>
        (((ih hp).mp h) 0 (by omega)).2.trans (hsupply (by omega))
      rw [inTime_succ, ← ih (by omega), served]
      split_ifs with h
      · by_cases heq : p = served need supply total j
        · subst heq
          exact ⟨fun _ => ⟨le_rfl,h.2⟩,fun _ => le_rfl⟩
        · exact ⟨fun hle => ⟨by omega,hmore (by omega)⟩,fun hle => by omega⟩
      · refine ⟨fun hle => ⟨by omega,hmore hle⟩,fun ⟨hle,hneed⟩ => ?_⟩
        by_contra hlt
        have heq : p = served need supply total j := by omega
        subst heq
        exact h ⟨by omega,hneed⟩

theorem exists_inTime_iff (hsupply : Monotone supply) {P : ℕ → Prop} (hP : ∀ p q, p ≤ q → P p → P q)
    (j : ℕ) :
    (∃ p ≤ total, InTime need supply p j ∧ P p) ↔ P (served need supply total j) := by
  constructor
  · rintro ⟨p,hp,htime,h⟩
    exact hP p _ ((le_served_iff hsupply hp).mpr htime) h
  · intro h
    have hle := @served_le_total need supply total j
    exact ⟨_,hle,(le_served_iff hsupply hle).mp le_rfl,h⟩

end Backlog
