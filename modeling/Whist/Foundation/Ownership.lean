import Mathlib.Tactic

/-! # Keys and their owners

A table marks keys as reserved or in use.
-/
namespace Ownership

inductive Status where
  | reserved
  | inUse
deriving DecidableEq, Repr

variable {κ ι : Type} [DecidableEq κ] [DecidableEq ι]

abbrev Table (κ : Type) := κ → Option Status

structure Claimed (t : Table κ) (keys : List κ) (t' : Table κ) : Prop where
  nodup : keys.Nodup
  free : ∀ k ∈ keys, t k = none
  after : ∀ k, t' k = if k ∈ keys then some .inUse else t k

def Released (t : Table κ) (keys : List κ) (t' : Table κ) : Prop :=
  ∀ k, t' k = if k ∈ keys ∧ t k = some .inUse then none else t k

/-- What the table says is what the owners hold. -/
structure Exact (reserved : κ → Prop) (t : Table κ) (held : ι → List κ) : Prop where
  nodup : ∀ i, (held i).Nodup
  disjoint : ∀ i j k, i ≠ j → k ∈ held i → k ∉ held j
  reserved_iff : ∀ k, t k = some .reserved ↔ reserved k
  inUse_iff : ∀ k, t k = some .inUse ↔ ∃ i, k ∈ held i

/-- What a step of one owner does to the table: nothing, a claim of keys where it held
none, or the release of all its keys. -/
inductive Effect (allowed : κ → Prop) (t t' : Table κ) (held held' : List κ) : Prop where
  | keep (ht : t' = t) (hheld : held' = held) : Effect allowed t t' held held'
  | claim (hnone : held = []) (hc : Claimed t held' t') (hallowed : ∀ k ∈ held', allowed k) :
    Effect allowed t t' held held'
  | release (hr : Released t held t') (hnone : held' = []) : Effect allowed t t' held held'

theorem Claimed.nil (t : Table κ) : Claimed t [] t where
  nodup := List.nodup_nil
  free := by simp
  after := by simp

theorem Claimed.snoc {t t' t'' : Table κ} {keys : List κ} {k : κ} (h : Claimed t keys t')
    (hfree : t' k = none) (hafter : ∀ k', t'' k' = if k' = k then some .inUse else t' k') :
    Claimed t (keys ++ [k]) t'' := by
  have hk : k ∉ keys := by
    intro hmem
    rw [h.after, if_pos hmem] at hfree
    cases hfree
  constructor
  · exact List.nodup_append.mpr ⟨h.nodup,List.nodup_singleton k,fun a ha b hb hab =>
      hk ((List.mem_singleton.mp hb) ▸ hab ▸ ha)⟩
  · intro k' hk'
    rcases List.mem_append.mp hk' with hmem | hmem
    · exact h.free k' hmem
    · rw [List.mem_singleton.mp hmem]
      rwa [h.after, if_neg hk] at hfree
  · intro k'
    rw [hafter, h.after]
    by_cases he : k' = k
    · simp [he]
    · simp [he]

theorem Released.nil (t : Table κ) : Released t [] t := by simp [Released]

theorem Released.cons {t t' t'' : Table κ} {keys : List κ} {k : κ}
    (hfirst : ∀ k', t' k' = if k' = k ∧ t k' = some .inUse then none else t k') (h : Released t' keys t'') :
    Released t (k :: keys) t'' := by
  intro k'
  rw [h k', hfirst k']
  by_cases he : k' = k
  · by_cases huse : t k' = some .inUse
    · simp [he, he ▸ huse]
    · simp [huse]
  · simp [he]

theorem Claimed.release {t t' t'' : Table κ} {keys : List κ} (h : Claimed t keys t')
    (hr : Released t' keys t'') : t'' = t := by
  funext k
  rw [hr k]
  by_cases hk : k ∈ keys
  · rw [if_pos ⟨hk,by rw [h.after, if_pos hk]⟩, h.free k hk]
  · rw [if_neg fun hand => hk hand.1, h.after, if_neg hk]

namespace Exact
variable {reserved : κ → Prop} {t t' : Table κ} {held : ι → List κ} {i : ι} {keys : List κ}

omit [DecidableEq κ] in
theorem keep (h : Exact reserved t held) (hkeys : keys = held i) :
    Exact reserved t (Function.update held i keys) := by
  rw [hkeys, Function.update_eq_self]
  exact h

theorem claim (h : Exact reserved t held) (hc : Claimed t keys t') (hnone : held i = []) :
    Exact reserved t' (Function.update held i keys) := by
  have hfree : ∀ k ∈ keys, ∀ j, k ∉ held j := by
    intro k hk j hj
    have huse := (h.inUse_iff k).mpr ⟨j,hj⟩
    rw [hc.free k hk] at huse
    cases huse
  constructor
  · intro j
    rcases eq_or_ne j i with rfl | hj
    · simpa using hc.nodup
    · simpa [hj] using h.nodup j
  · intro j l k hjl hj hl
    rcases eq_or_ne j i with rfl | hji
    · rw [Function.update_self] at hj
      rw [Function.update_of_ne hjl.symm] at hl
      exact hfree k hj l hl
    · rw [Function.update_of_ne hji] at hj
      rcases eq_or_ne l i with rfl | hli
      · rw [Function.update_self] at hl
        exact hfree k hl j hj
      · rw [Function.update_of_ne hli] at hl
        exact h.disjoint j l k hjl hj hl
  · intro k
    rw [hc.after, ← h.reserved_iff]
    by_cases hk : k ∈ keys
    · simp [hk, hc.free k hk]
    · simp [hk]
  · intro k
    rw [hc.after]
    constructor
    · intro huse
      by_cases hk : k ∈ keys
      · exact ⟨i,by simpa using hk⟩
      · rw [if_neg hk] at huse
        obtain ⟨j,hj⟩ := (h.inUse_iff k).mp huse
        have hji : j ≠ i := by
          rintro rfl
          rw [hnone] at hj
          cases hj
        exact ⟨j,by simpa [hji] using hj⟩
    · rintro ⟨j,hj⟩
      rcases eq_or_ne j i with rfl | hji
      · rw [Function.update_self] at hj
        rw [if_pos hj]
      · rw [Function.update_of_ne hji] at hj
        rw [if_neg fun hk => hfree k hk j hj]
        exact (h.inUse_iff k).mpr ⟨j,hj⟩

theorem release (h : Exact reserved t held) (hr : Released t (held i) t') :
    Exact reserved t' (Function.update held i []) := by
  constructor
  · intro j
    rcases eq_or_ne j i with rfl | hj
    · simp
    · simpa [hj] using h.nodup j
  · intro j l k hjl hj hl
    rcases eq_or_ne j i with rfl | hji
    · simp at hj
    · rcases eq_or_ne l i with rfl | hli
      · simp at hl
      · rw [Function.update_of_ne hji] at hj
        rw [Function.update_of_ne hli] at hl
        exact h.disjoint j l k hjl hj hl
  · intro k
    rw [hr k, ← h.reserved_iff]
    by_cases hk : k ∈ held i ∧ t k = some .inUse
    · simp [hk]
    · rw [if_neg hk]
  · intro k
    rw [hr k]
    constructor
    · intro huse
      by_cases hk : k ∈ held i ∧ t k = some .inUse
      · rw [if_pos hk] at huse
        cases huse
      · rw [if_neg hk] at huse
        obtain ⟨j,hj⟩ := (h.inUse_iff k).mp huse
        have hji : j ≠ i := by
          rintro rfl
          exact hk ⟨hj,huse⟩
        exact ⟨j,by simpa [hji] using hj⟩
    · rintro ⟨j,hj⟩
      have hji : j ≠ i := by
        rintro rfl
        simp at hj
      rw [Function.update_of_ne hji] at hj
      rw [if_neg fun hk => h.disjoint j i k hji hj hk.1]
      exact (h.inUse_iff k).mpr ⟨j,hj⟩

theorem step (h : Exact reserved t held) {allowed : κ → Prop} (he : Effect allowed t t' (held i) keys) :
    Exact reserved t' (Function.update held i keys) := by
  cases he with
  | keep ht hheld =>
    rw [ht]
    exact h.keep hheld
  | claim hnone hc hallowed => exact h.claim hc hnone
  | release hr hnone =>
    rw [hnone]
    exact h.release hr

end Exact

omit [DecidableEq ι] in
theorem Effect.allowed {allowed : κ → Prop} {t t' : Table κ} {held held' : List κ}
    (he : Effect allowed t t' held held') (h : ∀ k ∈ held, allowed k) : ∀ k ∈ held', allowed k := by
  cases he with
  | keep ht hheld => rwa [hheld]
  | claim hnone hc hallowed => exact hallowed
  | release hr hnone => simp [hnone]

end Ownership
