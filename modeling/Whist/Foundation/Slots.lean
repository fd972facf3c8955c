import Mathlib.Tactic

/-! # Lists whose places are names

What stands at a place of a list when one place is overwritten, or one more is added.
-/
namespace Slots

variable {α : Type*} {l : List α} {i j : ℕ} {x y : α}

theorem set_cases (h : (l.set i x)[j]? = some y) : (j = i ∧ y = x) ∨ (j ≠ i ∧ l[j]? = some y) := by
  rw [List.getElem?_set] at h
  by_cases hij : i = j
  · rw [if_pos hij] at h
    split_ifs at h
    exact Or.inl ⟨hij.symm,(Option.some.inj h).symm⟩
  · rw [if_neg hij] at h
    exact Or.inr ⟨Ne.symm hij,h⟩

theorem getElem?_set_of_some (h : l[i]? = some x) (y : α) (j : ℕ) :
    (l.set i y)[j]? = if j = i then some y else l[j]? := by
  have hi := (List.getElem?_eq_some_iff.mp h).1
  rw [List.getElem?_set]
  by_cases hij : i = j
  · rw [if_pos hij, if_pos hij.symm, if_pos (hij ▸ hi)]
  · rw [if_neg hij, if_neg (Ne.symm hij)]

theorem set_self (h : l[i]? = some x) (y : α) : (l.set i y)[i]? = some y := by
  rw [getElem?_set_of_some h, if_pos rfl]

theorem set_other (hj : l[j]? = some y) (hne : j ≠ i) : (l.set i x)[j]? = some y := by
  rw [List.getElem?_set_ne (Ne.symm hne)]
  exact hj

theorem concat_cases (h : (l ++ [x])[j]? = some y) : l[j]? = some y ∨ (j = l.length ∧ y = x) := by
  rcases lt_trichotomy j l.length with hlt | rfl | hgt
  · rw [List.getElem?_append_left hlt] at h
    exact Or.inl h
  · rw [List.getElem?_concat_length, Option.some.injEq] at h
    exact Or.inr ⟨rfl,h.symm⟩
  · rw [List.getElem?_eq_none (by rw [List.length_append, List.length_singleton]; omega)] at h
    cases h

theorem concat_old (h : l[j]? = some y) (x : α) : (l ++ [x])[j]? = some y := by
  rw [List.getElem?_append_left (List.getElem?_eq_some_iff.mp h).1]
  exact h

theorem lt_of_some (h : l[j]? = some y) : j < l.length := (List.getElem?_eq_some_iff.mp h).1

theorem forall_set {P : ℕ → α → Prop} (hi : P i x) (h : ∀ j y, j ≠ i → l[j]? = some y → P j y) :
    ∀ j y, (l.set i x)[j]? = some y → P j y := by
  intro j y hj
  rcases set_cases hj with ⟨rfl,rfl⟩ | ⟨hne,hj⟩
  · exact hi
  · exact h j y hne hj

theorem forall_concat {P : ℕ → α → Prop} (hx : P l.length x) (h : ∀ j y, l[j]? = some y → P j y) :
    ∀ j y, (l ++ [x])[j]? = some y → P j y := by
  intro j y hj
  rcases concat_cases hj with hj | ⟨rfl,rfl⟩
  · exact h j y hj
  · exact hx

end Slots
