import Whist.Foundation.Bytes

/-! # Gathering the segments of a list

A memory that receives the segments of a list one by one, in any order.
-/
namespace Bytes

variable {α : Type*}

/-- The segments in `received` lie at their places in the memory. -/
def Holds (size : ℕ) (l : List α) (received : ℕ → Prop) (mem : ℕ → α) : Prop :=
  ∀ i, received i → ∀ k (h : k < (segment size l i).length), mem (i * size + k) = (segment size l i)[k]

theorem Holds.none (size : ℕ) (l : List α) {received : ℕ → Prop} (h : ∀ i, ¬received i) (mem : ℕ → α) :
    Holds size l received mem := fun i hi => absurd hi (h i)

theorem Holds.mono {size : ℕ} {l : List α} {received received' : ℕ → Prop} {mem : ℕ → α}
    (h : Holds size l received mem) (hsub : ∀ i, received' i → received i) : Holds size l received' mem :=
  fun i hi => h i (hsub i hi)

theorem Holds.write {size : ℕ} {l : List α} {received received' : ℕ → Prop} {mem : ℕ → α}
    (h : Holds size l received mem) {i : ℕ} (hsub : ∀ j, received' j → j ≠ i → received j) :
    Holds size l received' (writeAt mem (i * size) (segment size l i)) := by
  intro j hj k hk
  by_cases hji : j = i
  · subst hji
    rw [writeAt, if_pos (Nat.le_add_right _ _), Nat.add_sub_cancel_left, List.getElem?_eq_getElem hk]
    rfl
  · rw [← h j (hsub j hj hji) k hk, writeAt]
    have hsize : k < size := hk.trans_le ((length_segment size l j).le.trans (min_le_left _ _))
    split_ifs with hle
    · -- a later segment begins behind the end of this one
      have hlt : i < j := by
        by_contra hge
        have hmul : (j + 1) * size ≤ i * size := Nat.mul_le_mul_right size (by omega)
        rw [Nat.succ_mul] at hmul
        omega
      have hmul : (i + 1) * size ≤ j * size := Nat.mul_le_mul_right size hlt
      rw [Nat.succ_mul] at hmul
      have hend : (segment size l i).length ≤ size := (length_segment size l i).le.trans (min_le_left _ _)
      rw [List.getElem?_eq_none (by omega)]
      rfl
    · rfl

theorem Holds.all {size : ℕ} {l : List α} {received : ℕ → Prop} {mem : ℕ → α} (hsize : 0 < size)
    (h : Holds size l received mem) (hall : ∀ i, i * size < l.length → received i) :
    (List.range l.length).map mem = l := by
  apply List.ext_getElem (by simp)
  intro p hp hpl
  have hdiv : p / size * size + p % size = p := Nat.div_add_mod' p size
  have hmod := Nat.mod_lt p hsize
  have hlen : p % size < (segment size l (p / size)).length := by
    rw [length_segment]
    omega
  have hat := h (p / size) (hall _ (by omega)) (p % size) hlen
  rw [hdiv] at hat
  rw [List.getElem_map, List.getElem_range, hat]
  simp [segment, hdiv]

theorem sum_length_segment (size : ℕ) (l : List α) (n : ℕ) :
    ∑ i ∈ Finset.range n, (segment size l i).length = min (n * size) l.length := by
  induction n with
  | zero => simp
  | succ n ih =>
    rw [Finset.sum_range_succ, ih, length_segment, Nat.succ_mul]
    omega

end Bytes
