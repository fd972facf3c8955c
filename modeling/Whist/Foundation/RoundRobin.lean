import Mathlib.Tactic

/-! # Dealing numbered items to groups in turn

Item `i` goes to group `i % groups` at position `i / groups`; `share` is the number
of items a group gets.
-/
namespace RoundRobin

def share (total groups g : ℕ) : ℕ := (total - g + groups - 1) / groups

theorem lt_share_iff {total groups g j : ℕ} (hg : 0 < groups) :
    j < share total groups g ↔ g + j * groups < total := by
  rw [share, Nat.lt_iff_add_one_le, Nat.le_div_iff_mul_le hg, Nat.add_one_mul]
  omega

theorem share_pos_iff {total groups g : ℕ} (hg : 0 < groups) :
    0 < share total groups g ↔ g < total := by
  rw [lt_share_iff hg]
  omega

theorem group_add_pos {groups g : ℕ} (j : ℕ) (h : g < groups) : (g + j * groups) % groups = g := by
  rw [Nat.add_mul_mod_self_right, Nat.mod_eq_of_lt h]

theorem pos_add_pos {groups g : ℕ} (j : ℕ) (h : g < groups) : (g + j * groups) / groups = j := by
  rw [Nat.add_mul_div_right _ _ (by omega), Nat.div_eq_of_lt h, Nat.zero_add]

theorem pos_lt_share {total groups i : ℕ} (hg : 0 < groups) (h : i < total) :
    i / groups < share total groups (i % groups) := by
  rw [lt_share_iff hg, Nat.mod_add_div']
  exact h

theorem share_le_first {total groups g : ℕ} : share total groups g ≤ share total groups 0 :=
  Nat.div_le_div_right (by omega)

theorem deal_perm {total groups : ℕ} (hg : 0 < groups) : ((List.range groups).flatMap (fun g =>
    (List.range (share total groups g)).map (fun j => g + j * groups))).Perm (List.range total) := by
  refine (List.perm_ext_iff_of_nodup ?_ List.nodup_range).mpr (fun i => ?_)
  · rw [List.nodup_flatMap]
    refine ⟨fun g hgr => ?_,?_⟩
    · exact List.nodup_range.map_on (fun a _ b _ hab =>
        Nat.eq_of_mul_eq_mul_right hg (Nat.add_left_cancel hab))
    · refine List.nodup_range.pairwise_of_forall_ne (fun g hgr h hhr hne => ?_)
      rw [Function.onFun, List.disjoint_left]
      intro i hi hj
      obtain ⟨a,-,rfl⟩ := List.mem_map.mp hi
      obtain ⟨b,-,hb⟩ := List.mem_map.mp hj
      have hmod := congrArg (fun x => x % groups) hb
      rw [group_add_pos _ (List.mem_range.mp hhr), group_add_pos _ (List.mem_range.mp hgr)] at hmod
      exact hne hmod.symm
  · simp only [List.mem_flatMap, List.mem_map, List.mem_range]
    constructor
    · rintro ⟨g,-,j,hj,rfl⟩
      exact (lt_share_iff hg).mp hj
    · intro hi
      exact ⟨i % groups,Nat.mod_lt _ hg,i / groups,pos_lt_share hg hi,Nat.mod_add_div' _ _⟩

theorem share_sum {total groups : ℕ} (hg : 0 < groups) :
    ((List.range groups).map (share total groups)).sum = total := by
  have hlen := (@deal_perm total groups hg).length_eq
  simpa [List.length_flatMap] using hlen

theorem flatMap_update_perm {α : Type*} {n g : ℕ} (hg : g < n) (lists : ℕ → List α) (a : α) :
    ((List.range n).flatMap (Function.update lists g (lists g ++ [a]))).Perm
      ((List.range n).flatMap lists ++ [a]) := by
  induction n with
  | zero => omega
  | succ n ih =>
    rw [List.range_succ, List.flatMap_append, List.flatMap_append, List.flatMap_singleton,
      List.flatMap_singleton]
    by_cases hn : g = n
    · subst hn
      have hsame : (List.range g).flatMap (Function.update lists g (lists g ++ [a])) =
          (List.range g).flatMap lists := by
        refine List.flatMap_congr (fun i hi => Function.update_of_ne ?_ _ _)
        exact (List.mem_range.mp hi).ne
      rw [hsame, Function.update_self, List.append_assoc]
    · rw [Function.update_of_ne (Ne.symm hn)]
      refine ((ih (by omega)).append_right _).trans ?_
      rw [List.append_assoc, List.append_assoc]
      exact (List.perm_append_comm).append_left _

end RoundRobin
