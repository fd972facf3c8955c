import Mathlib.Tactic

/-! # Arrays as functions, and codes that recover from any enough symbols

`scatter` writes labelled values into an array; `Mds` is the defining property of a
maximum distance separable code on the labelled symbols a receiver holds.
-/
namespace Scatter

variable {β : Type*}

def scatter (entries : List (ℕ × β)) (array : ℕ → β) : ℕ → β :=
  entries.foldl (fun array e => Function.update array e.1 e.2) array

theorem scatter_of_not_mem {entries : List (ℕ × β)} {array : ℕ → β} {i : ℕ}
    (h : i ∉ entries.map Prod.fst) : scatter entries array i = array i := by
  induction entries generalizing array with
  | nil => rfl
  | cons e rest ih =>
    simp only [List.map_cons, List.mem_cons, not_or] at h
    rw [scatter, List.foldl_cons]
    exact (ih h.2).trans (Function.update_of_ne h.1 _ _)

theorem scatter_of_mem {entries : List (ℕ × β)} {array : ℕ → β} {i : ℕ} {b : β}
    (h : i ∈ entries.map Prod.fst) (hb : ∀ e ∈ entries, e.1 = i → e.2 = b) :
    scatter entries array i = b := by
  induction entries generalizing array with
  | nil => simp at h
  | cons e rest ih =>
    rw [scatter, List.foldl_cons]
    by_cases hrest : i ∈ rest.map Prod.fst
    · exact ih hrest (fun e' he' => hb e' (List.mem_cons_of_mem _ he'))
    · have he : e.1 = i := by
        rw [List.map_cons, List.mem_cons] at h
        exact (h.resolve_right hrest).symm
      refine (scatter_of_not_mem hrest).trans ?_
      rw [← he, Function.update_self, hb e (by simp) he]

theorem map_scatter {entries : List (ℕ × β)} (hnd : (entries.map Prod.fst).Nodup) (array : ℕ → β) :
    (entries.map Prod.fst).map (scatter entries array) = entries.map Prod.snd := by
  rw [List.map_map]
  refine List.map_congr_left (fun e he => ?_)
  refine scatter_of_mem (List.mem_map_of_mem he) (fun d hd hde => ?_)
  rw [List.inj_on_of_nodup_map hnd hd he hde]

section Range
variable {n : ℕ} {label : ℕ → ℕ} {value : ℕ → β} {array : ℕ → β}

theorem scatter_range (hinj : ∀ i < n, ∀ j < n, label i = label j → i = j) {j : ℕ} (hj : j < n) :
    scatter ((List.range n).map (fun j => (label j,value j))) array (label j) = value j := by
  apply scatter_of_mem
  · rw [List.map_map]
    exact List.mem_map.mpr ⟨j,List.mem_range.mpr hj,rfl⟩
  · intro e he heq
    obtain ⟨i,hi,rfl⟩ := List.mem_map.mp he
    rw [hinj i (List.mem_range.mp hi) j hj heq]

theorem scatter_range_of_ne {i : ℕ} (h : ∀ j < n, label j ≠ i) :
    scatter ((List.range n).map (fun j => (label j,value j))) array i = array i := by
  apply scatter_of_not_mem
  rw [List.map_map]
  intro hi
  obtain ⟨j,hj,hji⟩ := List.mem_map.mp hi
  exact h j (List.mem_range.mp hj) hji

end Range

/-- From the symbols at any `k` distinct labels below `n`, decoding labels and
returns exactly the `k` original symbols. -/
def Mds (k n : ℕ) (valid : β → Prop) (symbol : (ℕ → β) → ℕ → β)
    (decode : List (ℕ × β) → List (ℕ × β)) : Prop :=
  ∀ (data : ℕ → β) (labels : List ℕ), (∀ i < k, valid (data i)) → labels.length = k →
    labels.Nodup → (∀ i ∈ labels, i < n) →
      ((decode (labels.map (fun i => (i,symbol data i)))).map Prod.fst).Perm (List.range k) ∧
      ∀ e ∈ decode (labels.map (fun i => (i,symbol data i))), e.2 = data e.1

theorem Mds.scatter {k n : ℕ} {valid : β → Prop} {symbol : (ℕ → β) → ℕ → β}
    {decode : List (ℕ × β) → List (ℕ × β)} (h : Mds k n valid symbol decode) {data : ℕ → β}
    {labels : List ℕ} (hv : ∀ i < k, valid (data i)) (hlen : labels.length = k)
    (hnd : labels.Nodup) (hlt : ∀ i ∈ labels, i < n) (array : ℕ → Option β) {i : ℕ} (hi : i < k) :
    Scatter.scatter ((decode (labels.map (fun i => (i,symbol data i)))).map
      (fun e => (e.1,some e.2))) array i = some (data i) := by
  obtain ⟨hperm,hval⟩ := h data labels hv hlen hnd hlt
  apply scatter_of_mem
  · rw [List.map_map]
    exact hperm.mem_iff.mpr (List.mem_range.mpr hi)
  · intro e he hei
    obtain ⟨d,hd,rfl⟩ := List.mem_map.mp he
    dsimp only at hei ⊢
    rw [hval d hd, hei]

end Scatter
