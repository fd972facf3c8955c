import Mathlib.Tactic

/-! # Keys by recency

A cache that evicts its least recently used key stamps each key it touches with a growing counter.
-/
namespace Recency

variable {κ : Type*}

def least (best : κ × ℕ) (entries : List (κ × ℕ)) : κ × ℕ :=
  entries.foldl (fun best e => if e.2 < best.2 then e else best) best

theorem least_cons (best e : κ × ℕ) (entries : List (κ × ℕ)) :
    least best (e :: entries) = least (if e.2 < best.2 then e else best) entries := rfl

theorem least_mem (best : κ × ℕ) (entries : List (κ × ℕ)) :
    least best entries = best ∨ least best entries ∈ entries := by
  induction entries generalizing best with
  | nil => exact Or.inl rfl
  | cons e entries ih =>
    rw [least_cons]
    rcases ih (if e.2 < best.2 then e else best) with heq | hmem
    · rw [heq]
      split_ifs
      · exact Or.inr List.mem_cons_self
      · exact Or.inl rfl
    · exact Or.inr (List.mem_cons_of_mem _ hmem)

theorem least_le (best : κ × ℕ) (entries : List (κ × ℕ)) :
    (least best entries).2 ≤ best.2 ∧ ∀ e ∈ entries, (least best entries).2 ≤ e.2 := by
  induction entries generalizing best with
  | nil => exact ⟨le_rfl,fun e he => absurd he List.not_mem_nil⟩
  | cons e entries ih =>
    rw [least_cons]
    obtain ⟨hbest,hrest⟩ := ih (if e.2 < best.2 then e else best)
    have hle : (if e.2 < best.2 then e else best).2 ≤ best.2 ∧
        (if e.2 < best.2 then e else best).2 ≤ e.2 := by
      split_ifs with hlt
      · exact ⟨hlt.le,le_rfl⟩
      · exact ⟨le_rfl,not_lt.mp hlt⟩
    refine ⟨hbest.trans hle.1,fun e' he' => ?_⟩
    rcases List.mem_cons.mp he' with rfl | hmem
    · exact hbest.trans hle.2
    · exact hrest e' hmem

def trim (n : ℕ) (l : List κ) : List κ := if n < l.length then l.dropLast else l

/-- The keys with a stamp are those of `l`, and their stamps fall along it. -/
structure ByRecency (stamp : κ → Option ℕ) (next : ℕ) (l : List κ) : Prop where
  nodup : l.Nodup
  mem : ∀ k, k ∈ l ↔ ∃ m, stamp k = some m
  falls : l.Pairwise (fun a b => ∀ m n, stamp a = some m → stamp b = some n → n < m)
  fresh : ∀ k m, stamp k = some m → m < next

variable {stamp : κ → Option ℕ} {next : ℕ} {l : List κ}

theorem ByRecency.nil (next : ℕ) : ByRecency (fun _ : κ => none) next [] where
  nodup := List.nodup_nil
  mem k := by simp
  falls := List.Pairwise.nil
  fresh k m hk := nomatch hk

variable [DecidableEq κ]

/-- The keys after `k` is touched: moved to the front, or put there. -/
def access (n : ℕ) (k : κ) (l : List κ) : List κ :=
  if k ∈ l then k :: l.erase k else trim n (k :: l)

theorem ByRecency.touch (h : ByRecency stamp next l) (k : κ) :
    ByRecency (Function.update stamp k (some next)) (next + 1) (k :: l.erase k) where
  nodup := List.nodup_cons.mpr ⟨h.nodup.not_mem_erase,h.nodup.erase k⟩
  mem k' := by
    rw [List.mem_cons, h.nodup.mem_erase_iff, h.mem]
    by_cases hk : k' = k
    · simp [hk]
    · simp [hk]
  falls := by
    have hold : ∀ b ∈ l.erase k, Function.update stamp k (some next) b = stamp b :=
      fun b hb => Function.update_of_ne (h.nodup.mem_erase_iff.mp hb).1 ..
    refine List.pairwise_cons.mpr ⟨fun b hb m n hm hn => ?_,?_⟩
    · rw [Function.update_self, Option.some.injEq] at hm
      rw [hold b hb] at hn
      exact hm ▸ h.fresh b n hn
    · refine (h.falls.sublist List.erase_sublist).imp_of_mem (fun ha hb hab m n hm hn => ?_)
      rw [hold _ ha] at hm
      rw [hold _ hb] at hn
      exact hab m n hm hn
  fresh k' m hm := by
    by_cases hk : k' = k
    · rw [hk, Function.update_self, Option.some.injEq] at hm
      omega
    · rw [Function.update_of_ne hk] at hm
      exact (h.fresh k' m hm).trans (Nat.lt_succ_self _)

theorem ByRecency.eq_last {pre : List κ} {last : κ} (h : ByRecency stamp next (pre ++ [last])) {k : κ}
    {m : ℕ} (hk : stamp k = some m) (hleast : ∀ k' m', stamp k' = some m' → m ≤ m') : k = last := by
  have hmem : k ∈ pre ++ [last] := (h.mem k).mpr ⟨m,hk⟩
  rcases List.mem_append.mp hmem with hpre | hlast
  · obtain ⟨n,hn⟩ := (h.mem last).mp (by simp)
    have hlt := (List.pairwise_append.mp h.falls).2.2 k hpre last (List.mem_singleton_self _) m n hk hn
    have := hleast last n hn
    omega
  · exact List.mem_singleton.mp hlast

theorem ByRecency.dropLast {pre : List κ} {last : κ} (h : ByRecency stamp next (pre ++ [last])) :
    ByRecency (Function.update stamp last none) next pre := by
  obtain ⟨hnodup,-,hdisj⟩ := List.nodup_append.mp h.nodup
  have hne : ∀ k ∈ pre, k ≠ last := fun k hk => hdisj k hk last (List.mem_singleton_self _)
  refine ⟨hnodup,fun k => ?_,?_,fun k m hm => ?_⟩
  · by_cases hk : k = last
    · subst hk
      simp only [Function.update_self, reduceCtorEq, exists_false, iff_false]
      exact fun hmem => hne k hmem rfl
    · rw [Function.update_of_ne hk, ← h.mem, List.mem_append, List.mem_singleton]
      exact ⟨Or.inl,fun hmem => hmem.resolve_right hk⟩
  · refine (List.pairwise_append.mp h.falls).1.imp_of_mem (fun ha hb hab m n hm hn => ?_)
    rw [Function.update_of_ne (hne _ ha)] at hm
    rw [Function.update_of_ne (hne _ hb)] at hn
    exact hab m n hm hn
  · by_cases hk : k = last
    · rw [hk, Function.update_self] at hm
      cases hm
    · rw [Function.update_of_ne hk] at hm
      exact h.fresh k m hm

end Recency
