import Mathlib.Tactic

/-! # Linearizable histories

A history has the calls and the answers of operations that overlap.
-/
namespace Linearizability

inductive Event (κ Op R : Type*) where
  | call (id : κ) (op : Op)
  | answer (id : κ) (r : R)

structure Entry (κ Op R : Type*) where
  id : κ
  op : Op
  response : R

variable {κ Op R S : Type*} {apply : S → Op → S × R}

def Legal (apply : S → Op → S × R) : S → List (Entry κ Op R) → S → Prop
  | s, [], t => s = t
  | s, e :: l, t => (apply s e.op).2 = e.response ∧ Legal apply (apply s e.op).1 l t

theorem Legal.concat {s t : S} {l : List (Entry κ Op R)} (h : Legal apply s l t) (id : κ) (op : Op) :
    Legal apply s (l ++ [⟨id,op,(apply t op).2⟩]) (apply t op).1 := by
  induction l generalizing s with
  | nil =>
    obtain rfl : s = t := h
    exact ⟨rfl,rfl⟩
  | cons e l ih => exact ⟨h.1,ih h.2⟩

theorem Legal.filter {s t : S} {l : List (Entry κ Op R)} (h : Legal apply s l t) {p : Entry κ Op R → Bool}
    (hp : ∀ e ∈ l,p e = false → ∀ s,(apply s e.op).2 = e.response → (apply s e.op).1 = s) :
    Legal apply s (l.filter p) t := by
  induction l generalizing s with
  | nil => exact h
  | cons e l ih =>
    have hrest := ih h.2 fun e he => hp e (List.mem_cons_of_mem _ he)
    cases hpe : p e with
    | true =>
      rw [List.filter_cons_of_pos hpe]
      exact ⟨h.1,hrest⟩
    | false =>
      rw [List.filter_cons_of_neg (by rw [hpe]; exact Bool.false_ne_true)]
      rwa [hp e List.mem_cons_self hpe s h.1] at hrest

def Before {α : Type*} (l : List α) (a b : α) : Prop := [a,b].Sublist l

theorem before_concat {α : Type*} {l : List α} {a b c : α} :
    Before (l ++ [c]) a b ↔ Before l a b ∨ a ∈ l ∧ b = c := by
  unfold Before
  rw [← List.reverse_sublist, List.reverse_concat, List.sublist_cons_iff, ← @List.reverse_sublist _ [a,b]]
  refine or_congr Iff.rfl ⟨?_,?_⟩
  · rintro ⟨r,hr,hsub⟩
    obtain ⟨rfl,rfl⟩ := List.cons.inj hr
    exact ⟨List.mem_reverse.mp (List.singleton_sublist.mp hsub),rfl⟩
  · rintro ⟨ha,rfl⟩
    exact ⟨[a],rfl,List.singleton_sublist.mpr (List.mem_reverse.mpr ha)⟩

/-- The operations of the history one at a time, in an order that keeps the order in time. -/
structure Linearizes (apply : S → Op → S × R) (s : S) (history : List (Event κ Op R)) (l : List (Entry κ Op R))
    (t : S) : Prop where
  legal : Legal apply s l t
  once : (l.map Entry.id).Nodup
  called : ∀ e ∈ l,.call e.id e.op ∈ history
  answered : ∀ id r,.answer id r ∈ history → ∃ e ∈ l,e.id = id ∧ e.response = r
  ordered : ∀ a r b op,Before history (.answer a r) (.call b op) → b ∈ l.map Entry.id →
    Before (l.map Entry.id) a b

namespace Linearizes
variable {s t : S} {history : List (Event κ Op R)} {l : List (Entry κ Op R)}

theorem call (h : Linearizes apply s history l t) {id : κ} (hid : id ∉ l.map Entry.id) (op : Op) :
    Linearizes apply s (history ++ [.call id op]) l t where
  legal := h.legal
  once := h.once
  called e he := List.mem_append_left _ (h.called e he)
  answered a r ha := by
    rcases List.mem_append.mp ha with ha | ha
    · exact h.answered a r ha
    · cases List.mem_singleton.mp ha
  ordered a r b op' hab hb := by
    rcases before_concat.mp hab with hab | ⟨-,heq⟩
    · exact h.ordered a r b op' hab hb
    · rw [Event.call.injEq] at heq
      exact (hid (heq.1 ▸ hb)).elim

theorem answer (h : Linearizes apply s history l t) {e : Entry κ Op R} (he : e ∈ l) :
    Linearizes apply s (history ++ [.answer e.id e.response]) l t where
  legal := h.legal
  once := h.once
  called e he := List.mem_append_left _ (h.called e he)
  answered a r ha := by
    rcases List.mem_append.mp ha with ha | ha
    · exact h.answered a r ha
    · obtain ⟨rfl,rfl⟩ := Event.answer.inj (List.mem_singleton.mp ha)
      exact ⟨e,he,rfl,rfl⟩
  ordered a r b op hab hb := by
    rcases before_concat.mp hab with hab | ⟨-,heq⟩
    · exact h.ordered a r b op hab hb
    · cases heq

theorem takeEffect (h : Linearizes apply s history l t) {id : κ} {op : Op} (hid : id ∉ l.map Entry.id)
    (hcall : .call id op ∈ history) : Linearizes apply s history (l ++ [⟨id,op,(apply t op).2⟩]) (apply t op).1 where
  legal := h.legal.concat id op
  once := by
    have hconcat := h.once.concat hid
    rw [List.concat_eq_append] at hconcat
    rw [List.map_append]
    exact hconcat
  called e he := by
    rcases List.mem_append.mp he with he | he
    · exact h.called e he
    · rwa [List.mem_singleton.mp he]
  answered a r ha := by
    obtain ⟨e,he,hr⟩ := h.answered a r ha
    exact ⟨e,List.mem_append_left _ he,hr⟩
  ordered a r b op' hab hb := by
    rw [List.map_append] at hb ⊢
    rcases List.mem_append.mp hb with hb | hb
    · exact before_concat.mpr (Or.inl (h.ordered a r b op' hab hb))
    · have ha : .answer a r ∈ history := hab.subset List.mem_cons_self
      obtain ⟨e,he,rfl,-⟩ := h.answered a r ha
      exact before_concat.mpr (Or.inr ⟨List.mem_map_of_mem he,List.mem_singleton.mp hb⟩)

variable [DecidableEq κ]

theorem takeBack (h : Linearizes apply s history l t) {id : κ} (hopen : ∀ r,.answer id r ∉ history)
    (hnothing : ∀ e ∈ l,e.id = id → ∀ s,(apply s e.op).2 = e.response → (apply s e.op).1 = s) :
    Linearizes apply s history (l.filter fun e => e.id ≠ id) t where
  legal := h.legal.filter fun e he hp => hnothing e he (by simpa using hp)
  once := h.once.sublist ((List.filter_sublist).map Entry.id)
  called e he := h.called e (List.mem_of_mem_filter he)
  answered a r ha := by
    obtain ⟨e,he,rfl,hr⟩ := h.answered a r ha
    have hne : e.id ≠ id := fun hid => hopen r (hid ▸ ha)
    exact ⟨e,List.mem_filter.mpr ⟨he,decide_eq_true hne⟩,rfl,hr⟩
  ordered a r b op hab hb := by
    have ha : .answer a r ∈ history := hab.subset List.mem_cons_self
    have hane : a ≠ id := fun haid => hopen r (haid ▸ ha)
    obtain ⟨e,he,rfl⟩ := List.mem_map.mp hb
    have hbne := of_decide_eq_true (List.mem_filter.mp he).2
    have hbefore := h.ordered a r e.id op hab (List.mem_map_of_mem (List.mem_of_mem_filter he))
    have hfilter : (l.filter fun e => e.id ≠ id).map Entry.id = (l.map Entry.id).filter fun i => i ≠ id := by
      rw [List.filter_map]
      rfl
    have hpair : [a,e.id].filter (fun i => i ≠ id) = [a,e.id] := by simp [hane, hbne]
    rw [hfilter, Before, ← hpair]
    exact hbefore.filter _

end Linearizes

end Linearizability
