import Mathlib.Tactic

/-! # A slot that keeps the latest job

Jobs are posted to a slot with room for one, and run one at a time.
-/
namespace LatestSlot

inductive Event (α : Type*) where
  | post (a : α)
  | start (a : α)
  | finish (a : α)

structure Slot (α : Type*) where
  pending : Option α := none
  running : Option α := none

variable {α : Type*}

inductive Step : Slot α → Event α → Slot α → Prop
  | post (s : Slot α) (a : α) : Step s (.post a) { s with pending := some a }
  | start (a : α) : Step ⟨some a,none⟩ (.start a) ⟨none,some a⟩
  | finish (p : Option α) (a : α) : Step ⟨p,some a⟩ (.finish a) ⟨p,none⟩

inductive Follows : List (Event α) → Slot α → Prop
  | empty : Follows [] {}
  | step {h : List (Event α)} {s t : Slot α} {e : Event α} :
      Follows h s → Step s e t → Follows (h ++ [e]) t

def posts (h : List (Event α)) : List α :=
  h.filterMap fun | .post a => some a | _ => none

def starts (h : List (Event α)) : List α :=
  h.filterMap fun | .start a => some a | _ => none

def finishes (h : List (Event α)) : List α :=
  h.filterMap fun | .finish a => some a | _ => none

section
variable (h : List (Event α)) (a : α)

@[simp] theorem posts_post : posts (h ++ [.post a]) = posts h ++ [a] := by simp [posts]
@[simp] theorem posts_start : posts (h ++ [.start a]) = posts h := by simp [posts]
@[simp] theorem posts_finish : posts (h ++ [.finish a]) = posts h := by simp [posts]
@[simp] theorem starts_post : starts (h ++ [.post a]) = starts h := by simp [starts]
@[simp] theorem starts_start : starts (h ++ [.start a]) = starts h ++ [a] := by simp [starts]
@[simp] theorem starts_finish : starts (h ++ [.finish a]) = starts h := by simp [starts]
@[simp] theorem finishes_post : finishes (h ++ [.post a]) = finishes h := by simp [finishes]
@[simp] theorem finishes_start : finishes (h ++ [.start a]) = finishes h := by simp [finishes]
@[simp] theorem finishes_finish : finishes (h ++ [.finish a]) = finishes h ++ [a] := by
  simp [finishes]

end

theorem Follows.pending {h : List (Event α)} {s : Slot α} (hs : Follows h s) :
    match s.pending with
    | none => (starts h).Sublist (posts h) ∧ (starts h).getLast? = (posts h).getLast?
    | some a => ∃ pre, posts h = pre ++ [a] ∧ (starts h).Sublist pre := by
  induction hs with
  | empty => exact ⟨List.Sublist.refl _,rfl⟩
  | @step h s t e _ he ih =>
    cases he with
    | post s a =>
      refine ⟨posts h,posts_post h a,?_⟩
      rw [starts_post]
      obtain ⟨p,r⟩ := s
      cases p with
      | none => exact ih.1
      | some b =>
        obtain ⟨pre,hpost,hsub⟩ := ih
        exact hpost ▸ hsub.trans (List.sublist_append_left _ _)
    | start a =>
      obtain ⟨pre,hpost,hsub⟩ := ih
      rw [posts_start, starts_start, hpost]
      exact ⟨hsub.append (List.Sublist.refl [a]),by simp⟩
    | finish p a =>
      rw [posts_finish, starts_finish]
      exact ih

theorem Follows.running {h : List (Event α)} {s : Slot α} (hs : Follows h s) :
    starts h = finishes h ++ s.running.toList := by
  induction hs with
  | empty => rfl
  | step _ he ih =>
    cases he with
    | post s a => simpa using ih
    | start a => simpa using ih
    | finish p a => simpa using ih

theorem Follows.starts_sublist {h : List (Event α)} {s : Slot α} (hs : Follows h s) :
    (starts h).Sublist (posts h) := by
  have hp := hs.pending
  cases hpend : s.pending with
  | none =>
    rw [hpend] at hp
    exact hp.1
  | some a =>
    rw [hpend] at hp
    obtain ⟨pre,hpost,hsub⟩ := hp
    exact hpost ▸ hsub.trans (List.sublist_append_left _ _)

theorem Follows.finishes_prefix {h : List (Event α)} {s : Slot α} (hs : Follows h s) :
    finishes h <+: starts h := ⟨_,hs.running.symm⟩

theorem Follows.start_latest {h : List (Event α)} {s : Slot α} (hs : Follows h s)
    {pre post : List (Event α)} {a : α} (heq : h = pre ++ .start a :: post) :
    (posts pre).getLast? = some a := by
  induction hs generalizing post with
  | empty => simp at heq
  | @step h s t e hh he ih =>
    rcases List.eq_nil_or_concat post with rfl | ⟨post,e',rfl⟩
    · obtain ⟨rfl,hlast⟩ := List.append_inj' heq rfl
      obtain rfl : e = .start a := by simpa using hlast
      cases he with
      | start =>
        obtain ⟨pre',hpost,-⟩ := hh.pending
        rw [hpost, List.getLast?_concat]
    · rw [List.concat_eq_append, ← List.cons_append, ← List.append_assoc] at heq
      exact ih (List.append_inj' heq rfl).1

theorem Follows.idle {h : List (Event α)} {s : Slot α} (hs : Follows h s)
    (hp : s.pending = none) (hr : s.running = none) :
    (finishes h).getLast? = (posts h).getLast? := by
  have hpend := hs.pending
  have hrun := hs.running
  rw [hp] at hpend
  rw [hr, Option.toList_none, List.append_nil] at hrun
  rw [← hrun]
  exact hpend.2

end LatestSlot
