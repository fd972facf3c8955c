import Mathlib.Logic.Function.Basic
import Mathlib.Data.List.Basic

/-! # Doubly linked segments

Items with a link to the item before and a link to the item after.
-/
namespace DoublyLinked

structure Links (α : Type*) where
  next : α → Option α
  prev : α → Option α

variable {α : Type*}

namespace Links

/-- `l` is linked, with `p` before it and `n` after it. -/
def Linked (s : Links α) : Option α → List α → Option α → Prop
  | _, [], _ => True
  | p, a :: l, n => s.prev a = p ∧ s.next a = l.head?.or n ∧ s.Linked (some a) l n

theorem linked_append {s : Links α} {p n : Option α} {l m : List α} :
    s.Linked p (l ++ m) n ↔ s.Linked p l (m.head?.or n) ∧ s.Linked (l.getLast?.or p) m n := by
  induction l generalizing p with
  | nil => simp [Linked]
  | cons a l ih =>
    have hhead : (l ++ m).head?.or n = l.head?.or (m.head?.or n) := by
      cases l <;> simp
    have hlast : (a :: l).getLast?.or p = l.getLast?.or (some a) := by
      cases l <;> simp [List.getLast?_cons]
    rw [List.cons_append, Linked, Linked, ih, hhead, hlast]
    tauto

theorem Linked.at {s : Links α} {p n : Option α} {pre post : List α} {a : α}
    (h : s.Linked p (pre ++ a :: post) n) :
    s.prev a = pre.getLast?.or p ∧ s.next a = post.head?.or n := by
  obtain ⟨-,hprev,hnext,-⟩ := linked_append.mp h
  exact ⟨hprev,hnext⟩

theorem Linked.congr {s t : Links α} {p n : Option α} {l : List α} (h : s.Linked p l n)
    (hnext : ∀ a ∈ l,t.next a = s.next a) (hprev : ∀ a ∈ l,t.prev a = s.prev a) : t.Linked p l n := by
  induction l generalizing p with
  | nil => trivial
  | cons a l ih =>
    obtain ⟨hp,hn,hl⟩ := h
    refine ⟨(hprev a List.mem_cons_self).trans hp,(hnext a List.mem_cons_self).trans hn,?_⟩
    exact ih hl (fun b hb => hnext b (List.mem_cons_of_mem a hb)) (fun b hb => hprev b (List.mem_cons_of_mem a hb))

theorem Linked.last {s t : Links α} {p n n' : Option α} {l : List α} (h : s.Linked p l n) (hl : l.Nodup)
    (hprev : ∀ a ∈ l,t.prev a = s.prev a) (hnext : ∀ a ∈ l,l.getLast? ≠ some a → t.next a = s.next a)
    (hlast : ∀ a,l.getLast? = some a → t.next a = n') : t.Linked p l n' := by
  induction l generalizing p with
  | nil => trivial
  | cons a l ih =>
    obtain ⟨hp,hn,hrest⟩ := h
    obtain ⟨ha,hl⟩ := List.nodup_cons.mp hl
    have hp' := (hprev a List.mem_cons_self).trans hp
    cases l with
    | nil => exact ⟨hp',hlast a rfl,trivial⟩
    | cons b l =>
      simp only [List.getLast?_cons_cons] at hnext hlast
      have hne : (b :: l).getLast? ≠ some a := fun h => ha (List.mem_of_getLast? h)
      refine ⟨hp',(hnext a List.mem_cons_self hne).trans hn,ih hrest hl ?_ ?_ hlast⟩
      · exact fun c hc => hprev c (List.mem_cons_of_mem a hc)
      · exact fun c hc => hnext c (List.mem_cons_of_mem a hc)

theorem Linked.first {s t : Links α} {p p' n : Option α} {l : List α} (h : s.Linked p l n) (hl : l.Nodup)
    (hnext : ∀ a ∈ l,t.next a = s.next a) (hprev : ∀ a ∈ l,l.head? ≠ some a → t.prev a = s.prev a)
    (hfirst : ∀ a,l.head? = some a → t.prev a = p') : t.Linked p' l n := by
  cases l with
  | nil => trivial
  | cons a l =>
    obtain ⟨-,hn,hrest⟩ := h
    have ha := (List.nodup_cons.mp hl).1
    refine ⟨hfirst a rfl,(hnext a List.mem_cons_self).trans hn,hrest.congr ?_ ?_⟩
    · exact fun b hb => hnext b (List.mem_cons_of_mem a hb)
    · exact fun b hb => hprev b (List.mem_cons_of_mem a hb) fun h => ha (Option.some.inj h ▸ hb)

variable [DecidableEq α]

/-- `x` is put between two items that were linked to each other. -/
def insertBetween (s : Links α) (before : Option α) (x : α) (after : Option α) : Links α where
  next := match before with
    | none => Function.update s.next x after
    | some b => Function.update (Function.update s.next x after) b (some x)
  prev := match after with
    | none => Function.update s.prev x before
    | some b => Function.update (Function.update s.prev x before) b (some x)

/-- `x` is taken from between two items, which are linked to each other. -/
def unlink (s : Links α) (before : Option α) (x : α) (after : Option α) : Links α where
  next := match before with
    | none => Function.update s.next x none
    | some b => Function.update (Function.update s.next b after) x none
  prev := match after with
    | none => Function.update s.prev x none
    | some b => Function.update (Function.update s.prev b before) x none

section
variable (s : Links α) {before after : Option α} {x a : α}

theorem insertBetween_next (hx : a ≠ x) (hb : before ≠ some a) : (s.insertBetween before x after).next a = s.next a := by
  cases before with
  | none => exact Function.update_of_ne hx _ _
  | some b =>
    have hab : a ≠ b := fun h => hb (h ▸ rfl)
    exact (Function.update_of_ne hab _ _).trans (Function.update_of_ne hx _ _)

theorem insertBetween_prev (hx : a ≠ x) (hb : after ≠ some a) : (s.insertBetween before x after).prev a = s.prev a := by
  cases after with
  | none => exact Function.update_of_ne hx _ _
  | some b =>
    have hab : a ≠ b := fun h => hb (h ▸ rfl)
    exact (Function.update_of_ne hab _ _).trans (Function.update_of_ne hx _ _)

theorem insertBetween_before : (s.insertBetween (some a) x after).next a = some x := Function.update_self _ _ _

theorem insertBetween_after : (s.insertBetween before x (some a)).prev a = some x := Function.update_self _ _ _

theorem insertBetween_next_self (hb : before ≠ some x) : (s.insertBetween before x after).next x = after := by
  cases before with
  | none => exact Function.update_self _ _ _
  | some b =>
    have hxb : x ≠ b := fun h => hb (h ▸ rfl)
    exact (Function.update_of_ne hxb _ _).trans (Function.update_self _ _ _)

theorem insertBetween_prev_self (hb : after ≠ some x) : (s.insertBetween before x after).prev x = before := by
  cases after with
  | none => exact Function.update_self _ _ _
  | some b =>
    have hxb : x ≠ b := fun h => hb (h ▸ rfl)
    exact (Function.update_of_ne hxb _ _).trans (Function.update_self _ _ _)

theorem unlink_next (hx : a ≠ x) (hb : before ≠ some a) : (s.unlink before x after).next a = s.next a := by
  cases before with
  | none => exact Function.update_of_ne hx _ _
  | some b =>
    have hab : a ≠ b := fun h => hb (h ▸ rfl)
    exact (Function.update_of_ne hx _ _).trans (Function.update_of_ne hab _ _)

theorem unlink_prev (hx : a ≠ x) (hb : after ≠ some a) : (s.unlink before x after).prev a = s.prev a := by
  cases after with
  | none => exact Function.update_of_ne hx _ _
  | some b =>
    have hab : a ≠ b := fun h => hb (h ▸ rfl)
    exact (Function.update_of_ne hx _ _).trans (Function.update_of_ne hab _ _)

theorem unlink_before (hx : a ≠ x) : (s.unlink (some a) x after).next a = after :=
  (Function.update_of_ne hx _ _).trans (Function.update_self _ _ _)

theorem unlink_after (hx : a ≠ x) : (s.unlink before x (some a)).prev a = before :=
  (Function.update_of_ne hx _ _).trans (Function.update_self _ _ _)

end

theorem Linked.insert {s : Links α} {pre post : List α} {x : α} (h : s.Linked none (pre ++ post) none)
    (hl : (pre ++ post).Nodup) (hx : x ∉ pre ++ post) :
    (s.insertBetween pre.getLast? x post.head?).Linked none (pre ++ x :: post) none := by
  obtain ⟨hpre,hpost⟩ := linked_append.mp h
  obtain ⟨hlpre,hlpost,hapart⟩ := List.nodup_append.mp hl
  rw [Option.or_none] at hpre hpost
  have hxpre : ∀ a ∈ pre,a ≠ x := fun a ha h => hx (h ▸ List.mem_append_left _ ha)
  have hxpost : ∀ a ∈ post,a ≠ x := fun a ha h => hx (h ▸ List.mem_append_right _ ha)
  have hfar : ∀ a ∈ pre,post.head? ≠ some a := fun a ha h => hapart a ha a (List.mem_of_head? h) rfl
  have hnear : ∀ a ∈ post,pre.getLast? ≠ some a := fun a ha h => hapart a (List.mem_of_getLast? h) a ha rfl
  refine linked_append.mpr ⟨?_,?_,?_,?_⟩
  · refine hpre.last hlpre (fun a ha => ?_) (fun a ha hne => ?_) (fun a ha => ?_)
    · exact s.insertBetween_prev (hxpre a ha) (hfar a ha)
    · exact s.insertBetween_next (hxpre a ha) hne
    · rw [ha]
      exact s.insertBetween_before
  · rw [Option.or_none]
    exact s.insertBetween_prev_self fun h => hxpost x (List.mem_of_head? h) rfl
  · rw [Option.or_none]
    exact s.insertBetween_next_self fun h => hxpre x (List.mem_of_getLast? h) rfl
  · refine hpost.first hlpost (fun a ha => ?_) (fun a ha hne => ?_) (fun a ha => ?_)
    · exact s.insertBetween_next (hxpost a ha) (hnear a ha)
    · exact s.insertBetween_prev (hxpost a ha) hne
    · rw [ha]
      exact s.insertBetween_after

theorem Linked.unlink {s : Links α} {pre post : List α} {x : α} (h : s.Linked none (pre ++ x :: post) none)
    (hl : (pre ++ x :: post).Nodup) :
    (s.unlink pre.getLast? x post.head?).Linked none (pre ++ post) none := by
  obtain ⟨hpre,-,-,hpost⟩ := linked_append.mp h
  obtain ⟨hlpre,hlpost,hapart⟩ := List.nodup_append.mp hl
  obtain ⟨hx,hlpost⟩ := List.nodup_cons.mp hlpost
  have hxpre : ∀ a ∈ pre,a ≠ x := fun a ha => hapart a ha x List.mem_cons_self
  have hxpost : ∀ a ∈ post,a ≠ x := fun a ha h => hx (h ▸ ha)
  have hfar : ∀ a ∈ pre,post.head? ≠ some a :=
    fun a ha h => hapart a ha a (List.mem_cons_of_mem x (List.mem_of_head? h)) rfl
  have hnear : ∀ a ∈ post,pre.getLast? ≠ some a :=
    fun a ha h => hapart a (List.mem_of_getLast? h) a (List.mem_cons_of_mem x ha) rfl
  refine linked_append.mpr ⟨?_,?_⟩
  · refine hpre.last hlpre (fun a ha => ?_) (fun a ha hne => ?_) (fun a ha => ?_)
    · exact s.unlink_prev (hxpre a ha) (hfar a ha)
    · exact s.unlink_next (hxpre a ha) hne
    · rw [ha, Option.or_none]
      exact s.unlink_before (hxpre a (List.mem_of_getLast? ha))
  · refine hpost.first hlpost (fun a ha => ?_) (fun a ha hne => ?_) (fun a ha => ?_)
    · exact s.unlink_next (hxpost a ha) (hnear a ha)
    · exact s.unlink_prev (hxpost a ha) hne
    · rw [ha, Option.or_none]
      exact s.unlink_after (hxpost a (List.mem_of_head? ha))

end Links

end DoublyLinked
