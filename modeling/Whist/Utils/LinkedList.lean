import Mathlib.Tactic
import Mathlib.Data.List.DropRight
import Whist.Foundation.DoublyLinked

/-! # Linked lists of structures

Lists live in one memory with the items: an item is an address, its header has the links, and every list
knows its first item, its last item and their number.
-/
namespace Whist.LinkedLists
open DoublyLinked

structure LinkedList (α : Type*) where
  head : Option α
  tail : Option α
  items : ℤ

/-- The headers of the items, and the lists. -/
structure Memory (ι α : Type*) extends Links α where
  lists : ι → LinkedList α

variable {ι α : Type*} [DecidableEq ι] [DecidableEq α]

namespace Memory

@[simp] def setNext (m : Memory ι α) (a : α) (b : Option α) : Memory ι α :=
  { m with next := Function.update m.next a b }

@[simp] def setPrev (m : Memory ι α) (a : α) (b : Option α) : Memory ι α :=
  { m with prev := Function.update m.prev a b }

@[simp] def setList (m : Memory ι α) (list : ι) (l : LinkedList α) : Memory ι α :=
  { m with lists := Function.update m.lists list l }

@[simp] def setHead (m : Memory ι α) (list : ι) (a : Option α) : Memory ι α :=
  m.setList list { m.lists list with head := a }

@[simp] def setTail (m : Memory ι α) (list : ι) (a : Option α) : Memory ι α :=
  m.setList list { m.lists list with tail := a }

@[simp] def setItems (m : Memory ι α) (list : ι) (n : ℤ) : Memory ι α :=
  m.setList list { m.lists list with items := n }

end Memory

def linkedListInit (m : Memory ι α) (list : ι) : Memory ι α :=
  ((m.setItems list 0).setHead list none).setTail list none

def linkedListAddHead (m : Memory ι α) (list : ι) (item : α) : Memory ι α :=
  let m := m.setItems list ((m.lists list).items + 1)
  let m := m.setNext item (m.lists list).head
  let m := m.setPrev item none
  let m := match (m.lists list).head with
    | some head => m.setPrev head (some item)
    | none => m.setTail list (some item)
  m.setHead list (some item)

def linkedListAddTail (m : Memory ι α) (list : ι) (item : α) : Memory ι α :=
  let m := m.setItems list ((m.lists list).items + 1)
  let m := m.setPrev item (m.lists list).tail
  let m := m.setNext item none
  let m := match (m.lists list).tail with
    | some tail => m.setNext tail (some item)
    | none => m.setHead list (some item)
  m.setTail list (some item)

def linkedListAddAfter (m : Memory ι α) (list : ι) (oldItem newItem : α) : Memory ι α :=
  match m.next oldItem with
  | none => linkedListAddTail m list newItem
  | some next =>
    let m := m.setItems list ((m.lists list).items + 1)
    let m := m.setNext newItem (some next)
    let m := m.setPrev newItem (some oldItem)
    let m := m.setPrev next (some newItem)
    m.setNext oldItem (some newItem)

def linkedListAddBefore (m : Memory ι α) (list : ι) (oldItem newItem : α) : Memory ι α :=
  match m.prev oldItem with
  | none => linkedListAddHead m list newItem
  | some prev =>
    let m := m.setItems list ((m.lists list).items + 1)
    let m := m.setNext newItem (some oldItem)
    let m := m.setPrev newItem (some prev)
    let m := m.setNext prev (some newItem)
    m.setPrev oldItem (some newItem)

/-- None where the assertion fails. -/
def linkedListRemove (m : Memory ι α) (list : ι) (item : α) : Option (Memory ι α) :=
  if 0 < (m.lists list).items then
    let m := match m.next item with
      | some next => m.setPrev next (m.prev item)
      | none => m.setTail list (m.prev item)
    let m := match m.prev item with
      | some prev => m.setNext prev (m.next item)
      | none => m.setHead list (m.next item)
    let m := (m.setPrev item none).setNext item none
    some (m.setItems list ((m.lists list).items - 1))
  else none

def linkedListExtractHead (m : Memory ι α) (list : ι) : Option (Memory ι α × Option α) :=
  match (m.lists list).head with
  | some item => (linkedListRemove m list item).map fun m => (m,some item)
  | none => some (m,none)

def linkedListExtractTail (m : Memory ι α) (list : ι) : Option (Memory ι α × Option α) :=
  match (m.lists list).tail with
  | some item => (linkedListRemove m list item).map fun m => (m,some item)
  | none => some (m,none)

/-- The last item from `b` back that `a` compares greater than, or none where the fuel runs out. -/
def findLast (m : Memory ι α) (cmp : α → α → ℤ) (a : α) : ℕ → Option α → Option (Option α)
  | 0, _ => none
  | _ + 1, none => some none
  | fuel + 1, some b => if 0 < cmp a b then some (some b) else findLast m cmp a fuel (m.prev b)

def moveBehind (m : Memory ι α) (list : ι) (a : α) (b : Option α) : Option (Memory ι α) :=
  if b = m.prev a then some m
  else
    match b with
    | none => (linkedListRemove m list a).map fun m => linkedListAddHead m list a
    | some b => (linkedListRemove m list a).map fun m => linkedListAddAfter m list b a

def sortLoop (list : ι) (cmp : α → α → ℤ) : ℕ → Memory ι α → Option α → Option (Memory ι α)
  | 0, _, _ => none
  | _ + 1, m, none => some m
  | fuel + 1, m, some a =>
    let next := m.next a
    match findLast m cmp a fuel (m.prev a) with
    | none => none
    | some b =>
      match moveBehind m list a b with
      | none => none
      | some m => sortLoop list cmp fuel m next

def linkedListSort (fuel : ℕ) (m : Memory ι α) (list : ι) (cmp : α → α → ℤ) : Option (Memory ι α) :=
  sortLoop list cmp fuel m (m.lists list).head

/-- Whether the item before `iter`, or the list, leads to it. -/
def prevLeads (m : Memory ι α) (list : ι) (iter : α) : Bool :=
  match m.prev iter with
  | some prev => m.next prev = some iter
  | none => (m.lists list).head = some iter

def nextLeads (m : Memory ι α) (list : ι) (iter : α) : Bool :=
  match m.next iter with
  | some next => m.prev next = some iter
  | none => (m.lists list).tail = some iter

/-- The checking loop from `iter` on, with `count` items counted before. -/
def checkLoop (m : Memory ι α) (list : ι) : ℕ → Option α → ℤ → Option Bool
  | 0, _, _ => none
  | _ + 1, none, count => some (count = (m.lists list).items)
  | fuel + 1, some iter, count =>
    if !prevLeads m list iter then some false
    else if !nextLeads m list iter then some false
    else checkLoop m list fuel (m.next iter) (count + 1)

def linkedListCheckValidity (fuel : ℕ) (m : Memory ι α) (list : ι) : Option Bool :=
  checkLoop m list fuel (m.lists list).head 0

inductive Call (ι α : Type*) where
  | init (list : ι)
  | addHead (list : ι) (item : α)
  | addTail (list : ι) (item : α)
  | addAfter (list : ι) (oldItem newItem : α)
  | addBefore (list : ι) (oldItem newItem : α)
  | remove (list : ι) (item : α)
  | extractHead (list : ι)
  | extractTail (list : ι)
  | sort (list : ι) (cmp : α → α → ℤ)

def call (fuel : ℕ) (m : Memory ι α) : Call ι α → Option (Memory ι α × Option α)
  | .init list => some (linkedListInit m list,none)
  | .addHead list item => some (linkedListAddHead m list item,none)
  | .addTail list item => some (linkedListAddTail m list item,none)
  | .addAfter list oldItem newItem => some (linkedListAddAfter m list oldItem newItem,none)
  | .addBefore list oldItem newItem => some (linkedListAddBefore m list oldItem newItem,none)
  | .remove list item => (linkedListRemove m list item).map fun m => (m,none)
  | .extractHead list => linkedListExtractHead m list
  | .extractTail list => linkedListExtractTail m list
  | .sort list cmp => (linkedListSort fuel m list cmp).map fun m => (m,none)

def calls (fuel : ℕ) : Memory ι α → List (Call ι α) → Option (Memory ι α × List (Option α))
  | m, [] => some (m,[])
  | m, c :: cs =>
    match call fuel m c with
    | none => none
    | some (m,returned) => (calls fuel m cs).map fun p => (p.1,returned :: p.2)

abbrev Sequences (ι α : Type*) := ι → List α

def Free (ls : Sequences ι α) (a : α) : Prop := ∀ list,a ∉ ls list

/-- `a` before the items at the end that it does not compare greater than. -/
def sortedInsert (cmp : α → α → ℤ) (l : List α) (a : α) : List α :=
  l.rdropWhile (fun b => cmp a b ≤ 0) ++ a :: l.rtakeWhile (fun b => cmp a b ≤ 0)

def sorted (cmp : α → α → ℤ) (l : List α) : List α := l.foldl (sortedInsert cmp) []

omit [DecidableEq α] in
theorem sortedInsert_perm (cmp : α → α → ℤ) (l : List α) (a : α) : (sortedInsert cmp l a).Perm (a :: l) := by
  refine List.perm_middle.trans ?_
  rw [List.rdropWhile_append_rtakeWhile]

namespace Call

def Requires (ls : Sequences ι α) : Call ι α → Prop
  | .init _ => True
  | .addHead _ item => Free ls item
  | .addTail _ item => Free ls item
  | .addAfter list oldItem newItem => oldItem ∈ ls list ∧ Free ls newItem
  | .addBefore list oldItem newItem => oldItem ∈ ls list ∧ Free ls newItem
  | .remove list item => item ∈ ls list
  | .extractHead _ => True
  | .extractTail _ => True
  | .sort _ _ => True

def result (ls : Sequences ι α) : Call ι α → Sequences ι α
  | .init list => Function.update ls list []
  | .addHead list item => Function.update ls list (item :: ls list)
  | .addTail list item => Function.update ls list (ls list ++ [item])
  | .addAfter list oldItem newItem =>
    Function.update ls list ((ls list).insertIdx ((ls list).idxOf oldItem + 1) newItem)
  | .addBefore list oldItem newItem =>
    Function.update ls list ((ls list).insertIdx ((ls list).idxOf oldItem) newItem)
  | .remove list item => Function.update ls list ((ls list).erase item)
  | .extractHead list => Function.update ls list (ls list).tail
  | .extractTail list => Function.update ls list (ls list).dropLast
  | .sort list cmp => Function.update ls list (sorted cmp (ls list))

def returned (ls : Sequences ι α) : Call ι α → Option α
  | .extractHead list => (ls list).head?
  | .extractTail list => (ls list).getLast?
  | _ => none

end Call

def Call.fuel (ls : Sequences ι α) : Call ι α → ℕ
  | .sort list _ => 2 * (ls list).length
  | _ => 0

def Call.fuels : Sequences ι α → List (Call ι α) → ℕ
  | _, [] => 0
  | ls, c :: cs => max (c.fuel ls) (fuels (c.result ls) cs)

def Admissible : Sequences ι α → List (Call ι α) → Prop
  | _, [] => True
  | ls, c :: cs => c.Requires ls ∧ Admissible (c.result ls) cs

def results : Sequences ι α → List (Call ι α) → Sequences ι α
  | ls, [] => ls
  | ls, c :: cs => results (c.result ls) cs

def returns : Sequences ι α → List (Call ι α) → List (Option α)
  | _, [] => []
  | ls, c :: cs => c.returned ls :: returns (c.result ls) cs

omit [DecidableEq α] in
theorem insertIdx_length (l l' : List α) (n : ℕ) (a : α) :
    (l ++ l').insertIdx (l.length + n) a = l ++ l'.insertIdx n a := by
  induction l with
  | nil => rw [List.length_nil, Nat.zero_add, List.nil_append, List.nil_append]
  | cons b l ih =>
    rw [List.length_cons, Nat.add_right_comm]
    exact congrArg (b :: ·) ih

/-- `x` between two items of the list, or before its head or behind its tail. -/
def insertBetween (m : Memory ι α) (list : ι) (before : Option α) (x : α) (after : Option α) : Memory ι α where
  toLinks := m.toLinks.insertBetween before x after
  lists := Function.update m.lists list
    { head := if before = none then some x else (m.lists list).head
      tail := if after = none then some x else (m.lists list).tail
      items := (m.lists list).items + 1 }

def unlink (m : Memory ι α) (list : ι) (before : Option α) (x : α) (after : Option α) : Memory ι α where
  toLinks := m.toLinks.unlink before x after
  lists := Function.update m.lists list
    { head := if before = none then after else (m.lists list).head
      tail := if after = none then before else (m.lists list).tail
      items := (m.lists list).items - 1 }

section
variable (m : Memory ι α) (list : ι)

theorem linkedListAddHead_eq (item : α) :
    linkedListAddHead m list item = insertBetween m list none item (m.lists list).head := by
  cases hhead : (m.lists list).head with
  | none => simp [linkedListAddHead, insertBetween, Links.insertBetween, hhead]
  | some head => simp [linkedListAddHead, insertBetween, Links.insertBetween, hhead]

theorem linkedListAddTail_eq (item : α) :
    linkedListAddTail m list item = insertBetween m list (m.lists list).tail item none := by
  cases htail : (m.lists list).tail with
  | none => simp [linkedListAddTail, insertBetween, Links.insertBetween, htail]
  | some tail => simp [linkedListAddTail, insertBetween, Links.insertBetween, htail]

theorem linkedListAddAfter_eq {oldItem : α} (newItem : α)
    (h : m.next oldItem = none → (m.lists list).tail = some oldItem) :
    linkedListAddAfter m list oldItem newItem =
      insertBetween m list (some oldItem) newItem (m.next oldItem) := by
  cases hnext : m.next oldItem with
  | none => simp only [linkedListAddAfter, hnext, linkedListAddTail_eq, h hnext]
  | some next => simp [linkedListAddAfter, insertBetween, Links.insertBetween, hnext]

theorem linkedListAddBefore_eq {oldItem : α} (newItem : α)
    (h : m.prev oldItem = none → (m.lists list).head = some oldItem) :
    linkedListAddBefore m list oldItem newItem =
      insertBetween m list (m.prev oldItem) newItem (some oldItem) := by
  cases hprev : m.prev oldItem with
  | none => simp only [linkedListAddBefore, hprev, linkedListAddHead_eq, h hprev]
  | some prev => simp [linkedListAddBefore, insertBetween, Links.insertBetween, hprev]

theorem linkedListRemove_eq {item : α} (hitems : 0 < (m.lists list).items) (hnext : m.next item ≠ some item) :
    linkedListRemove m list item = some (unlink m list (m.prev item) item (m.next item)) := by
  rw [linkedListRemove, if_pos hitems]
  cases hn : m.next item with
  | none =>
    cases hp : m.prev item with
    | none => simp [unlink, Links.unlink, hp, hn]
    | some prev => simp [unlink, Links.unlink, hp, hn]
  | some next =>
    have hne : item ≠ next := fun h => hnext (h ▸ hn)
    cases hp : m.prev item with
    | none => simp [unlink, Links.unlink, hp, hn, hne]
    | some prev => simp [unlink, Links.unlink, hp, hn, hne]

end

/-- Every list has the links, the ends and the number of its items, and no item is in two places. -/
structure Represents (m : Memory ι α) (ls : Sequences ι α) : Prop where
  linked : ∀ list,m.Linked none (ls list) none
  lists : ∀ list,m.lists list = ⟨(ls list).head?,(ls list).getLast?,(ls list).length⟩
  nodup : ∀ list,(ls list).Nodup
  apart : ∀ list list',list ≠ list' → (ls list).Disjoint (ls list')

namespace Represents
variable {m : Memory ι α} {ls : Sequences ι α} {list : ι} {pre post : List α} {x : α}

omit [DecidableEq ι] [DecidableEq α] in
theorem item (h : Represents m ls) (hl : ls list = pre ++ x :: post) :
    m.prev x = pre.getLast? ∧ m.next x = post.head? := by
  have hlinked := h.linked list
  rw [hl] at hlinked
  obtain ⟨hprev,hnext⟩ := hlinked.at
  rw [Option.or_none] at hprev hnext
  exact ⟨hprev,hnext⟩

omit [DecidableEq α] in
theorem update (h : Represents m ls) {m' : Memory ι α} {l : List α} (hlinked : m'.Linked none l none)
    (hlist : m'.lists = Function.update m.lists list ⟨l.head?,l.getLast?,l.length⟩) (hl : l.Nodup)
    (hmem : ∀ a ∈ l,a ∈ ls list ∨ Free ls a)
    (hlinks : ∀ list' ≠ list,∀ a ∈ ls list',m'.next a = m.next a ∧ m'.prev a = m.prev a) :
    Represents m' (Function.update ls list l) := by
  have hdisjoint : ∀ list' ≠ list,l.Disjoint (ls list') := by
    intro list' hne a ha ha'
    rcases hmem a ha with hown | hfree
    · exact h.apart list' list hne ha' hown
    · exact hfree list' ha'
  constructor
  case linked =>
    intro list'
    rcases eq_or_ne list' list with rfl | hne
    · rwa [Function.update_self]
    · rw [Function.update_of_ne hne]
      exact (h.linked list').congr (fun a ha => (hlinks list' hne a ha).1) fun a ha => (hlinks list' hne a ha).2
  case lists =>
    intro list'
    rcases eq_or_ne list' list with rfl | hne
    · rw [hlist, Function.update_self, Function.update_self]
    · rw [hlist, Function.update_of_ne hne, Function.update_of_ne hne]
      exact h.lists list'
  case nodup =>
    intro list'
    rcases eq_or_ne list' list with rfl | hne
    · rwa [Function.update_self]
    · rw [Function.update_of_ne hne]
      exact h.nodup list'
  case apart =>
    intro list₁ list₂ hne
    rcases eq_or_ne list₁ list with rfl | hne₁
    · rw [Function.update_self, Function.update_of_ne hne.symm]
      exact hdisjoint list₂ hne.symm
    · rw [Function.update_of_ne hne₁]
      rcases eq_or_ne list₂ list with rfl | hne₂
      · rw [Function.update_self]
        exact (hdisjoint list₁ hne).symm
      · rw [Function.update_of_ne hne₂]
        exact h.apart list₁ list₂ hne

theorem insert (h : Represents m ls) (hl : ls list = pre ++ post) (hx : Free ls x) :
    Represents (insertBetween m list pre.getLast? x post.head?) (Function.update ls list (pre ++ x :: post)) := by
  have hlinked := h.linked list
  have hnodup := h.nodup list
  have hxl := hx list
  rw [hl] at hlinked hnodup hxl
  have hbefore : ∀ a,pre.getLast? = some a → a ∈ ls list :=
    fun a ha => hl ▸ List.mem_append_left _ (List.mem_of_getLast? ha)
  have hafter : ∀ a,post.head? = some a → a ∈ ls list :=
    fun a ha => hl ▸ List.mem_append_right _ (List.mem_of_head? ha)
  refine h.update (hlinked.insert hnodup hxl) ?_ ?_ ?_ ?_
  · simp only [insertBetween, h.lists list, hl]
    congr 1
    cases pre using List.reverseRecOn <;> cases post <;> simp <;> omega
  · exact List.nodup_middle.mpr (List.nodup_cons.mpr ⟨hxl,hnodup⟩)
  · intro a ha
    rcases List.mem_cons.mp (List.perm_middle.mem_iff.mp ha) with rfl | ha
    · exact Or.inr hx
    · exact Or.inl (hl ▸ ha)
  · intro list' hne a ha
    have hax : a ≠ x := fun hax => hx list' (hax ▸ ha)
    exact ⟨m.insertBetween_next hax fun hab => h.apart list' list hne ha (hbefore a hab),
      m.insertBetween_prev hax fun hab => h.apart list' list hne ha (hafter a hab)⟩

theorem addHead (h : Represents m ls) (hx : Free ls x) :
    Represents (linkedListAddHead m list x) (Function.update ls list (x :: ls list)) := by
  rw [linkedListAddHead_eq, h.lists list]
  have hhead : ls list = [] ++ ls list := rfl
  exact h.insert hhead hx

theorem addTail (h : Represents m ls) (hx : Free ls x) :
    Represents (linkedListAddTail m list x) (Function.update ls list (ls list ++ [x])) := by
  rw [linkedListAddTail_eq, h.lists list]
  have htail : ls list = ls list ++ [] := (List.append_nil _).symm
  exact h.insert htail hx

theorem addAfter (h : Represents m ls) {old : α} (hl : ls list = pre ++ old :: post) (hx : Free ls x) :
    Represents (linkedListAddAfter m list old x) (Function.update ls list (pre ++ old :: x :: post)) := by
  have hnext := (h.item hl).2
  have htail : m.next old = none → (m.lists list).tail = some old := by
    intro hnone
    rw [hnext, List.head?_eq_none_iff] at hnone
    rw [h.lists list, hl, hnone, List.getLast?_concat]
  have hsplit : ls list = (pre ++ [old]) ++ post := by rw [hl, List.append_assoc]; rfl
  have hinsert := h.insert hsplit hx
  rw [List.getLast?_concat, List.append_assoc] at hinsert
  rw [linkedListAddAfter_eq m list x htail, hnext]
  exact hinsert

theorem addBefore (h : Represents m ls) {old : α} (hl : ls list = pre ++ old :: post) (hx : Free ls x) :
    Represents (linkedListAddBefore m list old x) (Function.update ls list (pre ++ x :: old :: post)) := by
  have hprev := (h.item hl).1
  have hhead : m.prev old = none → (m.lists list).head = some old := by
    intro hnone
    rw [hprev, List.getLast?_eq_none_iff] at hnone
    rw [h.lists list, hl, hnone]
    rfl
  rw [linkedListAddBefore_eq m list x hhead, hprev]
  exact h.insert hl hx

theorem remove (h : Represents m ls) (hl : ls list = pre ++ x :: post) :
    ∃ m',linkedListRemove m list x = some m' ∧ Represents m' (Function.update ls list (pre ++ post)) := by
  have hlinked := h.linked list
  have hnodup := h.nodup list
  rw [hl] at hlinked hnodup
  obtain ⟨hprev,hnext⟩ := h.item hl
  have hx : x ∉ pre ++ post := (List.nodup_cons.mp (List.nodup_middle.mp hnodup)).1
  have hbefore : ∀ a,pre.getLast? = some a → a ∈ pre ++ post :=
    fun a ha => List.mem_append_left _ (List.mem_of_getLast? ha)
  have hafter : ∀ a,post.head? = some a → a ∈ pre ++ post :=
    fun a ha => List.mem_append_right _ (List.mem_of_head? ha)
  have hmem : ∀ a ∈ pre ++ post,a ∈ ls list :=
    fun a ha => hl ▸ List.perm_middle.mem_iff.mpr (List.mem_cons_of_mem x ha)
  have hitems : 0 < (m.lists list).items := by
    rw [h.lists list, hl, List.length_append, List.length_cons]
    dsimp only
    omega
  refine ⟨_,linkedListRemove_eq m list hitems (hnext ▸ fun hself => hx (hafter x hself)),?_⟩
  rw [hprev, hnext]
  refine h.update (hlinked.unlink hnodup) ?_ ?_ ?_ ?_
  · simp only [unlink, h.lists list, hl]
    congr 1
    cases pre using List.reverseRecOn <;> cases post using List.reverseRecOn <;> simp [List.getLast?_cons] <;> omega
  · exact (List.nodup_cons.mp (List.nodup_middle.mp hnodup)).2
  · exact fun a ha => Or.inl (hmem a ha)
  · intro list' hne a ha
    have hax : a ≠ x := fun hax => h.apart list' list hne ha (hl ▸ hax ▸ List.mem_append_right _ List.mem_cons_self)
    exact ⟨m.unlink_next hax fun hab => h.apart list' list hne ha (hmem a (hbefore a hab)),
      m.unlink_prev hax fun hab => h.apart list' list hne ha (hmem a (hafter a hab))⟩

omit [DecidableEq α] in
theorem free_removed (h : Represents m ls) (hl : ls list = pre ++ x :: post) :
    Free (Function.update ls list (pre ++ post)) x := by
  intro list'
  rcases eq_or_ne list' list with rfl | hne
  · have hnodup := h.nodup list'
    rw [hl] at hnodup
    rw [Function.update_self]
    exact (List.nodup_cons.mp (List.nodup_middle.mp hnodup)).1
  · rw [Function.update_of_ne hne]
    exact fun hx => h.apart list' list hne hx (hl ▸ List.mem_append_right _ List.mem_cons_self)

omit [DecidableEq α] in
theorem init (h : Represents m ls) : Represents (linkedListInit m list) (Function.update ls list []) := by
  refine h.update trivial ?_ List.nodup_nil (List.forall_mem_nil _) fun _ _ _ _ => ⟨rfl,rfl⟩
  simp [linkedListInit]

end Represents

section
variable {m : Memory ι α} {ls : Sequences ι α} {list : ι} {cmp : α → α → ℤ} {a : α}

omit [DecidableEq ι] [DecidableEq α] in
theorem findLast_eq {l : List α} (hprev : ∀ pre b post,l = pre ++ b :: post → m.prev b = pre.getLast?)
    {fuel : ℕ} (hfuel : l.length < fuel) :
    findLast m cmp a fuel l.getLast? = some (l.rdropWhile fun b => cmp a b ≤ 0).getLast? := by
  induction l using List.reverseRecOn generalizing fuel with
  | nil =>
    obtain ⟨fuel,rfl⟩ := Nat.exists_eq_add_one_of_ne_zero (show fuel ≠ 0 by omega)
    rfl
  | append_singleton l b ih =>
    rw [List.length_append, List.length_singleton] at hfuel
    obtain ⟨fuel,rfl⟩ := Nat.exists_eq_add_one_of_ne_zero (show fuel ≠ 0 by omega)
    rw [List.getLast?_concat, findLast]
    by_cases hcmp : 0 < cmp a b
    · rw [if_pos hcmp, List.rdropWhile_concat_neg _ _ _ (by simpa using hcmp), List.getLast?_concat]
    · rw [if_neg hcmp, hprev l b [] rfl, List.rdropWhile_concat_pos _ _ _ (by simpa using hcmp)]
      refine ih (fun pre c post hl => hprev pre c (post ++ [b]) ?_) (by omega)
      rw [hl, List.append_assoc]
      rfl

theorem Represents.moveBehind {keep pass rest : List α} (h : Represents m ls)
    (hl : ls list = keep ++ pass ++ a :: rest) :
    ∃ m',moveBehind m list a keep.getLast? = some m' ∧
      Represents m' (Function.update ls list (keep ++ a :: pass ++ rest)) := by
  have hprev := (h.item hl).1
  by_cases hstays : keep.getLast? = m.prev a
  · have hpass : pass = [] := by
      have hnodup := h.nodup list
      rw [hl] at hnodup
      have hapart := (List.nodup_append.mp hnodup.of_append_left).2.2
      rw [hprev] at hstays
      cases pass using List.reverseRecOn with
      | nil => rfl
      | append_singleton pass c =>
        rw [← List.append_assoc, List.getLast?_concat] at hstays
        exact (hapart c (List.mem_of_getLast? hstays) c (List.mem_append_right _ List.mem_cons_self) rfl).elim
    subst hpass
    refine ⟨m,if_pos hstays,?_⟩
    rw [List.append_assoc, List.singleton_append, ← List.append_nil keep, ← hl, Function.update_eq_self]
    exact h
  · obtain ⟨m',hremove,hm'⟩ := h.remove hl
    have hfree := h.free_removed hl
    unfold LinkedLists.moveBehind
    rw [if_neg hstays]
    cases keep using List.reverseRecOn with
    | nil =>
      refine ⟨_,by rw [List.getLast?_nil, hremove]; rfl,?_⟩
      have hadd := @addHead _ _ _ _ _ _ list _ hm' hfree
      rw [Function.update_idem, Function.update_self] at hadd
      exact hadd
    | append_singleton keep b =>
      have hsplit : Function.update ls list (keep ++ [b] ++ pass ++ rest) list = keep ++ b :: (pass ++ rest) := by
        rw [Function.update_self, List.append_assoc, List.append_assoc]
        rfl
      refine ⟨_,by rw [List.getLast?_concat, hremove]; rfl,?_⟩
      have hadd := hm'.addAfter hsplit hfree
      rw [Function.update_idem] at hadd
      simpa using hadd

theorem Represents.sortStep {done rest : List α} (h : Represents m ls) (hl : ls list = done ++ a :: rest) {fuel : ℕ}
    (hfuel : done.length < fuel) :
    ∃ b m',findLast m cmp a fuel (m.prev a) = some b ∧ LinkedLists.moveBehind m list a b = some m' ∧
      Represents m' (Function.update ls list (sortedInsert cmp done a ++ rest)) := by
  have hprev : ∀ pre b post,done = pre ++ b :: post → m.prev b = pre.getLast? := by
    intro pre b post hdone
    have hmid : ls list = pre ++ b :: (post ++ a :: rest) := by
      rw [hl, hdone, List.append_assoc]
      rfl
    exact (h.item hmid).1
  have hsplit : ls list = done.rdropWhile (fun b => cmp a b ≤ 0) ++ done.rtakeWhile (fun b => cmp a b ≤ 0) ++
      a :: rest := by
    rw [List.rdropWhile_append_rtakeWhile, hl]
  obtain ⟨m',hmove,hm'⟩ := h.moveBehind hsplit
  refine ⟨_,m',?_,hmove,hm'⟩
  rw [(h.item hl).1, findLast_eq hprev hfuel]

theorem Represents.sortLoop {rest : List α} (h : Represents m ls) {done : List α} (hl : ls list = done ++ rest)
    {fuel : ℕ} (hfuel : done.length + 2 * rest.length < fuel) :
    ∃ m',sortLoop list cmp fuel m rest.head? = some m' ∧
      Represents m' (Function.update ls list (rest.foldl (sortedInsert cmp) done)) := by
  induction rest generalizing m ls done fuel with
  | nil =>
    obtain ⟨fuel,rfl⟩ := Nat.exists_eq_add_one_of_ne_zero (show fuel ≠ 0 by omega)
    refine ⟨m,rfl,?_⟩
    rw [List.foldl_nil, ← List.append_nil done, ← hl, Function.update_eq_self]
    exact h
  | cons a rest ih =>
    rw [List.length_cons] at hfuel
    obtain ⟨fuel,rfl⟩ := Nat.exists_eq_add_one_of_ne_zero (show fuel ≠ 0 by omega)
    obtain ⟨b,m₁,hfind,hmove,hm₁⟩ := @Represents.sortStep _ _ _ _ _ _ _ cmp _ _ _ h hl fuel (by omega)
    have hlength := (sortedInsert_perm cmp done a).length_eq
    rw [List.length_cons] at hlength
    obtain ⟨m',hloop,hm'⟩ := @ih _ _ hm₁ _ (Function.update_self _ _ _) fuel (by omega)
    rw [Function.update_idem] at hm'
    refine ⟨m',?_,hm'⟩
    rw [List.head?_cons, LinkedLists.sortLoop]
    simp only [hfind, hmove, (h.item hl).2, hloop]

theorem Represents.sort (h : Represents m ls) {fuel : ℕ} (hfuel : 2 * (ls list).length < fuel) :
    ∃ m',linkedListSort fuel m list cmp = some m' ∧
      Represents m' (Function.update ls list (sorted cmp (ls list))) := by
  have hsort := @Represents.sortLoop _ _ _ _ _ _ list cmp (ls list) h [] rfl fuel
    (by rwa [List.length_nil, Nat.zero_add])
  rwa [linkedListSort, h.lists list]

end

section
variable {α : Type*} {cmp : α → α → ℤ}

theorem sorted_perm (cmp : α → α → ℤ) (l : List α) : (sorted cmp l).Perm l := by
  have hfold : ∀ done : List α,(l.foldl (sortedInsert cmp) done).Perm (done ++ l) := by
    induction l with
    | nil => simp
    | cons a l ih =>
      intro done
      rw [List.foldl_cons]
      refine (ih _).trans (((sortedInsert_perm cmp done a).append_right l).trans ?_)
      exact List.perm_middle.symm
  exact hfold []

/-- What a comparator is asked to be: of two items it tells which is greater, and it orders the items of the list. -/
structure Compares (cmp : α → α → ℤ) (l : List α) : Prop where
  swap : ∀ a ∈ l,∀ b ∈ l,0 < cmp a b ↔ cmp b a < 0
  trans : ∀ a ∈ l,∀ b ∈ l,∀ c ∈ l,cmp a b ≤ 0 → cmp b c ≤ 0 → cmp a c ≤ 0

theorem Compares.mono {l l' : List α} (h : Compares cmp l) (hl : l' ⊆ l) : Compares cmp l' where
  swap a ha b hb := h.swap a (hl ha) b (hl hb)
  trans a ha b hb c hc := h.trans a (hl ha) b (hl hb) c (hl hc)

theorem sortedInsert_pairwise {done : List α} {a : α} (h : Compares cmp (a :: done))
    (hdone : done.Pairwise fun x y => cmp x y ≤ 0) : (sortedInsert cmp done a).Pairwise fun x y => cmp x y ≤ 0 := by
  have hsplit : done.rdropWhile (fun b => cmp a b ≤ 0) ++ done.rtakeWhile (fun b => cmp a b ≤ 0) = done :=
    List.rdropWhile_append_rtakeWhile
  have hlast := List.rdropWhile_last_not (fun b => decide (cmp a b ≤ 0)) done
  have hpassed : ∀ y ∈ done.rtakeWhile (fun b => cmp a b ≤ 0),cmp a y ≤ 0 :=
    fun y hy => of_decide_eq_true (List.mem_rtakeWhile_imp (p := fun b => decide (cmp a b ≤ 0)) hy)
  unfold sortedInsert
  revert hsplit hlast hpassed
  generalize done.rdropWhile (fun b => cmp a b ≤ 0) = keep
  generalize done.rtakeWhile (fun b => cmp a b ≤ 0) = pass
  rintro rfl hlast hpassed
  obtain ⟨hkeep,hpass,hcross⟩ := List.pairwise_append.mp hdone
  -- `a` is greater than the last item that is kept, and that one is no less than the others
  have hgreater : ∀ x ∈ keep,cmp x a ≤ 0 := by
    intro x hx
    obtain rfl | ⟨others,b,rfl⟩ := List.eq_nil_or_concat' keep
    · exact (List.not_mem_nil hx).elim
    · have hb := hlast (by simp)
      rw [List.getLast_concat, decide_eq_true_eq, not_le] at hb
      have hmem : ∀ y ∈ others ++ [b],y ∈ a :: (others ++ [b] ++ pass) :=
        fun y hy => List.mem_cons_of_mem a (List.mem_append_left _ hy)
      have hbmem := hmem b (List.mem_append_right _ List.mem_cons_self)
      have hba := ((h.swap a List.mem_cons_self b hbmem).mp hb).le
      rcases List.mem_append.mp hx with hxo | hxb
      · have hxb := (List.pairwise_append.mp hkeep).2.2 x hxo b List.mem_cons_self
        exact h.trans x (hmem x hx) b hbmem a List.mem_cons_self hxb hba
      · rwa [List.mem_singleton.mp hxb]
  refine List.pairwise_append.mpr ⟨hkeep,List.pairwise_cons.mpr ⟨hpassed,hpass⟩,fun x hx y hy => ?_⟩
  rcases List.mem_cons.mp hy with rfl | hy
  · exact hgreater x hx
  · exact hcross x hx y hy

theorem sorted_pairwise {l : List α} (h : Compares cmp l) : (sorted cmp l).Pairwise fun x y => cmp x y ≤ 0 := by
  have hfold : ∀ rest done : List α,done ++ rest ⊆ l → done.Pairwise (fun x y => cmp x y ≤ 0) →
      (rest.foldl (sortedInsert cmp) done).Pairwise fun x y => cmp x y ≤ 0 := by
    intro rest
    induction rest with
    | nil => exact fun done _ hdone => hdone
    | cons a rest ih =>
      intro done hsub hdone
      have hperm : (a :: done ++ rest).Perm (done ++ a :: rest) := List.perm_middle.symm
      refine ih _ (fun x hx => hsub (hperm.subset ?_)) (sortedInsert_pairwise (h.mono fun x hx => ?_) hdone)
      · exact ((sortedInsert_perm cmp done a).append_right rest).subset hx
      · exact hsub (hperm.subset (List.mem_append_left _ hx))
  exact hfold l [] (List.Subset.refl l) List.Pairwise.nil

end

section
variable {m : Memory ι α} {ls : Sequences ι α} {list : ι}

omit [DecidableEq ι] in
theorem Represents.checkLoop {done rest : List α} (h : Represents m ls) (hl : ls list = done ++ rest) {fuel : ℕ}
    (hfuel : rest.length < fuel) : checkLoop m list fuel rest.head? done.length = some true := by
  induction rest generalizing done fuel with
  | nil =>
    obtain ⟨fuel,rfl⟩ := Nat.exists_eq_add_one_of_ne_zero (show fuel ≠ 0 by omega)
    rw [List.append_nil] at hl
    rw [List.head?_nil, LinkedLists.checkLoop, h.lists list, hl]
    exact congrArg some (decide_eq_true rfl)
  | cons a rest ih =>
    rw [List.length_cons] at hfuel
    obtain ⟨fuel,rfl⟩ := Nat.exists_eq_add_one_of_ne_zero (show fuel ≠ 0 by omega)
    obtain ⟨hprev,hnext⟩ := h.item hl
    have hprevLeads : prevLeads m list a = true := by
      unfold prevLeads
      rw [hprev]
      cases done using List.reverseRecOn with
      | nil =>
        rw [List.getLast?_nil]
        exact decide_eq_true (by rw [h.lists list, hl]; rfl)
      | append_singleton done b =>
        rw [List.getLast?_concat]
        rw [List.append_assoc, List.singleton_append] at hl
        exact decide_eq_true (h.item hl).2
    have hnextLeads : nextLeads m list a = true := by
      unfold nextLeads
      rw [hnext]
      cases rest with
      | nil => exact decide_eq_true (by rw [h.lists list, hl, List.getLast?_concat])
      | cons b rest =>
        have hl' : ls list = (done ++ [a]) ++ b :: rest := by rw [hl, List.append_assoc]; rfl
        exact decide_eq_true (by rw [(h.item hl').1, List.getLast?_concat])
    have hl' : ls list = (done ++ [a]) ++ rest := by rw [hl, List.append_assoc]; rfl
    have hcheck := @ih _ hl' fuel (by omega)
    rw [List.length_append, List.length_singleton, Nat.cast_add, Nat.cast_one] at hcheck
    rw [List.head?_cons, LinkedLists.checkLoop, hprevLeads, hnextLeads, hnext]
    exact hcheck

omit [DecidableEq ι] in
theorem Represents.valid (h : Represents m ls) {fuel : ℕ} (hfuel : (ls list).length < fuel) :
    linkedListCheckValidity fuel m list = some true := by
  have hcheck := @Represents.checkLoop _ _ _ _ _ list [] (ls list) h rfl fuel hfuel
  rwa [linkedListCheckValidity, h.lists list]

theorem Represents.call {c : Call ι α} (h : Represents m ls) (hc : c.Requires ls) {fuel : ℕ}
    (hfuel : c.fuel ls < fuel) :
    ∃ m',call fuel m c = some (m',c.returned ls) ∧ Represents m' (c.result ls) := by
  cases c with
  | init list => exact ⟨_,rfl,h.init⟩
  | addHead list item => exact ⟨_,rfl,h.addHead hc⟩
  | addTail list item => exact ⟨_,rfl,h.addTail hc⟩
  | addAfter list oldItem newItem =>
    obtain ⟨pre,post,hl,hpre⟩ := List.eq_append_cons_of_mem hc.1
    have hinsert : (ls list).insertIdx ((ls list).idxOf oldItem + 1) newItem = pre ++ oldItem :: newItem :: post := by
      rw [hl, List.idxOf_append_of_notMem hpre, List.idxOf_cons_self]
      exact insertIdx_length pre (oldItem :: post) 1 newItem
    exact ⟨_,rfl,by rw [Call.result, hinsert]; exact h.addAfter hl hc.2⟩
  | addBefore list oldItem newItem =>
    obtain ⟨pre,post,hl,hpre⟩ := List.eq_append_cons_of_mem hc.1
    have hinsert : (ls list).insertIdx ((ls list).idxOf oldItem) newItem = pre ++ newItem :: oldItem :: post := by
      rw [hl, List.idxOf_append_of_notMem hpre, List.idxOf_cons_self]
      exact insertIdx_length pre (oldItem :: post) 0 newItem
    exact ⟨_,rfl,by rw [Call.result, hinsert]; exact h.addBefore hl hc.2⟩
  | remove list item =>
    obtain ⟨pre,post,hl,hpre⟩ := List.eq_append_cons_of_mem hc
    obtain ⟨m',hremove,hm'⟩ := h.remove hl
    refine ⟨m',by rw [LinkedLists.call, hremove]; rfl,?_⟩
    rwa [Call.result, hl, List.erase_append_right _ hpre, List.erase_cons_head]
  | extractHead list =>
    rw [LinkedLists.call, linkedListExtractHead, h.lists list]
    cases hl : ls list with
    | nil =>
      refine ⟨m,by rw [Call.returned, hl]; rfl,?_⟩
      rw [Call.result, hl, List.tail_nil, ← hl, Function.update_eq_self]
      exact h
    | cons item post =>
      have hhead : ls list = [] ++ item :: post := hl
      obtain ⟨m',hremove,hm'⟩ := h.remove hhead
      refine ⟨m',by rw [Call.returned, hl, List.head?_cons]; simp only [hremove, Option.map_some],?_⟩
      rwa [Call.result, hl]
  | extractTail list =>
    rw [LinkedLists.call, linkedListExtractTail, h.lists list]
    obtain hl | ⟨pre,item,hl⟩ := List.eq_nil_or_concat' (ls list)
    · refine ⟨m,by rw [Call.returned, hl]; rfl,?_⟩
      rw [Call.result, hl, List.dropLast_nil, ← hl, Function.update_eq_self]
      exact h
    · have hlast : ls list = pre ++ item :: [] := hl
      obtain ⟨m',hremove,hm'⟩ := h.remove hlast
      refine ⟨m',by rw [Call.returned, hl, List.getLast?_concat]; simp only [hremove, Option.map_some],?_⟩
      rwa [Call.result, hl, List.dropLast_concat, ← List.append_nil pre]
  | sort list cmp =>
    obtain ⟨m',hsort,hm'⟩ := @Represents.sort _ _ _ _ _ _ list cmp h fuel hfuel
    exact ⟨m',by rw [LinkedLists.call, hsort]; rfl,hm'⟩

theorem Represents.calls {cs : List (Call ι α)} (h : Represents m ls) (hcs : Admissible ls cs) {fuel : ℕ}
    (hfuel : Call.fuels ls cs < fuel) :
    ∃ m',calls fuel m cs = some (m',returns ls cs) ∧ Represents m' (results ls cs) := by
  induction cs generalizing m ls with
  | nil => exact ⟨m,rfl,h⟩
  | cons c cs ih =>
    obtain ⟨m₁,hcall,hm₁⟩ := h.call hcs.1 (lt_of_le_of_lt (le_max_left _ _) hfuel)
    obtain ⟨m',hcalls,hm'⟩ := ih hm₁ hcs.2 (lt_of_le_of_lt (le_max_right _ _) hfuel)
    refine ⟨m',?_,hm'⟩
    rw [LinkedLists.calls, hcall]
    simp only [hcalls, Option.map_some]
    rfl

/-- Any calls whose arguments are as required have enough fuel somewhere, return what the operations on sequences
return, and leave lists that are valid and that are those sequences; and a sort orders a list. -/
theorem calls_refine {cs : List (Call ι α)} (h : Represents m ls) (hcs : Admissible ls cs) :
    ∃ N,∀ fuel > N,∃ m',calls fuel m cs = some (m',returns ls cs) ∧ Represents m' (results ls cs) ∧
      ∀ list,(∃ N',∀ fuel' > N',linkedListCheckValidity fuel' m' list = some true) ∧
        ∀ cmp,∃ N',∀ fuel' > N',∃ m'' l,linkedListSort fuel' m' list cmp = some m'' ∧
          Represents m'' (Function.update (results ls cs) list l) ∧ l.Perm (results ls cs list) ∧
          (Compares cmp (results ls cs list) → l.Pairwise fun a b => cmp a b ≤ 0) := by
  refine ⟨Call.fuels ls cs,fun fuel hfuel => ?_⟩
  obtain ⟨m',hcalls,hm'⟩ := h.calls hcs hfuel
  refine ⟨m',hcalls,hm',fun list => ⟨⟨_,fun fuel' hfuel' => hm'.valid hfuel'⟩,fun cmp => ?_⟩⟩
  refine ⟨2 * (results ls cs list).length,fun fuel' hfuel' => ?_⟩
  obtain ⟨m'',hsort,hm''⟩ := @Represents.sort _ _ _ _ _ _ list cmp hm' _ hfuel'
  exact ⟨m'',_,hsort,hm'',sorted_perm cmp _,sorted_pairwise⟩

omit [DecidableEq ι] [DecidableEq α] in
theorem represents_initialised (links : Links α) :
    Represents (⟨links,fun _ => ⟨none,none,0⟩⟩ : Memory ι α) fun _ => [] where
  linked _ := trivial
  lists _ := rfl
  nodup _ := List.nodup_nil
  apart _ _ _ := List.disjoint_nil_left []

end

/-- Two lists over one memory: an item goes from one to the other, and both are sorted. -/
theorem calls_refine_two :
    let m : Memory Bool ℕ := ⟨⟨fun _ => none,fun _ => none⟩,fun _ => ⟨none,none,0⟩⟩
    let cs : List (Call Bool ℕ) := [.addHead true 3,.addTail true 1,.addBefore true 1 2,.addAfter true 1 0,
      .extractTail true,.addTail false 0,.remove true 3,.addHead false 3,.sort false (fun a b => (a : ℤ) - b),
      .extractHead false]
    Admissible (fun _ => []) cs ∧ ∃ N,∀ fuel > N,∃ m',calls fuel m cs =
      some (m',[none,none,none,none,some 0,none,none,none,none,some 0]) ∧
      ∃ ls,Represents m' ls ∧ ls true = [2,1] ∧ ls false = [3] := by
  intro m cs
  have hcs : Admissible (fun _ => []) cs := by
    simp [cs, Admissible, Call.Requires, Call.result, Free, Function.update_apply]
  refine ⟨hcs,?_⟩
  obtain ⟨N,hN⟩ := calls_refine (represents_initialised _) hcs
  refine ⟨N,fun fuel hfuel => ?_⟩
  obtain ⟨m',hcalls,hm',-⟩ := hN fuel hfuel
  exact ⟨m',hcalls,_,hm',by decide,by decide⟩

end Whist.LinkedLists
