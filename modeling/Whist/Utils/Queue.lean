import Mathlib.Tactic
import Whist.Foundation.Monitor

/-! # The queue behind a mutex

Items are copied into and out of the slots of `data`.  An access outside the slots has no result.
-/
namespace Whist.FifoQueue
open Linearizability Monitor

structure QueueContext (β : Type*) where
  readIdx : ℕ
  writeIdx : ℕ
  numItems : ℕ
  maxItems : ℕ
  data : List β
  destroying : Bool

inductive Operation (β : Type*) where
  | enqueueItem (item : β)
  | enqueueItemTimeout (item : β) (timeoutMs : ℤ)
  | dequeueItem
  | dequeueItemTimeout (timeoutMs : ℤ)

inductive Response (β : Type*) where
  | failed
  | enqueued
  | dequeued (item : β)

variable {β : Type*}

def incrementIdx (context : QueueContext β) (idx : ℕ) : ℕ := if idx + 1 = context.maxItems then 0 else idx + 1

def dequeueItem (context : QueueContext β) : Option (QueueContext β × β) :=
  (context.data[context.readIdx]?).map fun item =>
    ({ context with numItems := context.numItems - 1, readIdx := incrementIdx context context.readIdx },item)

def enqueueItem (context : QueueContext β) (item : β) : Option (QueueContext β) :=
  if context.writeIdx < context.data.length then
    some { context with numItems := context.numItems + 1, data := context.data.set context.writeIdx item,
                        writeIdx := incrementIdx context context.writeIdx }
  else none

/-- The Booleans say whether the allocations succeed; `data` is what the memory for the items holds. -/
def fifoQueueCreate (maxItems : ℕ) (context : Bool) (data : Option (List.Vector β maxItems))
    (mutex availItemsCond availSpaceCond : Bool) : Option (QueueContext β) :=
  if context then
    match data with
    | none => none
    | some data =>
      if mutex then
        if availItemsCond then
          if availSpaceCond then
            some { readIdx := 0, writeIdx := 0, numItems := 0, maxItems := maxItems, data := data.toList,
                   destroying := false }
          else none
        else none
      else none
  else none

/-- What a call does when it has the mutex, up to where it gives the mutex up: with its answer or, without one,
to wait. -/
abbrev Section (β : Type*) := Option (QueueContext β × Option (Response β))

def fifoQueueEnqueueItem (context : QueueContext β) (item : β) : Section β :=
  if context.maxItems ≤ context.numItems then some (context,some .failed)
  else (enqueueItem context item).map fun context => (context,some .enqueued)

/-- The loop of `fifo_queue_enqueue_item_timeout` and what comes after it. -/
def fifoQueueEnqueueItemTimeout (context : QueueContext β) (item : β) : Section β :=
  if context.maxItems ≤ context.numItems then
    if context.destroying then some (context,some .failed) else some (context,none)
  else (enqueueItem context item).map fun context => (context,some .enqueued)

def fifoQueueDequeueItem (context : QueueContext β) : Section β :=
  if context.numItems ≤ 0 then some (context,some .failed)
  else (dequeueItem context).map fun p => (p.1,some (.dequeued p.2))

def fifoQueueDequeueItemTimeout (context : QueueContext β) : Section β :=
  if context.numItems ≤ 0 then
    if context.destroying then some (context,some .failed) else some (context,none)
  else (dequeueItem context).map fun p => (p.1,some (.dequeued p.2))

def enter (context : QueueContext β) : Operation β → Section β
  | .enqueueItem item => fifoQueueEnqueueItem context item
  | .enqueueItemTimeout item _ => fifoQueueEnqueueItemTimeout context item
  | .dequeueItem => fifoQueueDequeueItem context
  | .dequeueItemTimeout timeoutMs =>
    if timeoutMs = 0 then fifoQueueDequeueItem context else fifoQueueDequeueItemTimeout context

/-- After the wait.  `woken` is what `whist_timedwait_cond` returns; with a negative timeout the wait is that of
`whist_wait_cond`, which returns nothing. -/
def wake (context : QueueContext β) (op : Operation β) (woken : Bool) : Section β :=
  match op with
  | .enqueueItemTimeout item timeoutMs =>
    if 0 ≤ timeoutMs ∧ woken = false then some (context,some .failed)
    else fifoQueueEnqueueItemTimeout context item
  | .dequeueItemTimeout timeoutMs =>
    if 0 ≤ timeoutMs ∧ woken = false then some (context,some .failed)
    else fifoQueueDequeueItemTimeout context
  | op => enter context op

/-- `fifo_queue_destroy` sets the flag while others may have the mutex. -/
def fifoQueue (β : Type*) : Code (QueueContext β) (Operation β) (Response β) Unit where
  enter := enter
  wake := wake
  drift context _ := { context with destroying := true }

def push (capacity : ℕ) (items : List β) (item : β) : List β × Response β :=
  if items.length < capacity then (items ++ [item],.enqueued) else (items,.failed)

def pop : List β → List β × Response β
  | [] => ([],.failed)
  | item :: items => (items,.dequeued item)

def fifo (capacity : ℕ) (items : List β) : Operation β → List β × Response β
  | .enqueueItem item => push capacity items item
  | .enqueueItemTimeout item _ => push capacity items item
  | .dequeueItem => pop items
  | .dequeueItemTimeout _ => pop items

def stored (context : QueueContext β) : List β := (context.data.rotate context.readIdx).take context.numItems

structure Ring (capacity : ℕ) (context : QueueContext β) : Prop where
  maxItems : context.maxItems = capacity
  length : context.data.length = capacity
  numItems : context.numItems ≤ capacity
  readIdx : 0 < capacity → context.readIdx < capacity
  writeIdx : context.writeIdx = (context.readIdx + context.numItems) % capacity

/-- The section answers what the queue answers, and where it fails or waits it leaves the context. -/
def Does (capacity : ℕ) (context : QueueContext β) (answer : List β × Response β) (section_ : Section β) : Prop :=
  ∃ context' o,section_ = some (context',o) ∧ Ring capacity context' ∧ answer = (stored context',o.getD .failed) ∧
    (o.getD .failed = .failed → context' = context)

namespace Ring
variable {capacity : ℕ} {context : QueueContext β}

theorem length_stored (h : Ring capacity context) : (stored context).length = context.numItems := by
  rw [stored, List.length_take, List.length_rotate, h.length, min_eq_left h.numItems]

theorem incrementIdx_eq (h : Ring capacity context) {idx : ℕ} (hidx : idx < capacity) :
    incrementIdx context idx = (idx + 1) % capacity := by
  rw [incrementIdx, h.maxItems]
  split_ifs with hend
  · rw [hend, Nat.mod_self]
  · rw [Nat.mod_eq_of_lt (by omega)]

theorem rotate_set {l : List β} {r n : ℕ} (hn : n < l.length) (item : β) :
    (l.set ((r + n) % l.length) item).rotate r = (l.rotate r).set n item := by
  refine List.ext_getElem (by simp) fun k hk _ => ?_
  rw [List.length_rotate, List.length_set] at hk
  have hsame : (r + n) % l.length = (k + r) % l.length ↔ n = k := by
    rw [Nat.add_comm k]
    exact ⟨fun h => (Nat.ModEq.add_left_cancel' r h).eq_of_lt_of_lt hn hk,fun h => by rw [h]⟩
  simp only [List.getElem_rotate, List.getElem_set, List.length_set, hsame]

theorem enqueueItem (h : Ring capacity context) (hroom : context.numItems < capacity) (item : β) :
    ∃ context',enqueueItem context item = some context' ∧ Ring capacity context' ∧
      stored context' = stored context ++ [item] := by
  have hwrite : context.writeIdx < capacity := h.writeIdx ▸ Nat.mod_lt _ (by omega)
  refine ⟨_,if_pos (by rw [h.length]; exact hwrite),?_,?_⟩
  · constructor
    case maxItems => exact h.maxItems
    case length => exact (List.length_set).trans h.length
    case numItems => exact hroom
    case readIdx => exact h.readIdx
    case writeIdx =>
      dsimp only
      rw [h.incrementIdx_eq hwrite, h.writeIdx, Nat.mod_add_mod, Nat.add_assoc]
  · have hlen : context.numItems < (context.data.rotate context.readIdx).length := by
      rw [List.length_rotate, h.length]
      exact hroom
    have hset := rotate_set (r := context.readIdx) (show context.numItems < context.data.length by rwa [h.length]) item
    rw [h.length, ← h.writeIdx] at hset
    unfold stored
    dsimp only
    rw [hset, List.take_succ_eq_append_getElem (by rwa [List.length_set]), List.getElem_set_self,
      List.take_set_of_le le_rfl]

theorem dequeueItem (h : Ring capacity context) (hitems : 0 < context.numItems) :
    ∃ context' item,dequeueItem context = some (context',item) ∧ Ring capacity context' ∧
      stored context = item :: stored context' := by
  have hread := h.readIdx (lt_of_lt_of_le hitems h.numItems)
  have hlt : context.readIdx < context.data.length := h.length.symm ▸ hread
  refine ⟨_,context.data[context.readIdx],by rw [FifoQueue.dequeueItem, List.getElem?_eq_getElem hlt]; rfl,?_,?_⟩
  · constructor
    case maxItems => exact h.maxItems
    case length => exact h.length
    case numItems => exact (Nat.sub_le _ _).trans h.numItems
    case readIdx => exact fun hpos => h.incrementIdx_eq hread ▸ Nat.mod_lt _ hpos
    case writeIdx =>
      dsimp only
      rw [h.incrementIdx_eq hread, h.writeIdx, Nat.mod_add_mod]
      congr 1
      omega
  · obtain ⟨n,hn⟩ := Nat.exists_eq_add_one_of_ne_zero hitems.ne'
    obtain ⟨rest,hrest⟩ := List.head?_eq_some_iff.mp ((List.head?_rotate hlt).trans (List.getElem?_eq_getElem hlt))
    have hnext : context.data.rotate (incrementIdx context context.readIdx) =
        rest ++ [context.data[context.readIdx]] := by
      rw [h.incrementIdx_eq hread, ← h.length, List.rotate_mod, ← List.rotate_rotate, hrest, List.rotate_cons_succ,
        List.rotate_zero]
    have hlength := congrArg List.length hrest
    rw [List.length_rotate, h.length, List.length_cons] at hlength
    have hnum := h.numItems
    unfold stored
    dsimp only
    rw [hnext, hrest, hn, Nat.add_sub_cancel, List.take_succ_cons, List.take_append_of_le_length (by omega)]

theorem push_eq (h : Ring capacity context) (item : β) :
    (context.maxItems ≤ context.numItems → push capacity (stored context) item = (stored context,.failed)) ∧
    (¬ context.maxItems ≤ context.numItems → ∃ context',FifoQueue.enqueueItem context item = some context' ∧
      Ring capacity context' ∧ push capacity (stored context) item = (stored context',.enqueued)) := by
  rw [push, h.length_stored, h.maxItems]
  refine ⟨fun hfull => if_neg (by omega),fun hroom => ?_⟩
  obtain ⟨context',henqueue,hring,hstored⟩ := h.enqueueItem (not_le.mp hroom) item
  exact ⟨context',henqueue,hring,by rw [if_pos (not_le.mp hroom), hstored]⟩

theorem pop_eq (h : Ring capacity context) :
    (context.numItems ≤ 0 → pop (stored context) = (stored context,.failed)) ∧
    (¬ context.numItems ≤ 0 → ∃ context' item,FifoQueue.dequeueItem context = some (context',item) ∧
      Ring capacity context' ∧ pop (stored context) = (stored context',.dequeued item)) := by
  refine ⟨fun hempty => ?_,fun hitems => ?_⟩
  · have hnil : stored context = [] := List.eq_nil_of_length_eq_zero (h.length_stored.trans (Nat.le_zero.mp hempty))
    rw [hnil]
    rfl
  · obtain ⟨context',item,hdequeue,hring,hstored⟩ := h.dequeueItem (not_le.mp hitems)
    exact ⟨context',item,hdequeue,hring,by rw [hstored]; rfl⟩

theorem does_enqueueItem (h : Ring capacity context) (item : β) :
    Does capacity context (push capacity (stored context) item) (fifoQueueEnqueueItem context item) := by
  rw [fifoQueueEnqueueItem]
  split_ifs with hfull
  · exact ⟨_,_,rfl,h,(h.push_eq item).1 hfull,fun _ => rfl⟩
  · obtain ⟨context',henqueue,hring,hpush⟩ := (h.push_eq item).2 hfull
    exact ⟨_,some .enqueued,by rw [henqueue]; rfl,hring,hpush,by simp⟩

theorem does_enqueueItemTimeout (h : Ring capacity context) (item : β) :
    Does capacity context (push capacity (stored context) item) (fifoQueueEnqueueItemTimeout context item) := by
  rw [fifoQueueEnqueueItemTimeout]
  split_ifs with hfull hdestroying
  · exact ⟨_,_,rfl,h,(h.push_eq item).1 hfull,fun _ => rfl⟩
  · exact ⟨_,_,rfl,h,(h.push_eq item).1 hfull,fun _ => rfl⟩
  · obtain ⟨context',henqueue,hring,hpush⟩ := (h.push_eq item).2 hfull
    exact ⟨_,some .enqueued,by rw [henqueue]; rfl,hring,hpush,by simp⟩

theorem does_dequeueItem (h : Ring capacity context) :
    Does capacity context (pop (stored context)) (fifoQueueDequeueItem context) := by
  rw [fifoQueueDequeueItem]
  split_ifs with hempty
  · exact ⟨_,_,rfl,h,h.pop_eq.1 hempty,fun _ => rfl⟩
  · obtain ⟨context',item,hdequeue,hring,hpop⟩ := h.pop_eq.2 hempty
    exact ⟨_,some (.dequeued item),by rw [hdequeue]; rfl,hring,hpop,by simp⟩

theorem does_dequeueItemTimeout (h : Ring capacity context) :
    Does capacity context (pop (stored context)) (fifoQueueDequeueItemTimeout context) := by
  rw [fifoQueueDequeueItemTimeout]
  split_ifs with hempty hdestroying
  · exact ⟨_,_,rfl,h,h.pop_eq.1 hempty,fun _ => rfl⟩
  · exact ⟨_,_,rfl,h,h.pop_eq.1 hempty,fun _ => rfl⟩
  · obtain ⟨context',item,hdequeue,hring,hpop⟩ := h.pop_eq.2 hempty
    exact ⟨_,some (.dequeued item),by rw [hdequeue]; rfl,hring,hpop,by simp⟩

theorem does_enter (h : Ring capacity context) (op : Operation β) :
    Does capacity context (fifo capacity (stored context) op) (enter context op) := by
  cases op with
  | enqueueItem item => exact h.does_enqueueItem item
  | enqueueItemTimeout item timeoutMs => exact h.does_enqueueItemTimeout item
  | dequeueItem => exact h.does_dequeueItem
  | dequeueItemTimeout timeoutMs =>
    rw [enter]
    split_ifs
    · exact h.does_dequeueItem
    · exact h.does_dequeueItemTimeout

/-- A wait that took too long leaves the context, and another goes round the loop. -/
theorem does_wake (h : Ring capacity context) (op : Operation β) (woken : Bool) :
    Does capacity context (fifo capacity (stored context) op) (wake context op woken) ∨
      wake context op woken = some (context,some .failed) := by
  cases op with
  | enqueueItem item => exact Or.inl (h.does_enter _)
  | enqueueItemTimeout item timeoutMs =>
    rw [wake]
    split_ifs
    · exact Or.inr rfl
    · exact Or.inl (h.does_enqueueItemTimeout item)
  | dequeueItem => exact Or.inl (h.does_enter _)
  | dequeueItemTimeout timeoutMs =>
    rw [wake]
    split_ifs
    · exact Or.inr rfl
    · exact Or.inl h.does_dequeueItemTimeout

end Ring

theorem Does.effect {capacity : ℕ} {context : QueueContext β} {op : Operation β} {section_ : Section β}
    (h : Does capacity context (fifo capacity (stored context) op) section_) :
    ∃ context' o,section_ = some (context',o) ∧ Ring capacity context' ∧
      Effect (fifo capacity) (fun _ => .failed) (stored context) op (stored context') o := by
  obtain ⟨context',o,hsection,hring,hanswer,hsame⟩ := h
  refine ⟨context',o,hsection,hring,?_⟩
  cases o with
  | some r => exact hanswer
  | none =>
    obtain rfl := hsame rfl
    exact ⟨rfl,hanswer⟩

theorem fifoQueue_refines (capacity : ℕ) :
    Refines (fifoQueue β) (fifo capacity) (fun _ => .failed) (Ring capacity) stored where
  enter context op h := (h.does_enter op).effect
  wake context op woken h := by
    rcases h.does_wake op woken with hdoes | hgive
    · obtain ⟨context',o,hwake,hring,heffect⟩ := hdoes.effect
      exact ⟨context',o,hwake,hring,Or.inl heffect⟩
    · exact ⟨context,some .failed,hgive,h,Or.inr ⟨rfl,rfl⟩⟩
  drift context _ h := ⟨⟨h.maxItems,h.length,h.numItems,h.readIdx,h.writeIdx⟩,rfl⟩
  nothing items op h := by
    have hpush : ∀ item,(push capacity items item).2 = .failed → (push capacity items item).1 = items := by
      intro item h
      unfold push at h ⊢
      split_ifs at h ⊢
      rfl
    have hpop : (pop items).2 = .failed → (pop items).1 = items := by
      cases items with
      | nil => exact fun _ => rfl
      | cons item items => exact fun h => by cases h
    cases op with
    | enqueueItem item => exact hpush item h
    | enqueueItemTimeout item timeoutMs => exact hpush item h
    | dequeueItem => exact hpop h
    | dequeueItemTimeout timeoutMs => exact hpop h

def enqueuedItems {κ : Type*} (answered : List (Entry κ (Operation β) (Response β))) : List β :=
  answered.filterMap fun e =>
    match e.op,e.response with
    | .enqueueItem item,.enqueued => some item
    | .enqueueItemTimeout item _,.enqueued => some item
    | _,_ => none

def dequeuedItems {κ : Type*} (answered : List (Entry κ (Operation β) (Response β))) : List β :=
  answered.filterMap fun e =>
    match e.response with
    | .dequeued item => some item
    | _ => none

def Refuses (capacity : ℕ) (items : List β) : Operation β → Prop
  | .enqueueItem _ => items.length = capacity
  | .enqueueItemTimeout _ _ => items.length = capacity
  | .dequeueItem => items = []
  | .dequeueItemTimeout _ => items = []

theorem conserved_concat {κ : Type*} (capacity : ℕ) (answered : List (Entry κ (Operation β) (Response β)))
    (items : List β) (id : κ) (op : Operation β) (h : enqueuedItems answered = dequeuedItems answered ++ items) :
    enqueuedItems (answered ++ [⟨id,op,(fifo capacity items op).2⟩]) =
      dequeuedItems (answered ++ [⟨id,op,(fifo capacity items op).2⟩]) ++ (fifo capacity items op).1 := by
  unfold enqueuedItems dequeuedItems at h ⊢
  rw [List.filterMap_append, List.filterMap_append, h]
  cases op with
  | enqueueItem item =>
    unfold fifo push
    split_ifs <;> simp
  | enqueueItemTimeout item timeoutMs =>
    unfold fifo push
    split_ifs <;> simp
  | dequeueItem => cases items <;> simp [fifo, pop]
  | dequeueItemTimeout timeoutMs => cases items <;> simp [fifo, pop]

theorem conserved_failed {κ : Type*} (answered : List (Entry κ (Operation β) (Response β))) (items : List β) (id : κ)
    (op : Operation β) (h : enqueuedItems answered = dequeuedItems answered ++ items) :
    enqueuedItems (answered ++ [⟨id,op,.failed⟩]) = dequeuedItems (answered ++ [⟨id,op,.failed⟩]) ++ items := by
  unfold enqueuedItems dequeuedItems at h ⊢
  rw [List.filterMap_append, List.filterMap_append, h]
  cases op <;> simp

theorem Ring.created {maxItems : ℕ} {context mutex availItemsCond availSpaceCond : Bool}
    {data : Option (List.Vector β maxItems)} {queue : QueueContext β}
    (h : fifoQueueCreate maxItems context data mutex availItemsCond availSpaceCond = some queue) :
    Ring maxItems queue ∧ stored queue = [] := by
  unfold fifoQueueCreate at h
  cases data with
  | none => split_ifs at h
  | some data =>
    simp only [] at h
    split_ifs at h
    obtain rfl := Option.some.inj h
    refine ⟨⟨rfl,data.toList_length,Nat.zero_le _,id,(Nat.zero_mod _).symm⟩,?_⟩
    exact List.take_zero

theorem refuses_of_failed {capacity : ℕ} {items : List β} (hitems : items.length ≤ capacity) {op : Operation β}
    (h : (fifo capacity items op).2 = .failed) : Refuses capacity items op := by
  cases op with
  | enqueueItem item =>
    unfold fifo push at h
    split_ifs at h with hroom
    exact le_antisymm hitems (not_lt.mp hroom)
  | enqueueItemTimeout item timeoutMs =>
    unfold fifo push at h
    split_ifs at h with hroom
    exact le_antisymm hitems (not_lt.mp hroom)
  | dequeueItem =>
    cases items with
    | nil => rfl
    | cons item items => cases h
  | dequeueItemTimeout timeoutMs =>
    cases items with
    | nil => rfl
    | cons item items => cases h

/-- In every run of any number of calls the history is linearizable, what came out is the first of what went in, in
the order in which the calls had the mutex, and the rest is stored.  No access is outside the slots, and a call that
fails leaves the context as it is: where it has not waited too long, because the queue has nothing for it. -/
theorem fifoQueue_linearizable {κ : Type*} [DecidableEq κ] {maxItems : ℕ}
    {context mutex availItemsCond availSpaceCond : Bool} {data : Option (List.Vector β maxItems)}
    {queue : QueueContext β}
    (hcreate : fifoQueueCreate maxItems context data mutex availItemsCond availSpaceCond = some queue)
    {moves : List (Move κ (Operation β) Unit)} {s : State κ (QueueContext β) (Operation β) (Response β)}
    (hrun : run (fifoQueue β) (start queue) moves = some s) :
    (∃ l,Linearizes (fifo maxItems) [] s.history l (stored s.content)) ∧
      enqueuedItems s.answered = dequeuedItems s.answered ++ stored s.content ∧
      (stored s.content).length = s.content.numItems ∧ s.content.numItems ≤ maxItems ∧
      ∀ op,(∃ c o,enter s.content op = some (c,o) ∧
          (o = some .failed → c = s.content ∧ Refuses maxItems (stored s.content) op)) ∧
        ∀ woken,∃ c o,wake s.content op woken = some (c,o) ∧ (o = some .failed → c = s.content) := by
  obtain ⟨hring,hempty⟩ := Ring.created hcreate
  have hinv : Inv (fifo maxItems) (fun _ => .failed) (Ring maxItems) stored (stored queue)
      (start queue : State κ _ _ _) [] := .start hring
  obtain ⟨l,hl⟩ := hinv.run (fifoQueue_refines maxItems) hrun
  rw [hempty] at hl
  have hconserved := run_answered (Q := fun answered items => enqueuedItems answered = dequeuedItems answered ++ items)
    (fifoQueue_refines maxItems) (conserved_concat maxItems) conserved_failed hring (by rw [start, hempty]; rfl) hrun
  have hlength := hl.content.length_stored
  refine ⟨⟨l,hl.linearizes⟩,hconserved,hlength,hl.content.numItems,fun op => ⟨?_,fun woken => ?_⟩⟩
  · obtain ⟨c,o,henter,-,hanswer,hsame⟩ := hl.content.does_enter op
    refine ⟨c,o,henter,fun ho => ?_⟩
    subst ho
    exact ⟨hsame rfl,refuses_of_failed (hlength.trans_le hl.content.numItems) (by rw [hanswer]; rfl)⟩
  · rcases hl.content.does_wake op woken with ⟨c,o,hwake,-,-,hsame⟩ | hgive
    · exact ⟨c,o,hwake,fun ho => hsame (by rw [ho]; rfl)⟩
    · exact ⟨_,_,hgive,fun _ => rfl⟩

/-- One slot: a dequeue waits too long while an item comes in, an enqueue finds the queue full, and the slot is
used again. -/
theorem fifoQueue_linearizable_slot :
    let moves : List (Move ℕ (Operation ℕ) Unit) :=
      [.call 0 (.dequeueItemTimeout 50),.enter 0,.call 1 (.enqueueItem 7),.enter 1,.answer 1,.wake 0 false,.answer 0,
        .call 2 (.enqueueItem 8),.enter 2,.answer 2,.call 3 .dequeueItem,.enter 3,.answer 3,
        .call 4 (.enqueueItemTimeout 9 (-1)),.enter 4,.answer 4]
    ∃ s,run (fifoQueue ℕ) (start ⟨0,0,0,1,[0],false⟩) moves = some s ∧
      (∃ l,Linearizes (fifo 1) [] s.history l (stored s.content)) ∧ enqueuedItems s.answered = [7,9] ∧
      dequeuedItems s.answered = [7] ∧ stored s.content = [9] := by
  intro moves
  have hcreate : fifoQueueCreate 1 true (some ⟨[0],rfl⟩) true true true =
      some (⟨0,0,0,1,[0],false⟩ : QueueContext ℕ) := rfl
  have hlinearizable := fifoQueue_linearizable hcreate (rfl : run (fifoQueue ℕ) (start _) moves = some _)
  exact ⟨_,rfl,hlinearizable.1,by decide,by decide,by decide⟩

end Whist.FifoQueue
