import Mathlib.Data.List.Basic
import Mathlib.Logic.Function.Basic
import Whist.Foundation.Run

/-! # The queue of the logger

Any number of threads log lines, one prints them.  A section under `logger_queue_mutex` is one step; a line is written
into its item outside of it.  A line is known by its thread and its number there.
-/
namespace Whist.Logging

def loggerQueueSize : ℕ := 1000

def loggerBufSize : ℕ := 1000

def warningLevel : ℕ := 2

abbrev Line := { l : List UInt8 // 0 ∉ l ∧ 10 ∉ l }

def escape (c : UInt8) : Option UInt8 :=
  if c = 8 then some 98 else if c = 12 then some 102 else if c = 13 then some 114 else if c = 9 then some 116 else none

def copyAndEscape : ℕ → List UInt8 → List UInt8
  | _, [] => []
  | room, c :: s =>
    match escape c with
    | some esc => if room ≤ 2 then [] else 92 :: esc :: copyAndEscape (room - 2) s
    | none => if room ≤ 1 then [] else c :: copyAndEscape (room - 1) s

structure Request where
  level : ℕ
  indented : Bool
  line : Line

def Request.linePrefix (r : Request) : List UInt8 := if r.indented then [124,32,32,32,32] else []

def Request.text (r : Request) : List UInt8 :=
  r.linePrefix ++ copyAndEscape (loggerBufSize - r.linePrefix.length) r.line

/-- A newline and `Log buffer overflowing!`. -/
def overflowNote : List UInt8 :=
  [10,76,111,103,32,98,117,102,102,101,114,32,111,118,101,114,102,108,111,119,105,110,103,33]

def writeItem (r : Request) (overflow : Bool) : List UInt8 :=
  let pos := r.text.length + if overflow then overflowNote.length else 0
  let buf := r.text ++ if overflow then overflowNote.take (loggerBufSize - 1 - r.text.length) else []
  if loggerBufSize - 5 ≤ pos then buf.take (loggerBufSize - 5) ++ [46,46,46,10] else buf ++ [10]

def itemLevel (r : Request) (overflow : Bool) : ℕ := if overflow ∧ warningLevel < r.level then warningLevel else r.level

abbrev Item := Fin loggerQueueSize

/-- A `LoggerQueueItem`, with the thread that wrote it and the number of the line there. -/
structure Content where
  thread : ℕ
  number : ℕ
  level : ℕ
  buf : List UInt8

def Content.id (c : Content) : ℕ × ℕ := (c.thread,c.number)

/-- Where a thread is in `logger_queue_line`. -/
inductive Writer
  | idle
  | taken (item : Item) (overflow : Bool) (number : ℕ) (request : Request)
  | written (item : Item)

inductive Printer
  | waiting
  | extracted (item : Item)
  | printed (item : Item)

structure State where
  freelist : List Item
  queue : List Item
  items : Item → Content
  writers : ℕ → Writer
  printer : Printer
  paused : Bool
  /-- The number of lines that a thread has logged. -/
  count : ℕ → ℕ
  printed : List Content
  /-- The lines that were only sent to stdout. -/
  unqueued : List (ℕ × ℕ)
  /-- The lines that were dropped from the queue, with those that took their place. -/
  replaced : List ((ℕ × ℕ) × (ℕ × ℕ))

def initial : State where
  freelist := List.finRange loggerQueueSize
  queue := []
  items := fun _ => ⟨0,0,0,[]⟩
  writers := fun _ => .idle
  printer := .waiting
  paused := false
  count := fun _ => 0
  printed := []
  unqueued := []
  replaced := []

inductive Action
  | take (thread : ℕ) (request : Request)
  | write (thread : ℕ)
  | append (thread : ℕ)
  | extract
  | print
  | recycle
  | pause (paused : Bool)

def step (s : State) : Action → Except Unit State
  | .take t r =>
    match s.writers t with
    | .idle =>
      let number := s.count t
      let count := Function.update s.count t (number + 1)
      match s.freelist with
      | item :: rest => .ok { s with
          freelist := rest
          count := count
          writers := Function.update s.writers t (.taken item false number r) }
      | [] =>
        match s.queue with
        | item :: rest => .ok { s with
            queue := rest
            count := count
            writers := Function.update s.writers t (.taken item true number r)
            replaced := s.replaced ++ [((s.items item).id,(t,number))] }
        | [] => .ok { s with
            count := count
            unqueued := s.unqueued ++ [(t,number)] }
    | _ => .error ()
  | .write t =>
    match s.writers t with
    | .taken item overflow number r => .ok { s with
        items := Function.update s.items item ⟨t,number,itemLevel r overflow,writeItem r overflow⟩
        writers := Function.update s.writers t (.written item) }
    | _ => .error ()
  | .append t =>
    match s.writers t with
    | .written item => .ok { s with
        queue := s.queue ++ [item]
        writers := Function.update s.writers t .idle }
    | _ => .error ()
  | .extract =>
    match s.printer, s.queue with
    | .waiting, item :: rest =>
      if s.paused then .error () else .ok { s with
        queue := rest
        printer := .extracted item }
    | _, _ => .error ()
  | .print =>
    match s.printer with
    | .extracted item => .ok { s with
        printed := s.printed ++ [s.items item]
        printer := .printed item }
    | _ => .error ()
  | .recycle =>
    match s.printer with
    | .printed item => .ok { s with
        freelist := item :: s.freelist
        printer := .waiting }
    | _ => .error ()
  | .pause paused => .ok { s with paused := paused }

inductive Place
  | free
  | queue
  | writer (thread : ℕ)
  | printer

def Writer.item : Writer → Option Item
  | .idle => none
  | .taken item _ _ _ => some item
  | .written item => some item

def Printer.item : Printer → Option Item
  | .waiting => none
  | .extracted item => some item
  | .printed item => some item

namespace State

def At (s : State) (i : Item) : Place → Prop
  | .free => i ∈ s.freelist
  | .queue => i ∈ s.queue
  | .writer t => (s.writers t).item = some i
  | .printer => s.printer.item = some i

structure Conserved (s : State) : Prop where
  freelist : s.freelist.Nodup
  queue : s.queue.Nodup
  place : ∀ i, ∃! p, s.At i p

def unprinted (s : State) : List Content :=
  match s.printer with
  | .extracted item => [s.items item]
  | _ => []

def lines (s : State) : List Content := s.printed ++ (s.unprinted ++ s.queue.map s.items)

def InOrder (s : State) : Prop := s.lines.Pairwise fun c d => c.thread = d.thread → c.number < d.number

def inHand (s : State) (t : ℕ) : Option (ℕ × ℕ) :=
  match s.writers t with
  | .idle => none
  | .taken _ _ number _ => some (t,number)
  | .written item => some (s.items item).id

def Present (s : State) (id : ℕ × ℕ) : Prop :=
  (∃ c ∈ s.lines, c.id = id) ∨ id ∈ s.unqueued ∨ s.inHand id.1 = some id

def Marked (c : Content) : Prop := overflowNote <:+: c.buf ∧ c.level ≤ warningLevel

structure Explained (s : State) : Prop where
  present : ∀ t, ∀ k < s.count t, s.Present (t,k) ∨ ∃ r, ((t,k),r) ∈ s.replaced
  marked : ∀ v r, (v,r) ∈ s.replaced → ∀ c ∈ s.lines, c.id = r → Marked c

def LosesOldest (s s' : State) : Prop :=
  ∀ id, s.Present id → s'.Present id ∨
    ∃ item rest r, s.freelist = [] ∧ s.queue = item :: rest ∧ id = (s.items item).id ∧ (id,r) ∈ s'.replaced

end State

structure Correct (s : State) : Prop where
  conserved : s.Conserved
  inOrder : s.InOrder
  explained : s.Explained
  losesOldest : ∀ a s', step s a = .ok s' → s.LosesOldest s'

def Request.Short (r : Request) : Prop := r.text.length + overflowNote.length ≤ loggerBufSize - 5

/-- A line that is logged when no item is free leaves room for the note. -/
def ShortWhenFull (s : State) : Action → Prop
  | .take _ r => s.freelist = [] → s.queue ≠ [] → r.Short
  | _ => True

theorem length_copyAndEscape_lt {room : ℕ} (hroom : 0 < room) (text : List UInt8) :
    (copyAndEscape room text).length < room := by
  induction text generalizing room with
  | nil => exact hroom
  | cons c text ih =>
    rw [copyAndEscape]
    cases escape c with
    | some esc =>
      dsimp only
      by_cases hlast : room ≤ 2
      · rw [if_pos hlast]
        exact hroom
      · rw [if_neg hlast, List.length_cons, List.length_cons]
        have := @ih (room - 2) (by omega)
        omega
    | none =>
      dsimp only
      by_cases hlast : room ≤ 1
      · rw [if_pos hlast]
        exact hroom
      · rw [if_neg hlast, List.length_cons]
        have := @ih (room - 1) (by omega)
        omega

theorem escape_ne_newline {c esc : UInt8} (h : escape c = some esc) : esc ≠ 10 := by
  unfold escape at h
  split_ifs at h <;> cases h <;> decide

theorem newline_notMem_copyAndEscape {text : List UInt8} (h : 10 ∉ text) (room : ℕ) : 10 ∉ copyAndEscape room text := by
  induction text generalizing room with
  | nil => exact List.not_mem_nil
  | cons c text ih =>
    rw [List.mem_cons, not_or] at h
    have hrest := ih h.2
    rw [copyAndEscape]
    cases hesc : escape c with
    | some esc =>
      dsimp only
      split_ifs
      · exact List.not_mem_nil
      · simp only [List.mem_cons, not_or]
        exact ⟨by decide,(escape_ne_newline hesc).symm,hrest _⟩
    | none =>
      dsimp only
      split_ifs
      · exact List.not_mem_nil
      · simp only [List.mem_cons, not_or]
        exact ⟨h.1,hrest _⟩

namespace Request
variable (r : Request)

theorem length_text_lt : r.text.length < loggerBufSize := by
  have hprefix : r.linePrefix.length ≤ 5 := by
    unfold linePrefix
    split_ifs
    · exact le_rfl
    · exact Nat.zero_le _
  have hlt := @length_copyAndEscape_lt (loggerBufSize - r.linePrefix.length) (by unfold loggerBufSize; omega) r.line
  rw [text, List.length_append]
  omega

theorem newline_notMem_text : 10 ∉ r.text := by
  have hprefix : 10 ∉ r.linePrefix := by
    unfold linePrefix
    split_ifs <;> decide
  intro h
  rcases List.mem_append.mp h with h | h
  · exact hprefix h
  · exact newline_notMem_copyAndEscape r.line.property.2 _ h

end Request

theorem length_overflowNote : overflowNote.length = 24 := rfl

theorem writeItem_short {r : Request} (h : r.Short) : overflowNote <:+: writeItem r true := by
  have hlength := length_overflowNote
  unfold Request.Short at h
  unfold loggerBufSize at h
  have hnote : overflowNote.take (loggerBufSize - 1 - r.text.length) = overflowNote := by
    apply List.take_of_length_le
    unfold loggerBufSize
    omega
  unfold writeItem
  dsimp only
  rw [if_pos rfl, if_pos rfl, hnote]
  by_cases hfull : loggerBufSize - 5 ≤ r.text.length + overflowNote.length
  · rw [if_pos hfull, List.take_of_length_le (by rw [List.length_append]; exact h)]
    exact ⟨r.text,[46,46,46,10],rfl⟩
  · rw [if_neg hfull]
    exact ⟨r.text,[10],rfl⟩

theorem not_marked_of_long {r : Request} (h : ¬r.Short) : ¬overflowNote <:+: writeItem r true := by
  have hlength := length_overflowNote
  have htext := r.length_text_lt
  have hnewline := r.newline_notMem_text
  unfold Request.Short at h
  unfold loggerBufSize at h htext
  unfold writeItem
  dsimp only
  rw [if_pos rfl, if_pos rfl, if_pos (by unfold loggerBufSize; omega)]
  unfold loggerBufSize
  generalize r.text = text at *
  rintro ⟨front,back,heq⟩
  have hbody : ((text ++ overflowNote.take (1000 - 1 - text.length)).take (1000 - 5)).length = 995 := by
    rw [List.length_take, List.length_append, List.length_take]
    omega
  have hsize := congrArg List.length heq
  rw [List.length_append, List.length_append, List.length_append, hbody] at hsize
  have hdots : ([46,46,46,10] : List UInt8).length = 4 := rfl
  have hat : ∀ k < 24, overflowNote[k]? = ((text ++ overflowNote.take (1000 - 1 - text.length)).take (1000 - 5) ++
      [46,46,46,10])[front.length + k]? := by
    intro k hk
    rw [← heq, List.append_assoc, List.getElem?_append_right (Nat.le_add_right _ _), Nat.add_sub_cancel_left,
      List.getElem?_append_left (by omega)]
  have hone : ∀ k < 24, overflowNote[k]? = some 10 → k = 0 := by decide
  -- the newline of the note is the one behind the text
  have hstart : front.length = text.length := by
    have hfirst := (hat 0 (by omega)).symm
    rw [Nat.add_zero, List.getElem?_append_left (by omega), List.getElem?_take_of_lt (by omega)] at hfirst
    by_cases hin : front.length < text.length
    · rw [List.getElem?_append_left hin] at hfirst
      exact absurd (List.mem_of_getElem? hfirst) hnewline
    · rw [List.getElem?_append_right (by omega)] at hfirst
      have hlt : front.length - text.length < 1000 - 1 - text.length := by omega
      rw [List.getElem?_take_of_lt hlt] at hfirst
      have hzero := hone (front.length - text.length) (by
        by_contra hge
        rw [List.getElem?_eq_none (by omega)] at hfirst
        cases hfirst) hfirst
      omega
  have hlast := hat 23 (by omega)
  rw [List.getElem?_append_right (by omega), hbody] at hlast
  have hdot : ∀ k < 4, ([46,46,46,10] : List UInt8)[k]? ≠ overflowNote[23]? := by decide
  exact hdot _ (by omega) hlast.symm

theorem marked_iff (r : Request) : overflowNote <:+: writeItem r true ↔ r.Short := by
  constructor
  · intro h
    by_contra hlong
    exact not_marked_of_long hlong h
  · exact writeItem_short

theorem itemLevel_le (r : Request) : itemLevel r true ≤ warningLevel := by
  unfold itemLevel
  by_cases hlevel : warningLevel < r.level
  · rw [if_pos ⟨rfl,hlevel⟩]
  · rw [if_neg (fun h => hlevel h.2)]
    omega

namespace State

/-- What a step may do, where a line that takes the item of another is as it is allowed to be. -/
inductive Steps (Allowed : Request → Prop) (s : State) : State → Prop
  | take {t : ℕ} {r : Request} {item : Item} {rest : List Item} (hw : s.writers t = .idle)
      (hfree : s.freelist = item :: rest) : Steps Allowed s { s with
        freelist := rest
        count := Function.update s.count t (s.count t + 1)
        writers := Function.update s.writers t (.taken item false (s.count t) r) }
  | steal {t : ℕ} {r : Request} {item : Item} {rest : List Item} (hw : s.writers t = .idle) (hfree : s.freelist = [])
      (hqueue : s.queue = item :: rest) (hallowed : Allowed r) : Steps Allowed s { s with
        queue := rest
        count := Function.update s.count t (s.count t + 1)
        writers := Function.update s.writers t (.taken item true (s.count t) r)
        replaced := s.replaced ++ [((s.items item).id,(t,s.count t))] }
  | stdout {t : ℕ} (hw : s.writers t = .idle) : Steps Allowed s { s with
        count := Function.update s.count t (s.count t + 1)
        unqueued := s.unqueued ++ [(t,s.count t)] }
  | write {t : ℕ} {item : Item} {overflow : Bool} {number : ℕ} {r : Request}
      (hw : s.writers t = .taken item overflow number r) : Steps Allowed s { s with
        items := Function.update s.items item ⟨t,number,itemLevel r overflow,writeItem r overflow⟩
        writers := Function.update s.writers t (.written item) }
  | append {t : ℕ} {item : Item} (hw : s.writers t = .written item) : Steps Allowed s { s with
        queue := s.queue ++ [item]
        writers := Function.update s.writers t .idle }
  | extract {item : Item} {rest : List Item} (hp : s.printer = .waiting) (hqueue : s.queue = item :: rest) :
      Steps Allowed s { s with
        queue := rest
        printer := .extracted item }
  | print {item : Item} (hp : s.printer = .extracted item) : Steps Allowed s { s with
        printed := s.printed ++ [s.items item]
        printer := .printed item }
  | recycle {item : Item} (hp : s.printer = .printed item) : Steps Allowed s { s with
        freelist := item :: s.freelist
        printer := .waiting }
  | pause (paused : Bool) : Steps Allowed s { s with paused := paused }

end State

theorem step_cases {Allowed : Request → Prop} {s s' : State} {a : Action}
    (hallowed : ∀ t r, a = .take t r → s.freelist = [] → s.queue ≠ [] → Allowed r) (h : step s a = .ok s') :
    State.Steps Allowed s s' := by
  cases a with
  | take t r =>
    simp only [step] at h
    cases hw : s.writers t with
    | idle =>
      rw [hw] at h
      dsimp only at h
      cases hfree : s.freelist with
      | cons item rest =>
        rw [hfree] at h
        cases h
        exact .take hw hfree
      | nil =>
        rw [hfree] at h
        dsimp only at h
        cases hqueue : s.queue with
        | cons item rest =>
          rw [hqueue] at h
          cases h
          have hr := hallowed t r rfl hfree (by rw [hqueue]; exact List.cons_ne_nil _ _)
          have hsteal := State.Steps.steal hw hfree hqueue hr
          rw [hfree] at hsteal
          exact hsteal
        | nil =>
          rw [hqueue] at h
          cases h
          have hstdout : State.Steps Allowed s _ := .stdout hw
          rw [hfree, hqueue] at hstdout
          exact hstdout
    | taken item overflow number r =>
      rw [hw] at h
      cases h
    | written item =>
      rw [hw] at h
      cases h
  | write t =>
    simp only [step] at h
    cases hw : s.writers t with
    | taken item overflow number r =>
      rw [hw] at h
      cases h
      exact .write hw
    | idle =>
      rw [hw] at h
      cases h
    | written item =>
      rw [hw] at h
      cases h
  | append t =>
    simp only [step] at h
    cases hw : s.writers t with
    | written item =>
      rw [hw] at h
      cases h
      exact .append hw
    | idle =>
      rw [hw] at h
      cases h
    | taken item overflow number r =>
      rw [hw] at h
      cases h
  | extract =>
    simp only [step] at h
    cases hp : s.printer with
    | waiting =>
      cases hqueue : s.queue with
      | nil =>
        rw [hp, hqueue] at h
        cases h
      | cons item rest =>
        rw [hp, hqueue] at h
        dsimp only at h
        split_ifs at h
        cases h
        exact .extract hp hqueue
    | extracted item =>
      rw [hp] at h
      cases h
    | printed item =>
      rw [hp] at h
      cases h
  | print =>
    simp only [step] at h
    cases hp : s.printer with
    | extracted item =>
      rw [hp] at h
      cases h
      exact .print hp
    | waiting =>
      rw [hp] at h
      cases h
    | printed item =>
      rw [hp] at h
      cases h
  | recycle =>
    simp only [step] at h
    cases hp : s.printer with
    | printed item =>
      rw [hp] at h
      cases h
      exact .recycle hp
    | waiting =>
      rw [hp] at h
      cases h
    | extracted item =>
      rw [hp] at h
      cases h
  | pause paused =>
    cases h
    exact .pause paused

namespace State
variable {s s' : State}

def Placed (s : State) : Prop := ∃ place : Item → Place, ∀ i p, s.At i p ↔ place i = p

theorem Placed.unique (h : s.Placed) {i : Item} {p q : Place} (hp : s.At i p) (hq : s.At i q) : p = q := by
  obtain ⟨place,hplace⟩ := h
  exact ((hplace i p).mp hp).symm.trans ((hplace i q).mp hq)

theorem Placed.congr (h : s.Placed) (hsame : ∀ i p, s'.At i p ↔ s.At i p) : s'.Placed := by
  obtain ⟨place,hplace⟩ := h
  exact ⟨place,fun i p => (hsame i p).trans (hplace i p)⟩

theorem Placed.move (h : s.Placed) {i : Item} {p q : Place} (hi : s.At i p)
    (hother : ∀ j r, r ≠ p → r ≠ q → (s'.At j r ↔ s.At j r)) (hleave : ∀ j, s'.At j p ↔ s.At j p ∧ j ≠ i)
    (henter : ∀ j, s'.At j q ↔ s.At j q ∨ j = i) : s'.Placed := by
  obtain ⟨place,hplace⟩ := h
  have hat := (hplace i p).mp hi
  refine ⟨Function.update place i q,?_⟩
  intro j r
  by_cases hj : j = i
  · rw [hj, Function.update_self]
    by_cases hrq : r = q
    · rw [hrq]
      exact iff_of_true ((henter i).mpr (Or.inr rfl)) rfl
    · refine iff_of_false ?_ (fun heq => hrq heq.symm)
      by_cases hrp : r = p
      · rw [hrp]
        exact fun hmem => ((hleave i).mp hmem).2 rfl
      · intro hmem
        exact hrp (((hplace i r).mp ((hother i r hrp hrq).mp hmem)).symm.trans hat)
  · rw [Function.update_of_ne hj, ← hplace]
    by_cases hrq : r = q
    · rw [hrq, henter]
      exact or_iff_left hj
    · by_cases hrp : r = p
      · rw [hrp, hleave]
        exact and_iff_left hj
      · exact hother j r hrp hrq

structure Sorted (s : State) : Prop where
  freelist : s.freelist.Nodup
  queue : s.queue.Nodup
  placed : s.Placed

theorem Sorted.conserved (h : s.Sorted) : s.Conserved where
  freelist := h.freelist
  queue := h.queue
  place := by
    obtain ⟨place,hplace⟩ := h.placed
    intro i
    exact ⟨place i,(hplace i _).mpr rfl,fun p hp => ((hplace i p).mp hp).symm⟩

theorem mem_tail_iff {item : Item} {rest : List Item} (h : (item :: rest).Nodup) (j : Item) :
    j ∈ rest ↔ j ∈ item :: rest ∧ j ≠ item := by
  rw [List.mem_cons]
  constructor
  · intro hj
    refine ⟨Or.inr hj,?_⟩
    rintro rfl
    exact (List.nodup_cons.mp h).1 hj
  · rintro ⟨hj,hne⟩
    exact hj.resolve_left hne

section Writer
variable {t : ℕ} {w : Writer} {item : Item}

theorem at_writer_other (hw : s'.writers = Function.update s.writers t w) (j : Item) {u : ℕ}
    (hu : Place.writer u ≠ .writer t) : s'.At j (.writer u) ↔ s.At j (.writer u) := by
  have hne : u ≠ t := fun heq => hu (congrArg _ heq)
  change (s'.writers u).item = some j ↔ _
  rw [hw, Function.update_of_ne hne]
  exact Iff.rfl

theorem at_writer_gain (hw : s'.writers = Function.update s.writers t w) (hidle : s.writers t = .idle)
    (hitem : w.item = some item) (j : Item) : s'.At j (.writer t) ↔ s.At j (.writer t) ∨ j = item := by
  change (s'.writers t).item = some j ↔ (s.writers t).item = some j ∨ _
  rw [hw, Function.update_self, hidle, hitem, Option.some.injEq]
  constructor
  · intro hj
    exact Or.inr hj.symm
  · rintro (hj | hj)
    · cases hj
    · exact hj.symm

theorem at_writer_lose (hw : s'.writers = Function.update s.writers t .idle) (hitem : (s.writers t).item = some item)
    (j : Item) : s'.At j (.writer t) ↔ s.At j (.writer t) ∧ j ≠ item := by
  change (s'.writers t).item = some j ↔ (s.writers t).item = some j ∧ _
  rw [hw, Function.update_self, hitem, Option.some.injEq]
  constructor
  · intro hj
    cases hj
  · rintro ⟨hj,hne⟩
    exact absurd hj.symm hne

theorem at_writer_keep (hw : s'.writers = Function.update s.writers t w) (hitem : w.item = (s.writers t).item)
    (j : Item) (u : ℕ) : s'.At j (.writer u) ↔ s.At j (.writer u) := by
  change (s'.writers u).item = some j ↔ (s.writers u).item = some j
  rw [hw]
  by_cases hu : u = t
  · rw [hu, Function.update_self, hitem]
  · rw [Function.update_of_ne hu]

end Writer

theorem Sorted.steps {Allowed : Request → Prop} (h : s.Sorted) (hstep : Steps Allowed s s') : s'.Sorted := by
  cases hstep with
  | @take t r item rest hw hfree =>
    have hnodup := h.freelist
    rw [hfree] at hnodup
    have hitem : item ∈ s.freelist := by
      rw [hfree]
      exact List.mem_cons_self
    refine ⟨hnodup.of_cons,h.queue,h.placed.move (p := .free) (q := .writer t) hitem ?_ ?_ ?_⟩
    · intro j p hp hq
      cases p with
      | free => exact absurd rfl hp
      | writer u => exact at_writer_other rfl j hq
      | queue => exact Iff.rfl
      | printer => exact Iff.rfl
    · intro j
      change j ∈ rest ↔ j ∈ s.freelist ∧ j ≠ item
      rw [hfree]
      exact mem_tail_iff hnodup j
    · exact at_writer_gain rfl hw rfl
  | @steal t r item rest hw hfree hqueue hallowed =>
    have hnodup := h.queue
    rw [hqueue] at hnodup
    have hitem : item ∈ s.queue := by
      rw [hqueue]
      exact List.mem_cons_self
    refine ⟨h.freelist,hnodup.of_cons,h.placed.move (p := .queue) (q := .writer t) hitem ?_ ?_ ?_⟩
    · intro j p hp hq
      cases p with
      | queue => exact absurd rfl hp
      | writer u => exact at_writer_other rfl j hq
      | free => exact Iff.rfl
      | printer => exact Iff.rfl
    · intro j
      change j ∈ rest ↔ j ∈ s.queue ∧ j ≠ item
      rw [hqueue]
      exact mem_tail_iff hnodup j
    · exact at_writer_gain rfl hw rfl
  | stdout hw => exact ⟨h.freelist,h.queue,h.placed.congr fun i p => by cases p <;> exact Iff.rfl⟩
  | @write t item overflow number r hw =>
    refine ⟨h.freelist,h.queue,h.placed.congr ?_⟩
    intro i p
    cases p with
    | writer u => exact at_writer_keep rfl (by rw [hw]; rfl) i u
    | free => exact Iff.rfl
    | queue => exact Iff.rfl
    | printer => exact Iff.rfl
  | @append t item hw =>
    have hitem : (s.writers t).item = some item := by
      rw [hw]
      rfl
    have hnew : item ∉ s.queue := by
      intro hmem
      have hplace := h.placed.unique (p := .queue) (q := .writer t) hmem hitem
      cases hplace
    refine ⟨h.freelist,?_,h.placed.move (p := .writer t) (q := .queue) hitem ?_ ?_ ?_⟩
    · exact List.nodup_append.mpr ⟨h.queue,List.nodup_singleton _,fun a ha b hb hab =>
        hnew (List.mem_singleton.mp hb ▸ hab ▸ ha)⟩
    · intro j p hp hq
      cases p with
      | queue => exact absurd rfl hq
      | writer u => exact at_writer_other rfl j hp
      | free => exact Iff.rfl
      | printer => exact Iff.rfl
    · exact at_writer_lose rfl hitem
    · intro j
      change j ∈ s.queue ++ [item] ↔ j ∈ s.queue ∨ j = item
      rw [List.mem_append, List.mem_singleton]
  | @extract item rest hp hqueue =>
    have hnodup := h.queue
    rw [hqueue] at hnodup
    have hitem : item ∈ s.queue := by
      rw [hqueue]
      exact List.mem_cons_self
    refine ⟨h.freelist,hnodup.of_cons,h.placed.move (p := .queue) (q := .printer) hitem ?_ ?_ ?_⟩
    · intro j p hp hq
      cases p with
      | queue => exact absurd rfl hp
      | writer u => exact Iff.rfl
      | free => exact Iff.rfl
      | printer => exact absurd rfl hq
    · intro j
      change j ∈ rest ↔ j ∈ s.queue ∧ j ≠ item
      rw [hqueue]
      exact mem_tail_iff hnodup j
    · intro j
      change some item = some j ↔ s.printer.item = some j ∨ j = item
      rw [hp, Option.some.injEq]
      constructor
      · intro hj
        exact Or.inr hj.symm
      · rintro (hj | hj)
        · cases hj
        · exact hj.symm
  | @print item hp =>
    refine ⟨h.freelist,h.queue,h.placed.congr ?_⟩
    intro i p
    cases p with
    | printer =>
      change some item = some i ↔ s.printer.item = some i
      rw [hp]
      exact Iff.rfl
    | free => exact Iff.rfl
    | queue => exact Iff.rfl
    | writer u => exact Iff.rfl
  | @recycle item hp =>
    have hitem : s.printer.item = some item := by
      rw [hp]
      rfl
    have hnew : item ∉ s.freelist := by
      intro hmem
      have hplace := h.placed.unique (p := .free) (q := .printer) hmem hitem
      cases hplace
    refine ⟨List.nodup_cons.mpr ⟨hnew,h.freelist⟩,h.queue,h.placed.move (p := .printer) (q := .free) hitem ?_ ?_ ?_⟩
    · intro j p hp hq
      cases p with
      | printer => exact absurd rfl hp
      | free => exact absurd rfl hq
      | queue => exact Iff.rfl
      | writer u => exact Iff.rfl
    · intro j
      change none = some j ↔ s.printer.item = some j ∧ j ≠ item
      rw [hitem, Option.some.injEq]
      constructor
      · intro hj
        cases hj
      · rintro ⟨hj,hne⟩
        exact absurd hj.symm hne
    · intro j
      change j ∈ item :: s.freelist ↔ j ∈ s.freelist ∨ j = item
      rw [List.mem_cons]
      exact or_comm
  | pause paused => exact ⟨h.freelist,h.queue,h.placed.congr fun i p => by cases p <;> exact Iff.rfl⟩

end State
end Whist.Logging
