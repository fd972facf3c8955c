import Mathlib.Data.List.TakeWhile
import Mathlib.Tactic

/-! # The piped arguments of the client

`get_next_piped_argument`, which reads one line into a buffer and cuts it in place.  Of the buffer the model keeps the
bytes that have been written.
-/
namespace Whist.PipedArguments

def maxUrlLength : ℕ := 2048
def maxNewTabUrls : ℕ := 1000
def incomingMaxlen : ℕ := maxUrlLength * maxNewTabUrls

def newline : UInt8 := 10
def carriageReturn : UInt8 := 13
def questionMark : UInt8 := 63

def strcspn (reject str : List UInt8) : Option ℕ := str.findIdx? fun b => b = 0 || decide (b ∈ reject)

def strlen (str : List UInt8) : Option ℕ := str.findIdx? fun b => b = 0

def splitStringAt (delim str : List UInt8) : Option (List UInt8 × Option (List UInt8)) :=
  match strcspn delim str, strlen str with
  | some pos, some len => some (if pos < len then (str.take pos ++ [0],some (str.drop (pos + 1))) else (str,none))
  | _, _ => none

def trimNewlines (str : List UInt8) : Option (List UInt8) :=
  (splitStringAt [carriageReturn,newline] str).map Prod.fst

def strdup (str : List UInt8) : Option (List UInt8) := (strlen str).map fun len => str.take len

abbrev Argument := List UInt8 × Option (List UInt8)

def parseIncoming (incoming : List UInt8) : Option Argument :=
  match trimNewlines incoming with
  | none => none
  | some incoming =>
    match splitStringAt [questionMark] incoming with
    | none => none
    | some (incoming,none) => (strdup incoming).map fun key => (key,none)
    | some (incoming,some rawValue) =>
      match strdup incoming, (trimNewlines rawValue).bind strdup with
      | some key, some value => some (key,some value)
      | _, _ => none

/-- A result of `safe_read`: a byte, zero or -1. -/
inductive Read
  | byte (b : UInt8)
  | nothing
  | failure

inductive LoopExit
  | done (incoming : List UInt8) (reads : List Read)
  | failed (reads : List Read)
  | waiting

def readIncoming : List UInt8 → List Read → LoopExit
  | incoming, [] => if incoming.length < incomingMaxlen then .waiting else .done incoming []
  | incoming, read :: reads =>
    if incoming.length < incomingMaxlen then
      match read with
      | .failure => .failed reads
      | .nothing => readIncoming incoming reads
      | .byte b => if b = newline then .done (incoming ++ [0]) reads else readIncoming (incoming ++ [b]) reads
    else .done incoming (read :: reads)

/-- What a call does: it returns -1, 1, or 0 with an argument, waits, or reads a byte that was never
written. -/
inductive Outcome
  | error (reads : List Read)
  | unavailable
  | argument (a : Argument) (reads : List Read)
  | waiting
  | unwritten

def getNextPipedArgument (bytesAvailable : ℤ) (reads : List Read) : Outcome :=
  if bytesAvailable = -1 then .error reads
  else if bytesAvailable = 0 then .unavailable
  else
    match readIncoming [] reads with
    | .waiting => .waiting
    | .failed reads => .error reads
    | .done incoming reads =>
      match parseIncoming incoming with
      | none => .unwritten
      | some a => .argument a reads

/-- The arguments that the calls return, one call for each count of available bytes, and whether one of
the calls reads an unwritten byte. -/
def pipedArguments : List ℤ → List Read → List Argument × Bool
  | [], _ => ([],false)
  | bytesAvailable :: calls, reads =>
    match getNextPipedArgument bytesAvailable reads with
    | .error reads => pipedArguments calls reads
    | .unavailable => pipedArguments calls reads
    | .waiting => ([],false)
    | .unwritten => ([],true)
    | .argument a reads =>
      let later := pipedArguments calls reads
      (a :: later.1,later.2)

def delivered : List Read → List UInt8
  | [] => []
  | .byte b :: reads => b :: delivered reads
  | .nothing :: reads => delivered reads
  | .failure :: reads => delivered reads

/-- Reads fail only at the start of a line; the flag is set there. -/
def Undisturbed : Bool → List Read → Prop
  | _, [] => True
  | lineStart, .failure :: reads => lineStart = true ∧ Undisturbed lineStart reads
  | lineStart, .nothing :: reads => Undisturbed lineStart reads
  | _, .byte b :: reads => Undisturbed (decide (b = newline)) reads

def argumentOf (line : List UInt8) : Argument :=
  let text := line.takeWhile (· ≠ carriageReturn)
  (text.takeWhile (· ≠ questionMark),
    if questionMark ∈ text then some (text.dropWhile (· ≠ questionMark)).tail else none)

/-- The lines of a stream, and then the unfinished one. -/
def segments (stream : List UInt8) : List (List UInt8) := stream.splitOn newline

def lines (stream : List UInt8) : List (List UInt8) := (segments stream).dropLast

/-- The calls return the first lines, and read no byte of the buffer before it is written. -/
def Framed (reads : List Read) (calls : List ℤ) : Prop :=
  (pipedArguments calls reads).1 <+: (lines (delivered reads)).map argumentOf ∧
    (pipedArguments calls reads).2 = false

theorem segments_cons (b : UInt8) (stream : List UInt8) : segments (b :: stream) =
    if b = newline then [] :: segments stream else (segments stream).modifyHead (b :: ·) := by
  unfold segments
  rw [List.splitOn_eq_splitOnP, List.splitOnP_cons_eq_if_modifyHead]
  by_cases hb : b = newline
  · rw [if_pos hb, if_pos (beq_iff_eq.mpr hb)]
    rfl
  · rw [if_neg hb, if_neg (fun h => hb (beq_iff_eq.mp h))]
    rfl

theorem segments_ne_nil (stream : List UInt8) : segments stream ≠ [] := List.splitOnP_ne_nil _ _

def NoNul (s : List UInt8) : Prop := ∀ b ∈ s, b ≠ 0

theorem NoNul.of_cons {b : UInt8} {s : List UInt8} (h : NoNul (b :: s)) : b ≠ 0 ∧ NoNul s :=
  ⟨h b List.mem_cons_self,fun c hc => h c (List.mem_cons_of_mem b hc)⟩

theorem NoNul.of_subset {s t : List UInt8} (h : NoNul s) (hsub : t ⊆ s) : NoNul t := fun b hb => h b (hsub hb)

theorem strcspn_eq {reject s : List UInt8} {p : UInt8 → Bool} (junk : List UInt8) (h : NoNul s)
    (hp : ∀ b ∈ s, p b = decide (b ∉ reject)) :
    strcspn reject (s ++ 0 :: junk) = some (s.takeWhile p).length := by
  induction s with
  | nil => rfl
  | cons b s ih =>
    obtain ⟨hb,hs⟩ := h.of_cons
    have hrest := ih hs (fun c hc => hp c (List.mem_cons_of_mem b hc))
    unfold strcspn at hrest ⊢
    rw [List.cons_append, List.findIdx?_cons, hrest, List.takeWhile_cons, hp b List.mem_cons_self]
    by_cases hmem : b ∈ reject
    · simp [hmem]
    · simp [hb, hmem]

theorem strlen_eq {s : List UInt8} (junk : List UInt8) (h : NoNul s) : strlen (s ++ 0 :: junk) = some s.length := by
  have hspan := @strcspn_eq [] s (fun _ => true) junk h (fun b _ => (decide_eq_true List.not_mem_nil).symm)
  rw [List.takeWhile_eq_self_iff.mpr (fun _ _ => rfl)] at hspan
  rw [← hspan, strlen, strcspn]
  simp only [List.not_mem_nil, decide_false, Bool.or_false]

theorem strdup_eq {s junk : List UInt8} (h : NoNul s) : strdup (s ++ 0 :: junk) = some s := by
  rw [strdup, strlen_eq junk h, Option.map_some, List.take_left]

theorem splitStringAt_eq {delim s : List UInt8} {p : UInt8 → Bool} (junk : List UInt8) (h : NoNul s)
    (hp : ∀ b ∈ s, p b = decide (b ∉ delim)) :
    splitStringAt delim (s ++ 0 :: junk) =
      some (if s.dropWhile p = [] then (s ++ 0 :: junk,none)
        else (s.takeWhile p ++ [0],some ((s.dropWhile p).tail ++ 0 :: junk))) := by
  unfold splitStringAt
  rw [strcspn_eq junk h hp, strlen_eq junk h]
  dsimp only
  generalize ht : s.takeWhile p = t
  generalize hd : s.dropWhile p = d
  obtain rfl : s = t ++ d := by rw [← ht, ← hd, List.takeWhile_append_dropWhile]
  cases d with
  | nil => simp
  | cons b d => simp [List.drop_append]

theorem trimNewlines_eq {s : List UInt8} (junk : List UInt8) (h : NoNul s) (hline : newline ∉ s) :
    ∃ junk', trimNewlines (s ++ 0 :: junk) = some (s.takeWhile (· ≠ carriageReturn) ++ 0 :: junk') := by
  have hp : ∀ b ∈ s, decide (b ≠ carriageReturn) = decide (b ∉ [carriageReturn,newline]) := by
    intro b hb
    have hne : b ≠ newline := fun heq => hline (heq ▸ hb)
    simp [hne]
  unfold trimNewlines
  rw [splitStringAt_eq junk h hp, Option.map_some]
  by_cases hnone : s.dropWhile (· ≠ carriageReturn) = []
  · rw [if_pos hnone, List.takeWhile_eq_self_iff.mpr (List.dropWhile_eq_nil_iff.mp hnone)]
    exact ⟨junk,rfl⟩
  · rw [if_neg hnone]
    exact ⟨[],rfl⟩

theorem parseIncoming_eq {line : List UInt8} (h : NoNul line) (hline : newline ∉ line) :
    parseIncoming (line ++ [0]) = some (argumentOf line) := by
  obtain ⟨junk,htrim⟩ := trimNewlines_eq [] h hline
  unfold parseIncoming argumentOf
  rw [htrim]
  dsimp only
  have htext : ∀ b ∈ line.takeWhile (· ≠ carriageReturn), b ∈ line ∧ b ≠ carriageReturn := fun b hb =>
    ⟨(List.takeWhile_prefix _).subset hb,by simpa using List.mem_takeWhile_imp hb⟩
  generalize line.takeWhile (· ≠ carriageReturn) = text at htext
  have hnul : NoNul text := fun b hb => h b (htext b hb).1
  have hsplit := @splitStringAt_eq [questionMark] text (· ≠ questionMark) junk hnul (fun b _ => by simp)
  rw [hsplit]
  have hmem : questionMark ∈ text ↔ text.dropWhile (· ≠ questionMark) ≠ [] := by
    simp [List.dropWhile_eq_nil_iff]
  by_cases hnone : text.dropWhile (· ≠ questionMark) = []
  · rw [if_pos hnone, if_neg (fun h => hmem.mp h hnone),
      List.takeWhile_eq_self_iff.mpr (List.dropWhile_eq_nil_iff.mp hnone)]
    dsimp only
    rw [strdup_eq hnul, Option.map_some]
  · -- the value has no line end of its own
    have hvalue : ∀ b ∈ (text.dropWhile (· ≠ questionMark)).tail, b ∈ text := fun b hb =>
      (List.dropWhile_suffix _).subset (List.tail_subset _ hb)
    obtain ⟨junk',htrim'⟩ := trimNewlines_eq junk (fun b hb => hnul b (hvalue b hb))
      (fun hb => hline (htext _ (hvalue _ hb)).1)
    rw [List.takeWhile_eq_self_iff.mpr (fun b hb => decide_eq_true (htext b (hvalue b hb)).2)] at htrim'
    rw [if_neg hnone, if_pos (hmem.mpr hnone)]
    dsimp only
    rw [htrim', strdup_eq (fun b hb => hnul b ((List.takeWhile_prefix _).subset hb)), Option.bind_some,
      strdup_eq (fun b hb => hnul b (hvalue b hb))]

theorem strlen_noNul {s : List UInt8} (h : NoNul s) : strlen s = none :=
  List.findIdx?_eq_none_iff.mpr fun b hb => decide_eq_false (h b hb)

theorem parseIncoming_unwritten {incoming : List UInt8} (h : NoNul incoming) : parseIncoming incoming = none := by
  unfold parseIncoming trimNewlines splitStringAt
  rw [strlen_noNul h]
  cases strcspn [carriageReturn,newline] incoming <;> rfl

/-- How the loop ends, for the first segment of the stream and the others. -/
inductive LineRead (incoming : List UInt8) (reads : List Read) : LoopExit → Prop
  | failed {reads' : List Read} (hstart : incoming = []) (hsame : delivered reads' = delivered reads)
      (hlt : reads'.length < reads.length) (hundisturbed : Undisturbed true reads') :
      LineRead incoming reads (.failed reads')
  | waiting {segment : List UInt8} (hsegments : segments (delivered reads) = [segment])
      (hshort : incoming.length + segment.length < incomingMaxlen) : LineRead incoming reads .waiting
  | line {segment : List UInt8} {reads' : List Read}
      (hsegments : segments (delivered reads) = segment :: segments (delivered reads'))
      (hshort : incoming.length + segment.length < incomingMaxlen) (hlt : reads'.length < reads.length)
      (hsub : delivered reads' ⊆ delivered reads) (hundisturbed : Undisturbed true reads') :
      LineRead incoming reads (.done (incoming ++ segment ++ [0]) reads')
  | full {segment filled : List UInt8} {reads' : List Read} {rest : List (List UInt8)}
      (hsegments : segments (delivered reads) = segment :: rest)
      (hlong : incomingMaxlen ≤ incoming.length + segment.length) (hfilled : filled <+: segment) :
      LineRead incoming reads (.done (incoming ++ filled) reads')

theorem LineRead.of_full {incoming : List UInt8} (reads : List Read) (h : ¬incoming.length < incomingMaxlen) :
    LineRead incoming reads (.done incoming reads) := by
  obtain ⟨segment,rest,hsegments⟩ := List.exists_cons_of_ne_nil (segments_ne_nil (delivered reads))
  have hfull := @LineRead.full incoming reads segment [] reads rest hsegments (by omega) List.nil_prefix
  rwa [List.append_nil] at hfull

theorem readIncoming_full {incoming : List UInt8} (reads : List Read) (h : ¬incoming.length < incomingMaxlen) :
    readIncoming incoming reads = .done incoming reads := by
  cases reads with
  | nil => exact if_neg h
  | cons read reads => exact if_neg h

theorem readIncoming_cons {incoming : List UInt8} (read : Read) (reads : List Read)
    (h : incoming.length < incomingMaxlen) : readIncoming incoming (read :: reads) =
      match read with
      | .failure => .failed reads
      | .nothing => readIncoming incoming reads
      | .byte b => if b = newline then .done (incoming ++ [0]) reads else readIncoming (incoming ++ [b]) reads :=
  if_pos h

theorem LineRead.nothing {incoming : List UInt8} {reads : List Read} {e : LoopExit}
    (h : LineRead incoming reads e) : LineRead incoming (.nothing :: reads) e := by
  cases h with
  | failed hstart hsame hlt hundisturbed => exact .failed hstart hsame (Nat.lt_succ_of_lt hlt) hundisturbed
  | waiting hsegments hshort => exact .waiting hsegments hshort
  | line hsegments hshort hlt hsub hundisturbed =>
    exact .line hsegments hshort (Nat.lt_succ_of_lt hlt) hsub hundisturbed
  | full hsegments hlong hfilled => exact .full hsegments hlong hfilled

theorem LineRead.byte {incoming : List UInt8} {reads : List Read} {e : LoopExit} {b : UInt8} (hb : b ≠ newline)
    (h : LineRead (incoming ++ [b]) reads e) : LineRead incoming (.byte b :: reads) e := by
  have hcons : segments (delivered (.byte b :: reads)) = (segments (delivered reads)).modifyHead (b :: ·) := by
    rw [delivered, segments_cons, if_neg hb]
  cases h with
  | failed hstart => exact absurd hstart (List.append_ne_nil_of_right_ne_nil _ (List.cons_ne_nil _ _))
  | @waiting segment hsegments hshort =>
    rw [hsegments] at hcons
    refine .waiting hcons ?_
    simp only [List.length_append, List.length_cons, List.length_nil] at hshort ⊢
    omega
  | @line segment reads' hsegments hshort hlt hsub hundisturbed =>
    rw [hsegments] at hcons
    have hline := @LineRead.line incoming (.byte b :: reads) (b :: segment) reads' hcons
      (by simp only [List.length_append, List.length_cons, List.length_nil] at hshort ⊢; omega)
      (Nat.lt_succ_of_lt hlt) (List.subset_cons_of_subset b hsub) hundisturbed
    simpa only [List.append_assoc, List.cons_append, List.nil_append] using hline
  | @full segment filled reads' rest hsegments hlong hfilled =>
    rw [hsegments] at hcons
    have hfull := @LineRead.full incoming (.byte b :: reads) (b :: segment) (b :: filled) reads' rest hcons
      (by simp only [List.length_append, List.length_cons, List.length_nil] at hlong ⊢; omega)
      (List.cons_prefix_cons.mpr ⟨rfl,hfilled⟩)
    simpa only [List.append_assoc, List.singleton_append] using hfull

theorem readIncoming_lineRead (reads : List Read) (incoming : List UInt8)
    (hundisturbed : Undisturbed (decide (incoming = [])) reads) :
    LineRead incoming reads (readIncoming incoming reads) := by
  induction reads generalizing incoming with
  | nil =>
    by_cases hroom : incoming.length < incomingMaxlen
    · have hwait : readIncoming incoming [] = .waiting := if_pos hroom
      rw [hwait]
      exact @LineRead.waiting _ _ [] rfl hroom
    · rw [readIncoming_full [] hroom]
      exact LineRead.of_full [] hroom
  | cons read reads ih =>
    by_cases hroom : incoming.length < incomingMaxlen
    swap
    · rw [readIncoming_full _ hroom]
      exact LineRead.of_full _ hroom
    rw [readIncoming_cons read reads hroom]
    cases read with
    | failure =>
      obtain ⟨hstart,hrest⟩ := hundisturbed
      rw [hstart] at hrest
      exact .failed (of_decide_eq_true hstart) rfl (Nat.lt_succ_self _) hrest
    | nothing => exact (ih incoming hundisturbed).nothing
    | byte b =>
      dsimp only
      unfold Undisturbed at hundisturbed
      by_cases hb : b = newline
      · rw [decide_eq_true hb] at hundisturbed
        rw [if_pos hb]
        have hline := @LineRead.line incoming (.byte b :: reads) [] reads
          (by rw [delivered, segments_cons, if_pos hb]) hroom (Nat.lt_succ_self _)
          (List.subset_cons_self b _) hundisturbed
        rwa [List.append_nil] at hline
      · rw [decide_eq_false hb] at hundisturbed
        rw [if_neg hb]
        have hne : ¬incoming ++ [b] = [] := List.append_ne_nil_of_right_ne_nil _ (List.cons_ne_nil _ _)
        refine (ih (incoming ++ [b]) ?_).byte hb
        rw [decide_eq_false hne]
        exact hundisturbed

theorem mem_of_segments {b : UInt8} {stream segment : List UInt8} (hsegment : segment ∈ segments stream)
    (hb : b ∈ segment) : b ∈ stream ∧ b ≠ newline := by
  induction stream generalizing segment with
  | nil =>
    rw [segments, List.splitOn_nil, List.mem_singleton] at hsegment
    rw [hsegment] at hb
    cases hb
  | cons c stream ih =>
    rw [segments_cons] at hsegment
    by_cases hc : c = newline
    · rw [if_pos hc] at hsegment
      rcases List.mem_cons.mp hsegment with rfl | hmem
      · cases hb
      · exact ⟨List.mem_cons_of_mem c (ih hmem hb).1,(ih hmem hb).2⟩
    · rw [if_neg hc] at hsegment
      obtain ⟨first,rest,heq⟩ := List.exists_cons_of_ne_nil (segments_ne_nil stream)
      rw [heq, List.modifyHead_cons] at hsegment
      rw [heq] at ih
      rcases List.mem_cons.mp hsegment with rfl | hmem
      · rcases List.mem_cons.mp hb with rfl | hb
        · exact ⟨List.mem_cons_self,hc⟩
        · exact ⟨List.mem_cons_of_mem c (ih List.mem_cons_self hb).1,(ih List.mem_cons_self hb).2⟩
      · exact ⟨List.mem_cons_of_mem c (ih (List.mem_cons_of_mem _ hmem) hb).1,
          (ih (List.mem_cons_of_mem _ hmem) hb).2⟩

/-- A call that finds bytes returns the next line, or reads beyond the bytes of a line that is too long. -/
inductive Called (reads : List Read) : Outcome → Prop
  | error {reads' : List Read} (hsame : delivered reads' = delivered reads) (hlt : reads'.length < reads.length)
      (hundisturbed : Undisturbed true reads') : Called reads (.error reads')
  | waiting {segment : List UInt8} (hsegments : segments (delivered reads) = [segment])
      (hshort : segment.length < incomingMaxlen) : Called reads .waiting
  | argument {segment : List UInt8} {reads' : List Read}
      (hsegments : segments (delivered reads) = segment :: segments (delivered reads'))
      (hshort : segment.length < incomingMaxlen) (hlt : reads'.length < reads.length)
      (hsub : delivered reads' ⊆ delivered reads) (hundisturbed : Undisturbed true reads') :
      Called reads (.argument (argumentOf segment) reads')
  | unwritten {segment : List UInt8} (hmem : segment ∈ segments (delivered reads))
      (hlong : incomingMaxlen ≤ segment.length) : Called reads .unwritten

variable {reads : List Read} {bytesAvailable : ℤ}

theorem getNextPipedArgument_called (hnul : NoNul (delivered reads)) (hundisturbed : Undisturbed true reads)
    (herror : bytesAvailable ≠ -1) (hzero : bytesAvailable ≠ 0) :
    Called reads (getNextPipedArgument bytesAvailable reads) := by
  have hread := readIncoming_lineRead reads [] hundisturbed
  have hsegment : ∀ {segment : List UInt8} {rest : List (List UInt8)},
      segments (delivered reads) = segment :: rest → ∀ b ∈ segment, b ∈ delivered reads ∧ b ≠ newline :=
    fun hsegments b hb => mem_of_segments (hsegments ▸ List.mem_cons_self) hb
  unfold getNextPipedArgument
  rw [if_neg herror, if_neg hzero]
  generalize readIncoming [] reads = e at hread
  cases hread with
  | failed hstart hsame hlt hundisturbed' => exact .error hsame hlt hundisturbed'
  | waiting hsegments hshort => exact .waiting hsegments (by simpa using hshort)
  | @line segment reads' hsegments hshort hlt hsub hundisturbed' =>
    have hline := hsegment hsegments
    have hparse := @parseIncoming_eq segment (fun b hb => hnul b (hline b hb).1) (fun hb => (hline _ hb).2 rfl)
    rw [List.nil_append]
    dsimp only
    rw [hparse]
    exact .argument hsegments (by simpa using hshort) hlt hsub hundisturbed'
  | @full segment filled reads' rest hsegments hlong hfilled =>
    have hline := hsegment hsegments
    have hparse := @parseIncoming_unwritten filled (fun b hb => hnul b (hline b (hfilled.subset hb)).1)
    rw [List.nil_append]
    dsimp only
    rw [hparse]
    exact .unwritten (hsegments ▸ List.mem_cons_self) (by simpa using hlong)

theorem lines_cons {stream stream' segment : List UInt8} (h : segments stream = segment :: segments stream') :
    lines stream = segment :: lines stream' := by
  unfold lines
  rw [h, List.dropLast_cons_of_ne_nil (segments_ne_nil _)]

theorem framed_of_short (hnul : NoNul (delivered reads)) (hundisturbed : Undisturbed true reads)
    (hshort : ∀ segment ∈ segments (delivered reads), segment.length < incomingMaxlen) (calls : List ℤ) :
    Framed reads calls := by
  induction calls generalizing reads with
  | nil => exact ⟨List.nil_prefix,rfl⟩
  | cons bytesAvailable calls ih =>
    unfold Framed pipedArguments
    by_cases herror : bytesAvailable = -1
    · have hfails : getNextPipedArgument bytesAvailable reads = .error reads := if_pos herror
      rw [hfails]
      exact ih hnul hundisturbed hshort
    by_cases hzero : bytesAvailable = 0
    · have hnone : getNextPipedArgument bytesAvailable reads = .unavailable :=
        (if_neg herror).trans (if_pos hzero)
      rw [hnone]
      exact ih hnul hundisturbed hshort
    have hcalled := getNextPipedArgument_called hnul hundisturbed herror hzero
    generalize getNextPipedArgument bytesAvailable reads = outcome at hcalled
    cases hcalled with
    | @error reads' hsame hlt hundisturbed' =>
      have hframed := @ih reads' (hsame ▸ hnul) hundisturbed' (hsame ▸ hshort)
      unfold Framed at hframed
      rw [hsame] at hframed
      exact hframed
    | waiting hsegments hlast => exact ⟨List.nil_prefix,rfl⟩
    | @argument segment reads' hsegments hlast hlt hsub hundisturbed' =>
      obtain ⟨hlines,hwritten⟩ := @ih reads' (hnul.of_subset hsub) hundisturbed'
        (fun s hs => hshort s (hsegments ▸ List.mem_cons_of_mem segment hs))
      rw [lines_cons hsegments, List.map_cons]
      exact ⟨List.cons_prefix_cons.mpr ⟨rfl,hlines⟩,hwritten⟩
    | unwritten hmem hlong => exact absurd (hshort _ hmem) (not_lt.mpr hlong)

theorem unwritten_of_long (hnul : NoNul (delivered reads)) (hundisturbed : Undisturbed true reads)
    {long : List UInt8} (hmem : long ∈ segments (delivered reads)) (hlong : incomingMaxlen ≤ long.length) :
    ∃ calls, (pipedArguments calls reads).2 = true := by
  induction hn : reads.length using Nat.strong_induction_on generalizing reads with
  | _ n ih =>
    have hcalled := @getNextPipedArgument_called reads 1 hnul hundisturbed (by decide) (by decide)
    generalize hcall : getNextPipedArgument 1 reads = outcome at hcalled
    cases hcalled with
    | @error reads' hsame hlt hundisturbed' =>
      obtain ⟨calls,hcalls⟩ := ih reads'.length (hn ▸ hlt) (hsame ▸ hnul) hundisturbed' (hsame ▸ hmem) rfl
      refine ⟨1 :: calls,?_⟩
      rw [pipedArguments, hcall]
      exact hcalls
    | waiting hsegments hlast =>
      rw [hsegments, List.mem_singleton] at hmem
      rw [hmem] at hlong
      omega
    | @argument segment reads' hsegments hlast hlt hsub hundisturbed' =>
      have hmem' : long ∈ segments (delivered reads') := by
        rw [hsegments] at hmem
        refine (List.mem_cons.mp hmem).resolve_left ?_
        rintro rfl
        omega
      obtain ⟨calls,hcalls⟩ := ih reads'.length (hn ▸ hlt) (hnul.of_subset hsub) hundisturbed' hmem' rfl
      refine ⟨1 :: calls,?_⟩
      rw [pipedArguments, hcall]
      exact hcalls
    | unwritten hmem' hlong' =>
      refine ⟨[1],?_⟩
      rw [pipedArguments, hcall]

/-- However the calls find the bytes, they return the lines of the stream in order exactly if every line,
the unfinished one included, is shorter than the buffer. -/
theorem framed_iff (hnul : NoNul (delivered reads)) (hundisturbed : Undisturbed true reads) :
    (∀ calls, Framed reads calls) ↔ ∀ segment ∈ segments (delivered reads), segment.length < incomingMaxlen := by
  constructor
  · intro h segment hmem
    by_contra hlong
    obtain ⟨calls,hcalls⟩ := unwritten_of_long hnul hundisturbed hmem (not_lt.mp hlong)
    rw [(h calls).2] at hcalls
    cases hcalls
  · exact framed_of_short hnul hundisturbed

def shortLine : List Read := [.byte 107,.byte 63,.nothing,.byte 118,.byte 13,.byte 10]

theorem framed_shortLine : (∀ calls, Framed shortLine calls) ∧
    (pipedArguments [6] shortLine).1 = [([107],some [118])] := by
  refine ⟨(@framed_iff shortLine ?_ ?_).mpr ?_,?_⟩
  · unfold NoNul
    decide +kernel
  · trivial
  · decide +kernel
  · decide +kernel

theorem segments_replicate {b : UInt8} (hb : b ≠ newline) (n : ℕ) :
    segments (List.replicate n b) = [List.replicate n b] := by
  induction n with
  | zero => rfl
  | succ n ih => rw [List.replicate_succ, segments_cons, if_neg hb, ih, List.modifyHead_cons]

theorem delivered_replicate (b : UInt8) (n : ℕ) :
    delivered (List.replicate n (.byte b)) = List.replicate n b := by
  induction n with
  | zero => rfl
  | succ n ih => rw [List.replicate_succ, delivered, ih, List.replicate_succ]

theorem undisturbed_replicate {b : UInt8} (n : ℕ) (lineStart : Bool) :
    Undisturbed lineStart (List.replicate n (.byte b)) := by
  induction n generalizing lineStart with
  | zero => trivial
  | succ n ih => exact ih _

/-- A line of exactly the size of the buffer leaves no room for its end. -/
theorem framed_fails : ¬∀ reads : List Read, NoNul (delivered reads) → Undisturbed true reads →
    ∀ calls, Framed reads calls := by
  intro h
  obtain ⟨n,hn⟩ : ∃ n, incomingMaxlen = n := ⟨_,rfl⟩
  have hdelivered := delivered_replicate 97 n
  have hnul : NoNul (delivered (List.replicate n (.byte 97))) := by
    rw [hdelivered]
    intro b hb
    rw [List.eq_of_mem_replicate hb]
    decide
  have hmem : List.replicate n 97 ∈ segments (delivered (List.replicate n (.byte 97))) := by
    rw [hdelivered, segments_replicate (by decide) n]
    exact List.mem_cons_self
  obtain ⟨calls,hcalls⟩ := unwritten_of_long hnul (undisturbed_replicate n true) hmem
    (by rw [List.length_replicate, hn])
  rw [(h _ hnul (undisturbed_replicate n true) calls).2] at hcalls
  cases hcalls

end Whist.PipedArguments
