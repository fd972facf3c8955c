import Mathlib.Tactic

/-! # Dragging and dropping files into a window

`file_drag_update` during a drag and `drop_file_into_active_window` offer lists of URIs to the window under the
pointer.  Each keeps its list in a buffer that grows with every file.
-/
namespace Whist.FileDrop

def newline : Char := Char.ofNat 10

def nul : Char := Char.ofNat 0

abbrev CString := { s : List Char // nul ∉ s }

def cString (buffer : List Char) : List Char := buffer.takeWhile (· ≠ nul)

/-- A file for which `file_drop_prepare` made a directory. -/
structure TransferringFile where
  id : ℤ
  filename : CString
  x : ℤ
  y : ℤ

/-- An event of `XNextEvent`, as far as it is told apart. -/
inductive XEvent where
  | statusRefused | statusAccepted | selectionRequest | finished | other
deriving DecidableEq

inductive XMessage where
  | enter
  | position (x y : ℤ)
  | selectionNotify (fileList : List Char)
  | drop
  | leave
deriving DecidableEq

/-- A call, with the answers it gets: whether `xdnd_own_and_send_enter` succeeds, and the
events until the loop over them ends. -/
inductive Call where
  | dropFile (file : TransferringFile)
  | drop (enters : Bool) (events : List XEvent)
  | dragUpdate (isDragging : Bool) (x y dragGroupId : ℤ) (filename : Option CString) (enters : Bool)
      (events : List XEvent)

structure DropHandler where
  fileUriList : Option (List Char) := none
  fileUriListStrlen : ℕ := 0
  dropX : ℤ := 0
  dropY : ℤ := 0
  numFiles : ℕ := 0
  xdndFileList : Option (List Char) := none
  xdndFileListLen : ℕ := 0
  activeFileDrag : Bool := false
  currDragGroupId : ℤ := 0
  currDragFileId : ℕ := 0
  xdndMutex : ℕ := 0
  displayLock : ℕ := 0

structure Reply where
  ret : ℤ
  messages : List XMessage
  handler : DropHandler

/-- `buffer` of length `len` is grown by the string: its terminator becomes a newline. -/
def appendLine (buffer : Option (List Char)) (len : ℕ) (uri : List Char) : List Char :=
  match buffer with
  | some buffer => buffer.set (len - 1) newline ++ (uri ++ [nul])
  | none => uri ++ [nul]

def fuseDirectory : List Char := "file:///home/whist/drag-drop/".toList

def decimal : ℤ → List Char
  | .ofNat n => Nat.toDigits 10 n
  | .negSucc n => '-' :: Nat.toDigits 10 (n + 1)

def dropUri (file : TransferringFile) : List Char :=
  fuseDirectory ++ decimal file.id ++ '/' :: file.filename.val

def dragUri (dragFileId : ℕ) (filename : CString) : List Char :=
  fuseDirectory ++ "temp".toList ++ decimal dragFileId ++ '/' :: filename.val

def CString.hasNewline (s : CString) : Bool := decide (newline ∈ s.val)

namespace DropHandler

def lock (s : DropHandler) : DropHandler :=
  { s with xdndMutex := s.xdndMutex + 1, displayLock := s.displayLock + 1 }

def unlock (s : DropHandler) : DropHandler :=
  { s with xdndMutex := s.xdndMutex - 1, displayLock := s.displayLock - 1 }

def unlockMutex (s : DropHandler) : DropHandler := { s with xdndMutex := s.xdndMutex - 1 }

def dragEnd (s : DropHandler) : Reply :=
  let s := s.lock
  let messages := if s.activeFileDrag then [.leave] else []
  let s := if s.activeFileDrag then { s with xdndFileList := none, xdndFileListLen := 0 } else s
  ⟨0,messages,{ s.unlock with activeFileDrag := false }⟩

def addDragFile (s : DropHandler) (messages : List XMessage) (filename : CString) : Reply :=
  if filename.hasNewline then ⟨-1,messages,s⟩
  else
    let uri := dragUri s.currDragFileId filename
    ⟨0,messages,{ s with
      xdndFileList := some (appendLine s.xdndFileList s.xdndFileListLen uri)
      xdndFileListLen := s.xdndFileListLen + (uri.length + 1)
      currDragFileId := s.currDragFileId + 1 }⟩

def dragFile (s : DropHandler) (dragGroupId : ℤ) (filename : CString) : Reply :=
  if dragGroupId > s.currDragGroupId then
    let r := s.dragEnd
    addDragFile { r.handler with currDragGroupId := dragGroupId, currDragFileId := 0 } r.messages filename
  else if dragGroupId < s.currDragGroupId then ⟨0,[],s⟩
  else addDragFile s [] filename

def dragLoop (fileList : List Char) (events : List XEvent) : List XMessage :=
  events.filterMap fun e => match e with
    | .selectionRequest => some (.selectionNotify (cString fileList))
    | .finished => some .leave
    | _ => none

def dragMove (s : DropHandler) (fileList : List Char) (x y : ℤ) (enters : Bool) (events : List XEvent) :
    Reply :=
  let s := s.lock
  if !s.activeFileDrag && !enters then ⟨-1,[],s.unlock⟩
  else
    let messages := if s.activeFileDrag then [] else [.enter]
    ⟨0,messages ++ .position x y :: dragLoop fileList events,{ s.unlock with activeFileDrag := true }⟩

def fileDragUpdate (s : DropHandler) (isDragging : Bool) (x y dragGroupId : ℤ)
    (filename : Option CString) (enters : Bool) (events : List XEvent) : Reply :=
  if isDragging then
    match filename, s.xdndFileList with
    | some filename, _ => s.dragFile dragGroupId filename
    | none, none => ⟨-1,[],s⟩
    | none, some fileList => s.dragMove fileList x y enters events
  else s.dragEnd

def registerFile (s : DropHandler) (file : TransferringFile) : Reply :=
  if file.filename.hasNewline then ⟨-1,[],s⟩
  else
    let uri := dropUri file
    ⟨0,[],{ s with
      fileUriList := some (appendLine s.fileUriList s.fileUriListStrlen uri)
      fileUriListStrlen := s.fileUriListStrlen + (uri.length + 1)
      dropX := file.x
      dropY := file.y
      numFiles := s.numFiles + 1 }⟩

def resetFileDropStatics (s : DropHandler) : DropHandler :=
  { s with fileUriList := none, fileUriListStrlen := 0, dropX := 0, dropY := 0, numFiles := 0 }

def dropLoop (s : DropHandler) (fileList : List Char) : List XEvent → List XMessage
  | [] | .finished :: _ => []
  | .statusRefused :: es => .position s.dropX s.dropY :: dropLoop s fileList es
  | .statusAccepted :: es => .drop :: dropLoop s fileList es
  | .selectionRequest :: es => .selectionNotify (cString fileList) :: dropLoop s fileList es
  | .other :: es => dropLoop s fileList es

def dropFiles (s : DropHandler) (enters : Bool) (events : List XEvent) : Reply :=
  -- In case no event has told the end of the drag.
  let r := s.dragEnd
  let s := r.handler
  match s.fileUriList with
  | none => ⟨-1,r.messages,s.resetFileDropStatics⟩
  | some fileList =>
    let s := s.lock
    -- This exit keeps the display's lock and the list.
    if !enters then ⟨-1,r.messages,s.unlockMutex⟩
    else
      ⟨0,r.messages ++ .enter :: .position s.dropX s.dropY :: (s.dropLoop fileList events ++ [.leave]),
        s.unlock.resetFileDropStatics⟩

def call (s : DropHandler) : Call → Reply
  | .dropFile file => s.registerFile file
  | .drop enters events => s.dropFiles enters events
  | .dragUpdate isDragging x y dragGroupId filename enters events =>
    s.fileDragUpdate isDragging x y dragGroupId filename enters events

def run (calls : List Call) : DropHandler := calls.foldl (fun s m => (s.call m).handler) {}

end DropHandler

def joinLines (lines : List (List Char)) : List Char := [newline].intercalate lines

structure DragGroup where
  id : ℤ
  uris : List (List Char)

def DragGroup.receive (g : DragGroup) (id : ℤ) (filename : CString) : DragGroup :=
  if id < g.id then g
  else
    let uris := if id > g.id then [] else g.uris
    ⟨id,if filename.hasNewline then uris else uris ++ [dragUri uris.length filename]⟩

def DragGroup.step (g : DragGroup) : Call → DragGroup
  | .dragUpdate true _ _ id (some filename) _ _ => g.receive id filename
  | _ => g

def currentGroup (calls : List Call) : DragGroup := calls.foldl DragGroup.step ⟨0,[]⟩

def registerStep (uris : List (List Char)) : Call → List (List Char)
  | .dropFile file => if file.filename.hasNewline then uris else uris ++ [dropUri file]
  | .drop .. => []
  | .dragUpdate .. => uris

def registered (calls : List Call) : List (List Char) := calls.foldl registerStep []

def offered (calls : List Call) : Call → List (List Char)
  | .drop .. => registered calls
  | .dropFile _ => []
  | .dragUpdate .. => (currentGroup calls).uris

/-- A drop of registered files enters the window.  The first file of a new group finds no list,
or a drag to end; a further file of a group does not follow the end of its drag. -/
def Orderly (s : DropHandler) : Call → Prop
  | .drop enters _ => s.fileUriList ≠ none → enters = true
  | .dragUpdate true _ _ id (some filename) _ _ =>
    (id > s.currDragGroupId → s.xdndFileList = none ∨ s.activeFileDrag = true) ∧
      (id = s.currDragGroupId → filename.hasNewline = false →
        s.xdndFileList ≠ none ∨ s.currDragFileId = 0)
  | _ => True

theorem joinLines_append {lines : List (List Char)} (h : lines ≠ []) (line : List Char) :
    joinLines (lines ++ [line]) = joinLines lines ++ newline :: line := by
  induction lines with
  | nil => exact absurd rfl h
  | cons l lines ih =>
    unfold joinLines at ih ⊢
    by_cases hl : lines = []
    · subst hl
      simp
    · rw [List.cons_append, List.intercalate_cons_of_ne_nil (by simp), ih hl,
        List.intercalate_cons_of_ne_nil hl]
      simp

theorem nul_notMem_joinLines {lines : List (List Char)} (h : ∀ l ∈ lines, nul ∉ l) :
    nul ∉ joinLines lines := by
  induction lines with
  | nil => simp [joinLines]
  | cons l lines ih =>
    have hl := h l (by simp)
    have hlines := ih fun l' hl' => h l' (List.mem_cons_of_mem _ hl')
    by_cases hnil : lines = []
    · subst hnil
      simpa [joinLines] using hl
    · rw [joinLines, List.intercalate_cons_of_ne_nil hnil]
      simp only [List.mem_append, not_or, List.mem_singleton]
      exact ⟨⟨hl,by decide⟩,hlines⟩

theorem cString_terminated {s : List Char} (h : nul ∉ s) : cString (s ++ [nul]) = s := by
  rw [cString, List.takeWhile_append_of_pos]
  · simp
  · intro a ha
    exact decide_eq_true fun hn => h (hn ▸ ha)

theorem nul_notMem_decimal (i : ℤ) : nul ∉ decimal i := by
  have hdigits : ∀ n : ℕ, nul ∉ Nat.toDigits 10 n := fun n hn =>
    absurd (Nat.isDigit_of_mem_toDigits (by decide) (by decide) hn) (by decide)
  cases i with
  | ofNat n => exact hdigits n
  | negSucc n =>
    rw [decimal, List.mem_cons, not_or]
    exact ⟨by decide,hdigits _⟩

theorem nul_notMem_path {s : List Char} (h : nul ∉ s) (filename : CString) :
    nul ∉ s ++ '/' :: filename.val := by
  rw [List.mem_append, List.mem_cons, not_or, not_or]
  exact ⟨h,by decide,filename.property⟩

theorem nul_notMem_dropUri (file : TransferringFile) : nul ∉ dropUri file := by
  apply nul_notMem_path
  rw [List.mem_append, not_or]
  exact ⟨by decide,nul_notMem_decimal _⟩

theorem nul_notMem_dragUri (dragFileId : ℕ) (filename : CString) : nul ∉ dragUri dragFileId filename := by
  apply nul_notMem_path
  rw [List.mem_append, not_or]
  exact ⟨by decide,nul_notMem_decimal _⟩

structure Holds (lines : List (List Char)) (buffer : Option (List Char)) (len : ℕ) : Prop where
  nulFree : ∀ l ∈ lines, nul ∉ l
  empty : buffer = none → lines = [] ∧ len = 0
  filled : ∀ b, buffer = some b → lines ≠ [] ∧ b = joinLines lines ++ [nul] ∧ len = b.length

theorem holds_nil : Holds [] none 0 := ⟨by simp,fun _ => ⟨rfl,rfl⟩,fun b hb => by cases hb⟩

theorem Holds.append {lines : List (List Char)} {buffer : Option (List Char)} {len : ℕ}
    (h : Holds lines buffer len) {uri : List Char} (huri : nul ∉ uri) :
    Holds (lines ++ [uri]) (some (appendLine buffer len uri)) (len + (uri.length + 1)) where
  nulFree := fun l hl => by
    rcases List.mem_append.mp hl with hl | hl
    · exact h.nulFree l hl
    · exact List.mem_singleton.mp hl ▸ huri
  empty := fun hnone => by cases hnone
  filled := fun b hb => by
    obtain rfl := Option.some.inj hb
    refine ⟨by simp,?_⟩
    cases hbuffer : buffer with
    | none =>
      obtain ⟨rfl,rfl⟩ := h.empty hbuffer
      simp [appendLine, joinLines]
    | some old =>
      obtain ⟨hne,rfl,rfl⟩ := h.filled old hbuffer
      rw [joinLines_append hne]
      simp [appendLine]
      omega

theorem Holds.cString {lines : List (List Char)} {b : List Char} {len : ℕ}
    (h : Holds lines (some b) len) : cString b = joinLines lines := by
  obtain ⟨-,rfl,-⟩ := h.filled b rfl
  exact cString_terminated (nul_notMem_joinLines h.nulFree)

structure Refines (uris : List (List Char)) (g : DragGroup) (s : DropHandler) : Prop where
  listed : Holds uris s.fileUriList s.fileUriListStrlen
  group : g.id = s.currDragGroupId
  count : g.uris.length = s.currDragFileId
  dragged : s.xdndFileList = none ∧ s.xdndFileListLen = 0 ∨
    Holds g.uris s.xdndFileList s.xdndFileListLen
  mutex : s.xdndMutex = 0
  display : s.displayLock = 0

def OnlyOffers (lines : List (List Char)) (messages : List XMessage) : Prop :=
  ∀ text, .selectionNotify text ∈ messages → text = joinLines lines

variable {uris : List (List Char)} {g : DragGroup} {s : DropHandler}

theorem onlyOffers_dragEnd (s : DropHandler) (lines : List (List Char)) :
    OnlyOffers lines s.dragEnd.messages := by
  intro text h
  unfold DropHandler.dragEnd at h
  dsimp only at h
  split_ifs at h
  · simp at h
  · cases h

theorem Refines.dragEnd (h : Refines uris g s) : Refines uris g s.dragEnd.handler := by
  unfold DropHandler.dragEnd
  dsimp only
  split_ifs
  · exact ⟨h.listed,h.group,h.count,.inl ⟨rfl,rfl⟩,h.mutex,h.display⟩
  · exact ⟨h.listed,h.group,h.count,h.dragged,h.mutex,h.display⟩

theorem dragEnd_xdndFileList (h : Refines uris g s)
    (hs : s.xdndFileList = none ∨ s.activeFileDrag = true) :
    s.dragEnd.handler.xdndFileList = none ∧ s.dragEnd.handler.xdndFileListLen = 0 := by
  unfold DropHandler.dragEnd
  dsimp only
  split_ifs with ha
  · exact ⟨rfl,rfl⟩
  · have hnone := hs.resolve_right ha
    refine ⟨hnone,?_⟩
    rcases h.dragged with hd | hd
    · exact hd.2
    · exact (hd.empty hnone).2

theorem Refines.addDragFile (h : Refines uris g s) {filename : CString}
    (hs : filename.hasNewline = false → s.xdndFileList ≠ none ∨ s.currDragFileId = 0)
    (messages : List XMessage) :
    Refines uris ⟨g.id,if filename.hasNewline then g.uris else g.uris ++ [dragUri g.uris.length filename]⟩
      (s.addDragFile messages filename).handler := by
  unfold DropHandler.addDragFile
  split_ifs with hn
  · exact h
  · have hd : Holds g.uris s.xdndFileList s.xdndFileListLen := by
      rcases h.dragged with ⟨hnone,hlen⟩ | hd
      · have hid := (hs (by simpa using hn)).resolve_left (not_not.mpr hnone)
        have hnil : g.uris = [] := List.length_eq_zero_iff.mp (h.count.trans hid)
        rw [hnone, hlen, hnil]
        exact holds_nil
      · exact hd
    refine ⟨h.listed,h.group,?_,.inr ?_,h.mutex,h.display⟩
    · simp [h.count]
    · rw [h.count]
      exact hd.append (nul_notMem_dragUri _ _)

theorem addDragFile_messages (s : DropHandler) (messages : List XMessage) (filename : CString) :
    (s.addDragFile messages filename).messages = messages := by
  unfold DropHandler.addDragFile
  split_ifs <;> rfl

theorem Refines.dragFile (h : Refines uris g s) {id : ℤ} {filename : CString}
    (hnew : id > s.currDragGroupId → s.xdndFileList = none ∨ s.activeFileDrag = true)
    (hold : id = s.currDragGroupId → filename.hasNewline = false →
      s.xdndFileList ≠ none ∨ s.currDragFileId = 0) :
    Refines uris (g.receive id filename) (s.dragFile id filename).handler := by
  unfold DropHandler.dragFile DragGroup.receive
  rw [h.group]
  rcases lt_trichotomy id s.currDragGroupId with hlt | heq | hgt
  · simp only [gt_iff_lt, hlt, hlt.not_gt, if_true, if_false]
    exact h
  · rw [if_neg heq.not_gt, if_neg heq.not_lt, if_neg heq.not_lt]
    dsimp only
    rw [if_neg heq.not_gt, heq, ← h.group]
    exact h.addDragFile (hold heq) []
  · rw [if_pos hgt, if_neg hgt.not_gt]
    dsimp only
    rw [if_pos hgt]
    have hend := h.dragEnd
    have hempty := dragEnd_xdndFileList h (hnew hgt)
    have hfresh : Refines uris ⟨id,[]⟩
        { s.dragEnd.handler with currDragGroupId := id, currDragFileId := 0 } :=
      ⟨hend.listed,rfl,rfl,.inl hempty,hend.mutex,hend.display⟩
    exact hfresh.addDragFile (fun _ => .inr rfl) _

theorem onlyOffers_dragFile (s : DropHandler) (id : ℤ) (filename : CString)
    (lines : List (List Char)) : OnlyOffers lines (s.dragFile id filename).messages := by
  unfold DropHandler.dragFile
  split_ifs
  · rw [addDragFile_messages]
    exact onlyOffers_dragEnd s lines
  · exact fun text h => by cases h
  · rw [addDragFile_messages]
    exact fun text h => by cases h

theorem Refines.dragMove (h : Refines uris g s) (fileList : List Char) (x y : ℤ) (enters : Bool)
    (events : List XEvent) : Refines uris g (s.dragMove fileList x y enters events).handler := by
  unfold DropHandler.dragMove
  dsimp only
  split_ifs <;> exact ⟨h.listed,h.group,h.count,h.dragged,h.mutex,h.display⟩

theorem Refines.onlyOffers_dragMove (h : Refines uris g s) {fileList : List Char}
    (hlist : s.xdndFileList = some fileList) (x y : ℤ) (enters : Bool) (events : List XEvent) :
    OnlyOffers g.uris (s.dragMove fileList x y enters events).messages := by
  have hd : Holds g.uris (some fileList) s.xdndFileListLen := by
    rcases h.dragged with ⟨hnone,-⟩ | hd
    · rw [hnone] at hlist
      cases hlist
    · rwa [hlist] at hd
  intro text ht
  unfold DropHandler.dragMove at ht
  dsimp only at ht
  split_ifs at ht
  · cases ht
  all_goals
    simp only [List.mem_append, List.mem_cons, List.not_mem_nil, reduceCtorEq, false_or, or_false,
      DropHandler.dragLoop, List.mem_filterMap] at ht
    obtain ⟨e,-,he⟩ := ht
    cases e <;> simp only [reduceCtorEq, Option.some.injEq, XMessage.selectionNotify.injEq] at he
    rw [← he, hd.cString]

theorem onlyOffers_dropLoop {lines : List (List Char)} {fileList : List Char}
    (hlist : cString fileList = joinLines lines) (s : DropHandler) (events : List XEvent) :
    OnlyOffers lines (s.dropLoop fileList events) := by
  intro text ht
  induction events with
  | nil => cases ht
  | cons e events ih =>
    cases e with
    | statusRefused =>
      rcases List.mem_cons.mp ht with ht | ht
      · cases ht
      · exact ih ht
    | statusAccepted =>
      rcases List.mem_cons.mp ht with ht | ht
      · cases ht
      · exact ih ht
    | selectionRequest =>
      rcases List.mem_cons.mp ht with ht | ht
      · rw [XMessage.selectionNotify.inj ht, hlist]
      · exact ih ht
    | finished => cases ht
    | other => exact ih ht

theorem Refines.registerFile (h : Refines uris g s) (file : TransferringFile) :
    Refines (registerStep uris (.dropFile file)) g (s.registerFile file).handler := by
  unfold DropHandler.registerFile registerStep
  dsimp only
  split_ifs
  · exact h
  · exact ⟨h.listed.append (nul_notMem_dropUri file),h.group,h.count,h.dragged,h.mutex,h.display⟩

theorem Refines.dropFiles (h : Refines uris g s) {enters : Bool}
    (henters : s.fileUriList ≠ none → enters = true) (events : List XEvent) :
    Refines [] g (s.dropFiles enters events).handler ∧
      OnlyOffers uris (s.dropFiles enters events).messages := by
  have hend := h.dragEnd
  have hmessages := onlyOffers_dragEnd s uris
  have hlist : s.dragEnd.handler.fileUriList = s.fileUriList := by
    unfold DropHandler.dragEnd
    dsimp only
    split_ifs <;> rfl
  rw [← hlist] at henters
  unfold DropHandler.dropFiles
  dsimp only
  split
  case _ hnone =>
    exact ⟨⟨holds_nil,hend.group,hend.count,hend.dragged,hend.mutex,hend.display⟩,hmessages⟩
  case _ fileList hsome =>
    obtain rfl := henters (by simp [hsome])
    have hreg := hend.listed
    rw [hsome] at hreg
    refine ⟨⟨holds_nil,hend.group,hend.count,hend.dragged,hend.mutex,hend.display⟩,?_⟩
    intro text ht
    simp only [Bool.not_true, Bool.false_eq_true, if_false, List.mem_append, List.mem_cons,
      reduceCtorEq, false_or, List.not_mem_nil, or_false] at ht
    rcases ht with ht | ht
    · exact hmessages text ht
    · exact onlyOffers_dropLoop hreg.cString _ events text ht

theorem Refines.call (h : Refines uris g s) {m : Call} (hm : Orderly s m) :
    Refines (registerStep uris m) (g.step m) (s.call m).handler := by
  cases m with
  | dropFile file => exact h.registerFile file
  | drop enters events => exact (h.dropFiles hm events).1
  | dragUpdate isDragging x y id filename enters events =>
    cases isDragging with
    | false => exact h.dragEnd
    | true =>
      cases filename with
      | some filename => exact h.dragFile hm.1 hm.2
      | none =>
        change Refines uris g _
        cases hlist : s.xdndFileList with
        | none => simpa [DropHandler.call, DropHandler.fileDragUpdate, hlist] using h
        | some fileList =>
          simpa [DropHandler.call, DropHandler.fileDragUpdate, hlist] using
            h.dragMove fileList x y enters events

theorem Refines.call_offers {calls : List Call} (h : Refines (registered calls) (currentGroup calls) s)
    {m : Call} (hm : Orderly s m) : OnlyOffers (offered calls m) (s.call m).messages := by
  cases m with
  | dropFile file =>
    intro text ht
    simp only [DropHandler.call, DropHandler.registerFile] at ht
    split_ifs at ht <;> cases ht
  | drop enters events => exact (h.dropFiles hm events).2
  | dragUpdate isDragging x y id filename enters events =>
    cases isDragging with
    | false => exact onlyOffers_dragEnd s _
    | true =>
      cases filename with
      | some filename => exact onlyOffers_dragFile s id filename _
      | none =>
        cases hlist : s.xdndFileList with
        | none =>
          intro text ht
          simp [DropHandler.call, DropHandler.fileDragUpdate, hlist] at ht
        | some fileList =>
          change OnlyOffers (currentGroup calls).uris _
          simpa [DropHandler.call, DropHandler.fileDragUpdate, hlist] using
            h.onlyOffers_dragMove hlist x y enters events

theorem run_append (calls : List Call) (m : Call) :
    DropHandler.run (calls ++ [m]) = ((DropHandler.run calls).call m).handler := by
  simp [DropHandler.run]

def OrderlyRun (calls : List Call) : Prop :=
  ∀ pre m post, calls = pre ++ m :: post → Orderly (DropHandler.run pre) m

theorem orderlyRun_nil : OrderlyRun [] := fun pre m post h => by simp at h

theorem OrderlyRun.append {calls : List Call} (h : OrderlyRun calls) {m : Call}
    (hm : Orderly (DropHandler.run calls) m) : OrderlyRun (calls ++ [m]) := by
  intro pre m' post heq
  rcases List.eq_nil_or_concat post with rfl | ⟨post,e,rfl⟩
  · obtain ⟨rfl,hlast⟩ := List.append_inj' heq rfl
    exact (List.cons.inj hlast).1 ▸ hm
  · rw [List.concat_eq_append, ← List.cons_append, ← List.append_assoc] at heq
    obtain ⟨rfl,-⟩ := List.append_inj' heq rfl
    exact h pre m' post rfl

theorem OrderlyRun.before {pre post : List Call} (h : OrderlyRun (pre ++ post)) : OrderlyRun pre :=
  fun pre' m post' heq => h pre' m (post' ++ post) (by rw [heq]; simp)

theorem Refines.run {calls : List Call} (h : OrderlyRun calls) :
    Refines (registered calls) (currentGroup calls) (DropHandler.run calls) := by
  induction calls using List.reverseRecOn with
  | nil => exact ⟨holds_nil,rfl,rfl,.inl ⟨rfl,rfl⟩,rfl,rfl⟩
  | append_singleton calls m ih =>
    have hstep := (ih h.before).call (h calls m [] rfl)
    rw [run_append]
    simpa [registered, currentGroup] using hstep

/-- In a run of orderly calls, each call offers only the list that it has to offer, and
releases both locks. -/
theorem drop_lists_exact {calls : List Call} (h : OrderlyRun calls) :
    ∀ pre m post, calls = pre ++ m :: post →
      OnlyOffers (offered pre m) ((DropHandler.run pre).call m).messages ∧
      ((DropHandler.run pre).call m).handler.xdndMutex = 0 ∧
      ((DropHandler.run pre).call m).handler.displayLock = 0 := by
  rintro pre m post rfl
  have hpre := Refines.run h.before
  have hm := h pre m post rfl
  have hstep := hpre.call hm
  exact ⟨hpre.call_offers hm,hstep.mutex,hstep.display⟩

def report : TransferringFile := ⟨7,⟨"report".toList,by decide⟩,10,20⟩

theorem drop_lists_exact_report :
    OnlyOffers [dropUri report]
      ((DropHandler.run [.dropFile report]).call (.drop true [.selectionRequest])).messages ∧
    ((DropHandler.run [.dropFile report]).call (.drop true [.selectionRequest])).handler.xdndMutex = 0 ∧
    ((DropHandler.run [.dropFile report]).call (.drop true [.selectionRequest])).handler.displayLock = 0 :=
  drop_lists_exact ((orderlyRun_nil.append (m := .dropFile report) trivial).append
    (m := .drop true [.selectionRequest]) fun _ => rfl)
    [.dropFile report] (.drop true [.selectionRequest]) [] rfl

/-- The window cannot be entered: the display stays locked. -/
theorem drop_keeps_lock :
    ¬∀ pre m post, [Call.dropFile report,.drop false []] = pre ++ m :: post →
      OnlyOffers (offered pre m) ((DropHandler.run pre).call m).messages ∧
      ((DropHandler.run pre).call m).handler.xdndMutex = 0 ∧
      ((DropHandler.run pre).call m).handler.displayLock = 0 := by
  intro h
  have hlock := (h [.dropFile report] (.drop false []) [] rfl).2.2
  cases hlock

end Whist.FileDrop
