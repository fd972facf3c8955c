import Whist.Fec.RsWrapper
import Whist.Foundation.LatestSlot

/-! # The clipboard synchronizer

A section under `clipboard_action_mutex` is one step.  A thread that waits on a condition sleeps until a broadcast,
or wakes without one, and checks again.  The setup of a push thread belongs to the section of its creator.  The pull
direction and the destruction are left out.
-/
namespace Whist.Clipboard

open Whist.Fec (Block)
open LatestSlot (Event)

inductive ClipboardType where
  | none
  | text
  | image
  | files
  deriving DecidableEq

inductive ClipboardChunkType where
  | start
  | middle
  | final
  deriving DecidableEq

/-- `size` is the length of `data`. -/
structure ClipboardData where
  type : ClipboardType := .none
  chunkType : ClipboardChunkType := .start
  data : Block := []
  deriving DecidableEq

inductive WhistClipboardActionType where
  | none
  | push
  | pull
  deriving DecidableEq

inductive Pc where
  | continueAction
  | continueActionWait
  | setOsClipboardTurn
  | setOsClipboardTurnWait
  | setOsClipboard
  /-- Between `set_os_clipboard` and the section that clears `setting_os_clipboard`. -/
  | setOsClipboardDone
  | finished
  deriving DecidableEq

/-- A push thread with its locals.  `threadId` is what `whist_get_thread_id` returns. -/
structure PushThread where
  threadId : ℕ := 0
  pc : Pc := .finished
  aborting : Bool := false
  complete : Bool := false
  clipboardBuffer : ClipboardData := {}
  deriving DecidableEq

/-- A pointer to a local of a thread is that thread's number. -/
structure ClipboardActivity where
  isInitialized : Bool := false
  clipboardActionType : WhistClipboardActionType := .none
  activeClipboardActionThread : Option ℕ := none
  abortingPtr : Option ℕ := none
  completePtr : Option ℕ := none
  clipboardBufferPtr : Option ℕ := none

structure Synchronizer where
  activity : ClipboardActivity := {}
  settingOsClipboard : Bool := false
  queuedOsClipboardSetterThreadId : ℕ := 0
  threads : ℕ → PushThread := fun _ => {}
  numThreads : ℕ := 0
  osClipboard : Option ClipboardData
  /-- The calls of `push_clipboard_chunk`, and whether a START got its thread. -/
  calls : List (ClipboardData × Bool) := []
  /-- Completed pushes, and updates of the OS clipboard that start and finish. -/
  history : List (Event ClipboardData) := []

def PushThread.signalContinueAction (th : PushThread) : PushThread :=
  if th.pc = .continueActionWait then { th with pc := .continueAction } else th

def PushThread.signalOsClipboardSetting (th : PushThread) : PushThread :=
  if th.pc = .setOsClipboardTurnWait then { th with pc := .setOsClipboardTurn } else th

namespace Synchronizer

def setThread (s : Synchronizer) (k : ℕ) (th : PushThread) : Synchronizer :=
  { s with threads := Function.update s.threads k th }

def broadcastContinueAction (s : Synchronizer) : Synchronizer :=
  { s with threads := fun k => (s.threads k).signalContinueAction }

def broadcastOsClipboardSetting (s : Synchronizer) : Synchronizer :=
  { s with threads := fun k => (s.threads k).signalOsClipboardSetting }

end Synchronizer

open Synchronizer

def clipboardActionIsActive (s : Synchronizer) (checkActionType : WhistClipboardActionType) : Bool :=
  s.activity.isInitialized &&
    decide (s.activity.clipboardActionType = checkActionType) &&
    s.activity.abortingPtr.any (fun k => !(s.threads k).aborting) &&
    s.activity.completePtr.any (fun k => !(s.threads k).complete) &&
    s.activity.clipboardBufferPtr.isSome

/-- The part of `finish_active_transfer` for a complete action: a push is queued next. -/
def completeActiveTransfer (s : Synchronizer) : Synchronizer :=
  match s.activity.completePtr with
  | none => s
  | some k =>
    let s := s.setThread k { s.threads k with complete := true }
    if s.activity.clipboardActionType = .push then
      -- `complete_ptr` points into the active thread, so there is one
      match s.activity.activeClipboardActionThread with
      | none => s
      | some t =>
        { s with
          queuedOsClipboardSetterThreadId := (s.threads t).threadId
          history := s.history ++ [Event.post (s.threads t).clipboardBuffer] }.broadcastOsClipboardSetting
    else s

/-- The part of `finish_active_transfer` for an action that is cancelled. -/
def abortActiveTransfer (s : Synchronizer) : Synchronizer :=
  match s.activity.abortingPtr with
  | none => s
  | some k => s.setThread k { s.threads k with aborting := true }

def finishActiveTransfer (s : Synchronizer) (actionComplete : Bool) : Synchronizer :=
  let s := if actionComplete then completeActiveTransfer s else abortActiveTransfer s
  { s with
    activity := { s.activity with
      clipboardActionType := .none
      activeClipboardActionThread := none
      abortingPtr := none
      completePtr := none
      clipboardBufferPtr := none } }.broadcastContinueAction

def threadIdFree (s : Synchronizer) (threadId : ℕ) : Bool :=
  decide (threadId ≠ 0) &&
    (List.range s.numThreads).all (fun k =>
      decide ((s.threads k).pc = .finished ∨ (s.threads k).threadId ≠ threadId))

def startClipboardTransfer (s : Synchronizer) (created : Option ℕ) : Synchronizer × Bool :=
  let s := finishActiveTransfer s false
  match created.filter (threadIdFree s) with
  | none => (s, false)
  | some threadId =>
    let k := s.numThreads
    ({ s with
      threads := Function.update s.threads k { threadId := threadId, pc := .continueAction }
      numThreads := k + 1
      activity := { s.activity with
        clipboardActionType := .push
        activeClipboardActionThread := some k
        abortingPtr := some k
        completePtr := some k
        clipboardBufferPtr := some k } }, true)

def appendChunk (clipboardBuffer chunk : ClipboardData) : ClipboardData :=
  if chunk.chunkType = .start then chunk
  else { clipboardBuffer with data := clipboardBuffer.data ++ chunk.data }

/-- `push_clipboard_chunk` from the check for an active push on. -/
def addChunk (s : Synchronizer) (chunk : ClipboardData) : Synchronizer :=
  if !clipboardActionIsActive s .push then s
  else
    match s.activity.clipboardBufferPtr with
    | none => s
    | some k =>
      let th := s.threads k
      let s := s.setThread k { th with clipboardBuffer := appendChunk th.clipboardBuffer chunk }
      if chunk.chunkType = .final then finishActiveTransfer s true else s

def pushClipboardChunk (s : Synchronizer) (chunk : ClipboardData) (created : Option ℕ) :
    Synchronizer :=
  if !s.activity.isInitialized then s
  else
    let r := if chunk.chunkType = .start then startClipboardTransfer s created else (s, true)
    if !r.2 then r.1 else addChunk r.1 chunk

/-- The section of a push thread that is complete: wait, take the turn, or give up. -/
def takeTurn (s : Synchronizer) (k : ℕ) : Synchronizer :=
  let th := s.threads k
  if th.threadId = s.queuedOsClipboardSetterThreadId ∧ s.settingOsClipboard = true then
    s.setThread k { th with pc := .setOsClipboardTurnWait }
  else if th.threadId = s.queuedOsClipboardSetterThreadId ∧ s.settingOsClipboard = false then
    let s := { s with
      settingOsClipboard := true
      queuedOsClipboardSetterThreadId := 0
      history := s.history ++ [Event.start th.clipboardBuffer] }
    s.setThread k { th with pc := if th.aborting then .finished else .setOsClipboard }
  else s.setThread k { th with aborting := true, pc := .finished }

def pushClipboardThread (s : Synchronizer) (k : ℕ) : Synchronizer :=
  let th := s.threads k
  match th.pc with
  | .continueAction =>
    if !th.complete && !th.aborting then s.setThread k { th with pc := .continueActionWait }
    else if th.complete then takeTurn s k
    else s.setThread k { th with pc := .finished }
  | .setOsClipboardTurn => takeTurn s k
  | .setOsClipboard =>
    { s with
      osClipboard := some th.clipboardBuffer
      history := s.history ++ [Event.finish th.clipboardBuffer] }.setThread k
        { th with pc := .setOsClipboardDone }
  | .setOsClipboardDone =>
    ({ s with settingOsClipboard := false }.setThread k
      { th with pc := .finished }).broadcastOsClipboardSetting
  | .continueActionWait | .setOsClipboardTurnWait | .finished => s

inductive Action where
  | pushClipboardChunk (chunk : ClipboardData) (created : Option ℕ)
  | advance (k : ℕ)
  /-- A wait on a condition returns without a signal. -/
  | wake (k : ℕ)

def step (s : Synchronizer) : Action → Synchronizer
  | .pushClipboardChunk chunk created =>
    let started := decide (chunk.chunkType ≠ .start) || (startClipboardTransfer s created).2
    { pushClipboardChunk s chunk created with calls := s.calls ++ [(chunk,started)] }
  | .advance k => pushClipboardThread s k
  | .wake k => s.setThread k (s.threads k).signalContinueAction.signalOsClipboardSetting

def run (s : Synchronizer) (schedule : List Action) : Synchronizer := schedule.foldl step s

def initClipboardSynchronizer (osClipboard : Option ClipboardData) : Synchronizer :=
  { activity := { isInitialized := true }, osClipboard := osClipboard }

end Whist.Clipboard
