import Mathlib.Tactic

/-! # Long-term reference decisions of the video encoder

A frame node is addressed by its counter.  `linked_list_next` follows the list that holds the node at that moment, so
a saved `next` may lead from the in-flight into the done list.  The ack and nack walks recurse on fuel; running out of
it, a dangling pointer and each `FATAL_ASSERT` are errors.
-/
namespace Whist.Ltr

inductive VideoFrameType
  | normal
  | intra
  | createLongTerm
  | referLongTerm
deriving DecidableEq

structure LtrAction where
  frameType : VideoFrameType
  longTermFrameIndex : ℕ := 0
deriving DecidableEq

structure LtrFrame where
  action : LtrAction
  frameCounter : ℕ
  referenceFrameCounter : ℕ := 0
  frameId : UInt32 := 0
  sent : Bool := false
  ack : Bool := false
  nack : Bool := false
deriving DecidableEq

structure LtrState where
  pendingList : List LtrFrame := []
  inflightList : List LtrFrame := []
  doneList : List LtrFrame := []
  frameCounter : ℕ := 0
  intraFrameNeeded : Bool := false
  lastFrameIsBad : Bool := false
  referLongTermOutstanding : Bool := false
  createLongTermOutstanding : Bool := false
  haveGoodLongTermFrame : Bool := false
  goodLongTermFrameIndex : ℕ := 0
  intraFrameCounter : ℕ := 0
  referLongTermFrameCounter : ℕ := 0
  createLongTermFrameCounter : ℕ := 0
  goodLongTermFrameCounter : ℕ := 0
deriving DecidableEq

inductive LtrFatal
  /-- `FATAL_ASSERT(!frame->nack)` of the ack walk. -/
  | ackOfNacked
  /-- `FATAL_ASSERT(!frame->ack)` of the nack walk. -/
  | nackOfAcked
  /-- `FATAL_ASSERT(list->items > 0)` of `linked_list_remove`. -/
  | removeFromEmpty
  | danglingPointer
  | outOfFuel
deriving DecidableEq

def ltrNewIntraFrameDelay : ℕ := 60
def ltrMaxInflightFrames : ℕ := 60
def ltrMaxDoneFrames : ℕ := 60

def ltrCreate : LtrState := {}

/-- Successor of the node with counter `c`. -/
def linkedListNext : List LtrFrame → ℕ → Option ℕ
  | f :: g :: rest, c =>
    if f.frameCounter = c then some g.frameCounter else linkedListNext (g :: rest) c
  | _, _ => none

def linkedListRemove (list : List LtrFrame) (c : ℕ) : Except LtrFatal (List LtrFrame) :=
  if list = [] then .error .removeFromEmpty
  else .ok (list.filter (fun f => f.frameCounter ≠ c))

def LtrState.frameAt (ltr : LtrState) (c : ℕ) : Option LtrFrame :=
  (ltr.inflightList ++ ltr.doneList ++ ltr.pendingList).find? (fun f => f.frameCounter = c)

/-- `linked_list_next` of a node in whichever list it is linked now. -/
def LtrState.next (ltr : LtrState) (c : ℕ) : Option ℕ :=
  if ltr.inflightList.any (fun f => f.frameCounter = c) then linkedListNext ltr.inflightList c
  else if ltr.doneList.any (fun f => f.frameCounter = c) then linkedListNext ltr.doneList c
  else linkedListNext ltr.pendingList c

def LtrState.modify (ltr : LtrState) (c : ℕ) (write : LtrFrame → LtrFrame) : LtrState :=
  let at' := List.map (fun f : LtrFrame => if f.frameCounter = c then write f else f)
  { ltr with
    pendingList := at' ltr.pendingList
    inflightList := at' ltr.inflightList
    doneList := at' ltr.doneList }

def LtrState.moveToDone (ltr : LtrState) (c : ℕ) : Except LtrFatal LtrState :=
  match ltr.frameAt c with
  | none => .error .danglingPointer
  | some frame =>
    match linkedListRemove ltr.inflightList c with
    | .error e => .error e
    | .ok inflight => .ok { ltr with inflightList := inflight, doneList := ltr.doneList ++ [frame] }

/-- Both `while` loops extract heads until the size limit holds. -/
def ltrClearOldFrames (ltr : LtrState) : LtrState :=
  let excess := ltr.inflightList.length - ltrMaxInflightFrames
  let done := ltr.doneList ++ ltr.inflightList.take excess
  { ltr with
    inflightList := ltr.inflightList.drop excess
    doneList := done.drop (done.length - ltrMaxDoneFrames) }

/-- The four cases of `ltr_pick_next_action`, in order: a frame whose counter is
still to be assigned, with the flags its choice clears. -/
def ltrChooseFrame (ltr : LtrState) : LtrFrame × LtrState :=
  let counter := ltr.frameCounter + 1
  if ltr.frameCounter = 0 ∨ ltr.intraFrameNeeded ∨
      (¬ltr.haveGoodLongTermFrame ∧
        ltr.frameCounter + 1 - ltr.intraFrameCounter ≥ ltrNewIntraFrameDelay) ∨
      (ltr.lastFrameIsBad ∧ ¬ltr.haveGoodLongTermFrame) then
    ({ action := ⟨.intra,0⟩, frameCounter := counter },
      { ltr with intraFrameNeeded := false, lastFrameIsBad := false })
  else if ltr.lastFrameIsBad then
    ({ action := ⟨.referLongTerm,ltr.goodLongTermFrameIndex⟩, frameCounter := counter,
       referenceFrameCounter := ltr.goodLongTermFrameCounter },
      { ltr with lastFrameIsBad := false })
  else if ltr.haveGoodLongTermFrame ∧ ¬ltr.referLongTermOutstanding ∧
      ¬ltr.createLongTermOutstanding then
    ({ action := ⟨.createLongTerm,if ltr.goodLongTermFrameIndex = 0 then 1 else 0⟩,
       frameCounter := counter, referenceFrameCounter := ltr.frameCounter }, ltr)
  else
    ({ action := ⟨.normal,0⟩, frameCounter := counter,
       referenceFrameCounter := ltr.frameCounter }, ltr)

def ltrNoteFrame (ltr : LtrState) (frame : LtrFrame) : LtrState :=
  match frame.action.frameType with
  | .intra => { ltr with
      intraFrameCounter := frame.frameCounter
      referLongTermOutstanding := false
      createLongTermOutstanding := false
      haveGoodLongTermFrame := false }
  | .referLongTerm => { ltr with
      referLongTermFrameCounter := frame.frameCounter
      referLongTermOutstanding := true
      createLongTermOutstanding := false }
  | .createLongTerm => { ltr with
      createLongTermFrameCounter := frame.frameCounter
      createLongTermOutstanding := true }
  | .normal => ltr

def ltrPickNextAction (ltr : LtrState) : LtrAction × LtrState :=
  let (frame,ltr) := ltrChooseFrame (ltrClearOldFrames ltr)
  let ltr := { ltr with
    frameCounter := frame.frameCounter
    pendingList := ltr.pendingList ++ [frame] }
  (frame.action,ltrNoteFrame ltr frame)

def ltrMarkFrameSent (ltr : LtrState) (frameId : UInt32) : ℤ × LtrState :=
  match ltr.pendingList with
  | [] => (-1,ltr)
  | frame :: rest =>
    (0,{ ltr with
      pendingList := rest
      inflightList := ltr.inflightList ++ [{ frame with frameId := frameId, sent := true }] })

def ltrGetNextAction (ltr : LtrState) (frameId : UInt32) : ℤ × LtrAction × LtrState :=
  let (action,ltr) := ltrPickNextAction ltr
  let (ret,ltr) := ltrMarkFrameSent ltr frameId
  (ret,action,ltr)

def ltrAckFlags (ltr : LtrState) (frame : LtrFrame) : LtrState :=
  if ltr.intraFrameCounter ≤ frame.frameCounter then
    match frame.action.frameType with
    | .referLongTerm =>
      if frame.frameCounter = ltr.referLongTermFrameCounter then
        { ltr with referLongTermOutstanding := false }
      else ltr
    | .intra => { ltr with
        haveGoodLongTermFrame := true
        goodLongTermFrameIndex := frame.action.longTermFrameIndex
        goodLongTermFrameCounter := frame.frameCounter }
    | .createLongTerm =>
      if frame.frameCounter = ltr.createLongTermFrameCounter then { ltr with
        haveGoodLongTermFrame := true
        goodLongTermFrameIndex := frame.action.longTermFrameIndex
        goodLongTermFrameCounter := frame.frameCounter
        createLongTermOutstanding := false }
      else ltr
    | .normal => ltr
  else ltr

/-- The `linked_list_prev` walk from `frame` back to its reference. -/
def ltrFindReference (list : List LtrFrame) (frame : LtrFrame) : Option ℕ :=
  (((list.takeWhile (fun f => f.frameCounter ≠ frame.frameCounter)).reverse).find?
    (fun f => f.frameCounter = frame.referenceFrameCounter)).map LtrFrame.frameCounter

def ltrAckFrameInternal : ℕ → LtrState → ℕ → Except LtrFatal LtrState
  | 0, _, _ => .error .outOfFuel
  | fuel + 1, ltr, c =>
    match ltr.frameAt c with
    | none => .error .danglingPointer
    | some frame =>
      if frame.nack then .error .ackOfNacked
      else if frame.ack then .ok ltr
      else
        let ltr := ltrAckFlags (ltr.modify c (fun f => { f with ack := true })) frame
        match ltrFindReference ltr.inflightList frame with
        | none => ltr.moveToDone c
        | some ref =>
          match ltrAckFrameInternal fuel ltr ref with
          | .error e => .error e
          | .ok ltr => ltr.moveToDone c

/-- `last_frame_is_bad` and the `switch` of the nack walk. -/
def ltrNackFlags (ltr : LtrState) (frame : LtrFrame) : LtrState :=
  let ltr := if ltr.frameCounter = frame.frameCounter then { ltr with lastFrameIsBad := true } else ltr
  if ltr.intraFrameCounter ≤ frame.frameCounter then
    match frame.action.frameType with
    | .referLongTerm => { ltr with referLongTermOutstanding := false }
    | .createLongTerm => { ltr with createLongTermOutstanding := false }
    | _ => ltr
  else ltr

/-- `while (ref)`: the successor is saved before the recursive call, and followed
in whatever list it has been moved to meanwhile. -/
def ltrNackWalk (nackFrame : LtrState → ℕ → Except LtrFatal LtrState) (c : ℕ) :
    ℕ → LtrState → Option ℕ → Except LtrFatal LtrState
  | _, ltr, none => .ok ltr
  | 0, _, some _ => .error .outOfFuel
  | steps + 1, ltr, some ref =>
    let next := ltr.next ref
    match ltr.frameAt ref with
    | none => .error .danglingPointer
    | some refFrame =>
      if refFrame.referenceFrameCounter = c then
        match nackFrame ltr ref with
        | .error e => .error e
        | .ok ltr => ltrNackWalk nackFrame c steps ltr next
      else ltrNackWalk nackFrame c steps ltr next

def LtrState.numFrames (ltr : LtrState) : ℕ :=
  ltr.pendingList.length + ltr.inflightList.length + ltr.doneList.length

/-- The second loop of the nack walk, over the pending list; it runs on the same
iteration scheme. -/
def ltrNackFrameInternal : ℕ → LtrState → ℕ → Bool → Except LtrFatal LtrState
  | 0, _, _, _ => .error .outOfFuel
  | fuel + 1, ltr, c, pending =>
    match ltr.frameAt c with
    | none => .error .danglingPointer
    | some frame =>
      if frame.ack then .error .nackOfAcked
      else if frame.nack then .ok ltr
      else
        let ltr := ltrNackFlags (ltr.modify c (fun f => { f with nack := true })) frame
        let next := ltr.next c
        match ltr.moveToDone c with
        | .error e => .error e
        | .ok ltr =>
          match ltrNackWalk (fun ltr ref => ltrNackFrameInternal fuel ltr ref false) c
              ltr.numFrames ltr next with
          | .error e => .error e
          | .ok ltr =>
            if pending then .ok ltr
            else ltrNackWalk (fun ltr ref => ltrNackFrameInternal fuel ltr ref true) c
              ltr.numFrames ltr (ltr.pendingList.head?.map LtrFrame.frameCounter)

def ltrFindFrameById (ltr : LtrState) (frameId : UInt32) : Option LtrFrame :=
  ltr.inflightList.find? (fun f => f.frameId = frameId)

def ltrMarkFrameReceived (ltr : LtrState) (frameId : UInt32) : Except LtrFatal (ℤ × LtrState) :=
  match ltrFindFrameById ltr frameId with
  | none => .ok (-1,ltr)
  | some frame =>
    (ltrAckFrameInternal (ltr.numFrames + 1) ltr frame.frameCounter).map (fun ltr => (0,ltr))

def ltrMarkFrameNotReceived (ltr : LtrState) (frameId : UInt32) :
    Except LtrFatal (ℤ × LtrState) :=
  match ltrFindFrameById ltr frameId with
  | none => .ok (-1,ltr)
  | some frame =>
    (ltrNackFrameInternal (ltr.numFrames + 1) ltr frame.frameCounter false).map
      (fun ltr => (0,ltr))

def ltrMarkStreamBroken (ltr : LtrState) : Except LtrFatal LtrState :=
  match ltr.inflightList.getLast? with
  | none => .ok { ltr with intraFrameNeeded := true }
  | some frame => ltrNackFrameInternal (ltr.numFrames + 1) ltr frame.frameCounter false

def ltrForceIntra (ltr : LtrState) : LtrState := { ltr with intraFrameNeeded := true }

end Whist.Ltr
