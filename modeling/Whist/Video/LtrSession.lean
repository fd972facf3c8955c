import Whist.Foundation.Run
import Whist.Video.LtrWalks

/-! # Calls of the reference logic and what an observer records -/
namespace Whist.Ltr

inductive LtrCall
  | getNextAction (frameId : UInt32)
  | markFrameReceived (frameId : UInt32)
  | markFrameNotReceived (frameId : UInt32)
  | markStreamBroken
  | forceIntra
deriving DecidableEq

/-- The return value, zero for a `void` function, and the action written back. -/
structure LtrReply where
  ret : ℤ
  action : Option LtrAction := none
  ltr : LtrState

def ltrCall (ltr : LtrState) : LtrCall → Except LtrFatal LtrReply
  | .getNextAction frameId =>
    let (ret,action,ltr) := ltrGetNextAction ltr frameId
    .ok ⟨ret,some action,ltr⟩
  | .markFrameReceived frameId =>
    (ltrMarkFrameReceived ltr frameId).map (fun (ret,ltr) => ⟨ret,none,ltr⟩)
  | .markFrameNotReceived frameId =>
    (ltrMarkFrameNotReceived ltr frameId).map (fun (ret,ltr) => ⟨ret,none,ltr⟩)
  | .markStreamBroken => (ltrMarkStreamBroken ltr).map (fun ltr => ⟨0,none,ltr⟩)
  | .forceIntra => .ok ⟨0,none,ltrForceIntra ltr⟩

def LtrState.frames (ltr : LtrState) : List LtrFrame :=
  ltr.inflightList ++ ltr.doneList ++ ltr.pendingList

structure Session where
  ltr : LtrState := ltrCreate
  /-- The frames as produced, oldest first. -/
  issued : List LtrFrame := []
  acked : List ℕ := []
  nacked : List ℕ := []
  /-- The counter of the frame each encoder slot was last written with. -/
  slots : ℕ → Option ℕ := fun _ => none

def Session.start : Session := {}

def writeSlots (slots : ℕ → Option ℕ) (action : LtrAction) (counter : ℕ) : ℕ → Option ℕ :=
  match action.frameType with
  | .intra => Function.update slots 0 (some counter)
  | .createLongTerm => Function.update slots action.longTermFrameIndex (some counter)
  | _ => slots

def Session.observe (s : Session) (reply : LtrReply) : Session where
  ltr := reply.ltr
  issued := if reply.action.isSome then s.issued ++ reply.ltr.inflightList.getLast?.toList else s.issued
  acked := s.acked ++ (reply.ltr.frames.filter LtrFrame.ack).map LtrFrame.frameCounter
  nacked := s.nacked ++ (reply.ltr.frames.filter LtrFrame.nack).map LtrFrame.frameCounter
  slots :=
    match reply.action with
    | some action => writeSlots s.slots action reply.ltr.frameCounter
    | none => s.slots

def Session.call (s : Session) (c : LtrCall) : Except LtrFatal Session :=
  (ltrCall s.ltr c).map s.observe

def Session.run : Session → List LtrCall → Except LtrFatal Session := Run.run Session.call

theorem Session.call_of_reply {s : Session} {c : LtrCall} {reply : LtrReply}
    (h : ltrCall s.ltr c = .ok reply) : s.call c = .ok (s.observe reply) := by
  rw [Session.call, h]
  rfl

/-- The four cases of `ltr_pick_next_action`. -/
structure IssuesIntra (ltr : LtrState) (frame : LtrFrame) (ltr' : LtrState) : Prop where
  cause : ltr.frameCounter = 0 ∨ ltr.intraFrameNeeded = true ∨
    (¬ltr.haveGoodLongTermFrame = true ∧
      ltr.frameCounter + 1 - ltr.intraFrameCounter ≥ ltrNewIntraFrameDelay) ∨
    (ltr.lastFrameIsBad = true ∧ ¬ltr.haveGoodLongTermFrame = true)
  type : frame.action = ⟨.intra,0⟩
  reference : frame.referenceFrameCounter = 0
  good : ltr'.haveGoodLongTermFrame = false
  intraCounter : ltr'.intraFrameCounter = frame.frameCounter
  create : ltr'.createLongTermFrameCounter = ltr.createLongTermFrameCounter

structure IssuesRefer (ltr : LtrState) (frame : LtrFrame) (ltr' : LtrState) : Prop where
  type : frame.action = ⟨.referLongTerm,ltr.goodLongTermFrameIndex⟩
  reference : frame.referenceFrameCounter = ltr.goodLongTermFrameCounter
  broken : ltr.lastFrameIsBad = true
  wasGood : ltr.haveGoodLongTermFrame = true
  good : ltr'.haveGoodLongTermFrame = true
  intraCounter : ltr'.intraFrameCounter = ltr.intraFrameCounter
  create : ltr'.createLongTermFrameCounter = ltr.createLongTermFrameCounter

structure IssuesCreate (ltr : LtrState) (frame : LtrFrame) (ltr' : LtrState) : Prop where
  type : frame.action = ⟨.createLongTerm,if ltr.goodLongTermFrameIndex = 0 then 1 else 0⟩
  reference : frame.referenceFrameCounter = ltr.frameCounter
  started : 0 < ltr.frameCounter
  unforced : ltr.intraFrameNeeded = false
  intact : ltr.lastFrameIsBad = false
  wasGood : ltr.haveGoodLongTermFrame = true
  good : ltr'.haveGoodLongTermFrame = true
  intraCounter : ltr'.intraFrameCounter = ltr.intraFrameCounter
  create : ltr'.createLongTermFrameCounter = frame.frameCounter

structure IssuesNormal (ltr : LtrState) (frame : LtrFrame) (ltr' : LtrState) : Prop where
  type : frame.action = ⟨.normal,0⟩
  reference : frame.referenceFrameCounter = ltr.frameCounter
  started : 0 < ltr.frameCounter
  unforced : ltr.intraFrameNeeded = false
  intact : ltr.lastFrameIsBad = false
  recent : ltr.haveGoodLongTermFrame = false →
    ltr.frameCounter + 1 - ltr.intraFrameCounter < ltrNewIntraFrameDelay
  good : ltr'.haveGoodLongTermFrame = ltr.haveGoodLongTermFrame
  intraCounter : ltr'.intraFrameCounter = ltr.intraFrameCounter
  create : ltr'.createLongTermFrameCounter = ltr.createLongTermFrameCounter

structure Appends (ltr : LtrState) (frame : LtrFrame) (ltr' : LtrState) : Prop where
  pending : ltr'.pendingList = []
  inflight : ltr'.inflightList =
    ltr.inflightList.drop (ltr.inflightList.length - ltrMaxInflightFrames) ++ [frame]
  done : ∃ n, ltr'.doneList = (ltr.doneList ++
    ltr.inflightList.take (ltr.inflightList.length - ltrMaxInflightFrames)).drop n
  counter : frame.frameCounter = ltr.frameCounter + 1
  frameCounter : ltr'.frameCounter = frame.frameCounter
  bad : ltr'.lastFrameIsBad = false
  intraNeeded : ltr'.intraFrameNeeded = false
  unflagged : frame.ack = false ∧ frame.nack = false
  goodIndex : ltr'.goodLongTermFrameIndex = ltr.goodLongTermFrameIndex
  goodCounter : ltr'.goodLongTermFrameCounter = ltr.goodLongTermFrameCounter

theorem ltrNoteFrame_lists (ltr : LtrState) (frame : LtrFrame) :
    (ltrNoteFrame ltr frame).pendingList = ltr.pendingList ∧
      (ltrNoteFrame ltr frame).inflightList = ltr.inflightList := by
  unfold ltrNoteFrame
  cases frame.action.frameType <;> exact ⟨rfl,rfl⟩

theorem ltrGetNextAction_of_choose {ltr chosen : LtrState} {frame : LtrFrame} (frameId : UInt32)
    (h : ltrChooseFrame (ltrClearOldFrames ltr) = (frame,chosen)) (hp : chosen.pendingList = []) :
    ltrGetNextAction ltr frameId = (0,frame.action,
      { ltrNoteFrame { chosen with frameCounter := frame.frameCounter, pendingList := [frame] }
          frame with
        pendingList := []
        inflightList := chosen.inflightList ++ [{ frame with frameId := frameId, sent := true }] }) := by
  obtain ⟨hpend,hin⟩ := ltrNoteFrame_lists
    { chosen with frameCounter := frame.frameCounter, pendingList := [frame] } frame
  simp only [ltrGetNextAction, ltrPickNextAction, h, hp, List.nil_append, ltrMarkFrameSent, hpend,
    hin]

theorem ltrGetNextAction_spec {ltr : LtrState} (hp : ltr.pendingList = []) (frameId : UInt32) :
    ∃ frame ltr', ltrGetNextAction ltr frameId = (0,frame.action,ltr') ∧
      Appends ltr frame ltr' ∧
      (IssuesIntra ltr frame ltr' ∨ IssuesRefer ltr frame ltr' ∨ IssuesCreate ltr frame ltr' ∨
        IssuesNormal ltr frame ltr') := by
  obtain ⟨i,hi⟩ : ∃ i, i = ltr.inflightList.drop (ltr.inflightList.length - ltrMaxInflightFrames) :=
    ⟨_,rfl⟩
  obtain ⟨d,n,hd,hclear⟩ : ∃ d n, d = (ltr.doneList ++
      ltr.inflightList.take (ltr.inflightList.length - ltrMaxInflightFrames)).drop n ∧
      ltrClearOldFrames ltr = ltr.withLists i d := by
    rw [ltrClearOldFrames, hi]
    exact ⟨_,_,rfl,rfl⟩
  have hget := fun frame chosen => @ltrGetNextAction_of_choose ltr chosen frame frameId
  rw [hclear] at hget
  by_cases hintra : ltr.frameCounter = 0 ∨ ltr.intraFrameNeeded = true ∨
      (¬ltr.haveGoodLongTermFrame = true ∧
        ltr.frameCounter + 1 - ltr.intraFrameCounter ≥ ltrNewIntraFrameDelay) ∨
      (ltr.lastFrameIsBad = true ∧ ¬ltr.haveGoodLongTermFrame = true)
  · have h := hget { action := ⟨.intra,0⟩, frameCounter := ltr.frameCounter + 1 }
      { ltr.withLists i d with intraFrameNeeded := false, lastFrameIsBad := false }
      (if_pos hintra) hp
    refine ⟨⟨⟨.intra,0⟩,ltr.frameCounter + 1,0,frameId,true,false,false⟩,_,h,?_,Or.inl ?_⟩
    · exact ⟨rfl,hi ▸ rfl,⟨n,hd⟩,rfl,rfl,rfl,rfl,⟨rfl,rfl⟩,rfl,rfl⟩
    · exact ⟨hintra,rfl,rfl,rfl,rfl,rfl⟩
  have hstarted : 0 < ltr.frameCounter := by omega
  have hneeded : ltr.intraFrameNeeded = false := by simp_all
  by_cases hbad : ltr.lastFrameIsBad = true
  · have hgood : ltr.haveGoodLongTermFrame = true := by simp_all
    have h := hget
      { action := ⟨.referLongTerm,ltr.goodLongTermFrameIndex⟩, frameCounter := ltr.frameCounter + 1,
        referenceFrameCounter := ltr.goodLongTermFrameCounter }
      { ltr.withLists i d with lastFrameIsBad := false } ((if_neg hintra).trans (if_pos hbad)) hp
    refine ⟨⟨⟨.referLongTerm,ltr.goodLongTermFrameIndex⟩,ltr.frameCounter + 1,
      ltr.goodLongTermFrameCounter,frameId,true,false,false⟩,_,h,?_,Or.inr (Or.inl ?_)⟩
    · exact ⟨rfl,hi ▸ rfl,⟨n,hd⟩,rfl,rfl,rfl,hneeded,⟨rfl,rfl⟩,rfl,rfl⟩
    · exact ⟨rfl,rfl,hbad,hgood,hgood,rfl,rfl⟩
  have hintact : ltr.lastFrameIsBad = false := by simpa using hbad
  by_cases hcreate : ltr.haveGoodLongTermFrame = true ∧ ¬ltr.referLongTermOutstanding = true ∧
      ¬ltr.createLongTermOutstanding = true
  · have h := hget
      { action := ⟨.createLongTerm,if ltr.goodLongTermFrameIndex = 0 then 1 else 0⟩,
        frameCounter := ltr.frameCounter + 1, referenceFrameCounter := ltr.frameCounter }
      (ltr.withLists i d) ((if_neg hintra).trans ((if_neg hbad).trans (if_pos hcreate))) hp
    refine ⟨⟨⟨.createLongTerm,if ltr.goodLongTermFrameIndex = 0 then 1 else 0⟩,
      ltr.frameCounter + 1,ltr.frameCounter,frameId,true,false,false⟩,_,h,?_,
      Or.inr (Or.inr (Or.inl ?_))⟩
    · exact ⟨rfl,hi ▸ rfl,⟨n,hd⟩,rfl,rfl,hintact,hneeded,⟨rfl,rfl⟩,rfl,rfl⟩
    · exact ⟨rfl,rfl,hstarted,hneeded,hintact,hcreate.1,hcreate.1,rfl,rfl⟩
  · have hrecent : ltr.haveGoodLongTermFrame = false →
        ltr.frameCounter + 1 - ltr.intraFrameCounter < ltrNewIntraFrameDelay := by
      intro hg
      simp only [hg, not_or, not_and, ge_iff_le, not_le] at hintra
      exact hintra.2.2.1 (by simp)
    have h := hget
      { action := ⟨.normal,0⟩, frameCounter := ltr.frameCounter + 1,
        referenceFrameCounter := ltr.frameCounter }
      (ltr.withLists i d) ((if_neg hintra).trans ((if_neg hbad).trans (if_neg hcreate))) hp
    refine ⟨⟨⟨.normal,0⟩,ltr.frameCounter + 1,ltr.frameCounter,frameId,true,false,false⟩,_,h,?_,
      Or.inr (Or.inr (Or.inr ?_))⟩
    · exact ⟨rfl,hi ▸ rfl,⟨n,hd⟩,rfl,rfl,hintact,hneeded,⟨rfl,rfl⟩,rfl,rfl⟩
    · exact ⟨rfl,rfl,hstarted,hneeded,hintact,hrecent,rfl,rfl,rfl⟩

end Whist.Ltr
