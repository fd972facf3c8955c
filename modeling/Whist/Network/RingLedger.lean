import Whist.Network.RingRecovery

/-! # The ledger of the ring buffer -/
namespace Whist.Ring
open Fec Udp Memory

def FrameData.account (f : FrameData) : FrameData :=
  { f with
    packetBuffer := none
    frameBuffer := none
    frameBufferSize := 0
    fecFrameBuffer := none
    fecDecoder := none
    successfulFecRecovery := false }

structure Ledger where
  accounts : ℕ → FrameData
  nacks : List (ℤ × ℤ)
  burstCounter : ℤ
  avgCounter : ℤ
  minId : ℤ
  maxId : ℤ

def RingBuffer.ledger (r : RingBuffer) : Ledger where
  accounts i := (r.receivingFrames i).account
  nacks := r.nacks
  burstCounter := r.burstCounter
  avgCounter := r.avgCounter
  minId := r.minId
  maxId := r.maxId

namespace Ledger

def setAccount (l : Ledger) (i : ℕ) (f : FrameData) : Ledger :=
  { l with accounts := Function.update l.accounts i f }

def wiped (l : Ledger) (c : RingConfig) : Ledger :=
  { l with
    accounts := fun i => if i < c.ringBufferSize then {} else l.accounts i
    minId := -1
    maxId := -1 }

def widen (l : Ledger) (id : ℤ) : Ledger :=
  { l with maxId := max l.maxId id, minId := if l.minId = -1 then id else min l.minId id }

end Ledger

def FrameData.counted (f : FrameData) (s : WhistSegment) : FrameData :=
  if s.isANack then { f with
    nackPacketsReceived := f.nackPacketsReceived + 1
    unnecessaryNackPacketsReceived := f.unnecessaryNackPacketsReceived +
      if s.whistType = .video ∧ f.receivedIndices s.index then 1 else 0 }
  else f

def FrameData.duplicated (f : FrameData) : FrameData :=
  { f with duplicatePacketsReceived := f.duplicatePacketsReceived + 1 }

def FrameData.arrived (f : FrameData) (s : WhistSegment) : FrameData :=
  if f.receivedIndices s.index then
    if s.isANack then f.counted s
    else (f.counted s).duplicated
  else (f.counted s).marked s.index

def FrameData.opened (old : FrameData) (s : WhistSegment) : FrameData :=
  (old.initialized s.id 0 (s.numIndices - s.numFecIndices) s.numFecIndices s.prevFrameNumDuplicates).account

variable {c : RingConfig} {r r' : RingBuffer}

theorem ledger_setFrame (r : RingBuffer) (i : ℕ) (f : FrameData) :
    (r.setFrame (.slot i) f).ledger = r.ledger.setAccount i f.account := by
  unfold RingBuffer.ledger RingBuffer.setFrame Ledger.setAccount
  dsimp only
  congr 1
  funext j
  by_cases hj : j = i
  · rw [hj, Function.update_self, Function.update_self]
  · rw [Function.update_of_ne hj, Function.update_of_ne hj]

theorem setAccount_self (l : Ledger) (i : ℕ) : l.setAccount i (l.accounts i) = l := by
  unfold Ledger.setAccount
  rw [Function.update_eq_self]

theorem setAccount_account_self (l : Ledger) (i : ℕ) (f : FrameData) : (l.setAccount i f).accounts i = f :=
  Function.update_self ..

theorem setAccount_account_of_ne (l : Ledger) {i j : ℕ} (f : FrameData) (h : j ≠ i) :
    (l.setAccount i f).accounts j = l.accounts j := Function.update_of_ne h ..

theorem setAccount_setAccount (l : Ledger) (i : ℕ) (f g : FrameData) :
    (l.setAccount i f).setAccount i g = l.setAccount i g := by
  unfold Ledger.setAccount
  dsimp only
  rw [Function.update_idem]

theorem ledger_setFrame_same {i : ℕ} {f : FrameData} (h : f.account = (r.receivingFrames i).account) :
    (r.setFrame (.slot i) f).ledger = r.ledger := by
  rw [ledger_setFrame, h]
  exact setAccount_self r.ledger i

theorem isReadyToRender_ledger {id : ℤ} {b : Bool} (h : isReadyToRender c r id = .ok (b,r')) :
    r'.ledger = r.ledger := by
  obtain ⟨-,⟨-,-,rfl⟩ | ⟨-,-,rfl,rfl⟩⟩ := isReadyToRender_cases h
  · rfl
  · exact ledger_setFrame_same rfl

theorem uncount_ledger {p : Place} (h : uncount c r p = .ok r') : r'.ledger = r.ledger := by
  unfold uncount at h
  cases p with
  | rendering =>
    cases h
    rfl
  | slot i =>
    dsimp only at h
    split_ifs at h
    · cases h
      rfl
    · cases h
      rfl

theorem resetFrame_ledger {p : Place} (h : resetFrame c r p = .ok r') : r'.ledger = r.ledger := by
  unfold resetFrame at h
  dsimp only at h
  cases hblock : (r.frame p).packetBuffer with
  | none => simp [hblock] at h
  | some block =>
    simp only [hblock] at h
    cases huncount : uncount c r p with
    | error e => simp [huncount] at h
    | ok r₁ =>
      rw [huncount] at h
      cases h
      have hframe : ∀ i, r₁.receivingFrames i = r.receivingFrames i := by
        intro i
        unfold uncount at huncount
        cases p with
        | rendering => cases huncount; rfl
        | slot j =>
          dsimp only at huncount
          split_ifs at huncount <;> cases huncount <;> rfl
      rw [← uncount_ledger huncount]
      cases p with
      | rendering => rfl
      | slot i =>
        apply ledger_setFrame_same (r := { r₁ with packetBufferAllocator := _ })
        show (r.receivingFrames i).released.account = (r₁.receivingFrames i).account
        rw [hframe]
        rfl

theorem wipeFrame_ledger {i : ℕ} (h : wipeFrame c r i = .ok r') :
    r'.ledger = r.ledger.setAccount i {} := by
  unfold wipeFrame at h
  cases hreset : (if (r.receivingFrames i).packetBuffer.isSome then resetFrame c r (.slot i) else .ok r) with
  | error e => simp [hreset] at h
  | ok r₁ =>
    rw [hreset] at h
    cases h
    have hsame : r₁.ledger = r.ledger := by
      split_ifs at hreset
      · exact resetFrame_ledger hreset
      · cases hreset
        rfl
    rw [ledger_setFrame, hsame]
    rfl

theorem resetRingBuffer_ledger (h : resetRingBuffer c r = .ok r') : r'.ledger = r.ledger.wiped c := by
  unfold resetRingBuffer at h
  cases hrun : Run.run (wipeFrame c) r (List.range c.ringBufferSize) with
  | error e => simp [hrun] at h
  | ok r₁ =>
    rw [hrun] at h
    cases h
    have key : ∀ n r₁, Run.run (wipeFrame c) r (List.range n) = .ok r₁ →
        r₁.ledger = { r.ledger with accounts := fun i => if i < n then {} else r.ledger.accounts i } := by
      intro n
      induction n with
      | zero =>
        intro r₁ hrun
        cases hrun
        rfl
      | succ n ih =>
        intro r₂ hrun
        rw [List.range_succ] at hrun
        cases hfirst : Run.run (wipeFrame c) r (List.range n) with
        | error e => simp [Run.run_error_append hfirst] at hrun
        | ok r₁ =>
          rw [Run.run_append _ hfirst, Run.run_singleton] at hrun
          rw [wipeFrame_ledger hrun, ih r₁ hfirst]
          unfold Ledger.setAccount
          dsimp only
          congr 1
          funext i
          by_cases hi : i = n
          · rw [hi, Function.update_self, if_pos n.lt_succ_self]
          · rw [Function.update_of_ne hi]
            have hiff : i < n ↔ i < n + 1 := by omega
            simp only [hiff]
    have hwiped := key _ r₁ hrun
    unfold RingBuffer.ledger at hwiped ⊢
    unfold Ledger.wiped
    simp only [Ledger.mk.injEq] at hwiped ⊢
    exact ⟨hwiped.1,hwiped.2.1,hwiped.2.2.1,hwiped.2.2.2.1,trivial,trivial⟩

theorem run_ledger {α : Type*} {step : RingBuffer → α → Except RingFatal RingBuffer}
    (hstep : ∀ r a r', step r a = .ok r' → r'.ledger = r.ledger) {as : List α}
    (h : Run.run step r as = .ok r') : r'.ledger = r.ledger := by
  let Inv : RingBuffer → Prop := fun r₁ => r₁.ledger = r.ledger
  exact @Run.run_invariant _ _ _ _ Inv (fun _ => True)
    (fun r₁ a r₂ h₁ _ h₂ => (hstep r₁ a r₂ h₂).trans h₁) _ (fun _ _ => trivial) _ _ rfl h

theorem logDropped_ledger {i : ℕ} (h : logDropped c r i = .ok r') : r'.ledger = r.ledger := by
  unfold logDropped at h
  dsimp only at h
  split_ifs at h
  · obtain ⟨⟨b,r₁⟩,hready,rfl⟩ := Run.map_eq_ok h
    exact isReadyToRender_ledger hready
  · cases h
    rfl

theorem makeRoom_ledger {id : ℤ} {b : Bool} (h : makeRoom c r id = .ok (b,r')) :
    r'.ledger = if b then r.ledger.wiped c else r.ledger := by
  unfold makeRoom at h
  dsimp only at h
  split_ifs at h
  · cases h
    rfl
  · cases hrun : Run.run (logDropped c) r (List.range c.ringBufferSize) with
    | error e => simp [hrun] at h
    | ok r₁ =>
      rw [hrun] at h
      obtain ⟨r₂,hreset,hpair⟩ := Run.map_eq_ok h
      cases hpair
      rw [resetRingBuffer_ledger hreset, run_ledger (fun _ _ _ => logDropped_ledger) hrun]
      rfl
  · obtain ⟨r₁,hreset,hpair⟩ := Run.map_eq_ok h
    cases hpair
    exact resetFrame_ledger hreset

theorem initFrame_ledger {s : WhistSegment} (h : initFrame c r s.id (s.numIndices - s.numFecIndices)
    s.numFecIndices s.prevFrameNumDuplicates = .ok r') :
    r'.ledger = r.ledger.setAccount (c.slot s.id) ((r.ledger.accounts (c.slot s.id)).opened s) := by
  obtain ⟨-,dec,-,rfl⟩ := initFrame_cases h
  rw [ledger_setFrame]
  have haccount : (openedFrame c r s dec).1.account = (r.ledger.accounts (c.slot s.id)).opened s := by
    unfold openedFrame FrameData.opened
    dsimp only
    split_ifs <;> rfl
  rw [haccount]
  rfl

theorem receiveIndex_ledger {s : WhistSegment} (hid : (r.receivingFrames (c.slot s.id)).id = s.id)
    (h : receiveIndex c r s = .ok r') :
    r'.ledger = r.ledger.setAccount (c.slot s.id) ((r.ledger.accounts (c.slot s.id)).marked s.index) := by
  obtain ⟨-,-,-,⟨-,rfl⟩ | ⟨-,-,rfl⟩ | ⟨-,-,r₁,block,dec,size,recovered,hstored,rfl⟩⟩ := receiveIndex_cases hid h
  · exact ledger_setFrame _ _ _
  · exact ledger_setFrame _ _ _
  · have hr₁ : r₁.ledger =
        r.ledger.setAccount (c.slot s.id) ((r.ledger.accounts (c.slot s.id)).marked s.index) := by
      rw [hstored.result, ledger_setFrame]
      show (r.setFrame (.slot (c.slot s.id)) _).ledger.setAccount _ _ = _
      rw [ledger_setFrame, setAccount_setAccount]
      rfl
    rw [← hr₁]
    split_ifs
    · exact ledger_setFrame_same (r := r₁) rfl
    · exact ledger_setFrame_same rfl

theorem countArrival_ledger (c : RingConfig) (r : RingBuffer) (s : WhistSegment) :
    (countArrival c r s).ledger =
      r.ledger.setAccount (c.slot s.id) ((r.ledger.accounts (c.slot s.id)).counted s) := by
  unfold countArrival FrameData.counted
  by_cases hnack : s.isANack
  · rw [if_pos hnack, if_pos hnack]
    exact ledger_setFrame _ _ _
  · rw [if_neg hnack, if_neg hnack]
    exact (setAccount_self r.ledger _).symm

theorem dropDuplicate_ledger (c : RingConfig) (r : RingBuffer) (s : WhistSegment) :
    (dropDuplicate c r s).ledger = if s.isANack then r.ledger
      else r.ledger.setAccount (c.slot s.id) (r.ledger.accounts (c.slot s.id)).duplicated := by
  unfold dropDuplicate
  split_ifs
  · rfl
  · exact ledger_setFrame _ _ _

theorem receiveInFrame_ledger {s : WhistSegment} (h : receiveInFrame c r s = .ok r') :
    (r.ledger.accounts (c.slot s.id)).id = s.id ∧
      (r.ledger.accounts (c.slot s.id)).numOriginalPackets + (r.ledger.accounts (c.slot s.id)).numFecPackets =
        s.numIndices ∧
      r'.ledger = r.ledger.setAccount (c.slot s.id) ((r.ledger.accounts (c.slot s.id)).arrived s) := by
  have hcount := countArrival_ledger c r s
  have hself : (countArrival c r s).ledger.accounts (c.slot s.id) =
      (r.ledger.accounts (c.slot s.id)).counted s := by
    rw [hcount]
    exact Function.update_self ..
  unfold receiveInFrame at h
  unfold FrameData.arrived
  dsimp only at h
  split_ifs at h with hid hfec htotal hreceived
  · cases h
    refine ⟨hid.symm,htotal,?_⟩
    rw [if_pos (show (r.ledger.accounts (c.slot s.id)).receivedIndices s.index = true from hreceived),
      dropDuplicate_ledger, hself, hcount]
    split_ifs
    · rfl
    · exact setAccount_setAccount _ _ _ _
  · refine ⟨hid.symm,htotal,?_⟩
    have hsame : ((countArrival c r s).receivingFrames (c.slot s.id)).id = s.id := by
      obtain ⟨n,hn⟩ := (countArrival_noted c r s).frames (c.slot s.id)
      rw [hn]
      exact hid.symm
    rw [if_neg (show ¬(r.ledger.accounts (c.slot s.id)).receivedIndices s.index = true from hreceived),
      receiveIndex_ledger hsame h, hself, hcount, setAccount_setAccount]

inductive Receives (c : RingConfig) (s : WhistSegment) : Ledger → Ledger → Prop
  | stale (l : Ledger) : Receives c s l l
  | dropped (l : Ledger) : Receives c s l (l.wiped c)
  | arrives (l : Ledger) (hid : (l.accounts (c.slot s.id)).id = s.id)
      (htotal : (l.accounts (c.slot s.id)).numOriginalPackets + (l.accounts (c.slot s.id)).numFecPackets =
        s.numIndices) :
      Receives c s l (l.setAccount (c.slot s.id) ((l.accounts (c.slot s.id)).arrived s))
  | opens (l l₁ : Ledger) (hroom : l₁ = l ∨ l₁ = l.wiped c) :
      Receives c s l ((l₁.setAccount (c.slot s.id)
        (((l₁.accounts (c.slot s.id)).opened s).arrived s)).widen s.id)

theorem receiveSegment_ledger {s : WhistSegment} {b : Bool} (h : ringBufferReceiveSegment c r s = .ok (b,r')) :
    s.index < s.numIndices ∧ s.numFecIndices < s.numIndices ∧ Receives c s r.ledger r'.ledger := by
  unfold ringBufferReceiveSegment at h
  split_ifs at h with hindex hnum hfec hsize hbounds hstale hnewer
  · cases h
    exact ⟨hindex,hfec,.stale _⟩
  · refine ⟨hindex,hfec,?_⟩
    unfold receiveNewer at h
    cases hroom : makeRoom c r s.id with
    | error e => simp [hroom] at h
    | ok p =>
      obtain ⟨overflowed,r₁⟩ := p
      have hr₁ := makeRoom_ledger hroom
      simp only [hroom] at h
      split_ifs at h with hold
      · cases h
        rw [hr₁]
        split_ifs
        · exact .dropped _
        · exact .stale _
      · cases hinit : initFrame c r₁ s.id (s.numIndices - s.numFecIndices) s.numFecIndices
            s.prevFrameNumDuplicates with
        | error e => simp [hinit] at h
        | ok r₂ =>
          simp only [hinit] at h
          obtain ⟨r₃,hreceive,hpair⟩ := Run.map_eq_ok h
          cases hpair
          obtain ⟨-,-,hr₃⟩ := receiveInFrame_ledger hreceive
          have hr₂ := initFrame_ledger hinit
          have hwide : (r₂.widen s.id).ledger = r₂.ledger.widen s.id := rfl
          have hself : (r₂.ledger.widen s.id).accounts (c.slot s.id) =
              (r₁.ledger.accounts (c.slot s.id)).opened s := by
            rw [hr₂]
            exact Function.update_self ..
          rw [hr₃, hwide, hself, hr₂]
          have hset : ∀ f g, ((r₁.ledger.setAccount (c.slot s.id) f).widen s.id).setAccount (c.slot s.id) g =
              (r₁.ledger.setAccount (c.slot s.id) g).widen s.id := fun f g => by
            rw [← setAccount_setAccount r₁.ledger (c.slot s.id) f g]
            rfl
          rw [hset]
          apply Receives.opens
          rw [hr₁]
          cases overflowed with
          | true => exact Or.inr rfl
          | false => exact Or.inl rfl
  · refine ⟨hindex,hfec,?_⟩
    obtain ⟨r₁,hreceive,hpair⟩ := Run.map_eq_ok h
    cases hpair
    obtain ⟨hid,htotal,hr₁⟩ := receiveInFrame_ledger hreceive
    rw [hr₁]
    exact .arrives _ hid htotal

theorem setRendering_ledger {id : ℤ} (h : setRendering c r id = .ok r') : r'.ledger = r.ledger := by
  unfold setRendering at h
  split_ifs at h
  dsimp only at h
  cases hreset : (if r.currentlyRenderingId ≠ -1 then resetFrame c { r with lastRenderedId := id } .rendering
      else .ok { r with lastRenderedId := id }) with
  | error e => simp [hreset] at h
  | ok r₁ =>
    simp only [hreset] at h
    have hr₁ : r₁.ledger = r.ledger := by
      split_ifs at hreset
      · exact (resetFrame_ledger hreset).trans rfl
      · cases hreset
        rfl
    cases hready : isReadyToRender c r₁ id with
    | error e => simp [hready] at h
    | ok p =>
      obtain ⟨ready,r₂⟩ := p
      have hr₂ := isReadyToRender_ledger hready
      simp only [hready] at h
      split_ifs at h
      cases h
      rw [← hr₁, ← hr₂]
      exact ledger_setFrame_same (r := r₂) (f := (r₂.receivingFrames (c.slot id)).released) rfl

theorem resetStream_ledger {id : ℤ} (h : resetStream c r id = .ok r') : r'.ledger = r.ledger := by
  unfold resetStream at h
  split_ifs at h
  · cases h
    rfl
  · cases hrun : Run.run (skipFrame c id) r (List.range c.ringBufferSize) with
    | error e => simp [hrun] at h
    | ok r₁ =>
      rw [hrun] at h
      cases h
      have hskip : ∀ r i r', skipFrame c id r i = .ok r' → r'.ledger = r.ledger := by
        intro r i r' h
        unfold skipFrame at h
        dsimp only at h
        split_ifs at h
        · exact resetFrame_ledger h
        · cases h
          rfl
      have hr₁ : r₁.ledger = r.ledger := run_ledger hskip hrun
      exact hr₁

theorem countReady_ledger {idList : List ℤ} {n : ℤ} (h : countReady c idList r = .ok (n,r')) :
    r'.ledger = r.ledger := by
  induction idList generalizing r n with
  | nil =>
    cases h
    rfl
  | cons id rest ih =>
    unfold countReady at h
    cases hready : isReadyToRender c r id with
    | error e => simp [hready] at h
    | ok p =>
      obtain ⟨ready,r₁⟩ := p
      simp only [hready] at h
      obtain ⟨⟨m,r₂⟩,hcount,hpair⟩ := Run.map_eq_ok h
      cases hpair
      exact (ih hcount).trans (isReadyToRender_ledger hready)

theorem getNumPending_ledger {drawn : Bool} {n : ℤ} (h : getNumPendingReadyFrames c r drawn = .ok (n,r')) :
    r'.ledger = r.ledger := by
  unfold getNumPendingReadyFrames at h
  cases hcheck : selfCheck c r drawn with
  | error e => simp [hcheck] at h
  | ok r₁ =>
    simp only [hcheck] at h
    split_ifs at h
    cases h
    unfold selfCheck at hcheck
    dsimp only at hcheck
    split_ifs at hcheck
    · cases hcheck
      rfl
    · cases hcount : countReady c (ids (max r.minId (r.lastRenderedId + 1)) r.maxId) r with
      | error e => simp [hcount] at hcheck
      | ok p =>
        obtain ⟨m,r₂⟩ := p
        simp only [hcount] at hcheck
        split_ifs at hcheck
        cases hcheck
        exact countReady_ledger hcount
    · cases hcheck
      rfl

theorem ringStep_ledger {call : RingCall} (h : ringStep c r call = .ok r') :
    r'.ledger = r.ledger ∨ ∃ s, call = .receive s ∧ s.index < s.numIndices ∧ s.numFecIndices < s.numIndices ∧
      Receives c s r.ledger r'.ledger := by
  cases call with
  | receive s =>
    obtain ⟨⟨b,r₁⟩,hreceive,rfl⟩ := Run.map_eq_ok h
    exact Or.inr ⟨s,rfl,receiveSegment_ledger hreceive⟩
  | isReady id =>
    obtain ⟨⟨b,r₁⟩,hready,rfl⟩ := Run.map_eq_ok h
    exact Or.inl (isReadyToRender_ledger hready)
  | setRendering id => exact Or.inl (setRendering_ledger h)
  | resetStream id => exact Or.inl (resetStream_ledger h)
  | getNumPending drawn =>
    obtain ⟨⟨n,r₁⟩,hpending,rfl⟩ := Run.map_eq_ok h
    exact Or.inl (getNumPending_ledger hpending)

def FrameDue (c : RingConfig) (t : NackTiming) (l : Ledger) (id : ℤ) : Prop :=
  (l.accounts (c.slot id)).id ≠ id ∧
    ((l.accounts (c.slot id)).entireFrameNackedId ≠ id ∨
      t.frameTimedOut id = true ∧ (l.accounts (c.slot id)).numEntireFrameNacked < maxPacketNacks)

def IndexDue (c : RingConfig) (t : NackTiming) (l : Ledger) (id : ℤ) (index : ℕ) : Prop :=
  (l.accounts (c.slot id)).id = id ∧ (l.accounts (c.slot id)).receivedIndices index = false ∧
    ((l.accounts (c.slot id)).numTimesIndexNacked index = 0 ∨ t.indexTimedOut id index = true)

def FrameData.noteFrameNack (f : FrameData) (id : ℤ) : FrameData :=
  { f with
    entireFrameNackedId := id
    numEntireFrameNacked := if f.entireFrameNackedId ≠ id then 1 else f.numEntireFrameNacked + 1 }

def FrameData.noteIndexNack (f : FrameData) (index : ℕ) : FrameData :=
  { f with numTimesIndexNacked :=
      Function.update f.numTimesIndexNacked index ((f.numTimesIndexNacked index + 1) % 256) }

/-- The call of `nack_packet` for a frame or an index, with what is noted of it. -/
def Ledger.nack (l : Ledger) (i : ℕ) (f : FrameData) (e : ℤ × ℤ) : Ledger :=
  { l.setAccount i f with nacks := l.nacks ++ [e] }

theorem nack_account_self (l : Ledger) (i : ℕ) (f : FrameData) (e : ℤ × ℤ) : (l.nack i f e).accounts i = f :=
  Function.update_self ..

theorem nack_account_of_ne (l : Ledger) {i j : ℕ} (f : FrameData) (e : ℤ × ℤ) (h : j ≠ i) :
    (l.nack i f e).accounts j = l.accounts j := Function.update_of_ne h ..

inductive Nacks (c : RingConfig) (t : NackTiming) : Ledger → ℤ × ℤ → Ledger → Prop
  | frame (l : Ledger) (id : ℤ) (hdue : FrameDue c t l id) :
      Nacks c t l (id,-1) (l.nack (c.slot id) ((l.accounts (c.slot id)).noteFrameNack id) (id,-1))
  | index (l : Ledger) (id : ℤ) (index : ℕ) (hdue : IndexDue c t l id index) :
      Nacks c t l (id,index) (l.nack (c.slot id) ((l.accounts (c.slot id)).noteIndexNack index) (id,index))

/-- The calls of `nack_packet` of a round, in order. -/
inductive NackRun (c : RingConfig) (t : NackTiming) : Ledger → List (ℤ × ℤ) → Ledger → Prop
  | nil (l : Ledger) : NackRun c t l [] l
  | cons {l l₁ l₂ : Ledger} {e : ℤ × ℤ} {es : List (ℤ × ℤ)} (h : Nacks c t l e l₁)
      (hs : NackRun c t l₁ es l₂) : NackRun c t l (e :: es) l₂

variable {t : NackTiming}

theorem NackRun.append {l l₁ l₂ : Ledger} {es es' : List (ℤ × ℤ)} (h : NackRun c t l es l₁)
    (h' : NackRun c t l₁ es' l₂) : NackRun c t l (es ++ es') l₂ := by
  induction h with
  | nil => exact h'
  | cons hnack _ ih => exact .cons hnack (ih h')

theorem NackRun.nacks_eq {l l' : Ledger} {es : List (ℤ × ℤ)} (h : NackRun c t l es l') :
    l'.nacks = l.nacks ++ es := by
  induction h with
  | nil => rw [List.append_nil]
  | cons hnack _ ih =>
    rw [ih]
    cases hnack with
    | frame => exact List.append_assoc ..
    | index => exact List.append_assoc ..

theorem NackRun.same {l l' : Ledger} {es : List (ℤ × ℤ)} (h : NackRun c t l es l') :
    l'.burstCounter = l.burstCounter ∧ l'.avgCounter = l.avgCounter ∧ l'.minId = l.minId ∧ l'.maxId = l.maxId := by
  induction h with
  | nil => exact ⟨rfl,rfl,rfl,rfl⟩
  | cons hnack _ ih => cases hnack <;> exact ih

theorem nackIndex_ledger {id maxPacketsToNack : ℤ} (s : RingBuffer × ℤ) (i : ℕ)
    (hid : (s.1.receivingFrames (c.slot id)).id = id) :
    let s' := nackIndex t (c.slot id) maxPacketsToNack s i
    (s'.1.receivingFrames (c.slot id)).id = id ∧
      (s' = s ∨ s.2 < maxPacketsToNack ∧ s'.2 = s.2 + 1 ∧ Nacks c t s.1.ledger (id,i) s'.1.ledger) := by
  unfold nackIndex
  dsimp only
  split_ifs with hdue
  · refine ⟨?_,Or.inr ⟨hdue.1,rfl,?_⟩⟩
    · rw [setFrame_slot_self]
      exact hid
    · have hcall : nackSinglePacket s.1 (s.1.receivingFrames (c.slot id)).id i = nackSinglePacket s.1 id i := by
        rw [hid]
      rw [ledger_setFrame, hcall]
      rw [hid] at hdue
      exact Nacks.index s.1.ledger id i ⟨hid,hdue.2⟩
  · exact ⟨hid,Or.inl rfl⟩

theorem nackIndices_ledger {id maxPacketsToNack : ℤ} (indices : List ℕ) (s : RingBuffer × ℤ)
    (hid : (s.1.receivingFrames (c.slot id)).id = id) (hs : s.2 ≤ maxPacketsToNack) :
    let s' := indices.foldl (nackIndex t (c.slot id) maxPacketsToNack) s
    s'.2 ≤ maxPacketsToNack ∧ ∃ es : List ℕ, es.Sublist indices ∧ s'.2 = s.2 + es.length ∧
      NackRun c t s.1.ledger (es.map fun i : ℕ => (id,(i : ℤ))) s'.1.ledger := by
  induction indices generalizing s with
  | nil => exact ⟨hs,[],List.nil_sublist _,by simp,.nil _⟩
  | cons i indices ih =>
    obtain ⟨hid',hsame | ⟨hroom,hcount,hnack⟩⟩ := @nackIndex_ledger c t id maxPacketsToNack s i hid
    · dsimp only
      rw [List.foldl_cons, hsame]
      obtain ⟨hle,es,hsub,hlen,hrun⟩ := ih s hid hs
      exact ⟨hle,es,hsub.cons i,hlen,hrun⟩
    · dsimp only
      rw [List.foldl_cons]
      obtain ⟨hle,es,hsub,hlen,hrun⟩ := ih _ hid' (by omega)
      refine ⟨hle,i :: es,hsub.cons_cons i,?_,.cons hnack hrun⟩
      rw [hlen, hcount, List.length_cons]
      push_cast
      ring

structure Round (c : RingConfig) (t : NackTiming) (maxNacks : ℤ) (idList : List ℤ) (s s' : RingBuffer × ℤ)
    (es : List (ℤ × ℤ)) : Prop where
  run : NackRun c t s.1.ledger es s'.1.ledger
  nodup : es.Nodup
  mem : ∀ e ∈ es, e.1 ∈ idList
  count_le : s.2 ≤ s'.2
  counted : 1 ≤ t.nacksPerFrame → s.2 + es.length ≤ s'.2
  bounded : 1 ≤ t.nacksPerFrame → es.length ≤ (maxNacks - s.2).toNat

theorem Round.nil {maxNacks : ℤ} {idList : List ℤ} {s s' : RingBuffer × ℤ} (hl : s'.1.ledger = s.1.ledger)
    (hn : s'.2 = s.2) : Round c t maxNacks idList s s' [] where
  run := hl ▸ .nil _
  nodup := List.nodup_nil
  mem := List.forall_mem_nil _
  count_le := hn.ge
  counted _ := by simp [hn]
  bounded _ := Nat.zero_le _

theorem nackMissing_round {maxNacks id : ℤ} {s : RingBuffer × ℤ} {r : RingBuffer} (hroom : s.2 < maxNacks)
    (hledger : r.ledger = s.1.ledger) (hid : (r.receivingFrames (c.slot id)).id = id) (endIndex : ℤ) :
    ∃ es, Round c t maxNacks [id] s
      ((nackMissingPacketsUpToIndex t r (c.slot id) endIndex (maxNacks - s.2)).1,
        s.2 + (nackMissingPacketsUpToIndex t r (c.slot id) endIndex (maxNacks - s.2)).2) es := by
  unfold nackMissingPacketsUpToIndex
  obtain ⟨hle,es,hsub,hlen,hrun⟩ := nackIndices_ledger (t := t) (List.range (endIndex + 1).toNat) (r,0) hid
    (show (0 : ℤ) ≤ maxNacks - s.2 by omega)
  dsimp only at hle hlen hrun
  rw [hledger] at hrun
  have hinj : Function.Injective fun i : ℕ => (id,(i : ℤ)) := fun i j hij =>
    Int.ofNat_inj.mp (Prod.mk.inj hij).2
  refine ⟨es.map fun i : ℕ => (id,(i : ℤ)),hrun,?_,fun e he => ?_,?_,fun _ => ?_,fun _ => ?_⟩
  · exact (List.nodup_range.sublist hsub).map hinj
  · obtain ⟨i,-,rfl⟩ := List.mem_map.mp he
    exact List.mem_singleton_self id
  · dsimp only
    omega
  · rw [List.length_map]
    dsimp only
    omega
  · rw [List.length_map]
    omega

theorem nackFrame_round {maxNacks id : ℤ} {s s' : RingBuffer × ℤ} (h : nackFrame c t maxNacks s id = .ok s') :
    ∃ es, Round c t maxNacks [id] s s' es := by
  unfold nackFrame at h
  by_cases hroom : s.2 < maxNacks
  · rw [if_neg (not_not.mpr hroom)] at h
    dsimp only at h
    by_cases hid : (s.1.receivingFrames (c.slot id)).id = id
    · rw [if_neg (not_not.mpr hid)] at h
      cases hready : isReadyToRender c s.1 id with
      | error e => simp [hready] at h
      | ok p =>
        obtain ⟨ready,r⟩ := p
        have hledger := isReadyToRender_ledger hready
        cases ready with
        | true =>
          rw [hready] at h
          cases h
          exact ⟨[],.nil hledger rfl⟩
        | false =>
          rw [hready] at h
          cases h
          have hid' : (r.receivingFrames (c.slot id)).id = id := by
            have haccount := congrArg (fun l : Ledger => (l.accounts (c.slot id)).id) hledger
            exact haccount.trans hid
          exact nackMissing_round hroom hledger hid' _
    · rw [if_pos hid] at h
      by_cases hdue : (s.1.receivingFrames (c.slot id)).entireFrameNackedId ≠ id ∨
          t.frameTimedOut id = true ∧ (s.1.receivingFrames (c.slot id)).numEntireFrameNacked < maxPacketNacks
      · rw [if_pos hdue] at h
        cases h
        refine ⟨[(id,-1)],?_,List.nodup_singleton _,fun e he => ?_,?_,fun hper => ?_,fun hper => ?_⟩
        · rw [ledger_setFrame]
          exact .cons (Nacks.frame s.1.ledger id ⟨hid,hdue⟩) (.nil _)
        · rw [List.mem_singleton.mp he]
          exact List.mem_singleton_self id
        · exact le_add_of_nonneg_right (Int.natCast_nonneg _)
        · rw [List.length_singleton]
          dsimp only
          omega
        · rw [List.length_singleton]
          omega
      · rw [if_neg hdue] at h
        cases h
        exact ⟨[],.nil rfl rfl⟩
  · rw [if_pos hroom] at h
    cases h
    exact ⟨[],.nil rfl rfl⟩

theorem Round.append {maxNacks : ℤ} {ids₁ ids₂ : List ℤ} {s s₁ s₂ : RingBuffer × ℤ} {es₁ es₂ : List (ℤ × ℤ)}
    (h₁ : Round c t maxNacks ids₁ s s₁ es₁) (h₂ : Round c t maxNacks ids₂ s₁ s₂ es₂)
    (hdisjoint : ids₁.Disjoint ids₂) : Round c t maxNacks (ids₁ ++ ids₂) s s₂ (es₁ ++ es₂) where
  run := h₁.run.append h₂.run
  nodup := by
    apply List.Nodup.append h₁.nodup h₂.nodup
    intro e he he'
    exact hdisjoint (h₁.mem e he) (h₂.mem e he')
  mem e he := by
    rcases List.mem_append.mp he with he | he
    · exact List.mem_append_left _ (h₁.mem e he)
    · exact List.mem_append_right _ (h₂.mem e he)
  count_le := h₁.count_le.trans h₂.count_le
  counted hper := by
    have hc₁ := h₁.counted hper
    have hc₂ := h₂.counted hper
    rw [List.length_append]
    push_cast
    omega
  bounded hper := by
    have hc₁ := h₁.counted hper
    have hb₁ := h₁.bounded hper
    have hb₂ := h₂.bounded hper
    rw [List.length_append]
    omega

theorem nackFrame_run {maxNacks : ℤ} {idList : List ℤ} (hids : idList.Nodup) {s s' : RingBuffer × ℤ}
    (h : Run.run (nackFrame c t maxNacks) s idList = .ok s') : ∃ es, Round c t maxNacks idList s s' es := by
  induction idList generalizing s with
  | nil =>
    cases h
    exact ⟨[],.nil rfl rfl⟩
  | cons id idList ih =>
    cases hfirst : nackFrame c t maxNacks s id with
    | error e => simp [Run.run, hfirst] at h
    | ok s₁ =>
      rw [Run.run_cons _ hfirst] at h
      obtain ⟨es₁,h₁⟩ := nackFrame_round hfirst
      obtain ⟨es₂,h₂⟩ := ih (List.nodup_cons.mp hids).2 h
      exact ⟨es₁ ++ es₂,h₁.append h₂ (List.singleton_disjoint.mpr (List.nodup_cons.mp hids).1)⟩

theorem ids_nodup (first last : ℤ) : (ids first last).Nodup := by
  unfold ids
  apply List.nodup_range.map
  intro i j hij
  have : (first + (i : ℤ)) = first + j := hij
  omega

def Ledger.firstNacked (l : Ledger) (lastRenderedId : ℤ) : ℤ :=
  if lastRenderedId = -1 then max (l.maxId - 5) l.minId else lastRenderedId + 1

def Ledger.startIntervals (l : Ledger) (t : NackTiming) : Ledger :=
  { l with
    burstCounter := if t.burstIntervalOver then 0 else l.burstCounter
    avgCounter := if t.avgIntervalOver then 0 else l.avgCounter }

/-- What the intervals leave for a round. -/
def Ledger.maxNacks (l : Ledger) (t : NackTiming) : ℤ :=
  min (t.burstNacks - l.burstCounter) (t.avgNacks - l.avgCounter)

structure Nacked (c : RingConfig) (t : NackTiming) (lastRenderedId : ℤ) (l l' : Ledger) (es : List (ℤ × ℤ))
    (n : ℤ) : Prop where
  run : ∃ l₁, NackRun c t (l.startIntervals t) es l₁ ∧
    l' = { l₁ with burstCounter := l₁.burstCounter + n, avgCounter := l₁.avgCounter + n }
  nodup : es.Nodup
  mem : ∀ e ∈ es, e.1 ∈ ids (l.firstNacked lastRenderedId) l.maxId
  count_nonneg : 0 ≤ n
  counted : 1 ≤ t.nacksPerFrame → es.length ≤ n
  bounded : 1 ≤ t.nacksPerFrame → es.length ≤ ((l.startIntervals t).maxNacks t).toNat

theorem tryNacking_ledger (h : tryNacking c t r = .ok r') :
    ∃ es n, Nacked c t r.lastRenderedId r.ledger r'.ledger es n := by
  unfold tryNacking at h
  by_cases hmin : r.minId = -1
  · simp [hmin] at h
  · rw [if_neg (not_not.mpr hmin)] at h
    dsimp only at h
    split_ifs at h with hmax
    · cases h
      refine ⟨[],0,⟨_,.nil _,?_⟩,List.nodup_nil,List.forall_mem_nil _,le_rfl,fun _ => le_rfl,
        fun _ => Nat.zero_le _⟩
      unfold saturateNacking
      split_ifs <;> simp [RingBuffer.ledger, startNackIntervals, Ledger.startIntervals]
    · unfold nackFrames at h
      dsimp only at h
      generalize hlist : ids _ _ = idList at h
      cases hrun : Run.run (nackFrame c t (min (t.burstNacks - (startNackIntervals t r).burstCounter)
          (t.avgNacks - (startNackIntervals t r).avgCounter)))
          ({ startNackIntervals t r with lastNackPossibility := true },0) idList with
      | error e => simp [hrun] at h
      | ok s =>
        rw [hrun] at h
        obtain ⟨es,hround⟩ := nackFrame_run (hlist ▸ ids_nodup _ _) hrun
        cases h
        refine ⟨es,s.2,⟨s.1.ledger,hround.run,rfl⟩,hround.nodup,?_,hround.count_le,fun hper => ?_,fun hper => ?_⟩
        · exact hlist ▸ hround.mem
        · have hcounted := hround.counted hper
          rwa [zero_add] at hcounted
        · have hbounded := hround.bounded hper
          rwa [sub_zero] at hbounded

theorem checkStale_ledger {currentlyPendingId id : ℤ} {s s' : RingBuffer × ℤ}
    (h : checkStale c t currentlyPendingId s id = .ok s') : s'.1.ledger = s.1.ledger := by
  unfold checkStale at h
  split_ifs at h
  · cases hready : isReadyToRender c s.1 currentlyPendingId with
    | error e => simp [hready] at h
    | ok p =>
      rw [hready] at h
      cases h
      exact isReadyToRender_ledger hready
  · cases h
    rfl

/-- Recovery without a range changes nothing; else it is a round of nacks, as far as the ledger goes. -/
theorem tryRecovering_ledger (h : tryRecovering c t r = .ok r') :
    r.minId = -1 ∧ r'.ledger = r.ledger ∨
      r.minId ≠ -1 ∧ ∃ es n, Nacked c t r.lastRenderedId r.ledger r'.ledger es n := by
  unfold tryRecovering at h
  have hstart : (if t.statisticsDue then { r with statistics := {} } else r).ledger = r.ledger ∧
      (if t.statisticsDue then { r with statistics := {} } else r).lastRenderedId = r.lastRenderedId := by
    split_ifs <;> exact ⟨rfl,rfl⟩
  generalize (if t.statisticsDue then { r with statistics := {} } else r) = r₁ at h hstart
  obtain ⟨hledger,hlast⟩ := hstart
  have hmin : r₁.minId = r.minId := congrArg Ledger.minId hledger
  dsimp only at h
  by_cases hnone : r₁.minId = -1
  · rw [if_pos hnone] at h
    cases h
    exact Or.inl ⟨hmin ▸ hnone,hledger⟩
  · rw [if_neg hnone] at h
    refine Or.inr ⟨hmin ▸ hnone,?_⟩
    cases hnack : tryNacking c t r₁ with
    | error e => simp [hnack] at h
    | ok r₂ =>
      simp only [hnack] at h
      obtain ⟨es,n,hnacked⟩ := tryNacking_ledger hnack
      rw [hledger, hlast] at hnacked
      generalize (if r₂.lastRenderedId = -1 then r₂.minId else r₂.lastRenderedId + 1) = pending at h
      cases hstale : Run.run (checkStale c t pending) (r₂,-1) (ids (max pending (r₂.maxId - 60)) r₂.maxId) with
      | error e => simp [hstale] at h
      | ok s =>
        simp only [hstale] at h
        let Inv : RingBuffer × ℤ → Prop := fun s => s.1.ledger = r₂.ledger
        have hchecked : Inv s := Run.run_invariant (P := fun _ => True)
          (fun s₁ a s₂ h₁ _ h₂ => (checkStale_ledger h₂).trans h₁) (fun _ _ => trivial) rfl hstale
        refine ⟨es,n,?_⟩
        split_ifs at h
        · cases h
          rw [← show s.1.ledger = r₂.ledger from hchecked] at hnacked
          exact hnacked
        · cases h
          rw [← show s.1.ledger = r₂.ledger from hchecked] at hnacked
          exact hnacked

inductive RecoveryCall
  | ring (call : RingCall)
  | recover (t : NackTiming)

def recoveryStep (c : RingConfig) (r : RingBuffer) : RecoveryCall → Except RingFatal RingBuffer
  | .ring call => ringStep c r call
  | .recover t => tryRecovering c t r

end Whist.Ring
