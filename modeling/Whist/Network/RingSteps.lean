import Whist.Network.RingBuffer

/-! # What the operations of the ring buffer can do -/
namespace Whist.Ring
open Fec Udp Memory

variable {c : RingConfig} {r r' : RingBuffer}

theorem slot_lt (c : RingConfig) (id : ℤ) : c.slot id < c.ringBufferSize := by
  have hpos : (0 : ℤ) < c.ringBufferSize := by exact_mod_cast c.size_pos
  have hlt := Int.tmod_lt_of_pos id hpos
  unfold RingConfig.slot
  omega

theorem slot_cast {id : ℤ} (h : ¬c.OutOfBounds id) : Int.tmod id c.ringBufferSize = c.slot id :=
  (Int.toNat_of_nonneg (not_lt.mp h)).symm

theorem not_outOfBounds {id : ℤ} (h : 0 ≤ id) : ¬c.OutOfBounds id :=
  not_lt.mpr (Int.tmod_nonneg _ h)

@[simp] theorem setFrame_slot_self (r : RingBuffer) (i : ℕ) (f : FrameData) :
    (r.setFrame (.slot i) f).receivingFrames i = f := Function.update_self ..

theorem setFrame_slot_of_ne (r : RingBuffer) {i j : ℕ} (f : FrameData) (h : j ≠ i) :
    (r.setFrame (.slot i) f).receivingFrames j = r.receivingFrames j := Function.update_of_ne h ..

structure FrameNotes where
  duplicatePacketsReceived : ℕ
  nackPacketsReceived : ℕ
  unnecessaryNackPacketsReceived : ℕ
  numEntireFrameNacked : ℕ
  entireFrameNackedId : ℤ
  numTimesIndexNacked : ℕ → ℕ

def FrameData.note (f : FrameData) (n : FrameNotes) : FrameData :=
  { f with
    duplicatePacketsReceived := n.duplicatePacketsReceived
    nackPacketsReceived := n.nackPacketsReceived
    unnecessaryNackPacketsReceived := n.unnecessaryNackPacketsReceived
    numEntireFrameNacked := n.numEntireFrameNacked
    entireFrameNackedId := n.entireFrameNackedId
    numTimesIndexNacked := n.numTimesIndexNacked }

def FrameData.notes (f : FrameData) : FrameNotes :=
  ⟨f.duplicatePacketsReceived,f.nackPacketsReceived,f.unnecessaryNackPacketsReceived,
    f.numEntireFrameNacked,f.entireFrameNackedId,f.numTimesIndexNacked⟩

structure Noted (r r' : RingBuffer) : Prop where
  frames : ∀ i, ∃ n, r'.receivingFrames i = (r.receivingFrames i).note n
  allocator : r'.packetBufferAllocator = r.packetBufferAllocator
  renderingId : r'.currentlyRenderingId = r.currentlyRenderingId
  renderingFrame : r'.currentlyRenderingFrame = r.currentlyRenderingFrame
  minId : r'.minId = r.minId
  maxId : r'.maxId = r.maxId
  pending : r'.numPendingReadyFrames = r.numPendingReadyFrames
  last : r'.lastRenderedId = r.lastRenderedId

def RingBuffer.cache (r : RingBuffer) (i : ℕ) : RingBuffer :=
  r.setFrame (.slot i)
    { r.receivingFrames i with frameBuffer := getFramebuffer (r.receivingFrames i) }

def freeBuffers (a : BlockAllocator) (f : FrameData) : BlockAllocator :=
  freeOptional (freeOptional a f.packetBuffer) f.fecFrameBuffer

/-- The frame of slot `i` is released, and no longer counted if it was. -/
def RingBuffer.release (r : RingBuffer) (i : ℕ) : RingBuffer :=
  { r with
    receivingFrames := Function.update r.receivingFrames i (r.receivingFrames i).released
    numPendingReadyFrames :=
      r.numPendingReadyFrames - if (r.receivingFrames i).frameBuffer = none then 0 else 1
    packetBufferAllocator := freeBuffers r.packetBufferAllocator (r.receivingFrames i) }

/-- The end of `reset_ring_buffer`. -/
def RingBuffer.restart (r : RingBuffer) : RingBuffer :=
  { r with maxId := -1, minId := -1, framesReceived := 0, lastRenderedId := -1, numPendingReadyFrames := 0 }

def NotLate (r : RingBuffer) (f : FrameData) : Prop :=
  f.id ≤ r.currentlyRenderingId → f.frameBuffer = none ∧ getFramebuffer f = none

inductive Tidy (c : RingConfig) : RingBuffer → RingBuffer → Prop
  | note {r r' : RingBuffer} (h : Noted r r') : Tidy c r r'
  | cache (r : RingBuffer) {i : ℕ} (hi : i < c.ringBufferSize) (h : NotLate r (r.receivingFrames i)) :
      Tidy c r (r.cache i)
  | release (r : RingBuffer) {i : ℕ} (hi : i < c.ringBufferSize)
      (h : (r.receivingFrames i).packetBuffer.isSome) : Tidy c r (r.release i)
  | clear (r : RingBuffer) {i : ℕ} (hi : i < c.ringBufferSize)
      (h : (r.receivingFrames i).packetBuffer = none) : Tidy c r (r.setFrame (.slot i) {})
  | restart (r : RingBuffer) (h : ∀ i < c.ringBufferSize, r.receivingFrames i = {}) :
      Tidy c r r.restart

abbrev Tidied (c : RingConfig) : RingBuffer → RingBuffer → Prop := Relation.ReflTransGen (Tidy c)

theorem Noted.refl (r : RingBuffer) : Noted r r :=
  ⟨fun i => ⟨(r.receivingFrames i).notes,rfl⟩,rfl,rfl,rfl,rfl,rfl,rfl,rfl⟩

theorem Noted.statistics (h : Noted r r') (st : NackStatistics) :
    Noted r { r' with statistics := st } :=
  ⟨h.frames,h.allocator,h.renderingId,h.renderingFrame,h.minId,h.maxId,h.pending,h.last⟩

theorem Noted.setFrame (h : Noted r r') (i : ℕ) (n : FrameNotes) :
    Noted r (r'.setFrame (.slot i) ((r'.receivingFrames i).note n)) := by
  refine ⟨fun j => ?_,h.allocator,h.renderingId,h.renderingFrame,h.minId,h.maxId,h.pending,h.last⟩
  by_cases hj : j = i
  · obtain ⟨m,hm⟩ := h.frames i
    refine ⟨n,?_⟩
    rw [hj, setFrame_slot_self, hm]
    rfl
  · rw [setFrame_slot_of_ne _ _ hj]
    exact h.frames j

theorem Noted.trans {r'' : RingBuffer} (h : Noted r r') (h' : Noted r' r'') : Noted r r'' := by
  refine ⟨fun i => ?_,h'.allocator.trans h.allocator,h'.renderingId.trans h.renderingId,
    h'.renderingFrame.trans h.renderingFrame,h'.minId.trans h.minId,h'.maxId.trans h.maxId,
    h'.pending.trans h.pending,h'.last.trans h.last⟩
  obtain ⟨n,hn⟩ := h.frames i
  obtain ⟨m,hm⟩ := h'.frames i
  refine ⟨m,?_⟩
  rw [hm, hn]
  rfl

theorem isReadyToRender_cases {id : ℤ} {b : Bool} (h : isReadyToRender c r id = .ok (b,r')) :
    ¬c.OutOfBounds id ∧
      ((r.receivingFrames (c.slot id)).id ≠ id ∧ b = false ∧ r' = r ∨
        (r.receivingFrames (c.slot id)).id = id ∧ NotLate r (r.receivingFrames (c.slot id)) ∧
          b = (getFramebuffer (r.receivingFrames (c.slot id))).isSome ∧ r' = r.cache (c.slot id)) := by
  unfold isReadyToRender at h
  dsimp only at h
  split_ifs at h with hbounds hid hbuffer hready
  · cases h
    exact ⟨hbounds,Or.inl ⟨hid,rfl,rfl⟩⟩
  · cases h
    rw [ne_eq, not_not] at hid
    refine ⟨hbounds,Or.inr ⟨hid,fun hle => ⟨?_,?_⟩,rfl,rfl⟩⟩
    · exact not_not.mp (fun hne => hbuffer ⟨hid.ge.trans hle,hne⟩)
    · exact not_not.mp (fun hne => hready ⟨hid.ge.trans hle,hne⟩)

theorem isReadyToRender_tidied {id : ℤ} {b : Bool} (h : isReadyToRender c r id = .ok (b,r')) :
    Tidied c r r' := by
  obtain ⟨-,⟨-,-,rfl⟩ | ⟨-,hlate,-,rfl⟩⟩ := isReadyToRender_cases h
  · exact .refl
  · exact .single (.cache r (slot_lt c id) hlate)

theorem isReadyToRender_ok {id : ℤ} (hbounds : ¬c.OutOfBounds id)
    (h : (r.receivingFrames (c.slot id)).id = id → NotLate r (r.receivingFrames (c.slot id))) :
    ∃ b r', isReadyToRender c r id = .ok (b,r') := by
  unfold isReadyToRender
  rw [if_neg hbounds]
  dsimp only
  by_cases hid : (r.receivingFrames (c.slot id)).id = id
  · have hlate := h hid
    rw [if_neg (not_not.mpr hid), if_neg, if_neg]
    · exact ⟨_,_,rfl⟩
    · exact fun hle => hle.2 (hlate (hid.le.trans hle.1)).2
    · exact fun hle => hle.2 (hlate (hid.le.trans hle.1)).1
  · rw [if_pos hid]
    exact ⟨_,_,rfl⟩

theorem resetFrame_slot_cases {i : ℕ} (h : resetFrame c r (.slot i) = .ok r') :
    (r.receivingFrames i).packetBuffer.isSome ∧ r' = r.release i := by
  unfold resetFrame at h
  simp only [RingBuffer.frame] at h
  cases hblock : (r.receivingFrames i).packetBuffer with
  | none =>
    rw [hblock] at h
    cases h
  | some block =>
    rw [hblock] at h
    refine ⟨rfl,?_⟩
    unfold uncount at h
    dsimp only at h
    by_cases hnone : (r.receivingFrames i).frameBuffer = none
    · rw [if_pos hnone] at h
      cases h
      simp [RingBuffer.release, RingBuffer.setFrame, freeBuffers, freeOptional, hblock, hnone]
    · rw [if_neg hnone] at h
      split_ifs at h with hslot
      cases h
      simp [RingBuffer.release, RingBuffer.setFrame, freeBuffers, freeOptional, hblock, hnone]

theorem resetFrame_slot_ok {i : ℕ} (hblock : (r.receivingFrames i).packetBuffer.isSome)
    (hslot : (r.receivingFrames i).frameBuffer ≠ none →
      Int.tmod (r.receivingFrames i).id c.ringBufferSize = i) :
    ∃ r', resetFrame c r (.slot i) = .ok r' := by
  obtain ⟨block,hblock⟩ := Option.isSome_iff_exists.mp hblock
  unfold resetFrame uncount
  simp only [RingBuffer.frame, hblock]
  by_cases hnone : (r.receivingFrames i).frameBuffer = none
  · rw [if_pos hnone]
    exact ⟨_,rfl⟩
  · rw [if_neg hnone, if_neg (not_not.mpr (hslot hnone))]
    exact ⟨_,rfl⟩

def RingBuffer.releaseRendering (r : RingBuffer) : RingBuffer :=
  { r with
    currentlyRenderingFrame := r.currentlyRenderingFrame.released
    packetBufferAllocator := freeBuffers r.packetBufferAllocator r.currentlyRenderingFrame }

theorem resetFrame_rendering_cases (h : resetFrame c r .rendering = .ok r') :
    r.currentlyRenderingFrame.packetBuffer.isSome ∧ r' = r.releaseRendering := by
  unfold resetFrame uncount at h
  simp only [RingBuffer.frame] at h
  cases hblock : r.currentlyRenderingFrame.packetBuffer with
  | none =>
    rw [hblock] at h
    cases h
  | some block =>
    rw [hblock] at h
    cases h
    simp [RingBuffer.releaseRendering, RingBuffer.setFrame, freeBuffers, freeOptional, hblock]

theorem resetFrame_rendering_ok (h : r.currentlyRenderingFrame.packetBuffer.isSome) :
    resetFrame c r .rendering = .ok r.releaseRendering := by
  obtain ⟨block,hblock⟩ := Option.isSome_iff_exists.mp h
  unfold resetFrame uncount
  simp [RingBuffer.frame, hblock, RingBuffer.releaseRendering, RingBuffer.setFrame, freeBuffers, freeOptional]

theorem wipeFrame_cases {i : ℕ} (hi : i < c.ringBufferSize) (h : wipeFrame c r i = .ok r') :
    Tidied c r r' ∧ r'.receivingFrames = Function.update r.receivingFrames i {} := by
  unfold wipeFrame at h
  by_cases hblock : (r.receivingFrames i).packetBuffer.isSome
  · rw [if_pos hblock] at h
    cases hreset : resetFrame c r (.slot i) with
    | error e => simp [hreset] at h
    | ok r₁ =>
      rw [hreset] at h
      cases h
      obtain ⟨-,rfl⟩ := resetFrame_slot_cases hreset
      have hempty : ((r.release i).receivingFrames i).packetBuffer = none := by
        simp [RingBuffer.release, FrameData.released]
      refine ⟨(Relation.ReflTransGen.single (.release r hi hblock)).tail (.clear _ hi hempty),?_⟩
      exact Function.update_idem ..
  · rw [if_neg hblock] at h
    cases h
    exact ⟨.single (.clear r hi (Option.not_isSome_iff_eq_none.mp hblock)),rfl⟩

theorem resetRingBuffer_cases (h : resetRingBuffer c r = .ok r') :
    Tidied c r r' ∧ (∀ i < c.ringBufferSize, r'.receivingFrames i = {}) ∧ r'.lastRenderedId = -1 := by
  unfold resetRingBuffer at h
  cases hrun : Run.run (wipeFrame c) r (List.range c.ringBufferSize) with
  | error e => simp [hrun] at h
  | ok r₁ =>
    rw [hrun] at h
    cases h
    have key : ∀ n ≤ c.ringBufferSize, ∀ r₁, Run.run (wipeFrame c) r (List.range n) = .ok r₁ →
        Tidied c r r₁ ∧ ∀ i < n, r₁.receivingFrames i = {} := by
      intro n
      induction n with
      | zero =>
        intro _ r₁ hrun
        cases hrun
        exact ⟨.refl,fun i hi => absurd hi (Nat.not_lt_zero i)⟩
      | succ n ih =>
        intro hn r₂ hrun
        rw [List.range_succ] at hrun
        cases hfirst : Run.run (wipeFrame c) r (List.range n) with
        | error e => simp [Run.run_error_append hfirst] at hrun
        | ok r₁ =>
          obtain ⟨htidied,hempty⟩ := ih (by omega) r₁ hfirst
          rw [Run.run_append _ hfirst, Run.run_singleton] at hrun
          obtain ⟨hstep,hframes⟩ := wipeFrame_cases (by omega) hrun
          refine ⟨htidied.trans hstep,fun i hi => ?_⟩
          rw [hframes]
          by_cases hin : i = n
          · rw [hin, Function.update_self]
          · rw [Function.update_of_ne hin]
            exact hempty i (by omega)
    obtain ⟨htidied,hempty⟩ := key _ le_rfl r₁ hrun
    exact ⟨htidied.tail (.restart r₁ hempty),hempty,rfl⟩

theorem logDropped_tidied {i : ℕ} (h : logDropped c r i = .ok r') : Tidied c r r' := by
  unfold logDropped at h
  dsimp only at h
  split_ifs at h
  · obtain ⟨⟨b,r₁⟩,hready,rfl⟩ := Run.map_eq_ok h
    exact isReadyToRender_tidied hready
  · cases h
    exact .refl

theorem run_tidied {α : Type*} {step : RingBuffer → α → Except RingFatal RingBuffer}
    (hstep : ∀ r a r', step r a = .ok r' → Tidied c r r') {as : List α}
    (h : Run.run step r as = .ok r') : Tidied c r r' :=
  Run.run_invariant (P := fun _ => True) (fun r₁ a r₂ h₁ _ h₂ => h₁.trans (hstep r₁ a r₂ h₂))
    (fun _ _ => trivial) .refl h

theorem Tidied.rendering (h : Tidied c r r') : r'.currentlyRenderingId = r.currentlyRenderingId ∧
    r'.currentlyRenderingFrame = r.currentlyRenderingFrame := by
  induction h with
  | refl => exact ⟨rfl,rfl⟩
  | tail _ hstep ih =>
    cases hstep with
    | note hn => exact ⟨hn.renderingId.trans ih.1,hn.renderingFrame.trans ih.2⟩
    | cache _ _ => exact ih
    | release _ _ => exact ih
    | clear _ _ => exact ih
    | restart _ => exact ih

theorem freeOptional_memory (a : BlockAllocator) (p : Option ℕ) :
    (freeOptional a p).memory = a.memory := by
  cases p with
  | none => rfl
  | some block =>
    unfold freeOptional freeBlock
    split_ifs <;> rfl

theorem Tidied.memory (h : Tidied c r r') : r'.memory = r.memory := by
  have hfree : ∀ a f, (freeBuffers a f).memory = a.memory := fun a f =>
    (freeOptional_memory _ _).trans (freeOptional_memory _ _)
  induction h with
  | refl => rfl
  | tail _ hstep ih =>
    cases hstep with
    | note hn => exact (congrArg BlockAllocator.memory hn.allocator).trans ih
    | cache _ _ => exact ih
    | release _ _ => exact (hfree _ _).trans ih
    | clear _ _ => exact ih
    | restart _ => exact ih

def Overflows (c : RingConfig) (r : RingBuffer) (id : ℤ) : Prop :=
  (r.receivingFrames (c.slot id)).packetBuffer.isSome ∧
    (r.receivingFrames (c.slot id)).id > r.currentlyRenderingId

open scoped Classical in
noncomputable def lastAfterRoom (c : RingConfig) (r : RingBuffer) (id : ℤ) : ℤ :=
  if Overflows c r id then -1 else r.lastRenderedId

/-- There is room, at the cost of all frames if the ring buffer overflows. -/
theorem makeRoom_cases {id : ℤ} {b : Bool} (h : makeRoom c r id = .ok (b,r')) :
    Tidied c r r' ∧ (r'.receivingFrames (c.slot id)).packetBuffer = none ∧
      r'.lastRenderedId = lastAfterRoom c r id := by
  unfold makeRoom at h
  dsimp only at h
  unfold lastAfterRoom Overflows
  split_ifs at h with hnone hover
  · cases h
    have hempty := Option.isNone_iff_eq_none.mp hnone
    rw [if_neg (fun hover => by simp [hempty] at hover)]
    exact ⟨.refl,hempty,rfl⟩
  · rw [if_pos ⟨by simpa [Option.isSome_iff_ne_none] using hnone,hover⟩]
    cases hrun : Run.run (logDropped c) r (List.range c.ringBufferSize) with
    | error e => simp [hrun] at h
    | ok r₁ =>
      rw [hrun] at h
      obtain ⟨r₂,hreset,hpair⟩ := Run.map_eq_ok h
      cases hpair
      obtain ⟨htidied,hempty,hlast⟩ := resetRingBuffer_cases hreset
      refine ⟨(run_tidied (fun _ _ _ => logDropped_tidied) hrun).trans htidied,?_,hlast⟩
      rw [hempty _ (slot_lt c id)]
  · rw [if_neg (fun h => hover h.2)]
    obtain ⟨r₁,hreset,hpair⟩ := Run.map_eq_ok h
    cases hpair
    obtain ⟨hblock,rfl⟩ := resetFrame_slot_cases hreset
    exact ⟨.single (.release r (slot_lt c id) hblock),by simp [RingBuffer.release, FrameData.released],rfl⟩

def openedFrame (c : RingConfig) (r : RingBuffer) (s : WhistSegment) (dec : Option FecDecoder) :
    FrameData × BlockAllocator :=
  let p := allocateBlock c.contents r.packetBufferAllocator
  let f := (r.receivingFrames (c.slot s.id)).initialized s.id p.1 (s.numIndices - s.numFecIndices)
    s.numFecIndices s.prevFrameNumDuplicates
  if s.numFecIndices > 0 then
    let q := allocateBlock c.contents p.2
    ({ f with fecDecoder := dec, fecFrameBuffer := some q.1 },q.2)
  else (f,p.2)

theorem initFrame_cases {s : WhistSegment} (h : initFrame c r s.id (s.numIndices - s.numFecIndices)
    s.numFecIndices s.prevFrameNumDuplicates = .ok r') :
    (r.receivingFrames (c.slot s.id)).packetBuffer = none ∧
      ∃ dec, (s.numFecIndices > 0 → dec.isSome) ∧
        r' = { r with packetBufferAllocator := (openedFrame c r s dec).2 }.setFrame (.slot (c.slot s.id))
          (openedFrame c r s dec).1 := by
  unfold initFrame at h
  dsimp only at h
  split_ifs at h with hnone hfec
  · cases hdec : createFecDecoder (s.numIndices - s.numFecIndices) s.numFecIndices maxPacketSegmentSize with
    | error e => simp [hdec] at h
    | ok dec =>
      rw [hdec] at h
      cases h
      refine ⟨hnone,some dec,fun _ => rfl,?_⟩
      simp only [openedFrame, if_pos hfec]
  · cases h
    refine ⟨hnone,none,fun hpos => absurd hpos hfec,?_⟩
    simp only [openedFrame, if_neg hfec]

theorem countArrival_noted (c : RingConfig) (r : RingBuffer) (s : WhistSegment) :
    Noted r (countArrival c r s) := by
  unfold countArrival
  by_cases hnack : s.isANack
  · rw [if_pos hnack]
    generalize hn : (if s.whistType = .video ∧
      (r.receivingFrames (c.slot s.id)).receivedIndices s.index then 1 else 0 : ℕ) = n
    have hstats := (Noted.refl r).statistics { r.statistics with
      numNacksReceived := r.statistics.numNacksReceived + 1
      numUnnecessaryNacksReceived := r.statistics.numUnnecessaryNacksReceived + n }
    exact hstats.setFrame (c.slot s.id) { (r.receivingFrames (c.slot s.id)).notes with
      nackPacketsReceived := (r.receivingFrames (c.slot s.id)).nackPacketsReceived + 1
      unnecessaryNackPacketsReceived :=
        (r.receivingFrames (c.slot s.id)).unnecessaryNackPacketsReceived + n }
  · rw [if_neg hnack]
    exact (Noted.refl r).statistics _

theorem dropDuplicate_noted (c : RingConfig) (r : RingBuffer) (s : WhistSegment) :
    Noted r (dropDuplicate c r s) := by
  unfold dropDuplicate
  by_cases hnack : s.isANack
  · rw [if_pos hnack]
    exact .refl r
  · rw [if_neg hnack]
    exact (Noted.refl r).setFrame (c.slot s.id) { (r.receivingFrames (c.slot s.id)).notes with
      duplicatePacketsReceived := (r.receivingFrames (c.slot s.id)).duplicatePacketsReceived + 1 }

theorem countUnnecessary_noted (r : RingBuffer) : Noted r r.countUnnecessary :=
  (Noted.refl r).statistics _

def FrameData.marked (f : FrameData) (index : ℕ) : FrameData :=
  { f with
    receivedIndices := Function.update f.receivedIndices index true
    originalPacketsReceived := f.originalPacketsReceived + if index < f.numOriginalPackets then 1 else 0
    fecPacketsReceived := f.fecPacketsReceived + if index < f.numOriginalPackets then 0 else 1 }

theorem markReceived_cases {f g : FrameData} {index : ℕ} (h : f.markReceived index = .ok g) :
    g = f.marked index ∧
      (index < f.numOriginalPackets → f.originalPacketsReceived + 1 ≤ f.numOriginalPackets) := by
  unfold FrameData.markReceived at h
  dsimp only at h
  split_ifs at h with hindex hcount
  · cases h
    simp [FrameData.marked, hindex, hcount]
  · cases h
    simp [FrameData.marked, hindex]

def FrameData.stored (f : FrameData) (dec : Option FecDecoder) (size : ℤ) (recovered : Bool) : FrameData :=
  { f with fecDecoder := dec, frameBufferSize := size, successfulFecRecovery := recovered }

def FrameData.blocks (f : FrameData) : List ℕ := f.packetBuffer.toList ++ f.fecFrameBuffer.toList

structure WritesOnly (blocks : List ℕ) (a a' : BlockAllocator) : Prop where
  numAllocatedBlocks : a'.numAllocatedBlocks = a.numAllocatedBlocks
  freeBlocks : a'.freeBlocks = a.freeBlocks
  numRegions : a'.numRegions = a.numRegions
  memory : ∀ b, b ∉ blocks → a'.memory b = a.memory b

theorem WritesOnly.write {blocks : List ℕ} {a a' : BlockAllocator} (h : WritesOnly blocks a a')
    {block : ℕ} (hb : block ∈ blocks) (bytes : ℕ → UInt8) : WritesOnly blocks a (a'.write block bytes) :=
  ⟨h.numAllocatedBlocks,h.freeBlocks,h.numRegions,fun b hnot => by
    have hne : b ≠ block := fun heq => hnot (by rwa [heq])
    exact (Function.update_of_ne hne ..).trans (h.memory b hnot)⟩

structure Stored (c : RingConfig) (r : RingBuffer) (s : WhistSegment) (r' : RingBuffer) (f : FrameData)
    (block : ℕ) (dec : Option FecDecoder) (size : ℤ) (recovered : Bool) : Prop where
  packetBuffer : f.packetBuffer = some block
  result : r' = { r with packetBufferAllocator := r'.packetBufferAllocator }.setFrame (.slot (c.slot s.id))
    (f.stored dec size recovered)
  writes : WritesOnly f.blocks r.packetBufferAllocator r'.packetBufferAllocator
  plain : f.numFecPackets = 0 → dec = f.fecDecoder ∧ size = f.frameBufferSize + s.segmentSize ∧
    recovered = f.successfulFecRecovery ∧
    r'.packetBufferAllocator = (r.copyPayload block s).packetBufferAllocator
  decoder : f.fecDecoder.isSome → dec.isSome
  kept : f.successfulFecRecovery = true → recovered = true

theorem decodeFrame_cases {i index : ℕ} {segment : Block}
    (h : decodeFrame c r i index segment = .ok r') :
    ∃ dec size recovered, r' = { r with packetBufferAllocator := r'.packetBufferAllocator }.setFrame (.slot i)
        ((r.receivingFrames i).stored (some dec) size recovered) ∧
      WritesOnly (r.receivingFrames i).blocks r.packetBufferAllocator r'.packetBufferAllocator ∧
      ((r.receivingFrames i).successfulFecRecovery = true → recovered = true) := by
  unfold decodeFrame at h
  generalize hf : r.receivingFrames i = f at h ⊢
  dsimp only at h
  cases hdec : f.fecDecoder with
  | none => simp [hdec] at h
  | some dec =>
    rw [hdec] at h
    cases hregister : fecDecoderRegisterBuffer dec index segment with
    | error e => simp [hregister] at h
    | ok dec₁ =>
      simp only [hregister] at h
      cases hdecode : fecGetDecodedBuffer c.cm dec₁ (f.fecFrameBuffer.map r.memory) with
      | error e => simp [hdecode] at h
      | ok out =>
        obtain ⟨frameSize,dec₂,bytes⟩ := out
        simp only [hdecode] at h
        have hstored : ∃ size recovered, f.decoded dec₂ frameSize = f.stored (some dec₂) size recovered ∧
            (f.successfulFecRecovery = true → recovered = true) := by
          unfold FrameData.decoded
          split_ifs
          · exact ⟨frameSize,true,rfl,fun _ => rfl⟩
          · exact ⟨f.frameBufferSize,f.successfulFecRecovery,rfl,id⟩
        obtain ⟨size,recovered,hframe,hkept⟩ := hstored
        rw [hframe] at h
        have hsame : WritesOnly f.blocks r.packetBufferAllocator r.packetBufferAllocator :=
          ⟨rfl,rfl,rfl,fun _ _ => rfl⟩
        cases hbuffer : f.fecFrameBuffer with
        | none =>
          rw [hbuffer] at h
          cases h
          exact ⟨dec₂,size,recovered,rfl,hsame,hkept⟩
        | some block =>
          rw [hbuffer] at h
          have hmem : block ∈ f.blocks := by simp [FrameData.blocks, hbuffer]
          cases bytes with
          | none =>
            cases h
            exact ⟨dec₂,size,recovered,rfl,hsame,hkept⟩
          | some bytes =>
            cases h
            exact ⟨dec₂,size,recovered,rfl,hsame.write hmem bytes,hkept⟩

theorem storeSegment_cases {s : WhistSegment} (h : storeSegment c r s = .ok r') :
    ∃ block dec size recovered,
      Stored c r s r' (r.receivingFrames (c.slot s.id)) block dec size recovered := by
  unfold storeSegment at h
  generalize hf : r.receivingFrames (c.slot s.id) = f at h ⊢
  dsimp only at h
  cases hblock : f.packetBuffer with
  | none => simp [hblock] at h
  | some block =>
    simp only [hblock] at h
    have hmem : block ∈ f.blocks := by simp [FrameData.blocks, hblock]
    have hcopy : WritesOnly f.blocks r.packetBufferAllocator (r.copyPayload block s).packetBufferAllocator :=
      WritesOnly.write ⟨rfl,rfl,rfl,fun _ _ => rfl⟩ hmem _
    split_ifs at h with hfec
    · have hsize : f.addSize s.segmentSize = f := by
        rw [FrameData.addSize, if_neg (by omega)]
      rw [hsize] at h
      obtain ⟨dec,size,recovered,hr,hwrites,hkept⟩ := decodeFrame_cases h
      rw [setFrame_slot_self] at hr hwrites hkept
      refine ⟨block,some dec,size,recovered,⟨hblock,?_,?_,fun hzero => absurd hzero (by omega),
        fun _ => rfl,hkept⟩⟩
      · rw [hr]
        simp [RingBuffer.setFrame, RingBuffer.copyPayload, RingBuffer.write]
      · exact ⟨hwrites.numAllocatedBlocks.trans hcopy.numAllocatedBlocks,
          hwrites.freeBlocks.trans hcopy.freeBlocks,hwrites.numRegions.trans hcopy.numRegions,
          fun b hb => (hwrites.memory b hb).trans (hcopy.memory b hb)⟩
    · cases h
      have hsize : f.addSize s.segmentSize = f.stored f.fecDecoder (f.addSize s.segmentSize).frameBufferSize
          f.successfulFecRecovery := by
        unfold FrameData.addSize
        split_ifs <;> rfl
      rw [hsize]
      refine ⟨block,_,_,_,⟨hblock,rfl,hcopy,fun hzero => ⟨rfl,?_,rfl,rfl⟩,id,id⟩⟩
      rw [FrameData.addSize, if_pos hzero]

def RingBuffer.countPending (r : RingBuffer) : RingBuffer :=
  { r with framesReceived := r.framesReceived + 1, numPendingReadyFrames := r.numPendingReadyFrames + 1 }

open scoped Classical in
theorem receiveIndex_cases {s : WhistSegment} (hid : (r.receivingFrames (c.slot s.id)).id = s.id)
    (h : receiveIndex c r s = .ok r') :
    let i := c.slot s.id
    let f := r.receivingFrames i
    let g := { f with frameBuffer := getFramebuffer f }.marked s.index
    ¬c.OutOfBounds s.id ∧ NotLate r f ∧
      (s.index < f.numOriginalPackets → f.originalPacketsReceived + 1 ≤ f.numOriginalPackets) ∧
      (s.id ≤ r.currentlyRenderingId ∧ r' = (r.setFrame (.slot i) g).countUnnecessary ∨
        r.currentlyRenderingId < s.id ∧ TooLarge c s ∧ r' = r.setFrame (.slot i) g ∨
        r.currentlyRenderingId < s.id ∧ ¬TooLarge c s ∧
          ∃ r₁ block dec size recovered, Stored c (r.setFrame (.slot i) g) s r₁ g block dec size recovered ∧
            r' = if (getFramebuffer (r₁.receivingFrames i)).isSome ∧ ¬(getFramebuffer f).isSome
              then (r₁.cache i).countPending else r₁.cache i) := by
  dsimp only
  unfold receiveIndex at h
  cases hready : isReadyToRender c r s.id with
  | error e => simp [hready] at h
  | ok p =>
    obtain ⟨wasAlreadyReady,r₀⟩ := p
    obtain ⟨hbounds,⟨hne,-,-⟩ | ⟨-,hlate,rfl,rfl⟩⟩ := isReadyToRender_cases hready
    · exact absurd hid hne
    · simp only [hready] at h
      unfold RingBuffer.cache at h
      rw [setFrame_slot_self] at h
      generalize hf : r.receivingFrames (c.slot s.id) = f at h hid hlate ⊢
      cases hmark : ({ f with frameBuffer := getFramebuffer f } : FrameData).markReceived s.index with
      | error e => simp [hmark] at h
      | ok g =>
        obtain ⟨rfl,hcount⟩ := markReceived_cases hmark
        simp only [hmark] at h
        generalize hg : ({ f with frameBuffer := getFramebuffer f } : FrameData).marked s.index = g at h ⊢
        have hgid : g.id = s.id := by rw [← hg, ← hid]; rfl
        have hset : (r.setFrame (.slot (c.slot s.id))
            { f with frameBuffer := getFramebuffer f }).setFrame (.slot (c.slot s.id)) g =
            r.setFrame (.slot (c.slot s.id)) g := by
          simp [RingBuffer.setFrame]
        have hcurrent : (r.setFrame (.slot (c.slot s.id)) g).currentlyRenderingId =
            r.currentlyRenderingId := rfl
        rw [hset, hcurrent] at h
        refine ⟨hbounds,hlate,hcount,?_⟩
        by_cases hcur : s.id ≤ r.currentlyRenderingId
        · rw [if_pos hcur] at h
          cases h
          exact Or.inl ⟨hcur,rfl⟩
        · rw [if_neg hcur] at h
          by_cases hlarge : TooLarge c s
          · rw [if_pos hlarge] at h
            cases h
            exact Or.inr (Or.inl ⟨not_le.mp hcur,hlarge,rfl⟩)
          · rw [if_neg hlarge] at h
            refine Or.inr (Or.inr ⟨not_le.mp hcur,hlarge,?_⟩)
            cases hstore : storeSegment c (r.setFrame (.slot (c.slot s.id)) g) s with
            | error e => simp [hstore] at h
            | ok r₁ =>
              simp only [hstore] at h
              obtain ⟨block,dec,size,recovered,hst⟩ := storeSegment_cases hstore
              rw [setFrame_slot_self] at hst
              refine ⟨r₁,block,dec,size,recovered,hst,?_⟩
              cases hready' : isReadyToRender c r₁ s.id with
              | error e => simp [hready'] at h
              | ok p =>
                obtain ⟨ready,r₂⟩ := p
                have hid₁ : (r₁.receivingFrames (c.slot s.id)).id = s.id := by
                  rw [hst.result, setFrame_slot_self]
                  exact hgid
                obtain ⟨-,⟨hne,-,-⟩ | ⟨-,-,rfl,rfl⟩⟩ := isReadyToRender_cases hready'
                · exact absurd hid₁ hne
                · simp only [hready'] at h
                  split_ifs at h with hpending
                  · cases h
                    rw [if_pos (by simpa using hpending)]
                    rfl
                  · cases h
                    rw [if_neg (by simpa using hpending)]

structure Arrival (c : RingConfig) (r : RingBuffer) (s : WhistSegment) : Prop where
  id : (r.receivingFrames (c.slot s.id)).id = s.id
  index : s.index < s.numIndices
  new : (r.receivingFrames (c.slot s.id)).receivedIndices s.index = false
  fecPackets : (r.receivingFrames (c.slot s.id)).numFecPackets = s.numFecIndices
  totalPackets : (r.receivingFrames (c.slot s.id)).numOriginalPackets +
    (r.receivingFrames (c.slot s.id)).numFecPackets = s.numIndices

def RingBuffer.opened (c : RingConfig) (r : RingBuffer) (s : WhistSegment) (dec : Option FecDecoder) :
    RingBuffer :=
  ({ r with packetBufferAllocator := (openedFrame c r s dec).2 }.setFrame (.slot (c.slot s.id))
    (openedFrame c r s dec).1).widen s.id

structure Opening (c : RingConfig) (r r₁ : RingBuffer) (s : WhistSegment) (dec : Option FecDecoder) :
    Prop where
  newer : (r.receivingFrames (c.slot s.id)).id < s.id
  bounds : ¬c.OutOfBounds s.id
  index : s.index < s.numIndices
  fecIndices : s.numFecIndices < s.numIndices
  tidied : Tidied c r r₁
  last : r₁.lastRenderedId = lastAfterRoom c r s.id
  unrendered : r₁.lastRenderedId < s.id
  empty : (r₁.receivingFrames (c.slot s.id)).packetBuffer = none
  decoder : s.numFecIndices > 0 → dec.isSome

theorem receiveInFrame_cases {s : WhistSegment} (hindex : s.index < s.numIndices)
    (h : receiveInFrame c r s = .ok r') :
    Noted r r' ∧ (r.receivingFrames (c.slot s.id)).receivedIndices s.index = true ∨
      ∃ r₁, Noted r r₁ ∧ Arrival c r₁ s ∧ receiveIndex c r₁ s = .ok r' := by
  unfold receiveInFrame at h
  dsimp only at h
  split_ifs at h with hid hfec htotal hreceived
  · cases h
    exact Or.inl ⟨(countArrival_noted c r s).trans (dropDuplicate_noted c _ s),hreceived⟩
  · have hnoted := countArrival_noted c r s
    obtain ⟨n,hn⟩ := hnoted.frames (c.slot s.id)
    refine Or.inr ⟨_,hnoted,⟨?_,hindex,?_,?_,?_⟩,h⟩
    · rw [hn]
      exact hid.symm
    · rw [hn]
      exact Bool.eq_false_iff.mpr hreceived
    · rw [hn]
      exact hfec
    · rw [hn]
      exact htotal

theorem openedFrame_fields (c : RingConfig) (r : RingBuffer) (s : WhistSegment) (dec : Option FecDecoder) :
    (openedFrame c r s dec).1.id = s.id ∧ (openedFrame c r s dec).1.receivedIndices = (fun _ => false) ∧
      (openedFrame c r s dec).1.numOriginalPackets = s.numIndices - s.numFecIndices ∧
      (openedFrame c r s dec).1.numFecPackets = s.numFecIndices ∧
      (openedFrame c r s dec).1.originalPacketsReceived = 0 ∧
      (openedFrame c r s dec).1.frameBuffer = none ∧
      (openedFrame c r s dec).1.successfulFecRecovery = false ∧
      (openedFrame c r s dec).1.frameBufferSize = 0 := by
  unfold openedFrame
  dsimp only
  split_ifs <;> exact ⟨rfl,rfl,rfl,rfl,rfl,rfl,rfl,rfl⟩

theorem receiveSegment_cases {s : WhistSegment} {b : Bool}
    (h : ringBufferReceiveSegment c r s = .ok (b,r')) :
    Tidied c r r' ∨
      (∃ r₁, Noted r r₁ ∧ Arrival c r₁ s ∧ receiveIndex c r₁ s = .ok r') ∨
      ∃ r₁ dec r₂, Opening c r r₁ s dec ∧ Noted (r₁.opened c s dec) r₂ ∧ Arrival c r₂ s ∧
        receiveIndex c r₂ s = .ok r' := by
  unfold ringBufferReceiveSegment at h
  split_ifs at h with hindex hnum hfecnum hsize hbounds hstale hnewer
  · cases h
    exact Or.inl (.single (.note (countUnnecessary_noted r)))
  · unfold receiveNewer at h
    cases hroom : makeRoom c r s.id with
    | error e => simp [hroom] at h
    | ok p =>
      obtain ⟨overflowed,r₁⟩ := p
      obtain ⟨htidied,hempty,hlast⟩ := makeRoom_cases hroom
      simp only [hroom] at h
      split_ifs at h with hold
      · cases h
        exact Or.inl htidied
      · cases hinit : initFrame c r₁ s.id (s.numIndices - s.numFecIndices) s.numFecIndices
            s.prevFrameNumDuplicates with
        | error e => simp [hinit] at h
        | ok r₂ =>
          simp only [hinit] at h
          obtain ⟨r₃,hreceive,hpair⟩ := Run.map_eq_ok h
          cases hpair
          obtain ⟨-,dec,hdec,rfl⟩ := initFrame_cases hinit
          refine Or.inr (Or.inr ⟨r₁,dec,?_⟩)
          rcases receiveInFrame_cases hindex hreceive with ⟨-,hreceived⟩ | ⟨r₄,hnoted,harrival,hlast'⟩
          · have hnew := (openedFrame_fields c r₁ s dec).2.1
            simp [RingBuffer.widen, hnew] at hreceived
          · exact ⟨r₄,⟨hnewer,hbounds,hindex,hfecnum,htidied,hlast,not_le.mp hold,hempty,hdec⟩,
              hnoted,harrival,hlast'⟩
  · obtain ⟨r₁,hreceive,hpair⟩ := Run.map_eq_ok h
    cases hpair
    rcases receiveInFrame_cases hindex hreceive with ⟨hnoted,-⟩ | hcases
    · exact Or.inl (.single (.note hnoted))
    · exact Or.inr (Or.inl hcases)

theorem movedToRendering_cases {r₁ r₂ : RingBuffer} {id : ℤ} {ready : Bool}
    (hframes : r₁.receivingFrames = r.receivingFrames)
    (hcur : r₁.currentlyRenderingId = r.currentlyRenderingId)
    (hready : isReadyToRender c r₁ id = .ok (ready,r₂))
    (h : (if ¬ready then .error RingFatal.notReady
      else if ¬((r₂.receivingFrames (c.slot id)).id = id) then .error RingFatal.renderingId
      else .ok (r₂.moveToRendering (c.slot id) id)) = Except.ok r') :
    ¬c.OutOfBounds id ∧ (r.receivingFrames (c.slot id)).id = id ∧
      NotLate r (r.receivingFrames (c.slot id)) ∧
      (getFramebuffer (r.receivingFrames (c.slot id))).isSome ∧
      r' = (r₁.cache (c.slot id)).moveToRendering (c.slot id) id := by
  rw [← hframes]
  obtain ⟨hbounds,⟨-,rfl,-⟩ | ⟨hid,hlate,rfl,rfl⟩⟩ := isReadyToRender_cases hready
  · simp at h
  · split_ifs at h with hsome
    · cases h
      refine ⟨hbounds,hid,?_,hsome,rfl⟩
      unfold NotLate
      rwa [← hcur]

theorem setRendering_cases {id : ℤ} (h : setRendering c r id = .ok r') :
    let i := c.slot id
    let f := r.receivingFrames i
    r.lastRenderedId < id ∧ ¬c.OutOfBounds id ∧ f.id = id ∧ NotLate r f ∧
      (getFramebuffer f).isSome ∧
      ∃ r₁, (r.currentlyRenderingId = -1 ∧ r₁ = { r with lastRenderedId := id } ∨
          r.currentlyRenderingId ≠ -1 ∧ r.currentlyRenderingFrame.packetBuffer.isSome ∧
            r₁ = { r with lastRenderedId := id }.releaseRendering) ∧
        r' = (r₁.cache i).moveToRendering i id := by
  dsimp only
  unfold setRendering at h
  by_cases hstale : id ≤ r.lastRenderedId
  · simp [hstale] at h
  · rw [if_neg hstale] at h
    dsimp only at h
    by_cases hcur : r.currentlyRenderingId = -1
    · rw [if_neg (not_not.mpr hcur)] at h
      dsimp only at h
      cases hready : isReadyToRender c { r with lastRenderedId := id } id with
      | error e => simp [hready] at h
      | ok p =>
        rw [hready] at h
        obtain ⟨hbounds,hid,hlate,hsome,hr⟩ := movedToRendering_cases rfl rfl hready h
        exact ⟨not_le.mp hstale,hbounds,hid,hlate,hsome,_,Or.inl ⟨hcur,rfl⟩,hr⟩
    · rw [if_pos hcur] at h
      cases hreset : resetFrame c { r with lastRenderedId := id } .rendering with
      | error e => simp [hreset] at h
      | ok r₁ =>
        rw [hreset] at h
        obtain ⟨hblock,rfl⟩ := resetFrame_rendering_cases hreset
        dsimp only at h
        cases hready : isReadyToRender c { r with lastRenderedId := id }.releaseRendering id with
        | error e => simp [hready] at h
        | ok p =>
          rw [hready] at h
          obtain ⟨hbounds,hid,hlate,hsome,hr⟩ := movedToRendering_cases rfl rfl hready h
          exact ⟨not_le.mp hstale,hbounds,hid,hlate,hsome,_,Or.inr ⟨hcur,hblock,rfl⟩,hr⟩

open scoped Classical in
/-- What is left of a frame when the stream skips to `id`. -/
noncomputable def FrameData.skipped (f : FrameData) (id : ℤ) : FrameData :=
  if f.packetBuffer.isSome ∧ f.id < id then f.released else f

theorem skipFrame_cases {id : ℤ} {i : ℕ} (hi : i < c.ringBufferSize) (h : skipFrame c id r i = .ok r') :
    Tidied c r r' ∧
      r'.receivingFrames = Function.update r.receivingFrames i ((r.receivingFrames i).skipped id) ∧
      r'.lastRenderedId = r.lastRenderedId := by
  unfold skipFrame at h
  dsimp only at h
  unfold FrameData.skipped
  split_ifs at h with hskip
  · obtain ⟨hblock,rfl⟩ := resetFrame_slot_cases h
    rw [if_pos hskip]
    exact ⟨.single (.release r hi hblock),rfl,rfl⟩
  · cases h
    rw [if_neg hskip, Function.update_eq_self]
    exact ⟨.refl,rfl,rfl⟩

theorem resetStream_cases {id : ℤ} (h : resetStream c r id = .ok r') :
    1 ≤ id ∧ (id ≤ r.lastRenderedId ∧ r' = r ∨
      r.lastRenderedId < id ∧ ∃ r₁, Tidied c r r₁ ∧ r₁.lastRenderedId = r.lastRenderedId ∧
        (∀ i < c.ringBufferSize, r₁.receivingFrames i = (r.receivingFrames i).skipped id) ∧
        r' = { r₁ with lastRenderedId := id - 1 }) := by
  unfold resetStream at h
  split_ifs at h with hid hold
  · cases h
    exact ⟨hid,Or.inl ⟨hold,rfl⟩⟩
  · cases hrun : Run.run (skipFrame c id) r (List.range c.ringBufferSize) with
    | error e => simp [hrun] at h
    | ok r₁ =>
      rw [hrun] at h
      cases h
      have key : ∀ n ≤ c.ringBufferSize, ∀ r₁, Run.run (skipFrame c id) r (List.range n) = .ok r₁ →
          Tidied c r r₁ ∧ r₁.lastRenderedId = r.lastRenderedId ∧ ∀ i, r₁.receivingFrames i =
            if i < n then (r.receivingFrames i).skipped id else r.receivingFrames i := by
        intro n
        induction n with
        | zero =>
          intro _ r₁ hrun
          cases hrun
          exact ⟨.refl,rfl,fun i => (if_neg (Nat.not_lt_zero i)).symm⟩
        | succ n ih =>
          intro hn r₂ hrun
          rw [List.range_succ] at hrun
          cases hfirst : Run.run (skipFrame c id) r (List.range n) with
          | error e => simp [Run.run_error_append hfirst] at hrun
          | ok r₁ =>
            obtain ⟨htidied,hlast,hframes⟩ := ih (by omega) r₁ hfirst
            rw [Run.run_append _ hfirst, Run.run_singleton] at hrun
            obtain ⟨hstep,hupdate,hlast'⟩ := skipFrame_cases (by omega) hrun
            refine ⟨htidied.trans hstep,hlast'.trans hlast,fun i => ?_⟩
            rw [hupdate]
            by_cases hin : i = n
            · rw [hin, Function.update_self, hframes n, if_neg (lt_irrefl n), if_pos (Nat.lt_succ_self n)]
            · rw [Function.update_of_ne hin, hframes i]
              exact if_congr (by omega) rfl rfl
      obtain ⟨htidied,hlast,hframes⟩ := key _ le_rfl r₁ hrun
      exact ⟨hid,Or.inr ⟨not_le.mp hold,r₁,htidied,hlast,
        fun i hi => (hframes i).trans (if_pos hi),rfl⟩⟩

theorem countReady_tidied {idList : List ℤ} {n : ℤ} (h : countReady c idList r = .ok (n,r')) :
    Tidied c r r' := by
  induction idList generalizing r n with
  | nil =>
    cases h
    exact .refl
  | cons id rest ih =>
    unfold countReady at h
    cases hready : isReadyToRender c r id with
    | error e => simp [hready] at h
    | ok p =>
      simp only [hready] at h
      obtain ⟨⟨m,r₁⟩,hrest,hpair⟩ := Run.map_eq_ok h
      cases hpair
      exact (isReadyToRender_tidied hready).trans (ih hrest)

theorem selfCheck_tidied {drawn : Bool} (h : selfCheck c r drawn = .ok r') : Tidied c r r' := by
  unfold selfCheck at h
  dsimp only at h
  split_ifs at h
  · cases h
    exact .refl
  · cases hcount : countReady c (ids (max r.minId (r.lastRenderedId + 1)) r.maxId) r with
    | error e => simp [hcount] at h
    | ok p =>
      simp only [hcount] at h
      split_ifs at h
      cases h
      exact countReady_tidied hcount
  · cases h
    exact .refl

theorem getNumPending_cases {drawn : Bool} {n : ℤ}
    (h : getNumPendingReadyFrames c r drawn = .ok (n,r')) :
    selfCheck c r drawn = .ok r' ∧ n = r'.numPendingReadyFrames := by
  unfold getNumPendingReadyFrames at h
  cases hcheck : selfCheck c r drawn with
  | error e => simp [hcheck] at h
  | ok r₁ =>
    simp only [hcheck] at h
    split_ifs at h
    cases h
    exact ⟨rfl,rfl⟩

end Whist.Ring
