import Whist.Network.PendingFrames

/-! # The assertions of the ring buffer -/
namespace Whist.Ring
open Fec Udp Memory

def FromFec (e : RingFatal) : Prop := ∃ f, e = .fec f

def Passes {α : Type} (x : Except RingFatal α) : Prop := ∀ e, x = .error e → FromFec e

/-- How many indices each frame has, and how many of them are redundant. -/
structure FramePlan where
  numIndices : ℤ → ℕ
  numFecIndices : ℤ → ℕ
  bounded : ∀ id, 1 ≤ id → numIndices id ≤ maxPackets
  redundant : ∀ id, 1 ≤ id → numFecIndices id < numIndices id

structure WellFormed (p : FramePlan) (s : WhistSegment) : Prop where
  id : 1 ≤ s.id
  numIndices : s.numIndices = p.numIndices s.id
  numFecIndices : s.numFecIndices = p.numFecIndices s.id
  index : s.index < s.numIndices
  size : s.segmentSize ≤ maxPacketSegmentSize

/-- The calls a client makes: it renders only what it found ready. -/
def Allowed (p : FramePlan) (c : RingConfig) (r : RingBuffer) : RingCall → Prop
  | .receive s => WellFormed p s
  | .isReady _ => True
  | .setRendering id => r.lastRenderedId < id ∧ ∃ r', isReadyToRender c r id = .ok (true,r')
  | .resetStream id => 1 ≤ id
  | .getNumPending _ => False

/-- A new index of the frame in the slot: rendering has not passed the frame when it was
complete, and there is a packet buffer if the payload is to be copied. -/
def Storable (c : RingConfig) (r : RingBuffer) (s : WhistSegment) : Prop :=
  let f := r.receivingFrames (c.slot s.id)
  NotLate r f ∧ (s.id ≤ r.currentlyRenderingId ∨ TooLarge c s ∨ f.packetBuffer.isSome)

/-- The calls that meet no old frame they would fail at. -/
def Careful (c : RingConfig) (r : RingBuffer) : RingCall → Prop
  | .receive s =>
    let f := r.receivingFrames (c.slot s.id)
    (f.id = s.id → f.receivedIndices s.index = false → Storable c r s) ∧
      (f.id < s.id → Overflows c r s.id → ∀ i < c.ringBufferSize, NotLate r (r.receivingFrames i))
  | .isReady id => ¬c.OutOfBounds id ∧
      ((r.receivingFrames (c.slot id)).id = id → NotLate r (r.receivingFrames (c.slot id)))
  | _ => True

instance (r : RingBuffer) (f : FrameData) : Decidable (NotLate r f) :=
  inferInstanceAs (Decidable (f.id ≤ r.currentlyRenderingId → f.frameBuffer = none ∧ getFramebuffer f = none))

instance (c : RingConfig) (r : RingBuffer) (id : ℤ) : Decidable (Overflows c r id) :=
  inferInstanceAs (Decidable (_ ∧ _))

instance (c : RingConfig) (r : RingBuffer) (s : WhistSegment) : Decidable (Storable c r s) :=
  inferInstanceAs (Decidable (NotLate r _ ∧ (_ ∨ TooLarge c s ∨ _)))

instance (c : RingConfig) (r : RingBuffer) : (call : RingCall) → Decidable (Careful c r call)
  | .receive s => inferInstanceAs (Decidable ((_ → _ → Storable c r s) ∧
      (_ → Overflows c r s.id → ∀ i < c.ringBufferSize, NotLate r (r.receivingFrames i))))
  | .isReady id => inferInstanceAs (Decidable (¬c.OutOfBounds id ∧ (_ → NotLate r _)))
  | .setRendering _ => isTrue trivial
  | .resetStream _ => isTrue trivial
  | .getNumPending _ => isTrue trivial

variable {p : FramePlan} {c : RingConfig} {r r' : RingBuffer}

theorem passes_ok {α : Type} (a : α) : Passes (.ok a) := fun e he => by cases he

theorem passes_error {α : Type} {e : RingFatal} : Passes (.error e : Except RingFatal α) ↔ FromFec e :=
  ⟨fun h => h e rfl,fun h _ he => Except.error.inj he ▸ h⟩

theorem passes_map {α β : Type} {x : Except RingFatal α} {f : α → β} : Passes (x.map f) ↔ Passes x := by
  cases x with
  | error e => exact passes_error.trans passes_error.symm
  | ok a => exact iff_of_true (passes_ok _) (passes_ok _)

theorem isReadyToRender_error {id : ℤ} {e : RingFatal} (h : isReadyToRender c r id = .error e) :
    ¬FromFec e := by
  rintro ⟨f,rfl⟩
  unfold isReadyToRender at h
  dsimp only at h
  split_ifs at h <;> cases h

theorem isReadyToRender_passes_iff (id : ℤ) : Passes (isReadyToRender c r id) ↔ ¬c.OutOfBounds id ∧
    ((r.receivingFrames (c.slot id)).id = id → NotLate r (r.receivingFrames (c.slot id))) := by
  cases hready : isReadyToRender c r id with
  | ok x =>
    obtain ⟨hbounds,⟨hne,-,-⟩ | ⟨-,hlate,-,-⟩⟩ := isReadyToRender_cases hready
    · exact iff_of_true (passes_ok _) ⟨hbounds,fun heq => absurd heq hne⟩
    · exact iff_of_true (passes_ok _) ⟨hbounds,fun _ => hlate⟩
  | error e =>
    refine iff_of_false (fun h => isReadyToRender_error hready (h e rfl)) (fun h => ?_)
    obtain ⟨b,r₁,hok⟩ := isReadyToRender_ok h.1 h.2
    rw [hready] at hok
    cases hok

theorem notLate_cache_iff {i j : ℕ} (hwf : FrameWf c j (r.receivingFrames j)) :
    NotLate (r.cache i) ((r.cache i).receivingFrames j) ↔ NotLate r (r.receivingFrames j) := by
  by_cases hij : j = i
  · subst hij
    rw [RingBuffer.cache, setFrame_slot_self]
    refine forall_congr' fun _ => ⟨fun h => ⟨?_,h.2⟩,fun h => ⟨h.2,h.2⟩⟩
    by_contra hcached
    exact hwf.ready_of_cached hcached h.2
  · rw [RingBuffer.cache, setFrame_slot_of_ne _ _ hij]
    rfl

theorem logDropped_cases {i : ℕ} (hwf : RingWf c r) (hi : i < c.ringBufferSize) :
    NotLate r (r.receivingFrames i) ∧ (∃ r', logDropped c r i = .ok r' ∧ (r' = r ∨ ∃ j, r' = r.cache j)) ∨
      ¬NotLate r (r.receivingFrames i) ∧ ∃ e, logDropped c r i = .error e ∧ ¬FromFec e := by
  have hframe := hwf.frames i hi
  have hnonneg := hframe.id_nonneg
  unfold logDropped
  dsimp only
  rw [if_pos (by omega)]
  have hpasses := @isReadyToRender_passes_iff c r (r.receivingFrames i).id
  by_cases hlate : NotLate r (r.receivingFrames i)
  · refine Or.inl ⟨hlate,?_⟩
    have hslot : (r.receivingFrames (c.slot (r.receivingFrames i).id)).id = (r.receivingFrames i).id →
        NotLate r (r.receivingFrames (c.slot (r.receivingFrames i).id)) := by
      intro hid
      by_cases hpos : 1 ≤ (r.receivingFrames i).id
      · rwa [hframe.slot hpos]
      · -- an empty frame has no buffer
        intro _
        have hother := hwf.frames _ (slot_lt c (r.receivingFrames i).id)
        have hnone : (r.receivingFrames (c.slot (r.receivingFrames i).id)).packetBuffer = none := by
          by_contra hsome
          exact hpos (hid ▸ hother.used (Option.isSome_iff_ne_none.mpr hsome))
        obtain ⟨hfec,hcached⟩ := hother.unused hnone
        exact ⟨hcached,getFramebuffer_eq_none hnone hfec⟩
    obtain ⟨b,r₁,hready⟩ := isReadyToRender_ok (not_outOfBounds hnonneg) hslot
    refine ⟨r₁,by rw [hready]; rfl,?_⟩
    obtain ⟨-,⟨-,-,hsame⟩ | ⟨-,-,-,hcache⟩⟩ := isReadyToRender_cases hready
    · exact Or.inl hsame
    · exact Or.inr ⟨_,hcache⟩
  · refine Or.inr ⟨hlate,?_⟩
    have hbuffer : (r.receivingFrames i).packetBuffer.isSome := by
      rw [NotLate, Classical.not_imp] at hlate
      by_contra hnone
      rw [Option.not_isSome_iff_eq_none] at hnone
      obtain ⟨hfec,hcached⟩ := hframe.unused hnone
      exact hlate.2 ⟨hcached,getFramebuffer_eq_none hnone hfec⟩
    have hslot := hframe.slot (hframe.used hbuffer)
    rw [hslot] at hpasses
    cases hready : isReadyToRender c r (r.receivingFrames i).id with
    | ok x =>
      rw [hready] at hpasses
      exact absurd ((hpasses.mp (passes_ok _)).2 rfl) hlate
    | error e => exact ⟨e,rfl,isReadyToRender_error hready⟩

theorem logDropped_run {slots : List ℕ} (hwf : RingWf c r) (hslots : ∀ i ∈ slots, i < c.ringBufferSize) :
    (∀ i ∈ slots, NotLate r (r.receivingFrames i)) ∧
        (∃ r', Run.run (logDropped c) r slots = .ok r' ∧ RingWf c r') ∨
      ¬(∀ i ∈ slots, NotLate r (r.receivingFrames i)) ∧
        ∃ e, Run.run (logDropped c) r slots = .error e ∧ ¬FromFec e := by
  induction slots generalizing r with
  | nil => exact Or.inl ⟨fun i hi => absurd hi List.not_mem_nil,r,rfl,hwf⟩
  | cons i slots ih =>
    have hi := hslots i List.mem_cons_self
    have hrest := fun j hj => hslots j (List.mem_cons_of_mem i hj)
    rcases logDropped_cases hwf hi with ⟨hlate,r₁,hlog,hr₁⟩ | ⟨hlate,e,hlog,he⟩
    · have hsame : ∀ j < c.ringBufferSize,
          (NotLate r₁ (r₁.receivingFrames j) ↔ NotLate r (r.receivingFrames j)) := by
        intro j hj
        rcases hr₁ with rfl | ⟨k,rfl⟩
        · exact Iff.rfl
        · exact notLate_cache_iff (hwf.frames j hj)
      rw [Run.run_cons slots hlog]
      have hall : (∀ j ∈ slots, NotLate r₁ (r₁.receivingFrames j)) ↔
          ∀ j ∈ i :: slots, NotLate r (r.receivingFrames j) := by
        rw [List.forall_mem_cons]
        refine ⟨fun h => ⟨hlate,fun j hj => (hsame j (hrest j hj)).mp (h j hj)⟩,
          fun h j hj => (hsame j (hrest j hj)).mpr (h.2 j hj)⟩
      rw [← hall]
      exact ih (hwf.tidied (logDropped_tidied hlog)) hrest
    · refine Or.inr ⟨fun h => hlate (h i List.mem_cons_self),e,?_,he⟩
      rw [Run.run, hlog]

theorem makeRoom_passes (hwf : RingWf c r) (id : ℤ) :
    (Overflows c r id → ∀ i < c.ringBufferSize, NotLate r (r.receivingFrames i)) ∧
        (∃ x, makeRoom c r id = .ok x) ∨
      ¬(Overflows c r id → ∀ i < c.ringBufferSize, NotLate r (r.receivingFrames i)) ∧
        ∃ e, makeRoom c r id = .error e ∧ ¬FromFec e := by
  unfold makeRoom Overflows
  dsimp only
  by_cases hnone : (r.receivingFrames (c.slot id)).packetBuffer = none
  · rw [if_pos (Option.isNone_iff_eq_none.mpr hnone)]
    exact Or.inl ⟨fun hover => by simp [hnone] at hover,_,rfl⟩
  have hsome := Option.isSome_iff_ne_none.mpr hnone
  rw [if_neg (by simpa using hnone)]
  by_cases hover : (r.receivingFrames (c.slot id)).id > r.currentlyRenderingId
  · rw [if_pos hover]
    rcases logDropped_run hwf (fun i hi => List.mem_range.mp hi) with ⟨hall,r₁,hrun,hwf₁⟩ | ⟨hlate,e,hrun,he⟩
    · obtain ⟨r₂,hreset⟩ := hwf₁.resetRingBuffer_ok
      rw [hrun]
      exact Or.inl ⟨fun _ i hi => hall i (List.mem_range.mpr hi),_,congrArg (Except.map _) hreset⟩
    · rw [hrun]
      exact Or.inr ⟨fun h => hlate fun i hi => h ⟨hsome,hover⟩ i (List.mem_range.mp hi),e,rfl,he⟩
  · rw [if_neg hover]
    obtain ⟨r₁,hreset⟩ := hwf.resetFrame_ok (slot_lt c id) hsome
    exact Or.inl ⟨fun h => absurd h.2 hover,_,congrArg (Except.map _) hreset⟩

theorem decodeFrame_passes {i index : ℕ} {segment : Block}
    (h : (r.receivingFrames i).fecDecoder.isSome) : Passes (decodeFrame c r i index segment) := by
  obtain ⟨dec,hdec⟩ := Option.isSome_iff_exists.mp h
  unfold decodeFrame
  simp only [hdec]
  cases hregister : fecDecoderRegisterBuffer dec index segment with
  | error e => exact passes_error.mpr ⟨e,rfl⟩
  | ok dec₁ =>
    dsimp only
    cases hdecode : fecGetDecodedBuffer c.cm dec₁ ((r.receivingFrames i).fecFrameBuffer.map r.memory) with
    | error e => exact passes_error.mpr ⟨e,rfl⟩
    | ok out => exact passes_ok _

theorem storeSegment_passes {s : WhistSegment}
    (hblock : (r.receivingFrames (c.slot s.id)).packetBuffer.isSome)
    (hdec : 0 < (r.receivingFrames (c.slot s.id)).numFecPackets →
      (r.receivingFrames (c.slot s.id)).fecDecoder.isSome) : Passes (storeSegment c r s) := by
  obtain ⟨block,hblock⟩ := Option.isSome_iff_exists.mp hblock
  unfold storeSegment
  simp only [hblock]
  split_ifs with hfec
  · refine decodeFrame_passes ?_
    rw [setFrame_slot_self, FrameData.addSize, if_neg (by omega)]
    exact hdec hfec.1
  · exact passes_ok _

theorem markReceived_ok {i index : ℕ} {f : FrameData} (hf : FrameWf c i f)
    (hnew : f.receivedIndices index = false) : f.markReceived index = .ok (f.marked index) := by
  unfold FrameData.markReceived FrameData.marked
  dsimp only
  by_cases hindex : index < f.numOriginalPackets
  · rw [if_pos hindex, if_neg (not_not.mpr (hf.count_lt hnew hindex)), if_pos hindex, if_pos hindex]
    rfl
  · rw [if_neg hindex, if_neg hindex, if_neg hindex]
    rfl

/-- A new index makes an assertion of the ring buffer fail exactly if it is not storable. -/
theorem receiveIndex_passes_iff {s : WhistSegment} (hwf : RingWf c r) (ha : Arrival c r s) (hid : 0 ≤ s.id) :
    Passes (receiveIndex c r s) ↔ Storable c r s := by
  have hframe := hwf.frames _ (slot_lt c s.id)
  have hbounds := not_outOfBounds (c := c) hid
  have hpasses := @isReadyToRender_passes_iff c r s.id
  unfold receiveIndex Storable
  cases hready : isReadyToRender c r s.id with
  | error e =>
    refine iff_of_false (fun h => isReadyToRender_error hready (h e rfl)) (fun h => ?_)
    rw [hready, passes_error] at hpasses
    exact isReadyToRender_error hready (hpasses.mpr ⟨hbounds,fun _ => h.1⟩)
  | ok x =>
    obtain ⟨wasAlreadyReady,r₀⟩ := x
    obtain ⟨-,⟨hne,-,-⟩ | ⟨-,hlate,-,rfl⟩⟩ := isReadyToRender_cases hready
    · exact absurd ha.id hne
    dsimp only
    have hcached : (r.cache (c.slot s.id)).receivingFrames (c.slot s.id) =
        { r.receivingFrames (c.slot s.id) with
          frameBuffer := getFramebuffer (r.receivingFrames (c.slot s.id)) } := setFrame_slot_self ..
    rw [hcached, markReceived_ok hframe.cache ha.new]
    dsimp only
    generalize hg : (r.cache (c.slot s.id)).setFrame (.slot (c.slot s.id))
      (({ r.receivingFrames (c.slot s.id) with
        frameBuffer := getFramebuffer (r.receivingFrames (c.slot s.id)) } : FrameData).marked s.index) = r₁
    have hid₁ : r₁.currentlyRenderingId = r.currentlyRenderingId := by
      rw [← hg]
      rfl
    have hframe₁ : r₁.receivingFrames (c.slot s.id) = ({ r.receivingFrames (c.slot s.id) with
        frameBuffer := getFramebuffer (r.receivingFrames (c.slot s.id)) } : FrameData).marked s.index := by
      rw [← hg]
      exact setFrame_slot_self ..
    rw [hid₁]
    by_cases hpassed : s.id ≤ r.currentlyRenderingId
    · rw [if_pos hpassed]
      exact iff_of_true (passes_ok _) ⟨hlate,Or.inl hpassed⟩
    by_cases hlarge : TooLarge c s
    · rw [if_neg hpassed, if_pos hlarge]
      exact iff_of_true (passes_ok _) ⟨hlate,Or.inr (Or.inl hlarge)⟩
    rw [if_neg hpassed, if_neg hlarge]
    have hbuffer : (r₁.receivingFrames (c.slot s.id)).packetBuffer =
        (r.receivingFrames (c.slot s.id)).packetBuffer := by
      rw [hframe₁]
      rfl
    cases hstore : storeSegment c r₁ s with
    | error e =>
      dsimp only
      rw [passes_error]
      constructor
      · rintro ⟨f,rfl⟩
        refine ⟨hlate,Or.inr (Or.inr ?_)⟩
        by_contra hnone
        rw [Option.not_isSome_iff_eq_none, ← hbuffer] at hnone
        rw [storeSegment] at hstore
        simp only [hnone] at hstore
        cases hstore
      · rintro ⟨-,hstorable⟩
        have hsome := (hstorable.resolve_left hpassed).resolve_left hlarge
        have hdec : 0 < (r₁.receivingFrames (c.slot s.id)).numFecPackets →
            (r₁.receivingFrames (c.slot s.id)).fecDecoder.isSome := by
          rw [hframe₁]
          exact fun hfec => (hframe.decoder hsome hfec).1
        exact storeSegment_passes (hbuffer ▸ hsome) hdec e hstore
    | ok r₂ =>
      obtain ⟨block,dec,size,recovered,hst⟩ := storeSegment_cases hstore
      have hsome : (r.receivingFrames (c.slot s.id)).packetBuffer.isSome := by
        rw [← hbuffer, hst.packetBuffer]
        rfl
      have hid₂ : r₂.currentlyRenderingId = r.currentlyRenderingId := by
        rw [← hid₁, hst.result]
        rfl
      have hready₂ : NotLate r₂ (r₂.receivingFrames (c.slot s.id)) := by
        intro hle
        have hself : (r₂.receivingFrames (c.slot s.id)).id = s.id := by
          rw [hst.result, setFrame_slot_self, hframe₁]
          exact ha.id
        rw [hself, hid₂] at hle
        exact absurd hle hpassed
      obtain ⟨b,r₃,hready₃⟩ := isReadyToRender_ok hbounds fun _ => hready₂
      simp only [hready₃]
      refine iff_of_true ?_ ⟨hlate,Or.inr (Or.inr hsome)⟩
      split_ifs <;> exact passes_ok _

def FollowsPlan (p : FramePlan) (f : FrameData) : Prop :=
  1 ≤ f.id → f.numFecPackets = p.numFecIndices f.id ∧
    f.numOriginalPackets + f.numFecPackets = p.numIndices f.id

def Planned (p : FramePlan) (c : RingConfig) (r : RingBuffer) : Prop :=
  ∀ i < c.ringBufferSize, FollowsPlan p (r.receivingFrames i)

theorem notLate_note {f : FrameData} (hr : r'.currentlyRenderingId = r.currentlyRenderingId) (n : FrameNotes) :
    NotLate r' (f.note n) ↔ NotLate r f := by
  unfold NotLate
  rw [hr]
  rfl

theorem receiveInFrame_passes_iff {s : WhistSegment} (hwf : RingWf c r) (hs : WellFormed p s)
    (hid : (r.receivingFrames (c.slot s.id)).id = s.id)
    (hfollows : FollowsPlan p (r.receivingFrames (c.slot s.id))) :
    Passes (receiveInFrame c r s) ↔
      ((r.receivingFrames (c.slot s.id)).receivedIndices s.index = false → Storable c r s) := by
  have hpos := hs.id
  obtain ⟨hfec,htotal⟩ := hfollows (hid.ge.trans' hpos)
  rw [hid, ← hs.numFecIndices] at hfec
  rw [hid, ← hs.numIndices] at htotal
  unfold receiveInFrame
  dsimp only
  rw [if_neg (not_not.mpr hid.symm), if_neg (not_not.mpr hfec), if_neg (not_not.mpr htotal)]
  by_cases hreceived : (r.receivingFrames (c.slot s.id)).receivedIndices s.index = true
  · rw [if_pos hreceived]
    exact iff_of_true (passes_ok _) fun hnew => by simp [hreceived] at hnew
  rw [if_neg hreceived]
  have hnew := Bool.eq_false_iff.mpr hreceived
  have hnoted := countArrival_noted c r s
  obtain ⟨n,hn⟩ := hnoted.frames (c.slot s.id)
  have harrival : Arrival c (countArrival c r s) s := by
    constructor
    · rw [hn]
      exact hid
    · exact hs.index
    · rw [hn]
      exact hnew
    · rw [hn]
      exact hfec
    · rw [hn]
      exact htotal
  rw [receiveIndex_passes_iff (hwf.noted hnoted) harrival (by omega)]
  have hsame : Storable c (countArrival c r s) s ↔ Storable c r s := by
    unfold Storable
    dsimp only
    rw [hn, hnoted.renderingId, notLate_note hnoted.renderingId]
    rfl
  rw [hsame]
  exact ⟨fun h _ => h,fun h => h hnew⟩

theorem openedFrame_storable {s : WhistSegment} (dec : Option FecDecoder)
    (hfec : s.numFecIndices < s.numIndices) : Storable c (r.opened c s dec) s := by
  have hself : (r.opened c s dec).receivingFrames (c.slot s.id) = (openedFrame c r s dec).1 :=
    setFrame_slot_self ..
  obtain ⟨-,-,horiginal,hfecPackets,hcount,hbuffer,hrecovered,-⟩ := openedFrame_fields c r s dec
  unfold Storable
  dsimp only
  rw [hself]
  refine ⟨fun _ => ⟨hbuffer,?_⟩,Or.inr (Or.inr ?_)⟩
  · unfold getFramebuffer
    rw [hrecovered, hcount, horiginal, if_neg Bool.false_ne_true, if_neg (show 0 ≠ _ by omega)]
    split_ifs <;> rfl
  · unfold openedFrame
    dsimp only
    split_ifs <;> rfl

theorem initFrame_passes {id : ℤ} {numOriginal numFec duplicates : ℕ}
    (h : (r.receivingFrames (c.slot id)).packetBuffer = none) :
    Passes (initFrame c r id numOriginal numFec duplicates) := by
  unfold initFrame
  dsimp only
  rw [if_neg (not_not.mpr h)]
  split_ifs
  · cases hdec : createFecDecoder numOriginal numFec maxPacketSegmentSize with
    | error e => exact passes_error.mpr ⟨e,rfl⟩
    | ok dec => exact passes_ok _
  · exact passes_ok _

theorem receiveNewer_passes_iff {s : WhistSegment} (hwf : RingWf c r) (hs : WellFormed p s) :
    Passes (receiveNewer c r s) ↔
      (Overflows c r s.id → ∀ i < c.ringBufferSize, NotLate r (r.receivingFrames i)) := by
  unfold receiveNewer
  rcases makeRoom_passes hwf s.id with ⟨hall,⟨overflowed,r₁⟩,hroom⟩ | ⟨hlate,e,hroom,he⟩
  · refine iff_of_true ?_ hall
    obtain ⟨htidied,hempty,hlast⟩ := makeRoom_cases hroom
    rw [hroom]
    dsimp only
    by_cases hold : s.id ≤ r₁.lastRenderedId
    · rw [if_pos hold]
      exact passes_ok _
    rw [if_neg hold]
    have hinit := @initFrame_passes c r₁ s.id (s.numIndices - s.numFecIndices) s.numFecIndices
      s.prevFrameNumDuplicates hempty
    cases hopen : initFrame c r₁ s.id (s.numIndices - s.numFecIndices) s.numFecIndices
        s.prevFrameNumDuplicates with
    | error e => exact passes_error.mpr (hinit e hopen)
    | ok r₂ =>
      obtain ⟨-,dec,hdec,rfl⟩ := initFrame_cases hopen
      have hwf₂ := (hwf.tidied htidied).opened hs.id (not_le.mp hold) hempty hdec
      have hself : (r₁.opened c s dec).receivingFrames (c.slot s.id) = (openedFrame c r₁ s dec).1 :=
        setFrame_slot_self ..
      obtain ⟨hid,-,horiginal,hfecPackets,-⟩ := openedFrame_fields c r₁ s dec
      have hfec : s.numFecIndices < s.numIndices := by
        rw [hs.numFecIndices, hs.numIndices]
        exact p.redundant _ hs.id
      have hfollows : FollowsPlan p ((r₁.opened c s dec).receivingFrames (c.slot s.id)) := by
        intro _
        rw [hself, hid, hfecPackets, horiginal, ← hs.numFecIndices, ← hs.numIndices]
        exact ⟨rfl,by omega⟩
      refine passes_map.mpr ?_
      refine (receiveInFrame_passes_iff hwf₂ hs ?_ hfollows).mpr fun _ => openedFrame_storable dec hfec
      rw [hself, hid]
  · refine iff_of_false (fun h => he (h e ?_)) hlate
    rw [hroom]

theorem ringBufferReceiveSegment_passes_iff {s : WhistSegment} (hwf : RingWf c r) (hp : Planned p c r)
    (hs : WellFormed p s) : Passes (ringBufferReceiveSegment c r s) ↔ Careful c r (.receive s) := by
  have hpos := hs.id
  have hbounded := p.bounded s.id hpos
  have hredundant := p.redundant s.id hpos
  rw [← hs.numIndices] at hbounded hredundant
  rw [← hs.numFecIndices] at hredundant
  unfold ringBufferReceiveSegment Careful
  dsimp only
  rw [if_neg (not_not.mpr hs.index), if_neg (not_not.mpr hbounded), if_neg (not_not.mpr hredundant),
    if_neg (not_not.mpr hs.size), if_neg (not_outOfBounds (by omega))]
  rcases lt_trichotomy s.id (r.receivingFrames (c.slot s.id)).id with hlt | heq | hgt
  · rw [if_pos hlt]
    exact iff_of_true (passes_ok _) ⟨fun h => by omega,fun h => by omega⟩
  · rw [if_neg (by omega), if_neg (by omega), passes_map,
      receiveInFrame_passes_iff hwf hs heq.symm (hp _ (slot_lt c s.id))]
    exact ⟨fun h => ⟨fun _ => h,fun h => by omega⟩,fun h => h.1 heq.symm⟩
  · rw [if_neg (by omega), if_pos hgt, receiveNewer_passes_iff hwf hs]
    exact ⟨fun h => ⟨fun h => by omega,fun _ => h⟩,fun h => h.2 hgt⟩

theorem setRendering_ok {id : ℤ} (hwf : RingWf c r) (hlast : r.lastRenderedId < id)
    (hready : isReadyToRender c r id = .ok (true,r')) : ∃ r₁, setRendering c r id = .ok r₁ := by
  obtain ⟨hbounds,⟨-,hfalse,-⟩ | ⟨hid,hlate,hsome,-⟩⟩ := isReadyToRender_cases hready
  · cases hfalse
  have hmove : ∀ r₁ : RingBuffer, r₁.receivingFrames = r.receivingFrames →
      r₁.currentlyRenderingId = r.currentlyRenderingId → ∃ r₂, isReadyToRender c r₁ id = .ok (true,r₂) ∧
        (r₂.receivingFrames (c.slot id)).id = id := by
    intro r₁ hframes hcur
    have hlate₁ : NotLate r₁ (r₁.receivingFrames (c.slot id)) := by
      unfold NotLate
      rw [hframes, hcur]
      exact hlate
    obtain ⟨b,r₂,hok⟩ := isReadyToRender_ok hbounds fun _ => hlate₁
    obtain ⟨-,⟨hne,-,-⟩ | ⟨-,-,rfl,rfl⟩⟩ := isReadyToRender_cases hok
    · exact absurd (hframes ▸ hid) hne
    · refine ⟨r₁.cache (c.slot id),?_,?_⟩
      · rw [hok, hframes, ← hsome]
      · rw [RingBuffer.cache, setFrame_slot_self, hframes]
        exact hid
  unfold setRendering
  rw [if_neg (by omega)]
  dsimp only
  by_cases hcur : r.currentlyRenderingId = -1
  · rw [if_neg (not_not.mpr hcur)]
    obtain ⟨r₂,hok,hid₂⟩ := hmove { r with lastRenderedId := id } rfl rfl
    dsimp only
    rw [hok]
    dsimp only
    rw [if_neg (by decide), if_neg (not_not.mpr hid₂)]
    exact ⟨_,rfl⟩
  · rw [if_pos hcur]
    have hsome' : r.currentlyRenderingFrame.packetBuffer.isSome :=
      (hwf.rendering.resolve_left fun h => hcur h.1).2
    have hreset := @resetFrame_rendering_ok c { r with lastRenderedId := id } hsome'
    obtain ⟨r₂,hok,hid₂⟩ := hmove { r with lastRenderedId := id }.releaseRendering rfl rfl
    rw [hreset]
    dsimp only
    rw [hok]
    dsimp only
    rw [if_neg (by decide), if_neg (not_not.mpr hid₂)]
    exact ⟨_,rfl⟩

theorem resetStream_ok {id : ℤ} (hwf : RingWf c r) (hid : 1 ≤ id) :
    ∃ r', resetStream c r id = .ok r' := by
  have hskip : ∀ i < c.ringBufferSize, ∀ r, RingWf c r →
      ∃ r', skipFrame c id r i = .ok r' ∧ RingWf c r' := by
    intro i hi r hr
    have hok : ∃ r', skipFrame c id r i = .ok r' := by
      unfold skipFrame
      dsimp only
      split_ifs with hold
      · exact hr.resetFrame_ok hi hold.1
      · exact ⟨r,rfl⟩
    obtain ⟨r',hok⟩ := hok
    exact ⟨r',hok,hr.tidied (skipFrame_cases hi hok).1⟩
  obtain ⟨r₁,hrun,-⟩ := @Run.run_range _ _ (fun _ => RingWf c) (skipFrame c id) c.ringBufferSize r hwf hskip
  unfold resetStream
  rw [if_neg (not_not.mpr hid)]
  split_ifs
  · exact ⟨r,rfl⟩
  · rw [hrun]
    exact ⟨_,rfl⟩

theorem ringStep_passes_iff {call : RingCall} (hwf : RingWf c r) (hp : Planned p c r)
    (ha : Allowed p c r call) : Passes (ringStep c r call) ↔ Careful c r call := by
  cases call with
  | receive s => exact passes_map.trans (ringBufferReceiveSegment_passes_iff hwf hp ha)
  | isReady id => exact passes_map.trans (isReadyToRender_passes_iff id)
  | setRendering id =>
    obtain ⟨hlast,r₁,hready⟩ := ha
    obtain ⟨r₂,hok⟩ := setRendering_ok hwf hlast hready
    exact iff_of_true (fun e he => by rw [ringStep, hok] at he; cases he) trivial
  | resetStream id =>
    obtain ⟨r₁,hok⟩ := resetStream_ok hwf ha
    exact iff_of_true (fun e he => by rw [ringStep, hok] at he; cases he) trivial
  | getNumPending drawn => exact ha.elim

theorem FollowsPlan.empty (p : FramePlan) : FollowsPlan p {} := fun h => absurd h (by decide)

namespace Planned

theorem update (h : Planned p c r) {i : ℕ} {f : FrameData}
    (hframes : r'.receivingFrames = Function.update r.receivingFrames i f) (hf : FollowsPlan p f) :
    Planned p c r' := by
  intro j hj
  rw [hframes]
  by_cases hji : j = i
  · rw [hji, Function.update_self]
    exact hf
  · rw [Function.update_of_ne hji]
    exact h j hj

theorem tidied (h : Planned p c r) (ht : Tidied c r r') : Planned p c r' := by
  induction ht with
  | refl => exact h
  | tail _ hstep ih =>
    cases hstep with
    | note hn =>
      intro i hi
      obtain ⟨n,hframe⟩ := hn.frames i
      rw [hframe]
      exact ih i hi
    | cache hi _ => exact ih.update rfl (ih _ hi)
    | release hi _ => exact ih.update rfl (ih _ hi)
    | clear _ _ => exact ih.update rfl (FollowsPlan.empty p)
    | restart _ => exact ih

theorem noted (h : Planned p c r) (hn : Noted r r') : Planned p c r' := h.tidied (.single (.note hn))

theorem receiveIndex (h : Planned p c r) {s : WhistSegment} (ha : Arrival c r s)
    (hr : receiveIndex c r s = .ok r') : Planned p c r' := by
  have hi := slot_lt c s.id
  have hmarked : Planned p c (r.setFrame (.slot (c.slot s.id))
      ({ r.receivingFrames (c.slot s.id) with
        frameBuffer := getFramebuffer (r.receivingFrames (c.slot s.id)) }.marked s.index)) :=
    h.update rfl (h _ hi)
  obtain ⟨-,-,-,⟨-,rfl⟩ | ⟨-,-,rfl⟩ | ⟨-,-,r₁,block,dec,size,recovered,hst,rfl⟩⟩ :=
    receiveIndex_cases ha.id hr
  · exact hmarked
  · exact hmarked
  · have hstored : Planned p c r₁ := by
      rw [hst.result]
      exact hmarked.update rfl (h _ hi)
    have hcached : Planned p c (r₁.cache (c.slot s.id)) := hstored.update rfl (hstored _ hi)
    split_ifs
    · exact hcached
    · exact hcached

theorem receiveSegment (h : Planned p c r) {s : WhistSegment} {b : Bool} (hs : WellFormed p s)
    (hr : ringBufferReceiveSegment c r s = .ok (b,r')) : Planned p c r' := by
  obtain htidied | ⟨r₁,hnoted,harrival,hlast⟩ | ⟨r₁,dec,r₂,hopening,hnoted,harrival,hlast⟩ :=
    receiveSegment_cases hr
  · exact h.tidied htidied
  · exact (h.noted hnoted).receiveIndex harrival hlast
  · have hopened : Planned p c (r₁.opened c s dec) := by
      refine (h.tidied hopening.tidied).update rfl fun _ => ?_
      obtain ⟨hid,-,horiginal,hfecPackets,-⟩ := openedFrame_fields c r₁ s dec
      have hfec := hopening.fecIndices
      rw [hid, hfecPackets, horiginal, ← hs.numFecIndices, ← hs.numIndices]
      exact ⟨rfl,by omega⟩
    exact (hopened.noted hnoted).receiveIndex harrival hlast

theorem setRendering (h : Planned p c r) {id : ℤ} (hr : setRendering c r id = .ok r') : Planned p c r' := by
  obtain ⟨-,-,-,-,-,r₁,hr₁,rfl⟩ := setRendering_cases hr
  have hframes : r₁.receivingFrames = r.receivingFrames := by
    rcases hr₁ with ⟨-,rfl⟩ | ⟨-,-,rfl⟩ <;> rfl
  have h₁ : Planned p c r₁ := fun i hi => hframes ▸ h i hi
  have hi := slot_lt c id
  have hcached : Planned p c (r₁.cache (c.slot id)) := h₁.update rfl (h₁ _ hi)
  exact hcached.update rfl (hcached _ hi)

theorem resetStream (h : Planned p c r) {id : ℤ} (hr : resetStream c r id = .ok r') : Planned p c r' := by
  obtain ⟨-,⟨-,rfl⟩ | ⟨-,r₁,htidied,-,-,rfl⟩⟩ := resetStream_cases hr
  · exact h
  · have h₁ : Planned p c r₁ := h.tidied htidied
    exact h₁

theorem step (h : Planned p c r) {call : RingCall} (ha : Allowed p c r call)
    (hr : ringStep c r call = .ok r') : Planned p c r' := by
  cases call with
  | receive s =>
    obtain ⟨⟨b,r₁⟩,hreceive,rfl⟩ := Run.map_eq_ok hr
    exact h.receiveSegment ha hreceive
  | isReady id =>
    obtain ⟨⟨b,r₁⟩,hready,rfl⟩ := Run.map_eq_ok hr
    exact h.tidied (isReadyToRender_tidied hready)
  | setRendering id => exact h.setRendering hr
  | resetStream id => exact h.resetStream hr
  | getNumPending drawn => exact ha.elim

end Planned

theorem initRingBuffer_ok (h : c.ringBufferSize ≤ maxRingBufferSize) : ∃ r, initRingBuffer c = .ok r := by
  obtain ⟨r₁,hrun,-⟩ := @Run.run_range _ RingFatal
    (fun _ r => ∀ i, (r.receivingFrames i).packetBuffer = none) (wipeFrame c) c.ringBufferSize
    (freshRingBuffer c) (fun _ => rfl) (by
      intro i _ r hr
      refine ⟨r.setFrame (.slot i) {},by simp [wipeFrame, hr i],fun j => ?_⟩
      by_cases hji : j = i
      · rw [hji, setFrame_slot_self]
      · rw [setFrame_slot_of_ne _ _ hji]
        exact hr j)
  unfold initRingBuffer resetRingBuffer
  rw [if_neg (not_not.mpr h), hrun]
  exact ⟨_,rfl⟩

theorem run_passes_iff {calls : List RingCall} (hwf : RingWf c r) (hp : Planned p c r)
    (ha : Run.EachOk (ringStep c) (Allowed p c) r calls) :
    Passes (Run.run (ringStep c) r calls) ↔ Run.EachOk (ringStep c) (Careful c) r calls := by
  induction calls generalizing r with
  | nil => exact iff_of_true (passes_ok _) trivial
  | cons call calls ih =>
    have hstep := ringStep_passes_iff hwf hp ha.1
    rw [Run.EachOk, ← hstep]
    cases hcall : ringStep c r call with
    | error e =>
      rw [Run.run, hcall]
      exact ⟨fun h => ⟨passes_error.mpr (passes_error.mp h),fun t ht => by cases ht⟩,
        fun h => passes_error.mpr (passes_error.mp h.1)⟩
    | ok r₁ =>
      rw [Run.run_cons calls hcall, ih (hwf.step hcall) (hp.step ha.1 hcall) (ha.2 r₁ hcall)]
      exact ⟨fun h => ⟨passes_ok _,fun t ht => Except.ok.inj ht ▸ h⟩,fun h => h.2 r₁ rfl⟩

def pairPlan : FramePlan where
  numIndices := fun _ => 2
  numFecIndices := fun _ => 0
  bounded := fun _ _ => by decide
  redundant := fun _ _ => by decide

def pairSegment (index : ℕ) : WhistSegment := ⟨.audio,1,index,2,0,3,0,false,false,[1,2,3]⟩

theorem pairSegment_wellFormed {index : ℕ} (h : index < 2) : WellFormed pairPlan (pairSegment index) :=
  ⟨le_refl (1 : ℤ),rfl,rfl,h,(by decide : 3 ≤ maxPacketSegmentSize)⟩

def fatal {α : Type} : Except RingFatal α → Option RingFatal
  | .ok _ => none
  | .error e => some e

end Whist.Ring
