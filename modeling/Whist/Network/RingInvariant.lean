import Whist.Network.RingSteps

/-! # The invariant of the ring buffer

What holds of every slot, of the IDs and of the blocks in every reachable state, whatever
segments arrive.
-/
namespace Whist.Ring
open Fec Udp Memory

variable {c : RingConfig} {r r' : RingBuffer}

/-- What holds of the frame in slot `i`. -/
structure FrameWf (c : RingConfig) (i : ℕ) (f : FrameData) : Prop where
  id_nonneg : 0 ≤ f.id
  slot : 1 ≤ f.id → c.slot f.id = i
  used : f.packetBuffer.isSome → 1 ≤ f.id
  unused : f.packetBuffer = none → f.fecFrameBuffer = none ∧ f.frameBuffer = none
  cached : f.frameBuffer = none ∨ f.frameBuffer = getFramebuffer f
  counted : f.originalPacketsReceived =
    ((Finset.range f.numOriginalPackets).filter (fun k => f.receivedIndices k = true)).card
  decoder : f.packetBuffer.isSome → 0 < f.numFecPackets → f.fecDecoder.isSome ∧ f.fecFrameBuffer.isSome

def slotBlocks (c : RingConfig) (r : RingBuffer) : Multiset ℕ :=
  ∑ i ∈ Finset.range c.ringBufferSize, ((r.receivingFrames i).blocks : Multiset ℕ)

def heldBlocks (c : RingConfig) (r : RingBuffer) : Multiset ℕ :=
  slotBlocks c r + (r.currentlyRenderingFrame.blocks : Multiset ℕ)

structure RingWf (c : RingConfig) (r : RingBuffer) : Prop where
  frames : ∀ i < c.ringBufferSize, FrameWf c i (r.receivingFrames i)
  rendering : r.currentlyRenderingId = -1 ∧ r.currentlyRenderingFrame.blocks = [] ∨
    1 ≤ r.currentlyRenderingId ∧ r.currentlyRenderingFrame.packetBuffer.isSome
  last : -1 ≤ r.lastRenderedId
  minId : r.minId = -1 ∨ 1 ≤ r.minId
  live : ∀ i < c.ringBufferSize, (r.receivingFrames i).packetBuffer.isSome →
    r.lastRenderedId < (r.receivingFrames i).id ∨ (r.receivingFrames i).id ≤ r.currentlyRenderingId
  range : ∀ i < c.ringBufferSize, (r.receivingFrames i).packetBuffer.isSome →
    1 ≤ r.minId ∧ r.minId ≤ (r.receivingFrames i).id ∧ (r.receivingFrames i).id ≤ r.maxId
  accounted : Accounted r.packetBufferAllocator (heldBlocks c r)

theorem getFramebuffer_eq_none {f : FrameData} (hp : f.packetBuffer = none) (hf : f.fecFrameBuffer = none) :
    getFramebuffer f = none := by
  unfold getFramebuffer
  split_ifs
  · exact hf
  · rfl
  · exact hp
  · rfl

namespace FrameWf
variable {i : ℕ} {f : FrameData}

theorem packetBuffer_isSome (h : FrameWf c i f) (hready : getFramebuffer f ≠ none) :
    f.packetBuffer.isSome := by
  rw [Option.isSome_iff_ne_none]
  exact fun hnone => hready (getFramebuffer_eq_none hnone (h.unused hnone).1)

theorem id_pos (h : FrameWf c i f) (hready : getFramebuffer f ≠ none) : 1 ≤ f.id :=
  h.used (h.packetBuffer_isSome hready)

theorem ready_of_cached (h : FrameWf c i f) (hcached : f.frameBuffer ≠ none) : getFramebuffer f ≠ none := by
  rcases h.cached with hnone | heq
  · exact absurd hnone hcached
  · rwa [← heq]

theorem blocks_eq_nil (h : FrameWf c i f) (hnone : f.packetBuffer = none) : f.blocks = [] := by
  simp [FrameData.blocks, hnone, (h.unused hnone).1]

theorem empty (c : RingConfig) (i : ℕ) : FrameWf c i {} where
  id_nonneg := le_rfl
  slot := fun h => absurd h (by decide)
  used := fun h => absurd h Bool.false_ne_true
  unused := fun _ => ⟨rfl,rfl⟩
  cached := Or.inl rfl
  counted := by simp
  decoder := fun h => absurd h Bool.false_ne_true

theorem note (h : FrameWf c i f) (n : FrameNotes) : FrameWf c i (f.note n) :=
  ⟨h.id_nonneg,h.slot,h.used,h.unused,h.cached,h.counted,h.decoder⟩

theorem cache (h : FrameWf c i f) : FrameWf c i { f with frameBuffer := getFramebuffer f } :=
  ⟨h.id_nonneg,h.slot,h.used,
    fun hnone => ⟨(h.unused hnone).1,getFramebuffer_eq_none hnone (h.unused hnone).1⟩,
    Or.inr rfl,h.counted,h.decoder⟩

theorem released (h : FrameWf c i f) : FrameWf c i f.released :=
  ⟨h.id_nonneg,h.slot,fun hsome => absurd hsome Bool.false_ne_true,fun _ => ⟨rfl,rfl⟩,Or.inl rfl,
    h.counted,fun hsome => absurd hsome Bool.false_ne_true⟩

theorem count_le (h : FrameWf c i f) : f.originalPacketsReceived ≤ f.numOriginalPackets := by
  rw [h.counted]
  exact (Finset.card_filter_le _ _).trans (Finset.card_range _).le

theorem received_of_complete (h : FrameWf c i f)
    (hcomplete : f.originalPacketsReceived = f.numOriginalPackets) {k : ℕ}
    (hk : k < f.numOriginalPackets) : f.receivedIndices k = true := by
  have hcard := h.counted
  rw [hcomplete] at hcard
  have hall : (Finset.range f.numOriginalPackets).filter (fun k => f.receivedIndices k = true) =
      Finset.range f.numOriginalPackets := by
    refine Finset.eq_of_subset_of_card_le (Finset.filter_subset _ _) ?_
    rw [Finset.card_range]
    exact hcard.le
  have hmem : k ∈ (Finset.range f.numOriginalPackets).filter (fun k => f.receivedIndices k = true) := by
    rw [hall]
    exact Finset.mem_range.mpr hk
  exact (Finset.mem_filter.mp hmem).2

theorem count_lt (h : FrameWf c i f) {index : ℕ} (hnew : f.receivedIndices index = false)
    (hindex : index < f.numOriginalPackets) : f.originalPacketsReceived + 1 ≤ f.numOriginalPackets := by
  refine Nat.lt_of_le_of_ne h.count_le (fun hcomplete => ?_)
  rw [h.received_of_complete hcomplete hindex] at hnew
  exact Bool.false_ne_true hnew.symm

theorem counted_marked (h : FrameWf c i f) {index : ℕ} (hnew : f.receivedIndices index = false) :
    (f.marked index).originalPacketsReceived = ((Finset.range f.numOriginalPackets).filter
      (fun k => (f.marked index).receivedIndices k = true)).card := by
  have hfilter : (Finset.range f.numOriginalPackets).filter
      (fun k => (f.marked index).receivedIndices k = true) =
      if index < f.numOriginalPackets then insert index
        ((Finset.range f.numOriginalPackets).filter (fun k => f.receivedIndices k = true))
      else (Finset.range f.numOriginalPackets).filter (fun k => f.receivedIndices k = true) := by
    split_ifs with hindex
    · ext k
      rw [Finset.mem_filter, Finset.mem_insert, Finset.mem_filter]
      by_cases hk : k = index
      · simp [FrameData.marked, hk, hindex]
      · simp [FrameData.marked, hk]
    · refine Finset.filter_congr (fun k hk => ?_)
      have hk' : k ≠ index := fun heq => hindex (heq ▸ Finset.mem_range.mp hk)
      simp [FrameData.marked, hk']
  rw [hfilter]
  unfold FrameData.marked
  dsimp only
  split_ifs with hindex
  · rw [Finset.card_insert_of_notMem (by simp [hnew]), h.counted]
  · rw [h.counted, Nat.add_zero]

theorem ready_marked (h : FrameWf c i f) {index : ℕ} (hnew : f.receivedIndices index = false)
    (hindex : index < f.numOriginalPackets + f.numFecPackets) (hready : getFramebuffer f ≠ none) :
    getFramebuffer (f.marked index) = getFramebuffer f := by
  by_cases hfec : f.numFecPackets > 0
  · have hfec' : (f.marked index).numFecPackets > 0 := hfec
    unfold getFramebuffer
    rw [if_pos hfec, if_pos hfec']
    rfl
  · unfold getFramebuffer at hready
    rw [if_neg hfec] at hready
    split_ifs at hready with hcomplete
    · rw [h.received_of_complete hcomplete (by omega)] at hnew
      cases hnew
    · exact absurd rfl hready

theorem marked (h : FrameWf c i f) {index : ℕ} (hnew : f.receivedIndices index = false)
    (hindex : index < f.numOriginalPackets + f.numFecPackets) : FrameWf c i (f.marked index) where
  id_nonneg := h.id_nonneg
  slot := h.slot
  used := h.used
  unused := h.unused
  cached := by
    rcases h.cached with hnone | heq
    · exact Or.inl hnone
    · by_cases hready : getFramebuffer f = none
      · exact Or.inl (heq.trans hready)
      · exact Or.inr (heq.trans (h.ready_marked hnew hindex hready).symm)
  counted := h.counted_marked hnew
  decoder := h.decoder

theorem stored (h : FrameWf c i f) {dec : Option FecDecoder} (hdec : f.fecDecoder.isSome → dec.isSome)
    (size : ℤ) (recovered : Bool) :
    FrameWf c i { f.stored dec size recovered with
      frameBuffer := getFramebuffer (f.stored dec size recovered) } where
  id_nonneg := h.id_nonneg
  slot := h.slot
  used := h.used
  unused := fun hnone => ⟨(h.unused hnone).1,getFramebuffer_eq_none hnone (h.unused hnone).1⟩
  cached := Or.inr rfl
  counted := h.counted
  decoder := fun hsome hfec => ⟨hdec (h.decoder hsome hfec).1,(h.decoder hsome hfec).2⟩

end FrameWf

theorem openedFrame_wf {s : WhistSegment} {dec : Option FecDecoder} (hid : 1 ≤ s.id)
    (hdec : s.numFecIndices > 0 → dec.isSome) : FrameWf c (c.slot s.id) (openedFrame c r s dec).1 := by
  obtain ⟨hfid,hreceived,-,hfec,hcount,hbuffer,-,-⟩ := openedFrame_fields c r s dec
  have hsome : (openedFrame c r s dec).1.packetBuffer.isSome := by
    unfold openedFrame
    dsimp only
    split_ifs <;> rfl
  refine ⟨by omega,fun _ => by rw [hfid],fun _ => hfid ▸ hid,fun hnone => ?_,Or.inl hbuffer,?_,
    fun _ hpos => ?_⟩
  · rw [hnone] at hsome
    cases hsome
  · rw [hcount, hreceived]
    simp
  · rw [hfec] at hpos
    unfold openedFrame
    dsimp only
    rw [if_pos hpos]
    exact ⟨hdec hpos,rfl⟩

def otherBlocks (c : RingConfig) (r : RingBuffer) (i : ℕ) : Multiset ℕ :=
  ∑ j ∈ (Finset.range c.ringBufferSize).erase i, ((r.receivingFrames j).blocks : Multiset ℕ) +
    (r.currentlyRenderingFrame.blocks : Multiset ℕ)

theorem heldBlocks_eq (r : RingBuffer) {i : ℕ} (hi : i < c.ringBufferSize) :
    heldBlocks c r = ((r.receivingFrames i).blocks : Multiset ℕ) + otherBlocks c r i := by
  unfold heldBlocks slotBlocks otherBlocks
  rw [← Finset.add_sum_erase _ _ (Finset.mem_range.mpr hi), add_assoc]

theorem otherBlocks_update {i : ℕ} {f : FrameData}
    (hframes : r'.receivingFrames = Function.update r.receivingFrames i f)
    (hrendering : r'.currentlyRenderingFrame = r.currentlyRenderingFrame) :
    otherBlocks c r' i = otherBlocks c r i := by
  unfold otherBlocks
  rw [hrendering]
  congr 1
  refine Finset.sum_congr rfl (fun j hj => ?_)
  rw [hframes, Function.update_of_ne (Finset.ne_of_mem_erase hj)]

theorem heldBlocks_update {i : ℕ} {f : FrameData} (hi : i < c.ringBufferSize)
    (hframes : r'.receivingFrames = Function.update r.receivingFrames i f)
    (hrendering : r'.currentlyRenderingFrame = r.currentlyRenderingFrame) :
    heldBlocks c r' = (f.blocks : Multiset ℕ) + otherBlocks c r i := by
  rw [heldBlocks_eq r' hi, otherBlocks_update hframes hrendering, hframes, Function.update_self]

theorem Accounted.freeBuffers {a : BlockAllocator} {held : Multiset ℕ} {f : FrameData}
    (h : Accounted a ((f.blocks : Multiset ℕ) + held)) : Accounted (freeBuffers a f) held := by
  unfold FrameData.blocks at h
  rw [← Multiset.coe_add, add_assoc] at h
  exact Accounted.freeOptional (Accounted.freeOptional h)

theorem Accounted.writesOnly {a a' : BlockAllocator} {held : Multiset ℕ} {blocks : List ℕ}
    (h : Accounted a held) (hw : WritesOnly blocks a a') : Accounted a' held := by
  refine ⟨?_,?_,?_⟩
  · rw [hw.freeBlocks]
    exact h.nodup
  · rw [hw.freeBlocks, hw.numRegions]
    exact h.region
  · rw [hw.freeBlocks, hw.numAllocatedBlocks]
    exact h.count

theorem openedFrame_accounted {held : Multiset ℕ} (s : WhistSegment) (dec : Option FecDecoder)
    (h : Accounted r.packetBufferAllocator held) :
    Accounted (openedFrame c r s dec).2 (((openedFrame c r s dec).1.blocks : Multiset ℕ) + held) := by
  have hfirst := Accounted.allocateBlock h c.contents
  unfold openedFrame
  dsimp only
  split_ifs
  · have hsecond := Accounted.allocateBlock hfirst c.contents
    rw [Multiset.cons_swap] at hsecond
    have hblocks : ∀ a b : ℕ, (([a] ++ [b] : List ℕ) : Multiset ℕ) + held = a ::ₘ b ::ₘ held := by
      intro a b
      simp [← Multiset.cons_coe]
    rw [← hblocks] at hsecond
    exact hsecond
  · simpa [FrameData.blocks, FrameData.initialized] using hfirst

namespace RingWf

theorem update (h : RingWf c r) {i : ℕ} (hi : i < c.ringBufferSize) {f : FrameData}
    (hf : FrameWf c i f) {a : BlockAllocator} {n : ℤ}
    (hbuffer : f.packetBuffer.isSome → f.id = (r.receivingFrames i).id ∧ (r.receivingFrames i).packetBuffer.isSome)
    (ha : Accounted a ((f.blocks : Multiset ℕ) + otherBlocks c r i)) :
    RingWf c { r with
      receivingFrames := Function.update r.receivingFrames i f
      packetBufferAllocator := a
      numPendingReadyFrames := n } where
  frames := by
    intro j hj
    by_cases hji : j = i
    · rw [hji]
      dsimp only
      rwa [Function.update_self]
    · dsimp only
      rw [Function.update_of_ne hji]
      exact h.frames j hj
  rendering := h.rendering
  last := h.last
  minId := h.minId
  live := by
    intro j hj
    by_cases hji : j = i
    · rw [hji]
      dsimp only
      rw [Function.update_self]
      intro hsome
      rw [(hbuffer hsome).1]
      exact h.live i hi (hbuffer hsome).2
    · dsimp only
      rw [Function.update_of_ne hji]
      exact h.live j hj
  range := by
    intro j hj
    by_cases hji : j = i
    · rw [hji]
      dsimp only
      rw [Function.update_self]
      intro hsome
      rw [(hbuffer hsome).1]
      exact h.range i hi (hbuffer hsome).2
    · dsimp only
      rw [Function.update_of_ne hji]
      exact h.range j hj
  accounted := by
    have hheld : heldBlocks c { r with
        receivingFrames := Function.update r.receivingFrames i f
        packetBufferAllocator := a
        numPendingReadyFrames := n } = (f.blocks : Multiset ℕ) + otherBlocks c r i :=
      heldBlocks_update hi rfl rfl
    rw [hheld]
    exact ha

theorem accounted_split (h : RingWf c r) {i : ℕ} (hi : i < c.ringBufferSize) :
    Accounted r.packetBufferAllocator
      (((r.receivingFrames i).blocks : Multiset ℕ) + otherBlocks c r i) :=
  heldBlocks_eq r hi ▸ h.accounted

theorem noted (h : RingWf c r) (hn : Noted r r') : RingWf c r' where
  frames := by
    intro i hi
    obtain ⟨n,hframe⟩ := hn.frames i
    rw [hframe]
    exact (h.frames i hi).note n
  rendering := by
    rw [hn.renderingId, hn.renderingFrame]
    exact h.rendering
  last := by
    rw [hn.last]
    exact h.last
  minId := by
    rw [hn.minId]
    exact h.minId
  live := by
    intro i hi
    obtain ⟨n,hframe⟩ := hn.frames i
    rw [hframe, hn.last, hn.renderingId]
    exact h.live i hi
  range := by
    intro i hi
    obtain ⟨n,hframe⟩ := hn.frames i
    rw [hframe, hn.minId, hn.maxId]
    exact h.range i hi
  accounted := by
    have hheld : heldBlocks c r' = heldBlocks c r := by
      unfold heldBlocks slotBlocks
      rw [hn.renderingFrame]
      congr 1
      refine Finset.sum_congr rfl (fun i _ => ?_)
      obtain ⟨n,hframe⟩ := hn.frames i
      rw [hframe]
      rfl
    rw [hn.allocator, hheld]
    exact h.accounted

theorem tidy (h : RingWf c r) (ht : Tidy c r r') : RingWf c r' := by
  cases ht with
  | note hn => exact h.noted hn
  | cache hi _ => exact h.update hi (h.frames _ hi).cache (fun hsome => ⟨rfl,hsome⟩) (h.accounted_split hi)
  | @release i hi _ =>
    refine h.update hi (h.frames i hi).released (fun hsome => absurd hsome Bool.false_ne_true) ?_
    have hfree := Accounted.freeBuffers (h.accounted_split hi)
    simpa [FrameData.blocks, FrameData.released] using hfree
  | @clear i hi hnone =>
    refine h.update hi (FrameWf.empty c i) (fun hsome => absurd hsome Bool.false_ne_true) ?_
    have hsplit := h.accounted_split hi
    rw [(h.frames i hi).blocks_eq_nil hnone] at hsplit
    exact hsplit
  | restart hempty =>
    have hnone : ∀ i < c.ringBufferSize, ¬(r.receivingFrames i).packetBuffer.isSome := by
      intro i hi
      simp [hempty i hi]
    exact ⟨h.frames,h.rendering,le_rfl,Or.inl rfl,fun i hi hsome => absurd hsome (hnone i hi),
      fun i hi hsome => absurd hsome (hnone i hi),h.accounted⟩

theorem tidied (h : RingWf c r) (ht : Tidied c r r') : RingWf c r' := by
  induction ht with
  | refl => exact h
  | tail _ hstep ih => exact ih.tidy hstep

theorem opened (h : RingWf c r) {s : WhistSegment} {dec : Option FecDecoder} (hid : 1 ≤ s.id)
    (hlast : r.lastRenderedId < s.id) (hempty : (r.receivingFrames (c.slot s.id)).packetBuffer = none)
    (hdec : s.numFecIndices > 0 → dec.isSome) : RingWf c (r.opened c s dec) := by
  have hi := slot_lt c s.id
  have hsplit := h.accounted_split hi
  rw [(h.frames _ hi).blocks_eq_nil hempty, Multiset.coe_nil, Multiset.zero_add] at hsplit
  have hfields := openedFrame_fields c r s dec
  have hframe := @openedFrame_wf c r s dec hid hdec
  have hself : (r.opened c s dec).receivingFrames (c.slot s.id) = (openedFrame c r s dec).1 :=
    setFrame_slot_self ..
  have hother : ∀ j, j ≠ c.slot s.id → (r.opened c s dec).receivingFrames j = r.receivingFrames j :=
    fun j hj => setFrame_slot_of_ne _ _ hj
  refine ⟨fun j hj => ?_,h.rendering,h.last,?_,fun j hj => ?_,fun j hj => ?_,?_⟩
  · by_cases hji : j = c.slot s.id
    · rw [hji, hself]
      exact hframe
    · rw [hother j hji]
      exact h.frames j hj
  · have := h.minId
    dsimp only [RingBuffer.opened, RingBuffer.widen, RingBuffer.setFrame]
    split_ifs <;> omega
  · by_cases hji : j = c.slot s.id
    · rw [hji, hself, hfields.1]
      exact fun _ => Or.inl hlast
    · rw [hother j hji]
      exact h.live j hj
  · have hmin := h.minId
    by_cases hji : j = c.slot s.id
    · rw [hji, hself, hfields.1]
      intro _
      dsimp only [RingBuffer.opened, RingBuffer.widen, RingBuffer.setFrame]
      split_ifs <;> omega
    · rw [hother j hji]
      intro hsome
      have := h.range j hj hsome
      dsimp only [RingBuffer.opened, RingBuffer.widen, RingBuffer.setFrame]
      split_ifs <;> omega
  · have hheld : heldBlocks c (r.opened c s dec) =
        ((openedFrame c r s dec).1.blocks : Multiset ℕ) + otherBlocks c r (c.slot s.id) :=
      heldBlocks_update hi rfl rfl
    rw [hheld]
    exact openedFrame_accounted s dec hsplit

theorem marked (h : RingWf c r) {s : WhistSegment} (ha : Arrival c r s) :
    RingWf c (r.setFrame (.slot (c.slot s.id))
      ({ r.receivingFrames (c.slot s.id) with
        frameBuffer := getFramebuffer (r.receivingFrames (c.slot s.id)) }.marked s.index)) := by
  have hi := slot_lt c s.id
  refine h.update hi ((h.frames _ hi).cache.marked ha.new ?_) (fun hsome => ⟨rfl,hsome⟩)
    (h.accounted_split hi)
  have hindex := ha.index
  rw [← ha.totalPackets] at hindex
  exact hindex

theorem stored (h : RingWf c r) {s : WhistSegment} {block : ℕ} {dec : Option FecDecoder} {size : ℤ}
    {recovered : Bool} (hst : Stored c r s r' (r.receivingFrames (c.slot s.id)) block dec size recovered) :
    RingWf c (r'.cache (c.slot s.id)) := by
  have hi := slot_lt c s.id
  have hwf := (h.frames _ hi).stored hst.decoder size recovered
  have hacc := Accounted.writesOnly (h.accounted_split hi) hst.writes
  generalize hf : r.receivingFrames (c.slot s.id) = f at hst hwf hacc
  have hupdate := @RingWf.update c r h _ hi _ hwf r'.packetBufferAllocator r.numPendingReadyFrames
    (fun hsome => by rw [hf]; exact ⟨rfl,hsome⟩) hacc
  have hcache : r'.cache (c.slot s.id) = { r with
      receivingFrames := Function.update r.receivingFrames (c.slot s.id)
        { f.stored dec size recovered with frameBuffer := getFramebuffer (f.stored dec size recovered) }
      packetBufferAllocator := r'.packetBufferAllocator
      numPendingReadyFrames := r.numPendingReadyFrames } := by
    rw [RingBuffer.cache, hst.result, setFrame_slot_self]
    simp [RingBuffer.setFrame]
  rw [hcache]
  exact hupdate

theorem countPending (h : RingWf c r) : RingWf c r.countPending :=
  ⟨h.frames,h.rendering,h.last,h.minId,h.live,h.range,h.accounted⟩

theorem receiveIndex (h : RingWf c r) {s : WhistSegment} (ha : Arrival c r s)
    (hr : receiveIndex c r s = .ok r') : RingWf c r' := by
  obtain ⟨-,-,-,⟨-,rfl⟩ | ⟨-,-,rfl⟩ | ⟨-,-,r₁,block,dec,size,recovered,hst,rfl⟩⟩ :=
    receiveIndex_cases ha.id hr
  · exact (h.marked ha).noted (countUnnecessary_noted _)
  · exact h.marked ha
  · have hst' : RingWf c (r₁.cache (c.slot s.id)) := by
      refine @RingWf.stored c _ r₁ (h.marked ha) s block dec size recovered ?_
      rw [setFrame_slot_self]
      exact hst
    split_ifs
    · exact hst'.countPending
    · exact hst'

theorem arrival_id_pos (h : RingWf c r) {s : WhistSegment} (hopen : (r.receivingFrames (c.slot s.id)).id < s.id) :
    1 ≤ s.id := by
  have := (h.frames _ (slot_lt c s.id)).id_nonneg
  omega

theorem opening (h : RingWf c r) {r₁ : RingBuffer} {s : WhistSegment} {dec : Option FecDecoder}
    (ho : Opening c r r₁ s dec) : RingWf c (r₁.opened c s dec) :=
  (h.tidied ho.tidied).opened (h.arrival_id_pos ho.newer) ho.unrendered ho.empty ho.decoder

theorem receiveSegment (h : RingWf c r) {s : WhistSegment} {b : Bool}
    (hr : ringBufferReceiveSegment c r s = .ok (b,r')) : RingWf c r' := by
  obtain htidied | ⟨r₁,hnoted,harrival,hlast⟩ | ⟨r₁,dec,r₂,hopening,hnoted,harrival,hlast⟩ :=
    receiveSegment_cases hr
  · exact h.tidied htidied
  · exact (h.noted hnoted).receiveIndex harrival hlast
  · exact ((h.opening hopening).noted hnoted).receiveIndex harrival hlast

theorem setRendering (h : RingWf c r) {id : ℤ} (hr : setRendering c r id = .ok r') : RingWf c r' := by
  obtain ⟨hlast,hbounds,hid,hlate,hsome,r₁,hr₁,rfl⟩ := setRendering_cases hr
  have hi := slot_lt c id
  have hframe := h.frames _ hi
  have hready : getFramebuffer (r.receivingFrames (c.slot id)) ≠ none := Option.isSome_iff_ne_none.mp hsome
  have hpos : 1 ≤ id := hid ▸ hframe.id_pos hready
  -- the frame rendered so far holds nothing any more
  have hfields : r₁.receivingFrames = r.receivingFrames ∧ r₁.minId = r.minId ∧ r₁.maxId = r.maxId ∧
      r₁.lastRenderedId = id ∧ Accounted r₁.packetBufferAllocator (slotBlocks c r) := by
    have hacc := h.accounted
    unfold heldBlocks at hacc
    rcases hr₁ with ⟨hcur,rfl⟩ | ⟨-,-,rfl⟩
    · have hnil := (h.rendering.resolve_right (fun hpos => by rw [hcur] at hpos; omega)).2
      rw [hnil, Multiset.coe_nil, Multiset.add_zero] at hacc
      exact ⟨rfl,rfl,rfl,rfl,hacc⟩
    · rw [add_comm] at hacc
      exact ⟨rfl,rfl,rfl,rfl,Accounted.freeBuffers hacc⟩
  obtain ⟨hframes,hmin,hmax,hlast₁,hacc⟩ := hfields
  generalize hf : r.receivingFrames (c.slot id) = f at hframe hready hsome hid
  have hself : (r₁.cache (c.slot id)).receivingFrames (c.slot id) =
      { f with frameBuffer := getFramebuffer f } := by
    rw [RingBuffer.cache, setFrame_slot_self, hframes, hf]
  have hupdate : ((r₁.cache (c.slot id)).moveToRendering (c.slot id) id).receivingFrames =
      Function.update r.receivingFrames (c.slot id) f.released := by
    unfold RingBuffer.moveToRendering
    rw [hself]
    simp [RingBuffer.cache, RingBuffer.setFrame, hframes, FrameData.released]
  have hmoved : ((r₁.cache (c.slot id)).moveToRendering (c.slot id) id).currentlyRenderingFrame.blocks =
      f.blocks := by
    unfold RingBuffer.moveToRendering
    rw [hself]
    rfl
  refine ⟨fun j hj => ?_,Or.inr ⟨hpos,?_⟩,?_,?_,fun j hj => ?_,fun j hj => ?_,?_⟩
  · rw [hupdate]
    by_cases hji : j = c.slot id
    · rw [hji, Function.update_self]
      exact hframe.released
    · rw [Function.update_of_ne hji]
      exact h.frames j hj
  · unfold RingBuffer.moveToRendering
    rw [hself]
    exact hframe.packetBuffer_isSome hready
  · change -1 ≤ r₁.lastRenderedId
    omega
  · change r₁.minId = -1 ∨ 1 ≤ r₁.minId
    rw [hmin]
    exact h.minId
  · rw [hupdate]
    by_cases hji : j = c.slot id
    · rw [hji, Function.update_self]
      exact fun hnone => absurd hnone Bool.false_ne_true
    · intro _
      change r₁.lastRenderedId < _ ∨ _ ≤ id
      omega
  · rw [hupdate]
    by_cases hji : j = c.slot id
    · rw [hji, Function.update_self]
      exact fun hnone => absurd hnone Bool.false_ne_true
    · rw [Function.update_of_ne hji]
      change _ → 1 ≤ r₁.minId ∧ r₁.minId ≤ _ ∧ _ ≤ r₁.maxId
      rw [hmin, hmax]
      exact h.range j hj
  · -- the blocks move with the frame
    have hheld : heldBlocks c ((r₁.cache (c.slot id)).moveToRendering (c.slot id) id) = slotBlocks c r := by
      unfold heldBlocks slotBlocks
      rw [hmoved, hupdate, ← Finset.add_sum_erase _ _ (Finset.mem_range.mpr hi),
        ← Finset.add_sum_erase _ _ (Finset.mem_range.mpr hi), Function.update_self, hf, add_comm]
      congr 1
      have hnil : f.released.blocks = [] := rfl
      rw [hnil, Multiset.coe_nil, Multiset.zero_add]
      refine Finset.sum_congr rfl (fun j hj => ?_)
      rw [Function.update_of_ne (Finset.ne_of_mem_erase hj)]
    rw [hheld]
    exact hacc

theorem resetStream (h : RingWf c r) {id : ℤ} (hr : resetStream c r id = .ok r') : RingWf c r' := by
  obtain ⟨hid,⟨-,rfl⟩ | ⟨hlast,r₁,htidied,-,hframes,rfl⟩⟩ := resetStream_cases hr
  · exact h
  · have h₁ := h.tidied htidied
    refine ⟨h₁.frames,h₁.rendering,by dsimp only; omega,h₁.minId,fun i hi => ?_,h₁.range,h₁.accounted⟩
    dsimp only
    rw [hframes i hi]
    unfold FrameData.skipped
    split_ifs with hskip
    · exact fun hnone => absurd hnone Bool.false_ne_true
    · intro hsome
      have hge := not_lt.mp (fun hlt => hskip ⟨hsome,hlt⟩)
      omega

theorem init (hr : initRingBuffer c = .ok r) : RingWf c r ∧ (∀ i < c.ringBufferSize, r.receivingFrames i = {}) ∧
    r.currentlyRenderingId = -1 ∧ r.lastRenderedId = -1 ∧ r.minId = -1 ∧ r.maxId = -1 ∧
    r.numPendingReadyFrames = 0 := by
  unfold initRingBuffer at hr
  split_ifs at hr
  have hfresh : (freshRingBuffer c).currentlyRenderingId = -1 ∧
      (freshRingBuffer c).currentlyRenderingFrame = {} ∧
      (freshRingBuffer c).packetBufferAllocator = { maxFrees := c.maxFrees } ∧
      ∀ i, ((freshRingBuffer c).receivingFrames i).packetBuffer = none := ⟨rfl,rfl,rfl,fun _ => rfl⟩
  generalize freshRingBuffer c = r₀ at hr hfresh
  unfold resetRingBuffer at hr
  cases hrun : Run.run (wipeFrame c) r₀ (List.range c.ringBufferSize) with
  | error e => simp [hrun] at hr
  | ok r₁ =>
    rw [hrun] at hr
    cases hr
    have key : ∀ n ≤ c.ringBufferSize, ∀ r₁, Run.run (wipeFrame c) r₀ (List.range n) = .ok r₁ →
        r₁.currentlyRenderingId = -1 ∧ r₁.currentlyRenderingFrame = {} ∧
        r₁.packetBufferAllocator = { maxFrees := c.maxFrees } ∧
        (∀ i, (r₁.receivingFrames i).packetBuffer = none) ∧ ∀ i < n, r₁.receivingFrames i = {} := by
      intro n
      induction n with
      | zero =>
        intro _ r₁ hrun
        cases hrun
        exact ⟨hfresh.1,hfresh.2.1,hfresh.2.2.1,hfresh.2.2.2,
          fun i hi => absurd hi (Nat.not_lt_zero i)⟩
      | succ n ih =>
        intro hn r₂ hrun
        rw [List.range_succ] at hrun
        cases hfirst : Run.run (wipeFrame c) r₀ (List.range n) with
        | error e => simp [Run.run_error_append hfirst] at hrun
        | ok r₁ =>
          obtain ⟨hcur,hframe,halloc,hnone,hempty⟩ := ih (by omega) r₁ hfirst
          rw [Run.run_append _ hfirst, Run.run_singleton] at hrun
          have hwipe : wipeFrame c r₁ n = .ok (r₁.setFrame (.slot n) {}) := by
            simp [wipeFrame, hnone n]
          rw [hwipe] at hrun
          cases hrun
          refine ⟨hcur,hframe,halloc,fun i => ?_,fun i hi => ?_⟩
          · by_cases hin : i = n
            · rw [hin, setFrame_slot_self]
            · rw [setFrame_slot_of_ne _ _ hin]
              exact hnone i
          · by_cases hin : i = n
            · rw [hin, setFrame_slot_self]
            · rw [setFrame_slot_of_ne _ _ hin]
              exact hempty i (by omega)
    obtain ⟨hcur,hframe,halloc,-,hempty⟩ := key _ le_rfl r₁ hrun
    have hheld : heldBlocks c { r₁ with
        maxId := -1, minId := -1, framesReceived := 0, lastRenderedId := -1, numPendingReadyFrames := 0 } = 0 := by
      unfold heldBlocks slotBlocks
      dsimp only
      rw [hframe, Finset.sum_eq_zero]
      · rfl
      · intro i hi
        rw [hempty i (Finset.mem_range.mp hi)]
        rfl
    have hnone : ∀ i < c.ringBufferSize, ¬(r₁.receivingFrames i).packetBuffer.isSome := by
      intro i hi
      simp [hempty i hi]
    refine ⟨⟨fun i hi => ?_,Or.inl ⟨hcur,?_⟩,le_rfl,Or.inl rfl,fun i hi hsome => absurd hsome (hnone i hi),
      fun i hi hsome => absurd hsome (hnone i hi),?_⟩,hempty,hcur,rfl,rfl,rfl,rfl⟩
    · dsimp only
      rw [hempty i hi]
      exact FrameWf.empty c i
    · dsimp only
      rw [hframe]
      rfl
    · rw [hheld]
      dsimp only
      rw [halloc]
      exact ⟨by simp,by simp,by simp⟩

theorem step (h : RingWf c r) {call : RingCall} (hr : ringStep c r call = .ok r') : RingWf c r' := by
  cases call with
  | receive s =>
    obtain ⟨⟨b,r₁⟩,hreceive,rfl⟩ := Run.map_eq_ok hr
    exact h.receiveSegment hreceive
  | isReady id =>
    obtain ⟨⟨b,r₁⟩,hready,rfl⟩ := Run.map_eq_ok hr
    exact h.tidied (isReadyToRender_tidied hready)
  | setRendering id => exact h.setRendering hr
  | resetStream id => exact h.resetStream hr
  | getNumPending drawn =>
    obtain ⟨⟨n,r₁⟩,hpending,rfl⟩ := Run.map_eq_ok hr
    exact h.tidied (selfCheck_tidied (getNumPending_cases hpending).1)

theorem run (h : RingWf c r) {calls : List RingCall} (hr : Run.run (ringStep c) r calls = .ok r') :
    RingWf c r' :=
  Run.run_invariant (P := fun _ => True) (fun _ _ _ h _ hstep => h.step hstep) (fun _ _ => trivial) h hr

theorem resetFrame_ok (h : RingWf c r) {i : ℕ} (hi : i < c.ringBufferSize)
    (hsome : (r.receivingFrames i).packetBuffer.isSome) : ∃ r', resetFrame c r (.slot i) = .ok r' := by
  have hframe := h.frames i hi
  refine resetFrame_slot_ok hsome (fun _ => ?_)
  have hid := hframe.used hsome
  have hslot := hframe.slot hid
  have hcast := slot_cast (c := c) (not_outOfBounds (c := c) (show 0 ≤ (r.receivingFrames i).id by omega))
  rw [hcast, hslot]

theorem wipeFrame_ok (h : RingWf c r) {i : ℕ} (hi : i < c.ringBufferSize) :
    ∃ r', wipeFrame c r i = .ok r' ∧ RingWf c r' := by
  have key : ∃ r', wipeFrame c r i = .ok r' := by
    unfold wipeFrame
    by_cases hsome : (r.receivingFrames i).packetBuffer.isSome
    · obtain ⟨r₁,hreset⟩ := h.resetFrame_ok hi hsome
      rw [if_pos hsome, hreset]
      exact ⟨_,rfl⟩
    · rw [if_neg hsome]
      exact ⟨_,rfl⟩
  obtain ⟨r',hwipe⟩ := key
  exact ⟨r',hwipe,h.tidied (wipeFrame_cases hi hwipe).1⟩

theorem resetRingBuffer_ok (h : RingWf c r) : ∃ r', resetRingBuffer c r = .ok r' := by
  have hrun := @Run.run_range _ _ (fun _ => RingWf c) (wipeFrame c) c.ringBufferSize r h
    (fun i hi r hr => hr.wipeFrame_ok hi)
  obtain ⟨r₁,hrun,-⟩ := hrun
  unfold resetRingBuffer
  rw [hrun]
  exact ⟨_,rfl⟩

end RingWf

theorem ringRun_wf {calls : List RingCall} (hr : ringRun c calls = .ok r) : RingWf c r := by
  unfold ringRun at hr
  cases hinit : initRingBuffer c with
  | error e => simp [hinit] at hr
  | ok r₀ =>
    simp only [hinit] at hr
    exact (RingWf.init hinit).1.run hr

end Whist.Ring
