import Whist.Network.BlockOwnership
import Whist.Network.PendingFrames
import Whist.Network.PlainSend
import Whist.Network.RingLedger

/-! # Putting a frame together -/
namespace Whist.Ring
open Fec Udp Memory

variable {c : RingConfig} {r r' : RingBuffer} {packet : Block} {id : ℤ} {arrived : ℕ → Prop}

def Fits (c : RingConfig) (packet : Block) (i : ℕ) : Prop :=
  i * maxPacketSegmentSize + (Bytes.segment maxPacketSegmentSize packet i).length < largestFrameSize c.maxFrameSize

theorem tooLarge_iff {s : WhistSegment} (h : Part packet id s) : TooLarge c s ↔ ¬Fits c packet s.index := by
  unfold TooLarge Fits
  rw [h.segmentSize, not_lt]

def Placed (c : RingConfig) (packet : Block) (f : FrameData) (i : ℕ) : Prop :=
  f.receivedIndices i = true ∧ Fits c packet i

instance (c : RingConfig) (packet : Block) (i : ℕ) : Decidable (Fits c packet i) := Nat.decLt ..

instance (c : RingConfig) (packet : Block) (f : FrameData) : DecidablePred (Placed c packet f) :=
  fun _ => instDecidableAnd

structure Assembled (c : RingConfig) (packet : Block) (arrived : ℕ → Prop) (memory : ℕ → ℕ → UInt8)
    (f : FrameData) : Prop where
  plain : f.numFecPackets = 0
  total : f.numOriginalPackets = numParts packet
  arrived : ∀ i, f.receivedIndices i = true → arrived i
  size : f.frameBufferSize = ∑ i ∈ (Finset.range (numParts packet)).filter (Placed c packet f),
    ((Bytes.segment maxPacketSegmentSize packet i).length : ℤ)
  stored : ∀ b, f.packetBuffer = some b → Bytes.Holds maxPacketSegmentSize packet (Placed c packet f) (memory b)

def Assembling (c : RingConfig) (packet : Block) (id : ℤ) (arrived : ℕ → Prop) (r : RingBuffer) : Prop :=
  (r.receivingFrames (c.slot id)).id = id → (r.receivingFrames (c.slot id)).packetBuffer.isSome →
    r.currentlyRenderingId < id → Assembled c packet arrived r.memory (r.receivingFrames (c.slot id))

structure SamePacket (f g : FrameData) : Prop where
  id : g.id = f.id
  packetBuffer : g.packetBuffer = f.packetBuffer
  numFecPackets : g.numFecPackets = f.numFecPackets
  numOriginalPackets : g.numOriginalPackets = f.numOriginalPackets
  receivedIndices : g.receivedIndices = f.receivedIndices
  frameBufferSize : g.frameBufferSize = f.frameBufferSize

theorem SamePacket.refl (f : FrameData) : SamePacket f f := ⟨rfl,rfl,rfl,rfl,rfl,rfl⟩

theorem Assembled.same {f g : FrameData} {memory memory' : ℕ → ℕ → UInt8}
    (h : Assembled c packet arrived memory f) (hsame : SamePacket f g)
    (hmemory : ∀ b, f.packetBuffer = some b → memory' b = memory b) : Assembled c packet arrived memory' g := by
  have hplaced : Placed c packet g = Placed c packet f := by
    unfold Placed
    rw [hsame.receivedIndices]
  refine ⟨hsame.numFecPackets.trans h.plain,hsame.numOriginalPackets.trans h.total,?_,?_,?_⟩
  · rw [hsame.receivedIndices]
    exact h.arrived
  · rw [hsame.frameBufferSize, h.size]
    exact Finset.sum_congr (Finset.filter_congr (fun i _ => by rw [hplaced])) (fun _ _ => rfl)
  · intro b hb
    rw [hsame.packetBuffer] at hb
    rw [hplaced, hmemory b hb]
    exact h.stored b hb

namespace Assembling

theorem same (h : Assembling c packet id arrived r)
    (hframe : (r'.receivingFrames (c.slot id)).packetBuffer = none ∨
      SamePacket (r.receivingFrames (c.slot id)) (r'.receivingFrames (c.slot id)))
    (hrendering : r.currentlyRenderingId ≤ r'.currentlyRenderingId)
    (hmemory : ∀ b, (r.receivingFrames (c.slot id)).packetBuffer = some b → r'.memory b = r.memory b) :
    Assembling c packet id arrived r' := by
  intro hid hsome hcur
  rcases hframe with hnone | hsame
  · rw [hnone] at hsome
    cases hsome
  · have hf := h (hsame.id.symm.trans hid) (hsame.packetBuffer ▸ hsome) (hrendering.trans_lt hcur)
    exact hf.same hsame hmemory

theorem tidied (h : Assembling c packet id arrived r) (ht : Tidied c r r') : Assembling c packet id arrived r' := by
  induction ht with
  | refl => exact h
  | @tail r₁ r₂ _ hstep ih =>
    have hmemory : ∀ b, (r₁.receivingFrames (c.slot id)).packetBuffer = some b → r₂.memory b = r₁.memory b :=
      fun b _ => congrFun (Tidied.memory (.single hstep)) b
    have hrendering := (Tidied.rendering (.single hstep)).1.ge
    refine ih.same ?_ hrendering hmemory
    cases hstep with
    | note hn =>
      obtain ⟨n,hframe⟩ := hn.frames (c.slot id)
      rw [hframe]
      exact Or.inr ⟨rfl,rfl,rfl,rfl,rfl,rfl⟩
    | @cache i _ _ =>
      right
      by_cases hi : c.slot id = i
      · rw [hi, RingBuffer.cache, setFrame_slot_self]
        exact ⟨rfl,rfl,rfl,rfl,rfl,rfl⟩
      · rw [RingBuffer.cache, setFrame_slot_of_ne _ _ hi]
        exact .refl _
    | @release i _ _ =>
      by_cases hi : c.slot id = i
      · left
        simp [RingBuffer.release, hi, FrameData.released]
      · right
        rw [RingBuffer.release]
        dsimp only
        rw [Function.update_of_ne hi]
        exact .refl _
    | @clear i _ _ =>
      by_cases hi : c.slot id = i
      · left
        rw [hi, setFrame_slot_self]
      · right
        rw [setFrame_slot_of_ne _ _ hi]
        exact .refl _
    | restart _ => exact Or.inr (.refl _)

theorem mem_heldBlocks {i b : ℕ} (hi : i < c.ringBufferSize) (hb : (r.receivingFrames i).packetBuffer = some b) :
    b ∈ heldBlocks c r := by
  rw [heldBlocks_eq r hi]
  exact Multiset.mem_add.mpr (Or.inl (by simp [FrameData.blocks, hb]))

theorem mem_otherBlocks {i j b : ℕ} (hj : j < c.ringBufferSize) (hne : j ≠ i)
    (hb : (r.receivingFrames j).packetBuffer = some b) : b ∈ otherBlocks c r i := by
  unfold otherBlocks
  refine Multiset.mem_add.mpr (Or.inl (Multiset.mem_sum.mpr ⟨j,?_,?_⟩))
  · exact Finset.mem_erase.mpr ⟨hne,Finset.mem_range.mpr hj⟩
  · simp [FrameData.blocks, hb]

theorem opened (h : Assembling c packet id arrived r) (hwf : RingWf c r) {s : WhistSegment}
    (dec : Option FecDecoder) (hpart : s.id = id → Part packet id s) :
    Assembling c packet id arrived (r.opened c s dec) := by
  have hself : (r.opened c s dec).receivingFrames (c.slot s.id) = (openedFrame c r s dec).1 :=
    setFrame_slot_self ..
  obtain ⟨hfid,hreceived,horiginal,hfec,-,-,-,hsize⟩ := openedFrame_fields c r s dec
  by_cases hslot : c.slot id = c.slot s.id
  · intro hid _ _
    rw [hslot, hself] at hid ⊢
    have hs := hpart (hfid.symm.trans hid)
    have hnone : ∀ i, ¬Placed c packet (openedFrame c r s dec).1 i := by
      intro i hi
      rw [Placed, hreceived] at hi
      exact Bool.false_ne_true hi.1
    refine ⟨hfec.trans hs.numFecIndices,?_,?_,?_,fun b _ => .none _ _ hnone _⟩
    · rw [horiginal, hs.numIndices, hs.numFecIndices, Nat.sub_zero]
    · intro i hi
      rw [hreceived] at hi
      exact absurd hi Bool.false_ne_true
    · rw [hsize, Finset.filter_false_of_mem (fun i _ => hnone i), Finset.sum_empty]
  · refine h.same (Or.inr ?_) le_rfl (fun b hb => opened_memory hwf s dec (mem_heldBlocks (slot_lt c id) hb))
    rw [show (r.opened c s dec).receivingFrames (c.slot id) = r.receivingFrames (c.slot id) from
      setFrame_slot_of_ne _ _ hslot]
    exact .refl _

end Assembling

theorem sum_placed_marked {f g : FrameData} {i : ℕ} (hi : i < numParts packet) (hnew : f.receivedIndices i = false)
    (hg : g.receivedIndices = Function.update f.receivedIndices i true) :
    ∑ j ∈ (Finset.range (numParts packet)).filter (Placed c packet g),
        ((Bytes.segment maxPacketSegmentSize packet j).length : ℤ) =
      ∑ j ∈ (Finset.range (numParts packet)).filter (Placed c packet f),
        ((Bytes.segment maxPacketSegmentSize packet j).length : ℤ) +
      if Fits c packet i then ((Bytes.segment maxPacketSegmentSize packet i).length : ℤ) else 0 := by
  have hplaced : ∀ j, j ≠ i → (Placed c packet g j ↔ Placed c packet f j) := by
    intro j hj
    rw [Placed, Placed, hg, Function.update_of_ne hj]
  have hold : ¬Placed c packet f i := fun h => by
    rw [Placed, hnew] at h
    exact Bool.false_ne_true h.1
  split_ifs with hfits
  · have hfilter : (Finset.range (numParts packet)).filter (Placed c packet g) =
        insert i ((Finset.range (numParts packet)).filter (Placed c packet f)) := by
      ext j
      rw [Finset.mem_insert, Finset.mem_filter, Finset.mem_filter, Finset.mem_range]
      by_cases hj : j = i
      · have hgi : Placed c packet g i := ⟨by rw [hg, Function.update_self],hfits⟩
        rw [hj]
        exact iff_of_true ⟨hi,hgi⟩ (Or.inl rfl)
      · rw [hplaced j hj, or_iff_right hj]
    rw [hfilter, Finset.sum_insert (fun hmem => hold (Finset.mem_filter.mp hmem).2), add_comm]
  · rw [add_zero]
    refine Finset.sum_congr (Finset.filter_congr (fun j _ => ?_)) (fun _ _ => rfl)
    by_cases hj : j = i
    · rw [hj]
      exact iff_of_false (fun h => hfits h.2) hold
    · exact hplaced j hj

namespace Assembled
variable {f g : FrameData} {memory memory' : ℕ → ℕ → UInt8} {s : WhistSegment}

theorem arrived_marked (h : Assembled c packet arrived memory f) (harrived : arrived s.index)
    (hg : g.receivedIndices = Function.update f.receivedIndices s.index true) :
    ∀ i, g.receivedIndices i = true → arrived i := by
  intro i hi
  by_cases hne : i = s.index
  · rw [hne]
    exact harrived
  · rw [hg, Function.update_of_ne hne] at hi
    exact h.arrived i hi

theorem placed_of_ne {i index : ℕ} (hg : g.receivedIndices = Function.update f.receivedIndices index true)
    (hi : Placed c packet g i) (hne : i ≠ index) : Placed c packet f i := by
  rw [Placed, hg, Function.update_of_ne hne] at hi
  exact hi

theorem drop (h : Assembled c packet arrived memory f) (hs : Part packet id s) (harrived : arrived s.index)
    (hnew : f.receivedIndices s.index = false) (hfits : ¬Fits c packet s.index)
    (hsame : SamePacket { f with receivedIndices := Function.update f.receivedIndices s.index true } g) :
    Assembled c packet arrived memory g := by
  have hmarked : g.receivedIndices = Function.update f.receivedIndices s.index true := hsame.receivedIndices
  have hsum := @sum_placed_marked c packet f g s.index hs.index hnew hmarked
  rw [if_neg hfits, add_zero] at hsum
  refine ⟨hsame.numFecPackets.trans h.plain,hsame.numOriginalPackets.trans h.total,
    h.arrived_marked harrived hmarked,?_,fun b hb => ?_⟩
  · rw [hsum, ← h.size]
    exact hsame.frameBufferSize
  · exact (h.stored b (hsame.packetBuffer.symm.trans hb)).mono
      fun i hi => placed_of_ne hmarked hi (fun heq => hfits (heq ▸ hi.2))

theorem store (h : Assembled c packet arrived memory f) (hs : Part packet id s) (harrived : arrived s.index)
    (hnew : f.receivedIndices s.index = false) (hfits : Fits c packet s.index)
    (hsame : SamePacket { f with
      receivedIndices := Function.update f.receivedIndices s.index true
      frameBufferSize := f.frameBufferSize + s.segmentSize } g)
    (hmemory : ∀ b, f.packetBuffer = some b → memory' b = Bytes.writeAt (memory b)
      (s.index * maxPacketSegmentSize) (s.segmentData.take s.segmentSize)) :
    Assembled c packet arrived memory' g := by
  have hmarked : g.receivedIndices = Function.update f.receivedIndices s.index true := hsame.receivedIndices
  have hsum := @sum_placed_marked c packet f g s.index hs.index hnew hmarked
  rw [if_pos hfits] at hsum
  refine ⟨hsame.numFecPackets.trans h.plain,hsame.numOriginalPackets.trans h.total,
    h.arrived_marked harrived hmarked,?_,fun b hb => ?_⟩
  · rw [hsum, ← h.size, ← hs.segmentSize]
    exact hsame.frameBufferSize
  · have hb' := hsame.packetBuffer.symm.trans hb
    rw [hmemory b hb', hs.segmentData]
    exact (h.stored b hb').write fun i hi hne => placed_of_ne hmarked hi hne

end Assembled

namespace Assembling

theorem receiveOther (h : Assembling c packet id arrived r) (hwf : RingWf c r) {s : WhistSegment}
    (ha : Arrival c r s) (hslot : c.slot id ≠ c.slot s.id) (hr : Ring.receiveIndex c r s = .ok r') :
    Assembling c packet id arrived r' := by
  have hwf' := hwf.marked ha
  obtain ⟨-,-,-,hcases⟩ := receiveIndex_cases ha.id hr
  generalize FrameData.marked _ s.index = g at hwf' hcases
  have hmarked : Assembling c packet id arrived (r.setFrame (.slot (c.slot s.id)) g) := by
    refine h.same (Or.inr ?_) le_rfl (fun _ _ => rfl)
    rw [setFrame_slot_of_ne _ _ hslot]
    exact .refl _
  have hself := setFrame_slot_self r (c.slot s.id) g
  generalize r.setFrame (.slot (c.slot s.id)) g = r₀ at hwf' hcases hmarked hself
  rcases hcases with ⟨-,rfl⟩ | ⟨-,-,rfl⟩ | ⟨-,-,r₁,block,dec,size,recovered,hst,rfl⟩
  · exact hmarked.tidied (.single (.note (countUnnecessary_noted _)))
  · exact hmarked
  · rw [← hself] at hst
    have hcached : Assembling c packet id arrived (r₁.cache (c.slot s.id)) := by
      refine hmarked.same (Or.inr ?_) ?_ (fun b hb => ?_)
      · rw [RingBuffer.cache, setFrame_slot_of_ne _ _ hslot, hst.result, setFrame_slot_of_ne _ _ hslot]
        exact .refl _
      · rw [hst.result]
        exact le_rfl
      · exact hst.memory_of_other hwf' (mem_otherBlocks (slot_lt c id) hslot hb)
    split_ifs
    · exact hcached
    · exact hcached

theorem receiveIndex (h : Assembling c packet id arrived r) (hwf : RingWf c r) {s : WhistSegment}
    (ha : Arrival c r s) (hpart : s.id = id → Part packet id s ∧ arrived s.index)
    (hr : Ring.receiveIndex c r s = .ok r') : Assembling c packet id arrived r' := by
  by_cases hslot : c.slot id = c.slot s.id
  · obtain ⟨-,-,-,hcases⟩ := receiveIndex_cases ha.id hr
    have hself : ∀ g, (r.setFrame (.slot (c.slot s.id)) g).receivingFrames (c.slot s.id) = g :=
      setFrame_slot_self r (c.slot s.id)
    unfold Assembling at h
    rw [hslot] at h
    have hfid := ha.id
    have hnew := ha.new
    generalize r.receivingFrames (c.slot s.id) = f at h hfid hnew hcases
    rcases hcases with ⟨hlate,rfl⟩ | ⟨-,hlarge,rfl⟩ | ⟨hearly,hlarge,r₁,block,dec,size,recovered,hst,rfl⟩
    · intro hid _ hcur
      rw [RingBuffer.countUnnecessary] at hid
      rw [hslot, hself] at hid
      have hsid : s.id = id := hfid.symm.trans hid
      exact absurd (hsid ▸ hlate) (not_le.mpr hcur)
    · intro hid hsome hcur
      rw [hslot, hself] at hid hsome ⊢
      obtain ⟨hs,harrived⟩ := hpart (hfid.symm.trans hid)
      rw [tooLarge_iff hs] at hlarge
      exact (h hid hsome hcur).drop hs harrived hnew hlarge ⟨rfl,rfl,rfl,rfl,rfl,rfl⟩
    · have hframe := congrArg (fun r : RingBuffer => r.receivingFrames (c.slot s.id)) hst.result
      rw [setFrame_slot_self] at hframe
      have hcached : Assembling c packet id arrived (r₁.cache (c.slot s.id)) := by
        intro hid hsome hcur
        rw [RingBuffer.cache, hslot, setFrame_slot_self, hframe] at hid hsome ⊢
        have hcur' : r.currentlyRenderingId < id :=
          (congrArg RingBuffer.currentlyRenderingId hst.result).symm.trans_lt hcur
        obtain ⟨hs,harrived⟩ := hpart (hfid.symm.trans hid)
        rw [tooLarge_iff hs, not_not] at hlarge
        have hf := h hid hsome hcur'
        obtain ⟨-,hsize,-,halloc⟩ := hst.plain hf.plain
        refine hf.store hs harrived hnew hlarge ⟨rfl,rfl,rfl,rfl,rfl,hsize⟩ (fun b hb => ?_)
        have hblock : b = block := Option.some.inj (hb.symm.trans hst.packetBuffer)
        change r₁.packetBufferAllocator.memory b = _
        rw [halloc, hblock]
        exact Function.update_self ..
      split_ifs
      · exact hcached
      · exact hcached
  · exact h.receiveOther hwf ha hslot hr

theorem receiveSegment (h : Assembling c packet id arrived r) (hwf : RingWf c r) {s : WhistSegment} {b : Bool}
    (hpart : s.id = id → Part packet id s ∧ arrived s.index)
    (hr : ringBufferReceiveSegment c r s = .ok (b,r')) : Assembling c packet id arrived r' := by
  obtain htidied | ⟨r₁,hnoted,harrival,hlast⟩ | ⟨r₁,dec,r₂,ho,hnoted,harrival,hlast⟩ :=
    receiveSegment_cases hr
  · exact h.tidied htidied
  · exact (h.tidied (.single (.note hnoted))).receiveIndex (hwf.noted hnoted) harrival hpart hlast
  · have hopened := (h.tidied ho.tidied).opened (hwf.tidied ho.tidied) dec (fun hs => (hpart hs).1)
    have hnoted' := hopened.tidied (.single (.note hnoted))
    exact hnoted'.receiveIndex ((hwf.opening ho).noted hnoted) harrival hpart hlast

theorem setRendering (h : Assembling c packet id arrived r) {id' : ℤ} (hr : setRendering c r id' = .ok r') :
    Assembling c packet id arrived r' := by
  obtain ⟨-,-,hid,hlate,hsome,r₁,hr₁,rfl⟩ := setRendering_cases hr
  have hnext : r.currentlyRenderingId < id' := by
    by_contra hle
    have hnone := (hlate (hid.le.trans (not_lt.mp hle))).2
    rw [hnone] at hsome
    cases hsome
  have hr₁' : r₁.receivingFrames = r.receivingFrames ∧ r₁.memory = r.memory := by
    rcases hr₁ with ⟨-,rfl⟩ | ⟨-,-,rfl⟩
    · exact ⟨rfl,rfl⟩
    · exact ⟨rfl,(freeOptional_memory _ _).trans (freeOptional_memory _ _)⟩
  refine h.same ?_ hnext.le (fun b _ => congrFun hr₁'.2 b)
  unfold RingBuffer.moveToRendering RingBuffer.cache
  dsimp only
  by_cases hslot : c.slot id = c.slot id'
  · left
    rw [hslot, Function.update_self]
    rfl
  · right
    rw [Function.update_of_ne hslot, setFrame_slot_of_ne _ _ hslot, hr₁'.1]
    exact .refl _

theorem resetStream (h : Assembling c packet id arrived r) {id' : ℤ} (hr : resetStream c r id' = .ok r') :
    Assembling c packet id arrived r' := by
  obtain ⟨-,⟨-,rfl⟩ | ⟨-,r₁,htidied,-,-,rfl⟩⟩ := resetStream_cases hr
  · exact h
  · have h₁ := h.tidied htidied
    exact h₁

theorem step (h : Assembling c packet id arrived r) (hwf : RingWf c r) {call : RecoveryCall}
    (hpart : ∀ s, call = .ring (.receive s) → s.id = id → Part packet id s ∧ arrived s.index)
    (hr : recoveryStep c r call = .ok r') : Assembling c packet id arrived r' := by
  cases call with
  | ring call =>
    cases call with
    | receive s =>
      obtain ⟨⟨b,r₁⟩,hreceive,rfl⟩ := Run.map_eq_ok hr
      exact h.receiveSegment hwf (hpart s rfl) hreceive
    | isReady id' =>
      obtain ⟨⟨b,r₁⟩,hready,rfl⟩ := Run.map_eq_ok hr
      exact h.tidied (isReadyToRender_tidied hready)
    | setRendering id' => exact h.setRendering hr
    | resetStream id' => exact h.resetStream hr
    | getNumPending drawn =>
      obtain ⟨⟨n,r₁⟩,hpending,rfl⟩ := Run.map_eq_ok hr
      exact h.tidied (selfCheck_tidied (getNumPending_cases hpending).1)
  | recover t => exact h.tidied (tryRecovering_tidied hr)

end Assembling

theorem RingWf.recoveryStep (h : RingWf c r) {call : RecoveryCall} (hr : recoveryStep c r call = .ok r') :
    RingWf c r' := by
  cases call with
  | ring call => exact h.step hr
  | recover t => exact h.tidied (tryRecovering_tidied hr)

theorem assembling_run {calls : List RecoveryCall} {r₀ : RingBuffer} (hinit : initRingBuffer c = .ok r₀)
    (hparts : ∀ s, .ring (.receive s) ∈ calls → s.id = id → Part packet id s ∧ arrived s.index)
    (hrun : Run.run (recoveryStep c) r₀ calls = .ok r) : RingWf c r ∧ Assembling c packet id arrived r := by
  obtain ⟨hwf,hempty,-⟩ := RingWf.init hinit
  have hstart : Assembling c packet id arrived r₀ := by
    intro _ hsome
    rw [hempty _ (slot_lt c id)] at hsome
    cases hsome
  refine @Run.run_invariant _ _ _ (Ring.recoveryStep c) (fun r => RingWf c r ∧ Assembling c packet id arrived r)
    (fun call => ∀ s, call = .ring (.receive s) → s.id = id → Part packet id s ∧ arrived s.index)
    (fun r call r' h hpart hstep => ⟨h.1.recoveryStep hstep,h.2.step h.1 hpart hstep⟩) calls
    (fun call hcall s hs => hparts s (hs ▸ hcall)) r₀ r ⟨hwf,hstart⟩ hrun

/-- All segments have arrived, and the frame handed out is the packet. -/
structure Exact (calls : List RecoveryCall) (segments : List WhistSegment) (packet : Block) (r : RingBuffer) :
    Prop where
  arrived : ∀ o ∈ segments, ∃ s, .ring (.receive s) ∈ calls ∧ s.content = o
  size : r.currentlyRenderingFrame.frameBufferSize = packet.length
  bytes : ∃ b, r.currentlyRenderingFrame.frameBuffer = some b ∧ readBytes (r.memory b) 0 packet.length = packet

theorem Assembling.rendered (h : Assembling c packet id arrived r) (hwf : RingWf c r)
    (hr : Ring.setRendering c r id = .ok r') :
    Assembled c packet arrived r'.memory r'.currentlyRenderingFrame ∧
      (∀ i < numParts packet, r'.currentlyRenderingFrame.receivedIndices i = true) ∧
      ∃ b, r'.currentlyRenderingFrame.frameBuffer = some b ∧
        r'.currentlyRenderingFrame.packetBuffer = some b := by
  obtain ⟨-,-,hid,hlate,hsome,r₁,hr₁,rfl⟩ := setRendering_cases hr
  have hnext : r.currentlyRenderingId < id := by
    by_contra hle
    rw [(hlate (hid.le.trans (not_lt.mp hle))).2] at hsome
    cases hsome
  have hr₁' : r₁.receivingFrames = r.receivingFrames ∧ r₁.memory = r.memory := by
    rcases hr₁ with ⟨-,rfl⟩ | ⟨-,-,rfl⟩
    · exact ⟨rfl,rfl⟩
    · exact ⟨rfl,(freeOptional_memory _ _).trans (freeOptional_memory _ _)⟩
  have hframe := hwf.frames _ (slot_lt c id)
  have hf := h hid (hframe.packetBuffer_isSome (Option.isSome_iff_ne_none.mp hsome)) hnext
  have hmoved : ((r₁.cache (c.slot id)).moveToRendering (c.slot id) id).currentlyRenderingFrame =
      { r.receivingFrames (c.slot id) with frameBuffer := getFramebuffer (r.receivingFrames (c.slot id)) } := by
    unfold RingBuffer.moveToRendering RingBuffer.cache
    rw [setFrame_slot_self, hr₁'.1]
    rfl
  rw [hmoved]
  generalize r.receivingFrames (c.slot id) = f at hframe hf hsome
  have hbuffer : getFramebuffer f = f.packetBuffer ∧ f.originalPacketsReceived = f.numOriginalPackets := by
    unfold getFramebuffer at hsome ⊢
    rw [if_neg (by rw [hf.plain]; exact Nat.lt_irrefl 0)] at hsome ⊢
    split_ifs at hsome ⊢ with hcomplete
    · exact ⟨rfl,hcomplete⟩
    · cases hsome
  obtain ⟨b,hb⟩ := Option.isSome_iff_exists.mp hsome
  refine ⟨hf.same ⟨rfl,rfl,rfl,rfl,rfl,rfl⟩ (fun b _ => congrFun hr₁'.2 b),fun i hi => ?_,
    b,hb,hbuffer.1.symm.trans hb⟩
  exact hframe.received_of_complete hbuffer.2 (by rw [hf.total]; exact hi)

theorem parts_cover (packet : Block) : packet.length ≤ numParts packet * maxPacketSegmentSize :=
  le_intDivRoundup_mul (by decide)

theorem last_part {packet : Block} (hpos : 0 < numParts packet) :
    0 < (Bytes.segment maxPacketSegmentSize packet (numParts packet - 1)).length ∧
      (numParts packet - 1) * maxPacketSegmentSize +
        (Bytes.segment maxPacketSegmentSize packet (numParts packet - 1)).length = packet.length := by
  have hcover := parts_cover packet
  have hbefore : (numParts packet - 1) * maxPacketSegmentSize < packet.length := by
    unfold numParts intDivRoundup at hpos ⊢
    rw [maxPacketSegmentSize] at hpos ⊢
    omega
  rw [Bytes.length_segment]
  rw [maxPacketSegmentSize] at hcover hbefore ⊢
  omega

theorem fits_iff {packet : Block} (hpos : 0 < numParts packet) :
    (∀ i < numParts packet, Fits c packet i) ↔ packet.length < largestFrameSize c.maxFrameSize := by
  constructor
  · intro h
    have hlast := h (numParts packet - 1) (by omega)
    rwa [Fits, (last_part hpos).2] at hlast
  · intro h i hi
    have hcover := Bytes.length_segment maxPacketSegmentSize packet i
    have hbefore : i * maxPacketSegmentSize ≤ packet.length := by
      have hmul : i * maxPacketSegmentSize ≤ (numParts packet - 1) * maxPacketSegmentSize :=
        Nat.mul_le_mul_right _ (by omega)
      have hlast := (last_part hpos).2
      omega
    unfold Fits
    omega

theorem Assembled.size_iff {memory : ℕ → ℕ → UInt8} {f : FrameData} (h : Assembled c packet arrived memory f)
    (hpos : 0 < numParts packet) (hall : ∀ i < numParts packet, f.receivedIndices i = true) :
    f.frameBufferSize = packet.length ↔ ∀ i < numParts packet, Fits c packet i := by
  have htotal : ∑ i ∈ Finset.range (numParts packet),
      ((Bytes.segment maxPacketSegmentSize packet i).length : ℤ) = packet.length := by
    rw [← Nat.cast_sum, Bytes.sum_length_segment, min_eq_right (parts_cover packet)]
  rw [h.size]
  constructor
  · intro hsize
    by_contra hdropped
    have hlast : ¬Fits c packet (numParts packet - 1) := by
      intro hfits
      rw [Fits, (last_part hpos).2] at hfits
      exact hdropped ((fits_iff hpos).mpr hfits)
    have hlt : ∑ i ∈ (Finset.range (numParts packet)).filter (Placed c packet f),
        ((Bytes.segment maxPacketSegmentSize packet i).length : ℤ) < packet.length := by
      rw [← htotal]
      refine Finset.sum_lt_sum_of_subset (Finset.filter_subset _ _)
        (Finset.mem_range.mpr (Nat.sub_lt hpos Nat.one_pos)) ?_ ?_ (fun _ _ _ => Int.natCast_nonneg _)
      · exact fun hmem => hlast (Finset.mem_filter.mp hmem).2.2
      · exact_mod_cast (last_part hpos).1
    exact hlt.ne hsize
  · intro hfits
    rw [← htotal, Finset.filter_true_of_mem]
    exact fun i hi => ⟨hall i (Finset.mem_range.mp hi),hfits i (Finset.mem_range.mp hi)⟩

/-- The frame handed out is the packet, with all its segments arrived, exactly if the payload is
smaller than the largest one the ring buffer was made for. -/
theorem reassembly_exact_iff (cm : Cm256) (context : UdpContext) (t : WhistPacketType) (payload : Block) (id : ℤ)
    (start : Bool) (segments : List WhistSegment) (hsends : Sends cm context t payload id start segments)
    (c : RingConfig) (calls : List RecoveryCall) (r₀ r r' : RingBuffer) (hinit : initRingBuffer c = .ok r₀)
    (harrivals : ∀ s, .ring (.receive s) ∈ calls → s.id = id → s.content ∈ segments)
    (hrun : Run.run (recoveryStep c) r₀ calls = .ok r) (hrender : setRendering c r id = .ok r') :
    Exact calls segments (whistPacketBytes t payload id) r' ↔ payload.length < c.maxFrameSize := by
  obtain ⟨hparts,hunique⟩ := hsends.parts
  have hpos := numParts_pos t payload id
  have hlen := length_whistPacketBytes t payload id
  obtain ⟨hwf,hassembling⟩ := @assembling_run c r (whistPacketBytes t payload id) id
    (fun i => ∃ s, .ring (.receive s) ∈ calls ∧ s.content ∈ segments ∧ s.index = i) calls r₀ hinit
    (fun s hs hid => ⟨(hparts _ (harrivals s hs hid)).of_content,s,hs,harrivals s hs hid,rfl⟩) hrun
  obtain ⟨hf,hall,b,hframe,hpacket⟩ := hassembling.rendered hwf hrender
  have hfits : (∀ i < numParts (whistPacketBytes t payload id), Fits c (whistPacketBytes t payload id) i) ↔
      payload.length < c.maxFrameSize := by
    rw [fits_iff hpos, hlen, largestFrameSize]
    omega
  rw [← hfits, ← hf.size_iff hpos hall]
  refine ⟨Exact.size,fun hsize => ⟨fun o ho => ?_,hsize,b,hframe,?_⟩⟩
  · have hindex := (hparts o ho).index
    obtain ⟨s,hs,hcontent,hi⟩ := hf.arrived _ (hall _ hindex)
    exact ⟨s,hs,hunique _ hcontent _ ho hi⟩
  · have hfit := (hf.size_iff hpos hall).mp hsize
    have hholds := (hf.stored b hpacket).all (by decide) (fun i hi => ?_)
    · refine Eq.trans (List.map_congr_left (fun i _ => ?_)) hholds
      rw [Nat.zero_add]
    · have hi' : i < numParts (whistPacketBytes t payload id) := by
        by_contra hge
        have hmul : numParts (whistPacketBytes t payload id) * maxPacketSegmentSize ≤ i * maxPacketSegmentSize :=
          Nat.mul_le_mul_right _ (not_lt.mp hge)
        have hcover := parts_cover (whistPacketBytes t payload id)
        omega
      exact ⟨hall i hi',hfit i hi'⟩

/-- The audio nack buffer of `client_connect_socket`. -/
def audioConnection : UdpContext where
  fecPacketRatios := fun _ => noFec
  nackBuffers := fun t => if t = .audio then
    some (registerNackBuffer (packetHeaderSize + 9000) audioRing.ringBufferSize audioRing.size_pos) else none

def audioSegments (payload : Block) : List WhistSegment :=
  match udpSendPacket parityCode audioConnection .audio payload 1 false with
  | .ok s => builtOf s.2.log
  | .error _ => []

def arrivalsOf (segments : List WhistSegment) : List RecoveryCall := segments.map (fun s => .ring (.receive s))

theorem audioSegments_sends {payload : Block}
    (h : (udpSendPacket parityCode audioConnection .audio payload 1 false).toOption.map Prod.fst = some 0)
    (hplain : ∀ s ∈ audioSegments payload, s.numFecIndices = 0) :
    Sends parityCode audioConnection .audio payload 1 false (audioSegments payload) := by
  refine ⟨?_,hplain⟩
  unfold audioSegments
  cases hsend : udpSendPacket parityCode audioConnection .audio payload 1 false with
  | error e =>
    rw [hsend] at h
    cases h
  | ok s =>
    obtain ⟨n,after⟩ := s
    rw [hsend] at h
    obtain rfl : n = 0 := Option.some.inj h
    exact ⟨after,rfl,rfl⟩

def audioRendered (payload : Block) : Option ℤ :=
  match initRingBuffer audioRing with
  | .error _ => none
  | .ok r =>
    match Run.run (recoveryStep audioRing) r (arrivalsOf (audioSegments payload)) with
    | .error _ => none
    | .ok r => (setRendering audioRing r 1).toOption.map (fun r => r.currentlyRenderingFrame.frameBufferSize)

theorem audioRendered_run {payload : Block} {n : ℤ} (h : audioRendered payload = some n) :
    ∃ r₀ r r', initRingBuffer audioRing = .ok r₀ ∧
      Run.run (recoveryStep audioRing) r₀ (arrivalsOf (audioSegments payload)) = .ok r ∧
      setRendering audioRing r 1 = .ok r' ∧ r'.currentlyRenderingFrame.frameBufferSize = n := by
  unfold audioRendered at h
  cases hinit : initRingBuffer audioRing with
  | error e =>
    rw [hinit] at h
    cases h
  | ok r₀ =>
    rw [hinit] at h
    dsimp only at h
    cases hrun : Run.run (recoveryStep audioRing) r₀ (arrivalsOf (audioSegments payload)) with
    | error e =>
      rw [hrun] at h
      cases h
    | ok r =>
      rw [hrun] at h
      dsimp only at h
      cases hrender : setRendering audioRing r 1 with
      | error e =>
        rw [hrender] at h
        cases h
      | ok r' =>
        rw [hrender] at h
        exact ⟨r₀,r,r',rfl,hrun,hrender,Option.some.inj h⟩

theorem arrivalsOf_content {payload : Block}
    (h : Sends parityCode audioConnection .audio payload 1 false (audioSegments payload)) :
    ∀ s, .ring (.receive s) ∈ arrivalsOf (audioSegments payload) → s.id = 1 →
      s.content ∈ audioSegments payload := by
  intro s hs _
  obtain ⟨o,ho,heq⟩ := List.mem_map.mp hs
  cases heq
  rwa [h.content s ho]

/-- A payload of three bytes. -/
theorem reassembly_exact_small : ∃ r, Exact (arrivalsOf (audioSegments [1,2,3])) (audioSegments [1,2,3])
    (whistPacketBytes .audio [1,2,3] 1) r := by
  have hsends := @audioSegments_sends [1,2,3] (by decide +kernel) (by decide +kernel)
  obtain ⟨r₀,r,r',hinit,hrun,hrender,-⟩ := @audioRendered_run [1,2,3] 18 (by decide +kernel)
  exact ⟨r',(reassembly_exact_iff parityCode audioConnection .audio [1,2,3] 1 false _ hsends audioRing _ r₀ r r'
    hinit (arrivalsOf_content hsends) hrun hrender).mpr (by decide)⟩

/-- The last segment of the largest audio frame is counted and dropped: the frame handed out ends
behind the sixth. -/
theorem full_audio_not_exact : ¬∀ (cm : Cm256) (context : UdpContext) (t : WhistPacketType) (payload : Block) (id : ℤ)
    (start : Bool) (segments : List WhistSegment), Sends cm context t payload id start segments →
    ∀ (c : RingConfig) (calls : List RecoveryCall) (r₀ r r' : RingBuffer), initRingBuffer c = .ok r₀ →
    (∀ s, .ring (.receive s) ∈ calls → s.id = id → s.content ∈ segments) →
    Run.run (recoveryStep c) r₀ calls = .ok r → setRendering c r id = .ok r' →
    Exact calls segments (whistPacketBytes t payload id) r' := by
  intro h
  have hsends := @audioSegments_sends (List.replicate 9000 0) (by decide +kernel) (by decide +kernel)
  obtain ⟨r₀,r,r',hinit,hrun,hrender,hsize⟩ := @audioRendered_run (List.replicate 9000 0) 7800 (by decide +kernel)
  have hexact := (h _ _ _ _ _ _ _ hsends audioRing _ r₀ r r' hinit (arrivalsOf_content hsends) hrun hrender).size
  rw [hsize, length_whistPacketBytes, List.length_replicate, packetHeaderSize] at hexact
  norm_num at hexact

end Whist.Ring
