import Whist.Network.RingInvariant

/-! # Who owns the blocks of a ring buffer -/
namespace Whist.Ring
open Fec Udp Memory

variable {c : RingConfig} {r r' : RingBuffer}

theorem opened_memory (h : RingWf c r) (s : WhistSegment) (dec : Option FecDecoder) {b : ℕ}
    (hheld : b ∈ heldBlocks c r) : (r.opened c s dec).memory b = r.memory b := by
  have hfirst := Accounted.allocateBlock_not_mem h.accounted c.contents
  have hne : b ≠ (allocateBlock c.contents r.packetBufferAllocator).1 := fun heq => hfirst (heq ▸ hheld)
  have hsecond := Accounted.allocateBlock_not_mem (Accounted.allocateBlock h.accounted c.contents) c.contents
  have hne' : b ≠ (allocateBlock c.contents (allocateBlock c.contents r.packetBufferAllocator).2).1 :=
    fun heq => hsecond (heq ▸ Multiset.mem_cons_of_mem hheld)
  have hmemory : ∀ a, b ≠ (allocateBlock c.contents a).1 →
      (allocateBlock c.contents a).2.memory b = a.memory b := by
    intro a hb
    unfold allocateBlock BlockAllocator.handOut at hb ⊢
    cases hfree : a.freeBlocks with
    | nil =>
      rw [hfree] at hb
      exact Function.update_of_ne hb ..
    | cons block rest =>
      rw [hfree] at hb
      exact Function.update_of_ne hb ..
  change (openedFrame c r s dec).2.memory b = r.packetBufferAllocator.memory b
  unfold openedFrame
  dsimp only
  split_ifs
  · rw [hmemory _ hne', hmemory _ hne]
  · exact hmemory _ hne

theorem Stored.memory_of_other (h : RingWf c r) {s : WhistSegment} {block : ℕ} {dec : Option FecDecoder}
    {size : ℤ} {recovered : Bool}
    (hst : Stored c r s r' (r.receivingFrames (c.slot s.id)) block dec size recovered) {b : ℕ}
    (hother : b ∈ otherBlocks c r (c.slot s.id)) : r'.memory b = r.memory b := by
  refine hst.writes.memory b (fun hmem => ?_)
  have hnodup := (Multiset.nodup_add.mp h.accounted.nodup).1
  rw [heldBlocks_eq r (slot_lt c s.id)] at hnodup
  exact Multiset.disjoint_left.mp (Multiset.nodup_add.mp hnodup).2.2 (Multiset.mem_coe.mpr hmem) hother

structure Undisturbed (r r' : RingBuffer) : Prop where
  frame : r'.currentlyRenderingFrame = r.currentlyRenderingFrame
  memory : ∀ b ∈ r.currentlyRenderingFrame.blocks, r'.memory b = r.memory b

namespace Undisturbed

theorem trans {r'' : RingBuffer} (h : Undisturbed r r') (h' : Undisturbed r' r'') : Undisturbed r r'' :=
  ⟨h'.frame.trans h.frame,fun b hb => (h'.memory b (h.frame ▸ hb)).trans (h.memory b hb)⟩

theorem tidied (h : Tidied c r r') : Undisturbed r r' :=
  ⟨h.rendering.2,fun b _ => congrFun h.memory b⟩

theorem noted (h : Noted r r') : Undisturbed r r' :=
  ⟨h.renderingFrame,fun b _ => congrArg (fun a => a.memory b) h.allocator⟩

theorem opened (h : RingWf c r) (s : WhistSegment) (dec : Option FecDecoder) :
    Undisturbed r (r.opened c s dec) :=
  ⟨rfl,fun _ hb => opened_memory h s dec (Multiset.mem_add.mpr (Or.inr (Multiset.mem_coe.mpr hb)))⟩

theorem stored (h : RingWf c r) {s : WhistSegment} {block : ℕ} {dec : Option FecDecoder} {size : ℤ}
    {recovered : Bool} (hst : Stored c r s r' (r.receivingFrames (c.slot s.id)) block dec size recovered) :
    Undisturbed r r' := by
  refine ⟨?_,fun b hb => hst.memory_of_other h ?_⟩
  · rw [hst.result]
    rfl
  · exact Multiset.mem_add.mpr (Or.inr (Multiset.mem_coe.mpr hb))

theorem receiveIndex (h : RingWf c r) {s : WhistSegment} (ha : Arrival c r s)
    (hr : receiveIndex c r s = .ok r') : Undisturbed r r' := by
  have hmarked : ∀ f, Undisturbed r (r.setFrame (.slot (c.slot s.id)) f) := fun _ => ⟨rfl,fun _ _ => rfl⟩
  obtain ⟨-,-,-,⟨-,rfl⟩ | ⟨-,-,rfl⟩ | ⟨-,-,r₁,block,dec,size,recovered,hst,rfl⟩⟩ :=
    receiveIndex_cases ha.id hr
  · exact (hmarked _).trans (noted (countUnnecessary_noted _))
  · exact hmarked _
  · have hstored : Undisturbed r r₁ := by
      refine (hmarked _).trans (@Undisturbed.stored c _ r₁ (h.marked ha) s block dec size recovered ?_)
      rw [setFrame_slot_self]
      exact hst
    have hcached : Undisturbed r (r₁.cache (c.slot s.id)) := ⟨hstored.frame,hstored.memory⟩
    split_ifs
    · exact ⟨hcached.frame,hcached.memory⟩
    · exact hcached

theorem receiveSegment (h : RingWf c r) {s : WhistSegment} {b : Bool}
    (hr : ringBufferReceiveSegment c r s = .ok (b,r')) : Undisturbed r r' := by
  obtain htidied | ⟨r₁,hnoted,harrival,hlast⟩ | ⟨r₁,dec,r₂,ho,hnoted,harrival,hlast⟩ :=
    receiveSegment_cases hr
  · exact tidied htidied
  · exact (noted hnoted).trans (receiveIndex (h.noted hnoted) harrival hlast)
  · have hopened := (tidied ho.tidied).trans (opened (h.tidied ho.tidied) s dec)
    have hwf := (h.opening ho).noted hnoted
    exact (hopened.trans (noted hnoted)).trans (receiveIndex hwf harrival hlast)

theorem resetStream {id : ℤ} (hr : resetStream c r id = .ok r') : Undisturbed r r' := by
  obtain ⟨-,⟨-,rfl⟩ | ⟨-,r₁,htidied,-,-,rfl⟩⟩ := resetStream_cases hr
  · exact ⟨rfl,fun _ _ => rfl⟩
  · have h := tidied htidied
    exact ⟨h.frame,h.memory⟩

theorem step (h : RingWf c r) {call : RingCall} (hcall : ∀ id, call ≠ .setRendering id)
    (hr : ringStep c r call = .ok r') : Undisturbed r r' := by
  cases call with
  | receive s =>
    obtain ⟨⟨b,r₁⟩,hreceive,rfl⟩ := Run.map_eq_ok hr
    exact receiveSegment h hreceive
  | isReady id =>
    obtain ⟨⟨b,r₁⟩,hready,rfl⟩ := Run.map_eq_ok hr
    exact tidied (isReadyToRender_tidied hready)
  | setRendering id => exact absurd rfl (hcall id)
  | resetStream id => exact resetStream hr
  | getNumPending drawn =>
    obtain ⟨⟨n,r₁⟩,hpending,rfl⟩ := Run.map_eq_ok hr
    exact tidied (selfCheck_tidied (getNumPending_cases hpending).1)

theorem run (h : RingWf c r) {calls : List RingCall}
    (hcalls : ∀ call ∈ calls, ∀ id, call ≠ .setRendering id)
    (hr : Run.run (ringStep c) r calls = .ok r') : Undisturbed r r' := by
  have hinv := @Run.run_invariant _ _ _ (ringStep c) (fun r₁ => RingWf c r₁ ∧ Undisturbed r r₁)
    (fun call => ∀ id, call ≠ .setRendering id) ?_ calls hcalls r r' ⟨h,rfl,fun _ _ => rfl⟩ hr
  · exact hinv.2
  · rintro r₁ call r₂ ⟨hwf,hkept⟩ hcall hstep
    exact ⟨hwf.step hstep,hkept.trans (step hwf hcall hstep)⟩

end Undisturbed

theorem heldBlocks_of_empty (hempty : ∀ i < c.ringBufferSize, r.receivingFrames i = {}) :
    heldBlocks c r = (r.currentlyRenderingFrame.blocks : Multiset ℕ) := by
  unfold heldBlocks slotBlocks
  rw [Finset.sum_eq_zero, Multiset.zero_add]
  intro i hi
  rw [hempty i (Finset.mem_range.mp hi)]
  rfl

theorem destroyRingBuffer_ok (h : RingWf c r) : destroyRingBuffer c r = .ok () := by
  obtain ⟨r₁,hreset⟩ := h.resetRingBuffer_ok
  obtain ⟨htidied,hempty,-⟩ := resetRingBuffer_cases hreset
  have h₁ := h.tidied htidied
  have hacc := h₁.accounted
  rw [heldBlocks_of_empty hempty] at hacc
  unfold destroyRingBuffer
  rw [hreset]
  dsimp only
  rcases h₁.rendering with ⟨hcur,hnil⟩ | ⟨hcur,hsome⟩
  · rw [hnil] at hacc
    rw [if_neg (not_not.mpr hcur)]
    dsimp only
    rw [if_neg (Accounted.not_inUse hacc)]
  · rw [if_pos (by omega), resetFrame_rendering_ok hsome]
    dsimp only
    have hfree : Accounted r₁.releaseRendering.packetBufferAllocator 0 :=
      Accounted.freeBuffers (by rwa [Multiset.add_zero])
    rw [if_neg (Accounted.not_inUse hfree)]

theorem setRendering_frameBuffer {id : ℤ} (hr : setRendering c r id = .ok r') :
    ∃ b, r'.currentlyRenderingFrame.frameBuffer = some b ∧ b ∈ r'.currentlyRenderingFrame.blocks := by
  obtain ⟨-,-,-,-,hsome,r₁,hr₁,rfl⟩ := setRendering_cases hr
  have hframes : r₁.receivingFrames = r.receivingFrames := by
    rcases hr₁ with ⟨-,rfl⟩ | ⟨-,-,rfl⟩ <;> rfl
  unfold RingBuffer.moveToRendering RingBuffer.cache
  rw [setFrame_slot_self, hframes]
  generalize r.receivingFrames (c.slot id) = f at hsome
  obtain ⟨b,hb⟩ := Option.isSome_iff_exists.mp hsome
  refine ⟨b,hb,?_⟩
  unfold getFramebuffer at hb
  simp only [FrameData.blocks, List.mem_append, Option.mem_toList]
  split_ifs at hb
  · exact Or.inr hb
  · exact Or.inl hb

def smallRing : RingConfig where
  type := .audio
  maxFrameSize := 9000
  ringBufferSize := 1
  size_pos := Nat.one_pos
  cm := parityCode
  contents := fun _ _ => 0
  maxFrees := 1024

end Whist.Ring
