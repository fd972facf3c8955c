import Whist.Network.BlockOwnership

/-! # The number of frames pending -/
namespace Whist.Ring
open Fec Udp Memory

variable {c : RingConfig} {r r' : RingBuffer}

def readySlots (c : RingConfig) (r : RingBuffer) : Finset ℕ :=
  (Finset.range c.ringBufferSize).filter (fun i => (r.receivingFrames i).frameBuffer ≠ none)

def FrameTracked (r : RingBuffer) (f : FrameData) : Prop :=
  getFramebuffer f ≠ none →
    f.frameBuffer = getFramebuffer f ∧ r.lastRenderedId < f.id ∧ r.currentlyRenderingId < f.id ∨
      f.frameBuffer = none ∧ f.id ≤ r.lastRenderedId ∧ f.id ≤ r.currentlyRenderingId

structure Tracked (c : RingConfig) (r : RingBuffer) : Prop where
  counted : r.numPendingReadyFrames = (readySlots c r).card
  frames : ∀ i < c.ringBufferSize, FrameTracked r (r.receivingFrames i)

/-- The last payload missing is counted and not stored: rendering has passed the frame,
which is new only because the ring buffer was reset, or the payload is too large. -/
def Lost (c : RingConfig) (r : RingBuffer) (s : WhistSegment) : Prop :=
  let f := r.receivingFrames (c.slot s.id)
  f.id = s.id ∧ f.packetBuffer.isSome ∧ f.numFecPackets = 0 ∧ f.receivedIndices s.index = false ∧
      f.originalPacketsReceived + 1 = f.numOriginalPackets ∧
      (r.lastRenderedId < s.id ∧ s.id ≤ r.currentlyRenderingId ∨
        r.currentlyRenderingId < s.id ∧ TooLarge c s) ∨
    f.id < s.id ∧ s.numFecIndices = 0 ∧ s.numIndices = 1 ∧ lastAfterRoom c r s.id < s.id ∧
      (s.id ≤ r.currentlyRenderingId ∨ TooLarge c s)

def KeepsCount (c : RingConfig) (r : RingBuffer) : RingCall → Prop
  | .receive s => ¬Lost c r s
  | .setRendering id => ∀ i < c.ringBufferSize, getFramebuffer (r.receivingFrames i) ≠ none →
      r.lastRenderedId < (r.receivingFrames i).id → id ≤ (r.receivingFrames i).id
  | _ => True

theorem readySlots_congr (h : ∀ i < c.ringBufferSize, ((r'.receivingFrames i).frameBuffer = none ↔
    (r.receivingFrames i).frameBuffer = none)) : readySlots c r' = readySlots c r :=
  Finset.filter_congr (fun i hi => not_congr (h i (Finset.mem_range.mp hi)))

theorem mem_readySlots {i : ℕ} : i ∈ readySlots c r ↔
    i < c.ringBufferSize ∧ (r.receivingFrames i).frameBuffer ≠ none := by
  rw [readySlots, Finset.mem_filter, Finset.mem_range]

theorem readySlots_insert {i : ℕ} {f : FrameData} (hi : i < c.ringBufferSize)
    (hframes : r'.receivingFrames = Function.update r.receivingFrames i f)
    (hnone : (r.receivingFrames i).frameBuffer = none) (hsome : f.frameBuffer ≠ none) :
    (readySlots c r').card = (readySlots c r).card + 1 := by
  have hset : readySlots c r' = insert i (readySlots c r) := by
    ext j
    rw [Finset.mem_insert, mem_readySlots, mem_readySlots, hframes]
    by_cases hj : j = i
    · rw [hj, Function.update_self]
      exact ⟨fun _ => Or.inl rfl,fun _ => ⟨hi,hsome⟩⟩
    · rw [Function.update_of_ne hj]
      exact ⟨Or.inr,fun h => h.resolve_left hj⟩
  rw [hset, Finset.card_insert_of_notMem]
  exact fun hmem => (mem_readySlots.mp hmem).2 hnone

theorem readySlots_erase {i : ℕ} {f : FrameData} (hi : i < c.ringBufferSize)
    (hframes : r'.receivingFrames = Function.update r.receivingFrames i f)
    (hsome : (r.receivingFrames i).frameBuffer ≠ none) (hnone : f.frameBuffer = none) :
    ((readySlots c r').card : ℤ) = (readySlots c r).card - 1 := by
  have hback : r.receivingFrames = Function.update r'.receivingFrames i (r.receivingFrames i) := by
    rw [hframes, Function.update_idem, Function.update_eq_self]
  have hnone' : (r'.receivingFrames i).frameBuffer = none := by
    rw [hframes, Function.update_self]
    exact hnone
  have hcard := readySlots_insert hi hback hnone' hsome
  omega

theorem readySlots_same {i : ℕ} {f : FrameData}
    (hframes : r'.receivingFrames = Function.update r.receivingFrames i f)
    (h : f.frameBuffer = none ↔ (r.receivingFrames i).frameBuffer = none) :
    readySlots c r' = readySlots c r := by
  refine readySlots_congr (fun j _ => ?_)
  rw [hframes]
  by_cases hj : j = i
  · rw [hj, Function.update_self]
    exact h
  · rw [Function.update_of_ne hj]

namespace Tracked

theorem frameBuffer_eq (h : Tracked c r) (hwf : RingWf c r) {i : ℕ} (hi : i < c.ringBufferSize)
    (hlate : NotLate r (r.receivingFrames i)) :
    (r.receivingFrames i).frameBuffer = getFramebuffer (r.receivingFrames i) := by
  by_cases hready : getFramebuffer (r.receivingFrames i) = none
  · rw [hready]
    by_contra hsome
    exact (hwf.frames i hi).ready_of_cached hsome hready
  · rcases h.frames i hi hready with ⟨heq,-,-⟩ | ⟨-,-,hcur⟩
    · exact heq
    · exact absurd (hlate hcur).2 hready

theorem cache_eq (h : Tracked c r) (hwf : RingWf c r) {i : ℕ} (hi : i < c.ringBufferSize)
    (hlate : NotLate r (r.receivingFrames i)) : r.cache i = r := by
  have heq := h.frameBuffer_eq hwf hi hlate
  unfold RingBuffer.cache
  rw [← heq]
  simp [RingBuffer.setFrame]

theorem update (h : Tracked c r) {i : ℕ} {f : FrameData}
    (hframes : r'.receivingFrames = Function.update r.receivingFrames i f)
    (hlast : r'.lastRenderedId = r.lastRenderedId)
    (hcur : r'.currentlyRenderingId = r.currentlyRenderingId)
    (hpending : r'.numPendingReadyFrames = (readySlots c r').card) (hf : FrameTracked r f) :
    Tracked c r' := by
  refine ⟨hpending,fun j hj => ?_⟩
  unfold FrameTracked
  rw [hframes, hlast, hcur]
  by_cases hji : j = i
  · rw [hji, Function.update_self]
    exact hf
  · rw [Function.update_of_ne hji]
    exact h.frames j hj

theorem noted (h : Tracked c r) (hn : Noted r r') : Tracked c r' := by
  refine ⟨?_,fun i hi => ?_⟩
  · rw [hn.pending, h.counted]
    refine congrArg (fun s : Finset ℕ => (s.card : ℤ)) (readySlots_congr (fun i _ => ?_)).symm
    obtain ⟨n,hframe⟩ := hn.frames i
    rw [hframe]
    rfl
  · obtain ⟨n,hframe⟩ := hn.frames i
    unfold FrameTracked
    rw [hframe, hn.last, hn.renderingId]
    exact h.frames i hi

theorem tidy (h : Tracked c r) (hwf : RingWf c r) (ht : Tidy c r r') : Tracked c r' := by
  cases ht with
  | note hn => exact h.noted hn
  | cache hi hlate =>
    rw [h.cache_eq hwf hi hlate]
    exact h
  | @release i hi hsome =>
    have hready : FrameTracked r (r.receivingFrames i).released := fun hready =>
      absurd (getFramebuffer_eq_none rfl rfl) hready
    refine h.update rfl rfl rfl ?_ hready
    by_cases hnone : (r.receivingFrames i).frameBuffer = none
    · have hsame : readySlots c (r.release i) = readySlots c r :=
        readySlots_same rfl ⟨fun _ => hnone,fun _ => rfl⟩
      rw [hsame, ← h.counted]
      simp [RingBuffer.release, hnone]
    · have herase : ((readySlots c (r.release i)).card : ℤ) = (readySlots c r).card - 1 :=
        readySlots_erase hi rfl hnone rfl
      rw [herase, ← h.counted]
      simp [RingBuffer.release, hnone]
  | @clear i hi hnone =>
    have hready : FrameTracked r {} := fun hready => absurd (getFramebuffer_eq_none rfl rfl) hready
    refine h.update rfl rfl rfl ?_ hready
    have hbuffer := ((hwf.frames i hi).unused hnone).2
    have hsame : readySlots c (r.setFrame (.slot i) {}) = readySlots c r :=
      readySlots_same rfl ⟨fun _ => hbuffer,fun _ => rfl⟩
    rw [hsame]
    exact h.counted
  | restart hempty =>
    refine ⟨?_,fun i hi hready => ?_⟩
    · have hnone : readySlots c r.restart = ∅ :=
        Finset.filter_eq_empty_iff.mpr (fun i hi => not_not.mpr (by
          change (r.receivingFrames i).frameBuffer = none
          rw [hempty i (Finset.mem_range.mp hi)]))
      rw [hnone]
      rfl
    · change getFramebuffer (r.receivingFrames i) ≠ none at hready
      rw [hempty i hi] at hready
      exact absurd (getFramebuffer_eq_none rfl rfl) hready

theorem tidied (h : Tracked c r) (hwf : RingWf c r) (ht : Tidied c r r') : Tracked c r' := by
  have hboth : RingWf c r' ∧ Tracked c r' := by
    induction ht with
    | refl => exact ⟨hwf,h⟩
    | tail _ hstep ih => exact ⟨ih.1.tidy hstep,ih.2.tidy ih.1 hstep⟩
  exact hboth.2

theorem openedFrame_not_ready {s : WhistSegment} {dec : Option FecDecoder}
    (hindices : s.numFecIndices < s.numIndices) : getFramebuffer (openedFrame c r s dec).1 = none := by
  obtain ⟨-,-,horiginal,-,hcount,-,hrecovered,-⟩ := openedFrame_fields c r s dec
  unfold getFramebuffer
  rw [horiginal, hcount, hrecovered]
  split_ifs with hfec hrec hcomplete
  · cases hrec
  · rfl
  · omega
  · rfl

theorem opened (h : Tracked c r) (hwf : RingWf c r) {s : WhistSegment} {dec : Option FecDecoder}
    (hempty : (r.receivingFrames (c.slot s.id)).packetBuffer = none)
    (hindices : s.numFecIndices < s.numIndices) : Tracked c (r.opened c s dec) := by
  have hbuffer := ((hwf.frames _ (slot_lt c s.id)).unused hempty).2
  have hnew := (openedFrame_fields c r s dec).2.2.2.2.2.1
  have hready : FrameTracked r (openedFrame c r s dec).1 := fun hready =>
    absurd (openedFrame_not_ready hindices) hready
  refine h.update rfl rfl rfl ?_ hready
  have hsame : readySlots c (r.opened c s dec) = readySlots c r :=
    readySlots_same rfl ⟨fun _ => hbuffer,fun _ => hnew⟩
  rw [hsame]
  exact h.counted

theorem completes {f : FrameData} {index : ℕ} (hnone : getFramebuffer f = none) (hready : getFramebuffer (f.marked index) ≠ none) :
    f.packetBuffer.isSome ∧ f.numFecPackets = 0 ∧ f.originalPacketsReceived + 1 = f.numOriginalPackets := by
  unfold getFramebuffer FrameData.marked at hready
  unfold getFramebuffer at hnone
  dsimp only at hready
  by_cases hfec : f.numFecPackets > 0
  · rw [if_pos hfec] at hnone hready
    exact absurd hnone hready
  · rw [if_neg hfec] at hnone hready
    split_ifs at hready with hindex hcomplete hcomplete
    · exact ⟨Option.isSome_iff_ne_none.mpr hready,by omega,hcomplete⟩
    · exact absurd rfl hready
    · rw [Nat.add_zero] at hcomplete
      rw [if_pos hcomplete] at hnone
      exact absurd hnone hready
    · exact absurd rfl hready

theorem receiveIndex (h : Tracked c r) (hwf : RingWf c r) {s : WhistSegment} (ha : Arrival c r s)
    (hlost : let f := r.receivingFrames (c.slot s.id)
      f.packetBuffer.isSome → f.numFecPackets = 0 → f.originalPacketsReceived + 1 = f.numOriginalPackets →
        (s.id ≤ r.currentlyRenderingId → s.id ≤ r.lastRenderedId) ∧
          (r.currentlyRenderingId < s.id → ¬TooLarge c s))
    (hr : Ring.receiveIndex c r s = .ok r') : Tracked c r' := by
  have hi := slot_lt c s.id
  have hframe := hwf.frames _ hi
  have hindex : s.index < (r.receivingFrames (c.slot s.id)).numOriginalPackets +
      (r.receivingFrames (c.slot s.id)).numFecPackets := by
    rw [ha.totalPackets]
    exact ha.index
  obtain ⟨-,hlate,-,hcases⟩ := receiveIndex_cases ha.id hr
  have heq := h.frameBuffer_eq hwf hi hlate
  have htracked := h.frames _ hi
  have hnew := ha.new
  have hid := ha.id
  generalize hf : r.receivingFrames (c.slot s.id) = f at *
  rw [← heq] at hcases
  have hmarkedId : (f.marked s.index).id = f.id := rfl
  have hmarkedBuffer : (f.marked s.index).frameBuffer = f.frameBuffer := rfl
  have hsame : readySlots c (r.setFrame (.slot (c.slot s.id)) (f.marked s.index)) = readySlots c r :=
    readySlots_same rfl (by rw [hf]; exact Iff.rfl)
  have hpending : (r.setFrame (.slot (c.slot s.id)) (f.marked s.index)).numPendingReadyFrames =
      (readySlots c (r.setFrame (.slot (c.slot s.id)) (f.marked s.index))).card := by
    rw [hsame]
    exact h.counted
  obtain ⟨hcur,rfl⟩ | ⟨hcur,hlarge,rfl⟩ | ⟨hcur,-,r₁,block,dec,size,recovered,hst,rfl⟩ := hcases
  · -- rendering is past the frame, and so it stays uncounted
    have hnone := hlate (hid.le.trans hcur)
    have hmarked : Tracked c (r.setFrame (.slot (c.slot s.id)) (f.marked s.index)) := by
      refine h.update rfl rfl rfl hpending (fun hready => Or.inr ?_)
      obtain ⟨hsome,hfec,hcount⟩ := completes hnone.2 hready
      exact ⟨hnone.1,hid.le.trans ((hlost hsome hfec hcount).1 hcur),hid.le.trans hcur⟩
    exact hmarked.noted (countUnnecessary_noted _)
  · refine h.update rfl rfl rfl hpending (fun hready => ?_)
    by_cases hnone : getFramebuffer f = none
    · obtain ⟨hsome,hfec,hcount⟩ := completes hnone hready
      exact absurd hlarge ((hlost hsome hfec hcount).2 hcur)
    · rw [hframe.ready_marked hnew hindex hnone, hmarkedBuffer, hmarkedId]
      exact htracked hnone
  · generalize hg : f.marked s.index = g at *
    have hresult : (r₁.cache (c.slot s.id)).receivingFrames = Function.update r.receivingFrames (c.slot s.id)
        { g.stored dec size recovered with frameBuffer := getFramebuffer (g.stored dec size recovered) } := by
      rw [RingBuffer.cache, hst.result, setFrame_slot_self]
      simp [RingBuffer.setFrame]
    have hself : r₁.receivingFrames (c.slot s.id) = g.stored dec size recovered := by
      rw [hst.result, setFrame_slot_self]
    have hlast : r₁.lastRenderedId = r.lastRenderedId := by
      rw [hst.result]
      rfl
    have hcurrent : r₁.currentlyRenderingId = r.currentlyRenderingId := by
      rw [hst.result]
      rfl
    have hnum : r₁.numPendingReadyFrames = r.numPendingReadyFrames := by
      rw [hst.result]
      rfl
    have hgid : g.id = s.id := by
      rw [← hid, ← hmarkedId]
    -- a frame with a buffer is a frame still to be rendered
    have hlive : FrameTracked r { g.stored dec size recovered with
        frameBuffer := getFramebuffer (g.stored dec size recovered) } := by
      intro hready
      refine Or.inl ⟨rfl,?_,?_⟩
      · have hsome : f.packetBuffer.isSome := by
          rw [← hg] at hst
          exact Option.isSome_iff_exists.mpr ⟨block,hst.packetBuffer⟩
        have hlive := hwf.live _ hi (by rw [hf]; exact hsome)
        rw [hf, hid] at hlive
        change _ < g.id
        omega
      · change _ < g.id
        omega
    -- storing does not take a frame buffer away
    have hkeeps : getFramebuffer f ≠ none → getFramebuffer (g.stored dec size recovered) ≠ none := by
      intro hready
      have hg' : getFramebuffer g ≠ none := by
        rw [← hg, hframe.ready_marked hnew hindex hready]
        exact hready
      unfold getFramebuffer at hg' ⊢
      unfold FrameData.stored
      dsimp only
      split_ifs at hg' with hfec hrec hcomplete
      · rw [if_pos hfec, if_pos (hst.kept hrec)]
        exact hg'
      · exact absurd rfl hg'
      · rw [if_neg hfec, if_pos hcomplete]
        exact hg'
      · exact absurd rfl hg'
    rw [hself]
    have hframes : (r₁.cache (c.slot s.id)).countPending.receivingFrames =
        (r₁.cache (c.slot s.id)).receivingFrames := rfl
    split_ifs with hpend
    · refine h.update (hframes.trans hresult) hlast hcurrent ?_ hlive
      have hnone : (r.receivingFrames (c.slot s.id)).frameBuffer = none := by
        rw [hf]
        simpa using hpend.2
      rw [readySlots_insert hi (hframes.trans hresult) hnone (Option.isSome_iff_ne_none.mp hpend.1)]
      have hcounted := h.counted
      push_cast
      change r₁.numPendingReadyFrames + 1 = _
      omega
    · refine h.update hresult hlast hcurrent ?_ hlive
      have hboth : getFramebuffer (g.stored dec size recovered) = none ↔ f.frameBuffer = none := by
        rw [heq]
        constructor
        · intro hnone
          by_contra hready
          exact hkeeps hready hnone
        · intro hnone
          by_contra hready
          exact hpend ⟨Option.isSome_iff_ne_none.mpr hready,by rw [heq, hnone]; simp⟩
      rw [readySlots_same (c := c) hresult (by rw [hf]; exact hboth)]
      change r₁.numPendingReadyFrames = _
      rw [hnum]
      exact h.counted

theorem receiveSegment (h : Tracked c r) (hwf : RingWf c r) {s : WhistSegment} {b : Bool}
    (hlost : ¬Lost c r s) (hr : ringBufferReceiveSegment c r s = .ok (b,r')) : Tracked c r' := by
  obtain htidied | ⟨r₁,hnoted,harrival,hlast⟩ | ⟨r₁,dec,r₂,ho,hnoted,harrival,hlast⟩ :=
    receiveSegment_cases hr
  · exact h.tidied hwf htidied
  · refine (h.noted hnoted).receiveIndex (hwf.noted hnoted) harrival ?_ hlast
    obtain ⟨n,hn⟩ := hnoted.frames (c.slot s.id)
    have hid := harrival.id
    have hnew := harrival.new
    rw [hn] at hid hnew ⊢
    rw [hnoted.renderingId, hnoted.last]
    intro f hsome hfec hcount
    constructor
    · intro hcur
      by_contra hlast
      exact hlost (Or.inl ⟨hid,hsome,hfec,hnew,hcount,Or.inl ⟨not_le.mp hlast,hcur⟩⟩)
    · exact fun hcur hlarge => hlost (Or.inl ⟨hid,hsome,hfec,hnew,hcount,Or.inr ⟨hcur,hlarge⟩⟩)
  · have hwf₁ := hwf.tidied ho.tidied
    have hopened : Tracked c (r₁.opened c s dec) :=
      (h.tidied hwf ho.tidied).opened hwf₁ ho.empty ho.fecIndices
    refine (hopened.noted hnoted).receiveIndex ((hwf.opening ho).noted hnoted) harrival ?_ hlast
    obtain ⟨n,hn⟩ := hnoted.frames (c.slot s.id)
    have hself : (r₁.opened c s dec).receivingFrames (c.slot s.id) = (openedFrame c r₁ s dec).1 :=
      setFrame_slot_self ..
    have hcur : (r₁.opened c s dec).currentlyRenderingId = r.currentlyRenderingId := ho.tidied.rendering.1
    obtain ⟨-,-,horiginal,hfecs,hzero,-⟩ := openedFrame_fields c r₁ s dec
    have hindices := ho.fecIndices
    have hunrendered := ho.unrendered
    rw [ho.last] at hunrendered
    rw [hn, hself, hnoted.renderingId, hnoted.last, hcur]
    intro f _ hfec hcount
    change (openedFrame c r₁ s dec).1.numFecPackets = 0 at hfec
    change (openedFrame c r₁ s dec).1.originalPacketsReceived + 1 =
      (openedFrame c r₁ s dec).1.numOriginalPackets at hcount
    have hnew : ¬(s.id ≤ r.currentlyRenderingId ∨ TooLarge c s) := fun hbad =>
      hlost (Or.inr ⟨ho.newer,by omega,by omega,hunrendered,hbad⟩)
    exact ⟨fun hle => absurd (Or.inl hle) hnew,fun _ hlarge => hnew (Or.inr hlarge)⟩

theorem setRendering (h : Tracked c r) (hwf : RingWf c r) {id : ℤ}
    (hkeeps : KeepsCount c r (.setRendering id)) (hr : Ring.setRendering c r id = .ok r') : Tracked c r' := by
  obtain ⟨hlast,hbounds,hid,hlate,hsome,r₁,hr₁,rfl⟩ := setRendering_cases hr
  have hi := slot_lt c id
  have heq := h.frameBuffer_eq hwf hi hlate
  have hfields : r₁.receivingFrames = r.receivingFrames ∧ r₁.lastRenderedId = id ∧
      r₁.numPendingReadyFrames = r.numPendingReadyFrames := by
    rcases hr₁ with ⟨-,rfl⟩ | ⟨-,-,rfl⟩ <;> exact ⟨rfl,rfl,rfl⟩
  obtain ⟨hframes,hlast₁,hnum⟩ := hfields
  have hupdate : ((r₁.cache (c.slot id)).moveToRendering (c.slot id) id).receivingFrames =
      Function.update r.receivingFrames (c.slot id) (r.receivingFrames (c.slot id)).released := by
    unfold RingBuffer.moveToRendering
    rw [RingBuffer.cache, setFrame_slot_self, hframes]
    simp [RingBuffer.setFrame, FrameData.released, hframes]
  refine ⟨?_,fun j hj hready => ?_⟩
  · have hbuffer : (r.receivingFrames (c.slot id)).frameBuffer ≠ none := by
      rw [heq]
      exact Option.isSome_iff_ne_none.mp hsome
    rw [readySlots_erase hi hupdate hbuffer rfl, ← h.counted, ← hnum]
    rfl
  · rw [hupdate] at hready ⊢
    by_cases hji : j = c.slot id
    · rw [hji, Function.update_self] at hready
      exact absurd (getFramebuffer_eq_none rfl rfl) hready
    · rw [Function.update_of_ne hji] at hready ⊢
      change _ ∧ r₁.lastRenderedId < _ ∧ id < _ ∨ _ ∧ _ ≤ r₁.lastRenderedId ∧ _ ≤ id
      rw [hlast₁]
      rcases h.frames j hj hready with ⟨hcached,hlastj,hcurj⟩ | ⟨hnone,hlastj,hcurj⟩
      · have hle := hkeeps j hj hready hlastj
        have hne : (r.receivingFrames j).id ≠ id := by
          intro hsame
          have hslot := (hwf.frames j hj).slot ((hwf.frames j hj).id_pos hready)
          rw [hsame] at hslot
          exact hji hslot.symm
        exact Or.inl ⟨hcached,by omega,by omega⟩
      · exact Or.inr ⟨hnone,by omega,by omega⟩

theorem resetStream (h : Tracked c r) (hwf : RingWf c r) {id : ℤ}
    (hr : Ring.resetStream c r id = .ok r') : Tracked c r' := by
  obtain ⟨hid,⟨-,rfl⟩ | ⟨hlast,r₁,htidied,hlast₁,hframes,rfl⟩⟩ := resetStream_cases hr
  · exact h
  · have h₁ := h.tidied hwf htidied
    have hwf₁ := hwf.tidied htidied
    refine ⟨h₁.counted,fun i hi hready => ?_⟩
    have hsome := (hwf₁.frames i hi).packetBuffer_isSome hready
    have hle : id ≤ (r₁.receivingFrames i).id := by
      rw [hframes i hi] at hsome ⊢
      unfold FrameData.skipped at hsome ⊢
      split_ifs at hsome ⊢ with hskip
      · exact absurd hsome Bool.false_ne_true
      · exact not_lt.mp (fun hlt => hskip ⟨hsome,hlt⟩)
    rcases h₁.frames i hi hready with ⟨hcached,-,hcur⟩ | ⟨-,hle',-⟩
    · refine Or.inl ⟨hcached,?_,hcur⟩
      change id - 1 < (r₁.receivingFrames i).id
      omega
    · rw [hlast₁] at hle'
      omega

theorem step (h : Tracked c r) (hwf : RingWf c r) {call : RingCall} (hkeeps : KeepsCount c r call)
    (hr : ringStep c r call = .ok r') : Tracked c r' := by
  cases call with
  | receive s =>
    obtain ⟨⟨b,r₁⟩,hreceive,rfl⟩ := Run.map_eq_ok hr
    exact h.receiveSegment hwf hkeeps hreceive
  | isReady id =>
    obtain ⟨⟨b,r₁⟩,hready,rfl⟩ := Run.map_eq_ok hr
    exact h.tidied hwf (isReadyToRender_tidied hready)
  | setRendering id => exact h.setRendering hwf hkeeps hr
  | resetStream id => exact h.resetStream hwf hr
  | getNumPending drawn =>
    obtain ⟨⟨n,r₁⟩,hpending,rfl⟩ := Run.map_eq_ok hr
    exact h.tidied hwf (selfCheck_tidied (getNumPending_cases hpending).1)

end Tracked

def readyAt (c : RingConfig) (r : RingBuffer) (id : ℤ) : Bool :=
  match isReadyToRender c r id with
  | .ok (ready,_) => ready
  | .error _ => false

def firstPendingId (r : RingBuffer) : ℤ := max r.minId (r.lastRenderedId + 1)

/-- The maintained number is the number of IDs ready, and the self-check agrees. -/
def PendingExact (c : RingConfig) (r : RingBuffer) : Prop :=
  r.numPendingReadyFrames =
      ((Finset.Icc (firstPendingId r) r.maxId).filter (fun id => readyAt c r id = true)).card ∧
    (∀ id ∈ Finset.Icc (firstPendingId r) r.maxId, ∃ b r', isReadyToRender c r id = .ok (b,r')) ∧
    ∀ drawn, ∃ n r', getNumPendingReadyFrames c r drawn = .ok (n,r')

namespace Tracked

theorem isReady_ok (h : Tracked c r) (hwf : RingWf c r) {id : ℤ} (hpos : 0 ≤ id)
    (hlast : r.lastRenderedId < id) : isReadyToRender c r id = .ok (readyAt c r id,r) := by
  have hi := slot_lt c id
  have hok : ∃ b r', isReadyToRender c r id = .ok (b,r') := by
    refine isReadyToRender_ok (not_outOfBounds hpos) (fun hid hcur => ?_)
    have hnone : getFramebuffer (r.receivingFrames (c.slot id)) = none := by
      by_contra hready
      rcases h.frames _ hi hready with ⟨-,-,hlive⟩ | ⟨-,hold,-⟩
      · omega
      · omega
    refine ⟨?_,hnone⟩
    by_contra hsome
    exact (hwf.frames _ hi).ready_of_cached hsome hnone
  obtain ⟨b,r',hok⟩ := hok
  have hsame : r' = r := by
    obtain ⟨-,⟨-,-,rfl⟩ | ⟨-,hlate,-,rfl⟩⟩ := isReadyToRender_cases hok
    · rfl
    · exact h.cache_eq hwf hi hlate
  rw [readyAt, hok, hsame]

theorem card_readyAt (h : Tracked c r) (hwf : RingWf c r) :
    ((Finset.Icc (firstPendingId r) r.maxId).filter (fun id => readyAt c r id = true)).card =
      (readySlots c r).card := by
  have hlast := hwf.last
  refine (Finset.card_nbij' (fun i => (r.receivingFrames i).id) (fun id => c.slot id) ?_ ?_ ?_ ?_).symm
  · intro i hi
    obtain ⟨hi,hsome⟩ := mem_readySlots.mp hi
    have hframe := hwf.frames i hi
    have hready := hframe.ready_of_cached hsome
    have hpacket := hframe.packetBuffer_isSome hready
    have hid := hframe.id_pos hready
    have hrange := hwf.range i hi hpacket
    have hlive : r.lastRenderedId < (r.receivingFrames i).id := by
      rcases h.frames i hi hready with ⟨-,hlive,-⟩ | ⟨hnone,-⟩
      · exact hlive
      · exact absurd hnone hsome
    have hok := h.isReady_ok hwf (by omega) hlive
    have hready' : readyAt c r (r.receivingFrames i).id = true := by
      obtain ⟨-,⟨hne,-,-⟩ | ⟨-,-,hb,-⟩⟩ := isReadyToRender_cases hok
      · rw [hframe.slot hid] at hne
        exact absurd rfl hne
      · rw [hb, hframe.slot hid]
        exact Option.isSome_iff_ne_none.mpr hready
    have hmem : firstPendingId r ≤ (r.receivingFrames i).id := by
      unfold firstPendingId
      omega
    exact Finset.mem_coe.mpr (Finset.mem_filter.mpr ⟨Finset.mem_Icc.mpr ⟨hmem,hrange.2.2⟩,hready'⟩)
  · intro id hid
    obtain ⟨hid,hready⟩ := Finset.mem_filter.mp (Finset.mem_coe.mp hid)
    have hfirst := (Finset.mem_Icc.mp hid).1
    unfold firstPendingId at hfirst
    have hok := h.isReady_ok hwf (by omega) (show r.lastRenderedId < id by omega)
    obtain ⟨-,⟨-,hb,-⟩ | ⟨hframe,hlate,hb,-⟩⟩ := isReadyToRender_cases hok
    · rw [hready] at hb
      cases hb
    · refine Finset.mem_coe.mpr (mem_readySlots.mpr ⟨slot_lt c id,?_⟩)
      rw [h.frameBuffer_eq hwf (slot_lt c id) hlate]
      rw [hready] at hb
      exact Option.isSome_iff_ne_none.mp hb.symm
  · intro i hi
    obtain ⟨hi,hsome⟩ := mem_readySlots.mp (Finset.mem_coe.mp hi)
    have hframe := hwf.frames i hi
    exact hframe.slot (hframe.id_pos (hframe.ready_of_cached hsome))
  · intro id hid
    obtain ⟨hid,hready⟩ := Finset.mem_filter.mp (Finset.mem_coe.mp hid)
    have hfirst := (Finset.mem_Icc.mp hid).1
    unfold firstPendingId at hfirst
    have hok := h.isReady_ok hwf (by omega) (show r.lastRenderedId < id by omega)
    obtain ⟨-,⟨-,hb,-⟩ | ⟨hframe,-,-,-⟩⟩ := isReadyToRender_cases hok
    · rw [hready] at hb
      cases hb
    · exact hframe

theorem mem_ids {first last id : ℤ} : id ∈ ids first last ↔ first ≤ id ∧ id ≤ last := by
  unfold ids
  rw [List.mem_map]
  constructor
  · rintro ⟨i,hi,rfl⟩
    have := List.mem_range.mp hi
    omega
  · rintro ⟨hfirst,hlast⟩
    exact ⟨(id - first).toNat,List.mem_range.mpr (by omega),by omega⟩

theorem ids_nodup (first last : ℤ) : (ids first last).Nodup :=
  List.nodup_range.map (fun i j hij => by omega)

theorem countReady_eq (h : Tracked c r) (hwf : RingWf c r) {idList : List ℤ}
    (hids : ∀ id ∈ idList, 0 ≤ id ∧ r.lastRenderedId < id) :
    countReady c idList r = .ok (((idList.filter (fun id => readyAt c r id)).length : ℤ),r) := by
  induction idList with
  | nil => rfl
  | cons id rest ih =>
    have hid := hids id List.mem_cons_self
    rw [countReady, h.isReady_ok hwf hid.1 hid.2]
    dsimp only
    rw [ih (fun id' hid' => hids id' (List.mem_cons_of_mem _ hid'))]
    by_cases hready : readyAt c r id = true
    · simp [Except.map, hready]
    · simp [Except.map, hready]

theorem pendingExact (h : Tracked c r) (hwf : RingWf c r) : PendingExact c r := by
  have hcard := h.card_readyAt hwf
  have hlast := hwf.last
  refine ⟨by rw [hcard]; exact h.counted,fun id hid => ?_,fun drawn => ?_⟩
  · have hfirst := (Finset.mem_Icc.mp hid).1
    unfold firstPendingId at hfirst
    exact ⟨_,_,h.isReady_ok hwf (by omega) (by omega)⟩
  · have hcheck : selfCheck c r drawn = .ok r := by
      unfold selfCheck
      by_cases hempty : r.minId = -1 ∨ r.maxId = -1
      · have hnone : readySlots c r = ∅ := by
          refine Finset.filter_eq_empty_iff.mpr (fun i hi hsome => ?_)
          have hframe := hwf.frames i (Finset.mem_range.mp hi)
          have hready := hframe.ready_of_cached hsome
          have hrange := hwf.range i (Finset.mem_range.mp hi) (hframe.packetBuffer_isSome hready)
          omega
        have hzero : r.numPendingReadyFrames = 0 := by
          rw [h.counted, hnone]
          rfl
        rw [if_pos hempty, if_neg (not_not.mpr hzero)]
      · rw [if_neg hempty]
        dsimp only
        split_ifs with hrange
        · have hids : ∀ id ∈ ids (max r.minId (r.lastRenderedId + 1)) r.maxId,
              0 ≤ id ∧ r.lastRenderedId < id := by
            intro id hid
            have := mem_ids.mp hid
            omega
          rw [h.countReady_eq hwf hids]
          dsimp only
          rw [if_neg (not_not.mpr _)]
          rw [h.counted, ← hcard, ← List.toFinset_card_of_nodup ((ids_nodup _ _).filter _)]
          congr 2
          ext id
          rw [List.mem_toFinset, List.mem_filter, mem_ids, Finset.mem_filter, Finset.mem_Icc]
          rfl
        · rfl
    unfold getNumPendingReadyFrames
    rw [hcheck]
    dsimp only
    have hbound : (readySlots c r).card ≤ c.ringBufferSize :=
      (Finset.card_filter_le _ _).trans (Finset.card_range _).le
    have hcounted := h.counted
    rw [if_neg (not_not.mpr (by omega))]
    exact ⟨_,_,rfl⟩

end Tracked

/-- If no payload that completes a frame is lost, and no complete frame is passed over, the
number of pending frames is exact in every state reached. -/
theorem pending_frames_exact (c : RingConfig) (calls : List RingCall) (r₀ r : RingBuffer)
    (h₀ : initRingBuffer c = .ok r₀) (hsteps : Run.EachOk (ringStep c) (KeepsCount c) r₀ calls)
    (hr : Run.run (ringStep c) r₀ calls = .ok r) : PendingExact c r := by
  obtain ⟨hwf,hempty,-,-,-,-,hnum⟩ := RingWf.init h₀
  have htracked : Tracked c r₀ := by
    refine ⟨?_,fun i hi hready => ?_⟩
    · have hnone : readySlots c r₀ = ∅ :=
        Finset.filter_eq_empty_iff.mpr (fun i hi => not_not.mpr (by
          rw [hempty i (Finset.mem_range.mp hi)]))
      rw [hnum, hnone]
      rfl
    · rw [hempty i hi] at hready
      exact absurd (getFramebuffer_eq_none rfl rfl) hready
  have hinv := @Run.EachOk.invariant _ _ _ (ringStep c) (KeepsCount c)
    (fun r => RingWf c r ∧ Tracked c r) ?_ calls r₀ r ⟨hwf,htracked⟩ hsteps hr
  · exact hinv.2.pendingExact hinv.1
  · rintro r₁ call r₂ ⟨hwf₁,htracked₁⟩ hkeeps hstep
    exact ⟨hwf₁.step hstep,htracked₁.step hwf₁ hkeeps hstep⟩

def audioRing : RingConfig where
  type := .audio
  maxFrameSize := 9000
  ringBufferSize := 100
  size_pos := by decide
  cm := parityCode
  contents := fun _ _ => 0
  maxFrees := 1024

def fullFrame : List RingCall :=
  (List.range 7).map (fun i => .receive ⟨.audio,1,i,7,0,if i = 6 then 1215 else 1300,0,false,false,
    List.replicate (if i = 6 then 1215 else 1300) 0⟩)

/-- The last segment of the frame is counted and dropped: the frame is ready, and the
number of frames pending is still zero. -/
theorem fullFrame_not_exact : ¬∀ c calls r, ringRun c calls = .ok r → PendingExact c r := by
  intro h
  have hrun : ((ringRun audioRing fullFrame).toOption.map (fun r =>
      (r.numPendingReadyFrames,firstPendingId r,r.maxId,readyAt audioRing r 1))) = some (0,1,1,true) := by
    decide +kernel
  cases hr : ringRun audioRing fullFrame with
  | error e => simp [hr, Except.toOption] at hrun
  | ok r =>
    simp only [hr, Except.toOption, Option.map_some, Option.some.injEq, Prod.mk.injEq] at hrun
    obtain ⟨hnum,hfirst,hmax,hready⟩ := hrun
    have hexact := (h audioRing fullFrame r hr).1
    rw [hnum, hfirst, hmax, Finset.Icc_self, Finset.filter_singleton, if_pos hready] at hexact
    simp at hexact

/-- One segment of a frame of two. -/
theorem one_segment_exact : ∃ r, ringRun audioRing [.receive ⟨.audio,1,0,2,0,3,0,false,false,[1,2,3]⟩] = .ok r ∧
    PendingExact audioRing r := by
  have hinit : (initRingBuffer audioRing).toOption.map (fun r =>
      ((r.receivingFrames 1).id,(r.receivingFrames 1).originalPacketsReceived,
        (r.receivingFrames 1).packetBuffer.isSome)) = some (0,0,false) := by
    decide +kernel
  cases h₀ : initRingBuffer audioRing with
  | error e => simp [h₀, Except.toOption] at hinit
  | ok r₀ =>
    simp only [h₀, Except.toOption, Option.map_some, Option.some.injEq, Prod.mk.injEq] at hinit
    have hsome : (ringRun audioRing [.receive ⟨.audio,1,0,2,0,3,0,false,false,[1,2,3]⟩]).toOption.isSome := by
      decide +kernel
    cases hr : ringRun audioRing [.receive ⟨.audio,1,0,2,0,3,0,false,false,[1,2,3]⟩] with
    | error e => simp [hr, Except.toOption] at hsome
    | ok r =>
      have hslot : audioRing.slot 1 = 1 := by decide
      refine ⟨r,rfl,pending_frames_exact audioRing
        [.receive ⟨.audio,1,0,2,0,3,0,false,false,[1,2,3]⟩] r₀ r h₀ ⟨?_,fun _ _ => trivial⟩ ?_⟩
      · rintro (⟨hid,-⟩ | ⟨-,-,htwo,-⟩)
        · rw [hslot, hinit.1] at hid
          exact absurd hid (by decide)
        · exact absurd htwo (by decide)
      · simpa [ringRun, h₀] using hr

end Whist.Ring
