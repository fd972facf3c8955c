import Whist.Client.SyncPackets
import Whist.Foundation.Run

/-! # How long a frame handed to a renderer stays valid -/
namespace Whist.Client

open Whist.Udp (WhistPacketType)

variable {φ : Type}

def WhistRenderer.PointsTo (r : WhistRenderer φ) (t : WhistPacketType) (frame : φ) : Prop :=
  match t with
  | .video =>
    r.videoContext.pendingRenderContext = true ∧ r.videoContext.renderContext = some frame
  | .audio =>
    r.audioContext.pendingRenderContext = true ∧
      r.audioContext.renderContext.audioFrame = some frame
  | .gpu | .message => False

/-- A renderer that wants a frame has no pending context with the frame returned before. -/
def FrameReleased (c : ClientState φ) : Action φ → Prop
  | .wantsFrame q =>
    ∀ frame, c.syncPc = .wantsFrame → c.lastWhistPacket c.packetType = some frame →
      (rendererWantsFrame c.renderer c.packetType q).2 = true →
        ¬(rendererWantsFrame c.renderer c.packetType q).1.PointsTo c.packetType frame
  | _ => True

/-- The next frame is to be dropped: the queue overflows, or the samples say so, or they say
nothing and an earlier decision to drop stands. -/
def DropsFrame (a : AudioContext φ) (q : AudioQueues) : Prop :=
  let adaptive := a.adaptiveParameterController.handleScaling q.deviceQueueLen q.scalingTime
  let target := adaptive.getDeviceQueueTargetSize
  let decision := if a.audioState = .playing then
    a.queueLenController.samplingDecision q.samplingTime q.totalQueueLen target else none
  a.queueLenController.overflows q.totalQueueLen target adaptive.getTotalQueueOverflowSize = true ∨
    decision = some .dropFrame ∨
    decision = none ∧ a.queueLenController.adjustCommand = .dropFrame

def KeepsPending (c : ClientState φ) : Action φ → Prop
  | .wantsFrame q =>
    c.syncPc = .wantsFrame → c.packetType = .audio →
      c.renderer.audioContext.pendingRenderContext = true → ¬DropsFrame c.renderer.audioContext q
  | _ => True

namespace QueueLenController

variable (c : QueueLenController) (time len target overflowSize : Binary64)

theorem handleSampling_isOverflowing :
    (c.handleSampling time len target).isOverflowing = c.isOverflowing := by
  unfold handleSampling
  dsimp only
  split_ifs
  · rfl
  · split <;> rfl

theorem handleSampling_adjustCommand :
    (c.handleSampling time len target).adjustCommand =
      (c.samplingDecision time len target).getD c.adjustCommand := by
  unfold handleSampling
  by_cases hdue : c.samplingDue time = true
  · simp only [hdue, Bool.not_true, Bool.false_eq_true, if_false]
    cases c.samplingDecision time len target with
    | none => rfl
    | some command => cases command <;> rfl
  · simp [hdue, samplingDecision]

theorem handleOverflowing_adjustCommand :
    (c.handleOverflowing len target overflowSize).adjustCommand =
      if c.overflows len target overflowSize then .dropFrame else c.adjustCommand := by
  unfold handleOverflowing overflows
  by_cases hlong : len.val > overflowSize.val <;> by_cases hshort : len.val < (target + double 1).val <;>
    cases hover : c.isOverflowing <;> simp [hlong, hshort, hover]

end QueueLenController

theorem audioReadyForFrame_pending (a : AudioContext φ) (q : AudioQueues)
    (hp : a.pendingRenderContext = true) : (audioReadyForFrame a q).2 = true ↔ DropsFrame a q := by
  unfold audioReadyForFrame DropsFrame
  simp only [hp, Bool.not_true, Bool.false_and, Bool.false_or, decide_eq_true_eq,
    QueueLenController.handleOverflowing_adjustCommand]
  cases hstate : a.audioState with
  | buffering =>
    simp only [reduceCtorEq, if_false, false_or, true_and]
    have hover : ∀ len target overflowSize,
        a.queueLenController.resetSampling.overflows len target overflowSize =
          a.queueLenController.overflows len target overflowSize := fun _ _ _ => rfl
    rw [hover]
    split_ifs with h
    · exact ⟨fun _ => Or.inl h,fun _ => rfl⟩
    · exact ⟨Or.inr,fun hd => hd.resolve_left h⟩
  | playing =>
    simp only [if_true]
    have hover : ∀ time len target overflowSize,
        (a.queueLenController.handleSampling time len target).overflows len target overflowSize =
          a.queueLenController.overflows len target overflowSize := by
      intro time len target overflowSize
      unfold QueueLenController.overflows
      rw [QueueLenController.handleSampling_isOverflowing]
    rw [hover, QueueLenController.handleSampling_adjustCommand]
    generalize a.queueLenController.samplingDecision _ _ _ = decision
    split_ifs with h
    · exact ⟨fun _ => Or.inl h,fun _ => rfl⟩
    · cases decision <;> simp [h]

@[simp] theorem audioReadyForFrame_pendingRenderContext (a : AudioContext φ) (q : AudioQueues) :
    (audioReadyForFrame a q).1.pendingRenderContext = a.pendingRenderContext := rfl

@[simp] theorem audioReadyForFrame_renderContext (a : AudioContext φ) (q : AudioQueues) :
    (audioReadyForFrame a q).1.renderContext = a.renderContext := rfl

theorem checkDeviceBufferDry_pending (a : AudioContext φ) (len : ℤ) :
    (checkDeviceBufferDry a len).pendingRenderContext = a.pendingRenderContext ∧
      (checkDeviceBufferDry a len).renderContext = a.renderContext := by
  unfold checkDeviceBufferDry
  split_ifs <;> exact ⟨rfl,rfl⟩

theorem renderDecodedFrame_pending (a : AudioContext φ) (len size : ℤ) :
    (renderDecodedFrame a len size).pendingRenderContext = a.pendingRenderContext ∧
      (renderDecodedFrame a len size).renderContext = a.renderContext := by
  unfold renderDecodedFrame
  have hdry := checkDeviceBufferDry_pending a len
  dsimp only
  split_ifs <;> exact hdry

def WhistRenderer.pending (r : WhistRenderer φ) : WhistPacketType → Bool
  | .video => r.videoContext.pendingRenderContext
  | .audio => r.audioContext.pendingRenderContext
  | .gpu | .message => false

def WhistRenderer.frame (r : WhistRenderer φ) : WhistPacketType → Option φ
  | .video => r.videoContext.renderContext
  | .audio => r.audioContext.renderContext.audioFrame
  | .gpu | .message => none

theorem WhistRenderer.pointsTo_iff (r : WhistRenderer φ) (t : WhistPacketType) (f : φ) :
    r.PointsTo t f ↔ r.pending t = true ∧ r.frame t = some f := by
  cases t <;> simp [PointsTo, pending, frame]

structure Inv (c : ClientState φ) : Prop where
  last : ∀ t, c.renderer.pending t = true → ∃ f, c.renderer.frame t = some f ∧
    c.lastWhistPacket t = some f
  fetch : c.syncPc ≠ .wantsFrame → c.renderer.pending c.packetType = false
  video : ∀ f, c.renderer.videoThread = .consume f →
    c.renderer.pending .video = true ∧ f = c.renderer.frame .video
  audio : ∀ f, c.renderer.audioThread = .render f →
    c.renderer.pending .audio = true ∧ f = c.renderer.frame .audio

theorem Inv.init (currentTime : Binary64) : Inv (initClient currentTime : ClientState φ) := by
  refine ⟨fun t ht => ?_,fun h => absurd rfl h,nofun,nofun⟩
  cases t <;> cases ht

theorem rendererWantsFrame_frame (r : WhistRenderer φ) (t : WhistPacketType) (q : AudioQueues) :
    (rendererWantsFrame r t q).1.pending = r.pending ∧
      (rendererWantsFrame r t q).1.frame = r.frame ∧
      (rendererWantsFrame r t q).1.videoThread = r.videoThread ∧
      (rendererWantsFrame r t q).1.audioThread = r.audioThread := by
  cases t
  case audio =>
    refine ⟨?_,?_,rfl,rfl⟩ <;> funext t <;> cases t <;> rfl
  all_goals exact ⟨rfl,rfl,rfl,rfl⟩

theorem Inv.released_iff {c : ClientState φ} (h : Inv c) (q : AudioQueues) :
    FrameReleased c (.wantsFrame q) ↔ (c.syncPc = .wantsFrame →
      (rendererWantsFrame c.renderer c.packetType q).2 = true →
        c.renderer.pending c.packetType = false) := by
  obtain ⟨hpending,hframe,-,-⟩ := rendererWantsFrame_frame c.renderer c.packetType q
  simp only [FrameReleased, WhistRenderer.pointsTo_iff, hpending, hframe]
  constructor
  · intro hrel hpc hwants
    by_contra hne
    obtain ⟨f,hf,hlast⟩ := h.last c.packetType (by simpa using hne)
    exact hrel f hpc hlast hwants ⟨by simpa using hne,hf⟩
  · intro hrel f hpc _ hwants hp
    rw [hrel hpc hwants] at hp
    cases hp.1

theorem Inv.released_iff_keeps {c : ClientState φ} (h : Inv c) (action : Action φ) :
    FrameReleased c action ↔ KeepsPending c action := by
  cases action
  case wantsFrame q =>
    rw [h.released_iff]
    simp only [KeepsPending]
    cases ht : c.packetType with
    | audio =>
      constructor
      · intro hrel hpc _ hp hdrop
        have hno := hrel hpc ((audioReadyForFrame_pending _ q hp).mpr hdrop)
        rw [WhistRenderer.pending, hp] at hno
        cases hno
      · intro hkeep hpc hwants
        by_contra hne
        have hp : c.renderer.audioContext.pendingRenderContext = true := by
          simpa [WhistRenderer.pending] using hne
        exact hkeep hpc rfl hp ((audioReadyForFrame_pending _ q hp).mp hwants)
    | video => simp [rendererWantsFrame, videoReadyForFrame, WhistRenderer.pending]
    | gpu => simp [WhistRenderer.pending]
    | message => simp [WhistRenderer.pending]
  all_goals exact Iff.rfl

theorem rendererReceiveFrame_spec (r : WhistRenderer φ) (t : WhistPacketType) (f : φ)
    (hp : r.pending t = false) :
    (∀ u, u ≠ t → (rendererReceiveFrame r t f).pending u = r.pending u ∧
      (rendererReceiveFrame r t f).frame u = r.frame u) ∧
    ((rendererReceiveFrame r t f).pending t = true → (rendererReceiveFrame r t f).frame t = some f) ∧
    (rendererReceiveFrame r t f).videoThread = r.videoThread ∧
    (rendererReceiveFrame r t f).audioThread = r.audioThread := by
  cases t with
  | video =>
    refine ⟨fun u hu => ?_,fun _ => ?_,rfl,rfl⟩
    · cases u <;> first | exact absurd rfl hu | exact ⟨rfl,rfl⟩
    · have hp' : r.videoContext.pendingRenderContext = false := hp
      simp [rendererReceiveFrame, receiveVideo, hp', WhistRenderer.frame]
  | audio =>
    refine ⟨fun u hu => ?_,fun hnew => ?_,rfl,rfl⟩
    · cases u <;> first | exact absurd rfl hu | exact ⟨rfl,rfl⟩
    · have hp' : r.audioContext.pendingRenderContext = false := hp
      simp only [rendererReceiveFrame, receiveAudio, WhistRenderer.pending, WhistRenderer.frame,
        hp', Bool.not_false, if_true] at hnew ⊢
      split_ifs at hnew ⊢ with hdrop
      · rw [hp'] at hnew
        cases hnew
      · rfl
  | gpu => exact ⟨fun _ _ => ⟨rfl,rfl⟩,fun h => (by cases h),rfl,rfl⟩
  | message => exact ⟨fun _ _ => ⟨rfl,rfl⟩,fun h => (by cases h),rfl,rfl⟩

theorem Inv.syncStep {c : ClientState φ} (h : Inv c) (action : Action φ)
    (hrel : FrameReleased c action) : Inv (syncStep c action) := by
  cases action
  case wantsFrame q =>
    have hfree := (h.released_iff q).mp hrel
    obtain ⟨hpending,hframe,hvideo,haudio⟩ := rendererWantsFrame_frame c.renderer c.packetType q
    unfold Client.syncStep
    dsimp only
    cases hpc : c.syncPc with
    | wantsFrame =>
      dsimp only
      split_ifs with hwants
      · refine ⟨?_,fun _ => ?_,?_,?_⟩ <;> dsimp only
        · rw [hpending, hframe]
          exact h.last
        · rw [hpending]
          exact hfree hpc hwants
        · rw [hvideo, hpending, hframe]
          exact h.video
        · rw [haudio, hpending, hframe]
          exact h.audio
      · refine ⟨?_,fun hne => absurd rfl hne,?_,?_⟩ <;> dsimp only [ClientState.nextType]
        · rw [hpending, hframe]
          exact h.last
        · rw [hvideo, hpending, hframe]
          exact h.video
        · rw [haudio, hpending, hframe]
          exact h.audio
    | getPacket => exact h
    | receiveFrame f => exact h
  case getPacket whistPacket =>
    unfold Client.syncStep
    dsimp only
    cases hpc : c.syncPc with
    | wantsFrame => exact h
    | getPacket =>
      cases whistPacket with
      | none => exact ⟨h.last,fun hne => absurd rfl hne,h.video,h.audio⟩
      | some f => exact ⟨h.last,fun _ => h.fetch (by simp [hpc]),h.video,h.audio⟩
    | receiveFrame f => exact h
  case receiveFrame =>
    unfold Client.syncStep
    dsimp only
    cases hpc : c.syncPc with
    | wantsFrame => exact h
    | getPacket => exact h
    | receiveFrame f =>
      have hno := h.fetch (by simp [hpc])
      obtain ⟨hother,hself,hvideo,haudio⟩ := rendererReceiveFrame_spec c.renderer c.packetType f hno
      have hthread : ∀ u, c.renderer.pending u = true →
          (rendererReceiveFrame c.renderer c.packetType f).pending u = c.renderer.pending u ∧
            (rendererReceiveFrame c.renderer c.packetType f).frame u = c.renderer.frame u := by
        intro u hu
        refine hother u (fun hut => ?_)
        rw [hut, hno] at hu
        cases hu
      refine ⟨fun t ht => ?_,fun hne => absurd rfl hne,fun g hg => ?_,fun g hg => ?_⟩ <;>
        dsimp only [ClientState.nextType] at *
      · by_cases hty : t = c.packetType
        · subst hty
          exact ⟨f,hself ht,Function.update_self _ _ _⟩
        · rw [(hother t hty).1] at ht
          rw [(hother t hty).2, Function.update_of_ne hty]
          exact h.last t ht
      · rw [hvideo] at hg
        obtain ⟨hp,hf⟩ := h.video g hg
        rw [(hthread _ hp).1, (hthread _ hp).2]
        exact ⟨hp,hf⟩
      · rw [haudio] at hg
        obtain ⟨hp,hf⟩ := h.audio g hg
        rw [(hthread _ hp).1, (hthread _ hp).2]
        exact ⟨hp,hf⟩
  all_goals exact h

/-- A render thread changes the pending flag and the frame of its own type only, and only
clears the flag. -/
theorem Inv.render {c : ClientState φ} (h : Inv c) {r : WhistRenderer φ}
    (hp : ∀ t, r.pending t = true → c.renderer.pending t = true)
    (hf : r.frame = c.renderer.frame)
    (hvideo : ∀ f, r.videoThread = .consume f → r.pending .video = true ∧ f = r.frame .video)
    (haudio : ∀ f, r.audioThread = .render f → r.pending .audio = true ∧ f = r.frame .audio) :
    Inv { c with renderer := r } := by
  refine ⟨fun t ht => ?_,fun hpc => ?_,hvideo,haudio⟩ <;> dsimp only at *
  · rw [hf]
    exact h.last t (hp t ht)
  · by_contra hne
    have hold := hp c.packetType (by simpa using hne)
    rw [h.fetch hpc] at hold
    cases hold

theorem Inv.videoStep {c : ClientState φ} (h : Inv c) (action : Action φ) :
    Inv { c with renderer := videoStep c.renderer action } := by
  cases action
  case videoWake =>
    unfold Client.videoStep
    dsimp only
    cases hthread : c.renderer.videoThread with
    | waitSemaphore pendingVideo =>
      have hframe : ∀ f, (if c.renderer.videoContext.pendingRenderContext = true then
          VideoThread.consume c.renderer.videoContext.renderContext else .render) = .consume f →
          c.renderer.pending .video = true ∧ f = c.renderer.frame .video := by
        intro f hf
        split_ifs at hf with hp
        · exact ⟨hp,(VideoThread.consume.inj hf).symm⟩
      dsimp only
      generalize (if c.renderer.videoContext.pendingRenderContext = true then
        VideoThread.consume c.renderer.videoContext.renderContext else .render) = thread at hframe ⊢
      split_ifs
      · exact h.render (fun t ht => by cases t <;> exact ht) rfl hframe h.audio
      · exact h.render (fun t ht => by cases t <;> exact ht) rfl hframe h.audio
      · exact h
    | consume f => exact h
    | render => exact h
  case videoConsume =>
    unfold Client.videoStep
    dsimp only
    cases hthread : c.renderer.videoThread with
    | waitSemaphore pendingVideo => exact h
    | consume f =>
      refine h.render (fun t ht => ?_) (by funext t; cases t <;> rfl) nofun h.audio
      cases t
      case video => cases ht
      all_goals exact ht
    | render => exact h
  case videoReturn pendingVideo hasRendered =>
    unfold Client.videoStep
    dsimp only
    cases hthread : c.renderer.videoThread with
    | waitSemaphore pendingVideo => exact h
    | consume f => exact h
    | render =>
      dsimp only
      split_ifs <;> exact h.render (fun t ht => by cases t <;> exact ht) rfl nofun h.audio
  all_goals exact h

theorem Inv.audioStep {c : ClientState φ} (h : Inv c) (action : Action φ) :
    Inv { c with renderer := audioStep c.renderer action } := by
  -- within `render_audio` the flag and the frame stay
  have hkeep : ∀ a : AudioContext φ, a.pendingRenderContext =
      c.renderer.audioContext.pendingRenderContext →
      a.renderContext = c.renderer.audioContext.renderContext →
      Inv { c with renderer := { c.renderer with audioContext := a } } := by
    intro a hp hctx
    have hpending : ∀ t, ({ c.renderer with audioContext := a } : WhistRenderer φ).pending t =
        c.renderer.pending t := by
      intro t
      cases t
      case audio => exact hp
      all_goals rfl
    have hframe : ({ c.renderer with audioContext := a } : WhistRenderer φ).frame =
        c.renderer.frame := by
      funext t
      cases t
      case audio => exact congrArg AudioRenderContext.audioFrame hctx
      all_goals rfl
    refine h.render (fun t ht => hpending t ▸ ht) hframe ?_ ?_ <;> rw [hpending, hframe]
    · exact h.video
    · exact h.audio
  cases action
  case audioWake =>
    unfold Client.audioStep
    dsimp only
    cases hthread : c.renderer.audioThread with
    | waitSemaphore =>
      dsimp only
      split_ifs
      · exact h.render (fun t ht => by cases t <;> exact ht) rfl h.video nofun
      · exact h
    | woken => exact h
    | render f => exact h
  case audioRender =>
    unfold Client.audioStep
    dsimp only
    cases hthread : c.renderer.audioThread with
    | waitSemaphore => exact h
    | woken =>
      dsimp only
      split_ifs with hrender
      · rw [Bool.and_eq_true] at hrender
        refine h.render (fun t ht => by cases t <;> exact ht) rfl h.video (fun f hf => ?_)
        exact ⟨hrender.2,(AudioThread.render.inj hf).symm⟩
      · exact h.render (fun t ht => by cases t <;> exact ht) rfl h.video nofun
    | render f => exact h
  case audioCheck len =>
    unfold Client.audioStep
    dsimp only
    cases hthread : c.renderer.audioThread with
    | waitSemaphore => exact h
    | woken => exact h
    | render f =>
      obtain ⟨hp,hctx⟩ := checkDeviceBufferDry_pending c.renderer.audioContext len
      simpa only [hthread] using hkeep _ hp hctx
  case audioDecoded len size =>
    unfold Client.audioStep
    dsimp only
    cases hthread : c.renderer.audioThread with
    | waitSemaphore => exact h
    | woken => exact h
    | render f =>
      obtain ⟨hp,hctx⟩ := renderDecodedFrame_pending c.renderer.audioContext len size
      simpa only [hthread] using hkeep _ hp hctx
  case audioDone =>
    unfold Client.audioStep
    dsimp only
    cases hthread : c.renderer.audioThread with
    | waitSemaphore => exact h
    | woken => exact h
    | render f =>
      refine h.render (fun t ht => ?_) (by funext t; cases t <;> rfl) h.video nofun
      cases t
      case audio => cases ht
      all_goals exact ht
  all_goals exact h

theorem Inv.step {c : ClientState φ} (h : Inv c) (action : Action φ)
    (hrel : FrameReleased c action) : Inv (step c action) := by
  cases action
  case wantsFrame q => exact h.syncStep _ hrel
  case getPacket f => exact h.syncStep _ hrel
  case receiveFrame => exact h.syncStep _ hrel
  case videoWake => exact h.videoStep _
  case videoConsume => exact h.videoStep _
  case videoReturn b b' => exact h.videoStep _
  all_goals exact h.audioStep _

/-- In a run every renderer that wants a frame has released the one before, exactly when
the audio renderer never asks for a frame to drop while it has a pending one. -/
theorem frames_released_iff (currentTime : Binary64) (schedule : List (Action φ)) :
    Run.Each step FrameReleased (initClient currentTime) schedule ↔
      Run.Each step KeepsPending (initClient currentTime) schedule :=
  Run.each_iff (fun _ action h => h.step action) (fun _ action h => h.released_iff_keeps action)
    (Inv.init currentTime)

/-- What the loop finds with `numFramesBuffered` audio frames and an empty device. -/
def queuesOf (numFramesBuffered : ℤ) : AudioQueues :=
  ⟨numFramesBuffered,0,Binary64.nearest 0,Binary64.nearest 0⟩

/-- Audio frame 1 is pending until the first video frame has been rendered.  Meanwhile the
ring buffer fills up, so the renderer wants the next frame in order to drop it. -/
def overflowRun : List (Action ℕ) :=
  [.wantsFrame (queuesOf 0),.getPacket none,
    .wantsFrame (queuesOf 1),.getPacket (some 1),.receiveFrame,
    .wantsFrame (queuesOf 0),.getPacket none,
    .wantsFrame (queuesOf 0),.getPacket none,
    .wantsFrame (queuesOf 21)]

theorem overflowRun_not_released :
    ¬Run.Each step FrameReleased (initClient (Binary64.nearest 0)) overflowRun := by
  rintro ⟨-,-,-,-,-,-,-,-,-,hrel,-⟩
  refine hrel 1 ?_ ?_ ?_ ?_
  · decide +kernel
  · decide +kernel
  · decide +kernel
  · rw [WhistRenderer.pointsTo_iff]
    constructor <;> decide +kernel

end Whist.Client
