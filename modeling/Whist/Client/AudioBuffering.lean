import Whist.Client.Audio

/-! # The scale factor and the buffer of the audio context

The loop over the packets scales and receives while the audio thread checks the device and buffers.  Each is cut where
the other can come between.
-/
namespace Whist.Client

variable {φ : Type}

theorem double_intCast {n : ℤ} (hn : |n| ≤ 2 ^ 53) : (double n).val = n := Binary64.round_intCast hn

theorem double_one : (double 1).val = 1 := by
  simpa using @double_intCast 1 (by norm_num)

theorem double_four : (double 4).val = 4 := by
  simpa using @double_intCast 4 (by norm_num)

theorem double_eight : (double 8).val = 8 := by
  simpa using @double_intCast 8 (by norm_num)

theorem scaleUpStep_val : scaleUpStep.val = 3 / 2 :=
  @Binary64.round_eq_self (3 / 2) 3 (-1) (by norm_num) (by norm_num) (by norm_num)

theorem decodedBytesPerFrame_val : (double decodedBytesPerFrame).val = 3840 := by
  unfold decodedBytesPerFrame
  simpa using @double_intCast (480 * 4 * 2) (by norm_num)

namespace AdaptiveParameterController

def getMaxPossibleDeviceQueueTargetSize : Binary64 := deviceQueueTargetSizeInitial * scaleFactorMax

def InRange (c : AdaptiveParameterController) : Prop :=
  1 ≤ c.currentScaleFactor.val ∧ c.currentScaleFactor.val ≤ 4

theorem getDeviceQueueTargetSize_val (c : AdaptiveParameterController) :
    c.getDeviceQueueTargetSize.val = 8 * c.currentScaleFactor.val := by
  have h := Binary64.round_two_pow_mul 3 c.currentScaleFactor.exact
  norm_num at h
  unfold getDeviceQueueTargetSize deviceQueueTargetSizeInitial
  rw [Binary64.mul_val, double_eight, h]

theorem spared_le (c : AdaptiveParameterController) {least : Binary64} (hsafe : 4 < least.val)
    (htarget : least.val ≤ c.getDeviceQueueTargetSize.val) :
    ((c.getDeviceQueueTargetSize - (least - safeThreshold)) / deviceQueueTargetSizeInitial).val ≤
      c.currentScaleFactor.val := by
  have hspare : (least - safeThreshold).val = Binary64.round (least.val - 4) := by
    unfold safeThreshold
    rw [Binary64.sub_val, double_four]
  have hnonneg : 0 ≤ Binary64.round (least.val - 4) := Binary64.round_nonneg (by linarith)
  have hle : Binary64.round (least.val - 4) ≤ c.getDeviceQueueTargetSize.val :=
    Binary64.round_le_of_le (by linarith) (by linarith) c.getDeviceQueueTargetSize.exact
  have hrest : Binary64.round (c.getDeviceQueueTargetSize.val - Binary64.round (least.val - 4)) ≤
      c.getDeviceQueueTargetSize.val :=
    Binary64.round_le_of_le (by linarith) (by linarith) c.getDeviceQueueTargetSize.exact
  have hrest' := Binary64.round_nonneg (sub_nonneg.mpr hle)
  have hdiv : (c.getDeviceQueueTargetSize - (least - safeThreshold)).val / 8 ≤
      c.currentScaleFactor.val := by
    rw [Binary64.sub_val, hspare, div_le_iff₀ (by norm_num), mul_comm, ← getDeviceQueueTargetSize_val]
    exact hrest
  unfold deviceQueueTargetSizeInitial
  rw [Binary64.div_val, double_eight]
  apply Binary64.round_le_of_le _ hdiv c.currentScaleFactor.exact
  rw [Binary64.sub_val, hspare]
  exact div_nonneg hrest' (by norm_num)

theorem handleScalingDown_bounds (c : AdaptiveParameterController)
    (deviceQueueLen currentTime : Binary64) (h : c.InRange) :
    1 ≤ (c.handleScalingDown deviceQueueLen currentTime).currentScaleFactor.val ∧
      (c.handleScalingDown deviceQueueLen currentTime).currentScaleFactor.val ≤
        c.currentScaleFactor.val := by
  unfold handleScalingDown
  extract_lets c₁ c₂ target c₃ spareAmount newScaleFactor clipped
  -- the running minimum is all that changes before the factor does
  have hc₁ : c₁.currentScaleFactor = c.currentScaleFactor := by
    unfold c₁
    split_ifs <;> rfl
  have hc₂ : c₂.currentScaleFactor = c.currentScaleFactor := by
    unfold c₂
    split_ifs
    · exact hc₁
    · exact hc₁
  have hin : c₂.InRange := by
    unfold InRange
    rw [hc₂]
    exact h
  split_ifs with hdown
  · have hsafe : 4 < c₂.deviceQueueLenMin.val := by
      simpa only [safeThreshold, double_four] using hdown.1
    have htarget : 4 < target.val := by
      rw [getDeviceQueueTargetSize_val]
      linarith [hin.1]
    have hleast : 4 < c₃.deviceQueueLenMin.val ∧ c₃.deviceQueueLenMin.val ≤ target.val := by
      unfold c₃
      split_ifs with hclip
      · exact ⟨htarget,le_rfl⟩
      · exact ⟨hsafe,not_lt.mp hclip⟩
    have hnew := c₂.spared_le hleast.1 hleast.2
    rw [hc₂] at hnew
    have hclipped : 1 ≤ clipped.val ∧ clipped.val ≤ c.currentScaleFactor.val := by
      unfold clipped
      split_ifs with hmin
      · rw [scaleFactorMin, double_one]
        exact ⟨le_rfl,h.1⟩
      · rw [scaleFactorMin, double_one, not_lt] at hmin
        exact ⟨hmin,hnew⟩
    exact hclipped
  · rw [hc₂]
    exact ⟨h.1,le_rfl⟩

theorem handleScalingUp_bounds (c : AdaptiveParameterController)
    (deviceQueueLen currentTime : Binary64) (h : c.InRange) :
    c.currentScaleFactor.val ≤
        (c.handleScalingUp deviceQueueLen currentTime).currentScaleFactor.val ∧
      (c.handleScalingUp deviceQueueLen currentTime).currentScaleFactor.val ≤ 4 := by
  unfold handleScalingUp
  extract_lets c₁ newScaleFactor clipped
  split_ifs with hexpired hrisky hscale
  · exact ⟨le_rfl,h.2⟩
  · have hnew : c.currentScaleFactor.val ≤ newScaleFactor.val := by
      have hpos : 0 < c.currentScaleFactor.val := by linarith [h.1]
      change _ ≤ (c.currentScaleFactor * scaleUpStep).val
      rw [Binary64.mul_val, scaleUpStep_val]
      exact Binary64.le_round_of_le hpos (by linarith) c.currentScaleFactor.exact
    have hclipped : c.currentScaleFactor.val ≤ clipped.val ∧ clipped.val ≤ 4 := by
      unfold clipped
      split_ifs with hmax
      · rw [scaleFactorMax, double_four]
        exact ⟨h.2,le_rfl⟩
      · rw [scaleFactorMax, double_four, not_lt] at hmax
        exact ⟨hnew,hmax⟩
    exact hclipped
  · exact ⟨le_rfl,h.2⟩
  · exact ⟨le_rfl,h.2⟩

theorem InRange.handleScalingDown {c : AdaptiveParameterController} (h : c.InRange)
    (deviceQueueLen currentTime : Binary64) :
    (c.handleScalingDown deviceQueueLen currentTime).InRange := by
  have hdown := c.handleScalingDown_bounds deviceQueueLen currentTime h
  exact ⟨hdown.1,hdown.2.trans h.2⟩

theorem InRange.handleScalingUp {c : AdaptiveParameterController} (h : c.InRange)
    (deviceQueueLen currentTime : Binary64) :
    (c.handleScalingUp deviceQueueLen currentTime).InRange := by
  have hup := c.handleScalingUp_bounds deviceQueueLen currentTime h
  exact ⟨h.1.trans hup.1,hup.2⟩

theorem init_inRange (currentTime : Binary64) : (init currentTime).InRange := by
  unfold InRange init scaleFactorInitial
  rw [double_one]
  norm_num

theorem InRange.threshold_le {c : AdaptiveParameterController} (h : c.InRange) :
    ((c.getDeviceQueueTargetSize - double 1) * double decodedBytesPerFrame).val ≤
      31 * decodedBytesPerFrame := by
  have htarget := c.getDeviceQueueTargetSize_val
  have hframes : (c.getDeviceQueueTargetSize - double 1).val ≤ 31 := by
    rw [Binary64.sub_val, double_one]
    refine Binary64.round_le_of_le (by linarith [h.1]) (by linarith [h.2]) ?_
    exact_mod_cast @Binary64.round_intCast 31 (by norm_num)
  have hnonneg : 0 ≤ (c.getDeviceQueueTargetSize - double 1).val := by
    rw [Binary64.sub_val, double_one]
    exact Binary64.round_nonneg (by linarith [h.1])
  rw [Binary64.mul_val, decodedBytesPerFrame_val]
  refine Binary64.round_le_of_le (by positivity) ?_ ?_
  · unfold decodedBytesPerFrame
    push_cast
    linarith
  · unfold decodedBytesPerFrame
    exact_mod_cast @Binary64.round_intCast (31 * (480 * 4 * 2)) (by norm_num)

end AdaptiveParameterController

def audioBufferingBufferBytes : ℤ :=
  ⌊(double decodedBytesPerFrame *
    (AdaptiveParameterController.getMaxPossibleDeviceQueueTargetSize + double 1)).val⌋

theorem audioBufferingBufferBytes_eq : audioBufferingBufferBytes = 33 * decodedBytesPerFrame := by
  have hmax : AdaptiveParameterController.getMaxPossibleDeviceQueueTargetSize.val = 32 := by
    unfold AdaptiveParameterController.getMaxPossibleDeviceQueueTargetSize
      deviceQueueTargetSizeInitial scaleFactorMax
    rw [Binary64.mul_val, double_eight, double_four]
    norm_num
    exact_mod_cast @Binary64.round_intCast 32 (by norm_num)
  have hframes : (AdaptiveParameterController.getMaxPossibleDeviceQueueTargetSize + double 1).val =
      33 := by
    rw [Binary64.add_val, hmax, double_one]
    norm_num
    exact_mod_cast @Binary64.round_intCast 33 (by norm_num)
  have hbytes : Binary64.round (3840 * 33) = ((33 * decodedBytesPerFrame : ℤ) : ℚ) := by
    rw [show (3840 * 33 : ℚ) = ((33 * decodedBytesPerFrame : ℤ) : ℚ) by norm_num [decodedBytesPerFrame]]
    exact Binary64.round_intCast (by norm_num [decodedBytesPerFrame])
  unfold audioBufferingBufferBytes
  rw [Binary64.mul_val, decodedBytesPerFrame_val, hframes, hbytes, Int.floor_intCast]

/-- `audio_ready_for_frame` behind `handle_scaling`. -/
def readyAfterScaling (a : AudioContext φ) (q : AudioQueues) : AudioContext φ × Bool :=
  let target := a.adaptiveParameterController.getDeviceQueueTargetSize
  let overflowSize := a.adaptiveParameterController.getTotalQueueOverflowSize
  let queue := if a.audioState = .playing then
    a.queueLenController.handleSampling q.samplingTime q.totalQueueLen target
    else a.queueLenController.resetSampling
  let queue := queue.handleOverflowing q.totalQueueLen target overflowSize
  let numFramesToRender := if queue.adjustCommand = .dupFrame then double 2 else double 1
  let wantsNewFrame := !a.pendingRenderContext &&
    decide (q.audioDeviceLen ≤ ((target - numFramesToRender) * double decodedBytesPerFrame).val)
  ({ a with queueLenController := queue },
    wantsNewFrame || decide (queue.adjustCommand = .dropFrame))

/-- `render_audio` with one decoded frame, behind the check of the device. -/
def bufferDecodedFrame (a : AudioContext φ) (decodedDataSize : ℤ) : AudioContext φ :=
  if a.audioState = .buffering then
    if ((a.audioBufferingBufferSize + decodedDataSize : ℤ) : ℚ) >
        ((a.adaptiveParameterController.getDeviceQueueTargetSize - double 1) *
          double decodedBytesPerFrame).val then
      { a with audioBufferingBufferSize := 0, audioState := .playing }
    else { a with audioBufferingBufferSize := a.audioBufferingBufferSize + decodedDataSize }
  else a

inductive AudioStep (φ : Type) where
  | scalingDown (deviceQueueLen currentTime : Binary64)
  | scalingUp (deviceQueueLen currentTime : Binary64)
  | ready (q : AudioQueues)
  | receive (audioFrame : φ)
  | checkDry (audioDeviceLen : ℤ)
  | decoded (decodedDataSize : ℤ)
  /-- The end of `render_audio`. -/
  | rendered

def AudioContext.step (a : AudioContext φ) : AudioStep φ → AudioContext φ
  | .scalingDown deviceQueueLen currentTime =>
    { a with adaptiveParameterController :=
        a.adaptiveParameterController.handleScalingDown deviceQueueLen currentTime }
  | .scalingUp deviceQueueLen currentTime =>
    { a with adaptiveParameterController :=
        a.adaptiveParameterController.handleScalingUp deviceQueueLen currentTime }
  | .ready q => (readyAfterScaling a q).1
  | .receive audioFrame => receiveAudio a audioFrame
  | .checkDry audioDeviceLen => checkDeviceBufferDry a audioDeviceLen
  | .decoded decodedDataSize => bufferDecodedFrame a decodedDataSize
  | .rendered => { a with pendingRenderContext := false }

def AudioStep.Fits : AudioStep φ → Prop
  | .decoded decodedDataSize => 0 ≤ decodedDataSize ∧ decodedDataSize ≤ decodedBytesPerFrame
  | _ => True

structure AudioContext.Bounded (a : AudioContext φ) : Prop where
  inRange : a.adaptiveParameterController.InRange
  nonneg : 0 ≤ a.audioBufferingBufferSize
  size_le : a.audioBufferingBufferSize ≤ 31 * decodedBytesPerFrame

theorem initAudio_bounded (currentTime : Binary64) : (initAudio (φ := φ) currentTime).Bounded :=
  ⟨AdaptiveParameterController.init_inRange currentTime,le_rfl,
    mul_nonneg (by norm_num) (by norm_num [decodedBytesPerFrame])⟩

theorem AudioContext.Bounded.of_eq {a b : AudioContext φ} (h : a.Bounded)
    (hc : b.adaptiveParameterController = a.adaptiveParameterController)
    (hs : b.audioBufferingBufferSize = a.audioBufferingBufferSize) : b.Bounded :=
  ⟨hc ▸ h.inRange,hs ▸ h.nonneg,hs ▸ h.size_le⟩

theorem AudioContext.Bounded.bufferDecodedFrame {a : AudioContext φ} (h : a.Bounded)
    {decodedDataSize : ℤ} (h₀ : 0 ≤ decodedDataSize) :
    (bufferDecodedFrame a decodedDataSize).Bounded := by
  unfold Client.bufferDecodedFrame
  split_ifs with hbuffering hfull
  · exact ⟨h.inRange,le_rfl,le_trans h.nonneg h.size_le⟩
  · have hle : ((a.audioBufferingBufferSize + decodedDataSize : ℤ) : ℚ) ≤
        ((31 * decodedBytesPerFrame : ℤ) : ℚ) := by
      rw [Int.cast_mul]
      exact (not_lt.mp hfull).trans h.inRange.threshold_le
    exact ⟨h.inRange,add_nonneg h.nonneg h₀,by exact_mod_cast hle⟩
  · exact h

theorem AudioContext.Bounded.step {a : AudioContext φ} (h : a.Bounded) {s : AudioStep φ}
    (hs : s.Fits) : (a.step s).Bounded := by
  cases s with
  | scalingDown deviceQueueLen currentTime =>
    exact ⟨h.inRange.handleScalingDown deviceQueueLen currentTime,h.nonneg,h.size_le⟩
  | scalingUp deviceQueueLen currentTime =>
    exact ⟨h.inRange.handleScalingUp deviceQueueLen currentTime,h.nonneg,h.size_le⟩
  | ready q => exact h.of_eq rfl rfl
  | receive audioFrame =>
    refine h.of_eq ?_ ?_ <;> simp only [AudioContext.step, receiveAudio] <;> split_ifs <;> rfl
  | checkDry audioDeviceLen =>
    refine h.of_eq ?_ ?_ <;> simp only [AudioContext.step, checkDeviceBufferDry] <;> split_ifs <;> rfl
  | decoded decodedDataSize => exact h.bufferDecodedFrame hs.1
  | rendered => exact h.of_eq rfl rfl

theorem AudioContext.Bounded.run {steps : List (AudioStep φ)} (hsteps : ∀ s ∈ steps, s.Fits)
    {a : AudioContext φ} (h : a.Bounded) : (steps.foldl AudioContext.step a).Bounded := by
  induction steps generalizing a with
  | nil => exact h
  | cons s steps ih =>
    rw [List.foldl_cons]
    exact ih (fun t ht => hsteps t (List.mem_cons_of_mem s ht))
      (h.step (hsteps s List.mem_cons_self))

/-- After any steps of the two threads the factor is in its range, scaling moves it the right
way and the bytes collected lie in the buffer, as do those a next chunk adds. -/
theorem audioBuffering_inRange (startTime : Binary64) (steps : List (AudioStep φ))
    (hsteps : ∀ s ∈ steps, s.Fits) :
    let a := steps.foldl AudioContext.step (initAudio (φ := φ) startTime)
    let scale := a.adaptiveParameterController
    (1 ≤ scale.currentScaleFactor.val ∧ scale.currentScaleFactor.val ≤ 4) ∧
      (∀ deviceQueueLen currentTime,
        (scale.handleScalingDown deviceQueueLen currentTime).currentScaleFactor.val ≤
          scale.currentScaleFactor.val) ∧
      (∀ deviceQueueLen currentTime, scale.currentScaleFactor.val ≤
        (scale.handleScalingUp deviceQueueLen currentTime).currentScaleFactor.val) ∧
      0 ≤ a.audioBufferingBufferSize ∧ a.audioBufferingBufferSize ≤ audioBufferingBufferBytes ∧
      ∀ decodedDataSize ≤ decodedBytesPerFrame,
        a.audioBufferingBufferSize + decodedDataSize ≤ audioBufferingBufferBytes := by
  intro a scale
  have h : a.Bounded := (initAudio_bounded startTime).run hsteps
  have hbytes : (0 : ℤ) ≤ decodedBytesPerFrame := by norm_num [decodedBytesPerFrame]
  rw [audioBufferingBufferBytes_eq]
  refine ⟨h.inRange,?_,?_,h.nonneg,?_,?_⟩
  · intro deviceQueueLen currentTime
    exact (scale.handleScalingDown_bounds deviceQueueLen currentTime h.inRange).2
  · intro deviceQueueLen currentTime
    exact (scale.handleScalingUp_bounds deviceQueueLen currentTime h.inRange).1
  · linarith [h.size_le]
  · intro decodedDataSize hsize
    linarith [h.size_le]

theorem audioBuffering_inRange_frames :
    let steps : List (AudioStep Unit) :=
      [.decoded 3840,.scalingUp (double 1) (double 5),.checkDry 0,.decoded 3840,
        .scalingDown (double 9) (double 60),.decoded 1024]
    let a := steps.foldl AudioContext.step (initAudio (double 0))
    (∀ s ∈ steps, s.Fits) ∧ 0 ≤ a.audioBufferingBufferSize ∧
      a.audioBufferingBufferSize ≤ audioBufferingBufferBytes := by
  have hfits : ∀ s ∈ ([.decoded 3840,.scalingUp (double 1) (double 5),.checkDry 0,.decoded 3840,
      .scalingDown (double 9) (double 60),.decoded 1024] : List (AudioStep Unit)), s.Fits := by
    simp [AudioStep.Fits, decodedBytesPerFrame]
  have h := audioBuffering_inRange (double 0) _ hfits
  exact ⟨hfits,h.2.2.2.1,h.2.2.2.2.1⟩

end Whist.Client
