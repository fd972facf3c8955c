import Whist.Foundation.Binary64

/-! # The audio context of the client

The controllers of the audio queue, the render context and what the render thread does to them.  The frequency, the
refreshing of the device and the decoder only change inputs and are left out.
-/
namespace Whist.Client

abbrev double (x : ℚ) : Binary64 := .nearest x

def decodedBytesPerFrame : ℤ := 480 * 4 * 2

inductive AudioState where
  | buffering
  | playing
  deriving DecidableEq

inductive AdjustCommand where
  | noopFrame
  | dropFrame
  | dupFrame
  deriving DecidableEq

def deviceQueueTargetSizeInitial : Binary64 := double 8
def totalQueueOverflowSizeInitial : Binary64 := double 20
def scaleFactorInitial : Binary64 := double 1
def scaleFactorMin : Binary64 := double 1
def scaleFactorMax : Binary64 := double 4
def scaleUpStep : Binary64 := double (3 / 2)
def riskyThreshold : Binary64 := double 2
def riskyCntBeforeScale : ℤ := 3
def riskyExpireTime : Binary64 := double 30
def safeThreshold : Binary64 := double 4
def safeDuration : Binary64 := double 45
def coolDownForStartup : Binary64 := double 4
def coolDownBetweenRiskyStatus : Binary64 := double 2
def inf : Binary64 := double 99999

structure AdaptiveParameterController where
  currentCoolDown : Binary64
  lastRiskyTime : Binary64
  riskyCnt : ℤ
  deviceQueueLenMin : Binary64
  deviceQueueLenMinSince : Binary64
  currentScaleFactor : Binary64

namespace AdaptiveParameterController

def resetForNextRound (c : AdaptiveParameterController) (currentTime : Binary64) :
    AdaptiveParameterController :=
  { c with
    riskyCnt := 0
    lastRiskyTime := currentTime
    deviceQueueLenMinSince := currentTime
    deviceQueueLenMin := inf
    currentCoolDown := coolDownBetweenRiskyStatus }

def getDeviceQueueTargetSize (c : AdaptiveParameterController) : Binary64 :=
  deviceQueueTargetSizeInitial * c.currentScaleFactor

def getTotalQueueOverflowSize (c : AdaptiveParameterController) : Binary64 :=
  totalQueueOverflowSizeInitial * c.currentScaleFactor

def handleScalingDown (c : AdaptiveParameterController) (deviceQueueLen currentTime : Binary64) :
    AdaptiveParameterController :=
  let c := if deviceQueueLen.val < c.deviceQueueLenMin.val then
    { c with deviceQueueLenMin := deviceQueueLen } else c
  let c := if c.deviceQueueLenMin.val < safeThreshold.val then
    { c with deviceQueueLenMinSince := currentTime, deviceQueueLenMin := inf } else c
  if c.deviceQueueLenMin.val > safeThreshold.val ∧ c.deviceQueueLenMin.val < inf.val ∧
      (currentTime - c.deviceQueueLenMinSince).val > safeDuration.val then
    let target := c.getDeviceQueueTargetSize
    let c := if c.deviceQueueLenMin.val > target.val then
      { c with deviceQueueLenMin := target } else c
    let spareAmount := c.deviceQueueLenMin - safeThreshold
    let newScaleFactor := (target - spareAmount) / deviceQueueTargetSizeInitial
    let newScaleFactor := if newScaleFactor.val < scaleFactorMin.val then scaleFactorMin
      else newScaleFactor
    { c with currentScaleFactor := newScaleFactor }.resetForNextRound currentTime
  else c

def handleScalingUp (c : AdaptiveParameterController) (deviceQueueLen currentTime : Binary64) :
    AdaptiveParameterController :=
  if (currentTime - c.lastRiskyTime).val > riskyExpireTime.val then
    { c with riskyCnt := 0, lastRiskyTime := currentTime }
  else if deviceQueueLen.val < riskyThreshold.val ∧
      (currentTime - c.lastRiskyTime).val > c.currentCoolDown.val then
    let c := { c with
      riskyCnt := c.riskyCnt + 1
      lastRiskyTime := currentTime
      currentCoolDown := coolDownBetweenRiskyStatus }
    if c.riskyCnt ≥ riskyCntBeforeScale then
      let newScaleFactor := c.currentScaleFactor * scaleUpStep
      let newScaleFactor := if newScaleFactor.val > scaleFactorMax.val then scaleFactorMax
        else newScaleFactor
      { c with currentScaleFactor := newScaleFactor }.resetForNextRound currentTime
    else c
  else c

def handleScaling (c : AdaptiveParameterController) (deviceQueueLen currentTime : Binary64) :
    AdaptiveParameterController :=
  (c.handleScalingDown deviceQueueLen currentTime).handleScalingUp deviceQueueLen currentTime

def init (currentTime : Binary64) : AdaptiveParameterController where
  riskyCnt := 0
  lastRiskyTime := currentTime
  deviceQueueLenMinSince := currentTime
  deviceQueueLenMin := inf
  currentScaleFactor := scaleFactorInitial
  currentCoolDown := coolDownForStartup

end AdaptiveParameterController

def queueLenSampleFrequency : Binary64 := double 20 / double 1000
def queueLenNumSamplesMax : ℕ := 50
def queueLenNumSamplesMin : ℕ := 8
def queueLenAcceptableDelta : Binary64 := double (12 / 10)
def queueLenControlStrengthAdjustFactor : Binary64 := double 3 * queueLenAcceptableDelta

/-- The newest sample comes first. -/
structure QueueLenController where
  samples : List Binary64
  lastSampleTime : Binary64
  isOverflowing : Bool
  adjustCommand : AdjustCommand

def numSamplesNeeded (distant : Binary64) : Binary64 :=
  if distant.val > queueLenControlStrengthAdjustFactor.val then
    double queueLenNumSamplesMax / (distant / queueLenControlStrengthAdjustFactor)
  else double queueLenNumSamplesMax

def windowDecision (target : Binary64) : ℕ → Binary64 → List Binary64 → Option AdjustCommand
  | _, _, [] => none
  | count, runningSum, sample :: rest =>
    let runningSum := runningSum + sample
    let runningAvg := runningSum / double (count + 1 : ℕ)
    let distant : Binary64 := .nearest |(runningAvg - target).val|
    if ((count + 1 : ℕ) : ℚ) ≥ (numSamplesNeeded distant).val then
      if runningAvg.val < (target - queueLenAcceptableDelta).val then some .dupFrame
      else if runningAvg.val > (target + queueLenAcceptableDelta).val then some .dropFrame
      else some .noopFrame
    else windowDecision target (count + 1) runningSum rest

namespace QueueLenController

def init : QueueLenController := ⟨[],double 0,false,.noopFrame⟩

def resetSampling (c : QueueLenController) : QueueLenController := { c with samples := [] }

def consumeLastAdjustCommand (c : QueueLenController) : QueueLenController :=
  { c with adjustCommand := .noopFrame }

def samplingDue (c : QueueLenController) (currentTime : Binary64) : Bool :=
  !decide ((currentTime - c.lastSampleTime).val < queueLenSampleFrequency.val)

def newSamples (c : QueueLenController) (totalQueueLen : Binary64) : List Binary64 :=
  (totalQueueLen :: c.samples).take queueLenNumSamplesMax

def samplingDecision (c : QueueLenController) (currentTime totalQueueLen target : Binary64) :
    Option AdjustCommand :=
  let samples := c.newSamples totalQueueLen
  if !c.samplingDue currentTime ∨ samples.length < queueLenNumSamplesMin then none
  else windowDecision target (queueLenNumSamplesMin - 1)
    ((samples.take (queueLenNumSamplesMin - 1)).foldl (· + ·) (double 0))
    (samples.drop (queueLenNumSamplesMin - 1))

def handleSampling (c : QueueLenController) (currentTime totalQueueLen target : Binary64) :
    QueueLenController :=
  if !c.samplingDue currentTime then c
  else
    let samples := c.newSamples totalQueueLen
    let sampled := { c with samples := samples, lastSampleTime := currentTime }
    match c.samplingDecision currentTime totalQueueLen target with
    | none => sampled
    | some .noopFrame => { sampled with adjustCommand := .noopFrame }
    | some command => { sampled with adjustCommand := command }.resetSampling

def overflows (c : QueueLenController) (totalQueueLen target overflowSize : Binary64) : Bool :=
  (c.isOverflowing || decide (totalQueueLen.val > overflowSize.val)) &&
    !decide (totalQueueLen.val < (target + double 1).val)

def handleOverflowing (c : QueueLenController) (totalQueueLen target overflowSize : Binary64) :
    QueueLenController :=
  let c := if !c.isOverflowing ∧ totalQueueLen.val > overflowSize.val then
    { c with isOverflowing := true } else c
  let c := if c.isOverflowing ∧ totalQueueLen.val < (target + double 1).val then
    { c with isOverflowing := false } else c
  if c.isOverflowing then { c with adjustCommand := .dropFrame } else c

end QueueLenController

variable {φ : Type}

/-- `audioFrame` is the packet whose data it points to. -/
structure AudioRenderContext (φ : Type) where
  adjustCommand : AdjustCommand := .noopFrame
  audioFrame : Option φ := none

structure AudioContext (φ : Type) where
  renderContext : AudioRenderContext φ := {}
  pendingRenderContext : Bool := false
  audioState : AudioState := .buffering
  audioBufferingBufferSize : ℤ := 0
  adaptiveParameterController : AdaptiveParameterController
  queueLenController : QueueLenController := .init

/-- What a call of `audio_ready_for_frame` finds: the frames the ring buffer holds, the bytes
the device holds, and the readings of the clock for scaling and for sampling. -/
structure AudioQueues where
  numFramesBuffered : ℤ
  audioDeviceLen : ℤ
  scalingTime : Binary64
  samplingTime : Binary64

def AudioQueues.deviceQueueLen (q : AudioQueues) : Binary64 :=
  double q.audioDeviceLen / double decodedBytesPerFrame

def AudioQueues.totalQueueLen (q : AudioQueues) : Binary64 :=
  double (q.audioDeviceLen + q.numFramesBuffered * decodedBytesPerFrame : ℤ) /
    double decodedBytesPerFrame

def audioReadyForFrame (a : AudioContext φ) (q : AudioQueues) : AudioContext φ × Bool :=
  let adaptive := a.adaptiveParameterController.handleScaling q.deviceQueueLen q.scalingTime
  let target := adaptive.getDeviceQueueTargetSize
  let overflowSize := adaptive.getTotalQueueOverflowSize
  let queue := if a.audioState = .playing then
    a.queueLenController.handleSampling q.samplingTime q.totalQueueLen target
    else a.queueLenController.resetSampling
  let queue := queue.handleOverflowing q.totalQueueLen target overflowSize
  let numFramesToRender := if queue.adjustCommand = .dupFrame then double 2 else double 1
  let wantsNewFrame := !a.pendingRenderContext &&
    decide (q.audioDeviceLen ≤ ((target - numFramesToRender) * double decodedBytesPerFrame).val)
  ({ a with adaptiveParameterController := adaptive, queueLenController := queue },
    wantsNewFrame || decide (queue.adjustCommand = .dropFrame))

def receiveAudio (a : AudioContext φ) (audioFrame : φ) : AudioContext φ :=
  let a :=
    if a.queueLenController.adjustCommand = .dropFrame then a
    else if !a.pendingRenderContext then
      { a with
        renderContext := ⟨a.queueLenController.adjustCommand,some audioFrame⟩
        pendingRenderContext := true }
    else a
  { a with queueLenController := a.queueLenController.consumeLastAdjustCommand }

def checkDeviceBufferDry (a : AudioContext φ) (audioDeviceLen : ℤ) : AudioContext φ :=
  if a.audioState ≠ .buffering ∧ audioDeviceLen = 0 then { a with audioState := .buffering } else a

def renderDecodedFrame (a : AudioContext φ) (audioDeviceLen decodedDataSize : ℤ) : AudioContext φ :=
  let a := checkDeviceBufferDry a audioDeviceLen
  if a.audioState = .buffering then
    if ((a.audioBufferingBufferSize + decodedDataSize : ℤ) : ℚ) >
        ((a.adaptiveParameterController.getDeviceQueueTargetSize - double 1) *
          double decodedBytesPerFrame).val then
      { a with audioBufferingBufferSize := 0, audioState := .playing }
    else { a with audioBufferingBufferSize := a.audioBufferingBufferSize + decodedDataSize }
  else a

def initAudio (currentTime : Binary64) : AudioContext φ where
  adaptiveParameterController := .init currentTime

end Whist.Client
