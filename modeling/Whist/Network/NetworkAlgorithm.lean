import Whist.Foundation.Binary64
import Whist.Fec.FecController

/-! # The congestion controller

Doubles are binary64 numbers; an `int` that leaves its range is an error.  The statics of `whist_congestion_controller` are
the state, time is the readings of its timers, and FEC is off (`ENABLE_FEC`).
-/
namespace Whist.Wcc

open FecController (truncate WccOp)

inductive Overflow where
  | int
  deriving DecidableEq

def IsInt (n : ℤ) : Prop := -2147483648 ≤ n ∧ n < 2147483648

instance (n : ℤ) : Decidable (IsInt n) := inferInstanceAs (Decidable (_ ∧ _))

def checked (n : ℤ) : Except Overflow ℤ := if IsInt n then .ok n else .error .int

def toInt (x : Binary64) : Except Overflow ℤ := checked (truncate x.val)

def toDouble (n : ℤ) : Binary64 := Binary64.nearest n

def maxDouble (a b : Binary64) : Binary64 := if a.val > b.val then a else b
def minDouble (a b : Binary64) : Binary64 := if a.val < b.val then a else b

def dpiBitratePerPixel : ℤ := 192
def burstBitrateRatio : ℤ := 4
def dpiRatioExponent : Binary64 := .nearest (16 / 10)
def minimumBitratePerPixel : Binary64 := .nearest (75 / 100)
def maximumBitratePerPixel : Binary64 := .nearest 4
def startingBitratePerPixel : Binary64 := .nearest 3

def ewmaFactor : Binary64 := .nearest (3 / 10)
def maxBitrateEwmaFactor : Binary64 := .nearest (5 / 100)
def delayVariationThreshold : ℚ := (Binary64.nearest (1 / 100)).val
def overuseTimeThreshold : Binary64 := .nearest (1 / 100)
def longOveruseTimeThreshold : Binary64 := .nearest (1 / 10)
def decreaseRatio : Binary64 := .nearest (95 / 100)
def bandwithUsedThreshold : Binary64 := .nearest (95 / 100)
def convergenceThresholdLow : Binary64 := .nearest (75 / 100)
def minLatencyThreshold : Binary64 := .nearest (5 / 100)
def latencyMultiplierBurstMode : Binary64 := .nearest 2
def latencyMultiplierNormalMode : Binary64 := .nearest (13 / 10)
def latencyMultiplierHoldState : Binary64 := .nearest (11 / 10)
def maxIncreasePercentage : Binary64 := .nearest 16
def minIncreasePercentage : Binary64 := .nearest (5 / 10)
def newBitrateDuration : ℚ := 1
def minUpdateIntervalSevereCongestion : ℚ := (Binary64.nearest (25 / 1000)).val

/-- A screen within the limits of the client. -/
structure Dimensions where
  width : ℤ
  height : ℤ
  dpi : ℤ
  width_pos : 0 < width
  width_le : width ≤ 4096
  height_pos : 0 < height
  height_le : height ≤ 4096
  dpi_pos : 0 < dpi

abbrev Pow := Binary64 → Binary64 → Binary64

def dpiRatio (d : Dimensions) : Binary64 :=
  maxDouble (minDouble (toDouble dpiBitratePerPixel / toDouble d.dpi) (.nearest 2))
    (.nearest (1 / 2))

def getVideoBitrate (pow : Pow) (d : Dimensions) (bitratePerPixel : Binary64) :
    Except Overflow ℤ := do
  let area ← checked (d.width * d.height)
  toInt (toDouble area * bitratePerPixel * pow (dpiRatio d) dpiRatioExponent)

inductive DelayControllerState where
  | increase
  | hold
  | decrease
  deriving DecidableEq

inductive OveruseDetectorSignal where
  | underuse
  | normal
  | overuse
  deriving DecidableEq

structure NetworkSettings where
  videoBitrate : ℤ
  burstBitrate : ℤ
  saturateBandwidth : Bool
  congestionDetected : Bool

/-- The network settings and the statics. -/
structure Controller where
  networkSettings : NetworkSettings
  delayControllerInitialized : Bool := false
  filteredDelayVariation : Binary64 := .nearest 0
  increasePercentage : Binary64 := maxIncreasePercentage
  burstMode : Bool := false
  maxBitrateAvailable : ℤ := 0
  lastSuccessfulBitrate : ℤ := 0
  delayControllerState : DelayControllerState := .hold
  maybeOveruse : Bool := false
  insufficientBandwidth : Bool := false

structure GroupStats where
  departureTime : UInt64
  arrivalTime : UInt64

/-- The arguments of a call and the readings of the timers. -/
structure Sample where
  currGroupStats : GroupStats
  prevGroupStats : GroupStats
  incomingBitrate : ℤ
  packetLossRatio : Binary64
  shortTermLatency : Binary64
  longTermLatency : Binary64
  overuseTimer : Binary64
  lastUpdateTimer : Binary64
  lastDecreaseTimer : Binary64
  incomingBitrate_int : IsInt incomingBitrate
  packetLossRatio_nonneg : 0 ≤ packetLossRatio.val
  packetLossRatio_le : packetLossRatio.val ≤ 1

def secondsBetween (later earlier : UInt64) : Binary64 :=
  toDouble (later - earlier).toNat / .nearest 1000000

def delayVariation (x : Sample) : Binary64 :=
  secondsBetween x.currGroupStats.arrivalTime x.prevGroupStats.arrivalTime -
    secondsBetween x.currGroupStats.departureTime x.prevGroupStats.departureTime

def filterDelay (c : Controller) (x : Sample) : Controller :=
  { c with
    filteredDelayVariation :=
      if c.delayControllerInitialized then
        c.filteredDelayVariation * (.nearest 1 - ewmaFactor) + delayVariation x * ewmaFactor
      else delayVariation x
    delayControllerInitialized := true }

/-- In burst mode only the losses tell overuse. -/
def overuseDetector (c : Controller) (x : Sample) : Controller × OveruseDetectorSignal :=
  if (delayVariationThreshold < c.filteredDelayVariation.val ∧ ¬c.burstMode) ∨
      x.packetLossRatio.val > (Binary64.nearest (1 / 10)).val then
    let threshold :=
      if c.networkSettings.saturateBandwidth then overuseTimeThreshold else longOveruseTimeThreshold
    ({ c with maybeOveruse := true },
      if x.overuseTimer.val > threshold.val then .overuse else .normal)
  else if -delayVariationThreshold > c.filteredDelayVariation.val then
    ({ c with maybeOveruse := false },.underuse)
  else ({ c with maybeOveruse := false },.normal)

def nextState : DelayControllerState → OveruseDetectorSignal → DelayControllerState
  | _, .overuse => .decrease
  | .hold, .normal => .increase
  | .decrease, .normal => .hold
  | .increase, .normal => .increase
  | _, .underuse => .hold

def latencyState (c : Controller) (x : Sample) (state : DelayControllerState) :
    DelayControllerState :=
  let decreaseThreshold := maxDouble (x.longTermLatency *
    if c.burstMode then latencyMultiplierBurstMode else latencyMultiplierNormalMode)
    minLatencyThreshold
  let holdThreshold := maxDouble (x.longTermLatency * latencyMultiplierHoldState)
    minLatencyThreshold
  if x.shortTermLatency.val > decreaseThreshold.val then .decrease
  else if x.shortTermLatency.val > holdThreshold.val ∧ state = .increase then .hold
  else state

def detect (c : Controller) (x : Sample) : Controller :=
  let r := overuseDetector (filterDelay c x) x
  { r.1 with
    delayControllerState := latencyState r.1 x (nextState r.1.delayControllerState r.2) }

structure Decision where
  controller : Controller
  newBitrate : ℤ
  op : WccOp

def setSaturate (c : Controller) (b : Bool) : Controller :=
  { c with networkSettings := { c.networkSettings with saturateBandwidth := b } }

def increaseBitrate (c : Controller) : Except Overflow Decision := do
  let last := c.networkSettings.videoBitrate
  let c := { c with lastSuccessfulBitrate := last }
  let c := if last > c.maxBitrateAvailable then
    { setSaturate c true with
      maxBitrateAvailable := last
      increasePercentage := maxIncreasePercentage }
    else c
  let c := if c.networkSettings.saturateBandwidth then
    { c with increasePercentage := maxIncreasePercentage } else c
  let newBitrate ← toInt (toDouble c.networkSettings.videoBitrate *
    (.nearest 1 + c.increasePercentage / .nearest 100))
  return ⟨c,newBitrate,.increaseBwd⟩

def fadeMaxBitrate (c : Controller) : Except Overflow Controller :=
  if c.lastSuccessfulBitrate < c.maxBitrateAvailable then do
    let faded ← toInt (toDouble c.maxBitrateAvailable * (.nearest 1 - maxBitrateEwmaFactor) +
      toDouble c.lastSuccessfulBitrate * maxBitrateEwmaFactor)
    return { c with maxBitrateAvailable := faded }
  else return c

def convergenceBitrate (c : Controller) : ℚ :=
  (toDouble c.maxBitrateAvailable * convergenceThresholdLow).val

def decreaseBitrate (c : Controller) (x : Sample) : Except Overflow Decision := do
  let c ← fadeMaxBitrate c
  let reduced := toDouble x.incomingBitrate * decreaseRatio
  let r ← if c.networkSettings.saturateBandwidth ∨ reduced.val > convergenceBitrate c then do
      let newBitrate ← toInt reduced
      if (newBitrate : ℚ) ≥ convergenceBitrate c then
        pure ({ setSaturate c false with
          increasePercentage :=
            maxDouble (c.increasePercentage / .nearest 2) minIncreasePercentage },newBitrate)
      else pure (c,newBitrate)
    else do
      let newBitrate ← toInt (toDouble c.networkSettings.videoBitrate *
        minDouble decreaseRatio (.nearest 1 - .nearest (1 / 2) * x.packetLossRatio))
      pure (setSaturate c true,newBitrate)
  let c := { r.1 with networkSettings := { r.1.networkSettings with congestionDetected := true } }
  return ⟨c,r.2,.decreaseBwd⟩

def delayBasedController (c : Controller) (x : Sample) : Except Overflow Decision :=
  if c.delayControllerState = .increase ∧ x.lastUpdateTimer.val > newBitrateDuration ∧
      (x.incomingBitrate : ℚ) >
        (toDouble c.networkSettings.videoBitrate * bandwithUsedThreshold).val then
    increaseBitrate c
  else if c.delayControllerState = .decrease ∧ x.lastDecreaseTimer.val > newBitrateDuration then
    decreaseBitrate c x
  else .ok ⟨c,c.networkSettings.videoBitrate,.noOp⟩

def update (c : Controller) (newBitrate minBitrate maxBitrate : ℤ) : Except Overflow Controller := do
  let c := if (newBitrate : ℚ) < convergenceBitrate c ∨ c.maxBitrateAvailable = 0 then
    { setSaturate c true with increasePercentage := maxIncreasePercentage } else c
  let insufficientBandwidth :=
    if newBitrate < minBitrate then
      c.insufficientBandwidth || c.networkSettings.videoBitrate = minBitrate
    else false
  let newBitrate := if newBitrate < minBitrate then minBitrate else newBitrate
  let burstMode := newBitrate ≥ maxBitrate
  let c := if burstMode then setSaturate c false else c
  let newBitrate := if burstMode then maxBitrate else newBitrate
  let burstBitrate ← if burstMode then checked (newBitrate * burstBitrateRatio) else pure newBitrate
  return { c with
    insufficientBandwidth := insufficientBandwidth
    burstMode := burstMode
    networkSettings := { c.networkSettings with
      burstBitrate := burstBitrate
      videoBitrate := newBitrate } }

def settleCongestion (c : Controller) : Controller :=
  if c.networkSettings.saturateBandwidth then c
  else { c with networkSettings := { c.networkSettings with congestionDetected := false } }

def whistCongestionController (pow : Pow) (d : Dimensions) (c : Controller) (x : Sample) :
    Except Overflow Controller :=
  if x.incomingBitrate ≤ 0 then .ok c
  else do
    let maxBitrate ← getVideoBitrate pow d maximumBitratePerPixel
    let r ← delayBasedController (detect c x) x
    let c ← if r.op ≠ .noOp then do
        let minBitrate ← getVideoBitrate pow d minimumBitratePerPixel
        update r.controller r.newBitrate minBitrate maxBitrate
      else if r.controller.networkSettings.saturateBandwidth ∧ x.lastUpdateTimer.val > 5 then
        pure (setSaturate r.controller false)
      else pure r.controller
    return settleCongestion c

/-- `lastUpdateTimer` is the reading of the timer. -/
def handleSevereCongestion (pow : Pow) (d : Dimensions) (c : Controller)
    (lastUpdateTimer : Binary64) : Except Overflow Controller :=
  if lastUpdateTimer.val < minUpdateIntervalSevereCongestion then .ok c
  else do
    let minBitrate ← getVideoBitrate pow d minimumBitratePerPixel
    return { c with networkSettings :=
      { videoBitrate := minBitrate
        burstBitrate := minBitrate
        congestionDetected := true
        saturateBandwidth := true } }

def getDefaultNetworkSettings (pow : Pow) (d : Dimensions) : Except Overflow NetworkSettings := do
  let videoBitrate ← getVideoBitrate pow d startingBitratePerPixel
  return ⟨videoBitrate,videoBitrate,true,false⟩

inductive Call where
  | congestionController (x : Sample)
  | severeCongestion (lastUpdateTimer : Binary64)

def call (pow : Pow) (d : Dimensions) (c : Controller) : Call → Except Overflow Controller
  | .congestionController x => whistCongestionController pow d c x
  | .severeCongestion lastUpdateTimer => handleSevereCongestion pow d c lastUpdateTimer

def session (pow : Pow) (d : Dimensions) (calls : List Call) : Except Overflow Controller := do
  let networkSettings ← getDefaultNetworkSettings pow d
  Run.run (call pow d) { networkSettings := networkSettings } calls

end Whist.Wcc
