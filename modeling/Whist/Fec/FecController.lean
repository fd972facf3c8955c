import Mathlib.Data.List.Sort
import Whist.Foundation.Run

/-! # The FEC controller

Ratios, times and latencies are exact rationals.  The running sum of a window is an integer
in millionths, truncated at each update, so it may drift away from the samples; nothing
below relies on it.  The override of the debug console is left out.
-/
namespace Whist.FecController

def initialFecRatio : ℚ := 1 / 20
def maxFecRatio : ℚ := 1 / 2
def audioFecRatio : ℚ := 0
def maxIncreasePercentage : ℚ := 16

inductive WccOp where
  | increaseBwd
  | decreaseBwd
  | noOp
  deriving DecidableEq

/-- A failed assertion, or a read from an empty window. -/
inductive Fault where
  | assertion
  | emptyWindow
  deriving DecidableEq

def truncate (x : ℚ) : ℤ := if 0 ≤ x then ⌊x⌋ else ⌈x⌉

structure Data where
  time : ℚ
  value : ℚ
  deriving DecidableEq

/-- `orderedData` is ascending; the front of the window is the head of `q`. -/
structure SlidingWindowStat where
  windowSize : ℚ
  samplePeriod : ℚ
  lastSampledTime : ℚ := 0
  sum : ℤ := 0
  orderedData : List ℚ := []
  q : List Data := []

namespace SlidingWindowStat

def floatScale : ℚ := 1000000

def insert (s : SlidingWindowStat) (currentTime value : ℚ) : SlidingWindowStat :=
  if currentTime - s.lastSampledTime < s.samplePeriod then s
  else { s with
    lastSampledTime := currentTime
    sum := truncate (s.sum + value * floatScale)
    orderedData := s.orderedData.orderedInsert (· ≤ ·) value
    q := s.q ++ [⟨currentTime,value⟩] }

def size (s : SlidingWindowStat) : ℕ := s.q.length

def popFront (s : SlidingWindowStat) : SlidingWindowStat :=
  match s.q with
  | [] => s
  | front :: rest => { s with
      orderedData := s.orderedData.erase front.value
      sum := truncate (s.sum - front.value * floatScale)
      q := rest }

def getAvg (s : SlidingWindowStat) : ℚ := s.sum / floatScale / s.size

def getMax (s : SlidingWindowStat) : Except Fault ℚ :=
  match s.orderedData.getLast? with
  | some value => .ok value
  | none => .error .emptyWindow

def getIPercentageMax (s : SlidingWindowStat) (i : ℤ) : Except Fault ℚ :=
  if ¬(i ≥ 1 ∧ i ≤ 100) then .error .assertion
  else
    let backwardSteps := min (truncate (s.size * (100 - i) / 100)).toNat (s.size - 1)
    match s.orderedData.reverse[backwardSteps]? with
    | some value => .ok value
    | none => .error .emptyWindow

def slideWindow (s : SlidingWindowStat) (currentTime : ℚ) : SlidingWindowStat :=
  (s.q.takeWhile (fun d => d.time < currentTime - s.windowSize)).foldl (fun s _ => s.popFront) s

end SlidingWindowStat

structure BaseRatioController where
  packetLossStat : SlidingWindowStat := { windowSize := 45, samplePeriod := 3 / 2 }
  packetLossRecordQueue : List Data := []
  initTime : ℚ
  lastIncreaseBandwithTime : ℚ := 0
  lastFecRatio : ℚ := initialFecRatio
  lastNonHitMinBitrateTime : ℚ := 0

def startCooldown : ℚ := 5
def smallWaitTime : ℚ := 3

def BaseRatioController.settle (b : BaseRatioController) (currentTime : ℚ) : BaseRatioController :=
  let safe : Data → Bool := fun d => currentTime - d.time ≥ smallWaitTime
  { b with
    packetLossStat := (b.packetLossRecordQueue.takeWhile safe).foldl
      (fun s d => s.insert currentTime d.value) b.packetLossStat
    packetLossRecordQueue := b.packetLossRecordQueue.dropWhile safe }

def BaseRatioController.feedNetworkInfo (b : BaseRatioController) (currentTime packetLoss : ℚ)
    (currentBitrate minBitrate : ℤ) (op : WccOp) : BaseRatioController :=
  let b := { b with packetLossStat := b.packetLossStat.slideWindow currentTime }
  let b := if currentBitrate ≠ minBitrate then { b with lastNonHitMinBitrateTime := currentTime }
    else b
  if currentTime - b.initTime < startCooldown then b
  else if currentTime - b.lastNonHitMinBitrateTime > smallWaitTime then
    { b with packetLossStat := b.packetLossStat.insert currentTime packetLoss }
  else
    let b := if op = .increaseBwd then
      { b with
        packetLossStat := b.packetLossStat.insert currentTime packetLoss
        packetLossRecordQueue := []
        lastIncreaseBandwithTime := currentTime }
      else b
    if currentTime - b.lastIncreaseBandwithTime < smallWaitTime then b
    else
      let queue := b.packetLossRecordQueue ++ [⟨currentTime,packetLoss⟩]
      let queue := if op = .decreaseBwd then [] else queue
      { b with packetLossRecordQueue := queue }.settle currentTime

def packetLossMax : ℚ := 1 / 10
def baseFecProtectingFactor : ℚ := 6 / 5

/-- The loss the base ratio reacts to: clipped by the average, by the 90th percentage and by
`PACKET_LOSS_MAX`. -/
def SlidingWindowStat.clippedLoss (s : SlidingWindowStat) : Except Fault ℚ := do
  let maxPacketLoss ← s.getMax
  let bound := 4 * s.getAvg + 1 / 20
  let packetLoss := if maxPacketLoss > bound then bound else maxPacketLoss
  if s.size > 10 then
    let value ← s.getIPercentageMax 90
    let packetLoss := if packetLoss > value + 1 / 20 then value + 1 / 20 else packetLoss
    return min packetLoss packetLossMax
  else
    return min packetLoss packetLossMax

def BaseRatioController.getBaseFecRatio (b : BaseRatioController) :
    Except Fault (ℚ × BaseRatioController) :=
  if b.packetLossStat.size = 0 then .ok (b.lastFecRatio,b)
  else b.packetLossStat.clippedLoss.map (fun packetLoss =>
    let newFecRatio := packetLoss * baseFecProtectingFactor
    (newFecRatio,{ b with lastFecRatio := newFecRatio }))

/-- `extraFecRatio` and `extendCntLeft` are read only while `extraFecInUse`. -/
structure ExtraRatioController where
  lastUsedExtraFecTime : ℚ := 0
  extraFecInUse : Bool := false
  extraFecRatio : ℚ := 0
  extendCntLeft : ℤ := 0

def extraUpperBound : ℚ := 1 + maxIncreasePercentage / 100

def increaseRatio (oldBitrate currentBitrate : ℤ) : ℚ :=
  if oldBitrate = 0 then extraUpperBound
  else min ((currentBitrate : ℚ) / oldBitrate - 1) extraUpperBound

def ExtraRatioController.feedBandwithProbInfo (x : ExtraRatioController) (currentTime : ℚ)
    (oldBitrate currentBitrate : ℤ) (op : WccOp) : ExtraRatioController :=
  if op = .increaseBwd ∧ currentBitrate > oldBitrate then
    { extraFecRatio := increaseRatio oldBitrate currentBitrate
      extraFecInUse := true
      extendCntLeft := 1
      lastUsedExtraFecTime := currentTime }
  else if x.extraFecInUse then
    let x := if op = .decreaseBwd ∧ x.extendCntLeft > 0 then
      { x with extendCntLeft := x.extendCntLeft - 1, lastUsedExtraFecTime := currentTime }
      else x
    if currentTime - x.lastUsedExtraFecTime > 3 then { x with extraFecInUse := false } else x
  else x

def ExtraRatioController.getExtraFecRatio (x : ExtraRatioController) : ℚ :=
  if x.extraFecInUse then x.extraFecRatio else 0

structure FECController where
  baseRatioController : BaseRatioController
  extraRatioController : ExtraRatioController := {}
  latencyStat : SlidingWindowStat := { windowSize := 30, samplePeriod := 3 / 10 }

def createFecController (currentTime : ℚ) : FECController :=
  { baseRatioController := { initTime := currentTime } }

def feedLatency (c : FECController) (currentTime latency : ℚ) : FECController :=
  { c with latencyStat := (c.latencyStat.slideWindow currentTime).insert currentTime (latency * 1000) }

def feedInfo (c : FECController) (currentTime : ℚ) (op : WccOp) (packetLoss : ℚ)
    (oldBitrate currentBitrate minBitrate : ℤ) : FECController :=
  { c with
    baseRatioController := c.baseRatioController.feedNetworkInfo currentTime packetLoss
      currentBitrate minBitrate op
    extraRatioController := c.extraRatioController.feedBandwithProbInfo currentTime oldBitrate
      currentBitrate op }

def fecMinStart : ℚ := 1 / 200
def fecMinStep : ℚ := 1 / 200
def latencyLowerBound : ℚ := 20
def latencyUpperBound : ℚ := 40

def totalOriginal (baseFecRatio extraFecRatio : ℚ) : ℚ :=
  let total := (1 - extraFecRatio) * baseFecRatio + extraFecRatio
  min (if total < fecMinStart then 0 else total) maxFecRatio

def latencyFixFactor (latency : ℚ) : ℚ :=
  if latency < latencyLowerBound then 0
  else if latency < latencyUpperBound then
    (latency - latencyLowerBound) / (latencyUpperBound - latencyLowerBound)
  else 1

def totalOf (original latency oldValue : ℚ) : ℚ :=
  let total := original * latencyFixFactor latency
  let total := if original > 1 / 100 then max (1 / 100) total else total
  if |total - oldValue| < fecMinStep then oldValue else total

def getTotalFecRatio (c : FECController) (oldValue : ℚ) : Except Fault (ℚ × FECController) := do
  let r ← c.baseRatioController.getBaseFecRatio
  let original := totalOriginal r.1 c.extraRatioController.getExtraFecRatio
  let latency ← if c.latencyStat.size > 0 then c.latencyStat.getIPercentageMax 90 else .ok 9999
  return (totalOf original latency oldValue,{ c with baseRatioController := r.2 })

/-- The bounds `udp_handle_network_settings` asserts before it takes the ratios over. -/
def udpHandleNetworkSettings (audioFecRatio videoFecRatio : ℚ) : Except Fault (ℚ × ℚ) :=
  if ¬(0 ≤ audioFecRatio ∧ audioFecRatio ≤ maxFecRatio) then .error .assertion
  else if ¬(0 ≤ videoFecRatio ∧ videoFecRatio ≤ maxFecRatio) then .error .assertion
  else .ok (videoFecRatio,audioFecRatio)

inductive Call where
  | feedLatency (currentTime latency : ℚ)
  | feedInfo (currentTime : ℚ) (op : WccOp) (packetLoss : ℚ)
      (oldBitrate currentBitrate minBitrate : ℤ)
  | getTotalFecRatio (currentTime : ℚ)

/-- The controller with the ratio it gave last. -/
structure Session where
  controller : FECController
  videoFecRatio : ℚ

def startSession (currentTime : ℚ) : Session := ⟨createFecController currentTime,initialFecRatio⟩

def call (s : Session) : Call → Except Fault Session
  | .feedLatency t latency => .ok { s with controller := feedLatency s.controller t latency }
  | .feedInfo t op packetLoss oldBitrate currentBitrate minBitrate =>
    .ok { s with
      controller := feedInfo s.controller t op packetLoss oldBitrate currentBitrate minBitrate }
  | .getTotalFecRatio _ => do
    let r ← getTotalFecRatio s.controller s.videoFecRatio
    let ratios ← udpHandleNetworkSettings audioFecRatio r.1
    return ⟨r.2,ratios.1⟩

namespace SlidingWindowStat

def Ok (s : SlidingWindowStat) : Prop := s.orderedData.Perm (s.q.map Data.value)

theorem Ok.insert {s : SlidingWindowStat} (h : s.Ok) (currentTime value : ℚ) :
    (s.insert currentTime value).Ok := by
  unfold SlidingWindowStat.insert
  split
  · exact h
  · show (s.orderedData.orderedInsert _ value).Perm
      ((s.q ++ [(⟨currentTime,value⟩ : Data)]).map Data.value)
    rw [List.map_append]
    refine (List.perm_orderedInsert _ value s.orderedData).trans ?_
    exact (h.cons value).trans (List.perm_append_singleton value _).symm

theorem Ok.popFront {s : SlidingWindowStat} (h : s.Ok) : s.popFront.Ok := by
  unfold SlidingWindowStat.popFront
  cases hq : s.q with
  | nil => exact h
  | cons front rest =>
    have hp : s.orderedData.Perm (front.value :: rest.map Data.value) := by
      rw [Ok, hq] at h
      exact h
    have herase := hp.erase front.value
    rw [List.erase_cons_head] at herase
    exact herase

theorem Ok.slideWindow {s : SlidingWindowStat} (h : s.Ok) (currentTime : ℚ) :
    (s.slideWindow currentTime).Ok := by
  unfold SlidingWindowStat.slideWindow
  generalize s.q.takeWhile _ = old
  induction old generalizing s with
  | nil => exact h
  | cons d old ih => exact ih h.popFront

theorem Ok.insertAll {s : SlidingWindowStat} (h : s.Ok) (currentTime : ℚ) (l : List Data) :
    (l.foldl (fun s d => s.insert currentTime d.value) s).Ok := by
  induction l generalizing s with
  | nil => exact h
  | cons d l ih => exact ih (h.insert currentTime d.value)

theorem Ok.length {s : SlidingWindowStat} (h : s.Ok) : s.orderedData.length = s.size := by
  have hl := List.Perm.length_eq h
  rwa [List.length_map] at hl

theorem Ok.getMax {s : SlidingWindowStat} (h : s.Ok) (hs : 0 < s.size) :
    ∃ value, s.getMax = .ok value := by
  have hne : s.orderedData ≠ [] := by
    intro hnil
    have hl := h.length
    rw [hnil] at hl
    exact absurd hl (by simp [Nat.ne_of_lt hs])
  refine ⟨s.orderedData.getLast hne,?_⟩
  simp only [SlidingWindowStat.getMax, List.getLast?_eq_some_getLast hne]

theorem Ok.getIPercentageMax {s : SlidingWindowStat} (h : s.Ok) (hs : 0 < s.size) :
    ∃ value, s.getIPercentageMax 90 = .ok value := by
  have hidx : ∀ n, min n (s.size - 1) < s.orderedData.reverse.length := by
    intro n
    rw [List.length_reverse, h.length]
    omega
  unfold SlidingWindowStat.getIPercentageMax
  rw [if_neg (by decide)]
  simp only [List.getElem?_eq_getElem (hidx _)]
  exact ⟨_,rfl⟩

theorem Ok.clippedLoss {s : SlidingWindowStat} (h : s.Ok) (hs : 0 < s.size) :
    ∃ value, s.clippedLoss = .ok value := by
  obtain ⟨m,hm⟩ := h.getMax hs
  obtain ⟨p,hp⟩ := h.getIPercentageMax hs
  unfold SlidingWindowStat.clippedLoss
  rw [hm]
  by_cases hsize : s.size > 10
  · simp only [if_pos hsize, hp]
    exact ⟨_,rfl⟩
  · simp only [if_neg hsize]
    exact ⟨_,rfl⟩

end SlidingWindowStat

theorem settle_ok {b : BaseRatioController} (h : b.packetLossStat.Ok) (currentTime : ℚ) :
    (b.settle currentTime).packetLossStat.Ok :=
  h.insertAll currentTime _

theorem feedNetworkInfo_ok {b : BaseRatioController} (h : b.packetLossStat.Ok)
    (currentTime packetLoss : ℚ) (currentBitrate minBitrate : ℤ) (op : WccOp) :
    (b.feedNetworkInfo currentTime packetLoss currentBitrate minBitrate op).packetLossStat.Ok := by
  have hslide := h.slideWindow currentTime
  have hinsert := hslide.insert currentTime packetLoss
  unfold BaseRatioController.feedNetworkInfo
  by_cases hmin : currentBitrate ≠ minBitrate <;> by_cases hop : op = .increaseBwd <;>
    simp only [hmin, hop, ite_true, ite_false] <;> split_ifs <;>
    first
      | exact hslide
      | exact hinsert
      | exact settle_ok hslide currentTime
      | exact settle_ok hinsert currentTime

def Admissible (ratio : ℚ) : Prop := 0 ≤ ratio ∧ ratio ≤ maxFecRatio

theorem admissible_totalOriginal (baseFecRatio extraFecRatio : ℚ) :
    Admissible (totalOriginal baseFecRatio extraFecRatio) := by
  refine ⟨le_min ?_ (by norm_num [maxFecRatio]),min_le_right _ _⟩
  split
  · exact le_rfl
  · rename_i h
    have hpos : 0 ≤ fecMinStart := by norm_num [fecMinStart]
    exact hpos.trans (not_lt.mp h)

theorem latencyFixFactor_bounds (latency : ℚ) :
    0 ≤ latencyFixFactor latency ∧ latencyFixFactor latency ≤ 1 := by
  unfold latencyFixFactor latencyLowerBound latencyUpperBound
  split_ifs with h1 h2
  · norm_num
  · have h1 := not_lt.mp h1
    constructor
    · apply div_nonneg
      · linarith
      · norm_num
    · rw [div_le_one (by norm_num)]
      linarith
  · norm_num

theorem admissible_totalOf {original oldValue : ℚ} (h : Admissible original)
    (hold : Admissible oldValue) (latency : ℚ) : Admissible (totalOf original latency oldValue) := by
  obtain ⟨hf0,hf1⟩ := latencyFixFactor_bounds latency
  have hscaled : Admissible (original * latencyFixFactor latency) :=
    ⟨mul_nonneg h.1 hf0,(mul_le_of_le_one_right h.1 hf1).trans h.2⟩
  have hraised : Admissible (if original > 1 / 100 then
      max (1 / 100) (original * latencyFixFactor latency)
      else original * latencyFixFactor latency) := by
    split
    · exact ⟨hscaled.1.trans (le_max_right _ _),max_le (by norm_num [maxFecRatio]) hscaled.2⟩
    · exact hscaled
  simp only [totalOf]
  by_cases hstep : |(if original > 1 / 100 then
      max (1 / 100) (original * latencyFixFactor latency)
      else original * latencyFixFactor latency) - oldValue| < fecMinStep
  · rw [if_pos hstep]
    exact hold
  · rw [if_neg hstep]
    exact hraised

structure Inv (s : Session) : Prop where
  packetLoss : s.controller.baseRatioController.packetLossStat.Ok
  latency : s.controller.latencyStat.Ok
  admissible : Admissible s.videoFecRatio

theorem getBaseFecRatio_ok {b : BaseRatioController} (h : b.packetLossStat.Ok) :
    ∃ r, b.getBaseFecRatio = .ok r ∧ r.2.packetLossStat.Ok := by
  unfold BaseRatioController.getBaseFecRatio
  by_cases hs : b.packetLossStat.size = 0
  · exact ⟨_,if_pos hs,h⟩
  · rw [if_neg hs]
    obtain ⟨value,hv⟩ := h.clippedLoss (Nat.pos_of_ne_zero hs)
    exact ⟨_,by rw [hv]; rfl,h⟩

theorem getTotalFecRatio_ok {c : FECController} {oldValue : ℚ}
    (hb : c.baseRatioController.packetLossStat.Ok) (hl : c.latencyStat.Ok)
    (hold : Admissible oldValue) :
    ∃ r, getTotalFecRatio c oldValue = .ok r ∧ Admissible r.1 ∧
      r.2.baseRatioController.packetLossStat.Ok ∧ r.2.latencyStat.Ok := by
  obtain ⟨⟨base,b⟩,hbase,hb'⟩ := getBaseFecRatio_ok hb
  have horig := admissible_totalOriginal base c.extraRatioController.getExtraFecRatio
  unfold getTotalFecRatio
  rw [hbase]
  by_cases hs : c.latencyStat.size > 0
  · obtain ⟨latency,hlat⟩ := hl.getIPercentageMax hs
    simp only [if_pos hs, hlat]
    exact ⟨_,rfl,admissible_totalOf horig hold latency,hb',hl⟩
  · simp only [if_neg hs]
    exact ⟨_,rfl,admissible_totalOf horig hold 9999,hb',hl⟩

theorem udpHandleNetworkSettings_ok {ratio : ℚ} (h : Admissible ratio) :
    udpHandleNetworkSettings audioFecRatio ratio = .ok (ratio,audioFecRatio) := by
  have haudio : 0 ≤ audioFecRatio ∧ audioFecRatio ≤ maxFecRatio := by
    norm_num [audioFecRatio, maxFecRatio]
  have hvideo : 0 ≤ ratio ∧ ratio ≤ maxFecRatio := h
  simp only [udpHandleNetworkSettings, haudio, hvideo, and_self, not_true_eq_false, if_false]

theorem call_ok {s : Session} (h : Inv s) (c : Call) : ∃ t, call s c = .ok t ∧ Inv t := by
  cases c with
  | feedLatency t latency => exact ⟨_,rfl,h.packetLoss,(h.latency.slideWindow t).insert t _,h.admissible⟩
  | feedInfo t op packetLoss old cur min =>
    exact ⟨_,rfl,feedNetworkInfo_ok h.packetLoss t packetLoss cur min op,h.latency,h.admissible⟩
  | getTotalFecRatio t =>
    obtain ⟨r,hr,hadm,hb,hl⟩ := getTotalFecRatio_ok h.packetLoss h.latency h.admissible
    refine ⟨⟨r.2,r.1⟩,?_,hb,hl,hadm⟩
    have hudp := udpHandleNetworkSettings_ok hadm
    unfold call
    simp only [hr, hudp, bind, Except.bind]
    rfl

/-- Whatever is fed in between, every ratio of a session is one the server accepts: no call
fails an assertion, its own or the server's. -/
theorem total_fec_ratio_admissible (startTime : ℚ) (calls : List Call) :
    ∃ s, Run.run call (startSession startTime) calls = .ok s ∧
      0 ≤ s.videoFecRatio ∧ s.videoFecRatio ≤ maxFecRatio := by
  have hstart : Inv (startSession startTime) :=
    ⟨List.Perm.nil,List.Perm.nil,by norm_num [startSession, initialFecRatio],
      by norm_num [startSession, initialFecRatio, maxFecRatio]⟩
  obtain ⟨s,hs,hinv⟩ := Run.run_ok_of_invariant (fun s c h => call_ok h c) calls hstart
  exact ⟨s,hs,hinv.admissible⟩

end Whist.FecController
