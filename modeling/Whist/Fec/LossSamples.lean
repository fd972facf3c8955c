import Mathlib.Data.List.TakeWhile
import Whist.Fec.FecController

/-! # Samples of packet loss -/
namespace Whist.FecController

/-- What the base controller is fed. -/
structure LossFeed where
  currentTime : ℚ
  packetLoss : ℚ
  currentBitrate : ℤ
  minBitrate : ℤ
  op : WccOp
deriving DecidableEq

def LossFeed.data (f : LossFeed) : Data := ⟨f.currentTime,f.packetLoss⟩

namespace BaseRatioController

def feed (b : BaseRatioController) (f : LossFeed) : BaseRatioController :=
  b.feedNetworkInfo f.currentTime f.packetLoss f.currentBitrate f.minBitrate f.op

def Starting (b : BaseRatioController) (f : LossFeed) : Prop := f.currentTime - b.initTime < startCooldown

def AtMinimum (b : BaseRatioController) (f : LossFeed) : Prop :=
  f.currentTime - (if f.currentBitrate ≠ f.minBitrate then f.currentTime else b.lastNonHitMinBitrateTime) >
    smallWaitTime

def RecentIncrease (b : BaseRatioController) (f : LossFeed) : Prop :=
  f.currentTime - (if f.op = .increaseBwd then f.currentTime else b.lastIncreaseBandwithTime) < smallWaitTime

def Reaches (b : BaseRatioController) (f : LossFeed) : Prop :=
  ¬b.Starting f ∧ ¬b.AtMinimum f ∧ ¬b.RecentIncrease f

instance (b : BaseRatioController) (f : LossFeed) : Decidable (b.Starting f) := inferInstanceAs (Decidable (_ < _))

instance (b : BaseRatioController) (f : LossFeed) : Decidable (b.AtMinimum f) := inferInstanceAs (Decidable (_ > _))

instance (b : BaseRatioController) (f : LossFeed) : Decidable (b.RecentIncrease f) :=
  inferInstanceAs (Decidable (_ < _))

instance (b : BaseRatioController) (f : LossFeed) : Decidable (b.Reaches f) :=
  inferInstanceAs (Decidable (_ ∧ _ ∧ _))

def recorded (b : BaseRatioController) (f : LossFeed) : List Data :=
  if f.op = .decreaseBwd then []
  else (if f.op = .increaseBwd then [] else b.packetLossRecordQueue) ++ [f.data]

def moved (b : BaseRatioController) (f : LossFeed) : List Data :=
  if b.Reaches f then (b.recorded f).takeWhile fun d => f.currentTime - d.time ≥ smallWaitTime else []

variable {b : BaseRatioController} {f : LossFeed}

def noted (b : BaseRatioController) (f : LossFeed) : BaseRatioController :=
  { b with
    packetLossStat := b.packetLossStat.slideWindow f.currentTime
    lastNonHitMinBitrateTime :=
      if f.currentBitrate ≠ f.minBitrate then f.currentTime else b.lastNonHitMinBitrateTime }

def increased (b : BaseRatioController) (f : LossFeed) : BaseRatioController :=
  if f.op = .increaseBwd then
    { b with
      packetLossStat := b.packetLossStat.insert f.currentTime f.packetLoss
      packetLossRecordQueue := []
      lastIncreaseBandwithTime := f.currentTime }
  else b

theorem increased_lastIncrease :
    (b.increased f).lastIncreaseBandwithTime =
      if f.op = .increaseBwd then f.currentTime else b.lastIncreaseBandwithTime := by
  unfold increased
  split_ifs <;> rfl

theorem increased_queue :
    (b.increased f).packetLossRecordQueue =
      if f.op = .increaseBwd then [] else b.packetLossRecordQueue := by
  unfold increased
  split_ifs <;> rfl

theorem feed_eq :
    b.feed f =
      if b.Starting f then b.noted f
      else if b.AtMinimum f then
        { b.noted f with packetLossStat := (b.noted f).packetLossStat.insert f.currentTime f.packetLoss }
      else if b.RecentIncrease f then (b.noted f).increased f
      else ({ (b.noted f).increased f with packetLossRecordQueue := b.recorded f }).settle f.currentTime := by
  have hnoted : (if f.currentBitrate ≠ f.minBitrate then
      { b with
        packetLossStat := b.packetLossStat.slideWindow f.currentTime
        lastNonHitMinBitrateTime := f.currentTime }
      else { b with packetLossStat := b.packetLossStat.slideWindow f.currentTime }) = b.noted f := by
    unfold noted
    split_ifs <;> rfl
  have hrecorded : (if f.op = .decreaseBwd then [] else
      ((b.noted f).increased f).packetLossRecordQueue ++ [f.data]) = b.recorded f := by
    rw [increased_queue]
    rfl
  have hrecent : (f.currentTime - ((b.noted f).increased f).lastIncreaseBandwithTime < smallWaitTime) =
      b.RecentIncrease f := by
    rw [increased_lastIncrease]
    rfl
  unfold feed feedNetworkInfo
  rw [← hrecorded]
  simp only [← hrecent, hnoted]
  rfl

theorem queue_of_reaches (h : b.Reaches f) :
    (b.feed f).packetLossRecordQueue =
      (b.recorded f).dropWhile fun d => f.currentTime - d.time ≥ smallWaitTime := by
  rw [feed_eq, if_neg h.1, if_neg h.2.1, if_neg h.2.2]
  rfl

theorem queue_of_early (h : ¬b.Reaches f) :
    (b.feed f).packetLossRecordQueue = b.packetLossRecordQueue ∨
      (b.feed f).packetLossRecordQueue = [] := by
  rw [feed_eq]
  by_cases hstart : b.Starting f
  · left
    rw [if_pos hstart]
    rfl
  rw [if_neg hstart]
  by_cases hmin : b.AtMinimum f
  · left
    rw [if_pos hmin]
    rfl
  rw [if_neg hmin, if_pos (not_not.mp fun hinc => h ⟨hstart,hmin,hinc⟩), increased_queue]
  split_ifs
  · right
    rfl
  · left
    rfl

end BaseRatioController

open BaseRatioController

def sinceDecrease (feeds : List LossFeed) : List LossFeed :=
  feeds.foldl (fun since f => if f.op = .decreaseBwd then [] else since ++ [f]) []

theorem sinceDecrease_append (feeds : List LossFeed) (f : LossFeed) :
    sinceDecrease (feeds ++ [f]) = if f.op = .decreaseBwd then [] else sinceDecrease feeds ++ [f] := by
  unfold sinceDecrease
  rw [List.foldl_append]
  rfl

/-- Every sample that is moved was recorded three seconds before or earlier, and after the last
decrease. -/
def MovedSafely (initial : BaseRatioController) (feeds : List LossFeed) : Prop :=
  ∀ pre f post, feeds = pre ++ f :: post →
    (∀ d ∈ (pre.foldl feed initial).moved f, f.currentTime - d.time ≥ smallWaitTime) ∧
      ((pre.foldl feed initial).moved f).Sublist ((sinceDecrease (pre ++ [f])).map LossFeed.data)

/-- A decrease that comes while samples wait gets to the queue. -/
def Heeded (b : BaseRatioController) (f : LossFeed) : Prop :=
  f.op = .decreaseBwd → b.packetLossRecordQueue = [] ∨ b.Reaches f

instance (b : BaseRatioController) (f : LossFeed) : Decidable (Heeded b f) := inferInstanceAs (Decidable (_ → _))

variable {b : BaseRatioController} {f : LossFeed}

def Waits (history : List LossFeed) (b : BaseRatioController) : Prop :=
  b.packetLossRecordQueue.Sublist ((sinceDecrease history).map LossFeed.data)

theorem Waits.recorded {history : List LossFeed} (h : Waits history b) (f : LossFeed) :
    (b.recorded f).Sublist ((sinceDecrease (history ++ [f])).map LossFeed.data) := by
  unfold BaseRatioController.recorded
  rw [sinceDecrease_append]
  by_cases hop : f.op = .decreaseBwd
  · rw [if_pos hop]
    exact List.nil_sublist _
  · rw [if_neg hop, if_neg hop, List.map_append]
    apply List.Sublist.append _ (List.Sublist.refl _)
    split_ifs
    · exact List.nil_sublist _
    · exact h

theorem Waits.feed {history : List LossFeed} (h : Waits history b) (hheed : Heeded b f) :
    Waits (history ++ [f]) (b.feed f) := by
  unfold Waits
  by_cases hreach : b.Reaches f
  · rw [queue_of_reaches hreach]
    exact (List.dropWhile_sublist _).trans (h.recorded f)
  · rcases queue_of_early hreach with hsame | hempty
    · rw [hsame, sinceDecrease_append]
      by_cases hop : f.op = .decreaseBwd
      · rw [(hheed hop).resolve_right hreach]
        exact List.nil_sublist _
      · rw [if_neg hop, List.map_append]
        exact h.trans (List.sublist_append_left _ _)
    · rw [hempty]
      exact List.nil_sublist _

theorem Waits.moved {history : List LossFeed} (h : Waits history b) (f : LossFeed) :
    (∀ d ∈ b.moved f, f.currentTime - d.time ≥ smallWaitTime) ∧
      (b.moved f).Sublist ((sinceDecrease (history ++ [f])).map LossFeed.data) := by
  unfold BaseRatioController.moved
  split_ifs
  · refine ⟨fun d hd => ?_,(List.takeWhile_sublist _).trans (h.recorded f)⟩
    have hsafe := List.mem_takeWhile_imp hd
    exact of_decide_eq_true hsafe
  · exact ⟨List.forall_mem_nil _,List.nil_sublist _⟩

def ignoredDecrease : List LossFeed :=
  [⟨10,1 / 5,2000000,1555200,.noOp⟩,⟨14,1 / 5,1555200,1555200,.decreaseBwd⟩,⟨15,0,1555200,1000000,.noOp⟩]

end Whist.FecController
