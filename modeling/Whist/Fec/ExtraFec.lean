import Whist.Fec.FecController

/-! # Extra redundancy while the bandwidth is probed -/
namespace Whist.FecController

/-- What the extra controller is fed; bitrates are positive. -/
structure BandwidthFeed where
  currentTime : ℚ
  oldBitrate : ℤ
  currentBitrate : ℤ
  op : WccOp
  oldBitrate_pos : 0 < oldBitrate
  currentBitrate_pos : 0 < currentBitrate

namespace ExtraRatioController

def feed (x : ExtraRatioController) (f : BandwidthFeed) : ExtraRatioController :=
  x.feedBandwithProbInfo f.currentTime f.oldBitrate f.currentBitrate f.op

end ExtraRatioController

open ExtraRatioController

def BandwidthFeed.Activates (f : BandwidthFeed) : Prop := f.op = .increaseBwd ∧ f.currentBitrate > f.oldBitrate

instance (f : BandwidthFeed) : Decidable f.Activates := inferInstanceAs (Decidable (_ ∧ _))

def TimedOut (x : ExtraRatioController) (f : BandwidthFeed) : Prop :=
  x.extraFecInUse = true ∧ f.currentTime - x.lastUsedExtraFecTime > 3

instance (x : ExtraRatioController) (f : BandwidthFeed) : Decidable (TimedOut x f) :=
  inferInstanceAs (Decidable (_ ∧ _))

def Extends (x : ExtraRatioController) (f : BandwidthFeed) : Prop :=
  x.extraFecInUse = true ∧ ¬f.Activates ∧ f.op = .decreaseBwd ∧ x.extendCntLeft > 0

instance (x : ExtraRatioController) (f : BandwidthFeed) : Decidable (Extends x f) :=
  inferInstanceAs (Decidable (_ ∧ _ ∧ _ ∧ _))

def RatioBounded (x : ExtraRatioController) : Prop :=
  x.extraFecInUse = true → x.extraFecRatio ≤ maxIncreasePercentage / 100

/-- After the feed the ratio is bounded, and a protection that has timed out is off. -/
def Mirrors (x : ExtraRatioController) (f : BandwidthFeed) : Prop :=
  RatioBounded (x.feed f) ∧ (TimedOut x f → (x.feed f).extraFecInUse = false)

/-- Between two extensions there is a new activation. -/
def ExtendedOnce (feeds : List BandwidthFeed) : Prop :=
  ∀ pre f mid g post, feeds = pre ++ f :: (mid ++ g :: post) → Extends (pre.foldl feed {}) f →
    (∀ h ∈ mid, ¬h.Activates) → ¬Extends ((pre ++ f :: mid).foldl feed {}) g

/-- The bitrate rises by at most the largest step, and once the protection has timed out it
neither rises nor, with an extension left, falls. -/
def Modest (x : ExtraRatioController) (f : BandwidthFeed) : Prop :=
  (f.Activates → (f.currentBitrate : ℚ) ≤ (1 + maxIncreasePercentage / 100) * f.oldBitrate) ∧
    (TimedOut x f → ¬f.Activates ∧ ¬Extends x f)

instance (x : ExtraRatioController) (f : BandwidthFeed) : Decidable (Modest x f) :=
  inferInstanceAs (Decidable (_ ∧ _))

variable {x : ExtraRatioController} {f : BandwidthFeed}

theorem feed_activates (h : f.Activates) : x.feed f =
    { extraFecRatio := increaseRatio f.oldBitrate f.currentBitrate
      extraFecInUse := true
      extendCntLeft := 1
      lastUsedExtraFecTime := f.currentTime } := if_pos h

theorem feed_extends (h : Extends x f) : x.feed f =
    { x with extendCntLeft := x.extendCntLeft - 1, lastUsedExtraFecTime := f.currentTime } := by
  obtain ⟨huse,hnot,hop,hleft⟩ := h
  have hnow : ¬f.currentTime - f.currentTime > 3 := by
    rw [sub_self]
    norm_num
  have hnot' : ¬(f.op = .increaseBwd ∧ f.currentBitrate > f.oldBitrate) := hnot
  unfold ExtraRatioController.feed feedBandwithProbInfo
  rw [if_neg hnot', if_pos huse]
  simp only [hop, hleft, and_self, if_true, if_neg hnow]

theorem feed_other (hnot : ¬f.Activates) (hext : ¬Extends x f) :
    x.feed f = if TimedOut x f then { x with extraFecInUse := false } else x := by
  have hnot' : ¬(f.op = .increaseBwd ∧ f.currentBitrate > f.oldBitrate) := hnot
  unfold ExtraRatioController.feed feedBandwithProbInfo
  rw [if_neg hnot']
  by_cases huse : x.extraFecInUse = true
  · have hop : ¬(f.op = .decreaseBwd ∧ x.extendCntLeft > 0) := fun h => hext ⟨huse,hnot,h⟩
    rw [if_pos huse, if_neg hop]
    by_cases hlate : f.currentTime - x.lastUsedExtraFecTime > 3
    · exact (if_pos hlate).trans (if_pos (show TimedOut x f from ⟨huse,hlate⟩)).symm
    · exact (if_neg hlate).trans (if_neg (fun h : TimedOut x f => hlate h.2)).symm
  · exact (if_neg huse).trans (if_neg (fun h : TimedOut x f => huse h.1)).symm

theorem increaseRatio_bounded_iff (f : BandwidthFeed) :
    increaseRatio f.oldBitrate f.currentBitrate ≤ maxIncreasePercentage / 100 ↔
      (f.currentBitrate : ℚ) ≤ (1 + maxIncreasePercentage / 100) * f.oldBitrate := by
  have hold : (0 : ℚ) < f.oldBitrate := by exact_mod_cast f.oldBitrate_pos
  have hclip : ¬extraUpperBound ≤ maxIncreasePercentage / 100 := by norm_num [extraUpperBound, maxIncreasePercentage]
  unfold increaseRatio
  rw [if_neg f.oldBitrate_pos.ne', min_le_iff, or_iff_left hclip, sub_le_iff_le_add', div_le_iff₀ hold]

theorem mirrors_iff (hx : RatioBounded x) : Mirrors x f ↔ Modest x f := by
  unfold Mirrors Modest
  by_cases hact : f.Activates
  · rw [feed_activates hact]
    unfold RatioBounded
    simp [hact, increaseRatio_bounded_iff]
  · by_cases hext : Extends x f
    · rw [feed_extends hext]
      have hbounded : RatioBounded { x with
          extendCntLeft := x.extendCntLeft - 1, lastUsedExtraFecTime := f.currentTime } := hx
      constructor
      · rintro ⟨-,hoff⟩
        refine ⟨fun h => absurd h hact,fun htimed => ?_⟩
        have huse := hoff htimed
        rw [hext.1] at huse
        cases huse
      · rintro ⟨-,htimely⟩
        exact ⟨hbounded,fun htimed => absurd hext (htimely htimed).2⟩
    · rw [feed_other hact hext]
      have hbounded : RatioBounded (if TimedOut x f then { x with extraFecInUse := false } else x) := by
        split_ifs
        · exact fun huse => by cases huse
        · exact hx
      constructor
      · exact fun _ => ⟨fun h => absurd h hact,fun _ => ⟨hact,hext⟩⟩
      · intro _
        refine ⟨hbounded,fun htimed => ?_⟩
        rw [if_pos htimed]

theorem extendCntLeft_feed (hnot : ¬f.Activates) : (x.feed f).extendCntLeft ≤ x.extendCntLeft := by
  by_cases hext : Extends x f
  · rw [feed_extends hext]
    dsimp only
    omega
  · rw [feed_other hnot hext]
    split_ifs <;> exact le_rfl

theorem extendCntLeft_foldl {feeds : List BandwidthFeed} (h : ∀ f ∈ feeds, ¬f.Activates)
    (x : ExtraRatioController) : (feeds.foldl feed x).extendCntLeft ≤ x.extendCntLeft := by
  induction feeds generalizing x with
  | nil => exact le_rfl
  | cons f feeds ih =>
    have hrest := ih (fun g hg => h g (List.mem_cons_of_mem f hg)) (x.feed f)
    exact hrest.trans (extendCntLeft_feed (h f List.mem_cons_self))

theorem extendCntLeft_le_one {feeds : List BandwidthFeed} (hx : x.extendCntLeft ≤ 1) :
    (feeds.foldl feed x).extendCntLeft ≤ 1 := by
  induction feeds generalizing x with
  | nil => exact hx
  | cons f feeds ih =>
    apply ih
    by_cases hact : f.Activates
    · rw [feed_activates hact]
    · exact (extendCntLeft_feed hact).trans hx

theorem extendedOnce (feeds : List BandwidthFeed) : ExtendedOnce feeds := by
  rintro pre f mid g post - hext hmid hext'
  have hone : (pre.foldl feed {}).extendCntLeft ≤ 1 := extendCntLeft_le_one (by norm_num)
  have hused : ((pre.foldl feed {}).feed f).extendCntLeft ≤ 0 := by
    rw [feed_extends hext]
    dsimp only
    omega
  have hrest := extendCntLeft_foldl hmid ((pre.foldl feed {}).feed f)
  have hleft := hext'.2.2.2
  rw [List.foldl_append, List.foldl_cons] at hleft
  omega

/-- The extra redundancy mirrors the probing in every state of a history, and is extended once per
activation, exactly if every feed of it is modest. -/
theorem extraFec_mirrors_iff (feeds : List BandwidthFeed) :
    Run.Each feed Mirrors {} feeds ∧ ExtendedOnce feeds ↔ Run.Each feed Modest {} feeds := by
  have hstart : RatioBounded {} := fun h => by cases h
  have hiff := @Run.each_iff _ _ feed Mirrors Modest RatioBounded (fun _ _ _ h => h.1)
    (fun _ _ hx => mirrors_iff hx) feeds _ hstart
  rw [hiff]
  exact and_iff_left (extendedOnce feeds)

def steepFeed : BandwidthFeed := ⟨10,1000000,1555200,.increaseBwd,by norm_num,by norm_num⟩

theorem extraFec_exceeds : ¬∀ feeds : List BandwidthFeed,
    Run.Each feed Mirrors {} feeds ∧ ExtendedOnce feeds := by
  intro h
  have hratio := (h [steepFeed]).1.1.1
  have huse : (feed {} steepFeed).extraFecInUse = true ∧
      ¬(feed {} steepFeed).extraFecRatio ≤ maxIncreasePercentage / 100 := by decide +kernel
  exact huse.2 (hratio huse.1)

end Whist.FecController
