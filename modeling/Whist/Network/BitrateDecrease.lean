import Whist.Network.BitrateRange

/-! # A decrease of the bandwidth -/
namespace Whist.Wcc

open FecController (truncate WccOp)

def Decreases (c : Controller) (x : Sample) : Prop :=
  0 < x.incomingBitrate ∧ ∃ r, delayBasedController (detect c x) x = .ok r ∧ r.op = .decreaseBwd

/-- The new bitrate is no higher than the old one, which may have been below the minimum. -/
def LowersBitrate (pow : Pow) (d : Dimensions) (c c' : Controller) : Prop :=
  c'.networkSettings.videoBitrate ≤ c.networkSettings.videoBitrate ∨
    c.networkSettings.videoBitrate < minBitrateOf pow d ∧ c'.networkSettings.videoBitrate = minBitrateOf pow d

/-- The bandwidth is saturated, or the measured bitrate is near the largest one known. -/
def ReliesOnIncoming (c : Controller) (x : Sample) : Prop :=
  ∃ faded, fadeMaxBitrate c = .ok faded ∧ (c.networkSettings.saturateBandwidth = true ∨
    (toDouble x.incomingBitrate * decreaseRatio).val > convergenceBitrate faded)

/-- The measured bitrate, reduced, is at most the old one or the minimum, or these are at the
maximum. -/
def IncomingLow (pow : Pow) (d : Dimensions) (c : Controller) (x : Sample) : Prop :=
  (toDouble x.incomingBitrate * decreaseRatio).val <
      max c.networkSettings.videoBitrate (minBitrateOf pow d) + 1 ∨
    maxBitrateOf pow d ≤ max c.networkSettings.videoBitrate (minBitrateOf pow d)

variable {pow : Pow} {d : Dimensions} {c c' : Controller} {x : Sample}

theorem detect_same (c : Controller) (x : Sample) : (detect c x).networkSettings = c.networkSettings ∧
    (detect c x).maxBitrateAvailable = c.maxBitrateAvailable ∧
    (detect c x).lastSuccessfulBitrate = c.lastSuccessfulBitrate := by
  obtain ⟨hnet,-,hmax,hlast⟩ := overuseDetector_same (filterDelay c x) x
  exact ⟨hnet,hmax,hlast⟩

theorem fadeMaxBitrate_networkSettings (h : fadeMaxBitrate c = .ok c') :
    c'.networkSettings = c.networkSettings := by
  unfold fadeMaxBitrate at h
  split_ifs at h
  · cases hfaded : toInt (toDouble c.maxBitrateAvailable * (.nearest 1 - maxBitrateEwmaFactor) +
        toDouble c.lastSuccessfulBitrate * maxBitrateEwmaFactor) with
    | error e =>
      rw [hfaded] at h
      cases h
    | ok n =>
      rw [hfaded] at h
      cases h
      rfl
  · cases h
    rfl

theorem fadeMaxBitrate_detect {faded : Controller} (h : fadeMaxBitrate (detect c x) = .ok faded) :
    ∃ faded', fadeMaxBitrate c = .ok faded' ∧ convergenceBitrate faded' = convergenceBitrate faded := by
  obtain ⟨-,hmax,hlast⟩ := detect_same c x
  unfold fadeMaxBitrate at h ⊢
  rw [hmax, hlast] at h
  by_cases hlt : c.lastSuccessfulBitrate < c.maxBitrateAvailable
  · rw [if_pos hlt] at h ⊢
    cases hfaded : toInt (toDouble c.maxBitrateAvailable * (.nearest 1 - maxBitrateEwmaFactor) +
        toDouble c.lastSuccessfulBitrate * maxBitrateEwmaFactor) with
    | error e =>
      rw [hfaded] at h
      cases h
    | ok n =>
      rw [hfaded] at h
      cases h
      exact ⟨_,rfl,rfl⟩
  · rw [if_neg hlt] at h ⊢
    cases h
    refine ⟨c,rfl,?_⟩
    unfold convergenceBitrate
    rw [hmax]

theorem decreaseBitrate_cases {r : Decision} (h : decreaseBitrate c x = .ok r) :
    ∃ faded, fadeMaxBitrate c = .ok faded ∧
      if c.networkSettings.saturateBandwidth = true ∨
          (toDouble x.incomingBitrate * decreaseRatio).val > convergenceBitrate faded then
        toInt (toDouble x.incomingBitrate * decreaseRatio) = .ok r.newBitrate
      else toInt (toDouble c.networkSettings.videoBitrate *
        minDouble decreaseRatio (.nearest 1 - .nearest (1 / 2) * x.packetLossRatio)) = .ok r.newBitrate := by
  unfold decreaseBitrate at h
  cases hfade : fadeMaxBitrate c with
  | error e =>
    rw [hfade] at h
    cases h
  | ok faded =>
    refine ⟨faded,rfl,?_⟩
    rw [hfade] at h
    simp only [bind, Except.bind, fadeMaxBitrate_networkSettings hfade] at h
    by_cases hin : c.networkSettings.saturateBandwidth = true ∨
        (toDouble x.incomingBitrate * decreaseRatio).val > convergenceBitrate faded
    · rw [if_pos hin]
      simp only [if_pos hin] at h
      cases hn : toInt (toDouble x.incomingBitrate * decreaseRatio) with
      | error e =>
        rw [hn] at h
        cases h
      | ok n =>
        rw [hn] at h
        dsimp only at h
        split_ifs at h <;> (cases h; rfl)
    · rw [if_neg hin]
      simp only [if_neg hin] at h
      cases hn : toInt (toDouble c.networkSettings.videoBitrate *
          minDouble decreaseRatio (.nearest 1 - .nearest (1 / 2) * x.packetLossRatio)) with
      | error e =>
        rw [hn] at h
        cases h
      | ok n =>
        rw [hn] at h
        cases h
        rfl

theorem update_videoBitrate {newBitrate minBitrate maxBitrate : ℤ}
    (h : update c newBitrate minBitrate maxBitrate = .ok c') :
    c'.networkSettings.videoBitrate =
      if max newBitrate minBitrate ≥ maxBitrate then maxBitrate else max newBitrate minBitrate := by
  have hclip : (if newBitrate < minBitrate then minBitrate else newBitrate) = max newBitrate minBitrate := by
    split_ifs with hlt
    · exact (max_eq_right hlt.le).symm
    · exact (max_eq_left (not_lt.mp hlt)).symm
  unfold update at h
  simp only [hclip] at h
  by_cases hburst : max newBitrate minBitrate ≥ maxBitrate
  · rw [if_pos hburst]
    simp only [hburst, decide_true, if_true] at h
    cases hint : checked (maxBitrate * burstBitrateRatio) with
    | error e =>
      rw [hint] at h
      cases h
    | ok n =>
      rw [hint] at h
      cases h
      rfl
  · rw [if_neg hburst]
    simp only [hburst, decide_false] at h
    cases h
    rfl

theorem decrease_videoBitrate (hpow : PowOk pow) (hdec : Decreases c x)
    (h : whistCongestionController pow d c x = .ok c') :
    ∃ r, decreaseBitrate (detect c x) x = .ok r ∧ c'.networkSettings.videoBitrate =
      if max r.newBitrate (minBitrateOf pow d) ≥ maxBitrateOf pow d then maxBitrateOf pow d
      else max r.newBitrate (minBitrateOf pow d) := by
  obtain ⟨hpos,r,hr,hop⟩ := hdec
  refine ⟨r,?_,?_⟩
  · unfold delayBasedController at hr
    split_ifs at hr
    · -- an increase has another operation
      exfalso
      unfold increaseBitrate at hr
      dsimp only at hr
      generalize toInt _ = n at hr
      cases n with
      | error e => cases hr
      | ok n =>
        cases hr
        cases hop
    · exact hr
    · cases hr
      cases hop
  · have hmax := (@maxBitrate_ok pow d hpow).1
    have hmin := (@minBitrate_ok pow d hpow).1
    unfold whistCongestionController at h
    rw [if_neg (not_le.mpr hpos)] at h
    have hop' : r.op ≠ .noOp := by rw [hop]; exact fun hne => by cases hne
    simp only [hmax, hr, hmin, bind, Except.bind, if_pos hop'] at h
    cases hupdate : update r.controller r.newBitrate (minBitrateOf pow d) (maxBitrateOf pow d) with
    | error e =>
      rw [hupdate] at h
      cases h
    | ok c₁ =>
      rw [hupdate] at h
      cases h
      have hsettle : (settleCongestion c₁).networkSettings.videoBitrate = c₁.networkSettings.videoBitrate := by
        unfold settleCongestion
        split_ifs <;> rfl
      exact hsettle.trans (update_videoBitrate hupdate)

theorem minBitrate_nonneg (hpow : PowOk pow) : 0 ≤ minBitrateOf pow d := (minBitrate_ok hpow).2

theorem scaled_le {n m : ℤ} {f : Binary64} (h : IsInt n) (hf0 : 0 ≤ f.val) (hf : f.val ≤ 1)
    (hm : toInt (toDouble n * f) = .ok m) : m ≤ max n 0 := by
  have habs : |n| ≤ 2 ^ 53 := by
    rw [abs_le]
    exact ⟨by linarith [h.1],by linarith [h.2]⟩
  have hv := toDouble_val habs
  unfold toInt checked at hm
  split_ifs at hm
  cases hm
  by_cases hn : 0 ≤ n
  · have hn0 : 0 ≤ (toDouble n).val := by
      rw [hv]
      exact_mod_cast hn
    have hle : (toDouble n * f).val ≤ (toDouble n).val :=
      mul_le_val hn0 hf0 (mul_le_of_le_one_right hn0 hf) (toDouble n).exact
    unfold truncate
    rw [if_pos (mul_nonneg_val hn0 hf0), max_eq_left hn, Int.floor_le_iff]
    rw [hv] at hle
    linarith
  · have hneg : (toDouble n * f).val ≤ 0 := by
      rw [Binary64.mul_val, hv]
      exact Binary64.round_nonpos (mul_nonpos_of_nonpos_of_nonneg (by exact_mod_cast (not_le.mp hn).le) hf0)
    have htrunc : truncate (toDouble n * f).val ≤ 0 := by
      unfold truncate
      split_ifs
      · exact_mod_cast (Int.floor_le (toDouble n * f).val).trans hneg
      · exact Int.ceil_le.mpr (by exact_mod_cast hneg)
    exact htrunc.trans (le_max_right _ _)

theorem clipped_lowers_iff {new old minBitrate maxBitrate : ℤ} (hle : minBitrate ≤ maxBitrate) :
    ((if max new minBitrate ≥ maxBitrate then maxBitrate else max new minBitrate) ≤ old ∨
      old < minBitrate ∧
        (if max new minBitrate ≥ maxBitrate then maxBitrate else max new minBitrate) = minBitrate) ↔
      new ≤ max old minBitrate ∨ maxBitrate ≤ max old minBitrate := by
  split_ifs <;> omega

/-- A decrease lowers the bitrate exactly if it does not rely on a measured bitrate that is too
high. -/
theorem decrease_lowers_iff (pow : Pow) (hpow : PowOk pow) (d : Dimensions) (c c' : Controller) (x : Sample)
    (hold : IsInt c.networkSettings.videoBitrate) (hdec : Decreases c x)
    (h : whistCongestionController pow d c x = .ok c') :
    LowersBitrate pow d c c' ↔ (ReliesOnIncoming c x → IncomingLow pow d c x) := by
  obtain ⟨r,hr,hvideo⟩ := decrease_videoBitrate hpow hdec h
  obtain ⟨hnet,-,-⟩ := detect_same c x
  obtain ⟨faded,hfade,hnew⟩ := decreaseBitrate_cases hr
  obtain ⟨faded',hfade',hconv⟩ := fadeMaxBitrate_detect hfade
  rw [hnet, ← hconv] at hnew
  have hrelies : ReliesOnIncoming c x ↔ (c.networkSettings.saturateBandwidth = true ∨
      (toDouble x.incomingBitrate * decreaseRatio).val > convergenceBitrate faded') := by
    constructor
    · rintro ⟨f,hf,hin⟩
      rw [hfade', Except.ok.injEq] at hf
      exact hf ▸ hin
    · exact fun hin => ⟨faded',hfade',hin⟩
  have hclip := @clipped_lowers_iff r.newBitrate c.networkSettings.videoBitrate (minBitrateOf pow d)
    (maxBitrateOf pow d) (min_le_max hpow)
  unfold LowersBitrate
  rw [hvideo, hclip, hrelies]
  by_cases hin : c.networkSettings.saturateBandwidth = true ∨
      (toDouble x.incomingBitrate * decreaseRatio).val > convergenceBitrate faded'
  · rw [if_pos hin] at hnew
    have hinc : 0 ≤ (toDouble x.incomingBitrate).val := Binary64.round_nonneg (by exact_mod_cast hdec.1.le)
    have hfloor : r.newBitrate = ⌊(toDouble x.incomingBitrate * decreaseRatio).val⌋ := by
      unfold toInt checked truncate at hnew
      rw [if_pos (mul_nonneg_val hinc decreaseRatio_bounds.1)] at hnew
      split_ifs at hnew
      exact (Except.ok.inj hnew).symm
    have hfloor_le : r.newBitrate ≤ max c.networkSettings.videoBitrate (minBitrateOf pow d) ↔
        (toDouble x.incomingBitrate * decreaseRatio).val <
          max c.networkSettings.videoBitrate (minBitrateOf pow d) + 1 := by
      rw [hfloor, Int.floor_le_iff]
    rw [hfloor_le]
    unfold IncomingLow
    exact ⟨fun hlow _ => hlow,fun hlow => hlow hin⟩
  · rw [if_neg hin] at hnew
    obtain ⟨hf0,hf1⟩ := lossFactor_bounds x
    have hle := scaled_le hold hf0 hf1 hnew
    have hmin0 := @minBitrate_nonneg pow d hpow
    exact ⟨fun _ hin' => absurd hin' hin,fun _ => Or.inl (by omega)⟩

def afterSevereCongestion : Controller where
  networkSettings :=
    { videoBitrate := 1555200
      burstBitrate := 1555200
      saturateBandwidth := true
      congestionDetected := true }

/-- The latency is high, and the last decrease was two seconds ago. -/
def lateSample (incomingBitrate : ℤ) (hint : IsInt incomingBitrate) : Sample where
  currGroupStats := ⟨0,0⟩
  prevGroupStats := ⟨0,0⟩
  incomingBitrate := incomingBitrate
  packetLossRatio := .nearest 0
  shortTermLatency := .nearest 1
  longTermLatency := .nearest (1 / 8)
  overuseTimer := .nearest 0
  lastUpdateTimer := .nearest 2
  lastDecreaseTimer := .nearest 2
  incomingBitrate_int := hint
  packetLossRatio_nonneg := Binary64.round_zero.ge
  packetLossRatio_le := Binary64.round_zero.le.trans (by norm_num)

theorem lateSample_decreases {incomingBitrate : ℤ} (hint : IsInt incomingBitrate)
    (hop : (delayBasedController (detect afterSevereCongestion (lateSample incomingBitrate hint))
      (lateSample incomingBitrate hint)).toOption.map Decision.op = some .decreaseBwd)
    (hpos : 0 < incomingBitrate) : Decreases afterSevereCongestion (lateSample incomingBitrate hint) := by
  refine ⟨hpos,?_⟩
  cases hr : delayBasedController (detect afterSevereCongestion (lateSample incomingBitrate hint))
      (lateSample incomingBitrate hint) with
  | error e =>
    rw [hr] at hop
    cases hop
  | ok r =>
    rw [hr] at hop
    exact ⟨r,rfl,Option.some.inj hop⟩

/-- The server still sends at the minimum. -/
theorem decrease_lowers_iff_minimum :
    ∃ c', whistCongestionController basePow laptopScreen afterSevereCongestion
        (lateSample 1600000 (by decide)) = .ok c' ∧
      (LowersBitrate basePow laptopScreen afterSevereCongestion c' ↔
        (ReliesOnIncoming afterSevereCongestion (lateSample 1600000 (by decide)) →
          IncomingLow basePow laptopScreen afterSevereCongestion (lateSample 1600000 (by decide)))) := by
  have hok : (whistCongestionController basePow laptopScreen afterSevereCongestion
      (lateSample 1600000 (by decide))).toOption.isSome := by decide +kernel
  cases hrun : whistCongestionController basePow laptopScreen afterSevereCongestion
      (lateSample 1600000 (by decide)) with
  | error e =>
    rw [hrun] at hok
    cases hok
  | ok c' =>
    exact ⟨c',rfl,decrease_lowers_iff basePow basePow_ok laptopScreen _ c' _ (by decide)
      (lateSample_decreases (by decide) (by decide +kernel) (by norm_num)) hrun⟩

/-- The bitrate measured is that of the second before the congestion. -/
theorem decrease_raises :
    ¬∀ (pow : Pow) (d : Dimensions) (c c' : Controller) (x : Sample), PowOk pow →
      IsInt c.networkSettings.videoBitrate → Decreases c x →
      whistCongestionController pow d c x = .ok c' → LowersBitrate pow d c c' := by
  intro h
  have hok : (whistCongestionController basePow laptopScreen afterSevereCongestion
      (lateSample 6000000 (by decide))).toOption.map (fun c => c.networkSettings.videoBitrate) =
        some 5700000 := by decide +kernel
  have hmin : minBitrateOf basePow laptopScreen = 1555200 := by decide +kernel
  cases hrun : whistCongestionController basePow laptopScreen afterSevereCongestion
      (lateSample 6000000 (by decide)) with
  | error e =>
    rw [hrun] at hok
    cases hok
  | ok c' =>
    rw [hrun] at hok
    have hnew : c'.networkSettings.videoBitrate = 5700000 := Option.some.inj hok
    have hlow := h basePow laptopScreen afterSevereCongestion c' _ basePow_ok (by decide)
      (lateSample_decreases (by decide) (by decide +kernel) (by norm_num)) hrun
    unfold LowersBitrate at hlow
    rw [hnew, hmin] at hlow
    revert hlow
    decide

end Whist.Wcc
