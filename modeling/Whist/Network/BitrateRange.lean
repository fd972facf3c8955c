import Whist.Network.NetworkAlgorithm

/-! # Bitrates stay in range -/
namespace Whist.Wcc

open FecController (truncate WccOp)

/-- What is used of `pow`: `x ^ 1.6` for `x` between a half and two. -/
def PowOk (pow : Pow) : Prop :=
  ∀ r : Binary64, 1 / 2 ≤ r.val → r.val ≤ 2 →
    1 / 4 ≤ (pow r dpiRatioExponent).val ∧ (pow r dpiRatioExponent).val ≤ 4

theorem mul_nonneg_val {a b : Binary64} (ha : 0 ≤ a.val) (hb : 0 ≤ b.val) : 0 ≤ (a * b).val :=
  Binary64.round_nonneg (mul_nonneg ha hb)

theorem mul_le_val {a b : Binary64} {m : ℚ} (ha : 0 ≤ a.val) (hb : 0 ≤ b.val)
    (hm : a.val * b.val ≤ m) (hexact : Binary64.round m = m) : (a * b).val ≤ m :=
  Binary64.round_le_of_le (mul_nonneg ha hb) hm hexact

theorem mul_mono_val {a b b' : Binary64} (ha : 0 ≤ a.val) (hb : 0 ≤ b.val) (h : b.val ≤ b'.val) :
    (a * b).val ≤ (a * b').val :=
  Binary64.round_mono (mul_nonneg ha hb) (mul_le_mul_of_nonneg_left h ha)

theorem mul_mono_val_left {a a' b : Binary64} (ha : 0 ≤ a.val) (hb : 0 ≤ b.val)
    (h : a.val ≤ a'.val) : (a * b).val ≤ (a' * b).val :=
  Binary64.round_mono (mul_nonneg ha hb) (mul_le_mul_of_nonneg_right h hb)

theorem toDouble_val {n : ℤ} (h : |n| ≤ 2 ^ 53) : (toDouble n).val = n := Binary64.round_intCast h

theorem nearest_intCast {n : ℤ} (h : |n| ≤ 2 ^ 53) : (Binary64.nearest n).val = n :=
  Binary64.round_intCast h

theorem maxDouble_val (a b : Binary64) : (maxDouble a b).val = max a.val b.val := by
  unfold maxDouble
  split
  · exact (max_eq_left (le_of_lt ‹_›)).symm
  · exact (max_eq_right (not_lt.mp ‹_›)).symm

theorem minDouble_val (a b : Binary64) : (minDouble a b).val = min a.val b.val := by
  unfold minDouble
  split
  · exact (min_eq_left (le_of_lt ‹_›)).symm
  · exact (min_eq_right (not_lt.mp ‹_›)).symm

theorem checked_ok {n : ℤ} (h : IsInt n) : checked n = .ok n := if_pos h

theorem toInt_ok {x : Binary64} (h0 : 0 ≤ x.val) (h1 : x.val < 2147483648) :
    toInt x = .ok ⌊x.val⌋ ∧ 0 ≤ ⌊x.val⌋ := by
  have hfloor : 0 ≤ ⌊x.val⌋ := Int.floor_nonneg.mpr h0
  have hlt : ⌊x.val⌋ < 2147483648 := Int.floor_lt.mpr (by exact_mod_cast h1)
  refine ⟨?_,hfloor⟩
  unfold toInt truncate
  rw [if_pos h0]
  exact checked_ok ⟨by omega,hlt⟩

theorem dpiRatio_bounds (d : Dimensions) : 1 / 2 ≤ (dpiRatio d).val ∧ (dpiRatio d).val ≤ 2 := by
  have h2 : (Binary64.nearest 2).val = 2 := by exact_mod_cast nearest_intCast (n := 2) (by norm_num)
  have hhalf : (Binary64.nearest (1 / 2)).val = 1 / 2 :=
    @Binary64.round_eq_self _ 1 (-1) (by norm_num) (by norm_num) (by norm_num)
  unfold dpiRatio
  rw [maxDouble_val, minDouble_val, h2, hhalf]
  exact ⟨le_max_right _ _,max_le (min_le_right _ _) (by norm_num)⟩

theorem area_bounds (d : Dimensions) : 0 ≤ d.width * d.height ∧ d.width * d.height ≤ 2 ^ 24 := by
  have h1 := d.width_pos
  have h2 := d.width_le
  have h3 := d.height_pos
  have h4 := d.height_le
  constructor
  · positivity
  · nlinarith

def bitrateOf (pow : Pow) (d : Dimensions) (bitratePerPixel : Binary64) : ℤ :=
  ⌊(toDouble (d.width * d.height) * bitratePerPixel * pow (dpiRatio d) dpiRatioExponent).val⌋

def maxVideoBitrate : ℤ := 2 ^ 28

variable {pow : Pow} {d : Dimensions}

theorem area_val (d : Dimensions) :
    (toDouble (d.width * d.height)).val = ((d.width * d.height : ℤ) : ℚ) := by
  obtain ⟨h0,h1⟩ := area_bounds d
  apply toDouble_val
  rw [abs_of_nonneg h0]
  exact h1.trans (by norm_num)

theorem getVideoBitrate_ok (hpow : PowOk pow) {b : Binary64} (hb0 : 0 ≤ b.val) (hb : b.val ≤ 4) :
    getVideoBitrate pow d b = .ok (bitrateOf pow d b) ∧ 0 ≤ bitrateOf pow d b ∧
      bitrateOf pow d b ≤ maxVideoBitrate := by
  obtain ⟨ha0,ha⟩ := area_bounds d
  obtain ⟨hr0,hr1⟩ := dpiRatio_bounds d
  obtain ⟨hp0,hp1⟩ := hpow _ hr0 hr1
  have hp0 : 0 ≤ (pow (dpiRatio d) dpiRatioExponent).val := le_trans (by norm_num) hp0
  have hav := area_val d
  have haq0 : (0 : ℚ) ≤ (toDouble (d.width * d.height)).val := by
    rw [hav]
    exact_mod_cast ha0
  have haq : (toDouble (d.width * d.height)).val ≤ 2 ^ 24 := by
    rw [hav]
    exact_mod_cast ha
  have hpix0 := mul_nonneg_val haq0 hb0
  have hpix : (toDouble (d.width * d.height) * b).val ≤ 2 ^ 26 := by
    apply mul_le_val haq0 hb0
    · calc _ ≤ (2 : ℚ) ^ 24 * 4 := mul_le_mul haq hb hb0 (by norm_num)
        _ = 2 ^ 26 := by norm_num
    · exact @Binary64.round_eq_self _ 1 26 (by norm_num) (by norm_num) (by norm_num)
  have hall0 := mul_nonneg_val hpix0 hp0
  have hall : (toDouble (d.width * d.height) * b * pow (dpiRatio d) dpiRatioExponent).val ≤ 2 ^ 28 := by
    apply mul_le_val hpix0 hp0
    · calc _ ≤ (2 : ℚ) ^ 26 * 4 := mul_le_mul hpix hp1 hp0 (by norm_num)
        _ = 2 ^ 28 := by norm_num
    · exact @Binary64.round_eq_self _ 1 28 (by norm_num) (by norm_num) (by norm_num)
  obtain ⟨hint,hfloor⟩ := toInt_ok hall0 (lt_of_le_of_lt hall (by norm_num))
  refine ⟨?_,hfloor,?_⟩
  · have hchk : checked (d.width * d.height) = .ok (d.width * d.height) :=
      checked_ok ⟨by omega,by omega⟩
    unfold getVideoBitrate
    rw [hchk]
    exact hint
  · have hle := Int.floor_le_floor hall
    unfold bitrateOf maxVideoBitrate
    exact hle.trans (by norm_num)

theorem bitrateOf_mono (hpow : PowOk pow) {b b' : Binary64} (hb0 : 0 ≤ b.val) (h : b.val ≤ b'.val) :
    bitrateOf pow d b ≤ bitrateOf pow d b' := by
  obtain ⟨ha0,-⟩ := area_bounds d
  obtain ⟨hr0,hr1⟩ := dpiRatio_bounds d
  have hp0 : 0 ≤ (pow (dpiRatio d) dpiRatioExponent).val :=
    le_trans (by norm_num) (hpow _ hr0 hr1).1
  have haq0 : (0 : ℚ) ≤ (toDouble (d.width * d.height)).val := by
    rw [area_val]
    exact_mod_cast ha0
  apply Int.floor_le_floor
  exact mul_mono_val_left (mul_nonneg_val haq0 hb0) hp0 (mul_mono_val haq0 hb0 h)

def minBitrateOf (pow : Pow) (d : Dimensions) : ℤ := bitrateOf pow d minimumBitratePerPixel
def maxBitrateOf (pow : Pow) (d : Dimensions) : ℤ := bitrateOf pow d maximumBitratePerPixel

theorem minimumBitratePerPixel_val : minimumBitratePerPixel.val = 75 / 100 :=
  @Binary64.round_eq_self _ 3 (-2) (by norm_num) (by norm_num) (by norm_num)

theorem maximumBitratePerPixel_val : maximumBitratePerPixel.val = 4 := by
  exact_mod_cast nearest_intCast (n := 4) (by norm_num)

theorem startingBitratePerPixel_val : startingBitratePerPixel.val = 3 := by
  exact_mod_cast nearest_intCast (n := 3) (by norm_num)

structure Statics (c : Controller) : Prop where
  increasePercentage_nonneg : 0 ≤ c.increasePercentage.val
  increasePercentage_le : c.increasePercentage.val ≤ 16
  maxBitrateAvailable_nonneg : 0 ≤ c.maxBitrateAvailable
  maxBitrateAvailable_le : c.maxBitrateAvailable ≤ maxVideoBitrate
  lastSuccessfulBitrate_nonneg : 0 ≤ c.lastSuccessfulBitrate
  lastSuccessfulBitrate_le : c.lastSuccessfulBitrate ≤ maxVideoBitrate

def SameBitrates (c c' : Controller) : Prop :=
  c'.networkSettings.videoBitrate = c.networkSettings.videoBitrate ∧
    c'.networkSettings.burstBitrate = c.networkSettings.burstBitrate

def Small (c : Controller) : Prop :=
  0 ≤ c.networkSettings.videoBitrate ∧ c.networkSettings.videoBitrate ≤ maxVideoBitrate

theorem small_val {n : ℤ} (h0 : 0 ≤ n) (h : n ≤ maxVideoBitrate) :
    (toDouble n).val = n ∧ 0 ≤ (toDouble n).val ∧ (toDouble n).val ≤ 2 ^ 28 := by
  unfold maxVideoBitrate at h
  have hv : (toDouble n).val = n := by
    apply toDouble_val
    rw [abs_of_nonneg h0]
    exact h.trans (by norm_num)
  rw [hv]
  exact ⟨rfl,by exact_mod_cast h0,by exact_mod_cast h⟩

theorem maxIncreasePercentage_val : maxIncreasePercentage.val = 16 := by
  exact_mod_cast nearest_intCast (n := 16) (by norm_num)

theorem Statics.boost {c : Controller} (h : Statics c) :
    Statics { c with increasePercentage := maxIncreasePercentage } := by
  have hv := maxIncreasePercentage_val
  exact { h with
    increasePercentage_nonneg := by rw [hv]; norm_num
    increasePercentage_le := by rw [hv] }

theorem overuseDetector_same (c : Controller) (x : Sample) :
    (overuseDetector c x).1.networkSettings = c.networkSettings ∧
      (overuseDetector c x).1.increasePercentage = c.increasePercentage ∧
      (overuseDetector c x).1.maxBitrateAvailable = c.maxBitrateAvailable ∧
      (overuseDetector c x).1.lastSuccessfulBitrate = c.lastSuccessfulBitrate := by
  unfold overuseDetector
  split
  · exact ⟨rfl,rfl,rfl,rfl⟩
  · split
    · exact ⟨rfl,rfl,rfl,rfl⟩
    · exact ⟨rfl,rfl,rfl,rfl⟩

theorem detect_ok {c : Controller} (h : Statics c) (hs : Small c) (x : Sample) :
    Statics (detect c x) ∧ Small (detect c x) ∧ SameBitrates c (detect c x) := by
  obtain ⟨h1,h2,h3,h4⟩ := overuseDetector_same (filterDelay c x) x
  have hn : (detect c x).networkSettings = c.networkSettings := h1
  have hp : (detect c x).increasePercentage = c.increasePercentage := h2
  have ha : (detect c x).maxBitrateAvailable = c.maxBitrateAvailable := h3
  have hl : (detect c x).lastSuccessfulBitrate = c.lastSuccessfulBitrate := h4
  refine ⟨⟨?_,?_,?_,?_,?_,?_⟩,?_,?_⟩
  · rw [hp]; exact h.increasePercentage_nonneg
  · rw [hp]; exact h.increasePercentage_le
  · rw [ha]; exact h.maxBitrateAvailable_nonneg
  · rw [ha]; exact h.maxBitrateAvailable_le
  · rw [hl]; exact h.lastSuccessfulBitrate_nonneg
  · rw [hl]; exact h.lastSuccessfulBitrate_le
  · rw [Small, hn]; exact hs
  · rw [SameBitrates, hn]; exact ⟨rfl,rfl⟩

theorem raised_ok {n : ℤ} {p : Binary64} (h0 : 0 ≤ n) (h : n ≤ maxVideoBitrate) (hp0 : 0 ≤ p.val)
    (hp : p.val ≤ 16) :
    ∃ r, toInt (toDouble n * (.nearest 1 + p / .nearest 100)) = .ok r := by
  obtain ⟨-,hn0,hn⟩ := small_val h0 h
  have h1 : (Binary64.nearest 1).val = 1 := by exact_mod_cast nearest_intCast (n := 1) (by norm_num)
  have h100 : (Binary64.nearest 100).val = 100 := by
    exact_mod_cast nearest_intCast (n := 100) (by norm_num)
  have hround1 : Binary64.round 1 = 1 := h1
  have hround2 : Binary64.round 2 = 2 := by
    exact_mod_cast Binary64.round_intCast (n := 2) (by norm_num)
  have hpart0 : 0 ≤ (p / .nearest 100).val := by
    rw [Binary64.div_val, h100]
    exact Binary64.round_nonneg (by positivity)
  have hpart : (p / .nearest 100).val ≤ 1 := by
    rw [Binary64.div_val, h100]
    apply Binary64.round_le_of_le (by positivity) _ hround1
    rw [div_le_one (by norm_num)]
    linarith
  have hfac0 : 0 ≤ (Binary64.nearest 1 + p / .nearest 100).val := by
    rw [Binary64.add_val, h1]
    exact Binary64.round_nonneg (by linarith)
  have hfac : (Binary64.nearest 1 + p / .nearest 100).val ≤ 2 := by
    rw [Binary64.add_val, h1]
    exact Binary64.round_le_of_le (by linarith) (by linarith) hround2
  have hres : (toDouble n * (Binary64.nearest 1 + p / .nearest 100)).val ≤ 2 ^ 29 := by
    apply mul_le_val hn0 hfac0
    · calc _ ≤ (2 : ℚ) ^ 28 * 2 := mul_le_mul hn hfac hfac0 (by norm_num)
        _ = 2 ^ 29 := by norm_num
    · exact @Binary64.round_eq_self _ 1 29 (by norm_num) (by norm_num) (by norm_num)
  exact ⟨_,(toInt_ok (mul_nonneg_val hn0 hfac0) (lt_of_le_of_lt hres (by norm_num))).1⟩

structure DecisionOk (c : Controller) (r : Decision) : Prop where
  statics : Statics r.controller
  same : SameBitrates c r.controller

theorem setSaturate_statics {c : Controller} (h : Statics c) (b : Bool) : Statics (setSaturate c b) :=
  ⟨h.1,h.2,h.3,h.4,h.5,h.6⟩

theorem increaseBitrate_ok {c : Controller} (h : Statics c) (hs : Small c) :
    ∃ r, increaseBitrate c = .ok r ∧ DecisionOk c r := by
  obtain ⟨c₁,hc₁,hst,hsame⟩ : ∃ c₁ : Controller,
      (if c.networkSettings.videoBitrate > c.maxBitrateAvailable then
        { setSaturate { c with lastSuccessfulBitrate := c.networkSettings.videoBitrate } true with
          maxBitrateAvailable := c.networkSettings.videoBitrate
          increasePercentage := maxIncreasePercentage }
      else { c with lastSuccessfulBitrate := c.networkSettings.videoBitrate }) = c₁ ∧
        Statics c₁ ∧ SameBitrates c c₁ := by
    have hlast : Statics { c with lastSuccessfulBitrate := c.networkSettings.videoBitrate } :=
      { h with lastSuccessfulBitrate_nonneg := hs.1, lastSuccessfulBitrate_le := hs.2 }
    refine ⟨_,rfl,?_,?_⟩
    · split
      · have hb := (setSaturate_statics hlast true).boost
        exact { hb with maxBitrateAvailable_nonneg := hs.1, maxBitrateAvailable_le := hs.2 }
      · exact hlast
    · split
      · exact ⟨rfl,rfl⟩
      · exact ⟨rfl,rfl⟩
  obtain ⟨c₂,hc₂,hst₂,hsame₂⟩ : ∃ c₂ : Controller,
      (if c₁.networkSettings.saturateBandwidth then
        { c₁ with increasePercentage := maxIncreasePercentage } else c₁) = c₂ ∧
        Statics c₂ ∧ SameBitrates c c₂ := by
    refine ⟨_,rfl,?_,?_⟩
    · split
      · exact hst.boost
      · exact hst
    · split
      · exact hsame
      · exact hsame
  have hn0 : 0 ≤ c₂.networkSettings.videoBitrate := hsame₂.1 ▸ hs.1
  have hn : c₂.networkSettings.videoBitrate ≤ maxVideoBitrate := hsame₂.1 ▸ hs.2
  obtain ⟨n,hint⟩ := raised_ok hn0 hn hst₂.increasePercentage_nonneg hst₂.increasePercentage_le
  refine ⟨⟨c₂,n,.increaseBwd⟩,?_,hst₂,hsame₂⟩
  unfold increaseBitrate
  simp only [hc₁, hc₂, hint]
  rfl

theorem maxBitrateEwmaFactor_bounds : 53687091 / 2 ^ 30 ≤ maxBitrateEwmaFactor.val ∧
    maxBitrateEwmaFactor.val ≤ 53687092 / 2 ^ 30 := by
  constructor
  · exact Binary64.le_round_of_le (by norm_num) (by norm_num)
      (@Binary64.round_eq_self _ 53687091 (-30) (by norm_num) (by norm_num) (by norm_num))
  · exact Binary64.round_le_of_le (by norm_num) (by norm_num)
      (@Binary64.round_eq_self _ 53687092 (-30) (by norm_num) (by norm_num) (by norm_num))

theorem ewmaRest_bounds : 0 ≤ (Binary64.nearest 1 - maxBitrateEwmaFactor).val ∧
    (Binary64.nearest 1 - maxBitrateEwmaFactor).val ≤ 1020054733 / 2 ^ 30 := by
  obtain ⟨h0,h1⟩ := maxBitrateEwmaFactor_bounds
  have hone : (Binary64.nearest 1).val = 1 := by
    exact_mod_cast nearest_intCast (n := 1) (by norm_num)
  have hpos : 0 ≤ 1 - maxBitrateEwmaFactor.val := by linarith
  rw [Binary64.sub_val, hone]
  refine ⟨Binary64.round_nonneg hpos,Binary64.round_le_of_le hpos (by linarith) ?_⟩
  exact @Binary64.round_eq_self _ 1020054733 (-30) (by norm_num) (by norm_num) (by norm_num)

theorem faded_ok {m l : ℤ} (hm0 : 0 ≤ m) (hm : m ≤ maxVideoBitrate) (hl0 : 0 ≤ l)
    (hl : l ≤ maxVideoBitrate) :
    ∃ r, toInt (toDouble m * (.nearest 1 - maxBitrateEwmaFactor) +
      toDouble l * maxBitrateEwmaFactor) = .ok r ∧ 0 ≤ r ∧ r ≤ maxVideoBitrate := by
  obtain ⟨-,hmv0,hmv⟩ := small_val hm0 hm
  obtain ⟨-,hlv0,hlv⟩ := small_val hl0 hl
  obtain ⟨ha0,ha⟩ := ewmaRest_bounds
  obtain ⟨hb0,hb⟩ := maxBitrateEwmaFactor_bounds
  have hb0 : 0 ≤ maxBitrateEwmaFactor.val := le_trans (by norm_num) hb0
  have h1 : (toDouble m * (.nearest 1 - maxBitrateEwmaFactor)).val ≤ 1020054733 / 4 := by
    apply mul_le_val hmv0 ha0
    · calc _ ≤ (2 : ℚ) ^ 28 * (1020054733 / 2 ^ 30) := mul_le_mul hmv ha ha0 (by norm_num)
        _ = 1020054733 / 4 := by norm_num
    · exact @Binary64.round_eq_self _ 1020054733 (-2) (by norm_num) (by norm_num) (by norm_num)
  have h2 : (toDouble l * maxBitrateEwmaFactor).val ≤ 53687092 / 4 := by
    apply mul_le_val hlv0 hb0
    · calc _ ≤ (2 : ℚ) ^ 28 * (53687092 / 2 ^ 30) := mul_le_mul hlv hb hb0 (by norm_num)
        _ = 53687092 / 4 := by norm_num
    · exact @Binary64.round_eq_self _ 53687092 (-2) (by norm_num) (by norm_num) (by norm_num)
  have h10 := mul_nonneg_val hmv0 ha0
  have h20 := mul_nonneg_val hlv0 hb0
  have hsum0 : 0 ≤ (toDouble m * (.nearest 1 - maxBitrateEwmaFactor) +
      toDouble l * maxBitrateEwmaFactor).val := by
    rw [Binary64.add_val]
    exact Binary64.round_nonneg (by linarith)
  have hsum : (toDouble m * (.nearest 1 - maxBitrateEwmaFactor) +
      toDouble l * maxBitrateEwmaFactor).val ≤ 1073741825 / 4 := by
    rw [Binary64.add_val]
    apply Binary64.round_le_of_le (by linarith) (by linarith)
    exact @Binary64.round_eq_self _ 1073741825 (-2) (by norm_num) (by norm_num) (by norm_num)
  obtain ⟨hint,hfloor⟩ := toInt_ok hsum0 (lt_of_le_of_lt hsum (by norm_num))
  refine ⟨_,hint,hfloor,?_⟩
  have hle := Int.floor_le_floor hsum
  unfold maxVideoBitrate
  exact hle.trans (by norm_num)

theorem fadeMaxBitrate_ok {c : Controller} (h : Statics c) :
    ∃ c', fadeMaxBitrate c = .ok c' ∧ Statics c' ∧ c'.networkSettings = c.networkSettings := by
  unfold fadeMaxBitrate
  by_cases hlt : c.lastSuccessfulBitrate < c.maxBitrateAvailable
  · rw [if_pos hlt]
    obtain ⟨r,hr,hr0,hr1⟩ := faded_ok h.maxBitrateAvailable_nonneg h.maxBitrateAvailable_le
      h.lastSuccessfulBitrate_nonneg h.lastSuccessfulBitrate_le
    refine ⟨{ c with maxBitrateAvailable := r },?_,?_,rfl⟩
    · rw [hr]
      rfl
    · exact { h with maxBitrateAvailable_nonneg := hr0, maxBitrateAvailable_le := hr1 }
  · rw [if_neg hlt]
    exact ⟨c,rfl,h,rfl⟩

theorem decreaseRatio_bounds : 0 ≤ decreaseRatio.val ∧ decreaseRatio.val ≤ 1 :=
  ⟨Binary64.round_nonneg (by norm_num),
    Binary64.round_le_of_le (by norm_num) (by norm_num)
      (by exact_mod_cast Binary64.round_intCast (n := 1) (by norm_num))⟩

theorem scaled_ok {n : ℤ} {f : Binary64} (h0 : 0 ≤ n) (h : IsInt n) (hf0 : 0 ≤ f.val)
    (hf : f.val ≤ 1) : ∃ r, toInt (toDouble n * f) = .ok r := by
  have habs : |n| ≤ 2 ^ 53 := by
    rw [abs_of_nonneg h0]
    have := h.2
    omega
  have hv := toDouble_val habs
  have hn0 : 0 ≤ (toDouble n).val := by
    rw [hv]
    exact_mod_cast h0
  have hle : (toDouble n * f).val ≤ (toDouble n).val :=
    mul_le_val hn0 hf0 (mul_le_of_le_one_right hn0 hf) (toDouble n).exact
  refine ⟨_,(toInt_ok (mul_nonneg_val hn0 hf0) (lt_of_le_of_lt hle ?_)).1⟩
  rw [hv]
  exact_mod_cast h.2

theorem lossFactor_bounds (x : Sample) :
    0 ≤ (minDouble decreaseRatio (.nearest 1 - .nearest (1 / 2) * x.packetLossRatio)).val ∧
      (minDouble decreaseRatio (.nearest 1 - .nearest (1 / 2) * x.packetLossRatio)).val ≤ 1 := by
  have hone : (Binary64.nearest 1).val = 1 := by
    exact_mod_cast nearest_intCast (n := 1) (by norm_num)
  have hhalf : (Binary64.nearest (1 / 2)).val = 1 / 2 :=
    @Binary64.round_eq_self _ 1 (-1) (by norm_num) (by norm_num) (by norm_num)
  have hpart : (Binary64.nearest (1 / 2) * x.packetLossRatio).val ≤ 1 := by
    apply mul_le_val (by rw [hhalf]; norm_num) x.packetLossRatio_nonneg
    · rw [hhalf]
      linarith [x.packetLossRatio_le]
    · exact hone
  rw [minDouble_val]
  refine ⟨le_min decreaseRatio_bounds.1 ?_,(min_le_left _ _).trans decreaseRatio_bounds.2⟩
  rw [Binary64.sub_val, hone]
  exact Binary64.round_nonneg (by linarith)

theorem Statics.halve {c : Controller} (h : Statics c) :
    Statics { c with
      increasePercentage :=
        maxDouble (c.increasePercentage / .nearest 2) minIncreasePercentage } := by
  have h2 : (Binary64.nearest 2).val = 2 := by exact_mod_cast nearest_intCast (n := 2) (by norm_num)
  have hmin : minIncreasePercentage.val = 5 / 10 :=
    @Binary64.round_eq_self _ 1 (-1) (by norm_num) (by norm_num) (by norm_num)
  have h0 := h.increasePercentage_nonneg
  have h1 := h.increasePercentage_le
  have hhalf : (c.increasePercentage / .nearest 2).val ≤ 16 := by
    rw [Binary64.div_val, h2]
    apply Binary64.round_le_of_le (by positivity) (by linarith)
    exact_mod_cast Binary64.round_intCast (n := 16) (by norm_num)
  refine ⟨?_,?_,h.3,h.4,h.5,h.6⟩
  · rw [maxDouble_val, hmin]
    exact le_trans (by norm_num) (le_max_right _ _)
  · rw [maxDouble_val, hmin]
    exact max_le hhalf (by norm_num)

theorem decreaseBitrate_ok {c : Controller} (h : Statics c) (hs : Small c) {x : Sample}
    (hpos : 0 < x.incomingBitrate) : ∃ r, decreaseBitrate c x = .ok r ∧ DecisionOk c r := by
  obtain ⟨c',hfade,hst,hnet⟩ := fadeMaxBitrate_ok h
  have hsame : SameBitrates c c' := by
    rw [SameBitrates, hnet]
    exact ⟨rfl,rfl⟩
  unfold decreaseBitrate
  rw [hfade]
  simp only [bind, Except.bind]
  by_cases hin : c'.networkSettings.saturateBandwidth = true ∨
      (toDouble x.incomingBitrate * decreaseRatio).val > convergenceBitrate c'
  · obtain ⟨n,hn⟩ := scaled_ok hpos.le x.incomingBitrate_int decreaseRatio_bounds.1
      decreaseRatio_bounds.2
    simp only [if_pos hin, hn]
    by_cases hconv : (n : ℚ) ≥ convergenceBitrate c'
    · simp only [if_pos hconv]
      exact ⟨_,rfl,⟨(setSaturate_statics hst.halve false).1,hst.halve.2,hst.3,hst.4,hst.5,hst.6⟩,hsame⟩
    · simp only [if_neg hconv]
      exact ⟨_,rfl,⟨hst.1,hst.2,hst.3,hst.4,hst.5,hst.6⟩,hsame⟩
  · have hv0 : 0 ≤ c'.networkSettings.videoBitrate := hsame.1 ▸ hs.1
    have hv : c'.networkSettings.videoBitrate ≤ maxVideoBitrate := hsame.1 ▸ hs.2
    have hint : IsInt c'.networkSettings.videoBitrate := by
      unfold maxVideoBitrate at hv
      exact ⟨by omega,by omega⟩
    obtain ⟨n,hn⟩ := scaled_ok hv0 hint (lossFactor_bounds x).1 (lossFactor_bounds x).2
    simp only [if_neg hin, hn]
    exact ⟨_,rfl,⟨hst.1,hst.2,hst.3,hst.4,hst.5,hst.6⟩,hsame⟩

theorem delayBasedController_ok {c : Controller} (h : Statics c) (hs : Small c) {x : Sample}
    (hpos : 0 < x.incomingBitrate) : ∃ r, delayBasedController c x = .ok r ∧ DecisionOk c r := by
  unfold delayBasedController
  split
  · exact increaseBitrate_ok h hs
  · split
    · exact decreaseBitrate_ok h hs hpos
    · exact ⟨_,rfl,h,rfl,rfl⟩

structure InRange (pow : Pow) (d : Dimensions) (s : NetworkSettings) : Prop where
  min_le : minBitrateOf pow d ≤ s.videoBitrate
  le_max : s.videoBitrate ≤ maxBitrateOf pow d
  burst : s.burstBitrate = s.videoBitrate ∨ s.burstBitrate = s.videoBitrate * burstBitrateRatio

structure Inv (pow : Pow) (d : Dimensions) (c : Controller) : Prop where
  statics : Statics c
  inRange : InRange pow d c.networkSettings

theorem minBitrate_ok (hpow : PowOk pow) :
    getVideoBitrate pow d minimumBitratePerPixel = .ok (minBitrateOf pow d) ∧
      0 ≤ minBitrateOf pow d := by
  have hv := minimumBitratePerPixel_val
  obtain ⟨h1,h2,-⟩ := @getVideoBitrate_ok pow d hpow minimumBitratePerPixel
    (by rw [hv]; norm_num) (by rw [hv]; norm_num)
  exact ⟨h1,h2⟩

theorem maxBitrate_ok (hpow : PowOk pow) :
    getVideoBitrate pow d maximumBitratePerPixel = .ok (maxBitrateOf pow d) ∧
      maxBitrateOf pow d ≤ maxVideoBitrate := by
  have hv := maximumBitratePerPixel_val
  obtain ⟨h1,-,h3⟩ := @getVideoBitrate_ok pow d hpow maximumBitratePerPixel
    (by rw [hv]; norm_num) (by rw [hv])
  exact ⟨h1,h3⟩

theorem min_le_max (hpow : PowOk pow) : minBitrateOf pow d ≤ maxBitrateOf pow d := by
  apply bitrateOf_mono hpow
  · rw [minimumBitratePerPixel_val]
    norm_num
  · rw [minimumBitratePerPixel_val, maximumBitratePerPixel_val]
    norm_num

theorem Inv.small (hpow : PowOk pow) {c : Controller} (h : Inv pow d c) : Small c :=
  ⟨(minBitrate_ok hpow).2.trans h.inRange.min_le,h.inRange.le_max.trans (maxBitrate_ok hpow).2⟩

theorem update_ok (hpow : PowOk pow) {c : Controller} (h : Statics c) (newBitrate : ℤ) :
    ∃ c', update c newBitrate (minBitrateOf pow d) (maxBitrateOf pow d) = .ok c' ∧ Inv pow d c' := by
  have hle := @min_le_max pow d hpow
  have hmin0 := (@minBitrate_ok pow d hpow).2
  have hmax := (@maxBitrate_ok pow d hpow).2
  unfold maxVideoBitrate at hmax
  obtain ⟨c₁,hc₁,hst⟩ : ∃ c₁ : Controller,
      (if (newBitrate : ℚ) < convergenceBitrate c ∨ c.maxBitrateAvailable = 0 then
        { setSaturate c true with increasePercentage := maxIncreasePercentage } else c) = c₁ ∧
        Statics c₁ := by
    refine ⟨_,rfl,?_⟩
    split
    · exact (setSaturate_statics h true).boost
    · exact h
  unfold update
  simp only [hc₁]
  set clipped := if newBitrate < minBitrateOf pow d then minBitrateOf pow d else newBitrate with hclip
  have hlow : minBitrateOf pow d ≤ clipped := by
    rw [hclip]
    split
    · exact le_rfl
    · exact not_lt.mp ‹_›
  by_cases hburst : clipped ≥ maxBitrateOf pow d
  · have hint : IsInt (maxBitrateOf pow d * burstBitrateRatio) := by
      unfold burstBitrateRatio
      exact ⟨by omega,by omega⟩
    simp only [hburst, decide_true, if_true, checked_ok hint]
    exact ⟨_,rfl,⟨hst.1,hst.2,hst.3,hst.4,hst.5,hst.6⟩,⟨hle,le_rfl,Or.inr rfl⟩⟩
  · simp only [hburst, decide_false, if_false]
    exact ⟨_,rfl,⟨hst.1,hst.2,hst.3,hst.4,hst.5,hst.6⟩,
      ⟨hlow,(not_le.mp hburst).le,Or.inl rfl⟩⟩

theorem InRange.of_same {c c' : Controller} (h : InRange pow d c.networkSettings)
    (hs : SameBitrates c c') : InRange pow d c'.networkSettings := by
  obtain ⟨hv,hb⟩ := hs
  refine ⟨?_,?_,?_⟩
  · rw [hv]; exact h.min_le
  · rw [hv]; exact h.le_max
  · rw [hv, hb]; exact h.burst

theorem Inv.settleCongestion {c : Controller} (h : Inv pow d c) : Inv pow d (settleCongestion c) := by
  unfold Wcc.settleCongestion
  split
  · exact h
  · exact ⟨⟨h.1.1,h.1.2,h.1.3,h.1.4,h.1.5,h.1.6⟩,⟨h.2.1,h.2.2,h.2.3⟩⟩

theorem whistCongestionController_ok (hpow : PowOk pow) {c : Controller} (h : Inv pow d c)
    (x : Sample) : ∃ c', whistCongestionController pow d c x = .ok c' ∧ Inv pow d c' := by
  unfold whistCongestionController
  by_cases hpos : x.incomingBitrate ≤ 0
  · exact ⟨c,if_pos hpos,h⟩
  · rw [if_neg hpos]
    obtain ⟨hst,hsm,hsame⟩ := detect_ok h.statics (h.small hpow) x
    obtain ⟨r,hr,hrst,hrsame⟩ := delayBasedController_ok hst hsm (not_le.mp hpos)
    have hin := (h.inRange.of_same hsame).of_same hrsame
    have hmax := (@maxBitrate_ok pow d hpow).1
    have hmin := (@minBitrate_ok pow d hpow).1
    simp only [hmax, hr, hmin, bind, Except.bind]
    by_cases hop : r.op ≠ .noOp
    · obtain ⟨c',hc',hinv⟩ := @update_ok pow d hpow _ hrst r.newBitrate
      simp only [if_pos hop, hc']
      exact ⟨_,rfl,hinv.settleCongestion⟩
    · simp only [if_neg hop]
      by_cases hsat : r.controller.networkSettings.saturateBandwidth = true ∧
          x.lastUpdateTimer.val > 5
      · simp only [if_pos hsat]
        have hinv : Inv pow d (setSaturate r.controller false) :=
          ⟨setSaturate_statics hrst false,⟨hin.1,hin.2,hin.3⟩⟩
        exact ⟨_,rfl,hinv.settleCongestion⟩
      · simp only [if_neg hsat]
        have hinv : Inv pow d r.controller := ⟨hrst,hin⟩
        exact ⟨_,rfl,hinv.settleCongestion⟩

theorem handleSevereCongestion_ok (hpow : PowOk pow) {c : Controller} (h : Inv pow d c)
    (lastUpdateTimer : Binary64) :
    ∃ c', handleSevereCongestion pow d c lastUpdateTimer = .ok c' ∧ Inv pow d c' := by
  unfold handleSevereCongestion
  split
  · exact ⟨c,rfl,h⟩
  · rw [(@minBitrate_ok pow d hpow).1]
    exact ⟨_,rfl,⟨h.1.1,h.1.2,h.1.3,h.1.4,h.1.5,h.1.6⟩,⟨le_rfl,min_le_max hpow,Or.inl rfl⟩⟩

theorem call_ok (hpow : PowOk pow) {c : Controller} (h : Inv pow d c) (k : Call) :
    ∃ c', call pow d c k = .ok c' ∧ Inv pow d c' := by
  cases k with
  | congestionController x => exact whistCongestionController_ok hpow h x
  | severeCongestion t => exact handleSevereCongestion_ok hpow h t

theorem getDefaultNetworkSettings_ok (hpow : PowOk pow) :
    ∃ s, getDefaultNetworkSettings pow d = .ok s ∧ InRange pow d s := by
  have hv := startingBitratePerPixel_val
  obtain ⟨h1,-,-⟩ := @getVideoBitrate_ok pow d hpow startingBitratePerPixel
    (by rw [hv]; norm_num) (by rw [hv]; norm_num)
  unfold getDefaultNetworkSettings
  rw [h1]
  refine ⟨_,rfl,?_,?_,Or.inl rfl⟩
  · apply bitrateOf_mono hpow
    · rw [minimumBitratePerPixel_val]
      norm_num
    · rw [minimumBitratePerPixel_val, hv]
      norm_num
  · apply bitrateOf_mono hpow
    · rw [hv]
      norm_num
    · rw [maximumBitratePerPixel_val, hv]
      norm_num

/-- On a screen within the limits, no session overflows an `int` or leaves the range of its
bitrates. -/
theorem session_bitrate_in_range (pow : Pow) (hpow : PowOk pow) (d : Dimensions)
    (calls : List Call) :
    ∃ minBitrate maxBitrate c,
      getVideoBitrate pow d minimumBitratePerPixel = .ok minBitrate ∧
      getVideoBitrate pow d maximumBitratePerPixel = .ok maxBitrate ∧
      session pow d calls = .ok c ∧
      minBitrate ≤ c.networkSettings.videoBitrate ∧ c.networkSettings.videoBitrate ≤ maxBitrate ∧
      (c.networkSettings.burstBitrate = c.networkSettings.videoBitrate ∨
        c.networkSettings.burstBitrate = c.networkSettings.videoBitrate * burstBitrateRatio) := by
  obtain ⟨s,hs,hin⟩ := @getDefaultNetworkSettings_ok pow d hpow
  have hstart : Inv pow d { networkSettings := s } := by
    have h16 := maxIncreasePercentage_val
    refine ⟨⟨?_,?_,le_rfl,?_,le_rfl,?_⟩,hin⟩
    · rw [h16]
      norm_num
    · rw [h16]
    · norm_num [maxVideoBitrate]
    · norm_num [maxVideoBitrate]
  obtain ⟨c,hc,hinv⟩ := Run.run_ok_of_invariant (fun c k h => call_ok hpow h k) calls hstart
  refine ⟨_,_,c,(minBitrate_ok hpow).1,(maxBitrate_ok hpow).1,?_,hinv.inRange.min_le,
    hinv.inRange.le_max,hinv.inRange.burst⟩
  unfold session
  rw [hs]
  exact hc

/-- A `pow` that is right at the base one, which is the ratio of a screen of 192 DPI. -/
def basePow : Pow := fun r _ => r

theorem basePow_ok : PowOk basePow := by
  intro r h0 h1
  exact ⟨le_trans (by norm_num) h0,h1.trans (by norm_num)⟩

def laptopScreen : Dimensions :=
  ⟨1920,1080,192,by norm_num,by norm_num,by norm_num,by norm_num,by norm_num⟩

theorem laptop_session_in_range :
    ∃ minBitrate maxBitrate c,
      getVideoBitrate basePow laptopScreen minimumBitratePerPixel = .ok minBitrate ∧
      getVideoBitrate basePow laptopScreen maximumBitratePerPixel = .ok maxBitrate ∧
      session basePow laptopScreen [.severeCongestion (.nearest 1)] = .ok c ∧
      minBitrate ≤ c.networkSettings.videoBitrate ∧ c.networkSettings.videoBitrate ≤ maxBitrate ∧
      (c.networkSettings.burstBitrate = c.networkSettings.videoBitrate ∨
        c.networkSettings.burstBitrate = c.networkSettings.videoBitrate * burstBitrateRatio) :=
  session_bitrate_in_range basePow basePow_ok laptopScreen [.severeCongestion (.nearest 1)]

end Whist.Wcc
