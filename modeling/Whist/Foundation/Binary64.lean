import Mathlib.Data.Int.Log
import Mathlib.Tactic

/-! # Arithmetic of binary64

A finite double is a rational that rounding to nearest, ties to even, leaves as it is.
-/
namespace Binary64

def roundHalfEven (x : ℚ) : ℤ :=
  if x - ⌊x⌋ < 1 / 2 then ⌊x⌋
  else if 1 / 2 < x - ⌊x⌋ then ⌊x⌋ + 1
  else if ⌊x⌋ % 2 = 0 then ⌊x⌋ else ⌊x⌋ + 1

theorem roundHalfEven_intCast (n : ℤ) : roundHalfEven n = n := by
  unfold roundHalfEven
  simp

theorem floor_le_roundHalfEven (x : ℚ) : ⌊x⌋ ≤ roundHalfEven x := by
  unfold roundHalfEven
  split_ifs <;> omega

theorem roundHalfEven_le (x : ℚ) : roundHalfEven x ≤ ⌊x⌋ + 1 := by
  unfold roundHalfEven
  split_ifs <;> omega

theorem roundHalfEven_mono : Monotone roundHalfEven := by
  intro x y hxy
  rcases (Int.floor_le_floor hxy).lt_or_eq with hlt | heq
  · have hx := roundHalfEven_le x
    have hy := floor_le_roundHalfEven y
    omega
  · have hd : x - ⌊x⌋ ≤ y - ⌊x⌋ := sub_le_sub_right hxy _
    unfold roundHalfEven
    rw [← heq]
    split_ifs <;> first | omega | (exfalso; linarith)

def lastPlace (x : ℚ) : ℤ := max (Int.log 2 |x| - 52) (-1074)

def round (x : ℚ) : ℚ := roundHalfEven (x / 2 ^ lastPlace x) * 2 ^ lastPlace x

theorem two_zpow_pos (e : ℤ) : (0 : ℚ) < 2 ^ e := zpow_pos (by norm_num) e

theorem round_of_multiple {x : ℚ} (n : ℤ) (hn : x = n * 2 ^ lastPlace x) : round x = x := by
  have hdiv : x / 2 ^ lastPlace x = n := (div_eq_iff (two_zpow_pos _).ne').mpr hn
  unfold round
  rw [hdiv, roundHalfEven_intCast, ← hn]

theorem multiple_of_le {x : ℚ} {m e u : ℤ} (hx : x = m * 2 ^ e) (h : u ≤ e) :
    x = ((m * 2 ^ (e - u).toNat : ℤ) : ℚ) * 2 ^ u := by
  have hpow : (2 : ℚ) ^ (e - u).toNat = 2 ^ (e - u) := by
    rw [← zpow_natCast, Int.toNat_of_nonneg (by omega)]
  push_cast
  rw [hpow, mul_assoc, ← zpow_add₀ (by norm_num), sub_add_cancel, hx]

theorem log_lt_of_abs_lt {x : ℚ} {k : ℤ} (h0 : x ≠ 0) (h : |x| < 2 ^ k) : Int.log 2 |x| < k := by
  have hle : (2 : ℚ) ^ Int.log 2 |x| ≤ |x| := by
    exact_mod_cast Int.zpow_log_le_self (b := 2) (by norm_num) (abs_pos.mpr h0)
  exact (zpow_lt_zpow_iff_right₀ (by norm_num)).mp (lt_of_le_of_lt hle h)

/-- Every integer of at most 53 bits times a power of two is a double. -/
theorem round_eq_self {x : ℚ} {m e : ℤ} (hx : x = m * 2 ^ e) (hm : |m| ≤ 2 ^ 53) (he : -1074 ≤ e) :
    round x = x := by
  by_cases h0 : x = 0
  · exact round_of_multiple 0 (by simp [h0])
  · have habs : |x| = |m| * 2 ^ e := by
      rw [hx, abs_mul, abs_of_pos (two_zpow_pos e), Int.cast_abs]
    rcases hm.lt_or_eq with hlt | heq
    · have hlog : Int.log 2 |x| < 53 + e := by
        apply log_lt_of_abs_lt h0
        rw [habs, zpow_add₀ (by norm_num)]
        exact mul_lt_mul_of_pos_right (by exact_mod_cast hlt) (two_zpow_pos e)
      have hu : lastPlace x ≤ e := by
        unfold lastPlace
        omega
      exact round_of_multiple _ (multiple_of_le hx hu)
    · -- the power of two just above the 53-bit numbers
      obtain ⟨s,hs,hm'⟩ : ∃ s : ℤ, |s| ≤ 1 ∧ m = s * 2 ^ 53 := by
        rcases abs_choice m with h | h
        · exact ⟨1,by simp,by omega⟩
        · exact ⟨-1,by simp,by omega⟩
      have hx' : x = s * 2 ^ (e + 53) := by
        rw [hx, hm', zpow_add₀ (by norm_num)]
        push_cast
        ring
      have hlog : Int.log 2 |x| < 54 + e := by
        apply log_lt_of_abs_lt h0
        rw [habs, heq, zpow_add₀ (by norm_num)]
        exact mul_lt_mul_of_pos_right (by norm_num) (two_zpow_pos e)
      have hu : lastPlace x ≤ e + 53 := by
        unfold lastPlace
        omega
      exact round_of_multiple _ (multiple_of_le hx' hu)

theorem round_intCast {n : ℤ} (hn : |n| ≤ 2 ^ 53) : round n = n :=
  round_eq_self (e := 0) (by simp) hn (by omega)

theorem abs_div_lastPlace_lt (x : ℚ) : |x / 2 ^ lastPlace x| < 2 ^ 53 := by
  have hlog : |x| < 2 ^ (Int.log 2 |x| + 1) := by
    exact_mod_cast Int.lt_zpow_succ_log_self (b := 2) (by norm_num) |x|
  have hle : (2 : ℚ) ^ (Int.log 2 |x| + 1) ≤ 2 ^ ((53 : ℤ) + lastPlace x) := by
    apply zpow_le_zpow_right₀ (by norm_num)
    unfold lastPlace
    omega
  rw [zpow_add₀ (by norm_num) 53] at hle
  rw [abs_div, abs_of_pos (two_zpow_pos _), div_lt_iff₀ (two_zpow_pos _)]
  exact lt_of_lt_of_le hlog hle

theorem round_round (x : ℚ) : round (round x) = round x := by
  obtain ⟨hlo,hhi⟩ := abs_lt.mp (abs_div_lastPlace_lt x)
  have hlo' := roundHalfEven_mono (show ((-(2 ^ 53) : ℤ) : ℚ) ≤ _ by exact_mod_cast hlo.le)
  have hhi' := roundHalfEven_mono (show x / 2 ^ lastPlace x ≤ ((2 ^ 53 : ℤ) : ℚ) by exact_mod_cast hhi.le)
  rw [roundHalfEven_intCast] at hlo' hhi'
  have he : -1074 ≤ lastPlace x := le_max_right _ _
  exact @round_eq_self _ (roundHalfEven (x / 2 ^ lastPlace x)) (lastPlace x) rfl (abs_le.mpr ⟨hlo',hhi'⟩) he

theorem round_two_pow_mul {x : ℚ} (k : ℕ) (h : round x = x) : round (2 ^ k * x) = 2 ^ k * x := by
  obtain ⟨hlo,hhi⟩ := abs_lt.mp (abs_div_lastPlace_lt x)
  have hquot : x / 2 ^ lastPlace x = roundHalfEven (x / 2 ^ lastPlace x) :=
    (div_eq_iff (two_zpow_pos _).ne').mpr h.symm
  rw [hquot] at hlo hhi
  have hm : |roundHalfEven (x / 2 ^ lastPlace x)| ≤ 2 ^ 53 :=
    abs_le.mpr ⟨by exact_mod_cast hlo.le,by exact_mod_cast hhi.le⟩
  have he : -1074 ≤ lastPlace x := le_max_right _ _
  apply round_eq_self (e := lastPlace x + k) _ hm (by omega)
  calc 2 ^ k * x = 2 ^ k * (roundHalfEven (x / 2 ^ lastPlace x) * 2 ^ lastPlace x) := by
        rw [← hquot, div_mul_cancel₀ _ (two_zpow_pos _).ne']
    _ = roundHalfEven (x / 2 ^ lastPlace x) * 2 ^ (lastPlace x + k) := by
        rw [zpow_add₀ (by norm_num), zpow_natCast]
        ring

theorem round_nonneg {x : ℚ} (h : 0 ≤ x) : 0 ≤ round x := by
  have hdiv : ((0 : ℤ) : ℚ) ≤ x / 2 ^ lastPlace x := by
    rw [Int.cast_zero]
    exact div_nonneg h (two_zpow_pos _).le
  have := roundHalfEven_mono hdiv
  rw [roundHalfEven_intCast] at this
  exact mul_nonneg (by exact_mod_cast this) (two_zpow_pos _).le

theorem round_nonpos {x : ℚ} (h : x ≤ 0) : round x ≤ 0 := by
  have hdiv : x / 2 ^ lastPlace x ≤ ((0 : ℤ) : ℚ) := by
    rw [Int.cast_zero]
    exact div_nonpos_of_nonpos_of_nonneg h (two_zpow_pos _).le
  have := roundHalfEven_mono hdiv
  rw [roundHalfEven_intCast] at this
  exact mul_nonpos_of_nonpos_of_nonneg (by exact_mod_cast this) (two_zpow_pos _).le

theorem round_le_of_le {x y : ℚ} (hx : 0 ≤ x) (hxy : x ≤ y) (hy : round y = y) : round x ≤ y := by
  rcases hx.lt_or_eq with hpos | rfl
  · have hlog : Int.log 2 |x| ≤ Int.log 2 |y| := by
      rw [abs_of_pos hpos, abs_of_pos (hpos.trans_le hxy)]
      exact Int.log_mono_right hpos hxy
    have hu : lastPlace x ≤ lastPlace y := by
      unfold lastPlace
      omega
    have hmul := multiple_of_le hy.symm hu
    have hquot := roundHalfEven_mono ((div_le_iff₀ (two_zpow_pos (lastPlace x))).mpr (hxy.trans_eq hmul))
    rw [roundHalfEven_intCast] at hquot
    calc round x ≤ _ := mul_le_mul_of_nonneg_right (by exact_mod_cast hquot) (two_zpow_pos _).le
      _ = y := hmul.symm
  · have hzero : round 0 = 0 := round_of_multiple 0 (by simp)
    exact hzero.trans_le hxy

theorem zpow_log_le_round {y : ℚ} (hy : 0 < y) (he : -1074 ≤ Int.log 2 y) :
    (2 : ℚ) ^ Int.log 2 y ≤ round y := by
  have hlast : lastPlace y ≤ Int.log 2 y := by
    unfold lastPlace
    rw [abs_of_pos hy]
    omega
  have hmul := @multiple_of_le (2 ^ Int.log 2 y) 1 (Int.log 2 y) (lastPlace y) (by simp) hlast
  have hle : (2 : ℚ) ^ Int.log 2 y ≤ y := by
    exact_mod_cast Int.zpow_log_le_self (b := 2) (by norm_num) hy
  have hquot := roundHalfEven_mono
    ((le_div_iff₀ (two_zpow_pos (lastPlace y))).mpr (hmul.symm.trans_le hle))
  rw [roundHalfEven_intCast] at hquot
  calc (2 : ℚ) ^ Int.log 2 y = _ := hmul
    _ ≤ round y := mul_le_mul_of_nonneg_right (by exact_mod_cast hquot) (two_zpow_pos _).le

theorem le_round_of_le {x y : ℚ} (hx : 0 < x) (hxy : x ≤ y) (hexact : round x = x) : x ≤ round y := by
  have hy := hx.trans_le hxy
  have hlog : Int.log 2 x ≤ Int.log 2 y := Int.log_mono_right hx hxy
  by_cases hlast : lastPlace x = lastPlace y
  · have hmul := multiple_of_le hexact.symm hlast.ge
    have hquot := roundHalfEven_mono
      ((le_div_iff₀ (two_zpow_pos (lastPlace y))).mpr (hmul.symm.trans_le hxy))
    rw [roundHalfEven_intCast] at hquot
    calc x = _ := hmul
      _ ≤ round y := mul_le_mul_of_nonneg_right (by exact_mod_cast hquot) (two_zpow_pos _).le
  · -- a higher binade starts above `x`
    have hlt : Int.log 2 x < Int.log 2 y ∧ -1074 ≤ Int.log 2 y := by
      unfold lastPlace at hlast
      rw [abs_of_pos hx, abs_of_pos hy] at hlast
      omega
    have hup : x < 2 ^ (Int.log 2 x + 1) := by
      exact_mod_cast Int.lt_zpow_succ_log_self (b := 2) (by norm_num) x
    calc x ≤ 2 ^ (Int.log 2 x + 1) := hup.le
      _ ≤ 2 ^ Int.log 2 y := zpow_le_zpow_right₀ (by norm_num) (by omega)
      _ ≤ round y := zpow_log_le_round hy hlt.2

theorem round_zero : round 0 = 0 := round_of_multiple 0 (by simp)

theorem round_mono {x y : ℚ} (hx : 0 ≤ x) (hxy : x ≤ y) : round x ≤ round y := by
  rcases hx.lt_or_eq with hpos | rfl
  · have hy := hpos.trans_le hxy
    by_cases hlast : lastPlace x = lastPlace y
    · unfold round
      rw [hlast]
      have hquot := roundHalfEven_mono (div_le_div_of_nonneg_right hxy (two_zpow_pos (lastPlace y)).le)
      exact mul_le_mul_of_nonneg_right (by exact_mod_cast hquot) (two_zpow_pos _).le
    · -- a power of two lies between
      have hlog : Int.log 2 x ≤ Int.log 2 y := Int.log_mono_right hpos hxy
      have hlt : Int.log 2 x < Int.log 2 y ∧ -1074 ≤ Int.log 2 y := by
        unfold lastPlace at hlast
        rw [abs_of_pos hpos, abs_of_pos hy] at hlast
        omega
      have hup : x ≤ 2 ^ Int.log 2 y := by
        have h : x < 2 ^ (Int.log 2 x + 1) := by
          exact_mod_cast Int.lt_zpow_succ_log_self (b := 2) (by norm_num) x
        exact h.le.trans (zpow_le_zpow_right₀ (by norm_num) (by omega))
      have hpow : round (2 ^ Int.log 2 y) = 2 ^ Int.log 2 y :=
        @round_eq_self _ 1 (Int.log 2 y) (by simp) (by norm_num) hlt.2
      exact (round_le_of_le hx hup hpow).trans (zpow_log_le_round hy hlt.2)
  · rw [round_zero]
    exact round_nonneg hxy

end Binary64

/-- A finite double. -/
structure Binary64 where
  val : ℚ
  exact : Binary64.round val = val

namespace Binary64

def nearest (x : ℚ) : Binary64 := ⟨round x,round_round x⟩

def ofInt (n : ℤ) (hn : |n| ≤ 2 ^ 53) : Binary64 := ⟨n,round_intCast hn⟩

instance : Add Binary64 := ⟨fun a b => nearest (a.val + b.val)⟩
instance : Sub Binary64 := ⟨fun a b => nearest (a.val - b.val)⟩
instance : Mul Binary64 := ⟨fun a b => nearest (a.val * b.val)⟩
instance : Div Binary64 := ⟨fun a b => nearest (a.val / b.val)⟩

theorem add_val (a b : Binary64) : (a + b).val = round (a.val + b.val) := rfl

theorem sub_val (a b : Binary64) : (a - b).val = round (a.val - b.val) := rfl

theorem mul_val (a b : Binary64) : (a * b).val = round (a.val * b.val) := rfl

theorem div_val (a b : Binary64) : (a / b).val = round (a.val / b.val) := rfl

end Binary64
