import Whist.Fec.FecController
import Whist.Foundation.Binary64

/-! # Statistics of a sliding window -/
namespace Whist.FecController

def scaledValue (value : ℚ) : ℚ := Binary64.round (value * SlidingWindowStat.floatScale)

def addToSum (sum : ℤ) (y : ℚ) : ℤ := truncate (Binary64.round (Binary64.round sum + y))

namespace SlidingWindow

def insert (s : SlidingWindowStat) (currentTime value : ℚ) : SlidingWindowStat :=
  if Binary64.round (currentTime - s.lastSampledTime) < s.samplePeriod then s
  else { s with
    lastSampledTime := currentTime
    sum := addToSum s.sum (scaledValue value)
    orderedData := s.orderedData.orderedInsert (· ≤ ·) value
    q := s.q ++ [⟨currentTime,value⟩] }

def clear (s : SlidingWindowStat) : SlidingWindowStat := { s with sum := 0, q := [], orderedData := [] }

def popFront (s : SlidingWindowStat) : SlidingWindowStat :=
  match s.q with
  | [] => s
  | front :: rest => { s with
      orderedData := s.orderedData.erase front.value
      sum := addToSum s.sum (-scaledValue front.value)
      q := rest }

def init (windowSize samplePeriod : ℚ) : SlidingWindowStat := { windowSize, samplePeriod }

def outdated (s : SlidingWindowStat) (currentTime : ℚ) : List Data :=
  s.q.takeWhile fun d => d.time < Binary64.round (currentTime - s.windowSize)

def slideWindow (s : SlidingWindowStat) (currentTime : ℚ) : SlidingWindowStat :=
  (outdated s currentTime).foldl (fun s _ => popFront s) s

inductive Op where
  | insert (currentTime value : ℚ)
  | slideWindow (currentTime : ℚ)
  | clear
deriving DecidableEq

def step (s : SlidingWindowStat) : Op → SlidingWindowStat
  | .insert currentTime value => insert s currentTime value
  | .slideWindow currentTime => slideWindow s currentTime
  | .clear => clear s

/-- The value with at most `k` larger ones, of which there are more than `k` with the equal ones. -/
structure OrderStatistic (values : List ℚ) (k : ℕ) (value : ℚ) : Prop where
  mem : value ∈ values
  larger : values.countP (value < ·) ≤ k
  notSmaller : k < values.countP (value ≤ ·)

def backwardSteps (s : SlidingWindowStat) (i : ℤ) : ℕ :=
  min (truncate (s.size * (100 - i) / 100)).toNat (s.size - 1)

def contribution (d : Data) : ℤ := truncate (scaledValue d.value)

structure Consistent (s : SlidingWindowStat) : Prop where
  perm : s.orderedData.Perm (s.q.map Data.value)
  times : s.q.Pairwise fun d e => d.time ≤ e.time
  max : s.q ≠ [] → ∃ value, s.getMax = .ok value ∧ OrderStatistic (s.q.map Data.value) 0 value
  percentage : s.q ≠ [] → ∀ i, i ≥ 1 ∧ i ≤ 100 →
    ∃ value, s.getIPercentageMax i = .ok value ∧ OrderStatistic (s.q.map Data.value) (backwardSteps s i) value
  sum : s.sum = (s.q.map contribution).sum

def Inwards (sum : ℤ) (y : ℚ) : Prop := Int.fract y ≠ 0 ∧ (sum + truncate y) * y < 0

instance (sum : ℤ) (y : ℚ) : Decidable (Inwards sum y) := inferInstanceAs (Decidable (_ ∧ _))

/-- The rounding keeps the integer part of the exact sum, or completes it where the fraction moves the
sum towards zero. -/
def Lossless (sum : ℤ) (y : ℚ) : Prop :=
  ⌊|Binary64.round (sum + y)|⌋ = ⌊|sum + y|⌋ + if Inwards sum y then 1 else 0

instance (sum : ℤ) (y : ℚ) : Decidable (Lossless sum y) := inferInstanceAs (Decidable (_ = _))

theorem truncate_of_nonneg {x : ℚ} (h : 0 ≤ x) : truncate x = ⌊x⌋ := by
  unfold truncate
  rw [if_pos h]

theorem truncate_of_nonpos {x : ℚ} (h : x ≤ 0) : truncate x = ⌈x⌉ := by
  unfold truncate
  split_ifs with h0
  · rw [le_antisymm h h0, Int.floor_zero, Int.ceil_zero]
  · rfl

theorem ceil_of_fract {x : ℚ} (h : Int.fract x ≠ 0) : ⌈x⌉ = ⌊x⌋ + 1 :=
  (Int.ceil_eq_floor_add_one_iff_notMem x).mpr fun hmem => h (Int.fract_eq_zero_iff.mpr hmem)

theorem ceil_of_whole {x : ℚ} (h : Int.fract x = 0) : ⌈x⌉ = ⌊x⌋ := by
  obtain ⟨n,rfl⟩ := Int.fract_eq_zero_iff.mp h
  rw [Int.ceil_intCast, Int.floor_intCast]

theorem truncate_iff_of_nonneg {sum : ℤ} {y w : ℚ} (hy : 0 ≤ y) (hpos : 0 ≤ sum + y → 0 ≤ w)
    (hneg : sum + y ≤ 0 → w ≤ 0) :
    truncate w = sum + truncate y ↔ ⌊|w|⌋ = ⌊|sum + y|⌋ + if Inwards sum y then 1 else 0 := by
  have hfloor : ⌊sum + y⌋ = sum + ⌊y⌋ := Int.floor_intCast_add sum y
  have hfract : Int.fract (sum + y) = Int.fract y := Int.fract_intCast_add sum y
  have hin : Inwards sum y ↔ Int.fract y ≠ 0 ∧ ((sum + ⌊y⌋ : ℤ) : ℚ) * y < 0 := by
    unfold Inwards
    rw [truncate_of_nonneg hy, Int.cast_add]
  rw [truncate_of_nonneg hy]
  rcases le_or_gt 0 (sum + ⌊y⌋) with hm | hm
  · have hz : 0 ≤ sum + y := Int.floor_nonneg.mp (hfloor ▸ hm)
    have hout : ¬Inwards sum y := fun h => (mul_nonneg (Int.cast_nonneg hm) hy).not_gt (hin.mp h).2
    rw [if_neg hout, truncate_of_nonneg (hpos hz), abs_of_nonneg (hpos hz), abs_of_nonneg hz, hfloor, add_zero]
  · have hz : sum + y < 0 := by
      rw [← hfloor] at hm
      exact_mod_cast Int.floor_lt.mp hm
    rw [truncate_of_nonpos (hneg hz.le), abs_of_nonpos (hneg hz.le), abs_of_neg hz, Int.floor_neg, Int.floor_neg]
    by_cases hwhole : Int.fract y = 0
    · rw [if_neg fun h => (hin.mp h).1 hwhole, ceil_of_whole (hfract.trans hwhole), hfloor]
      omega
    · have hy' : 0 < y := hy.lt_of_ne (fun h0 => hwhole (by rw [← h0, Int.fract_zero]))
      have hprod := mul_neg_of_neg_of_pos (Int.cast_lt_zero (R := ℚ).mpr hm) hy'
      rw [if_pos (hin.mpr ⟨hwhole,hprod⟩), ceil_of_fract (hfract.trans_ne hwhole), hfloor]
      omega

theorem truncate_iff_of_nonpos {sum : ℤ} {y w : ℚ} (hy : y ≤ 0) (hpos : 0 ≤ sum + y → 0 ≤ w)
    (hneg : sum + y ≤ 0 → w ≤ 0) :
    truncate w = sum + truncate y ↔ ⌊|w|⌋ = ⌊|sum + y|⌋ + if Inwards sum y then 1 else 0 := by
  have hceil : ⌈sum + y⌉ = sum + ⌈y⌉ := Int.ceil_intCast_add sum y
  have hfract : Int.fract (sum + y) = Int.fract y := Int.fract_intCast_add sum y
  have hin : Inwards sum y ↔ Int.fract y ≠ 0 ∧ ((sum + ⌈y⌉ : ℤ) : ℚ) * y < 0 := by
    unfold Inwards
    rw [truncate_of_nonpos hy, Int.cast_add]
  rw [truncate_of_nonpos hy]
  rcases le_or_gt (sum + ⌈y⌉) 0 with hm | hm
  · have hz : sum + y ≤ 0 := by
      rw [← hceil] at hm
      exact_mod_cast Int.ceil_le.mp hm
    have hout : ¬Inwards sum y := fun h =>
      (mul_nonneg_of_nonpos_of_nonpos (Int.cast_nonpos.mpr hm) hy).not_gt (hin.mp h).2
    rw [if_neg hout, truncate_of_nonpos (hneg hz), abs_of_nonpos (hneg hz), abs_of_nonpos hz, Int.floor_neg,
      Int.floor_neg, hceil, add_zero, neg_inj]
  · have hz : 0 < sum + y := by
      rw [← hceil] at hm
      exact_mod_cast Int.lt_ceil.mp hm
    rw [truncate_of_nonneg (hpos hz.le), abs_of_nonneg (hpos hz.le), abs_of_pos hz]
    by_cases hwhole : Int.fract y = 0
    · rw [if_neg fun h => (hin.mp h).1 hwhole, ← hceil, ceil_of_whole (hfract.trans hwhole), add_zero]
    · have hy' : y < 0 := hy.lt_of_ne (fun h0 => hwhole (by rw [h0, Int.fract_zero]))
      have hprod := mul_neg_of_pos_of_neg (Int.cast_pos (R := ℚ).mpr hm) hy'
      rw [if_pos (hin.mpr ⟨hwhole,hprod⟩), ← hceil, ceil_of_fract (hfract.trans_ne hwhole)]

theorem truncate_round_iff (sum : ℤ) (y : ℚ) :
    truncate (Binary64.round (sum + y)) = sum + truncate y ↔ Lossless sum y := by
  unfold Lossless
  rcases le_total 0 y with hy | hy
  · exact truncate_iff_of_nonneg hy Binary64.round_nonneg Binary64.round_nonpos
  · exact truncate_iff_of_nonpos hy Binary64.round_nonneg Binary64.round_nonpos

theorem truncate_neg (x : ℚ) : truncate (-x) = -truncate x := by
  rcases le_total 0 x with h | h
  · rw [truncate_of_nonneg h, truncate_of_nonpos (neg_nonpos.mpr h), Int.ceil_neg]
  · rw [truncate_of_nonpos h, truncate_of_nonneg (neg_nonneg.mpr h), Int.floor_neg]

theorem truncate_intCast (n : ℤ) : truncate n = n := by
  unfold truncate
  rw [Int.floor_intCast, Int.ceil_intCast, ite_self]

theorem abs_truncate_le (x : ℚ) : |(truncate x : ℚ)| ≤ |x| := by
  rcases le_total 0 x with h | h
  · rw [truncate_of_nonneg h, abs_of_nonneg h, abs_of_nonneg (Int.cast_nonneg (Int.floor_nonneg.mpr h))]
    exact Int.floor_le x
  · have hceil : (⌈x⌉ : ℚ) ≤ 0 := by exact_mod_cast Int.ceil_le.mpr (by exact_mod_cast h)
    rw [truncate_of_nonpos h, abs_of_nonpos h, abs_of_nonpos hceil]
    exact neg_le_neg (Int.le_ceil x)

theorem round_truncate {x : ℚ} (h : Binary64.round x = x) : Binary64.round (truncate x) = truncate x := by
  rcases le_or_gt |x| (2 ^ 53) with hx | hx
  · apply Binary64.round_intCast
    exact_mod_cast (abs_truncate_le x).trans hx
  · have hlog : 53 ≤ Int.log 2 |x| := by
      apply (Int.zpow_le_iff_le_log (by norm_num) (by linarith [abs_nonneg x])).mp
      exact_mod_cast hx.le
    have hplace : 0 ≤ Binary64.lastPlace x := by
      unfold Binary64.lastPlace
      omega
    have hwhole := Binary64.multiple_of_le h.symm hplace
    rw [zpow_zero, mul_one] at hwhole
    rw [hwhole, truncate_intCast, ← hwhole]
    exact h

variable {s : SlidingWindowStat}

theorem addToSum_eq_iff {sum : ℤ} (hsum : Binary64.round sum = sum) (y : ℚ) :
    addToSum sum y = sum + truncate y ↔ Lossless sum y := by
  unfold addToSum
  rw [hsum]
  exact truncate_round_iff sum y

theorem round_addToSum (sum : ℤ) (y : ℚ) : Binary64.round (addToSum sum y) = addToSum sum y :=
  round_truncate (Binary64.round_round _)

def PopLossless (s : SlidingWindowStat) : Prop := ∀ front ∈ s.q.head?, Lossless s.sum (-scaledValue front.value)

instance : Decidable (PopLossless s) := inferInstanceAs (Decidable (∀ front ∈ s.q.head?, _))

def StepLossless (s : SlidingWindowStat) : Op → Prop
  | .insert currentTime value =>
    ¬Binary64.round (currentTime - s.lastSampledTime) < s.samplePeriod → Lossless s.sum (scaledValue value)
  | .slideWindow currentTime =>
    Run.Each (fun s _ => popFront s) (fun s _ => PopLossless s) s (outdated s currentTime)
  | .clear => True

instance : ∀ op, Decidable (StepLossless s op)
  | .insert _ _ => inferInstanceAs (Decidable (_ → _))
  | .slideWindow _ => inferInstanceAs (Decidable (Run.Each _ _ _ _))
  | .clear => inferInstanceAs (Decidable True)

structure Ordered (s : SlidingWindowStat) : Prop where
  samplePeriod : 0 < s.samplePeriod
  perm : s.orderedData.Perm (s.q.map Data.value)
  sorted : s.orderedData.Pairwise (· ≤ ·)
  times : s.q.Pairwise fun d e => d.time ≤ e.time
  sampled : ∀ d ∈ s.q, d.time ≤ s.lastSampledTime
  double : Binary64.round s.sum = s.sum

theorem Ordered.init {windowSize samplePeriod : ℚ} (h : 0 < samplePeriod) : Ordered (init windowSize samplePeriod) where
  samplePeriod := h
  perm := List.Perm.refl []
  sorted := List.Pairwise.nil
  times := List.Pairwise.nil
  sampled := List.forall_mem_nil _
  double := Binary64.round_zero

theorem lastSampledTime_le {currentTime : ℚ} (hperiod : 0 < s.samplePeriod)
    (h : ¬Binary64.round (currentTime - s.lastSampledTime) < s.samplePeriod) : s.lastSampledTime ≤ currentTime := by
  by_contra hlt
  have hnonpos : currentTime - s.lastSampledTime ≤ 0 := by linarith
  have := Binary64.round_nonpos hnonpos
  linarith

theorem Ordered.insert (h : Ordered s) (currentTime value : ℚ) : Ordered (insert s currentTime value) := by
  unfold SlidingWindow.insert
  split_ifs with hskip
  · exact h
  · have hlater := lastSampledTime_le h.samplePeriod hskip
    constructor
    · exact h.samplePeriod
    · dsimp only
      rw [List.map_append]
      apply (List.perm_orderedInsert _ value s.orderedData).trans
      exact (h.perm.cons value).trans (List.perm_append_singleton value _).symm
    · exact h.sorted.orderedInsert value _
    · apply List.pairwise_append.mpr
      refine ⟨h.times,List.pairwise_singleton _ _,fun d hd e he => ?_⟩
      rw [List.mem_singleton.mp he]
      exact (h.sampled d hd).trans hlater
    · intro d hd
      rcases List.mem_append.mp hd with hd | hd
      · exact (h.sampled d hd).trans hlater
      · rw [List.mem_singleton.mp hd]
    · exact round_addToSum _ _

theorem Ordered.popFront (h : Ordered s) : Ordered (popFront s) := by
  unfold SlidingWindow.popFront
  cases hq : s.q with
  | nil => exact h
  | cons front rest =>
    have hperm := h.perm
    have htimes := h.times
    have hsampled := h.sampled
    rw [hq] at hperm htimes hsampled
    constructor
    · exact h.samplePeriod
    · have herase := hperm.erase front.value
      rw [List.map_cons, List.erase_cons_head] at herase
      exact herase
    · exact h.sorted.sublist List.erase_sublist
    · exact (List.pairwise_cons.mp htimes).2
    · exact fun d hd => hsampled d (List.mem_cons_of_mem _ hd)
    · exact round_addToSum _ _

theorem Ordered.pops (h : Ordered s) (old : List Data) :
    Ordered (old.foldl (fun s _ => SlidingWindow.popFront s) s) := by
  induction old generalizing s with
  | nil => exact h
  | cons d old ih => exact ih h.popFront

theorem Ordered.step (h : Ordered s) (op : Op) : Ordered (step s op) := by
  cases op with
  | insert currentTime value => exact h.insert currentTime value
  | slideWindow currentTime => exact h.pops _
  | clear =>
    exact ⟨h.samplePeriod,List.Perm.refl [],List.Pairwise.nil,List.Pairwise.nil,List.forall_mem_nil _,
      Binary64.round_zero⟩

def SumExact (s : SlidingWindowStat) : Prop := s.sum = (s.q.map contribution).sum

theorem SumExact.insert (ho : Ordered s) (h : SumExact s) {currentTime value : ℚ}
    (hfit : StepLossless s (.insert currentTime value)) : SumExact (insert s currentTime value) := by
  unfold SumExact SlidingWindow.insert
  split_ifs with hskip
  · exact h
  · dsimp only
    rw [(addToSum_eq_iff ho.double _).mpr (hfit hskip), List.map_append, List.sum_append, ← h]
    rw [List.map_singleton, List.sum_singleton]
    rfl

theorem SumExact.popFront (ho : Ordered s) (h : SumExact s) (hfit : PopLossless s) : SumExact (popFront s) := by
  unfold SumExact at h ⊢
  unfold SlidingWindow.popFront
  unfold PopLossless at hfit
  cases hq : s.q with
  | nil =>
    rw [hq] at h
    dsimp only
    rw [hq]
    exact h
  | cons front rest =>
    rw [hq] at h hfit
    dsimp only
    rw [(addToSum_eq_iff ho.double _).mpr (hfit front rfl), truncate_neg, h, List.map_cons, List.sum_cons]
    unfold contribution
    ring

theorem SumExact.pops (ho : Ordered s) (h : SumExact s) {old : List Data}
    (hfit : Run.Each (fun s _ => SlidingWindow.popFront s) (fun s _ => PopLossless s) s old) :
    SumExact (old.foldl (fun s _ => SlidingWindow.popFront s) s) := by
  induction old generalizing s with
  | nil => exact h
  | cons d old ih => exact ih ho.popFront (h.popFront ho hfit.1) hfit.2

theorem SumExact.step (ho : Ordered s) (h : SumExact s) {op : Op} (hfit : StepLossless s op) :
    SumExact (step s op) := by
  cases op with
  | insert currentTime value => exact h.insert ho hfit
  | slideWindow currentTime => exact h.pops ho hfit
  | clear => rfl

theorem orderStatistic_of_split {front rest values : List ℚ} {value : ℚ}
    (hperm : (front ++ value :: rest).Perm values) (hsorted : (front ++ value :: rest).Pairwise (· ≥ ·)) :
    OrderStatistic values front.length value := by
  obtain ⟨-,hrest,hbefore⟩ := List.pairwise_append.mp hsorted
  have hafter := (List.pairwise_cons.mp hrest).1
  constructor
  · exact hperm.mem_iff.mp (List.mem_append_right _ List.mem_cons_self)
  · have hnone : (value :: rest).countP (value < ·) = 0 := by
      apply List.countP_eq_zero.mpr
      intro v hv
      rcases List.mem_cons.mp hv with rfl | hv
      · simp
      · simpa using hafter v hv
    rw [← hperm.countP_eq, List.countP_append, hnone, add_zero]
    exact List.countP_le_length
  · have hall : front.countP (value ≤ ·) = front.length := by
      apply List.countP_eq_length.mpr
      intro v hv
      simpa using hbefore v hv value List.mem_cons_self
    rw [← hperm.countP_eq, List.countP_append, hall, List.countP_cons_of_pos (by simp)]
    omega

theorem orderStatistic_of_getElem {l values : List ℚ} (hperm : l.Perm values) (hsorted : l.Pairwise (· ≥ ·))
    {k : ℕ} {value : ℚ} (hk : l[k]? = some value) : OrderStatistic values k value := by
  obtain ⟨hlt,rfl⟩ := List.getElem?_eq_some_iff.mp hk
  have hsplit : l.take k ++ l[k] :: l.drop (k + 1) = l := by
    rw [← List.drop_eq_getElem_cons hlt, List.take_append_drop]
  have hstat := orderStatistic_of_split (hsplit ▸ hperm) (hsplit.symm ▸ hsorted)
  rwa [List.length_take_of_le hlt.le] at hstat

theorem Ordered.descending (h : Ordered s) :
    s.orderedData.reverse.Perm (s.q.map Data.value) ∧ s.orderedData.reverse.Pairwise (· ≥ ·) :=
  ⟨(List.reverse_perm _).trans h.perm,List.pairwise_reverse.mpr h.sorted⟩

theorem Ordered.length (h : Ordered s) : s.orderedData.reverse.length = s.size := by
  rw [List.length_reverse, h.perm.length_eq, List.length_map]
  rfl

theorem Ordered.getMax (h : Ordered s) (hne : s.q ≠ []) :
    ∃ value, s.getMax = .ok value ∧ OrderStatistic (s.q.map Data.value) 0 value := by
  have hlt : 0 < s.orderedData.reverse.length := h.length ▸ List.length_pos_iff.mpr hne
  have hget := List.getElem?_eq_getElem hlt
  refine ⟨s.orderedData.reverse[0],?_,orderStatistic_of_getElem h.descending.1 h.descending.2 hget⟩
  unfold SlidingWindowStat.getMax
  rw [← List.head?_reverse, List.head?_eq_getElem?, hget]

theorem Ordered.getIPercentageMax (h : Ordered s) (hne : s.q ≠ []) {i : ℤ} (hi : i ≥ 1 ∧ i ≤ 100) :
    ∃ value, s.getIPercentageMax i = .ok value ∧
      OrderStatistic (s.q.map Data.value) (backwardSteps s i) value := by
  have hsize : 0 < s.size := List.length_pos_iff.mpr hne
  have hlt : backwardSteps s i < s.orderedData.reverse.length := by
    rw [h.length]
    unfold backwardSteps
    omega
  have hget := List.getElem?_eq_getElem hlt
  refine ⟨s.orderedData.reverse[backwardSteps s i],?_,orderStatistic_of_getElem h.descending.1 h.descending.2 hget⟩
  unfold SlidingWindowStat.getIPercentageMax
  rw [if_neg (not_not.mpr hi)]
  unfold backwardSteps at hget ⊢
  dsimp only
  rw [hget]

theorem window_ordered {windowSize samplePeriod : ℚ} (hperiod : 0 < samplePeriod) (ops : List Op) :
    Ordered (ops.foldl step (init windowSize samplePeriod)) :=
  List.foldlRecOn ops step (Ordered.init hperiod) (fun _ h op _ => h.step op)

/-- A latency of a hundred and twenty-eighth of a millisecond is seven thousand eight hundred and
twelve and a half units. -/
def halfUnits : List Op := [.insert 2 (1 / 128), .insert 4 (1 / 128), .slideWindow 48]

end SlidingWindow

end Whist.FecController
