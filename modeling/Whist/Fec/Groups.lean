import Whist.Fec.RsWrapper

/-! # Encoding and decoding one partition -/
namespace Whist.Fec

theorem intPartitionHelper_eq_share (total g groups : ℕ) :
    intPartitionHelper total g groups = if g ≥ total then 0 else RoundRobin.share total groups g := rfl

theorem intPartitionHelper_eq {total g groups : ℕ} (h : 0 < groups) :
    intPartitionHelper total g groups = RoundRobin.share total groups g := by
  rw [intPartitionHelper_eq_share]
  split_ifs with hg
  · have := @RoundRobin.share_pos_iff total groups g h
    omega
  · rfl

structure Dealt (rs : RSWrapper) : Prop where
  groups : 0 < rs.numGroups
  real : ∀ g, (rs.groupInfos g).numRealBuffers = RoundRobin.share rs.numRealBuffers rs.numGroups g
  fec : ∀ g, (rs.groupInfos g).numFecBuffers = RoundRobin.share rs.numFecBuffers rs.numGroups g
  groupsLe : rs.numGroups ≤ rs.numRealBuffers

structure Planned (rs : RSWrapper) : Prop where
  groups : 0 < rs.numGroups
  real : ∀ g, (rs.groupInfos g).numRealBuffers = RoundRobin.share rs.numRealBuffers rs.numGroups g
  fec : ∀ g, (rs.groupInfos g).numFecBuffers = RoundRobin.share rs.numFecBuffers rs.numGroups g
  groupsLe : rs.numGroups ≤ rs.numRealBuffers
  size : ∀ g < rs.numGroups, (rs.groupInfos g).numRealBuffers = 1 ∨
    (rs.groupInfos g).numRealBuffers < rsFieldSize ∧
      (rs.groupInfos g).numRealBuffers + (rs.groupInfos g).numFecBuffers ≤ rsFieldSize

theorem Planned.dealt {rs : RSWrapper} (hp : Planned rs) : Dealt rs :=
  ⟨hp.groups,hp.real,hp.fec,hp.groupsLe⟩

theorem chooseNumGroupsWithin_spec (limits : Limits) {n : ℕ} (m : ℕ) (hn : 0 < n) :
    0 < chooseNumGroupsWithin limits n m ∧ chooseNumGroupsWithin limits n m ≤ n ∧
      ∀ g < chooseNumGroupsWithin limits n m,
        RoundRobin.share n (chooseNumGroupsWithin limits n m) g = 1 ∨
        RoundRobin.share n (chooseNumGroupsWithin limits n m) g +
          RoundRobin.share m (chooseNumGroupsWithin limits n m) 0 ≤ limits.maxGroupSize := by
  rw [chooseNumGroupsWithin]
  cases hfind : (List.range' 1 (n - 1)).find? _ with
  | none =>
    refine ⟨hn,le_rfl,fun g hg => Or.inl ?_⟩
    have hpos := (@RoundRobin.share_pos_iff n n g hn).mpr hg
    have hle := @RoundRobin.lt_share_iff n n g 1 hn
    simp only [Option.getD_none] at hpos hle ⊢
    omega
  | some i =>
    have hmem := List.mem_range'_1.mp (List.mem_of_find?_eq_some hfind)
    have hfound := List.find?_some hfind
    obtain ⟨hcond,-⟩ := of_decide_eq_true hfound
    rw [Option.getD_some]
    refine ⟨by omega,by omega,fun g hg => Or.inr ?_⟩
    exact (Nat.add_le_add_right RoundRobin.share_le_first _).trans hcond

theorem rsWrapperCreateWithin_spec (limits : Limits) {n : ℕ} (m : ℕ) (hn : 0 < n) :
    ∃ rs, rsWrapperCreateWithin limits n m = .ok rs ∧ Dealt rs ∧ rs.numRealBuffers = n ∧
      rs.numFecBuffers = m ∧ rs.numGroups = chooseNumGroupsWithin limits n m ∧
      rs.numPendingGroups = rs.numGroups ∧ (∀ g, (rs.groupInfos g).numBuffersRegistered = 0) ∧
      ∀ g < rs.numGroups, (rs.groupInfos g).numRealBuffers = 1 ∨
        (rs.groupInfos g).numRealBuffers + (rs.groupInfos 0).numFecBuffers ≤ limits.maxGroupSize := by
  obtain ⟨hpos,hle,hsize⟩ := chooseNumGroupsWithin_spec limits m hn
  rw [rsWrapperCreateWithin, if_neg (not_not.mpr hn), rsWrapperCreateInner, if_neg (not_not.mpr hn),
    if_neg (not_not.mpr hle)]
  refine ⟨_,rfl,⟨hpos,fun g => intPartitionHelper_eq hpos,fun g => intPartitionHelper_eq hpos,hle⟩,
    rfl,rfl,rfl,rfl,fun _ => rfl,fun g hg => ?_⟩
  simp only [intPartitionHelper_eq hpos]
  exact hsize g hg

theorem rsWrapperCreate_spec {n m : ℕ} (hn : 0 < n) (hm : 0 < m) :
    ∃ rs, rsWrapperCreate n m = .ok rs ∧ Planned rs ∧ rs.numRealBuffers = n ∧
      rs.numFecBuffers = m ∧ rs.numGroups = chooseNumGroups n m ∧
      rs.numPendingGroups = rs.numGroups ∧ ∀ g, (rs.groupInfos g).numBuffersRegistered = 0 := by
  obtain ⟨rs,hrs,hd,hreal,hfec,hgroups,hpending,hzero,hsize⟩ :=
    rsWrapperCreateWithin_spec Limits.initial m hn
  refine ⟨rs,hrs,⟨hd.groups,hd.real,hd.fec,hd.groupsLe,fun g hg => (hsize g hg).imp_right ?_⟩,
    hreal,hfec,hgroups,hpending,hzero⟩
  intro hle
  -- the first group has a redundant buffer
  have hpos := (@RoundRobin.share_pos_iff rs.numFecBuffers rs.numGroups 0 hd.groups).mpr (hfec ▸ hm)
  have hfirst := @RoundRobin.share_le_first rs.numFecBuffers rs.numGroups g
  rw [← hd.fec] at hpos hfirst
  rw [← hd.fec] at hfirst
  simp only [Limits.initial, rsWrapperMaxGroupSize] at hle
  rw [rsFieldSize]
  omega

def groupOf (rs : RSWrapper) (i : ℕ) : ℕ :=
  if i < rs.numRealBuffers then i % rs.numGroups else (i - rs.numRealBuffers) % rs.numGroups

def subOf (rs : RSWrapper) (i : ℕ) : ℕ :=
  if i < rs.numRealBuffers then i / rs.numGroups
  else (rs.groupInfos (groupOf rs i)).numRealBuffers + (i - rs.numRealBuffers) / rs.numGroups

theorem indexFullToSub_eq {rs : RSWrapper} {i : ℕ} (h : i < rs.numRealBuffers + rs.numFecBuffers) :
    indexFullToSub rs i = .ok ⟨groupOf rs i,subOf rs i⟩ := by
  rw [indexFullToSub, if_neg (not_not.mpr h), subOf, groupOf]
  split_ifs <;> rfl

section Plan
variable {rs : RSWrapper} (hp : Dealt rs)
include hp

theorem Dealt.groupOf_lt (i : ℕ) : groupOf rs i < rs.numGroups := by
  rw [groupOf]
  split_ifs <;> exact Nat.mod_lt _ hp.groups

theorem Dealt.subOf_lt {i : ℕ} (h : i < rs.numRealBuffers + rs.numFecBuffers) :
    subOf rs i < (rs.groupInfos (groupOf rs i)).numRealBuffers +
      (rs.groupInfos (groupOf rs i)).numFecBuffers := by
  rw [subOf, hp.real, hp.fec, groupOf]
  split_ifs with hi
  · have := RoundRobin.pos_lt_share hp.groups hi
    omega
  · have := @RoundRobin.pos_lt_share rs.numFecBuffers rs.numGroups (i - rs.numRealBuffers) hp.groups
      (by omega)
    omega

theorem Dealt.subOf_lt_real_iff {i : ℕ} :
    subOf rs i < (rs.groupInfos (groupOf rs i)).numRealBuffers ↔ i < rs.numRealBuffers := by
  rw [subOf]
  split_ifs with hi
  · rw [hp.real, groupOf, if_pos hi]
    exact ⟨fun _ => hi,fun _ => RoundRobin.pos_lt_share hp.groups hi⟩
  · exact ⟨fun h => absurd h (Nat.not_lt.mpr (Nat.le_add_right _ _)),fun h => absurd h hi⟩

theorem Dealt.real_pos {g : ℕ} (hg : g < rs.numGroups) : 0 < (rs.groupInfos g).numRealBuffers := by
  rw [hp.real, RoundRobin.share_pos_iff hp.groups]
  exact lt_of_lt_of_le hg hp.groupsLe

theorem Dealt.indexSubToFull_real {g j : ℕ} (hj : j < (rs.groupInfos g).numRealBuffers) :
    indexSubToFull rs g j = g + j * rs.numGroups ∧ g + j * rs.numGroups < rs.numRealBuffers := by
  refine ⟨if_pos hj,?_⟩
  rw [hp.real] at hj
  exact (RoundRobin.lt_share_iff hp.groups).mp hj

omit hp in
theorem indexSubToFull_fec (g j : ℕ) :
    indexSubToFull rs g ((rs.groupInfos g).numRealBuffers + j) - rs.numRealBuffers =
      g + j * rs.numGroups := by
  rw [indexSubToFull, if_neg (by omega), Nat.add_sub_cancel_left]
  omega

theorem Dealt.indexSubToFull_subOf (i : ℕ) : indexSubToFull rs (groupOf rs i) (subOf rs i) = i := by
  have hlt := @Dealt.subOf_lt_real_iff rs hp i
  rw [indexSubToFull]
  split_ifs with h
  · have hi := hlt.mp h
    rw [subOf, groupOf, if_pos hi, if_pos hi, Nat.mod_add_div']
  · have hi : ¬i < rs.numRealBuffers := fun hi => h (hlt.mpr hi)
    rw [subOf, if_neg hi, Nat.add_sub_cancel_left, groupOf, if_neg hi, Nat.add_assoc,
      Nat.mod_add_div']
    omega

theorem Dealt.eq_of_group_sub {i j : ℕ} (hg : groupOf rs i = groupOf rs j)
    (hs : subOf rs i = subOf rs j) : i = j := by
  rw [← hp.indexSubToFull_subOf i, ← hp.indexSubToFull_subOf j, hg, hs]

theorem Dealt.group_one (hone : rs.numGroups = 1) (i : ℕ) : groupOf rs i = 0 ∧ subOf rs i = i := by
  have hgroup : groupOf rs i = 0 := by
    have := hp.groupOf_lt i
    omega
  have hk : (rs.groupInfos 0).numRealBuffers = rs.numRealBuffers := by
    rw [hp.real, hone, RoundRobin.share]
    simp
  refine ⟨hgroup,?_⟩
  rw [subOf, hgroup, hk, hone]
  split_ifs <;> simp
  omega

end Plan

/-- The symbol a group of `k` originals and `m` redundant buffers has at a position. -/
def groupSymbol (cm : Cm256) (k m sz : ℕ) (data : ℕ → Block) (j : ℕ) : Block :=
  if k = 1 then data 0 else if j < k then data j
  else cm.encodeBlock k m sz ((List.range k).map data) j

def groupData (rs : RSWrapper) (src : ℕ → Block) (g : ℕ) : ℕ → Block :=
  fun j => src (indexSubToFull rs g j)

def symbolAt (cm : Cm256) (rs : RSWrapper) (src : ℕ → Block) (sz i : ℕ) : Block :=
  groupSymbol cm (rs.groupInfos (groupOf rs i)).numRealBuffers
    (rs.groupInfos (groupOf rs i)).numFecBuffers sz (groupData rs src (groupOf rs i)) (subOf rs i)

theorem Planned.symbolAt_real {rs : RSWrapper} (hp : Planned rs) (cm : Cm256) (src : ℕ → Block)
    (sz : ℕ) {i : ℕ} (hi : i < rs.numRealBuffers) : symbolAt cm rs src sz i = src i := by
  have hsub := (hp.dealt.subOf_lt_real_iff (i := i)).mpr hi
  have hback := hp.dealt.indexSubToFull_subOf i
  rw [symbolAt, groupSymbol]
  split_ifs with h1
  · have hzero : subOf rs i = 0 := by omega
    rw [groupData, ← hzero, hback]
  · rw [groupData, hback]

theorem Planned.real_one {rs : RSWrapper} (hp : Planned rs) (hone : rs.numGroups = 1) :
    (rs.groupInfos 0).numRealBuffers = rs.numRealBuffers := by
  rw [hp.real, hone, RoundRobin.share]
  simp

theorem Planned.groupData_one {rs : RSWrapper} (hp : Planned rs) (hone : rs.numGroups = 1)
    (src : ℕ → Block) : groupData rs src 0 = src := by
  funext j
  rw [groupData, indexSubToFull, hp.real_one hone, hone]
  split_ifs
  · simp
  · congr 1
    omega

theorem rsEncodeOrDup_spec (cm : Cm256) {k m : ℕ} (src : ℕ → Block) (sz : ℕ)
    (h : k = 1 ∨ k < rsFieldSize ∧ k + m ≤ rsFieldSize) :
    ∃ dst, rsEncodeOrDup cm k (k + m) src sz = .ok dst ∧
      ∀ j, dst j = groupSymbol cm k m sz src (k + j) := by
  have hsize : k < rsFieldSize ∧ k ≤ k + m := by
    simp only [rsFieldSize] at h ⊢
    omega
  rw [rsEncodeOrDup, if_neg (not_not.mpr hsize)]
  by_cases h1 : k = 1
  · rw [if_pos h1]
    exact ⟨_,rfl,fun j => by rw [groupSymbol, if_pos h1]⟩
  · rw [if_neg h1, if_neg (not_not.mpr (h.resolve_left h1).2), Nat.add_sub_cancel_left]
    exact ⟨_,rfl,fun j => by rw [groupSymbol, if_neg h1, if_neg (by omega)]⟩

theorem rsWrapperEncode_spec {rs : RSWrapper} (hp : Planned rs) (cm : Cm256) (src dst : ℕ → Block)
    (sz : ℕ) : ∃ dst', rsWrapperEncode cm rs src dst sz = .ok dst' ∧
      ∀ i < rs.numFecBuffers, dst' i = symbolAt cm rs src sz (rs.numRealBuffers + i) := by
  have hat : ∀ i, symbolAt cm rs src sz (rs.numRealBuffers + i) =
      groupSymbol cm (rs.groupInfos (i % rs.numGroups)).numRealBuffers
        (rs.groupInfos (i % rs.numGroups)).numFecBuffers sz (groupData rs src (i % rs.numGroups))
        ((rs.groupInfos (i % rs.numGroups)).numRealBuffers + i / rs.numGroups) := by
    intro i
    have hg : groupOf rs (rs.numRealBuffers + i) = i % rs.numGroups := by
      rw [groupOf, if_neg (by omega), Nat.add_sub_cancel_left]
    rw [symbolAt, subOf, if_neg (by omega), hg, Nat.add_sub_cancel_left]
  rw [rsWrapperEncode, if_neg (not_not.mpr hp.groups)]
  split_ifs with hone
  · obtain ⟨dst',henc,hsym⟩ := rsEncodeOrDup_spec cm src sz (hp.size 0 hp.groups)
    refine ⟨dst',henc,fun i _ => ?_⟩
    rw [hat, hone, Nat.mod_one, Nat.div_one, hp.groupData_one hone, hsym]
  · have hround : ∀ g < rs.numGroups, ∀ dst : ℕ → Block,
        (∀ i < rs.numFecBuffers, i % rs.numGroups < g →
          dst i = symbolAt cm rs src sz (rs.numRealBuffers + i)) →
        ∃ dst', encodeGroup cm rs src sz dst g = .ok dst' ∧
          ∀ i < rs.numFecBuffers, i % rs.numGroups < g + 1 →
            dst' i = symbolAt cm rs src sz (rs.numRealBuffers + i) := by
      intro g hg dst hdst
      obtain ⟨dstSub,henc,hsym⟩ := rsEncodeOrDup_spec cm (groupData rs src g) sz (hp.size g hg)
      change rsEncodeOrDup cm _ _ (fun j => src (indexSubToFull rs g j)) sz = _ at henc
      refine ⟨_,by rw [encodeGroup, henc],fun i hi hig => ?_⟩
      simp only [indexSubToFull_fec]
      by_cases hgi : i % rs.numGroups = g
      · have hpos : i / rs.numGroups < (rs.groupInfos g).numFecBuffers := by
          rw [hp.fec, ← hgi]
          exact RoundRobin.pos_lt_share hp.groups hi
        have hw := @Scatter.scatter_range _ (rs.groupInfos g).numFecBuffers
          (fun j => g + j * rs.numGroups) dstSub dst (fun a _ b _ hab => by
            have := congrArg (fun x => x / rs.numGroups) hab
            simpa only [RoundRobin.pos_add_pos _ hg] using this) _ hpos
        rw [← hgi, Nat.mod_add_div', hgi] at hw
        rw [hw, hsym, hat, hgi]
      · rw [Scatter.scatter_range_of_ne (fun j _ hj => hgi (by
          rw [← hj, RoundRobin.group_add_pos j hg]))]
        exact hdst i hi (by omega)
    obtain ⟨dst',hrun,hinv⟩ := Run.run_range (n := rs.numGroups) (s := dst) (by simp) hround
    exact ⟨dst',hrun,fun i hi => hinv i hi (Nat.mod_lt _ hp.groups)⟩

/-- The code of a group restores its originals from any `k` of its symbols. -/
def MdsAt (cm : Cm256) (k m sz : ℕ) : Prop :=
  Scatter.Mds k (k + m) (fun block => block.length = sz) (groupSymbol cm k m sz)
    (fun blocks => (cm256Decode cm k m sz blocks).2)

theorem cm256Decode_ok (cm : Cm256) {k m sz : ℕ} {blocks : List (ℕ × Block)} (hk : 0 < k) (hm : 0 < m)
    (hsz : 0 < sz) (hkm : k + m ≤ 256) (hnd : (blocks.map Prod.fst).Nodup) :
    (cm256Decode cm k m sz blocks).1 = 0 := by
  rw [cm256Decode, if_neg (by omega), if_neg (by omega)]
  dsimp only
  rw [if_neg (not_not.mpr (hnd.filter _))]
  split_ifs <;> rfl

theorem mapM_eq_some {α β : Type*} {l : List α} {f : α → Option β} (g : α → β)
    (h : ∀ a ∈ l, f a = some (g a)) : l.mapM f = some (l.map g) := by
  induction l with
  | nil => rfl
  | cons a l ih =>
    rw [List.mapM_cons, h a (by simp), ih (fun b hb => h b (List.mem_cons_of_mem _ hb))]
    rfl

theorem rsDecodeOrDedup_spec {cm : Cm256} {k m sz : ℕ} {data : ℕ → Block} {pkt : ℕ → Option Block}
    {index : ℕ → ℕ} {labels : List ℕ} (hk : 0 < k) (hsz : 0 < sz)
    (hsize : k = 1 ∨ k < rsFieldSize ∧ k + m ≤ rsFieldSize)
    (hm : 1 < k → 0 < m ∧ MdsAt cm k m sz) (hdata : ∀ i < k, (data i).length = sz)
    (hlen : labels.length = k) (hnd : labels.Nodup) (hlt : ∀ q ∈ labels, q < k + m)
    (hindex : ∀ j < k, index j = labels.getD j 0)
    (hpkt : ∀ j < k, pkt j = some (groupSymbol cm k m sz data (labels.getD j 0))) :
    ∃ pkt', rsDecodeOrDedup cm k (k + m) pkt index sz = .ok pkt' ∧
      ∀ j < k, pkt' j = some (data j) := by
  have hbound : k < rsFieldSize ∧ k ≤ k + m := by
    simp only [rsFieldSize] at hsize ⊢
    omega
  rw [rsDecodeOrDedup, if_neg (not_not.mpr hbound)]
  by_cases h1 : k = 1
  · rw [if_pos h1]
    refine ⟨pkt,rfl,fun j hj => ?_⟩
    obtain rfl : j = 0 := by omega
    rw [hpkt 0 hk, groupSymbol, if_pos h1]
  · obtain ⟨hmpos,hmds⟩ := hm (by omega)
    rw [if_neg h1, if_neg (not_not.mpr (hsize.resolve_left h1).2), Nat.add_sub_cancel_left]
    have hblocks : (List.range k).mapM
        (fun i => (pkt i).map (fun block => (index i,block))) =
        some (labels.map (fun q => (q,groupSymbol cm k m sz data q))) := by
      rw [mapM_eq_some (fun i => (labels.getD i 0,groupSymbol cm k m sz data (labels.getD i 0)))
        (fun i hi => by
          rw [hpkt i (List.mem_range.mp hi), hindex i (List.mem_range.mp hi)]
          rfl)]
      congr 1
      apply List.ext_getElem (by simp [hlen])
      intro i _ hi
      rw [List.length_map] at hi
      simp [hi]
    rw [hblocks]
    dsimp only
    rw [if_pos (cm256Decode_ok cm hk hmpos hsz (hsize.resolve_left h1).2
      (by simpa [Function.comp_def] using hnd))]
    exact ⟨_,rfl,fun j hj => hmds.scatter hdata hlen hnd hlt pkt hj⟩

theorem rsDecodeOrDedup_starved (cm : Cm256) {k sz : ℕ} (pkt : ℕ → Option Block) (index : ℕ → ℕ)
    (hk : 1 < k) : ∃ e, rsDecodeOrDedup cm k (k + 0) pkt index sz = .error e := by
  rw [rsDecodeOrDedup]
  by_cases hsize : k < rsFieldSize ∧ k ≤ k + 0
  · rw [if_neg (not_not.mpr hsize), if_neg (by omega),
      if_neg (not_not.mpr (show k + 0 ≤ rsFieldSize from hsize.1.le))]
    cases (List.range k).mapM (fun i => (pkt i).map (fun block => (index i,block))) with
    | none => exact ⟨_,rfl⟩
    | some blocks =>
      have hfail : (cm256Decode cm k (k + 0 - k) sz blocks).1 = -1 := by
        rw [cm256Decode, if_pos (by omega)]
      dsimp only
      rw [hfail]
      exact ⟨_,rfl⟩
  · rw [if_pos hsize]
    exact ⟨_,rfl⟩

section Decode
variable {rs : RSWrapper} (hp : Planned rs) {index : List ℕ}

theorem getD_of_mem_zipIdx {e : ℕ × ℕ} (he : e ∈ index.zipIdx) :
    index.getD e.2 0 = e.1 ∧ e.2 < index.length := by
  obtain ⟨i,j⟩ := e
  rw [List.mk_mem_zipIdx_iff_getElem?] at he
  have hlt : j < index.length := by
    by_contra h
    rw [List.getElem?_eq_none (by omega)] at he
    cases he
  exact ⟨by simp [he],hlt⟩

theorem mem_index_of_split {pre post : List (ℕ × ℕ)} {e : ℕ × ℕ}
    (hsplit : index.zipIdx = pre ++ e :: post) : e.1 ∈ index := by
  have he : e ∈ index.zipIdx := by rw [hsplit]; simp
  have hfst := List.mem_map_of_mem (f := Prod.fst) he
  simpa using hfst

def chosen (rs : RSWrapper) (entries : List (ℕ × ℕ)) (g : ℕ) : List (ℕ × ℕ) :=
  (entries.filter (fun e => groupOf rs e.1 = g)).take (rs.groupInfos g).numRealBuffers

theorem mem_chosen {entries : List (ℕ × ℕ)} {g : ℕ} {e : ℕ × ℕ} (he : e ∈ chosen rs entries g) :
    e ∈ entries ∧ groupOf rs e.1 = g := by
  have hf := List.mem_of_mem_take he
  rw [List.mem_filter] at hf
  exact ⟨hf.1,of_decide_eq_true hf.2⟩

theorem filter_append_group (pre : List (ℕ × ℕ)) (e : ℕ × ℕ) (g : ℕ) :
    (pre ++ [e]).filter (fun e => groupOf rs e.1 = g) =
      pre.filter (fun e => groupOf rs e.1 = g) ++ if groupOf rs e.1 = g then [e] else [] := by
  rw [List.filter_append]
  by_cases hg : groupOf rs e.1 = g <;> simp [hg]

theorem chosen_append_of_ne (pre : List (ℕ × ℕ)) {e : ℕ × ℕ} {g : ℕ} (hg : groupOf rs e.1 ≠ g) :
    chosen rs (pre ++ [e]) g = chosen rs pre g := by
  rw [chosen, chosen, filter_append_group, if_neg hg, List.append_nil]

theorem chosen_append_full {pre : List (ℕ × ℕ)} {g : ℕ}
    (hfull : (chosen rs pre g).length = (rs.groupInfos g).numRealBuffers) (e : ℕ × ℕ) :
    chosen rs (pre ++ [e]) g = chosen rs pre g := by
  rw [chosen, List.length_take] at hfull
  rw [chosen, chosen, filter_append_group, List.take_append_of_le_length (by omega)]

theorem chosen_append_room {pre : List (ℕ × ℕ)} {e : ℕ × ℕ}
    (hroom : (chosen rs pre (groupOf rs e.1)).length ≠ (rs.groupInfos (groupOf rs e.1)).numRealBuffers) :
    chosen rs (pre ++ [e]) (groupOf rs e.1) = chosen rs pre (groupOf rs e.1) ++ [e] := by
  rw [chosen, List.length_take] at hroom
  rw [chosen, chosen, filter_append_group, if_pos rfl, List.take_of_length_le (by simp; omega),
    List.take_of_length_le (by omega)]

theorem sortPacket_run (hindex : ∀ i ∈ index, i < rs.numRealBuffers + rs.numFecBuffers)
    (pkt : ℕ → Option Block) :
    ∃ s, Run.run (sortPacket rs pkt) { offsets := fun _ => [], pkt := pkt } index.zipIdx = .ok s ∧
      ∀ g, s.offsets g = (chosen rs index.zipIdx g).map Prod.snd := by
  refine @Run.run_ok_of_calls _ _ _ _
    (fun pre (s : Sorting) => ∀ g, s.offsets g = (chosen rs pre g).map Prod.snd) _ _ ?_ ?_
  · intro g
    simp [chosen]
  · intro pre e post s hsplit hs
    rw [sortPacket, indexFullToSub_eq (hindex e.1 (mem_index_of_split hsplit))]
    dsimp only
    rw [hs, List.length_map]
    split_ifs with hfull
    · refine ⟨_,rfl,fun g => ?_⟩
      by_cases hg : groupOf rs e.1 = g
      · rw [hs, ← hg, chosen_append_full hfull]
      · rw [hs, chosen_append_of_ne _ hg]
    · refine ⟨_,rfl,fun g => ?_⟩
      dsimp only
      by_cases hg : groupOf rs e.1 = g
      · rw [← hg, Function.update_self, chosen_append_room hfull, List.map_append]
        rfl
      · rw [Function.update_of_ne (Ne.symm hg), hs, chosen_append_of_ne _ hg]

theorem subIndices_eq (hindex : ∀ i ∈ index, i < rs.numRealBuffers + rs.numFecBuffers) {g : ℕ}
    {entries : List (ℕ × ℕ)} (he : ∀ e ∈ entries, e ∈ index.zipIdx ∧ groupOf rs e.1 = g) :
    subIndices rs index g (entries.map Prod.snd) = .ok (entries.map (fun e => subOf rs e.1)) := by
  have key : ∀ acc, Run.run (appendSubIndex rs index g) acc (entries.map Prod.snd) =
      .ok (acc ++ entries.map (fun e => subOf rs e.1)) := by
    induction entries with
    | nil => intro acc; simp [Run.run]
    | cons e rest ih =>
      intro acc
      obtain ⟨hmem,hg⟩ := he e (by simp)
      have hget := (getD_of_mem_zipIdx hmem).1
      have hin : e.1 ∈ index := by
        have hfst := List.mem_map_of_mem (f := Prod.fst) hmem
        simpa using hfst
      have hstep : appendSubIndex rs index g acc e.2 = .ok (acc ++ [subOf rs e.1]) := by
        rw [appendSubIndex, hget, indexFullToSub_eq (hindex e.1 hin)]
        exact if_pos hg
      rw [List.map_cons, Run.run_cons _ hstep, ih (fun e' he' => he e' (List.mem_cons_of_mem _ he'))]
      simp
  exact key []

theorem Dealt.labels_nodup (hd : Dealt rs) {g : ℕ} {entries : List (ℕ × ℕ)}
    (he : ∀ e ∈ entries, e ∈ index.zipIdx ∧ groupOf rs e.1 = g) (hnd : (entries.map Prod.fst).Nodup) :
    (entries.map (fun e => subOf rs e.1)).Nodup := by
  have hmap : entries.map (fun e => subOf rs e.1) = (entries.map Prod.fst).map (subOf rs) := by simp
  rw [hmap]
  refine hnd.map_on (fun a ha b hb hab => ?_)
  obtain ⟨ea,hea,rfl⟩ := List.mem_map.mp ha
  obtain ⟨eb,heb,rfl⟩ := List.mem_map.mp hb
  exact hd.eq_of_group_sub ((he ea hea).2.trans (he eb heb).2.symm) hab

theorem Dealt.labels_lt (hd : Dealt rs)
    (hindex : ∀ i ∈ index, i < rs.numRealBuffers + rs.numFecBuffers) {g : ℕ} {entries : List (ℕ × ℕ)}
    (he : ∀ e ∈ entries, e ∈ index.zipIdx ∧ groupOf rs e.1 = g) :
    ∀ q ∈ entries.map (fun e => subOf rs e.1),
      q < (rs.groupInfos g).numRealBuffers + (rs.groupInfos g).numFecBuffers := by
  intro q hq
  obtain ⟨e,hmem,rfl⟩ := List.mem_map.mp hq
  have hfst := List.mem_map_of_mem (f := Prod.fst) (he e hmem).1
  have := hd.subOf_lt (hindex e.1 (by simpa using hfst))
  rwa [(he e hmem).2] at this

variable {cm : Cm256} {src : ℕ → Block} {sz : ℕ} {pkt : ℕ → Option Block}

/-- A received array: distinct indices in range, each with its symbol. -/
structure Received (cm : Cm256) (rs : RSWrapper) (src : ℕ → Block) (sz : ℕ) (index : List ℕ)
    (pkt : ℕ → Option Block) : Prop where
  range : ∀ i ∈ index, i < rs.numRealBuffers + rs.numFecBuffers
  nodup : index.Nodup
  packets : ∀ j < index.length, pkt j = some (symbolAt cm rs src sz (index.getD j 0))

structure Decodable (cm : Cm256) (rs : RSWrapper) (src : ℕ → Block) (sz : ℕ) : Prop where
  size : 0 < sz
  length : ∀ i < rs.numRealBuffers, (src i).length = sz
  code : ∀ g < rs.numGroups, 1 < (rs.groupInfos g).numRealBuffers →
    0 < (rs.groupInfos g).numFecBuffers ∧
      MdsAt cm (rs.groupInfos g).numRealBuffers (rs.groupInfos g).numFecBuffers sz

include hp in
theorem decodeEntries_spec (hd : Decodable cm rs src sz) (hr : Received cm rs src sz index pkt) {g : ℕ}
    (hg : g < rs.numGroups) {entries : List (ℕ × ℕ)}
    (hlen : entries.length = (rs.groupInfos g).numRealBuffers)
    (he : ∀ e ∈ entries, e ∈ index.zipIdx ∧ groupOf rs e.1 = g)
    (hnd : (entries.map Prod.fst).Nodup) :
    ∃ pkt', rsDecodeOrDedup cm (rs.groupInfos g).numRealBuffers
        ((rs.groupInfos g).numRealBuffers + (rs.groupInfos g).numFecBuffers)
        (fun j => pkt ((entries.map Prod.snd).getD j 0))
        (fun j => (entries.map (fun e => subOf rs e.1)).getD j 0) sz = .ok pkt' ∧
      ∀ j < (rs.groupInfos g).numRealBuffers, pkt' j = some (src (indexSubToFull rs g j)) := by
  refine @rsDecodeOrDedup_spec _ _ _ _ (groupData rs src g) _ _ _ (hp.dealt.real_pos hg) hd.size
    (hp.size g hg) (hd.code g hg) ?_ (by simpa using hlen) (hp.dealt.labels_nodup he hnd)
    (hp.dealt.labels_lt hr.range he) (fun _ _ => rfl) ?_
  · intro j hj
    obtain ⟨hfull,hlt⟩ := hp.dealt.indexSubToFull_real hj
    exact hd.length _ (hfull ▸ hlt)
  · intro j hj
    have hj' : j < entries.length := by omega
    obtain ⟨hmem,hge⟩ := he _ (List.getElem_mem hj')
    obtain ⟨hget,hlt⟩ := getD_of_mem_zipIdx hmem
    simp only [List.getD_eq_getElem?_getD, List.getElem?_map, List.getElem?_eq_getElem hj',
      Option.map_some, Option.getD_some]
    rw [hr.packets _ hlt, hget, symbolAt, hge]

def EnoughOf (rs : RSWrapper) (index : List ℕ) : Prop :=
  ∀ g < rs.numGroups, (rs.groupInfos g).numRealBuffers ≤
    (index.filter (fun i => groupOf rs i = g)).length

theorem chosen_length {g : ℕ} (h : (rs.groupInfos g).numRealBuffers ≤
    (index.filter (fun i => groupOf rs i = g)).length) :
    (chosen rs index.zipIdx g).length = (rs.groupInfos g).numRealBuffers := by
  have hcount : (index.zipIdx.filter (fun e => groupOf rs e.1 = g)).length =
      (index.filter (fun i => groupOf rs i = g)).length := by
    conv_rhs => rw [← List.zipIdx_map_fst 0 index, List.filter_map, List.length_map]
    rfl
  rw [chosen, List.length_take, hcount]
  omega

theorem chosen_nodup (hnd : index.Nodup) (g : ℕ) :
    ((chosen rs index.zipIdx g).map Prod.fst).Nodup := by
  have hsub : ((chosen rs index.zipIdx g).map Prod.fst).Sublist (index.zipIdx.map Prod.fst) :=
    ((List.take_sublist _ _).trans List.filter_sublist).map _
  rw [List.zipIdx_map_fst] at hsub
  exact hnd.sublist hsub

include hp in
theorem decodeGroup_spec (hd : Decodable cm rs src sz) (hr : Received cm rs src sz index pkt)
    (hen : EnoughOf rs index) {g : ℕ} (hg : g < rs.numGroups) {offsets : ℕ → List ℕ}
    (hoff : offsets g = (chosen rs index.zipIdx g).map Prod.snd) (out : ℕ → Option Block) :
    ∃ out', decodeGroup cm rs pkt index offsets sz out g = .ok out' ∧
      (∀ j < (rs.groupInfos g).numRealBuffers,
        out' (g + j * rs.numGroups) = some (src (g + j * rs.numGroups))) ∧
      ∀ i, i % rs.numGroups ≠ g → out' i = out i := by
  have hlen := chosen_length (hen g hg)
  have hmem : ∀ e ∈ chosen rs index.zipIdx g, e ∈ index.zipIdx ∧ groupOf rs e.1 = g :=
    fun e he => mem_chosen he
  obtain ⟨pktSub,hdec,hval⟩ := decodeEntries_spec hp hd hr hg hlen hmem (chosen_nodup hr.nodup g)
  rw [decodeGroup, hoff]
  simp only [List.length_map, hlen, not_true_eq_false, if_false,
    subIndices_eq hr.range hmem, hdec]
  have hlabels : (List.range (rs.groupInfos g).numRealBuffers).map
      (fun j => (indexSubToFull rs g j,pktSub j)) =
      (List.range (rs.groupInfos g).numRealBuffers).map
        (fun j => (g + j * rs.numGroups,pktSub j)) := by
    apply List.map_congr_left
    intro j hj
    rw [(hp.dealt.indexSubToFull_real (List.mem_range.mp hj)).1]
  rw [hlabels]
  refine ⟨_,rfl,fun j hj => ?_,fun i hi => ?_⟩
  · rw [@Scatter.scatter_range _ _ (fun j => g + j * rs.numGroups) _ _ (fun a _ b _ hab => ?_) _ hj,
      hval j hj, (hp.dealt.indexSubToFull_real hj).1]
    have := congrArg (fun x => x / rs.numGroups) hab
    simpa only [RoundRobin.pos_add_pos _ hg] using this
  · exact Scatter.scatter_range_of_ne (fun j _ hji => hi (hji ▸ RoundRobin.group_add_pos j hg))

include hp in
theorem rsWrapperDecode_spec (hd : Decodable cm rs src sz) (hr : Received cm rs src sz index pkt)
    (hen : EnoughOf rs index) :
    ∃ pkt', rsWrapperDecode cm rs pkt index sz = .ok pkt' ∧
      ∀ i < rs.numRealBuffers, pkt' i = some (src i) := by
  rw [rsWrapperDecode, if_neg (not_not.mpr hp.groups)]
  split_ifs with hone
  · have hg0 : 0 < rs.numGroups := hp.groups
    have hgroup : ∀ i, groupOf rs i = 0 := fun i => (hp.dealt.group_one hone i).1
    have hk : (rs.groupInfos 0).numRealBuffers = rs.numRealBuffers := hp.real_one hone
    have hm : (rs.groupInfos 0).numFecBuffers = rs.numFecBuffers := by
      rw [hp.fec, hone, RoundRobin.share]
      simp
    have hsub : ∀ i, subOf rs i = i := fun i => (hp.dealt.group_one hone i).2
    have hen := hen 0 hg0
    simp only [hgroup, decide_true, List.filter_true, hk] at hen
    have hget : ∀ j < rs.numRealBuffers, (index.take rs.numRealBuffers).getD j 0 = index.getD j 0 := by
      intro j hj
      simp [hj]
    have hspec := @rsDecodeOrDedup_spec cm (rs.groupInfos 0).numRealBuffers
      (rs.groupInfos 0).numFecBuffers sz src pkt (fun i => index.getD i 0)
      (index.take rs.numRealBuffers) (hp.dealt.real_pos hg0) hd.size (hp.size 0 hg0) (hd.code 0 hg0)
      (fun i hi => hd.length i (hk ▸ hi)) (by simp [hk, hen]) (hr.nodup.sublist (List.take_sublist _ _))
      (fun q hq => by rw [hk, hm]; exact hr.range q (List.mem_of_mem_take hq))
      (fun j hj => (hget j (hk ▸ hj)).symm) ?_
    · rwa [hk] at hspec ⊢
    · intro j hj
      rw [hget j (hk ▸ hj), hr.packets j (by omega), symbolAt, hgroup, hsub, hp.groupData_one hone]
  · obtain ⟨s,hsort,hoff⟩ := sortPacket_run hr.range pkt
    rw [hsort]
    have hround : ∀ g < rs.numGroups, ∀ out : ℕ → Option Block,
        (∀ i < rs.numRealBuffers, i % rs.numGroups < g → out i = some (src i)) →
        ∃ out', decodeGroup cm rs pkt index s.offsets sz out g = .ok out' ∧
          ∀ i < rs.numRealBuffers, i % rs.numGroups < g + 1 → out' i = some (src i) := by
      intro g hg out hout
      obtain ⟨out',hdec,hset,hkeep⟩ := decodeGroup_spec hp hd hr hen hg (hoff g) out
      refine ⟨out',hdec,fun i hi hig => ?_⟩
      by_cases hgi : i % rs.numGroups = g
      · have hpos : i / rs.numGroups < (rs.groupInfos g).numRealBuffers := by
          rw [hp.real, ← hgi]
          exact RoundRobin.pos_lt_share hp.groups hi
        have := hset _ hpos
        rwa [← hgi, Nat.mod_add_div'] at this
      · rw [hkeep i hgi]
        exact hout i hi (by omega)
    obtain ⟨pkt',hrun,hinv⟩ := Run.run_range (n := rs.numGroups) (s := s.pkt) (by simp) hround
    exact ⟨pkt',hrun,fun i hi => hinv i hi (Nat.mod_lt _ hp.groups)⟩

/-- A starved group: several originals, no redundant buffer. -/
def Starved (rs : RSWrapper) : Prop :=
  ∃ g < rs.numGroups, 1 < (rs.groupInfos g).numRealBuffers ∧ (rs.groupInfos g).numFecBuffers = 0

include hp in
theorem rsWrapperDecode_starved (hf : 0 < rs.numFecBuffers) (hs : Starved rs) (cm : Cm256)
    (pkt : ℕ → Option Block) (index : List ℕ) (sz : ℕ) :
    ∃ e, rsWrapperDecode cm rs pkt index sz = .error e := by
  obtain ⟨g,hg,hk,hm⟩ := hs
  have hmany : rs.numGroups ≠ 1 := by
    intro hone
    obtain rfl : g = 0 := by omega
    rw [hp.fec] at hm
    have := (@RoundRobin.share_pos_iff rs.numFecBuffers rs.numGroups 0 hp.groups).mpr hf
    omega
  rw [rsWrapperDecode, if_neg (not_not.mpr hp.groups), if_neg hmany]
  cases Run.run (sortPacket rs pkt) { offsets := fun _ => [], pkt := pkt } index.zipIdx with
  | error e => exact ⟨e,rfl⟩
  | ok s =>
    refine Run.run_error_of_mem (List.mem_range.mpr hg) (fun out => ?_) s.pkt
    rw [decodeGroup, hm]
    split_ifs with hlen
    · cases subIndices rs index g (s.offsets g) with
      | error e => exact ⟨e,rfl⟩
      | ok indexSub =>
        obtain ⟨e,he⟩ := rsDecodeOrDedup_starved cm
          (fun j => pkt ((s.offsets g).getD j 0)) (fun j => indexSub.getD j 0) hk
        dsimp only
        rw [he]
        exact ⟨e,rfl⟩
    · exact ⟨_,rfl⟩

end Decode

/-- `rs` is the planned `rs₀` after the indices `reg` were registered. -/
structure Counted (rs₀ rs : RSWrapper) (reg : List ℕ) : Prop where
  numGroups : rs.numGroups = rs₀.numGroups
  numReal : rs.numRealBuffers = rs₀.numRealBuffers
  numFec : rs.numFecBuffers = rs₀.numFecBuffers
  real : ∀ g, (rs.groupInfos g).numRealBuffers = (rs₀.groupInfos g).numRealBuffers
  fec : ∀ g, (rs.groupInfos g).numFecBuffers = (rs₀.groupInfos g).numFecBuffers
  registered : ∀ g, (rs.groupInfos g).numBuffersRegistered =
    (reg.filter (fun i => groupOf rs₀ i = g)).length
  pending : rs.numPendingGroups = ((List.range rs₀.numGroups).countP (fun g =>
    (reg.filter (fun i => groupOf rs₀ i = g)).length < (rs₀.groupInfos g).numRealBuffers) : ℕ)

section Counting
variable {rs₀ rs : RSWrapper} {reg : List ℕ}

theorem Counted.dealt (hp : Dealt rs₀) (hc : Counted rs₀ rs reg) : Dealt rs where
  groups := hc.numGroups ▸ hp.groups
  real g := by rw [hc.real, hc.numReal, hc.numGroups, hp.real]
  fec g := by rw [hc.fec, hc.numFec, hc.numGroups, hp.fec]
  groupsLe := by rw [hc.numGroups, hc.numReal]; exact hp.groupsLe

theorem Counted.planned (hp : Planned rs₀) (hc : Counted rs₀ rs reg) : Planned rs :=
  have hd := hc.dealt hp.dealt
  ⟨hd.groups,hd.real,hd.fec,hd.groupsLe,fun g hg => by
    rw [hc.real, hc.fec]
    exact hp.size g (hc.numGroups ▸ hg)⟩

theorem Counted.groupOf_eq (hc : Counted rs₀ rs reg) (i : ℕ) : groupOf rs i = groupOf rs₀ i := by
  rw [groupOf, groupOf, hc.numReal, hc.numGroups]

theorem Counted.symbolAt_eq (hc : Counted rs₀ rs reg) (cm : Cm256) (src : ℕ → Block) (sz i : ℕ) :
    symbolAt cm rs src sz i = symbolAt cm rs₀ src sz i := by
  have hdata : groupData rs src (groupOf rs₀ i) = groupData rs₀ src (groupOf rs₀ i) := by
    funext j
    rw [groupData, groupData, indexSubToFull, indexSubToFull, hc.real, hc.numReal, hc.numGroups]
  rw [symbolAt, symbolAt, hc.groupOf_eq, hdata, hc.real, hc.fec, subOf, subOf, hc.groupOf_eq,
    hc.real, hc.numReal, hc.numGroups]

theorem Counted.enoughOf_iff (hc : Counted rs₀ rs reg) (index : List ℕ) :
    EnoughOf rs index ↔ EnoughOf rs₀ index := by
  simp only [EnoughOf, hc.numGroups, hc.real, hc.groupOf_eq]

theorem Counted.canDecode (hc : Counted rs₀ rs reg) :
    ∃ b, rsWrapperDecodeHelperCanDecode rs = .ok b ∧ (b = true ↔ EnoughOf rs₀ reg) := by
  refine ⟨_,if_neg (by rw [hc.pending]; omega),?_⟩
  rw [decide_eq_true_iff, hc.pending, Int.natCast_eq_zero, List.countP_eq_zero]
  simp only [List.mem_range, decide_eq_true_eq, not_lt, EnoughOf]

theorem Counted.nil (hp : Dealt rs) (hpending : rs.numPendingGroups = rs.numGroups)
    (hzero : ∀ g, (rs.groupInfos g).numBuffersRegistered = 0) : Counted rs rs [] := by
  refine ⟨rfl,rfl,rfl,fun _ => rfl,fun _ => rfl,hzero,?_⟩
  rw [hpending, List.countP_eq_length.mpr, List.length_range]
  intro g hg
  exact decide_eq_true (hp.real_pos (List.mem_range.mp hg))

theorem countP_range_update {n g : ℕ} {p q : ℕ → Bool} (hg : g < n) (hp : p g = true)
    (hq : q g = false) (heq : ∀ i, i ≠ g → q i = p i) :
    (List.range n).countP p = (List.range n).countP q + 1 := by
  induction n with
  | zero => omega
  | succ n ih =>
    rw [List.range_succ, List.countP_append, List.countP_append]
    by_cases hn : g = n
    · subst hn
      have hsame : (List.range g).countP p = (List.range g).countP q :=
        List.countP_congr (fun i hi => by
          rw [heq i (by have := List.mem_range.mp hi; omega)])
      simp [hsame, hp, hq]
    · rw [ih (by omega)]
      have hlast : q n = p n := heq n (Ne.symm hn)
      simp only [List.countP_singleton, hlast]
      omega

theorem Counted.register (hp : Dealt rs₀) (hc : Counted rs₀ rs reg) {i : ℕ}
    (hi : i < rs₀.numRealBuffers + rs₀.numFecBuffers) :
    ∃ rs', rsWrapperDecodeHelperRegisterIndex rs i = .ok rs' ∧ Counted rs₀ rs' (reg ++ [i]) := by
  have hgroup := hp.groupOf_lt i
  have hcount : ∀ g, ((reg ++ [i]).filter (fun i => groupOf rs₀ i = g)).length =
      (reg.filter (fun i => groupOf rs₀ i = g)).length + if groupOf rs₀ i = g then 1 else 0 := by
    intro g
    rw [List.filter_append, List.length_append]
    by_cases hg : groupOf rs₀ i = g <;> simp [hg]
  rw [rsWrapperDecodeHelperRegisterIndex, indexFullToSub_eq (by rwa [hc.numReal, hc.numFec]),
    hc.groupOf_eq]
  dsimp only
  have hinfos : ∀ g, (Function.update rs.groupInfos (groupOf rs₀ i)
      { rs.groupInfos (groupOf rs₀ i) with
        numBuffersRegistered := (rs.groupInfos (groupOf rs₀ i)).numBuffersRegistered + 1 } g) =
      { rs.groupInfos g with
        numBuffersRegistered := ((reg ++ [i]).filter (fun i => groupOf rs₀ i = g)).length } := by
    intro g
    rw [hcount]
    by_cases hg : groupOf rs₀ i = g
    · subst hg
      rw [Function.update_self, hc.registered, if_pos rfl]
    · rw [Function.update_of_ne (Ne.symm hg), if_neg hg, Nat.add_zero, ← hc.registered]
  by_cases hfull : (rs.groupInfos (groupOf rs₀ i)).numBuffersRegistered + 1 =
      (rs.groupInfos (groupOf rs₀ i)).numRealBuffers
  · have hpend := hc.pending
    have hfull' := hfull
    rw [hc.registered, hc.real] at hfull'
    have hstep := @countP_range_update rs₀.numGroups (groupOf rs₀ i)
      (fun g => decide ((reg.filter (fun i => groupOf rs₀ i = g)).length <
        (rs₀.groupInfos g).numRealBuffers))
      (fun g => decide (((reg ++ [i]).filter (fun i => groupOf rs₀ i = g)).length <
        (rs₀.groupInfos g).numRealBuffers)) hgroup (by simp; omega)
      (by rw [hcount, if_pos rfl]; simp; omega)
      (fun g hg => by rw [hcount, if_neg (Ne.symm hg), Nat.add_zero])
    rw [if_pos hfull, if_pos (by omega)]
    refine ⟨_,rfl,hc.numGroups,hc.numReal,hc.numFec,?_,?_,?_,by dsimp only; omega⟩
    · exact fun g => (congrArg GroupInfo.numRealBuffers (hinfos g)).trans (hc.real g)
    · exact fun g => (congrArg GroupInfo.numFecBuffers (hinfos g)).trans (hc.fec g)
    · exact fun g => congrArg GroupInfo.numBuffersRegistered (hinfos g)
  · have hopen := hfull
    rw [hc.registered, hc.real] at hopen
    rw [if_neg hfull]
    refine ⟨_,rfl,hc.numGroups,hc.numReal,hc.numFec,?_,?_,?_,?_⟩
    · exact fun g => (congrArg GroupInfo.numRealBuffers (hinfos g)).trans (hc.real g)
    · exact fun g => (congrArg GroupInfo.numFecBuffers (hinfos g)).trans (hc.fec g)
    · exact fun g => congrArg GroupInfo.numBuffersRegistered (hinfos g)
    · dsimp only
      rw [hc.pending]
      congr 1
      apply List.countP_congr
      intro g _
      rw [hcount]
      split_ifs with hg
      · subst hg
        simp only [decide_eq_true_eq]
        omega
      · rfl

end Counting

end Whist.Fec
