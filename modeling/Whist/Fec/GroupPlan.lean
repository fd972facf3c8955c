import Whist.Fec.RoundTrip

/-! # The partition as a bijection, and decoding in place -/
namespace Whist.Fec

/-- The array `pkt` of pointers, and the memory. -/
structure Buffers where
  pkt : ℕ → Option ℕ
  memory : ℕ → Block

def rsDecodeOrDedupInPlace (cm : Cm256) (k n : ℕ) (b : Buffers) (index : ℕ → ℕ) (sz : ℕ) :
    Except FecFatal Buffers :=
  if ¬(k < rsFieldSize ∧ k ≤ n) then .error .groupSize
  else if k = 1 then .ok b
  else if ¬n ≤ rsFieldSize then .error .groupSize
  else
    match (List.range k).mapM (fun i => (b.pkt i).map (fun block => (index i,block))) with
    | none => .error .nullBuffer
    | some blocks =>
      let r := cm256Decode cm k (n - k) sz (blocks.map (fun block => (block.1,b.memory block.2)))
      let pointers := blocks.map Prod.snd
      if r.1 = 0 then
        .ok ⟨Scatter.scatter ((r.2.map Prod.fst).zip (pointers.map some)) b.pkt,
          Scatter.scatter (pointers.zip (r.2.map Prod.snd)) b.memory⟩
      else .error .codeFailed

/-- `subgroup_offsets` with the pointers and `unused_cnt` during the first pass. -/
structure PointerSorting where
  offsets : ℕ → List ℕ
  pkt : ℕ → Option ℕ
  unusedCnt : ℕ := 0

def sortPointer (rs : RSWrapper) (pktCopy : ℕ → Option ℕ) (s : PointerSorting) (e : ℕ × ℕ) :
    Except FecFatal PointerSorting :=
  match indexFullToSub rs e.1 with
  | .error err => .error err
  | .ok info =>
    if (s.offsets info.groupId).length = (rs.groupInfos info.groupId).numRealBuffers then
      .ok { s with
        pkt := Function.update s.pkt (rs.numRealBuffers + s.unusedCnt) (pktCopy e.2)
        unusedCnt := s.unusedCnt + 1 }
    else .ok { s with
      offsets := Function.update s.offsets info.groupId (s.offsets info.groupId ++ [e.2]) }

def decodeGroupInPlace (cm : Cm256) (rs : RSWrapper) (pktCopy : ℕ → Option ℕ) (index : List ℕ)
    (offsets : ℕ → List ℕ) (sz : ℕ) (b : Buffers) (i : ℕ) : Except FecFatal Buffers :=
  let k := (rs.groupInfos i).numRealBuffers
  let m := (rs.groupInfos i).numFecBuffers
  if ¬((offsets i).length = k) then .error .subgroupCount
  else
    match subIndices rs index i (offsets i) with
    | .error e => .error e
    | .ok indexSub =>
      match rsDecodeOrDedupInPlace cm k (k + m)
          ⟨fun j => pktCopy ((offsets i).getD j 0),b.memory⟩ (fun j => indexSub.getD j 0) sz with
      | .error e => .error e
      | .ok sub => .ok ⟨Scatter.scatter ((List.range k).map (fun j =>
          (indexSubToFull rs i j,sub.pkt j))) b.pkt,sub.memory⟩

def rsWrapperDecodeInPlace (cm : Cm256) (rs : RSWrapper) (b : Buffers) (index : List ℕ) (sz : ℕ) :
    Except FecFatal Buffers :=
  if ¬(0 < rs.numGroups) then .error .numGroups
  else if rs.numGroups = 1 then
    let k := (rs.groupInfos 0).numRealBuffers
    rsDecodeOrDedupInPlace cm k (k + (rs.groupInfos 0).numFecBuffers) b (fun i => index.getD i 0) sz
  else
    match Run.run (sortPointer rs b.pkt) { offsets := fun _ => [], pkt := b.pkt } index.zipIdx with
    | .error e => .error e
    | .ok s =>
      Run.run (decodeGroupInPlace cm rs b.pkt index s.offsets sz) ⟨s.pkt,b.memory⟩
        (List.range rs.numGroups)

structure IndexBijection (rs : RSWrapper) : Prop where
  toSub : ∀ i < rs.numRealBuffers + rs.numFecBuffers, ∃ info, indexFullToSub rs i = .ok info ∧
    info.groupId < rs.numGroups ∧
    info.subIndex < (rs.groupInfos info.groupId).numRealBuffers +
      (rs.groupInfos info.groupId).numFecBuffers ∧
    indexSubToFull rs info.groupId info.subIndex = i
  toFull : ∀ g < rs.numGroups, ∀ j < (rs.groupInfos g).numRealBuffers +
      (rs.groupInfos g).numFecBuffers,
    indexSubToFull rs g j < rs.numRealBuffers + rs.numFecBuffers ∧
      indexFullToSub rs (indexSubToFull rs g j) = .ok ⟨g,j⟩

theorem Dealt.indexSubToFull_place {rs : RSWrapper} (hd : Dealt rs) {g j : ℕ} (hg : g < rs.numGroups)
    (hj : j < (rs.groupInfos g).numRealBuffers + (rs.groupInfos g).numFecBuffers) :
    indexSubToFull rs g j < rs.numRealBuffers + rs.numFecBuffers ∧
      groupOf rs (indexSubToFull rs g j) = g ∧ subOf rs (indexSubToFull rs g j) = j := by
  by_cases hreal : j < (rs.groupInfos g).numRealBuffers
  · obtain ⟨hfull,hlt⟩ := hd.indexSubToFull_real hreal
    rw [hfull, subOf, groupOf, if_pos hlt, if_pos hlt]
    exact ⟨by omega,RoundRobin.group_add_pos j hg,RoundRobin.pos_add_pos j hg⟩
  · obtain ⟨q,rfl⟩ := Nat.exists_eq_add_of_le (Nat.not_lt.mp hreal)
    have hq : g + q * rs.numGroups < rs.numFecBuffers := by
      rw [← RoundRobin.lt_share_iff hd.groups, ← hd.fec]
      omega
    have hfull : indexSubToFull rs g ((rs.groupInfos g).numRealBuffers + q) =
        rs.numRealBuffers + (g + q * rs.numGroups) := by
      rw [indexSubToFull, if_neg hreal, Nat.add_sub_cancel_left, Nat.add_assoc]
    have hgroup : groupOf rs (rs.numRealBuffers + (g + q * rs.numGroups)) = g := by
      rw [groupOf, if_neg (by omega), Nat.add_sub_cancel_left, RoundRobin.group_add_pos q hg]
    rw [hfull, subOf, if_neg (by omega), hgroup, Nat.add_sub_cancel_left,
      RoundRobin.pos_add_pos q hg]
    exact ⟨by omega,rfl,rfl⟩

theorem Dealt.indexBijection {rs : RSWrapper} (hd : Dealt rs) : IndexBijection rs where
  toSub i hi := ⟨_,indexFullToSub_eq hi,hd.groupOf_lt i,hd.subOf_lt hi,hd.indexSubToFull_subOf i⟩
  toFull g hg j hj := by
    obtain ⟨hlt,hgroup,hsub⟩ := hd.indexSubToFull_place hg hj
    rw [indexFullToSub_eq hlt, hgroup, hsub]
    exact ⟨hlt,rfl⟩

def SizesSum (rs : RSWrapper) : Prop :=
  ((List.range rs.numGroups).map (fun g => (rs.groupInfos g).numRealBuffers)).sum =
      rs.numRealBuffers ∧
    ((List.range rs.numGroups).map (fun g => (rs.groupInfos g).numFecBuffers)).sum = rs.numFecBuffers

theorem Dealt.sizesSum {rs : RSWrapper} (hd : Dealt rs) : SizesSum rs := by
  simp only [SizesSum, hd.real, hd.fec]
  exact ⟨RoundRobin.share_sum hd.groups,RoundRobin.share_sum hd.groups⟩

structure Restored (k : ℕ) (pointers : List ℕ) (data : ℕ → Block) (b b' : Buffers) : Prop where
  permuted : ((List.range k).map b'.pkt).Perm (pointers.map some)
  holds : ∀ j < k, ∃ p ∈ pointers, b'.pkt j = some p ∧ b'.memory p = data j
  rest : ∀ i, k ≤ i → b'.pkt i = b.pkt i
  frame : ∀ p ∉ pointers, b'.memory p = b.memory p

theorem mapM_eq_zip {α β γ : Type*} {xs : List α} {f : α → Option β} {l : List β}
    (h : xs.map f = l.map some) (label : α → γ) :
    xs.mapM (fun i => (f i).map (fun p => (label i,p))) = some ((xs.map label).zip l) := by
  induction xs generalizing l with
  | nil => rfl
  | cons x xs ih =>
    cases l with
    | nil => cases h
    | cons p l =>
      rw [List.map_cons, List.map_cons, List.cons.injEq] at h
      rw [List.mapM_cons, h.1, ih h.2]
      rfl

theorem rsDecodeOrDedupInPlace_spec {cm : Cm256} {k m sz : ℕ} {data : ℕ → Block} {b : Buffers}
    {index : ℕ → ℕ} {labels pointers : List ℕ} (hk : 0 < k) (hsz : 0 < sz)
    (hsize : k = 1 ∨ k < rsFieldSize ∧ k + m ≤ rsFieldSize)
    (hm : 1 < k → 0 < m ∧ MdsAt cm k m sz)
    (hdata : ∀ i < k, (data i).length = sz) (hlen : labels.length = k) (hnd : labels.Nodup)
    (hlt : ∀ q ∈ labels, q < k + m) (hindex : (List.range k).map index = labels)
    (hpkt : (List.range k).map b.pkt = pointers.map some) (hpnd : pointers.Nodup)
    (hmem : pointers.map b.memory = labels.map (groupSymbol cm k m sz data)) :
    ∃ b', rsDecodeOrDedupInPlace cm k (k + m) b index sz = .ok b' ∧ Restored k pointers data b b' := by
  have hbound : k < rsFieldSize ∧ k ≤ k + m := by
    simp only [rsFieldSize] at hsize ⊢
    omega
  have hplen : pointers.length = k := by
    have := congrArg List.length hpkt
    simpa using this.symm
  rw [rsDecodeOrDedupInPlace, if_neg (not_not.mpr hbound)]
  by_cases h1 : k = 1
  · subst h1
    rw [if_pos rfl]
    obtain ⟨p,rfl⟩ := List.length_eq_one_iff.mp hplen
    obtain ⟨q,rfl⟩ := List.length_eq_one_iff.mp hlen
    refine ⟨b,rfl,hpkt ▸ List.Perm.refl _,fun j hj => ⟨p,by simp,?_,?_⟩,fun _ _ => rfl,
      fun _ _ => rfl⟩
    · obtain rfl : j = 0 := by omega
      simpa using hpkt
    · obtain rfl : j = 0 := by omega
      simpa [groupSymbol] using hmem
  · obtain ⟨hmpos,hmds⟩ := hm (by omega)
    have hfield := (hsize.resolve_left h1).2
    obtain ⟨hperm,hval⟩ := hmds data labels hdata hlen hnd hlt
    rw [if_neg h1, if_neg (not_not.mpr hfield), Nat.add_sub_cancel_left, mapM_eq_zip hpkt index,
      hindex]
    have hblocks : (labels.zip pointers).map (fun block => (block.1,b.memory block.2)) =
        labels.map (fun q => (q,groupSymbol cm k m sz data q)) := by
      have hzip := @List.zip_map' _ _ _ id (groupSymbol cm k m sz data) labels
      rw [List.map_id, ← hmem, List.zip_map_right] at hzip
      exact hzip
    dsimp only at hperm hval ⊢
    rw [hblocks, List.map_snd_zip (by omega), if_pos (cm256Decode_ok cm hk hmpos hsz hfield
      (by simpa [Function.comp_def] using hnd))]
    generalize (cm256Decode cm k m sz (labels.map (fun q => (q,groupSymbol cm k m sz data q)))).2 =
      decoded at hperm hval
    have hdlen : decoded.length = k := by simpa using hperm.length_eq
    have hlabels : ((decoded.map Prod.fst).zip (pointers.map some)).map Prod.fst =
        decoded.map Prod.fst := List.map_fst_zip (by simp; omega)
    have haddrs : (pointers.zip (decoded.map Prod.snd)).map Prod.fst = pointers :=
      List.map_fst_zip (by simp; omega)
    have hread := Scatter.map_scatter (hlabels.symm ▸ hperm.nodup_iff.mpr List.nodup_range) b.pkt
    have hload := Scatter.map_scatter (haddrs.symm ▸ hpnd) b.memory
    rw [hlabels, List.map_snd_zip (by simp; omega)] at hread
    rw [haddrs, List.map_snd_zip (by simp; omega)] at hload
    refine ⟨_,rfl,?_,fun j hj => ?_,fun i hi => ?_,fun p hp => ?_⟩
    · exact (hperm.symm.map _).trans (List.Perm.of_eq hread)
    · obtain ⟨d,hd,rfl⟩ := List.mem_map.mp (hperm.mem_iff.mpr (List.mem_range.mpr hj))
      obtain ⟨i,hi,rfl⟩ := List.getElem_of_mem hd
      have hip : i < pointers.length := by omega
      refine ⟨pointers[i],List.getElem_mem hip,?_,?_⟩
      · simpa [hi, hip] using congrArg (fun l => l[i]?) hread
      · rw [← hval _ hd]
        simpa [hi, hip] using congrArg (fun l => l[i]?) hload
    · refine Scatter.scatter_of_not_mem ?_
      rw [hlabels, hperm.mem_iff, List.mem_range]
      omega
    · exact Scatter.scatter_of_not_mem (haddrs.symm ▸ hp)

/-- Received packets: distinct indices in range, each buffer at its own address. -/
structure ReceivedAt (cm : Cm256) (rs : RSWrapper) (src : ℕ → Block) (sz : ℕ) (index : List ℕ)
    (b : Buffers) : Prop where
  range : ∀ i ∈ index, i < rs.numRealBuffers + rs.numFecBuffers
  nodup : index.Nodup
  packets : ∀ j < index.length, ∃ p, b.pkt j = some p ∧
    b.memory p = symbolAt cm rs src sz (index.getD j 0)
  apart : ∀ i < index.length, ∀ j < index.length, b.pkt i = b.pkt j → i = j

def addrAt (b : Buffers) (j : ℕ) : ℕ := (b.pkt j).getD 0

def addresses (rs : RSWrapper) (b : Buffers) (index : List ℕ) (g : ℕ) : List ℕ :=
  (chosen rs index.zipIdx g).map (fun e => addrAt b e.2)

section InPlace
variable {cm : Cm256} {rs : RSWrapper} {src : ℕ → Block} {sz : ℕ} {index : List ℕ} {b : Buffers}

theorem ReceivedAt.pkt_eq (hr : ReceivedAt cm rs src sz index b) {j : ℕ} (hj : j < index.length) :
    b.pkt j = some (addrAt b j) := by
  obtain ⟨p,hp,-⟩ := hr.packets j hj
  rw [addrAt, hp, Option.getD_some]

theorem ReceivedAt.memory_eq (hr : ReceivedAt cm rs src sz index b) {j : ℕ} (hj : j < index.length) :
    b.memory (addrAt b j) = symbolAt cm rs src sz (index.getD j 0) := by
  obtain ⟨p,hp,hmem⟩ := hr.packets j hj
  rwa [addrAt, hp, Option.getD_some]

theorem ReceivedAt.addrAt_inj (hr : ReceivedAt cm rs src sz index b) {i j : ℕ} (hi : i < index.length)
    (hj : j < index.length) (h : addrAt b i = addrAt b j) : i = j :=
  hr.apart i hi j hj (by rw [hr.pkt_eq hi, hr.pkt_eq hj, h])

theorem chosen_pkt (hr : ReceivedAt cm rs src sz index b) (g : ℕ) :
    (chosen rs index.zipIdx g).map (fun e => b.pkt e.2) = (addresses rs b index g).map some := by
  rw [addresses, List.map_map]
  exact List.map_congr_left (fun e he =>
    hr.pkt_eq (getD_of_mem_zipIdx (mem_chosen he).1).2)

theorem addresses_disjoint (hr : ReceivedAt cm rs src sz index b) {g h p : ℕ}
    (hg : p ∈ addresses rs b index g) (hh : p ∈ addresses rs b index h) : g = h := by
  obtain ⟨e,he,rfl⟩ := List.mem_map.mp hg
  obtain ⟨d,hd,hde⟩ := List.mem_map.mp hh
  obtain ⟨hemem,hegroup⟩ := mem_chosen he
  obtain ⟨hdmem,hdgroup⟩ := mem_chosen hd
  obtain ⟨heget,helt⟩ := getD_of_mem_zipIdx hemem
  obtain ⟨hdget,hdlt⟩ := getD_of_mem_zipIdx hdmem
  have hpos := hr.addrAt_inj hdlt helt hde
  rw [← hegroup, ← hdgroup, ← heget, ← hdget, hpos]

theorem addresses_nodup (hr : ReceivedAt cm rs src sz index b) (g : ℕ) :
    (addresses rs b index g).Nodup := by
  refine List.Nodup.map_on (fun e he d hd hed => ?_) (chosen_nodup hr.nodup g).of_map
  obtain ⟨heget,helt⟩ := getD_of_mem_zipIdx (mem_chosen he).1
  obtain ⟨hdget,hdlt⟩ := getD_of_mem_zipIdx (mem_chosen hd).1
  have hpos := hr.addrAt_inj helt hdlt hed
  exact Prod.ext (by rw [← heget, ← hdget, hpos]) hpos

theorem decodeChosen_spec (hp : Planned rs) (hd : Decodable cm rs src sz)
    (hr : ReceivedAt cm rs src sz index b) {g : ℕ} (hg : g < rs.numGroups) {sub : Buffers}
    {label : ℕ → ℕ} (hlen : (chosen rs index.zipIdx g).length = (rs.groupInfos g).numRealBuffers)
    (hpkt : (List.range (rs.groupInfos g).numRealBuffers).map sub.pkt =
      (chosen rs index.zipIdx g).map (fun e => b.pkt e.2))
    (hlabel : (List.range (rs.groupInfos g).numRealBuffers).map label =
      (chosen rs index.zipIdx g).map (fun e => subOf rs e.1))
    (hmem : ∀ p ∈ addresses rs b index g, sub.memory p = b.memory p) :
    ∃ sub', rsDecodeOrDedupInPlace cm (rs.groupInfos g).numRealBuffers
        ((rs.groupInfos g).numRealBuffers + (rs.groupInfos g).numFecBuffers) sub label sz = .ok sub' ∧
      Restored (rs.groupInfos g).numRealBuffers (addresses rs b index g) (groupData rs src g) sub
        sub' := by
  have hin : ∀ e ∈ chosen rs index.zipIdx g, e ∈ index.zipIdx ∧ groupOf rs e.1 = g :=
    fun e he => mem_chosen he
  refine rsDecodeOrDedupInPlace_spec (hp.dealt.real_pos hg) hd.size (hp.size g hg) (hd.code g hg) ?_
    (by simpa using hlen) (hp.dealt.labels_nodup hin (chosen_nodup hr.nodup g))
    (hp.dealt.labels_lt hr.range hin) hlabel (hpkt.trans (chosen_pkt hr g)) (addresses_nodup hr g) ?_
  · intro j hj
    obtain ⟨hfull,hlt⟩ := hp.dealt.indexSubToFull_real hj
    exact hd.length _ (hfull ▸ hlt)
  · rw [List.map_congr_left hmem, addresses, List.map_map, List.map_map]
    refine List.map_congr_left (fun e he => ?_)
    obtain ⟨hmem,hge⟩ := hin e he
    obtain ⟨hget,hlt⟩ := getD_of_mem_zipIdx hmem
    rw [Function.comp_apply, Function.comp_apply, hr.memory_eq hlt, hget, symbolAt, hge]

theorem map_getD_range {l : List ℕ} {k : ℕ} (h : l.length = k) :
    (List.range k).map (fun j => l.getD j 0) = l := by
  refine List.ext_getElem (by simp [h]) (fun i hi _ => ?_)
  simp only [List.length_map, List.length_range] at hi
  simp [h ▸ hi]

theorem decodeGroupInPlace_spec (hp : Planned rs) (hd : Decodable cm rs src sz)
    (hr : ReceivedAt cm rs src sz index b) (hen : EnoughOf rs index) {g : ℕ} (hg : g < rs.numGroups)
    {offsets : ℕ → List ℕ} (hoff : offsets g = (chosen rs index.zipIdx g).map Prod.snd) {cur : Buffers}
    (hmem : ∀ p ∈ addresses rs b index g, cur.memory p = b.memory p) :
    ∃ next, decodeGroupInPlace cm rs b.pkt index offsets sz cur g = .ok next ∧
      ((List.range (rs.groupInfos g).numRealBuffers).map (fun j => next.pkt (g + j * rs.numGroups))).Perm
        ((offsets g).map b.pkt) ∧
      (∀ j < (rs.groupInfos g).numRealBuffers, ∃ p ∈ addresses rs b index g,
        next.pkt (g + j * rs.numGroups) = some p ∧ next.memory p = src (g + j * rs.numGroups)) ∧
      (∀ i, (i < rs.numRealBuffers → i % rs.numGroups ≠ g) → next.pkt i = cur.pkt i) ∧
      ∀ p ∉ addresses rs b index g, next.memory p = cur.memory p := by
  have hlen := chosen_length (hen g hg)
  have hlabels : (List.range (rs.groupInfos g).numRealBuffers).map
      (fun j => ((chosen rs index.zipIdx g).map (fun e => subOf rs e.1)).getD j 0) =
      (chosen rs index.zipIdx g).map (fun e => subOf rs e.1) := map_getD_range (by simpa using hlen)
  have hpkt : (List.range (rs.groupInfos g).numRealBuffers).map
      (fun j => b.pkt ((offsets g).getD j 0)) = (chosen rs index.zipIdx g).map (fun e => b.pkt e.2) := by
    have hoffsets := @map_getD_range (offsets g) _ (by rw [hoff, List.length_map, hlen])
    have := congrArg (List.map b.pkt) hoffsets
    rw [List.map_map] at this
    refine this.trans ?_
    rw [hoff, List.map_map]
    rfl
  obtain ⟨sub,hdec,hres⟩ := @decodeChosen_spec cm rs src sz index b hp hd hr g hg
    ⟨fun j => b.pkt ((offsets g).getD j 0),cur.memory⟩ _ hlen hpkt hlabels hmem
  have hinj : ∀ i < (rs.groupInfos g).numRealBuffers, ∀ j < (rs.groupInfos g).numRealBuffers,
      g + i * rs.numGroups = g + j * rs.numGroups → i = j := by
    intro i _ j _ hij
    exact Nat.eq_of_mul_eq_mul_right hp.groups (Nat.add_left_cancel hij)
  have htargets : (List.range (rs.groupInfos g).numRealBuffers).map
      (fun j => (indexSubToFull rs g j,sub.pkt j)) =
      (List.range (rs.groupInfos g).numRealBuffers).map
        (fun j => (g + j * rs.numGroups,sub.pkt j)) :=
    List.map_congr_left (fun j hj => by
      rw [(hp.dealt.indexSubToFull_real (List.mem_range.mp hj)).1])
  have hwritten : ∀ j < (rs.groupInfos g).numRealBuffers,
      Scatter.scatter ((List.range (rs.groupInfos g).numRealBuffers).map
        (fun j => (g + j * rs.numGroups,sub.pkt j))) cur.pkt (g + j * rs.numGroups) = sub.pkt j :=
    fun j hj => @Scatter.scatter_range _ _ (fun j => g + j * rs.numGroups) _ _ hinj _ hj
  refine ⟨⟨Scatter.scatter ((List.range (rs.groupInfos g).numRealBuffers).map
    (fun j => (g + j * rs.numGroups,sub.pkt j))) cur.pkt,sub.memory⟩,?_,?_,fun j hj => ?_,fun i hi => ?_,
    hres.frame⟩
  · rw [decodeGroupInPlace, if_neg (not_not.mpr (by rw [hoff, List.length_map, hlen]))]
    have hsub : subIndices rs index g (offsets g) = _ :=
      hoff ▸ subIndices_eq hr.range (fun e he => mem_chosen he)
    rw [hsub]
    dsimp only
    rw [hdec]
    dsimp only
    rw [htargets]
  · rw [List.map_congr_left (fun j hj => hwritten j (List.mem_range.mp hj)), hoff, List.map_map]
    exact hres.permuted.trans (List.Perm.of_eq (chosen_pkt hr g).symm)
  · obtain ⟨p,hpmem,hpkt,hval⟩ := hres.holds j hj
    refine ⟨p,hpmem,(hwritten j hj).trans hpkt,hval.trans ?_⟩
    rw [groupData, (hp.dealt.indexSubToFull_real hj).1]
  · refine Scatter.scatter_range_of_ne (fun j hj hji => ?_)
    subst hji
    exact hi (hp.dealt.indexSubToFull_real hj).2 (RoundRobin.group_add_pos j hg)

/-- The first pass keeps every position: chosen for a group, or put after the originals. -/
theorem sortPointer_run (hd : Dealt rs) (hindex : ∀ i ∈ index, i < rs.numRealBuffers + rs.numFecBuffers)
    (pkt : ℕ → Option ℕ) : ∃ s rejected,
      Run.run (sortPointer rs pkt) { offsets := fun _ => [], pkt := pkt } index.zipIdx = .ok s ∧
      (∀ g, s.offsets g = (chosen rs index.zipIdx g).map Prod.snd) ∧
      ((List.range rs.numGroups).flatMap s.offsets ++ rejected).Perm (List.range index.length) ∧
      (List.range rejected.length).map (fun u => s.pkt (rs.numRealBuffers + u)) = rejected.map pkt := by
  have hrun := @Run.run_ok_of_calls _ _ _ (sortPointer rs pkt) (fun pre (s : PointerSorting) =>
      (∀ g, s.offsets g = (chosen rs pre g).map Prod.snd) ∧ ∃ rejected : List ℕ,
        s.unusedCnt = rejected.length ∧
        ((List.range rs.numGroups).flatMap s.offsets ++ rejected).Perm (pre.map Prod.snd) ∧
        (List.range rejected.length).map (fun u => s.pkt (rs.numRealBuffers + u)) = rejected.map pkt)
    index.zipIdx { offsets := fun _ => [], pkt := pkt } ?_ ?_
  · obtain ⟨s,hs,hoff,rejected,-,hperm,htail⟩ := hrun
    rw [List.zipIdx_map_snd, ← List.range_eq_range'] at hperm
    exact ⟨s,rejected,hs,hoff,hperm,htail⟩
  · exact ⟨fun g => by simp [chosen],[],rfl,by simp,rfl⟩
  · intro pre e post s hsplit hs
    obtain ⟨hoff,rejected,hcnt,hperm,htail⟩ := hs
    rw [sortPointer, indexFullToSub_eq (hindex e.1 (mem_index_of_split hsplit))]
    dsimp only
    have hchosen : (s.offsets (groupOf rs e.1)).length = (chosen rs pre (groupOf rs e.1)).length := by
      rw [hoff, List.length_map]
    split_ifs with hfull
    · refine ⟨_,rfl,fun g => ?_,rejected ++ [e.2],?_,?_,?_⟩
      · by_cases hg : groupOf rs e.1 = g
        · rw [← hg, chosen_append_full (hchosen ▸ hfull)]
          exact hoff _
        · rw [chosen_append_of_ne _ hg]
          exact hoff g
      · simp [hcnt]
      · rw [← List.append_assoc, List.map_append]
        exact hperm.append_right _
      · rw [List.length_append, List.length_singleton, List.range_succ, List.map_append, List.map_append,
          ← htail, hcnt]
        congr 1
        · refine List.map_congr_left (fun u hu => Function.update_of_ne ?_ _ _)
          have := List.mem_range.mp hu
          omega
        · simp
    · refine ⟨_,rfl,fun g => ?_,rejected,hcnt,?_,htail⟩
      · dsimp only
        by_cases hg : groupOf rs e.1 = g
        · rw [← hg, Function.update_self, chosen_append_room (hchosen ▸ hfull), List.map_append, hoff]
          rfl
        · rw [Function.update_of_ne (Ne.symm hg), chosen_append_of_ne _ hg]
          exact hoff g
      · have hmore := RoundRobin.flatMap_update_perm (hd.groupOf_lt e.1) s.offsets e.2
        rw [List.map_append]
        refine (hmore.append_right _).trans ?_
        rw [List.append_assoc]
        refine (List.perm_append_comm.append_left _).trans ?_
        rw [← List.append_assoc]
        exact hperm.append_right _

/-- The buffers after the groups below `g`, the rest of the array as `tail`. -/
structure DecodedUpTo (rs : RSWrapper) (src : ℕ → Block) (index : List ℕ) (b : Buffers)
    (offsets : ℕ → List ℕ) (tail : ℕ → Option ℕ) (g : ℕ) (cur : Buffers) : Prop where
  permuted : ∀ h < g, ((List.range (rs.groupInfos h).numRealBuffers).map
    (fun j => cur.pkt (h + j * rs.numGroups))).Perm ((offsets h).map b.pkt)
  holds : ∀ i < rs.numRealBuffers, i % rs.numGroups < g → ∃ p ∈ addresses rs b index (i % rs.numGroups),
    cur.pkt i = some p ∧ cur.memory p = src i
  rest : ∀ i, rs.numRealBuffers ≤ i → cur.pkt i = tail i
  fresh : ∀ h, g ≤ h → ∀ p ∈ addresses rs b index h, cur.memory p = b.memory p

theorem DecodedUpTo.next (hp : Planned rs) (hd : Decodable cm rs src sz)
    (hr : ReceivedAt cm rs src sz index b) (hen : EnoughOf rs index) {g : ℕ} (hg : g < rs.numGroups)
    {offsets : ℕ → List ℕ} (hoff : offsets g = (chosen rs index.zipIdx g).map Prod.snd)
    {tail : ℕ → Option ℕ} {cur : Buffers} (h : DecodedUpTo rs src index b offsets tail g cur) :
    ∃ next, decodeGroupInPlace cm rs b.pkt index offsets sz cur g = .ok next ∧
      DecodedUpTo rs src index b offsets tail (g + 1) next := by
  obtain ⟨next,hdec,hperm,hholds,hkeep,hframe⟩ :=
    decodeGroupInPlace_spec hp hd hr hen hg hoff (h.fresh g le_rfl)
  refine ⟨next,hdec,fun f hf => ?_,fun i hi hif => ?_,fun i hi => ?_,fun f hf p hpm => ?_⟩
  · by_cases hfg : f = g
    · exact hfg ▸ hperm
    · refine (List.Perm.of_eq (List.map_congr_left (fun j _ => hkeep _ (fun _ => ?_)))).trans
        (h.permuted f (by omega))
      rw [RoundRobin.group_add_pos j (by omega)]
      exact hfg
  · by_cases hig : i % rs.numGroups = g
    · have hpos : i / rs.numGroups < (rs.groupInfos g).numRealBuffers := by
        rw [hp.real, ← hig]
        exact RoundRobin.pos_lt_share hp.groups hi
      have := hholds _ hpos
      rw [← hig, Nat.mod_add_div'] at this
      exact this
    · obtain ⟨p,hpm,hpkt,hmem⟩ := h.holds i hi (by omega)
      refine ⟨p,hpm,(hkeep i (fun _ => hig)).trans hpkt,(hframe p (fun hpg => hig ?_)).trans hmem⟩
      exact addresses_disjoint hr hpm hpg
  · rw [hkeep i (fun hlt => absurd hlt (by omega))]
    exact h.rest i hi
  · rw [hframe p (fun hpg => ?_)]
    · exact h.fresh f (by omega) p hpm
    · have := addresses_disjoint hr hpm hpg
      omega

structure DecodedInPlace (n : ℕ) (src : ℕ → Block) (numPkt : ℕ) (b b' : Buffers) : Prop where
  permuted : ((List.range numPkt).map b'.pkt).Perm ((List.range numPkt).map b.pkt)
  originals : ∀ i < n, ∃ p, b'.pkt i = some p ∧ b'.memory p = src i

theorem DecodedUpTo.finish (hd : Dealt rs) {offsets : ℕ → List ℕ} {tail : ℕ → Option ℕ}
    {rejected : List ℕ} {cur : Buffers} (h : DecodedUpTo rs src index b offsets tail rs.numGroups cur)
    (hlen : ∀ g < rs.numGroups, (offsets g).length = (rs.groupInfos g).numRealBuffers)
    (hperm : ((List.range rs.numGroups).flatMap offsets ++ rejected).Perm (List.range index.length))
    (htail : (List.range rejected.length).map (fun u => tail (rs.numRealBuffers + u)) =
      rejected.map b.pkt) : DecodedInPlace rs.numRealBuffers src index.length b cur := by
  have hcount : rs.numRealBuffers + rejected.length = index.length := by
    have hsum := hperm.length_eq
    rw [List.length_append, List.length_flatMap, List.length_range] at hsum
    rw [← hsum, ← hd.sizesSum.1]
    congr 2
    exact List.map_congr_left (fun g hg => (hlen g (List.mem_range.mp hg)).symm)
  refine ⟨?_,fun i hi => ?_⟩
  · have hfront : ((List.range rs.numRealBuffers).map cur.pkt).Perm
        (((List.range rs.numGroups).flatMap offsets).map b.pkt) := by
      refine ((RoundRobin.deal_perm hd.groups).symm.map cur.pkt).trans ?_
      rw [List.map_flatMap, List.map_flatMap]
      refine List.Perm.flatMap_left _ (fun g hg => ?_)
      rw [List.map_map, ← hd.real]
      exact h.permuted g (List.mem_range.mp hg)
    refine List.Perm.trans ?_ (hperm.map b.pkt)
    rw [← hcount, List.range_add, List.map_append, List.map_append, List.map_map]
    refine hfront.append (List.Perm.of_eq ?_)
    rw [← htail]
    exact List.map_congr_left (fun u _ => h.rest _ (Nat.le_add_right _ _))
  · obtain ⟨p,-,hp⟩ := h.holds i hi (Nat.mod_lt _ hd.groups)
    exact ⟨p,hp⟩

/-- With enough packets of every group, the array is reordered and starts with the
originals. -/
theorem rsWrapperDecodeInPlace_spec (hp : Planned rs) (hd : Decodable cm rs src sz)
    (hr : ReceivedAt cm rs src sz index b) (hen : EnoughOf rs index) :
    ∃ b', rsWrapperDecodeInPlace cm rs b index sz = .ok b' ∧
      DecodedInPlace rs.numRealBuffers src index.length b b' := by
  rw [rsWrapperDecodeInPlace, if_neg (not_not.mpr hp.groups)]
  split_ifs with hone
  · have hk : (rs.groupInfos 0).numRealBuffers = rs.numRealBuffers := hp.real_one hone
    have hlen := chosen_length (hen 0 hp.groups)
    have hchosen : chosen rs index.zipIdx 0 = index.zipIdx.take rs.numRealBuffers := by
      rw [chosen, hk, List.filter_eq_self.mpr (fun e _ => decide_eq_true (hp.dealt.group_one hone e.1).1)]
    have hle : rs.numRealBuffers ≤ index.length := by
      rw [hchosen, List.length_take, List.length_zipIdx, hk] at hlen
      omega
    have hpkt : (List.range rs.numRealBuffers).map b.pkt =
        (chosen rs index.zipIdx 0).map (fun e => b.pkt e.2) := by
      have hsnd : (chosen rs index.zipIdx 0).map Prod.snd = List.range rs.numRealBuffers := by
        rw [hchosen, List.map_take, List.zipIdx_map_snd, ← List.range_eq_range', List.take_range,
          Nat.min_eq_left hle]
      rw [← hsnd, List.map_map]
      rfl
    have hlabel : (List.range rs.numRealBuffers).map (fun i => index.getD i 0) =
        (chosen rs index.zipIdx 0).map (fun e => subOf rs e.1) := by
      have hfst : (chosen rs index.zipIdx 0).map (fun e => subOf rs e.1) =
          index.take rs.numRealBuffers := by
        rw [hchosen, List.map_congr_left (fun e _ => (hp.dealt.group_one hone e.1).2), List.map_take,
          List.zipIdx_map_fst]
      rw [hfst, ← @map_getD_range (index.take rs.numRealBuffers) rs.numRealBuffers (by simp [hle])]
      refine List.map_congr_left (fun i hi => ?_)
      simp [List.mem_range.mp hi]
    obtain ⟨b',hdec,hres⟩ := @decodeChosen_spec cm rs src sz index b hp hd hr 0 hp.groups b
      (fun i => index.getD i 0) hlen (hk.symm ▸ hpkt) (hk.symm ▸ hlabel) (fun _ _ => rfl)
    rw [hk, hp.groupData_one hone] at hres
    refine ⟨b',hdec,?_,fun i hi => ?_⟩
    · obtain ⟨more,hmore⟩ := Nat.exists_eq_add_of_le hle
      rw [hmore, List.range_add, List.map_append, List.map_append, List.map_map, List.map_map]
      refine List.Perm.append ?_ (List.Perm.of_eq ?_)
      · exact hres.permuted.trans (List.Perm.of_eq ((chosen_pkt hr 0).symm.trans hpkt.symm))
      · exact List.map_congr_left (fun u _ => hres.rest _ (Nat.le_add_right _ _))
    · obtain ⟨p,-,hpi⟩ := hres.holds i hi
      exact ⟨p,hpi⟩
  · obtain ⟨s,rejected,hsort,hoff,hperm,htail⟩ := sortPointer_run hp.dealt hr.range b.pkt
    rw [hsort]
    obtain ⟨b',hrun,hdone⟩ := @Run.run_range _ _
      (fun g cur => DecodedUpTo rs src index b s.offsets s.pkt g cur)
      (decodeGroupInPlace cm rs b.pkt index s.offsets sz) rs.numGroups ⟨s.pkt,b.memory⟩
      ⟨fun _ h => absurd h (Nat.not_lt_zero _),fun _ _ h => absurd h (Nat.not_lt_zero _),fun _ _ => rfl,
        fun _ _ _ _ => rfl⟩
      (fun g hg cur hcur => hcur.next hp hd hr hen hg (hoff g))
    exact ⟨b',hrun,hdone.finish hp.dealt (fun g hg => by
      rw [hoff, List.length_map, chosen_length (hen g hg)]) hperm htail⟩

end InPlace

def Codable (rs : RSWrapper) : Prop :=
  ∀ g < rs.numGroups, (rs.groupInfos g).numRealBuffers = 1 ∨
    0 < (rs.groupInfos g).numFecBuffers ∧
      (rs.groupInfos g).numRealBuffers + (rs.groupInfos g).numFecBuffers ≤ rsFieldSize

theorem Counted.codable_iff {rs₀ rs : RSWrapper} {reg : List ℕ} (hc : Counted rs₀ rs reg) :
    Codable rs ↔ Codable rs₀ := by
  simp only [Codable, hc.numGroups, hc.real, hc.fec]

theorem Codable.planned {rs : RSWrapper} (hc : Codable rs) (hd : Dealt rs) : Planned rs :=
  ⟨hd.groups,hd.real,hd.fec,hd.groupsLe,fun g hg => (hc g hg).imp_right (fun h => ⟨by omega,h.2⟩)⟩

theorem rsDecodeOrDedupInPlace_fails (cm : Cm256) {k m : ℕ} (hk : k ≠ 1)
    (hbad : ¬(0 < m ∧ k + m ≤ rsFieldSize)) (b : Buffers) (index : ℕ → ℕ) (sz : ℕ) :
    ∃ e, rsDecodeOrDedupInPlace cm k (k + m) b index sz = .error e := by
  rw [rsDecodeOrDedupInPlace, if_neg hk]
  split_ifs with hsize hn
  · cases (List.range k).mapM (fun i => (b.pkt i).map (fun block => (index i,block))) with
    | none => exact ⟨_,rfl⟩
    | some blocks =>
      -- the size is accepted, so there is no redundant buffer
      have hfail : ∀ blocks, (cm256Decode cm k (k + m - k) sz blocks).1 = -1 := fun blocks => by
        rw [cm256Decode, if_pos (by omega)]
      dsimp only
      rw [hfail]
      exact ⟨_,rfl⟩
  · exact ⟨_,rfl⟩
  · exact ⟨_,rfl⟩

theorem rsWrapperDecodeInPlace_fails (cm : Cm256) {rs : RSWrapper} (hd : Dealt rs) (hbad : ¬Codable rs)
    (b : Buffers) (index : List ℕ) (sz : ℕ) :
    ∃ e, rsWrapperDecodeInPlace cm rs b index sz = .error e := by
  simp only [Codable, not_forall, not_or] at hbad
  obtain ⟨g,hg,hk,hgroup⟩ := hbad
  rw [rsWrapperDecodeInPlace, if_neg (not_not.mpr hd.groups)]
  split_ifs with hone
  · obtain rfl : g = 0 := by omega
    exact rsDecodeOrDedupInPlace_fails cm hk hgroup _ _ _
  · cases Run.run (sortPointer rs b.pkt) { offsets := fun _ => [], pkt := b.pkt } index.zipIdx with
    | error e => exact ⟨e,rfl⟩
    | ok s =>
      refine Run.run_error_of_mem (List.mem_range.mpr hg) (fun cur => ?_) _
      rw [decodeGroupInPlace]
      split_ifs
      · cases subIndices rs index g (s.offsets g) with
        | error e => exact ⟨e,rfl⟩
        | ok indexSub =>
          obtain ⟨e,he⟩ := rsDecodeOrDedupInPlace_fails cm hk hgroup
            ⟨fun j => b.pkt ((s.offsets g).getD j 0),cur.memory⟩ (fun j => indexSub.getD j 0) sz
          dsimp only
          rw [he]
          exact ⟨e,rfl⟩
      · exact ⟨_,rfl⟩

def CanDecode (rs : RSWrapper) (index : List ℕ) : Prop :=
  ∃ rs', Run.run rsWrapperDecodeHelperRegisterIndex rs index = .ok rs' ∧
    rsWrapperDecodeHelperCanDecode rs' = .ok true

structure PartitionRight (cm : Cm256) (limits : Limits) (numReal numFec : ℕ) (rs : RSWrapper)
    (src : ℕ → Block) (sz : ℕ) (index : List ℕ) (b : Buffers) : Prop where
  totals : rs.numRealBuffers = numReal ∧ rs.numFecBuffers = numFec
  bijection : IndexBijection rs
  sums : SizesSum rs
  within : ∀ g < rs.numGroups, 1 < (rs.groupInfos g).numRealBuffers →
    (rs.groupInfos g).numRealBuffers + (rs.groupInfos g).numFecBuffers ≤ limits.maxGroupSize
  decodes : ∀ rs', Run.run rsWrapperDecodeHelperRegisterIndex rs index = .ok rs' →
    rsWrapperDecodeHelperCanDecode rs' = .ok true →
    ∃ b', rsWrapperDecodeInPlace cm rs' b index sz = .ok b' ∧
      DecodedInPlace numReal src index.length b b'

section Created
variable {limits : Limits} {numReal numFec : ℕ} {rs : RSWrapper} {index : List ℕ}

theorem rsWrapperCreateWithin_counted (hrs : rsWrapperCreateWithin limits numReal numFec = .ok rs) :
    Dealt rs ∧ Counted rs rs [] ∧ rs.numRealBuffers = numReal ∧ rs.numFecBuffers = numFec ∧
      rs.numGroups = chooseNumGroupsWithin limits numReal numFec ∧
      ∀ g < rs.numGroups, 1 < (rs.groupInfos g).numRealBuffers →
        (rs.groupInfos g).numRealBuffers + (rs.groupInfos g).numFecBuffers ≤ limits.maxGroupSize := by
  have hn : 0 < numReal := by
    by_contra hzero
    rw [rsWrapperCreateWithin, if_pos hzero] at hrs
    cases hrs
  obtain ⟨rs',hrs',hd,hreal,hfec,hgroups,hpending,hzero,hsize⟩ :=
    rsWrapperCreateWithin_spec limits numFec hn
  obtain rfl : rs = rs' := Except.ok.inj (hrs.symm.trans hrs')
  refine ⟨hd,Counted.nil hd hpending hzero,hreal,hfec,hgroups,fun g hg hk => ?_⟩
  have hle := (hsize g hg).resolve_left (by omega)
  have hfirst := @RoundRobin.share_le_first rs.numFecBuffers rs.numGroups g
  rw [← hd.fec, ← hd.fec] at hfirst
  omega

theorem register_run (hd : Dealt rs) (hc : Counted rs rs [])
    (hindex : ∀ i ∈ index, i < rs.numRealBuffers + rs.numFecBuffers) :
    ∃ rs', Run.run rsWrapperDecodeHelperRegisterIndex rs index = .ok rs' ∧ Counted rs rs' index :=
  @Run.run_ok_of_calls _ _ _ _ (fun pre rs' => Counted rs rs' pre) _ _ hc
    (fun _ i _ _ hsplit hpre => hpre.register hd (hindex i (by rw [hsplit]; simp)))

theorem canDecode_iff (hd : Dealt rs) (hc : Counted rs rs [])
    (hindex : ∀ i ∈ index, i < rs.numRealBuffers + rs.numFecBuffers) :
    CanDecode rs index ↔ EnoughOf rs index := by
  obtain ⟨rs',hrun,hcounted⟩ := register_run hd hc hindex
  obtain ⟨ready,hcan,hiff⟩ := hcounted.canDecode
  constructor
  · rintro ⟨rs'',hrun'',hcan''⟩
    obtain rfl : rs' = rs'' := Except.ok.inj (hrun.symm.trans hrun'')
    exact hiff.mp (Except.ok.inj (hcan.symm.trans hcan''))
  · intro hen
    exact ⟨rs',hrun,hcan.trans (congrArg _ (hiff.mpr hen))⟩

variable {cm : Cm256} {src : ℕ → Block} {sz : ℕ} {b : Buffers}

theorem PartitionRight.codable (hright : PartitionRight cm limits numReal numFec rs src sz index b)
    (hd : Dealt rs) (hc : Counted rs rs [])
    (hindex : ∀ i ∈ index, i < rs.numRealBuffers + rs.numFecBuffers) (hcan : CanDecode rs index) :
    Codable rs := by
  obtain ⟨rs',hrun,hready⟩ := hcan
  by_contra hbad
  obtain ⟨rs'',hrun'',hcounted⟩ := register_run hd hc hindex
  obtain rfl : rs' = rs'' := Except.ok.inj (hrun.symm.trans hrun'')
  obtain ⟨b',hdec,-⟩ := hright.decodes rs' hrun hready
  obtain ⟨e,he⟩ := rsWrapperDecodeInPlace_fails cm (hcounted.dealt hd)
    (fun h => hbad (hcounted.codable_iff.mp h)) b index sz
  rw [he] at hdec
  cases hdec

theorem Counted.receivedAt {rs' : RSWrapper} (hc : Counted rs rs' index)
    (hr : ReceivedAt cm rs src sz index b) : ReceivedAt cm rs' src sz index b where
  range := by
    rw [hc.numReal, hc.numFec]
    exact hr.range
  nodup := hr.nodup
  packets j hj := by
    rw [hc.symbolAt_eq]
    exact hr.packets j hj
  apart := hr.apart

theorem Counted.decodable {rs' : RSWrapper} (hc : Counted rs rs' index)
    (hd : Decodable cm rs src sz) : Decodable cm rs' src sz where
  size := hd.size
  length := by
    rw [hc.numReal]
    exact hd.length
  code := by
    simp only [hc.numGroups, hc.real, hc.fec]
    exact hd.code

/-- The partition is right for the packets received, unless it can decode and has a
group of several originals that lacks a redundant buffer or exceeds the field. -/
theorem partition_right_iff (cm : Cm256) (hrs : rsWrapperCreateWithin limits numReal numFec = .ok rs)
    (hsz : 0 < sz) (hsrc : ∀ i < numReal, (src i).length = sz) (hr : ReceivedAt cm rs src sz index b)
    (hcode : ∀ g < rs.numGroups, 1 < (rs.groupInfos g).numRealBuffers →
      0 < (rs.groupInfos g).numFecBuffers →
      (rs.groupInfos g).numRealBuffers + (rs.groupInfos g).numFecBuffers ≤ rsFieldSize →
      MdsAt cm (rs.groupInfos g).numRealBuffers (rs.groupInfos g).numFecBuffers sz) :
    PartitionRight cm limits numReal numFec rs src sz index b ↔ (CanDecode rs index → Codable rs) := by
  obtain ⟨hd,hc,hreal,hfec,-,hwithin⟩ := rsWrapperCreateWithin_counted hrs
  constructor
  · exact fun hright hcan => hright.codable hd hc hr.range hcan
  · intro hcodable
    refine ⟨⟨hreal,hfec⟩,hd.indexBijection,hd.sizesSum,hwithin,fun rs' hrun hcan => ?_⟩
    have hgood := hcodable ⟨rs',hrun,hcan⟩
    obtain ⟨rs'',hrun'',hcounted⟩ := register_run hd hc hr.range
    obtain rfl : rs' = rs'' := Except.ok.inj (hrun.symm.trans hrun'')
    have hen := (canDecode_iff hd hc hr.range).mp ⟨rs',hrun,hcan⟩
    have hdata : Decodable cm rs src sz := by
      refine ⟨hsz,hreal ▸ hsrc,fun g hg hk => ?_⟩
      obtain ⟨hm,hfield⟩ := (hgood g hg).resolve_left (by omega)
      exact ⟨hm,hcode g hg hk hm hfield⟩
    rw [← hreal, ← hcounted.numReal]
    exact rsWrapperDecodeInPlace_spec (hcounted.planned (hgood.planned hd)) (hcounted.decodable hdata)
      (hcounted.receivedAt hr) ((hcounted.enoughOf_iff index).mpr hen)

end Created

def arrived (cm : Cm256) (rs : RSWrapper) (src : ℕ → Block) (sz : ℕ) (index : List ℕ) : Buffers :=
  ⟨some,fun p => symbolAt cm rs src sz (index.getD p 0)⟩

theorem arrived_receivedAt (cm : Cm256) {rs : RSWrapper} (src : ℕ → Block) (sz : ℕ) {index : List ℕ}
    (hrange : ∀ i ∈ index, i < rs.numRealBuffers + rs.numFecBuffers) (hnd : index.Nodup) :
    ReceivedAt cm rs src sz index (arrived cm rs src sz index) :=
  ⟨hrange,hnd,fun j _ => ⟨j,rfl,rfl⟩,fun _ _ _ _ h => Option.some.inj h⟩

/-- Two groups of two originals and a redundant buffer; buffer 0 is lost, and buffer 3
comes when its group has enough. -/
theorem partition_right_iff_parity : ∃ rs, rsWrapperCreateWithin ⟨3,20⟩ 4 2 = .ok rs ∧
    CanDecode rs [4,2,5,1,3] ∧ PartitionRight parityCode ⟨3,20⟩ 4 2 rs (fun i => [i.toUInt8]) 1
      [4,2,5,1,3] (arrived parityCode rs (fun i => [i.toUInt8]) 1 [4,2,5,1,3]) := by
  obtain ⟨rs,hrs,-⟩ := rsWrapperCreateWithin_spec ⟨3,20⟩ 2 (show 0 < 4 by decide)
  obtain ⟨hd,hc,hreal,hfec,hgroups,-⟩ := rsWrapperCreateWithin_counted hrs
  have htwo : rs.numGroups = 2 := hgroups.trans (by decide +kernel)
  have hsizes : ∀ g < rs.numGroups, (rs.groupInfos g).numRealBuffers = 2 ∧
      (rs.groupInfos g).numFecBuffers = 1 := by
    intro g hg
    rw [hd.real, hd.fec, hreal, hfec, htwo]
    obtain rfl | rfl : g = 0 ∨ g = 1 := by omega
    · decide
    · decide
  have hrange : ∀ i ∈ [4,2,5,1,3], i < rs.numRealBuffers + rs.numFecBuffers := by
    rw [hreal, hfec]
    decide
  have hen : EnoughOf rs [4,2,5,1,3] := by
    intro g hg
    simp only [(hsizes g hg).1, groupOf, hreal, htwo]
    obtain rfl | rfl : g = 0 ∨ g = 1 := by omega
    · decide
    · decide
  refine ⟨rs,hrs,(canDecode_iff hd hc hrange).mpr hen,(partition_right_iff parityCode hrs
    Nat.one_pos (fun _ _ => rfl) (arrived_receivedAt _ _ _ hrange (by decide)) (fun g hg _ _ _ => ?_)).mpr
    (fun _ g hg => Or.inr ?_)⟩
  · rw [(hsizes g hg).1, (hsizes g hg).2]
    exact parityCode_mds (by decide) (by decide) (by decide)
  · rw [(hsizes g hg).1, (hsizes g hg).2]
    decide

/-- At the initial limits, 256 original buffers and a redundant one make two groups;
when only buffer 0 is lost, decoding is allowed and aborts. -/
theorem partition_decode_aborts : ∃ rs, rsWrapperCreate 256 1 = .ok rs ∧ MdsAt parityCode 128 1 3 ∧
    CanDecode rs (List.range' 1 256) ∧ ReceivedAt parityCode rs (fun _ => [0,0,0]) 3 (List.range' 1 256)
      (arrived parityCode rs (fun _ => [0,0,0]) 3 (List.range' 1 256)) ∧
    ¬PartitionRight parityCode Limits.initial 256 1 rs (fun _ => [0,0,0]) 3 (List.range' 1 256)
      (arrived parityCode rs (fun _ => [0,0,0]) 3 (List.range' 1 256)) := by
  obtain ⟨rs,hrs,-⟩ := rsWrapperCreateWithin_spec Limits.initial 1 (show 0 < 256 by decide)
  obtain ⟨hd,hc,hreal,hfec,hgroups,-⟩ := rsWrapperCreateWithin_counted hrs
  have htwo : rs.numGroups = 2 := hgroups.trans (by decide +kernel)
  have hrange : ∀ i ∈ List.range' 1 256, i < rs.numRealBuffers + rs.numFecBuffers := fun i hi => by
    have := List.mem_range'_1.mp hi
    omega
  have hen : EnoughOf rs (List.range' 1 256) := by
    intro g hg
    simp only [hd.real, groupOf, hreal, htwo]
    obtain rfl | rfl : g = 0 ∨ g = 1 := by omega
    · decide +kernel
    · decide +kernel
  have hbad : ¬Codable rs := by
    intro h
    have hgroup := h 1 (by omega)
    rw [hd.real, hd.fec, hreal, hfec, htwo] at hgroup
    revert hgroup
    decide
  have hcan := (canDecode_iff hd hc hrange).mpr hen
  exact ⟨rs,hrs,parityCode_mds (by decide) (by decide) (by decide),hcan,
    arrived_receivedAt _ _ _ hrange List.nodup_range',
    fun hright => hbad (hright.codable hd hc hrange hcan)⟩

end Whist.Fec
