import Whist.Fec.Encoding

/-! # What the FEC decoder makes of any registrations -/
namespace Whist.Fec

def Carries (block segment : Block) : Prop :=
  segment.length < 65536 ∧ ∃ rest, block = writeU16 segment.length ++ (segment ++ rest)

theorem carries_padWithHeader {segment : Block} (h : segment.length < 65536) (sz : ℕ) :
    Carries (padWithHeader sz segment) segment :=
  ⟨h,_,by rw [padWithHeader, List.append_assoc]⟩

theorem writeDecoded_run {dec : FecDecoder} {segments : ℕ → Block}
    (h : ∀ i < dec.numRealBuffers, ∃ block, dec.buffers i = some block ∧ Carries block (segments i))
    (buffer : Option (ℕ → UInt8)) :
    Run.run (writeDecoded dec) { buffer := buffer } (List.range dec.numRealBuffers) = .ok {
      runningSize := ((List.range dec.numRealBuffers).map segments).flatten.length
      buffer := buffer.map (fun mem =>
        Bytes.writeAt mem 0 ((List.range dec.numRealBuffers).map segments).flatten) } := by
  obtain ⟨out,hrun,rfl⟩ := @Run.run_range _ _ (fun a (out : Output) => out = {
      runningSize := ((List.range a).map segments).flatten.length
      buffer := buffer.map (fun mem => Bytes.writeAt mem 0 ((List.range a).map segments).flatten) })
    (writeDecoded dec) dec.numRealBuffers { buffer := buffer } (by simp [Bytes.writeAt_nil]) (by
      rintro i hi _ rfl
      obtain ⟨block,hblock,hlt,rest,rfl⟩ := h i hi
      refine ⟨_,?_,rfl⟩
      rw [writeDecoded, hblock]
      dsimp only
      rw [readU16_writeU16 hlt]
      dsimp only
      rw [if_pos (by simp), List.take_append_of_le_length le_rfl, List.take_length]
      congr 2
      · simp [List.range_succ]
      · rw [Option.map_map]
        congr 1
        funext mem
        have := Bytes.writeAt_append mem 0 ((List.range i).map segments).flatten (segments i)
        rw [Nat.zero_add] at this
        simpa [List.range_succ] using this)
  exact hrun

section Decoder
variable {cm : Cm256} {rs : RSWrapper} {packets segments : ℕ → Block} {sz maxBuf : ℕ}

def originals (segments : ℕ → Block) (sz : ℕ) : ℕ → Block := fun i => padWithHeader sz (segments i)

theorem Encoded.symbol (he : Encoded cm rs packets segments sz) (hp : Planned rs) {i : ℕ}
    (hi : i < rs.numRealBuffers + rs.numFecBuffers) :
    (packets i).length ≤ sz ∧ (rs.numRealBuffers ≤ i → (packets i).length = sz) ∧
      packets i ++ List.replicate (sz - (packets i).length) 0 =
        symbolAt cm rs (originals segments sz) sz i := by
  by_cases hreal : i < rs.numRealBuffers
  · have hlen : (packets i).length = fecHeaderSize + (segments i).length := by
      rw [he.real i hreal, List.length_append, length_writeU16]
    refine ⟨hlen ▸ he.fits i hreal,fun h => by omega,?_⟩
    rw [hp.symbolAt_real cm _ sz hreal, originals, padWithHeader, hlen, he.real i hreal]
  · have hsym := he.fec (i - rs.numRealBuffers) (by omega)
    rw [Nat.add_sub_cancel' (by omega)] at hsym
    have hlen : (packets i).length = sz := by
      rw [hsym]
      exact hp.symbolAt_length cm (fun j hj => length_padWithHeader (he.fits j hj)) i
    refine ⟨hlen.le,fun _ => hlen,?_⟩
    rw [hlen, Nat.sub_self, List.replicate_zero, List.append_nil, hsym]
    rfl

/-- The indices `reg` were registered and nothing has been recovered. -/
structure Holding (rs : RSWrapper) (packets : ℕ → Block) (sz maxBuf : ℕ) (dec : FecDecoder)
    (reg : List ℕ) : Prop where
  reals : dec.numRealBuffers = rs.numRealBuffers
  total : dec.numBuffers = rs.numRealBuffers + rs.numFecBuffers
  maxBuf : dec.maxBufferSize = maxBuf
  idle : dec.recoveryPerformed = false
  counted : Counted rs dec.rsCode reg
  sizes : ∀ i, dec.bufferSizes i = if i ∈ reg then ((packets i).length : ℤ) else -1
  buffers : ∀ i ∈ reg, dec.buffers i = some (packets i)
  accepted : dec.numAcceptedBuffers = reg.length
  acceptedReal : dec.numAcceptedRealBuffers = (reg.filter (fun i => i < rs.numRealBuffers)).length
  maxPacket : ∀ i ∈ reg, ((packets i).length : ℤ) ≤ dec.maxPacketSize
  maxPacketLe : dec.maxPacketSize ≤ sz

/-- Recovery was performed when at most `reg` had been registered. -/
structure Recovered (rs : RSWrapper) (segments : ℕ → Block) (maxBuf : ℕ) (dec : FecDecoder)
    (reg : List ℕ) : Prop where
  reals : dec.numRealBuffers = rs.numRealBuffers
  total : dec.numBuffers = rs.numRealBuffers + rs.numFecBuffers
  maxBuf : dec.maxBufferSize = maxBuf
  performed : dec.recoveryPerformed = true
  canDecode : rsWrapperDecodeHelperCanDecode dec.rsCode = .ok true
  enough : EnoughOf rs reg
  sizes : ∀ i, i ∉ reg → dec.bufferSizes i = -1
  buffers : ∀ i < rs.numRealBuffers, ∃ block, dec.buffers i = some block ∧ Carries block (segments i)

theorem EnoughOf.append {reg : List ℕ} (h : EnoughOf rs reg) (more : List ℕ) :
    EnoughOf rs (reg ++ more) := by
  intro g hg
  have := h g hg
  rw [List.filter_append, List.length_append]
  omega

variable {dec : FecDecoder} {reg : List ℕ} {i : ℕ}

theorem Holding.register (hh : Holding rs packets sz maxBuf dec reg)
    (he : Encoded cm rs packets segments sz) (hp : Planned rs) (hsz : sz ≤ maxBuf)
    (hi : i < rs.numRealBuffers + rs.numFecBuffers) (hnew : i ∉ reg) :
    ∃ dec', fecDecoderRegisterBuffer dec i (packets i) = .ok dec' ∧
      Holding rs packets sz maxBuf dec' (reg ++ [i]) := by
  obtain ⟨hle,-,-⟩ := he.symbol hp hi
  obtain ⟨rs',hreg,hcount⟩ := hh.counted.register hp.dealt hi
  rw [fecDecoderRegisterBuffer, if_neg (not_not.mpr (hh.total ▸ hi)),
    if_neg (by rw [hh.maxBuf]; omega), if_neg (by rw [hh.sizes, if_neg hnew]; simp), hh.idle,
    if_neg (by simp), hreg]
  refine ⟨_,rfl,hh.reals,hh.total,hh.maxBuf,rfl,hcount,fun j => ?_,fun j hj => ?_,?_,?_,
    fun j hj => ?_,?_⟩
  · dsimp only
    by_cases hji : j = i
    · subst hji
      simp
    · rw [Function.update_of_ne hji, hh.sizes]
      simp [hji]
  · dsimp only
    by_cases hji : j = i
    · subst hji
      simp
    · rw [Function.update_of_ne hji]
      exact hh.buffers j (by simpa [hji] using hj)
  · dsimp only
    rw [hh.accepted, List.length_append, List.length_singleton]
  · dsimp only
    rw [hh.acceptedReal, hh.reals, List.filter_append, List.length_append]
    by_cases hreal : i < rs.numRealBuffers <;> simp [hreal]
  · dsimp only
    rcases List.mem_append.mp hj with hj | hj
    · exact le_max_of_le_left (hh.maxPacket j hj)
    · rw [List.mem_singleton.mp hj]
      exact le_max_right _ _
  · dsimp only
    have := hh.maxPacketLe
    omega

theorem Recovered.register (hr : Recovered rs segments maxBuf dec reg)
    (he : Encoded cm rs packets segments sz) (hp : Planned rs) (hsz : sz ≤ maxBuf)
    (hi : i < rs.numRealBuffers + rs.numFecBuffers) (hnew : i ∉ reg) :
    fecDecoderRegisterBuffer dec i (packets i) = .ok dec ∧
      Recovered rs segments maxBuf dec (reg ++ [i]) := by
  obtain ⟨hle,-,-⟩ := he.symbol hp hi
  rw [fecDecoderRegisterBuffer, if_neg (not_not.mpr (hr.total ▸ hi)),
    if_neg (by rw [hr.maxBuf]; omega), if_neg (not_not.mpr (hr.sizes i hnew)), hr.performed,
    if_pos rfl]
  refine ⟨rfl,hr.reals,hr.total,hr.maxBuf,hr.performed,hr.canDecode,hr.enough.append _,?_,hr.buffers⟩
  exact fun j hj => hr.sizes j (fun h => hj (List.mem_append_left _ h))

end Decoder

section Counts
variable {rs : RSWrapper} {reg : List ℕ}

theorem reals_complete_iff (hnd : reg.Nodup) (n : ℕ) :
    (reg.filter (fun i => i < n)).length = n ↔ ∀ i < n, i ∈ reg := by
  have hsub : (reg.filter (fun i => i < n)).Subperm (List.range n) :=
    (hnd.filter _).subperm (fun i hi => by simpa using (List.mem_filter.mp hi).2)
  constructor
  · intro hlen i hi
    have hperm := hsub.perm_of_length_le (by simp [hlen])
    exact (List.mem_filter.mp (hperm.mem_iff.mpr (List.mem_range.mpr hi))).1
  · intro hall
    have hback : (List.range n).Subperm (reg.filter (fun i => i < n)) :=
      List.nodup_range.subperm (fun i hi => by
        have := List.mem_range.mp hi
        simpa [this] using hall i this)
    exact ((hsub.antisymm hback).length_eq).trans (List.length_range)

/-- A group that has enough packets but misses an original has a redundant one. -/
theorem EnoughOf.fec_mem (hen : EnoughOf rs reg) (hp : Planned rs) (hnd : reg.Nodup) {i : ℕ}
    (hi : i < rs.numRealBuffers) (hmiss : i ∉ reg) : ∃ j ∈ reg, rs.numRealBuffers ≤ j := by
  by_contra hnone
  push Not at hnone
  have hgroup := hp.dealt.groupOf_lt i
  have hmem : ∀ j ∈ reg.filter (fun j => groupOf rs j = groupOf rs i),
      j ∈ reg ∧ groupOf rs j = groupOf rs i := fun j hj =>
    ⟨(List.mem_filter.mp hj).1,of_decide_eq_true (List.mem_filter.mp hj).2⟩
  have hsub : ((subOf rs i) :: (reg.filter (fun j => groupOf rs j = groupOf rs i)).map (subOf rs)).Subperm
      (List.range (rs.groupInfos (groupOf rs i)).numRealBuffers) := by
    refine List.Nodup.subperm (List.nodup_cons.mpr ⟨?_,?_⟩) ?_
    · intro h
      obtain ⟨j,hj,heq⟩ := List.mem_map.mp h
      exact hmiss (hp.dealt.eq_of_group_sub (hmem j hj).2 heq ▸ (hmem j hj).1)
    · exact (hnd.filter _).map_on (fun a ha b hb hab =>
        hp.dealt.eq_of_group_sub ((hmem a ha).2.trans (hmem b hb).2.symm) hab)
    · intro q hq
      rw [List.mem_range]
      rcases List.mem_cons.mp hq with rfl | hq
      · exact hp.dealt.subOf_lt_real_iff.mpr hi
      · obtain ⟨j,hj,rfl⟩ := List.mem_map.mp hq
        have := hp.dealt.subOf_lt_real_iff.mpr (hnone j (hmem j hj).1)
        rwa [(hmem j hj).2] at this
  have hlen := hsub.length_le
  have := hen _ hgroup
  simp only [List.length_cons, List.length_map, List.length_range] at hlen
  omega

theorem EnoughOf.le_length (hen : EnoughOf rs reg) (hp : Planned rs) (hnd : reg.Nodup) :
    rs.numRealBuffers ≤ reg.length := by
  have hreal : (Finset.range rs.numRealBuffers).card = ∑ g ∈ Finset.range rs.numGroups,
      ((Finset.range rs.numRealBuffers).filter (fun i => groupOf rs i = g)).card :=
    Finset.card_eq_sum_card_fiberwise (fun i _ => by simpa using hp.dealt.groupOf_lt i)
  have hreg : reg.toFinset.card = ∑ g ∈ Finset.range rs.numGroups,
      (reg.toFinset.filter (fun i => groupOf rs i = g)).card :=
    Finset.card_eq_sum_card_fiberwise (fun i _ => by simpa using hp.dealt.groupOf_lt i)
  rw [List.toFinset_card_of_nodup hnd] at hreg
  rw [Finset.card_range] at hreal
  rw [hreal, hreg]
  refine Finset.sum_le_sum (fun g hg => ?_)
  have hg := Finset.mem_range.mp hg
  have henough := hen g hg
  have hsame : (reg.toFinset.filter (fun i => groupOf rs i = g)).card =
      (reg.filter (fun i => groupOf rs i = g)).length := by
    rw [← List.toFinset_card_of_nodup (hnd.filter _), List.toFinset_filter]
    simp
  rw [hsame]
  refine le_trans ?_ henough
  rw [← Finset.card_range (rs.groupInfos g).numRealBuffers]
  refine Finset.card_le_card_of_injOn (subOf rs) (fun i hi => ?_) (fun i hi j hj hij => ?_)
  · obtain ⟨hlt,rfl⟩ := Finset.mem_filter.mp (Finset.mem_coe.mp hi)
    simpa using hp.dealt.subOf_lt_real_iff.mpr (Finset.mem_range.mp hlt)
  · exact hp.dealt.eq_of_group_sub ((Finset.mem_filter.mp hi).2.trans (Finset.mem_filter.mp hj).2.symm) hij

theorem enoughOf_perm {reg' : List ℕ} (h : reg.Perm reg') : EnoughOf rs reg ↔ EnoughOf rs reg' := by
  have hlen : ∀ g, (reg.filter (fun i => groupOf rs i = g)).length =
      (reg'.filter (fun i => groupOf rs i = g)).length := fun g => (h.filter _).length_eq
  simp only [EnoughOf, hlen]

end Counts

section Recovery
variable {cm : Cm256} {rs : RSWrapper} {packets segments : ℕ → Block} {sz maxBuf : ℕ}
  {dec : FecDecoder} {reg : List ℕ}

theorem compactBuffer_run (hh : Holding rs packets sz maxBuf dec reg)
    (he : Encoded cm rs packets segments sz) (hp : Planned rs)
    (hrange : ∀ i ∈ reg, i < rs.numRealBuffers + rs.numFecBuffers) (hmax : dec.maxPacketSize = sz) :
    ∃ s, Run.run (compactBuffer dec) { buffers := dec.buffers } (List.range dec.numBuffers) = .ok s ∧
      s.index = (List.range dec.numBuffers).filter (fun i => i ∈ reg) ∧
      ∀ j < s.index.length,
        s.buffers j = some (symbolAt cm rs (originals segments sz) sz (s.index.getD j 0)) := by
  have h := @Run.run_range _ _ (fun a (s : Compacted) =>
      s.index = (List.range a).filter (fun i => i ∈ reg) ∧
      (∀ j < s.index.length,
        s.buffers j = some (symbolAt cm rs (originals segments sz) sz (s.index.getD j 0))) ∧
      ∀ j, a ≤ j → s.buffers j = dec.buffers j)
    (compactBuffer dec) dec.numBuffers { buffers := dec.buffers } ⟨rfl,by simp,fun _ _ => rfl⟩ ?_
  · obtain ⟨s,hrun,hindex,hsym,-⟩ := h
    exact ⟨s,hrun,hindex,hsym⟩
  · rintro i - s ⟨hindex,hsym,hrest⟩
    have hlen : s.index.length ≤ i := by
      rw [hindex]
      exact (List.length_filter_le _ _).trans (List.length_range).le
    rw [compactBuffer, hh.sizes]
    by_cases hi : i ∈ reg
    · obtain ⟨hle,-,hpad⟩ := he.symbol hp (hrange i hi)
      rw [if_pos hi, if_neg (by omega), if_neg (not_not.mpr hlen), hrest i le_rfl, hh.buffers i hi]
      dsimp only
      rw [if_neg (by omega)]
      refine ⟨_,rfl,?_,fun j hj => ?_,fun j hj => ?_⟩
      · rw [List.range_succ, List.filter_append, ← hindex]
        simp [hi]
      · dsimp only at hj ⊢
        rw [hmax, Int.toNat_natCast, hpad]
        by_cases hjl : j = s.index.length
        · subst hjl
          simp
        · rw [Function.update_of_ne hjl]
          simp only [List.length_append, List.length_singleton] at hj
          rw [hsym j (by omega), List.getD_eq_getElem?_getD, List.getD_eq_getElem?_getD,
            List.getElem?_append_left (by omega)]
      · dsimp only
        rw [Function.update_of_ne (by omega)]
        exact hrest j (by omega)
    · rw [if_neg hi, if_pos rfl]
      refine ⟨s,rfl,?_,hsym,fun j hj => hrest j (by omega)⟩
      rw [List.range_succ, List.filter_append, hindex]
      simp [hi]

theorem filter_perm {n : ℕ} (hnd : reg.Nodup) (hrange : ∀ i ∈ reg, i < n) :
    ((List.range n).filter (fun i => i ∈ reg)).Perm reg := by
  rw [List.perm_ext_iff_of_nodup (List.nodup_range.filter _) hnd]
  intro i
  simp only [List.mem_filter, List.mem_range, decide_eq_true_eq]
  exact ⟨fun h => h.2,fun h => ⟨hrange i h,h⟩⟩

theorem recoverBuffers_spec (hh : Holding rs packets sz maxBuf dec reg)
    (he : Encoded cm rs packets segments sz) (hp : Planned rs) (hnd : reg.Nodup)
    (hrange : ∀ i ∈ reg, i < rs.numRealBuffers + rs.numFecBuffers) (hen : EnoughOf rs reg)
    (hmax : dec.maxPacketSize = sz) (hsz : 0 < sz)
    (hcode : ∀ g < rs.numGroups, 1 < (rs.groupInfos g).numRealBuffers →
      0 < (rs.groupInfos g).numFecBuffers ∧
        MdsAt cm (rs.groupInfos g).numRealBuffers (rs.groupInfos g).numFecBuffers sz) :
    ∃ buffers, recoverBuffers cm dec =
        .ok { dec with buffers := buffers, recoveryPerformed := true } ∧
      ∀ i < rs.numRealBuffers, buffers i = some (originals segments sz i) := by
  have hperm := filter_perm hnd (n := dec.numBuffers) (hh.total ▸ hrange)
  obtain ⟨s,hrun,hindex,hsym⟩ := compactBuffer_run hh he hp hrange hmax
  have hlen : s.index.length = reg.length := hindex ▸ hperm.length_eq
  have hp' := hh.counted.planned hp
  have hd : Decodable cm dec.rsCode (originals segments sz) sz := by
    refine ⟨hsz,fun i hi => length_padWithHeader (he.fits i (hh.counted.numReal ▸ hi)),fun g hg => ?_⟩
    rw [hh.counted.real, hh.counted.fec]
    exact hcode g (hh.counted.numGroups ▸ hg)
  have hr : Received cm dec.rsCode (originals segments sz) sz s.index
      (fun i => if s.index.length ≤ i ∧ i < dec.numBuffers then none else s.buffers i) := by
    refine ⟨fun i hi => ?_,?_,fun j hj => ?_⟩
    · rw [hh.counted.numReal, hh.counted.numFec]
      exact hrange i (hperm.mem_iff.mp (hindex ▸ hi))
    · rw [hindex]
      exact List.nodup_range.filter _
    · rw [if_neg (by omega), hsym j hj, hh.counted.symbolAt_eq]
  obtain ⟨buffers,hdec,hval⟩ := rsWrapperDecode_spec hp' hd hr
    ((hh.counted.enoughOf_iff _).mpr ((enoughOf_perm (hindex ▸ hperm)).mpr hen))
  have hge := hen.le_length hp hnd
  refine ⟨buffers,?_,fun i hi => hval i (hh.counted.numReal ▸ hi)⟩
  rw [recoverBuffers, hrun]
  dsimp only
  rw [if_neg (by rw [hlen, hh.reals]; omega), if_neg (by rw [hlen, hh.accepted]; simp), hmax,
    Int.toNat_natCast, hdec]

theorem recoverBuffers_starved (hp : Planned dec.rsCode) (hf : 0 < dec.rsCode.numFecBuffers)
    (hs : Starved dec.rsCode) (cm : Cm256) : ∃ e, recoverBuffers cm dec = .error e := by
  rw [recoverBuffers]
  cases Run.run (compactBuffer dec) { buffers := dec.buffers } (List.range dec.numBuffers) with
  | error e => exact ⟨e,rfl⟩
  | ok s =>
    obtain ⟨e,he⟩ := rsWrapperDecode_starved hp hf hs cm
      (fun i => if s.index.length ≤ i ∧ i < dec.numBuffers then none else s.buffers i) s.index
      dec.maxPacketSize.toNat
    dsimp only
    rw [he]
    by_cases hreal : s.index.length ≥ dec.numRealBuffers
    · rw [if_neg (not_not.mpr hreal)]
      by_cases hall : s.index.length = dec.numAcceptedBuffers
      · exact ⟨e,if_neg (not_not.mpr hall)⟩
      · exact ⟨_,if_pos hall⟩
    · exact ⟨_,if_pos hreal⟩

def decoded (rs : RSWrapper) (segments : ℕ → Block) (dec : FecDecoder) (buffer : Option (ℕ → UInt8)) :
    ℤ × FecDecoder × Option (ℕ → UInt8) :=
  let payload := ((List.range rs.numRealBuffers).map segments).flatten
  (payload.length,dec,buffer.map (fun mem => Bytes.writeAt mem 0 payload))

theorem Recovered.getDecoded (hr : Recovered rs segments maxBuf dec reg) (cm : Cm256)
    (buffer : Option (ℕ → UInt8)) :
    fecGetDecodedBuffer cm dec buffer = .ok (decoded rs segments dec buffer) := by
  have hbuf := hr.buffers
  rw [← hr.reals] at hbuf
  rw [fecGetDecodedBuffer, hr.canDecode]
  dsimp only
  rw [if_neg (fun h => h.2 hr.performed)]
  dsimp only
  rw [writeDecoded_run hbuf, decoded, ← hr.reals]

theorem Holding.getDecoded_early (hh : Holding rs packets sz maxBuf dec reg) (hen : ¬EnoughOf rs reg)
    (cm : Cm256) (buffer : Option (ℕ → UInt8)) :
    fecGetDecodedBuffer cm dec buffer = .ok (-1,dec,buffer) := by
  obtain ⟨b,hcan,hb⟩ := hh.counted.canDecode
  obtain rfl : b = false := by
    cases b with
    | false => rfl
    | true => exact absurd (hb.mp rfl) hen
  rw [fecGetDecodedBuffer, hcan]

theorem Holding.can_decode (hh : Holding rs packets sz maxBuf dec reg) (hen : EnoughOf rs reg) :
    rsWrapperDecodeHelperCanDecode dec.rsCode = .ok true := by
  obtain ⟨b,hcan,hb⟩ := hh.counted.canDecode
  rw [hcan, hb.mpr hen]

theorem Holding.getDecoded_complete (hh : Holding rs packets sz maxBuf dec reg)
    (he : Encoded cm rs packets segments sz) (hsmall : sz < 65536) (hnd : reg.Nodup)
    (hen : EnoughOf rs reg) (hall : ∀ i < rs.numRealBuffers, i ∈ reg) (cm : Cm256)
    (buffer : Option (ℕ → UInt8)) :
    fecGetDecodedBuffer cm dec buffer = .ok (decoded rs segments dec buffer) := by
  have hcount : dec.numAcceptedRealBuffers = dec.numRealBuffers := by
    rw [hh.acceptedReal, hh.reals]
    exact (reals_complete_iff hnd _).mpr hall
  have hbuf : ∀ i < dec.numRealBuffers, ∃ block, dec.buffers i = some block ∧
      Carries block (segments i) := by
    intro i hi
    rw [hh.reals] at hi
    have := he.fits i hi
    exact ⟨_,hh.buffers i (hall i hi),by omega,[],by rw [he.real i hi, List.append_nil]⟩
  rw [fecGetDecodedBuffer, hh.can_decode hen]
  dsimp only
  rw [if_neg (fun h => h.1 hcount)]
  dsimp only
  rw [writeDecoded_run hbuf, decoded, ← hh.reals]

def NeedsRecovery (rs : RSWrapper) (reg : List ℕ) : Prop :=
  EnoughOf rs reg ∧ ∃ i < rs.numRealBuffers, i ∉ reg

theorem Holding.getDecoded_recover (hh : Holding rs packets sz maxBuf dec reg)
    (he : Encoded cm rs packets segments sz) (hp : Planned rs) (hsmall : sz < 65536) (hsz : 0 < sz)
    (hnd : reg.Nodup) (hrange : ∀ i ∈ reg, i < rs.numRealBuffers + rs.numFecBuffers)
    (hneed : NeedsRecovery rs reg)
    (hcode : ∀ g < rs.numGroups, 1 < (rs.groupInfos g).numRealBuffers →
      0 < (rs.groupInfos g).numFecBuffers ∧
        MdsAt cm (rs.groupInfos g).numRealBuffers (rs.groupInfos g).numFecBuffers sz)
    (buffer : Option (ℕ → UInt8)) :
    ∃ dec', fecGetDecodedBuffer cm dec buffer = .ok (decoded rs segments dec' buffer) ∧
      Recovered rs segments maxBuf dec' reg := by
  obtain ⟨hen,i,hi,hmiss⟩ := hneed
  obtain ⟨j,hj,hfec⟩ := hen.fec_mem hp hnd hi hmiss
  have hmax : dec.maxPacketSize = sz := by
    have h1 := hh.maxPacket j hj
    have h2 := (he.symbol hp (hrange j hj)).2.1 hfec
    have h3 := hh.maxPacketLe
    omega
  have hcount : dec.numAcceptedRealBuffers ≠ dec.numRealBuffers := by
    rw [hh.acceptedReal, hh.reals]
    exact fun h => hmiss ((reals_complete_iff hnd _).mp h i hi)
  obtain ⟨buffers,hrec,hval⟩ := recoverBuffers_spec hh he hp hnd hrange hen hmax hsz hcode
  have hcan := hh.can_decode hen
  have hr : Recovered rs segments maxBuf { dec with buffers := buffers, recoveryPerformed := true }
      reg := by
    refine ⟨hh.reals,hh.total,hh.maxBuf,rfl,hcan,hen,fun i hi => ?_,fun i hi => ?_⟩
    · exact (hh.sizes i).trans (if_neg hi)
    · have := he.fits i hi
      exact ⟨_,hval i hi,carries_padWithHeader (by omega) sz⟩
  refine ⟨_,?_,hr⟩
  have hbuf := hr.buffers
  rw [← hr.reals] at hbuf
  rw [fecGetDecodedBuffer, hcan]
  dsimp only
  rw [if_pos ⟨hcount,by simp [hh.idle]⟩, hrec]
  dsimp only
  rw [writeDecoded_run hbuf, decoded, ← hr.reals]

theorem Holding.getDecoded_starved (hh : Holding rs packets sz maxBuf dec reg) (hp : Planned rs)
    (hnd : reg.Nodup) (hf : 0 < rs.numFecBuffers) (hs : Starved rs) (hneed : NeedsRecovery rs reg)
    (cm : Cm256) (buffer : Option (ℕ → UInt8)) :
    ∃ e, fecGetDecodedBuffer cm dec buffer = .error e := by
  obtain ⟨hen,i,hi,hmiss⟩ := hneed
  have hcount : dec.numAcceptedRealBuffers ≠ dec.numRealBuffers := by
    rw [hh.acceptedReal, hh.reals]
    exact fun h => hmiss ((reals_complete_iff hnd _).mp h i hi)
  have hs' : Starved dec.rsCode := by
    obtain ⟨g,hg,hk,hm⟩ := hs
    exact ⟨g,hh.counted.numGroups ▸ hg,by rwa [hh.counted.real],by rwa [hh.counted.fec]⟩
  obtain ⟨e,hrec⟩ := recoverBuffers_starved (hh.counted.planned hp)
    (hh.counted.numFec ▸ hf) hs' cm
  rw [fecGetDecodedBuffer, hh.can_decode hen]
  dsimp only
  rw [if_pos ⟨hcount,by simp [hh.idle]⟩, hrec]
  exact ⟨e,rfl⟩

end Recovery

end Whist.Fec
