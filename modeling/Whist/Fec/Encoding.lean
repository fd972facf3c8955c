import Whist.Fec.Fec
import Whist.Fec.Groups

/-! # What the FEC encoder puts on the wire -/
namespace Whist.Fec

theorem readU16_writeU16 {w : ℕ} (h : w < 65536) (rest : Block) :
    readU16 (writeU16 w ++ rest) = some (w,rest) := by
  have hlo : (UInt8.ofNat w).toNat = w % 256 := UInt8.toNat_ofNat'
  have hhi : (UInt8.ofNat (w / 256)).toNat = w / 256 % 256 := UInt8.toNat_ofNat'
  simp only [writeU16, readU16, List.cons_append, List.nil_append, hlo, hhi, Option.some.injEq,
    Prod.mk.injEq, and_true]
  omega

theorem length_writeU16 (w : ℕ) : (writeU16 w).length = fecHeaderSize := rfl

theorem length_padWithHeader {sz : ℕ} {seg : Block} (h : fecHeaderSize + seg.length ≤ sz) :
    (padWithHeader sz seg).length = sz := by
  simp only [padWithHeader, List.length_append, length_writeU16, List.length_replicate]
  omega

theorem numOfSegmentsNeeded_eq {capacity : ℕ} (hc : 0 < capacity) {fuel remaining : ℕ}
    (h : remaining ≤ fuel) :
    numOfSegmentsNeeded capacity fuel remaining = some (intDivRoundup remaining capacity) := by
  induction fuel generalizing remaining with
  | zero =>
    obtain rfl : remaining = 0 := by omega
    simp [numOfSegmentsNeeded, intDivRoundup, Nat.div_eq_of_lt (show capacity - 1 < capacity by omega)]
  | succ fuel ih =>
    cases remaining with
    | zero =>
      simp [numOfSegmentsNeeded, intDivRoundup,
        Nat.div_eq_of_lt (show capacity - 1 < capacity by omega)]
    | succ r =>
      rw [numOfSegmentsNeeded, ih (by omega), Option.map_some, intDivRoundup, intDivRoundup]
      congr 1
      by_cases hle : r + 1 ≤ capacity
      · have h1 : (r + 1 - min (r + 1) capacity + capacity - 1) / capacity = 0 :=
          Nat.div_eq_of_lt (by omega)
        have h2 : (r + 1 + capacity - 1) / capacity = 1 := by
          rw [show r + 1 + capacity - 1 = r + capacity by omega, Nat.add_div_right _ hc,
            Nat.div_eq_of_lt (by omega)]
        omega
      · rw [show r + 1 + capacity - 1 = (r + 1 - min (r + 1) capacity + capacity - 1) + capacity by
          omega, Nat.add_div_right _ hc]

theorem intDivRoundup_even {size capacity : ℕ} (hs : 0 < size) (hc : 0 < capacity) :
    let needed := intDivRoundup size capacity
    0 < needed ∧ 0 < intDivRoundup size needed ∧ intDivRoundup size needed ≤ capacity ∧
      size ≤ needed * intDivRoundup size needed ∧
      (needed - 1) * intDivRoundup size needed < size := by
  intro needed
  have hneeded : 0 < needed := Nat.div_pos (by omega) hc
  have hcap : size ≤ needed * capacity := by
    have := Nat.lt_mul_div_succ (size + capacity - 1) hc
    have h : capacity * ((size + capacity - 1) / capacity + 1) = needed * capacity + capacity := by
      rw [Nat.mul_add_one, Nat.mul_comm]
      rfl
    omega
  have hle : (needed - 1) * capacity < size := by
    have := Nat.div_mul_le_self (size + capacity - 1) capacity
    have h : needed * capacity = (needed - 1) * capacity + capacity := by
      rw [← Nat.add_one_mul]
      congr 1
      omega
    have h' : needed * capacity ≤ size + capacity - 1 := this
    omega
  have hfit : intDivRoundup size needed ≤ capacity := by
    rw [intDivRoundup, Nat.div_le_iff_le_mul_add_pred hneeded]
    omega
  have hcover : size ≤ needed * intDivRoundup size needed := by
    have := Nat.lt_mul_div_succ (size + needed - 1) hneeded
    rw [Nat.mul_add_one] at this
    rw [intDivRoundup]
    omega
  refine ⟨hneeded,Nat.div_pos (by omega) hneeded,hfit,hcover,?_⟩
  exact lt_of_le_of_lt (Nat.mul_le_mul_left _ hfit) hle

/-- The first `a` segments are in place. -/
structure Filled (enc₀ enc : FecEncoder) (e : ℕ) (payload : Block) (a : ℕ) : Prop where
  accepted : enc.numAcceptedBuffers = a
  segments : ∀ j < a, enc.buffers j = some (Bytes.segment e payload j) ∧
    enc.bufferSizes j = (Bytes.segment e payload j).length
  maxPacket : enc.maxPacketSize = if a = 0 then -1 else ((min e payload.length : ℕ) : ℤ)
  numReal : enc.numRealBuffers = enc₀.numRealBuffers
  rsCode : enc.rsCode = enc₀.rsCode
  performed : enc.encodePerformed = enc₀.encodePerformed

theorem registerSegments_spec {enc₀ enc : FecEncoder} {e n fuel a : ℕ} {payload : Block} (he : 0 < e)
    (hcover : payload.length ≤ n * e) (hlast : (n - 1) * e < payload.length)
    (hn : n ≤ enc₀.numRealBuffers) (ha : a ≤ n) (hfuel : (payload.drop (a * e)).length ≤ fuel)
    (hf : Filled enc₀ enc e payload a) :
    ∃ enc', registerSegments e fuel enc (payload.drop (a * e)) = .ok enc' ∧
      Filled enc₀ enc' e payload n := by
  induction fuel generalizing enc a with
  | zero =>
    have hnil : payload.drop (a * e) = [] := List.length_eq_zero_iff.mp (by omega)
    have han : a = n := by
      by_contra hne
      have := Nat.mul_le_mul_right e (show a ≤ n - 1 by omega)
      rw [List.drop_eq_nil_iff] at hnil
      omega
    rw [hnil]
    exact ⟨enc,by rw [registerSegments],han ▸ hf⟩
  | succ fuel ih =>
    cases hrest : payload.drop (a * e) with
    | nil =>
      have han : a = n := by
        by_contra hne
        have := Nat.mul_le_mul_right e (show a ≤ n - 1 by omega)
        rw [List.drop_eq_nil_iff] at hrest
        omega
      exact ⟨enc,by rw [registerSegments],han ▸ hf⟩
    | cons b rest =>
      have hlong : a * e < payload.length := by
        by_contra hle
        rw [List.drop_eq_nil_iff.mpr (by omega)] at hrest
        cases hrest
      have han : a < n := by
        by_contra hge
        have := Nat.mul_le_mul_right e (show n ≤ a by omega)
        omega
      rw [registerSegments, if_neg (by rw [hf.accepted, hf.numReal]; omega), ← hrest, List.drop_drop,
        ← Nat.add_one_mul]
      have hstep : (a + 1) * e = a * e + e := Nat.add_one_mul a e
      refine ih (by omega) ?_ ?_
      · rw [List.length_drop] at hfuel ⊢
        omega
      · have hseg : (payload.drop (a * e)).take e = Bytes.segment e payload a := rfl
        have hlen := Bytes.length_segment e payload a
        refine ⟨by dsimp only; rw [hf.accepted],fun j hj => ?_,?_,hf.numReal,hf.rsCode,hf.performed⟩
        · dsimp only
          rw [hf.accepted, hseg]
          by_cases hja : j = a
          · subst hja
            exact ⟨Function.update_self ..,Function.update_self ..⟩
          · rw [Function.update_of_ne hja, Function.update_of_ne hja]
            exact hf.segments j (by omega)
        · dsimp only
          rw [hf.maxPacket, hseg, hlen, if_neg (Nat.succ_ne_zero a)]
          by_cases hzero : a = 0
          · subst hzero
            rw [if_pos rfl, Nat.zero_mul]
            omega
          · rw [if_neg hzero]
            omega

def segmentsOf (payload : Block) (n : ℕ) (j : ℕ) : Block :=
  Bytes.segment (intDivRoundup payload.length n) payload j

theorem flatten_segmentsOf (payload : Block) {n : ℕ} (hn : 0 < n) :
    ((List.range n).map (segmentsOf payload n)).flatten = payload := by
  have hcover : payload.length ≤ n * intDivRoundup payload.length n := by
    have := Nat.lt_mul_div_succ (payload.length + n - 1) hn
    rw [Nat.mul_add_one] at this
    rw [intDivRoundup]
    omega
  exact (Bytes.flatten_segments _ _ _).trans (List.take_of_length_le hcover)

/-- An encoder of the plan `rs` that holds all of a payload. -/
structure Loaded (rs : RSWrapper) (enc : FecEncoder) (payload : Block) : Prop where
  accepted : enc.numAcceptedBuffers = enc.numRealBuffers
  numReal : enc.numRealBuffers = rs.numRealBuffers
  rsCode : enc.rsCode = rs
  performed : enc.encodePerformed = false
  buffers : ∀ j < rs.numRealBuffers, enc.buffers j = some (segmentsOf payload rs.numRealBuffers j) ∧
    enc.bufferSizes j = (segmentsOf payload rs.numRealBuffers j).length
  fits : ∀ j < rs.numRealBuffers,
    (segmentsOf payload rs.numRealBuffers j).length ≤ enc.maxPacketSize.toNat

theorem fecEncoderRegisterBuffer_spec {n maxBuf : ℕ} {enc : FecEncoder} {payload : Block}
    (hmax : fecHeaderSize < maxBuf ∨ payload = []) (hn : 0 < n)
    (hcount : n = fecEncoderGetNumRealBuffers payload.length maxBuf)
    (hmaxBuf : enc.maxBufferSize = maxBuf) (hreal : enc.numRealBuffers = n)
    (hrs : enc.rsCode.numRealBuffers = n) (hempty : enc.numAcceptedBuffers = 0)
    (hpacket : enc.maxPacketSize = -1) (hperf : enc.encodePerformed = false) :
    ∃ enc', fecEncoderRegisterBuffer enc payload = .ok enc' ∧ Loaded enc.rsCode enc' payload ∧
      enc'.maxPacketSize.toNat ≤ maxBuf - fecHeaderSize := by
  rw [fecEncoderRegisterBuffer]
  by_cases hnil : payload.length = 0
  · rw [if_pos hnil]
    obtain rfl : n = 1 := by rw [hcount, fecEncoderGetNumRealBuffers, if_pos hnil]
    obtain rfl : payload = [] := List.length_eq_zero_iff.mp hnil
    refine ⟨_,rfl,⟨by rw [hreal],hreal.trans hrs.symm,rfl,hperf,fun j hj => ?_,fun j _ => ?_⟩,by simp⟩
    · obtain rfl : j = 0 := by omega
      exact ⟨by simp [segmentsOf, Bytes.segment],by simp [segmentsOf, Bytes.segment]⟩
    · simp [segmentsOf, Bytes.segment]
  · have hcap : 0 < maxBuf - fecHeaderSize := by
      rcases hmax with h | rfl
      · omega
      · simp at hnil
    rw [if_neg hnil, hmaxBuf, numOfSegmentsNeeded_eq hcap le_rfl]
    dsimp only
    rw [fecEncoderGetNumRealBuffers, if_neg hnil] at hcount
    rw [← hcount, if_neg (not_not.mpr hreal.symm)]
    obtain ⟨-,hpos,hfit,hcover,hlast⟩ := intDivRoundup_even (Nat.pos_of_ne_zero hnil) hcap
    rw [← hcount] at hpos hfit hcover hlast
    obtain ⟨enc',hrun,hfill⟩ := @registerSegments_spec enc enc _ n payload.length 0 payload hpos
      hcover hlast hreal.ge (Nat.zero_le _) (by simp) ⟨hempty,by simp,by simp [hpacket],rfl,rfl,rfl⟩
    rw [Nat.zero_mul, List.drop_zero] at hrun
    rw [hrun]
    dsimp only
    have hpacket' := hfill.maxPacket
    rw [if_neg (by omega)] at hpacket'
    rw [if_neg (not_not.mpr (by rw [hfill.accepted, hfill.numReal, hreal]))]
    refine ⟨enc',rfl,⟨?_,?_,hfill.rsCode,hfill.performed.trans hperf,?_,?_⟩,?_⟩
    · rw [hfill.accepted, hfill.numReal, hreal]
    · rw [hfill.numReal, hreal, hrs]
    · rw [hrs]
      exact hfill.segments
    · intro j _
      rw [hpacket', Int.toNat_natCast, segmentsOf, hrs, Bytes.length_segment]
      omega
    · rw [hpacket', Int.toNat_natCast]
      omega

def wire (enc : FecEncoder) (i : ℕ) : Block := ((enc.buffers i).getD []).take (enc.bufferSizes i)

structure Encoded (cm : Cm256) (rs : RSWrapper) (packets segments : ℕ → Block) (sz : ℕ) : Prop where
  real : ∀ i < rs.numRealBuffers, packets i = writeU16 (segments i).length ++ segments i
  fec : ∀ i < rs.numFecBuffers, packets (rs.numRealBuffers + i) =
    symbolAt cm rs (fun i => padWithHeader sz (segments i)) sz (rs.numRealBuffers + i)
  fits : ∀ i < rs.numRealBuffers, fecHeaderSize + (segments i).length ≤ sz

theorem padBuffer_run {rs : RSWrapper} {enc : FecEncoder} {payload : Block} (hl : Loaded rs enc payload)
    (sz : ℕ) :
    ∃ enc', Run.run (padBuffer sz) enc (List.range enc.numRealBuffers) = .ok enc' ∧
      enc'.numRealBuffers = rs.numRealBuffers ∧ enc'.rsCode = rs ∧ ∀ j < rs.numRealBuffers,
        enc'.buffers j = some (padWithHeader sz (segmentsOf payload rs.numRealBuffers j)) ∧
        enc'.bufferSizes j = fecHeaderSize + (segmentsOf payload rs.numRealBuffers j).length := by
  have h := @Run.run_range _ _
    (fun a (e : FecEncoder) => e.numRealBuffers = rs.numRealBuffers ∧ e.rsCode = rs ∧
      (∀ j < a, e.buffers j = some (padWithHeader sz (segmentsOf payload rs.numRealBuffers j)) ∧
        e.bufferSizes j = fecHeaderSize + (segmentsOf payload rs.numRealBuffers j).length) ∧
      ∀ j, a ≤ j → e.buffers j = enc.buffers j ∧ e.bufferSizes j = enc.bufferSizes j)
    (padBuffer sz) enc.numRealBuffers enc ⟨hl.numReal,hl.rsCode,by simp,by simp⟩ ?_
  · obtain ⟨enc',hrun,hreal,hcode,hdone,-⟩ := h
    exact ⟨enc',hrun,hreal,hcode,fun j hj => hdone j (hl.numReal ▸ hj)⟩
  · rintro i hi e ⟨hreal,hcode,hdone,hrest⟩
    obtain ⟨hbuf,hsize⟩ := hl.buffers i (hl.numReal ▸ hi)
    rw [padBuffer, (hrest i le_rfl).1, hbuf]
    refine ⟨_,rfl,hreal,hcode,fun j hj => ?_,fun j hj => ?_⟩
    · dsimp only
      by_cases hji : j = i
      · subst hji
        rw [Function.update_self, Function.update_self, (hrest j le_rfl).2, hsize]
        exact ⟨rfl,rfl⟩
      · rw [Function.update_of_ne hji, Function.update_of_ne hji]
        exact hdone j (by omega)
    · dsimp only
      rw [Function.update_of_ne (by omega), Function.update_of_ne (by omega)]
      exact hrest j (by omega)

theorem groupSymbol_length (cm : Cm256) {k m sz : ℕ} {data : ℕ → Block} (hk : 0 < k)
    (h : ∀ j < k, (data j).length = sz) (j : ℕ) : (groupSymbol cm k m sz data j).length = sz := by
  rw [groupSymbol]
  split_ifs with h1 hj
  · exact h 0 hk
  · exact h j hj
  · exact cm.encode_length ..

theorem Planned.symbolAt_length {rs : RSWrapper} (hp : Planned rs) (cm : Cm256) {src : ℕ → Block}
    {sz : ℕ} (h : ∀ i < rs.numRealBuffers, (src i).length = sz) (i : ℕ) :
    (symbolAt cm rs src sz i).length = sz := by
  refine groupSymbol_length cm (hp.dealt.real_pos (hp.dealt.groupOf_lt i)) (fun j hj => ?_) _
  obtain ⟨hfull,hlt⟩ := hp.dealt.indexSubToFull_real hj
  rw [groupData, hfull]
  exact h _ hlt

theorem Planned.symbolAt_congr {rs : RSWrapper} (hp : Planned rs) (cm : Cm256) {src src' : ℕ → Block}
    (sz : ℕ) (h : ∀ i < rs.numRealBuffers, src i = src' i) (i : ℕ) :
    symbolAt cm rs src sz i = symbolAt cm rs src' sz i := by
  have hgroup := hp.dealt.groupOf_lt i
  have hdata : ∀ j < (rs.groupInfos (groupOf rs i)).numRealBuffers,
      groupData rs src (groupOf rs i) j = groupData rs src' (groupOf rs i) j := by
    intro j hj
    obtain ⟨hfull,hlt⟩ := hp.dealt.indexSubToFull_real hj
    rw [groupData, groupData, hfull]
    exact h _ hlt
  rw [symbolAt, symbolAt, groupSymbol, groupSymbol, hdata 0 (hp.dealt.real_pos hgroup),
    List.map_congr_left (fun j hj => hdata j (List.mem_range.mp hj))]
  split_ifs with h1 hj
  · rfl
  · exact hdata _ hj
  · rfl

theorem fecGetEncodedBuffers_spec {rs : RSWrapper} (hp : Planned rs) (cm : Cm256) {enc : FecEncoder}
    {payload : Block} (hl : Loaded rs enc payload) :
    ∃ enc', fecGetEncodedBuffers cm enc = .ok enc' ∧
      Encoded cm rs (wire enc') (segmentsOf payload rs.numRealBuffers)
        (fecHeaderSize + enc.maxPacketSize.toNat) := by
  have hfits : ∀ i < rs.numRealBuffers,
      fecHeaderSize + (segmentsOf payload rs.numRealBuffers i).length ≤
        fecHeaderSize + enc.maxPacketSize.toNat := fun i hi => Nat.add_le_add_left (hl.fits i hi) _
  rw [fecGetEncodedBuffers, if_neg (not_not.mpr hl.accepted), hl.performed, if_neg (by simp)]
  generalize hsz : fecHeaderSize + enc.maxPacketSize.toNat = sz at *
  obtain ⟨e,hpad,hreal,hcode,hbuf⟩ := padBuffer_run hl sz
  dsimp only
  rw [hpad]
  obtain ⟨dst,henc,hdst⟩ := rsWrapperEncode_spec hp cm (fun i => (e.buffers i).getD []) (fun _ => []) sz
  dsimp only
  rw [hcode, henc]
  have hsrc : ∀ i < rs.numRealBuffers, (e.buffers i).getD [] =
      padWithHeader sz (segmentsOf payload rs.numRealBuffers i) := by
    intro i hi
    rw [(hbuf i hi).1]
    rfl
  have hsym := fun i => hp.symbolAt_congr cm sz hsrc i
  refine ⟨_,rfl,fun i hi => ?_,fun i hi => ?_,hfits⟩
  · simp only [wire, hreal, if_pos hi, (hbuf i hi).1, (hbuf i hi).2, Option.getD_some, padWithHeader]
    rw [List.take_append_of_le_length (by simp [length_writeU16]), List.take_of_length_le
      (by simp [length_writeU16])]
  · have hlen : (dst i).length = sz := by
      rw [hdst i hi, hsym]
      exact hp.symbolAt_length cm (fun i hi => length_padWithHeader (hfits i hi)) _
    simp only [wire, hreal, if_neg (show ¬rs.numRealBuffers + i < rs.numRealBuffers by omega),
      Nat.add_sub_cancel_left, Option.getD_some]
    rw [List.take_of_length_le hlen.le, hdst i hi, hsym]

def encodePayload (cm : Cm256) (payload : Block) (numReal numFec maxBuf : ℕ) :
    Except FecFatal FecEncoder := do
  let enc ← createFecEncoder numReal numFec maxBuf
  let enc ← fecEncoderRegisterBuffer enc payload
  fecGetEncodedBuffers cm enc

section Payload
variable {payload : Block} {numReal numFec maxBuf : ℕ} {rs : RSWrapper}

theorem createFecEncoder_eq (hrs : rsWrapperCreate numReal numFec = .ok rs)
    (hlimit : maxBuf ≤ maxBufferSizeLimit) (hheader : fecHeaderSize ≤ maxBuf) :
    createFecEncoder numReal numFec maxBuf = .ok {
      numBuffers := numReal + numFec
      numRealBuffers := numReal
      maxBufferSize := maxBuf
      rsCode := rs } := by
  rw [createFecEncoder, if_neg (not_not.mpr ⟨hlimit,hheader⟩), hrs]

theorem encodePayload_spec (cm : Cm256) (hrs : rsWrapperCreate numReal numFec = .ok rs)
    (hp : Planned rs) (hn : rs.numRealBuffers = numReal) (hpos : 0 < numReal)
    (hlimit : maxBuf ≤ maxBufferSizeLimit) (hheader : fecHeaderSize ≤ maxBuf)
    (hfit : payload.length ≤ numReal * (maxBuf - fecHeaderSize))
    (hcount : numReal = fecEncoderGetNumRealBuffers payload.length maxBuf) :
    ∃ enc sz, encodePayload cm payload numReal numFec maxBuf = .ok enc ∧
      Encoded cm rs (wire enc) (segmentsOf payload numReal) sz ∧ sz ≤ maxBuf ∧ 0 < sz := by
  have hmax : fecHeaderSize < maxBuf ∨ payload = [] := by
    by_contra h
    rw [not_or] at h
    rw [show maxBuf - fecHeaderSize = 0 by omega, Nat.mul_zero, Nat.le_zero,
      List.length_eq_zero_iff] at hfit
    exact h.2 hfit
  obtain ⟨enc,hreg,hload,hsize⟩ := @fecEncoderRegisterBuffer_spec numReal maxBuf {
      numBuffers := numReal + numFec
      numRealBuffers := numReal
      maxBufferSize := maxBuf
      rsCode := rs } payload hmax hpos hcount rfl rfl hn rfl rfl rfl
  obtain ⟨enc',hget,henc⟩ := fecGetEncodedBuffers_spec hp cm hload
  refine ⟨enc',_,?_,hn ▸ henc,?_,?_⟩
  · rw [encodePayload, createFecEncoder_eq hrs hlimit hheader]
    change (fecEncoderRegisterBuffer _ payload >>= fecGetEncodedBuffers cm) = _
    rw [hreg]
    exact hget
  · omega
  · rw [fecHeaderSize]
    omega

theorem encodePayload_error (cm : Cm256) (hrs : rsWrapperCreate numReal numFec = .ok rs)
    (hlimit : maxBuf ≤ maxBufferSizeLimit) (hheader : fecHeaderSize ≤ maxBuf)
    (hfit : payload.length ≤ numReal * (maxBuf - fecHeaderSize))
    (hcount : numReal ≠ fecEncoderGetNumRealBuffers payload.length maxBuf) :
    ∃ e, encodePayload cm payload numReal numFec maxBuf = .error e := by
  rw [encodePayload, createFecEncoder_eq hrs hlimit hheader]
  change ∃ e, (fecEncoderRegisterBuffer _ payload >>= fecGetEncodedBuffers cm) = .error e
  rw [fecEncoderRegisterBuffer]
  by_cases hnil : payload.length = 0
  · rw [fecEncoderGetNumRealBuffers, if_pos hnil] at hcount
    rw [if_pos hnil]
    exact ⟨_,if_pos (fun h => hcount h.symm)⟩
  · have hcap : 0 < maxBuf - fecHeaderSize := by
      by_contra h
      rw [show maxBuf - fecHeaderSize = 0 by omega] at hfit
      omega
    rw [fecEncoderGetNumRealBuffers, if_neg hnil] at hcount
    rw [if_neg hnil, numOfSegmentsNeeded_eq hcap le_rfl]
    dsimp only
    rw [if_pos (fun h => hcount h.symm)]
    exact ⟨_,rfl⟩

end Payload

end Whist.Fec
