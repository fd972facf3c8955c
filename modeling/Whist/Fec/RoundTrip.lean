import Whist.Fec.Decoding

/-! # Round trips through the FEC encoder and decoder -/
namespace Whist.Fec

/-- A call on the decoder; `register` passes the packet of that index. -/
inductive DecoderCall
  | register (index : ℕ)
  | getDecoded (buffer : Option (ℕ → UInt8))

/-- What `fec_get_decoded_buffer` returns, and the buffer it was given. -/
structure DecoderReply where
  size : ℤ
  buffer : Option (ℕ → UInt8)

structure Session where
  dec : FecDecoder
  replies : List DecoderReply := []

def decoderStep (cm : Cm256) (packets : ℕ → Block) (s : Session) : DecoderCall → Except FecFatal Session
  | .register index =>
    match fecDecoderRegisterBuffer s.dec index (packets index) with
    | .error e => .error e
    | .ok dec => .ok { s with dec := dec }
  | .getDecoded buffer =>
    match fecGetDecodedBuffer cm s.dec buffer with
    | .error e => .error e
    | .ok r => .ok ⟨r.2.1,s.replies ++ [⟨r.1,r.2.2⟩]⟩

/-- All replies of a decoder for the payload, or the assertion that failed on the way. -/
def roundTrip (cm : Cm256) (payload : Block) (numReal numFec maxBuf : ℕ) (calls : List DecoderCall) :
    Except FecFatal (List DecoderReply) := do
  let enc ← encodePayload cm payload numReal numFec maxBuf
  let dec ← createFecDecoder numReal numFec maxBuf
  let s ← Run.run (decoderStep cm (wire enc)) { dec := dec } calls
  return s.replies

def registered (calls : List DecoderCall) : List ℕ :=
  calls.filterMap (fun call =>
    match call with
    | .register index => some index
    | .getDecoded _ => none)

instance (rs : RSWrapper) (index : List ℕ) : Decidable (EnoughOf rs index) :=
  inferInstanceAs (Decidable (∀ g < rs.numGroups, (rs.groupInfos g).numRealBuffers ≤
    (index.filter (fun i => groupOf rs i = g)).length))

/-- The payload and its size once every group has enough packets, and -1 with the
buffer untouched before. -/
def expectedReplies (rs : RSWrapper) (payload : Block) (reg : List ℕ) :
    List DecoderCall → List DecoderReply
  | [] => []
  | .register index :: calls => expectedReplies rs payload (reg ++ [index]) calls
  | .getDecoded buffer :: calls =>
    (if EnoughOf rs reg then
      ⟨payload.length,buffer.map (fun mem => Bytes.writeAt mem 0 payload)⟩
    else ⟨-1,buffer⟩) :: expectedReplies rs payload reg calls

def RecoveryCalled (rs : RSWrapper) (calls : List DecoderCall) : Prop :=
  ∃ pre buffer post, calls = pre ++ .getDecoded buffer :: post ∧ NeedsRecovery rs (registered pre)

theorem registered_append (pre post : List DecoderCall) :
    registered (pre ++ post) = registered pre ++ registered post := by
  rw [registered, List.filterMap_append]
  rfl

theorem expectedReplies_append (rs : RSWrapper) (payload : Block) (reg : List ℕ)
    (pre post : List DecoderCall) :
    expectedReplies rs payload reg (pre ++ post) = expectedReplies rs payload reg pre ++
      expectedReplies rs payload (reg ++ registered pre) post := by
  induction pre generalizing reg with
  | nil => simp [expectedReplies, registered]
  | cons call pre ih =>
    cases call with
    | register index =>
      rw [List.cons_append, expectedReplies, ih, expectedReplies, List.append_assoc]
      rfl
    | getDecoded buffer =>
      rw [List.cons_append, expectedReplies, ih, expectedReplies, List.cons_append]
      rfl

section Run
variable {cm : Cm256} {rs : RSWrapper} {packets segments : ℕ → Block} {sz maxBuf : ℕ}
  {payload : Block}

def Sound (rs : RSWrapper) (packets segments : ℕ → Block) (sz maxBuf : ℕ) (payload : Block)
    (pre : List DecoderCall) (s : Session) : Prop :=
  (Holding rs packets sz maxBuf s.dec (registered pre) ∨
    Recovered rs segments maxBuf s.dec (registered pre) ∧ ¬Starved rs) ∧
  s.replies = expectedReplies rs payload [] pre

theorem sound_register {s : Session} {pre : List DecoderCall} {i : ℕ}
    (hs : Sound rs packets segments sz maxBuf payload pre s) (he : Encoded cm rs packets segments sz)
    (hp : Planned rs) (hsz : sz ≤ maxBuf) (hi : i < rs.numRealBuffers + rs.numFecBuffers)
    (hnew : i ∉ registered pre) :
    ∃ t, decoderStep cm packets s (.register i) = .ok t ∧
      Sound rs packets segments sz maxBuf payload (pre ++ [.register i]) t := by
  obtain ⟨hdec,hreplies⟩ := hs
  have hreg : registered (pre ++ [.register i]) = registered pre ++ [i] := registered_append _ _
  have hexp : expectedReplies rs payload [] (pre ++ [.register i]) =
      expectedReplies rs payload [] pre := by
    rw [expectedReplies_append, expectedReplies, expectedReplies, List.append_nil]
  rw [decoderStep]
  rcases hdec with hh | ⟨hr,hfed⟩
  · obtain ⟨dec,hstep,hh'⟩ := hh.register he hp hsz hi hnew
    rw [hstep]
    exact ⟨_,rfl,Or.inl (hreg ▸ hh'),hreplies.trans hexp.symm⟩
  · obtain ⟨hstep,hr'⟩ := hr.register he hp hsz hi hnew
    rw [hstep]
    exact ⟨_,rfl,Or.inr ⟨hreg ▸ hr',hfed⟩,hreplies.trans hexp.symm⟩

theorem sound_getDecoded {s : Session} {pre : List DecoderCall} {buffer : Option (ℕ → UInt8)}
    (hs : Sound rs packets segments sz maxBuf payload pre s) (he : Encoded cm rs packets segments sz)
    (hp : Planned rs) (hsmall : sz < 65536) (hsz : 0 < sz) (hnd : (registered pre).Nodup)
    (hrange : ∀ i ∈ registered pre, i < rs.numRealBuffers + rs.numFecBuffers)
    (hpayload : ((List.range rs.numRealBuffers).map segments).flatten = payload)
    (hmds : ¬Starved rs → ∀ g < rs.numGroups, 1 < (rs.groupInfos g).numRealBuffers →
      0 < (rs.groupInfos g).numFecBuffers →
        MdsAt cm (rs.groupInfos g).numRealBuffers (rs.groupInfos g).numFecBuffers sz)
    (hfed : NeedsRecovery rs (registered pre) → ¬Starved rs) :
    ∃ t, decoderStep cm packets s (.getDecoded buffer) = .ok t ∧
      Sound rs packets segments sz maxBuf payload (pre ++ [.getDecoded buffer]) t := by
  obtain ⟨hdec,hreplies⟩ := hs
  have hreg : registered (pre ++ [.getDecoded buffer]) = registered pre := by
    rw [registered_append, registered, registered]
    simp
  have hexp : ∀ reply, reply = (if EnoughOf rs (registered pre) then
      ⟨payload.length,buffer.map (fun mem => Bytes.writeAt mem 0 payload)⟩ else ⟨-1,buffer⟩) →
      s.replies ++ [reply] = expectedReplies rs payload [] (pre ++ [.getDecoded buffer]) := by
    rintro _ rfl
    rw [expectedReplies_append, hreplies]
    rfl
  have hfull : EnoughOf rs (registered pre) → ∀ dec,
      s.replies ++ [⟨(decoded rs segments dec buffer).1,(decoded rs segments dec buffer).2.2⟩] =
        expectedReplies rs payload [] (pre ++ [.getDecoded buffer]) := by
    intro hen dec
    apply hexp
    rw [if_pos hen, decoded, hpayload]
  rw [decoderStep]
  rcases hdec with hh | ⟨hr,hfed⟩
  · by_cases hen : EnoughOf rs (registered pre)
    · by_cases hall : ∀ i < rs.numRealBuffers, i ∈ registered pre
      · rw [hh.getDecoded_complete he hsmall hnd hen hall cm buffer]
        exact ⟨_,rfl,Or.inl (hreg ▸ hh),hfull hen _⟩
      · push Not at hall
        have hstarved := hfed ⟨hen,hall⟩
        have hcode : ∀ g < rs.numGroups, 1 < (rs.groupInfos g).numRealBuffers →
            0 < (rs.groupInfos g).numFecBuffers ∧
              MdsAt cm (rs.groupInfos g).numRealBuffers (rs.groupInfos g).numFecBuffers sz := by
          intro g hg hk
          have hm : 0 < (rs.groupInfos g).numFecBuffers :=
            Nat.pos_of_ne_zero (fun h => hstarved ⟨g,hg,hk,h⟩)
          exact ⟨hm,hmds hstarved g hg hk hm⟩
        obtain ⟨dec',hget,hr⟩ :=
          hh.getDecoded_recover he hp hsmall hsz hnd hrange ⟨hen,hall⟩ hcode buffer
        rw [hget]
        exact ⟨_,rfl,Or.inr ⟨hreg ▸ hr,hstarved⟩,hfull hen _⟩
    · rw [hh.getDecoded_early hen cm buffer]
      exact ⟨_,rfl,Or.inl (hreg ▸ hh),hexp _ (if_neg hen).symm⟩
  · rw [hr.getDecoded cm buffer]
    exact ⟨_,rfl,Or.inr ⟨hreg ▸ hr,hfed⟩,hfull hr.enough _⟩

end Run

theorem rsWrapperCreate_counted {numReal numFec : ℕ} {rs : RSWrapper} (hreal : 0 < numReal)
    (hfec : 0 < numFec) (hrs : rsWrapperCreate numReal numFec = .ok rs) :
    Planned rs ∧ rs.numRealBuffers = numReal ∧ rs.numFecBuffers = numFec ∧ Counted rs rs [] := by
  obtain ⟨rs',hrs',hp,hn,hm,-,hpending,hzero⟩ := rsWrapperCreate_spec hreal hfec
  obtain rfl : rs = rs' := Except.ok.inj (hrs.symm.trans hrs')
  exact ⟨hp,hn,hm,Counted.nil hp.dealt hpending hzero⟩

section RoundTrip
variable {payload : Block} {numReal numFec maxBuf : ℕ} {calls : List DecoderCall} {rs : RSWrapper}

theorem roundTrip_of_encoded (cm : Cm256) {enc : FecEncoder} {sz : ℕ} (hp : Planned rs)
    (hrs : rsWrapperCreate numReal numFec = .ok rs) (hn : rs.numRealBuffers = numReal)
    (hm : rs.numFecBuffers = numFec) (hcounted : Counted rs rs []) (hfec : 0 < numFec)
    (hlimit : maxBuf ≤ maxBufferSizeLimit) (henc : encodePayload cm payload numReal numFec maxBuf = .ok enc)
    (he : Encoded cm rs (wire enc) (segmentsOf payload numReal) sz) (hsz : sz ≤ maxBuf) (hpos : 0 < sz)
    (hnd : (registered calls).Nodup) (hrange : ∀ i ∈ registered calls, i < numReal + numFec)
    (hmds : ¬Starved rs → ∀ g < rs.numGroups, 1 < (rs.groupInfos g).numRealBuffers →
      0 < (rs.groupInfos g).numFecBuffers →
        MdsAt cm (rs.groupInfos g).numRealBuffers (rs.groupInfos g).numFecBuffers sz) :
    roundTrip cm payload numReal numFec maxBuf calls = .ok (expectedReplies rs payload [] calls) ∧
        (RecoveryCalled rs calls → ¬Starved rs) ∨
      (∃ e, roundTrip cm payload numReal numFec maxBuf calls = .error e) ∧
        ¬(RecoveryCalled rs calls → ¬Starved rs) := by
  have hdec : createFecDecoder numReal numFec maxBuf = .ok {
      numBuffers := numReal + numFec
      numRealBuffers := numReal
      maxBufferSize := maxBuf
      rsCode := rs } := by
    rw [createFecDecoder, if_neg (not_not.mpr hlimit), hrs]
  have hpayload : ((List.range rs.numRealBuffers).map (segmentsOf payload numReal)).flatten = payload :=
    hn ▸ flatten_segmentsOf payload (lt_of_lt_of_le hp.groups (hn ▸ hp.groupsLe))
  have hsmall : sz < 65536 := by
    rw [maxBufferSizeLimit] at hlimit
    omega
  have hgood : (RecoveryCalled rs calls → ¬Starved rs) ↔
      ∀ pre call post, calls = pre ++ call :: post →
        (∃ buffer, call = .getDecoded buffer) → NeedsRecovery rs (registered pre) → ¬Starved rs := by
    constructor
    · rintro h pre _ post hcalls ⟨buffer,rfl⟩ hneed
      exact h ⟨pre,buffer,post,hcalls,hneed⟩
    · rintro h ⟨pre,buffer,post,hcalls,hneed⟩
      exact h pre _ post hcalls ⟨buffer,rfl⟩ hneed
  have hpre : ∀ pre call post, calls = pre ++ call :: post →
      (registered pre).Nodup ∧ ∀ i ∈ registered pre, i < rs.numRealBuffers + rs.numFecBuffers := by
    intro pre call post hcalls
    rw [hcalls, registered_append] at hnd hrange
    exact ⟨hnd.sublist (List.sublist_append_left _ _),fun i hi => by
      rw [hn, hm]
      exact hrange i (List.mem_append_left _ hi)⟩
  have h := @Run.run_ok_or_error_of_calls _ _ _ (decoderStep cm (wire enc))
    (Sound rs (wire enc) (segmentsOf payload numReal) sz maxBuf payload)
    (fun pre call => (∃ buffer, call = DecoderCall.getDecoded buffer) →
      NeedsRecovery rs (registered pre) → ¬Starved rs) calls { dec := {
        numBuffers := numReal + numFec
        numRealBuffers := numReal
        maxBufferSize := maxBuf
        rsCode := rs } } ?_ ?_ ?_
  · rcases h with ⟨⟨s,hrun,-,hreplies⟩,hall⟩ | ⟨⟨e,herr⟩,hnot⟩
    · refine Or.inl ⟨?_,hgood.mpr hall⟩
      simp only [roundTrip, henc, hdec, bind, Except.bind, hrun, pure, Except.pure, hreplies]
    · refine Or.inr ⟨⟨e,?_⟩,fun h => hnot (hgood.mp h)⟩
      simp only [roundTrip, henc, hdec, bind, Except.bind, herr]
  · refine ⟨Or.inl ⟨hn.symm,by rw [hn, hm],rfl,rfl,hcounted,by simp [registered],by simp [registered],
      rfl,by simp [registered],by simp [registered],?_⟩,rfl⟩
    dsimp only
    omega
  · intro pre call post s hcalls hs hfed
    obtain ⟨hnd',hrange'⟩ := hpre pre call post hcalls
    cases call with
    | register i =>
      have hall : registered calls = registered pre ++ i :: registered post := by
        rw [hcalls, registered_append]
        rfl
      refine sound_register hs he hp hsz ?_ ?_
      · rw [hn, hm]
        exact hrange i (by rw [hall]; simp)
      · rw [hall, List.nodup_append] at hnd
        exact fun h => hnd.2.2 i h i (by simp) rfl
    | getDecoded buffer =>
      exact sound_getDecoded hs he hp hsmall hpos hnd' hrange' hpayload hmds (hfed ⟨buffer,rfl⟩)
  · intro pre call post s hcalls hs hbad
    push Not at hbad
    obtain ⟨⟨buffer,rfl⟩,hneed,hstarved⟩ := hbad
    obtain ⟨hnd',-⟩ := hpre pre _ post hcalls
    rcases hs.1 with hh | ⟨-,hfed⟩
    · obtain ⟨e,he⟩ := hh.getDecoded_starved hp hnd' (hm ▸ hfec) hstarved hneed cm buffer
      exact ⟨e,by rw [decoderStep, he]⟩
    · exact absurd hstarved hfed

/-- Every reply is the expected one if and only if the number of real buffers is the one
the payload asks for and no recovery is asked of a partition with a starved group. -/
theorem roundTrip_exact_iff (cm : Cm256) (hrs : rsWrapperCreate numReal numFec = .ok rs)
    (hreal : 1 ≤ numReal) (hfec : 1 ≤ numFec) (hheader : fecHeaderSize ≤ maxBuf)
    (hlimit : maxBuf ≤ maxBufferSizeLimit) (hfit : payload.length ≤ numReal * (maxBuf - fecHeaderSize))
    (hnd : (registered calls).Nodup) (hrange : ∀ i ∈ registered calls, i < numReal + numFec)
    (hmds : ∀ g < rs.numGroups, 1 < (rs.groupInfos g).numRealBuffers →
      0 < (rs.groupInfos g).numFecBuffers → ∀ sz, 0 < sz →
        MdsAt cm (rs.groupInfos g).numRealBuffers (rs.groupInfos g).numFecBuffers sz) :
    roundTrip cm payload numReal numFec maxBuf calls = .ok (expectedReplies rs payload [] calls) ↔
      numReal = fecEncoderGetNumRealBuffers payload.length maxBuf ∧
        (RecoveryCalled rs calls → ¬Starved rs) := by
  obtain ⟨hp,hn,hm,hcounted⟩ := rsWrapperCreate_counted hreal hfec hrs
  by_cases hcount : numReal = fecEncoderGetNumRealBuffers payload.length maxBuf
  · obtain ⟨enc,sz,henc,he,hsz,hpos⟩ :=
      encodePayload_spec cm hrs hp hn hreal hlimit hheader hfit hcount
    rcases roundTrip_of_encoded cm hp hrs hn hm hcounted hfec hlimit henc he hsz hpos hnd hrange
        (fun _ g hg hk hm => hmds g hg hk hm sz hpos) with ⟨hok,hfed⟩ | ⟨⟨e,herr⟩,hnot⟩
    · exact ⟨fun _ => ⟨hcount,hfed⟩,fun _ => hok⟩
    · refine ⟨fun h => ?_,fun h => absurd h.2 hnot⟩
      rw [herr] at h
      cases h
  · obtain ⟨e,henc⟩ := encodePayload_error cm hrs hlimit hheader hfit hcount
    refine ⟨fun h => ?_,fun h => absurd h.1 hcount⟩
    simp [roundTrip, henc, bind, Except.bind] at h

end RoundTrip

def parity (bytes : List UInt8) : UInt8 := bytes.foldr (· ^^^ ·) 0

theorem parity_perm {a b : List UInt8} (h : a.Perm b) : parity a = parity b := by
  induction h with
  | nil => rfl
  | cons x _ ih => exact congrArg (x ^^^ ·) ih
  | swap x y l =>
    change y ^^^ (x ^^^ parity l) = x ^^^ (y ^^^ parity l)
    rw [← UInt8.xor_assoc, ← UInt8.xor_assoc, UInt8.xor_comm y x]
  | trans _ _ ih₁ ih₂ => exact ih₁.trans ih₂

def parityCode : Cm256 where
  encodeBlock _ _ bytes originals _ :=
    (List.range bytes).map (fun i => parity (originals.map (fun block => block.getD i 0)))
  decode originalCount _ bytes blocks :=
    let rows := blocks.map Prod.fst
    let erased := ((List.range originalCount).find? (fun row => row ∉ rows)).getD 0
    let block := (List.range bytes).map (fun i => parity (blocks.map (fun block => block.2.getD i 0)))
    blocks.map (fun b => if b.1 < originalCount then b else (erased,block))
  encode_length := by simp

theorem range_map_getD {a : Block} {sz : ℕ} (ha : a.length = sz) {byte : ℕ → UInt8}
    (hbyte : ∀ i < sz, byte i = a.getD i 0) : (List.range sz).map byte = a := by
  apply List.ext_getElem (by simp [ha])
  intro i hi hi'
  simp [hbyte i (by omega), hi']

theorem parity_missing {k e : ℕ} (he : e < k) (byte : ℕ → UInt8) :
    parity (parity ((List.range k).map byte) :: ((List.range k).erase e).map byte) = byte e := by
  have hperm := (List.perm_cons_erase (List.mem_range.mpr he)).map byte
  rw [parity_perm hperm]
  change (byte e ^^^ parity (((List.range k).erase e).map byte)) ^^^
    parity (((List.range k).erase e).map byte) = byte e
  rw [UInt8.xor_assoc, UInt8.xor_self, UInt8.xor_zero]

theorem labels_perm_of_parity {k : ℕ} {labels : List ℕ} (hlen : labels.length = k)
    (hnd : labels.Nodup) (hlt : ∀ i ∈ labels, i < k + 1) (hk : k ∈ labels) :
    ∃ e < k, (List.range k).find? (fun row => row ∉ labels) = some e ∧
      labels.Perm (k :: (List.range k).erase e) := by
  cases hfind : (List.range k).find? (fun row => row ∉ labels) with
  | none =>
    have hsub : (List.range (k + 1)).Subperm labels := List.nodup_range.subperm (fun i hi => by
      by_cases hik : i = k
      · exact hik ▸ hk
      · have := List.find?_eq_none.mp hfind i (by have := List.mem_range.mp hi; simp; omega)
        simpa using this)
    have := hsub.length_le
    rw [List.length_range] at this
    omega
  | some e =>
    have he := List.mem_range.mp (List.mem_of_find?_eq_some hfind)
    have hmiss : e ∉ labels := by
      have := List.find?_some hfind
      simpa using this
    refine ⟨e,he,rfl,List.Subperm.perm_of_length_le (hnd.subperm (fun i hi => ?_)) ?_⟩
    · have hie : i ≠ e := fun h => hmiss (h ▸ hi)
      by_cases hik : i = k
      · exact hik ▸ List.mem_cons_self
      · refine List.mem_cons_of_mem _ ((List.mem_erase_of_ne hie).mpr (List.mem_range.mpr ?_))
        have := hlt i hi
        omega
    · rw [List.length_cons, List.length_erase_of_mem (List.mem_range.mpr he), List.length_range]
      omega

theorem parityCode_mds {k sz : ℕ} (hk : 1 < k) (hk' : k < 256) (hsz : 0 < sz) :
    MdsAt parityCode k 1 sz := by
  intro data labels hdata hlen hnd hlt
  have hreal : ∀ i < k, groupSymbol parityCode k 1 sz data i = data i := fun i hi => by
    rw [groupSymbol, if_neg (by omega), if_pos hi]
  generalize hblocks : labels.map (fun i => (i,groupSymbol parityCode k 1 sz data i)) = blocks
  have hrows : blocks.map Prod.fst = labels := by simp [← hblocks, Function.comp_def]
  have hguard : ∀ bs : List (ℕ × Block), (cm256Decode parityCode k 1 sz blocks).2 = bs ↔
      (if (labels.filter (fun row => row < k)).length = k then blocks
        else parityCode.decode k 1 sz blocks) = bs := by
    intro bs
    have hl : blocks.length = k := by rw [← hblocks, List.length_map, hlen]
    rw [cm256Decode, if_neg (by omega), if_neg (by omega)]
    dsimp only
    rw [hrows, if_neg (not_not.mpr (hnd.filter _)), hl]
    split_ifs <;> rfl
  by_cases hmem : k ∈ labels
  · obtain ⟨e,he,hfind,hperm⟩ := labels_perm_of_parity hlen hnd hlt hmem
    have hfew : (labels.filter (fun row => row < k)).length ≠ k := by
      intro h
      have := List.length_filter_eq_length_iff.mp (h.trans hlen.symm) k hmem
      simp at this
    have hrest : ∀ i ∈ (List.range k).erase e, i < k := fun i hi =>
      List.mem_range.mp (List.mem_of_mem_erase hi)
    have hblock : (List.range sz).map (fun i =>
        parity (blocks.map (fun block => block.2.getD i 0))) = data e := by
      refine range_map_getD (hdata e he) (fun i hi => ?_)
      rw [← parity_missing he (fun j => (data j).getD i 0), ← hblocks, List.map_map]
      refine (parity_perm (hperm.map _)).trans ?_
      rw [List.map_cons]
      congr 2
      · have hsym : groupSymbol parityCode k 1 sz data k = (List.range sz).map (fun i =>
            parity (((List.range k).map data).map (fun block => block.getD i 0))) := by
          rw [groupSymbol, if_neg (by omega), if_neg (by omega)]
          rfl
        simp [hsym, hi, Function.comp_def]
      · exact List.map_congr_left (fun j hj => by
          rw [Function.comp_apply, hreal j (hrest j hj)])
    have hdec : parityCode.decode k 1 sz blocks =
        labels.map (fun i => if i < k then (i,data i) else (e,data e)) := by
      change blocks.map (fun b => if b.1 < k then b
        else (((List.range k).find? (fun row => row ∉ blocks.map Prod.fst)).getD 0,_)) = _
      rw [hrows, hfind, hblock, ← hblocks, List.map_map]
      refine List.map_congr_left (fun i _ => ?_)
      dsimp only [Function.comp_apply, Option.getD_some]
      split_ifs with hi
      · rw [hreal i hi]
      · rfl
    have hres := (hguard _).mpr ((if_neg hfew).trans hdec)
    dsimp only
    rw [hres]
    refine ⟨?_,fun b hb => ?_⟩
    · rw [List.map_map]
      refine (hperm.map _).trans ?_
      rw [List.map_cons]
      have hid : ((List.range k).erase e).map
          (Prod.fst ∘ fun i => if i < k then (i,data i) else (e,data e)) = (List.range k).erase e := by
        conv_rhs => rw [← List.map_id ((List.range k).erase e)]
        exact List.map_congr_left (fun i hi => by simp [hrest i hi])
      rw [hid, Function.comp_apply, if_neg (by omega)]
      exact (List.perm_cons_erase (List.mem_range.mpr he)).symm
    · obtain ⟨i,-,rfl⟩ := List.mem_map.mp hb
      split_ifs <;> rfl
  · have hall : ∀ i ∈ labels, i < k := fun i hi => by
      have hik : i ≠ k := fun h => hmem (h ▸ hi)
      have := hlt i hi
      omega
    have hfull : (labels.filter (fun row => row < k)).length = k := by
      rw [List.filter_eq_self.mpr (fun i hi => decide_eq_true (hall i hi)), hlen]
    have hres := (hguard _).mpr (if_pos hfull)
    dsimp only
    rw [hres, hrows]
    refine ⟨?_,fun b hb => ?_⟩
    · exact (hnd.subperm (fun i hi => List.mem_range.mpr (hall i hi))).perm_of_length_le (by simp [hlen])
    · rw [← hblocks] at hb
      obtain ⟨i,hi,rfl⟩ := List.mem_map.mp hb
      exact hreal i (hall i hi)

/-- Three bytes in two buffers with one redundant one: the second buffer is lost. -/
theorem roundTrip_parity : roundTrip parityCode [1,2,3] 2 1 4
    [.register 2,.getDecoded none,.register 0,.getDecoded none] = .ok [⟨-1,none⟩,⟨3,none⟩] := by
  obtain ⟨rs,hrs,hp,hn,hm,hgroups,-⟩ := @rsWrapperCreate_spec 2 1 (by omega) (by omega)
  have hone : rs.numGroups = 1 := hgroups.trans (by decide +kernel)
  have hreal : (rs.groupInfos 0).numRealBuffers = 2 := by rw [hp.real_one hone, hn]
  have hfec : (rs.groupInfos 0).numFecBuffers = 1 := by rw [hp.fec, hone, hm]; rfl
  have hgroup : ∀ i, groupOf rs i = 0 := fun i => by have := hp.dealt.groupOf_lt i; omega
  have henough : ∀ index : List ℕ, EnoughOf rs index ↔ 2 ≤ index.length := by
    intro index
    simp [EnoughOf, hone, hreal, hgroup]
  have h := (@roundTrip_exact_iff [1,2,3] 2 1 4
    [.register 2,.getDecoded none,.register 0,.getDecoded none] rs parityCode hrs (by decide) (by decide)
    (by decide) (by decide) (by decide) (by decide) (by decide) ?_).mpr ⟨by decide,?_⟩
  · rw [h]
    simp [expectedReplies, henough]
  · intro g hg _ _ sz hsz
    obtain rfl : g = 0 := by omega
    rw [hreal, hfec]
    exact parityCode_mds (by omega) (by omega) hsz
  · rintro - ⟨g,hg,-,hzero⟩
    obtain rfl : g = 0 := by omega
    omega

/-- 256 real buffers and one redundant one make two groups, the second without a
redundant buffer.  With the first real buffer lost every group has enough packets,
and the decoder aborts. -/
theorem starved_partition_aborts : (∃ e, roundTrip parityCode (List.replicate 256 0) 256 1 3
      ((List.range' 1 256).map .register ++ [.getDecoded none]) = .error e) ∧
    MdsAt parityCode 128 1 3 := by
  refine ⟨?_,parityCode_mds (by omega) (by omega) (by omega)⟩
  obtain ⟨rs,hrs,hp,hn,hm,hgroups,-⟩ := @rsWrapperCreate_spec 256 1 (by omega) (by omega)
  have htwo : rs.numGroups = 2 := hgroups.trans (by decide +kernel)
  obtain ⟨-,-,-,hcounted⟩ := rsWrapperCreate_counted (by omega) (by omega) hrs
  have hreg : registered ((List.range' 1 256).map .register ++ [.getDecoded none]) =
      List.range' 1 256 := by decide +kernel
  have hstarved : Starved rs := by
    refine ⟨1,by omega,?_,?_⟩
    · rw [hp.real, hn, htwo]
      decide
    · rw [hp.fec, hm, htwo]
      decide
  have hneed : NeedsRecovery rs (registered ((List.range' 1 256).map .register)) := by
    refine ⟨?_,0,by omega,by decide +kernel⟩
    intro g hg
    simp only [hp.real, groupOf, hn, htwo]
    obtain rfl | rfl : g = 0 ∨ g = 1 := by omega
    · decide +kernel
    · decide +kernel
  obtain ⟨enc,sz,henc,he,hsz,hpos⟩ := @encodePayload_spec (List.replicate 256 0) 256 1 3 rs parityCode hrs hp hn
    (by decide) (by decide) (by decide) (by decide +kernel) (by decide +kernel)
  have hrange : ∀ i ∈ List.range' 1 256, i < 256 + 1 := fun i hi => by
    have := List.mem_range'_1.mp hi
    omega
  rcases roundTrip_of_encoded parityCode hp hrs hn hm hcounted (by decide) (by decide) henc he hsz hpos
    (by rw [hreg]; exact List.nodup_range') (by rwa [hreg]) (fun h => absurd hstarved h) with ⟨-,hfed⟩ | ⟨herr,-⟩
  · exact absurd hstarved (hfed ⟨_,none,[],rfl,hneed⟩)
  · exact herr

end Whist.Fec
