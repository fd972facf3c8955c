import Whist.Fec.RoundTrip
import Whist.Network.NackBuffer

/-! # What sender and receiver take -/
namespace Whist.Udp
open Fec

def maxPackets : ℕ := maxVideoPackets * 2
def largestVideoframeSize : ℕ := 4000000

def largestFrameSize (maxFrameSize : ℕ) : ℕ := packetHeaderSize + maxFrameSize

def Acceptable (maxFrameSize : ℕ) (s : WhistSegment) : Prop :=
  s.numIndices ≤ maxPackets ∧
    s.index * maxPacketSegmentSize + s.segmentSize < largestFrameSize maxFrameSize

/-- The video nack buffer of `client_connect_socket`. -/
def serverVideoBuffer : NackBuffer :=
  registerNackBuffer (packetHeaderSize + largestVideoframeSize) videoNackbufferSize (by decide)

/-- A connected server; the nacks waiting name a frame and an index. -/
structure VideoReady (context : UdpContext) : Prop where
  connected : context.connectionLost = false
  buffer : ∃ b, context.nackBuffers .video = some b ∧ b.sizes = serverVideoBuffer.sizes ∧
    b.maxPayloadSize = serverVideoBuffer.maxPayloadSize
  queue : ∀ n ∈ context.nackQueue, 0 < n.frameId ∧ 0 ≤ n.packetIndex

theorem nearest_one_val : (Binary64.nearest 1).val = 1 := by
  exact_mod_cast @Binary64.round_intCast 1 (by norm_num)

theorem one_sub_bounds {r : Binary64} (h0 : 0 ≤ r.val) (hmax : r.val ≤ maxFecRatio) :
    1 / 2 ≤ (Binary64.nearest 1 - r).val ∧ (Binary64.nearest 1 - r).val ≤ 1 := by
  rw [maxFecRatio] at hmax
  have hhalf : Binary64.round (1 / 2) = 1 / 2 :=
    Binary64.round_eq_self (m := 1) (e := -1) (by norm_num) (by norm_num) (by norm_num)
  have hone : Binary64.round 1 = 1 := nearest_one_val
  rw [Binary64.sub_val, nearest_one_val]
  exact ⟨Binary64.le_round_of_le (by norm_num) (by linarith) hhalf,
    Binary64.round_le_of_le (by linarith) (by linarith) hone⟩

theorem getNumFecPackets_pos {n : ℕ} {r : Binary64} (hn : 0 < n) (h0 : 0 < r.val)
    (hmax : r.val ≤ maxFecRatio) : 0 < getNumFecPackets n r := by
  obtain ⟨hlow,hhigh⟩ := one_sub_bounds h0.le hmax
  have hratio : r.val ≤ (r / (Binary64.nearest 1 - r)).val := by
    rw [Binary64.div_val]
    refine Binary64.le_round_of_le h0 ?_ r.exact
    rw [le_div_iff₀ (by linarith)]
    exact mul_le_of_le_one_right h0.le hhigh
  have hcount : 1 ≤ (Binary64.nearest n).val := by
    have hone : Binary64.round 1 = 1 := nearest_one_val
    exact Binary64.le_round_of_le (by norm_num) (by exact_mod_cast hn) hone
  have hprod : (r / (Binary64.nearest 1 - r)).val ≤
      (Binary64.nearest n * (r / (Binary64.nearest 1 - r))).val := by
    rw [Binary64.mul_val]
    refine Binary64.le_round_of_le (by linarith) ?_ (Binary64.exact _)
    exact le_mul_of_one_le_left (by linarith) hcount
  have hceil := Int.ceil_pos.mpr (show 0 < (Binary64.nearest n * (r / (Binary64.nearest 1 - r))).val by
    linarith)
  unfold getNumFecPackets
  dsimp only
  omega

theorem splitBuffers_spec (n : ℕ) (rest : Block) :
    (splitBuffers n rest).2 = rest.drop (n * maxPacketSegmentSize) ∧
      ∀ i, ((splitBuffers n rest).1.getD i []).length ≤ maxPacketSegmentSize := by
  induction n generalizing rest with
  | zero => simp [splitBuffers]
  | succ n ih =>
    obtain ⟨hrest,hsize⟩ := ih (rest.drop maxPacketSegmentSize)
    unfold splitBuffers
    refine ⟨?_,fun i => ?_⟩
    · rw [hrest, List.drop_drop]
      congr 1
      ring
    · cases i with
      | zero => simp
      | succ i => simpa using hsize i

theorem le_intDivRoundup_mul {a b : ℕ} (hb : 0 < b) : a ≤ intDivRoundup a b * b := by
  have h := Nat.lt_mul_div_succ (a + b - 1) hb
  rw [Nat.mul_add_one, Nat.mul_comm] at h
  unfold intDivRoundup
  omega

theorem segmentBuffers_ok (cm : Cm256) (context : UdpContext) (t : WhistPacketType) {packet : Block}
    (hpos : 0 < packet.length) :
    ∃ buffers, segmentBuffers cm packet (numPackets context t packet.length).1
        (numPackets context t packet.length).2 = .ok buffers ∧
      ∀ i < (numPackets context t packet.length).1 + (numPackets context t packet.length).2,
        (buffers i).length ≤ maxPacketSegmentSize := by
  generalize hn : numPackets context t packet.length = n
  have hfst : n.1 = if n.2 = 0 then intDivRoundup packet.length maxPacketSegmentSize
      else fecEncoderGetNumRealBuffers packet.length maxPacketSegmentSize := by
    rw [← hn]
    simp [numPackets, hpos.ne']
  unfold segmentBuffers
  by_cases hfec : n.2 > 0
  · rw [if_pos hfec]
    rw [if_neg hfec.ne'] at hfst
    have hreal : n.1 = intDivRoundup packet.length (maxPacketSegmentSize - fecHeaderSize) := by
      rw [hfst, fecEncoderGetNumRealBuffers, if_neg hpos.ne']
    have hfit : packet.length ≤ n.1 * (maxPacketSegmentSize - fecHeaderSize) :=
      hreal ▸ le_intDivRoundup_mul (by decide)
    have hn1 : 0 < n.1 := by
      rw [hreal]
      exact Nat.div_pos (by omega) (by decide)
    obtain ⟨rs,hrs,hp,hrsn,hrsm,-⟩ := rsWrapperCreate_spec hn1 hfec
    obtain ⟨enc,sz,henc,he,hsz,-⟩ := encodePayload_spec cm hrs hp hrsn hn1 (by decide) (by decide) hfit hfst
    rw [henc]
    refine ⟨wire enc,rfl,fun i hi => ?_⟩
    by_cases hlt : i < rs.numRealBuffers
    · rw [he.real i hlt, List.length_append, length_writeU16]
      exact (he.fits i hlt).trans hsz
    · obtain ⟨j,rfl⟩ := Nat.exists_eq_add_of_le (not_lt.mp hlt)
      rw [he.fec j (by omega), hp.symbolAt_length cm (fun i hi => length_padWithHeader (he.fits i hi))]
      exact hsz
  · rw [if_neg hfec]
    obtain ⟨hrest,hsize⟩ := splitBuffers_spec n.1 packet
    have hnil : (splitBuffers n.1 packet).2 = [] := by
      rw [hrest, List.drop_eq_nil_iff, hfst, if_pos (by omega)]
      exact le_intDivRoundup_mul (by decide)
    dsimp only
    rw [if_neg (not_not.mpr hnil)]
    exact ⟨_,rfl,fun i _ => hsize i⟩

def Nackable (context : UdpContext) : Prop :=
  (context.nackBuffers .video).isSome ∧ ∀ n ∈ context.nackQueue, 0 < n.frameId ∧ 0 ≤ n.packetIndex

theorem Nackable.store {context : UdpContext} (h : Nackable context) (t : WhistPacketType)
    (b : NackBuffer) (slot i : ℕ) (s : WhistSegment) (e : Event) :
    Nackable ((context.store t b slot i s).record e) := by
  refine ⟨?_,h.2⟩
  unfold UdpContext.record UdpContext.store
  by_cases ht : .video = t
  · simp [← ht]
  · simpa [Function.update_of_ne ht] using h.1

theorem udpHandleNack_ok {context : UdpContext} (h : Nackable context) {id i : ℤ} (hid : 0 < id)
    (hi : 0 ≤ i) (d : Bool) : ∃ c, udpHandleNack context .video id i d = .ok c ∧ Nackable c := by
  obtain ⟨b,hb⟩ := Option.isSome_iff_exists.mp h.1
  unfold udpHandleNack
  rw [hb]
  dsimp only
  rw [if_neg (not_not.mpr hi), if_neg (not_not.mpr hid)]
  split_ifs
  · exact ⟨_,rfl,h⟩
  · exact ⟨_,rfl,h.store ..⟩
  · exact ⟨_,rfl,h⟩
  · exact ⟨_,rfl,h⟩

theorem drain_ok {queue : List NackID} {context : UdpContext} (h : Nackable context)
    (hq : ∀ n ∈ queue, 0 < n.frameId ∧ 0 ≤ n.packetIndex) :
    ∃ c, drain queue context = .ok c ∧ Nackable c := by
  induction queue generalizing context with
  | nil => exact ⟨context,rfl,h⟩
  | cons n rest ih =>
    have hrest : ∀ n ∈ rest, 0 < n.frameId ∧ 0 ≤ n.packetIndex :=
      fun n hn => hq n (List.mem_cons_of_mem _ hn)
    have hn := hq n List.mem_cons_self
    obtain ⟨c,hc,hnack⟩ := @udpHandleNack_ok { context with nackQueue := rest } ⟨h.1,hrest⟩ _ _ hn.1 hn.2 false
    unfold drain
    rw [hc]
    exact ih hnack hrest

theorem sendSegment_ok (f : Outgoing) (hf : f.whistType = .video) {i : ℕ}
    (hsize : (f.buffers i).length ≤ maxPacketSegmentSize) {context : UdpContext}
    (h : Nackable context) :
    ∃ c, sendSegment f context i = .ok c ∧ Nackable c ∧
      builtOf c.log = builtOf context.log ++ [f.wireSegment i] := by
  obtain ⟨b,hb⟩ := Option.isSome_iff_exists.mp h.1
  have hushort : ushort (f.buffers i).length ≤ maxPacketSegmentSize := (Nat.mod_le _ _).trans hsize
  unfold sendSegment
  rw [if_neg (not_not.mpr hushort)]
  have hbuilt : Nackable (buildSegment f context i).2 ∧
      builtOf (buildSegment f context i).2.log = builtOf context.log ++ [f.wireSegment i] := by
    unfold buildSegment
    rw [hf, hb]
    refine ⟨h.store ..,?_⟩
    rw [← f.onWire_segment i (b.buffers (b.slot f.id) i)]
    simp [builtOf, UdpContext.record, UdpContext.store, Event.built?]
  obtain ⟨c,hc,hnack⟩ := drain_ok hbuilt.1 hbuilt.1.2
  have hquiet := @drain_quiet (fun _ => none) (buildSegment f context i).2.nackQueue (buildSegment f context i).2
  rw [hc] at hquiet
  have hdrain : udpHandlePendingNacks (buildSegment f context i).2 = .ok c := hc
  dsimp only
  rw [if_pos hf, hdrain]
  refine ⟨_,rfl,hnack,?_⟩
  rw [← hbuilt.2, ← hquiet.built]
  simp [builtOf, UdpContext.record, Event.built?, Run.reached]


theorem sendSegments_ok (f : Outgoing) (hf : f.whistType = .video)
    (hsize : ∀ i < f.numTotalPackets, (f.buffers i).length ≤ maxPacketSegmentSize)
    {context : UdpContext} (h : Nackable context) :
    ∃ c, Run.run (sendSegment f) context (List.range f.numTotalPackets) = .ok c ∧
      builtOf c.log = builtOf context.log ++ (List.range f.numTotalPackets).map f.wireSegment := by
  have hrun := @Run.run_range _ _ (fun k c => Nackable c ∧
      builtOf c.log = builtOf context.log ++ (List.range k).map f.wireSegment)
    (sendSegment f) f.numTotalPackets context ⟨h,by simp⟩ ?_
  · obtain ⟨c,hc,-,hbuilt⟩ := hrun
    exact ⟨c,hc,hbuilt⟩
  · rintro i hi c ⟨hc,hbuilt⟩
    obtain ⟨c',hok,hc',hbuilt'⟩ := sendSegment_ok f hf (hsize i hi) hc
    refine ⟨c',hok,hc',?_⟩
    rw [hbuilt', hbuilt, List.range_succ, List.map_append, List.append_assoc, List.map_singleton]

/-- `udp_send_packet` fails no assertion, and when it returns success every segment
of the frame is acceptable to the receiver. -/
def Agrees (cm : Cm256) (context : UdpContext) (payload : Block) (id : ℤ) (start : Bool) : Prop :=
  ∃ r c segments, udpSendPacket cm context .video payload id start = .ok (r,c) ∧
    builtOf c.log = builtOf context.log ++ segments ∧
    (r = 0 → ∀ s ∈ segments, Acceptable largestVideoframeSize s)

theorem length_whistPacketBytes (t : WhistPacketType) (payload : Block) (id : ℤ) :
    (whistPacketBytes t payload id).length = packetHeaderSize + payload.length := by
  have hint : ∀ i, (writeInt i).length = 4 := fun i => rfl
  simp only [whistPacketBytes, List.length_append, hint, packetHeaderSize, List.length_cons,
    List.length_nil]
  omega

section Sending
variable {cm : Cm256} {context : UdpContext} {payload : Block} {id : ℤ} {start : Bool}

def totalPackets (context : UdpContext) (payload : Block) : ℕ :=
  (numPackets context .video (packetHeaderSize + payload.length)).1 +
    (numPackets context .video (packetHeaderSize + payload.length)).2

theorem udpSendPacket_overflow (hr : VideoReady context) (hid : 0 < id)
    (htotal : maxTotalPackets ≤ totalPackets context payload) :
    ∃ e, udpSendPacket cm context .video payload id start = .error e := by
  have hn : numPackets (context.startStream .video id start) .video
      (whistPacketBytes .video payload id).length =
      numPackets context .video (packetHeaderSize + payload.length) := by
    rw [length_whistPacketBytes]
    rfl
  unfold udpSendPacket
  rw [hr.connected, if_neg (by simp), if_neg (by omega)]
  dsimp only
  rw [if_neg (fun h => h.2 hid), hn, ← totalPackets, if_pos (not_lt.mpr htotal)]
  exact ⟨_,rfl⟩

theorem udpSendPacket_ok (hr : VideoReady context) (hid : 0 < id)
    (hpayload : payload.length ≤ largestVideoframeSize)
    (htotal : totalPackets context payload < maxTotalPackets) :
    ∃ (f : Outgoing) (c : UdpContext), udpSendPacket cm context .video payload id start = .ok (0,c) ∧
      f.numTotalPackets = totalPackets context payload ∧
      (∀ i < f.numTotalPackets, (f.buffers i).length ≤ maxPacketSegmentSize) ∧
      builtOf c.log = builtOf context.log ++ (List.range f.numTotalPackets).map f.wireSegment := by
  obtain ⟨b,hb,hsizes,hmax⟩ := hr.buffer
  have hlen := length_whistPacketBytes .video payload id
  have hn : numPackets (context.startStream .video id start) .video
      (whistPacketBytes .video payload id).length =
      numPackets context .video (packetHeaderSize + payload.length) := by
    rw [hlen]
    rfl
  have hlarge : tooLarge (some b) (totalPackets context payload)
      (whistPacketBytes .video payload id).length = false := by
    have hindices : b.maxIndices = serverVideoBuffer.maxIndices := congrArg Prod.snd hsizes
    have hroom : maxTotalPackets ≤ serverVideoBuffer.maxIndices := by decide +kernel
    have hpay : serverVideoBuffer.maxPayloadSize = packetHeaderSize + largestVideoframeSize := rfl
    simp only [tooLarge, Bool.or_eq_false_iff, decide_eq_false_iff_not, not_lt]
    omega
  obtain ⟨buffers,hbuf,hsize⟩ := @segmentBuffers_ok cm
    (context.startStream .video id start) .video (whistPacketBytes .video payload id) (by rw [hlen, packetHeaderSize]; omega)
  rw [hn] at hbuf hsize
  have hstream : (context.startStream .video id start).nackBuffers .video = some b := hb
  obtain ⟨c,hrun,hbuilt⟩ := @sendSegments_ok ⟨.video,id,buffers,totalPackets context payload,
      (numPackets context .video (packetHeaderSize + payload.length)).2,
      (context.startStream .video id start).numDuplicatePackets .video⟩ rfl hsize
    (context.startStream .video id start) ⟨by rw [hstream]; rfl,hr.queue⟩
  refine ⟨_,c,?_,rfl,hsize,hbuilt⟩
  unfold udpSendPacket
  rw [hr.connected, if_neg (by simp), if_neg (by omega)]
  dsimp only
  rw [if_neg (fun h => h.2 hid), hn, ← totalPackets, if_neg (not_not.mpr htotal), hstream,
    if_neg (by rw [hlarge]; simp), hbuf]
  dsimp only
  rw [hrun]

theorem agrees_iff_totalPackets (hr : VideoReady context) (hid : 0 < id)
    (hpayload : payload.length ≤ largestVideoframeSize) :
    Agrees cm context payload id start ↔ totalPackets context payload ≤ maxPackets := by
  have hmax : maxPackets < maxTotalPackets := by decide
  by_cases htotal : totalPackets context payload < maxTotalPackets
  · obtain ⟨f,c,hsend,hf,hsize,hbuilt⟩ := @udpSendPacket_ok cm _ _ _ start hr hid hpayload htotal
    have hnum : ∀ i, (f.wireSegment i).numIndices = totalPackets context payload := by
      intro i
      rw [← hf]
      refine Nat.mod_eq_of_lt ?_
      rw [maxTotalPackets] at htotal
      omega
    constructor
    · rintro ⟨r,c',segments,hsend',hbuilt',hacc⟩
      rw [hsend] at hsend'
      cases hsend'
      rw [hbuilt, List.append_cancel_left_eq] at hbuilt'
      by_cases hzero : totalPackets context payload = 0
      · omega
      · have hmem : f.wireSegment 0 ∈ segments := by
          rw [← hbuilt']
          exact List.mem_map_of_mem (List.mem_range.mpr (by omega))
        rw [← hnum 0]
        exact (hacc rfl _ hmem).1
    · intro hle
      refine ⟨0,c,_,hsend,hbuilt,fun _ s hs => ?_⟩
      obtain ⟨i,hi,rfl⟩ := List.mem_map.mp hs
      have hi := List.mem_range.mp hi
      refine ⟨by rw [hnum]; exact hle,?_⟩
      have hindex : (f.wireSegment i).index ≤ i := Nat.mod_le _ _
      have hseg : (f.wireSegment i).segmentSize ≤ maxPacketSegmentSize := (Nat.mod_le _ _).trans (hsize i hi)
      have hlast : i ≤ 999 := by
        rw [maxPackets, maxVideoPackets] at hle
        omega
      rw [largestFrameSize, packetHeaderSize, largestVideoframeSize]
      rw [maxPacketSegmentSize] at hseg ⊢
      omega
  · obtain ⟨e,he⟩ := @udpSendPacket_overflow cm _ _ _ start hr hid (not_lt.mp htotal)
    constructor
    · rintro ⟨r,c,segments,hsend,-⟩
      rw [he] at hsend
      cases hsend
    · intro hle
      omega

def WithinCapacity (payloadSize : ℕ) (ratio : FecRatio) : Prop :=
  let size := packetHeaderSize + payloadSize
  let numReal := fecEncoderGetNumRealBuffers size maxPacketSegmentSize
  ratio.val = 0 ∧ size ≤ maxPackets * maxPacketSegmentSize ∨
    0 < ratio.val ∧ numReal + getNumFecPackets numReal ratio.toBinary64 ≤ maxPackets

theorem totalPackets_le_iff (hr : VideoReady context) :
    totalPackets context payload ≤ maxPackets ↔
      WithinCapacity payload.length (context.fecPacketRatios .video) := by
  obtain ⟨b,hb,-⟩ := hr.buffer
  generalize hratio : context.fecPacketRatios .video = ratio
  have hpos : packetHeaderSize + payload.length ≠ 0 := by
    rw [packetHeaderSize]
    omega
  unfold totalPackets numPackets WithinCapacity
  rw [hb, hratio]
  dsimp only
  rcases ratio.nonneg.lt_or_eq with hlt | hzero
  · have hfec := getNumFecPackets_pos (n := fecEncoderGetNumRealBuffers
      (packetHeaderSize + payload.length) maxPacketSegmentSize) ?_ hlt ratio.le_max
    · have hc : (some b).isSome ∧ ratio.val > 0 := ⟨rfl,hlt⟩
      simp only [if_pos hc, if_neg hfec.ne']
      constructor
      · exact fun h => Or.inr ⟨hlt,h⟩
      · exact fun h => (h.resolve_left (fun h => hlt.ne' h.1)).2
    · rw [fecEncoderGetNumRealBuffers, if_neg hpos]
      exact Nat.div_pos (by rw [maxPacketSegmentSize, fecHeaderSize]; omega) (by decide)
  · have hc : ¬((some b).isSome ∧ ratio.val > 0) := fun h => h.2.ne hzero
    simp only [if_neg hc, if_true, if_neg hpos, Nat.add_zero]
    have hdiv : intDivRoundup (packetHeaderSize + payload.length) maxPacketSegmentSize ≤ maxPackets ↔
        packetHeaderSize + payload.length ≤ maxPackets * maxPacketSegmentSize := by
      rw [intDivRoundup, Nat.div_le_iff_le_mul_add_pred (by decide), maxPacketSegmentSize]
      omega
    rw [hdiv]
    constructor
    · exact fun h => Or.inl ⟨hzero.symm,h⟩
    · exact fun h => (h.resolve_right (fun h => h.1.ne hzero)).2

/-- The limits of the nack buffer, of the array on the stack and of the ring buffer agree
on exactly the frames of at most `MAX_PACKETS` segments. -/
theorem sendPacket_agrees_iff (hr : VideoReady context) (hid : 0 < id)
    (hpayload : payload.length ≤ largestVideoframeSize) :
    Agrees cm context payload id start ↔
      WithinCapacity payload.length (context.fecPacketRatios .video) :=
  (agrees_iff_totalPackets hr hid hpayload).trans (totalPackets_le_iff hr)

end Sending

/-- A server's connection as `client_connect_socket` sets it up for video. -/
def videoConnection : UdpContext where
  fecPacketRatios := fun _ => noFec
  nackBuffers := fun t => if t = .video then some serverVideoBuffer else none

theorem videoConnection_ready : VideoReady videoConnection :=
  ⟨rfl,⟨serverVideoBuffer,rfl,rfl,rfl⟩,fun _ hn => nomatch hn⟩

/-- One payload byte beyond 1000 segments: every check of the sender passes, and the
receiver's assertion on the number of segments fails. -/
theorem large_frame_not_acceptable :
    ¬Agrees parityCode videoConnection (List.replicate 1299986 0) 1 true := by
  intro h
  generalize hpayload : List.replicate 1299986 (0 : UInt8) = payload at h
  have hlen : payload.length = 1299986 := by rw [← hpayload, List.length_replicate]
  have hle := (agrees_iff_totalPackets videoConnection_ready (by omega)
    (by rw [hlen, largestVideoframeSize]; omega)).mp h
  rw [totalPackets_le_iff videoConnection_ready, hlen] at hle
  rcases hle with ⟨-,hle⟩ | ⟨hpos,-⟩
  · rw [packetHeaderSize, maxPackets, maxVideoPackets, maxPacketSegmentSize] at hle
    omega
  · exact lt_irrefl _ hpos

/-- A frame of three bytes fits. -/
theorem small_frame_agrees : Agrees parityCode videoConnection [1,2,3] 1 true :=
  (sendPacket_agrees_iff videoConnection_ready (by omega)
    (by rw [largestVideoframeSize]; simp)).mpr (Or.inl ⟨rfl,by decide⟩)

end Whist.Udp
