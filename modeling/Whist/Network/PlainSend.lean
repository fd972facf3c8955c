import Whist.Foundation.Segments
import Whist.Network.UdpCapacity

/-! # Packets sent without redundancy

What `udp_send_packet` makes of a payload if no segment of it is redundant.
-/
namespace Whist.Udp
open Fec

def numParts (packet : Block) : ℕ := intDivRoundup packet.length maxPacketSegmentSize

structure Part (packet : Block) (id : ℤ) (s : WhistSegment) : Prop where
  id : s.id = id
  index : s.index < numParts packet
  numIndices : s.numIndices = numParts packet
  numFecIndices : s.numFecIndices = 0
  segmentSize : s.segmentSize = (Bytes.segment maxPacketSegmentSize packet s.index).length
  segmentData : s.segmentData.take s.segmentSize = Bytes.segment maxPacketSegmentSize packet s.index

theorem splitBuffers_getD {n i : ℕ} (rest : Block) (hi : i < n) :
    (splitBuffers n rest).1.getD i [] = Bytes.segment maxPacketSegmentSize rest i := by
  induction n generalizing rest i with
  | zero => exact absurd hi (Nat.not_lt_zero i)
  | succ n ih =>
    unfold splitBuffers
    cases i with
    | zero => simp [Bytes.segment]
    | succ i =>
      rw [Bytes.segment_succ, ← ih _ (Nat.lt_of_succ_lt_succ hi)]
      rfl

theorem length_segment_le (packet : Block) (i : ℕ) :
    (Bytes.segment maxPacketSegmentSize packet i).length ≤ maxPacketSegmentSize :=
  (Bytes.length_segment ..).le.trans (min_le_left _ _)

variable {cm : Cm256} {context after : UdpContext} {t : WhistPacketType} {payload : Block} {id : ℤ} {start : Bool}

theorem sendSegment_built {f : Outgoing} {i : ℕ} (h : sendSegment f context i = .ok after) :
    builtOf after.log = builtOf context.log ++ [f.wireSegment i] := by
  have hbuilt : builtOf (buildSegment f context i).2.log = builtOf context.log ++ [f.wireSegment i] := by
    unfold buildSegment
    cases context.nackBuffers f.whistType with
    | none =>
      rw [← f.onWire_segment i zeroSegment]
      simp [builtOf, UdpContext.record, Event.built?]
    | some b =>
      rw [← f.onWire_segment i (b.buffers (b.slot f.id) i)]
      simp [builtOf, UdpContext.record, UdpContext.store, Event.built?]
  unfold sendSegment at h
  by_cases hsize : ushort (f.buffers i).length ≤ maxPacketSegmentSize
  · rw [if_neg (not_not.mpr hsize)] at h
    generalize buildSegment f context i = built at h hbuilt
    dsimp only at h
    cases hc : (if f.whistType = .video then udpHandlePendingNacks built.2 else .ok built.2) with
    | error e =>
      rw [hc] at h
      cases h
    | ok c =>
      rw [hc] at h
      cases h
      -- the nacks answered meanwhile build nothing
      have hquiet : builtOf c.log = builtOf built.2.log := by
        split_ifs at hc
        · have hdrain := @drain_quiet (fun _ => none) built.2.nackQueue built.2
          rw [show drain built.2.nackQueue built.2 = .ok c from hc] at hdrain
          exact hdrain.built
        · cases hc
          rfl
      rw [← hbuilt, ← hquiet]
      simp [builtOf, UdpContext.record, Event.built?]
  · rw [if_pos hsize] at h
    cases h

theorem sendSegments_built {f : Outgoing} {indices : List ℕ}
    (h : Run.run (sendSegment f) context indices = .ok after) :
    builtOf after.log = builtOf context.log ++ indices.map f.wireSegment := by
  induction indices generalizing context with
  | nil =>
    cases h
    exact (List.append_nil _).symm
  | cons i indices ih =>
    cases hi : sendSegment f context i with
    | error e =>
      rw [Run.run, hi] at h
      cases h
    | ok c =>
      rw [Run.run_cons indices hi] at h
      rw [ih h, sendSegment_built hi, List.append_assoc, List.singleton_append, List.map_cons]

theorem udpSendPacket_sent (h : udpSendPacket cm context t payload id start = .ok (0,after)) :
    ∃ buffers duplicates, segmentBuffers cm (whistPacketBytes t payload id)
        (numPackets context t (whistPacketBytes t payload id).length).1
        (numPackets context t (whistPacketBytes t payload id).length).2 = .ok buffers ∧
      (numPackets context t (whistPacketBytes t payload id).length).1 +
        (numPackets context t (whistPacketBytes t payload id).length).2 < maxTotalPackets ∧
      Run.run (sendSegment ⟨t,id,buffers,(numPackets context t (whistPacketBytes t payload id).length).1 +
        (numPackets context t (whistPacketBytes t payload id).length).2,
        (numPackets context t (whistPacketBytes t payload id).length).2,duplicates⟩)
        (context.startStream t id start) (List.range
          ((numPackets context t (whistPacketBytes t payload id).length).1 +
            (numPackets context t (whistPacketBytes t payload id).length).2)) = .ok after := by
  have hn : ∀ size, numPackets (context.startStream t id start) t size = numPackets context t size := fun _ => rfl
  unfold udpSendPacket at h
  dsimp only at h
  rw [hn] at h
  generalize numPackets context t (whistPacketBytes t payload id).length = n at h ⊢
  by_cases hlost : context.connectionLost = true
  · rw [if_pos hlost] at h
    cases h
  · rw [if_neg hlost] at h
    split_ifs at h with hzero hpos htotal hlarge
    · cases h
    · cases hbuffers : segmentBuffers cm (whistPacketBytes t payload id) n.1 n.2 with
      | error e =>
        rw [hbuffers] at h
        cases h
      | ok buffers =>
        rw [hbuffers] at h
        refine ⟨buffers,(context.startStream t id start).numDuplicatePackets t,rfl,htotal,?_⟩
        cases hrun : Run.run (sendSegment ⟨t,id,buffers,n.1 + n.2,n.2,
            (context.startStream t id start).numDuplicatePackets t⟩) (context.startStream t id start)
            (List.range (n.1 + n.2)) with
        | error e => simp [hrun] at h
        | ok c =>
          simp only [hrun] at h
          cases h
          rfl

structure Sends (cm : Cm256) (context : UdpContext) (t : WhistPacketType) (payload : Block) (id : ℤ)
    (start : Bool) (segments : List WhistSegment) : Prop where
  sent : ∃ after, udpSendPacket cm context t payload id start = .ok (0,after) ∧
    builtOf after.log = builtOf context.log ++ segments
  plain : ∀ s ∈ segments, s.numFecIndices = 0

theorem numParts_pos (t : WhistPacketType) (payload : Block) (id : ℤ) : 0 < numParts (whistPacketBytes t payload id) := by
  have hlen := length_whistPacketBytes t payload id
  have hle := @le_intDivRoundup_mul (whistPacketBytes t payload id).length maxPacketSegmentSize (by decide)
  rw [packetHeaderSize] at hlen
  apply Nat.pos_of_ne_zero
  intro hzero
  rw [numParts] at hzero
  rw [hzero] at hle
  omega

theorem Sends.parts {segments : List WhistSegment} (h : Sends cm context t payload id start segments) :
    (∀ s ∈ segments, Part (whistPacketBytes t payload id) id s) ∧
      ∀ s ∈ segments, ∀ s' ∈ segments, s.index = s'.index → s = s' := by
  obtain ⟨after,hsent,hbuilt⟩ := h.sent
  obtain ⟨buffers,duplicates,hbuffers,htotal,hrun⟩ := udpSendPacket_sent hsent
  have hsegments := hbuilt.symm.trans (sendSegments_built hrun)
  rw [show (context.startStream t id start).log = context.log from rfl, List.append_cancel_left_eq] at hsegments
  have hpos := numParts_pos t payload id
  have hlen := length_whistPacketBytes t payload id
  have hfirst : (numPackets context t (whistPacketBytes t payload id).length).1 =
      if (numPackets context t (whistPacketBytes t payload id).length).2 = 0 then
        numParts (whistPacketBytes t payload id)
      else fecEncoderGetNumRealBuffers (whistPacketBytes t payload id).length maxPacketSegmentSize := by
    have hne : (whistPacketBytes t payload id).length ≠ 0 := by
      rw [hlen, packetHeaderSize]
      omega
    simp [numPackets, numParts, hne]
  generalize numPackets context t (whistPacketBytes t payload id).length = n at *
  rw [maxTotalPackets] at htotal
  have hzero : n.2 = 0 := by
    by_contra hne
    have hmem : (⟨t,id,buffers,n.1 + n.2,n.2,duplicates⟩ : Outgoing).wireSegment 0 ∈ segments := by
      rw [hsegments]
      exact List.mem_map_of_mem (List.mem_range.mpr (by omega))
    have hplain : ushort n.2 = 0 := h.plain _ hmem
    rw [ushort, Nat.mod_eq_of_lt (by omega)] at hplain
    exact hne hplain
  rw [if_pos hzero] at hfirst
  rw [hzero, Nat.add_zero] at hsegments htotal
  have hbuffer : ∀ i < n.1, buffers i = Bytes.segment maxPacketSegmentSize (whistPacketBytes t payload id) i := by
    unfold segmentBuffers at hbuffers
    rw [if_neg (by omega)] at hbuffers
    dsimp only at hbuffers
    split_ifs at hbuffers
    cases hbuffers
    exact fun i hi => splitBuffers_getD _ hi
  have hushort : ∀ {i}, i < 65536 → ushort i = i := fun hi => Nat.mod_eq_of_lt hi
  constructor
  · intro s hs
    rw [hsegments] at hs
    obtain ⟨i,hi,rfl⟩ := List.mem_map.mp hs
    have hi' := List.mem_range.mp hi
    have hsize := length_segment_le (whistPacketBytes t payload id) i
    rw [maxPacketSegmentSize] at hsize
    have hindex : ((⟨t,id,buffers,n.1,0,duplicates⟩ : Outgoing).wireSegment i).index = i := hushort (by omega)
    have hseg : ((⟨t,id,buffers,n.1,0,duplicates⟩ : Outgoing).wireSegment i).segmentSize =
        (Bytes.segment maxPacketSegmentSize (whistPacketBytes t payload id) i).length := by
      change ushort (buffers i).length = _
      rw [hbuffer i hi', hushort (by rw [maxPacketSegmentSize]; omega)]
    refine ⟨rfl,by rw [hindex]; omega,?_,rfl,by rw [hindex, hseg],?_⟩
    · change ushort n.1 = _
      rw [hushort (by omega), hfirst]
    · rw [hindex, hseg]
      change ((buffers i ++ _).take (ushort (buffers i).length)).take _ = _
      rw [hbuffer i hi', hushort (by rw [maxPacketSegmentSize]; omega), List.take_left, List.take_length]
  · intro s hs s' hs' heq
    rw [hsegments] at hs hs'
    obtain ⟨i,hi,rfl⟩ := List.mem_map.mp hs
    obtain ⟨j,hj,rfl⟩ := List.mem_map.mp hs'
    have hi' := List.mem_range.mp hi
    have hj' := List.mem_range.mp hj
    change ushort i = ushort j at heq
    rw [hushort (by omega), hushort (by omega)] at heq
    rw [heq]

theorem Sends.content {segments : List WhistSegment} (h : Sends cm context t payload id start segments) :
    ∀ s ∈ segments, s.content = s := by
  obtain ⟨after,hsent,hbuilt⟩ := h.sent
  obtain ⟨buffers,duplicates,-,-,hrun⟩ := udpSendPacket_sent hsent
  have hsegments := hbuilt.symm.trans (sendSegments_built hrun)
  rw [show (context.startStream t id start).log = context.log from rfl, List.append_cancel_left_eq] at hsegments
  intro s hs
  rw [hsegments] at hs
  obtain ⟨i,-,rfl⟩ := List.mem_map.mp hs
  exact (WhistSegment.content_onWire _).trans (Outgoing.content_segment ..)

theorem Part.of_content {packet : Block} {s : WhistSegment} (h : Part packet id s.content) : Part packet id s := by
  refine ⟨h.id,h.index,h.numIndices,h.numFecIndices,h.segmentSize,?_⟩
  have hdata : (s.segmentData.take s.segmentSize).take s.segmentSize =
    Bytes.segment maxPacketSegmentSize packet s.index := h.segmentData
  rwa [List.take_take, min_self] at hdata

end Whist.Udp
