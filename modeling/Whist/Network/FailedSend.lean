import Whist.Network.UdpCapacity

/-! # A send that is refused -/
namespace Whist.Udp
open Fec

/-- `StreamResetData` of one type of packets. -/
structure StreamResetData where
  pendingStreamReset : Bool
  greatestFailedId : ℤ
deriving DecidableEq

def udpGetPendingStreamReset (context : UdpContext) (resetData : WhistPacketType → StreamResetData)
    (whistType : WhistPacketType) : Bool × (WhistPacketType → StreamResetData) :=
  if context.connectionLost then (false,resetData)
  else if (resetData whistType).pendingStreamReset then
    let greatestFailedId := (resetData whistType).greatestFailedId
    (decide (greatestFailedId = -1 ∨ greatestFailedId > context.lastStartOfStreamId whistType),
      Function.update resetData whistType { resetData whistType with pendingStreamReset := false })
  else (false,resetData)

/-- The call ends without sending: it returns -1, or it aborts on the number of segments. -/
def Refused (result : Result (ℤ × UdpContext)) (context : UdpContext) : Prop :=
  result = .ok (-1,context) ∨ result = .error (.totalPackets,context)

/-- The bookkeeping is as before, and every request to reset a stream is answered as before. -/
structure NoTrace (before after : UdpContext) : Prop where
  lastStartOfStreamId : after.lastStartOfStreamId = before.lastStartOfStreamId
  unchanged : after = before
  answers : ∀ resetData whistType,
    udpGetPendingStreamReset after resetData whistType = udpGetPendingStreamReset before resetData whistType

variable {cm : Cm256} {context after : UdpContext} {whistType : WhistPacketType} {payload : Block} {id : ℤ}
  {start : Bool}

theorem NoTrace.rfl : NoTrace context context := ⟨Eq.refl _,Eq.refl _,fun _ _ => Eq.refl _⟩

theorem drain_error {e : UdpFatal × UdpContext} :
    ∀ (queue : List NackID) (context : UdpContext), drain queue context = .error e → e.1 ≠ .totalPackets
  | [], context, h => by cases h
  | nackId :: rest, context, h => by
    rw [drain] at h
    split at h
    · rename_i e' hnack
      cases h
      unfold udpHandleNack at hnack
      split at hnack
      · cases hnack
        exact UdpFatal.noConfusion
      · dsimp only at hnack
        split_ifs at hnack <;> (cases hnack; exact UdpFatal.noConfusion)
    · exact drain_error rest _ h

theorem sendSegment_error {f : Outgoing} {i : ℕ} {e : UdpFatal × UdpContext}
    (h : sendSegment f context i = .error e) : e.1 ≠ .totalPackets := by
  rw [sendSegment] at h
  by_cases hsize : ¬ushort (f.buffers i).length ≤ maxPacketSegmentSize
  · rw [if_pos hsize] at h
    cases h
    exact UdpFatal.noConfusion
  rw [if_neg hsize] at h
  generalize buildSegment f context i = built at h
  dsimp only at h
  by_cases hvideo : f.whistType = .video
  · rw [if_pos hvideo] at h
    cases hpending : udpHandlePendingNacks built.2 with
    | error e' =>
      rw [hpending] at h
      cases h
      exact drain_error _ _ hpending
    | ok context =>
      rw [hpending] at h
      cases h
  · rw [if_neg hvideo] at h
    cases h

theorem sendSegments_error {f : Outgoing} {e : UdpFatal × UdpContext} :
    ∀ (indices : List ℕ) (context : UdpContext),
      Run.run (sendSegment f) context indices = .error e → e.1 ≠ .totalPackets
  | [], context, h => by cases h
  | i :: rest, context, h => by
    rw [Run.run] at h
    split at h
    · rename_i e' hsend
      cases h
      exact sendSegment_error hsend
    · exact sendSegments_error rest _ h

theorem segmentBuffers_error {packet : Block} {numIndices numFecPackets : ℕ} {e : UdpFatal}
    (h : segmentBuffers cm packet numIndices numFecPackets = .error e) : e ≠ .totalPackets := by
  unfold segmentBuffers at h
  split_ifs at h
  · split at h
    · cases h
      exact UdpFatal.noConfusion
    · cases h
  · dsimp only at h
    split_ifs at h
    cases h
    exact UdpFatal.noConfusion

theorem refused_context (h : Refused (udpSendPacket cm context whistType payload id start) after) :
    after = if context.connectionLost then context else context.startStream whistType id start := by
  unfold udpSendPacket at h
  by_cases hlost : context.connectionLost = true
  · rw [if_pos hlost] at h ⊢
    rcases h with h | h <;> cases h
    rfl
  rw [if_neg hlost] at h ⊢
  dsimp only at h
  by_cases hzero : id ≠ 0
  · rw [if_neg (not_not.mpr hzero)] at h
    by_cases hpos : ((context.startStream whistType id start).nackBuffers whistType).isSome ∧ ¬id > 0
    · rw [if_pos hpos] at h
      rcases h with h | h <;> cases h
    rw [if_neg hpos] at h
    by_cases htotal : ¬((numPackets (context.startStream whistType id start) whistType
        (whistPacketBytes whistType payload id).length).1 +
        (numPackets (context.startStream whistType id start) whistType
          (whistPacketBytes whistType payload id).length).2 < maxTotalPackets)
    · rw [if_pos htotal] at h
      rcases h with h | h <;> cases h
      rfl
    rw [if_neg htotal] at h
    split_ifs at h with hlarge
    · rcases h with h | h <;> cases h
      rfl
    · split at h
      · rename_i e hbuffers
        rcases h with h | h <;> cases h
        exact absurd (Eq.refl _) (segmentBuffers_error hbuffers)
      · split at h
        · rename_i e hsend
          rcases h with h | h <;> cases h
          exact absurd (Eq.refl _) (sendSegments_error _ _ hsend)
        · rcases h with h | h <;> cases h
  · rw [if_pos hzero] at h
    rcases h with h | h <;> cases h

theorem startStream_eq_iff : context.startStream whistType id start = context ↔
    start = false ∨ context.lastStartOfStreamId whistType = id := by
  unfold UdpContext.startStream
  cases start with
  | false => simp
  | true =>
    rw [if_pos (Eq.refl _)]
    constructor
    · intro h
      have hid := congrFun (congrArg UdpContext.lastStartOfStreamId h) whistType
      change Function.update context.lastStartOfStreamId whistType id whistType = _ at hid
      rw [Function.update_self] at hid
      exact Or.inr hid.symm
    · rintro (h | h)
      · cases h
      · rw [← h, Function.update_eq_self]

/-- A refused call leaves no trace exactly if the connection was lost before, if it is no start of the
stream, or if it repeats the last one. -/
theorem refused_noTrace_iff (h : Refused (udpSendPacket cm context whistType payload id start) after) :
    NoTrace context after ↔ context.connectionLost = true ∨ start = false ∨
      context.lastStartOfStreamId whistType = id := by
  rw [refused_context h]
  by_cases hlost : context.connectionLost = true
  · rw [if_pos hlost]
    exact iff_of_true NoTrace.rfl (Or.inl hlost)
  · rw [if_neg hlost, or_iff_right hlost, ← startStream_eq_iff]
    refine ⟨fun hnone => hnone.unchanged,fun heq => ?_⟩
    rw [heq]
    exact NoTrace.rfl

theorem numPackets_of_noFec {size : ℕ} (hratio : (context.fecPacketRatios whistType).val = 0) (hsize : size ≠ 0) :
    numPackets context whistType size = (intDivRoundup size maxPacketSegmentSize,0) := by
  have hnot : ¬((context.nackBuffers whistType).isSome = true ∧ (context.fecPacketRatios whistType).val > 0) :=
    fun h => h.2.ne hratio.symm
  unfold numPackets
  dsimp only
  rw [if_neg hnot, if_pos rfl, if_neg hsize]

theorem largeFrame_refused (hlarge : payload.length = largestVideoframeSize + 1) (start : Bool) :
    Refused (udpSendPacket cm videoConnection .video payload 5 start)
      (videoConnection.startStream .video 5 start) := by
  have hlen : (whistPacketBytes .video payload 5).length = 4000016 := by
    rw [length_whistPacketBytes, hlarge, packetHeaderSize, largestVideoframeSize]
  have hn : numPackets (videoConnection.startStream .video 5 start) .video 4000016 = (3077,0) := by
    rw [numPackets_of_noFec rfl (by norm_num), intDivRoundup, maxPacketSegmentSize]
  have hlimit : ∀ n, tooLarge ((videoConnection.startStream .video 5 start).nackBuffers .video) n 4000016 = true := by
    intro n
    change (_ || decide (4000016 > 4000015)) = true
    exact Bool.or_true _
  refine Or.inl ?_
  have hconnected : ¬videoConnection.connectionLost = true := Bool.false_ne_true
  unfold udpSendPacket
  rw [if_neg hconnected]
  dsimp only
  rw [hlen, hn, if_neg (by norm_num), if_neg (fun h => h.2 (by norm_num)), if_neg (by decide), if_pos (hlimit _)]

theorem refused_noTrace_one : NoTrace videoConnection (videoConnection.startStream .video 5 false) ↔
    videoConnection.connectionLost = true ∨ false = false ∨ videoConnection.lastStartOfStreamId .video = 5 :=
  refused_noTrace_iff (@largeFrame_refused Fec.parityCode (List.replicate (largestVideoframeSize + 1) 0)
    List.length_replicate false)

/-- The client has asked to start over from frame 3.  The refused start of a stream with frame 5, which
nobody has been sent, swallows the request. -/
theorem refused_noTrace_fails :
    ¬∀ (cm : Cm256) (context after : UdpContext) (whistType : WhistPacketType) (payload : Block) (id : ℤ)
      (start : Bool), Refused (udpSendPacket cm context whistType payload id start) after →
        NoTrace context after := by
  intro h
  have hrefused := @largeFrame_refused Fec.parityCode (List.replicate (largestVideoframeSize + 1) 0)
    List.length_replicate true
  have hanswers := (h _ _ _ _ _ _ _ hrefused).answers (fun _ => ⟨true,3⟩) .video
  have hbefore : (udpGetPendingStreamReset videoConnection (fun _ => ⟨true,3⟩) .video).1 = true := rfl
  have hafter : (udpGetPendingStreamReset (videoConnection.startStream .video 5 true) (fun _ => ⟨true,3⟩)
    .video).1 = false := rfl
  rw [hanswers, hbefore] at hafter
  cases hafter

end Whist.Udp
