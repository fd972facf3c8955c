import Whist.Fec.Encoding
import Whist.Network.Tcp

/-! # Sending packets over UDP and answering nacks

The server's side of a UDP connection.  A segment has no departure time.  An array of the nack buffer is a function
from the slot and the index.  An abort keeps the context it happened in.
-/
namespace Whist.Udp
open Fec

inductive WhistPacketType
  | audio
  | video
  | message
  | gpu
deriving DecidableEq

def WhistPacketType.value : WhistPacketType → ℕ
  | .audio => 0
  | .video => 1
  | .message => 2
  | .gpu => 3

/-- A failing `FATAL_ASSERT`, or an access the C program must not make. -/
inductive UdpFatal
  | packetId
  | packetIndex
  | totalPackets
  | splitPosition
  | segmentSize
  | fecRatio
  | nackType
  | nullPointer
  | outOfBounds
  | fec (e : FecFatal)
deriving DecidableEq

def packetHeaderSize : ℕ := 15
def maxTotalPackets : ℕ := 4096
def maxVideoPackets : ℕ := 500
def videoNackbufferSize : ℕ := 25
def maxFecRatio : ℚ := 1 / 2

/-- A ratio that `udp_handle_network_settings` lets in. -/
structure FecRatio extends Binary64 where
  nonneg : 0 ≤ val
  le_max : val ≤ maxFecRatio

def noFec : FecRatio := ⟨⟨0,Binary64.round_of_multiple 0 (by simp)⟩,le_rfl,by decide +kernel⟩

def ushort (n : ℕ) : ℕ := n % 65536

structure WhistSegment where
  whistType : WhistPacketType
  id : ℤ
  index : ℕ
  numIndices : ℕ
  numFecIndices : ℕ
  segmentSize : ℕ
  prevFrameNumDuplicates : ℕ
  isANack : Bool
  isADuplicate : Bool
  segmentData : Block

/-- What goes on the wire: only the first `segment_size` bytes of the data. -/
def WhistSegment.onWire (s : WhistSegment) : WhistSegment :=
  { s with segmentData := s.segmentData.take s.segmentSize }

def zeroSegment : WhistSegment where
  whistType := .audio
  id := 0
  index := 0
  numIndices := 0
  numFecIndices := 0
  segmentSize := 0
  prevFrameNumDuplicates := 0
  isANack := false
  isADuplicate := false
  segmentData := List.replicate maxPacketSegmentSize 0

structure NackBuffer where
  numBuffers : ℕ
  maxIndices : ℕ
  maxPayloadSize : ℕ
  numBuffers_pos : 0 < numBuffers
  valid : ℕ → ℕ → Bool := fun _ _ => false
  buffers : ℕ → ℕ → WhistSegment := fun _ _ => zeroSegment

def NackBuffer.slot (b : NackBuffer) (id : ℤ) : ℕ := (id % b.numBuffers).toNat

def NackBuffer.store (b : NackBuffer) (slot index : ℕ) (s : WhistSegment) : NackBuffer :=
  { b with
    valid := Function.update b.valid slot (Function.update (b.valid slot) index true)
    buffers := Function.update b.buffers slot (Function.update (b.buffers slot) index s) }

def registerNackBuffer (maxPayloadSize numBuffers : ℕ) (h : 0 < numBuffers) : NackBuffer :=
  let maxOriginalIds := maxPayloadSize / maxPacketSegmentSize + 1
  let maxFecIds := getNumFecPackets maxOriginalIds (Binary64.nearest maxFecRatio)
  { numBuffers := numBuffers
    maxIndices := maxOriginalIds + maxFecIds
    maxPayloadSize := maxPayloadSize
    numBuffers_pos := h }

structure NackID where
  frameId : ℤ
  packetIndex : ℤ

/-- What happens on the connection: a segment is written by `udp_send_packet`, handed
to the socket by it, or looked up for a nack and perhaps handed to the socket. -/
inductive Event
  | built (segment : WhistSegment)
  | sent (segment : WhistSegment)
  | nack (whistType : WhistPacketType) (id index : ℤ) (isDuplicate : Bool) (answer : Option WhistSegment)

structure UdpContext where
  fecPacketRatios : WhistPacketType → FecRatio
  connectionLost : Bool := false
  lastStartOfStreamId : WhistPacketType → ℤ := fun _ => 0
  nackBuffers : WhistPacketType → Option NackBuffer
  numDuplicatePackets : WhistPacketType → ℕ := fun _ => 0
  nackQueue : List NackID := []
  log : List Event := []

def UdpContext.record (context : UdpContext) (e : Event) : UdpContext :=
  { context with log := context.log ++ [e] }

def UdpContext.store (context : UdpContext) (whistType : WhistPacketType) (b : NackBuffer)
    (slot index : ℕ) (s : WhistSegment) : UdpContext :=
  { context with
    nackBuffers := Function.update context.nackBuffers whistType (some (b.store slot index s)) }

abbrev Result (α : Type) := Except (UdpFatal × UdpContext) α

def udpHandleNack (context : UdpContext) (whistType : WhistPacketType) (id index : ℤ)
    (isDuplicate : Bool) : Result UdpContext :=
  match context.nackBuffers whistType with
  | none => .error (.nullPointer,context)
  | some b =>
    if ¬(0 ≤ index) then .error (.packetIndex,context)
    else if ¬(0 < id) then .error (.packetId,context)
    else if index ≥ b.maxIndices then .ok (context.record (.nack whistType id index isDuplicate none))
    else if b.valid (b.slot id) index.toNat then
      let packet := b.buffers (b.slot id) index.toNat
      if packet.id = id then
        let packet := { packet with isANack := !isDuplicate, isADuplicate := isDuplicate }
        .ok ((context.store whistType b (b.slot id) index.toNat packet).record
          (.nack whistType id index isDuplicate (some packet.onWire)))
      else .ok (context.record (.nack whistType id index isDuplicate none))
    else .ok (context.record (.nack whistType id index isDuplicate none))

def drain : List NackID → UdpContext → Result UdpContext
  | [], context => .ok context
  | nackId :: rest, context =>
    match udpHandleNack { context with nackQueue := rest } .video nackId.frameId nackId.packetIndex
        false with
    | .error e => .error e
    | .ok context => drain rest context

def udpHandlePendingNacks (context : UdpContext) : Result UdpContext := drain context.nackQueue context

def enqueue (context : UdpContext) (nackId : NackID) : UdpContext :=
  if context.nackQueue.length ≥ videoNackbufferSize * maxVideoPackets then context
  else { context with nackQueue := context.nackQueue ++ [nackId] }

inductive NackMessage
  | nack (whistType : WhistPacketType) (id index : ℤ)
  | bitarrayNack (whistType : WhistPacketType) (id index : ℤ) (bits : List Bool)

def setBits (index : ℕ) (bits : List Bool) : List ℤ :=
  ((List.range' index (bits.length - index)).filter (fun i => bits.getD i false)).map Int.ofNat

/-- `udp_handle_message` for the two kinds of nack. -/
def udpHandleMessage (context : UdpContext) : NackMessage → Result UdpContext
  | .nack whistType id index =>
    if ¬(whistType = .video) then .error (.nackType,context)
    else if index ≥ 0 then .ok (enqueue context ⟨id,index⟩)
    else
      -- a negative index asks for the whole frame
      match context.nackBuffers .video with
      | none => .error (.nullPointer,context)
      | some b =>
        if Int.tmod id b.numBuffers < 0 then .error (.outOfBounds,context)
        else
          let firstPacket := b.buffers (Int.tmod id b.numBuffers).toNat 0
          if firstPacket.id ≠ id then .ok context
          else .ok ((List.range firstPacket.numIndices).foldl
            (fun context (i : ℕ) => enqueue context ⟨id,i⟩) context)
  | .bitarrayNack whistType id index bits =>
    if bits.length = 0 then .error (.nullPointer,context)
    else if ¬(whistType = .video) then .error (.nackType,context)
    else if index < 0 then .error (.outOfBounds,context)
    else .ok ((setBits index.toNat bits).foldl (fun context i => enqueue context ⟨id,i⟩) context)

def udpResendPacket (context : UdpContext) (whistType : WhistPacketType) (id index : ℤ) :
    Result UdpContext :=
  if context.connectionLost then .ok context
  else
    udpHandleNack { context with
      numDuplicatePackets := Function.update context.numDuplicatePackets whistType
        (context.numDuplicatePackets whistType + 1) } whistType id index true

def udpResetDuplicatePacketCounter (context : UdpContext) (whistType : WhistPacketType) : UdpContext :=
  { context with numDuplicatePackets := Function.update context.numDuplicatePackets whistType 0 }

/-- The bounds of both ratios are asserted before they are stored. -/
def udpHandleNetworkSettings (context : UdpContext) (audioFecRatio videoFecRatio : Binary64) :
    Result UdpContext :=
  if ha : 0 ≤ audioFecRatio.val ∧ audioFecRatio.val ≤ maxFecRatio then
    if hv : 0 ≤ videoFecRatio.val ∧ videoFecRatio.val ≤ maxFecRatio then
      .ok { context with
        fecPacketRatios := Function.update
          (Function.update context.fecPacketRatios .video ⟨videoFecRatio,hv.1,hv.2⟩)
          .audio ⟨audioFecRatio,ha.1,ha.2⟩ }
    else .error (.fecRatio,context)
  else .error (.fecRatio,context)

def writeInt (i : ℤ) : List UInt8 := Tcp.writeInt (i % 4294967296).toNat

/-- The bytes of a `WhistPacket` in its zeroed region: the header counts three bytes of
padding that lie behind the data. -/
def whistPacketBytes (whistType : WhistPacketType) (payload : Block) (id : ℤ) : Block :=
  writeInt whistType.value ++ writeInt id ++ writeInt payload.length ++ payload ++ [0,0,0]

def splitBuffers : ℕ → Block → List Block × Block
  | 0, rest => ([],rest)
  | n + 1, rest =>
    let s := splitBuffers n (rest.drop maxPacketSegmentSize)
    (rest.take maxPacketSegmentSize :: s.1,s.2)

/-- How many segments a packet of the given size becomes: original and redundant ones. -/
def numPackets (context : UdpContext) (whistType : WhistPacketType) (size : ℕ) : ℕ × ℕ :=
  let numIndicesIfNoFec := if size = 0 then 1 else intDivRoundup size maxPacketSegmentSize
  let numIndicesIfUseFec := fecEncoderGetNumRealBuffers size maxPacketSegmentSize
  let ratio := context.fecPacketRatios whistType
  let numFecPackets :=
    if (context.nackBuffers whistType).isSome ∧ ratio.val > 0 then
      getNumFecPackets numIndicesIfUseFec ratio.toBinary64
    else 0
  (if numFecPackets = 0 then numIndicesIfNoFec else numIndicesIfUseFec,numFecPackets)

def segmentBuffers (cm : Cm256) (packet : Block) (numIndices numFecPackets : ℕ) :
    Except UdpFatal (ℕ → Block) :=
  if numFecPackets > 0 then
    match encodePayload cm packet numIndices numFecPackets maxPacketSegmentSize with
    | .error e => .error (.fec e)
    | .ok enc => .ok (wire enc)
  else
    let s := splitBuffers numIndices packet
    if ¬(s.2 = []) then .error .splitPosition else .ok (fun i => s.1.getD i [])

def tooLarge (b : Option NackBuffer) (numTotalPackets size : ℕ) : Bool :=
  match b with
  | some b => numTotalPackets > b.maxIndices || size > b.maxPayloadSize
  | none => numTotalPackets > 1

structure Outgoing where
  whistType : WhistPacketType
  id : ℤ
  buffers : ℕ → Block
  numTotalPackets : ℕ
  numFecPackets : ℕ
  prevFrameNumDuplicates : ℕ

def Outgoing.segment (f : Outgoing) (i : ℕ) (old : WhistSegment) : WhistSegment where
  whistType := f.whistType
  id := f.id
  index := ushort i
  numIndices := ushort f.numTotalPackets
  numFecIndices := ushort f.numFecPackets
  segmentSize := ushort (f.buffers i).length
  prevFrameNumDuplicates := ushort f.prevFrameNumDuplicates
  isANack := false
  isADuplicate := false
  segmentData := f.buffers i ++ old.segmentData.drop (f.buffers i).length

def buildSegment (f : Outgoing) (context : UdpContext) (i : ℕ) : WhistSegment × UdpContext :=
  match context.nackBuffers f.whistType with
  | none =>
    let packet := f.segment i zeroSegment
    (packet,context.record (.built packet.onWire))
  | some b =>
    let packet := f.segment i (b.buffers (b.slot f.id) i)
    (packet,(context.store f.whistType b (b.slot f.id) i packet).record (.built packet.onWire))

def currentSegment (f : Outgoing) (context : UdpContext) (i : ℕ) (packet : WhistSegment) : WhistSegment :=
  match context.nackBuffers f.whistType with
  | none => packet
  | some b => b.buffers (b.slot f.id) i

def sendSegment (f : Outgoing) (context : UdpContext) (i : ℕ) : Result UdpContext :=
  if ¬(ushort (f.buffers i).length ≤ maxPacketSegmentSize) then .error (.segmentSize,context)
  else
    let (packet,context) := buildSegment f context i
    match if f.whistType = .video then udpHandlePendingNacks context else .ok context with
    | .error e => .error e
    | .ok context => .ok (context.record (.sent (currentSegment f context i packet).onWire))

def UdpContext.startStream (context : UdpContext) (whistType : WhistPacketType) (id : ℤ)
    (startOfStream : Bool) : UdpContext :=
  { context with lastStartOfStreamId :=
      if startOfStream then Function.update context.lastStartOfStreamId whistType id
      else context.lastStartOfStreamId }

def udpSendPacket (cm : Cm256) (context : UdpContext) (whistType : WhistPacketType) (payload : Block)
    (id : ℤ) (startOfStream : Bool) : Result (ℤ × UdpContext) :=
  if context.connectionLost then .ok (-1,context)
  else
    let context := context.startStream whistType id startOfStream
    if ¬(id ≠ 0) then .error (.packetId,context)
    else if (context.nackBuffers whistType).isSome ∧ ¬(id > 0) then .error (.packetId,context)
    else
      let packet := whistPacketBytes whistType payload id
      let (numIndices,numFecPackets) := numPackets context whistType packet.length
      let numTotalPackets := numIndices + numFecPackets
      if ¬(numTotalPackets < maxTotalPackets) then .error (.totalPackets,context)
      else if tooLarge (context.nackBuffers whistType) numTotalPackets packet.length then
        .ok (-1,context)
      else
        match segmentBuffers cm packet numIndices numFecPackets with
        | .error e => .error (e,context)
        | .ok buffers =>
          match Run.run (sendSegment ⟨whistType,id,buffers,numTotalPackets,numFecPackets,
              context.numDuplicatePackets whistType⟩) context (List.range numTotalPackets) with
          | .error e => .error e
          | .ok context => .ok (0,context)

inductive Call
  | sendPacket (whistType : WhistPacketType) (payload : Block) (id : ℤ) (startOfStream : Bool)
  | message (m : NackMessage)
  | handlePendingNacks
  | resendPacket (whistType : WhistPacketType) (id index : ℤ)
  | resetDuplicatePacketCounter (whistType : WhistPacketType)
  | networkSettings (audioFecRatio videoFecRatio : Binary64)
  | loseConnection

def callStep (cm : Cm256) (context : UdpContext) : Call → Result UdpContext
  | .sendPacket whistType payload id start => (udpSendPacket cm context whistType payload id start).map Prod.snd
  | .message m => udpHandleMessage context m
  | .handlePendingNacks => udpHandlePendingNacks context
  | .resendPacket whistType id index => udpResendPacket context whistType id index
  | .resetDuplicatePacketCounter whistType => .ok (udpResetDuplicatePacketCounter context whistType)
  | .networkSettings audio video => udpHandleNetworkSettings context audio video
  | .loseConnection => .ok { context with connectionLost := true }

end Whist.Udp
