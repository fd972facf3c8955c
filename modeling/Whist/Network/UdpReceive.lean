import Whist.Network.RingRecovery

/-! # Receiving over UDP

The client's side of a UDP connection: `udp_update` takes in one packet and looks after
what is missing, `udp_get_packet` hands out the next frame.  A failing assertion ends the
client, and what it was given before stays.
-/
namespace Whist.Ring
open Fec Udp Memory

structure ReceiveContext where
  connectionLost : Bool := false
  ringBuffers : WhistPacketType → Option RingBuffer
  pendingPackets : WhistPacketType → Option Block := fun _ => none

def ReceiveContext.setRing (ctx : ReceiveContext) (type : WhistPacketType) (r : RingBuffer) : ReceiveContext :=
  { ctx with ringBuffers := Function.update ctx.ringBuffers type (some r) }

def takeSegment (cfg : WhistPacketType → RingConfig) (ctx : ReceiveContext) (s : WhistSegment) :
    Except RingFatal ReceiveContext :=
  match ctx.ringBuffers s.whistType with
  | some r => (ringBufferReceiveSegment (cfg s.whistType) r s).map (fun p => ctx.setRing s.whistType p.2)
  | none =>
    if ¬(s.numIndices = 1) then .error .messageIndices
    else if ¬(s.numFecIndices = 0) then .error .messageFecIndices
    else .ok { ctx with
      pendingPackets := Function.update ctx.pendingPackets s.whistType
        (some (s.segmentData.take s.segmentSize)) }

def takeReceived (cfg : WhistPacketType → RingConfig) (ctx : ReceiveContext) :
    Option WhistSegment → Except RingFatal ReceiveContext
  | none => .ok ctx
  | some s => takeSegment cfg ctx s

/-- `lost` tells whether the pings find the connection lost, and `segment` is what was
received, if it is a segment. -/
def udpUpdate (cfg : WhistPacketType → RingConfig) (ctx : ReceiveContext) (lost : Bool)
    (segment : Option WhistSegment) (t : NackTiming) : Except RingFatal ReceiveContext :=
  if ctx.connectionLost then .ok ctx
  else if lost then .ok { ctx with connectionLost := true }
  else
    match takeReceived cfg ctx segment with
    | .error e => .error e
    | .ok ctx =>
      match ctx.ringBuffers .video with
      | none => .ok ctx
      | some r => (tryRecovering (cfg .video) t r).map (ctx.setRing .video)

/-- `frame_type` of the `VideoFrame` behind the packet's header. -/
def videoFrameType (bytes : ℕ → UInt8) : ℤ := Tcp.readInt (readBytes bytes 24 4) 0

def IsRecoveryPoint (bytes : ℕ → UInt8) : Prop := videoFrameType bytes = 1 ∨ videoFrameType bytes = 3

instance (bytes : ℕ → UInt8) : Decidable (IsRecoveryPoint bytes) := instDecidableOr

def RecoversAt (c : RingConfig) (r : RingBuffer) (id : ℤ) : Prop :=
  match (r.receivingFrames (c.slot id)).frameBuffer with
  | none => False
  | some block => IsRecoveryPoint (r.memory block)

instance (c : RingConfig) (r : RingBuffer) (id : ℤ) : Decidable (RecoversAt c r id) := by
  unfold RecoversAt
  split <;> infer_instance

def catchUpVideo (c : RingConfig) : List ℤ → RingBuffer → Except RingFatal RingBuffer
  | [], r => .ok r
  | id :: rest, r =>
    match isReadyToRender c r id with
    | .error e => .error e
    | .ok (ready,r) =>
      if ready ∧ RecoversAt c r id then resetStream c r id else catchUpVideo c rest r

def videoIds (c : RingConfig) (r : RingBuffer) : List ℤ :=
  (ids (max (max 0 (r.lastRenderedId + 1)) (r.maxId - c.ringBufferSize - 10)) r.maxId).reverse

def initialFrames : ℤ := 6

def skipAudio (c : RingConfig) (old : Bool) : List ℤ → RingBuffer → Except RingFatal RingBuffer
  | [], r => .ok r
  | id :: rest, r =>
    match isReadyToRender c r id with
    | .error e => .error e
    | .ok (true,r) => if r.maxId ≥ id + 2 ∨ old then resetStream c r id else .ok r
    | .ok (false,r) => skipAudio c old rest r

def catchUpAudio (c : RingConfig) (old : Bool) (r : RingBuffer) : Except RingFatal RingBuffer :=
  if r.lastRenderedId = -1 then
    if r.maxId > initialFrames then resetStream c r (r.maxId - initialFrames + 1) else .ok r
  else
    match isReadyToRender c r (r.lastRenderedId + 1) with
    | .error e => .error e
    | .ok (true,r) => .ok r
    | .ok (false,r) =>
      skipAudio c old (ids (max (r.lastRenderedId + 2) (r.maxId - c.ringBufferSize + 1)) r.maxId) r

def startGpu (c : RingConfig) (r : RingBuffer) : Except RingFatal RingBuffer :=
  let r := if r.lastRenderedId = -1 then { r with lastRenderedId := 0 } else r
  (isReadyToRender c r (r.lastRenderedId + 1)).map Prod.snd

/-- A frame handed out: its ID and the bytes behind `frame_buffer`. -/
structure ReturnedFrame where
  id : ℤ
  bytes : ℕ → UInt8

def returnedFrame (r : RingBuffer) : Option ReturnedFrame :=
  r.currentlyRenderingFrame.frameBuffer.map (fun block => ⟨r.currentlyRenderingFrame.id,r.memory block⟩)

def takeNextFrame (c : RingConfig) (r : RingBuffer) : Except RingFatal (Option ReturnedFrame × RingBuffer) :=
  let nextToPlayId := r.lastRenderedId + 1
  match isReadyToRender c r nextToPlayId with
  | .error e => .error e
  | .ok (true,r) => (setRendering c r nextToPlayId).map (fun r => (returnedFrame r,r))
  | .ok (false,r) => .ok (none,r)

/-- What `udp_get_packet` does before it takes the next frame; `old` tells whether the
audio frame looked at is older than 25 ms. -/
def catchUp (c : RingConfig) (type : WhistPacketType) (old : Bool) (r : RingBuffer) : Except RingFatal RingBuffer :=
  match type with
  | .video => catchUpVideo c (videoIds c r) r
  | .audio => catchUpAudio c old r
  | .gpu => startGpu c r
  | .message => .ok r

inductive Packet
  | frame (type : WhistPacketType) (f : ReturnedFrame)
  | message (bytes : Block)

def udpGetPacket (cfg : WhistPacketType → RingConfig) (ctx : ReceiveContext) (type : WhistPacketType)
    (old : Bool) : Except RingFatal (Option Packet × ReceiveContext) :=
  if ctx.connectionLost then .ok (none,ctx)
  else if type = .message then
    .ok ((ctx.pendingPackets .message).map Packet.message,
      { ctx with pendingPackets := Function.update ctx.pendingPackets .message none })
  else
    match ctx.ringBuffers type with
    | none => .error .nullRingBuffer
    | some r =>
      match catchUp (cfg type) type old r with
      | .error e => .error e
      | .ok r => (takeNextFrame (cfg type) r).map (fun p => (p.1.map (Packet.frame type),ctx.setRing type p.2))

inductive ClientCall
  | update (lost : Bool) (segment : Option WhistSegment) (t : NackTiming)
  | getPacket (type : WhistPacketType) (old : Bool)

/-- The client, the packets it was given so far, and whether it was aborted. -/
structure Receiver where
  context : ReceiveContext
  packets : List Packet := []
  aborted : Bool := false

def receiverStep (cfg : WhistPacketType → RingConfig) (s : Receiver) (call : ClientCall) : Receiver :=
  if s.aborted then s
  else
    match call with
    | .update lost segment t =>
      match udpUpdate cfg s.context lost segment t with
      | .error _ => { s with aborted := true }
      | .ok ctx => { s with context := ctx }
    | .getPacket type old =>
      match udpGetPacket cfg s.context type old with
      | .error _ => { s with aborted := true }
      | .ok (packet,ctx) => { s with context := ctx, packets := s.packets ++ packet.toList }

def registerRingBuffers (cfg : WhistPacketType → RingConfig) (types : WhistPacketType → Bool) : ReceiveContext where
  ringBuffers := fun type => if types type then (initRingBuffer (cfg type)).toOption else none

def receiverRun (cfg : WhistPacketType → RingConfig) (types : WhistPacketType → Bool)
    (calls : List ClientCall) : Receiver :=
  calls.foldl (receiverStep cfg) { context := registerRingBuffers cfg types }

def videoFrames (packets : List Packet) : List ReturnedFrame :=
  packets.filterMap (fun
    | .frame .video f => some f
    | _ => none)

end Whist.Ring
