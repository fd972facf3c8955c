import Whist.Server.VideoLoop
import Whist.Video.Encoders

/-! # The video loop with its encoder

The steps of the loop that change the encoder, and the encoder factory's thread.  The answers of `transfer_capture` and
of `video_encoder_encode` are put in for the inputs of the loop modelled before.
-/
namespace Whist.Server
open Whist.Ltr Whist.Codec

/-- What the loop takes from the network settings.  The bitrate without the share of FEC and
the VBV size are computed in floating point; `rest` stands for the other fields. -/
structure NetworkSettings where
  videoBitrate : ℤ
  vbvSize : ℤ
  desiredCodec : CodecType
  rest : ℕ := 0
deriving DecidableEq

structure MadeEncoder where
  serial : ℕ
  encoder : VideoEncoder

/-- The server, what the loop and the factory share, and whether the encoder was updated in
this iteration, last for `settings`. -/
structure EncodingServer where
  server : VideoServer := {}
  deviceWidth : ℤ := 0
  deviceHeight : ℤ := 0
  updateEncoder : Bool := false
  pendingEncoder : Bool := false
  encoderFinished : Bool := false
  encoderFactory : EncoderSettings := ⟨0,0,0,0,.unknown⟩
  encoderFactoryResult : Option MadeEncoder := none
  encoder : Option MadeEncoder := none
  lastNetworkSettings : Option NetworkSettings := none
  updated : Bool := false
  settings : EncoderSettings := ⟨0,0,0,0,.unknown⟩
  made : ℕ := 0
  destroyed : List ℕ := []

/-- What the surroundings decide at a step of the loop: the device's dimensions, the number of
the frame captured, and what the encoder libraries answer. -/
structure EncodingInput where
  video : VideoInput := {}
  encoder : EncoderInput := {}
  width : ℤ := 0
  height : ℤ := 0
  frame : ℕ := 0

inductive EncodingMove where
  | receive (m : WhistClientMessage)
  | handle
  | video (q : EncodingInput)
  | update (n : NetworkSettings) (q : EncoderInput)
  | factory (q : EncoderInput)

inductive EncodingError where
  | server (e : ServerError)
  | encoder (e : EncoderFatal)
  /-- `LOG_FATAL` of the factory. -/
  | noEncoder
  /-- `FATAL_ASSERT(video_bitrate > 0)`. -/
  | bitrate
  /-- `FATAL_ASSERT(encoder->frame_type == frame_type)`. -/
  | frameType
  /-- The thread has nothing to do there, or waits. -/
  | disabled

namespace EncodingServer

def multithreadedEncoderFactory (s : EncodingServer) (q : EncoderInput) : Except EncodingError EncodingServer :=
  match createVideoEncoder s.encoderFactory q with
  | .error e => .error (.encoder e)
  | .ok none => .error .noEncoder
  | .ok (some e) =>
    .ok { s with encoderFactoryResult := some ⟨s.made,e⟩, made := s.made + 1, encoderFinished := true }

def destroyEncoder (s : EncodingServer) : EncodingServer :=
  { s with encoder := none, destroyed := s.destroyed ++ (s.encoder.map MadeEncoder.serial).toList }

def destroyNvidia (s : EncodingServer) : EncodingServer :=
  match s.encoder with
  | some m => if m.encoder.activeEncoder = .nvidia then s.destroyEncoder else s
  | none => s

/-- The first part of `update_video_encoder` tries `reconfigure_encoder`. -/
def tryReconfigure (s : EncodingServer) (settings : EncoderSettings) (q : EncoderInput) :
    Except EncodingError EncodingServer :=
  match s.encoder with
  | none => .ok s
  | some m =>
    match reconfigureEncoder m.encoder settings q with
    | .error e => .error (.encoder e)
    | .ok (r,e) =>
      .ok { s with encoder := some { m with encoder := e }, updateEncoder := s.updateEncoder && !r }

/-- The second part takes the encoder that is pending or has a new one made. -/
def replaceEncoder (s : EncodingServer) (settings : EncoderSettings) (q : EncoderInput) :
    Except EncodingError EncodingServer :=
  if s.pendingEncoder then
    if s.encoderFinished then
      .ok { s.destroyEncoder with
        encoder := s.encoderFactoryResult, pendingEncoder := false, updateEncoder := false }
    else .ok s
  else
    let s := destroyNvidia { s with encoderFinished := false, encoderFactory := settings }
    match s.encoder with
    | some _ => .ok { s with pendingEncoder := true }
    | none =>
      match s.multithreadedEncoderFactory q with
      | .error e => .error e
      | .ok s =>
        .ok { s with encoder := s.encoderFactoryResult, pendingEncoder := false, updateEncoder := false }

def updateVideoEncoder (s : EncodingServer) (settings : EncoderSettings) (q : EncoderInput) :
    Except EncodingError EncodingServer :=
  match s.tryReconfigure settings q with
  | .error e => .error e
  | .ok s => if s.updateEncoder then s.replaceEncoder settings q else .ok s

def wanted (s : EncodingServer) (n : NetworkSettings) : EncoderSettings :=
  ⟨s.deviceWidth,s.deviceHeight,n.videoBitrate,n.vbvSize,n.desiredCodec⟩

def updateStage (s : EncodingServer) (n : NetworkSettings) (q : EncoderInput) :
    Except EncodingError EncodingServer :=
  if n.videoBitrate ≤ 0 then .error .bitrate
  else
    let s := { s with
      updateEncoder := s.updateEncoder || decide (s.lastNetworkSettings ≠ some n)
      lastNetworkSettings := some n
      settings := s.wanted n
      updated := true }
    if s.updateEncoder then s.updateVideoEncoder s.settings q else .ok s

def serverStep (s : EncodingServer) (mv : VideoServer.Move) : Except EncodingError EncodingServer :=
  match s.server.step mv with
  | .error e => .error (.server e)
  | .ok server => .ok { s with server := server }

/-- `create_new_device` waits for an encoder that is pending. -/
def createNewDevice (s : EncodingServer) (q : EncodingInput) : Except EncodingError EncodingServer :=
  let s := { s with deviceWidth := q.width, deviceHeight := q.height, updateEncoder := true }
  if s.pendingEncoder then
    if s.encoderFinished then
      { s with encoder := s.encoderFactoryResult, pendingEncoder := false }.serverStep (.video q.video)
    else .error .disabled
  else s.serverStep (.video q.video)

def transferFrame (s : EncodingServer) (q : EncodingInput) : Except EncodingError EncodingServer :=
  match s.encoder with
  | none => .error (.encoder .nullPointer)
  | some m =>
    match transferCapture s.deviceWidth s.deviceHeight m.encoder q.frame q.encoder with
    | .error e => .error (.encoder e)
    | .ok (r,forceIframe,e) =>
      { s with encoder := some { m with encoder := e } }.serverStep
        (.video { q.video with succeeds := r, forcesIframe := forceIframe })

def setLtrAction (s : EncodingServer) (q : EncodingInput) : Except EncodingError EncodingServer :=
  let action := (ltrGetNextAction s.server.video.ltr s.server.video.id).2.1
  { s with
    encoder := s.encoder.map fun m : MadeEncoder => MadeEncoder.mk m.serial (videoEncoderSetLtrAction m.encoder action)
  }.serverStep (.video q.video)

def encodeFrame (s : EncodingServer) (q : EncodingInput) : Except EncodingError EncodingServer :=
  match s.encoder with
  | none => .error (.encoder .nullPointer)
  | some m =>
    match videoEncoderEncode m.encoder s.server.video.ltr.frameCounter q.encoder with
    | .error e => .error (.encoder e)
    | .ok (r,e) =>
      if r ∧ e.frameType ≠ s.server.video.frameType then .error .frameType
      else { s with encoder := some { m with encoder := e } }.serverStep
        (.video { q.video with succeeds := r })

def videoStep (s : EncodingServer) (q : EncodingInput) : Except EncodingError EncodingServer :=
  match s.server.video.pc with
  | .reconfigureDevice =>
    if s.server.video.device then
      { s with deviceWidth := q.width, deviceHeight := q.height, updateEncoder := true }.serverStep
        (.video q.video)
    else s.serverStep (.video q.video)
  | .createDevice =>
    if s.server.video.device ∨ !q.video.succeeds then s.serverStep (.video q.video)
    else s.createNewDevice q
  | .readUpdateFrameAck =>
    if s.updated then { s with updated := false }.serverStep (.video q.video) else .error .disabled
  | .captureFailed => s.destroyNvidia.serverStep (.video q.video)
  | .transferCapture => s.transferFrame q
  | .nextAction => s.setLtrAction q
  | .encode => s.encodeFrame q
  | _ => s.serverStep (.video q.video)

def step (s : EncodingServer) : EncodingMove → Except EncodingError EncodingServer
  | .receive m => s.serverStep (.receive m)
  | .handle => s.serverStep .handle
  | .video q => s.videoStep q
  | .update n q =>
    if s.server.video.pc = .readUpdateFrameAck ∧ s.updated = false then s.updateStage n q
    else .error .disabled
  | .factory q =>
    if s.pendingEncoder ∧ s.encoderFinished = false then s.multithreadedEncoderFactory q
    else .error .disabled

end EncodingServer

end Whist.Server
