import Whist.Video.Ltr

/-! # The video encoders

`encode.c`, its two encoders and `transfer_capture`, as built on Linux with long-term reference frames.  What CUDA,
NVENC and ffmpeg answer is an input.  `seen` are the frames an encoder was given since it was created or reset, and
`settings` what the library was last set to.
-/
namespace Whist.Codec
open Whist.Ltr

inductive CodecType where
  | unknown
  | h264
  | h265
deriving DecidableEq

inductive VideoEncoderType where
  | nvidia
  | ffmpeg
deriving DecidableEq

inductive DeviceType where
  | nvidia
  | x11
deriving DecidableEq

structure EncoderSettings where
  width : ℤ
  height : ℤ
  bitrate : ℤ
  vbvSize : ℤ
  codecType : CodecType
deriving DecidableEq

structure Bitstream where
  call : ℕ
  frame : Option ℕ
  key : Bool
deriving DecidableEq

/-- One of the `parts` of a bitstream; its data pointer may be NULL. -/
structure Packet where
  data : Option Bitstream
  part : ℕ := 0
  parts : ℕ := 1
  size : ℕ
deriving DecidableEq

structure SentFrame where
  call : ℕ
  frame : Option ℕ
deriving DecidableEq

structure RegisteredResource where
  deviceType : DeviceType
  frame : Option ℕ
deriving DecidableEq

/-- Without a `registered_resource` its handle is NULL. -/
structure NvidiaEncoder where
  width : ℤ
  height : ℤ
  bitrate : ℤ
  vbvSize : ℤ
  codecType : CodecType
  cudaContext : ℕ
  settings : EncoderSettings
  registeredResource : Option RegisteredResource := none
  frame : Option Bitstream := none
  frameSize : ℕ := 0
  frameType : VideoFrameType := .normal
  wantsIframe : Bool := false
  ltrAction : LtrAction := ⟨.normal,0⟩
  seen : List ℕ := []
deriving DecidableEq

/-- The filter graph and the codec hold frames until they give them out. -/
structure FfmpegEncoder where
  settings : EncoderSettings
  gopSize : ℕ := 999999
  framesSinceLastIframe : ℕ := 0
  wantsIframe : Bool := false
  frameType : VideoFrameType := .normal
  swFrame : Option ℕ := none
  hwFrame : Option (Option ℕ)
  ltrAction : LtrAction := ⟨.normal,0⟩
  graph : List SentFrame := []
  codec : List SentFrame := []
  seen : List ℕ := []
deriving DecidableEq

/-- `bsf` are the packets that the output filter holds. -/
structure VideoEncoder where
  activeEncoderIdx : Fin 2 := ⟨0,Nat.two_pos⟩
  activeEncoder : VideoEncoderType
  packets : List Packet := []
  inWidth : ℤ
  inHeight : ℤ
  frameType : VideoFrameType := .normal
  encodedFrameSize : ℕ := 0
  codecType : CodecType
  nvidiaEncoders : Fin 2 → Option NvidiaEncoder := fun _ => none
  ffmpegEncoder : Option FfmpegEncoder := none
  nextLtrAction : LtrAction := ⟨.normal,0⟩
  bsf : Option (List Packet)
deriving DecidableEq

/-- What stops the server. -/
inductive EncoderFatal where
  /-- `LOG_FATAL` of `get_codec_guid`. -/
  | unexpectedCodec
  /-- `FATAL_ASSERT(encoder->ltr_action.long_term_frame_index == 0)` of an IDR frame. -/
  | longTermFrameIndex
  | unlockBitstream
  | unmapInputResource
  /-- A `FATAL_ASSERT` of the output filter. -/
  | outputFilter
  | nullPointer
deriving DecidableEq

inductive IntakeOutcome where
  | unregistered
  | unlocked
  | copied
  | taken
deriving DecidableEq

/-- What `av_buffersink_get_frame` gives; a frame goes on to `avcodec_send_frame`. -/
inductive SinkAnswer where
  | frame (sent : Bool)
  | again
  | error
deriving DecidableEq

inductive ReceiveAnswer where
  | packet (key : Bool) (size : ℕ)
  | again
  | error
deriving DecidableEq

/-- What the libraries answer to the calls of one step. -/
structure EncoderInput where
  cudaContext : ℕ := 0
  createsFilter : Bool := true
  createsNvidia : Bool := true
  createsFfmpeg : Bool := true
  hwFrame : Bool := false
  reconfigures : Bool := true
  transfersScreen : Bool := true
  deviceType : DeviceType := .nvidia
  intake : IntakeOutcome := .taken
  transfersHwFrame : Bool := true
  maps : Bool := true
  unlocks : Bool := true
  encodes : Bool := true
  unmaps : Bool := true
  locks : Bool := true
  key : Bool := false
  size : ℕ := 0
  filters : Bool := true
  filtered : List ℕ := []
  filterDelivers : ℕ := 20
  addsFrame : Bool := true
  getsBuffer : Bool := true
  sink : List SinkAnswer := []
  received : List ReceiveAnswer := []
deriving DecidableEq

def MAX_ENCODER_PACKETS : ℕ := 20

def createNvidiaEncoder (bitrate : ℤ) (codec : CodecType) (outWidth outHeight vbvSize : ℤ)
    (q : EncoderInput) : Except EncoderFatal (Option NvidiaEncoder) :=
  if !q.createsNvidia then .ok none
  else if codec = .unknown then .error .unexpectedCodec
  else .ok (some {
    width := outWidth
    height := outHeight
    bitrate := bitrate
    vbvSize := vbvSize
    codecType := codec
    cudaContext := q.cudaContext
    settings := ⟨outWidth,outHeight,bitrate,vbvSize,codec⟩ })

/-- The bitrate and the VBV size that the encoder was made with stay in its fields. -/
def nvidiaReconfigureEncoder (encoder : NvidiaEncoder) (width height bitrate vbvSize : ℤ) (codec : CodecType)
    (q : EncoderInput) : Except EncoderFatal (Bool × NvidiaEncoder) :=
  let needsIdrFrame := decide (width ≠ encoder.width ∨ height ≠ encoder.height ∨ codec ≠ encoder.codecType)
  if codec = .unknown then .error .unexpectedCodec
  else if !q.reconfigures then .ok (false,encoder)
  else
    -- `resetEncoder` goes with `forceIDR`: what was encoded before is forgotten.
    .ok (true,{ encoder with
      wantsIframe := encoder.wantsIframe || needsIdrFrame
      codecType := codec
      width := width
      height := height
      settings := ⟨width,height,bitrate,vbvSize,codec⟩
      seen := if needsIdrFrame then [] else encoder.seen })

def registerFrame (encoder : NvidiaEncoder) (frame : ℕ) (q : EncoderInput) : Bool × NvidiaEncoder :=
  match q.deviceType, q.intake with
  | _, .unregistered => (false,encoder)
  | .nvidia, _ => (true,{ encoder with registeredResource := some ⟨.nvidia,some frame⟩ })
  | .x11, .unlocked => (false,{ encoder with registeredResource := some ⟨.x11,none⟩ })
  | .x11, .copied => (false,{ encoder with registeredResource := some ⟨.x11,some frame⟩ })
  | .x11, .taken => (true,{ encoder with registeredResource := some ⟨.x11,some frame⟩ })

def nvidiaEncoderFrameIntake (encoder : NvidiaEncoder) (width height : ℤ) (frame : ℕ) (q : EncoderInput) :
    Except EncoderFatal (Bool × NvidiaEncoder) :=
  if width ≠ encoder.width ∨ height ≠ encoder.height then
    match nvidiaReconfigureEncoder encoder width height encoder.bitrate encoder.vbvSize encoder.codecType q with
    | .error e => .error e
    | .ok (false,encoder) => .ok (false,encoder)
    | .ok (true,encoder) => .ok (registerFrame encoder frame q)
  else .ok (registerFrame encoder frame q)

def nvidiaEncoderEncode (encoder : NvidiaEncoder) (counter : ℕ) (q : EncoderInput) :
    Except EncoderFatal (Bool × NvidiaEncoder) :=
  match encoder.registeredResource with
  | none => .ok (false,encoder)
  | some resource =>
    if resource.deviceType = .nvidia ∧ !q.maps then .ok (false,encoder)
    else if encoder.frame.isSome ∧ !q.unlocks then .error .unlockBitstream
    else
      let idr := encoder.wantsIframe || decide (encoder.ltrAction.frameType = .intra)
      if idr ∧ encoder.ltrAction.longTermFrameIndex ≠ 0 then .error .longTermFrameIndex
      else
        let encoder := { encoder with
          frame := none
          frameType := if idr then .intra else encoder.ltrAction.frameType }
        if !q.encodes then .ok (false,encoder)
        else if resource.deviceType = .nvidia ∧ !q.unmaps then .error .unmapInputResource
        else
          let encoder := { encoder with registeredResource := none, seen := encoder.seen ++ [counter] }
          if !q.locks then .ok (false,encoder)
          else .ok (true,{ encoder with
            frame := some ⟨counter,resource.frame,q.key⟩
            frameSize := q.size
            wantsIframe := false })

namespace FfmpegEncoder

def wrapped (encoder : FfmpegEncoder) : ℕ :=
  if encoder.framesSinceLastIframe % encoder.gopSize = 0 then 0 else encoder.framesSinceLastIframe

def activeFrame (encoder : FfmpegEncoder) : Option ℕ := encoder.hwFrame.getD encoder.swFrame

end FfmpegEncoder

def createFfmpegEncoder (settings : EncoderSettings) (q : EncoderInput) : Option FfmpegEncoder :=
  if q.createsFfmpeg then
    some { settings := settings, hwFrame := if q.hwFrame then some none else none }
  else none

def ffmpegEncoderFrameIntake (encoder : FfmpegEncoder) (frame : ℕ) (q : EncoderInput) : Bool × FfmpegEncoder :=
  match encoder.hwFrame with
  | none => (true,{ encoder with swFrame := some frame })
  | some _ =>
    if q.transfersHwFrame then
      (true,{ encoder with swFrame := some frame, hwFrame := some (some frame) })
    else (false,{ encoder with swFrame := some frame, hwFrame := some none })

/-- The loop over the frames that the filter graph gives out: whether it ended without an error,
the frames left in the graph, and those sent to the codec. -/
def submitFrames : List SinkAnswer → List SentFrame → Bool × List SentFrame × List SentFrame
  | .frame true :: answers, frame :: graph =>
    let r := submitFrames answers graph
    (r.1,r.2.1,frame :: r.2.2)
  | .frame false :: _, _ :: graph => (false,graph,[])
  | .error :: _, graph => (false,graph,[])
  | _, graph => (true,graph,[])

/-- Whether it returned zero.  A frame that the graph did not take is only warned about.
Long-term references are simulated: a frame that is not INTRA has the type asked for. -/
def ffmpegEncoderSendFrame (encoder : FfmpegEncoder) (counter : ℕ) (q : EncoderInput) :
    Bool × FfmpegEncoder :=
  let graph := if q.addsFrame then encoder.graph ++ [⟨counter,encoder.activeFrame⟩] else encoder.graph
  let r := submitFrames q.sink graph
  let encoder := { encoder with
    hwFrame := encoder.hwFrame.map fun frame => if q.addsFrame || q.getsBuffer then none else frame
    graph := r.2.1
    codec := encoder.codec ++ r.2.2
    seen := encoder.seen ++ r.2.2.map SentFrame.call }
  if r.1 then
    (true,{ encoder with
      framesSinceLastIframe := encoder.wrapped + 1
      wantsIframe := false
      frameType :=
        if encoder.wrapped = 0 ∨ encoder.wantsIframe then .intra else encoder.ltrAction.frameType })
  else (false,encoder)

/-- The loop of `transfer_ffmpeg_data`, with room for some packets: whether it ended without an
error, the frames left in the codec, and the packets. -/
def receivePackets : ℕ → List ReceiveAnswer → List SentFrame → Bool × List SentFrame × List Packet
  | 0, _, codec => (false,codec,[])
  | room + 1, .packet key size :: answers, frame :: codec =>
    let r := receivePackets room answers codec
    (r.1,r.2.1,{ data := some ⟨frame.call,frame.frame,key⟩, size := size } :: r.2.2)
  | _ + 1, .error :: _, codec => (false,codec,[])
  | _ + 1, _, codec => (true,codec,[])

namespace VideoEncoder

def nvidiaEncoder (e : VideoEncoder) : Option NvidiaEncoder := e.nvidiaEncoders e.activeEncoderIdx

def setNvidia (e : VideoEncoder) (n : NvidiaEncoder) : VideoEncoder :=
  { e with nvidiaEncoders := Function.update e.nvidiaEncoders e.activeEncoderIdx (some n) }

end VideoEncoder

def createOutputFilter (codecType : CodecType) (q : EncoderInput) : Option (List Packet) :=
  if codecType = .h264 ∧ q.createsFilter then some [] else none

def createVideoEncoder (settings : EncoderSettings) (q : EncoderInput) :
    Except EncoderFatal (Option VideoEncoder) :=
  let bsf := createOutputFilter settings.codecType q
  match createNvidiaEncoder settings.bitrate settings.codecType settings.width settings.height
      settings.vbvSize q with
  | .error e => .error e
  | .ok (some n) =>
    .ok (some {
      activeEncoder := .nvidia
      inWidth := settings.width
      inHeight := settings.height
      codecType := settings.codecType
      nvidiaEncoders := Function.update (fun _ => none) ⟨0,Nat.two_pos⟩ (some n)
      bsf := bsf })
  | .ok none =>
    .ok ((createFfmpegEncoder settings q).map fun f => {
      activeEncoder := .ffmpeg
      inWidth := settings.width
      inHeight := settings.height
      codecType := settings.codecType
      ffmpegEncoder := some f
      bsf := bsf })

/-- The entry of `nvidia_encoders` is asked, whichever encoder is active. -/
def reconfigureEncoder (encoder : VideoEncoder) (settings : EncoderSettings) (q : EncoderInput) :
    Except EncoderFatal (Bool × VideoEncoder) :=
  let encoder := { encoder with
    inWidth := settings.width, inHeight := settings.height, codecType := settings.codecType }
  match encoder.nvidiaEncoder with
  | none => .ok (false,encoder)
  | some n =>
    match nvidiaReconfigureEncoder n settings.width settings.height settings.bitrate settings.vbvSize
        settings.codecType q with
    | .error e => .error e
    | .ok (r,n) => .ok (r,encoder.setNvidia n)

def videoEncoderSetIframe (encoder : VideoEncoder) : VideoEncoder :=
  match encoder.activeEncoder with
  | .nvidia =>
    match encoder.nvidiaEncoder with
    | none => encoder
    | some n => encoder.setNvidia { n with wantsIframe := true }
  | .ffmpeg =>
    { encoder with ffmpegEncoder := encoder.ffmpegEncoder.map fun f => { f with wantsIframe := true } }

def videoEncoderSetLtrAction (encoder : VideoEncoder) (action : LtrAction) : VideoEncoder :=
  { encoder with nextLtrAction := action }

/-- `encoded_frame_size` of packets: their number, and for each its size and its data. -/
def packetsSize (packets : List Packet) : ℕ := 4 + (packets.map fun p => 4 + p.size).sum

def filterParts (data : Option Bitstream) (sizes : List ℕ) : List Packet :=
  sizes.mapIdx fun i size => ⟨data,i,sizes.length,size⟩

def transferNvidiaData (encoder : VideoEncoder) (n : NvidiaEncoder) (q : EncoderInput) :
    Except EncoderFatal VideoEncoder :=
  let encoder := { encoder.setNvidia n with frameType := n.frameType }
  match encoder.bsf with
  | none =>
    .ok { encoder with
      packets := [{ data := n.frame, size := n.frameSize }], encodedFrameSize := 8 + n.frameSize }
  | some held =>
    -- The frame is copied for the filter.
    if n.frame.isNone ∧ n.frameSize ≠ 0 then .error .nullPointer
    else if !q.filters then .error .outputFilter
    else
      let held := held ++ filterParts n.frame q.filtered
      let delivered := min q.filterDelivers MAX_ENCODER_PACKETS
      .ok { encoder with
        packets := held.take delivered
        bsf := some (held.drop delivered)
        encodedFrameSize := packetsSize (held.take delivered) }

def transferFfmpegData (encoder : VideoEncoder) (f : FfmpegEncoder) (q : EncoderInput) :
    Bool × VideoEncoder :=
  let r := receivePackets MAX_ENCODER_PACKETS q.received f.codec
  let encoder := { encoder with
    ffmpegEncoder := some { f with codec := r.2.1 }
    packets := r.2.2
    encodedFrameSize := packetsSize r.2.2 }
  if r.1 then (true,{ encoder with frameType := f.frameType }) else (false,encoder)

/-- Whether it returned zero.  The result of `nvidia_encoder_encode` is not looked at. -/
def videoEncoderEncode (encoder : VideoEncoder) (counter : ℕ) (q : EncoderInput) :
    Except EncoderFatal (Bool × VideoEncoder) :=
  match encoder.activeEncoder with
  | .nvidia =>
    match encoder.nvidiaEncoder with
    | none => .error .nullPointer
    | some n =>
      match nvidiaEncoderEncode { n with ltrAction := encoder.nextLtrAction } counter q with
      | .error e => .error e
      | .ok (_,n) => (transferNvidiaData encoder n q).map fun encoder => (true,encoder)
  | .ffmpeg =>
    match encoder.ffmpegEncoder with
    | none => .error .nullPointer
    | some f =>
      let r := ffmpegEncoderSendFrame { f with ltrAction := encoder.nextLtrAction } counter q
      let encoder := { encoder with ffmpegEncoder := some r.2 }
      if r.1 then .ok (transferFfmpegData encoder r.2 q) else .ok (false,encoder)

/-- The other nvidia encoder is taken, and created if need be, when the CUDA context is not
the active one's. -/
def switchContext (encoder : VideoEncoder) (old : NvidiaEncoder) (q : EncoderInput) :
    Except EncoderFatal VideoEncoder :=
  let idx : Fin 2 := if encoder.activeEncoderIdx.val = 1 then ⟨0,Nat.two_pos⟩ else ⟨1,Nat.one_lt_two⟩
  let encoder := { encoder with activeEncoderIdx := idx }
  match encoder.nvidiaEncoder with
  | some _ => .ok encoder
  | none =>
    match createNvidiaEncoder old.bitrate old.codecType old.width old.height old.vbvSize q with
    | .error e => .error e
    | .ok n => .ok { encoder with nvidiaEncoders := Function.update encoder.nvidiaEncoders idx n }

/-- Whether it returned zero, and whether it set `*force_iframe`. -/
def transferCapture (width height : ℤ) (encoder : VideoEncoder) (frame : ℕ) (q : EncoderInput) :
    Except EncoderFatal (Bool × Bool × VideoEncoder) :=
  if width ≠ encoder.inWidth ∨ height ≠ encoder.inHeight then .ok (false,false,encoder)
  else if !q.transfersScreen then .ok (false,false,encoder)
  else
    match encoder.activeEncoder with
    | .nvidia =>
      match encoder.nvidiaEncoder with
      | none => .error .nullPointer
      | some old =>
        let forceIframe := decide (old.cudaContext ≠ q.cudaContext)
        match if forceIframe then switchContext encoder old q else .ok encoder with
        | .error e => .error e
        | .ok encoder =>
          match encoder.nvidiaEncoder with
          | none => .error .nullPointer
          | some n =>
            match nvidiaEncoderFrameIntake n width height frame q with
            | .error e => .error e
            | .ok (r,n) => .ok (r,forceIframe,encoder.setNvidia n)
    | .ffmpeg =>
      match encoder.ffmpegEncoder with
      | none => .error .nullPointer
      | some f =>
        let r := ffmpegEncoderFrameIntake f frame q
        .ok (r.1,false,{ encoder with ffmpegEncoder := some r.2 })

end Whist.Codec
