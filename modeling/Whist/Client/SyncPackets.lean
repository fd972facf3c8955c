import Whist.Client.Audio
import Whist.Network.Udp

/-! # The loop over the UDP packets and the two render threads

A call of the loop is one step.  A render thread reads its pending flag and its frame in one step, keeps the frame
while other threads run, and clears the flag in the end.  The next frame that `get_packet` returns recycles the one
before (`set_rendering`).
-/
namespace Whist.Client

open Whist.Udp (WhistPacketType)

variable {φ : Type}

structure VideoContext (φ : Type) where
  renderContext : Option φ := none
  pendingRenderContext : Bool := false

def videoReadyForFrame (v : VideoContext φ) : Bool := !v.pendingRenderContext

def receiveVideo (v : VideoContext φ) (videoFrame : φ) : VideoContext φ :=
  if !v.pendingRenderContext then ⟨some videoFrame,true⟩ else v

/-- `multithreaded_video_renderer` between its steps. -/
inductive VideoThread (φ : Type) where
  | waitSemaphore (pendingVideo : Bool)
  /-- In `render_video`, with the frame it consumes. -/
  | consume (frame : Option φ)
  /-- In `render_video`, behind the part that reads the frame. -/
  | render

/-- `multithreaded_audio_renderer` between its steps. -/
inductive AudioThread (φ : Type) where
  | waitSemaphore
  | woken
  /-- In `render_audio`, with the frame it renders. -/
  | render (frame : Option φ)

structure WhistRenderer (φ : Type) where
  videoContext : VideoContext φ := {}
  audioContext : AudioContext φ
  videoThread : VideoThread φ := .waitSemaphore false
  audioThread : AudioThread φ := .waitSemaphore
  hasVideoRenderedYet : Bool := false
  videoSemaphore : ℕ := 0
  audioSemaphore : ℕ := 0

/-- `q` is what a call for audio finds. -/
def rendererWantsFrame (r : WhistRenderer φ) (t : WhistPacketType) (q : AudioQueues) :
    WhistRenderer φ × Bool :=
  match t with
  | .video => (r, videoReadyForFrame r.videoContext)
  | .audio =>
    let a := audioReadyForFrame r.audioContext q
    ({ r with audioContext := a.1 }, a.2)
  | .gpu | .message => (r, true)

def rendererReceiveFrame (r : WhistRenderer φ) (t : WhistPacketType) (frame : φ) :
    WhistRenderer φ :=
  match t with
  | .video =>
    { r with
      videoContext := receiveVideo r.videoContext frame
      videoSemaphore := r.videoSemaphore + 1 }
  | .audio =>
    { r with
      audioContext := receiveAudio r.audioContext frame
      audioSemaphore := r.audioSemaphore + 1 }
  | .gpu | .message => r

/-- Where the loop of `multithreaded_sync_udp_packets` is, for a type of packets. -/
inductive SyncPc (φ : Type) where
  | wantsFrame
  | getPacket
  | receiveFrame (whistPacket : φ)
  deriving DecidableEq

structure ClientState (φ : Type) where
  renderer : WhistRenderer φ
  /-- The loop only handles video, audio and GPU packets here. -/
  packetType : WhistPacketType := .video
  syncPc : SyncPc φ := .wantsFrame
  lastWhistPacket : WhistPacketType → Option φ := fun _ => none

def nextPacketType : WhistPacketType → WhistPacketType
  | .video => .audio
  | .audio => .gpu
  | .gpu | .message => .video

inductive Action (φ : Type) where
  /-- `renderer_wants_frame`. -/
  | wantsFrame (q : AudioQueues)
  /-- `free_packet` and `get_packet`, with the packet it returns. -/
  | getPacket (whistPacket : Option φ)
  | receiveFrame
  /-- The video thread passes its semaphore, or its wait of 1 ms ends. -/
  | videoWake
  /-- The part of `render_video` that reads the frame ends, if there is a frame. -/
  | videoConsume
  /-- `render_video` returns: whether a frame is still to be rendered, or one has been. -/
  | videoReturn (pendingVideo hasRendered : Bool)
  | audioWake
  | audioRender
  /-- Within `render_audio`: the device may have run dry. -/
  | audioCheck (audioDeviceLen : ℤ)
  | audioDecoded (audioDeviceLen decodedDataSize : ℤ)
  | audioDone

def ClientState.nextType (c : ClientState φ) : ClientState φ :=
  { c with packetType := nextPacketType c.packetType, syncPc := .wantsFrame }

def syncStep (c : ClientState φ) : Action φ → ClientState φ
  | .wantsFrame q =>
    match c.syncPc with
    | .wantsFrame =>
      let r := rendererWantsFrame c.renderer c.packetType q
      if r.2 then { c with renderer := r.1, syncPc := .getPacket }
      else { c with renderer := r.1 }.nextType
    | _ => c
  | .getPacket whistPacket =>
    match c.syncPc, whistPacket with
    | .getPacket, none => c.nextType
    | .getPacket, some whistPacket => { c with syncPc := .receiveFrame whistPacket }
    | _, _ => c
  | .receiveFrame =>
    match c.syncPc with
    | .receiveFrame whistPacket =>
      { c with
        renderer := rendererReceiveFrame c.renderer c.packetType whistPacket
        lastWhistPacket :=
          Function.update c.lastWhistPacket c.packetType (some whistPacket) }.nextType
    | _ => c
  | _ => c

def videoStep (r : WhistRenderer φ) : Action φ → WhistRenderer φ
  | .videoWake =>
    match r.videoThread with
    | .waitSemaphore pendingVideo =>
      let thread := if r.videoContext.pendingRenderContext then
        .consume r.videoContext.renderContext else .render
      if r.videoSemaphore > 0 then
        { r with videoSemaphore := r.videoSemaphore - 1, videoThread := thread }
      else if pendingVideo then { r with videoThread := thread }
      else r
    | _ => r
  | .videoConsume =>
    match r.videoThread with
    | .consume _ =>
      { r with
        videoContext := { r.videoContext with pendingRenderContext := false }
        videoThread := .render }
    | _ => r
  | .videoReturn pendingVideo hasRendered =>
    match r.videoThread with
    | .render =>
      let r := { r with videoThread := .waitSemaphore pendingVideo }
      if !pendingVideo && hasRendered && !r.hasVideoRenderedYet then
        { r with hasVideoRenderedYet := true, audioSemaphore := r.audioSemaphore + 1 }
      else r
    | _ => r
  | _ => r

def audioStep (r : WhistRenderer φ) : Action φ → WhistRenderer φ
  | .audioWake =>
    match r.audioThread with
    | .waitSemaphore =>
      if r.audioSemaphore > 0 then
        { r with audioSemaphore := r.audioSemaphore - 1, audioThread := .woken }
      else r
    | _ => r
  | .audioRender =>
    match r.audioThread with
    | .woken =>
      if r.hasVideoRenderedYet && r.audioContext.pendingRenderContext then
        { r with audioThread := .render r.audioContext.renderContext.audioFrame }
      else { r with audioThread := .waitSemaphore }
    | _ => r
  | .audioCheck audioDeviceLen =>
    match r.audioThread with
    | .render _ => { r with audioContext := checkDeviceBufferDry r.audioContext audioDeviceLen }
    | _ => r
  | .audioDecoded audioDeviceLen decodedDataSize =>
    match r.audioThread with
    | .render _ =>
      { r with audioContext := renderDecodedFrame r.audioContext audioDeviceLen decodedDataSize }
    | _ => r
  | .audioDone =>
    match r.audioThread with
    | .render _ =>
      { r with
        audioContext := { r.audioContext with pendingRenderContext := false }
        audioThread := .waitSemaphore }
    | _ => r
  | _ => r

def step (c : ClientState φ) (action : Action φ) : ClientState φ :=
  match action with
  | .wantsFrame _ | .getPacket _ | .receiveFrame => syncStep c action
  | .videoWake | .videoConsume | .videoReturn _ _ =>
    { c with renderer := videoStep c.renderer action }
  | .audioWake | .audioRender | .audioCheck _ | .audioDecoded _ _ | .audioDone =>
    { c with renderer := audioStep c.renderer action }

/-- `init_renderer` at a reading of the clock, and the start of the loop. -/
def initClient (currentTime : Binary64) : ClientState φ where
  renderer := { audioContext := initAudio currentTime }

end Whist.Client
