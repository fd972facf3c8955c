import Whist.Foundation.Run
import Whist.Video.LtrSession

/-! # The video loop and the thread that handles the client's messages

`multithreaded_send_video` and the handlers share the fields of `WhistServerState` without a lock: each read or write
is one step.  What the device, the encoder, the network and the timers decide is an input.  Long-term reference frames
are enabled.
-/
namespace Whist.Server
open Whist.Ltr

@[ext]
structure Dimensions where
  width : ℤ
  height : ℤ
  dpi : ℤ
deriving DecidableEq, Repr

/-- The fields of the server state that both threads use, and `stream_needs_recovery`. -/
structure WhistServerState where
  clientDimensions : Dimensions := ⟨-1,-1,-1⟩
  updateDevice : Bool := true
  frameAckId : UInt32 := 0
  updateFrameAck : Bool := false
  stopStreaming : Bool := false
  streamNeedsRestart : Bool := false
  streamNeedsRecovery : Bool := false
deriving DecidableEq

inductive WhistClientMessage where
  | dimensions (d : Dimensions)
  | frameAck (frameId : UInt32)
  | stopStreaming
  | startStreaming
deriving DecidableEq

inductive MessagePc where
  | idle
  | compareWidth (d : Dimensions)
  | compareHeight (d : Dimensions)
  | compareDpi (d : Dimensions)
  | writeWidth (d : Dimensions)
  | writeHeight (d : Dimensions)
  | writeDpi (d : Dimensions)
  | setUpdateDevice (d : Dimensions)
  | writeFrameAckId (frameId : UInt32)
  | setUpdateFrameAck
  | stopStreaming
  | readStopStreaming
  | clearStopStreaming
  | setStreamNeedsRestart
deriving DecidableEq

inductive VideoPc where
  | newConnection
  | initWidth
  | initHeight
  | initDpi
  | readWidth
  | readHeight
  | readUpdateDevice
  | clearUpdateDevice
  | reconfigureDevice
  | restartAfterUpdate
  | createDevice
  | createFailed
  | restartAfterCreate
  | readUpdateFrameAck
  | markFrameReceived
  | clearUpdateFrameAck
  | pendingStreamReset
  | readStopStreaming
  | restartForCapture
  | captureScreen
  | captureFailed
  | disableEncoder
  | sendCondition
  | transferCapture
  | restartOrRecovery
  | restartOrBroken
  | clearRestart
  | clearRecovery
  | nextAction
  | encode
  | exited
deriving DecidableEq

structure VideoLoop where
  pc : VideoPc := .newConnection
  initializedNetworkSettings : Bool := false
  trueWidth : ℤ := 0
  trueHeight : ℤ := 0
  device : Bool := false
  ltr : LtrState := ltrCreate
  accumulatedFrames : ℤ := 0
  consecutiveIdenticalFrames : ℕ := 0
  disableEncoder : Bool := false
  frameType : VideoFrameType := .normal
  id : UInt32 := 1
deriving DecidableEq

inductive Iteration where
  | disturbed
  | running
  | complete
deriving DecidableEq

/-- The two threads, and what has happened: the last dimensions requested and configured, the
acks received and passed on, and whether a requested restart waits for its INTRA frame. -/
structure VideoServer where
  state : WhistServerState := {}
  messagePc : MessagePc := .idle
  video : VideoLoop := {}
  requested : Option Dimensions := none
  acks : List UInt32 := []
  configured : Option Dimensions := none
  passed : List UInt32 := []
  restartOwed : Bool := false
  iteration : Iteration := .disturbed
deriving DecidableEq

structure VideoInput where
  newConnection : Bool := false
  succeeds : Bool := true
  pendingStreamReset : Bool := false
  accumulatedFrames : ℤ := 0
  minFpsReached : Bool := false
  forcesIframe : Bool := false
deriving DecidableEq

inductive ServerError where
  /-- The thread has nothing to do there. -/
  | disabled
  /-- `LOG_FATAL` of `update_current_device`. -/
  | reconfigureFailed
  | ltr (e : LtrFatal)
deriving DecidableEq

namespace VideoServer

def consecutiveIdenticalFramesLimit : ℕ := 60

def receive (s : VideoServer) : WhistClientMessage → VideoServer
  | .dimensions d => { s with messagePc := .compareWidth d, requested := some d }
  | .frameAck frameId => { s with messagePc := .writeFrameAckId frameId, acks := s.acks ++ [frameId] }
  | .stopStreaming => { s with messagePc := .stopStreaming }
  | .startStreaming => { s with messagePc := .readStopStreaming }

def handle (s : VideoServer) : VideoServer :=
  let st := s.state
  let dims := st.clientDimensions
  match s.messagePc with
  | .idle => s
  | .compareWidth d =>
    { s with messagePc := if dims.width ≠ d.width then .writeWidth d else .compareHeight d }
  | .compareHeight d =>
    { s with messagePc := if dims.height ≠ d.height then .writeWidth d else .compareDpi d }
  | .compareDpi d =>
    { s with messagePc := if dims.dpi ≠ d.dpi then .writeWidth d else .idle }
  | .writeWidth d =>
    { s with
      messagePc := .writeHeight d
      state := { st with clientDimensions := { dims with width := d.width } } }
  | .writeHeight d =>
    { s with
      messagePc := .writeDpi d
      state := { st with clientDimensions := { dims with height := d.height } } }
  | .writeDpi d =>
    { s with
      messagePc := .setUpdateDevice d
      state := { st with clientDimensions := { dims with dpi := d.dpi } } }
  | .setUpdateDevice _ => { s with messagePc := .idle, state := { st with updateDevice := true } }
  | .writeFrameAckId frameId =>
    { s with messagePc := .setUpdateFrameAck, state := { st with frameAckId := frameId } }
  | .setUpdateFrameAck => { s with messagePc := .idle, state := { st with updateFrameAck := true } }
  | .stopStreaming => { s with messagePc := .idle, state := { st with stopStreaming := true } }
  | .readStopStreaming =>
    { s with messagePc := if st.stopStreaming then .clearStopStreaming else .idle }
  | .clearStopStreaming =>
    { s with messagePc := .setStreamNeedsRestart, state := { st with stopStreaming := false } }
  | .setStreamNeedsRestart =>
    { s with
      messagePc := .idle
      state := { st with streamNeedsRestart := true }
      restartOwed := true }

def goto (s : VideoServer) (pc : VideoPc) : VideoServer := { s with video := { s.video with pc := pc } }

/-- `continue` starts the next iteration before this one has done its work. -/
def continueLoop (s : VideoServer) : VideoServer :=
  { s.goto .newConnection with
    iteration := if s.iteration = .running then .disturbed else s.iteration }

def endLoop (s : VideoServer) : VideoServer :=
  { s.goto .newConnection with
    iteration := if s.iteration = .running then .complete else s.iteration }

def configure (s : VideoServer) : VideoServer :=
  { s with
    configured := some ⟨s.video.trueWidth,s.video.trueHeight,s.state.clientDimensions.dpi⟩
    video := { s.video with device := true } }

def stepAt (s : VideoServer) (q : VideoInput) : VideoPc → Except ServerError VideoServer
  | .newConnection =>
    let s := { s with
      iteration := if s.iteration = Iteration.disturbed then .running else s.iteration }
    if q.newConnection then
      .ok { s with
        state := { s.state with streamNeedsRestart := true }
        video := { s.video with initializedNetworkSettings := false, pc := .initWidth } }
    else .ok (s.goto .initWidth)
  | .initWidth =>
    if s.video.initializedNetworkSettings then .ok (s.goto .readWidth)
    else if s.state.clientDimensions.width = -1 then .ok s.continueLoop
    else .ok (s.goto .initHeight)
  | .initHeight =>
    if s.state.clientDimensions.height = -1 then .ok s.continueLoop else .ok (s.goto .initDpi)
  | .initDpi =>
    if s.state.clientDimensions.dpi = -1 then .ok s.continueLoop
    else .ok { s with video := { s.video with initializedNetworkSettings := true, pc := .readWidth } }
  | .readWidth =>
    .ok { s with video := { s.video with trueWidth := s.state.clientDimensions.width, pc := .readHeight } }
  | .readHeight =>
    .ok { s with
      video := { s.video with trueHeight := s.state.clientDimensions.height, pc := .readUpdateDevice } }
  | .readUpdateDevice =>
    .ok (s.goto (if s.state.updateDevice then .clearUpdateDevice else .createDevice))
  | .clearUpdateDevice =>
    .ok { s.goto .reconfigureDevice with state := { s.state with updateDevice := false } }
  | .reconfigureDevice =>
    if s.video.device then
      if q.succeeds then .ok (s.configure.goto .restartAfterUpdate) else .error .reconfigureFailed
    else .ok (s.goto .restartAfterUpdate)
  | .restartAfterUpdate =>
    .ok { s.goto .createDevice with state := { s.state with streamNeedsRestart := true } }
  | .createDevice =>
    if s.video.device then .ok (s.goto .readUpdateFrameAck)
    else if q.succeeds then .ok (s.configure.goto .restartAfterCreate)
    else .ok (s.goto .createFailed)
  | .createFailed => .ok (continueLoop { s with state := { s.state with updateDevice := true } })
  | .restartAfterCreate =>
    .ok { s.goto .readUpdateFrameAck with state := { s.state with streamNeedsRestart := true } }
  | .readUpdateFrameAck =>
    .ok (s.goto (if s.state.updateFrameAck then .markFrameReceived else .pendingStreamReset))
  | .markFrameReceived =>
    match ltrMarkFrameReceived s.video.ltr s.state.frameAckId with
    | .error e => .error (.ltr e)
    | .ok (_,ltr) =>
      .ok { s with
        passed := s.passed ++ [s.state.frameAckId]
        video := { s.video with ltr := ltr, pc := .clearUpdateFrameAck } }
  | .clearUpdateFrameAck =>
    .ok { s.goto .pendingStreamReset with state := { s.state with updateFrameAck := false } }
  | .pendingStreamReset =>
    if q.pendingStreamReset then
      .ok { s.goto .readStopStreaming with state := { s.state with streamNeedsRecovery := true } }
    else .ok (s.goto .readStopStreaming)
  | .readStopStreaming =>
    .ok { s with
      video := { s.video with
        accumulatedFrames := 0
        pc := if s.state.stopStreaming then .restartForCapture else .captureScreen } }
  | .restartForCapture =>
    .ok (s.goto (if s.state.streamNeedsRestart then .captureScreen else .disableEncoder))
  | .captureScreen =>
    if q.accumulatedFrames < 0 then
      .ok { s with video := { s.video with device := false, pc := .captureFailed } }
    else
      .ok { s with
        video := { s.video with
          accumulatedFrames := q.accumulatedFrames
          consecutiveIdenticalFrames :=
            if q.accumulatedFrames > 0 then 0 else s.video.consecutiveIdenticalFrames
          pc := .disableEncoder } }
  | .captureFailed => .ok (continueLoop { s with state := { s.state with updateDevice := true } })
  | .disableEncoder =>
    .ok { s with
      video := { s.video with
        disableEncoder := decide (s.video.consecutiveIdenticalFrames > consecutiveIdenticalFramesLimit) &&
          !s.state.streamNeedsRestart && !s.state.streamNeedsRecovery
        pc := .sendCondition } }
  | .sendCondition =>
    if s.video.accumulatedFrames > 0 ∨ s.state.streamNeedsRestart ∨ q.minFpsReached then
      let s := { s with
        video := { s.video with
          consecutiveIdenticalFrames :=
            if s.video.accumulatedFrames = 0 then s.video.consecutiveIdenticalFrames + 1
            else s.video.consecutiveIdenticalFrames
          id := s.video.id + 1 } }
      if s.video.disableEncoder then .ok s.endLoop else .ok (s.goto .transferCapture)
    else .ok s.endLoop
  | .transferCapture =>
    if !q.succeeds then .ok (s.goto .exited)
    else if q.forcesIframe then
      .ok { s.goto .restartOrRecovery with state := { s.state with streamNeedsRestart := true } }
    else .ok (s.goto .restartOrRecovery)
  | .restartOrRecovery =>
    .ok (s.goto (if s.state.streamNeedsRestart || s.state.streamNeedsRecovery then .restartOrBroken
      else .nextAction))
  | .restartOrBroken =>
    if s.state.streamNeedsRestart then
      .ok { s with video := { s.video with ltr := ltrForceIntra s.video.ltr, pc := .clearRestart } }
    else
      match ltrMarkStreamBroken s.video.ltr with
      | .error e => .error (.ltr e)
      | .ok ltr => .ok { s with video := { s.video with ltr := ltr, pc := .clearRestart } }
  | .clearRestart =>
    .ok { s.goto .clearRecovery with state := { s.state with streamNeedsRestart := false } }
  | .clearRecovery =>
    .ok { s.goto .nextAction with state := { s.state with streamNeedsRecovery := false } }
  | .nextAction =>
    let next := ltrGetNextAction s.video.ltr s.video.id
    .ok { s with
      video := { s.video with frameType := next.2.1.frameType, ltr := next.2.2, pc := .encode } }
  | .encode =>
    if q.succeeds then
      .ok (endLoop { s with restartOwed := s.restartOwed && decide (s.video.frameType ≠ .intra) })
    else .ok (s.goto .exited)
  | .exited => .error .disabled

/-- A step of one of the threads. -/
inductive Move where
  | receive (m : WhistClientMessage)
  | handle
  | video (q : VideoInput)
deriving DecidableEq

def step (s : VideoServer) : Move → Except ServerError VideoServer
  | .receive m =>
    if s.messagePc = .idle then .ok { s.receive m with iteration := .disturbed } else .error .disabled
  | .handle =>
    if s.messagePc = .idle then .error .disabled else .ok { s.handle with iteration := .disturbed }
  | .video q => s.stepAt q s.video.pc

/-- All messages have been handled, and an iteration of the loop was completed since with
nothing left to update. -/
def Quiet (s : VideoServer) : Prop :=
  s.messagePc = .idle ∧ s.iteration = .complete ∧ s.state.updateDevice = false ∧
    s.state.updateFrameAck = false

/-- The device has the last dimensions requested, the last ack was passed on, and a requested
restart was followed by an INTRA frame. -/
def NothingLost (s : VideoServer) : Prop :=
  s.Quiet → (∀ d, s.requested = some d → s.configured = some d) ∧
    (∀ frameId, s.acks.getLast? = some frameId → s.passed.getLast? = some frameId) ∧
    s.restartOwed = false

end VideoServer

end Whist.Server
