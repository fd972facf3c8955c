import Whist.Core.Memory
import Whist.Network.UdpCapacity

/-! # The ring buffer of the receiver

The slots are a function from their number, and a pointer to a buffer is the number of its block, whose content lies
with the allocator.  The clocks only decide about nacks and are no part of a frame; logging is left out but for the
calls of `is_ready_to_render`.
-/
namespace Whist.Ring
open Fec Udp Memory

/-- A failing `FATAL_ASSERT`, a `LOG_FATAL`, or an access the C program must not make. -/
inductive RingFatal
  | ringBufferSize
  | segmentIndex
  | numIndices
  | numFecIndices
  | segmentSize
  | occupiedSlot
  | frameId
  | fecPackets
  | totalPackets
  | lateFrameBuffer
  | lateFramebuffer
  | originalPackets
  | packetBuffer
  | resetPacketBuffer
  | resetSlot
  | staleRendering
  | notReady
  | renderingId
  | resetId
  | pendingWithoutRange
  | pendingCount
  | pendingBounds
  | noFrameReceived
  | messageIndices
  | messageFecIndices
  | nullRingBuffer
  | noDecoder
  | blocksInUse
  | outOfBounds
  | fec (e : FecFatal)
deriving DecidableEq

def maxRingBufferSize : ℕ := 500

/-- What a ring buffer is made for.  `contents` is what its blocks hold when they are
handed out, `maxFrees` the room in the list of free blocks. -/
structure RingConfig where
  type : WhistPacketType
  maxFrameSize : ℕ
  ringBufferSize : ℕ
  size_pos : 0 < ringBufferSize
  cm : Cm256
  contents : ℕ → ℕ → UInt8
  maxFrees : ℕ

structure FrameData where
  numOriginalPackets : ℕ := 0
  numFecPackets : ℕ := 0
  prevFrameNumDuplicatePackets : ℕ := 0
  id : ℤ := 0
  originalPacketsReceived : ℕ := 0
  fecPacketsReceived : ℕ := 0
  duplicatePacketsReceived : ℕ := 0
  nackPacketsReceived : ℕ := 0
  unnecessaryNackPacketsReceived : ℕ := 0
  receivedIndices : ℕ → Bool := fun _ => false
  packetBuffer : Option ℕ := none
  frameBuffer : Option ℕ := none
  frameBufferSize : ℤ := 0
  fecFrameBuffer : Option ℕ := none
  fecDecoder : Option FecDecoder := none
  successfulFecRecovery : Bool := false
  numEntireFrameNacked : ℕ := 0
  entireFrameNackedId : ℤ := 0
  numTimesIndexNacked : ℕ → ℕ := fun _ => 0

structure NackStatistics where
  numPacketsNacked : ℕ := 0
  numNacksReceived : ℕ := 0
  numOriginalPacketsReceived : ℕ := 0
  numUnnecessaryOriginalPacketsReceived : ℕ := 0
  numUnnecessaryNacksReceived : ℕ := 0
  numTimesNackingSaturated : ℕ := 0

/-- `nacks` and `streamResets` are the calls of the two callbacks. -/
structure RingBuffer where
  receivingFrames : ℕ → FrameData
  packetBufferAllocator : BlockAllocator
  currentlyRenderingId : ℤ := -1
  currentlyRenderingFrame : FrameData := {}
  framesReceived : ℕ := 0
  minId : ℤ := -1
  maxId : ℤ := -1
  numPendingReadyFrames : ℤ := 0
  lastRenderedId : ℤ := -1
  lastStreamResetRequestId : ℤ := -1
  burstCounter : ℤ := 0
  avgCounter : ℤ := 0
  lastNackPossibility : Bool := true
  statistics : NackStatistics := {}
  nacks : List (ℤ × ℤ) := []
  streamResets : List ℤ := []

/-- The slot `get_frame_at_id` points to; a negative remainder is not a slot. -/
def RingConfig.slot (c : RingConfig) (id : ℤ) : ℕ := (Int.tmod id c.ringBufferSize).toNat

def RingConfig.OutOfBounds (c : RingConfig) (id : ℤ) : Prop := Int.tmod id c.ringBufferSize < 0

instance (c : RingConfig) (id : ℤ) : Decidable (c.OutOfBounds id) := Int.decLt ..

inductive Place
  | slot (i : ℕ)
  | rendering

def RingBuffer.frame (r : RingBuffer) : Place → FrameData
  | .slot i => r.receivingFrames i
  | .rendering => r.currentlyRenderingFrame

def RingBuffer.setFrame (r : RingBuffer) : Place → FrameData → RingBuffer
  | .slot i, f => { r with receivingFrames := Function.update r.receivingFrames i f }
  | .rendering, f => { r with currentlyRenderingFrame := f }

def getFramebuffer (f : FrameData) : Option ℕ :=
  if f.numFecPackets > 0 then
    if f.successfulFecRecovery then f.fecFrameBuffer else none
  else if f.originalPacketsReceived = f.numOriginalPackets then f.packetBuffer
  else none

def isReadyToRender (c : RingConfig) (r : RingBuffer) (id : ℤ) : Except RingFatal (Bool × RingBuffer) :=
  if c.OutOfBounds id then .error .outOfBounds
  else
    let f := r.receivingFrames (c.slot id)
    if f.id ≠ id then .ok (false,r)
    else if id ≤ r.currentlyRenderingId ∧ ¬(f.frameBuffer = none) then .error .lateFrameBuffer
    else if id ≤ r.currentlyRenderingId ∧ ¬(getFramebuffer f = none) then .error .lateFramebuffer
    else .ok ((getFramebuffer f).isSome,
      r.setFrame (.slot (c.slot id)) { f with frameBuffer := getFramebuffer f })

def FrameData.released (f : FrameData) : FrameData :=
  { f with packetBuffer := none, frameBuffer := none, fecFrameBuffer := none, fecDecoder := none }

def uncount (c : RingConfig) (r : RingBuffer) : Place → Except RingFatal RingBuffer
  | .rendering => .ok r
  | .slot i =>
    let f := r.receivingFrames i
    if f.frameBuffer = none then .ok r
    else if ¬(Int.tmod f.id c.ringBufferSize = i) then .error .resetSlot
    else .ok { r with numPendingReadyFrames := r.numPendingReadyFrames - 1 }

def resetFrame (c : RingConfig) (r : RingBuffer) (p : Place) : Except RingFatal RingBuffer :=
  let f := r.frame p
  match f.packetBuffer with
  | none => .error .resetPacketBuffer
  | some block =>
    match uncount c r p with
    | .error e => .error e
    | .ok r =>
      let a := freeOptional (freeBlock r.packetBufferAllocator block) f.fecFrameBuffer
      .ok ({ r with packetBufferAllocator := a }.setFrame p f.released)

def wipeFrame (c : RingConfig) (r : RingBuffer) (i : ℕ) : Except RingFatal RingBuffer :=
  match (if (r.receivingFrames i).packetBuffer.isSome then resetFrame c r (.slot i) else .ok r) with
  | .error e => .error e
  | .ok r => .ok (r.setFrame (.slot i) {})

def resetRingBuffer (c : RingConfig) (r : RingBuffer) : Except RingFatal RingBuffer :=
  match Run.run (wipeFrame c) r (List.range c.ringBufferSize) with
  | .error e => .error e
  | .ok r => .ok { r with
      maxId := -1
      minId := -1
      framesReceived := 0
      lastRenderedId := -1
      numPendingReadyFrames := 0 }

def freshRingBuffer (c : RingConfig) : RingBuffer where
  receivingFrames := fun _ => { id := -1, entireFrameNackedId := -1 }
  packetBufferAllocator := { maxFrees := c.maxFrees }

def initRingBuffer (c : RingConfig) : Except RingFatal RingBuffer :=
  if ¬(c.ringBufferSize ≤ maxRingBufferSize) then .error .ringBufferSize
  else resetRingBuffer c (freshRingBuffer c)

def logDropped (c : RingConfig) (r : RingBuffer) (i : ℕ) : Except RingFatal RingBuffer :=
  let dropped := r.receivingFrames i
  if dropped.id ≠ -1 then (isReadyToRender c r dropped.id).map Prod.snd else .ok r

/-- Room for a frame newer than the resident of its slot, and whether the ring buffer
overflowed. -/
def makeRoom (c : RingConfig) (r : RingBuffer) (id : ℤ) : Except RingFatal (Bool × RingBuffer) :=
  let f := r.receivingFrames (c.slot id)
  if f.packetBuffer.isNone then .ok (false,r)
  else if f.id > r.currentlyRenderingId then
    match Run.run (logDropped c) r (List.range c.ringBufferSize) with
    | .error e => .error e
    | .ok r => (resetRingBuffer c r).map (Prod.mk true)
  else (resetFrame c r (.slot (c.slot id))).map (Prod.mk false)

def FrameData.initialized (old : FrameData) (id : ℤ) (block : ℕ)
    (numOriginalIndices numFecIndices prevFrameNumDuplicates : ℕ) : FrameData :=
  let nacked := if old.entireFrameNackedId = id then old.numEntireFrameNacked else 0
  { id := id
    packetBuffer := some block
    numOriginalPackets := numOriginalIndices
    numFecPackets := numFecIndices
    prevFrameNumDuplicatePackets := prevFrameNumDuplicates
    numEntireFrameNacked := nacked
    numTimesIndexNacked := fun i => if i < numOriginalIndices + numFecIndices then nacked else 0 }

def initFrame (c : RingConfig) (r : RingBuffer) (id : ℤ)
    (numOriginalIndices numFecIndices prevFrameNumDuplicates : ℕ) : Except RingFatal RingBuffer :=
  let old := r.receivingFrames (c.slot id)
  if ¬(old.packetBuffer = none) then .error .occupiedSlot
  else
    let (block,a) := allocateBlock c.contents r.packetBufferAllocator
    let f := old.initialized id block numOriginalIndices numFecIndices prevFrameNumDuplicates
    if numFecIndices > 0 then
      match createFecDecoder numOriginalIndices numFecIndices maxPacketSegmentSize with
      | .error e => .error (.fec e)
      | .ok dec =>
        let (block,a) := allocateBlock c.contents a
        .ok ({ r with packetBufferAllocator := a }.setFrame (.slot (c.slot id))
          { f with fecDecoder := some dec, fecFrameBuffer := some block })
    else .ok ({ r with packetBufferAllocator := a }.setFrame (.slot (c.slot id)) f)

def RingBuffer.widen (r : RingBuffer) (id : ℤ) : RingBuffer :=
  { r with maxId := max r.maxId id, minId := if r.minId = -1 then id else min r.minId id }

def countArrival (c : RingConfig) (r : RingBuffer) (s : WhistSegment) : RingBuffer :=
  let f := r.receivingFrames (c.slot s.id)
  if s.isANack then
    let n := if s.whistType = .video ∧ f.receivedIndices s.index then 1 else 0
    { r with statistics := { r.statistics with
        numNacksReceived := r.statistics.numNacksReceived + 1
        numUnnecessaryNacksReceived := r.statistics.numUnnecessaryNacksReceived + n } }.setFrame
      (.slot (c.slot s.id)) { f with
        nackPacketsReceived := f.nackPacketsReceived + 1
        unnecessaryNackPacketsReceived := f.unnecessaryNackPacketsReceived + n }
  else
    let n := if f.numTimesIndexNacked s.index > 0 then 1 else 0
    { r with statistics := { r.statistics with
        numOriginalPacketsReceived := r.statistics.numOriginalPacketsReceived + 1
        numUnnecessaryOriginalPacketsReceived :=
          r.statistics.numUnnecessaryOriginalPacketsReceived + n } }

def RingBuffer.countUnnecessary (r : RingBuffer) : RingBuffer :=
  { r with statistics := { r.statistics with
      numUnnecessaryOriginalPacketsReceived := r.statistics.numUnnecessaryOriginalPacketsReceived + 1 } }

def dropDuplicate (c : RingConfig) (r : RingBuffer) (s : WhistSegment) : RingBuffer :=
  let f := r.receivingFrames (c.slot s.id)
  if s.isANack then r
  else r.setFrame (.slot (c.slot s.id))
    { f with duplicatePacketsReceived := f.duplicatePacketsReceived + 1 }

def FrameData.markReceived (f : FrameData) (index : ℕ) : Except RingFatal FrameData :=
  let received := Function.update f.receivedIndices index true
  if index < f.numOriginalPackets then
    if ¬(f.originalPacketsReceived + 1 ≤ f.numOriginalPackets) then .error .originalPackets
    else .ok { f with
      receivedIndices := received
      originalPacketsReceived := f.originalPacketsReceived + 1 }
  else .ok { f with receivedIndices := received, fecPacketsReceived := f.fecPacketsReceived + 1 }

def readBytes (bytes : ℕ → UInt8) (offset size : ℕ) : Block :=
  (List.range size).map (fun i => bytes (offset + i))

def RingBuffer.memory (r : RingBuffer) (block : ℕ) : ℕ → UInt8 := r.packetBufferAllocator.memory block

def RingBuffer.write (r : RingBuffer) (block : ℕ) (bytes : ℕ → UInt8) : RingBuffer :=
  { r with packetBufferAllocator := r.packetBufferAllocator.write block bytes }

def RingBuffer.copyPayload (r : RingBuffer) (block : ℕ) (s : WhistSegment) : RingBuffer :=
  r.write block (Bytes.writeAt (r.memory block) (s.index * maxPacketSegmentSize)
    (s.segmentData.take s.segmentSize))

def FrameData.decoded (f : FrameData) (dec : FecDecoder) (frameSize : ℤ) : FrameData :=
  if frameSize ≥ 0 then { f with
    fecDecoder := some dec
    frameBufferSize := frameSize
    successfulFecRecovery := true }
  else { f with fecDecoder := some dec }

def decodeFrame (c : RingConfig) (r : RingBuffer) (i index : ℕ) (segment : Block) :
    Except RingFatal RingBuffer :=
  let f := r.receivingFrames i
  match f.fecDecoder with
  | none => .error .noDecoder
  | some dec =>
    match fecDecoderRegisterBuffer dec index segment with
    | .error e => .error (.fec e)
    | .ok dec =>
      match fecGetDecodedBuffer c.cm dec (f.fecFrameBuffer.map r.memory) with
      | .error e => .error (.fec e)
      | .ok (frameSize,dec,bytes) =>
        let r := match f.fecFrameBuffer, bytes with
          | some block, some bytes => r.write block bytes
          | _, _ => r
        .ok (r.setFrame (.slot i) (f.decoded dec frameSize))

def FrameData.addSize (f : FrameData) (size : ℕ) : FrameData :=
  if f.numFecPackets = 0 then { f with frameBufferSize := f.frameBufferSize + size } else f

def storeSegment (c : RingConfig) (r : RingBuffer) (s : WhistSegment) : Except RingFatal RingBuffer :=
  let f := r.receivingFrames (c.slot s.id)
  match f.packetBuffer with
  | none => .error .packetBuffer
  | some block =>
    let r := (r.copyPayload block s).setFrame (.slot (c.slot s.id)) (f.addSize s.segmentSize)
    if f.numFecPackets > 0 ∧ ¬f.successfulFecRecovery then
      decodeFrame c r (c.slot s.id) s.index
        (readBytes (r.memory block) (s.index * maxPacketSegmentSize) s.segmentSize)
    else .ok r

def TooLarge (c : RingConfig) (s : WhistSegment) : Prop :=
  s.index * maxPacketSegmentSize + s.segmentSize ≥ largestFrameSize c.maxFrameSize

instance (c : RingConfig) (s : WhistSegment) : Decidable (TooLarge c s) := Nat.decLe ..

def receiveIndex (c : RingConfig) (r : RingBuffer) (s : WhistSegment) : Except RingFatal RingBuffer :=
  match isReadyToRender c r s.id with
  | .error e => .error e
  | .ok (wasAlreadyReady,r) =>
    match (r.receivingFrames (c.slot s.id)).markReceived s.index with
    | .error e => .error e
    | .ok f =>
      let r := r.setFrame (.slot (c.slot s.id)) f
      if s.id ≤ r.currentlyRenderingId then .ok r.countUnnecessary
      else if TooLarge c s then .ok r
      else
        match storeSegment c r s with
        | .error e => .error e
        | .ok r =>
          match isReadyToRender c r s.id with
          | .error e => .error e
          | .ok (ready,r) =>
            if ready ∧ ¬wasAlreadyReady then .ok { r with
              framesReceived := r.framesReceived + 1
              numPendingReadyFrames := r.numPendingReadyFrames + 1 }
            else .ok r

/-- The part of `ring_buffer_receive_segment` behind the choice of the frame. -/
def receiveInFrame (c : RingConfig) (r : RingBuffer) (s : WhistSegment) : Except RingFatal RingBuffer :=
  let f := r.receivingFrames (c.slot s.id)
  if ¬(s.id = f.id) then .error .frameId
  else if ¬(f.numFecPackets = s.numFecIndices) then .error .fecPackets
  else if ¬(f.numOriginalPackets + f.numFecPackets = s.numIndices) then .error .totalPackets
  else if f.receivedIndices s.index then .ok (dropDuplicate c (countArrival c r s) s)
  else receiveIndex c (countArrival c r s) s

def receiveNewer (c : RingConfig) (r : RingBuffer) (s : WhistSegment) : Except RingFatal (Bool × RingBuffer) :=
  match makeRoom c r s.id with
  | .error e => .error e
  | .ok (overflowed,r) =>
    if s.id ≤ r.lastRenderedId then .ok (!overflowed,r)
    else
      match initFrame c r s.id (s.numIndices - s.numFecIndices) s.numFecIndices
          s.prevFrameNumDuplicates with
      | .error e => .error e
      | .ok r => (receiveInFrame c (r.widen s.id) s).map (Prod.mk !overflowed)

def ringBufferReceiveSegment (c : RingConfig) (r : RingBuffer) (s : WhistSegment) :
    Except RingFatal (Bool × RingBuffer) :=
  if ¬(s.index < s.numIndices) then .error .segmentIndex
  else if ¬(s.numIndices ≤ maxPackets) then .error .numIndices
  else if ¬(s.numFecIndices < s.numIndices) then .error .numFecIndices
  else if ¬(s.segmentSize ≤ maxPacketSegmentSize) then .error .segmentSize
  else if c.OutOfBounds s.id then .error .outOfBounds
  else if s.id < (r.receivingFrames (c.slot s.id)).id then .ok (true,r.countUnnecessary)
  else if s.id > (r.receivingFrames (c.slot s.id)).id then receiveNewer c r s
  else (receiveInFrame c r s).map (Prod.mk true)

def RingBuffer.moveToRendering (r : RingBuffer) (i : ℕ) (id : ℤ) : RingBuffer :=
  let f := r.receivingFrames i
  { r with
    currentlyRenderingId := id
    currentlyRenderingFrame := { f with frameBuffer := getFramebuffer f }
    receivingFrames := Function.update r.receivingFrames i f.released
    numPendingReadyFrames := r.numPendingReadyFrames - 1 }

/-- The frame returned is `currently_rendering_frame`. -/
def setRendering (c : RingConfig) (r : RingBuffer) (id : ℤ) : Except RingFatal RingBuffer :=
  if id ≤ r.lastRenderedId then .error .staleRendering
  else
    let r := { r with lastRenderedId := id }
    match (if r.currentlyRenderingId ≠ -1 then resetFrame c r .rendering else .ok r) with
    | .error e => .error e
    | .ok r =>
      match isReadyToRender c r id with
      | .error e => .error e
      | .ok (ready,r) =>
        if ¬ready then .error .notReady
        else if ¬((r.receivingFrames (c.slot id)).id = id) then .error .renderingId
        else .ok (r.moveToRendering (c.slot id) id)

def skipFrame (c : RingConfig) (id : ℤ) (r : RingBuffer) (i : ℕ) : Except RingFatal RingBuffer :=
  let f := r.receivingFrames i
  if f.packetBuffer.isSome ∧ f.id < id then resetFrame c r (.slot i) else .ok r

def resetStream (c : RingConfig) (r : RingBuffer) (id : ℤ) : Except RingFatal RingBuffer :=
  if ¬(1 ≤ id) then .error .resetId
  else if id ≤ r.lastRenderedId then .ok r
  else
    match Run.run (skipFrame c id) r (List.range c.ringBufferSize) with
    | .error e => .error e
    | .ok r => .ok { r with lastRenderedId := id - 1 }

def destroyRingBuffer (c : RingConfig) (r : RingBuffer) : Except RingFatal Unit :=
  match resetRingBuffer c r with
  | .error e => .error e
  | .ok r =>
    match (if r.currentlyRenderingId ≠ -1 then resetFrame c r .rendering else .ok r) with
    | .error e => .error e
    | .ok r => if r.packetBufferAllocator.InUse then .error .blocksInUse else .ok ()

def ids (first last : ℤ) : List ℤ :=
  (List.range (last - first + 1).toNat).map (fun (i : ℕ) => first + i)

def countReady (c : RingConfig) : List ℤ → RingBuffer → Except RingFatal (ℤ × RingBuffer)
  | [], r => .ok (0,r)
  | id :: rest, r =>
    match isReadyToRender c r id with
    | .error e => .error e
    | .ok (ready,r) => (countReady c rest r).map (fun s => (s.1 + if ready then 1 else 0,s.2))

/-- The check of the maintained number; `drawn` tells whether the dice ask for a count. -/
def selfCheck (c : RingConfig) (r : RingBuffer) (drawn : Bool) : Except RingFatal RingBuffer :=
  if r.minId = -1 ∨ r.maxId = -1 then
    if ¬(r.numPendingReadyFrames = 0) then .error .pendingWithoutRange else .ok r
  else
    let first := max r.minId (r.lastRenderedId + 1)
    if r.maxId - first ≤ 50 ∧ drawn then
      match countReady c (ids first r.maxId) r with
      | .error e => .error e
      | .ok (n,r) => if ¬(n = r.numPendingReadyFrames) then .error .pendingCount else .ok r
    else .ok r

def getNumPendingReadyFrames (c : RingConfig) (r : RingBuffer) (drawn : Bool) :
    Except RingFatal (ℤ × RingBuffer) :=
  match selfCheck c r drawn with
  | .error e => .error e
  | .ok r =>
    if ¬(0 ≤ r.numPendingReadyFrames ∧ r.numPendingReadyFrames ≤ c.ringBufferSize) then
      .error .pendingBounds
    else .ok (r.numPendingReadyFrames,r)

inductive RingCall
  | receive (s : WhistSegment)
  | isReady (id : ℤ)
  | setRendering (id : ℤ)
  | resetStream (id : ℤ)
  | getNumPending (drawn : Bool)

def ringStep (c : RingConfig) (r : RingBuffer) : RingCall → Except RingFatal RingBuffer
  | .receive s => (ringBufferReceiveSegment c r s).map Prod.snd
  | .isReady id => (isReadyToRender c r id).map Prod.snd
  | .setRendering id => setRendering c r id
  | .resetStream id => resetStream c r id
  | .getNumPending drawn => (getNumPendingReadyFrames c r drawn).map Prod.snd

def ringRun (c : RingConfig) (calls : List RingCall) : Except RingFatal RingBuffer :=
  match initRingBuffer c with
  | .error e => .error e
  | .ok r => Run.run (ringStep c) r calls

end Whist.Ring
