import Whist.Foundation.Binary64
import Whist.Foundation.Bytes
import Whist.Fec.RsWrapper

/-! # FEC encoder and decoder

A buffer is its list of bytes, so sizes passed beside a pointer are lengths.  The
pointers the encoder keeps into the caller's buffer are the segments themselves.
-/
namespace Whist.Fec

def fecHeaderSize : ℕ := 2
def maxBufferSizeLimit : ℕ := 65535

/-- `write_u16_to_buffer`: little endian, the conversion to `uint16_t` included. -/
def writeU16 (w : ℕ) : List UInt8 := [UInt8.ofNat w,UInt8.ofNat (w / 256)]

def readU16 : Block → Option (ℕ × Block)
  | lo :: hi :: rest => some (lo.toNat + 256 * hi.toNat,rest)
  | _ => none

/-- `get_num_fec_packets`, for a ratio that is not negative and below 1. -/
def getNumFecPackets (numRealPackets : ℕ) (fecPacketRatio : Binary64) : ℕ :=
  let ratio := fecPacketRatio / (Binary64.nearest 1 - fecPacketRatio)
  ⌈(Binary64.nearest numRealPackets * ratio).val⌉.toNat

structure FecEncoder where
  numAcceptedBuffers : ℕ := 0
  numBuffers : ℕ
  numRealBuffers : ℕ
  maxBufferSize : ℕ
  bufferSizes : ℕ → ℕ := fun _ => 0
  buffers : ℕ → Option Block := fun _ => none
  maxPacketSize : ℤ := -1
  rsCode : RSWrapper
  encodePerformed : Bool := false

def createFecEncoder (numRealBuffers numFecBuffers maxBufferSize : ℕ) : Except FecFatal FecEncoder :=
  if ¬(maxBufferSize ≤ maxBufferSizeLimit ∧ maxBufferSize ≥ fecHeaderSize) then .error .maxBufferSize
  else
    match rsWrapperCreate numRealBuffers numFecBuffers with
    | .error e => .error e
    | .ok rs => .ok {
        numBuffers := numRealBuffers + numFecBuffers
        numRealBuffers := numRealBuffers
        maxBufferSize := maxBufferSize
        rsCode := rs }

def fecEncoderGetNumRealBuffers (bufferSize realBufferSize : ℕ) : ℕ :=
  if bufferSize = 0 then 1 else intDivRoundup bufferSize (realBufferSize - fecHeaderSize)

def numOfSegmentsNeeded (capacity : ℕ) : ℕ → ℕ → Option ℕ
  | _, 0 => some 0
  | 0, _ + 1 => none
  | fuel + 1, remaining + 1 =>
    (numOfSegmentsNeeded capacity fuel (remaining + 1 - min (remaining + 1) capacity)).map (· + 1)

def registerSegments (expectedBufferSize : ℕ) : ℕ → FecEncoder → Block → Except FecFatal FecEncoder
  | _, enc, [] => .ok enc
  | 0, _, _ :: _ => .error .endlessLoop
  | fuel + 1, enc, b :: rest =>
    if ¬(enc.numAcceptedBuffers + 1 ≤ enc.numRealBuffers) then .error .acceptedBuffers
    else
      let current := (b :: rest).take expectedBufferSize
      registerSegments expectedBufferSize fuel { enc with
        buffers := Function.update enc.buffers enc.numAcceptedBuffers (some current)
        bufferSizes := Function.update enc.bufferSizes enc.numAcceptedBuffers current.length
        maxPacketSize := max enc.maxPacketSize current.length
        numAcceptedBuffers := enc.numAcceptedBuffers + 1 } ((b :: rest).drop expectedBufferSize)

def fecEncoderRegisterBuffer (enc : FecEncoder) (buffer : Block) : Except FecFatal FecEncoder :=
  if buffer.length = 0 then .ok { enc with
    buffers := Function.update enc.buffers 0 (some buffer)
    bufferSizes := Function.update enc.bufferSizes 0 0
    maxPacketSize := 0
    numAcceptedBuffers := 1 }
  else
    match numOfSegmentsNeeded (enc.maxBufferSize - fecHeaderSize) buffer.length buffer.length with
    | none => .error .endlessLoop
    | some needed =>
      if ¬(needed = enc.numRealBuffers) then .error .segmentCount
      else
        match registerSegments (intDivRoundup buffer.length needed) buffer.length enc buffer with
        | .error e => .error e
        | .ok enc =>
          if ¬(enc.numAcceptedBuffers = enc.numRealBuffers) then .error .acceptedBuffers else .ok enc

def padWithHeader (fecPayloadSize : ℕ) (original : Block) : Block :=
  writeU16 original.length ++ original ++
    List.replicate (fecPayloadSize - (fecHeaderSize + original.length)) 0

def padBuffer (fecPayloadSize : ℕ) (enc : FecEncoder) (i : ℕ) : Except FecFatal FecEncoder :=
  match enc.buffers i with
  | none => .error .nullBuffer
  | some original => .ok { enc with
      buffers := Function.update enc.buffers i (some (padWithHeader fecPayloadSize original))
      bufferSizes := Function.update enc.bufferSizes i (fecHeaderSize + enc.bufferSizes i) }

def fecGetEncodedBuffers (cm : Cm256) (enc : FecEncoder) : Except FecFatal FecEncoder :=
  if ¬(enc.numAcceptedBuffers = enc.numRealBuffers) then .error .acceptedBuffers
  else if enc.encodePerformed then .ok enc
  else
    let fecPayloadSize := fecHeaderSize + enc.maxPacketSize.toNat
    match Run.run (padBuffer fecPayloadSize) enc (List.range enc.numRealBuffers) with
    | .error e => .error e
    | .ok enc =>
      match rsWrapperEncode cm enc.rsCode (fun i => (enc.buffers i).getD []) (fun _ => [])
          fecPayloadSize with
      | .error e => .error e
      | .ok dst => .ok { enc with
          buffers := fun i => if i < enc.numRealBuffers then enc.buffers i
            else some (dst (i - enc.numRealBuffers))
          bufferSizes := fun i => if i < enc.numRealBuffers then enc.bufferSizes i else fecPayloadSize
          encodePerformed := true }

structure FecDecoder where
  numAcceptedBuffers : ℕ := 0
  numAcceptedRealBuffers : ℕ := 0
  numBuffers : ℕ
  numRealBuffers : ℕ
  maxBufferSize : ℕ
  bufferSizes : ℕ → ℤ := fun _ => -1
  buffers : ℕ → Option Block := fun _ => none
  maxPacketSize : ℤ := -1
  rsCode : RSWrapper
  recoveryPerformed : Bool := false

def createFecDecoder (numRealBuffers numFecBuffers maxBufferSize : ℕ) : Except FecFatal FecDecoder :=
  if ¬(maxBufferSize ≤ maxBufferSizeLimit) then .error .maxBufferSize
  else
    match rsWrapperCreate numRealBuffers numFecBuffers with
    | .error e => .error e
    | .ok rs => .ok {
        numBuffers := numRealBuffers + numFecBuffers
        numRealBuffers := numRealBuffers
        maxBufferSize := maxBufferSize
        rsCode := rs }

def fecDecoderRegisterBuffer (dec : FecDecoder) (index : ℕ) (buffer : Block) :
    Except FecFatal FecDecoder :=
  if ¬(index < dec.numBuffers) then .error .indexRange
  else if ¬(buffer.length ≤ dec.maxBufferSize) then .error .bufferSize
  else if ¬(dec.bufferSizes index = -1) then .error .registeredTwice
  else if dec.recoveryPerformed then .ok dec
  else
    match rsWrapperDecodeHelperRegisterIndex dec.rsCode index with
    | .error e => .error e
    | .ok rs => .ok { dec with
        buffers := Function.update dec.buffers index (some buffer)
        bufferSizes := Function.update dec.bufferSizes index buffer.length
        numAcceptedBuffers := dec.numAcceptedBuffers + 1
        numAcceptedRealBuffers := dec.numAcceptedRealBuffers +
          if index < dec.numRealBuffers then 1 else 0
        maxPacketSize := max dec.maxPacketSize buffer.length
        rsCode := rs }

/-- `buffers` while they are compacted in place, and `index`. -/
structure Compacted where
  buffers : ℕ → Option Block
  index : List ℕ := []

def compactBuffer (dec : FecDecoder) (s : Compacted) (i : ℕ) : Except FecFatal Compacted :=
  if dec.bufferSizes i = -1 then .ok s
  else if ¬(s.index.length ≤ i) then .error .acceptedBuffers
  else
    match s.buffers i with
    | none => .error .nullBuffer
    | some original =>
      if ¬(dec.maxPacketSize ≥ dec.bufferSizes i) then .error .bufferSize
      else .ok {
        buffers := Function.update s.buffers s.index.length (some (original ++
          List.replicate (dec.maxPacketSize.toNat - original.length) 0))
        index := s.index ++ [i] }

def recoverBuffers (cm : Cm256) (dec : FecDecoder) : Except FecFatal FecDecoder :=
  match Run.run (compactBuffer dec) { buffers := dec.buffers } (List.range dec.numBuffers) with
  | .error e => .error e
  | .ok s =>
    if ¬(s.index.length ≥ dec.numRealBuffers) then .error .acceptedBuffers
    else if ¬(s.index.length = dec.numAcceptedBuffers) then .error .acceptedBuffers
    else
      let buffers := fun i => if s.index.length ≤ i ∧ i < dec.numBuffers then none else s.buffers i
      match rsWrapperDecode cm dec.rsCode buffers s.index dec.maxPacketSize.toNat with
      | .error e => .error e
      | .ok buffers => .ok { dec with buffers := buffers, recoveryPerformed := true }

/-- `running_size` and the buffer written to, if any. -/
structure Output where
  runningSize : ℕ := 0
  buffer : Option (ℕ → UInt8)

def writeDecoded (dec : FecDecoder) (out : Output) (i : ℕ) : Except FecFatal Output :=
  match dec.buffers i with
  | none => .error .nullBuffer
  | some block =>
    match readU16 block with
    | none => .error .readPastBuffer
    | some (currentSize,current) =>
      if currentSize ≤ current.length then .ok {
        runningSize := out.runningSize + currentSize
        buffer := out.buffer.map (fun mem => Bytes.writeAt mem out.runningSize (current.take currentSize)) }
      else .error .readPastBuffer

def fecGetDecodedBuffer (cm : Cm256) (dec : FecDecoder) (buffer : Option (ℕ → UInt8)) :
    Except FecFatal (ℤ × FecDecoder × Option (ℕ → UInt8)) :=
  match rsWrapperDecodeHelperCanDecode dec.rsCode with
  | .error e => .error e
  | .ok false => .ok (-1,dec,buffer)
  | .ok true =>
    let needRecovery := dec.numAcceptedRealBuffers ≠ dec.numRealBuffers
    match (if needRecovery ∧ ¬dec.recoveryPerformed then recoverBuffers cm dec else .ok dec) with
    | .error e => .error e
    | .ok dec =>
      match Run.run (writeDecoded dec) { buffer := buffer } (List.range dec.numRealBuffers) with
      | .error e => .error e
      | .ok out => .ok (out.runningSize,dec,out.buffer)

end Whist.Fec
