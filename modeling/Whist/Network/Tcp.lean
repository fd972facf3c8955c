import Whist.Core.Memory
import Whist.Foundation.Bytes
import Whist.Foundation.Run

/-! # Receiving packets over TCP

A socket is the list of the results its next `recv` calls give; behind the list
nothing is available.  Each call of `tcp_get_packet` is given what the receive timer
says at its checks.  Decryption is a parameter.
-/
namespace Whist.Tcp
open Memory

/-- A failing `FATAL_ASSERT`, or a step the C program must not take. -/
inductive TcpFatal
  | unknownPacketType
  | decryptedLength
  | lengthOverflow
  | writePastBuffer
  | endlessLoop
deriving DecidableEq

def maxTcpPayloadSize : ℤ := 1000000000
@[irreducible] def tcpSegmentSize : ℕ := 4096
def intMax : ℕ := 2147483647
def packetHeaderSize : ℤ := 15
def ivSize : ℕ := 12
def tagSize : ℕ := 16

def tcpNetworkPacketSize : ℕ := ivSize + tagSize + 4

/-- A little-endian `int`; what follows a packet in its region is zero. -/
def readInt (bytes : List UInt8) (offset : ℕ) : ℤ :=
  let byte := fun i => (bytes.getD (offset + i) 0).toNat
  let word := byte 0 + 256 * byte 1 + 65536 * byte 2 + 16777216 * byte 3
  if word ≤ intMax then word else (word : ℤ) - 4294967296

def writeInt (n : ℕ) : List UInt8 :=
  [UInt8.ofNat n,UInt8.ofNat (n / 256),UInt8.ofNat (n / 65536),UInt8.ofNat (n / 16777216)]

/-- The results of `recv`: some bytes, -1, or 0 once the peer has shut down. -/
inductive RecvResult
  | data (bytes : List UInt8)
  | error
  | closed

structure TcpContext where
  readingPacketLen : ℕ := 0
  encryptedTcpPacketBuffer : DynamicBuffer := initDynamicBuffer true
  lastPongId : ℤ := -1
  connectionLost : Bool := false
  sentPongs : List ℤ := []

def TcpContext.pending (context : TcpContext) : List UInt8 :=
  (List.range context.readingPacketLen).map context.encryptedTcpPacketBuffer.buf

def TcpContext.resize (context : TcpContext) (newSize : ℕ) : Except TcpFatal TcpContext :=
  match resizeDynamicBuffer context.encryptedTcpPacketBuffer newSize with
  | none => .error .endlessLoop
  | some db => .ok { context with encryptedTcpPacketBuffer := db }

def makeRoom (context : TcpContext) : Except TcpFatal TcpContext :=
  if ¬(context.readingPacketLen + tcpSegmentSize ≤ intMax) then .error .lengthOverflow
  else context.resize (context.readingPacketLen + tcpSegmentSize)

def appendReceived (context : TcpContext) (bytes : List UInt8) : Except TcpFatal TcpContext :=
  let db := context.encryptedTcpPacketBuffer
  if ¬(context.readingPacketLen + bytes.length ≤ db.capacity) then .error .writePastBuffer
  else .ok { context with
    encryptedTcpPacketBuffer := { db with
      buf := Bytes.writeAt db.buf context.readingPacketLen bytes }
    readingPacketLen := context.readingPacketLen + bytes.length }

def receiveLoop : TcpContext → List RecvResult → Except TcpFatal (TcpContext × List RecvResult)
  | context, [] => (makeRoom context).map (fun context => (context,[]))
  | context, result :: rest =>
    match makeRoom context with
    | .error e => .error e
    | .ok context =>
      match result with
      | .error => .ok (context,rest)
      | .closed => .ok ({ context with connectionLost := true },rest)
      | .data bytes =>
        match appendReceived context bytes with
        | .error e => .error e
        | .ok context =>
          if bytes.length = tcpSegmentSize then receiveLoop context rest else .ok (context,rest)

/-- `get_tcp_packet_size`, by the type in the first word. -/
def getTcpPacketSize (packet : List UInt8) : Except TcpFatal ℤ :=
  if readInt packet 0 = 0 ∨ readInt packet 0 = 1 then .ok 8
  else if readInt packet 0 = 2 then .ok (4 + (packetHeaderSize + readInt packet 12))
  else .error .unknownPacketType

def checkDecrypted : Option (List UInt8) → Except TcpFatal Unit
  | none => .ok ()
  | some packet =>
    match getTcpPacketSize packet with
    | .error e => .error e
    | .ok size => if (packet.length : ℤ) = size then .ok () else .error .decryptedLength

/-- How one round of `tcp_get_packet` ends: `NULL`, a packet, or a recursive call. -/
inductive Outcome
  | null
  | packet (whistPacket : List UInt8)
  | again

def handleTcpPacket (packetType : ℤ) (context : TcpContext) (packet : List UInt8) : Outcome × TcpContext :=
  if readInt packet 0 = 2 then
    if readInt packet 4 ≠ packetType then (.null,context) else (.packet (packet.drop 4),context)
  else if readInt packet 0 = 0 then
    (.again,{ context with sentPongs := context.sentPongs ++ [readInt packet 4] })
  else (.again,{ context with lastPongId := max context.lastPongId (readInt packet 4) })

def moveToFront (buf : ℕ → UInt8) (size len : ℕ) : ℕ → UInt8 :=
  (List.range' size (len - size)).foldl (fun buf i => Function.update buf (i - size) (buf i)) buf

def consume (context : TcpContext) (size : ℕ) : Except TcpFatal TcpContext :=
  let db := context.encryptedTcpPacketBuffer
  ({ context with
    encryptedTcpPacketBuffer := { db with buf := moveToFront db.buf size context.readingPacketLen }
    readingPacketLen := context.readingPacketLen - size } : TcpContext).resize
      (context.readingPacketLen - size)

def processPending (decrypt : List UInt8 → List UInt8 → Option (List UInt8)) (packetType : ℤ)
    (context : TcpContext) : Except TcpFatal (Outcome × TcpContext) :=
  if ¬(context.readingPacketLen ≥ tcpNetworkPacketSize) then .ok (.null,context)
  else
    let payloadSize := readInt context.pending (ivSize + tagSize)
    if payloadSize < 0 ∨ maxTcpPayloadSize < payloadSize then
      match ({ context with readingPacketLen := 0 } : TcpContext).resize 0 with
      | .error e => .error e
      | .ok context => .ok (.null,{ context with connectionLost := true })
    else
      let size := tcpNetworkPacketSize + payloadSize.toNat
      if ¬(context.readingPacketLen ≥ size) then .ok (.null,context)
      else
        let packet := decrypt (context.pending.take (ivSize + tagSize))
          ((context.pending.take size).drop tcpNetworkPacketSize)
        match checkDecrypted packet with
        | .error e => .error e
        | .ok () =>
          match consume context size with
          | .error e => .error e
          | .ok context =>
            match packet with
            | none => .ok (.null,context)
            | some packet => .ok (handleTcpPacket packetType context packet)

/-- `timers` tells at each check whether it is too soon since the last `recv`. -/
def tcpGetPacket (decrypt : List UInt8 → List UInt8 → Option (List UInt8)) (packetType : ℤ) :
    List Bool → TcpContext → List RecvResult →
      Except TcpFatal (Option (List UInt8) × TcpContext × List RecvResult)
  | [], context, results => .ok (none,context,results)
  | tooSoon :: timers, context, results =>
    if context.connectionLost ∨ tooSoon then .ok (none,context,results)
    else
      match receiveLoop context results with
      | .error e => .error e
      | .ok (context,results) =>
        if context.connectionLost then .ok (none,context,results)
        else
          match processPending decrypt packetType context with
          | .error e => .error e
          | .ok (.null,context) => .ok (none,context,results)
          | .ok (.packet whistPacket,context) => .ok (some whistPacket,context,results)
          | .ok (.again,context) => tcpGetPacket decrypt packetType timers context results

/-- The receiving side over many calls: the packets returned so far. -/
structure Receiver where
  context : TcpContext := {}
  results : List RecvResult
  returned : List (List UInt8) := []

def getPacketStep (decrypt : List UInt8 → List UInt8 → Option (List UInt8)) (packetType : ℤ)
    (r : Receiver) (timers : List Bool) : Except TcpFatal Receiver :=
  match tcpGetPacket decrypt packetType timers r.context r.results with
  | .error e => .error e
  | .ok (packet,context,results) => .ok ⟨context,results,r.returned ++ packet.toList⟩

end Whist.Tcp
