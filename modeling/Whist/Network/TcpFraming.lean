import Whist.Foundation.Backlog
import Whist.Network.Tcp

/-! # Framing of a TCP stream -/
namespace Whist.Tcp
open Memory

theorem tcpSegmentSize_pos : 0 < tcpSegmentSize := by
  rw [tcpSegmentSize]
  omega

theorem foldl_move (buf : ℕ → UInt8) {size : ℕ} (hsize : 0 < size) (n i : ℕ) :
    (List.range' size n).foldl (fun buf i => Function.update buf (i - size) (buf i)) buf i =
      if i < n then buf (i + size) else buf i := by
  induction n generalizing i with
  | zero => rfl
  | succ n ih =>
    rw [List.range'_1_concat, List.foldl_append, List.foldl_cons, List.foldl_nil,
      Nat.add_sub_cancel_left]
    by_cases hin : i = n
    · subst hin
      rw [Function.update_self, ih, if_neg (by omega), if_pos (by omega), Nat.add_comm]
    · rw [Function.update_of_ne hin, ih]
      congr 1
      exact propext ⟨fun h => by omega,fun h => by omega⟩

theorem moveToFront_pending (buf : ℕ → UInt8) {size : ℕ} (hsize : 0 < size) (len : ℕ) :
    (List.range (len - size)).map (moveToFront buf size len) = ((List.range len).map buf).drop size := by
  rw [← List.map_drop, List.range_eq_range', List.range_eq_range', List.drop_range']
  apply List.ext_getElem (by simp)
  intro i hi _
  simp only [List.length_map, List.length_range'] at hi
  simp only [List.getElem_map, List.getElem_range', moveToFront, foldl_move buf hsize]
  rw [if_pos (by omega)]
  congr 1
  omega

structure Buffered (context : TcpContext) (bytes : List UInt8) : Prop where
  capacity : 0 < context.encryptedTcpPacketBuffer.capacity
  fits : context.readingPacketLen ≤ context.encryptedTcpPacketBuffer.capacity
  pending : context.pending = bytes

section Buffer
variable {context : TcpContext} {bytes : List UInt8}

theorem Buffered.length (h : Buffered context bytes) : context.readingPacketLen = bytes.length := by
  rw [← h.pending, TcpContext.pending, List.length_map, List.length_range]

theorem Buffered.resized (h : Buffered context bytes) {newSize : ℕ} (hsize : bytes.length ≤ newSize) :
    ∃ context', context.resize newSize = .ok context' ∧ Buffered context' bytes ∧
      newSize ≤ context'.encryptedTcpPacketBuffer.capacity ∧
      context'.connectionLost = context.connectionLost := by
  obtain ⟨db,hdb,-,hroom,hpos,-,hkeep⟩ := resizeDynamicBuffer_spec h.capacity newSize
  have hlen := h.length
  rw [TcpContext.resize, hdb]
  refine ⟨_,rfl,⟨hpos,?_,?_⟩,hroom,rfl⟩
  · dsimp only
    omega
  · rw [← h.pending]
    refine List.map_congr_left (fun i hi => hkeep i ?_ ?_)
    · exact lt_of_lt_of_le (List.mem_range.mp hi) h.fits
    · exact lt_of_lt_of_le (List.mem_range.mp hi) (h.length.le.trans hsize)

theorem Buffered.room (h : Buffered context bytes) (hlen : bytes.length + tcpSegmentSize ≤ intMax) :
    ∃ context', makeRoom context = .ok context' ∧ Buffered context' bytes ∧
      bytes.length + tcpSegmentSize ≤ context'.encryptedTcpPacketBuffer.capacity ∧
      context'.connectionLost = context.connectionLost := by
  rw [makeRoom, h.length, if_neg (not_not.mpr hlen)]
  exact h.resized (Nat.le_add_right _ _)

theorem Buffered.no_room (h : Buffered context bytes)
    (hlen : ¬bytes.length + tcpSegmentSize ≤ intMax) : makeRoom context = .error .lengthOverflow := by
  rw [makeRoom, h.length, if_pos hlen]

theorem Buffered.appended (h : Buffered context bytes) {more : List UInt8}
    (hroom : bytes.length + more.length ≤ context.encryptedTcpPacketBuffer.capacity) :
    ∃ context', appendReceived context more = .ok context' ∧ Buffered context' (bytes ++ more) ∧
      context'.connectionLost = context.connectionLost := by
  rw [appendReceived, h.length, if_neg (not_not.mpr hroom)]
  refine ⟨_,rfl,⟨h.capacity,hroom,?_⟩,rfl⟩
  have hp := h.pending
  rw [TcpContext.pending, h.length] at hp
  exact (Bytes.map_range_writeAt ..).trans (by rw [hp])

theorem Buffered.consumed (h : Buffered context bytes) {size : ℕ} (hpos : 0 < size) :
    ∃ context', consume context size = .ok context' ∧ Buffered context' (bytes.drop size) ∧
      context'.connectionLost = context.connectionLost := by
  have hb : Buffered { context with
      encryptedTcpPacketBuffer := { context.encryptedTcpPacketBuffer with
        buf := moveToFront context.encryptedTcpPacketBuffer.buf size context.readingPacketLen }
      readingPacketLen := context.readingPacketLen - size } (bytes.drop size) := by
    refine ⟨h.capacity,le_trans (Nat.sub_le _ _) h.fits,?_⟩
    rw [← h.pending]
    exact moveToFront_pending _ hpos _
  obtain ⟨context',hres,hb',-,hlost⟩ := @Buffered.resized _ _ hb
    (context.readingPacketLen - size) (by rw [h.length, List.length_drop])
  exact ⟨context',hres,hb',hlost⟩

end Buffer

def takePass : List RecvResult → List UInt8 × Bool × List RecvResult
  | [] => ([],false,[])
  | .error :: rest => ([],false,rest)
  | .closed :: rest => ([],true,rest)
  | .data bytes :: rest =>
    if bytes.length = tcpSegmentSize then
      (bytes ++ (takePass rest).1,(takePass rest).2)
    else (bytes,false,rest)

/-- The bytes of all passes up to the shutdown or to the end; `acc` is what the current one has read. -/
def passesFrom (acc : List UInt8) : List RecvResult → List (List UInt8)
  | [] => [acc]
  | .error :: rest => acc :: passesFrom [] rest
  | .closed :: _ => [acc]
  | .data bytes :: rest =>
    if bytes.length = tcpSegmentSize then passesFrom (acc ++ bytes) rest
    else (acc ++ bytes) :: passesFrom [] rest

def passes (results : List RecvResult) : List (List UInt8) := passesFrom [] results

/-- All bytes the peer has written. -/
def received : List RecvResult → List UInt8
  | [] => []
  | .error :: rest => received rest
  | .closed :: _ => []
  | .data bytes :: rest => bytes ++ received rest

def Segmented (results : List RecvResult) : Prop :=
  ∀ bytes, .data bytes ∈ results → bytes.length ≤ tcpSegmentSize

theorem Segmented.tail {result : RecvResult} {rest : List RecvResult}
    (h : Segmented (result :: rest)) : Segmented rest :=
  fun bytes hb => h bytes (List.mem_cons_of_mem _ hb)

theorem passesFrom_getD (results : List RecvResult) (acc : List UInt8) :
    (passesFrom acc results).getD 0 [] = acc ++ (takePass results).1 ∧
      ∀ i, (passesFrom acc results).getD (i + 1) [] =
        if (takePass results).2.1 then [] else (passes (takePass results).2.2).getD i [] := by
  induction results generalizing acc with
  | nil =>
    refine ⟨by simp [passesFrom, takePass],fun i => ?_⟩
    cases i <;> simp [passesFrom, takePass, passes]
  | cons result rest ih =>
    cases result with
    | error => exact ⟨by simp [passesFrom, takePass],fun i => by simp [passesFrom, takePass, passes]⟩
    | closed => exact ⟨by simp [passesFrom, takePass],fun i => by simp [passesFrom, takePass]⟩
    | data bytes =>
      by_cases hfull : bytes.length = tcpSegmentSize
      · rw [passesFrom, takePass, if_pos hfull, if_pos hfull, ← List.append_assoc]
        exact ih (acc ++ bytes)
      · rw [passesFrom, takePass, if_neg hfull, if_neg hfull]
        exact ⟨by simp,fun i => by simp [passes]⟩

theorem length_passesFrom {results : List RecvResult} (hc : .closed ∈ results) (acc : List UInt8) :
    (passesFrom acc results).length =
      1 + if (takePass results).2.1 then 0 else (passes (takePass results).2.2).length := by
  induction results generalizing acc with
  | nil => cases hc
  | cons result rest ih =>
    cases result with
    | error => simp [passesFrom, takePass, passes, Nat.add_comm]
    | closed => simp [passesFrom, takePass]
    | data bytes =>
      have hc' : .closed ∈ rest := (List.mem_cons.mp hc).resolve_left (by simp)
      by_cases hfull : bytes.length = tcpSegmentSize
      · rw [passesFrom, takePass, if_pos hfull, if_pos hfull]
        exact ih hc' (acc ++ bytes)
      · rw [passesFrom, takePass, if_neg hfull, if_neg hfull]
        simp [passes, Nat.add_comm]

theorem passesFrom_flatten (results : List RecvResult) (acc : List UInt8) :
    (passesFrom acc results).flatten = acc ++ received results := by
  induction results generalizing acc with
  | nil => simp [passesFrom, received]
  | cons result rest ih =>
    cases result with
    | error => simp [passesFrom, received, ih]
    | closed => simp [passesFrom, received]
    | data bytes =>
      rw [passesFrom, received, ← List.append_assoc]
      split_ifs
      · exact ih _
      · simp [ih]

theorem passesFrom_last {results : List RecvResult} (hc : .closed ∉ results) {acc : List UInt8}
    (hacc : tcpSegmentSize ∣ acc.length) :
    ∃ init last, passesFrom acc results = init ++ [last] ∧ tcpSegmentSize ∣ last.length := by
  induction results generalizing acc with
  | nil => exact ⟨[],acc,rfl,hacc⟩
  | cons result rest ih =>
    have hc' : .closed ∉ rest := fun h => hc (List.mem_cons_of_mem _ h)
    cases result with
    | error =>
      obtain ⟨init,last,heq,hlast⟩ := @ih hc' [] (dvd_zero _)
      exact ⟨acc :: init,last,by rw [passesFrom, heq, List.cons_append],hlast⟩
    | closed => exact absurd (List.mem_cons_self ..) hc
    | data bytes =>
      rw [passesFrom]
      by_cases hfull : bytes.length = tcpSegmentSize
      · rw [if_pos hfull]
        exact ih hc' (by rw [List.length_append, hfull]; exact (Nat.dvd_add_self_right).mpr hacc)
      · obtain ⟨init,last,heq,hlast⟩ := @ih hc' [] (dvd_zero _)
        exact ⟨(acc ++ bytes) :: init,last,by rw [if_neg hfull, heq, List.cons_append],hlast⟩

theorem takePass_rest (results : List RecvResult) :
    received results = (takePass results).1 ++
        (if (takePass results).2.1 then [] else received (takePass results).2.2) ∧
      (Segmented results → Segmented (takePass results).2.2) ∧
      ((takePass results).2.1 = true → .closed ∈ results) ∧
      ((takePass results).2.1 = false →
        (.closed ∈ results ↔ .closed ∈ (takePass results).2.2)) := by
  induction results with
  | nil => exact ⟨by simp [received, takePass],id,by simp [takePass],by simp [takePass]⟩
  | cons result rest ih =>
    cases result with
    | error =>
      exact ⟨by simp [received, takePass],Segmented.tail,by simp [takePass],by simp [takePass]⟩
    | closed => exact ⟨by simp [received, takePass],Segmented.tail,by simp,by simp [takePass]⟩
    | data bytes =>
      obtain ⟨hrec,hseg,hclosed,hopen⟩ := ih
      by_cases hfull : bytes.length = tcpSegmentSize
      · rw [received, takePass, if_pos hfull]
        refine ⟨?_,fun h => hseg h.tail,fun h => List.mem_cons_of_mem _ (hclosed h),fun h => ?_⟩
        · rw [hrec, List.append_assoc]
        · rw [← hopen h]
          simp
      · rw [received, takePass, if_neg hfull]
        exact ⟨by simp,Segmented.tail,by simp,by simp⟩

/-- The room the receiving loop asks for on top of what is pending. -/
def roomOf (pass : List UInt8) : ℕ := tcpSegmentSize * (pass.length / tcpSegmentSize + 1)

theorem roomOf_append {bytes : List UInt8} (h : bytes.length = tcpSegmentSize) (more : List UInt8) :
    roomOf (bytes ++ more) = bytes.length + roomOf more := by
  rw [roomOf, roomOf, List.length_append, h, Nat.add_div_left _ tcpSegmentSize_pos]
  ring

theorem roomOf_short {bytes : List UInt8} (h : bytes.length < tcpSegmentSize) :
    roomOf bytes = tcpSegmentSize := by
  rw [roomOf, Nat.div_eq_of_lt h, Nat.zero_add, Nat.mul_one]

theorem receiveLoop_spec {results : List RecvResult} (hs : Segmented results) {context : TcpContext}
    {bytes : List UInt8} (h : Buffered context bytes) :
    (bytes.length + roomOf (takePass results).1 ≤ intMax →
      ∃ context', receiveLoop context results = .ok (context',(takePass results).2.2) ∧
        Buffered context' (bytes ++ (takePass results).1) ∧
        context'.connectionLost = (context.connectionLost || (takePass results).2.1)) ∧
    (¬bytes.length + roomOf (takePass results).1 ≤ intMax →
      ∃ e, receiveLoop context results = .error e) := by
  have hnil : roomOf [] = tcpSegmentSize := roomOf_short tcpSegmentSize_pos
  induction results generalizing context bytes with
  | nil =>
    rw [takePass]
    dsimp only
    rw [hnil, List.append_nil, Bool.or_false]
    constructor
    · intro hroom
      obtain ⟨ctx,hmake,hb,-,hlost⟩ := h.room hroom
      exact ⟨ctx,by rw [receiveLoop, hmake]; rfl,hb,hlost⟩
    · intro hroom
      exact ⟨.lengthOverflow,by rw [receiveLoop, h.no_room hroom]; rfl⟩
  | cons result rest ih =>
    by_cases hroom : bytes.length + tcpSegmentSize ≤ intMax
    · obtain ⟨ctx,hmake,hb,hcap,hlost⟩ := h.room hroom
      cases result with
      | error =>
        rw [receiveLoop, hmake, takePass]
        dsimp only
        rw [hnil, List.append_nil, Bool.or_false]
        exact ⟨fun _ => ⟨ctx,rfl,hb,hlost⟩,fun hno => absurd hroom hno⟩
      | closed =>
        rw [receiveLoop, hmake, takePass]
        dsimp only
        rw [hnil, List.append_nil, Bool.or_true]
        exact ⟨fun _ => ⟨_,rfl,⟨hb.capacity,hb.fits,hb.pending⟩,rfl⟩,fun hno => absurd hroom hno⟩
      | data more =>
        have hmore := hs more (by simp)
        obtain ⟨ctx',happ,hb',hlost'⟩ := @Buffered.appended _ _ hb more (by omega)
        have hloop : receiveLoop context (.data more :: rest) =
            if more.length = tcpSegmentSize then receiveLoop ctx' rest else .ok (ctx',rest) := by
          rw [receiveLoop, hmake]
          dsimp only
          rw [happ]
        by_cases hfull : more.length = tcpSegmentSize
        · have hih := ih hs.tail hb'
          rw [List.length_append, hlost', hlost] at hih
          rw [hloop, takePass, if_pos hfull, if_pos hfull]
          dsimp only
          rw [roomOf_append hfull, ← Nat.add_assoc, ← List.append_assoc]
          exact hih
        · rw [hloop, takePass, if_neg hfull, if_neg hfull]
          dsimp only
          rw [roomOf_short (by omega)]
          refine ⟨fun _ => ⟨ctx',rfl,hb',?_⟩,fun hno => absurd hroom hno⟩
          rw [Bool.or_false, hlost', hlost]
    · have hle : tcpSegmentSize ≤ roomOf (takePass (result :: rest)).1 :=
        Nat.le_mul_of_pos_right _ (Nat.succ_pos _)
      refine ⟨fun h => absurd (by omega) hroom,fun _ => ⟨.lengthOverflow,?_⟩⟩
      rw [receiveLoop, h.no_room hroom]

/-- An encrypted packet as it is written to the stream. -/
structure TcpNetworkPacket where
  aesMetadata : List UInt8
  payload : List UInt8
  metadata_length : aesMetadata.length = ivSize + tagSize
  payload_length : (payload.length : ℤ) ≤ maxTcpPayloadSize

def TcpNetworkPacket.bytes (p : TcpNetworkPacket) : List UInt8 :=
  p.aesMetadata ++ writeInt p.payload.length ++ p.payload

def encode (frames : List TcpNetworkPacket) : List UInt8 := (frames.map TcpNetworkPacket.bytes).flatten

section Frames
variable {decrypt : List UInt8 → List UInt8 → Option (List UInt8)} {packetType : ℤ}

/-- The receiver can decrypt a frame, its length is right, and a packet has the type
that is asked for. -/
def WellFormed (decrypt : List UInt8 → List UInt8 → Option (List UInt8)) (packetType : ℤ)
    (p : TcpNetworkPacket) : Prop :=
  ∃ packet, decrypt p.aesMetadata p.payload = some packet ∧ checkDecrypted (some packet) = .ok () ∧
    (readInt packet 0 = 2 → readInt packet 4 = packetType)

/-- The packet a frame delivers; pings and pongs deliver none. -/
def whistPacketOf (decrypt : List UInt8 → List UInt8 → Option (List UInt8)) (p : TcpNetworkPacket) :
    Option (List UInt8) :=
  match decrypt p.aesMetadata p.payload with
  | none => none
  | some packet => if readInt packet 0 = 2 then some (packet.drop 4) else none

def Outcome.returned : Outcome → Option (List UInt8)
  | .null => none
  | .packet whistPacket => some whistPacket
  | .again => none

theorem length_writeInt (n : ℕ) : (writeInt n).length = 4 := rfl

theorem readInt_writeInt {n : ℕ} (h : n ≤ intMax) (pre post : List UInt8) :
    readInt (pre ++ writeInt n ++ post) pre.length = n := by
  have hbyte : ∀ i, (UInt8.ofNat i).toNat = i % 256 := fun i => UInt8.toNat_ofNat'
  have hget : ∀ i < 4, (pre ++ writeInt n ++ post).getD (pre.length + i) 0 = (writeInt n).getD i 0 := by
    intro i hi
    rw [List.getD_eq_getElem?_getD, List.append_assoc, List.getElem?_append_right (Nat.le_add_right _ _),
      Nat.add_sub_cancel_left, List.getElem?_append_left (by rwa [length_writeInt]),
      ← List.getD_eq_getElem?_getD]
  have hword : n % 256 + 256 * (n / 256 % 256) + 65536 * (n / 65536 % 256) +
      16777216 * (n / 16777216 % 256) = n := by
    rw [intMax] at h
    omega
  rw [readInt]
  simp only [hget 0 (by omega), hget 1 (by omega), hget 2 (by omega), hget 3 (by omega)]
  simp only [writeInt, List.getD_cons_zero, List.getD_cons_succ, hbyte, hword]
  rw [if_pos h]

theorem TcpNetworkPacket.bytes_length (p : TcpNetworkPacket) :
    p.bytes.length = tcpNetworkPacketSize + p.payload.length := by
  rw [bytes, List.length_append, List.length_append, p.metadata_length, length_writeInt]
  rfl

theorem TcpNetworkPacket.bytes_pos (p : TcpNetworkPacket) : 0 < p.bytes.length := by
  rw [p.bytes_length]
  exact Nat.lt_of_lt_of_le (by decide) (Nat.le_add_right _ _)

theorem readInt_append {bytes : List UInt8} {offset : ℕ} (h : offset + 4 ≤ bytes.length)
    (later : List UInt8) : readInt (bytes ++ later) offset = readInt bytes offset := by
  have hget : ∀ i < 4, (bytes ++ later).getD (offset + i) 0 = bytes.getD (offset + i) 0 := by
    intro i hi
    rw [List.getD_eq_getElem?_getD, List.getElem?_append_left (by omega),
      ← List.getD_eq_getElem?_getD]
  rw [readInt, readInt]
  simp only [hget 0 (by omega), hget 1 (by omega), hget 2 (by omega), hget 3 (by omega)]

theorem readInt_header {p : TcpNetworkPacket} {bytes later more : List UInt8}
    (h : bytes ++ later = p.bytes ++ more) (hlen : tcpNetworkPacketSize ≤ bytes.length) :
    readInt bytes (ivSize + tagSize) = p.payload.length := by
  have hsmall : p.payload.length ≤ intMax := by
    have := p.payload_length
    rw [maxTcpPayloadSize] at this
    rw [intMax]
    omega
  rw [← readInt_append hlen later, h, TcpNetworkPacket.bytes, List.append_assoc, ← p.metadata_length]
  exact readInt_writeInt hsmall _ _

theorem handleTcpPacket_spec {context : TcpContext} {bytes : List UInt8} (h : Buffered context bytes)
    (packet : List UInt8) (htype : readInt packet 0 = 2 → readInt packet 4 = packetType) :
    (handleTcpPacket packetType context packet).1.returned =
        (if readInt packet 0 = 2 then some (packet.drop 4) else none) ∧
      Buffered (handleTcpPacket packetType context packet).2 bytes ∧
      (handleTcpPacket packetType context packet).2.connectionLost = context.connectionLost := by
  rw [handleTcpPacket]
  by_cases h2 : readInt packet 0 = 2
  · rw [if_pos h2, if_pos h2, if_neg (not_not.mpr (htype h2))]
    exact ⟨rfl,h,rfl⟩
  · rw [if_neg h2, if_neg h2]
    split_ifs
    · exact ⟨rfl,⟨h.capacity,h.fits,h.pending⟩,rfl⟩
    · exact ⟨rfl,⟨h.capacity,h.fits,h.pending⟩,rfl⟩

/-- What a round returns and leaves pending, given the frames still to come: the next
one is taken if all of it has arrived. -/
def Serves (decrypt : List UInt8 → List UInt8 → Option (List UInt8)) (bytes : List UInt8)
    (outcome : Outcome) (context : TcpContext) : List TcpNetworkPacket → Prop
  | [] => outcome.returned = none ∧ Buffered context bytes
  | p :: _ =>
    if p.bytes.length ≤ bytes.length then
      outcome.returned = whistPacketOf decrypt p ∧ Buffered context (bytes.drop p.bytes.length)
    else outcome.returned = none ∧ Buffered context bytes

theorem processPending_spec {context : TcpContext} {bytes later : List UInt8}
    {frames : List TcpNetworkPacket} (h : Buffered context bytes) (hstream : bytes ++ later = encode frames)
    (hwell : ∀ p ∈ frames, WellFormed decrypt packetType p) :
    ∃ outcome context', processPending decrypt packetType context = .ok (outcome,context') ∧
      context'.connectionLost = context.connectionLost ∧
      Serves decrypt bytes outcome context' frames := by
  cases frames with
  | nil =>
    have hnil : bytes = [] := by
      have := congrArg List.length hstream
      rw [List.length_append, encode, List.map_nil, List.flatten_nil, List.length_nil] at this
      exact List.length_eq_zero_iff.mp (by omega)
    refine ⟨.null,context,?_,rfl,rfl,h⟩
    rw [processPending, h.length, hnil, if_pos (by decide)]
  | cons p rest =>
    have hstream' : bytes ++ later = p.bytes ++ encode rest := by
      rw [hstream, encode, List.map_cons, List.flatten_cons]
      rfl
    obtain ⟨packet,hdec,hcheck,htype⟩ := hwell p (by simp)
    have hbytes := p.bytes_length
    by_cases hheader : tcpNetworkPacketSize ≤ bytes.length
    · have hread := readInt_header hstream' hheader
      have hmax := p.payload_length
      rw [processPending, h.length, h.pending, if_neg (not_not.mpr hheader), hread]
      dsimp only
      rw [if_neg (by omega), Int.toNat_natCast, ← hbytes]
      by_cases hfull : p.bytes.length ≤ bytes.length
      · have hfront : bytes.take p.bytes.length = p.bytes := by
          have := congrArg (List.take p.bytes.length) hstream'
          rwa [List.take_append_of_le_length hfull, List.take_left'  rfl] at this
        have hmeta : bytes.take (ivSize + tagSize) = p.aesMetadata := by
          have hle : ivSize + tagSize ≤ p.bytes.length := by
            rw [hbytes, tcpNetworkPacketSize]
            omega
          rw [← Nat.min_eq_left hle, ← List.take_take, hfront, TcpNetworkPacket.bytes,
            List.append_assoc, List.take_left' p.metadata_length]
        have hpayload : (bytes.take p.bytes.length).drop tcpNetworkPacketSize = p.payload := by
          rw [hfront, TcpNetworkPacket.bytes, List.drop_left']
          rw [List.length_append, p.metadata_length]
          rfl
        obtain ⟨context',hcons,hb,hlost⟩ := h.consumed p.bytes_pos
        obtain ⟨hret,hb',hlost'⟩ := handleTcpPacket_spec hb packet htype
        rw [if_neg (not_not.mpr hfull), hmeta, hpayload, hdec, hcheck]
        dsimp only
        rw [hcons]
        refine ⟨_,_,rfl,hlost'.trans hlost,?_⟩
        rw [Serves, if_pos hfull, whistPacketOf, hdec]
        exact ⟨hret,hb'⟩
      · rw [if_pos hfull]
        refine ⟨.null,context,rfl,rfl,?_⟩
        rw [Serves, if_neg hfull]
        exact ⟨rfl,h⟩
    · rw [processPending, h.length, if_pos hheader]
      refine ⟨.null,context,rfl,rfl,?_⟩
      rw [Serves, if_neg (by omega)]
      exact ⟨rfl,h⟩

end Frames

end Whist.Tcp
