import Whist.Network.TcpFraming

/-! # The TCP send thread

What `send` is handed is recorded byte by byte, `none` for a byte that does not belong
to the packet.  How much each call of `send` accepts is up to the kernel: between one
byte and all it is offered, or an error.
-/
namespace Whist.Tcp

inductive SendResult
  | accepted (n : ℕ)
  | error (connectionReset : Bool)

structure Sender where
  sendQueue : List TcpNetworkPacket := []
  sendSemaphore : ℕ := 0
  connectionLost : Bool := false
  /-- How often `send` has been called. -/
  calls : ℕ := 0
  /-- What the kernel has accepted. -/
  stream : List (Option UInt8) := []

/-- `len` bytes from `offset` bytes behind the start of the packet. -/
def readFrom (packet : List UInt8) (offset len : ℕ) : List (Option UInt8) :=
  (List.range len).map (fun j => packet[offset + j]?)

/-- The loop around `send`.  The offset is added to a `TCPNetworkPacket*`, and the
length offered is that of the whole packet. -/
def sendLoop (results : ℕ → SendResult) (packet : List UInt8) : ℕ → ℕ → Sender → Sender
  | 0, _, s => s
  | fuel + 1, totalSent, s =>
    if totalSent < packet.length then
      match results s.calls with
      | .error connectionReset =>
        { s with calls := s.calls + 1, connectionLost := s.connectionLost || connectionReset }
      | .accepted n =>
        let ret := max 1 (min n packet.length)
        sendLoop results packet fuel (totalSent + ret) { s with
          calls := s.calls + 1
          stream := s.stream ++ readFrom packet (totalSent * tcpNetworkPacketSize) ret }
    else s

def tcpSendConstructedPacket (s : Sender) (networkPacket : TcpNetworkPacket) : Sender :=
  { s with sendQueue := s.sendQueue ++ [networkPacket], sendSemaphore := s.sendSemaphore + 1 }

def sendDequeued (results : ℕ → SendResult) (s : Sender) : Sender :=
  match s.sendQueue with
  | [] => s
  | networkPacket :: rest =>
    sendLoop results networkPacket.bytes networkPacket.bytes.length 0 { s with sendQueue := rest }

/-- One round of `multithreaded_tcp_send`; without a post it keeps waiting.  On a lost
connection the semaphore is posted and waited for once more. -/
def sendRound (results : ℕ → SendResult) (s : Sender) : Sender :=
  if s.sendSemaphore = 0 then s
  else
    let s := { s with sendSemaphore := s.sendSemaphore - 1 }
    if s.connectionLost then
      let s := { s with sendSemaphore := s.sendSemaphore + 1 }
      if s.sendSemaphore = 0 then s
      else sendDequeued results { s with sendSemaphore := s.sendSemaphore - 1 }
    else sendDequeued results s

inductive SenderEvent
  | queue (networkPacket : TcpNetworkPacket)
  | round
  /-- `tcp_update` gives up on a ping. -/
  | loseConnection

def senderStep (results : ℕ → SendResult) (s : Sender) : SenderEvent → Sender
  | .queue networkPacket => tcpSendConstructedPacket s networkPacket
  | .round => sendRound results s
  | .loseConnection => { s with connectionLost := true }

structure Outbox where
  waiting : List TcpNetworkPacket := []
  taken : List TcpNetworkPacket := []

def Outbox.step (o : Outbox) : SenderEvent → Outbox
  | .queue networkPacket => { o with waiting := o.waiting ++ [networkPacket] }
  | .round =>
    match o.waiting with
    | [] => o
    | networkPacket :: rest => ⟨rest,o.taken ++ [networkPacket]⟩
  | .loseConnection => o

def takenPackets (events : List SenderEvent) : List TcpNetworkPacket :=
  (events.foldl Outbox.step {}).taken

theorem readFrom_all (packet : List UInt8) : readFrom packet 0 packet.length = packet.map some := by
  apply List.ext_getElem (by simp [readFrom])
  intro i h _
  simp [readFrom] at h
  simp [readFrom, h]

theorem none_mem_readFrom {packet : List UInt8} {offset len : ℕ} (hlen : 0 < len)
    (h : packet.length < offset + len) : none ∈ readFrom packet offset len := by
  refine List.mem_map.mpr ⟨len - 1,List.mem_range.mpr (by omega),?_⟩
  exact List.getElem?_eq_none (by omega)

section Loop
variable {accepts : ℕ → ℕ} {packet : List UInt8}

/-- Sending on behind the first byte runs past the end of the packet. -/
theorem sendLoop_overrun {fuel totalSent : ℕ} {s : Sender} (hpos : 0 < totalSent)
    (hlt : totalSent < packet.length) (hfuel : packet.length ≤ totalSent + fuel) :
    ∃ more, (sendLoop (fun k => .accepted (accepts k)) packet fuel totalSent s).stream =
        s.stream ++ more ∧ none ∈ more ∧
      (sendLoop (fun k => .accepted (accepts k)) packet fuel totalSent s).sendQueue = s.sendQueue ∧
      (sendLoop (fun k => .accepted (accepts k)) packet fuel totalSent s).sendSemaphore =
        s.sendSemaphore := by
  induction fuel generalizing totalSent s with
  | zero => omega
  | succ fuel ih =>
    unfold sendLoop
    rw [if_pos hlt]
    dsimp only
    generalize hret : max 1 (min (accepts s.calls) packet.length) = ret
    by_cases hend : totalSent + ret < packet.length
    · obtain ⟨more,hmore,hnone,hqueue,hsem⟩ := @ih (totalSent + ret) { s with
        calls := s.calls + 1
        stream := s.stream ++ readFrom packet (totalSent * tcpNetworkPacketSize) ret } (by omega) hend (by omega)
      refine ⟨readFrom packet (totalSent * tcpNetworkPacketSize) ret ++ more,?_,?_,hqueue,hsem⟩
      · rw [hmore, List.append_assoc]
      · exact List.mem_append_right _ hnone
    · have hstop : ∀ s', sendLoop (fun k => .accepted (accepts k)) packet fuel (totalSent + ret) s' = s' := by
        intro s'
        cases fuel with
        | zero => rfl
        | succ fuel =>
          unfold sendLoop
          exact if_neg hend
      rw [hstop]
      refine ⟨_,rfl,none_mem_readFrom (by omega) ?_,rfl,rfl⟩
      unfold tcpNetworkPacketSize ivSize tagSize
      omega

/-- A packet that the kernel takes at once goes out as it is; any other does not. -/
theorem sendLoop_spec (hpos : 1 < packet.length) (s : Sender) :
    ∃ more, (sendLoop (fun k => .accepted (accepts k)) packet packet.length 0 s).stream =
        s.stream ++ more ∧
      (sendLoop (fun k => .accepted (accepts k)) packet packet.length 0 s).sendQueue = s.sendQueue ∧
      (sendLoop (fun k => .accepted (accepts k)) packet packet.length 0 s).sendSemaphore =
        s.sendSemaphore ∧
      (packet.length ≤ accepts s.calls → more = packet.map some ∧
        (sendLoop (fun k => .accepted (accepts k)) packet packet.length 0 s).calls = s.calls + 1) ∧
      (accepts s.calls < packet.length → none ∈ more) := by
  obtain ⟨fuel,hfuel⟩ := Nat.exists_eq_add_one_of_ne_zero (show packet.length ≠ 0 by omega)
  have hunfold : sendLoop (fun k => .accepted (accepts k)) packet packet.length 0 s =
      sendLoop (fun k => .accepted (accepts k)) packet fuel (max 1 (min (accepts s.calls) packet.length))
        { s with
          calls := s.calls + 1
          stream := s.stream ++ readFrom packet 0 (max 1 (min (accepts s.calls) packet.length)) } := by
    rw [hfuel, sendLoop, ← hfuel, if_pos (by omega)]
    dsimp only
    rw [Nat.zero_mul, Nat.zero_add]
  rw [hunfold]
  by_cases hall : packet.length ≤ accepts s.calls
  · have hret : max 1 (min (accepts s.calls) packet.length) = packet.length := by omega
    have hstop : ∀ s', sendLoop (fun k => .accepted (accepts k)) packet fuel packet.length s' = s' := by
      intro s'
      cases fuel with
      | zero => rfl
      | succ fuel =>
        unfold sendLoop
        exact if_neg (lt_irrefl _)
    rw [hret, hstop]
    exact ⟨_,rfl,rfl,rfl,fun _ => ⟨readFrom_all packet,rfl⟩,fun h => absurd hall (not_le.mpr h)⟩
  · obtain ⟨more,hmore,hnone,hqueue,hsem⟩ := @sendLoop_overrun accepts packet fuel
      (max 1 (min (accepts s.calls) packet.length)) { s with
        calls := s.calls + 1
        stream := s.stream ++ readFrom packet 0 (max 1 (min (accepts s.calls) packet.length)) }
      (by omega) (by omega) (by omega)
    refine ⟨readFrom packet 0 (max 1 (min (accepts s.calls) packet.length)) ++ more,?_,hqueue,hsem,
      fun h => absurd h hall,fun _ => List.mem_append_right _ hnone⟩
    rw [hmore, List.append_assoc]

end Loop

theorem TcpNetworkPacket.one_lt_length (p : TcpNetworkPacket) : 1 < p.bytes.length := by
  have := p.metadata_length
  rw [bytes, List.length_append, List.length_append, this, length_writeInt, ivSize, tagSize]
  omega

def TakenWhole (accepts : ℕ → ℕ) (taken : List TcpNetworkPacket) : Prop :=
  ∀ i p, taken[i]? = some p → p.bytes.length ≤ accepts i

theorem takenWhole_append {accepts : ℕ → ℕ} {taken : List TcpNetworkPacket} {p : TcpNetworkPacket} :
    TakenWhole accepts (taken ++ [p]) ↔
      TakenWhole accepts taken ∧ p.bytes.length ≤ accepts taken.length := by
  constructor
  · intro h
    refine ⟨fun i q hq => h i q ?_,h _ p (by simp)⟩
    rw [List.getElem?_append_left (List.getElem?_eq_some_iff.mp hq).1]
    exact hq
  · rintro ⟨h,hp⟩ i q hq
    by_cases hi : i < taken.length
    · rw [List.getElem?_append_left hi] at hq
      exact h i q hq
    · rw [List.getElem?_append_right (not_lt.mp hi), List.getElem?_singleton] at hq
      split_ifs at hq with hzero
      cases hq
      rwa [show i = taken.length by omega]

structure Drained (accepts : ℕ → ℕ) (o : Outbox) (s : Sender) : Prop where
  queue : s.sendQueue = o.waiting
  semaphore : s.sendSemaphore = o.waiting.length
  whole : TakenWhole accepts o.taken →
    s.stream = (encode o.taken).map some ∧ s.calls = o.taken.length
  partly : ¬TakenWhole accepts o.taken → none ∈ s.stream

theorem sendDequeued_drained {accepts : ℕ → ℕ} {o : Outbox} {s : Sender} {p : TcpNetworkPacket}
    {rest : List TcpNetworkPacket} (h : Drained accepts o s) (hwait : o.waiting = p :: rest) {s' : Sender}
    (hqueue : s'.sendQueue = s.sendQueue) (hsem : s'.sendSemaphore = rest.length)
    (hstream : s'.stream = s.stream) (hcalls : s'.calls = s.calls) :
    Drained accepts ⟨rest,o.taken ++ [p]⟩ (sendDequeued (fun k => .accepted (accepts k)) s') := by
  have hq : s'.sendQueue = p :: rest := by rw [hqueue, h.queue, hwait]
  obtain ⟨more,hmore,hqueue',hsem',hfull,hpart⟩ := @sendLoop_spec accepts p.bytes p.one_lt_length
    { s' with sendQueue := rest }
  have hrun : sendDequeued (fun k => .accepted (accepts k)) s' =
      sendLoop (fun k => .accepted (accepts k)) p.bytes p.bytes.length 0 { s' with sendQueue := rest } := by
    unfold sendDequeued
    rw [hq]
  rw [hrun]
  dsimp only at hmore hfull hpart
  refine ⟨hqueue',hsem'.trans hsem,fun hw => ?_,fun hw => ?_⟩
  · obtain ⟨hbefore,hp⟩ := takenWhole_append.mp hw
    obtain ⟨hs,hc⟩ := h.whole hbefore
    have hc := hcalls.trans hc
    rw [← hc] at hp
    obtain ⟨rfl,hc'⟩ := hfull hp
    refine ⟨?_,by rw [hc', hc, List.length_append, List.length_singleton]⟩
    rw [hmore, hstream, hs]
    simp [encode]
  · rw [hmore, hstream]
    by_cases hbefore : TakenWhole accepts o.taken
    · have hp : ¬p.bytes.length ≤ accepts o.taken.length :=
        fun hp => hw (takenWhole_append.mpr ⟨hbefore,hp⟩)
      rw [← (h.whole hbefore).2, ← hcalls] at hp
      exact List.mem_append_right _ (hpart (not_le.mp hp))
    · exact List.mem_append_left _ (h.partly hbefore)

theorem senderStep_drained {accepts : ℕ → ℕ} {o : Outbox} {s : Sender} (h : Drained accepts o s)
    (e : SenderEvent) : Drained accepts (o.step e) (senderStep (fun k => .accepted (accepts k)) s e) := by
  cases e with
  | queue p =>
    refine ⟨?_,?_,h.whole,h.partly⟩
    · simp [senderStep, tcpSendConstructedPacket, Outbox.step, h.queue]
    · simp [senderStep, tcpSendConstructedPacket, Outbox.step, h.semaphore]
  | loseConnection => exact ⟨h.queue,h.semaphore,h.whole,h.partly⟩
  | round =>
    unfold senderStep sendRound Outbox.step
    dsimp only
    cases hwait : o.waiting with
    | nil =>
      rw [if_pos (by rw [h.semaphore, hwait]; rfl)]
      exact h
    | cons p rest =>
      have hsem : s.sendSemaphore = rest.length + 1 := by rw [h.semaphore, hwait, List.length_cons]
      rw [if_neg (by omega)]
      by_cases hlost : s.connectionLost
      · rw [if_pos hlost, if_neg (by omega)]
        exact sendDequeued_drained h hwait rfl (by dsimp only; omega) rfl rfl
      · rw [if_neg hlost]
        exact sendDequeued_drained h hwait rfl (by dsimp only; omega) rfl rfl

theorem run_drained (accepts : ℕ → ℕ) (events : List SenderEvent) :
    Drained accepts (events.foldl Outbox.step {})
      (events.foldl (senderStep (fun k => .accepted (accepts k))) {}) := by
  induction events using List.reverseRecOn with
  | nil => exact ⟨rfl,rfl,fun _ => ⟨rfl,rfl⟩,fun h => absurd (fun i p hp => by simp at hp) h⟩
  | append_singleton events e ih =>
    rw [List.foldl_append, List.foldl_append]
    exact senderStep_drained ih e

/-- Under any interleaving of queueing and sending, the kernel is handed exactly the
packets taken from the queue, in order, if and only if it accepts each with one call. -/
theorem stream_preserved_iff (accepts : ℕ → ℕ) (events : List SenderEvent) :
    (events.foldl (senderStep (fun k => .accepted (accepts k))) {}).stream =
        (encode (takenPackets events)).map some ↔
      ∀ i p, (takenPackets events)[i]? = some p → p.bytes.length ≤ accepts i := by
  have h := run_drained accepts events
  constructor
  · intro hs
    by_contra hw
    have hnone := h.partly hw
    rw [hs] at hnone
    simp at hnone
  · exact fun hw => (h.whole hw).1

/-- A packet whose encrypted payload is five bytes long. -/
def smallPacket : TcpNetworkPacket where
  aesMetadata := List.replicate 28 7
  payload := [1,2,3,4,5]
  metadata_length := rfl
  payload_length := by decide

/-- The kernel takes one byte of 37 and then the rest: from the 33rd byte on, and
beyond the end. -/
theorem partial_send_garbles :
    ([.queue smallPacket,.round].foldl
      (senderStep (fun k => .accepted (if k = 0 then 1 else 36))) {}).stream ≠
      (encode (takenPackets [.queue smallPacket,.round])).map some := by
  decide +kernel

end Whist.Tcp
