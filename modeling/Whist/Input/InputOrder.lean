import Mathlib.Tactic

/-! # The order in which input is replayed

Input messages travel over UDP.  The server drops a keyboard message by the id of its packet
and any input message by the id of the message; both filters keep the last id they let through.
-/
namespace Whist.Input

inductive WhistClientMessageType where
  | none | keyboard | keyboardState | mouseButton | mouseWheel | mouseMotion | multigesture
  | release | stopStreaming | startStreaming | dimensions | clipboard | init | openUrl
  | fileMetadata | fileData | fileGroupEnd | frameAck | fileUploadCancel | fileDrag | quit
deriving DecidableEq

/-- A message; `extra` is the length of the data at its end. -/
structure WhistClientMessage where
  type : WhistClientMessageType
  id : ℕ
  extra : ℤ
deriving DecidableEq

structure WhistPacket where
  id : ℤ
  payloadSize : ℤ
  message : WhistClientMessage
deriving DecidableEq

/-- `sizeof(WhistClientMessage)`, which covers the small messages, and `MAX_PACKET_SIZE`. -/
structure Sizes where
  wcmsg : ℤ
  maxPacketSize : ℤ
  small : 48 ≤ wcmsg

namespace WhistClientMessageType

def isKeyboard (t : WhistClientMessageType) : Bool := t = keyboard || t = keyboardState

def isUserInput : WhistClientMessageType → Bool
  | keyboard | mouseButton | mouseWheel | mouseMotion | multigesture => true
  | _ => false

def overTcp : WhistClientMessageType → Bool
  | init | fileData | fileMetadata | fileGroupEnd | clipboard | dimensions => true
  | _ => false

end WhistClientMessageType

variable (S : Sizes)

def getWcmsgSize (m : WhistClientMessage) : ℤ :=
  match m.type with
  | .keyboardState | .init => S.wcmsg
  | .clipboard | .fileMetadata | .fileData | .fileDrag | .openUrl => S.wcmsg + m.extra
  | _ => 48

/-- The counters of `send_wcmsg`. -/
structure SendState where
  wcmsgId : ℕ
  sentPacketId : ℕ

/-- A call of `send_wcmsg`. -/
structure SendCall where
  type : WhistClientMessageType
  extra : ℤ
  connected : Bool

def sendWcmsg (c : SendState) (call : SendCall) : Option WhistPacket × SendState :=
  let m : WhistClientMessage := ⟨call.type,c.wcmsgId,call.extra⟩
  let size := getWcmsgSize S m
  -- The counter is an `unsigned int`.
  let c := { c with wcmsgId := (c.wcmsgId + 1) % 2 ^ 32 }
  if !call.connected then (.none,c)
  else if call.type.overTcp || decide (size < 0) || decide (S.wcmsg < size) then (.none,c)
  else if S.maxPacketSize < size then (.none,c)
  else (some ⟨c.sentPacketId + 1,size,m⟩,{ c with sentPacketId := c.sentPacketId + 1 })

def sendAll : SendState → List SendCall → List WhistPacket
  | _, [] => []
  | c, call :: calls => (sendWcmsg S c call).1.toList ++ sendAll (sendWcmsg S c call).2 calls

/-- An input message that arrived was replayed or applied, or it was dropped. -/
inductive InputEvent where
  | handled (m : WhistClientMessage)
  | ignored (m : WhistClientMessage)
deriving DecidableEq

structure InputState where
  lastInputId : ℤ := -1
  lastInputFcmsgId : ℕ := 0
  log : List InputEvent := []

def InputState.ignore (s : InputState) (m : WhistClientMessage) : InputState :=
  { s with log := s.log ++ [.ignored m] }

def resetInput (s : InputState) : InputState := { s with lastInputFcmsgId := 0, log := [] }

def tryGetNextMessageUdp (s : InputState) (packet : WhistPacket) :
    Option WhistClientMessage × InputState :=
  if packet.payloadSize < 0 ∨ S.wcmsg < packet.payloadSize then (.none,s.ignore packet.message)
  else if packet.payloadSize ≠ getWcmsgSize S packet.message then (.none,s.ignore packet.message)
  else if packet.message.type.isKeyboard then
    -- The source then assigns `packet->id = last_input_id`, and not the other way round.
    if packet.id > s.lastInputId then (some packet.message,s) else (.none,s.ignore packet.message)
  else (some packet.message,s)

/-- The filter of `replay_user_input` and of `update_keyboard_state`. -/
def filterInput (s : InputState) (m : WhistClientMessage) : InputState :=
  if m.id ≤ s.lastInputFcmsgId then s.ignore m
  else { s with lastInputFcmsgId := m.id, log := s.log ++ [.handled m] }

def replayUserInput (s : InputState) (m : WhistClientMessage) : InputState := filterInput s m

def updateKeyboardState (s : InputState) (m : WhistClientMessage) : InputState := filterInput s m

def handleClientMessage (s : InputState) (m : WhistClientMessage) : InputState :=
  if m.type.isUserInput then replayUserInput s m
  else if m.type = .keyboardState then updateKeyboardState s m
  else s

def getWhistUdpClientMessages (s : InputState) (packet : WhistPacket) : InputState :=
  match tryGetNextMessageUdp S s packet with
  | (some m,s) => handleClientMessage s m
  | (.none,s) => s

def serve (s : InputState) (packets : List WhistPacket) : InputState :=
  packets.foldl (getWhistUdpClientMessages S) s

def serveConnection (earlier packets : List WhistPacket) : InputState :=
  serve S (resetInput (serve S {} earlier)) packets

def handledIds (log : List InputEvent) : List ℕ :=
  log.filterMap fun e => match e with
    | .handled m => some m.id
    | .ignored _ => .none

/-- A packet as `send_wcmsg` makes it. -/
structure Sent (packet : WhistPacket) : Prop where
  id : 0 < packet.id
  size : packet.payloadSize = getWcmsgSize S packet.message
  nonneg : 0 ≤ packet.payloadSize
  fits : packet.payloadSize ≤ S.wcmsg

variable {S}

theorem sent_sendWcmsg {c : SendState} {call : SendCall} {packet : WhistPacket}
    (h : (sendWcmsg S c call).1 = some packet) : Sent S packet := by
  unfold sendWcmsg at h
  dsimp only at h
  split_ifs at h with hconn htcp hmax
  obtain rfl := Option.some.inj h
  simp only [Bool.or_eq_true, decide_eq_true_eq, not_or, not_lt] at htcp
  exact ⟨by positivity,rfl,htcp.1.2,htcp.2⟩

theorem sent_sendAll {c : SendState} {calls : List SendCall} {packet : WhistPacket}
    (h : packet ∈ sendAll S c calls) : Sent S packet := by
  induction calls generalizing c with
  | nil => cases h
  | cons call calls ih =>
    rcases List.mem_append.mp h with h | h
    · exact sent_sendWcmsg (Option.mem_toList.mp h)
    · exact ih h

/-- The message had arrived too late: a handled message has an id as large. -/
def Late (log : List InputEvent) (m : WhistClientMessage) : Prop :=
  m.id = 0 ∨ ∃ m', .handled m' ∈ log ∧ m.id ≤ m'.id

structure Ordered (s : InputState) : Prop where
  unassigned : s.lastInputId = -1
  handled : ∀ m, .handled m ∈ s.log → m.id ≤ s.lastInputFcmsgId
  last : s.lastInputFcmsgId = 0 ∨ ∃ m, .handled m ∈ s.log ∧ m.id = s.lastInputFcmsgId
  increasing : (handledIds s.log).Pairwise (· < ·)
  late : ∀ pre m post, s.log = pre ++ .ignored m :: post → Late pre m

theorem mem_handledIds {log : List InputEvent} {i : ℕ} :
    i ∈ handledIds log ↔ ∃ m, .handled m ∈ log ∧ m.id = i := by
  simp only [handledIds, List.mem_filterMap]
  constructor
  · rintro ⟨(m | m),hm,h⟩
    · exact ⟨m,hm,Option.some.inj h⟩
    · cases h
  · rintro ⟨m,hm,rfl⟩
    exact ⟨_,hm,rfl⟩

@[simp] theorem handledIds_handled (log : List InputEvent) (m : WhistClientMessage) :
    handledIds (log ++ [.handled m]) = handledIds log ++ [m.id] := by
  simp [handledIds]

@[simp] theorem handledIds_ignored (log : List InputEvent) (m : WhistClientMessage) :
    handledIds (log ++ [.ignored m]) = handledIds log := by
  simp [handledIds]

theorem late_append {log : List InputEvent} {e : InputEvent}
    (h : ∀ pre m post, log = pre ++ .ignored m :: post → Late pre m)
    (he : ∀ m, e = .ignored m → Late log m) :
    ∀ pre m post, log ++ [e] = pre ++ .ignored m :: post → Late pre m := by
  intro pre m post heq
  rcases List.eq_nil_or_concat post with rfl | ⟨post,e',rfl⟩
  · obtain ⟨rfl,hlast⟩ := List.append_inj' heq rfl
    exact he m (List.cons.inj hlast).1
  · rw [List.concat_eq_append, ← List.cons_append, ← List.append_assoc] at heq
    obtain ⟨rfl,-⟩ := List.append_inj' heq rfl
    exact h pre m post rfl

theorem Ordered.filterInput {s : InputState} (h : Ordered s) (m : WhistClientMessage) :
    Ordered (filterInput s m) := by
  unfold Input.filterInput
  split_ifs with hm
  · refine ⟨h.unassigned,?_,?_,by simpa [InputState.ignore] using h.increasing,late_append h.late ?_⟩
    · intro m' hm'
      exact h.handled m' (by simpa [InputState.ignore] using hm')
    · exact h.last.imp_right fun ⟨m',hm',hid⟩ => ⟨m',List.mem_append_left _ hm',hid⟩
    · rintro _ ⟨rfl⟩
      rcases h.last with hzero | ⟨m',hm',hid⟩
      · exact .inl (by omega)
      · exact .inr ⟨m',hm',by omega⟩
  · have hlt : s.lastInputFcmsgId < m.id := not_le.mp hm
    refine ⟨h.unassigned,?_,?_,?_,late_append h.late (by simp)⟩
    · intro m' hm'
      rcases List.mem_append.mp hm' with hm' | hm'
      · exact (h.handled m' hm').trans hlt.le
      · simp only [List.mem_singleton, InputEvent.handled.injEq] at hm'
        rw [hm']
    · exact .inr ⟨m,by simp,rfl⟩
    · rw [handledIds_handled, List.pairwise_append]
      refine ⟨h.increasing,List.pairwise_singleton _ _,?_⟩
      intro i hi j hj
      obtain ⟨m',hm',rfl⟩ := mem_handledIds.mp hi
      rw [List.mem_singleton.mp hj]
      exact (h.handled m' hm').trans_lt hlt

theorem Ordered.handleClientMessage {s : InputState} (h : Ordered s) (m : WhistClientMessage) :
    Ordered (handleClientMessage s m) := by
  unfold Input.handleClientMessage
  split_ifs
  · exact h.filterInput m
  · exact h.filterInput m
  · exact h

theorem tryGetNextMessageUdp_of_sent {s : InputState} {packet : WhistPacket} (h : Sent S packet)
    (hs : s.lastInputId = -1) : tryGetNextMessageUdp S s packet = (some packet.message,s) := by
  have hid : packet.id > s.lastInputId := by
    rw [hs]
    exact lt_trans (by decide) h.id
  unfold tryGetNextMessageUdp
  rw [if_neg (by simp [h.nonneg, h.fits]), if_neg (not_not.mpr h.size)]
  simp only [hid, if_true, ite_self]

theorem Ordered.getWhistUdpClientMessages {s : InputState} (h : Ordered s) {packet : WhistPacket}
    (hp : Sent S packet) : Ordered (getWhistUdpClientMessages S s packet) := by
  unfold Input.getWhistUdpClientMessages
  rw [tryGetNextMessageUdp_of_sent hp h.unassigned]
  exact h.handleClientMessage packet.message

theorem Ordered.serve {s : InputState} (h : Ordered s) {packets : List WhistPacket}
    (hp : ∀ packet ∈ packets, Sent S packet) : Ordered (serve S s packets) := by
  induction packets generalizing s with
  | nil => exact h
  | cons packet packets ih =>
    exact ih (h.getWhistUdpClientMessages (hp packet (by simp)))
      (fun p hm => hp p (List.mem_cons_of_mem _ hm))

theorem getWhistUdpClientMessages_lastInputId (s : InputState) (packet : WhistPacket) :
    (getWhistUdpClientMessages S s packet).lastInputId = s.lastInputId := by
  have hfilter : ∀ (s : InputState) m, (filterInput s m).lastInputId = s.lastInputId := by
    intro s m
    unfold filterInput
    split_ifs <;> rfl
  have hhandle : ∀ (s : InputState) m, (handleClientMessage s m).lastInputId = s.lastInputId := by
    intro s m
    unfold handleClientMessage
    split_ifs
    · exact hfilter s m
    · exact hfilter s m
    · rfl
  unfold getWhistUdpClientMessages tryGetNextMessageUdp
  split_ifs <;> first | rfl | exact hhandle s _

theorem serve_lastInputId (s : InputState) (packets : List WhistPacket) :
    (serve S s packets).lastInputId = s.lastInputId := by
  induction packets generalizing s with
  | nil => rfl
  | cons packet packets ih => exact (ih _).trans (getWhistUdpClientMessages_lastInputId s packet)

theorem Ordered.resetInput {s : InputState} (h : s.lastInputId = -1) : Ordered (resetInput s) where
  unassigned := h
  handled := fun m hm => by cases hm
  last := .inl rfl
  increasing := List.Pairwise.nil
  late := fun pre m post h => by simp [Input.resetInput] at h

/-- Whatever arrives of what the client sent, in whatever order and however often: the
messages handled have increasing ids, and one is ignored only when it is late. -/
theorem input_in_order (S : Sizes) (c : SendState) (calls : List SendCall) (earlier : List WhistPacket)
    (arrivals : List ℕ) :
    (handledIds (serveConnection S earlier
      (arrivals.filterMap fun i => (sendAll S c calls)[i]?)).log).Pairwise (· < ·) ∧
    ∀ pre m post, (serveConnection S earlier
      (arrivals.filterMap fun i => (sendAll S c calls)[i]?)).log = pre ++ .ignored m :: post →
        Late pre m := by
  have hstart : Ordered (resetInput (serve S {} earlier)) := .resetInput (serve_lastInputId {} earlier)
  have hsent : ∀ packet ∈ arrivals.filterMap fun i => (sendAll S c calls)[i]?, Sent S packet := by
    intro packet hp
    obtain ⟨i,-,hi⟩ := List.mem_filterMap.mp hp
    exact sent_sendAll (List.mem_of_getElem? hi)
  have h := hstart.serve hsent
  exact ⟨h.increasing,h.late⟩

def keySizes : Sizes := ⟨400,1500,by decide⟩

def keyUpThenMotion : List SendCall := [⟨.keyboard,0,true⟩,⟨.mouseMotion,0,true⟩]

/-- The two packets are swapped: the key is never released, though no keyboard message with a
newer id was handled. -/
theorem keyUp_ignored :
    ¬∀ pre m post, (serveConnection keySizes []
      ([1,0].filterMap fun i => (sendAll keySizes ⟨5,0⟩ keyUpThenMotion)[i]?)).log =
        pre ++ .ignored m :: post → m.type.isKeyboard = true →
          ∃ m', .handled m' ∈ pre ∧ m'.type.isKeyboard = true ∧ m.id < m'.id := by
  intro h
  have hlog : (serveConnection keySizes []
      ([1,0].filterMap fun i => (sendAll keySizes ⟨5,0⟩ keyUpThenMotion)[i]?)).log =
      [.handled ⟨.mouseMotion,6,0⟩] ++ .ignored ⟨.keyboard,5,0⟩ :: [] := by decide
  obtain ⟨m',hm',hkey,-⟩ := h _ _ _ hlog rfl
  rw [List.mem_singleton, InputEvent.handled.injEq] at hm'
  rw [hm'] at hkey
  cases hkey

end Whist.Input
