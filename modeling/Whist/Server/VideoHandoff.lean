import Whist.Foundation.Run
import Whist.Foundation.Slots

/-! # Handing the composed frames to the sending thread

The video loop composes a frame in one of two buffers while `multithreaded_send_video_packets` may be sending the
other; a pair of semaphores hands it over.  A read, a write or a semaphore operation is one step.
-/
namespace Whist.Server

abbrev FrameBuffer := ℕ → UInt8

/-- Where the video loop is with the frame of an index: it writes the frame, it may still write the
length of an empty one, and it publishes the identifier, the index and the frame. -/
inductive ComposerPc where
  | idle
  | compose (id : ℤ) (empty : Bool) (frame : Fin 2)
  | resize (id : ℤ) (frame : Fin 2)
  | setFrameId (id : ℤ) (frame : Fin 2)
  | flip (frame : Fin 2)
  | post (frame : Fin 2)
deriving DecidableEq

/-- Where the sending thread is.  It has a frame, and sends it if it has got the client lock. -/
inductive SenderPc where
  | poll
  | wait
  | pick
  | send (frame : Fin 2) (locked : Bool)
deriving DecidableEq

/-- The two threads, the frames that were composed and those that were consumed, each with its
identifier, and what the sending thread has read of them, by the number of the frame. -/
structure VideoHandoff where
  producer : ℕ
  consumer : ℕ
  encodedFrameBuf : Fin 2 → FrameBuffer
  sendFrameId : ℤ
  currentlySendingIndex : Fin 2
  composer : ComposerPc
  sender : SenderPc
  packetSent : Bool
  composed : List (ℤ × FrameBuffer)
  consumed : List (ℤ × FrameBuffer)
  sentIds : List (ℕ × ℤ)
  sentBytes : List (ℕ × ℕ × UInt8)

inductive HandoffMove where
  | begin (id : ℤ) (empty : Bool)
  | write (offset : ℕ) (byte : UInt8)
  | composer
  | sender (ok : Bool)
  | readId
  | readByte (offset : ℕ)

namespace VideoHandoff

def writeByte (s : VideoHandoff) (frame : Fin 2) (offset : ℕ) (byte : UInt8) : VideoHandoff :=
  { s with
    encodedFrameBuf := Function.update s.encodedFrameBuf frame
      (Function.update (s.encodedFrameBuf frame) offset byte) }

def composerAt (s : VideoHandoff) : ComposerPc → Except String VideoHandoff
  | .idle => .error "no frame"
  | .compose id empty frame =>
    if s.consumer = 0 then .error "waiting"
    else
      .ok { s with
        consumer := s.consumer - 1
        composer := if empty then .resize id frame else .setFrameId id frame }
  | .resize id frame => .ok { s with composer := .setFrameId id frame }
  | .setFrameId id frame =>
    .ok { s with
      sendFrameId := id
      composer := .flip frame
      composed := s.composed ++ [(id,s.encodedFrameBuf frame)] }
  | .flip frame =>
    .ok { s with currentlySendingIndex := 1 - s.currentlySendingIndex, composer := .post frame }
  | .post _ => .ok { s with producer := s.producer + 1, composer := .idle }

/-- The next step of the sending thread, with the result of the call that it makes: whether it gets the lock, or
whether the packet was sent. -/
def senderAt (s : VideoHandoff) (ok : Bool) : SenderPc → Except String VideoHandoff
  | .poll => if s.producer = 0 ∧ s.packetSent then .ok s else .ok { s with sender := .wait }
  | .wait =>
    if s.producer = 0 then .error "waiting"
    else .ok { s with producer := s.producer - 1, sender := .pick }
  | .pick =>
    .ok { s with
      sender := .send s.currentlySendingIndex ok
      consumed := s.consumed ++ [(s.sendFrameId,s.encodedFrameBuf s.currentlySendingIndex)] }
  | .send _ locked =>
    .ok { s with
      consumer := s.consumer + 1
      sender := .poll
      packetSent := if locked then ok else s.packetSent }

def step (s : VideoHandoff) : HandoffMove → Except String VideoHandoff
  | .begin id empty =>
    match s.composer with
    | .idle => .ok { s with composer := .compose id empty (1 - s.currentlySendingIndex) }
    | _ => .error "busy"
  | .write offset byte =>
    match s.composer with
    | .compose _ _ frame => .ok (s.writeByte frame offset byte)
    | .resize _ frame => .ok (s.writeByte frame offset byte)
    | _ => .error "no frame"
  | .composer => s.composerAt s.composer
  | .sender ok => s.senderAt ok s.sender
  | .readId =>
    match s.sender with
    | .send _ true => .ok { s with sentIds := s.sentIds ++ [(s.consumed.length - 1,s.sendFrameId)] }
    | _ => .error "no frame"
  | .readByte offset =>
    match s.sender with
    | .send frame true =>
      .ok { s with
        sentBytes := s.sentBytes ++ [(s.consumed.length - 1,offset,s.encodedFrameBuf frame offset)] }
    | _ => .error "no frame"

/-- The two semaphores make a queue of size one. -/
def start (encodedFrameBuf : Fin 2 → FrameBuffer) (sendFrameId : ℤ) (currentlySendingIndex : Fin 2) :
    VideoHandoff where
  producer := 0
  consumer := 1
  encodedFrameBuf := encodedFrameBuf
  sendFrameId := sendFrameId
  currentlySendingIndex := currentlySendingIndex
  composer := .idle
  sender := .poll
  packetSent := false
  composed := []
  consumed := []
  sentIds := []
  sentBytes := []

def writing : ComposerPc → Option (Fin 2)
  | .compose _ _ frame => some frame
  | .resize _ frame => some frame
  | _ => none

def sending : SenderPc → Option (Fin 2)
  | .send frame _ => some frame
  | _ => none

def publishing : ComposerPc → Bool
  | .flip _ => true
  | .post _ => true
  | _ => false

def owning : ComposerPc → Bool
  | .idle => false
  | .compose _ _ _ => false
  | _ => true

def holding : SenderPc → Bool
  | .poll => false
  | .wait => false
  | _ => true

/-- The frames are consumed once and in order, each with its own identifier and with the bytes that
were composed; none is left when the sending thread has nothing to do; and the frame that is being
sent is not written. -/
structure HandedOver (s : VideoHandoff) : Prop where
  inOrder : s.consumed <+: s.composed
  noneLeft : s.producer = 0 → holding s.sender = false → publishing s.composer = false →
    s.consumed = s.composed
  ids : ∀ x ∈ s.sentIds, ∃ frame, s.composed[x.1]? = some frame ∧ x.2 = frame.1
  bytes : ∀ x ∈ s.sentBytes, ∃ frame, s.composed[x.1]? = some frame ∧ x.2.2 = frame.2 x.2.1
  exclusive : ∀ frame, sending s.sender = some frame → writing s.composer ≠ some frame

def pending (s : VideoHandoff) : List (ℤ × FrameBuffer) :=
  match s.composer with
  | .flip frame => [(s.sendFrameId,s.encodedFrameBuf frame)]
  | .post _ => [(s.sendFrameId,s.encodedFrameBuf s.currentlySendingIndex)]
  | _ =>
    if 0 < s.producer ∨ s.sender = .pick then [(s.sendFrameId,s.encodedFrameBuf s.currentlySendingIndex)]
    else []

def placed (csi : Fin 2) : ComposerPc → Prop
  | .idle => True
  | .compose _ _ frame => frame = 1 - csi
  | .resize _ frame => frame = 1 - csi
  | .setFrameId _ frame => frame = 1 - csi
  | .flip frame => frame = 1 - csi
  | .post frame => frame = csi

structure Inv (s : VideoHandoff) : Prop where
  token : s.producer + s.consumer + (owning s.composer).toNat + (holding s.sender).toNat = 1
  placed : placed s.currentlySendingIndex s.composer
  pending : s.composed = s.consumed ++ s.pending
  sending : ∀ frame, sending s.sender = some frame → frame = s.currentlySendingIndex ∧
    s.consumed.getLast? = some (s.sendFrameId,s.encodedFrameBuf frame)
  ids : ∀ x ∈ s.sentIds, ∃ frame, s.consumed[x.1]? = some frame ∧ x.2 = frame.1
  bytes : ∀ x ∈ s.sentBytes, ∃ frame, s.consumed[x.1]? = some frame ∧ x.2.2 = frame.2 x.2.1

variable {s t : VideoHandoff}

theorem other_ne (i : Fin 2) : 1 - i ≠ i := by
  revert i
  decide

theorem Inv.handedOver (h : s.Inv) : s.HandedOver where
  inOrder := ⟨_,h.pending.symm⟩
  noneLeft := by
    intro hproducer hholding hpublishing
    have hnone : s.pending = [] := by
      unfold VideoHandoff.pending
      split
      case h_1 hpc => simp [hpc, publishing] at hpublishing
      case h_2 hpc => simp [hpc, publishing] at hpublishing
      case h_3 =>
        rw [if_neg]
        rintro (hpos | hpick)
        · omega
        · rw [hpick] at hholding
          cases hholding
    rw [h.pending, hnone, List.append_nil]
  ids := by
    intro x hx
    obtain ⟨frame,hframe,hid⟩ := h.ids x hx
    exact ⟨frame,h.pending ▸ (List.getElem?_append_left (List.getElem?_eq_some_iff.mp hframe).1).trans hframe,hid⟩
  bytes := by
    intro x hx
    obtain ⟨frame,hframe,hbyte⟩ := h.bytes x hx
    exact ⟨frame,h.pending ▸ (List.getElem?_append_left (List.getElem?_eq_some_iff.mp hframe).1).trans hframe,hbyte⟩
  exclusive := by
    intro frame hframe hwriting
    obtain ⟨rfl,-⟩ := h.sending frame hframe
    have hplaced := h.placed
    cases hpc : s.composer <;> rw [hpc] at hwriting hplaced <;> cases hwriting
    · exact other_ne _ hplaced.symm
    · exact other_ne _ hplaced.symm

theorem start_inv (encodedFrameBuf : Fin 2 → FrameBuffer) (sendFrameId : ℤ) (currentlySendingIndex : Fin 2) :
    (start encodedFrameBuf sendFrameId currentlySendingIndex).Inv where
  token := rfl
  placed := trivial
  pending := rfl
  sending := fun frame h => by cases h
  ids := fun x hx => absurd hx List.not_mem_nil
  bytes := fun x hx => absurd hx List.not_mem_nil

theorem pending_of_not_publishing (h : publishing s.composer = false) :
    s.pending = if 0 < s.producer ∨ s.sender = .pick then
      [(s.sendFrameId,s.encodedFrameBuf s.currentlySendingIndex)] else [] := by
  unfold VideoHandoff.pending
  split
  case h_1 hpc => simp [hpc, publishing] at h
  case h_2 hpc => simp [hpc, publishing] at h
  case h_3 => rfl

theorem pending_of_ready (h : publishing s.composer = false) (hready : 0 < s.producer ∨ s.sender = .pick) :
    s.pending = [(s.sendFrameId,s.encodedFrameBuf s.currentlySendingIndex)] := by
  rw [pending_of_not_publishing h, if_pos hready]

theorem not_sending (h : holding s.sender = false) (frame : Fin 2) : sending s.sender ≠ some frame := by
  cases hpc : s.sender <;> rw [hpc] at h
  case send => cases h
  all_goals nofun

theorem not_pick (h : holding s.sender = false) : s.sender ≠ .pick := by
  intro hpc
  rw [hpc] at h
  cases h

theorem Inv.alone (h : s.Inv) (howning : owning s.composer = true) :
    holding s.sender = false ∧ s.producer = 0 := by
  have htoken := h.token
  rw [howning, Bool.toNat_true] at htoken
  cases hholding : holding s.sender
  · exact ⟨rfl,by omega⟩
  · rw [hholding, Bool.toNat_true] at htoken
    omega

theorem Inv.unowned (h : s.Inv) (hready : 0 < s.producer ∨ holding s.sender = true) :
    owning s.composer = false ∧ publishing s.composer = false := by
  have howning : owning s.composer = false := by
    cases howning : owning s.composer
    · rfl
    · obtain ⟨hholding,hproducer⟩ := h.alone howning
      rcases hready with hready | hready
      · omega
      · rw [hholding] at hready
        cases hready
  refine ⟨howning,?_⟩
  cases hpc : s.composer <;> rw [hpc] at howning <;> first | rfl | cases howning

theorem pending_nil (hpublishing : publishing s.composer = false) (hpick : s.sender ≠ .pick)
    (hproducer : s.producer = 0) : s.pending = [] := by
  rw [pending_of_not_publishing hpublishing, if_neg]
  rintro (hpos | hsender)
  · omega
  · exact hpick hsender

theorem composed_of_nil (h : s.composed = s.consumed) (hpublishing : publishing s.composer = false)
    (hpick : s.sender ≠ .pick) (hproducer : s.producer = 0) : s.composed = s.consumed ++ s.pending := by
  rw [pending_nil hpublishing hpick hproducer, List.append_nil]
  exact h

theorem Inv.writeByte (h : s.Inv) {frame : Fin 2} (hwriting : writing s.composer = some frame) (offset : ℕ)
    (byte : UInt8) : (s.writeByte frame offset byte).Inv := by
  have hframe : frame = 1 - s.currentlySendingIndex := by
    have hplaced := h.placed
    cases hpc : s.composer <;> rw [hpc] at hwriting hplaced <;> cases hwriting <;> exact hplaced
  have hbuf : (s.writeByte frame offset byte).encodedFrameBuf s.currentlySendingIndex =
      s.encodedFrameBuf s.currentlySendingIndex := by
    refine Function.update_of_ne ?_ _ _
    rw [hframe]
    exact (other_ne _).symm
  have hpublishing : publishing s.composer = false := by
    cases hpc : s.composer <;> rw [hpc] at hwriting <;> cases hwriting <;> rfl
  refine ⟨h.token,h.placed,?_,?_,h.ids,h.bytes⟩
  · have hpending := h.pending
    rw [pending_of_not_publishing hpublishing] at hpending
    rw [pending_of_not_publishing (s := s.writeByte frame offset byte) hpublishing]
    change s.composed = s.consumed ++ if 0 < s.producer ∨ s.sender = .pick then
      [(s.sendFrameId,(s.writeByte frame offset byte).encodedFrameBuf s.currentlySendingIndex)] else []
    rw [hbuf]
    exact hpending
  · intro i hi
    obtain ⟨rfl,hlast⟩ := h.sending i hi
    refine ⟨rfl,?_⟩
    rw [hbuf]
    exact hlast

theorem composer_inv (h : s.Inv) (hstep : s.composerAt s.composer = .ok t) : t.Inv := by
  have htoken := h.token
  have hplaced := h.placed
  cases hpc : s.composer <;> rw [hpc] at hstep htoken hplaced <;> dsimp only [composerAt] at hstep
  case idle => cases hstep
  case compose id empty frame =>
    by_cases hconsumer : s.consumer = 0
    · rw [if_pos hconsumer] at hstep
      cases hstep
    rw [if_neg hconsumer] at hstep
    simp only [owning, Bool.toNat_false] at htoken
    have hproducer : s.producer = 0 := by omega
    have hholding : holding s.sender = false := by
      cases hsender : holding s.sender
      · rfl
      · rw [hsender, Bool.toNat_true] at htoken
        omega
    have hpending : s.composed = s.consumed := by
      rw [h.pending, pending_nil (by rw [hpc]; rfl) (not_pick hholding) hproducer, List.append_nil]
    have hnext : ∀ pc, owning pc = true → publishing pc = false → VideoHandoff.placed s.currentlySendingIndex pc →
        Inv { s with consumer := s.consumer - 1, composer := pc } := by
      intro pc howning hpublishing hnext
      refine ⟨?_,hnext,?_,h.sending,h.ids,h.bytes⟩
      · rw [hholding, Bool.toNat_false] at htoken
        rw [howning, hholding, Bool.toNat_true, Bool.toNat_false]
        dsimp only
        omega
      · exact composed_of_nil hpending hpublishing (not_pick hholding) hproducer
    cases hstep
    cases empty
    · exact hnext (.setFrameId id frame) rfl rfl hplaced
    · exact hnext (.resize id frame) rfl rfl hplaced
  case resize id frame =>
    cases hstep
    refine ⟨htoken,hplaced,?_,h.sending,h.ids,h.bytes⟩
    rw [h.pending, pending_of_not_publishing (by rw [hpc]; rfl), pending_of_not_publishing rfl]
  case setFrameId id frame =>
    cases hstep
    obtain ⟨hholding,hproducer⟩ := h.alone (by rw [hpc]; rfl)
    have hpending : s.composed = s.consumed := by
      rw [h.pending, pending_nil (by rw [hpc]; rfl) (not_pick hholding) hproducer, List.append_nil]
    refine ⟨htoken,hplaced,?_,fun i hi => absurd hi (not_sending hholding i),h.ids,h.bytes⟩
    change s.composed ++ _ = s.consumed ++ _
    rw [hpending]
    rfl
  case flip frame =>
    cases hstep
    obtain ⟨hholding,-⟩ := h.alone (by rw [hpc]; rfl)
    refine ⟨htoken,hplaced,?_,fun i hi => absurd hi (not_sending hholding i),h.ids,h.bytes⟩
    rw [h.pending]
    unfold VideoHandoff.pending
    rw [hpc, show frame = 1 - s.currentlySendingIndex from hplaced]
  case post frame =>
    cases hstep
    simp only [owning, Bool.toNat_true] at htoken
    refine ⟨?_,trivial,?_,h.sending,h.ids,h.bytes⟩
    · simp only [owning, Bool.toNat_false]
      omega
    · rw [h.pending]
      unfold VideoHandoff.pending
      rw [hpc]
      dsimp only
      rw [if_pos (Or.inl (Nat.succ_pos _))]

theorem sender_inv (h : s.Inv) {ok : Bool} (hstep : s.senderAt ok s.sender = .ok t) : t.Inv := by
  have htoken := h.token
  cases hpc : s.sender <;> rw [hpc] at hstep htoken <;> dsimp only [senderAt] at hstep
  case poll =>
    split_ifs at hstep
    · cases hstep
      exact h
    · cases hstep
      refine ⟨htoken,h.placed,?_,(fun i hi => by cases hi),h.ids,h.bytes⟩
      rw [h.pending]
      unfold VideoHandoff.pending
      rw [hpc]
      simp
  case wait =>
    split_ifs at hstep with hproducer
    cases hstep
    obtain ⟨howning,hpublishing⟩ := h.unowned (Or.inl (Nat.pos_iff_ne_zero.mpr hproducer))
    refine ⟨?_,h.placed,?_,(fun i hi => by cases hi),h.ids,h.bytes⟩
    · rw [howning] at htoken ⊢
      simp only [holding, Bool.toNat_true, Bool.toNat_false] at htoken ⊢
      omega
    · have hpending := h.pending
      rw [pending_of_ready hpublishing (Or.inl (Nat.pos_iff_ne_zero.mpr hproducer))] at hpending
      refine hpending.trans (congrArg (s.consumed ++ ·) ?_)
      exact (pending_of_ready (s := { s with producer := s.producer - 1, sender := .pick }) hpublishing
        (Or.inr rfl)).symm
  case pick =>
    cases hstep
    obtain ⟨howning,hpublishing⟩ := h.unowned (Or.inr (by rw [hpc]; rfl))
    have hpending := h.pending
    rw [pending_of_ready hpublishing (Or.inr hpc)] at hpending
    have hproducer : s.producer = 0 := by
      simp only [holding, Bool.toNat_true] at htoken
      omega
    have hold : ∀ (k : ℕ) (frame : ℤ × FrameBuffer), s.consumed[k]? = some frame →
        (s.consumed ++ [(s.sendFrameId,s.encodedFrameBuf s.currentlySendingIndex)])[k]? = some frame :=
      fun k frame hk => Slots.concat_old hk _
    refine ⟨htoken,h.placed,?_,?_,?_,?_⟩
    · exact composed_of_nil hpending hpublishing (by simp) hproducer
    · rintro i ⟨⟩
      exact ⟨rfl,List.getLast?_concat⟩
    · exact fun x hx => (h.ids x hx).imp fun frame hframe => ⟨hold _ _ hframe.1,hframe.2⟩
    · exact fun x hx => (h.bytes x hx).imp fun frame hframe => ⟨hold _ _ hframe.1,hframe.2⟩
  case send frame locked =>
    cases hstep
    simp only [holding, Bool.toNat_true] at htoken
    refine ⟨?_,h.placed,?_,(fun i hi => by cases hi),h.ids,h.bytes⟩
    · simp only [holding, Bool.toNat_false]
      omega
    · rw [h.pending]
      unfold VideoHandoff.pending
      rw [hpc]
      simp

theorem Inv.sent (h : s.Inv) {frame : Fin 2} (hsending : VideoHandoff.sending s.sender = some frame) :
    s.consumed[s.consumed.length - 1]? = some (s.sendFrameId,s.encodedFrameBuf frame) := by
  obtain ⟨-,hlast⟩ := h.sending frame hsending
  rwa [List.getLast?_eq_getElem?] at hlast

theorem step_inv (mv : HandoffMove) (h : s.Inv) (hstep : s.step mv = .ok t) : t.Inv := by
  cases mv with
  | begin id empty =>
    dsimp only [step] at hstep
    split at hstep
    case h_1 hpc =>
      cases hstep
      have htoken := h.token
      rw [hpc] at htoken
      refine ⟨htoken,rfl,?_,h.sending,h.ids,h.bytes⟩
      rw [h.pending, pending_of_not_publishing (by rw [hpc]; rfl), pending_of_not_publishing rfl]
    case h_2 => cases hstep
  | write offset byte =>
    dsimp only [step] at hstep
    split at hstep
    case h_1 id empty frame hpc =>
      cases hstep
      exact h.writeByte (by rw [hpc]; rfl) offset byte
    case h_2 id frame hpc =>
      cases hstep
      exact h.writeByte (by rw [hpc]; rfl) offset byte
    case h_3 => cases hstep
  | composer => exact composer_inv h hstep
  | sender ok => exact sender_inv h hstep
  | readId =>
    dsimp only [step] at hstep
    split at hstep
    case h_2 => cases hstep
    case h_1 frame hpc =>
      cases hstep
      refine ⟨h.token,h.placed,h.pending,h.sending,?_,h.bytes⟩
      intro x hx
      rcases List.mem_append.mp hx with hx | hx
      · exact h.ids x hx
      · obtain rfl := List.mem_singleton.mp hx
        exact ⟨_,h.sent (by rw [hpc]; rfl),rfl⟩
  | readByte offset =>
    dsimp only [step] at hstep
    split at hstep
    case h_2 => cases hstep
    case h_1 frame hpc =>
      cases hstep
      refine ⟨h.token,h.placed,h.pending,h.sending,h.ids,?_⟩
      intro x hx
      rcases List.mem_append.mp hx with hx | hx
      · exact h.bytes x hx
      · obtain rfl := List.mem_singleton.mp hx
        exact ⟨_,h.sent (by rw [hpc]; rfl),rfl⟩

def oneFrame : List HandoffMove :=
  [.begin 2 false,.write 0 7,.composer,.composer,.composer,.composer,.sender false,.sender false,
    .sender true,.readId,.readByte 0,.sender true]

end VideoHandoff

end Whist.Server
