import Whist.Server.VideoLoop

/-! # Which requests the video loop loses -/
namespace Whist.Server
open Whist.Ltr

/-- The handler of dimensions has found a difference and is still to set `update_device`. -/
def MessagePc.writesDimensions : MessagePc → Bool
  | .writeWidth _ | .writeHeight _ | .writeDpi _ | .setUpdateDevice _ => true
  | _ => false

def MessagePc.writesAck : MessagePc → Bool
  | .writeFrameAckId _ | .setUpdateFrameAck => true
  | _ => false

namespace VideoServer

def Fresh (s : VideoServer) : Prop :=
  s.video.trueWidth = s.state.clientDimensions.width ∧ s.video.trueHeight = s.state.clientDimensions.height

def Current (s : VideoServer) : Prop := s.configured = some s.state.clientDimensions

def Passed (s : VideoServer) : Prop :=
  ∀ frameId, s.acks.getLast? = some frameId → s.passed.getLast? = some frameId

def HeedsAt (s : VideoServer) : VideoPc → Prop
  | .clearUpdateDevice => s.messagePc.writesDimensions = true ∨ s.Fresh
  | .clearUpdateFrameAck =>
    s.messagePc.writesAck = true ∨ s.passed.getLast? = some s.state.frameAckId
  | .clearRestart => s.state.streamNeedsRestart = true → s.video.ltr.intraFrameNeeded = true
  | _ => True

def Heeds (s : VideoServer) : Move → Prop
  | .video _ => s.HeedsAt s.video.pc
  | _ => True

instance (s : VideoServer) : Decidable s.Fresh := instDecidableAnd

instance (s : VideoServer) : ∀ pc, Decidable (s.HeedsAt pc) := by
  intro pc
  cases pc <;> (dsimp only [HeedsAt]; infer_instance)

instance (s : VideoServer) : ∀ mv, Decidable (s.Heeds mv)
  | .video _ => inferInstanceAs (Decidable (s.HeedsAt s.video.pc))
  | .receive _ => isTrue trivial
  | .handle => isTrue trivial

/-- `update_device` is set, or about to be. -/
def DimensionsOwed (s : VideoServer) : Prop :=
  s.state.updateDevice = true ∨ s.messagePc.writesDimensions = true

def AckOwed (s : VideoServer) : Prop := s.state.updateFrameAck = true ∨ s.messagePc.writesAck = true

def DimensionsAt (s : VideoServer) : MessagePc → Prop
  | .compareWidth d | .writeWidth d => s.requested = some d
  | .compareHeight d | .writeHeight d =>
    s.requested = some d ∧ s.state.clientDimensions.width = d.width
  | .compareDpi d | .writeDpi d =>
    s.requested = some d ∧ s.state.clientDimensions.width = d.width ∧
      s.state.clientDimensions.height = d.height
  | .setUpdateDevice d => s.requested = some d ∧ s.state.clientDimensions = d
  | _ => ∀ d, s.requested = some d → s.state.clientDimensions = d

def AcksAt (s : VideoServer) : MessagePc → Prop
  | .writeFrameAckId frameId => s.acks.getLast? = some frameId
  | _ => ∀ frameId, s.acks.getLast? = some frameId → s.state.frameAckId = frameId

def DeviceAt (s : VideoServer) : VideoPc → Prop
  | .reconfigureDevice => s.DimensionsOwed ∨ s.Fresh
  | .restartAfterUpdate | .createDevice =>
    s.DimensionsOwed ∨ if s.video.device then s.Current else s.Fresh
  | .createFailed | .captureFailed | .exited => True
  | _ => s.DimensionsOwed ∨ s.video.device = true ∧ s.Current

def RestartAt (s : VideoServer) : VideoPc → Prop
  | .clearRestart | .clearRecovery | .nextAction =>
    s.state.streamNeedsRestart = true ∨ s.video.ltr.intraFrameNeeded = true
  | .encode => s.state.streamNeedsRestart = true ∨ s.video.frameType = .intra
  | .exited => True
  | _ => s.state.streamNeedsRestart = true

def deviceDone : VideoPc → Bool
  | .restartAfterCreate | .readUpdateFrameAck | .markFrameReceived | .clearUpdateFrameAck
  | .pendingStreamReset | .readStopStreaming | .restartForCapture | .captureScreen | .disableEncoder
  | .sendCondition | .transferCapture | .restartOrRecovery | .restartOrBroken | .clearRestart
  | .clearRecovery | .nextAction | .encode => true
  | _ => false

def ackDone : VideoPc → Bool
  | .pendingStreamReset | .readStopStreaming | .restartForCapture | .captureScreen | .disableEncoder
  | .sendCondition | .transferCapture | .restartOrRecovery | .restartOrBroken | .clearRestart
  | .clearRecovery | .nextAction | .encode => true
  | _ => false

def ReadAt (s : VideoServer) : VideoPc → Prop
  | .readHeight => s.video.trueWidth = s.state.clientDimensions.width
  | .readUpdateDevice | .clearUpdateDevice => s.Fresh
  | .reconfigureDevice | .restartAfterUpdate | .createDevice =>
    s.Fresh ∧ s.state.updateDevice = false
  | .sendCondition => s.restartOwed = true → s.video.disableEncoder = false
  | .clearRecovery | .nextAction | .encode => s.state.streamNeedsRestart = false
  | _ => True

/-- What holds while the message thread has made no step since the iteration began. -/
structure Undisturbed (s : VideoServer) : Prop where
  read : s.ReadAt s.video.pc
  device : s.messagePc = .idle → s.iteration = .complete ∨ deviceDone s.video.pc = true → s.Current
  ack : s.messagePc = .idle → s.iteration = .complete ∨ ackDone s.video.pc = true → s.Passed
  restart : s.iteration = .complete → s.restartOwed = false

structure Inv (s : VideoServer) : Prop where
  dimensions : s.DimensionsAt s.messagePc
  acks : s.AcksAt s.messagePc
  device : s.DeviceAt s.video.pc
  ack : s.AckOwed ∨ s.Passed
  restart : s.restartOwed = true → s.RestartAt s.video.pc
  undisturbed : s.iteration ≠ .disturbed → s.Undisturbed

variable {s t : VideoServer} {q : VideoInput}

theorem Inv.nothingLost (h : s.Inv) : s.NothingLost := by
  rintro ⟨hidle,hcomplete,-,-⟩
  obtain ⟨-,hdevice,hack,hrestart⟩ := h.undisturbed (by rw [hcomplete]; exact nofun)
  have hdims := h.dimensions
  rw [hidle] at hdims
  refine ⟨fun d hd => ?_,hack hidle (Or.inl hcomplete),hrestart hcomplete⟩
  rw [hdevice hidle (Or.inl hcomplete), hdims d hd]

theorem initial_inv : Inv {} where
  dimensions := fun _ h => by cases h
  acks := fun _ h => by cases h
  device := Or.inl (Or.inl rfl)
  ack := Or.inr fun _ h => by cases h
  restart := fun h => by cases h
  undisturbed := fun h => absurd rfl h

theorem DeviceAt.mono {u : VideoServer} {pc : VideoPc} (h : s.DeviceAt pc) (hv : u.video = s.video)
    (howed : s.DimensionsOwed → u.DimensionsOwed)
    (hkeeps : u.DimensionsOwed ∨
      u.configured = s.configured ∧ u.state.clientDimensions = s.state.clientDimensions) :
    u.DeviceAt pc := by
  rcases hkeeps with ho | ⟨hc,hd⟩
  · cases pc <;> first | exact Or.inl ho | trivial
  · have hfresh : u.Fresh ↔ s.Fresh := by rw [Fresh, Fresh, hv, hd]
    have hcurrent : u.Current ↔ s.Current := by rw [Current, Current, hc, hd]
    cases pc <;> first
      | trivial
      | exact Or.imp howed hfresh.mpr h
      | (simp only [DeviceAt, hv, hfresh, hcurrent] at h ⊢
         exact Or.imp howed id h)

theorem RestartAt.mono {u : VideoServer} {pc : VideoPc} (h : s.RestartAt pc) (hv : u.video = s.video)
    (hflag : s.state.streamNeedsRestart = true → u.state.streamNeedsRestart = true) :
    u.RestartAt pc := by
  cases pc <;> first
    | trivial
    | exact hflag h
    | (simp only [RestartAt, hv] at h ⊢
       exact Or.imp hflag id h)

theorem Inv.message {u : VideoServer} (h : s.Inv) (hv : u.video = s.video)
    (hdimensions : u.DimensionsAt u.messagePc) (hacks : u.AcksAt u.messagePc)
    (howed : s.DimensionsOwed → u.DimensionsOwed)
    (hkeeps : u.DimensionsOwed ∨
      u.configured = s.configured ∧ u.state.clientDimensions = s.state.clientDimensions)
    (hack : u.AckOwed ∨ u.acks = s.acks ∧ u.passed = s.passed ∧ (s.AckOwed → u.AckOwed))
    (hflag : s.state.streamNeedsRestart = true → u.state.streamNeedsRestart = true)
    (hrestart : u.restartOwed = true → s.restartOwed = true ∨ u.state.streamNeedsRestart = true)
    (hdisturbed : u.iteration = .disturbed) : u.Inv where
  dimensions := hdimensions
  acks := hacks
  device := by
    rw [hv]
    exact h.device.mono hv howed hkeeps
  ack := by
    rcases hack with hack | ⟨ha,hp,howed⟩
    · exact Or.inl hack
    · refine h.ack.imp howed (fun hs => ?_)
      rw [Passed, ha, hp]
      exact hs
  restart := by
    intro hu
    rw [hv]
    rcases hrestart hu with hs | hs
    · exact (h.restart hs).mono hv hflag
    · generalize s.video.pc = pc
      cases pc <;> first | exact hs | exact Or.inl hs | trivial
  undisturbed := fun hu => absurd hdisturbed hu

theorem receive_inv (h : s.Inv) (hidle : s.messagePc = .idle) (m : WhistClientMessage) :
    Inv { s.receive m with iteration := .disturbed } := by
  have hdims := h.dimensions
  have hacks := h.acks
  rw [hidle] at hdims hacks
  have howed : s.DimensionsOwed → s.state.updateDevice = true := by
    rintro (hu | hu)
    · exact hu
    · rw [hidle] at hu
      cases hu
  have hackOwed : s.AckOwed → s.state.updateFrameAck = true := by
    rintro (hu | hu)
    · exact hu
    · rw [hidle] at hu
      cases hu
  cases m with
  | dimensions d =>
    exact h.message rfl rfl hacks (fun hs => Or.inl (howed hs)) (Or.inr ⟨rfl,rfl⟩)
      (Or.inr ⟨rfl,rfl,fun hs => Or.inl (hackOwed hs)⟩) id Or.inl rfl
  | frameAck frameId =>
    exact h.message rfl hdims List.getLast?_concat (fun hs => Or.inl (howed hs)) (Or.inr ⟨rfl,rfl⟩)
      (Or.inl (Or.inr rfl)) id Or.inl rfl
  | stopStreaming =>
    exact h.message rfl hdims hacks (fun hs => Or.inl (howed hs)) (Or.inr ⟨rfl,rfl⟩)
      (Or.inr ⟨rfl,rfl,fun hs => Or.inl (hackOwed hs)⟩) id Or.inl rfl
  | startStreaming =>
    exact h.message rfl hdims hacks (fun hs => Or.inl (howed hs)) (Or.inr ⟨rfl,rfl⟩)
      (Or.inr ⟨rfl,rfl,fun hs => Or.inl (hackOwed hs)⟩) id Or.inl rfl

theorem handle_inv (h : s.Inv) : Inv { s.handle with iteration := .disturbed } := by
  have hdims := h.dimensions
  have hacks := h.acks
  have hflag : ∀ {pc}, s.messagePc = pc → pc.writesDimensions = false → s.DimensionsOwed →
      s.state.updateDevice = true := by
    rintro pc hpc hw (hu | hu)
    · exact hu
    · rw [hpc, hw] at hu
      cases hu
  have hackFlag : ∀ {pc}, s.messagePc = pc → pc.writesAck = false → s.AckOwed →
      s.state.updateFrameAck = true := by
    rintro pc hpc hw (hu | hu)
    · exact hu
    · rw [hpc, hw] at hu
      cases hu
  unfold handle
  cases hpc : s.messagePc <;> rw [hpc] at hdims hacks <;> dsimp only
  case idle =>
    refine h.message rfl ?_ ?_ id (Or.inr ⟨rfl,rfl⟩) (Or.inr ⟨rfl,rfl,id⟩) id Or.inl rfl
    · change s.DimensionsAt s.messagePc
      rwa [hpc]
    · change s.AcksAt s.messagePc
      rwa [hpc]
  case compareWidth d =>
    split_ifs with hne
    · exact h.message rfl hdims hacks (fun _ => Or.inr rfl) (Or.inr ⟨rfl,rfl⟩)
        (Or.inr ⟨rfl,rfl,fun hs => Or.inl (hackFlag hpc rfl hs)⟩) id Or.inl rfl
    · exact h.message rfl ⟨hdims,not_not.mp hne⟩ hacks (fun hs => Or.inl (hflag hpc rfl hs))
        (Or.inr ⟨rfl,rfl⟩) (Or.inr ⟨rfl,rfl,fun hs => Or.inl (hackFlag hpc rfl hs)⟩) id Or.inl rfl
  case compareHeight d =>
    split_ifs with hne
    · exact h.message rfl hdims.1 hacks (fun _ => Or.inr rfl) (Or.inr ⟨rfl,rfl⟩)
        (Or.inr ⟨rfl,rfl,fun hs => Or.inl (hackFlag hpc rfl hs)⟩) id Or.inl rfl
    · exact h.message rfl ⟨hdims.1,hdims.2,not_not.mp hne⟩ hacks (fun hs => Or.inl (hflag hpc rfl hs))
        (Or.inr ⟨rfl,rfl⟩) (Or.inr ⟨rfl,rfl,fun hs => Or.inl (hackFlag hpc rfl hs)⟩) id Or.inl rfl
  case compareDpi d =>
    split_ifs with hne
    · exact h.message rfl hdims.1 hacks (fun _ => Or.inr rfl) (Or.inr ⟨rfl,rfl⟩)
        (Or.inr ⟨rfl,rfl,fun hs => Or.inl (hackFlag hpc rfl hs)⟩) id Or.inl rfl
    · refine h.message rfl ?_ hacks (fun hs => Or.inl (hflag hpc rfl hs))
        (Or.inr ⟨rfl,rfl⟩) (Or.inr ⟨rfl,rfl,fun hs => Or.inl (hackFlag hpc rfl hs)⟩) id Or.inl rfl
      intro d' hd'
      obtain ⟨hreq,hw,hh⟩ := hdims
      obtain rfl : d = d' := Option.some.inj (hreq.symm.trans hd')
      exact Dimensions.ext hw hh (not_not.mp hne)
  case writeWidth d =>
    exact h.message rfl ⟨hdims,rfl⟩ hacks (fun _ => Or.inr rfl) (Or.inl (Or.inr rfl))
      (Or.inr ⟨rfl,rfl,fun hs => Or.inl (hackFlag hpc rfl hs)⟩) id Or.inl rfl
  case writeHeight d =>
    exact h.message rfl ⟨hdims.1,hdims.2,rfl⟩ hacks (fun _ => Or.inr rfl) (Or.inl (Or.inr rfl))
      (Or.inr ⟨rfl,rfl,fun hs => Or.inl (hackFlag hpc rfl hs)⟩) id Or.inl rfl
  case writeDpi d =>
    refine h.message rfl ⟨hdims.1,?_⟩ hacks (fun _ => Or.inr rfl) (Or.inl (Or.inr rfl))
      (Or.inr ⟨rfl,rfl,fun hs => Or.inl (hackFlag hpc rfl hs)⟩) id Or.inl rfl
    obtain ⟨-,hw,hh⟩ := hdims
    change Dimensions.mk s.state.clientDimensions.width s.state.clientDimensions.height d.dpi = d
    rw [hw, hh]
  case setUpdateDevice d =>
    refine h.message rfl ?_ hacks (fun _ => Or.inl rfl) (Or.inl (Or.inl rfl))
      (Or.inr ⟨rfl,rfl,fun hs => Or.inl (hackFlag hpc rfl hs)⟩) id Or.inl rfl
    intro d' hd'
    obtain rfl : d = d' := Option.some.inj (hdims.1.symm.trans hd')
    exact hdims.2
  case writeFrameAckId frameId =>
    refine h.message rfl hdims ?_ (fun hs => Or.inl (hflag hpc rfl hs)) (Or.inr ⟨rfl,rfl⟩)
      (Or.inl (Or.inr rfl)) id Or.inl rfl
    intro a ha
    exact Option.some.inj (hacks.symm.trans ha)
  case setUpdateFrameAck =>
    exact h.message rfl hdims hacks (fun hs => Or.inl (hflag hpc rfl hs)) (Or.inr ⟨rfl,rfl⟩)
      (Or.inl (Or.inl rfl)) id Or.inl rfl
  case readStopStreaming =>
    split_ifs
    · exact h.message rfl hdims hacks (fun hs => Or.inl (hflag hpc rfl hs)) (Or.inr ⟨rfl,rfl⟩)
        (Or.inr ⟨rfl,rfl,fun hs => Or.inl (hackFlag hpc rfl hs)⟩) id Or.inl rfl
    · exact h.message rfl hdims hacks (fun hs => Or.inl (hflag hpc rfl hs)) (Or.inr ⟨rfl,rfl⟩)
        (Or.inr ⟨rfl,rfl,fun hs => Or.inl (hackFlag hpc rfl hs)⟩) id Or.inl rfl
  case setStreamNeedsRestart =>
    exact h.message rfl hdims hacks (fun hs => Or.inl (hflag hpc rfl hs)) (Or.inr ⟨rfl,rfl⟩)
      (Or.inr ⟨rfl,rfl,fun hs => Or.inl (hackFlag hpc rfl hs)⟩) (fun _ => rfl) (fun _ => Or.inr rfl) rfl
  all_goals
    exact h.message rfl hdims hacks (fun hs => Or.inl (hflag hpc rfl hs)) (Or.inr ⟨rfl,rfl⟩)
      (Or.inr ⟨rfl,rfl,fun hs => Or.inl (hackFlag hpc rfl hs)⟩) id Or.inl rfl

theorem handle_video (s : VideoServer) : s.handle.video = s.video := by
  unfold handle
  cases s.messagePc <;> rfl

theorem receive_video (s : VideoServer) (m : WhistClientMessage) : (s.receive m).video = s.video := by
  cases m <;> rfl

structure Frame (s t : VideoServer) : Prop where
  clientDimensions : t.state.clientDimensions = s.state.clientDimensions
  frameAckId : t.state.frameAckId = s.state.frameAckId
  messagePc : t.messagePc = s.messagePc
  requested : t.requested = s.requested
  acks : t.acks = s.acks
  restartOwed : t.restartOwed = true → s.restartOwed = true

theorem markFrameReceived_cases (h : s.stepAt q .markFrameReceived = .ok t) :
    ∃ ltr, t = { s with
      passed := s.passed ++ [s.state.frameAckId]
      video := { s.video with ltr := ltr, pc := .clearUpdateFrameAck } } := by
  dsimp only [stepAt] at h
  cases hm : ltrMarkFrameReceived s.video.ltr s.state.frameAckId with
  | error e =>
    rw [hm] at h
    cases h
  | ok r =>
    rw [hm] at h
    cases h
    exact ⟨_,rfl⟩

theorem restartOrBroken_cases (h : s.stepAt q .restartOrBroken = .ok t) :
    ∃ ltr, t = { s with video := { s.video with ltr := ltr, pc := .clearRestart } } ∧
      (s.state.streamNeedsRestart = true → ltr.intraFrameNeeded = true) := by
  dsimp only [stepAt] at h
  split_ifs at h with hr
  · cases h
    exact ⟨_,rfl,fun _ => rfl⟩
  · cases hm : ltrMarkStreamBroken s.video.ltr with
    | error e =>
      rw [hm] at h
      cases h
    | ok r =>
      rw [hm] at h
      cases h
      exact ⟨_,rfl,fun hr' => absurd hr' hr⟩

theorem Fresh.current (h : s.Fresh) (pc : VideoPc) : (s.configure.goto pc).Current := by
  change some _ = some _
  rw [h.1, h.2]
  rfl

theorem stepAt_frame {pc : VideoPc} (h : s.stepAt q pc = .ok t) : Frame s t := by
  cases pc
  case markFrameReceived =>
    obtain ⟨ltr,rfl⟩ := markFrameReceived_cases h
    exact ⟨rfl,rfl,rfl,rfl,rfl,id⟩
  case restartOrBroken =>
    obtain ⟨ltr,rfl,-⟩ := restartOrBroken_cases h
    exact ⟨rfl,rfl,rfl,rfl,rfl,id⟩
  all_goals dsimp only [stepAt] at h
  case encode =>
    split_ifs at h
    · cases h
      refine ⟨rfl,rfl,rfl,rfl,rfl,fun ho => ?_⟩
      exact (Bool.and_eq_true_iff.mp ho).1
    · cases h
      exact ⟨rfl,rfl,rfl,rfl,rfl,id⟩
  all_goals
    first
    | (cases h; exact ⟨rfl,rfl,rfl,rfl,rfl,id⟩)
    | (split_ifs at h <;> (cases h; exact ⟨rfl,rfl,rfl,rfl,rfl,id⟩))
    | cases h

def callsLtr : VideoPc → Bool
  | .markFrameReceived | .restartOrBroken | .nextAction => true
  | _ => false

theorem stepAt_ltr {pc : VideoPc} (h : s.stepAt q pc = .ok t)
    (hpc : callsLtr pc = false) : t.video.ltr = s.video.ltr ∧ t.video.pc ≠ .encode := by
  cases pc <;> first | exact absurd hpc (by decide) | dsimp only [stepAt] at h
  all_goals
    first
    | (cases h; exact ⟨rfl,fun he => by cases he⟩)
    | (split_ifs at h <;> (cases h; exact ⟨rfl,fun he => by cases he⟩))
    | cases h

/-- The device is up to date or to be updated, wherever the loop goes. -/
theorem stepAt_device {pc : VideoPc} (h : s.stepAt q pc = .ok t) (hdevice : s.DeviceAt pc)
    (hheeds : s.HeedsAt pc) : t.DeviceAt t.video.pc := by
  cases pc
  case markFrameReceived =>
    obtain ⟨ltr,rfl⟩ := markFrameReceived_cases h
    exact hdevice
  case restartOrBroken =>
    obtain ⟨ltr,rfl,-⟩ := restartOrBroken_cases h
    exact hdevice
  all_goals dsimp only [stepAt] at h
  case readUpdateDevice =>
    cases h
    by_cases hu : s.state.updateDevice
    · rw [goto, if_pos hu]
      exact hdevice
    · rw [goto, if_neg hu]
      refine hdevice.imp id (fun hd => ?_)
      change if s.video.device then s.Current else s.Fresh
      rw [if_pos hd.1]
      exact hd.2
  case clearUpdateDevice =>
    cases h
    exact hheeds.imp Or.inr id
  case reconfigureDevice =>
    split_ifs at h with hd
    · cases h
      exact hdevice.imp id fun hfresh => hfresh.current _
    · cases h
      refine hdevice.imp id (fun hfresh => ?_)
      change if s.video.device then s.Current else s.Fresh
      rw [if_neg hd]
      exact hfresh
  case createDevice =>
    split_ifs at h with hd
    · cases h
      refine hdevice.imp id (fun hcurrent => ?_)
      rw [if_pos hd] at hcurrent
      exact ⟨hd,hcurrent⟩
    · cases h
      refine hdevice.imp id (fun hfresh => ⟨rfl,?_⟩)
      rw [if_neg hd] at hfresh
      exact hfresh.current _
    · cases h
      trivial
  case createFailed =>
    cases h
    exact Or.inl (Or.inl rfl)
  case captureFailed =>
    cases h
    exact Or.inl (Or.inl rfl)
  case readUpdateFrameAck =>
    cases h
    dsimp only [goto]
    split_ifs <;> exact hdevice
  case readStopStreaming =>
    cases h
    dsimp only
    split_ifs <;> exact hdevice
  case restartForCapture =>
    cases h
    dsimp only [goto]
    split_ifs <;> exact hdevice
  case restartOrRecovery =>
    cases h
    dsimp only [goto]
    split_ifs <;> exact hdevice
  all_goals
    first
    | (cases h; exact hdevice)
    | (split_ifs at h <;> (cases h; first | exact hdevice | trivial))
    | cases h

/-- An ack is passed on, or `update_frame_ack` is set, wherever the loop goes. -/
theorem stepAt_ack {pc : VideoPc} (h : s.stepAt q pc = .ok t) (hack : s.AckOwed ∨ s.Passed)
    (hacks : s.AcksAt s.messagePc) (hheeds : s.HeedsAt pc) : t.AckOwed ∨ t.Passed := by
  have hid : s.messagePc.writesAck = false → ∀ a, s.acks.getLast? = some a → s.state.frameAckId = a := by
    intro hw a ha
    cases hpc : s.messagePc <;> rw [hpc] at hacks hw <;> first | exact hacks a ha | cases hw
  cases pc
  case markFrameReceived =>
    obtain ⟨ltr,rfl⟩ := markFrameReceived_cases h
    by_cases hw : s.messagePc.writesAck = true
    · exact Or.inl (Or.inr hw)
    · refine Or.inr (fun a ha => ?_)
      rw [← hid (by simpa using hw) a ha]
      exact List.getLast?_concat
  case restartOrBroken =>
    obtain ⟨ltr,rfl,-⟩ := restartOrBroken_cases h
    exact hack
  all_goals dsimp only [stepAt] at h
  case clearUpdateFrameAck =>
    cases h
    by_cases hw : s.messagePc.writesAck = true
    · exact Or.inl (Or.inr hw)
    · refine Or.inr (fun a ha => ?_)
      rw [← hid (by simpa using hw) a ha]
      exact hheeds.resolve_left hw
  all_goals
    first
    | (cases h; exact hack)
    | (split_ifs at h <;> (cases h; exact hack))
    | cases h

theorem ltrGetNextAction_intra {ltr : LtrState} (h : ltr.intraFrameNeeded = true) (id : UInt32) :
    (ltrGetNextAction ltr id).2.1.frameType = .intra := by
  have hneeded : (ltrClearOldFrames ltr).intraFrameNeeded = true := h
  have hchoose : (ltrChooseFrame (ltrClearOldFrames ltr)).1.action.frameType = .intra := by
    rw [ltrChooseFrame, if_pos (Or.inr (Or.inl hneeded))]
  exact hchoose

/-- A restart that is owed stays flagged until its INTRA frame is on its way. -/
theorem stepAt_restart {pc : VideoPc} (h : s.stepAt q pc = .ok t)
    (hrestart : s.restartOwed = true → s.RestartAt pc) (hheeds : s.HeedsAt pc)
    (howed : t.restartOwed = true) : t.RestartAt t.video.pc := by
  have hs := hrestart ((stepAt_frame h).restartOwed howed)
  cases pc
  case markFrameReceived =>
    obtain ⟨ltr,rfl⟩ := markFrameReceived_cases h
    exact hs
  case restartOrBroken =>
    obtain ⟨ltr,rfl,-⟩ := restartOrBroken_cases h
    exact Or.inl hs
  all_goals dsimp only [stepAt] at h
  case clearRestart =>
    cases h
    exact Or.inr (hs.elim hheeds id)
  case nextAction =>
    cases h
    exact hs.imp id fun hneeded => ltrGetNextAction_intra hneeded _
  case encode =>
    split_ifs at h
    · cases h
      have htype := of_decide_eq_true (Bool.and_eq_true_iff.mp howed).2
      exact hs.resolve_right htype
    · cases h
      trivial
  case readUpdateDevice =>
    cases h
    dsimp only [goto]
    split_ifs <;> exact hs
  case readUpdateFrameAck =>
    cases h
    dsimp only [goto]
    split_ifs <;> exact hs
  case readStopStreaming =>
    cases h
    dsimp only
    split_ifs <;> exact hs
  case restartForCapture =>
    cases h
    dsimp only [goto]
    split_ifs <;> exact hs
  case restartOrRecovery =>
    cases h
    dsimp only [goto]
    split_ifs
    · exact hs
    · exact Or.inl hs
  all_goals
    first
    | (cases h; first | exact hs | rfl)
    | (split_ifs at h <;> (cases h; first | exact hs | trivial))
    | cases h

theorem continueLoop_undisturbed {u : VideoServer} (hi : u.iteration = s.iteration)
    (hu : u.continueLoop.iteration ≠ .disturbed) : s.iteration ≠ .disturbed ∧ s.iteration = .complete := by
  change (if u.iteration = .running then Iteration.disturbed else u.iteration) ≠ .disturbed at hu
  rw [hi] at hu
  cases hit : s.iteration with
  | disturbed =>
    rw [hit] at hu
    exact absurd rfl hu
  | running =>
    rw [hit] at hu
    exact absurd rfl hu
  | complete => exact ⟨nofun,rfl⟩

theorem endLoop_undisturbed {u : VideoServer} (hi : u.iteration = s.iteration)
    (hu : u.endLoop.iteration ≠ .disturbed) : s.iteration ≠ .disturbed := by
  intro hs
  change (if u.iteration = .running then Iteration.complete else u.iteration) ≠ .disturbed at hu
  rw [hi, hs] at hu
  exact hu rfl

namespace Undisturbed
variable {pc : VideoPc}

theorem next (hs : s.Undisturbed) (hpc : s.video.pc = pc) (hf : Frame s t)
    (hi : t.iteration = s.iteration) (hread : t.ReadAt t.video.pc) (hcurrent : s.Current → t.Current)
    (hdevice : s.messagePc = .idle → deviceDone t.video.pc = true → deviceDone pc = true ∨ t.Current)
    (hpassed : s.messagePc = .idle → s.Passed → t.Passed)
    (hack : s.messagePc = .idle → ackDone t.video.pc = true → ackDone pc = true ∨ t.Passed) :
    t.Undisturbed where
  read := hread
  device := by
    intro hidle hdone
    rw [hf.messagePc] at hidle
    rw [hi] at hdone
    rcases hdone with hc | hd
    · exact hcurrent (hs.device hidle (Or.inl hc))
    · rcases hdevice hidle hd with hd | hc
      · exact hcurrent (hs.device hidle (Or.inr (hpc ▸ hd)))
      · exact hc
  ack := by
    intro hidle hdone
    rw [hf.messagePc] at hidle
    rw [hi] at hdone
    rcases hdone with hc | hd
    · exact hpassed hidle (hs.ack hidle (Or.inl hc))
    · rcases hack hidle hd with hd | hp
      · exact hpassed hidle (hs.ack hidle (Or.inr (hpc ▸ hd)))
      · exact hp
  restart := by
    intro hc
    rw [hi] at hc
    have hnone := hs.restart hc
    cases ht : t.restartOwed with
    | false => rfl
    | true => exact absurd (hf.restartOwed ht) (by rw [hnone]; decide)

theorem onward (hs : s.Undisturbed) (hpc : s.video.pc = pc) (hf : Frame s t) (hi : t.iteration = s.iteration)
    (hread : t.ReadAt t.video.pc) (hcurrent : s.Current → t.Current) (hpassed : s.Passed → t.Passed)
    (hdevice : deviceDone t.video.pc = true → deviceDone pc = true)
    (hack : ackDone t.video.pc = true → ackDone pc = true) : t.Undisturbed :=
  hs.next hpc hf hi hread hcurrent (fun _ h => Or.inl (hdevice h)) (fun _ => hpassed)
    (fun _ h => Or.inl (hack h))

theorem finish {u : VideoServer} (hs : s.Undisturbed) (hpc : s.video.pc = pc) (hd : deviceDone pc = true)
    (ha : ackDone pc = true) (hm : u.messagePc = s.messagePc) (hcurrent : s.Current → u.Current)
    (hpassed : s.Passed → u.Passed) (howed : u.restartOwed = false) : u.endLoop.Undisturbed where
  read := trivial
  device := fun hidle _ => hcurrent (hs.device (hm ▸ hidle) (Or.inr (hpc ▸ hd)))
  ack := fun hidle _ => hpassed (hs.ack (hm ▸ hidle) (Or.inr (hpc ▸ ha)))
  restart := fun _ => howed

theorem again {u : VideoServer} (hs : s.Undisturbed) (hi : u.iteration = s.iteration)
    (hm : u.messagePc = s.messagePc) (hcurrent : s.Current → u.Current) (hpassed : s.Passed → u.Passed)
    (howed : u.restartOwed = s.restartOwed) (hu : u.continueLoop.iteration ≠ .disturbed) :
    u.continueLoop.Undisturbed := by
  have hcomplete : s.iteration = .complete := (continueLoop_undisturbed hi hu).2
  exact
    { read := trivial
      device := fun hidle _ => hcurrent (hs.device (hm ▸ hidle) (Or.inl hcomplete))
      ack := fun hidle _ => hpassed (hs.ack (hm ▸ hidle) (Or.inl hcomplete))
      restart := fun _ => howed.trans (hs.restart hcomplete) }

end Undisturbed

theorem stepAt_undisturbed {pc : VideoPc} (h : s.stepAt q pc = .ok t) (hpc : s.video.pc = pc)
    (hinv : s.Inv) (hheeds : s.HeedsAt pc) (ht : t.iteration ≠ .disturbed) : t.Undisturbed := by
  have hf := stepAt_frame h
  have hacks : s.messagePc = .idle → ∀ a, s.acks.getLast? = some a → s.state.frameAckId = a := by
    intro hidle
    have hacks := hinv.acks
    rw [hidle] at hacks
    exact hacks
  cases pc
  case newConnection =>
    dsimp only [stepAt] at h
    have hcomplete : t.iteration = .complete → s.Undisturbed ∧ s.iteration = .complete := by
      intro hc
      have hs : s.iteration = .complete := by
        split_ifs at h <;> cases h <;> first | exact hc | cases hc
      exact ⟨hinv.undisturbed (by rw [hs]; exact nofun),hs⟩
    have hto : t.video.pc = .initWidth ∧ t.configured = s.configured ∧ t.passed = s.passed := by
      split_ifs at h <;> cases h <;> exact ⟨rfl,rfl,rfl⟩
    constructor
    · rw [hto.1]
      trivial
    · intro hidle hd
      rw [hto.1] at hd
      obtain ⟨hs,hc⟩ := hcomplete (hd.resolve_right nofun)
      have hcur := hs.device (hf.messagePc ▸ hidle) (Or.inl hc)
      rw [Current, hto.2.1, hf.clientDimensions]
      exact hcur
    · intro hidle hd
      rw [hto.1] at hd
      obtain ⟨hs,hc⟩ := hcomplete (hd.resolve_right nofun)
      have hpassed := hs.ack (hf.messagePc ▸ hidle) (Or.inl hc)
      rw [Passed, hf.acks, hto.2.2]
      exact hpassed
    · intro hc
      obtain ⟨hs,hc⟩ := hcomplete hc
      cases howed : t.restartOwed with
      | false => rfl
      | true => exact absurd (hf.restartOwed howed) (by rw [hs.restart hc]; decide)
  case readWidth =>
    cases h
    exact (hinv.undisturbed ht).onward hpc hf rfl rfl id id id id
  case readHeight =>
    cases h
    have hs := hinv.undisturbed ht
    have hread := hs.read
    rw [hpc] at hread
    exact hs.onward hpc hf rfl ⟨hread,rfl⟩ id id id id
  case readUpdateDevice =>
    cases h
    have hs := hinv.undisturbed ht
    have hread := hs.read
    rw [hpc] at hread
    by_cases hu : s.state.updateDevice = true
    · rw [goto, if_pos hu] at hf ⊢
      exact hs.onward hpc hf rfl hread id id id id
    · rw [goto, if_neg hu] at hf ⊢
      exact hs.onward hpc hf rfl ⟨hread,by simpa using hu⟩ id id id id
  case clearUpdateDevice =>
    cases h
    have hs := hinv.undisturbed ht
    have hread := hs.read
    rw [hpc] at hread
    exact hs.onward hpc hf rfl ⟨hread,rfl⟩ id id id id
  case reconfigureDevice =>
    dsimp only [stepAt] at h
    split_ifs at h
    · cases h
      have hs := hinv.undisturbed ht
      have hread := hs.read
      rw [hpc] at hread
      exact hs.next hpc hf rfl hread (fun _ => hread.1.current _) (fun _ => nofun) (fun _ => id)
        (fun _ => nofun)
    · cases h
      have hs := hinv.undisturbed ht
      have hread := hs.read
      rw [hpc] at hread
      exact hs.onward hpc hf rfl hread id id id id
  case createDevice =>
    dsimp only [stepAt] at h
    split_ifs at h with hd
    · cases h
      have hs := hinv.undisturbed ht
      have hread := hs.read
      have hdevice := hinv.device
      rw [hpc] at hread hdevice
      refine hs.next hpc hf rfl trivial id (fun hidle _ => Or.inr ?_) (fun _ => id) (fun _ => nofun)
      rcases hdevice with (hu | hw) | hcurrent
      · rw [hread.2] at hu
        cases hu
      · rw [hidle] at hw
        cases hw
      · rw [if_pos hd] at hcurrent
        exact hcurrent
    · cases h
      have hs := hinv.undisturbed ht
      have hread := hs.read
      rw [hpc] at hread
      exact hs.next hpc hf rfl trivial (fun _ => hread.1.current _) (fun _ _ => Or.inr (hread.1.current _))
        (fun _ => id) (fun _ => nofun)
    · cases h
      exact (hinv.undisturbed ht).onward hpc hf rfl trivial id id id id
  case readUpdateFrameAck =>
    cases h
    have hs := hinv.undisturbed ht
    by_cases hu : s.state.updateFrameAck = true
    · rw [goto, if_pos hu] at hf ⊢
      exact hs.next hpc hf rfl trivial id (fun _ => Or.inl) (fun _ => id) (fun _ => nofun)
    · rw [goto, if_neg hu] at hf ⊢
      refine hs.next hpc hf rfl trivial id (fun _ => Or.inl) (fun _ => id) (fun hidle _ => Or.inr ?_)
      rcases hinv.ack with (hu' | hw) | hp
      · exact absurd hu' hu
      · rw [hidle] at hw
        cases hw
      · exact hp
  case markFrameReceived =>
    obtain ⟨ltr,rfl⟩ := markFrameReceived_cases h
    refine (hinv.undisturbed ht).next hpc hf rfl trivial id (fun _ => Or.inl) (fun hidle _ a ha => ?_)
      (fun _ => nofun)
    rw [← hacks hidle a ha]
    exact List.getLast?_concat
  case clearUpdateFrameAck =>
    cases h
    refine (hinv.undisturbed ht).next hpc hf rfl trivial id (fun _ => Or.inl) (fun _ => id)
      (fun hidle _ => Or.inr fun a ha => ?_)
    rw [← hacks hidle a ha]
    refine hheeds.resolve_left (fun hw => ?_)
    rw [hidle] at hw
    cases hw
  case readStopStreaming | restartForCapture =>
    cases h
    have hs := hinv.undisturbed ht
    dsimp only [goto] at hf ⊢
    split_ifs at hf ⊢ <;> exact hs.onward hpc hf rfl trivial id id id id
  case disableEncoder =>
    cases h
    refine (hinv.undisturbed ht).next hpc hf rfl (fun howed => ?_) id (fun _ => Or.inl) (fun _ => id)
      (fun _ => Or.inl)
    have hflag := hinv.restart howed
    rw [hpc] at hflag
    have hflag : s.state.streamNeedsRestart = true := hflag
    simp [hflag]
  case sendCondition =>
    dsimp only [stepAt] at h
    have hflag : s.restartOwed = true → s.state.streamNeedsRestart = true := by
      intro howed
      have hflag := hinv.restart howed
      rw [hpc] at hflag
      exact hflag
    by_cases hsend : s.video.accumulatedFrames > 0 ∨ s.state.streamNeedsRestart = true ∨ q.minFpsReached = true
    · rw [if_pos hsend] at h
      by_cases hdisable : s.video.disableEncoder = true
      · rw [if_pos hdisable] at h
        cases h
        have hs := hinv.undisturbed (endLoop_undisturbed rfl ht)
        have hread := hs.read
        rw [hpc] at hread
        refine hs.finish hpc rfl rfl rfl id id ?_
        -- an encoder that is disabled was disabled without a restart in sight
        cases howed : s.restartOwed with
        | false => rfl
        | true => exact absurd hdisable (by rw [hread howed]; decide)
      · rw [if_neg hdisable] at h
        cases h
        exact (hinv.undisturbed ht).onward hpc hf rfl trivial id id id id
    · rw [if_neg hsend] at h
      cases h
      have hs := hinv.undisturbed (endLoop_undisturbed rfl ht)
      refine hs.finish hpc rfl rfl rfl id id ?_
      cases howed : s.restartOwed with
      | false => rfl
      | true => exact absurd (Or.inr (Or.inl (hflag howed))) hsend
  case restartOrRecovery =>
    cases h
    have hs := hinv.undisturbed ht
    by_cases hr : (s.state.streamNeedsRestart || s.state.streamNeedsRecovery) = true
    · rw [goto, if_pos hr] at hf ⊢
      exact hs.onward hpc hf rfl trivial id id id id
    · rw [goto, if_neg hr] at hf ⊢
      refine hs.onward hpc hf rfl ?_ id id id id
      rw [Bool.not_eq_true, Bool.or_eq_false_iff] at hr
      exact hr.1
  case restartOrBroken =>
    obtain ⟨ltr,rfl,-⟩ := restartOrBroken_cases h
    exact (hinv.undisturbed ht).onward hpc hf rfl trivial id id id id
  case clearRestart =>
    cases h
    exact (hinv.undisturbed ht).onward hpc hf rfl rfl id id id id
  case restartAfterUpdate | clearRecovery | nextAction =>
    cases h
    have hs := hinv.undisturbed ht
    have hread := hs.read
    rw [hpc] at hread
    exact hs.onward hpc hf rfl hread id id id id
  case encode =>
    dsimp only [stepAt] at h
    split_ifs at h
    · cases h
      have hs := hinv.undisturbed (endLoop_undisturbed rfl ht)
      have hread := hs.read
      have hrestart := hinv.restart
      rw [hpc] at hread hrestart
      refine hs.finish hpc rfl rfl rfl id id ?_
      cases howed : s.restartOwed with
      | false => rfl
      | true =>
        have hread : s.state.streamNeedsRestart = false := hread
        have hintra := (hrestart howed).resolve_left (by rw [hread]; decide)
        simp [hintra]
    · cases h
      exact (hinv.undisturbed ht).onward hpc hf rfl trivial id id nofun nofun
  all_goals
    dsimp only [stepAt] at h
    first
    | (cases h; exact (hinv.undisturbed ht).onward hpc hf rfl trivial id id id id)
    | (cases h; exact (hinv.undisturbed (continueLoop_undisturbed rfl ht).1).again rfl rfl id id rfl ht)
    | (split_ifs at h <;> (cases h; first
        | exact (hinv.undisturbed ht).onward hpc hf rfl trivial id id id id
        | exact (hinv.undisturbed ht).onward hpc hf rfl trivial id id nofun nofun
        | exact (hinv.undisturbed (continueLoop_undisturbed rfl ht).1).again rfl rfl id id rfl ht))
    | cases h

theorem video_inv (h : s.Inv) (hheeds : s.HeedsAt s.video.pc) (hstep : s.stepAt q s.video.pc = .ok t) :
    t.Inv := by
  have hf := stepAt_frame hstep
  refine ⟨?_,?_,stepAt_device hstep h.device hheeds,stepAt_ack hstep h.ack h.acks hheeds,
    stepAt_restart hstep h.restart hheeds,fun ht => stepAt_undisturbed hstep rfl h hheeds ht⟩
  · have hdims := h.dimensions
    rw [hf.messagePc]
    cases hpc : s.messagePc <;> rw [hpc] at hdims <;>
      simpa only [DimensionsAt, hf.requested, hf.clientDimensions] using hdims
  · have hacks := h.acks
    rw [hf.messagePc]
    cases hpc : s.messagePc <;> rw [hpc] at hacks <;>
      simpa only [AcksAt, hf.acks, hf.frameAckId] using hacks

theorem step_inv (mv : Move) (h : s.Inv) (hheeds : s.Heeds mv) (hstep : s.step mv = .ok t) : t.Inv := by
  cases mv with
  | receive m =>
    dsimp only [step] at hstep
    split_ifs at hstep with hidle
    cases hstep
    exact receive_inv h hidle m
  | handle =>
    dsimp only [step] at hstep
    split_ifs at hstep
    cases hstep
    exact handle_inv h
  | video q => exact video_inv h hheeds hstep

/-- In every run in which the loop clears no flag that it has not served, no request is lost. -/
theorem nothing_lost (moves : List Move) (hheeds : Run.EachOk step Heeds {} moves)
    (hrun : Run.run step {} moves = .ok t) : t.NothingLost :=
  (Run.EachOk.invariant (fun _ mv _ => step_inv mv) initial_inv hheeds hrun).nothingLost

def handles (m : WhistClientMessage) (n : ℕ) : List Move := .receive m :: List.replicate n .handle

/-- The loop makes `n` steps, and everything it calls succeeds. -/
def loops (n : ℕ) : List Move := List.replicate n (.video {})

def servedMoves : List Move :=
  handles (.dimensions ⟨800,600,96⟩) 5 ++ handles (.frameAck 1) 2 ++ handles .stopStreaming 1 ++
    handles .startStreaming 3 ++ loops 27

instance (s : VideoServer) : Decidable s.Quiet := inferInstanceAs (Decidable (_ ∧ _ ∧ _ ∧ _))

/-- The run of `servedMoves` ends quietly, and nothing is lost. -/
theorem nothing_lost_served :
    ∃ t, Run.run step {} servedMoves = .ok t ∧ t.Quiet ∧ t.NothingLost := by
  have hquiet : (Run.run step {} servedMoves).toOption.map (fun t => decide t.Quiet) = some true := by
    decide +kernel
  cases hrun : Run.run step {} servedMoves with
  | error e =>
    rw [hrun] at hquiet
    cases hquiet
  | ok t =>
    rw [hrun] at hquiet
    exact ⟨t,rfl,of_decide_eq_true (Option.some.inj hquiet),nothing_lost servedMoves (by decide +kernel) hrun⟩

def lostMoves : List Move :=
  handles (.dimensions ⟨800,600,96⟩) 5 ++ loops 6 ++ handles (.dimensions ⟨1024,768,96⟩) 5 ++ loops 32

/-- The device stays at the dimensions of the first message. -/
theorem nothing_lost_fails :
    ¬∀ (moves : List Move) (t : VideoServer), Run.run step {} moves = .ok t → t.NothingLost := by
  intro h
  have hlost : (Run.run step {} lostMoves).toOption.map (fun t =>
      (decide t.Quiet,t.requested,t.configured)) =
        some (true,some ⟨1024,768,96⟩,some ⟨800,600,96⟩) := by
    decide +kernel
  cases hrun : Run.run step {} lostMoves with
  | error e =>
    rw [hrun] at hlost
    cases hlost
  | ok t =>
    rw [hrun] at hlost
    simp only [Except.toOption, Option.map_some, Option.some.injEq, Prod.mk.injEq] at hlost
    obtain ⟨hquiet,hrequested,hconfigured⟩ := hlost
    have hserved := (h lostMoves t hrun (of_decide_eq_true hquiet)).1 _ hrequested
    rw [hconfigured] at hserved
    cases hserved

end VideoServer

end Whist.Server
