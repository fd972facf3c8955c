import Whist.Server.EncoderUpdates
import Whist.Server.VideoRequests
import Whist.Video.EncoderStreams
import Whist.Video.LtrCalls

/-! # Whether the encoder makes the frame that the reference logic has in mind -/
namespace Whist.Server
open Whist.Ltr Whist.Codec

namespace EncodingServer

def intraDue (ltr : LtrState) : Bool :=
  decide (ltr.frameCounter = 0) || ltr.intraFrameNeeded ||
    (!ltr.haveGoodLongTermFrame &&
      decide (ltr.frameCounter + 1 - ltr.intraFrameCounter ≥ ltrNewIntraFrameDelay)) ||
    (ltr.lastFrameIsBad && !ltr.haveGoodLongTermFrame)

/-- An INTRA frame is due when the encoder is new, was reset, or makes an IDR frame anyway, and
the libraries encode the frame. -/
def Agrees (s : EncodingServer) : EncodingMove → Prop
  | .video q =>
    (s.server.video.pc = .nextAction → ∀ m ∈ s.encoder,
      m.encoder.seen = [] ∨ m.encoder.wantsIntra = true → intraDue s.server.video.ltr = true) ∧
    (s.server.video.pc = .encode → ∀ m ∈ s.encoder,
      m.encoder.takes s.server.video.ltr.frameCounter q.encoder = true)
  | _ => True

/-- The encoding of a frame fails none of the assertions about its type. -/
def Asserts (s : EncodingServer) (q : EncodingInput) : Prop :=
  s.server.video.pc = .encode → s.step (.video q) ≠ .error .frameType ∧
    s.step (.video q) ≠ .error (.encoder .longTermFrameIndex)

/-- The frame to be encoded is an INTRA frame if the encoder is new or was reset, and refers to
a frame that the encoder has seen if it is not. -/
def KnowsReference (s : EncodingServer) : Prop :=
  s.server.video.pc = .encode → ∀ m, s.encoder = some m →
    ∃ f, s.server.video.ltr.inflightList.getLast? = some f ∧ m.encoder.nextLtrAction = f.action ∧
      (m.encoder.seen = [] → f.action.frameType = .intra) ∧
      (f.action.frameType ≠ .intra → f.referenceFrameCounter ∈ m.encoder.seen)

def Covers (e : VideoEncoder) (ltr : LtrState) : Prop :=
  e.seen = [] ∨ ∀ c, ltr.intraFrameCounter ≤ c → c ≤ ltr.frameCounter → c ∈ e.seen

structure Refers (e : VideoEncoder) (ltr : LtrState) (f : LtrFrame) : Prop where
  wantsIntra : e.wantsIntra = false
  seen : e.seen ≠ []
  reference : f.referenceFrameCounter ∈ e.seen
  covered : ∀ c, ltr.intraFrameCounter ≤ c → c < ltr.frameCounter → c ∈ e.seen

structure Prepared (server : VideoServer) (encoder : Option MadeEncoder) (f : LtrFrame) : Prop where
  newest : server.video.ltr.inflightList.getLast? = some f
  frameType : server.video.frameType = f.action.frameType
  action : ∀ m, encoder = some m → m.encoder.nextLtrAction = f.action
  kind : f.action = ⟨.intra,0⟩ ∧ server.video.ltr.intraFrameCounter = server.video.ltr.frameCounter ∨
    f.action.frameType ≠ .intra ∧ ∀ m, encoder = some m → Refers m.encoder server.video.ltr f

def CoveredAt (server : VideoServer) (encoder : Option MadeEncoder) : Prop :=
  match server.video.pc with
  | .restartOrRecovery | .restartOrBroken =>
    server.state.streamNeedsRestart = true ∨ ∀ m, encoder = some m → Covers m.encoder server.video.ltr
  | .clearRestart | .clearRecovery | .nextAction =>
    server.video.ltr.intraFrameNeeded = true ∨ ∀ m, encoder = some m → Covers m.encoder server.video.ltr
  | .encode => ∃ f, Prepared server encoder f
  | .exited => True
  | _ => ∀ m, encoder = some m → Covers m.encoder server.video.ltr

def plain : VideoPc → Bool
  | .transferCapture | .restartOrRecovery | .restartOrBroken | .clearRestart | .clearRecovery | .nextAction
  | .encode | .exited => false
  | _ => true

structure Agreement (s : EncodingServer) : Prop where
  fitted : ∀ m, s.encoder = some m → m.encoder.Fitted
  result : s.pendingEncoder = true → s.encoderFinished = true →
    ∃ m, s.encoderFactoryResult = some m ∧ m.encoder.Fitted ∧ m.encoder.seen = []
  follows : ∃ sess, Sound sess ∧ sess.ltr = s.server.video.ltr
  covered : CoveredAt s.server s.encoder

section Server
variable {server server' : VideoServer} {encoder : Option MadeEncoder} {q : VideoInput}

theorem covers_of_same {e : VideoEncoder} {ltr ltr' : LtrState} (h : Covers e ltr)
    (hintra : ltr'.intraFrameCounter = ltr.intraFrameCounter) (hcounter : ltr'.frameCounter = ltr.frameCounter) :
    Covers e ltr' := by
  unfold Covers at h ⊢
  rwa [hintra, hcounter]

theorem covers_of_continues {e e' : VideoEncoder} {ltr : LtrState} (h : Covers e ltr)
    (hstream : e'.seen = [] ∨ e.Continues e') : Covers e' ltr := by
  rcases hstream with hseen | hcontinues
  · exact Or.inl hseen
  · unfold Covers at h ⊢
    rwa [hcontinues.seen]

theorem coveredAt_plain (h : ∀ m, encoder = some m → Covers m.encoder server.video.ltr)
    (hpc : plain server.video.pc = true ∨ server.video.pc = .transferCapture) : CoveredAt server encoder := by
  unfold CoveredAt
  cases hpc' : server.video.pc <;> first | exact h | (rw [hpc'] at hpc; simp [plain] at hpc)

theorem CoveredAt.covers (h : CoveredAt server encoder)
    (hpc : plain server.video.pc = true ∨ server.video.pc = .transferCapture) :
    ∀ m, encoder = some m → Covers m.encoder server.video.ltr := by
  unfold CoveredAt at h
  cases hpc' : server.video.pc <;> rw [hpc'] at h <;> first | exact h | (rw [hpc'] at hpc; simp [plain] at hpc)

theorem stepAt_plain {pc : VideoPc} (h : server.stepAt q pc = .ok server') (hpc : plain pc = true) :
    plain server'.video.pc = true ∨ server'.video.pc = .transferCapture := by
  cases pc <;> first | exact absurd hpc (by decide) | dsimp only [VideoServer.stepAt] at h
  case markFrameReceived =>
    cases hm : ltrMarkFrameReceived server.video.ltr server.state.frameAckId with
    | error e =>
      rw [hm] at h
      cases h
    | ok r =>
      rw [hm] at h
      cases h
      exact Or.inl rfl
  all_goals
    first
    | (cases h; exact Or.inl rfl)
    | (split_ifs at h <;> (cases h; first | exact Or.inl rfl | exact Or.inr rfl))

theorem server_covered (hfollows : ∃ sess, Sound sess ∧ sess.ltr = server.video.ltr)
    (h : CoveredAt server encoder) (hstep : server.stepAt q server.video.pc = .ok server')
    (hpc : server.video.pc ≠ .transferCapture ∧ server.video.pc ≠ .nextAction ∧ server.video.pc ≠ .encode) :
    (∃ sess, Sound sess ∧ sess.ltr = server'.video.ltr) ∧ CoveredAt server' encoder := by
  obtain ⟨sess,hsound,hltr⟩ := hfollows
  cases hplain : plain server.video.pc with
  | true =>
    have hcovers := h.covers (Or.inl hplain)
    have hpc' := stepAt_plain hstep hplain
    cases hcalls : VideoServer.callsLtr server.video.pc with
    | false =>
      obtain ⟨hsame,-⟩ := VideoServer.stepAt_ltr hstep hcalls
      rw [hsame]
      refine ⟨⟨sess,hsound,hltr⟩,coveredAt_plain ?_ hpc'⟩
      rw [hsame]
      exact hcovers
    | true =>
      have hreceived : server.video.pc = .markFrameReceived := by
        cases hpc'' : server.video.pc <;> rw [hpc''] at hcalls hplain <;>
          first | rfl | exact absurd hcalls (by decide) | exact absurd hplain (by decide)
      rw [hreceived] at hstep
      dsimp only [VideoServer.stepAt] at hstep
      cases hm : ltrMarkFrameReceived server.video.ltr server.state.frameAckId with
      | error e =>
        rw [hm] at hstep
        cases hstep
      | ok r =>
        rw [hm] at hstep
        cases hstep
        rw [← hltr] at hm
        obtain ⟨sess',hltr',htr,-,hsame,-⟩ := hsound.tracking.received hm
        refine ⟨⟨sess',htr.sound hsound,hltr'⟩,coveredAt_plain (fun m hm => ?_) hpc'⟩
        rw [hltr, hltr'] at hsame
        exact covers_of_same (hcovers m hm) hsame.intraFrameCounter hsame.frameCounter
  | false =>
    cases hpc' : server.video.pc <;> rw [hpc'] at hplain hpc hstep <;>
      first | exact absurd hplain (by decide) | skip
    case transferCapture => exact absurd rfl hpc.1
    case nextAction => exact absurd rfl hpc.2.1
    case encode => exact absurd rfl hpc.2.2
    case exited => cases hstep
    all_goals
      unfold CoveredAt at h
      rw [hpc'] at h
      dsimp only [VideoServer.stepAt] at hstep
    case clearRestart =>
      cases hstep
      exact ⟨⟨sess,hsound,hltr⟩,h⟩
    case clearRecovery =>
      cases hstep
      exact ⟨⟨sess,hsound,hltr⟩,h⟩
    case restartOrRecovery =>
      cases hstep
      refine ⟨⟨sess,hsound,hltr⟩,?_⟩
      dsimp only [VideoServer.goto, CoveredAt]
      split_ifs with hflags
      · exact h
      · simp only [Bool.or_eq_true, not_or] at hflags
        exact Or.inr (h.resolve_left hflags.1)
    case restartOrBroken =>
      split_ifs at hstep with hrestart
      · cases hstep
        obtain ⟨sess',hltr',htr,-⟩ := hsound.tracking.forced
        refine ⟨⟨sess',htr.sound hsound,?_⟩,Or.inl rfl⟩
        rw [hltr', hltr]
      · cases hm : ltrMarkStreamBroken server.video.ltr with
        | error e =>
          rw [hm] at hstep
          cases hstep
        | ok ltr =>
          rw [hm] at hstep
          cases hstep
          rw [← hltr] at hm
          obtain ⟨sess',hltr',htr,-,hintra,hcounter,-⟩ := hsound.tracking.broken hm
          refine ⟨⟨sess',htr.sound hsound,hltr'⟩,Or.inr fun m hm => ?_⟩
          rw [hltr] at hintra hcounter
          exact covers_of_same (h.resolve_left hrestart m hm) hintra hcounter

end Server

variable {s t u : EncodingServer}

/-- The encoder in use goes on with its stream or has seen nothing, and one that is pending has
seen nothing. -/
structure Succeeds (s t : EncodingServer) : Prop where
  server : t.server = s.server
  encoder : ∀ m', t.encoder = some m' → m'.encoder.Fitted ∧
    (m'.encoder.seen = [] ∨ ∃ m, s.encoder = some m ∧ m.encoder.Continues m'.encoder)
  result : t.pendingEncoder = true → t.encoderFinished = true →
    ∃ m, t.encoderFactoryResult = some m ∧ m.encoder.Fitted ∧ m.encoder.seen = []

theorem Succeeds.trans (h : s.Succeeds t) (h' : t.Succeeds u) : s.Succeeds u where
  server := h'.server.trans h.server
  result := h'.result
  encoder m' hm' := by
    obtain ⟨hfit,hseen | ⟨m,hm,hcontinues⟩⟩ := h'.encoder m' hm'
    · exact ⟨hfit,Or.inl hseen⟩
    · refine ⟨hfit,?_⟩
      rcases (h.encoder m hm).2 with hseen | ⟨m₀,hm₀,hcontinues₀⟩
      · exact Or.inl (hcontinues.seen.trans hseen)
      · exact Or.inr ⟨m₀,hm₀,hcontinues.seen.trans hcontinues₀.seen,
          hcontinues.wantsIntra.trans hcontinues₀.wantsIntra⟩

theorem Agreement.stays (h : s.Agreement) (hserver : t.server = s.server) (hencoder : t.encoder = s.encoder)
    (hresult : t.pendingEncoder = true → t.encoderFinished = true →
      ∃ m, t.encoderFactoryResult = some m ∧ m.encoder.Fitted ∧ m.encoder.seen = []) : s.Succeeds t where
  server := hserver
  result := hresult
  encoder m' hm' := by
    rw [hencoder] at hm'
    exact ⟨h.fitted m' hm',Or.inr ⟨m',hm',VideoEncoder.Continues.refl _⟩⟩

theorem Agreement.of_succeeds (h : s.Agreement) (hs : s.Succeeds t) (hpc : plain s.server.video.pc = true) :
    t.Agreement where
  fitted m hm := (hs.encoder m hm).1
  result := hs.result
  follows := by
    rw [hs.server]
    exact h.follows
  covered := by
    rw [hs.server]
    refine coveredAt_plain (fun m' hm' => ?_) (Or.inl hpc)
    rcases (hs.encoder m' hm').2 with hseen | ⟨m,hm,hcontinues⟩
    · exact Or.inl hseen
    · exact covers_of_continues (h.covered.covers (Or.inl hpc) m hm) (Or.inr hcontinues)

theorem succeeds_new {m : MadeEncoder} (hserver : t.server = s.server) (hm : t.encoder = some m)
    (hfit : m.encoder.Fitted) (hseen : m.encoder.seen = []) (hp : t.pendingEncoder = false) : s.Succeeds t where
  server := hserver
  encoder m' hm' := by
    obtain rfl := Option.some.inj (hm.symm.trans hm')
    exact ⟨hfit,Or.inl hseen⟩
  result hp' := by
    rw [hp] at hp'
    cases hp'

theorem Agreement.replaceEncoder {settings : EncoderSettings} {q : EncoderInput} (h : s.Agreement)
    (ht : s.replaceEncoder settings q = .ok t) : s.Succeeds t := by
  unfold EncodingServer.replaceEncoder at ht
  split_ifs at ht with hp hf
  · cases ht
    obtain ⟨m,hm,hfit,hseen⟩ := h.result hp hf
    exact succeeds_new rfl hm hfit hseen rfl
  · cases ht
    exact h.stays rfl rfl h.result
  · dsimp only at ht
    generalize hu : destroyNvidia { s with encoderFinished := false, encoderFactory := settings } = u at ht
    have hcases := destroyNvidia_cases { s with encoderFinished := false, encoderFactory := settings }
    rw [hu] at hcases
    have hserver : u.server = s.server := by
      rcases hcases with ⟨rfl,-⟩ | ⟨rfl,-⟩ <;> rfl
    cases hm : u.encoder with
    | none =>
      rw [hm] at ht
      dsimp only at ht
      cases hmade : u.multithreadedEncoderFactory q with
      | error x =>
        rw [hmade] at ht
        cases ht
      | ok v =>
        rw [hmade] at ht
        cases ht
        obtain ⟨e,hfit,-,hseen,rfl⟩ := multithreadedEncoderFactory_cases hmade
        exact succeeds_new hserver rfl hfit hseen rfl
    | some m =>
      rw [hm] at ht
      cases ht
      rcases hcases with ⟨rfl,-⟩ | ⟨rfl,-⟩
      · cases hm
      · exact h.stays rfl hm.symm fun _ hf => by cases hf

theorem Agreement.updateStage {n : NetworkSettings} {q : EncoderInput} (h : s.Agreement)
    (hpc : s.server.video.pc = .readUpdateFrameAck) (ht : s.updateStage n q = .ok t) : t.Agreement := by
  have hplain : plain s.server.video.pc = true := by
    rw [hpc]
    rfl
  unfold EncodingServer.updateStage at ht
  split_ifs at ht
  dsimp only at ht
  cases hu : (s.updateEncoder || decide (s.lastNetworkSettings ≠ some n)) with
  | false =>
    rw [hu] at ht
    cases ht
    exact h.of_succeeds (h.stays rfl rfl h.result) hplain
  | true =>
    rw [hu, if_pos rfl] at ht
    have hs₁ : s.Succeeds { s with
        updateEncoder := true, lastNetworkSettings := some n, settings := s.wanted n, updated := true } :=
      h.stays rfl rfl h.result
    generalize ({ s with
      updateEncoder := true, lastNetworkSettings := some n, settings := s.wanted n, updated := true } :
        EncodingServer) = s₁ at ht hs₁
    have hagree := h.of_succeeds hs₁ hplain
    have hplain₁ : plain s₁.server.video.pc = true := by
      rw [hs₁.server]
      exact hplain
    refine h.of_succeeds (hs₁.trans ?_) hplain
    unfold updateVideoEncoder at ht
    cases hr : s₁.tryReconfigure (s.wanted n) q with
    | error x =>
      rw [hr] at ht
      cases ht
    | ok s₂ =>
      rw [hr] at ht
      dsimp only at ht
      have hs₂ : s₁.Succeeds s₂ := by
        rcases tryReconfigure_cases hagree.fitted hr with
          ⟨m,e,hm,-,hfit,-,hstream,rfl⟩ | ⟨m,e,hm,hfit,-,hcontinues,rfl⟩ | ⟨-,rfl⟩
        · refine ⟨rfl,fun m' hm' => ?_,hagree.result⟩
          obtain rfl := Option.some.inj hm'
          exact ⟨hfit,hstream.imp_right fun hc => ⟨m,hm,hc⟩⟩
        · refine ⟨rfl,fun m' hm' => ?_,hagree.result⟩
          obtain rfl := Option.some.inj hm'
          exact ⟨hfit,Or.inr ⟨m,hm,hcontinues⟩⟩
        · exact hagree.stays rfl rfl hagree.result
      split_ifs at ht
      · exact hs₂.trans ((hagree.of_succeeds hs₂ hplain₁).replaceEncoder ht)
      · cases ht
        exact hs₂

theorem Agreement.factory {q : EncoderInput} (h : s.Agreement) (ht : s.multithreadedEncoderFactory q = .ok t) :
    t.Agreement := by
  obtain ⟨e,hfit,-,hseen,rfl⟩ := multithreadedEncoderFactory_cases ht
  exact ⟨h.fitted,fun _ _ => ⟨_,rfl,hfit,hseen⟩,h.follows,h.covered⟩

theorem CoveredAt.messages {server server' : VideoServer} {encoder : Option MadeEncoder}
    (h : CoveredAt server encoder) (hvideo : server'.video = server.video)
    (hrestart : server.state.streamNeedsRestart = true → server'.state.streamNeedsRestart = true) :
    CoveredAt server' encoder := by
  unfold CoveredAt at h ⊢
  rw [hvideo]
  cases hpc : server.video.pc <;> rw [hpc] at h <;> first | exact h | exact h.imp_left hrestart | skip
  obtain ⟨f,hnewest,htype,haction,hkind⟩ := h
  rw [← hvideo] at hnewest htype hkind
  exact ⟨f,hnewest,htype,haction,hkind⟩

theorem Agreement.messageStep {mv : VideoServer.Move} (h : s.Agreement) (hmv : ∀ q, mv ≠ .video q)
    (ht : s.serverStep mv = .ok t) : t.Agreement := by
  obtain ⟨server,hs,rfl⟩ := serverStep_cases ht
  cases mv with
  | video q => exact absurd rfl (hmv q)
  | receive m =>
    dsimp only [VideoServer.step] at hs
    split_ifs at hs
    cases hs
    have hvideo := s.server.receive_video m
    refine ⟨h.fitted,h.result,?_,h.covered.messages hvideo fun hr => ?_⟩
    · dsimp only
      rw [hvideo]
      exact h.follows
    · cases m <;> exact hr
  | handle =>
    dsimp only [VideoServer.step] at hs
    split_ifs at hs
    cases hs
    have hvideo := s.server.handle_video
    refine ⟨h.fitted,h.result,?_,h.covered.messages hvideo fun hr => ?_⟩
    · dsimp only
      rw [hvideo]
      exact h.follows
    · dsimp only
      unfold VideoServer.handle
      cases s.server.messagePc <;> first | exact hr | rfl

theorem Agreement.loopStep {q : VideoInput} (h : s.Agreement) (ht : s.serverStep (.video q) = .ok t)
    (hpc : s.server.video.pc ≠ .transferCapture ∧ s.server.video.pc ≠ .nextAction ∧
      s.server.video.pc ≠ .encode) : t.Agreement := by
  obtain ⟨server,hs,rfl⟩ := serverStep_cases ht
  obtain ⟨hfollows,hcovered⟩ := server_covered h.follows h.covered hs hpc
  exact ⟨h.fitted,h.result,hfollows,hcovered⟩

theorem Agreement.createNewDevice {q : EncodingInput} (h : s.Agreement)
    (hpc : s.server.video.pc = .createDevice) (ht : s.createNewDevice q = .ok t) : t.Agreement := by
  have hother : s.server.video.pc ≠ .transferCapture ∧ s.server.video.pc ≠ .nextAction ∧
      s.server.video.pc ≠ .encode := by
    rw [hpc]
    decide
  unfold EncodingServer.createNewDevice at ht
  dsimp only at ht
  split_ifs at ht with hp hf
  · obtain ⟨m,hm,hfit,hseen⟩ := h.result hp hf
    refine Agreement.loopStep ?_ ht hother
    refine h.of_succeeds (succeeds_new rfl ?_ hfit hseen rfl) ?_
    · exact hm
    · rw [hpc]
      rfl
  · refine Agreement.loopStep ?_ ht hother
    exact ⟨h.fitted,h.result,h.follows,h.covered⟩

theorem Agreement.transferFrame {q : EncodingInput} (h : s.Agreement)
    (hpc : s.server.video.pc = .transferCapture) (ht : s.transferFrame q = .ok t) : t.Agreement := by
  unfold EncodingServer.transferFrame at ht
  cases hm : s.encoder with
  | none =>
    rw [hm] at ht
    cases ht
  | some m =>
    rw [hm] at ht
    dsimp only at ht
    cases hc : transferCapture s.deviceWidth s.deviceHeight m.encoder q.frame q.encoder with
    | error x =>
      rw [hc] at ht
      cases ht
    | ok p =>
      obtain ⟨r,forceIframe,e⟩ := p
      rw [hc] at ht
      dsimp only at ht
      have hcases := transferCapture_cases (h.fitted m hm) hc
      have hcovers := h.covered.covers (Or.inr hpc) m hm
      obtain ⟨server,hs,rfl⟩ := serverStep_cases ht
      dsimp only [VideoServer.step] at hs
      rw [hpc] at hs
      dsimp only [VideoServer.stepAt] at hs
      have hfit : ∀ m', some ({ m with encoder := e } : MadeEncoder) = some m' → m'.encoder.Fitted := by
        intro m' hm'
        obtain rfl := Option.some.inj hm'
        exact hcases.fitted
      split_ifs at hs with hr hforce
      · cases hs
        exact ⟨hfit,h.result,h.follows,trivial⟩
      · cases hs
        exact ⟨hfit,h.result,h.follows,Or.inl rfl⟩
      · cases hs
        refine ⟨hfit,h.result,h.follows,Or.inr fun m' hm' => ?_⟩
        obtain rfl := Option.some.inj hm'
        exact covers_of_continues hcovers (hcases.stream (by simpa using hforce))

theorem ltrGetNextAction_due {ltr : LtrState} (h : intraDue ltr = true) (id : UInt32) :
    (ltrGetNextAction ltr id).2.1.frameType = .intra := by
  have hcause : ltr.frameCounter = 0 ∨ ltr.intraFrameNeeded = true ∨
      (¬ltr.haveGoodLongTermFrame = true ∧
        ltr.frameCounter + 1 - ltr.intraFrameCounter ≥ ltrNewIntraFrameDelay) ∨
      (ltr.lastFrameIsBad = true ∧ ¬ltr.haveGoodLongTermFrame = true) := by
    simpa [intraDue, or_assoc] using h
  have hchoose : (ltrChooseFrame (ltrClearOldFrames ltr)).1.action.frameType = .intra := by
    rw [ltrChooseFrame]
    exact congrArg (fun p : LtrFrame × LtrState => p.1.action.frameType) (if_pos hcause)
  exact hchoose

theorem fitted_setLtrAction {e : VideoEncoder} (hfit : e.Fitted) (action : LtrAction) :
    (videoEncoderSetLtrAction e action).Fitted := by
  refine ⟨?_,hfit.sized⟩
  cases hfit.runs with
  | nvidia n active slot => exact .nvidia n active slot
  | ffmpeg f active encoder slots => exact .ffmpeg f active encoder slots

theorem Agreement.setLtrAction {q : EncodingInput} (h : s.Agreement)
    (hpc : s.server.video.pc = .nextAction)
    (hdue : ∀ m ∈ s.encoder, m.encoder.seen = [] ∨ m.encoder.wantsIntra = true →
      intraDue s.server.video.ltr = true) (ht : s.setLtrAction q = .ok t) : t.Agreement := by
  unfold EncodingServer.setLtrAction at ht
  dsimp only at ht
  obtain ⟨server,hs,rfl⟩ := serverStep_cases ht
  dsimp only [VideoServer.step] at hs
  rw [hpc] at hs
  obtain rfl := Except.ok.inj hs
  obtain ⟨sess,hsound,hltr⟩ := h.follows
  obtain ⟨sess',f,hltr',haction,hg,hnewest⟩ := hsound.tracking.next s.server.video.id
  rw [hltr] at hltr' haction
  rw [hltr'] at hnewest
  have hcovered := h.covered
  unfold CoveredAt at hcovered
  rw [hpc] at hcovered
  refine ⟨fun m' hm' => ?_,h.result,⟨sess',(Transition.get f hg).sound hsound,hltr'⟩,f,hnewest,?_,?_,?_⟩
  · obtain ⟨m,hm,rfl⟩ := Option.map_eq_some_iff.mp hm'
    exact fitted_setLtrAction (h.fitted m hm) _
  · exact congrArg LtrAction.frameType haction.symm
  · intro m' hm'
    obtain ⟨m,hm,rfl⟩ := Option.map_eq_some_iff.mp hm'
    exact haction.symm
  · dsimp only
    rw [← hltr']
    by_cases hintra : IssuesIntra sess.ltr f sess'.ltr
    · exact Or.inl ⟨hintra.type,hintra.intraCounter.trans hg.appends.frameCounter.symm⟩
    · obtain ⟨htype,hsince,hle,hlt⟩ := hg.reference_recent hsound hintra
      refine Or.inr ⟨htype,fun m' hm' => ?_⟩
      obtain ⟨m,hm,rfl⟩ := Option.map_eq_some_iff.mp hm'
      have hnot : ¬intraDue s.server.video.ltr = true := by
        intro hd
        rw [haction] at htype
        exact htype (ltrGetNextAction_due hd _)
      have hold : ¬(m.encoder.seen = [] ∨ m.encoder.wantsIntra = true) := fun ho => hnot (hdue m hm ho)
      obtain ⟨hseen,hwants⟩ := not_or.mp hold
      have hcovers : Covers m.encoder s.server.video.ltr := by
        refine hcovered.resolve_left (fun hneeded => hnot ?_) m hm
        simp [intraDue, hneeded]
      have hall := hcovers.resolve_left hseen
      rw [← hltr] at hall
      refine ⟨Bool.eq_false_iff.mpr hwants,hseen,hall _ hle hlt,fun c hc hlt => hall c ?_ ?_⟩
      · rw [← hsince]
        exact hc
      · have hcounter := hg.appends.frameCounter.trans hg.appends.counter
        rw [hcounter] at hlt
        exact Nat.lt_succ_iff.mp hlt

theorem Prepared.nextFrameType {server : VideoServer} {f : LtrFrame} {m : MadeEncoder}
    (h : Prepared server (some m) f) : m.encoder.nextFrameType = server.video.frameType := by
  rw [h.frameType, VideoEncoder.nextFrameType, h.action m rfl]
  rcases h.kind with ⟨haction,-⟩ | ⟨-,hrefers⟩
  · rw [haction]
    cases m.encoder.wantsIntra <;> rfl
  · rw [(hrefers m rfl).wantsIntra]
    rfl

theorem Prepared.index {server : VideoServer} {f : LtrFrame} {m : MadeEncoder}
    (h : Prepared server (some m) f) (hintra : m.encoder.wantsIntra = true ∨ m.encoder.nextLtrAction.frameType = .intra) :
    m.encoder.nextLtrAction.longTermFrameIndex = 0 := by
  rw [h.action m rfl] at hintra ⊢
  rcases h.kind with ⟨haction,-⟩ | ⟨htype,hrefers⟩
  · rw [haction]
  · rcases hintra with hwants | hintra
    · cases (hrefers m rfl).wantsIntra.symm.trans hwants
    · exact absurd hintra htype

theorem Agreement.prepared (h : s.Agreement) (hpc : s.server.video.pc = .encode) :
    ∃ f, Prepared s.server s.encoder f := by
  have hcovered := h.covered
  unfold CoveredAt at hcovered
  rw [hpc] at hcovered
  exact hcovered

theorem Agreement.encodeFrame {q : EncodingInput} (h : s.Agreement) (hpc : s.server.video.pc = .encode)
    (htakes : ∀ m ∈ s.encoder, m.encoder.takes s.server.video.ltr.frameCounter q.encoder = true)
    (ht : s.encodeFrame q = .ok t) : t.Agreement := by
  obtain ⟨f,hprepared⟩ := h.prepared hpc
  unfold EncodingServer.encodeFrame at ht
  cases hm : s.encoder with
  | none =>
    rw [hm] at ht
    cases ht
  | some m =>
    rw [hm] at ht hprepared
    dsimp only at ht
    cases hc : videoEncoderEncode m.encoder s.server.video.ltr.frameCounter q.encoder with
    | error x =>
      rw [hc] at ht
      cases ht
    | ok p =>
      obtain ⟨r,e⟩ := p
      rw [hc] at ht
      dsimp only at ht
      split_ifs at ht
      have hfit : ∀ m', some ({ m with encoder := e } : MadeEncoder) = some m' → m'.encoder.Fitted := by
        intro m' hm'
        obtain rfl := Option.some.inj hm'
        exact (videoEncoderEncode_settings (h.fitted m hm) hc).1
      obtain ⟨server,hs,rfl⟩ := serverStep_cases ht
      dsimp only [VideoServer.step] at hs
      rw [hpc] at hs
      dsimp only [VideoServer.stepAt] at hs
      cases r with
      | false =>
        obtain rfl := Except.ok.inj hs
        exact ⟨hfit,h.result,h.follows,trivial⟩
      | true =>
        obtain rfl := Except.ok.inj hs
        refine ⟨hfit,h.result,h.follows,fun m' hm' => Or.inr fun c hle hlt => ?_⟩
        obtain rfl := Option.some.inj hm'
        obtain ⟨-,hseen⟩ := videoEncoderEncode_takes (h.fitted m hm) (htakes m hm) hc
        have hlt : c ≤ s.server.video.ltr.frameCounter := hlt
        refine hseen c ((lt_or_eq_of_le hlt).imp_left fun hlt => ?_)
        rcases hprepared.kind with ⟨-,hintra⟩ | ⟨-,hrefers⟩
        · have hle : s.server.video.ltr.intraFrameCounter ≤ c := hle
          omega
        · exact (hrefers m rfl).covered c hle hlt

theorem video_agreement {q : EncodingInput} (h : s.Agreement) (hagrees : s.Agrees (.video q))
    (ht : s.videoStep q = .ok t) : t.Agreement := by
  obtain ⟨hdue,htakes⟩ := hagrees
  have hother : ∀ {u : EncodingServer} {x : VideoInput}, u.Agreement → u.server.video.pc = s.server.video.pc →
      s.server.video.pc ≠ .transferCapture ∧ s.server.video.pc ≠ .nextAction ∧ s.server.video.pc ≠ .encode →
      u.serverStep (.video x) = .ok t → t.Agreement := by
    intro u x hu hpc hs ht
    rw [← hpc] at hs
    exact hu.loopStep ht hs
  unfold videoStep at ht
  cases hpc : s.server.video.pc <;> rw [hpc] at ht hother
  case reconfigureDevice =>
    dsimp only at ht
    split_ifs at ht
    · refine hother ?_ ?_ (by decide) ht
      · exact ⟨h.fitted,h.result,h.follows,h.covered⟩
      · exact hpc
    · exact hother h hpc (by decide) ht
  case createDevice =>
    dsimp only at ht
    split_ifs at ht
    · exact hother h hpc (by decide) ht
    · exact h.createNewDevice hpc ht
  case readUpdateFrameAck =>
    dsimp only at ht
    split_ifs at ht
    refine hother ?_ ?_ (by decide) ht
    · exact ⟨h.fitted,h.result,h.follows,h.covered⟩
    · exact hpc
  case captureFailed =>
    dsimp only at ht
    rcases destroyNvidia_cases s with ⟨heq,-⟩ | ⟨heq,-⟩
    · have hgone : s.Succeeds s.destroyEncoder := by
        refine ⟨rfl,fun m' hm' => ?_,h.result⟩
        cases hm'
      rw [heq] at ht
      refine hother (h.of_succeeds hgone ?_) hpc (by decide) ht
      rw [hpc]
      rfl
    · rw [heq] at ht
      exact hother h hpc (by decide) ht
  case transferCapture => exact h.transferFrame hpc ht
  case nextAction => exact h.setLtrAction hpc (hdue hpc) ht
  case encode => exact h.encodeFrame hpc (htakes hpc) ht
  all_goals exact hother h hpc (by decide) ht

theorem step_agreement (mv : EncodingMove) (h : s.Agreement) (hagrees : s.Agrees mv) (ht : s.step mv = .ok t) :
    t.Agreement := by
  cases mv with
  | receive m => exact h.messageStep (fun q hq => by cases hq) ht
  | handle => exact h.messageStep (fun q hq => by cases hq) ht
  | video q => exact video_agreement h hagrees ht
  | update n q =>
    dsimp only [step] at ht
    split_ifs at ht with hp
    exact h.updateStage hp.1 ht
  | factory q =>
    dsimp only [step] at ht
    split_ifs at ht
    exact h.factory ht

theorem initial_agreement : Agreement {} where
  fitted _ hm := by cases hm
  result hp := by cases hp
  follows := ⟨Session.start,sound_start,rfl⟩
  covered := fun _ hm => by cases hm

theorem Agreement.asserts {q : EncodingInput} (h : s.Agreement) (hagrees : s.Agrees (.video q)) : s.Asserts q := by
  intro hpc
  obtain ⟨f,hprepared⟩ := h.prepared hpc
  have htakes := hagrees.2 hpc
  have hstep : s.step (.video q) = s.encodeFrame q := by
    dsimp only [step]
    unfold videoStep
    rw [hpc]
  rw [hstep]
  unfold EncodingServer.encodeFrame
  cases hm : s.encoder with
  | none => exact ⟨fun h => (by cases h),fun h => (by cases h)⟩
  | some m =>
    rw [hm] at hprepared
    dsimp only
    cases hc : videoEncoderEncode m.encoder s.server.video.ltr.frameCounter q.encoder with
    | error x =>
      refine ⟨fun h => (by cases h),fun hx => ?_⟩
      obtain rfl : x = .longTermFrameIndex := by
        cases hx
        rfl
      obtain ⟨hintra,hindex⟩ := videoEncoderEncode_index (h.fitted m hm) hc
      exact hindex (hprepared.index hintra)
    | ok p =>
      obtain ⟨r,e⟩ := p
      dsimp only
      rw [if_neg]
      · unfold serverStep
        dsimp only
        generalize VideoServer.step s.server _ = result
        cases result <;> exact ⟨fun h => (by cases h),fun h => (by cases h)⟩
      · rintro ⟨hr,htype⟩
        subst hr
        obtain ⟨hframe,-⟩ := videoEncoderEncode_takes (h.fitted m hm) (htakes m hm) hc
        exact htype (hframe.trans hprepared.nextFrameType)

theorem Agreement.knowsReference (h : s.Agreement) : s.KnowsReference := by
  intro hpc m hm
  obtain ⟨f,hprepared⟩ := h.prepared hpc
  refine ⟨f,hprepared.newest,hprepared.action m hm,fun hseen => ?_,fun htype => ?_⟩
  · rcases hprepared.kind with ⟨haction,-⟩ | ⟨-,hrefers⟩
    · rw [haction]
    · exact absurd hseen (hrefers m hm).seen
  · rcases hprepared.kind with ⟨haction,-⟩ | ⟨-,hrefers⟩
    · rw [haction] at htype
      exact absurd rfl htype
    · exact (hrefers m hm).reference

/-- In every run in which an INTRA frame is due whenever the encoder is going to make an IDR
frame, no assertion about its type fails and the encoder has seen what a frame refers to. -/
theorem references_known (moves : List EncodingMove) (hagrees : Run.EachOk step Agrees {} moves)
    (hrun : Run.run step {} moves = .ok t) :
    (∀ q, t.Agrees (.video q) → t.Asserts q) ∧ t.KnowsReference := by
  have h : t.Agreement :=
    Run.EachOk.invariant (fun _ mv _ => step_agreement mv) initial_agreement hagrees hrun
  exact ⟨fun q => h.asserts,h.knowsReference⟩

instance (s : EncodingServer) : ∀ mv, Decidable (s.Agrees mv)
  | .video q => inferInstanceAs (Decidable
      ((s.server.video.pc = .nextAction → ∀ m ∈ s.encoder,
        m.encoder.seen = [] ∨ m.encoder.wantsIntra = true → intraDue s.server.video.ltr = true) ∧
      (s.server.video.pc = .encode → ∀ m ∈ s.encoder,
        m.encoder.takes s.server.video.ltr.frameCounter q.encoder = true)))
  | .update _ _ => isTrue trivial
  | .receive _ => isTrue trivial
  | .handle => isTrue trivial
  | .factory _ => isTrue trivial

def codecChange (requests : List EncodingMove) (before after : ℕ) : List EncodingMove :=
  firstUpdate ⟨2000,500,.h264,0⟩ {} ++ captures 13 {} ++ requests ++ captures before {} ++
    [.update ⟨2000,500,.h265,0⟩ {}] ++ captures after {}

def resized : List EncodingMove := .receive (.dimensions ⟨1024,768,96⟩) :: List.replicate 5 .handle

def encodeOutcome (s : EncodingServer) : Bool × Option (List ℕ) × Option VideoFrameType :=
  (decide (s.server.video.pc = .encode),s.encoder.map (fun m => m.encoder.seen),
    s.server.video.ltr.inflightList.getLast?.map (fun f => f.action.frameType))

/-- The codec changes along with the size, for which the stream restarts. -/
theorem references_known_resized :
    ∃ t, Run.run step {} (codecChange resized 9 12) = .ok t ∧ t.encodeOutcome = (true,some [],some .intra) ∧
      (∀ q, t.Agrees (.video q) → t.Asserts q) ∧ t.KnowsReference := by
  have houtcome : (Run.run step {} (codecChange resized 9 12)).toOption.map encodeOutcome =
      some (true,some [],some .intra) := by
    decide +kernel
  cases hrun : Run.run step {} (codecChange resized 9 12) with
  | error e =>
    rw [hrun] at houtcome
    cases houtcome
  | ok t =>
    rw [hrun] at houtcome
    exact ⟨t,rfl,Option.some.inj houtcome,references_known _ (by decide +kernel) hrun⟩

/-- The codec changes alone: the encoder is reset, and the frame chosen is a normal one. -/
theorem codec_change_unnoticed : ¬∀ (moves : List EncodingMove) (t : EncodingServer),
    Run.run step {} moves = .ok t → (∀ q, t.Asserts q) ∧ t.KnowsReference := by
  intro h
  have houtcome : (Run.run step {} (codecChange [] 6 9)).toOption.map encodeOutcome =
      some (true,some [],some .normal) := by
    decide +kernel
  cases hrun : Run.run step {} (codecChange [] 6 9) with
  | error e =>
    rw [hrun] at houtcome
    cases houtcome
  | ok t =>
    rw [hrun] at houtcome
    have hknows := (h _ t hrun).2
    have heq := Option.some.inj houtcome
    simp only [encodeOutcome, Prod.mk.injEq, decide_eq_true_eq, Option.map_eq_some_iff] at heq
    obtain ⟨hpc,⟨m,hm,hseen⟩,f,hf,htype⟩ := heq
    obtain ⟨f',hf',-,hintra,-⟩ := hknows hpc m hm
    obtain rfl := Option.some.inj (hf.symm.trans hf')
    cases htype.symm.trans (hintra hseen)

end EncodingServer

end Whist.Server
