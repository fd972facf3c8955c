import Whist.Server.EncodingServer
import Whist.Video.EncoderCases

/-! # Whether the encoder follows the settings -/
namespace Whist.Server
open Whist.Ltr Whist.Codec

namespace EncodingServer

/-- At the end of an update after which `update_encoder` is false, the encoder in use is set
as the iteration wants it. -/
def FollowsSettings (s : EncodingServer) : Prop :=
  s.server.video.pc = .readUpdateFrameAck → s.updated = true → s.updateEncoder = false →
    ∃ m, s.encoder = some m ∧ m.encoder.settings = some s.settings

def Holds (s : EncodingServer) (serial : ℕ) : Prop :=
  (∃ m, s.encoder = some m ∧ m.serial = serial) ∨
    s.pendingEncoder = true ∧ s.encoderFinished = true ∧
      ∃ m, s.encoderFactoryResult = some m ∧ m.serial = serial

def LosesNone (s : EncodingServer) : Prop := ∀ serial < s.made, serial ∈ s.destroyed ∨ s.Holds serial

def TakesPending (s : EncodingServer) : Prop :=
  s.pendingEncoder = true → s.encoderFinished = true → ∀ n q t, s.updateStage n q = .ok t →
    t.encoder = s.encoderFactoryResult ∧ t.pendingEncoder = false

/-- A pending encoder is taken only by an update that wants what was ordered, a device is not
created meanwhile, and a switch of encoders keeps the settings. -/
def Keeps (s : EncodingServer) : EncodingMove → Prop
  | .update n _ => s.pendingEncoder = true → s.encoderFinished = true → s.encoderFactory = s.wanted n
  | .video q =>
    (s.server.video.pc = .createDevice → s.server.video.device = false → q.video.succeeds = true →
      s.pendingEncoder = false) ∧
    (s.server.video.pc = .transferCapture → ∀ m ∈ s.encoder, m.encoder.keepsSettings q.encoder = true)
  | _ => True

def DeviceAt (server : VideoServer) : Prop :=
  match server.video.pc with
  | .restartAfterCreate | .readUpdateFrameAck => server.video.device = true
  | .captureFailed => server.video.device = false
  | _ => True

structure Pending (s : EncodingServer) : Prop where
  updateEncoder : s.updateEncoder = true
  encoder : ∃ m, s.encoder = some m ∧ m.encoder.activeEncoder = .ffmpeg
  result : s.encoderFinished = true → ∃ m, s.encoderFactoryResult = some m ∧ m.encoder.Fitted ∧
    m.encoder.settings = some s.encoderFactory

structure Current (s : EncodingServer) (e : VideoEncoder) : Prop where
  settings : e.settings = some s.settings
  wanted : ∃ n, s.lastNetworkSettings = some n ∧ s.settings = s.wanted n

structure Inv (s : EncodingServer) : Prop where
  fitted : ∀ m, s.encoder = some m → m.encoder.Fitted
  current : s.updateEncoder = false → ∀ m, s.encoder = some m → s.Current m.encoder
  missing : s.encoder = none → s.server.video.device = true → s.updateEncoder = true
  device : DeviceAt s.server
  pending : s.pendingEncoder = true → s.Pending
  kept : s.LosesNone

variable {s t : EncodingServer}

theorem Inv.followsSettings (h : s.Inv) : s.FollowsSettings := by
  intro hpc _ hupdate
  have hdevice := h.device
  unfold DeviceAt at hdevice
  rw [hpc] at hdevice
  cases hm : s.encoder with
  | none =>
    rw [h.missing hm hdevice] at hupdate
    cases hupdate
  | some m => exact ⟨m,rfl,(h.current hupdate m hm).settings⟩

theorem initial_inv : Inv {} where
  fitted _ hm := by cases hm
  current _ _ hm := by cases hm
  missing _ hd := by cases hd
  device := trivial
  pending hp := by cases hp
  kept serial hlt := absurd hlt (Nat.not_lt_zero serial)

theorem Holds.encoder {serial : ℕ} (h : s.Holds serial) (hp : s.pendingEncoder = false ∨ s.encoderFinished = false) :
    ∃ m, s.encoder = some m ∧ m.serial = serial := by
  rcases h with h | ⟨hpending,hfinished,-⟩
  · exact h
  · rcases hp with hp | hp
    · rw [hp] at hpending
      cases hpending
    · rw [hp] at hfinished
      cases hfinished

theorem mem_destroyed {serial : ℕ} {m : MadeEncoder} (hm : s.encoder = some m) (hserial : m.serial = serial) :
    serial ∈ s.destroyed ++ (s.encoder.map MadeEncoder.serial).toList := by
  rw [hm, ← hserial]
  exact List.mem_append_right _ (by simp)

theorem multithreadedEncoderFactory_cases {q : EncoderInput} (h : s.multithreadedEncoderFactory q = .ok t) :
    ∃ e, e.Fitted ∧ e.settings = some s.encoderFactory ∧ e.seen = [] ∧ t = { s with
      encoderFactoryResult := some ⟨s.made,e⟩, made := s.made + 1, encoderFinished := true } := by
  unfold multithreadedEncoderFactory at h
  cases hc : createVideoEncoder s.encoderFactory q with
  | error x =>
    rw [hc] at h
    cases h
  | ok created =>
    rw [hc] at h
    cases created with
    | none => cases h
    | some e =>
      obtain ⟨hfit,hsettings,hseen⟩ := createVideoEncoder_cases hc
      exact ⟨e,hfit,hsettings,hseen,(Except.ok.inj h).symm⟩

theorem destroyNvidia_cases (s : EncodingServer) :
    s.destroyNvidia = s.destroyEncoder ∧ (∃ m, s.encoder = some m ∧ m.encoder.activeEncoder = .nvidia) ∨
      s.destroyNvidia = s ∧ ∀ m, s.encoder = some m → m.encoder.activeEncoder = .ffmpeg := by
  unfold destroyNvidia
  cases hm : s.encoder with
  | none => exact Or.inr ⟨rfl,fun m hm => by cases hm⟩
  | some m =>
    dsimp only
    cases hactive : m.encoder.activeEncoder with
    | nvidia => exact Or.inl ⟨if_pos rfl,m,rfl,hactive⟩
    | ffmpeg =>
      refine Or.inr ⟨if_neg (by decide),fun m' hm' => ?_⟩
      rw [← Option.some.inj hm', hactive]

theorem tryReconfigure_cases {settings : EncoderSettings} {q : EncoderInput}
    (hfit : ∀ m, s.encoder = some m → m.encoder.Fitted) (h : s.tryReconfigure settings q = .ok t) :
    (∃ m e, s.encoder = some m ∧ m.encoder.activeEncoder = .nvidia ∧ e.Fitted ∧ e.settings = some settings ∧
      (e.seen = [] ∨ m.encoder.Continues e) ∧
        t = { s with encoder := some { m with encoder := e }, updateEncoder := false }) ∨
    (∃ m e, s.encoder = some m ∧ e.Fitted ∧ e.activeEncoder = m.encoder.activeEncoder ∧
      m.encoder.Continues e ∧ t = { s with encoder := some { m with encoder := e } }) ∨
    s.encoder = none ∧ t = s := by
  unfold tryReconfigure at h
  cases hm : s.encoder with
  | none =>
    rw [hm] at h
    exact Or.inr (Or.inr ⟨rfl,(Except.ok.inj h).symm⟩)
  | some m =>
    rw [hm] at h
    dsimp only at h
    cases hr : reconfigureEncoder m.encoder settings q with
    | error x =>
      rw [hr] at h
      cases h
    | ok p =>
      obtain ⟨r,e⟩ := p
      rw [hr] at h
      obtain ⟨hfit',hactive,hcases⟩ := reconfigureEncoder_cases (hfit m hm) hr
      rcases hcases with ⟨rfl,-,hcontinues⟩ | ⟨rfl,hnvidia,hsettings,hstream⟩
      · refine Or.inr (Or.inl ⟨m,e,rfl,hfit',hactive,hcontinues,?_⟩)
        rw [← Except.ok.inj h, Bool.not_false, Bool.and_true]
      · refine Or.inl ⟨m,e,rfl,hnvidia,hfit',hsettings,hstream,?_⟩
        rw [← Except.ok.inj h, Bool.not_true, Bool.and_false]

structure Updating (s : EncodingServer) (n : NetworkSettings) : Prop where
  fitted : ∀ m, s.encoder = some m → m.encoder.Fitted
  updateEncoder : s.updateEncoder = true
  lastNetworkSettings : s.lastNetworkSettings = some n
  settings : s.settings = s.wanted n
  device : DeviceAt s.server
  pending : s.pendingEncoder = true → s.Pending
  ordered : s.pendingEncoder = true → s.encoderFinished = true → s.encoderFactory = s.settings
  kept : s.LosesNone

theorem Updating.makes {n : NetworkSettings} {q : EncoderInput} {u : EncodingServer} (h : s.Updating n)
    (hu : u.multithreadedEncoderFactory q = .ok t) (hp : s.pendingEncoder = false) (hmade : u.made = s.made) (hdestroyed : u.destroyed = s.destroyed ++ (s.encoder.map MadeEncoder.serial).toList)
    (hserver : u.server = s.server) (hlast : u.lastNetworkSettings = s.lastNetworkSettings)
    (hsettings : u.settings = s.settings) (hwanted : u.wanted n = s.wanted n)
    (hordered : u.encoderFactory = s.settings) :
    Inv { t with encoder := t.encoderFactoryResult, pendingEncoder := false, updateEncoder := false } := by
  obtain ⟨e,hfit,hset,-,rfl⟩ := multithreadedEncoderFactory_cases hu
  constructor
  · intro m hm
    obtain rfl := Option.some.inj hm
    exact hfit
  · intro _ m hm
    obtain rfl := Option.some.inj hm
    refine ⟨?_,n,hlast.trans h.lastNetworkSettings,?_⟩
    · dsimp only
      rw [hset, hordered, hsettings]
    · exact hsettings.trans (h.settings.trans hwanted.symm)
  · intro hm
    cases hm
  · dsimp only
    rw [hserver]
    exact h.device
  · intro hp'
    cases hp'
  · intro serial hlt
    rcases Nat.lt_succ_iff_lt_or_eq.mp hlt with hlt | rfl
    · rw [hmade] at hlt
      left
      dsimp only
      rw [hdestroyed]
      rcases h.kept serial hlt with hd | hh
      · exact List.mem_append_left _ hd
      · obtain ⟨m,hm,hserial⟩ := hh.encoder (Or.inl hp)
        exact mem_destroyed hm hserial
    · exact Or.inr (Or.inl ⟨_,rfl,rfl⟩)

theorem Updating.replaceEncoder {n : NetworkSettings} {q : EncoderInput} (h : s.Updating n)
    (ht : s.replaceEncoder s.settings q = .ok t) : t.Inv := by
  unfold EncodingServer.replaceEncoder at ht
  split_ifs at ht with hp hf
  · cases ht
    obtain ⟨m,hresult,hfit,hset⟩ := (h.pending hp).result hf
    constructor
    · intro m' hm'
      obtain rfl := Option.some.inj (hresult.symm.trans hm')
      exact hfit
    · intro _ m' hm'
      obtain rfl := Option.some.inj (hresult.symm.trans hm')
      exact ⟨hset.trans (congrArg some (h.ordered hp hf)),n,h.lastNetworkSettings,h.settings⟩
    · intro hm'
      cases hresult.symm.trans hm'
    · exact h.device
    · intro hp'
      cases hp'
    · intro serial hlt
      rcases h.kept serial hlt with hd | ⟨m',hm',hserial⟩ | ⟨-,-,hh⟩
      · exact Or.inl (List.mem_append_left _ hd)
      · exact Or.inl (mem_destroyed hm' hserial)
      · exact Or.inr (Or.inl hh)
  · cases ht
    exact ⟨h.fitted,fun hu => (by rw [h.updateEncoder] at hu; cases hu),fun _ _ => h.updateEncoder,h.device,
      h.pending,h.kept⟩
  · have hp : s.pendingEncoder = false := by simpa using hp
    dsimp only at ht
    have hcases := destroyNvidia_cases { s with encoderFinished := false, encoderFactory := s.settings }
    generalize destroyNvidia { s with encoderFinished := false, encoderFactory := s.settings } = u at ht hcases
    rcases hcases with ⟨rfl,-⟩ | ⟨rfl,hffmpeg⟩
    · dsimp only [destroyEncoder] at ht
      generalize hu : multithreadedEncoderFactory _ q = r at ht
      cases r with
      | error x => cases ht
      | ok v =>
        cases ht
        exact h.makes hu hp rfl rfl rfl rfl rfl rfl rfl
    · dsimp only at ht hffmpeg
      cases hm : s.encoder with
      | none =>
        rw [hm] at ht
        dsimp only at ht
        generalize hu : multithreadedEncoderFactory _ q = r at ht
        cases r with
        | error x => cases ht
        | ok v =>
          cases ht
          refine h.makes hu hp rfl ?_ rfl rfl rfl rfl rfl
          rw [hm]
          simp
      | some m =>
        rw [hm] at ht
        cases ht
        refine ⟨fun m' hm' => ?_,fun hu => ?_,fun hno => (by cases hno),h.device,fun _ => ⟨h.updateEncoder,
          ⟨m,rfl,hffmpeg m hm⟩,fun hf => (by cases hf)⟩,fun serial hlt => ?_⟩
        · exact h.fitted m' (hm.trans hm')
        · have hu : s.updateEncoder = false := hu
          rw [h.updateEncoder] at hu
          cases hu
        · rcases h.kept serial hlt with hd | hh
          · exact Or.inl hd
          · obtain ⟨m',hm',hserial⟩ := hh.encoder (Or.inl hp)
            exact Or.inr (Or.inl ⟨m',hm.symm.trans hm',hserial⟩)

def withEncoder (s : EncodingServer) (m : MadeEncoder) (e : VideoEncoder) : EncodingServer :=
  { s with encoder := some { m with encoder := e } }

theorem Holds.withEncoder {serial : ℕ} {m : MadeEncoder} {e : VideoEncoder} (h : s.Holds serial)
    (hm : s.encoder = some m) : (s.withEncoder m e).Holds serial := by
  rcases h with ⟨m',hm',hserial⟩ | h
  · obtain rfl := Option.some.inj (hm.symm.trans hm')
    exact Or.inl ⟨_,rfl,hserial⟩
  · exact Or.inr h

theorem Pending.withEncoder {m : MadeEncoder} {e : VideoEncoder} (h : s.Pending) (hm : s.encoder = some m)
    (hactive : e.activeEncoder = m.encoder.activeEncoder) : (s.withEncoder m e).Pending := by
  obtain ⟨m',hm',hffmpeg⟩ := h.encoder
  obtain rfl := Option.some.inj (hm.symm.trans hm')
  exact ⟨h.updateEncoder,⟨_,rfl,hactive.trans hffmpeg⟩,h.result⟩

theorem updateStage_inv {n : NetworkSettings} {q : EncoderInput} (h : s.Inv)
    (hkeeps : s.pendingEncoder = true → s.encoderFinished = true → s.encoderFactory = s.wanted n)
    (ht : s.updateStage n q = .ok t) : t.Inv := by
  unfold updateStage at ht
  split_ifs at ht
  dsimp only at ht
  cases hu : (s.updateEncoder || decide (s.lastNetworkSettings ≠ some n)) with
  | false =>
    rw [hu] at ht
    cases ht
    obtain ⟨hupdate,hlast⟩ := Bool.or_eq_false_iff.mp hu
    have hlast : s.lastNetworkSettings = some n := by simpa using hlast
    constructor
    · exact h.fitted
    · intro _ m hm
      have hcurrent := h.current hupdate m hm
      obtain ⟨n',hn',hwanted⟩ := hcurrent.wanted
      obtain rfl := Option.some.inj (hlast.symm.trans hn')
      exact ⟨hcurrent.settings.trans (congrArg some hwanted),n,rfl,rfl⟩
    · intro hm hd
      exact absurd (h.missing hm hd) (by rw [hupdate]; decide)
    · exact h.device
    · intro hp
      exact absurd (h.pending hp).updateEncoder (by rw [hupdate]; decide)
    · exact h.kept
  | true =>
    rw [hu, if_pos rfl] at ht
    have hupdating : Updating { s with
        updateEncoder := true, lastNetworkSettings := some n, settings := s.wanted n, updated := true } n :=
      ⟨h.fitted,rfl,rfl,rfl,h.device,fun hp => ⟨rfl,(h.pending hp).encoder,(h.pending hp).result⟩,hkeeps,h.kept⟩
    generalize hs₁ : ({ s with
      updateEncoder := true, lastNetworkSettings := some n, settings := s.wanted n, updated := true } :
        EncodingServer) = s₁ at ht hupdating
    have hsettings : s.wanted n = s₁.settings := by rw [← hs₁]
    rw [hsettings] at ht
    unfold updateVideoEncoder at ht
    cases hr : s₁.tryReconfigure s₁.settings q with
    | error x =>
      rw [hr] at ht
      cases ht
    | ok s₂ =>
      rw [hr] at ht
      dsimp only at ht
      rcases tryReconfigure_cases hupdating.fitted hr with
        ⟨m,e,hm,hnvidia,hfit,hset,-,rfl⟩ | ⟨m,e,hm,hfit,hactive,-,rfl⟩ | ⟨hm,rfl⟩
      · -- Reconfigured: nothing is pending, as the encoder is one of nvidia.
        cases ht
        constructor
        · intro m' hm'
          obtain rfl := Option.some.inj hm'
          exact hfit
        · intro _ m' hm'
          obtain rfl := Option.some.inj hm'
          exact ⟨hset,n,hupdating.lastNetworkSettings,hupdating.settings⟩
        · intro hno
          cases hno
        · exact hupdating.device
        · intro hp
          obtain ⟨m',hm',hffmpeg⟩ := (hupdating.pending hp).encoder
          obtain rfl := Option.some.inj (hm.symm.trans hm')
          rw [hnvidia] at hffmpeg
          cases hffmpeg
        · intro serial hlt
          exact (hupdating.kept serial hlt).imp_right fun hh => @Holds.withEncoder s₁ serial m e hh hm
      · rw [if_pos hupdating.updateEncoder] at ht
        refine Updating.replaceEncoder (n := n) ?_ ht
        refine ⟨fun m' hm' => ?_,hupdating.updateEncoder,hupdating.lastNetworkSettings,hupdating.settings,
          hupdating.device,fun hp => (hupdating.pending hp).withEncoder hm hactive,hupdating.ordered,
          fun serial hlt => ?_⟩
        · obtain rfl := Option.some.inj hm'
          exact hfit
        · exact (hupdating.kept serial hlt).imp_right fun hh => @Holds.withEncoder s₁ serial m e hh hm
      · rw [if_pos hupdating.updateEncoder] at ht
        exact hupdating.replaceEncoder ht

theorem Inv.takesPending (h : s.Inv) : s.TakesPending := by
  intro hp hf n q t ht
  have hpending := h.pending hp
  obtain ⟨m,hm,hffmpeg⟩ := hpending.encoder
  unfold updateStage at ht
  split_ifs at ht
  dsimp only at ht
  rw [hpending.updateEncoder, Bool.true_or, if_pos rfl] at ht
  unfold updateVideoEncoder at ht
  generalize hs₁ : ({ s with
    updateEncoder := true, lastNetworkSettings := some n, settings := s.wanted n, updated := true } :
      EncodingServer) = s₁ at ht
  have hresult : s₁.encoderFactoryResult = s.encoderFactoryResult := by rw [← hs₁]
  have hp₁ : s₁.pendingEncoder = true := by rw [← hs₁]; exact hp
  have hf₁ : s₁.encoderFinished = true := by rw [← hs₁]; exact hf
  have hm₁ : s₁.encoder = some m := by rw [← hs₁]; exact hm
  have hu₁ : s₁.updateEncoder = true := by rw [← hs₁]
  cases hr : s₁.tryReconfigure (s.wanted n) q with
  | error x =>
    rw [hr] at ht
    cases ht
  | ok s₂ =>
    rw [hr] at ht
    dsimp only at ht
    have hfit : ∀ m', s₁.encoder = some m' → m'.encoder.Fitted := by
      intro m' hm'
      obtain rfl := Option.some.inj (hm₁.symm.trans hm')
      exact h.fitted m hm
    rcases tryReconfigure_cases hfit hr with
      ⟨m',e,hm',hnvidia,-⟩ | ⟨m',e,hm',-,-,-,rfl⟩ | ⟨hno,-⟩
    · obtain rfl := Option.some.inj (hm₁.symm.trans hm')
      rw [hffmpeg] at hnvidia
      cases hnvidia
    · rw [if_pos hu₁, EncodingServer.replaceEncoder, if_pos hp₁, if_pos hf₁] at ht
      cases ht
      exact ⟨hresult,rfl⟩
    · cases hno.symm.trans hm₁

theorem stepAt_device {server server' : VideoServer} {q : VideoInput} (hat : DeviceAt server)
    (h : server.stepAt q server.video.pc = .ok server') :
    DeviceAt server' ∧ (server'.video.device = true → server.video.device = true ∨
      server.video.pc = .createDevice ∧ q.succeeds = true) := by
  unfold DeviceAt at hat
  cases hpc : server.video.pc <;> rw [hpc] at h hat
  all_goals dsimp only [VideoServer.stepAt] at h
  case createDevice =>
    split_ifs at h with hd hq
    · cases h
      exact ⟨hd,Or.inl⟩
    · cases h
      exact ⟨rfl,fun _ => Or.inr ⟨rfl,hq⟩⟩
    · cases h
      exact ⟨trivial,Or.inl⟩
  case restartAfterCreate =>
    cases h
    exact ⟨hat,Or.inl⟩
  case markFrameReceived =>
    cases hm : ltrMarkFrameReceived server.video.ltr server.state.frameAckId with
    | error e =>
      rw [hm] at h
      cases h
    | ok r =>
      rw [hm] at h
      cases h
      exact ⟨trivial,Or.inl⟩
  case restartOrBroken =>
    split_ifs at h
    · cases h
      exact ⟨trivial,Or.inl⟩
    · cases hm : ltrMarkStreamBroken server.video.ltr with
      | error e =>
        rw [hm] at h
        cases h
      | ok r =>
        rw [hm] at h
        cases h
        exact ⟨trivial,Or.inl⟩
  case captureScreen =>
    split_ifs at h
    · cases h
      exact ⟨rfl,fun hd => by cases hd⟩
    all_goals
      cases h
      exact ⟨trivial,Or.inl⟩
  case reconfigureDevice =>
    split_ifs at h with hd hq
    · cases h
      exact ⟨trivial,fun _ => Or.inl hd⟩
    · cases h
      exact ⟨trivial,Or.inl⟩
  all_goals
    first
    | (cases h; exact ⟨trivial,Or.inl⟩)
    | (split_ifs at h <;> (cases h; exact ⟨trivial,Or.inl⟩))
    | cases h

theorem serverStep_cases {mv : VideoServer.Move} (h : s.serverStep mv = .ok t) :
    ∃ server, s.server.step mv = .ok server ∧ t = { s with server := server } := by
  unfold serverStep at h
  cases hs : s.server.step mv with
  | error e =>
    rw [hs] at h
    cases h
  | ok server =>
    rw [hs] at h
    exact ⟨server,rfl,(Except.ok.inj h).symm⟩

theorem Inv.serverStep (h : s.Inv) {mv : VideoServer.Move} (ht : s.serverStep mv = .ok t)
    (hcreate : ∀ q, mv = .video q → s.server.video.pc = .createDevice → q.succeeds = true →
      s.server.video.device = true ∨ s.updateEncoder = true) : t.Inv := by
  obtain ⟨server,hs,rfl⟩ := serverStep_cases ht
  have hdevice : DeviceAt server ∧
      (server.video.device = true → s.server.video.device = true ∨ s.updateEncoder = true) := by
    have hsame : server.video = s.server.video → DeviceAt server ∧
        (server.video.device = true → s.server.video.device = true ∨ s.updateEncoder = true) := by
      intro hv
      refine ⟨?_,fun hd => Or.inl (by rw [← hv]; exact hd)⟩
      have hat := h.device
      unfold DeviceAt at hat ⊢
      rw [hv]
      exact hat
    cases mv with
    | receive m =>
      dsimp only [VideoServer.step] at hs
      split_ifs at hs
      obtain rfl := Except.ok.inj hs
      refine hsame ?_
      cases m <;> rfl
    | handle =>
      dsimp only [VideoServer.step] at hs
      split_ifs at hs
      obtain rfl := Except.ok.inj hs
      refine hsame ?_
      dsimp only
      unfold VideoServer.handle
      cases s.server.messagePc <;> rfl
    | video q =>
      obtain ⟨hat,hcases⟩ := stepAt_device h.device hs
      refine ⟨hat,fun hd => ?_⟩
      rcases hcases hd with hd | ⟨hpc,hq⟩
      · exact Or.inl hd
      · exact hcreate q rfl hpc hq
  constructor
  · exact h.fitted
  · exact fun hu m hm => ⟨(h.current hu m hm).1,(h.current hu m hm).2⟩
  · intro hm hd
    exact (hdevice.2 hd).elim (h.missing hm) id
  · exact hdevice.1
  · exact fun hp => ⟨(h.pending hp).1,(h.pending hp).2,(h.pending hp).3⟩
  · exact h.kept

theorem Inv.resized (h : s.Inv) (width height : ℤ) :
    Inv { s with deviceWidth := width, deviceHeight := height, updateEncoder := true } where
  fitted := h.fitted
  current hu := by cases hu
  missing _ _ := rfl
  device := h.device
  pending hp := ⟨rfl,(h.pending hp).encoder,(h.pending hp).result⟩
  kept := h.kept

theorem Inv.withEncoder {m : MadeEncoder} {e : VideoEncoder} (h : s.Inv) (hm : s.encoder = some m)
    (hfit : e.Fitted) (hactive : e.activeEncoder = m.encoder.activeEncoder)
    (hsettings : s.updateEncoder = false → e.settings = m.encoder.settings) : (s.withEncoder m e).Inv where
  fitted m' hm' := by
    obtain rfl := Option.some.inj hm'
    exact hfit
  current hu m' hm' := by
    obtain rfl := Option.some.inj hm'
    have hcurrent := h.current hu m hm
    exact ⟨(hsettings hu).trans hcurrent.settings,hcurrent.wanted⟩
  missing hno := by cases hno
  device := h.device
  pending hp := (h.pending hp).withEncoder hm hactive
  kept serial hlt := (h.kept serial hlt).imp_right fun hh => hh.withEncoder hm

theorem Inv.destroyNvidia (h : s.Inv) (hpc : s.server.video.pc = .captureFailed) : s.destroyNvidia.Inv := by
  rcases destroyNvidia_cases s with ⟨heq,m,hm,hnvidia⟩ | ⟨heq,-⟩
  · rw [heq]
    have hdevice := h.device
    unfold DeviceAt at hdevice
    rw [hpc] at hdevice
    have hdevice : s.server.video.device = false := hdevice
    have hp : s.pendingEncoder = false := by
      cases hp : s.pendingEncoder with
      | false => rfl
      | true =>
        obtain ⟨m',hm',hffmpeg⟩ := (h.pending hp).encoder
        obtain rfl := Option.some.inj (hm.symm.trans hm')
        rw [hnvidia] at hffmpeg
        cases hffmpeg
    constructor
    · intro m' hm'
      cases hm'
    · intro _ m' hm'
      cases hm'
    · intro _ hd
      exact absurd (hdevice.symm.trans hd) (by decide)
    · exact h.device
    · intro hp'
      cases hp.symm.trans hp'
    · intro serial hlt
      rcases h.kept serial hlt with hd | hh
      · exact Or.inl (List.mem_append_left _ hd)
      · obtain ⟨m',hm',hserial⟩ := hh.encoder (Or.inl hp)
        exact Or.inl (mem_destroyed hm' hserial)
  · rw [heq]
    exact h

theorem Inv.transferFrame {q : EncodingInput} (h : s.Inv) (hpc : s.server.video.pc = .transferCapture)
    (hkeeps : ∀ m ∈ s.encoder, m.encoder.keepsSettings q.encoder = true) (ht : s.transferFrame q = .ok t) :
    t.Inv := by
  unfold EncodingServer.transferFrame at ht
  cases hm : s.encoder with
  | none =>
    rw [hm] at ht
    cases ht
  | some m =>
    rw [hm] at ht
    dsimp only at ht
    cases hc : transferCapture s.deviceWidth s.deviceHeight m.encoder q.frame q.encoder with
    | error x =>
      rw [hc] at ht
      cases ht
    | ok p =>
      obtain ⟨r,forceIframe,e⟩ := p
      rw [hc] at ht
      have hcases := transferCapture_cases (h.fitted m hm) hc
      have hs : (s.withEncoder m e).Inv := by
        refine h.withEncoder hm hcases.fitted hcases.activeEncoder fun hu => ?_
        refine hcases.settings (hkeeps m hm) fun settings hset => ?_
        obtain ⟨hcurrent,n,-,hwanted⟩ := h.current hu m hm
        rw [hcurrent, hwanted] at hset
        obtain rfl := Option.some.inj hset
        exact ⟨rfl,rfl⟩
      refine hs.serverStep ht fun q' _ hpc' => ?_
      have hno : s.server.video.pc = .createDevice := hpc'
      rw [hpc] at hno
      cases hno

theorem Inv.encodeFrame {q : EncodingInput} (h : s.Inv) (hpc : s.server.video.pc = .encode)
    (ht : s.encodeFrame q = .ok t) : t.Inv := by
  unfold EncodingServer.encodeFrame at ht
  cases hm : s.encoder with
  | none =>
    rw [hm] at ht
    cases ht
  | some m =>
    rw [hm] at ht
    dsimp only at ht
    cases hc : videoEncoderEncode m.encoder s.server.video.ltr.frameCounter q.encoder with
    | error x =>
      rw [hc] at ht
      cases ht
    | ok p =>
      obtain ⟨r,e⟩ := p
      rw [hc] at ht
      dsimp only at ht
      obtain ⟨hfit,hsettings,hactive⟩ := videoEncoderEncode_settings (h.fitted m hm) hc
      split_ifs at ht
      refine (h.withEncoder hm hfit hactive fun _ => hsettings).serverStep ht fun q' _ hpc' => ?_
      have hno : s.server.video.pc = .createDevice := hpc'
      rw [hpc] at hno
      cases hno

theorem map_encoder_none (hm : s.encoder = none) (f : MadeEncoder → MadeEncoder) :
    { s with encoder := s.encoder.map f } = s := by
  cases s
  dsimp only at hm
  subst hm
  rfl

theorem Inv.setLtrAction {q : EncodingInput} (h : s.Inv) (hpc : s.server.video.pc = .nextAction)
    (ht : s.setLtrAction q = .ok t) : t.Inv := by
  unfold EncodingServer.setLtrAction at ht
  dsimp only at ht
  generalize (ltrGetNextAction s.server.video.ltr s.server.video.id).2.1 = action at ht
  have hpc' : s.server.video.pc ≠ .createDevice := by
    rw [hpc]
    decide
  cases hm : s.encoder with
  | none =>
    rw [map_encoder_none hm] at ht
    exact h.serverStep ht fun q' _ hcreate => absurd hcreate hpc'
  | some m =>
    rw [hm] at ht
    have hfit := h.fitted m hm
    have hs : (s.withEncoder m (videoEncoderSetLtrAction m.encoder action)).Inv := by
      refine h.withEncoder hm ⟨?_,hfit.sized⟩ rfl fun _ => rfl
      cases hfit.runs with
      | nvidia n active slot => exact .nvidia n active slot
      | ffmpeg f active encoder slots => exact .ffmpeg f active encoder slots
    exact hs.serverStep ht fun q' _ hcreate => absurd hcreate hpc'

theorem Inv.createNewDevice {q : EncodingInput} (h : s.Inv) (hp : s.pendingEncoder = false)
    (ht : s.createNewDevice q = .ok t) : t.Inv := by
  unfold EncodingServer.createNewDevice at ht
  dsimp only at ht
  have hno : ¬s.pendingEncoder = true := by
    rw [hp]
    decide
  rw [if_neg hno] at ht
  exact (h.resized q.width q.height).serverStep ht fun _ _ _ _ => Or.inr rfl

theorem video_inv {q : EncodingInput} (h : s.Inv) (hkeeps : s.Keeps (.video q)) (ht : s.videoStep q = .ok t) :
    t.Inv := by
  obtain ⟨hcreate,htransfer⟩ := hkeeps
  have hother : s.server.video.pc ≠ .createDevice → s.serverStep (.video q.video) = .ok t → t.Inv :=
    fun hpc ht => h.serverStep ht fun _ _ hpc' => absurd hpc' hpc
  unfold videoStep at ht
  cases hpc : s.server.video.pc <;> rw [hpc] at ht hcreate htransfer hother
  case reconfigureDevice =>
    dsimp only at ht
    split_ifs at ht
    · refine (h.resized q.width q.height).serverStep ht fun _ _ _ _ => Or.inr rfl
    · exact hother (by decide) ht
  case createDevice =>
    dsimp only at ht
    split_ifs at ht with hd
    · refine h.serverStep ht fun q' hq' _ hsucceeds => ?_
      obtain rfl := VideoServer.Move.video.inj hq'
      exact Or.inl (by simpa [hsucceeds] using hd)
    · simp only [not_or, Bool.not_eq_true, Bool.not_eq_false'] at hd
      exact h.createNewDevice (hcreate rfl hd.1 hd.2) ht
  case readUpdateFrameAck =>
    dsimp only at ht
    split_ifs at ht
    have hs : Inv { s with updated := false } :=
      ⟨h.fitted,fun hu m hm => ⟨(h.current hu m hm).1,(h.current hu m hm).2⟩,h.missing,h.device,
        fun hp => ⟨(h.pending hp).1,(h.pending hp).2,(h.pending hp).3⟩,h.kept⟩
    refine hs.serverStep ht fun _ _ hpc' => ?_
    cases hpc.symm.trans hpc'
  case captureFailed =>
    refine (h.destroyNvidia hpc).serverStep ht fun _ _ hpc' => ?_
    rcases destroyNvidia_cases s with ⟨heq,-⟩ | ⟨heq,-⟩
    · rw [heq] at hpc'
      cases hpc.symm.trans hpc'
    · rw [heq] at hpc'
      cases hpc.symm.trans hpc'
  case transferCapture => exact h.transferFrame hpc (htransfer rfl) ht
  case nextAction => exact h.setLtrAction hpc ht
  case encode => exact h.encodeFrame hpc ht
  all_goals exact hother (by decide) ht

theorem factory_inv {q : EncoderInput} (h : s.Inv) (hp : s.pendingEncoder = true)
    (hf : s.encoderFinished = false) (ht : s.multithreadedEncoderFactory q = .ok t) : t.Inv := by
  obtain ⟨e,hfit,hset,-,rfl⟩ := multithreadedEncoderFactory_cases ht
  have hpending := h.pending hp
  refine ⟨h.fitted,fun hu m hm => ⟨(h.current hu m hm).1,(h.current hu m hm).2⟩,h.missing,h.device,
    fun _ => ⟨hpending.updateEncoder,hpending.encoder,fun _ => ⟨_,rfl,hfit,hset⟩⟩,fun serial hlt => ?_⟩
  rcases Nat.lt_succ_iff_lt_or_eq.mp hlt with hlt | rfl
  · refine (h.kept serial hlt).imp_right fun hh => ?_
    exact Or.inl (hh.encoder (Or.inr hf))
  · exact Or.inr (Or.inr ⟨hp,rfl,_,rfl,rfl⟩)

theorem step_inv (mv : EncodingMove) (h : s.Inv) (hkeeps : s.Keeps mv) (ht : s.step mv = .ok t) : t.Inv := by
  cases mv with
  | receive m => exact h.serverStep ht fun _ hm => by cases hm
  | handle => exact h.serverStep ht fun _ hm => by cases hm
  | video q => exact video_inv h hkeeps ht
  | update n q =>
    dsimp only [step] at ht
    split_ifs at ht
    exact updateStage_inv h hkeeps ht
  | factory q =>
    dsimp only [step] at ht
    split_ifs at ht with hp
    exact factory_inv h hp.1 hp.2 ht

/-- In every run in which no encoder is taken that was ordered for something else, an update
that is done leaves the encoder wanted, and no encoder is lost. -/
theorem encoder_follows_settings (moves : List EncodingMove) (hkeeps : Run.EachOk step Keeps {} moves)
    (hrun : Run.run step {} moves = .ok t) : t.FollowsSettings ∧ t.LosesNone ∧ t.TakesPending := by
  have h : t.Inv := Run.EachOk.invariant (fun _ mv _ => step_inv mv) initial_inv hkeeps hrun
  exact ⟨h.followsSettings,h.kept,h.takesPending⟩

instance (s : EncodingServer) : ∀ mv, Decidable (s.Keeps mv)
  | .update n _ => inferInstanceAs (Decidable
      (s.pendingEncoder = true → s.encoderFinished = true → s.encoderFactory = s.wanted n))
  | .video q => inferInstanceAs (Decidable
      ((s.server.video.pc = .createDevice → s.server.video.device = false → q.video.succeeds = true →
        s.pendingEncoder = false) ∧
      (s.server.video.pc = .transferCapture → ∀ m ∈ s.encoder, m.encoder.keepsSettings q.encoder = true)))
  | .receive _ => isTrue trivial
  | .handle => isTrue trivial
  | .factory _ => isTrue trivial

def ffmpegOnly : EncoderInput :=
  { createsNvidia := false, sink := [.frame true], received := [.packet false 1000] }

/-- The loop makes `n` steps, with a device of 800x600 that captures a frame every time. -/
def captures (n : ℕ) (x : EncoderInput) : List EncodingMove :=
  List.replicate n (.video { video := { accumulatedFrames := 1 }, encoder := x, width := 800, height := 600 })

def firstUpdate (n : NetworkSettings) (x : EncoderInput) : List EncodingMove :=
  .receive (.dimensions ⟨800,600,96⟩) :: List.replicate 5 .handle ++ captures 12 x ++ [.update n x]

def pendingUpdate (n₁ n₂ n₃ : NetworkSettings) : List EncodingMove :=
  firstUpdate n₁ ffmpegOnly ++ captures 19 ffmpegOnly ++ [.update n₂ ffmpegOnly] ++ captures 10 ffmpegOnly ++
    [.factory ffmpegOnly] ++ captures 6 ffmpegOnly ++ [.update n₃ ffmpegOnly]

def updateOutcome (s : EncodingServer) : Bool × Option EncoderSettings × EncoderSettings :=
  (decide (s.server.video.pc = .readUpdateFrameAck) && s.updated && !s.updateEncoder,
    s.encoder.bind (fun m => m.encoder.settings),s.settings)

/-- The settings stay the same while the encoder is made. -/
theorem encoder_follows_settings_pending :
    ∃ t, Run.run step {} (pendingUpdate ⟨2000,500,.h264,0⟩ ⟨1000,500,.h264,0⟩ ⟨1000,500,.h264,0⟩) = .ok t ∧
      t.updateOutcome = (true,some ⟨800,600,1000,500,.h264⟩,⟨800,600,1000,500,.h264⟩) ∧
      t.FollowsSettings ∧ t.LosesNone ∧ t.TakesPending := by
  have houtcome : (Run.run step {}
      (pendingUpdate ⟨2000,500,.h264,0⟩ ⟨1000,500,.h264,0⟩ ⟨1000,500,.h264,0⟩)).toOption.map updateOutcome =
        some (true,some ⟨800,600,1000,500,.h264⟩,⟨800,600,1000,500,.h264⟩) := by
    decide +kernel
  cases hrun : Run.run step {} (pendingUpdate ⟨2000,500,.h264,0⟩ ⟨1000,500,.h264,0⟩ ⟨1000,500,.h264,0⟩) with
  | error e =>
    rw [hrun] at houtcome
    cases houtcome
  | ok t =>
    rw [hrun] at houtcome
    exact ⟨t,rfl,Option.some.inj houtcome,encoder_follows_settings _ (by decide +kernel) hrun⟩

/-- The bitrate changes again while the encoder is made: it is taken with the bitrate of the
second iteration. -/
theorem encoder_takes_stale : ¬∀ (moves : List EncodingMove) (t : EncodingServer),
    Run.run step {} moves = .ok t → t.FollowsSettings ∧ t.LosesNone ∧ t.TakesPending := by
  intro h
  have houtcome : (Run.run step {}
      (pendingUpdate ⟨2000,500,.h264,0⟩ ⟨1000,500,.h264,0⟩ ⟨4000,500,.h264,0⟩)).toOption.map updateOutcome =
        some (true,some ⟨800,600,1000,500,.h264⟩,⟨800,600,4000,500,.h264⟩) := by
    decide +kernel
  cases hrun : Run.run step {} (pendingUpdate ⟨2000,500,.h264,0⟩ ⟨1000,500,.h264,0⟩ ⟨4000,500,.h264,0⟩) with
  | error e =>
    rw [hrun] at houtcome
    cases houtcome
  | ok t =>
    rw [hrun] at houtcome
    have hfollows := (h _ t hrun).1
    have heq := Option.some.inj houtcome
    simp only [updateOutcome, Prod.mk.injEq, Bool.and_eq_true, decide_eq_true_eq, Bool.not_eq_true'] at heq
    obtain ⟨⟨⟨hpc,hupdated⟩,hdone⟩,hencoder,hsettings⟩ := heq
    obtain ⟨m,hm,hset⟩ := hfollows hpc hupdated hdone
    rw [hm, Option.bind_some, hset, hsettings] at hencoder
    cases hencoder

end EncodingServer

end Whist.Server
