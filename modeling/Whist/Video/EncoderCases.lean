import Whist.Foundation.Run
import Whist.Video.Encoders

/-! # What the steps of an encoder leave -/
namespace Whist.Codec
open Whist.Ltr

structure NvidiaEncoder.Sized (n : NvidiaEncoder) : Prop where
  width : n.width = n.settings.width
  height : n.height = n.settings.height
  codecType : n.codecType = n.settings.codecType

namespace VideoEncoder

inductive Runs (e : VideoEncoder) : Prop
  | nvidia (n : NvidiaEncoder) (active : e.activeEncoder = .nvidia) (slot : e.nvidiaEncoder = some n)
  | ffmpeg (f : FfmpegEncoder) (active : e.activeEncoder = .ffmpeg) (encoder : e.ffmpegEncoder = some f)
      (slots : ∀ i, e.nvidiaEncoders i = none)

structure Fitted (e : VideoEncoder) : Prop where
  runs : e.Runs
  sized : ∀ i n, e.nvidiaEncoders i = some n → n.Sized

def settings (e : VideoEncoder) : Option EncoderSettings :=
  match e.activeEncoder with
  | .nvidia => e.nvidiaEncoder.map NvidiaEncoder.settings
  | .ffmpeg => e.ffmpegEncoder.map FfmpegEncoder.settings

def seen (e : VideoEncoder) : List ℕ :=
  match e.activeEncoder with
  | .nvidia => (e.nvidiaEncoder.map NvidiaEncoder.seen).getD []
  | .ffmpeg => (e.ffmpegEncoder.map FfmpegEncoder.seen).getD []

def wantsIntra (e : VideoEncoder) : Bool :=
  match e.activeEncoder with
  | .nvidia => e.nvidiaEncoder.any NvidiaEncoder.wantsIframe
  | .ffmpeg => e.ffmpegEncoder.any (fun f => decide (f.wrapped = 0) || f.wantsIframe)

structure Continues (e e' : VideoEncoder) : Prop where
  seen : e'.seen = e.seen
  wantsIntra : e'.wantsIntra = e.wantsIntra

variable {e e' : VideoEncoder} {n n' : NvidiaEncoder} {f f' : FfmpegEncoder}

theorem settings_nvidia (active : e.activeEncoder = .nvidia) (slot : e.nvidiaEncoder = some n) :
    e.settings = some n.settings := by
  simp [settings, active, slot]

theorem settings_ffmpeg (active : e.activeEncoder = .ffmpeg) (encoder : e.ffmpegEncoder = some f) :
    e.settings = some f.settings := by
  simp [settings, active, encoder]

theorem seen_nvidia (active : e.activeEncoder = .nvidia) (slot : e.nvidiaEncoder = some n) :
    e.seen = n.seen := by
  simp [seen, active, slot]

theorem seen_ffmpeg (active : e.activeEncoder = .ffmpeg) (encoder : e.ffmpegEncoder = some f) :
    e.seen = f.seen := by
  simp [seen, active, encoder]

theorem wantsIntra_nvidia (active : e.activeEncoder = .nvidia) (slot : e.nvidiaEncoder = some n) :
    e.wantsIntra = n.wantsIframe := by
  simp [wantsIntra, active, slot]

theorem wantsIntra_ffmpeg (active : e.activeEncoder = .ffmpeg) (encoder : e.ffmpegEncoder = some f) :
    e.wantsIntra = (decide (f.wrapped = 0) || f.wantsIframe) := by
  simp [wantsIntra, active, encoder]

theorem continues_nvidia (active : e.activeEncoder = .nvidia) (slot : e.nvidiaEncoder = some n)
    (active' : e'.activeEncoder = .nvidia) (slot' : e'.nvidiaEncoder = some n')
    (hseen : n'.seen = n.seen) (hwants : n'.wantsIframe = n.wantsIframe) : Continues e e' where
  seen := by rw [seen_nvidia active slot, seen_nvidia active' slot', hseen]
  wantsIntra := by rw [wantsIntra_nvidia active slot, wantsIntra_nvidia active' slot', hwants]

theorem continues_ffmpeg (active : e.activeEncoder = .ffmpeg) (encoder : e.ffmpegEncoder = some f)
    (active' : e'.activeEncoder = .ffmpeg) (encoder' : e'.ffmpegEncoder = some f')
    (hseen : f'.seen = f.seen) (hwants : f'.wantsIframe = f.wantsIframe) (hwrapped : f'.wrapped = f.wrapped) :
    Continues e e' where
  seen := by rw [seen_ffmpeg active encoder, seen_ffmpeg active' encoder', hseen]
  wantsIntra := by
    rw [wantsIntra_ffmpeg active encoder, wantsIntra_ffmpeg active' encoder', hwants, hwrapped]

theorem Continues.refl (e : VideoEncoder) : Continues e e := ⟨rfl,rfl⟩

@[simp] theorem nvidiaEncoder_setNvidia (n : NvidiaEncoder) : (e.setNvidia n).nvidiaEncoder = some n :=
  Function.update_self ..

theorem Fitted.setNvidia (h : e.Fitted) (active : e.activeEncoder = .nvidia) (hn : n.Sized) :
    (e.setNvidia n).Fitted where
  runs := .nvidia n active (nvidiaEncoder_setNvidia n)
  sized i m hm := by
    by_cases hi : i = e.activeEncoderIdx
    · subst hi
      obtain rfl : m = n := Option.some.inj (hm.symm.trans (Function.update_self ..))
      exact hn
    · exact h.sized i m ((Function.update_of_ne hi _ _).symm.trans hm)

theorem Fitted.slot (h : e.Fitted) (slot : e.nvidiaEncoder = some n) : n.Sized := h.sized _ n slot

end VideoEncoder

open VideoEncoder
variable {e e' : VideoEncoder} {n n' : NvidiaEncoder} {f : FfmpegEncoder} {q : EncoderInput}
  {settings : EncoderSettings} {r : Bool}

theorem createNvidiaEncoder_cases {bitrate width height vbvSize : ℤ} {codec : CodecType}
    (h : createNvidiaEncoder bitrate codec width height vbvSize q = .ok (some n)) :
    q.createsNvidia = true ∧ n.settings = ⟨width,height,bitrate,vbvSize,codec⟩ ∧ n.Sized ∧ n.seen = [] := by
  unfold createNvidiaEncoder at h
  split_ifs at h with hcreates
  · cases h
  · cases h
    exact ⟨by simpa using hcreates,rfl,⟨rfl,rfl,rfl⟩,rfl⟩

theorem createFfmpegEncoder_cases (h : createFfmpegEncoder settings q = some f) :
    f.settings = settings ∧ f.seen = [] := by
  unfold createFfmpegEncoder at h
  generalize (if q.hwFrame = true then some none else none : Option (Option ℕ)) = hwFrame at h
  split_ifs at h
  cases h
  exact ⟨rfl,rfl⟩

theorem createVideoEncoder_cases (h : createVideoEncoder settings q = .ok (some e)) :
    e.Fitted ∧ e.settings = some settings ∧ e.seen = [] := by
  unfold createVideoEncoder at h
  cases hc : createNvidiaEncoder settings.bitrate settings.codecType settings.width settings.height
      settings.vbvSize q with
  | error x =>
    rw [hc] at h
    cases h
  | ok created =>
    rw [hc] at h
    cases created with
    | some n =>
      have heq := Option.some.inj (Except.ok.inj h)
      obtain ⟨-,hsettings,hsized,hseen⟩ := createNvidiaEncoder_cases hc
      have active : e.activeEncoder = .nvidia := by rw [← heq]
      have slot : e.nvidiaEncoder = some n := by
        rw [← heq]
        exact Function.update_self (⟨0,Nat.two_pos⟩ : Fin 2) (some n) fun _ => none
      refine ⟨⟨.nvidia n active slot,fun i m hm => ?_⟩,?_,?_⟩
      · rw [← heq] at hm
        by_cases hi : i = ⟨0,Nat.two_pos⟩
        · subst hi
          obtain rfl : n = m := by simpa using hm
          exact hsized
        · have hno : (none : Option NvidiaEncoder) = some m :=
            (Function.update_of_ne hi (some n) fun _ => none).symm.trans hm
          cases hno
      · rw [settings_nvidia active slot, hsettings]
      · rw [seen_nvidia active slot, hseen]
    | none =>
      obtain ⟨f,hf,rfl⟩ := Option.map_eq_some_iff.mp (Except.ok.inj h)
      obtain ⟨hsettings,hseen⟩ := createFfmpegEncoder_cases hf
      exact ⟨⟨.ffmpeg f rfl rfl fun _ => rfl,fun i m hm => (by cases hm)⟩,congrArg some hsettings,hseen⟩

theorem nvidiaReconfigureEncoder_cases (h : nvidiaReconfigureEncoder n settings.width settings.height
      settings.bitrate settings.vbvSize settings.codecType q = .ok (r,n')) :
    r = false ∧ n' = n ∨
      r = true ∧ n'.settings = settings ∧ n'.Sized ∧
        (n'.seen = [] ∨ n'.seen = n.seen ∧ n'.wantsIframe = n.wantsIframe) := by
  unfold nvidiaReconfigureEncoder at h
  dsimp only at h
  generalize hneeds : decide (settings.width ≠ n.width ∨ settings.height ≠ n.height ∨
    settings.codecType ≠ n.codecType) = needs at h
  split_ifs at h with _ _ hreset
  · cases h
    exact Or.inl ⟨rfl,rfl⟩
  · cases h
    exact Or.inr ⟨rfl,rfl,⟨rfl,rfl,rfl⟩,Or.inl rfl⟩
  · cases h
    refine Or.inr ⟨rfl,rfl,⟨rfl,rfl,rfl⟩,Or.inr ⟨rfl,?_⟩⟩
    rw [Bool.eq_false_iff.mpr hreset, Bool.or_false]

theorem reconfigureEncoder_cases (hfit : e.Fitted) (h : reconfigureEncoder e settings q = .ok (r,e')) :
    e'.Fitted ∧ e'.activeEncoder = e.activeEncoder ∧
      (r = false ∧ e'.settings = e.settings ∧ Continues e e' ∨
        r = true ∧ e.activeEncoder = .nvidia ∧ e'.settings = some settings ∧
          (e'.seen = [] ∨ Continues e e')) := by
  unfold reconfigureEncoder at h
  dsimp only at h
  generalize he₁ : ({ e with
      inWidth := settings.width
      inHeight := settings.height
      codecType := settings.codecType } : VideoEncoder) = e₁ at h
  have hactive : e₁.activeEncoder = e.activeEncoder := by rw [← he₁]
  have hslots : e₁.nvidiaEncoders = e.nvidiaEncoders := by rw [← he₁]
  have hslot : e₁.nvidiaEncoder = e.nvidiaEncoder := by
    rw [← he₁]
    rfl
  have hffmpeg : e₁.ffmpegEncoder = e.ffmpegEncoder := by rw [← he₁]
  cases hfit.runs with
  | ffmpeg f active encoder slots =>
    have hnone : e₁.nvidiaEncoder = none := hslot.trans (slots _)
    rw [hnone] at h
    cases h
    refine ⟨⟨.ffmpeg f (hactive.trans active) (hffmpeg.trans encoder) fun i => ?_,fun i m hm => ?_⟩,hactive,
      Or.inl ⟨rfl,?_,?_⟩⟩
    · rw [hslots]
      exact slots i
    · rw [hslots, slots i] at hm
      cases hm
    · rw [settings_ffmpeg active encoder, settings_ffmpeg (hactive.trans active) (hffmpeg.trans encoder)]
    · exact continues_ffmpeg active encoder (hactive.trans active) (hffmpeg.trans encoder) rfl rfl rfl
  | nvidia n active slot =>
    have active₁ := hactive.trans active
    have slot₁ := hslot.trans slot
    have hfit₁ : e₁.Fitted := ⟨.nvidia n active₁ slot₁,by rw [hslots]; exact hfit.sized⟩
    rw [slot₁] at h
    dsimp only at h
    cases hr : nvidiaReconfigureEncoder n settings.width settings.height settings.bitrate settings.vbvSize
        settings.codecType q with
    | error x =>
      rw [hr] at h
      cases h
    | ok p =>
      obtain ⟨zero,n'⟩ := p
      rw [hr] at h
      cases h
      have active₂ : (e₁.setNvidia n').activeEncoder = .nvidia := active₁
      rcases nvidiaReconfigureEncoder_cases hr with ⟨rfl,rfl⟩ | ⟨rfl,hsettings,hsized,hstream⟩
      · refine ⟨hfit₁.setNvidia active₁ (hfit.slot slot),hactive,Or.inl ⟨rfl,?_,?_⟩⟩
        · rw [settings_nvidia active slot, settings_nvidia active₂ (nvidiaEncoder_setNvidia _)]
        · exact continues_nvidia active slot active₂ (nvidiaEncoder_setNvidia _) rfl rfl
      · refine ⟨hfit₁.setNvidia active₁ hsized,hactive,Or.inr ⟨rfl,active,?_,hstream.imp ?_ ?_⟩⟩
        · rw [settings_nvidia active₂ (nvidiaEncoder_setNvidia _), hsettings]
        · intro hseen
          rw [seen_nvidia active₂ (nvidiaEncoder_setNvidia _), hseen]
        · rintro ⟨hseen,hwants⟩
          exact continues_nvidia active slot active₂ (nvidiaEncoder_setNvidia _) hseen hwants

theorem registerFrame_cases (n : NvidiaEncoder) (frame : ℕ) (q : EncoderInput) :
    ∃ resource, (registerFrame n frame q).2 = { n with registeredResource := resource } ∧
      ((registerFrame n frame q).1 = true → resource.isSome = true) := by
  unfold registerFrame
  split
  · exact ⟨n.registeredResource,rfl,fun h => by cases h⟩
  · exact ⟨_,rfl,fun _ => rfl⟩
  · exact ⟨_,rfl,fun h => by cases h⟩
  · exact ⟨_,rfl,fun h => by cases h⟩
  · exact ⟨_,rfl,fun _ => rfl⟩

theorem nvidiaEncoderFrameIntake_cases {width height : ℤ} {frame : ℕ} (hsized : n.Sized)
    (h : nvidiaEncoderFrameIntake n width height frame q = .ok (r,n')) :
    n'.Sized ∧ (r = true → n'.registeredResource.isSome = true) ∧
      (n'.seen = [] ∨ n'.seen = n.seen ∧ n'.wantsIframe = n.wantsIframe) ∧
      (width = n.width → height = n.height → n'.settings = n.settings) := by
  unfold nvidiaEncoderFrameIntake at h
  split_ifs at h with hsize
  · cases hr : nvidiaReconfigureEncoder n width height n.bitrate n.vbvSize n.codecType q with
    | error x =>
      rw [hr] at h
      cases h
    | ok p =>
      obtain ⟨zero,m⟩ := p
      rw [hr] at h
      have hcases := @nvidiaReconfigureEncoder_cases n m q ⟨width,height,n.bitrate,n.vbvSize,n.codecType⟩
        zero hr
      have hno : width = n.width → height = n.height → n'.settings = n.settings := fun hw hh =>
        absurd hsize (by simp [hw, hh])
      rcases hcases with ⟨rfl,rfl⟩ | ⟨rfl,-,hm,hstream⟩
      · cases h
        exact ⟨hsized,fun hr => (by cases hr),Or.inr ⟨rfl,rfl⟩,hno⟩
      · obtain ⟨resource,hreg,hsome⟩ := registerFrame_cases m frame q
        obtain ⟨rfl,rfl⟩ := Prod.ext_iff.mp (Except.ok.inj h)
        rw [hreg] at hno ⊢
        exact ⟨⟨hm.1,hm.2,hm.3⟩,hsome,hstream,hno⟩
  · obtain ⟨resource,hreg,hsome⟩ := registerFrame_cases n frame q
    obtain ⟨rfl,rfl⟩ := Prod.ext_iff.mp (Except.ok.inj h)
    rw [hreg]
    exact ⟨⟨hsized.1,hsized.2,hsized.3⟩,hsome,Or.inr ⟨rfl,rfl⟩,fun _ _ => rfl⟩

def NvidiaEncoder.keptBy (n : NvidiaEncoder) : Option NvidiaEncoder → Bool
  | some other => decide (other.settings = n.settings)
  | none => decide (n.bitrate = n.settings.bitrate ∧ n.vbvSize = n.settings.vbvSize)

/-- If `transfer_capture` switches to another encoder, the settings are kept. -/
def VideoEncoder.keepsSettings (e : VideoEncoder) (q : EncoderInput) : Bool :=
  match e.activeEncoder, e.nvidiaEncoder with
  | .nvidia, some n =>
    decide (n.cudaContext = q.cudaContext) ||
      n.keptBy (e.nvidiaEncoders (if e.activeEncoderIdx.val = 1 then ⟨0,Nat.two_pos⟩ else ⟨1,Nat.one_lt_two⟩))
  | _, _ => true

theorem switchContext_cases (hfit : e.Fitted) (active : e.activeEncoder = .nvidia)
    (slot : e.nvidiaEncoder = some n) (hcontext : n.cudaContext ≠ q.cudaContext)
    (h : switchContext e n q = .ok e') :
    e'.activeEncoder = .nvidia ∧ (∀ i m, e'.nvidiaEncoders i = some m → m.Sized) ∧
      (e.keepsSettings q = true → ∀ m, e'.nvidiaEncoder = some m → m.settings = n.settings) := by
  have hkeeps : e.keepsSettings q = true → n.keptBy (e.nvidiaEncoders
      (if e.activeEncoderIdx.val = 1 then ⟨0,Nat.two_pos⟩ else ⟨1,Nat.one_lt_two⟩)) = true := by
    intro hk
    unfold VideoEncoder.keepsSettings at hk
    rw [active, slot] at hk
    dsimp only at hk
    rwa [decide_eq_false hcontext, Bool.false_or] at hk
  unfold switchContext at h
  dsimp only at h
  generalize (if e.activeEncoderIdx.val = 1 then (⟨0,Nat.two_pos⟩ : Fin 2) else ⟨1,Nat.one_lt_two⟩) = idx
    at h hkeeps
  have hslot : ({ e with activeEncoderIdx := idx } : VideoEncoder).nvidiaEncoder = e.nvidiaEncoders idx := rfl
  rw [hslot] at h
  cases hother : e.nvidiaEncoders idx with
  | some m =>
    rw [hother] at h hkeeps
    cases h
    refine ⟨active,hfit.sized,fun hk m' hm' => ?_⟩
    obtain rfl : m = m' := Option.some.inj (hother.symm.trans hm')
    exact of_decide_eq_true (hkeeps hk)
  | none =>
    rw [hother] at h hkeeps
    dsimp only at h
    cases hc : createNvidiaEncoder n.bitrate n.codecType n.width n.height n.vbvSize q with
    | error x =>
      rw [hc] at h
      cases h
    | ok created =>
      rw [hc] at h
      have heq := Except.ok.inj h
      have hnew : ∀ m, e'.nvidiaEncoders idx = some m → created = some m := by
        intro m hm
        rw [← heq] at hm
        exact (Function.update_self idx created e.nvidiaEncoders).symm.trans hm
      have hidx : e'.activeEncoderIdx = idx := by rw [← heq]
      have hcreated : ∀ m, created = some m → m.Sized ∧
          m.settings = ⟨n.width,n.height,n.bitrate,n.vbvSize,n.codecType⟩ := by
        rintro m rfl
        obtain ⟨-,hsettings,hsized,-⟩ := createNvidiaEncoder_cases hc
        exact ⟨hsized,hsettings⟩
      refine ⟨by rw [← heq]; exact active,fun i m hm => ?_,fun hk m hm => ?_⟩
      · by_cases hi : i = idx
        · subst hi
          exact (hcreated m (hnew m hm)).1
        · rw [← heq] at hm
          exact hfit.sized i m ((Function.update_of_ne hi _ _).symm.trans hm)
      · have hm' : e'.nvidiaEncoders idx = some m := hidx ▸ hm
        rw [(hcreated m (hnew m hm')).2]
        have hsized := hfit.slot slot
        obtain ⟨hbitrate,hvbv⟩ := of_decide_eq_true (hkeeps hk)
        rw [hsized.width, hsized.height, hsized.codecType, hbitrate, hvbv]

/-- What `transfer_capture` leaves. -/
structure VideoEncoder.Transfers (width height : ℤ) (e : VideoEncoder) (q : EncoderInput) (r forceIframe : Bool)
    (e' : VideoEncoder) : Prop where
  fitted : e'.Fitted
  activeEncoder : e'.activeEncoder = e.activeEncoder
  settings : e.keepsSettings q = true →
    (∀ settings, e.settings = some settings → settings.width = width ∧ settings.height = height) →
    e'.settings = e.settings
  stream : forceIframe = false → e'.seen = [] ∨ Continues e e'
  registered : r = true → ∀ n, e'.activeEncoder = .nvidia → e'.nvidiaEncoder = some n →
    n.registeredResource.isSome = true

theorem Transfers.same {width height : ℤ} (hfit : e.Fitted) : e.Transfers width height q false false e where
  fitted := hfit
  activeEncoder := rfl
  settings := fun _ _ => rfl
  stream := fun _ => Or.inr (Continues.refl e)
  registered := fun h => by cases h

theorem transferCapture_nvidia {width height : ℤ} {frame : ℕ} {forceIframe : Bool} (hfit : e.Fitted)
    (active : e.activeEncoder = .nvidia) (slot : e.nvidiaEncoder = some n)
    (h : transferCapture width height e frame q = .ok (r,forceIframe,e')) :
    e.Transfers width height q r forceIframe e' := by
  unfold transferCapture at h
  split_ifs at h
  · cases h
    exact Transfers.same hfit
  · cases h
    exact Transfers.same hfit
  rw [active, slot] at h
  dsimp only at h
  generalize hforce : decide (n.cudaContext ≠ q.cudaContext) = force at h
  cases hs : (if force = true then switchContext e n q else .ok e : Except EncoderFatal VideoEncoder) with
  | error x =>
    rw [hs] at h
    cases h
  | ok e₁ =>
    rw [hs] at h
    dsimp only at h
    obtain ⟨active₁,hsized₁,hsettings₁,hstream₁⟩ : e₁.activeEncoder = .nvidia ∧
        (∀ i m, e₁.nvidiaEncoders i = some m → m.Sized) ∧
        (e.keepsSettings q = true → ∀ m, e₁.nvidiaEncoder = some m → m.settings = n.settings) ∧
        (force = false → e₁ = e) := by
      cases force with
      | true =>
        obtain ⟨hactive,hsized,hsettings⟩ := switchContext_cases hfit active slot (of_decide_eq_true hforce) hs
        exact ⟨hactive,hsized,hsettings,fun hf => by cases hf⟩
      | false =>
        obtain rfl := Except.ok.inj hs
        refine ⟨active,hfit.sized,fun _ m hm => ?_,fun _ => rfl⟩
        obtain rfl := Option.some.inj (slot.symm.trans hm)
        rfl
    cases hslot₁ : e₁.nvidiaEncoder with
    | none =>
      rw [hslot₁] at h
      cases h
    | some m =>
      rw [hslot₁] at h
      dsimp only at h
      cases hi : nvidiaEncoderFrameIntake m width height frame q with
      | error x =>
        rw [hi] at h
        cases h
      | ok p =>
        obtain ⟨zero,m'⟩ := p
        rw [hi] at h
        cases h
        have hm := hsized₁ _ m hslot₁
        obtain ⟨hm',hregistered,hstream,hsettings⟩ := nvidiaEncoderFrameIntake_cases hm hi
        have hfit₁ : e₁.Fitted := ⟨.nvidia m active₁ hslot₁,hsized₁⟩
        have active' : (e₁.setNvidia m').activeEncoder = .nvidia := active₁
        have slot' := @nvidiaEncoder_setNvidia e₁ m'
        refine ⟨hfit₁.setNvidia active₁ hm',active'.trans active.symm,fun hk hsize => ?_,fun hf => ?_,
          fun hr k _ hk => ?_⟩
        · have hset := hsettings₁ hk m hslot₁
          rw [settings_nvidia active slot] at hsize ⊢
          obtain ⟨hw,hh⟩ := hsize _ rfl
          rw [settings_nvidia active' slot', hsettings _ _, hset]
          · rw [hm.width, hset, hw]
          · rw [hm.height, hset, hh]
        · obtain rfl := hstream₁ hf
          obtain rfl := Option.some.inj (slot.symm.trans hslot₁)
          refine hstream.imp (fun hseen => ?_) ?_
          · rw [seen_nvidia active' slot', hseen]
          · rintro ⟨hseen,hwants⟩
            exact continues_nvidia active slot active' slot' hseen hwants
        · obtain rfl := Option.some.inj (slot'.symm.trans hk)
          exact hregistered hr

theorem ffmpegEncoderFrameIntake_cases (f : FfmpegEncoder) (frame : ℕ) (q : EncoderInput) :
    ∃ swFrame hwFrame, (ffmpegEncoderFrameIntake f frame q).2 =
      { f with swFrame := swFrame, hwFrame := hwFrame } := by
  unfold ffmpegEncoderFrameIntake
  cases hhw : f.hwFrame with
  | none => exact ⟨some frame,none,rfl⟩
  | some hwFrame =>
    dsimp only
    split_ifs
    · exact ⟨some frame,some (some frame),rfl⟩
    · exact ⟨some frame,some none,rfl⟩

theorem transferCapture_cases {width height : ℤ} {frame : ℕ} {forceIframe : Bool} (hfit : e.Fitted)
    (h : transferCapture width height e frame q = .ok (r,forceIframe,e')) :
    e.Transfers width height q r forceIframe e' := by
  cases hfit.runs with
  | nvidia n active slot => exact transferCapture_nvidia hfit active slot h
  | ffmpeg f active encoder slots =>
    unfold transferCapture at h
    split_ifs at h
    · cases h
      exact Transfers.same hfit
    · cases h
      exact Transfers.same hfit
    rw [active, encoder] at h
    dsimp only at h
    obtain ⟨swFrame,hwFrame,hf⟩ := ffmpegEncoderFrameIntake_cases f frame q
    rw [hf] at h
    cases h
    refine ⟨⟨.ffmpeg _ rfl rfl slots,hfit.sized⟩,active.symm,fun _ _ => ?_,fun _ => Or.inr ?_,fun _ m hm => ?_⟩
    · rw [settings_ffmpeg active encoder]
      exact @settings_ffmpeg _ { f with swFrame := swFrame, hwFrame := hwFrame } rfl rfl
    · exact continues_ffmpeg active encoder rfl rfl rfl rfl rfl
    · cases hm

theorem nvidiaEncoderEncode_settings {counter : ℕ} (h : nvidiaEncoderEncode n counter q = .ok (r,n')) :
    n'.settings = n.settings ∧ (n.Sized → n'.Sized) := by
  unfold nvidiaEncoderEncode at h
  cases hr : n.registeredResource with
  | none =>
    rw [hr] at h
    cases h
    exact ⟨rfl,id⟩
  | some resource =>
    simp only [hr] at h
    generalize (if (n.wantsIframe || decide (n.ltrAction.frameType = .intra)) = true then
      VideoFrameType.intra else n.ltrAction.frameType) = type at h
    split_ifs at h <;> cases h <;> exact ⟨rfl,fun hs => ⟨hs.1,hs.2,hs.3⟩⟩

theorem transferNvidiaData_slots (h : transferNvidiaData e n q = .ok e') :
    e'.activeEncoder = e.activeEncoder ∧ e'.nvidiaEncoder = some n ∧ e'.frameType = n.frameType ∧
      e'.nvidiaEncoders = (e.setNvidia n).nvidiaEncoders := by
  have hslot := @nvidiaEncoder_setNvidia e n
  unfold transferNvidiaData at h
  dsimp only at h
  split at h
  · cases h
    exact ⟨rfl,hslot,rfl,rfl⟩
  · split_ifs at h
    cases h
    exact ⟨rfl,hslot,rfl,rfl⟩

theorem transferFfmpegData_slots (e : VideoEncoder) (f : FfmpegEncoder) (q : EncoderInput) :
    (transferFfmpegData e f q).2.activeEncoder = e.activeEncoder ∧
      (transferFfmpegData e f q).2.nvidiaEncoders = e.nvidiaEncoders ∧
      ∃ codec, (transferFfmpegData e f q).2.ffmpegEncoder = some { f with codec := codec } := by
  unfold transferFfmpegData
  dsimp only
  split_ifs <;> exact ⟨rfl,rfl,_,rfl⟩

theorem ffmpegEncoderSendFrame_settings (f : FfmpegEncoder) (counter : ℕ) (q : EncoderInput) :
    (ffmpegEncoderSendFrame f counter q).2.settings = f.settings := by
  unfold ffmpegEncoderSendFrame
  dsimp only
  split_ifs <;> rfl

theorem videoEncoderEncode_nvidia (active : e.activeEncoder = .nvidia) (slot : e.nvidiaEncoder = some n)
    {counter : ℕ} (h : videoEncoderEncode e counter q = .ok (r,e')) :
    r = true ∧ ∃ zero n', nvidiaEncoderEncode { n with ltrAction := e.nextLtrAction } counter q =
      .ok (zero,n') ∧ transferNvidiaData e n' q = .ok e' := by
  unfold videoEncoderEncode at h
  rw [active, slot] at h
  dsimp only at h
  cases hn : nvidiaEncoderEncode { n with ltrAction := e.nextLtrAction } counter q with
  | error x =>
    rw [hn] at h
    cases h
  | ok p =>
    obtain ⟨zero,n'⟩ := p
    rw [hn] at h
    obtain ⟨e'',he,hr⟩ := Run.map_eq_ok h
    cases hr
    exact ⟨rfl,zero,n',rfl,he⟩

theorem videoEncoderEncode_ffmpeg_eq (active : e.activeEncoder = .ffmpeg) (encoder : e.ffmpegEncoder = some f) (counter : ℕ)
    (q : EncoderInput) :
    videoEncoderEncode e counter q =
      let p := ffmpegEncoderSendFrame { f with ltrAction := e.nextLtrAction } counter q
      let e' := { e with ffmpegEncoder := some p.2 }
      if p.1 then .ok (transferFfmpegData e' p.2 q) else .ok (false,e') := by
  cases e
  dsimp only at active encoder
  subst active encoder
  rfl

theorem videoEncoderEncode_settings {counter : ℕ} (hfit : e.Fitted)
    (h : videoEncoderEncode e counter q = .ok (r,e')) :
    e'.Fitted ∧ e'.settings = e.settings ∧ e'.activeEncoder = e.activeEncoder := by
  cases hfit.runs with
  | nvidia n active slot =>
    obtain ⟨-,zero,n',hn,ht⟩ := videoEncoderEncode_nvidia active slot h
    obtain ⟨hactive,hslot,-,hslots⟩ := transferNvidiaData_slots ht
    obtain ⟨hsettings,hsized⟩ := nvidiaEncoderEncode_settings hn
    have hn := hfit.slot slot
    have hset := hfit.setNvidia active (hsized ⟨hn.1,hn.2,hn.3⟩)
    refine ⟨⟨.nvidia n' (hactive.trans active) hslot,?_⟩,?_,hactive⟩
    · rw [hslots]
      exact hset.sized
    · rw [settings_nvidia active slot, settings_nvidia (hactive.trans active) hslot, hsettings]
  | ffmpeg f active encoder slots =>
    rw [videoEncoderEncode_ffmpeg_eq active encoder] at h
    dsimp only at h
    have hsettings := ffmpegEncoderSendFrame_settings { f with ltrAction := e.nextLtrAction } counter q
    generalize ffmpegEncoderSendFrame { f with ltrAction := e.nextLtrAction } counter q = p at h hsettings
    rw [settings_ffmpeg active encoder]
    split_ifs at h
    · have hslots := transferFfmpegData_slots { e with ffmpegEncoder := some p.2 } p.2 q
      rw [Except.ok.inj h] at hslots
      obtain ⟨hactive,hnvidia,codec,hff⟩ := hslots
      dsimp only at hactive hnvidia hff
      refine ⟨⟨.ffmpeg _ (hactive.trans active) hff fun i => ?_,fun i m hm => ?_⟩,?_,hactive⟩
      · rw [hnvidia, slots i]
      · rw [hnvidia, slots i] at hm
        cases hm
      · rw [settings_ffmpeg (hactive.trans active) hff]
        exact congrArg some hsettings
    · cases h
      refine ⟨⟨.ffmpeg p.2 active rfl slots,hfit.sized⟩,?_,rfl⟩
      exact (@settings_ffmpeg { e with ffmpegEncoder := some p.2 } p.2 active rfl).trans
        (congrArg some hsettings)

end Whist.Codec
