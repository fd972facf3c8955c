import Whist.Video.EncodeFailures

/-! # Which frame type an encoder makes, and what it has seen -/
namespace Whist.Codec
open Whist.Ltr

def NvidiaEncoder.takes (n : NvidiaEncoder) (q : EncoderInput) : Bool :=
  match n.registeredResource with
  | none => false
  | some resource => (decide (resource.deviceType ≠ .nvidia) || q.maps) && q.encodes && q.locks

def FfmpegEncoder.takes (f : FfmpegEncoder) (counter : ℕ) (q : EncoderInput) : Bool :=
  q.addsFrame && (submitFrames q.sink (f.submitted counter q)).2.1.isEmpty

def VideoEncoder.takes (e : VideoEncoder) (counter : ℕ) (q : EncoderInput) : Bool :=
  match e.activeEncoder with
  | .nvidia => e.nvidiaEncoder.any (fun n => n.takes q)
  | .ffmpeg => e.ffmpegEncoder.any (fun f => f.takes counter q)

def VideoEncoder.nextFrameType (e : VideoEncoder) : VideoFrameType :=
  if e.wantsIntra then .intra else e.nextLtrAction.frameType

open VideoEncoder
variable {e e' : VideoEncoder} {n n' : NvidiaEncoder} {f : FfmpegEncoder} {q : EncoderInput}
  {counter : ℕ} {r : Bool}

theorem NvidiaEncoder.takes_encodes (h : n.takes q = true) : ∃ resource, n.Encodes q resource := by
  unfold NvidiaEncoder.takes at h
  cases hr : n.registeredResource with
  | none =>
    rw [hr] at h
    cases h
  | some resource =>
    rw [hr] at h
    simp only [Bool.and_eq_true, Bool.or_eq_true, decide_eq_true_eq] at h
    obtain ⟨⟨hmaps,hencodes⟩,hlocks⟩ := h
    exact ⟨resource,hr,fun hd => hmaps.resolve_left fun hn => hn hd,hencodes,hlocks⟩

theorem submitFrames_append (answers : List SinkAnswer) (graph : List SentFrame)
    (h : (submitFrames answers graph).1 = true) :
    (submitFrames answers graph).2.2 ++ (submitFrames answers graph).2.1 = graph := by
  induction answers generalizing graph with
  | nil => simp [submitFrames]
  | cons answer answers ih =>
    cases answer with
    | frame sent =>
      cases graph with
      | nil => cases sent <;> rfl
      | cons x graph =>
        cases sent with
        | true =>
          have hrest : (submitFrames answers graph).1 = true := h
          exact congrArg (List.cons x) (ih graph hrest)
        | false => cases h
    | again => cases graph <;> rfl
    | error => cases graph <;> cases h

theorem videoEncoderEncode_takes_nvidia (active : e.activeEncoder = .nvidia) (slot : e.nvidiaEncoder = some n)
    (htakes : e.takes counter q = true) (h : videoEncoderEncode e counter q = .ok (true,e')) :
    e'.frameType = e.nextFrameType ∧ ∀ c, c ∈ e.seen ∨ c = counter → c ∈ e'.seen := by
  have htakes : n.takes q = true := by
    unfold VideoEncoder.takes at htakes
    rw [active, slot] at htakes
    exact htakes
  obtain ⟨resource,hencodes⟩ := NvidiaEncoder.takes_encodes htakes
  obtain ⟨-,zero,n',hn,ht⟩ := videoEncoderEncode_nvidia active slot h
  obtain ⟨hactive,hslot,htype,-⟩ := transferNvidiaData_slots ht
  rcases nvidiaEncoderEncode_cases hn with ⟨-,resource',-,rfl⟩ | ⟨-,hno,-⟩
  · constructor
    · rw [htype, VideoEncoder.nextFrameType, wantsIntra_nvidia active slot, NvidiaEncoder.encoded]
      dsimp only
      cases n.wantsIframe with
      | true => rfl
      | false =>
        by_cases hintra : e.nextLtrAction.frameType = .intra
        · simp [hintra]
        · simp [hintra]
    · intro c hc
      rw [seen_nvidia active slot] at hc
      rw [seen_nvidia (hactive.trans active) hslot]
      exact List.mem_append.mpr (hc.imp_right fun hc => List.mem_singleton.mpr hc)
  · exact absurd ⟨hencodes.1,hencodes.2,hencodes.3,hencodes.4⟩ (hno resource)

theorem ffmpegEncoderSendFrame_seen (f : FfmpegEncoder) (counter : ℕ) (q : EncoderInput) (action : LtrAction) :
    (ffmpegEncoderSendFrame { f with ltrAction := action } counter q).2.seen =
      f.seen ++ (submitFrames q.sink (f.submitted counter q)).2.2.map SentFrame.call := by
  unfold ffmpegEncoderSendFrame
  change (if (submitFrames q.sink (f.submitted counter q)).1 = true then _ else _ : Bool × FfmpegEncoder).2.seen = _
  cases (submitFrames q.sink (f.submitted counter q)).1 <;> rfl

theorem videoEncoderEncode_takes_ffmpeg (active : e.activeEncoder = .ffmpeg) (encoder : e.ffmpegEncoder = some f)
    (htakes : e.takes counter q = true) (h : videoEncoderEncode e counter q = .ok (true,e')) :
    e'.frameType = e.nextFrameType ∧ ∀ c, c ∈ e.seen ∨ c = counter → c ∈ e'.seen := by
  have htakes : f.takes counter q = true := by
    unfold VideoEncoder.takes at htakes
    rw [active, encoder] at htakes
    exact htakes
  obtain ⟨hadds,hgraph⟩ := Bool.and_eq_true_iff.mp htakes
  rw [videoEncoderEncode_ffmpeg_eq active encoder] at h
  dsimp only at h
  have hsent := ffmpegEncoderSendFrame_sent f counter q e.nextLtrAction
  have hseen := ffmpegEncoderSendFrame_seen f counter q e.nextLtrAction
  generalize ffmpegEncoderSendFrame { f with ltrAction := e.nextLtrAction } counter q = p at h hsent hseen
  cases hp : p.1 with
  | false =>
    rw [hp, if_neg (by decide)] at h
    cases h
  | true =>
    rw [hp, if_pos rfl] at h
    obtain ⟨hzero,he⟩ := Prod.ext_iff.mp (Except.ok.inj h)
    dsimp only at he
    obtain ⟨hactive,-,codec,hff⟩ := transferFfmpegData_slots { e with ffmpegEncoder := some p.2 } p.2 q
    have htype := transferFfmpegData_frameType hzero
    rw [he] at hactive hff htype
    have hgraph : (submitFrames q.sink (f.submitted counter q)).2.1 = [] := List.isEmpty_iff.mp hgraph
    have hall := submitFrames_append q.sink (f.submitted counter q) (hsent.zero.symm.trans hp)
    rw [hgraph, List.append_nil] at hall
    constructor
    · rw [htype, hsent.frameType hp, VideoEncoder.nextFrameType, wantsIntra_ffmpeg active encoder]
      by_cases hz : f.wrapped = 0
      · simp [hz]
      · simp [hz]
    · intro c hc
      rw [seen_ffmpeg active encoder] at hc
      rw [seen_ffmpeg (hactive.trans active) hff]
      dsimp only
      rw [hseen, hall, List.mem_append]
      refine hc.imp_right fun hc => ?_
      rw [FfmpegEncoder.submitted, if_pos hadds, List.map_append, hc]
      exact List.mem_append_right _ (List.mem_singleton.mpr rfl)

theorem videoEncoderEncode_takes (hfit : e.Fitted) (htakes : e.takes counter q = true)
    (h : videoEncoderEncode e counter q = .ok (true,e')) :
    e'.frameType = e.nextFrameType ∧ ∀ c, c ∈ e.seen ∨ c = counter → c ∈ e'.seen := by
  cases hfit.runs with
  | nvidia n active slot => exact videoEncoderEncode_takes_nvidia active slot htakes h
  | ffmpeg f active encoder slots => exact videoEncoderEncode_takes_ffmpeg active encoder htakes h

theorem videoEncoderEncode_index (hfit : e.Fitted)
    (h : videoEncoderEncode e counter q = .error .longTermFrameIndex) :
    (e.wantsIntra = true ∨ e.nextLtrAction.frameType = .intra) ∧ e.nextLtrAction.longTermFrameIndex ≠ 0 := by
  cases hfit.runs with
  | ffmpeg f active encoder slots =>
    rw [videoEncoderEncode_ffmpeg_eq active encoder] at h
    dsimp only at h
    split_ifs at h
  | nvidia n active slot =>
    unfold videoEncoderEncode at h
    rw [wantsIntra_nvidia active slot]
    rw [active, slot] at h
    dsimp only at h
    cases hn : nvidiaEncoderEncode { n with ltrAction := e.nextLtrAction } counter q with
    | ok p =>
      rw [hn] at h
      dsimp only at h
      unfold transferNvidiaData at h
      dsimp only at h
      split at h
      · cases h
      · split_ifs at h <;> cases h
    | error x =>
      rw [hn] at h
      cases h
      unfold nvidiaEncoderEncode at hn
      cases hr : n.registeredResource with
      | none =>
        simp only [hr] at hn
        cases hn
      | some resource =>
        simp only [hr] at hn
        generalize (if (n.wantsIframe || decide (e.nextLtrAction.frameType = .intra)) = true then
          VideoFrameType.intra else e.nextLtrAction.frameType) = type at hn
        split_ifs at hn with hmaps hunlock hidr
        · cases hn
        · simpa using hidr
        · cases hn

end Whist.Codec
