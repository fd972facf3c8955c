import Whist.Foundation.Run
import Whist.Video.EncoderCases

/-! # What a call of `video_encoder_encode` reports -/
namespace Whist.Codec
open Whist.Ltr

/-- An encoder in use: the frame that the last intake took, if it took one, and how many
intakes and calls there were. -/
structure EncoderRun where
  encoder : VideoEncoder
  taken : Option ℕ := none
  intakes : ℕ := 0
  calls : ℕ := 0

inductive EncoderMove where
  | transferCapture (width height : ℤ) (q : EncoderInput)
  | setIframe
  | setLtrAction (action : LtrAction)
  | reconfigure (settings : EncoderSettings) (q : EncoderInput)
  | encode (q : EncoderInput)

namespace EncoderRun

def step (s : EncoderRun) : EncoderMove → Except EncoderFatal EncoderRun
  | .transferCapture width height q =>
    (transferCapture width height s.encoder s.intakes q).map fun r => { s with
      encoder := r.2.2
      taken := if r.1 then some s.intakes else none
      intakes := s.intakes + 1 }
  | .setIframe => .ok { s with encoder := videoEncoderSetIframe s.encoder }
  | .setLtrAction action => .ok { s with encoder := videoEncoderSetLtrAction s.encoder action }
  | .reconfigure settings q =>
    (reconfigureEncoder s.encoder settings q).map fun r => { s with encoder := r.2 }
  | .encode q =>
    (videoEncoderEncode s.encoder s.calls q).map fun r => { s with encoder := r.2, calls := s.calls + 1 }

end EncoderRun

def writeAvpacketsToBuffer (packets : List Packet) : Option ℕ :=
  if 10 < packets.length then none else some (4 + 4 * packets.length + (packets.map Packet.size).sum)

structure Holds (packets : List Packet) (b : Bitstream) : Prop where
  nonempty : packets ≠ []
  data : ∀ p ∈ packets, p.data = some b ∧ p.parts = packets.length
  parts : packets.map Packet.part = List.range packets.length

structure Delivered (s : EncoderRun) (e : VideoEncoder) : Prop where
  exact : ∃ frame key, s.taken = some frame ∧ Holds e.packets ⟨s.calls,some frame,key⟩ ∧
    (key = true ↔ e.frameType = .intra)
  size : writeAvpacketsToBuffer e.packets = some e.encodedFrameSize

def FfmpegEncoder.submitted (f : FfmpegEncoder) (counter : ℕ) (q : EncoderInput) : List SentFrame :=
  if q.addsFrame then f.graph ++ [⟨counter,f.activeFrame⟩] else f.graph

def FfmpegEncoder.Rejects (f : FfmpegEncoder) (counter : ℕ) (q : EncoderInput) : Prop :=
  let r := submitFrames q.sink (f.submitted counter q)
  r.1 = false ∨ (receivePackets MAX_ENCODER_PACKETS q.received (f.codec ++ r.2.2)).1 = false

def VideoEncoder.Fails (e : VideoEncoder) (counter : ℕ) (q : EncoderInput) : Prop :=
  match e.activeEncoder with
  | .nvidia => ∃ n n', e.nvidiaEncoder = some n ∧
      nvidiaEncoderEncode { n with ltrAction := e.nextLtrAction } counter q = .ok (false,n')
  | .ffmpeg => ∃ f, e.ffmpegEncoder = some f ∧
      (q.addsFrame = false ∨ f.hwFrame.isSome ∧ q.getsBuffer = false ∨ f.Rejects counter q)

/-- A call reports what happened: zero only with the frame delivered, and never for a failure. -/
structure Reports (s : EncoderRun) (q : EncoderInput) (zero : Bool) (e : VideoEncoder) : Prop where
  delivered : zero = true → Delivered s e
  failed : s.encoder.Fails s.calls q → zero = false

structure NvidiaEncoder.Delivers (n : NvidiaEncoder) (s : EncoderRun) (q : EncoderInput) : Prop where
  registered : ∃ resource frame, n.registeredResource = some resource ∧ resource.frame = some frame ∧
    s.taken = some frame ∧ (resource.deviceType = .nvidia → q.maps = true)
  encodes : q.encodes = true
  locks : q.locks = true
  key : q.key = true ↔ n.wantsIframe = true ∨ s.encoder.nextLtrAction.frameType = .intra
  filter : ∀ held, s.encoder.bsf = some held → held = [] ∧ q.filtered ≠ [] ∧ q.filtered.length ≤ 10 ∧
    q.filtered.length ≤ q.filterDelivers

structure FfmpegEncoder.Delivers (f : FfmpegEncoder) (s : EncoderRun) (q : EncoderInput) : Prop where
  empty : f.graph = [] ∧ f.codec = []
  adds : q.addsFrame = true
  hwFrame : f.hwFrame.isSome → q.getsBuffer = true
  frame : ∃ frame, f.activeFrame = some frame ∧ s.taken = some frame
  sink : ∃ answers, q.sink = .frame true :: answers ∧ answers.head? ≠ some .error
  received : ∃ key size answers, q.received = .packet key size :: answers ∧ answers.head? ≠ some .error ∧
    (key = true ↔ f.wrapped = 0 ∨ f.wantsIframe = true ∨ s.encoder.nextLtrAction.frameType = .intra)

inductive Reportable (s : EncoderRun) (q : EncoderInput) : Prop
  | nvidia (n : NvidiaEncoder) (active : s.encoder.activeEncoder = .nvidia)
      (slot : s.encoder.nvidiaEncoder = some n) (delivers : n.Delivers s q)
  | ffmpeg (f : FfmpegEncoder) (active : s.encoder.activeEncoder = .ffmpeg)
      (encoder : s.encoder.ffmpegEncoder = some f) (delivers : f.Rejects s.calls q ∨ f.Delivers s q)

variable {e e' : VideoEncoder} {n n' : NvidiaEncoder} {f : FfmpegEncoder} {q : EncoderInput}
  {counter calls : ℕ} {r : Bool}

structure NvidiaEncoder.Encodes (n : NvidiaEncoder) (q : EncoderInput) (resource : RegisteredResource) :
    Prop where
  registered : n.registeredResource = some resource
  maps : resource.deviceType = .nvidia → q.maps = true
  encodes : q.encodes = true
  locks : q.locks = true

def NvidiaEncoder.encoded (n : NvidiaEncoder) (counter : ℕ) (q : EncoderInput) (frame : Option ℕ) :
    NvidiaEncoder :=
  { n with
    frame := some ⟨counter,frame,q.key⟩
    frameSize := q.size
    frameType := if n.wantsIframe || decide (n.ltrAction.frameType = .intra) then .intra
      else n.ltrAction.frameType
    registeredResource := none
    seen := n.seen ++ [counter]
    wantsIframe := false }

theorem nvidiaEncoderEncode_cases (h : nvidiaEncoderEncode n counter q = .ok (r,n')) :
    r = true ∧ (∃ resource, n.Encodes q resource ∧ n' = n.encoded counter q resource.frame) ∨
      r = false ∧ (∀ resource, ¬n.Encodes q resource) ∧ (n'.frame = n.frame ∨ n'.frame = none) := by
  unfold nvidiaEncoderEncode at h
  cases hr : n.registeredResource with
  | none =>
    rw [hr] at h
    cases h
    refine .inr ⟨rfl,fun resource he => ?_,.inl rfl⟩
    have hsome := he.registered
    rw [hr] at hsome
    cases hsome
  | some resource =>
    have hunique : ∀ resource', n.Encodes q resource' → resource' = resource := fun resource' he =>
      Option.some.inj (he.registered.symm.trans hr)
    simp only [hr] at h
    generalize htype : (if (n.wantsIframe || decide (n.ltrAction.frameType = .intra)) = true then
      VideoFrameType.intra else n.ltrAction.frameType) = type at h
    split_ifs at h with hmaps hunlock hidr hencodes hunmap hlocks
    · cases h
      refine .inr ⟨rfl,fun resource' he => ?_,.inl rfl⟩
      have hm := he.maps (hunique _ he ▸ hmaps.1)
      simp [hm] at hmaps
    · cases h
      refine .inr ⟨rfl,fun resource' he => ?_,.inr rfl⟩
      simp [he.encodes] at hencodes
    · cases h
      refine .inr ⟨rfl,fun resource' he => ?_,.inr rfl⟩
      simp [he.locks] at hlocks
    · cases h
      refine .inl ⟨rfl,resource,⟨hr,fun hd => ?_,by simpa using hencodes,by simpa using hlocks⟩,?_⟩
      · simpa [hd] using hmaps
      · rw [NvidiaEncoder.encoded, htype]

theorem holds_singleton (b : Bitstream) (size : ℕ) : Holds [{ data := some b, size := size }] b where
  nonempty := by simp
  data := by simp
  parts := rfl

theorem holds_filterParts {b : Bitstream} {sizes : List ℕ} (h : sizes ≠ []) :
    Holds (filterParts (some b) sizes) b where
  nonempty := by simpa [filterParts, List.mapIdx_eq_nil_iff] using h
  data := by
    intro p hp
    obtain ⟨i,hi,rfl⟩ := List.mem_mapIdx.mp hp
    simp [filterParts]
  parts := by
    apply List.ext_getElem <;> simp [filterParts]

theorem length_filterParts (data : Option Bitstream) (sizes : List ℕ) :
    (filterParts data sizes).length = sizes.length := List.length_mapIdx

theorem packetsSize_eq (packets : List Packet) :
    packetsSize packets = 4 + 4 * packets.length + (packets.map Packet.size).sum := by
  induction packets with
  | nil => rfl
  | cons p packets ih =>
    simp only [packetsSize, List.map_cons, List.sum_cons, List.length_cons] at ih ⊢
    omega

theorem writeAvpacketsToBuffer_eq {packets : List Packet} :
    writeAvpacketsToBuffer packets = some (packetsSize packets) ↔ packets.length ≤ 10 := by
  unfold writeAvpacketsToBuffer
  rw [packetsSize_eq]
  split_ifs with h
  · simp [h]
  · simpa using h

structure Older (calls : ℕ) (e : VideoEncoder) : Prop where
  bitstream : ∀ i n b, e.nvidiaEncoders i = some n → n.frame = some b → b.call < calls
  sent : ∀ f, e.ffmpegEncoder = some f → ∀ x ∈ f.graph ++ f.codec, x.call < calls
  held : ∀ held, e.bsf = some held → ∀ p ∈ held, ∀ b, p.data = some b → b.call < calls

theorem transferNvidiaData_cases (h : transferNvidiaData e n q = .ok e') :
    e'.frameType = n.frameType ∧ e'.nvidiaEncoders = (e.setNvidia n).nvidiaEncoders ∧
      e'.ffmpegEncoder = e.ffmpegEncoder ∧
      (e.bsf = none ∧ e'.bsf = none ∧ e'.packets = [{ data := n.frame, size := n.frameSize }] ∧
          e'.encodedFrameSize = 8 + n.frameSize ∨
        ∃ held delivered, e.bsf = some held ∧ delivered = min q.filterDelivers MAX_ENCODER_PACKETS ∧
          e'.packets = (held ++ filterParts n.frame q.filtered).take delivered ∧
          e'.bsf = some ((held ++ filterParts n.frame q.filtered).drop delivered) ∧
          e'.encodedFrameSize = packetsSize e'.packets) := by
  unfold transferNvidiaData at h
  have hbsf : ({ e.setNvidia n with frameType := n.frameType } : VideoEncoder).bsf = e.bsf := rfl
  dsimp only at h
  cases hb : e.bsf with
  | none =>
    rw [hbsf, hb] at h
    cases h
    exact ⟨rfl,rfl,rfl,.inl ⟨rfl,rfl,rfl,rfl⟩⟩
  | some held =>
    rw [hbsf, hb] at h
    dsimp only at h
    split_ifs at h
    cases h
    exact ⟨rfl,rfl,rfl,.inr ⟨held,_,rfl,rfl,rfl,rfl,rfl⟩⟩

theorem encoded_intra (n : NvidiaEncoder) (counter : ℕ) (q : EncoderInput) (frame : Option ℕ) :
    (n.encoded counter q frame).frameType = .intra ↔ n.wantsIframe = true ∨ n.ltrAction.frameType = .intra := by
  unfold NvidiaEncoder.encoded
  cases n.wantsIframe
  · by_cases hintra : n.ltrAction.frameType = .intra <;> simp [hintra]
  · simp

theorem holds_take_iff {held : List Packet} {b b' : Bitstream} {sizes : List ℕ} {delivered : ℕ}
    (hheld : ∀ p ∈ held, ∀ b, p.data = some b → b.call < calls) (hcall : b.call = calls) :
    Holds ((held ++ filterParts (some b') sizes).take delivered) b ↔
      b' = b ∧ held = [] ∧ sizes ≠ [] ∧ sizes.length ≤ delivered := by
  constructor
  · intro h
    have hpos : delivered ≠ 0 := fun hzero => h.nonempty (by rw [hzero, List.take_zero])
    obtain ⟨d,rfl⟩ := Nat.exists_eq_succ_of_ne_zero hpos
    cases held with
    | cons p held =>
      have hp := (h.data p (by simp)).1
      have hlt := hheld p (by simp) b hp
      exact absurd hcall hlt.ne
    | nil =>
      rw [List.nil_append] at h
      cases sizes with
      | nil => exact absurd (by simp [filterParts]) h.nonempty
      | cons size sizes =>
        obtain ⟨hdata,hparts⟩ := h.data ⟨some b',0,(size :: sizes).length,size⟩ (by simp [filterParts])
        simp only [List.length_take, length_filterParts] at hparts
        exact ⟨Option.some.inj hdata,rfl,by simp,by omega⟩
  · rintro ⟨rfl,rfl,hne,hle⟩
    rw [List.nil_append, List.take_of_length_le (by rw [length_filterParts]; exact hle)]
    exact holds_filterParts hne

theorem nvidia_reports_iff {s : EncoderRun} (hold : Older s.calls s.encoder)
    (active : s.encoder.activeEncoder = .nvidia) (slot : s.encoder.nvidiaEncoder = some n)
    (h : videoEncoderEncode s.encoder s.calls q = .ok (r,e)) : Reports s q r e ↔ n.Delivers s q := by
  obtain ⟨rfl,zero,n',hn,he⟩ := videoEncoderEncode_nvidia active slot h
  obtain ⟨htype,-,-,htransfer⟩ := transferNvidiaData_cases he
  have hfails : zero = false → s.encoder.Fails s.calls q := by
    rintro rfl
    unfold VideoEncoder.Fails
    rw [active]
    exact ⟨n,n',slot,hn⟩
  have hnot : zero = true → ¬s.encoder.Fails s.calls q := by
    intro hzero hf
    unfold VideoEncoder.Fails at hf
    rw [active] at hf
    obtain ⟨m,m',hm,hm'⟩ := hf
    rw [slot] at hm
    cases hm
    rw [hn] at hm'
    cases hm'
    cases hzero
  rcases nvidiaEncoderEncode_cases hn with ⟨rfl,resource,henc,rfl⟩ | ⟨rfl,hno,-⟩
  · have hintra := (encoded_intra { n with ltrAction := s.encoder.nextLtrAction } s.calls q resource.frame)
    rw [← htype] at hintra
    constructor
    · intro hrep
      obtain ⟨⟨frame,key,htaken,hholds,hkey⟩,hsize⟩ := hrep.delivered rfl
      rcases htransfer with ⟨hbsf,-,hpackets,-⟩ | ⟨held,delivered,hbsf,rfl,hpackets,-,hes⟩
      · rw [hpackets] at hholds
        have hdata := (hholds.data _ List.mem_cons_self).1
        simp only [NvidiaEncoder.encoded, Option.some.injEq, Bitstream.mk.injEq, true_and] at hdata
        obtain ⟨hframe,rfl⟩ := hdata
        refine ⟨⟨resource,frame,henc.registered,hframe,htaken,henc.maps⟩,henc.encodes,henc.locks,
          hkey.trans hintra,fun held hheld => ?_⟩
        rw [hbsf] at hheld
        cases hheld
      · rw [hpackets] at hholds
        obtain ⟨hdata,hempty,hne,hle⟩ := (holds_take_iff (hold.held held hbsf) rfl).mp hholds
        simp only [Bitstream.mk.injEq, true_and] at hdata
        obtain ⟨hframe,rfl⟩ := hdata
        refine ⟨⟨resource,frame,henc.registered,hframe,htaken,henc.maps⟩,henc.encodes,henc.locks,
          hkey.trans hintra,fun held' hheld' => ?_⟩
        rw [hbsf] at hheld'
        cases hheld'
        rw [hes, writeAvpacketsToBuffer_eq, hpackets, hempty, List.nil_append, List.length_take,
          length_filterParts] at hsize
        exact ⟨hempty,hne,by omega,by omega⟩
    · intro hdel
      obtain ⟨resource',frame,hreg,hframe,htaken,-⟩ := hdel.registered
      obtain rfl : resource' = resource := Option.some.inj (hreg.symm.trans henc.registered)
      refine ⟨fun _ => ?_,fun hf => absurd hf (hnot rfl)⟩
      have hkey := hdel.key.trans hintra.symm
      rcases htransfer with ⟨hbsf,-,hpackets,hes⟩ | ⟨held,delivered,hbsf,rfl,hpackets,-,hes⟩
      · refine ⟨⟨frame,q.key,htaken,?_,hkey⟩,?_⟩
        · rw [hpackets, ← hframe]
          exact holds_singleton _ _
        · have hwrite := (@writeAvpacketsToBuffer_eq e.packets).mpr (by simp [hpackets])
          rw [hwrite, hes, hpackets]
          simp only [packetsSize, List.map_cons, List.map_nil, List.sum_singleton, Option.some.injEq]
          omega
      · obtain ⟨hempty,hne,hten,hle⟩ := hdel.filter held hbsf
        have htwenty : q.filtered.length ≤ min q.filterDelivers MAX_ENCODER_PACKETS :=
          le_min hle (hten.trans (by decide))
        refine ⟨⟨frame,q.key,htaken,?_,hkey⟩,?_⟩
        · rw [hpackets]
          exact (holds_take_iff (hold.held held hbsf) rfl).mpr ⟨by rw [← hframe],hempty,hne,htwenty⟩
        · rw [hes, writeAvpacketsToBuffer_eq, hpackets, hempty, List.nil_append, List.length_take,
            length_filterParts]
          omega
  · constructor
    · intro hrep
      exact absurd (hrep.failed (hfails rfl)) (by decide)
    · intro hdel
      obtain ⟨resource,frame,hreg,-,-,hmaps⟩ := hdel.registered
      exact absurd ⟨hreg,hmaps,hdel.encodes,hdel.locks⟩ (hno resource)

theorem submitFrames_nil (answers : List SinkAnswer) :
    (submitFrames answers []).1 = true ↔ answers.head? ≠ some .error := by
  cases answers with
  | nil => simp [submitFrames]
  | cons a answers => rcases a with (_ | _) | _ | _ <;> simp [submitFrames]

theorem receivePackets_nil (room : ℕ) (answers : List ReceiveAnswer) :
    (receivePackets (room + 1) answers []).1 = true ↔ answers.head? ≠ some .error := by
  cases answers with
  | nil => simp [receivePackets]
  | cons a answers => cases a <;> simp [receivePackets]

theorem submitFrames_cons {answers : List SinkAnswer} {graph sent : List SentFrame} {x : SentFrame}
    (h : (submitFrames answers graph).2.2 = x :: sent) :
    ∃ answers' graph', answers = .frame true :: answers' ∧ graph = x :: graph' ∧
      (submitFrames answers graph).1 = (submitFrames answers' graph').1 ∧
      (submitFrames answers' graph').2.2 = sent := by
  cases answers with
  | nil => simp [submitFrames] at h
  | cons a answers =>
    cases graph with
    | nil => rcases a with (_ | _) | _ | _ <;> simp [submitFrames] at h
    | cons y graph =>
      rcases a with (_ | _) | _ | _
      · simp [submitFrames] at h
      · simp only [submitFrames, List.cons.injEq] at h
        exact ⟨answers,graph,rfl,by rw [h.1],rfl,h.2⟩
      · simp [submitFrames] at h
      · simp [submitFrames] at h

theorem receivePackets_cons {room : ℕ} {answers : List ReceiveAnswer} {codec : List SentFrame}
    {p : Packet} {packets : List Packet} (h : (receivePackets room answers codec).2.2 = p :: packets) :
    ∃ room' key size answers' x codec', room = room' + 1 ∧ answers = .packet key size :: answers' ∧
      codec = x :: codec' ∧ p = { data := some ⟨x.call,x.frame,key⟩, size := size } ∧
      (receivePackets room answers codec).1 = (receivePackets room' answers' codec').1 := by
  cases room with
  | zero => simp [receivePackets] at h
  | succ room =>
    cases answers with
    | nil => simp [receivePackets] at h
    | cons a answers =>
      cases codec with
      | nil => cases a <;> simp [receivePackets] at h
      | cons x codec =>
        cases a with
        | packet key size =>
          simp only [receivePackets, List.cons.injEq] at h
          exact ⟨room,key,size,answers,x,codec,rfl,rfl,rfl,h.1.symm,rfl⟩
        | again => simp [receivePackets] at h
        | error => simp [receivePackets] at h

/-- What `ffmpeg_encoder_send_frame` comes to. -/
structure FfmpegEncoder.Sent (f : FfmpegEncoder) (counter : ℕ) (q : EncoderInput) (action : LtrAction)
    (p : Bool × FfmpegEncoder) : Prop where
  zero : p.1 = (submitFrames q.sink (f.submitted counter q)).1
  graph : p.2.graph = (submitFrames q.sink (f.submitted counter q)).2.1
  codec : p.2.codec = f.codec ++ (submitFrames q.sink (f.submitted counter q)).2.2
  frameType : p.1 = true →
    p.2.frameType = if f.wrapped = 0 ∨ f.wantsIframe = true then .intra else action.frameType

theorem ffmpegEncoderSendFrame_sent (f : FfmpegEncoder) (counter : ℕ) (q : EncoderInput) (action : LtrAction) :
    f.Sent counter q action (ffmpegEncoderSendFrame { f with ltrAction := action } counter q) := by
  unfold ffmpegEncoderSendFrame
  change f.Sent counter q action (if (submitFrames q.sink (f.submitted counter q)).1 = true then _ else _)
  cases hs : (submitFrames q.sink (f.submitted counter q)).1 with
  | false => exact ⟨hs.symm,rfl,rfl,fun h => by cases h⟩
  | true => exact ⟨hs.symm,rfl,rfl,fun _ => rfl⟩

theorem transferFfmpegData_zero (e : VideoEncoder) (f : FfmpegEncoder) (q : EncoderInput) :
    (transferFfmpegData e f q).1 = (receivePackets MAX_ENCODER_PACKETS q.received f.codec).1 := by
  unfold transferFfmpegData
  cases h : (receivePackets MAX_ENCODER_PACKETS q.received f.codec).1 <;> simp [h]

theorem transferFfmpegData_packets (e : VideoEncoder) (f : FfmpegEncoder) (q : EncoderInput) :
    (transferFfmpegData e f q).2.packets = (receivePackets MAX_ENCODER_PACKETS q.received f.codec).2.2 ∧
      (transferFfmpegData e f q).2.encodedFrameSize =
        packetsSize (receivePackets MAX_ENCODER_PACKETS q.received f.codec).2.2 := by
  unfold transferFfmpegData
  dsimp only
  split_ifs <;> exact ⟨rfl,rfl⟩

theorem transferFfmpegData_rest (e : VideoEncoder) (f : FfmpegEncoder) (q : EncoderInput) :
    (transferFfmpegData e f q).2.nvidiaEncoders = e.nvidiaEncoders ∧
      (transferFfmpegData e f q).2.ffmpegEncoder =
        some { f with codec := (receivePackets MAX_ENCODER_PACKETS q.received f.codec).2.1 } ∧
      (transferFfmpegData e f q).2.bsf = e.bsf := by
  unfold transferFfmpegData
  dsimp only
  split_ifs <;> exact ⟨rfl,rfl,rfl⟩

theorem transferFfmpegData_frameType (h : (transferFfmpegData e f q).1 = true) :
    (transferFfmpegData e f q).2.frameType = f.frameType := by
  rw [transferFfmpegData_zero] at h
  unfold transferFfmpegData
  dsimp only
  rw [if_pos h]

/-- A call on ffmpeg that goes well has the packets that came out, and the type decided. -/
theorem videoEncoderEncode_ffmpeg (active : e.activeEncoder = .ffmpeg) (encoder : e.ffmpegEncoder = some f)
    (h : videoEncoderEncode e counter q = .ok (r,e')) :
    (r = false ↔ f.Rejects counter q) ∧
      (r = true → e'.packets = (receivePackets MAX_ENCODER_PACKETS q.received
          (f.codec ++ (submitFrames q.sink (f.submitted counter q)).2.2)).2.2 ∧
        e'.encodedFrameSize = packetsSize e'.packets ∧
        (e'.frameType = .intra ↔ f.wrapped = 0 ∨ f.wantsIframe = true ∨ e.nextLtrAction.frameType = .intra)) := by
  rw [videoEncoderEncode_ffmpeg_eq active encoder] at h
  dsimp only at h
  have hsent := ffmpegEncoderSendFrame_sent f counter q e.nextLtrAction
  set p := ffmpegEncoderSendFrame { f with ltrAction := e.nextLtrAction } counter q
  unfold FfmpegEncoder.Rejects
  dsimp only
  rw [← hsent.zero, ← hsent.codec]
  cases hp : p.1 with
  | false =>
    rw [hp, if_neg (by decide)] at h
    cases h
    exact ⟨by simp,fun hr => by cases hr⟩
  | true =>
    rw [hp, if_pos rfl] at h
    obtain ⟨hzero,hpackets⟩ := Prod.ext_iff.mp (Except.ok.inj h)
    rw [transferFfmpegData_zero] at hzero
    dsimp only at hzero hpackets
    refine ⟨by simp [hzero],fun hr => ?_⟩
    rw [← hpackets]
    refine ⟨(transferFfmpegData_packets _ _ _).1,(transferFfmpegData_packets _ _ _).2.trans
      (congrArg packetsSize (transferFfmpegData_packets _ _ _).1.symm),?_⟩
    rw [transferFfmpegData_frameType (by rw [transferFfmpegData_zero, hzero, hr]), hsent.frameType hp]
    by_cases hz : f.wrapped = 0 ∨ f.wantsIframe = true
    · rw [if_pos hz]
      tauto
    · rw [if_neg hz]
      tauto

theorem receivePackets_alone (hempty : f.graph = [] ∧ f.codec = []) (hadd : q.addsFrame = true)
    {sink : List SinkAnswer} (hsink : q.sink = .frame true :: sink) {key : Bool} {size : ℕ}
    {received : List ReceiveAnswer} (hreceived : q.received = .packet key size :: received) :
    (receivePackets MAX_ENCODER_PACKETS q.received
      (f.codec ++ (submitFrames q.sink (f.submitted calls q)).2.2)).2.2 =
      [{ data := some ⟨calls,f.activeFrame,key⟩, size := size }] := by
  have hsent : (submitFrames q.sink (f.submitted calls q)).2.2 = [⟨calls,f.activeFrame⟩] := by
    unfold FfmpegEncoder.submitted
    rw [if_pos hadd, hempty.1, hsink]
    cases sink with
    | nil => rfl
    | cons a sink => rcases a with (_ | _) | _ | _ <;> rfl
  rw [hsent, hempty.2, hreceived]
  cases received with
  | nil => rfl
  | cons a received => cases a <;> rfl

theorem holds_receivePackets_iff {b : Bitstream} (hold : ∀ x ∈ f.graph ++ f.codec, x.call < calls)
    (hcall : b.call = calls) (hok : ¬f.Rejects calls q) :
    Holds (receivePackets MAX_ENCODER_PACKETS q.received
        (f.codec ++ (submitFrames q.sink (f.submitted calls q)).2.2)).2.2 b ↔
      (f.graph = [] ∧ f.codec = []) ∧ q.addsFrame = true ∧ f.activeFrame = b.frame ∧
        (∃ answers, q.sink = .frame true :: answers ∧ answers.head? ≠ some .error) ∧
        ∃ size answers, q.received = .packet b.key size :: answers ∧ answers.head? ≠ some .error := by
  unfold FfmpegEncoder.Rejects at hok
  dsimp only at hok
  rw [not_or, Bool.not_eq_false, Bool.not_eq_false] at hok
  obtain ⟨hsubmit,hreceive⟩ := hok
  constructor
  · intro h
    cases hp : (receivePackets MAX_ENCODER_PACKETS q.received
        (f.codec ++ (submitFrames q.sink (f.submitted calls q)).2.2)).2.2 with
    | nil => exact absurd hp h.nonempty
    | cons p packets =>
      obtain ⟨room,key,size,answers,x,codec,hroom,hreceived,hcodec,hpacket,hrest⟩ := receivePackets_cons hp
      rw [hp] at h
      obtain ⟨hdata,hparts⟩ := h.data p List.mem_cons_self
      rw [hpacket] at hdata
      obtain rfl := Option.some.inj hdata
      obtain rfl : x.call = calls := hcall
      -- Nothing older can have come first.
      have hfirst : f.codec = [] := by
        cases hc : f.codec with
        | nil => rfl
        | cons y codec' =>
          rw [hc] at hcodec
          obtain ⟨rfl,-⟩ := List.cons.inj hcodec
          exact absurd (hold y (by simp [hc])) (lt_irrefl _)
      rw [hfirst, List.nil_append] at hcodec
      obtain ⟨answers',graph,hsink,hgraph,hok,hsent⟩ := submitFrames_cons hcodec
      have hadds : f.graph = [] ∧ q.addsFrame = true ∧ x = ⟨x.call,f.activeFrame⟩ ∧ graph = [] := by
        unfold FfmpegEncoder.submitted at hgraph
        cases hg : f.graph with
        | cons y graph' =>
          have hy : y = x := by
            rw [hg] at hgraph
            split_ifs at hgraph
            · exact (List.cons.inj hgraph).1
            · exact (List.cons.inj hgraph).1
          exact absurd (hold y (by simp [hg])) (by rw [hy]; exact lt_irrefl _)
        | nil =>
          rw [hg, List.nil_append] at hgraph
          split_ifs at hgraph with ha
          obtain ⟨hx,hnil⟩ := List.cons.inj hgraph
          exact ⟨rfl,ha,hx.symm,hnil.symm⟩
      obtain ⟨hgraph',hadd,hx,rfl⟩ := hadds
      have hnil : codec = [] := by
        rw [← hsent]
        cases answers' with
        | nil => rfl
        | cons a answers' => rcases a with (_ | _) | _ | _ <;> rfl
      subst hnil
      rw [hsubmit] at hok
      rw [hreceive] at hrest
      have hroom' : room = 18 + 1 := by
        change 20 = room + 1 at hroom
        omega
      rw [hroom'] at hrest
      refine ⟨⟨hgraph',hfirst⟩,hadd,?_,⟨answers',hsink,(submitFrames_nil answers').mp hok.symm⟩,
        ⟨size,answers,hreceived,(receivePackets_nil 18 answers).mp hrest.symm⟩⟩
      rw [hx]
  · rintro ⟨hempty,hadd,hframe,⟨sink,hsink,-⟩,⟨size,received,hreceived,-⟩⟩
    rw [receivePackets_alone hempty hadd hsink hreceived, hframe, ← hcall]
    exact holds_singleton b size

theorem ffmpeg_reports_iff {s : EncoderRun} (hold : Older s.calls s.encoder)
    (active : s.encoder.activeEncoder = .ffmpeg) (encoder : s.encoder.ffmpegEncoder = some f)
    (h : videoEncoderEncode s.encoder s.calls q = .ok (r,e)) :
    Reports s q r e ↔ f.Rejects s.calls q ∨ f.Delivers s q := by
  obtain ⟨hzero,hdone⟩ := videoEncoderEncode_ffmpeg active encoder h
  have hfails : s.encoder.Fails s.calls q ↔
      q.addsFrame = false ∨ f.hwFrame.isSome ∧ q.getsBuffer = false ∨ f.Rejects s.calls q := by
    unfold VideoEncoder.Fails
    rw [active, encoder]
    simp
  by_cases hrejects : f.Rejects s.calls q
  · obtain rfl := hzero.mpr hrejects
    exact ⟨fun _ => .inl hrejects,fun _ => ⟨fun hr => (by cases hr),fun _ => rfl⟩⟩
  · have hr : r = true := by simpa using fun hr => hrejects (hzero.mp hr)
    subst hr
    obtain ⟨hpackets,hsize,htype⟩ := hdone rfl
    have hiff : ∀ b : Bitstream, b.call = s.calls → (Holds e.packets b ↔ _) := fun b hb =>
      hpackets ▸ holds_receivePackets_iff (hold.sent f encoder) hb hrejects
    constructor
    · intro hrep
      obtain ⟨⟨frame,key,htaken,hholds,hkey⟩,-⟩ := hrep.delivered rfl
      obtain ⟨hempty,hadd,hframe,hsink,size,answers,hreceived,hrest⟩ := (hiff _ rfl).mp hholds
      have hno : ¬s.encoder.Fails s.calls q := fun hf => by cases hrep.failed hf
      rw [hfails] at hno
      refine .inr ⟨hempty,hadd,fun hsome => ?_,⟨frame,hframe,htaken⟩,hsink,
        ⟨key,size,answers,hreceived,hrest,hkey.trans htype⟩⟩
      by_contra hb
      exact hno (.inr (.inl ⟨hsome,by simpa using hb⟩))
    · rintro (hrej | hdel)
      · exact absurd hrej hrejects
      · obtain ⟨frame,hframe,htaken⟩ := hdel.frame
        obtain ⟨key,size,answers,hreceived,hrest,hkey⟩ := hdel.received
        obtain ⟨sink,hsink,-⟩ := hdel.sink
        have hone := hpackets.trans (receivePackets_alone hdel.empty hdel.adds hsink hreceived)
        rw [hframe] at hone
        refine ⟨fun _ => ⟨⟨frame,key,htaken,hone ▸ holds_singleton _ _,hkey.trans htype.symm⟩,?_⟩,fun hf => ?_⟩
        · rw [hsize, writeAvpacketsToBuffer_eq, hone]
          simp
        · rcases hfails.mp hf with ha | ⟨hsome,hb⟩ | hrej
          · rw [hdel.adds] at ha
            cases ha
          · rw [hdel.hwFrame hsome] at hb
            cases hb
          · exact absurd hrej hrejects

theorem Older.mono {calls' : ℕ} (h : Older calls e) (hle : calls ≤ calls') : Older calls' e where
  bitstream i n b hn hb := (h.bitstream i n b hn hb).trans_le hle
  sent f hf x hx := (h.sent f hf x hx).trans_le hle
  held l hl p hp b hb := (h.held l hl p hp b hb).trans_le hle

theorem Older.slot (h : Older calls e) (slot : e.nvidiaEncoder = some n) (b : Bitstream)
    (hb : n.frame = some b) : b.call < calls := h.bitstream _ n b slot hb

theorem Older.setNvidia (h : Older calls e) (hn : ∀ b, n.frame = some b → b.call < calls) :
    Older calls (e.setNvidia n) where
  bitstream i m b hm hb := by
    by_cases hi : i = e.activeEncoderIdx
    · subst hi
      have heq : m = n := Option.some.inj (hm.symm.trans (Function.update_self ..))
      exact hn b (heq ▸ hb)
    · have hmem : e.nvidiaEncoders i = some m := (Function.update_of_ne hi _ _).symm.trans hm
      exact h.bitstream i m b hmem hb
  sent := h.sent
  held := h.held

theorem createNvidiaEncoder_frame {bitrate width height vbvSize : ℤ} {codec : CodecType}
    (h : createNvidiaEncoder bitrate codec width height vbvSize q = .ok (some n)) : n.frame = none := by
  unfold createNvidiaEncoder at h
  split_ifs at h
  · cases h
  · cases h
    rfl

theorem older_createVideoEncoder {settings : EncoderSettings}
    (h : createVideoEncoder settings q = .ok (some e)) : Older 0 e := by
  have hbsf : ∀ held, createOutputFilter settings.codecType q = some held → held = [] := by
    intro held hheld
    unfold createOutputFilter at hheld
    split_ifs at hheld
    cases hheld
    rfl
  unfold createVideoEncoder at h
  cases hc : createNvidiaEncoder settings.bitrate settings.codecType settings.width settings.height
      settings.vbvSize q with
  | error x =>
    rw [hc] at h
    cases h
  | ok created =>
    rw [hc] at h
    cases created with
    | some n =>
      cases h
      have hn : n.frame = none := createNvidiaEncoder_frame hc
      refine ⟨fun i m b hm hb => ?_,fun f hf => (by cases hf),fun held hheld p hp => ?_⟩
      · by_cases hi : i = ⟨0,Nat.two_pos⟩
        · subst hi
          obtain rfl : n = m := by simpa using hm
          rw [hn] at hb
          cases hb
        · have hno : (none : Option NvidiaEncoder) = some m :=
            (Function.update_of_ne hi (some n) fun _ => none).symm.trans hm
          cases hno
      · rw [hbsf held hheld] at hp
        cases hp
    | none =>
      obtain ⟨f,hf,rfl⟩ := Option.map_eq_some_iff.mp (Except.ok.inj h)
      refine ⟨fun i m b hm => (by cases hm),fun f' hf' x hx => ?_,fun held hheld p hp => ?_⟩
      · obtain rfl := Option.some.inj hf'
        unfold createFfmpegEncoder at hf
        split_ifs at hf <;> cases hf <;> cases hx
      · rw [hbsf held hheld] at hp
        cases hp

theorem nvidiaReconfigureEncoder_frame {width height bitrate vbvSize : ℤ} {codec : CodecType}
    (h : nvidiaReconfigureEncoder n width height bitrate vbvSize codec q = .ok (r,n')) :
    n'.frame = n.frame := by
  unfold nvidiaReconfigureEncoder at h
  split_ifs at h <;> cases h <;> rfl

theorem registerFrame_frame (n : NvidiaEncoder) (frame : ℕ) (q : EncoderInput) :
    (registerFrame n frame q).2.frame = n.frame := by
  unfold registerFrame
  split <;> rfl

theorem nvidiaEncoderFrameIntake_frame {width height : ℤ} {frame : ℕ}
    (h : nvidiaEncoderFrameIntake n width height frame q = .ok (r,n')) : n'.frame = n.frame := by
  unfold nvidiaEncoderFrameIntake at h
  split_ifs at h
  · cases hr : nvidiaReconfigureEncoder n width height n.bitrate n.vbvSize n.codecType q with
    | error x =>
      rw [hr] at h
      cases h
    | ok p =>
      obtain ⟨zero,m⟩ := p
      rw [hr] at h
      have hm := nvidiaReconfigureEncoder_frame hr
      cases zero with
      | false =>
        cases h
        exact hm
      | true =>
        have heq : (registerFrame m frame q).2 = n' := (Prod.ext_iff.mp (Except.ok.inj h)).2
        exact heq ▸ (registerFrame_frame m frame q).trans hm
  · have heq : (registerFrame n frame q).2 = n' := (Prod.ext_iff.mp (Except.ok.inj h)).2
    exact heq ▸ registerFrame_frame n frame q

theorem Older.switchContext (h : Older calls e) (hs : switchContext e n q = .ok e') : Older calls e' := by
  unfold Codec.switchContext at hs
  dsimp only at hs
  generalize (if e.activeEncoderIdx.val = 1 then (⟨0,Nat.two_pos⟩ : Fin 2) else ⟨1,Nat.one_lt_two⟩) = idx at hs
  cases hslot : ({ e with activeEncoderIdx := idx } : VideoEncoder).nvidiaEncoder with
  | some m =>
    rw [hslot] at hs
    cases hs
    exact ⟨h.bitstream,h.sent,h.held⟩
  | none =>
    rw [hslot] at hs
    dsimp only at hs
    cases hc : createNvidiaEncoder n.bitrate n.codecType n.width n.height n.vbvSize q with
    | error x =>
      rw [hc] at hs
      cases hs
    | ok created =>
      rw [hc] at hs
      cases hs
      refine ⟨fun i m b hm hb => ?_,h.sent,h.held⟩
      by_cases hi : i = idx
      · subst hi
        obtain rfl : created = some m := by simpa using hm
        rw [createNvidiaEncoder_frame hc] at hb
        cases hb
      · have hmem : e.nvidiaEncoders i = some m := (Function.update_of_ne hi _ _).symm.trans hm
        exact h.bitstream i m b hmem hb

theorem Older.transferCapture {width height : ℤ} {frame : ℕ} {p : Bool × Bool × VideoEncoder}
    (h : Older calls e) (ht : transferCapture width height e frame q = .ok p) : Older calls p.2.2 := by
  unfold Codec.transferCapture at ht
  split_ifs at ht
  · cases ht
    exact h
  · cases ht
    exact h
  cases hactive : e.activeEncoder with
  | nvidia =>
    rw [hactive] at ht
    dsimp only at ht
    cases hslot : e.nvidiaEncoder with
    | none =>
      rw [hslot] at ht
      cases ht
    | some old =>
      rw [hslot] at ht
      dsimp only at ht
      cases hs : (if decide (old.cudaContext ≠ q.cudaContext) = true then Codec.switchContext e old q
          else .ok e : Except EncoderFatal VideoEncoder) with
      | error x =>
        rw [hs] at ht
        cases ht
      | ok e₁ =>
        rw [hs] at ht
        dsimp only at ht
        have h₁ : Older calls e₁ := by
          split_ifs at hs
          · exact h.switchContext hs
          · cases hs
            exact h
        cases hslot₁ : e₁.nvidiaEncoder with
        | none =>
          rw [hslot₁] at ht
          cases ht
        | some m =>
          rw [hslot₁] at ht
          dsimp only at ht
          cases hi : nvidiaEncoderFrameIntake m width height frame q with
          | error x =>
            rw [hi] at ht
            cases ht
          | ok p₁ =>
            obtain ⟨zero,m'⟩ := p₁
            rw [hi] at ht
            cases ht
            exact h₁.setNvidia fun b hb => h₁.slot hslot₁ b (nvidiaEncoderFrameIntake_frame hi ▸ hb)
  | ffmpeg =>
    rw [hactive] at ht
    dsimp only at ht
    cases hf : e.ffmpegEncoder with
    | none =>
      rw [hf] at ht
      cases ht
    | some f =>
      rw [hf] at ht
      cases ht
      refine ⟨h.bitstream,fun f' hf' x hx => h.sent f hf x ?_,h.held⟩
      obtain rfl := Option.some.inj hf'
      unfold ffmpegEncoderFrameIntake at hx
      split at hx
      · exact hx
      · split_ifs at hx <;> exact hx

theorem Older.setIframe (h : Older calls e) : Older calls (videoEncoderSetIframe e) := by
  unfold videoEncoderSetIframe
  cases e.activeEncoder with
  | nvidia =>
    dsimp only
    cases hslot : e.nvidiaEncoder with
    | none => exact h
    | some n => exact h.setNvidia fun b hb => h.slot hslot b hb
  | ffmpeg =>
    refine ⟨h.bitstream,fun f' hf' x hx => ?_,h.held⟩
    obtain ⟨f,hf,rfl⟩ := Option.map_eq_some_iff.mp hf'
    exact h.sent f hf x hx

theorem Older.reconfigure {settings : EncoderSettings} {p : Bool × VideoEncoder} (h : Older calls e)
    (hr : reconfigureEncoder e settings q = .ok p) : Older calls p.2 := by
  unfold reconfigureEncoder at hr
  dsimp only at hr
  set e₁ : VideoEncoder := { e with
    inWidth := settings.width, inHeight := settings.height, codecType := settings.codecType }
  have h₁ : Older calls e₁ := ⟨h.bitstream,h.sent,h.held⟩
  cases hslot : e₁.nvidiaEncoder with
  | none =>
    rw [hslot] at hr
    cases hr
    exact h₁
  | some n =>
    rw [hslot] at hr
    dsimp only at hr
    cases hn : nvidiaReconfigureEncoder n settings.width settings.height settings.bitrate settings.vbvSize
        settings.codecType q with
    | error x =>
      rw [hn] at hr
      cases hr
    | ok p₁ =>
      obtain ⟨zero,n'⟩ := p₁
      rw [hn] at hr
      cases hr
      exact h₁.setNvidia fun b hb => h₁.slot hslot b (nvidiaReconfigureEncoder_frame hn ▸ hb)

theorem submitFrames_subset (answers : List SinkAnswer) (graph : List SentFrame) :
    (submitFrames answers graph).2.1 ⊆ graph ∧ (submitFrames answers graph).2.2 ⊆ graph := by
  fun_induction submitFrames answers graph with
  | case1 answers frame graph r ih =>
    exact ⟨fun x hx => List.mem_cons_of_mem _ (ih.1 hx),
      List.cons_subset_cons _ ih.2⟩
  | case2 => exact ⟨List.subset_cons_self _ _,List.nil_subset _⟩
  | case3 => exact ⟨List.Subset.refl _,List.nil_subset _⟩
  | case4 => exact ⟨List.Subset.refl _,List.nil_subset _⟩

theorem receivePackets_subset (room : ℕ) (answers : List ReceiveAnswer) (codec : List SentFrame) :
    (receivePackets room answers codec).2.1 ⊆ codec := by
  induction room generalizing answers codec with
  | zero => exact List.Subset.refl _
  | succ room ih =>
    cases answers with
    | nil => exact List.Subset.refl _
    | cons a answers =>
      cases codec with
      | nil => cases a <;> exact List.Subset.refl _
      | cons x codec =>
        cases a with
        | packet key size => exact fun y hy => List.mem_cons_of_mem _ (ih answers codec hy)
        | again => exact List.Subset.refl _
        | error => exact List.Subset.refl _

theorem Older.encode {p : Bool × VideoEncoder} (h : Older calls e)
    (he : videoEncoderEncode e calls q = .ok p) : Older (calls + 1) p.2 := by
  obtain ⟨zero,e'⟩ := p
  cases hactive : e.activeEncoder with
  | nvidia =>
    cases hslot : e.nvidiaEncoder with
    | none =>
      unfold videoEncoderEncode at he
      rw [hactive, hslot] at he
      cases he
    | some n =>
      obtain ⟨-,zero',n',hn,ht⟩ := videoEncoderEncode_nvidia hactive hslot he
      have hframe : ∀ b, n'.frame = some b → b.call < calls + 1 := by
        intro b hb
        rcases nvidiaEncoderEncode_cases hn with ⟨-,resource,-,rfl⟩ | ⟨-,-,hsame | hnone⟩
        · obtain rfl := Option.some.inj hb
          exact Nat.lt_succ_self calls
        · rw [hsame] at hb
          exact (h.slot hslot b hb).trans (Nat.lt_succ_self calls)
        · rw [hnone] at hb
          cases hb
      have h' := (h.mono (Nat.le_succ calls)).setNvidia hframe
      obtain ⟨-,hnvidia,hffmpeg,hpackets⟩ := transferNvidiaData_cases ht
      refine ⟨fun i m b hm hb => h'.bitstream i m b (hnvidia ▸ hm) hb,
        fun f hf x hx => h'.sent f (hffmpeg.symm.trans hf) x hx,fun held hheld p hp b hb => ?_⟩
      rcases hpackets with ⟨-,hnone,-,-⟩ | ⟨held',delivered,hbsf,-,-,hbsf',-⟩
      · rw [hnone] at hheld
        cases hheld
      · rw [hbsf'] at hheld
        cases hheld
        rcases List.mem_append.mp (List.mem_of_mem_drop hp) with hp | hp
        · exact h'.held held' hbsf p hp b hb
        · obtain ⟨i,hi,rfl⟩ := List.mem_mapIdx.mp hp
          exact hframe b hb
  | ffmpeg =>
    cases hf : e.ffmpegEncoder with
    | none =>
      unfold videoEncoderEncode at he
      rw [hactive, hf] at he
      cases he
    | some f =>
      rw [videoEncoderEncode_ffmpeg_eq hactive hf] at he
      dsimp only at he
      have hsent := ffmpegEncoderSendFrame_sent f calls q e.nextLtrAction
      set r := ffmpegEncoderSendFrame { f with ltrAction := e.nextLtrAction } calls q
      have hsub : ∀ x ∈ f.submitted calls q, x.call < calls + 1 := by
        intro x hx
        unfold FfmpegEncoder.submitted at hx
        split_ifs at hx
        · rcases List.mem_append.mp hx with hx | hx
          · exact (h.sent f hf x (List.mem_append_left _ hx)).trans (Nat.lt_succ_self calls)
          · rw [List.mem_singleton.mp hx]
            exact Nat.lt_succ_self calls
        · exact (h.sent f hf x (List.mem_append_left _ hx)).trans (Nat.lt_succ_self calls)
      obtain ⟨hleft,hright⟩ := submitFrames_subset q.sink (f.submitted calls q)
      have hgraph : ∀ x ∈ r.2.graph, x.call < calls + 1 := fun x hx => hsub x (hleft (hsent.graph ▸ hx))
      have hcodec : ∀ x ∈ r.2.codec, x.call < calls + 1 := by
        intro x hx
        rw [hsent.codec] at hx
        rcases List.mem_append.mp hx with hx | hx
        · exact (h.sent f hf x (List.mem_append_right _ hx)).trans (Nat.lt_succ_self calls)
        · exact hsub x (hright hx)
      have h' := h.mono (Nat.le_succ calls)
      split_ifs at he
      · have heq : (transferFfmpegData { e with ffmpegEncoder := some r.2 } r.2 q).2 = e' :=
          (Prod.ext_iff.mp (Except.ok.inj he)).2
        obtain ⟨hnvidia,hffmpeg,hbsf⟩ := transferFfmpegData_rest { e with ffmpegEncoder := some r.2 } r.2 q
        rw [heq] at hnvidia hffmpeg hbsf
        refine ⟨fun i m b hm hb => h'.bitstream i m b (hnvidia ▸ hm) hb,fun f' hf' x hx => ?_,
          fun held hheld => h'.held held (hbsf ▸ hheld)⟩
        rw [hffmpeg] at hf'
        obtain rfl := Option.some.inj hf'
        exact (List.mem_append.mp hx).elim (hgraph x) fun hx => hcodec x (receivePackets_subset _ _ _ hx)
      · cases he
        refine ⟨h'.bitstream,fun f' hf' x hx => ?_,h'.held⟩
        obtain rfl := Option.some.inj hf'
        exact (List.mem_append.mp hx).elim (hgraph x) (hcodec x)

theorem older_step {s t : EncoderRun} {m : EncoderMove} (h : Older s.calls s.encoder)
    (ht : s.step m = .ok t) : Older t.calls t.encoder := by
  cases m with
  | transferCapture width height q =>
    obtain ⟨p,hp,rfl⟩ := Run.map_eq_ok ht
    exact h.transferCapture hp
  | setIframe =>
    cases ht
    exact h.setIframe
  | setLtrAction action =>
    cases ht
    exact ⟨h.bitstream,h.sent,h.held⟩
  | reconfigure settings q =>
    obtain ⟨p,hp,rfl⟩ := Run.map_eq_ok ht
    exact h.reconfigure hp
  | encode q =>
    obtain ⟨p,hp,rfl⟩ := Run.map_eq_ok ht
    exact h.encode hp

def firstEncoded : List EncoderMove :=
  [.setLtrAction ⟨.intra,0⟩,.transferCapture 640 480 {},.encode { key := true, size := 9 },
    .setLtrAction ⟨.normal,0⟩,.transferCapture 640 480 {}]

end Whist.Codec
