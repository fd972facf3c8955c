import Mathlib.Tactic

/-! # How long the renderer's decoder lives

`video_decoder_decode_frame` destroys its decoder on an internal error and returns -1.  The
renderer keeps the pointer, replaces the decoder at a new size and destroys it at the end.
-/
namespace Whist.Client.DecoderLifetime

inductive CodecType where
  | unknown | h264 | h265
deriving DecidableEq

structure VideoDecoderParams where
  width : ℤ
  height : ℤ
  codecType : CodecType
deriving DecidableEq

structure VideoFrame where
  isEmptyFrame : Bool
  params : VideoDecoderParams
  isIntra : Bool
deriving DecidableEq

structure VideoDecoder where
  id : ℕ
  receivedAFrame : Bool := false
  decodedFrame : Bool := false
deriving DecidableEq

inductive DecoderCall where
  | sendPackets (id : ℕ)
  | decodeFrame (id : ℕ)
  | getLastDecodedFrame (id : ℕ)
  | destroy (id : ℕ)
deriving DecidableEq

def DecoderCall.decoder : DecoderCall → ℕ
  | sendPackets id | decodeFrame id | getLastDecodedFrame id | destroy id => id

inductive Phase where
  | running | fatal | destroyed
deriving DecidableEq

structure VideoContext where
  decoder : Option VideoDecoder
  lastFrame : VideoDecoderParams
  gotFrameFromDecoder : Bool
  nextDecoder : ℕ
  phase : Phase
  calls : List DecoderCall
deriving DecidableEq

/-- The answer to a call of the decoder library for the next frame, with the copy of a frame in
hardware: `error` is a failure of either. -/
inductive DecodeAnswer where
  | frame | again | error
deriving DecidableEq

/-- A call of `render_video`: the pending frame and the answers it gets. -/
structure RenderInput where
  frame : Option VideoFrame
  creates : Bool
  sends : Bool
  cursorChecks : Bool
  decodes : List DecodeAnswer
  renderPending : Bool

inductive Move where
  | renderVideo (x : RenderInput)
  | destroyVideo

def initVideo (params : VideoDecoderParams) : VideoContext :=
  { decoder := some { id := 0 }, lastFrame := params, gotFrameFromDecoder := false,
    nextDecoder := 1, phase := .running, calls := [] }

namespace VideoContext

def call (c : VideoContext) (k : DecoderCall) : VideoContext := { c with calls := c.calls ++ [k] }

def destroyDecoder (c : VideoContext) : VideoContext :=
  match c.decoder with
  | none => c
  | some d => { c.call (.destroy d.id) with decoder := none }

def createDecoder (c : VideoContext) (params : VideoDecoderParams) : VideoContext :=
  { c with
    decoder := some { id := c.nextDecoder }
    lastFrame := params
    nextDecoder := c.nextDecoder + 1 }

def outdated (c : VideoContext) (frame : VideoFrame) : Bool :=
  decide (frame.params ≠ c.lastFrame) && frame.isIntra

def syncDecoderParameters (c : VideoContext) (frame : VideoFrame) (creates : Bool) : VideoContext :=
  if c.outdated frame then
    if creates then c.destroyDecoder.createDecoder frame.params
    else { c.destroyDecoder with phase := .fatal }
  else c

/-- The call of `video_decoder_send_packets`, with whether it returned zero. -/
def sendPackets (c : VideoContext) (sends : Bool) : Bool × VideoContext :=
  match c.decoder with
  | none => (false,{ c with phase := .fatal })
  | some d => (sends,{ c.call (.sendPackets d.id) with
      decoder := some { d with receivedAFrame := d.receivedAFrame || sends } })

def gotFrame (c : VideoContext) (d : VideoDecoder) : VideoContext :=
  { c with decoder := some { d with decodedFrame := true }, gotFrameFromDecoder := true }

/-- The loop over `video_decoder_decode_frame`, and whether it ended without an error. -/
def decodeLoop : List DecodeAnswer → VideoContext → Bool × VideoContext
  | as, c =>
    match c.decoder with
    | none => (true,c)
    | some d =>
      let c := c.call (.decodeFrame d.id)
      if !d.receivedAFrame then (true,c)
      else
        match as with
        | [] | .again :: _ => (true,c)
        -- The decoder frees itself; the context keeps the pointer.
        | .error :: _ => (false,c.call (.destroy d.id))
        | .frame :: as => decodeLoop as (c.gotFrame d)

def renderDecoded (c : VideoContext) (renderPending : Bool) : VideoContext :=
  if !c.gotFrameFromDecoder || renderPending then c
  else
    match c.decoder with
    | none => { c with phase := .fatal }
    | some d =>
      let c := { c.call (.getLastDecodedFrame d.id) with gotFrameFromDecoder := false }
      if d.decodedFrame then c else { c with phase := .fatal }

def decodeAndRender (c : VideoContext) (x : RenderInput) : VideoContext :=
  let r := decodeLoop x.decodes c
  if r.1 then r.2.renderDecoded x.renderPending else r.2

def renderFrame (c : VideoContext) (frame : VideoFrame) (x : RenderInput) : VideoContext :=
  let c := c.syncDecoderParameters frame x.creates
  if c.phase ≠ .running then c
  else
    let r := c.sendPackets x.sends
    if r.1 then
      if x.cursorChecks then r.2.decodeAndRender x else { r.2 with phase := .fatal }
    else r.2

def renderVideo (c : VideoContext) (x : RenderInput) : VideoContext :=
  match x.frame with
  | none => c.decodeAndRender x
  | some frame => if frame.isEmptyFrame then c.decodeAndRender x else c.renderFrame frame x

def destroyVideo (c : VideoContext) : VideoContext := { c.destroyDecoder with phase := .destroyed }

def step (c : VideoContext) (m : Move) : VideoContext :=
  if c.phase ≠ .running then c
  else
    match m with
    | .renderVideo x => c.renderVideo x
    | .destroyVideo => c.destroyVideo

def run (c : VideoContext) (moves : List Move) : VideoContext := moves.foldl step c

end VideoContext

/-- No decoder is passed to a function, or destroyed again, once it was destroyed. -/
def NeverUsedAgain (calls : List DecoderCall) : Prop :=
  calls.Pairwise fun a b => ∀ id, a = .destroy id → b.decoder ≠ id

def reachesError : List DecodeAnswer → Bool
  | [] | .again :: _ => false
  | .error :: _ => true
  | .frame :: as => reachesError as

/-- The render has a call of `video_decoder_decode_frame` that fails: its packets, if it has
any, were sent to the decoder, which then has a frame to decode. -/
def DecodeFails (c : VideoContext) : Move → Prop
  | .renderVideo x =>
    c.phase = .running ∧ reachesError x.decodes = true ∧
      match x.frame.filter (fun f => !f.isEmptyFrame) with
      | none => c.decoder.any VideoDecoder.receivedAFrame = true
      | some frame => x.sends = true ∧ x.cursorChecks = true ∧ (c.outdated frame = true → x.creates = true)
  | .destroyVideo => False

theorem neverUsedAgain_append {calls : List DecoderCall} {k : DecoderCall} :
    NeverUsedAgain (calls ++ [k]) ↔
      NeverUsedAgain calls ∧ ∀ id, .destroy id ∈ calls → k.decoder ≠ id := by
  simp only [NeverUsedAgain, List.pairwise_append, List.pairwise_singleton, List.mem_singleton,
    true_and]
  refine and_congr_right fun _ => ⟨?_,?_⟩
  · intro h id hid
    exact h _ hid k rfl id rfl
  · rintro h a ha b rfl id rfl
    exact h id ha

theorem NeverUsedAgain.of_prefix {l l' : List DecoderCall} (h : NeverUsedAgain l') (hl : l <+: l') :
    NeverUsedAgain l :=
  h.sublist hl.sublist

namespace VideoContext

variable {c : VideoContext} {d : VideoDecoder}

theorem destroyDecoder_of_some (hd : c.decoder = some d) :
    c.destroyDecoder = { c.call (.destroy d.id) with decoder := none } := by
  rw [destroyDecoder, hd]

theorem sendPackets_of_some (hd : c.decoder = some d) (sends : Bool) :
    c.sendPackets sends = (sends,{ c.call (.sendPackets d.id) with
      decoder := some { d with receivedAFrame := d.receivedAFrame || sends } }) := by
  rw [sendPackets, hd]

theorem call_prefix_decodeLoop (hd : c.decoder = some d) (as : List DecodeAnswer) :
    (c.call (.decodeFrame d.id)).calls <+: (decodeLoop as c).2.calls := by
  induction as generalizing c d with
  | nil =>
    simp only [decodeLoop, hd]
    split_ifs <;> exact List.prefix_rfl
  | cons a as ih =>
    unfold decodeLoop
    simp only [hd]
    split_ifs
    · exact List.prefix_rfl
    · cases a with
      | again => exact List.prefix_rfl
      | error => exact List.prefix_append _ _
      | frame =>
        have hnext := ih (c := (c.call (.decodeFrame d.id)).gotFrame d)
          (d := { d with decodedFrame := true }) rfl
        exact (List.prefix_append _ _).trans hnext

theorem prefix_decodeLoop (c : VideoContext) (as : List DecodeAnswer) :
    c.calls <+: (decodeLoop as c).2.calls := by
  cases hd : c.decoder with
  | none => cases as <;> simp [decodeLoop, hd]
  | some d => exact (List.prefix_append _ _).trans (call_prefix_decodeLoop hd as)

theorem prefix_renderDecoded (c : VideoContext) (renderPending : Bool) :
    c.calls <+: (c.renderDecoded renderPending).calls := by
  unfold renderDecoded
  split_ifs
  · exact List.prefix_rfl
  · split
    · exact List.prefix_rfl
    · dsimp only
      split_ifs <;> exact List.prefix_append _ _

theorem prefix_decodeAndRender (x : RenderInput) :
    (decodeLoop x.decodes c).2.calls <+: (c.decodeAndRender x).calls := by
  unfold decodeAndRender
  dsimp only
  split_ifs
  · exact prefix_renderDecoded _ _
  · exact List.prefix_rfl

structure Alive (c : VideoContext) : Prop where
  safe : NeverUsedAgain c.calls
  known : ∀ id, .destroy id ∈ c.calls → id < c.nextDecoder
  held : ∀ d, c.decoder = some d → d.id < c.nextDecoder ∧ .destroy d.id ∉ c.calls
  present : c.phase = .running → ∃ d, c.decoder = some d

/-- The decoder destroyed itself, and the renderer goes on with the pointer. -/
structure Dead (c : VideoContext) : Prop where
  safe : NeverUsedAgain c.calls
  running : c.phase = .running
  freed : ∃ d, c.decoder = some d ∧ .destroy d.id ∈ c.calls

theorem Alive.call (h : Alive c) (hd : c.decoder = some d) {k : DecoderCall} (hk : k.decoder = d.id)
    (hno : ∀ id, k ≠ .destroy id) : Alive (c.call k) where
  safe := by
    refine neverUsedAgain_append.mpr ⟨h.safe,?_⟩
    rintro id hid rfl
    exact (h.held d hd).2 (hk ▸ hid)
  known := fun id hid => by
    rcases List.mem_append.mp hid with hid | hid
    · exact h.known id hid
    · exact absurd (List.mem_singleton.mp hid).symm (hno id)
  held := fun d' hd' => by
    refine ⟨(h.held d' hd').1,?_⟩
    intro hid
    rcases List.mem_append.mp hid with hid | hid
    · exact (h.held d' hd').2 hid
    · exact hno _ (List.mem_singleton.mp hid).symm
  present := h.present

theorem Alive.update (h : Alive c) (hd : c.decoder = some d) (d' : VideoDecoder) (hid : d'.id = d.id)
    (got : Bool) : Alive { c with decoder := some d', gotFrameFromDecoder := got } where
  safe := h.safe
  known := h.known
  held := fun e he => by
    obtain rfl : d' = e := by simpa using he
    exact hid ▸ h.held d hd
  present := fun _ => ⟨d',rfl⟩

theorem Alive.gotFrame (h : Alive c) (hd : c.decoder = some d) : Alive (c.gotFrame d) :=
  h.update hd { d with decodedFrame := true } rfl true

theorem Alive.stopped (h : Alive c) {p : Phase} (hp : p ≠ .running) : Alive { c with phase := p } where
  safe := h.safe
  known := h.known
  held := h.held
  present := fun hr => absurd hr hp

theorem Alive.destroyed (h : Alive c) (hd : c.decoder = some d) {p : Phase} (hp : p ≠ .running) :
    Alive { c.destroyDecoder with phase := p } := by
  rw [destroyDecoder_of_some hd]
  constructor
  · refine neverUsedAgain_append.mpr ⟨h.safe,?_⟩
    rintro id hid rfl
    exact (h.held d hd).2 hid
  · intro id hid
    rcases List.mem_append.mp hid with hid | hid
    · exact h.known id hid
    · cases List.mem_singleton.mp hid
      exact (h.held d hd).1
  · intro e he
    cases he
  · exact fun hr => absurd hr hp

theorem Alive.createDecoder (h : Alive { c with phase := .fatal }) (params : VideoDecoderParams) :
    Alive (c.createDecoder params) where
  safe := h.safe
  known := fun id hid => (h.known id hid).trans (Nat.lt_succ_self _)
  held := fun e he => by
    obtain rfl : _ = e := Option.some.inj he
    exact ⟨Nat.lt_succ_self _,fun hid => absurd (h.known _ hid) (lt_irrefl _)⟩
  present := fun _ => ⟨_,rfl⟩

theorem Alive.syncDecoderParameters (h : Alive c) (hr : c.phase = .running) (frame : VideoFrame)
    (creates : Bool) : Alive (c.syncDecoderParameters frame creates) := by
  obtain ⟨d,hd⟩ := h.present hr
  unfold VideoContext.syncDecoderParameters
  split_ifs
  · apply Alive.createDecoder
    exact h.destroyed hd (by decide)
  · exact h.destroyed hd (by decide)
  · exact h

theorem syncDecoderParameters_phase (hr : c.phase = .running) (frame : VideoFrame) (creates : Bool) :
    (c.syncDecoderParameters frame creates).phase = .running ↔
      (c.outdated frame = true → creates = true) := by
  have hkeep : c.destroyDecoder.phase = .running := by
    unfold destroyDecoder
    split <;> exact hr
  unfold VideoContext.syncDecoderParameters
  split_ifs with ho hc
  · simp [createDecoder, hkeep, hc]
  · simp [ho, hc]
  · simp [ho, hr]

theorem Alive.sendPackets (h : Alive c) (hd : c.decoder = some d) (sends : Bool) :
    Alive (c.sendPackets sends).2 := by
  rw [sendPackets_of_some hd]
  exact (h.call (k := .sendPackets d.id) hd rfl (by simp)).update hd
    { d with receivedAFrame := d.receivedAFrame || sends } rfl c.gotFrameFromDecoder

theorem Alive.decodeLoop (h : Alive c) {as : List DecodeAnswer} (hd : c.decoder = some d)
    (hno : d.receivedAFrame = true → reachesError as = false) :
    (VideoContext.decodeLoop as c).1 = true ∧ Alive (VideoContext.decodeLoop as c).2 := by
  induction as generalizing c d with
  | nil =>
    have hcall := h.call (k := .decodeFrame d.id) hd rfl (by simp)
    simp only [VideoContext.decodeLoop, hd]
    split_ifs <;> exact ⟨rfl,hcall⟩
  | cons a as ih =>
    have hcall := h.call (k := .decodeFrame d.id) hd rfl (by simp)
    unfold VideoContext.decodeLoop
    simp only [hd]
    split_ifs with hrec
    · exact ⟨rfl,hcall⟩
    · have hrec : d.receivedAFrame = true := by simpa using hrec
      cases a with
      | again => exact ⟨rfl,hcall⟩
      | error => exact absurd (hno hrec) (by simp [reachesError])
      | frame =>
        exact ih (c := (c.call (.decodeFrame d.id)).gotFrame d) (d := { d with decodedFrame := true })
          (hcall.gotFrame hd) rfl hno

theorem Alive.decodeLoop_dead (h : Alive c) {as : List DecodeAnswer} (hr : c.phase = .running)
    (hd : c.decoder = some d) (hrec : d.receivedAFrame = true) (herr : reachesError as = true) :
    (VideoContext.decodeLoop as c).1 = false ∧ Dead (VideoContext.decodeLoop as c).2 := by
  induction as generalizing c d with
  | nil => cases herr
  | cons a as ih =>
    have hcall := h.call (k := .decodeFrame d.id) hd rfl (by simp)
    unfold VideoContext.decodeLoop
    simp only [hd, hrec, Bool.not_true, Bool.false_eq_true, if_false]
    cases a with
    | again => cases herr
    | error =>
      refine ⟨rfl,?_,hr,d,hd,List.mem_append_right _ (List.mem_singleton_self _)⟩
      refine neverUsedAgain_append.mpr ⟨hcall.safe,?_⟩
      rintro id hid rfl
      exact (hcall.held d hd).2 hid
    | frame =>
      exact ih (c := (c.call (.decodeFrame d.id)).gotFrame d) (d := { d with decodedFrame := true })
        (hcall.gotFrame hd) hr rfl hrec herr

theorem Alive.renderDecoded (h : Alive c) (renderPending : Bool) :
    Alive (c.renderDecoded renderPending) := by
  unfold VideoContext.renderDecoded
  split_ifs
  · exact h
  · split
    case _ hd => exact h.stopped (by decide)
    case _ d hd =>
      have hcall := (h.call (k := .getLastDecodedFrame d.id) hd rfl (by simp)).update hd d rfl false
      rw [← hd] at hcall
      dsimp only
      split_ifs
      · exact hcall
      · exact hcall.stopped (by decide)

theorem Alive.decodeAndRender (h : Alive c) (hd : c.decoder = some d) {x : RenderInput}
    (hno : d.receivedAFrame = true → reachesError x.decodes = false) :
    Alive (c.decodeAndRender x) := by
  obtain ⟨hok,hloop⟩ := h.decodeLoop hd hno
  unfold VideoContext.decodeAndRender
  dsimp only
  rw [if_pos hok]
  exact hloop.renderDecoded x.renderPending

theorem Alive.decodeAndRender_dead (h : Alive c) (hr : c.phase = .running) (hd : c.decoder = some d)
    {x : RenderInput} (hrec : d.receivedAFrame = true) (herr : reachesError x.decodes = true) :
    Dead (c.decodeAndRender x) := by
  obtain ⟨hfail,hloop⟩ := h.decodeLoop_dead hr hd hrec herr
  unfold VideoContext.decodeAndRender
  dsimp only
  rwa [hfail, if_neg (by decide)]

theorem Alive.renderFrame (h : Alive c) (hr : c.phase = .running) {frame : VideoFrame} {x : RenderInput}
    (hno : x.sends = true → x.cursorChecks = true → (c.outdated frame = true → x.creates = true) →
      reachesError x.decodes = false) : Alive (c.renderFrame frame x) := by
  have hsync := h.syncDecoderParameters hr frame x.creates
  have hphase := syncDecoderParameters_phase hr frame x.creates
  unfold VideoContext.renderFrame
  dsimp only
  split_ifs with hp hs hc
  · exact hsync
  · obtain ⟨d,hd⟩ := hsync.present (not_not.mp hp)
    have hsend := hsync.sendPackets hd x.sends
    rw [sendPackets_of_some hd] at hs hsend ⊢
    exact hsend.decodeAndRender rfl (fun _ => hno hs hc (hphase.mp (not_not.mp hp)))
  · obtain ⟨d,hd⟩ := hsync.present (not_not.mp hp)
    exact (hsync.sendPackets hd x.sends).stopped (by decide)
  · obtain ⟨d,hd⟩ := hsync.present (not_not.mp hp)
    exact hsync.sendPackets hd x.sends

theorem Alive.renderFrame_dead (h : Alive c) (hr : c.phase = .running) {frame : VideoFrame}
    {x : RenderInput} (hs : x.sends = true) (hc : x.cursorChecks = true)
    (ho : c.outdated frame = true → x.creates = true) (herr : reachesError x.decodes = true) :
    Dead (c.renderFrame frame x) := by
  have hsync := h.syncDecoderParameters hr frame x.creates
  have hphase := (syncDecoderParameters_phase hr frame x.creates).mpr ho
  obtain ⟨d,hd⟩ := hsync.present hphase
  have hsend := hsync.sendPackets hd x.sends
  unfold VideoContext.renderFrame
  dsimp only
  rw [if_neg (not_not.mpr hphase)]
  rw [sendPackets_of_some hd] at hsend ⊢
  rw [if_pos hs, if_pos hc]
  exact hsend.decodeAndRender_dead hphase rfl (by simp [hs]) herr

theorem step_stopped (h : c.phase ≠ .running) (m : Move) : c.step m = c := if_pos h

theorem step_renderVideo (hr : c.phase = .running) (x : RenderInput) :
    c.step (.renderVideo x) = c.renderVideo x := if_neg (not_not.mpr hr)

theorem step_destroyVideo (hr : c.phase = .running) : c.step .destroyVideo = c.destroyVideo :=
  if_neg (not_not.mpr hr)

theorem renderVideo_idle {x : RenderInput} (h : x.frame.filter (fun f => !f.isEmptyFrame) = none) :
    c.renderVideo x = c.decodeAndRender x := by
  unfold VideoContext.renderVideo
  split
  · rfl
  · split_ifs with hempty
    · rfl
    · simp_all

theorem renderVideo_frame {x : RenderInput} {frame : VideoFrame}
    (h : x.frame.filter (fun f => !f.isEmptyFrame) = some frame) :
    c.renderVideo x = c.renderFrame frame x := by
  obtain ⟨hf,hempty⟩ := Option.filter_eq_some_iff.mp h
  simp only [Bool.not_eq_true'] at hempty
  simp [VideoContext.renderVideo, hf, hempty]

theorem Alive.step (h : Alive c) {m : Move} (hno : ¬DecodeFails c m) : Alive (c.step m) := by
  by_cases hr : c.phase = .running
  · obtain ⟨d,hd⟩ := h.present hr
    cases m with
    | destroyVideo =>
      rw [step_destroyVideo hr]
      exact h.destroyed hd (by decide)
    | renderVideo x =>
      have herr : reachesError x.decodes = false ∨ reachesError x.decodes = true := by
        cases reachesError x.decodes <;> simp
      rw [step_renderVideo hr]
      cases hf : x.frame.filter (fun f => !f.isEmptyFrame) with
      | none =>
        rw [renderVideo_idle hf]
        refine h.decodeAndRender hd fun hrec => herr.resolve_right fun he => hno ⟨hr,he,?_⟩
        rw [hf]
        simp [hd, hrec]
      | some frame =>
        rw [renderVideo_frame hf]
        refine h.renderFrame hr fun hs hc ho => herr.resolve_right fun he => hno ⟨hr,he,?_⟩
        rw [hf]
        exact ⟨hs,hc,ho⟩
  · rwa [step_stopped hr]

theorem Alive.step_dead (h : Alive c) {m : Move} (hm : DecodeFails c m) : Dead (c.step m) := by
  cases m with
  | destroyVideo => exact hm.elim
  | renderVideo x =>
    obtain ⟨hr,herr,hm⟩ := hm
    obtain ⟨d,hd⟩ := h.present hr
    rw [step_renderVideo hr]
    cases hf : x.frame.filter (fun f => !f.isEmptyFrame) with
    | none =>
      simp only [hf, hd, Option.any_some] at hm
      rw [renderVideo_idle hf]
      exact h.decodeAndRender_dead hr hd hm herr
    | some frame =>
      simp only [hf] at hm
      rw [renderVideo_frame hf]
      exact h.renderFrame_dead hr hm.1 hm.2.1 hm.2.2 herr

theorem prefix_syncDecoderParameters (frame : VideoFrame) (x : RenderInput) :
    (c.syncDecoderParameters frame x.creates).calls <+: (c.renderFrame frame x).calls := by
  unfold renderFrame
  dsimp only
  generalize c.syncDecoderParameters frame x.creates = c
  have hsend : c.calls <+: (c.sendPackets x.sends).2.calls := by
    unfold VideoContext.sendPackets
    split
    · exact List.prefix_rfl
    · exact List.prefix_append _ _
  split_ifs
  · exact List.prefix_rfl
  · exact hsend.trans ((prefix_decodeLoop _ _).trans (prefix_decodeAndRender x))
  · exact hsend
  · exact hsend

theorem call_prefix_renderFrame (hr : c.phase = .running) (hd : c.decoder = some d) (frame : VideoFrame)
    (x : RenderInput) :
    ∃ k : DecoderCall, k.decoder = d.id ∧ (c.call k).calls <+: (c.renderFrame frame x).calls := by
  cases ho : c.outdated frame with
  | true =>
    refine ⟨.destroy d.id,rfl,List.IsPrefix.trans ?_ (prefix_syncDecoderParameters frame x)⟩
    rw [VideoContext.syncDecoderParameters, if_pos ho, destroyDecoder_of_some hd]
    split_ifs <;> exact List.prefix_rfl
  | false =>
    refine ⟨.sendPackets d.id,rfl,?_⟩
    have hsync : c.syncDecoderParameters frame x.creates = c := if_neg (by simp [ho])
    have hsent : ∀ c' : VideoContext, c'.calls = (c.call (.sendPackets d.id)).calls →
        (c.call (.sendPackets d.id)).calls <+: (c'.decodeAndRender x).calls := fun c' h =>
      h ▸ (prefix_decodeLoop c' x.decodes).trans (prefix_decodeAndRender x)
    unfold VideoContext.renderFrame
    dsimp only
    rw [hsync, if_neg (not_not.mpr hr), sendPackets_of_some hd]
    split_ifs
    · exact hsent _ rfl
    · exact List.prefix_rfl
    · exact List.prefix_rfl

theorem Dead.step (h : Dead c) (m : Move) : ¬NeverUsedAgain (c.step m).calls := by
  obtain ⟨d,hd,hfreed⟩ := h.freed
  have key : ∀ calls, (∃ k : DecoderCall, k.decoder = d.id ∧ (c.call k).calls <+: calls) →
      ¬NeverUsedAgain calls := by
    rintro calls ⟨k,hk,hpre⟩ hsafe
    exact (neverUsedAgain_append.mp (hsafe.of_prefix hpre)).2 d.id hfreed hk
  apply key
  cases m with
  | destroyVideo =>
    refine ⟨.destroy d.id,rfl,?_⟩
    rw [step_destroyVideo h.running, destroyVideo, destroyDecoder_of_some hd]
  | renderVideo x =>
    rw [step_renderVideo h.running]
    cases hf : x.frame.filter (fun f => !f.isEmptyFrame) with
    | none =>
      rw [renderVideo_idle hf]
      exact ⟨.decodeFrame d.id,rfl,(call_prefix_decodeLoop hd _).trans (prefix_decodeAndRender x)⟩
    | some frame =>
      rw [renderVideo_frame hf]
      exact call_prefix_renderFrame h.running hd frame x

theorem prefix_step (m : Move) : c.calls <+: (c.step m).calls := by
  by_cases hr : c.phase = .running
  · have hdestroy : c.calls <+: c.destroyDecoder.calls := by
      unfold destroyDecoder
      split
      · exact List.prefix_rfl
      · exact List.prefix_append _ _
    cases m with
    | destroyVideo => rwa [step_destroyVideo hr]
    | renderVideo x =>
      rw [step_renderVideo hr]
      cases hf : x.frame.filter (fun f => !f.isEmptyFrame) with
      | none =>
        rw [renderVideo_idle hf]
        exact (prefix_decodeLoop _ _).trans (prefix_decodeAndRender x)
      | some frame =>
        rw [renderVideo_frame hf]
        refine List.IsPrefix.trans ?_ (prefix_syncDecoderParameters frame x)
        unfold VideoContext.syncDecoderParameters
        split_ifs
        · exact hdestroy
        · exact hdestroy
        · exact List.prefix_rfl
  · rw [step_stopped hr]

theorem prefix_run (moves : List Move) : c.calls <+: (c.run moves).calls := by
  induction moves generalizing c with
  | nil => exact List.prefix_rfl
  | cons m moves ih => exact (prefix_step m).trans ih

theorem Alive.run_iff (h : Alive c) (moves : List Move) :
    NeverUsedAgain (c.run moves).calls ↔
      ∀ pre m post, moves = pre ++ m :: post → DecodeFails (c.run pre) m → post = [] := by
  induction moves generalizing c with
  | nil => exact ⟨fun _ pre m post hm => by simp at hm,fun _ => h.safe⟩
  | cons m moves ih =>
    change NeverUsedAgain ((c.step m).run moves).calls ↔ _
    by_cases hm : DecodeFails c m
    · have hdead := h.step_dead hm
      cases moves with
      | nil =>
        refine ⟨fun _ pre m' post hm' _ => ?_,fun _ => hdead.safe⟩
        have := congrArg List.length hm'
        simp only [List.length_append, List.length_cons, List.length_nil] at this
        exact List.length_eq_zero_iff.mp (by omega)
      | cons m' moves =>
        refine ⟨fun hsafe => ?_,fun hall => absurd (hall [] m (m' :: moves) rfl hm) (by simp)⟩
        exact absurd (hsafe.of_prefix (prefix_run moves)) (hdead.step m')
    · rw [ih (h.step hm)]
      constructor
      · rintro hall (_ | ⟨m',pre⟩) m'' post heq hfail
        · obtain ⟨rfl,rfl⟩ := List.cons.inj heq
          exact absurd hfail hm
        · obtain ⟨rfl,rfl⟩ := List.cons.inj heq
          exact hall pre m'' post rfl hfail
      · rintro hall pre m' post rfl hfail
        exact hall (m :: pre) m' post rfl hfail

end VideoContext

open VideoContext

/-- The renderer, and the code that takes it down, use no destroyed decoder exactly when a
render in which `video_decoder_decode_frame` fails is the last thing that happens. -/
theorem decoder_neverUsedAgain_iff (params : VideoDecoderParams) (moves : List Move) :
    NeverUsedAgain ((initVideo params).run moves).calls ↔
      ∀ pre m post, moves = pre ++ m :: post → DecodeFails ((initVideo params).run pre) m → post = [] := by
  apply Alive.run_iff
  constructor
  · exact List.Pairwise.nil
  · intro id hid
    cases hid
  · rintro d ⟨⟩
    exact ⟨Nat.one_pos,fun hid => by cases hid⟩
  · exact fun _ => ⟨_,rfl⟩

def frameSize : VideoDecoderParams := ⟨1920,1080,.h264⟩

def failedDecode : List Move :=
  [.renderVideo ⟨some ⟨false,frameSize,true⟩,true,true,true,[.error],false⟩,.destroyVideo]

theorem failedDecode_usedAgain : ¬NeverUsedAgain ((initVideo frameSize).run failedDecode).calls := by
  have hcalls : ((initVideo frameSize).run failedDecode).calls =
      [.sendPackets 0,.decodeFrame 0,.destroy 0,.destroy 0] := by decide
  rw [hcalls]
  intro h
  have h : NeverUsedAgain ([.sendPackets 0,.decodeFrame 0,.destroy 0] ++ [.destroy 0]) := h
  exact (neverUsedAgain_append.mp h).2 0 (by simp) rfl

end Whist.Client.DecoderLifetime
