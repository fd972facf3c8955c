import Whist.Network.UdpReceive

/-! # Video frames come in order -/
namespace Whist.Ring
open Fec Udp Memory

variable {c : RingConfig} {r r' : RingBuffer}

/-- IDs grow, and every frame is the successor of the one before or a recovery point. -/
def InOrder (frames : List ReturnedFrame) : Prop :=
  frames.Pairwise (fun f g => f.id < g.id) ∧
    ∀ pre f post, frames = pre ++ f :: post →
      IsRecoveryPoint f.bytes ∨ ∃ g, pre.getLast? = some g ∧ f.id = g.id + 1

theorem InOrder.snoc {frames : List ReturnedFrame} {f : ReturnedFrame} (h : InOrder frames)
    (hlt : ∀ g ∈ frames, g.id < f.id)
    (hf : IsRecoveryPoint f.bytes ∨ ∃ g, frames.getLast? = some g ∧ f.id = g.id + 1) :
    InOrder (frames ++ [f]) := by
  refine ⟨List.pairwise_append.mpr ⟨h.1,List.pairwise_singleton _ _,fun g hg f' hf' => ?_⟩,
    fun pre g post hsplit => ?_⟩
  · rw [List.mem_singleton] at hf'
    rw [hf']
    exact hlt g hg
  · rcases List.eq_nil_or_concat post with rfl | ⟨post,last,rfl⟩
    · obtain ⟨rfl,hlast⟩ := List.append_inj' hsplit rfl
      cases hlast
      exact hf
    · rw [List.concat_eq_append, ← List.cons_append, ← List.append_assoc] at hsplit
      exact h.2 pre g post (List.append_inj' hsplit rfl).1

theorem Tidied.last (h : Tidied c r r') :
    r'.lastRenderedId = r.lastRenderedId ∨ r'.lastRenderedId = -1 := by
  induction h with
  | refl => exact Or.inl rfl
  | tail _ hstep ih =>
    cases hstep with
    | note hn =>
      rw [hn.last]
      exact ih
    | cache _ _ => exact ih
    | release _ _ => exact ih
    | clear _ _ => exact ih
    | restart _ => exact Or.inr rfl

def Follows (r r' : RingBuffer) : Prop :=
  r'.currentlyRenderingId = r.currentlyRenderingId ∧
    (r'.lastRenderedId = r.lastRenderedId ∨ r'.lastRenderedId = -1)

theorem Follows.trans {r'' : RingBuffer} (h : Follows r r') (h' : Follows r' r'') : Follows r r'' := by
  refine ⟨h'.1.trans h.1,h'.2.elim (fun heq => ?_) Or.inr⟩
  rw [heq]
  exact h.2

theorem Tidied.follows (h : Tidied c r r') : Follows r r' := ⟨h.rendering.1,h.last⟩

theorem Noted.follows (h : Noted r r') : Follows r r' := ⟨h.renderingId,Or.inl h.last⟩

theorem receiveIndex_follows {s : WhistSegment} (ha : Arrival c r s)
    (hr : receiveIndex c r s = .ok r') : Follows r r' := by
  obtain ⟨-,-,-,⟨-,rfl⟩ | ⟨-,-,rfl⟩ | ⟨-,-,r₁,block,dec,size,recovered,hst,rfl⟩⟩ :=
    receiveIndex_cases ha.id hr
  · exact ⟨rfl,Or.inl rfl⟩
  · exact ⟨rfl,Or.inl rfl⟩
  · have hstored : Follows r (r₁.cache (c.slot s.id)) := by
      rw [hst.result]
      exact ⟨rfl,Or.inl rfl⟩
    split_ifs
    · exact hstored
    · exact hstored

theorem receiveSegment_follows {s : WhistSegment} {b : Bool}
    (hr : ringBufferReceiveSegment c r s = .ok (b,r')) : Follows r r' := by
  obtain htidied | ⟨r₁,hnoted,harrival,hlast⟩ | ⟨r₁,dec,r₂,ho,hnoted,harrival,hlast⟩ :=
    receiveSegment_cases hr
  · exact htidied.follows
  · exact hnoted.follows.trans (receiveIndex_follows harrival hlast)
  · have hopened : Follows r₁ (r₁.opened c s dec) := ⟨rfl,Or.inl rfl⟩
    exact ((ho.tidied.follows.trans hopened).trans hnoted.follows).trans (receiveIndex_follows harrival hlast)

/-- The frame `id` is in its slot, has a frame buffer, and rendering has not passed it. -/
structure Ready (c : RingConfig) (r : RingBuffer) (id : ℤ) (block : ℕ) : Prop where
  frameId : (r.receivingFrames (c.slot id)).id = id
  block : getFramebuffer (r.receivingFrames (c.slot id)) = some block
  later : r.currentlyRenderingId < id

theorem isReadyToRender_true {id : ℤ} (h : isReadyToRender c r id = .ok (true,r')) :
    r' = r.cache (c.slot id) ∧ ∃ block, Ready c r id block := by
  obtain ⟨-,⟨-,hb,-⟩ | ⟨hid,hlate,hb,rfl⟩⟩ := isReadyToRender_cases h
  · cases hb
  · obtain ⟨block,hblock⟩ := Option.isSome_iff_exists.mp hb.symm
    refine ⟨rfl,block,hid,hblock,?_⟩
    by_contra hcur
    have hnone := (hlate (hid.le.trans (not_lt.mp hcur))).2
    rw [hblock] at hnone
    cases hnone

theorem isReadyToRender_false {id : ℤ} (h : isReadyToRender c r id = .ok (false,r')) (block : ℕ) :
    ¬Ready c r id block := by
  rintro ⟨hid,hblock,-⟩
  obtain ⟨-,⟨hne,-,-⟩ | ⟨-,-,hb,-⟩⟩ := isReadyToRender_cases h
  · exact hne hid
  · rw [hblock] at hb
    cases hb

theorem Ready.cache {id : ℤ} {block : ℕ} (h : Ready c r id block) : Ready c (r.cache (c.slot id)) id block := by
  refine ⟨?_,?_,h.later⟩
  · rw [RingBuffer.cache, setFrame_slot_self]
    exact h.frameId
  · rw [RingBuffer.cache, setFrame_slot_self]
    exact h.block

theorem setRendering_returns {id : ℤ} {block : ℕ} (hready : Ready c r id block)
    (h : setRendering c r id = .ok r') :
    r'.currentlyRenderingId = id ∧ r'.lastRenderedId = id ∧ r.lastRenderedId < id ∧
      returnedFrame r' = some ⟨id,r.memory block⟩ := by
  obtain ⟨hlast,-,hid,-,-,r₁,hr₁,rfl⟩ := setRendering_cases h
  have hfields : r₁.receivingFrames = r.receivingFrames ∧ r₁.lastRenderedId = id ∧
      r₁.memory = r.memory := by
    rcases hr₁ with ⟨-,rfl⟩ | ⟨-,-,rfl⟩
    · exact ⟨rfl,rfl,rfl⟩
    · exact ⟨rfl,rfl,(freeOptional_memory _ _).trans (freeOptional_memory _ _)⟩
  obtain ⟨hframes,hlast₁,hmemory⟩ := hfields
  refine ⟨rfl,hlast₁,hlast,?_⟩
  have hblock := hready.block
  have hcell : (r₁.cache (c.slot id)).receivingFrames (c.slot id) =
      { r.receivingFrames (c.slot id) with
        frameBuffer := getFramebuffer (r.receivingFrames (c.slot id)) } := by
    rw [RingBuffer.cache, setFrame_slot_self, hframes]
  have hrendering : ((r₁.cache (c.slot id)).moveToRendering (c.slot id) id).currentlyRenderingFrame =
      { r.receivingFrames (c.slot id) with frameBuffer := some block } := by
    unfold RingBuffer.moveToRendering
    rw [hcell, ← hblock]
    rfl
  have hmemory' : ((r₁.cache (c.slot id)).moveToRendering (c.slot id) id).memory = r.memory := hmemory
  unfold returnedFrame
  rw [hrendering, hmemory', Option.map_some]
  dsimp only
  rw [hid]

theorem takeNextFrame_cases {f : Option ReturnedFrame} (h : takeNextFrame c r = .ok (f,r')) :
    f = none ∧ r'.currentlyRenderingId = r.currentlyRenderingId ∧
        r'.lastRenderedId = r.lastRenderedId ∧ (∀ block, ¬Ready c r (r.lastRenderedId + 1) block) ∨
      ∃ block, Ready c r (r.lastRenderedId + 1) block ∧
        f = some ⟨r.lastRenderedId + 1,r.memory block⟩ ∧
        r'.currentlyRenderingId = r.lastRenderedId + 1 ∧ r'.lastRenderedId = r.lastRenderedId + 1 := by
  unfold takeNextFrame at h
  dsimp only at h
  cases hready : isReadyToRender c r (r.lastRenderedId + 1) with
  | error e => simp [hready] at h
  | ok p =>
    obtain ⟨ready,r₁⟩ := p
    cases ready with
    | false =>
      rw [hready] at h
      cases h
      have hsame : r'.lastRenderedId = r.lastRenderedId := by
        obtain ⟨-,⟨-,-,rfl⟩ | ⟨-,-,-,rfl⟩⟩ := isReadyToRender_cases hready <;> rfl
      exact Or.inl ⟨rfl,(isReadyToRender_tidied hready).rendering.1,hsame,isReadyToRender_false hready⟩
    | true =>
      rw [hready] at h
      obtain ⟨r₂,hrender,hpair⟩ := Run.map_eq_ok h
      cases hpair
      obtain ⟨rfl,block,hblock⟩ := isReadyToRender_true hready
      obtain ⟨hcur,hlast,-,hframe⟩ := setRendering_returns hblock.cache hrender
      exact Or.inr ⟨block,hblock,hframe,hcur,hlast⟩

/-- The stream stays where it is, or skips to a recovery point that is ready. -/
theorem catchUpVideo_cases {idList : List ℤ} (hids : ∀ id ∈ idList, r.lastRenderedId < id)
    (h : catchUpVideo c idList r = .ok r') :
    r'.currentlyRenderingId = r.currentlyRenderingId ∧
      (r'.lastRenderedId = r.lastRenderedId ∨
        ∃ block, Ready c r' (r'.lastRenderedId + 1) block ∧ IsRecoveryPoint (r'.memory block)) := by
  induction idList generalizing r with
  | nil =>
    cases h
    exact ⟨rfl,Or.inl rfl⟩
  | cons id rest ih =>
    unfold catchUpVideo at h
    cases hready : isReadyToRender c r id with
    | error e => simp [hready] at h
    | ok p =>
      obtain ⟨ready,r₁⟩ := p
      simp only [hready] at h
      have hlast₁ : r₁.lastRenderedId = r.lastRenderedId := by
        obtain ⟨-,⟨-,-,rfl⟩ | ⟨-,-,-,rfl⟩⟩ := isReadyToRender_cases hready <;> rfl
      have hcur₁ := (isReadyToRender_tidied hready).rendering.1
      by_cases hskip : ready = true ∧ RecoversAt c r₁ id
      · rw [if_pos hskip] at h
        obtain ⟨rfl,hrecovers⟩ := hskip
        obtain ⟨rfl,block,hblock⟩ := isReadyToRender_true hready
        have hblock₁ := hblock.cache
        have hpoint : IsRecoveryPoint ((r.cache (c.slot id)).memory block) := by
          unfold RecoversAt at hrecovers
          have hbuffer : ((r.cache (c.slot id)).receivingFrames (c.slot id)).frameBuffer = some block := by
            rw [RingBuffer.cache, setFrame_slot_self]
            exact hblock.block
          rw [hbuffer] at hrecovers
          exact hrecovers
        obtain ⟨-,⟨hold,-⟩ | ⟨-,r₂,htidied,-,hframes,rfl⟩⟩ := resetStream_cases h
        · have := hids id List.mem_cons_self
          omega
        · have hcell : r₂.receivingFrames (c.slot id) =
              (r.cache (c.slot id)).receivingFrames (c.slot id) := by
            rw [hframes _ (slot_lt c id)]
            unfold FrameData.skipped
            rw [if_neg]
            intro hlt
            have hid := hblock₁.frameId
            omega
          refine ⟨htidied.rendering.1.trans hcur₁,Or.inr ⟨block,?_,?_⟩⟩
          · have hnext : id - 1 + 1 = id := by omega
            change Ready c _ (id - 1 + 1) block
            rw [hnext]
            refine ⟨?_,?_,?_⟩
            · change (r₂.receivingFrames (c.slot id)).id = id
              rw [hcell]
              exact hblock₁.frameId
            · change getFramebuffer (r₂.receivingFrames (c.slot id)) = some block
              rw [hcell]
              exact hblock₁.block
            · change r₂.currentlyRenderingId < id
              rw [htidied.rendering.1]
              exact hblock₁.later
          · change IsRecoveryPoint (r₂.memory block)
            rw [htidied.memory]
            exact hpoint
      · rw [if_neg hskip] at h
        obtain ⟨hcur,hcases⟩ := ih (fun id' hid' => hlast₁ ▸ hids id' (List.mem_cons_of_mem _ hid')) h
        exact ⟨hcur.trans hcur₁,hcases.imp_left (fun heq => heq.trans hlast₁)⟩

theorem catchUpVideo_tidied {idList : List ℤ} (hwf : RingWf c r) (h : catchUpVideo c idList r = .ok r') :
    RingWf c r' := by
  induction idList generalizing r with
  | nil =>
    cases h
    exact hwf
  | cons id rest ih =>
    unfold catchUpVideo at h
    cases hready : isReadyToRender c r id with
    | error e => simp [hready] at h
    | ok p =>
      obtain ⟨ready,r₁⟩ := p
      simp only [hready] at h
      have hwf₁ := hwf.tidied (isReadyToRender_tidied hready)
      split_ifs at h
      · exact hwf₁.resetStream h
      · exact ih hwf₁ h

theorem takeNextFrame_wf {f : Option ReturnedFrame} (hwf : RingWf c r)
    (h : takeNextFrame c r = .ok (f,r')) : RingWf c r' := by
  unfold takeNextFrame at h
  dsimp only at h
  cases hready : isReadyToRender c r (r.lastRenderedId + 1) with
  | error e => simp [hready] at h
  | ok p =>
    obtain ⟨ready,r₁⟩ := p
    have hwf₁ := hwf.tidied (isReadyToRender_tidied hready)
    cases ready with
    | false =>
      rw [hready] at h
      cases h
      exact hwf₁
    | true =>
      rw [hready] at h
      obtain ⟨r₂,hrender,hpair⟩ := Run.map_eq_ok h
      cases hpair
      exact hwf₁.setRendering hrender

structure VideoFollows (c : RingConfig) (frames : List ReturnedFrame) (r : RingBuffer) : Prop where
  wf : RingWf c r
  passed : ∀ f ∈ frames, f.id ≤ r.currentlyRenderingId
  last : r.lastRenderedId = -1 ∨
    r.lastRenderedId = r.currentlyRenderingId ∧ ∃ f, frames.getLast? = some f ∧ f.id = r.currentlyRenderingId

theorem VideoFollows.follows {frames : List ReturnedFrame} (h : VideoFollows c frames r)
    (hwf : RingWf c r') (hf : Follows r r') : VideoFollows c frames r' := by
  refine ⟨hwf,fun f hmem => ?_,?_⟩
  · rw [hf.1]
    exact h.passed f hmem
  · rcases hf.2 with heq | hnew
    · rw [heq, hf.1]
      exact h.last
    · exact Or.inl hnew

theorem VideoFollows.getVideo {frames : List ReturnedFrame} (h : VideoFollows c frames r)
    (horder : InOrder frames) {r₁ : RingBuffer} {f : Option ReturnedFrame}
    (hcatch : catchUpVideo c (videoIds c r) r = .ok r₁) (htake : takeNextFrame c r₁ = .ok (f,r')) :
    InOrder (frames ++ f.toList) ∧ VideoFollows c (frames ++ f.toList) r' := by
  have hwf₁ := catchUpVideo_tidied h.wf hcatch
  have hwf' := takeNextFrame_wf hwf₁ htake
  have hids : ∀ id ∈ videoIds c r, r.lastRenderedId < id := by
    intro id hid
    unfold videoIds ids at hid
    rw [List.mem_reverse, List.mem_map] at hid
    obtain ⟨k,-,rfl⟩ := hid
    omega
  obtain ⟨hcur₁,hcases⟩ := catchUpVideo_cases hids hcatch
  rcases takeNextFrame_cases htake with ⟨rfl,hcur,hlast,hnone⟩ | ⟨block,hready,rfl,hcur,hlast⟩
  · rw [Option.toList_none, List.append_nil]
    refine ⟨horder,hwf',fun f hmem => ?_,?_⟩
    · rw [hcur, hcur₁]
      exact h.passed f hmem
    · rcases hcases with heq | ⟨block,hready,-⟩
      · rw [hlast, heq, hcur, hcur₁]
        exact h.last
      · exact absurd hready (hnone block)
  · have hlater := hready.later
    rw [Option.toList_some]
    refine ⟨horder.snoc (fun g hg => ?_) ?_,hwf',fun g hg => ?_,
      Or.inr ⟨hlast.trans hcur.symm,⟨r₁.lastRenderedId + 1,r₁.memory block⟩,?_,hcur.symm⟩⟩
    · have := h.passed g hg
      dsimp only
      omega
    · rcases hcases with heq | ⟨block',hready',hpoint⟩
      · -- no skip: the stream goes on, for an ID without a stream is never ready
        rcases h.last with hnew | ⟨hsame,g,hg,hgid⟩
        · have hpos := (hwf₁.frames _ (slot_lt c (r₁.lastRenderedId + 1))).id_pos
            (by rw [hready.block]; exact Option.some_ne_none _)
          rw [hready.frameId] at hpos
          omega
        · refine Or.inr ⟨g,hg,?_⟩
          dsimp only
          omega
      · have hblock : block' = block := Option.some.inj (hready'.block.symm.trans hready.block)
        exact Or.inl (hblock ▸ hpoint)
    · rw [hcur]
      rcases List.mem_append.mp hg with hg | hg
      · have := h.passed g hg
        omega
      · rw [List.mem_singleton] at hg
        rw [hg]
    · rw [List.getLast?_append]
      rfl

structure VideoInvariant (cfg : WhistPacketType → RingConfig) (s : Receiver) : Prop where
  order : InOrder (videoFrames s.packets)
  ring : ∀ r, s.context.ringBuffers .video = some r → VideoFollows (cfg .video) (videoFrames s.packets) r

section Client
variable {cfg : WhistPacketType → RingConfig} {ctx ctx' : ReceiveContext} {frames : List ReturnedFrame}

theorem setRing_self (type : WhistPacketType) (r₁ : RingBuffer) :
    (ctx.setRing type r₁).ringBuffers type = some r₁ := Function.update_self ..

theorem setRing_of_ne {type type' : WhistPacketType} (hne : type' ≠ type) (r₁ : RingBuffer) :
    (ctx.setRing type r₁).ringBuffers type' = ctx.ringBuffers type' := Function.update_of_ne hne ..

theorem setRing_video {type : WhistPacketType} {r₁ : RingBuffer}
    (h : ∀ r, ctx.ringBuffers .video = some r → VideoFollows (cfg .video) frames r)
    (h₁ : type = .video → VideoFollows (cfg .video) frames r₁) :
    ∀ r, (ctx.setRing type r₁).ringBuffers .video = some r → VideoFollows (cfg .video) frames r := by
  intro r hr
  by_cases htype : type = .video
  · subst htype
    rw [setRing_self, Option.some.injEq] at hr
    exact hr ▸ h₁ rfl
  · rw [setRing_of_ne (Ne.symm htype)] at hr
    exact h r hr

theorem takeReceived_video {segment : Option WhistSegment}
    (h : ∀ r, ctx.ringBuffers .video = some r → VideoFollows (cfg .video) frames r)
    (hr : takeReceived cfg ctx segment = .ok ctx') :
    ∀ r, ctx'.ringBuffers .video = some r → VideoFollows (cfg .video) frames r := by
  cases segment with
  | none =>
    cases hr
    exact h
  | some s =>
    unfold takeReceived takeSegment at hr
    dsimp only at hr
    cases hring : ctx.ringBuffers s.whistType with
    | none =>
      rw [hring] at hr
      dsimp only at hr
      split_ifs at hr
      cases hr
      exact h
    | some r₀ =>
      rw [hring] at hr
      obtain ⟨⟨b,r₁⟩,hreceive,rfl⟩ := Run.map_eq_ok hr
      refine setRing_video h (fun htype => ?_)
      rw [htype] at hring hreceive
      have h₀ := h r₀ hring
      exact h₀.follows (h₀.wf.receiveSegment hreceive) (receiveSegment_follows hreceive)

theorem udpUpdate_video {lost : Bool} {segment : Option WhistSegment} {t : NackTiming}
    (h : ∀ r, ctx.ringBuffers .video = some r → VideoFollows (cfg .video) frames r)
    (hr : udpUpdate cfg ctx lost segment t = .ok ctx') :
    ∀ r, ctx'.ringBuffers .video = some r → VideoFollows (cfg .video) frames r := by
  unfold udpUpdate at hr
  split_ifs at hr
  · cases hr
    exact h
  · cases hr
    exact h
  · cases htake : takeReceived cfg ctx segment with
    | error e => simp [htake] at hr
    | ok ctx₁ =>
      simp only [htake] at hr
      have h₁ := takeReceived_video h htake
      cases hring : ctx₁.ringBuffers .video with
      | none =>
        rw [hring] at hr
        cases hr
        exact h₁
      | some r₁ =>
        rw [hring] at hr
        obtain ⟨r₂,hrecover,rfl⟩ := Run.map_eq_ok hr
        have htidied := tryRecovering_tidied hrecover
        have hfollows := h₁ r₁ hring
        exact setRing_video h₁ (fun _ => hfollows.follows (hfollows.wf.tidied htidied) htidied.follows)

theorem videoFrames_append (packets more : List Packet) :
    videoFrames (packets ++ more) = videoFrames packets ++ videoFrames more := List.filterMap_append

theorem udpGetPacket_video {type : WhistPacketType} {old : Bool} {packet : Option Packet}
    (horder : InOrder frames)
    (h : ∀ r, ctx.ringBuffers .video = some r → VideoFollows (cfg .video) frames r)
    (hr : udpGetPacket cfg ctx type old = .ok (packet,ctx')) :
    InOrder (frames ++ videoFrames packet.toList) ∧ ∀ r, ctx'.ringBuffers .video = some r →
      VideoFollows (cfg .video) (frames ++ videoFrames packet.toList) r := by
  unfold udpGetPacket at hr
  split_ifs at hr with hlost hmessage
  · cases hr
    rw [show videoFrames (none : Option Packet).toList = [] from rfl, List.append_nil]
    exact ⟨horder,h⟩
  · cases hr
    have hnone : videoFrames ((ctx.pendingPackets .message).map Packet.message).toList = [] := by
      cases ctx.pendingPackets .message <;> rfl
    rw [hnone, List.append_nil]
    exact ⟨horder,h⟩
  · cases hring : ctx.ringBuffers type with
    | none => simp [hring] at hr
    | some r₀ =>
      simp only [hring] at hr
      cases hcatch : catchUp (cfg type) type old r₀ with
      | error e => simp [hcatch] at hr
      | ok r₁ =>
        simp only [hcatch] at hr
        obtain ⟨⟨f,r₂⟩,htake,hpair⟩ := Run.map_eq_ok hr
        cases hpair
        by_cases htype : type = .video
        · subst htype
          have hframes : videoFrames (f.map (Packet.frame .video)).toList = f.toList := by
            cases f <;> rfl
          rw [hframes]
          obtain ⟨horder',hfollows⟩ := (h r₀ hring).getVideo horder hcatch htake
          refine ⟨horder',fun r hr => ?_⟩
          rw [setRing_self, Option.some.injEq] at hr
          exact hr ▸ hfollows
        · have hframes : videoFrames (f.map (Packet.frame type)).toList = [] := by
            cases f with
            | none => rfl
            | some f =>
              cases type with
              | video => exact absurd rfl htype
              | audio => rfl
              | message => rfl
              | gpu => rfl
          rw [hframes, List.append_nil]
          exact ⟨horder,setRing_video h (fun hvideo => absurd hvideo htype)⟩

theorem receiverStep_invariant {s : Receiver} (h : VideoInvariant cfg s) (call : ClientCall) :
    VideoInvariant cfg (receiverStep cfg s call) := by
  unfold receiverStep
  split_ifs
  · exact h
  · cases call with
    | update lost segment t =>
      dsimp only
      cases hr : udpUpdate cfg s.context lost segment t with
      | error e => exact ⟨h.order,h.ring⟩
      | ok ctx => exact ⟨h.order,udpUpdate_video h.ring hr⟩
    | getPacket type old =>
      dsimp only
      cases hr : udpGetPacket cfg s.context type old with
      | error e => exact ⟨h.order,h.ring⟩
      | ok p =>
        obtain ⟨packet,ctx⟩ := p
        obtain ⟨horder,hring⟩ := udpGetPacket_video h.order h.ring hr
        refine ⟨?_,?_⟩
        · dsimp only
          rw [videoFrames_append]
          exact horder
        · dsimp only
          rw [videoFrames_append]
          exact hring

end Client

/-- Whatever arrives in whatever order, the video frames handed out have growing IDs, and
each is the successor of the one before or a recovery point. -/
theorem video_frames_in_order (cfg : WhistPacketType → RingConfig) (types : WhistPacketType → Bool)
    (calls : List ClientCall) : InOrder (videoFrames (receiverRun cfg types calls).packets) := by
  have hstart : VideoInvariant cfg { context := registerRingBuffers cfg types } := by
    refine ⟨⟨List.Pairwise.nil,fun pre f post hnil => ?_⟩,fun r hr => ?_⟩
    · simp [videoFrames] at hnil
    · unfold registerRingBuffers at hr
      dsimp only at hr
      split_ifs at hr
      cases hinit : initRingBuffer (cfg .video) with
      | error e => simp [hinit, Except.toOption] at hr
      | ok r₀ =>
        simp only [hinit, Except.toOption, Option.some.injEq] at hr
        subst hr
        obtain ⟨hwf,-,-,hlast,-⟩ := RingWf.init hinit
        exact ⟨hwf,fun f hf => absurd hf List.not_mem_nil,Or.inl hlast⟩
  have hrun : ∀ s, VideoInvariant cfg s → VideoInvariant cfg (calls.foldl (receiverStep cfg) s) := by
    induction calls with
    | nil => exact fun s h => h
    | cons call rest ih => exact fun s h => ih _ (receiverStep_invariant h call)
  exact (hrun _ hstart).order

end Whist.Ring
