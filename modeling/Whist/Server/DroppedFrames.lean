import Whist.Server.VideoRequests
import Whist.Video.LtrCalls

/-! # Frames the server encodes and then drops -/
namespace Whist.Server
open Whist.Ltr

structure EncodedFrame where
  frame : LtrFrame
  handed : Bool
deriving DecidableEq

/-- What becomes of the frame of an iteration: the size the encoder reports, whether the
sending thread gets the lock of an active client, and whether `send_packet` returns zero. -/
structure FrameFate where
  encodedFrameSize : ℕ := 1
  clientActive : Bool := true
  packetSent : Bool := true
deriving DecidableEq

def largestVideoframeSize : ℕ := 4000000

/-- `sizeof(VideoFrame) + sizeof(WhistCursorInfo)` of a 64-bit build. -/
def maxVideoframeMetadataSize : ℕ := 152 + 32

def maxVideoframeDataSize : ℕ := largestVideoframeSize - maxVideoframeMetadataSize

/-- The tests of the loop on the encoded size, then those of `multithreaded_send_video_packets`. -/
def FrameFate.handedOver (x : FrameFate) : Bool :=
  x.encodedFrameSize != 0 && decide (x.encodedFrameSize ≤ maxVideoframeDataSize) &&
    x.clientActive && x.packetSent

structure FrameServer where
  server : VideoServer := {}
  frames : List EncodedFrame := []

structure FrameMove where
  move : VideoServer.Move
  fate : FrameFate := {}

def Spared (frames : List EncodedFrame) (n : EncodedFrame) (after : List EncodedFrame) : Prop :=
  (∃ m, after.find? EncodedFrame.handed = some m ∧ Recovers m.frame.action) ∨
    ∀ m ∈ after, m.handed = true → ¬Dependent (frames.map EncodedFrame.frame) n.frame m.frame

/-- After each dropped frame the next one sent is a recovery point, or no frame sent later
is encoded against the dropped one. -/
def DropsHarmless (frames : List EncodedFrame) : Prop :=
  ∀ before n after, frames = before ++ n :: after → n.handed = false → Spared frames n after

namespace FrameServer

def encodes (s : FrameServer) (mv : FrameMove) : List EncodedFrame :=
  match mv.move with
  | .video q =>
    if s.server.video.pc = .encode ∧ q.succeeds = true then
      (s.server.video.ltr.inflightList.getLast?.map (fun f => ⟨f,mv.fate.handedOver⟩)).toList
    else []
  | _ => []

theorem encodes_video (s : FrameServer) (q : VideoInput) (fate : FrameFate) :
    s.encodes ⟨.video q,fate⟩ =
      if s.server.video.pc = .encode ∧ q.succeeds = true then
        (s.server.video.ltr.inflightList.getLast?.map (fun f => EncodedFrame.mk f fate.handedOver)).toList
      else [] := rfl

def step (s : FrameServer) (mv : FrameMove) : Except ServerError FrameServer :=
  match s.server.step mv.move with
  | .error e => .error e
  | .ok server => .ok ⟨server,s.frames ++ s.encodes mv⟩

def repairDue (ltr : LtrState) : Bool :=
  decide (ltr.frameCounter = 0) || ltr.intraFrameNeeded || ltr.lastFrameIsBad ||
    (!ltr.haveGoodLongTermFrame &&
      decide (ltr.frameCounter + 1 - ltr.intraFrameCounter ≥ ltrNewIntraFrameDelay))

def Handed (frames : List EncodedFrame) (c : ℕ) : Prop :=
  ∃ e ∈ frames, e.handed = true ∧ e.frame.frameCounter = c

instance (frames : List EncodedFrame) (c : ℕ) : Decidable (Handed frames c) :=
  inferInstanceAs (Decidable (∃ e ∈ frames, e.handed = true ∧ e.frame.frameCounter = c))

/-- A repair is due when the next frame is chosen after one that was dropped, and the frame
that an ack names was handed over. -/
def MendsAt (s : FrameServer) : VideoPc → Prop
  | .nextAction => (∀ e ∈ s.frames.getLast?, e.handed = true) ∨ repairDue s.server.video.ltr = true
  | .markFrameReceived => ∀ f ∈ ltrFindFrameById s.server.video.ltr s.server.state.frameAckId,
    Handed s.frames f.frameCounter
  | _ => True

def Mends (s : FrameServer) (mv : FrameMove) : Prop :=
  match mv.move with
  | .video _ => s.MendsAt s.server.video.pc
  | _ => True

instance (s : FrameServer) : ∀ pc, Decidable (s.MendsAt pc) := by
  intro pc
  cases pc <;> (dsimp only [MendsAt]; infer_instance)

instance (s : FrameServer) : ∀ mv, Decidable (s.Mends mv)
  | ⟨.video _,_⟩ => inferInstanceAs (Decidable (s.MendsAt s.server.video.pc))
  | ⟨.receive _,_⟩ => isTrue trivial
  | ⟨.handle,_⟩ => isTrue trivial

def Grounded (frames : List EncodedFrame) (f : LtrFrame) : Prop :=
  f.referenceFrameCounter = 0 ∨ Handed frames f.referenceFrameCounter

section Log
variable {frames : List EncodedFrame}

theorem Handed.append {c : ℕ} (h : Handed frames c) (more : List EncodedFrame) :
    Handed (frames ++ more) c := by
  obtain ⟨e,he,hh⟩ := h
  exact ⟨e,List.mem_append_left _ he,hh⟩

theorem Grounded.append {f : LtrFrame} (h : Grounded frames f) (more : List EncodedFrame) :
    Grounded (frames ++ more) f := h.imp_right (fun hh => hh.append more)

theorem eq_or_handed_of_dependent (hground : ∀ e ∈ frames, Grounded frames e.frame)
    {n m : LtrFrame} (hn : 0 < n.frameCounter)
    (hd : Dependent (frames.map EncodedFrame.frame) n m) : n = m ∨ Handed frames n.frameCounter := by
  induction hd with
  | refl => exact Or.inl rfl
  | @tail x y hx hstep ih =>
    obtain ⟨hy,href⟩ := hstep
    obtain ⟨e,he,rfl⟩ := List.mem_map.mp hy
    rcases ih with rfl | hh
    · refine Or.inr ?_
      rcases hground e he with hz | hh
      · omega
      · rwa [href] at hh
    · exact Or.inr hh

theorem dropsHarmless_of_grounded (hground : ∀ e ∈ frames, Grounded frames e.frame)
    (hpos : ∀ e ∈ frames, 0 < e.frame.frameCounter)
    (hnodup : (frames.map (fun e => e.frame.frameCounter)).Nodup) : DropsHarmless frames := by
  intro before n after hsplit hdropped
  have hn : n ∈ frames := by simp [hsplit]
  refine Or.inr (fun m hm hhanded hd => ?_)
  have hm' : m ∈ frames := by simp [hsplit, hm]
  have heq : ∀ e ∈ frames, e.handed = true → e.frame.frameCounter ≠ n.frame.frameCounter := by
    intro e he hh hc
    have hen := List.inj_on_of_nodup_map hnodup he hn hc
    rw [hen, hdropped] at hh
    cases hh
  rcases eq_or_handed_of_dependent hground (hpos n hn) hd with hnm | ⟨e,he,hh,hc⟩
  · exact heq m hm' hhanded (by rw [hnm])
  · exact heq e he hh hc

end Log

theorem reference_cases {sess sess' : Session} {frame : LtrFrame} (h : Tracking sess)
    (hg : Gets sess sess' frame) :
    frame.referenceFrameCounter = 0 ∨ frame.referenceFrameCounter ∈ sess.acked ∨
      repairDue sess.ltr = false ∧ 0 < sess.ltr.frameCounter ∧
        frame.referenceFrameCounter = sess.ltr.frameCounter := by
  rcases hg.issues with hi | hi | hi | hi
  · exact Or.inl hi.reference
  · exact Or.inr (Or.inl (hi.reference ▸ h.goodAcked hi.wasGood))
  · refine Or.inr (Or.inr ⟨?_,hi.started,hi.reference⟩)
    have hpos := hi.started
    simp [repairDue, hi.unforced, hi.intact, hi.wasGood, Nat.ne_of_gt hpos]
  · refine Or.inr (Or.inr ⟨?_,hi.started,hi.reference⟩)
    have hpos := hi.started
    cases hgood : sess.ltr.haveGoodLongTermFrame with
    | true => simp [repairDue, hi.unforced, hi.intact, hgood, Nat.ne_of_gt hpos]
    | false =>
      have hrecent := hi.recent hgood
      simp only [repairDue, hi.unforced, hi.intact, hgood, Nat.ne_of_gt hpos, decide_false,
        Bool.false_or, Bool.not_false, Bool.true_and, decide_eq_false_iff_not]
      omega

structure Follows (s : FrameServer) (sess : Session) (waiting : List LtrFrame) : Prop where
  tracking : Tracking sess
  ltr : sess.ltr = s.server.video.ltr
  issued : sess.issued = s.frames.map EncodedFrame.frame ++ waiting
  acked : ∀ c ∈ sess.acked, Handed s.frames c
  grounded : ∀ f ∈ waiting, Grounded s.frames f

def WaitsAt (s : FrameServer) (waiting : List LtrFrame) : VideoPc → Prop
  | .encode => ∃ f, waiting = [f] ∧ s.server.video.ltr.inflightList.getLast? = some f
  | .exited => True
  | _ => waiting = []

structure Inv (s : FrameServer) : Prop where
  grounded : ∀ e ∈ s.frames, Grounded s.frames e.frame
  follows : ∃ sess waiting, s.Follows sess waiting ∧ s.WaitsAt waiting s.server.video.pc

section Steps
variable {s t : FrameServer}

theorem WaitsAt.nil {waiting : List LtrFrame} {pc : VideoPc} (h : s.WaitsAt waiting pc)
    (he : pc ≠ .encode) (hx : pc ≠ .exited) : waiting = [] := by
  cases pc <;> first | exact h | exact absurd rfl he | exact absurd rfl hx

theorem WaitsAt.of_nil {pc : VideoPc} (he : pc ≠ .encode) : s.WaitsAt [] pc := by
  cases pc <;> first | exact rfl | exact trivial | exact absurd rfl he

theorem Inv.harmless (h : s.Inv) : DropsHarmless s.frames := by
  obtain ⟨sess,waiting,hf,-⟩ := h.follows
  have hcounters := hf.tracking.counters
  rw [hf.issued, List.map_append, List.map_map] at hcounters
  refine dropsHarmless_of_grounded h.grounded ?_ ?_
  · intro e he
    have hmem : e.frame ∈ sess.issued := by
      rw [hf.issued]
      exact List.mem_append_left _ (List.mem_map_of_mem he)
    exact (hf.tracking.counter_bounds hmem).1
  · have hnodup : (List.range' 1 sess.ltr.frameCounter).Nodup := List.nodup_range'
    rw [← hcounters] at hnodup
    exact (List.nodup_append.mp hnodup).1

theorem initial_inv : Inv {} := by
  refine ⟨by simp,Session.start,[],⟨tracking_start,rfl,rfl,by simp [Session.start],by simp⟩,rfl⟩

theorem Inv.still (h : s.Inv) {server : VideoServer} (hltr : server.video.ltr = s.server.video.ltr)
    (hpc : server.video.pc = s.server.video.pc ∨ server.video.pc ≠ .encode ∧
      (server.video.pc = .exited ∨ s.server.video.pc ≠ .encode ∧ s.server.video.pc ≠ .exited)) :
    Inv ⟨server,s.frames⟩ := by
  obtain ⟨sess,waiting,hf,hat⟩ := h.follows
  refine ⟨h.grounded,sess,waiting,⟨hf.tracking,hf.ltr.trans hltr.symm,hf.issued,hf.acked,hf.grounded⟩,?_⟩
  rcases hpc with hpc | ⟨he,hx | ⟨hne,hnx⟩⟩
  · dsimp only
    rw [hpc]
    cases hpc' : s.server.video.pc <;> rw [hpc'] at hat <;> first | exact hat | skip
    obtain ⟨f,hi,hlast⟩ := hat
    exact ⟨f,hi,by rw [← hlast, ← hltr]⟩
  · dsimp only
    rw [hx]
    trivial
  · obtain rfl := hat.nil hne hnx
    exact WaitsAt.of_nil he

theorem Inv.encoded (h : s.Inv) (hpc : s.server.video.pc = .encode) {server : VideoServer}
    (hltr : server.video.ltr = s.server.video.ltr) (he : server.video.pc ≠ .encode) (handed : Bool) :
    Inv ⟨server,s.frames ++
      (s.server.video.ltr.inflightList.getLast?.map (fun f => EncodedFrame.mk f handed)).toList⟩ := by
  obtain ⟨sess,waiting,hf,hat⟩ := h.follows
  rw [hpc] at hat
  obtain ⟨f,rfl,hlast⟩ := hat
  have hlog : (s.server.video.ltr.inflightList.getLast?.map (fun f => EncodedFrame.mk f handed)).toList =
      [⟨f,handed⟩] := by rw [hlast]; rfl
  rw [hlog]
  refine ⟨?_,sess,[],⟨hf.tracking,hf.ltr.trans hltr.symm,?_,?_,by simp⟩,WaitsAt.of_nil he⟩
  · intro e hmem
    rcases List.mem_append.mp hmem with hmem | hmem
    · exact (h.grounded e hmem).append _
    · rw [List.mem_singleton.mp hmem]
      exact (hf.grounded f (by simp)).append _
  · rw [hf.issued]
    simp
  · exact fun c hc => (hf.acked c hc).append _

theorem Inv.called (h : s.Inv) (he : s.server.video.pc ≠ .encode) (hx : s.server.video.pc ≠ .exited)
    {server : VideoServer} (hpc : server.video.pc ≠ .encode)
    (hcall : ∀ sess, Tracking sess → sess.ltr = s.server.video.ltr →
      sess.issued = s.frames.map EncodedFrame.frame → ∃ sess', sess'.ltr = server.video.ltr ∧
        Tracking sess' ∧ sess'.issued = sess.issued ∧
        ∀ c ∈ sess'.acked, c ∈ sess.acked ∨ Handed s.frames c) :
    Inv ⟨server,s.frames⟩ := by
  obtain ⟨sess,waiting,hf,hat⟩ := h.follows
  obtain rfl := hat.nil he hx
  have hissued := hf.issued
  rw [List.append_nil] at hissued
  obtain ⟨sess',hltr,htracking,hsame,hacked⟩ := hcall sess hf.tracking hf.ltr hissued
  refine ⟨h.grounded,sess',[],⟨htracking,hltr,hsame.trans hf.issued,?_,by simp⟩,WaitsAt.of_nil hpc⟩
  intro c hc
  exact (hacked c hc).elim (hf.acked c) id

theorem Inv.received (h : s.Inv) (hpc : s.server.video.pc = .markFrameReceived)
    (hmends : s.MendsAt .markFrameReceived) {q : VideoInput} {server : VideoServer}
    (hstep : s.server.stepAt q .markFrameReceived = .ok server) : Inv ⟨server,s.frames⟩ := by
  dsimp only [VideoServer.stepAt] at hstep
  cases hm : ltrMarkFrameReceived s.server.video.ltr s.server.state.frameAckId with
  | error e =>
    rw [hm] at hstep
    cases hstep
  | ok r =>
    rw [hm] at hstep
    cases hstep
    refine h.called (by rw [hpc]; decide) (by rw [hpc]; decide) (by simp) ?_
    intro sess htracking hltr hissued
    rw [← hltr] at hm
    obtain ⟨sess',hltr',htr,hsame,-,hacked⟩ := htracking.received hm
    refine ⟨sess',hltr',htr.tracking htracking,hsame,fun c hc => (hacked c hc).imp_right ?_⟩
    rintro ⟨f,z,hfind,hz,hdep,rfl⟩
    rw [hltr] at hfind
    rw [hissued] at hdep
    rcases eq_or_handed_of_dependent h.grounded (htracking.counter_bounds hz).1 hdep with rfl | hh
    · exact hmends z hfind
    · exact hh

theorem Inv.brokenOrForced (h : s.Inv) (hpc : s.server.video.pc = .restartOrBroken) {q : VideoInput}
    {server : VideoServer} (hstep : s.server.stepAt q .restartOrBroken = .ok server) :
    Inv ⟨server,s.frames⟩ := by
  dsimp only [VideoServer.stepAt] at hstep
  split_ifs at hstep with hrestart
  · cases hstep
    refine h.called (by rw [hpc]; decide) (by rw [hpc]; decide) (by simp) ?_
    intro sess htracking hltr _
    obtain ⟨sess',hltr',htr,hsame,hacked⟩ := htracking.forced
    exact ⟨sess',by rw [hltr', hltr],htr.tracking htracking,hsame,fun c hc => Or.inl (hacked c hc)⟩
  · cases hm : ltrMarkStreamBroken s.server.video.ltr with
    | error e =>
      rw [hm] at hstep
      cases hstep
    | ok ltr =>
      rw [hm] at hstep
      cases hstep
      refine h.called (by rw [hpc]; decide) (by rw [hpc]; decide) (by simp) ?_
      intro sess htracking hltr _
      rw [← hltr] at hm
      obtain ⟨sess',hltr',htr,hsame,-,-,hacked⟩ := htracking.broken hm
      exact ⟨sess',hltr',htr.tracking htracking,hsame,fun c hc => Or.inl (hacked c hc)⟩

theorem Follows.handed_newest {sess : Session} (h : s.Follows sess []) (hpos : 0 < sess.ltr.frameCounter)
    (hlast : ∀ e ∈ s.frames.getLast?, e.handed = true) :
    Handed s.frames sess.ltr.frameCounter := by
  have hcounters := h.tracking.counters
  have hissued := h.issued
  rw [List.append_nil] at hissued
  rw [hissued, List.map_map] at hcounters
  have hnewest := congrArg List.getLast? hcounters
  rw [List.getLast?_map, List.getLast?_range'] at hnewest
  cases he : s.frames.getLast? with
  | none =>
    rw [he] at hnewest
    simp [Nat.ne_of_gt hpos] at hnewest
  | some e =>
    rw [he] at hnewest
    refine ⟨e,List.mem_of_getLast? he,hlast e he,?_⟩
    simp [Nat.ne_of_gt hpos] at hnewest
    omega

theorem Inv.next (h : s.Inv) (hpc : s.server.video.pc = .nextAction) (hmends : s.MendsAt .nextAction)
    {q : VideoInput} {server : VideoServer} (hstep : s.server.stepAt q .nextAction = .ok server) :
    Inv ⟨server,s.frames⟩ := by
  dsimp only [VideoServer.stepAt] at hstep
  cases hstep
  obtain ⟨sess,waiting,hf,hat⟩ := h.follows
  obtain rfl := hat.nil (by rw [hpc]; decide) (by rw [hpc]; decide)
  obtain ⟨sess',frame,hltr,-,hg,hlast⟩ := hf.tracking.next s.server.video.id
  have href := reference_cases hf.tracking hg
  rw [hf.ltr] at hltr
  rw [hltr] at hlast
  refine ⟨h.grounded,sess',[frame],⟨hg.tracking hf.tracking,hltr,?_,
    fun c hc => hf.acked c ((hg.acked c).mp hc),?_⟩,frame,rfl,hlast⟩
  · rw [hg.issued, hf.issued, List.append_nil]
  · intro f hmem
    obtain rfl := List.mem_singleton.mp hmem
    rcases href with hz | hack | ⟨hdue,hpos,hnewest⟩
    · exact Or.inl hz
    · exact Or.inr (hf.acked _ hack)
    · right
      rw [hnewest]
      rcases hmends with hhanded | hrepair
      · exact hf.handed_newest hpos hhanded
      · rw [← hf.ltr, hdue] at hrepair
        cases hrepair

theorem video_inv (h : s.Inv) (hmends : s.MendsAt s.server.video.pc) {q : VideoInput}
    {server : VideoServer} (fate : FrameFate) (hstep : s.server.stepAt q s.server.video.pc = .ok server) :
    Inv ⟨server,s.frames ++ s.encodes ⟨.video q,fate⟩⟩ := by
  by_cases henc : s.server.video.pc = .encode
  · obtain ⟨hltr,he⟩ := VideoServer.stepAt_ltr hstep (by rw [henc]; rfl)
    cases hq : q.succeeds with
    | true =>
      rw [encodes_video, if_pos ⟨henc,hq⟩]
      exact h.encoded henc hltr he fate.handedOver
    | false =>
      rw [encodes_video, if_neg (by simp [hq]), List.append_nil]
      refine h.still hltr (Or.inr ⟨he,Or.inl ?_⟩)
      rw [henc] at hstep
      simp only [VideoServer.stepAt, hq, Bool.false_eq_true, if_false, Except.ok.injEq] at hstep
      rw [← hstep]
      rfl
  · have hnone : s.encodes ⟨.video q,fate⟩ = [] := if_neg (fun hc => henc hc.1)
    rw [hnone, List.append_nil]
    cases hcalls : VideoServer.callsLtr s.server.video.pc with
    | false =>
      obtain ⟨hltr,he⟩ := VideoServer.stepAt_ltr hstep hcalls
      refine h.still hltr (Or.inr ⟨he,Or.inr ⟨henc,fun hx => ?_⟩⟩)
      rw [hx] at hstep
      cases hstep
    | true =>
      cases hpc : s.server.video.pc <;> rw [hpc] at hcalls hmends hstep
      case markFrameReceived => exact h.received hpc hmends hstep
      case restartOrBroken => exact h.brokenOrForced hpc hstep
      case nextAction => exact h.next hpc hmends hstep
      all_goals cases hcalls

theorem step_inv (mv : FrameMove) (h : s.Inv) (hmends : s.Mends mv) (hstep : s.step mv = .ok t) :
    t.Inv := by
  obtain ⟨mv,fate⟩ := mv
  rw [step] at hstep
  cases hserver : s.server.step mv with
  | error e => simp only [hserver, reduceCtorEq] at hstep
  | ok server =>
    simp only [hserver, Except.ok.injEq] at hstep
    subst hstep
    cases mv with
    | receive m =>
      dsimp only [VideoServer.step] at hserver
      split_ifs at hserver
      cases hserver
      rw [encodes, List.append_nil]
      have hv := VideoServer.receive_video s.server m
      exact h.still (by dsimp only; rw [hv]) (Or.inl (by dsimp only; rw [hv]))
    | handle =>
      dsimp only [VideoServer.step] at hserver
      split_ifs at hserver
      cases hserver
      rw [encodes, List.append_nil]
      have hv := VideoServer.handle_video s.server
      exact h.still (by dsimp only; rw [hv]) (Or.inl (by dsimp only; rw [hv]))
    | video q => exact video_inv h hmends fate hserver

end Steps

/-- In every run that chooses no ordinary frame after a dropped one and in which only frames
handed over are acked, nothing sent depends on a dropped frame. -/
theorem drops_harmless (moves : List FrameMove) {t : FrameServer} (hmends : Run.EachOk step Mends {} moves)
    (hrun : Run.run step {} moves = .ok t) : DropsHarmless t.frames :=
  (Run.EachOk.invariant (fun _ mv _ => step_inv mv) initial_inv hmends hrun).harmless

def handles (m : WhistClientMessage) (n : ℕ) : List FrameMove :=
  (VideoServer.handles m n).map (fun mv => ⟨mv,{}⟩)

/-- The loop makes `n` steps, and its frame meets this fate. -/
def loops (n : ℕ) (q : VideoInput) (fate : FrameFate) : List FrameMove := List.replicate n ⟨.video q,fate⟩

def mendedMoves : List FrameMove :=
  handles (.dimensions ⟨800,600,96⟩) 5 ++ loops 25 { accumulatedFrames := 1 } {} ++
    loops 16 { accumulatedFrames := 1 } { encodedFrameSize := 5000000 } ++ handles (.frameAck 2) 2 ++
    loops 21 { accumulatedFrames := 1, pendingStreamReset := true } {}

/-- The third frame refers to the first. -/
theorem drops_harmless_mended : ∃ t, Run.run step {} mendedMoves = .ok t ∧
    t.frames.map (fun e => (e.frame.referenceFrameCounter,e.handed)) = [(0,true),(1,false),(1,true)] ∧
    DropsHarmless t.frames := by
  have hframes : (Run.run step {} mendedMoves).toOption.map (fun t =>
      t.frames.map (fun e => (e.frame.referenceFrameCounter,e.handed))) =
        some [(0,true),(1,false),(1,true)] := by
    decide +kernel
  cases hrun : Run.run step {} mendedMoves with
  | error e =>
    rw [hrun] at hframes
    cases hframes
  | ok t =>
    rw [hrun] at hframes
    exact ⟨t,rfl,Option.some.inj hframes,drops_harmless mendedMoves (by decide +kernel) hrun⟩

def droppedMoves : List FrameMove :=
  handles (.dimensions ⟨800,600,96⟩) 5 ++ loops 25 { accumulatedFrames := 1 } { packetSent := false } ++
    loops 16 { accumulatedFrames := 1 } {}

/-- The second frame is encoded against the first, which the network never got. -/
theorem drops_harm :
    ¬∀ (moves : List FrameMove) (t : FrameServer), Run.run step {} moves = .ok t → DropsHarmless t.frames := by
  intro h
  have hframes : (Run.run step {} droppedMoves).toOption.map FrameServer.frames =
      some [⟨⟨⟨.intra,0⟩,1,0,2,true,false,false⟩,false⟩,⟨⟨⟨.normal,0⟩,2,1,3,true,false,false⟩,true⟩] := by
    decide +kernel
  cases hrun : Run.run step {} droppedMoves with
  | error e =>
    rw [hrun] at hframes
    cases hframes
  | ok t =>
    rw [hrun] at hframes
    have hharm := h droppedMoves t hrun
    rw [Option.some.inj hframes] at hharm
    rcases hharm [] _ _ rfl rfl with ⟨m,hm,hrec⟩ | hnone
    · obtain rfl := Option.some.inj hm
      rcases hrec with hrec | hrec <;> cases hrec
    · exact hnone _ (List.mem_singleton.mpr rfl) rfl (Relation.ReflTransGen.single ⟨by simp,rfl⟩)

end FrameServer

end Whist.Server
