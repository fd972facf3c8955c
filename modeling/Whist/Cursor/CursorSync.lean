import Whist.Foundation.Run
import Whist.Cursor.CursorCache
import Whist.Video.Ltr

/-! # Cursors of the video stream -/
namespace Whist.Cursor
open Recency
open Ltr (VideoFrameType)

def IsRecoveryPoint (type : VideoFrameType) : Prop := type = .intra ∨ type = .referLongTerm

instance (type : VideoFrameType) : Decidable (IsRecoveryPoint type) := instDecidableOr

/-- `has_cursor` tells whether there is a `cursor`. -/
structure VideoFrame where
  frameType : VideoFrameType
  isEmptyFrame : Bool := false
  cursor : Option WhistCursorInfo := none
deriving DecidableEq

structure CursorServer where
  cursorCache : WhistCursorCache
  lastCursorHash : UInt32 := 0

def CursorServer.startFrame (s : CursorServer) (type : VideoFrameType) : CursorServer :=
  if IsRecoveryPoint type then
    { cursorCache := whistCursorCacheClear s.cursorCache, lastCursorHash := 0 }
  else s

def frameCursor (s : CursorServer) (current : WhistCursorInfo) :
    Except CursorFatal (Option WhistCursorInfo × CursorServer) :=
  if current.hash = s.lastCursorHash then .ok (none,s)
  else if current.type = .png then
    match whistCursorCacheCheck s.cursorCache current.hash with
    | (some cached,cache) => .ok (some cached,{ cursorCache := cache, lastCursorHash := current.hash })
    | (none,cache) => (whistCursorCacheAdd cache current).map (fun cache =>
        (some current,{ cursorCache := cache, lastCursorHash := current.hash }))
  else .ok (some current,{ s with lastCursorHash := current.hash })

def sendPopulatedFrame (s : CursorServer) (current : CapturedCursor) (type : VideoFrameType) :
    Except CursorFatal (VideoFrame × CursorServer) :=
  (frameCursor (s.startFrame type) current.info).map (fun p => ({ frameType := type, cursor := p.1 },p.2))

def sendEmptyFrame : VideoFrame where
  frameType := .normal
  isEmptyFrame := true

/-- What becomes of an ID: a frame with a cursor, an empty frame, or an encoded frame that
is too large or without data and not sent. -/
inductive ServerFrame
  | populated (current : CapturedCursor) (type : VideoFrameType)
  | empty
  | dropped

structure VideoServer where
  state : CursorServer
  sent : List (Option VideoFrame) := []

def serverStep (s : VideoServer) : ServerFrame → Except CursorFatal VideoServer
  | .populated current type => (sendPopulatedFrame s.state current type).map (fun p =>
      { state := p.2, sent := s.sent ++ [some p.1] })
  | .empty => .ok { s with sent := s.sent ++ [some sendEmptyFrame] }
  | .dropped => .ok { s with sent := s.sent ++ [none] }

def serverRun (cursorCacheEntries : ℕ) (frames : List ServerFrame) : Except CursorFatal VideoServer :=
  Run.run serverStep
    { state := { cursorCache := whistCursorCacheCreate cursorCacheEntries false } } frames

/-- `pendingCursor` is the cursor last set as pending, presented since or not. -/
structure VideoContext where
  cursorCache : WhistCursorCache
  pendingCursor : Option WhistCursorInfo := none

def VideoContext.startFrame (ctx : VideoContext) (type : VideoFrameType) : VideoContext :=
  if IsRecoveryPoint type then { ctx with cursorCache := whistCursorCacheClear ctx.cursorCache } else ctx

def takeCursor (ctx : VideoContext) (new : WhistCursorInfo) : Except CursorFatal VideoContext :=
  if new.type = .png then
    match whistCursorCacheCheck ctx.cursorCache new.hash with
    | (some cached,cache) =>
      if new.cached = true then .ok { cursorCache := cache, pendingCursor := some cached }
      else .error .notCached
    | (none,cache) =>
      if new.cached = false then
        (whistCursorCacheAdd cache new).map (fun cache => { cursorCache := cache, pendingCursor := some new })
      else .error .cached
  else if new.cached = false then .ok { ctx with pendingCursor := some new }
  else .error .cached

def renderVideo (ctx : VideoContext) (frame : VideoFrame) (accepted : Bool) :
    Except CursorFatal VideoContext :=
  if frame.isEmptyFrame then .ok ctx
  else if accepted = false then .ok ctx
  else
    match frame.cursor with
    | none => if IsRecoveryPoint frame.frameType then .error .noCursor else .ok ctx
    | some new => takeCursor (ctx.startFrame frame.frameType) new

def clientStep (sent : List (Option VideoFrame)) (ctx : VideoContext) (arrival : ℕ × Bool) :
    Except CursorFatal VideoContext :=
  match sent[arrival.1]? with
  | some (some frame) => renderVideo ctx frame arrival.2
  | _ => .ok ctx

def clientRun (cursorCacheEntries : ℕ) (sent : List (Option VideoFrame)) (arrivals : List (ℕ × Bool)) :
    Except CursorFatal VideoContext :=
  Run.run (clientStep sent) { cursorCache := whistCursorCacheCreate cursorCacheEntries true } arrivals

structure CursorView where
  shown : List UInt32 := []
  last : UInt32 := 0

def CursorView.start (v : CursorView) (type : VideoFrameType) : CursorView :=
  if IsRecoveryPoint type then {} else v

def CursorView.show (n : ℕ) (v : CursorView) (current : WhistCursorInfo) : CursorView :=
  if current.hash = v.last then v
  else
    { shown := if current.type = .png then access n current.hash v.shown else v.shown
      last := current.hash }

def CursorView.step (n : ℕ) (v : CursorView) : ServerFrame → CursorView
  | .populated current type => (v.start type).show n current.info
  | .empty => v
  | .dropped => v

def view (n : ℕ) (frames : List ServerFrame) : CursorView := frames.foldl (CursorView.step n) {}

theorem view_snoc (n : ℕ) (frames : List ServerFrame) (f : ServerFrame) :
    view n (frames ++ [f]) = (view n frames).step n f := by
  rw [view, List.foldl_append]
  rfl

inductive CursorSent (v : CursorView) (current : WhistCursorInfo) : Option WhistCursorInfo → Prop
  | unchanged (h : current.hash = v.last) : CursorSent v current none
  | changed (info : WhistCursorInfo) (h : current.hash ≠ v.last) (hash : info.hash = current.hash)
      (type : info.type = current.type)
      (cached : info.cached = decide (current.type = .png ∧ current.hash ∈ v.shown)) :
      CursorSent v current (some info)

structure ServerHolds (n : ℕ) (s : CursorServer) (v : CursorView) : Prop where
  holds : Holds s.cursorCache v.shown
  last : s.lastCursorHash = v.last
  maxEntries : s.cursorCache.maxEntries = n
  storeData : s.cursorCache.storeData = false

variable {n : ℕ} {v : CursorView}

theorem ServerHolds.startFrame {s : CursorServer} (h : ServerHolds n s v) (type : VideoFrameType) :
    ServerHolds n (s.startFrame type) (v.start type) := by
  unfold CursorServer.startFrame CursorView.start
  split_ifs
  · exact ⟨Holds.clear _,rfl,h.maxEntries,h.storeData⟩
  · exact h

theorem ServerHolds.frameCursor {s : CursorServer} (h : ServerHolds n s v) {current : WhistCursorInfo}
    (hnot : current.cached = false) :
    ∃ sent s', frameCursor s current = .ok (sent,s') ∧ CursorSent v current sent ∧
      ServerHolds n s' (v.show n current) := by
  unfold Cursor.frameCursor CursorView.show
  rw [h.last]
  split_ifs with hsame hpng
  · exact ⟨none,s,rfl,.unchanged hsame,h⟩
  · by_cases hmem : current.hash ∈ v.shown
    · obtain ⟨info,cache,hcheck,hentry,hholds,hmax,hstore⟩ := h.holds.check_hit hmem
      rw [hcheck]
      rw [h.maxEntries] at hholds
      have hcached := hentry.cached h.storeData
      exact ⟨some info,_,rfl,.changed info hsame hentry.hash (hentry.png.trans hpng.symm)
        (by simp [hcached, hpng, hmem]),hholds,rfl,hmax.trans h.maxEntries,hstore.trans h.storeData⟩
    · rw [h.holds.check_miss hmem]
      obtain ⟨cache,hadd,hholds,hmax,hstore⟩ := h.holds.add hpng hmem
      rw [h.maxEntries] at hholds
      dsimp only
      rw [hadd]
      exact ⟨some current,_,rfl,.changed current hsame rfl rfl (by simp [hnot, hmem]),hholds,rfl,
        hmax.trans h.maxEntries,hstore.trans h.storeData⟩
  · exact ⟨some current,_,rfl,.changed current hsame rfl rfl (by simp [hnot, hpng]),h.holds,rfl,
      h.maxEntries,h.storeData⟩

def SentAs (v : CursorView) : ServerFrame → Option VideoFrame → Prop
  | .populated current type, some frame =>
    frame.frameType = type ∧ frame.isEmptyFrame = false ∧
      CursorSent (v.start type) current.info frame.cursor
  | .empty, some frame => frame = sendEmptyFrame
  | .dropped, none => True
  | _, _ => False

/-- The frames of `server` are sent from the view of the frames before them. -/
structure ServerInv (n : ℕ) (frames : List ServerFrame) (server : VideoServer) : Prop where
  state : ServerHolds n server.state (view n frames)
  length : server.sent.length = frames.length
  sentAs : ∀ i f, frames[i]? = some f →
    ∃ sent, server.sent[i]? = some sent ∧ SentAs (view n (frames.take i)) f sent

theorem ServerInv.snoc {frames : List ServerFrame} {server : VideoServer} (h : ServerInv n frames server)
    {f : ServerFrame} {state : CursorServer} {sent : Option VideoFrame}
    (hstate : ServerHolds n state ((view n frames).step n f)) (hsent : SentAs (view n frames) f sent) :
    ServerInv n (frames ++ [f]) { state := state, sent := server.sent ++ [sent] } := by
  refine ⟨?_,by simp [h.length],fun i g hg => ?_⟩
  · rw [view_snoc]
    exact hstate
  · rcases lt_or_ge i frames.length with hlt | hge
    · rw [List.getElem?_append_left hlt] at hg
      rw [List.take_append_of_le_length hlt.le, List.getElem?_append_left (h.length ▸ hlt)]
      exact h.sentAs i g hg
    · rw [List.getElem?_append_right hge, List.getElem?_singleton] at hg
      split_ifs at hg with hi
      cases hg
      have hi : i = frames.length := by omega
      subst hi
      rw [List.take_left]
      exact ⟨sent,by rw [← h.length, List.getElem?_concat_length],hsent⟩

theorem serverRun_ok (n : ℕ) (frames : List ServerFrame) :
    ∃ server, serverRun n frames = .ok server ∧ ServerInv n frames server := by
  refine Run.run_ok_of_calls ⟨⟨Holds.create n false,rfl,rfl,rfl⟩,rfl,fun i f hf => nomatch hf⟩
    (fun pre f post server _ h => ?_)
  cases f with
  | populated current type =>
    obtain ⟨sent,state,hcursor,hsent,hstate⟩ := (h.state.startFrame type).frameCursor current.notCached
    refine ⟨_,by rw [serverStep, sendPopulatedFrame, hcursor]; rfl,h.snoc hstate ?_⟩
    exact ⟨rfl,rfl,hsent⟩
  | empty => exact ⟨_,rfl,h.snoc h.state rfl⟩
  | dropped => exact ⟨_,rfl,h.snoc h.state trivial⟩

structure ClientHolds (n : ℕ) (ctx : VideoContext) (v : CursorView) : Prop where
  holds : Holds ctx.cursorCache v.shown
  pending : v.last ≠ 0 → ∃ cursor, ctx.pendingCursor = some cursor ∧ cursor.hash = v.last
  maxEntries : ctx.cursorCache.maxEntries = n

theorem ClientHolds.takeCursor {ctx : VideoContext} (h : ClientHolds n ctx v)
    {current info : WhistCursorInfo} (hsent : CursorSent v current (some info)) :
    ∃ ctx', takeCursor ctx info = .ok ctx' ∧ ClientHolds n ctx' (v.show n current) := by
  obtain ⟨hchanged,hhash,htype,hcached⟩ : current.hash ≠ v.last ∧ info.hash = current.hash ∧
      info.type = current.type ∧ info.cached = decide (current.type = .png ∧ current.hash ∈ v.shown) := by
    cases hsent with
    | changed _ h hash type cached => exact ⟨h,hash,type,cached⟩
  unfold Cursor.takeCursor CursorView.show
  rw [if_neg hchanged, htype, hhash]
  by_cases hpng : current.type = .png
  · rw [if_pos hpng, if_pos hpng]
    by_cases hmem : current.hash ∈ v.shown
    · obtain ⟨cached,cache,hcheck,hentry,hholds,hmax,-⟩ := h.holds.check_hit hmem
      rw [h.maxEntries] at hholds
      have htrue : info.cached = true := by simp [hcached, hpng, hmem]
      rw [hcheck]
      dsimp only
      rw [if_pos htrue]
      exact ⟨_,rfl,hholds,fun _ => ⟨cached,rfl,hentry.hash⟩,hmax.trans h.maxEntries⟩
    · have hnew : info.hash ∉ v.shown := hhash ▸ hmem
      obtain ⟨cache,hadd,hholds,hmax,-⟩ := h.holds.add (htype.trans hpng) hnew
      rw [h.maxEntries, hhash] at hholds
      have hfalse : info.cached = false := by simp [hcached, hmem]
      rw [h.holds.check_miss hmem]
      dsimp only
      rw [if_pos hfalse, hadd]
      exact ⟨_,rfl,hholds,fun _ => ⟨info,rfl,hhash⟩,hmax.trans h.maxEntries⟩
  · have hfalse : info.cached = false := by simp [hcached, hpng]
    rw [if_neg hpng, if_neg hpng, if_pos hfalse]
    exact ⟨_,rfl,h.holds,fun _ => ⟨info,rfl,hhash⟩,h.maxEntries⟩

theorem CursorView.show_last (current : WhistCursorInfo) : (v.show n current).last = current.hash := by
  unfold CursorView.show
  split_ifs with hsame
  · exact hsame.symm
  · rfl
  · rfl

/-- Before a recovery point, or with the client's cache in step, an accepted frame is rendered. -/
theorem renderVideo_spec {ctx : VideoContext} {current : CapturedCursor} {type : VideoFrameType}
    {frame : VideoFrame} (hmax : ctx.cursorCache.maxEntries = n)
    (hsent : SentAs v (.populated current type) (some frame))
    (hstep : IsRecoveryPoint type ∨ ClientHolds n ctx v) :
    ∃ ctx', renderVideo ctx frame true = .ok ctx' ∧
      ClientHolds n ctx' ((v.start type).show n current.info) ∧
      ∃ cursor, ctx'.pendingCursor = some cursor ∧ cursor.hash = current.info.hash := by
  obtain ⟨rfl,hempty,hcursor⟩ := hsent
  have hstart : ClientHolds n (ctx.startFrame frame.frameType) (v.start frame.frameType) := by
    unfold VideoContext.startFrame CursorView.start
    split_ifs with hrecovery
    · exact ⟨Holds.clear _,fun h => absurd rfl h,hmax⟩
    · exact hstep.resolve_left hrecovery
  have hok : ∃ ctx', renderVideo ctx frame true = .ok ctx' ∧
      ClientHolds n ctx' ((v.start frame.frameType).show n current.info) := by
    unfold renderVideo
    rw [hempty, if_neg Bool.false_ne_true, if_neg (Ne.symm Bool.false_ne_true)]
    cases hframe : frame.cursor with
    | some info => exact hstart.takeCursor (hframe ▸ hcursor)
    | none =>
      rw [hframe] at hcursor
      cases hcursor with
      | unchanged hsame =>
        have hnot : ¬IsRecoveryPoint frame.frameType := by
          intro hrecovery
          rw [CursorView.start, if_pos hrecovery] at hsame
          exact current.hashed hsame
        have hctx : ctx.startFrame frame.frameType = ctx := if_neg hnot
        rw [hctx] at hstart
        rw [CursorView.show, if_pos hsame]
        exact ⟨ctx,if_neg hnot,hstart⟩
  obtain ⟨ctx',hrender,hholds⟩ := hok
  refine ⟨ctx',hrender,hholds,?_⟩
  have hpending := hholds.pending
  rw [CursorView.show_last] at hpending
  exact hpending current.hashed

def RecoveryAt (frames : List ServerFrame) (id : ℕ) : Prop :=
  ∃ current type, frames[id]? = some (.populated current type) ∧ IsRecoveryPoint type

/-- Each frame arriving is the successor of the one before it, or a recovery point. -/
structure Delivery (frames : List ServerFrame) (arrivals : List (ℕ × Bool)) : Prop where
  wasSent : ∀ arrival ∈ arrivals, ∃ f, frames[arrival.1]? = some f ∧ f ≠ .dropped
  follows : ∀ pre arrival post, arrivals = pre ++ arrival :: post →
    RecoveryAt frames arrival.1 ∨ ∃ before, pre.getLast? = some before ∧ arrival.1 = before.1 + 1

/-- No assertion of the client fails, and the cursor pending after each accepted frame is
the one captured for it. -/
def InSync (n : ℕ) (frames : List ServerFrame) (arrivals : List (ℕ × Bool)) : Prop :=
  ∃ server, serverRun n frames = .ok server ∧ ∀ pre post, arrivals = pre ++ post →
    ∃ ctx, clientRun n server.sent pre = .ok ctx ∧
      ∀ id current type, pre.getLast? = some (id,true) → frames[id]? = some (.populated current type) →
        ∃ cursor, ctx.pendingCursor = some cursor ∧ cursor.hash = current.info.hash

def ServerFrame.captured : ServerFrame → Option WhistCursorInfo
  | .populated current _ => some current.info
  | _ => none

def ChangesCursor (frames : List ServerFrame) (id : ℕ) : Prop :=
  ∃ current type, frames[id]? = some (.populated current type) ∧
    (IsRecoveryPoint type ∨
      ∀ before, ((frames.take id).filterMap ServerFrame.captured).getLast? = some before →
        before.hash ≠ current.info.hash)

def MissedCursor (frames : List ServerFrame) (arrivals : List (ℕ × Bool)) : Prop :=
  ∃ pre id post, arrivals = pre ++ (id,false) :: post ∧ ChangesCursor frames id ∧
    ∀ id', (id',true) ∈ post → ¬RecoveryAt frames id'

/-- After a cursor was missed, only recovery points and empty frames are accepted. -/
def NothingMissed (frames : List ServerFrame) (arrivals : List (ℕ × Bool)) : Prop :=
  ∀ pre id post, arrivals = pre ++ (id,true) :: post → frames[id]? = some .empty ∨
    RecoveryAt frames id ∨ ¬MissedCursor frames pre

theorem MissedCursor.snoc {frames : List ServerFrame} {arrivals : List (ℕ × Bool)}
    (h : MissedCursor frames arrivals) {arrival : ℕ × Bool}
    (hnot : arrival.2 = true → ¬RecoveryAt frames arrival.1) : MissedCursor frames (arrivals ++ [arrival]) := by
  obtain ⟨pre,id,post,rfl,hchanges,hpost⟩ := h
  refine ⟨pre,id,post ++ [arrival],by simp,hchanges,fun id' hid => ?_⟩
  rcases List.mem_append.mp hid with hold | hnew
  · exact hpost id' hold
  · rw [List.mem_singleton] at hnew
    subst hnew
    exact hnot rfl

theorem view_last (n : ℕ) (frames : List ServerFrame) {before : WhistCursorInfo}
    (h : (frames.filterMap ServerFrame.captured).getLast? = some before) :
    (view n frames).last = before.hash := by
  induction frames using List.reverseRecOn with
  | nil => cases h
  | append_singleton frames f ih =>
    rw [view_snoc]
    rw [List.filterMap_append] at h
    cases f with
    | populated current type =>
      rw [CursorView.step, CursorView.show_last]
      simp only [List.filterMap_cons, ServerFrame.captured, List.filterMap_nil, List.getLast?_append,
        List.getLast?_singleton, Option.some_or, Option.some.injEq] at h
      exact congrArg WhistCursorInfo.hash h
    | empty =>
      simp only [List.filterMap_cons, ServerFrame.captured, List.filterMap_nil, List.append_nil] at h
      exact ih h
    | dropped =>
      simp only [List.filterMap_cons, ServerFrame.captured, List.filterMap_nil, List.append_nil] at h
      exact ih h

theorem ChangesCursor.of_sent {frames : List ServerFrame} {id : ℕ} {current : CapturedCursor}
    {type : VideoFrameType} (hf : frames[id]? = some (.populated current type))
    (h : current.info.hash ≠ ((view n (frames.take id)).start type).last) : ChangesCursor frames id := by
  refine ⟨current,type,hf,?_⟩
  by_cases hr : IsRecoveryPoint type
  · exact Or.inl hr
  · rw [CursorView.start, if_neg hr] at h
    refine Or.inr (fun before hbefore heq => h ?_)
    rw [view_last n _ hbefore, heq]

structure ClientInv (n : ℕ) (frames : List ServerFrame) (arrivals : List (ℕ × Bool))
    (ctx : VideoContext) : Prop where
  maxEntries : ctx.cursorCache.maxEntries = n
  holds : ¬MissedCursor frames arrivals → ∀ arrival, arrivals.getLast? = some arrival →
    ClientHolds n ctx (view n (frames.take (arrival.1 + 1)))
  pending : ∀ id current type, arrivals.getLast? = some (id,true) →
    frames[id]? = some (.populated current type) →
      ∃ cursor, ctx.pendingCursor = some cursor ∧ cursor.hash = current.info.hash

theorem view_take_succ {frames : List ServerFrame} {id : ℕ} {f : ServerFrame} (h : frames[id]? = some f) :
    view n (frames.take (id + 1)) = (view n (frames.take id)).step n f := by
  rw [List.take_add_one, h, Option.toList_some, view_snoc]

theorem clientStep_inv {frames : List ServerFrame} {server : VideoServer} (hserver : ServerInv n frames server)
    {arrivals : List (ℕ × Bool)} (hd : Delivery frames arrivals) (hm : NothingMissed frames arrivals)
    {pre post : List (ℕ × Bool)} {arrival : ℕ × Bool} {ctx : VideoContext}
    (hsplit : arrivals = pre ++ arrival :: post) (h : ClientInv n frames pre ctx) :
    ∃ ctx', clientStep server.sent ctx arrival = .ok ctx' ∧ ClientInv n frames (pre ++ [arrival]) ctx' := by
  obtain ⟨id,accepted⟩ := arrival
  obtain ⟨f,hf,hsentf⟩ := hd.wasSent (id,accepted) (by simp [hsplit])
  obtain ⟨sent,hsent,has⟩ := hserver.sentAs id f hf
  have hlast : (pre ++ [(id,accepted)]).getLast? = some (id,accepted) := by simp
  -- without a recovery point the client is in step with the frame before, unless it missed a cursor
  have hbefore : ¬RecoveryAt frames id → ¬MissedCursor frames pre →
      ClientHolds n ctx (view n (frames.take id)) := by
    intro hnot hmissed
    obtain hr | ⟨before,hbefore,hsucc⟩ := hd.follows pre _ post hsplit
    · exact absurd hr hnot
    · have hholds := h.holds hmissed before hbefore
      rw [← hsucc] at hholds
      exact hholds
  cases f with
  | dropped => exact absurd rfl hsentf
  | empty =>
    have hstep : clientStep server.sent ctx (id,accepted) = .ok ctx := by
      rw [clientStep, hsent]
      cases sent with
      | none => rfl
      | some frame =>
        have hempty : frame = sendEmptyFrame := has
        subst hempty
        rfl
    have hnot : ¬RecoveryAt frames id := by
      rintro ⟨current,type,hcurrent,-⟩
      cases hf.symm.trans hcurrent
    refine ⟨ctx,hstep,h.maxEntries,fun hmissed arrival harrival => ?_,fun id' current type hid hcurrent => ?_⟩
    · cases hlast.symm.trans harrival
      rw [view_take_succ hf]
      exact hbefore hnot (fun hpre => hmissed (hpre.snoc (fun _ => hnot)))
    · cases hlast.symm.trans hid
      cases hf.symm.trans hcurrent
  | populated current type =>
    cases sent with
    | none => exact False.elim has
    | some frame =>
      have hstep : clientStep server.sent ctx (id,accepted) = renderVideo ctx frame accepted := by
        rw [clientStep, hsent]
      rw [hstep]
      cases accepted with
      | false =>
        obtain ⟨-,hempty,-⟩ := has
        have hskip : renderVideo ctx frame false = .ok ctx := by
          rw [renderVideo, hempty]
          rfl
        refine ⟨ctx,hskip,h.maxEntries,fun hmissed arrival harrival => ?_,fun id' current type hid => ?_⟩
        · cases hlast.symm.trans harrival
          have hpre : ¬MissedCursor frames pre := fun hpre => hmissed (hpre.snoc (fun h => nomatch h))
          have hkept : ¬ChangesCursor frames id :=
            fun hchanges => hmissed ⟨pre,id,[],rfl,hchanges,fun _ h => absurd h List.not_mem_nil⟩
          have hnot : ¬IsRecoveryPoint type := fun hr => hkept ⟨current,type,hf,Or.inl hr⟩
          have hsame : current.info.hash = ((view n (frames.take id)).start type).last :=
            not_not.mp (fun hne => hkept (.of_sent hf hne))
          rw [view_take_succ hf, CursorView.step, CursorView.show, if_pos hsame, CursorView.start, if_neg hnot]
          refine hbefore ?_ hpre
          rintro ⟨current',type',hcurrent,hr⟩
          cases hf.symm.trans hcurrent
          exact hnot hr
        · cases hlast.symm.trans hid
      | true =>
        have hready : IsRecoveryPoint type ∨ ClientHolds n ctx (view n (frames.take id)) := by
          by_cases hr : IsRecoveryPoint type
          · exact Or.inl hr
          · have hnot : ¬RecoveryAt frames id := by
              rintro ⟨current',type',hcurrent,hr'⟩
              cases hf.symm.trans hcurrent
              exact hr hr'
            obtain hempty | hr' | hmissed := hm pre id post hsplit
            · cases hf.symm.trans hempty
            · exact absurd hr' hnot
            · exact Or.inr (hbefore hnot hmissed)
        obtain ⟨ctx',hrender,hholds,hpending⟩ := renderVideo_spec h.maxEntries has hready
        refine ⟨ctx',hrender,hholds.maxEntries,fun _ arrival harrival => ?_,fun id' current' type' hid hcurrent => ?_⟩
        · cases hlast.symm.trans harrival
          rw [view_take_succ hf]
          exact hholds
        · cases hlast.symm.trans hid
          cases hf.symm.trans hcurrent
          exact hpending

theorem Delivery.left {frames : List ServerFrame} {pre post : List (ℕ × Bool)}
    (h : Delivery frames (pre ++ post)) : Delivery frames pre := by
  refine ⟨fun arrival hmem => h.wasSent arrival (List.mem_append_left _ hmem),fun a arrival b hsplit => ?_⟩
  exact h.follows a arrival (b ++ post) (by rw [hsplit, List.append_assoc, List.cons_append])

theorem NothingMissed.left {frames : List ServerFrame} {pre post : List (ℕ × Bool)}
    (h : NothingMissed frames (pre ++ post)) : NothingMissed frames pre :=
  fun a id b hsplit => h a id (b ++ post) (by rw [hsplit, List.append_assoc, List.cons_append])

/-- The caches stay in sync in every run in which the decoder refuses no frame that changes
the cursor, or accepts none after it until a recovery point. -/
theorem cursor_caches_in_sync (n : ℕ) {frames : List ServerFrame} {arrivals : List (ℕ × Bool)}
    (hd : Delivery frames arrivals) (hm : NothingMissed frames arrivals) : InSync n frames arrivals := by
  obtain ⟨server,hserver,hinv⟩ := serverRun_ok n frames
  refine ⟨server,hserver,fun pre post hsplit => ?_⟩
  subst hsplit
  have hstart : ClientInv n frames [] { cursorCache := whistCursorCacheCreate n true } :=
    ⟨rfl,fun _ _ h => (nomatch h),fun _ _ _ h => (nomatch h)⟩
  obtain ⟨ctx,hctx,hfinal⟩ := Run.run_ok_of_calls hstart
    (fun a arrival b ctx hab h => clientStep_inv hinv hd.left hm.left hab h)
  exact ⟨ctx,hctx,hfinal.pending⟩

def steadyFrames : List ServerFrame :=
  [.populated (whistCursorInfoFromRgba [1] .normal) .intra,.populated (whistCursorInfoFromRgba [1] .normal) .normal]

theorem steadyFrames_in_sync : InSync 20 steadyFrames [(0,true),(1,false)] := by
  have hrecovery : RecoveryAt steadyFrames 0 := ⟨_,_,rfl,Or.inl rfl⟩
  refine cursor_caches_in_sync 20 ⟨?_,?_⟩ ?_
  · intro arrival harrival
    simp only [List.mem_cons, List.not_mem_nil, or_false] at harrival
    rcases harrival with rfl | rfl
    · exact ⟨_,rfl,nofun⟩
    · exact ⟨_,rfl,nofun⟩
  · intro pre arrival post hsplit
    rcases pre with _ | ⟨x,_ | ⟨y,pre⟩⟩
    · cases hsplit
      exact Or.inl hrecovery
    · cases hsplit
      exact Or.inr ⟨_,rfl,rfl⟩
    · simp at hsplit
  · intro pre id post hsplit
    rcases pre with _ | ⟨x,_ | ⟨y,pre⟩⟩
    · cases hsplit
      exact Or.inr (Or.inl hrecovery)
    · cases hsplit
    · simp at hsplit

def alternatingFrames : List ServerFrame :=
  [.populated (whistCursorInfoFromRgba [1] .normal) .intra,.populated (whistCursorInfoFromRgba [2] .normal) .normal,
    .populated (whistCursorInfoFromRgba [1] .normal) .normal,.populated (whistCursorInfoFromRgba [2] .normal) .normal]

/-- The decoder refuses the frame with the second PNG, which is then sent as a hash. -/
theorem alternatingFrames_not_in_sync : Delivery alternatingFrames [(0,true),(1,false),(2,true),(3,true)] ∧
    ¬InSync 20 alternatingFrames [(0,true),(1,false),(2,true),(3,true)] := by
  refine ⟨⟨?_,?_⟩,?_⟩
  · intro arrival harrival
    simp only [List.mem_cons, List.not_mem_nil, or_false] at harrival
    rcases harrival with rfl | rfl | rfl | rfl
    · exact ⟨_,rfl,nofun⟩
    · exact ⟨_,rfl,nofun⟩
    · exact ⟨_,rfl,nofun⟩
    · exact ⟨_,rfl,nofun⟩
  · intro pre arrival post hsplit
    rcases pre with _ | ⟨x,_ | ⟨y,_ | ⟨z,_ | ⟨w,pre⟩⟩⟩⟩
    · cases hsplit
      exact Or.inl ⟨_,_,rfl,Or.inl rfl⟩
    · cases hsplit
      exact Or.inr ⟨_,rfl,rfl⟩
    · cases hsplit
      exact Or.inr ⟨_,rfl,rfl⟩
    · cases hsplit
      exact Or.inr ⟨_,rfl,rfl⟩
    · simp at hsplit
  · rintro ⟨server,hserver,hsync⟩
    obtain ⟨ctx,hctx,-⟩ := hsync _ [] (List.append_nil _).symm
    have hfails : ((serverRun 20 alternatingFrames).bind (fun server =>
        clientRun 20 server.sent [(0,true),(1,false),(2,true),(3,true)])).toOption.isNone := by
      decide +kernel
    rw [hserver, Except.bind, hctx] at hfails
    cases hfails

end Whist.Cursor
