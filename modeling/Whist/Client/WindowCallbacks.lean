import Whist.Foundation.Run

/-! # Callbacks of the virtual interface's windows

Each call is atomic under `whist_window_mutex`.  Next to the windows' map stands the desk, which says what the calls
are for.  Pointers are numbers, `none` is `NULL`, and a frame is known by how many were sent before it.
-/
namespace Whist.WhistWindows
open Run

abbrev Pointer := ℕ

structure WhistWindowInformation where
  ctx : Option Pointer := none
  onCursorChangeCallback : Option Pointer := none
  videoFrameCallback : Option Pointer := none
  onFileUploadCallback : Option Pointer := none
  onWhistLogCallback : Option Pointer := none
  playing : Bool := false
deriving DecidableEq

structure Interface where
  whistWindows : Std.TreeMap ℤ WhistWindowInformation := ∅
  spotlightExpectedId : UInt32 := 0
  serialWindowIds : ℤ := 1
  pending : Option ℕ := none
  frames : ℕ := 0
  callbackContext : Option Pointer := none
  onFileUpload : Option Pointer := none

inductive Call
  | createWindow
  | destroyWindow (window : ℤ)
  | registerContext (window : ℤ) (ctx : Option Pointer)
  | freezeAllWindows
  | setVideoSpotlight (window : ℤ) (spotlightId : UInt32)
  | setVideoFrameCallback (window : ℤ) (callback : Option Pointer)
  | setOnFileUploadCallback (window : ℤ) (callback : Option Pointer)
  | setOnCursorChangeCallback (window : ℤ) (callback : Option Pointer)
  | setOnWhistLogCallback (window : ℤ) (callback : Option Pointer)
  | sendFrame (protocolAlive : Bool)
  | cursorChange
  | whistLog
deriving DecidableEq

/-- A callback that is called; a `NULL` one is `none`. -/
inductive Invocation
  | videoFrame (window : ℤ) (callback : Option Pointer) (frame : ℕ)
  | cursorChange (window : ℤ) (callback : Pointer)
  | whistLog (window : ℤ) (callback : Pointer)
deriving DecidableEq

/-- `whist_windows[window]`, which a window that is not in the map is put into. -/
def Interface.window (s : Interface) (window : ℤ) : WhistWindowInformation :=
  s.whistWindows.getD window {}

def Interface.setWindow (s : Interface) (window : ℤ)
    (f : WhistWindowInformation → WhistWindowInformation) : Interface :=
  { s with whistWindows := s.whistWindows.insert window (f (s.window window)) }

def videoCallbacks (frame : ℕ) (entry : ℤ × WhistWindowInformation) : Option Invocation :=
  if entry.2.playing then
    entry.2.videoFrameCallback.map fun callback => .videoFrame entry.1 (some callback) frame
  else none

def cursorCallbacks (entry : ℤ × WhistWindowInformation) : Option Invocation :=
  entry.2.onCursorChangeCallback.map (.cursorChange entry.1)

def logCallbacks (entry : ℤ × WhistWindowInformation) : Option Invocation :=
  entry.2.onWhistLogCallback.map (.whistLog entry.1)

def initialFrame (s : Interface) (window : ℤ) (callback : Option Pointer) : List Invocation :=
  match s.pending with
  | none => []
  | some frame =>
    if (s.window window).videoFrameCallback = none ∧ (s.window window).playing = true then
      [.videoFrame window callback frame]
    else []

def step (s : Interface) : Call → Interface × List Invocation
  | .createWindow =>
    ({ s with
        whistWindows := s.whistWindows.insert s.serialWindowIds {}
        serialWindowIds := s.serialWindowIds + 1 },[])
  | .destroyWindow window =>
    let windows := s.whistWindows.erase window
    (match windows.toList.head? with
      | none => { s with whistWindows := windows, callbackContext := none, onFileUpload := none }
      | some first =>
        { s with
          whistWindows := windows
          callbackContext := first.2.ctx
          onFileUpload := first.2.onFileUploadCallback },[])
  | .registerContext window ctx => (s.setWindow window ({ · with ctx := ctx }),[])
  | .freezeAllWindows =>
    ({ s with
        spotlightExpectedId := s.spotlightExpectedId + 1
        whistWindows := s.whistWindows.map fun _ info => { info with playing := false } },[])
  | .setVideoSpotlight window spotlightId =>
    if spotlightId ≠ s.spotlightExpectedId then (s,[])
    else (s.setWindow window ({ · with playing := true }),[])
  | .setVideoFrameCallback window callback =>
    (s.setWindow window ({ · with videoFrameCallback := callback }),initialFrame s window callback)
  | .setOnFileUploadCallback window callback =>
    let s := s.setWindow window ({ · with onFileUploadCallback := callback })
    ({ s with callbackContext := (s.window window).ctx, onFileUpload := callback },[])
  | .setOnCursorChangeCallback window callback =>
    (s.setWindow window ({ · with onCursorChangeCallback := callback }),[])
  | .setOnWhistLogCallback window callback =>
    (s.setWindow window ({ · with onWhistLogCallback := callback }),[])
  | .sendFrame protocolAlive =>
    if protocolAlive then
      ({ s with pending := some s.frames, frames := s.frames + 1 },
        s.whistWindows.toList.filterMap (videoCallbacks s.frames))
    else (s,[])
  | .cursorChange => (s,s.whistWindows.toList.filterMap cursorCallbacks)
  | .whistLog => (s,((s.whistWindows.toList.filterMap logCallbacks).head?).toList)

/-- The windows that exist, with what was set on them, and the id of the last freeze; a window
plays while it is in the spotlight of that freeze. -/
structure Desk where
  windows : ℤ → Option WhistWindowInformation := fun _ => none
  next : ℤ := 1
  frozen : Option UInt32 := none

def Desk.set (d : Desk) (window : ℤ) (f : WhistWindowInformation → WhistWindowInformation) : Desk :=
  { d with windows := Function.update d.windows window ((d.windows window).map f) }

def Desk.step (d : Desk) : Call → Desk
  | .createWindow => { d with windows := Function.update d.windows d.next (some {}), next := d.next + 1 }
  | .destroyWindow window => { d with windows := Function.update d.windows window none }
  | .registerContext window ctx => d.set window ({ · with ctx := ctx })
  | .freezeAllWindows =>
    { d with
      windows := fun window => (d.windows window).map ({ · with playing := false })
      frozen := some (d.frozen.getD 0 + 1) }
  | .setVideoSpotlight window spotlightId =>
    if d.frozen = some spotlightId then d.set window ({ · with playing := true }) else d
  | .setVideoFrameCallback window callback => d.set window ({ · with videoFrameCallback := callback })
  | .setOnFileUploadCallback window callback => d.set window ({ · with onFileUploadCallback := callback })
  | .setOnCursorChangeCallback window callback =>
    d.set window ({ · with onCursorChangeCallback := callback })
  | .setOnWhistLogCallback window callback => d.set window ({ · with onWhistLogCallback := callback })
  | .sendFrame _ | .cursorChange | .whistLog => d

/-- The interface, the desk after the same calls, and the callbacks called so far. -/
structure Session where
  interface : Interface := {}
  desk : Desk := {}
  invocations : List Invocation := []

def Session.step (s : Session) (call : Call) : Session where
  interface := (WhistWindows.step s.interface call).1
  desk := s.desk.step call
  invocations := s.invocations ++ (WhistWindows.step s.interface call).2

def frameOf (window : ℤ) : Invocation → Option ℕ
  | .videoFrame w _ frame => if w = window then some frame else none
  | _ => none

def Session.given (s : Session) (window : ℤ) : List ℕ := s.invocations.filterMap (frameOf window)

def Mirrors (d : Desk) (ctx upload : Option Pointer) : Prop :=
  (ctx = none ∧ upload = none) ∨
    ∃ window info, d.windows window = some info ∧ info.ctx = ctx ∧ info.onFileUploadCallback = upload

/-- What is promised of one call: video callbacks are those of windows in the spotlight, each of
them is given a frame sent, other callbacks are those of windows that exist, the frames of a
window come once and in order, and the globals are those of one window. -/
structure Promise (s : Session) (call : Call) : Prop where
  video : ∀ window callback frame,
    .videoFrame window callback frame ∈ (WhistWindows.step s.interface call).2 →
      callback ≠ none ∧ ∃ info, s.desk.windows window = some info ∧ info.playing = true
  sent : call = .sendFrame true → ∀ window info callback, s.desk.windows window = some info →
    info.playing = true → info.videoFrameCallback = some callback →
      .videoFrame window (some callback) s.interface.frames ∈ (WhistWindows.step s.interface call).2
  cursor : ∀ window callback, .cursorChange window callback ∈ (WhistWindows.step s.interface call).2 →
    ∃ info, s.desk.windows window = some info ∧ info.onCursorChangeCallback = some callback
  log : ∀ window callback, .whistLog window callback ∈ (WhistWindows.step s.interface call).2 →
    ∃ info, s.desk.windows window = some info ∧ info.onWhistLogCallback = some callback
  ordered : ∀ window, ((s.step call).given window).Pairwise (· < ·)
  upload : Mirrors (s.step call).desk (s.step call).interface.callbackContext
    (s.step call).interface.onFileUpload

/-- A call that stores into a window finds it there.  A context is not registered over the one
that the globals mirror; no spotlight comes before the first freeze; and a callback for a window
that plays without one, while a frame is pending that it would be given at once, is not `NULL`
and its window was not given that frame before. -/
def Orderly (s : Session) : Call → Prop
  | .registerContext window ctx =>
    s.desk.windows window ≠ none ∧
      (s.interface.callbackContext = none ∧ s.interface.onFileUpload = none ∨
        ctx = s.interface.callbackContext ∨
        ∃ other info, other ≠ window ∧ s.desk.windows other = some info ∧
          info.ctx = s.interface.callbackContext ∧ info.onFileUploadCallback = s.interface.onFileUpload)
  | .setVideoSpotlight window spotlightId =>
    spotlightId = s.interface.spotlightExpectedId → s.desk.frozen ≠ none ∧ s.desk.windows window ≠ none
  | .setVideoFrameCallback window callback =>
    ∃ info, s.desk.windows window = some info ∧
      ∀ frame ∈ s.interface.pending, info.videoFrameCallback = none → info.playing = true →
        callback ≠ none ∧ frame ∉ s.given window
  | .setOnFileUploadCallback window _ | .setOnCursorChangeCallback window _
  | .setOnWhistLogCallback window _ => s.desk.windows window ≠ none
  | .createWindow | .destroyWindow _ | .freezeAllWindows | .sendFrame _ | .cursorChange
  | .whistLog => True

structure Inv (s : Session) : Prop where
  windows : ∀ window, s.interface.whistWindows[window]? = s.desk.windows window
  next : s.interface.serialWindowIds = s.desk.next
  fresh : ∀ window, s.desk.next ≤ window → s.desk.windows window = none
  expected : s.interface.spotlightExpectedId = s.desk.frozen.getD 0
  pending : ∀ frame ∈ s.interface.pending, s.interface.frames = frame + 1
  below : ∀ window, ∀ frame ∈ s.given window, frame < s.interface.frames
  ordered : ∀ window, (s.given window).Pairwise (· < ·)
  upload : Mirrors s.desk s.interface.callbackContext s.interface.onFileUpload

section
variable {s : Session} {window : ℤ}

theorem Inv.window_eq (h : Inv s) {info : WhistWindowInformation}
    (hw : s.desk.windows window = some info) : s.interface.window window = info := by
  rw [Interface.window,Std.TreeMap.getD_eq_getD_getElem?,h.windows,hw,Option.getD_some]

theorem Inv.mem_toList (h : Inv s) {entry : ℤ × WhistWindowInformation} :
    entry ∈ s.interface.whistWindows.toList ↔ s.desk.windows entry.1 = some entry.2 := by
  rw [← h.windows]
  exact Std.TreeMap.mem_toList_iff_getElem?_eq_some

theorem Inv.setWindow (h : Inv s) (hw : s.desk.windows window ≠ none)
    (f : WhistWindowInformation → WhistWindowInformation) (k : ℤ) :
    (s.interface.setWindow window f).whistWindows[k]? = (s.desk.set window f).windows k := by
  obtain ⟨info,hinfo⟩ := Option.ne_none_iff_exists'.1 hw
  rw [Interface.setWindow,Desk.set,Std.TreeMap.getElem?_insert,h.window_eq hinfo,hinfo]
  by_cases hk : window = k
  · subst hk
    rw [if_pos (compare_eq_iff_eq.2 rfl)]
    exact (Function.update_self window (some (f info)) s.desk.windows).symm
  · rw [if_neg fun hc => hk (compare_eq_iff_eq.1 hc)]
    exact (h.windows k).trans (Function.update_of_ne (Ne.symm hk) _ _).symm

theorem Mirrors.set {d : Desk} {ctx upload : Option Pointer} (h : Mirrors d ctx upload)
    {f : WhistWindowInformation → WhistWindowInformation} (hctx : ∀ info, (f info).ctx = info.ctx)
    (hupload : ∀ info, (f info).onFileUploadCallback = info.onFileUploadCallback) :
    Mirrors (d.set window f) ctx upload := by
  refine h.imp_right ?_
  rintro ⟨w,info,hw,hc,hu⟩
  by_cases hk : w = window
  · subst hk
    refine ⟨w,f info,?_,(hctx info).trans hc,(hupload info).trans hu⟩
    rw [Desk.set,hw]
    exact Function.update_self _ _ _
  · refine ⟨w,info,?_,hc,hu⟩
    exact (Function.update_of_ne hk _ _).trans hw

theorem set_fresh {d : Desk} (h : ∀ w, d.next ≤ w → d.windows w = none)
    (f : WhistWindowInformation → WhistWindowInformation) (w : ℤ) (hw : d.next ≤ w) :
    (d.set window f).windows w = none := by
  by_cases hk : w = window
  · subst hk
    rw [Desk.set,h w hw]
    exact Function.update_self _ _ _
  · exact (Function.update_of_ne hk _ _).trans (h w hw)

theorem given_step (call : Call) : (s.step call).given window =
    s.given window ++ (WhistWindows.step s.interface call).2.filterMap (frameOf window) :=
  List.filterMap_append

theorem sendFrame_pairwise (frame : ℕ) :
    ((s.interface.whistWindows.toList.filterMap (videoCallbacks frame)).filterMap
      (frameOf window)).Pairwise (· < ·) := by
  rw [List.filterMap_filterMap]
  refine List.Pairwise.filterMap _ ?_ Std.TreeMap.distinct_keys_toList
  intro a b hne f hf g hg
  have hkey : ∀ {e : ℤ × WhistWindowInformation} {n : ℕ},
      (videoCallbacks frame e).bind (frameOf window) = some n → e.1 = window := by
    intro e n he
    obtain ⟨i,hi,hn⟩ := Option.bind_eq_some_iff.1 he
    rw [videoCallbacks] at hi
    split_ifs at hi
    obtain ⟨c,_,rfl⟩ := Option.map_eq_some_iff.1 hi
    rw [frameOf] at hn
    split_ifs at hn with hw
    exact hw
  exact absurd (compare_eq_iff_eq.2 ((hkey hf).trans (hkey hg).symm)) hne

theorem sendFrame_given {frame f : ℕ} (h : f ∈ (s.interface.whistWindows.toList.filterMap
    (videoCallbacks frame)).filterMap (frameOf window)) : f = frame := by
  obtain ⟨i,hi,hf⟩ := List.mem_filterMap.1 h
  obtain ⟨e,_,he⟩ := List.mem_filterMap.1 hi
  rw [videoCallbacks] at he
  split_ifs at he
  obtain ⟨c,_,rfl⟩ := Option.map_eq_some_iff.1 he
  rw [frameOf] at hf
  split_ifs at hf
  exact (Option.some.inj hf).symm

theorem Inv.given (h : Inv s) {call : Call} (ho : Orderly s call) (window : ℤ) :
    ((WhistWindows.step s.interface call).2.filterMap (frameOf window)).Pairwise (· < ·) ∧
    ∀ f ∈ (WhistWindows.step s.interface call).2.filterMap (frameOf window),
      (∀ g ∈ s.given window, g < f) ∧ f < (WhistWindows.step s.interface call).1.frames := by
  have hnone : (WhistWindows.step s.interface call).2.filterMap (frameOf window) = [] →
      ((WhistWindows.step s.interface call).2.filterMap (frameOf window)).Pairwise (· < ·) ∧
      ∀ f ∈ (WhistWindows.step s.interface call).2.filterMap (frameOf window),
        (∀ g ∈ s.given window, g < f) ∧ f < (WhistWindows.step s.interface call).1.frames := by
    intro hnil
    rw [hnil]
    exact ⟨List.Pairwise.nil,fun f hf => (by cases hf)⟩
  cases call with
  | createWindow | destroyWindow | registerContext | freezeAllWindows | setOnFileUploadCallback
  | setOnCursorChangeCallback | setOnWhistLogCallback => exact hnone rfl
  | setVideoSpotlight w spotlightId =>
    refine hnone ?_
    simp only [WhistWindows.step]
    split_ifs <;> rfl
  | cursorChange =>
    refine hnone (List.filterMap_eq_nil_iff.2 fun i hi => ?_)
    obtain ⟨e,_,he⟩ := List.mem_filterMap.1 hi
    obtain ⟨c,_,rfl⟩ := Option.map_eq_some_iff.1 he
    rfl
  | whistLog =>
    refine hnone (List.filterMap_eq_nil_iff.2 fun i hi => ?_)
    obtain ⟨e,_,he⟩ := List.mem_filterMap.1 (List.mem_of_head? (Option.mem_toList.1 hi))
    obtain ⟨c,_,rfl⟩ := Option.map_eq_some_iff.1 he
    rfl
  | sendFrame protocolAlive =>
    cases protocolAlive with
    | false => exact hnone rfl
    | true =>
      refine ⟨sendFrame_pairwise _,fun f hf => ?_⟩
      rw [sendFrame_given hf]
      exact ⟨h.below window,Nat.lt_succ_self _⟩
  | setVideoFrameCallback w callback =>
    obtain ⟨info,hinfo,hpending⟩ := ho
    have hstep : (WhistWindows.step s.interface (.setVideoFrameCallback w callback)).2 =
        initialFrame s.interface w callback := rfl
    rw [hstep,initialFrame] at hnone ⊢
    cases hp : s.interface.pending with
    | none =>
      rw [hp] at hnone
      exact hnone rfl
    | some frame =>
      rw [hp] at hnone
      dsimp only at hnone ⊢
      split_ifs at hnone ⊢ with hw
      · rw [h.window_eq hinfo] at hw
        have hnew := (hpending frame hp hw.1 hw.2).2
        have hframes := h.pending frame hp
        by_cases hk : w = window
        · subst hk
          simp only [List.filterMap_cons,frameOf,if_true,List.filterMap_nil,List.mem_singleton]
          refine ⟨List.pairwise_singleton _ _,?_⟩
          rintro f rfl
          refine ⟨fun g hg => ?_,?_⟩
          · have hle := h.below w g hg
            have hne : g ≠ f := fun heq => hnew (heq ▸ hg)
            omega
          · exact hframes ▸ Nat.lt_succ_self f
        · simp [frameOf,hk]
      · exact hnone rfl

theorem Inv.follows (h : Inv s) {call : Call} (ho : Orderly s call) (k : ℤ) :
    (s.step call).interface.whistWindows[k]? = (s.step call).desk.windows k := by
  cases call with
  | createWindow =>
    simp only [Session.step,WhistWindows.step,Desk.step,h.next]
    rw [Std.TreeMap.getElem?_insert]
    by_cases hk : s.desk.next = k
    · subst hk
      rw [if_pos (compare_eq_iff_eq.2 rfl)]
      exact (Function.update_self s.desk.next (some {}) s.desk.windows).symm
    · rw [if_neg fun hc => hk (compare_eq_iff_eq.1 hc)]
      exact (h.windows k).trans (Function.update_of_ne (Ne.symm hk) _ _).symm
  | destroyWindow window =>
    have hmap : (s.step (.destroyWindow window)).interface.whistWindows =
        s.interface.whistWindows.erase window := by
      simp only [Session.step,WhistWindows.step]
      cases (s.interface.whistWindows.erase window).toList.head? <;> rfl
    rw [hmap,Std.TreeMap.getElem?_erase]
    simp only [Session.step,Desk.step]
    by_cases hk : window = k
    · subst hk
      rw [if_pos (compare_eq_iff_eq.2 rfl)]
      exact (Function.update_self window none s.desk.windows).symm
    · rw [if_neg fun hc => hk (compare_eq_iff_eq.1 hc)]
      exact (h.windows k).trans (Function.update_of_ne (Ne.symm hk) _ _).symm
  | registerContext window ctx => exact h.setWindow ho.1 _ k
  | freezeAllWindows =>
    simp only [Session.step,WhistWindows.step,Desk.step]
    rw [Std.TreeMap.getElem?_map,h.windows]
  | setVideoSpotlight window spotlightId =>
    simp only [Session.step,WhistWindows.step,Desk.step]
    by_cases hid : spotlightId = s.interface.spotlightExpectedId
    · obtain ⟨hfrozen,hw⟩ := ho hid
      obtain ⟨id,hsome⟩ := Option.ne_none_iff_exists'.1 hfrozen
      have hid' : s.desk.frozen = some spotlightId := by
        rw [hid,h.expected,hsome,Option.getD_some]
      rw [if_neg (not_not.2 hid),if_pos hid']
      exact h.setWindow hw _ k
    · have hid' : s.desk.frozen ≠ some spotlightId := by
        intro hsome
        rw [h.expected,hsome] at hid
        exact hid rfl
      rw [if_pos hid,if_neg hid']
      exact h.windows k
  | setVideoFrameCallback window callback =>
    obtain ⟨info,hinfo,_⟩ := ho
    exact h.setWindow (by simp [hinfo]) _ k
  | setOnFileUploadCallback window callback =>
    exact h.setWindow ho ({ · with onFileUploadCallback := callback }) k
  | setOnCursorChangeCallback window callback => exact h.setWindow ho _ k
  | setOnWhistLogCallback window callback => exact h.setWindow ho _ k
  | sendFrame protocolAlive =>
    cases protocolAlive <;> exact h.windows k
  | cursorChange => exact h.windows k
  | whistLog => exact h.windows k

theorem Inv.mirrors (h : Inv s) {call : Call} (ho : Orderly s call) :
    Mirrors (s.step call).desk (s.step call).interface.callbackContext
      (s.step call).interface.onFileUpload := by
  cases call with
  | createWindow =>
    refine h.upload.imp_right ?_
    rintro ⟨w,info,hw,hc,hu⟩
    refine ⟨w,info,?_,hc,hu⟩
    have hne : w ≠ s.desk.next := by
      rintro rfl
      rw [h.fresh _ le_rfl] at hw
      cases hw
    exact (Function.update_of_ne hne _ _).trans hw
  | destroyWindow window =>
    have hfollow := h.follows ho
    simp only [Session.step,WhistWindows.step] at hfollow ⊢
    cases hfirst : (s.interface.whistWindows.erase window).toList.head? with
    | none => exact .inl ⟨rfl,rfl⟩
    | some first =>
      rw [hfirst] at hfollow
      have hmem := Std.TreeMap.mem_toList_iff_getElem?_eq_some.1 (List.mem_of_head? hfirst)
      exact .inr ⟨first.1,first.2,(hfollow first.1).symm.trans hmem,rfl,rfl⟩
  | registerContext window ctx =>
    obtain ⟨hw,hglobals | rfl | ⟨other,info,hne,hinfo,hc,hu⟩⟩ := ho
    · exact .inl hglobals
    · refine h.upload.imp_right ?_
      rintro ⟨w,info,hinfo,hc,hu⟩
      by_cases hk : w = window
      · subst hk
        refine ⟨w,{ info with ctx := s.interface.callbackContext },?_,rfl,hu⟩
        simp only [Session.step,Desk.step,Desk.set,hinfo]
        exact Function.update_self _ _ _
      · exact ⟨w,info,(Function.update_of_ne hk _ _).trans hinfo,hc,hu⟩
    · exact .inr ⟨other,info,(Function.update_of_ne hne _ _).trans hinfo,hc,hu⟩
  | freezeAllWindows =>
    refine h.upload.imp_right ?_
    rintro ⟨w,info,hw,hc,hu⟩
    refine ⟨w,{ info with playing := false },?_,hc,hu⟩
    simp only [Session.step,Desk.step,hw,Option.map_some]
  | setVideoSpotlight window spotlightId =>
    have hglobals : (s.step (.setVideoSpotlight window spotlightId)).interface.callbackContext =
        s.interface.callbackContext ∧
        (s.step (.setVideoSpotlight window spotlightId)).interface.onFileUpload =
          s.interface.onFileUpload := by
      simp only [Session.step,WhistWindows.step]
      split_ifs <;> exact ⟨rfl,rfl⟩
    rw [hglobals.1,hglobals.2]
    simp only [Session.step,Desk.step]
    split_ifs
    · exact h.upload.set (fun _ => rfl) fun _ => rfl
    · exact h.upload
  | setVideoFrameCallback window callback => exact h.upload.set (fun _ => rfl) fun _ => rfl
  | setOnFileUploadCallback window callback =>
    obtain ⟨info,hinfo⟩ := Option.ne_none_iff_exists'.1 ho
    refine .inr ⟨window,{ info with onFileUploadCallback := callback },?_,?_,rfl⟩
    · simp only [Session.step,Desk.step,Desk.set,hinfo]
      exact Function.update_self _ _ _
    · simp [Session.step,WhistWindows.step,Interface.setWindow,Interface.window,
        Std.TreeMap.getD_eq_getD_getElem?,h.windows,hinfo]
  | setOnCursorChangeCallback window callback => exact h.upload.set (fun _ => rfl) fun _ => rfl
  | setOnWhistLogCallback window callback => exact h.upload.set (fun _ => rfl) fun _ => rfl
  | sendFrame protocolAlive => cases protocolAlive <;> exact h.upload
  | cursorChange => exact h.upload
  | whistLog => exact h.upload

theorem Inv.counters (h : Inv s) {call : Call} (ho : Orderly s call) :
    (s.step call).interface.serialWindowIds = (s.step call).desk.next ∧
    (∀ w, (s.step call).desk.next ≤ w → (s.step call).desk.windows w = none) ∧
    (s.step call).interface.spotlightExpectedId = (s.step call).desk.frozen.getD 0 ∧
    s.interface.frames ≤ (s.step call).interface.frames ∧
    ∀ frame ∈ (s.step call).interface.pending, (s.step call).interface.frames = frame + 1 := by
  cases call with
  | createWindow =>
    refine ⟨by simp [Session.step,WhistWindows.step,Desk.step,h.next],fun w hw => ?_,h.expected,le_rfl,
      h.pending⟩
    have hlt : s.desk.next < w := hw
    exact (Function.update_of_ne hlt.ne' _ _).trans (h.fresh w hlt.le)
  | destroyWindow window =>
    have hkept : ∀ w, s.desk.next ≤ w →
        Function.update s.desk.windows window none w = none := by
      intro w hw
      by_cases hk : w = window
      · subst hk
        exact Function.update_self _ _ _
      · exact (Function.update_of_ne hk _ _).trans (h.fresh w hw)
    simp only [Session.step,WhistWindows.step,Desk.step]
    cases (s.interface.whistWindows.erase window).toList.head? <;>
      exact ⟨h.next,hkept,h.expected,le_rfl,h.pending⟩
  | freezeAllWindows =>
    refine ⟨h.next,fun w hw => ?_,?_,le_rfl,h.pending⟩
    · simp only [Session.step,Desk.step]
      rw [h.fresh w hw]
      rfl
    · simp only [Session.step,WhistWindows.step,Desk.step,h.expected,Option.getD_some]
  | setVideoSpotlight window spotlightId =>
    simp only [Session.step,WhistWindows.step,Desk.step]
    split_ifs
    · exact ⟨h.next,set_fresh h.fresh _,h.expected,le_rfl,h.pending⟩
    · exact ⟨h.next,h.fresh,h.expected,le_rfl,h.pending⟩
    · exact ⟨h.next,set_fresh h.fresh _,h.expected,le_rfl,h.pending⟩
    · exact ⟨h.next,h.fresh,h.expected,le_rfl,h.pending⟩
  | registerContext | setVideoFrameCallback | setOnFileUploadCallback | setOnCursorChangeCallback
  | setOnWhistLogCallback => exact ⟨h.next,set_fresh h.fresh _,h.expected,le_rfl,h.pending⟩
  | sendFrame protocolAlive =>
    cases protocolAlive with
    | false => exact ⟨h.next,h.fresh,h.expected,le_rfl,h.pending⟩
    | true =>
      refine ⟨h.next,h.fresh,h.expected,Nat.le_succ _,?_⟩
      rintro frame hframe
      rw [Option.some.inj hframe.symm]
      rfl
  | cursorChange | whistLog => exact ⟨h.next,h.fresh,h.expected,le_rfl,h.pending⟩

theorem Inv.frames (h : Inv s) {call : Call} (ho : Orderly s call) (window : ℤ) :
    ((s.step call).given window).Pairwise (· < ·) ∧
    ∀ frame ∈ (s.step call).given window, frame < (s.step call).interface.frames := by
  obtain ⟨hsorted,hnew⟩ := h.given ho window
  obtain ⟨_,_,_,hle,_⟩ := h.counters ho
  rw [given_step]
  refine ⟨List.pairwise_append.2 ⟨h.ordered window,hsorted,fun g hg f hf => (hnew f hf).1 g hg⟩,?_⟩
  intro frame hframe
  rcases List.mem_append.1 hframe with hold | hf
  · exact (h.below window frame hold).trans_le hle
  · exact (hnew frame hf).2

theorem Inv.step (h : Inv s) {call : Call} (ho : Orderly s call) : Inv (s.step call) := by
  obtain ⟨hnext,hfresh,hexpected,_,hpending⟩ := h.counters ho
  exact ⟨h.follows ho,hnext,hfresh,hexpected,hpending,fun w => (h.frames ho w).2,
    fun w => (h.frames ho w).1,h.mirrors ho⟩

theorem inv_start : Inv {} where
  windows _ := Std.TreeMap.getElem?_emptyc
  next := rfl
  fresh _ _ := rfl
  expected := rfl
  pending _ h := by cases h
  below _ _ h := by cases h
  ordered _ := List.Pairwise.nil
  upload := .inl ⟨rfl,rfl⟩

theorem Inv.video (h : Inv s) {call : Call} (ho : Orderly s call) {callback : Option Pointer}
    {frame : ℕ}
    (hmem : .videoFrame window callback frame ∈ (WhistWindows.step s.interface call).2) :
    callback ≠ none ∧ ∃ info, s.desk.windows window = some info ∧ info.playing = true := by
  cases call with
  | createWindow | destroyWindow | registerContext | freezeAllWindows | setOnFileUploadCallback
  | setOnCursorChangeCallback | setOnWhistLogCallback => cases hmem
  | setVideoSpotlight w spotlightId =>
    simp only [WhistWindows.step] at hmem
    split_ifs at hmem <;> cases hmem
  | cursorChange =>
    obtain ⟨e,_,he⟩ := List.mem_filterMap.1 hmem
    obtain ⟨c,_,hc⟩ := Option.map_eq_some_iff.1 he
    cases hc
  | whistLog =>
    obtain ⟨e,_,he⟩ := List.mem_filterMap.1 (List.mem_of_head? (Option.mem_toList.1 hmem))
    obtain ⟨c,_,hc⟩ := Option.map_eq_some_iff.1 he
    cases hc
  | sendFrame protocolAlive =>
    cases protocolAlive with
    | false => cases hmem
    | true =>
      obtain ⟨e,hentry,he⟩ := List.mem_filterMap.1 hmem
      rw [videoCallbacks] at he
      split_ifs at he with hplaying
      obtain ⟨c,_,hc⟩ := Option.map_eq_some_iff.1 he
      cases hc
      exact ⟨by simp,e.2,h.mem_toList.1 hentry,hplaying⟩
  | setVideoFrameCallback w cb =>
    obtain ⟨info,hinfo,hpending⟩ := ho
    have hstep : (WhistWindows.step s.interface (.setVideoFrameCallback w cb)).2 =
        initialFrame s.interface w cb := rfl
    rw [hstep,initialFrame] at hmem
    cases hp : s.interface.pending with
    | none =>
      rw [hp] at hmem
      cases hmem
    | some f =>
      rw [hp] at hmem
      dsimp only at hmem
      split_ifs at hmem with hw
      · cases List.mem_singleton.1 hmem
        rw [h.window_eq hinfo] at hw
        exact ⟨(hpending _ hp hw.1 hw.2).1,info,hinfo,hw.2⟩
      · cases hmem

theorem mem_step {s : Interface} {call : Call} {i : Invocation} (h : i ∈ (WhistWindows.step s call).2) :
    (∃ window callback frame, i = .videoFrame window callback frame) ∨
    ∃ entry ∈ s.whistWindows.toList, cursorCallbacks entry = some i ∨ logCallbacks entry = some i := by
  cases call with
  | createWindow | destroyWindow | registerContext | freezeAllWindows | setOnFileUploadCallback
  | setOnCursorChangeCallback | setOnWhistLogCallback => cases h
  | setVideoSpotlight w spotlightId =>
    simp only [WhistWindows.step] at h
    split_ifs at h <;> cases h
  | setVideoFrameCallback w callback =>
    have hmem : i ∈ initialFrame s w callback := h
    rw [initialFrame] at hmem
    cases hp : s.pending with
    | none =>
      rw [hp] at hmem
      cases hmem
    | some frame =>
      rw [hp] at hmem
      dsimp only at hmem
      split_ifs at hmem
      · exact .inl ⟨w,callback,frame,List.mem_singleton.1 hmem⟩
      · cases hmem
  | sendFrame protocolAlive =>
    cases protocolAlive with
    | false => cases h
    | true =>
      obtain ⟨e,_,he⟩ := List.mem_filterMap.1 h
      rw [videoCallbacks] at he
      split_ifs at he
      obtain ⟨c,_,rfl⟩ := Option.map_eq_some_iff.1 he
      exact .inl ⟨_,_,_,rfl⟩
  | cursorChange =>
    obtain ⟨e,hentry,he⟩ := List.mem_filterMap.1 h
    exact .inr ⟨e,hentry,.inl he⟩
  | whistLog =>
    obtain ⟨e,hentry,he⟩ := List.mem_filterMap.1 (List.mem_of_head? (Option.mem_toList.1 h))
    exact .inr ⟨e,hentry,.inr he⟩

theorem Inv.promise (h : Inv s) {call : Call} (ho : Orderly s call) : Promise s call where
  video window callback frame hmem := h.video ho hmem
  sent hcall window info callback hinfo hplaying hcallback := by
    subst hcall
    refine List.mem_filterMap.2 ⟨(window,info),h.mem_toList.2 hinfo,?_⟩
    simp [videoCallbacks,hplaying,hcallback]
  cursor window callback hmem := by
    rcases mem_step hmem with ⟨_,_,_,hv⟩ | ⟨entry,hentry,hc | hl⟩
    · cases hv
    · obtain ⟨c,hcallback,hc⟩ := Option.map_eq_some_iff.1 hc
      cases hc
      exact ⟨entry.2,h.mem_toList.1 hentry,hcallback⟩
    · obtain ⟨c,_,hc⟩ := Option.map_eq_some_iff.1 hl
      cases hc
  log window callback hmem := by
    rcases mem_step hmem with ⟨_,_,_,hv⟩ | ⟨entry,hentry,hc | hl⟩
    · cases hv
    · obtain ⟨c,_,hc⟩ := Option.map_eq_some_iff.1 hc
      cases hc
    · obtain ⟨c,hcallback,hc⟩ := Option.map_eq_some_iff.1 hl
      cases hc
      exact ⟨entry.2,h.mem_toList.1 hentry,hcallback⟩
  ordered window := (h.frames ho window).1
  upload := h.mirrors ho

end

/-- In every sequence of orderly calls each call keeps what is promised of it. -/
theorem orderly_calls_keep_promise {calls : List Call} (h : Each Session.step Orderly {} calls) :
    Each Session.step Promise {} calls :=
  h.imp (fun _ _ hs ho => hs.step ho) (fun _ _ hs ho => hs.promise ho) inv_start

def tabCalls : List Call :=
  [.createWindow,.registerContext 1 (some 5),.setOnFileUploadCallback 1 (some 6),.freezeAllWindows,
    .setVideoSpotlight 1 1,.sendFrame true,.setVideoFrameCallback 1 (some 7),.sendFrame true,
    .destroyWindow 1]

theorem orderly_calls_keep_promise_tab : Each Session.step Promise {} tabCalls := by
  refine orderly_calls_keep_promise ?_
  simp [tabCalls,Each,Orderly,Session.step,WhistWindows.step,Desk.step,Desk.set,Interface.setWindow,
    Interface.window,Session.given,videoCallbacks,frameOf,Std.TreeMap.getD_eq_getD_getElem?]

/-- A window is put into the spotlight and given a callback just after its destruction, and the
callback is called. -/
theorem destroyed_window_gets_frames : ¬ Each Session.step Promise {}
    [.createWindow,.freezeAllWindows,.destroyWindow 1,.setVideoSpotlight 1 1,
      .setVideoFrameCallback 1 (some 7),.sendFrame true] := by
  rintro ⟨_,_,_,_,_,hsend,_⟩
  obtain ⟨_,info,hinfo,_⟩ := hsend.video 1 (some 7) 0 (by decide +kernel)
  cases hinfo

end Whist.WhistWindows
