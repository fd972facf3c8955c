import Whist.Foundation.Run
import Whist.Cursor.CursorCache

/-! # Cursors shown by the frontends

`sdl_set_cursor` compares the hash of a cursor with the one it applied last, and
`virtual_set_cursor` its type and mode with those it reported last.  The position of the
pointer, kept while the mouse is captured, is left out.
-/
namespace Whist.Cursor
open Run

structure CursorImage where
  width : UInt16
  height : UInt16
  rgba : List UInt32
  sized : rgba.length = width.toNat * height.toNat

/-- The PNG encoder: it writes at least a signature, and loses nothing. -/
structure Lodepng where
  encode32 : CursorImage → Option (List UInt8)
  signature : ∀ {i p}, encode32 i = some p → 8 ≤ p.length
  lossless : ∀ {i j p}, encode32 i = some p → encode32 j = some p → i = j

structure ShapedCursor extends WhistCursorInfo where
  pngWidth : UInt16 := 0
  pngHeight : UInt16 := 0
  pngHotX : UInt16 := 0
  pngHotY : UInt16 := 0

def cursorInfoFromType (type : WhistCursorType) (mode : WhistMouseMode) : ShapedCursor :=
  { toWhistCursorInfo := (whistCursorInfoFromType type mode).info }

def cursorInfoFromRgba (lodepng : Lodepng) (image : CursorImage) (hotX hotY : UInt16)
    (mode : WhistMouseMode) : Option ShapedCursor :=
  (lodepng.encode32 image).map fun png =>
    { toWhistCursorInfo := (whistCursorInfoFromRgba png mode).info
      pngWidth := image.width, pngHeight := image.height, pngHotX := hotX, pngHotY := hotY }

inductive Made (lodepng : Lodepng) : ShapedCursor → Prop
  | type {type : WhistCursorType} (mode : WhistMouseMode) (h : type ≠ .png) :
      Made lodepng (cursorInfoFromType type mode)
  | rgba {image : CursorImage} {hotX hotY : UInt16} {mode : WhistMouseMode} {cursor : ShapedCursor}
      (h : cursorInfoFromRgba lodepng image hotX hotY mode = some cursor) : Made lodepng cursor

def MadeCursor (lodepng : Lodepng) := {cursor : ShapedCursor // Made lodepng cursor}

/-- What `SDL_CreateColorCursor` and `SDL_CreateSystemCursor` were given. -/
inductive SdlCursor
  | color (png : List UInt8) (width height hotX hotY : UInt16)
  | system (type : WhistCursorType)
deriving DecidableEq

def SdlCursor.ofInfo (cursor : ShapedCursor) : SdlCursor :=
  if cursor.type = .png then
    .color cursor.png cursor.pngWidth cursor.pngHeight cursor.pngHotX cursor.pngHotY
  else .system cursor.type

/-- The cursor's part of the frontend's context, and below it what SDL was last told. -/
structure SdlContext where
  mode : WhistMouseMode := .normal
  hash : UInt32 := 0
  handle : Option SdlCursor := none
  relativeMouseMode : Bool := false
  showCursor : Bool := true
  cursor : Option SdlCursor := none

def sdlSetCursor (context : SdlContext) (cursor : ShapedCursor) : SdlContext :=
  if cursor.hash = context.hash then context
  else
    let context :=
      if cursor.mode ≠ context.mode then
        { context with relativeMouseMode := cursor.mode == .relative, mode := cursor.mode }
      else context
    if context.mode = .relative then context
    else
      { context with
        showCursor := cursor.type != .none
        cursor := some (SdlCursor.ofInfo cursor)
        handle := some (SdlCursor.ofInfo cursor)
        hash := cursor.hash }

def SdlShows (context : SdlContext) (cursor : ShapedCursor) : Prop :=
  context.relativeMouseMode = (cursor.mode == .relative) ∧
  (cursor.mode = .normal → context.cursor = some (SdlCursor.ofInfo cursor) ∧
    context.showCursor = (cursor.type != .none))

def cssCursorFromWhistCursorType (type : WhistCursorType) : String :=
  ["none","png","alias","all-scroll","default","cell","context-menu","copy","crosshair","grab",
    "grabbing","pointer","help","text","vertical-text","move","no-drop","not-allowed","progress",
    "col-resize","e-resize","ew-resize","n-resize","ne-resize","nesw-resize","ns-resize",
    "nw-resize","nwse-resize","row-resize","s-resize","se-resize","sw-resize","w-resize","wait",
    "zoom-in","zoom-out"].getD type.ctorIdx ""

/-- The two static variables, and the reports made to `on_cursor_change`: the CSS name and
whether the mouse is relative. -/
structure VirtualContext where
  lastCursorType : WhistCursorType := .arrow
  lastMode : WhistMouseMode := .normal
  reports : List (String × Bool) := []

def virtualType (type : WhistCursorType) : WhistCursorType := if type = .png then .arrow else type

def virtualSetCursor (context : VirtualContext) (cursor : ShapedCursor) : VirtualContext :=
  let type := virtualType cursor.type
  if type ≠ context.lastCursorType ∨ cursor.mode ≠ context.lastMode then
    { context with
      reports := context.reports ++ [(cssCursorFromWhistCursorType type,cursor.mode == .relative)]
      lastCursorType := type }
  else context

def VirtualContext.shown (context : VirtualContext) : String × Bool :=
  context.reports.getLast?.getD (cssCursorFromWhistCursorType .arrow,false)

section
variable {lodepng : Lodepng}

def previous (pre : List (MadeCursor lodepng)) : WhistCursorType × WhistMouseMode :=
  pre.getLast?.elim (.arrow,.normal) fun p => (virtualType p.1.type,p.1.mode)

def VirtualShows (pre : List (MadeCursor lodepng)) (context : VirtualContext)
    (cursor : ShapedCursor) : Prop :=
  (virtualSetCursor context cursor).shown.2 = (cursor.mode == .relative) ∧
  (cursor.mode = .normal → (virtualSetCursor context cursor).shown.1 =
    cssCursorFromWhistCursorType (virtualType cursor.type)) ∧
  (previous pre = (virtualType cursor.type,cursor.mode) →
    (virtualSetCursor context cursor).reports = context.reports)

/-- After each cursor passed to `sdl_set_cursor` it is shown. -/
def SdlFollows (cursors : List (MadeCursor lodepng)) : Prop :=
  ∀ pre c post, cursors = pre ++ c :: post →
    SdlShows (sdlSetCursor (pre.foldl (fun context d => sdlSetCursor context d.1) {}) c.1) c.1

def VirtualFollows (cursors : List (MadeCursor lodepng)) : Prop :=
  ∀ pre c post, cursors = pre ++ c :: post →
    VirtualShows pre (pre.foldl (fun context d => virtualSetCursor context d.1) {}) c.1

def lastNormal (pre : List (MadeCursor lodepng)) : Option (MadeCursor lodepng) :=
  (pre.filter fun c => c.1.mode == .normal).getLast?

/-- A normal cursor that repeats the type and image of the normal one before it comes right after
that one and has its hot spot. -/
def SdlRepeats (pre : List (MadeCursor lodepng)) (c : MadeCursor lodepng) : Prop :=
  c.1.mode = .normal → ∀ b ∈ lastNormal pre, b.1.type = c.1.type → b.1.png = c.1.png →
    (∀ a ∈ pre.getLast?, a.1.mode = .normal) ∧ b.1.pngHotX = c.1.pngHotX ∧ b.1.pngHotY = c.1.pngHotY

/-- A cursor after a relative one has another type. -/
def VirtualChanges (pre : List (MadeCursor lodepng)) (c : MadeCursor lodepng) : Prop :=
  ∀ p ∈ pre.getLast?, p.1.mode = .relative → virtualType p.1.type ≠ virtualType c.1.type

end

def hashedBytes (cursor : ShapedCursor) : List UInt8 :=
  if cursor.mode = .relative then intBytes hiddenCursorHashOffset
  else if cursor.type = .png then cursor.png
  else intBytes (cursor.type.ctorIdx + idCursorHashOffset)

def HashInjective {lodepng : Lodepng} (cursors : List (MadeCursor lodepng)) : Prop :=
  ∀ c ∈ cursors, ∀ d ∈ cursors, hash (hashedBytes c.1) = hash (hashedBytes d.1) →
    hashedBytes c.1 = hashedBytes d.1

section
variable {lodepng : Lodepng} {c d : ShapedCursor}

theorem Made.hash_eq (h : Made lodepng c) : c.hash = hash (hashedBytes c) := by
  cases h with
  | @type type mode hne =>
    rw [hashedBytes]
    cases mode <;> simp only [cursorInfoFromType,whistCursorInfoFromType,capturedCursor,if_neg hne,
      reduceCtorEq,if_true,if_false]
  | @rgba image hotX hotY mode _ h =>
    obtain ⟨png,_,rfl⟩ := Option.map_eq_some_iff.1 h
    rw [hashedBytes]
    cases mode <;> simp only [whistCursorInfoFromRgba,capturedCursor,reduceCtorEq,if_true,if_false]

theorem Made.hash_ne_zero (h : Made lodepng c) : c.hash ≠ 0 := by
  rw [h.hash_eq]
  exact Whist.Cursor.hash_ne_zero _

theorem Made.plain (h : Made lodepng c) (hne : c.type ≠ .png) :
    c.png = [] ∧ c.pngHotX = 0 ∧ c.pngHotY = 0 := by
  cases h with
  | type mode _ => exact ⟨rfl,rfl,rfl⟩
  | rgba h =>
    obtain ⟨png,_,rfl⟩ := Option.map_eq_some_iff.1 h
    exact absurd rfl hne

theorem Made.encoded (h : Made lodepng c) (hpng : c.type = .png) :
    ∃ image, lodepng.encode32 image = some c.png ∧ c.pngWidth = image.width ∧
      c.pngHeight = image.height := by
  cases h with
  | type mode hne => exact absurd hpng hne
  | @rgba image hotX hotY mode _ h =>
    obtain ⟨png,himage,rfl⟩ := Option.map_eq_some_iff.1 h
    exact ⟨image,himage,rfl,rfl⟩

theorem ctorIdx_lt (type : WhistCursorType) : type.ctorIdx < 36 := by
  cases type <;> decide

theorem intBytes_type_injective {s t : WhistCursorType}
    (h : intBytes (s.ctorIdx + idCursorHashOffset) = intBytes (t.ctorIdx + idCursorHashOffset)) :
    s = t := by
  have hs := ctorIdx_lt s
  have ht := ctorIdx_lt t
  have hfirst := congrArg UInt8.toNat (List.cons.inj h).1
  simp only [UInt8.toNat_ofNat',idCursorHashOffset] at hfirst
  have hidx : s.ctorIdx = t.ctorIdx := by omega
  rw [← WhistCursorType.ofNat_ctorIdx s,hidx,WhistCursorType.ofNat_ctorIdx]

theorem intBytes_type_ne_hidden (type : WhistCursorType) :
    intBytes (type.ctorIdx + idCursorHashOffset) ≠ intBytes hiddenCursorHashOffset := by
  have ht := ctorIdx_lt type
  intro h
  have hsecond := congrArg UInt8.toNat (List.cons.inj (List.cons.inj h).2).1
  simp only [UInt8.toNat_ofNat',idCursorHashOffset,hiddenCursorHashOffset] at hsecond
  omega

theorem Made.png_ne_intBytes (h : Made lodepng c) (hpng : c.type = .png) (n : ℕ) :
    c.png ≠ intBytes n := by
  obtain ⟨image,himage,_⟩ := h.encoded hpng
  have hlen := lodepng.signature himage
  intro heq
  rw [heq] at hlen
  exact absurd hlen (by simp [intBytes])

theorem Made.hashedBytes_ne (h : Made lodepng c) (hc : c.mode = .normal) (hd : d.mode = .relative) :
    hashedBytes c ≠ hashedBytes d := by
  have hcm : c.mode ≠ .relative := fun h => by cases hc.symm.trans h
  rw [hashedBytes,hashedBytes,if_neg hcm,if_pos hd]
  split_ifs with hpng
  · exact h.png_ne_intBytes hpng _
  · exact intBytes_type_ne_hidden _

theorem hashedBytes_eq_iff (hc : Made lodepng c) (hd : Made lodepng d) (hcn : c.mode = .normal)
    (hdn : d.mode = .normal) :
    hashedBytes c = hashedBytes d ↔ c.type = d.type ∧ c.png = d.png := by
  have hcm : c.mode ≠ .relative := fun h => by cases hcn.symm.trans h
  have hdm : d.mode ≠ .relative := fun h => by cases hdn.symm.trans h
  rw [hashedBytes,hashedBytes,if_neg hcm,if_neg hdm]
  by_cases hcp : c.type = .png <;> by_cases hdp : d.type = .png
  · rw [if_pos hcp,if_pos hdp]
    exact ⟨fun h => ⟨hcp.trans hdp.symm,h⟩,And.right⟩
  · rw [if_pos hcp,if_neg hdp]
    exact ⟨fun h => absurd h (hc.png_ne_intBytes hcp _),fun h => absurd (h.1.symm.trans hcp) hdp⟩
  · rw [if_neg hcp,if_pos hdp]
    exact ⟨fun h => absurd h.symm (hd.png_ne_intBytes hdp _),fun h => absurd (h.1.trans hdp) hcp⟩
  · rw [if_neg hcp,if_neg hdp]
    exact ⟨fun h => ⟨intBytes_type_injective h,(hc.plain hcp).1.trans (hd.plain hdp).1.symm⟩,
      fun h => by rw [h.1]⟩

theorem ofInfo_eq_iff (hc : Made lodepng c) (hd : Made lodepng d) (htype : c.type = d.type)
    (himage : c.png = d.png) :
    SdlCursor.ofInfo c = SdlCursor.ofInfo d ↔ c.pngHotX = d.pngHotX ∧ c.pngHotY = d.pngHotY := by
  rw [SdlCursor.ofInfo,SdlCursor.ofInfo,← htype]
  split_ifs with hpng
  · obtain ⟨i,hi,hiw,hih⟩ := hc.encoded hpng
    obtain ⟨j,hj,hjw,hjh⟩ := hd.encoded (htype ▸ hpng)
    obtain rfl := lodepng.lossless hi (himage ▸ hj)
    simp [himage,hiw,hih,hjw,hjh]
  · obtain ⟨_,hcx,hcy⟩ := hc.plain hpng
    obtain ⟨_,hdx,hdy⟩ := hd.plain (htype ▸ hpng)
    exact ⟨fun _ => ⟨hcx.trans hdx.symm,hcy.trans hdy.symm⟩,fun _ => rfl⟩

end

section
variable {lodepng : Lodepng} {pre : List (MadeCursor lodepng)} {c : MadeCursor lodepng}

theorem mode_normal_of_ne {mode : WhistMouseMode} (h : mode ≠ .relative) : mode = .normal := by
  cases mode with
  | normal => rfl
  | relative => exact absurd rfl h

theorem lastNormal_snoc (pre : List (MadeCursor lodepng)) (c : MadeCursor lodepng) :
    lastNormal (pre ++ [c]) = if c.1.mode = .normal then some c else lastNormal pre := by
  cases h : c.1.mode <;> simp [lastNormal,h]

theorem lastNormal_mem {b : MadeCursor lodepng} (h : b ∈ lastNormal pre) :
    b ∈ pre ∧ b.1.mode = .normal := by
  have := List.mem_filter.1 (List.mem_of_getLast? h)
  exact ⟨this.1,by simpa using this.2⟩

structure SdlInv (pre : List (MadeCursor lodepng)) (s : SdlContext) : Prop where
  mode : s.mode = pre.getLast?.elim .normal fun a => a.1.mode
  relativeMouseMode : s.relativeMouseMode = (s.mode == .relative)
  hash : s.hash = (lastNormal pre).elim 0 fun b => b.1.hash
  cursor : ∀ b ∈ lastNormal pre, s.cursor = some (SdlCursor.ofInfo b.1) ∧
    s.showCursor = (b.1.type != .none)

theorem SdlInv.mode_normal_iff {s : SdlContext} (h : SdlInv pre s) :
    s.mode = .normal ↔ ∀ a ∈ pre.getLast?, a.1.mode = .normal := by
  rw [h.mode]
  cases pre.getLast? with
  | none => simp
  | some a => simp

theorem SdlInv.same_hash {s : SdlContext} (h : SdlInv pre s)
    (hinj : HashInjective (pre ++ [c])) (heq : c.1.hash = s.hash) :
    c.1.mode = .normal ∧ ∃ b ∈ lastNormal pre, b.1.type = c.1.type ∧ b.1.png = c.1.png := by
  rw [h.hash] at heq
  cases hb : lastNormal pre with
  | none =>
    rw [hb] at heq
    exact absurd heq c.2.hash_ne_zero
  | some b =>
    have hmem := lastNormal_mem (Option.mem_def.2 hb)
    rw [hb,Option.elim_some,c.2.hash_eq,b.2.hash_eq] at heq
    have hbytes := hinj c (by simp) b (by simp [hmem.1]) heq
    have hc : c.1.mode = .normal := by
      refine mode_normal_of_ne fun hrel => ?_
      exact b.2.hashedBytes_ne hmem.2 hrel hbytes.symm
    have hsame := (hashedBytes_eq_iff b.2 c.2 hmem.2 hc).1 hbytes.symm
    exact ⟨hc,b,rfl,hsame⟩

theorem sdlSetCursor_of_ne {s : SdlContext} (hrel : s.relativeMouseMode = (s.mode == .relative))
    (hne : c.1.hash ≠ s.hash) :
    SdlShows (sdlSetCursor s c.1) c.1 ∧
    (sdlSetCursor s c.1).mode = c.1.mode ∧
    (c.1.mode = .normal → (sdlSetCursor s c.1).hash = c.1.hash) ∧
    (c.1.mode = .relative → (sdlSetCursor s c.1).hash = s.hash ∧
      (sdlSetCursor s c.1).cursor = s.cursor ∧ (sdlSetCursor s c.1).showCursor = s.showCursor) := by
  have hmode : (if c.1.mode ≠ s.mode then
        { s with relativeMouseMode := c.1.mode == .relative, mode := c.1.mode } else s) =
      { s with relativeMouseMode := c.1.mode == .relative, mode := c.1.mode } := by
    split_ifs with h
    · rfl
    · obtain h := not_not.1 h
      rw [h,← hrel]
  rw [sdlSetCursor,if_neg hne,hmode]
  cases hc : c.1.mode with
  | normal => simp [SdlShows,hc]
  | relative => simp [SdlShows,hc]

theorem SdlInv.shows_iff {s : SdlContext} (h : SdlInv pre s) (hinj : HashInjective (pre ++ [c])) :
    SdlShows (sdlSetCursor s c.1) c.1 ↔ SdlRepeats pre c := by
  by_cases heq : c.1.hash = s.hash
  · obtain ⟨hc,b,hb,htype,hpng⟩ := h.same_hash hinj heq
    obtain ⟨hcursor,hshow⟩ := h.cursor b hb
    have hlook := ofInfo_eq_iff b.2 c.2 htype hpng
    have hrel : s.relativeMouseMode = false ↔ ∀ a ∈ pre.getLast?, a.1.mode = .normal := by
      rw [h.relativeMouseMode,← h.mode_normal_iff]
      cases s.mode <;> simp
    rw [sdlSetCursor,if_pos heq,SdlShows,hcursor,hshow,htype,hc,Option.some.injEq,hlook]
    constructor
    · rintro ⟨hmode,hshown⟩ _ b' hb' _ _
      obtain rfl := Option.mem_unique hb hb'
      exact ⟨hrel.1 hmode,(hshown rfl).1⟩
    · intro hrep
      obtain ⟨hmode,hhot⟩ := hrep hc b hb htype hpng
      exact ⟨hrel.2 hmode,fun _ => ⟨hhot,rfl⟩⟩
  · refine ⟨fun _ hc b hb htype hpng => ?_,fun _ => (sdlSetCursor_of_ne h.relativeMouseMode heq).1⟩
    have hmem := lastNormal_mem hb
    have hbytes := (hashedBytes_eq_iff b.2 c.2 hmem.2 hc).2 ⟨htype,hpng⟩
    rw [h.hash,Option.mem_def.1 hb,Option.elim_some,c.2.hash_eq,b.2.hash_eq,hbytes] at heq
    exact absurd rfl heq

theorem SdlInv.step {s : SdlContext} (h : SdlInv pre s) (hinj : HashInjective (pre ++ [c]))
    (hgood : SdlRepeats pre c) : SdlInv (pre ++ [c]) (sdlSetCursor s c.1) := by
  have hshows := (h.shows_iff hinj).2 hgood
  by_cases heq : c.1.hash = s.hash
  · obtain ⟨hc,b,hb,htype,hpng⟩ := h.same_hash hinj heq
    have hlast := (hgood hc b hb htype hpng).1
    rw [sdlSetCursor,if_pos heq] at hshows ⊢
    refine ⟨?_,h.relativeMouseMode,?_,?_⟩
    · simpa [hc] using h.mode_normal_iff.2 hlast
    · rw [lastNormal_snoc,if_pos hc]
      exact heq.symm
    · rw [lastNormal_snoc,if_pos hc]
      rintro d hd
      obtain rfl := Option.some.inj hd
      exact hshows.2 hc
  · obtain ⟨_,hmode,hhash,hkept⟩ := sdlSetCursor_of_ne (c := c) h.relativeMouseMode heq
    refine ⟨?_,?_,?_,?_⟩
    · simpa using hmode
    · rw [hmode]
      exact hshows.1
    · rw [lastNormal_snoc]
      split_ifs with hc
      · exact hhash hc
      · rw [← h.hash]
        exact (hkept (by cases hm : c.1.mode <;> simp_all)).1
    · rw [lastNormal_snoc]
      split_ifs with hc
      · rintro d hd
        obtain rfl := Option.some.inj hd
        exact hshows.2 hc
      · obtain ⟨_,hcursor,hshow⟩ := hkept (by cases hm : c.1.mode <;> simp_all)
        rw [hcursor,hshow]
        exact h.cursor

theorem HashInjective.left {pre post : List (MadeCursor lodepng)}
    (h : HashInjective (pre ++ c :: post)) : HashInjective (pre ++ [c]) := by
  have hsub : ∀ d ∈ pre ++ [c], d ∈ pre ++ c :: post := by
    intro d hd
    rcases List.mem_append.1 hd with hd | hd
    · exact List.mem_append_left _ hd
    · exact List.mem_append_right _ (List.mem_singleton.1 hd ▸ List.mem_cons_self)
  exact fun a ha b hb => h a (hsub a ha) b (hsub b hb)

theorem sdlFollows_iff {cursors : List (MadeCursor lodepng)} (hinj : HashInjective cursors) :
    SdlFollows cursors ↔ ∀ pre c post, cursors = pre ++ c :: post → SdlRepeats pre c := by
  have h₀ : SdlInv ([] : List (MadeCursor lodepng)) {} :=
    ⟨rfl,rfl,rfl,fun b hb => (by simp [lastNormal] at hb)⟩
  refine @calls_iff _ _ _ SdlInv SdlRepeats (fun _ s c => SdlShows (sdlSetCursor s c.1) c.1)
    cursors {} h₀ ?_ ?_
  · intro pre c post s hcs hinv hgood
    exact hinv.step (hcs ▸ hinj).left hgood
  · intro pre c post s hcs hinv
    exact hinv.shows_iff (hcs ▸ hinj).left

theorem previous_snoc (pre : List (MadeCursor lodepng)) (c : MadeCursor lodepng) :
    previous (pre ++ [c]) = (virtualType c.1.type,c.1.mode) := by
  simp [previous]

structure VirtualInv (pre : List (MadeCursor lodepng)) (s : VirtualContext) : Prop where
  lastMode : s.lastMode = .normal
  lastCursorType : s.lastCursorType = (previous pre).1
  shown : s.shown = (cssCursorFromWhistCursorType (previous pre).1,(previous pre).2 == .relative)

theorem virtualSetCursor_of_change {s : VirtualContext} {cursor : ShapedCursor}
    (h : virtualType cursor.type ≠ s.lastCursorType ∨ cursor.mode ≠ s.lastMode) :
    (virtualSetCursor s cursor).shown =
        (cssCursorFromWhistCursorType (virtualType cursor.type),cursor.mode == .relative) ∧
    (virtualSetCursor s cursor).lastCursorType = virtualType cursor.type ∧
    (virtualSetCursor s cursor).lastMode = s.lastMode ∧
    (virtualSetCursor s cursor).reports ≠ s.reports := by
  rw [virtualSetCursor,if_pos h]
  refine ⟨?_,rfl,rfl,by simp⟩
  simp [VirtualContext.shown]

theorem VirtualInv.shows_iff {s : VirtualContext} (h : VirtualInv pre s) :
    VirtualShows pre s c.1 ↔ VirtualChanges pre c := by
  by_cases hchange : virtualType c.1.type ≠ s.lastCursorType ∨ c.1.mode ≠ s.lastMode
  · obtain ⟨hshown,_,_,hreports⟩ := virtualSetCursor_of_change hchange
    rw [VirtualShows,hshown]
    have hsilent : ((previous pre = (virtualType c.1.type,c.1.mode)) →
        (virtualSetCursor s c.1).reports = s.reports) ↔
        previous pre ≠ (virtualType c.1.type,c.1.mode) :=
      ⟨fun hs hp => hreports (hs hp),fun hs hp => absurd hp hs⟩
    rw [hsilent]
    rw [h.lastMode,h.lastCursorType] at hchange
    simp only [true_and,implies_true]
    cases hp : pre.getLast? with
    | none =>
      simp only [previous,hp,Option.elim_none] at hchange ⊢
      refine ⟨fun _ p hp' => (by rw [hp] at hp'; cases hp'),fun _ heq => ?_⟩
      rw [Prod.ext_iff] at heq
      exact hchange.elim (fun h => h heq.1.symm) fun h => h heq.2.symm
    | some p =>
      simp only [previous,hp,Option.elim_some] at hchange ⊢
      constructor
      · intro hne q hq hrel heq
        obtain rfl := Option.some.inj (hp.symm.trans hq)
        rcases hchange with htype | hmode
        · exact htype heq.symm
        · refine hne (Prod.ext heq (hrel.trans ?_))
          cases hm : c.1.mode with
          | normal => exact absurd hm hmode
          | relative => rfl
      · intro hchanges heq
        rw [Prod.ext_iff] at heq
        rcases hchange with htype | hmode
        · exact htype heq.1.symm
        · refine hchanges p hp (heq.2.trans ?_) heq.1
          dsimp only
          cases hm : c.1.mode with
          | normal => exact absurd hm hmode
          | relative => rfl
  · have hkeep : virtualSetCursor s c.1 = s := if_neg hchange
    push Not at hchange
    obtain ⟨htype,hmode⟩ := hchange
    rw [h.lastMode] at hmode
    rw [h.lastCursorType] at htype
    rw [VirtualShows,hkeep,h.shown,hmode,htype]
    simp only [implies_true,and_true]
    cases hp : pre.getLast? with
    | none =>
      refine ⟨fun _ p hp' => (by rw [hp] at hp'; cases hp'),fun _ => ?_⟩
      simp [previous,hp]
    | some p =>
      have htype' : virtualType p.1.type = virtualType c.1.type := by
        rw [htype,previous,hp,Option.elim_some]
      simp only [previous,hp,Option.elim_some]
      constructor
      · intro hnormal q hq hrel
        obtain rfl := Option.some.inj (hp.symm.trans hq)
        rw [hrel] at hnormal
        cases hnormal
      · intro hchanges
        have hne : p.1.mode ≠ .relative := fun hrel => hchanges p hp hrel htype'
        rw [mode_normal_of_ne hne]

theorem VirtualInv.step {s : VirtualContext} (h : VirtualInv pre s) (hgood : VirtualChanges pre c) :
    VirtualInv (pre ++ [c]) (virtualSetCursor s c.1) := by
  have hshows := h.shows_iff.2 hgood
  by_cases hchange : virtualType c.1.type ≠ s.lastCursorType ∨ c.1.mode ≠ s.lastMode
  · obtain ⟨hshown,htype,hmode,_⟩ := virtualSetCursor_of_change hchange
    refine ⟨hmode.trans h.lastMode,?_,?_⟩
    · rw [previous_snoc,htype]
    · rw [previous_snoc,hshown]
  · have hkeep : virtualSetCursor s c.1 = s := if_neg hchange
    push Not at hchange
    rw [VirtualShows,hkeep] at hshows
    rw [hkeep]
    refine ⟨h.lastMode,?_,?_⟩
    · rw [previous_snoc]
      exact hchange.1.symm
    · rw [previous_snoc]
      exact Prod.ext (hshows.2.1 (hchange.2.trans h.lastMode)) hshows.1

theorem virtualFollows_iff (cursors : List (MadeCursor lodepng)) :
    VirtualFollows cursors ↔ ∀ pre c post, cursors = pre ++ c :: post → VirtualChanges pre c := by
  have h₀ : VirtualInv ([] : List (MadeCursor lodepng)) {} := ⟨rfl,rfl,rfl⟩
  refine @calls_iff _ _ _ VirtualInv VirtualChanges (fun pre s c => VirtualShows pre s c.1)
    cursors {} h₀ ?_ ?_
  · intro pre c post s _ hinv hgood
    exact hinv.step hgood
  · intro pre c post s _ hinv
    exact hinv.shows_iff

/-- The sequences of cursors that the two frontends follow. -/
theorem cursors_shown_iff {cursors : List (MadeCursor lodepng)} (hinj : HashInjective cursors) :
    (SdlFollows cursors ↔ ∀ pre c post, cursors = pre ++ c :: post → SdlRepeats pre c) ∧
    (VirtualFollows cursors ↔
      ∀ pre c post, cursors = pre ++ c :: post → VirtualChanges pre c) :=
  ⟨sdlFollows_iff hinj,virtualFollows_iff cursors⟩

def failingLodepng : Lodepng where
  encode32 _ := none
  signature h := by cases h
  lossless h := by cases h

def typeCursor (type : WhistCursorType) (mode : WhistMouseMode) (h : type ≠ .png) :
    MadeCursor failingLodepng :=
  ⟨cursorInfoFromType type mode,.type mode h⟩

def capturingCursors : List (MadeCursor failingLodepng) :=
  [typeCursor .hand .normal (by decide),typeCursor .none .relative (by decide)]

theorem cursors_shown_iff_capturing :
    (SdlFollows capturingCursors ↔
      ∀ pre c post, capturingCursors = pre ++ c :: post → SdlRepeats pre c) ∧
    (VirtualFollows capturingCursors ↔
      ∀ pre c post, capturingCursors = pre ++ c :: post → VirtualChanges pre c) := by
  have hne : hash (hashedBytes (cursorInfoFromType .hand .normal)) ≠
      hash (hashedBytes (cursorInfoFromType .none .relative)) := by decide +kernel
  refine cursors_shown_iff ?_
  intro c hc d hd heq
  rcases List.mem_pair.1 hc with rfl | rfl <;> rcases List.mem_pair.1 hd with rfl | rfl
  · rfl
  · exact absurd heq hne
  · exact absurd heq.symm hne
  · rfl

/-- A game that captures the mouse and releases it, over the same arrow. -/
def releasingCursors : List (MadeCursor failingLodepng) :=
  [typeCursor .arrow .normal (by decide),typeCursor .arrow .relative (by decide),
    typeCursor .arrow .normal (by decide)]

/-- Both frontends keep the mouse captured. -/
theorem released_mouse_stays_captured :
    ¬ SdlFollows releasingCursors ∧ ¬ VirtualFollows releasingCursors := by
  have hsdl : (sdlSetCursor (sdlSetCursor (sdlSetCursor {} (cursorInfoFromType .arrow .normal))
      (cursorInfoFromType .arrow .relative)) (cursorInfoFromType .arrow .normal)).relativeMouseMode =
      true := by decide +kernel
  have hvirtual : (virtualSetCursor (virtualSetCursor (virtualSetCursor {}
      (cursorInfoFromType .arrow .normal)) (cursorInfoFromType .arrow .relative))
      (cursorInfoFromType .arrow .normal)).shown.2 = true := by decide +kernel
  constructor
  · intro h
    have hlast := (h [_,_] _ [] rfl).1
    cases hsdl.symm.trans hlast
  · intro h
    have hlast := (h [_,_] _ [] rfl).1
    cases hvirtual.symm.trans hlast

end

end Whist.Cursor
