import Whist.Foundation.Binary64
import Whist.Foundation.Run

/-! # The dimensions sent to the server

The main loop sends a pending message at most once per `WINDOW_RESIZE_MESSAGE_INTERVAL` and watches the window's display.
The window changes on its own, and the clock counts ticks.
-/
namespace Whist.Dimensions
open Run

structure Size where
  width : ℤ
  height : ℤ
  width_pos : 0 < width
  height_pos : 0 < height
deriving DecidableEq

/-- What the frontend says about the window: pixel size, DPI and, unless that fails, display. -/
structure Window where
  size : Size
  dpi : ℤ
  displayIndex : Option ℕ
deriving DecidableEq

structure DimensionsMessage where
  width : ℤ
  height : ℤ
  dpi : ℤ
deriving DecidableEq

/-- `WINDOW_RESIZE_MESSAGE_INTERVAL` and the 10 ms between looks at the display, in ticks, and
whether the client was built on Linux. -/
structure Build where
  resizeMessageInterval : ℕ
  monitorChangeInterval : ℕ
  monitor_lt_resize : monitorChangeInterval < resizeMessageInterval
  linux : Bool

def maxScreenWidth : ℤ := 4096

def maxScreenHeight : ℤ := 4096

/-- The clamping of `send_message_dimensions`, in doubles; conversion to `int` truncates. -/
def clampDimensions (size : Size) : ℤ × ℤ :=
  let wToHRatio := Binary64.nearest (size.width / size.height)
  let clamped := if maxScreenWidth < size.width then
      (maxScreenWidth,⌊(Binary64.nearest (maxScreenWidth / wToHRatio.val)).val⌋)
    else (size.width,size.height)
  if maxScreenHeight < clamped.2 then
    (min ⌊(Binary64.nearest (maxScreenHeight * wToHRatio.val)).val⌋ maxScreenWidth,maxScreenHeight)
  else clamped

structure Client where
  window : Window
  /-- What `network_algorithm.c` computes bitrates from. -/
  algoWidth : ℤ := 0
  algoHeight : ℤ := 0
  algoDpi : ℤ := -1
  pendingResizeMessage : Bool := false
  prevDesiredWidth : ℤ := 0
  prevDesiredHeight : ℤ := 0
  tries : ℕ := 0
  cachedDisplayIndex : ℤ := -1
  now : ℕ := 0
  /-- When the timers were started. -/
  windowResizeTimer : ℕ := 0
  monitorChangeTimer : ℕ := 0
  message : Option DimensionsMessage := none
  sentFor : Window
  reported : Size
  /-- When the window last changed or a resize event was handled, and what the loop ran at least
  the resize interval after that. -/
  lastEvent : ℕ := 0
  pendingTasksRan : Bool := false
  monitorChangeRan : Bool := false

inductive Action
  | wait (ticks : ℕ)
  | change (window : Window)
  /-- A resize event; `forced` is the pixel size after `whist_frontend_resize_window`, if called. -/
  | resizeEvent (forced : Size)
  | updatePendingTasks
  | monitorChange
  | onConnectionSetup (forced : Size)

def sendMessageDimensions (s : Client) : Client :=
  { s with
    message := some ⟨(clampDimensions s.window.size).1,(clampDimensions s.window.size).2,
      s.window.dpi⟩
    sentFor := s.window
    algoDpi := s.window.dpi }

/-- Elsewhere than on Linux the client tries to make the pixel size even, at most a few times. -/
def forceEven (B : Build) (s : Client) (forced : Size) : Client :=
  let desiredWidth := s.window.size.width - s.window.size.width % 2
  let desiredHeight := s.window.size.height - s.window.size.height % 2
  let same := s.prevDesiredWidth = desiredWidth ∧ s.prevDesiredHeight = desiredHeight
  if B.linux = true ∨ (s.window.size.width = desiredWidth ∧ s.window.size.height = desiredHeight) ∨
      (same ∧ 4 < s.tries) then s
  else
    let s := if same then { s with tries := s.tries + 1 }
      else { s with prevDesiredWidth := desiredWidth, prevDesiredHeight := desiredHeight, tries := 0 }
    { s with window := { s.window with size := forced } }

def disturbed (s : Client) : Client :=
  { s with lastEvent := s.now, pendingTasksRan := false, monitorChangeRan := false }

def sdlRendererResizeWindow (B : Build) (s : Client) (forced : Size) : Client :=
  let s := forceEven B (disturbed s) forced
  { s with
    algoWidth := s.window.size.width
    algoHeight := s.window.size.height
    reported := s.window.size
    pendingResizeMessage := true }

def Quiet (B : Build) (s : Client) : Prop := s.lastEvent + B.resizeMessageInterval ≤ s.now

instance (B : Build) (s : Client) : Decidable (Quiet B s) :=
  inferInstanceAs (Decidable (s.lastEvent + B.resizeMessageInterval ≤ s.now))

def sdlUpdatePendingTasks (B : Build) (s : Client) : Client :=
  if s.pendingResizeMessage = true ∧ B.resizeMessageInterval ≤ s.now - s.windowResizeTimer then
    { sendMessageDimensions s with pendingResizeMessage := false, windowResizeTimer := s.now }
  else s

def monitorChange (B : Build) (s : Client) : Client :=
  if B.monitorChangeInterval < s.now - s.monitorChangeTimer then
    match s.window.displayIndex with
    | none => { s with monitorChangeTimer := s.now }
    | some index =>
      if s.cachedDisplayIndex = index then { s with monitorChangeTimer := s.now }
      else if s.cachedDisplayIndex = 0 then
        { s with cachedDisplayIndex := index, monitorChangeTimer := s.now }
      else { sendMessageDimensions s with cachedDisplayIndex := index, monitorChangeTimer := s.now }
  else s

def onConnectionSetup (B : Build) (s : Client) (forced : Size) : Client :=
  sendMessageDimensions
    (sdlRendererResizeWindow B { s with windowResizeTimer := s.now, monitorChangeTimer := s.now }
      forced)

def step (B : Build) (s : Client) : Action → Client
  | .wait ticks => { s with now := s.now + ticks }
  | .change window => { disturbed s with window := window }
  | .resizeEvent forced => sdlRendererResizeWindow B s forced
  | .updatePendingTasks =>
    { sdlUpdatePendingTasks B s with
      pendingTasksRan := s.pendingTasksRan || decide (Quiet B s) }
  | .monitorChange =>
    { monitorChange B s with
      monitorChangeRan := s.monitorChangeRan || decide (Quiet B s) }
  | .onConnectionSetup forced => onConnectionSetup B s forced

def start (B : Build) (window : Window) (forced : Size) : Client :=
  onConnectionSetup B { window := window, sentFor := window, reported := window.size } forced

def Settled (s : Client) : Prop := s.pendingTasksRan = true ∧ s.monitorChangeRan = true

structure Follows (s : Client) : Prop where
  message : s.message = some ⟨(clampDimensions s.window.size).1,(clampDimensions s.window.size).2,
    s.window.dpi⟩
  width : 0 < (clampDimensions s.window.size).1
  height : 0 < (clampDimensions s.window.size).2
  width_le : (clampDimensions s.window.size).1 ≤ maxScreenWidth
  height_le : (clampDimensions s.window.size).2 ≤ maxScreenHeight
  algoSize : (s.algoWidth,s.algoHeight) = clampDimensions s.window.size
  algoDpi : s.algoDpi = s.window.dpi

def Due (s : Client) : Action → Prop
  | .updatePendingTasks => s.pendingResizeMessage = true
  | .monitorChange => ∃ index : ℕ, s.window.displayIndex = some index ∧
    s.cachedDisplayIndex ≠ index ∧ s.cachedDisplayIndex ≠ 0
  | .wait _ | .change _ | .resizeEvent _ | .onConnectionSetup _ => False

def Settles (B : Build) (s : Client) : Action → Prop
  | .updatePendingTasks => Quiet B s ∧ s.monitorChangeRan = true
  | .monitorChange => Quiet B s ∧ s.pendingTasksRan = true
  | .wait _ | .change _ | .resizeEvent _ | .onConnectionSetup _ => False

/-- When the loop comes to rest, the last resize event had the clamped size of the window, and
if no message is due the last one was sent for the same clamped size and DPI. -/
def Careful (B : Build) (s : Client) (a : Action) : Prop :=
  Settles B s a →
    (s.reported.width,s.reported.height) = clampDimensions s.window.size ∧
    (Due s a ∨ clampDimensions s.sentFor.size = clampDimensions s.window.size ∧
      s.sentFor.dpi = s.window.dpi)

def Proper (B : Build) (s : Client) (a : Action) : Prop :=
  Settled (step B s a) → Follows (step B s a)

structure Books (B : Build) (s : Client) : Prop where
  message : s.message = some ⟨(clampDimensions s.sentFor.size).1,(clampDimensions s.sentFor.size).2,
    s.sentFor.dpi⟩
  algoSize : (s.algoWidth,s.algoHeight) = (s.reported.width,s.reported.height)
  algoDpi : s.algoDpi = s.sentFor.dpi
  past : s.lastEvent ≤ s.now
  resizePast : s.windowResizeTimer ≤ s.now
  monitorPast : s.monitorChangeTimer ≤ s.now
  timer : s.pendingResizeMessage = true → s.windowResizeTimer ≤ s.lastEvent
  looked : s.lastEvent < s.monitorChangeTimer →
    ∀ index : ℕ, s.window.displayIndex = some index → s.cachedDisplayIndex = index
  tasksRan : s.pendingTasksRan = true → Quiet B s ∧ s.pendingResizeMessage = false
  monitorRan : s.monitorChangeRan = true → Quiet B s ∧
    ∀ index : ℕ, s.window.displayIndex = some index → s.cachedDisplayIndex = index

section
variable {B : Build} {s : Client}

theorem clampDimensions_le (size : Size) : (clampDimensions size).1 ≤ maxScreenWidth ∧
    (clampDimensions size).2 ≤ maxScreenHeight := by
  rw [clampDimensions]
  split_ifs with hw hh hh
  · exact ⟨min_le_right _ _,le_rfl⟩
  · exact ⟨le_rfl,not_lt.mp hh⟩
  · exact ⟨min_le_right _ _,le_rfl⟩
  · exact ⟨not_lt.mp hw,not_lt.mp hh⟩

theorem forceEven_eq (B : Build) (s : Client) (forced : Size) :
    ∃ size prevWidth prevHeight tries, forceEven B s forced =
      { s with
        window := { s.window with size := size }
        prevDesiredWidth := prevWidth
        prevDesiredHeight := prevHeight
        tries := tries } := by
  rw [forceEven]
  split_ifs <;> exact ⟨_,_,_,_,rfl⟩

theorem Books.resize (h : Books B s) (forced : Size) : Books B (sdlRendererResizeWindow B s forced) := by
  obtain ⟨size,_,_,_,heq⟩ := forceEven_eq B (disturbed s) forced
  rw [sdlRendererResizeWindow, heq]
  exact
    { message := h.message
      algoSize := rfl
      algoDpi := h.algoDpi
      past := le_rfl
      resizePast := h.resizePast
      monitorPast := h.monitorPast
      timer := fun _ => h.resizePast
      looked := fun hc => absurd hc (not_lt.mpr h.monitorPast)
      tasksRan := fun hc => by cases hc
      monitorRan := fun hc => by cases hc }

theorem Books.send (h : Books B s) : Books B (sendMessageDimensions s) where
  message := rfl
  algoSize := h.algoSize
  algoDpi := rfl
  past := h.past
  resizePast := h.resizePast
  monitorPast := h.monitorPast
  timer := h.timer
  looked := h.looked
  tasksRan := h.tasksRan
  monitorRan := h.monitorRan

theorem setup_books (B : Build) (s : Client) (forced : Size) :
    Books B (onConnectionSetup B s forced) := by
  obtain ⟨size,_,_,_,heq⟩ := forceEven_eq B (disturbed
    { s with windowResizeTimer := s.now, monitorChangeTimer := s.now }) forced
  rw [onConnectionSetup, sdlRendererResizeWindow, heq]
  exact
    { message := rfl
      algoSize := rfl
      algoDpi := rfl
      past := le_rfl
      resizePast := le_rfl
      monitorPast := le_rfl
      timer := fun _ => le_rfl
      looked := fun hc => absurd hc (lt_irrefl _)
      tasksRan := fun hc => by cases hc
      monitorRan := fun hc => by cases hc }

theorem Books.tasks (h : Books B s) : Books B (step B s .updatePendingTasks) ∧
    (Quiet B s → Due s .updatePendingTasks →
      (step B s .updatePendingTasks).sentFor = s.window) ∧
    (¬Due s .updatePendingTasks → (step B s .updatePendingTasks).sentFor = s.sentFor) := by
  rw [step, sdlUpdatePendingTasks]
  split_ifs with hc
  · have hs := h.send
    exact ⟨
      { message := hs.message
        algoSize := hs.algoSize
        algoDpi := hs.algoDpi
        past := hs.past
        resizePast := le_rfl
        monitorPast := hs.monitorPast
        timer := fun hp => by cases hp
        looked := hs.looked
        tasksRan := fun hr => by
          rw [Bool.or_eq_true, decide_eq_true_eq] at hr
          exact ⟨hr.elim (fun hr => (h.tasksRan hr).1) id,rfl⟩
        monitorRan := hs.monitorRan },fun _ _ => rfl,fun hnot => absurd hc.1 hnot⟩
  · have hquiet : Quiet B s → s.pendingResizeMessage = false := by
      intro hq
      by_contra hp
      have hp := (Bool.not_eq_false _).mp hp
      have htimer := h.timer hp
      rw [Quiet] at hq
      exact hc ⟨hp,by omega⟩
    exact ⟨
      { message := h.message
        algoSize := h.algoSize
        algoDpi := h.algoDpi
        past := h.past
        resizePast := h.resizePast
        monitorPast := h.monitorPast
        timer := h.timer
        looked := h.looked
        tasksRan := fun hr => by
          rw [Bool.or_eq_true, decide_eq_true_eq] at hr
          exact hr.elim h.tasksRan (fun hq => ⟨hq,hquiet hq⟩)
        monitorRan := h.monitorRan },fun hq hdue => absurd (hquiet hq) (by rw [hdue]; decide),
      fun _ => rfl⟩

theorem Books.look (h : Books B s) {cached : ℤ} {ran : Bool}
    (hcached : ∀ index : ℕ, s.window.displayIndex = some index → cached = index)
    (hran : ran = true → Quiet B s) :
    Books B { s with
      cachedDisplayIndex := cached
      monitorChangeTimer := s.now
      monitorChangeRan := ran } where
  message := h.message
  algoSize := h.algoSize
  algoDpi := h.algoDpi
  past := h.past
  resizePast := h.resizePast
  monitorPast := le_rfl
  timer := h.timer
  looked _ := hcached
  tasksRan := h.tasksRan
  monitorRan hr := ⟨hran hr,hcached⟩

theorem Books.monitor (h : Books B s) : Books B (step B s .monitorChange) ∧
    (Quiet B s → Due s .monitorChange → (step B s .monitorChange).sentFor = s.window) ∧
    (¬Due s .monitorChange → (step B s .monitorChange).sentFor = s.sentFor) := by
  have hran : (s.monitorChangeRan || decide (Quiet B s)) = true → Quiet B s := by
    intro hr
    rw [Bool.or_eq_true, decide_eq_true_eq] at hr
    exact hr.elim (fun hr => (h.monitorRan hr).1) id
  rw [step, monitorChange]
  by_cases htimer : B.monitorChangeInterval < s.now - s.monitorChangeTimer
  · rw [if_pos htimer]
    cases hindex : s.window.displayIndex with
    | none =>
      refine ⟨h.look (fun index hi => ?_) hran,fun _ hdue => ?_,fun _ => rfl⟩
      · rw [hindex] at hi
        cases hi
      · obtain ⟨index,hi,_⟩ := hdue
        rw [hindex] at hi
        cases hi
    | some index =>
      have hsame : ∀ i : ℕ, s.window.displayIndex = some i → (index : ℤ) = i := by
        intro i hi
        rw [hindex, Option.some.injEq] at hi
        rw [hi]
      dsimp only
      split_ifs with heq hzero
      · refine ⟨h.look (fun i hi => heq.trans (hsame i hi)) hran,fun _ hdue => ?_,fun _ => rfl⟩
        obtain ⟨i,hi,hne,_⟩ := hdue
        exact absurd (heq.trans (hsame i hi)) hne
      · refine ⟨h.look hsame hran,fun _ hdue => ?_,fun _ => rfl⟩
        obtain ⟨_,_,_,hne⟩ := hdue
        exact absurd hzero hne
      · refine ⟨h.send.look hsame hran,fun _ _ => rfl,fun hnot => ?_⟩
        exact absurd ⟨index,hindex,heq,hzero⟩ hnot
  · rw [if_neg htimer]
    -- The display was looked at since the last change.
    have hlooked : Quiet B s → ∀ index : ℕ, s.window.displayIndex = some index →
        s.cachedDisplayIndex = index := by
      intro hq
      apply h.looked
      have hlt := B.monitor_lt_resize
      have hpast := h.monitorPast
      rw [Quiet] at hq
      omega
    refine ⟨?_,fun hq hdue => ?_,fun _ => rfl⟩
    · exact
        { message := h.message
          algoSize := h.algoSize
          algoDpi := h.algoDpi
          past := h.past
          resizePast := h.resizePast
          monitorPast := h.monitorPast
          timer := h.timer
          looked := h.looked
          tasksRan := h.tasksRan
          monitorRan := fun hr => ⟨hran hr,hlooked (hran hr)⟩ }
    · obtain ⟨index,hi,hne,_⟩ := hdue
      exact absurd (hlooked hq index hi) hne

theorem Books.step (h : Books B s) (a : Action) : Books B (step B s a) := by
  cases a with
  | wait ticks =>
    have hq : Quiet B s → Quiet B { s with now := s.now + ticks } := fun hq =>
      Nat.le_add_right_of_le hq
    exact
      { message := h.message
        algoSize := h.algoSize
        algoDpi := h.algoDpi
        past := Nat.le_add_right_of_le h.past
        resizePast := Nat.le_add_right_of_le h.resizePast
        monitorPast := Nat.le_add_right_of_le h.monitorPast
        timer := h.timer
        looked := h.looked
        tasksRan := fun hr => ⟨hq (h.tasksRan hr).1,(h.tasksRan hr).2⟩
        monitorRan := fun hr => ⟨hq (h.monitorRan hr).1,(h.monitorRan hr).2⟩ }
  | change window =>
    exact
      { message := h.message
        algoSize := h.algoSize
        algoDpi := h.algoDpi
        past := le_rfl
        resizePast := h.resizePast
        monitorPast := h.monitorPast
        timer := fun _ => h.resizePast
        looked := fun hc => absurd hc (not_lt.mpr h.monitorPast)
        tasksRan := fun hc => by cases hc
        monitorRan := fun hc => by cases hc }
  | resizeEvent forced => exact h.resize forced
  | updatePendingTasks => exact h.tasks.1
  | monitorChange => exact h.monitor.1
  | onConnectionSetup forced => exact setup_books B s forced

theorem Books.follows_iff (h : Books B s) : Follows s ↔
    (s.reported.width,s.reported.height) = clampDimensions s.window.size ∧
      clampDimensions s.sentFor.size = clampDimensions s.window.size ∧
      s.sentFor.dpi = s.window.dpi := by
  constructor
  · intro hf
    have hmessage := hf.message
    rw [h.message, Option.some.injEq, DimensionsMessage.mk.injEq] at hmessage
    exact ⟨h.algoSize.symm.trans hf.algoSize,Prod.ext hmessage.1 hmessage.2.1,hmessage.2.2⟩
  · rintro ⟨hreported,hsize,hdpi⟩
    constructor
    case message => rw [h.message, hsize, hdpi]
    case width =>
      rw [← hreported]
      exact s.reported.width_pos
    case height =>
      rw [← hreported]
      exact s.reported.height_pos
    case width_le => exact (clampDimensions_le _).1
    case height_le => exact (clampDimensions_le _).2
    case algoSize => exact h.algoSize.trans hreported
    case algoDpi => exact h.algoDpi.trans hdpi

theorem tasks_window (B : Build) (s : Client) :
    (step B s .updatePendingTasks).window = s.window ∧
      (step B s .updatePendingTasks).reported = s.reported ∧
      (step B s .updatePendingTasks).monitorChangeRan = s.monitorChangeRan := by
  rw [step, sdlUpdatePendingTasks]
  split_ifs <;> exact ⟨rfl,rfl,rfl⟩

theorem monitor_window (B : Build) (s : Client) :
    (step B s .monitorChange).window = s.window ∧
      (step B s .monitorChange).reported = s.reported ∧
      (step B s .monitorChange).pendingTasksRan = s.pendingTasksRan := by
  rw [step, monitorChange]
  by_cases htimer : B.monitorChangeInterval < s.now - s.monitorChangeTimer
  · rw [if_pos htimer]
    split
    · exact ⟨rfl,rfl,rfl⟩
    · split_ifs <;> exact ⟨rfl,rfl,rfl⟩
  · rw [if_neg htimer]
    exact ⟨rfl,rfl,rfl⟩

theorem resize_unsettled (B : Build) (s : Client) (forced : Size) :
    ¬Settled (sdlRendererResizeWindow B s forced) := by
  obtain ⟨size,_,_,_,heq⟩ := forceEven_eq B (disturbed s) forced
  rw [sdlRendererResizeWindow, heq]
  rintro ⟨hran,_⟩
  cases hran

theorem Books.step_iff (h : Books B s) {a : Action} (hwindow : (Dimensions.step B s a).window = s.window)
    (hreported : (Dimensions.step B s a).reported = s.reported)
    (hdue : Due s a → (Dimensions.step B s a).sentFor = s.window)
    (hnot : ¬Due s a → (Dimensions.step B s a).sentFor = s.sentFor) :
    Follows (Dimensions.step B s a) ↔
      (s.reported.width,s.reported.height) = clampDimensions s.window.size ∧
      (Due s a ∨ clampDimensions s.sentFor.size = clampDimensions s.window.size ∧
        s.sentFor.dpi = s.window.dpi) := by
  rw [(h.step a).follows_iff, hwindow, hreported]
  by_cases hd : Due s a
  · rw [hdue hd]
    exact and_congr_right fun _ => ⟨fun _ => .inl hd,fun _ => ⟨rfl,rfl⟩⟩
  · rw [hnot hd, or_iff_right hd]

structure Inv (B : Build) (s : Client) : Prop where
  books : Books B s
  follows : Settled s → Follows s

theorem Inv.proper_iff (h : Inv B s) (a : Action) : Careful B s a ↔ Proper B s a := by
  cases a with
  | wait ticks =>
    have hf : Follows s → Follows (Dimensions.step B s (.wait ticks)) := fun hf => { hf with }
    exact ⟨fun _ hs => hf (h.follows hs),fun _ hs => hs.elim⟩
  | change window =>
    refine ⟨fun _ hs => ?_,fun _ hs => hs.elim⟩
    obtain ⟨hran,_⟩ := hs
    cases hran
  | resizeEvent forced =>
    exact ⟨fun _ hs => absurd hs (resize_unsettled B s forced),fun _ hs => hs.elim⟩
  | onConnectionSetup forced =>
    exact ⟨fun _ hs => absurd hs (resize_unsettled B _ forced),fun _ hs => hs.elim⟩
  | updatePendingTasks =>
    obtain ⟨hwindow,hreported,hran⟩ := tasks_window B s
    have hsettled : Settled (Dimensions.step B s .updatePendingTasks) ↔
        Settles B s .updatePendingTasks := by
      rw [Settled, hran]
      refine and_congr_left fun _ => ?_
      rw [Dimensions.step]
      simp only [Bool.or_eq_true, decide_eq_true_eq]
      exact ⟨fun hr => hr.elim (fun hr => (h.books.tasksRan hr).1) id,.inr⟩
    rw [Proper, hsettled, Careful]
    refine forall_congr' fun hs => ?_
    exact (h.books.step_iff hwindow hreported (h.books.tasks.2.1 hs.1) h.books.tasks.2.2).symm
  | monitorChange =>
    obtain ⟨hwindow,hreported,hran⟩ := monitor_window B s
    have hsettled : Settled (Dimensions.step B s .monitorChange) ↔ Settles B s .monitorChange := by
      rw [Settled, hran, and_comm]
      refine and_congr_left fun _ => ?_
      rw [Dimensions.step]
      simp only [Bool.or_eq_true, decide_eq_true_eq]
      exact ⟨fun hr => hr.elim (fun hr => (h.books.monitorRan hr).1) id,.inr⟩
    rw [Proper, hsettled, Careful]
    refine forall_congr' fun hs => ?_
    exact (h.books.step_iff hwindow hreported (h.books.monitor.2.1 hs.1) h.books.monitor.2.2).symm

theorem Inv.careful (h : Inv B s) {a : Action} (hc : Careful B s a) :
    Inv B (Dimensions.step B s a) :=
  ⟨h.books.step a,(h.proper_iff a).1 hc⟩

end

theorem inv_start (B : Build) (window : Window) (forced : Size) : Inv B (start B window forced) where
  books := setup_books B _ forced
  follows hs := absurd hs (resize_unsettled B _ forced)

end Whist.Dimensions
