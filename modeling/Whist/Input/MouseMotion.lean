import Whist.Foundation.Run

/-! # Mouse motion

Motion events are accumulated and sent at the end of a batch of events, at most every half
millisecond; mouse buttons are sent at once.  The trace holds what was received and what was
given to the connection, latest first.
-/
namespace Whist.Motion
open Run

structure FrontendMouseMotionEvent where
  absolute : ℤ × ℤ
  relative : ℤ × ℤ
  relativeMode : Bool
deriving DecidableEq

/-- The events; those that do not touch the mouse state and are no buttons are `other`. -/
inductive FrontendEvent
  | mouseMotion (event : FrontendMouseMotionEvent)
  | mouseButton (button : ℕ) (pressed : Bool)
  | other
deriving DecidableEq

structure WhistMouseMotionMessage where
  relative : Bool
  x : ℤ
  y : ℤ
  xNonrel : ℤ
  yNonrel : ℤ
deriving DecidableEq

structure MouseMotionAccumulation where
  xNonrel : ℤ := 0
  yNonrel : ℤ := 0
  xRel : ℤ := 0
  yRel : ℤ := 0
  isRelative : Bool := false
  update : Bool := false

/-- A motion message is kept with the virtual size of the window it was computed for. -/
inductive Entry
  | received (event : FrontendMouseMotionEvent)
  | motion (message : WhistMouseMotionMessage) (virtualWidth virtualHeight : ℤ)
  | button (button : ℕ) (pressed : Bool)

structure Client where
  mouseState : MouseMotionAccumulation := {}
  firstMouseMotion : Bool := true
  /-- The main loop ends when a motion message cannot be sent. -/
  running : Bool := true
  trace : List Entry := []

/-- A call of `handle_frontend_events`: the events it gets, whether the throttle's timer is over
0.5 ms at their end, the window's virtual size, and whether `send_wcmsg` takes the motion. -/
structure Call where
  events : List FrontendEvent
  timerOver : Bool
  virtualWidth : ℤ
  virtualHeight : ℤ
  sent : Bool

def mouseScalingFactor : ℤ := 100000

/-- A coordinate as `update_mouse_motion` computes it; C divides towards zero. -/
def scaled (coordinate extent : ℤ) : ℤ :=
  let nonrel := (coordinate * mouseScalingFactor).tdiv extent
  if nonrel < 0 then 0
  else if mouseScalingFactor ≤ nonrel then mouseScalingFactor - 1
  else nonrel

def handleMouseMotionEvent (m : MouseMotionAccumulation) (event : FrontendMouseMotionEvent) :
    MouseMotionAccumulation where
  xNonrel := event.absolute.1
  yNonrel := event.absolute.2
  xRel := m.xRel + event.relative.1
  yRel := m.yRel + event.relative.2
  isRelative := event.relativeMode
  update := true

def handleFrontendEvent (s : Client) : FrontendEvent → Client
  | .mouseMotion event =>
    { s with
      mouseState := handleMouseMotionEvent s.mouseState event
      trace := .received event :: s.trace }
  | .mouseButton button pressed => { s with trace := .button button pressed :: s.trace }
  | .other => s

def motionMessage (m : MouseMotionAccumulation) (virtualWidth virtualHeight : ℤ) :
    WhistMouseMotionMessage :=
  let xNonrel := scaled m.xNonrel virtualWidth
  let yNonrel := scaled m.yNonrel virtualHeight
  { relative := m.isRelative
    x := if m.isRelative then m.xRel else xNonrel
    y := if m.isRelative then m.yRel else yNonrel
    xNonrel := xNonrel
    yNonrel := yNonrel }

/-- The result says whether the function returns 0. -/
def updateMouseMotion (s : Client) (c : Call) : Bool × Client :=
  if s.mouseState.update then
    if c.sent then
      (true,{ s with
        mouseState := { s.mouseState with update := false, xRel := 0, yRel := 0 }
        trace := .motion (motionMessage s.mouseState c.virtualWidth c.virtualHeight)
          c.virtualWidth c.virtualHeight :: s.trace })
    else (false,s)
  else (true,s)

def throttled (s : Client) (c : Call) : Client :=
  if s.firstMouseMotion || c.timerOver then
    match updateMouseMotion s c with
    | (false,s) => { s with running := false }
    | (true,s) => { s with firstMouseMotion := false }
  else s

def handleFrontendEvents (s : Client) (c : Call) : Client :=
  match c.events with
  | [] => s
  | event :: events => throttled ((event :: events).foldl handleFrontendEvent s) c

def step (s : Client) (c : Call) : Client :=
  if s.running then handleFrontendEvents s c else s

def latest : List Entry → Option FrontendMouseMotionEvent
  | [] => none
  | .received event :: _ => some event
  | _ :: trace => latest trace

def lastSent : List Entry → Option (WhistMouseMotionMessage × ℤ × ℤ)
  | [] => none
  | .motion message width height :: _ => some (message,width,height)
  | _ :: trace => lastSent trace

def unsent : List Entry → List FrontendMouseMotionEvent
  | [] => []
  | .received event :: trace => event :: unsent trace
  | .motion .. :: _ => []
  | .button .. :: trace => unsent trace

def receivedRelative : List Entry → ℤ × ℤ
  | [] => 0
  | .received event :: trace =>
    (if event.relativeMode then event.relative else 0) + receivedRelative trace
  | _ :: trace => receivedRelative trace

def sentRelative : List Entry → ℤ × ℤ
  | [] => 0
  | .motion message _ _ :: trace =>
    (if message.relative then (message.x,message.y) else 0) + sentRelative trace
  | _ :: trace => sentRelative trace

def Carries (message : WhistMouseMotionMessage × ℤ × ℤ) (event : FrontendMouseMotionEvent) : Prop :=
  message.1.relative = event.relativeMode ∧ (event.relativeMode = false →
    message.1.x = scaled event.absolute.1 message.2.1 ∧
      message.1.y = scaled event.absolute.2 message.2.2)

def Lands (trace : List Entry) : Prop :=
  ∀ event ∈ latest trace, ∃ message ∈ lastSent trace, Carries message event

def ButtonsLand : List Entry → Prop
  | [] => True
  | .button .. :: trace => Lands trace ∧ ButtonsLand trace
  | _ :: trace => ButtonsLand trace

def MotionKept : List Entry → Prop
  | [] => True
  | .motion message width height :: trace =>
    sentRelative (.motion message width height :: trace) = receivedRelative trace ∧
      (∀ event ∈ unsent trace, event.relativeMode = message.relative) ∧ MotionKept trace
  | _ :: trace => MotionKept trace

def SentWithoutEvent (s : Client) : Prop :=
  ∃ calls : List Call, (∀ c ∈ calls, c.events = []) ∧ unsent (calls.foldl step s).trace = []

structure Proper (s : Client) : Prop where
  buttons : ButtonsLand s.trace
  kept : MotionKept s.trace
  sent : SentWithoutEvent s

def motions (events : List FrontendEvent) : List FrontendMouseMotionEvent :=
  events.filterMap fun
    | .mouseMotion event => some event
    | _ => none

def FrontendEvent.isButton : FrontendEvent → Bool
  | .mouseButton .. => true
  | _ => false

def ButtonsCareful (s : Client) (events : List FrontendEvent) : Prop :=
  ∀ before event after, events = before ++ event :: after → event.isButton = true →
    ∀ motion ∈ (motions before).getLast?, ∃ message ∈ lastSent s.trace, Carries message motion

/-- And the motions of the batch have one mode and are sent at its end. -/
structure Careful (s : Client) (c : Call) : Prop where
  buttons : ButtonsCareful s c.events
  mode : ∀ a ∈ motions c.events, ∀ b ∈ motions c.events, a.relativeMode = b.relativeMode
  flushed : motions c.events ≠ [] →
    (s.firstMouseMotion = true ∨ c.timerOver = true) ∧ c.sent = true

structure Inv (s : Client) : Prop where
  running : s.running = true
  update : s.mouseState.update = false
  xRel : s.mouseState.xRel = 0
  yRel : s.mouseState.yRel = 0
  unsent : unsent s.trace = []
  sums : sentRelative s.trace = receivedRelative s.trace
  lands : Lands s.trace
  buttons : ButtonsLand s.trace
  kept : MotionKept s.trace

section
variable {s t : Client} {events : List FrontendEvent} {c : Call}

theorem buttonsCareful_nil (s : Client) : ButtonsCareful s [] :=
  fun _ _ _ h => absurd h (by simp)

theorem buttonsCareful_concat (s : Client) (events : List FrontendEvent) (event : FrontendEvent) :
    ButtonsCareful s (events ++ [event]) ↔ ButtonsCareful s events ∧ (event.isButton = true →
      ∀ motion ∈ (motions events).getLast?, ∃ message ∈ lastSent s.trace, Carries message motion) := by
  constructor
  · intro h
    exact ⟨fun before e after he => h before e (after ++ [event]) (by simp [he]),
      h events event [] rfl⟩
  · rintro ⟨hevents,hevent⟩ before e after he
    rcases List.eq_nil_or_concat after with rfl | ⟨after',last,rfl⟩
    · obtain ⟨rfl,hlast⟩ := List.append_inj' he rfl
      obtain rfl := List.singleton_inj.mp hlast
      exact hevent
    · rw [List.concat_eq_append, ← List.cons_append, ← List.append_assoc] at he
      exact hevents before e after' (List.append_inj' he rfl).1

/-- The state in the middle of a batch that started in `s`. -/
structure Batched (s : Client) (events : List FrontendEvent) (t : Client) : Prop where
  running : t.running = true
  first : t.firstMouseMotion = s.firstMouseMotion
  lastSent : lastSent t.trace = lastSent s.trace
  latest : latest t.trace = (motions events).getLast?.or (latest s.trace)
  unsent : unsent t.trace = (motions events).reverse
  update : t.mouseState.update = !(motions events).isEmpty
  nonrel : ∀ motion ∈ (motions events).getLast?, t.mouseState.isRelative = motion.relativeMode ∧
    (t.mouseState.xNonrel,t.mouseState.yNonrel) = motion.absolute
  rel : (t.mouseState.xRel,t.mouseState.yRel) = ((motions events).map (·.relative)).sum
  sent : sentRelative t.trace = sentRelative s.trace
  received : receivedRelative t.trace = sentRelative s.trace +
    ((motions events).map fun motion => if motion.relativeMode then motion.relative else 0).sum
  buttons : ButtonsLand t.trace ↔ ButtonsCareful s events
  kept : MotionKept t.trace

theorem Inv.batched_nil (h : Inv s) : Batched s [] s where
  running := h.running
  first := rfl
  lastSent := rfl
  latest := rfl
  unsent := h.unsent
  update := h.update
  nonrel _ hm := by cases hm
  rel := Prod.ext h.xRel h.yRel
  sent := rfl
  received := by simp [motions, h.sums]
  buttons := ⟨fun _ => buttonsCareful_nil s,fun _ => h.buttons⟩
  kept := h.kept

theorem motions_concat (events : List FrontendEvent) (event : FrontendEvent) :
    motions (events ++ [event]) = motions events ++ motions [event] := by
  rw [motions, List.filterMap_append]
  rfl

theorem Batched.motion (h : Batched s events t) (event : FrontendMouseMotionEvent) :
    Batched s (events ++ [.mouseMotion event]) (handleFrontendEvent t (.mouseMotion event)) := by
  have hm : motions (events ++ [.mouseMotion event]) = motions events ++ [event] :=
    motions_concat events _
  constructor
  case running => exact h.running
  case first => exact h.first
  case lastSent => exact h.lastSent
  case latest => simp [hm, handleFrontendEvent, Motion.latest]
  case unsent => simp [hm, handleFrontendEvent, Motion.unsent, h.unsent]
  case update => simp [hm, handleFrontendEvent, handleMouseMotionEvent]
  case nonrel => simp [hm, handleFrontendEvent, handleMouseMotionEvent]
  case rel =>
    rw [hm, List.map_append, List.sum_append, ← h.rel]
    simp [handleFrontendEvent, handleMouseMotionEvent, Prod.ext_iff]
  case sent => exact h.sent
  case received =>
    rw [hm, List.map_append, List.sum_append, ← add_assoc, ← h.received]
    simp [handleFrontendEvent, receivedRelative, add_comm]
  case buttons =>
    rw [buttonsCareful_concat]
    exact ⟨fun hb => ⟨h.buttons.1 hb,fun hc => by cases hc⟩,fun hb => h.buttons.2 hb.1⟩
  case kept => exact h.kept

theorem Batched.lands_iff (h : Batched s events t) (hs : Lands s.trace) :
    Lands t.trace ↔ ∀ motion ∈ (motions events).getLast?,
      ∃ message ∈ Motion.lastSent s.trace, Carries message motion := by
  rw [Lands, h.latest, h.lastSent]
  cases (motions events).getLast? with
  | none => exact ⟨fun _ _ hc => (by cases hc),fun _ => hs⟩
  | some motion => rfl

theorem Batched.button (h : Batched s events t) (hs : Lands s.trace) (button : ℕ) (pressed : Bool) :
    Batched s (events ++ [.mouseButton button pressed])
      (handleFrontendEvent t (.mouseButton button pressed)) := by
  have hm : motions (events ++ [.mouseButton button pressed]) = motions events := by
    rw [motions_concat]
    exact List.append_nil _
  constructor
  case running => exact h.running
  case first => exact h.first
  case lastSent => exact h.lastSent
  case latest => exact hm ▸ h.latest
  case unsent => exact hm ▸ h.unsent
  case update => exact hm ▸ h.update
  case nonrel => exact hm ▸ h.nonrel
  case rel => exact hm ▸ h.rel
  case sent => exact h.sent
  case received => exact hm ▸ h.received
  case buttons =>
    rw [buttonsCareful_concat, ← h.buttons, ← h.lands_iff hs]
    exact ⟨fun hb => ⟨hb.2,fun _ => hb.1⟩,fun hb => ⟨hb.2 rfl,hb.1⟩⟩
  case kept => exact h.kept

theorem Batched.other (h : Batched s events t) : Batched s (events ++ [.other]) t := by
  have hm : motions (events ++ [.other]) = motions events := by
    rw [motions_concat]
    exact List.append_nil _
  constructor
  case running => exact h.running
  case first => exact h.first
  case lastSent => exact h.lastSent
  case latest => exact hm ▸ h.latest
  case unsent => exact hm ▸ h.unsent
  case update => exact hm ▸ h.update
  case nonrel => exact hm ▸ h.nonrel
  case rel => exact hm ▸ h.rel
  case sent => exact h.sent
  case received => exact hm ▸ h.received
  case buttons =>
    rw [buttonsCareful_concat, h.buttons]
    exact ⟨fun hb => ⟨hb,fun hc => by cases hc⟩,And.left⟩
  case kept => exact h.kept

theorem Inv.batched (h : Inv s) (events : List FrontendEvent) :
    Batched s events (events.foldl handleFrontendEvent s) := by
  induction events using List.reverseRecOn with
  | nil => exact h.batched_nil
  | append_singleton events event ih =>
    rw [List.foldl_append]
    cases event with
    | mouseMotion event => exact ih.motion event
    | mouseButton button pressed => exact ih.button h.lands button pressed
    | other => exact ih.other

theorem sentWithoutEvent_iff (s : Client) : SentWithoutEvent s ↔ Motion.unsent s.trace = [] := by
  constructor
  · rintro ⟨calls,hcalls,hsent⟩
    have hidle : calls.foldl step s = s := by
      clear hsent
      induction calls with
      | nil => rfl
      | cons c calls ih =>
        have hc : step s c = s := by
          rw [step, handleFrontendEvents, hcalls c (List.mem_cons_self ..), ite_self]
        rw [List.foldl_cons, hc]
        exact ih (fun c hm => hcalls c (List.mem_cons_of_mem _ hm))
    rwa [hidle] at hsent
  · intro h
    exact ⟨[],by simp,h⟩

theorem throttled_kept (s : Client) (h : (s.firstMouseMotion || c.timerOver) = false) :
    throttled s c = s := by
  rw [throttled, h]
  rfl

theorem throttled_idle (h : s.mouseState.update = false) :
    (throttled s c).trace = s.trace ∧ (throttled s c).running = s.running ∧
      (throttled s c).mouseState = s.mouseState := by
  rw [throttled, updateMouseMotion, h]
  split <;> exact ⟨rfl,rfl,rfl⟩

theorem throttled_failed (hc : c.sent = false) : (throttled s c).trace = s.trace := by
  rw [throttled, updateMouseMotion, hc]
  cases s.mouseState.update <;> cases s.firstMouseMotion || c.timerOver <;> rfl

theorem throttled_sent (h : s.mouseState.update = true)
    (hthrottle : (s.firstMouseMotion || c.timerOver) = true) (hc : c.sent = true) :
    throttled s c = { s with
      mouseState := { s.mouseState with update := false, xRel := 0, yRel := 0 }
      trace := .motion (motionMessage s.mouseState c.virtualWidth c.virtualHeight)
        c.virtualWidth c.virtualHeight :: s.trace
      firstMouseMotion := false } := by
  rw [throttled, updateMouseMotion, h, hthrottle, hc]
  rfl

theorem Batched.carries (h : Batched s events t) {motion : FrontendMouseMotionEvent}
    (hlast : motion ∈ (motions events).getLast?) (c : Call) :
    Carries (motionMessage t.mouseState c.virtualWidth c.virtualHeight,c.virtualWidth,
      c.virtualHeight) motion := by
  obtain ⟨hmode,hpos⟩ := h.nonrel motion hlast
  refine ⟨hmode,fun hnormal => ?_⟩
  rw [hnormal] at hmode
  simp [motionMessage, hmode, ← hpos]

theorem Batched.sum (h : Batched s events t) (c : Call)
    (hmode : ∀ motion ∈ motions events, motion.relativeMode = t.mouseState.isRelative) :
    sentRelative (.motion (motionMessage t.mouseState c.virtualWidth c.virtualHeight)
      c.virtualWidth c.virtualHeight :: t.trace) = receivedRelative t.trace := by
  rw [h.received, sentRelative, h.sent, add_comm]
  congr 1
  cases hrel : t.mouseState.isRelative with
  | false =>
    have hzero : ∀ motion ∈ motions events,
        (if motion.relativeMode then motion.relative else 0) = 0 := fun motion hm => by
      rw [hmode motion hm, hrel]
      rfl
    rw [List.map_congr_left hzero, List.map_const', List.sum_replicate, smul_zero]
    simp [motionMessage, hrel]
  | true =>
    have hall : ∀ motion ∈ motions events,
        (if motion.relativeMode then motion.relative else 0) = motion.relative := fun motion hm => by
      rw [hmode motion hm, hrel]
      rfl
    rw [List.map_congr_left hall, ← h.rel]
    simp [motionMessage, hrel]

theorem Batched.mode_iff (h : Batched s events t) :
    (∀ motion ∈ motions events, motion.relativeMode = t.mouseState.isRelative) ↔
      ∀ a ∈ motions events, ∀ b ∈ motions events, a.relativeMode = b.relativeMode := by
  constructor
  · intro hmode a ha b hb
    rw [hmode a ha, hmode b hb]
  · intro hmode motion hm
    have hne : motions events ≠ [] := List.ne_nil_of_mem hm
    have hlast := List.getLast?_eq_some_getLast hne
    rw [(h.nonrel _ hlast).1]
    exact hmode motion hm _ (List.getLast_mem hne)

theorem Inv.step_eq (h : Inv s) (c : Call) :
    step s c = if c.events = [] then s else throttled (c.events.foldl handleFrontendEvent s) c := by
  rw [step, if_pos h.running, handleFrontendEvents]
  cases c.events <;> rfl

theorem Inv.step_still (h : Inv s) (hm : motions c.events = []) :
    Batched s c.events { step s c with firstMouseMotion := s.firstMouseMotion } := by
  rw [h.step_eq]
  split_ifs with hnil
  · rw [hnil]
    exact h.batched_nil
  · have hb := h.batched c.events
    obtain ⟨htrace,hrunning,hstate⟩ := @throttled_idle _ c (by rw [hb.update, hm]; rfl)
    exact
      { running := hrunning.trans hb.running
        first := rfl
        lastSent := htrace ▸ hb.lastSent
        latest := htrace ▸ hb.latest
        unsent := htrace ▸ hb.unsent
        update := hstate ▸ hb.update
        nonrel := hstate ▸ hb.nonrel
        rel := hstate ▸ hb.rel
        sent := htrace ▸ hb.sent
        received := htrace ▸ hb.received
        buttons := htrace ▸ hb.buttons
        kept := htrace ▸ hb.kept }

theorem Inv.step_unsent (h : Inv s) (hm : motions c.events ≠ [])
    (hflush : ¬((s.firstMouseMotion = true ∨ c.timerOver = true) ∧ c.sent = true)) :
    ¬SentWithoutEvent (step s c) := by
  have hb := h.batched c.events
  have hnil : c.events ≠ [] := fun hc => hm (by rw [hc]; rfl)
  have htrace : (step s c).trace = (c.events.foldl handleFrontendEvent s).trace := by
    rw [h.step_eq, if_neg hnil]
    by_cases hc : c.sent = true
    · have hthrottle : (s.firstMouseMotion || c.timerOver) = false := by
        rw [← Bool.not_eq_true, Bool.or_eq_true]
        exact fun ht => hflush ⟨ht,hc⟩
      rw [throttled_kept _ (by rw [hb.first, hthrottle])]
    · exact throttled_failed (Bool.not_eq_true _ ▸ hc)
  rw [sentWithoutEvent_iff, htrace, hb.unsent]
  exact fun hc => hm (List.reverse_eq_nil_iff.mp hc)

theorem Inv.step_sent (h : Inv s) (hm : motions c.events ≠ [])
    (hflush : (s.firstMouseMotion = true ∨ c.timerOver = true) ∧ c.sent = true) :
    step s c = { c.events.foldl handleFrontendEvent s with
      mouseState := { (c.events.foldl handleFrontendEvent s).mouseState with
        update := false, xRel := 0, yRel := 0 }
      trace := .motion (motionMessage (c.events.foldl handleFrontendEvent s).mouseState
        c.virtualWidth c.virtualHeight) c.virtualWidth c.virtualHeight ::
          (c.events.foldl handleFrontendEvent s).trace
      firstMouseMotion := false } := by
  have hb := h.batched c.events
  have hnil : c.events ≠ [] := fun hc => hm (by rw [hc]; rfl)
  rw [h.step_eq, if_neg hnil, throttled_sent _ (by rw [hb.first, Bool.or_eq_true]; exact hflush.1)
    hflush.2]
  rw [hb.update, Bool.not_eq_true', List.isEmpty_eq_false_iff]
  exact hm

theorem Inv.proper_iff (h : Inv s) (c : Call) : Careful s c ↔ Proper (step s c) := by
  by_cases hm : motions c.events = []
  · have hb := h.step_still hm
    have hsent : SentWithoutEvent (step s c) := by
      rw [sentWithoutEvent_iff, hb.unsent, hm]
      rfl
    constructor
    · intro hc
      exact ⟨hb.buttons.2 hc.buttons,hb.kept,hsent⟩
    · intro hp
      refine ⟨hb.buttons.1 hp.buttons,?_,fun hne => absurd hm hne⟩
      rw [hm]
      exact fun _ ha => by cases ha
  by_cases hflush : (s.firstMouseMotion = true ∨ c.timerOver = true) ∧ c.sent = true
  · have hb := h.batched c.events
    rw [h.step_sent hm hflush]
    constructor
    · intro hc
      have hmode := hb.mode_iff.2 hc.mode
      refine ⟨hb.buttons.2 hc.buttons,⟨hb.sum c hmode,?_,hb.kept⟩,(sentWithoutEvent_iff _).2 rfl⟩
      rw [hb.unsent]
      exact fun event he => hmode event (List.mem_reverse.mp he)
    · intro hp
      refine ⟨hb.buttons.1 hp.buttons,hb.mode_iff.1 fun motion hmotion => ?_,fun _ => hflush⟩
      have hkept := hp.kept.2.1
      rw [hb.unsent] at hkept
      exact hkept motion (List.mem_reverse.mpr hmotion)
  · constructor
    · intro hc
      exact absurd (hc.flushed hm) hflush
    · intro hp
      exact absurd hp.sent (h.step_unsent hm hflush)

theorem Inv.careful (h : Inv s) (hc : Careful s c) : Inv (step s c) := by
  have hp := (h.proper_iff c).1 hc
  by_cases hm : motions c.events = []
  · have hb := h.step_still hm
    have hrel := hb.rel
    have hreceived := hb.received
    rw [hm] at hrel hreceived
    exact
      { running := hb.running
        update := by rw [hb.update, hm]; rfl
        xRel := congrArg Prod.fst hrel
        yRel := congrArg Prod.snd hrel
        unsent := by rw [hb.unsent, hm]; rfl
        sums := by rw [hb.sent, hreceived, List.map_nil, List.sum_nil, add_zero]
        lands := (hb.lands_iff h.lands).2 (by rw [hm]; exact fun _ hc => by cases hc)
        buttons := hp.buttons
        kept := hp.kept }
  · have hb := h.batched c.events
    have hlast := List.getLast?_eq_some_getLast hm
    have hstep := h.step_sent hm (hc.flushed hm)
    rw [hstep] at hp ⊢
    exact
      { running := hb.running
        update := rfl
        xRel := rfl
        yRel := rfl
        unsent := rfl
        sums := hp.kept.1
        lands := fun event he => by
          have heq : event = (motions c.events).getLast hm := by
            have he : event ∈ Motion.latest (c.events.foldl handleFrontendEvent s).trace := he
            rw [hb.latest, hlast] at he
            exact (Option.some.inj he).symm
          rw [heq]
          exact ⟨_,rfl,hb.carries hlast c⟩
        buttons := hp.buttons
        kept := hp.kept }

end

theorem inv_start : Inv {} where
  running := rfl
  update := rfl
  xRel := rfl
  yRel := rfl
  unsent := rfl
  sums := rfl
  lands _ h := by cases h
  buttons := trivial
  kept := trivial

/-- Clicks land where the user clicked after every call of a run, and all motion is sent as it
was received, if and only if the calls are careful. -/
theorem clicks_land_iff (calls : List Call) :
    Each step (fun s c => Proper (step s c)) {} calls ↔ Each step Careful {} calls :=
  (each_iff (fun _ _ => Inv.careful) (fun _ c h => h.proper_iff c) inv_start).symm

/-- A button that follows a motion in one batch is sent before it. -/
theorem click_before_motion : ¬∀ calls : List Call,
    Each step (fun s c => Proper (step s c)) {} calls := by
  intro h
  have hc := h [⟨[.mouseMotion ⟨(10,10),(0,0),false⟩,.mouseButton 1 true],true,100,100,true⟩]
  obtain ⟨message,hm,_⟩ := hc.1.buttons.1 ⟨(10,10),(0,0),false⟩ rfl
  cases hm

end Whist.Motion
