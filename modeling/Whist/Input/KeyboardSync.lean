import Whist.Foundation.Sweep
import Whist.Input.KeyboardMapping

/-! # Synchronising the keyboard

Now and then the client sends all its keys and locks, and the server presses and releases
what differs.  While a keymap is held, the keys it stands for are compared; the keys are
mapped again when they are passed on.
-/
namespace Whist.Keyboard

def FK_UNKNOWN : WhistKeycode := ⟨0,by decide⟩

/-- The client's keyboard.  The layout is not used here. -/
structure WhistKeyboardState where
  numKeycodes : ℤ
  capsLock : Bool
  numLock : Bool
  state : WhistKeycode → UInt8
  activePinch : Bool

/-- The state of a lock, or `-1` for another key. -/
def uinputGetKeyboardModifierState (d : InputDevice) (k : WhistKeycode) : ℤ :=
  if k = FK_CAPSLOCK then d.capsLock.toInt
  else if k = FK_NUMLOCK then d.numLock.toInt
  else -1

def uinputIgnoreKeyState (k : WhistKeycode) (activePinch : Bool) : Bool :=
  decide (k = FK_LCTRL) && activePinch

def modmapFor (osType : WhistOSType) (k : WhistKeycode) : WhistKeycode :=
  if osType = .whistApple then modmap k else k

def mappedKeys (osType : WhistOSType) (keyboardState : WhistKeyboardState) : WhistKeycode → Bool :=
  Sweep.sweep KEYCODE_UPPERBOUND (fun mapped k =>
    Function.update mapped (modmapFor osType k) (mapped (modmapFor osType k) ||
      (decide ((k.val : ℤ) < keyboardState.numKeycodes) && decide (keyboardState.state k ≠ 0))))
    (fun _ => false)

def originMapping (osType : WhistOSType) : WhistKeycode → WhistKeycode :=
  Sweep.sweep KEYCODE_UPPERBOUND (fun origin k => Function.update origin (modmapFor osType k) k)
    (fun _ => FK_UNKNOWN)

namespace Mapping

def isPressed (m : Mapping) (k : WhistKeycode) : ℕ :=
  if m.holdingKeymap then m.currentlyPressed.count k else uinputGetKeyboardKeyState m.device k

end Mapping

structure Syncing where
  mapping : Mapping
  serverCapsLock : Bool
  serverNumLock : Bool
  events : List KeyEvent := []

namespace Syncing

def emitMappedKeyEvent (s : Syncing) (osType : WhistOSType) (keyCode : WhistKeycode) (pressed : Bool) :
    Syncing :=
  { s with
    mapping := s.mapping.emitMappedKeyEvent osType keyCode pressed.toNat
    events := s.events ++ [⟨keyCode,pressed⟩] }

def syncKey (osType : WhistOSType) (keyboardState : WhistKeyboardState) (s : Syncing) (k : WhistKeycode) :
    Syncing :=
  if originMapping osType k = FK_UNKNOWN then s
  else if uinputIgnoreKeyState k keyboardState.activePinch then s
  else if mappedKeys osType keyboardState k = false ∧ s.mapping.isPressed k ≠ 0 then
    s.emitMappedKeyEvent osType (originMapping osType k) false
  else if mappedKeys osType keyboardState k = true ∧ s.mapping.isPressed k = 0 then
    { s.emitMappedKeyEvent osType (originMapping osType k) true with
      serverCapsLock := if k = FK_CAPSLOCK then !s.serverCapsLock else s.serverCapsLock
      serverNumLock := if k = FK_NUMLOCK then !s.serverNumLock else s.serverNumLock }
  else s

def syncLock (osType : WhistOSType) (lock : WhistKeycode) (server client clientHolding : Bool) (s : Syncing) :
    Syncing :=
  if server ≠ client then
    if clientHolding then
      (s.emitMappedKeyEvent osType lock false).emitMappedKeyEvent osType lock true
    else (s.emitMappedKeyEvent osType lock true).emitMappedKeyEvent osType lock false
  else s

end Syncing

namespace Mapping

def updateMappedKeyboardState (m : Mapping) (osType : WhistOSType) (keyboardState : WhistKeyboardState) :
    Mapping × List KeyEvent :=
  let s : Syncing := {
    mapping := m
    serverCapsLock := decide (uinputGetKeyboardModifierState m.device FK_CAPSLOCK ≠ 0)
    serverNumLock := decide (uinputGetKeyboardModifierState m.device FK_NUMLOCK ≠ 0) }
  let s := Sweep.sweep KEYCODE_UPPERBOUND (Syncing.syncKey osType keyboardState) s
  let s := s.syncLock osType FK_CAPSLOCK s.serverCapsLock keyboardState.capsLock
    (decide (keyboardState.state FK_CAPSLOCK ≠ 0))
  let s := s.syncLock osType FK_NUMLOCK s.serverNumLock keyboardState.numLock
    (decide (keyboardState.state FK_NUMLOCK ≠ 0))
  (s.mapping,s.events)

end Mapping

structure KeyboardServer where
  mapping : Mapping := .initial
  inputOsType : WhistOSType := .whistUnknownOS

inductive KeyboardMove where
  /-- `reset_input` for a new client. -/
  | resetInput (osType : WhistOSType)
  | key (e : KeyEvent)
  | sync (keyboardState : WhistKeyboardState)

namespace KeyboardServer

def step (s : KeyboardServer) : KeyboardMove → KeyboardServer
  | .resetInput osType => { s with inputOsType := osType }
  | .key e => { s with mapping := s.mapping.emitMappedKeyEvent s.inputOsType e.keyCode e.pressed.toNat }
  | .sync keyboardState =>
    { s with mapping := (s.mapping.updateMappedKeyboardState s.inputOsType keyboardState).1 }

def run (moves : List KeyboardMove) : KeyboardServer := moves.foldl step {}

/-- After the synchronisation the keys and the locks are the client's, and a second one emits
nothing. -/
def Converges (s : KeyboardServer) (keyboardState : WhistKeyboardState) : Prop :=
  let m := (s.mapping.updateMappedKeyboardState s.inputOsType keyboardState).1
  (∀ k, m.isPressed k ≠ 0 ↔ mappedKeys s.inputOsType keyboardState k = true) ∧
    m.device.capsLock = keyboardState.capsLock ∧ m.device.numLock = keyboardState.numLock ∧
    (m.updateMappedKeyboardState s.inputOsType keyboardState).2 = []

end KeyboardServer

end Whist.Keyboard
