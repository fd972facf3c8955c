import Mathlib.Tactic

/-! # Keyboard mapping -/
namespace Whist.Keyboard

def KEYCODE_UPPERBOUND : ℕ := 265

/-- The enumerators of `WhistKeycode` index the key table of the device. -/
abbrev WhistKeycode := Fin KEYCODE_UPPERBOUND

def FK_H : WhistKeycode := ⟨11,by decide⟩
def FK_Y : WhistKeycode := ⟨28,by decide⟩
def FK_BACKSPACE : WhistKeycode := ⟨42,by decide⟩
def FK_TAB : WhistKeycode := ⟨43,by decide⟩
def FK_CAPSLOCK : WhistKeycode := ⟨57,by decide⟩
def FK_DELETE : WhistKeycode := ⟨76,by decide⟩
def FK_RIGHT : WhistKeycode := ⟨79,by decide⟩
def FK_LEFT : WhistKeycode := ⟨80,by decide⟩
def FK_NUMLOCK : WhistKeycode := ⟨83,by decide⟩
def FK_LCTRL : WhistKeycode := ⟨224,by decide⟩
def FK_LSHIFT : WhistKeycode := ⟨225,by decide⟩
def FK_LALT : WhistKeycode := ⟨226,by decide⟩
def FK_LGUI : WhistKeycode := ⟨227,by decide⟩
def FK_RCTRL : WhistKeycode := ⟨228,by decide⟩
def FK_RSHIFT : WhistKeycode := ⟨229,by decide⟩
def FK_RALT : WhistKeycode := ⟨230,by decide⟩
def FK_RGUI : WhistKeycode := ⟨231,by decide⟩

inductive WhistOSType where
  | whistUnknownOS | whistWindows | whistApple | whistLinux
deriving DecidableEq, Repr

/-! ## The input device -/

structure InputDevice where
  keyboardState : WhistKeycode → ℕ
  capsLock : Bool
  numLock : Bool

def uinputGetKeyboardKeyState (d : InputDevice) (k : WhistKeycode) : ℕ := d.keyboardState k

def uinputEmitKeyEvent (d : InputDevice) (k : WhistKeycode) (pressed : ℕ) : InputDevice :=
  { keyboardState := Function.update d.keyboardState k pressed
    capsLock := if k = FK_CAPSLOCK ∧ pressed ≠ 0 then !d.capsLock else d.capsLock
    numLock := if k = FK_NUMLOCK ∧ pressed ≠ 0 then !d.numLock else d.numLock }

def emitKeys (d : InputDevice) (keys : List WhistKeycode) (pressed : ℕ) : InputDevice :=
  keys.foldl (fun d k => uinputEmitKeyEvent d k pressed) d

theorem emitKeyEvent_state (d : InputDevice) (k j : WhistKeycode) (p : ℕ) :
    (uinputEmitKeyEvent d k p).keyboardState j = if j = k then p else d.keyboardState j :=
  Function.update_apply d.keyboardState k p j

theorem emitKeys_state (d : InputDevice) (keys : List WhistKeycode) (j : WhistKeycode) (p : ℕ) :
    (emitKeys d keys p).keyboardState j = if j ∈ keys then p else d.keyboardState j := by
  induction keys generalizing d with
  | nil => simp [emitKeys]
  | cons k keys ih =>
    have hstep : emitKeys d (k :: keys) p = emitKeys (uinputEmitKeyEvent d k p) keys p := rfl
    rw [hstep, ih, emitKeyEvent_state]
    by_cases hj : j ∈ keys
    · simp [hj]
    · simp [hj, List.mem_cons]

def modifiers : List WhistKeycode :=
  [FK_LCTRL, FK_LSHIFT, FK_LALT, FK_LGUI, FK_RCTRL, FK_RSHIFT, FK_RALT, FK_RGUI]

def modmap (k : WhistKeycode) : WhistKeycode :=
  if k = FK_RGUI then FK_LGUI
  else if k = FK_RCTRL then FK_LCTRL
  else if k = FK_RALT then FK_LALT
  else if k = FK_RSHIFT then FK_LSHIFT
  else k

abbrev KeyboardMappings := List (List WhistKeycode × List WhistKeycode)

def keyboardMappings : KeyboardMappings :=
  [([FK_LCTRL, FK_Y], [FK_LCTRL, FK_H]),
   ([FK_LCTRL, FK_H], []),
   ([FK_LCTRL, FK_LEFT], [FK_LALT, FK_LEFT]),
   ([FK_LCTRL, FK_RIGHT], [FK_LALT, FK_RIGHT]),
   ([FK_LALT, FK_LEFT], [FK_LCTRL, FK_LEFT]),
   ([FK_LALT, FK_RIGHT], [FK_LCTRL, FK_RIGHT]),
   ([FK_LALT, FK_LSHIFT, FK_LEFT], [FK_LCTRL, FK_LSHIFT, FK_LEFT]),
   ([FK_LALT, FK_LSHIFT, FK_RIGHT], [FK_LCTRL, FK_LSHIFT, FK_RIGHT]),
   ([FK_LALT, FK_BACKSPACE], [FK_LCTRL, FK_BACKSPACE]),
   ([FK_LALT, FK_DELETE], [FK_LCTRL, FK_DELETE]),
   ([FK_LGUI, FK_TAB], [FK_LCTRL, FK_TAB]),
   ([FK_LGUI, FK_LSHIFT, FK_TAB], [FK_LCTRL, FK_LSHIFT, FK_TAB]),
   ([FK_LCTRL, FK_LALT, FK_RIGHT], [FK_LCTRL, FK_TAB]),
   ([FK_LCTRL, FK_LALT, FK_LEFT], [FK_LCTRL, FK_LSHIFT, FK_TAB])]

def keyWeight (k : WhistKeycode) : ℕ := k.val + KEYCODE_UPPERBOUND * modifiers.count k

def keySort (keys : List WhistKeycode) : List WhistKeycode :=
  keys.insertionSort (fun a b => keyWeight a ≤ keyWeight b)

def initKeyboardMapping (mappings : KeyboardMappings) : KeyboardMappings :=
  mappings.map (fun kv => (keySort kv.1,kv.2))

@[simp] theorem mem_keySort (keys : List WhistKeycode) (k : WhistKeycode) :
    k ∈ keySort keys ↔ k ∈ keys := List.mem_insertionSort _

theorem keySort_perm (keys : List WhistKeycode) : (keySort keys).Perm keys :=
  List.perm_insertionSort _ keys

def IsLock (k : WhistKeycode) : Prop := k = FK_CAPSLOCK ∨ k = FK_NUMLOCK

instance (k : WhistKeycode) : Decidable (IsLock k) := inferInstanceAs (Decidable (_ ∨ _))

theorem keyboardMappings_keys : ∀ kv ∈ keyboardMappings, kv.1 ≠ [] ∧ ∀ k ∈ kv.1, ¬ IsLock k := by
  decide +kernel

structure Mapping where
  device : InputDevice
  initialized : Bool
  mappings : KeyboardMappings
  holdingKeymap : Bool
  currentlyPressed : List WhistKeycode
  newKeyCombination : List WhistKeycode

def Mapping.initial : Mapping :=
  { device := { keyboardState := fun _ => 0, capsLock := false, numLock := false }
    initialized := false
    mappings := keyboardMappings
    holdingKeymap := false
    currentlyPressed := []
    newKeyCombination := [] }

namespace Mapping

def ensureInitialized (m : Mapping) : Mapping :=
  if m.initialized then m
  else { m with mappings := initKeyboardMapping m.mappings, initialized := true }

/-- Let go of the keymap: release the replacement, modifiers last, and press the original
keys again, modifiers first, but for the one that is being released. -/
def disengage (m : Mapping) (key : WhistKeycode) (pressed : ℕ) : Mapping :=
  let released := emitKeys m.device m.newKeyCombination.reverse 0
  let originals := m.currentlyPressed.reverse
  { m with
    newKeyCombination := m.newKeyCombination.reverse
    currentlyPressed := originals
    device := emitKeys released (originals.filter (fun k => ¬ (pressed = 0 ∧ k = key))) 1
    holdingKeymap := false }

/-- The keys the device shows as pressed, with `key` among them. -/
def combination (m : Mapping) (key : WhistKeycode) : List WhistKeycode :=
  keySort ((List.finRange KEYCODE_UPPERBOUND).filter
    (fun i => i ≠ key ∧ uinputGetKeyboardKeyState m.device i = 1) ++ [key])

def pressKey (m : Mapping) (key : WhistKeycode) : Mapping :=
  let m := { m with currentlyPressed := m.combination key }
  match m.mappings.lookup m.currentlyPressed with
  | some combo =>
    { m with
      newKeyCombination := combo
      device := emitKeys (emitKeys m.device m.currentlyPressed 0) combo 1
      holdingKeymap := true }
  | none => { m with device := uinputEmitKeyEvent m.device key 1 }

def pressOrRelease (m : Mapping) (key : WhistKeycode) (pressed : ℕ) : Mapping :=
  if pressed = 0 then { m with device := uinputEmitKeyEvent m.device key 0 } else m.pressKey key

def emitMappedKeyEvent (m : Mapping) (osType : WhistOSType) (keyCode : WhistKeycode)
    (pressed : ℕ) : Mapping :=
  let m := m.ensureInitialized
  if keyCode = FK_CAPSLOCK ∨ keyCode = FK_NUMLOCK ∨ osType ≠ .whistApple then
    { m with device := uinputEmitKeyEvent m.device keyCode pressed }
  else
    let key := modmap keyCode
    if m.holdingKeymap then
      if m.currentlyPressed.count key ≠ pressed then
        (m.disengage key pressed).pressOrRelease key pressed
      else m
    else m.pressOrRelease key pressed

end Mapping

/-- A call for a key of the client, with `pressed` either 0 or 1. -/
structure KeyEvent where
  keyCode : WhistKeycode
  pressed : Bool

def Mapping.emitAll (events : List KeyEvent) : Mapping :=
  events.foldl (fun m e => m.emitMappedKeyEvent .whistApple e.keyCode e.pressed.toNat) .initial

def lastEvent (events : List KeyEvent) (k : WhistKeycode) : Option KeyEvent :=
  (events.filter (fun e => modmap e.keyCode = k)).getLast?

/-- The keys other than the two locks whose last event was a press. -/
def held (events : List KeyEvent) (k : WhistKeycode) : Bool :=
  ¬ IsLock k ∧ (lastEvent events k).any KeyEvent.pressed

theorem lastEvent_concat (events : List KeyEvent) (e : KeyEvent) (k : WhistKeycode) :
    lastEvent (events ++ [e]) k = if modmap e.keyCode = k then some e else lastEvent events k := by
  rw [lastEvent, List.filter_append]
  by_cases hk : modmap e.keyCode = k
  · rw [if_pos hk, List.filter_cons_of_pos (by simpa using hk)]
    simp
  · rw [if_neg hk, List.filter_cons_of_neg (by simpa using hk), List.filter_nil, List.append_nil,
      lastEvent]

theorem modmap_isLock {k : WhistKeycode} : IsLock (modmap k) ↔ IsLock k := by
  have hall : ∀ k, IsLock (modmap k) ↔ IsLock k := by decide +kernel
  exact hall k

theorem held_isLock {events : List KeyEvent} {k : WhistKeycode} (hk : IsLock k) :
    held events k = false := by
  simp [held, hk]

theorem held_concat_isLock {events : List KeyEvent} {e : KeyEvent} (he : IsLock e.keyCode) :
    held (events ++ [e]) = held events := by
  funext k
  by_cases hk : IsLock k
  · rw [held_isLock hk, held_isLock hk]
  · have hne : modmap e.keyCode ≠ k := fun heq => hk (heq ▸ modmap_isLock.mpr he)
    rw [held, held, lastEvent_concat, if_neg hne]

theorem held_concat {events : List KeyEvent} {e : KeyEvent} (he : ¬ IsLock e.keyCode) :
    held (events ++ [e]) = Function.update (held events) (modmap e.keyCode) e.pressed := by
  funext k
  rw [Function.update_apply, held, lastEvent_concat]
  by_cases hk : k = modmap e.keyCode
  · have hlock : ¬ IsLock k := hk ▸ mt modmap_isLock.mp he
    rw [if_pos hk, if_pos hk.symm]
    simp [hlock]
  · rw [if_neg hk, if_neg (Ne.symm hk), held]

/-! ## The invariant -/

def Shows (d : InputDevice) (H : WhistKeycode → Bool) : Prop :=
  ∀ k, ¬ IsLock k → d.keyboardState k = (H k).toNat

/-- The keymap `kv` stands for the keys `H` on the device. -/
structure Replaces (m : Mapping) (kv : List WhistKeycode × List WhistKeycode)
    (H : WhistKeycode → Bool) : Prop where
  entry : kv ∈ keyboardMappings
  keys : ∀ k, k ∈ kv.1 ↔ H k = true
  pressed : m.currentlyPressed.Perm kv.1
  nodup : m.currentlyPressed.Nodup
  combo : m.newKeyCombination = kv.2
  shows : Shows m.device (fun k => k ∈ kv.2)

structure Inv (H : WhistKeycode → Bool) (m : Mapping) : Prop where
  mappings : m.ensureInitialized.mappings = initKeyboardMapping keyboardMappings
  locks : ∀ k, IsLock k → H k = false
  free : m.holdingKeymap = false → Shows m.device H
  holding : m.holdingKeymap = true → ∃ kv, Replaces m kv H

theorem Shows.emitKeys {d : InputDevice} {H : WhistKeycode → Bool} (h : Shows d H)
    (keys : List WhistKeycode) (p : Bool) :
    Shows (emitKeys d keys p.toNat) (fun k => if k ∈ keys then p else H k) := by
  intro k hk
  rw [emitKeys_state, h k hk]
  dsimp only
  split_ifs <;> rfl

theorem Shows.emitKeyEvent {d : InputDevice} {H : WhistKeycode → Bool} (h : Shows d H)
    (key : WhistKeycode) (p : Bool) :
    Shows (uinputEmitKeyEvent d key p.toNat) (Function.update H key p) := by
  intro k hk
  rw [emitKeyEvent_state, Function.update_apply, h k hk]
  split_ifs <;> rfl

theorem Shows.congr {d : InputDevice} {H H' : WhistKeycode → Bool} (h : Shows d H)
    (heq : ∀ k, ¬ IsLock k → H k = H' k) : Shows d H' :=
  fun k hk => heq k hk ▸ h k hk

theorem Shows.lock {d : InputDevice} {H : WhistKeycode → Bool} (h : Shows d H)
    {key : WhistKeycode} (hkey : IsLock key) (p : Bool) :
    Shows (uinputEmitKeyEvent d key p.toNat) H := by
  refine (h.emitKeyEvent key p).congr fun k hk => ?_
  rw [Function.update_of_ne]
  intro heq
  exact hk (heq ▸ hkey)

namespace Mapping

theorem mem_combination (m : Mapping) (key k : WhistKeycode) :
    k ∈ m.combination key ↔ k = key ∨ m.device.keyboardState k = 1 := by
  rw [combination, mem_keySort, List.mem_append, List.mem_filter, List.mem_singleton]
  by_cases hk : k = key
  · simp [hk]
  · simp [hk, uinputGetKeyboardKeyState]

theorem combination_nodup (m : Mapping) (key : WhistKeycode) : (m.combination key).Nodup := by
  refine (keySort_perm _).nodup_iff.mpr (List.nodup_append.mpr ⟨?_,List.nodup_singleton key,?_⟩)
  · exact (List.nodup_finRange KEYCODE_UPPERBOUND).filter _
  · intro a ha b hb hab
    rw [List.mem_singleton] at hb
    simpa [hab, hb] using (List.mem_filter.mp ha).2

theorem lookup_initKeyboardMapping {mappings : KeyboardMappings} {keys combo : List WhistKeycode}
    (h : (initKeyboardMapping mappings).lookup keys = some combo) :
    ∃ kv ∈ mappings, keySort kv.1 = keys ∧ kv.2 = combo := by
  induction mappings with
  | nil => cases h
  | cons kv mappings ih =>
    rw [initKeyboardMapping, List.map_cons, List.lookup_cons] at h
    split at h
    case h_1 hkeys =>
      exact ⟨kv,List.mem_cons_self,(beq_iff_eq.mp hkeys).symm,Option.some.inj h⟩
    case h_2 hkeys =>
      obtain ⟨kv',hmem,hkv⟩ := ih h
      exact ⟨kv',List.mem_cons_of_mem _ hmem,hkv⟩

theorem pressKey_inv {m : Mapping} {H : WhistKeycode → Bool} {key : WhistKeycode}
    (htable : m.mappings = initKeyboardMapping keyboardMappings) (hinit : m.initialized = true)
    (hlocks : ∀ k, IsLock k → H k = false) (hkey : ¬ IsLock key)
    (hhold : m.holdingKeymap = false) (hshows : Shows m.device H) :
    Inv (Function.update H key true) (m.pressKey key) := by
  have hlocks' : ∀ k, IsLock k → Function.update H key true k = false := by
    intro k hk
    have hne : k ≠ key := fun heq => hkey (heq ▸ hk)
    rw [Function.update_of_ne hne, hlocks k hk]
  cases hlookup : m.mappings.lookup (m.combination key) with
  | none =>
    have hpress : m.pressKey key = { m with
        currentlyPressed := m.combination key, device := uinputEmitKeyEvent m.device key 1 } := by
      rw [pressKey]
      simp only [hlookup]
    rw [hpress]
    refine ⟨?_,hlocks',fun _ => hshows.emitKeyEvent key true,fun h => ?_⟩
    · simpa [ensureInitialized, hinit] using htable
    · exact absurd (hhold.symm.trans h) Bool.false_ne_true
  | some combo =>
    have hpress : m.pressKey key = { m with
        currentlyPressed := m.combination key, newKeyCombination := combo
        device := emitKeys (emitKeys m.device (m.combination key) 0) combo 1
        holdingKeymap := true } := by
      rw [pressKey]
      simp only [hlookup]
    obtain ⟨kv,hkv,hsort,hcombo⟩ := lookup_initKeyboardMapping (htable ▸ hlookup)
    have hmem : ∀ k, k ∈ kv.1 ↔ k = key ∨ m.device.keyboardState k = 1 := by
      intro k
      rw [← m.mem_combination key k, ← hsort, mem_keySort]
    have hkeys : ∀ k, k ∈ kv.1 ↔ Function.update H key true k = true := by
      intro k
      by_cases hk : IsLock k
      · rw [hlocks' k hk]
        exact ⟨fun hin => absurd hk ((keyboardMappings_keys kv hkv).2 k hin),fun h => by cases h⟩
      · rw [hmem, hshows k hk, Function.update_apply]
        by_cases heq : k = key
        · simp [heq]
        · simp [heq, Bool.toNat_eq_one]
    rw [hpress]
    refine ⟨?_,hlocks',fun h => absurd h (by simp),fun _ => ⟨kv,?_⟩⟩
    · simpa [ensureInitialized, hinit] using htable
    · refine ⟨hkv,hkeys,?_,m.combination_nodup key,hcombo.symm,?_⟩
      · exact hsort ▸ keySort_perm kv.1
      · -- every key the device showed is among those just released
        refine ((hshows.emitKeys (m.combination key) false).emitKeys combo true).congr fun k hk => ?_
        have hcomb : k ∉ m.combination key → H k = false := by
          intro hnot
          rw [mem_combination, hshows k hk, Bool.toNat_eq_one, not_or, Bool.not_eq_true] at hnot
          exact hnot.2
        rw [← hcombo]
        by_cases hin : k ∈ kv.2
        · simp [hin]
        · by_cases hc : k ∈ m.combination key
          · simp [hin, hc]
          · simp [hin, hc, hcomb hc]

theorem disengage_shows {m : Mapping} {H : WhistKeycode → Bool}
    {kv : List WhistKeycode × List WhistKeycode} (h : Replaces m kv H) (key : WhistKeycode)
    (p : Bool) :
    Shows (m.disengage key p.toNat).device (fun k => H k && (p || k ≠ key)) := by
  have hreleased := h.shows.emitKeys m.newKeyCombination.reverse false
  refine (hreleased.emitKeys _ true).congr fun k hk => ?_
  have hkeys : k ∈ m.currentlyPressed ↔ H k = true := h.pressed.mem_iff.trans (h.keys k)
  have hcombo : k ∈ m.newKeyCombination.reverse ↔ k ∈ kv.2 := by rw [List.mem_reverse, h.combo]
  have hpress : k ∈ m.currentlyPressed.reverse.filter (fun k => ¬ (p.toNat = 0 ∧ k = key)) ↔
      (H k && (p || k ≠ key)) = true := by
    rw [List.mem_filter, List.mem_reverse, hkeys]
    cases p <;> simp
  by_cases hin : (H k && (p || k ≠ key)) = true
  · rw [if_pos (hpress.mpr hin), hin]
  · rw [if_neg (mt hpress.mp hin), eq_false_of_ne_true hin]
    by_cases hc : k ∈ kv.2
    · rw [if_pos (hcombo.mpr hc)]
    · rw [if_neg (mt hcombo.mp hc), decide_eq_false hc]

theorem pressOrRelease_inv {m : Mapping} {H : WhistKeycode → Bool} {key : WhistKeycode}
    (htable : m.mappings = initKeyboardMapping keyboardMappings) (hinit : m.initialized = true)
    (hlocks : ∀ k, IsLock k → H k = false) (hkey : ¬ IsLock key)
    (hhold : m.holdingKeymap = false) (hshows : Shows m.device H) (p : Bool) :
    Inv (Function.update H key p) (m.pressOrRelease key p.toNat) := by
  cases p with
  | true => exact pressKey_inv htable hinit hlocks hkey hhold hshows
  | false =>
    refine ⟨?_,fun k hk => ?_,fun _ => hshows.emitKeyEvent key false,fun h => ?_⟩
    · simpa [pressOrRelease, ensureInitialized, hinit] using htable
    · have hne : k ≠ key := fun heq => hkey (heq ▸ hk)
      rw [Function.update_of_ne hne, hlocks k hk]
    · exact absurd (hhold.symm.trans h) Bool.false_ne_true

theorem emitMappedKeyEvent_inv {events : List KeyEvent} {m : Mapping}
    (hinv : Inv (held events) m) (e : KeyEvent) :
    Inv (held (events ++ [e]))
      (m.emitMappedKeyEvent .whistApple e.keyCode e.pressed.toNat) := by
  have hinit : m.ensureInitialized.initialized = true := by
    by_cases h : m.initialized = true
    · rw [ensureInitialized, if_pos h, h]
    · rw [ensureInitialized, if_neg h]
  have hfields : m.ensureInitialized.device = m.device ∧
      m.ensureInitialized.holdingKeymap = m.holdingKeymap ∧
      m.ensureInitialized.currentlyPressed = m.currentlyPressed ∧
      m.ensureInitialized.newKeyCombination = m.newKeyCombination := by
    by_cases h : m.initialized = true <;> simp [ensureInitialized, h]
  have hmap := hinv.mappings
  have hfree : m.ensureInitialized.holdingKeymap = false →
      Shows m.ensureInitialized.device (held events) := by
    rw [hfields.1, hfields.2.1]
    exact hinv.free
  have hholding : m.ensureInitialized.holdingKeymap = true →
      ∃ kv, Replaces m.ensureInitialized kv (held events) := by
    intro h
    obtain ⟨kv,hkv⟩ := hinv.holding (hfields.2.1 ▸ h)
    exact ⟨kv,hkv.entry,hkv.keys,hfields.2.2.1 ▸ hkv.pressed,hfields.2.2.1 ▸ hkv.nodup,
      hfields.2.2.2 ▸ hkv.combo,hfields.1 ▸ hkv.shows⟩
  rw [emitMappedKeyEvent]
  generalize m.ensureInitialized = n at hinit hmap hfree hholding
  dsimp only
  by_cases hlock : IsLock e.keyCode
  · rw [if_pos (hlock.imp id Or.inl), held_concat_isLock hlock]
    refine ⟨?_,hinv.locks,fun h => (hfree h).lock hlock _,fun h => ?_⟩
    · simpa [ensureInitialized, hinit] using hmap
    · obtain ⟨kv,hkv⟩ := hholding h
      exact ⟨kv,hkv.entry,hkv.keys,hkv.pressed,hkv.nodup,hkv.combo,hkv.shows.lock hlock _⟩
  · have hnot : ¬ (e.keyCode = FK_CAPSLOCK ∨ e.keyCode = FK_NUMLOCK ∨
        WhistOSType.whistApple ≠ .whistApple) := by
      simpa [IsLock] using hlock
    have hkey : ¬ IsLock (modmap e.keyCode) := mt modmap_isLock.mp hlock
    rw [if_neg hnot, held_concat hlock]
    by_cases hhold : n.holdingKeymap = true
    · rw [if_pos hhold]
      obtain ⟨kv,hkv⟩ := hholding hhold
      have hcount : n.currentlyPressed.count (modmap e.keyCode) =
          (held events (modmap e.keyCode)).toNat := by
        rw [hkv.nodup.count, Bool.toNat]
        have hiff := (hkv.pressed.mem_iff (a := modmap e.keyCode)).trans (hkv.keys _)
        by_cases hin : modmap e.keyCode ∈ n.currentlyPressed
        · rw [if_pos hin, hiff.mp hin, cond_true]
        · rw [if_neg hin, eq_false_of_ne_true (mt hiff.mpr hin), cond_false]
      by_cases hsame : held events (modmap e.keyCode) = e.pressed
      · -- the key is in that state already
        rw [if_neg (by simp [hcount, hsame]), ← hsame, Function.update_eq_self]
        refine ⟨?_,hinv.locks,hfree,hholding⟩
        simpa [ensureInitialized, hinit] using hmap
      · have hdiffer : (held events (modmap e.keyCode)).toNat ≠ e.pressed.toNat := by
          revert hsame
          cases held events (modmap e.keyCode) <;> cases e.pressed <;> decide
        rw [if_pos (hcount ▸ hdiffer)]
        have hshows := disengage_shows hkv (modmap e.keyCode) e.pressed
        have hstep := pressOrRelease_inv (m := n.disengage (modmap e.keyCode) e.pressed.toNat)
          hmap hinit (fun k hk => by simp [held_isLock hk]) hkey rfl hshows e.pressed
        convert hstep using 1
        funext k
        rw [Function.update_apply, Function.update_apply]
        by_cases hk : k = modmap e.keyCode <;> simp [hk]
    · rw [if_neg hhold]
      have hhold' := eq_false_of_ne_true hhold
      exact pressOrRelease_inv hmap hinit hinv.locks hkey hhold' (hfree hhold') e.pressed

theorem initial_inv : Inv (held []) initial := by
  refine ⟨rfl,fun k hk => held_isLock hk,fun _ k _ => ?_,fun h => by cases h⟩
  simp [initial, held, lastEvent]

theorem emitAll_inv (events : List KeyEvent) : Inv (held events) (emitAll events) := by
  induction events using List.reverseRecOn with
  | nil => exact initial_inv
  | append_singleton events e ih =>
    rw [emitAll, List.foldl_append]
    exact emitMappedKeyEvent_inv ih e

/-- After any events the device shows the keys held, or, while a keymap is held, the
replacement of the combination they form; once all are released it shows none. -/
theorem no_key_stuck (events : List KeyEvent) :
    ((emitAll events).holdingKeymap = false →
      ∀ k, ¬ IsLock k → (emitAll events).device.keyboardState k = (held events k).toNat) ∧
    ((emitAll events).holdingKeymap = true →
      (∀ k, k ∈ (emitAll events).currentlyPressed ↔ held events k = true) ∧
      ∃ kv ∈ keyboardMappings, (∀ k, k ∈ kv.1 ↔ held events k = true) ∧
        ∀ k, ¬ IsLock k →
          (emitAll events).device.keyboardState k = (decide (k ∈ kv.2)).toNat) ∧
    ((∀ k, held events k = false) →
      ∀ k, ¬ IsLock k → (emitAll events).device.keyboardState k = 0) := by
  have hinv := emitAll_inv events
  refine ⟨hinv.free,fun h => ?_,fun hnone k hk => ?_⟩
  · obtain ⟨kv,hkv⟩ := hinv.holding h
    exact ⟨fun k => hkv.pressed.mem_iff.trans (hkv.keys k),kv,hkv.entry,hkv.keys,hkv.shows⟩
  · cases hhold : (emitAll events).holdingKeymap with
    | false => rw [hinv.free hhold k hk, hnone k, Bool.toNat_false]
    | true =>
      obtain ⟨kv,hkv⟩ := hinv.holding hhold
      obtain ⟨j,hj⟩ := List.exists_mem_of_ne_nil _ (keyboardMappings_keys kv hkv.entry).1
      exact absurd ((hnone j).symm.trans ((hkv.keys j).mp hj)) Bool.false_ne_true

end Mapping

end Whist.Keyboard
