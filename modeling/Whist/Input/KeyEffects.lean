import Whist.Input.KeyboardSync

/-! # What a key event does to the keyboard -/
namespace Whist.Keyboard

def Completes (keys : WhistKeycode → Bool) : Prop :=
  ∃ kv ∈ keyboardMappings, ∀ k, keys k = decide (k ∈ kv.1)

theorem keyboardMappings_nodup : ∀ kv ∈ keyboardMappings, kv.1.Nodup := by
  decide +kernel

theorem keyboardMappings_values : ∀ kv ∈ keyboardMappings, ∀ k ∈ kv.2, ¬IsLock k := by
  decide +kernel

theorem Completes.lock {keys : WhistKeycode → Bool} (h : Completes keys) {lock : WhistKeycode}
    (hlock : IsLock lock) : keys lock = false := by
  obtain ⟨kv,hkv,hkeys⟩ := h
  rw [hkeys, decide_eq_false_iff_not]
  exact fun hmem => (keyboardMappings_keys kv hkv).2 lock hmem hlock

theorem keyWeight_injective {a b : WhistKeycode} (h : keyWeight a = keyWeight b) : a = b := by
  have hmod : ∀ k : WhistKeycode, keyWeight k % KEYCODE_UPPERBOUND = k.val := by
    intro k
    rw [keyWeight, Nat.add_mul_mod_self_left, Nat.mod_eq_of_lt k.isLt]
  exact Fin.ext (by rw [← hmod a, ← hmod b, h])

theorem keySort_congr {keys keys' : List WhistKeycode} (h : keys.Perm keys') : keySort keys = keySort keys' := by
  have htotal : Std.Total (fun a b : WhistKeycode => keyWeight a ≤ keyWeight b) :=
    ⟨fun a b => le_total (keyWeight a) (keyWeight b)⟩
  have htrans : IsTrans WhistKeycode (fun a b => keyWeight a ≤ keyWeight b) := ⟨fun _ _ _ => le_trans⟩
  refine List.Perm.eq_of_pairwise (fun a b _ _ hab hba => keyWeight_injective (le_antisymm hab hba))
    (List.pairwise_insertionSort _ keys) (List.pairwise_insertionSort _ keys') ?_
  exact (keySort_perm keys).trans (h.trans (keySort_perm keys').symm)

namespace Mapping

def shown (m : Mapping) (k : WhistKeycode) : Bool := decide (uinputGetKeyboardKeyState m.device k ≠ 0)

def pressed (m : Mapping) (k : WhistKeycode) : Bool := decide (m.isPressed k ≠ 0)

def opened (m : Mapping) (k : WhistKeycode) : Bool :=
  if m.holdingKeymap then decide (k ∈ m.currentlyPressed) || (m.shown k && decide (k ∉ m.newKeyCombination))
  else m.shown k

def lockOf (m : Mapping) (lock : WhistKeycode) : Bool :=
  if lock = FK_CAPSLOCK then m.device.capsLock else m.device.numLock

structure Valid (m : Mapping) : Prop where
  mappings : m.ensureInitialized.mappings = initKeyboardMapping keyboardMappings
  bits : ∀ k, m.device.keyboardState k ≤ 1
  keymap : m.holdingKeymap = true → ∃ kv ∈ keyboardMappings, m.currentlyPressed.Perm kv.1 ∧
    ∀ k, k ∈ m.newKeyCombination ↔ k ∈ kv.2

variable {m m' : Mapping} {k key : WhistKeycode} {p : Bool}

theorem initial_valid : initial.Valid where
  mappings := rfl
  bits _ := Nat.zero_le 1
  keymap h := by cases h

theorem pressed_held (hheld : m.holdingKeymap = true) (k : WhistKeycode) :
    m.pressed k = decide (k ∈ m.currentlyPressed) := by
  rw [pressed, isPressed, if_pos hheld]
  simp [List.count_eq_zero]

theorem pressed_free (hheld : m.holdingKeymap = false) : m.pressed = m.shown := by
  funext k
  rw [pressed, isPressed, if_neg (by simp [hheld]), shown]

theorem opened_free (hheld : m.holdingKeymap = false) : m.opened = m.shown := by
  funext k
  rw [opened, if_neg (by simp [hheld])]

theorem opened_held (hheld : m.holdingKeymap = true) (k : WhistKeycode) :
    m.opened k = (m.pressed k || (m.shown k && decide (k ∉ m.newKeyCombination))) := by
  rw [opened, if_pos hheld, pressed_held hheld]

theorem Valid.completes (h : m.Valid) (hheld : m.holdingKeymap = true) : Completes m.pressed := by
  obtain ⟨kv,hkv,hperm,-⟩ := h.keymap hheld
  refine ⟨kv,hkv,fun k => ?_⟩
  rw [pressed_held hheld]
  exact decide_eq_decide.mpr hperm.mem_iff

theorem shown_eq_one (h : ∀ k, m.device.keyboardState k ≤ 1) (k : WhistKeycode) :
    m.device.keyboardState k = 1 ↔ m.shown k = true := by
  have hle := h k
  rw [shown, uinputGetKeyboardKeyState, decide_eq_true_iff]
  omega

theorem ensureInitialized_device (m : Mapping) : m.ensureInitialized.device = m.device := by
  unfold ensureInitialized
  split_ifs <;> rfl

theorem ensureInitialized_initialized (m : Mapping) : m.ensureInitialized.initialized = true := by
  unfold ensureInitialized
  split_ifs with h
  · exact h
  · rfl

theorem ensureInitialized_same (m : Mapping) :
    m.ensureInitialized.ensureInitialized = m.ensureInitialized := by
  rw [ensureInitialized, if_pos m.ensureInitialized_initialized]

theorem ensureInitialized_keeps (m : Mapping) :
    m.ensureInitialized.holdingKeymap = m.holdingKeymap ∧
      m.ensureInitialized.currentlyPressed = m.currentlyPressed ∧
      m.ensureInitialized.newKeyCombination = m.newKeyCombination := by
  unfold ensureInitialized
  split_ifs <;> exact ⟨rfl,rfl,rfl⟩

theorem emit_shown (d : InputDevice) (p : Bool) (hdevice : m'.device = uinputEmitKeyEvent d key p.toNat)
    (hd : m.device = d) : m'.shown = Function.update m.shown key p := by
  funext j
  rw [shown, uinputGetKeyboardKeyState, hdevice, emitKeyEvent_state, Function.update_apply, ← hd]
  by_cases hj : j = key
  · rw [if_pos hj, if_pos hj]
    cases p <;> rfl
  · rw [if_neg hj, if_neg hj, shown, uinputGetKeyboardKeyState]

theorem emit_bits {d : InputDevice} (h : ∀ k, d.keyboardState k ≤ 1) (key : WhistKeycode) (p : Bool) (j : WhistKeycode) :
    (uinputEmitKeyEvent d key p.toNat).keyboardState j ≤ 1 := by
  rw [emitKeyEvent_state]
  split_ifs
  · exact p.toNat_le
  · exact h j

theorem emitKeys_bits {d : InputDevice} (h : ∀ k, d.keyboardState k ≤ 1) (keys : List WhistKeycode) {p : ℕ}
    (hp : p ≤ 1) (j : WhistKeycode) : (emitKeys d keys p).keyboardState j ≤ 1 := by
  rw [emitKeys_state]
  split_ifs
  · exact hp
  · exact h j

theorem emitKeys_locks (d : InputDevice) {keys : List WhistKeycode} {p : ℕ} (h : p = 0 ∨ ∀ k ∈ keys, ¬IsLock k) :
    (emitKeys d keys p).capsLock = d.capsLock ∧ (emitKeys d keys p).numLock = d.numLock := by
  induction keys generalizing d with
  | nil => exact ⟨rfl,rfl⟩
  | cons key keys ih =>
    have hstep : emitKeys d (key :: keys) p = emitKeys (uinputEmitKeyEvent d key p) keys p := rfl
    have hno : p = 0 ∨ ¬IsLock key := h.imp_right fun h => h key List.mem_cons_self
    have hcaps : ¬(key = FK_CAPSLOCK ∧ p ≠ 0) := fun hc => hno.elim hc.2 fun hk => hk (Or.inl hc.1)
    have hnum : ¬(key = FK_NUMLOCK ∧ p ≠ 0) := fun hc => hno.elim hc.2 fun hk => hk (Or.inr hc.1)
    obtain ⟨hc,hn⟩ := ih (uinputEmitKeyEvent d key p) (h.imp_right fun h k hk => h k (List.mem_cons_of_mem _ hk))
    rw [hstep, hc, hn]
    exact ⟨if_neg hcaps,if_neg hnum⟩

theorem mem_combination_shown (h : ∀ k, m.device.keyboardState k ≤ 1) (key k : WhistKeycode) :
    k ∈ m.combination key ↔ Function.update m.shown key true k = true := by
  rw [mem_combination, shown_eq_one h, Function.update_apply]
  by_cases hk : k = key
  · simp [hk]
  · simp [hk]

theorem lookup_some {combo : List WhistKeycode} (h : ∀ k, m.device.keyboardState k ≤ 1)
    (htable : m.mappings = initKeyboardMapping keyboardMappings)
    (hlookup : m.mappings.lookup (m.combination key) = some combo) :
    ∃ kv ∈ keyboardMappings, (m.combination key).Perm kv.1 ∧ combo = kv.2 ∧
      ∀ k, Function.update m.shown key true k = decide (k ∈ kv.1) := by
  obtain ⟨kv,hkv,hsort,rfl⟩ := lookup_initKeyboardMapping (htable ▸ hlookup)
  have hperm : (m.combination key).Perm kv.1 := hsort ▸ keySort_perm kv.1
  refine ⟨kv,hkv,hperm,rfl,fun k => ?_⟩
  rw [← Bool.decide_coe (Function.update m.shown key true k)]
  exact decide_eq_decide.mpr ((mem_combination_shown h key k).symm.trans hperm.mem_iff)

theorem lookup_none (h : ∀ k, m.device.keyboardState k ≤ 1)
    (htable : m.mappings = initKeyboardMapping keyboardMappings)
    (hlookup : m.mappings.lookup (m.combination key) = none) :
    ¬Completes (Function.update m.shown key true) := by
  rintro ⟨kv,hkv,hkeys⟩
  have hperm : (m.combination key).Perm kv.1 := by
    refine (List.perm_ext_iff_of_nodup (m.combination_nodup key) (keyboardMappings_nodup kv hkv)).mpr fun k => ?_
    rw [mem_combination_shown h, hkeys, decide_eq_true_iff]
  have hsort : m.combination key = keySort kv.1 := by
    rw [← keySort_congr hperm]
    exact keySort_congr (keySort_perm _).symm
  rw [List.lookup_eq_none_iff] at hlookup
  have hmem : (keySort kv.1,kv.2) ∈ m.mappings := by
    rw [htable, initKeyboardMapping]
    exact List.mem_map_of_mem hkv
  have hne := hlookup _ hmem
  rw [hsort] at hne
  simp at hne

structure Presses (m m' : Mapping) (key : WhistKeycode) (p : Bool) : Prop where
  valid : m'.Valid
  opened : m'.opened = Function.update m.opened key p
  pressed : m'.pressed = m'.opened
  holding : m'.holdingKeymap = true ↔ p = true ∧ Completes (Function.update m.opened key p)
  capsLock : m'.device.capsLock = m.device.capsLock
  numLock : m'.device.numLock = m.device.numLock

theorem Presses.lockOf (h : Presses m m' key p) (lock : WhistKeycode) : m'.lockOf lock = m.lockOf lock := by
  rw [Mapping.lockOf, Mapping.lockOf, h.capsLock, h.numLock]

theorem pressOrRelease_presses (htable : m.mappings = initKeyboardMapping keyboardMappings)
    (hinit : m.initialized = true) (hbits : ∀ k, m.device.keyboardState k ≤ 1)
    (hheld : m.holdingKeymap = false) (hkey : ¬IsLock key) :
    Presses m (m.pressOrRelease key p.toNat) key p := by
  have hopened := opened_free hheld
  have hlocks : ∀ p, (uinputEmitKeyEvent m.device key p).capsLock = m.device.capsLock ∧
      (uinputEmitKeyEvent m.device key p).numLock = m.device.numLock :=
    fun p => ⟨if_neg fun h => hkey (Or.inl h.1),if_neg fun h => hkey (Or.inr h.1)⟩
  have hensure : ∀ {n : Mapping}, n.initialized = m.initialized → n.mappings = m.mappings →
      n.ensureInitialized.mappings = initKeyboardMapping keyboardMappings := by
    intro n hi hm
    rw [ensureInitialized, if_pos (hi.trans hinit), hm, htable]
  cases p with
  | false =>
    rw [Bool.toNat_false]
    have hshown : (m.pressOrRelease key 0).shown = Function.update m.shown key false :=
      emit_shown m.device false rfl rfl
    have hfree : (m.pressOrRelease key 0).holdingKeymap = false := hheld
    constructor
    · refine ⟨hensure rfl rfl,emit_bits hbits key false,fun h => ?_⟩
      cases hfree.symm.trans h
    · rw [opened_free hfree, hopened]
      exact hshown
    · rw [opened_free hfree, pressed_free hfree]
    · refine ⟨fun h => ?_,fun h => (by cases h.1)⟩
      cases hfree.symm.trans h
    · exact (hlocks 0).1
    · exact (hlocks 0).2
  | true =>
    have hpress : m.pressOrRelease key 1 = m.pressKey key := rfl
    rw [Bool.toNat_true, hpress]
    cases hlookup : m.mappings.lookup (m.combination key) with
    | none =>
      have heq : m.pressKey key = { m with
          currentlyPressed := m.combination key, device := uinputEmitKeyEvent m.device key 1 } := by
        rw [pressKey]
        simp only [hlookup]
      have hno := lookup_none hbits htable hlookup
      have hfree : (m.pressKey key).holdingKeymap = false := by rw [heq]; exact hheld
      have hshown : (m.pressKey key).shown = Function.update m.shown key true := by
        rw [heq]
        exact emit_shown m.device true rfl rfl
      constructor
      · refine ⟨?_,?_,fun h => ?_⟩
        · rw [heq]
          exact hensure rfl rfl
        · rw [heq]
          exact emit_bits hbits key true
        · cases hfree.symm.trans h
      · rw [opened_free hfree, hopened, hshown]
      · rw [opened_free hfree, pressed_free hfree]
      · rw [hopened, hfree]
        exact ⟨fun h => (by cases h),fun h => absurd h.2 hno⟩
      · rw [heq]
        exact (hlocks 1).1
      · rw [heq]
        exact (hlocks 1).2
    | some combo =>
      have heq : m.pressKey key = { m with
          currentlyPressed := m.combination key, newKeyCombination := combo
          device := emitKeys (emitKeys m.device (m.combination key) 0) combo 1
          holdingKeymap := true } := by
        rw [pressKey]
        simp only [hlookup]
      obtain ⟨kv,hkv,hperm,rfl,hkeys⟩ := lookup_some hbits htable hlookup
      have hheld' : (m.pressKey key).holdingKeymap = true := by rw [heq]
      have hpressed : (m.pressKey key).pressed = Function.update m.shown key true := by
        funext k
        rw [pressed_held hheld', hkeys, heq]
        exact decide_eq_decide.mpr hperm.mem_iff
      have hshown : ∀ k, (m.pressKey key).shown k = decide (k ∈ kv.2) := by
        intro k
        rw [shown, uinputGetKeyboardKeyState, heq]
        dsimp only
        rw [emitKeys_state, emitKeys_state]
        by_cases hk : k ∈ kv.2
        · simp [hk]
        · by_cases hc : k ∈ m.combination key
          · simp [hk, hc]
          · -- whatever the device showed is part of the combination
            have hnone : m.device.keyboardState k = 0 := by
              rw [mem_combination] at hc
              have hle := hbits k
              have hne : m.device.keyboardState k ≠ 1 := fun h => hc (Or.inr h)
              omega
            simp [hk, hc, hnone]
      have hopen : (m.pressKey key).opened = (m.pressKey key).pressed := by
        funext k
        rw [opened_held hheld', hshown, heq]
        simp
      constructor
      · refine ⟨?_,?_,fun _ => ⟨kv,hkv,?_,fun k => ?_⟩⟩
        · rw [heq]
          exact hensure rfl rfl
        · rw [heq]
          exact emitKeys_bits (emitKeys_bits hbits _ (Nat.zero_le 1)) _ le_rfl
        · rw [heq]
          exact hperm
        · rw [heq]
      · rw [hopen, hpressed, hopened]
      · exact hopen.symm
      · rw [hopened]
        exact ⟨fun _ => ⟨rfl,kv,hkv,hkeys⟩,fun _ => hheld'⟩
      · rw [heq]
        exact (emitKeys_locks _ (Or.inr (keyboardMappings_values kv hkv))).1.trans (emitKeys_locks _ (Or.inl rfl)).1
      · rw [heq]
        exact (emitKeys_locks _ (Or.inr (keyboardMappings_values kv hkv))).2.trans (emitKeys_locks _ (Or.inl rfl)).2

theorem disengage_keeps (h : m.Valid) (hheld : m.holdingKeymap = true) (key : WhistKeycode) (p : Bool) :
    (∀ k, (m.disengage key p.toNat).device.keyboardState k ≤ 1) ∧
      Function.update (m.disengage key p.toNat).shown key p = Function.update m.opened key p ∧
      (m.disengage key p.toNat).device.capsLock = m.device.capsLock ∧
      (m.disengage key p.toNat).device.numLock = m.device.numLock := by
  obtain ⟨kv,hkv,hperm,-⟩ := h.keymap hheld
  refine ⟨emitKeys_bits (emitKeys_bits h.bits _ (Nat.zero_le 1)) _ le_rfl,?_,?_⟩
  · funext k
    rw [Function.update_apply, Function.update_apply]
    by_cases hk : k = key
    · rw [if_pos hk, if_pos hk]
    rw [if_neg hk, if_neg hk, opened, if_pos hheld, shown, uinputGetKeyboardKeyState]
    have hfilter : k ∈ m.currentlyPressed.reverse.filter (fun k => ¬(p.toNat = 0 ∧ k = key)) ↔
        k ∈ m.currentlyPressed := by
      rw [List.mem_filter, List.mem_reverse]
      simp [hk]
    have hstate : (m.disengage key p.toNat).device.keyboardState k =
        if k ∈ m.currentlyPressed then 1
        else if k ∈ m.newKeyCombination then 0 else m.device.keyboardState k := by
      rw [disengage]
      dsimp only
      rw [emitKeys_state, emitKeys_state]
      exact if_congr hfilter rfl (if_congr List.mem_reverse rfl rfl)
    rw [hstate]
    by_cases hc : k ∈ m.currentlyPressed
    · simp [hc]
    · by_cases hn : k ∈ m.newKeyCombination
      · simp [hc, hn]
      · rw [if_neg hc, if_neg hn, decide_eq_false hc, Bool.false_or, decide_eq_true hn, Bool.and_true]
        rfl
  · have hnone : ∀ k ∈ m.currentlyPressed.reverse.filter (fun k => ¬(p.toNat = 0 ∧ k = key)), ¬IsLock k := by
      intro k hk
      rw [List.mem_filter, List.mem_reverse] at hk
      exact (keyboardMappings_keys kv hkv).2 k (hperm.mem_iff.mp hk.1)
    obtain ⟨hc,hn⟩ := @emitKeys_locks (emitKeys m.device m.newKeyCombination.reverse 0) _ 1 (Or.inr hnone)
    obtain ⟨hc₀,hn₀⟩ := @emitKeys_locks m.device m.newKeyCombination.reverse 0 (Or.inl rfl)
    exact ⟨hc.trans hc₀,hn.trans hn₀⟩

theorem ensureInitialized_observed (h : m.Valid) :
    m.ensureInitialized.Valid ∧ m.ensureInitialized.opened = m.opened ∧
      m.ensureInitialized.pressed = m.pressed ∧ m.ensureInitialized.shown = m.shown := by
  have hdevice := m.ensureInitialized_device
  obtain ⟨hheld,hpressed,hcombo⟩ := m.ensureInitialized_keeps
  have hshown : m.ensureInitialized.shown = m.shown := by
    funext k
    rw [shown, hdevice, shown]
  refine ⟨⟨?_,?_,fun hh => ?_⟩,?_,?_,hshown⟩
  · rw [ensureInitialized_same]
    exact h.mappings
  · rw [hdevice]
    exact h.bits
  · rw [hpressed, hcombo]
    exact h.keymap (hheld.symm.trans hh)
  · funext k
    rw [opened, opened, hheld, hpressed, hcombo, hshown]
  · funext k
    rw [Mapping.pressed, isPressed, hheld, hpressed, hdevice, Mapping.pressed, isPressed]

theorem emitMappedKeyEvent_presses (h : m.Valid) {keyCode : WhistKeycode} (hlock : ¬IsLock keyCode)
    (hdiffers : m.holdingKeymap = true → m.pressed (modmap keyCode) ≠ p) :
    Presses m (m.emitMappedKeyEvent .whistApple keyCode p.toNat) (modmap keyCode) p := by
  have hinit := m.ensureInitialized_initialized
  obtain ⟨hvalid,hopened,hpressed,-⟩ := ensureInitialized_observed h
  have hdevice := m.ensureInitialized_device
  rw [← m.ensureInitialized_keeps.1, ← hpressed] at hdiffers
  have hnot : ¬(keyCode = FK_CAPSLOCK ∨ keyCode = FK_NUMLOCK ∨ WhistOSType.whistApple ≠ .whistApple) := by
    simpa [IsLock] using hlock
  have hkey : ¬IsLock (modmap keyCode) := mt modmap_isLock.mp hlock
  have htable := hvalid.mappings
  rw [ensureInitialized_same] at htable
  suffices hsame : Presses m.ensureInitialized (m.emitMappedKeyEvent .whistApple keyCode p.toNat) (modmap keyCode) p by
    refine ⟨hsame.valid,?_,hsame.pressed,?_,hsame.capsLock.trans ?_,hsame.numLock.trans ?_⟩
    · rw [hsame.opened, hopened]
    · rw [hsame.holding, hopened]
    · rw [hdevice]
    · rw [hdevice]
  rw [emitMappedKeyEvent]
  dsimp only
  rw [if_neg hnot]
  generalize m.ensureInitialized = n at hinit hvalid hdiffers htable
  cases hheld : n.holdingKeymap with
  | false =>
    rw [if_neg (by decide)]
    exact pressOrRelease_presses htable hinit hvalid.bits hheld hkey
  | true =>
    have hcount : n.currentlyPressed.count (modmap keyCode) ≠ p.toNat := by
      obtain ⟨kv,hkv,hperm,-⟩ := hvalid.keymap hheld
      have hnodup := hperm.nodup_iff.mpr (keyboardMappings_nodup kv hkv)
      have hne := hdiffers hheld
      rw [pressed_held hheld] at hne
      rw [hnodup.count]
      by_cases hmem : modmap keyCode ∈ n.currentlyPressed
      · cases p
        · simp [hmem]
        · simp [hmem] at hne
      · cases p
        · simp [hmem] at hne
        · simp [hmem]
    rw [if_pos rfl, if_pos hcount]
    obtain ⟨hbits,hshown,hcaps,hnum⟩ := disengage_keeps hvalid hheld (modmap keyCode) p
    have hfree : (n.disengage (modmap keyCode) p.toNat).holdingKeymap = false := rfl
    have hpress := @pressOrRelease_presses (n.disengage (modmap keyCode) p.toNat) (modmap keyCode) p htable hinit
      hbits hfree hkey
    have hopen := opened_free hfree
    refine ⟨hpress.valid,?_,hpress.pressed,?_,hpress.capsLock.trans hcaps,hpress.numLock.trans hnum⟩
    · rw [hpress.opened, hopen, hshown]
    · rw [hpress.holding, hopen, hshown]

theorem emitMappedKeyEvent_same (h : m.Valid) {keyCode : WhistKeycode} (hlock : ¬IsLock keyCode)
    (hheld : m.holdingKeymap = true) (hsame : m.pressed (modmap keyCode) = p) :
    m.emitMappedKeyEvent .whistApple keyCode p.toNat = m.ensureInitialized := by
  obtain ⟨hvalid,-,hpressed,-⟩ := ensureInitialized_observed h
  have hheld' := m.ensureInitialized_keeps.1.trans hheld
  have hnot : ¬(keyCode = FK_CAPSLOCK ∨ keyCode = FK_NUMLOCK ∨ WhistOSType.whistApple ≠ .whistApple) := by
    simpa [IsLock] using hlock
  rw [← hpressed, pressed_held hheld'] at hsame
  obtain ⟨kv,hkv,hperm,-⟩ := hvalid.keymap hheld'
  have hnodup := hperm.nodup_iff.mpr (keyboardMappings_nodup kv hkv)
  have hcount : m.ensureInitialized.currentlyPressed.count (modmap keyCode) = p.toNat := by
    rw [hnodup.count, ← hsame]
    by_cases hmem : modmap keyCode ∈ m.ensureInitialized.currentlyPressed <;> simp [hmem]
  rw [emitMappedKeyEvent]
  dsimp only
  rw [if_neg hnot, if_pos hheld', if_neg (not_not.mpr hcount)]

theorem emitMappedKeyEvent_direct {osType : WhistOSType} (hkey : IsLock key ∨ osType ≠ .whistApple) :
    m.emitMappedKeyEvent osType key p.toNat =
      { m.ensureInitialized with device := uinputEmitKeyEvent m.device key p.toNat } := by
  rw [emitMappedKeyEvent]
  dsimp only
  rw [if_pos (hkey.elim (fun h => h.imp_right Or.inl) fun h => Or.inr (Or.inr h)), ensureInitialized_device]

structure Writes (m m' : Mapping) (key : WhistKeycode) (p : Bool) : Prop where
  valid : m'.Valid
  shown : m'.shown = Function.update m.shown key p
  holding : m'.holdingKeymap = m.holdingKeymap
  held : m.holdingKeymap = true → m'.pressed = m.pressed
  opened : IsLock key → m'.opened = Function.update m.opened key p
  capsLock : m'.device.capsLock = if key = FK_CAPSLOCK ∧ p = true then !m.device.capsLock else m.device.capsLock
  numLock : m'.device.numLock = if key = FK_NUMLOCK ∧ p = true then !m.device.numLock else m.device.numLock

theorem Writes.lockOf (h : Writes m m' key p) {lock : WhistKeycode} (hlock : IsLock lock) :
    m'.lockOf lock = if key = lock ∧ p = true then !m.lockOf lock else m.lockOf lock := by
  have hne : ¬FK_NUMLOCK = FK_CAPSLOCK := by decide
  rcases hlock with rfl | rfl
  · exact h.capsLock
  · rw [Mapping.lockOf, Mapping.lockOf, if_neg hne, if_neg hne]
    exact h.numLock

theorem emitMappedKeyEvent_writes (h : m.Valid) {osType : WhistOSType}
    (hkey : IsLock key ∨ osType ≠ .whistApple) :
    Writes m (m.emitMappedKeyEvent osType key p.toNat) key p := by
  obtain ⟨hvalid,hopened,hpressed,hshown₀⟩ := ensureInitialized_observed h
  rw [emitMappedKeyEvent_direct hkey]
  obtain ⟨hheld,hcurrent,hcombo⟩ := m.ensureInitialized_keeps
  have hne : p.toNat ≠ 0 ↔ p = true := by cases p <;> simp
  generalize hm' : ({ m.ensureInitialized with device := uinputEmitKeyEvent m.device key p.toNat } : Mapping) = m'
  have hdevice : m'.device = uinputEmitKeyEvent m.device key p.toNat := by rw [← hm']
  have hheld' : m'.holdingKeymap = m.holdingKeymap := by rw [← hm', ← hheld]
  have hcurrent' : m'.currentlyPressed = m.currentlyPressed := by rw [← hm', ← hcurrent]
  have hcombo' : m'.newKeyCombination = m.newKeyCombination := by rw [← hm', ← hcombo]
  have hshown : m'.shown = Function.update m.shown key p := emit_shown m.device p hdevice rfl
  have hinit : m'.initialized = true := by
    rw [← hm']
    exact m.ensureInitialized_initialized
  refine ⟨⟨?_,?_,fun hh => ?_⟩,hshown,hheld',fun hh => ?_,fun hlock => ?_,?_,?_⟩
  · rw [ensureInitialized, if_pos hinit, ← hm']
    exact h.mappings
  · rw [hdevice]
    exact emit_bits h.bits key p
  · rw [hcurrent', hcombo']
    exact h.keymap (hheld'.symm.trans hh)
  · funext k
    rw [pressed_held (hheld'.trans hh), hcurrent', pressed_held hh]
  · funext k
    rw [opened, hheld', hcurrent', hcombo', hshown, Function.update_apply, Function.update_apply]
    by_cases hk : k = key
    · subst hk
      rw [if_pos rfl, if_pos rfl]
      cases hh : m.holdingKeymap with
      | false => rfl
      | true =>
        obtain ⟨kv,hkv,hperm,hmem⟩ := h.keymap hh
        have hno : k ∉ m.currentlyPressed := fun hc => (keyboardMappings_keys kv hkv).2 k (hperm.mem_iff.mp hc) hlock
        have hno' : k ∉ m.newKeyCombination := fun hc => keyboardMappings_values kv hkv k ((hmem k).mp hc) hlock
        simp [hno, hno']
    · rw [if_neg hk, if_neg hk, opened]
  · rw [hdevice, uinputEmitKeyEvent]
    simp only [hne]
  · rw [hdevice, uinputEmitKeyEvent]
    simp only [hne]

end Mapping

end Whist.Keyboard
