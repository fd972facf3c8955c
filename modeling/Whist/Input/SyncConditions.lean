import Whist.Input.KeyEffects

/-! # When a synchronisation converges -/
namespace Whist.Keyboard

def synced (osType : WhistOSType) (k : WhistKeycode) : Bool := decide (originMapping osType k ≠ FK_UNKNOWN)

def turns (osType : WhistOSType) (k : WhistKeycode) : Bool := synced osType k && decide (¬IsLock k)

def WhistKeyboardState.lockOf (keyboardState : WhistKeyboardState) (lock : WhistKeycode) : Bool :=
  if lock = FK_CAPSLOCK then keyboardState.capsLock else keyboardState.numLock

namespace Mapping
section
variable (m : Mapping) (osType : WhistOSType) (client : WhistKeycode → Bool)

/-- No key below `n` differs from the client's, the locks aside. -/
def AgreesBelow (n : ℕ) : Prop := ∀ k, k.val < n → turns osType k = true → m.pressed k = client k

instance (n : ℕ) : Decidable (m.AgreesBelow osType client n) :=
  inferInstanceAs (Decidable (∀ k : WhistKeycode, k.val < n → turns osType k = true → m.pressed k = client k))

def met (k : WhistKeycode) : Bool := if m.AgreesBelow osType client k.val then m.pressed k else m.opened k

def hides (k : WhistKeycode) : Bool := m.holdingKeymap && decide (m.AgreesBelow osType client (k.val + 1))

/-- What the keyboard shows, once its keymap is let go, after the keys below `n`. -/
def reached (n : ℕ) (k : WhistKeycode) : Bool :=
  if synced osType k = true ∧ k.val < n then client k || (m.hides osType client k && m.opened k)
  else m.opened k

def Engages (j : WhistKeycode) : Prop :=
  turns osType j = true ∧ client j = true ∧ m.met osType client j = false ∧
    Completes (m.reached osType client (j.val + 1))

/-- No key differs after one that completes a combination, as far as those below `n`. -/
def EngagedAt (n : ℕ) : Prop :=
  ∃ j, j.val < n ∧ m.Engages osType client j ∧
    ∀ k, j < k → k.val < n → turns osType k = true → m.met osType client k = client k

end
end Mapping

/-- The condition: a keymap that stays held stands for what the client holds; otherwise the keys
left out are as the client's, the device shows nothing else behind a keymap that was passed,
and the locks are neither behind a keymap in the end nor released or pressed in passing. -/
def KeyboardServer.Agrees (s : KeyboardServer) (keyboardState : WhistKeyboardState) : Prop :=
  let m := s.mapping
  let osType := s.inputOsType
  let client := mappedKeys osType keyboardState
  if m.holdingKeymap = true ∧ (osType ≠ .whistApple ∨ m.AgreesBelow osType client KEYCODE_UPPERBOUND) then
    ∀ k, m.pressed k = client k
  else
    (∀ k, synced osType k = false → m.opened k = client k) ∧
    (∀ k, turns osType k = true → m.hides osType client k = true → m.opened k = true → client k = true) ∧
    (osType = .whistApple ∧ m.EngagedAt osType client KEYCODE_UPPERBOUND →
      ∀ lock, IsLock lock → client lock = false) ∧
    (¬(osType = .whistApple ∧ m.EngagedAt osType client KEYCODE_UPPERBOUND) →
      ∀ lock, IsLock lock → client lock = false →
        if m.lockOf lock ≠ keyboardState.lockOf lock then keyboardState.state lock = 0
        else ¬(m.hides osType client lock = true ∧ m.opened lock = true))

variable {osType : WhistOSType} {keyboardState : WhistKeyboardState} {k lock : WhistKeycode}

theorem modmapFor_lock (h : IsLock lock) : modmapFor osType k = lock ↔ k = lock := by
  have hmodmap : ∀ lock, IsLock lock → ∀ k, modmap k = lock ↔ k = lock := by decide +kernel
  unfold modmapFor
  split_ifs
  · exact hmodmap lock h k
  · rfl

theorem mappedKeys_iff : mappedKeys osType keyboardState k = true ↔
    ∃ i, modmapFor osType i = k ∧ (i.val : ℤ) < keyboardState.numKeycodes ∧ keyboardState.state i ≠ 0 := by
  have h := Sweep.invariant (n := KEYCODE_UPPERBOUND)
    (P := fun n (mapped : WhistKeycode → Bool) => ∀ k, mapped k = true ↔ ∃ i, i.val < n ∧ modmapFor osType i = k ∧
      (i.val : ℤ) < keyboardState.numKeycodes ∧ keyboardState.state i ≠ 0)
    (f := fun mapped k => Function.update mapped (modmapFor osType k) (mapped (modmapFor osType k) ||
      (decide ((k.val : ℤ) < keyboardState.numKeycodes) && decide (keyboardState.state k ≠ 0))))
    (s := fun _ => false) ?_ ?_
  · refine (h k).trans ⟨?_,?_⟩
    · rintro ⟨i,-,hi⟩
      exact ⟨i,hi⟩
    · rintro ⟨i,hi⟩
      exact ⟨i,i.isLt,hi⟩
  · intro k
    simp
  · intro i mapped h k
    rw [Function.update_apply]
    by_cases hk : k = modmapFor osType i
    · subst hk
      rw [if_pos rfl, Bool.or_eq_true, h, Bool.and_eq_true, decide_eq_true_iff, decide_eq_true_iff]
      constructor
      · rintro (⟨j,hj,hmap,hstate⟩ | hstate)
        · exact ⟨j,Nat.lt_succ_of_lt hj,hmap,hstate⟩
        · exact ⟨i,Nat.lt_succ_self _,rfl,hstate⟩
      · rintro ⟨j,hj,hmap,hstate⟩
        rcases Nat.lt_succ_iff_lt_or_eq.mp hj with hj | hj
        · exact Or.inl ⟨j,hj,hmap,hstate⟩
        · obtain rfl := Fin.ext hj
          exact Or.inr hstate
    · rw [if_neg hk, h]
      constructor
      · rintro ⟨j,hj,hrest⟩
        exact ⟨j,Nat.lt_succ_of_lt hj,hrest⟩
      · rintro ⟨j,hj,hmap,hstate⟩
        rcases Nat.lt_succ_iff_lt_or_eq.mp hj with hj | hj
        · exact ⟨j,hj,hmap,hstate⟩
        · obtain rfl := Fin.ext hj
          exact absurd hmap.symm hk

theorem mappedKeys_lock (h : IsLock lock) (hclient : mappedKeys osType keyboardState lock = true) :
    keyboardState.state lock ≠ 0 := by
  obtain ⟨i,hi,-,hstate⟩ := mappedKeys_iff.mp hclient
  rw [modmapFor_lock h] at hi
  rwa [← hi]

theorem originMapping_maps : originMapping osType k = FK_UNKNOWN ∨ modmapFor osType (originMapping osType k) = k := by
  have h := Sweep.invariant (n := KEYCODE_UPPERBOUND)
    (P := fun _ (origin : WhistKeycode → WhistKeycode) => ∀ k, origin k = FK_UNKNOWN ∨ modmapFor osType (origin k) = k)
    (f := fun origin k => Function.update origin (modmapFor osType k) k) (s := fun _ => FK_UNKNOWN) ?_ ?_
  · exact h k
  · intro k
    exact Or.inl rfl
  · intro i origin h k
    rw [Function.update_apply]
    split_ifs with hk
    · exact Or.inr hk.symm
    · exact h k

theorem modmapFor_unknown : modmapFor osType FK_UNKNOWN = FK_UNKNOWN := by
  cases osType <;> rfl

theorem synced_of_self (hself : modmapFor osType k = k) (hk : k ≠ FK_UNKNOWN) : synced osType k = true := by
  have h := Sweep.invariant (n := KEYCODE_UPPERBOUND)
    (P := fun n (origin : WhistKeycode → WhistKeycode) => k.val < n → origin k ≠ FK_UNKNOWN)
    (f := fun origin k => Function.update origin (modmapFor osType k) k) (s := fun _ => FK_UNKNOWN) ?_ ?_
  · exact decide_eq_true (h k.isLt)
  · intro hlt
    exact absurd hlt (Nat.not_lt_zero _)
  · intro i origin h hlt
    rw [Function.update_apply]
    split_ifs with hi
    · rintro rfl
      exact hk (hi.trans modmapFor_unknown)
    · rcases Nat.lt_succ_iff_lt_or_eq.mp hlt with hlt | hlt
      · exact h hlt
      · obtain rfl := Fin.ext hlt
        exact absurd hself.symm hi

theorem synced_lock (h : IsLock lock) : synced osType lock = true := by
  refine synced_of_self ((modmapFor_lock h).mpr rfl) ?_
  rintro rfl
  revert h
  decide

theorem originMapping_lock (h : IsLock lock) : originMapping osType lock = lock := by
  rcases @originMapping_maps osType lock with hu | hm
  · exact absurd hu (of_decide_eq_true (synced_lock h))
  · exact (modmapFor_lock h).mp hm

theorem originMapping_synced (h : synced osType k = true) : modmapFor osType (originMapping osType k) = k :=
  originMapping_maps.resolve_left (of_decide_eq_true h)

end Whist.Keyboard
