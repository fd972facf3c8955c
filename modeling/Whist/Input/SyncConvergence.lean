import Whist.Input.SyncConditions

/-! # The synchronisation loop -/
namespace Whist.Keyboard
open Mapping

section
variable {m : Mapping} {osType : WhistOSType} {client : WhistKeycode → Bool} {k : WhistKeycode}

theorem AgreesBelow.mono {n n' : ℕ} (h : m.AgreesBelow osType client n') (hle : n ≤ n') :
    m.AgreesBelow osType client n := fun k hk => h k (hk.trans_le hle)

theorem met_agrees (h : m.AgreesBelow osType client k.val) : m.met osType client k = m.pressed k := if_pos h

theorem met_differs (h : ¬m.AgreesBelow osType client k.val) : m.met osType client k = m.opened k := if_neg h

theorem agreesBelow_succ (h : m.AgreesBelow osType client k.val) (hk : turns osType k = true → m.met osType client k = client k) :
    m.AgreesBelow osType client (k.val + 1) := by
  intro j hj hturns
  rcases Nat.lt_succ_iff_lt_or_eq.mp hj with hj | hj
  · exact h j hj hturns
  · obtain rfl := Fin.ext hj
    rw [← met_agrees h]
    exact hk hturns

theorem met_of_agreesBelow_succ (h : m.AgreesBelow osType client (k.val + 1)) (hturns : turns osType k = true) :
    m.met osType client k = client k := by
  rw [met_agrees (AgreesBelow.mono h k.val.le_succ)]
  exact h k k.val.lt_succ_self hturns

theorem reached_self (k : WhistKeycode) : m.reached osType client k.val k = m.opened k :=
  if_neg fun h => (lt_irrefl _ h.2)

theorem reached_zero : m.reached osType client 0 = m.opened := by
  funext k
  exact if_neg fun h => (Nat.not_lt_zero _ h.2)

theorem reached_succ (k : WhistKeycode) (hk : synced osType k = true) : m.reached osType client (k.val + 1) =
    Function.update (m.reached osType client k.val) k (client k || (m.hides osType client k && m.opened k)) := by
  funext j
  rw [Function.update_apply, reached, reached]
  by_cases hj : j = k
  · subst hj
    rw [if_pos rfl, if_pos ⟨hk,j.val.lt_succ_self⟩]
  · have hlt : j.val < k.val + 1 ↔ j.val < k.val := by
      have hne : j.val ≠ k.val := fun h => hj (Fin.ext h)
      omega
    rw [if_neg hj]
    simp only [hlt]

theorem reached_succ_same (hk : synced osType k = true → (client k || (m.hides osType client k && m.opened k)) = m.opened k) :
    m.reached osType client (k.val + 1) = m.reached osType client k.val := by
  cases hs : synced osType k with
  | true =>
    rw [reached_succ k hs, hk hs, ← @reached_self m osType client k, Function.update_eq_self]
  | false =>
    funext j
    rw [reached, reached]
    by_cases hj : j = k
    · subst hj
      rw [if_neg (by simp [hs]), if_neg (by simp [hs])]
    · have hlt : j.val < k.val + 1 ↔ j.val < k.val := by
        have hne : j.val ≠ k.val := fun h => hj (Fin.ext h)
        omega
      simp only [hlt]

end

def Syncing.lockOf (s : Syncing) (lock : WhistKeycode) : Bool :=
  if lock = FK_CAPSLOCK then s.serverCapsLock else s.serverNumLock

structure Accounted (m : Mapping) (client : WhistKeycode → Bool) (s : Syncing) : Prop where
  valid : s.mapping.Valid
  server : ∀ lock, IsLock lock → s.lockOf lock = s.mapping.lockOf lock
  lock : ∀ lock, IsLock lock → client lock = false → s.mapping.lockOf lock = m.lockOf lock

structure PassedApple (m : Mapping) (client : WhistKeycode → Bool) (n : ℕ) (s : Syncing) : Prop
    extends Accounted m client s where
  opened : s.mapping.opened = m.reached .whistApple client n
  untouched : m.AgreesBelow .whistApple client n → s.mapping.holdingKeymap = m.holdingKeymap ∧
    (m.holdingKeymap = true → s.mapping.pressed = m.pressed)
  fresh : ¬m.AgreesBelow .whistApple client n → s.mapping.holdingKeymap = true →
    (∀ k, ¬IsLock k → s.mapping.pressed k = s.mapping.opened k) ∧
      ∀ lock, IsLock lock → s.mapping.opened lock = true → lock.val < n ∧ client lock = true
  holding : ¬m.AgreesBelow .whistApple client n →
    (s.mapping.holdingKeymap = true ↔ m.EngagedAt .whistApple client n)

structure PassedOther (m : Mapping) (osType : WhistOSType) (client : WhistKeycode → Bool) (n : ℕ) (s : Syncing) : Prop
    extends Accounted m client s where
  holding : s.mapping.holdingKeymap = m.holdingKeymap
  held : m.holdingKeymap = true → s.mapping.pressed = m.pressed
  opened : m.holdingKeymap = false → s.mapping.opened = m.reached osType client n

section
variable {m : Mapping} {osType : WhistOSType} {keyboardState : WhistKeyboardState} {s : Syncing} {k : WhistKeycode}
  {client : WhistKeycode → Bool} {n : ℕ}

theorem syncKey_left (hk : synced osType k = false) : s.syncKey osType keyboardState k = s :=
  if_pos (by simpa [synced] using hk)

theorem syncKey_same (hpinch : keyboardState.activePinch = false)
    (hsame : s.mapping.pressed k = mappedKeys osType keyboardState k) : s.syncKey osType keyboardState k = s := by
  have hignore : ¬uinputIgnoreKeyState k keyboardState.activePinch = true := by
    simp [uinputIgnoreKeyState, hpinch]
  have hrelease : ¬(mappedKeys osType keyboardState k = false ∧ s.mapping.isPressed k ≠ 0) := by
    rintro ⟨hclient,hpressed⟩
    simp [Mapping.pressed, hclient, hpressed] at hsame
  have hpress : ¬(mappedKeys osType keyboardState k = true ∧ s.mapping.isPressed k = 0) := by
    rintro ⟨hclient,hpressed⟩
    simp [Mapping.pressed, hclient, hpressed] at hsame
  unfold Syncing.syncKey
  rw [if_neg hignore, if_neg hrelease, if_neg hpress, ite_self]

theorem syncKey_differs (hpinch : keyboardState.activePinch = false) (hk : synced osType k = true)
    (hdiffers : s.mapping.pressed k ≠ mappedKeys osType keyboardState k) :
    (s.syncKey osType keyboardState k).mapping = s.mapping.emitMappedKeyEvent osType (originMapping osType k)
        (mappedKeys osType keyboardState k).toNat ∧
      ∀ lock, IsLock lock → (s.syncKey osType keyboardState k).lockOf lock =
        if k = lock ∧ mappedKeys osType keyboardState k = true then !s.lockOf lock else s.lockOf lock := by
  have hignore : ¬uinputIgnoreKeyState k keyboardState.activePinch = true := by
    simp [uinputIgnoreKeyState, hpinch]
  have hknown : ¬originMapping osType k = FK_UNKNOWN := of_decide_eq_true hk
  unfold Syncing.syncKey
  rw [if_neg hknown, if_neg hignore]
  cases hclient : mappedKeys osType keyboardState k with
  | false =>
    rw [hclient, Mapping.pressed] at hdiffers
    rw [if_pos ⟨rfl,by simpa using hdiffers⟩]
    refine ⟨rfl,fun lock hlock => ?_⟩
    rw [if_neg (by simp)]
    rfl
  | true =>
    rw [hclient, Mapping.pressed] at hdiffers
    rw [if_neg (by simp), if_pos ⟨rfl,by simpa using hdiffers⟩]
    refine ⟨rfl,fun lock hlock => ?_⟩
    rcases hlock with rfl | rfl
    · simp [Syncing.lockOf]
    · have hne : ¬FK_NUMLOCK = FK_CAPSLOCK := by decide
      simp [Syncing.lockOf, hne]

theorem Accounted.writes {s' : Syncing} (h : Accounted m client s) (hw : Writes s.mapping s'.mapping k (client k))
    (hlocks : ∀ lock, IsLock lock → s'.lockOf lock = if k = lock ∧ client k = true then !s.lockOf lock else s.lockOf lock) :
    Accounted m client s' where
  valid := hw.valid
  server lock hlock := by rw [hlocks lock hlock, hw.lockOf hlock, h.server lock hlock]
  lock lock hlock hclient := by
    rw [hw.lockOf hlock, if_neg, h.lock lock hlock hclient]
    rintro ⟨rfl,htrue⟩
    rw [hclient] at htrue
    cases htrue

theorem Accounted.presses {s' : Syncing} (h : Accounted m client s) (hp : Presses s.mapping s'.mapping k (client k))
    (hk : ¬IsLock k)
    (hlocks : ∀ lock, IsLock lock → s'.lockOf lock = if k = lock ∧ client k = true then !s.lockOf lock else s.lockOf lock) :
    Accounted m client s' where
  valid := hp.valid
  server lock hlock := by
    rw [hlocks lock hlock, if_neg, hp.lockOf, h.server lock hlock]
    rintro ⟨rfl,-⟩
    exact hk hlock
  lock lock hlock hclient := by rw [hp.lockOf, h.lock lock hlock hclient]

end

section
variable {m : Mapping} {keyboardState : WhistKeyboardState} {s : Syncing} {k : WhistKeycode}
  {client : WhistKeycode → Bool}

theorem pressed_free_opened (hheld : m.holdingKeymap = false) : m.pressed = m.opened := by
  rw [pressed_free hheld, opened_free hheld]

theorem PassedApple.hides_iff (h : PassedApple m client k.val s)
    (hsucc : m.AgreesBelow .whistApple client (k.val + 1) ↔ m.AgreesBelow .whistApple client k.val)
    (hfree : s.mapping.holdingKeymap = false) : m.hides .whistApple client k = false := by
  rw [hides, Bool.and_eq_false_iff, decide_eq_false_iff_not, hsucc]
  by_cases hagrees : m.AgreesBelow .whistApple client k.val
  · left
    rw [← (h.untouched hagrees).1, hfree]
  · exact Or.inr hagrees

theorem PassedApple.opened_self (h : PassedApple m client k.val s) : s.mapping.opened k = m.opened k := by
  rw [h.opened, reached_self]

theorem PassedApple.pressed_met (h : PassedApple m client k.val s) (hk : ¬IsLock k) :
    s.mapping.pressed k = m.met .whistApple client k := by
  by_cases hagrees : m.AgreesBelow .whistApple client k.val
  · obtain ⟨hheld,hpressed⟩ := h.untouched hagrees
    rw [met_agrees hagrees]
    cases hh : m.holdingKeymap with
    | true => rw [hpressed hh]
    | false =>
      rw [pressed_free_opened (hheld.trans hh), pressed_free_opened hh]
      exact h.opened_self
  · rw [met_differs hagrees, ← h.opened_self]
    cases hh : s.mapping.holdingKeymap with
    | true => exact (h.fresh hagrees hh).1 k hk
    | false => rw [pressed_free_opened hh]

theorem turns_eq {osType : WhistOSType} (hs : synced osType k = true) (hk : ¬IsLock k) : turns osType k = true := by
  rw [turns, hs, Bool.true_and]
  exact decide_eq_true hk

theorem not_lock_of_turns {osType : WhistOSType} (h : turns osType k = true) : synced osType k = true ∧ ¬IsLock k := by
  rw [turns, Bool.and_eq_true, decide_eq_true_iff] at h
  exact h

theorem PassedApple.turned {s' : Syncing} (h : PassedApple m client k.val s) (hk : turns .whistApple k = true)
    (hdiffers : m.met .whistApple client k ≠ client k) (hp : Presses s.mapping s'.mapping k (client k))
    (haccounted : Accounted m client s') : PassedApple m client (k.val + 1) s' := by
  obtain ⟨hs,hlock⟩ := not_lock_of_turns hk
  have hsucc : ¬m.AgreesBelow .whistApple client (k.val + 1) :=
    fun hagrees => hdiffers (met_of_agreesBelow_succ hagrees hk)
  have hhides : m.hides .whistApple client k = false := by
    rw [hides, decide_eq_false hsucc, Bool.and_false]
  have hreached : Function.update s.mapping.opened k (client k) = m.reached .whistApple client (k.val + 1) := by
    rw [reached_succ k hs, h.opened, hhides, Bool.false_and, Bool.or_false]
  have hopened := hp.opened.trans hreached
  refine ⟨haccounted,hopened,fun hagrees => absurd hagrees hsucc,fun _ hheld => ⟨fun j _ => ?_,fun lock hl ho => ?_⟩,
    fun _ => ?_⟩
  · rw [hp.pressed]
  · have hno := (hp.holding.mp hheld).2.lock hl
    rw [← hp.opened, ho] at hno
    cases hno
  · rw [hp.holding, hreached]
    constructor
    · rintro ⟨hpress,hcompletes⟩
      have hmet : m.met .whistApple client k = false := by
        rw [hpress] at hdiffers
        simpa using hdiffers
      refine ⟨k,k.val.lt_succ_self,⟨hk,hpress,hmet,hcompletes⟩,fun j hlt hle => ?_⟩
      have hlt : k.val < j.val := hlt
      omega
    · rintro ⟨j,hj,hengages,hafter⟩
      rcases Nat.lt_succ_iff_lt_or_eq.mp hj with hj | hj
      · exact absurd (hafter k hj k.val.lt_succ_self hk) hdiffers
      · obtain rfl := Fin.ext hj
        exact ⟨hengages.2.1,hengages.2.2.2⟩

theorem PassedApple.same (h : PassedApple m client k.val s) (hk : ¬IsLock k)
    (hsame : turns .whistApple k = true → m.met .whistApple client k = client k) :
    PassedApple m client (k.val + 1) s := by
  have hsucc : m.AgreesBelow .whistApple client (k.val + 1) ↔ m.AgreesBelow .whistApple client k.val :=
    ⟨fun hagrees => AgreesBelow.mono hagrees k.val.le_succ,fun hagrees => agreesBelow_succ hagrees hsame⟩
  have hreached : m.reached .whistApple client (k.val + 1) = m.reached .whistApple client k.val := by
    refine reached_succ_same fun hs => ?_
    have hmet := hsame (turns_eq hs hk)
    rw [hides, decide_eq_decide.mpr hsucc, ← hmet]
    by_cases hagrees : m.AgreesBelow .whistApple client k.val
    · rw [met_agrees hagrees, decide_eq_true hagrees, Bool.and_true]
      cases hheld : m.holdingKeymap with
      | true =>
        rw [opened_held hheld, Bool.true_and, ← Bool.or_assoc, Bool.or_self]
      | false => rw [pressed_free_opened hheld, Bool.false_and, Bool.or_false]
    · rw [met_differs hagrees, decide_eq_false hagrees, Bool.and_false, Bool.false_and, Bool.or_false]
  refine ⟨h.toAccounted,?_,fun hagrees => h.untouched (hsucc.mp hagrees),fun hagrees hheld => ?_,fun hagrees => ?_⟩
  · rw [hreached, h.opened]
  · obtain ⟨hpressed,hlocks⟩ := h.fresh (mt hsucc.mpr hagrees) hheld
    exact ⟨hpressed,fun lock hl ho => ⟨Nat.lt_succ_of_lt (hlocks lock hl ho).1,(hlocks lock hl ho).2⟩⟩
  · rw [h.holding (mt hsucc.mpr hagrees)]
    constructor
    · rintro ⟨j,hj,hengages,hafter⟩
      refine ⟨j,Nat.lt_succ_of_lt hj,hengages,fun i hlt hi hturns => ?_⟩
      rcases Nat.lt_succ_iff_lt_or_eq.mp hi with hi | hi
      · exact hafter i hlt hi hturns
      · obtain rfl := Fin.ext hi
        exact hsame hturns
    · rintro ⟨j,hj,hengages,hafter⟩
      rcases Nat.lt_succ_iff_lt_or_eq.mp hj with hj | hj
      · exact ⟨j,hj,hengages,fun i hlt hi => hafter i hlt (Nat.lt_succ_of_lt hi)⟩
      · obtain rfl := Fin.ext hj
        obtain ⟨hturns,hclient,hmet,-⟩ := hengages
        rw [hsame hturns, hclient] at hmet
        cases hmet

theorem agreesBelow_lock {osType : WhistOSType} (hk : IsLock k) :
    m.AgreesBelow osType client (k.val + 1) ↔ m.AgreesBelow osType client k.val := by
  refine ⟨fun h => AgreesBelow.mono h k.val.le_succ,fun h => agreesBelow_succ h fun hturns => ?_⟩
  exact absurd hk (not_lock_of_turns hturns).2

theorem engagedAt_lock {osType : WhistOSType} (hk : IsLock k) :
    m.EngagedAt osType client (k.val + 1) ↔ m.EngagedAt osType client k.val := by
  constructor
  · rintro ⟨j,hj,hengages,hafter⟩
    rcases Nat.lt_succ_iff_lt_or_eq.mp hj with hj | hj
    · exact ⟨j,hj,hengages,fun i hlt hi => hafter i hlt (Nat.lt_succ_of_lt hi)⟩
    · obtain rfl := Fin.ext hj
      exact absurd hk (not_lock_of_turns hengages.1).2
  · rintro ⟨j,hj,hengages,hafter⟩
    refine ⟨j,Nat.lt_succ_of_lt hj,hengages,fun i hlt hi hturns => ?_⟩
    rcases Nat.lt_succ_iff_lt_or_eq.mp hi with hi | hi
    · exact hafter i hlt hi hturns
    · obtain rfl := Fin.ext hi
      exact absurd hk (not_lock_of_turns hturns).2

theorem PassedApple.reached_lock (h : PassedApple m client k.val s) (hk : IsLock k) :
    (s.mapping.pressed k = client k →
      (client k || (m.hides .whistApple client k && m.opened k)) = s.mapping.opened k) ∧
    (s.mapping.pressed k ≠ client k →
      (client k || (m.hides .whistApple client k && m.opened k)) = client k) := by
  rw [h.opened_self]
  cases hheld : s.mapping.holdingKeymap with
  | false =>
    rw [h.hides_iff (agreesBelow_lock hk) hheld, Bool.false_and, Bool.or_false,
      pressed_free_opened hheld, h.opened_self]
    exact ⟨fun hsame => hsame.symm,fun _ => rfl⟩
  | true =>
    rw [(h.valid.completes hheld).lock hk]
    constructor
    · intro hsame
      rw [← hsame, Bool.false_or]
      by_cases hagrees : m.AgreesBelow .whistApple client k.val
      · rw [hides, ← (h.untouched hagrees).1, hheld, decide_eq_true ((agreesBelow_lock hk).mpr hagrees),
          Bool.true_and, Bool.true_and]
      · have hno : m.opened k = false := by
          rw [← h.opened_self, Bool.eq_false_iff]
          exact fun ho => lt_irrefl _ ((h.fresh hagrees hheld).2 k hk ho).1
        rw [hno, Bool.and_false]
    · intro hne
      have hclient : client k = true := by
        cases hc : client k with
        | true => rfl
        | false => exact absurd hc.symm hne
      rw [hclient, Bool.true_or]

theorem PassedApple.lockSame (h : PassedApple m client k.val s) (hk : IsLock k) (hsame : s.mapping.pressed k = client k) :
    PassedApple m client (k.val + 1) s := by
  have hreached : m.reached .whistApple client (k.val + 1) = s.mapping.opened := by
    rw [reached_succ k (synced_lock hk), (h.reached_lock hk).1 hsame, ← h.opened, Function.update_eq_self]
  refine ⟨h.toAccounted,hreached.symm,?_,?_,?_⟩
  · rw [agreesBelow_lock hk]
    exact h.untouched
  · rw [agreesBelow_lock hk]
    intro hagrees hheld
    obtain ⟨hpressed,hlocks⟩ := h.fresh hagrees hheld
    exact ⟨hpressed,fun lock hl ho => ⟨Nat.lt_succ_of_lt (hlocks lock hl ho).1,(hlocks lock hl ho).2⟩⟩
  · rw [agreesBelow_lock hk, engagedAt_lock hk]
    exact h.holding

theorem PassedApple.lockWritten {s' : Syncing} (h : PassedApple m client k.val s) (hk : IsLock k)
    (hdiffers : s.mapping.pressed k ≠ client k) (hw : Writes s.mapping s'.mapping k (client k))
    (haccounted : Accounted m client s') : PassedApple m client (k.val + 1) s' := by
  have hreached : s'.mapping.opened = m.reached .whistApple client (k.val + 1) := by
    rw [reached_succ k (synced_lock hk), (h.reached_lock hk).2 hdiffers, hw.opened hk, h.opened]
  refine ⟨haccounted,hreached,?_,?_,?_⟩
  · rw [agreesBelow_lock hk, hw.holding]
    intro hagrees
    obtain ⟨hheld,hpressed⟩ := h.untouched hagrees
    exact ⟨hheld,fun hh => (hw.held (hheld.trans hh)).trans (hpressed hh)⟩
  · rw [agreesBelow_lock hk, hw.holding, hw.opened hk]
    intro hagrees hheld
    obtain ⟨hpressed,hlocks⟩ := h.fresh hagrees hheld
    constructor
    · intro j hj
      have hne : j ≠ k := by
        rintro rfl
        exact hj hk
      rw [hw.held hheld, Function.update_of_ne hne, hpressed j hj]
    · intro lock hl ho
      rw [Function.update_apply] at ho
      split_ifs at ho with heq
      · subst heq
        exact ⟨lock.val.lt_succ_self,ho⟩
      · exact ⟨Nat.lt_succ_of_lt (hlocks lock hl ho).1,(hlocks lock hl ho).2⟩
  · rw [agreesBelow_lock hk, engagedAt_lock hk, hw.holding]
    exact h.holding

theorem PassedApple.step (hpinch : keyboardState.activePinch = false)
    (h : PassedApple m (mappedKeys .whistApple keyboardState) k.val s) :
    PassedApple m (mappedKeys .whistApple keyboardState) (k.val + 1) (s.syncKey .whistApple keyboardState k) := by
  cases hs : synced .whistApple k with
  | false =>
    have hk : ¬IsLock k := by
      intro hk
      rw [synced_lock hk] at hs
      cases hs
    rw [syncKey_left hs]
    refine h.same hk fun hturns => ?_
    rw [(not_lock_of_turns hturns).1] at hs
    cases hs
  | true =>
    by_cases hsame : s.mapping.pressed k = mappedKeys .whistApple keyboardState k
    · rw [syncKey_same hpinch hsame]
      by_cases hk : IsLock k
      · exact h.lockSame hk hsame
      · exact h.same hk fun _ => (h.pressed_met hk).symm.trans hsame
    · obtain ⟨hmapping,hlocks⟩ := syncKey_differs hpinch hs hsame
      by_cases hk : IsLock k
      · have hw : Writes s.mapping (s.syncKey .whistApple keyboardState k).mapping k
            (mappedKeys .whistApple keyboardState k) := by
          rw [hmapping, originMapping_lock hk]
          exact emitMappedKeyEvent_writes h.valid (Or.inl hk)
        exact h.lockWritten hk hsame hw (h.toAccounted.writes hw hlocks)
      · have horigin : modmap (originMapping .whistApple k) = k := originMapping_synced hs
        have hnot : ¬IsLock (originMapping .whistApple k) := by
          rw [← modmap_isLock, horigin]
          exact hk
        have hp : Presses s.mapping (s.syncKey .whistApple keyboardState k).mapping k
            (mappedKeys .whistApple keyboardState k) := by
          rw [hmapping]
          have hpress := @emitMappedKeyEvent_presses s.mapping (mappedKeys .whistApple keyboardState k) h.valid
            (originMapping .whistApple k) hnot
          rw [horigin] at hpress
          exact hpress fun _ => hsame
        rw [h.pressed_met hk] at hsame
        exact h.turned (turns_eq hs hk) hsame hp (h.toAccounted.presses hp hk hlocks)

end

section
variable {m : Mapping} {osType : WhistOSType} {keyboardState : WhistKeyboardState} {s : Syncing} {k : WhistKeycode}
  {client : WhistKeycode → Bool}

theorem originMapping_other (hos : osType ≠ .whistApple) (hs : synced osType k = true) : originMapping osType k = k := by
  have h := originMapping_synced hs
  rwa [modmapFor, if_neg hos] at h

theorem PassedOther.step (hos : osType ≠ .whistApple) (hpinch : keyboardState.activePinch = false)
    (h : PassedOther m osType (mappedKeys osType keyboardState) k.val s) :
    PassedOther m osType (mappedKeys osType keyboardState) (k.val + 1) (s.syncKey osType keyboardState k) := by
  have hhides : m.holdingKeymap = false → m.hides osType (mappedKeys osType keyboardState) k = false := by
    intro hheld
    rw [hides, hheld, Bool.false_and]
  cases hs : synced osType k with
  | false =>
    rw [syncKey_left hs]
    refine ⟨h.toAccounted,h.holding,h.held,fun hheld => ?_⟩
    rw [h.opened hheld, reached_succ_same]
    intro hs'
    rw [hs] at hs'
    cases hs'
  | true =>
    by_cases hsame : s.mapping.pressed k = mappedKeys osType keyboardState k
    · rw [syncKey_same hpinch hsame]
      refine ⟨h.toAccounted,h.holding,h.held,fun hheld => ?_⟩
      rw [h.opened hheld, reached_succ_same]
      intro _
      rw [hhides hheld, Bool.false_and, Bool.or_false, ← hsame, pressed_free_opened (h.holding.trans hheld),
        h.opened hheld, reached_self]
    · obtain ⟨hmapping,hlocks⟩ := syncKey_differs hpinch hs hsame
      have hw : Writes s.mapping (s.syncKey osType keyboardState k).mapping k (mappedKeys osType keyboardState k) := by
        rw [hmapping, originMapping_other hos hs]
        exact emitMappedKeyEvent_writes h.valid (Or.inr hos)
      refine ⟨h.toAccounted.writes hw hlocks,hw.holding.trans h.holding,fun hheld => ?_,fun hheld => ?_⟩
      · rw [hw.held (h.holding.trans hheld), h.held hheld]
      · have hfree := h.holding.trans hheld
        rw [opened_free (hw.holding.trans hfree), hw.shown, reached_succ k hs, hhides hheld, Bool.false_and,
          Bool.or_false, ← opened_free hfree, h.opened hheld]

end

section
variable {osType : WhistOSType} {keyboardState : WhistKeyboardState} {s : Syncing} {lock : WhistKeycode}
  {server client clientHolding : Bool}

/-- What `syncLock` does, when the server's account of the lock is right. -/
structure LockSynced (m m' : Mapping) (lock : WhistKeycode) (server client clientHolding : Bool) : Prop where
  valid : m'.Valid
  holding : m'.holdingKeymap = m.holdingKeymap
  held : m.holdingKeymap = true → m'.pressed = m.pressed
  shown : m'.shown = if server ≠ client then Function.update m.shown lock clientHolding else m.shown
  locked : m'.lockOf lock = client
  other : ∀ l, IsLock l → l ≠ lock → m'.lockOf l = m.lockOf l

theorem syncLock_synced (hvalid : s.mapping.Valid) (hlock : IsLock lock) (hserver : server = s.mapping.lockOf lock) :
    LockSynced s.mapping (s.syncLock osType lock server client clientHolding).mapping lock server client
      clientHolding := by
  unfold Syncing.syncLock
  by_cases hne : server ≠ client
  · have htwice : ∀ first : Bool, LockSynced s.mapping ((s.mapping.emitMappedKeyEvent osType lock first.toNat).emitMappedKeyEvent
        osType lock (!first).toNat) lock server client (!first) := by
      intro first
      have hw : Writes s.mapping (s.mapping.emitMappedKeyEvent osType lock first.toNat) lock first :=
        emitMappedKeyEvent_writes hvalid (Or.inl hlock)
      generalize s.mapping.emitMappedKeyEvent osType lock first.toNat = m₁ at hw
      have hw' : Writes m₁ (m₁.emitMappedKeyEvent osType lock (!first).toNat) lock (!first) :=
        emitMappedKeyEvent_writes hw.valid (Or.inl hlock)
      refine ⟨hw'.valid,hw'.holding.trans hw.holding,fun hheld => ?_,?_,?_,fun l hl hother => ?_⟩
      · rw [hw'.held (hw.holding.trans hheld), hw.held hheld]
      · rw [if_pos hne, hw'.shown, hw.shown, Function.update_idem]
      · rw [hw'.lockOf hlock, hw.lockOf hlock, ← hserver]
        rw [Bool.eq_not.mpr hne.symm]
        cases first <;> simp
      · rw [hw'.lockOf hl, hw.lockOf hl, if_neg fun h => hother h.1.symm, if_neg fun h => hother h.1.symm]
    rw [if_pos hne]
    cases clientHolding with
    | true => exact htwice false
    | false => exact htwice true
  · rw [if_neg hne]
    exact ⟨hvalid,rfl,fun _ => rfl,(if_neg hne).symm,hserver ▸ not_not.mp hne,fun _ _ _ => rfl⟩

end

section
variable {m : Mapping} {osType : WhistOSType} {keyboardState : WhistKeyboardState} {s : Syncing}

def Mapping.starting (m : Mapping) : Syncing where
  mapping := m
  serverCapsLock := decide (uinputGetKeyboardModifierState m.device FK_CAPSLOCK ≠ 0)
  serverNumLock := decide (uinputGetKeyboardModifierState m.device FK_NUMLOCK ≠ 0)

def Syncing.syncLocks (osType : WhistOSType) (keyboardState : WhistKeyboardState) (s : Syncing) : Syncing :=
  let s := s.syncLock osType FK_CAPSLOCK s.serverCapsLock keyboardState.capsLock
    (decide (keyboardState.state FK_CAPSLOCK ≠ 0))
  s.syncLock osType FK_NUMLOCK s.serverNumLock keyboardState.numLock (decide (keyboardState.state FK_NUMLOCK ≠ 0))

theorem updateMappedKeyboardState_eq : m.updateMappedKeyboardState osType keyboardState =
    let s := (Sweep.sweep KEYCODE_UPPERBOUND (Syncing.syncKey osType keyboardState) m.starting).syncLocks osType keyboardState
    (s.mapping,s.events) := rfl

theorem starting_accounted (hm : m.Valid) (client : WhistKeycode → Bool) : Accounted m client m.starting where
  valid := hm
  lock _ _ _ := rfl
  server lock hlock := by
    have hbool : ∀ b : Bool, decide (b.toInt ≠ 0) = b := by decide
    rcases hlock with rfl | rfl
    · exact hbool m.device.capsLock
    · exact hbool m.device.numLock

theorem update_if_apply (f : WhistKeycode → Bool) (l k : WhistKeycode) (b : Bool) (p : Prop) [Decidable p] :
    (if p then Function.update f l b else f) k = if k = l ∧ p then b else f k := by
  by_cases hp : p
  · rw [if_pos hp, Function.update_apply]
    exact if_congr ⟨fun h => ⟨h,hp⟩,fun h => h.1⟩ rfl rfl
  · rw [if_neg hp, if_neg fun h => hp h.2]

structure Finished (m m' : Mapping) (keyboardState : WhistKeyboardState) : Prop where
  holding : m'.holdingKeymap = m.holdingKeymap
  held : m.holdingKeymap = true → m'.pressed = m.pressed
  lock : ∀ lock, IsLock lock → m'.lockOf lock = keyboardState.lockOf lock
  shown : ∀ k, m'.shown k =
    if IsLock k ∧ m.lockOf k ≠ keyboardState.lockOf k then decide (keyboardState.state k ≠ 0) else m.shown k

theorem syncLocks_finished {client : WhistKeycode → Bool} (h : Accounted m client s) :
    Finished s.mapping (s.syncLocks osType keyboardState).mapping keyboardState := by
  have hne : FK_NUMLOCK ≠ FK_CAPSLOCK := by decide
  have hcapsLock : IsLock FK_CAPSLOCK := Or.inl rfl
  have hnumLock : IsLock FK_NUMLOCK := Or.inr rfl
  have hcaps := @syncLock_synced osType s FK_CAPSLOCK s.serverCapsLock keyboardState.capsLock
    (decide (keyboardState.state FK_CAPSLOCK ≠ 0)) h.valid hcapsLock (h.server _ hcapsLock)
  have hflag : (s.syncLock osType FK_CAPSLOCK s.serverCapsLock keyboardState.capsLock
      (decide (keyboardState.state FK_CAPSLOCK ≠ 0))).serverNumLock = s.serverNumLock := by
    unfold Syncing.syncLock
    split_ifs <;> rfl
  unfold Syncing.syncLocks
  dsimp only
  generalize s.syncLock osType FK_CAPSLOCK s.serverCapsLock keyboardState.capsLock
    (decide (keyboardState.state FK_CAPSLOCK ≠ 0)) = s₁ at hcaps hflag
  have hserver : s₁.serverNumLock = s₁.mapping.lockOf FK_NUMLOCK := by
    rw [hflag, hcaps.other _ hnumLock hne, ← h.server _ hnumLock]
    rfl
  have hnum := @syncLock_synced osType s₁ FK_NUMLOCK s₁.serverNumLock keyboardState.numLock
    (decide (keyboardState.state FK_NUMLOCK ≠ 0)) hcaps.valid hnumLock hserver
  refine ⟨hnum.holding.trans hcaps.holding,fun hheld => ?_,fun lock hlock => ?_,fun k => ?_⟩
  · rw [hnum.held (hcaps.holding.trans hheld), hcaps.held hheld]
  · rcases hlock with rfl | rfl
    · exact (hnum.other _ hcapsLock hne.symm).trans hcaps.locked
    · exact hnum.locked
  · have hcaps₀ : s.serverCapsLock = s.mapping.lockOf FK_CAPSLOCK := h.server _ hcapsLock
    have hnum₀ : s₁.serverNumLock = s.mapping.lockOf FK_NUMLOCK :=
      hserver.trans (hcaps.other _ hnumLock hne)
    rw [hnum.shown, hcaps.shown, hcaps₀, hnum₀]
    rw [update_if_apply, update_if_apply]
    have hd : ∀ lock, IsLock lock → ∀ client, keyboardState.lockOf lock = client →
        (lock = lock ∧ s.mapping.lockOf lock ≠ client ↔
          IsLock lock ∧ s.mapping.lockOf lock ≠ keyboardState.lockOf lock) := by
      rintro lock hlock client rfl
      exact ⟨fun h => ⟨hlock,h.2⟩,fun h => ⟨rfl,h.2⟩⟩
    by_cases hn : k = FK_NUMLOCK
    · subst hn
      exact if_congr (hd _ hnumLock _ rfl) rfl (if_neg fun h => hne h.1)
    · rw [if_neg fun h => hn h.1]
      by_cases hc : k = FK_CAPSLOCK
      · subst hc
        exact if_congr (hd _ hcapsLock _ rfl) rfl rfl
      · rw [if_neg fun h => hc h.1, if_neg fun h => h.1.elim hc hn]

theorem updateMappedKeyboardState_settled (hm : m.Valid) (hpinch : keyboardState.activePinch = false)
    (hkeys : ∀ k, m.pressed k = mappedKeys osType keyboardState k)
    (hlocks : ∀ lock, IsLock lock → m.lockOf lock = keyboardState.lockOf lock) :
    (m.updateMappedKeyboardState osType keyboardState).2 = [] := by
  have haccounted := starting_accounted hm fun _ => true
  have hcaps : m.starting.serverCapsLock = keyboardState.capsLock :=
    (haccounted.server FK_CAPSLOCK (Or.inl rfl)).trans (hlocks FK_CAPSLOCK (Or.inl rfl))
  have hnum : m.starting.serverNumLock = keyboardState.numLock :=
    (haccounted.server FK_NUMLOCK (Or.inr rfl)).trans (hlocks FK_NUMLOCK (Or.inr rfl))
  have hsweep : Sweep.sweep KEYCODE_UPPERBOUND (Syncing.syncKey osType keyboardState) m.starting = m.starting := by
    apply Sweep.invariant (P := fun _ s => s = m.starting) rfl
    rintro k s rfl
    exact syncKey_same hpinch (hkeys k)
  rw [updateMappedKeyboardState_eq, hsweep, Syncing.syncLocks]
  have hfirst : m.starting.syncLock osType FK_CAPSLOCK m.starting.serverCapsLock keyboardState.capsLock
      (decide (keyboardState.state FK_CAPSLOCK ≠ 0)) = m.starting := if_neg (not_not.mpr hcaps)
  have hsecond : m.starting.syncLock osType FK_NUMLOCK m.starting.serverNumLock keyboardState.numLock
      (decide (keyboardState.state FK_NUMLOCK ≠ 0)) = m.starting := if_neg (not_not.mpr hnum)
  dsimp only
  rw [hfirst, hsecond]
  rfl

end

section
variable {m : Mapping} {osType : WhistOSType} {keyboardState : WhistKeyboardState} {s : Syncing} {k : WhistKeycode}

theorem reached_end (k : WhistKeycode) (client : WhistKeycode → Bool) : m.reached osType client KEYCODE_UPPERBOUND k =
    if synced osType k = true then client k || (m.hides osType client k && m.opened k) else m.opened k := by
  rw [reached]
  exact if_congr ⟨fun h => h.1,fun h => ⟨h,k.isLt⟩⟩ rfl rfl

theorem reached_client_iff (client : WhistKeycode → Bool) :
    (∀ k, ¬IsLock k → m.reached osType client KEYCODE_UPPERBOUND k = client k) ↔
      (∀ k, synced osType k = false → m.opened k = client k) ∧
      ∀ k, turns osType k = true → m.hides osType client k = true → m.opened k = true → client k = true := by
  constructor
  · intro h
    refine ⟨fun k hs => ?_,fun k hturns hhides hopened => ?_⟩
    · have hk : ¬IsLock k := by
        intro hk
        rw [synced_lock hk] at hs
        cases hs
      have hreached := h k hk
      rwa [reached_end, if_neg (by simp [hs])] at hreached
    · obtain ⟨hs,hk⟩ := not_lock_of_turns hturns
      have hreached := h k hk
      rw [reached_end, if_pos hs, hhides, hopened, Bool.and_self, Bool.or_true] at hreached
      exact hreached.symm
  · rintro ⟨hleft,hhidden⟩ k hk
    rw [reached_end]
    split_ifs with hs
    · cases hh : m.hides osType client k && m.opened k with
      | false => rw [Bool.or_false]
      | true =>
        obtain ⟨hhides,hopened⟩ := Bool.and_eq_true_iff.mp hh
        rw [hhidden k (turns_eq hs hk) hhides hopened, Bool.true_or]
    · exact hleft k (by simpa using hs)

theorem pressed_free_iff {m' : Mapping} (h : Accounted m (mappedKeys osType keyboardState) s)
    (hfree : s.mapping.holdingKeymap = false)
    (hopened : s.mapping.opened = m.reached osType (mappedKeys osType keyboardState) KEYCODE_UPPERBOUND)
    (hfin : Finished s.mapping m' keyboardState) :
    (∀ k, m'.pressed k = mappedKeys osType keyboardState k) ↔
      (∀ k, ¬IsLock k → m.reached osType (mappedKeys osType keyboardState) KEYCODE_UPPERBOUND k =
        mappedKeys osType keyboardState k) ∧
      ∀ lock, IsLock lock → mappedKeys osType keyboardState lock = false →
        if m.lockOf lock ≠ keyboardState.lockOf lock then keyboardState.state lock = 0
        else ¬(m.hides osType (mappedKeys osType keyboardState) lock = true ∧ m.opened lock = true) := by
  have hpressed : ∀ k, m'.pressed k = if IsLock k ∧ s.mapping.lockOf k ≠ keyboardState.lockOf k then
      decide (keyboardState.state k ≠ 0)
      else m.reached osType (mappedKeys osType keyboardState) KEYCODE_UPPERBOUND k := by
    intro k
    rw [pressed_free (hfin.holding.trans hfree), hfin.shown, ← hopened, opened_free hfree]
  have hkey : ∀ k, ¬IsLock k → m'.pressed k =
      m.reached osType (mappedKeys osType keyboardState) KEYCODE_UPPERBOUND k := by
    intro k hk
    rw [hpressed, if_neg fun h => hk h.1]
  have hlock : ∀ lock, IsLock lock → (m'.pressed lock = mappedKeys osType keyboardState lock ↔
      (mappedKeys osType keyboardState lock = false →
        if m.lockOf lock ≠ keyboardState.lockOf lock then keyboardState.state lock = 0
        else ¬(m.hides osType (mappedKeys osType keyboardState) lock = true ∧ m.opened lock = true))) := by
    intro lock hlock
    rw [hpressed, reached_end, if_pos (synced_lock hlock)]
    cases hclient : mappedKeys osType keyboardState lock with
    | true =>
      have hstate := mappedKeys_lock hlock hclient
      simp [hstate]
    | false =>
      rw [h.lock lock hlock hclient, Bool.false_or]
      by_cases hd : m.lockOf lock ≠ keyboardState.lockOf lock
      · rw [if_pos ⟨hlock,hd⟩, if_pos hd]
        simp
      · rw [if_neg fun h => hd h.2, if_neg hd]
        simp
  constructor
  · intro h
    exact ⟨fun k hk => (hkey k hk).symm.trans (h k),fun lock hl => (hlock lock hl).mp (h lock)⟩
  · rintro ⟨hkeys,hlocks⟩ k
    by_cases hk : IsLock k
    · exact (hlock k hk).mpr (hlocks k hk)
    · exact (hkey k hk).trans (hkeys k hk)

theorem pressed_engaged_iff {m' : Mapping}
    (h : PassedApple m (mappedKeys .whistApple keyboardState) KEYCODE_UPPERBOUND s)
    (hagrees : ¬m.AgreesBelow .whistApple (mappedKeys .whistApple keyboardState) KEYCODE_UPPERBOUND)
    (hheld : s.mapping.holdingKeymap = true) (hfin : Finished s.mapping m' keyboardState) :
    (∀ k, m'.pressed k = mappedKeys .whistApple keyboardState k) ↔
      (∀ k, ¬IsLock k → m.reached .whistApple (mappedKeys .whistApple keyboardState) KEYCODE_UPPERBOUND k =
        mappedKeys .whistApple keyboardState k) ∧
      ∀ lock, IsLock lock → mappedKeys .whistApple keyboardState lock = false := by
  have hlock : ∀ lock, IsLock lock → m'.pressed lock = false := by
    intro lock hl
    rw [hfin.held hheld]
    exact (h.valid.completes hheld).lock hl
  have hkey : ∀ k, ¬IsLock k → m'.pressed k =
      m.reached .whistApple (mappedKeys .whistApple keyboardState) KEYCODE_UPPERBOUND k := by
    intro k hk
    rw [hfin.held hheld, (h.fresh hagrees hheld).1 k hk, h.opened]
  constructor
  · intro hall
    exact ⟨fun k hk => (hkey k hk).symm.trans (hall k),fun lock hl => (hall lock).symm.trans (hlock lock hl)⟩
  · rintro ⟨hkeys,hlocks⟩ k
    by_cases hk : IsLock k
    · rw [hlock k hk, hlocks k hk]
    · exact (hkey k hk).trans (hkeys k hk)

end

theorem emitMappedKeyEvent_valid {m : Mapping} (h : m.Valid) (osType : WhistOSType) (keyCode : WhistKeycode) (p : Bool) :
    (m.emitMappedKeyEvent osType keyCode p.toNat).Valid := by
  by_cases hdirect : IsLock keyCode ∨ osType ≠ .whistApple
  · exact (emitMappedKeyEvent_writes h hdirect).valid
  · rw [not_or, not_not] at hdirect
    obtain ⟨hlock,rfl⟩ := hdirect
    by_cases hsame : m.holdingKeymap = true ∧ m.pressed (modmap keyCode) = p
    · rw [emitMappedKeyEvent_same h hlock hsame.1 hsame.2]
      exact (ensureInitialized_observed h).1
    · exact (emitMappedKeyEvent_presses h hlock fun hheld heq => hsame ⟨hheld,heq⟩).valid

theorem syncLock_valid {s : Syncing} (h : s.mapping.Valid) (osType : WhistOSType) (lock : WhistKeycode)
    (server client clientHolding : Bool) : (s.syncLock osType lock server client clientHolding).mapping.Valid := by
  unfold Syncing.syncLock
  split_ifs
  · exact emitMappedKeyEvent_valid (emitMappedKeyEvent_valid h osType lock false) osType lock true
  · exact emitMappedKeyEvent_valid (emitMappedKeyEvent_valid h osType lock true) osType lock false
  · exact h

theorem updateMappedKeyboardState_valid {m : Mapping} (h : m.Valid) (osType : WhistOSType)
    (keyboardState : WhistKeyboardState) : (m.updateMappedKeyboardState osType keyboardState).1.Valid := by
  have hstep : ∀ (k : WhistKeycode) (s : Syncing), s.mapping.Valid → (s.syncKey osType keyboardState k).mapping.Valid := by
    intro k s hs
    have hpress := emitMappedKeyEvent_valid hs osType (originMapping osType k)
    unfold Syncing.syncKey
    split
    · exact hs
    split
    · exact hs
    split
    · exact hpress false
    split
    · exact hpress true
    · exact hs
  have hend := Sweep.invariant (n := KEYCODE_UPPERBOUND) (P := fun _ (s : Syncing) => s.mapping.Valid)
    (f := Syncing.syncKey osType keyboardState) (s := m.starting) h hstep
  rw [updateMappedKeyboardState_eq]
  generalize Sweep.sweep KEYCODE_UPPERBOUND (Syncing.syncKey osType keyboardState) m.starting = s at hend
  exact syncLock_valid (syncLock_valid hend _ _ _ _ _) _ _ _ _ _

namespace KeyboardServer

theorem run_concat (moves : List KeyboardMove) (mv : KeyboardMove) : run (moves ++ [mv]) = (run moves).step mv := by
  rw [run, List.foldl_append]
  rfl

theorem run_valid (moves : List KeyboardMove) : (run moves).mapping.Valid := by
  induction moves using List.reverseRecOn with
  | nil => exact initial_valid
  | append_singleton moves mv ih =>
    rw [run_concat]
    cases mv with
    | resetInput osType => exact ih
    | key e => exact emitMappedKeyEvent_valid ih _ e.keyCode e.pressed
    | sync keyboardState =>
      dsimp only [step]
      exact updateMappedKeyboardState_valid ih _ keyboardState

variable {s : KeyboardServer} {keyboardState : WhistKeyboardState}

theorem converges_iff_pressed {m' : Mapping} {t : Syncing}
    (hm' : m' = (s.mapping.updateMappedKeyboardState s.inputOsType keyboardState).1) (hvalid : m'.Valid)
    (hpinch : keyboardState.activePinch = false) (hfin : Finished t.mapping m' keyboardState) :
    s.Converges keyboardState ↔ ∀ k, m'.pressed k = mappedKeys s.inputOsType keyboardState k := by
  unfold Converges
  dsimp only
  rw [← hm']
  have hkeys : (∀ k, m'.isPressed k ≠ 0 ↔ mappedKeys s.inputOsType keyboardState k = true) ↔
      ∀ k, m'.pressed k = mappedKeys s.inputOsType keyboardState k := by
    refine forall_congr' fun k => ?_
    cases mappedKeys s.inputOsType keyboardState k <;> simp [Mapping.pressed]
  rw [hkeys]
  refine ⟨fun h => h.1,fun h => ⟨h,?_,?_,?_⟩⟩
  · exact hfin.lock FK_CAPSLOCK (Or.inl rfl)
  · exact hfin.lock FK_NUMLOCK (Or.inr rfl)
  · exact updateMappedKeyboardState_settled hvalid hpinch h hfin.lock

theorem apple_end (hm : s.mapping.Valid) (hpinch : keyboardState.activePinch = false)
    (hos : s.inputOsType = .whistApple) :
    ∃ t, PassedApple s.mapping (mappedKeys .whistApple keyboardState) KEYCODE_UPPERBOUND t ∧
      Finished t.mapping (s.mapping.updateMappedKeyboardState s.inputOsType keyboardState).1 keyboardState := by
  have hend : PassedApple s.mapping (mappedKeys .whistApple keyboardState) KEYCODE_UPPERBOUND
      (Sweep.sweep KEYCODE_UPPERBOUND (Syncing.syncKey .whistApple keyboardState) s.mapping.starting) := by
    apply Sweep.invariant (P := PassedApple s.mapping (mappedKeys .whistApple keyboardState))
    · refine ⟨starting_accounted hm _,reached_zero.symm,fun _ => ⟨rfl,fun _ => rfl⟩,fun h => ?_,fun h => ?_⟩
      · exact absurd (fun k hk => absurd hk (Nat.not_lt_zero _)) h
      · exact absurd (fun k hk => absurd hk (Nat.not_lt_zero _)) h
    · exact fun k t ht => ht.step hpinch
  have heq := congrArg Prod.fst (@updateMappedKeyboardState_eq s.mapping s.inputOsType keyboardState)
  have hfin := @syncLocks_finished s.mapping .whistApple keyboardState _ _ hend.toAccounted
  dsimp only at heq
  rw [heq, hos]
  exact ⟨_,hend,hfin⟩

theorem other_end (hm : s.mapping.Valid) (hpinch : keyboardState.activePinch = false)
    (hos : s.inputOsType ≠ .whistApple) :
    ∃ t, PassedOther s.mapping s.inputOsType (mappedKeys s.inputOsType keyboardState) KEYCODE_UPPERBOUND t ∧
      Finished t.mapping (s.mapping.updateMappedKeyboardState s.inputOsType keyboardState).1 keyboardState := by
  have hend : PassedOther s.mapping s.inputOsType (mappedKeys s.inputOsType keyboardState) KEYCODE_UPPERBOUND
      (Sweep.sweep KEYCODE_UPPERBOUND (Syncing.syncKey s.inputOsType keyboardState) s.mapping.starting) := by
    apply Sweep.invariant (P := PassedOther s.mapping s.inputOsType (mappedKeys s.inputOsType keyboardState))
    · exact ⟨starting_accounted hm _,rfl,fun _ => rfl,fun _ => reached_zero.symm⟩
    · exact fun k t ht => ht.step hos hpinch
  have heq := congrArg Prod.fst (@updateMappedKeyboardState_eq s.mapping s.inputOsType keyboardState)
  have hfin := @syncLocks_finished s.mapping s.inputOsType keyboardState _ _ hend.toAccounted
  dsimp only at heq
  rw [heq]
  exact ⟨_,hend,hfin⟩

/-- The keyboard is the client's after a synchronisation if and only if no keymap hides keys or
locks, and the keys left out are as the client's already. -/
theorem sync_converges_iff (moves : List KeyboardMove) (keyboardState : WhistKeyboardState)
    (hpinch : keyboardState.activePinch = false) :
    (run moves).Converges keyboardState ↔ (run moves).Agrees keyboardState := by
  have hm := run_valid moves
  generalize run moves = s at hm
  have hvalid := updateMappedKeyboardState_valid hm s.inputOsType keyboardState
  obtain ⟨m',hm'⟩ : ∃ m', m' = (s.mapping.updateMappedKeyboardState s.inputOsType keyboardState).1 := ⟨_,rfl⟩
  rw [← hm'] at hvalid
  unfold Agrees
  dsimp only
  by_cases hos : s.inputOsType = .whistApple
  · obtain ⟨t,hend,hfin⟩ := apple_end hm hpinch hos
    rw [← hm'] at hfin
    rw [converges_iff_pressed hm' hvalid hpinch hfin, hos]
    by_cases hkept : s.mapping.holdingKeymap = true ∧
        s.mapping.AgreesBelow .whistApple (mappedKeys .whistApple keyboardState) KEYCODE_UPPERBOUND
    · obtain ⟨hheld,hpressed⟩ := hend.untouched hkept.2
      rw [if_pos ⟨hkept.1,Or.inr hkept.2⟩, hfin.held (hheld.trans hkept.1), hpressed hkept.1]
    · have hnot : ¬(s.mapping.holdingKeymap = true ∧ (WhistOSType.whistApple ≠ .whistApple ∨
          s.mapping.AgreesBelow .whistApple (mappedKeys .whistApple keyboardState) KEYCODE_UPPERBOUND)) := by
        rintro ⟨hheld,hother | hagrees⟩
        · exact hother rfl
        · exact hkept ⟨hheld,hagrees⟩
      rw [if_neg hnot, ← and_assoc, ← reached_client_iff]
      have hengaged : t.mapping.holdingKeymap = true ↔
          s.mapping.EngagedAt .whistApple (mappedKeys .whistApple keyboardState) KEYCODE_UPPERBOUND := by
        by_cases hagrees : s.mapping.AgreesBelow .whistApple (mappedKeys .whistApple keyboardState) KEYCODE_UPPERBOUND
        · have hfree : ¬s.mapping.holdingKeymap = true := fun hheld => hkept ⟨hheld,hagrees⟩
          rw [(hend.untouched hagrees).1]
          refine ⟨fun h => absurd h hfree,?_⟩
          rintro ⟨j,hj,⟨hturns,hclient,hmet,-⟩,-⟩
          rw [met_agrees (AgreesBelow.mono hagrees hj.le), hagrees j hj hturns, hclient] at hmet
          cases hmet
        · exact hend.holding hagrees
      cases hheld : t.mapping.holdingKeymap with
      | false =>
        have hno : ¬s.mapping.EngagedAt .whistApple (mappedKeys .whistApple keyboardState) KEYCODE_UPPERBOUND := by
          rw [← hengaged, hheld]
          decide
        rw [pressed_free_iff hend.toAccounted hheld hend.opened hfin]
        refine and_congr_right fun _ => ⟨fun h => ⟨fun he => absurd he.2 hno,fun _ => h⟩,fun h => h.2 fun he => hno he.2⟩
      | true =>
        have hyes := hengaged.mp hheld
        have hagrees : ¬s.mapping.AgreesBelow .whistApple (mappedKeys .whistApple keyboardState) KEYCODE_UPPERBOUND := by
          intro hagrees
          exact hkept ⟨(hend.untouched hagrees).1.symm.trans hheld,hagrees⟩
        rw [pressed_engaged_iff hend hagrees hheld hfin]
        refine and_congr_right fun _ => ⟨fun h => ⟨fun _ => h,fun hn => absurd ⟨rfl,hyes⟩ hn⟩,fun h => h.1 ⟨rfl,hyes⟩⟩
  · obtain ⟨t,hend,hfin⟩ := other_end hm hpinch hos
    rw [← hm'] at hfin
    rw [converges_iff_pressed hm' hvalid hpinch hfin]
    cases hheld : s.mapping.holdingKeymap with
    | true =>
      rw [if_pos ⟨rfl,Or.inl hos⟩, hfin.held (hend.holding.trans hheld), hend.held hheld]
    | false =>
      rw [if_neg (by simp), ← and_assoc, ← reached_client_iff,
        pressed_free_iff hend.toAccounted (hend.holding.trans hheld) (hend.opened hheld) hfin]
      exact and_congr_right fun _ => ⟨fun h => ⟨fun he => absurd he.1 hos,fun _ => h⟩,fun h => h.2 fun he => hos he.1⟩

def holds (keys : List WhistKeycode) : WhistKeyboardState where
  numKeycodes := KEYCODE_UPPERBOUND
  capsLock := false
  numLock := false
  state k := if keys.any fun i => i = k then 1 else 0
  activePinch := false

theorem mappedKeys_holds (osType : WhistOSType) (keys : List WhistKeycode) (k : WhistKeycode) :
    mappedKeys osType (holds keys) k = decide (∃ i ∈ keys, modmapFor osType i = k) := by
  rw [Bool.eq_iff_iff, mappedKeys_iff, decide_eq_true_iff]
  refine exists_congr fun i => ?_
  have hlt : (i.val : ℤ) < (holds keys).numKeycodes := Int.ofNat_lt.mpr i.isLt
  have hstate : (holds keys).state i ≠ 0 ↔ i ∈ keys := by
    by_cases hi : i ∈ keys
    · simp [holds, hi]
    · simp [holds, hi]
  rw [hstate]
  exact ⟨fun h => ⟨h.2.2,h.1⟩,fun h => ⟨h.2,hlt,h.1⟩⟩

def ctrlY : List KeyboardMove := [.resetInput .whistApple, .key ⟨FK_LCTRL,true⟩, .key ⟨FK_Y,true⟩]

theorem ctrlY_held : (run ctrlY).mapping.holdingKeymap = true ∧
    (run ctrlY).mapping.currentlyPressed = [FK_Y, FK_LCTRL] := by
  decide +kernel

theorem ctrlY_pressed (k : WhistKeycode) : (run ctrlY).mapping.pressed k = decide (k = FK_LCTRL ∨ k = FK_Y) := by
  rw [pressed_held ctrlY_held.1, ctrlY_held.2]
  refine decide_eq_decide.mpr ?_
  rw [List.mem_cons, List.mem_singleton, or_comm]

/-- The keymap of Ctrl+Y stays held while the client holds the keys. -/
theorem sync_converges_iff_ctrlY : (run ctrlY).Converges (holds [FK_RCTRL, FK_Y]) := by
  apply (sync_converges_iff ctrlY (holds [FK_RCTRL, FK_Y]) rfl).mpr
  have hclient : ∀ k, (run ctrlY).mapping.pressed k = mappedKeys .whistApple (holds [FK_RCTRL, FK_Y]) k := by
    intro k
    have hctrl : modmapFor .whistApple FK_RCTRL = FK_LCTRL := rfl
    have hy : modmapFor .whistApple FK_Y = FK_Y := rfl
    rw [ctrlY_pressed, mappedKeys_holds]
    simp only [List.mem_cons, List.not_mem_nil, or_false, exists_eq_or_imp, exists_eq_left, hctrl, hy]
    exact decide_eq_decide.mpr (or_congr eq_comm eq_comm)
  unfold Agrees
  dsimp only
  rw [if_pos ⟨ctrlY_held.1,Or.inr fun k _ _ => hclient k⟩]
  exact hclient

/-- The client leaves while it holds Ctrl+Y, and one of Linux comes: the keys that the keymap
stands for stay pressed. -/
theorem sync_other_client_stuck : ¬∀ (moves : List KeyboardMove) (keyboardState : WhistKeyboardState),
    keyboardState.activePinch = false → (run moves).Converges keyboardState := by
  intro h
  have hconverges := (h (ctrlY ++ [.resetInput .whistLinux]) (holds []) rfl).1 FK_LCTRL
  have hvalid := run_valid (ctrlY ++ [.resetInput .whistLinux])
  rw [run_concat] at hvalid hconverges
  have hother : ((run ctrlY).step (.resetInput .whistLinux)).inputOsType ≠ .whistApple := by
    intro hos
    cases hos
  obtain ⟨t,hend,hfin⟩ := @other_end _ (holds []) hvalid rfl hother
  have hpressed := congrFun (hfin.held (hend.holding.trans ctrlY_held.1)) FK_LCTRL
  rw [hend.held ctrlY_held.1] at hpressed
  have hstuck := hpressed.trans (ctrlY_pressed FK_LCTRL)
  have hclient := hconverges.mp (of_decide_eq_true hstuck)
  rw [mappedKeys_holds] at hclient
  simp at hclient

end KeyboardServer

end Whist.Keyboard
