import Mathlib.Algebra.BigOperators.Group.Finset.Basic
import Whist.Server.Client

/-! # Activation excludes deactivation -/
namespace Whist.Server

open scoped BigOperators

variable {ι : Type}

def RWLock.NoWriter (rw : RWLock) : Prop := rw.numWriters = 0 ∧ rw.isActiveWriter = false

def Client.Deactivating (c : Client ι) : Prop := c.isActive = true ∧ c.isDeactivating = true

def Management.deactivates (m : Management) : Prop := m = .loop ∨ m = .exitPermanent

def ManagementOk (c : Client ι) : Management → Prop
  | .loop | .exitCheck | .done => True
  | .connectClient | .exitPermanent => c.isActive = false
  | .checkDeactivating | .messages => c.isActive = true
  | .exitDeactivate => c.Deactivating

def MainPcOk (c : Client ι) (m : Management) : Pc → Prop
  | .outside => c.activationRwlock.NoWriter ∧ ManagementOk c m
  | .activateClient => c.activationRwlock.NoWriter ∧ m = .loop ∧ c.isActive = false
  | .startDeactivatingClient =>
    c.activationRwlock.NoWriter ∧ (m = .messages ∨ m = .exitDeactivate) ∧ c.isActive = true
  | .deactivateClient | .writeLock =>
    c.activationRwlock.NoWriter ∧ m.deactivates ∧ c.Deactivating
  | .writeLockReaders =>
    c.activationRwlock.numWriters = 1 ∧ c.activationRwlock.isActiveWriter = false ∧
      m.deactivates ∧ c.Deactivating
  | .writeLockWriter | .writeUnlockCount =>
    c.activationRwlock.numWriters = 1 ∧ c.activationRwlock.isActiveWriter = false ∧
      c.activationRwlock.numActiveReaders ≤ 0 ∧ m.deactivates ∧ c.Deactivating
  | .writeUnlock =>
    c.activationRwlock.numWriters = 1 ∧ c.activationRwlock.numActiveReaders ≤ 0 ∧
      m.deactivates ∧ c.Deactivating
  | .deactivateClientFinish =>
    c.activationRwlock.NoWriter ∧ c.activationRwlock.numActiveReaders ≤ 0 ∧
      m.deactivates ∧ c.Deactivating
  | .permanentlyDeactivateClient =>
    c.activationRwlock.NoWriter ∧ m = .done ∧ c.isActive = false
  | _ => False

def WorkerPcOk (t : ι) (c : Client ι) (locks : ℕ) : Pc → Prop
  | .outside | .clientActiveLock | .clientActiveTrylock => True
  | .startDeactivatingClient | .clientActiveUnlock | .readUnlock => 0 < locks
  | .readLock =>
    c.condMutex = some t ∧ c.isActive = true ∧ c.isDeactivating = false ∧
      c.activationRwlock.numWriters = 0
  | .lockReturn => c.condMutex = some t ∧ 0 < locks
  | _ => False

structure WorkerOk (t : ι) (c : Client ι) (th : Thread) : Prop where
  pc : WorkerPcOk t c th.locks th.pc
  active : 0 < th.locks → c.isActive = true

/-- What a step of thread `t`, not the managing one, does to the client. -/
structure WorkerEffect (t : ι) (c c' : Client ι) : Prop where
  active : c'.isActive = c.isActive
  deactivating : c'.isDeactivating = c.isDeactivating ∨
    c.condMutex = none ∧ c.isActive = true ∧ c'.isDeactivating = true
  condMutex : c'.condMutex = c.condMutex ∨ c.condMutex = none ∨ c.condMutex = some t
  numWriters : c'.activationRwlock.numWriters = c.activationRwlock.numWriters
  isActiveWriter : c'.activationRwlock.isActiveWriter = c.activationRwlock.isActiveWriter
  readers : c.isDeactivating = true →
    c'.activationRwlock.numActiveReaders ≤ c.activationRwlock.numActiveReaders

structure MainEffect (c c' : Client ι) : Prop where
  condMutex : c'.condMutex = c.condMutex
  readers : c'.activationRwlock.numActiveReaders = c.activationRwlock.numActiveReaders
  flags : c'.isActive = c.isActive ∧ c'.isDeactivating = c.isDeactivating ∨ c.condMutex = none
  numWriters : c'.activationRwlock.numWriters = c.activationRwlock.numWriters ∨
    c.isDeactivating = true
  active : c.isActive = true →
    c'.isActive = true ∨ c.activationRwlock.numActiveReaders ≤ 0
  deactivating : c.isDeactivating = true → c'.isDeactivating = true ∨ c'.isActive = false

theorem WorkerEffect.refl (t : ι) (c : Client ι) : WorkerEffect t c c :=
  ⟨rfl,Or.inl rfl,Or.inl rfl,rfl,rfl,fun _ => le_rfl⟩

theorem MainEffect.refl (c : Client ι) : MainEffect c c :=
  ⟨rfl,rfl,Or.inl ⟨rfl,rfl⟩,Or.inl rfl,fun h => Or.inl h,fun h => Or.inl h⟩

theorem MainPcOk.numWriters {c : Client ι} {m : Management} {pc : Pc} (h : MainPcOk c m pc)
    (hd : c.isDeactivating = false) : c.activationRwlock.numWriters = 0 := by
  cases pc
  case outside => exact h.1.1
  all_goals simp_all [MainPcOk, RWLock.NoWriter, Client.Deactivating]

theorem MainPcOk.stable {t : ι} {c c' : Client ι} {m : Management} {pc : Pc}
    (h : MainPcOk c m pc) (he : WorkerEffect t c c') : MainPcOk c' m pc := by
  obtain ⟨ha,hd,-,hn,hw,hr⟩ := he
  have hdeact : c.Deactivating → c'.Deactivating := by
    rintro ⟨h1,h2⟩
    refine ⟨ha.trans h1,?_⟩
    rcases hd with hd | ⟨-,-,hd⟩
    · exact hd.trans h2
    · exact hd
  have hreaders : c.Deactivating → c.activationRwlock.numActiveReaders ≤ 0 →
      c'.activationRwlock.numActiveReaders ≤ 0 := fun h1 h2 => (hr h1.2).trans h2
  have hno : c.activationRwlock.NoWriter → c'.activationRwlock.NoWriter :=
    fun h => ⟨hn.trans h.1,hw.trans h.2⟩
  cases pc with
  | outside =>
    refine ⟨hno h.1,?_⟩
    have h2 := h.2
    cases m
    case exitDeactivate => exact hdeact h2
    all_goals simp_all [ManagementOk]
  | activateClient => exact ⟨hno h.1,h.2.1,ha.trans h.2.2⟩
  | startDeactivatingClient => exact ⟨hno h.1,h.2.1,ha.trans h.2.2⟩
  | deactivateClient => exact ⟨hno h.1,h.2.1,hdeact h.2.2⟩
  | writeLock => exact ⟨hno h.1,h.2.1,hdeact h.2.2⟩
  | writeLockReaders =>
    obtain ⟨h1,h2,h3,h4⟩ := h
    exact ⟨hn.trans h1,hw.trans h2,h3,hdeact h4⟩
  | writeLockWriter =>
    obtain ⟨h1,h2,h3,h4,h5⟩ := h
    exact ⟨hn.trans h1,hw.trans h2,hreaders h5 h3,h4,hdeact h5⟩
  | writeUnlock =>
    obtain ⟨h1,h2,h3,h4⟩ := h
    exact ⟨hn.trans h1,hreaders h4 h2,h3,hdeact h4⟩
  | writeUnlockCount =>
    obtain ⟨h1,h2,h3,h4,h5⟩ := h
    exact ⟨hn.trans h1,hw.trans h2,hreaders h5 h3,h4,hdeact h5⟩
  | deactivateClientFinish =>
    obtain ⟨h1,h2,h3,h4⟩ := h
    exact ⟨hno h1,hreaders h4 h2,h3,hdeact h4⟩
  | permanentlyDeactivateClient => exact ⟨hno h.1,h.2.1,ha.trans h.2.2⟩
  | clientActiveLock => exact h.elim
  | clientActiveTrylock => exact h.elim
  | readLock => exact h.elim
  | lockReturn => exact h.elim
  | clientActiveUnlock => exact h.elim
  | readUnlock => exact h.elim

theorem WorkerOk.stable {t u : ι} {c c' : Client ι} {th : Thread} (h : WorkerOk u c th)
    (hne : u ≠ t) (he : WorkerEffect t c c') : WorkerOk u c' th := by
  obtain ⟨ha,hd,hm,hn,-,-⟩ := he
  have hown : c.condMutex = some u → c'.condMutex = some u := by
    intro hu
    rcases hm with hm | hm | hm
    · exact hm.trans hu
    · rw [hu] at hm
      cases hm
    · rw [hu] at hm
      exact absurd (Option.some.inj hm) hne
  refine ⟨?_,fun hl => ha.trans (h.active hl)⟩
  obtain ⟨pc,locks⟩ := th
  have hpc := h.pc
  cases pc
  case readLock =>
    obtain ⟨h1,h2,h3,h4⟩ := hpc
    refine ⟨hown h1,ha.trans h2,?_,hn.trans h4⟩
    rcases hd with hd | ⟨hd,-⟩
    · exact hd.trans h3
    · rw [h1] at hd
      cases hd
  case lockReturn => exact ⟨hown hpc.1,hpc.2⟩
  all_goals exact hpc

theorem WorkerOk.stable_main {u : ι} {c c' : Client ι} {th : Thread} (h : WorkerOk u c th)
    (hl : (th.locks : ℤ) ≤ c.activationRwlock.numActiveReaders) (he : MainEffect c c') :
    WorkerOk u c' th := by
  obtain ⟨hm,-,hf,hn,ha,-⟩ := he
  refine ⟨?_,fun hpos => ?_⟩
  · obtain ⟨pc,locks⟩ := th
    have hpc := h.pc
    cases pc
    case readLock =>
      obtain ⟨h1,h2,h3,h4⟩ := hpc
      rcases hf with ⟨hf1,hf2⟩ | hf
      · rcases hn with hn | hn
        · exact ⟨hm.trans h1,hf1.trans h2,hf2.trans h3,hn.trans h4⟩
        · rw [h3] at hn
          cases hn
      · rw [h1] at hf
        cases hf
    case lockReturn => exact ⟨hm.trans hpc.1,hpc.2⟩
    all_goals exact hpc
  · rcases ha (h.active hpos) with ha | ha
    · exact ha
    · omega

structure WorkerAdvance (t : ι) (c c' : Client ι) (th th' : Thread) : Prop where
  ok : WorkerOk t c' th'
  effect : WorkerEffect t c c'
  readers : c'.activationRwlock.numActiveReaders + th.locks =
    c.activationRwlock.numActiveReaders + th'.locks
  granted : th.locks < th'.locks → c.isActive = true ∧ c.isDeactivating = false

theorem WorkerAdvance.moved {t : ι} {c : Client ι} {pc pc' : Pc} {locks : ℕ}
    (h : WorkerOk t c ⟨pc,locks⟩) (hpc : WorkerPcOk t c locks pc') :
    WorkerAdvance t c c ⟨pc,locks⟩ ⟨pc',locks⟩ :=
  ⟨⟨hpc,h.active⟩,WorkerEffect.refl t c,rfl,fun hlt => absurd hlt (lt_irrefl _)⟩

theorem WorkerEffect.condMutex_set {t : ι} {c : Client ι} (o : Option ι)
    (h : c.condMutex = none ∨ c.condMutex = some t) : WorkerEffect t c { c with condMutex := o } :=
  ⟨rfl,Or.inl rfl,Or.inr h,rfl,rfl,fun _ => le_rfl⟩

theorem WorkerEffect.readers_set {t : ι} {c : Client ι} {n : ℤ}
    (h : c.isDeactivating = true → n ≤ c.activationRwlock.numActiveReaders) :
    WorkerEffect t c { c with
      activationRwlock := { c.activationRwlock with numActiveReaders := n } } :=
  ⟨rfl,Or.inl rfl,Or.inl rfl,rfl,rfl,h⟩

theorem WorkerAdvance.entered {t : ι} {c : Client ι} {pc : Pc} {locks : ℕ}
    (h : WorkerOk t c ⟨pc,locks⟩) (hm : c.condMutex = none)
    (hc : (c.isActive && !c.isDeactivating) = true)
    (hw : c.isDeactivating = false → c.activationRwlock.numWriters = 0) :
    WorkerAdvance t c { c with condMutex := some t } ⟨pc,locks⟩ ⟨.readLock,locks⟩ := by
  rw [Bool.and_eq_true, Bool.not_eq_true'] at hc
  exact ⟨⟨⟨rfl,hc.1,hc.2,hw hc.2⟩,h.active⟩,WorkerEffect.condMutex_set _ (Or.inl hm),rfl,
    fun hlt => absurd hlt (lt_irrefl _)⟩

theorem worker_advance {t : ι} {c : Client ι} {th : Thread} (h : WorkerOk t c th)
    (hw : c.isDeactivating = false → c.activationRwlock.numWriters = 0) :
    ∃ c' th', advance t c th = .ok (c',th') ∧ WorkerAdvance t c c' th th' := by
  obtain ⟨pc,locks⟩ := th
  have hpc := h.pc
  have hstay := WorkerAdvance.moved h hpc
  cases pc with
  | outside => exact ⟨c,_,rfl,hstay⟩
  | startDeactivatingClient =>
    by_cases hm : c.condMutex = none
    · have ha := h.active hpc
      refine ⟨{ c with isDeactivating := true },⟨.outside,locks⟩,?_,⟨trivial,h.active⟩,?_,rfl,
        fun hlt => absurd hlt (lt_irrefl _)⟩
      · simp [advance, hm, startDeactivatingClient, ha, Except.map]
      · exact ⟨rfl,Or.inr ⟨hm,ha,rfl⟩,Or.inl rfl,rfl,rfl,fun _ => le_rfl⟩
    · exact ⟨c,_,by simp [advance, hm],hstay⟩
  | clientActiveLock =>
    by_cases hm : c.condMutex = none
    · by_cases hc : (c.isActive && !c.isDeactivating) = true
      · exact ⟨_,_,by simp only [advance, hm, if_true, clientActiveLock, hc],
          WorkerAdvance.entered h hm hc hw⟩
      · by_cases hp : c.isPermanentlyDeactivated = true
        · refine ⟨c,⟨.outside,locks⟩,?_,WorkerAdvance.moved h trivial⟩
          simp only [advance, hm, if_true, clientActiveLock, if_neg hc, hp]
        · refine ⟨c,_,?_,hstay⟩
          simp only [advance, hm, if_true, clientActiveLock, if_neg hc, if_neg hp]
    · exact ⟨c,_,by simp [advance, hm],hstay⟩
  | clientActiveTrylock =>
    by_cases hm : c.condMutex = none
    · by_cases hc : (c.isActive && !c.isDeactivating) = true
      · exact ⟨_,_,by simp only [advance, hm, if_true, clientActiveTrylock, hc],
          WorkerAdvance.entered h hm hc hw⟩
      · refine ⟨c,⟨.outside,locks⟩,?_,WorkerAdvance.moved h trivial⟩
        simp only [advance, hm, if_true, clientActiveTrylock, if_neg hc]
    · exact ⟨c,_,by simp [advance, hm],hstay⟩
  | readLock =>
    obtain ⟨h1,h2,h3,h4⟩ := hpc
    refine ⟨{ c with activationRwlock := { c.activationRwlock with
      numActiveReaders := c.activationRwlock.numActiveReaders + 1 } },⟨.lockReturn,locks + 1⟩,?_,?_⟩
    · simp [advance, RWLock.readLock, h4]
    · refine ⟨⟨⟨h1,Nat.succ_pos _⟩,fun _ => h2⟩,WorkerEffect.readers_set (fun hd => ?_),?_,
        fun _ => ⟨h2,h3⟩⟩
      · rw [h3] at hd
        cases hd
      · push_cast
        ring
  | lockReturn =>
    exact ⟨_,_,rfl,⟨trivial,h.active⟩,WorkerEffect.condMutex_set _ (Or.inr hpc.1),rfl,
      fun hlt => absurd hlt (lt_irrefl _)⟩
  | clientActiveUnlock =>
    have hl : locks ≠ 0 := Nat.pos_iff_ne_zero.mp hpc
    refine ⟨c,⟨.readUnlock,locks⟩,?_,WorkerAdvance.moved h hpc⟩
    simp [advance, clientActiveUnlock, hl, h.active hpc, Except.map]
  | readUnlock =>
    refine ⟨_,_,rfl,⟨trivial,fun _ => h.active hpc⟩,WorkerEffect.readers_set (fun _ => ?_),?_,
      fun hlt => ?_⟩
    · exact sub_le_self _ zero_le_one
    · have hl : (1 : ℕ) ≤ locks := hpc
      simp only [RWLock.readUnlock]
      push_cast [hl]
      ring
    · exact absurd hlt (Nat.not_lt.mpr (Nat.sub_le _ _))
  | activateClient => exact hpc.elim
  | deactivateClient => exact hpc.elim
  | writeLock => exact hpc.elim
  | writeLockReaders => exact hpc.elim
  | writeLockWriter => exact hpc.elim
  | writeUnlock => exact hpc.elim
  | writeUnlockCount => exact hpc.elim
  | deactivateClientFinish => exact hpc.elim
  | permanentlyDeactivateClient => exact hpc.elim

theorem MainEffect.writer_set {c : Client ι} (hd : c.isDeactivating = true) (n : ℤ) (b : Bool) :
    MainEffect c { c with
      activationRwlock := { c.activationRwlock with numWriters := n, isActiveWriter := b } } :=
  ⟨rfl,rfl,Or.inl ⟨rfl,rfl⟩,Or.inr hd,fun h => Or.inl h,fun h => Or.inl h⟩

theorem main_advance {main : ι} {c : Client ι} {m : Management} {th : Thread}
    (h : MainPcOk c m th.pc) :
    ∃ c' pc', advance main c th = .ok (c',⟨pc',th.locks⟩) ∧ MainPcOk c' m pc' ∧
      MainEffect c c' := by
  obtain ⟨pc,locks⟩ := th
  have hstay := MainEffect.refl c
  cases pc with
  | outside => exact ⟨c,_,rfl,h,hstay⟩
  | activateClient =>
    by_cases hm : c.condMutex = none
    · refine ⟨activateClient c,.outside,?_,?_,?_⟩
      · simp [advance, hm]
      · obtain ⟨h1,rfl,-⟩ := h
        exact ⟨h1,trivial⟩
      · exact ⟨rfl,rfl,Or.inr hm,Or.inl rfl,fun _ => Or.inl rfl,fun hd => Or.inl hd⟩
    · exact ⟨c,_,by simp [advance, hm],h,hstay⟩
  | startDeactivatingClient =>
    by_cases hm : c.condMutex = none
    · obtain ⟨h1,h2,h3⟩ := h
      refine ⟨{ c with isDeactivating := true },.outside,?_,⟨h1,?_⟩,?_⟩
      · simp [advance, hm, startDeactivatingClient, h3, Except.map]
      · rcases h2 with rfl | rfl
        · exact h3
        · exact ⟨h3,rfl⟩
      · exact ⟨rfl,rfl,Or.inr hm,Or.inl rfl,fun ha => Or.inl ha,fun _ => Or.inl rfl⟩
    · exact ⟨c,_,by simp [advance, hm],h,hstay⟩
  | deactivateClient =>
    refine ⟨c,.writeLock,?_,h,hstay⟩
    obtain ⟨-,-,h3,h4⟩ := h
    simp [advance, deactivateClient, h3, h4, Except.map]
  | writeLock =>
    obtain ⟨⟨h1,h2⟩,h3,h4⟩ := h
    exact ⟨_,.writeLockReaders,rfl,⟨by simp [h1],h2,h3,h4⟩,MainEffect.writer_set h4.2 _ _⟩
  | writeLockReaders =>
    by_cases hr : c.activationRwlock.numActiveReaders > 0
    · exact ⟨c,_,by simp only [advance, if_pos hr],h,hstay⟩
    · obtain ⟨h1,h2,h3,h4⟩ := h
      exact ⟨c,.writeLockWriter,by simp only [advance, if_neg hr],
        ⟨h1,h2,not_lt.mp hr,h3,h4⟩,hstay⟩
  | writeLockWriter =>
    obtain ⟨h1,h2,h3,h4,h5⟩ := h
    refine ⟨{ c with activationRwlock := { c.activationRwlock with isActiveWriter := true } },
      .writeUnlock,?_,⟨h1,h3,h4,h5⟩,MainEffect.writer_set h5.2 _ _⟩
    simp [advance, h2]
  | writeUnlock =>
    obtain ⟨h1,h2,h3,h4⟩ := h
    exact ⟨_,.writeUnlockCount,rfl,⟨h1,rfl,h2,h3,h4⟩,MainEffect.writer_set h4.2 _ _⟩
  | writeUnlockCount =>
    obtain ⟨h1,h2,h3,h4,h5⟩ := h
    exact ⟨_,.deactivateClientFinish,rfl,⟨⟨by simp [h1],h2⟩,h3,h4,h5⟩,
      MainEffect.writer_set h5.2 _ _⟩
  | deactivateClientFinish =>
    by_cases hm : c.condMutex = none
    · obtain ⟨h1,h2,h3,-⟩ := h
      refine ⟨deactivateClientFinish c,.outside,?_,⟨h1,?_⟩,?_⟩
      · simp [advance, hm]
      · rcases h3 with rfl | rfl
        · exact trivial
        · rfl
      · exact ⟨rfl,rfl,Or.inr hm,Or.inl rfl,fun _ => Or.inr h2,fun _ => Or.inr rfl⟩
    · exact ⟨c,_,by simp [advance, hm],h,hstay⟩
  | permanentlyDeactivateClient =>
    by_cases hm : c.condMutex = none
    · obtain ⟨h1,rfl,h3⟩ := h
      refine ⟨{ c with isPermanentlyDeactivated := true },.outside,?_,⟨h1,trivial⟩,?_⟩
      · simp [advance, hm, permanentlyDeactivateClient, h3, Except.map]
      · exact ⟨rfl,rfl,Or.inl ⟨rfl,rfl⟩,Or.inl rfl,fun ha => Or.inl ha,fun hd => Or.inl hd⟩
    · exact ⟨c,_,by simp [advance, hm],h,hstay⟩
  | clientActiveLock => exact h.elim
  | clientActiveTrylock => exact h.elim
  | readLock => exact h.elim
  | lockReturn => exact h.elim
  | clientActiveUnlock => exact h.elim
  | readUnlock => exact h.elim

theorem manage_ok {c : Client ι} {m : Management} (h : MainPcOk c m .outside) (choice : Choice) :
    ∃ m' pc', manage c m choice = .ok (m',pc') ∧ MainPcOk c m' pc' := by
  obtain ⟨hw,hm⟩ := h
  cases m with
  | loop =>
    cases choice with
    | exit => exact ⟨_,_,rfl,hw,trivial⟩
    | proceed | connected | disconnected =>
      cases ha : c.isActive
      · exact ⟨.connectClient,.outside,by simp [manage, ha],hw,ha⟩
      · exact ⟨.checkDeactivating,.outside,by simp [manage, ha],hw,ha⟩
  | connectClient =>
    have ha : c.isActive = false := hm
    cases choice with
    | exit => exact ⟨_,_,rfl,hw,trivial⟩
    | connected => exact ⟨.loop,.activateClient,by simp [manage, ha],hw,rfl,ha⟩
    | proceed => exact ⟨.loop,.outside,by simp [manage, ha],hw,trivial⟩
    | disconnected => exact ⟨.loop,.outside,by simp [manage, ha],hw,trivial⟩
  | checkDeactivating =>
    cases hd : c.isDeactivating
    · exact ⟨.messages,.outside,by simp [manage, hd],hw,hm⟩
    · exact ⟨.loop,.deactivateClient,by simp [manage, hd],hw,Or.inl rfl,hm,hd⟩
  | messages =>
    cases choice with
    | disconnected => exact ⟨_,_,rfl,hw,Or.inl rfl,hm⟩
    | proceed => exact ⟨_,_,rfl,hw,trivial⟩
    | exit => exact ⟨_,_,rfl,hw,trivial⟩
    | connected => exact ⟨_,_,rfl,hw,trivial⟩
  | exitCheck =>
    cases ha : c.isActive
    · exact ⟨.exitPermanent,.outside,by simp [manage, ha],hw,ha⟩
    · exact ⟨.exitDeactivate,.startDeactivatingClient,by simp [manage, ha],hw,Or.inr rfl,ha⟩
  | exitDeactivate => exact ⟨_,_,rfl,hw,Or.inr rfl,hm⟩
  | exitPermanent => exact ⟨_,_,rfl,hw,rfl,hm⟩
  | done => exact ⟨_,_,rfl,hw,trivial⟩

def Counted (c : Client ι) (threads : ι → Thread) : Prop :=
  ∃ S : Finset ι, (∀ t, 0 < (threads t).locks → t ∈ S) ∧
    c.activationRwlock.numActiveReaders = ∑ t ∈ S, ((threads t).locks : ℤ)

theorem Counted.locks_le {c : Client ι} {threads : ι → Thread} (h : Counted c threads) (t : ι) :
    ((threads t).locks : ℤ) ≤ c.activationRwlock.numActiveReaders := by
  obtain ⟨S,hS,hr⟩ := h
  rw [hr]
  by_cases ht : t ∈ S
  · exact Finset.single_le_sum (f := fun t => ((threads t).locks : ℤ)) (fun u _ => by positivity) ht
  · have h0 : (threads t).locks = 0 := Nat.eq_zero_of_not_pos (fun hp => ht (hS t hp))
    rw [h0]
    exact Finset.sum_nonneg (fun u _ => by positivity)

structure Inv (main : ι) (s : ServerState ι) : Prop where
  management : MainPcOk s.client s.management (s.threads main).pc
  unlocked : (s.threads main).locks = 0
  worker : ∀ t ≠ main, WorkerOk t s.client (s.threads t)
  counted : Counted s.client s.threads

/-- What every step keeps to: locks are granted to an active client that does not deactivate,
a deactivation once started lasts until the client is inactive, and it is over only when
nobody holds a lock. -/
structure Exclusive (s s' : ServerState ι) : Prop where
  granted : ∀ t, (s.threads t).locks < (s'.threads t).locks →
    s.client.isActive = true ∧ s.client.isDeactivating = false
  started : s.client.isDeactivating = true →
    s'.client.isDeactivating = true ∨ s'.client.isActive = false
  finished : s.client.isActive = true → s'.client.isActive = false →
    ∀ t, (s.threads t).locks = 0 ∧ (s'.threads t).locks = 0

variable [DecidableEq ι]

theorem Counted.update {c c' : Client ι} {threads : ι → Thread} (h : Counted c threads) {t : ι}
    {th : Thread} (hr : c'.activationRwlock.numActiveReaders + (threads t).locks =
      c.activationRwlock.numActiveReaders + th.locks) :
    Counted c' (Function.update threads t th) := by
  obtain ⟨S,hS,hc⟩ := h
  have hmem : ∀ u, 0 < (threads u).locks → u ∈ insert t S :=
    fun u hu => Finset.mem_insert_of_mem (hS u hu)
  have hsum : ∑ u ∈ S, ((threads u).locks : ℤ) = ∑ u ∈ insert t S, ((threads u).locks : ℤ) := by
    apply Finset.sum_subset (Finset.subset_insert t S)
    intro u _ hu
    have h0 : (threads u).locks = 0 := Nat.eq_zero_of_not_pos (fun hp => hu (hS u hp))
    simp [h0]
  refine ⟨insert t S,fun u hu => ?_,?_⟩
  · by_cases hut : u = t
    · exact hut ▸ Finset.mem_insert_self t S
    · rw [Function.update_of_ne hut] at hu
      exact hmem u hu
  · have ht := Finset.mem_insert_self t S
    rw [hsum, ← Finset.add_sum_erase _ _ ht] at hc
    rw [← Finset.add_sum_erase _ _ ht, Function.update_self]
    have herase : ∑ u ∈ (insert t S).erase t, ((Function.update threads t th u).locks : ℤ) =
        ∑ u ∈ (insert t S).erase t, ((threads u).locks : ℤ) := by
      apply Finset.sum_congr rfl
      intro u hu
      rw [Function.update_of_ne (Finset.ne_of_mem_erase hu)]
    rw [herase]
    linarith

theorem Counted.moved {c : Client ι} {threads : ι → Thread} (h : Counted c threads) (t : ι)
    (pc : Pc) : Counted c (Function.update threads t { threads t with pc := pc }) :=
  h.update rfl

theorem update_locks {threads : ι → Thread} {t : ι} {th : Thread}
    (h : th.locks = (threads t).locks) (u : ι) :
    (Function.update threads t th u).locks = (threads u).locks := by
  by_cases hu : u = t
  · rw [hu, Function.update_self, h]
  · rw [Function.update_of_ne hu]

omit [DecidableEq ι] in
theorem Exclusive.of_eq {s s' : ServerState ι} (hc : s'.client = s.client)
    (hl : ∀ t, (s'.threads t).locks = (s.threads t).locks) : Exclusive s s' := by
  refine ⟨fun t ht => ?_,fun hd => Or.inl (hc ▸ hd),fun h1 h2 => ?_⟩
  · rw [hl] at ht
    exact absurd ht (lt_irrefl _)
  · rw [hc, h1] at h2
    cases h2

theorem advance_ok {main t : ι} {s : ServerState ι} (h : Inv main s) :
    ∃ s', step main s (t,.advance) = .ok s' ∧ Inv main s' ∧ Exclusive s s' := by
  by_cases ht : t = main
  · subst ht
    obtain ⟨c,pc,hadv,hok,heff⟩ := @main_advance _ t _ _ _ h.management
    have hsame : ∀ u, (Function.update s.threads t ⟨pc,(s.threads t).locks⟩ u).locks =
        (s.threads u).locks := update_locks rfl
    refine ⟨{ s with client := c, threads := Function.update s.threads t ⟨pc,(s.threads t).locks⟩ },
      by simp [step, hadv, Except.map],⟨?_,?_,?_,h.counted.update (by rw [heff.readers])⟩,?_,?_,?_⟩
    · simpa using hok
    · simpa using h.unlocked
    · intro u hu
      dsimp only
      rw [Function.update_of_ne hu]
      exact (h.worker u hu).stable_main (h.counted.locks_le u) heff
    · intro u hu
      dsimp only at hu
      rw [hsame] at hu
      exact absurd hu (lt_irrefl _)
    · exact heff.deactivating
    · intro ha ha' u
      dsimp only
      rw [hsame]
      have hle := h.counted.locks_le u
      rcases heff.active ha with hc | hc
      · exact absurd (hc.symm.trans ha') (by simp)
      · omega
  · have hw : s.client.isDeactivating = false → s.client.activationRwlock.numWriters = 0 :=
      fun hd => h.management.numWriters hd
    obtain ⟨c,th,hadv,hok,heff,hread,hgrant⟩ := worker_advance (h.worker t ht) hw
    refine ⟨{ s with client := c, threads := Function.update s.threads t th },
      by simp [step, hadv, Except.map],⟨?_,?_,?_,h.counted.update hread⟩,?_,?_,?_⟩
    · dsimp only
      rw [Function.update_of_ne (Ne.symm ht)]
      exact h.management.stable heff
    · dsimp only
      rw [Function.update_of_ne (Ne.symm ht)]
      exact h.unlocked
    · intro u hu
      by_cases hut : u = t
      · dsimp only
        rw [hut, Function.update_self]
        exact hok
      · dsimp only
        rw [Function.update_of_ne hut]
        exact (h.worker u hu).stable hut heff
    · intro u hu
      by_cases hut : u = t
      · dsimp only at hu
        rw [hut, Function.update_self] at hu
        exact hgrant hu
      · dsimp only at hu
        rw [Function.update_of_ne hut] at hu
        exact absurd hu (lt_irrefl _)
    · intro hd
      rcases heff.deactivating with he | ⟨-,-,he⟩
      · exact Or.inl (he.trans hd)
      · exact Or.inl he
    · intro ha ha'
      rw [heff.active, ha] at ha'
      cases ha'

theorem call_ok {main t : ι} {s : ServerState ι} (h : Inv main s) (f : Call) :
    ∃ s', step main s (t,.call f) = .ok s' ∧ Inv main s' ∧ Exclusive s s' := by
  by_cases hc : t ≠ main ∧ (s.threads t).pc = .outside ∧ f.allowed (s.threads t)
  · refine ⟨_,if_pos hc,⟨?_,?_,?_,h.counted.moved t _⟩,Exclusive.of_eq rfl (update_locks rfl)⟩
    · dsimp only
      rw [Function.update_of_ne (Ne.symm hc.1)]
      exact h.management
    · dsimp only
      rw [Function.update_of_ne (Ne.symm hc.1)]
      exact h.unlocked
    · intro u hu
      by_cases hut : u = t
      · dsimp only
        rw [hut, Function.update_self]
        refine ⟨?_,(h.worker t hc.1).active⟩
        have hf := hc.2.2
        cases f with
        | clientActiveLock => exact trivial
        | clientActiveTrylock => exact trivial
        | clientActiveUnlock => exact of_decide_eq_true (p := 0 < (s.threads t).locks) hf
        | startDeactivatingClient => exact of_decide_eq_true (p := 0 < (s.threads t).locks) hf
      · dsimp only
        rw [Function.update_of_ne hut]
        exact h.worker u hu
  · exact ⟨s,if_neg hc,h,Exclusive.of_eq rfl (fun _ => rfl)⟩

theorem manage_step_ok {main t : ι} {s : ServerState ι} (h : Inv main s) (choice : Choice) :
    ∃ s', step main s (t,.manage choice) = .ok s' ∧ Inv main s' ∧ Exclusive s s' := by
  by_cases hc : t = main ∧ (s.threads t).pc = .outside
  · obtain ⟨rfl,hpc⟩ := hc
    obtain ⟨m,pc,hm,hok⟩ := manage_ok (hpc ▸ h.management) choice
    refine ⟨{ s with
      management := m
      threads := Function.update s.threads t { s.threads t with pc := pc } },
      by simp [step, hpc, hm, Except.map],⟨?_,?_,?_,h.counted.moved t _⟩,
      Exclusive.of_eq rfl (update_locks rfl)⟩
    · simpa using hok
    · simpa using h.unlocked
    · intro u hu
      dsimp only
      rw [Function.update_of_ne hu]
      exact h.worker u hu
  · exact ⟨s,if_neg hc,h,Exclusive.of_eq rfl (fun _ => rfl)⟩

theorem step_ok {main : ι} {s : ServerState ι} (h : Inv main s) (e : ι × Action) :
    ∃ s', step main s e = .ok s' ∧ Inv main s' ∧ Exclusive s s' := by
  obtain ⟨t,a⟩ := e
  cases a with
  | advance => exact advance_ok h
  | call f => exact call_ok h f
  | manage choice => exact manage_step_ok h choice

omit [DecidableEq ι] in
theorem initClient_inv (main : ι) : Inv main (initClient : ServerState ι) :=
  ⟨⟨⟨rfl,rfl⟩,trivial⟩,rfl,fun _ _ => ⟨trivial,fun h => absurd h (lt_irrefl _)⟩,
    ⟨∅,fun _ h => absurd h (lt_irrefl _),rfl⟩⟩

/-- Whatever the threads do and in whatever order, no assertion fails, a client on which
a lock is held is active, and the step taken next is exclusive too. -/
theorem client_activation_exclusive (main : ι) (schedule : List (ι × Action)) :
    ∃ s, Run.run (step main) initClient schedule = .ok s ∧
      (∀ t, 0 < (s.threads t).locks → s.client.isActive = true) ∧
      ∀ e, ∃ s', step main s e = .ok s' ∧ Exclusive s s' := by
  obtain ⟨s,hs,hinv⟩ := Run.run_ok_of_invariant
    (fun s e (h : Inv main s) => (step_ok h e).imp (fun _ h' => ⟨h'.1,h'.2.1⟩)) schedule
    (initClient_inv main)
  refine ⟨s,hs,fun t ht => ?_,fun e => ?_⟩
  · by_cases hm : t = main
    · rw [hm, hinv.unlocked] at ht
      exact absurd ht (lt_irrefl _)
    · exact (hinv.worker t hm).active ht
  · obtain ⟨s',h1,-,h2⟩ := step_ok hinv e
    exact ⟨s',h1,h2⟩

end Whist.Server
