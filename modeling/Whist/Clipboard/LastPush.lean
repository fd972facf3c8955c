import Whist.Clipboard.ClipboardSynchronizer

/-! # The last completed push wins -/
namespace Whist.Clipboard

open Synchronizer LatestSlot

structure Pushes where
  underWay : Option ClipboardData := none
  completed : List ClipboardData := []

def Pushes.next (p : Pushes) (call : ClipboardData × Bool) : Pushes :=
  let chunk := call.1
  match chunk.chunkType with
  | .start => { p with underWay := if call.2 then some chunk else none }
  | .middle =>
    { p with underWay := p.underWay.map (fun c => { c with data := c.data ++ chunk.data }) }
  | .final =>
    match p.underWay with
    | none => p
    | some c => ⟨none,p.completed ++ [{ c with data := c.data ++ chunk.data }]⟩

def pushesOf (calls : List (ClipboardData × Bool)) : Pushes := calls.foldl Pushes.next {}

def completedPushes (calls : List (ClipboardData × Bool)) : List ClipboardData :=
  (pushesOf calls).completed

def Synchronizer.Updating (s : Synchronizer) (k : ℕ) : Prop :=
  (s.threads k).pc = .setOsClipboard ∨ (s.threads k).pc = .setOsClipboardDone

def Synchronizer.Quiescent (s : Synchronizer) : Prop :=
  ∀ k, (s.threads k).pc = .continueActionWait ∨ (s.threads k).pc = .setOsClipboardTurnWait ∨
    (s.threads k).pc = .finished

/-- What holds of a thread where it is: whether the pusher fills it (`a`), it is queued (`q`)
or it sets the OS clipboard (`u`). -/
def PcOk (a q u : Prop) (th : PushThread) : Pc → Prop
  | .continueAction =>
    ¬u ∧ (a ∧ ¬q ∧ th.complete = false ∧ th.aborting = false ∨
      ¬a ∧ (th.complete = true ∧ th.aborting = false ∨
        ¬q ∧ th.complete = false ∧ th.aborting = true))
  | .continueActionWait => a ∧ ¬q ∧ ¬u ∧ th.complete = false ∧ th.aborting = false
  | .setOsClipboardTurn => ¬a ∧ ¬u ∧ th.complete = true ∧ th.aborting = false
  | .setOsClipboardTurnWait => ¬a ∧ q ∧ ¬u ∧ th.complete = true ∧ th.aborting = false
  | .setOsClipboard | .setOsClipboardDone =>
    ¬a ∧ ¬q ∧ u ∧ th.complete = true ∧ th.aborting = false
  | .finished => ¬a ∧ ¬q ∧ ¬u

def activityOf (a : Option ℕ) : ClipboardActivity where
  isInitialized := true
  clipboardActionType := if a.isSome then .push else .none
  activeClipboardActionThread := a
  abortingPtr := a
  completePtr := a
  clipboardBufferPtr := a

def slotOf (s : Synchronizer) (q u : Option ℕ) : Slot ClipboardData where
  pending := q.map (fun k => (s.threads k).clipboardBuffer)
  running := u.bind (fun k =>
    if (s.threads k).pc = .setOsClipboard then some (s.threads k).clipboardBuffer else none)

structure IdsOk (threads : ℕ → PushThread) (numThreads : ℕ) : Prop where
  created : ∀ k, numThreads ≤ k → (threads k).pc = .finished
  nonzero : ∀ k, (threads k).pc ≠ .finished → (threads k).threadId ≠ 0
  distinct : ∀ j k, (threads j).pc ≠ .finished → (threads k).pc ≠ .finished →
    (threads j).threadId = (threads k).threadId → j = k

/-- The active thread is `a`, the queued one `q` and the one that sets the OS clipboard `u`. -/
structure Inv (os : Option ClipboardData) (p : Pushes) (s : Synchronizer) (a q u : Option ℕ) :
    Prop where
  activity : s.activity = activityOf a
  queued : s.queuedOsClipboardSetterThreadId = q.elim 0 (fun k => (s.threads k).threadId)
  setting : s.settingOsClipboard = u.isSome
  thread : ∀ k, PcOk (a = some k) (q = some k) (u = some k) (s.threads k) (s.threads k).pc
  turn : ∀ k, (s.threads k).pc = .setOsClipboardTurnWait → s.settingOsClipboard = true
  ids : IdsOk s.threads s.numThreads
  slot : Follows s.history (slotOf s q u)
  pushes : p = ⟨a.map (fun k => (s.threads k).clipboardBuffer),posts s.history⟩
  osClipboard : s.osClipboard = (finishes s.history).getLast?.or os

theorem PcOk.bumped {a q u : Prop} {th : PushThread} {pc : Pc} (h : PcOk a q u th pc)
    (hpc : pc ≠ .setOsClipboardTurnWait) (ha : ¬a) : PcOk False False u th pc := by
  cases pc with
  | continueAction =>
    obtain ⟨hu,⟨ha',-⟩ | ⟨-,⟨hc,hab⟩ | ⟨-,hc,hab⟩⟩⟩ := h
    · exact absurd ha' ha
    · exact ⟨hu,Or.inr ⟨id,Or.inl ⟨hc,hab⟩⟩⟩
    · exact ⟨hu,Or.inr ⟨id,Or.inr ⟨id,hc,hab⟩⟩⟩
  | continueActionWait => exact absurd h.1 ha
  | setOsClipboardTurn => exact ⟨id,h.2⟩
  | setOsClipboardTurnWait => exact absurd rfl hpc
  | setOsClipboard => exact ⟨id,id,h.2.2⟩
  | setOsClipboardDone => exact ⟨id,id,h.2.2⟩
  | finished => exact ⟨id,id,h.2.2⟩

inductive Woken : PushThread → PushThread → Prop
  | same (th : PushThread) : Woken th th
  | continueAction (th : PushThread) : th.pc = .continueActionWait →
      Woken th { th with pc := .continueAction }
  | turn (th : PushThread) : th.pc = .setOsClipboardTurnWait →
      Woken th { th with pc := .setOsClipboardTurn }

theorem woken_continueAction (th : PushThread) : Woken th th.signalContinueAction := by
  unfold PushThread.signalContinueAction
  split_ifs with h
  · exact .continueAction th h
  · exact .same th

theorem woken_osClipboardSetting (th : PushThread) : Woken th th.signalOsClipboardSetting := by
  unfold PushThread.signalOsClipboardSetting
  split_ifs with h
  · exact .turn th h
  · exact .same th

theorem woken_both (th : PushThread) :
    Woken th th.signalContinueAction.signalOsClipboardSetting := by
  by_cases h : th.pc = .continueActionWait
  · have heq : th.signalContinueAction.signalOsClipboardSetting =
        { th with pc := .continueAction } := by
      simp [PushThread.signalContinueAction, PushThread.signalOsClipboardSetting, h]
    rw [heq]
    exact .continueAction th h
  · have heq : th.signalContinueAction = th := by simp [PushThread.signalContinueAction, h]
    rw [heq]
    exact woken_osClipboardSetting th

namespace Woken

variable {th th' : PushThread}

theorem threadId (h : Woken th th') : th'.threadId = th.threadId := by cases h <;> rfl

theorem clipboardBuffer (h : Woken th th') : th'.clipboardBuffer = th.clipboardBuffer := by
  cases h <;> rfl

theorem finished (h : Woken th th') : th'.pc = .finished ↔ th.pc = .finished := by
  cases h <;> simp_all

theorem setOsClipboard (h : Woken th th') : th'.pc = .setOsClipboard ↔ th.pc = .setOsClipboard := by
  cases h <;> simp_all

theorem turnWait (h : Woken th th') (hw : th'.pc = .setOsClipboardTurnWait) :
    th.pc = .setOsClipboardTurnWait := by
  cases h <;> simp_all

theorem pcOk {a q u : Prop} (h : Woken th th') (hok : PcOk a q u th th.pc) :
    PcOk a q u th' th'.pc := by
  cases h with
  | same => exact hok
  | continueAction hpc =>
    rw [hpc] at hok
    obtain ⟨ha,hq,hu,hc,hab⟩ := hok
    exact ⟨hu,Or.inl ⟨ha,hq,hc,hab⟩⟩
  | turn hpc =>
    rw [hpc] at hok
    obtain ⟨ha,-,hu,hc,hab⟩ := hok
    exact ⟨ha,hu,hc,hab⟩

end Woken

theorem IdsOk.of_threadId {threads threads' : ℕ → PushThread} {n : ℕ} (h : IdsOk threads n)
    (hid : ∀ k, (threads' k).threadId = (threads k).threadId)
    (hfin : ∀ k, (threads k).pc = .finished → (threads' k).pc = .finished) :
    IdsOk threads' n := by
  refine ⟨fun k hk => hfin k (h.created k hk),fun k hk => ?_,fun j k hj hk heq => ?_⟩
  · rw [hid]
    exact h.nonzero k (mt (hfin k) hk)
  · rw [hid, hid] at heq
    exact h.distinct j k (mt (hfin j) hj) (mt (hfin k) hk) heq

variable {os : Option ClipboardData} {p : Pushes} {s : Synchronizer} {a q u : Option ℕ}

theorem Inv.woken (h : Inv os p s a q u) {threads : ℕ → PushThread}
    (hw : ∀ k, Woken (s.threads k) (threads k)) : Inv os p { s with threads := threads } a q u := by
  have hslot : slotOf { s with threads := threads } q u = slotOf s q u := by
    simp only [slotOf, (hw _).clipboardBuffer, (hw _).setOsClipboard]
  refine ⟨h.activity,?_,h.setting,fun k => (hw k).pcOk (h.thread k),
    fun k hk => h.turn k ((hw k).turnWait hk),
    h.ids.of_threadId (fun k => (hw k).threadId) (fun k => (hw k).finished.mpr),
    hslot ▸ h.slot,?_,h.osClipboard⟩
  · simp only [(hw _).threadId]
    exact h.queued
  · simp only [(hw _).clipboardBuffer]
    exact h.pushes

theorem slotOf_congr {s' : Synchronizer} {k : ℕ} (h : ∀ j, j ≠ k → s'.threads j = s.threads j)
    (hq : q ≠ some k) (hu : u ≠ some k) : slotOf s' q u = slotOf s q u := by
  have hat : ∀ {o : Option ℕ} {j : ℕ}, o ≠ some k → o = some j → s'.threads j = s.threads j :=
    fun hne ho => h _ (fun hj => hne (by rw [ho, hj]))
  cases q <;> cases u <;> simp [slotOf, hat hq, hat hu]

section
variable {k : ℕ} {th : PushThread}

@[simp] theorem setThread_self (s : Synchronizer) : (s.setThread k th).threads k = th := by
  simp [Synchronizer.setThread]

theorem setThread_of_ne (s : Synchronizer) {j : ℕ} (h : j ≠ k) :
    (s.setThread k th).threads j = s.threads j := by
  simp [Synchronizer.setThread, h]

theorem setThread_threadId (hid : th.threadId = (s.threads k).threadId) (j : ℕ) :
    ((s.setThread k th).threads j).threadId = (s.threads j).threadId := by
  by_cases hj : j = k
  · subst hj
    rw [setThread_self, hid]
  · rw [setThread_of_ne s hj]

theorem setThread_clipboardBuffer (hbuf : th.clipboardBuffer = (s.threads k).clipboardBuffer)
    (j : ℕ) : ((s.setThread k th).threads j).clipboardBuffer = (s.threads j).clipboardBuffer := by
  by_cases hj : j = k
  · subst hj
    rw [setThread_self, hbuf]
  · rw [setThread_of_ne s hj]

theorem setThread_finished (hfin : (s.threads k).pc = .finished → th.pc = .finished) (j : ℕ)
    (hj : (s.threads j).pc = .finished) : ((s.setThread k th).threads j).pc = .finished := by
  by_cases hjk : j = k
  · subst hjk
    rw [setThread_self]
    exact hfin hj
  · rw [setThread_of_ne s hjk]
    exact hj

theorem setThread_pcOk {a' q' u' : Option ℕ} (h : Inv os p s a q u)
    (ha : ∀ j, j ≠ k → (a' = some j ↔ a = some j)) (hq : ∀ j, j ≠ k → (q' = some j ↔ q = some j))
    (hu : ∀ j, j ≠ k → (u' = some j ↔ u = some j))
    (hok : PcOk (a' = some k) (q' = some k) (u' = some k) th th.pc) (j : ℕ) :
    PcOk (a' = some j) (q' = some j) (u' = some j) ((s.setThread k th).threads j)
      ((s.setThread k th).threads j).pc := by
  by_cases hj : j = k
  · subst hj
    rw [setThread_self]
    exact hok
  · rw [setThread_of_ne s hj, ha j hj, hq j hj, hu j hj]
    exact h.thread j

theorem setThread_turn (h : Inv os p s a q u) {b : Bool}
    (hself : th.pc = .setOsClipboardTurnWait → b = true)
    (hkeep : s.settingOsClipboard = true → b = true) (j : ℕ)
    (hj : ((s.setThread k th).threads j).pc = .setOsClipboardTurnWait) : b = true := by
  by_cases hjk : j = k
  · subst hjk
    rw [setThread_self] at hj
    exact hself hj
  · rw [setThread_of_ne s hjk] at hj
    exact hkeep (h.turn j hj)

theorem slotOf_setThread (hbuf : th.clipboardBuffer = (s.threads k).clipboardBuffer)
    (hset : th.pc = .setOsClipboard ↔ (s.threads k).pc = .setOsClipboard) :
    slotOf (s.setThread k th) q u = slotOf s q u := by
  have hsets : ∀ j, ((s.setThread k th).threads j).pc = .setOsClipboard ↔
      (s.threads j).pc = .setOsClipboard := by
    intro j
    by_cases hj : j = k
    · subst hj
      rw [setThread_self, hset]
    · rw [setThread_of_ne s hj]
  simp only [slotOf, setThread_clipboardBuffer hbuf, hsets]

end

theorem Inv.setThread {k : ℕ} {th : PushThread} (h : Inv os p s a q u)
    (hid : th.threadId = (s.threads k).threadId)
    (hbuf : th.clipboardBuffer = (s.threads k).clipboardBuffer)
    (hset : th.pc = .setOsClipboard ↔ (s.threads k).pc = .setOsClipboard)
    (hfin : (s.threads k).pc = .finished → th.pc = .finished)
    (hok : PcOk (a = some k) (q = some k) (u = some k) th th.pc)
    (hturn : th.pc = .setOsClipboardTurnWait → s.settingOsClipboard = true) :
    Inv os p (s.setThread k th) a q u := by
  refine ⟨h.activity,?_,h.setting,
    setThread_pcOk h (fun _ _ => Iff.rfl) (fun _ _ => Iff.rfl) (fun _ _ => Iff.rfl) hok,
    setThread_turn h hturn id,
    h.ids.of_threadId (setThread_threadId hid) (setThread_finished hfin),?_,?_,
    h.osClipboard⟩
  · simp only [setThread_threadId hid]
    exact h.queued
  · rw [slotOf_setThread hbuf hset]
    exact h.slot
  · simp only [setThread_clipboardBuffer hbuf]
    exact h.pushes

theorem Inv.active {k : ℕ} (h : Inv os p s (some k) q u) :
    ((s.threads k).pc = .continueAction ∨ (s.threads k).pc = .continueActionWait) ∧
      q ≠ some k ∧ u ≠ some k ∧ (s.threads k).complete = false ∧ (s.threads k).aborting = false := by
  have hok := h.thread k
  cases hpc : (s.threads k).pc <;> simp_all [PcOk]

theorem Inv.queuedThread {k : ℕ} (h : Inv os p s a (some k) u) :
    (s.threads k).pc ≠ .finished ∧ a ≠ some k ∧ u ≠ some k ∧ (s.threads k).complete = true := by
  have hok := h.thread k
  cases hpc : (s.threads k).pc <;> simp_all [PcOk]

theorem Inv.abortActive {k : ℕ} (h : Inv os p s (some k) q u)
    (hpc : (s.threads k).pc = .continueAction) :
    Inv os { p with underWay := none }
      { s.setThread k { s.threads k with aborting := true } with activity := activityOf none }
      none q u := by
  obtain ⟨-,hq,hu,hc,-⟩ := h.active
  generalize hth : ({ s.threads k with aborting := true } : PushThread) = th
  have hid : th.threadId = (s.threads k).threadId := by rw [← hth]
  have hbuf : th.clipboardBuffer = (s.threads k).clipboardBuffer := by rw [← hth]
  have hpc' : th.pc = .continueAction := by rw [← hth, hpc]
  refine ⟨rfl,?_,h.setting,?_,?_,?_,?_,?_,h.osClipboard⟩
  · simp only [setThread_threadId hid]
    exact h.queued
  · refine setThread_pcOk h (fun j hj => ?_) (fun _ _ => Iff.rfl) (fun _ _ => Iff.rfl) ?_
    · simp [Ne.symm hj]
    · rw [hpc', ← hth]
      exact ⟨hu,Or.inr ⟨by simp,Or.inr ⟨hq,hc,rfl⟩⟩⟩
  · exact setThread_turn h (by simp [hpc']) id
  · exact h.ids.of_threadId (setThread_threadId hid) (setThread_finished (by simp [hpc]))
  · have hslot : slotOf { s.setThread k th with activity := activityOf none } q u = slotOf s q u :=
      slotOf_setThread hbuf (by simp [hpc, hpc'])
    rw [hslot]
    exact h.slot
  · rw [h.pushes]
    rfl

theorem Inv.completeActive {k : ℕ} {c : ClipboardData} {l : List ClipboardData}
    (h : Inv os ⟨some c,l⟩ s (some k) q u) (hpc : (s.threads k).pc = .continueAction)
    (hnone : ∀ j, (s.threads j).pc ≠ .setOsClipboardTurnWait) :
    Inv os ⟨none,l ++ [c]⟩
      { s.setThread k { s.threads k with complete := true } with
        activity := activityOf none
        queuedOsClipboardSetterThreadId := (s.threads k).threadId
        history := s.history ++ [Event.post (s.threads k).clipboardBuffer] }
      none (some k) u := by
  obtain ⟨-,-,hu,-,hab⟩ := h.active
  have hp := h.pushes
  simp only [Option.map_some, Pushes.mk.injEq, Option.some.injEq] at hp
  obtain ⟨rfl,rfl⟩ := hp
  generalize hth : ({ s.threads k with complete := true } : PushThread) = th
  have hid : th.threadId = (s.threads k).threadId := by rw [← hth]
  have hbuf : th.clipboardBuffer = (s.threads k).clipboardBuffer := by rw [← hth]
  have hpc' : th.pc = .continueAction := by rw [← hth, hpc]
  refine ⟨rfl,?_,h.setting,?_,?_,?_,?_,?_,?_⟩
  · simp [hid]
  · have hok : PcOk False True (u = some k) th th.pc := by
      rw [hpc', ← hth]
      exact ⟨hu,Or.inr ⟨id,Or.inl ⟨rfl,hab⟩⟩⟩
    intro j
    by_cases hj : j = k
    · subst hj
      simpa using hok
    · dsimp only
      rw [setThread_of_ne s hj]
      have hkj : ¬some k = some j := fun heq => hj (Option.some.inj heq).symm
      simpa only [reduceCtorEq, hkj] using (h.thread j).bumped (hnone j) hkj
  · exact setThread_turn h (by simp [hpc']) id
  · exact h.ids.of_threadId (setThread_threadId hid) (setThread_finished (by simp [hpc]))
  · have hslot : slotOf { s.setThread k th with
        activity := activityOf none
        queuedOsClipboardSetterThreadId := (s.threads k).threadId
        history := s.history ++ [Event.post (s.threads k).clipboardBuffer] } (some k) u =
        { slotOf s q u with pending := some (s.threads k).clipboardBuffer } := by
      have heq := @slotOf_setThread s q u k th hbuf (by simp [hpc, hpc'])
      simp only [slotOf, Slot.mk.injEq] at heq ⊢
      exact ⟨by simp [hbuf],heq.2⟩
    rw [hslot]
    exact h.slot.step (.post _ _)
  · simp
  · rw [finishes_post]
    exact h.osClipboard

theorem reset_activity (h : s.activity = activityOf a) :
    { s.activity with
      clipboardActionType := .none
      activeClipboardActionThread := none
      abortingPtr := none
      completePtr := none
      clipboardBufferPtr := none } = activityOf none := by
  simp [h, activityOf]

theorem broadcastContinueAction_setThread (s : Synchronizer) (k : ℕ) (th : PushThread) :
    (s.setThread k th).broadcastContinueAction =
      s.broadcastContinueAction.setThread k th.signalContinueAction := by
  simp only [broadcastContinueAction, Synchronizer.setThread, Synchronizer.mk.injEq, true_and,
    and_true]
  funext j
  by_cases hj : j = k
  · subst hj
    simp
  · simp [hj]

theorem broadcastOsClipboardSetting_setThread (s : Synchronizer) (k : ℕ) (th : PushThread) :
    (s.setThread k th).broadcastOsClipboardSetting =
      s.broadcastOsClipboardSetting.setThread k th.signalOsClipboardSetting := by
  simp only [broadcastOsClipboardSetting, Synchronizer.setThread, Synchronizer.mk.injEq, true_and,
    and_true]
  funext j
  by_cases hj : j = k
  · subst hj
    simp
  · simp [hj]

theorem Inv.abort (h : Inv os p s a q u) :
    Inv os { p with underWay := none } (finishActiveTransfer s false) none q u := by
  have hw := h.woken (fun k => woken_continueAction (s.threads k))
  have hreset := reset_activity h.activity
  cases a with
  | none =>
    have habort : abortActiveTransfer s = s := by simp [abortActiveTransfer, h.activity, activityOf]
    have heq : finishActiveTransfer s false = s.broadcastContinueAction := by
      simp only [finishActiveTransfer, Bool.false_eq_true, if_false, habort, hreset]
      rw [← h.activity]
    have hp : { p with underWay := none } = p := by rw [h.pushes]; rfl
    rw [heq, hp]
    exact hw
  | some k =>
    have habort : abortActiveTransfer s = s.setThread k { s.threads k with aborting := true } := by
      simp [abortActiveTransfer, h.activity, activityOf]
    have hpc : (s.threads k).signalContinueAction.pc = .continueAction := by
      rcases h.active.1 with hk | hk <;> simp [PushThread.signalContinueAction, hk]
    have hsignal : { s.threads k with aborting := true }.signalContinueAction =
        { (s.threads k).signalContinueAction with aborting := true } := by
      rcases h.active.1 with hk | hk <;> simp [PushThread.signalContinueAction, hk]
    have heq : finishActiveTransfer s false =
        { s.broadcastContinueAction.setThread k
            { s.broadcastContinueAction.threads k with aborting := true } with
          activity := activityOf none } := by
      have hset := broadcastContinueAction_setThread s k { s.threads k with aborting := true }
      rw [hsignal] at hset
      simp only [finishActiveTransfer, Bool.false_eq_true, if_false, habort]
      rw [show (s.setThread k { s.threads k with aborting := true }).activity = s.activity from rfl,
        hreset]
      exact congrArg (fun t : Synchronizer => { t with activity := activityOf none }) hset
    rw [heq]
    exact hw.abortActive hpc

theorem Inv.complete {k : ℕ} {c : ClipboardData} {l : List ClipboardData}
    (h : Inv os ⟨some c,l⟩ s (some k) q u) :
    Inv os ⟨none,l ++ [c]⟩ (finishActiveTransfer s true) none (some k) u := by
  have hw : Inv os ⟨some c,l⟩ s.broadcastOsClipboardSetting.broadcastContinueAction (some k) q u :=
    (h.woken (fun j => woken_osClipboardSetting (s.threads j))).woken
      (fun j => woken_continueAction _)
  obtain ⟨hawake,-⟩ := h.active
  have hpc : (s.broadcastOsClipboardSetting.broadcastContinueAction.threads k).pc =
      .continueAction := by
    rcases hawake with hk | hk <;> simp [broadcastOsClipboardSetting, broadcastContinueAction,
      PushThread.signalOsClipboardSetting, PushThread.signalContinueAction, hk]
  have hsignal : { s.threads k with complete := true }.signalOsClipboardSetting.signalContinueAction =
      { (s.threads k).signalOsClipboardSetting.signalContinueAction with complete := true } := by
    rcases hawake with hk | hk <;> simp [PushThread.signalOsClipboardSetting,
      PushThread.signalContinueAction, hk]
  have hnone : ∀ j, (s.broadcastOsClipboardSetting.broadcastContinueAction.threads j).pc ≠
      .setOsClipboardTurnWait := by
    intro j
    simp only [broadcastOsClipboardSetting, broadcastContinueAction,
      PushThread.signalOsClipboardSetting, PushThread.signalContinueAction]
    split_ifs <;> simp_all
  have hfields := (woken_osClipboardSetting (s.threads k))
  have hfields' := (woken_continueAction (s.threads k).signalOsClipboardSetting)
  have heq : finishActiveTransfer s true =
      { s.broadcastOsClipboardSetting.broadcastContinueAction.setThread k
          { s.broadcastOsClipboardSetting.broadcastContinueAction.threads k with
            complete := true } with
        activity := activityOf none
        queuedOsClipboardSetterThreadId :=
          (s.broadcastOsClipboardSetting.broadcastContinueAction.threads k).threadId
        history := s.history ++
          [Event.post (s.broadcastOsClipboardSetting.broadcastContinueAction.threads k).clipboardBuffer] } := by
    have hset := broadcastContinueAction_setThread s.broadcastOsClipboardSetting k
      { s.threads k with complete := true }.signalOsClipboardSetting
    rw [← broadcastOsClipboardSetting_setThread, hsignal] at hset
    have hthreads := congrArg Synchronizer.threads hset
    have hid : (s.broadcastOsClipboardSetting.broadcastContinueAction.threads k).threadId =
        (s.threads k).threadId := hfields'.threadId.trans hfields.threadId
    have hbuf : (s.broadcastOsClipboardSetting.broadcastContinueAction.threads k).clipboardBuffer =
        (s.threads k).clipboardBuffer := hfields'.clipboardBuffer.trans hfields.clipboardBuffer
    rw [hid, hbuf]
    have hcomplete : completeActiveTransfer s =
        { s.setThread k { s.threads k with complete := true } with
          queuedOsClipboardSetterThreadId := (s.threads k).threadId
          history := s.history ++
            [Event.post (s.threads k).clipboardBuffer] }.broadcastOsClipboardSetting := by
      simp [completeActiveTransfer, h.activity, activityOf, Synchronizer.setThread]
    have hreset := reset_activity h.activity
    simp only [finishActiveTransfer, if_true, hcomplete]
    exact congrArg₂ (fun (t : ℕ → PushThread) (b : ClipboardActivity) =>
      { s with
        activity := b
        queuedOsClipboardSetterThreadId := (s.threads k).threadId
        history := s.history ++ [Event.post (s.threads k).clipboardBuffer]
        threads := t }) hthreads hreset
  rw [heq]
  exact hw.completeActive hpc hnone

theorem threadIdFree_spec {threadId : ℕ} (h : threadIdFree s threadId = true) :
    threadId ≠ 0 ∧ ∀ k < s.numThreads, (s.threads k).pc ≠ .finished →
      (s.threads k).threadId ≠ threadId := by
  simp only [threadIdFree, Bool.and_eq_true, decide_eq_true_eq, List.all_eq_true,
    List.mem_range] at h
  exact ⟨h.1,fun k hk hlive => (h.2 k hk).resolve_left hlive⟩

theorem Inv.create (h : Inv os p s none q u) {threadId : ℕ} (hid : threadIdFree s threadId = true) :
    Inv os { p with underWay := some {} }
      { s with
        threads := Function.update s.threads s.numThreads
          { threadId := threadId, pc := .continueAction }
        numThreads := s.numThreads + 1
        activity := activityOf (some s.numThreads) } (some s.numThreads) q u := by
  obtain ⟨hpos,hfree⟩ := threadIdFree_spec hid
  generalize hk : s.numThreads = k at hfree ⊢
  have hok := h.thread k
  rw [h.ids.created k hk.le] at hok
  obtain ⟨-,hq,hu⟩ := hok
  have hself : Function.update s.threads k { threadId := threadId, pc := .continueAction } k =
      { threadId := threadId, pc := .continueAction } := Function.update_self _ _ _
  have hother : ∀ j, j ≠ k → Function.update s.threads k
      { threadId := threadId, pc := .continueAction } j = s.threads j :=
    fun j hj => Function.update_of_ne hj _ _
  generalize Function.update s.threads k { threadId := threadId, pc := .continueAction } = threads
    at hself hother
  have hlive : ∀ j, j ≠ k → (s.threads j).pc ≠ .finished → j < k := by
    intro j hj hlive
    by_contra hge
    exact hlive (h.ids.created j (by omega))
  constructor
  case activity => rfl
  case queued =>
    dsimp only
    rw [h.queued]
    cases q with
    | none => rfl
    | some i => rw [Option.elim_some, Option.elim_some, hother i (fun hik => hq (by rw [hik]))]
  case setting => exact h.setting
  case thread =>
    intro j
    by_cases hj : j = k
    · subst hj
      dsimp only
      rw [hself]
      exact ⟨hu,Or.inl ⟨rfl,hq,rfl,rfl⟩⟩
    · have hkj : ¬some k = some j := fun heq => hj (Option.some.inj heq).symm
      dsimp only
      rw [hother j hj]
      simpa only [hkj, reduceCtorEq] using h.thread j
  case turn =>
    intro j hj
    dsimp only at hj
    by_cases hjk : j = k
    · rw [hjk, hself] at hj
      cases hj
    · rw [hother j hjk] at hj
      exact h.turn j hj
  case ids =>
    dsimp only
    refine ⟨fun j hj => ?_,fun j hj => ?_,fun i j hi hj hij => ?_⟩
    · rw [hother j (by omega)]
      exact h.ids.created j (by omega)
    · by_cases hjk : j = k
      · rw [hjk, hself]
        exact hpos
      · rw [hother j hjk] at hj ⊢
        exact h.ids.nonzero j hj
    · by_cases hik : i = k <;> by_cases hjk : j = k
      · rw [hik, hjk]
      · rw [hother j hjk] at hj hij
        rw [hik, hself] at hij
        exact absurd hij.symm (hfree j (hlive j hjk hj) hj)
      · rw [hother i hik] at hi hij
        rw [hjk, hself] at hij
        exact absurd hij (hfree i (hlive i hik hi) hi)
      · rw [hother i hik] at hi hij
        rw [hother j hjk] at hj hij
        exact h.ids.distinct i j hi hj hij
  case slot =>
    have hslot : slotOf { s with
        threads := threads
        numThreads := k + 1
        activity := activityOf (some k) } q u = slotOf s q u := slotOf_congr hother hq hu
    rw [hslot]
    exact h.slot
  case pushes =>
    rw [h.pushes]
    simp [hself]
  case osClipboard => exact h.osClipboard

theorem Inv.append {k : ℕ} {c c' : ClipboardData} {l : List ClipboardData}
    (h : Inv os ⟨some c,l⟩ s (some k) q u) :
    Inv os ⟨some c',l⟩ (s.setThread k { s.threads k with clipboardBuffer := c' }) (some k) q u := by
  obtain ⟨hpc,hq,hu,-,-⟩ := h.active
  have hp := h.pushes
  have hok := h.thread k
  generalize hth : ({ s.threads k with clipboardBuffer := c' } : PushThread) = th
  have hid : th.threadId = (s.threads k).threadId := by rw [← hth]
  have hpc' : th.pc = (s.threads k).pc := by rw [← hth]
  refine ⟨h.activity,?_,h.setting,?_,?_,?_,?_,?_,h.osClipboard⟩
  · simp only [setThread_threadId hid]
    exact h.queued
  · refine setThread_pcOk h (fun _ _ => Iff.rfl) (fun _ _ => Iff.rfl) (fun _ _ => Iff.rfl) ?_
    rw [hpc', ← hth]
    rcases hpc with hpc | hpc <;> rw [hpc] at hok ⊢ <;> exact hok
  · exact setThread_turn h (fun hw => h.turn k (hpc' ▸ hw)) id
  · exact h.ids.of_threadId (setThread_threadId hid) (setThread_finished (fun hf => hpc' ▸ hf))
  · have hslot : slotOf (s.setThread k th) q u = slotOf s q u :=
      slotOf_congr (fun j hj => setThread_of_ne s hj) hq hu
    rw [hslot]
    exact h.slot
  · simp only [Pushes.mk.injEq] at hp
    rw [Option.map_some, setThread_self, ← hth, hp.2]
    rfl

theorem Inv.isActive (h : Inv os p s a q u) : clipboardActionIsActive s .push = a.isSome := by
  cases a with
  | none => simp [clipboardActionIsActive, h.activity, activityOf]
  | some k =>
    obtain ⟨-,-,-,hc,hab⟩ := h.active
    simp [clipboardActionIsActive, h.activity, activityOf, hc, hab]

theorem Inv.start (h : Inv os p s a q u) (created : Option ℕ) :
    ∃ a', Inv os { p with underWay := if (startClipboardTransfer s created).2 then some {} else none }
      (startClipboardTransfer s created).1 a' q u := by
  have habort := h.abort
  generalize ht : finishActiveTransfer s false = t at habort
  cases hc : created.filter (threadIdFree t) with
  | none =>
    have heq : startClipboardTransfer s created = (t,false) := by
      simp [startClipboardTransfer, ht, hc]
    rw [heq]
    exact ⟨none,habort⟩
  | some threadId =>
    have heq : startClipboardTransfer s created =
        ({ t with
          threads := Function.update t.threads t.numThreads
            { threadId := threadId, pc := .continueAction }
          numThreads := t.numThreads + 1
          activity := activityOf (some t.numThreads) },true) := by
      simp [startClipboardTransfer, ht, hc, habort.activity, activityOf]
    rw [heq]
    exact ⟨_,habort.create (Option.filter_eq_some_iff.mp hc).2⟩

def Pushes.extend (p : Pushes) (chunk : ClipboardData) : Pushes :=
  if chunk.chunkType = .final then
    match p.underWay with
    | none => p
    | some c => ⟨none,p.completed ++ [appendChunk c chunk]⟩
  else { p with underWay := p.underWay.map (appendChunk · chunk) }

theorem Inv.addChunk (h : Inv os p s a q u) (chunk : ClipboardData) :
    ∃ a' q', Inv os (p.extend chunk) (addChunk s chunk) a' q' u := by
  have hp := h.pushes
  unfold Clipboard.addChunk Pushes.extend
  rw [h.isActive]
  cases a with
  | none =>
    subst hp
    refine ⟨none,q,?_⟩
    simp only [Option.isSome_none, Bool.not_false, if_true]
    split_ifs <;> exact h
  | some k =>
    have hptr : s.activity.clipboardBufferPtr = some k := by rw [h.activity]; rfl
    rw [Option.map_some] at hp
    subst hp
    have happ := @Inv.append os s q u k _ (appendChunk (s.threads k).clipboardBuffer chunk) _ h
    simp only [Option.isSome_some, Bool.not_true, Bool.false_eq_true, if_false, hptr]
    split_ifs
    · exact ⟨none,some k,happ.complete⟩
    · exact ⟨some k,q,happ⟩

theorem Pushes.next_of_ne_start (p : Pushes) {chunk : ClipboardData} (b : Bool)
    (h : chunk.chunkType ≠ .start) : p.next (chunk,b) = p.extend chunk := by
  unfold Pushes.next Pushes.extend appendChunk
  cases hc : chunk.chunkType with
  | start => exact absurd hc h
  | middle => simp [hc]
  | final => cases p.underWay <;> simp [hc]

theorem Pushes.next_start (p : Pushes) {chunk : ClipboardData} (h : chunk.chunkType = .start) :
    p.next (chunk,true) = { p with underWay := some {} }.extend chunk := by
  simp [Pushes.next, Pushes.extend, appendChunk, h]

theorem Inv.pushClipboardChunk (h : Inv os p s a q u) (chunk : ClipboardData)
    (created : Option ℕ) :
    ∃ a' q', Inv os (p.next (chunk,decide (chunk.chunkType ≠ .start) ||
      (startClipboardTransfer s created).2)) (pushClipboardChunk s chunk created) a' q' u := by
  have hinit : s.activity.isInitialized = true := by rw [h.activity]; rfl
  unfold Clipboard.pushClipboardChunk
  simp only [hinit, Bool.not_true, Bool.false_eq_true, if_false]
  by_cases hc : chunk.chunkType = .start
  · obtain ⟨a',hstart⟩ := h.start created
    rw [if_pos hc]
    generalize startClipboardTransfer s created = r at hstart ⊢
    obtain ⟨t,started⟩ := r
    cases started with
    | false =>
      refine ⟨a',q,?_⟩
      simpa [hc, Pushes.next] using hstart
    | true =>
      obtain ⟨a',q',hadd⟩ := hstart.addChunk chunk
      refine ⟨a',q',?_⟩
      rw [Bool.or_true, Pushes.next_start p hc]
      exact hadd
  · obtain ⟨a',q',hadd⟩ := h.addChunk chunk
    refine ⟨a',q',?_⟩
    rw [Pushes.next_of_ne_start p _ hc, if_neg hc]
    exact hadd

theorem Inv.queued_iff {k : ℕ} (h : Inv os p s a q u) (hlive : (s.threads k).pc ≠ .finished) :
    (s.threads k).threadId = s.queuedOsClipboardSetterThreadId ↔ q = some k := by
  rw [h.queued]
  cases q with
  | none => simpa using h.ids.nonzero k hlive
  | some j =>
    rw [Option.elim_some, Option.some.injEq]
    exact ⟨fun heq => (h.ids.distinct k j hlive h.queuedThread.1 heq).symm,fun heq => by rw [heq]⟩

theorem Inv.startSetting {k : ℕ} (h : Inv os p s a (some k) none)
    (hab : (s.threads k).aborting = false) :
    Inv os p
      ({ s with
        settingOsClipboard := true
        queuedOsClipboardSetterThreadId := 0
        history := s.history ++ [Event.start (s.threads k).clipboardBuffer] }.setThread k
          { s.threads k with pc := .setOsClipboard }) a none (some k) := by
  obtain ⟨hlive,ha,-,hc⟩ := h.queuedThread
  generalize hth : ({ s.threads k with pc := .setOsClipboard } : PushThread) = th
  have hid : th.threadId = (s.threads k).threadId := by rw [← hth]
  have hbuf : th.clipboardBuffer = (s.threads k).clipboardBuffer := by rw [← hth]
  have hpc : th.pc = .setOsClipboard := by rw [← hth]
  refine ⟨h.activity,rfl,rfl,?_,?_,?_,?_,?_,?_⟩
  · have hok : PcOk (a = some k) (none = some k) (some k = some k) th th.pc := by
      rw [hpc, ← hth]
      exact ⟨ha,by simp,rfl,hc,hab⟩
    exact @setThread_pcOk os p s a _ _ k th a none (some k) h (fun _ _ => Iff.rfl)
      (fun j hj => by simp [Ne.symm hj]) (fun j hj => by simp [Ne.symm hj]) hok
  · exact setThread_turn h (fun _ => rfl) (fun _ => rfl)
  · exact h.ids.of_threadId (setThread_threadId hid) (setThread_finished (fun hf => absurd hf hlive))
  · have hslot : slotOf ({ s with
        settingOsClipboard := true
        queuedOsClipboardSetterThreadId := 0
        history := s.history ++ [Event.start (s.threads k).clipboardBuffer] }.setThread k th)
        none (some k) = ⟨none,some (s.threads k).clipboardBuffer⟩ := by
      simp [slotOf, hpc, hbuf]
    rw [hslot]
    exact h.slot.step (.start _)
  · have hbufs := @setThread_clipboardBuffer s k th hbuf
    have hp := h.pushes
    rw [hp]
    cases a with
    | none => simp [Synchronizer.setThread]
    | some i => simpa [Synchronizer.setThread] using (hbufs i).symm
  · simpa [Synchronizer.setThread] using h.osClipboard

theorem Inv.takeTurn {k : ℕ} (h : Inv os p s a q u)
    (hpc : (s.threads k).pc = .continueAction ∨ (s.threads k).pc = .setOsClipboardTurn)
    (hcomplete : (s.threads k).complete = true) :
    ∃ q' u', Inv os p (takeTurn s k) a q' u' := by
  have hlive : (s.threads k).pc ≠ .finished := by rcases hpc with hpc | hpc <;> simp [hpc]
  have hset : (s.threads k).pc ≠ .setOsClipboard := by rcases hpc with hpc | hpc <;> simp [hpc]
  have hok : a ≠ some k ∧ u ≠ some k ∧ (s.threads k).aborting = false := by
    have hok := h.thread k
    rcases hpc with hpc | hpc <;> rw [hpc] at hok <;> simp_all [PcOk]
  obtain ⟨ha,hu,hab⟩ := hok
  have hq := h.queued_iff hlive
  unfold Clipboard.takeTurn
  dsimp only
  rw [if_neg (show ¬(s.threads k).aborting = true by simp [hab])]
  split_ifs with hwait hturn
  · refine ⟨q,u,h.setThread rfl rfl (by simp [hset]) (fun hf => absurd hf hlive) ?_
      (fun _ => hwait.2)⟩
    exact ⟨ha,hq.mp hwait.1,hu,hcomplete,hab⟩
  · have hnone : u = none := by
      have hsetting := h.setting
      rw [hturn.2] at hsetting
      exact Option.not_isSome_iff_eq_none.mp (by rw [← hsetting]; simp)
    obtain rfl := hq.mp hturn.1
    subst hnone
    exact ⟨none,some k,h.startSetting hab⟩
  · refine ⟨q,u,h.setThread rfl rfl (by simp [hset]) (fun _ => rfl) ?_ (by simp)⟩
    refine ⟨ha,fun hqk => ?_,hu⟩
    have hid := hq.mpr hqk
    cases hsetting : s.settingOsClipboard with
    | false => exact hturn ⟨hid,hsetting⟩
    | true => exact hwait ⟨hid,hsetting⟩

theorem Inv.set {k : ℕ} (h : Inv os p s a q u) (hpc : (s.threads k).pc = .setOsClipboard) :
    Inv os p
      ({ s with
        osClipboard := some (s.threads k).clipboardBuffer
        history := s.history ++ [Event.finish (s.threads k).clipboardBuffer] }.setThread k
          { s.threads k with pc := .setOsClipboardDone }) a q u := by
  have hok := h.thread k
  rw [hpc] at hok
  obtain ⟨ha,hq,rfl,hc,hab⟩ := hok
  generalize hth : ({ s.threads k with pc := .setOsClipboardDone } : PushThread) = th
  have hid : th.threadId = (s.threads k).threadId := by rw [← hth]
  have hbuf : th.clipboardBuffer = (s.threads k).clipboardBuffer := by rw [← hth]
  have hpc' : th.pc = .setOsClipboardDone := by rw [← hth]
  have hbufs := @setThread_clipboardBuffer s k th hbuf
  refine ⟨h.activity,?_,h.setting,?_,?_,?_,?_,?_,?_⟩
  · have hids := @setThread_threadId s k th hid
    simp only [Synchronizer.setThread] at hids ⊢
    simp only [hids]
    exact h.queued
  · have hok : PcOk (a = some k) (q = some k) (some k = some k) th th.pc := by
      rw [hpc', ← hth]
      exact ⟨ha,hq,rfl,hc,hab⟩
    exact @setThread_pcOk os p s a q _ k th a q (some k) h (fun _ _ => Iff.rfl)
      (fun _ _ => Iff.rfl) (fun _ _ => Iff.rfl) hok
  · exact setThread_turn h (by simp [hpc']) id
  · exact h.ids.of_threadId (setThread_threadId hid) (setThread_finished (by simp [hpc]))
  · have hfull : slotOf s q (some k) = ⟨q.map (fun j => (s.threads j).clipboardBuffer),
        some (s.threads k).clipboardBuffer⟩ := by
      simp [slotOf, hpc]
    have hslot : slotOf ({ s with
        osClipboard := some (s.threads k).clipboardBuffer
        history := s.history ++ [Event.finish (s.threads k).clipboardBuffer] }.setThread k th)
        q (some k) = ⟨q.map (fun j => (s.threads j).clipboardBuffer),none⟩ := by
      simp only [Synchronizer.setThread] at hbufs
      simp [slotOf, hpc', Synchronizer.setThread, hbufs]
    rw [hslot]
    exact (hfull ▸ h.slot).step (.finish _ _)
  · simp only [Synchronizer.setThread] at hbufs ⊢
    simp only [hbufs, posts_finish]
    exact h.pushes
  · simp [Synchronizer.setThread]

theorem Inv.done {k : ℕ} (h : Inv os p s a q u) (hpc : (s.threads k).pc = .setOsClipboardDone) :
    Inv os p (({ s with settingOsClipboard := false }.setThread k
      { s.threads k with pc := .finished }).broadcastOsClipboardSetting) a q none := by
  have hw : Inv os p s.broadcastOsClipboardSetting a q u :=
    h.woken (fun j => woken_osClipboardSetting (s.threads j))
  have hk : s.broadcastOsClipboardSetting.threads k = s.threads k := by
    simp [broadcastOsClipboardSetting, PushThread.signalOsClipboardSetting, hpc]
  have hawake : ∀ j, (s.broadcastOsClipboardSetting.threads j).pc ≠ .setOsClipboardTurnWait := by
    intro j
    simp only [broadcastOsClipboardSetting, PushThread.signalOsClipboardSetting]
    split_ifs with hj
    · simp
    · exact hj
  generalize hth : ({ s.threads k with pc := .finished } : PushThread) = th
  have hsignal : th.signalOsClipboardSetting = th := by
    simp [← hth, PushThread.signalOsClipboardSetting]
  rw [broadcastOsClipboardSetting_setThread, hsignal,
    show ({ s with settingOsClipboard := false } : Synchronizer).broadcastOsClipboardSetting =
      { s.broadcastOsClipboardSetting with settingOsClipboard := false } from rfl]
  generalize s.broadcastOsClipboardSetting = t at hw hk hawake ⊢
  rw [← hk] at hth hpc
  have hok := hw.thread k
  rw [hpc] at hok
  obtain ⟨ha,hq,rfl,-,-⟩ := hok
  have hid : th.threadId = (t.threads k).threadId := by rw [← hth]
  have hbuf : th.clipboardBuffer = (t.threads k).clipboardBuffer := by rw [← hth]
  have hpc' : th.pc = .finished := by rw [← hth]
  have hids := @setThread_threadId t k th hid
  have hbufs := @setThread_clipboardBuffer t k th hbuf
  simp only [Synchronizer.setThread] at hids hbufs
  refine ⟨hw.activity,?_,rfl,?_,?_,?_,?_,?_,hw.osClipboard⟩
  · simp only [Synchronizer.setThread, hids]
    exact hw.queued
  · have hok : PcOk (a = some k) (q = some k) (none = some k) th th.pc := by
      rw [hpc']
      exact ⟨ha,hq,by simp⟩
    exact @setThread_pcOk os p t a q _ k th a q none hw (fun _ _ => Iff.rfl)
      (fun _ _ => Iff.rfl) (fun j hj => by simp [Ne.symm hj]) hok
  · intro j hj
    by_cases hjk : j = k
    · subst hjk
      simp [hpc'] at hj
    · rw [setThread_of_ne _ hjk] at hj
      exact absurd hj (hawake j)
  · exact hw.ids.of_threadId hids (setThread_finished (fun _ => hpc'))
  · have hslot : slotOf ({ t with settingOsClipboard := false }.setThread k th) q none =
        slotOf t q (some k) := by
      simp [slotOf, Synchronizer.setThread, hbufs, hpc]
    rw [hslot]
    exact hw.slot
  · simp only [Synchronizer.setThread, hbufs]
    exact hw.pushes

theorem Inv.pushClipboardThread (h : Inv os p s a q u) (k : ℕ) :
    ∃ q' u', Inv os p (pushClipboardThread s k) a q' u' := by
  have hok := h.thread k
  unfold Clipboard.pushClipboardThread
  dsimp only
  cases hpc : (s.threads k).pc with
  | continueAction =>
    rw [hpc] at hok
    obtain ⟨hu,hok⟩ := hok
    split_ifs with hsleep hcomplete
    · simp only [Bool.and_eq_true, Bool.not_eq_true'] at hsleep
      refine ⟨q,u,h.setThread rfl rfl (by simp [hpc]) (by simp [hpc]) ?_ (by simp)⟩
      rcases hok with ⟨ha,hq,hc,hab⟩ | ⟨-,⟨hc,-⟩ | ⟨-,-,hab⟩⟩
      · exact ⟨ha,hq,hu,hc,hab⟩
      · rw [hc] at hsleep
        cases hsleep.1
      · rw [hab] at hsleep
        cases hsleep.2
    · exact h.takeTurn (Or.inl hpc) hcomplete
    · refine ⟨q,u,h.setThread rfl rfl (by simp [hpc]) (fun _ => rfl) ?_ (by simp)⟩
      rcases hok with ⟨-,-,hc,hab⟩ | ⟨ha,⟨hc,-⟩ | ⟨hq,-,-⟩⟩
      · simp [hc, hab] at hsleep
      · exact absurd hc hcomplete
      · exact ⟨ha,hq,hu⟩
  | continueActionWait => exact ⟨q,u,h⟩
  | setOsClipboardTurn =>
    rw [hpc] at hok
    exact h.takeTurn (Or.inr hpc) hok.2.2.1
  | setOsClipboardTurnWait => exact ⟨q,u,h⟩
  | setOsClipboard => exact ⟨q,u,h.set hpc⟩
  | setOsClipboardDone => exact ⟨q,none,h.done hpc⟩
  | finished => exact ⟨q,u,h⟩

theorem Inv.wake (h : Inv os p s a q u) (k : ℕ) :
    Inv os p (s.setThread k (s.threads k).signalContinueAction.signalOsClipboardSetting) a q u := by
  refine h.woken (fun j => ?_)
  by_cases hj : j = k
  · subst hj
    rw [Function.update_self]
    exact woken_both _
  · rw [Function.update_of_ne hj]
    exact .same _

theorem takeTurn_calls (s : Synchronizer) (k : ℕ) : (takeTurn s k).calls = s.calls := by
  unfold Clipboard.takeTurn
  dsimp only
  split_ifs <;> rfl

theorem pushClipboardThread_calls (s : Synchronizer) (k : ℕ) :
    (pushClipboardThread s k).calls = s.calls := by
  unfold Clipboard.pushClipboardThread
  dsimp only
  cases (s.threads k).pc with
  | continueAction =>
    dsimp only
    split_ifs
    · rfl
    · exact takeTurn_calls s k
    · rfl
  | setOsClipboardTurn => exact takeTurn_calls s k
  | _ => rfl

def Reached (os : Option ClipboardData) (s : Synchronizer) : Prop :=
  ∃ a q u, Inv os (pushesOf s.calls) s a q u

theorem Reached.init (os : Option ClipboardData) : Reached os (initClipboardSynchronizer os) := by
  refine ⟨none,none,none,rfl,rfl,rfl,fun k => by simp [initClipboardSynchronizer, PcOk],
    fun k hk => by simp [initClipboardSynchronizer] at hk,?_,Follows.empty,rfl,rfl⟩
  refine ⟨fun _ _ => rfl,fun k hk => absurd rfl hk,fun j k hj => absurd rfl hj⟩

theorem Reached.step (h : Reached os s) (action : Action) : Reached os (step s action) := by
  obtain ⟨a,q,u,h⟩ := h
  cases action with
  | pushClipboardChunk chunk created =>
    obtain ⟨a',q',hpush⟩ := h.pushClipboardChunk chunk created
    refine ⟨a',q',u,?_⟩
    simp only [Clipboard.step, pushesOf, List.foldl_append, List.foldl_cons, List.foldl_nil]
    exact { hpush with }
  | advance k =>
    obtain ⟨q',u',hpush⟩ := h.pushClipboardThread k
    refine ⟨a,q',u',?_⟩
    simp only [Clipboard.step, pushClipboardThread_calls]
    exact hpush
  | wake k => exact ⟨a,q,u,h.wake k⟩

theorem Reached.run (os : Option ClipboardData) (schedule : List Action) :
    Reached os (run (initClipboardSynchronizer os) schedule) :=
  List.foldlRecOn schedule Clipboard.step (Reached.init os) (fun _ h action _ => h.step action)

theorem Inv.quiescent (h : Inv os p s a q u) (hq : s.Quiescent) : q = none ∧ u = none := by
  have hu : u = none := by
    cases u with
    | none => rfl
    | some k =>
      have hok := h.thread k
      rcases hq k with hk | hk | hk <;> rw [hk] at hok <;> simp_all [PcOk]
  subst hu
  refine ⟨?_,rfl⟩
  cases q with
  | none => rfl
  | some k =>
    have hok := h.thread k
    have hsetting := h.setting
    rcases hq k with hk | hk | hk
    · rw [hk] at hok
      exact absurd rfl hok.2.1
    · rw [h.turn k hk] at hsetting
      cases hsetting
    · rw [hk] at hok
      exact absurd rfl hok.2.1

theorem Inv.updating {k : ℕ} (h : Inv os p s a q u) (hk : s.Updating k) : u = some k := by
  have hok := h.thread k
  rcases hk with hk | hk <;> rw [hk] at hok <;> exact hok.2.2.1

/-- At most one update of the OS clipboard runs at a time; updates run in the order the
pushes completed, each of the last push completed by then; and with every thread asleep or
finished the OS clipboard is the last completed push. -/
theorem last_completed_push_wins (os : Option ClipboardData) (schedule : List Action) :
    let s := run (initClipboardSynchronizer os) schedule
    (∀ j k, s.Updating j → s.Updating k → j = k) ∧
      posts s.history = completedPushes s.calls ∧
      (starts s.history).Sublist (completedPushes s.calls) ∧
      finishes s.history <+: starts s.history ∧
      (∀ pre c post, s.history = pre ++ Event.start c :: post → (posts pre).getLast? = some c) ∧
      s.osClipboard = (finishes s.history).getLast?.or os ∧
      (s.Quiescent → s.osClipboard = (completedPushes s.calls).getLast?.or os) := by
  intro s
  obtain ⟨a,q,u,h⟩ : Reached os s := Reached.run os schedule
  have hposts : posts s.history = completedPushes s.calls := by
    rw [completedPushes, h.pushes]
  refine ⟨fun j k hj hk => ?_,hposts,hposts ▸ h.slot.starts_sublist,h.slot.finishes_prefix,
    fun pre c post heq => h.slot.start_latest heq,h.osClipboard,fun hquiet => ?_⟩
  · have hjk := (h.updating hj).symm.trans (h.updating hk)
    exact Option.some.inj hjk
  · obtain ⟨rfl,rfl⟩ := h.quiescent hquiet
    rw [h.osClipboard, h.slot.idle rfl rfl, hposts]

end Whist.Clipboard
