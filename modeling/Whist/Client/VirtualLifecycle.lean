import Whist.Foundation.Run

/-! # The lifecycle of the virtual interface

The API calls and the whist main thread share one atomic flag and a semaphore, and each operation on them is a step.
Beside the code's state stands a record of the calls and runs so far.
-/
namespace Whist.VirtualInterface
open Run

/-- Where `whist_main_thread` is: before the semaphore, before it reads the flag, in
`whist_client_main`, before it clears the flag, and out of its loop. -/
inductive ThreadAt
  | semaphore
  | check
  | client
  | clear
  | exited
deriving DecidableEq

structure Lifecycle where
  protocolAlive : Bool := false
  connectionSemaphore : ℕ := 0
  thread : ThreadAt := .semaphore
  /-- Calls that have stored the flag and not posted yet. -/
  connecting : ℕ := 0
  destroying : ℕ := 0
  /-- Connects that return true, and runs of `whist_client_main` that started and ended. -/
  connects : ℕ := 0
  starts : ℕ := 0
  ends : ℕ := 0
  disconnected : ℕ := 0
  destroyedAt : Option ℕ := none
deriving DecidableEq

inductive Action
  | connect
  | connectPost
  | isConnected
  | disconnect
  | destroy
  | destroyPost
  | waitSemaphore
  | checkAlive
  | clientReturns
  | clearAlive
deriving DecidableEq

/-- `validArguments` tells whether `vi_api_initialize` was given arguments to start with.  A step
of a thread that is elsewhere does nothing. -/
def step (validArguments : Bool) (s : Lifecycle) : Action → Lifecycle
  | .connect =>
    if s.protocolAlive then s
    else { s with protocolAlive := true, connecting := s.connecting + 1, connects := s.connects + 1 }
  | .connectPost =>
    if s.connecting = 0 then s
    else { s with connecting := s.connecting - 1, connectionSemaphore := s.connectionSemaphore + 1 }
  | .isConnected => s
  | .disconnect => { s with protocolAlive := false, disconnected := s.connects }
  | .destroy =>
    { s with
      protocolAlive := false
      destroying := s.destroying + 1
      destroyedAt := s.destroyedAt.or (some s.starts) }
  | .destroyPost =>
    if s.destroying = 0 then s
    else { s with destroying := s.destroying - 1, connectionSemaphore := s.connectionSemaphore + 1 }
  | .waitSemaphore =>
    if s.thread ≠ .semaphore ∨ s.connectionSemaphore = 0 then s
    else { s with thread := .check, connectionSemaphore := s.connectionSemaphore - 1 }
  | .checkAlive =>
    if s.thread ≠ .check then s
    else if s.protocolAlive = false then { s with thread := .exited }
    else if validArguments then { s with thread := .client, starts := s.starts + 1 }
    else { s with thread := .clear }
  | .clientReturns =>
    if s.thread ≠ .client then s else { s with thread := .clear, ends := s.ends + 1 }
  | .clearAlive =>
    if s.thread ≠ .clear then s else { s with thread := .semaphore, protocolAlive := false }

def Lifecycle.isConnected (s : Lifecycle) : Bool := s.protocolAlive

/-- What the interface promises of each state. -/
structure Proper (s : Lifecycle) : Prop where
  exits : s.thread = .exited → s.destroyedAt ≠ none
  /-- No run without its connect, and once nothing is under way none is missing. -/
  started : s.starts ≤ s.connects
  settled : s.destroyedAt = none → s.thread = .semaphore → s.connectionSemaphore = 0 →
    s.connecting = 0 → s.starts = s.connects
  noneAfter : ∀ n ∈ s.destroyedAt, s.starts = n
  oneRun : s.starts ≤ s.ends + 1
  alive : s.thread = .client → s.disconnected < s.starts → s.isConnected = true

def Lifecycle.pending (s : Lifecycle) : ℕ :=
  s.connecting + s.connectionSemaphore + if s.thread = .check then 1 else 0

def Lifecycle.InSession (s : Lifecycle) : Prop := s.thread = .client ∨ s.thread = .clear

instance (s : Lifecycle) : Decidable s.InSession := instDecidableOr

/-- A connect waits for the end of a session that was disconnected, and comes to no thread that
destroy has sent to its end; a disconnect waits for the start of a session that was asked for;
and destroy comes to no session that was not disconnected. -/
def Orderly (s : Lifecycle) : Action → Prop
  | .connect => s.protocolAlive = true ∨ s.thread = .exited ∨ (s.destroyedAt = none ↔ ¬ s.InSession)
  | .disconnect => s.destroyedAt ≠ none ∨ s.pending = 0
  | .destroy => s.thread = .client → s.starts ≤ s.disconnected
  | _ => True

structure Open (s : Lifecycle) : Prop where
  destroying : s.destroying = 0
  connects : s.connects = s.starts + s.pending
  notExited : s.thread ≠ .exited
  inSession : s.InSession → s.pending = 0
  idle : ¬ s.InSession → s.pending = if s.protocolAlive then 1 else 0
  alive : s.thread = .client → s.disconnected < s.starts → s.protocolAlive = true

structure Closed (s : Lifecycle) (n : ℕ) : Prop where
  starts : s.starts = n
  idle : ¬ s.InSession → s.thread ≠ .exited → s.protocolAlive = false
  disconnected : s.thread = .client → s.starts ≤ s.disconnected

structure Inv (s : Lifecycle) : Prop where
  started : s.starts ≤ s.connects
  ends : s.starts = s.ends + if s.thread = .client then 1 else 0
  opened : s.destroyedAt = none → Open s
  closed : ∀ n ∈ s.destroyedAt, Closed s n

theorem Inv.proper {s : Lifecycle} (h : Inv s) : Proper s where
  exits hexit hd := (h.opened hd).notExited hexit
  started := h.started
  settled hd hthread hsem hconnecting := by
    have hpending : s.pending = 0 := by simp [Lifecycle.pending,hthread,hsem,hconnecting]
    have := (h.opened hd).connects
    omega
  noneAfter n hn := (h.closed n hn).starts
  oneRun := by
    have := h.ends
    split_ifs at this <;> omega
  alive hthread hlt := by
    cases hd : s.destroyedAt with
    | none => exact (h.opened hd).alive hthread hlt
    | some n => exact absurd hlt (not_lt.2 ((h.closed n hd).disconnected hthread))

theorem inv_start : Inv {} where
  started := le_rfl
  ends := rfl
  opened _ := ⟨rfl,rfl,by simp,fun _ => rfl,fun _ => rfl,by simp⟩
  closed n hn := by cases hn

section
variable {s : Lifecycle} {a : Action}

theorem Open.step (h : Open s) (hd : s.destroyedAt = none) (ho : Orderly s a) (ha : a ≠ .destroy) :
    Open (step true s a) := by
  obtain ⟨hdestroying,hconnects,hexited,hin,hidle,halive⟩ := h
  cases a with
  | connect =>
    simp only [Orderly] at ho
    simp only [VirtualInterface.step]
    split_ifs with hp
    · exact ⟨hdestroying,hconnects,hexited,hin,hidle,halive⟩
    · constructor <;> simp_all [Lifecycle.pending,Lifecycle.InSession]
  | connectPost =>
    simp only [VirtualInterface.step]
    split_ifs with hc
    · exact ⟨hdestroying,hconnects,hexited,hin,hidle,halive⟩
    · constructor <;> simp_all [Lifecycle.pending,Lifecycle.InSession] <;> omega
  | isConnected => exact ⟨hdestroying,hconnects,hexited,hin,hidle,halive⟩
  | disconnect =>
    simp only [Orderly] at ho
    simp only [VirtualInterface.step]
    constructor <;> simp_all [Lifecycle.pending,Lifecycle.InSession]
  | destroy => exact absurd rfl ha
  | destroyPost =>
    rw [VirtualInterface.step,if_pos hdestroying]
    exact ⟨hdestroying,hconnects,hexited,hin,hidle,halive⟩
  | waitSemaphore =>
    simp only [VirtualInterface.step]
    split_ifs with hw
    · exact ⟨hdestroying,hconnects,hexited,hin,hidle,halive⟩
    · constructor <;> simp_all [Lifecycle.pending,Lifecycle.InSession] <;> omega
  | checkAlive =>
    simp only [VirtualInterface.step]
    split_ifs with hc hp
    · exact ⟨hdestroying,hconnects,hexited,hin,hidle,halive⟩
    · constructor <;> simp_all [Lifecycle.pending,Lifecycle.InSession]
    · constructor <;> simp_all [Lifecycle.pending,Lifecycle.InSession]
  | clientReturns =>
    simp only [VirtualInterface.step]
    split_ifs with hc
    · exact ⟨hdestroying,hconnects,hexited,hin,hidle,halive⟩
    · constructor <;> simp_all [Lifecycle.pending,Lifecycle.InSession]
  | clearAlive =>
    simp only [VirtualInterface.step]
    split_ifs with hc
    · exact ⟨hdestroying,hconnects,hexited,hin,hidle,halive⟩
    · constructor <;> simp_all [Lifecycle.pending,Lifecycle.InSession]

theorem Closed.of_destroy (ho : Orderly s .destroy) :
    Closed (VirtualInterface.step true s .destroy) s.starts :=
  ⟨rfl,fun _ _ => rfl,ho⟩

theorem Closed.step {n : ℕ} (h : Closed s n) (hle : s.starts ≤ s.connects)
    (hd : s.destroyedAt = some n) (ho : Orderly s a) : Closed (step true s a) n := by
  obtain ⟨hstarts,hidle,hdisconnected⟩ := h
  cases a with
  | connect =>
    simp only [Orderly] at ho
    simp only [VirtualInterface.step]
    split_ifs with hp
    · exact ⟨hstarts,hidle,hdisconnected⟩
    · refine ⟨hstarts,fun hin hexit => ?_,hdisconnected⟩
      rcases ho with halive | hexited | hsession
      · exact absurd halive hp
      · exact absurd hexited hexit
      · have hnone := hsession.2 hin
        rw [hd] at hnone
        cases hnone
  | connectPost =>
    simp only [VirtualInterface.step]
    split_ifs
    · exact ⟨hstarts,hidle,hdisconnected⟩
    · exact ⟨hstarts,hidle,hdisconnected⟩
  | isConnected => exact ⟨hstarts,hidle,hdisconnected⟩
  | disconnect =>
    exact ⟨hstarts,fun _ _ => rfl,fun _ => hle⟩
  | destroy => exact ⟨hstarts,fun _ _ => rfl,ho⟩
  | destroyPost =>
    simp only [VirtualInterface.step]
    split_ifs
    · exact ⟨hstarts,hidle,hdisconnected⟩
    · exact ⟨hstarts,hidle,hdisconnected⟩
  | waitSemaphore =>
    simp only [VirtualInterface.step]
    split_ifs with hw
    · exact ⟨hstarts,hidle,hdisconnected⟩
    · push Not at hw
      have hflag := hidle (by simp [Lifecycle.InSession,hw.1]) (by simp [hw.1])
      exact ⟨hstarts,fun _ _ => hflag,fun hclient => (by cases hclient)⟩
  | checkAlive =>
    simp only [VirtualInterface.step]
    split_ifs with hc hp
    · exact ⟨hstarts,hidle,hdisconnected⟩
    · exact ⟨hstarts,fun _ hexit => absurd rfl hexit,fun hclient => (by cases hclient)⟩
    · have hcheck := not_not.1 hc
      exact absurd (hidle (by simp [Lifecycle.InSession,hcheck]) (by simp [hcheck])) hp
  | clientReturns =>
    simp only [VirtualInterface.step]
    split_ifs with hc
    · exact ⟨hstarts,hidle,hdisconnected⟩
    · exact ⟨hstarts,fun hin => absurd (.inr rfl) hin,fun hclient => (by cases hclient)⟩
  | clearAlive =>
    simp only [VirtualInterface.step]
    split_ifs with hc
    · exact ⟨hstarts,hidle,hdisconnected⟩
    · exact ⟨hstarts,fun _ _ => rfl,fun hclient => (by cases hclient)⟩

theorem step_destroyedAt (ha : a ≠ .destroy) : (step true s a).destroyedAt = s.destroyedAt := by
  cases a with
  | destroy => exact absurd rfl ha
  | connect | connectPost | isConnected | disconnect | destroyPost | waitSemaphore | clientReturns
  | clearAlive =>
    simp only [step]
    try split_ifs
    all_goals rfl
  | checkAlive =>
    simp only [step]
    split_ifs
    all_goals rfl

theorem step_ends (h : s.starts = s.ends + if s.thread = .client then 1 else 0) :
    (step true s a).starts = (step true s a).ends + if (step true s a).thread = .client then 1 else 0 := by
  cases a with
  | isConnected | disconnect | destroy => exact h
  | connect | connectPost | destroyPost =>
    simp only [step]
    split_ifs at h ⊢
    all_goals exact h
  | waitSemaphore | clientReturns | clearAlive | checkAlive =>
    simp only [step]
    split_ifs at h ⊢ <;> simp_all

theorem step_connects_le : s.connects ≤ (step true s a).connects := by
  cases a with
  | isConnected | disconnect | destroy => exact le_rfl
  | connect =>
    simp only [step]
    split_ifs
    · exact le_rfl
    · exact Nat.le_succ _
  | connectPost | destroyPost | waitSemaphore | clientReturns | clearAlive | checkAlive =>
    simp only [step]
    split_ifs
    all_goals exact le_rfl

theorem Inv.step (h : Inv s) (ho : Orderly s a) : Inv (step true s a) := by
  have hends := step_ends (a := a) h.ends
  cases hd : s.destroyedAt with
  | some n =>
    have hclosed := h.closed n hd
    have hkept : (VirtualInterface.step true s a).destroyedAt = some n := by
      by_cases ha : a = .destroy
      · rw [ha,VirtualInterface.step,hd]
        rfl
      · rw [step_destroyedAt ha,hd]
    have hclosed' := hclosed.step h.started hd ho
    refine ⟨?_,hends,fun hnone => ?_,fun m hm => ?_⟩
    · rw [hclosed'.starts,← hclosed.starts]
      exact h.started.trans step_connects_le
    · rw [hkept] at hnone
      cases hnone
    · rw [hkept] at hm
      obtain rfl := Option.some.inj hm
      exact hclosed'
  | none =>
    by_cases ha : a = .destroy
    · subst ha
      have hat : (VirtualInterface.step true s .destroy).destroyedAt = some s.starts := by
        rw [VirtualInterface.step,hd]
        rfl
      refine ⟨h.started,hends,fun hnone => ?_,fun m hm => ?_⟩
      · rw [hat] at hnone
        cases hnone
      · rw [hat] at hm
        obtain rfl := Option.some.inj hm
        exact .of_destroy ho
    · have hopen := (h.opened hd).step hd ho ha
      have hnone := (step_destroyedAt ha).trans hd
      refine ⟨?_,hends,fun _ => hopen,fun m hm => ?_⟩
      · have := hopen.connects
        omega
      · rw [hnone] at hm
        cases hm

/-- The steps that go on without another call: the thread's, and the posts of calls under way. -/
def Action.Goes : Action → Prop
  | .connect | .isConnected | .disconnect | .destroy => False
  | .connectPost | .destroyPost | .waitSemaphore | .checkAlive | .clientReturns | .clearAlive => True

def Breaks (s : Lifecycle) : Prop :=
  ∃ acts : List Action, (∀ a ∈ acts, a.Goes) ∧ ¬ Proper (acts.foldl (VirtualInterface.step true) s)

theorem Breaks.of_steps (acts : List Action) (hgoes : ∀ a ∈ acts, a.Goes)
    (h : Breaks (acts.foldl (VirtualInterface.step true) s)) : Breaks s := by
  obtain ⟨more,hmore,hbroken⟩ := h
  refine ⟨acts ++ more,List.forall_mem_append.2 ⟨hgoes,hmore⟩,?_⟩
  rw [List.foldl_append]
  exact hbroken

theorem exists_check (hin : s.thread = .semaphore ∨ s.thread = .check) (hpending : s.pending ≠ 0) :
    ∃ acts : List Action, (∀ a ∈ acts, a.Goes) ∧ ∃ sem connecting,
      acts.foldl (VirtualInterface.step true) s =
        { s with thread := .check, connectionSemaphore := sem, connecting := connecting } := by
  rcases hin with hin | hin
  · by_cases hsem : s.connectionSemaphore = 0
    · have hconnecting : s.connecting ≠ 0 := by
        simpa [Lifecycle.pending,hsem,hin] using hpending
      refine ⟨[.connectPost,.waitSemaphore],by simp [Action.Goes],
        s.connectionSemaphore,s.connecting - 1,?_⟩
      simp [VirtualInterface.step,hconnecting,hin]
    · refine ⟨[.waitSemaphore],by simp [Action.Goes],s.connectionSemaphore - 1,s.connecting,?_⟩
      simp [VirtualInterface.step,hsem,hin]
  · exact ⟨[],by simp,s.connectionSemaphore,s.connecting,by rw [← hin]; rfl⟩

theorem breaks_of_cleared (hd : s.destroyedAt = none) (hp : s.protocolAlive = false)
    (hin : s.thread = .semaphore ∨ s.thread = .check) (hpending : s.pending ≠ 0) : Breaks s := by
  obtain ⟨acts,hgoes,sem,connecting,hacts⟩ := exists_check hin hpending
  refine .of_steps acts hgoes ⟨[.checkAlive],by simp [Action.Goes],fun h => ?_⟩
  rw [hacts] at h
  exact h.exits (by simp [VirtualInterface.step,hp]) (by simpa [VirtualInterface.step,hp] using hd)

theorem breaks_of_revived {n : ℕ} (hd : s.destroyedAt = some n) (hn : s.starts = n)
    (hp : s.protocolAlive = true) (hin : s.thread = .semaphore ∨ s.thread = .check)
    (hpending : s.pending ≠ 0) : Breaks s := by
  obtain ⟨acts,hgoes,sem,connecting,hacts⟩ := exists_check hin hpending
  refine .of_steps acts hgoes ⟨[.checkAlive],by simp [Action.Goes],fun h => ?_⟩
  rw [hacts] at h
  have hafter := h.noneAfter n (by simpa [VirtualInterface.step,hp] using hd)
  simp [VirtualInterface.step,hp,hn] at hafter

theorem Inv.breaks (h : Inv s) (ho : ¬ Orderly s a) : Breaks (VirtualInterface.step true s a) := by
  cases a with
  | connect =>
    simp only [Orderly,not_or] at ho
    obtain ⟨hp,hexit,hsession⟩ := ho
    cases hd : s.destroyedAt with
    | none =>
      -- a session that was disconnected is running: its end clears the flag of the new connect
      have hin : s.InSession := by
        by_contra hin
        exact hsession ⟨fun _ => hin,fun _ => hd⟩
      have hpending := (h.opened hd).inSession hin
      rw [VirtualInterface.step,if_neg hp]
      refine .of_steps [.clientReturns,.clearAlive] (by simp [Action.Goes]) ?_
      rcases hin with hin | hin
      · refine breaks_of_cleared ?_ ?_ (.inl ?_) ?_ <;>
          simp [VirtualInterface.step,hin,Lifecycle.pending,hd]
      · refine breaks_of_cleared ?_ ?_ (.inl ?_) ?_ <;>
          simp [VirtualInterface.step,hin,Lifecycle.pending,hd]
    | some n =>
      have hclosed := h.closed n hd
      have hin : ¬ s.InSession := by
        intro hin
        exact hsession ⟨fun hnone => (by rw [hd] at hnone; cases hnone),fun hnot => absurd hin hnot⟩
      rw [VirtualInterface.step,if_neg hp]
      refine breaks_of_revived hd hclosed.starts rfl ?_ (by simp [Lifecycle.pending])
      simp only [Lifecycle.InSession,not_or] at hin
      cases ht : s.thread <;> simp_all
  | disconnect =>
    simp only [Orderly,not_or,not_not] at ho
    have hopen := h.opened ho.1
    have hin : ¬ s.InSession := fun hin => ho.2 (hopen.inSession hin)
    refine breaks_of_cleared ho.1 rfl ?_ ho.2
    have hexit := hopen.notExited
    simp only [Lifecycle.InSession,not_or] at hin
    cases ht : s.thread <;> simp_all [VirtualInterface.step]
  | destroy =>
    simp only [Orderly] at ho
    push Not at ho
    refine ⟨[],by simp,fun h => ?_⟩
    have halive := h.alive ho.1 ho.2
    cases halive
  | connectPost | isConnected | destroyPost | waitSemaphore | checkAlive | clientReturns
  | clearAlive => exact absurd trivial ho

/-- With arguments to start with, orderly calls keep every promise in every state that they and
the thread reach, and the first call that is not orderly can break one without another call. -/
theorem orderly_calls_proper {validArguments : Bool} (hvalid : validArguments = true)
    {acts : List Action} (h : Each (VirtualInterface.step validArguments) Orderly {} acts) :
    Proper (acts.foldl (VirtualInterface.step validArguments) {}) ∧
    ∀ a, ¬ Orderly (acts.foldl (VirtualInterface.step validArguments) {}) a →
      ∃ more : List Action, (∀ b ∈ more, b.Goes) ∧
        ¬ Proper ((acts ++ a :: more).foldl (VirtualInterface.step validArguments) {}) := by
  subst hvalid
  have hinv : Inv (acts.foldl (VirtualInterface.step true) {}) :=
    h.invariant (fun s a hs ha => hs.step ha) inv_start
  refine ⟨hinv.proper,fun a ha => ?_⟩
  obtain ⟨more,hmore,hbroken⟩ := hinv.breaks ha
  refine ⟨more,hmore,?_⟩
  rw [List.foldl_append,List.foldl_cons]
  exact hbroken

def sessionThenDestroy : List Action :=
  [.connect,.connectPost,.waitSemaphore,.checkAlive,.isConnected,.clientReturns,.clearAlive,
    .destroy,.destroyPost,.waitSemaphore,.checkAlive]

theorem orderly_calls_proper_session :
    Proper (sessionThenDestroy.foldl (VirtualInterface.step true) {}) ∧
    ∀ a, ¬ Orderly (sessionThenDestroy.foldl (VirtualInterface.step true) {}) a →
      ∃ more : List Action, (∀ b ∈ more, b.Goes) ∧
        ¬ Proper ((sessionThenDestroy ++ a :: more).foldl (VirtualInterface.step true) {}) := by
  refine orderly_calls_proper rfl ?_
  simp [sessionThenDestroy,Each,Orderly,VirtualInterface.step,Lifecycle.InSession]

/-- A session is disconnected and connected again before its end, and the thread exits though
nothing was destroyed. -/
theorem reconnect_ends_thread : ¬ Proper (([.connect,.connectPost,.waitSemaphore,.checkAlive,
    .disconnect,.connect,.connectPost,.clientReturns,.clearAlive,.waitSemaphore,
    .checkAlive] : List Action).foldl (VirtualInterface.step true) {}) := by
  intro h
  exact h.exits rfl rfl

end

end Whist.VirtualInterface
