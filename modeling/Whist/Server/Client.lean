import Whist.Foundation.Run

/-! # The client of the server and its activation lock

Each section under a mutex is one step; `cond_mutex` alone is held across another wait.  A wait on a condition may
return at any time and checks again.  The deadline of `deactivate_client` is real time and is left out.  One thread
manages the client; any other takes and releases locks, and starts a deactivation only while it holds one.
-/
namespace Whist.Server

/-- The writer-preferred lock; `numWriters` counts waiting and active writers. -/
structure RWLock where
  numActiveReaders : ℤ := 0
  numWriters : ℤ := 0
  isActiveWriter : Bool := false
  deriving DecidableEq

/-- `none` while a writer is there. -/
def RWLock.readLock (rw : RWLock) : Option RWLock :=
  if rw.numWriters > 0 then none else some { rw with numActiveReaders := rw.numActiveReaders + 1 }

def RWLock.readUnlock (rw : RWLock) : RWLock :=
  { rw with numActiveReaders := rw.numActiveReaders - 1 }

structure Client (ι : Type) where
  isActive : Bool := false
  isDeactivating : Bool := false
  isPermanentlyDeactivated : Bool := false
  /-- The owner of `cond_mutex`. -/
  condMutex : Option ι := none
  activationRwlock : RWLock := {}

/-- The assertions of `client.c` and the one of `connect_client`. -/
inductive FatalAssert where
  | startDeactivatingClient
  | deactivateClientActive
  | deactivateClientDeactivating
  | permanentlyDeactivateClient
  | clientActiveUnlockNull
  | clientActiveUnlockActive
  | connectClient
  deriving DecidableEq

inductive Pc where
  | outside
  | activateClient
  | startDeactivatingClient
  | deactivateClient
  /-- `write_lock`: count the writer, wait for the readers, take the writer's place. -/
  | writeLock
  | writeLockReaders
  | writeLockWriter
  /-- `write_unlock`: give up the writer's place, count the writer out. -/
  | writeUnlock
  | writeUnlockCount
  | deactivateClientFinish
  | permanentlyDeactivateClient
  /-- Before `cond_mutex`, or in the wait on the condition. -/
  | clientActiveLock
  | clientActiveTrylock
  /-- In `read_lock`, holding `cond_mutex`. -/
  | readLock
  /-- After `read_lock`, holding `cond_mutex`. -/
  | lockReturn
  | clientActiveUnlock
  | readUnlock
  deriving DecidableEq

structure Thread where
  pc : Pc := .outside
  /-- The number of `ClientLock`s the thread holds. -/
  locks : ℕ := 0
  deriving DecidableEq

variable {ι : Type}

def activateClient (c : Client ι) : Client ι := { c with isActive := true }

def startDeactivatingClient (c : Client ι) : Except FatalAssert (Client ι) :=
  if c.isActive then .ok { c with isDeactivating := true } else .error .startDeactivatingClient

/-- The assertions `deactivate_client` begins with. -/
def deactivateClient (c : Client ι) : Except FatalAssert (Client ι) :=
  if !c.isActive then .error .deactivateClientActive
  else if !c.isDeactivating then .error .deactivateClientDeactivating
  else .ok c

def deactivateClientFinish (c : Client ι) : Client ι :=
  { c with isDeactivating := false, isActive := false }

def permanentlyDeactivateClient (c : Client ι) : Except FatalAssert (Client ι) :=
  if c.isActive then .error .permanentlyDeactivateClient
  else .ok { c with isPermanentlyDeactivated := true }

def clientActiveLock (t : ι) (c : Client ι) (th : Thread) : Client ι × Thread :=
  if c.isActive && !c.isDeactivating then ({ c with condMutex := some t }, { th with pc := .readLock })
  else if c.isPermanentlyDeactivated then (c, { th with pc := .outside })
  else (c, th)

def clientActiveTrylock (t : ι) (c : Client ι) (th : Thread) : Client ι × Thread :=
  if c.isActive && !c.isDeactivating then ({ c with condMutex := some t }, { th with pc := .readLock })
  else (c, { th with pc := .outside })

/-- The assertions of `client_active_unlock`; a thread without a lock passes `NULL`. -/
def clientActiveUnlock (c : Client ι) (th : Thread) : Except FatalAssert (Client ι) :=
  if th.locks = 0 then .error .clientActiveUnlockNull
  else if !c.isActive then .error .clientActiveUnlockActive
  else .ok c

def advance (t : ι) (c : Client ι) (th : Thread) : Except FatalAssert (Client ι × Thread) :=
  let rw := c.activationRwlock
  match th.pc with
  | .outside => .ok (c, th)
  | .activateClient =>
    if c.condMutex = none then .ok (activateClient c, { th with pc := .outside }) else .ok (c, th)
  | .startDeactivatingClient =>
    if c.condMutex = none then
      (startDeactivatingClient c).map (fun c => (c, { th with pc := .outside }))
    else .ok (c, th)
  | .deactivateClient => (deactivateClient c).map (fun c => (c, { th with pc := .writeLock }))
  | .writeLock =>
    .ok ({ c with activationRwlock := { rw with numWriters := rw.numWriters + 1 } },
      { th with pc := .writeLockReaders })
  | .writeLockReaders =>
    if rw.numActiveReaders > 0 then .ok (c, th) else .ok (c, { th with pc := .writeLockWriter })
  | .writeLockWriter =>
    if rw.isActiveWriter then .ok (c, th)
    else .ok ({ c with activationRwlock := { rw with isActiveWriter := true } },
      { th with pc := .writeUnlock })
  | .writeUnlock =>
    .ok ({ c with activationRwlock := { rw with isActiveWriter := false } },
      { th with pc := .writeUnlockCount })
  | .writeUnlockCount =>
    .ok ({ c with activationRwlock := { rw with numWriters := rw.numWriters - 1 } },
      { th with pc := .deactivateClientFinish })
  | .deactivateClientFinish =>
    if c.condMutex = none then .ok (deactivateClientFinish c, { th with pc := .outside })
    else .ok (c, th)
  | .permanentlyDeactivateClient =>
    if c.condMutex = none then
      (permanentlyDeactivateClient c).map (fun c => (c, { th with pc := .outside }))
    else .ok (c, th)
  | .clientActiveLock =>
    if c.condMutex = none then .ok (clientActiveLock t c th) else .ok (c, th)
  | .clientActiveTrylock =>
    if c.condMutex = none then .ok (clientActiveTrylock t c th) else .ok (c, th)
  | .readLock =>
    match rw.readLock with
    | none => .ok (c, th)
    | some rw => .ok ({ c with activationRwlock := rw }, ⟨.lockReturn,th.locks + 1⟩)
  | .lockReturn => .ok ({ c with condMutex := none }, { th with pc := .outside })
  | .clientActiveUnlock =>
    (clientActiveUnlock c th).map (fun c => (c, { th with pc := .readUnlock }))
  | .readUnlock => .ok ({ c with activationRwlock := rw.readUnlock }, ⟨.outside,th.locks - 1⟩)

inductive Call where
  | clientActiveLock
  | clientActiveTrylock
  | clientActiveUnlock
  | startDeactivatingClient
  deriving DecidableEq

def Call.entry : Call → Pc
  | .clientActiveLock => .clientActiveLock
  | .clientActiveTrylock => .clientActiveTrylock
  | .clientActiveUnlock => .clientActiveUnlock
  | .startDeactivatingClient => .startDeactivatingClient

/-- The callers check for `NULL` before an unlock, and a handler of messages runs under a lock. -/
def Call.allowed (th : Thread) : Call → Bool
  | .clientActiveLock | .clientActiveTrylock => true
  | .clientActiveUnlock | .startDeactivatingClient => 0 < th.locks

inductive Management where
  | loop
  | connectClient
  | checkDeactivating
  | messages
  | exitCheck
  | exitDeactivate
  | exitPermanent
  | done
  deriving DecidableEq

inductive Choice where
  | proceed
  /-- The server is told to exit, or nobody connected in time. -/
  | exit
  | connected
  /-- The UDP socket is lost, or the client quits. -/
  | disconnected
  deriving DecidableEq

/-- A step of the loop of `main`; the second part is the function it calls, if any. -/
def manage (c : Client ι) : Management → Choice → Except FatalAssert (Management × Pc)
  | .loop, .exit => .ok (.exitCheck, .outside)
  | .loop, _ =>
    if !c.isActive then .ok (.connectClient, .outside) else .ok (.checkDeactivating, .outside)
  | .connectClient, .exit => .ok (.exitCheck, .outside)
  | .connectClient, choice =>
    if c.isActive then .error .connectClient
    else if choice = .connected then .ok (.loop, .activateClient)
    else .ok (.loop, .outside)
  | .checkDeactivating, _ =>
    if c.isDeactivating then .ok (.loop, .deactivateClient) else .ok (.messages, .outside)
  | .messages, .disconnected => .ok (.messages, .startDeactivatingClient)
  | .messages, _ => .ok (.loop, .outside)
  | .exitCheck, _ =>
    if c.isActive then .ok (.exitDeactivate, .startDeactivatingClient)
    else .ok (.exitPermanent, .outside)
  | .exitDeactivate, _ => .ok (.exitPermanent, .deactivateClient)
  | .exitPermanent, _ => .ok (.done, .permanentlyDeactivateClient)
  | .done, _ => .ok (.done, .outside)

structure ServerState (ι : Type) where
  client : Client ι := {}
  management : Management := .loop
  threads : ι → Thread := fun _ => {}

inductive Action where
  | advance
  | call (c : Call)
  | manage (choice : Choice)
  deriving DecidableEq

variable [DecidableEq ι]

/-- The scheduler lets thread `t` take a step; a step that `t` cannot take changes nothing. -/
def step (main : ι) (s : ServerState ι) : ι × Action → Except FatalAssert (ServerState ι)
  | (t, .advance) =>
    (advance t s.client (s.threads t)).map (fun r =>
      { s with client := r.1, threads := Function.update s.threads t r.2 })
  | (t, .call f) =>
    if t ≠ main ∧ (s.threads t).pc = .outside ∧ f.allowed (s.threads t) then
      .ok { s with
        threads := Function.update s.threads t { s.threads t with pc := f.entry } }
    else .ok s
  | (t, .manage choice) =>
    if t = main ∧ (s.threads t).pc = .outside then
      (manage s.client s.management choice).map (fun r =>
        { s with
          management := r.1
          threads := Function.update s.threads t { s.threads t with pc := r.2 } })
    else .ok s

def initClient : ServerState ι := {}

end Whist.Server
