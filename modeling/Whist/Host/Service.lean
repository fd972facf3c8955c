import Mathlib.Data.List.AList
import Whist.Host.Mandelbox
import Whist.Host.Transport
import Whist.Scaling.Subscriptions

/-! # The host service

The event loop of `host-service.go` with its goroutines and those of `mandelbox.go` that clean up, and the rows that
they share with the scaling service.  A step is what a goroutine does between two points at which another one can
come in.  Time is left out, and so is the local development mode without a database.
-/
namespace Whist.Host
open Channel
open Scaling (MandelboxStatus)

structure Config where
  instanceID : String
  usesGPU : Bool
  isLocalEnv : Bool

/-- A row of `whist.mandelboxes`. -/
structure Row where
  instanceID : String
  status : MandelboxStatus
deriving DecidableEq

abbrev Rows := AList fun _ : MandelboxID => Row

/-- The rows and the remaining capacity of this instance. -/
structure HostDatabase where
  rows : Rows
  remainingCapacity : ℤ
  changed : Bool

namespace HostDatabase

def IsAllocated (instanceID : String) (r : Row) : Prop := r.instanceID = instanceID ∧ r.status = .allocated

instance (instanceID : String) (r : Row) : Decidable (IsAllocated instanceID r) :=
  inferInstanceAs (Decidable (_ ∧ _))

def writeMandelboxStatus (db : HostDatabase) (instanceID : String) (id : MandelboxID)
    (status : MandelboxStatus) : HostDatabase :=
  match db.rows.lookup id with
  | none => db
  | some r =>
    { db with
      rows := db.rows.insert id { r with status := status }
      changed := db.changed ||
        decide (IsAllocated instanceID r) != decide (IsAllocated instanceID { r with status := status }) }

def createMandelbox (db : HostDatabase) (instanceID : String) (id : MandelboxID) : HostDatabase :=
  match db.rows.lookup id with
  | some _ => db
  | none => { db with rows := db.rows.insert id ⟨instanceID,.waiting⟩ }

def removeMandelbox (db : HostDatabase) (instanceID : String) (id : MandelboxID) : HostDatabase :=
  match db.rows.lookup id with
  | none => db
  | some r => { db with rows := db.rows.erase id, changed := db.changed || decide (IsAllocated instanceID r) }

def Lists (db : HostDatabase) (instanceID : String) (event : List (MandelboxID × Row)) : Prop :=
  (∀ x ∈ event, db.rows.lookup x.1 = some x.2 ∧ IsAllocated instanceID x.2) ∧
    ∀ x ∈ db.rows.entries, IsAllocated instanceID x.2 → (x.1,x.2) ∈ event

instance (db : HostDatabase) (instanceID : String) (event : List (MandelboxID × Row)) :
    Decidable (db.Lists instanceID event) := inferInstanceAs (Decidable (_ ∧ _))

end HostDatabase

def mandelboxAllocatedHandler (instanceID : String) (event : List (MandelboxID × Row)) : Bool :=
  match event with
  | [] => false
  | x :: _ => x.2.instanceID = instanceID && x.2.status = .allocated

/-- What `FinishMandelboxSpinUp` does next. -/
inductive FinishPC where
  | verify
  | markConnecting
  | lookUp
  | assign (mandelbox : ℕ)
  | getHostPorts (mandelbox : ℕ)
  | getChannel (mandelbox : ℕ) (ports : HostPorts)
  | receive (mandelbox : ℕ) (ports : HostPorts) (jsonChan : ℕ)
  | connecting (mandelbox : ℕ) (ports : HostPorts)
  | writeJSONData (mandelbox : ℕ) (ports : HostPorts)
  | waitForFile (mandelbox : ℕ) (ports : HostPorts)
  | markRunning (mandelbox : ℕ) (ports : HostPorts)
  | returnResult (mandelbox : ℕ) (ports : HostPorts)
  | running (mandelbox : ℕ)
  | close (mandelbox : ℕ)
  | returned
deriving DecidableEq

/-- `verified` says that the mandelbox passed `VerifyAllocatedMandelbox`. -/
structure Finish where
  mandelboxID : MandelboxID
  req : Option ℕ
  pc : FinishPC
  verified : Bool
deriving DecidableEq

inductive CleanupPC where
  | markDying
  | untrack
  | free
  | find
  | remove (instanceID : String)
  | capacity (instanceID : String)
  | notify
  | ended
deriving DecidableEq

structure Zygote where
  status : Option MandelboxStatus
  privateKey : String
  cleanup : CleanupPC

/-- What the event loop does next: it handles a die event, counts the waiting mandelboxes, or
starts new ones. -/
inductive LoopPC where
  | idle
  | reset (mandelbox : ℕ)
  | close (mandelbox : ℕ)
  | capacity
  | count (capacity : ℤ)
  | spinUp (n : ℕ)
  | start (n : ℕ) (mandelbox : ℕ)
  | register (n : ℕ) (mandelbox : ℕ)
deriving DecidableEq

inductive AssignPC where
  | queryMandelbox
  | updateMandelbox (id : MandelboxID)
  | updateInstance
  | ended
deriving DecidableEq

structure Assignment where
  remainingCapacity : ℤ
  pc : AssignPC
deriving DecidableEq

structure Service where
  host : HostState
  zygotes : ℕ → Zygote
  tracker : MandelboxID → Option ℕ
  transport : Transport
  finishes : List Finish
  loop : LoopPC
  db : HostDatabase
  assignments : List Assignment
  subscriptionEvents : List (List (MandelboxID × Row))
  mandelboxDieEvents : ℕ
  cancelled : Bool
  crashed : Bool

/-- How a step that can fail turns out.  The error of a commit is ignored. -/
inductive Outcome where
  | ok
  | commitLost
  | error
deriving DecidableEq

inductive ServiceMove where
  | request (id : MandelboxID)
  | handler (i : ℕ)
  | subscription
  | finish (j : ℕ) (out : Outcome)
  | dockerDie (i : ℕ)
  | mandelboxDie
  | loop (ok : Bool)
  | spinUp (id : MandelboxID) (privateKey : String)
  | resources (i : ℕ) (action : MandelboxAction)
  | cleanup (i : ℕ) (ok : Bool)
  | stale (i : ℕ)
  | stopWaiting (i : ℕ)
  | cancel
  | publish (event : List (MandelboxID × Row))
  | assign
  | assignment (k : ℕ) (id : MandelboxID)

def hostPorts (binds : List PortBinding) : Option HostPorts :=
  match getHostPort binds 32261 .tcp, getHostPort binds 32262 .tcp, getHostPort binds 32263 .udp,
    getHostPort binds 32273 .tcp with
  | some p, some q, some r, some s => some ⟨p,q,r,s⟩
  | _, _, _, _ => none

namespace Service

def mandelbox? (s : Service) (i : ℕ) : Option MandelboxData := s.host.mandelboxes[i]?

def mandelboxID? (s : Service) (i : ℕ) : Option MandelboxID := (s.mandelbox? i).map MandelboxData.id

def phase? (s : Service) (i : ℕ) : Option Phase := (s.mandelbox? i).map MandelboxData.phase

def IsTracked (s : Service) (i : ℕ) : Prop := (s.mandelboxID? i).bind s.tracker = some i

instance (s : Service) (i : ℕ) : Decidable (s.IsTracked i) := inferInstanceAs (Decidable (_ = _))

def setFinish (s : Service) (j : ℕ) (f : Finish) : Service := { s with finishes := s.finishes.set j f }

def setZygote (s : Service) (i : ℕ) (z : Zygote) : Service :=
  { s with zygotes := Function.update s.zygotes i z }

def setStatus (s : Service) (i : ℕ) (status : MandelboxStatus) : Service :=
  s.setZygote i { s.zygotes i with status := some status }

/-- `Close` cancels the context of a mandelbox; a second time it does nothing. -/
def close (cfg : Config) (s : Service) (i : ℕ) : Service :=
  match s.host.step cfg.usesGPU (.act i .close) with
  | .error _ => s
  | .ok host => { s with host := host }

def waitingMandelboxes (s : Service) : List ℕ :=
  (List.range s.host.mandelboxes.length).filter fun i =>
    s.IsTracked i ∧ (s.zygotes i).status = some .waiting

def panicOr (s : Service) (r : Except Fault Transport) : Except HostStuck Service :=
  match r with
  | .error .panicked => .ok { s with crashed := true }
  | .error .blocked => .error .notNow
  | .ok transport => .ok { s with transport := transport }

def allocatedRow (cfg : Config) (s : Service) (id : MandelboxID) : Bool :=
  match s.db.rows.lookup id with
  | none => false
  | some r => HostDatabase.IsAllocated cfg.instanceID r

/-- The next step of `FinishMandelboxSpinUp`.  The transaction of `VerifyAllocatedMandelbox` reads the
row first, and then writes it whatever it is by then. -/
def finishAt (cfg : Config) (s : Service) (j : ℕ) (f : Finish) (out : Outcome) :
    FinishPC → Except HostStuck Service
  | .verify =>
    if out ≠ .error ∧ s.allocatedRow cfg f.mandelboxID then .ok (s.setFinish j { f with pc := .markConnecting })
    else .ok (s.setFinish j { f with pc := .returned })
  | .markConnecting =>
    if out = .error ∨ (s.db.rows.lookup f.mandelboxID).isNone then
      .ok (s.setFinish j { f with pc := .returned })
    else if out = .commitLost then .ok (s.setFinish j { f with pc := .lookUp, verified := true })
    else
      .ok { s.setFinish j { f with pc := .lookUp, verified := true } with
        db := s.db.writeMandelboxStatus cfg.instanceID f.mandelboxID .connecting }
  | .lookUp =>
    match s.tracker f.mandelboxID with
    | none => .ok (s.setFinish j { f with pc := .returned })
    | some m => .ok (s.setFinish j { f with pc := .assign m })
  | .assign m => .ok ((s.setStatus m .allocated).setFinish j { f with pc := .getHostPorts m })
  | .getHostPorts m =>
    match (s.mandelbox? m).bind fun data => hostPorts data.portBindings with
    | none => .ok (s.setFinish j { f with pc := .close m })
    | some ports => .ok (s.setFinish j { f with pc := .getChannel m ports })
  | .getChannel m ports =>
    match s.transport.getJSONTransportRequestChannel f.mandelboxID with
    | .error _ => .error .notNow
    | .ok (a,transport) =>
      .ok { s.setFinish j { f with pc := .receive m ports a } with transport := transport }
  | .receive m ports a =>
    -- the minute is over before a request comes
    if out = .error then .ok (s.setFinish j { f with pc := .close m })
    else
      match s.transport.receive a with
      | .error _ => .error .notNow
      | .ok (req,transport) =>
        .ok { s.setFinish j { f with req := req, pc := .connecting m ports } with transport := transport }
  | .connecting m ports => .ok ((s.setStatus m .connecting).setFinish j { f with pc := .writeJSONData m ports })
  | .writeJSONData m ports =>
    if f.req.isNone then .ok { s with crashed := true }
    else if out = .error then .ok (s.setFinish j { f with pc := .close m })
    else if cfg.isLocalEnv then .ok (s.setFinish j { f with pc := .markRunning m ports })
    else .ok (s.setFinish j { f with pc := .waitForFile m ports })
  | .waitForFile m ports =>
    if out = .error then .ok (s.setFinish j { f with pc := .close m })
    else .ok (s.setFinish j { f with pc := .markRunning m ports })
  | .markRunning m ports =>
    if out = .error ∨ (s.db.rows.lookup f.mandelboxID).isNone then
      .ok (s.setFinish j { f with pc := .close m })
    else
      .ok { s.setFinish j { f with pc := .returnResult m ports } with
        db := s.db.writeMandelboxStatus cfg.instanceID f.mandelboxID .running }
  | .returnResult m ports =>
    match f.req with
    | none => .error .notNow
    | some i =>
      .ok { s.setFinish j { f with pc := .running m } with
        transport := s.transport.returnResult i ⟨ports,(s.zygotes m).privateKey⟩ }
  | .running m => .ok ((s.setStatus m .running).setFinish j { f with pc := .returned })
  | .close m => .ok ((s.close cfg m).setFinish j { f with pc := .returned })
  | .returned => .error .notNow

/-- The next step of the clean-up after a mandelbox that was closed.  A mandelbox whose status is
empty was never in the database. -/
def cleanupAt (cfg : Config) (s : Service) (i : ℕ) (id : MandelboxID) (ok : Bool) :
    CleanupPC → Except HostStuck Service
  | .markDying =>
    if s.phase? i ≠ some (.closing .cancelled) then .error .notNow
    else if (s.zygotes i).status.isSome ∧ ok then
      .ok { s.setZygote i { s.zygotes i with cleanup := .untrack } with
        db := s.db.writeMandelboxStatus cfg.instanceID id .dying }
    else .ok (s.setZygote i { s.zygotes i with cleanup := .untrack })
  | .untrack =>
    .ok { s.setZygote i { s.zygotes i with cleanup := .free } with
      tracker := Function.update s.tracker id none }
  | .free =>
    match s.host.step cfg.usesGPU (.act i .cleanup) with
    | .error e => .error e
    | .ok host =>
      if (host.mandelboxes[i]?).map MandelboxData.phase = some .cleaned then
        .ok { s.setZygote i { s.zygotes i with cleanup := .find } with host := host }
      else .ok { s with host := host }
  | .find =>
    if (s.zygotes i).status.isSome ∧ ok then
      match s.db.rows.lookup id with
      | none => .ok (s.setZygote i { s.zygotes i with cleanup := .notify })
      | some r => .ok (s.setZygote i { s.zygotes i with cleanup := .remove r.instanceID })
    else .ok (s.setZygote i { s.zygotes i with cleanup := .notify })
  | .remove instanceID =>
    if ok ∧ (s.db.rows.lookup id).isSome then
      .ok { s.setZygote i { s.zygotes i with cleanup := .capacity instanceID } with
        db := s.db.removeMandelbox cfg.instanceID id }
    else .ok (s.setZygote i { s.zygotes i with cleanup := .notify })
  | .capacity instanceID =>
    if ok ∧ instanceID = cfg.instanceID then
      .ok { s.setZygote i { s.zygotes i with cleanup := .notify } with
        db := { s.db with remainingCapacity := s.db.remainingCapacity + 1 } }
    else .ok (s.setZygote i { s.zygotes i with cleanup := .notify })
  | .notify =>
    .ok { s.setZygote i { s.zygotes i with cleanup := .ended } with
      mandelboxDieEvents := s.mandelboxDieEvents + 1 }
  | .ended => .error .notNow

def loopAt (cfg : Config) (s : Service) (ok : Bool) : LoopPC → Except HostStuck Service
  | .idle => .error .notNow
  | .reset i =>
    match s.mandelboxID? i with
    | none => .error .noMandelbox
    | some id => { s with loop := .close i }.panicOr (s.transport.reset id)
  | .close i => .ok { s.close cfg i with loop := .idle }
  | .capacity => .ok { s with loop := if ok then .count s.db.remainingCapacity else .idle }
  | .count capacity => .ok { s with loop := .spinUp (capacity - s.waitingMandelboxes.length).toNat }
  | .spinUp 0 => .ok { s with loop := .idle }
  | .spinUp (_ + 1) => .error .notNow
  | .start n i =>
    match s.phase? i with
    | some .created =>
      if ok then .ok { s.setStatus i .waiting with loop := .register n i }
      else .ok { s.close cfg i with loop := .idle, cancelled := true }
    | some (.closing _) => .ok { s with loop := .idle, cancelled := true }
    | some .cleaned => .ok { s with loop := .idle, cancelled := true }
    | _ => .error .notNow
  | .register n i =>
    match s.mandelboxID? i with
    | none => .error .noMandelbox
    | some id =>
      .ok { s with
        loop := .spinUp n
        db := if ok then s.db.createMandelbox cfg.instanceID id else s.db }

def IsFresh (s : Service) (id : MandelboxID) : Prop :=
  (∀ m ∈ s.host.mandelboxes, m.id ≠ id) ∧ s.db.rows.lookup id = none ∧ ∀ f ∈ s.finishes, f.mandelboxID ≠ id

instance (s : Service) (id : MandelboxID) : Decidable (s.IsFresh id) :=
  inferInstanceAs (Decidable (_ ∧ _ ∧ _))

def newMandelbox (cfg : Config) (s : Service) (n : ℕ) (id : MandelboxID) (privateKey : String) :
    Except HostStuck Service :=
  match s.host.step cfg.usesGPU (.new id) with
  | .error e => .error e
  | .ok host =>
    .ok { s.setZygote s.host.mandelboxes.length ⟨none,privateKey,.markDying⟩ with
      host := host
      tracker := Function.update s.tracker id (some s.host.mandelboxes.length)
      loop := .start n s.host.mandelboxes.length }

/-- The assignment of a user by the scaling service: the row becomes `ALLOCATED` whatever it is by
then, and the remaining capacity is written from what was read. -/
def assignmentAt (cfg : Config) (s : Service) (k : ℕ) (a : Assignment) (id : MandelboxID) :
    AssignPC → Except HostStuck Service
  | .queryMandelbox =>
    if s.db.rows.lookup id = some ⟨cfg.instanceID,.waiting⟩ then
      .ok { s with assignments := s.assignments.set k { a with pc := .updateMandelbox id } }
    else .error .notNow
  | .updateMandelbox id =>
    .ok { s with
      assignments := s.assignments.set k { a with pc := .updateInstance }
      db := s.db.writeMandelboxStatus cfg.instanceID id .allocated }
  | .updateInstance =>
    .ok { s with
      assignments := s.assignments.set k { a with pc := .ended }
      db := { s.db with remainingCapacity := a.remainingCapacity - 1 } }
  | .ended => .error .notNow

def move (cfg : Config) (s : Service) : ServiceMove → Except HostStuck Service
  | .request id =>
    if s.loop ≠ .idle then .error .notNow else .ok { s with transport := s.transport.request id }
  | .handler i => s.panicOr (s.transport.handleJSONTransportRequest i)
  | .subscription =>
    if s.loop ≠ .idle then .error .notNow
    else
      match s.subscriptionEvents with
      | (x :: _) :: rest =>
        .ok { s with
          subscriptionEvents := rest
          finishes := s.finishes ++ [⟨x.1,none,.verify,false⟩] }
      | _ => .error .notNow
  | .finish j out =>
    match s.finishes[j]? with
    | none => .error .notNow
    | some f => s.finishAt cfg j f out f.pc
  | .dockerDie i =>
    if s.loop = .idle ∧ s.IsTracked i ∧ s.phase? i ≠ some .starting then .ok { s with loop := .reset i }
    else .error .notNow
  | .mandelboxDie =>
    if s.loop = .idle ∧ 0 < s.mandelboxDieEvents then
      .ok { s with
        mandelboxDieEvents := s.mandelboxDieEvents - 1
        loop := if s.cancelled then .idle else .capacity }
    else .error .notNow
  | .loop ok => s.loopAt cfg ok s.loop
  | .spinUp id privateKey =>
    match s.loop with
    | .spinUp (n + 1) => if s.IsFresh id then s.newMandelbox cfg n id privateKey else .error .notNow
    | _ => .error .notNow
  | .resources i action =>
    match action with
    | .close => .error .notNow
    | .cleanup => .error .notNow
    | action =>
      match s.host.step cfg.usesGPU (.act i action) with
      | .error e => .error e
      | .ok host => .ok { s with host := host }
  | .cleanup i ok =>
    match s.mandelboxID? i with
    | none => .error .noMandelbox
    | some id => s.cleanupAt cfg i id ok (s.zygotes i).cleanup
  | .stale i =>
    if s.IsTracked i ∧ ((s.zygotes i).status = some .allocated ∨ (s.zygotes i).status = some .connecting) then
      .ok (s.close cfg i)
    else .error .notNow
  | .stopWaiting i =>
    if s.cancelled ∧ s.IsTracked i ∧ (s.zygotes i).status = some .waiting then .ok (s.close cfg i)
    else .error .notNow
  | .cancel => .ok { s with cancelled := true }
  | .publish event =>
    if s.db.Lists cfg.instanceID event then
      .ok { s with
        db := { s.db with changed := false }
        subscriptionEvents :=
          if mandelboxAllocatedHandler cfg.instanceID event then s.subscriptionEvents ++ [event]
          else s.subscriptionEvents }
    else .error .notNow
  | .assign =>
    if 0 < s.db.remainingCapacity then
      .ok { s with assignments := s.assignments ++ [⟨s.db.remainingCapacity,.queryMandelbox⟩] }
    else .error .notNow
  | .assignment k id =>
    match s.assignments[k]? with
    | none => .error .notNow
    | some a => s.assignmentAt cfg k a id a.pc

/-- Nothing happens after a panic. -/
def step (cfg : Config) (s : Service) (mv : ServiceMove) : Except HostStuck Service :=
  if s.crashed then .error .notNow else s.move cfg mv

def start (rows : Rows) (reservations : List (UInt16 × TransportProtocol)) (numGPUs capacity : ℕ) : Service where
  host := HostState.initial reservations numGPUs
  zygotes := fun _ => ⟨none,"",.markDying⟩
  tracker := fun _ => none
  transport := .empty
  finishes := []
  loop := .spinUp capacity
  db := { rows := rows, remainingCapacity := capacity, changed := true }
  assignments := []
  subscriptionEvents := []
  mandelboxDieEvents := 0
  cancelled := false
  crashed := false

end Service

end Whist.Host
