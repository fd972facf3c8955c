import Whist.Scaling.Actions

/-! # The host service

The functions of `host-service/dbdriver` with the goroutines of the host service that
call them.  The driver is enabled and connected; the two calls of a transaction at the
level READ COMMITTED take no lock between them.
-/
namespace Whist.Scaling
open Program Client

structure HostMetadata where
  publicIP : String
  imageID : String
  region : String
  instanceType : String
  instanceID : String
  gitCommit : String
deriving DecidableEq, Repr

def registrationMismatch (host : HostMetadata) (row : Instance) : Option String :=
  if row.imageID ≠ host.imageID then some "existing database row found, but AMI differs"
  else if row.region ≠ host.region then some "existing database row found, but location differs"
  else if ¬row.clientSHA.toList <+: host.gitCommit.toList then
    some "existing database row found, but commit hash differs"
  else if row.instanceType ≠ host.instanceType then
    some "existing database row found, but AWS instance type differs"
  else if row.status ≠ .preConnection then some "existing database row found, but status differs"
  else none

def affecting (message : String) (p : Prog (Except String ℕ)) : Action Unit := do
  let rowsAffected ← attempt p
  if rowsAffected = 0 then throw message else pure ()

def registerInstance (host : HostMetadata) : Action Unit := do
  let rows ← attemptOr (fun e => s!"error running query: {e}") (queryInstance host.instanceID)
  match rows with
  | [] => throw "existing row for this instance not found in the database."
  | row :: _ =>
    match registrationMismatch host row with
    | some message => throw message
    | none =>
      let time ← liftM now
      affecting "couldn't register instance in database: row went missing!"
        (perform (Op.registerInstance
          { row with
            id := host.instanceID, provider := "AWS", region := host.region, imageID := host.imageID,
            clientSHA := host.gitCommit, ipAddress := host.publicIP, instanceType := host.instanceType,
            status := .active, createdAt := time, updatedAt := time }))

def getInstanceCapacity (instanceID : String) : Action ℤ := do
  let rows ← attemptOr (fun e => s!"error running query for instance: {e}") (queryInstance instanceID)
  match rows with
  | [] => throw "existing row for this instance not found in the database"
  | row :: _ => pure row.remainingCapacity

def markDraining (instanceID : String) : Action Unit :=
  affecting "couldn't mark instance as draining: row in database went missing!"
    (perform (Op.writeInstanceStatus .draining instanceID))

def unregisterInstance (instanceID : String) : Action Unit :=
  affecting "unregisterInstance(): row went missing before we could delete it!"
    (perform (Op.deleteInstanceRow instanceID))

def writeHeartbeat (instanceID : String) : Action Unit :=
  affecting "writing heartbeat: row in database missing!" (perform (Op.writeHeartbeat instanceID))

def waitingMandelbox (id app instanceID : String) (time : ℕ) : Mandelbox where
  id := id
  app := app
  instanceID := instanceID
  userID := ""
  sessionID := ""
  status := .waiting
  createdAt := time
  updatedAt := time

def spinUpMandelboxes (app instanceID : String) : ℕ → Prog Unit
  | 0 => pure ()
  | n + 1 => do
    let id ← perform Op.newUUID
    match ← (perform (Op.startMandelboxSpinUp id) : Prog (Except String Unit)) with
    | .error _ => pure ()
    | .ok () => do
      let time ← now
      let _ ← perform (Op.createMandelbox (waitingMandelbox id app instanceID time))
      spinUpMandelboxes app instanceID n

def monitorWaitingMandelboxes (app instanceID : String) : Action Unit := do
  let capacity ← getInstanceCapacity instanceID
  let count ← liftM (perform (Op.getMandelboxCount instanceID) : Prog ℤ)
  liftM (spinUpMandelboxes app instanceID (capacity - count).toNat)

def writeMandelboxStatus (id : String) (status : MandelboxStatus) : Action Unit :=
  affecting s!"couldn't write status for mandelbox {id}: row in database missing!"
    (perform (Op.writeMandelboxStatus status id))

def findMandelboxByID (id : String) : Prog (Except String (List Mandelbox)) :=
  perform (Op.findMandelboxByID id)

def verifyAllocatedMandelbox (userID mandelboxID instanceID : String) : Action Unit := do
  let rows ← attemptOr
    (fun e => s!"couldn't verify mandelbox {mandelboxID} for user {userID}: error running query: {e}")
    (findMandelboxByID mandelboxID)
  match rows with
  | [] =>
    throw s!"couldn't verify mandelbox {mandelboxID} for user {userID}: didn't find matching row in the database."
  | row :: _ =>
    if row.status ≠ .allocated then
      throw s!"couldn't verify mandelbox {mandelboxID} for user {userID}: it's in the wrong state"
    else if row.instanceID ≠ instanceID then
      throw s!"couldn't verify mandelbox {mandelboxID} for user {userID}: it has the wrong instanceName"
    else writeMandelboxStatus mandelboxID .connecting

def removeMandelbox (mandelboxID : String) : Action Unit := do
  let mandelboxResult ← attemptOr (fun e => s!"failed to query mandelbox {mandelboxID} from database: {e}")
    (findMandelboxByID mandelboxID)
  match mandelboxResult with
  | [] => throw s!"mandelbox {mandelboxID} not found in database."
  | row :: _ =>
    let rowsAffected ← attemptOr (fun e => s!"couldn't remove mandelbox {mandelboxID} from database: {e}")
      (perform (Op.removeMandelbox mandelboxID) : Prog (Except String ℕ))
    if rowsAffected = 0 then
      throw s!"tried to remove mandelbox {mandelboxID} from database, but it was already gone!"
    else do
      let _ ← attemptOr (fun e => s!"couldn't increment instance capacity after cleaning mandelbox: {e}")
        (perform (Op.updateInstanceCapacity rowsAffected row.instanceID) : Prog (Except String ℕ))

def finishMandelboxSpinUp (userID mandelboxID instanceID : String) : Action Unit := do
  verifyAllocatedMandelbox userID mandelboxID instanceID
  attempt (perform (Op.connectMandelbox mandelboxID))
  writeMandelboxStatus mandelboxID .running

def closeMandelbox (mandelboxID : String) : Prog Unit := do
  let _ ← (writeMandelboxStatus mandelboxID .dying).run
  let _ ← (removeMandelbox mandelboxID).run

end Whist.Scaling
