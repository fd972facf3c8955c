import Whist.Scaling.Service

/-! # The scaling actions

`VerifyCapacity` and the actions that scale up and down: `default/scaling.go` and
`default/verify.go`.  A deferred call runs after the body that defers it, whatever the
body returns.
-/
namespace Whist.Scaling
open Program

abbrev Prog := Program Op Ans

abbrev Action := ExceptT String Prog

def attempt {α : Type} (p : Prog (Except String α)) : Action α := ExceptT.mk p

def attemptOr {α ε : Type} (message : String → ε) (p : Prog (Except String α)) : ExceptT ε Prog α :=
  ExceptT.mk do
    match ← p with
    | .ok a => pure (.ok a)
    | .error e => pure (.error (message e))

namespace Client

def queryInstance (id : String) : Prog (Except String (List Instance)) := perform (Op.queryInstance id)

def queryInstanceWithCapacity (region : String) : Prog (Except String (List Instance)) :=
  perform (Op.queryInstanceWithCapacity region)

def queryInstancesByStatusOnRegion (status : InstanceStatus) (region : String) :
    Prog (Except String (List Instance)) :=
  perform (Op.queryInstancesByStatusOnRegion status region)

def insertInstances (rows : List Instance) : Prog (Except String ℕ) := perform (Op.insertInstances rows)

def updateInstance (row : Instance) : Prog (Except String ℕ) := perform (Op.updateInstance row)

def deleteInstance (id : String) : Prog (Except String ℕ) := perform (Op.deleteInstance id)

def queryImage (provider region : String) : Prog (Except String (List Image)) :=
  perform (Op.queryImage provider region)

def queryLatestImage (provider region : String) : Prog (Except String Image) := do
  match ← queryImage provider region with
  | .error e => pure (.error s!"failed to query database for current image: {e}")
  | .ok [] => pure (.error s!"image not found in {region}")
  | .ok (image :: _) => pure (.ok image)

def insertImages (rows : List Image) : Prog (Except String ℕ) := perform (Op.insertImages rows)

def updateImage (image : Image) : Prog (Except String ℕ) := perform (Op.updateImage image)

def queryMandelbox (instanceID : String) (status : MandelboxStatus) :
    Prog (Except String (List Mandelbox)) :=
  perform (Op.queryMandelbox instanceID status)

def queryUserMandelboxes (userID : String) : Prog (Except String (List Mandelbox)) :=
  perform (Op.queryUserMandelboxes userID)

def insertMandelboxes (rows : List Mandelbox) : Prog (Except String ℕ) :=
  perform (Op.insertMandelboxes rows)

def updateMandelbox (row : Mandelbox) : Prog (Except String ℕ) := perform (Op.updateMandelbox row)

def spinUpInstances (region : String) (numInstances : ℤ) (image : Image) :
    Prog (Except String (List Instance)) :=
  perform (Op.spinUpInstances region numInstances image)

def spinDownInstances (ids : List String) : Prog (Except String Unit) :=
  perform (Op.spinDownInstances ids)

def waitForInstanceTermination (ids : List String) : Prog (Except String Unit) :=
  perform (Op.waitForInstanceTermination ids)

def spinUpFakeInstances (instanceNum : ℤ) (imageID region gitCommit : String) :
    Prog (List Instance × List Mandelbox) :=
  perform (Op.spinUpFakeInstances instanceNum imageID region gitCommit)

def now : Prog ℕ := perform Op.now

def returnResult (result : AssignResult) : Prog Unit := perform (Op.returnResult result)

def lockProtectedMap (region : String) : Prog Unit := perform (Op.lockProtectedMap region)

def unlockProtectedMap (region : String) : Prog Unit := perform (Op.unlockProtectedMap region)

def readProtected (region : String) : Prog ProtectedMap := perform (Op.readProtected region)

def writeProtected (region : String) (images : ProtectedMap) : Prog Unit :=
  perform (Op.writeProtected region images)

def sendSync (region : String) : Prog SyncResult := perform (Op.sendSync region)

def receiveSync (region : String) : Prog SyncResult := perform (Op.receiveSync region)

end Client
open Client

def int32 (n : ℤ) : ℤ := Int.bmod n (2 ^ 32)

def withCapacity (rows : List Instance) : List Instance :=
  rows.map fun i => { i with remainingCapacity := instanceCapacity i.instanceType }

def launchInstances (cfg : Settings) (instancesToScale : ℤ) (region : String) (image : Image) :
    Action (List Instance × List Mandelbox) :=
  if cfg.spinsUpFakeInstances then
    liftM (spinUpFakeInstances instancesToScale image.imageID region cfg.gitCommit)
  else do
    let instancesForDb ← attemptOr (fun e => s!"failed to spin up instances: {e}")
      (spinUpInstances region (int32 instancesToScale) image)
    if (instancesForDb.length : ℤ) ≠ instancesToScale then
      throw s!"could not scale up {instancesToScale} instances, only scaled up {instancesForDb.length}"
    else pure (withCapacity instancesForDb,[])

def insertFakeMandelboxes (fakeMandelboxesForDb : List Mandelbox) : Action Unit :=
  if fakeMandelboxesForDb = [] then pure ()
  else do
    let _ ← attemptOr (fun e => s!"failed to insert fake mandelboxes to database: {e}")
      (insertMandelboxes fakeMandelboxesForDb)

def scaleUpIfNecessary (cfg : Settings) (instancesToScale : ℤ) (region : String) (image : Image) :
    Action Unit := do
  let launched ← launchInstances cfg instancesToScale region image
  let _ ← attemptOr (fun e => s!"failed to insert instances into database: {e}")
    (insertInstances launched.1)
  insertFakeMandelboxes launched.2

def verifyCapacity (cfg : Settings) (region : String) : Action Unit := do
  let latestImage ← attempt (queryLatestImage "AWS" region)
  let allActive ← attemptOr (fun e => s!"failed to query database for active instances: {e}")
    (queryInstancesByStatusOnRegion .active region)
  let allStarting ← attemptOr (fun e => s!"failed to query database for starting instances: {e}")
    (queryInstancesByStatusOnRegion .preConnection region)
  let mandelboxCapacity := computeExpectedMandelboxCapacity latestImage.imageID allActive allStarting
  let targetFreeMandelboxes := cfg.targetFreeMandelboxes region
  if mandelboxCapacity < targetFreeMandelboxes then
    scaleUpIfNecessary cfg
      (computeInstancesToScale targetFreeMandelboxes mandelboxCapacity (instanceCapacity assumedInstanceType))
      region latestImage
  else pure ()

def thenVerifyCapacity {α : Type} (cfg : Settings) (region : String) (action : Prog α) : Prog Unit := do
  let _ ← action
  let _ ← (verifyCapacity cfg region).run

def minutes (n : ℕ) : ℕ := n * 60000000000

def expectedDrainTime : ℕ := minutes 10

def verifyInstanceRemoval (i : Instance) : Action Unit := do
  attempt (waitForInstanceTermination [i.id])
  let instanceResult ← attemptOr (fun e => s!"failed to query database for instance {i.id}: {e}")
    (queryInstance i.id)
  if instanceResult = [] then pure ()
  else do
    let _ ← attemptOr (fun e => s!"failed to delete instance {i.id} from database: {e}")
      (deleteInstance i.id)

structure FreeInstances where
  mandelboxCapacity : ℤ
  freeInstances : List Instance
deriving DecidableEq

def considerFree (latestImage : Image) (extraCapacity : ℤ) (protectedFromScaleDown : ProtectedMap)
    (s : FreeInstances) (i : Instance) : FreeInstances :=
  let usage := instanceCapacity i.instanceType - i.remainingCapacity
  if usage > 0 then s
  else if (protectedFromScaleDown.lookup i.imageID).isSome then s
  else if i.imageID = latestImage.imageID then
    if s.mandelboxCapacity ≥ extraCapacity then
      { mandelboxCapacity := s.mandelboxCapacity - i.remainingCapacity
        freeInstances := s.freeInstances ++ [i] }
    else s
  else { s with freeInstances := s.freeInstances ++ [i] }

/-- The loop for the lingering instances reads the clock for each instance that could be one. -/
def findLingering : List Instance → List Instance → Prog (List Instance)
  | [], lingeringInstances => pure lingeringInstances
  | i :: rest, lingeringInstances =>
    if i.remainingCapacity = 0 then findLingering rest lingeringInstances
    else do
      let time ← now
      if (time : ℤ) - i.updatedAt > expectedDrainTime then
        findLingering rest (lingeringInstances ++ [i])
      else findLingering rest lingeringInstances

def terminateLingering (cfg : Settings) (lingeringInstances : List Instance) : Action Unit :=
  if lingeringInstances ≠ [] ∧ !cfg.isLocalEnv then
    attemptOr (fun e => s!"failed to terminate lingering instances: {e}")
      (spinDownInstances (lingeringInstances.map Instance.id))
  else pure ()

def verifyRemovals : List Instance → Action Unit
  | [] => pure ()
  | i :: rest => do
    verifyInstanceRemoval i
    verifyRemovals rest

def markDrainingInstances : List Instance → Action Unit
  | [] => pure ()
  | i :: rest => do
    let _ ← attemptOr (fun e => s!"failed to mark instance {i.id} as draining: {e}")
      (updateInstance { i with status := .draining })
    markDrainingInstances rest

def scaleDownLocked (cfg : Settings) (region : String) (latestImage : Image)
    (allActive : List Instance) : Action Unit := do
  let mandelboxCapacity := computeRealMandelboxCapacity latestImage.imageID allActive
  let extraCapacity := cfg.targetFreeMandelboxes region +
    defaultInstanceBuffer * instanceCapacity assumedInstanceType
  let protectedFromScaleDown ← liftM (readProtected region)
  let free := allActive.foldl (considerFree latestImage extraCapacity protectedFromScaleDown)
    ⟨mandelboxCapacity,[]⟩
  let drainingInstances ← attemptOr (fun e => s!"failed to query database for lingering instances: {e}")
    (queryInstancesByStatusOnRegion .draining region)
  let lingeringInstances ← liftM (findLingering drainingInstances [])
  terminateLingering cfg lingeringInstances
  verifyRemovals lingeringInstances
  markDrainingInstances free.freeInstances

def withProtectedLocked (region : String) (action : Action Unit) : Action Unit := ExceptT.mk do
  lockProtectedMap region
  let result ← action.run
  unlockProtectedMap region
  pure result

def scaleDownBody (cfg : Settings) (region : String) : Action Unit := do
  let latestImage ← attempt (queryLatestImage "AWS" region)
  let allActive ← attemptOr (fun e => s!"failed to query database for active instances: {e}")
    (queryInstancesByStatusOnRegion .active region)
  withProtectedLocked region (scaleDownLocked cfg region latestImage allActive)

def scaleDownIfNecessary (cfg : Settings) (region : String) : Prog Unit :=
  thenVerifyCapacity cfg region (scaleDownBody cfg region).run

def verifyScaleDownBody (i : Instance) : Action Unit := do
  let instanceResult ← attemptOr (fun e => s!"failed to query database for instance {i.id}: {e}")
    (queryInstance i.id)
  if instanceResult.any fun row => instanceCapacity row.instanceType - row.remainingCapacity > 0 then
    pure ()
  else verifyInstanceRemoval i

def verifyInstanceScaleDown (cfg : Settings) (region : String) (i : Instance) : Prog Unit :=
  thenVerifyCapacity cfg region (verifyScaleDownBody i).run

end Whist.Scaling
