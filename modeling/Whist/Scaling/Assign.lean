import Whist.Scaling.Actions

/-! # Assigning a mandelbox

`MandelboxAssign` of `default/assign.go` and `CheckForExistingMandelbox` of
`assign/assign.go`.
-/
namespace Whist.Scaling
open Program Client

structure AssignRequest where
  regions : List String
  commitHash : String
  userEmail : String
  version : String
  sessionID : ℤ
  userID : String
deriving DecidableEq, Repr

inductive Refusal where
  | unavailable (message : String)
  | answered (message : Option String)
deriving DecidableEq, Repr

abbrev AssignAction := ExceptT Refusal Prog

def activeOrConnectingMandelboxes (rows : List Mandelbox) : ℕ :=
  (rows.filter fun m => m.status ≠ .dying).length

def checkForExistingMandelbox (cfg : Settings) (userID : String) : Prog (Except String Bool) :=
  if userID = "" then pure (.error "user ID is empty, not assigning mandelboxes")
  else do
    match ← queryUserMandelboxes userID with
    | .error e => pure (.error e)
    | .ok [] => pure (.ok true)
    | .ok rows => pure (.ok (decide ((activeOrConnectingMandelboxes rows : ℤ) < cfg.mandelboxLimitPerUser)))

def availableRegions (cfg : Settings) (requestedRegions : List String) : List String :=
  requestedRegions.flatMap fun region => cfg.enabledRegions.filter fun enabled => enabled = region

def unavailableRegions (cfg : Settings) (requestedRegions : List String) : List String :=
  requestedRegions.filter fun region => region ∉ cfg.enabledRegions

def tryInstances (commitHash imageID : String) : List Instance → Option Instance → Option Instance × Bool
  | [], assignedInstance => (assignedInstance,false)
  | i :: rest, _ =>
    if i.clientSHA = commitHash ∧ i.imageID = imageID then (some i,true)
    else tryInstances commitHash imageID rest (some i)

def tryRegions (commitHash : String) : List String → Option Instance → AssignAction (Option Instance)
  | [], assignedInstance => pure assignedInstance
  | region :: rest, assignedInstance => do
    let regionImage ← attemptOr (fun e => .unavailable s!"failed to query latest image in {region}: {e}")
      (queryLatestImage "AWS" region)
    let instanceResult ← attemptOr
      (fun e => .unavailable s!"failed to query for instances with capacity in {region}: {e}")
      (queryInstanceWithCapacity region)
    let tried := tryInstances commitHash regionImage.imageID instanceResult assignedInstance
    if tried.2 then pure tried.1
    else tryRegions commitHash rest tried.1

def refuse {α : Type} (error : AssignError) (message : Option String) : AssignAction α := do
  liftM (returnResult (.failed error))
  throw (.answered message)

def isOutdatedFrontend (cfg : Settings) (req : AssignRequest) : Bool :=
  if req.version = "" then false
  else (cfg.compareVersions req.version cfg.frontendVersion).getD false

def mandelboxForDb (req : AssignRequest) (assignedInstance : Instance) (waitingMandelbox : Mandelbox)
    (time : ℕ) : Mandelbox where
  id := waitingMandelbox.id
  app := waitingMandelbox.app
  instanceID := assignedInstance.id
  userID := req.userID
  sessionID := toString req.sessionID
  status := .allocated
  createdAt := waitingMandelbox.createdAt
  updatedAt := time

def chargeAndAnswer (cfg : Settings) (assignedInstance : Instance) (mandelboxID : String) :
    AssignAction Unit :=
  if assignedInstance.remainingCapacity ≤ 0 then
    throw (.unavailable
      s!"instance with id {assignedInstance.id} has a remaning capacity less than or equal to 0")
  else do
    let _ ← attemptOr (fun e => .unavailable s!"error while updating instance capacity on database: {e}")
      (updateInstance
        { assignedInstance with remainingCapacity := assignedInstance.remainingCapacity - 1 })
    match cfg.parseCIDR assignedInstance.ipAddress with
    | .error e =>
      throw (.unavailable s!"failed to parse IP address {assignedInstance.ipAddress}: {e}")
    | .ok ip => liftM (returnResult (.assigned ip mandelboxID))

/-- Mark the first waiting mandelbox of the instance, and go on to charge the instance. -/
def allocate (cfg : Settings) (req : AssignRequest) (assignedInstance : Instance) : AssignAction Unit := do
  let mandelboxResult ← attemptOr
    (fun e => .unavailable
      s!"failed to query database for mandelbox on instance {assignedInstance.id}: {e}")
    (queryMandelbox assignedInstance.id .waiting)
  match mandelboxResult with
  | [] =>
    throw (.unavailable
      s!"failed to find a waiting mandelbox even though the instance {assignedInstance.id} had sufficient capacity")
  | waitingMandelbox :: _ => do
    let time ← liftM now
    let _ ← attemptOr (fun e => .unavailable s!"error while inserting mandelbox to database: {e}")
      (updateMandelbox (mandelboxForDb req assignedInstance waitingMandelbox time))
    chargeAndAnswer cfg assignedInstance waitingMandelbox.id

def clientCommitHashDevOverride : String := "local_dev"

def assignInRegions (cfg : Settings) (region : String) (req : AssignRequest) : AssignAction Unit := do
  let latestImage ← attemptOr .unavailable (queryLatestImage "AWS" region)
  let commitHash :=
    if cfg.isLocalEnv || req.commitHash = clientCommitHashDevOverride then latestImage.clientSHA
    else req.commitHash
  let assigned ← tryRegions commitHash (availableRegions cfg req.regions) none
  match assigned with
  | none =>
    refuse .noInstanceAvailable
      (some s!"did not find an instance with capacity for user {req.userEmail} and commit hash {commitHash}")
  | some assignedInstance =>
    if assignedInstance.clientSHA ≠ commitHash then
      refuse .commitHashMismatch
        (if cfg.environment = .prod ∧ !isOutdatedFrontend cfg req then
          some "found instance with capacity but different commit hash"
        else none)
    else allocate cfg req assignedInstance

def assignBody (cfg : Settings) (region : String) (req : AssignRequest) : AssignAction Unit := do
  let unsafeEmail := sanitizeEmail req.userEmail
  let shouldAllocateMandelbox ← attemptOr
    (fun e => .unavailable s!"failed to get mandelboxes from database: {e}")
    (checkForExistingMandelbox cfg req.userID)
  if !shouldAllocateMandelbox then
    refuse .userAlreadyActive
      (some s!"user {unsafeEmail} already has mandelboxes allocated or running, so not assigning more mandelboxes")
  else if (unavailableRegions cfg req.regions).length = req.regions.length then
    refuse .regionNotEnabled (some s!"user {unsafeEmail} requested access to only unavailable regions")
  else assignInRegions cfg region req

/-- The deferred answer for a request that has not been answered. -/
def mandelboxAssign (cfg : Settings) (region : String) (req : AssignRequest) : Prog Unit :=
  thenVerifyCapacity cfg region do
    match ← (assignBody cfg region req).run with
    | .error (.unavailable _) => returnResult (.failed .serviceUnavailable)
    | _ => pure ()

end Whist.Scaling
