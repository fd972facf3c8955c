import Whist.Scaling.Actions

/-! # Deploying an image

`UpgradeImage` and `SwapOverImages` of `default/deploy.go`.  The waits at the channel may
time out at any moment.
-/
namespace Whist.Scaling
open Program Client

def replaceProtected (region : String) (images : ProtectedMap) : Action Unit := do
  liftM (lockProtectedMap region)
  liftM (writeProtected region images)
  liftM (unlockProtectedMap region)

def insertFirstImage (newImage : Image) (imageResult : List Image) : Action Unit :=
  if imageResult = [] then do
    let time ← liftM now
    let _ ← attemptOr (fun e => s!"failed to insert image to database: {e}")
      (insertImages [{ newImage with updatedAt := time }])
  else pure ()

def awaitSwap (region : String) : Action Unit := do
  let result ← liftM (sendSync region)
  match result with
  | .done => pure ()
  | .timedOut => do
    replaceProtected region []
    throw "timed out waiting for config database to swap versions"

def launchBuffer (cfg : Settings) (region : String) (newImage : Image) :
    Action (List Instance × List Mandelbox) :=
  if cfg.spinsUpFakeInstances then
    liftM (spinUpFakeInstances defaultInstanceBuffer newImage.imageID region cfg.gitCommit)
  else do
    let instancesToScale := computeInstancesToScale (cfg.targetFreeMandelboxes region) 0
      (instanceCapacity assumedInstanceType)
    let instancesForDb ← attemptOr (fun e => s!"failed to create instance buffer: {e}")
      (spinUpInstances region (int32 instancesToScale) newImage)
    pure (withCapacity instancesForDb,[])

def upgradeImageBody (cfg : Settings) (region : String) (imageID : String) : Action Unit := do
  let time ← liftM now
  let newImage : Image :=
    { provider := "AWS", region := region, imageID := imageID, clientSHA := cfg.gitCommit, updatedAt := time }
  let imageResult ← attemptOr (fun e => s!"failed to query database for current image: {e}")
    (queryImage "AWS" region)
  let launched ← launchBuffer cfg region newImage
  let _ ← attemptOr (fun e => s!"failed to insert instances into database: {e}")
    (insertInstances launched.1)
  replaceProtected region [(newImage.imageID,newImage)]
  insertFirstImage newImage imageResult
  insertFakeMandelboxes launched.2
  awaitSwap region

def upgradeImage (cfg : Settings) (region : String) : Option String → Prog Unit
  | none => pure ()
  | some imageID => do
    let _ ← (upgradeImageBody cfg region imageID).run

def swapImage (newImage : Image) (imageResult : List Image) : Action Unit :=
  if (imageResult.head?.map Image.imageID).getD "" = "" then do
    let _ ← attemptOr (fun e => s!"failed to insert image into database: {e}") (insertImages [newImage])
  else do
    let _ ← attemptOr (fun e => s!"failed to update image in database: {e}") (updateImage newImage)

def swapLocked (region commitHash : String) : Action Unit := do
  let protectedFromScaleDown ← liftM (readProtected region)
  match protectedFromScaleDown.find? fun entry => entry.2.clientSHA = commitHash with
  | none =>
    throw s!"did not find protected image with commit hash {commitHash}. Not performing image swapover."
  | some entry => do
    let imageResult ← attemptOr (fun e => s!"failed to query database for current image: {e}")
      (queryImage "AWS" region)
    swapImage entry.2 imageResult
    liftM (writeProtected region (protectedFromScaleDown.filter fun other => other.1 ≠ entry.2.imageID))

def swapOverImagesBody (cfg : Settings) (region : String) (version : FrontendVersion) : Action Unit := do
  let result ← liftM (receiveSync region)
  match result with
  | .timedOut => do
    replaceProtected region []
    throw "timed out waiting for image upgrade to finish."
  | .done => withProtectedLocked region (swapLocked region (cfg.commitHash version))

def swapOverImages (cfg : Settings) (region : String) (version : FrontendVersion) : Prog Unit := do
  let _ ← (swapOverImagesBody cfg region version).run

end Whist.Scaling
