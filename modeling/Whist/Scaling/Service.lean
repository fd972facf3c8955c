import Whist.Foundation.Pool
import Whist.Scaling.Capacity

/-! # What the actions call

The database client, the host handler, the driver of the host service, the lock and the
map of protected images, and the channel between a deploy and its swap.  A call of the
database is atomic, and each may fail without having been carried out.
-/
namespace Whist.Scaling

inductive AssignError where
  | commitHashMismatch
  | noInstanceAvailable
  | regionNotEnabled
  | userAlreadyActive
  | serviceUnavailable
deriving DecidableEq, Repr

inductive AssignResult where
  | assigned (ip : String) (mandelboxID : String)
  | failed (error : AssignError)
deriving DecidableEq, Repr

inductive SyncResult where
  | done
  | timedOut
deriving DecidableEq, Repr

/-- The images protected from scale down, by image id. -/
abbrev ProtectedMap := List (String × Image)

inductive Op where
  -- the database client of the scaling service
  | queryInstance (id : String)
  | queryInstanceWithCapacity (region : String)
  | queryInstancesByStatusOnRegion (status : InstanceStatus) (region : String)
  | insertInstances (rows : List Instance)
  | updateInstance (row : Instance)
  | deleteInstance (id : String)
  | queryImage (provider region : String)
  | insertImages (rows : List Image)
  | updateImage (image : Image)
  | queryMandelbox (instanceID : String) (status : MandelboxStatus)
  | queryUserMandelboxes (userID : String)
  | insertMandelboxes (rows : List Mandelbox)
  | updateMandelbox (row : Mandelbox)
  -- the host handler, and the made-up instances of a local environment
  | spinUpInstances (region : String) (numInstances : ℤ) (image : Image)
  | spinDownInstances (ids : List String)
  | waitForInstanceTermination (ids : List String)
  | spinUpFakeInstances (instanceNum : ℤ) (imageID region gitCommit : String)
  -- the clock, the request's channel, and what the goroutines of one region share
  | now
  | returnResult (result : AssignResult)
  | lockProtectedMap (region : String)
  | unlockProtectedMap (region : String)
  | readProtected (region : String)
  | writeProtected (region : String) (images : ProtectedMap)
  | sendSync (region : String)
  | receiveSync (region : String)
  -- the host service and its database driver
  | registerInstance (row : Instance)
  | writeInstanceStatus (status : InstanceStatus) (id : String)
  | writeHeartbeat (id : String)
  | deleteInstanceRow (id : String)
  | updateInstanceCapacity (removed : ℤ) (id : String)
  | createMandelbox (row : Mandelbox)
  | findMandelboxByID (id : String)
  | writeMandelboxStatus (status : MandelboxStatus) (id : String)
  | removeMandelbox (id : String)
  | newUUID
  | getMandelboxCount (instanceID : String)
  | startMandelboxSpinUp (id : String)
  | connectMandelbox (id : String)

/-- A call that may fail answers a value or the text of its error. -/
abbrev Ans : Op → Type
  | .queryInstance _ => Except String (List Instance)
  | .queryInstanceWithCapacity _ => Except String (List Instance)
  | .queryInstancesByStatusOnRegion _ _ => Except String (List Instance)
  | .insertInstances _ => Except String ℕ
  | .updateInstance _ => Except String ℕ
  | .deleteInstance _ => Except String ℕ
  | .queryImage _ _ => Except String (List Image)
  | .insertImages _ => Except String ℕ
  | .updateImage _ => Except String ℕ
  | .queryMandelbox _ _ => Except String (List Mandelbox)
  | .queryUserMandelboxes _ => Except String (List Mandelbox)
  | .insertMandelboxes _ => Except String ℕ
  | .updateMandelbox _ => Except String ℕ
  | .spinUpInstances _ _ _ => Except String (List Instance)
  | .spinDownInstances _ => Except String Unit
  | .waitForInstanceTermination _ => Except String Unit
  | .spinUpFakeInstances _ _ _ _ => List Instance × List Mandelbox
  | .now => ℕ
  | .returnResult _ => Unit
  | .lockProtectedMap _ => Unit
  | .unlockProtectedMap _ => Unit
  | .readProtected _ => ProtectedMap
  | .writeProtected _ _ => Unit
  | .sendSync _ => SyncResult
  | .receiveSync _ => SyncResult
  | .registerInstance _ => Except String ℕ
  | .writeInstanceStatus _ _ => Except String ℕ
  | .writeHeartbeat _ => Except String ℕ
  | .deleteInstanceRow _ => Except String ℕ
  | .updateInstanceCapacity _ _ => Except String ℕ
  | .createMandelbox _ => Except String ℕ
  | .findMandelboxByID _ => Except String (List Mandelbox)
  | .writeMandelboxStatus _ _ => Except String ℕ
  | .removeMandelbox _ => Except String ℕ
  | .newUUID => String
  | .getMandelboxCount _ => ℤ
  | .startMandelboxSpinUp _ => Except String Unit
  | .connectMandelbox _ => Except String Unit

/-- The database with what the goroutines share.  `launched` and `created` list every row
that was ever inserted, as it was inserted: identifiers are not drawn twice. -/
structure World where
  db : Database
  launched : List Instance
  created : List Mandelbox
  clock : ℕ
  protectedFromScaleDown : String → ProtectedMap
  protectedMapLock : String → Option ℕ

namespace World

def FreshInstances (w : World) (ids : List String) : Prop :=
  ids.Nodup ∧ ∀ id ∈ ids, ∀ i ∈ w.launched, i.id ≠ id

def FreshMandelboxes (w : World) (ids : List String) : Prop :=
  ids.Nodup ∧ ∀ id ∈ ids, ∀ m ∈ w.created, m.id ≠ id

instance (w : World) (ids : List String) : Decidable (w.FreshInstances ids) := instDecidableAnd

instance (w : World) (ids : List String) : Decidable (w.FreshMandelboxes ids) := instDecidableAnd

def launchedInstance (region : String) (image : Image) (id : String) : Instance where
  id := id
  provider := "AWS"
  region := region
  imageID := image.imageID
  clientSHA := image.clientSHA
  ipAddress := "0.0.0.0"
  instanceType := assumedInstanceType
  remainingCapacity := 0
  status := .preConnection
  createdAt := 0
  updatedAt := 0

def IsFakeInstance (imageID region gitCommit : String) (i : Instance) : Prop :=
  i = { i with
    provider := "AWS", region := region, imageID := imageID, clientSHA := gitCommit,
    instanceType := assumedInstanceType, remainingCapacity := 2, status := .active }

instance (imageID region gitCommit : String) (i : Instance) :
    Decidable (IsFakeInstance imageID region gitCommit i) := instDecidableEqInstance _ _

def IsFakeMandelbox (m : Mandelbox) : Prop :=
  m = { m with app := "WHISTIUM", userID := "", sessionID := "", status := .waiting }

instance (m : Mandelbox) : Decidable (IsFakeMandelbox m) := instDecidableEqMandelbox _ _

end World

def Unless {α : Type} (P : α → Prop) : Except String α → Prop
  | .ok a => P a
  | .error _ => True

instance {α : Type} (P : α → Prop) [DecidablePred P] (r : Except String α) : Decidable (Unless P r) :=
  match r with
  | .ok a => inferInstanceAs (Decidable (P a))
  | .error _ => isTrue trivial

@[simp] theorem unless_ok {α : Type} (P : α → Prop) (a : α) : Unless P (.ok a) = P a := rfl

@[simp] theorem unless_error {α : Type} (P : α → Prop) (e : String) : Unless P (.error e) = True := rfl

def affectedInstances (db : Database) (id : String) : ℕ := (db.queryInstance id).length

def affectedMandelboxes (db : Database) (id : String) : ℕ := (db.findMandelboxByID id).length

/-- The answers a call can get.  Rows come in any order that the query does not fix. -/
def answers (w : World) (pid : ℕ) : (op : Op) → Ans op → Prop
  | .queryInstance id, r => Unless (fun rows => rows.Perm (w.db.queryInstance id)) r
  | .queryInstanceWithCapacity region, r =>
    Unless (fun rows => rows.Perm (w.db.queryInstanceWithCapacity region) ∧
      rows.Pairwise fun i j => i.remainingCapacity ≤ j.remainingCapacity) r
  | .queryInstancesByStatusOnRegion status region, r =>
    Unless (fun rows => rows.Perm (w.db.queryInstancesByStatusOnRegion status region)) r
  | .insertInstances rows, r =>
    Unless (fun n => n = rows.length ∧ w.FreshInstances (rows.map Instance.id)) r
  | .updateInstance row, r => Unless (fun n => n = affectedInstances w.db row.id) r
  | .deleteInstance id, r => Unless (fun n => n = affectedInstances w.db id) r
  | .queryImage provider region, r =>
    Unless (fun rows => rows.Perm (w.db.queryImage provider region) ∧
      rows.Pairwise fun i j => j.updatedAt ≤ i.updatedAt) r
  | .insertImages rows, r =>
    Unless (fun n => n = rows.length ∧ (rows.map fun i => (i.provider,i.region)).Nodup ∧
      ∀ i ∈ rows, w.db.queryImage i.provider i.region = []) r
  | .updateImage image, r =>
    Unless (fun n => n = (w.db.queryImage image.provider image.region).length) r
  | .queryMandelbox instanceID status, r =>
    Unless (fun rows => rows.Perm (w.db.queryMandelbox instanceID status)) r
  | .queryUserMandelboxes userID, r =>
    Unless (fun rows => rows.Perm (w.db.queryUserMandelboxes userID)) r
  | .insertMandelboxes rows, r =>
    Unless (fun n => n = rows.length ∧ w.FreshMandelboxes (rows.map Mandelbox.id) ∧
      ∀ m ∈ rows, w.db.queryInstance m.instanceID ≠ []) r
  | .updateMandelbox row, r => Unless (fun n => n = affectedMandelboxes w.db row.id) r
  | .spinUpInstances region numInstances image, r =>
    Unless (fun rows => 1 ≤ numInstances ∧ (rows.length : ℤ) = numInstances ∧
      w.FreshInstances (rows.map Instance.id) ∧
      ∀ i ∈ rows, i = World.launchedInstance region image i.id) r
  | .spinDownInstances _, _ => True
  | .waitForInstanceTermination _, _ => True
  | .spinUpFakeInstances instanceNum imageID region gitCommit, r =>
    r.1.length = instanceNum.toNat ∧ w.FreshInstances (r.1.map Instance.id) ∧
      (∀ i ∈ r.1, World.IsFakeInstance imageID region gitCommit i) ∧
      r.2.map Mandelbox.instanceID = r.1.flatMap (fun i => List.replicate i.remainingCapacity.toNat i.id) ∧
      ∀ m ∈ r.2, World.IsFakeMandelbox m
  | .now, r => r = w.clock
  | .returnResult _, _ => True
  | .lockProtectedMap region, _ => w.protectedMapLock region = none
  | .unlockProtectedMap region, _ => w.protectedMapLock region = some pid
  | .readProtected region, r => r.Perm (w.protectedFromScaleDown region)
  | .writeProtected _ _, _ => True
  | .sendSync _, r => r = .timedOut
  | .receiveSync _, r => r = .timedOut
  | .registerInstance row, r => Unless (fun n => n = affectedInstances w.db row.id) r
  | .writeInstanceStatus _ id, r => Unless (fun n => n = affectedInstances w.db id) r
  | .writeHeartbeat id, r => Unless (fun n => n = affectedInstances w.db id) r
  | .deleteInstanceRow id, r =>
    Unless (fun n => n = affectedInstances w.db id ∧ ∀ m ∈ w.db.mandelboxes, m.instanceID ≠ id) r
  | .updateInstanceCapacity _ id, r => Unless (fun n => n = affectedInstances w.db id) r
  | .createMandelbox row, r =>
    Unless (fun n => n = 1 ∧ w.FreshMandelboxes [row.id] ∧ w.db.queryInstance row.instanceID ≠ []) r
  | .findMandelboxByID id, r => Unless (fun rows => rows.Perm (w.db.findMandelboxByID id)) r
  | .writeMandelboxStatus _ id, r => Unless (fun n => n = affectedMandelboxes w.db id) r
  | .removeMandelbox id, r => Unless (fun n => n = affectedMandelboxes w.db id) r
  | .newUUID, r => w.FreshMandelboxes [r]
  | .getMandelboxCount _, _ => True
  | .startMandelboxSpinUp _, _ => True
  | .connectMandelbox _, _ => True

instance (w : World) (pid : ℕ) (op : Op) (r : Ans op) : Decidable (answers w pid op r) := by
  cases op <;> (dsimp only [answers]; infer_instance)

def World.mutate (w : World) (r : Except String ℕ) (db : Database) : World :=
  match r with
  | .ok _ => { w with db := db }
  | .error _ => w

def effect (w : World) (pid : ℕ) : (op : Op) → Ans op → World
  | .insertInstances rows, .ok _ =>
    { w with db := { w.db with instances := w.db.instances ++ rows }, launched := w.launched ++ rows }
  | .updateInstance row, r => w.mutate r (w.db.updateInstance row w.clock)
  | .deleteInstance id, r => w.mutate r (w.db.deleteInstance id)
  | .insertImages rows, r => w.mutate r { w.db with images := w.db.images ++ rows }
  | .updateImage image, r => w.mutate r (w.db.updateImage image w.clock)
  | .insertMandelboxes rows, .ok _ =>
    { w with db := { w.db with mandelboxes := w.db.mandelboxes ++ rows }, created := w.created ++ rows }
  | .updateMandelbox row, r => w.mutate r (w.db.updateMandelbox row)
  | .lockProtectedMap region, _ =>
    { w with protectedMapLock := Function.update w.protectedMapLock region (some pid) }
  | .unlockProtectedMap region, _ =>
    { w with protectedMapLock := Function.update w.protectedMapLock region none }
  | .writeProtected region images, _ =>
    { w with protectedFromScaleDown := Function.update w.protectedFromScaleDown region images }
  | .registerInstance row, r => w.mutate r (w.db.updateInstance row w.clock)
  | .writeInstanceStatus status id, r => w.mutate r (w.db.writeInstanceStatus status id w.clock)
  | .writeHeartbeat id, r => w.mutate r (w.db.writeHeartbeat id w.clock)
  | .deleteInstanceRow id, r => w.mutate r (w.db.deleteInstanceRow id)
  | .updateInstanceCapacity removed id, r => w.mutate r (w.db.updateInstanceCapacity removed id w.clock)
  | .createMandelbox row, .ok _ =>
    { w with db := { w.db with mandelboxes := w.db.mandelboxes ++ [row] }, created := w.created ++ [row] }
  | .writeMandelboxStatus status id, r => w.mutate r (w.db.writeMandelboxStatus id status w.clock)
  | .removeMandelbox id, r => w.mutate r (w.db.removeMandelbox id)
  | _, _ => w

def meets : (op₁ op₂ : Op) → Option (Ans op₁ × Ans op₂)
  | .sendSync region₁, .receiveSync region₂ =>
    if region₁ = region₂ then some (SyncResult.done,SyncResult.done) else none
  | _, _ => none

def service : Service Op Ans World ℕ where
  answers := answers
  effect := effect
  meets := meets
  drift w t := { w with clock := w.clock + t }
  decidesAnswers := fun w pid op r => inferInstanceAs (Decidable (answers w pid op r))

end Whist.Scaling
