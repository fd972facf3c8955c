import Mathlib.Tactic

/-! # The rows of the whist database

The types of `subscriptions/types.go` and the tables they are read from.  A null
`user_id` or `session_id` is read as the empty string.
-/
namespace Whist.Scaling

inductive InstanceStatus where
  | preConnection
  | active
  | draining
deriving DecidableEq, Repr

inductive MandelboxStatus where
  | waiting
  | allocated
  | connecting
  | running
  | dying
deriving DecidableEq, Repr

structure Instance where
  id : String
  provider : String
  region : String
  imageID : String
  clientSHA : String
  ipAddress : String
  instanceType : String
  remainingCapacity : ℤ
  status : InstanceStatus
  createdAt : ℕ
  updatedAt : ℕ
deriving DecidableEq, Repr

structure Mandelbox where
  id : String
  app : String
  instanceID : String
  userID : String
  sessionID : String
  status : MandelboxStatus
  createdAt : ℕ
  updatedAt : ℕ
deriving DecidableEq, Repr

structure Image where
  provider : String
  region : String
  imageID : String
  clientSHA : String
  updatedAt : ℕ
deriving DecidableEq, Repr

structure FrontendVersion where
  devCommitHash : String
  stagingCommitHash : String
  prodCommitHash : String
deriving DecidableEq, Repr

structure Database where
  instances : List Instance
  mandelboxes : List Mandelbox
  images : List Image
deriving DecidableEq, Repr

namespace Database

def queryInstance (db : Database) (id : String) : List Instance :=
  db.instances.filter fun i => i.id = id

def queryInstanceWithCapacity (db : Database) (region : String) : List Instance :=
  db.instances.filter fun i => i.region = region ∧ i.status = .active ∧ 0 < i.remainingCapacity

def queryInstancesByStatusOnRegion (db : Database) (status : InstanceStatus) (region : String) :
    List Instance :=
  db.instances.filter fun i => i.status = status ∧ i.region = region

def queryImage (db : Database) (provider region : String) : List Image :=
  db.images.filter fun i => i.provider = provider ∧ i.region = region

def queryMandelbox (db : Database) (instanceID : String) (status : MandelboxStatus) : List Mandelbox :=
  db.mandelboxes.filter fun m => m.instanceID = instanceID ∧ m.status = status

def queryUserMandelboxes (db : Database) (userID : String) : List Mandelbox :=
  db.mandelboxes.filter fun m => m.userID = userID

def findMandelboxByID (db : Database) (id : String) : List Mandelbox :=
  db.mandelboxes.filter fun m => m.id = id

def setInstances (db : Database) (id : String) (f : Instance → Instance) : Database :=
  { db with instances := db.instances.map fun i => if i.id = id then f i else i }

def setMandelboxes (db : Database) (id : String) (f : Mandelbox → Mandelbox) : Database :=
  { db with mandelboxes := db.mandelboxes.map fun m => if m.id = id then f m else m }

/-- The trigger on the table sets `updated_at` to the time of the mutation. -/
def updateInstance (db : Database) (row : Instance) (time : ℕ) : Database :=
  db.setInstances row.id fun _ => { row with updatedAt := time }

def deleteInstance (db : Database) (id : String) : Database :=
  { db with
    instances := db.instances.filter fun i => i.id ≠ id
    mandelboxes := db.mandelboxes.filter fun m => m.instanceID ≠ id }

def updateImage (db : Database) (image : Image) (time : ℕ) : Database :=
  { db with
    images := db.images.map fun i =>
      if i.provider = image.provider ∧ i.region = image.region then { image with updatedAt := time }
      else i }

def updateMandelbox (db : Database) (row : Mandelbox) : Database :=
  db.setMandelboxes row.id fun _ => row

def writeMandelboxStatus (db : Database) (id : String) (status : MandelboxStatus) (time : ℕ) : Database :=
  db.setMandelboxes id fun m => { m with status := status, updatedAt := time }

def removeMandelbox (db : Database) (id : String) : Database :=
  { db with mandelboxes := db.mandelboxes.filter fun m => m.id ≠ id }

def updateInstanceCapacity (db : Database) (removed : ℤ) (id : String) (time : ℕ) : Database :=
  db.setInstances id fun i => { i with remainingCapacity := i.remainingCapacity + removed, updatedAt := time }

def writeInstanceStatus (db : Database) (status : InstanceStatus) (id : String) (time : ℕ) : Database :=
  db.setInstances id fun i => { i with status := status, updatedAt := time }

def writeHeartbeat (db : Database) (id : String) (time : ℕ) : Database :=
  db.setInstances id fun i => { i with updatedAt := time }

def deleteInstanceRow (db : Database) (id : String) : Database :=
  { db with instances := db.instances.filter fun i => i.id ≠ id }

end Database

end Whist.Scaling
