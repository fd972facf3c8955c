import Whist.Scaling.Tables

/-! # Replies without a failure -/
namespace Whist.Scaling

def freshID (used : List String) (k : ℕ) : String :=
  String.ofList (List.replicate ((used.map String.length).sum + 1 + k) 'i')

def freshIDs (used : List String) (n : ℕ) : List String := (List.range n).map (freshID used)

theorem freshID_injective (used : List String) : Function.Injective (freshID used) := by
  intro j k h
  have hlength := congrArg String.length h
  simp only [freshID, String.length_ofList, List.length_replicate] at hlength
  omega

theorem freshID_notMem (used : List String) (k : ℕ) : freshID used k ∉ used := by
  intro hused
  have hmem : (freshID used k).length ∈ used.map String.length := List.mem_map_of_mem hused
  have hle := List.single_le_sum (fun _ _ => Nat.zero_le _) _ hmem
  simp only [freshID, String.length_ofList, List.length_replicate] at hle
  omega

theorem freshIDs_nodup (used : List String) (n : ℕ) : (freshIDs used n).Nodup :=
  List.nodup_range.map (freshID_injective used)

theorem notMem_freshIDs {used : List String} {n : ℕ} {id : String} (h : id ∈ freshIDs used n) :
    id ∉ used := by
  obtain ⟨k,-,rfl⟩ := List.mem_map.mp h
  exact freshID_notMem used k

theorem length_freshIDs (used : List String) (n : ℕ) : (freshIDs used n).length = n := by
  simp [freshIDs]

namespace World

theorem freshInstances_freshIDs (w : World) (n : ℕ) :
    w.FreshInstances (freshIDs (w.launched.map Instance.id) n) :=
  ⟨freshIDs_nodup _ n,fun _ hid _ hi he => notMem_freshIDs hid (he ▸ List.mem_map_of_mem hi)⟩

theorem freshMandelboxes_freshIDs (w : World) (n : ℕ) :
    w.FreshMandelboxes (freshIDs (w.created.map Mandelbox.id) n) :=
  ⟨freshIDs_nodup _ n,fun _ hid _ hm he => notMem_freshIDs hid (he ▸ List.mem_map_of_mem hm)⟩

def fakeInstance (imageID region gitCommit id : String) : Instance where
  id := id
  provider := "AWS"
  region := region
  imageID := imageID
  clientSHA := gitCommit
  ipAddress := "192.168.0.1/24"
  instanceType := assumedInstanceType
  remainingCapacity := 2
  status := .active
  createdAt := 0
  updatedAt := 0

def fakeMandelbox (id instanceID : String) : Mandelbox where
  id := id
  app := "WHISTIUM"
  instanceID := instanceID
  userID := ""
  sessionID := ""
  status := .waiting
  createdAt := 0
  updatedAt := 0

def fakeRows (w : World) (n : ℕ) (imageID region gitCommit : String) : List Instance × List Mandelbox :=
  let rows := (freshIDs (w.launched.map Instance.id) n).map (fakeInstance imageID region gitCommit)
  let located := rows.flatMap fun i => List.replicate 2 i.id
  (rows,located.mapIdx fun k instanceID => fakeMandelbox (freshID (w.created.map Mandelbox.id) k) instanceID)

def insertable (P : Prop) [Decidable P] (n : ℕ) : Except String ℕ :=
  if P then .ok n else .error "violates a constraint of the table"

def reply (w : World) : (op : Op) → Ans op
  | .queryInstance id => .ok (w.db.queryInstance id)
  | .queryInstanceWithCapacity region =>
    .ok ((w.db.queryInstanceWithCapacity region).insertionSort fun i j =>
      i.remainingCapacity ≤ j.remainingCapacity)
  | .queryInstancesByStatusOnRegion status region => .ok (w.db.queryInstancesByStatusOnRegion status region)
  | .insertInstances rows => insertable (w.FreshInstances (rows.map Instance.id)) rows.length
  | .updateInstance row => .ok (affectedInstances w.db row.id)
  | .deleteInstance id => .ok (affectedInstances w.db id)
  | .queryImage provider region =>
    .ok ((w.db.queryImage provider region).insertionSort fun i j => j.updatedAt ≤ i.updatedAt)
  | .insertImages rows =>
    insertable ((rows.map fun i => (i.provider,i.region)).Nodup ∧
      ∀ i ∈ rows, w.db.queryImage i.provider i.region = []) rows.length
  | .updateImage image => .ok (w.db.queryImage image.provider image.region).length
  | .queryMandelbox instanceID status => .ok (w.db.queryMandelbox instanceID status)
  | .queryUserMandelboxes userID => .ok (w.db.queryUserMandelboxes userID)
  | .insertMandelboxes rows =>
    insertable (w.FreshMandelboxes (rows.map Mandelbox.id) ∧
      ∀ m ∈ rows, w.db.queryInstance m.instanceID ≠ []) rows.length
  | .updateMandelbox row => .ok (affectedMandelboxes w.db row.id)
  | .spinUpInstances region numInstances image =>
    if 1 ≤ numInstances then
      .ok ((freshIDs (w.launched.map Instance.id) numInstances.toNat).map (launchedInstance region image))
    else .error "the number of instances must be positive"
  | .spinDownInstances _ => .ok ()
  | .waitForInstanceTermination _ => .ok ()
  | .spinUpFakeInstances instanceNum imageID region gitCommit =>
    w.fakeRows instanceNum.toNat imageID region gitCommit
  | .now => w.clock
  | .returnResult _ => ()
  | .lockProtectedMap _ => ()
  | .unlockProtectedMap _ => ()
  | .readProtected region => w.protectedFromScaleDown region
  | .writeProtected _ _ => ()
  | .sendSync _ => .timedOut
  | .receiveSync _ => .timedOut
  | .registerInstance row => .ok (affectedInstances w.db row.id)
  | .writeInstanceStatus _ id => .ok (affectedInstances w.db id)
  | .writeHeartbeat id => .ok (affectedInstances w.db id)
  | .deleteInstanceRow id =>
    insertable (∀ m ∈ w.db.mandelboxes, m.instanceID ≠ id) (affectedInstances w.db id)
  | .updateInstanceCapacity _ id => .ok (affectedInstances w.db id)
  | .createMandelbox row =>
    insertable (w.FreshMandelboxes [row.id] ∧ w.db.queryInstance row.instanceID ≠ []) 1
  | .findMandelboxByID id => .ok (w.db.findMandelboxByID id)
  | .writeMandelboxStatus _ id => .ok (affectedMandelboxes w.db id)
  | .removeMandelbox id => .ok (affectedMandelboxes w.db id)
  | .newUUID => freshID (w.created.map Mandelbox.id) 0
  | .getMandelboxCount instanceID => (w.db.mandelboxes.countP fun m => m.instanceID = instanceID : ℕ)
  | .startMandelboxSpinUp _ => .ok ()
  | .connectMandelbox _ => .ok ()

theorem unless_insertable {P : Prop} [Decidable P] (n : ℕ) :
    Unless (fun r => r = n ∧ P) (insertable P n) := by
  unfold insertable
  split_ifs with h
  · exact ⟨rfl,h⟩
  · trivial

end World

theorem World.reply_answers (w : World) (pid : ℕ) (op : Op)
    (hlock : ∀ region, op = .lockProtectedMap region → w.protectedMapLock region = none)
    (hunlock : ∀ region, op = .unlockProtectedMap region → w.protectedMapLock region = some pid) :
    answers w pid op (w.reply op) := by
  cases op with
  | queryInstanceWithCapacity region =>
    have : Std.Total (fun i j : Instance => i.remainingCapacity ≤ j.remainingCapacity) :=
      ⟨fun i j => le_total _ _⟩
    have : IsTrans Instance (fun i j : Instance => i.remainingCapacity ≤ j.remainingCapacity) :=
      ⟨fun _ _ _ => le_trans⟩
    exact ⟨List.perm_insertionSort _ _,List.pairwise_insertionSort _ _⟩
  | queryImage provider region =>
    have : Std.Total (fun i j : Image => j.updatedAt ≤ i.updatedAt) := ⟨fun i j => le_total _ _⟩
    have : IsTrans Image (fun i j : Image => j.updatedAt ≤ i.updatedAt) :=
      ⟨fun _ _ _ h h' => le_trans h' h⟩
    exact ⟨List.perm_insertionSort _ _,List.pairwise_insertionSort _ _⟩
  | insertInstances rows => exact unless_insertable _
  | insertImages rows => exact unless_insertable _
  | insertMandelboxes rows => exact unless_insertable _
  | createMandelbox row => exact unless_insertable _
  | deleteInstanceRow id => exact unless_insertable _
  | spinUpInstances region n image =>
    dsimp only [answers, reply]
    split_ifs with hn
    · refine ⟨hn,?_,?_,?_⟩
      · rw [List.length_map, length_freshIDs]
        omega
      · rw [List.map_map]
        exact (List.map_id _).symm ▸ w.freshInstances_freshIDs n.toNat
      · intro i hi
        obtain ⟨id,-,rfl⟩ := List.mem_map.mp hi
        rfl
    · trivial
  | spinUpFakeInstances n imageID region gitCommit =>
    have hids : (w.fakeRows n.toNat imageID region gitCommit).1.map Instance.id =
        freshIDs (w.launched.map Instance.id) n.toNat := by
      rw [fakeRows, List.map_map]
      exact List.map_id _
    refine ⟨?_,?_,?_,?_,?_⟩
    · simp [reply, fakeRows, length_freshIDs]
    · exact hids ▸ w.freshInstances_freshIDs n.toNat
    · intro i hi
      obtain ⟨id,-,rfl⟩ := List.mem_map.mp hi
      rfl
    · dsimp only [reply, fakeRows]
      rw [List.flatMap_map, List.flatMap_map]
      exact List.ext_getElem (by simp [fakeInstance]) (fun k _ _ => by simp [fakeMandelbox, fakeInstance])
    · intro m hm
      obtain ⟨k,hk,rfl⟩ := List.mem_mapIdx.mp hm
      rfl
  | lockProtectedMap region => exact hlock region rfl
  | unlockProtectedMap region => exact hunlock region rfl
  | newUUID => exact w.freshMandelboxes_freshIDs 1
  | _ => first | rfl | trivial | exact List.Perm.refl _

def oneRegion : Settings where
  environment := .prod
  runningInCI := false
  gitCommit := "commit"
  enabledRegions := ["us-east-1"]
  mandelboxLimitPerUser := 1
  frontendVersion := "2.0.0"
  targetFreeMandelboxes := fun _ => 0
  compareVersions := fun _ _ => some false
  parseCIDR := fun address =>
    if address = "10.0.0.1/24" then .ok "10.0.0.1" else .error "invalid CIDR address"

def oneImage : Image where
  provider := "AWS"
  region := "us-east-1"
  imageID := "ami-1"
  clientSHA := "commit"
  updatedAt := 0

def oneInstance : Instance where
  id := "instance-1"
  provider := "AWS"
  region := "us-east-1"
  imageID := "ami-1"
  clientSHA := "commit"
  ipAddress := "10.0.0.1/24"
  instanceType := assumedInstanceType
  remainingCapacity := 2
  status := .active
  createdAt := 0
  updatedAt := 0

def oneWorld : World where
  db :=
    { instances := [oneInstance]
      mandelboxes :=
        [waitingMandelbox "mandelbox-1" "WHISTIUM" "instance-1" 0,
          waitingMandelbox "mandelbox-2" "WHISTIUM" "instance-1" 0]
      images := [oneImage] }
  launched := [oneInstance]
  created :=
    [waitingMandelbox "mandelbox-1" "WHISTIUM" "instance-1" 0,
      waitingMandelbox "mandelbox-2" "WHISTIUM" "instance-1" 0]
  clock := 0
  protectedFromScaleDown := fun _ => []
  protectedMapLock := fun _ => none

def oneRequest (userID : String) : AssignRequest where
  regions := ["us-east-1"]
  commitHash := "commit"
  userEmail := "user@whist.com"
  version := "2.0.0"
  sessionID := 1
  userID := userID

theorem oneWorld_sound : oneWorld.Sound where
  instances_nodup := by decide
  mandelboxes_nodup := by decide
  images_nodup := by decide
  launched_nodup := by decide
  created_nodup := by decide
  launched := by decide
  created := by decide

def acts (pid n : ℕ) : List SystemMove := List.replicate n (.act pid World.reply)

end Whist.Scaling
