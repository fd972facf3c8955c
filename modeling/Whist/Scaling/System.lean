import Whist.Scaling.Assign
import Whist.Scaling.Deploy
import Whist.Scaling.HostService

/-! # The goroutines of the scaling service and of the host service

The event loop of `default/default.go` runs every action in a goroutine of its own, and
so does each host service; any number of them run interleaved at their calls.
-/
namespace Whist.Scaling

inductive Goroutine where
  | mandelboxAssign (region : String) (req : AssignRequest)
  | scaleDownIfNecessary (region : String)
  | verifyInstanceScaleDown (region : String) (drained : Instance)
  | upgradeImage (region : String) (imageID : Option String)
  | swapOverImages (region : String) (version : FrontendVersion)
  | registerInstance (host : HostMetadata)
  | spinUpMandelboxes (app instanceID : String) (instanceCapacity : ℕ)
  | monitorWaitingMandelboxes (app instanceID : String)
  | finishMandelboxSpinUp (userID mandelboxID instanceID : String)
  | closeMandelbox (mandelboxID : String)
  | writeHeartbeat (instanceID : String)
  | markDraining (instanceID : String)
  | unregisterInstance (instanceID : String)
deriving DecidableEq

def logged (action : Action Unit) : Prog Unit := do
  let _ ← action.run

def body (cfg : Settings) : Goroutine → Prog Unit
  | .mandelboxAssign region req => mandelboxAssign cfg region req
  | .scaleDownIfNecessary region => scaleDownIfNecessary cfg region
  | .verifyInstanceScaleDown region drained => verifyInstanceScaleDown cfg region drained
  | .upgradeImage region imageID => upgradeImage cfg region imageID
  | .swapOverImages region version => swapOverImages cfg region version
  | .registerInstance host => logged (registerInstance host)
  | .spinUpMandelboxes app instanceID n => spinUpMandelboxes app instanceID n
  | .monitorWaitingMandelboxes app instanceID => logged (monitorWaitingMandelboxes app instanceID)
  | .finishMandelboxSpinUp userID mandelboxID instanceID =>
    logged (finishMandelboxSpinUp userID mandelboxID instanceID)
  | .closeMandelbox mandelboxID => closeMandelbox mandelboxID
  | .writeHeartbeat instanceID => logged (writeHeartbeat instanceID)
  | .markDraining instanceID => logged (markDraining instanceID)
  | .unregisterInstance instanceID => logged (unregisterInstance instanceID)

abbrev System := Pool Goroutine Op Ans World

abbrev SystemMove := Move Goroutine Op Ans World ℕ

def System.step (cfg : Settings) : System → SystemMove → Except Stuck System :=
  Pool.step service (body cfg)

def System.initial (w : World) : System where
  world := w
  processes := []
  meetings := []

/-- The keys of the tables, and what the tables say of each other. -/
structure World.Sound (w : World) : Prop where
  instances_nodup : (w.db.instances.map Instance.id).Nodup
  mandelboxes_nodup : (w.db.mandelboxes.map Mandelbox.id).Nodup
  images_nodup : (w.db.images.map fun i => (i.provider,i.region)).Nodup
  launched_nodup : (w.launched.map Instance.id).Nodup
  created_nodup : (w.created.map Mandelbox.id).Nodup
  launched : ∀ i ∈ w.db.instances, i.id ∈ w.launched.map Instance.id
  created : ∀ m ∈ w.db.mandelboxes, m.id ∈ w.created.map Mandelbox.id

section
open Program Client
variable {σ α ε : Type} {C : Contract Op Ans σ} {s : σ} {P : Op → Prop}

@[simp] theorem wp_attempt (p : Prog (Except String α)) (Q : σ → Except String α → Prop) :
    (attempt p).run.wp C Q s ↔ p.wp C Q s := Iff.rfl

@[simp] theorem wp_attemptOr (message : String → ε) (p : Prog (Except String α)) (Q : σ → Except ε α → Prop) :
    (attemptOr message p).run.wp C Q s ↔
      p.wp C (orElse (fun s a => Q s (.ok a)) fun s e => Q s (.error (message e))) s := by
  change (p >>= _).wp C Q s ↔ _
  rw [wp_bind]
  constructor <;> intro h <;> refine wp_mono h (fun s r hr => ?_) <;> cases r <;> exact hr

theorem calls_attemptOr {message : String → ε} {p : Prog (Except String α)} (h : p.Calls P) :
    (attemptOr message p).run.Calls P := by
  refine Calls.bind h (fun r => ?_)
  cases r <;> trivial

/-! The calls of the actions that are made of calls of one kind. -/

theorem queryLatestImage_calls (hquery : ∀ provider region, P (.queryImage provider region))
    (provider region : String) : (queryLatestImage provider region).Calls P := by
  refine Calls.bind ⟨hquery _ _,fun _ => trivial⟩ (fun r => ?_)
  rcases r with e | _ | _ <;> trivial

theorem checkForExistingMandelbox_calls (hquery : ∀ userID, P (.queryUserMandelboxes userID))
    (cfg : Settings) (userID : String) : (checkForExistingMandelbox cfg userID).Calls P := by
  unfold checkForExistingMandelbox
  split_ifs
  · trivial
  · refine Calls.bind ⟨hquery _,fun _ => trivial⟩ (fun r => ?_)
    rcases r with e | _ | _ <;> trivial

theorem verifyInstanceRemoval_calls (hwait : ∀ ids, P (.waitForInstanceTermination ids))
    (hquery : ∀ id, P (.queryInstance id)) (hdelete : ∀ id, P (.deleteInstance id)) (i : Instance) :
    (verifyInstanceRemoval i).run.Calls P := by
  refine Calls.run_bind ⟨hwait _,fun _ => trivial⟩ (fun _ => ?_)
  refine Calls.run_bind (calls_attemptOr ⟨hquery _,fun _ => trivial⟩) (fun rows => ?_)
  split_ifs
  · trivial
  · exact Calls.run_bind (calls_attemptOr ⟨hdelete _,fun _ => trivial⟩) fun _ => trivial

theorem verifyRemovals_calls (hwait : ∀ ids, P (.waitForInstanceTermination ids))
    (hquery : ∀ id, P (.queryInstance id)) (hdelete : ∀ id, P (.deleteInstance id))
    (rows : List Instance) : (verifyRemovals rows).run.Calls P := by
  induction rows with
  | nil => trivial
  | cons i rest ih =>
    exact Calls.run_bind (verifyInstanceRemoval_calls hwait hquery hdelete i) fun _ => ih

theorem findLingering_calls (hnow : P .now) (rows found : List Instance) :
    (findLingering rows found).Calls P := by
  induction rows generalizing found with
  | nil => trivial
  | cons i rest ih =>
    unfold findLingering
    split_ifs
    · exact ih found
    · refine Calls.bind ⟨hnow,fun _ => trivial⟩ (fun time => ?_)
      split_ifs
      · exact ih _
      · exact ih _

theorem terminateLingering_calls (hdown : ∀ ids, P (.spinDownInstances ids)) (cfg : Settings)
    (rows : List Instance) : (terminateLingering cfg rows).run.Calls P := by
  unfold terminateLingering
  split_ifs
  · exact calls_attemptOr ⟨hdown _,fun _ => trivial⟩
  · trivial

theorem replaceProtected_calls {region : String} (hlock : P (.lockProtectedMap region))
    (hwrite : ∀ images, P (.writeProtected region images)) (hunlock : P (.unlockProtectedMap region))
    (images : ProtectedMap) : (replaceProtected region images).run.Calls P := by
  refine Calls.run_bind (Calls.run_liftM ⟨hlock,fun _ => trivial⟩) (fun _ => ?_)
  refine Calls.run_bind (Calls.run_liftM ⟨hwrite _,fun _ => trivial⟩) (fun _ => ?_)
  exact Calls.run_liftM ⟨hunlock,fun _ => trivial⟩

theorem insertFirstImage_calls (hnow : P .now) (hinsert : ∀ rows, P (.insertImages rows))
    (newImage : Image) (imageResult : List Image) :
    (insertFirstImage newImage imageResult).run.Calls P := by
  unfold insertFirstImage
  split_ifs
  · refine Calls.run_bind (Calls.run_liftM ⟨hnow,fun _ => trivial⟩) (fun time => ?_)
    exact Calls.run_bind (calls_attemptOr ⟨hinsert _,fun _ => trivial⟩) fun _ => trivial
  · trivial

theorem insertFakeMandelboxes_calls (hinsert : ∀ rows, P (.insertMandelboxes rows))
    (rows : List Mandelbox) : (insertFakeMandelboxes rows).run.Calls P := by
  unfold insertFakeMandelboxes
  split_ifs
  · trivial
  · exact Calls.run_bind (calls_attemptOr ⟨hinsert _,fun _ => trivial⟩) fun _ => trivial

theorem scaleUpIfNecessary_calls (hup : ∀ region n image, P (.spinUpInstances region n image))
    (hfake : ∀ n imageID region gitCommit, P (.spinUpFakeInstances n imageID region gitCommit))
    (hinsert : ∀ rows, P (.insertInstances rows)) (hmandelboxes : ∀ rows, P (.insertMandelboxes rows))
    (cfg : Settings) (n : ℤ) (region : String) (image : Image) :
    (scaleUpIfNecessary cfg n region image).run.Calls P := by
  refine Calls.run_bind ?_ (fun launched => ?_)
  · unfold launchInstances
    split_ifs
    · exact Calls.run_liftM ⟨hfake _ _ _ _,fun _ => trivial⟩
    · refine Calls.run_bind (calls_attemptOr ⟨hup _ _ _,fun _ => trivial⟩) (fun rows => ?_)
      split_ifs <;> trivial
  · exact Calls.run_bind (calls_attemptOr ⟨hinsert _,fun _ => trivial⟩) fun _ =>
      insertFakeMandelboxes_calls hmandelboxes _

theorem verifyCapacity_calls {region : String} (himage : P (.queryImage "AWS" region))
    (hstatus : ∀ status, P (.queryInstancesByStatusOnRegion status region))
    (hup : ∀ region n image, P (.spinUpInstances region n image))
    (hfake : ∀ n imageID region gitCommit, P (.spinUpFakeInstances n imageID region gitCommit))
    (hinsert : ∀ rows, P (.insertInstances rows)) (hmandelboxes : ∀ rows, P (.insertMandelboxes rows))
    (cfg : Settings) : (verifyCapacity cfg region).run.Calls P := by
  have hlatest : (queryLatestImage "AWS" region).Calls P := by
    refine Calls.bind ⟨himage,fun _ => trivial⟩ (fun r => ?_)
    rcases r with e | _ | _ <;> trivial
  refine Calls.run_bind hlatest (fun image => ?_)
  refine Calls.run_bind (calls_attemptOr ⟨hstatus _,fun _ => trivial⟩) (fun active => ?_)
  refine Calls.run_bind (calls_attemptOr ⟨hstatus _,fun _ => trivial⟩) (fun starting => ?_)
  dsimp only
  split_ifs
  · exact scaleUpIfNecessary_calls hup hfake hinsert hmandelboxes _ _ _ _
  · trivial

theorem awaitSwap_calls {region : String} (hsend : P (.sendSync region))
    (hlock : P (.lockProtectedMap region)) (hwrite : ∀ images, P (.writeProtected region images))
    (hunlock : P (.unlockProtectedMap region)) : (awaitSwap region).run.Calls P := by
  refine Calls.run_bind (Calls.run_liftM ⟨hsend,fun _ => trivial⟩) (fun result => ?_)
  cases result with
  | done => trivial
  | timedOut =>
    exact Calls.run_bind (replaceProtected_calls hlock hwrite hunlock _) fun _ => trivial

end

end Whist.Scaling
