import Whist.Scaling.Deploy
import Whist.Scaling.Replies

/-! # Launching instances on the cloud provider

`SpinUpInstances` of `hosts/aws/aws_host.go`, and what becomes of the instances that the
cloud creates for `ScaleUpIfNecessary` and for `UpgradeImage`.
-/
namespace Whist.Scaling
open Program Client

structure CloudInstance where
  instanceID : String
  imageID : String
  instanceType : String
deriving DecidableEq, Repr

/-- The calls of the host handler to the cloud, and those of the actions that are left as
they are. -/
inductive CloudOp where
  | service (op : Op)
  | runInstances (minCount maxCount : ℤ) (imageID : String)
  | waitForInstanceReady (ids : List String)
  | generateName (region : String)
  | createTags (id name : String)

abbrev CloudAns : CloudOp → Type
  | .service op => Ans op
  | .runInstances _ _ _ => Except String (List CloudInstance)
  | .waitForInstanceReady _ => Except String Unit
  | .generateName _ => String
  | .createTags _ _ => Except String Unit

abbrev CloudProg := Program CloudOp CloudAns

abbrev CloudAction := ExceptT String CloudProg

abbrev CloudEvent := Event CloudOp CloudAns

def minInstanceCount : ℤ := 1

def waitTimeBeforeRetryInSeconds : ℕ := 15

def maxWaitTimeInSeconds : ℕ := 200

def maxRetryAttempts : ℕ := maxWaitTimeInSeconds / waitTimeBeforeRetryInSeconds

def makeInstances (numInstances : ℤ) (imageID : String) : ℕ → String → CloudAction (List CloudInstance)
  | 0, err => throw err
  | attempts + 1, _ => do
    let result ← liftM (perform (CloudOp.runInstances minInstanceCount numInstances imageID) :
      CloudProg (Except String (List CloudInstance)))
    match result with
    | .ok instances => pure instances
    | .error err => makeInstances numInstances imageID attempts err

def waitForInstanceReady (ids : List String) : CloudAction Unit := do
  let result ← liftM (perform (CloudOp.waitForInstanceReady ids) : CloudProg (Except String Unit))
  match result with
  | .ok _ => pure ()
  | .error e => throw s!"failed waiting for instances to be ready: {e}"

def outputRow (region : String) (image : Image) (outputInstance : CloudInstance) : Instance where
  id := outputInstance.instanceID
  provider := "AWS"
  region := region
  imageID := outputInstance.imageID
  clientSHA := image.clientSHA
  ipAddress := "0.0.0.0"
  instanceType := outputInstance.instanceType
  remainingCapacity := 0
  status := .preConnection
  createdAt := 0
  updatedAt := 0

def makeTags (region : String) (image : Image) :
    List CloudInstance → List Instance → CloudAction (List Instance)
  | [], outputInstances => pure outputInstances
  | outputInstance :: rest, outputInstances => do
    let name ← liftM (perform (CloudOp.generateName region) : CloudProg String)
    let result ← liftM (perform (CloudOp.createTags outputInstance.instanceID name) :
      CloudProg (Except String Unit))
    match result with
    | .ok _ => makeTags region image rest (outputInstances ++ [outputRow region image outputInstance])
    | .error e => throw s!"error taging instance: {e}"

/-- An error comes without instances for the callers, which look at the error first. -/
def awsSpinUpInstances (region : String) (numInstances : ℤ) (image : Image) :
    CloudAction (List Instance) := do
  let result ← makeInstances numInstances image.imageID maxRetryAttempts ""
  let ready ← liftM (waitForInstanceReady (result.map CloudInstance.instanceID)).run
  match ready with
  | .error e => throw s!"failed to wait for new instances to be ready: {e}"
  | .ok _ => do
    let outputInstances ← makeTags region image result []
    if (outputInstances.length : ℤ) ≠ numInstances then
      throw s!"failed to start requested number of instances, only marked as ready {result.length}"
    else pure outputInstances

def awsHost : (op : Op) → CloudProg (Ans op)
  | .spinUpInstances region numInstances image => (awsSpinUpInstances region numInstances image).run
  | op => perform (CloudOp.service op)

/-- What the calls say of the instances: the ones the cloud created, the ones that got a row,
the ones that were terminated, and whether a step after the creation failed. -/
structure Ledger where
  created : List String
  inserted : List String
  terminated : List String
  failed : Bool
deriving DecidableEq, Repr

namespace Ledger

def empty : Ledger := ⟨[],[],[],false⟩

def record (s : Ledger) : CloudEvent → Ledger
  | ⟨.runInstances _ _ _,.ok instances⟩ =>
    { s with created := s.created ++ instances.map CloudInstance.instanceID }
  | ⟨.waitForInstanceReady _,.error _⟩ => { s with failed := true }
  | ⟨.createTags _ _,.error _⟩ => { s with failed := true }
  | ⟨.service (.insertInstances rows),.ok _⟩ =>
    { s with inserted := s.inserted ++ rows.map Instance.id }
  | ⟨.service (.insertInstances _),.error _⟩ => { s with failed := true }
  | ⟨.service (.spinDownInstances ids),.ok _⟩ => { s with terminated := s.terminated ++ ids }
  | _ => s

/-- Every created instance has a row or was terminated. -/
def NoLeak (s : Ledger) : Prop := ∀ id ∈ s.created, id ∈ s.inserted ∨ id ∈ s.terminated

instance (s : Ledger) : Decidable s.NoLeak := List.decidableBAll _ _

end Ledger

inductive LaunchAction where
  | scaleUp (instancesToScale : ℤ) (region : String) (image : Image)
  | upgrade (region imageID : String)

namespace LaunchAction

def body (cfg : Settings) : LaunchAction → Action Unit
  | .scaleUp instancesToScale region image => scaleUpIfNecessary cfg instancesToScale region image
  | .upgrade region imageID => upgradeImageBody cfg region imageID

/-- The number of created instances is what the action asked for: both callers ask for an
`int32`, and a scale up compares the instances with the number before the conversion. -/
def Fulfilled (cfg : Settings) (created : ℤ) : LaunchAction → Prop
  | .scaleUp instancesToScale _ _ => created = int32 instancesToScale ∧ created = instancesToScale
  | .upgrade region _ =>
    created = int32 (computeInstancesToScale (cfg.targetFreeMandelboxes region) 0
      (instanceCapacity assumedInstanceType))

def ledger (cfg : Settings) (a : LaunchAction)
    (reply : List CloudEvent → (op : CloudOp) → CloudAns op) : Ledger :=
  (((expand awsHost (a.body cfg).run).execute reply []).1).foldl Ledger.record Ledger.empty

end LaunchAction

variable {σ α ε : Type} {C : Contract CloudOp CloudAns σ} {s : σ}

@[simp] theorem wp_expand_attemptOr (f : (op : Op) → CloudProg (Ans op)) (message : String → ε)
    (p : Prog (Except String α)) (Q : σ → Except ε α → Prop) :
    (expand f (attemptOr message p).run).wp C Q s ↔
      (expand f p).wp C (orElse (fun s a => Q s (.ok a)) fun s e => Q s (.error (message e))) s := by
  change (expand f (p >>= _)).wp C Q s ↔ _
  rw [wp_expand_bind]
  constructor <;> intro h <;> refine wp_mono h (fun s r hr => ?_) <;> cases r <;> exact hr

def Ledger.Ignored : Op → Prop
  | .spinUpInstances _ _ _ | .insertInstances _ | .spinDownInstances _ => False
  | _ => True

abbrev bookkeepingOfLaunches : Contract CloudOp CloudAns Ledger := tracking Ledger.record

theorem awsHost_of_ignored {op : Op} (h : Ledger.Ignored op) (s : Ledger) :
    (awsHost op).wp bookkeepingOfLaunches (fun s' _ => s' = s) s := by
  cases op <;> first | exact ⟨trivial,fun r _ => rfl⟩ | exact h.elim

theorem expand_of_ignored {p : Prog α} (h : p.Calls Ledger.Ignored) (s : Ledger) :
    (expand awsHost p).wp bookkeepingOfLaunches (fun s' _ => s' = s) s :=
  h.wp_expand fun _ hop => awsHost_of_ignored hop s

theorem makeInstances_wp (n : ℤ) (imageID : String) (attempts : ℕ) (err : String) :
    (makeInstances n imageID attempts err).run.wp bookkeepingOfLaunches
      (orElse (fun s r => s = { Ledger.empty with created := r.map CloudInstance.instanceID })
        fun s _ => s = Ledger.empty) Ledger.empty := by
  induction attempts generalizing err with
  | zero => rfl
  | succ attempts ih =>
    simp only [makeInstances, wp_run_bind, wp_run_liftM, wp_perform]
    refine ⟨trivial,fun r _ => ?_⟩
    cases r with
    | ok instances => rfl
    | error e => exact wp_mono (ih e) (orElse_mono (fun _ _ h => h) fun _ _ h => h)

theorem waitForInstanceReady_wp (ids : List String) (s : Ledger) :
    (waitForInstanceReady ids).run.wp bookkeepingOfLaunches
      (orElse (fun s' _ => s' = s) fun s' _ => s' = { s with failed := true }) s := by
  simp only [waitForInstanceReady, wp_run_bind, wp_run_liftM, wp_perform]
  refine ⟨trivial,fun r _ => ?_⟩
  cases r <;> rfl

theorem makeTags_wp (region : String) (image : Image) (rest : List CloudInstance)
    (rows : List Instance) (s : Ledger) :
    (makeTags region image rest rows).run.wp bookkeepingOfLaunches
      (orElse (fun s' r => s' = s ∧
          r.map Instance.id = rows.map Instance.id ++ rest.map CloudInstance.instanceID)
        fun s' _ => s' = { s with failed := true }) s := by
  induction rest generalizing rows with
  | nil => exact ⟨rfl,by simp⟩
  | cons i rest ih =>
    simp only [makeTags, wp_run_bind, wp_run_liftM, wp_perform]
    refine ⟨trivial,fun name _ => ⟨trivial,fun r _ => ?_⟩⟩
    cases r with
    | error e => rfl
    | ok r =>
      refine wp_mono (ih (rows ++ [outputRow region image i])) (orElse_mono ?_ fun _ _ h => h)
      rintro s' r ⟨hs,hr⟩
      refine ⟨hs,?_⟩
      rw [hr]
      simp [outputRow]

namespace Ledger
variable {fulfilled : ℤ → Prop}

structure Launched (fulfilled : ℤ → Prop) (s : Ledger) (rows : List Instance) : Prop where
  inserted : s.inserted = []
  terminated : s.terminated = []
  failed : s.failed = false
  created : s.created = [] ∨ s.created = rows.map Instance.id ∧ fulfilled s.created.length

structure GaveUp (fulfilled : ℤ → Prop) (s : Ledger) : Prop where
  inserted : s.inserted = []
  terminated : s.terminated = []
  created : s.created = [] ∨ ¬(fulfilled s.created.length ∧ s.failed = false)

def Settled (fulfilled : ℤ → Prop) (s : Ledger) : Prop :=
  s.NoLeak ↔ s.created = [] ∨ fulfilled s.created.length ∧ s.failed = false

theorem GaveUp.settled {s : Ledger} (h : GaveUp fulfilled s) : s.Settled fulfilled := by
  have hleak : s.NoLeak ↔ s.created = [] := by
    simp only [NoLeak, h.inserted, h.terminated, List.not_mem_nil, or_self]
    exact List.eq_nil_iff_forall_not_mem.symm
  rcases h.created with hc | hc
  · simp [Settled, hleak, hc]
  · rw [Settled, hleak, or_iff_left hc]

theorem Launched.settled {s : Ledger} {rows : List Instance} (h : s.Launched fulfilled rows) :
    Ledger.Settled fulfilled { s with inserted := s.inserted ++ rows.map Instance.id } := by
  refine ⟨fun _ => h.created.imp id fun hc => ⟨hc.2,h.failed⟩,fun _ id hid => Or.inl ?_⟩
  rcases h.created with hc | hc
  · rw [hc] at hid
    exact absurd hid List.not_mem_nil
  · exact List.mem_append_right _ (hc.1 ▸ hid)

theorem Launched.gaveUp {s : Ledger} {rows : List Instance} (h : s.Launched fulfilled rows) :
    Ledger.GaveUp fulfilled { s with failed := true } :=
  ⟨h.inserted,h.terminated,Or.inr fun hc => Bool.noConfusion hc.2⟩

end Ledger
open Ledger

theorem awsSpinUpInstances_wp (region : String) (n : ℤ) (image : Image) :
    (awsSpinUpInstances region n image).run.wp bookkeepingOfLaunches
      (orElse (fun s rows => s = { Ledger.empty with created := rows.map Instance.id } ∧
          (rows.length : ℤ) = n)
        fun s _ => s.GaveUp fun created => created = n) Ledger.empty := by
  simp only [awsSpinUpInstances, wp_run_bind]
  refine wp_mono (makeInstances_wp n image.imageID _ _) (orElse_mono ?_ ?_)
  · rintro s result rfl
    rw [wp_run_liftM]
    refine wp_mono (waitForInstanceReady_wp _ _) (fun s ready hready => ?_)
    cases ready with
    | error e =>
      obtain rfl := hready
      exact ⟨rfl,rfl,Or.inr fun h => Bool.noConfusion h.2⟩
    | ok ready =>
      obtain rfl := hready
      rw [orElse_ok]
      dsimp only
      rw [wp_run_bind]
      refine wp_mono (makeTags_wp region image result [] _) (orElse_mono ?_ ?_)
      · rintro s rows ⟨rfl,hrows⟩
        have hlen : rows.length = result.length := by
          simpa using congrArg List.length hrows
        split_ifs with h
        · refine ⟨rfl,rfl,Or.inr fun hc => h ?_⟩
          rw [hlen, ← hc.1]
          simp
        · rw [not_not] at h
          refine ⟨?_,h⟩
          rw [hrows]
          rfl
      · rintro s e rfl
        exact ⟨rfl,rfl,Or.inr fun h => Bool.noConfusion h.2⟩
  · rintro s e rfl
    exact ⟨rfl,rfl,Or.inl rfl⟩

variable {cfg : Settings}

theorem withCapacity_ids (rows : List Instance) :
    (withCapacity rows).map Instance.id = rows.map Instance.id := by
  simp [withCapacity, Function.comp_def]

theorem launchInstances_ledger (n : ℤ) (region : String) (image : Image) :
    (expand awsHost (launchInstances cfg n region image).run).wp bookkeepingOfLaunches
      (orElse (fun s launched => s.Launched ((LaunchAction.scaleUp n region image).Fulfilled cfg) launched.1)
        fun s _ => s.GaveUp ((LaunchAction.scaleUp n region image).Fulfilled cfg)) Ledger.empty := by
  unfold launchInstances
  split_ifs
  · rw [wp_expand_run_liftM]
    refine wp_mono (expand_of_ignored (p := spinUpFakeInstances _ _ _ _) ⟨trivial,fun _ => trivial⟩ _) ?_
    rintro s r rfl
    exact ⟨rfl,rfl,rfl,Or.inl rfl⟩
  · simp only [wp_expand_run_bind, wp_expand_attemptOr, spinUpInstances, wp_expand_perform]
    refine wp_mono (awsSpinUpInstances_wp region (int32 n) image) (orElse_mono ?_ ?_)
    · rintro s rows ⟨rfl,hlen⟩
      rw [orElse_ok]
      split_ifs with h
      · refine ⟨rfl,rfl,Or.inr fun hc => h ?_⟩
        simpa using hc.1.2
      · rw [not_not] at h
        refine ⟨rfl,rfl,rfl,Or.inr ⟨(withCapacity_ids rows).symm,?_,?_⟩⟩
        · simpa using hlen
        · simpa using h
    · intro s e hs
      exact ⟨hs.inserted,hs.terminated,hs.created.imp id fun h hc => h ⟨hc.1.1,hc.2⟩⟩

theorem launchBuffer_ledger (region imageID : String) (newImage : Image) :
    (expand awsHost (launchBuffer cfg region newImage).run).wp bookkeepingOfLaunches
      (orElse (fun s launched => s.Launched ((LaunchAction.upgrade region imageID).Fulfilled cfg) launched.1)
        fun s _ => s.GaveUp ((LaunchAction.upgrade region imageID).Fulfilled cfg)) Ledger.empty := by
  unfold launchBuffer
  split_ifs
  · rw [wp_expand_run_liftM]
    refine wp_mono (expand_of_ignored (p := spinUpFakeInstances _ _ _ _) ⟨trivial,fun _ => trivial⟩ _) ?_
    rintro s r rfl
    exact ⟨rfl,rfl,rfl,Or.inl rfl⟩
  · simp only [wp_expand_run_bind, wp_expand_attemptOr, spinUpInstances, wp_expand_perform]
    refine wp_mono (awsSpinUpInstances_wp region _ newImage) (orElse_mono ?_ fun s e hs => hs)
    rintro s rows ⟨rfl,hlen⟩
    refine ⟨rfl,rfl,rfl,Or.inr ⟨(withCapacity_ids rows).symm,?_⟩⟩
    simpa [LaunchAction.Fulfilled] using hlen

theorem insertLaunched_wp {fulfilled : ℤ → Prop} {s : Ledger} {rows : List Instance}
    (h : s.Launched fulfilled rows) (message : String → String) {rest : ℕ → Action Unit}
    (hrest : ∀ n, (rest n).run.Calls Ignored) :
    (expand awsHost (attemptOr message (insertInstances rows) >>= rest).run).wp bookkeepingOfLaunches
      (fun s' _ => s'.Settled fulfilled) s := by
  simp only [wp_expand_run_bind, wp_expand_attemptOr, insertInstances, wp_expand_perform]
  refine ⟨trivial,fun r _ => ?_⟩
  cases r with
  | error e => exact h.gaveUp.settled
  | ok n =>
    change (expand awsHost (rest n).run).wp _ _ _
    refine wp_mono (expand_of_ignored (hrest n) _) ?_
    rintro s' r rfl
    exact h.settled

theorem scaleUpIfNecessary_ledger (n : ℤ) (region : String) (image : Image) :
    (expand awsHost (scaleUpIfNecessary cfg n region image).run).wp bookkeepingOfLaunches
      (fun s _ => s.Settled ((LaunchAction.scaleUp n region image).Fulfilled cfg)) Ledger.empty := by
  unfold scaleUpIfNecessary
  rw [wp_expand_run_bind]
  refine wp_mono (launchInstances_ledger n region image) (orElse_mono ?_ fun s e hs => hs.settled)
  intro s launched hs
  exact insertLaunched_wp hs _ fun _ => insertFakeMandelboxes_calls (fun _ => trivial) _

theorem deployLaunched_calls (region : String) (newImage : Image) (imageResult : List Image)
    (rows : List Mandelbox) :
    (do
      replaceProtected region [(newImage.imageID,newImage)]
      insertFirstImage newImage imageResult
      insertFakeMandelboxes rows
      awaitSwap region : Action Unit).run.Calls Ignored := by
  refine Calls.run_bind (replaceProtected_calls trivial (fun _ => trivial) trivial _) (fun _ => ?_)
  refine Calls.run_bind (insertFirstImage_calls trivial (fun _ => trivial) _ _) (fun _ => ?_)
  refine Calls.run_bind (insertFakeMandelboxes_calls (fun _ => trivial) _) (fun _ => ?_)
  exact awaitSwap_calls trivial trivial (fun _ => trivial) trivial

theorem upgradeImageBody_ledger (region imageID : String) :
    (expand awsHost (upgradeImageBody cfg region imageID).run).wp bookkeepingOfLaunches
      (fun s _ => s.Settled ((LaunchAction.upgrade region imageID).Fulfilled cfg)) Ledger.empty := by
  unfold upgradeImageBody
  rw [wp_expand_run_bind, wp_expand_run_liftM]
  refine wp_mono (expand_of_ignored (p := now) ⟨trivial,fun _ => trivial⟩ _) ?_
  rintro s time rfl
  rw [orElse_ok, wp_expand_run_bind, wp_expand_attemptOr]
  refine wp_mono (expand_of_ignored (p := queryImage _ _) ⟨trivial,fun _ => trivial⟩ _) ?_
  rintro s images rfl
  cases images with
  | error e =>
    have hempty : Ledger.empty.GaveUp ((LaunchAction.upgrade region imageID).Fulfilled cfg) :=
      ⟨rfl,rfl,Or.inl rfl⟩
    exact hempty.settled
  | ok images =>
    rw [orElse_ok, orElse_ok, wp_expand_run_bind]
    refine wp_mono (launchBuffer_ledger region imageID _) (orElse_mono ?_ fun s e hs => hs.settled)
    intro s launched hs
    exact insertLaunched_wp hs _ fun _ => deployLaunched_calls region _ images launched.2

/-- The instances that the cloud created for an action are accounted for when it has
returned exactly if there are none, or the cloud created as many as were asked for and
no step after the creation failed. -/
theorem launch_noLeak_iff (cfg : Settings) (a : LaunchAction)
    (reply : List CloudEvent → (op : CloudOp) → CloudAns op) :
    (a.ledger cfg reply).NoLeak ↔ (a.ledger cfg reply).created = [] ∨
      a.Fulfilled cfg (a.ledger cfg reply).created.length ∧ (a.ledger cfg reply).failed = false := by
  cases a with
  | scaleUp n region image =>
    exact execute_of_tracking (scaleUpIfNecessary_ledger n region image) reply
  | upgrade region imageID =>
    exact execute_of_tracking (upgradeImageBody_ledger region imageID) reply

def untagged : List CloudEvent → (op : CloudOp) → CloudAns op
  | _, .service op => oneWorld.reply op
  | _, .runInstances _ _ imageID => .ok [⟨"i-0",imageID,assumedInstanceType⟩]
  | _, .waitForInstanceReady _ => .ok ()
  | _, .generateName _ => "ec2"
  | _, .createTags _ _ => .error "RequestLimitExceeded"

/-- One instance is asked for and created, and then lost to an error of its tag. -/
theorem launch_noLeak_fails :
    ¬∀ (cfg : Settings) (a : LaunchAction) (reply : List CloudEvent → (op : CloudOp) → CloudAns op),
      (a.ledger cfg reply).NoLeak := by
  intro h
  have hlost : (LaunchAction.scaleUp 1 "us-east-1" oneImage).ledger oneRegion untagged =
      ⟨["i-0"],[],[],true⟩ := by decide +kernel
  have hleak := h oneRegion (.scaleUp 1 "us-east-1" oneImage) untagged "i-0"
  rw [hlost] at hleak
  simp at hleak

end Whist.Scaling
