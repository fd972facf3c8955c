import Whist.Scaling.Books

/-! # Which goroutine makes which call

The calls by which goroutines can disturb each other, with the goroutines that make them.
-/
namespace Whist.Scaling
open Program Client

namespace Goroutine

def isAssign : Goroutine → Bool
  | .mandelboxAssign _ _ => true
  | _ => false

def checkedRegion : Goroutine → Option String
  | .mandelboxAssign region _ | .scaleDownIfNecessary region | .verifyInstanceScaleDown region _ => some region
  | _ => none

def deployRegion : Goroutine → Option String
  | .upgradeImage region _ | .swapOverImages region _ => some region
  | _ => none

def makes (kind : Goroutine) : Op → Prop
  | .queryInstanceWithCapacity _ | .queryMandelbox _ _ | .updateMandelbox _ | .returnResult _ => kind.isAssign
  | .updateInstance row =>
    kind.isAssign ∨ ∃ region, kind = .scaleDownIfNecessary region ∧ row.status = .draining
  | .registerInstance row =>
    ∃ host, kind = .registerInstance host ∧ row.id = host.instanceID ∧ row.status = .active
  | .writeInstanceStatus status id => kind = .markDraining id ∧ status = .draining
  | .deleteInstance _ => kind.checkedRegion.isSome
  | .insertInstances _ => kind.checkedRegion.isSome ∨ kind.deployRegion.isSome
  | .insertImages _ => kind.deployRegion.isSome
  | .updateImage _ => ∃ region version, kind = .swapOverImages region version
  | .lockProtectedMap region | .unlockProtectedMap region =>
    kind = .scaleDownIfNecessary region ∨ kind.deployRegion = some region
  | .readProtected region =>
    kind = .scaleDownIfNecessary region ∨ ∃ version, kind = .swapOverImages region version
  | .writeProtected region _ => kind.deployRegion = some region
  | .sendSync region => ∃ imageID, kind = .upgradeImage region imageID
  | .receiveSync region => ∃ version, kind = .swapOverImages region version
  | .removeMandelbox _ | .updateInstanceCapacity _ _ => ∃ id, kind = .closeMandelbox id
  | _ => True

end Goroutine

variable {cfg : Settings} {kind : Goroutine} {region : String}

theorem thenVerifyCapacity_calls {α : Type} {P : Op → Prop} {p : Prog α} (h : p.Calls P)
    (hverify : (verifyCapacity cfg region).run.Calls P) : (thenVerifyCapacity cfg region p).Calls P :=
  Calls.bind h fun _ => Calls.bind hverify fun _ => trivial

theorem verifyCapacity_makes (h : kind.checkedRegion = some region) :
    (verifyCapacity cfg region).run.Calls kind.makes := by
  have hcheck : kind.checkedRegion.isSome := by rw [h]; rfl
  exact verifyCapacity_calls trivial (fun _ => trivial) (fun _ _ _ => trivial) (fun _ _ _ _ => trivial)
    (fun _ => Or.inl hcheck) (fun _ => trivial) cfg

theorem queryLatestImage_makes (provider region : String) :
    (queryLatestImage provider region).Calls kind.makes :=
  queryLatestImage_calls (fun _ _ => trivial) provider region

section
variable {req : AssignRequest}

def AssignCall : Op → Prop
  | .queryUserMandelboxes _ | .queryImage _ _ | .queryInstanceWithCapacity _ | .queryMandelbox _ _
  | .updateMandelbox _ | .updateInstance _ | .returnResult _ | .now => True
  | _ => False

theorem refuse_calls {α : Type} (error : AssignError) (message : Option String) :
    (refuse error message : AssignAction α).run.Calls AssignCall :=
  Calls.run_bind (Calls.run_liftM ⟨trivial,fun _ => trivial⟩) fun _ => trivial

theorem tryRegions_calls (commitHash : String) (regions : List String) (a : Option Instance) :
    (tryRegions commitHash regions a).run.Calls AssignCall := by
  induction regions generalizing a with
  | nil => trivial
  | cons region rest ih =>
    refine Calls.run_bind (calls_attemptOr (queryLatestImage_calls (fun _ _ => trivial) _ _)) (fun image => ?_)
    refine Calls.run_bind (calls_attemptOr ⟨trivial,fun _ => trivial⟩) (fun rows => ?_)
    dsimp only
    split_ifs
    · trivial
    · exact ih _

theorem chargeAndAnswer_calls (i : Instance) (id : String) :
    (chargeAndAnswer cfg i id).run.Calls AssignCall := by
  unfold chargeAndAnswer
  split_ifs
  · trivial
  · refine Calls.run_bind (calls_attemptOr ⟨trivial,fun _ => trivial⟩) (fun n => ?_)
    cases cfg.parseCIDR i.ipAddress with
    | error e => trivial
    | ok ip => exact Calls.run_liftM ⟨trivial,fun _ => trivial⟩

theorem allocate_calls (i : Instance) : (allocate cfg req i).run.Calls AssignCall := by
  refine Calls.run_bind (calls_attemptOr ⟨trivial,fun _ => trivial⟩) (fun rows => ?_)
  cases rows with
  | nil => trivial
  | cons row rows =>
    refine Calls.run_bind (Calls.run_liftM ⟨trivial,fun _ => trivial⟩) (fun time => ?_)
    refine Calls.run_bind (calls_attemptOr ⟨trivial,fun _ => trivial⟩) (fun n => ?_)
    exact chargeAndAnswer_calls i row.id

theorem assignInRegions_calls : (assignInRegions cfg region req).run.Calls AssignCall := by
  refine Calls.run_bind (calls_attemptOr (queryLatestImage_calls (fun _ _ => trivial) _ _)) (fun image => ?_)
  refine Calls.run_bind (tryRegions_calls _ _ _) (fun a => ?_)
  cases a with
  | none => exact refuse_calls _ _
  | some i =>
    generalize (if (cfg.isLocalEnv || decide (req.commitHash = clientCommitHashDevOverride)) = true
      then image.clientSHA else req.commitHash) = commitHash
    dsimp only
    by_cases hsha : i.clientSHA ≠ commitHash
    · rw [if_pos hsha]
      exact refuse_calls _ _
    · rw [if_neg hsha]
      exact allocate_calls i

theorem mandelboxAssign_search (cfg : Settings) (region : String) (req : AssignRequest) :
    ∃ search : Prog Unit, search.Calls AssignCall ∧
      mandelboxAssign cfg region req = thenVerifyCapacity cfg region search := by
  refine ⟨_,Calls.bind ?_ fun r => ?_,rfl⟩
  · refine Calls.run_bind (calls_attemptOr (checkForExistingMandelbox_calls (fun _ => trivial) cfg _))
      (fun should => ?_)
    split_ifs
    · exact refuse_calls _ _
    · exact refuse_calls _ _
    · exact assignInRegions_calls
  · rcases r with (_ | _) | _
    · exact ⟨trivial,fun _ => trivial⟩
    · trivial
    · trivial

theorem AssignCall.makes {op : Op} (h : AssignCall op) : Goroutine.makes (.mandelboxAssign region req) op := by
  cases op <;> cases h
  case updateInstance row => exact Or.inl rfl
  all_goals first | rfl | trivial

theorem mandelboxAssign_makes (region : String) (req : AssignRequest) :
    (mandelboxAssign cfg region req).Calls (Goroutine.makes (.mandelboxAssign region req)) := by
  obtain ⟨search,hsearch,heq⟩ := mandelboxAssign_search cfg region req
  rw [heq]
  exact thenVerifyCapacity_calls (hsearch.mono fun _ => AssignCall.makes) (verifyCapacity_makes rfl)

end

theorem markDrainingInstances_makes (rows : List Instance) :
    (markDrainingInstances rows).run.Calls (Goroutine.makes (.scaleDownIfNecessary region)) := by
  induction rows with
  | nil => trivial
  | cons i rest ih =>
    exact Calls.run_bind (calls_attemptOr ⟨Or.inr ⟨region,rfl,rfl⟩,fun _ => trivial⟩) fun _ => ih

theorem withProtectedLocked_calls {P : Op → Prop} (hlock : P (.lockProtectedMap region))
    (hunlock : P (.unlockProtectedMap region)) {action : Action Unit} (h : action.run.Calls P) :
    (withProtectedLocked region action).run.Calls P :=
  Calls.bind (p := lockProtectedMap region) ⟨hlock,fun _ => trivial⟩ fun _ =>
    Calls.bind h fun _ => Calls.bind (p := unlockProtectedMap region) ⟨hunlock,fun _ => trivial⟩ fun _ => trivial

theorem scaleDownIfNecessary_makes (region : String) :
    (scaleDownIfNecessary cfg region).Calls (Goroutine.makes (.scaleDownIfNecessary region)) := by
  refine thenVerifyCapacity_calls ?_ (verifyCapacity_makes rfl)
  refine Calls.run_bind (queryLatestImage_makes _ _) (fun image => ?_)
  refine Calls.run_bind (calls_attemptOr ⟨trivial,fun _ => trivial⟩) (fun active => ?_)
  refine withProtectedLocked_calls (Or.inl rfl) (Or.inl rfl) ?_
  refine Calls.run_bind (Calls.run_liftM ⟨Or.inl rfl,fun _ => trivial⟩) (fun images => ?_)
  refine Calls.run_bind (calls_attemptOr ⟨trivial,fun _ => trivial⟩) (fun draining => ?_)
  refine Calls.run_bind (Calls.run_liftM (findLingering_calls trivial _ _)) (fun lingering => ?_)
  refine Calls.run_bind (terminateLingering_calls (fun _ => trivial) cfg _) (fun _ => ?_)
  refine Calls.run_bind (verifyRemovals_calls (fun _ => trivial) (fun _ => trivial) (fun _ => rfl) _) (fun _ => ?_)
  exact markDrainingInstances_makes _

theorem verifyInstanceScaleDown_makes (region : String) (i : Instance) :
    (verifyInstanceScaleDown cfg region i).Calls (Goroutine.makes (.verifyInstanceScaleDown region i)) := by
  refine thenVerifyCapacity_calls ?_ (verifyCapacity_makes rfl)
  refine Calls.run_bind (calls_attemptOr ⟨trivial,fun _ => trivial⟩) (fun rows => ?_)
  split_ifs
  · trivial
  · exact verifyInstanceRemoval_calls (fun _ => trivial) (fun _ => trivial) (fun _ => rfl) _

theorem upgradeImage_makes (region : String) (imageID : Option String) :
    (upgradeImage cfg region imageID).Calls (Goroutine.makes (.upgradeImage region imageID)) := by
  cases imageID with
  | none => trivial
  | some imageID =>
    refine Calls.bind ?_ fun _ => trivial
    refine Calls.run_bind (Calls.run_liftM ⟨trivial,fun _ => trivial⟩) (fun time => ?_)
    refine Calls.run_bind (calls_attemptOr ⟨trivial,fun _ => trivial⟩) (fun images => ?_)
    refine Calls.run_bind ?_ (fun launched => ?_)
    · unfold launchBuffer
      split_ifs
      · exact Calls.run_liftM ⟨trivial,fun _ => trivial⟩
      · exact Calls.run_bind (calls_attemptOr ⟨trivial,fun _ => trivial⟩) fun _ => trivial
    · refine Calls.run_bind (calls_attemptOr ⟨Or.inr rfl,fun _ => trivial⟩) (fun n => ?_)
      refine Calls.run_bind (replaceProtected_calls (Or.inr rfl) (fun _ => rfl) (Or.inr rfl) _) (fun _ => ?_)
      refine Calls.run_bind (insertFirstImage_calls trivial (fun _ => rfl) _ _) (fun _ => ?_)
      refine Calls.run_bind (insertFakeMandelboxes_calls (fun _ => trivial) _) (fun _ => ?_)
      exact awaitSwap_calls ⟨some imageID,rfl⟩ (Or.inr rfl) (fun _ => rfl) (Or.inr rfl)

theorem swapOverImages_makes (region : String) (version : FrontendVersion) :
    (swapOverImages cfg region version).Calls (Goroutine.makes (.swapOverImages region version)) := by
  refine Calls.bind (Calls.run_bind (Calls.run_liftM ⟨⟨version,rfl⟩,fun _ => trivial⟩) (fun result => ?_))
    fun _ => trivial
  cases result with
  | timedOut =>
    exact Calls.run_bind (replaceProtected_calls (Or.inr rfl) (fun _ => rfl) (Or.inr rfl) _) fun _ => trivial
  | done =>
    refine withProtectedLocked_calls (Or.inr rfl) (Or.inr rfl) ?_
    refine Calls.run_bind (Calls.run_liftM ⟨Or.inr ⟨version,rfl⟩,fun _ => trivial⟩) (fun images => ?_)
    cases images.find? fun entry => entry.2.clientSHA = cfg.commitHash version with
    | none => trivial
    | some entry =>
      refine Calls.run_bind (calls_attemptOr ⟨trivial,fun _ => trivial⟩) (fun rows => ?_)
      refine Calls.run_bind ?_ fun _ => Calls.run_liftM ⟨rfl,fun _ => trivial⟩
      unfold swapImage
      split_ifs
      · exact Calls.run_bind (calls_attemptOr ⟨rfl,fun _ => trivial⟩) fun _ => trivial
      · exact Calls.run_bind (calls_attemptOr ⟨⟨region,version,rfl⟩,fun _ => trivial⟩) fun _ => trivial

theorem registerInstance_makes (host : HostMetadata) :
    (logged (registerInstance host)).Calls (Goroutine.makes (.registerInstance host)) := by
  refine logged_calls (Calls.run_bind (calls_attemptOr ⟨trivial,fun _ => trivial⟩) (fun rows => ?_))
  cases rows with
  | nil => trivial
  | cons row rest =>
    dsimp only
    cases registrationMismatch host row with
    | some message => trivial
    | none =>
      refine Calls.run_bind (Calls.run_liftM ⟨trivial,fun _ => trivial⟩) (fun time => ?_)
      exact affecting_calls ((calls_perform _ _).mpr ⟨host,rfl,rfl,rfl⟩) _

theorem spinUpMandelboxes_makes (app instanceID : String) (n : ℕ) :
    (spinUpMandelboxes app instanceID n).Calls kind.makes := by
  induction n with
  | zero => trivial
  | succ n ih =>
    refine Calls.bind ((calls_perform _ _).mpr trivial) (fun id => ?_)
    refine Calls.bind ((calls_perform _ _).mpr trivial) (fun r => ?_)
    cases r with
    | error e => trivial
    | ok r => exact Calls.bind ⟨trivial,fun _ => trivial⟩ fun time => Calls.bind ((calls_perform _ _).mpr trivial) fun _ => ih

theorem monitorWaitingMandelboxes_makes (app instanceID : String) :
    (monitorWaitingMandelboxes app instanceID).run.Calls kind.makes := by
  refine Calls.run_bind (Calls.run_bind (calls_attemptOr ⟨trivial,fun _ => trivial⟩) fun rows => ?_) fun capacity => ?_
  · cases rows <;> trivial
  · refine Calls.run_bind (Calls.run_liftM ((calls_perform _ _).mpr trivial)) (fun count => ?_)
    exact Calls.run_liftM (spinUpMandelboxes_makes app instanceID _)

theorem writeMandelboxStatus_makes (id : String) (status : MandelboxStatus) :
    (writeMandelboxStatus id status).run.Calls kind.makes :=
  affecting_calls ((calls_perform _ _).mpr trivial) _

theorem finishMandelboxSpinUp_makes (userID mandelboxID instanceID : String) :
    (finishMandelboxSpinUp userID mandelboxID instanceID).run.Calls kind.makes := by
  refine Calls.run_bind (Calls.run_bind (calls_attemptOr ((calls_perform _ _).mpr trivial)) fun rows => ?_) fun _ => ?_
  · cases rows with
    | nil => trivial
    | cons row rows =>
      dsimp only
      split_ifs
      · trivial
      · trivial
      · exact writeMandelboxStatus_makes _ _
  · exact Calls.run_bind ((calls_perform _ _).mpr trivial) fun _ => writeMandelboxStatus_makes _ _

theorem closeMandelbox_makes (mandelboxID : String) :
    (closeMandelbox mandelboxID).Calls (Goroutine.makes (.closeMandelbox mandelboxID)) := by
  refine Calls.bind (writeMandelboxStatus_makes _ _) (fun _ => Calls.bind ?_ fun _ => trivial)
  refine Calls.run_bind (calls_attemptOr ((calls_perform _ _).mpr trivial)) (fun rows => ?_)
  cases rows with
  | nil => trivial
  | cons row rows =>
    refine Calls.run_bind (calls_attemptOr ((calls_perform _ _).mpr ⟨mandelboxID,rfl⟩)) (fun n => ?_)
    split_ifs
    · trivial
    · exact Calls.run_bind (calls_attemptOr ((calls_perform _ _).mpr ⟨mandelboxID,rfl⟩)) fun _ => trivial

theorem body_makes (kind : Goroutine) : (body cfg kind).Calls kind.makes := by
  cases kind with
  | mandelboxAssign region req => exact mandelboxAssign_makes region req
  | scaleDownIfNecessary region => exact scaleDownIfNecessary_makes region
  | verifyInstanceScaleDown region drained => exact verifyInstanceScaleDown_makes region drained
  | upgradeImage region imageID => exact upgradeImage_makes region imageID
  | swapOverImages region version => exact swapOverImages_makes region version
  | registerInstance host => exact registerInstance_makes host
  | spinUpMandelboxes app instanceID n => exact spinUpMandelboxes_makes app instanceID n
  | monitorWaitingMandelboxes app instanceID => exact logged_calls (monitorWaitingMandelboxes_makes app instanceID)
  | finishMandelboxSpinUp userID mandelboxID instanceID =>
    exact logged_calls (finishMandelboxSpinUp_makes userID mandelboxID instanceID)
  | closeMandelbox mandelboxID => exact closeMandelbox_makes mandelboxID
  | writeHeartbeat instanceID => exact logged_calls (affecting_calls ((calls_perform _ _).mpr trivial) _)
  | markDraining instanceID => exact logged_calls (affecting_calls ((calls_perform _ _).mpr ⟨rfl,rfl⟩) _)
  | unregisterInstance instanceID => exact logged_calls (affecting_calls ((calls_perform _ _).mpr trivial) _)

def System.Making (s : System) : Prop :=
  ∀ (i : ℕ) p, s.processes[i]? = some p → p.rest.Calls p.kind.makes

theorem System.Making.makes {s : System} (hs : s.Making) {pid : ℕ} {p : Process Goroutine Op Ans} {op : Op}
    {next : Ans op → Prog Unit} (hcall : s.AtCall pid p op next) : p.kind.makes op := by
  have h := hs pid p hcall.1
  rw [hcall.2] at h
  exact h.1

theorem System.Making.step {s t : System} {mv : SystemMove} (hs : s.Making)
    (h : System.step cfg s mv = .ok t) : t.Making := by
  refine Pool.processes_invariant (fun kind => body_makes kind) ?_ ?_ (show ∀ (i : ℕ) p,
    s.processes[i]? = some p → p.rest.Calls p.kind.makes from hs) h
  · intro pid p op next r hcall _ hp _
    rw [hcall.2] at hp
    exact hp.2 r
  · intro pid₁ pid₂ p₁ p₂ op₁ op₂ next₁ next₂ r₁ r₂ hcall₁ hcall₂ _ hp₁ hp₂ _
    rw [hcall₁.2] at hp₁
    rw [hcall₂.2] at hp₂
    exact ⟨hp₁.2 r₁,hp₂.2 r₂⟩

theorem System.making_initial (w : World) : (System.initial w).Making := by
  intro i p hi
  simp [System.initial] at hi

end Whist.Scaling
