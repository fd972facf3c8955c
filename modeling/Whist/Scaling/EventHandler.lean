import Whist.Scaling.Replies

/-! # Events and their regions

How `event_handler.go` finds the scaling algorithm of an event, how `ProcessEvents` of
`default/default.go` runs an assign, and which region's buffer the assign looks after.
-/
namespace Whist.Scaling
open Program Client

/-- An event without a region has the empty text for it. -/
structure ScalingEvent (α : Type) where
  type : String
  region : String
  data : α
deriving DecidableEq, Repr

def defaultRegion : String := "us-east-1"

def algorithmName (region : String) : String := "default-sa-" ++ region

def getScalingAlgorithm {α : Type} (cfg : Settings) (scalingEvent : ScalingEvent α) : Option String :=
  let region := if scalingEvent.region = "" then defaultRegion else scalingEvent.region
  cfg.enabledRegions.find? fun enabled => algorithmName enabled = algorithmName region

theorem getScalingAlgorithm_eq_some {α : Type} {cfg : Settings} {event : ScalingEvent α} {region : String}
    (h : getScalingAlgorithm cfg event = some region) :
    region ∈ cfg.enabledRegions ∧
      region = if event.region = "" then defaultRegion else event.region := by
  refine ⟨List.mem_of_find?_eq_some h,?_⟩
  have hname := List.find?_some h
  simpa [algorithmName] using hname

/-- The algorithm puts its own region into the event and runs the assign. -/
def processServerEvent (cfg : Settings) (serverEvent : ScalingEvent AssignRequest) : Prog Unit :=
  match getScalingAlgorithm cfg serverEvent with
  | none => pure ()
  | some region =>
    if serverEvent.type = "SERVER_MANDELBOX_ASSIGN_EVENT" then
      mandelboxAssign cfg region serverEvent.data
    else pure ()

def chargedBy (charged : Bool) : Event Op Ans → Bool
  | ⟨.updateInstance _,_⟩ => true
  | _ => charged

/-- Once an instance has been charged, images are asked for only in one region, and no
instance is written again. -/
def mayAfterCharge (region : String) (charged : Bool) : Op → Prop
  | .queryImage _ queried => charged = true → queried = region
  | .updateInstance _ => charged = false
  | _ => True

def afterCharge (region : String) : Contract Op Ans Bool where
  track := chargedBy
  trusts _ _ _ := True
  may := mayAfterCharge region

section
variable {cfg : Settings} {region : String} {req : AssignRequest} {α : Type}

def BeforeCharge : Op → Prop
  | .updateInstance _ => False
  | _ => True

def InCheckOf (region : String) : Op → Prop
  | .updateInstance _ => False
  | .queryImage _ queried => queried = region
  | _ => True

theorem wp_of_beforeCharge {p : Prog α} (h : p.Calls BeforeCharge) :
    p.wp (afterCharge region) (fun charged _ => charged = false) false :=
  h.wp (fun op hop => by cases op <;> first | exact hop.elim | exact fun h => Bool.noConfusion h | trivial)
    fun op r hop => by cases op <;> first | exact hop.elim | rfl

theorem wp_of_inCheck {p : Prog α} (h : p.Calls (InCheckOf region)) (charged : Bool) :
    p.wp (afterCharge region) (fun charged' _ => charged' = charged) charged :=
  h.wp (fun op hop => by cases op <;> first | exact hop.elim | exact fun _ => hop | trivial)
    fun op r hop => by cases op <;> first | exact hop.elim | rfl

theorem verifyCapacity_inCheck : (verifyCapacity cfg region).run.Calls (InCheckOf region) :=
  verifyCapacity_calls (P := InCheckOf region) rfl (fun _ => trivial) (fun _ _ _ => trivial)
    (fun _ _ _ _ => trivial) (fun _ => trivial) (fun _ => trivial) cfg

theorem tryRegions_beforeCharge (commitHash : String) (regions : List String) (a : Option Instance) :
    (tryRegions commitHash regions a).run.Calls BeforeCharge := by
  induction regions generalizing a with
  | nil => trivial
  | cons tried rest ih =>
    refine Calls.run_bind (calls_attemptOr (queryLatestImage_calls (fun _ _ => trivial) _ _)) (fun image => ?_)
    refine Calls.run_bind (calls_attemptOr ⟨trivial,fun _ => trivial⟩) (fun rows => ?_)
    dsimp only
    split_ifs
    · trivial
    · exact ih _

theorem refuse_charges {error : AssignError} {message : Option String} :
    (refuse error message : AssignAction α).run.wp (afterCharge region) (fun _ _ => True) false := by
  simp only [refuse, wp_run_bind, wp_run_liftM, wp_run_throw, returnResult, wp_perform]
  exact ⟨trivial,fun _ _ => trivial⟩

theorem chargeAndAnswer_charges (i : Instance) (mandelboxID : String) :
    (chargeAndAnswer cfg i mandelboxID).run.wp (afterCharge region) (fun _ _ => True) false := by
  unfold chargeAndAnswer
  split_ifs
  · trivial
  · simp only [wp_run_bind, wp_attemptOr, updateInstance, wp_perform]
    refine ⟨rfl,fun r _ => ?_⟩
    cases r with
    | error e => trivial
    | ok n =>
      rw [orElse_ok]
      cases cfg.parseCIDR i.ipAddress with
      | error e => trivial
      | ok ip => exact ⟨trivial,fun _ _ => trivial⟩

theorem allocate_charges (i : Instance) :
    (allocate cfg req i).run.wp (afterCharge region) (fun _ _ => True) false := by
  unfold allocate
  rw [wp_run_bind, wp_attemptOr]
  refine wp_mono (wp_of_beforeCharge (p := queryMandelbox _ _) ⟨trivial,fun _ => trivial⟩) ?_
  rintro charged rows rfl
  rcases rows with e | _ | ⟨waiting,rest⟩
  · trivial
  · trivial
  · simp only [orElse_ok, wp_run_bind, wp_run_liftM, wp_attemptOr, now, updateMandelbox, wp_perform]
    refine ⟨trivial,fun time _ => ⟨trivial,fun r _ => ?_⟩⟩
    cases r with
    | error e => trivial
    | ok n => exact chargeAndAnswer_charges i waiting.id

theorem assignInRegions_charges :
    (assignInRegions cfg region req).run.wp (afterCharge region) (fun _ _ => True) false := by
  unfold assignInRegions
  rw [wp_run_bind, wp_attemptOr]
  refine wp_mono (wp_of_beforeCharge (queryLatestImage_calls (fun _ _ => trivial) _ _)) ?_
  rintro charged image rfl
  cases image with
  | error e => trivial
  | ok image =>
    simp only [orElse_ok]
    generalize (if (cfg.isLocalEnv || decide (req.commitHash = clientCommitHashDevOverride)) = true
      then image.clientSHA else req.commitHash) = commitHash
    rw [wp_run_bind]
    refine wp_mono (wp_of_beforeCharge (tryRegions_beforeCharge _ _ none)) ?_
    rintro charged assigned rfl
    rcases assigned with e | _ | i
    · trivial
    · exact refuse_charges
    · rw [orElse_ok]
      by_cases hsha : i.clientSHA ≠ commitHash
      · simp only [if_pos hsha]
        exact refuse_charges
      · simp only [if_neg hsha]
        exact allocate_charges i

theorem assignBody_charges :
    (assignBody cfg region req).run.wp (afterCharge region) (fun _ _ => True) false := by
  unfold assignBody
  dsimp only
  rw [wp_run_bind, wp_attemptOr]
  refine wp_mono (wp_of_beforeCharge (checkForExistingMandelbox_calls (fun _ => trivial) cfg _)) ?_
  rintro charged shouldAllocate rfl
  cases shouldAllocate with
  | error e => trivial
  | ok shouldAllocate =>
    dsimp only [orElse]
    split_ifs
    · exact refuse_charges
    · exact refuse_charges
    · exact assignInRegions_charges

def answerAssign (cfg : Settings) (region : String) (req : AssignRequest) : Prog Unit := do
  match ← (assignBody cfg region req).run with
  | .error (.unavailable _) => returnResult (.failed .serviceUnavailable)
  | _ => pure ()

theorem answerAssign_charges :
    (answerAssign cfg region req).wp (afterCharge region) (fun _ _ => True) false := by
  unfold answerAssign
  rw [wp_bind]
  refine wp_mono assignBody_charges (fun charged r _ => ?_)
  rcases r with (_ | _) | _
  · exact ⟨trivial,fun _ _ => trivial⟩
  · trivial
  · trivial

theorem mandelboxAssign_charges :
    (mandelboxAssign cfg region req).wp (afterCharge region) (fun _ _ => True) false := by
  change (answerAssign cfg region req >>= fun _ => (verifyCapacity cfg region).run >>= fun _ => pure ()).wp
    _ _ _
  rw [wp_bind]
  refine wp_mono answerAssign_charges (fun charged _ _ => ?_)
  rw [wp_bind]
  exact wp_mono (wp_of_inCheck verifyCapacity_inCheck charged) fun _ _ _ => trivial

end

theorem charged_stays (es : List (Event Op Ans)) : es.foldl chargedBy true = true := by
  induction es with
  | nil => rfl
  | cons e es ih =>
    have he : chargedBy true e = true := by
      obtain ⟨op,r⟩ := e
      cases op <;> rfl
    rw [List.foldl_cons, he]
    exact ih

theorem charged_of_mem {es : List (Event Op Ans)} {row : Instance} {r : Ans (.updateInstance row)}
    (h : ⟨.updateInstance row,r⟩ ∈ es) (charged : Bool) : es.foldl chargedBy charged = true := by
  obtain ⟨pre,post,rfl⟩ := List.append_of_mem h
  rw [List.foldl_append, List.foldl_cons]
  exact charged_stays post

def ChecksAfter (cfg : Settings) (region : String) (e : Event Op Ans)
    (reply : List (Event Op Ans) → (op : Op) → Ans op) (es : List (Event Op Ans)) : Prop :=
  ∃ past, e ∈ past ∧ ((verifyCapacity cfg region).run.execute reply past).1 = es

theorem mandelboxAssign_checks_iff (cfg : Settings) (region : String) (req : AssignRequest)
    {reply : List (Event Op Ans) → (op : Op) → Ans op} {row : Instance} {r : Ans (.updateInstance row)}
    (hcharge : ⟨.updateInstance row,r⟩ ∈ ((mandelboxAssign cfg region req).execute reply []).1)
    (checked : String) :
    ChecksAfter cfg checked ⟨.updateInstance row,r⟩ reply
      ((mandelboxAssign cfg region req).execute reply []).1 ↔ checked = region := by
  have hes : ((mandelboxAssign cfg region req).execute reply []).1 =
      ((verifyCapacity cfg region).run.execute reply
        ((answerAssign cfg region req).execute reply []).1).1 := by
    change ((answerAssign cfg region req >>= fun _ => (verifyCapacity cfg region).run >>=
      fun _ => pure ()).execute reply []).1 = _
    rw [execute_bind, execute_bind]
    rfl
  constructor
  · rintro ⟨past,hpast,hcheck⟩
    obtain ⟨post,hpost⟩ : past ++ [⟨.queryImage "AWS" checked,reply past (.queryImage "AWS" checked)⟩] <+:
        ((verifyCapacity cfg checked).run.execute reply past).1 :=
      prefix_execute _ _ _
    have hsplit : ((mandelboxAssign cfg region req).execute reply []).1 =
        [] ++ past ++ ⟨.queryImage "AWS" checked,reply past (.queryImage "AWS" checked)⟩ :: post := by
      rw [← hcheck, ← hpost]
      simp
    have hmay := may_of_wp (C := afterCharge region) (s := false) (fun _ _ => trivial)
      mandelboxAssign_charges hsplit
    exact hmay (charged_of_mem hpast false)
  · rintro rfl
    refine ⟨_,?_,hes.symm⟩
    rw [hes] at hcharge
    exact (verifyCapacity_inCheck.execute reply hcharge).resolve_right id

/-- A request that charges an instance has the buffer of the instance's region checked
afterwards exactly if that is the region of the algorithm which the request went to. -/
theorem assign_restores_iff (cfg : Settings) (event : ScalingEvent AssignRequest)
    (reply : List (Event Op Ans) → (op : Op) → Ans op) (row : Instance) (n : ℕ)
    (hcharge : ⟨.updateInstance row,.ok n⟩ ∈ ((processServerEvent cfg event).execute reply []).1) :
    ChecksAfter cfg row.region ⟨.updateInstance row,.ok n⟩ reply
        ((processServerEvent cfg event).execute reply []).1 ↔
      row.region = if event.region = "" then defaultRegion else event.region := by
  unfold processServerEvent at hcharge ⊢
  cases hregion : getScalingAlgorithm cfg event with
  | none =>
    rw [hregion] at hcharge
    exact absurd hcharge List.not_mem_nil
  | some region =>
    rw [hregion] at hcharge
    dsimp only at hcharge ⊢
    by_cases htype : event.type = "SERVER_MANDELBOX_ASSIGN_EVENT"
    · simp only [if_pos htype] at hcharge ⊢
      rw [← (getScalingAlgorithm_eq_some hregion).2]
      exact mandelboxAssign_checks_iff cfg region event.data hcharge row.region
    · rw [if_neg htype] at hcharge
      exact absurd hcharge List.not_mem_nil

def twoRegions : Settings := { oneRegion with enabledRegions := ["us-east-1","us-west-1"] }

def westInstance : Instance := { oneInstance with region := "us-west-1" }

def westWorld : World :=
  { oneWorld with
    db :=
      { oneWorld.db with
        instances := [westInstance]
        images := [oneImage,{ oneImage with region := "us-west-1" }] }
    launched := [westInstance] }

def assignEvent (region : String) : ScalingEvent AssignRequest where
  type := "SERVER_MANDELBOX_ASSIGN_EVENT"
  region := ""
  data := { oneRequest "user" with regions := [region] }

def writtenInstance : Event Op Ans → Option (Instance × ℕ)
  | ⟨.updateInstance row,.ok n⟩ => some (row,n)
  | _ => none

theorem mem_of_writtenInstance {es : List (Event Op Ans)} {row : Instance} {n : ℕ}
    (h : (row,n) ∈ es.filterMap writtenInstance) : ⟨.updateInstance row,.ok n⟩ ∈ es := by
  obtain ⟨⟨op,r⟩,he,hwritten⟩ := List.mem_filterMap.mp h
  cases op with
  | updateInstance written =>
    cases r with
    | ok m =>
      obtain ⟨rfl,rfl⟩ := Prod.mk.inj (Option.some.inj hwritten)
      exact he
    | error e => cases hwritten
  | _ => cases hwritten

/-- An instance of the default region is charged, and the default region is checked. -/
theorem assign_restores_east :
    ChecksAfter oneRegion "us-east-1" ⟨.updateInstance { oneInstance with remainingCapacity := 1 },.ok 1⟩
      (fun _ => oneWorld.reply)
      ((processServerEvent oneRegion (assignEvent "us-east-1")).execute (fun _ => oneWorld.reply) []).1 :=
  (assign_restores_iff oneRegion (assignEvent "us-east-1") (fun _ => oneWorld.reply)
    { oneInstance with remainingCapacity := 1 } 1 (mem_of_writtenInstance (by decide +kernel))).mpr rfl

/-- An instance in the west is charged, and the buffer of the east is checked. -/
theorem assign_restores_fails :
    ¬∀ (cfg : Settings) (event : ScalingEvent AssignRequest)
      (reply : List (Event Op Ans) → (op : Op) → Ans op) (row : Instance) (n : ℕ),
      ⟨.updateInstance row,.ok n⟩ ∈ ((processServerEvent cfg event).execute reply []).1 →
        ChecksAfter cfg row.region ⟨.updateInstance row,.ok n⟩ reply
          ((processServerEvent cfg event).execute reply []).1 := by
  intro h
  have hcharge : ⟨.updateInstance { westInstance with remainingCapacity := 1 },.ok 1⟩ ∈
      ((mandelboxAssign twoRegions "us-east-1" (assignEvent "us-west-1").data).execute
        (fun _ => westWorld.reply) []).1 :=
    mem_of_writtenInstance (by decide +kernel)
  have hregion := (mandelboxAssign_checks_iff twoRegions "us-east-1" (assignEvent "us-west-1").data
    hcharge "us-west-1").mp (h twoRegions (assignEvent "us-west-1") (fun _ => westWorld.reply) _ 1 hcharge)
  exact absurd hregion (by decide)

end Whist.Scaling
