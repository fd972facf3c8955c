import Whist.Scaling.System

/-! # What a goroutine may write -/
namespace Whist.Scaling
open Program Client

structure Books where
  /-- The rows that the capacity queries answered. -/
  offered : List Instance := []
  waiting : List Mandelbox := []
  allocated : Option Mandelbox := none
  charged : Option Instance := none
  answered : Option String := none
  found : List Mandelbox := []
  removed : Option (String × ℕ) := none
  /-- The instance given its capacity back. -/
  released : Option String := none
  /-- The second write of a pair was not carried out. -/
  failed : Bool := false

namespace Books

def track (b : Books) : Event Op Ans → Books
  | ⟨.queryInstanceWithCapacity _,.ok rows⟩ => { b with offered := b.offered ++ rows }
  | ⟨.queryMandelbox _ _,.ok rows⟩ => { b with waiting := b.waiting ++ rows }
  | ⟨.updateMandelbox m,.ok _⟩ => { b with allocated := some m }
  | ⟨.updateInstance i,.ok _⟩ => { b with charged := some i }
  | ⟨.updateInstance _,.error _⟩ => { b with failed := b.failed || b.allocated.isSome }
  | ⟨.returnResult (.assigned _ id),_⟩ => { b with answered := some id }
  | ⟨.findMandelboxByID _,.ok rows⟩ => { b with found := b.found ++ rows }
  | ⟨.removeMandelbox id,.ok n⟩ => { b with removed := some (id,n) }
  | ⟨.updateInstanceCapacity _ id,.ok _⟩ => { b with released := some id }
  | ⟨.updateInstanceCapacity _ _,.error _⟩ => { b with failed := true }
  | _ => b

def trusts (_ : Books) : (op : Op) → Ans op → Prop
  | .queryInstanceWithCapacity _, .ok rows => ∀ i ∈ rows, i.status = .active ∧ 0 < i.remainingCapacity
  | .queryMandelbox instanceID status, .ok rows => ∀ m ∈ rows, m.instanceID = instanceID ∧ m.status = status
  | .findMandelboxByID id, .ok rows => ∀ m ∈ rows, m.id = id
  | .spinUpFakeInstances _ _ _ _, (_,mandelboxes) => ∀ m ∈ mandelboxes, World.IsFakeMandelbox m
  | _, _ => True

def charge (i : Instance) : Instance := { i with remainingCapacity := i.remainingCapacity - 1 }

def Plain : Op → Prop
  | .queryInstanceWithCapacity _ | .queryMandelbox _ _ | .updateMandelbox _ | .updateInstance _
  | .returnResult (.assigned _ _) | .insertMandelboxes _ | .createMandelbox _ | .findMandelboxByID _
  | .writeMandelboxStatus _ _ | .removeMandelbox _ | .updateInstanceCapacity _ _
  | .writeInstanceStatus _ _ => False
  | _ => True

def may (kind : Goroutine) (b : Books) : Op → Prop
  | .updateMandelbox m =>
    ∃ region req, kind = .mandelboxAssign region req ∧ b.allocated = none ∧ b.charged = none ∧
      b.answered = none ∧ req.userID ≠ "" ∧ ∃ i ∈ b.offered, ∃ row ∈ b.waiting,
        row.instanceID = i.id ∧ ∃ time, m = mandelboxForDb req i row time
  | .updateInstance i =>
    (∃ region req, kind = .mandelboxAssign region req ∧ b.charged = none ∧ b.answered = none ∧
      ∃ m offered, b.allocated = some m ∧ offered ∈ b.offered ∧ m.instanceID = offered.id ∧
        i = charge offered) ∨
    ∃ region, kind = .scaleDownIfNecessary region ∧ i.status = .draining
  | .returnResult (.assigned _ id) =>
    b.answered = none ∧ ∃ m i, b.allocated = some m ∧ b.charged = some i ∧ m.id = id
  | .insertMandelboxes rows => ∀ m ∈ rows, m.status = .waiting ∧ m.userID = ""
  | .createMandelbox m => m.status = .waiting ∧ m.userID = ""
  | .writeMandelboxStatus status _ => status ≠ .waiting ∧ status ≠ .allocated
  | .removeMandelbox id => b.removed = none ∧ ∃ row ∈ b.found, row.id = id
  | .updateInstanceCapacity removed id =>
    b.released = none ∧ ∃ row ∈ b.found, ∃ n, b.removed = some (row.id,n) ∧ removed = n ∧
      row.instanceID = id
  | .writeInstanceStatus status _ => status = .draining
  | _ => True

def Settled (b : Books) : Prop :=
  b.failed = true ∨ ((b.allocated.isSome → b.charged.isSome) ∧
    ∀ id n, b.removed = some (id,n) → n ≠ 0 → b.released.isSome)

end Books

def bookkeeping (kind : Goroutine) : Contract Op Ans Books where
  track := Books.track
  trusts := Books.trusts
  may := Books.may kind

variable {cfg : Settings} {kind : Goroutine}

theorem Books.may_of_plain {op : Op} (h : Books.Plain op) (b : Books) : Books.may kind b op := by
  cases op <;> first | trivial | exact h.elim | skip
  rename_i result
  cases result
  · exact h.elim
  · trivial

theorem Books.track_of_plain {op : Op} (h : Books.Plain op) (b : Books) (r : Ans op) :
    b.track ⟨op,r⟩ = b := by
  cases op <;> first | rfl | exact h.elim | skip
  rename_i result
  cases result
  · exact h.elim
  · rfl

theorem wp_of_plain {α : Type} {p : Prog α} (h : p.Calls Books.Plain) (b : Books) :
    p.wp (bookkeeping kind) (fun b' _ => b' = b) b :=
  h.wp (fun _ hop => Books.may_of_plain hop b) (fun _ r hop => Books.track_of_plain hop b r)


theorem launchInstances_wp (n : ℤ) (region : String) (image : Image) (b : Books) :
    (launchInstances cfg n region image).run.wp (bookkeeping kind)
      (orElse (fun b' r => b' = b ∧ ∀ m ∈ r.2, World.IsFakeMandelbox m) fun b' _ => b' = b) b := by
  unfold launchInstances
  split_ifs
  · simp only [wp_run_liftM, spinUpFakeInstances, wp_perform]
    exact ⟨trivial,fun r hr => ⟨rfl,hr⟩⟩
  · simp only [wp_run_bind, wp_attemptOr, spinUpInstances, wp_perform]
    refine ⟨trivial,fun r _ => ?_⟩
    cases r with
    | error e => rfl
    | ok rows =>
      dsimp only [orElse]
      split_ifs
      · rfl
      · exact ⟨rfl,by simp⟩

theorem insertFakeMandelboxes_wp {rows : List Mandelbox} (h : ∀ m ∈ rows, World.IsFakeMandelbox m)
    (b : Books) :
    (insertFakeMandelboxes rows).run.wp (bookkeeping kind) (fun b' _ => b' = b) b := by
  unfold insertFakeMandelboxes
  split_ifs
  · rfl
  · simp only [wp_run_bind, wp_attemptOr, insertMandelboxes, wp_perform]
    refine ⟨fun m hm => ?_,fun r _ => ?_⟩
    · have hfake := h m hm
      rw [World.IsFakeMandelbox] at hfake
      rw [hfake]
      exact ⟨rfl,rfl⟩
    · cases r <;> rfl

theorem scaleUpIfNecessary_wp (n : ℤ) (region : String) (image : Image) (b : Books) :
    (scaleUpIfNecessary cfg n region image).run.wp (bookkeeping kind) (fun b' _ => b' = b) b := by
  unfold scaleUpIfNecessary
  simp only [wp_run_bind, wp_attemptOr, insertInstances, wp_perform]
  refine wp_mono (launchInstances_wp n region image b) (orElse_mono ?_ fun _ _ h => h)
  rintro b' launched ⟨rfl,hfake⟩
  refine ⟨trivial,fun r _ => ?_⟩
  cases r with
  | error e => rfl
  | ok affected => exact insertFakeMandelboxes_wp hfake _

theorem verifyCapacity_wp (region : String) (b : Books) :
    (verifyCapacity cfg region).run.wp (bookkeeping kind) (fun b' _ => b' = b) b := by
  unfold verifyCapacity
  simp only [wp_run_bind, wp_attempt, wp_attemptOr, queryInstancesByStatusOnRegion, wp_perform]
  refine wp_mono (wp_of_plain (queryLatestImage_calls (fun _ _ => trivial) _ _) b) ?_
  rintro b' image rfl
  cases image with
  | error e => rfl
  | ok image =>
    refine ⟨trivial,fun active _ => ?_⟩
    cases active with
    | error e => rfl
    | ok active =>
      refine ⟨trivial,fun starting _ => ?_⟩
      cases starting with
      | error e => rfl
      | ok starting =>
        dsimp only [orElse]
        split_ifs
        · exact scaleUpIfNecessary_wp _ _ _ _
        · rfl

theorem thenVerifyCapacity_wp {α : Type} {p : Prog α} (region : String) {Q : Books → Prop} {b : Books}
    (h : p.wp (bookkeeping kind) (fun b' _ => Q b') b) :
    (thenVerifyCapacity cfg region p).wp (bookkeeping kind) (fun b' _ => Q b') b := by
  unfold thenVerifyCapacity
  simp only [wp_bind, wp_pure]
  refine wp_mono h (fun b' _ hb' => ?_)
  refine wp_mono (verifyCapacity_wp region b') ?_
  rintro b'' _ rfl
  exact hb'

theorem tryInstances_cases (commitHash imageID : String) (rows : List Instance) (a : Option Instance) :
    (tryInstances commitHash imageID rows a).1 = a ∨
      ∃ i ∈ rows, (tryInstances commitHash imageID rows a).1 = some i := by
  induction rows generalizing a with
  | nil => exact Or.inl rfl
  | cons i rest ih =>
    unfold tryInstances
    split_ifs
    · exact Or.inr ⟨i,List.mem_cons_self,rfl⟩
    · rcases ih (some i) with h | ⟨j,hj,h⟩
      · exact Or.inr ⟨i,List.mem_cons_self,h⟩
      · exact Or.inr ⟨j,List.mem_cons_of_mem _ hj,h⟩

def Books.Found (offered : List Instance) (a : Option Instance) : Prop :=
  ∀ i, a = some i → i ∈ offered ∧ 0 < i.remainingCapacity

theorem tryRegions_wp (commitHash : String) (regions : List String) {a : Option Instance}
    {offered : List Instance} (ha : Books.Found offered a) :
    (tryRegions commitHash regions a).run.wp (bookkeeping kind)
      (orElse (fun b' a' => ∃ offered', b' = { offered := offered' } ∧ Books.Found offered' a')
        fun b' _ => ∃ offered', b' = { offered := offered' })
      { offered := offered } := by
  induction regions generalizing a offered with
  | nil => exact ⟨offered,rfl,ha⟩
  | cons region rest ih =>
    unfold tryRegions
    simp only [wp_run_bind, wp_attemptOr, queryInstanceWithCapacity, wp_perform]
    refine wp_mono (wp_of_plain (queryLatestImage_calls (fun _ _ => trivial) _ _) _) ?_
    rintro b' image rfl
    cases image with
    | error e => exact ⟨offered,rfl⟩
    | ok image =>
      refine ⟨trivial,fun rows hrows => ?_⟩
      cases rows with
      | error e => exact ⟨offered,rfl⟩
      | ok rows =>
        have hfound : Books.Found (offered ++ rows) (tryInstances commitHash image.imageID rows a).1 := by
          intro i hi
          rcases tryInstances_cases commitHash image.imageID rows a with h | ⟨j,hj,h⟩
          · exact (ha i (h ▸ hi)).imp_left (List.mem_append_left _)
          · obtain rfl : j = i := Option.some.inj (h.symm.trans hi)
            exact ⟨List.mem_append_right _ hj,(hrows j hj).2⟩
        dsimp only [orElse]
        split_ifs
        · exact ⟨offered ++ rows,rfl,hfound⟩
        · exact ih hfound

variable {region : String} {req : AssignRequest}

theorem chargeAndAnswer_wp {offered : List Instance} {waiting : List Mandelbox} {i : Instance}
    {row : Mandelbox} (hi : i ∈ offered) (hpos : 0 < i.remainingCapacity) (time : ℕ) :
    (chargeAndAnswer cfg i row.id).run.wp (bookkeeping (.mandelboxAssign region req))
      (fun b' _ => b'.Settled)
      { offered := offered, waiting := waiting, allocated := some (mandelboxForDb req i row time) } := by
  unfold chargeAndAnswer
  rw [if_neg (not_le.mpr hpos)]
  simp only [wp_run_bind, wp_attemptOr, updateInstance, wp_perform]
  refine ⟨Or.inl ⟨region,req,rfl,rfl,rfl,_,i,rfl,hi,rfl,rfl⟩,fun r _ => ?_⟩
  cases r with
  | error e => exact Or.inl rfl
  | ok n =>
    dsimp only [orElse]
    cases cfg.parseCIDR i.ipAddress with
    | error e => exact Or.inr ⟨fun _ => rfl,fun _ _ hremoved => by cases hremoved⟩
    | ok ip =>
      simp only [wp_run_liftM, returnResult, wp_perform]
      exact ⟨⟨rfl,_,_,rfl,rfl,rfl⟩,fun _ _ => Or.inr ⟨fun _ => rfl,fun _ _ hremoved => by cases hremoved⟩⟩

theorem Books.settled_of_none {b : Books} (ha : b.allocated = none) (hr : b.removed = none) :
    b.Settled :=
  Or.inr ⟨by simp [ha],by simp [hr]⟩

theorem allocate_wp {offered : List Instance} {i : Instance} (huser : req.userID ≠ "")
    (hi : i ∈ offered) (hpos : 0 < i.remainingCapacity) :
    (allocate cfg req i).run.wp (bookkeeping (.mandelboxAssign region req)) (fun b' _ => b'.Settled)
      { offered := offered } := by
  unfold allocate
  simp only [wp_run_bind, wp_attemptOr, queryMandelbox, wp_perform]
  refine ⟨trivial,fun r hr => ?_⟩
  rcases r with e | _ | ⟨row,rows⟩
  · exact Books.settled_of_none rfl rfl
  · exact Books.settled_of_none rfl rfl
  · have hrow := (hr row List.mem_cons_self).1
    simp only [orElse, wp_run_bind, wp_run_liftM, now, updateMandelbox, wp_attemptOr, wp_perform]
    refine ⟨trivial,fun time _ => ⟨?_,fun r _ => ?_⟩⟩
    · exact ⟨region,req,rfl,rfl,rfl,rfl,huser,i,hi,row,List.mem_cons_self,hrow,time,rfl⟩
    · cases r with
      | error e => exact Books.settled_of_none rfl rfl
      | ok n => exact chargeAndAnswer_wp hi hpos time

theorem refuse_wp {α : Type} (error : AssignError) (message : Option String) {b : Books} (h : b.Settled) :
    (refuse error message : AssignAction α).run.wp (bookkeeping kind) (fun b' _ => b'.Settled) b := by
  simp only [refuse, wp_run_bind, wp_run_liftM, wp_run_throw, returnResult, wp_perform]
  exact ⟨trivial,fun _ _ => h⟩

theorem assignInRegions_wp (huser : req.userID ≠ "") :
    (assignInRegions cfg region req).run.wp (bookkeeping (.mandelboxAssign region req))
      (fun b' _ => b'.Settled) {} := by
  have hempty : Books.Settled {} := Books.settled_of_none rfl rfl
  unfold assignInRegions
  simp only [wp_run_bind, wp_attemptOr]
  refine wp_mono (wp_of_plain (queryLatestImage_calls (fun _ _ => trivial) _ _) _) ?_
  rintro b' image rfl
  cases image with
  | error e => exact hempty
  | ok image =>
    simp only [orElse]
    generalize (if (cfg.isLocalEnv || decide (req.commitHash = clientCommitHashDevOverride)) = true
      then image.clientSHA else req.commitHash) = commitHash
    have hfound₀ : Books.Found [] none := fun _ h => by cases h
    refine wp_mono (tryRegions_wp commitHash _ hfound₀) (orElse_mono ?_ ?_)
    · rintro b' a ⟨offered,rfl,hfound⟩
      have hsettled : Books.Settled { offered := offered } := Books.settled_of_none rfl rfl
      cases a with
      | none => exact refuse_wp _ _ hsettled
      | some i =>
        by_cases hsha : i.clientSHA ≠ commitHash
        · simp only [if_pos hsha]
          exact refuse_wp _ _ hsettled
        · simp only [if_neg hsha]
          obtain ⟨hi,hpos⟩ := hfound i rfl
          exact allocate_wp huser hi hpos
    · rintro b' e ⟨offered,rfl⟩
      exact Books.settled_of_none rfl rfl

theorem assignBody_wp :
    (assignBody cfg region req).run.wp (bookkeeping (.mandelboxAssign region req))
      (fun b' _ => b'.Settled) {} := by
  have hempty : Books.Settled {} := Books.settled_of_none rfl rfl
  unfold assignBody
  simp only [wp_run_bind, wp_attemptOr]
  by_cases huser : req.userID = ""
  · rw [checkForExistingMandelbox, if_pos huser]
    exact hempty
  · refine wp_mono (wp_of_plain (checkForExistingMandelbox_calls (fun _ => trivial) cfg _) _) ?_
    rintro b' r rfl
    cases r with
    | error e => exact hempty
    | ok should =>
      dsimp only [orElse]
      split_ifs
      · exact refuse_wp _ _ hempty
      · exact refuse_wp _ _ hempty
      · exact assignInRegions_wp huser

theorem mandelboxAssign_wp :
    (mandelboxAssign cfg region req).wp (bookkeeping (.mandelboxAssign region req))
      (fun b' _ => b'.Settled) {} := by
  refine thenVerifyCapacity_wp (Q := Books.Settled) region ?_
  simp only [wp_bind]
  refine wp_mono assignBody_wp (fun b' r hb' => ?_)
  rcases r with (_ | _) | _
  · exact ⟨trivial,fun _ _ => hb'⟩
  · exact hb'
  · exact hb'

def Books.Idle (b : Books) : Prop := b.allocated = none ∧ b.removed = none

theorem Books.Idle.settled {b : Books} (h : b.Idle) : b.Settled := Books.settled_of_none h.1 h.2

theorem markDrainingInstances_wp (rows : List Instance) {b : Books} (hb : b.Idle) :
    (markDrainingInstances rows).run.wp (bookkeeping (.scaleDownIfNecessary region))
      (fun b' _ => b'.Idle) b := by
  induction rows generalizing b with
  | nil => exact hb
  | cons i rest ih =>
    unfold markDrainingInstances
    simp only [wp_run_bind, wp_attemptOr, updateInstance, wp_perform]
    refine ⟨Or.inr ⟨region,rfl,rfl⟩,fun r _ => ?_⟩
    cases r with
    | error e => exact hb
    | ok n => exact ih hb

theorem scaleDownLocked_wp (image : Image) (allActive : List Instance) :
    (scaleDownLocked cfg region image allActive).run.wp (bookkeeping (.scaleDownIfNecessary region))
      (fun b' _ => b'.Idle) {} := by
  have hidle : Books.Idle {} := ⟨rfl,rfl⟩
  unfold scaleDownLocked
  simp only [wp_run_bind, wp_run_liftM, wp_attemptOr, readProtected, queryInstancesByStatusOnRegion,
    wp_perform]
  refine ⟨trivial,fun images _ => ⟨trivial,fun draining _ => ?_⟩⟩
  cases draining with
  | error e => exact hidle
  | ok draining =>
    refine wp_mono (wp_of_plain (findLingering_calls trivial _ _) _) ?_
    rintro b' lingering rfl
    refine wp_mono (wp_of_plain (terminateLingering_calls (fun _ => trivial) cfg _) _) ?_
    rintro b' r rfl
    cases r with
    | error e => exact hidle
    | ok r =>
      refine wp_mono (wp_of_plain (verifyRemovals_calls (fun _ => trivial) (fun _ => trivial)
        (fun _ => trivial) _) _) ?_
      rintro b' r rfl
      cases r with
      | error e => exact hidle
      | ok r => exact markDrainingInstances_wp _ hidle

theorem withProtectedLocked_wp {action : Action Unit} {Q : Books → Prop} {b : Books}
    (h : action.run.wp (bookkeeping kind) (fun b' _ => Q b') b) :
    (withProtectedLocked region action).run.wp (bookkeeping kind) (fun b' _ => Q b') b := by
  refine ⟨trivial,fun _ _ => ?_⟩
  change (action.run >>= _).wp _ _ _
  rw [wp_bind]
  exact wp_mono h fun b' r hb' => ⟨trivial,fun _ _ => hb'⟩

theorem scaleDownIfNecessary_wp :
    (scaleDownIfNecessary cfg region).wp (bookkeeping (.scaleDownIfNecessary region))
      (fun b' _ => b'.Settled) {} := by
  have hidle : Books.Idle {} := ⟨rfl,rfl⟩
  refine thenVerifyCapacity_wp (Q := Books.Settled) region (wp_mono ?_ fun b' _ => Books.Idle.settled)
  unfold scaleDownBody
  simp only [wp_run_bind, wp_attempt, wp_attemptOr, queryInstancesByStatusOnRegion, wp_perform]
  refine wp_mono (wp_of_plain (queryLatestImage_calls (fun _ _ => trivial) _ _) _) ?_
  rintro b' image rfl
  cases image with
  | error e => exact hidle
  | ok image =>
    refine ⟨trivial,fun active _ => ?_⟩
    cases active with
    | error e => exact hidle
    | ok active => exact withProtectedLocked_wp (Q := Books.Idle) (scaleDownLocked_wp image active)

theorem settled_of_plain {p : Prog Unit} (h : p.Calls Books.Plain) :
    p.wp (bookkeeping kind) (fun b' _ => b'.Settled) {} :=
  wp_mono (wp_of_plain h {}) (by
    rintro b' _ rfl
    exact Books.settled_of_none rfl rfl)

theorem verifyInstanceScaleDown_wp (drained : Instance) :
    (verifyInstanceScaleDown cfg region drained).wp (bookkeeping kind) (fun b' _ => b'.Settled) {} := by
  refine thenVerifyCapacity_wp (Q := Books.Settled) region ?_
  refine wp_mono (wp_of_plain (p := (verifyScaleDownBody drained).run) ?_ {}) ?_
  · refine Calls.run_bind (calls_attemptOr ⟨trivial,fun _ => trivial⟩) (fun rows => ?_)
    split_ifs
    · trivial
    · exact verifyInstanceRemoval_calls (fun _ => trivial) (fun _ => trivial) (fun _ => trivial) _
  · rintro b' _ rfl
    exact Books.settled_of_none rfl rfl

theorem launchBuffer_wp (newImage : Image) (b : Books) :
    (launchBuffer cfg region newImage).run.wp (bookkeeping kind)
      (orElse (fun b' r => b' = b ∧ ∀ m ∈ r.2, World.IsFakeMandelbox m) fun b' _ => b' = b) b := by
  unfold launchBuffer
  split_ifs
  · simp only [wp_run_liftM, spinUpFakeInstances, wp_perform]
    exact ⟨trivial,fun r hr => ⟨rfl,hr⟩⟩
  · simp only [wp_run_bind, wp_attemptOr, spinUpInstances, wp_perform]
    refine ⟨trivial,fun r _ => ?_⟩
    cases r with
    | error e => rfl
    | ok rows => exact ⟨rfl,by simp⟩

theorem upgradeImageBody_wp (imageID : String) (b : Books) :
    (upgradeImageBody cfg region imageID).run.wp (bookkeeping kind) (fun b' _ => b' = b) b := by
  unfold upgradeImageBody
  simp only [wp_run_bind, wp_run_liftM, wp_attemptOr, now, queryImage, insertInstances, wp_perform]
  refine ⟨trivial,fun time _ => ⟨trivial,fun images _ => ?_⟩⟩
  cases images with
  | error e => rfl
  | ok images =>
    refine wp_mono (launchBuffer_wp _ _) (orElse_mono ?_ fun _ _ h => h)
    rintro b' launched ⟨rfl,hfake⟩
    refine ⟨trivial,fun r _ => ?_⟩
    cases r with
    | error e => rfl
    | ok affected =>
      refine wp_mono (wp_of_plain (replaceProtected_calls trivial (fun _ => trivial) trivial _) _) ?_
      rintro b'' r rfl
      cases r with
      | error e => rfl
      | ok r =>
        refine wp_mono (wp_of_plain (insertFirstImage_calls trivial (fun _ => trivial) _ _) _) ?_
        rintro b' r rfl
        cases r with
        | error e => rfl
        | ok r =>
          refine wp_mono (insertFakeMandelboxes_wp hfake _) ?_
          rintro b'' r rfl
          cases r with
          | error e => rfl
          | ok r => exact wp_of_plain (awaitSwap_calls trivial trivial (fun _ => trivial) trivial) _

theorem upgradeImage_wp (imageID : Option String) :
    (upgradeImage cfg region imageID).wp (bookkeeping kind) (fun b' _ => b'.Settled) {} := by
  have hidle : Books.Idle {} := ⟨rfl,rfl⟩
  cases imageID with
  | none => exact hidle.settled
  | some imageID =>
    simp only [upgradeImage, wp_bind]
    refine wp_mono (upgradeImageBody_wp imageID {}) ?_
    rintro b' r rfl
    exact hidle.settled

theorem swapOverImages_calls (version : FrontendVersion) :
    (swapOverImages cfg region version).Calls Books.Plain := by
  refine Calls.bind (Calls.run_bind (Calls.run_liftM ⟨trivial,fun _ => trivial⟩) (fun result => ?_))
    fun _ => trivial
  cases result with
  | timedOut => exact Calls.run_bind (replaceProtected_calls trivial (fun _ => trivial) trivial _) fun _ => trivial
  | done =>
    refine Calls.bind (p := lockProtectedMap region) ⟨trivial,fun _ => trivial⟩ (fun _ => ?_)
    refine Calls.bind ?_ (fun _ => Calls.bind (p := unlockProtectedMap region) ⟨trivial,fun _ => trivial⟩
      fun _ => trivial)
    refine Calls.run_bind (Calls.run_liftM ⟨trivial,fun _ => trivial⟩) (fun images => ?_)
    cases images.find? fun entry => entry.2.clientSHA = cfg.commitHash version with
    | none => trivial
    | some entry =>
      refine Calls.run_bind (calls_attemptOr ⟨trivial,fun _ => trivial⟩) (fun rows => ?_)
      refine Calls.run_bind ?_ fun _ => Calls.run_liftM ⟨trivial,fun _ => trivial⟩
      unfold swapImage
      split_ifs
      · exact Calls.run_bind (calls_attemptOr ⟨trivial,fun _ => trivial⟩) fun _ => trivial
      · exact Calls.run_bind (calls_attemptOr ⟨trivial,fun _ => trivial⟩) fun _ => trivial

theorem affecting_calls {P : Op → Prop} {p : Prog (Except String ℕ)} (h : p.Calls P) (message : String) :
    (affecting message p).run.Calls P := by
  refine Calls.run_bind h (fun n => ?_)
  split_ifs <;> trivial

theorem logged_calls {P : Op → Prop} {action : Action Unit} (h : action.run.Calls P) :
    (logged action).Calls P :=
  Calls.bind h fun _ => trivial

theorem registerInstance_calls (host : HostMetadata) : (registerInstance host).run.Calls Books.Plain := by
  refine Calls.run_bind (calls_attemptOr ⟨trivial,fun _ => trivial⟩) (fun rows => ?_)
  cases rows with
  | nil => trivial
  | cons row rest =>
    dsimp only
    cases registrationMismatch host row with
    | some message => trivial
    | none =>
      refine Calls.run_bind (Calls.run_liftM ⟨trivial,fun _ => trivial⟩) (fun time => ?_)
      exact affecting_calls ((calls_perform _ _).mpr trivial) _

theorem spinUpMandelboxes_wp (app instanceID : String) (n : ℕ) (b : Books) :
    (spinUpMandelboxes app instanceID n).wp (bookkeeping kind) (fun b' _ => b' = b) b := by
  induction n with
  | zero => rfl
  | succ n ih =>
    unfold spinUpMandelboxes
    simp only [wp_bind, wp_perform, now]
    refine ⟨trivial,fun id _ => ⟨trivial,fun r _ => ?_⟩⟩
    cases r with
    | error e => rfl
    | ok r => exact ⟨trivial,fun time _ => ⟨⟨rfl,rfl⟩,fun r _ => ih⟩⟩

theorem monitorWaitingMandelboxes_wp (app instanceID : String) (b : Books) :
    (monitorWaitingMandelboxes app instanceID).run.wp (bookkeeping kind) (fun b' _ => b' = b) b := by
  unfold monitorWaitingMandelboxes getInstanceCapacity
  simp only [wp_run_bind, wp_run_liftM, wp_attemptOr, queryInstance, wp_perform]
  refine ⟨trivial,fun rows _ => ?_⟩
  rcases rows with e | _ | ⟨row,rows⟩
  · rfl
  · rfl
  · exact ⟨trivial,fun count _ => spinUpMandelboxes_wp app instanceID _ b⟩

theorem writeMandelboxStatus_wp (id : String) {status : MandelboxStatus}
    (h : status ≠ .waiting ∧ status ≠ .allocated) (b : Books) :
    (writeMandelboxStatus id status).run.wp (bookkeeping kind) (fun b' _ => b' = b) b := by
  unfold writeMandelboxStatus affecting
  simp only [wp_run_bind, wp_attempt, wp_perform]
  refine ⟨h,fun r _ => ?_⟩
  cases r with
  | error e => rfl
  | ok n =>
    dsimp only [orElse]
    split_ifs <;> rfl

theorem finishMandelboxSpinUp_wp (userID mandelboxID instanceID : String) :
    (finishMandelboxSpinUp userID mandelboxID instanceID).run.wp (bookkeeping kind)
      (fun b' _ => b'.Idle) {} := by
  unfold finishMandelboxSpinUp verifyAllocatedMandelbox
  simp only [wp_run_bind, wp_attempt, wp_attemptOr, findMandelboxByID, wp_perform]
  refine ⟨trivial,fun rows _ => ?_⟩
  rcases rows with e | _ | ⟨row,rows⟩
  · exact ⟨rfl,rfl⟩
  · exact ⟨rfl,rfl⟩
  · dsimp only [orElse]
    split_ifs
    · exact ⟨rfl,rfl⟩
    · exact ⟨rfl,rfl⟩
    · refine wp_mono (writeMandelboxStatus_wp mandelboxID (by decide) _) ?_
      rintro b' r rfl
      cases r with
      | error e => exact ⟨rfl,rfl⟩
      | ok r =>
        refine ⟨trivial,fun r _ => ?_⟩
        cases r with
        | error e => exact ⟨rfl,rfl⟩
        | ok r =>
          refine wp_mono (writeMandelboxStatus_wp mandelboxID (by decide) _) ?_
          rintro b' r rfl
          exact ⟨rfl,rfl⟩

theorem removeMandelbox_wp (mandelboxID : String) :
    (removeMandelbox mandelboxID).run.wp (bookkeeping kind) (fun b' _ => b'.Settled) {} := by
  have hidle : Books.Idle {} := ⟨rfl,rfl⟩
  unfold removeMandelbox
  simp only [wp_run_bind, wp_attemptOr, findMandelboxByID, wp_perform]
  refine ⟨trivial,fun rows hrows => ?_⟩
  rcases rows with e | _ | ⟨row,rows⟩
  · exact hidle.settled
  · exact hidle.settled
  · obtain rfl : row.id = mandelboxID := hrows row List.mem_cons_self
    have hrow : row ∈ [] ++ row :: rows := List.mem_cons_self
    simp only [orElse, wp_run_bind, wp_attemptOr, wp_perform]
    refine ⟨⟨rfl,row,hrow,rfl⟩,fun r _ => ?_⟩
    cases r with
    | error e => exact Books.settled_of_none rfl rfl
    | ok n =>
      dsimp only [orElse]
      by_cases hn : n = 0
      · rw [if_pos hn]
        refine Or.inr ⟨fun h => (by cases h),fun id m hm hne => ?_⟩
        cases hm
        exact absurd hn hne
      · rw [if_neg hn]
        simp only [wp_run_bind, wp_attemptOr, wp_perform]
        refine ⟨⟨rfl,row,hrow,n,rfl,rfl,rfl⟩,fun r _ => ?_⟩
        cases r with
        | error e => exact Or.inl rfl
        | ok affected => exact Or.inr ⟨fun h => (by cases h),fun _ _ _ _ => rfl⟩

theorem closeMandelbox_wp (mandelboxID : String) :
    (closeMandelbox mandelboxID).wp (bookkeeping kind) (fun b' _ => b'.Settled) {} := by
  unfold closeMandelbox
  simp only [wp_bind]
  refine wp_mono (writeMandelboxStatus_wp mandelboxID (by decide) {}) ?_
  rintro b' r rfl
  exact wp_mono (removeMandelbox_wp mandelboxID) fun _ _ h => h

theorem markDraining_wp (instanceID : String) :
    (logged (markDraining instanceID)).wp (bookkeeping kind) (fun b' _ => b'.Settled) {} := by
  have hidle : Books.Idle {} := ⟨rfl,rfl⟩
  unfold logged markDraining affecting
  simp only [wp_bind, wp_run_bind, wp_attempt, wp_perform]
  refine ⟨rfl,fun r _ => ?_⟩
  cases r with
  | error e => exact hidle.settled
  | ok n =>
    dsimp only [orElse]
    split_ifs <;> exact hidle.settled

def Books.settles (_ : Goroutine) (b : Books) (_ : Unit) : Prop := b.Settled

theorem body_wp (kind : Goroutine) :
    (body cfg kind).wp (bookkeeping kind) (Books.settles kind) {} := by
  have hidle : Books.Idle {} := ⟨rfl,rfl⟩
  cases kind with
  | mandelboxAssign region req => exact mandelboxAssign_wp
  | scaleDownIfNecessary region => exact scaleDownIfNecessary_wp
  | verifyInstanceScaleDown region drained => exact verifyInstanceScaleDown_wp drained
  | upgradeImage region imageID => exact upgradeImage_wp imageID
  | swapOverImages region version => exact settled_of_plain (swapOverImages_calls version)
  | registerInstance host => exact settled_of_plain (logged_calls (registerInstance_calls host))
  | spinUpMandelboxes app instanceID n =>
    refine wp_mono (spinUpMandelboxes_wp app instanceID n {}) ?_
    rintro b' _ rfl
    exact hidle.settled
  | monitorWaitingMandelboxes app instanceID =>
    unfold body logged
    simp only [wp_bind]
    refine wp_mono (monitorWaitingMandelboxes_wp app instanceID {}) ?_
    rintro b' _ rfl
    exact hidle.settled
  | finishMandelboxSpinUp userID mandelboxID instanceID =>
    unfold body logged
    simp only [wp_bind]
    exact wp_mono (finishMandelboxSpinUp_wp userID mandelboxID instanceID) fun _ _ h => h.settled
  | closeMandelbox mandelboxID => exact closeMandelbox_wp mandelboxID
  | writeHeartbeat instanceID =>
    exact settled_of_plain (logged_calls (affecting_calls ((calls_perform _ _).mpr trivial) _))
  | markDraining instanceID => exact markDraining_wp instanceID
  | unregisterInstance instanceID =>
    exact settled_of_plain (logged_calls (affecting_calls ((calls_perform _ _).mpr trivial) _))

end Whist.Scaling
