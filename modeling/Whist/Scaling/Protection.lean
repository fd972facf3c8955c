import Whist.Scaling.GoroutineCalls
import Whist.Scaling.Replies

/-! # The protection of an image during its deploy -/
namespace Whist.Scaling
open Program Client

/-- An action owes the release of a protection once it has written it or was handed it, and clears the map
once its wait has timed out. -/
structure Deploy where
  owes : Bool
  clears : Bool
  failed : Bool

def givesUp (commitHash : String) : (op : Op) → Ans op → Bool
  | .queryImage _ _, .error _ | .spinUpInstances _ _ _, .error _ | .insertInstances _, .error _
  | .insertImages _, .error _ | .insertMandelboxes _, .error _ | .updateImage _, .error _ => true
  | .readProtected _, images => !images.any fun entry => decide (entry.2.clientSHA = commitHash)
  | _, _ => false

def timesOut : (op : Op) → Ans op → Bool
  | .sendSync _, .timedOut | .receiveSync _, .timedOut => true
  | _, _ => false

namespace Deploy

def start : Deploy := ⟨false,false,false⟩

def track (commitHash : String) (d : Deploy) : Event Op Ans → Deploy
  | ⟨.writeProtected _ images,_⟩ => { d with owes := !images.isEmpty, clears := false }
  | ⟨.sendSync _,.done⟩ => { d with owes := false }
  | ⟨.receiveSync _,.done⟩ => { d with owes := true }
  | ⟨op,r⟩ =>
    if givesUp commitHash op r then { d with owes := false, failed := true }
    else if timesOut op r then { d with clears := true }
    else d

structure Over (d : Deploy) : Prop where
  owes : d.owes = false
  clears : d.clears = false

structure Holds (d : Deploy) : Prop where
  owes : d.owes = true
  clears : d.clears = false
  failed : d.failed = false

structure Fresh (d : Deploy) : Prop where
  owes : d.owes = false
  clears : d.clears = false
  failed : d.failed = false

end Deploy

def AtMostOne (images : ProtectedMap) : Prop :=
  images = [] ∨ ∃ image : Image, images = [(image.imageID,image)]

def ReadsOne (region : String) (_ : Deploy) : (op : Op) → Ans op → Prop
  | .readProtected region', images => region' = region → AtMostOne images
  | _, _ => True

def DeployMay (region : String) (d : Deploy) : Op → Prop
  | .writeProtected region' images => region' = region ∧ d.failed = false ∧ AtMostOne images ∧ (d.clears = true → images = [])
  | .sendSync _ => d.Holds
  | .receiveSync _ => d.Fresh
  | .readProtected region' => region' = region ∧ d.Holds
  | _ => True

def deploying (region commitHash : String) : Contract Op Ans Deploy where
  track := Deploy.track commitHash
  trusts := ReadsOne region
  may := DeployMay region

variable {cfg : Settings} {region commitHash : String} {d : Deploy}

theorem replaceProtected_deploys {images : ProtectedMap} (hfailed : d.failed = false)
    (hone : AtMostOne images) (hclears : d.clears = true → images = []) :
    (replaceProtected region images).run.wp (deploying region commitHash)
      (orElse (fun d' _ => d' = ⟨!images.isEmpty,false,false⟩) fun _ _ => False) d := by
  unfold replaceProtected lockProtectedMap writeProtected unlockProtectedMap
  simp only [wp_run_bind, wp_run_liftM, wp_perform]
  refine ⟨trivial,fun _ _ => ⟨⟨rfl,hfailed,hone,hclears⟩,fun _ _ => ⟨trivial,fun _ _ => ?_⟩⟩⟩
  obtain ⟨owes,clears,failed⟩ := d
  cases hfailed
  rfl

theorem clearProtected_deploys (hfailed : d.failed = false) :
    (replaceProtected region []).run.wp (deploying region commitHash)
      (orElse (fun d' _ => d'.Over) fun _ _ => False) d := by
  refine wp_mono (replaceProtected_deploys hfailed (Or.inl rfl) fun _ => rfl)
    (orElse_mono ?_ fun _ _ h => h.elim)
  rintro d' - rfl
  exact ⟨rfl,rfl⟩

theorem insertFirstImage_deploys {newImage : Image} {rows : List Image} (hd : d.clears = false) :
    (insertFirstImage newImage rows).run.wp (deploying region commitHash)
      (orElse (fun d' _ => d' = d) fun d' _ => d'.Over) d := by
  unfold insertFirstImage now insertImages
  split_ifs
  · simp only [wp_run_bind, wp_run_liftM, wp_perform, wp_attemptOr]
    refine ⟨trivial,fun time _ => ⟨trivial,fun r _ => ?_⟩⟩
    cases r with
    | error e => exact ⟨rfl,hd⟩
    | ok n => rfl
  · rfl

theorem insertFakeMandelboxes_deploys {rows : List Mandelbox} (hd : d.clears = false) :
    (insertFakeMandelboxes rows).run.wp (deploying region commitHash)
      (orElse (fun d' _ => d' = d) fun d' _ => d'.Over) d := by
  unfold insertFakeMandelboxes insertMandelboxes
  split_ifs
  · rfl
  · simp only [wp_run_bind, wp_perform, wp_attemptOr]
    refine ⟨trivial,fun r _ => ?_⟩
    cases r with
    | error e => exact ⟨rfl,hd⟩
    | ok n => rfl

theorem awaitSwap_deploys (hd : d.Holds) :
    (awaitSwap region).run.wp (deploying region commitHash) (fun d' _ => d'.Over) d := by
  unfold awaitSwap sendSync
  simp only [wp_run_bind, wp_run_liftM, wp_perform]
  refine ⟨hd,fun r _ => ?_⟩
  cases r with
  | done => exact ⟨rfl,hd.clears⟩
  | timedOut =>
    change (replaceProtected region [] >>= _).run.wp _ _ _
    rw [wp_run_bind]
    exact wp_mono (clearProtected_deploys hd.failed) (orElse_mono (fun _ _ h => h) fun _ _ h => h.elim)

theorem launchBuffer_deploys {newImage : Image} (hd : d.Fresh) :
    (launchBuffer cfg region newImage).run.wp (deploying region commitHash)
      (orElse (fun d' _ => d' = d) fun d' _ => d'.Over) d := by
  unfold launchBuffer spinUpFakeInstances spinUpInstances
  split_ifs
  · simp only [wp_run_liftM, wp_perform]
    exact ⟨trivial,fun _ _ => rfl⟩
  · simp only [wp_run_bind, wp_perform, wp_attemptOr]
    refine ⟨trivial,fun r _ => ?_⟩
    cases r with
    | error e => exact ⟨rfl,hd.clears⟩
    | ok rows => rfl

theorem upgradeImage_deploys (hd : d.Fresh) (imageID : Option String) :
    (upgradeImage cfg region imageID).wp (deploying region commitHash) (fun d' _ => d'.Over) d := by
  cases imageID with
  | none => exact ⟨hd.owes,hd.clears⟩
  | some imageID =>
    unfold upgradeImage upgradeImageBody now queryImage insertInstances
    simp only [wp_bind, wp_run_bind, wp_run_liftM, wp_perform, wp_attemptOr, wp_pure]
    refine ⟨trivial,fun time _ => ⟨trivial,fun images _ => ?_⟩⟩
    cases images with
    | error e => exact ⟨rfl,hd.clears⟩
    | ok images =>
      refine wp_mono (launchBuffer_deploys hd) ?_
      rintro d' (e | launched) hlaunched
      · exact hlaunched
      · obtain rfl : d' = d := hlaunched
        refine ⟨trivial,fun n _ => ?_⟩
        cases n with
        | error e => exact ⟨rfl,hd.clears⟩
        | ok n =>
          refine wp_mono (replaceProtected_deploys hd.failed
            (Or.inr ⟨⟨"AWS",region,imageID,cfg.gitCommit,time⟩,rfl⟩)
            fun h => absurd (hd.clears.symm.trans h) Bool.false_ne_true) (orElse_mono ?_ fun _ _ h => h.elim)
          rintro d' - rfl
          refine wp_mono (insertFirstImage_deploys rfl) (orElse_mono ?_ fun _ _ h => h)
          rintro d' - rfl
          refine wp_mono (insertFakeMandelboxes_deploys rfl) (orElse_mono ?_ fun _ _ h => h)
          rintro d' - rfl
          exact awaitSwap_deploys ⟨rfl,rfl,rfl⟩

theorem swapImage_deploys {newImage : Image} {rows : List Image} (hd : d.clears = false) :
    (swapImage newImage rows).run.wp (deploying region commitHash)
      (orElse (fun d' _ => d' = d) fun d' _ => d'.Over) d := by
  unfold swapImage insertImages updateImage
  split_ifs
  · simp only [wp_run_bind, wp_perform, wp_attemptOr]
    refine ⟨trivial,fun r _ => ?_⟩
    cases r with
    | error e => exact ⟨rfl,hd⟩
    | ok n => rfl
  · simp only [wp_run_bind, wp_perform, wp_attemptOr]
    refine ⟨trivial,fun r _ => ?_⟩
    cases r with
    | error e => exact ⟨rfl,hd⟩
    | ok n => rfl

theorem swapLocked_deploys (hd : d.Holds) :
    (swapLocked region commitHash).run.wp (deploying region commitHash) (fun d' _ => d'.Over) d := by
  unfold swapLocked readProtected queryImage
  simp only [wp_run_bind, wp_run_liftM, wp_perform]
  refine ⟨⟨rfl,hd⟩,fun images himages => ?_⟩
  dsimp only [orElse]
  cases hfind : images.find? fun entry => decide (entry.2.clientSHA = commitHash) with
  | none =>
    have hnone : (images.any fun entry => decide (entry.2.clientSHA = commitHash)) = false := by
      rw [List.any_eq_false]
      exact List.find?_eq_none.mp hfind
    have htrack : (deploying region commitHash).track d ⟨.readProtected region,images⟩ =
        { d with owes := false, failed := true } := by
      change (if (!_) = true then _ else _) = _
      rw [hnone]
      rfl
    simp only [htrack]
    exact ⟨rfl,hd.clears⟩
  | some entry =>
    have hmem := List.mem_of_find?_eq_some hfind
    have hany : (images.any fun entry => decide (entry.2.clientSHA = commitHash)) = true :=
      List.any_eq_true.mpr ⟨entry,hmem,@List.find?_some _
        (fun entry : String × Image => decide (entry.2.clientSHA = commitHash)) _ _ hfind⟩
    have htrack : (deploying region commitHash).track d ⟨.readProtected region,images⟩ = d := by
      change (if (!_) = true then _ else _) = _
      rw [hany]
      rfl
    simp only [htrack, wp_run_bind, wp_run_liftM, wp_perform, wp_attemptOr]
    refine ⟨trivial,fun rows _ => ?_⟩
    cases rows with
    | error e => exact ⟨rfl,hd.clears⟩
    | ok rows =>
      refine wp_mono (swapImage_deploys hd.clears) (orElse_mono ?_ fun _ _ h => h)
      rintro d' - rfl
      -- without its image the map of one image is empty
      have hempty : images.filter (fun other => decide (other.1 ≠ entry.2.imageID)) = [] := by
        rcases himages rfl with rfl | ⟨image,rfl⟩
        · rfl
        · obtain rfl := List.mem_singleton.mp hmem
          simp
      rw [hempty]
      exact ⟨⟨rfl,hd.failed,Or.inl rfl,fun _ => rfl⟩,fun _ _ => ⟨rfl,rfl⟩⟩

theorem swapOverImages_deploys (hd : d.Fresh) (version : FrontendVersion) :
    (swapOverImages cfg region version).wp (deploying region (cfg.commitHash version))
      (fun d' _ => d'.Over) d := by
  unfold swapOverImages swapOverImagesBody receiveSync
  simp only [wp_bind, wp_run_bind, wp_run_liftM, wp_perform, wp_pure]
  refine ⟨hd,fun r _ => ?_⟩
  cases r with
  | timedOut =>
    change (replaceProtected region [] >>= _).run.wp _ _ _
    rw [wp_run_bind]
    exact wp_mono (clearProtected_deploys hd.failed) (orElse_mono (fun _ _ h => h) fun _ _ h => h.elim)
  | done =>
    unfold withProtectedLocked lockProtectedMap unlockProtectedMap
    change Program.wp (deploying region (cfg.commitHash version)) (_ >>= _) _ _
    simp only [wp_bind, wp_perform, wp_pure]
    refine ⟨trivial,fun _ _ => wp_mono (swapLocked_deploys ⟨rfl,hd.clears,hd.failed⟩) ?_⟩
    intro d' result hover
    exact ⟨trivial,fun _ _ => hover⟩

def Goroutine.soughtCommit (cfg : Settings) : Goroutine → String
  | .swapOverImages _ version => cfg.commitHash version
  | _ => ""

def deployContract (cfg : Settings) (region : String) (kind : Goroutine) : Contract Op Ans Deploy :=
  if kind.deployRegion = some region then deploying region (kind.soughtCommit cfg)
  else tracking (Deploy.track (kind.soughtCommit cfg))

def DeployPost (region : String) (kind : Goroutine) (d : Deploy) (_ : Unit) : Prop :=
  kind.deployRegion = some region → d.Over

theorem body_deploys (cfg : Settings) (region : String) (kind : Goroutine) :
    (body cfg kind).wp (deployContract cfg region kind) (DeployPost region kind) .start := by
  by_cases hregion : kind.deployRegion = some region
  · unfold deployContract
    rw [if_pos hregion]
    cases kind with
    | upgradeImage region' imageID =>
      obtain rfl : region' = region := Option.some.inj hregion
      exact wp_mono (upgradeImage_deploys ⟨rfl,rfl,rfl⟩ imageID) fun _ _ h _ => h
    | swapOverImages region' version =>
      obtain rfl : region' = region := Option.some.inj hregion
      exact wp_mono (swapOverImages_deploys ⟨rfl,rfl,rfl⟩ version) fun _ _ h _ => h
    | _ => cases hregion
  · unfold deployContract
    rw [if_neg hregion]
    exact wp_mono (wp_tracking _ _) fun _ _ _ h => absurd h hregion

theorem deployContract_track (kind : Goroutine) :
    (deployContract cfg region kind).track = Deploy.track (kind.soughtCommit cfg) := by
  unfold deployContract
  split_ifs <;> rfl

def deployOf (cfg : Settings) (region : String) (p : Process Goroutine Op Ans) : Deploy :=
  if p.kind.deployRegion = some region then p.view (Deploy.track (p.kind.soughtCommit cfg)) .start
  else .start

variable {s t : System} {mv : SystemMove} {pid : ℕ} {p : Process Goroutine Op Ans}

def System.deploy (cfg : Settings) (region : String) (s : System) (i : ℕ) : Deploy :=
  (s.processes[i]?.map (deployOf cfg region)).getD .start

theorem System.deploy_of_process (h : s.processes[pid]? = some p) :
    s.deploy cfg region pid = deployOf cfg region p := by
  rw [deploy, h]
  rfl

theorem deployOf_advance {e : Event Op Ans} {rest : Prog Unit} (h : p.kind.deployRegion = some region) :
    deployOf cfg region (p.advance e rest) = (deployOf cfg region p).track (p.kind.soughtCommit cfg) e := by
  unfold deployOf
  rw [Process.kind_advance, if_pos h, if_pos h, Process.view_advance]

theorem deployOf_advance_of_ne {e : Event Op Ans} {rest : Prog Unit} (h : p.kind.deployRegion ≠ some region) :
    deployOf cfg region (p.advance e rest) = deployOf cfg region p := by
  unfold deployOf
  rw [Process.kind_advance, if_neg h, if_neg h]

def System.Deploys (cfg : Settings) (region : String) (s : System) : Prop :=
  ∀ (i : ℕ) p, s.processes[i]? = some p →
    Pool.Honours (deployContract cfg region) (fun _ => Deploy.start) (DeployPost region) p

theorem System.Deploys.may (hs : s.Deploys cfg region) {op : Op} {next : Ans op → Prog Unit}
    (hcall : s.AtCall pid p op next) (hregion : p.kind.deployRegion = some region) :
    DeployMay region (s.deploy cfg region pid) op := by
  have hmay := (hs pid p hcall.1).may hcall
  rw [deployContract_track] at hmay
  unfold deployContract at hmay
  rw [if_pos hregion] at hmay
  rw [deploy_of_process hcall.1, deployOf, if_pos hregion]
  exact hmay

theorem System.Deploys.over (hs : s.Deploys cfg region) {i : ℕ} (hp : s.processes[i]? = some p)
    (hfinished : p.kind.deployRegion = some region → p.Finished) : (s.deploy cfg region i).Over := by
  rw [deploy_of_process hp, deployOf]
  split_ifs with hregion
  · have hover := (hs i p hp).finished (hfinished hregion) hregion
    rw [deployContract_track] at hover
    exact hover
  · exact ⟨rfl,rfl⟩

theorem System.Deploys.step (hone : AtMostOne (s.world.protectedFromScaleDown region))
    (hs : s.Deploys cfg region) (h : System.step cfg s mv = .ok t) : t.Deploys cfg region := by
  have htrusts : ∀ {kind : Goroutine} {d : Deploy} {op : Op} {r : Ans op}, ReadsOne region d op r →
      (deployContract cfg region kind).trusts d op r := by
    intro kind d op r hr
    unfold deployContract
    split_ifs
    · exact hr
    · trivial
  refine Pool.honours_step (body_deploys cfg region) hs ?_ h
  cases mv with
  | act pid reply =>
    intro p op next _ ha
    apply htrusts
    cases op with
    | readProtected region' =>
      rintro rfl
      change List.Perm (reply s.world (.readProtected region')) _ at ha
      rcases hone with hmap | ⟨image,hmap⟩
      · rw [hmap] at ha
        exact Or.inl ha.eq_nil
      · rw [hmap] at ha
        exact Or.inr ⟨image,ha.eq_singleton⟩
    | _ => trivial
  | meet pid₁ pid₂ =>
    intro p₁ p₂ op₁ op₂ next₁ next₂ r₁ r₂ _ _ hmeets
    cases op₁ <;> first | cases hmeets | skip
    cases op₂ <;> first | cases hmeets | skip
    exact ⟨htrusts trivial,htrusts trivial⟩
  | _ => trivial

def mapAfter (region : String) (op : Op) (images : ProtectedMap) : ProtectedMap :=
  match op with
  | .writeProtected region' images' => if region' = region then images' else images
  | _ => images

theorem protected_acted {op : Op} {next : Ans op → Prog Unit} (r : Ans op) :
    (s.acted service pid p op next r).world.protectedFromScaleDown region =
      mapAfter region op (s.world.protectedFromScaleDown region) := by
  change (effect s.world pid op r).protectedFromScaleDown region = _
  cases op with
  | writeProtected region' images =>
    change Function.update s.world.protectedFromScaleDown region' images region = if region' = region then _ else _
    rw [Function.update_apply]
    simp only [eq_comm]
  | _ => first | rfl | (cases r <;> rfl)

theorem deploy_acted {op : Op} {next : Ans op → Prog Unit} (hcall : s.AtCall pid p op next) (r : Ans op) :
    System.deploy cfg region (s.acted service pid p op next r) = Function.update (s.deploy cfg region) pid
      (deployOf cfg region (p.advance ⟨op,r⟩ (next r))) := by
  funext i
  rw [Function.update_apply]
  unfold System.deploy
  rw [Pool.acted_processes hcall]
  split_ifs with hi <;> rfl

theorem deploy_met {pid₁ pid₂ : ℕ} {p₁ p₂ : Process Goroutine Op Ans} (h₁ : pid₁ < s.processes.length)
    (h₂ : pid₂ < s.processes.length) :
    System.deploy cfg region (s.met pid₁ pid₂ p₁ p₂) =
      Function.update (Function.update (s.deploy cfg region) pid₁ (deployOf cfg region p₁)) pid₂
        (deployOf cfg region p₂) := by
  funext i
  rw [Function.update_apply, Function.update_apply]
  unfold System.deploy
  rw [Pool.met_processes h₁ h₂]
  split_ifs with hi hi' <;> rfl

theorem deploy_started (kind : Goroutine) :
    System.deploy cfg region (s.started (body cfg) kind) = s.deploy cfg region := by
  funext i
  unfold System.deploy
  change ((s.processes ++ [_])[i]?.map _).getD _ = _
  rw [List.getElem?_append]
  split_ifs with hi
  · rfl
  · rw [List.getElem?_eq_none (not_lt.mp hi)]
    cases hk : i - s.processes.length with
    | zero =>
      change deployOf cfg region (Process.begin (body cfg) kind) = Deploy.start
      unfold deployOf
      rw [Process.view_begin, ite_self]
    | succ k => rfl

/-- A step is a call of an action that deploys in the region, a hand-over between two of them, or nothing to them. -/
inductive DeployStep (cfg : Settings) (region : String) (s : System) : SystemMove → System → Prop where
  | act {pid : ℕ} {reply : World → (op : Op) → Ans op} {p : Process Goroutine Op Ans} {op : Op}
      {next : Ans op → Prog Unit} {t : System} (hcall : s.AtCall pid p op next)
      (hanswer : answers s.world pid op (reply s.world op)) (hregion : p.kind.deployRegion = some region)
      (hmay : DeployMay region (s.deploy cfg region pid) op)
      (hdeploy : t.deploy cfg region = Function.update (s.deploy cfg region) pid
        ((s.deploy cfg region pid).track (p.kind.soughtCommit cfg) ⟨op,reply s.world op⟩))
      (hmap : t.world.protectedFromScaleDown region =
        mapAfter region op (s.world.protectedFromScaleDown region)) :
      DeployStep cfg region s (.act pid reply) t
  | handOver {i j : ℕ} {t : System} (hne : i ≠ j) (hi : (s.deploy cfg region i).Holds)
      (hj : (s.deploy cfg region j).Fresh)
      (hdeploy : t.deploy cfg region = Function.update (Function.update (s.deploy cfg region) i
        { s.deploy cfg region i with owes := false }) j { s.deploy cfg region j with owes := true })
      (hmap : t.world.protectedFromScaleDown region = s.world.protectedFromScaleDown region) :
      DeployStep cfg region s (.meet i j) t
  | other {mv : SystemMove} {t : System} (hdeploy : t.deploy cfg region = s.deploy cfg region)
      (hmap : t.world.protectedFromScaleDown region = s.world.protectedFromScaleDown region) :
      DeployStep cfg region s mv t

theorem deployStep_of_step (hmaking : s.Making) (hs : s.Deploys cfg region)
    (h : System.step cfg s mv = .ok t) : DeployStep cfg region s mv t := by
  cases Pool.steps_of_step h with
  | start kind => exact .other (deploy_started kind) rfl
  | drift e => exact .other rfl rfl
  | @act pid reply p op next hcall hanswer =>
    have hsame : s.deploy cfg region pid = deployOf cfg region p := System.deploy_of_process hcall.1
    by_cases hregion : p.kind.deployRegion = some region
    · refine .act hcall hanswer hregion (hs.may hcall hregion) ?_ (protected_acted _)
      rw [deploy_acted hcall, deployOf_advance hregion, hsame]
    · refine .other ?_ ?_
      · rw [deploy_acted hcall, deployOf_advance_of_ne hregion, ← hsame, Function.update_eq_self]
      · rw [protected_acted]
        have hmakes := hmaking.makes hcall
        cases op with
        | writeProtected region' images =>
          refine if_neg (fun he => hregion ?_)
          rw [← he]
          exact hmakes
        | _ => rfl
  | @meet pid₁ pid₂ p₁ p₂ op₁ op₂ next₁ next₂ r₁ r₂ hcall₁ hcall₂ hmeets hne =>
    have hmakes₁ := hmaking.makes hcall₁
    have hmakes₂ := hmaking.makes hcall₂
    have hsame₁ : s.deploy cfg region pid₁ = deployOf cfg region p₁ := System.deploy_of_process hcall₁.1
    have hsame₂ : s.deploy cfg region pid₂ = deployOf cfg region p₂ := System.deploy_of_process hcall₂.1
    cases op₁ <;> first | cases hmeets | skip
    cases op₂ <;> first | cases hmeets | skip
    rename_i region₁ region₂
    change (if region₁ = region₂ then some _ else none) = some (r₁,r₂) at hmeets
    obtain ⟨imageID,hkind₁⟩ := hmakes₁
    obtain ⟨version,hkind₂⟩ := hmakes₂
    split_ifs at hmeets with hregions
    subst hregions
    by_cases hregion : region₁ = region
    · subst hregion
      have hregion₁ : p₁.kind.deployRegion = some region₁ := by rw [hkind₁]; rfl
      have hregion₂ : p₂.kind.deployRegion = some region₁ := by rw [hkind₂]; rfl
      refine .handOver hne (hs.may hcall₁ hregion₁) (hs.may hcall₂ hregion₂) ?_ rfl
      cases hmeets
      rw [deploy_met hcall₁.lt hcall₂.lt, deployOf_advance hregion₁, deployOf_advance hregion₂, hsame₁, hsame₂]
      rfl
    · have hother : ∀ {q : Process Goroutine Op Ans}, q.kind.deployRegion = some region₁ →
          q.kind.deployRegion ≠ some region := by
        intro q hq he
        exact hregion (Option.some.inj (hq.symm.trans he))
      refine .other ?_ rfl
      rw [deploy_met hcall₁.lt hcall₂.lt, deployOf_advance_of_ne (hother (by rw [hkind₁]; rfl)),
        deployOf_advance_of_ne (hother (by rw [hkind₂]; rfl)), ← hsame₁, ← hsame₂, Function.update_eq_self,
        Function.update_eq_self]

def System.OthersOwe (cfg : Settings) (region : String) (s : System) (pid : ℕ) : Prop :=
  ∃ i < s.processes.length, i ≠ pid ∧ (s.deploy cfg region i).owes = true

theorem System.lt_of_deploy {i : ℕ} (h : s.deploy cfg region i ≠ .start) : i < s.processes.length := by
  by_contra hi
  apply h
  unfold System.deploy
  rw [List.getElem?_eq_none (not_lt.mp hi)]
  rfl

theorem System.lt_of_owes {i : ℕ} (h : (s.deploy cfg region i).owes = true) : i < s.processes.length := by
  refine @lt_of_deploy cfg region s i (fun hstart => ?_)
  rw [hstart] at h
  cases h

theorem System.othersOwe {i : ℕ} (hi : i ≠ pid) (howes : (s.deploy cfg region i).owes = true) :
    s.OthersOwe cfg region pid :=
  ⟨i,lt_of_owes howes,hi,howes⟩

def protects : Op → Bool
  | .writeProtected _ images => !images.isEmpty
  | _ => false

/-- A call of an action in the region.  An action that owes gives up only where nothing is protected or another
action owes too; a wait times out only where nothing is protected or no other action owes; and no image is
protected while a timed-out action is about to clear the map. -/
structure CarefulCall (cfg : Settings) (region : String) (pid : ℕ) (s : System) (op : Op) (r : Ans op)
    (commitHash : String) : Prop where
  givesUp : (s.deploy cfg region pid).owes = true → givesUp commitHash op r = true →
    s.world.protectedFromScaleDown region = [] ∨ s.OthersOwe cfg region pid
  timesOut : timesOut op r = true →
    s.world.protectedFromScaleDown region = [] ∨ ¬s.OthersOwe cfg region pid
  protects : protects op = true → ∀ i < s.processes.length, (s.deploy cfg region i).clears = false

def Careful (cfg : Settings) (region : String) (s : System) : SystemMove → Prop
  | .act pid reply => @Pool.OnCall _ _ _ _ ℕ (fun s p op r => p.kind.deployRegion = some region →
      CarefulCall cfg region pid s op r (p.kind.soughtCommit cfg)) s (.act pid reply)
  | _ => True

/-- An action that gave up writes the map no more, and one that timed out clears it only where nothing is
protected or no other action's deploy is in progress. -/
def SparesOthers (cfg : Settings) (region : String) (s : System) : SystemMove → Prop
  | .act pid _ => ∀ p images next, s.AtCall pid p (.writeProtected region images) next →
      (s.deploy cfg region pid).failed = false ∧ ((s.deploy cfg region pid).clears = true →
        s.world.protectedFromScaleDown region = [] ∨ ¬s.OthersOwe cfg region pid)
  | _ => True

def System.Idle (region : String) (s : System) : Prop :=
  ∀ p ∈ s.processes, p.kind.deployRegion = some region → p.Finished

structure Protection (cfg : Settings) (region : String) (s : System) : Prop where
  making : s.Making
  deploys : s.Deploys cfg region
  one : AtMostOne (s.world.protectedFromScaleDown region)
  owed : s.world.protectedFromScaleDown region = [] ∨ ∃ i, (s.deploy cfg region i).owes = true
  alone : ∀ i, (s.deploy cfg region i).clears = true →
    s.world.protectedFromScaleDown region = [] ∨ ∀ j, (s.deploy cfg region j).owes = true → j = i

theorem Deploy.track_of_answers {w : World} {op : Op} {r : Ans op} (ha : answers w pid op r) :
    (∃ region images, op = .writeProtected region images ∧
      d.track commitHash ⟨op,r⟩ = { d with owes := !images.isEmpty, clears := false }) ∨
    (∀ region images, mapAfter region op images = images) ∧
      ((givesUp commitHash op r = true ∧ d.track commitHash ⟨op,r⟩ = { d with owes := false, failed := true }) ∨
      (timesOut op r = true ∧ d.track commitHash ⟨op,r⟩ = { d with clears := true }) ∨
      d.track commitHash ⟨op,r⟩ = d) := by
  have hrest : d.track commitHash ⟨op,r⟩ =
      (if givesUp commitHash op r then { d with owes := false, failed := true }
      else if timesOut op r then { d with clears := true } else d) →
      (givesUp commitHash op r = true ∧ d.track commitHash ⟨op,r⟩ = { d with owes := false, failed := true }) ∨
      (timesOut op r = true ∧ d.track commitHash ⟨op,r⟩ = { d with clears := true }) ∨
      d.track commitHash ⟨op,r⟩ = d := by
    intro h
    split_ifs at h with hgives htimes
    · exact Or.inl ⟨hgives,h⟩
    · exact Or.inr (Or.inl ⟨htimes,h⟩)
    · exact Or.inr (Or.inr h)
  cases op with
  | writeProtected region images => exact Or.inl ⟨region,images,rfl,rfl⟩
  | sendSync region =>
    obtain rfl : r = SyncResult.timedOut := ha
    exact Or.inr ⟨fun _ _ => rfl,hrest rfl⟩
  | receiveSync region =>
    obtain rfl : r = SyncResult.timedOut := ha
    exact Or.inr ⟨fun _ _ => rfl,hrest rfl⟩
  | _ => exact Or.inr ⟨fun _ _ => rfl,hrest rfl⟩

namespace Protection
variable {d' : Deploy} {images : ProtectedMap} {op : Op} {r : Ans op}

theorem owed_update (hs : Protection cfg region s) (howes : (s.deploy cfg region pid).owes = true →
      d'.owes = true ∨ s.world.protectedFromScaleDown region = [] ∨ s.OthersOwe cfg region pid) :
    s.world.protectedFromScaleDown region = [] ∨
      ∃ i, (Function.update (s.deploy cfg region) pid d' i).owes = true := by
  rcases hs.owed with hnil | ⟨i,hi⟩
  · exact Or.inl hnil
  · by_cases hpid : i = pid
    · subst hpid
      rcases howes hi with hd' | hnil | ⟨j,-,hj,howes⟩
      · exact Or.inr ⟨i,by rwa [Function.update_self]⟩
      · exact Or.inl hnil
      · exact Or.inr ⟨j,by rwa [Function.update_of_ne hj]⟩
    · exact Or.inr ⟨i,by rwa [Function.update_of_ne hpid]⟩

theorem alone_update (hs : Protection cfg region s)
    (howes : d'.owes = true → (s.deploy cfg region pid).owes = true)
    (hclears : d'.clears = true → (s.deploy cfg region pid).clears = true ∨
      s.world.protectedFromScaleDown region = [] ∨ ¬s.OthersOwe cfg region pid) (i : ℕ)
    (hi : (Function.update (s.deploy cfg region) pid d' i).clears = true) :
    s.world.protectedFromScaleDown region = [] ∨
      ∀ j, (Function.update (s.deploy cfg region) pid d' j).owes = true → j = i := by
  have hold : ∀ j, (Function.update (s.deploy cfg region) pid d' j).owes = true →
      (s.deploy cfg region j).owes = true := by
    intro j hj
    by_cases hpid : j = pid
    · subst hpid
      rw [Function.update_self] at hj
      exact howes hj
    · rwa [Function.update_of_ne hpid] at hj
  have hbefore : (s.deploy cfg region i).clears = true →
      s.world.protectedFromScaleDown region = [] ∨
        ∀ j, (Function.update (s.deploy cfg region) pid d' j).owes = true → j = i :=
    fun h => (hs.alone i h).imp_right fun hall j hj => hall j (hold j hj)
  by_cases hpid : i = pid
  · subst hpid
    rw [Function.update_self] at hi
    rcases hclears hi with h | hnil | hnone
    · exact hbefore h
    · exact Or.inl hnil
    · refine Or.inr (fun j hj => ?_)
      by_contra hne
      exact hnone (System.othersOwe hne (hold j hj))
  · rw [Function.update_of_ne hpid] at hi
    exact hbefore hi

theorem act (hs : Protection cfg region s) (ha : answers s.world pid op r)
    (hmay : DeployMay region (s.deploy cfg region pid) op)
    (hcareful : CarefulCall cfg region pid s op r commitHash)
    (hdeploy : t.deploy cfg region = Function.update (s.deploy cfg region) pid
      ((s.deploy cfg region pid).track commitHash ⟨op,r⟩))
    (hmap : t.world.protectedFromScaleDown region = mapAfter region op (s.world.protectedFromScaleDown region)) :
    AtMostOne (t.world.protectedFromScaleDown region) ∧
      (t.world.protectedFromScaleDown region = [] ∨ ∃ i, (t.deploy cfg region i).owes = true) ∧
      ∀ i, (t.deploy cfg region i).clears = true →
        t.world.protectedFromScaleDown region = [] ∨ ∀ j, (t.deploy cfg region j).owes = true → j = i := by
  rw [hdeploy, hmap]
  rcases @Deploy.track_of_answers commitHash (s.deploy cfg region pid) _ _ _ _ ha with
    ⟨region',images,rfl,htrack⟩ | ⟨hsame,⟨hgives,htrack⟩ | ⟨htimes,htrack⟩ | htrack⟩
  · obtain ⟨rfl,-,hone,-⟩ := hmay
    rw [htrack, mapAfter, if_pos rfl]
    by_cases hnil : images = []
    · exact ⟨hone,Or.inl hnil,fun _ _ => Or.inl hnil⟩
    · have hprotects : (!images.isEmpty) = true := by simpa using hnil
      refine ⟨hone,Or.inr ⟨pid,?_⟩,fun i hi => ?_⟩
      · rw [Function.update_self]
        exact hprotects
      · exfalso
        by_cases hpid : i = pid
        · subst hpid
          rw [Function.update_self] at hi
          cases hi
        · rw [Function.update_of_ne hpid] at hi
          have hlt : i < s.processes.length := System.lt_of_deploy fun h => by
            rw [h] at hi
            cases hi
          rw [hcareful.protects hprotects i hlt] at hi
          cases hi
  · rw [hsame, htrack]
    refine ⟨hs.one,hs.owed_update fun howes => Or.inr (hcareful.givesUp howes hgives),hs.alone_update ?_ Or.inl⟩
    intro h
    cases h
  · rw [hsame, htrack]
    exact ⟨hs.one,hs.owed_update Or.inl,hs.alone_update id fun _ => Or.inr (hcareful.timesOut htimes)⟩
  · rw [hsame, htrack]
    exact ⟨hs.one,hs.owed_update Or.inl,hs.alone_update id Or.inl⟩

theorem handOver {i j : ℕ} (hs : Protection cfg region s) (hi : (s.deploy cfg region i).Holds)
    (hdeploy : t.deploy cfg region = Function.update (Function.update (s.deploy cfg region) i
      { s.deploy cfg region i with owes := false }) j { s.deploy cfg region j with owes := true })
    (hmap : t.world.protectedFromScaleDown region = s.world.protectedFromScaleDown region) (k : ℕ)
    (hk : (t.deploy cfg region k).clears = true) : t.world.protectedFromScaleDown region = [] := by
  have hold : (s.deploy cfg region k).clears = true := by
    rw [hdeploy, Function.update_apply, Function.update_apply] at hk
    split_ifs at hk with hkj hki
    · rwa [hkj]
    · rwa [hki]
    · exact hk
  rw [hmap]
  refine (hs.alone k hold).resolve_right (fun hall => ?_)
  rw [← hall i hi.owes, hi.clears] at hold
  cases hold

theorem step (hs : Protection cfg region s) (hcareful : Careful cfg region s mv)
    (h : System.step cfg s mv = .ok t) : Protection cfg region t := by
  have hmaking := hs.making.step h
  have hdeploys := hs.deploys.step hs.one h
  cases deployStep_of_step hs.making hs.deploys h with
  | act hcall hanswer hregion hmay hdeploy hmap =>
    obtain ⟨hone,howed,halone⟩ := hs.act hanswer hmay (hcareful _ _ _ hcall hregion) hdeploy hmap
    exact ⟨hmaking,hdeploys,hone,howed,halone⟩
  | @handOver i j _ hne hi _ hdeploy hmap =>
    refine ⟨hmaking,hdeploys,by rw [hmap]; exact hs.one,Or.inr ⟨j,?_⟩,fun k hk =>
      Or.inl (hs.handOver hi hdeploy hmap k hk)⟩
    rw [hdeploy, Function.update_self]
  | other hdeploy hmap =>
    refine ⟨hmaking,hdeploys,?_,?_,?_⟩
    · rw [hmap]
      exact hs.one
    · rw [hmap, hdeploy]
      exact hs.owed
    · rw [hmap, hdeploy]
      exact hs.alone

theorem initial {w : World} (hw : w.protectedFromScaleDown region = []) :
    Protection cfg region (System.initial w) where
  making := System.making_initial w
  deploys i p hi := by simp [System.initial] at hi
  one := Or.inl hw
  owed := Or.inl hw
  alone _ _ := Or.inl hw

theorem nil_of_idle (hs : Protection cfg region s) (hidle : s.Idle region) :
    s.world.protectedFromScaleDown region = [] := by
  refine hs.owed.resolve_right (fun ⟨i,hi⟩ => ?_)
  have hlt : i < s.processes.length := System.lt_of_owes hi
  have hp : s.processes[i]? = some s.processes[i] := List.getElem?_eq_getElem hlt
  rw [(hs.deploys.over hp (hidle _ (List.getElem_mem hlt))).owes] at hi
  cases hi

theorem spares (hs : Protection cfg region s) : SparesOthers cfg region s mv := by
  cases mv with
  | act pid reply =>
    intro p images next hcall
    have hregion := hs.making.makes hcall
    obtain ⟨-,hfailed,-,-⟩ := hs.deploys.may hcall hregion
    refine ⟨hfailed,fun hclears => (hs.alone pid hclears).imp_right ?_⟩
    rintro hall ⟨i,-,hi,howes⟩
    exact hi (hall i howes)
  | _ => trivial

end Protection

/-- In every run of careful steps, nothing is protected where no action deploys, and an action that failed or
timed out takes no image from a deploy in progress. -/
theorem protection_released (cfg : Settings) (region : String) (w : World)
    (hw : w.protectedFromScaleDown region = []) {moves : List SystemMove} {s : System}
    (hcareful : Run.EachOk (System.step cfg) (Careful cfg region) (System.initial w) moves)
    (hrun : Run.run (System.step cfg) (System.initial w) moves = .ok s) :
    (s.Idle region → s.world.protectedFromScaleDown region = []) ∧
      Run.EachOk (System.step cfg) (SparesOthers cfg region) (System.initial w) moves := by
  have hinitial : Protection cfg region (System.initial w) := .initial hw
  constructor
  · exact (hcareful.invariant (fun _ _ _ hs hp h => hs.step hp h) hinitial hrun).nil_of_idle
  · exact hcareful.imp (fun _ _ _ hs hp h => hs.step hp h) (fun _ _ hs _ => hs.spares) hinitial

instance (p : Process Goroutine Op Ans) : Decidable p.Finished :=
  match h : p.rest with
  | .done () => isTrue h
  | .call _ _ => isFalse fun hp => by
    rw [Process.Finished, h] at hp
    cases hp

instance (region : String) (s : System) : Decidable (s.Idle region) :=
  inferInstanceAs (Decidable (∀ p ∈ s.processes, p.kind.deployRegion = some region → p.Finished))

instance (cfg : Settings) (region : String) (s : System) (pid : ℕ) : Decidable (s.OthersOwe cfg region pid) :=
  inferInstanceAs (Decidable (∃ i < _, _))

instance (cfg : Settings) (region : String) (pid : ℕ) (s : System) (op : Op) (r : Ans op) (commitHash : String) :
    Decidable (CarefulCall cfg region pid s op r commitHash) :=
  decidable_of_iff
    (((s.deploy cfg region pid).owes = true → givesUp commitHash op r = true →
        s.world.protectedFromScaleDown region = [] ∨ s.OthersOwe cfg region pid) ∧
      (timesOut op r = true → s.world.protectedFromScaleDown region = [] ∨ ¬s.OthersOwe cfg region pid) ∧
      (protects op = true → ∀ i < s.processes.length, (s.deploy cfg region i).clears = false))
    ⟨fun h => ⟨h.1,h.2.1,h.2.2⟩,fun h => ⟨h.1,h.2,h.3⟩⟩

instance (cfg : Settings) (region : String) (s : System) : ∀ mv, Decidable (Careful cfg region s mv)
  | .start _ | .meet _ _ | .drift _ => isTrue trivial
  | .act pid reply => inferInstanceAs (Decidable (@Pool.OnCall _ _ _ _ ℕ
      (fun s p op r => p.kind.deployRegion = some region →
        CarefulCall cfg region pid s op r (p.kind.soughtCommit cfg)) s (.act pid reply)))

def deploySettings : Settings := { oneRegion with targetFreeMandelboxes := fun _ => 2 }

def oneDeploy : List SystemMove :=
  .start (.upgradeImage "us-east-1" (some "ami-2")) :: acts 0 7 ++
    [.start (.swapOverImages "us-east-1" ⟨"dev","staging","commit"⟩),.meet 0 1] ++ acts 1 6

theorem protection_released_oneDeploy :
    ∃ s, Run.run (System.step deploySettings) (System.initial oneWorld) oneDeploy = .ok s ∧
      s.Idle "us-east-1" ∧ s.world.protectedFromScaleDown "us-east-1" = [] := by
  have hcareful : Run.EachOk (System.step deploySettings) (Careful deploySettings "us-east-1")
      (System.initial oneWorld) oneDeploy := by decide +kernel
  have hidle : (Run.run (System.step deploySettings) (System.initial oneWorld) oneDeploy).toOption.map
      (fun s => decide (s.Idle "us-east-1")) = some true := by decide +kernel
  cases hs : Run.run (System.step deploySettings) (System.initial oneWorld) oneDeploy with
  | error e =>
    rw [hs] at hidle
    cases hidle
  | ok s =>
    rw [hs] at hidle
    have hidle' : s.Idle "us-east-1" := of_decide_eq_true (Option.some.inj hidle)
    exact ⟨s,rfl,hidle',(protection_released deploySettings "us-east-1" oneWorld rfl hcareful hs).1 hidle'⟩

def failsImages (w : World) : (op : Op) → Ans op
  | .updateImage _ => .error "connection refused"
  | op => w.reply op

def failedDeploy : List SystemMove :=
  .start (.upgradeImage "us-east-1" (some "ami-2")) :: acts 0 7 ++
    [.start (.swapOverImages "us-east-1" ⟨"dev","staging","commit"⟩),.meet 0 1] ++ acts 1 3 ++
    [.act 1 failsImages] ++ acts 1 1

theorem protection_released_fails :
    ¬∀ (cfg : Settings) (region : String) (w : World) (moves : List SystemMove) (s : System),
      w.protectedFromScaleDown region = [] → Run.run (System.step cfg) (System.initial w) moves = .ok s →
      (s.Idle region → s.world.protectedFromScaleDown region = []) ∧
        Run.EachOk (System.step cfg) (SparesOthers cfg region) (System.initial w) moves := by
  intro h
  have hend : (Run.run (System.step deploySettings) (System.initial oneWorld) failedDeploy).toOption.map
      (fun s => (decide (s.Idle "us-east-1"),(s.world.protectedFromScaleDown "us-east-1").length)) =
        some (true,1) := by decide +kernel
  cases hs : Run.run (System.step deploySettings) (System.initial oneWorld) failedDeploy with
  | error e =>
    rw [hs] at hend
    cases hend
  | ok s =>
    rw [hs] at hend
    obtain ⟨hidle,hlength⟩ := Prod.mk.inj (Option.some.inj hend)
    have hnil := (h deploySettings "us-east-1" oneWorld failedDeploy s rfl hs).1 (of_decide_eq_true hidle)
    rw [hnil] at hlength
    cases hlength

end Whist.Scaling
