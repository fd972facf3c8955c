import Whist.Scaling.GoroutineCalls
import Whist.Scaling.Replies
import Whist.Scaling.ScaleDownBuffer

/-! # Checks of the capacity that run at once -/
namespace Whist.Scaling
open Program Client

/-- Up to the limit of an `int32`, the quotient that is taken as a double is exact. -/
theorem two_mul_computeInstancesToScale {target capacity n : ℤ}
    (hn : computeInstancesToScale target capacity 2 = n) (hshort : capacity < target) (hsmall : n < 2 ^ 31) :
    2 * n = target - capacity + (target - capacity) % 2 := by
  unfold computeInstancesToScale at hn
  rw [if_neg (by norm_num)] at hn
  dsimp only at hn
  generalize hd : target - capacity = d at hn ⊢
  have hpos : 0 < d := by omega
  have htwo : (Binary64.nearest ((2 : ℤ) : ℚ)).val = 2 := Binary64.round_intCast (by norm_num)
  rw [Binary64.div_val, htwo] at hn
  change ⌈Binary64.round (Binary64.round (d : ℚ) / 2)⌉ = n at hn
  rcases le_or_gt d (2 ^ 53) with hle | hgt
  · have habs : |d| ≤ 2 ^ 53 := by rwa [abs_of_pos hpos]
    have hhalf : ((d : ℚ) / 2) = (d : ℚ) * 2 ^ (-1 : ℤ) := by rw [zpow_neg_one, div_eq_mul_inv]
    rw [Binary64.round_intCast habs, Binary64.round_eq_self hhalf habs (by norm_num)] at hn
    obtain ⟨hlow,hhigh⟩ := Int.ceil_eq_iff.mp hn
    have hlow' : 2 * n - 2 < d := by
      have hcast : ((2 * n - 2 : ℤ) : ℚ) < d := by
        push_cast
        linarith
      exact_mod_cast hcast
    have hhigh' : d ≤ 2 * n := by
      have hcast : ((d : ℤ) : ℚ) ≤ ((2 * n : ℤ) : ℚ) := by
        push_cast
        linarith
      exact_mod_cast hcast
    omega
  · -- so large a shortfall asks for more instances than an int32 can count
    exfalso
    have hbig : ((2 ^ 53 : ℤ) : ℚ) ≤ Binary64.round d :=
      Binary64.le_round_of_le (by norm_num) (by exact_mod_cast hgt.le) (Binary64.round_intCast (by norm_num))
    have hhalf : ((2 ^ 52 : ℤ) : ℚ) ≤ Binary64.round (Binary64.round (d : ℚ) / 2) := by
      refine Binary64.le_round_of_le (by norm_num) ?_ (Binary64.round_intCast (by norm_num))
      push_cast at hbig ⊢
      linarith
    have hceil : (2 ^ 52 : ℤ) ≤ n := by
      rw [← hn]
      exact_mod_cast hhalf.trans (Int.le_ceil _)
    omega

structure CapacityCheck where
  image : Option Image
  active : List Instance
  starting : List Instance

namespace CapacityCheck

def empty : CapacityCheck := ⟨none,[],[]⟩

def track (c : CapacityCheck) : Event Op Ans → CapacityCheck
  | ⟨.queryImage _ _,.ok rows⟩ => { c with image := rows.head? }
  | ⟨.queryInstancesByStatusOnRegion .active _,.ok rows⟩ => { c with active := rows }
  | ⟨.queryInstancesByStatusOnRegion .preConnection _,.ok rows⟩ => { c with starting := rows }
  | _ => c

def capacity (c : CapacityCheck) (image : Image) : ℤ :=
  computeExpectedMandelboxCapacity image.imageID c.active c.starting

structure Fills (target : ℤ) (region : String) (image : Image) (capacity : ℤ) (rows : List Instance) : Prop where
  short : capacity < target
  count : 2 * (rows.length : ℤ) = target - capacity + (target - capacity) % 2
  rows : ∀ i ∈ rows, i.imageID = image.imageID ∧ i.region = region ∧ i.status = .preConnection ∧
    i.remainingCapacity = 2

end CapacityCheck

def SpinsUp : (op : Op) → Ans op → Prop
  | .spinUpInstances region numInstances image, .ok rows => 1 ≤ numInstances ∧ (rows.length : ℤ) = numInstances ∧
    ∀ i ∈ rows, i = World.launchedInstance region image i.id
  | _, _ => True

def checking (cfg : Settings) (region : String) : Contract Op Ans CapacityCheck where
  track := CapacityCheck.track
  trusts _ := SpinsUp
  may c op :=
    match op with
    | .insertInstances rows => ∃ image, c.image = some image ∧
        CapacityCheck.Fills (cfg.targetFreeMandelboxes region) region image (c.capacity image) rows
    | _ => True

def InsertsNone : Op → Prop
  | .insertInstances _ => False
  | _ => True

variable {cfg : Settings} {region : String} {c : CapacityCheck}

theorem checking_of_calls {α : Type} {p : Prog α} (h : p.Calls InsertsNone) :
    p.wp (checking cfg region) (fun _ _ => True) c := by
  induction p generalizing c with
  | done a => trivial
  | call op next ih =>
    refine ⟨?_,fun r _ => ih r (h.2 r)⟩
    cases op with
    | insertInstances rows => exact h.1.elim
    | _ => trivial

theorem launchInstances_checks (hlaunches : cfg.spinsUpFakeInstances = false) {image : Image} {capacity : ℤ}
    (hshort : capacity < cfg.targetFreeMandelboxes region) :
    (launchInstances cfg (computeInstancesToScale (cfg.targetFreeMandelboxes region) capacity
      (instanceCapacity assumedInstanceType)) region image).run.wp (checking cfg region)
      (orElse (fun c' launched => c' = c ∧ launched.2 = [] ∧
        CapacityCheck.Fills (cfg.targetFreeMandelboxes region) region image capacity launched.1)
        fun _ _ => True) c := by
  generalize hn : computeInstancesToScale (cfg.targetFreeMandelboxes region) capacity
    (instanceCapacity assumedInstanceType) = n
  unfold launchInstances
  rw [hlaunches]
  simp only [Bool.false_eq_true, if_false, wp_run_bind, wp_attemptOr, spinUpInstances, wp_perform]
  refine ⟨trivial,fun r hr => ?_⟩
  cases r with
  | error e => trivial
  | ok rows =>
    obtain ⟨hone,hlength,hshape⟩ := hr
    dsimp only [orElse]
    split_ifs with hcount
    · trivial
    · rw [not_not] at hcount
      have hbounds : n < 2 ^ 31 := by
        have hmod : int32 n = n := hlength.symm.trans hcount
        have hlt := Int.bmod_lt (x := n) (show 0 < 2 ^ 32 by norm_num)
        unfold int32 at hmod
        rw [hmod] at hlt
        norm_num at hlt ⊢
        exact hlt
      have htwo := two_mul_computeInstancesToScale (instanceCapacity_assumedInstanceType ▸ hn) hshort hbounds
      refine ⟨rfl,rfl,hshort,?_,?_⟩
      · unfold withCapacity
        rw [List.length_map, hcount, htwo]
      · intro i hi
        obtain ⟨j,hj,rfl⟩ := List.mem_map.mp hi
        rw [hshape j hj]
        exact ⟨rfl,rfl,rfl,instanceCapacity_assumedInstanceType⟩

theorem verifyCapacity_checks (hlaunches : cfg.spinsUpFakeInstances = false) :
    (verifyCapacity cfg region).run.wp (checking cfg region) (fun _ _ => True) c := by
  unfold verifyCapacity queryLatestImage queryInstancesByStatusOnRegion queryImage
  simp only [wp_run_bind, wp_attempt, wp_bind, wp_attemptOr, wp_perform]
  refine ⟨trivial,fun images _ => ?_⟩
  rcases images with e | _ | ⟨image,images⟩
  · trivial
  · trivial
  · refine ⟨trivial,fun active _ => ?_⟩
    cases active with
    | error e => trivial
    | ok active =>
      refine ⟨trivial,fun starting _ => ?_⟩
      cases starting with
      | error e => trivial
      | ok starting =>
        dsimp only [orElse]
        split_ifs with hshort
        · unfold scaleUpIfNecessary
          simp only [wp_run_bind, wp_attemptOr]
          refine wp_mono (launchInstances_checks hlaunches hshort) ?_
          rintro c' (e | launched) hlaunched
          · trivial
          · obtain ⟨rfl,hnone,hfills⟩ := hlaunched
            refine ⟨⟨image,rfl,hfills⟩,fun r _ => ?_⟩
            cases r with
            | error e => trivial
            | ok n =>
              dsimp only [orElse]
              rw [hnone]
              trivial
        · trivial

theorem thenVerifyCapacity_checks {α : Type} (hlaunches : cfg.spinsUpFakeInstances = false) {p : Prog α}
    (h : p.Calls InsertsNone) :
    (thenVerifyCapacity cfg region p).wp (checking cfg region) (fun _ _ => True) c := by
  unfold thenVerifyCapacity
  simp only [wp_bind, wp_pure]
  refine wp_mono (checking_of_calls h) (fun c' _ _ => ?_)
  exact verifyCapacity_checks hlaunches

theorem AssignCall.insertsNone {op : Op} (h : AssignCall op) : InsertsNone op := by
  cases op <;> first | trivial | cases h

theorem mandelboxAssign_checks (hlaunches : cfg.spinsUpFakeInstances = false) (req : AssignRequest) :
    (mandelboxAssign cfg region req).wp (checking cfg region) (fun _ _ => True) c := by
  obtain ⟨search,hsearch,heq⟩ := mandelboxAssign_search cfg region req
  rw [heq]
  exact thenVerifyCapacity_checks hlaunches (hsearch.mono fun _ => AssignCall.insertsNone)

theorem verifyInstanceRemoval_insertsNone (i : Instance) : (verifyInstanceRemoval i).run.Calls InsertsNone :=
  verifyInstanceRemoval_calls (fun _ => trivial) (fun _ => trivial) (fun _ => trivial) i

theorem scaleDownIfNecessary_checks (hlaunches : cfg.spinsUpFakeInstances = false) :
    (scaleDownIfNecessary cfg region).wp (checking cfg region) (fun _ _ => True) c := by
  refine thenVerifyCapacity_checks hlaunches ?_
  refine Calls.run_bind (queryLatestImage_calls (fun _ _ => trivial) _ _) (fun image => ?_)
  refine Calls.run_bind (calls_attemptOr ⟨trivial,fun _ => trivial⟩) (fun active => ?_)
  refine withProtectedLocked_calls trivial trivial ?_
  refine Calls.run_bind (Calls.run_liftM ⟨trivial,fun _ => trivial⟩) (fun images => ?_)
  refine Calls.run_bind (calls_attemptOr ⟨trivial,fun _ => trivial⟩) (fun draining => ?_)
  refine Calls.run_bind (Calls.run_liftM (findLingering_calls trivial _ _)) (fun lingering => ?_)
  refine Calls.run_bind (terminateLingering_calls (fun _ => trivial) cfg _) (fun _ => ?_)
  refine Calls.run_bind (verifyRemovals_calls (fun _ => trivial) (fun _ => trivial) (fun _ => trivial) _)
    (fun _ => ?_)
  exact markDrainingInstances_calls (fun _ _ => trivial)

theorem verifyInstanceScaleDown_checks (hlaunches : cfg.spinsUpFakeInstances = false) (i : Instance) :
    (verifyInstanceScaleDown cfg region i).wp (checking cfg region) (fun _ _ => True) c := by
  refine thenVerifyCapacity_checks hlaunches ?_
  refine Calls.run_bind (calls_attemptOr ⟨trivial,fun _ => trivial⟩) (fun rows => ?_)
  split_ifs
  · trivial
  · exact verifyInstanceRemoval_insertsNone i

def capacityContract (cfg : Settings) (kind : Goroutine) : Contract Op Ans CapacityCheck :=
  match kind.checkedRegion with
  | some region => checking cfg region
  | none => tracking CapacityCheck.track

theorem body_checks (hlaunches : cfg.spinsUpFakeInstances = false) (kind : Goroutine) :
    (body cfg kind).wp (capacityContract cfg kind) (fun _ _ => True) .empty := by
  cases kind with
  | mandelboxAssign region req => exact mandelboxAssign_checks hlaunches req
  | scaleDownIfNecessary region => exact scaleDownIfNecessary_checks hlaunches
  | verifyInstanceScaleDown region drained => exact verifyInstanceScaleDown_checks hlaunches drained
  | _ => exact wp_tracking CapacityCheck.track _

variable {w : World} {s t : System} {mv : SystemMove} {pid : ℕ} {p : Process Goroutine Op Ans}

def System.Checks (cfg : Settings) (s : System) : Prop :=
  ∀ (i : ℕ) p, s.processes[i]? = some p →
    Pool.Honours (capacityContract cfg) (fun _ => CapacityCheck.empty) (fun _ _ _ => True) p

theorem spinsUp_of_answers {op : Op} {r : Ans op} (ha : answers w pid op r) : SpinsUp op r := by
  cases op with
  | spinUpInstances region n image =>
    cases r with
    | error e => trivial
    | ok rows => exact ⟨ha.1,ha.2.1,ha.2.2.2⟩
  | _ => trivial

theorem capacityContract_trusts {kind : Goroutine} {c : CapacityCheck} {op : Op} {r : Ans op} (h : SpinsUp op r) :
    (capacityContract cfg kind).trusts c op r := by
  unfold capacityContract
  split
  · exact h
  · trivial

theorem System.Checks.step (hlaunches : cfg.spinsUpFakeInstances = false) (hs : s.Checks cfg)
    (h : System.step cfg s mv = .ok t) : t.Checks cfg := by
  refine Pool.honours_step (body_checks hlaunches) hs ?_ h
  cases mv with
  | act pid reply => exact fun p op next _ ha => capacityContract_trusts (spinsUp_of_answers ha)
  | meet pid₁ pid₂ =>
    intro p₁ p₂ op₁ op₂ next₁ next₂ r₁ r₂ _ _ hmeets
    cases op₁ <;> first | cases hmeets | skip
    cases op₂ <;> first | cases hmeets | skip
    exact ⟨capacityContract_trusts trivial,capacityContract_trusts trivial⟩
  | _ => trivial

theorem System.checks_initial (w : World) : (System.initial w).Checks cfg := by
  intro i p hi
  simp [System.initial] at hi

def World.expectedCapacity (w : World) (region imageID : String) : ℤ :=
  computeExpectedMandelboxCapacity imageID (w.db.queryInstancesByStatusOnRegion .active region)
    (w.db.queryInstancesByStatusOnRegion .preConnection region)

/-- The expected capacity of the latest image is less than the target and one instance's capacity. -/
def World.WithinTarget (cfg : Settings) (region : String) (w : World) : Prop :=
  ∀ image ∈ w.db.queryImage "AWS" region, w.expectedCapacity region image.imageID <
    cfg.targetFreeMandelboxes region + instanceCapacity assumedInstanceType

/-- The image that the check has read is still the latest one, and its expected capacity has not grown since
then, or by one mandelbox where the shortfall was even.  Where another image is the latest one, the insertion
does not touch its capacity. -/
def CapacityCheck.UpToDate (cfg : Settings) (region : String) (c : CapacityCheck) (w : World) : Prop :=
  ∀ read ∈ c.image, ∀ image ∈ w.db.queryImage "AWS" region,
    if image.imageID = read.imageID then
      w.expectedCapacity region image.imageID + (cfg.targetFreeMandelboxes region - c.capacity read) % 2 ≤
        c.capacity read + 1
    else w.expectedCapacity region image.imageID <
      cfg.targetFreeMandelboxes region + instanceCapacity assumedInstanceType

theorem expectedCapacity_insert {image : Image} {target capacity : ℤ} {rows : List Instance} (imageID : String)
    (hrows : CapacityCheck.Fills target region image capacity rows) {w' : World}
    (hw' : w'.db.instances = w.db.instances ++ rows) :
    w'.expectedCapacity region imageID = w.expectedCapacity region imageID +
      if imageID = image.imageID then 2 * (rows.length : ℤ) else 0 := by
  have hactive : rows.filter (fun i => decide (i.status = .active ∧ i.region = region)) = [] := by
    rw [List.filter_eq_nil_iff]
    intro i hi
    simp [(hrows.rows i hi).2.2.1]
  have hstarting : rows.filter (fun i => decide (i.status = .preConnection ∧ i.region = region)) = rows := by
    rw [List.filter_eq_self]
    intro i hi
    simp [(hrows.rows i hi).2.2.1, (hrows.rows i hi).2.1]
  have hsum : ((rows.filter fun i => i.imageID = imageID).map Instance.remainingCapacity).sum =
      if imageID = image.imageID then 2 * (rows.length : ℤ) else 0 := by
    split_ifs with hsame
    · rw [List.filter_eq_self.mpr (fun i hi => by simp [(hrows.rows i hi).1, hsame])]
      have hconst : rows.map Instance.remainingCapacity = List.replicate rows.length 2 :=
        List.eq_replicate_iff.mpr ⟨List.length_map _,fun c hc => by
          obtain ⟨i,hi,rfl⟩ := List.mem_map.mp hc
          exact (hrows.rows i hi).2.2.2⟩
      rw [hconst, List.sum_replicate, nsmul_eq_mul, mul_comm]
    · rw [List.filter_eq_nil_iff.mpr (fun i hi => by simp [(hrows.rows i hi).1, Ne.symm hsame])]
      rfl
  unfold World.expectedCapacity computeExpectedMandelboxCapacity Database.queryInstancesByStatusOnRegion
  simp only [hw', List.filter_append, hactive, hstarting, List.append_nil, List.map_append, List.sum_append, hsum]
  ring

/-- In every run, what a check inserts keeps the region within its target exactly if the check is up to date. -/
theorem scaleUp_bounded_iff (cfg : Settings) (hlaunches : cfg.spinsUpFakeInstances = false) (w : World)
    {moves : List SystemMove} {s t : System} (hrun : Run.run (System.step cfg) (System.initial w) moves = .ok s)
    {pid n : ℕ} {reply : World → (op : Op) → Ans op} {p : Process Goroutine Op Ans} {rows : List Instance}
    {next : Ans (.insertInstances rows) → Prog Unit} {region : String}
    (hcall : s.AtCall pid p (.insertInstances rows) next) (hkind : p.kind.checkedRegion = some region)
    (hreply : reply s.world (.insertInstances rows) = .ok n) (hstep : System.step cfg s (.act pid reply) = .ok t) :
    t.world.WithinTarget cfg region ↔ (p.view CapacityCheck.track .empty).UpToDate cfg region s.world := by
  have hchecks : s.Checks cfg := Run.run_invariant (P := fun _ => True) (fun _ _ _ hs _ h => hs.step hlaunches h)
    (fun _ _ => trivial) (System.checks_initial w) hrun
  have hmay := (hchecks pid p hcall.1).may hcall
  have hcontract : capacityContract cfg p.kind = checking cfg region := by
    unfold capacityContract
    rw [hkind]
  rw [hcontract] at hmay
  obtain ⟨read,hread,hfills⟩ := hmay
  change (p.view CapacityCheck.track .empty).image = some read at hread
  change CapacityCheck.Fills _ _ _ ((p.view CapacityCheck.track .empty).capacity read) rows at hfills
  generalize p.view CapacityCheck.track .empty = c at hread hfills ⊢
  have hworld : t.world = { s.world with
      db := { s.world.db with instances := s.world.db.instances ++ rows }
      launched := s.world.launched ++ rows } := by
    cases Pool.steps_of_step hstep with
    | @act _ _ q op next' hcall' hanswer =>
      obtain rfl : p = q := Option.some.inj (hcall.1.symm.trans hcall'.1)
      have hrest := hcall.2.symm.trans hcall'.2
      cases hrest
      change effect s.world pid _ (reply s.world _) = _
      rw [hreply]
      rfl
  have himages : t.world.db.queryImage "AWS" region = s.world.db.queryImage "AWS" region := by rw [hworld]; rfl
  have hafter : ∀ imageID, t.world.expectedCapacity region imageID = s.world.expectedCapacity region imageID +
      if imageID = read.imageID then 2 * (rows.length : ℤ) else 0 :=
    fun imageID => expectedCapacity_insert imageID hfills (by rw [hworld])
  have hcount := hfills.count
  have htwo := instanceCapacity_assumedInstanceType
  unfold World.WithinTarget CapacityCheck.UpToDate
  rw [himages, hread]
  constructor
  · rintro h read' hread' image himage
    obtain rfl : read = read' := Option.some.inj hread'
    have hbound := h image himage
    rw [hafter] at hbound
    split_ifs with hsame
    · rw [if_pos hsame] at hbound
      omega
    · rw [if_neg hsame] at hbound
      omega
  · intro h image himage
    have hbound := h read rfl image himage
    rw [hafter]
    split_ifs at hbound ⊢ with hsame
    · omega
    · omega

instance (cfg : Settings) (region : String) (w : World) : Decidable (w.WithinTarget cfg region) :=
  inferInstanceAs (Decidable (∀ image ∈ _, _))

def System.inserting (s : System) (pid : ℕ) : Option (Option String × List Instance × Option ℕ) :=
  match s.processes[pid]? with
  | some ⟨kind,_,.call (.insertInstances rows) _⟩ =>
    some (kind.checkedRegion,rows,(show Except String ℕ from World.reply s.world (.insertInstances rows)).toOption)
  | _ => none

theorem exists_of_inserting {rows : List Instance} {n : ℕ}
    (h : s.inserting pid = some (some region,rows,some n)) :
    ∃ p next, s.AtCall pid p (.insertInstances rows) next ∧ p.kind.checkedRegion = some region ∧
      World.reply s.world (.insertInstances rows) = .ok n := by
  unfold System.inserting at h
  split at h
  · next kind history rows' next hp =>
    obtain ⟨hkind,hrest⟩ := Prod.mk.inj (Option.some.inj h)
    obtain ⟨rfl,hreply⟩ := Prod.mk.inj hrest
    refine ⟨⟨kind,history,.call (.insertInstances rows') next⟩,next,⟨hp,rfl⟩,hkind,?_⟩
    cases hanswer : (show Except String ℕ from World.reply s.world (.insertInstances rows')) with
    | error e =>
      rw [hanswer] at hreply
      cases hreply
    | ok m =>
      rw [hanswer] at hreply
      exact hanswer.trans (congrArg Except.ok (Option.some.inj hreply))
  · cases h

def emptyRegion : Settings := { oneRegion with targetFreeMandelboxes := fun _ => 2 }

def emptyWorld : World := { oneWorld with db := { oneWorld.db with instances := [], mandelboxes := [] } }

def oneCheck : List SystemMove := .start (.verifyInstanceScaleDown "us-east-1" oneInstance) :: acts 0 7

theorem scaleUp_bounded_iff_one : ∃ s t p,
    Run.run (System.step emptyRegion) (System.initial emptyWorld) oneCheck = .ok s ∧
      System.step emptyRegion s (.act 0 World.reply) = .ok t ∧ s.processes[0]? = some p ∧
      t.world.WithinTarget emptyRegion "us-east-1" ∧
      (p.view CapacityCheck.track .empty).UpToDate emptyRegion "us-east-1" s.world := by
  have hend : ((Run.run (System.step emptyRegion) (System.initial emptyWorld) oneCheck).toOption.map fun s =>
      ((s.inserting 0).map fun x => (x.1,x.2.2),
        (System.step emptyRegion s (.act 0 World.reply)).toOption.map fun t =>
          decide (t.world.WithinTarget emptyRegion "us-east-1"))) =
      some (some (some "us-east-1",some 1),some true) := by decide +kernel
  cases hs : Run.run (System.step emptyRegion) (System.initial emptyWorld) oneCheck with
  | error e =>
    rw [hs] at hend
    cases hend
  | ok s =>
    rw [hs] at hend
    obtain ⟨hinserting,hwithin⟩ := Prod.mk.inj (Option.some.inj hend)
    obtain ⟨⟨checked,rows,answer⟩,hinserts,heq⟩ := Option.map_eq_some_iff.mp hinserting
    obtain ⟨rfl,rfl⟩ := Prod.mk.inj heq
    obtain ⟨p,next,hcall,hkind,hreply⟩ := exists_of_inserting hinserts
    cases ht : System.step emptyRegion s (.act 0 World.reply) with
    | error e =>
      rw [ht] at hwithin
      cases hwithin
    | ok t =>
      rw [ht] at hwithin
      have htrue : t.world.WithinTarget emptyRegion "us-east-1" := of_decide_eq_true (Option.some.inj hwithin)
      exact ⟨s,t,p,rfl,ht,hcall.1,htrue,
        (scaleUp_bounded_iff emptyRegion rfl emptyWorld hs hcall hkind hreply ht).mp htrue⟩

def twoChecks : List SystemMove :=
  [.start (.verifyInstanceScaleDown "us-east-1" oneInstance),
    .start (.verifyInstanceScaleDown "us-east-1" oneInstance)] ++ acts 0 6 ++ acts 1 6 ++ acts 0 2 ++ acts 1 1

theorem scaleUp_bounded_fails :
    ¬∀ (cfg : Settings) (w : World) (moves : List SystemMove) (s t : System) (pid n : ℕ)
      (reply : World → (op : Op) → Ans op) (p : Process Goroutine Op Ans) (rows : List Instance)
      (next : Ans (.insertInstances rows) → Prog Unit) (region : String), cfg.spinsUpFakeInstances = false →
      Run.run (System.step cfg) (System.initial w) moves = .ok s → s.AtCall pid p (.insertInstances rows) next →
      p.kind.checkedRegion = some region → reply s.world (.insertInstances rows) = .ok n →
      System.step cfg s (.act pid reply) = .ok t → t.world.WithinTarget cfg region := by
  intro h
  have hend : ((Run.run (System.step emptyRegion) (System.initial emptyWorld) twoChecks).toOption.map fun s =>
      ((s.inserting 1).map fun x => (x.1,x.2.2),
        (System.step emptyRegion s (.act 1 World.reply)).toOption.map fun t =>
          decide (t.world.WithinTarget emptyRegion "us-east-1"))) =
      some (some (some "us-east-1",some 1),some false) := by decide +kernel
  cases hs : Run.run (System.step emptyRegion) (System.initial emptyWorld) twoChecks with
  | error e =>
    rw [hs] at hend
    cases hend
  | ok s =>
    rw [hs] at hend
    obtain ⟨hinserting,hwithin⟩ := Prod.mk.inj (Option.some.inj hend)
    obtain ⟨⟨checked,rows,answer⟩,hinserts,heq⟩ := Option.map_eq_some_iff.mp hinserting
    obtain ⟨rfl,rfl⟩ := Prod.mk.inj heq
    obtain ⟨p,next,hcall,hkind,hreply⟩ := exists_of_inserting hinserts
    cases ht : System.step emptyRegion s (.act 1 World.reply) with
    | error e =>
      rw [ht] at hwithin
      cases hwithin
    | ok t =>
      rw [ht] at hwithin
      have htrue := h emptyRegion emptyWorld twoChecks s t 1 1 World.reply p rows next "us-east-1" rfl hs hcall
        hkind hreply ht
      exact absurd htrue (of_decide_eq_false (Option.some.inj hwithin))

end Whist.Scaling
