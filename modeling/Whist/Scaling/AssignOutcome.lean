import Whist.Scaling.Alone

/-! # How an assign ends -/
namespace Whist.Scaling
open Program Client Alone

def requestHash (cfg : Settings) (req : AssignRequest) (latestImage : Image) : String :=
  if cfg.isLocalEnv || req.commitHash = clientCommitHashDevOverride then latestImage.clientSHA
  else req.commitHash

structure SuitsIn (db : Database) (commitHash region : String) (i : Instance) : Prop where
  offered : i ∈ db.queryInstanceWithCapacity region
  commit : i.clientSHA = commitHash
  image : ∃ image ∈ db.queryImage "AWS" region, i.imageID = image.imageID

inductive LastTried (rows : List Instance) (a : Option Instance) : Option Instance → Prop where
  | empty (h : rows = []) : LastTried rows a a
  | fullest {i : Instance} (hi : i ∈ rows) (hmax : ∀ j ∈ rows, j.remainingCapacity ≤ i.remainingCapacity) :
      LastTried rows a (some i)

inductive Exhausted (db : Database) (commitHash : String) :
    List String → Option Instance → Option Instance → Prop where
  | nil (a : Option Instance) : Exhausted db commitHash [] a a
  | cons {region : String} {rest : List String} {a b c : Option Instance} {image : Image}
      (himage : image ∈ db.queryImage "AWS" region)
      (hnone : ∀ i ∈ db.queryInstanceWithCapacity region,
        ¬ (i.clientSHA = commitHash ∧ i.imageID = image.imageID))
      (hlast : LastTried (db.queryInstanceWithCapacity region) a b)
      (hrest : Exhausted db commitHash rest b c) : Exhausted db commitHash (region :: rest) a c

inductive Searched (db : Database) (commitHash : String) (regions : List String)
    (a : Option Instance) : Option Instance → Prop where
  | exhausted {b : Option Instance} (h : Exhausted db commitHash regions a b) :
      Searched db commitHash regions a b
  | suits {region : String} {i : Instance} (hregion : region ∈ regions)
      (h : SuitsIn db commitHash region i) : Searched db commitHash regions a (some i)

theorem tryInstances_cases' (commitHash imageID : String) (rows : List Instance) (a : Option Instance) :
    (∃ i ∈ rows, (i.clientSHA = commitHash ∧ i.imageID = imageID) ∧
      tryInstances commitHash imageID rows a = (some i,true)) ∨
    (∀ i ∈ rows, ¬ (i.clientSHA = commitHash ∧ i.imageID = imageID)) ∧
      tryInstances commitHash imageID rows a = (rows.getLast?.or a,false) := by
  induction rows generalizing a with
  | nil => exact Or.inr ⟨nofun,by simp [tryInstances]⟩
  | cons i rest ih =>
    by_cases hmatch : i.clientSHA = commitHash ∧ i.imageID = imageID
    · exact Or.inl ⟨i,List.mem_cons_self,hmatch,by rw [tryInstances, if_pos hmatch]⟩
    · rw [tryInstances, if_neg hmatch]
      rcases ih (some i) with ⟨j,hj,hjm,heq⟩ | ⟨hnone,heq⟩
      · exact Or.inl ⟨j,List.mem_cons_of_mem _ hj,hjm,heq⟩
      · refine Or.inr ⟨?_,?_⟩
        · intro j hj
          rcases List.mem_cons.mp hj with rfl | hj
          · exact hmatch
          · exact hnone j hj
        · rw [heq, List.getLast?_cons]
          cases hrest : rest.getLast? <;> simp

theorem lastTried_of_sorted {rows answer : List Instance} (hperm : answer.Perm rows)
    (hsorted : answer.Pairwise fun i j => i.remainingCapacity ≤ j.remainingCapacity)
    (a : Option Instance) : LastTried rows a (answer.getLast?.or a) := by
  rcases List.eq_nil_or_concat' answer with rfl | ⟨init,i,rfl⟩
  · exact .empty hperm.symm.eq_nil
  · rw [List.getLast?_concat, Option.some_or]
    refine .fullest (hperm.subset (by simp)) (fun j hj => ?_)
    rcases List.mem_append.mp (hperm.symm.subset hj) with hinit | hlast
    · exact (List.pairwise_append.mp hsorted).2.2 j hinit i (List.mem_singleton_self i)
    · rw [List.mem_singleton.mp hlast]

variable {cfg : Settings} {region : String} {req : AssignRequest} {passes : ℕ → ℕ} {s : Alone}

theorem tryRegions_alone (commitHash : String) (regions : List String) (a : Option Instance) (s : Alone) :
    (tryRegions commitHash regions a).run.wp (alone passes)
      (orElse (fun t b => Reads s t ∧ Searched s.world.db commitHash regions a b)
        fun t e => Reads s t ∧ ∃ m, e = .unavailable m) s := by
  induction regions generalizing a s with
  | nil => exact ⟨Reads.refl s,.exhausted (.nil a)⟩
  | cons region rest ih =>
    unfold tryRegions
    simp only [wp_run_bind, wp_attemptOr]
    refine wp_mono (queryLatestImage_alone "AWS" region s) (orElse_mono ?_ fun t e h => ⟨h,_,rfl⟩)
    rintro t image ⟨hreads,himage⟩
    simp only [orElse, queryInstanceWithCapacity, wp_perform]
    refine ⟨trivial,fun r hr => ?_⟩
    have hcall := hreads.trans
      (Reads.call passes t (e := ⟨.queryInstanceWithCapacity region,r⟩) trivial)
    cases r with
    | error e => exact ⟨hcall,_,rfl⟩
    | ok rows =>
      obtain ⟨hperm,hsorted⟩ : rows.Perm (t.world.db.queryInstanceWithCapacity region) ∧ _ := hr
      rw [hreads.db] at hperm
      rcases tryInstances_cases' commitHash image.imageID rows a with
        ⟨i,hi,hmatch,heq⟩ | ⟨hnone,heq⟩
      · simp only [heq, if_true, wp_run_pure]
        exact ⟨hcall,.suits List.mem_cons_self ⟨hperm.subset hi,hmatch.1,image,himage,hmatch.2⟩⟩
      · simp only [heq, Bool.false_eq_true, if_false]
        refine wp_mono (ih _ _) (orElse_mono ?_ ?_)
        · rintro u b ⟨hrest,hsearch⟩
          refine ⟨hcall.trans hrest,?_⟩
          rw [hcall.db] at hsearch
          cases hsearch with
          | exhausted h =>
            refine .exhausted (.cons himage (fun i hi => hnone i (hperm.symm.subset hi)) ?_ h)
            exact lastTried_of_sorted hperm hsorted a
          | suits hregion h => exact .suits (List.mem_cons_of_mem _ hregion) h
        · rintro u e ⟨hrest,hmessage⟩
          exact ⟨hcall.trans hrest,hmessage⟩

def UserBelowLimit (cfg : Settings) (db : Database) (userID : String) : Prop :=
  userID ≠ "" ∧ (db.queryUserMandelboxes userID = [] ∨
    (activeOrConnectingMandelboxes (db.queryUserMandelboxes userID) : ℤ) < cfg.mandelboxLimitPerUser)

structure Serves (cfg : Settings) (region : String) (req : AssignRequest) (db : Database)
    (found : String → Instance → Prop) (i : Instance) (m : Mandelbox) : Prop where
  user : UserBelowLimit cfg db req.userID
  enabled : (unavailableRegions cfg req.regions).length ≠ req.regions.length
  searched : ∃ latestImage ∈ db.queryImage "AWS" region,
    found (requestHash cfg req latestImage) i ∧ i.clientSHA = requestHash cfg req latestImage
  waiting : m ∈ db.queryMandelbox i.id .waiting

def Refuses (cfg : Settings) (region : String) (req : AssignRequest) (db : Database) :
    AssignError → Prop
  | .noInstanceAvailable => ∃ latestImage ∈ db.queryImage "AWS" region,
    Searched db (requestHash cfg req latestImage) (availableRegions cfg req.regions) none none
  | .commitHashMismatch => ∃ latestImage ∈ db.queryImage "AWS" region, ∃ i,
    Searched db (requestHash cfg req latestImage) (availableRegions cfg req.regions) none (some i) ∧
      i.clientSHA ≠ requestHash cfg req latestImage
  | _ => True

def Finds (cfg : Settings) (req : AssignRequest) (db : Database) (commitHash : String) (i : Instance) :
    Prop :=
  Searched db commitHash (availableRegions cfg req.regions) none (some i)

/-- The mandelbox is marked, and the charge to its instance is answered by `r`. -/
def charged (passes : ℕ → ℕ) (t : Alone) (req : AssignRequest) (i : Instance) (m : Mandelbox)
    (time n : ℕ) (r : Except String ℕ) : Alone :=
  let marked := (alone passes).track t ⟨.updateMandelbox (mandelboxForDb req i m time),.ok n⟩
  (alone passes).track marked
    ⟨.updateInstance { i with remainingCapacity := i.remainingCapacity - 1 },r⟩

def answered (passes : ℕ → ℕ) (t : Alone) (result : AssignResult) : Alone :=
  (alone passes).track t ⟨.returnResult result,()⟩

inductive AssignOutcome (cfg : Settings) (region : String) (req : AssignRequest) (passes : ℕ → ℕ)
    (s : Alone) : Alone → Except Refusal Unit → Prop where
  | unavailable {t : Alone} {message : String} (h : Reads s t) :
      AssignOutcome cfg region req passes s t (.error (.unavailable message))
  | refused {t : Alone} {error : AssignError} {message : Option String} (h : Reads s t)
      (hwhy : Refuses cfg region req s.world.db error) :
      AssignOutcome cfg region req passes s (answered passes t (.failed error))
        (.error (.answered message))
  | unanswered {t : Alone} {i : Instance} {m : Mandelbox} {time n : ℕ} {r : Except String ℕ}
      {message : String} (h : Reads s t)
      (hserves : Serves cfg region req s.world.db (Finds cfg req s.world.db) i m)
      (hfails : ∀ k ip, r = .ok k → cfg.parseCIDR i.ipAddress ≠ .ok ip) :
      AssignOutcome cfg region req passes s (charged passes t req i m time n r)
        (.error (.unavailable message))
  | assigned {t : Alone} {i : Instance} {m : Mandelbox} {time n k : ℕ} {ip : String} (h : Reads s t)
      (hserves : Serves cfg region req s.world.db (Finds cfg req s.world.db) i m)
      (hip : cfg.parseCIDR i.ipAddress = .ok ip) :
      AssignOutcome cfg region req passes s
        (answered passes (charged passes t req i m time n (.ok k)) (.assigned ip m.id)) (.ok ())

theorem Searched.offered {db : Database} {commitHash : String} {regions : List String}
    {a b : Option Instance} (h : Searched db commitHash regions a b) {i : Instance} (hb : b = some i) :
    a = some i ∨ ∃ region, i ∈ db.queryInstanceWithCapacity region := by
  cases h with
  | suits _ h =>
    obtain rfl := Option.some.inj hb
    exact Or.inr ⟨_,h.offered⟩
  | exhausted h =>
    induction h with
    | nil a => exact Or.inl hb
    | cons himage hnone hlast hrest ih =>
      refine (ih hb).elim (fun hi => ?_) Or.inr
      cases hlast with
      | empty _ => exact Or.inl hi
      | fullest hmem hmax =>
        obtain rfl := Option.some.inj hi
        exact Or.inr ⟨_,hmem⟩

theorem Searched.row {db : Database} {commitHash : String} {regions : List String} {i : Instance}
    (h : Searched db commitHash regions none (some i)) :
    i ∈ db.instances ∧ 0 < i.remainingCapacity := by
  obtain h | ⟨region,h⟩ := h.offered rfl
  · cases h
  · simp only [Database.queryInstanceWithCapacity, List.mem_filter, decide_eq_true_eq] at h
    exact ⟨h.1,h.2.2.2⟩

theorem checkForExisting_alone (userID : String) (s : Alone) :
    (checkForExistingMandelbox cfg userID).wp (alone passes)
      (orElse (fun t allowed => Reads s t ∧ (allowed = true → UserBelowLimit cfg s.world.db userID))
        fun t _ => Reads s t) s := by
  unfold checkForExistingMandelbox
  split_ifs with huser
  · exact Reads.refl s
  · simp only [queryUserMandelboxes, wp_bind, wp_perform]
    refine ⟨trivial,fun r hr => ?_⟩
    have hreads := Reads.call passes s (e := ⟨.queryUserMandelboxes userID,r⟩) trivial
    rcases r with e | _ | ⟨m,rows⟩
    · exact hreads
    · exact ⟨hreads,fun _ => ⟨huser,Or.inl hr.symm.eq_nil⟩⟩
    · refine ⟨hreads,fun h => ⟨huser,Or.inr ?_⟩⟩
      have hperm : (m :: rows).Perm (s.world.db.queryUserMandelboxes userID) := hr
      have hcount := (hperm.filter fun m => decide (m.status ≠ .dying)).length_eq
      rw [activeOrConnectingMandelboxes, ← hcount]
      exact of_decide_eq_true h

theorem chargeAndAnswer_alone {t : Alone} (h : Reads s t) {i : Instance} {m : Mandelbox} {time n : ℕ}
    (hserves : Serves cfg region req s.world.db (Finds cfg req s.world.db) i m)
    (hpos : 0 < i.remainingCapacity) :
    (chargeAndAnswer cfg i m.id).run.wp (alone passes) (AssignOutcome cfg region req passes s)
      ((alone passes).track t ⟨.updateMandelbox (mandelboxForDb req i m time),.ok n⟩) := by
  unfold chargeAndAnswer
  rw [if_neg (not_le.mpr hpos)]
  simp only [wp_run_bind, wp_attemptOr, updateInstance, wp_perform]
  refine ⟨trivial,fun r _ => ?_⟩
  cases r with
  | error e => exact .unanswered h hserves fun _ _ hok => by cases hok
  | ok k =>
    dsimp only [orElse]
    cases hip : cfg.parseCIDR i.ipAddress with
    | error e => exact .unanswered h hserves fun k ip _ hok => by rw [hip] at hok; cases hok
    | ok ip =>
      simp only [wp_run_liftM, returnResult, wp_perform]
      exact ⟨trivial,fun _ _ => .assigned h hserves hip⟩

theorem allocate_alone {t : Alone} (h : Reads s t) {i : Instance}
    (hserves : ∀ m ∈ s.world.db.queryMandelbox i.id .waiting,
      Serves cfg region req s.world.db (Finds cfg req s.world.db) i m)
    (hpos : 0 < i.remainingCapacity) :
    (allocate cfg req i).run.wp (alone passes) (AssignOutcome cfg region req passes s) t := by
  unfold allocate
  simp only [wp_run_bind, wp_attemptOr, queryMandelbox, wp_perform]
  refine ⟨trivial,fun r hr => ?_⟩
  have hcall := h.trans (Reads.call passes t (e := ⟨.queryMandelbox i.id .waiting,r⟩) trivial)
  rcases r with e | _ | ⟨m,rows⟩
  · exact .unavailable hcall
  · exact .unavailable hcall
  · have hperm : (m :: rows).Perm (t.world.db.queryMandelbox i.id .waiting) := hr
    rw [h.db] at hperm
    have hm := hserves m (hperm.subset List.mem_cons_self)
    simp only [orElse, wp_run_bind, wp_run_liftM, now, updateMandelbox, wp_attemptOr, wp_perform]
    refine ⟨trivial,fun time _ => ⟨trivial,fun r hr => ?_⟩⟩
    have hnow := hcall.trans (Reads.call passes _ (e := ⟨.now,time⟩) trivial)
    cases r with
    | error e => exact .unavailable (hnow.trans (Reads.call passes _ trivial))
    | ok n => exact chargeAndAnswer_alone hnow hm hpos

theorem refuse_alone {t : Alone} (h : Reads s t) {error : AssignError} (message : Option String)
    (hwhy : Refuses cfg region req s.world.db error) :
    (refuse error message : AssignAction Unit).run.wp (alone passes)
      (AssignOutcome cfg region req passes s) t := by
  simp only [refuse, wp_run_bind, wp_run_liftM, wp_run_throw, returnResult, wp_perform]
  exact ⟨trivial,fun _ _ => .refused h hwhy⟩

theorem assignInRegions_alone {t : Alone} (h : Reads s t)
    (huser : UserBelowLimit cfg s.world.db req.userID)
    (henabled : (unavailableRegions cfg req.regions).length ≠ req.regions.length) :
    (assignInRegions cfg region req).run.wp (alone passes) (AssignOutcome cfg region req passes s) t := by
  unfold assignInRegions
  simp only [wp_run_bind, wp_attemptOr]
  refine wp_mono (queryLatestImage_alone "AWS" region t) (orElse_mono ?_ ?_)
  · rintro u latestImage ⟨hreads,hlatest⟩
    rw [h.db] at hlatest
    refine wp_mono (tryRegions_alone (requestHash cfg req latestImage) _ none u) (orElse_mono ?_ ?_)
    · rintro v a ⟨hsearch,hsearched⟩
      have hv := (h.trans hreads).trans hsearch
      rw [(h.trans hreads).db] at hsearched
      cases a with
      | none =>
        have hwhy : Refuses cfg region req s.world.db .noInstanceAvailable := ⟨latestImage,hlatest,hsearched⟩
        exact refuse_alone hv _ hwhy
      | some i =>
        change (if i.clientSHA ≠ requestHash cfg req latestImage then _ else _ : AssignAction Unit).run.wp
          (alone passes) _ v
        by_cases hsha : i.clientSHA ≠ requestHash cfg req latestImage
        · have hwhy : Refuses cfg region req s.world.db .commitHashMismatch :=
            ⟨latestImage,hlatest,i,hsearched,hsha⟩
          rw [if_pos hsha]
          exact refuse_alone hv _ hwhy
        · rw [if_neg hsha]
          refine allocate_alone hv (fun m hm => ?_) hsearched.row.2
          exact ⟨huser,henabled,⟨latestImage,hlatest,hsearched,not_not.mp hsha⟩,hm⟩
    · rintro v e ⟨hsearch,m,rfl⟩
      exact .unavailable ((h.trans hreads).trans hsearch)
  · intro u e hu
    exact .unavailable (h.trans hu)

theorem assignBody_alone (s : Alone) :
    (assignBody cfg region req).run.wp (alone passes) (AssignOutcome cfg region req passes s) s := by
  unfold assignBody
  simp only [wp_run_bind, wp_attemptOr]
  refine wp_mono (checkForExisting_alone req.userID s) (orElse_mono ?_ fun t e h => .unavailable h)
  rintro t allowed ⟨hreads,huser⟩
  have hactive : Refuses cfg region req s.world.db .userAlreadyActive := trivial
  have hregions : Refuses cfg region req s.world.db .regionNotEnabled := trivial
  dsimp only [orElse]
  split_ifs with hfalse henabled
  · exact refuse_alone hreads _ hactive
  · exact refuse_alone hreads _ hregions
  · exact assignInRegions_alone hreads (huser (by simpa using hfalse)) henabled

def Checking : Op → Prop
  | .queryImage _ _ | .queryInstancesByStatusOnRegion _ _ | .spinUpInstances _ _ _
  | .spinUpFakeInstances _ _ _ _ | .insertInstances _ | .insertMandelboxes _ => True
  | _ => False

structure Checks (s t : Alone) : Prop where
  results : t.results = s.results
  earlier : ∀ e ∈ s.history, e ∈ t.history
  later : ∀ e ∈ t.history, e ∈ s.history ∨ Checking e.op

theorem verifyCapacity_alone (s : Alone) :
    (verifyCapacity cfg region).run.wp (alone passes) (fun t _ => Checks s t) s := by
  have hcalls : (verifyCapacity cfg region).run.Calls Checking :=
    verifyCapacity_calls trivial (fun _ => trivial) (fun _ _ _ => trivial) (fun _ _ _ _ => trivial)
      (fun _ => trivial) (fun _ => trivial) cfg
  refine hcalls.wp_of_le (fun _ _ => trivial) (fun s => ⟨rfl,fun _ => id,fun _ => Or.inl⟩) ?_ ?_ s
  · intro s t u h h'
    exact ⟨h'.results.trans h.results,fun e he => h'.earlier e (h.earlier e he),
      fun e he => (h'.later e he).elim (h.later e) Or.inr⟩
  · intro s op r hop _
    refine ⟨?_,fun e => List.mem_append_left _,fun e he => ?_⟩
    · cases op <;> first | exact List.append_nil _ | exact hop.elim
    · rcases List.mem_append.mp he with hmem | hmem
      · exact Or.inl hmem
      · exact Or.inr (List.mem_singleton.mp hmem ▸ hop)

def afterBody (passes : ℕ → ℕ) (t : Alone) : Except Refusal Unit → Alone
  | .error (.unavailable _) => answered passes t (.failed .serviceUnavailable)
  | _ => t

theorem thenVerifyCapacity_alone {α : Type} {p : Prog α} {Q : Alone → Prop}
    (h : p.wp (alone passes) (fun u _ => Q u) s) :
    (thenVerifyCapacity cfg region p).wp (alone passes) (fun t _ => ∃ u, Q u ∧ Checks u t) s := by
  unfold thenVerifyCapacity
  simp only [wp_bind, wp_pure]
  exact wp_mono h fun u _ hu => wp_mono (verifyCapacity_alone u) fun t _ ht => ⟨u,hu,ht⟩

theorem mandelboxAssign_alone (w : World) :
    Always passes (mandelboxAssign cfg region req) w fun t =>
      ∃ u r, AssignOutcome cfg region req passes (.start w) u r ∧ Checks (afterBody passes u r) t := by
  rw [always_iff_wp]
  refine wp_mono (thenVerifyCapacity_alone (Q := fun v => ∃ u r,
    AssignOutcome cfg region req passes (.start w) u r ∧ v = afterBody passes u r) ?_) ?_
  · simp only [wp_bind]
    refine wp_mono (assignBody_alone _) (fun u r hbody => ?_)
    rcases r with (m | m) | a
    · exact ⟨trivial,fun _ _ => ⟨u,_,hbody,rfl⟩⟩
    · exact ⟨u,_,hbody,rfl⟩
    · exact ⟨u,_,hbody,rfl⟩
  · rintro t - ⟨v,⟨u,r,hbody,rfl⟩,hchecks⟩
    exact ⟨u,r,hbody,hchecks⟩

end Whist.Scaling
