import Whist.Scaling.AssignOutcome

/-! # What an assign answers, and what it leaves behind -/
namespace Whist.Scaling
open Program Client Alone

variable {cfg : Settings} {region : String} {req : AssignRequest} {passes : ℕ → ℕ} {w : World}

/-- An error was answered with the rows as they were before the call. -/
def FailsCleanly (w : World) (s : Alone) : Prop :=
  ∀ error db, (.failed error,db) ∈ s.results →
    db.instances = w.db.instances ∧ db.mandelboxes = w.db.mandelboxes

/-- If the mandelbox was marked, its instance was charged and has an address that parses. -/
def NoStepFailsAfterMarking (cfg : Settings) (s : Alone) : Prop :=
  ∀ m n, ⟨.updateMandelbox m,.ok n⟩ ∈ s.history →
    ∃ i k ip, ⟨.updateInstance i,.ok k⟩ ∈ s.history ∧ cfg.parseCIDR i.ipAddress = .ok ip

theorem updateMandelbox_ne {db : Database} {m row : Mandelbox} (hm : m ∈ db.mandelboxes)
    (hid : row.id = m.id) (hstatus : row.status ≠ m.status) :
    (db.updateMandelbox row).mandelboxes ≠ db.mandelboxes := by
  intro heq
  rw [Database.updateMandelbox, Database.setMandelboxes] at heq
  have hfixed := List.map_inj_left.mp (heq.trans (List.map_id _).symm) m hm
  rw [if_pos hid.symm] at hfixed
  exact hstatus (congrArg Mandelbox.status hfixed)

theorem charged_results (t : Alone) (i : Instance) (m : Mandelbox) (time n : ℕ) (r : Except String ℕ) :
    (charged passes t req i m time n r).results = t.results := by
  simp [charged, alone, returned]

theorem charged_history (t : Alone) (i : Instance) (m : Mandelbox) (time n : ℕ) (r : Except String ℕ) :
    (charged passes t req i m time n r).history = t.history ++
      [⟨.updateMandelbox (mandelboxForDb req i m time),.ok n⟩,
        ⟨.updateInstance { i with remainingCapacity := i.remainingCapacity - 1 },r⟩] := by
  simp [charged, alone]

theorem charged_mandelboxes (t : Alone) (i : Instance) (m : Mandelbox) (time n : ℕ)
    (r : Except String ℕ) : (charged passes t req i m time n r).world.db.mandelboxes =
      (t.world.db.updateMandelbox (mandelboxForDb req i m time)).mandelboxes := by
  cases r <;> rfl

theorem answered_results (t : Alone) (result : AssignResult) :
    (answered passes t result).results = t.results ++ [(result,t.world.db)] := rfl

theorem answered_history (t : Alone) (result : AssignResult) :
    (answered passes t result).history = t.history ++ [⟨.returnResult result,()⟩] := rfl

theorem notMem_history_of_reads {t v : Alone} {result : AssignResult} (h : Reads (.start w) t)
    (hv : Checks (answered passes t result) v) (m : Mandelbox) (n : ℕ) :
    (⟨.updateMandelbox m,.ok n⟩ : Event Op Ans) ∉ v.history := by
  intro hmem
  rcases hv.later _ hmem with hmem | hchecking
  · rw [answered_history, List.mem_append, List.mem_singleton] at hmem
    rcases hmem with hmem | heq
    · exact (h.history _ hmem).elim List.not_mem_nil id
    · cases heq
  · exact hchecking

theorem failsCleanly_of_reads (cfg : Settings) {t v : Alone} {result : AssignResult} (h : Reads (.start w) t)
    (hv : Checks (answered passes t result) v) : FailsCleanly w v ∧ NoStepFailsAfterMarking cfg v := by
  refine ⟨fun error db hmem => ?_,fun m n hmem => absurd hmem (notMem_history_of_reads h hv m n)⟩
  rw [hv.results, answered_results, h.results, start, List.nil_append, List.mem_singleton] at hmem
  obtain ⟨-,rfl⟩ := Prod.mk.inj hmem
  rw [h.db]
  exact ⟨rfl,rfl⟩

/-- An error leaves the rows as they were just when no step fails after the marking. -/
theorem assign_fails_cleanly_iff (cfg : Settings) (region : String) (req : AssignRequest)
    (passes : ℕ → ℕ) (w : World) :
    Always passes (mandelboxAssign cfg region req) w fun s =>
      (FailsCleanly w s ↔ NoStepFailsAfterMarking cfg s) := by
  intro v a hv
  obtain ⟨u,r,hbody,hchecks⟩ := mandelboxAssign_alone w v a hv
  cases hbody with
  | unavailable h =>
    obtain ⟨hclean,hsteps⟩ := failsCleanly_of_reads cfg h hchecks
    exact ⟨fun _ => hsteps,fun _ => hclean⟩
  | refused h hwhy =>
    obtain ⟨hclean,hsteps⟩ := failsCleanly_of_reads cfg h hchecks
    exact ⟨fun _ => hsteps,fun _ => hclean⟩
  | @unanswered t i m time n r message h hserves hfails =>
    have hm : m ∈ w.db.mandelboxes ∧ m.instanceID = i.id ∧ m.status = .waiting := by
      have hwaiting : m ∈ w.db.queryMandelbox i.id .waiting := hserves.waiting
      simpa [Database.queryMandelbox] using hwaiting
    constructor
    · intro hclean
      have hanswer : (.failed .serviceUnavailable,(charged passes t req i m time n r).world.db) ∈
          v.results := by
        rw [hchecks.results, afterBody, answered_results]
        exact List.mem_append_right _ List.mem_cons_self
      refine absurd (hclean _ _ hanswer).2 ?_
      rw [charged_mandelboxes, h.db]
      have hstatus : MandelboxStatus.allocated ≠ m.status := by
        rw [hm.2.2]
        decide
      exact updateMandelbox_ne hm.1 rfl hstatus
    · intro hsteps
      have hmarked : (⟨.updateMandelbox (mandelboxForDb req i m time),.ok n⟩ : Event Op Ans) ∈
          v.history := by
        refine hchecks.earlier _ (List.mem_append_left _ ?_)
        rw [charged_history]
        exact List.mem_append_right _ List.mem_cons_self
      obtain ⟨j,k,ip,hcharge,hip⟩ := hsteps _ _ hmarked
      -- the only charge in the history is the one that failed, or whose address does not parse
      rcases hchecks.later _ hcharge with hmem | hchecking
      · rw [afterBody, answered_history, charged_history, List.append_assoc, List.mem_append] at hmem
        rcases hmem with hmem | hmem
        · exact ((h.history _ hmem).elim List.not_mem_nil id).elim
        · simp only [List.cons_append, List.nil_append, List.mem_cons, List.not_mem_nil, or_false] at hmem
          rcases hmem with heq | heq | heq
          · cases heq
          · cases heq
            exact absurd hip (hfails k ip rfl)
          · cases heq
      · exact hchecking.elim
  | @assigned t i m time n k ip h hserves hip =>
    have hchecks : Checks (answered passes (charged passes t req i m time n (.ok k)) _) v := hchecks
    refine ⟨fun _ m' n' _ => ?_,fun _ error db hmem => ?_⟩
    · refine ⟨{ i with remainingCapacity := i.remainingCapacity - 1 },k,ip,
        hchecks.earlier _ (List.mem_append_left _ ?_),hip⟩
      rw [charged_history]
      exact List.mem_append_right _ (List.mem_cons_of_mem _ List.mem_cons_self)
    · rw [hchecks.results, answered_results, charged_results, h.results, start,
        List.nil_append, List.mem_singleton] at hmem
      cases hmem

def chargeRefused (s : Alone) : (op : Op) → Ans op
  | .updateInstance _ => .error "the connection was reset"
  | op => s.world.reply op

def oneResults (w : World) (reply : Alone → (op : Op) → Ans op) : Option (List (AssignResult × Database)) :=
  ((mandelboxAssign oneRegion "us-east-1" (oneRequest "user-1")).outcome (alone fun _ => 0) reply
    (.start w)).map fun x => x.1.results

theorem ends_of_oneResults {w : World} {reply : Alone → (op : Op) → Ans op}
    {results : List (AssignResult × Database)} (h : oneResults w reply = some results) :
    ∃ t, Ends (alone fun _ => 0) (mandelboxAssign oneRegion "us-east-1" (oneRequest "user-1"))
      (.start w) t () ∧ t.results = results := by
  obtain ⟨⟨t,u⟩,ht,hresults⟩ := Option.map_eq_some_iff.mp h
  exact ⟨t,ends_of_outcome ht,hresults⟩

/-- The charge is refused after the mandelbox was marked. -/
theorem assign_fails_cleanly_fails :
    ¬ ∀ (cfg : Settings) (region : String) (req : AssignRequest) (passes : ℕ → ℕ) (w : World),
      Always passes (mandelboxAssign cfg region req) w (FailsCleanly w) := by
  intro h
  have hresults : (oneResults oneWorld chargeRefused).map (fun results =>
      results.map fun r => (r.1,r.2.mandelboxes.map Mandelbox.status)) =
        some [(.failed .serviceUnavailable,[.allocated,.waiting])] := by
    decide +kernel
  obtain ⟨results,hrun,hmap⟩ := Option.map_eq_some_iff.mp hresults
  obtain ⟨t,ht,rfl⟩ := ends_of_oneResults hrun
  obtain ⟨⟨result,db⟩,hmem,heq⟩ : ∃ r ∈ t.results, (r.1,r.2.mandelboxes.map Mandelbox.status) =
      (AssignResult.failed .serviceUnavailable,[MandelboxStatus.allocated,.waiting]) := by
    refine List.mem_map.mp (hmap ▸ ?_)
    exact List.mem_singleton_self _
  obtain ⟨rfl,hstatus⟩ := Prod.mk.inj heq
  have hclean := (h _ _ _ _ _ t () ht _ db hmem).2
  rw [hclean] at hstatus
  exact absurd hstatus (by decide)

/-- An instance with capacity in a requested and enabled region, with the commit hash of the
request and the region's latest image. -/
def SuitsRequest (cfg : Settings) (region : String) (req : AssignRequest) (db : Database) (i : Instance) :
    Prop :=
  ∃ latestImage ∈ db.queryImage "AWS" region, ∃ requested ∈ availableRegions cfg req.regions,
    SuitsIn db (requestHash cfg req latestImage) requested i

/-- There is one answer; a success names a mandelbox of an instance that suits, and that
there is none is only said when no instance suits. -/
def AnsweredWell (cfg : Settings) (region : String) (req : AssignRequest) (w : World) (s : Alone) : Prop :=
  ∃ result db, s.results = [(result,db)] ∧
    (∀ ip id, result = .assigned ip id → ∃ i, SuitsRequest cfg region req w.db i ∧
      ∃ m ∈ w.db.mandelboxes, m.id = id ∧ m.instanceID = i.id) ∧
    (result = .failed .noInstanceAvailable ∨ result = .failed .commitHashMismatch →
      ∀ i, ¬ SuitsRequest cfg region req w.db i)

/-- No instance suits, and the last one tried has the commit hash, an address and a waiting
mandelbox. -/
def ServesUnsuited (cfg : Settings) (region : String) (req : AssignRequest) (db : Database) : Prop :=
  ∃ i m ip, cfg.parseCIDR i.ipAddress = .ok ip ∧
    Serves cfg region req db
      (fun commitHash i => Exhausted db commitHash (availableRegions cfg req.regions) none (some i)) i m

theorem Exhausted.not_suits (hw : w.Sound) {commitHash : String} {regions : List String}
    {a b : Option Instance} (h : Exhausted w.db commitHash regions a b) {requested : String}
    (hregion : requested ∈ regions) (i : Instance) : ¬ SuitsIn w.db commitHash requested i := by
  induction h with
  | nil a => exact absurd hregion List.not_mem_nil
  | @cons tried rest a b c image himage hnone hlast hrest ih =>
    intro hsuits
    rcases List.mem_cons.mp hregion with rfl | hmem
    · obtain ⟨image',himage',heq⟩ := hsuits.image
      rw [hw.image_unique himage' himage] at heq
      exact hnone i hsuits.offered ⟨hsuits.commit,heq⟩
    · exact ih hmem hsuits

theorem Exhausted.not_suitsRequest (hw : w.Sound) {latestImage : Image} {a b : Option Instance}
    (hlatest : latestImage ∈ w.db.queryImage "AWS" region)
    (h : Exhausted w.db (requestHash cfg req latestImage) (availableRegions cfg req.regions) a b)
    (i : Instance) : ¬ SuitsRequest cfg region req w.db i := by
  rintro ⟨latestImage',hlatest',requested,hrequested,hsuits⟩
  rw [hw.image_unique hlatest' hlatest] at hsuits
  exact h.not_suits hw hrequested i hsuits

theorem refuses_not_suits (hw : w.Sound) {error : AssignError} (h : Refuses cfg region req w.db error)
    (herror : error = .noInstanceAvailable ∨ error = .commitHashMismatch) (i : Instance) :
    ¬ SuitsRequest cfg region req w.db i := by
  rcases herror with rfl | rfl
  · obtain ⟨latestImage,hlatest,hsearched⟩ := h
    cases hsearched with
    | exhausted hex => exact hex.not_suitsRequest hw hlatest i
  · obtain ⟨latestImage,hlatest,j,hsearched,hsha⟩ := h
    cases hsearched with
    | exhausted hex => exact hex.not_suitsRequest hw hlatest i
    | suits _ hsuits => exact absurd hsuits.commit hsha

/-- Unless an instance that does not suit is served, every answer is right. -/
theorem answeredWell_of_not (hw : w.Sound) (h : ¬ ServesUnsuited cfg region req w.db) :
    Always passes (mandelboxAssign cfg region req) w (AnsweredWell cfg region req w) := by
  intro v a hv
  obtain ⟨u,r,hbody,hchecks⟩ := mandelboxAssign_alone w v a hv
  cases hbody with
  | unavailable hreads =>
    refine ⟨.failed .serviceUnavailable,u.world.db,?_,nofun,nofun⟩
    rw [hchecks.results, afterBody, answered_results, hreads.results]
    rfl
  | @refused t error message hreads hwhy =>
    refine ⟨.failed error,t.world.db,?_,nofun,fun herror => ?_⟩
    · have hchecks : Checks (answered passes t (.failed error)) v := hchecks
      rw [hchecks.results, answered_results, hreads.results]
      rfl
    · exact refuses_not_suits hw hwhy (herror.imp AssignResult.failed.inj AssignResult.failed.inj)
  | @unanswered t i m time n r message hreads hserves hfails =>
    refine ⟨.failed .serviceUnavailable,(charged passes t req i m time n r).world.db,?_,nofun,nofun⟩
    rw [hchecks.results, afterBody, answered_results, charged_results, hreads.results]
    rfl
  | @assigned t i m time n k ip hreads hserves hip =>
    refine ⟨.assigned ip m.id,(charged passes t req i m time n (.ok k)).world.db,?_,?_,nofun⟩
    · have hchecks : Checks (answered passes (charged passes t req i m time n (.ok k)) _) v := hchecks
      rw [hchecks.results, answered_results, charged_results, hreads.results]
      rfl
    · rintro ip' id ⟨⟩
      obtain ⟨latestImage,hlatest,hfound,hsha⟩ := hserves.searched
      have hm : m ∈ w.db.mandelboxes ∧ m.instanceID = i.id ∧ m.status = .waiting := by
        have hwaiting : m ∈ w.db.queryMandelbox i.id .waiting := hserves.waiting
        simpa [Database.queryMandelbox] using hwaiting
      refine ⟨i,?_,m,hm.1,rfl,hm.2.1⟩
      cases hfound with
      | exhausted hex =>
        exact absurd ⟨i,m,ip,hip,hserves.user,hserves.enabled,⟨latestImage,hlatest,hex,hsha⟩,
          hserves.waiting⟩ h
      | suits hrequested hsuits => exact ⟨latestImage,hlatest,_,hrequested,hsuits⟩

/-! ### The run that serves an instance that does not suit -/

section
variable {α : Type} {s : Alone}

theorem queryLatestImage_may {Q : Alone → Except String Image → Prop} {provider region : String}
    {image : Image} (h : (queryLatestImage provider region).wp (alone passes) Q s)
    (himage : s.world.db.queryImage provider region = [image]) : ∃ t, Reads s t ∧ Q t (.ok image) := by
  simp only [queryLatestImage, queryImage, wp_bind, wp_perform] at h
  have hanswer : answers (s.next passes) 0 (.queryImage provider region) (.ok [image]) := by
    refine ⟨?_,List.pairwise_singleton _ _⟩
    change [image].Perm (s.world.db.queryImage provider region)
    rw [himage]
  exact ⟨_,Reads.call passes s (e := ⟨.queryImage provider region,.ok [image]⟩) trivial,
    h.2 (.ok [image]) hanswer⟩

theorem LastTried.answer {rows : List Instance} {a b : Option Instance} (h : LastTried rows a b) :
    ∃ answer : List Instance, answer.Perm rows ∧
      (answer.Pairwise fun i j => i.remainingCapacity ≤ j.remainingCapacity) ∧
        answer.getLast?.or a = b := by
  cases h with
  | empty hrows => exact ⟨[],hrows ▸ List.Perm.refl _,List.Pairwise.nil,rfl⟩
  | @fullest i hi hmax =>
    have : Std.Total (fun i j : Instance => i.remainingCapacity ≤ j.remainingCapacity) :=
      ⟨fun i j => le_total _ _⟩
    have : IsTrans Instance (fun i j : Instance => i.remainingCapacity ≤ j.remainingCapacity) :=
      ⟨fun _ _ _ => le_trans⟩
    let sorted := (rows.erase i).insertionSort fun i j => i.remainingCapacity ≤ j.remainingCapacity
    have hsorted : sorted.Perm (rows.erase i) := List.perm_insertionSort _ _
    refine ⟨sorted ++ [i],?_,?_,by simp⟩
    · exact (List.perm_append_singleton i sorted).trans
        ((hsorted.cons i).trans (List.perm_cons_erase hi).symm)
    · refine List.pairwise_append.mpr ⟨List.pairwise_insertionSort _ _,List.pairwise_singleton _ _,?_⟩
      intro j hj k hk
      rw [List.mem_singleton.mp hk]
      exact hmax j (List.mem_of_mem_erase (hsorted.subset hj))

theorem tryRegions_may (hw : w.Sound) {commitHash : String} {regions : List String}
    {a b : Option Instance} {Q : Alone → Except Refusal (Option Instance) → Prop}
    (h : (tryRegions commitHash regions a).run.wp (alone passes) Q s) (hs : s.world.db = w.db)
    (hex : Exhausted w.db commitHash regions a b) : ∃ t, Reads s t ∧ Q t (.ok b) := by
  induction hex generalizing s with
  | nil a => exact ⟨s,Reads.refl s,h⟩
  | @cons region rest a b c image himage hnone hlast hrest ih =>
    unfold tryRegions at h
    simp only [wp_run_bind, wp_attemptOr] at h
    obtain ⟨t,ht,h⟩ := queryLatestImage_may h (hs ▸ hw.queryImage_eq himage)
    simp only [orElse, queryInstanceWithCapacity, wp_perform] at h
    obtain ⟨answer,hperm,hsorted,hgetLast⟩ := hlast.answer
    have hanswer : answers (t.next passes) 0 (.queryInstanceWithCapacity region) (.ok answer) := by
      refine ⟨?_,hsorted⟩
      change answer.Perm (t.world.db.queryInstanceWithCapacity region)
      rwa [ht.db, hs]
    have hnext := h.2 (.ok answer) hanswer
    rcases tryInstances_cases' commitHash image.imageID answer a with
      ⟨i,hi,hmatch,-⟩ | ⟨-,heq⟩
    · exact absurd hmatch (hnone i (hperm.subset hi))
    · have hreads := ht.trans (Reads.call passes t
        (e := ⟨.queryInstanceWithCapacity region,.ok answer⟩) trivial)
      simp only [heq, Bool.false_eq_true, if_false, hgetLast] at hnext
      obtain ⟨u,hu,hQ⟩ := ih hnext (hreads.db.trans hs)
      exact ⟨u,hreads.trans hu,hQ⟩

theorem checkForExisting_may {Q : Alone → Except String Bool → Prop} {userID : String}
    (h : (checkForExistingMandelbox cfg userID).wp (alone passes) Q s)
    (huser : UserBelowLimit cfg s.world.db userID) : ∃ t, Reads s t ∧ Q t (.ok true) := by
  rw [checkForExistingMandelbox, if_neg huser.1] at h
  simp only [queryUserMandelboxes, wp_bind, wp_perform] at h
  have hnext := h.2 (.ok (s.world.db.queryUserMandelboxes userID)) (List.Perm.refl _)
  have hreads := Reads.call passes s (e := ⟨.queryUserMandelboxes userID,
    .ok (s.world.db.queryUserMandelboxes userID)⟩) trivial
  refine ⟨_,hreads,?_⟩
  rcases huser.2 with hempty | hlimit
  · rw [hempty] at hnext ⊢
    exact hnext
  · cases hrows : s.world.db.queryUserMandelboxes userID with
    | nil =>
      rw [hrows] at hnext
      exact hnext
    | cons m rows =>
      rw [hrows] at hnext hlimit
      simp only [hlimit, decide_true] at hnext
      exact hnext

theorem allocate_may {Q : Alone → Except Refusal Unit → Prop} {i : Instance} {m : Mandelbox} {ip : String}
    (h : (allocate cfg req i).run.wp (alone passes) Q s)
    (hm : m ∈ s.world.db.queryMandelbox i.id .waiting) (hpos : 0 < i.remainingCapacity)
    (hip : cfg.parseCIDR i.ipAddress = .ok ip) :
    ∃ t time n k, Reads s t ∧
      Q (answered passes (charged passes t req i m time n (.ok k)) (.assigned ip m.id)) (.ok ()) := by
  unfold allocate at h
  simp only [wp_run_bind, wp_attemptOr, queryMandelbox, wp_perform] at h
  let rows := m :: (s.world.db.queryMandelbox i.id .waiting).erase m
  have hrows := h.2 (.ok rows) (List.perm_cons_erase hm).symm
  simp only [rows, orElse, wp_run_bind, wp_run_liftM, now, updateMandelbox, wp_attemptOr,
    wp_perform] at hrows
  have htime := hrows.2 _ rfl
  have hmarked := htime.2 (.ok _) rfl
  unfold chargeAndAnswer at hmarked
  simp only [orElse, if_neg (not_le.mpr hpos), wp_run_bind, wp_attemptOr, updateInstance,
    wp_perform] at hmarked
  have hcharged := hmarked.2 (.ok _) rfl
  simp only [hip, wp_run_liftM, returnResult, wp_perform] at hcharged
  have hreads := Reads.call passes s (e := ⟨.queryMandelbox i.id .waiting,.ok rows⟩) trivial
  exact ⟨_,_,_,_,hreads.trans (Reads.call passes _ (now_readOnly _)),
    hcharged.2 () trivial⟩

theorem assignInRegions_may (hw : w.Sound) {Q : Alone → Except Refusal Unit → Prop} {i : Instance}
    {m : Mandelbox} {ip : String} (h : (assignInRegions cfg region req).run.wp (alone passes) Q s)
    (hs : s.world.db = w.db) (hip : cfg.parseCIDR i.ipAddress = .ok ip)
    (hserves : Serves cfg region req w.db
      (fun commitHash i => Exhausted w.db commitHash (availableRegions cfg req.regions) none (some i)) i m) :
    ∃ t time n k, Reads s t ∧
      Q (answered passes (charged passes t req i m time n (.ok k)) (.assigned ip m.id)) (.ok ()) := by
  obtain ⟨latestImage,hlatest,hex,hsha⟩ := hserves.searched
  unfold assignInRegions at h
  simp only [wp_run_bind, wp_attemptOr] at h
  obtain ⟨t,ht,h⟩ := queryLatestImage_may h (hs ▸ hw.queryImage_eq hlatest)
  obtain ⟨u,hu,h⟩ := tryRegions_may hw h (ht.db.trans hs) hex
  have hreads := ht.trans hu
  change (if i.clientSHA ≠ requestHash cfg req latestImage then _ else _ : AssignAction Unit).run.wp
    (alone passes) Q u at h
  rw [if_neg (not_not.mpr hsha)] at h
  have hwaiting : m ∈ u.world.db.queryMandelbox i.id .waiting := by
    rw [hreads.db, hs]
    exact hserves.waiting
  obtain ⟨v,time,n,k,hv,hQ⟩ :=
    allocate_may h hwaiting (Searched.exhausted hex).row.2 hip
  exact ⟨v,time,n,k,hreads.trans hv,hQ⟩

theorem assignBody_may (hw : w.Sound) {Q : Alone → Except Refusal Unit → Prop} {i : Instance}
    {m : Mandelbox} {ip : String} (h : (assignBody cfg region req).run.wp (alone passes) Q s)
    (hs : s.world.db = w.db) (hip : cfg.parseCIDR i.ipAddress = .ok ip)
    (hserves : Serves cfg region req w.db
      (fun commitHash i => Exhausted w.db commitHash (availableRegions cfg req.regions) none (some i)) i m) :
    ∃ t time n k, Reads s t ∧
      Q (answered passes (charged passes t req i m time n (.ok k)) (.assigned ip m.id)) (.ok ()) := by
  unfold assignBody at h
  simp only [wp_run_bind, wp_attemptOr] at h
  obtain ⟨t,ht,h⟩ := checkForExisting_may h (hs ▸ hserves.user)
  simp only [orElse, Bool.not_true, Bool.false_eq_true, if_false, if_neg hserves.enabled] at h
  obtain ⟨u,time,n,k,hu,hQ⟩ := assignInRegions_may hw h (ht.db.trans hs) hip hserves
  exact ⟨u,time,n,k,ht.trans hu,hQ⟩

end

/-- Every answer is right just when no instance that does not suit can be served. -/
theorem assign_matches_iff (cfg : Settings) (region : String) (req : AssignRequest) (passes : ℕ → ℕ)
    {w : World} (hw : w.Sound) :
    Always passes (mandelboxAssign cfg region req) w (AnsweredWell cfg region req w) ↔
      ¬ ServesUnsuited cfg region req w.db := by
  refine ⟨fun h => ?_,answeredWell_of_not hw⟩
  rintro ⟨i,m,ip,hip,hserves⟩
  rw [always_iff_wp] at h
  unfold mandelboxAssign thenVerifyCapacity at h
  simp only [wp_bind, wp_pure] at h
  obtain ⟨t,time,n,k,ht,h⟩ := assignBody_may hw h rfl hip hserves
  -- the check that follows ends at its first call
  unfold verifyCapacity at h
  simp only [wp_run_bind, wp_attempt, queryLatestImage, queryImage, wp_bind, wp_perform, wp_pure] at h
  have hend := h.2 (.error "") trivial
  obtain ⟨result,db,hresults,hassigned,-⟩ := hend
  have hresult : result = .assigned ip m.id := by
    have hresults : [(AssignResult.assigned ip m.id,(charged passes t req i m time n (.ok k)).world.db)] =
        [(result,db)] := by
      rw [← hresults]
      simp [alone, returned, answered, charged, ht.results, start]
    exact (Prod.mk.inj (List.singleton_inj.mp hresults)).1.symm
  obtain ⟨j,⟨latestImage,hlatest,requested,hrequested,hsuits⟩,m',hm',hid,hinstance⟩ :=
    hassigned ip m.id hresult
  have hm : m ∈ w.db.mandelboxes ∧ m.instanceID = i.id ∧ m.status = .waiting := by
    simpa [Database.queryMandelbox] using hserves.waiting
  obtain rfl : m' = m := List.inj_on_of_nodup_map hw.mandelboxes_nodup hm' hm.1 hid
  obtain ⟨latestImage',hlatest',hex,hsha⟩ := hserves.searched
  have hi : i ∈ w.db.instances := (Searched.exhausted hex).row.1
  have hj : j ∈ w.db.instances := (List.mem_filter.mp hsuits.offered).1
  obtain rfl : j = i :=
    List.inj_on_of_nodup_map hw.instances_nodup hj hi (hinstance.symm.trans hm.2.1)
  exact hex.not_suitsRequest hw hlatest' j ⟨latestImage,hlatest,requested,hrequested,hsuits⟩

theorem assign_matches_one :
    Always (fun _ => 0) (mandelboxAssign oneRegion "us-east-1" (oneRequest "user-1")) oneWorld
        (AnsweredWell oneRegion "us-east-1" (oneRequest "user-1") oneWorld) ↔
      ¬ ServesUnsuited oneRegion "us-east-1" (oneRequest "user-1") oneWorld.db :=
  assign_matches_iff oneRegion "us-east-1" (oneRequest "user-1") (fun _ => 0) oneWorld_sound

def redeployedWorld : World :=
  { oneWorld with db := { oneWorld.db with images := [{ oneImage with imageID := "ami-2" }] } }

theorem redeployedWorld_sound : redeployedWorld.Sound :=
  oneWorld_sound.setImages (by decide)

/-- A user is given a mandelbox of an instance with the image before the latest. -/
theorem assign_matches_fails :
    ¬ ∀ (cfg : Settings) (region : String) (req : AssignRequest) (passes : ℕ → ℕ) (w : World), w.Sound →
      Always passes (mandelboxAssign cfg region req) w (AnsweredWell cfg region req w) := by
  intro h
  have hresults : (oneResults redeployedWorld fun s => s.world.reply).map (List.map Prod.fst) =
      some [.assigned "10.0.0.1" "mandelbox-1"] := by
    decide +kernel
  obtain ⟨results,hrun,hmap⟩ := Option.map_eq_some_iff.mp hresults
  obtain ⟨t,ht,rfl⟩ := ends_of_oneResults hrun
  obtain ⟨result,db,hanswer,hassigned,-⟩ := h _ _ _ _ _ redeployedWorld_sound t () ht
  rw [hanswer, List.map_singleton, List.singleton_inj] at hmap
  obtain ⟨i,⟨latestImage,-,requested,-,hsuits⟩,-⟩ := hassigned _ _ hmap
  obtain ⟨image,himage,heq⟩ := hsuits.image
  have hi : i = oneInstance := List.mem_singleton.mp (List.mem_filter.mp hsuits.offered).1
  have hlatest : image.imageID = "ami-2" := by
    rw [List.mem_singleton.mp (List.mem_filter.mp himage).1]
  rw [hi, hlatest] at heq
  exact absurd heq (by decide)

end Whist.Scaling
