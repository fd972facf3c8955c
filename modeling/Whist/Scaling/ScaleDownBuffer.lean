import Whist.Scaling.Alone

/-! # The buffer after a scale down -/
namespace Whist.Scaling
open Program Client Alone

theorem computeReal_cons (imageID : String) (i : Instance) (rows : List Instance) :
    computeRealMandelboxCapacity imageID (i :: rows) =
      (if i.imageID = imageID then i.remainingCapacity else 0) +
        computeRealMandelboxCapacity imageID rows := by
  by_cases himage : i.imageID = imageID <;> simp [computeRealMandelboxCapacity, himage]

theorem computeReal_append (imageID : String) (rows rows' : List Instance) :
    computeRealMandelboxCapacity imageID (rows ++ rows') =
      computeRealMandelboxCapacity imageID rows + computeRealMandelboxCapacity imageID rows' := by
  simp [computeRealMandelboxCapacity]

theorem computeReal_perm {imageID : String} {rows rows' : List Instance} (h : rows.Perm rows') :
    computeRealMandelboxCapacity imageID rows = computeRealMandelboxCapacity imageID rows' :=
  ((h.filter _).map _).sum_eq

theorem computeReal_filter_le {imageID : String} {rows : List Instance} {p q : Instance → Bool}
    (hrows : ∀ i ∈ rows, 0 ≤ i.remainingCapacity) (hpq : ∀ i ∈ rows, p i = true → q i = true) :
    computeRealMandelboxCapacity imageID (rows.filter p) ≤
      computeRealMandelboxCapacity imageID (rows.filter q) := by
  induction rows with
  | nil => exact le_rfl
  | cons i rows ih =>
    have hrest := ih (fun j hj => hrows j (List.mem_cons_of_mem _ hj))
      fun j hj => hpq j (List.mem_cons_of_mem _ hj)
    have hi := hrows i List.mem_cons_self
    cases hp : p i with
    | true =>
      rw [List.filter_cons_of_pos hp, List.filter_cons_of_pos (hpq i List.mem_cons_self hp),
        computeReal_cons, computeReal_cons]
      exact Int.add_le_add_left hrest _
    | false =>
      rw [List.filter_cons_of_neg (by simp [hp])]
      cases hq : q i with
      | true =>
        rw [List.filter_cons_of_pos hq, computeReal_cons]
        split_ifs <;> omega
      | false => rwa [List.filter_cons_of_neg (by simp [hq])]

theorem considerFree_foldl {latestImage : Image} {target : ℤ} {protectedMap : ProtectedMap}
    (rows : List Instance) {capacity : ℤ} {free : List Instance} (htarget : target ≤ capacity)
    (hrows : ∀ i ∈ rows, i.imageID = latestImage.imageID →
      i.remainingCapacity ≤ instanceCapacity assumedInstanceType) :
    ∃ taken, taken.Sublist rows ∧
      rows.foldl (considerFree latestImage
          (target + defaultInstanceBuffer * instanceCapacity assumedInstanceType) protectedMap)
        ⟨capacity,free⟩ =
          ⟨capacity - computeRealMandelboxCapacity latestImage.imageID taken,free ++ taken⟩ ∧
      target ≤ capacity - computeRealMandelboxCapacity latestImage.imageID taken := by
  induction rows generalizing capacity free with
  | nil => exact ⟨[],List.Sublist.refl _,by simp [computeRealMandelboxCapacity],
      by simpa [computeRealMandelboxCapacity] using htarget⟩
  | cons i rows ih =>
    have hrest : ∀ j ∈ rows, j.imageID = latestImage.imageID →
        j.remainingCapacity ≤ instanceCapacity assumedInstanceType :=
      fun j hj => hrows j (List.mem_cons_of_mem _ hj)
    rw [List.foldl_cons, considerFree]
    dsimp only
    by_cases husage : instanceCapacity i.instanceType - i.remainingCapacity > 0
    · rw [if_pos husage]
      obtain ⟨taken,hsub,heq,hle⟩ := ih htarget hrest
      exact ⟨taken,hsub.cons i,heq,hle⟩
    rw [if_neg husage]
    by_cases hprotected : (protectedMap.lookup i.imageID).isSome = true
    · rw [if_pos hprotected]
      obtain ⟨taken,hsub,heq,hle⟩ := ih htarget hrest
      exact ⟨taken,hsub.cons i,heq,hle⟩
    rw [if_neg hprotected]
    by_cases himage : i.imageID = latestImage.imageID
    · rw [if_pos himage]
      split_ifs with hextra
      · have hi := hrows i List.mem_cons_self himage
        have hnext : target ≤ capacity - i.remainingCapacity := by
          simp only [defaultInstanceBuffer, one_mul] at hextra
          omega
        obtain ⟨taken,hsub,heq,hle⟩ := ih hnext hrest
        refine ⟨i :: taken,hsub.cons_cons i,?_,?_⟩
        · rw [heq, computeReal_cons, if_pos himage, List.append_assoc, sub_sub, List.singleton_append]
        · rw [computeReal_cons, if_pos himage]
          omega
      · obtain ⟨taken,hsub,heq,hle⟩ := ih htarget hrest
        exact ⟨taken,hsub.cons i,heq,hle⟩
    · rw [if_neg himage]
      obtain ⟨taken,hsub,heq,hle⟩ := ih htarget hrest
      refine ⟨i :: taken,hsub.cons_cons i,?_,?_⟩
      · rw [heq, computeReal_cons, if_neg himage, zero_add, List.append_assoc, List.singleton_append]
      · rw [computeReal_cons, if_neg himage, zero_add]
        exact hle

def Touches (ids : List String) : Op → Prop
  | .updateInstance row => row.id ∈ ids
  | .deleteInstance id => id ∈ ids
  | .insertInstances _ | .insertMandelboxes _ | .spinUpInstances _ _ _ | .spinUpFakeInstances _ _ _ _
  | .spinDownInstances _ | .waitForInstanceTermination _ | .lockProtectedMap _
  | .unlockProtectedMap _ => True
  | op => Reading op

def Spares (ids : List String) (s t : Alone) : Prop :=
  ∀ i ∈ s.world.db.instances, i.id ∉ ids → i ∈ t.world.db.instances

theorem Spares.refl (ids : List String) (s : Alone) : Spares ids s s := fun _ hi _ => hi

theorem Spares.trans {ids : List String} {s t u : Alone} (h : Spares ids s t) (h' : Spares ids t u) :
    Spares ids s u := fun i hi hid => h' i (h i hi hid) hid

variable {passes : ℕ → ℕ}

theorem Spares.call {ids : List String} (s : Alone) {op : Op} (hop : Touches ids op) (r : Ans op) :
    Spares ids s ((alone passes).track s ⟨op,r⟩) := by
  intro i hi hid
  cases op with
  | updateInstance row =>
    cases r with
    | error e => exact hi
    | ok n =>
      have hne : i.id ≠ row.id := fun h => hid (h ▸ hop)
      exact mem_setInstances.mpr (Or.inl ⟨hi,hne⟩)
  | deleteInstance id =>
    cases r with
    | error e => exact hi
    | ok n =>
      have hne : i.id ≠ id := fun h => hid (h ▸ hop)
      exact List.mem_filter.mpr ⟨hi,by simpa using hne⟩
  | insertInstances rows =>
    cases r with
    | error e => exact hi
    | ok n => exact List.mem_append_left _ hi
  | insertMandelboxes rows =>
    cases r with
    | error e => exact hi
    | ok n => exact hi
  | _ => first | exact hi | exact hop.elim

theorem spares_of_calls (passes : ℕ → ℕ) {α : Type} {ids : List String} {p : Prog α} (h : p.Calls (Touches ids))
    (s : Alone) : p.wp (alone passes) (fun t _ => Spares ids s t) s :=
  h.wp_of_le (fun _ _ => trivial) (Spares.refl ids) (fun _ _ _ => Spares.trans)
    (fun s _ r hop _ => Spares.call s hop r) s

theorem markDrainingInstances_calls {P : Op → Prop} {rows : List Instance}
    (h : ∀ i ∈ rows, P (.updateInstance { i with status := .draining })) :
    (markDrainingInstances rows).run.Calls P := by
  induction rows with
  | nil => trivial
  | cons i rows ih =>
    have hrest := ih fun j hj => h j (List.mem_cons_of_mem _ hj)
    exact Calls.run_bind (calls_attemptOr ⟨h i List.mem_cons_self,fun _ => trivial⟩) fun _ => hrest

theorem verifyRemovals_touches {ids : List String} {rows : List Instance} (h : ∀ i ∈ rows, i.id ∈ ids) :
    (verifyRemovals rows).run.Calls (Touches ids) := by
  induction rows with
  | nil => trivial
  | cons i rows ih =>
    have hi := h i List.mem_cons_self
    refine Calls.run_bind ?_ fun _ => ih fun j hj => h j (List.mem_cons_of_mem _ hj)
    refine Calls.run_bind ⟨trivial,fun _ => trivial⟩ (fun _ => ?_)
    refine Calls.run_bind (calls_attemptOr ⟨trivial,fun _ => trivial⟩) (fun found => ?_)
    split_ifs
    · trivial
    · exact Calls.run_bind (calls_attemptOr ⟨hi,fun _ => trivial⟩) fun _ => trivial

theorem findLingering_alone (rows found : List Instance) (s : Alone) :
    (findLingering rows found).wp (alone passes)
      (fun t lingering => Reads s t ∧
        ∀ i ∈ lingering, i ∈ found ∨ i ∈ rows ∧ i.remainingCapacity ≠ 0) s := by
  induction rows generalizing found s with
  | nil => exact ⟨Reads.refl s,fun i hi => Or.inl hi⟩
  | cons i rows ih =>
    unfold findLingering
    split_ifs with hzero
    · refine wp_mono (ih found s) (fun t lingering h => ⟨h.1,fun j hj => ?_⟩)
      exact (h.2 j hj).imp_right (And.imp_left (List.mem_cons_of_mem _))
    · simp only [wp_bind, now, wp_perform]
      refine ⟨trivial,fun time _ => ?_⟩
      have hreads := Reads.call passes s (now_readOnly time)
      split_ifs
      · refine wp_mono (ih (found ++ [i]) _) (fun t lingering h => ⟨hreads.trans h.1,fun j hj => ?_⟩)
        rcases h.2 j hj with hfound | hrows
        · rcases List.mem_append.mp hfound with hmem | hmem
          · exact Or.inl hmem
          · obtain rfl := List.mem_singleton.mp hmem
            exact Or.inr ⟨List.mem_cons_self,hzero⟩
        · exact Or.inr (hrows.imp_left (List.mem_cons_of_mem _))
      · refine wp_mono (ih found _) (fun t lingering h => ⟨hreads.trans h.1,fun j hj => ?_⟩)
        exact (h.2 j hj).imp_right (And.imp_left (List.mem_cons_of_mem _))

def active (w : World) (region : String) : List Instance :=
  w.db.queryInstancesByStatusOnRegion .active region

variable {cfg : Settings} {region : String} {w : World} {image : Image} {target : ℤ} {s t : Alone}

theorem mem_active {i : Instance} :
    i ∈ active w region ↔ i ∈ w.db.instances ∧ i.status = .active ∧ i.region = region := by
  simp [active, Database.queryInstancesByStatusOnRegion]

def Buffered (target : ℤ) (image : Image) (region : String) (w : World) (t : Alone) : Prop :=
  ∃ ids, Spares ids (.start w) t ∧
    target ≤ computeRealMandelboxCapacity image.imageID ((active w region).filter fun i => i.id ∉ ids)

theorem buffered_of_spares
    (htarget : target ≤ computeRealMandelboxCapacity image.imageID (active w region))
    (h : Spares [] (.start w) t) : Buffered target image region w t := by
  refine ⟨[],h,?_⟩
  simpa using htarget

theorem active_nodup (hw : w.Sound) : (active w region).Nodup :=
  (hw.instances_nodup.of_map _).sublist List.filter_sublist

theorem computeReal_notMem (hw : w.Sound) {taken : List Instance} (hnodup : taken.Nodup)
    (hsub : taken ⊆ active w region) (imageID : String) :
    computeRealMandelboxCapacity imageID ((active w region).filter fun i => i ∉ taken) =
      computeRealMandelboxCapacity imageID (active w region) -
        computeRealMandelboxCapacity imageID taken := by
  have htaken : ((active w region).filter fun i => i ∈ taken).Perm taken := by
    refine (List.perm_ext_iff_of_nodup ((active_nodup hw).filter _) hnodup).mpr (fun i => ?_)
    rw [List.mem_filter, decide_eq_true_eq]
    exact ⟨And.right,fun hi => ⟨hsub hi,hi⟩⟩
  have hparts := List.filter_append_perm (fun i => decide (i ∈ taken)) (active w region)
  have hsplit : computeRealMandelboxCapacity imageID _ = computeRealMandelboxCapacity imageID _ :=
    computeReal_perm hparts
  rw [computeReal_append, computeReal_perm htaken] at hsplit
  have hrest : ((active w region).filter fun i => i ∉ taken) =
      (active w region).filter fun i => !decide (i ∈ taken) :=
    List.filter_congr fun i _ => by simp
  rw [hrest]
  omega

theorem buffered_of_taken (hw : w.Sound)
    (hcapacity : ∀ i ∈ active w region, 0 ≤ i.remainingCapacity)
    {taken lingering : List Instance} (hnodup : taken.Nodup) (hsub : taken ⊆ active w region)
    (hlingering : ∀ i ∈ lingering, i ∈ w.db.instances ∧ i.status = .draining)
    (htarget : target ≤ computeRealMandelboxCapacity image.imageID (active w region) -
      computeRealMandelboxCapacity image.imageID taken)
    (h : Spares ((taken ++ lingering).map Instance.id) (.start w) t) :
    Buffered target image region w t := by
  refine ⟨_,h,?_⟩
  rw [← computeReal_notMem hw hnodup hsub] at htarget
  refine htarget.trans (computeReal_filter_le hcapacity (fun i hi hnot => ?_))
  simp only [decide_eq_true_eq] at hnot ⊢
  intro hid
  obtain ⟨j,hj,heq⟩ := List.mem_map.mp hid
  obtain ⟨hrow,hactive,-⟩ := mem_active.mp hi
  rcases List.mem_append.mp hj with hj | hj
  · obtain rfl := List.inj_on_of_nodup_map hw.instances_nodup (mem_active.mp (hsub hj)).1 hrow heq
    exact hnot hj
  · obtain ⟨hrow',hdraining⟩ := hlingering j hj
    obtain rfl := List.inj_on_of_nodup_map hw.instances_nodup hrow' hrow heq
    rw [hactive] at hdraining
    cases hdraining

theorem scaleDownLocked_alone (hw : w.Sound) (ht : t.world.db = w.db) {allActive : List Instance}
    (hperm : allActive.Perm (active w region))
    (hcapacity : ∀ i ∈ active w region, 0 ≤ i.remainingCapacity)
    (htypes : ∀ i ∈ active w region, i.imageID = image.imageID →
      i.remainingCapacity ≤ instanceCapacity assumedInstanceType)
    (htarget : cfg.targetFreeMandelboxes region ≤
      computeRealMandelboxCapacity image.imageID (active w region)) :
    (scaleDownLocked cfg region image allActive).run.wp (alone passes)
      (fun u _ => Buffered (cfg.targetFreeMandelboxes region) image region w u) t := by
  unfold scaleDownLocked
  simp only [wp_run_bind, wp_run_liftM, wp_attemptOr, readProtected, queryInstancesByStatusOnRegion,
    wp_perform, orElse_ok]
  refine ⟨trivial,fun protectedMap _ => ⟨trivial,fun r hr => ?_⟩⟩
  have hspares : ∀ ids u, u.world.db = w.db → Spares ids (.start w) u :=
    fun ids u hu i hi _ => hu ▸ hi
  rw [computeReal_perm hperm]
  obtain ⟨taken,hsub,heq,hle⟩ := considerFree_foldl allActive htarget (fun i hi => htypes i (hperm.subset hi))
  cases r with
  | error e => exact buffered_of_spares htarget (hspares [] _ ht)
  | ok draining =>
    simp only [orElse]
    refine wp_mono (findLingering_alone draining [] _) (fun u lingering hu => ?_)
    have hlingering : ∀ i ∈ lingering, i ∈ w.db.instances ∧ i.status = .draining := by
      intro i hi
      have hdraining := ((hu.2 i hi).resolve_left List.not_mem_nil).1
      have hmem : draining.Perm (t.world.db.queryInstancesByStatusOnRegion .draining region) := hr
      have hrow := hmem.subset hdraining
      rw [ht, Database.queryInstancesByStatusOnRegion, List.mem_filter, decide_eq_true_eq] at hrow
      exact ⟨hrow.1,hrow.2.1⟩
    have hrest : (do
        terminateLingering cfg lingering
        verifyRemovals lingering
        markDrainingInstances taken : Action Unit).run.Calls
          (Touches ((taken ++ lingering).map Instance.id)) := by
      refine Calls.run_bind (terminateLingering_calls (fun _ => trivial) cfg _) (fun _ => ?_)
      refine Calls.run_bind (verifyRemovals_touches fun i hi => ?_)
        (fun _ => markDrainingInstances_calls fun i hi => ?_)
      · exact List.mem_map_of_mem (List.mem_append_right _ hi)
      · exact List.mem_map.mpr ⟨i,List.mem_append_left _ hi,rfl⟩
    have hu' : u.world.db = w.db := hu.1.db.trans ht
    have hnodup : taken.Nodup := (hperm.nodup_iff.mpr (active_nodup hw)).sublist hsub
    have hbuffered : ∀ v, Spares ((taken ++ lingering).map Instance.id) u v →
        Buffered (cfg.targetFreeMandelboxes region) image region w v := fun v hv =>
      buffered_of_taken hw hcapacity hnodup (fun i hi => hperm.subset (hsub.subset hi)) hlingering hle
        ((hspares _ u hu').trans hv)
    have hwp := wp_mono (spares_of_calls passes hrest u) fun v _ => hbuffered v
    rw [heq, List.nil_append]
    simpa only [wp_run_bind] using hwp

theorem lock_db (passes : ℕ → ℕ) (s : Alone) (region : String) :
    ((alone passes).track s ⟨.lockProtectedMap region,()⟩).world.db = s.world.db := rfl

theorem scaleDownBody_alone (hw : w.Sound) (himage : image ∈ w.db.queryImage "AWS" region)
    (hcapacity : ∀ i ∈ active w region, 0 ≤ i.remainingCapacity)
    (htypes : ∀ i ∈ active w region, i.imageID = image.imageID →
      i.remainingCapacity ≤ instanceCapacity assumedInstanceType)
    (htarget : cfg.targetFreeMandelboxes region ≤
      computeRealMandelboxCapacity image.imageID (active w region)) :
    (scaleDownBody cfg region).run.wp (alone passes)
      (fun u _ => Buffered (cfg.targetFreeMandelboxes region) image region w u) (.start w) := by
  have hsame : ∀ u, u.world.db = w.db → Buffered (cfg.targetFreeMandelboxes region) image region w u :=
    fun u hu => buffered_of_spares htarget fun i hi _ => hu ▸ hi
  unfold scaleDownBody
  simp only [wp_run_bind, wp_attempt, wp_attemptOr]
  refine wp_mono (queryLatestImage_alone "AWS" region (.start w)) (orElse_mono ?_ fun u _ h => hsame u h.db)
  rintro t latestImage ⟨hreads,hlatest⟩
  obtain rfl : latestImage = image := hw.image_unique hlatest himage
  simp only [queryInstancesByStatusOnRegion, wp_perform]
  refine ⟨trivial,fun r hr => ?_⟩
  cases r with
  | error e => exact hsame _ hreads.db
  | ok allActive =>
    have hperm : allActive.Perm (active w region) := by
      have hrows : allActive.Perm (t.world.db.queryInstancesByStatusOnRegion .active region) := hr
      rwa [hreads.db] at hrows
    simp only [orElse]
    unfold withProtectedLocked
    simp only [ExceptT.run_mk, lockProtectedMap, wp_bind, wp_perform]
    refine ⟨trivial,fun _ _ => ?_⟩
    have hactive : ((alone passes).track t ⟨.queryInstancesByStatusOnRegion .active region,
        .ok allActive⟩).world.db = w.db := (Reads.call passes t
          (e := ⟨.queryInstancesByStatusOnRegion .active region,.ok allActive⟩) trivial).db.trans hreads.db
    have hlocked := (lock_db passes _ region).trans hactive
    refine wp_mono (scaleDownLocked_alone hw hlocked hperm hcapacity htypes htarget) (fun u r hu => ?_)
    simp only [unlockProtectedMap, wp_perform, wp_pure]
    refine ⟨trivial,fun _ _ => ?_⟩
    obtain ⟨ids,hspares,hle⟩ := hu
    have hunlock : Touches ids (.unlockProtectedMap region) := trivial
    exact ⟨ids,hspares.trans (Spares.call u hunlock ()),hle⟩

/-- If the capacity of the latest image is at the target, so it is with the instances that
are left active, as long as none of them is of a type with more capacity than the assumed one. -/
theorem scaleDown_keeps_buffer (cfg : Settings) (region : String) (passes : ℕ → ℕ) {w : World}
    (hw : w.Sound) {image : Image} (himage : image ∈ w.db.queryImage "AWS" region)
    (hcapacity : ∀ i ∈ active w region,
      0 ≤ i.remainingCapacity ∧ i.remainingCapacity ≤ instanceCapacity i.instanceType)
    (htypes : ∀ i ∈ active w region, i.imageID = image.imageID →
      instanceCapacity i.instanceType ≤ instanceCapacity assumedInstanceType)
    (htarget : cfg.targetFreeMandelboxes region ≤
      computeRealMandelboxCapacity image.imageID (active w region)) :
    Always passes (scaleDownIfNecessary cfg region) w fun t =>
      cfg.targetFreeMandelboxes region ≤ computeRealMandelboxCapacity image.imageID
        ((active w region).filter fun i => i ∈ active t.world region) := by
  have hpos : ∀ i ∈ active w region, 0 ≤ i.remainingCapacity := fun i hi => (hcapacity i hi).1
  rw [always_iff_wp]
  unfold scaleDownIfNecessary thenVerifyCapacity
  simp only [wp_bind, wp_pure]
  refine wp_mono (scaleDownBody_alone hw himage hpos
    (fun i hi hsame => (hcapacity i hi).2.trans (htypes i hi hsame)) htarget) (fun u _ hu => ?_)
  obtain ⟨ids,hspares,hle⟩ := hu
  have hcheck : (verifyCapacity cfg region).run.Calls (Touches ids) :=
    verifyCapacity_calls trivial (fun _ => trivial) (fun _ _ _ => trivial) (fun _ _ _ _ => trivial)
      (fun _ => trivial) (fun _ => trivial) cfg
  refine wp_mono (spares_of_calls passes hcheck u) (fun t _ ht => ?_)
  refine hle.trans (computeReal_filter_le hpos (fun i hi hid => ?_))
  rw [decide_eq_true_eq] at hid ⊢
  obtain ⟨hrow,hactive,hregion⟩ := mem_active.mp hi
  exact mem_active.mpr ⟨(hspares.trans ht) i hrow hid,hactive,hregion⟩

theorem scaleDown_keeps_buffer_one :
    Always (fun _ => 0) (scaleDownIfNecessary oneRegion "us-east-1") oneWorld fun t =>
      oneRegion.targetFreeMandelboxes "us-east-1" ≤ computeRealMandelboxCapacity oneImage.imageID
        ((active oneWorld "us-east-1").filter fun i => i ∈ active t.world "us-east-1") :=
  have himage : oneImage ∈ oneWorld.db.queryImage "AWS" "us-east-1" := by decide
  scaleDown_keeps_buffer oneRegion "us-east-1" (fun _ => 0) oneWorld_sound himage
    (by decide +kernel) (by decide +kernel) (by decide +kernel)

def largeInstance : Instance :=
  { oneInstance with instanceType := "g4dn.12xlarge", remainingCapacity := 12 }

def largeWorld : World :=
  { oneWorld with db := { oneWorld.db with instances := [largeInstance] }, launched := [largeInstance] }

theorem largeWorld_sound : largeWorld.Sound where
  instances_nodup := by decide
  mandelboxes_nodup := by decide
  images_nodup := by decide
  launched_nodup := by decide
  created_nodup := by decide
  launched := by decide
  created := by decide

def largeRegion : Settings := { oneRegion with targetFreeMandelboxes := fun _ => 10 }

def checkRefused (s : Alone) : (op : Op) → Ans op
  | .queryInstancesByStatusOnRegion .preConnection _ => .error "the connection was reset"
  | op => s.world.reply op

/-- The only instance is taken, and nothing of the capacity is left. -/
theorem scaleDown_keeps_buffer_fails :
    ¬ ∀ (cfg : Settings) (region : String) (passes : ℕ → ℕ) (w : World) (image : Image), w.Sound →
      image ∈ w.db.queryImage "AWS" region →
      (∀ i ∈ active w region,
        0 ≤ i.remainingCapacity ∧ i.remainingCapacity ≤ instanceCapacity i.instanceType) →
      cfg.targetFreeMandelboxes region ≤
        computeRealMandelboxCapacity image.imageID (active w region) →
      Always passes (scaleDownIfNecessary cfg region) w fun t =>
        cfg.targetFreeMandelboxes region ≤ computeRealMandelboxCapacity image.imageID
          ((active w region).filter fun i => i ∈ active t.world region) := by
  intro h
  have hrun : ((scaleDownIfNecessary largeRegion "us-east-1").outcome (alone fun _ => 0) checkRefused
      (.start largeWorld)).map (fun x => active x.1.world "us-east-1") = some [] := by
    decide +kernel
  obtain ⟨⟨t,u⟩,ht,hactive⟩ := Option.map_eq_some_iff.mp hrun
  have hleft := h largeRegion "us-east-1" (fun _ => 0) largeWorld oneImage largeWorld_sound (by decide)
    (by decide +kernel) (by decide +kernel) t u (ends_of_outcome ht)
  dsimp only at hactive hleft
  rw [hactive] at hleft
  exact absurd hleft (by decide +kernel)

end Whist.Scaling
