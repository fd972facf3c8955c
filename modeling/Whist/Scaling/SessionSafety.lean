import Whist.Scaling.ScaleDownBuffer

/-! # The sessions under a scale down -/
namespace Whist.Scaling
open Program Client Alone

def assignedMandelboxes (db : Database) (id : String) : ℕ :=
  db.mandelboxes.countP fun m => m.instanceID = id ∧ m.userID ≠ ""

/-- The remaining capacity of each instance is what its mandelboxes leave of its type's. -/
def ExactCapacity (db : Database) : Prop :=
  ∀ i ∈ db.instances,
    i.remainingCapacity = instanceCapacity i.instanceType - assignedMandelboxes db i.id

instance (db : Database) : Decidable (ExactCapacity db) :=
  inferInstanceAs (Decidable (∀ i ∈ db.instances, _ = _))

def markedDraining : Op → List Instance
  | .updateInstance row => if row.status = .draining then [row] else []
  | _ => []

def terminated : Op → List String
  | .spinDownInstances ids => ids
  | _ => []

structure SparesSessions (w : World) (region : String) (op : Op) : Prop where
  marked : ∀ row ∈ markedDraining op, assignedMandelboxes w.db row.id = 0 ∧
    row.imageID ∉ (w.protectedFromScaleDown region).map Prod.fst
  terminated : ∀ id ∈ terminated op, ∃ i ∈ w.db.instances,
    i.id = id ∧ i.status = .draining ∧ assignedMandelboxes w.db id = 0

def SessionsSpared (w : World) (region : String) (t : Alone) : Prop :=
  ∀ e ∈ t.history, SparesSessions w region e.op

variable {cfg : Settings} {region : String} {w : World} {s t : Alone} {passes : ℕ → ℕ}

theorem sparesSessions_of_plain {op : Op} (hmarked : markedDraining op = [])
    (hterminated : Whist.Scaling.terminated op = []) : SparesSessions w region op where
  marked row hrow := by
    rw [hmarked] at hrow
    cases hrow
  terminated id hid := by
    rw [hterminated] at hid
    cases hid

theorem sparesSessions_of_readOnly {e : Event Op Ans} (he : ReadOnly e) : SparesSessions w region e.op := by
  obtain ⟨op,r⟩ := e
  cases op <;> first
    | exact sparesSessions_of_plain rfl rfl
    | exact he.elim

theorem SessionsSpared.reads (hs : SessionsSpared w region s) (h : Reads s t) :
    SessionsSpared w region t := by
  intro e he
  rcases h.history e he with hmem | hread
  · exact hs e hmem
  · exact sparesSessions_of_readOnly hread

theorem SessionsSpared.call (hs : SessionsSpared w region s) (passes : ℕ → ℕ) {e : Event Op Ans}
    (he : SparesSessions w region e.op) : SessionsSpared w region ((alone passes).track s e) := by
  intro e' he'
  rcases List.mem_append.mp he' with hmem | hmem
  · exact hs e' hmem
  · exact List.mem_singleton.mp hmem ▸ he

theorem sessionsSpared_of_calls (passes : ℕ → ℕ) {α : Type} {p : Prog α}
    (h : p.Calls (SparesSessions w region)) (hs : SessionsSpared w region s) :
    p.wp (alone passes) (fun t _ => SessionsSpared w region t) s := by
  let R : Alone → Alone → Prop := fun s t => SessionsSpared w region s → SessionsSpared w region t
  have hkeeps : p.wp (alone passes) (fun t _ => R s t) s := by
    apply h.wp_of_le (fun _ _ => trivial)
    · exact fun _ h => h
    · exact fun _ _ _ h h' hs => h' (h hs)
    · exact fun _ _ _ hop _ hs => hs.call passes hop
  exact wp_mono hkeeps fun _ _ h => h hs

theorem lookup_isSome_perm {images images' : ProtectedMap} (h : images.Perm images') (imageID : String) :
    (images.lookup imageID).isSome = true ↔ imageID ∈ images'.map Prod.fst := by
  rw [← (h.map Prod.fst).mem_iff, ← not_iff_not, Bool.not_eq_true, Option.isSome_eq_false_iff,
    Option.isNone_iff_eq_none, List.lookup_eq_none_iff]
  simp only [List.mem_map, not_exists, not_and, bne_iff_ne, ne_eq]
  exact ⟨fun h p hp he => h p hp he.symm,fun h p hp he => h p hp he.symm⟩

theorem considerFree_takes {latestImage : Image} {extraCapacity : ℤ} {images : ProtectedMap}
    (rows : List Instance) {free : FreeInstances} {i : Instance}
    (hi : i ∈ (rows.foldl (considerFree latestImage extraCapacity images) free).freeInstances) :
    i ∈ free.freeInstances ∨
      i ∈ rows ∧ instanceCapacity i.instanceType ≤ i.remainingCapacity ∧
        ¬(images.lookup i.imageID).isSome = true := by
  induction rows generalizing free with
  | nil => exact Or.inl hi
  | cons j rows ih =>
    rcases ih hi with hfree | ⟨hrows,hrest⟩
    · rw [considerFree] at hfree
      by_cases husage : instanceCapacity j.instanceType - j.remainingCapacity > 0
      · exact Or.inl (by rwa [if_pos husage] at hfree)
      by_cases hprotected : (images.lookup j.imageID).isSome = true
      · exact Or.inl (by rwa [if_neg husage, if_pos hprotected] at hfree)
      have htaken : i ∈ free.freeInstances ++ [j] := by
        rw [if_neg husage, if_neg hprotected] at hfree
        split_ifs at hfree with himage hextra
        · exact hfree
        · exact List.mem_append_left _ hfree
        · exact hfree
      rcases List.mem_append.mp htaken with hmem | hmem
      · exact Or.inl hmem
      · obtain rfl := List.mem_singleton.mp hmem
        exact Or.inr ⟨List.mem_cons_self,by omega,hprotected⟩
    · exact Or.inr ⟨List.mem_cons_of_mem _ hrows,hrest⟩

theorem findLingering_finds {i : Instance} (hpasses : ∀ k, i.updatedAt + expectedDrainTime < passes k)
    (hcapacity : i.remainingCapacity ≠ 0) {rows found : List Instance} {Q : Alone → List Instance → Prop}
    (h : (findLingering rows found).wp (alone passes) Q s) (hi : i ∈ found ∨ i ∈ rows) :
    ∃ t lingering, Q t lingering ∧ Reads s t ∧ i ∈ lingering := by
  induction rows generalizing found s with
  | nil => exact ⟨s,found,h,Reads.refl s,hi.resolve_right List.not_mem_nil⟩
  | cons j rows ih =>
    unfold findLingering at h
    by_cases hzero : j.remainingCapacity = 0
    · rw [if_pos hzero] at h
      refine ih h (hi.imp_right fun hrows => ?_)
      exact (List.mem_cons.mp hrows).resolve_left fun he => hcapacity (he ▸ hzero)
    · rw [if_neg hzero] at h
      simp only [now, wp_bind, wp_perform] at h
      have hrest := h.2 (s.next passes).clock rfl
      have hreads := Reads.call passes s (now_readOnly (s.next passes).clock)
      by_cases hold : ((s.next passes).clock : ℤ) - j.updatedAt > expectedDrainTime
      · rw [if_pos hold] at hrest
        have hi' : i ∈ found ++ [j] ∨ i ∈ rows := by
          rcases hi with hfound | hrows
          · exact Or.inl (List.mem_append_left _ hfound)
          · exact (List.mem_cons.mp hrows).imp_left fun he => by simp [he]
        obtain ⟨t,lingering,hQ,ht,hmem⟩ := ih hrest hi'
        exact ⟨t,lingering,hQ,hreads.trans ht,hmem⟩
      · rw [if_neg hold] at hrest
        have hlate : ((s.next passes).clock : ℤ) - i.updatedAt > expectedDrainTime := by
          have hclock : (s.next passes).clock = s.world.clock + passes s.history.length := rfl
          have hlong := hpasses s.history.length
          omega
        have hi' : i ∈ found ∨ i ∈ rows :=
          hi.imp_right fun hrows => (List.mem_cons.mp hrows).resolve_left fun he => hold (by rwa [← he])
        obtain ⟨t,lingering,hQ,ht,hmem⟩ := ih hrest hi'
        exact ⟨t,lingering,hQ,hreads.trans ht,hmem⟩

theorem scaleDownLocked_spares (hexact : ExactCapacity w.db) (hlocal : cfg.isLocalEnv = true ∨
      ∀ i ∈ w.db.instances, i.status = .draining → i.region = region →
        i.remainingCapacity = 0 ∨ assignedMandelboxes w.db i.id = 0)
    {image : Image} {allActive : List Instance} (hactive : ∀ i ∈ allActive, i ∈ w.db.instances)
    (hdb : s.world.db = w.db) (hmap : s.world.protectedFromScaleDown = w.protectedFromScaleDown)
    (hs : SessionsSpared w region s) :
    (scaleDownLocked cfg region image allActive).run.wp (alone passes)
      (fun t _ => SessionsSpared w region t) s := by
  unfold scaleDownLocked
  simp only [wp_run_bind, wp_run_liftM, wp_attemptOr, readProtected, queryInstancesByStatusOnRegion,
    wp_perform, orElse_ok]
  refine ⟨trivial,fun images himages => ⟨trivial,fun r hr => ?_⟩⟩
  have himages' : images.Perm (w.protectedFromScaleDown region) := by
    have hnow : images.Perm (s.world.protectedFromScaleDown region) := himages
    rwa [hmap] at hnow
  have hread : ∀ r, SessionsSpared w region ((alone passes).track ((alone passes).track s
      ⟨.readProtected region,images⟩) ⟨.queryInstancesByStatusOnRegion .draining region,r⟩) := fun r =>
    (hs.call passes (sparesSessions_of_plain rfl rfl)).call passes (sparesSessions_of_plain rfl rfl)
  cases r with
  | error e => exact hread _
  | ok draining =>
    simp only [orElse]
    refine wp_mono (findLingering_alone draining [] _) (fun u lingering hu => ?_)
    have hdraining : draining.Perm (s.world.db.queryInstancesByStatusOnRegion .draining region) := hr
    have hlingering : ∀ i ∈ lingering, i ∈ w.db.instances ∧ i.status = .draining ∧ i.region = region ∧
        i.remainingCapacity ≠ 0 := by
      intro i hi
      obtain ⟨hmem,hcapacity⟩ := (hu.2 i hi).resolve_left List.not_mem_nil
      have hrow := hdraining.subset hmem
      rw [hdb, Database.queryInstancesByStatusOnRegion, List.mem_filter, decide_eq_true_eq] at hrow
      exact ⟨hrow.1,hrow.2.1,hrow.2.2,hcapacity⟩
    have hterminate : (terminateLingering cfg lingering).run.Calls (SparesSessions w region) := by
      unfold terminateLingering
      split_ifs with hdown
      · refine calls_attemptOr ⟨⟨fun _ hrow => (by cases hrow),fun id hid => ?_⟩,fun _ => trivial⟩
        obtain ⟨i,hi,rfl⟩ := List.mem_map.mp hid
        obtain ⟨hrow,hstatus,hregion,hcapacity⟩ := hlingering i hi
        have hspare := (hlocal.resolve_left (by simpa using hdown.2)) i hrow hstatus hregion
        exact ⟨i,hrow,rfl,hstatus,hspare.resolve_left hcapacity⟩
      · trivial
    have hverify : (verifyRemovals lingering).run.Calls (SparesSessions w region) :=
      verifyRemovals_calls (fun _ => sparesSessions_of_plain rfl rfl)
        (fun _ => sparesSessions_of_plain rfl rfl) (fun _ => sparesSessions_of_plain rfl rfl) _
    have hmark : ∀ capacity extraCapacity,
        (markDrainingInstances (allActive.foldl (considerFree image extraCapacity images)
          ⟨capacity,[]⟩).freeInstances).run.Calls (SparesSessions w region) := by
      intro capacity extraCapacity
      refine markDrainingInstances_calls fun i hi => ⟨fun row hrow => ?_,fun id hid => by cases hid⟩
      obtain rfl := List.mem_singleton.mp hrow
      obtain ⟨hrow,hfull,hprotected⟩ := (considerFree_takes _ hi).resolve_left List.not_mem_nil
      have hcapacity := hexact i (hactive i hrow)
      dsimp only
      exact ⟨by omega,fun hmem => hprotected ((lookup_isSome_perm himages' i.imageID).mpr hmem)⟩
    have hrest := Calls.run_bind hterminate fun _ => Calls.run_bind hverify fun _ =>
      hmark (computeRealMandelboxCapacity image.imageID allActive)
        (cfg.targetFreeMandelboxes region + defaultInstanceBuffer * instanceCapacity assumedInstanceType)
    simpa only [wp_run_bind] using sessionsSpared_of_calls passes hrest ((hread _).reads hu.1)

theorem scaleDownBody_spares (hexact : ExactCapacity w.db)
    (hspare : cfg.isLocalEnv = true ∨ w.db.queryImage "AWS" region = [] ∨
      ∀ i ∈ w.db.instances, i.status = .draining → i.region = region →
        i.remainingCapacity = 0 ∨ assignedMandelboxes w.db i.id = 0) :
    (scaleDownBody cfg region).run.wp (alone passes) (fun t _ => SessionsSpared w region t) (.start w) := by
  have hstart : SessionsSpared w region (.start w) := fun e he => by cases he
  unfold scaleDownBody
  simp only [wp_run_bind, wp_attempt, wp_attemptOr]
  refine wp_mono (queryLatestImage_alone "AWS" region (.start w))
    (orElse_mono ?_ fun t _ h => hstart.reads h)
  rintro t image ⟨hreads,himage⟩
  have hlocal := hspare.imp_right fun h => h.resolve_left (List.ne_nil_of_mem himage)
  simp only [queryInstancesByStatusOnRegion, wp_perform]
  refine ⟨trivial,fun r hr => ?_⟩
  have hquery := (hstart.reads hreads).call passes
    (e := ⟨.queryInstancesByStatusOnRegion .active region,r⟩) (sparesSessions_of_plain rfl rfl)
  cases r with
  | error e => exact hquery
  | ok allActive =>
    have hperm : allActive.Perm (t.world.db.queryInstancesByStatusOnRegion .active region) := hr
    have hactive : ∀ i ∈ allActive, i ∈ w.db.instances := by
      intro i hi
      have hrow := hperm.subset hi
      rw [hreads.db] at hrow
      exact (List.mem_filter.mp hrow).1
    simp only [orElse]
    unfold withProtectedLocked
    simp only [ExceptT.run_mk, lockProtectedMap, wp_bind, wp_perform]
    refine ⟨trivial,fun _ _ => ?_⟩
    have hlocked := hquery.call passes (e := ⟨.lockProtectedMap region,()⟩)
      (sparesSessions_of_plain rfl rfl)
    have hmap : t.world.protectedFromScaleDown = w.protectedFromScaleDown := by
      rw [hreads.world]
      rfl
    refine wp_mono (scaleDownLocked_spares hexact hlocal hactive hreads.db hmap hlocked) (fun u r hu => ?_)
    simp only [unlockProtectedMap, wp_perform, wp_pure]
    exact ⟨trivial,fun _ _ => hu.call passes (sparesSessions_of_plain rfl rfl)⟩

theorem scaleDown_spares (hexact : ExactCapacity w.db)
    (hspare : cfg.isLocalEnv = true ∨ w.db.queryImage "AWS" region = [] ∨
      ∀ i ∈ w.db.instances, i.status = .draining → i.region = region →
        i.remainingCapacity = 0 ∨ assignedMandelboxes w.db i.id = 0) :
    Always passes (scaleDownIfNecessary cfg region) w (SessionsSpared w region) := by
  rw [always_iff_wp]
  unfold scaleDownIfNecessary thenVerifyCapacity
  simp only [wp_bind, wp_pure]
  refine wp_mono (scaleDownBody_spares hexact hspare) (fun u _ hu => ?_)
  have hplain : ∀ op, markedDraining op = [] → terminated op = [] → SparesSessions w region op :=
    fun op => sparesSessions_of_plain
  exact sessionsSpared_of_calls passes (verifyCapacity_calls (hplain _ rfl rfl) (fun _ => hplain _ rfl rfl)
    (fun _ _ _ => hplain _ rfl rfl) (fun _ _ _ _ => hplain _ rfl rfl) (fun _ => hplain _ rfl rfl)
    (fun _ => hplain _ rfl rfl) cfg) hu

section
variable {i : Instance} (hlocal : ¬cfg.isLocalEnv = true) (hstatus : i.status = .draining)
  (hregion : i.region = region) (hcapacity : i.remainingCapacity ≠ 0)
  (hpasses : ∀ k, i.updatedAt + expectedDrainTime < passes k)
include hlocal hstatus hregion hcapacity hpasses

theorem scaleDownLocked_terminates {image : Image} {allActive : List Instance}
    {Q : Alone → Except String Unit → Prop} (hi : i ∈ s.world.db.instances)
    (h : (scaleDownLocked cfg region image allActive).run.wp (alone passes) Q s) :
    ∃ t r, Q t r ∧ t.world.protectedMapLock = s.world.protectedMapLock ∧
      ∃ e ∈ t.history, i.id ∈ terminated e.op := by
  unfold scaleDownLocked at h
  simp only [wp_run_bind, wp_run_liftM, wp_attemptOr, readProtected, queryInstancesByStatusOnRegion,
    wp_perform, orElse_ok] at h
  have hread := h.2 (s.world.protectedFromScaleDown region) (List.Perm.refl _)
  have hquery := hread.2 (.ok (s.world.db.queryInstancesByStatusOnRegion .draining region))
    (List.Perm.refl _)
  simp only [orElse] at hquery
  have hrow : i ∈ s.world.db.queryInstancesByStatusOnRegion .draining region :=
    List.mem_filter.mpr ⟨hi,decide_eq_true ⟨hstatus,hregion⟩⟩
  obtain ⟨u,lingering,hQ,hreads,hmem⟩ := findLingering_finds hpasses hcapacity hquery (Or.inr hrow)
  unfold terminateLingering at hQ
  rw [if_pos ⟨List.ne_nil_of_mem hmem,by simpa using hlocal⟩] at hQ
  simp only [wp_attemptOr, spinDownInstances, wp_perform] at hQ
  have hdown := hQ.2 (.error "the provider is not reachable") trivial
  refine ⟨_,_,hdown,?_,⟨.spinDownInstances (lingering.map Instance.id),.error "the provider is not reachable"⟩,
    List.mem_append_right _ List.mem_cons_self,List.mem_map_of_mem hmem⟩
  have hworld : u.world.protectedMapLock = s.world.protectedMapLock := by
    rw [hreads.world]
    rfl
  exact hworld

theorem scaleDown_terminates (hlock : w.protectedMapLock region = none)
    (himage : w.db.queryImage "AWS" region ≠ []) (hi : i ∈ w.db.instances) {P : Alone → Prop}
    (h : Always passes (scaleDownIfNecessary cfg region) w P) :
    ∃ t, P t ∧ ∃ e ∈ t.history, i.id ∈ terminated e.op := by
  rw [always_iff_wp] at h
  unfold scaleDownIfNecessary thenVerifyCapacity scaleDownBody at h
  simp only [wp_bind, wp_run_bind, wp_attempt, wp_attemptOr, queryLatestImage, queryImage,
    queryInstancesByStatusOnRegion, wp_perform] at h
  have hreply := w.reply_answers 0 (.queryImage "AWS" region) (fun _ he => by cases he)
    (fun _ he => by cases he)
  obtain ⟨image,images,himages⟩ : ∃ image images, w.reply (.queryImage "AWS" region) = .ok (image :: images) := by
    cases hsort : (w.db.queryImage "AWS" region).insertionSort fun i j => j.updatedAt ≤ i.updatedAt with
    | nil =>
      have hperm := List.perm_insertionSort (fun i j : Image => j.updatedAt ≤ i.updatedAt)
        (w.db.queryImage "AWS" region)
      rw [hsort] at hperm
      exact absurd hperm.nil_eq.symm himage
    | cons image images => exact ⟨image,images,congrArg Except.ok hsort⟩
  rw [himages] at hreply
  have hlatest := h.2 (.ok (image :: images)) hreply
  simp only [wp_pure, orElse_ok] at hlatest
  have hactive := hlatest.2 (.ok (w.db.queryInstancesByStatusOnRegion .active region)) (List.Perm.refl _)
  simp only [orElse] at hactive
  unfold withProtectedLocked at hactive
  simp only [ExceptT.run_mk, lockProtectedMap, unlockProtectedMap, wp_bind, wp_perform, wp_pure] at hactive
  have hlocked := hactive.2 () hlock
  obtain ⟨t,r,⟨-,hunlock⟩,hmine,e,he,hid⟩ :=
    scaleDownLocked_terminates hlocal hstatus hregion hcapacity hpasses hi hlocked
  have hlockMine : t.world.protectedMapLock region = some 0 := by
    rw [hmine]
    exact Function.update_self region (some 0) w.protectedMapLock
  have hcheck := hunlock () hlockMine
  unfold verifyCapacity at hcheck
  simp only [wp_run_bind, wp_attempt, queryLatestImage, queryImage, wp_bind, wp_perform] at hcheck
  have hend := hcheck.2 (.error "the connection was reset") trivial
  exact ⟨_,hend,e,List.mem_append_left _ (List.mem_append_left _ he),hid⟩

end

/-- Whatever the time that passes, a scale down spares the sessions exactly if it has nothing
to terminate, or if every draining row with capacity left has no session at all. -/
theorem scaleDown_spares_sessions_iff (cfg : Settings) (region : String) {w : World}
    (hexact : ExactCapacity w.db) (hlock : w.protectedMapLock region = none) :
    (∀ passes, Always passes (scaleDownIfNecessary cfg region) w (SessionsSpared w region)) ↔
      cfg.isLocalEnv = true ∨ w.db.queryImage "AWS" region = [] ∨
        ∀ i ∈ w.db.instances, i.status = .draining → i.region = region →
          i.remainingCapacity = 0 ∨ assignedMandelboxes w.db i.id = 0 := by
  refine ⟨fun h => ?_,fun h passes => scaleDown_spares hexact h⟩
  by_cases hlocal : cfg.isLocalEnv = true
  · exact Or.inl hlocal
  by_cases himage : w.db.queryImage "AWS" region = []
  · exact Or.inr (Or.inl himage)
  refine Or.inr (Or.inr fun i hi hstatus hregion => ?_)
  by_cases hcapacity : i.remainingCapacity = 0
  · exact Or.inl hcapacity
  let passes : ℕ → ℕ := fun _ => i.updatedAt + expectedDrainTime + 1
  obtain ⟨t,ht,e,he,hid⟩ := scaleDown_terminates hlocal hstatus hregion hcapacity
    (fun k => Nat.lt_succ_self _) hlock himage hi (h passes)
  obtain ⟨-,-,-,-,hassigned⟩ := (ht e he).terminated i.id hid
  exact Or.inr hassigned

theorem scaleDown_spares_sessions_one :
    Always (fun _ => 0) (scaleDownIfNecessary oneRegion "us-east-1") oneWorld
      (SessionsSpared oneWorld "us-east-1") :=
  (scaleDown_spares_sessions_iff oneRegion "us-east-1" (by decide +kernel) rfl).mpr
    (Or.inr (Or.inr (by decide +kernel))) fun _ => 0

def drainingWorld : World :=
  { oneWorld with
    db :=
      { oneWorld.db with
        instances := [{ oneInstance with remainingCapacity := 1, status := .draining }]
        mandelboxes :=
          [{ waitingMandelbox "mandelbox-1" "WHISTIUM" "instance-1" 0 with
              userID := "user", sessionID := "1", status := .running },
            waitingMandelbox "mandelbox-2" "WHISTIUM" "instance-1" 0] }
    clock := minutes 11 }

/-- After ten minutes the instance is terminated under its user. -/
theorem scaleDown_spares_sessions_fails :
    ¬ ∀ (cfg : Settings) (region : String) (passes : ℕ → ℕ) (w : World), ExactCapacity w.db →
      w.protectedMapLock region = none →
      Always passes (scaleDownIfNecessary cfg region) w (SessionsSpared w region) := by
  intro h
  have hrun : ((scaleDownIfNecessary oneRegion "us-east-1").outcome (alone fun _ => 0)
      (fun s op => s.world.reply op) (.start drainingWorld)).map
        (fun x => x.1.history.flatMap fun e => terminated e.op) = some ["instance-1"] := by
    decide +kernel
  obtain ⟨⟨t,u⟩,ht,hterminated⟩ := Option.map_eq_some_iff.mp hrun
  have hspared := h oneRegion "us-east-1" (fun _ => 0) drainingWorld (by decide +kernel) rfl t u
    (ends_of_outcome ht)
  have hmem : "instance-1" ∈ t.history.flatMap fun e => terminated e.op := by simp [hterminated]
  obtain ⟨e,he,hid⟩ := List.mem_flatMap.mp hmem
  obtain ⟨-,-,-,-,hassigned⟩ := (hspared e he).terminated _ hid
  exact absurd hassigned (by decide +kernel)

end Whist.Scaling
