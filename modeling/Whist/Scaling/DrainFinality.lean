import Whist.Scaling.GoroutineCalls
import Whist.Scaling.MandelboxLimit

/-! # A draining instance stays so -/
namespace Whist.Scaling
open Program Client

def SparesRow (id : String) : Op → Prop
  | .updateInstance row => row.id = id → row.status = .draining
  | .registerInstance row => row.id = id → row.status = .draining
  | .writeInstanceStatus status id' => id' = id → status = .draining
  | .updateMandelbox m => m.instanceID ≠ id
  | _ => True

def WhileDraining (id : String) : (op : Op) → Ans op → Prop
  | .queryInstanceWithCapacity _, .ok rows => ∀ i ∈ rows, i.id ≠ id
  | .queryInstance id', .ok rows => id' = id → ∀ i ∈ rows, i.status = .draining
  | _, _ => True

def sparing (id : String) : Contract Op Ans Unit where
  track _ _ := ()
  trusts _ := WhileDraining id
  may _ := SparesRow id

def Harmless {α : Type} (id : String) (p : Prog α) : Prop := p.wp (sparing id) (fun _ _ => True) ()

def Goroutine.activates : Goroutine → Bool
  | .mandelboxAssign _ _ | .registerInstance _ => true
  | _ => false

variable {cfg : Settings} {id : String}

theorem harmless_of_calls {α : Type} {p : Prog α} (h : p.Calls (SparesRow id)) : Harmless id p :=
  wp_mono (h.wp (fun _ hop => hop) fun _ _ _ => rfl) fun _ _ _ => trivial

theorem tryRegions_harmless (commitHash : String) (regions : List String) {a : Option Instance}
    (ha : ∀ i, a = some i → i.id ≠ id) :
    (tryRegions commitHash regions a).run.wp (sparing id)
      (orElse (fun _ a' => ∀ i, a' = some i → i.id ≠ id) fun _ _ => True) () := by
  induction regions generalizing a with
  | nil => exact ha
  | cons region rest ih =>
    unfold tryRegions
    simp only [wp_run_bind, wp_attemptOr, queryInstanceWithCapacity, wp_perform]
    refine wp_mono (harmless_of_calls (queryLatestImage_calls (fun _ _ => trivial) _ _)) ?_
    rintro - image -
    cases image with
    | error e => trivial
    | ok image =>
      refine ⟨trivial,fun rows hrows => ?_⟩
      cases rows with
      | error e => trivial
      | ok rows =>
        have htried : ∀ i, (tryInstances commitHash image.imageID rows a).1 = some i → i.id ≠ id := by
          intro i hi
          rcases tryInstances_cases commitHash image.imageID rows a with h | ⟨j,hj,h⟩
          · exact ha i (h ▸ hi)
          · obtain rfl : j = i := Option.some.inj (h.symm.trans hi)
            exact hrows j hj
        dsimp only [orElse]
        split_ifs
        · exact htried
        · exact ih htried

theorem allocate_harmless {req : AssignRequest} {i : Instance} (hi : i.id ≠ id) :
    Harmless id (allocate cfg req i).run := by
  refine harmless_of_calls (Calls.run_bind (calls_attemptOr ⟨trivial,fun _ => trivial⟩) (fun rows => ?_))
  cases rows with
  | nil => trivial
  | cons row rows =>
    refine Calls.run_bind (Calls.run_liftM ⟨trivial,fun _ => trivial⟩) (fun time => ?_)
    refine Calls.run_bind (calls_attemptOr ⟨hi,fun _ => trivial⟩) (fun n => ?_)
    unfold chargeAndAnswer
    split_ifs
    · trivial
    · refine Calls.run_bind (calls_attemptOr ⟨fun h => absurd h hi,fun _ => trivial⟩) (fun n => ?_)
      cases cfg.parseCIDR i.ipAddress with
      | error e => trivial
      | ok ip => exact Calls.run_liftM ⟨trivial,fun _ => trivial⟩

theorem refuse_harmless {α : Type} (error : AssignError) (message : Option String) :
    Harmless id (refuse error message : AssignAction α).run :=
  harmless_of_calls (Calls.run_bind (Calls.run_liftM ⟨trivial,fun _ => trivial⟩) fun _ => trivial)

theorem assignInRegions_harmless (region : String) (req : AssignRequest) :
    Harmless id (assignInRegions cfg region req).run := by
  unfold assignInRegions Harmless
  simp only [wp_run_bind, wp_attemptOr]
  refine wp_mono (harmless_of_calls (queryLatestImage_calls (fun _ _ => trivial) _ _)) ?_
  rintro - image -
  cases image with
  | error e => trivial
  | ok image =>
    simp only [orElse]
    generalize (if (cfg.isLocalEnv || decide (req.commitHash = clientCommitHashDevOverride)) = true
      then image.clientSHA else req.commitHash) = commitHash
    refine wp_mono (tryRegions_harmless commitHash _ (fun _ h => by cases h)) (orElse_mono ?_ fun _ _ h => h)
    rintro - a ha
    cases a with
    | none => exact refuse_harmless _ _
    | some i =>
      by_cases hsha : i.clientSHA ≠ commitHash
      · simp only [if_pos hsha]
        exact refuse_harmless _ _
      · simp only [if_neg hsha]
        exact allocate_harmless (ha i rfl)

theorem assignBody_harmless (region : String) (req : AssignRequest) :
    Harmless id (assignBody cfg region req).run := by
  unfold assignBody Harmless
  simp only [wp_run_bind, wp_attemptOr]
  refine wp_mono (harmless_of_calls (checkForExistingMandelbox_calls (fun _ => trivial) cfg _)) ?_
  rintro - should -
  cases should with
  | error e => trivial
  | ok should =>
    dsimp only [orElse]
    split_ifs
    · exact refuse_harmless _ _
    · exact refuse_harmless _ _
    · exact assignInRegions_harmless region req

theorem mandelboxAssign_harmless (region : String) (req : AssignRequest) :
    Harmless id (mandelboxAssign cfg region req) := by
  have hverify : Harmless id (verifyCapacity cfg region).run :=
    harmless_of_calls (verifyCapacity_calls trivial (fun _ => trivial) (fun _ _ _ => trivial)
      (fun _ _ _ _ => trivial) (fun _ => trivial) (fun _ => trivial) cfg)
  unfold mandelboxAssign thenVerifyCapacity Harmless
  simp only [wp_bind, wp_pure]
  refine wp_mono (assignBody_harmless region req) ?_
  rintro - r -
  rcases r with (_ | _) | _
  · exact ⟨trivial,fun _ _ => hverify⟩
  · exact hverify
  · exact hverify

theorem registerInstance_harmless (host : HostMetadata) :
    Harmless id (logged (registerInstance host)) := by
  unfold logged registerInstance Harmless
  simp only [wp_bind, wp_run_bind, wp_attemptOr, queryInstance, wp_perform, wp_pure]
  refine ⟨trivial,fun rows hrows => ?_⟩
  rcases rows with e | _ | ⟨row,rows⟩
  · trivial
  · trivial
  · dsimp only [orElse]
    cases hmismatch : registrationMismatch host row with
    | some message => trivial
    | none =>
      -- a row that was found draining is not registered
      have hother : host.instanceID ≠ id := by
        intro hid
        have hdraining := hrows hid row List.mem_cons_self
        unfold registrationMismatch at hmismatch
        split_ifs at hmismatch with _ _ _ _ hstatus
        exact hstatus (by simp [hdraining])
      refine harmless_of_calls (Calls.run_bind (Calls.run_liftM ⟨trivial,fun _ => trivial⟩) (fun time => ?_))
      exact affecting_calls ((calls_perform _ _).mpr fun hid => absurd hid hother) _

theorem body_harmless {kind : Goroutine} (h : kind.activates) : Harmless id (body cfg kind) := by
  cases kind with
  | mandelboxAssign region req => exact mandelboxAssign_harmless region req
  | registerInstance host => exact registerInstance_harmless host
  | _ => cases h

def statusWritten : Event Op Ans → Option (String × InstanceStatus)
  | ⟨.updateInstance row,.ok _⟩ => some (row.id,row.status)
  | ⟨.registerInstance row,.ok _⟩ => some (row.id,row.status)
  | ⟨.writeInstanceStatus status id,.ok _⟩ => some (id,status)
  | _ => none

def rowsInserted : Event Op Ans → List Instance
  | ⟨.insertInstances rows,.ok _⟩ => rows
  | _ => []

variable {w : World} {pid : ℕ} {op : Op} {r : Ans op}

inductive InstanceAfter (w : World) (e : Event Op Ans) (j : Instance) : Prop where
  | kept {i : Instance} (hi : i ∈ w.db.instances) (hid : i.id = j.id) (hstatus : i.status = j.status)
  | written (h : statusWritten e = some (j.id,j.status))
  | inserted (h : j ∈ rowsInserted e) (hfresh : j.id ∉ w.launched.map Instance.id)

theorem instance_after (ha : answers w pid op r) {j : Instance}
    (hj : j ∈ (effect w pid op r).db.instances) : InstanceAfter w ⟨op,r⟩ j := by
  have hset : ∀ {id : String} {f : Instance → Instance}, j ∈ (w.db.setInstances id f).instances →
      (∀ i, (f i).id = i.id ∧ (f i).status = i.status) → InstanceAfter w ⟨op,r⟩ j := by
    intro id f hj hf
    rcases mem_setInstances.mp hj with ⟨hj,-⟩ | ⟨i,hi,-,rfl⟩
    · exact .kept hj rfl rfl
    · exact .kept hi (hf i).1.symm (hf i).2.symm
  cases op with
  | insertInstances rows =>
    cases r with
    | error e => exact .kept hj rfl rfl
    | ok n =>
      rcases List.mem_append.mp hj with hj | hj
      · exact .kept hj rfl rfl
      · exact .inserted hj (ha.2.notMem (List.mem_map_of_mem hj))
  | updateInstance row =>
    cases r with
    | error e => exact .kept hj rfl rfl
    | ok n =>
      rcases mem_setInstances.mp hj with ⟨hj,-⟩ | ⟨i,hi,hid,rfl⟩
      · exact .kept hj rfl rfl
      · exact .written rfl
  | registerInstance row =>
    cases r with
    | error e => exact .kept hj rfl rfl
    | ok n =>
      rcases mem_setInstances.mp hj with ⟨hj,-⟩ | ⟨i,hi,hid,rfl⟩
      · exact .kept hj rfl rfl
      · exact .written rfl
  | writeInstanceStatus status id =>
    cases r with
    | error e => exact .kept hj rfl rfl
    | ok n =>
      rcases mem_setInstances.mp hj with ⟨hj,-⟩ | ⟨i,hi,hid,rfl⟩
      · exact .kept hj rfl rfl
      · exact .written (by rw [statusWritten, hid])
  | writeHeartbeat id =>
    cases r with
    | error e => exact .kept hj rfl rfl
    | ok n => exact hset hj fun i => ⟨rfl,rfl⟩
  | updateInstanceCapacity n id =>
    cases r with
    | error e => exact .kept hj rfl rfl
    | ok n => exact hset hj fun i => ⟨rfl,rfl⟩
  | deleteInstance id =>
    cases r with
    | error e => exact .kept hj rfl rfl
    | ok n => exact .kept (List.mem_filter.mp hj).1 rfl rfl
  | deleteInstanceRow id =>
    cases r with
    | error e => exact .kept hj rfl rfl
    | ok n => exact .kept (List.mem_filter.mp hj).1 rfl rfl
  | _ => first | exact .kept hj rfl rfl | (cases r <;> exact .kept hj rfl rfl)

theorem launched_effect (w : World) (pid : ℕ) (op : Op) (r : Ans op) :
    w.launched <+: (effect w pid op r).launched := by
  cases op with
  | insertInstances rows =>
    cases r with
    | error e => exact List.prefix_rfl
    | ok n => exact List.prefix_append _ _
  | _ => first | exact List.prefix_rfl | (cases r <;> exact List.prefix_rfl)

def StaysDraining (id : String) (w : World) : Prop :=
  id ∈ w.launched.map Instance.id ∧ ∀ i ∈ w.db.instances, i.id = id → i.status = .draining

theorem whileDraining_of_answers (hw : StaysDraining id w) (ha : answers w pid op r) :
    WhileDraining id op r := by
  cases op with
  | queryInstanceWithCapacity region =>
    cases r with
    | error e => trivial
    | ok rows =>
      intro i hi hid
      have hmem := ha.1.mem_iff.mp hi
      rw [Database.queryInstanceWithCapacity, List.mem_filter, decide_eq_true_iff] at hmem
      have hactive := hmem.2.2.1
      rw [hw.2 i hmem.1 hid] at hactive
      cases hactive
  | queryInstance id' =>
    cases r with
    | error e => trivial
    | ok rows =>
      intro hid i hi
      have hmem := ha.mem_iff.mp hi
      rw [Database.queryInstance, List.mem_filter, decide_eq_true_iff] at hmem
      exact hw.2 i hmem.1 (hmem.2.trans hid)
  | _ => trivial

theorem SparesRow.statusWritten (h : SparesRow id op) {status : InstanceStatus}
    (hwritten : Scaling.statusWritten ⟨op,r⟩ = some (id,status)) : status = .draining := by
  cases op with
  | updateInstance row =>
    cases r with
    | error e => cases hwritten
    | ok n =>
      cases hwritten
      exact h rfl
  | registerInstance row =>
    cases r with
    | error e => cases hwritten
    | ok n =>
      cases hwritten
      exact h rfl
  | writeInstanceStatus status id' =>
    cases r with
    | error e => cases hwritten
    | ok n =>
      cases hwritten
      exact h rfl
  | _ => cases hwritten

theorem StaysDraining.effect (hw : StaysDraining id w) (hop : SparesRow id op) (ha : answers w pid op r) :
    StaysDraining id (effect w pid op r) := by
  refine ⟨((launched_effect w pid op r).map _).subset hw.1,fun j hj hid => ?_⟩
  cases instance_after ha hj with
  | kept hi hidi hstatus => exact hstatus ▸ hw.2 _ hi (hidi.trans hid)
  | written h =>
    rw [hid] at h
    exact hop.statusWritten h
  | inserted _ hfresh => exact absurd (hid ▸ hw.1) hfresh

def drained (e : Event Op Ans) : List String :=
  ((statusWritten e).toList.filter fun x => x.2 = .draining).map Prod.fst ++
    ((rowsInserted e).filter fun i => i.status = .draining).map Instance.id

/-- When an instance is marked as draining, no goroutine that was offered it, or found it not yet
connected, has still to write it. -/
def Unheld (s : System) (_ : Process Goroutine Op Ans) (op : Op) (r : Ans op) : Prop :=
  ∀ id ∈ drained ⟨op,r⟩, ∀ q ∈ s.processes, q.kind.activates → Harmless id q.rest

structure Final (id : String) (s : System) : Prop where
  stays : StaysDraining id s.world
  harmless : ∀ (i : ℕ) p, s.processes[i]? = some p → p.kind.activates → Harmless id p.rest

variable {s t : System} {mv : SystemMove} {p : Process Goroutine Op Ans} {next : Ans op → Prog Unit}

theorem spares_of_makes {kind : Goroutine} (h : kind.makes op) (hkind : kind.activates = false) :
    SparesRow id op := by
  have hassign : kind.isAssign = false := by
    cases kind <;> first | rfl | cases hkind
  cases op with
  | updateInstance row =>
    rcases h with h | ⟨region,-,hstatus⟩
    · rw [hassign] at h
      cases h
    · exact fun _ => hstatus
  | registerInstance row =>
    obtain ⟨host,rfl,-⟩ := h
    cases hkind
  | writeInstanceStatus status id' => exact fun _ => h.2
  | updateMandelbox m =>
    rw [show kind.isAssign = true from h] at hassign
    cases hassign
  | _ => trivial

theorem Final.spares (hs : Final id s) (hmaking : s.Making) (hcall : s.AtCall pid p op next) :
    SparesRow id op := by
  by_cases hkind : p.kind.activates
  · have h := hs.harmless pid p hcall.1 hkind
    rw [Harmless, hcall.2] at h
    exact h.1
  · exact spares_of_makes (hmaking.makes hcall) (by simpa using hkind)

theorem Harmless.answered (h : Harmless id p.rest) (hcall : s.AtCall pid p op next)
    (hr : WhileDraining id op r) : Harmless id (next r) := by
  rw [Harmless, hcall.2] at h
  exact h.2 r hr

theorem Final.step (hs : Final id s) (hmaking : s.Making) (h : System.step cfg s mv = .ok t) :
    Final id t where
  stays := by
    cases Pool.steps_of_step h with
    | start kind => exact hs.stays
    | drift e => exact hs.stays
    | act hcall hanswer => exact hs.stays.effect (hs.spares hmaking hcall) hanswer
    | meet hcall₁ hcall₂ hmeets hne => exact hs.stays
  harmless := by
    refine Pool.processes_invariant (fun kind hkind => body_harmless hkind) ?_ ?_ (show ∀ (i : ℕ) p,
      s.processes[i]? = some p → p.kind.activates → Harmless id p.rest from hs.harmless) h
    · intro pid p op next r hcall hanswer hp _ hkind
      exact Harmless.answered (hp hkind) hcall (whileDraining_of_answers hs.stays hanswer)
    · intro pid₁ pid₂ p₁ p₂ op₁ op₂ next₁ next₂ r₁ r₂ hcall₁ hcall₂ hmeets hp₁ hp₂ _
      obtain ⟨region,rfl,rfl⟩ := ops_of_meets hmeets
      exact ⟨fun hkind => Harmless.answered (hp₁ hkind) hcall₁ trivial,
        fun hkind => Harmless.answered (hp₂ hkind) hcall₂ trivial⟩

structure DrainInvariant (s : System) : Prop where
  making : s.Making
  sound : s.world.Sound
  final : ∀ i ∈ s.world.db.instances, i.status = .draining → Final i.id s

theorem DrainInvariant.initial (hw : w.Sound) : DrainInvariant (System.initial w) where
  making := System.making_initial w
  sound := hw
  final := by
    intro i hi hstatus
    refine ⟨⟨hw.launched i hi,fun j hj hid => ?_⟩,fun k p hp => ?_⟩
    · rw [List.inj_on_of_nodup_map hw.instances_nodup hj hi hid]
      exact hstatus
    · simp [System.initial] at hp

theorem Final.of_unheld (hsound : (effect s.world pid op r).Sound) (hcall : s.AtCall pid p op next)
    (hunheld : Unheld s p op r) {j : Instance} (hj : j ∈ (effect s.world pid op r).db.instances)
    (hstatus : j.status = .draining) (hdrained : j.id ∈ drained ⟨op,r⟩) :
    Final j.id (s.acted service pid p op next r) where
  stays := by
    refine ⟨hsound.launched j hj,fun i hi hid => ?_⟩
    rw [List.inj_on_of_nodup_map hsound.instances_nodup hi hj hid]
    exact hstatus
  harmless := by
    intro k q hq hkind
    rw [Pool.acted_processes hcall] at hq
    split_ifs at hq with hk
    · rw [Option.some.injEq] at hq
      subst hq
      refine Harmless.answered (hunheld j.id hdrained p (List.mem_of_getElem? hcall.1) hkind) hcall ?_
      -- the call is a write
      cases op <;> trivial
    · exact hunheld j.id hdrained q (List.mem_of_getElem? hq) hkind

theorem DrainInvariant.step (hs : DrainInvariant s) (hunheld : Pool.OnCall Unheld s mv)
    (h : System.step cfg s mv = .ok t) : DrainInvariant t := by
  have hmaking := hs.making.step h
  have hold : ∀ i ∈ s.world.db.instances, i.status = .draining → Final i.id t :=
    fun i hi hstatus => (hs.final i hi hstatus).step hs.making h
  cases Pool.steps_of_step h with
  | start kind => exact ⟨hmaking,hs.sound,hold⟩
  | drift e => exact ⟨hmaking,{ hs.sound with },hold⟩
  | meet hcall₁ hcall₂ hmeets hne => exact ⟨hmaking,hs.sound,hold⟩
  | @act pid reply p op next hcall hanswer =>
    have hsound := hs.sound.effect hanswer
    refine ⟨hmaking,hsound,fun j hj hstatus => ?_⟩
    have hnow := hunheld p op next hcall
    cases instance_after hanswer hj with
    | kept hi hid hsame => exact hid ▸ hold _ hi (hsame.trans hstatus)
    | written hwritten =>
      refine Final.of_unheld hsound hcall hnow hj hstatus ?_
      simp [drained, hwritten, hstatus]
    | inserted hinserted _ =>
      refine Final.of_unheld hsound hcall hnow hj hstatus ?_
      exact List.mem_append_right _ (List.mem_map_of_mem (List.mem_filter.mpr ⟨hinserted,by simp [hstatus]⟩))

def System.markedBy (s : System) (k : ℕ) : List Mandelbox :=
  match s.processes[k]? with
  | none => []
  | some p => allocations p

def System.answeredBy (s : System) (k : ℕ) : List String :=
  match s.processes[k]? with
  | none => []
  | some p => returnedIDs p

theorem markedBy_of_some {k : ℕ} (h : s.processes[k]? = some p) : s.markedBy k = allocations p := by
  rw [System.markedBy, h]

theorem allocations_advance (p : Process Goroutine Op Ans) (e : Event Op Ans) (rest : Prog Unit) :
    allocations (p.advance e rest) = allocations p ++ (allocation e).toList := by
  rw [allocations, allocations, Process.advance, List.filterMap_append]
  cases h : allocation e <;> simp [h]

def MarksElsewhere (id : String) (s t : System) : Prop :=
  ∀ k, ∃ marked, t.markedBy k = s.markedBy k ++ marked ∧ ∀ m ∈ marked, m.instanceID ≠ id

theorem marksElsewhere_of_eq (h : ∀ k, t.markedBy k = s.markedBy k) : MarksElsewhere id s t :=
  fun k => ⟨[],by rw [h k, List.append_nil],fun _ hm => absurd hm List.not_mem_nil⟩

theorem MarksElsewhere.trans {u : System} (h : MarksElsewhere id s t) (h' : MarksElsewhere id t u) :
    MarksElsewhere id s u := by
  intro k
  obtain ⟨marked,hmarked,hother⟩ := h k
  obtain ⟨marked',hmarked',hother'⟩ := h' k
  refine ⟨marked ++ marked',by rw [hmarked', hmarked, List.append_assoc],fun m hm => ?_⟩
  exact (List.mem_append.mp hm).elim (hother m) (hother' m)

theorem SparesRow.allocation (h : SparesRow id op) {m : Mandelbox} (hm : Scaling.allocation ⟨op,r⟩ = some m) :
    m.instanceID ≠ id := by
  cases op with
  | updateMandelbox row =>
    cases r with
    | error e => cases hm
    | ok n =>
      cases hm
      exact h
  | _ => cases hm

theorem Final.marksElsewhere (hs : Final id s) (hmaking : s.Making) (h : System.step cfg s mv = .ok t) :
    MarksElsewhere id s t := by
  cases Pool.steps_of_step h with
  | start kind =>
    refine marksElsewhere_of_eq fun k => ?_
    cases hk : (s.started (body cfg) kind).processes[k]? with
    | none =>
      have hnone : s.processes[k]? = none := by
        rw [List.getElem?_eq_none_iff] at hk ⊢
        simp only [Pool.started, List.length_append] at hk
        omega
      rw [System.markedBy, System.markedBy, hk, hnone]
    | some q =>
      rcases Pool.started_processes kind hk with hq | rfl
      · rw [markedBy_of_some hk, markedBy_of_some hq]
      · rw [markedBy_of_some hk]
        cases hold : s.processes[k]? with
        | none => rw [System.markedBy, hold]; rfl
        | some q =>
          change (s.processes ++ _)[k]? = _ at hk
          rw [List.getElem?_append_left (List.getElem?_eq_some_iff.mp hold).1, hold] at hk
          rw [markedBy_of_some hold, Option.some.inj hk]
  | drift e => exact marksElsewhere_of_eq fun k => rfl
  | @act pid reply p op next hcall hanswer =>
    intro k
    by_cases hk : k = pid
    · subst hk
      refine ⟨(allocation ⟨op,reply s.world op⟩).toList,?_,fun m hm => ?_⟩
      · rw [markedBy_of_some hcall.1, System.markedBy, Pool.acted_processes hcall, if_pos rfl]
        exact allocations_advance _ _ _
      · exact (hs.spares hmaking hcall).allocation (Option.mem_toList.mp hm)
    · refine ⟨[],?_,fun _ hm => absurd hm List.not_mem_nil⟩
      rw [List.append_nil, System.markedBy, Pool.acted_processes hcall, if_neg hk]
      rfl
  | @meet pid₁ pid₂ p₁ p₂ op₁ op₂ next₁ next₂ r₁ r₂ hcall₁ hcall₂ hmeets hne =>
    obtain ⟨region,rfl,rfl⟩ := ops_of_meets hmeets
    refine marksElsewhere_of_eq fun k => ?_
    rw [System.markedBy, Pool.met_processes hcall₁.lt hcall₂.lt]
    split_ifs with hk hk'
    · subst hk
      rw [markedBy_of_some hcall₂.1]
      exact (allocations_advance _ _ _).trans (List.append_nil _)
    · subst hk'
      rw [markedBy_of_some hcall₁.1]
      exact (allocations_advance _ _ _).trans (List.append_nil _)
    · rfl

theorem Final.run {moves : List SystemMove} (hs : Final id s) (hmaking : s.Making)
    (hrun : Run.run (System.step cfg) s moves = .ok t) : Final id t ∧ MarksElsewhere id s t := by
  induction moves generalizing s with
  | nil =>
    cases hrun
    exact ⟨hs,marksElsewhere_of_eq fun _ => rfl⟩
  | cons mv moves ih =>
    cases hstep : System.step cfg s mv with
    | error e => simp [Run.run, hstep] at hrun
    | ok u =>
      rw [Run.run_cons moves hstep] at hrun
      obtain ⟨hfinal,hmarks⟩ := ih (hs.step hmaking hstep) (hmaking.step hstep) hrun
      exact ⟨hfinal,(hs.marksElsewhere hmaking hstep).trans hmarks⟩

/-- An instance that is draining in one state is not active in a later one, and no request is
answered with a mandelbox of it that was marked in between. -/
def DrainsForGood (s t : System) : Prop :=
  ∀ i ∈ s.world.db.instances, i.status = .draining →
    (∀ j ∈ t.world.db.instances, j.id = i.id → j.status ≠ .active) ∧
      ∀ k, ∀ m ∈ (t.markedBy k).drop (s.markedBy k).length, m.instanceID = i.id → m.id ∉ t.answeredBy k

/-- As long as no instance is marked as draining while a goroutine has it in hand, draining is
for good. -/
theorem drainsForGood_of_unheld (hw : w.Sound) {moves later : List SystemMove}
    (hunheld : Run.EachOk (System.step cfg) (Pool.OnCall Unheld) (System.initial w) moves)
    (hrun : Run.run (System.step cfg) (System.initial w) moves = .ok s)
    (hlater : Run.run (System.step cfg) s later = .ok t) : DrainsForGood s t := by
  have hs : DrainInvariant s := Run.EachOk.invariant (fun _ _ _ hs hp h => hs.step hp h)
    (DrainInvariant.initial hw) hunheld hrun
  intro i hi hstatus
  obtain ⟨hfinal,hmarks⟩ := (hs.final i hi hstatus).run hs.making hlater
  refine ⟨fun j hj hid => ?_,fun k m hm hinstance => ?_⟩
  · rw [hfinal.stays.2 j hj hid]
    decide
  · obtain ⟨marked,hmarked,hother⟩ := hmarks k
    rw [hmarked, List.drop_left] at hm
    exact absurd hinstance (hother m hm)

def NoneActivates (s : System) (_ : Process Goroutine Op Ans) (op : Op) (r : Ans op) : Prop :=
  drained ⟨op,r⟩ = [] ∨ ∀ q ∈ s.processes, q.kind.activates = false

instance (s : System) (p : Process Goroutine Op Ans) (op : Op) (r : Ans op) :
    Decidable (NoneActivates s p op r) := inferInstanceAs (Decidable (_ ∨ _))

theorem unheld_of_noneActivates (h : NoneActivates s p op r) : Unheld s p op r := by
  intro id hid q hq hkind
  rcases h with h | h
  · rw [h] at hid
    cases hid
  · rw [h q hq] at hkind
    cases hkind

def oneScaleDown : List SystemMove := .start (.scaleDownIfNecessary "us-east-1") :: acts 0 6

def lateAssign : List SystemMove :=
  .start (.mandelboxAssign "us-east-1" (oneRequest "user-1")) :: acts 1 5

theorem drainsForGood_of_unheld_lateAssign :
    ∃ s t, Run.run (System.step oneRegion) (System.initial oneWorld) oneScaleDown = .ok s ∧
      Run.run (System.step oneRegion) s lateAssign = .ok t ∧
      (s.world.db.instances.map Instance.status = [.draining]) ∧ DrainsForGood s t := by
  have hnone : Run.EachOk (System.step oneRegion) (Pool.OnCall NoneActivates)
      (System.initial oneWorld) oneScaleDown := by decide +kernel
  have hunheld : Run.EachOk (System.step oneRegion) (Pool.OnCall Unheld) (System.initial oneWorld)
      oneScaleDown :=
    hnone.mono fun s mv h => Pool.OnCall.mono (fun _ _ _ _ => unheld_of_noneActivates) h
  have hstatus : ((Run.run (System.step oneRegion) (System.initial oneWorld) oneScaleDown).toOption.map
      fun s => (s.world.db.instances.map Instance.status,
        (Run.run (System.step oneRegion) s lateAssign).toOption.isSome)) =
        some ([.draining],true) := by decide +kernel
  cases hs : Run.run (System.step oneRegion) (System.initial oneWorld) oneScaleDown with
  | error e =>
    rw [hs] at hstatus
    cases hstatus
  | ok s =>
    rw [hs] at hstatus
    obtain ⟨hdraining,hlater⟩ := Prod.mk.inj (Option.some.inj hstatus)
    cases ht : Run.run (System.step oneRegion) s lateAssign with
    | error e =>
      rw [ht] at hlater
      cases hlater
    | ok t => exact ⟨s,t,rfl,ht,hdraining,drainsForGood_of_unheld oneWorld_sound hunheld hs ht⟩

def heldScaleDown : List SystemMove :=
  [.start (.mandelboxAssign "us-east-1" (oneRequest "user-1")),
    .start (.scaleDownIfNecessary "us-east-1")] ++ acts 0 4 ++ acts 1 6

/-- The assign marks a mandelbox and charges the instance, which makes this active again. -/
theorem drainsForGood_fails :
    ¬∀ (cfg : Settings) (w : World) (moves later : List SystemMove) (s t : System), w.Sound →
      Run.run (System.step cfg) (System.initial w) moves = .ok s →
      Run.run (System.step cfg) s later = .ok t → DrainsForGood s t := by
  intro h
  have hrows : ((Run.run (System.step oneRegion) (System.initial oneWorld) heldScaleDown).toOption.map
      fun s => (s.world.db.instances,
        (Run.run (System.step oneRegion) s (acts 0 5)).toOption.map fun t =>
          (t.world.db.instances,t.processes.map returnedIDs))) =
        some ([{ oneInstance with status := .draining }],
          some ([{ oneInstance with remainingCapacity := 1 }],[["mandelbox-1"],[]])) := by decide +kernel
  cases hs : Run.run (System.step oneRegion) (System.initial oneWorld) heldScaleDown with
  | error e =>
    rw [hs] at hrows
    cases hrows
  | ok s =>
    rw [hs] at hrows
    obtain ⟨hdraining,hlater⟩ := Prod.mk.inj (Option.some.inj hrows)
    cases ht : Run.run (System.step oneRegion) s (acts 0 5) with
    | error e =>
      rw [ht] at hlater
      cases hlater
    | ok t =>
      rw [ht] at hlater
      have hactive : t.world.db.instances = [{ oneInstance with remainingCapacity := 1 }] :=
        (Prod.mk.inj (Option.some.inj hlater)).1
      refine (h oneRegion oneWorld heldScaleDown (acts 0 5) s t oneWorld_sound hs ht
        { oneInstance with status := .draining } ?_ rfl).1 { oneInstance with remainingCapacity := 1 } ?_ rfl rfl
      · rw [show s.world.db.instances = _ from hdraining]
        exact List.mem_singleton_self _
      · rw [hactive]
        exact List.mem_singleton_self _

end Whist.Scaling
