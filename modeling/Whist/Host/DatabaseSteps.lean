import Whist.Host.ServiceSteps

/-! # What a step of the host service does to the rows -/
namespace Whist.Host
open Channel
open Scaling (MandelboxStatus)

namespace MandelboxData

variable {usesGPU : Bool} {a a' : Allocators} {m m' : MandelboxData}

theorem portsStep_id {draws : ℕ → Draws numAllowedPorts} (h : m.portsStep a draws = .ok (a',m')) :
    m'.id = m.id := by
  unfold portsStep at h
  split at h
  · split at h <;> (cases h; rfl)
  · cases h
    rfl
  · cases h
    rfl
  · cases h

theorem displayStep_id {draws : ℕ → Fin numAllowedTTYs} (h : m.displayStep usesGPU a draws = .ok (a',m')) :
    m'.id = m.id := by
  unfold displayStep at h
  split at h
  · split at h <;> (cases h; rfl)
  · cases h
    rfl
  · split_ifs at h
    · split at h <;> (cases h; rfl)
    · cases h
      rfl
  · cases h
    rfl
  · cases h

theorem cleanupStep_id (h : m.cleanupStep usesGPU a = .ok (a',m')) : m'.id = m.id := by
  unfold cleanupStep at h
  split at h
  · cases h
    rfl
  · cases h
    rfl
  · split_ifs at h
    · split at h
      · cases h
      · cases h
        rfl
      · cases h
        rfl
    · cases h
      rfl
  · cases h

theorem step_id {action : MandelboxAction} (h : m.step usesGPU a action = .ok (a',m')) : m'.id = m.id := by
  cases action with
  | ports draws => exact portsStep_id h
  | devices ok =>
    dsimp only [step, devicesStep] at h
    split at h
    · cases h
      rfl
    · cases h
  | display draws => exact displayStep_id h
  | wait =>
    dsimp only [step, waitStep] at h
    split at h
    · cases h
      rfl
    · cases h
  | close =>
    dsimp only [step, closeStep] at h
    split at h
    · cases h
      rfl
    · cases h
  | cleanup => exact cleanupStep_id h

end MandelboxData

theorem HostState.step_ids {usesGPU : Bool} {h h' : HostState} {i : ℕ} {action : MandelboxAction}
    (hstep : h.step usesGPU (.act i action) = .ok h') (j : ℕ) :
    (h'.mandelboxes[j]?).map MandelboxData.id = (h.mandelboxes[j]?).map MandelboxData.id := by
  dsimp only [step] at hstep
  cases hi : h.mandelboxes[i]? with
  | none =>
    rw [hi] at hstep
    cases hstep
  | some m =>
    rw [hi] at hstep
    dsimp only at hstep
    split at hstep
    · cases hstep
    case h_2 allocators m' hm =>
      cases hstep
      dsimp only
      rw [Slots.getElem?_set_of_some hi]
      split_ifs with hji
      · rw [hji, hi, Option.map_some, Option.map_some, MandelboxData.step_id hm]
      · rfl

namespace HostDatabase

variable {db : HostDatabase} {instanceID : String} {id id' : MandelboxID} {status : MandelboxStatus}

def Allocated (db : HostDatabase) (instanceID : String) (id : MandelboxID) : Prop :=
  ∃ r, db.rows.lookup id = some r ∧ IsAllocated instanceID r

def Notices (instanceID : String) (db db' : HostDatabase) : Prop :=
  db'.changed = true ∨
    db'.changed = db.changed ∧ ∀ id, db'.Allocated instanceID id ↔ db.Allocated instanceID id

theorem lookup_write (db : HostDatabase) (instanceID : String) (id id' : MandelboxID) (status : MandelboxStatus) :
    (db.writeMandelboxStatus instanceID id status).rows.lookup id' =
      if id' = id then (db.rows.lookup id).map fun r => { r with status := status }
      else db.rows.lookup id' := by
  unfold writeMandelboxStatus
  cases hrow : db.rows.lookup id with
  | none =>
    dsimp only
    split_ifs with hid
    · rw [hid, hrow, Option.map_none]
    · rfl
  | some r =>
    dsimp only
    split_ifs with hid
    · rw [hid, AList.lookup_insert, Option.map_some]
    · rw [AList.lookup_insert_ne hid]

theorem lookup_create (db : HostDatabase) (instanceID : String) (id id' : MandelboxID)
    (hnone : db.rows.lookup id = none) :
    (db.createMandelbox instanceID id).rows.lookup id' =
      if id' = id then some ⟨instanceID,.waiting⟩ else db.rows.lookup id' := by
  unfold createMandelbox
  rw [hnone]
  dsimp only
  split_ifs with hid
  · rw [hid, AList.lookup_insert]
  · rw [AList.lookup_insert_ne hid]

theorem lookup_remove (db : HostDatabase) (instanceID : String) (id id' : MandelboxID) :
    (db.removeMandelbox instanceID id).rows.lookup id' =
      if id' = id then none else db.rows.lookup id' := by
  unfold removeMandelbox
  cases hrow : db.rows.lookup id with
  | none =>
    dsimp only
    split_ifs with hid
    · rw [hid, hrow]
    · rfl
  | some r =>
    dsimp only
    split_ifs with hid
    · rw [hid, AList.lookup_erase]
    · rw [AList.lookup_erase_ne hid]

theorem Notices.of_row {db' : HostDatabase} (id : MandelboxID)
    (hother : ∀ id', id' ≠ id → db'.rows.lookup id' = db.rows.lookup id')
    (hchanged : db'.changed = true ∨
      db'.changed = db.changed ∧ (db'.Allocated instanceID id ↔ db.Allocated instanceID id)) :
    Notices instanceID db db' := by
  rcases hchanged with hchanged | ⟨hchanged,hsame⟩
  · exact Or.inl hchanged
  · refine Or.inr ⟨hchanged,fun id' => ?_⟩
    by_cases hid : id' = id
    · rw [hid]
      exact hsame
    · unfold Allocated
      rw [hother id' hid]

theorem write_notices (db : HostDatabase) (instanceID : String) (id : MandelboxID) (status : MandelboxStatus) :
    Notices instanceID db (db.writeMandelboxStatus instanceID id status) := by
  refine .of_row id (fun id' hid => by rw [lookup_write, if_neg hid]) ?_
  unfold Allocated
  rw [lookup_write, if_pos rfl]
  cases hrow : db.rows.lookup id with
  | none =>
    right
    refine ⟨?_,by simp⟩
    unfold writeMandelboxStatus
    rw [hrow]
  | some r =>
    have hchanged : (db.writeMandelboxStatus instanceID id status).changed = (db.changed ||
        decide (IsAllocated instanceID r) != decide (IsAllocated instanceID { r with status := status })) := by
      unfold writeMandelboxStatus
      rw [hrow]
    rw [hchanged]
    by_cases hsame : IsAllocated instanceID r ↔ IsAllocated instanceID { r with status := status }
    · right
      constructor
      · simp [decide_eq_decide.mpr hsame]
      · simpa using hsame.symm
    · left
      have hne : decide (IsAllocated instanceID r) ≠ decide (IsAllocated instanceID { r with status := status }) :=
        fun heq => hsame (decide_eq_decide.mp heq)
      simp [bne_iff_ne.mpr hne]

theorem create_notices (db : HostDatabase) (instanceID : String) (id : MandelboxID) :
    Notices instanceID db (db.createMandelbox instanceID id) := by
  cases hrow : db.rows.lookup id with
  | some r =>
    unfold createMandelbox
    rw [hrow]
    exact Or.inr ⟨rfl,fun _ => Iff.rfl⟩
  | none =>
    refine .of_row id (fun id' hid => by rw [lookup_create _ _ _ _ hrow, if_neg hid]) (Or.inr ⟨?_,?_⟩)
    · unfold createMandelbox
      rw [hrow]
    · unfold Allocated
      rw [lookup_create _ _ _ _ hrow, if_pos rfl, hrow]
      simp [IsAllocated]

theorem remove_notices (db : HostDatabase) (instanceID : String) (id : MandelboxID) :
    Notices instanceID db (db.removeMandelbox instanceID id) := by
  refine .of_row id (fun id' hid => by rw [lookup_remove, if_neg hid]) ?_
  unfold Allocated
  rw [lookup_remove, if_pos rfl]
  unfold removeMandelbox
  cases hrow : db.rows.lookup id with
  | none => exact Or.inr ⟨rfl,by simp⟩
  | some r =>
    dsimp only
    by_cases hallocated : IsAllocated instanceID r
    · left
      simp [hallocated]
    · right
      simp [hallocated]

theorem Notices.of_same {db' : HostDatabase} (hrows : db'.rows = db.rows) (hchanged : db'.changed = db.changed) :
    Notices instanceID db db' := by
  refine Or.inr ⟨hchanged,fun id => ?_⟩
  unfold Allocated
  rw [hrows]

end HostDatabase

def LoopPC.registering : LoopPC → Option ℕ
  | .start _ i | .register _ i => some i
  | _ => none

def ServiceMove.turns : ServiceMove → Bool
  | .subscription | .finish _ _ | .spinUp _ _ | .publish _ => true
  | _ => false

namespace Service

variable {cfg : Config} {s t : Service} {i j : ℕ} {f : Finish} {id : MandelboxID} {ok : Bool}
  {out : Outcome}

structure Aside (s t : Service) : Prop where
  finishes : t.finishes = s.finishes
  events : t.subscriptionEvents = s.subscriptionEvents
  ids : ∀ i, t.mandelboxID? i = s.mandelboxID? i
  loop : ∀ i, t.loop.registering = some i → s.loop.registering = some i

inductive RowsEffect (cfg : Config) (s : Service) (mv : ServiceMove) (t : Service) : Prop where
  | kept (hrows : t.db.rows = s.db.rows) (hchanged : t.db.changed = s.db.changed)
  | died (id : MandelboxID) (hdb : t.db = s.db.writeMandelboxStatus cfg.instanceID id .dying)
  | assigned (k : ℕ) (id' : MandelboxID) (a : Assignment) (id : MandelboxID) (hmv : mv = .assignment k id')
      (hk : s.assignments[k]? = some a) (hpc : a.pc = .updateMandelbox id)
      (hdb : t.db = s.db.writeMandelboxStatus cfg.instanceID id .allocated)
  | registered (n i : ℕ) (id : MandelboxID) (hloop : s.loop = .register n i) (hid : s.mandelboxID? i = some id)
      (hnext : t.loop = .spinUp n) (hdb : t.db = s.db.createMandelbox cfg.instanceID id)
  | removed (id : MandelboxID) (hdb : t.db = s.db.removeMandelbox cfg.instanceID id)

theorem RowsEffect.notices {mv : ServiceMove} (h : RowsEffect cfg s mv t) :
    HostDatabase.Notices cfg.instanceID s.db t.db := by
  cases h with
  | kept hrows hchanged => exact .of_same hrows hchanged
  | died id hdb => exact hdb ▸ HostDatabase.write_notices _ _ _ _
  | assigned k id' a id hmv hk hpc hdb => exact hdb ▸ HostDatabase.write_notices _ _ _ _
  | registered n i id hloop hid hnext hdb => exact hdb ▸ HostDatabase.create_notices _ _ _
  | removed id hdb => exact hdb ▸ HostDatabase.remove_notices _ _ _

theorem Aside.of_fields (hfinishes : t.finishes = s.finishes) (hevents : t.subscriptionEvents = s.subscriptionEvents)
    (hhost : t.host = s.host) (hloop : t.loop = s.loop ∨ t.loop.registering = none) : Aside s t where
  finishes := hfinishes
  events := hevents
  ids := by
    intro i
    unfold mandelboxID? mandelbox?
    rw [hhost]
  loop := by
    intro i hi
    rcases hloop with hloop | hloop
    · rw [← hloop]
      exact hi
    · rw [hloop] at hi
      cases hi

theorem Aside.of_host {host : HostState} {action : MandelboxAction}
    (hstep : s.host.step cfg.usesGPU (.act i action) = .ok host) (hhost : t.host = host)
    (hfinishes : t.finishes = s.finishes) (hevents : t.subscriptionEvents = s.subscriptionEvents)
    (hloop : t.loop = s.loop ∨ t.loop.registering = none) : Aside s t where
  finishes := hfinishes
  events := hevents
  ids := by
    intro j
    unfold mandelboxID? mandelbox?
    rw [hhost, HostState.step_ids hstep]
  loop := (Aside.of_fields (s := s) (t := { s with loop := t.loop }) rfl rfl rfl hloop).loop

theorem close_aside (cfg : Config) (s : Service) (i : ℕ) : Aside s (s.close cfg i) ∧ (s.close cfg i).db = s.db ∧
    (s.close cfg i).loop = s.loop := by
  unfold close
  cases hstep : s.host.step cfg.usesGPU (.act i .close) with
  | error e => exact ⟨.of_fields rfl rfl rfl (Or.inl rfl),rfl,rfl⟩
  | ok host => exact ⟨.of_host hstep rfl rfl rfl (Or.inl rfl),rfl,rfl⟩

def Beside (cfg : Config) (s : Service) (mv : ServiceMove) (t : Service) : Prop :=
  Aside s t ∧ RowsEffect cfg s mv t

theorem Beside.of_fields {mv : ServiceMove} (hfinishes : t.finishes = s.finishes)
    (hevents : t.subscriptionEvents = s.subscriptionEvents) (hhost : t.host = s.host)
    (hloop : t.loop = s.loop ∨ t.loop.registering = none) (hrows : t.db.rows = s.db.rows)
    (hchanged : t.db.changed = s.db.changed) : Beside cfg s mv t :=
  ⟨.of_fields hfinishes hevents hhost hloop,.kept hrows hchanged⟩

theorem close_beside {mv : ServiceMove} (i : ℕ) : Beside cfg s mv (s.close cfg i) := by
  obtain ⟨haside,hdb,-⟩ := close_aside cfg s i
  exact ⟨haside,.kept (by rw [hdb]) (by rw [hdb])⟩

theorem cleanupAt_beside {mv : ServiceMove} {pc : CleanupPC} (h : s.cleanupAt cfg i id ok pc = .ok t) :
    Beside cfg s mv t := by
  cases pc <;> dsimp only [cleanupAt] at h
  case markDying =>
    split_ifs at h
    · cases h
      exact ⟨.of_fields rfl rfl rfl (Or.inl rfl),.died id rfl⟩
    · cases h
      exact .of_fields rfl rfl rfl (Or.inl rfl) rfl rfl
  case free =>
    split at h
    · cases h
    · next host hhost =>
      split_ifs at h
      · cases h
        exact ⟨.of_host hhost rfl rfl rfl (Or.inl rfl),.kept rfl rfl⟩
      · cases h
        exact ⟨.of_host hhost rfl rfl rfl (Or.inl rfl),.kept rfl rfl⟩
  case find =>
    split_ifs at h
    · split at h <;> (cases h; exact .of_fields rfl rfl rfl (Or.inl rfl) rfl rfl)
    · cases h
      exact .of_fields rfl rfl rfl (Or.inl rfl) rfl rfl
  case remove =>
    split_ifs at h
    · cases h
      exact ⟨.of_fields rfl rfl rfl (Or.inl rfl),.removed id rfl⟩
    · cases h
      exact .of_fields rfl rfl rfl (Or.inl rfl) rfl rfl
  case capacity =>
    split_ifs at h
    · cases h
      exact .of_fields rfl rfl rfl (Or.inl rfl) rfl rfl
    · cases h
      exact .of_fields rfl rfl rfl (Or.inl rfl) rfl rfl
  case ended => cases h
  all_goals
    cases h
    exact .of_fields rfl rfl rfl (Or.inl rfl) rfl rfl

theorem assignmentAt_beside {k : ℕ} {a : Assignment} (hk : s.assignments[k]? = some a)
    (h : s.assignmentAt cfg k a id a.pc = .ok t) : Beside cfg s (.assignment k id) t := by
  cases hpc : a.pc with
  | queryMandelbox =>
    rw [hpc] at h
    dsimp only [assignmentAt] at h
    split_ifs at h
    cases h
    exact .of_fields rfl rfl rfl (Or.inl rfl) rfl rfl
  | updateMandelbox row =>
    rw [hpc] at h
    cases h
    exact ⟨.of_fields rfl rfl rfl (Or.inl rfl),.assigned k id a row rfl hk hpc rfl⟩
  | updateInstance =>
    rw [hpc] at h
    cases h
    exact .of_fields rfl rfl rfl (Or.inl rfl) rfl rfl
  | ended =>
    rw [hpc] at h
    cases h

theorem panicOr_beside {mv : ServiceMove} {loop : LoopPC} {r : Except Fault Transport}
    (hloop : loop = s.loop ∨ loop.registering = none) (h : { s with loop := loop }.panicOr r = .ok t) :
    Beside cfg s mv t := by
  unfold panicOr at h
  split at h
  · cases h
    exact .of_fields rfl rfl rfl hloop rfl rfl
  · cases h
  · cases h
    exact .of_fields rfl rfl rfl hloop rfl rfl

theorem loopAt_beside {mv : ServiceMove} (h : s.loopAt cfg ok s.loop = .ok t) : Beside cfg s mv t := by
  cases hloop : s.loop <;> rw [hloop] at h <;> dsimp only [loopAt] at h
  case idle => cases h
  case reset m =>
    split at h
    · cases h
    · exact panicOr_beside (Or.inr rfl) h
  case close m =>
    cases h
    obtain ⟨haside,hdb,-⟩ := close_aside cfg s m
    exact ⟨⟨haside.finishes,haside.events,haside.ids,fun j hj => by cases hj⟩,
      .kept (congrArg HostDatabase.rows hdb) (congrArg HostDatabase.changed hdb)⟩
  case capacity =>
    cases h
    refine .of_fields rfl rfl rfl (Or.inr ?_) rfl rfl
    dsimp only
    split_ifs <;> rfl
  case count capacity =>
    cases h
    exact .of_fields rfl rfl rfl (Or.inr rfl) rfl rfl
  case spinUp n =>
    cases n with
    | zero =>
      cases h
      exact .of_fields rfl rfl rfl (Or.inr rfl) rfl rfl
    | succ n => cases h
  case start n m =>
    split at h
    · split_ifs at h
      · cases h
        refine ⟨⟨rfl,rfl,fun _ => rfl,fun j hj => ?_⟩,.kept rfl rfl⟩
        rw [hloop]
        exact hj
      · cases h
        obtain ⟨haside,hdb,-⟩ := close_aside cfg s m
        exact ⟨⟨haside.finishes,haside.events,haside.ids,fun j hj => by cases hj⟩,
          .kept (congrArg HostDatabase.rows hdb) (congrArg HostDatabase.changed hdb)⟩
    · cases h
      exact .of_fields rfl rfl rfl (Or.inr rfl) rfl rfl
    · cases h
      exact .of_fields rfl rfl rfl (Or.inr rfl) rfl rfl
    · cases h
  case register n m =>
    split at h
    · cases h
    · next row hrow =>
      cases h
      have haside : ∀ db : HostDatabase, Aside s { s with loop := .spinUp n, db := db } :=
        fun db => .of_fields rfl rfl rfl (Or.inr rfl)
      refine ⟨haside _,?_⟩
      cases ok with
      | false => exact .kept rfl rfl
      | true => exact .registered n m row hloop hrow rfl rfl

theorem move_beside {mv : ServiceMove} (hmv : mv.turns = false) (h : s.move cfg mv = .ok t) :
    Beside cfg s mv t := by
  cases mv <;> dsimp only [move] at h
  case subscription => cases hmv
  case finish => cases hmv
  case spinUp => cases hmv
  case publish => cases hmv
  case request =>
    split_ifs at h
    cases h
    exact .of_fields rfl rfl rfl (Or.inl rfl) rfl rfl
  case handler => exact panicOr_beside (Or.inl rfl) h
  case dockerDie =>
    split_ifs at h
    cases h
    exact .of_fields rfl rfl rfl (Or.inr rfl) rfl rfl
  case mandelboxDie =>
    by_cases hready : s.loop = .idle ∧ 0 < s.mandelboxDieEvents
    · rw [if_pos hready] at h
      cases h
      refine .of_fields rfl rfl rfl (Or.inr ?_) rfl rfl
      dsimp only
      split_ifs <;> rfl
    · rw [if_neg hready] at h
      cases h
  case loop => exact loopAt_beside h
  case resources m action =>
    split at h
    · cases h
    · cases h
    · split at h
      · cases h
      · next host hhost =>
        cases h
        exact ⟨.of_host hhost rfl rfl rfl (Or.inl rfl),.kept rfl rfl⟩
  case cleanup =>
    split at h
    · cases h
    · exact cleanupAt_beside h
  case stale =>
    split_ifs at h
    cases h
    exact close_beside _
  case stopWaiting =>
    split_ifs at h
    cases h
    exact close_beside _
  case cancel =>
    cases h
    exact .of_fields rfl rfl rfl (Or.inl rfl) rfl rfl
  case assign =>
    split_ifs at h
    cases h
    exact .of_fields rfl rfl rfl (Or.inl rfl) rfl rfl
  case assignment k id =>
    split at h
    · cases h
    · next a ha => exact assignmentAt_beside ha h

end Service

end Whist.Host
