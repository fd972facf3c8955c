import Whist.Host.AllocatedEvents
import Whist.Host.Closing

/-! # Who is handed a mandelbox -/
namespace Whist.Host
open Channel HostDatabase

/-- The mandelbox that `FinishMandelboxSpinUp` holds. -/
def FinishPC.held : FinishPC → Option ℕ
  | .assign m | .getHostPorts m | .getChannel m _ | .receive m _ _ | .connecting m _ | .writeJSONData m _
  | .waitForFile m _ | .markRunning m _ | .returnResult m _ => some m
  | _ => none

def FinishPC.bound : FinishPC → Option (ℕ × HostPorts)
  | .getChannel m ports | .receive m ports _ | .connecting m ports | .writeJSONData m ports
  | .waitForFile m ports | .markRunning m ports | .returnResult m ports => some (m,ports)
  | _ => none

def FinishPC.marking : FinishPC → Option ℕ
  | .markRunning m _ => some m
  | _ => none

def FinishPC.answering : FinishPC → Option ℕ
  | .returnResult m _ => some m
  | _ => none

def FinishPC.closing : FinishPC → Option ℕ
  | .close m => some m
  | _ => none

def LoopPC.closing (ok : Bool) : LoopPC → Option ℕ
  | .close i => some i
  | .start _ i => if ok then none else some i
  | _ => none

/-- The places of the clean-up with a query of `RemoveMandelbox`. -/
def CleanupPC.removes : CleanupPC → Bool
  | .find | .remove _ => true
  | _ => false

/-- `RemoveMandelbox` has removed the row, or has failed. -/
def CleanupPC.removed : CleanupPC → Bool
  | .capacity _ | .notify | .ended => true
  | _ => false

def HostDatabase.IsRunning (db : HostDatabase) (id : MandelboxID) : Prop :=
  (db.rows.lookup id).map Row.status = some .running

instance (db : HostDatabase) (id : MandelboxID) : Decidable (db.IsRunning id) :=
  inferInstanceAs (Decidable (_ = _))

namespace Service

/-- What `FinishMandelboxSpinUp` is about to hand out belongs to a mandelbox that is not closed, and to no
other one; and a row is not `RUNNING` once the clean-up has ended. -/
structure HandsLive (s : Service) : Prop where
  live : ∀ f ∈ s.finishes, ∀ m ports, f.pc = .returnResult m ports →
    ∃ data, s.mandelbox? m = some data ∧ data.id = f.mandelboxID ∧ data.phase = .created ∧
      ∀ k ∈ ports.keys, s.host.allocators.portMaps.table k = some .inUse ∧ k ∈ data.heldPorts ∧
        ∀ i other, i ≠ m → s.mandelbox? i = some other → k ∉ other.heldPorts
  rows : ∀ i id, s.mandelboxID? i = some id → (s.zygotes i).cleanup = .ended → ¬s.db.IsRunning id

def closed? (s : Service) : ServiceMove → Option ℕ
  | .stale i | .stopWaiting i => some i
  | .loop ok => s.loop.closing ok
  | .finish j _ => s.finishes[j]?.bind fun f => f.pc.closing
  | _ => none

/-- No `FinishMandelboxSpinUp` is between marking it running and its answer. -/
def Unanswered (s : Service) (i : ℕ) : Prop := ∀ f ∈ s.finishes, f.pc.answering ≠ some i

instance (s : Service) (i : ℕ) : Decidable (s.Unanswered i) := inferInstanceAs (Decidable (∀ f ∈ _, _))

def Writes (s : Service) : ServiceMove → Prop
  | .finish j out => ∀ f ∈ s.finishes[j]?, ∀ m ∈ f.pc.marking, out ≠ .error →
      (s.db.rows.lookup f.mandelboxID).isSome → s.phase? m = some .created
  | .cleanup i ok => ∀ id ∈ s.mandelboxID? i, (s.zygotes i).cleanup.removes = true → ok = false →
      ¬s.db.IsRunning id
  | _ => True

instance (s : Service) : ∀ mv, Decidable (s.Writes mv)
  | .finish _ _ => inferInstanceAs (Decidable (∀ f ∈ _, _))
  | .cleanup _ _ => inferInstanceAs (Decidable (∀ id ∈ _, _))
  | .request _ | .handler _ | .subscription | .dockerDie _ | .mandelboxDie | .loop _ | .spinUp _ _
  | .resources _ _ | .stale _ | .stopWaiting _ | .cancel | .publish _ | .assign | .assignment _ _ =>
    isTrue trivial

/-- Moreover a mandelbox that was marked running is not closed before the answer. -/
def KeepsAlive (s : Service) (mv : ServiceMove) : Prop := (∀ i ∈ s.closed? mv, s.Unanswered i) ∧ s.Writes mv

instance (s : Service) (mv : ServiceMove) : Decidable (s.KeepsAlive mv) := inferInstanceAs (Decidable (_ ∧ _))

variable {cfg : Config} {reservations : List (UInt16 × TransportProtocol)} {s t : Service} {i j : ℕ}
  {f : Finish} {id : MandelboxID} {ok : Bool} {out : Outcome} {closed : Option ℕ}

theorem mandelboxID?_of {data : MandelboxData} (h : s.mandelbox? i = some data) :
    s.mandelboxID? i = some data.id := by
  unfold mandelboxID?
  rw [h, Option.map_some]

theorem exists_of_mandelboxID? (h : s.mandelboxID? i = some id) :
    ∃ data, s.mandelbox? i = some data ∧ data.id = id :=
  Option.map_eq_some_iff.mp h

theorem phase?_of {data : MandelboxData} (h : s.mandelbox? i = some data) : s.phase? i = some data.phase := by
  unfold phase?
  rw [h, Option.map_some]

/-- What `FinishMandelboxSpinUp` knows of the mandelbox that it holds. -/
structure Sound (s : Service) (f : Finish) : Prop where
  held : ∀ m, f.pc.held = some m → s.mandelboxID? m = some f.mandelboxID
  status : ∀ m, f.pc.held = some m → f.pc ≠ .assign m → (s.zygotes m).status.isSome
  bound : ∀ m ports data, f.pc.bound = some (m,ports) → s.mandelbox? m = some data → data.Bound ports
  answers : ∀ m, f.pc.answering = some m → s.phase? m = some .created

theorem Sound.of_free (hheld : f.pc.held = none) (hbound : f.pc.bound = none)
    (hanswering : f.pc.answering = none) : s.Sound f where
  held := fun m hm => by rw [hheld] at hm; cases hm
  status := fun m hm => by rw [hheld] at hm; cases hm
  bound := fun m ports data hm => by rw [hbound] at hm; cases hm
  answers := fun m hm => by rw [hanswering] at hm; cases hm

theorem Sound.goes {f' : Finish} (h : s.Sound f) {m : ℕ} {ports : HostPorts}
    (hid : f'.mandelboxID = f.mandelboxID) (hbound : f.pc.bound = some (m,ports)) (hbound' : f'.pc.bound = some (m,ports)) (hheld : f.pc.held = some m)
    (hheld' : f'.pc.held = some m) (hassign : ∀ m, f.pc ≠ .assign m)
    (hanswers : f'.pc.answering = some m → s.phase? m = some .created)
    (hanswering : ∀ i, f'.pc.answering = some i → i = m) : s.Sound f' where
  held := by
    intro i hi
    obtain rfl : m = i := Option.some.inj (hheld'.symm.trans hi)
    rw [hid]
    exact h.held m hheld
  status := by
    intro i hi _
    obtain rfl : m = i := Option.some.inj (hheld'.symm.trans hi)
    exact h.status m hheld (hassign m)
  bound := by
    intro i ports' data hi hdata
    obtain ⟨rfl,rfl⟩ : m = i ∧ ports = ports' := by simpa using hbound'.symm.trans hi
    exact h.bound m ports data hbound hdata
  answers := by
    intro i hi
    obtain rfl := hanswering i hi
    exact hanswers hi

/-- The mandelboxes are there as before, and are closed only by `closed`. -/
structure Keeps (s t : Service) (closed : Option ℕ) : Prop where
  mandelboxes : ∀ i data, s.mandelbox? i = some data → ∃ data', t.mandelbox? i = some data' ∧ data.Ages data' ∧
    (closed ≠ some i → data.phase = .created → data'.phase = .created)
  status : ∀ i id, s.mandelboxID? i = some id → (s.zygotes i).status.isSome → (t.zygotes i).status.isSome

theorem Keeps.of_host (hhost : t.host = s.host)
    (hstatus : ∀ i, (s.zygotes i).status.isSome → (t.zygotes i).status.isSome) : Keeps s t closed := by
  refine ⟨fun i data hi => ⟨data,?_,.refl data,fun _ h => h⟩,fun i _ _ => hstatus i⟩
  unfold mandelbox?
  rw [hhost]
  exact hi

theorem Keeps.of_act {action : MandelboxAction} {host : HostState}
    (hhost : HostInvariant cfg.usesGPU reservations s.host)
    (hact : s.host.step cfg.usesGPU (.act i action) = .ok host) (hthost : t.host = host)
    (hclosed : action = .close → closed = some i)
    (hstatus : ∀ i, (s.zygotes i).status.isSome → (t.zygotes i).status.isSome) : Keeps s t closed := by
  obtain ⟨m,a,m',hm,hstep,hset⟩ := HostState.step_act hact
  refine ⟨fun j data hj => ?_,fun i _ _ => hstatus i⟩
  have hget : t.mandelbox? j = if j = i then some m' else s.mandelbox? j := by
    unfold mandelbox?
    rw [hthost, hset, Slots.getElem?_set_of_some hm]
  by_cases hji : j = i
  · obtain rfl : m = data := Option.some.inj (hm.symm.trans (hji ▸ hj))
    refine ⟨m',by rw [hget, if_pos hji],MandelboxData.step_ages (hhost.wellFormed i m hm) hstep,fun hne => ?_⟩
    exact MandelboxData.step_created hstep (fun hclose => hne (hji ▸ hclosed hclose))
  · exact ⟨data,by rw [hget, if_neg hji, hj],.refl data,fun _ h => h⟩

theorem Keeps.mandelboxID? (h : Keeps s t closed) (hi : s.mandelboxID? i = some id) :
    t.mandelboxID? i = some id := by
  obtain ⟨data,hdata,rfl⟩ := exists_of_mandelboxID? hi
  obtain ⟨data',hdata',hages,-⟩ := h.mandelboxes i data hdata
  rw [mandelboxID?_of hdata', hages.id]

theorem FinishPC.held_of_bound {pc : FinishPC} {m : ℕ} {ports : HostPorts} (h : pc.bound = some (m,ports)) :
    pc.held = some m := by
  cases pc <;> cases h <;> rfl

theorem Sound.keeps (h : s.Sound f) (hkeeps : Keeps s t closed)
    (hclosed : ∀ i, closed = some i → f.pc.answering ≠ some i) : t.Sound f where
  held := fun m hm => hkeeps.mandelboxID? (h.held m hm)
  status := fun m hm hassign => hkeeps.status m _ (h.held m hm) (h.status m hm hassign)
  bound := by
    intro m ports data' hbound hdata'
    obtain ⟨data,hdata,-⟩ := exists_of_mandelboxID? (h.held m (FinishPC.held_of_bound hbound))
    obtain ⟨data'',hdata'',hages,-⟩ := hkeeps.mandelboxes m data hdata
    obtain rfl := Option.some.inj (hdata''.symm.trans hdata')
    exact hages.bound ports (h.bound m ports data hbound hdata)
  answers := by
    intro m hm
    obtain ⟨data,hdata,hphase⟩ := Option.map_eq_some_iff.mp (h.answers m hm)
    obtain ⟨data',hdata',-,hcreated⟩ := hkeeps.mandelboxes m data hdata
    rw [phase?_of hdata', hcreated (fun hc => hclosed m hc hm) hphase]

theorem Sound.of_host (h : s.Sound f) (hhost : t.host = s.host)
    (hstatus : ∀ i, (s.zygotes i).status.isSome → (t.zygotes i).status.isSome) : t.Sound f := by
  have hkeeps : Keeps s t none := .of_host hhost hstatus
  exact h.keeps hkeeps (fun i hi => by cases hi)

structure LiveInv (cfg : Config) (reservations : List (UInt16 × TransportProtocol)) (s : Service) : Prop where
  host : HostInvariant cfg.usesGPU reservations s.host
  ids : ∀ i j id, s.mandelboxID? i = some id → s.mandelboxID? j = some id → i = j
  tracked : ∀ id m, s.tracker id = some m → s.mandelboxID? m = some id
  finishes : ∀ f ∈ s.finishes, s.Sound f
  closing : ∀ i data, s.mandelbox? i = some data → (s.zygotes i).cleanup ≠ .markDying → data.IsClosed
  running : ∀ i id, s.mandelboxID? i = some id → s.db.IsRunning id → (s.zygotes i).status.isSome
  removed : ∀ i id, s.mandelboxID? i = some id → (s.zygotes i).cleanup.removed = true → ¬s.db.IsRunning id

structure Calm (cfg : Config) (reservations : List (UInt16 × TransportProtocol)) (s t : Service)
    (closed : Option ℕ) : Prop where
  keeps : Keeps s t closed
  host : HostInvariant cfg.usesGPU reservations t.host
  length : t.host.mandelboxes.length = s.host.mandelboxes.length
  tracker : ∀ id m, t.tracker id = some m → s.tracker id = some m

theorem Calm.of_host (hinv : HostInvariant cfg.usesGPU reservations s.host) (hhost : t.host = s.host)
    (hstatus : ∀ i, (s.zygotes i).status.isSome → (t.zygotes i).status.isSome)
    (htracker : ∀ id m, t.tracker id = some m → s.tracker id = some m) : Calm cfg reservations s t closed :=
  ⟨.of_host hhost hstatus,by rw [hhost]; exact hinv,by rw [hhost],htracker⟩

theorem Calm.of_act {action : MandelboxAction} {host : HostState}
    (hinv : HostInvariant cfg.usesGPU reservations s.host)
    (hact : s.host.step cfg.usesGPU (.act i action) = .ok host) (hthost : t.host = host)
    (hclosed : action = .close → closed = some i)
    (hstatus : ∀ i, (s.zygotes i).status.isSome → (t.zygotes i).status.isSome)
    (htracker : ∀ id m, t.tracker id = some m → s.tracker id = some m) : Calm cfg reservations s t closed := by
  refine ⟨.of_act hinv hact hthost hclosed hstatus,?_,?_,htracker⟩
  · rw [hthost]
    exact HostInvariant.step hinv hact
  · obtain ⟨m,a,m',hm,hstep,hset⟩ := HostState.step_act hact
    rw [hthost, hset, List.length_set]

namespace Calm

theorem mandelbox? (h : Calm cfg reservations s t closed) {data' : MandelboxData}
    (hi : t.mandelbox? i = some data') : ∃ data, s.mandelbox? i = some data ∧ data.Ages data' := by
  have hlt : i < s.host.mandelboxes.length := h.length ▸ Slots.lt_of_some hi
  obtain ⟨data,hdata⟩ : ∃ data, s.mandelbox? i = some data := ⟨_,List.getElem?_eq_getElem hlt⟩
  obtain ⟨data'',hdata'',hages,-⟩ := h.keeps.mandelboxes i data hdata
  obtain rfl := Option.some.inj (hdata''.symm.trans hi)
  exact ⟨data,hdata,hages⟩

theorem mandelboxID? (h : Calm cfg reservations s t closed) (hi : t.mandelboxID? i = some id) :
    s.mandelboxID? i = some id := by
  obtain ⟨data',hdata',rfl⟩ := exists_of_mandelboxID? hi
  obtain ⟨data,hdata,hages⟩ := h.mandelbox? hdata'
  rw [mandelboxID?_of hdata, hages.id]

end Calm

namespace LiveInv

theorem of_calm (h : LiveInv cfg reservations s) (hcalm : Calm cfg reservations s t closed)
    (hfinishes : ∀ f ∈ t.finishes, t.Sound f)
    (hclosing : ∀ i, (t.zygotes i).cleanup ≠ .markDying → (s.zygotes i).cleanup ≠ .markDying ∨
      ∀ data, s.mandelbox? i = some data → data.IsClosed)
    (hrunning : ∀ i id, s.mandelboxID? i = some id → t.db.IsRunning id → s.db.IsRunning id ∨
      (t.zygotes i).status.isSome ∧ (t.zygotes i).cleanup = .markDying)
    (hremoved : ∀ i id, s.mandelboxID? i = some id → (t.zygotes i).cleanup.removed = true →
      (s.zygotes i).cleanup.removed = true ∨ ¬t.db.IsRunning id) : LiveInv cfg reservations t where
  host := hcalm.host
  ids := fun i j id hi hj => h.ids i j id (hcalm.mandelboxID? hi) (hcalm.mandelboxID? hj)
  tracked := fun id m hm => hcalm.keeps.mandelboxID? (h.tracked id m (hcalm.tracker id m hm))
  finishes := hfinishes
  closing := by
    intro i data' hi hcleanup
    obtain ⟨data,hdata,hages⟩ := hcalm.mandelbox? hi
    rcases hclosing i hcleanup with hold | hclosed
    · exact hages.closed (h.closing i data hdata hold)
    · exact hages.closed (hclosed data hdata)
  running := by
    intro i id hi hrun
    have hi' := hcalm.mandelboxID? hi
    rcases hrunning i id hi' hrun with hold | hnew
    · exact hcalm.keeps.status i id hi' (h.running i id hi' hold)
    · exact hnew.1
  removed := by
    intro i id hi hgone hrun
    have hi' := hcalm.mandelboxID? hi
    rcases hremoved i id hi' hgone with hold | hnot
    · rcases hrunning i id hi' hrun with hrun' | hnew
      · exact h.removed i id hi' hold hrun'
      · rw [hnew.2] at hgone
        cases hgone
    · exact hnot hrun

theorem aside (h : LiveInv cfg reservations s) (hcalm : Calm cfg reservations s t closed)
    (hclosed : ∀ i, closed = some i → s.Unanswered i) (hfinishes : t.finishes = s.finishes)
    (hcleanup : ∀ i, (t.zygotes i).cleanup = (s.zygotes i).cleanup)
    (hrunning : ∀ id, t.db.IsRunning id → s.db.IsRunning id) : LiveInv cfg reservations t := by
  refine h.of_calm hcalm (fun f hf => ?_) (fun i hi => Or.inl (hcleanup i ▸ hi))
    (fun i id _ hid => Or.inl (hrunning id hid)) (fun i id _ hi => Or.inl (hcleanup i ▸ hi))
  rw [hfinishes] at hf
  exact (h.finishes f hf).keeps hcalm.keeps (fun i hi => hclosed i hi f hf)

end LiveInv

theorem setStatus_status (s : Service) (i j : ℕ) (status : Scaling.MandelboxStatus)
    (h : (s.zygotes j).status.isSome) : ((s.setStatus i status).zygotes j).status.isSome := by
  unfold setStatus setZygote
  dsimp only
  by_cases hji : j = i
  · rw [hji, Function.update_self]
    rfl
  · rw [Function.update_of_ne hji]
    exact h

theorem setStatus_cleanup (s : Service) (i j : ℕ) (status : Scaling.MandelboxStatus) :
    ((s.setStatus i status).zygotes j).cleanup = (s.zygotes j).cleanup := by
  unfold setStatus setZygote
  dsimp only
  by_cases hji : j = i
  · rw [hji, Function.update_self]
  · rw [Function.update_of_ne hji]

def Still (cfg : Config) (reservations : List (UInt16 × TransportProtocol)) (s t : Service)
    (closed : Option ℕ) : Prop :=
  Calm cfg reservations s t closed ∧ ∀ i, (t.zygotes i).cleanup = (s.zygotes i).cleanup

theorem Still.of_fields (hinv : HostInvariant cfg.usesGPU reservations s.host) (hhost : t.host = s.host)
    (hzygotes : t.zygotes = s.zygotes) (htracker : t.tracker = s.tracker) : Still cfg reservations s t closed :=
  ⟨.of_host hinv hhost (fun i h => by rw [hzygotes]; exact h) (fun id m h => by rwa [htracker] at h),
    fun i => by rw [hzygotes]⟩

theorem Still.of_status {m : ℕ} {status : Scaling.MandelboxStatus}
    (hinv : HostInvariant cfg.usesGPU reservations s.host) (hhost : t.host = s.host)
    (hzygotes : t.zygotes = (s.setStatus m status).zygotes) (htracker : t.tracker = s.tracker) :
    Still cfg reservations s t closed :=
  ⟨.of_host hinv hhost (fun i h => by rw [hzygotes]; exact setStatus_status s m i status h)
    (fun id m h => by rwa [htracker] at h),fun i => by rw [hzygotes]; exact setStatus_cleanup s m i status⟩

theorem Still.of_close {m : ℕ} (hinv : HostInvariant cfg.usesGPU reservations s.host)
    (hhost : t.host = (s.close cfg m).host) (hzygotes : t.zygotes = s.zygotes)
    (htracker : t.tracker = s.tracker) : Still cfg reservations s t (some m) := by
  unfold close at hhost
  cases hact : s.host.step cfg.usesGPU (.act m .close) with
  | error e =>
    rw [hact] at hhost
    exact .of_fields hinv hhost hzygotes htracker
  | ok host =>
    rw [hact] at hhost
    exact ⟨.of_act hinv hact hhost (fun _ => rfl) (fun i h => by rw [hzygotes]; exact h)
      (fun id m h => by rwa [htracker] at h),fun i => by rw [hzygotes]⟩

theorem close_zygotes (cfg : Config) (s : Service) (m : ℕ) :
    (s.close cfg m).zygotes = s.zygotes ∧ (s.close cfg m).tracker = s.tracker := by
  unfold close
  split
  · exact ⟨rfl,rfl⟩
  · exact ⟨rfl,rfl⟩

theorem panicOr_still {loop : LoopPC} {r : Except Fault Transport}
    (hinv : HostInvariant cfg.usesGPU reservations s.host)
    (h : { s with loop := loop }.panicOr r = .ok t) : Still cfg reservations s t closed := by
  unfold panicOr at h
  split at h
  · cases h
    exact .of_fields hinv rfl rfl rfl
  · cases h
  · cases h
    exact .of_fields hinv rfl rfl rfl

theorem loopAt_still (hinv : HostInvariant cfg.usesGPU reservations s.host)
    (h : s.loopAt cfg ok s.loop = .ok t) :
    Still cfg reservations s t (s.loop.closing ok) := by
  cases hloop : s.loop <;> rw [hloop] at h <;> dsimp only [loopAt] at h
  case idle => cases h
  case reset m =>
    split at h
    · cases h
    · exact panicOr_still hinv h
  case close m =>
    cases h
    obtain ⟨hzygotes,htracker⟩ := close_zygotes cfg s m
    exact .of_close hinv rfl hzygotes htracker
  case spinUp n =>
    cases n with
    | zero =>
      cases h
      exact .of_fields hinv rfl rfl rfl
    | succ n => cases h
  case start n m =>
    split at h
    · cases ok with
      | true =>
        cases h
        exact .of_status hinv rfl rfl rfl
      | false =>
        cases h
        obtain ⟨hzygotes,htracker⟩ := close_zygotes cfg s m
        exact .of_close hinv rfl hzygotes htracker
    · cases h
      exact .of_fields hinv rfl rfl rfl
    · cases h
      exact .of_fields hinv rfl rfl rfl
    · cases h
  case register n m =>
    split at h
    · cases h
    · cases h
      exact .of_fields hinv rfl rfl rfl
  all_goals
    cases h
    exact .of_fields hinv rfl rfl rfl

theorem assignmentAt_still {k : ℕ} {a : Assignment} (hinv : HostInvariant cfg.usesGPU reservations s.host)
    (h : s.assignmentAt cfg k a id a.pc = .ok t) : Still cfg reservations s t closed := by
  cases hpc : a.pc <;> rw [hpc] at h <;> dsimp only [assignmentAt] at h
  case queryMandelbox =>
    split_ifs at h
    cases h
    exact .of_fields hinv rfl rfl rfl
  case ended => cases h
  all_goals
    cases h
    exact .of_fields hinv rfl rfl rfl

theorem move_still {mv : ServiceMove} (hinv : HostInvariant cfg.usesGPU reservations s.host)
    (hmv : mv.turns = false) (hclean : ∀ i ok, mv ≠ .cleanup i ok) (h : s.move cfg mv = .ok t) :
    Still cfg reservations s t (s.closed? mv) := by
  cases mv <;> dsimp only [move] at h
  case subscription => cases hmv
  case finish => cases hmv
  case spinUp => cases hmv
  case publish => cases hmv
  case cleanup i ok => exact absurd rfl (hclean i ok)
  case request =>
    split_ifs at h
    cases h
    exact .of_fields hinv rfl rfl rfl
  case handler => exact panicOr_still hinv h
  case dockerDie =>
    split_ifs at h
    cases h
    exact .of_fields hinv rfl rfl rfl
  case mandelboxDie =>
    by_cases hready : s.loop = .idle ∧ 0 < s.mandelboxDieEvents
    · rw [if_pos hready] at h
      cases h
      exact .of_fields hinv rfl rfl rfl
    · rw [if_neg hready] at h
      cases h
  case loop => exact loopAt_still hinv h
  case resources m action =>
    split at h
    · cases h
    · cases h
    · next hclose hcleanup =>
      split at h
      · cases h
      · next host hhost =>
        cases h
        exact ⟨.of_act hinv hhost rfl (fun hc => absurd hc hclose) (fun _ h => h) (fun _ _ h => h),fun _ => rfl⟩
  case stale m =>
    split_ifs at h
    cases h
    obtain ⟨hzygotes,htracker⟩ := close_zygotes cfg s m
    exact .of_close hinv rfl hzygotes htracker
  case stopWaiting m =>
    split_ifs at h
    cases h
    obtain ⟨hzygotes,htracker⟩ := close_zygotes cfg s m
    exact .of_close hinv rfl hzygotes htracker
  case cancel =>
    cases h
    exact .of_fields hinv rfl rfl rfl
  case assign =>
    split_ifs at h
    cases h
    exact .of_fields hinv rfl rfl rfl
  case assignment k id =>
    split at h
    · cases h
    · exact assignmentAt_still hinv h

theorem write_running {db : HostDatabase} {instanceID : String} {id id' : MandelboxID}
    {status : Scaling.MandelboxStatus}
    (h : (db.writeMandelboxStatus instanceID id status).IsRunning id') :
    db.IsRunning id' ∨ id' = id ∧ status = .running := by
  unfold IsRunning at h
  rw [lookup_write] at h
  split_ifs at h with hid
  · rw [Option.map_map] at h
    obtain ⟨r,-,hr⟩ := Option.map_eq_some_iff.mp h
    exact Or.inr ⟨hid,hr⟩
  · exact Or.inl h

theorem RowsEffect.running {mv : ServiceMove} (h : RowsEffect cfg s mv t) (hid : t.db.IsRunning id) :
    s.db.IsRunning id := by
  cases h with
  | kept hrows _ =>
    unfold IsRunning at hid ⊢
    rwa [hrows] at hid
  | died id' hdb =>
    rw [hdb] at hid
    exact (write_running hid).resolve_right (by simp)
  | assigned k id'' a id' hmv hk hpc hdb =>
    rw [hdb] at hid
    exact (write_running hid).resolve_right (by simp)
  | registered n i id' hloop hmandelbox hnext hdb =>
    rw [hdb] at hid
    cases hrow : s.db.rows.lookup id' with
    | some r =>
      unfold createMandelbox at hid
      rwa [hrow] at hid
    | none =>
      unfold IsRunning at hid ⊢
      rw [lookup_create _ _ _ _ hrow] at hid
      split_ifs at hid
      · cases hid
      · exact hid
  | removed id' hdb =>
    rw [hdb] at hid
    unfold IsRunning at hid ⊢
    rw [lookup_remove] at hid
    split_ifs at hid
    · cases hid
    · exact hid

namespace LiveInv

theorem setFinish (h : LiveInv cfg reservations s) (hstill : Still cfg reservations s t closed)
    (hclosed : ∀ i, closed = some i → s.Unanswered i) {f' : Finish}
    (hfinishes : t.finishes = s.finishes.set j f') (hsound : t.Sound f')
    (hrunning : ∀ i id, s.mandelboxID? i = some id → t.db.IsRunning id → s.db.IsRunning id ∨
      (t.zygotes i).status.isSome ∧ (t.zygotes i).cleanup = .markDying) :
    LiveInv cfg reservations t := by
  obtain ⟨hcalm,hcleanup⟩ := hstill
  refine h.of_calm hcalm (fun g hg => ?_) (fun i hi => Or.inl (hcleanup i ▸ hi)) hrunning
    (fun i id _ hi => Or.inl (hcleanup i ▸ hi))
  rw [hfinishes] at hg
  rcases List.mem_or_eq_of_mem_set hg with hold | rfl
  · exact (h.finishes g hold).keeps hcalm.keeps (fun i hi => hclosed i hi g hold)
  · exact hsound

theorem goes (h : LiveInv cfg reservations s) (hstill : Still cfg reservations s t none) {f' : Finish}
    (hfinishes : t.finishes = s.finishes.set j f') (hdb : t.db = s.db) (hsound : t.Sound f') :
    LiveInv cfg reservations t :=
  h.setFinish hstill (fun i hi => by cases hi) hfinishes hsound (fun i id _ hid => Or.inl (by rwa [hdb] at hid))

theorem holds (h : LiveInv cfg reservations s) (hj : s.finishes[j]? = some f) {m : ℕ} {ports : HostPorts}
    {f' : Finish} (hstill : Still cfg reservations s t none) (hfinishes : t.finishes = s.finishes.set j f')
    (hdb : t.db = s.db) (hid : f'.mandelboxID = f.mandelboxID) (hbound : f.pc.bound = some (m,ports))
    (hbound' : f'.pc.bound = some (m,ports)) (hanswering : f'.pc.answering = none) :
    LiveInv cfg reservations t := by
  have hassign : ∀ i, f.pc ≠ .assign i := by
    intro i hpc
    rw [hpc] at hbound
    cases hbound
  have hsound : s.Sound f' := (h.finishes f (List.mem_of_getElem? hj)).goes hid hbound hbound'
    (FinishPC.held_of_bound hbound) (FinishPC.held_of_bound hbound') hassign
    (fun hi => by rw [hanswering] at hi; cases hi) (fun i hi => by rw [hanswering] at hi; cases hi)
  exact h.goes hstill hfinishes hdb (hsound.keeps hstill.1.keeps (fun i hi => by cases hi))

theorem frees (h : LiveInv cfg reservations s) {f' : Finish} (hstill : Still cfg reservations s t none)
    (hfinishes : t.finishes = s.finishes.set j f') (hrunning : ∀ id, t.db.IsRunning id → s.db.IsRunning id)
    (hheld : f'.pc.held = none) (hbound : f'.pc.bound = none) (hanswering : f'.pc.answering = none) :
    LiveInv cfg reservations t :=
  h.setFinish hstill (fun i hi => by cases hi) hfinishes (.of_free hheld hbound hanswering)
    (fun i id _ hid => Or.inl (hrunning id hid))

theorem finishAt (h : LiveInv cfg reservations s) (hj : s.finishes[j]? = some f)
    (halive : s.KeepsAlive (.finish j out)) (hstep : s.finishAt cfg j f out f.pc = .ok t) :
    LiveInv cfg reservations t := by
  have hf := h.finishes f (List.mem_of_getElem? hj)
  have hsame : ∀ {u : Service}, u.host = s.host → u.zygotes = s.zygotes → u.tracker = s.tracker →
      Still cfg reservations s u none :=
    fun hhost hzygotes htracker => .of_fields h.host hhost hzygotes htracker
  cases hpc : f.pc <;> rw [hpc] at hstep <;> dsimp only [Service.finishAt] at hstep
  case verify =>
    split_ifs at hstep
    · cases hstep
      exact h.frees (hsame rfl rfl rfl) rfl (fun _ hid => hid) rfl rfl rfl
    · cases hstep
      exact h.frees (hsame rfl rfl rfl) rfl (fun _ hid => hid) rfl rfl rfl
  case markConnecting =>
    split_ifs at hstep
    · cases hstep
      exact h.frees (hsame rfl rfl rfl) rfl (fun _ hid => hid) rfl rfl rfl
    · cases hstep
      exact h.frees (hsame rfl rfl rfl) rfl (fun _ hid => hid) rfl rfl rfl
    · cases hstep
      exact h.frees (hsame rfl rfl rfl) rfl (fun _ hid => (write_running hid).resolve_right (by simp))
        rfl rfl rfl
  case lookUp =>
    cases htracker : s.tracker f.mandelboxID with
    | none =>
      rw [htracker] at hstep
      cases hstep
      exact h.frees (hsame rfl rfl rfl) rfl (fun _ hid => hid) rfl rfl rfl
    | some m =>
      rw [htracker] at hstep
      cases hstep
      refine h.goes (hsame rfl rfl rfl) rfl rfl
        ⟨fun i hi => ?_,fun i hi hassign => ?_,fun i ports data hi => ?_,fun i hi => ?_⟩
      · obtain rfl : m = i := Option.some.inj hi
        exact h.tracked _ _ htracker
      · obtain rfl : m = i := Option.some.inj hi
        exact absurd rfl hassign
      · cases hi
      · cases hi
  case assign m =>
    cases hstep
    have hheld := hf.held m (by rw [hpc]; rfl)
    refine h.goes (.of_status h.host rfl rfl rfl) rfl rfl
      ⟨fun i hi => ?_,fun i hi _ => ?_,fun i ports data hi => ?_,fun i hi => ?_⟩
    · obtain rfl : m = i := Option.some.inj hi
      exact hheld
    · obtain rfl : m = i := Option.some.inj hi
      change ((Function.update s.zygotes m _ m).status).isSome = true
      rw [Function.update_self]
      rfl
    · cases hi
    · cases hi
  case getHostPorts m =>
    cases hports : (s.mandelbox? m).bind fun data => hostPorts data.portBindings with
    | none =>
      rw [hports] at hstep
      cases hstep
      exact h.frees (hsame rfl rfl rfl) rfl (fun _ hid => hid) rfl rfl rfl
    | some ports =>
      rw [hports] at hstep
      cases hstep
      refine h.goes (hsame rfl rfl rfl) rfl rfl
        ⟨fun i hi => ?_,fun i hi _ => ?_,fun i ports' data hi hdata => ?_,fun i hi => ?_⟩
      · obtain rfl : m = i := Option.some.inj hi
        exact hf.held m (by rw [hpc]; rfl)
      · obtain rfl : m = i := Option.some.inj hi
        exact hf.status m (by rw [hpc]; rfl) (by rw [hpc]; simp)
      · obtain ⟨rfl,rfl⟩ : m = i ∧ ports = ports' := by simpa [FinishPC.bound] using hi
        obtain ⟨data',hdata',hbindings⟩ := Option.bind_eq_some_iff.mp hports
        obtain rfl : data' = data := Option.some.inj (hdata'.symm.trans hdata)
        exact Or.inl hbindings
      · cases hi
  case getChannel m ports =>
    split at hstep
    · cases hstep
    · cases hstep
      exact h.holds hj (hsame rfl rfl rfl) rfl rfl rfl (by rw [hpc]; rfl) rfl rfl
  case receive m ports a =>
    split_ifs at hstep
    · cases hstep
      exact h.frees (hsame rfl rfl rfl) rfl (fun _ hid => hid) rfl rfl rfl
    · split at hstep
      · cases hstep
      · cases hstep
        exact h.holds hj (hsame rfl rfl rfl) rfl rfl rfl (by rw [hpc]; rfl) rfl rfl
  case connecting m ports =>
    cases hstep
    exact h.holds hj (.of_status h.host rfl rfl rfl) rfl rfl rfl (by rw [hpc]; rfl) rfl rfl
  case writeJSONData m ports =>
    split_ifs at hstep
    · cases hstep
      have hstill : Still cfg reservations s { s with crashed := true } none := .of_fields h.host rfl rfl rfl
      exact h.aside hstill.1 (fun i hi => by cases hi) rfl (fun _ => rfl) (fun _ hid => hid)
    · cases hstep
      exact h.frees (hsame rfl rfl rfl) rfl (fun _ hid => hid) rfl rfl rfl
    · cases hstep
      exact h.holds hj (hsame rfl rfl rfl) rfl rfl rfl (by rw [hpc]; rfl) rfl rfl
    · cases hstep
      exact h.holds hj (hsame rfl rfl rfl) rfl rfl rfl (by rw [hpc]; rfl) rfl rfl
  case waitForFile m ports =>
    split_ifs at hstep
    · cases hstep
      exact h.frees (hsame rfl rfl rfl) rfl (fun _ hid => hid) rfl rfl rfl
    · cases hstep
      exact h.holds hj (hsame rfl rfl rfl) rfl rfl rfl (by rw [hpc]; rfl) rfl rfl
  case markRunning m ports =>
    split_ifs at hstep with hfails
    · cases hstep
      exact h.frees (hsame rfl rfl rfl) rfl (fun _ hid => hid) rfl rfl rfl
    · cases hstep
      have hcreated : s.phase? m = some .created := by
        refine halive.2 f hj m (by rw [hpc]; rfl) (fun hout => hfails (Or.inl hout)) ?_
        by_contra hnone
        exact hfails (Or.inr (by simpa using hnone))
      have hheld := hf.held m (by rw [hpc]; rfl)
      have hstatus := hf.status m (by rw [hpc]; rfl) (by rw [hpc]; simp)
      obtain ⟨data,hdata,hphase⟩ := Option.map_eq_some_iff.mp hcreated
      have hsound : s.Sound { f with pc := .returnResult m ports } :=
        hf.goes rfl (by rw [hpc]; rfl) rfl (by rw [hpc]; rfl) rfl (fun i => by rw [hpc]; simp)
          (fun _ => hcreated) (fun i hi => (Option.some.inj hi).symm)
      refine h.setFinish (hsame rfl rfl rfl) (fun i hi => by cases hi) rfl ?_ (fun i id hi hid => ?_)
      · exact hsound.of_host rfl (fun _ hs => hs)
      · -- only the row of this mandelbox is written, and its clean-up has not begun
        rcases write_running hid with hold | ⟨hfid,-⟩
        · exact Or.inl hold
        · obtain rfl : i = m := h.ids i m _ hi (hfid ▸ hheld)
          refine Or.inr ⟨hstatus,?_⟩
          by_contra hcleanup
          exact (h.closing i data hdata hcleanup).2 hphase
  case returnResult m ports =>
    split at hstep
    · cases hstep
    · cases hstep
      exact h.frees (hsame rfl rfl rfl) rfl (fun _ hid => hid) rfl rfl rfl
  case running m =>
    cases hstep
    exact h.frees (.of_status h.host rfl rfl rfl) rfl (fun _ hid => hid) rfl rfl rfl
  case close m =>
    cases hstep
    obtain ⟨hzygotes,htracker⟩ := close_zygotes cfg s m
    obtain ⟨haside,hdb,-⟩ := close_aside cfg s m
    have hstill : Still cfg reservations s ((s.close cfg m).setFinish j { f with pc := .returned }) (some m) :=
      .of_close h.host rfl hzygotes htracker
    refine h.setFinish hstill (fun i hi => ?_)
      (congrArg (fun l : List Finish => l.set j { f with pc := .returned }) haside.finishes)
      (.of_free rfl rfl rfl) (fun i id _ hid => Or.inl ?_)
    · refine halive.1 i ?_
      change (s.finishes[j]?.bind fun f => f.pc.closing) = some i
      rw [hj, Option.bind_some, hpc]
      exact hi
    · unfold IsRunning at hid ⊢
      exact hdb ▸ hid
  case returned => cases hstep

end LiveInv

theorem setZygote_of_ne (s : Service) {i j : ℕ} (z : Zygote) (h : j ≠ i) :
    (s.setZygote i z).zygotes j = s.zygotes j := by
  unfold setZygote
  dsimp only
  rw [Function.update_of_ne h]

theorem setZygote_self (s : Service) (i : ℕ) (z : Zygote) : (s.setZygote i z).zygotes i = z := by
  unfold setZygote
  dsimp only
  rw [Function.update_self]

theorem setZygote_status (s : Service) (i j : ℕ) (pc : CleanupPC) :
    ((s.setZygote i { s.zygotes i with cleanup := pc }).zygotes j).status = (s.zygotes j).status := by
  rcases eq_or_ne j i with rfl | hji
  · rw [setZygote_self]
  · rw [setZygote_of_ne _ _ hji]

namespace LiveInv

theorem cleans (h : LiveInv cfg reservations s) (hid : s.mandelboxID? i = some id) {pc : CleanupPC}
    (hcalm : Calm cfg reservations s t none) (hfinishes : t.finishes = s.finishes)
    (hzygotes : t.zygotes = (s.setZygote i { s.zygotes i with cleanup := pc }).zygotes)
    (hclosed : ∀ data, s.mandelbox? i = some data → data.IsClosed)
    (hrunning : ∀ id, t.db.IsRunning id → s.db.IsRunning id)
    (hremoved : pc.removed = true → (s.zygotes i).cleanup.removed = true ∨ ¬t.db.IsRunning id) :
    LiveInv cfg reservations t := by
  have hother : ∀ j, j ≠ i → (t.zygotes j).cleanup = (s.zygotes j).cleanup := by
    intro j hji
    rw [hzygotes, setZygote_of_ne _ _ hji]
  refine h.of_calm hcalm (fun f hf => ?_) (fun j hj => ?_)
    (fun j id _ hid => Or.inl (hrunning id hid)) (fun j id' hid' hj => ?_)
  · rw [hfinishes] at hf
    exact (h.finishes f hf).keeps hcalm.keeps (fun i hi => by cases hi)
  · rcases eq_or_ne j i with rfl | hji
    · exact Or.inr hclosed
    · exact Or.inl (hother j hji ▸ hj)
  · rcases eq_or_ne j i with rfl | hji
    · rw [hzygotes, setZygote_self] at hj
      obtain rfl : id = id' := Option.some.inj (hid.symm.trans hid')
      exact hremoved hj
    · exact Or.inl (hother j hji ▸ hj)

theorem cleanupAt (h : LiveInv cfg reservations s) (hid : s.mandelboxID? i = some id)
    (halive : s.KeepsAlive (.cleanup i ok)) (hstep : s.cleanupAt cfg i id ok (s.zygotes i).cleanup = .ok t) :
    LiveInv cfg reservations t := by
  have hfailed := halive.2 id hid
  obtain ⟨data,hdata,-⟩ := exists_of_mandelboxID? hid
  have hclosed : (s.zygotes i).cleanup ≠ .markDying → ∀ data, s.mandelbox? i = some data → data.IsClosed :=
    fun hne data hdata => h.closing i data hdata hne
  have hcalm : ∀ {u : Service} {pc : CleanupPC}, u.host = s.host →
      u.zygotes = (s.setZygote i { s.zygotes i with cleanup := pc }).zygotes →
      (∀ id m, u.tracker id = some m → s.tracker id = some m) → Calm cfg reservations s u none :=
    fun hhost hzygotes htracker => .of_host h.host hhost
      (fun j hj => by rw [hzygotes, setZygote_status]; exact hj) htracker
  cases hpc : (s.zygotes i).cleanup <;> rw [hpc] at hstep <;> dsimp only [Service.cleanupAt] at hstep
  case markDying =>
    split_ifs at hstep with hphase hmarks
    · cases hstep
      have hgone : ∀ data, s.mandelbox? i = some data → data.IsClosed := by
        intro data hdata
        rw [phase?_of hdata, not_not] at hphase
        simp [MandelboxData.IsClosed, Option.some.inj hphase]
      exact h.cleans hid (hcalm rfl rfl (fun _ _ h => h)) rfl rfl hgone
        (fun _ hrun => (write_running hrun).resolve_right (by simp)) (fun hremoved => by cases hremoved)
    · cases hstep
      have hgone : ∀ data, s.mandelbox? i = some data → data.IsClosed := by
        intro data hdata
        rw [phase?_of hdata, not_not] at hphase
        simp [MandelboxData.IsClosed, Option.some.inj hphase]
      exact h.cleans hid (hcalm rfl rfl (fun _ _ h => h)) rfl rfl hgone (fun _ hrun => hrun)
        (fun hremoved => by cases hremoved)
  case untrack =>
    cases hstep
    refine h.cleans hid (hcalm rfl rfl (fun id' m hm => ?_)) rfl rfl
      (hclosed (by rw [hpc]; simp)) (fun _ hrun => hrun)
      (fun hremoved => by cases hremoved)
    dsimp only at hm
    by_cases hid' : id' = id
    · rw [hid', Function.update_self] at hm
      cases hm
    · rwa [Function.update_of_ne hid'] at hm
  case free =>
    cases hact : s.host.step cfg.usesGPU (.act i .cleanup) with
    | error e =>
      rw [hact] at hstep
      cases hstep
    | ok host =>
      rw [hact] at hstep
      dsimp only at hstep
      split_ifs at hstep
      · cases hstep
        refine h.cleans hid (.of_act h.host hact rfl (fun hc => by cases hc) (fun j hj => ?_)
            (fun _ _ h => h)) rfl rfl
          (hclosed (by rw [hpc]; simp)) (fun _ hrun => hrun) (fun hremoved => by cases hremoved)
        rw [setZygote_status]
        exact hj
      · cases hstep
        have hcalm' : Calm cfg reservations s { s with host := host } none :=
          .of_act h.host hact rfl (fun hc => by cases hc) (fun _ h => h) (fun _ _ h => h)
        exact h.aside hcalm' (fun i hi => by cases hi) rfl (fun _ => rfl) (fun _ hrun => hrun)
  case find =>
    split_ifs at hstep with hqueries
    · cases hrow : s.db.rows.lookup id with
      | none =>
        rw [hrow] at hstep
        cases hstep
        refine h.cleans hid (hcalm rfl rfl (fun _ _ h => h)) rfl rfl
          (hclosed (by rw [hpc]; simp)) (fun _ hrun => hrun)
          (fun _ => Or.inr (fun hrun => ?_))
        change (s.db.rows.lookup id).map Row.status = some .running at hrun
        rw [hrow] at hrun
        cases hrun
      | some r =>
        rw [hrow] at hstep
        cases hstep
        exact h.cleans hid (hcalm rfl rfl (fun _ _ h => h)) rfl rfl
          (hclosed (by rw [hpc]; simp)) (fun _ hrun => hrun)
          (fun hremoved => by cases hremoved)
    · cases hstep
      refine h.cleans hid (hcalm rfl rfl (fun _ _ h => h)) rfl rfl
        (hclosed (by rw [hpc]; simp)) (fun _ hrun => hrun)
        (fun _ => Or.inr (fun hrun => ?_))
      cases ok with
      | true => exact hqueries ⟨h.running i id hid hrun,rfl⟩
      | false => exact hfailed (by rw [hpc]; rfl) rfl hrun
  case remove instanceID =>
    split_ifs at hstep with hremoves
    · cases hstep
      refine h.cleans hid (hcalm rfl rfl (fun _ _ h => h)) rfl rfl
        (hclosed (by rw [hpc]; simp)) (fun id' hrun => ?_)
        (fun _ => Or.inr (fun hrun => ?_))
      · unfold IsRunning at hrun ⊢
        dsimp only at hrun
        rw [lookup_remove] at hrun
        split_ifs at hrun
        · cases hrun
        · exact hrun
      · unfold IsRunning at hrun
        dsimp only at hrun
        rw [lookup_remove, if_pos rfl] at hrun
        cases hrun
    · cases hstep
      refine h.cleans hid (hcalm rfl rfl (fun _ _ h => h)) rfl rfl
        (hclosed (by rw [hpc]; simp)) (fun _ hrun => hrun)
        (fun _ => Or.inr (fun hrun => ?_))
      cases ok with
      | true =>
        refine hremoves ⟨rfl,?_⟩
        obtain ⟨r,hr,-⟩ := Option.map_eq_some_iff.mp hrun
        exact Option.isSome_iff_exists.mpr ⟨r,hr⟩
      | false => exact hfailed (by rw [hpc]; rfl) rfl hrun
  case capacity instanceID =>
    split_ifs at hstep
    · cases hstep
      exact h.cleans hid (hcalm rfl rfl (fun _ _ h => h)) rfl rfl
        (hclosed (by rw [hpc]; simp)) (fun _ hrun => hrun)
        (fun _ => Or.inl (by rw [hpc]; rfl))
    · cases hstep
      exact h.cleans hid (hcalm rfl rfl (fun _ _ h => h)) rfl rfl
        (hclosed (by rw [hpc]; simp)) (fun _ hrun => hrun)
        (fun _ => Or.inl (by rw [hpc]; rfl))
  case notify =>
    cases hstep
    exact h.cleans hid (hcalm rfl rfl (fun _ _ h => h)) rfl rfl
      (hclosed (by rw [hpc]; simp)) (fun _ hrun => hrun)
      (fun _ => Or.inl (by rw [hpc]; rfl))
  case ended => cases hstep

end LiveInv

namespace LiveInv

theorem new (h : LiveInv cfg reservations s) {n : ℕ} {key : String} (hfresh : s.IsFresh id)
    (hstep : s.newMandelbox cfg n id key = .ok t) : LiveInv cfg reservations t := by
  unfold newMandelbox at hstep
  cases hnew : s.host.step cfg.usesGPU (.new id) with
  | error e =>
    rw [hnew] at hstep
    cases hstep
  | ok host =>
    rw [hnew] at hstep
    cases hstep
    have hmandelboxes : host.mandelboxes = s.host.mandelboxes ++ [MandelboxData.new id] := by
      dsimp only [HostState.step] at hnew
      split_ifs at hnew
      cases hnew
      rfl
    have hget : ∀ {u : Service}, u.host = host → ∀ {i data}, u.mandelbox? i = some data →
        s.mandelbox? i = some data ∨ i = s.host.mandelboxes.length ∧ data = MandelboxData.new id := by
      intro u hu i data hi
      unfold mandelbox? at hi ⊢
      rw [hu, hmandelboxes] at hi
      exact Slots.concat_cases hi
    have hid? : ∀ {u : Service}, u.host = host → ∀ {i id'}, u.mandelboxID? i = some id' →
        s.mandelboxID? i = some id' ∨ i = s.host.mandelboxes.length ∧ id' = id := by
      intro u hu i id' hi
      obtain ⟨data,hdata,rfl⟩ := exists_of_mandelboxID? hi
      rcases hget hu hdata with hold | ⟨hi',rfl⟩
      · exact Or.inl (mandelboxID?_of hold)
      · exact Or.inr ⟨hi',rfl⟩
    have hlt : ∀ {i id'}, s.mandelboxID? i = some id' → i ≠ s.host.mandelboxes.length := by
      intro i id' hi
      obtain ⟨data,hdata,-⟩ := exists_of_mandelboxID? hi
      exact (Slots.lt_of_some hdata).ne
    have hother : ∀ {i id'}, s.mandelboxID? i = some id' → id' ≠ id := by
      intro i id' hi
      obtain ⟨data,hdata,rfl⟩ := exists_of_mandelboxID? hi
      exact hfresh.1 data (List.mem_of_getElem? hdata)
    have hrow : ¬s.db.IsRunning id := by
      unfold IsRunning
      rw [hfresh.2.1]
      simp
    refine ⟨HostInvariant.step h.host hnew,fun i j id' hi hj => ?_,fun id' m hm => ?_,fun f hf => ?_,
      fun i data hi hcleanup => ?_,fun i id' hi hrun => ?_,fun i id' hi hgone hrun => ?_⟩
    · rcases hid? rfl hi with hold | ⟨hlast,heq⟩
      · rcases hid? rfl hj with hold' | ⟨-,heq⟩
        · exact h.ids i j id' hold hold'
        · exact absurd heq (hother hold)
      · rcases hid? rfl hj with hold' | ⟨hlast',-⟩
        · exact absurd heq (hother hold')
        · rw [hlast, hlast']
    · dsimp only at hm
      unfold mandelboxID? mandelbox?
      dsimp only
      rw [hmandelboxes]
      by_cases hid' : id' = id
      · rw [hid', Function.update_self] at hm
        rw [← Option.some.inj hm, List.getElem?_concat_length, hid']
        rfl
      · rw [Function.update_of_ne hid'] at hm
        obtain ⟨data,hdata,rfl⟩ := exists_of_mandelboxID? (h.tracked id' m hm)
        rw [Slots.concat_old hdata]
        rfl
    · refine @Sound.keeps _ _ _ none (h.finishes f hf) ?_ (fun i hi => by cases hi)
      refine ⟨fun i data hi => ⟨data,?_,.refl data,fun _ h => h⟩,fun i id' hi hstatus => ?_⟩
      · unfold mandelbox?
        dsimp only
        rw [hmandelboxes]
        exact Slots.concat_old hi _
      · change (((s.setZygote _ _).zygotes i).status).isSome = true
        rw [setZygote_of_ne _ _ (hlt hi)]
        exact hstatus
    · rcases hget rfl hi with hold | ⟨rfl,-⟩
      · change ((s.setZygote _ _).zygotes i).cleanup ≠ _ at hcleanup
        rw [setZygote_of_ne _ _ (hlt (mandelboxID?_of hold))] at hcleanup
        exact h.closing i data hold hcleanup
      · change ((s.setZygote _ _).zygotes _).cleanup ≠ _ at hcleanup
        rw [setZygote_self] at hcleanup
        exact absurd rfl hcleanup
    · rcases hid? rfl hi with hold | ⟨rfl,rfl⟩
      · change ((s.setZygote _ _).zygotes i).status.isSome = true
        rw [setZygote_of_ne _ _ (hlt hold)]
        exact h.running i id' hold hrun
      · exact absurd hrun hrow
    · rcases hid? rfl hi with hold | ⟨rfl,rfl⟩
      · change ((s.setZygote _ _).zygotes i).cleanup.removed = true at hgone
        rw [setZygote_of_ne _ _ (hlt hold)] at hgone
        exact h.removed i id' hold hgone hrun
      · exact absurd hrun hrow

theorem step (h : LiveInv cfg reservations s) {mv : ServiceMove} (halive : s.KeepsAlive mv)
    (hstep : s.step cfg mv = .ok t) : LiveInv cfg reservations t := by
  unfold Service.step at hstep
  split_ifs at hstep
  cases mv with
  | subscription =>
    dsimp only [move] at hstep
    split_ifs at hstep
    split at hstep
    · cases hstep
      have hcalm : ∀ events finishes, Calm cfg reservations s
          { s with subscriptionEvents := events, finishes := finishes } none :=
        fun _ _ => .of_host h.host rfl (fun _ h => h) (fun _ _ h => h)
      refine h.of_calm (hcalm _ _) (fun f hf => ?_) (fun _ hi => Or.inl hi) (fun _ _ _ hrun => Or.inl hrun)
        (fun _ _ _ hi => Or.inl hi)
      rcases List.mem_append.mp hf with hold | hnew
      · exact (h.finishes f hold).of_host rfl (fun _ hs => hs)
      · rw [List.mem_singleton.mp hnew]
        exact .of_free rfl rfl rfl
    · cases hstep
  | finish j out =>
    dsimp only [move] at hstep
    cases hj : s.finishes[j]? with
    | none =>
      rw [hj] at hstep
      cases hstep
    | some f =>
      rw [hj] at hstep
      exact h.finishAt hj halive hstep
  | spinUp id key =>
    dsimp only [move] at hstep
    split at hstep
    · split_ifs at hstep with hfresh
      exact h.new hfresh hstep
    · cases hstep
  | publish event =>
    dsimp only [move] at hstep
    by_cases hlists : s.db.Lists cfg.instanceID event
    · rw [if_pos hlists] at hstep
      cases hstep
      have hcalm : ∀ db events,
          Calm cfg reservations s { s with db := db, subscriptionEvents := events } none :=
        fun _ _ => .of_host h.host rfl (fun _ h => h) (fun _ _ h => h)
      exact h.aside (hcalm _ _) (fun i hi => by cases hi) rfl (fun _ => rfl) (fun _ hrun => hrun)
    · rw [if_neg hlists] at hstep
      cases hstep
  | cleanup i ok =>
    dsimp only [move] at hstep
    cases hid : s.mandelboxID? i with
    | none =>
      rw [hid] at hstep
      cases hstep
    | some id =>
      rw [hid] at hstep
      exact h.cleanupAt hid halive hstep
  | _ =>
    obtain ⟨haside,heffect⟩ := Service.move_beside rfl hstep
    obtain ⟨hcalm,hcleanup⟩ := move_still h.host rfl (by simp) hstep
    exact h.aside hcalm halive.1 haside.finishes hcleanup (fun _ hrun => heffect.running hrun)

theorem start (cfg : Config) (rows : Rows) (reservations : List (UInt16 × TransportProtocol))
    (numGPUs capacity : ℕ) : LiveInv cfg reservations (start rows reservations numGPUs capacity) where
  host := HostInvariant.initial cfg.usesGPU reservations numGPUs
  ids := fun i j id hi => by cases hi
  tracked := fun id m hm => by cases hm
  finishes := fun f hf => absurd hf List.not_mem_nil
  closing := fun i data hi => by cases hi
  running := fun i id hi => by cases hi
  removed := fun i id hi => by cases hi

theorem handsLive (h : LiveInv cfg reservations s) : s.HandsLive where
  live := by
    intro f hf m ports hpc
    have hsound := h.finishes f hf
    obtain ⟨data,hdata,hid⟩ := exists_of_mandelboxID? (hsound.held m (by rw [hpc]; rfl))
    have hphase : data.phase = .created :=
      Option.some.inj ((phase?_of hdata).symm.trans (hsound.answers m (by rw [hpc]; rfl)))
    have hbindings : hostPorts data.portBindings = some ports :=
      (hsound.bound m ports data (by rw [hpc]; rfl) hdata).resolve_right (fun hclosed => hclosed.2 hphase)
    refine ⟨data,hdata,hid,hphase,fun k hk => ?_⟩
    obtain ⟨⟨isOk,hended⟩,-⟩ := (h.host.wellFormed m data hdata).ended (by rw [hphase]; simp)
    have hheld : k ∈ data.heldPorts := by
      rw [MandelboxData.heldPorts_of_bindings (by rw [hended]; simp)]
      exact hostPorts_mem hbindings k hk
    have hown : k ∈ s.host.owned MandelboxData.heldPorts m := by
      rw [owned_self _ hdata]
      exact hheld
    refine ⟨(h.host.resources.ports.inUse_iff k).mpr ⟨m,hown⟩,hheld,fun i other hne hother hk' => ?_⟩
    refine h.host.resources.ports.disjoint m i k hne.symm hown ?_
    rw [owned_self _ hother]
    exact hk'
  rows := fun i id hid hended => h.removed i id hid (by rw [hended]; rfl)

end LiveInv

/-- In every run in which a mandelbox is marked running only if it is not closed, is not closed between that
and the answer, and `RemoveMandelbox` does not fail on a `RUNNING` row, no user is handed a dead mandelbox. -/
theorem hands_live (cfg : Config) (rows : Rows) (reservations : List (UInt16 × TransportProtocol))
    (numGPUs capacity : ℕ) (moves : List ServiceMove)
    (halive : Run.EachOk (step cfg) KeepsAlive (start rows reservations numGPUs capacity) moves)
    (hrun : Run.run (step cfg) (start rows reservations numGPUs capacity) moves = .ok t) : t.HandsLive :=
  (Run.EachOk.invariant (fun _ _ _ h hmv hstep => LiveInv.step h hmv hstep)
    (LiveInv.start cfg rows reservations numGPUs capacity) halive hrun).handsLive

def connects : List ServiceMove :=
  spinsUp 0 "mandelbox-1" ++ [.loop true] ++ assigns 0 "mandelbox-1" ["mandelbox-1"] ++
    List.replicate 6 (.finish 0 .ok) ++ [.request "mandelbox-1"] ++ handles 0 ++
    List.replicate 2 (.finish 0 .ok)

def served : List ServiceMove :=
  connects ++ List.replicate 5 (.finish 0 .ok) ++ [.dockerDie 0,.loop true,.loop true] ++
    List.replicate 9 (.cleanup 0 true)

theorem hands_live_served : ∃ t, Run.run (step oneHost) (start ∅ [] 0 1) served = .ok t ∧ t.HandsLive := by
  have hok : (Run.run (step oneHost) (start ∅ [] 0 1) served).toOption.isSome := by decide +kernel
  cases hrun : Run.run (step oneHost) (start ∅ [] 0 1) served with
  | error e =>
    rw [hrun] at hok
    cases hok
  | ok t => exact ⟨t,rfl,hands_live oneHost ∅ [] 0 1 served (by decide +kernel) hrun⟩

def reaped : List ServiceMove :=
  connects ++ [.stale 0] ++ List.replicate 5 (.cleanup 0 true) ++ List.replicate 3 (.finish 0 .ok)

theorem hands_live_fails : ¬∀ (cfg : Config) (rows : Rows) (reservations : List (UInt16 × TransportProtocol))
    (numGPUs capacity : ℕ) (moves : List ServiceMove) (t : Service),
    Run.run (step cfg) (start rows reservations numGPUs capacity) moves = .ok t → t.HandsLive := by
  intro h
  have hend : (Run.run (step oneHost) (start ∅ [] 0 1) reaped).toOption.map (fun t => (t.finishes,t.phase? 0)) =
      some ([⟨"mandelbox-1",some 0,.returnResult 0 ⟨1025,1026,1027,1028⟩,true⟩],some .cleaned) := by
    decide +kernel
  cases hrun : Run.run (step oneHost) (start ∅ [] 0 1) reaped with
  | error e =>
    rw [hrun] at hend
    cases hend
  | ok t =>
    rw [hrun] at hend
    have hstate := Option.some.inj hend
    have hfinishes : t.finishes = [⟨"mandelbox-1",some 0,.returnResult 0 ⟨1025,1026,1027,1028⟩,true⟩] :=
      congrArg Prod.fst hstate
    have hphase : t.phase? 0 = some .cleaned := congrArg Prod.snd hstate
    obtain ⟨data,hdata,-,hcreated,-⟩ := (h oneHost ∅ [] 0 1 reaped t hrun).live _
      (by rw [hfinishes]; exact List.mem_cons_self) 0 _ rfl
    rw [phase?_of hdata, hcreated] at hphase
    cases hphase

end Service

end Whist.Host
