import Whist.Host.DatabaseSteps
import Whist.Host.Resources
import Whist.Host.TransportRuns

/-! # One allocation, one finish -/
namespace Whist.Host
open Channel HostDatabase

/-- `VerifyAllocatedMandelbox` lets the spin-up through, or has read the row and is about to. -/
def Finish.Passing (f : Finish) : Prop := f.verified = true ∨ f.pc = .markConnecting

def FinishPC.queries : FinishPC → Bool
  | .verify | .markConnecting | .markRunning _ _ => true
  | _ => false

def LoopPC.queries : LoopPC → Bool
  | .capacity | .register _ _ => true
  | _ => false

namespace Service

def Succeeds (s : Service) : ServiceMove → Prop
  | .finish j out => ∀ f ∈ s.finishes[j]?, f.pc.queries = true → out = .ok
  | .loop ok => s.loop.queries = true → ok = true
  | .cleanup _ ok => ok = true
  | _ => True

/-- No event and no spin-up is pending. -/
structure Quiet (s : Service) : Prop where
  changed : s.db.changed = false
  events : s.subscriptionEvents = []
  finishes : ∀ f ∈ s.finishes, f.pc = .returned

/-- At most one spin-up of a mandelbox has passed `VerifyAllocatedMandelbox`. -/
def PassedOnce (s : Service) : Prop :=
  ∀ (j k : ℕ) (f g : Finish), s.finishes[j]? = some f → s.finishes[k]? = some g → f.mandelboxID = g.mandelboxID →
    f.verified = true → g.verified = true → j = k

/-- A row is read for a spin-up only if no other one of the mandelbox is between its reading and its
writing, and is written once it has been read; and a user is assigned to a mandelbox that still waits. -/
def Exclusive (s : Service) : ServiceMove → Prop
  | .finish j out => ∀ f ∈ s.finishes[j]?,
      (f.pc = .verify → ∀ g ∈ s.finishes, g.mandelboxID = f.mandelboxID → g.pc ≠ .markConnecting) ∧
        (f.pc = .markConnecting → out ≠ .commitLost)
  | .assignment k _ => ∀ a ∈ s.assignments[k]?, ∀ x ∈ s.db.rows.entries,
      a.pc = .updateMandelbox x.1 → x.2.status = .waiting
  | _ => True

instance (s : Service) : ∀ mv, Decidable (s.Exclusive mv)
  | .finish _ _ => inferInstanceAs (Decidable (∀ f ∈ _, _))
  | .assignment _ _ => inferInstanceAs (Decidable (∀ a ∈ _, _))
  | .request _ | .handler _ | .subscription | .dockerDie _ | .mandelboxDie | .loop _ | .spinUp _ _
  | .resources _ _ | .cleanup _ _ | .stale _ | .stopWaiting _ | .cancel | .publish _ | .assign => isTrue trivial

variable {cfg : Config} {s t : Service} {j : ℕ} {f : Finish} {out : Outcome}

/-- What a step of `FinishMandelboxSpinUp` does to its row. -/
inductive FinishRows (cfg : Config) (s : Service) (j : ℕ) (f : Finish) (out : Outcome) (t : Service) : Prop where
  | reads (hpc : f.pc = .verify) (hallocated : s.db.Allocated cfg.instanceID f.mandelboxID)
      (hfinishes : t.finishes = s.finishes.set j { f with pc := .markConnecting }) (hdb : t.db = s.db)
  | writes (hpc : f.pc = .markConnecting)
      (hfinishes : t.finishes = s.finishes.set j { f with pc := .lookUp, verified := true })
      (hdb : t.db = s.db.writeMandelboxStatus cfg.instanceID f.mandelboxID .connecting)
  | lost (hpc : f.pc = .markConnecting) (hout : out = .commitLost)
  | fails (hpc : f.pc = .verify ∨ f.pc = .markConnecting)
      (hgone : out = .error ∨ ¬s.db.Allocated cfg.instanceID f.mandelboxID)
      (hfinishes : t.finishes = s.finishes.set j { f with pc := .returned }) (hdb : t.db = s.db)
  | goes (f' : Finish) (hid : f'.mandelboxID = f.mandelboxID) (hverified : f'.verified = f.verified)
      (hbefore : f.pc ≠ .verify ∧ f.pc ≠ .markConnecting) (hafter : f'.pc ≠ .markConnecting)
      (hfinishes : t.finishes = s.finishes.set j f')
      (hdb : t.db = s.db ∨ t.db = s.db.writeMandelboxStatus cfg.instanceID f.mandelboxID .running)

structure Steady (s t : Service) : Prop where
  events : t.subscriptionEvents = s.subscriptionEvents
  loop : t.loop = s.loop
  ids : ∀ i, t.mandelboxID? i = s.mandelboxID? i

theorem Steady.of_fields (hevents : t.subscriptionEvents = s.subscriptionEvents) (hloop : t.loop = s.loop)
    (hhost : t.host = s.host) : Steady s t := by
  refine ⟨hevents,hloop,fun i => ?_⟩
  unfold mandelboxID? mandelbox?
  rw [hhost]

theorem set_same (hj : s.finishes[j]? = some f) : s.finishes.set j f = s.finishes := by
  apply List.ext_getElem?
  intro k
  rw [Slots.getElem?_set_of_some hj]
  split_ifs with hk
  · rw [hk, hj]
  · rfl

theorem allocatedRow_iff (id : MandelboxID) :
    s.allocatedRow cfg id = true ↔ s.db.Allocated cfg.instanceID id := by
  unfold allocatedRow Allocated
  cases s.db.rows.lookup id with
  | none => simp
  | some r => simp

theorem FinishRows.goes_on {pc : FinishPC} {req : Option ℕ} (hbefore : f.pc ≠ .verify ∧ f.pc ≠ .markConnecting)
    (hafter : pc ≠ .markConnecting) (hfinishes : t.finishes = s.finishes.set j { f with req := req, pc := pc })
    (hdb : t.db = s.db ∨ t.db = s.db.writeMandelboxStatus cfg.instanceID f.mandelboxID .running) :
    FinishRows cfg s j f out t :=
  .goes { f with req := req, pc := pc } rfl rfl hbefore hafter hfinishes hdb

theorem finishAt_rows (hj : s.finishes[j]? = some f) (h : s.finishAt cfg j f out f.pc = .ok t) :
    Steady s t ∧ FinishRows cfg s j f out t := by
  cases hpc : f.pc <;> rw [hpc] at h <;> dsimp only [finishAt] at h
  case verify =>
    split_ifs at h with hread
    · cases h
      exact ⟨.of_fields rfl rfl rfl,.reads hpc ((allocatedRow_iff _).mp hread.2) rfl rfl⟩
    · cases h
      refine ⟨.of_fields rfl rfl rfl,.fails (Or.inl hpc) ?_ rfl rfl⟩
      rw [← allocatedRow_iff]
      tauto
  case markConnecting =>
    split_ifs at h with hgone hlost
    · cases h
      refine ⟨.of_fields rfl rfl rfl,.fails (Or.inr hpc) ?_ rfl rfl⟩
      refine hgone.imp id (fun hnone hallocated => ?_)
      obtain ⟨r,hr,-⟩ := hallocated
      rw [hr] at hnone
      cases hnone
    · cases h
      exact ⟨.of_fields rfl rfl rfl,.lost hpc hlost⟩
    · cases h
      exact ⟨.of_fields rfl rfl rfl,.writes hpc rfl rfl⟩
  case lookUp =>
    have hbefore : f.pc ≠ .verify ∧ f.pc ≠ .markConnecting := by simp [hpc]
    split at h
    · cases h
      exact ⟨.of_fields rfl rfl rfl,.goes_on hbefore (by simp) rfl (Or.inl rfl)⟩
    · cases h
      exact ⟨.of_fields rfl rfl rfl,.goes_on hbefore (by simp) rfl (Or.inl rfl)⟩
  case assign m =>
    cases h
    exact ⟨.of_fields rfl rfl rfl,.goes_on (by simp [hpc]) (by simp) rfl (Or.inl rfl)⟩
  case getHostPorts m =>
    have hbefore : f.pc ≠ .verify ∧ f.pc ≠ .markConnecting := by simp [hpc]
    split at h
    · cases h
      exact ⟨.of_fields rfl rfl rfl,.goes_on hbefore (by simp) rfl (Or.inl rfl)⟩
    · cases h
      exact ⟨.of_fields rfl rfl rfl,.goes_on hbefore (by simp) rfl (Or.inl rfl)⟩
  case getChannel m ports =>
    split at h
    · cases h
    · cases h
      exact ⟨.of_fields rfl rfl rfl,.goes_on (by simp [hpc]) (by simp) rfl (Or.inl rfl)⟩
  case receive m ports a =>
    have hbefore : f.pc ≠ .verify ∧ f.pc ≠ .markConnecting := by simp [hpc]
    split_ifs at h
    · cases h
      exact ⟨.of_fields rfl rfl rfl,.goes_on hbefore (by simp) rfl (Or.inl rfl)⟩
    · split at h
      · cases h
      · cases h
        exact ⟨.of_fields rfl rfl rfl,.goes_on hbefore (by simp) rfl (Or.inl rfl)⟩
  case connecting m ports =>
    cases h
    exact ⟨.of_fields rfl rfl rfl,.goes_on (by simp [hpc]) (by simp) rfl (Or.inl rfl)⟩
  case writeJSONData m ports =>
    have hbefore : f.pc ≠ .verify ∧ f.pc ≠ .markConnecting := by simp [hpc]
    split_ifs at h
    · cases h
      refine ⟨.of_fields rfl rfl rfl,.goes f rfl rfl hbefore hbefore.2 ?_ (Or.inl rfl)⟩
      exact (set_same hj).symm
    · cases h
      exact ⟨.of_fields rfl rfl rfl,.goes_on hbefore (by simp) rfl (Or.inl rfl)⟩
    · cases h
      exact ⟨.of_fields rfl rfl rfl,.goes_on hbefore (by simp) rfl (Or.inl rfl)⟩
    · cases h
      exact ⟨.of_fields rfl rfl rfl,.goes_on hbefore (by simp) rfl (Or.inl rfl)⟩
  case waitForFile m ports =>
    have hbefore : f.pc ≠ .verify ∧ f.pc ≠ .markConnecting := by simp [hpc]
    split_ifs at h
    · cases h
      exact ⟨.of_fields rfl rfl rfl,.goes_on hbefore (by simp) rfl (Or.inl rfl)⟩
    · cases h
      exact ⟨.of_fields rfl rfl rfl,.goes_on hbefore (by simp) rfl (Or.inl rfl)⟩
  case markRunning m ports =>
    have hbefore : f.pc ≠ .verify ∧ f.pc ≠ .markConnecting := by simp [hpc]
    split_ifs at h
    · cases h
      exact ⟨.of_fields rfl rfl rfl,.goes_on hbefore (by simp) rfl (Or.inl rfl)⟩
    · cases h
      exact ⟨.of_fields rfl rfl rfl,.goes_on hbefore (by simp) rfl (Or.inr rfl)⟩
  case returnResult m ports =>
    split at h
    · cases h
    · cases h
      exact ⟨.of_fields rfl rfl rfl,.goes_on (by simp [hpc]) (by simp) rfl (Or.inl rfl)⟩
  case running m =>
    cases h
    exact ⟨.of_fields rfl rfl rfl,.goes_on (by simp [hpc]) (by simp) rfl (Or.inl rfl)⟩
  case close m =>
    cases h
    obtain ⟨haside,hdb,hloop⟩ := close_aside cfg s m
    refine ⟨⟨haside.events,hloop,haside.ids⟩,.goes { f with pc := .returned } rfl rfl (by simp [hpc]) (by simp) ?_
      (Or.inl hdb)⟩
    exact congrArg (fun l : List Finish => l.set j { f with pc := .returned }) haside.finishes
  case returned => cases h

structure OnceInv (s : Service) : Prop where
  unique : ∀ (j k : ℕ) (f g : Finish), s.finishes[j]? = some f → s.finishes[k]? = some g →
    f.mandelboxID = g.mandelboxID → f.Passing → g.Passing → j = k
  /-- The row of a mandelbox that passed is never one to be allocated again. -/
  passed : ∀ (j : ℕ) (f : Finish), s.finishes[j]? = some f → f.verified = true →
    ∀ r, s.db.rows.lookup f.mandelboxID = some r → r.status ≠ .waiting ∧ r.status ≠ .allocated
  registering : ∀ i id, s.loop.registering = some i → s.mandelboxID? i = some id →
    s.db.rows.lookup id = none ∧ ∀ f ∈ s.finishes, f.mandelboxID = id → ¬f.Passing

def Settles (db db' : HostDatabase) : Prop :=
  ∀ id, db'.rows.lookup id = db.rows.lookup id ∨
    ∀ r, db'.rows.lookup id = some r → r.status ≠ .waiting ∧ r.status ≠ .allocated ∧ (db.rows.lookup id).isSome

theorem write_settles (db : HostDatabase) (instanceID : String) (id : MandelboxID) {status : Scaling.MandelboxStatus}
    (hwaiting : status ≠ .waiting) (hallocated : status ≠ .allocated) :
    Settles db (db.writeMandelboxStatus instanceID id status) := by
  intro id'
  rw [lookup_write]
  split_ifs with hid
  · right
    intro r hr
    obtain ⟨r₀,hr₀,rfl⟩ := Option.map_eq_some_iff.mp hr
    rw [hid, hr₀]
    exact ⟨hwaiting,hallocated,rfl⟩
  · exact Or.inl rfl

theorem Settles.passed {db db' : HostDatabase} (h : Settles db db') {id : MandelboxID}
    (hpassed : ∀ r, db.rows.lookup id = some r → r.status ≠ .waiting ∧ r.status ≠ .allocated) :
    ∀ r, db'.rows.lookup id = some r → r.status ≠ .waiting ∧ r.status ≠ .allocated := by
  intro r hr
  rcases h id with hsame | hsettled
  · exact hpassed r (hsame.symm.trans hr)
  · exact ⟨(hsettled r hr).1,(hsettled r hr).2.1⟩

theorem Settles.none {db db' : HostDatabase} (h : Settles db db') {id : MandelboxID}
    (hnone : db.rows.lookup id = none) : db'.rows.lookup id = none := by
  rcases h id with hsame | hsettled
  · exact hsame.trans hnone
  · by_contra hne
    obtain ⟨r,hr⟩ := Option.ne_none_iff_exists'.mp hne
    have hsome := (hsettled r hr).2.2
    rw [hnone] at hsome
    cases hsome

namespace OnceInv

theorem beside (h : OnceInv s) (haside : Aside s t)
    (hpassed : ∀ f ∈ s.finishes, f.verified = true → ∀ r, t.db.rows.lookup f.mandelboxID = some r →
      r.status ≠ .waiting ∧ r.status ≠ .allocated)
    (hnone : ∀ i id, t.loop.registering = some i → s.mandelboxID? i = some id →
      s.db.rows.lookup id = none → t.db.rows.lookup id = none) : OnceInv t := by
  refine ⟨?_,?_,?_⟩
  · rw [haside.finishes]
    exact h.unique
  · rw [haside.finishes]
    exact fun j f hj => hpassed f (List.mem_of_getElem? hj)
  · intro i id hi hid
    rw [haside.ids] at hid
    obtain ⟨hrow,hfinishes⟩ := h.registering i id (haside.loop i hi) hid
    rw [haside.finishes]
    exact ⟨hnone i id hi hid hrow,hfinishes⟩

theorem move_beside (h : OnceInv s) {mv : ServiceMove} (hexclusive : s.Exclusive mv)
    (hbeside : Beside cfg s mv t) : OnceInv t := by
  obtain ⟨haside,heffect⟩ := hbeside
  have hkept : Settles s.db t.db → OnceInv t := fun hsettles => by
    refine h.beside haside (fun f hf hverified => ?_) (fun i id _ _ hrow => hsettles.none hrow)
    obtain ⟨j,hj⟩ := List.getElem?_of_mem hf
    exact hsettles.passed (h.passed j f hj hverified)
  cases heffect with
  | kept hrows _ => exact hkept (fun id => Or.inl (by rw [hrows]))
  | died id hdb => exact hkept (hdb ▸ write_settles _ _ _ (by decide) (by decide))
  | assigned k id' a id hmv hk hpc hdb =>
    subst hmv
    have hwaiting := hexclusive a hk
    refine h.beside haside (fun f hf hverified => ?_) (fun i id' hi hid hrow => ?_)
    · obtain ⟨j,hj⟩ := List.getElem?_of_mem hf
      intro r hr
      rw [hdb, lookup_write] at hr
      split_ifs at hr with hfid
      · obtain ⟨r₀,hr₀,rfl⟩ := Option.map_eq_some_iff.mp hr
        have hpassed := h.passed j f hj hverified r₀ (hfid ▸ hr₀)
        exact absurd (hwaiting ⟨id,r₀⟩ (AList.mem_lookup_iff.mp hr₀) hpc) hpassed.1
      · exact h.passed j f hj hverified r hr
    · rw [hdb, lookup_write]
      split_ifs with hfid
      · rw [← hfid, hrow]
        rfl
      · exact hrow
  | registered n i id hloop hid hnext hdb =>
    obtain ⟨hrow,hfinishes⟩ := h.registering i id (by rw [hloop]; rfl) hid
    refine h.beside haside (fun f hf hverified => ?_) (fun i' id' hi' _ _ => ?_)
    · obtain ⟨j,hj⟩ := List.getElem?_of_mem hf
      intro r hr
      rw [hdb, lookup_create _ _ _ _ hrow] at hr
      split_ifs at hr with hfid
      · exact absurd (Or.inl hverified) (hfinishes f hf hfid)
      · exact h.passed j f hj hverified r hr
    · rw [hnext] at hi'
      cases hi'
  | removed id hdb =>
    refine hkept (fun id' => ?_)
    rw [hdb, lookup_remove]
    split_ifs
    · right
      intro r hr
      cases hr
    · exact Or.inl rfl

theorem setFinish (h : OnceInv s) (hj : s.finishes[j]? = some f) (hsteady : Steady s t) {f' : Finish}
    (hfinishes : t.finishes = s.finishes.set j f') (hid : f'.mandelboxID = f.mandelboxID)
    (hsettles : Settles s.db t.db)
    (hpassing : f'.Passing → f.Passing ∨ (s.db.rows.lookup f.mandelboxID).isSome ∧
      ∀ g ∈ s.finishes, g.mandelboxID = f.mandelboxID → ¬g.Passing)
    (hverified : f'.verified = true → f.verified = true ∨
      ∀ r, t.db.rows.lookup f.mandelboxID = some r → r.status ≠ .waiting ∧ r.status ≠ .allocated) :
    OnceInv t := by
  have hothers : ∀ k g, k ≠ j → s.finishes[k]? = some g → g.mandelboxID = f.mandelboxID → f'.Passing →
      ¬g.Passing := by
    intro k g hk hg hgid hf' hg'
    rcases hpassing hf' with hf | ⟨-,hnone⟩
    · exact hk (h.unique k j g f hg hj hgid hg' hf)
    · exact hnone g (List.mem_of_getElem? hg) hgid hg'
  refine ⟨fun k l g g' hk hl hgid hg hg' => ?_,fun k g hk hg => ?_,fun i id hi hmandelbox => ?_⟩
  · rw [hfinishes] at hk hl
    rcases Slots.set_cases hk with ⟨hkj,rfl⟩ | ⟨hkj,hk'⟩
    · rcases Slots.set_cases hl with ⟨hlj,-⟩ | ⟨hlj,hl'⟩
      · rw [hkj, hlj]
      · exact absurd hg' (hothers l g' hlj hl' (hgid.symm.trans hid) hg)
    · rcases Slots.set_cases hl with ⟨-,rfl⟩ | ⟨-,hl'⟩
      · exact absurd hg (hothers k g hkj hk' (hgid.trans hid) hg')
      · exact h.unique k l g g' hk' hl' hgid hg hg'
  · rw [hfinishes] at hk
    rcases Slots.set_cases hk with ⟨rfl,rfl⟩ | ⟨-,hk⟩
    · rw [hid]
      rcases hverified hg with hf | hrow
      · exact hsettles.passed (h.passed k f hj hf)
      · exact hrow
    · exact hsettles.passed (h.passed k g hk hg)
  · rw [hsteady.loop] at hi
    rw [hsteady.ids] at hmandelbox
    obtain ⟨hrow,hnone⟩ := h.registering i id hi hmandelbox
    refine ⟨hsettles.none hrow,fun g hg hgid hg' => ?_⟩
    rw [hfinishes] at hg
    obtain ⟨k,hk⟩ := List.getElem?_of_mem hg
    rcases Slots.set_cases hk with ⟨rfl,rfl⟩ | ⟨-,hk⟩
    · rcases hpassing hg' with hf | ⟨hsome,-⟩
      · exact hnone f (List.mem_of_getElem? hj) (hid.symm.trans hgid) hf
      · rw [← hid, hgid, hrow] at hsome
        cases hsome
    · exact hnone g (List.mem_of_getElem? hk) hgid hg'

theorem finish (h : OnceInv s) (hj : s.finishes[j]? = some f) (hexclusive : s.Exclusive (.finish j out))
    (hsteady : Steady s t) (hrows : FinishRows cfg s j f out t) : OnceInv t := by
  obtain ⟨halone,hcommit⟩ := hexclusive f hj
  cases hrows with
  | reads hpc hallocated hfinishes hdb =>
    obtain ⟨r,hr,hstatus⟩ := hallocated
    refine h.setFinish hj hsteady hfinishes rfl (fun id => Or.inl (by rw [hdb])) (fun _ => Or.inr ?_) Or.inl
    refine ⟨by rw [hr]; rfl,fun g hg hgid hg' => ?_⟩
    rcases hg' with hg' | hg'
    · obtain ⟨k,hk⟩ := List.getElem?_of_mem hg
      exact (h.passed k g hk hg' r (hgid ▸ hr)).2 hstatus.2
    · exact halone hpc g hg hgid hg'
  | writes hpc hfinishes hdb =>
    have hsettles : Settles s.db t.db := hdb ▸ write_settles _ _ _ (by decide) (by decide)
    refine h.setFinish hj hsteady hfinishes rfl hsettles (fun _ => Or.inl (Or.inr hpc)) (fun _ => Or.inr ?_)
    intro r hr
    rw [hdb, lookup_write, if_pos rfl] at hr
    obtain ⟨r₀,-,rfl⟩ := Option.map_eq_some_iff.mp hr
    change Scaling.MandelboxStatus.connecting ≠ .waiting ∧ Scaling.MandelboxStatus.connecting ≠ .allocated
    decide
  | lost hpc hout => exact absurd hout (hcommit hpc)
  | fails hpc hgone hfinishes hdb =>
    refine h.setFinish hj hsteady hfinishes rfl (fun id => Or.inl (by rw [hdb])) (fun hf' => Or.inl ?_) Or.inl
    rcases hf' with hf' | hf'
    · exact Or.inl hf'
    · exact absurd hf' (by simp)
  | goes f' hid hverified hbefore hafter hfinishes hdb =>
    have hsettles : Settles s.db t.db := by
      rcases hdb with hdb | hdb
      · exact fun id => Or.inl (by rw [hdb])
      · exact hdb ▸ write_settles _ _ _ (by decide) (by decide)
    refine h.setFinish hj hsteady hfinishes hid hsettles (fun hf' => Or.inl ?_) (fun hf' => Or.inl (hverified ▸ hf'))
    rcases hf' with hf' | hf'
    · exact Or.inl (hverified ▸ hf')
    · exact absurd hf' hafter

theorem started (h : OnceInv s) {id : MandelboxID} {events : List (List (MandelboxID × Row))} :
    OnceInv { s with subscriptionEvents := events, finishes := s.finishes ++ [⟨id,none,.verify,false⟩] } := by
  have hnot : ¬(⟨id,none,.verify,false⟩ : Finish).Passing := by
    rintro (hverified | hpc)
    · cases hverified
    · cases hpc
  refine ⟨fun k l g g' hk hl hgid hg hg' => ?_,fun k g hk hg => ?_,fun i id' hi hid => ?_⟩
  · rcases Slots.concat_cases hk with hk | ⟨-,rfl⟩
    · rcases Slots.concat_cases hl with hl | ⟨-,rfl⟩
      · exact h.unique k l g g' hk hl hgid hg hg'
      · exact absurd hg' hnot
    · exact absurd hg hnot
  · rcases Slots.concat_cases hk with hk | ⟨-,rfl⟩
    · exact h.passed k g hk hg
    · cases hg
  · obtain ⟨hrow,hnone⟩ := h.registering i id' hi hid
    refine ⟨hrow,fun g hg hgid => ?_⟩
    rcases List.mem_append.mp hg with hg | hg
    · exact hnone g hg hgid
    · rw [List.mem_singleton.mp hg]
      exact hnot

theorem step (h : OnceInv s) {mv : ServiceMove} (hexclusive : s.Exclusive mv) (hstep : s.step cfg mv = .ok t) :
    OnceInv t := by
  unfold Service.step at hstep
  split_ifs at hstep
  cases mv with
  | subscription =>
    dsimp only [move] at hstep
    split_ifs at hstep
    split at hstep
    · cases hstep
      exact h.started
    · cases hstep
  | finish j out =>
    dsimp only [move] at hstep
    cases hj : s.finishes[j]? with
    | none =>
      rw [hj] at hstep
      cases hstep
    | some f =>
      rw [hj] at hstep
      obtain ⟨hsteady,hrows⟩ := finishAt_rows hj hstep
      exact h.finish hj hexclusive hsteady hrows
  | spinUp id key =>
    dsimp only [move] at hstep
    split at hstep
    · split_ifs at hstep with hfresh
      unfold newMandelbox at hstep
      split at hstep
      · cases hstep
      · next host hhost =>
        cases hstep
        refine ⟨h.unique,h.passed,fun i id' hi hid => ?_⟩
        -- the mandelbox just made is the one to be registered
        have hlast : i = s.host.mandelboxes.length := (Option.some.inj hi).symm
        have hnew : host.mandelboxes = s.host.mandelboxes ++ [MandelboxData.new id] := by
          dsimp only [HostState.step] at hhost
          split_ifs at hhost
          cases hhost
          rfl
        have hsame : id = id' := by
          unfold mandelboxID? mandelbox? at hid
          dsimp only at hid
          rw [hnew, hlast, List.getElem?_concat_length] at hid
          exact Option.some.inj hid
        subst hsame
        exact ⟨hfresh.2.1,fun f hf hfid => absurd hfid (hfresh.2.2 f hf)⟩
    · cases hstep
  | publish event =>
    dsimp only [move] at hstep
    by_cases hlists : s.db.Lists cfg.instanceID event
    · rw [if_pos hlists] at hstep
      cases hstep
      exact ⟨h.unique,h.passed,h.registering⟩
    · rw [if_neg hlists] at hstep
      cases hstep
  | _ => exact h.move_beside hexclusive (Service.move_beside rfl hstep)

theorem start (rows : Rows) (reservations : List (UInt16 × TransportProtocol)) (numGPUs capacity : ℕ) :
    OnceInv (start rows reservations numGPUs capacity) where
  unique := fun j k f g hj => by cases hj
  passed := fun j f hj => by cases hj
  registering := fun i id hi => by cases hi

theorem once (h : OnceInv s) : s.PassedOnce :=
  fun j k f g hj hk hid hf hg => h.unique j k f g hj hk hid (Or.inl hf) (Or.inl hg)

end OnceInv

def Attended (cfg : Config) (s : Service) : Prop :=
  s.db.changed = true ∨ (∀ id, ¬s.db.Allocated cfg.instanceID id) ∨
    (∃ x rest, (x :: rest) ∈ s.subscriptionEvents ∧ s.db.Allocated cfg.instanceID x.1) ∨
    ∃ f ∈ s.finishes, (f.pc = .verify ∨ f.pc = .markConnecting) ∧ s.db.Allocated cfg.instanceID f.mandelboxID

namespace Attended

theorem noticed (h : Attended cfg s) (hnotices : Notices cfg.instanceID s.db t.db)
    (hevents : t.subscriptionEvents = s.subscriptionEvents)
    (hfinishes : ∀ f ∈ s.finishes, f.pc = .verify ∨ f.pc = .markConnecting →
      s.db.Allocated cfg.instanceID f.mandelboxID → f ∈ t.finishes) :
    Attended cfg t := by
  rcases hnotices with hchanged | ⟨hchanged,hsame⟩
  · exact Or.inl hchanged
  · rcases h with h | h | ⟨x,rest,hmem,hx⟩ | ⟨f,hf,hpc,hallocated⟩
    · exact Or.inl (hchanged.trans h)
    · exact Or.inr (Or.inl (fun id hid => h id ((hsame id).mp hid)))
    · exact Or.inr (Or.inr (Or.inl ⟨x,rest,hevents ▸ hmem,(hsame x.1).mpr hx⟩))
    · exact Or.inr (Or.inr (Or.inr ⟨f,hfinishes f hf hpc hallocated,hpc,(hsame f.mandelboxID).mpr hallocated⟩))

theorem mem_set_of_ne {g f' : Finish} (hj : s.finishes[j]? = some f) (hg : g ∈ s.finishes) (hne : g ≠ f) :
    g ∈ s.finishes.set j f' := by
  obtain ⟨k,hk⟩ := List.getElem?_of_mem hg
  have hkj : k ≠ j := by
    rintro rfl
    exact hne (Option.some.inj (hk.symm.trans hj))
  exact List.mem_of_getElem? (Slots.set_other hk hkj)

theorem finish (h : Attended cfg s) (hj : s.finishes[j]? = some f) (hsucceeds : s.Succeeds (.finish j out))
    (hsteady : Steady s t) (hrows : FinishRows cfg s j f out t) : Attended cfg t := by
  have hout := hsucceeds f hj
  -- another one is where it was
  have hother : ∀ f' : Finish, t.finishes = s.finishes.set j f' → ¬s.db.Allocated cfg.instanceID f.mandelboxID →
      ∀ g ∈ s.finishes, g.pc = .verify ∨ g.pc = .markConnecting →
      s.db.Allocated cfg.instanceID g.mandelboxID → g ∈ t.finishes := by
    intro f' hfinishes hnot g hg _ hallocated
    rw [hfinishes]
    refine mem_set_of_ne hj hg ?_
    rintro rfl
    exact hnot hallocated
  cases hrows with
  | reads hpc hallocated hfinishes hdb =>
    refine Or.inr (Or.inr (Or.inr ⟨{ f with pc := .markConnecting },?_,Or.inr rfl,hdb ▸ hallocated⟩))
    rw [hfinishes]
    exact List.mem_of_getElem? (Slots.set_self hj _)
  | writes hpc hfinishes hdb =>
    have hnotices : Notices cfg.instanceID s.db t.db := hdb ▸ write_notices s.db cfg.instanceID f.mandelboxID .connecting
    by_cases hallocated : s.db.Allocated cfg.instanceID f.mandelboxID
    · rcases hnotices with hchanged | ⟨-,hsame⟩
      · exact Or.inl hchanged
      · obtain ⟨r,hr,-,hstatus⟩ := (hsame f.mandelboxID).mpr hallocated
        rw [hdb, lookup_write, if_pos rfl] at hr
        obtain ⟨r₀,-,rfl⟩ := Option.map_eq_some_iff.mp hr
        cases hstatus
    · exact h.noticed hnotices hsteady.events (hother _ hfinishes hallocated)
  | lost hpc hlost =>
    rw [hout (by rw [hpc]; rfl)] at hlost
    cases hlost
  | fails hpc hgone hfinishes hdb =>
    have hok : out = .ok := hout (by rcases hpc with hpc | hpc <;> rw [hpc] <;> rfl)
    have hnot := hgone.resolve_left (by rw [hok]; simp)
    exact h.noticed (hdb ▸ .of_same rfl rfl) hsteady.events (hother _ hfinishes hnot)
  | goes f' hid hverified hbefore hafter hfinishes hdb =>
    refine h.noticed ?_ hsteady.events (fun g hg hgpc _ => ?_)
    · rcases hdb with hdb | hdb
      · exact hdb ▸ .of_same rfl rfl
      · exact hdb ▸ write_notices _ _ _ _
    · rw [hfinishes]
      refine mem_set_of_ne hj hg ?_
      rintro rfl
      rcases hgpc with hgpc | hgpc
      · exact hbefore.1 hgpc
      · exact hbefore.2 hgpc

theorem step (h : Attended cfg s) {mv : ServiceMove} (hsucceeds : s.Succeeds mv) (hstep : s.step cfg mv = .ok t) :
    Attended cfg t := by
  unfold Service.step at hstep
  split_ifs at hstep
  cases mv with
  | subscription =>
    dsimp only [move] at hstep
    split_ifs at hstep
    cases hevents : s.subscriptionEvents with
    | nil =>
      rw [hevents] at hstep
      cases hstep
    | cons event rest =>
      rw [hevents] at hstep
      cases event with
      | nil => cases hstep
      | cons x others =>
        cases hstep
        rcases h with h | h | ⟨y,others',hmem,hy⟩ | ⟨f,hf,hpc,hallocated⟩
        · exact Or.inl h
        · exact Or.inr (Or.inl h)
        · rw [hevents] at hmem
          rcases List.mem_cons.mp hmem with heq | hmem
          · obtain rfl : y = x := (List.cons.inj heq).1
            exact Or.inr (Or.inr (Or.inr ⟨⟨y.1,none,.verify,false⟩,by simp,Or.inl rfl,hy⟩))
          · exact Or.inr (Or.inr (Or.inl ⟨y,others',hmem,hy⟩))
        · exact Or.inr (Or.inr (Or.inr ⟨f,List.mem_append_left _ hf,hpc,hallocated⟩))
  | finish j out =>
    dsimp only [move] at hstep
    cases hj : s.finishes[j]? with
    | none =>
      rw [hj] at hstep
      cases hstep
    | some f =>
      rw [hj] at hstep
      obtain ⟨hsteady,hrows⟩ := finishAt_rows hj hstep
      exact h.finish hj hsucceeds hsteady hrows
  | spinUp id key =>
    dsimp only [move] at hstep
    split at hstep
    · split_ifs at hstep with hfresh
      unfold newMandelbox at hstep
      split at hstep
      · cases hstep
      · cases hstep
        exact h
    · cases hstep
  | publish event =>
    dsimp only [move] at hstep
    by_cases hlists : s.db.Lists cfg.instanceID event
    · rw [if_pos hlists] at hstep
      cases hstep
      by_cases hnone : ∀ id, ¬s.db.Allocated cfg.instanceID id
      · exact Or.inr (Or.inl hnone)
      · -- the event has a first row, which is allocated
        obtain ⟨id,hid⟩ := not_forall_not.mp hnone
        obtain ⟨r,hr,hallocated⟩ := hid
        have hmem := hlists.2 ⟨id,r⟩ (AList.mem_lookup_iff.mp hr) hallocated
        cases event with
        | nil => cases hmem
        | cons x others =>
          obtain ⟨hx,hxallocated⟩ := hlists.1 x List.mem_cons_self
          have hpasses : mandelboxAllocatedHandler cfg.instanceID (x :: others) = true := by
            simp [mandelboxAllocatedHandler, hxallocated.1, hxallocated.2]
          refine Or.inr (Or.inr (Or.inl ⟨x,others,?_,x.2,hx,hxallocated⟩))
          dsimp only
          rw [if_pos hpasses]
          exact List.mem_append_right _ List.mem_cons_self
    · rw [if_neg hlists] at hstep
      cases hstep
  | _ =>
    obtain ⟨haside,heffect⟩ := Service.move_beside rfl hstep
    exact h.noticed heffect.notices haside.events (fun f hf _ _ => haside.finishes ▸ hf)

theorem quiet (h : Attended cfg s) (hquiet : s.Quiet) : ∀ id, ¬s.db.Allocated cfg.instanceID id := by
  rcases h with h | h | ⟨x,rest,hmem,-⟩ | ⟨f,hf,hpc,-⟩
  · rw [hquiet.changed] at h
    cases h
  · exact h
  · rw [hquiet.events] at hmem
    cases hmem
  · rw [hquiet.finishes f hf] at hpc
    simp at hpc

end Attended

/-- In every run at most one spin-up of a mandelbox passes the verification, if none reads the row between
the reading and the writing of another one, no commit is lost and only waiting mandelboxes are assigned;
and as long as the database works, no mandelbox is left allocated when nothing is pending. -/
theorem allocated_once (cfg : Config) (rows : Rows) (reservations : List (UInt16 × TransportProtocol))
    (numGPUs capacity : ℕ) (moves : List ServiceMove)
    (hexclusive : Run.EachOk (step cfg) Exclusive (start rows reservations numGPUs capacity) moves)
    (hrun : Run.run (step cfg) (start rows reservations numGPUs capacity) moves = .ok t) :
    t.PassedOnce ∧
      (Run.EachOk (step cfg) Succeeds (start rows reservations numGPUs capacity) moves → t.Quiet →
        ∀ id, ¬t.db.Allocated cfg.instanceID id) := by
  have honce : OnceInv t := Run.EachOk.invariant (fun _ _ _ h hmv hstep => h.step hmv hstep)
    (OnceInv.start rows reservations numGPUs capacity) hexclusive hrun
  refine ⟨honce.once,fun hsucceeds hquiet => ?_⟩
  have hstart : Attended cfg (start rows reservations numGPUs capacity) := Or.inl rfl
  have hattended : Attended cfg t := Run.EachOk.invariant (fun _ _ _ h hmv hstep => h.step hmv hstep)
    hstart hsucceeds hrun
  exact hattended.quiet hquiet

def spinsUp (i : ℕ) (id : MandelboxID) : List ServiceMove :=
  [.spinUp id "key"] ++ List.replicate 3 (.resources i (.ports (drawPort (4 * i)))) ++
    [.resources i (.devices true)] ++ List.replicate 3 (.resources i (.display (drawTTY (4 * i)))) ++
    [.resources i .wait,.loop true,.loop true]

def assigns (k : ℕ) (id : MandelboxID) (allocated : List MandelboxID) : List ServiceMove :=
  [.assign,.assignment k id,.assignment k id,.publish (allocated.map fun id => (id,⟨"host-1",.allocated⟩)),
    .subscription]

def oneUser : List ServiceMove :=
  spinsUp 0 "mandelbox-1" ++ [.loop true] ++ assigns 0 "mandelbox-1" ["mandelbox-1"] ++
    [.finish 0 .ok,.finish 0 .ok]

theorem allocated_once_one : ∃ t, Run.run (step oneHost) (start ∅ [] 0 1) oneUser = .ok t ∧ t.PassedOnce := by
  have hok : (Run.run (step oneHost) (start ∅ [] 0 1) oneUser).toOption.isSome := by decide +kernel
  cases hrun : Run.run (step oneHost) (start ∅ [] 0 1) oneUser with
  | error e =>
    rw [hrun] at hok
    cases hok
  | ok t => exact ⟨t,rfl,(allocated_once oneHost ∅ [] 0 1 oneUser (by decide +kernel) hrun).1⟩

/-- A second user is assigned before the first one is verified, and the first mandelbox heads the next
event, too: both of its spin-ups read the row before either writes it. -/
def twoUsers : List ServiceMove :=
  spinsUp 0 "mandelbox-1" ++ spinsUp 1 "mandelbox-2" ++ [.loop true] ++
    assigns 0 "mandelbox-1" ["mandelbox-1"] ++ assigns 1 "mandelbox-2" ["mandelbox-1","mandelbox-2"] ++
    [.finish 0 .ok,.finish 1 .ok,.finish 0 .ok,.finish 1 .ok]

theorem allocated_once_fails : ¬∀ (cfg : Config) (rows : Rows) (reservations : List (UInt16 × TransportProtocol))
    (numGPUs capacity : ℕ) (moves : List ServiceMove) (t : Service),
    Run.run (step cfg) (start rows reservations numGPUs capacity) moves = .ok t →
    t.PassedOnce ∧
      (Run.EachOk (step cfg) Succeeds (start rows reservations numGPUs capacity) moves → t.Quiet →
        ∀ id, ¬t.db.Allocated cfg.instanceID id) := by
  intro h
  have hfinishes : (Run.run (step oneHost) (start ∅ [] 0 2) twoUsers).toOption.map Service.finishes =
      some [⟨"mandelbox-1",none,.lookUp,true⟩,⟨"mandelbox-1",none,.lookUp,true⟩] := by decide +kernel
  cases hrun : Run.run (step oneHost) (start ∅ [] 0 2) twoUsers with
  | error e =>
    rw [hrun] at hfinishes
    cases hfinishes
  | ok t =>
    rw [hrun] at hfinishes
    have hboth : t.finishes = [⟨"mandelbox-1",none,.lookUp,true⟩,⟨"mandelbox-1",none,.lookUp,true⟩] :=
      Option.some.inj hfinishes
    have honce := (h oneHost ∅ [] 0 2 twoUsers t hrun).1 0 1 ⟨"mandelbox-1",none,.lookUp,true⟩
      ⟨"mandelbox-1",none,.lookUp,true⟩ (by rw [hboth]; rfl) (by rw [hboth]; rfl) rfl rfl rfl
    cases honce

end Service

end Whist.Host
