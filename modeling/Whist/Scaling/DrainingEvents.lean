import Whist.Foundation.Run
import Whist.Scaling.EventHandler

/-! # From a draining row to the check of its instance

`eventLoop` hands the first row of an event to the algorithm of that row's region, and `ProcessEvents` starts
`VerifyInstanceScaleDown` for it.  A full channel only delays its sender, so the channels have no bound.
-/
namespace Whist.Scaling

def Instance.place (i : Instance) : String × String := (i.id,i.region)

def drainingRows (rows : List Instance) : List Instance :=
  rows.filter fun i => i.status = .draining

def instancesStatusHandler (status : InstanceStatus) (event : List Instance) : Bool :=
  match event with
  | [] => false
  | i :: _ => i.status = status

/-- The table and the events on their way to the algorithms.  `unannounced` are the
instances that became `DRAINING` since the last result of the subscription, `verified`
those for which the check of their region's algorithm was started while they are
`DRAINING`, and `forgotten` those that stopped being `DRAINING` before. -/
structure EventLoop where
  instances : List Instance
  unannounced : List (String × String)
  results : List (List Instance)
  subscriptionEvents : List (List Instance)
  instanceEvents : String → List (ScalingEvent (Option Instance))
  verified : List (String × String)
  forgotten : List (String × String)

inductive EventMove where
  | change (rows : List Instance)
  | result (rows : List Instance)
  | deliver (k : ℕ)
  | dispatch
  | process (region : String)

namespace EventLoop

def draining (s : EventLoop) : List (String × String) := (drainingRows s.instances).map Instance.place

def change (s : EventLoop) (rows : List Instance) : EventLoop :=
  let now := (drainingRows rows).map Instance.place
  { s with
    instances := rows
    unannounced := s.unannounced ++ now.filter fun key => key ∉ s.draining
    verified := s.verified.filter fun key => key ∈ now
    forgotten := s.forgotten ++ s.draining.filter fun key => key ∉ now ∧ key ∉ s.verified }

def scalingEvent (event : List Instance) : ScalingEvent (Option Instance) where
  type := "DATABASE_INSTANCE_EVENT"
  region := (event.head?.map Instance.region).getD ""
  data := event.head?

def dispatch (cfg : Settings) (s : EventLoop) (event : List Instance) : EventLoop :=
  match getScalingAlgorithm cfg (scalingEvent event) with
  | none => s
  | some region =>
    { s with
      instanceEvents := Function.update s.instanceEvents region
        (s.instanceEvents region ++ [scalingEvent event]) }

/-- The algorithm of a region starts the check of a row that says `DRAINING`. -/
def verify (s : EventLoop) (region : String) (i : Instance) : EventLoop :=
  if i.status = .draining ∧ i.region = region ∧ i.place ∈ s.draining then
    { s with verified := i.place :: s.verified }
  else s

/-- The results come in any order of the rows, and arrive in any order. -/
def step (cfg : Settings) (s : EventLoop) : EventMove → Except String EventLoop
  | .change rows => .ok (s.change rows)
  | .result rows =>
    if rows.Perm (drainingRows s.instances) then
      .ok { s with results := s.results ++ [rows], unannounced := [] }
    else .error "not the rows of the table"
  | .deliver k =>
    match s.results[k]? with
    | none => .error "no such result"
    | some event =>
      let s := { s with results := s.results.eraseIdx k }
      if instancesStatusHandler .draining event then
        .ok { s with subscriptionEvents := s.subscriptionEvents ++ [event] }
      else .ok s
  | .dispatch =>
    match s.subscriptionEvents with
    | [] => .error "no event"
    | event :: rest => .ok (dispatch cfg { s with subscriptionEvents := rest } event)
  | .process region =>
    match s.instanceEvents region with
    | [] => .error "no event"
    | event :: rest =>
      match event.data with
      | none => .error "interface conversion: interface is nil"
      | some i =>
        let s := { s with instanceEvents := Function.update s.instanceEvents region rest }
        .ok (s.verify region i)

def start (rows : List Instance) : EventLoop where
  instances := rows
  unannounced := (drainingRows rows).map Instance.place
  results := []
  subscriptionEvents := []
  instanceEvents := fun _ => []
  verified := []
  forgotten := []

def Idle (s : EventLoop) : Prop :=
  s.unannounced = [] ∧ s.results = [] ∧ s.subscriptionEvents = [] ∧ ∀ region, s.instanceEvents region = []

/-- No instance stopped being `DRAINING` before its check was started, and when nothing is
on its way the checks of all that are `DRAINING` have been started. -/
def NoneForgotten (s : EventLoop) : Prop :=
  s.forgotten = [] ∧ (s.Idle → ∀ key ∈ s.draining, key ∈ s.verified)

def Awaited (s : EventLoop) (key : String × String) : Prop :=
  key ∈ s.unannounced ∨ (∃ event ∈ s.results ++ s.subscriptionEvents, key ∈ event.map Instance.place) ∨
    ∃ event ∈ s.instanceEvents key.2, event.data.map Instance.place = some key

instance (s : EventLoop) (key : String × String) : Decidable (s.Awaited key) := instDecidableOr

def HeedsEvent (cfg : Settings) (s : EventLoop) : List (List Instance) → Prop
  | (first :: rest) :: later =>
    getScalingAlgorithm cfg (scalingEvent (first :: rest)) = some first.region ∧
      ∀ i ∈ rest, i.place ∈ s.draining → i.place ≠ first.place →
        i.place ∈ s.verified ∨ Awaited { s with subscriptionEvents := later } i.place
  | _ => True

instance (cfg : Settings) (s : EventLoop) : ∀ events, Decidable (s.HeedsEvent cfg events)
  | (_ :: _) :: _ => instDecidableAnd
  | [] :: _ => isTrue trivial
  | [] => isTrue trivial

/-- An event is handed on only where its further rows are heeded too, and the table keeps a
`DRAINING` row until the check of it has been started. -/
def Heeds (cfg : Settings) (s : EventLoop) : EventMove → Prop
  | .change rows =>
    ∀ key ∈ s.draining, key ∉ s.verified → key ∈ (drainingRows rows).map Instance.place
  | .dispatch => s.HeedsEvent cfg s.subscriptionEvents
  | _ => True

instance (cfg : Settings) (s : EventLoop) : ∀ mv, Decidable (s.Heeds cfg mv)
  | .change _ => List.decidableBAll _ _
  | .dispatch => inferInstanceAs (Decidable (s.HeedsEvent cfg s.subscriptionEvents))
  | .result _ => isTrue trivial
  | .deliver _ => isTrue trivial
  | .process _ => isTrue trivial

structure Inv (s : EventLoop) : Prop where
  awaited : ∀ key ∈ s.draining, key ∈ s.verified ∨ s.Awaited key
  forgotten : s.forgotten = []
  results : ∀ event ∈ s.results, ∀ i ∈ event, i.status = .draining
  nonempty : ∀ event ∈ s.subscriptionEvents, event ≠ []
  statuses : ∀ event ∈ s.subscriptionEvents, ∀ i ∈ event, i.status = .draining
  data : ∀ region, ∀ event ∈ s.instanceEvents region, ∃ i, event.data = some i ∧ i.status = .draining

variable {cfg : Settings} {s t : EventLoop} {key : String × String}

theorem Inv.noneForgotten (h : s.Inv) : s.NoneForgotten := by
  refine ⟨h.forgotten,fun hidle key hkey => (h.awaited key hkey).resolve_right ?_⟩
  obtain ⟨hunannounced,hresults,hevents,hchannels⟩ := hidle
  rintro (hnew | ⟨event,hevent,-⟩ | ⟨event,hevent,-⟩)
  · rw [hunannounced] at hnew
    exact List.not_mem_nil hnew
  · rw [hresults, hevents] at hevent
    exact List.not_mem_nil hevent
  · rw [hchannels] at hevent
    exact List.not_mem_nil hevent

theorem start_inv (rows : List Instance) : (start rows).Inv where
  awaited := fun _ hkey => Or.inr (Or.inl hkey)
  forgotten := rfl
  results := fun _ h => absurd h List.not_mem_nil
  nonempty := fun _ h => absurd h List.not_mem_nil
  statuses := fun _ h => absurd h List.not_mem_nil
  data := fun _ _ h => absurd h List.not_mem_nil

theorem Inv.change (h : s.Inv) {rows : List Instance} (hkeeps : s.Heeds cfg (.change rows)) :
    (s.change rows).Inv where
  awaited := by
    intro key hkey
    by_cases hwas : key ∈ s.draining
    · rcases h.awaited key hwas with hverified | hnew | hevent
      · exact Or.inl (List.mem_filter.mpr ⟨hverified,decide_eq_true hkey⟩)
      · exact Or.inr (Or.inl (List.mem_append_left _ hnew))
      · exact Or.inr (Or.inr hevent)
    · exact Or.inr (Or.inl (List.mem_append_right _ (List.mem_filter.mpr ⟨hkey,by simpa using hwas⟩)))
  forgotten := by
    have hnone : (s.draining.filter fun key =>
        key ∉ (drainingRows rows).map Instance.place ∧ key ∉ s.verified) = [] := by
      refine List.filter_eq_nil_iff.mpr (fun key hkey hlost => ?_)
      rw [decide_eq_true_eq] at hlost
      exact hlost.1 (hkeeps key hkey hlost.2)
    change s.forgotten ++ _ = []
    rw [h.forgotten, hnone, List.append_nil]
  results := h.results
  nonempty := h.nonempty
  statuses := h.statuses
  data := h.data

theorem Inv.result (h : s.Inv) {rows : List Instance} (hrows : rows.Perm (drainingRows s.instances)) :
    Inv { s with results := s.results ++ [rows], unannounced := [] } where
  awaited := by
    intro key hkey
    have hlisted : key ∈ rows.map Instance.place := (hrows.map _).mem_iff.mpr hkey
    exact Or.inr (Or.inr (Or.inl ⟨rows,by simp,hlisted⟩))
  forgotten := h.forgotten
  results := by
    intro event hevent i hi
    rcases List.mem_append.mp hevent with hold | hnew
    · exact h.results event hold i hi
    · obtain rfl := List.mem_singleton.mp hnew
      have hmem := hrows.mem_iff.mp hi
      simpa using (List.mem_filter.mp hmem).2
  nonempty := h.nonempty
  statuses := h.statuses
  data := h.data

theorem Inv.deliver (h : s.Inv) {k : ℕ} {event : List Instance} (hk : s.results[k]? = some event) :
    Inv { s with
      results := s.results.eraseIdx k
      subscriptionEvents := if instancesStatusHandler .draining event then
        s.subscriptionEvents ++ [event] else s.subscriptionEvents } := by
  obtain ⟨hlt,hget⟩ := List.getElem?_eq_some_iff.mp hk
  have hperm : (event :: s.results.eraseIdx k).Perm s.results := by
    rw [← hget]
    exact List.getElem_cons_eraseIdx_perm hlt
  have hstatus : ∀ i ∈ event, i.status = .draining :=
    h.results event (hperm.subset List.mem_cons_self)
  have hdelivered : instancesStatusHandler .draining event = decide (event ≠ []) := by
    cases event with
    | nil => rfl
    | cons i rest => simpa [instancesStatusHandler] using hstatus i List.mem_cons_self
  have hpasses : ∀ x ∈ s.subscriptionEvents ++ [event], x ≠ [] → x ∈
      (if instancesStatusHandler .draining event then s.subscriptionEvents ++ [event]
        else s.subscriptionEvents) := by
    intro x hx hne
    split_ifs with hpass
    · exact hx
    · rcases List.mem_append.mp hx with hx | hx
      · exact hx
      · obtain rfl := List.mem_singleton.mp hx
        rw [hdelivered] at hpass
        exact absurd (decide_eq_true hne) hpass
  have hall : ∀ x ∈ (if instancesStatusHandler .draining event then s.subscriptionEvents ++ [event]
      else s.subscriptionEvents), x ∈ s.subscriptionEvents ∨ x = event ∧ event ≠ [] := by
    intro x hx
    split_ifs at hx with hpass
    · rcases List.mem_append.mp hx with hx | hx
      · exact Or.inl hx
      · rw [hdelivered, decide_eq_true_eq] at hpass
        exact Or.inr ⟨List.mem_singleton.mp hx,hpass⟩
    · exact Or.inl hx
  constructor
  · intro key hkey
    refine (h.awaited key hkey).imp id (Or.imp id (Or.imp ?_ id))
    rintro ⟨x,hx,hlisted⟩
    have hne : x ≠ [] := by
      rintro rfl
      exact List.not_mem_nil hlisted
    refine ⟨x,?_,hlisted⟩
    rcases List.mem_append.mp hx with hx | hx
    · rcases List.mem_cons.mp (hperm.symm.subset hx) with rfl | hx
      · exact List.mem_append_right _ (hpasses x (by simp) hne)
      · exact List.mem_append_left _ hx
    · exact List.mem_append_right _ (hpasses x (List.mem_append_left _ hx) hne)
  · exact h.forgotten
  · exact fun x hx => h.results x (hperm.subset (List.mem_cons_of_mem _ hx))
  · intro x hx
    rcases hall x hx with hx | ⟨rfl,hne⟩
    · exact h.nonempty x hx
    · exact hne
  · intro x hx
    rcases hall x hx with hx | ⟨rfl,-⟩
    · exact h.statuses x hx
    · exact hstatus
  · exact h.data

theorem Inv.dispatch (h : s.Inv) {event : List Instance} {later : List (List Instance)}
    (hevents : s.subscriptionEvents = event :: later) (hheeds : s.HeedsEvent cfg (event :: later)) :
    (EventLoop.dispatch cfg { s with subscriptionEvents := later } event).Inv := by
  have hmem : event ∈ s.subscriptionEvents := hevents ▸ List.mem_cons_self
  obtain ⟨first,rest,rfl⟩ := List.exists_cons_of_ne_nil (h.nonempty event hmem)
  obtain ⟨hregion,hrest⟩ := hheeds
  have hlater : ∀ x ∈ later, x ∈ s.subscriptionEvents := fun x hx => hevents ▸ List.mem_cons_of_mem _ hx
  rw [EventLoop.dispatch, hregion]
  constructor
  · intro key hkey
    have hchannel : ∀ x ∈ s.instanceEvents key.2, x ∈ Function.update s.instanceEvents first.region
        (s.instanceEvents first.region ++ [scalingEvent (first :: rest)]) key.2 := by
      intro x hx
      rw [Function.update_apply]
      split_ifs with hkr
      · exact List.mem_append_left _ (hkr ▸ hx)
      · exact hx
    have hawaited : Awaited { s with subscriptionEvents := later } key →
        Awaited { s with
          subscriptionEvents := later
          instanceEvents := Function.update s.instanceEvents first.region
            (s.instanceEvents first.region ++ [scalingEvent (first :: rest)]) } key :=
      Or.imp id (Or.imp id fun ⟨x,hx,hplace⟩ => ⟨x,hchannel x hx,hplace⟩)
    by_cases hfirst : key = first.place
    · subst hfirst
      refine Or.inr (Or.inr (Or.inr ⟨scalingEvent (first :: rest),?_,rfl⟩))
      change _ ∈ Function.update s.instanceEvents first.region _ first.region
      rw [Function.update_self]
      simp
    · rcases h.awaited key hkey with hverified | hnew | ⟨x,hx,hlisted⟩ | hpending
      · exact Or.inl hverified
      · exact Or.inr (hawaited (Or.inl hnew))
      · rw [hevents] at hx
        rcases List.mem_append.mp hx with hx | hx
        · exact Or.inr (hawaited (Or.inr (Or.inl ⟨x,List.mem_append_left _ hx,hlisted⟩)))
        · rcases List.mem_cons.mp hx with rfl | hx
          · obtain ⟨i,hi,rfl⟩ := List.mem_map.mp hlisted
            rcases List.mem_cons.mp hi with rfl | hi
            · exact absurd rfl hfirst
            · exact (hrest i hi hkey hfirst).imp id hawaited
          · exact Or.inr (hawaited (Or.inr (Or.inl ⟨x,List.mem_append_right _ hx,hlisted⟩)))
      · exact Or.inr (hawaited (Or.inr (Or.inr hpending)))
  · exact h.forgotten
  · exact h.results
  · exact fun x hx => h.nonempty x (hlater x hx)
  · exact fun x hx => h.statuses x (hlater x hx)
  · intro region x hx
    change x ∈ Function.update s.instanceEvents first.region _ region at hx
    rw [Function.update_apply] at hx
    split_ifs at hx with hr
    · rcases List.mem_append.mp hx with hx | hx
      · exact h.data _ x hx
      · obtain rfl := List.mem_singleton.mp hx
        exact ⟨first,rfl,h.statuses _ hmem first List.mem_cons_self⟩
    · exact h.data region x hx

theorem Inv.process (h : s.Inv) {region : String} {event : ScalingEvent (Option Instance)}
    {rest : List (ScalingEvent (Option Instance))} {i : Instance}
    (hevents : s.instanceEvents region = event :: rest) (hdata : event.data = some i) :
    (verify { s with instanceEvents := Function.update s.instanceEvents region rest } region i).Inv := by
  have hstatus : i.status = .draining := by
    obtain ⟨j,hj,hjs⟩ := h.data region event (hevents ▸ List.mem_cons_self)
    rw [hdata] at hj
    exact Option.some.inj hj ▸ hjs
  have hold : ∀ r, ∀ x ∈ Function.update s.instanceEvents region rest r, x ∈ s.instanceEvents r := by
    intro r x hx
    rw [Function.update_apply] at hx
    split_ifs at hx with hr
    · rw [hr, hevents]
      exact List.mem_cons_of_mem _ hx
    · exact hx
  have hnext : ∀ key ∈ s.draining,
      key ∈ (verify { s with instanceEvents := Function.update s.instanceEvents region rest } region i).verified ∨
        Awaited { s with instanceEvents := Function.update s.instanceEvents region rest } key := by
    intro key hkey
    have hkeeps : ∀ key ∈ s.verified, key ∈
        (verify { s with instanceEvents := Function.update s.instanceEvents region rest } region i).verified := by
      intro key hkey
      unfold verify
      split_ifs
      · exact List.mem_cons_of_mem _ hkey
      · exact hkey
    rcases h.awaited key hkey with hverified | hnew | hlisted | ⟨x,hx,hplace⟩
    · exact Or.inl (hkeeps key hverified)
    · exact Or.inr (Or.inl hnew)
    · exact Or.inr (Or.inr (Or.inl hlisted))
    · by_cases hr : key.2 = region
      · rw [hr, hevents] at hx
        rcases List.mem_cons.mp hx with rfl | hx
        · rw [hdata] at hplace
          obtain rfl : i.place = key := Option.some.inj hplace
          left
          rw [verify, if_pos ⟨hstatus,hr,hkey⟩]
          exact List.mem_cons_self
        · refine Or.inr (Or.inr (Or.inr ⟨x,?_,hplace⟩))
          change x ∈ Function.update s.instanceEvents region rest key.2
          rw [hr, Function.update_self]
          exact hx
      · refine Or.inr (Or.inr (Or.inr ⟨x,?_,hplace⟩))
        change x ∈ Function.update s.instanceEvents region rest key.2
        rw [Function.update_of_ne hr]
        exact hx
  unfold verify at hnext ⊢
  split_ifs at hnext ⊢
  · exact ⟨hnext,h.forgotten,h.results,h.nonempty,h.statuses,fun r x hx => h.data r x (hold r x hx)⟩
  · exact ⟨hnext,h.forgotten,h.results,h.nonempty,h.statuses,fun r x hx => h.data r x (hold r x hx)⟩

theorem step_inv (mv : EventMove) (h : s.Inv) (hheeds : s.Heeds cfg mv) (hstep : step cfg s mv = .ok t) :
    t.Inv := by
  cases mv with
  | change rows =>
    cases hstep
    exact h.change hheeds
  | result rows =>
    dsimp only [step] at hstep
    split_ifs at hstep with hrows
    cases hstep
    exact h.result hrows
  | deliver k =>
    dsimp only [step] at hstep
    cases hk : s.results[k]? with
    | none =>
      rw [hk] at hstep
      cases hstep
    | some event =>
      have hinv := h.deliver hk
      rw [hk] at hstep
      dsimp only at hstep
      split_ifs at hstep hinv
      · cases hstep
        exact hinv
      · cases hstep
        exact hinv
  | dispatch =>
    dsimp only [step] at hstep
    cases hevents : s.subscriptionEvents with
    | nil =>
      rw [hevents] at hstep
      cases hstep
    | cons event later =>
      rw [hevents] at hstep
      cases hstep
      refine h.dispatch hevents ?_
      rw [← hevents]
      exact hheeds
  | process region =>
    dsimp only [step] at hstep
    cases hevents : s.instanceEvents region with
    | nil =>
      rw [hevents] at hstep
      cases hstep
    | cons event rest =>
      rw [hevents] at hstep
      dsimp only at hstep
      cases hdata : event.data with
      | none =>
        rw [hdata] at hstep
        cases hstep
      | some i =>
        rw [hdata] at hstep
        cases hstep
        exact h.process hevents hdata

/-- In every run whose events are heeded, every instance that becomes `DRAINING` is passed to
the check of its region's algorithm while it is `DRAINING`. -/
theorem none_forgotten (cfg : Settings) (rows : List Instance) (moves : List EventMove)
    (hheeds : Run.EachOk (step cfg) (Heeds cfg) (start rows) moves)
    (hrun : Run.run (step cfg) (start rows) moves = .ok t) : t.NoneForgotten :=
  (Run.EachOk.invariant (fun _ mv _ => step_inv mv) (start_inv rows) hheeds hrun).noneForgotten

def drained (id : String) : Instance := { oneInstance with id := id, status := .draining }

/-- The rows become `DRAINING`, and the event that lists them is handled. -/
def announces (rows : List Instance) : List EventMove :=
  [.change rows,.result rows,.deliver 0,.dispatch,.process "us-east-1"]

def announced (rows : List Instance) (checked : List (String × String)) : EventLoop :=
  { start [] with
    instances := rows
    instanceEvents := Function.update (Function.update (fun _ => []) "us-east-1" [scalingEvent rows])
      "us-east-1" []
    verified := checked }

theorem announced_idle (rows : List Instance) (checked : List (String × String)) :
    (announced rows checked).Idle := by
  refine ⟨rfl,rfl,rfl,fun region => ?_⟩
  change Function.update (Function.update (fun _ => []) "us-east-1" [scalingEvent rows]) "us-east-1" [] region = []
  rw [Function.update_idem, Function.update_apply]
  split_ifs <;> rfl

/-- One instance that is drained is checked. -/
theorem none_forgotten_one : (announced [drained "a"] [("a","us-east-1")]).NoneForgotten :=
  none_forgotten oneRegion [] (announces [drained "a"]) (by decide +kernel) rfl

/-- Of two instances that are drained at once, the second one is never checked. -/
theorem none_forgotten_fails :
    ¬∀ (cfg : Settings) (rows : List Instance) (moves : List EventMove) (t : EventLoop),
      Run.run (step cfg) (start rows) moves = .ok t → t.NoneForgotten := by
  intro h
  have hrun : Run.run (step oneRegion) (start []) (announces [drained "a",drained "b"]) =
      .ok (announced [drained "a",drained "b"] [("a","us-east-1")]) := rfl
  have hchecked := (h oneRegion [] _ _ hrun).2 (announced_idle _ _) ("b","us-east-1") (by decide)
  exact absurd hchecked (by decide)

end EventLoop

end Whist.Scaling
