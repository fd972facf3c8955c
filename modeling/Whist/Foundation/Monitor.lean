import Whist.Foundation.Linearizability

/-! # Objects behind a mutex

A call works on the content and gives the mutex up: with its answer, or to wait until it is woken.
-/
namespace Monitor
open Linearizability

/-- What a call does with the mutex, the first time and when it was woken (or not) from its wait, and what happens
to the content from elsewhere. -/
structure Code (C Op R E : Type*) where
  enter : C → Op → Option (C × Option R)
  wake : C → Op → Bool → Option (C × Option R)
  drift : C → E → C

inductive Phase (Op R : Type*) where
  | idle
  | called (op : Op)
  | waiting (op : Op)
  | answered (op : Op) (r : R)
  | done

structure State (κ C Op R : Type*) where
  content : C
  phase : κ → Phase Op R
  history : List (Event κ Op R)
  /-- The calls that came to their answer, in the order in which they had the mutex. -/
  answered : List (Entry κ Op R)

inductive Move (κ Op E : Type*) where
  | call (id : κ) (op : Op)
  | enter (id : κ)
  | wake (id : κ) (woken : Bool)
  | answer (id : κ)
  | drift (e : E)

variable {κ C Op R E S : Type*} [DecidableEq κ]

def settle (s : State κ C Op R) (id : κ) (op : Op) : C × Option R → State κ C Op R
  | (c,some r) =>
    { s with content := c, phase := Function.update s.phase id (.answered op r),
             answered := s.answered ++ [⟨id,op,r⟩] }
  | (c,none) => { s with content := c, phase := Function.update s.phase id (.waiting op) }

section
variable {s : State κ C Op R} {id : κ} {op : Op} {c : C}

theorem settle_some_phase {r : R} : (settle s id op (c,some r)).phase id = .answered op r := Function.update_self _ _ _

theorem settle_none_phase : (settle s id op (c,none)).phase id = .waiting op := Function.update_self _ _ _

theorem settle_phase_of_ne {id' : κ} (h : id' ≠ id) (o : Option R) :
    (settle s id op (c,o)).phase id' = s.phase id' := by
  cases o with
  | some r => exact Function.update_of_ne h _ _
  | none => exact Function.update_of_ne h _ _

theorem settle_content (o : Option R) : (settle s id op (c,o)).content = c := by
  cases o <;> rfl

end

def step (m : Code C Op R E) (s : State κ C Op R) : Move κ Op E → Option (State κ C Op R)
  | .call id op =>
    match s.phase id with
    | .idle =>
      some { s with phase := Function.update s.phase id (.called op), history := s.history ++ [.call id op] }
    | _ => none
  | .enter id =>
    match s.phase id with
    | .called op => (m.enter s.content op).map (settle s id op)
    | _ => none
  | .wake id woken =>
    match s.phase id with
    | .waiting op => (m.wake s.content op woken).map (settle s id op)
    | _ => none
  | .answer id =>
    match s.phase id with
    | .answered _ r =>
      some { s with phase := Function.update s.phase id .done, history := s.history ++ [.answer id r] }
    | _ => none
  | .drift e => some { s with content := m.drift s.content e }

def run (m : Code C Op R E) : State κ C Op R → List (Move κ Op E) → Option (State κ C Op R)
  | s, [] => some s
  | s, a :: as =>
    match step m s a with
    | none => none
    | some s => run m s as

def start (c : C) : State κ C Op R := { content := c, phase := fun _ => .idle, history := [], answered := [] }

/-- The mutex was held from `s` to `t`, and the call has its answer or finds nothing to do yet. -/
def Effect (apply : S → Op → S × R) (giveUp : Op → R) (s : S) (op : Op) (t : S) : Option R → Prop
  | some r => apply s op = (t,r)
  | none => t = s ∧ apply s op = (s,giveUp op)

/-- Where `I` holds the code does what the object does; a call that waits would give up if it were to answer, and
one that has waited too long does. -/
structure Refines (m : Code C Op R E) (apply : S → Op → S × R) (giveUp : Op → R) (I : C → Prop) (abs : C → S) :
    Prop where
  enter : ∀ c op,I c → ∃ c' o,m.enter c op = some (c',o) ∧ I c' ∧ Effect apply giveUp (abs c) op (abs c') o
  wake : ∀ c op woken,I c → ∃ c' o,m.wake c op woken = some (c',o) ∧ I c' ∧
    (Effect apply giveUp (abs c) op (abs c') o ∨ o = some (giveUp op) ∧ abs c' = abs c)
  drift : ∀ c e,I c → I (m.drift c e) ∧ abs (m.drift c e) = abs c
  nothing : ∀ s op,(apply s op).2 = giveUp op → (apply s op).1 = s

def Stands (giveUp : Op → R) (history : List (Event κ Op R)) (l : List (Entry κ Op R)) (id : κ) : Phase Op R → Prop
  | .idle => (∀ e ∈ l,e.id ≠ id) ∧ ∀ r,.answer id r ∉ history
  | .called op => (∀ e ∈ l,e.id ≠ id) ∧ .call id op ∈ history ∧ ∀ r,.answer id r ∉ history
  | .waiting op => ⟨id,op,giveUp op⟩ ∈ l ∧ .call id op ∈ history ∧ ∀ r,.answer id r ∉ history
  | .answered op r => ⟨id,op,r⟩ ∈ l
  | .done => True

omit [DecidableEq κ] in
theorem Stands.congr {giveUp : Op → R} {history history' : List (Event κ Op R)} {l l' : List (Entry κ Op R)} {id : κ}
    {p : Phase Op R} (h : Stands giveUp history l id p) (hl : ∀ e,e.id = id → (e ∈ l' ↔ e ∈ l))
    (hcall : ∀ op,.call id op ∈ history → .call id op ∈ history')
    (hanswer : ∀ r,.answer id r ∈ history' → .answer id r ∈ history) : Stands giveUp history' l' id p := by
  have hnone : (∀ e ∈ l,e.id ≠ id) → ∀ e ∈ l',e.id ≠ id := fun hnone e he hid => hnone e ((hl e hid).mp he) hid
  cases p with
  | idle => exact ⟨hnone h.1,fun r hr => h.2 r (hanswer r hr)⟩
  | called op => exact ⟨hnone h.1,hcall op h.2.1,fun r hr => h.2.2 r (hanswer r hr)⟩
  | waiting op => exact ⟨(hl _ rfl).mpr h.1,hcall op h.2.1,fun r hr => h.2.2 r (hanswer r hr)⟩
  | answered op r => exact (hl _ rfl).mpr h
  | done => trivial

structure Inv (apply : S → Op → S × R) (giveUp : Op → R) (I : C → Prop) (abs : C → S) (s₀ : S) (s : State κ C Op R)
    (l : List (Entry κ Op R)) : Prop where
  content : I s.content
  linearizes : Linearizes apply s₀ s.history l (abs s.content)
  stands : ∀ id,Stands giveUp s.history l id (s.phase id)

namespace Inv
variable {m : Code C Op R E} {apply : S → Op → S × R} {giveUp : Op → R} {I : C → Prop} {abs : C → S} {s₀ : S}
  {s s' : State κ C Op R} {l : List (Entry κ Op R)}

omit [DecidableEq κ] in
theorem start {c : C} (hc : I c) : Inv apply giveUp I abs (abs c) (Monitor.start c : State κ C Op R) [] where
  content := hc
  linearizes :=
    { legal := rfl
      once := List.nodup_nil
      called := List.forall_mem_nil _
      answered := fun _ _ hr => (List.not_mem_nil hr).elim
      ordered := fun _ _ _ _ hab _ => (List.not_mem_nil (hab.subset List.mem_cons_self)).elim }
  stands _ := ⟨List.forall_mem_nil _,fun _ => List.not_mem_nil⟩

theorem settle {id : κ} {op : Op} {c' : C} {o : Option R} (hl : Linearizes apply s₀ s.history l (abs s.content))
    (hothers : ∀ id' ≠ id,Stands giveUp s.history l id' (s.phase id')) (hid : ∀ e ∈ l,e.id ≠ id)
    (hcall : .call id op ∈ s.history) (hopen : ∀ r,.answer id r ∉ s.history) (hc' : I c')
    (ho : Effect apply giveUp (abs s.content) op (abs c') o) :
    ∃ l',Inv apply giveUp I abs s₀ (settle s id op (c',o)) l' := by
  have hid' : id ∉ l.map Entry.id := by
    intro h
    obtain ⟨e,he,heid⟩ := List.mem_map.mp h
    exact hid e he heid
  have htake := hl.takeEffect hid' hcall
  have helse : ∀ id' ≠ id,∀ r,Stands giveUp s.history (l ++ [⟨id,op,r⟩]) id' (s.phase id') := by
    intro id' hne r
    refine (hothers id' hne).congr (fun e he => ?_) (fun _ h => h) fun _ h => h
    have hne' : e ≠ ⟨id,op,r⟩ := fun h => hne (he ▸ congrArg Entry.id h)
    simp [hne']
  cases o with
  | some r =>
    rw [show apply (abs s.content) op = (abs c',r) from ho] at htake
    refine ⟨_,hc',htake,fun id' => ?_⟩
    rcases eq_or_ne id' id with rfl | hne
    · rw [settle_some_phase]
      exact List.mem_append_right _ List.mem_cons_self
    · rw [settle_phase_of_ne hne]
      exact helse id' hne r
  | none =>
    obtain ⟨habs,hgive⟩ := ho
    rw [hgive, ← habs] at htake
    refine ⟨_,hc',htake,fun id' => ?_⟩
    rcases eq_or_ne id' id with rfl | hne
    · rw [settle_none_phase]
      exact ⟨List.mem_append_right _ List.mem_cons_self,hcall,hopen⟩
    · rw [settle_phase_of_ne hne]
      exact helse id' hne _

theorem moved (h : Inv apply giveUp I abs s₀ s l) {id : κ} {p : Phase Op R} {ev : Event κ Op R}
    (hl : Linearizes apply s₀ (s.history ++ [ev]) l (abs s.content)) (hp : Stands giveUp (s.history ++ [ev]) l id p)
    (hev : ∀ id' ≠ id,∀ r,ev ≠ .answer id' r) :
    Inv apply giveUp I abs s₀
      { s with phase := Function.update s.phase id p, history := s.history ++ [ev] } l where
  content := h.content
  linearizes := hl
  stands id' := by
    rcases eq_or_ne id' id with rfl | hne
    · dsimp only
      rwa [Function.update_self]
    · dsimp only
      rw [Function.update_of_ne hne]
      refine (h.stands id').congr (fun e _ => Iff.rfl) (fun op hop => List.mem_append_left _ hop) fun r hr => ?_
      rcases List.mem_append.mp hr with hr | hr
      · exact hr
      · exact (hev id' hne r (List.mem_singleton.mp hr).symm).elim

theorem step (hm : Refines m apply giveUp I abs) (h : Inv apply giveUp I abs s₀ s l) {a : Move κ Op E}
    (hs : step m s a = some s') : ∃ l',Inv apply giveUp I abs s₀ s' l' := by
  cases a with
  | call id op =>
    have hstands := h.stands id
    cases hp : s.phase id <;> simp only [Monitor.step, hp, reduceCtorEq, Option.some.injEq] at hs
    subst hs
    rw [hp] at hstands
    have hid : id ∉ l.map Entry.id := by
      intro hmem
      obtain ⟨e,he,heid⟩ := List.mem_map.mp hmem
      exact hstands.1 e he heid
    refine ⟨l,h.moved (h.linearizes.call hid op) ⟨hstands.1,?_,fun r hr => ?_⟩ fun _ _ _ => by simp⟩
    · exact List.mem_append_right _ List.mem_cons_self
    · rcases List.mem_append.mp hr with hr | hr
      · exact hstands.2 r hr
      · cases List.mem_singleton.mp hr
  | enter id =>
    have hstands := h.stands id
    cases hp : s.phase id <;> simp only [Monitor.step, hp, reduceCtorEq] at hs
    case called op =>
      rw [hp] at hstands
      obtain ⟨c',o,henter,hc',ho⟩ := hm.enter s.content op h.content
      rw [henter, Option.map_some, Option.some.injEq] at hs
      exact hs ▸ settle h.linearizes (fun id' _ => h.stands id') hstands.1 hstands.2.1 hstands.2.2 hc' ho
  | wake id woken =>
    have hstands := h.stands id
    cases hp : s.phase id <;> simp only [Monitor.step, hp, reduceCtorEq] at hs
    case waiting op =>
      rw [hp] at hstands
      obtain ⟨hmem,hcall,hopen⟩ := hstands
      obtain ⟨c',o,hwake,hc',ho⟩ := hm.wake s.content op woken h.content
      rw [hwake, Option.map_some, Option.some.injEq] at hs
      subst hs
      rcases ho with ho | ⟨rfl,habs⟩
      · -- what it would have answered is taken back
        have hnothing : ∀ e ∈ l,e.id = id → ∀ t,(apply t e.op).2 = e.response → (apply t e.op).1 = t := by
          intro e he heid
          obtain rfl : e = ⟨id,op,giveUp op⟩ := List.inj_on_of_nodup_map h.linearizes.once he hmem heid
          exact fun t => hm.nothing t op
        refine settle (h.linearizes.takeBack hopen hnothing) (fun id' hne => ?_) (fun e he => ?_) hcall hopen hc' ho
        · refine (h.stands id').congr (fun e he => ?_) (fun _ h => h) fun _ h => h
          simp [he, hne]
        · exact of_decide_eq_true (List.mem_filter.mp he).2
      · -- it answers as it would have when it went to wait
        refine ⟨l,hc',?_,fun id' => ?_⟩
        · exact habs ▸ h.linearizes
        · rcases eq_or_ne id' id with rfl | hne
          · rw [settle_some_phase]
            exact hmem
          · rw [settle_phase_of_ne hne]
            exact h.stands id'
  | answer id =>
    have hstands := h.stands id
    cases hp : s.phase id <;> simp only [Monitor.step, hp, reduceCtorEq, Option.some.injEq] at hs
    case answered op r =>
      subst hs
      rw [hp] at hstands
      refine ⟨l,h.moved (h.linearizes.answer hstands) trivial fun id' hne r' heq => ?_⟩
      exact hne (Event.answer.inj heq).1.symm
  | drift e =>
    obtain rfl := Option.some.inj hs
    obtain ⟨hI,habs⟩ := hm.drift s.content e h.content
    exact ⟨l,hI,habs ▸ h.linearizes,h.stands⟩

theorem run (hm : Refines m apply giveUp I abs) (h : Inv apply giveUp I abs s₀ s l) {as : List (Move κ Op E)}
    (hr : run m s as = some s') : ∃ l',Inv apply giveUp I abs s₀ s' l' := by
  induction as generalizing s l with
  | nil =>
    obtain rfl := Option.some.inj hr
    exact ⟨l,h⟩
  | cons a as ih =>
    rw [Monitor.run] at hr
    cases hs : Monitor.step m s a with
    | none => simp only [hs, reduceCtorEq] at hr
    | some t =>
      simp only [hs] at hr
      obtain ⟨l',h'⟩ := h.step hm hs
      exact ih h' hr

end Inv

section
variable {m : Code C Op R E} {apply : S → Op → S × R} {giveUp : Op → R} {I : C → Prop} {abs : C → S}
  {Q : List (Entry κ Op R) → S → Prop} {s s' : State κ C Op R}

theorem settle_answered (happly : ∀ l s id op,Q l s → Q (l ++ [⟨id,op,(apply s op).2⟩]) (apply s op).1)
    (hgive : ∀ l s id op,Q l s → Q (l ++ [⟨id,op,giveUp op⟩]) s) {id : κ} {op : Op} {c' : C} {o : Option R}
    (hQ : Q s.answered (abs s.content))
    (ho : Effect apply giveUp (abs s.content) op (abs c') o ∨ o = some (giveUp op) ∧ abs c' = abs s.content) :
    Q (settle s id op (c',o)).answered (abs c') := by
  cases o with
  | none =>
    rcases ho with ho | ⟨ho,-⟩
    · exact ho.1 ▸ hQ
    · cases ho
  | some r =>
    rcases ho with ho | ⟨ho,habs⟩
    · have hQ' := happly _ _ id op hQ
      rwa [show apply (abs s.content) op = (abs c',r) from ho] at hQ'
    · obtain rfl := Option.some.inj ho
      exact habs ▸ hgive _ _ id op hQ

theorem step_answered (hm : Refines m apply giveUp I abs)
    (happly : ∀ l s id op,Q l s → Q (l ++ [⟨id,op,(apply s op).2⟩]) (apply s op).1)
    (hgive : ∀ l s id op,Q l s → Q (l ++ [⟨id,op,giveUp op⟩]) s) {a : Move κ Op E} (hI : I s.content)
    (hQ : Q s.answered (abs s.content)) (hs : step m s a = some s') :
    I s'.content ∧ Q s'.answered (abs s'.content) := by
  cases a with
  | call id op =>
    cases hp : s.phase id <;> simp only [step, hp, reduceCtorEq, Option.some.injEq] at hs
    exact hs ▸ ⟨hI,hQ⟩
  | enter id =>
    cases hp : s.phase id <;> simp only [step, hp, reduceCtorEq] at hs
    case called op =>
      obtain ⟨c',o,henter,hc',ho⟩ := hm.enter s.content op hI
      rw [henter, Option.map_some, Option.some.injEq] at hs
      rw [← hs, settle_content]
      exact ⟨hc',settle_answered happly hgive hQ (Or.inl ho)⟩
  | wake id woken =>
    cases hp : s.phase id <;> simp only [step, hp, reduceCtorEq] at hs
    case waiting op =>
      obtain ⟨c',o,hwake,hc',ho⟩ := hm.wake s.content op woken hI
      rw [hwake, Option.map_some, Option.some.injEq] at hs
      rw [← hs, settle_content]
      exact ⟨hc',settle_answered happly hgive hQ ho⟩
  | answer id =>
    cases hp : s.phase id <;> simp only [step, hp, reduceCtorEq, Option.some.injEq] at hs
    exact hs ▸ ⟨hI,hQ⟩
  | drift e =>
    obtain rfl := Option.some.inj hs
    obtain ⟨hI',habs⟩ := hm.drift s.content e hI
    exact ⟨hI',habs ▸ hQ⟩

theorem run_answered (hm : Refines m apply giveUp I abs)
    (happly : ∀ l s id op,Q l s → Q (l ++ [⟨id,op,(apply s op).2⟩]) (apply s op).1)
    (hgive : ∀ l s id op,Q l s → Q (l ++ [⟨id,op,giveUp op⟩]) s) {as : List (Move κ Op E)} (hI : I s.content)
    (hQ : Q s.answered (abs s.content)) (hr : run m s as = some s') : Q s'.answered (abs s'.content) := by
  induction as generalizing s with
  | nil =>
    obtain rfl := Option.some.inj hr
    exact hQ
  | cons a as ih =>
    rw [run] at hr
    cases hs : step m s a with
    | none => simp only [hs, reduceCtorEq] at hr
    | some t =>
      simp only [hs] at hr
      obtain ⟨hI',hQ'⟩ := step_answered hm happly hgive hI hQ hs
      exact ih hI' hQ' hr

end

end Monitor
