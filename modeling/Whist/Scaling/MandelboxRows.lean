import Whist.Scaling.Books
import Whist.Scaling.Tables

/-! # What the goroutines do to the mandelbox table -/
namespace Whist.Scaling

def allocation : Event Op Ans → Option Mandelbox
  | ⟨.updateMandelbox m,.ok _⟩ => some m
  | _ => none

inductive MandelboxesAfter (w : World) : Event Op Ans → List Mandelbox → Prop where
  | same {e : Event Op Ans} (he : allocation e = none) : MandelboxesAfter w e w.db.mandelboxes
  | inserted {e : Event Op Ans} {rows : List Mandelbox} (he : allocation e = none)
      (hfresh : w.FreshMandelboxes (rows.map Mandelbox.id))
      (hwaiting : ∀ m ∈ rows, m.status = .waiting ∧ m.userID = "")
      (hlocated : ∀ m ∈ rows, w.db.queryInstance m.instanceID ≠ []) :
      MandelboxesAfter w e (w.db.mandelboxes ++ rows)
  | updated (m : Mandelbox) (n : ℕ) :
      MandelboxesAfter w ⟨.updateMandelbox m,.ok n⟩ (w.db.updateMandelbox m).mandelboxes
  | status (status : MandelboxStatus) (id : String) (n : ℕ)
      (hstatus : status ≠ .waiting ∧ status ≠ .allocated) :
      MandelboxesAfter w ⟨.writeMandelboxStatus status id,.ok n⟩
        (w.db.writeMandelboxStatus id status w.clock).mandelboxes
  | removed (id : String) (n : ℕ) (hn : n = affectedMandelboxes w.db id) :
      MandelboxesAfter w ⟨.removeMandelbox id,.ok n⟩ (w.db.removeMandelbox id).mandelboxes
  | cascaded (id : String) (n : ℕ) :
      MandelboxesAfter w ⟨.deleteInstance id,.ok n⟩ (w.db.deleteInstance id).mandelboxes

variable {w : World} {pid : ℕ} {kind : Goroutine} {b : Books} {op : Op} {r : Ans op}

theorem mandelboxes_after (hmay : Books.may kind b op) (ha : answers w pid op r) :
    MandelboxesAfter w ⟨op,r⟩ (effect w pid op r).db.mandelboxes := by
  cases op with
  | insertMandelboxes rows =>
    cases r with
    | error e => exact .same rfl
    | ok n => exact .inserted rfl ha.2.1 hmay ha.2.2
  | createMandelbox row =>
    cases r with
    | error e => exact .same rfl
    | ok n =>
      refine .inserted rfl ha.2.1 (fun m hm => ?_) (fun m hm => ?_)
      · exact List.mem_singleton.mp hm ▸ hmay
      · exact List.mem_singleton.mp hm ▸ ha.2.2
  | updateMandelbox row =>
    cases r with
    | error e => exact .same rfl
    | ok n => exact .updated row n
  | writeMandelboxStatus status id =>
    cases r with
    | error e => exact .same rfl
    | ok n => exact .status status id n hmay
  | removeMandelbox id =>
    cases r with
    | error e => exact .same rfl
    | ok n => exact .removed id n ha
  | deleteInstance id =>
    cases r with
    | error e => exact .same rfl
    | ok n => exact .cascaded id n
  | _ => first | exact .same rfl | (cases r <;> exact .same rfl)

theorem created_effect (w : World) (pid : ℕ) (op : Op) (r : Ans op) :
    w.created <+: (effect w pid op r).created := by
  cases op with
  | insertMandelboxes rows =>
    cases r with
    | error e => exact List.prefix_rfl
    | ok n => exact List.prefix_append _ _
  | createMandelbox row =>
    cases r with
    | error e => exact List.prefix_rfl
    | ok n => exact List.prefix_append _ _
  | _ => first | exact List.prefix_rfl | (cases r <;> exact List.prefix_rfl)

def returnedID : Event Op Ans → Option String
  | ⟨.returnResult (.assigned _ id),_⟩ => some id
  | _ => none

abbrev Books.of (p : Process Goroutine Op Ans) : Books := p.view Books.track {}

abbrev System.books (s : System) : List Books := s.views Books.track {}

theorem Books.allocated_track (b : Books) (e : Event Op Ans) :
    (b.track e).allocated = (allocation e).or b.allocated := by
  obtain ⟨op,r⟩ := e
  cases op with
  | returnResult result => cases result <;> rfl
  | _ => first | rfl | (cases r <;> rfl)

theorem Books.answered_track (b : Books) (e : Event Op Ans) :
    (b.track e).answered = (returnedID e).or b.answered := by
  obtain ⟨op,r⟩ := e
  cases op with
  | returnResult result => cases result <;> rfl
  | _ => first | rfl | (cases r <;> rfl)

theorem Books.trusts_of_answers (ha : answers w pid op r) : Books.trusts b op r := by
  cases op with
  | queryInstanceWithCapacity region =>
    cases r with
    | error e => trivial
    | ok rows =>
      intro i hi
      have hmem := ha.1.mem_iff.mp hi
      rw [Database.queryInstanceWithCapacity, List.mem_filter, decide_eq_true_iff] at hmem
      exact hmem.2.2
  | queryMandelbox instanceID status =>
    cases r with
    | error e => trivial
    | ok rows =>
      intro m hm
      have hmem := ha.mem_iff.mp hm
      rw [Database.queryMandelbox, List.mem_filter, decide_eq_true_iff] at hmem
      exact hmem.2
  | findMandelboxByID id =>
    cases r with
    | error e => trivial
    | ok rows =>
      intro m hm
      have hmem := ha.mem_iff.mp hm
      rw [Database.findMandelboxByID, List.mem_filter, decide_eq_true_iff] at hmem
      exact hmem.2
  | spinUpFakeInstances n imageID region gitCommit => exact ha.2.2.2.2
  | _ => trivial

theorem ops_of_meets {op₁ op₂ : Op} {r₁ : Ans op₁} {r₂ : Ans op₂}
    (h : service.meets op₁ op₂ = some (r₁,r₂)) :
    ∃ region, op₁ = .sendSync region ∧ op₂ = .receiveSync region := by
  change meets op₁ op₂ = _ at h
  cases op₁ <;> cases op₂ <;> try cases h
  rename_i region₁ region₂
  dsimp only [meets] at h
  split_ifs at h with hregion
  exact ⟨region₁,rfl,by rw [hregion]⟩

def System.Honest (s : System) : Prop :=
  ∀ (i : ℕ) p, s.processes[i]? = some p → Pool.Honours bookkeeping (fun _ => {}) Books.settles p

variable {cfg : Settings} {s t : System} {mv : SystemMove}

theorem trusted_step : Pool.Trusted bookkeeping (fun _ => {}) service s mv := by
  cases mv with
  | start kind => trivial
  | act pid reply => exact fun p op next _ ha => Books.trusts_of_answers (b := Books.of p) ha
  | meet pid₁ pid₂ =>
    intro p₁ p₂ op₁ op₂ next₁ next₂ r₁ r₂ _ _ hmeets
    obtain ⟨region,rfl,rfl⟩ := ops_of_meets hmeets
    exact ⟨trivial,trivial⟩
  | drift e => trivial

theorem System.Honest.step (hs : s.Honest) (h : System.step cfg s mv = .ok t) : t.Honest :=
  Pool.honours_step (fun kind => body_wp kind) hs trusted_step h

theorem System.Honest.invariant {Inv : World → List Books → Prop}
    {P : System → Process Goroutine Op Ans → (op : Op) → Ans op → Prop}
    (hstart : ∀ w bs, Inv w bs → Inv w (bs ++ [({} : Books)]))
    (hdrift : ∀ w bs e, Inv w bs → Inv (service.drift w e) bs)
    (hact : ∀ (pid : ℕ) p op r, s.processes[pid]? = some p → s.books[pid]? = some (Books.of p) →
      Books.may p.kind (Books.of p) op → answers s.world pid op r → P s p op r → Inv s.world s.books →
      Inv (effect s.world pid op r) (s.books.set pid ((Books.of p).track ⟨op,r⟩)))
    (hs : s.Honest) (hinv : Inv s.world s.books) (hp : Pool.OnCall P s mv)
    (h : System.step cfg s mv = .ok t) : Inv t.world t.books := by
  cases Pool.steps_of_step h with
  | start kind =>
    rw [System.books, Pool.views_started]
    exact hstart _ _ hinv
  | drift e => exact hdrift _ _ e hinv
  | @act pid reply p op next hcall hanswer =>
    rw [System.books, Pool.views_acted]
    exact hact pid p op _ hcall.1 (Pool.views_getElem? hcall.1) ((hs pid p hcall.1).may hcall) hanswer
      (hp p op next hcall) hinv
  | @meet pid₁ pid₂ p₁ p₂ op₁ op₂ next₁ next₂ r₁ r₂ hcall₁ hcall₂ hmeets hne =>
    obtain ⟨region,rfl,rfl⟩ := ops_of_meets hmeets
    rw [System.books, Pool.views_met hcall₁.1 hcall₂.1 rfl rfl]
    exact hinv

end Whist.Scaling
