import Whist.Foundation.Program
import Whist.Foundation.Run

/-! # Processes that share a world

Any number of processes run programs whose calls are answered by one service.
-/

/-- What a service answers, what a call does to the world, and which pairs of calls meet. -/
structure Service (Op : Type) (Ans : Op → Type) (W E : Type) where
  answers : W → ℕ → (op : Op) → Ans op → Prop
  effect : W → ℕ → (op : Op) → Ans op → W
  meets : (op₁ op₂ : Op) → Option (Ans op₁ × Ans op₂)
  drift : W → E → W
  decidesAnswers : ∀ w pid op r, Decidable (answers w pid op r)

attribute [instance] Service.decidesAnswers

/-- A process, with the calls it has made and the program it has still to run. -/
structure Process (κ Op : Type) (Ans : Op → Type) where
  kind : κ
  history : List (Event Op Ans)
  rest : Program Op Ans Unit

structure Pool (κ Op : Type) (Ans : Op → Type) (W : Type) where
  world : W
  processes : List (Process κ Op Ans)
  /-- The pairs of processes that have met. -/
  meetings : List (ℕ × ℕ)

/-- A reply to a call may depend on the world it finds. -/
inductive Move (κ Op : Type) (Ans : Op → Type) (W E : Type) where
  | start (kind : κ)
  | act (pid : ℕ) (reply : W → (op : Op) → Ans op)
  | meet (pid₁ pid₂ : ℕ)
  | drift (e : E)

inductive Stuck where
  | noProcess
  | noCall
  | refused
deriving DecidableEq

variable {κ Op : Type} {Ans : Op → Type} {W E σ : Type}

namespace Process

def begin (body : κ → Program Op Ans Unit) (kind : κ) : Process κ Op Ans where
  kind := kind
  history := []
  rest := body kind

def advance (p : Process κ Op Ans) (e : Event Op Ans) (rest : Program Op Ans Unit) :
    Process κ Op Ans :=
  { p with history := p.history ++ [e], rest := rest }

def Finished (p : Process κ Op Ans) : Prop := p.rest = .done ()

def view (track : σ → Event Op Ans → σ) (s₀ : σ) (p : Process κ Op Ans) : σ :=
  p.history.foldl track s₀

@[simp] theorem kind_begin (body : κ → Program Op Ans Unit) (kind : κ) :
    (begin body kind).kind = kind := rfl

@[simp] theorem kind_advance (p : Process κ Op Ans) (e : Event Op Ans) (rest : Program Op Ans Unit) :
    (p.advance e rest).kind = p.kind := rfl

@[simp] theorem view_begin (body : κ → Program Op Ans Unit) (kind : κ) (track : σ → Event Op Ans → σ)
    (s₀ : σ) : (begin body kind).view track s₀ = s₀ := rfl

@[simp] theorem view_advance (p : Process κ Op Ans) (e : Event Op Ans) (rest : Program Op Ans Unit)
    (track : σ → Event Op Ans → σ) (s₀ : σ) :
    (p.advance e rest).view track s₀ = track (p.view track s₀) e := by
  rw [view, advance, List.foldl_append]
  rfl

end Process

namespace Pool
variable (S : Service Op Ans W E) (body : κ → Program Op Ans Unit)

def AtCall (s : Pool κ Op Ans W) (pid : ℕ) (p : Process κ Op Ans) (op : Op)
    (next : Ans op → Program Op Ans Unit) : Prop :=
  s.processes[pid]? = some p ∧ p.rest = .call op next

def started (s : Pool κ Op Ans W) (kind : κ) : Pool κ Op Ans W :=
  { s with processes := s.processes ++ [Process.begin body kind] }

def acted (s : Pool κ Op Ans W) (pid : ℕ) (p : Process κ Op Ans) (op : Op)
    (next : Ans op → Program Op Ans Unit) (r : Ans op) : Pool κ Op Ans W :=
  { s with
    world := S.effect s.world pid op r
    processes := s.processes.set pid (p.advance ⟨op,r⟩ (next r)) }

def met (s : Pool κ Op Ans W) (pid₁ pid₂ : ℕ) (p₁ p₂ : Process κ Op Ans) : Pool κ Op Ans W :=
  { s with
    processes := (s.processes.set pid₁ p₁).set pid₂ p₂
    meetings := s.meetings ++ [(pid₁,pid₂)] }

def step (s : Pool κ Op Ans W) : Move κ Op Ans W E → Except Stuck (Pool κ Op Ans W)
  | .start kind => .ok (s.started body kind)
  | .act pid reply =>
    match s.processes[pid]? with
    | none => .error .noProcess
    | some p =>
      match p.rest with
      | .done _ => .error .noCall
      | .call op next =>
        if S.answers s.world pid op (reply s.world op) then
          .ok (s.acted S pid p op next (reply s.world op))
        else .error .refused
  | .meet pid₁ pid₂ =>
    match s.processes[pid₁]?, s.processes[pid₂]? with
    | some p₁, some p₂ =>
      match p₁.rest, p₂.rest with
      | .call op₁ next₁, .call op₂ next₂ =>
        match S.meets op₁ op₂ with
        | none => .error .refused
        | some (r₁,r₂) =>
          if pid₁ = pid₂ then .error .refused
          else .ok (s.met pid₁ pid₂ (p₁.advance ⟨op₁,r₁⟩ (next₁ r₁)) (p₂.advance ⟨op₂,r₂⟩ (next₂ r₂)))
      | _, _ => .error .noCall
    | _, _ => .error .noProcess
  | .drift e => .ok { s with world := S.drift s.world e }

inductive Steps (s : Pool κ Op Ans W) : Move κ Op Ans W E → Pool κ Op Ans W → Prop where
  | start (kind : κ) : Steps s (.start kind) (s.started body kind)
  | act {pid : ℕ} {reply : W → (op : Op) → Ans op} {p : Process κ Op Ans} {op : Op}
      {next : Ans op → Program Op Ans Unit} (hcall : s.AtCall pid p op next)
      (hanswer : S.answers s.world pid op (reply s.world op)) :
      Steps s (.act pid reply) (s.acted S pid p op next (reply s.world op))
  | meet {pid₁ pid₂ : ℕ} {p₁ p₂ : Process κ Op Ans} {op₁ op₂ : Op}
      {next₁ : Ans op₁ → Program Op Ans Unit} {next₂ : Ans op₂ → Program Op Ans Unit}
      {r₁ : Ans op₁} {r₂ : Ans op₂} (hcall₁ : s.AtCall pid₁ p₁ op₁ next₁)
      (hcall₂ : s.AtCall pid₂ p₂ op₂ next₂) (hmeets : S.meets op₁ op₂ = some (r₁,r₂))
      (hne : pid₁ ≠ pid₂) :
      Steps s (.meet pid₁ pid₂)
        (s.met pid₁ pid₂ (p₁.advance ⟨op₁,r₁⟩ (next₁ r₁)) (p₂.advance ⟨op₂,r₂⟩ (next₂ r₂)))
  | drift (e : E) : Steps s (.drift e) { s with world := S.drift s.world e }

variable {S body} {s t : Pool κ Op Ans W} {mv : Move κ Op Ans W E}

theorem steps_of_step (h : step S body s mv = .ok t) : Steps S body s mv t := by
  cases mv with
  | start kind => exact Except.ok.inj h ▸ Steps.start kind
  | drift e => exact Except.ok.inj h ▸ Steps.drift e
  | act pid reply =>
    dsimp only [step] at h
    cases hp : s.processes[pid]? with
    | none => simp [hp] at h
    | some p =>
      rw [hp] at h
      dsimp only at h
      cases hrest : p.rest with
      | done a => simp [hrest] at h
      | call op next =>
        rw [hrest] at h
        dsimp only at h
        by_cases hanswer : S.answers s.world pid op (reply s.world op)
        · rw [if_pos hanswer] at h
          exact Except.ok.inj h ▸ Steps.act ⟨hp,hrest⟩ hanswer
        · rw [if_neg hanswer] at h
          cases h
  | meet pid₁ pid₂ =>
    dsimp only [step] at h
    cases hp₁ : s.processes[pid₁]? with
    | none => simp [hp₁] at h
    | some p₁ =>
      cases hp₂ : s.processes[pid₂]? with
      | none => simp [hp₁, hp₂] at h
      | some p₂ =>
        rw [hp₁, hp₂] at h
        dsimp only at h
        cases hrest₁ : p₁.rest with
        | done a => simp [hrest₁] at h
        | call op₁ next₁ =>
          cases hrest₂ : p₂.rest with
          | done a => simp [hrest₁, hrest₂] at h
          | call op₂ next₂ =>
            rw [hrest₁, hrest₂] at h
            dsimp only at h
            cases hmeets : S.meets op₁ op₂ with
            | none => simp [hmeets] at h
            | some rs =>
              obtain ⟨r₁,r₂⟩ := rs
              rw [hmeets] at h
              dsimp only at h
              by_cases hpid : pid₁ = pid₂
              · rw [if_pos hpid] at h
                cases h
              · rw [if_neg hpid] at h
                exact Except.ok.inj h ▸ Steps.meet ⟨hp₁,hrest₁⟩ ⟨hp₂,hrest₂⟩ hmeets hpid

theorem AtCall.lt {pid : ℕ} {p : Process κ Op Ans} {op : Op} {next : Ans op → Program Op Ans Unit}
    (h : s.AtCall pid p op next) : pid < s.processes.length :=
  (List.getElem?_eq_some_iff.mp h.1).1

theorem acted_processes {pid : ℕ} {p : Process κ Op Ans} {op : Op}
    {next : Ans op → Program Op Ans Unit} (h : s.AtCall pid p op next) (r : Ans op) (i : ℕ) :
    (s.acted S pid p op next r).processes[i]? =
      if i = pid then some (p.advance ⟨op,r⟩ (next r)) else s.processes[i]? := by
  change (s.processes.set pid _)[i]? = _
  rw [List.getElem?_set]
  by_cases hi : pid = i
  · rw [if_pos hi, if_pos hi.symm, if_pos (hi ▸ h.lt)]
  · rw [if_neg hi, if_neg (Ne.symm hi)]

theorem met_processes {pid₁ pid₂ : ℕ} {p₁ p₂ : Process κ Op Ans} (h₁ : pid₁ < s.processes.length)
    (h₂ : pid₂ < s.processes.length) (i : ℕ) :
    (s.met pid₁ pid₂ p₁ p₂).processes[i]? =
      if i = pid₂ then some p₂ else if i = pid₁ then some p₁ else s.processes[i]? := by
  change ((s.processes.set pid₁ p₁).set pid₂ p₂)[i]? = _
  rw [List.getElem?_set, List.getElem?_set, List.length_set]
  by_cases hi : pid₂ = i
  · rw [if_pos hi, if_pos hi.symm, if_pos (hi ▸ h₂)]
  · rw [if_neg hi, if_neg (Ne.symm hi)]
    by_cases hi' : pid₁ = i
    · rw [if_pos hi', if_pos hi'.symm, if_pos (hi' ▸ h₁)]
    · rw [if_neg hi', if_neg (Ne.symm hi')]

theorem started_processes (kind : κ) {i : ℕ} {p : Process κ Op Ans}
    (h : (s.started body kind).processes[i]? = some p) :
    s.processes[i]? = some p ∨ p = Process.begin body kind := by
  change (s.processes ++ [Process.begin body kind])[i]? = some p at h
  rw [List.getElem?_append] at h
  by_cases hi : i < s.processes.length
  · exact Or.inl (by rwa [if_pos hi] at h)
  · rw [if_neg hi] at h
    exact Or.inr (List.mem_singleton.mp (List.mem_of_getElem? h))

/-- A property that every process has from the start and keeps with each of its calls. -/
theorem processes_invariant {J : Process κ Op Ans → Prop} (hbegin : ∀ kind, J (Process.begin body kind))
    (hact : ∀ pid p op next r, s.AtCall pid p op next → S.answers s.world pid op r → J p →
      (∃ reply, mv = .act pid reply ∧ r = reply s.world op) → J (p.advance ⟨op,r⟩ (next r)))
    (hmeet : ∀ pid₁ pid₂ p₁ p₂ op₁ op₂ next₁ next₂ r₁ r₂, s.AtCall pid₁ p₁ op₁ next₁ →
      s.AtCall pid₂ p₂ op₂ next₂ → S.meets op₁ op₂ = some (r₁,r₂) → J p₁ → J p₂ →
      mv = .meet pid₁ pid₂ → J (p₁.advance ⟨op₁,r₁⟩ (next₁ r₁)) ∧ J (p₂.advance ⟨op₂,r₂⟩ (next₂ r₂)))
    (hs : ∀ (i : ℕ) p, s.processes[i]? = some p → J p) (h : step S body s mv = .ok t) :
    ∀ (i : ℕ) p, t.processes[i]? = some p → J p := by
  intro i q hq
  cases steps_of_step h with
  | start kind =>
    rcases started_processes kind hq with hq | rfl
    · exact hs i q hq
    · exact hbegin kind
  | @act pid reply p op next hcall hanswer =>
    rw [acted_processes hcall] at hq
    by_cases hi : i = pid
    · rw [if_pos hi, Option.some.injEq] at hq
      rw [← hq]
      exact hact pid p op next _ hcall hanswer (hs pid p hcall.1) ⟨reply,rfl,rfl⟩
    · rw [if_neg hi] at hq
      exact hs i q hq
  | @meet pid₁ pid₂ p₁ p₂ op₁ op₂ next₁ next₂ r₁ r₂ hcall₁ hcall₂ hmeets hne =>
    obtain ⟨h₁,h₂⟩ := hmeet pid₁ pid₂ p₁ p₂ op₁ op₂ next₁ next₂ r₁ r₂ hcall₁ hcall₂ hmeets
      (hs pid₁ p₁ hcall₁.1) (hs pid₂ p₂ hcall₂.1) rfl
    rw [met_processes hcall₁.lt hcall₂.lt] at hq
    by_cases hi₂ : i = pid₂
    · rw [if_pos hi₂, Option.some.injEq] at hq
      exact hq ▸ h₂
    · rw [if_neg hi₂] at hq
      by_cases hi₁ : i = pid₁
      · rw [if_pos hi₁, Option.some.injEq] at hq
        exact hq ▸ h₁
      · rw [if_neg hi₁] at hq
        exact hs i q hq
  | drift e => exact hs i q hq

def OnCall (P : Pool κ Op Ans W → Process κ Op Ans → (op : Op) → Ans op → Prop)
    (s : Pool κ Op Ans W) : Move κ Op Ans W E → Prop
  | .act pid reply => ∀ p op next, s.AtCall pid p op next → P s p op (reply s.world op)
  | _ => True

theorem OnCall.mono {P Q : Pool κ Op Ans W → Process κ Op Ans → (op : Op) → Ans op → Prop}
    (hPQ : ∀ s p op r, P s p op r → Q s p op r) {s : Pool κ Op Ans W} {mv : Move κ Op Ans W E}
    (h : OnCall P s mv) : OnCall Q s mv := by
  cases mv with
  | act pid reply => exact fun p op next hcall => hPQ s p op _ (h p op next hcall)
  | _ => trivial

instance (P : Pool κ Op Ans W → Process κ Op Ans → (op : Op) → Ans op → Prop)
    [∀ s p op r, Decidable (P s p op r)] (s : Pool κ Op Ans W) :
    ∀ mv : Move κ Op Ans W E, Decidable (OnCall P s mv)
  | .start _ => isTrue trivial
  | .meet _ _ => isTrue trivial
  | .drift _ => isTrue trivial
  | .act pid reply =>
    match hp : s.processes[pid]? with
    | none => isTrue fun p op next hcall => by rw [hcall.1] at hp; cases hp
    | some p =>
      match hrest : p.rest with
      | .done _ => isTrue fun q op next hcall => by
          rw [hcall.1, Option.some.injEq] at hp
          rw [← hp, hcall.2] at hrest
          cases hrest
      | .call op next => decidable_of_iff (P s p op (reply s.world op)) ⟨fun h q op' next' hcall => by
          rw [hcall.1, Option.some.injEq] at hp
          subst hp
          rw [hcall.2] at hrest
          cases hrest
          exact h,fun h => h p op next ⟨hp,hrest⟩⟩

section
variable (track : σ → Event Op Ans → σ) (s₀ : σ)

def views (s : Pool κ Op Ans W) : List σ := s.processes.map (Process.view track s₀)

variable {track s₀}

theorem views_getElem? {i : ℕ} {p : Process κ Op Ans} (h : s.processes[i]? = some p) :
    (s.views track s₀)[i]? = some (p.view track s₀) := by
  rw [views, List.getElem?_map, h]
  rfl

@[simp] theorem views_started (kind : κ) :
    (s.started body kind).views track s₀ = s.views track s₀ ++ [s₀] := by
  simp [views, started]

theorem views_acted {pid : ℕ} {p : Process κ Op Ans} {op : Op} {next : Ans op → Program Op Ans Unit}
    (r : Ans op) :
    (s.acted S pid p op next r).views track s₀ =
      (s.views track s₀).set pid (track (p.view track s₀) ⟨op,r⟩) := by
  simp [views, acted, List.map_set]

theorem views_met {pid₁ pid₂ : ℕ} {p₁ p₂ : Process κ Op Ans} {e₁ e₂ : Event Op Ans}
    {rest₁ rest₂ : Program Op Ans Unit} (h₁ : s.processes[pid₁]? = some p₁)
    (h₂ : s.processes[pid₂]? = some p₂)
    (hskip₁ : track (p₁.view track s₀) e₁ = p₁.view track s₀)
    (hskip₂ : track (p₂.view track s₀) e₂ = p₂.view track s₀) :
    (s.met pid₁ pid₂ (p₁.advance e₁ rest₁) (p₂.advance e₂ rest₂)).views track s₀ = s.views track s₀ := by
  have hset : ∀ {i : ℕ} {p : Process κ Op Ans}, s.processes[i]? = some p →
      (s.views track s₀).set i (p.view track s₀) = s.views track s₀ := by
    intro i p h
    have hget : (s.views track s₀)[i]? = some (p.view track s₀) := views_getElem? h
    obtain ⟨hi,hv⟩ := List.getElem?_eq_some_iff.mp hget
    rw [← hv, List.set_getElem_self]
  simp only [views, met, List.map_set, Process.view_advance, hskip₁, hskip₂]
  change ((s.views track s₀).set pid₁ _).set pid₂ _ = s.views track s₀
  rw [hset h₁, hset h₂]

end

section
variable (C : κ → Program.Contract Op Ans σ) (s₀ : κ → σ) (Q : κ → σ → Unit → Prop)

def Honours (p : Process κ Op Ans) : Prop :=
  p.rest.wp (C p.kind) (Q p.kind) (p.view (C p.kind).track (s₀ p.kind))

def Trusted (S : Service Op Ans W E) (s : Pool κ Op Ans W) : Move κ Op Ans W E → Prop
  | .act pid reply => ∀ p op next, s.AtCall pid p op next → S.answers s.world pid op (reply s.world op) →
      (C p.kind).trusts (p.view (C p.kind).track (s₀ p.kind)) op (reply s.world op)
  | .meet pid₁ pid₂ => ∀ p₁ p₂ op₁ op₂ next₁ next₂ r₁ r₂, s.AtCall pid₁ p₁ op₁ next₁ →
      s.AtCall pid₂ p₂ op₂ next₂ → S.meets op₁ op₂ = some (r₁,r₂) →
      (C p₁.kind).trusts (p₁.view (C p₁.kind).track (s₀ p₁.kind)) op₁ r₁ ∧
        (C p₂.kind).trusts (p₂.view (C p₂.kind).track (s₀ p₂.kind)) op₂ r₂
  | _ => True

variable {C s₀ Q}

theorem Honours.may {p : Process κ Op Ans} {pid : ℕ} {op : Op} {next : Ans op → Program Op Ans Unit}
    (h : Honours C s₀ Q p) (hcall : s.AtCall pid p op next) :
    (C p.kind).may (p.view (C p.kind).track (s₀ p.kind)) op := by
  unfold Honours at h
  rw [hcall.2] at h
  exact h.1

theorem Honours.advance {p : Process κ Op Ans} {pid : ℕ} {op : Op} {next : Ans op → Program Op Ans Unit}
    {r : Ans op} (h : Honours C s₀ Q p) (hcall : s.AtCall pid p op next)
    (hr : (C p.kind).trusts (p.view (C p.kind).track (s₀ p.kind)) op r) :
    Honours C s₀ Q (p.advance ⟨op,r⟩ (next r)) := by
  unfold Honours at h ⊢
  rw [hcall.2] at h
  rw [Process.view_advance]
  exact h.2 r hr

theorem Honours.finished {p : Process κ Op Ans} (h : Honours C s₀ Q p) (hp : p.Finished) :
    Q p.kind (p.view (C p.kind).track (s₀ p.kind)) () := by
  unfold Honours at h
  rw [hp] at h
  exact h

theorem honours_step (hbody : ∀ kind, (body kind).wp (C kind) (Q kind) (s₀ kind))
    (hs : ∀ (i : ℕ) p, s.processes[i]? = some p → Honours C s₀ Q p) (htrusted : Trusted C s₀ S s mv)
    (h : step S body s mv = .ok t) : ∀ (i : ℕ) p, t.processes[i]? = some p → Honours C s₀ Q p := by
  refine processes_invariant hbody ?_ ?_ hs h
  · rintro pid p op next r hcall hanswer hp ⟨reply,rfl,rfl⟩
    exact hp.advance hcall (htrusted p op next hcall hanswer)
  · rintro pid₁ pid₂ p₁ p₂ op₁ op₂ next₁ next₂ r₁ r₂ hcall₁ hcall₂ hmeets hp₁ hp₂ rfl
    obtain ⟨h₁,h₂⟩ := htrusted p₁ p₂ op₁ op₂ next₁ next₂ r₁ r₂ hcall₁ hcall₂ hmeets
    exact ⟨hp₁.advance hcall₁ h₁,hp₂.advance hcall₂ h₂⟩

end

end Pool
