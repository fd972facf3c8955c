import Mathlib.Tactic

/-! # Programs that call operations

A program is finished with a value, or it calls an operation and goes on with the answer.
-/

/-- A program that calls operations `op`, each answered by an `Ans op`. -/
inductive Program (Op : Type) (Ans : Op → Type) (α : Type) where
  | done (a : α)
  | call (op : Op) (next : Ans op → Program Op Ans α)

/-- A call with its answer. -/
structure Event (Op : Type) (Ans : Op → Type) where
  op : Op
  answer : Ans op

namespace Program
variable {Op : Type} {Ans : Op → Type} {α β ε σ : Type}

def bind : Program Op Ans α → (α → Program Op Ans β) → Program Op Ans β
  | done a, f => f a
  | call op next, f => call op fun r => (next r).bind f

instance : Monad (Program Op Ans) where
  pure := done
  bind := bind

def perform (op : Op) : Program Op Ans (Ans op) := call op done

/-- The calls a program makes, whatever the answers, all satisfy `P`. -/
def Calls (P : Op → Prop) : Program Op Ans α → Prop
  | done _ => True
  | call op next => P op ∧ ∀ r, (next r).Calls P

/-- A contract: what is tracked of the events, the answers that are trusted to occur, and
the calls that may be made. -/
structure Contract (Op : Type) (Ans : Op → Type) (σ : Type) where
  track : σ → Event Op Ans → σ
  trusts : σ → (op : Op) → Ans op → Prop
  may : σ → Op → Prop

/-- From a tracked state the program makes only calls that it may make, and ends in `Q`. -/
def wp (C : Contract Op Ans σ) : Program Op Ans α → (σ → α → Prop) → σ → Prop
  | done a, Q, s => Q s a
  | call op next, Q, s => C.may s op ∧ ∀ r, C.trusts s op r → (next r).wp C Q (C.track s ⟨op,r⟩)

variable {C : Contract Op Ans σ}

theorem wp_mono {p : Program Op Ans α} {Q Q' : σ → α → Prop} {s : σ} (h : p.wp C Q s)
    (hQ : ∀ s a, Q s a → Q' s a) : p.wp C Q' s := by
  induction p generalizing s with
  | done a => exact hQ s a h
  | call op next ih => exact ⟨h.1,fun r hr => ih r (h.2 r hr)⟩

@[simp] theorem wp_pure (a : α) (Q : σ → α → Prop) (s : σ) :
    (pure a : Program Op Ans α).wp C Q s ↔ Q s a := Iff.rfl

@[simp] theorem wp_perform (op : Op) (Q : σ → Ans op → Prop) (s : σ) :
    (perform op : Program Op Ans (Ans op)).wp C Q s ↔
      C.may s op ∧ ∀ r, C.trusts s op r → Q (C.track s ⟨op,r⟩) r := Iff.rfl

@[simp] theorem wp_bind (p : Program Op Ans α) (f : α → Program Op Ans β) (Q : σ → β → Prop) (s : σ) :
    (p >>= f).wp C Q s ↔ p.wp C (fun s a => (f a).wp C Q s) s := by
  change (p.bind f).wp C Q s ↔ _
  induction p generalizing s with
  | done a => exact Iff.rfl
  | call op next ih => exact and_congr_right fun _ => forall₂_congr fun r _ => ih r _

@[simp] theorem wp_map (p : Program Op Ans α) (f : α → β) (Q : σ → β → Prop) (s : σ) :
    (f <$> p).wp C Q s ↔ p.wp C (fun s a => Q s (f a)) s := by
  change (p >>= fun a => pure (f a)).wp C Q s ↔ _
  rw [wp_bind]
  rfl

theorem Calls.mono {P P' : Op → Prop} {p : Program Op Ans α} (h : p.Calls P) (hP : ∀ op, P op → P' op) :
    p.Calls P' := by
  induction p with
  | done a => trivial
  | call op next ih => exact ⟨hP op h.1,fun r => ih r (h.2 r)⟩

@[simp] theorem calls_pure (P : Op → Prop) (a : α) : (pure a : Program Op Ans α).Calls P := trivial

@[simp] theorem calls_perform (P : Op → Prop) (op : Op) :
    (perform op : Program Op Ans (Ans op)).Calls P ↔ P op :=
  ⟨fun h => h.1,fun h => ⟨h,fun _ => trivial⟩⟩

theorem Calls.bind {P : Op → Prop} {p : Program Op Ans α} {f : α → Program Op Ans β} (h : p.Calls P)
    (hf : ∀ a, (f a).Calls P) : (p >>= f).Calls P := by
  change (p.bind f).Calls P
  induction p with
  | done a => exact hf a
  | call op next ih => exact ⟨h.1,fun r => ih r (h.2 r)⟩

theorem Calls.wp {P : Op → Prop} {p : Program Op Ans α} (h : p.Calls P) {s : σ}
    (hmay : ∀ op, P op → C.may s op) (htrack : ∀ op r, P op → C.track s ⟨op,r⟩ = s) :
    p.wp C (fun s' _ => s' = s) s := by
  induction p with
  | done a => rfl
  | call op next ih =>
    refine ⟨hmay op h.1,fun r _ => ?_⟩
    rw [htrack op r h.1]
    exact ih r (h.2 r)

section
variable {x : ExceptT ε (Program Op Ans) α} {f : α → ExceptT ε (Program Op Ans) β} {s : σ}

def orElse (Q : σ → α → Prop) (E : σ → ε → Prop) : σ → Except ε α → Prop
  | s, .ok a => Q s a
  | s, .error e => E s e

@[simp] theorem orElse_ok (Q : σ → α → Prop) (E : σ → ε → Prop) (s : σ) (a : α) :
    orElse Q E s (.ok a) = Q s a := rfl

@[simp] theorem orElse_error (Q : σ → α → Prop) (E : σ → ε → Prop) (s : σ) (e : ε) :
    orElse Q E s (.error e) = E s e := rfl

theorem orElse_mono {Q Q' : σ → α → Prop} {E E' : σ → ε → Prop} (hQ : ∀ s a, Q s a → Q' s a)
    (hE : ∀ s e, E s e → E' s e) (s : σ) (r : Except ε α) (h : orElse Q E s r) : orElse Q' E' s r := by
  cases r with
  | ok a => exact hQ s a h
  | error e => exact hE s e h

@[simp] theorem wp_run_pure (a : α) (Q : σ → Except ε α → Prop) :
    (pure a : ExceptT ε (Program Op Ans) α).run.wp C Q s ↔ Q s (.ok a) := Iff.rfl

@[simp] theorem wp_run_throw (e : ε) (Q : σ → Except ε α → Prop) :
    (throw e : ExceptT ε (Program Op Ans) α).run.wp C Q s ↔ Q s (.error e) := Iff.rfl

@[simp] theorem wp_run_bind (Q : σ → Except ε β → Prop) :
    (x >>= f).run.wp C Q s ↔
      x.run.wp C (orElse (fun s a => (f a).run.wp C Q s) fun s e => Q s (.error e)) s := by
  change (x.run >>= ExceptT.bindCont f).wp C Q s ↔ _
  rw [wp_bind]
  constructor <;> intro h <;> refine wp_mono h (fun s r hr => ?_) <;> cases r <;> exact hr

@[simp] theorem wp_run_liftM (p : Program Op Ans α) (Q : σ → Except ε α → Prop) :
    (liftM p : ExceptT ε (Program Op Ans) α).run.wp C Q s ↔ p.wp C (fun s a => Q s (.ok a)) s := by
  change (Except.ok <$> p).wp C Q s ↔ _
  exact wp_map p Except.ok Q s

theorem Calls.run_bind {P : Op → Prop} (hx : x.run.Calls P) (hf : ∀ a, (f a).run.Calls P) :
    (x >>= f).run.Calls P := by
  refine Calls.bind hx (fun r => ?_)
  cases r with
  | ok a => exact hf a
  | error e => trivial

theorem Calls.run_liftM {P : Op → Prop} {p : Program Op Ans α} (hp : p.Calls P) :
    (liftM p : ExceptT ε (Program Op Ans) α).run.Calls P :=
  Calls.bind hp fun _ => trivial

end

/-! ### Executions

An execution answers each call from the calls before it, with their answers.
-/

section
variable {Op' : Type} {Ans' : Op' → Type}

/-- The calls of an execution after the calls made already, and the value it ends with. -/
def execute (reply : List (Event Op Ans) → (op : Op) → Ans op) :
    Program Op Ans α → List (Event Op Ans) → List (Event Op Ans) × α
  | done a, past => (past,a)
  | call op next, past => (next (reply past op)).execute reply (past ++ [⟨op,reply past op⟩])

theorem prefix_execute (p : Program Op Ans α) (reply : List (Event Op Ans) → (op : Op) → Ans op)
    (past : List (Event Op Ans)) : past <+: (p.execute reply past).1 := by
  induction p generalizing past with
  | done a => exact List.prefix_rfl
  | call op next ih => exact (List.prefix_append _ _).trans (ih _ _)

theorem execute_bind (p : Program Op Ans α) (f : α → Program Op Ans β)
    (reply : List (Event Op Ans) → (op : Op) → Ans op) (past : List (Event Op Ans)) :
    (p >>= f).execute reply past =
      (f (p.execute reply past).2).execute reply (p.execute reply past).1 := by
  change (p.bind f).execute reply past = _
  induction p generalizing past with
  | done a => rfl
  | call op next ih => exact ih _ _

theorem Calls.execute {P : Op → Prop} {p : Program Op Ans α} (h : p.Calls P)
    (reply : List (Event Op Ans) → (op : Op) → Ans op) {past : List (Event Op Ans)}
    {e : Event Op Ans} (he : e ∈ (p.execute reply past).1) : e ∈ past ∨ P e.op := by
  induction p generalizing past with
  | done a => exact Or.inl he
  | call op next ih =>
    rcases ih _ (h.2 _) he with hmem | hP
    · rcases List.mem_append.mp hmem with hmem | hmem
      · exact Or.inl hmem
      · obtain rfl := List.mem_singleton.mp hmem
        exact Or.inr h.1
    · exact Or.inr hP

theorem execute_of_wp {p : Program Op Ans α} {Q : σ → α → Prop} {s : σ}
    {reply : List (Event Op Ans) → (op : Op) → Ans op} {past : List (Event Op Ans)}
    (htrust : ∀ es op, C.trusts (es.foldl C.track s) op (reply es op))
    (h : p.wp C Q (past.foldl C.track s)) :
    Q ((p.execute reply past).1.foldl C.track s) (p.execute reply past).2 := by
  induction p generalizing past with
  | done a => exact h
  | call op next ih =>
    refine ih _ ?_
    have hnext := h.2 _ (htrust past op)
    simpa only [List.foldl_append, List.foldl_cons, List.foldl_nil] using hnext

theorem may_of_wp {p : Program Op Ans α} {Q : σ → α → Prop} {s : σ}
    {reply : List (Event Op Ans) → (op : Op) → Ans op} {past pre post : List (Event Op Ans)}
    {e : Event Op Ans} (htrust : ∀ es op, C.trusts (es.foldl C.track s) op (reply es op))
    (h : p.wp C Q (past.foldl C.track s))
    (hes : (p.execute reply past).1 = past ++ pre ++ e :: post) :
    C.may ((past ++ pre).foldl C.track s) e.op := by
  induction p generalizing past pre with
  | done a =>
    have hlen := congrArg List.length hes
    simp [execute] at hlen
  | call op next ih =>
    have hnext : (next (reply past op)).wp C Q
        ((past ++ [(⟨op,reply past op⟩ : Event Op Ans)]).foldl C.track s) := by
      simpa only [List.foldl_append, List.foldl_cons, List.foldl_nil] using h.2 _ (htrust past op)
    obtain ⟨rest,hrest⟩ := prefix_execute (next (reply past op)) reply (past ++ [⟨op,reply past op⟩])
    have hfirst : (⟨op,reply past op⟩ : Event Op Ans) :: rest = pre ++ e :: post := by
      have hall := hrest.trans hes
      simp only [List.append_assoc] at hall
      exact List.append_cancel_left hall
    cases pre with
    | nil =>
      obtain rfl : (⟨op,reply past op⟩ : Event Op Ans) = e := (List.cons.inj hfirst).1
      simpa only [List.append_nil] using h.1
    | cons first pre =>
      obtain rfl : (⟨op,reply past op⟩ : Event Op Ans) = first := (List.cons.inj hfirst).1
      have hes' : ((next (reply past op)).execute reply (past ++ [⟨op,reply past op⟩])).1 =
          past ++ [⟨op,reply past op⟩] ++ pre ++ e :: post := by
        simpa [execute] using hes
      have hmay := ih _ hnext hes'
      simpa only [List.append_assoc, List.cons_append, List.nil_append] using hmay

def tracking (track : σ → Event Op Ans → σ) : Contract Op Ans σ where
  track := track
  trusts _ _ _ := True
  may _ _ := True

theorem wp_tracking (track : σ → Event Op Ans → σ) (p : Program Op Ans α) {s : σ} :
    p.wp (tracking track) (fun _ _ => True) s := by
  induction p generalizing s with
  | done a => trivial
  | call op next ih => exact ⟨trivial,fun r _ => ih r⟩

theorem execute_of_tracking {p : Program Op Ans α} {track : σ → Event Op Ans → σ} {Q : σ → α → Prop}
    {s : σ} (h : p.wp (tracking track) Q s) (reply : List (Event Op Ans) → (op : Op) → Ans op) :
    Q ((p.execute reply []).1.foldl track s) (p.execute reply []).2 :=
  execute_of_wp (C := tracking track) (p := p) (fun _ _ => trivial) h

def expand (f : (op : Op) → Program Op' Ans' (Ans op)) : Program Op Ans α → Program Op' Ans' α
  | done a => done a
  | call op next => (f op).bind fun r => (next r).expand f

variable {f : (op : Op) → Program Op' Ans' (Ans op)} {C' : Contract Op' Ans' σ} {s : σ}

@[simp] theorem expand_pure (a : α) : expand f (pure a : Program Op Ans α) = pure a := rfl

theorem bind_assoc (p : Program Op Ans α) (g : α → Program Op Ans β) {γ : Type}
    (h : β → Program Op Ans γ) : (p.bind g).bind h = p.bind fun a => (g a).bind h := by
  induction p with
  | done a => rfl
  | call op next ih =>
    simp only [bind]
    congr 1
    funext r
    exact ih r

theorem expand_bind (p : Program Op Ans α) (g : α → Program Op Ans β) :
    expand f (p >>= g) = expand f p >>= fun a => expand f (g a) := by
  change expand f (p.bind g) = (expand f p).bind _
  induction p with
  | done a => rfl
  | call op next ih =>
    simp only [bind, expand, bind_assoc]
    congr 1
    funext r
    exact ih r

@[simp] theorem wp_expand_perform (op : Op) (Q : σ → Ans op → Prop) :
    (expand f (perform op : Program Op Ans (Ans op))).wp C' Q s ↔ (f op).wp C' Q s :=
  wp_bind (f op) (fun r => pure r) Q s

@[simp] theorem wp_expand_bind (p : Program Op Ans α) (g : α → Program Op Ans β) (Q : σ → β → Prop) :
    (expand f (p >>= g)).wp C' Q s ↔
      (expand f p).wp C' (fun s a => (expand f (g a)).wp C' Q s) s := by
  rw [expand_bind, wp_bind]

@[simp] theorem wp_expand_run_bind (x : ExceptT ε (Program Op Ans) α)
    (g : α → ExceptT ε (Program Op Ans) β) (Q : σ → Except ε β → Prop) :
    (expand f (x >>= g).run).wp C' Q s ↔
      (expand f x.run).wp C' (orElse (fun s a => (expand f (g a).run).wp C' Q s)
        fun s e => Q s (.error e)) s := by
  change (expand f (x.run >>= ExceptT.bindCont g)).wp C' Q s ↔ _
  rw [wp_expand_bind]
  constructor <;> intro h <;> refine wp_mono h (fun s r hr => ?_) <;> cases r <;> exact hr

@[simp] theorem wp_expand_run_liftM (p : Program Op Ans α) (Q : σ → Except ε α → Prop) :
    (expand f (liftM p : ExceptT ε (Program Op Ans) α).run).wp C' Q s ↔
      (expand f p).wp C' (fun s a => Q s (.ok a)) s :=
  wp_expand_bind p (fun a => pure (.ok a)) Q

theorem Calls.wp_expand {P : Op → Prop} {p : Program Op Ans α} (h : p.Calls P)
    (hf : ∀ op, P op → (f op).wp C' (fun s' _ => s' = s) s) :
    (expand f p).wp C' (fun s' _ => s' = s) s := by
  induction p with
  | done a => rfl
  | call op next ih =>
    refine (wp_bind (f op) _ _ s).mpr (wp_mono (hf op h.1) (fun s' r hs' => ?_))
    subst hs'
    exact ih r (h.2 r)

end

end Program
