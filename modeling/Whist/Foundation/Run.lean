import Mathlib.Tactic

/-! # Runs of a fallible step function

A run folds a step over a list of calls and stops at the first error.
-/
namespace Run

theorem map_eq_ok {ε α β : Type*} {x : Except ε α} {f : α → β} {b : β} (h : x.map f = .ok b) :
    ∃ a, x = .ok a ∧ f a = b := by
  cases x with
  | error e => cases h
  | ok a => exact ⟨a,rfl,Except.ok.inj h⟩

variable {σ α ε : Type*} {step : σ → α → Except ε σ}

def run (step : σ → α → Except ε σ) : σ → List α → Except ε σ
  | s, [] => .ok s
  | s, a :: as =>
    match step s a with
    | .error e => .error e
    | .ok s => run step s as

theorem run_cons {s t : σ} {a : α} (as : List α) (h : step s a = .ok t) :
    run step s (a :: as) = run step t as := by
  rw [run, h]

theorem run_ok_of_invariant {Inv : σ → Prop}
    (hstep : ∀ s a, Inv s → ∃ t, step s a = .ok t ∧ Inv t) (as : List α) {s : σ} (hs : Inv s) :
    ∃ t, run step s as = .ok t ∧ Inv t := by
  induction as generalizing s with
  | nil => exact ⟨s,rfl,hs⟩
  | cons a as ih =>
    obtain ⟨t,ht,hinv⟩ := hstep s a hs
    rw [run_cons as ht]
    exact ih hinv

theorem run_invariant {Inv : σ → Prop} {P : α → Prop}
    (hstep : ∀ s a t, Inv s → P a → step s a = .ok t → Inv t) {as : List α} (has : ∀ a ∈ as, P a)
    {s t : σ} (hs : Inv s) (hr : run step s as = .ok t) : Inv t := by
  induction as generalizing s with
  | nil =>
    rw [run, Except.ok.injEq] at hr
    exact hr ▸ hs
  | cons a as ih =>
    cases ha : step s a with
    | error e => simp [run, ha] at hr
    | ok u =>
      rw [run_cons as ha] at hr
      exact ih (fun b hb => has b (List.mem_cons_of_mem _ hb)) (hstep s a u hs (has a (by simp)) ha) hr

theorem run_ok_of_calls {Inv : List α → σ → Prop} {as : List α} {s : σ} (h₀ : Inv [] s)
    (hstep : ∀ pre a post s, as = pre ++ a :: post → Inv pre s →
      ∃ t, step s a = .ok t ∧ Inv (pre ++ [a]) t) : ∃ t, run step s as = .ok t ∧ Inv as t := by
  have key : ∀ post pre s, as = pre ++ post → Inv pre s →
      ∃ t, run step s post = .ok t ∧ Inv as t := by
    intro post
    induction post with
    | nil =>
      intro pre s has hs
      rw [List.append_nil] at has
      exact ⟨s,rfl,has ▸ hs⟩
    | cons a post ih =>
      intro pre s has hs
      obtain ⟨t,ht,hinv⟩ := hstep pre a post s has hs
      rw [run_cons post ht]
      exact ih (pre ++ [a]) t (by simp [has]) hinv
  exact key as [] s rfl h₀

theorem run_append {s t : σ} {as : List α} (bs : List α) (h : run step s as = .ok t) :
    run step s (as ++ bs) = run step t bs := by
  induction as generalizing s with
  | nil =>
    rw [run, Except.ok.injEq] at h
    rw [List.nil_append, h]
  | cons a as ih =>
    cases ha : step s a with
    | error e => simp [run, ha] at h
    | ok u =>
      rw [run_cons as ha] at h
      rw [List.cons_append, run_cons _ ha]
      exact ih h

theorem run_error_append {s : σ} {as : List α} {bs : List α} {e : ε} (h : run step s as = .error e) :
    run step s (as ++ bs) = .error e := by
  induction as generalizing s with
  | nil => cases h
  | cons a as ih =>
    cases ha : step s a with
    | error e' => simpa [run, ha] using h
    | ok u =>
      rw [run_cons as ha] at h
      rw [List.cons_append, run_cons _ ha]
      exact ih h

theorem run_singleton (s : σ) (a : α) : run step s [a] = step s a := by
  cases ha : step s a <;> simp [run, ha]

/-- Every step of a run satisfies `P`, in the state it starts from, as far as the run gets. -/
def EachOk (step : σ → α → Except ε σ) (P : σ → α → Prop) : σ → List α → Prop
  | _, [] => True
  | s, a :: as => P s a ∧ ∀ t, step s a = .ok t → EachOk step P t as

theorem EachOk.invariant {P : σ → α → Prop} {Inv : σ → Prop}
    (hstep : ∀ s a t, Inv s → P s a → step s a = .ok t → Inv t) {as : List α} {s t : σ}
    (hs : Inv s) (h : EachOk step P s as) (hr : run step s as = .ok t) : Inv t := by
  induction as generalizing s with
  | nil =>
    cases hr
    exact hs
  | cons a as ih =>
    cases ha : step s a with
    | error e => simp [run, ha] at hr
    | ok u =>
      rw [run_cons as ha] at hr
      exact ih (hstep s a u hs h.1 ha) (h.2 u ha) hr

theorem EachOk.mono {P Q : σ → α → Prop} (hPQ : ∀ s a, P s a → Q s a) {as : List α} {s : σ}
    (h : EachOk step P s as) : EachOk step Q s as := by
  induction as generalizing s with
  | nil => trivial
  | cons a as ih => exact ⟨hPQ s a h.1,fun t ht => ih (h.2 t ht)⟩

theorem EachOk.imp {P Q : σ → α → Prop} {Inv : σ → Prop}
    (hstep : ∀ s a t, Inv s → P s a → step s a = .ok t → Inv t) (himp : ∀ s a, Inv s → P s a → Q s a)
    {as : List α} {s : σ} (hs : Inv s) (h : EachOk step P s as) : EachOk step Q s as := by
  induction as generalizing s with
  | nil => trivial
  | cons a as ih => exact ⟨himp s a hs h.1,fun t ht => ih (hstep s a t hs h.1 ht) (h.2 t ht)⟩

instance EachOk.decidable {P : σ → α → Prop} [∀ s a, Decidable (P s a)] :
    ∀ (s : σ) (as : List α), Decidable (EachOk step P s as)
  | _, [] => isTrue trivial
  | s, a :: as =>
    match h : step s a with
    | .error _ => decidable_of_iff (P s a) ⟨fun hp => ⟨hp,fun t ht => by rw [h] at ht; cases ht⟩,And.left⟩
    | .ok t =>
      have : Decidable (EachOk step P t as) := EachOk.decidable t as
      decidable_of_iff (P s a ∧ EachOk step P t as)
        ⟨fun hp => ⟨hp.1,fun u hu => by rw [h] at hu; cases hu; exact hp.2⟩,fun hp => ⟨hp.1,hp.2 t h⟩⟩

theorem run_ok_or_error_of_calls {Inv : List α → σ → Prop} {Good : List α → α → Prop} {as : List α}
    {s : σ} (h₀ : Inv [] s)
    (hgood : ∀ pre a post s, as = pre ++ a :: post → Inv pre s → Good pre a →
      ∃ t, step s a = .ok t ∧ Inv (pre ++ [a]) t)
    (hbad : ∀ pre a post s, as = pre ++ a :: post → Inv pre s → ¬Good pre a →
      ∃ e, step s a = .error e) :
    (∃ t, run step s as = .ok t ∧ Inv as t) ∧ (∀ pre a post, as = pre ++ a :: post → Good pre a) ∨
      (∃ e, run step s as = .error e) ∧ ¬∀ pre a post, as = pre ++ a :: post → Good pre a := by
  by_cases hall : ∀ pre a post, as = pre ++ a :: post → Good pre a
  · exact Or.inl ⟨run_ok_of_calls h₀ (fun pre a post s has hs =>
      hgood pre a post s has hs (hall pre a post has)),hall⟩
  · refine Or.inr ⟨?_,hall⟩
    have key : ∀ post pre s, as = pre ++ post → Inv pre s →
        (∀ mid a rest, post = mid ++ a :: rest → Good (pre ++ mid) a) ∨
          ∃ e, run step s post = .error e := by
      intro post
      induction post with
      | nil => exact fun pre s _ _ => Or.inl (fun mid a rest h => by simp at h)
      | cons b post ih =>
        intro pre s has hs
        by_cases hb : Good pre b
        · obtain ⟨t,ht,hinv⟩ := hgood pre b post s has hs hb
          rw [run_cons post ht]
          refine (ih (pre ++ [b]) t (by simp [has]) hinv).imp_left (fun h mid a rest hpost => ?_)
          cases mid with
          | nil =>
            rw [List.nil_append, List.cons.injEq] at hpost
            rw [List.append_nil, ← hpost.1]
            exact hb
          | cons c mid =>
            rw [List.cons_append, List.cons.injEq] at hpost
            have := h mid a rest hpost.2
            rwa [List.append_assoc, List.singleton_append, hpost.1] at this
        · obtain ⟨e,he⟩ := hbad pre b post s has hs hb
          exact Or.inr ⟨e,by rw [run, he]⟩
    refine (key as [] s rfl h₀).resolve_left (fun h => hall (fun pre a post has => ?_))
    exact h pre a post has

theorem run_range {Inv : ℕ → σ → Prop} {step : σ → ℕ → Except ε σ} {n : ℕ} {s : σ} (h₀ : Inv 0 s)
    (hstep : ∀ i < n, ∀ s, Inv i s → ∃ t, step s i = .ok t ∧ Inv (i + 1) t) :
    ∃ t, run step s (List.range n) = .ok t ∧ Inv n t := by
  have h := @run_ok_of_calls σ ℕ ε step (fun pre s => Inv pre.length s) (List.range n) s h₀ ?_
  · simpa using h
  · intro pre i post s hpre hs
    have hlen := congrArg List.length hpre
    have hi := congrArg (fun l => l[pre.length]?) hpre
    simp only [List.length_range, List.length_append, List.length_cons] at hlen
    rw [List.getElem?_range (by omega), List.getElem?_append_right le_rfl] at hi
    obtain rfl : pre.length = i := by simpa using hi
    obtain ⟨t,ht,hinv⟩ := hstep pre.length (by omega) s hs
    exact ⟨t,ht,by simpa using hinv⟩

theorem run_error_of_mem {as : List α} {a : α} (ha : a ∈ as) (h : ∀ s, ∃ e, step s a = .error e)
    (s : σ) : ∃ e, run step s as = .error e := by
  induction as generalizing s with
  | nil => cases ha
  | cons b rest ih =>
    cases hb : step s b with
    | error e => exact ⟨e,by rw [run, hb]⟩
    | ok t =>
      rw [run_cons rest hb]
      rcases List.mem_cons.mp ha with rfl | ha
      · obtain ⟨e,he⟩ := h s
        rw [hb] at he
        cases he
      · exact ih ha t

theorem run_ok_or_fails {Inv : List α → σ → Prop} {as : List α} {s : σ} (h₀ : Inv [] s)
    (hstep : ∀ pre a post s t, as = pre ++ a :: post → Inv pre s → step s a = .ok t →
      Inv (pre ++ [a]) t) :
    (∃ t, run step s as = .ok t ∧ Inv as t) ∨
      ∃ e pre a post t, run step s as = .error e ∧ as = pre ++ a :: post ∧ Inv pre t ∧
        step t a = .error e := by
  have key : ∀ post pre s, as = pre ++ post → Inv pre s →
      (∃ t, run step s post = .ok t ∧ Inv as t) ∨
        ∃ e pre a post' t, run step s post = .error e ∧ as = pre ++ a :: post' ∧ Inv pre t ∧
          step t a = .error e := by
    intro post
    induction post with
    | nil =>
      intro pre s has hs
      rw [List.append_nil] at has
      exact Or.inl ⟨s,rfl,has ▸ hs⟩
    | cons a post ih =>
      intro pre s has hs
      cases ha : step s a with
      | ok t =>
        rw [run_cons post ha]
        exact ih (pre ++ [a]) t (by simp [has]) (hstep pre a post s t has hs ha)
      | error e => exact Or.inr ⟨e,pre,a,post,s,by rw [run, ha],has,hs,ha⟩
  exact key as [] s rfl h₀

def reached {ε : Type*} : Except (ε × σ) σ → σ
  | .ok s => s
  | .error (_,s) => s

section
variable {step : σ → α → σ} {P Q : σ → α → Prop} {Inv : σ → Prop}

def Each (step : σ → α → σ) (P : σ → α → Prop) : σ → List α → Prop
  | _, [] => True
  | s, a :: as => P s a ∧ Each step P (step s a) as

instance Each.decidable [∀ s a, Decidable (P s a)] : ∀ (s : σ) (as : List α), Decidable (Each step P s as)
  | _, [] => isTrue trivial
  | s, a :: as =>
    have : Decidable (Each step P (step s a) as) := Each.decidable (step s a) as
    inferInstanceAs (Decidable (_ ∧ _))

theorem Each.invariant (hstep : ∀ s a, Inv s → P s a → Inv (step s a)) {as : List α} {s : σ}
    (hs : Inv s) (h : Each step P s as) : Inv (as.foldl step s) := by
  induction as generalizing s with
  | nil => exact hs
  | cons a as ih => exact ih (hstep s a hs h.1) h.2

theorem Each.imp (hstep : ∀ s a, Inv s → P s a → Inv (step s a))
    (himp : ∀ s a, Inv s → P s a → Q s a) {as : List α} {s : σ} (hs : Inv s)
    (h : Each step P s as) : Each step Q s as := by
  induction as generalizing s with
  | nil => trivial
  | cons a as ih => exact ⟨himp s a hs h.1,ih (hstep s a hs h.1) h.2⟩

theorem Each.append {pre post : List α} {s : σ} (h : Each step P s (pre ++ post)) :
    Each step P s pre ∧ Each step P (pre.foldl step s) post := by
  induction pre generalizing s with
  | nil => exact ⟨trivial,h⟩
  | cons a pre ih =>
    exact ⟨⟨h.1,(ih h.2).1⟩,(ih h.2).2⟩

theorem Each.calls_invariant {Inv : List α → σ → Prop}
    (hstep : ∀ pre s a, Inv pre s → P s a → Inv (pre ++ [a]) (step s a)) {as : List α} {s : σ}
    (h₀ : Inv [] s) (h : Each step P s as) : Inv as (as.foldl step s) := by
  induction as using List.reverseRecOn with
  | nil => exact h₀
  | append_singleton as a ih =>
    have hsplit := h.append
    rw [List.foldl_append]
    exact hstep as _ a (ih hsplit.1) hsplit.2.1

theorem each_iff (hstep : ∀ s a, Inv s → P s a → Inv (step s a))
    (hiff : ∀ s a, Inv s → (P s a ↔ Q s a)) {as : List α} {s : σ} (hs : Inv s) :
    Each step P s as ↔ Each step Q s as := by
  induction as generalizing s with
  | nil => exact Iff.rfl
  | cons a as ih =>
    constructor
    · rintro ⟨ha,has⟩
      exact ⟨(hiff s a hs).mp ha,(ih (hstep s a hs ha)).mp has⟩
    · rintro ⟨ha,has⟩
      have hp := (hiff s a hs).mpr ha
      exact ⟨hp,(ih (hstep s a hs hp)).mpr has⟩

end

section
variable {step : σ → α → σ} {Inv : List α → σ → Prop} {Good : List α → α → Prop}
  {Holds : List α → σ → α → Prop} {as : List α} {s : σ}

theorem calls_invariant (h₀ : Inv [] s)
    (hstep : ∀ pre a post s, as = pre ++ a :: post → Inv pre s → Good pre a →
      Inv (pre ++ [a]) (step s a))
    (hgood : ∀ pre a post, as = pre ++ a :: post → Inv pre (pre.foldl step s) → Good pre a)
    (pre post : List α) (has : as = pre ++ post) : Inv pre (pre.foldl step s) := by
  induction pre using List.reverseRecOn generalizing post with
  | nil => exact h₀
  | append_singleton pre a ih =>
    have has' : as = pre ++ a :: post := by rw [has, List.append_assoc, List.singleton_append]
    have hinv := ih (a :: post) has'
    rw [List.foldl_append]
    exact hstep pre a post _ has' hinv (hgood pre a post has' hinv)

theorem calls_iff (h₀ : Inv [] s)
    (hstep : ∀ pre a post s, as = pre ++ a :: post → Inv pre s → Good pre a →
      Inv (pre ++ [a]) (step s a))
    (hiff : ∀ pre a post s, as = pre ++ a :: post → Inv pre s → (Holds pre s a ↔ Good pre a)) :
    (∀ pre a post, as = pre ++ a :: post → Holds pre (pre.foldl step s) a) ↔
      ∀ pre a post, as = pre ++ a :: post → Good pre a := by
  constructor
  · intro h pre a post has
    have hinv := calls_invariant h₀ hstep (fun pre a post has hinv =>
      (hiff pre a post _ has hinv).1 (h pre a post has)) pre (a :: post) has
    exact (hiff pre a post _ has hinv).1 (h pre a post has)
  · intro h pre a post has
    have hinv := calls_invariant h₀ hstep (fun pre a post has _ => h pre a post has)
      pre (a :: post) has
    exact (hiff pre a post _ has hinv).2 (h pre a post has)

end

end Run
