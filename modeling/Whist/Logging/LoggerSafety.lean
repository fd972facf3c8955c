import Whist.Logging.LoggerQueue

/-! # The lines of the logger -/
namespace Whist.Logging
namespace State
variable {s s' : State}

def HasReplaced (s : State) (id : ℕ × ℕ) : Prop := ∃ v, (v,id) ∈ s.replaced

def Noted (s : State) (t : ℕ) : Prop :=
  match s.writers t with
  | .idle => True
  | .taken _ overflow number r => (s.HasReplaced (t,number) → overflow = true) ∧ (overflow = true → r.Short)
  | .written item => s.HasReplaced (s.items item).id → Marked (s.items item)

/-- The lines of a thread are below its count, and the one in its hand is the last. -/
structure Kept (s : State) : Prop where
  sorted : s.Sorted
  inOrder : s.InOrder
  below : ∀ c ∈ s.lines, c.number < s.count c.thread
  hand : ∀ t id, s.inHand t = some id → id.1 = t ∧ id.2 < s.count t ∧ ∀ c ∈ s.lines, c.thread = t → c.number < id.2
  noted : ∀ t, s.Noted t
  replacedBelow : ∀ id, s.HasReplaced id → id.2 < s.count id.1
  explained : s.Explained

inductive Seen (s s' : State) : Prop
  | same (hlines : s'.lines = s.lines) (hunqueued : s'.unqueued = s.unqueued) (hhand : s'.inHand = s.inHand)
      (hcount : s'.count = s.count) (hreplaced : s'.replaced = s.replaced)
  | take (t : ℕ) (hidle : s.inHand t = none) (hlines : s'.lines = s.lines) (hunqueued : s'.unqueued = s.unqueued)
      (hhand : s'.inHand = Function.update s.inHand t (some (t,s.count t)))
      (hcount : s'.count = Function.update s.count t (s.count t + 1)) (hreplaced : s'.replaced = s.replaced)
  | steal (t : ℕ) (item : Item) (rest : List Item) (front back : List Content) (hidle : s.inHand t = none)
      (hfree : s.freelist = []) (hqueue : s.queue = item :: rest)
      (hlines : s.lines = front ++ s.items item :: back) (hlines' : s'.lines = front ++ back)
      (hunqueued : s'.unqueued = s.unqueued)
      (hhand : s'.inHand = Function.update s.inHand t (some (t,s.count t)))
      (hcount : s'.count = Function.update s.count t (s.count t + 1))
      (hreplaced : s'.replaced = s.replaced ++ [((s.items item).id,(t,s.count t))])
  | stdout (t : ℕ) (hidle : s.inHand t = none) (hlines : s'.lines = s.lines)
      (hunqueued : s'.unqueued = s.unqueued ++ [(t,s.count t)]) (hhand : s'.inHand = s.inHand)
      (hcount : s'.count = Function.update s.count t (s.count t + 1)) (hreplaced : s'.replaced = s.replaced)
  | append (t : ℕ) (c : Content) (hid : s.inHand t = some c.id) (hmarked : s.HasReplaced c.id → Marked c)
      (hlines : s'.lines = s.lines ++ [c]) (hunqueued : s'.unqueued = s.unqueued)
      (hhand : s'.inHand = Function.update s.inHand t none) (hcount : s'.count = s.count)
      (hreplaced : s'.replaced = s.replaced)

theorem inHand_update {t : ℕ} {w : Writer} {id : Option (ℕ × ℕ)} (hw : s'.writers = Function.update s.writers t w)
    (hitems : ∀ u item, u ≠ t → s.writers u = .written item → s'.items item = s.items item)
    (hself : s'.inHand t = id) : s'.inHand = Function.update s.inHand t id := by
  funext u
  by_cases hu : u = t
  · rw [hu, Function.update_self, hself]
  · rw [Function.update_of_ne hu]
    unfold inHand
    rw [hw, Function.update_of_ne hu]
    cases hwriter : s.writers u with
    | written item =>
      dsimp only
      rw [hitems u item hu hwriter]
    | idle => rfl
    | taken item overflow number r => rfl

theorem inHand_idle {t : ℕ} (hw : s.writers t = .idle) : s.inHand t = none := by
  unfold inHand
  rw [hw]

theorem lines_write (hsorted : s.Sorted) {t : ℕ} {item : Item} {w : ℕ → Writer} (hitem : s.At item (.writer t)) (c : Content) :
    ({ s with items := Function.update s.items item c, writers := w } : State).lines = s.lines := by
  have hqueue : s.queue.map (Function.update s.items item c) = s.queue.map s.items := by
    apply List.map_congr_left
    intro j hj
    apply Function.update_of_ne
    rintro rfl
    have hplace := hsorted.placed.unique (p := .queue) (q := .writer t) hj hitem
    cases hplace
  unfold lines unprinted
  dsimp only
  rw [hqueue]
  cases hp : s.printer with
  | waiting => rfl
  | printed j => rfl
  | extracted j =>
    have hne : j ≠ item := by
      rintro rfl
      have hprinter : s.At j .printer := by
        change s.printer.item = some j
        rw [hp]
        rfl
      have hplace := hsorted.placed.unique hprinter hitem
      cases hplace
    dsimp only
    rw [Function.update_of_ne hne]

theorem seen_of_steps {Allowed : Request → Prop} (h : s.Kept) (hstep : Steps Allowed s s') : s.Seen s' := by
  cases hstep with
  | @take t r item rest hw hfree =>
    have hhand := @inHand_update s { s with
        freelist := rest
        count := Function.update s.count t (s.count t + 1)
        writers := Function.update s.writers t (.taken item false (s.count t) r) } t _ (some (t,s.count t)) rfl
      (fun _ _ _ _ => rfl) (by unfold inHand; dsimp only; rw [Function.update_self])
    exact .take t (inHand_idle hw) rfl rfl hhand rfl rfl
  | @steal t r item rest hw hfree hqueue hallowed =>
    have hhand := @inHand_update s { s with
        queue := rest
        count := Function.update s.count t (s.count t + 1)
        writers := Function.update s.writers t (.taken item true (s.count t) r)
        replaced := s.replaced ++ [((s.items item).id,(t,s.count t))] } t _ (some (t,s.count t)) rfl
      (fun _ _ _ _ => rfl) (by unfold inHand; dsimp only; rw [Function.update_self])
    refine .steal t item rest (s.printed ++ s.unprinted) (rest.map s.items) (inHand_idle hw) hfree hqueue ?_ ?_ rfl hhand
      rfl rfl
    · unfold lines
      rw [hqueue, List.map_cons, List.append_assoc]
    · unfold lines
      rw [List.append_assoc]
      rfl
  | @stdout t hw => exact .stdout t (inHand_idle hw) rfl rfl rfl rfl rfl
  | @write t item overflow number r hw =>
    have hitem : s.At item (.writer t) := by
      change (s.writers t).item = some item
      rw [hw]
      rfl
    have hcontent : s.inHand t = some (t,number) := by
      unfold inHand
      rw [hw]
    have hhand := @inHand_update s { s with
        items := Function.update s.items item ⟨t,number,itemLevel r overflow,writeItem r overflow⟩
        writers := Function.update s.writers t (.written item) } t _ (some (t,number)) rfl ?_ ?_
    · rw [← hcontent, Function.update_eq_self] at hhand
      exact .same (lines_write h.sorted hitem _) rfl hhand rfl rfl
    · intro u j hu hj
      apply Function.update_of_ne
      rintro rfl
      have hj' : s.At j (.writer u) := by
        change (s.writers u).item = some j
        rw [hj]
        rfl
      have hplace := h.sorted.placed.unique hj' hitem
      cases hplace
      exact hu rfl
    · unfold inHand
      dsimp only
      rw [Function.update_self]
      dsimp only
      rw [Function.update_self]
      rfl
  | @append t item hw =>
    have hcontent : s.inHand t = some (s.items item).id := by
      unfold inHand
      rw [hw]
    have hmarked := h.noted t
    unfold Noted at hmarked
    rw [hw] at hmarked
    have hhand := @inHand_update s { s with
        queue := s.queue ++ [item]
        writers := Function.update s.writers t .idle } t _ none rfl (fun _ _ _ _ => rfl)
      (by unfold inHand; dsimp only; rw [Function.update_self])
    refine .append t (s.items item) hcontent hmarked ?_ rfl hhand rfl rfl
    unfold lines
    dsimp only
    rw [List.map_append, List.append_assoc, List.append_assoc]
    rfl
  | @extract item rest hp hqueue =>
    refine .same ?_ rfl rfl rfl rfl
    unfold lines unprinted
    rw [hp, hqueue]
    rfl
  | @print item hp =>
    refine .same ?_ rfl rfl rfl rfl
    unfold lines unprinted
    rw [hp]
    dsimp only
    rw [List.append_assoc]
    rfl
  | @recycle item hp =>
    refine .same ?_ rfl rfl rfl rfl
    unfold lines unprinted
    rw [hp]
  | pause paused => exact .same rfl rfl rfl rfl rfl

theorem present_of_hand {t : ℕ} {new : Option (ℕ × ℕ)} {id : ℕ × ℕ} (hidle : s.inHand t = none)
    (hhand : s'.inHand = Function.update s.inHand t new) (h : s.inHand id.1 = some id) : s'.inHand id.1 = some id := by
  have hne : id.1 ≠ t := by
    intro heq
    rw [heq, hidle] at h
    cases h
  rw [hhand, Function.update_of_ne hne, h]

theorem losesOldest_of_seen (hseen : s.Seen s') : s.LosesOldest s' := by
  intro id hpresent
  cases hseen with
  | same hlines hunqueued hhand hcount hreplaced =>
    unfold Present
    rw [hlines, hunqueued, hhand]
    exact Or.inl hpresent
  | take t hidle hlines hunqueued hhand hcount hreplaced =>
    left
    unfold Present
    rw [hlines, hunqueued]
    exact hpresent.imp_right (Or.imp_right (present_of_hand hidle hhand))
  | steal t item rest front back hidle hfree hqueue hlines hlines' hunqueued hhand hcount hreplaced =>
    rcases hpresent with ⟨c,hc,hid⟩ | hpresent
    · rw [hlines] at hc
      rcases List.mem_append.mp hc with hc | hc
      · exact Or.inl (Or.inl ⟨c,by rw [hlines']; exact List.mem_append_left _ hc,hid⟩)
      rcases List.mem_cons.mp hc with rfl | hc
      · refine Or.inr ⟨item,rest,(t,s.count t),hfree,hqueue,hid.symm,?_⟩
        rw [hreplaced, ← hid]
        exact List.mem_append_right _ List.mem_cons_self
      · exact Or.inl (Or.inl ⟨c,by rw [hlines']; exact List.mem_append_right _ hc,hid⟩)
    · left
      right
      rw [hunqueued]
      exact hpresent.imp_right (present_of_hand hidle hhand)
  | stdout t hidle hlines hunqueued hhand hcount hreplaced =>
    left
    unfold Present
    rw [hlines, hunqueued, hhand]
    exact hpresent.imp_right (Or.imp_left (List.mem_append_left _))
  | append t c hid hmarked hlines hunqueued hhand hcount hreplaced =>
    left
    rcases hpresent with ⟨d,hd,hdid⟩ | hpresent | hpresent
    · exact Or.inl ⟨d,by rw [hlines]; exact List.mem_append_left _ hd,hdid⟩
    · exact Or.inr (Or.inl (by rw [hunqueued]; exact hpresent))
    · by_cases ht : id.1 = t
      · rw [ht, hid] at hpresent
        have hmem : c ∈ s'.lines := by
          rw [hlines]
          exact List.mem_append_right _ List.mem_cons_self
        exact Or.inl ⟨c,hmem,Option.some.inj hpresent⟩
      · exact Or.inr (Or.inr (by rw [hhand, Function.update_of_ne ht, hpresent]))

namespace Kept

theorem lines_of_seen (hseen : s.Seen s') {c : Content} (hc : c ∈ s'.lines) :
    c ∈ s.lines ∨ ∃ t, s.inHand t = some c.id ∧ s'.inHand t = none ∧ s'.replaced = s.replaced ∧
      (s.HasReplaced c.id → Marked c) := by
  cases hseen with
  | same hlines =>
    rw [hlines] at hc
    exact Or.inl hc
  | take t hidle hlines =>
    rw [hlines] at hc
    exact Or.inl hc
  | steal t item rest front back hidle hfree hqueue hlines hlines' =>
    rw [hlines'] at hc
    rw [hlines]
    exact Or.inl (((List.sublist_cons_self _ back).append_left front).subset hc)
  | stdout t hidle hlines =>
    rw [hlines] at hc
    exact Or.inl hc
  | append t d hid hmarked hlines hunqueued hhand hcount hreplaced =>
    rw [hlines] at hc
    rcases List.mem_append.mp hc with hc | hc
    · exact Or.inl hc
    · obtain rfl := List.mem_singleton.mp hc
      exact Or.inr ⟨t,hid,by rw [hhand, Function.update_self],hreplaced,hmarked⟩

theorem count_of_seen (hseen : s.Seen s') (t : ℕ) : s.count t ≤ s'.count t := by
  have hupdate : ∀ u, s.count t ≤ Function.update s.count u (s.count u + 1) t := by
    intro u
    by_cases ht : t = u
    · rw [ht, Function.update_self]
      exact Nat.le_succ _
    · rw [Function.update_of_ne ht]
  cases hseen with
  | same _ _ _ hcount => rw [hcount]
  | take u _ _ _ _ hcount =>
    rw [hcount]
    exact hupdate u
  | steal u item rest front back _ _ _ _ _ _ _ hcount =>
    rw [hcount]
    exact hupdate u
  | stdout u _ _ _ _ hcount =>
    rw [hcount]
    exact hupdate u
  | append u c _ _ _ _ _ hcount => rw [hcount]

/-- A line in hand was there before, or it is the next line of its thread. -/
theorem hand_of_seen (hseen : s.Seen s') {t : ℕ} {id : ℕ × ℕ} (hid : s'.inHand t = some id) :
    s.inHand t = some id ∨ id = (t,s.count t) ∧ s'.count t = s.count t + 1 ∧ ∀ c ∈ s'.lines, c ∈ s.lines := by
  have hnew : ∀ u, (∀ c ∈ s'.lines, c ∈ s.lines) → s'.count = Function.update s.count u (s.count u + 1) →
      s'.inHand = Function.update s.inHand u (some (u,s.count u)) →
      s.inHand t = some id ∨ id = (t,s.count t) ∧ s'.count t = s.count t + 1 ∧ ∀ c ∈ s'.lines, c ∈ s.lines := by
    intro u hlines hcount hhand
    rw [hhand] at hid
    by_cases ht : t = u
    · rw [ht, Function.update_self] at hid
      rw [ht, hcount, Function.update_self]
      exact Or.inr ⟨(Option.some.inj hid).symm,rfl,hlines⟩
    · rw [Function.update_of_ne ht] at hid
      exact Or.inl hid
  cases hseen with
  | same hlines hunqueued hhand =>
    rw [hhand] at hid
    exact Or.inl hid
  | take u hidle hlines hunqueued hhand hcount => exact hnew u (by rw [hlines]; exact fun c hc => hc) hcount hhand
  | steal u item rest front back hidle hfree hqueue hlines hlines' hunqueued hhand hcount =>
    refine hnew u ?_ hcount hhand
    intro c hc
    rw [hlines'] at hc
    rw [hlines]
    exact ((List.sublist_cons_self _ back).append_left front).subset hc
  | stdout u hidle hlines hunqueued hhand =>
    rw [hhand] at hid
    exact Or.inl hid
  | append u c hc hmarked hlines hunqueued hhand =>
    rw [hhand] at hid
    by_cases ht : t = u
    · rw [ht, Function.update_self] at hid
      cases hid
    · rw [Function.update_of_ne ht] at hid
      exact Or.inl hid

theorem replaced_of_seen (hseen : s.Seen s') {v id : ℕ × ℕ} (h : (v,id) ∈ s'.replaced) :
    (v,id) ∈ s.replaced ∨ id.2 = s.count id.1 ∧ s'.count id.1 = s.count id.1 + 1 ∧ ∀ c ∈ s'.lines, c ∈ s.lines := by
  cases hseen with
  | same _ _ _ _ hreplaced =>
    rw [hreplaced] at h
    exact Or.inl h
  | take t _ _ _ _ _ hreplaced =>
    rw [hreplaced] at h
    exact Or.inl h
  | steal t item rest front back hidle hfree hqueue hlines hlines' hunqueued hhand hcount hreplaced =>
    rw [hreplaced] at h
    rcases List.mem_append.mp h with h | h
    · exact Or.inl h
    · cases List.mem_singleton.mp h
      refine Or.inr ⟨rfl,by rw [hcount, Function.update_self],?_⟩
      intro c hc
      rw [hlines'] at hc
      rw [hlines]
      exact ((List.sublist_cons_self _ back).append_left front).subset hc
  | stdout t _ _ _ _ _ hreplaced =>
    rw [hreplaced] at h
    exact Or.inl h
  | append t c _ _ _ _ _ _ hreplaced =>
    rw [hreplaced] at h
    exact Or.inl h

theorem inOrder_of_seen (h : s.Kept) (hseen : s.Seen s') : s'.InOrder := by
  have horder := h.inOrder
  unfold InOrder at *
  cases hseen with
  | same hlines => rwa [hlines]
  | take t hidle hlines => rwa [hlines]
  | steal t item rest front back hidle hfree hqueue hlines hlines' =>
    rw [hlines] at horder
    rw [hlines']
    exact horder.sublist ((List.sublist_cons_self _ back).append_left front)
  | stdout t hidle hlines => rwa [hlines]
  | append t c hid hmarked hlines =>
    rw [hlines, List.pairwise_append]
    refine ⟨horder,List.pairwise_singleton _ _,?_⟩
    intro d hd e he hthread
    obtain rfl := List.mem_singleton.mp he
    obtain ⟨ht,-,hlast⟩ := h.hand t e.id hid
    exact hlast d hd (hthread.trans ht)

theorem below_of_seen (h : s.Kept) (hseen : s.Seen s') : ∀ c ∈ s'.lines, c.number < s'.count c.thread := by
  intro c hc
  have hcount := count_of_seen hseen c.thread
  rcases lines_of_seen hseen hc with hc | ⟨t,hid,-⟩
  · have := h.below c hc
    omega
  · obtain ⟨ht,hlt,-⟩ := h.hand t c.id hid
    rw [← ht] at hlt
    exact hlt.trans_le hcount

theorem hand_of_kept (h : s.Kept) (hseen : s.Seen s') (t : ℕ) (id : ℕ × ℕ) (hid : s'.inHand t = some id) :
    id.1 = t ∧ id.2 < s'.count t ∧ ∀ c ∈ s'.lines, c.thread = t → c.number < id.2 := by
  have hcount := count_of_seen hseen t
  rcases hand_of_seen hseen hid with hold | ⟨rfl,hnew,hlines⟩
  · obtain ⟨ht,hlt,hlast⟩ := h.hand t id hold
    refine ⟨ht,by omega,?_⟩
    intro c hc hthread
    rcases lines_of_seen hseen hc with hc | ⟨u,hu,hnone,-⟩
    · exact hlast c hc hthread
    · -- the thread whose line was appended has nothing in hand
      obtain ⟨hthread',-⟩ := h.hand u c.id hu
      have hut : u = t := hthread'.symm.trans hthread
      rw [hut, hid] at hnone
      cases hnone
  · refine ⟨rfl,by omega,?_⟩
    intro c hc hthread
    have := h.below c (hlines c hc)
    rw [hthread] at this
    exact this

theorem replacedBelow_of_seen (h : s.Kept) (hseen : s.Seen s') (id : ℕ × ℕ) (hid : s'.HasReplaced id) :
    id.2 < s'.count id.1 := by
  obtain ⟨v,hv⟩ := hid
  have hcount := count_of_seen hseen id.1
  rcases replaced_of_seen hseen hv with hold | ⟨hnew,hnext,-⟩
  · have := h.replacedBelow id ⟨v,hold⟩
    omega
  · omega

theorem explained_of_seen (h : s.Kept) (hseen : s.Seen s') : s'.Explained where
  present := by
    intro t k hk
    by_cases hold : k < s.count t
    · rcases h.explained.present t k hold with hpresent | ⟨r,hr⟩
      · rcases losesOldest_of_seen hseen (t,k) hpresent with hpresent | ⟨item,rest,r,-,-,-,hr⟩
        · exact Or.inl hpresent
        · exact Or.inr ⟨r,hr⟩
      · refine Or.inr ⟨r,?_⟩
        cases hseen with
        | same _ _ _ _ hreplaced => rwa [hreplaced]
        | take u _ _ _ _ _ hreplaced => rwa [hreplaced]
        | steal u item rest front back _ _ _ _ _ _ _ _ hreplaced =>
          rw [hreplaced]
          exact List.mem_append_left _ hr
        | stdout u _ _ _ _ _ hreplaced => rwa [hreplaced]
        | append u c _ _ _ _ _ _ hreplaced => rwa [hreplaced]
    · left
      have hnew : ∀ u, s'.count = Function.update s.count u (s.count u + 1) → t = u ∧ k = s.count u := by
        intro u hcount
        rw [hcount] at hk
        by_cases ht : t = u
        · rw [ht, Function.update_self] at hk
          rw [ht] at hold
          exact ⟨ht,by omega⟩
        · rw [Function.update_of_ne ht] at hk
          exact absurd hk hold
      cases hseen with
      | same _ _ _ hcount =>
        rw [hcount] at hk
        exact absurd hk hold
      | take u hidle hlines hunqueued hhand hcount =>
        obtain ⟨rfl,rfl⟩ := hnew u hcount
        exact Or.inr (Or.inr (by rw [hhand, Function.update_self]))
      | steal u item rest front back hidle hfree hqueue hlines hlines' hunqueued hhand hcount =>
        obtain ⟨rfl,rfl⟩ := hnew u hcount
        exact Or.inr (Or.inr (by rw [hhand, Function.update_self]))
      | stdout u hidle hlines hunqueued hhand hcount =>
        obtain ⟨rfl,rfl⟩ := hnew u hcount
        refine Or.inr (Or.inl ?_)
        rw [hunqueued]
        exact List.mem_append_right _ List.mem_cons_self
      | append u c _ _ _ _ _ hcount =>
        rw [hcount] at hk
        exact absurd hk hold
  marked := by
    intro v r hr c hc hid
    rcases replaced_of_seen hseen hr with hr | ⟨hnew,-,hlines⟩
    · rcases lines_of_seen hseen hc with hc | ⟨t,-,-,hreplaced,hmarked⟩
      · exact h.explained.marked v r hr c hc hid
      · rw [← hid] at hr
        exact hmarked ⟨v,hr⟩
    · -- the line that is to replace another has not been written yet
      have hbelow := h.below c (hlines c hc)
      rw [← hid] at hnew
      exact absurd hnew (Nat.ne_of_lt hbelow)

theorem noted_of_same {t : ℕ} (h : s.Kept) (hw : s'.writers t = s.writers t)
    (hitems : ∀ item, s.writers t = .written item → s'.items item = s.items item)
    (hreplaced : ∀ id, id.1 = t → s'.HasReplaced id → s.HasReplaced id) : s'.Noted t := by
  have hnoted := h.noted t
  unfold Noted at *
  rw [hw]
  cases hwriter : s.writers t with
  | idle => trivial
  | taken item overflow number r =>
    rw [hwriter] at hnoted
    exact ⟨fun hrep => hnoted.1 (hreplaced _ rfl hrep),hnoted.2⟩
  | written item =>
    rw [hwriter] at hnoted
    have hid : s.inHand t = some (s.items item).id := by
      unfold inHand
      rw [hwriter]
    dsimp only
    rw [hitems item hwriter]
    exact fun hrep => hnoted (hreplaced _ (h.hand t _ hid).1 hrep)

theorem noted_of_steps (h : s.Kept) (hstep : Steps Request.Short s s') (t : ℕ) : s'.Noted t := by
  cases hstep with
  | @take u r item rest hw hfree =>
    by_cases ht : t = u
    · unfold Noted
      dsimp only
      rw [ht, Function.update_self]
      refine ⟨?_,fun hfalse => absurd hfalse Bool.false_ne_true⟩
      intro hrep
      have := h.replacedBelow _ hrep
      exact absurd this (lt_irrefl _)
    · exact noted_of_same h (Function.update_of_ne ht _ _) (fun _ _ => rfl) fun _ _ hrep => hrep
  | @steal u r item rest hw hfree hqueue hshort =>
    by_cases ht : t = u
    · unfold Noted
      dsimp only
      rw [ht, Function.update_self]
      exact ⟨fun _ => rfl,fun _ => hshort⟩
    · refine noted_of_same h (Function.update_of_ne ht _ _) (fun _ _ => rfl) ?_
      rintro id hid ⟨v,hv⟩
      rcases List.mem_append.mp hv with hv | hv
      · exact ⟨v,hv⟩
      · cases List.mem_singleton.mp hv
        exact absurd hid.symm ht
  | stdout hw => exact noted_of_same h rfl (fun _ _ => rfl) fun _ _ hrep => hrep
  | @write u item overflow number r hw =>
    have hnoted := h.noted u
    unfold Noted at hnoted
    rw [hw] at hnoted
    by_cases ht : t = u
    · unfold Noted
      dsimp only
      rw [ht, Function.update_self]
      dsimp only
      rw [Function.update_self]
      intro hrep
      obtain rfl := hnoted.1 hrep
      exact ⟨writeItem_short (hnoted.2 rfl),itemLevel_le r⟩
    · refine noted_of_same h (Function.update_of_ne ht _ _) ?_ fun _ _ hrep => hrep
      intro j hj
      apply Function.update_of_ne
      rintro rfl
      have hplace := h.sorted.placed.unique (i := j) (p := .writer t) (q := .writer u)
        (by change (s.writers t).item = some j; rw [hj]; rfl) (by change (s.writers u).item = some j; rw [hw]; rfl)
      cases hplace
      exact ht rfl
  | @append u item hw =>
    by_cases ht : t = u
    · unfold Noted
      dsimp only
      rw [ht, Function.update_self]
      trivial
    · exact noted_of_same h (Function.update_of_ne ht _ _) (fun _ _ => rfl) fun _ _ hrep => hrep
  | extract hp hqueue => exact noted_of_same h rfl (fun _ _ => rfl) fun _ _ hrep => hrep
  | print hp => exact noted_of_same h rfl (fun _ _ => rfl) fun _ _ hrep => hrep
  | recycle hp => exact noted_of_same h rfl (fun _ _ => rfl) fun _ _ hrep => hrep
  | pause paused => exact noted_of_same h rfl (fun _ _ => rfl) fun _ _ hrep => hrep

theorem steps (h : s.Kept) (hstep : Steps Request.Short s s') : s'.Kept :=
  have hseen := seen_of_steps h hstep
  { sorted := h.sorted.steps hstep
    inOrder := inOrder_of_seen h hseen
    below := below_of_seen h hseen
    hand := hand_of_kept h hseen
    noted := noted_of_steps h hstep
    replacedBelow := replacedBelow_of_seen h hseen
    explained := explained_of_seen h hseen }

theorem initial_sorted : initial.Sorted := by
  have hfree : initial.freelist = List.finRange loggerQueueSize := by rw [initial]
  have hat : ∀ (i : Item) (p : Place), initial.At i p ↔ Place.free = p := by
    intro i p
    cases p with
    | free =>
      refine iff_of_true ?_ rfl
      change i ∈ initial.freelist
      rw [hfree]
      exact List.mem_finRange i
    | queue => exact iff_of_false List.not_mem_nil (by rintro ⟨⟩)
    | writer t => exact iff_of_false (by rintro ⟨⟩) (by rintro ⟨⟩)
    | printer => exact iff_of_false (by rintro ⟨⟩) (by rintro ⟨⟩)
  refine ⟨?_,List.nodup_nil,fun _ => .free,hat⟩
  rw [hfree]
  exact List.nodup_finRange _

theorem initial_kept : initial.Kept := by
  refine ⟨initial_sorted,List.Pairwise.nil,?_,?_,fun _ => trivial,?_,?_,?_⟩
  · intro c hc
    cases hc
  · intro t id hid
    cases hid
  · rintro id ⟨v,hv⟩
    cases hv
  · intro t k hk
    cases hk
  · intro v r hr
    cases hr

theorem correct (h : s.Kept) : Correct s where
  conserved := h.sorted.conserved
  inOrder := h.inOrder
  explained := h.explained
  losesOldest := fun a s' hstep =>
    losesOldest_of_seen (seen_of_steps h (@step_cases (fun _ => True) s s' a (fun _ _ _ _ _ => trivial) hstep))

end Kept
end State

/-- Whatever the threads do, nothing goes wrong while every line that replaces another leaves room for the note. -/
theorem correct_of_run {actions : List Action} {s : State} (hshort : Run.EachOk step ShortWhenFull initial actions)
    (hrun : Run.run step initial actions = .ok s) : Correct s := by
  have hstep : ∀ (s : State) (a : Action) (s' : State), s.Kept → ShortWhenFull s a → step s a = .ok s' → s'.Kept := by
    intro s a s' h hshort hstep
    refine h.steps (step_cases ?_ hstep)
    intro t r ha hfree hqueue
    rw [ha] at hshort
    exact hshort hfree hqueue
  exact (hshort.invariant hstep State.Kept.initial_kept hrun).correct

def logLine (r : Request) : List Action := [.take 0 r,.write 0,.append 0]

theorem run_logLine {s : State} (r : Request) (hw : s.writers 0 = .idle) (hroom : s.freelist ≠ [] ∨ s.queue ≠ []) :
    ∃ s', Run.run step s (logLine r) = .ok s' ∧ s'.writers 0 = .idle ∧ s'.queue ≠ [] ∧ s'.freelist = s.freelist.tail ∧
      (s.freelist = [] → ∃ v id, (v,id) ∈ s'.replaced ∧ ∃ c ∈ s'.lines, c.id = id ∧ c.buf = writeItem r true) := by
  have hrest : ∀ (t : State) (item : Item) (overflow : Bool) (number : ℕ),
      t.writers 0 = .taken item overflow number r → ∃ s', Run.run step t [.write 0,.append 0] = .ok s' ∧
        s'.writers 0 = .idle ∧ s'.queue = t.queue ++ [item] ∧ s'.freelist = t.freelist ∧ s'.replaced = t.replaced ∧
        s'.items item = ⟨0,number,itemLevel r overflow,writeItem r overflow⟩ := by
    intro t item overflow number ht
    have hwrite : step t (.write 0) = .ok { t with
        items := Function.update t.items item ⟨0,number,itemLevel r overflow,writeItem r overflow⟩
        writers := Function.update t.writers 0 (.written item) } := by
      simp only [step, ht]
    rw [Run.run_cons _ hwrite, Run.run_singleton]
    simp only [step, Function.update_self]
    refine ⟨_,rfl,?_,rfl,rfl,rfl,?_⟩
    · dsimp only
      rw [Function.update_self]
    · dsimp only
      rw [Function.update_self]
  cases hfree : s.freelist with
  | cons item rest =>
    obtain ⟨t,htake,ht,hrest'⟩ : ∃ t, step s (.take 0 r) = .ok t ∧ t.writers 0 = .taken item false (s.count 0) r ∧
        t.freelist = rest := by
      refine ⟨{ s with
        freelist := rest
        count := Function.update s.count 0 (s.count 0 + 1)
        writers := Function.update s.writers 0 (.taken item false (s.count 0) r) },by simp only [step, hw, hfree],?_,rfl⟩
      dsimp only
      rw [Function.update_self]
    obtain ⟨s',hrun,hidle,hqueue,hfree',-,-⟩ := hrest t item false (s.count 0) ht
    refine ⟨s',(Run.run_cons _ htake).trans hrun,hidle,?_,hfree'.trans hrest',fun h => by cases h⟩
    rw [hqueue]
    exact List.append_ne_nil_of_right_ne_nil _ (List.cons_ne_nil _ _)
  | nil =>
    cases hqueue : s.queue with
    | nil => exact absurd hroom (by rw [hfree, hqueue]; simp)
    | cons item rest =>
      obtain ⟨t,htake,ht,hfree',hreplaced'⟩ : ∃ t, step s (.take 0 r) = .ok t ∧
          t.writers 0 = .taken item true (s.count 0) r ∧ t.freelist = [] ∧
            t.replaced = s.replaced ++ [((s.items item).id,(0,s.count 0))] := by
        refine ⟨{ s with
          queue := rest
          count := Function.update s.count 0 (s.count 0 + 1)
          writers := Function.update s.writers 0 (.taken item true (s.count 0) r)
          replaced := s.replaced ++ [((s.items item).id,(0,s.count 0))] },by simp only [step, hw, hfree, hqueue],?_,
          hfree,rfl⟩
        dsimp only
        rw [Function.update_self]
      obtain ⟨s',hrun,hidle,hqueue',hfree'',hreplaced,hitem⟩ := hrest t item true (s.count 0) ht
      refine ⟨s',(Run.run_cons _ htake).trans hrun,hidle,?_,hfree''.trans hfree',?_⟩
      · rw [hqueue']
        exact List.append_ne_nil_of_right_ne_nil _ (List.cons_ne_nil _ _)
      · intro _
        refine ⟨(s.items item).id,(0,s.count 0),?_,s'.items item,?_,?_⟩
        · rw [hreplaced, hreplaced']
          exact List.mem_append_right _ List.mem_cons_self
        · unfold State.lines
          rw [hqueue']
          exact List.mem_append_right _ (List.mem_append_right _ (List.mem_map_of_mem (List.mem_append_right _
            List.mem_cons_self)))
        · rw [hitem]
          exact ⟨rfl,rfl⟩

theorem run_fill (r : Request) (n : ℕ) {s : State} (hw : s.writers 0 = .idle) (hroom : s.freelist ≠ [] ∨ s.queue ≠ [])
    (hlength : s.freelist.length = n) : ∃ s', Run.run step s (List.replicate n (logLine r)).flatten = .ok s' ∧
      s'.writers 0 = .idle ∧ s'.freelist = [] ∧ (s'.freelist ≠ [] ∨ s'.queue ≠ []) := by
  induction n generalizing s with
  | zero =>
    have hnil := List.length_eq_zero_iff.mp hlength
    exact ⟨s,rfl,hw,hnil,hroom⟩
  | succ n ih =>
    obtain ⟨t,hrun,hidle,hqueue,hfree,-⟩ := run_logLine r hw hroom
    obtain ⟨s',hrest,hs'⟩ := ih hidle (Or.inr hqueue) (by rw [hfree, List.length_tail, hlength]; rfl)
    refine ⟨s',?_,hs'⟩
    rw [List.replicate_succ, List.flatten_cons, Run.run_append _ hrun]
    exact hrest

def overflowing (r last : Request) : List Action :=
  (List.replicate loggerQueueSize (logLine r)).flatten ++ logLine last

theorem run_overflowing (r last : Request) : ∃ s, Run.run step initial (overflowing r last) = .ok s ∧
    ∃ v id, (v,id) ∈ s.replaced ∧ ∃ c ∈ s.lines, c.id = id ∧ c.buf = writeItem last true := by
  have hfree : initial.freelist = List.finRange loggerQueueSize := by rw [initial]
  have hlength : initial.freelist.length = loggerQueueSize := by rw [hfree, List.length_finRange]
  have hroom : initial.freelist ≠ [] := by
    intro hnil
    rw [hnil] at hlength
    cases hlength
  obtain ⟨s,hrun,hidle,hempty,hroom'⟩ := run_fill r loggerQueueSize rfl (Or.inl hroom) hlength
  obtain ⟨s',hlast,-,-,-,hreplaced⟩ := run_logLine last hidle hroom'
  exact ⟨s',(Run.run_append _ hrun).trans hlast,hreplaced hempty⟩

theorem eachOk_of_short {actions : List Action} (h : ∀ t r, Action.take t r ∈ actions → r.Short) (s : State) :
    Run.EachOk step ShortWhenFull s actions := by
  induction actions generalizing s with
  | nil => trivial
  | cons a actions ih =>
    refine ⟨?_,fun t _ => ih (fun u r hr => h u r (List.mem_cons_of_mem _ hr)) t⟩
    cases a with
    | take t r => exact fun _ _ => h t r List.mem_cons_self
    | _ => trivial

def shortRequest : Request := ⟨4,false,[109],by decide⟩

def longRequest : Request := ⟨4,false,List.replicate 999 109,by decide +kernel⟩

theorem correct_of_overflowing : ∃ s, Run.run step initial (overflowing shortRequest shortRequest) = .ok s ∧
    Correct s ∧ s.replaced ≠ [] := by
  obtain ⟨s,hrun,v,id,hreplaced,-⟩ := run_overflowing shortRequest shortRequest
  have hshort : shortRequest.Short := by
    unfold Request.Short
    decide +kernel
  have hall : ∀ t r, Action.take t r ∈ overflowing shortRequest shortRequest → r.Short := by
    intro t r hmem
    have hline : ∀ l, Action.take t r ∈ l → l = logLine shortRequest → r.Short := by
      rintro l hl rfl
      unfold logLine at hl
      simp only [List.mem_cons, Action.take.injEq, reduceCtorEq, List.not_mem_nil, or_false] at hl
      rw [hl.2]
      exact hshort
    rcases List.mem_append.mp hmem with hmem | hmem
    · obtain ⟨l,hl,hmem⟩ := List.mem_flatten.mp hmem
      exact hline l hmem (List.eq_of_mem_replicate hl)
    · exact hline _ hmem rfl
  refine ⟨s,hrun,correct_of_run (eachOk_of_short hall initial) hrun,?_⟩
  intro hnil
  rw [hnil] at hreplaced
  cases hreplaced

theorem correct_of_run_fails : ¬∀ (actions : List Action) (s : State), Run.run step initial actions = .ok s → Correct s := by
  intro h
  obtain ⟨s,hrun,v,id,hreplaced,c,hc,hid,hbuf⟩ := run_overflowing shortRequest longRequest
  have hmarked := (h _ s hrun).explained.marked v id hreplaced c hc hid
  rw [State.Marked, hbuf, marked_iff] at hmarked
  have hlong : ¬longRequest.Short := by
    unfold Request.Short
    decide +kernel
  exact hlong hmarked.1

end Whist.Logging
