import Whist.Foundation.Paths

/-! # Paths below a directory

The path that names lead to from a directory, which is what joining them one by one gives, and what is relative
to the directory again.
-/
namespace Filepath

def below (dir : Path) (ns : List Path) : Path := render (isRooted dir) (climb (elements dir ++ ns))

def anchor (dir : Path) : List Path :=
  if isRooted dir then [] :: (climb (elements dir)).downs else (climb (elements dir)).elements

section
variable {ns : List Path} (hns : ∀ n ∈ ns, IsName n)
include hns

theorem climb_append_names (es : List Path) : climb (es ++ ns) = ⟨(climb es).ups,(climb es).downs ++ ns⟩ := by
  rw [climb_append, climb_names (fun n hn => (hns n hn).notDotdot)]
  simp

theorem isName_below (dir : Path) : ∀ n ∈ (climb (elements dir ++ ns)).downs, IsName n := by
  rw [climb_append_names hns]
  intro n hn
  rcases List.mem_append.mp hn with hn | hn
  · exact isName_downs dir n hn
  · exact hns n hn

theorem isRooted_below (dir : Path) : isRooted (below dir ns) = isRooted dir :=
  isRooted_render (isName_below hns dir) _

theorem clean_below (dir : Path) : clean (below dir ns) = below dir ns :=
  render_climb_render (isName_below hns dir) _

theorem elements_below (dir : Path) : elements (below dir ns) = elements (clean dir) ++ ns := by
  rw [below, elements_render (isName_below hns dir), clean, elements_render (isName_downs dir),
    climb_append_names hns]
  cases isRooted dir with
  | true => rfl
  | false => exact (List.append_assoc _ _ _).symm

theorem join_slashed {dir : Path} (h : dir ≠ []) : join [dir,slashed ns] = below dir ns := by
  rw [join_pair h, elements_slashed fun n hn => (hns n hn).element]
  rfl

end

theorem elements_name {n : Path} (h : IsName n) : elements n = [n] := by
  have helems : elements (slashed [n]) = [n] := elements_slashed (by simpa using h.element)
  rwa [slashed_singleton] at helems

theorem join_name {dir n : Path} (hdir : dir ≠ []) (h : IsName n) : join [dir,n] = below dir [n] := by
  rw [join_pair hdir, elements_name h]
  rfl

theorem join_dot {dir : Path} (h : dir ≠ []) : join [dir,dot] = clean dir := by
  rw [join_pair h, elements_dot, List.append_nil]
  rfl

theorem render_ne_nil {c : Climb} (h : ∀ n ∈ c.downs, IsName n) (rooted : Bool) : render rooted c ≠ [] := by
  cases rooted with
  | true => exact List.cons_ne_nil _ _
  | false =>
    rw [render, if_neg Bool.false_ne_true]
    by_cases hnil : c.elements = []
    · rw [if_pos hnil]
      decide
    · rw [if_neg hnil, Ne, slashed_eq_nil fun e he => (Climb.isElement h e he).nonempty]
      exact hnil

theorem below_ne_nil {ns : List Path} (hns : ∀ n ∈ ns, IsName n) (dir : Path) : below dir ns ≠ [] :=
  render_ne_nil (isName_below hns dir) _

theorem render_clean_append (dir : Path) {ns : List Path} (hns : ∀ n ∈ ns, IsName n) :
    render (isRooted dir) (climb (elements (clean dir) ++ ns)) = below dir ns := by
  have hdowns := isName_downs dir
  have hnames := fun n hn => (hdowns n hn).notDotdot
  rw [below, clean, elements_render hdowns, climb_append_names hns, climb_append_names hns]
  cases isRooted dir with
  | true =>
    rw [if_pos rfl, climb_names hnames]
    rfl
  | false => rw [if_neg Bool.false_ne_true, climb_elements hnames]

theorem isName_concat {n : Path} {ns : List Path} (hns : ∀ m ∈ ns, IsName m) (h : IsName n) :
    ∀ m ∈ ns ++ [n], IsName m := by
  intro m hm
  rcases List.mem_append.mp hm with hm | hm
  · exact hns m hm
  · exact List.mem_singleton.mp hm ▸ h

theorem join_below {dir n : Path} {ns : List Path} (hns : ∀ m ∈ ns, IsName m) (h : IsName n) :
    join [below dir ns,n] = below dir (ns ++ [n]) := by
  rw [join_name (below_ne_nil hns dir) h, ← render_clean_append dir (isName_concat hns h), ← List.append_assoc, ← elements_below hns,
    ← isRooted_below hns]
  rfl

theorem dropCommon_append (as bs : List Path) : dropCommon as (as ++ bs) = ([],bs) := by
  induction as with
  | nil => cases bs <;> rfl
  | cons a as ih => rw [List.cons_append, dropCommon, if_pos rfl, ih]

theorem rel_self (dir : Path) : rel dir dir = .ok dot := by
  rw [rel, if_pos rfl]

theorem rel_below {dir : Path} {ns : List Path} (hns : ∀ n ∈ ns, IsName n) (hne : ns ≠ []) :
    rel dir (below dir ns) = .ok (slashed ns) := by
  have helems := elements_below hns dir
  have htarg : below dir ns ≠ clean dir := by
    intro h
    rw [h] at helems
    exact hne (List.append_right_eq_self.mp helems.symm)
  have hdot : below dir ns ≠ dot := by
    intro h
    rw [h, elements_dot] at helems
    exact hne (List.append_eq_nil_iff.mp helems.symm).2
  have hroot : isRooted (clean dir) = isRooted (below dir ns) := by
    rw [isRooted_below hns, clean, isRooted_render (isName_downs dir)]
  rw [rel]
  dsimp only
  rw [clean_below hns, if_neg htarg, if_neg hdot, helems, dropCommon_append, if_neg]
  · rfl
  · rintro (h | h)
    · exact h hroot
    · cases h

theorem splitOn_below {dir : Path} {ns : List Path} (hns : ∀ n ∈ ns, IsName n) (hne : ns ≠ []) :
    (below dir ns).splitOn '/' = anchor dir ++ ns := by
  have hslash := fun e he => (Climb.isElement (isName_below hns dir) e he).slashless
  rw [below, anchor, climb_append_names hns] at *
  cases hroot : isRooted dir with
  | true =>
    have hnil : (climb (elements dir)).downs ++ ns ≠ [] := fun h => hne (List.append_eq_nil_iff.mp h).2
    have hcons : ∀ p : Path, ('/' :: p).splitOn '/' = [] :: p.splitOn '/' := fun p =>
      List.splitOn_append_cons_self_of_not_mem List.not_mem_nil p
    rw [render, if_pos rfl, hcons, splitOn_slashed (fun e he => hslash e (List.mem_append_right _ he)) hnil]
    rfl
  | false =>
    have hnil : (⟨(climb (elements dir)).ups,(climb (elements dir)).downs ++ ns⟩ : Climb).elements ≠ [] := by
      intro h
      exact hne (List.append_eq_nil_iff.mp (List.append_eq_nil_iff.mp h).2).2
    rw [render, if_neg Bool.false_ne_true, if_neg hnil, splitOn_slashed hslash hnil]
    exact (List.append_assoc _ _ _).symm

theorem slashless_anchor {ns : List Path} (hns : ∀ n ∈ ns, IsName n) (dir : Path) : ∀ e ∈ anchor dir ++ ns, '/' ∉ e := by
  intro e he
  rcases List.mem_append.mp he with he | he
  · rw [anchor] at he
    split_ifs at he with hroot
    · rcases List.mem_cons.mp he with rfl | he
      · exact List.not_mem_nil
      · exact (isName_downs dir e he).slashless
    · exact (Climb.isElement (isName_downs dir) e he).slashless
  · exact (hns e he).slashless

theorem isRooted_slashed_anchor {dir : Path} {ns : List Path} (hns : ∀ n ∈ ns, IsName n)
    (hne : slashed (anchor dir ++ ns) ≠ []) : isRooted (slashed (anchor dir ++ ns)) = isRooted dir := by
  rw [anchor] at hne ⊢
  cases hroot : isRooted dir with
  | true =>
    rw [hroot, if_pos rfl, List.cons_append] at hne
    rw [if_pos rfl, List.cons_append, slashed_cons]
    · rfl
    · intro hnil
      rw [hnil] at hne
      exact hne rfl
  | false =>
    rw [if_neg Bool.false_ne_true]
    refine not_isRooted_slashed fun e he => ?_
    rcases List.mem_append.mp he with he | he
    · exact Climb.isElement (isName_downs dir) e he
    · exact (hns e he).element

def weight (es : List Path) : ℕ := (es.map fun e => e.length + 1).sum

theorem weight_append (es fs : List Path) : weight (es ++ fs) = weight es + weight fs := by
  rw [weight, List.map_append, List.sum_append]
  rfl

theorem length_slashed (es : List Path) : (slashed es).length = weight es - 1 := by
  induction es with
  | nil => rfl
  | cons e es ih =>
    by_cases hnil : es = []
    · subst hnil
      simp [weight]
    · obtain ⟨f,fs,rfl⟩ := List.exists_cons_of_ne_nil hnil
      rw [slashed_cons e hnil, List.length_append, List.length_cons, ih]
      simp only [weight, List.map_cons, List.sum_cons]
      omega

theorem weight_elements_le (p : Path) : weight (elements p) ≤ p.length + 1 := by
  have hsplit : weight (p.splitOn '/') = p.length + 1 := by
    have hlen := length_slashed (p.splitOn '/')
    rw [slashed, List.intercalate_splitOn] at hlen
    obtain ⟨e,es,hes⟩ := List.exists_cons_of_ne_nil (List.splitOn_ne_nil '/' p)
    rw [hes] at hlen ⊢
    simp only [weight, List.map_cons, List.sum_cons] at hlen ⊢
    omega
  rw [← hsplit]
  exact (List.filter_sublist.map _).sum_le_sum fun _ _ => Nat.zero_le _

theorem weight_step_le (c : Climb) (e : Path) : weight (c.step e).elements ≤ weight c.elements + (e.length + 1) := by
  by_cases he : e = dotdot
  · subst he
    by_cases hdowns : c.downs = []
    · rw [step_dotdot_nil hdowns, Climb.elements, Climb.elements, hdowns, List.replicate_succ', List.append_nil,
        List.append_nil, weight_append]
      simp [weight]
    · rw [step_dotdot_of_ne hdowns, Climb.elements, Climb.elements, weight_append, weight_append]
      have hle : weight c.downs.dropLast ≤ weight c.downs :=
        ((List.dropLast_sublist _).map _).sum_le_sum fun _ _ => Nat.zero_le _
      dsimp only
      omega
  · rw [step_name c he, Climb.elements, Climb.elements, ← List.append_assoc, weight_append]
    simp [weight]

theorem weight_climb_le (es : List Path) : weight (climb es).elements ≤ weight es := by
  induction es using List.reverseRecOn with
  | nil => exact le_rfl
  | append_singleton es e ih =>
    rw [climb_concat, weight_append]
    calc weight ((climb es).step e).elements ≤ weight (climb es).elements + (e.length + 1) := weight_step_le _ e
      _ ≤ weight es + weight [e] := Nat.add_le_add ih (by simp [weight])

theorem length_clean_le {p : Path} (h : p ≠ []) : (clean p).length ≤ p.length := by
  have hpos := List.length_pos_iff.mpr h
  have hweight := weight_climb_le (elements p)
  rw [clean]
  cases hroot : isRooted p with
  | true =>
    obtain ⟨c,p,rfl⟩ := List.exists_cons_of_ne_nil h
    obtain rfl : c = '/' := Option.some.inj (of_decide_eq_true hroot)
    have hle := weight_elements_le p
    rw [elements_slash] at hweight ⊢
    rw [Climb.elements, weight_append] at hweight
    rw [render, if_pos rfl, List.length_cons, List.length_cons, length_slashed]
    omega
  | false =>
    have hle := weight_elements_le p
    rw [render, if_neg Bool.false_ne_true]
    by_cases hnil : (climb (elements p)).elements = []
    · rw [if_pos hnil]
      exact hpos
    · rw [if_neg hnil, length_slashed]
      omega

theorem clean_eq_of_begins {p : Path} (h : p ≠ []) (hpre : p <+: clean p) : clean p = p :=
  (hpre.eq_of_length_le (length_clean_le h)).symm

theorem prefix_slashed_append (es fs : List Path) : slashed es <+: slashed (es ++ fs) := by
  by_cases hes : es = []
  · subst hes
    exact List.nil_prefix
  · by_cases hfs : fs = []
    · rw [hfs, List.append_nil]
    · rw [slashed_append hes hfs]
      exact List.prefix_append _ _

theorem below_dot (ns : List Path) (hns : ∀ n ∈ ns, IsName n) (hne : ns ≠ []) : below dot ns = slashed ns := by
  have helems : (climb (elements dot ++ ns)).elements = ns := by
    rw [elements_dot, List.nil_append, climb_names fun n hn => (hns n hn).notDotdot]
    rfl
  rw [below, render, if_neg (by decide), helems, if_neg hne]

theorem prefix_below {dir : Path} (hclean : clean dir = dir) (hdot : dir ≠ dot) {ns : List Path}
    (hns : ∀ n ∈ ns, IsName n) : dir <+: below dir ns := by
  rw [below, climb_append_names hns]
  nth_rewrite 1 [← hclean]
  rw [clean, render, render]
  cases hroot : isRooted dir with
  | true => exact List.cons_prefix_cons.mpr ⟨rfl,prefix_slashed_append _ _⟩
  | false =>
    have helems : (climb (elements dir)).elements ≠ [] := by
      intro hnil
      refine hdot ?_
      rw [← hclean, clean, render, hroot, if_neg Bool.false_ne_true, if_pos hnil]
    have happend : (⟨(climb (elements dir)).ups,(climb (elements dir)).downs ++ ns⟩ : Climb).elements =
        (climb (elements dir)).elements ++ ns := (List.append_assoc _ _ _).symm
    rw [if_neg Bool.false_ne_true, if_neg Bool.false_ne_true, if_neg helems, happend,
      if_neg fun h => helems (List.append_eq_nil_iff.mp h).1]
    exact prefix_slashed_append _ _

end Filepath
