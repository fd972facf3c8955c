import Mathlib.Tactic

/-! # Slash-separated paths

The lexical operations on paths.
-/
namespace Filepath

abbrev Path := List Char

def dot : Path := ['.']

def dotdot : Path := ['.','.']

structure IsName (n : Path) : Prop where
  nonempty : n ≠ []
  slashless : '/' ∉ n
  notDot : n ≠ dot
  notDotdot : n ≠ dotdot

def elements (p : Path) : List Path := (p.splitOn '/').filter fun e => e ≠ [] ∧ e ≠ dot

def slashed (es : List Path) : Path := ['/'].intercalate es

def isRooted (p : Path) : Bool := p.head? = some '/'

/-- Where elements lead: so many directories up, and then down these names. -/
structure Climb where
  ups : ℕ
  downs : List Path
deriving DecidableEq

def Climb.step (c : Climb) (e : Path) : Climb :=
  if e = dotdot then
    if c.downs = [] then ⟨c.ups + 1,[]⟩ else ⟨c.ups,c.downs.dropLast⟩
  else ⟨c.ups,c.downs ++ [e]⟩

def climb (es : List Path) : Climb := es.foldl Climb.step ⟨0,[]⟩

def Climb.elements (c : Climb) : List Path := List.replicate c.ups dotdot ++ c.downs

def render (rooted : Bool) (c : Climb) : Path :=
  if rooted then '/' :: slashed c.downs
  else if c.elements = [] then dot
  else slashed c.elements

def clean (p : Path) : Path := render (isRooted p) (climb (elements p))

/-- `filepath.Join`: empty elements at the front are ignored. -/
def join (elem : List Path) : Path :=
  match elem.dropWhile (· = []) with
  | [] => []
  | es => clean (slashed es)

def dropCommon : List Path → List Path → List Path × List Path
  | a :: as, b :: bs => if a = b then dropCommon as bs else (a :: as,b :: bs)
  | as, bs => (as,bs)

def rel (basepath targpath : Path) : Except String Path :=
  let base := clean basepath
  let targ := clean targpath
  if targ = base then .ok dot
  else
    let rest := dropCommon (elements base) (if targ = dot then [dot] else elements targ)
    if isRooted base ≠ isRooted targ ∨ rest.1.head? = some dotdot then
      .error ("Rel: can't make " ++ String.ofList targpath ++ " relative to " ++ String.ofList basepath)
    else .ok (slashed (List.replicate rest.1.length dotdot ++ rest.2))

structure IsElement (e : Path) : Prop where
  nonempty : e ≠ []
  slashless : '/' ∉ e
  notDot : e ≠ dot

theorem IsName.element {n : Path} (h : IsName n) : IsElement n := ⟨h.nonempty,h.slashless,h.notDot⟩

theorem isElement_dotdot : IsElement dotdot := ⟨by decide,by decide,by decide⟩

theorem slashless_of_mem_splitOn {p e : Path} (h : e ∈ p.splitOn '/') : '/' ∉ e := by
  induction p generalizing e with
  | nil =>
    rw [List.splitOn_nil, List.mem_singleton] at h
    exact h ▸ List.not_mem_nil
  | cons c p ih =>
    rw [List.splitOn_cons_eq_if_modifyHead] at h
    split_ifs at h with hc
    · rcases List.mem_cons.mp h with rfl | h
      · exact List.not_mem_nil
      · exact ih h
    · cases hp : p.splitOn '/' with
      | nil => exact absurd hp (List.splitOn_ne_nil _ _)
      | cons first rest =>
        rw [hp, List.modifyHead_cons, List.mem_cons] at h
        rw [hp] at ih
        rcases h with rfl | h
        · intro hmem
          rcases List.mem_cons.mp hmem with rfl | hmem
          · exact hc (beq_self_eq_true _)
          · exact ih List.mem_cons_self hmem
        · exact ih (List.mem_cons_of_mem _ h)

theorem isElement_of_mem {p e : Path} (h : e ∈ elements p) : IsElement e := by
  rw [elements, List.mem_filter, decide_eq_true_eq] at h
  exact ⟨h.2.1,slashless_of_mem_splitOn h.1,h.2.2⟩

theorem elements_append_slash (p q : Path) : elements (p ++ '/' :: q) = elements p ++ elements q := by
  rw [elements, List.splitOn_append_cons_self, List.filter_append]
  rfl

@[simp] theorem elements_slash (p : Path) : elements ('/' :: p) = elements p :=
  elements_append_slash [] p

@[simp] theorem elements_nil : elements [] = [] := rfl

@[simp] theorem elements_dot : elements dot = [] := by decide

theorem splitOn_slashed {es : List Path} (h : ∀ e ∈ es, '/' ∉ e) (hne : es ≠ []) :
    (slashed es).splitOn '/' = es :=
  List.splitOn_intercalate '/' h hne

theorem elements_slashed {es : List Path} (h : ∀ e ∈ es, IsElement e) : elements (slashed es) = es := by
  by_cases hne : es = []
  · subst hne
    rfl
  · rw [elements, splitOn_slashed (fun e he => (h e he).slashless) hne, List.filter_eq_self]
    intro e he
    exact decide_eq_true ⟨(h e he).nonempty,(h e he).notDot⟩

@[simp] theorem slashed_nil : slashed [] = [] := rfl

@[simp] theorem slashed_singleton (e : Path) : slashed [e] = e := List.intercalate_singleton

theorem slashed_cons (e : Path) {es : List Path} (h : es ≠ []) : slashed (e :: es) = e ++ '/' :: slashed es := by
  rw [slashed, List.intercalate_cons_of_ne_nil h, List.append_assoc]
  rfl

theorem slashed_append {es fs : List Path} (hes : es ≠ []) (hfs : fs ≠ []) :
    slashed (es ++ fs) = slashed es ++ '/' :: slashed fs := by
  induction es with
  | nil => exact absurd rfl hes
  | cons e es ih =>
    by_cases hnil : es = []
    · subst hnil
      rw [slashed_singleton, List.singleton_append, slashed_cons e hfs]
    · have hne : es ++ fs ≠ [] := fun h => hnil (List.append_eq_nil_iff.mp h).1
      rw [List.cons_append, slashed_cons e hne, slashed_cons e hnil, ih hnil, List.append_assoc]
      rfl

theorem slashed_eq_nil {es : List Path} (h : ∀ e ∈ es, e ≠ []) : slashed es = [] ↔ es = [] := by
  refine ⟨fun hnil => ?_,fun hnil => hnil ▸ rfl⟩
  cases es with
  | nil => rfl
  | cons e rest =>
    by_cases hrest : rest = []
    · subst hrest
      rw [slashed_singleton] at hnil
      exact absurd hnil (h e List.mem_cons_self)
    · rw [slashed_cons e hrest] at hnil
      exact absurd hnil (by simp)

theorem head_slashed {e : Path} (es : List Path) (h : e ≠ []) : (slashed (e :: es)).head? = e.head? := by
  by_cases hes : es = []
  · subst hes
    rw [slashed_singleton]
  · rw [slashed_cons e hes, List.head?_append_of_ne_nil _ h]

theorem not_isRooted_slashed {es : List Path} (h : ∀ e ∈ es, IsElement e) : isRooted (slashed es) = false := by
  cases es with
  | nil => rfl
  | cons e es =>
    have he := h e List.mem_cons_self
    rw [isRooted, head_slashed es he.nonempty, decide_eq_false_iff_not]
    intro hhead
    exact he.slashless (List.mem_of_head? hhead)

theorem climb_concat (es : List Path) (e : Path) : climb (es ++ [e]) = (climb es).step e := by
  rw [climb, List.foldl_append]
  rfl

theorem step_name (c : Climb) {e : Path} (h : e ≠ dotdot) : c.step e = ⟨c.ups,c.downs ++ [e]⟩ := if_neg h

theorem step_dotdot_nil {c : Climb} (h : c.downs = []) : c.step dotdot = ⟨c.ups + 1,[]⟩ := by
  rw [Climb.step, if_pos rfl, if_pos h]

theorem step_dotdot_of_ne {c : Climb} (h : c.downs ≠ []) : c.step dotdot = ⟨c.ups,c.downs.dropLast⟩ := by
  rw [Climb.step, if_pos rfl, if_neg h]

/-- The second part climbs out of the names of the first before it goes further up. -/
theorem climb_append (as bs : List Path) :
    climb (as ++ bs) =
      ⟨(climb as).ups + ((climb bs).ups - (climb as).downs.length),
        (climb as).downs.take ((climb as).downs.length - (climb bs).ups) ++ (climb bs).downs⟩ := by
  induction bs using List.reverseRecOn with
  | nil => simp [climb]
  | append_singleton bs e ih =>
    rw [← List.append_assoc, climb_concat, climb_concat bs e, ih]
    by_cases he : e = dotdot
    · subst he
      by_cases hb : (climb bs).downs = []
      · rw [step_dotdot_nil hb, hb]
        by_cases hlen : (climb as).downs.length ≤ (climb bs).ups
        · have htake : (climb as).downs.take ((climb as).downs.length - (climb bs).ups) ++ [] = [] := by
            rw [Nat.sub_eq_zero_of_le hlen, List.take_zero, List.append_nil]
          rw [step_dotdot_nil htake, Nat.sub_eq_zero_of_le (by omega : (climb as).downs.length ≤ (climb bs).ups + 1)]
          congr 1
          dsimp only
          omega
        · have htake : (climb as).downs.take ((climb as).downs.length - (climb bs).ups) ++ [] ≠ [] := by
            rw [List.append_nil, Ne, List.take_eq_nil_iff, not_or, ← List.length_eq_zero_iff]
            omega
          rw [step_dotdot_of_ne htake, List.append_nil, List.append_nil, List.dropLast_eq_take,
            List.take_take, List.length_take]
          congr 1
          · dsimp only
            omega
          · congr 1
            dsimp only
            omega
      · rw [step_dotdot_of_ne hb, step_dotdot_of_ne (List.append_ne_nil_of_right_ne_nil _ hb),
          List.dropLast_append_of_ne_nil hb]
    · rw [step_name _ he, step_name _ he, List.append_assoc]

theorem climb_names {ns : List Path} (h : ∀ n ∈ ns, n ≠ dotdot) : climb ns = ⟨0,ns⟩ := by
  induction ns using List.reverseRecOn with
  | nil => rfl
  | append_singleton ns n ih =>
    rw [climb_concat, ih (fun m hm => h m (List.mem_append_left _ hm)), step_name _ (h n (by simp))]

theorem climb_replicate (u : ℕ) : climb (List.replicate u dotdot) = ⟨u,[]⟩ := by
  induction u with
  | zero => rfl
  | succ u ih => rw [List.replicate_succ', climb_concat, ih, step_dotdot_nil rfl]

theorem climb_elements {c : Climb} (h : ∀ n ∈ c.downs, n ≠ dotdot) : climb c.elements = c := by
  rw [Climb.elements, climb_append, climb_replicate, climb_names h]
  simp

theorem isName_of_mem_downs {es : List Path} (h : ∀ e ∈ es, IsElement e) {n : Path}
    (hn : n ∈ (climb es).downs) : IsName n := by
  induction es using List.reverseRecOn generalizing n with
  | nil => exact absurd hn List.not_mem_nil
  | append_singleton es e ih =>
    have hes : ∀ f ∈ es, IsElement f := fun f hf => h f (List.mem_append_left _ hf)
    have he := h e (by simp)
    rw [climb_concat] at hn
    by_cases hdd : e = dotdot
    · subst hdd
      by_cases hdowns : (climb es).downs = []
      · rw [step_dotdot_nil hdowns] at hn
        exact absurd hn List.not_mem_nil
      · rw [step_dotdot_of_ne hdowns] at hn
        exact ih hes (List.mem_of_mem_dropLast hn)
    · rw [step_name _ hdd] at hn
      rcases List.mem_append.mp hn with hn | hn
      · exact ih hes hn
      · obtain rfl := List.mem_singleton.mp hn
        exact ⟨he.nonempty,he.slashless,he.notDot,hdd⟩

theorem isName_downs (p : Path) : ∀ n ∈ (climb (elements p)).downs, IsName n :=
  fun _ hn => isName_of_mem_downs (fun _ he => isElement_of_mem he) hn

theorem Climb.isElement {c : Climb} (h : ∀ n ∈ c.downs, IsName n) : ∀ e ∈ c.elements, IsElement e := by
  intro e he
  rcases List.mem_append.mp he with he | he
  · obtain rfl := List.eq_of_mem_replicate he
    exact isElement_dotdot
  · exact (h e he).element

theorem elements_render {c : Climb} (h : ∀ n ∈ c.downs, IsName n) (rooted : Bool) :
    elements (render rooted c) = if rooted then c.downs else c.elements := by
  cases rooted with
  | true =>
    rw [render, if_pos rfl, if_pos rfl, elements_slash]
    exact elements_slashed fun n hn => (h n hn).element
  | false =>
    rw [render, if_neg Bool.false_ne_true, if_neg Bool.false_ne_true]
    by_cases hnil : c.elements = []
    · rw [if_pos hnil, hnil, elements_dot]
    · rw [if_neg hnil]
      exact elements_slashed (Climb.isElement h)

theorem isRooted_render {c : Climb} (h : ∀ n ∈ c.downs, IsName n) (rooted : Bool) :
    isRooted (render rooted c) = rooted := by
  cases rooted with
  | true => rfl
  | false =>
    rw [render, if_neg Bool.false_ne_true]
    by_cases hnil : c.elements = []
    · rw [if_pos hnil]
      decide
    · rw [if_neg hnil]
      exact not_isRooted_slashed (Climb.isElement h)

theorem render_climb_render {c : Climb} (h : ∀ n ∈ c.downs, IsName n) (rooted : Bool) :
    clean (render rooted c) = render rooted c := by
  rw [clean, isRooted_render h, elements_render h]
  cases rooted with
  | true =>
    rw [if_pos rfl, climb_names (fun n hn => (h n hn).notDotdot)]
    rfl
  | false => rw [if_neg Bool.false_ne_true, climb_elements (fun n hn => (h n hn).notDotdot)]

@[simp] theorem clean_clean (p : Path) : clean (clean p) = clean p :=
  render_climb_render (isName_downs p) (isRooted p)

theorem slashed_injective {ds es : List Path} (hds : ∀ d ∈ ds, IsElement d) (hes : ∀ e ∈ es, IsElement e)
    (h : slashed ds = slashed es) : ds = es := by
  have heq := congrArg elements h
  rwa [elements_slashed hds, elements_slashed hes] at heq

theorem join_pair {dir : Path} (h : dir ≠ []) (name : Path) :
    join [dir,name] = render (isRooted dir) (climb (elements dir ++ elements name)) := by
  have hjoin : join [dir,name] = clean (dir ++ '/' :: name) := by
    rw [join, List.dropWhile_cons_of_neg (by simpa using h)]
    change clean (slashed [dir,name]) = _
    rw [slashed_cons dir (List.cons_ne_nil name []), slashed_singleton]
  rw [hjoin, clean, elements_append_slash, isRooted, List.head?_append_of_ne_nil _ h]
  rfl

def asDirectory (dir : Path) : Path := if dir = ['/'] then dir else dir ++ ['/']

def Within (dir p : Path) : Prop := p = dir ∨ asDirectory dir <+: p

instance (dir p : Path) : Decidable (Within dir p) := inferInstanceAs (Decidable (_ ∨ _))

section
variable {u v : ℕ} {ds es : List Path} (hds : ∀ d ∈ ds, IsName d) (hes : ∀ e ∈ es, IsName e)
include hds hes

theorem within_render_iff : Within (render true ⟨u,ds⟩) (render true ⟨v,es⟩) ↔ ds <+: es := by
  have hds' := fun d hd => (hds d hd).element
  have hes' := fun e he => (hes e he).element
  change '/' :: slashed es = '/' :: slashed ds ∨ asDirectory ('/' :: slashed ds) <+: '/' :: slashed es ↔ _
  by_cases hnil : ds = []
  · subst hnil
    exact iff_of_true (Or.inr ⟨slashed es,rfl⟩) List.nil_prefix
  · have hroot : '/' :: slashed ds ≠ ['/'] := by
      intro h
      exact hnil ((slashed_eq_nil fun d hd => (hds d hd).nonempty).mp (List.cons.inj h).2)
    rw [asDirectory, if_neg hroot]
    constructor
    · rintro (heq | ⟨t,ht⟩)
      · rw [slashed_injective hes' hds' (List.cons.inj heq).2]
      · rw [List.append_assoc, List.cons_append] at ht
        have helems := congrArg elements (List.cons.inj ht).2
        rw [List.singleton_append, elements_append_slash, elements_slashed hds', elements_slashed hes'] at helems
        exact ⟨elements t,helems⟩
    · rintro ⟨rest,rfl⟩
      by_cases hrest : rest = []
      · exact Or.inl (by rw [hrest, List.append_nil])
      · refine Or.inr ⟨slashed rest,?_⟩
        rw [slashed_append hnil hrest]
        simp

end

theorem elements_slashed_concat {ds : List Path} (hds : ∀ d ∈ ds, IsElement d) (p : Path) :
    elements (slashed (ds ++ [p])) = ds ++ elements p := by
  by_cases hnil : ds = []
  · subst hnil
    rw [List.nil_append, slashed_singleton, List.nil_append]
  · rw [slashed_append hnil (List.cons_ne_nil p []), elements_append_slash, elements_slashed hds, slashed_singleton]

theorem slashed_concat_append (ds : List Path) (d t : Path) :
    slashed (ds ++ [d ++ t]) = slashed (ds ++ [d]) ++ t := by
  by_cases hnil : ds = []
  · subst hnil
    simp
  · simp [slashed_append hnil (List.cons_ne_nil _ [])]

theorem elements_append {d : Path} (hd : IsElement d) (t : Path) :
    ∃ x rest, elements (d ++ t) = (d ++ x) :: rest := by
  have hlonger : ∀ {x : Path}, '/' ∉ x → elements (d ++ x) = [d ++ x] := by
    intro x hx
    have helement : IsElement (d ++ x) := by
      refine ⟨by simp [hd.nonempty],by simp [hd.slashless,hx],fun hdot => ?_⟩
      rcases List.append_eq_singleton_iff.mp hdot with ⟨h,-⟩ | ⟨h,-⟩
      · exact hd.nonempty h
      · exact hd.notDot h
    have helems : elements (slashed [d ++ x]) = [d ++ x] := elements_slashed (by simpa using helement)
    rwa [slashed_singleton] at helems
  by_cases hmem : '/' ∈ t
  · obtain ⟨x,rest,rfl,hx⟩ := List.eq_append_cons_of_mem hmem
    refine ⟨x,elements rest,?_⟩
    rw [← List.append_assoc, elements_append_slash, hlonger hx, List.singleton_append]
  · exact ⟨t,[],hlonger hmem⟩

/-- The text of a directory begins that of a path: they agree on all elements of the directory but
the last, for which the path has the same or a longer one. -/
theorem prefix_render_iff {u v : ℕ} {ds es : List Path} {d : Path} (hds : ∀ e ∈ ds ++ [d], IsName e)
    (hes : ∀ e ∈ es, IsName e) :
    render true ⟨u,ds ++ [d]⟩ <+: render true ⟨v,es⟩ ↔ ∃ x, ds ++ [d ++ x] <+: es := by
  change '/' :: slashed (ds ++ [d]) <+: '/' :: slashed es ↔ _
  rw [List.cons_prefix_cons]
  constructor
  · rintro ⟨-,t,ht⟩
    obtain ⟨x,rest,hx⟩ := elements_append (hds d (by simp)).element t
    have helems := congrArg elements ht
    rw [← slashed_concat_append, elements_slashed fun e he => (hes e he).element,
      elements_slashed_concat (fun e he => (hds e (List.mem_append_left _ he)).element), hx] at helems
    exact ⟨x,rest,by rw [← helems, List.append_assoc, List.singleton_append]⟩
  · rintro ⟨x,rest,rfl⟩
    refine ⟨rfl,?_⟩
    by_cases hrest : rest = []
    · rw [hrest, List.append_nil, slashed_concat_append]
      exact List.prefix_append _ _
    · rw [slashed_append (by simp) hrest, slashed_concat_append, List.append_assoc]
      exact List.prefix_append _ _

end Filepath
