import Mathlib.Data.List.TakeWhile
import Whist.Host.ConfigArchive

/-! # Where an archive is extracted to -/
namespace Whist.Configutils
open Program Filepath

/-- Directories are created and files opened for writing in `dir` only. -/
def Confined (dir : Path) : FsOp → Prop
  | .mkdirAll path _ => Within dir path
  | .openFile path _ => Within dir path
  | _ => True

/-- The names that lead from the root to what `name` stands for in `dir`. -/
def landing (dir name : Path) : List Path :=
  (elements dir).take ((elements dir).length - (climb (elements name)).ups) ++ (climb (elements name)).downs

def reached (dir : Path) (entries : List Entry) : List Entry :=
  entries.takeWhile fun e => legal dir e.header.name

/-- A name climbs out of `dir` and comes down again beside it: by the elements of `dir`, the last
of them made longer. -/
def Escapes (dir name : Path) : Prop :=
  ∃ above last x, elements dir = above ++ [last] ∧ x ≠ [] ∧ above ++ [last ++ x] <+: landing dir name

section
variable {dir : Path} (hclean : clean dir = dir) (habs : isRooted dir)
include hclean habs

theorem elements_of_clean : ∃ u, dir = render true ⟨u,elements dir⟩ ∧ ∀ d ∈ elements dir, IsName d := by
  have hnames := isName_downs dir
  have hrender : dir = render true (climb (elements dir)) := by
    rw [← habs]
    exact hclean.symm
  have helems : elements dir = (climb (elements dir)).downs := by
    have h := congrArg elements hrender
    rwa [elements_render hnames, if_pos rfl] at h
  exact ⟨(climb (elements dir)).ups,helems ▸ hrender,helems ▸ hnames⟩

theorem join_of_clean (name : Path) :
    ∃ u, join [dir,name] = render true ⟨u,landing dir name⟩ ∧ ∀ e ∈ landing dir name, IsName e := by
  obtain ⟨-,-,hnames⟩ := elements_of_clean hclean habs
  have hne : dir ≠ [] := by
    rintro rfl
    exact Bool.false_ne_true habs
  refine ⟨0 + ((climb (elements name)).ups - (elements dir).length),?_,fun e he => ?_⟩
  · rw [join_pair hne, habs, climb_append, climb_names (fun n hn => (hnames n hn).notDotdot)]
    rfl
  · rcases List.mem_append.mp he with he | he
    · exact hnames e (List.mem_of_mem_take he)
    · exact isName_downs name e he

/-- What the check lets through is in `dir`, or beside it. -/
theorem within_iff_of_legal {name : Path} (hlegal : legal dir name) :
    Within dir (join [dir,name]) ↔ ¬ Escapes dir name := by
  obtain ⟨u,hdir,hnames⟩ := elements_of_clean hclean habs
  obtain ⟨v,hjoin,hnames'⟩ := join_of_clean hclean habs name
  have hwithin : Within dir (join [dir,name]) ↔ elements dir <+: landing dir name := by
    rw [hjoin]
    nth_rewrite 1 [hdir]
    exact within_render_iff hnames hnames'
  rw [hwithin]
  constructor
  · rintro hpre ⟨above,last,x,helems,hx,hbeside⟩
    rw [helems] at hpre
    have hlen : (above ++ [last]).length = (above ++ [last ++ x]).length := by simp
    have heq := (List.prefix_of_prefix_length_le hpre hbeside hlen.le).eq_of_length hlen
    have hlast := List.cons.inj (List.append_cancel_left heq)
    exact hx (List.append_right_eq_self.mp hlast.1.symm)
  · intro hescapes
    rcases List.eq_nil_or_concat' (elements dir) with hnil | ⟨above,last,helems⟩
    · rw [hnil]
      exact List.nil_prefix
    · have hprefix : render true ⟨u,above ++ [last]⟩ <+: join [dir,name] := by
        rw [← helems, ← hdir]
        exact List.isPrefixOf_iff_prefix.mp hlegal
      rw [hjoin, prefix_render_iff (helems ▸ hnames) hnames'] at hprefix
      obtain ⟨x,hx⟩ := hprefix
      by_cases hnil : x = []
      · subst hnil
        rw [List.append_nil, ← helems] at hx
        exact hx
      · exact absurd ⟨above,last,x,helems,hnil,hx⟩ hescapes

end

theorem not_escapes {dir name : Path} (h : (climb (elements name)).ups = 0) : ¬ Escapes dir name := by
  rintro ⟨above,last,x,helems,hx,hbeside⟩
  rw [landing, h, Nat.sub_zero, List.take_length, helems] at hbeside
  have hlen : (above ++ [last]).length = (above ++ [last ++ x]).length := by simp
  have hpre : above ++ [last ++ x] <+: above ++ [last] :=
    List.prefix_of_prefix_length_le hbeside (List.prefix_append _ _) hlen.ge
  have hlast := List.cons.inj (List.append_cancel_left (hpre.eq_of_length hlen.symm))
  exact hx (List.append_right_eq_self.mp hlast.1)

theorem closeFile_calls (dir path : Path) : (closeFile path).Calls (Confined dir) :=
  ⟨trivial,fun _ => trivial⟩

theorem untarEntry_calls_iff (dir path : Path) (entry : Entry) :
    (untarEntry path entry).Calls (Confined dir) ↔ Within dir path := by
  rw [untarEntry]
  by_cases hdir : entry.header.info.kind = .directory
  · rw [if_pos hdir]
    refine ⟨fun h => h.1,fun h => ⟨h,fun r => ?_⟩⟩
    cases r <;> trivial
  · rw [if_neg hdir]
    refine ⟨fun h => h.1,fun h => ⟨h,fun r => ?_⟩⟩
    cases r with
    | some err => trivial
    | none =>
      refine ⟨trivial,fun r => ?_⟩
      cases r with
      | error err => exact (closeFile_calls dir path).bind fun _ => trivial
      | ok numBytes => exact (closeFile_calls dir path).bind fun _ => trivial

theorem untarEntry_bind_calls {dir path : Path} {entry : Entry} {α : Type} {f : Except String ℕ → FsProg α}
    (h : (untarEntry path entry >>= f).Calls (Confined dir)) :
    Within dir path ∧ ∃ n, (f (.ok n)).Calls (Confined dir) := by
  rw [untarEntry] at h
  by_cases hdir : entry.header.info.kind = .directory
  · rw [if_pos hdir] at h
    exact ⟨h.1,0,h.2 none⟩
  · rw [if_neg hdir] at h
    exact ⟨h.1,0,((h.2 none).2 (.ok 0)).2 none⟩

theorem reached_of_legal {dir : Path} {entry : Entry} (h : legal dir entry.header.name) (rest : List Entry) :
    reached dir (entry :: rest) = entry :: reached dir rest :=
  List.takeWhile_cons_of_pos h

theorem reached_of_not_legal {dir : Path} {entry : Entry} (h : ¬ legal dir entry.header.name)
    (rest : List Entry) : reached dir (entry :: rest) = [] :=
  List.takeWhile_cons_of_neg h

theorem untar_calls_iff (dir : Path) (entries : List Entry) (ending : Ending) (totalBytes : ℕ) :
    (untar dir entries ending totalBytes).Calls (Confined dir) ↔
      ∀ e ∈ reached dir entries, Within dir (join [dir,e.header.name]) := by
  induction entries generalizing totalBytes with
  | nil =>
    refine iff_of_true ?_ (fun e he => absurd he List.not_mem_nil)
    cases ending <;> trivial
  | cons entry rest ih =>
    rw [untar]
    by_cases hlegal : legal dir entry.header.name
    · rw [if_pos hlegal, reached_of_legal hlegal, List.forall_mem_cons]
      constructor
      · intro h
        obtain ⟨hin,n,hrest⟩ := untarEntry_bind_calls h
        exact ⟨hin,(ih _).mp hrest⟩
      · rintro ⟨hin,hrest⟩
        refine ((untarEntry_calls_iff dir _ entry).mpr hin).bind fun r => ?_
        cases r with
        | error err => trivial
        | ok numBytes => exact (ih _).mpr hrest
    · rw [if_neg hlegal, reached_of_not_legal hlegal]
      exact iff_of_true trivial fun e he => absurd he List.not_mem_nil

theorem createDestination_calls (dir : Path) : (createDestination dir).Calls (Confined dir) := by
  refine ⟨trivial,fun r => ?_⟩
  cases r with
  | ok info => trivial
  | error err =>
    by_cases herr : err.notExist
    · change (ite (err.notExist = true) _ _ : FsProg (Option String)).Calls _
      rw [if_pos herr]
      refine ⟨Or.inl rfl,fun r => ?_⟩
      cases r <;> trivial
    · change (ite (err.notExist = true) _ _ : FsProg (Option String)).Calls _
      rw [if_neg herr]
      trivial

/-- Extraction stays inside a clean absolute directory exactly if no entry before the first one
refused climbs out of it and comes down beside it. -/
theorem extractTarLz4_confined_iff (file : Archive) {dir : Path} (hclean : clean dir = dir)
    (habs : isRooted dir) :
    (extractTarLz4 file dir).Calls (Confined dir) ↔
      ∀ e ∈ reached dir file.entries, ¬ Escapes dir e.header.name := by
  have hentries : (extractTarLz4 file dir).Calls (Confined dir) ↔
      (untar dir file.entries file.ending 0).Calls (Confined dir) := by
    refine ⟨fun h => h.2 (.ok ⟨.directory,0o755⟩),fun h => (createDestination_calls dir).bind fun r => ?_⟩
    cases r with
    | some err => trivial
    | none => exact h
  rw [hentries, untar_calls_iff]
  refine forall₂_congr fun e he => ?_
  have hlegal : legal dir e.header.name := List.mem_takeWhile_imp (p := fun e : Entry => legal dir e.header.name) he
  exact within_iff_of_legal hclean habs hlegal

theorem extractTarLz4_confined_sub :
    (extractTarLz4 ⟨[⟨⟨['b','/','c'],⟨.regular,0o644⟩⟩,[]⟩],.eof⟩ ['/','t','m','p','/','a']).Calls
      (Confined ['/','t','m','p','/','a']) := by
  refine (extractTarLz4_confined_iff _ (by decide) (by decide)).mpr fun e he => ?_
  obtain rfl := List.mem_singleton.mp (List.takeWhile_subset _ he)
  exact not_escapes (by decide)

/-- The file `../a-evil/x` of an archive is written beside `/tmp/a`. -/
theorem extractTarLz4_confined_fails :
    ¬ ∀ (file : Archive) (dir : Path), clean dir = dir → isRooted dir →
      (extractTarLz4 file dir).Calls (Confined dir) := by
  intro h
  let evil : Entry := ⟨⟨['.','.','/','a','-','e','v','i','l','/','x'],⟨.regular,0o644⟩⟩,[]⟩
  have hcalls := (h ⟨[evil],.eof⟩ ['/','t','m','p','/','a'] (by decide) (by decide)).2 (.ok ⟨.directory,0o755⟩)
  have hreached := (untar_calls_iff _ [evil] .eof 0).mp hcalls evil (by decide)
  exact absurd hreached (by decide)

end Whist.Configutils
