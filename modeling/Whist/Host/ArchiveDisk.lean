import Mathlib.Data.List.DropRight
import Whist.Foundation.RelativePaths
import Whist.Foundation.Services
import Whist.Host.ConfigArchive

/-! # The disk an archive is extracted to

A file system without links.  Of the permissions only the owner's to write is kept; it is needed to create something in a
directory.  `mkdirAll` is `os.MkdirAll`.
-/
namespace Whist.Configutils
open Program Filepath

inductive Item where
  | directory (writable : Bool)
  | file (writable : Bool) (content : List UInt8)
deriving DecidableEq

structure Disk where
  item : List Path → Option Item
  cwd : List Path

def ownerWritable (perm : ℕ) : Bool := perm.testBit 7

def enoent : OsError := ⟨"no such file or directory",true⟩

def enotdir : OsError := ⟨"not a directory",false⟩

def eexist : OsError := ⟨"file exists",false⟩

def eisdir : OsError := ⟨"is a directory",false⟩

def eacces : OsError := ⟨"permission denied",false⟩

namespace Disk

def put (d : Disk) (place : List Path) (item : Item) : Disk :=
  { d with item := Function.update d.item place (some item) }

def enter (d : Disk) (place : List Path) (piece : Path) : Except OsError (List Path) :=
  match d.item place with
  | none => .error enoent
  | some (.file _ _) => .error enotdir
  | some (.directory _) =>
    if piece = [] ∨ piece = dot then .ok place
    else if piece = dotdot then .ok place.dropLast
    else if (d.item (place ++ [piece])).isSome then .ok (place ++ [piece])
    else .error enoent

def follow (d : Disk) (place : List Path) (pieces : List Path) : Except OsError (List Path) :=
  pieces.foldlM d.enter place

def start (d : Disk) (path : Path) : List Path := if isRooted path then [] else d.cwd

def resolve (d : Disk) (path : Path) : Except OsError (List Path) :=
  if path = [] then .error enoent else d.follow (d.start path) (path.splitOn '/')

def stat (d : Disk) (path : Path) : Except OsError FileInfo := do
  let place ← d.resolve path
  match d.item place with
  | none => .error enoent
  | some (.directory writable) => .ok ⟨.directory,if writable then 0o700 else 0o500⟩
  | some (.file writable _) => .ok ⟨.regular,if writable then 0o600 else 0o400⟩

theorem stat_directory {d : Disk} {path : Path} {place : List Path} {writable : Bool}
    (hresolve : d.resolve path = .ok place) (hdir : d.item place = some (.directory writable)) :
    d.stat path = .ok ⟨.directory,if writable then 0o700 else 0o500⟩ := by
  simp only [stat, hresolve, Bind.bind, Except.bind, hdir]

def special (piece : Path) : Bool := piece = [] ∨ piece = dot ∨ piece = dotdot

def create (d : Disk) (parent : List Path) (name : Path) (item : Item) : Option OsError × Disk :=
  match d.item parent with
  | some (.directory writable) => if writable then (none,d.put (parent ++ [name]) item) else (some eacces,d)
  | some (.file _ _) => (some enotdir,d)
  | none => (some enoent,d)

def trimmed (path : Path) : List Path := (path.splitOn '/').rdropWhile (· = [])

def mkdir (d : Disk) (path : Path) (perm : ℕ) : Option OsError × Disk :=
  if path = [] then (some enoent,d)
  else
    let name := (trimmed path).getLastD []
    match d.follow (d.start path) (trimmed path).dropLast with
    | .error err => (some err,d)
    | .ok parent =>
      if special name then (some eexist,d)
      else if (d.item (parent ++ [name])).isSome then (some eexist,d)
      else d.create parent name (.directory (ownerWritable perm))

/-- The parents of a path are created first.  Each has a shorter text, so that the length of the
path is enough fuel. -/
def mkdirAllIn : ℕ → Disk → Path → ℕ → Option OsError × Disk
  | 0, d, _, _ => (some enoent,d)
  | fuel + 1, d, path, perm =>
    match d.stat path with
    | .ok info => if info.kind = .directory then (none,d) else (some enotdir,d)
    | .error _ =>
      let parent := slashed (trimmed path).dropLast
      match if parent = [] then (none,d) else mkdirAllIn fuel d parent perm with
      | (some err,d) => (some err,d)
      | (none,d) =>
        match d.mkdir path perm with
        | (none,d) => (none,d)
        | (some err,d) =>
          match d.stat path with
          | .ok info => if info.kind = .directory then (none,d) else (some err,d)
          | .error _ => (some err,d)

def mkdirAll (d : Disk) (path : Path) (perm : ℕ) : Option OsError × Disk :=
  mkdirAllIn (path.length + 1) d path perm

def openFile (d : Disk) (path : Path) (perm : ℕ) : Option OsError × Disk :=
  if path = [] then (some enoent,d)
  else
    let name := (path.splitOn '/').getLastD []
    match d.follow (d.start path) (path.splitOn '/').dropLast with
    | .error err => (some err,d)
    | .ok parent =>
      if special name then (some eisdir,d)
      else
        match d.item (parent ++ [name]) with
        | some (.directory _) => (some eisdir,d)
        | some (.file writable _) =>
          if writable then (none,d.put (parent ++ [name]) (.file writable [])) else (some eacces,d)
        | none => d.create parent name (.file (ownerWritable perm) [])

def copyTo (d : Disk) (path : Path) (content : List UInt8) : Except OsError ℕ × Disk :=
  match d.resolve path with
  | .error err => (.error err,d)
  | .ok place =>
    match d.item place with
    | some (.file writable _) => (.ok content.length,d.put place (.file writable content))
    | _ => (.error eisdir,d)

def answer (d : Disk) : (op : FsOp) → FsAns op × Disk
  | .stat path => (d.stat path,d)
  | .mkdirAll path perm => d.mkdirAll path perm
  | .openFile path perm => d.openFile path perm
  | .copyTo path content => d.copyTo path content
  | .close _ => (none,d)

section
variable {d d' : Disk} {place : List Path}

theorem follow_append (d : Disk) (place : List Path) (ps qs : List Path) :
    d.follow place (ps ++ qs) = d.follow place ps >>= fun l => d.follow l qs := List.foldlM_append

theorem follow_cons (d : Disk) (place : List Path) (piece : Path) (ps : List Path) :
    d.follow place (piece :: ps) = d.enter place piece >>= fun l => d.follow l ps := List.foldlM_cons

theorem follow_singleton (d : Disk) (place : List Path) (piece : Path) :
    d.follow place [piece] = d.enter place piece := by
  rw [follow_cons]
  cases d.enter place piece <;> rfl

theorem bind_eq_ok {α β : Type} {x : Except OsError α} {f : α → Except OsError β} {b : β} :
    x >>= f = .ok b ↔ ∃ a, x = .ok a ∧ f a = .ok b := by
  cases x with
  | error err =>
    refine iff_of_false (fun h => ?_) ?_
    · cases h
    · rintro ⟨a,ha,-⟩
      cases ha
  | ok a =>
    constructor
    · exact fun h => ⟨a,rfl,h⟩
    · rintro ⟨b,hb,h⟩
      cases hb
      exact h

theorem follow_append_iff {ps qs l : List Path} :
    d.follow place (ps ++ qs) = .ok l ↔ ∃ m, d.follow place ps = .ok m ∧ d.follow m qs = .ok l := by
  rw [follow_append, bind_eq_ok]

theorem follow_cons_iff {piece : Path} {ps l : List Path} :
    d.follow place (piece :: ps) = .ok l ↔ ∃ m, d.enter place piece = .ok m ∧ d.follow m ps = .ok l := by
  rw [follow_cons, bind_eq_ok]

theorem directory_of_enter {piece : Path} {l : List Path} (h : d.enter place piece = .ok l) :
    ∃ w, d.item place = some (.directory w) := by
  rw [enter] at h
  cases hitem : d.item place with
  | none =>
    rw [hitem] at h
    cases h
  | some item =>
    rw [hitem] at h
    cases item with
    | directory w => exact ⟨w,rfl⟩
    | file w content => cases h

section
variable {w : Bool} (h : d.item place = some (.directory w))
include h

theorem enter_directory (piece : Path) :
    d.enter place piece =
      if piece = [] ∨ piece = dot then .ok place
      else if piece = dotdot then .ok place.dropLast
      else if (d.item (place ++ [piece])).isSome then .ok (place ++ [piece])
      else .error enoent := by
  rw [enter, h]

theorem enter_same {piece : Path} (hpiece : piece = [] ∨ piece = dot) : d.enter place piece = .ok place := by
  rw [enter_directory h, if_pos hpiece]

theorem enter_dotdot : d.enter place dotdot = .ok place.dropLast := by
  rw [enter_directory h, if_neg (by decide), if_pos rfl]

theorem enter_name {n : Path} (hn : IsName n) {item : Item} (hitem : d.item (place ++ [n]) = some item) :
    d.enter place n = .ok (place ++ [n]) := by
  rw [enter_directory h, if_neg (not_or.mpr ⟨hn.nonempty,hn.notDot⟩), if_neg hn.notDotdot, hitem]
  rfl

theorem enter_missing {n : Path} (hn : IsName n) (hitem : d.item (place ++ [n]) = none) :
    d.enter place n = .error enoent := by
  rw [enter_directory h, if_neg (not_or.mpr ⟨hn.nonempty,hn.notDot⟩), if_neg hn.notDotdot, hitem]
  rfl

end

theorem follow_concat {ns l : List Path} {n : Path} {w : Bool} {item : Item} (hfollow : d.follow place ns = .ok l)
    (hdir : d.item l = some (.directory w)) (hn : IsName n) (hitem : d.item (l ++ [n]) = some item) :
    d.follow place (ns ++ [n]) = .ok (l ++ [n]) := by
  refine follow_append_iff.mpr ⟨l,hfollow,?_⟩
  rw [follow_singleton, enter_name hdir hn hitem]

theorem enter_name_eq {n : Path} (hn : IsName n) {l : List Path} (h : d.enter place n = .ok l) :
    l = place ++ [n] := by
  obtain ⟨w,hdir⟩ := directory_of_enter h
  rw [enter_directory hdir, if_neg (not_or.mpr ⟨hn.nonempty,hn.notDot⟩), if_neg hn.notDotdot] at h
  split_ifs at h
  exact (Except.ok.inj h).symm

theorem follow_filter {ps l : List Path} (h : d.follow place ps = .ok l) :
    d.follow place (ps.filter fun e => e ≠ [] ∧ e ≠ dot) = .ok l := by
  induction ps generalizing place with
  | nil => exact h
  | cons piece ps ih =>
    obtain ⟨m,hm,hps⟩ := follow_cons_iff.mp h
    obtain ⟨w,hdir⟩ := directory_of_enter hm
    by_cases hpiece : piece ≠ [] ∧ piece ≠ dot
    · rw [List.filter_cons, if_pos (decide_eq_true hpiece)]
      exact follow_cons_iff.mpr ⟨m,hm,ih hps⟩
    · rw [List.filter_cons, if_neg fun h => hpiece (of_decide_eq_true h)]
      have hsame : piece = [] ∨ piece = dot := by
        by_contra hnot
        exact hpiece (not_or.mp hnot)
      rw [enter_same hdir hsame] at hm
      exact ih (Except.ok.inj hm ▸ hps)

/-- A name that is left again by `..` makes no difference. -/
theorem follow_climb {es l : List Path} (hes : ∀ e ∈ es, IsElement e) (h : d.follow place es = .ok l) :
    d.follow place (climb es).elements = .ok l := by
  induction es using List.reverseRecOn generalizing l with
  | nil => exact h
  | append_singleton es e ih =>
    have hes' : ∀ f ∈ es, IsElement f := fun f hf => hes f (List.mem_append_left _ hf)
    obtain ⟨m,hm,he⟩ := follow_append_iff.mp h
    rw [follow_singleton] at he
    have hclimb := ih hes' hm
    rw [climb_concat]
    by_cases hdd : e = dotdot
    · subst hdd
      obtain ⟨w,hdir⟩ := directory_of_enter he
      rw [enter_dotdot hdir] at he
      obtain rfl := Except.ok.inj he
      rcases List.eq_nil_or_concat' (climb es).downs with hnil | ⟨init,n,hinit⟩
      · rw [step_dotdot_nil hnil, Climb.elements, List.replicate_succ', List.append_nil]
        refine follow_append_iff.mpr ⟨m,?_,?_⟩
        · rwa [Climb.elements, hnil, List.append_nil] at hclimb
        · rw [follow_singleton, enter_dotdot hdir]
      · have hn : IsName n := isName_of_mem_downs hes' (hinit ▸ by simp)
        rw [step_dotdot_of_ne (by simp [hinit]), Climb.elements]
        rw [Climb.elements, hinit, ← List.append_assoc] at hclimb
        obtain ⟨k,hk,hlast⟩ := follow_append_iff.mp hclimb
        rw [follow_singleton] at hlast
        rw [hinit, List.dropLast_concat, enter_name_eq hn hlast, List.dropLast_concat]
        exact hk
    · rw [step_name _ hdd, Climb.elements, ← List.append_assoc]
      exact follow_append_iff.mpr ⟨m,hclimb,by rw [follow_singleton, he]⟩

theorem follow_replicate_root {u : ℕ} {l : List Path} (h : d.follow [] (List.replicate u dotdot) = .ok l) :
    l = [] := by
  induction u generalizing l with
  | zero => exact (Except.ok.inj h).symm
  | succ u ih =>
    rw [List.replicate_succ'] at h
    obtain ⟨m,hm,hlast⟩ := follow_append_iff.mp h
    obtain rfl := ih hm
    rw [follow_singleton] at hlast
    obtain ⟨w,hdir⟩ := directory_of_enter hlast
    rw [enter_dotdot hdir] at hlast
    exact (Except.ok.inj hlast).symm

theorem follow_anchor {dir : Path} {l : List Path} (h : d.resolve dir = .ok l) :
    d.follow (d.start dir) (anchor dir) = .ok l := by
  rw [resolve] at h
  split_ifs at h with hnil
  have hclimb := follow_climb (fun e he => isElement_of_mem he) (follow_filter h)
  cases hroot : isRooted dir with
  | true =>
    obtain ⟨c,p,rfl⟩ := List.exists_cons_of_ne_nil hnil
    obtain rfl : c = '/' := Option.some.inj (of_decide_eq_true hroot)
    have hstart : d.start ('/' :: p) = [] := if_pos hroot
    rw [hstart] at h hclimb ⊢
    have hsplit : ('/' :: p).splitOn '/' = [] :: p.splitOn '/' :=
      List.splitOn_append_cons_self_of_not_mem List.not_mem_nil p
    rw [hsplit] at h
    obtain ⟨m,hm,-⟩ := follow_cons_iff.mp h
    obtain ⟨w,hdir⟩ := directory_of_enter hm
    obtain ⟨k,hk,hdowns⟩ := follow_append_iff.mp hclimb
    obtain rfl := follow_replicate_root hk
    rw [anchor, if_pos hroot]
    exact follow_cons_iff.mpr ⟨[],enter_same hdir (Or.inl rfl),hdowns⟩
  | false =>
    rw [anchor, hroot]
    exact hclimb

end

section
variable {d : Disk} {dir : Path} {l : List Path} (hdir : d.resolve dir = .ok l)
include hdir

theorem ne_nil_of_resolve : dir ≠ [] := by
  rintro rfl
  cases hdir

variable {ns : List Path} (hns : ∀ n ∈ ns, IsName n)
include hns

omit hdir in
theorem start_below : d.start (below dir ns) = d.start dir := by
  rw [start, isRooted_below hns, start]

theorem resolve_below (hne : ns ≠ []) : d.resolve (below dir ns) = d.follow l ns := by
  rw [resolve, if_neg (below_ne_nil hns dir), start_below hns, splitOn_below hns hne,
    follow_append, follow_anchor hdir]
  rfl

end

end Disk

end Whist.Configutils
