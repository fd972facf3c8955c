import Whist.Host.ArchiveDisk

/-! # Trees of files and directories

What is compressed: a directory with everything below it.  The entries of a directory stand
in lexical order, as `filepath.Walk` visits them.
-/
namespace Whist.Configutils
open Program Filepath

inductive Forest where
  | nil
  | file (name : Path) (perm : ℕ) (content : List UInt8) (rest : Forest)
  | directory (name : Path) (perm : ℕ) (entries rest : Forest)

namespace Forest

def names : Forest → List Path
  | nil => []
  | file name _ _ rest => name :: rest.names
  | directory name _ _ rest => name :: rest.names

def Proper : Forest → Prop
  | nil => True
  | file name _ _ rest => IsName name ∧ (∀ n ∈ rest.names, name < n) ∧ rest.Proper
  | directory name perm entries rest =>
    IsName name ∧ (∀ n ∈ rest.names, name < n) ∧ ownerWritable perm ∧ entries.Proper ∧ rest.Proper

def size : Forest → ℕ
  | nil => 0
  | file _ _ content rest => content.length + rest.size
  | directory _ _ entries rest => entries.size + rest.size

def lookup : Forest → List Path → Option Item
  | nil, _ => none
  | file name perm content rest, p =>
    if p = [name] then some (.file (ownerWritable perm) content) else rest.lookup p
  | directory name perm entries rest, p =>
    if p = [name] then some (.directory (ownerWritable perm))
    else if p.head? = some name then entries.lookup p.tail
    else rest.lookup p

/-- The calls that `filepath.Walk` makes for the entries of the directory `path`. -/
def visits (path : Path) : Forest → List (Path × Except OsError FileInfo)
  | nil => []
  | file name perm _ rest => (join [path,name],.ok ⟨.regular,perm⟩) :: rest.visits path
  | directory name perm entries rest =>
    (join [path,name],.ok ⟨.directory,perm⟩) :: (entries.visits (join [path,name]) ++ rest.visits path)

/-- The entries of the archive for what is in the directory with the relative path `ns`. -/
def archived (ns : List Path) : Forest → List Entry
  | nil => []
  | file name perm content rest =>
    ⟨⟨slashed (ns ++ [name]),⟨.regular,perm⟩⟩,content⟩ :: rest.archived ns
  | directory name perm entries rest =>
    ⟨⟨slashed (ns ++ [name]),⟨.directory,perm⟩⟩,[]⟩ :: (entries.archived (ns ++ [name]) ++ rest.archived ns)

end Forest

structure Tree where
  perm : ℕ
  entries : Forest
  proper : entries.Proper

def Tree.archived (t : Tree) : List Entry := ⟨⟨dot,⟨.directory,t.perm⟩⟩,[]⟩ :: t.entries.archived []

/-- A disk with a tree at the directory `dir`. -/
structure Source where
  disk : Disk
  dir : Path
  place : List Path
  tree : Tree
  resolves : disk.resolve dir = .ok place
  isDirectory : disk.item place = some (.directory (ownerWritable tree.perm))
  holds : ∀ p, p ≠ [] → disk.item (place ++ p) = tree.entries.lookup p

/-- The disk and the tar writer, while nothing on the disk changes. -/
def Source.answer (src : Source) : (op : SourceOp) → SourceAns op × Source
  | .stat path => (src.disk.stat path,src)
  | .walk root =>
    if root = src.dir then ((root,.ok ⟨.directory,src.tree.perm⟩) :: src.tree.entries.visits root,src)
    else ([(root,.error enoent)],src)
  | .writeHeader _ => (none,src)
  | .openToRead path =>
    match src.disk.resolve path with
    | .ok _ => (none,src)
    | .error err => (some err,src)
  | .copyFrom path =>
    match src.disk.resolve path with
    | .error err => (.error err,src)
    | .ok place =>
      match src.disk.item place with
      | some (.file _ content) => (.ok content,src)
      | _ => (.error eisdir,src)
  | .close _ => (none,src)

namespace Forest

theorem isName_of_mem {f : Forest} (h : f.Proper) {n : Path} (hn : n ∈ f.names) : IsName n := by
  induction f with
  | nil => exact absurd hn List.not_mem_nil
  | file name perm content rest ih =>
    rcases List.mem_cons.mp hn with rfl | hn
    · exact h.1
    · exact ih h.2.2 hn
  | directory name perm entries rest _ ih =>
    rcases List.mem_cons.mp hn with rfl | hn
    · exact h.1
    · exact ih h.2.2.2.2 hn

theorem lookup_eq_none {f : Forest} {p : List Path} (h : ∀ n ∈ f.names, p.head? ≠ some n) : f.lookup p = none := by
  induction f with
  | nil => rfl
  | file name perm content rest ih =>
    have hname := h name List.mem_cons_self
    rw [lookup, if_neg (by rintro rfl; exact hname rfl)]
    exact ih fun n hn => h n (List.mem_cons_of_mem _ hn)
  | directory name perm entries rest _ ih =>
    have hname := h name List.mem_cons_self
    rw [lookup, if_neg (by rintro rfl; exact hname rfl), if_neg hname]
    exact ih fun n hn => h n (List.mem_cons_of_mem _ hn)

theorem not_mem_names {f : Forest} {name : Path} (h : ∀ n ∈ f.names, name < n) : name ∉ f.names :=
  fun hmem => List.lt_irrefl name (h name hmem)

end Forest

namespace Disk

def plant (d : Disk) (place : List Path) : Forest → Disk
  | .nil => d
  | .file name perm content rest =>
    (d.put (place ++ [name]) (.file (ownerWritable perm) content)).plant place rest
  | .directory name perm entries rest =>
    ((d.put (place ++ [name]) (.directory (ownerWritable perm))).plant (place ++ [name]) entries).plant place rest

@[simp] theorem put_cwd (d : Disk) (place : List Path) (item : Item) : (d.put place item).cwd = d.cwd := rfl

@[simp] theorem put_item_self (d : Disk) (place : List Path) (item : Item) :
    (d.put place item).item place = some item := Function.update_self _ _ _

theorem put_item_of_ne (d : Disk) {place l : List Path} (h : l ≠ place) (item : Item) :
    (d.put place item).item l = d.item l := Function.update_of_ne h _ _

@[simp] theorem put_put (d : Disk) (place : List Path) (a b : Item) :
    (d.put place a).put place b = d.put place b := by
  rw [put, put, put]
  congr 1
  exact Function.update_idem _ _ _

@[simp] theorem plant_cwd (d : Disk) (place : List Path) (f : Forest) : (d.plant place f).cwd = d.cwd := by
  induction f generalizing d place with
  | nil => rfl
  | file name perm content rest ih => rw [plant, ih, put_cwd]
  | directory name perm entries rest ihe ihr => rw [plant, ihr, ihe, put_cwd]

theorem plant_item_of_not_below (d : Disk) {place l : List Path} {f : Forest}
    (h : ∀ n ∈ f.names, ∀ p, l ≠ place ++ n :: p) : (d.plant place f).item l = d.item l := by
  induction f generalizing d place with
  | nil => rfl
  | file name perm content rest ih =>
    rw [plant, ih _ fun n hn => h n (List.mem_cons_of_mem _ hn)]
    exact d.put_item_of_ne (h name List.mem_cons_self []) _
  | directory name perm entries rest ihe ihr =>
    have hname := h name List.mem_cons_self
    rw [plant, ihr _ fun n hn => h n (List.mem_cons_of_mem _ hn), ihe]
    · exact d.put_item_of_ne (hname []) _
    · intro n _ p
      rw [List.append_assoc]
      exact hname (n :: p)

theorem plant_item (d : Disk) (place : List Path) {f : Forest} (hf : f.Proper) (p : List Path) :
    (d.plant place f).item (place ++ p) = (f.lookup p).or (d.item (place ++ p)) := by
  induction f generalizing d place p with
  | nil => rfl
  | file name perm content rest ih =>
    rw [plant, ih _ _ hf.2.2, Forest.lookup]
    by_cases hp : p = [name]
    · subst hp
      have hnone : rest.lookup [name] = none := Forest.lookup_eq_none fun n hn h => by
        cases h
        exact Forest.not_mem_names hf.2.1 hn
      rw [hnone, if_pos rfl, put_item_self]
      rfl
    · rw [if_neg hp, put_item_of_ne]
      exact fun h => hp (List.append_cancel_left h)
  | directory name perm entries rest ihe ihr =>
    obtain ⟨hname,hlt,-,hentries,hrest⟩ := hf
    rw [plant, ihr _ _ hrest, Forest.lookup]
    by_cases hhead : p.head? = some name
    · obtain ⟨p,rfl⟩ : ∃ q, p = name :: q := by
        cases p with
        | nil => cases hhead
        | cons n p => exact ⟨p,by rw [Option.some.inj hhead]⟩
      have hnone : rest.lookup (name :: p) = none := Forest.lookup_eq_none fun n hn h => by
        cases h
        exact Forest.not_mem_names hlt hn
      have hinner := ihe (d.put (place ++ [name]) (.directory (ownerWritable perm))) (place ++ [name]) hentries p
      rw [List.append_assoc, List.singleton_append] at hinner
      rw [hnone, Option.none_or, hinner]
      by_cases hp : p = []
      · subst hp
        have hempty : entries.lookup [] = none := Forest.lookup_eq_none fun n _ h => by cases h
        rw [hempty, if_pos rfl, put_item_self]
        rfl
      · rw [if_neg (by simpa using hp), if_pos hhead, put_item_of_ne]
        · rfl
        · exact fun h => hp (by simpa using h)
    · rw [if_neg (by rintro rfl; exact hhead rfl), if_neg hhead, plant_item_of_not_below, put_item_of_ne]
      · intro h
        exact hhead (by rw [List.append_cancel_left h]; rfl)
      · intro n _ q h
        rw [List.append_assoc] at h
        exact hhead (by rw [List.append_cancel_left h]; rfl)

structure Extends (d d' : Disk) : Prop where
  cwd : d'.cwd = d.cwd
  item : ∀ {l i}, d.item l = some i → d'.item l = some i

theorem Extends.trans {d d' d'' : Disk} (h : Extends d d') (h' : Extends d' d'') : Extends d d'' :=
  ⟨h'.cwd.trans h.cwd,fun hl => h'.item (h.item hl)⟩

theorem extends_put {d : Disk} {place : List Path} (h : d.item place = none) (item : Item) :
    Extends d (d.put place item) := by
  refine ⟨rfl,fun {l i} hl => ?_⟩
  rw [put_item_of_ne, hl]
  rintro rfl
  rw [h] at hl
  cases hl

def Free (d : Disk) (place : List Path) (f : Forest) : Prop := ∀ n ∈ f.names, ∀ p, d.item (place ++ n :: p) = none

theorem extends_plant {d : Disk} {place : List Path} {f : Forest} (h : d.Free place f) :
    Extends d (d.plant place f) := by
  refine ⟨plant_cwd d place f,fun {l i} hl => ?_⟩
  rw [plant_item_of_not_below, hl]
  rintro n hn p rfl
  rw [h n hn p] at hl
  cases hl

variable {d d' : Disk} (h : Extends d d')
include h

theorem Extends.enter {place l : List Path} {piece : Path} (he : d.enter place piece = .ok l) :
    d'.enter place piece = .ok l := by
  obtain ⟨w,hdir⟩ := directory_of_enter he
  rw [enter_directory hdir] at he
  rw [enter_directory (h.item hdir)]
  by_cases hsome : (d.item (place ++ [piece])).isSome
  · obtain ⟨i,hi⟩ := Option.isSome_iff_exists.mp hsome
    rw [hi] at he
    rw [h.item hi]
    exact he
  · rw [if_neg hsome] at he
    split_ifs at he ⊢ with hsame hdd
    · exact he
    · exact he

theorem Extends.follow {place l : List Path} {ps : List Path} (hf : d.follow place ps = .ok l) :
    d'.follow place ps = .ok l := by
  induction ps generalizing place with
  | nil => exact hf
  | cons piece ps ih =>
    obtain ⟨m,hm,hps⟩ := follow_cons_iff.mp hf
    exact follow_cons_iff.mpr ⟨m,h.enter hm,ih hps⟩

theorem Extends.resolve {path : Path} {l : List Path} (hr : d.resolve path = .ok l) :
    d'.resolve path = .ok l := by
  rw [Disk.resolve] at hr ⊢
  split_ifs at hr ⊢ with hnil
  rw [start, h.cwd]
  exact h.follow hr

end Disk

end Whist.Configutils
