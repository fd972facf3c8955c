import Whist.Host.ArchiveTree

/-! # Extracting what was compressed -/
namespace Whist.Configutils
open Program Filepath

/-- Compressing a tree and extracting it into a directory succeeds, returns the size of the files,
and leaves what the tree has there. -/
def RoundTrip (src : Source) (d : Disk) (dest : Path) (place : List Path) : Prop :=
  ∃ file final, ((compressTarLz4 src.dir).serve Source.answer src).1 = .ok file ∧
    (extractTarLz4 file dest).serve Disk.answer d = ((src.tree.entries.size,none),final) ∧
    ∀ p, p ≠ [] → final.item (place ++ p) = src.tree.entries.lookup p

structure EmptyDestination (d : Disk) (dest : Path) (place : List Path) : Prop where
  created : ((createDestination dest).serve Disk.answer d).1 = none
  resolves : ((createDestination dest).serve Disk.answer d).2.resolve dest = .ok place
  directory : ((createDestination dest).serve Disk.answer d).2.item place = some (.directory true)
  empty : ∀ p, p ≠ [] → ((createDestination dest).serve Disk.answer d).2.item (place ++ p) = none

namespace Forest

theorem lookup_file_rest {name : Path} {perm : ℕ} {content : List UInt8} {rest : Forest}
    (h : (file name perm content rest).Proper) {p : List Path} {i : Item} (hp : rest.lookup p = some i) :
    (file name perm content rest).lookup p = some i := by
  rw [lookup, if_neg, hp]
  rintro rfl
  have hnone : rest.lookup [name] = none := lookup_eq_none fun n hn heq => by
    cases heq
    exact not_mem_names h.2.1 hn
  rw [hnone] at hp
  cases hp

theorem lookup_directory_rest {name : Path} {perm : ℕ} {entries rest : Forest}
    (h : (directory name perm entries rest).Proper) {p : List Path} {i : Item} (hp : rest.lookup p = some i) :
    (directory name perm entries rest).lookup p = some i := by
  have hhead : p.head? ≠ some name := by
    intro hhead
    have hnone : rest.lookup p = none := lookup_eq_none fun n hn heq => by
      rw [hhead] at heq
      cases heq
      exact not_mem_names h.2.1 hn
    rw [hnone] at hp
    cases hp
  rw [lookup, if_neg (by rintro rfl; exact hhead rfl), if_neg hhead, hp]

theorem lookup_directory_inner {name : Path} {perm : ℕ} {entries rest : Forest} {p : List Path} {i : Item}
    (hp : entries.lookup p = some i) : (directory name perm entries rest).lookup (name :: p) = some i := by
  have hne : p ≠ [] := by
    rintro rfl
    have hnone : entries.lookup [] = none := lookup_eq_none fun n _ h => by cases h
    rw [hnone] at hp
    cases hp
  rw [lookup, if_neg (by simpa using hne), if_pos (List.head?_cons), List.tail_cons, hp]

end Forest

namespace Source
variable (src : Source)

theorem answer_writeHeader (header : Header) : answer src (.writeHeader header) = (none,src) := rfl

theorem answer_close (path : Path) : answer src (.close path) = (none,src) := rfl

theorem tarFile_regular {ns : List Path} (hns : ∀ n ∈ ns, IsName n) (hne : ns ≠ []) {w : Bool}
    {content : List UInt8} {l : List Path} (hfollow : src.disk.follow src.place ns = .ok l)
    (hitem : src.disk.item l = some (.file w content)) (perm : ℕ) :
    (tarFile src.dir (below src.dir ns) (.ok ⟨.regular,perm⟩)).serve answer src =
      (.ok ⟨⟨slashed ns,⟨.regular,perm⟩⟩,content⟩,src) := by
  have hresolve : src.disk.resolve (below src.dir ns) = .ok l :=
    (Disk.resolve_below src.resolves hns hne).trans hfollow
  have hopen : answer src (.openToRead (below src.dir ns)) = (none,src) := by
    rw [answer, hresolve]
  have hcopy : answer src (.copyFrom (below src.dir ns)) = (.ok content,src) := by
    rw [answer, hresolve]
    dsimp only
    rw [hitem]
  have hheader : fileInfoHeader ⟨.regular,perm⟩ = .ok ⟨[],⟨.regular,perm⟩⟩ := rfl
  simp only [tarFile, hheader, rel_below hns hne, serve_bind, serve_perform, answer_writeHeader, hopen, hcopy,
    answer_close, serve_pure, if_true]

theorem tarFile_directory {path relPath : Path} (h : rel src.dir path = .ok relPath) (perm : ℕ) :
    (tarFile src.dir path (.ok ⟨.directory,perm⟩)).serve answer src =
      (.ok ⟨⟨relPath,⟨.directory,perm⟩⟩,[]⟩,src) := by
  have hheader : fileInfoHeader ⟨.directory,perm⟩ = .ok ⟨[],⟨.directory,perm⟩⟩ := rfl
  simp only [tarFile, hheader, h, serve_bind, serve_perform, answer_writeHeader, serve_pure, reduceCtorEq, if_false]

theorem tarVisits_cons {path : Path} {visit : Except OsError FileInfo} {entry : Entry} {rest : List (Path × Except OsError FileInfo)}
    {entries : List Entry} (hfile : (tarFile src.dir path visit).serve answer src = (.ok entry,src))
    (hrest : (tarVisits src.dir rest).serve answer src = (.ok entries,src)) :
    (tarVisits src.dir ((path,visit) :: rest)).serve answer src = (.ok (entry :: entries),src) := by
  simp only [tarVisits, serve_bind, hfile, hrest, serve_pure]

theorem tarVisits_forest {f : Forest} (hf : f.Proper) {path : Path} {ns l : List Path}
    (hns : ∀ n ∈ ns, IsName n) (hpath : ∀ n, IsName n → join [path,n] = below src.dir (ns ++ [n]))
    (hfollow : src.disk.follow src.place ns = .ok l) {w : Bool}
    (hdir : src.disk.item l = some (.directory w))
    (hholds : ∀ p i, f.lookup p = some i → src.disk.item (l ++ p) = some i)
    {more : List (Path × Except OsError FileInfo)} {entries : List Entry}
    (hmore : (tarVisits src.dir more).serve answer src = (.ok entries,src)) :
    (tarVisits src.dir (f.visits path ++ more)).serve answer src = (.ok (f.archived ns ++ entries),src) := by
  induction f generalizing path ns l w more entries with
  | nil => exact hmore
  | file name perm content rest ih =>
    have hname := hf.1
    have hitem := hholds [name] (.file (ownerWritable perm) content) (if_pos rfl)
    have hrest := ih hf.2.2 hns hpath hfollow hdir (fun p i hp => hholds p i (Forest.lookup_file_rest hf hp)) hmore
    refine src.tarVisits_cons ?_ hrest
    rw [hpath name hname]
    exact src.tarFile_regular (isName_concat hns hname) (by simp) (Disk.follow_concat hfollow hdir hname hitem)
      hitem perm
  | directory name perm inner rest ihi ihr =>
    have hname := hf.1
    have hnames := isName_concat hns hname
    have hitem := hholds [name] (.directory (ownerWritable perm)) (if_pos rfl)
    have hrest := ihr hf.2.2.2.2 hns hpath hfollow hdir
      (fun p i hp => hholds p i (Forest.lookup_directory_rest hf hp)) hmore
    have hjoin : ∀ n, IsName n → join [below src.dir (ns ++ [name]),n] = below src.dir (ns ++ [name] ++ [n]) :=
      fun n hn => join_below hnames hn
    have hinner := ihi hf.2.2.2.1 hnames hjoin
      (Disk.follow_concat hfollow hdir hname hitem) hitem (fun p i hp => ?_) hrest
    · rw [Forest.visits, Forest.archived, List.cons_append, List.cons_append, List.append_assoc, List.append_assoc,
        hpath name hname]
      exact src.tarVisits_cons (src.tarFile_directory (rel_below hnames (by simp)) perm) hinner
    · rw [List.append_assoc]
      exact hholds (name :: p) i (Forest.lookup_directory_inner hp)

theorem compressTarLz4_eq :
    (compressTarLz4 src.dir).serve answer src = (.ok ⟨src.tree.archived,.eof⟩,src) := by
  have hstat := Disk.stat_directory src.resolves src.isDirectory
  have hne := Disk.ne_nil_of_resolve src.resolves
  have hforest : (tarVisits src.dir (src.tree.entries.visits src.dir ++ [])).serve answer src =
      (.ok (src.tree.entries.archived [] ++ []),src) :=
    src.tarVisits_forest src.tree.proper (fun n hn => absurd hn List.not_mem_nil) (fun n hn => join_name hne hn)
      rfl src.isDirectory (fun p i hp => ?_) rfl
  · rw [List.append_nil, List.append_nil] at hforest
    have hvisits := src.tarVisits_cons (src.tarFile_directory (rel_self src.dir) src.tree.perm) hforest
    have hwalk : answer src (.walk src.dir) =
        ((src.dir,.ok ⟨.directory,src.tree.perm⟩) :: src.tree.entries.visits src.dir,src) := if_pos rfl
    have hask : answer src (.stat src.dir) = (src.disk.stat src.dir,src) := rfl
    simp only [compressTarLz4, serve_bind, serve_perform, hask, hstat, if_true, hwalk, hvisits, serve_pure]
    rfl
  · rw [src.holds p, hp]
    rintro rfl
    have hnone : src.tree.entries.lookup [] = none := Forest.lookup_eq_none fun n _ h => by cases h
    rw [hnone] at hp
    cases hp

end Source

namespace Disk

theorem special_eq_false {n : Path} (h : IsName n) : special n = false := by
  rw [special, decide_eq_false_iff_not, not_or, not_or]
  exact ⟨h.nonempty,h.notDot,h.notDotdot⟩

section
variable {d : Disk} {dest : Path} {root ns l : List Path} {n : Path} (hroot : d.resolve dest = .ok root)
  (hns : ∀ m ∈ ns, IsName m) (hn : IsName n) (hfollow : d.follow root ns = .ok l)
  (hdir : d.item l = some (.directory true)) (hnone : d.item (l ++ [n]) = none)
include hroot hns hn hfollow

theorem follow_parent : d.follow (d.start (below dest (ns ++ [n]))) (anchor dest ++ ns) = .ok l := by
  rw [start_below (isName_concat hns hn)]
  exact follow_append_iff.mpr ⟨root,follow_anchor hroot,hfollow⟩

omit hroot hfollow in
theorem splitOn_concat : (below dest (ns ++ [n])).splitOn '/' = anchor dest ++ ns ++ [n] := by
  rw [splitOn_below (isName_concat hns hn) (by simp), List.append_assoc]

omit hroot hfollow in
theorem trimmed_below : trimmed (below dest (ns ++ [n])) = anchor dest ++ ns ++ [n] := by
  rw [trimmed, splitOn_concat hns hn, List.rdropWhile_concat_neg]
  simpa using hn.nonempty

include hdir hnone

theorem openFile_below (perm : ℕ) :
    d.openFile (below dest (ns ++ [n])) perm = (none,d.put (l ++ [n]) (.file (ownerWritable perm) [])) := by
  rw [openFile, if_neg (below_ne_nil (isName_concat hns hn) dest), splitOn_concat hns hn, List.dropLast_concat,
    follow_parent hroot hns hn hfollow, List.getLastD_concat]
  dsimp only
  rw [special_eq_false hn, if_neg Bool.false_ne_true, hnone]
  dsimp only
  rw [create, hdir]
  rfl

theorem copyTo_below (writable : Bool) (content : List UInt8) :
    (d.put (l ++ [n]) (.file writable [])).copyTo (below dest (ns ++ [n])) content =
      (.ok content.length,d.put (l ++ [n]) (.file writable content)) := by
  have hext := extends_put hnone (.file writable [])
  have hitem := d.put_item_self (l ++ [n]) (.file writable [])
  have hresolve : (d.put (l ++ [n]) (.file writable [])).resolve (below dest (ns ++ [n])) = .ok (l ++ [n]) := by
    rw [resolve_below (hext.resolve hroot) (isName_concat hns hn) (by simp)]
    exact follow_concat (hext.follow hfollow) (hext.item hdir) hn hitem
  rw [copyTo, hresolve]
  dsimp only
  rw [hitem]
  dsimp only
  rw [put_put]

theorem stat_below : d.stat (below dest (ns ++ [n])) = .error enoent := by
  rw [stat, resolve_below hroot (isName_concat hns hn) (by simp), follow_append, hfollow]
  change ((d.follow l [n]) >>= _) = _
  rw [follow_singleton, enter_missing hdir hn hnone]
  rfl

theorem mkdir_below (perm : ℕ) :
    d.mkdir (below dest (ns ++ [n])) perm = (none,d.put (l ++ [n]) (.directory (ownerWritable perm))) := by
  rw [mkdir, if_neg (below_ne_nil (isName_concat hns hn) dest), trimmed_below hns hn, List.dropLast_concat,
    follow_parent hroot hns hn hfollow, List.getLastD_concat]
  dsimp only
  rw [special_eq_false hn, if_neg Bool.false_ne_true, hnone, Option.isSome_none, if_neg Bool.false_ne_true,
    create, hdir]
  rfl

omit hn hnone in
theorem stat_parent (hne : slashed (anchor dest ++ ns) ≠ []) :
    d.stat (slashed (anchor dest ++ ns)) = .ok ⟨.directory,0o700⟩ := by
  have hnil : anchor dest ++ ns ≠ [] := by
    intro h
    rw [h] at hne
    exact hne rfl
  have hresolve : d.resolve (slashed (anchor dest ++ ns)) = .ok l := by
    rw [resolve, if_neg hne, splitOn_slashed (slashless_anchor hns dest) hnil, start, isRooted_slashed_anchor hns hne]
    exact follow_append_iff.mpr ⟨root,follow_anchor hroot,hfollow⟩
  exact stat_directory hresolve hdir

theorem mkdirAll_below (perm : ℕ) :
    d.mkdirAll (below dest (ns ++ [n])) perm = (none,d.put (l ++ [n]) (.directory (ownerWritable perm))) := by
  have htrimmed : trimmed (below dest (ns ++ [n])) = anchor dest ++ ns ++ [n] := trimmed_below hns hn
  have hparent : (if slashed (anchor dest ++ ns) = [] then (none,d)
      else mkdirAllIn (below dest (ns ++ [n])).length d (slashed (anchor dest ++ ns)) perm) = (none,d) := by
    by_cases hnil : slashed (anchor dest ++ ns) = []
    · rw [if_pos hnil]
    · obtain ⟨c,p,hcons⟩ := List.exists_cons_of_ne_nil (below_ne_nil (isName_concat hns hn) dest)
      rw [if_neg hnil, hcons, List.length_cons, mkdirAllIn, stat_parent hroot hns hfollow hdir hnil]
      rfl
  rw [mkdirAll, mkdirAllIn, stat_below hroot hns hn hfollow hdir hnone]
  dsimp only
  rw [htrimmed, List.dropLast_concat, hparent]
  dsimp only
  rw [mkdir_below hroot hns hn hfollow hdir hnone]

theorem untarEntry_file (name : Path) (perm : ℕ) (content : List UInt8) :
    (untarEntry (below dest (ns ++ [n])) ⟨⟨name,⟨.regular,perm⟩⟩,content⟩).serve answer d =
      (.ok content.length,d.put (l ++ [n]) (.file (ownerWritable perm) content)) := by
  have hopen : answer d (.openFile (below dest (ns ++ [n])) perm) =
      (none,d.put (l ++ [n]) (.file (ownerWritable perm) [])) :=
    openFile_below hroot hns hn hfollow hdir hnone perm
  have hcopy : answer (d.put (l ++ [n]) (.file (ownerWritable perm) [])) (.copyTo (below dest (ns ++ [n])) content) =
      (.ok content.length,d.put (l ++ [n]) (.file (ownerWritable perm) content)) :=
    copyTo_below hroot hns hn hfollow hdir hnone _ content
  simp only [untarEntry, reduceCtorEq, if_false, serve_bind, serve_perform, hopen, hcopy, closeFile, serve_pure]
  rfl

theorem untarEntry_directory (name : Path) (perm : ℕ) :
    (untarEntry (below dest (ns ++ [n])) ⟨⟨name,⟨.directory,perm⟩⟩,[]⟩).serve answer d =
      (.ok 0,d.put (l ++ [n]) (.directory (ownerWritable perm))) := by
  have hmkdir : answer d (.mkdirAll (below dest (ns ++ [n])) perm) =
      (none,d.put (l ++ [n]) (.directory (ownerWritable perm))) :=
    mkdirAll_below hroot hns hn hfollow hdir hnone perm
  simp only [untarEntry, if_true, serve_bind, serve_perform, hmkdir, serve_pure]

end

theorem untarEntry_root {d : Disk} {dest : Path} {root : List Path} {w : Bool} (hroot : d.resolve dest = .ok root)
    (hdir : d.item root = some (.directory w)) (perm : ℕ) :
    (untarEntry dest ⟨⟨dot,⟨.directory,perm⟩⟩,[]⟩).serve answer d = (.ok 0,d) := by
  have hstat := stat_directory hroot hdir
  have hmkdir : answer d (.mkdirAll dest perm) = (none,d) := by
    change d.mkdirAll dest perm = (none,d)
    rw [mkdirAll, mkdirAllIn, hstat]
    rfl
  simp only [untarEntry, if_true, serve_bind, serve_perform, hmkdir, serve_pure]

theorem untar_cons {d d' : Disk} {dest : Path} {entry : Entry} {numBytes : ℕ} (hlegal : legal dest entry.header.name)
    (hentry : (untarEntry (join [dest,entry.header.name]) entry).serve answer d = (.ok numBytes,d'))
    (rest : List Entry) (ending : Ending) (totalBytes : ℕ) :
    (untar dest (entry :: rest) ending totalBytes).serve answer d =
      (untar dest rest ending (totalBytes + numBytes)).serve answer d' := by
  simp only [untar, hlegal, if_true, serve_bind, hentry]

theorem legal_of_untar {d : Disk} {dest : Path} {entries : List Entry} {ending : Ending} {totalBytes : ℕ}
    (h : ((untar dest entries ending totalBytes).serve answer d).1.2 = none) :
    ∀ e ∈ entries, legal dest e.header.name := by
  induction entries generalizing d totalBytes with
  | nil => exact fun e he => absurd he List.not_mem_nil
  | cons entry rest ih =>
    rw [untar] at h
    by_cases hlegal : legal dest entry.header.name
    · rw [if_pos hlegal, serve_bind] at h
      cases hentry : ((untarEntry (join [dest,entry.header.name]) entry).serve answer d).1 with
      | error err =>
        rw [hentry] at h
        cases h
      | ok numBytes =>
        rw [hentry] at h
        exact List.forall_mem_cons.mpr ⟨hlegal,ih h⟩
    · rw [if_neg hlegal] at h
      cases h

theorem Free.put {d : Disk} {place : List Path} {f : Forest} (h : d.Free place f) {name : Path}
    (hname : name ∉ f.names) (item : Item) : (d.put (place ++ [name]) item).Free place f := by
  intro n hn p
  rw [put_item_of_ne, h n hn p]
  intro heq
  have hcons := List.append_cancel_left heq
  exact hname ((List.cons.inj hcons).1 ▸ hn)

theorem Free.plant {d : Disk} {place : List Path} {f g : Forest} (h : d.Free place f) {name : Path}
    (hname : name ∉ f.names) : (d.plant (place ++ [name]) g).Free place f := by
  intro n hn p
  rw [plant_item_of_not_below, h n hn p]
  intro m _ q heq
  rw [List.append_assoc] at heq
  have hcons := List.append_cancel_left heq
  exact hname ((List.cons.inj hcons).1 ▸ hn)

theorem untar_forest {f : Forest} (hf : f.Proper) {d : Disk} {dest : Path} {root ns l : List Path}
    (hroot : d.resolve dest = .ok root) (hns : ∀ m ∈ ns, IsName m) (hfollow : d.follow root ns = .ok l)
    (hdir : d.item l = some (.directory true)) (hfree : d.Free l f)
    (hlegal : ∀ e ∈ f.archived ns, legal dest e.header.name) (more : List Entry) (ending : Ending) (total : ℕ) :
    (untar dest (f.archived ns ++ more) ending total).serve answer d =
      (untar dest more ending (total + f.size)).serve answer (d.plant l f) := by
  have hne := ne_nil_of_resolve hroot
  induction f generalizing d ns l more total with
  | nil => rfl
  | file name perm content rest ih =>
    have hnames := isName_concat hns hf.1
    have hnone := hfree name List.mem_cons_self []
    have hext := extends_put hnone (.file (ownerWritable perm) content)
    obtain ⟨hfirst,hlater⟩ := List.forall_mem_cons.mp hlegal
    have hfree' : d.Free l rest := fun n hn => hfree n (List.mem_cons_of_mem _ hn)
    have hentry := untarEntry_file hroot hns hf.1 hfollow hdir hnone (slashed (ns ++ [name])) perm content
    rw [← join_slashed hnames hne] at hentry
    rw [Forest.archived, List.cons_append, untar_cons hfirst hentry,
      ih hf.2.2 (hext.resolve hroot) hns (hext.follow hfollow) (hext.item hdir)
        (hfree'.put (Forest.not_mem_names hf.2.1) _) hlater, Forest.size, Nat.add_assoc]
    rfl
  | directory name perm inner rest ihi ihr =>
    obtain ⟨hname,hlt,hwritable,hinner,hrest⟩ := hf
    have hnames := isName_concat hns hname
    have hnone := hfree name List.mem_cons_self []
    have hext := extends_put hnone (.directory (ownerWritable perm))
    have hitem := d.put_item_self (l ++ [name]) (.directory (ownerWritable perm))
    obtain ⟨hfirst,hlater⟩ := List.forall_mem_cons.mp hlegal
    have hfreeInner : (d.put (l ++ [name]) (.directory (ownerWritable perm))).Free (l ++ [name]) inner := by
      intro n _ p
      rw [put_item_of_ne, List.append_assoc]
      · exact hfree name List.mem_cons_self (n :: p)
      · simp
    have hfreeRest : (d.put (l ++ [name]) (.directory (ownerWritable perm))).Free l rest :=
      Free.put (fun n hn => hfree n (List.mem_cons_of_mem _ hn)) (Forest.not_mem_names hlt) _
    have hext' := hext.trans (extends_plant hfreeInner)
    have hentry := untarEntry_directory hroot hns hname hfollow hdir hnone (slashed (ns ++ [name])) perm
    rw [← join_slashed hnames hne] at hentry
    rw [Forest.archived, List.cons_append, untar_cons hfirst hentry, List.append_assoc,
      ihi hinner (hext.resolve hroot) hnames (follow_concat (hext.follow hfollow) (hext.item hdir) hname hitem)
        (by rw [hitem, hwritable]) hfreeInner fun e he => hlater e (List.mem_append_left _ he),
      ihr hrest (hext'.resolve hroot) hns (hext'.follow hfollow) (hext'.item hdir)
        (hfreeRest.plant (Forest.not_mem_names hlt)) fun e he => hlater e (List.mem_append_right _ he),
      Forest.size, Nat.add_zero, Nat.add_assoc]
    rfl

end Disk

namespace Forest

theorem mem_archived_of_mem_names {f : Forest} {ns : List Path} {n : Path} (hn : n ∈ f.names) :
    ∃ e ∈ f.archived ns, e.header.name = slashed (ns ++ [n]) := by
  induction f with
  | nil => exact absurd hn List.not_mem_nil
  | file name perm content rest ih =>
    rcases List.mem_cons.mp hn with rfl | hn
    · exact ⟨_,List.mem_cons_self,rfl⟩
    · obtain ⟨e,he,hname⟩ := ih hn
      exact ⟨e,List.mem_cons_of_mem _ he,hname⟩
  | directory name perm entries rest _ ih =>
    rcases List.mem_cons.mp hn with rfl | hn
    · exact ⟨_,List.mem_cons_self,rfl⟩
    · obtain ⟨e,he,hname⟩ := ih hn
      exact ⟨e,List.mem_cons_of_mem _ (List.mem_append_right _ he),hname⟩

theorem name_of_mem_archived {f : Forest} (hf : f.Proper) {ns : List Path} {e : Entry} (he : e ∈ f.archived ns) :
    ∃ n ∈ f.names, ∃ q, (∀ m ∈ n :: q, IsName m) ∧ e.header.name = slashed (ns ++ n :: q) := by
  induction f generalizing ns with
  | nil => exact absurd he List.not_mem_nil
  | file name perm content rest ih =>
    rcases List.mem_cons.mp he with rfl | he
    · exact ⟨name,List.mem_cons_self,[],by simpa using hf.1,rfl⟩
    · obtain ⟨n,hn,h⟩ := ih hf.2.2 he
      exact ⟨n,List.mem_cons_of_mem _ hn,h⟩
  | directory name perm entries rest ihe ihr =>
    rcases List.mem_cons.mp he with rfl | he
    · exact ⟨name,List.mem_cons_self,[],by simpa using hf.1,rfl⟩
    · rcases List.mem_append.mp he with he | he
      · obtain ⟨n,-,q,hq,hname⟩ := ihe hf.2.2.2.1 he
        refine ⟨name,List.mem_cons_self,n :: q,List.forall_mem_cons.mpr ⟨hf.1,hq⟩,?_⟩
        rw [hname, List.append_assoc]
        rfl
      · obtain ⟨n,hn,h⟩ := ihr hf.2.2.2.2 he
        exact ⟨n,List.mem_cons_of_mem _ hn,h⟩

end Forest

theorem legal_dot {dest : Path} (hne : dest ≠ []) : legal dest dot ↔ clean dest = dest := by
  rw [legal, List.isPrefixOf_iff_prefix, join_dot hne]
  exact ⟨clean_eq_of_begins hne,fun h => by rw [h]⟩

theorem legal_dot_slashed {n : Path} {q : List Path} (hq : ∀ m ∈ n :: q, IsName m) :
    legal dot (slashed (n :: q)) ↔ n.head? = some '.' := by
  have hne := (hq n List.mem_cons_self).nonempty
  rw [legal, List.isPrefixOf_iff_prefix, join_slashed hq (by decide), below_dot _ hq (List.cons_ne_nil n q),
    ← head_slashed q hne]
  cases slashed (n :: q) with
  | nil => exact iff_of_false (by decide) (by decide)
  | cons c p =>
    rw [dot, List.cons_prefix_cons, List.head?_cons, Option.some_inj]
    exact ⟨fun h => h.1.symm,fun h => ⟨h.symm,List.nil_prefix⟩⟩

theorem legal_of_clean {dest : Path} (hclean : clean dest = dest) (hne : dest ≠ []) (hdot : dest ≠ dot)
    {q : List Path} (hq : ∀ m ∈ q, IsName m) : legal dest (slashed q) := by
  rw [legal, List.isPrefixOf_iff_prefix, join_slashed hq hne]
  exact prefix_below hclean hdot hq

theorem extractTarLz4_eq {d : Disk} {dest : Path} (h : ((createDestination dest).serve Disk.answer d).1 = none)
    (file : Archive) :
    (extractTarLz4 file dest).serve Disk.answer d =
      (untar dest file.entries file.ending 0).serve Disk.answer
        ((createDestination dest).serve Disk.answer d).2 := by
  rw [extractTarLz4, serve_bind, h]

/-- Into an empty destination the round trip succeeds exactly if the destination is spelled in its
clean form and, where that is the working directory, all names in the tree's directory begin
with a dot. -/
theorem roundTrip_iff (src : Source) {d : Disk} {dest : Path} {place : List Path}
    (h : EmptyDestination d dest place) :
    RoundTrip src d dest place ↔
      clean dest = dest ∧ (dest = dot → ∀ n ∈ src.tree.entries.names, n.head? = some '.') := by
  have hne := Disk.ne_nil_of_resolve h.resolves
  have hcompress := src.compressTarLz4_eq
  have hextract := extractTarLz4_eq h.created ⟨src.tree.archived,.eof⟩
  constructor
  · rintro ⟨file,final,hfile,hrun,-⟩
    rw [hcompress] at hfile
    obtain rfl := Except.ok.inj hfile
    have hlegal := Disk.legal_of_untar (by rw [← hextract, hrun])
    obtain ⟨hroot,hentries⟩ := List.forall_mem_cons.mp hlegal
    refine ⟨(legal_dot hne).mp hroot,?_⟩
    rintro rfl n hn
    obtain ⟨e,he,hname⟩ : ∃ e ∈ src.tree.entries.archived [], e.header.name = slashed ([] ++ [n]) :=
      Forest.mem_archived_of_mem_names hn
    have hone : ∀ m ∈ [n], IsName m := by simpa using Forest.isName_of_mem src.tree.proper hn
    exact (legal_dot_slashed hone).mp (hname ▸ hentries e he)
  · rintro ⟨hclean,hdots⟩
    have hlegal : ∀ e ∈ src.tree.entries.archived [], legal dest e.header.name := by
      intro e he
      obtain ⟨n,hn,q,hq,hname⟩ := Forest.name_of_mem_archived src.tree.proper he
      rw [hname, List.nil_append]
      by_cases hdot : dest = dot
      · subst hdot
        exact (legal_dot_slashed hq).mpr (hdots rfl n hn)
      · exact legal_of_clean hclean hne hdot hq
    have hroot := Disk.untarEntry_root h.resolves h.directory src.tree.perm
    have hjoin : join [dest,dot] = dest := by rw [join_dot hne, hclean]
    have hfree : ((createDestination dest).serve Disk.answer d).2.Free place src.tree.entries :=
      fun n _ p => h.empty (n :: p) (List.cons_ne_nil n p)
    have hrun : (untar dest (src.tree.entries.archived [] ++ []) .eof 0).serve Disk.answer
        ((createDestination dest).serve Disk.answer d).2 = _ :=
      Disk.untar_forest src.tree.proper h.resolves (fun m hm => absurd hm List.not_mem_nil) rfl h.directory hfree
        hlegal [] .eof 0
    rw [List.append_nil, Nat.zero_add] at hrun
    refine ⟨_,((createDestination dest).serve Disk.answer d).2.plant place src.tree.entries,
      by rw [hcompress],?_,fun p hp => ?_⟩
    · rw [hextract]
      change (untar dest (_ :: src.tree.entries.archived []) .eof 0).serve Disk.answer _ = _
      rw [Disk.untar_cons ((legal_dot hne).mpr hclean) (by rw [hjoin]; exact hroot)]
      exact hrun
    · rw [Disk.plant_item _ _ src.tree.proper, h.empty p hp, Option.or_none]

def bare : Disk := ⟨fun l => if l = [] then some (.directory true) else none,[]⟩

def oneFile : Tree := ⟨0o755,.file ['b'] 0o644 [1,2] .nil,⟨by constructor <;> decide,by decide,trivial⟩⟩

def oneFileSource : Source where
  disk := (bare.put [['s']] (.directory true)).plant [['s']] oneFile.entries
  dir := ['/','s']
  place := [['s']]
  tree := oneFile
  resolves := rfl
  isDirectory := rfl
  holds p hp := by
    have hnone : (bare.put [['s']] (.directory true)).item ([['s']] ++ p) = none := by
      rw [Disk.put_item_of_ne _ (by simpa using hp)]
      rfl
    rw [Disk.plant_item _ _ oneFile.proper, hnone, Option.or_none]

theorem emptyDestination_bare {dest : Path}
    (hcreate : (createDestination dest).serve Disk.answer bare = (none,bare.put [['t']] (.directory true)))
    (hresolve : (bare.put [['t']] (.directory true)).resolve dest = .ok [['t']]) :
    EmptyDestination bare dest [['t']] := by
  refine ⟨by rw [hcreate],by rw [hcreate, hresolve],by rw [hcreate, Disk.put_item_self],fun p hp => ?_⟩
  rw [hcreate, Disk.put_item_of_ne _ (by simpa using hp)]
  rfl

theorem roundTrip_oneFile : RoundTrip oneFileSource bare ['/','t'] [['t']] :=
  (roundTrip_iff oneFileSource (emptyDestination_bare rfl rfl)).mpr ⟨by decide,by decide⟩

/-- `/t/` is created, and then the entry of the directory itself is refused. -/
theorem roundTrip_fails :
    ¬ ∀ (src : Source) (d : Disk) (dest : Path) (place : List Path), EmptyDestination d dest place →
      RoundTrip src d dest place := by
  intro h
  have hempty : EmptyDestination bare ['/','t','/'] [['t']] := emptyDestination_bare rfl rfl
  obtain ⟨file,final,hfile,hrun,-⟩ := h oneFileSource bare _ _ hempty
  rw [oneFileSource.compressTarLz4_eq] at hfile
  obtain rfl := Except.ok.inj hfile
  rw [extractTarLz4_eq hempty.created] at hrun
  have hlegal := Disk.legal_of_untar (congrArg (fun r => r.1.2) hrun)
  exact absurd (hlegal _ List.mem_cons_self) (by decide)

end Whist.Configutils
