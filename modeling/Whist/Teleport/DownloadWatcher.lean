import Whist.Teleport.TransferTable

/-! # The download watcher

Each step of the watcher keeps what holds at its place: in the scan, and then for every event.
-/
namespace Whist.Teleport

variable {ι φ : Type} [DecidableEq ι] {s t : State ι φ} {K early earlyReady : Set ι}

def State.beginNewId (s : State ι φ) (q : List (Event ι φ)) (id : ι) : State ι φ :=
  { s.pop q with pc := .handleNewId none id }

omit [DecidableEq ι] in
theorem newIds_cons (q : List (Event ι φ)) (id : ι) :
    newIds (.newId id :: q) = insert id (newIds q) := by
  ext i
  simp [mem_newIds]

omit [DecidableEq ι] in
theorem registered_of_readEvent (hpc : s.pc = .readEvent) : registered s = ids s := by
  ext i
  refine ⟨fun hi => hi.resolve_right fun hi => ?_,.inl⟩
  change s.pc = _ at hi
  rw [hpc] at hi
  cases hi

omit [DecidableEq ι] in
theorem registered_beginNewId (s : State ι φ) (q : List (Event ι φ)) (id : ι) :
    registered (s.beginNewId q id) = insert id (ids s) := by
  ext i
  constructor
  · rintro (hi | hi)
    · exact .inr hi
    · cases hi
      exact .inl rfl
  · rintro (rfl | hi)
    · exact .inr rfl
    · exact .inl hi

section BeginNewId
variable {id : ι} {q : List (Event ι φ)} (hpc : s.pc = .readEvent) (hq : s.queue = .newId id :: q)
include hpc hq

omit [DecidableEq ι] in
theorem Running.beginNewId (h : Running s) : Running (s.beginNewId q id) := by
  have c := h.common
  rw [registered_of_readEvent hpc] at c
  have hann := c.queue
  rw [hq] at hann
  have hsame : insert id (ids s) ∪ newIds q = ids s ∪ newIds s.queue := by
    rw [hq, newIds_cons, Set.insert_union, Set.union_insert]
  refine ⟨?_,h.downloadsWatch,h.readyWatch,.inr (.inl ⟨id,rfl,hann.1⟩),h.entries,h.unregistered⟩
  rw [registered_beginNewId]
  exact ⟨c.inBounds,c.next,c.used,c.once,c.owned,c.owners,hann.2,fun i hi => c.created i (hsame ▸ hi),
    fun i hi => hsame.symm ▸ c.known i hi,fun i hi => hsame.symm ▸ c.watched i hi,c.fileDir,c.readyFile⟩

omit [DecidableEq ι] in
theorem Files.beginNewId (hf : Files ∅ s) : Files ∅ (s.beginNewId q id) := by
  intro i filename hfile
  rcases hf i filename hfile with hno | hnew | (hc | ⟨wd,hc⟩) | ⟨e,he,hid,hactive⟩
  · cases hno
  · rw [hq, newIds_cons] at hnew
    rcases hnew with rfl | hnew
    · exact .inr (.inr (.inl (.inl rfl)))
    · exact .inr (.inl hnew)
  · rw [hpc] at hc
    cases hc
  · rw [hpc] at hc
    cases hc
  · refine .inr (.inr (.inr ⟨e,he,hid,hactive.imp_right fun hevent => ?_⟩))
    rw [hq] at hevent
    exact (List.mem_cons.mp hevent).resolve_left (by rintro ⟨⟩)

end BeginNewId

section Close
variable (hle : s.nextTransferIdx ≤ MAX_TRANSFERS) (id : ι)
include hle

theorem kept_close (honce : (s.table.map FileTransferContext.id).Nodup) {e : FileTransferContext ι φ}
    (he : e ∈ s.table) :
    ∃ e' ∈ (s.inotifyHandleFileClose id).table, e'.id = e.id ∧ e'.createWd = e.createWd ∧
      e'.active = e.active ∧ (e.dataReady = true ∨ e.id = id → e'.dataReady = true) := by
  unfold State.inotifyHandleFileClose
  dsimp only
  rw [searchId_of_le hle]
  by_cases hid : e.id = id
  · have hhas : s.hasId id = true := List.any_eq_true.mpr ⟨e,he,by simpa using hid⟩
    rw [if_pos hhas]
    refine ⟨{ e with dataReady := true },?_,rfl,rfl,rfl,fun _ => rfl⟩
    refine mem_updateFirst_of_unique he (by simpa using hid) fun c hc hcid => ?_
    exact List.inj_on_of_nodup_map honce hc he ((of_decide_eq_true hcid).trans hid.symm)
  · split_ifs
    · exact ⟨e,mem_updateFirst_of_not he (by simpa using hid),rfl,rfl,rfl,fun hr => hr.resolve_right hid⟩
    · exact ⟨e,he,rfl,rfl,rfl,fun hr => hr.resolve_right hid⟩

end Close

theorem Running.close (h : Running s) (hpc : s.pc = .readEvent) (id : ι) :
    Running (s.inotifyHandleFileClose id) := by
  have hle : s.nextTransferIdx ≤ MAX_TRANSFERS := h.common.next ▸ h.common.used
  have heq := close_eq hle id
  have hids := ids_close s id
  have hpc' : (s.inotifyHandleFileClose id).pc = .readEvent := heq ▸ hpc
  have hcommon := h.common.close id
  rw [registered_of_readEvent hpc, ← hids, ← registered_of_readEvent hpc'] at hcommon
  refine ⟨hcommon,heq ▸ h.downloadsWatch,heq ▸ h.readyWatch,.inl hpc',?_,?_⟩
  · intro e he
    rcases mem_close hle he with he | ⟨e',he',rfl⟩
    · exact heq ▸ h.entries e he
    · exact heq ▸ h.entries e' he'
  · rw [hids, heq]
    exact h.unregistered

theorem Files.close (hf : Files ∅ s) (h : Common K s) (id : ι) : Files ∅ (s.inotifyHandleFileClose id) := by
  have hle : s.nextTransferIdx ≤ MAX_TRANSFERS := h.next ▸ h.used
  have heq := close_eq hle id
  intro i filename hfile
  rw [heq] at hfile
  rcases hf i filename hfile with hno | hnew | hc | ⟨e,he,hid,hactive⟩
  · cases hno
  · exact .inr (.inl (heq ▸ hnew))
  · exact .inr (.inr (.inl (heq ▸ hc)))
  · obtain ⟨e',he',hid',hwd,hact,-⟩ := kept_close hle id h.once he
    refine .inr (.inr (.inr ⟨e',he',hid'.trans hid,?_⟩))
    rw [hact, hwd, heq]
    exact hactive

theorem Readies.close {id : ι} (hr : Readies {id} s) (h : Common K s) (hid : id ∈ ids s) :
    Readies ∅ (s.inotifyHandleFileClose id) := by
  have hle : s.nextTransferIdx ≤ MAX_TRANSFERS := h.next ▸ h.used
  have heq := close_eq hle id
  intro i hi
  rw [heq] at hi
  rcases hr i hi with rfl | hevent | ⟨e,he,hid',hready⟩
  · obtain ⟨e,he,rfl⟩ := hid
    obtain ⟨e',he',hid',-,-,hready'⟩ := kept_close hle e.id h.once he
    exact .inr (.inr ⟨e',he',hid',hready' (.inr rfl)⟩)
  · exact .inr (.inl (heq ▸ hevent))
  · obtain ⟨e',he',hid'',-,-,hready'⟩ := kept_close hle id h.once he
    exact .inr (.inr ⟨e',he',hid''.trans hid',hready' (.inl hready)⟩)

structure Watching (s : State ι φ) : Prop where
  running : Running s
  files : Files ∅ s
  readies : Readies ∅ s

theorem Watching.protocol (h : Watching s) {m : Move ι φ} (hm : m.isProtocol = true)
    (ht : s.protocol m = some t) : Watching t :=
  ⟨h.running.protocol hm ht,h.files.protocol h.running hm ht,h.readies.protocol h.running hm ht⟩

theorem Watching.create (h : Watching s) (hpc : s.pc = .readEvent) {a : Event ι φ} {q : List (Event ι φ)}
    (hq : s.queue = a :: q) {wd : ℕ} (hmay : ∃ id ∈ registered s, s.owners[wd]? = some id)
    (hnew : ∀ id, a ≠ .newId id) (hready : ∀ id, a ≠ .readyFile id)
    (hwd : ∀ wd' filename, a = .fileCreate wd' filename → wd' = wd) (f : Option φ) :
    Watching ((s.pop q).inotifyHandleFileCreate wd f) := by
  obtain ⟨e,he,rfl⟩ := h.running.watchEvent hpc hmay
  have hpop := h.running.pop hq hnew
  have hfiles : Files {e.id} (s.pop q) := by
    refine h.files.pop hq hnew fun e' he' filename ha => ?_
    exact congrArg FileTransferContext.id (h.running.entry_of_createWd he he' (hwd _ filename ha))
  have hreadies : Readies ∅ (s.pop q) := h.readies.pop hq fun id ha => absurd ha (hready id)
  exact ⟨hpop.create he f,hpop.files_create he hfiles f,hpop.readies_create he hreadies f⟩

theorem Watching.handleEvent (h : Watching s) (hpc : s.pc = .readEvent) {a : Event ι φ}
    {q : List (Event ι φ)} (hq : s.queue = a :: q) : Watching ((s.pop q).handleEvent a) := by
  have hann := h.running.common.queue
  rw [hq] at hann
  cases a with
  | newId id =>
    refine ⟨h.running.beginNewId hpc hq,h.files.beginNewId hpc hq,?_⟩
    exact h.readies.pop hq fun _ ha => by cases ha
  | readyFile id =>
    have hid : id ∈ ids (s.pop q) := registered_of_readEvent hpc ▸ hann.1
    have hnew : ∀ i, Event.readyFile id ≠ (Event.newId i : Event ι φ) := fun i ha => by cases ha
    have hpop := h.running.pop hq hnew
    have hfiles : Files ∅ (s.pop q) := h.files.pop hq hnew fun _ _ _ ha => by cases ha
    have hreadies : Readies {id} (s.pop q) := by
      refine h.readies.pop hq fun i ha => ?_
      cases ha
      rfl
    exact ⟨hpop.close hpc id,hfiles.close hpop.common id,hreadies.close hpop.common hid⟩
  | fileCreate wd filename =>
    refine h.create hpc hq hann.1 (fun _ ha => by cases ha) (fun _ ha => by cases ha) ?_ _
    intro wd' f ha
    cases ha
    rfl
  | ignored wd =>
    exact h.create hpc hq hann.1 (fun _ ha => by cases ha) (fun _ ha => by cases ha)
      (fun _ _ ha => by cases ha) _

theorem ids_register (s : State ι φ) (scan : Option (ScanState ι)) (id : ι) :
    ids (s.register scan id) = insert id (ids s) := by
  ext i
  exact (ids_append s.table (s.newEntry id (s.addWatch id).1)).trans or_comm

structure Registered (s t : State ι φ) (id : ι) (wd : ℕ) : Prop where
  same : t = { s with
    owners := t.owners, live := t.live, table := t.table, nextTransferIdx := t.nextTransferIdx, pc := t.pc }
  table : t.table = s.table ++ [s.newEntry id wd]
  live : t.live id = some wd
  others : ∀ i, i ≠ id → t.live i = s.live i
  kept : ∀ (wd : ℕ) (i : ι), s.owners[wd]? = some i → t.owners[wd]? = some i
  owner : ∀ i ∈ t.owners, i = id ∨ i ∈ s.owners

theorem register_spec (h : Common K s) {id : ι} (hid : id ∈ K ∪ newIds s.queue)
    (hfresh : s.live id = none → id ∉ s.owners) (scan : Option (ScanState ι)) :
    Registered s (s.register scan id) id (s.addWatch id).1 := by
  have hwatch := (addWatch_spec h hid hfresh).2
  refine ⟨?_,rfl,hwatch.live,hwatch.others,hwatch.kept,hwatch.owner⟩
  have hsame := hwatch.same
  unfold State.register
  rw [hsame]

theorem Watching.register (h : Watching s) {id : ι} (hpc : s.pc = .handleNewId none id)
    (hfull : s.nextTransferIdx < MAX_TRANSFERS) : Watching (s.register none id) := by
  have hr := h.running
  have hid : id ∈ registered s := .inr hpc
  have hnew : id ∉ ids s := by
    rcases hr.place with hp | ⟨id',hp,hid'⟩ | ⟨wd,id',hp,-⟩
    · rw [hpc] at hp
      cases hp
    · rw [hpc] at hp
      cases hp
      exact hid'
    · rw [hpc] at hp
      cases hp
  have hfresh : s.live id = none → id ∉ s.owners := fun hl hmem =>
    (hr.unregistered id hmem).elim hnew fun hne => hne hl
  have hspec := register_spec hr.common (.inl hid) hfresh none
  have hcommon := hr.common.register hfull (.inl hid) hfresh hnew none
  have hreg : registered (s.register none id) = registered s := by
    ext i
    constructor
    · rintro (hi | hi)
      · rw [ids_register] at hi
        rcases hi with rfl | hi
        · exact hid
        · exact .inl hi
      · cases hi
    · rintro (hi | hi)
      · exact .inl (ids_register s none id ▸ .inr hi)
      · change s.pc = _ at hi
        rw [hpc] at hi
        cases hi
        exact .inl (ids_register s none id ▸ .inl rfl)
  have hold : ∀ e ∈ s.table, e ∈ (s.register none id).table := fun e he =>
    hspec.table ▸ List.mem_append_left _ he
  have hentry : s.newEntry id (s.addWatch id).1 ∈ (s.register none id).table :=
    hspec.table ▸ List.mem_append_right _ (List.mem_singleton.mpr rfl)
  have hqueue : (s.register none id).queue = s.queue := by rw [hspec.same]
  refine ⟨⟨hreg ▸ hcommon,?_,?_,.inr (.inr ⟨_,id,rfl,_,hentry,rfl,rfl⟩),?_,?_⟩,?_,?_⟩
  · rw [hspec.same]
    exact hr.downloadsWatch
  · rw [hspec.same]
    exact hr.readyWatch
  · intro e he
    rw [hspec.table] at he
    rcases List.mem_append.mp he with he | he
    · have hne : e.id ≠ id := fun heq => hnew ⟨e,he,heq⟩
      obtain ⟨hown,hlive⟩ := hr.entries e he
      exact ⟨hspec.kept _ _ hown,fun ha => (hspec.others e.id hne).trans (hlive ha)⟩
    · rw [List.mem_singleton.mp he]
      exact ⟨hcommon.owned id _ hspec.live,fun _ => hspec.live⟩
  · intro i hi
    rw [ids_register]
    by_cases heq : i = id
    · exact .inl (.inl heq)
    · rw [hspec.others i heq]
      exact (hr.unregistered i ((hspec.owner i hi).resolve_left heq)).imp_left .inr
  · intro i filename hfile
    rw [hspec.same] at hfile
    rcases h.files i filename hfile with hno | hq | (hc | ⟨wd,hc⟩) | ⟨e,he,hid,hactive⟩
    · cases hno
    · exact .inr (.inl (hqueue ▸ hq))
    · rw [hpc] at hc
      cases hc
      exact .inr (.inr (.inl (.inr ⟨_,rfl⟩)))
    · rw [hpc] at hc
      cases hc
    · exact .inr (.inr (.inr ⟨e,hold e he,hid,hqueue ▸ hactive⟩))
  · intro i hi
    rw [hspec.same] at hi
    rcases h.readies i hi with hno | hq | ⟨e,he,hid,hready⟩
    · cases hno
    · exact .inr (.inl (hqueue ▸ hq))
    · exact .inr (.inr ⟨e,hold e he,hid,hready⟩)

def State.announce (s : State ι φ) (id : ι) : State ι φ :=
  { s with fuseReady := s.fuseReady ++ [id], pc := .readEvent }

theorem checkFile_eq (s : State ι φ) (wd : ℕ) (id : ι) :
    s.checkFile none wd id = match s.file id with
      | some filename => (s.announce id).inotifyHandleFileCreate wd (some filename)
      | none => s.announce id := by
  unfold State.checkFile
  cases hfile : s.file id with
  | none => rfl
  | some filename =>
    dsimp only
    unfold State.inotifyHandleFileCreate
    have htable : (s.announce id).table = s.table := rfl
    rw [htable]
    split
    · rfl
    · split_ifs
      · rfl
      · unfold State.rmWatch
        have howners : ((s.announce id).activate wd (some filename)).owners =
          (s.activate wd (some filename)).owners := rfl
        have hlive : ((s.announce id).activate wd (some filename)).live =
          (s.activate wd (some filename)).live := rfl
        rw [howners, hlive]
        split
        · rfl
        · split_ifs <;> rfl

omit [DecidableEq ι] in
theorem Running.announce (h : Running s) {wd : ℕ} {id : ι} (hpc : s.pc = .checkFile none wd id) :
    Running (s.announce id) := by
  have c := h.common
  have hreg : registered (s.announce id) = registered s := by
    ext i
    constructor
    · rintro (hi | hi)
      · exact .inl hi
      · cases hi
    · rintro (hi | hi)
      · exact .inl hi
      · change s.pc = _ at hi
        rw [hpc] at hi
        cases hi
  refine ⟨?_,h.downloadsWatch,h.readyWatch,.inl rfl,h.entries,h.unregistered⟩
  rw [hreg]
  exact ⟨c.inBounds,c.next,c.used,c.once,c.owned,c.owners,c.queue,c.created,c.known,c.watched,
    c.fileDir,c.readyFile⟩

omit [DecidableEq ι] in
theorem Files.announce (hf : Files ∅ s) {wd : ℕ} {id : ι} (hpc : s.pc = .checkFile none wd id) :
    Files {id} (s.announce id) := by
  intro i filename hfile
  rcases hf i filename hfile with hno | hq | (hc | ⟨wd',hc⟩) | he
  · cases hno
  · exact .inr (.inl hq)
  · rw [hpc] at hc
    cases hc
  · rw [hpc] at hc
    cases hc
    exact .inl rfl
  · exact .inr (.inr (.inr he))

theorem Watching.checkFile (h : Watching s) {wd : ℕ} {id : ι} (hpc : s.pc = .checkFile none wd id) :
    Watching (s.checkFile none wd id) := by
  have hr := h.running.announce hpc
  have hf := h.files.announce hpc
  have hready : Readies ∅ (s.announce id) := h.readies
  rw [checkFile_eq]
  cases hfile : s.file id with
  | none =>
    refine ⟨hr,fun i filename hi => ?_,hready⟩
    refine .inr ((hf i filename hi).resolve_left ?_)
    rintro rfl
    change s.file i = _ at hi
    rw [hfile] at hi
    cases hi
  | some filename =>
    have hentry : ∃ e ∈ s.table, e.id = id ∧ e.createWd = wd := by
      rcases h.running.place with hp | ⟨id',hp,-⟩ | ⟨wd',id',hp,he⟩
      · rw [hpc] at hp
        cases hp
      · rw [hpc] at hp
        cases hp
      · rw [hpc] at hp
        cases hp
        exact he
    obtain ⟨e,he,rfl,rfl⟩ := hentry
    exact ⟨hr.create he _,hr.files_create he hf _,hr.readies_create he hready _⟩

theorem watch_event (hpc : s.pc = .readEvent) {a : Event ι φ} {q : List (Event ι φ)}
    (hq : s.queue = a :: q) (next : Option ι) : s.watch next = some ((s.pop q).handleEvent a) := by
  cases s
  dsimp only at hpc hq
  subst hpc hq
  rfl

theorem Watching.watch (h : Watching s) {next : Option ι} (hu : UnracedAt s next s.pc)
    (ht : s.watch next = some t) : Watching t := by
  rcases h.running.place with hpc | ⟨id,hpc,-⟩ | ⟨wd,id,hpc,-⟩
  · cases hq : s.queue with
    | nil => simp [State.watch, hpc, hq] at ht
    | cons a q =>
      rw [watch_event hpc hq] at ht
      exact Option.some.inj ht ▸ h.handleEvent hpc hq
  · unfold State.watch at ht
    rw [hpc] at ht hu
    obtain rfl := Option.some.inj ht
    rw [inotifyHandleNewId_eq hu]
    exact h.register hpc hu
  · unfold State.watch at ht
    rw [hpc] at ht
    obtain rfl := Option.some.inj ht
    exact h.checkFile hpc

end Whist.Teleport
