import Whist.Teleport.DownloadWatcher

/-! # The start-up scan, and whole runs -/
namespace Whist.Teleport

variable {ι φ : Type} [DecidableEq ι] {s t : State ι φ} {K early earlyReady : Set ι}

structure Initial (s : State ι φ) : Prop where
  pc : s.pc = .addDownloadsWatch
  queue : s.queue = []
  owners : s.owners = []
  live : ∀ id, s.live id = none
  table : s.table = []
  next : s.nextTransferIdx = 0
  inBounds : s.outOfBounds = false
  downloadsWatch : s.downloadsWatch = false
  readyWatch : s.readyWatch = false
  fileDir : ∀ id, (s.file id).isSome → id ∈ s.downloads
  readyFile : ∀ id ∈ s.ready, (s.file id).isSome

theorem Initial.protocol (h : Initial s) {m : Move ι φ} (hm : m.isProtocol = true)
    (ht : s.protocol m = some t) : Initial t := by
  cases m with
  | watch next => cases hm
  | createInfo id fileSize =>
    simp only [State.protocol] at ht
    split_ifs at ht
    obtain rfl := Option.some.inj ht
    exact ⟨h.pc,h.queue,h.owners,h.live,h.table,h.next,h.inBounds,h.downloadsWatch,h.readyWatch,
      h.fileDir,h.readyFile⟩
  | createDownload id =>
    simp only [State.protocol] at ht
    split_ifs at ht
    obtain rfl := Option.some.inj ht
    refine ⟨h.pc,?_,h.owners,h.live,h.table,h.next,h.inBounds,h.downloadsWatch,h.readyWatch,
      fun i hi => List.mem_cons_of_mem _ (h.fileDir i hi),h.readyFile⟩
    simp only [State.emit, h.downloadsWatch]
    exact h.queue
  | createFile id filename =>
    simp only [State.protocol] at ht
    split_ifs at ht with hid
    obtain rfl := Option.some.inj ht
    refine ⟨h.pc,?_,h.owners,h.live,h.table,h.next,h.inBounds,h.downloadsWatch,h.readyWatch,?_,?_⟩
    · simp only [h.live]
      exact h.queue
    · intro i hi
      by_cases heq : i = id
      · exact heq ▸ hid.1
      · exact h.fileDir i (by simpa [heq] using hi)
    · intro i hi
      by_cases heq : i = id
      · simp [heq]
      · simpa [heq] using h.readyFile i hi
  | createReady id =>
    simp only [State.protocol] at ht
    split_ifs at ht with hid
    obtain rfl := Option.some.inj ht
    refine ⟨h.pc,?_,h.owners,h.live,h.table,h.next,h.inBounds,h.downloadsWatch,h.readyWatch,h.fileDir,?_⟩
    · simp only [State.emit, h.readyWatch]
      exact h.queue
    · intro i hi
      rcases List.mem_cons.mp hi with rfl | hi
      · exact hid.1
      · exact h.readyFile i hi

theorem Initial.watch (h : Initial s) {next : Option ι} (ht : s.watch next = some t) :
    Startup { id | id ∈ s.downloads } ∅ t := by
  unfold State.watch at ht
  rw [h.pc] at ht
  obtain rfl := Option.some.inj ht
  refine ⟨⟨h.inBounds,?_,?_,?_,?_,?_,?_,?_,fun i hi => .inl hi,?_,h.fileDir,h.readyFile⟩,rfl,?_,?_,?_,
    h.readyWatch,h.table⟩
  · exact h.next.trans (congrArg List.length h.table).symm
  · simp [h.table]
  · simp [h.table]
  · intro id wd hlive
    rw [h.live] at hlive
    cases hlive
  · simp [h.owners]
  · rw [h.queue]
    trivial
  · rintro id (hid | hid)
    · exact hid
    · rw [h.queue] at hid
      cases hid
  · intro id hid
    rw [h.owners] at hid
    cases hid
  · intro id hid
    rw [h.owners] at hid
    cases hid
  · intro hw
    rw [h.readyWatch] at hw
    cases hw
  · intro id hid
    cases hid

omit [DecidableEq ι] in
theorem Announced.not_mem {owners : List ι} {q : List (Event ι φ)} (h : Announced owners K q) {id : ι}
    (hid : .newId id ∈ q) : id ∉ K := by
  induction q generalizing K with
  | nil => cases hid
  | cons a q ih =>
    cases a with
    | newId id' =>
      rcases List.mem_cons.mp hid with heq | hid
      · cases heq
        exact h.1
      · exact fun hmem => ih h.2 hid (.inr hmem)
    | readyFile id' => exact ih h.2 ((List.mem_cons.mp hid).resolve_left (by rintro ⟨⟩))
    | fileCreate wd filename => exact ih h.2 ((List.mem_cons.mp hid).resolve_left (by rintro ⟨⟩))
    | ignored wd => exact ih h.2 ((List.mem_cons.mp hid).resolve_left (by rintro ⟨⟩))

omit [DecidableEq ι] in
theorem Startup.move (h : Startup early earlyReady s) {p : Pc ι} (hp : Stage early earlyReady s p) :
    Startup early earlyReady { s with pc := p } := by
  have c := h.common
  refine ⟨⟨c.inBounds,c.next,c.used,c.once,c.owned,c.owners,c.queue,c.created,c.known,c.watched,
    c.fileDir,c.readyFile⟩,h.watching,h.alive,h.reported,h.before,?_⟩
  unfold Stage at hp ⊢
  exact hp

omit [DecidableEq ι] in
theorem Startup.addReadyWatch (h : Startup early earlyReady s) (hpc : s.pc = .addReadyWatch) :
    Startup early { id | id ∈ s.ready } { s with readyWatch := true, pc := .openDownloads } := by
  have c := h.common
  have hstage := h.stage
  rw [hpc] at hstage
  exact ⟨⟨c.inBounds,c.next,c.used,c.once,c.owned,c.owners,c.queue,c.created,c.known,c.watched,
    c.fileDir,c.readyFile⟩,h.watching,h.alive,fun _ _ hid => .inl hid,fun _ hid => hid,rfl,hstage.2⟩

omit [DecidableEq ι] in
theorem Startup.openDownloads (h : Startup early earlyReady s) (hpc : s.pc = .openDownloads) :
    Startup early earlyReady { s with pc := .scanDownloads s.downloads [] } := by
  have c := h.common
  have hstage := h.stage
  rw [hpc] at hstage
  refine h.move ⟨hstage.1,fun i hi => c.created i (.inl hi),fun i hi => ?_,?_⟩
  · exact c.fileDir i (c.readyFile i (h.before i hi))
  · rintro i ⟨e,he,-⟩
    rw [hstage.2] at he
    cases he

theorem Startup.scanned (h : Startup early earlyReady s) {left seen : List ι}
    (hpc : s.pc = .scanDownloads left seen) {id : ι} (hseen : id ∉ seen) (hnew : .newId id ∈ s.queue) :
    Startup early earlyReady
      { s with pc := .handleNewId (some (left.filter (· ≠ id),id :: seen)) id } := by
  have hstage := h.stage
  rw [hpc] at hstage
  obtain ⟨hready,hearly,hearlyReady,hids⟩ := hstage
  refine h.move ⟨hready,fun i hi => ?_,fun i hi => ?_,fun i hi => ⟨?_,?_⟩,List.mem_cons_self,hnew⟩
  · have hne : i ≠ id := fun heq => h.common.queue.not_mem hnew (heq ▸ hi)
    exact List.mem_filter.mpr ⟨hearly i hi,by simpa using hne⟩
  · by_cases heq : i = id
    · exact .inl heq
    · exact .inr (List.mem_filter.mpr ⟨hearlyReady i hi,by simpa using heq⟩)
  · exact List.mem_cons_of_mem _ (hids i hi)
  · exact fun heq => hseen (heq ▸ hids i hi)

theorem Startup.register (h : Startup early earlyReady s) {scan : ScanState ι} {id : ι}
    (hpc : s.pc = .handleNewId (some scan) id) (hfull : s.nextTransferIdx < MAX_TRANSFERS) :
    Startup early earlyReady (s.register (some scan) id) := by
  have hstage := h.stage
  rw [hpc] at hstage
  obtain ⟨hready,hearly,hearlyReady,hids,hseen,hnewId⟩ := hstage
  have hmem : id ∈ early ∪ newIds s.queue := .inr hnewId
  have hfresh : s.live id = none → id ∉ s.owners := fun hl hmem => h.alive id hmem hl
  have hnew : id ∉ ids s := fun hmem => (hids id hmem).2 rfl
  have hspec := register_spec h.common hmem hfresh (some scan)
  refine ⟨h.common.register hfull hmem hfresh hnew _,?_,?_,?_,?_,?_,hearly,hearlyReady,?_⟩
  · rw [hspec.same]
    exact h.watching
  · intro i hi
    by_cases heq : i = id
    · rw [heq, hspec.live]
      simp
    · rw [hspec.others i heq]
      exact h.alive i ((hspec.owner i hi).resolve_left heq)
  · rw [hspec.same]
    exact h.reported
  · rw [hspec.same]
    exact h.before
  · rw [hspec.same]
    exact hready
  · intro i hi
    rw [ids_register] at hi
    rcases hi with rfl | hi
    · exact hseen
    · exact (hids i hi).1

theorem Startup.checkFile (h : Startup early earlyReady s) {scan : ScanState ι} {wd : ℕ} {id : ι}
    (hpc : s.pc = .checkFile (some scan) wd id) (hfile : s.file id = none) :
    Startup early earlyReady (s.checkFile (some scan) wd id) := by
  have c := h.common
  have hstage := h.stage
  rw [hpc] at hstage
  obtain ⟨hready,hearly,hearlyReady,hids⟩ := hstage
  unfold State.checkFile
  rw [hfile]
  refine ⟨⟨c.inBounds,c.next,c.used,c.once,c.owned,c.owners,c.queue,c.created,c.known,c.watched,
    c.fileDir,c.readyFile⟩,h.watching,h.alive,h.reported,h.before,hready,hearly,fun i hi => ?_,hids⟩
  -- A readyfile from before its watch has its file, which would be found.
  refine (hearlyReady i hi).resolve_left ?_
  rintro rfl
  have hsome := c.readyFile i (h.before i hi)
  rw [hfile] at hsome
  cases hsome

theorem Startup.close (h : Startup early earlyReady s) (hready : s.readyWatch = true)
    (hearly : ∀ i, i ∉ early) (hearlyReady : ∀ i, i ∉ earlyReady) (id : ι) (left seen : List ι) :
    Startup early earlyReady { s.inotifyHandleFileClose id with pc := .scanReady left seen } := by
  have hle : s.nextTransferIdx ≤ MAX_TRANSFERS := h.common.next ▸ h.common.used
  have heq := close_eq hle id
  have c := h.common.close id
  refine ⟨⟨c.inBounds,c.next,c.used,c.once,c.owned,c.owners,c.queue,c.created,c.known,c.watched,
    c.fileDir,c.readyFile⟩,heq ▸ h.watching,heq ▸ h.alive,heq ▸ h.reported,heq ▸ h.before,
    heq ▸ hready,hearly,hearlyReady⟩

omit [DecidableEq ι] in
theorem Startup.wipe (h : Startup early earlyReady s) (hpc : s.pc = .wipe) :
    Watching { s with table := [], nextTransferIdx := 0, pc := .readEvent } := by
  have c := h.common
  have hstage := h.stage
  rw [hpc] at hstage
  obtain ⟨hready,hearly,hearlyReady⟩ := hstage
  have hknown : early = registered { s with table := [], nextTransferIdx := 0, pc := .readEvent } := by
    ext i
    refine ⟨fun hi => absurd hi (hearly i),?_⟩
    rintro (⟨e,he,-⟩ | hi)
    · cases he
    · cases hi
  refine ⟨⟨?_,h.watching,hready,.inl rfl,fun e he => (by cases he),fun i hi => .inr (h.alive i hi)⟩,?_,?_⟩
  · rw [← hknown]
    exact ⟨c.inBounds,rfl,Nat.zero_le _,List.nodup_nil,c.owned,c.owners,c.queue,c.created,c.known,
      c.watched,c.fileDir,c.readyFile⟩
  · intro id filename hfile
    have hdir : id ∈ s.downloads := c.fileDir id (Option.isSome_iff_exists.mpr ⟨filename,hfile⟩)
    exact .inr (.inl ((c.known id hdir).resolve_left (hearly id)))
  · intro id hid
    exact .inr (.inl ((h.reported hready id hid).resolve_left (hearlyReady id)))

def Sound (s : State ι φ) : Prop :=
  Initial s ∨ (∃ early earlyReady, Startup early earlyReady s) ∨ Watching s

theorem Startup.watch (h : Startup early earlyReady s) {next : Option ι} (hu : UnracedAt s next s.pc)
    (ht : s.watch next = some t) : Sound t := by
  have hstage := h.stage
  unfold State.watch at ht
  cases hpc : s.pc with
  | addDownloadsWatch =>
    rw [hpc] at hstage
    exact hstage.elim
  | addReadyWatch =>
    simp only [hpc, Option.some.injEq] at ht
    exact ht ▸ .inr (.inl ⟨_,_,h.addReadyWatch hpc⟩)
  | openDownloads =>
    simp only [hpc, Option.some.injEq] at ht
    exact ht ▸ .inr (.inl ⟨_,_,h.openDownloads hpc⟩)
  | scanDownloads left seen =>
    rw [hpc] at hstage hu
    simp only [hpc] at ht
    cases next with
    | none =>
      simp only at ht
      split_ifs at ht with hleft
      obtain rfl := Option.some.inj ht
      rw [List.isEmpty_iff] at hleft
      subst hleft
      have hno : ∀ i ∈ early, False := fun i hi => by simpa using hstage.2.1 i hi
      have hnoReady : ∀ i ∈ earlyReady, False := fun i hi => by simpa using hstage.2.2.1 i hi
      exact .inr (.inl ⟨_,_,h.move ⟨hstage.1,hno,hnoReady⟩⟩)
    | some id =>
      simp only at ht
      split_ifs at ht with hid
      obtain rfl := Option.some.inj ht
      exact .inr (.inl ⟨_,_,h.scanned hpc hid.2 (hu id rfl)⟩)
  | openReady =>
    rw [hpc] at hstage
    simp only [hpc, Option.some.injEq] at ht
    exact ht ▸ .inr (.inl ⟨_,_,h.move hstage⟩)
  | scanReady left seen =>
    rw [hpc] at hstage
    simp only [hpc] at ht
    cases next with
    | none =>
      simp only at ht
      split_ifs at ht
      obtain rfl := Option.some.inj ht
      exact .inr (.inl ⟨_,_,h.move hstage⟩)
    | some id =>
      simp only at ht
      split_ifs at ht
      obtain rfl := Option.some.inj ht
      exact .inr (.inl ⟨_,_,h.close hstage.1 hstage.2.1 hstage.2.2 id _ _⟩)
  | wipe =>
    simp only [hpc, Option.some.injEq] at ht
    exact ht ▸ .inr (.inr (h.wipe hpc))
  | readEvent =>
    rw [hpc] at hstage
    exact hstage.elim
  | handleNewId scan id =>
    rw [hpc] at hu hstage
    simp only [hpc, Option.some.injEq] at ht
    rw [← ht, inotifyHandleNewId_eq hu]
    cases scan with
    | none => exact hstage.elim
    | some scan => exact .inr (.inl ⟨_,_,h.register hpc hu⟩)
  | checkFile scan wd id =>
    rw [hpc] at hu hstage
    simp only [hpc, Option.some.injEq] at ht
    subst ht
    cases scan with
    | none => exact hstage.elim
    | some scan => exact .inr (.inl ⟨_,_,h.checkFile hpc (Option.isNone_iff_eq_none.mp hu)⟩)

theorem sound_step {m : Move ι φ} (h : Sound s) (hu : Unraced s m) (ht : s.step m = .ok t) :
    Sound t := by
  unfold State.step at ht
  cases hp : s.protocol m with
  | none => simp [hp] at ht
  | some u =>
    rw [hp] at ht
    cases ht
    cases hm : m.isProtocol with
    | true =>
      rcases h with h | ⟨early,earlyReady,h⟩ | h
      · exact .inl (h.protocol hm hp)
      · exact .inr (.inl ⟨early,earlyReady,h.protocol hm hp⟩)
      · exact .inr (.inr (h.protocol hm hp))
    | false =>
      cases m with
      | watch next =>
        rcases h with h | ⟨early,earlyReady,h⟩ | h
        · exact .inr (.inl ⟨_,_,h.watch hp⟩)
        · exact h.watch hu hp
        · exact .inr (.inr (h.watch hu hp))
      | createInfo id fileSize => cases hm
      | createDownload id => cases hm
      | createFile id filename => cases hm
      | createReady id => cases hm

omit [DecidableEq ι] in
theorem Watching.exact (h : Watching s) : Exact s := by
  have c := h.running.common
  refine ⟨c.inBounds,c.used,c.once,fun hpc hq id hid => ?_⟩
  have hempty : ∀ i, i ∉ newIds s.queue := fun i hi => by
    rw [hq] at hi
    cases hi
  have hmem := (c.known id hid).resolve_right (hempty id)
  rw [registered_of_readEvent hpc] at hmem
  obtain ⟨e,he,rfl⟩ := hmem
  refine ⟨e,he,rfl,fun hfile => ?_,fun hready => ?_⟩
  · obtain ⟨filename,hfile⟩ := Option.isSome_iff_exists.mp hfile
    rcases h.files e.id filename hfile with hno | hnew | (hc | ⟨wd,hc⟩) | ⟨e',he',hid',hactive⟩
    · cases hno
    · exact absurd hnew (hempty _)
    · rw [hpc] at hc
      cases hc
    · rw [hpc] at hc
      cases hc
    · obtain rfl := c.entry_unique he he' hid'
      refine hactive.resolve_right fun hevent => ?_
      rw [hq] at hevent
      cases hevent
  · rcases h.readies e.id hready with hno | hevent | ⟨e',he',hid',hready'⟩
    · cases hno
    · rw [hq] at hevent
      cases hevent
    · exact c.entry_unique he he' hid' ▸ hready'

omit [DecidableEq ι] in
theorem Sound.exact (h : Sound s) : Exact s := by
  rcases h with h | ⟨early,earlyReady,h⟩ | h
  · refine ⟨h.inBounds,by simp [h.table],by simp [h.table],fun hpc => ?_⟩
    rw [h.pc] at hpc
    cases hpc
  · have c := h.common
    refine ⟨c.inBounds,c.used,c.once,fun hpc => ?_⟩
    have hstage := h.stage
    rw [hpc] at hstage
    exact hstage.elim
  · exact h.exact

omit [DecidableEq ι] in
theorem sound_init : Sound ({} : State ι φ) :=
  .inl ⟨rfl,rfl,rfl,fun _ => rfl,rfl,rfl,rfl,rfl,rfl,fun _ hfile => (by cases hfile),
    fun _ hid => (by cases hid)⟩

/-- A transfer made before the first watch is found by the scan, and cleared with the table. -/
theorem transferTable_lost : ¬∀ (ms : List (Move ℕ ℕ)) (s : State ℕ ℕ),
    Run.run State.step {} ms = .ok s → Exact s := by
  intro h
  have hexact := h [.createInfo 1 10,.createDownload 1,.watch none,.watch none,.watch none,.watch (some 1),
    .watch none,.watch none,.watch none,.watch none,.watch none,.watch none] _ rfl
  obtain ⟨e,he,-⟩ := hexact.complete rfl rfl 1 List.mem_cons_self
  cases he

/-- A run without a race, and with fewer transfers than the table has room for, has an exact
table in every state that it reaches. -/
theorem transferTable_exact {ms : List (Move ι φ)} {s : State ι φ}
    (hu : Run.EachOk State.step Unraced {} ms) (hr : Run.run State.step {} ms = .ok s) : Exact s :=
  (Run.EachOk.invariant (fun _ _ _ => sound_step) sound_init hu hr).exact

def reportedTwice : List (Move ℕ ℕ) :=
  [.watch none,.watch none,.createInfo 1 10,.createDownload 1,.watch none,.watch (some 1),.watch none,
    .watch none,.watch none,.watch none,.watch none,.watch none,.watch none,.watch none,.watch none,
    .createFile 1 7,.watch none,.createReady 1,.watch none,.watch none]

theorem transferTable_exact_reportedTwice : Run.EachOk State.step Unraced {} reportedTwice ∧
    ∃ s, Run.run State.step {} reportedTwice = .ok s ∧ s.queue = [] ∧
      s.table = [⟨1,true,true,some 7,0,10⟩] ∧ Exact s := by
  have hu : Run.EachOk State.step Unraced {} reportedTwice := by decide
  exact ⟨hu,_,rfl,rfl,rfl,transferTable_exact hu rfl⟩

end Whist.Teleport
