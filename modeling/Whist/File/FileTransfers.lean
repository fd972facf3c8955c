import Whist.File.FileSynchronizer

/-! # Transfers that arrive interleaved -/
namespace Whist.File

/-- How far the stream of one global id has come. -/
inductive Progress where
  | idle
  | active (m : FileMetadata) (created : Bool)
  | closed (m : FileMetadata) (created : Bool)
  deriving DecidableEq

/-- `none` for a message that is not the next one of a stream. -/
def Progress.next : Progress → Call → Option Progress
  | .idle, .metadata m _ created => some (.active m created)
  | .active m created, .chunk c _ _ =>
    match c.chunkType with
    | .body => some (.active m created)
    | .close => some (.closed m created)
    | .closeAck => none
  | _, _ => none

def transfer (id : ℤ) (calls : List Call) : List Call := calls.filter (fun c => c.globalFileId = id)

def progress (id : ℤ) (calls : List Call) : Option Progress :=
  (transfer id calls).foldlM Progress.next .idle

/-- Any interleaving of streams, each global id having one stream at most. -/
def Interleaved (calls : List Call) : Prop := ∀ id, (progress id calls).isSome

def Call.body : Call → List UInt8
  | .chunk c _ _ => if c.chunkType = .body then c.data else []
  | .metadata .. => []

def payload (id : ℤ) (calls : List Call) : List UInt8 := (transfer id calls).flatMap Call.body

/-- The files that are created, by global id and path; `n` is the next unique id. -/
def createdFiles (enabledActions : ℕ) : ℕ → List Call → List (ℤ × Path)
  | _, [] => []
  | n, .metadata m _ created :: rest =>
    if created then
      (m.globalFileId, writePath enabledActions n m) :: createdFiles enabledActions (n + 1) rest
    else createdFiles enabledActions (n + 1) rest
  | n, .chunk .. :: rest => createdFiles enabledActions n rest

def created (s₀ : FileSynchronizer) (calls : List Call) : List (ℤ × Path) :=
  createdFiles s₀.enabledActions s₀.uniqueId calls

def opens : Call → Bool
  | .metadata .. => true
  | .chunk .. => false

def openHandle (s : FileSynchronizer) (id : ℤ) : Option FileHandle :=
  (getWriteFileWithGlobalId s.transferringFiles id).bind TransferringFile.fileHandle

def buffered (s : FileSynchronizer) (id : ℤ) : List UInt8 :=
  (openHandle s id).elim [] FileHandle.buffer

structure Ready (s : FileSynchronizer) : Prop where
  isInitialized : s.isInitialized = true
  noWrite : ∀ e ∈ s.transferringFiles, e.direction ≠ .writeEnd

/-- Every created file holds the bodies of its own stream, and a closed stream has left
no entry behind. -/
structure Exact (s₀ : FileSynchronizer) (calls : List Call) (s : FileSynchronizer) : Prop where
  bytes : ∀ f ∈ created s₀ calls, ∃ bytes, s.files f.2 = some bytes ∧ bytes ++ buffered s f.1 = payload f.1 calls
  removed : ∀ id m created, progress id calls = some (.closed m created) →
    ∀ e ∈ s.transferringFiles, ¬(e.globalFileId = id ∧ e.direction = .writeEnd)

/-- No null pointer comes back: for a dropped file its directory, for an upload that closes
the confirmation. -/
def Provided (enabledActions : ℕ) (pre : List Call) : Call → Prop
  | .metadata m dropDirectory _ =>
    m.transferType &&& enabledActions = fileTransferServerDrop → dropDirectory = true
  | .chunk c _ confirmed => c.chunkType = .close →
    ∀ m, progress c.globalFileId pre = some (.active m true) →
      m.transferType &&& enabledActions = fileTransferServerUpload → confirmed = true

def ClosesCreated (pre : List Call) : Call → Prop
  | .metadata .. => True
  | .chunk c _ _ => c.chunkType = .close →
    ∀ m created, progress c.globalFileId pre = some (.active m created) → created = true

theorem transfer_concat (id : ℤ) (pre : List Call) (c : Call) :
    transfer id (pre ++ [c]) = transfer id pre ++ if c.globalFileId = id then [c] else [] := by
  by_cases h : c.globalFileId = id <;> simp [transfer, h]

theorem progress_concat_self (pre : List Call) (c : Call) :
    progress c.globalFileId (pre ++ [c]) =
      (progress c.globalFileId pre).bind (fun p => p.next c) := by
  simp only [progress, transfer_concat, if_true, List.foldlM_append]
  cases List.foldlM Progress.next .idle (transfer c.globalFileId pre) <;> simp

theorem progress_concat_ne {id : ℤ} {c : Call} (h : c.globalFileId ≠ id) (pre : List Call) :
    progress id (pre ++ [c]) = progress id pre := by
  rw [progress, transfer_concat, if_neg h, List.append_nil, progress]

theorem payload_concat_self (pre : List Call) (c : Call) :
    payload c.globalFileId (pre ++ [c]) = payload c.globalFileId pre ++ c.body := by
  simp [payload, transfer_concat]

theorem payload_concat_ne {id : ℤ} {c : Call} (h : c.globalFileId ≠ id) (pre : List Call) :
    payload id (pre ++ [c]) = payload id pre := by
  rw [payload, transfer_concat, if_neg h, List.append_nil, payload]

theorem Interleaved.before {pre post : List Call} (h : Interleaved (pre ++ post)) :
    Interleaved pre := by
  intro id
  have hid := h id
  rw [progress, transfer, List.filter_append, List.foldlM_append] at hid
  rw [progress, transfer]
  cases hp : List.foldlM Progress.next .idle (pre.filter (fun c => c.globalFileId = id)) with
  | some p => rfl
  | none =>
    rw [hp] at hid
    cases hid

theorem createdFiles_append (enabledActions n : ℕ) (pre post : List Call) :
    createdFiles enabledActions n (pre ++ post) =
      createdFiles enabledActions n pre ++
        createdFiles enabledActions (n + pre.countP opens) post := by
  induction pre generalizing n with
  | nil => simp [createdFiles]
  | cons c pre ih =>
    cases c with
    | metadata m d created =>
      have hn : n + (pre.countP opens + 1) = n + 1 + pre.countP opens := by omega
      cases created <;> simp [createdFiles, ih, List.countP_cons, opens, hn]
    | chunk c fl conf => simp [createdFiles, ih, opens]

theorem closed_append {id : ℤ} {pre post : List Call} {m : FileMetadata} {created : Bool}
    (h : Interleaved (pre ++ post)) (hp : progress id pre = some (.closed m created)) :
    progress id (pre ++ post) = some (.closed m created) := by
  induction post using List.reverseRecOn with
  | nil => rwa [List.append_nil]
  | append_singleton post c ih =>
    rw [← List.append_assoc] at h ⊢
    have hc := ih h.before
    by_cases hid : c.globalFileId = id
    · subst hid
      have hsome := h c.globalFileId
      rw [progress_concat_self, hc] at hsome
      cases c <;> cases hsome
    · rw [progress_concat_ne hid, hc]

theorem payload_of_idle {id : ℤ} {pre : List Call} (h : progress id pre = some .idle) :
    payload id pre = [] := by
  induction pre using List.reverseRecOn with
  | nil => rfl
  | append_singleton pre c ih =>
    by_cases hid : c.globalFileId = id
    · subst hid
      rw [progress_concat_self] at h
      obtain ⟨p,-,hp⟩ := Option.bind_eq_some_iff.mp h
      cases p with
      | idle => cases c <;> cases hp
      | closed m created => cases c <;> cases hp
      | active m created =>
        cases c with
        | metadata m d created => cases hp
        | chunk c fl conf =>
          simp only [Progress.next] at hp
          split at hp <;> cases hp
    · rw [progress_concat_ne hid] at h
      rw [payload_concat_ne hid, ih h]

theorem filter_updateWriteFile_ne {id j : ℤ} (hne : id ≠ j)
    {f : TransferringFile → Option TransferringFile}
    (hf : ∀ e e', f e = some e' → e'.globalFileId = e.globalFileId) (l : List TransferringFile) :
    (updateWriteFile id f l).filter (isWriteOf j) = l.filter (isWriteOf j) := by
  have hother : ∀ e : TransferringFile, e.globalFileId = id → isWriteOf j e = false := by
    intro e he
    simp [isWriteOf, he, hne]
  induction l with
  | nil => rfl
  | cons e l ih =>
    rw [updateWriteFile]
    by_cases he : isWriteOf id e = true
    · have hid : e.globalFileId = id := by
        simp only [isWriteOf, Bool.and_eq_true, decide_eq_true_eq] at he
        exact he.1
      rw [if_pos he, List.filter_append, List.filter_cons_of_neg (by simp [hother e hid])]
      cases hfe : f e with
      | none => rfl
      | some e' =>
        have he' : isWriteOf j e' = false := hother e' ((hf e e' hfe).trans hid)
        simp [he']
    · rw [if_neg he, List.filter_cons, List.filter_cons, ih]

theorem filter_updateWriteFile_self {id : ℤ} {l : List TransferringFile} {e : TransferringFile}
    (h : l.filter (isWriteOf id) = [e]) (f : TransferringFile → Option TransferringFile) :
    (updateWriteFile id f l).filter (isWriteOf id) = (f e).toList.filter (isWriteOf id) := by
  induction l with
  | nil => cases h
  | cons e₀ l ih =>
    rw [updateWriteFile]
    by_cases he : isWriteOf id e₀ = true
    · rw [List.filter_cons_of_pos he, List.cons.injEq] at h
      rw [if_pos he, List.filter_append, h.1, h.2, List.append_nil]
    · rw [List.filter_cons_of_neg he] at h
      rw [if_neg he, List.filter_cons_of_neg he, ih h]

theorem getWriteFileWithGlobalId_eq (l : List TransferringFile) (id : ℤ) :
    getWriteFileWithGlobalId l id = (l.filter (isWriteOf id)).head? := by
  rw [getWriteFileWithGlobalId, List.head?_filter]

theorem openHandle_congr {s s' : FileSynchronizer} {id : ℤ}
    (h : s'.transferringFiles.filter (isWriteOf id) = s.transferringFiles.filter (isWriteOf id)) :
    openHandle s' id = openHandle s id := by
  rw [openHandle, openHandle, getWriteFileWithGlobalId_eq, getWriteFileWithGlobalId_eq, h]

theorem openHandle_of_filter {s : FileSynchronizer} {id : ℤ} {e : TransferringFile}
    (h : s.transferringFiles.filter (isWriteOf id) = [e]) : openHandle s id = e.fileHandle := by
  rw [openHandle, getWriteFileWithGlobalId_eq, h]
  rfl

theorem openHandle_of_nil {s : FileSynchronizer} {id : ℤ}
    (h : s.transferringFiles.filter (isWriteOf id) = []) : openHandle s id = none := by
  rw [openHandle, getWriteFileWithGlobalId_eq, h]
  rfl

def Entry (s : FileSynchronizer) (id : ℤ) (files : List (ℤ × Path)) : Progress → Prop
  | .idle => s.transferringFiles.filter (isWriteOf id) = []
  | .active m created => ∃ e, s.transferringFiles.filter (isWriteOf id) = [e] ∧
      e.transferType = m.transferType ∧
      (created = true → ∃ h, e.fileHandle = some h ∧ h.readOnly = false ∧ (id,h.path) ∈ files) ∧
      (created = false → e.fileHandle = none)
  | .closed _ true => s.transferringFiles.filter (isWriteOf id) = []
  | .closed _ false => ∃ e, s.transferringFiles.filter (isWriteOf id) = [e] ∧ e.fileHandle = none

def FileOk (s : FileSynchronizer) (calls : List Call) (id : ℤ) (path : Path) : Prop :=
  ∃ bytes, s.files path = some bytes ∧ bytes ++ buffered s id = payload id calls ∧
    ∀ h, openHandle s id = some h → h.path = path ∧ h.position = bytes.length

def Progress.created : Progress → Bool
  | .idle => false
  | .active _ created | .closed _ created => created

structure StreamOk (s₀ : FileSynchronizer) (calls : List Call) (s : FileSynchronizer) (id : ℤ) :
    Prop where
  entry : ∀ p, progress id calls = some p → Entry s id (created s₀ calls) p
  file : ∀ path, (id,path) ∈ created s₀ calls → FileOk s calls id path
  started : ∀ path, (id,path) ∈ created s₀ calls →
    ∃ p, progress id calls = some p ∧ p.created = true

structure Inv (s₀ : FileSynchronizer) (calls : List Call) (s : FileSynchronizer) : Prop where
  isInitialized : s.isInitialized = true
  enabledActions : s.enabledActions = s₀.enabledActions
  uniqueId : s.uniqueId = s₀.uniqueId + calls.countP opens
  stream : ∀ id, StreamOk s₀ calls s id

theorem Entry.mono {s s' : FileSynchronizer} {id : ℤ} {files files' : List (ℤ × Path)}
    {p : Progress} (h : Entry s id files p) (hfiles : ∀ f ∈ files, f ∈ files')
    (hl : s'.transferringFiles.filter (isWriteOf id) = s.transferringFiles.filter (isWriteOf id)) :
    Entry s' id files' p := by
  cases p with
  | idle => exact hl.trans h
  | active m created =>
    obtain ⟨e,he,ht,hc,hn⟩ := h
    refine ⟨e,hl.trans he,ht,fun hcr => ?_,hn⟩
    obtain ⟨fh,h1,hwrite,h2⟩ := hc hcr
    exact ⟨fh,h1,hwrite,hfiles _ h2⟩
  | closed m created =>
    cases created with
    | true => exact hl.trans h
    | false =>
      obtain ⟨e,he,hn⟩ := h
      exact ⟨e,hl.trans he,hn⟩

theorem mem_created_concat {s₀ : FileSynchronizer} {pre : List Call} {c : Call} {f : ℤ × Path} :
    f ∈ created s₀ (pre ++ [c]) ↔ f ∈ created s₀ pre ∨
      f ∈ createdFiles s₀.enabledActions (s₀.uniqueId + pre.countP opens) [c] := by
  rw [created, createdFiles_append, List.mem_append, created]

theorem createdFiles_single_fst {enabledActions n : ℕ} {c : Call} {f : ℤ × Path}
    (h : f ∈ createdFiles enabledActions n [c]) : f.1 = c.globalFileId := by
  cases c with
  | metadata m d created =>
    cases created <;> simp [createdFiles] at h
    rw [h]
    rfl
  | chunk c fl conf => cases h

theorem StreamOk.frame {s₀ s s' : FileSynchronizer} {pre : List Call} {c : Call} {id : ℤ}
    (h : StreamOk s₀ pre s id) (hid : c.globalFileId ≠ id)
    (hl : s'.transferringFiles.filter (isWriteOf id) = s.transferringFiles.filter (isWriteOf id))
    (hfiles : ∀ path, (id,path) ∈ created s₀ pre → s'.files path = s.files path) :
    StreamOk s₀ (pre ++ [c]) s' id := by
  have hback : ∀ path, (id,path) ∈ created s₀ (pre ++ [c]) → (id,path) ∈ created s₀ pre := by
    intro path hp
    rcases mem_created_concat.mp hp with hp | hp
    · exact hp
    · exact absurd (createdFiles_single_fst hp).symm hid
  refine ⟨fun p hp => ?_,fun path hp => ?_,fun path hp => ?_⟩
  · rw [progress_concat_ne hid] at hp
    exact (h.entry p hp).mono (fun f hf => mem_created_concat.mpr (Or.inl hf)) hl
  · obtain ⟨bytes,h1,h2,h3⟩ := h.file path (hback path hp)
    have hopen := openHandle_congr hl
    refine ⟨bytes,(hfiles path (hback path hp)).trans h1,?_,fun fh hfh => h3 fh (hopen ▸ hfh)⟩
    rw [payload_concat_ne hid, buffered, hopen, ← h2, buffered]
  · rw [progress_concat_ne hid]
    exact h.started path (hback path hp)

theorem writeAt_end (bytes data : List UInt8) : writeAt bytes bytes.length data = bytes ++ data := by
  simp [writeAt]

theorem newWriteFile_isWriteOf (s : FileSynchronizer) (m : FileMetadata) (cr : Bool) (id : ℤ) :
    isWriteOf id (newWriteFile s m cr) = true ↔ m.globalFileId = id := by
  rw [isWriteOf, Bool.and_eq_true, decide_eq_true_eq, decide_eq_true_eq]
  exact and_iff_left rfl

theorem progress_metadata {pre : List Call} {m : FileMetadata} {dropDirectory cr : Bool}
    (hleg : Interleaved (pre ++ [.metadata m dropDirectory cr])) :
    progress m.globalFileId pre = some .idle ∧
      progress m.globalFileId (pre ++ [.metadata m dropDirectory cr]) = some (.active m cr) := by
  have hself := progress_concat_self pre (.metadata m dropDirectory cr)
  have hsome := hleg m.globalFileId
  simp only [Call.globalFileId] at hself
  rw [hself] at hsome ⊢
  cases hp : progress m.globalFileId pre with
  | none => rw [hp] at hsome; cases hsome
  | some p =>
    rw [hp] at hsome
    cases p with
    | idle => exact ⟨rfl,rfl⟩
    | active m' cr' => cases hsome
    | closed m' cr' => cases hsome

theorem StreamOk.begin {s₀ s s' : FileSynchronizer} {pre : List Call} {m : FileMetadata}
    {dropDirectory cr : Bool} (h : StreamOk s₀ pre s m.globalFileId)
    (hleg : Interleaved (pre ++ [.metadata m dropDirectory cr])) {path : Path}
    (hnew : createdFiles s₀.enabledActions (s₀.uniqueId + pre.countP opens)
      [.metadata m dropDirectory cr] = if cr then [(m.globalFileId,path)] else [])
    {e : TransferringFile} (hl : s'.transferringFiles = s.transferringFiles ++ [e])
    (he : isWriteOf m.globalFileId e = true) (ht : e.transferType = m.transferType)
    (hh : e.fileHandle = if cr then some ⟨path,0,[],false⟩ else none)
    (hfile : cr = true → s'.files path = some []) :
    StreamOk s₀ (pre ++ [.metadata m dropDirectory cr]) s' m.globalFileId := by
  obtain ⟨hidle,hnext⟩ := progress_metadata hleg
  have hnil := h.entry _ hidle
  have hfilter : s'.transferringFiles.filter (isWriteOf m.globalFileId) = [e] := by
    rw [hl, List.filter_append, hnil, List.nil_append, List.filter_cons_of_pos he, List.filter_nil]
  have hfirst : ∀ path', (m.globalFileId,path') ∈ created s₀ (pre ++ [.metadata m dropDirectory cr]) →
      cr = true ∧ path' = path := by
    intro path' hp
    rcases mem_created_concat.mp hp with hp | hp
    · obtain ⟨p,h1,h2⟩ := h.started path' hp
      rw [hidle, Option.some.injEq] at h1
      subst h1
      cases h2
    · rw [hnew] at hp
      cases cr with
      | false => cases hp
      | true => exact ⟨rfl,by simpa using hp⟩
  refine ⟨fun p hp => ?_,fun path' hp => ?_,fun path' hp => ?_⟩
  · rw [hnext, Option.some.injEq] at hp
    subst hp
    refine ⟨e,hfilter,ht,fun hcr => ⟨⟨path,0,[],false⟩,by rw [hh, if_pos hcr],rfl,?_⟩,fun hcr => ?_⟩
    · apply mem_created_concat.mpr
      rw [hnew, if_pos hcr]
      exact Or.inr (List.mem_singleton_self _)
    · rw [hh, hcr]
      rfl
  · obtain ⟨hcr,rfl⟩ := hfirst path' hp
    have hopen : openHandle s' m.globalFileId = some ⟨path',0,[],false⟩ := by
      rw [openHandle_of_filter hfilter, hh, if_pos hcr]
    have hpay := payload_concat_self pre (.metadata m dropDirectory cr)
    simp only [Call.globalFileId, Call.body, List.append_nil, payload_of_idle hidle] at hpay
    refine ⟨[],hfile hcr,?_,fun fh hfh => ?_⟩
    · rw [hpay, buffered, hopen]
      rfl
    · rw [hopen, Option.some.injEq] at hfh
      subst hfh
      exact ⟨rfl,rfl⟩
  · exact ⟨_,hnext,(hfirst path' hp).1⟩

theorem metadata_ok {s₀ s : FileSynchronizer} {pre : List Call} {m : FileMetadata}
    {dropDirectory cr : Bool} (h : Inv s₀ pre s)
    (hleg : Interleaved (pre ++ [.metadata m dropDirectory cr]))
    (hpaths : ((created s₀ (pre ++ [.metadata m dropDirectory cr])).map Prod.snd).Nodup)
    (hprov : Provided s₀.enabledActions pre (.metadata m dropDirectory cr)) :
    ∃ t, call s (.metadata m dropDirectory cr) = .ok t ∧
      Inv s₀ (pre ++ [.metadata m dropDirectory cr]) t := by
  have hdir : ¬(m.transferType &&& s.enabledActions = fileTransferServerDrop ∧
      dropDirectory = false) := by
    rintro ⟨h1,h2⟩
    rw [h.enabledActions] at h1
    rw [hprov h1] at h2
    cases h2
  have hnew : createdFiles s₀.enabledActions (s₀.uniqueId + pre.countP opens)
      [.metadata m dropDirectory cr] =
        if cr then [(m.globalFileId,writePath s.enabledActions s.uniqueId m)] else [] := by
    rw [h.enabledActions, h.uniqueId]
    cases cr <;> rfl
  refine ⟨_,if_neg hdir,h.isInitialized,h.enabledActions,?_,fun id => ?_⟩
  · simp [h.uniqueId, List.countP_cons, opens, Nat.add_assoc]
  by_cases hid : m.globalFileId = id
  · subst hid
    refine (h.stream m.globalFileId).begin hleg hnew rfl ?_ rfl rfl (fun hcr => ?_)
    · exact (newWriteFile_isWriteOf _ _ _ _).mpr rfl
    · dsimp only
      rw [if_pos hcr, Function.update_self]
  · apply (h.stream id).frame (c := .metadata m dropDirectory cr) hid
    · rw [List.filter_append, List.filter_cons_of_neg, List.filter_nil, List.append_nil]
      rwa [newWriteFile_isWriteOf]
    · intro path hp
      cases cr with
      | false => rfl
      | true =>
        rw [created, createdFiles_append, hnew, if_pos rfl, List.map_append,
          List.nodup_append] at hpaths
        apply Function.update_of_ne
        exact hpaths.2.2 path (List.mem_map_of_mem hp) _ (List.mem_singleton_self _)

theorem progress_chunk {pre : List Call} {c : FileData} {flushed : ℕ} {confirmed : Bool}
    (hleg : Interleaved (pre ++ [.chunk c flushed confirmed])) :
    ∃ m cr, progress c.globalFileId pre = some (.active m cr) ∧
      (c.chunkType = .body ∧
          progress c.globalFileId (pre ++ [.chunk c flushed confirmed]) = some (.active m cr) ∨
        c.chunkType = .close ∧
          progress c.globalFileId (pre ++ [.chunk c flushed confirmed]) = some (.closed m cr)) := by
  have hself := progress_concat_self pre (.chunk c flushed confirmed)
  have hsome := hleg c.globalFileId
  simp only [Call.globalFileId] at hself
  rw [hself] at hsome ⊢
  cases hp : progress c.globalFileId pre with
  | none => rw [hp] at hsome; cases hsome
  | some p =>
    rw [hp] at hsome
    cases p with
    | idle => cases hsome
    | closed m' cr' => cases hsome
    | active m cr =>
      refine ⟨m,cr,rfl,?_⟩
      cases hc : c.chunkType with
      | body => exact Or.inl ⟨rfl,by simp [Progress.next, hc]⟩
      | close => exact Or.inr ⟨rfl,by simp [Progress.next, hc]⟩
      | closeAck =>
        simp only [Option.bind_some, Progress.next, hc] at hsome
        cases hsome

theorem created_chunk (s₀ : FileSynchronizer) (pre : List Call) (c : FileData) (flushed : ℕ)
    (confirmed : Bool) : created s₀ (pre ++ [.chunk c flushed confirmed]) = created s₀ pre := by
  rw [created, createdFiles_append, created]
  exact List.append_nil _

/-- What a chunk does for a created file: the handle has taken in `data`. -/
structure Carries (s s' : FileSynchronizer) (id : ℤ) (h : FileHandle) (data : List UInt8) : Prop where
  others : ∀ path, path ≠ h.path → s'.files path = s.files path
  file : ∀ bytes, s.files h.path = some bytes → h.position = bytes.length →
    ∃ bytes', s'.files h.path = some bytes' ∧ bytes' ++ buffered s' id = bytes ++ h.buffer ++ data ∧
      ∀ h', openHandle s' id = some h' → h'.path = h.path ∧ h'.position = bytes'.length

theorem flush_spec {files : Path → Option (List UInt8)} {h : FileHandle} {bytes : List UInt8}
    (hb : files h.path = some bytes) (hp : h.position = bytes.length) (n : ℕ) :
    (flush files h n).1 h.path = some (bytes ++ h.buffer.take n) ∧
      (flush files h n).2.path = h.path ∧ (flush files h n).2.buffer = h.buffer.drop n ∧
      (flush files h n).2.position = (bytes ++ h.buffer.take n).length := by
  refine ⟨?_,rfl,rfl,?_⟩
  · simp only [flush, Function.update_self, hb, Option.getD_some, hp, writeAt_end]
  · simp only [flush, hp, List.length_append]

theorem fwrite_eq {h : FileHandle} (hwrite : h.readOnly = false) (files : Path → Option (List UInt8))
    (data : List UInt8) (flushed : ℕ) :
    fwrite files h data flushed = flush files { h with buffer := h.buffer ++ data } flushed := by
  rw [fwrite, hwrite]
  rfl

theorem fclose_eq {h : FileHandle} (hwrite : h.readOnly = false) (files : Path → Option (List UInt8)) :
    fclose files h = (flush files h h.buffer.length).1 := by
  rw [fclose, hwrite]
  rfl

theorem flush_files_ne {files : Path → Option (List UInt8)} {h : FileHandle} {path : Path}
    (hne : path ≠ h.path) (n : ℕ) : (flush files h n).1 path = files path :=
  Function.update_of_ne hne _ _

theorem StreamOk.carry {s₀ s s' : FileSynchronizer} {pre : List Call} {c : FileData} {flushed : ℕ}
    {confirmed : Bool} (h : StreamOk s₀ pre s c.globalFileId) {p' : Progress}
    (hnext : progress c.globalFileId (pre ++ [.chunk c flushed confirmed]) = some p')
    (hcr : p'.created = true) {fh : FileHandle} (hfh : openHandle s c.globalFileId = some fh)
    (hentry : Entry s' c.globalFileId (created s₀ pre) p')
    (hcar : Carries s s' c.globalFileId fh (Call.body (.chunk c flushed confirmed))) :
    StreamOk s₀ (pre ++ [.chunk c flushed confirmed]) s' c.globalFileId := by
  refine ⟨fun q hq => ?_,fun path hpath => ?_,fun path hpath => ⟨p',hnext,hcr⟩⟩
  · rw [hnext, Option.some.injEq] at hq
    rw [created_chunk, ← hq]
    exact hentry
  · rw [created_chunk] at hpath
    obtain ⟨bytes,h1,h2,h3⟩ := h.file path hpath
    obtain ⟨rfl,hpos⟩ := h3 fh hfh
    obtain ⟨bytes',h4,h5,h6⟩ := hcar.file bytes h1 hpos
    refine ⟨bytes',h4,?_,h6⟩
    have hpay := payload_concat_self pre (.chunk c flushed confirmed)
    simp only [Call.globalFileId] at hpay
    rw [h5, hpay, ← h2, buffered, hfh]
    rfl

theorem isWriteOf_of_filter {l : List TransferringFile} {id : ℤ} {e : TransferringFile}
    (h : l.filter (isWriteOf id) = [e]) : isWriteOf id e = true := by
  have he : e ∈ l.filter (isWriteOf id) := by rw [h]; exact List.mem_singleton_self e
  exact (List.mem_filter.mp he).2

theorem StreamOk.ignore {s₀ s : FileSynchronizer} {pre : List Call} {c : FileData} {flushed : ℕ}
    {confirmed : Bool} {m : FileMetadata} (h : StreamOk s₀ pre s c.globalFileId)
    (hp : progress c.globalFileId pre = some (.active m false)) {p' : Progress}
    (hnext : progress c.globalFileId (pre ++ [.chunk c flushed confirmed]) = some p')
    (hentry : Entry s c.globalFileId (created s₀ pre) p') :
    StreamOk s₀ (pre ++ [.chunk c flushed confirmed]) s c.globalFileId := by
  have hnone : ∀ path, (c.globalFileId,path) ∉ created s₀ pre := by
    intro path hpath
    obtain ⟨p,h1,h2⟩ := h.started path hpath
    rw [hp, Option.some.injEq] at h1
    rw [← h1] at h2
    cases h2
  refine ⟨fun q hq => ?_,fun path hpath => ?_,fun path hpath => ?_⟩
  · rw [hnext, Option.some.injEq] at hq
    rw [created_chunk, ← hq]
    exact hentry
  · rw [created_chunk] at hpath
    exact absurd hpath (hnone path)
  · rw [created_chunk] at hpath
    exact absurd hpath (hnone path)

theorem Inv.chunk {s₀ s s' : FileSynchronizer} {pre : List Call} {c : FileData} {flushed : ℕ}
    {confirmed : Bool} (h : Inv s₀ pre s)
    (hpaths : ((created s₀ pre).map Prod.snd).Nodup) {fh : FileHandle}
    (hmem : (c.globalFileId,fh.path) ∈ created s₀ pre)
    (hinit : s'.isInitialized = s.isInitialized) (hact : s'.enabledActions = s.enabledActions)
    (huniq : s'.uniqueId = s.uniqueId)
    (hl : ∀ id, c.globalFileId ≠ id →
      s'.transferringFiles.filter (isWriteOf id) = s.transferringFiles.filter (isWriteOf id))
    (hfiles : ∀ path, path ≠ fh.path → s'.files path = s.files path)
    (hself : StreamOk s₀ (pre ++ [.chunk c flushed confirmed]) s' c.globalFileId) :
    Inv s₀ (pre ++ [.chunk c flushed confirmed]) s' := by
  refine ⟨hinit.trans h.isInitialized,hact.trans h.enabledActions,?_,fun id => ?_⟩
  · simp [huniq, h.uniqueId, opens]
  by_cases hid : c.globalFileId = id
  · exact hid ▸ hself
  · refine (h.stream id).frame (c := .chunk c flushed confirmed) hid (hl id hid)
      (fun path hpath => hfiles path (fun heq => hid ?_))
    -- two files at one path
    have hinj := List.inj_on_of_nodup_map hpaths hmem hpath heq.symm
    exact congrArg Prod.fst hinj

theorem writeFileChunk_of_filter {s : FileSynchronizer} {c : FileData} {e : TransferringFile}
    (hi : s.isInitialized = true) (hf : s.transferringFiles.filter (isWriteOf c.globalFileId) = [e]) :
    s.isInitialized ≠ false ∧
      getWriteFileWithGlobalId s.transferringFiles c.globalFileId = some e := by
  refine ⟨by simp [hi],?_⟩
  rw [getWriteFileWithGlobalId_eq, hf]
  rfl

theorem failed_ok {s₀ s : FileSynchronizer} {pre : List Call} {c : FileData} {flushed : ℕ}
    {confirmed : Bool} {m : FileMetadata} (h : Inv s₀ pre s)
    (hleg : Interleaved (pre ++ [.chunk c flushed confirmed]))
    (hp : progress c.globalFileId pre = some (.active m false)) :
    ∃ t, call s (.chunk c flushed confirmed) = .ok t ∧
      Inv s₀ (pre ++ [.chunk c flushed confirmed]) t := by
  obtain ⟨e,hf,ht,-,hn⟩ := (h.stream c.globalFileId).entry _ hp
  obtain ⟨hi,hget⟩ := writeFileChunk_of_filter h.isInitialized hf
  refine ⟨s,?_,h.isInitialized,h.enabledActions,?_,fun id => ?_⟩
  · simp only [call, fileSynchronizerWriteFileChunk, if_neg hi, hget, hn rfl]
  · simp [h.uniqueId, opens]
  by_cases hid : c.globalFileId = id
  · subst hid
    obtain ⟨m',cr',hp',hnext⟩ := progress_chunk hleg
    rw [hp, Option.some.injEq, Progress.active.injEq] at hp'
    obtain ⟨rfl,rfl⟩ := hp'
    rcases hnext with ⟨-,hnext⟩ | ⟨-,hnext⟩
    · exact (h.stream c.globalFileId).ignore hp hnext ⟨e,hf,ht,fun h => absurd h Bool.false_ne_true,hn⟩
    · exact (h.stream c.globalFileId).ignore hp hnext ⟨e,hf,hn rfl⟩
  · exact (h.stream id).frame (c := .chunk c flushed confirmed) hid rfl (fun _ _ => rfl)

theorem body_ok {s₀ s : FileSynchronizer} {pre : List Call} {c : FileData} {flushed : ℕ}
    {confirmed : Bool} {m : FileMetadata} (h : Inv s₀ pre s)
    (hpaths : ((created s₀ pre).map Prod.snd).Nodup) (hc : c.chunkType = .body)
    (hp : progress c.globalFileId pre = some (.active m true))
    (hnext : progress c.globalFileId (pre ++ [.chunk c flushed confirmed]) =
      some (.active m true)) :
    ∃ t, call s (.chunk c flushed confirmed) = .ok t ∧
      Inv s₀ (pre ++ [.chunk c flushed confirmed]) t := by
  obtain ⟨e,hf,ht,hcr,-⟩ := (h.stream c.globalFileId).entry _ hp
  obtain ⟨fh,hfh,hwrite,hmem⟩ := hcr rfl
  obtain ⟨hi,hget⟩ := writeFileChunk_of_filter h.isInitialized hf
  have hw := isWriteOf_of_filter hf
  set r := flush s.files { fh with buffer := fh.buffer ++ c.data } flushed with hr
  set f : TransferringFile → Option TransferringFile := fun e => some { e with
    fileHandle := some r.2
    bytesWritten := e.bytesWritten + c.data.length } with hfdef
  have hfilter : (updateWriteFile c.globalFileId f s.transferringFiles).filter
      (isWriteOf c.globalFileId) = [{ e with
        fileHandle := some r.2
        bytesWritten := e.bytesWritten + c.data.length }] :=
    (filter_updateWriteFile_self hf f).trans (List.filter_cons_of_pos hw)
  have hopen : openHandle s c.globalFileId = some fh := (openHandle_of_filter hf).trans hfh
  refine ⟨{ s with
    files := r.1
    transferringFiles := updateWriteFile c.globalFileId f s.transferringFiles },?_,?_⟩
  · simp only [call, fileSynchronizerWriteFileChunk, if_neg hi, hget, hfh, hc, fwrite_eq hwrite, ← hr, ← hfdef]
  refine h.chunk hpaths hmem rfl rfl rfl (fun id hid => ?_) (fun path hne => ?_) ?_
  · apply filter_updateWriteFile_ne hid
    intro e₁ e₂ he
    cases he
    rfl
  · exact flush_files_ne (h := { fh with buffer := fh.buffer ++ c.data }) hne flushed
  refine (h.stream c.globalFileId).carry hnext rfl hopen ?_ ⟨?_,?_⟩
  · exact ⟨_,hfilter,ht,fun _ => ⟨r.2,rfl,hwrite,hmem⟩,nofun⟩
  · exact fun path hne => flush_files_ne (h := { fh with buffer := fh.buffer ++ c.data }) hne flushed
  · intro bytes hb hpos
    obtain ⟨h1,h2,h3,h4⟩ := flush_spec (h := { fh with buffer := fh.buffer ++ c.data }) hb hpos flushed
    have ho := openHandle_of_filter (s := { s with
      files := r.1, transferringFiles := updateWriteFile c.globalFileId f s.transferringFiles }) hfilter
    refine ⟨_,h1,?_,fun h' hh' => ?_⟩
    · rw [buffered, ho]
      simp only [Option.elim_some, Call.body, hc, if_true]
      rw [hr, h3, List.append_assoc, List.take_append_drop, List.append_assoc]
    · rw [ho, Option.some.injEq] at hh'
      rw [← hh', hr]
      exact ⟨h2,h4⟩

theorem close_ok {s₀ s : FileSynchronizer} {pre : List Call} {c : FileData} {flushed : ℕ}
    {confirmed : Bool} {m : FileMetadata} (h : Inv s₀ pre s)
    (hpaths : ((created s₀ pre).map Prod.snd).Nodup) (hc : c.chunkType = .close)
    (hp : progress c.globalFileId pre = some (.active m true))
    (hnext : progress c.globalFileId (pre ++ [.chunk c flushed confirmed]) =
      some (.closed m true))
    (hprov : Provided s₀.enabledActions pre (.chunk c flushed confirmed)) :
    ∃ t, call s (.chunk c flushed confirmed) = .ok t ∧
      Inv s₀ (pre ++ [.chunk c flushed confirmed]) t := by
  obtain ⟨e,hf,ht,hcr,-⟩ := (h.stream c.globalFileId).entry _ hp
  obtain ⟨fh,hfh,hwrite,hmem⟩ := hcr rfl
  obtain ⟨hi,hget⟩ := writeFileChunk_of_filter h.isInitialized hf
  have hconf : ¬(e.transferType &&& s.enabledActions = fileTransferServerUpload ∧
      confirmed = false) := by
    rintro ⟨h1,h2⟩
    rw [ht, h.enabledActions] at h1
    rw [hprov hc m hp h1] at h2
    cases h2
  have hfilter : (updateWriteFile c.globalFileId (fun _ => none) s.transferringFiles).filter
      (isWriteOf c.globalFileId) = [] := filter_updateWriteFile_self hf _
  have hopen : openHandle s c.globalFileId = some fh := (openHandle_of_filter hf).trans hfh
  refine ⟨{ s with
    files := (flush s.files fh fh.buffer.length).1
    transferringFiles := updateWriteFile c.globalFileId (fun _ => none) s.transferringFiles },?_,?_⟩
  · simp only [call, fileSynchronizerWriteFileChunk, if_neg hi, hget, hfh, hc, if_neg hconf, fclose_eq hwrite]
  refine h.chunk hpaths hmem rfl rfl rfl (fun id hid => ?_) (fun path hne => ?_) ?_
  · exact filter_updateWriteFile_ne hid (fun _ _ he => by cases he) _
  · exact flush_files_ne hne _
  refine (h.stream c.globalFileId).carry hnext rfl hopen hfilter ⟨?_,?_⟩
  · exact fun path hne => flush_files_ne hne _
  · intro bytes hb hpos
    obtain ⟨h1,-,-,-⟩ := flush_spec hb hpos fh.buffer.length
    have ho := openHandle_of_nil (s := { s with
      files := (flush s.files fh fh.buffer.length).1
      transferringFiles := updateWriteFile c.globalFileId (fun _ => none) s.transferringFiles }) hfilter
    refine ⟨_,h1,?_,fun h' hh' => ?_⟩
    · rw [buffered, ho]
      simp [Call.body, hc]
    · rw [ho] at hh'
      cases hh'

theorem chunk_ok {s₀ s : FileSynchronizer} {pre : List Call} {c : FileData} {flushed : ℕ}
    {confirmed : Bool} (h : Inv s₀ pre s)
    (hleg : Interleaved (pre ++ [.chunk c flushed confirmed]))
    (hpaths : ((created s₀ pre).map Prod.snd).Nodup)
    (hprov : Provided s₀.enabledActions pre (.chunk c flushed confirmed)) :
    ∃ t, call s (.chunk c flushed confirmed) = .ok t ∧
      Inv s₀ (pre ++ [.chunk c flushed confirmed]) t := by
  obtain ⟨m,cr,hp,hnext⟩ := progress_chunk hleg
  cases cr with
  | false => exact failed_ok h hleg hp
  | true =>
    rcases hnext with ⟨hc,hnext⟩ | ⟨hc,hnext⟩
    · exact body_ok h hpaths hc hp hnext
    · exact close_ok h hpaths hc hp hnext hprov

theorem start_inv {s₀ : FileSynchronizer} (h : Ready s₀) : Inv s₀ [] s₀ := by
  refine ⟨h.isInitialized,rfl,rfl,fun id => ⟨fun p hp => ?_,nofun,nofun⟩⟩
  have hidle : p = .idle := (Option.some.inj hp).symm
  subst hidle
  apply List.filter_eq_nil_iff.mpr
  intro e he
  simp [isWriteOf, h.noWrite e he]

theorem created_of_closed {calls : List Call} {id : ℤ} {m : FileMetadata} {cr : Bool}
    (hall : ∀ pre c post, calls = pre ++ c :: post → ClosesCreated pre c)
    (hp : progress id calls = some (.closed m cr)) : cr = true := by
  induction calls using List.reverseRecOn with
  | nil => cases hp
  | append_singleton pre c ih =>
    by_cases hid : c.globalFileId = id
    · subst hid
      have hlast := hall pre c [] rfl
      rw [progress_concat_self] at hp
      obtain ⟨p,hpre,hnext⟩ := Option.bind_eq_some_iff.mp hp
      cases p with
      | idle => cases c <;> cases hnext
      | closed m' cr' => cases c <;> cases hnext
      | active m' cr' =>
        cases c with
        | metadata m₁ d cr₁ => cases hnext
        | chunk c fl conf =>
          simp only [Progress.next] at hnext
          cases hc : c.chunkType with
          | body => rw [hc] at hnext; cases hnext
          | closeAck => rw [hc] at hnext; cases hnext
          | close =>
            rw [hc] at hnext
            cases hnext
            exact hlast hc m cr hpre
    · rw [progress_concat_ne hid] at hp
      refine ih (fun pre' c' post' hpre => hall pre' c' (post' ++ [c]) ?_) hp
      rw [hpre, List.append_assoc, List.cons_append]

theorem Inv.exact_iff {s₀ s : FileSynchronizer} {calls : List Call} (h : Inv s₀ calls s)
    (hleg : Interleaved calls) :
    Exact s₀ calls s ↔
      ∀ pre c post, calls = pre ++ c :: post → ClosesCreated pre c := by
  constructor
  · intro hex pre c post hcalls
    cases c with
    | metadata m d cr => trivial
    | chunk c fl conf =>
      intro hc m cr hp
      cases cr with
      | true => rfl
      | false =>
        -- the entry of a file that was not created is still there
        exfalso
        have hsplit : calls = (pre ++ [.chunk c fl conf]) ++ post := by simp [hcalls]
        rw [hsplit] at hleg
        obtain ⟨m',cr',hp',hnext⟩ := progress_chunk hleg.before
        rw [hp, Option.some.injEq, Progress.active.injEq] at hp'
        obtain ⟨rfl,rfl⟩ := hp'
        rcases hnext with ⟨hb,-⟩ | ⟨-,hnext⟩
        · rw [hc] at hb
          cases hb
        · have hclosed := closed_append hleg hnext
          rw [← hsplit] at hclosed
          obtain ⟨e,he,-⟩ := (h.stream c.globalFileId).entry _ hclosed
          have hmem : e ∈ s.transferringFiles.filter (isWriteOf c.globalFileId) := by
            rw [he]
            exact List.mem_singleton_self e
          have hw := List.mem_filter.mp hmem
          simp only [isWriteOf, Bool.and_eq_true, decide_eq_true_eq] at hw
          exact hex.removed _ _ _ hclosed e hw.1 hw.2
  · intro hall
    refine ⟨fun f hf => ?_,fun id m cr hp e he hw => ?_⟩
    · obtain ⟨bytes,h1,h2,-⟩ := (h.stream f.1).file f.2 hf
      exact ⟨bytes,h1,h2⟩
    · have hcr : cr = true := created_of_closed hall hp
      subst hcr
      have hnil : s.transferringFiles.filter (isWriteOf id) = [] := (h.stream id).entry _ hp
      refine List.filter_eq_nil_iff.mp hnil e he ?_
      simp [isWriteOf, hw.1, hw.2]

theorem closesCreated_of_created {pre : List Call}
    (h : ∀ m d cr, Call.metadata m d cr ∈ pre → cr = true) (c : Call) : ClosesCreated pre c := by
  have key : ∀ id p, progress id pre = some p → p = .idle ∨ p.created = true := by
    intro id
    induction pre using List.reverseRecOn with
    | nil => exact fun p hp => Or.inl (Option.some.inj hp).symm
    | append_singleton pre a ih =>
      intro p hp
      have ih := ih (fun m d cr hm => h m d cr (List.mem_append_left _ hm))
      by_cases hid : a.globalFileId = id
      · subst hid
        rw [progress_concat_self] at hp
        obtain ⟨q,hq,hnext⟩ := Option.bind_eq_some_iff.mp hp
        cases a with
        | metadata m d cr =>
          have hcr := h m d cr (List.mem_append_right _ (List.mem_singleton_self _))
          cases q <;> cases hnext
          exact Or.inr hcr
        | chunk c fl conf =>
          cases q with
          | idle => cases hnext
          | closed m cr => cases hnext
          | active m cr =>
            have hcr : cr = true := (ih _ hq).resolve_left nofun
            simp only [Progress.next] at hnext
            cases hc : c.chunkType <;> rw [hc] at hnext <;> cases hnext
            · exact Or.inr hcr
            · exact Or.inr hcr
      · rw [progress_concat_ne hid] at hp
        exact ih p hp
  cases c with
  | metadata m d cr => trivial
  | chunk c fl conf => exact fun _ m cr hp => (key _ _ hp).resolve_left nofun

/-- Where no two files are created at one path, interleaved transfers come out exact if and
only if no null pointer comes back and every file that is closed could be created. -/
theorem transfers_exact_iff {s₀ : FileSynchronizer} (h₀ : Ready s₀) {calls : List Call}
    (hleg : Interleaved calls) (hpaths : ((created s₀ calls).map Prod.snd).Nodup) :
    (∃ s, Run.run call s₀ calls = .ok s ∧ Exact s₀ calls s) ↔
      ∀ pre c post, calls = pre ++ c :: post →
        Provided s₀.enabledActions pre c ∧ ClosesCreated pre c := by
  have hstep : ∀ pre c post s, calls = pre ++ c :: post → Inv s₀ pre s →
      Provided s₀.enabledActions pre c → ∃ t, call s c = .ok t ∧ Inv s₀ (pre ++ [c]) t := by
    intro pre c post s hcalls hinv hprov
    have hsplit : calls = (pre ++ [c]) ++ post := by simp [hcalls]
    rw [hsplit] at hleg hpaths
    have hpre : ((created s₀ (pre ++ [c])).map Prod.snd).Nodup := by
      rw [created, createdFiles_append, List.map_append] at hpaths
      exact hpaths.of_append_left
    cases c with
    | metadata m d cr => exact metadata_ok hinv hleg.before hpre hprov
    | chunk c fl conf =>
      rw [created_chunk] at hpre
      exact chunk_ok hinv hleg.before hpre hprov
  have hbad : ∀ pre c post s, calls = pre ++ c :: post → Inv s₀ pre s →
      ¬Provided s₀.enabledActions pre c → ∃ e, call s c = .error e := by
    intro pre c post s hcalls hinv hprov
    cases c with
    | metadata m d cr =>
      simp only [Provided, Classical.not_imp] at hprov
      refine ⟨.fileDir,if_pos ⟨?_,by simpa using hprov.2⟩⟩
      rw [hinv.enabledActions]
      exact hprov.1
    | chunk c fl conf =>
      simp only [Provided, Classical.not_imp, not_forall] at hprov
      obtain ⟨hc,m,hp,hact,hconf⟩ := hprov
      obtain ⟨e,hf,ht,hcr,-⟩ := (hinv.stream c.globalFileId).entry _ hp
      obtain ⟨fh,hfh,-⟩ := hcr rfl
      obtain ⟨hi,hget⟩ := writeFileChunk_of_filter hinv.isInitialized hf
      have hnull : e.transferType &&& s.enabledActions = fileTransferServerUpload ∧ conf = false := by
        rw [ht, hinv.enabledActions]
        exact ⟨hact,by simpa using hconf⟩
      refine ⟨.confirmFile,?_⟩
      simp only [call, fileSynchronizerWriteFileChunk, if_neg hi, hget, hfh, hc, if_pos hnull]
  rcases Run.run_ok_or_error_of_calls (start_inv h₀) hstep hbad with ⟨⟨s,hs,hinv⟩,hall⟩ | ⟨⟨e,he⟩,hall⟩
  · have hiff := hinv.exact_iff hleg
    constructor
    · rintro ⟨s',hs',hex⟩ pre c post hcalls
      rw [hs, Except.ok.injEq] at hs'
      subst hs'
      exact ⟨hall pre c post hcalls,hiff.mp hex pre c post hcalls⟩
    · exact fun h => ⟨s,hs,hiff.mpr (fun pre c post hcalls => (h pre c post hcalls).2)⟩
  · constructor
    · rintro ⟨s,hs,-⟩
      rw [he] at hs
      cases hs
    · exact fun h => absurd (fun pre c post hcalls => (h pre c post hcalls).1) hall

/-- `init_file_synchronizer` without actions, in an empty file system. -/
def emptySynchronizer : FileSynchronizer := ⟨true,0,[],0,0,fun _ => none⟩

theorem emptySynchronizer_ready : Ready emptySynchronizer := ⟨rfl,nofun⟩

def sampleMetadata (id : ℤ) (name : Char) : FileMetadata := ⟨id,0,⟨0,0⟩,0,[name]⟩

def twoFiles : List Call :=
  [.metadata (sampleMetadata 1 'a') true true, .metadata (sampleMetadata 2 'b') true true,
    .chunk ⟨2,.body,[5]⟩ 0 true, .chunk ⟨1,.body,[7, 8]⟩ 1 true, .chunk ⟨1,.close,[]⟩ 0 true,
    .chunk ⟨2,.close,[]⟩ 0 true]

theorem twoFiles_interleaved : Interleaved twoFiles := by
  intro id
  by_cases h1 : (1 : ℤ) = id
  · subst h1
    rfl
  by_cases h2 : (2 : ℤ) = id
  · subst h2
    rfl
  have hnil : transfer id twoFiles = [] := by
    simp [transfer, twoFiles, Call.globalFileId, sampleMetadata, h1, h2]
  rw [progress, hnil]
  rfl

theorem two_files_exact :
    ∃ s, Run.run call emptySynchronizer twoFiles = .ok s ∧ Exact emptySynchronizer twoFiles s := by
  refine (transfers_exact_iff emptySynchronizer_ready twoFiles_interleaved (by decide)).mpr ?_
  intro pre c post hcalls
  constructor
  · cases c with
    | metadata m d cr => exact fun h => absurd h (by simp [emptySynchronizer, fileTransferServerDrop])
    | chunk c fl conf =>
      exact fun _ m _ h => absurd h (by simp [emptySynchronizer, fileTransferServerUpload])
  · apply closesCreated_of_created
    intro m d cr hm
    have hmem : Call.metadata m d cr ∈ twoFiles := by
      rw [hcalls]
      exact List.mem_append_left _ hm
    simp only [twoFiles, List.mem_cons, Call.metadata.injEq, List.not_mem_nil, reduceCtorEq,
      or_false] at hmem
    rcases hmem with ⟨-,-,h⟩ | ⟨-,-,h⟩
    · exact h
    · exact h

def failedFile : List Call :=
  [.metadata (sampleMetadata 1 'a') true false, .chunk ⟨1,.close,[]⟩ 0 true]

/-- A file that could not be created keeps its entry when it is closed. -/
theorem failed_file_stays : Ready emptySynchronizer ∧ Interleaved failedFile ∧
    ∃ s, Run.run call emptySynchronizer failedFile = .ok s ∧
      progress 1 failedFile = some (.closed (sampleMetadata 1 'a') false) ∧
      (∃ e ∈ s.transferringFiles, e.globalFileId = 1 ∧ e.direction = .writeEnd) ∧
      ¬Exact emptySynchronizer failedFile s := by
  refine ⟨emptySynchronizer_ready,?_,_,rfl,rfl,?_⟩
  · intro id
    by_cases h1 : (1 : ℤ) = id
    · subst h1
      rfl
    have hnil : transfer id failedFile = [] := by
      simp [transfer, failedFile, Call.globalFileId, sampleMetadata, h1]
    rw [progress, hnil]
    rfl
  · refine ⟨⟨_,List.mem_singleton_self _,rfl,rfl⟩,fun hex => ?_⟩
    exact hex.removed 1 (sampleMetadata 1 'a') false rfl _ (List.mem_singleton_self _) ⟨rfl,rfl⟩

end Whist.File
