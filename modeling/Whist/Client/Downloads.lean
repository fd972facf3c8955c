import Whist.File.FileSynchronizer

/-! # Downloads shown by the client

The client tells its frontend of a download when its metadata arrives and for each chunk.  Downloads are numbered as
`file_synchronizer_open_file_for_writing` numbers its entries.
-/
namespace Whist.Download
open Run Whist.File

inductive DownloadEvent
  | start (download : ℤ) (filePath : Path) (fileSize : ℤ)
  | update (download : ℤ) (bytesSoFar : ℕ)
  | complete (download : ℤ)
deriving DecidableEq

/-- The synchronizer and the calls the frontend got; the rate of a download is left out. -/
structure Client where
  synchronizer : FileSynchronizer
  events : List DownloadEvent := []

/-- The entry that `file_synchronizer_write_file_chunk` returns, where `t` is the state after. -/
def returnedFile (s t : FileSynchronizer) (c : FileData) : Option TransferringFile :=
  if s.isInitialized = false then none
  else
    match getWriteFileWithGlobalId s.transferringFiles c.globalFileId with
    | none => none
    | some file =>
      match file.fileHandle,c.chunkType with
      | none,_ | some _,.close => none
      | some _,.body | some _,.closeAck =>
        getWriteFileWithGlobalId t.transferringFiles c.globalFileId

def handleFileMetadataMessage (s : Client) (m : FileMetadata) (dropDirectory created : Bool) :
    Except Crash Client :=
  (fileSynchronizerOpenFileForWriting s.synchronizer m dropDirectory created).map fun t =>
    { synchronizer := t
      events := s.events ++ [.start s.synchronizer.uniqueId
        (writePath s.synchronizer.enabledActions s.synchronizer.uniqueId m) m.fileSize] }

def handleFileChunkMessage (s : Client) (c : FileData) (flushed : ℕ) (confirmed : Bool) :
    Except Crash Client :=
  (fileSynchronizerWriteFileChunk s.synchronizer c flushed confirmed).map fun t =>
    match returnedFile s.synchronizer t c with
    | none => { synchronizer := t, events := s.events }
    | some file =>
      { synchronizer := t, events := s.events ++ [.update file.id file.bytesWritten] }

def handleServerMessage (s : Client) : Call → Except Crash Client
  | .metadata m dropDirectory created => handleFileMetadataMessage s m dropDirectory created
  | .chunk c flushed confirmed => handleFileChunkMessage s c flushed confirmed

/-- On a client the handlers do not crash (`handleServerMessage_ok`). -/
def step (s : Client) (call : Call) : Client :=
  match handleServerMessage s call with
  | .error _ => s
  | .ok t => t

def initFileSynchronizer (uniqueId : ℕ) (files : Path → Option (List UInt8)) : Client where
  synchronizer := ⟨true,0,[],uniqueId,0,files⟩

/-- A download that was started and whose FILE_CLOSE has not come. -/
structure Shown where
  download : ℤ
  globalFileId : ℤ
  created : Bool
  written : ℕ
deriving DecidableEq

structure Tracker where
  next : ℕ
  shown : List Shown := []

def wrote (id : ℤ) (size : ℕ) : List Shown → List Shown
  | [] => []
  | d :: rest =>
    if d.globalFileId = id then
      (if d.created then { d with written := d.written + size } else d) :: rest
    else d :: wrote id size rest

def track (t : Tracker) : Call → Tracker
  | .metadata m _ created =>
    ⟨t.next + 1,t.shown ++ [⟨t.next,m.globalFileId,created,0⟩]⟩
  | .chunk c _ _ =>
    match c.chunkType with
    | .body => { t with shown := wrote c.globalFileId c.data.length t.shown }
    | .close => { t with shown := t.shown.eraseP (·.globalFileId = c.globalFileId) }
    | .closeAck => t

/-- The calls of the frontend that a message should lead to. -/
def Expected (t : Tracker) (call : Call) (events : List DownloadEvent) : Prop :=
  match call with
  | .metadata m _ _ => ∃ filePath, events = [.start t.next filePath m.fileSize]
  | .chunk c _ _ =>
    match t.shown.find? (·.globalFileId = c.globalFileId) with
    | none => events = []
    | some d =>
      match c.chunkType,d.created with
      | .close,_ => events = [.complete d.download]
      | .body,true => events = [.update d.download (d.written + c.data.length)]
      | .body,false | .closeAck,_ => ∀ event ∈ events, event = .update d.download d.written

/-- After the calls so far, the next one tells the frontend what it should. -/
def Told (first : ℕ) (pre : List Call) (s : Client) (call : Call) : Prop :=
  ∃ events, (step s call).events = s.events ++ events ∧
    Expected (pre.foldl track ⟨first,[]⟩) call events

def isStartOf (id : ℤ) : Call → Bool
  | .metadata m _ _ => m.globalFileId = id
  | .chunk .. => false

def isCloseOf (id : ℤ) : Call → Bool
  | .metadata .. => false
  | .chunk c _ _ => c.globalFileId = id && c.chunkType = .close

/-- No FILE_CLOSE comes for a file whose metadata came. -/
def NeverClosed (pre : List Call) (call : Call) : Prop :=
  ∀ id, isCloseOf id call = true → ∀ b ∈ pre, isStartOf id b = false

def shownOf (e : TransferringFile) : Shown where
  download := e.id
  globalFileId := e.globalFileId
  created := e.fileHandle.isSome
  written := e.bytesWritten

section
variable {l : List TransferringFile} {id : ℤ} {e : TransferringFile}

theorem find?_shownOf (hl : ∀ e ∈ l, e.direction = .writeEnd) (id : ℤ) :
    (l.map shownOf).find? (·.globalFileId = id) =
      (getWriteFileWithGlobalId l id).map shownOf := by
  induction l with
  | nil => rfl
  | cons e l ih =>
    have hdir := hl e List.mem_cons_self
    have ih := ih fun e he => hl e (List.mem_cons_of_mem _ he)
    rw [getWriteFileWithGlobalId] at ih ⊢
    by_cases heq : e.globalFileId = id
    · have hwrite : isWriteOf id e = true := by simp [isWriteOf, heq, hdir]
      have hshown : decide ((shownOf e).globalFileId = id) = true := decide_eq_true heq
      simp only [List.map_cons, List.find?_cons, hwrite, hshown, Option.map_some]
    · have hwrite : ¬isWriteOf id e = true := by simp [isWriteOf, heq]
      have hshown : decide ((shownOf e).globalFileId = id) = false := decide_eq_false heq
      simp only [List.map_cons, List.find?_cons, hwrite, hshown]
      exact ih

theorem updateWriteFile_shownOf (hl : ∀ e ∈ l, e.direction = .writeEnd)
    (he : getWriteFileWithGlobalId l id = some e) (hcreated : e.fileHandle.isSome = true)
    (h : FileHandle) (size : ℕ) :
    (updateWriteFile id (fun e => some { e with
      fileHandle := some h
      bytesWritten := e.bytesWritten + size }) l).map shownOf = wrote id size (l.map shownOf) := by
  induction l with
  | nil => rfl
  | cons e' l ih =>
    have hdir := hl e' List.mem_cons_self
    have ih := ih fun e he => hl e (List.mem_cons_of_mem _ he)
    rw [getWriteFileWithGlobalId] at he ih
    by_cases heq : e'.globalFileId = id
    · have hwrite : isWriteOf id e' = true := by simp [isWriteOf, heq, hdir]
      rw [List.find?_cons_of_pos hwrite, Option.some.injEq] at he
      subst he
      simp [updateWriteFile, hwrite, wrote, shownOf, heq, hcreated]
    · have hwrite : ¬isWriteOf id e' = true := by simp [isWriteOf, heq]
      rw [List.find?_cons_of_neg hwrite] at he
      rw [updateWriteFile, if_neg hwrite, List.map_cons, ih he, List.map_cons, wrote,
        if_neg (show ¬(shownOf e').globalFileId = id from heq)]

theorem getWriteFileWithGlobalId_update (he : getWriteFileWithGlobalId l id = some e)
    {f : TransferringFile → TransferringFile} (hf : ∀ e, isWriteOf id (f e) = isWriteOf id e) :
    getWriteFileWithGlobalId (updateWriteFile id (fun e => some (f e)) l) id = some (f e) := by
  induction l with
  | nil => cases he
  | cons e' l ih =>
    rw [getWriteFileWithGlobalId] at he ih ⊢
    by_cases hwrite : isWriteOf id e' = true
    · rw [List.find?_cons_of_pos hwrite, Option.some.injEq] at he
      rw [updateWriteFile, if_pos hwrite, he]
      exact List.find?_cons_of_pos (by rw [hf, ← he]; exact hwrite)
    · rw [List.find?_cons_of_neg hwrite] at he
      rw [updateWriteFile, if_neg hwrite, List.find?_cons_of_neg hwrite]
      exact ih he

theorem updateWriteFile_map {β : Type*} (g : TransferringFile → β)
    {f : TransferringFile → TransferringFile} (hf : ∀ e, g (f e) = g e) (id : ℤ)
    (l : List TransferringFile) :
    (updateWriteFile id (fun e => some (f e)) l).map g = l.map g := by
  induction l with
  | nil => rfl
  | cons e l ih =>
    rw [updateWriteFile]
    split_ifs
    · exact congrArg (· :: l.map g) (hf e)
    · exact congrArg (g e :: ·) ih

theorem wrote_eq_self (shown : List Shown) (size : ℕ)
    (h : ∀ d ∈ shown.find? (·.globalFileId = id), d.created = false) : wrote id size shown = shown := by
  induction shown with
  | nil => rfl
  | cons d rest ih =>
    rw [wrote]
    split_ifs with heq hcreated
    · rw [h d (List.find?_cons_of_pos (by simpa using heq))] at hcreated
      cases hcreated
    · rfl
    · rw [ih fun d hd => h d (by rw [List.find?_cons_of_neg (by simpa using heq)]; exact hd)]

end

structure Inv (first : ℕ) (pre : List Call) (s : Client) : Prop where
  init : s.synchronizer.isInitialized = true
  actions : s.synchronizer.enabledActions = 0
  writes : ∀ e ∈ s.synchronizer.transferringFiles, e.direction = .writeEnd
  shown : s.synchronizer.transferringFiles.map shownOf = (pre.foldl track ⟨first,[]⟩).shown
  next : s.synchronizer.uniqueId = (pre.foldl track ⟨first,[]⟩).next
  started : ∀ id, (∃ e ∈ s.synchronizer.transferringFiles, e.globalFileId = id) ↔
    ∃ b ∈ pre, isStartOf id b = true

section
variable {first : ℕ} {pre : List Call} {s : Client} {m : FileMetadata} {c : FileData}

/-- Without actions enabled a client's handlers do not use a null pointer. -/
theorem handleServerMessage_ok (h : s.synchronizer.enabledActions = 0) (call : Call) :
    ∃ t, handleServerMessage s call = .ok t := by
  have hdrop : ∀ n : ℕ, n &&& s.synchronizer.enabledActions ≠ fileTransferServerDrop := by
    intro n
    rw [h, Nat.and_zero]
    decide
  have hupload : ∀ n : ℕ, n &&& s.synchronizer.enabledActions ≠ fileTransferServerUpload := by
    intro n
    rw [h, Nat.and_zero]
    decide
  cases call with
  | metadata m dropDirectory created =>
    rw [handleServerMessage, handleFileMetadataMessage, fileSynchronizerOpenFileForWriting,
      if_neg (fun hc => hdrop _ hc.1)]
    exact ⟨_,rfl⟩
  | chunk c flushed confirmed =>
    rw [handleServerMessage, handleFileChunkMessage, fileSynchronizerWriteFileChunk]
    split_ifs
    · exact ⟨_,rfl⟩
    · split
      · exact ⟨_,rfl⟩
      · split
        · exact ⟨_,rfl⟩
        · split
          · exact ⟨_,rfl⟩
          · rw [if_neg (fun hc => hupload _ hc.1)]
            exact ⟨_,rfl⟩
          · exact ⟨_,rfl⟩

theorem Inv.metadata (h : Inv first pre s) (dropDirectory created : Bool) :
    Inv first (pre ++ [.metadata m dropDirectory created])
      (step s (.metadata m dropDirectory created)) ∧
    Told first pre s (.metadata m dropDirectory created) := by
  have hstep : handleServerMessage s (.metadata m dropDirectory created) =
      .ok ⟨{ s.synchronizer with
        uniqueId := s.synchronizer.uniqueId + 1
        transferringFiles := s.synchronizer.transferringFiles ++
          [newWriteFile s.synchronizer m created]
        files :=
          if created then
            Function.update s.synchronizer.files
              (writePath s.synchronizer.enabledActions s.synchronizer.uniqueId m) (some [])
          else s.synchronizer.files },
        s.events ++ [.start s.synchronizer.uniqueId
          (writePath s.synchronizer.enabledActions s.synchronizer.uniqueId m) m.fileSize]⟩ := by
    rw [handleServerMessage, handleFileMetadataMessage, fileSynchronizerOpenFileForWriting,
      if_neg (fun hc => by rw [h.actions, Nat.and_zero] at hc; exact absurd hc.1 (by decide))]
    rfl
  rw [Told, step, hstep]
  have hnew : shownOf (newWriteFile s.synchronizer m created) =
      ⟨(pre.foldl track ⟨first,[]⟩).next,m.globalFileId,created,0⟩ := by
    rw [← h.next]
    cases created <;> rfl
  constructor
  · constructor
    case init => exact h.init
    case actions => exact h.actions
    case writes =>
      intro e he
      rcases List.mem_append.1 he with he | he
      · exact h.writes e he
      · rw [List.mem_singleton.1 he]
        rfl
    case shown =>
      rw [List.foldl_append, List.map_append, h.shown, List.map_singleton, hnew]
      rfl
    case next =>
      rw [List.foldl_append, h.next]
      rfl
    case started =>
      intro id
      have hstart : isStartOf id (.metadata m dropDirectory created) = true ↔
          (newWriteFile s.synchronizer m created).globalFileId = id := decide_eq_true_iff
      simp only [List.mem_append, List.mem_singleton, or_and_right, exists_or, exists_eq_left,
        h.started id, hstart]
  · exact ⟨_,rfl,_,congrArg (fun n : ℕ => [DownloadEvent.start n
      (writePath s.synchronizer.enabledActions s.synchronizer.uniqueId m) m.fileSize]) h.next⟩

theorem Inv.quiet (h : Inv first pre s) {flushed : ℕ} {confirmed : Bool} {t : Client}
    (hstep : handleServerMessage s (.chunk c flushed confirmed) = .ok t)
    (hinit : t.synchronizer.isInitialized = s.synchronizer.isInitialized)
    (hactions : t.synchronizer.enabledActions = s.synchronizer.enabledActions)
    (hfiles : t.synchronizer.transferringFiles = s.synchronizer.transferringFiles)
    (hnext : t.synchronizer.uniqueId = s.synchronizer.uniqueId)
    (htrack : track (pre.foldl track ⟨first,[]⟩) (.chunk c flushed confirmed) =
      pre.foldl track ⟨first,[]⟩) :
    Inv first (pre ++ [.chunk c flushed confirmed]) (step s (.chunk c flushed confirmed)) := by
  rw [step, hstep]
  constructor
  case init => exact hinit.trans h.init
  case actions => exact hactions.trans h.actions
  case writes => exact hfiles ▸ h.writes
  case shown =>
    rw [List.foldl_append]
    exact (congrArg _ hfiles).trans (h.shown.trans (congrArg Tracker.shown htrack.symm))
  case next =>
    rw [List.foldl_append]
    exact hnext.trans (h.next.trans (congrArg Tracker.next htrack.symm))
  case started =>
    intro id
    rw [hfiles, h.started]
    simp [isStartOf]

theorem Inv.find? (h : Inv first pre s) (id : ℤ) :
    (pre.foldl track ⟨first,[]⟩).shown.find? (·.globalFileId = id) =
      (getWriteFileWithGlobalId s.synchronizer.transferringFiles id).map shownOf := by
  rw [← h.shown]
  exact find?_shownOf h.writes id

theorem Inv.getWriteFile_none (h : Inv first pre s) (id : ℤ) :
    getWriteFileWithGlobalId s.synchronizer.transferringFiles id = none ↔
      ∀ b ∈ pre, isStartOf id b = false := by
  rw [getWriteFileWithGlobalId, List.find?_eq_none]
  constructor
  · intro hnone b hb
    by_contra hstart
    obtain ⟨e,he,hid⟩ := (h.started id).2 ⟨b,hb,(Bool.not_eq_false _).mp hstart⟩
    exact hnone e he (by simp [isWriteOf, hid, h.writes e he])
  · intro hall e he hwrite
    rw [isWriteOf, Bool.and_eq_true, decide_eq_true_eq] at hwrite
    obtain ⟨b,hb,hstart⟩ := (h.started id).1 ⟨e,he,hwrite.1⟩
    rw [hall b hb] at hstart
    cases hstart

theorem Inv.unknown (h : Inv first pre s) (flushed : ℕ) (confirmed : Bool)
    (hnone : getWriteFileWithGlobalId s.synchronizer.transferringFiles c.globalFileId = none) :
    Inv first (pre ++ [.chunk c flushed confirmed]) (step s (.chunk c flushed confirmed)) ∧
      Told first pre s (.chunk c flushed confirmed) := by
  have hstep : handleServerMessage s (.chunk c flushed confirmed) =
      .ok ⟨{ s.synchronizer with mutexHeld := s.synchronizer.mutexHeld + 1 },s.events⟩ := by
    simp [handleServerMessage, handleFileChunkMessage, fileSynchronizerWriteFileChunk,
      returnedFile, h.init, hnone, Except.map]
  have hfind := h.find? c.globalFileId
  rw [hnone, Option.map_none] at hfind
  constructor
  · refine h.quiet hstep rfl rfl rfl rfl ?_
    rw [track]
    split
    · rw [wrote_eq_self _ _ (by rw [hfind]; exact fun _ hd => by cases hd)]
    · rw [List.eraseP_of_forall_not fun d hd => List.find?_eq_none.1 hfind d hd]
    · rfl
  · rw [Told, step, hstep]
    refine ⟨[],(List.append_nil _).symm,?_⟩
    rw [Expected, hfind]

theorem Inv.failed (h : Inv first pre s) (flushed : ℕ) (confirmed : Bool) {e : TransferringFile}
    (he : getWriteFileWithGlobalId s.synchronizer.transferringFiles c.globalFileId = some e)
    (hhandle : e.fileHandle = none) (hclose : c.chunkType ≠ .close) :
    Inv first (pre ++ [.chunk c flushed confirmed]) (step s (.chunk c flushed confirmed)) ∧
      Told first pre s (.chunk c flushed confirmed) := by
  have hstep : handleServerMessage s (.chunk c flushed confirmed) = .ok s := by
    simp [handleServerMessage, handleFileChunkMessage, fileSynchronizerWriteFileChunk,
      returnedFile, h.init, he, hhandle, Except.map]
  have hfind := h.find? c.globalFileId
  rw [he, Option.map_some] at hfind
  have hcreated : (shownOf e).created = false := by
    rw [shownOf, hhandle]
    rfl
  constructor
  · refine h.quiet hstep rfl rfl rfl rfl ?_
    rw [track]
    split
    · rw [wrote_eq_self _ _ (by rw [hfind]; rintro _ ⟨⟩; exact hcreated)]
    · next hc => exact absurd hc hclose
    · rfl
  · rw [Told, step, hstep]
    refine ⟨[],(List.append_nil _).symm,?_⟩
    rw [Expected, hfind]
    dsimp only
    rw [hcreated]
    cases hc : c.chunkType with
    | close => exact absurd hc hclose
    | body => exact fun _ hevent => by cases hevent
    | closeAck => exact fun _ hevent => by cases hevent

theorem Inv.body (h : Inv first pre s) (flushed : ℕ) (confirmed : Bool) {e : TransferringFile}
    (he : getWriteFileWithGlobalId s.synchronizer.transferringFiles c.globalFileId = some e)
    {handle : FileHandle} (hhandle : e.fileHandle = some handle) (hbody : c.chunkType = .body) :
    Inv first (pre ++ [.chunk c flushed confirmed]) (step s (.chunk c flushed confirmed)) ∧
      Told first pre s (.chunk c flushed confirmed) := by
  have hcreated : e.fileHandle.isSome = true := by
    rw [hhandle]
    rfl
  have hstep : handleServerMessage s (.chunk c flushed confirmed) =
      .ok ⟨{ s.synchronizer with
        files := (fwrite s.synchronizer.files handle c.data flushed).1
        transferringFiles := updateWriteFile c.globalFileId (fun e => some { e with
          fileHandle := some (fwrite s.synchronizer.files handle c.data flushed).2
          bytesWritten := e.bytesWritten + c.data.length }) s.synchronizer.transferringFiles },
        s.events ++ [.update e.id (e.bytesWritten + c.data.length)]⟩ := by
    simp [handleServerMessage, handleFileChunkMessage, fileSynchronizerWriteFileChunk,
      returnedFile, h.init, he, hhandle, hbody, Except.map,
      getWriteFileWithGlobalId_update he (f := fun e => { e with
        fileHandle := some (fwrite s.synchronizer.files handle c.data flushed).2
        bytesWritten := e.bytesWritten + c.data.length }) (fun _ => rfl)]
  have hkeeps : ∀ {β : Type} (g : TransferringFile → β),
      (∀ e h n, g { e with fileHandle := h, bytesWritten := n } = g e) →
      (updateWriteFile c.globalFileId (fun e => some { e with
        fileHandle := some (fwrite s.synchronizer.files handle c.data flushed).2
        bytesWritten := e.bytesWritten + c.data.length }) s.synchronizer.transferringFiles).map g =
      s.synchronizer.transferringFiles.map g :=
    fun g hg => updateWriteFile_map g (fun e => hg e _ _) _ _
  have hfind := h.find? c.globalFileId
  rw [he, Option.map_some] at hfind
  rw [Told, step, hstep]
  constructor
  · constructor
    case init => exact h.init
    case actions => exact h.actions
    case writes =>
      intro e' he'
      have hmem := List.mem_map_of_mem (f := (·.direction)) he'
      rw [hkeeps (fun e => e.direction) (fun _ _ _ => rfl)] at hmem
      obtain ⟨e₀,he₀,heq⟩ := List.mem_map.1 hmem
      exact heq ▸ h.writes e₀ he₀
    case shown =>
      have hshown := updateWriteFile_shownOf h.writes he hcreated
        (fwrite s.synchronizer.files handle c.data flushed).2 c.data.length
      rw [h.shown] at hshown
      rw [List.foldl_append]
      refine hshown.trans ?_
      simp only [List.foldl_cons, List.foldl_nil, track, hbody]
    case next =>
      rw [List.foldl_append]
      simp only [List.foldl_cons, List.foldl_nil, track, hbody]
      exact h.next
    case started =>
      intro id
      have hids := hkeeps (fun e => e.globalFileId) (fun _ _ _ => rfl)
      have hiff : (∃ e' ∈ updateWriteFile c.globalFileId (fun e => some { e with
          fileHandle := some (fwrite s.synchronizer.files handle c.data flushed).2
          bytesWritten := e.bytesWritten + c.data.length }) s.synchronizer.transferringFiles,
          e'.globalFileId = id) ↔ ∃ e' ∈ s.synchronizer.transferringFiles, e'.globalFileId = id := by
        rw [← List.mem_map, hids, List.mem_map]
      rw [hiff, h.started]
      simp [isStartOf]
  · refine ⟨_,rfl,?_⟩
    rw [Expected, hfind]
    dsimp only [shownOf]
    rw [hbody, hcreated]

theorem Inv.closeAck (h : Inv first pre s) (flushed : ℕ) (confirmed : Bool) {e : TransferringFile}
    (he : getWriteFileWithGlobalId s.synchronizer.transferringFiles c.globalFileId = some e)
    {handle : FileHandle} (hhandle : e.fileHandle = some handle) (hack : c.chunkType = .closeAck) :
    Inv first (pre ++ [.chunk c flushed confirmed]) (step s (.chunk c flushed confirmed)) ∧
      Told first pre s (.chunk c flushed confirmed) := by
  have hstep : handleServerMessage s (.chunk c flushed confirmed) =
      .ok ⟨s.synchronizer,s.events ++ [.update e.id e.bytesWritten]⟩ := by
    simp [handleServerMessage, handleFileChunkMessage, fileSynchronizerWriteFileChunk,
      returnedFile, h.init, he, hhandle, hack, Except.map]
  have hfind := h.find? c.globalFileId
  rw [he, Option.map_some] at hfind
  constructor
  · refine h.quiet hstep rfl rfl rfl rfl ?_
    simp only [track, hack]
  · rw [Told, step, hstep]
    refine ⟨_,rfl,?_⟩
    rw [Expected, hfind]
    dsimp only
    rw [hack]
    exact fun event hevent => List.mem_singleton.1 hevent

theorem Inv.close_not_told (h : Inv first pre s) (flushed : ℕ) (confirmed : Bool)
    {e : TransferringFile}
    (he : getWriteFileWithGlobalId s.synchronizer.transferringFiles c.globalFileId = some e)
    (hclose : c.chunkType = .close) : ¬Told first pre s (.chunk c flushed confirmed) := by
  obtain ⟨t,hstep⟩ := handleServerMessage_ok h.actions (.chunk c flushed confirmed)
  have hevents : t.events = s.events := by
    have hreturned : ∀ t, returnedFile s.synchronizer t c = none := by
      intro t
      simp only [returnedFile, h.init, he, hclose]
      cases e.fileHandle <;> rfl
    rw [handleServerMessage, handleFileChunkMessage] at hstep
    obtain ⟨t',_,rfl⟩ := map_eq_ok hstep
    rw [hreturned]
  have hfind := h.find? c.globalFileId
  rw [he, Option.map_some] at hfind
  rw [Told, step, hstep]
  rintro ⟨events,heq,hexpected⟩
  dsimp only at heq
  rw [hevents] at heq
  have hnil : events = [] := List.append_cancel_left (heq.symm.trans (List.append_nil _).symm)
  rw [Expected, hfind] at hexpected
  dsimp only at hexpected
  rw [hclose, hnil] at hexpected
  cases hexpected

theorem neverClosed_chunk (flushed : ℕ) (confirmed : Bool) :
    NeverClosed pre (.chunk c flushed confirmed) ↔
      (c.chunkType = .close → ∀ b ∈ pre, isStartOf c.globalFileId b = false) := by
  simp only [NeverClosed, isCloseOf, Bool.and_eq_true, decide_eq_true_eq]
  exact ⟨fun h hclose => h _ ⟨rfl,hclose⟩,fun h id hid => hid.1 ▸ h hid.2⟩

theorem Inv.message (h : Inv first pre s) (call : Call) :
    (NeverClosed pre call → Inv first (pre ++ [call]) (step s call)) ∧
      (Told first pre s call ↔ NeverClosed pre call) := by
  cases call with
  | metadata m dropDirectory created =>
    obtain ⟨hinv,htold⟩ := @Inv.metadata _ _ _ m h dropDirectory created
    have hnever : NeverClosed pre (.metadata m dropDirectory created) := fun _ hid => by cases hid
    exact ⟨fun _ => hinv,fun _ => hnever,fun _ => htold⟩
  | chunk c flushed confirmed =>
    rw [neverClosed_chunk, ← h.getWriteFile_none]
    cases he : getWriteFileWithGlobalId s.synchronizer.transferringFiles c.globalFileId with
    | none =>
      obtain ⟨hinv,htold⟩ := h.unknown flushed confirmed he
      exact ⟨fun _ => hinv,fun _ _ => rfl,fun _ => htold⟩
    | some e =>
      by_cases hclose : c.chunkType = .close
      · refine ⟨fun hc => (by cases hc hclose),fun htold => ?_,fun hc => (by cases hc hclose)⟩
        exact absurd htold (h.close_not_told flushed confirmed he hclose)
      · have hboth : Inv first (pre ++ [.chunk c flushed confirmed])
            (step s (.chunk c flushed confirmed)) ∧
            Told first pre s (.chunk c flushed confirmed) := by
          cases hhandle : e.fileHandle with
          | none => exact h.failed flushed confirmed he hhandle hclose
          | some handle =>
            cases htype : c.chunkType with
            | body => exact h.body flushed confirmed he hhandle htype
            | close => exact absurd htype hclose
            | closeAck => exact h.closeAck flushed confirmed he hhandle htype
        exact ⟨fun _ => hboth.1,fun _ hc => absurd hc hclose,fun _ => hboth.2⟩

end

theorem inv_init (uniqueId : ℕ) (files : Path → Option (List UInt8)) :
    Inv uniqueId [] (initFileSynchronizer uniqueId files) where
  init := rfl
  actions := rfl
  writes _ h := by cases h
  shown := rfl
  next := rfl
  started _ := ⟨fun ⟨_,h,_⟩ => (by cases h),fun ⟨_,h,_⟩ => by cases h⟩

/-- The frontend is told of every download what it should be, exactly if no FILE_CLOSE comes for
a download. -/
theorem downloads_told_iff (uniqueId : ℕ) (files : Path → Option (List UInt8)) (calls : List Call) :
    (∀ pre call post, calls = pre ++ call :: post →
      Told uniqueId pre (pre.foldl step (initFileSynchronizer uniqueId files)) call) ↔
    ∀ pre call post, calls = pre ++ call :: post → NeverClosed pre call :=
  @calls_iff _ _ step (Inv uniqueId) NeverClosed (Told uniqueId) calls _
    (inv_init uniqueId files) (fun _ call _ _ _ h hgood => (h.message call).1 hgood)
    (fun _ call _ _ _ h => (h.message call).2)

/-- A file that came and was closed is never completed. -/
theorem closed_never_completed : ¬∀ (uniqueId : ℕ) (files : Path → Option (List UInt8))
    (calls : List Call) (pre : List Call) (call : Call) (post : List Call),
    calls = pre ++ call :: post →
      Told uniqueId pre (pre.foldl step (initFileSynchronizer uniqueId files)) call := by
  intro h
  obtain ⟨events,heq,hexpected⟩ := h 0 (fun _ => none) _
    [.metadata ⟨7,0,⟨0,0⟩,0,['a']⟩ true true] (.chunk ⟨7,.close,[]⟩ 0 true) [] rfl
  have hnil : events = [] := List.append_cancel_left (heq.symm.trans (List.append_nil _).symm)
  rw [hnil] at hexpected
  cases hexpected

end Whist.Download
