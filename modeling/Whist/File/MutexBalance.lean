import Whist.File.FileReading
import Whist.Foundation.RecursiveMutex

/-! # The mutex of the file synchronizer

The public functions with what each return path does to `file_synchrony_update_mutex`.
Any number of threads call them; a call that waits for the mutex does not return.
-/
namespace Whist.File.Locked

inductive Failure where
  | crash (c : Crash)
  | cancelFile
  | noMutex
  | mutex (f : RecursiveMutex.Failure)

/-- The file synchronizer with its mutex, and how often that was taken and released. -/
structure Shared (τ : Type) where
  loop : SyncLoop
  mutex : RecursiveMutex.State τ := none
  taken : ℕ := 0
  released : ℕ := 0

variable {τ : Type} [DecidableEq τ]

def Shared.lock (s : Shared τ) (t : τ) : Except Failure (Shared τ) :=
  if s.loop.synchronizer.isInitialized = false then .error .noMutex
  else
    match RecursiveMutex.lock t s.mutex with
    | .error f => .error (.mutex f)
    | .ok mutex => .ok { s with mutex := mutex, taken := s.taken + 1 }

def Shared.unlock (s : Shared τ) (t : τ) : Except Failure (Shared τ) :=
  match RecursiveMutex.unlock t s.mutex with
  | .error f => .error (.mutex f)
  | .ok mutex => .ok { s with mutex := mutex, released := s.released + 1 }

def Shared.put (s : Shared τ) (synchronizer : FileSynchronizer) : Shared τ :=
  { s with loop := { s.loop with synchronizer := synchronizer } }

def orCrash {α : Type} (x : Except Crash α) : Except Failure α := x.mapError Failure.crash

/-- `dropHandler` says whether `init_file_drop_handler` succeeds. -/
def initFileSynchronizer (s : Shared τ) (requestedActions : ℕ) (dropHandler : Bool) : Shared τ :=
  if s.loop.synchronizer.isInitialized then s
  else
    let enabledActions := s.loop.synchronizer.enabledActions
    let enabledActions :=
      if requestedActions &&& fileTransferServerDrop ≠ 0 ∧ dropHandler then
        enabledActions ||| fileTransferServerDrop
      else enabledActions
    let enabledActions :=
      if requestedActions &&& fileTransferServerUpload ≠ 0 then enabledActions ||| fileTransferServerUpload
      else enabledActions
    { s.put { s.loop.synchronizer with
        transferringFiles := []
        enabledActions := enabledActions
        isInitialized := true } with
      mutex := none }

def fileSynchronizerOpenFileForWriting (s : Shared τ) (t : τ) (m : FileMetadata)
    (dropDirectory created : Bool) : Except Failure (Shared τ) := do
  let s ← s.lock t
  let synchronizer ← orCrash
    (File.fileSynchronizerOpenFileForWriting s.loop.synchronizer m dropDirectory created)
  (s.put synchronizer).unlock t

def fileSynchronizerWriteFileChunk (s : Shared τ) (t : τ) (c : FileData) (flushed : ℕ)
    (confirmed : Bool) : Except Failure (Shared τ) :=
  if s.loop.synchronizer.isInitialized = false then .ok s
  else do
    let s ← s.lock t
    let synchronizer ← orCrash
      (File.fileSynchronizerWriteFileChunk s.loop.synchronizer c flushed confirmed)
    match getWriteFileWithGlobalId s.loop.synchronizer.transferringFiles c.globalFileId with
    -- `Write file with global file id %d not found!`
    | none => .ok (s.put synchronizer)
    | some file =>
      if file.direction ≠ .writeEnd ∨ file.fileHandle = none then s.unlock t
      else (s.put synchronizer).unlock t

def fileSynchronizerSetFileReadingBasicMetadata (s : Shared τ) (t : τ) (filePath : Path)
    (transferType : ℕ) (eventInfo : Option FileEventInfo) : Except Failure (Shared τ) := do
  let s ← s.lock t
  Shared.unlock { s with
    loop := File.fileSynchronizerSetFileReadingBasicMetadata s.loop filePath transferType eventInfo } t

def fileSynchronizerOpenFileForReading (s : Shared τ) (t : τ) (i : ℕ) (e : TransferringFile)
    (opened : Bool) : Except Failure (Shared τ) := do
  let s ← s.lock t
  if e.filePath = none ∨ e.fileHandle ≠ none then s.unlock t
  else if opened = false then (s.put (resetTransferringFile s.loop.synchronizer i e)).unlock t
  else (s.put (File.fileSynchronizerOpenFileForReading s.loop.synchronizer i e opened).2).unlock t

/-- Without initialization an error is logged, and the call goes on. -/
def fileSynchronizerReadNextFileChunk (s : Shared τ) (t : τ) (i : ℕ) (e : TransferringFile) :
    Except Failure (Shared τ) := do
  let s ← s.lock t
  if e.direction ≠ .readEnd ∨ e.fileHandle = none then s.unlock t
  else (s.put (File.fileSynchronizerReadNextFileChunk s.loop.synchronizer i e).2).unlock t

def resetAllTransferringFiles (s : FileSynchronizer) : List TransferringFile → FileSynchronizer
  | [] => s
  | e :: rest => resetAllTransferringFiles (resetTransferringFile s 0 e) rest

def fileSynchronizerEndTypeGroup (s : Shared τ) (t : τ) (transferType : ℕ) :
    Except Failure (Shared τ) := do
  let s ← s.lock t
  Shared.unlock { s with loop := File.fileSynchronizerEndTypeGroup s.loop transferType } t

def fileSynchronizerHandleTypeGroupEnd (s : Shared τ) (i : ℕ) (e : TransferringFile) : Shared τ :=
  if e.groupEnd = false then s else s.put (resetTransferringFile s.loop.synchronizer i e)

/-- The calls, with what the surroundings decide.  An entry is named by its position. -/
inductive PublicCall where
  | init (requestedActions : ℕ) (dropHandler : Bool)
  | getTransferringFiles
  | openFileForWriting (m : FileMetadata) (dropDirectory created : Bool)
  | writeFileChunk (c : FileData) (flushed : ℕ) (confirmed : Bool)
  | setFileReadingBasicMetadata (filePath : Path) (transferType : ℕ) (eventInfo : Option FileEventInfo)
  | openFileForReading (i : ℕ) (opened : Bool)
  | readNextFileChunk (i : ℕ)
  | resetTransferringFile (i : ℕ)
  | resetAllTransferringFiles
  | cancelUserFileUpload (created : Bool)
  | endTypeGroup (transferType : ℕ)
  | handleTypeGroupEnd (i : ℕ)
  deriving DecidableEq

def withEntry (s : Shared τ) (i : ℕ) (f : TransferringFile → Except Failure (Shared τ)) :
    Except Failure (Shared τ) :=
  match s.loop.synchronizer.transferringFiles[i]? with
  | none => .ok s
  | some e => f e

def publicCall (s : Shared τ) (t : τ) : PublicCall → Except Failure (Shared τ)
  | .init requestedActions dropHandler => .ok (initFileSynchronizer s requestedActions dropHandler)
  | .getTransferringFiles => .ok s
  | .openFileForWriting m dropDirectory created =>
    fileSynchronizerOpenFileForWriting s t m dropDirectory created
  | .writeFileChunk c flushed confirmed => fileSynchronizerWriteFileChunk s t c flushed confirmed
  | .setFileReadingBasicMetadata filePath transferType eventInfo =>
    fileSynchronizerSetFileReadingBasicMetadata s t filePath transferType eventInfo
  | .openFileForReading i opened =>
    withEntry s i (fun e => fileSynchronizerOpenFileForReading s t i e opened)
  | .readNextFileChunk i => withEntry s i (fileSynchronizerReadNextFileChunk s t i)
  | .resetTransferringFile i =>
    withEntry s i (fun e => .ok (s.put (File.resetTransferringFile s.loop.synchronizer i e)))
  | .resetAllTransferringFiles =>
    .ok (s.put (resetAllTransferringFiles s.loop.synchronizer s.loop.synchronizer.transferringFiles))
  | .cancelUserFileUpload created => if created then .ok s else .error .cancelFile
  | .endTypeGroup transferType => fileSynchronizerEndTypeGroup s t transferType
  | .handleTypeGroupEnd i => withEntry s i (fun e => .ok (fileSynchronizerHandleTypeGroupEnd s i e))

def callStep (s : Shared τ) (c : τ × PublicCall) : Except Failure (Shared τ) := publicCall s c.1 c.2

def start (files : Path → Option (List UInt8)) : Shared τ where
  loop := ⟨⟨false,0,[],0,0,files⟩,0,[]⟩

def UnknownChunk (s : Shared τ) (call : PublicCall) : Prop :=
  ∃ c flushed confirmed, call = .writeFileChunk c flushed confirmed ∧
    s.loop.synchronizer.isInitialized = true ∧
    getWriteFileWithGlobalId s.loop.synchronizer.transferringFiles c.globalFileId = none

/-- From `s` to `s'` the mutex was released as often as it was taken. -/
def Balanced (s s' : Shared τ) : Prop := s'.taken - s.taken = s'.released - s.released

/-- A call from `s` returns with the mutex free, or stops for another reason than the mutex. -/
def LeavesFree (s : Shared τ) : Except Failure (Shared τ) → Prop
  | .ok s' => Balanced s s' ∧ s'.mutex = none
  | .error e => ∀ f, e ≠ .mutex f

/-- Within a call of `t` from `s`, which has taken the mutex once. -/
structure HeldFrom (t : τ) (s s₁ : Shared τ) : Prop where
  mutex : s₁.mutex = some (t,0)
  taken : s₁.taken = s.taken + 1
  released : s₁.released = s.released

variable {s s₁ : Shared τ} {t : τ}

theorem LeavesFree.same (hs : s.mutex = none) (synchronizer : FileSynchronizer) :
    LeavesFree s (.ok (s.put synchronizer)) :=
  ⟨by simp [Balanced, Shared.put],hs⟩

theorem HeldFrom.unlock (h : HeldFrom t s s₁) : LeavesFree s (s₁.unlock t) := by
  have hfree : RecursiveMutex.unlock t s₁.mutex = .ok none := by
    rw [h.mutex]
    exact RecursiveMutex.unlock_of_lock rfl
  rw [Shared.unlock, hfree]
  refine ⟨?_,rfl⟩
  simp only [Balanced, h.taken, h.released]
  omega

theorem HeldFrom.put (h : HeldFrom t s s₁) (synchronizer : FileSynchronizer) :
    HeldFrom t s (s₁.put synchronizer) := ⟨h.mutex,h.taken,h.released⟩

theorem LeavesFree.lock_bind (hs : s.mutex = none) {f : Shared τ → Except Failure (Shared τ)}
    (hf : ∀ s₁, s₁.loop = s.loop → HeldFrom t s s₁ → LeavesFree s (f s₁)) :
    LeavesFree s (s.lock t >>= f) := by
  rw [Shared.lock]
  split_ifs
  · exact fun _ h => by cases h
  · rw [hs]
    exact hf _ rfl ⟨rfl,rfl,rfl⟩

theorem LeavesFree.orCrash_bind {α : Type} (x : Except Crash α) {f : α → Except Failure (Shared τ)}
    (hf : ∀ a, LeavesFree s (f a)) : LeavesFree s (orCrash x >>= f) := by
  cases x with
  | error c => exact fun _ h => by cases h
  | ok a => exact hf a

theorem LeavesFree.withEntry (hs : s.mutex = none) (i : ℕ)
    {f : TransferringFile → Except Failure (Shared τ)} (hf : ∀ e, LeavesFree s (f e)) :
    LeavesFree s (withEntry s i f) := by
  rw [Locked.withEntry]
  cases s.loop.synchronizer.transferringFiles[i]? with
  | none => exact LeavesFree.same hs s.loop.synchronizer
  | some e => exact hf e

theorem fileSynchronizerWriteFileChunk_leavesFree (hs : s.mutex = none) {c : FileData} {flushed : ℕ}
    {confirmed : Bool} (hknown : ¬UnknownChunk s (.writeFileChunk c flushed confirmed)) :
    LeavesFree s (fileSynchronizerWriteFileChunk s t c flushed confirmed) := by
  rw [fileSynchronizerWriteFileChunk]
  split_ifs with hinit
  · exact LeavesFree.same hs s.loop.synchronizer
  · refine LeavesFree.lock_bind hs (fun s₁ hloop h => LeavesFree.orCrash_bind _ (fun synchronizer => ?_))
    rw [hloop]
    cases hfile : getWriteFileWithGlobalId s.loop.synchronizer.transferringFiles c.globalFileId with
    | none => exact absurd ⟨c,flushed,confirmed,rfl,by simpa using hinit,hfile⟩ hknown
    | some file =>
      dsimp only
      split_ifs
      · exact h.unlock
      · exact (h.put synchronizer).unlock

theorem callStep_leavesFree (hs : s.mutex = none) {call : PublicCall} (hknown : ¬UnknownChunk s call) :
    LeavesFree s (callStep s (t,call)) := by
  cases call with
  | init requestedActions dropHandler =>
    rw [callStep, publicCall, initFileSynchronizer]
    by_cases hinit : s.loop.synchronizer.isInitialized = true
    · rw [if_pos hinit]
      exact LeavesFree.same hs s.loop.synchronizer
    · rw [if_neg hinit]
      exact ⟨by simp [Balanced, Shared.put],rfl⟩
  | getTransferringFiles => exact LeavesFree.same hs s.loop.synchronizer
  | openFileForWriting m dropDirectory created =>
    exact LeavesFree.lock_bind hs (fun s₁ _ h => LeavesFree.orCrash_bind _ (fun synchronizer =>
      (h.put synchronizer).unlock))
  | writeFileChunk c flushed confirmed => exact fileSynchronizerWriteFileChunk_leavesFree hs hknown
  | setFileReadingBasicMetadata filePath transferType eventInfo =>
    exact LeavesFree.lock_bind hs (fun s₁ _ h => HeldFrom.unlock ⟨h.mutex,h.taken,h.released⟩)
  | openFileForReading i opened =>
    refine LeavesFree.withEntry hs i (fun e => LeavesFree.lock_bind hs (fun s₁ _ h => ?_))
    split_ifs
    · exact h.unlock
    · exact (h.put _).unlock
    · exact (h.put _).unlock
  | readNextFileChunk i =>
    refine LeavesFree.withEntry hs i (fun e => LeavesFree.lock_bind hs (fun s₁ _ h => ?_))
    split_ifs
    · exact h.unlock
    · exact (h.put _).unlock
  | resetTransferringFile i => exact LeavesFree.withEntry hs i (fun _ => LeavesFree.same hs _)
  | resetAllTransferringFiles => exact LeavesFree.same hs _
  | cancelUserFileUpload created =>
    cases created with
    | false => exact fun _ h => by cases h
    | true => exact LeavesFree.same hs s.loop.synchronizer
  | endTypeGroup transferType =>
    exact LeavesFree.lock_bind hs (fun s₁ _ h => HeldFrom.unlock ⟨h.mutex,h.taken,h.released⟩)
  | handleTypeGroupEnd i =>
    refine LeavesFree.withEntry hs i (fun e => ?_)
    rw [fileSynchronizerHandleTypeGroupEnd]
    split_ifs
    · exact LeavesFree.same hs s.loop.synchronizer
    · exact LeavesFree.same hs _

theorem callStep_unknown {call : PublicCall} (hunknown : UnknownChunk s call) :
    (∃ f, callStep s (t,call) = .error (.mutex f)) ∨
      ∃ s', callStep s (t,call) = .ok s' ∧ ¬Balanced s s' := by
  obtain ⟨c,flushed,confirmed,rfl,hinit,hnone⟩ := hunknown
  rw [callStep, publicCall, fileSynchronizerWriteFileChunk, if_neg (by simp [hinit]), Shared.lock,
    if_neg (by simp [hinit])]
  cases hlock : RecursiveMutex.lock t s.mutex with
  | error f => exact Or.inl ⟨f,rfl⟩
  | ok mutex =>
    have hwrite : File.fileSynchronizerWriteFileChunk s.loop.synchronizer c flushed confirmed =
        .ok { s.loop.synchronizer with mutexHeld := s.loop.synchronizer.mutexHeld + 1 } := by
      rw [File.fileSynchronizerWriteFileChunk, if_neg (by simp [hinit]), hnone]
    refine Or.inr ⟨{ s.put { s.loop.synchronizer with
      mutexHeld := s.loop.synchronizer.mutexHeld + 1 } with mutex := mutex, taken := s.taken + 1 },?_,?_⟩
    · change (orCrash (File.fileSynchronizerWriteFileChunk s.loop.synchronizer c flushed confirmed) >>= _) = _
      rw [hwrite]
      change (match getWriteFileWithGlobalId s.loop.synchronizer.transferringFiles c.globalFileId with
        | none => _ | some file => _) = _
      rw [hnone]
      rfl
    · simp [Balanced, Shared.put]

/-- The call releases the mutex as often as it takes it, and does not wait for it forever. -/
def ReleasesMutex (s : Shared τ) (c : τ × PublicCall) : Prop :=
  (∀ s', callStep s c = .ok s' → Balanced s s') ∧ ∀ f, callStep s c ≠ .error (.mutex f)

theorem ReleasesMutex.known {c : τ × PublicCall} (h : ReleasesMutex s c) : ¬UnknownChunk s c.2 := by
  intro hunknown
  rcases callStep_unknown (t := c.1) hunknown with ⟨f,hf⟩ | ⟨s',hs',hnot⟩
  · exact h.2 f hf
  · exact hnot (h.1 s' hs')

theorem releasesMutex_of_known (hs : s.mutex = none) {c : τ × PublicCall} (hknown : ¬UnknownChunk s c.2) :
    ReleasesMutex s c := by
  have hfree := callStep_leavesFree (t := c.1) hs hknown
  refine ⟨fun s' hs' => ?_,fun f hf => ?_⟩
  · rw [hs'] at hfree
    exact hfree.1
  · rw [hf] at hfree
    exact hfree f rfl

end Whist.File.Locked
