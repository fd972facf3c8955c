import Whist.File.FileSynchronizer

/-! # The read end and the sync loop

Files to read and files being written share one list, and the loop visits every entry of it.  What `fopen` does and what
other programs do to the files is up to the surroundings.
-/
namespace Whist.File

def chunkSize : ℕ := 1000000

def afterSeparator : Path → Path → Path
  | name, [] => name
  | name, c :: rest => if c = '/' then afterSeparator rest rest else afterSeparator name rest

def basename (filePath : Path) : Path := afterSeparator filePath filePath

inductive Message where
  | metadata (m : FileMetadata)
  | data (c : FileData)
  | groupEnd (transferType : ℕ)

def Message.globalFileId : Message → Option ℤ
  | .metadata m => some m.globalFileId
  | .data c => some c.globalFileId
  | .groupEnd _ => none

/-- `globalFileId` is the counter of the files to read. -/
structure SyncLoop where
  synchronizer : FileSynchronizer
  globalFileId : ℕ := 0
  sent : List Message := []

def newReadFile (globalFileId : ℕ) (filePath : Path) (transferType : ℕ) (eventInfo : Option FileEventInfo) :
    TransferringFile where
  globalFileId := globalFileId
  id := -1
  groupEnd := false
  filename := none
  filePath := some filePath
  fileHandle := none
  bytesWritten := 0
  transferType := transferType
  eventInfo := eventInfo.getD ⟨0,0⟩
  direction := .readEnd

def SyncLoop.append (s : SyncLoop) (e : TransferringFile) : SyncLoop :=
  { s with
    synchronizer := { s.synchronizer with transferringFiles := s.synchronizer.transferringFiles ++ [e] } }

def fileSynchronizerSetFileReadingBasicMetadata (s : SyncLoop) (filePath : Path) (transferType : ℕ)
    (eventInfo : Option FileEventInfo) : SyncLoop :=
  { s.append (newReadFile s.globalFileId filePath transferType eventInfo) with
    globalFileId := s.globalFileId + 1 }

def groupMarker (transferType : ℕ) : TransferringFile where
  globalFileId := -1
  id := -1
  groupEnd := true
  filename := none
  filePath := none
  fileHandle := none
  bytesWritten := 0
  transferType := transferType
  eventInfo := ⟨0,0⟩
  direction := .unused

def fileSynchronizerEndTypeGroup (s : SyncLoop) (transferType : ℕ) : SyncLoop :=
  s.append (groupMarker transferType)

/-- The entry `e` at `i` is closed and removed. -/
def resetTransferringFile (s : FileSynchronizer) (i : ℕ) (e : TransferringFile) : FileSynchronizer :=
  { s with
    files := e.fileHandle.elim s.files (fclose s.files)
    transferringFiles := s.transferringFiles.eraseIdx i }

def FileSynchronizer.setHandle (s : FileSynchronizer) (i : ℕ) (e : TransferringFile) (h : FileHandle) :
    FileSynchronizer :=
  { s with transferringFiles := s.transferringFiles.set i { e with fileHandle := some h } }

def fread (files : Path → Option (List UInt8)) (h : FileHandle) : List UInt8 :=
  (((files h.path).getD []).drop h.position).take chunkSize

def fileSynchronizerReadNextFileChunk (s : FileSynchronizer) (i : ℕ) (e : TransferringFile) :
    Option FileData × FileSynchronizer :=
  if e.direction ≠ .readEnd then (none,s)
  else
    match e.fileHandle with
    | none => (none,s)
    | some h =>
      let data := fread s.files h
      if data.length = 0 then (some ⟨e.globalFileId,.close,data⟩,resetTransferringFile s i e)
      else (some ⟨e.globalFileId,.body,data⟩,
        s.setHandle i e { h with position := h.position + data.length })

/-- `opened` tells whether the file can be opened for reading. -/
def fileSynchronizerOpenFileForReading (s : FileSynchronizer) (i : ℕ) (e : TransferringFile) (opened : Bool) :
    Option FileMetadata × FileSynchronizer :=
  match e.filePath with
  | none => (none,s)
  | some filePath =>
    if e.fileHandle.isSome then (none,s)
    else if opened = false then (none,resetTransferringFile s i e)
    else
      (some
        { globalFileId := e.globalFileId
          transferType := e.transferType
          eventInfo := e.eventInfo
          fileSize := ((s.files filePath).getD []).length
          filename := basename filePath },
        s.setHandle i e ⟨filePath,0,[],true⟩)

def SyncLoop.send (s : SyncLoop) (synchronizer : FileSynchronizer) (message : Option Message) : SyncLoop :=
  { s with synchronizer := synchronizer, sent := s.sent ++ message.toList }

/-- The body of the loop for the entry `e` at `i`. -/
def visitEntry (s : SyncLoop) (i : ℕ) (e : TransferringFile) (opened : Bool) : SyncLoop :=
  if e.groupEnd then s.send (resetTransferringFile s.synchronizer i e) (some (.groupEnd e.transferType))
  else
    match fileSynchronizerReadNextFileChunk s.synchronizer i e with
    | (some chunk,synchronizer) => s.send synchronizer (some (.data chunk))
    | (none,synchronizer) =>
      let r := fileSynchronizerOpenFileForReading synchronizer i e opened
      s.send r.2 (r.1.map Message.metadata)

def visit (s : SyncLoop) (i : ℕ) (opened : Bool) : SyncLoop :=
  match s.synchronizer.transferringFiles[i]? with
  | none => s
  | some e => visitEntry s i e opened

/-- Messages that arrive, files and group ends that the user adds, visits of the loop, and
changes that other programs make to a file. -/
inductive LoopCall where
  | received (c : Call)
  | register (filePath : Path) (transferType : ℕ) (eventInfo : Option FileEventInfo)
  | endGroup (transferType : ℕ)
  | visit (i : ℕ) (opened : Bool)
  | changed (path : Path) (bytes : Option (List UInt8))

def loopStep (s : SyncLoop) : LoopCall → Except Crash SyncLoop
  | .received c => (call s.synchronizer c).map (fun synchronizer => { s with synchronizer := synchronizer })
  | .register filePath transferType eventInfo =>
    .ok (fileSynchronizerSetFileReadingBasicMetadata s filePath transferType eventInfo)
  | .endGroup transferType => .ok (fileSynchronizerEndTypeGroup s transferType)
  | .visit i opened => .ok (visit s i opened)
  | .changed path bytes =>
    .ok { s with
      synchronizer := { s.synchronizer with files := Function.update s.synchronizer.files path bytes } }

def startLoop (enabledActions : ℕ) (files : Path → Option (List UInt8)) : SyncLoop where
  synchronizer := ⟨true,enabledActions,[],0,0,files⟩

def loopRun (enabledActions : ℕ) (files : Path → Option (List UInt8)) (calls : List LoopCall) :
    Except Crash SyncLoop := Run.run loopStep (startLoop enabledActions files) calls

structure Registered where
  filePath : Path
  transferType : ℕ
  eventInfo : FileEventInfo

def LoopCall.registered : LoopCall → Option Registered
  | .register filePath transferType eventInfo => some ⟨filePath,transferType,eventInfo.getD ⟨0,0⟩⟩
  | _ => none

def registered (calls : List LoopCall) : List Registered := calls.filterMap LoopCall.registered

def messagesOf (id : ℤ) (sent : List Message) : List Message :=
  sent.filter (fun message => message.globalFileId = some id)

def Message.bytes : Message → List UInt8
  | .data c => c.data
  | _ => []

def bytesOf (id : ℤ) (sent : List Message) : List UInt8 := (messagesOf id sent).flatMap Message.bytes

inductive Started (id : ℤ) (file : Registered) : List Message → Prop
  | metadata (m : FileMetadata) (hid : m.globalFileId = id) (hname : m.filename = basename file.filePath)
      (htype : m.transferType = file.transferType) (hinfo : m.eventInfo = file.eventInfo) :
      Started id file [.metadata m]
  | body {messages : List Message} (data : List UInt8) (h : Started id file messages) (hne : data ≠ []) :
      Started id file (messages ++ [.data ⟨id,.body,data⟩])

inductive Transfer (id : ℤ) (file : Registered) : List Message → Prop
  | idle : Transfer id file []
  | started {messages : List Message} (h : Started id file messages) : Transfer id file messages
  | closed {messages : List Message} (h : Started id file messages) :
      Transfer id file (messages ++ [.data ⟨id,.close,[]⟩])

def IsReading (id : ℤ) (e : TransferringFile) : Prop := e.direction = .readEnd ∧ e.globalFileId = id

instance (id : ℤ) (e : TransferringFile) : Decidable (IsReading id e) := instDecidableAnd

structure StateOk (pre : List LoopCall) (s : SyncLoop) : Prop where
  notRead : ∀ e ∈ s.synchronizer.transferringFiles, e.direction = .writeEnd →
    ∀ h, e.fileHandle = some h → h.readOnly = false
  transfers : ∀ id, messagesOf id s.sent = [] ∨ ∃ (n : ℕ) (file : Registered), id = (n : ℤ) ∧
    (registered pre)[n]? = some file ∧ Transfer id file (messagesOf id s.sent)
  ended : ∀ id, (∀ e ∈ s.synchronizer.transferringFiles, ¬IsReading id e) → messagesOf id s.sent = [] ∨
    (messagesOf id s.sent).getLast? = some (.data ⟨id,.close,[]⟩)

structure StepOk (pre : List LoopCall) (s : SyncLoop) (call : LoopCall) (s' : SyncLoop) : Prop where
  notSent : ∀ i opened e, call = .visit i opened → s.synchronizer.transferringFiles[i]? = some e →
    e.direction = .writeEnd → s'.sent = s.sent
  inOrder : ∀ c, s'.sent = s.sent ++ [.data c] → ∃ (n : ℕ) (file : Registered), c.globalFileId = (n : ℤ) ∧
    (registered pre)[n]? = some file ∧
    c.data = (((s.synchronizer.files file.filePath).getD []).drop (bytesOf n s.sent).length).take chunkSize

def RolesKept (enabledActions : ℕ) (files : Path → Option (List UInt8)) (calls : List LoopCall) : Prop :=
  ∀ pre post s, calls = pre ++ post → loopRun enabledActions files pre = .ok s →
    StateOk pre s ∧ ∀ call post' s', post = call :: post' → loopStep s call = .ok s' → StepOk pre s call s'

/-- Where the loop comes to a received file that could not be opened for writing, it cannot
be opened for reading either. -/
def NeverReopened (enabledActions : ℕ) (files : Path → Option (List UInt8)) (calls : List LoopCall) : Prop :=
  ∀ pre i post s e, calls = pre ++ .visit i true :: post → loopRun enabledActions files pre = .ok s →
    s.synchronizer.transferringFiles[i]? = some e → e.direction = .writeEnd → e.fileHandle ≠ none

end Whist.File
