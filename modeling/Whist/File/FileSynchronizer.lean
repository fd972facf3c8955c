import Whist.Foundation.Run

/-! # The write end of the file synchronizer

A path names one file.  A call of `fwrite` may flush any part of the handle's buffer and `fclose` flushes the rest.  The
directories and the `fopen` calls may fail, which the surroundings decide.
-/
namespace Whist.File

abbrev Path := List Char

def fileTransferServerDrop : ℕ := 1
def fileTransferServerUpload : ℕ := 4

inductive FileChunkType where
  | body
  | close
  | closeAck
  deriving DecidableEq

structure FileData where
  globalFileId : ℤ
  chunkType : FileChunkType
  data : List UInt8
  deriving DecidableEq

structure FileEventInfo where
  x : ℤ
  y : ℤ
  deriving DecidableEq

structure FileMetadata where
  globalFileId : ℤ
  transferType : ℕ
  eventInfo : FileEventInfo
  fileSize : ℤ
  filename : Path
  deriving DecidableEq

inductive FileTransferDirection where
  | unused
  | readEnd
  | writeEnd
  deriving DecidableEq

structure FileHandle where
  path : Path
  position : ℕ
  buffer : List UInt8
  readOnly : Bool
  deriving DecidableEq

structure TransferringFile where
  globalFileId : ℤ
  id : ℤ
  groupEnd : Bool
  filename : Option Path
  filePath : Option Path
  fileHandle : Option FileHandle
  bytesWritten : ℕ
  transferType : ℕ
  eventInfo : FileEventInfo
  direction : FileTransferDirection
  deriving DecidableEq

structure FileSynchronizer where
  isInitialized : Bool
  enabledActions : ℕ
  transferringFiles : List TransferringFile
  /-- The static `unique_id` of `file_synchronizer_open_file_for_writing`. -/
  uniqueId : ℕ
  /-- How many times the recursive mutex is still held after the calls made so far. -/
  mutexHeld : ℕ
  files : Path → Option (List UInt8)

def writeAt (bytes : List UInt8) (position : ℕ) (data : List UInt8) : List UInt8 :=
  bytes.take position ++ List.replicate (position - bytes.length) 0 ++ data ++
    bytes.drop (position + data.length)

/-- `n` buffered bytes reach the file. -/
def flush (files : Path → Option (List UInt8)) (h : FileHandle) (n : ℕ) :
    (Path → Option (List UInt8)) × FileHandle :=
  (Function.update files h.path
      (some (writeAt ((files h.path).getD []) h.position (h.buffer.take n))),
    { h with position := h.position + (h.buffer.take n).length, buffer := h.buffer.drop n })

def fwrite (files : Path → Option (List UInt8)) (h : FileHandle) (data : List UInt8)
    (flushed : ℕ) : (Path → Option (List UInt8)) × FileHandle :=
  if h.readOnly then (files,h) else flush files { h with buffer := h.buffer ++ data } flushed

def fclose (files : Path → Option (List UInt8)) (h : FileHandle) : Path → Option (List UInt8) :=
  if h.readOnly then files else (flush files h h.buffer.length).1

def isWriteOf (globalId : ℤ) (file : TransferringFile) : Bool :=
  file.globalFileId = globalId && file.direction = .writeEnd

def getWriteFileWithGlobalId (files : List TransferringFile) (globalId : ℤ) :
    Option TransferringFile :=
  files.find? (isWriteOf globalId)

/-- The entry that `get_write_file_with_global_id` finds is changed, or removed. -/
def updateWriteFile (globalId : ℤ) (f : TransferringFile → Option TransferringFile) :
    List TransferringFile → List TransferringFile
  | [] => []
  | e :: rest =>
    if isWriteOf globalId e then (f e).toList ++ rest else e :: updateWriteFile globalId f rest

def downloadsDirectory : Path := "/home/whist/.teleport/drag-drop/downloads/".toList
def uploadsDirectory : Path := "/home/whist/.teleport/uploads".toList

/-- The directory that `file_drop_prepare` makes for a file. -/
def fileDropDirectory (id : ℕ) : Path := downloadsDirectory ++ Nat.toDigits 10 id

def writePath (enabledActions id : ℕ) (m : FileMetadata) : Path :=
  let action := m.transferType &&& enabledActions
  let fileDir :=
    if action = fileTransferServerDrop then fileDropDirectory id
    else if action = fileTransferServerUpload then uploadsDirectory
    else ['.']
  fileDir ++ '/' :: m.filename

/-- A null pointer that is used. -/
inductive Crash where
  | fileDir
  | confirmFile
  deriving DecidableEq

/-- The entry made for a file to write; its handle is null where `fopen` fails. -/
def newWriteFile (s : FileSynchronizer) (m : FileMetadata) (created : Bool) : TransferringFile :=
  let path := writePath s.enabledActions s.uniqueId m
  { globalFileId := m.globalFileId
    id := s.uniqueId
    groupEnd := false
    filename := some m.filename
    filePath := some path
    fileHandle := if created then some ⟨path,0,[],false⟩ else none
    bytesWritten := 0
    transferType := m.transferType
    eventInfo := m.eventInfo
    direction := .writeEnd }

/-- `dropDirectory` and `created` say whether `file_drop_prepare` and `fopen` succeed. -/
def fileSynchronizerOpenFileForWriting (s : FileSynchronizer) (m : FileMetadata)
    (dropDirectory created : Bool) : Except Crash FileSynchronizer :=
  if m.transferType &&& s.enabledActions = fileTransferServerDrop ∧ dropDirectory = false then
    .error .fileDir
  else
    .ok { s with
      uniqueId := s.uniqueId + 1
      transferringFiles := s.transferringFiles ++ [newWriteFile s m created]
      files :=
        if created then
          Function.update s.files (writePath s.enabledActions s.uniqueId m) (some [])
        else s.files }

/-- `confirmed` says whether the file of `confirm_user_file_upload` can be opened.  The mutex
stays held where no entry is found. -/
def fileSynchronizerWriteFileChunk (s : FileSynchronizer) (c : FileData) (flushed : ℕ)
    (confirmed : Bool) : Except Crash FileSynchronizer :=
  if s.isInitialized = false then .ok s
  else match getWriteFileWithGlobalId s.transferringFiles c.globalFileId with
  | none => .ok { s with mutexHeld := s.mutexHeld + 1 }
  | some file =>
    match file.fileHandle with
    | none => .ok s
    | some h =>
      match c.chunkType with
      | .body =>
        let r := fwrite s.files h c.data flushed
        .ok { s with
          files := r.1
          transferringFiles := updateWriteFile c.globalFileId (fun e => some { e with
            fileHandle := some r.2
            bytesWritten := e.bytesWritten + c.data.length }) s.transferringFiles }
      | .close =>
        if file.transferType &&& s.enabledActions = fileTransferServerUpload ∧ confirmed = false then
          .error .confirmFile
        else
          .ok { s with
            files := fclose s.files h
            transferringFiles :=
              updateWriteFile c.globalFileId (fun _ => none) s.transferringFiles }
      | .closeAck => .ok s

/-- The messages that arrive, with what the surroundings decide. -/
inductive Call where
  | metadata (m : FileMetadata) (dropDirectory created : Bool)
  | chunk (c : FileData) (flushed : ℕ) (confirmed : Bool)
  deriving DecidableEq

def Call.globalFileId : Call → ℤ
  | .metadata m _ _ => m.globalFileId
  | .chunk c _ _ => c.globalFileId

def call (s : FileSynchronizer) : Call → Except Crash FileSynchronizer
  | .metadata m dropDirectory created =>
    fileSynchronizerOpenFileForWriting s m dropDirectory created
  | .chunk c flushed confirmed => fileSynchronizerWriteFileChunk s c flushed confirmed

end Whist.File
