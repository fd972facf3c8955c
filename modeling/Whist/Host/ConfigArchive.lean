import Whist.Foundation.Paths
import Whist.Foundation.Program

/-! # Archives of user configs

`CompressTarLz4` and `ExtractTarLz4` of `mandelbox/configutils/compression.go`.  What the lz4 and tar readers find in a
file is an archive: its entries, and how reading them ends.  What the operating system answers is left open.
-/
namespace Whist.Configutils
open Program Filepath

inductive FileKind where
  | regular | directory | symlink | device | namedPipe | socket
deriving DecidableEq

/-- An error of a call, and whether `os.IsNotExist` holds of it. -/
structure OsError where
  text : String
  notExist : Bool := false
deriving DecidableEq

/-- The file type and the permission bits of `info.Mode()`. -/
structure FileInfo where
  kind : FileKind
  perm : ℕ
deriving DecidableEq

structure Header where
  name : Path
  info : FileInfo
deriving DecidableEq

/-- A header with the data that follows it. -/
structure Entry where
  header : Header
  content : List UInt8
deriving DecidableEq

/-- What `tarReader.Next` returns once there are no more entries. -/
inductive Ending where
  | eof
  | headerless
  | broken (err : String)
deriving DecidableEq

structure Archive where
  entries : List Entry
  ending : Ending
deriving DecidableEq

/-- The calls of an extraction to the operating system; `copyTo` is `io.Copy` into a file. -/
inductive FsOp where
  | stat (path : Path)
  | mkdirAll (path : Path) (perm : ℕ)
  | openFile (path : Path) (perm : ℕ)
  | copyTo (path : Path) (content : List UInt8)
  | close (path : Path)

abbrev FsAns : FsOp → Type
  | .stat _ => Except OsError FileInfo
  | .mkdirAll _ _ => Option OsError
  | .openFile _ _ => Option OsError
  | .copyTo _ _ => Except OsError ℕ
  | .close _ => Option OsError

abbrev FsProg := Program FsOp FsAns

/-- The calls of a compression.  `walk` is the sequence of calls that `filepath.Walk` makes to its
function, `writeHeader` goes to the tar writer, and `copyFrom` is `io.Copy` out of a file. -/
inductive SourceOp where
  | stat (path : Path)
  | walk (root : Path)
  | writeHeader (header : Header)
  | openToRead (path : Path)
  | copyFrom (path : Path)
  | close (path : Path)

abbrev SourceAns : SourceOp → Type
  | .stat _ => Except OsError FileInfo
  | .walk _ => List (Path × Except OsError FileInfo)
  | .writeHeader _ => Option OsError
  | .openToRead _ => Option OsError
  | .copyFrom _ => Except OsError (List UInt8)
  | .close _ => Option OsError

abbrev SourceProg := Program SourceOp SourceAns

def closeFile (path : Path) : FsProg Unit := do
  let _ ← perform (FsOp.close path)
  pure ()

/-- The check against zip slip: the text of the joined path begins with that of `dir`. -/
def legal (dir name : Path) : Bool := dir.isPrefixOf (join [dir,name])

def createDestination (dir : Path) : FsProg (Option String) := do
  match ← perform (FsOp.stat dir) with
  | .ok _ => pure none
  | .error err =>
    if err.notExist then
      match ← perform (FsOp.mkdirAll dir 0o755) with
      | none => pure none
      | some err => pure (some ("failed to create directory " ++ String.ofList dir ++ ": " ++ err.text))
    else pure (some ("failed to stat directory " ++ String.ofList dir ++ ": " ++ err.text))

def untarEntry (path : Path) (entry : Entry) : FsProg (Except String ℕ) :=
  if entry.header.info.kind = .directory then do
    match ← perform (FsOp.mkdirAll path entry.header.info.perm) with
    | none => pure (.ok 0)
    | some err => pure (.error ("error creating directory: " ++ err.text))
  else do
    match ← perform (FsOp.openFile path entry.header.info.perm) with
    | some err => pure (.error ("error opening file: " ++ err.text))
    | none =>
      match ← perform (FsOp.copyTo path entry.content) with
      | .error err =>
        closeFile path
        pure (.error ("error copying data to file: " ++ err.text))
      | .ok numBytes =>
        closeFile path
        pure (.ok numBytes)

def untar (dir : Path) : List Entry → Ending → ℕ → FsProg (ℕ × Option String)
  | [], .broken err, totalBytes => pure (totalBytes,some ("error reading tar header: " ++ err))
  | [], _, totalBytes => pure (totalBytes,none)
  | entry :: rest, ending, totalBytes =>
    let path := join [dir,entry.header.name]
    if legal dir entry.header.name then
      untarEntry path entry >>= fun
      | .error err => pure (totalBytes,some err)
      | .ok numBytes => untar dir rest ending (totalBytes + numBytes)
    else pure (totalBytes,some ("destination path " ++ String.ofList path ++ " is illegal"))

def extractTarLz4 (file : Archive) (dir : Path) : FsProg (ℕ × Option String) := do
  match ← createDestination dir with
  | some err => pure (0,some err)
  | none => untar dir file.entries file.ending 0

/-- `tar.FileInfoHeader`; its name is always overwritten. -/
def fileInfoHeader (info : FileInfo) : Except String Header :=
  if info.kind = .socket then .error "archive/tar: sockets not supported" else .ok ⟨[],info⟩

/-- What the function given to `filepath.Walk` does with one file. -/
def tarFile (dir path : Path) (visit : Except OsError FileInfo) : SourceProg (Except String Entry) :=
  let file := String.ofList path
  match visit with
  | .error err => pure (.error ("error walking directory: " ++ err.text))
  | .ok info =>
    match fileInfoHeader info with
    | .error err => pure (.error ("error creating tar header for file " ++ file ++ ": " ++ err))
    | .ok header =>
      match rel dir path with
      | .error err => pure (.error ("error converting path " ++ file ++ " to relative path: " ++ err))
      | .ok relPath => do
        let header := { header with name := relPath }
        match ← perform (SourceOp.writeHeader header) with
        | some err => pure (.error ("error writing tar header for file " ++ file ++ ": " ++ err.text))
        | none =>
          if info.kind = .regular then
            match ← perform (SourceOp.openToRead path) with
            | some err => pure (.error ("error opening file " ++ file ++ ": " ++ err.text))
            | none =>
              match ← perform (SourceOp.copyFrom path) with
              | .error err =>
                let _ ← perform (SourceOp.close path)
                pure (.error ("error copying data from file " ++ file ++ ": " ++ err.text))
              | .ok content =>
                let _ ← perform (SourceOp.close path)
                pure (.ok ⟨header,content⟩)
          else pure (.ok ⟨header,[]⟩)

def tarVisits (dir : Path) : List (Path × Except OsError FileInfo) → SourceProg (Except String (List Entry))
  | [] => pure (.ok [])
  | (path,visit) :: rest =>
    tarFile dir path visit >>= fun
    | .error err => pure (.error ("error tarring directory: " ++ err))
    | .ok entry =>
      tarVisits dir rest >>= fun
      | .error err => pure (.error err)
      | .ok entries => pure (.ok (entry :: entries))

def compressTarLz4 (dir : Path) : SourceProg (Except String Archive) := do
  match ← perform (SourceOp.stat dir) with
  | .error err =>
    if err.notExist then pure (.error ("directory " ++ String.ofList dir ++ " does not exist"))
    else pure (.error ("failed to stat directory " ++ String.ofList dir ++ ": " ++ err.text))
  | .ok info =>
    if info.kind = .directory then
      let visits ← perform (SourceOp.walk dir)
      match ← tarVisits dir visits with
      | .error err => pure (.error err)
      | .ok entries => pure (.ok ⟨entries,.eof⟩)
    else pure (.error (String.ofList dir ++ " is not a directory"))

end Whist.Configutils
