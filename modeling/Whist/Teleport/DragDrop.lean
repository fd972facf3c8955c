import Mathlib.Tactic

/-! # The transfer table of the teleport file system

The protocol makes four entries for a transfer: its info, its download directory, the file in it and the readyfile.  A
thread adds its watches, scans for what was there before, clears the table and handles the events of inotify.
-/
namespace Whist.Teleport

def MAX_TRANSFERS : ℕ := 1024

variable {ι φ : Type} [DecidableEq ι]

/-- An event of the inotify queue.  The watch of a download directory is known by its
descriptor; `ignored` is sent when a watch is removed, and has no name. -/
inductive Event (ι φ : Type) where
  | newId (id : ι)
  | readyFile (id : ι)
  | fileCreate (wd : ℕ) (filename : φ)
  | ignored (wd : ℕ)
deriving DecidableEq

structure FileTransferContext (ι φ : Type) where
  id : ι
  dataReady : Bool
  active : Bool
  filename : Option φ
  createWd : ℕ
  fileSize : ℤ

/-- The place in the scan of the downloads to go back to: what it still has to return, and
what it has returned. -/
abbrev ScanState (ι : Type) := List ι × List ι

/-- Where the watcher is.  A new id is handled for the scan or, with `none`, for an event. -/
inductive Pc (ι : Type) where
  | addDownloadsWatch
  | addReadyWatch
  | openDownloads
  | scanDownloads (left seen : List ι)
  | openReady
  | scanReady (left seen : List ι)
  | wipe
  | readEvent
  | handleNewId (scan : Option (ScanState ι)) (id : ι)
  | checkFile (scan : Option (ScanState ι)) (wd : ℕ) (id : ι)

/-- The entries on disk, the inotify instance, and the watcher with its table.  `owners` names
the directory of every descriptor ever given out, `live` the descriptor that still watches. -/
structure State (ι φ : Type) where
  fileSize : ι → Option ℤ := fun _ => none
  downloads : List ι := []
  file : ι → Option φ := fun _ => none
  ready : List ι := []
  downloadsWatch : Bool := false
  readyWatch : Bool := false
  owners : List ι := []
  live : ι → Option ℕ := fun _ => none
  queue : List (Event ι φ) := []
  pc : Pc ι := .addDownloadsWatch
  table : List (FileTransferContext ι φ) := []
  nextTransferIdx : ℕ := 0
  outOfBounds : Bool := false
  fuseReady : List ι := []

def updateFirst {α : Type} (p : α → Bool) (f : α → α) : List α → List α
  | [] => []
  | a :: as => if p a then f a :: as else a :: updateFirst p f as

namespace State

variable (s : State ι φ)

def hasId (id : ι) : Bool := s.table.any fun e => decide (e.id = id)

/-- `get_file_transfer_context_idx_by_id`: an id that is not found is looked for at every index
below `next_transfer_idx`. -/
def searchId (id : ι) : State ι φ :=
  if !s.hasId id && decide (MAX_TRANSFERS < s.nextTransferIdx) then { s with outOfBounds := true } else s

def addWatch (id : ι) : ℕ × State ι φ :=
  match s.live id with
  | some wd => (wd,s)
  | none => (s.owners.length,{ s with
      owners := s.owners ++ [id]
      live := Function.update s.live id (some s.owners.length) })

def rmWatch (wd : ℕ) : State ι φ :=
  match s.owners[wd]? with
  | none => s
  | some id =>
    if s.live id = some wd then
      { s with live := Function.update s.live id none, queue := s.queue ++ [.ignored wd] }
    else s

def activate (wd : ℕ) (filename : Option φ) : State ι φ :=
  { s with
    table := updateFirst (fun e => decide (e.createWd = wd))
      (fun e => { e with active := true, filename := filename }) s.table }

def inotifyHandleFileCreate (wd : ℕ) (filename : Option φ) : State ι φ :=
  match s.table.find? fun e => decide (e.createWd = wd) with
  -- The message about it reads `transfer_status[-1]`.
  | none => { s with outOfBounds := true }
  | some e => if e.active then s else (s.activate wd filename).rmWatch wd

def inotifyHandleFileClose (id : ι) : State ι φ :=
  let s := s.searchId id
  if s.hasId id then
    { s with
      table := updateFirst (fun e => decide (e.id = id)) (fun e => { e with dataReady := true }) s.table }
  else s

def goBack (scan : Option (ScanState ι)) : State ι φ :=
  { s with pc := match scan with
      | some (left,seen) => .scanDownloads left seen
      | none => .readEvent }

/-- `inotify_handle_new_id` up to the watch.  A duplicate is reported, and handled all the same. -/
def inotifyHandleNewId (scan : Option (ScanState ι)) (id : ι) : State ι φ :=
  let s := s.searchId id
  let currentIdx := s.nextTransferIdx
  let s := { s with nextTransferIdx := currentIdx + 1 }
  if currentIdx < MAX_TRANSFERS then
    let wd := (s.addWatch id).1
    let s := (s.addWatch id).2
    { s with
      table := s.table ++ [⟨id,false,false,none,wd,(s.fileSize id).getD (-1)⟩]
      pc := .checkFile scan wd id }
  else s.goBack scan

def checkFile (scan : Option (ScanState ι)) (wd : ℕ) (id : ι) : State ι φ :=
  let s := match s.file id with
    | some filename => s.inotifyHandleFileCreate wd (some filename)
    | none => s
  { s with fuseReady := s.fuseReady ++ [id] }.goBack scan

def handleEvent : Event ι φ → State ι φ
  | .newId id => { s with pc := .handleNewId none id }
  | .readyFile id => s.inotifyHandleFileClose id
  | .fileCreate wd filename => s.inotifyHandleFileCreate wd (some filename)
  | .ignored wd => s.inotifyHandleFileCreate wd none

/-- A step of `multithreaded_download_watcher`, if it can make one.  A scan may return in any
order what was there when the directory was opened, and may return what came later. -/
def watch (next : Option ι) : Option (State ι φ) :=
  match s.pc with
  | .addDownloadsWatch => some { s with downloadsWatch := true, pc := .addReadyWatch }
  | .addReadyWatch => some { s with readyWatch := true, pc := .openDownloads }
  | .openDownloads => some { s with pc := .scanDownloads s.downloads [] }
  | .scanDownloads left seen =>
    match next with
    | none => if left.isEmpty then some { s with pc := .openReady } else none
    | some id =>
      if id ∈ s.downloads ∧ id ∉ seen then
        some { s with pc := .handleNewId (some (left.filter (· ≠ id),id :: seen)) id }
      else none
  | .handleNewId scan id => some (s.inotifyHandleNewId scan id)
  | .checkFile scan wd id => some (s.checkFile scan wd id)
  | .openReady => some { s with pc := .scanReady s.ready [] }
  | .scanReady left seen =>
    match next with
    | none => if left.isEmpty then some { s with pc := .wipe } else none
    | some id =>
      if id ∈ s.ready ∧ id ∉ seen then
        some { s.inotifyHandleFileClose id with pc := .scanReady (left.filter (· ≠ id)) (id :: seen) }
      else none
  | .wipe => some { s with table := [], nextTransferIdx := 0, pc := .readEvent }
  | .readEvent =>
    match s.queue with
    | [] => none
    | e :: q => some ({ s with queue := q }.handleEvent e)

end State

/-- The protocol makes an entry, or the watcher makes a step. -/
inductive Move (ι φ : Type) where
  | createInfo (id : ι) (fileSize : ℤ)
  | createDownload (id : ι)
  | createFile (id : ι) (filename : φ)
  | createReady (id : ι)
  | watch (next : Option ι)

/-- The move was not possible. -/
inductive NotEnabled where
  | notEnabled

namespace State

variable (s : State ι φ)

def emit (watching : Bool) (e : Event ι φ) : List (Event ι φ) :=
  if watching then s.queue ++ [e] else s.queue

/-- The entries of one transfer are made in this order, each once. -/
def protocol : Move ι φ → Option (State ι φ)
  | .createInfo id fileSize =>
    if (s.fileSize id).isNone then some { s with fileSize := Function.update s.fileSize id (some fileSize) }
    else none
  | .createDownload id =>
    if (s.fileSize id).isSome ∧ id ∉ s.downloads then
      some { s with downloads := id :: s.downloads, queue := s.emit s.downloadsWatch (.newId id) }
    else none
  | .createFile id filename =>
    if id ∈ s.downloads ∧ (s.file id).isNone then
      some { s with
        file := Function.update s.file id (some filename)
        queue := match s.live id with
          | some wd => s.queue ++ [.fileCreate wd filename]
          | none => s.queue }
    else none
  | .createReady id =>
    if (s.file id).isSome ∧ id ∉ s.ready then
      some { s with ready := id :: s.ready, queue := s.emit s.readyWatch (.readyFile id) }
    else none
  | .watch next => s.watch next

def step (m : Move ι φ) : Except NotEnabled (State ι φ) :=
  match s.protocol m with
  | some s => .ok s
  | none => .error .notEnabled

end State

/-- The table as it should be.  When the watcher waits for events, it has every transfer, active
when its file exists and ready when its readyfile does. -/
structure Exact (s : State ι φ) : Prop where
  inBounds : s.outOfBounds = false
  used : s.table.length ≤ MAX_TRANSFERS
  once : (s.table.map FileTransferContext.id).Nodup
  complete : s.pc = .readEvent → s.queue = [] → ∀ id ∈ s.downloads, ∃ e ∈ s.table, e.id = id ∧
    ((s.file id).isSome → e.active = true) ∧ (id ∈ s.ready → e.dataReady = true)

def UnracedAt (s : State ι φ) (next : Option ι) : Pc ι → Prop
  | .scanDownloads _ _ => ∀ id ∈ next, .newId id ∈ s.queue
  | .checkFile (some _) _ id => (s.file id).isNone = true
  | .handleNewId _ _ => s.nextTransferIdx < MAX_TRANSFERS
  | _ => True

def Unraced (s : State ι φ) : Move ι φ → Prop
  | .watch next => UnracedAt s next s.pc
  | _ => True

instance UnracedAt.decidable [DecidableEq φ] (s : State ι φ) (next : Option ι) :
    ∀ p, Decidable (UnracedAt s next p)
  | .scanDownloads _ _ => inferInstanceAs (Decidable (∀ id ∈ next, .newId id ∈ s.queue))
  | .checkFile (some _) _ id => inferInstanceAs (Decidable ((s.file id).isNone = true))
  | .handleNewId _ _ => inferInstanceAs (Decidable (s.nextTransferIdx < MAX_TRANSFERS))
  | .checkFile none _ _ | .addDownloadsWatch | .addReadyWatch | .openDownloads | .openReady
  | .scanReady _ _ | .wipe | .readEvent => inferInstanceAs (Decidable True)

instance Unraced.decidable [DecidableEq φ] (s : State ι φ) : ∀ m, Decidable (Unraced s m)
  | .watch next => inferInstanceAs (Decidable (UnracedAt s next s.pc))
  | .createInfo _ _ | .createDownload _ | .createFile _ _ | .createReady _ =>
    inferInstanceAs (Decidable True)

end Whist.Teleport
