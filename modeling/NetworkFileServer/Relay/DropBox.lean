import NetworkFileServer.Framework.TransitionSystem
import NetworkFileServer.Relay.FileTtlDb
import NetworkFileServer.Server.FilesRouter

/-!
# The drop box and its sweep

The drop box is a file server that runs in the relay. `upload_files` records a TTL for each name that it
reports, after all files of the request are stored; `file_ttl_sweep_once` removes the files of expired rows
and deletes the rows, and the start of the relay does the same. Nothing else touches the table: an overwrite
without a TTL, a rename and a delete leave the row of a path as it is.

The handlers are interleaved at their awaits here. The content of a file is the number of the request that
wrote it, or nothing for a file that no request wrote. The awaited reads and writes of the chunks of a file
do not change what it is, so opening the file stands for them. The history of the recorded rows and of the
removals is kept beside the state.
-/

namespace NetworkFileServer.Relay

open Server Server.FileService

section Removing

variable {α : Type} (disk : Disk α) (dropboxDir : List String)

/-- `data_dir / "dropbox" / file_path.lstrip("/")` -/
def fullPath (row : FileTtlRow) : List String :=
  dropboxDir ++ (PurePath.parse (Text.lstrip '/' row.filePath)).parts

/-- `os.remove` of the file of a row, if there is one; `refuses` says that the operating system refuses. -/
def removeExpired (refuses : Bool) (row : FileTtlRow) : FileM α OsError Bool := do
  let found ← FileM.pathExists disk.limits (fullPath dropboxDir row)
  if found then
    if refuses then FileM.fail .busy
    else do
      FileM.remove disk.limits (fullPath dropboxDir row)
      pure true
  else pure false

/-- The content of the file that the path of a row leads to. -/
def contentAt (fs : FileSystem α) (row : FileTtlRow) : Option α :=
  match fs.locate disk.limits (fullPath dropboxDir row) with
  | some (_, .file content) => some content
  | _ => none

theorem removeExpired_outcome (refuses : Bool) (row : FileTtlRow) (fs : FileSystem α) :
    (removeExpired disk dropboxDir refuses row fs).fs =
        (if (fs.locate disk.limits (fullPath dropboxDir row)).isSome = true ∧ refuses = false then
          (FileM.remove disk.limits (fullPath dropboxDir row) fs).fs else fs) ∧
      (removeExpired disk dropboxDir refuses row fs).result =
        if (fs.locate disk.limits (fullPath dropboxDir row)).isSome = true then
          if refuses then .error .busy
          else (FileM.remove disk.limits (fullPath dropboxDir row) fs).result.map fun _ => true
        else .ok false := by
  have hexists : (FileM.pathExists disk.limits (fullPath dropboxDir row) : FileM α OsError Bool).Returns fs
      (fs.locate disk.limits (fullPath dropboxDir row)).isSome fs := by
    simp
  unfold removeExpired
  rw [FileM.bind_of_ok _ _ _ _ _ hexists]
  cases hfound : (fs.locate disk.limits (fullPath dropboxDir row)).isSome with
  | false => exact ⟨rfl, rfl⟩
  | true =>
      cases refuses with
      | true => exact ⟨rfl, rfl⟩
      | false =>
          simp only [if_true, Bool.false_eq_true, if_false, and_self]
          cases hremove : (FileM.remove disk.limits (fullPath dropboxDir row) fs).result with
          | error e =>
              rw [FileM.bind_of_error _ _ _ e hremove]
              exact ⟨rfl, rfl⟩
          | ok _ =>
              rw [FileM.bind_of_ok _ _ _ _ _ ⟨hremove, rfl⟩]
              exact ⟨rfl, rfl⟩

theorem removeExpired_sub (refuses : Bool) (row : FileTtlRow) (fs : FileSystem α) (q : Location)
    (node : Node α) (h : (removeExpired disk dropboxDir refuses row fs).fs.get? q = some node) :
    fs.get? q = some node := by
  have herase : ∀ l, (fs.erase l).get? q = some node → fs.get? q = some node := by
    intro l hl
    exact (fs.adds_erase l (fun _ _ => False) q node hl).resolve_right id
  rw [(removeExpired_outcome disk dropboxDir refuses row fs).1] at h
  split at h
  · unfold FileM.remove at h
    split at h
    · exact h
    · split at h
      · exact h
      · exact h
      · exact herase _ h
  · exact h

theorem contentAt_of_sub (fs fs' : FileSystem α)
    (hsub : ∀ q node, fs'.get? q = some node → fs.get? q = some node) (row : FileTtlRow) (content : α)
    (h : contentAt disk dropboxDir fs' row = some content) :
    contentAt disk dropboxDir fs row = some content := by
  unfold contentAt at h ⊢
  split at h
  · rename_i l found hlocate
    rw [FileSystem.locate_of_sub hsub _ _ _ _ hlocate]
    exact h
  · cases h

end Removing

/-- The request of `upload_files`. -/
structure UploadInput where
  path : String
  filenames : List String
  conflictResolution : Option ConflictResolution
  ttl : Option Int

/-- `ttl if ttl is not None else 86400` -/
def UploadInput.effectiveTtl (input : UploadInput) : Int := input.ttl.getD 86400

/-- A file that `_write_upload_chunks` is writing, by way of a temporary file or directly. -/
structure Writing where
  targetDir : Location
  filename : String
  replaces : Bool

def Writing.path (w : Writing) : Location :=
  w.targetDir ++ [if w.replaces then tempName w.filename else w.filename]

/-- The awaits of `upload_files`; `names` are those of the results so far. -/
inductive UploadPc where
  /-- The body of the request is being received. -/
  | starting
  /-- `aiofiles.open` -/
  | opening (w : Writing) (rest names : List String)
  /-- The chunks and the end of the `async with`. -/
  | writing (w : Writing) (rest names : List String)
  /-- The INSERT of `record_file_ttl`, which was called at the time `calledAt`. -/
  | inserting (filePath : String) (calledAt : Int) (names : List String)
  | committing (names : List String)
  | finished
  | failed

/-- What the loop over the files comes to next. -/
inductive NextFile where
  | writes (w : Writing) (rest names : List String)
  | allStored (names : List String)

section Uploading

variable {α : Type} (disk : Disk α) (dropboxDir : List String) (input : UploadInput)

/-- What `upload_file` does about the name up to its first await; a file that is skipped has none, so the
loop goes on. -/
def nextWrite (targetDir : Location) (filename : String) (rest names : List String)
    (goOn : FileM α FileError NextFile) : FileM α FileError NextFile := do
  let conflict ← FileM.pathExists disk.limits (targetDir ++ [filename])
  if conflict then
    match input.conflictResolution with
    | none => FileM.fail (.fileConflict filename (pathStr (targetDir ++ [filename])))
    | some .skip => goOn
    | some .rename => do
        let objects ← FileM.objectCount
        let newName ← freeName disk targetDir filename (objects + 1) 1
        pure (.writes ⟨targetDir, newName, false⟩ rest names)
    | some .overwrite => pure (.writes ⟨targetDir, filename, true⟩ rest names)
  else pure (.writes ⟨targetDir, filename, false⟩ rest names)

/-- The loop over the files up to its next await. -/
def nextFile : List String → List String → FileM α FileError NextFile
  | [], names => pure (.allStored names)
  | file :: rest, names => do
      let targetDir ← resolveSafePath disk dropboxDir input.path
      let filename ← liftExcept (validateUploadFilename file)
      nextWrite disk input targetDir filename rest names (nextFile rest (names ++ [filename]))

/-- `os.replace`, if the file was written to a temporary one. -/
def finishWriting (w : Writing) : FileM α FileError Unit :=
  if w.replaces then
    (FileM.rename disk.limits w.path (w.targetDir ++ [w.filename])).mapError .os
  else pure ()

/-- The loop that records the TTLs, up to its next await. -/
def startRecord (now : Int) : List String → UploadPc
  | [] => .finished
  | name :: names =>
      if ¬input.effectiveTtl > 0 then .finished
      else if name = "" then startRecord now names
      -- the `OverflowError` of `time.time() + ttl_seconds`
      else if ¬FileTtlTable.fitsFloat input.effectiveTtl then .failed
      else .inserting (relKey input.path name) now names

end Uploading

/-- A request, and the time at which its last file was stored. -/
structure UploadState where
  input : UploadInput
  pc : UploadPc
  storedAt : Option Int

/-- A request of which the process has ended. -/
def UploadState.ended (u : UploadState) : UploadState :=
  match u.pc with
  | .finished => u
  | _ => { u with pc := .failed }

/-- The awaits of `file_ttl_sweep_once`. -/
inductive SweepPc where
  | idle
  /-- The SELECT of `get_expired`, which was called at the time `calledAt`. -/
  | selecting (calledAt : Int)
  /-- The statements of `delete_record`. -/
  | deleting (row : FileTtlRow) (rest : List FileTtlRow)
  | committing (rest : List FileTtlRow)

/-- A file that the sweep or the cleanup removed. -/
structure Removal where
  writer : Option Nat
  removedAt : Int
  deriving DecidableEq

structure DropBox where
  fs : FileSystem (Option Nat)
  table : FileTtlTable
  requests : List UploadState
  sweep : SweepPc
  /-- The start of the relay has succeeded. -/
  up : Bool
  clock : Int
  /-- The calls of `record_file_ttl`, each with the number of its request. -/
  recorded : List (FileTtlRow × Nat)
  removed : List Removal

inductive DropBoxAction where
  | upload (input : UploadInput)
  /-- The operation that a request awaits is complete. -/
  | resume (k : Nat)
  /-- It has raised. -/
  | raise (k : Nat)
  | deleteFiles (paths : List String)
  | renameFile (path newName : String)
  | createNewFolder (parentPath name : String)
  | sweep (refuses : Bool)
  /-- A new start of the relay, which ends what was going on. -/
  | boot (refuses : FileTtlRow → Bool)

def DropBoxAction.isBoot : DropBoxAction → Bool
  | .boot _ => true
  | _ => false

namespace DropBox

/-- The relay at its first start, with whatever is in the directory. -/
def start (fs : FileSystem (Option Nat)) (now : Int) : DropBox := ⟨fs, [], [], .idle, true, now, [], []⟩

section

variable (disk : Disk (Option Nat)) (dropboxDir : List String) (dropboxCode : Code)

def setRequest (s : DropBox) (k : Nat) (u : UploadState) : DropBox :=
  { s with requests := s.requests.set k u }

/-- The request goes on to what the loop over its files has come to. -/
def continueUpload (s : DropBox) (now : Int) (k : Nat) (u : UploadState)
    (next : Outcome (Option Nat) FileError NextFile) : DropBox :=
  let s := { s with fs := next.fs }
  match next.result with
  | .error _ => s.setRequest k { u with pc := .failed }
  | .ok (.writes w rest names) => s.setRequest k { u with pc := .opening w rest names }
  | .ok (.allStored names) =>
      s.setRequest k { u with pc := startRecord u.input now names, storedAt := some now }

def resumeUpload (s : DropBox) (now : Int) (k : Nat) (u : UploadState) : Option DropBox :=
  match u.pc with
  | .starting =>
      some (s.continueUpload now k u (nextFile disk dropboxDir u.input u.input.filenames [] s.fs))
  | .opening w rest names =>
      let opened := FileM.writeFile disk.limits w.path (some k) s.fs
      let s := { s with fs := opened.fs }
      match opened.result with
      | .error _ => some (s.setRequest k { u with pc := .failed })
      | .ok () => some (s.setRequest k { u with pc := .writing w rest names })
  | .writing w rest names =>
      some (s.continueUpload now k u ((do
        finishWriting disk w
        nextFile disk dropboxDir u.input rest (names ++ [w.filename])) s.fs))
  | .inserting filePath calledAt names =>
      let ttl := u.input.effectiveTtl
      some { s.setRequest k { u with pc := .committing names } with
        table := s.table.insertRow ⟨dropboxCode, filePath, calledAt + ttl, calledAt⟩
        recorded := s.recorded ++ [(⟨dropboxCode, filePath, calledAt + ttl, calledAt⟩, k)] }
  | .committing names => some (s.setRequest k { u with pc := startRecord u.input now names })
  | .finished | .failed => none

def raiseUpload (s : DropBox) (k : Nat) (u : UploadState) : Option DropBox :=
  match u.pc with
  | .finished | .failed => none
  | _ => some (s.setRequest k { u with pc := .failed })

/-- The removal of the file of a row; an `OSError` leaves everything as it is. -/
def removeRow (s : DropBox) (now : Int) (refuses : Bool) (row : FileTtlRow) : DropBox :=
  let outcome := removeExpired disk dropboxDir refuses row s.fs
  { s with
    fs := outcome.fs
    removed := s.removed ++
      match outcome.result, contentAt disk dropboxDir s.fs row with
      | .ok true, some writer => [⟨writer, now⟩]
      | _, _ => [] }

/-- The loop of the sweep up to its next await. -/
def sweepRows (s : DropBox) (now : Int) (refuses : Bool) : List FileTtlRow → DropBox
  | [] => { s with sweep := .idle }
  | row :: rest =>
      let s := if row.mountCode = dropboxCode then s.removeRow disk dropboxDir now refuses row else s
      { s with sweep := .deleting row rest }

def resumeSweep (s : DropBox) (now : Int) (refuses : Bool) : DropBox :=
  match s.sweep with
  | .idle => { s with sweep := .selecting now }
  | .selecting calledAt =>
      s.sweepRows disk dropboxDir dropboxCode now refuses (s.table.getExpired calledAt)
  | .deleting row rest =>
      { s with table := s.table.deleteRecord row.mountCode row.filePath, sweep := .committing rest }
  | .committing rest => s.sweepRows disk dropboxDir dropboxCode now refuses rest

/-- The loop of the cleanup. An exception ends the start of the relay. -/
def bootRows (s : DropBox) (now : Int) (refuses : FileTtlRow → Bool) : List FileTtlRow → DropBox
  | [] => { s with up := true }
  | row :: rows =>
      match (removeExpired disk dropboxDir (refuses row) row s.fs).result with
      | .error _ => { s with up := false }
      | .ok _ => bootRows (s.removeRow disk dropboxDir now (refuses row) row) now refuses rows

def boot (s : DropBox) (now : Int) (refuses : FileTtlRow → Bool) : DropBox :=
  let expired := s.table.filter (FileTtlTable.expiredFor (some dropboxCode) now)
  let s := { s with
    requests := s.requests.map UploadState.ended
    sweep := .idle
    table := (s.table.deleteExpiredForMount (some dropboxCode) now).2 }
  s.bootRows disk dropboxDir now refuses expired

def act (s : DropBox) (now : Int) : DropBoxAction → Option DropBox
  | .upload input => some { s with requests := s.requests ++ [⟨input, .starting, none⟩] }
  | .resume k => s.requests[k]?.bind (s.resumeUpload disk dropboxDir dropboxCode now k)
  | .raise k => s.requests[k]?.bind (s.raiseUpload k)
  | .deleteFiles paths => some { s with fs := (deletePaths disk dropboxDir paths s.fs).fs }
  | .renameFile path newName => some { s with fs := (renamePath disk dropboxDir path newName s.fs).fs }
  | .createNewFolder parentPath name =>
      some { s with fs := (createFolder disk dropboxDir parentPath name s.fs).fs }
  | .sweep refuses => some (s.resumeSweep disk dropboxDir dropboxCode now refuses)
  | .boot refuses => some (s.boot disk dropboxDir dropboxCode now refuses)

/-- One step at a time that is not before the last one. After a failed start there is only another one. -/
def step (s : DropBox) : Int × DropBoxAction → Option DropBox
  | (now, a) =>
      if now < s.clock ∨ (s.up = false ∧ a.isBoot = false) then none
      else { s with clock := now }.act disk dropboxDir dropboxCode now a

end

end DropBox

end NetworkFileServer.Relay
