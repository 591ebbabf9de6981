import NetworkFileServer.Framework.FileWalks
import NetworkFileServer.Relay.DropBox
import NetworkFileServer.Server.RequestEffects
import NetworkFileServer.Server.UploadKeys

/-!
# The files of the drop box and their rows

`upload_files` records the TTLs of a request after all of its files are stored, and `file_ttl_sweep_once`
and the cleanup at the start delete a row whether or not its file is gone. This module says when every
file with a TTL has a row that leads to it, so that a later sweep removes it.

The operations run one after another here, each in one go, as they do when nothing else interrupts them.
The content of a file is the TTL of the request that wrote it, or nothing for a file that no request wrote.
-/

namespace NetworkFileServer.Relay

open Server Server.FileService

/-- The files of the drop box and the table. -/
structure TtlStore (α : Type) where
  fs : FileSystem α
  table : FileTtlTable

inductive TtlOperation where
  /-- `clock` gives the time of each call of `record_file_ttl`. -/
  | uploadFiles (input : UploadInput) (clock : Nat → Int)
  /-- `refuses` says which files the operating system refuses to remove. -/
  | sweepOnce (now : Int) (refuses : FileTtlRow → Bool)
  | bootCleanup (now : Int) (refuses : FileTtlRow → Bool)

namespace TtlStore

section

variable {α : Type} (disk : Disk α) (dropboxDir : List String) (dropboxCode : Code)

/-- The loop of `upload_files` over the files of the request. -/
def storeFiles (input : UploadInput) (content : α) (files : List String) :
    FileM α FileError (List UploadResult) :=
  FileM.forEach (fun file => uploadFile disk dropboxDir input.path ⟨file, content⟩
    input.conflictResolution) files

/-- The loop that records the TTLs of the names of the results. An `OverflowError` ends it, and the request. -/
def recordTtls (input : UploadInput) : (Nat → Int) → FileTtlTable → List String → FileTtlTable
  | _, table, [] => table
  | clock, table, name :: names =>
      if name = "" then recordTtls input (fun i => clock (i + 1)) table names
      else
        match table.recordFileTtl dropboxCode (relKey input.path name) input.effectiveTtl (clock 0) with
        | none => table
        | some table => recordTtls input (fun i => clock (i + 1)) table names

def uploadFiles (s : TtlStore α) (input : UploadInput) (content : α) (clock : Nat → Int) : TtlStore α :=
  let stored := storeFiles disk dropboxDir input content input.filenames s.fs
  match stored.result with
  | .error _ => { s with fs := stored.fs }
  | .ok results =>
      { fs := stored.fs
        table := if input.effectiveTtl > 0 then
            recordTtls dropboxCode input clock s.table (results.map fun r => r.name)
          else s.table }

/-- The loop body of `file_ttl_sweep_once`; an `OSError` is logged, and the record goes anyway. -/
def sweepRow (refuses : FileTtlRow → Bool) (s : TtlStore α) (row : FileTtlRow) : TtlStore α where
  fs := if row.mountCode = dropboxCode then (removeExpired disk dropboxDir (refuses row) row s.fs).fs
    else s.fs
  table := s.table.deleteRecord row.mountCode row.filePath

def sweepOnce (s : TtlStore α) (now : Int) (refuses : FileTtlRow → Bool) : TtlStore α :=
  (s.table.getExpired now).foldl (sweepRow disk dropboxDir dropboxCode refuses) s

/-- The loop of the cleanup over the deleted rows. An exception ends the start of the relay. -/
def bootFiles (refuses : FileTtlRow → Bool) : FileSystem α → List FileTtlRow → FileSystem α
  | fs, [] => fs
  | fs, row :: rows =>
      let removed := removeExpired disk dropboxDir (refuses row) row fs
      match removed.result with
      | .error _ => removed.fs
      | .ok _ => bootFiles refuses removed.fs rows

def bootCleanup (s : TtlStore α) (now : Int) (refuses : FileTtlRow → Bool) : TtlStore α where
  fs := bootFiles disk dropboxDir refuses s.fs
    (s.table.filter (FileTtlTable.expiredFor (some dropboxCode) now))
  table := (s.table.deleteExpiredForMount (some dropboxCode) now).2

end

section

variable (disk : Disk (Option Int)) (dropboxDir : List String) (dropboxCode : Code)

/-- The content of an uploaded file is the TTL of its request. -/
def step (s : TtlStore (Option Int)) : TtlOperation → Option (TtlStore (Option Int))
  | .uploadFiles input clock =>
      some (s.uploadFiles disk dropboxDir dropboxCode input (some input.effectiveTtl) clock)
  | .sweepOnce now refuses => some (s.sweepOnce disk dropboxDir dropboxCode now refuses)
  | .bootCleanup now refuses => some (s.bootCleanup disk dropboxDir dropboxCode now refuses)

/-- Every file with a TTL has a row of the drop box whose path leads to it. -/
def Recorded (s : TtlStore (Option Int)) : Prop :=
  ∀ l ttl, s.fs.get? l = some (.file (some ttl)) → 0 < ttl →
    ∃ row ∈ s.table, row.mountCode = dropboxCode ∧
      s.fs.locate disk.limits (fullPath dropboxDir row) = some (l, .file (some ttl))

section Uploads

variable (input : UploadInput) (fs : FileSystem (Option Int)) (file : String)

/-- Whether `upload_file` stores the file. -/
def Accepts : Prop :=
  (validateUploadFilename file).isOk = true ∧
    ∃ targetDir ∈ safeLocation disk fs dropboxDir input.path,
      Storable disk fs targetDir file input.conflictResolution

/-- The file is there already and is not written. -/
def Skips : Prop :=
  input.conflictResolution = some .skip ∧
    ∃ targetDir ∈ safeLocation disk fs dropboxDir input.path, Taken disk fs targetDir file

/-- Neither a name that is opened nor the name that `os.replace` takes is a link. -/
def OpensPlainly : Prop :=
  (validateUploadFilename file).isOk = true →
    ∀ targetDir ∈ safeLocation disk fs dropboxDir input.path,
      OpensNoLink disk fs targetDir file input.conflictResolution ∧
        (input.conflictResolution = some .overwrite →
          (fs.get? (targetDir ++ [file])).any Node.isLink = false)

/-- The path of the request leads, component by component, to the directory that it resolves to. -/
def LeadsToTarget : Prop :=
  ∀ targetDir ∈ safeLocation disk fs dropboxDir input.path,
    (fs.locate disk.limits (dropboxDir ++ (PurePath.parse input.path).parts)).map Prod.fst = some targetDir

/-- A directory is to be overwritten, which fails when the temporary file has been written. -/
def OverwritesDirectory : Prop :=
  input.conflictResolution = some .overwrite ∧
    ∃ targetDir ∈ safeLocation disk fs dropboxDir input.path, fs.isDirAt (targetDir ++ [file]) = true

def afterFile : FileSystem (Option Int) :=
  (uploadFile disk dropboxDir input.path ⟨file, some input.effectiveTtl⟩ input.conflictResolution fs).fs

instance : Decidable (Accepts disk dropboxDir input fs file) := inferInstanceAs (Decidable (_ ∧ _))

instance : Decidable (Skips disk dropboxDir input fs file) := inferInstanceAs (Decidable (_ ∧ _))

instance (targetDir : Location) :
    Decidable (OpensNoLink disk fs targetDir file input.conflictResolution) :=
  inferInstanceAs (Decidable (∀ name ∈ opened disk fs targetDir file input.conflictResolution, _))

instance : Decidable (OpensPlainly disk dropboxDir input fs file) := inferInstanceAs (Decidable (_ → _))

instance : Decidable (LeadsToTarget disk dropboxDir input fs) :=
  inferInstanceAs (Decidable (∀ targetDir ∈ safeLocation disk fs dropboxDir input.path, _))

instance : Decidable (OverwritesDirectory disk dropboxDir input fs file) :=
  inferInstanceAs (Decidable (_ ∧ _))

end Uploads

/-- A request with a TTL does not fail once it has written something, and its path leads to where its files
are; `written` says whether it has. If its TTL is too large it writes nothing. No link is written through or
replaced. -/
def UploadRecords (input : UploadInput) : Bool → FileSystem (Option Int) → List String → Prop
  | _, _, [] => True
  | written, fs, file :: files =>
      OpensPlainly disk dropboxDir input fs file ∧
        (Accepts disk dropboxDir input fs file →
          (0 < input.effectiveTtl → LeadsToTarget disk dropboxDir input fs ∧
            (FileTtlTable.fitsFloat input.effectiveTtl = true ∨ Skips disk dropboxDir input fs file)) ∧
            UploadRecords input (written || !decide (Skips disk dropboxDir input fs file))
              (afterFile disk dropboxDir input fs file) files) ∧
        (¬Accepts disk dropboxDir input fs file → 0 < input.effectiveTtl →
          written = false ∧ ¬OverwritesDirectory disk dropboxDir input fs file)

/-- The path of the row ends at no link; what `os.remove` removes is what the path leads to. -/
def EndsPlainly (fs : FileSystem (Option Int)) (row : FileTtlRow) : Prop :=
  (fs.locate disk.limits (fullPath dropboxDir row)).isSome = true →
    ∀ e ∈ fs.locateEntry disk.limits (fullPath dropboxDir row), (fs.get? e).any Node.isLink = false

/-- The file of the row, if it has one with a TTL, can be removed. -/
def SweepRemoves (refuses : FileTtlRow → Bool) (fs : FileSystem (Option Int)) (row : FileTtlRow) : Prop :=
  EndsPlainly disk dropboxDir fs row ∧
    ((contentAt disk dropboxDir fs row).any (fun ttl => ttl.any fun t => decide (0 < t)) = true →
      refuses row = false)

/-- The path of the row leads to nothing, or to a file that can be removed: no exception ends the start. -/
def BootRemoves (refuses : FileTtlRow → Bool) (fs : FileSystem (Option Int)) (row : FileTtlRow) : Prop :=
  EndsPlainly disk dropboxDir fs row ∧
    ((fs.locate disk.limits (fullPath dropboxDir row)).isSome = true →
      (contentAt disk dropboxDir fs row).isSome = true ∧ refuses row = false)

/-- The operation keeps files and rows together. -/
def KeepsRows (s : TtlStore (Option Int)) : TtlOperation → Prop
  | .uploadFiles input _ => UploadRecords disk dropboxDir input false s.fs input.filenames
  | .sweepOnce now refuses =>
      ∀ row ∈ s.table.getExpired now, row.mountCode = dropboxCode →
        SweepRemoves disk dropboxDir refuses s.fs row
  | .bootCleanup now refuses =>
      ∀ row ∈ s.table.filter (FileTtlTable.expiredFor (some dropboxCode) now),
        BootRemoves disk dropboxDir refuses s.fs row

instance decidableUploadRecords (input : UploadInput) : (written : Bool) →
    (fs : FileSystem (Option Int)) → (files : List String) →
    Decidable (UploadRecords disk dropboxDir input written fs files)
  | _, _, [] => isTrue trivial
  | written, fs, file :: files =>
      have := decidableUploadRecords input (written || !decide (Skips disk dropboxDir input fs file))
        (afterFile disk dropboxDir input fs file) files
      inferInstanceAs (Decidable (_ ∧ (_ → _ ∧ _) ∧ (_ → _ → _)))

instance (fs : FileSystem (Option Int)) (row : FileTtlRow) : Decidable (EndsPlainly disk dropboxDir fs row) :=
  inferInstanceAs (Decidable (_ → _))

instance (refuses : FileTtlRow → Bool) (fs : FileSystem (Option Int)) (row : FileTtlRow) :
    Decidable (SweepRemoves disk dropboxDir refuses fs row) :=
  inferInstanceAs (Decidable (_ ∧ _))

instance (refuses : FileTtlRow → Bool) (fs : FileSystem (Option Int)) (row : FileTtlRow) :
    Decidable (BootRemoves disk dropboxDir refuses fs row) :=
  inferInstanceAs (Decidable (_ ∧ _))

instance (s : TtlStore (Option Int)) (a : TtlOperation) :
    Decidable (KeepsRows disk dropboxDir dropboxCode s a) :=
  match a with
  | .uploadFiles input _ => decidableUploadRecords disk dropboxDir input false s.fs input.filenames
  | .sweepOnce now refuses =>
      inferInstanceAs (Decidable (∀ row ∈ s.table.getExpired now, row.mountCode = dropboxCode →
        SweepRemoves disk dropboxDir refuses s.fs row))
  | .bootCleanup now refuses =>
      inferInstanceAs (Decidable (∀ row ∈ s.table.filter (FileTtlTable.expiredFor (some dropboxCode) now),
        BootRemoves disk dropboxDir refuses s.fs row))

end

end TtlStore

end NetworkFileServer.Relay
