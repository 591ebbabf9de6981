import Mathlib.Algebra.GroupWithZero.Nat
import Mathlib.Data.List.Dedup
import NetworkFileServer.Server.FilesRouter

/-!
# The storage of a user

`user_storage.py` of the relay, the service and the routes `/me/quota` and `/me/files`: each user has a
directory below `data_dir / "users"`, to which the file service is applied, and a quota in bytes. A request
runs alone here. What is not caught leaves the route as an exception.
-/

namespace NetworkFileServer.Relay

open Server Server.FileService

section

variable {α : Type} (disk : Disk α) (dataDir : Location)

/-- `path.mkdir(exist_ok=True)` after `os.mkdir` has raised. -/
def existOk (p : List String) (e : OsError) : FileM α OsError Unit := do
  let directory ← FileM.isDir disk.limits p
  if directory then pure () else FileM.fail e

/-- `path.mkdir(parents=True, exist_ok=True)`; the components come from the last one on. -/
def makeDirs : List String → FileM α OsError Unit
  | [] => pure ()
  | c :: parents =>
      let p := parents.reverse ++ [c]
      (FileM.mkdir disk.limits p).catchError fun e =>
        if e = .notFound then do
          makeDirs parents
          (FileM.mkdir disk.limits p).catchError fun e =>
            if e = .notFound then FileM.fail e else existOk disk p e
        else existOk disk p e

/-- `data_dir / "users" / str(user_id)` -/
def userPath (userId : Int) : Location := dataDir ++ ["users", toString userId]

def userDir (userId : Int) : FileM α FileError Location :=
  if userId ≤ 0 then FileM.fail .value
  else do
    (makeDirs disk (userPath dataDir userId).reverse).mapError .os
    pure (userPath dataDir userId)

/-- `fp.stat().st_size` of a path among the `filenames` of `os.walk`: links are followed, and a directory
is none of these names. -/
def sizeAt (fs : FileSystem α) (p : List String) : Nat :=
  match fs.locate disk.limits p with
  | some (_, .file content) => disk.size (.file content)
  | _ => 0

/-- The paths below a directory that `os.walk` comes to, each once. Links to directories are not entered. -/
def walked (fs : FileSystem α) (root : List String) : List (List String) :=
  match fs.locate disk.limits root with
  | some (l, .dir) =>
      ((fs.tree.map Prod.fst).filter fun q =>
        l <+: q ∧ q ≠ l ∧ ∀ c ∈ q.drop l.length, ProperName c).dedup.map fun q => root ++ q.drop l.length
  | _ => []

def usedBytes (fs : FileSystem α) (root : List String) : Nat :=
  ((walked disk fs root).map (sizeAt disk fs)).sum

/-- The loop of `usage_bytes`. -/
def sumBytes (root : List String) : FileM α FileError Nat := fun fs =>
  ⟨.ok (usedBytes disk fs root), fs,
    ((walked disk fs root).filterMap fun p => (fs.locate disk.limits p).map Prod.fst).map .read⟩

def usageBytes (userId : Int) : FileM α FileError Nat := do
  let root ← userDir disk dataDir userId
  sumBytes disk root

/-- The quota of the user if one is set, or that of the relay. -/
def quotaBytes (userQuota : Option Int) (defaultQuotaBytes : Int) : Int := userQuota.getD defaultQuotaBytes

inductive StorageRequest (α : Type) where
  | getQuota
  | listFiles (path : String)
  /-- `declared` is the Content-Length, or 0. -/
  | upload (files : List (Upload α)) (path : String) (conflictResolution : Option ConflictResolution)
      (declared : Nat)
  | download (path : String)
  | delete (paths : List String)

inductive StorageResponse (α : Type) where
  | quota (usage : Nat) (quota : Int)
  | listing (listing : DirectoryListing)
  | results (results : List UploadResult)
  | file (filename : String) (content : α)
  | deleted (paths : List String)
  /-- A JSON response with the text of the exception. -/
  | error (status : Nat) (e : FileError)
  /-- Status 413. -/
  | quotaExceeded (quota : Int) (usage : Option Nat)
deriving DecidableEq

def StorageResponse.status : StorageResponse α → Nat
  | .error status _ => status
  | .quotaExceeded _ _ => 413
  | _ => 200

/-- The `except` clauses of a route: the status of the exceptions that it catches. -/
def catching (statusOf : FileError → Option Nat) (body : FileM α FileError (StorageResponse α)) :
    FileM α FileError (StorageResponse α) :=
  body.catchError fun e =>
    match statusOf e with
    | some status => pure (.error status e)
    | none => FileM.fail e

/-- `PathTraversalError` is 403, `FileNotFoundError` is 404. -/
def traversalOrMissing : FileError → Option Nat
  | .pathTraversal _ => some 403
  | .fileNotFound _ | .os .notFound => some 404
  | _ => none

/-- A `ValueError` is 404, too. -/
def traversalMissingOrValue : FileError → Option Nat
  | .value => some 404
  | e => traversalOrMissing e

def uploadStatus : FileError → Option Nat
  | .pathTraversal _ => some 403
  | .invalidFileName _ _ => some 400
  | .fileConflict _ _ => some 409
  | _ => none

def getQuota (userId quota : Int) : FileM α FileError (StorageResponse α) := do
  let usage ← usageBytes disk dataDir userId
  pure (.quota usage quota)

def listFiles (userId : Int) (path : String) : FileM α FileError (StorageResponse α) := do
  let base ← userDir disk dataDir userId
  catching traversalOrMissing do
    let listing ← listDirectory disk base path
    pure (.listing listing)

/-- The check after the files are stored, and the rollback. -/
def checkStored (base : Location) (userId quota : Int) (path : String) (results : List UploadResult) :
    FileM α FileError (StorageResponse α) := do
  let usage ← usageBytes disk dataDir userId
  if quota < usage then do
    let _ ← deletePaths disk base (results.map fun result => relKey path result.name)
    pure (.quotaExceeded quota none)
  else pure (.results results)

/-- The loop of `upload`. -/
def uploadAll (base : Location) (path : String) (conflictResolution : Option ConflictResolution)
    (files : List (Upload α)) : FileM α FileError (List UploadResult) :=
  FileM.forEach (fun f => uploadFile disk base path f conflictResolution) files

/-- The `except` clauses of `upload`, and what comes after the loop. -/
def answerStored (base : Location) (userId quota : Int) (path : String) :
    Except FileError (List UploadResult) → FileM α FileError (StorageResponse α)
  | .ok results => checkStored disk dataDir base userId quota path results
  | .error e =>
      match uploadStatus e with
      | some status => pure (.error status e)
      | none => FileM.fail e

def upload (userId quota : Int) (files : List (Upload α)) (path : String)
    (conflictResolution : Option ConflictResolution) (declared : Nat) :
    FileM α FileError (StorageResponse α) := do
  let base ← userDir disk dataDir userId
  let current ← usageBytes disk dataDir userId
  if declared ≠ 0 ∧ quota < current + declared then pure (.quotaExceeded quota (some current))
  else do
    let stored ← (uploadAll disk base path conflictResolution files).attempt
    answerStored disk dataDir base userId quota path stored

/-- The name and the content of the file; the content is read when the response is sent. -/
def download (userId : Int) (path : String) : FileM α FileError (StorageResponse α) := do
  let base ← userDir disk dataDir userId
  let found ← (downloadFile disk base path).attempt
  match found with
  | .ok fp => do
      let content ← fileResponse disk fp
      pure (.file (fp.getLast?.getD "") content)
  | .error e =>
      match traversalMissingOrValue e with
      | some status => pure (.error status e)
      | none => FileM.fail e

def delete (userId : Int) (paths : List String) : FileM α FileError (StorageResponse α) := do
  let base ← userDir disk dataDir userId
  catching traversalOrMissing do
    let deleted ← deletePaths disk base paths
    pure (.deleted deleted)

/-- A request of a user whose quota is `quota`. -/
def serveStorage (userId quota : Int) : StorageRequest α → FileM α FileError (StorageResponse α)
  | .getQuota => getQuota disk dataDir userId quota
  | .listFiles path => listFiles disk dataDir userId path
  | .upload files path conflictResolution declared =>
      upload disk dataDir userId quota files path conflictResolution declared
  | .download path => download disk dataDir userId path
  | .delete paths => delete disk dataDir userId paths

end

end NetworkFileServer.Relay
