import NetworkFileServer.Server.FileService

/-!
# The files router

`server/app/routers/files.py` and the upload part of `share_target.py`, over the file service and the
upload index of `services/upload_index.py`. A stored file carries the user whose upload request wrote
its current content, which the server itself does not keep.
-/

namespace NetworkFileServer.Server

open FileService

/-- File content with the trusted user of the upload request that wrote it; `none` for files that were
there before and for requests without a trusted user. -/
structure Authored (β : Type) where
  bytes : β
  writtenBy : Option String
deriving DecidableEq, Repr

/-- The table `upload_owners`, from `rel_path` to `uploader`. -/
abbrev OwnerTable := OrderedDict String String

namespace UploadIndex

/-- `_norm`. -/
def norm (relPath : String) : Except FileError String :=
  if Text.strip relPath = "" then .error .value
  else .ok (Text.lstrip '/' (Text.strip relPath))

def recordUpload (table : OwnerTable) (relPath uploader : String) : Except FileError OwnerTable :=
  if uploader = "" then .error .value
  else (norm relPath).map fun key => OrderedDict.set table key uploader

def isOwnedBy (table : OwnerTable) (relPath uploader : String) : Except FileError Bool :=
  (norm relPath).map fun key =>
    decide (table.lookup (fun k => decide (k = key)) = some uploader)

def ownedPaths (table : OwnerTable) (uploader : String) : List String :=
  (table.filter fun e => e.2 = uploader).map Prod.fst

end UploadIndex

structure ServerState (β : Type) where
  fs : FileSystem (Authored β)
  owners : OwnerTable

/-- `f"{path}/{name}".lstrip("/") if path else name`. -/
def relKey (path name : String) : String :=
  if path = "" then name else Text.lstrip '/' (path ++ "/" ++ name)

section Routes

variable {β : Type} (disk : Disk (Authored β)) (sharedFolder : List String)

/-- The loop of `upload_files` and of `share_upload` over the files of a request. -/
def storeFiles (uploader : Option String) (path : String) (files : List (String × β))
    (conflictResolution : Option ConflictResolution) :
    FileM (Authored β) FileError (List UploadResult) :=
  FileM.forEach (fun file => uploadFile disk sharedFolder path ⟨file.1, ⟨file.2, uploader⟩⟩
    conflictResolution) files

/-- The second loop of `upload_files`. -/
def recordResults (uploader path : String) :
    OwnerTable → List UploadResult → Except FileError Unit × OwnerTable
  | table, [] => (.ok (), table)
  | table, result :: results =>
      if result.name = "" then recordResults uploader path table results
      else
        match UploadIndex.recordUpload table (relKey path result.name) uploader with
        | .error e => (.error e, table)
        | .ok table' => recordResults uploader path table' results

def uploadFiles (uploader : Option String) (path : String) (files : List (String × β))
    (conflictResolution : Option ConflictResolution) (s : ServerState β) :
    Except FileError (List UploadResult) × ServerState β :=
  let stored := storeFiles disk sharedFolder uploader path files conflictResolution s.fs
  match stored.result, uploader with
  | .error e, _ => (.error e, { s with fs := stored.fs })
  | .ok results, none => (.ok results, { s with fs := stored.fs })
  | .ok results, some user =>
      let recorded := recordResults user path s.owners results
      (recorded.1.map fun _ => results, ⟨stored.fs, recorded.2⟩)

def shareUpload (uploader : Option String) (files : List (String × β)) (s : ServerState β) :
    Except FileError (List UploadResult) × ServerState β :=
  if files = [] then (.error .value, s)
  else
    let stored := storeFiles disk sharedFolder uploader "" files (some .rename) s.fs
    (stored.result, { s with fs := stored.fs })

inductive Request (β : Type) where
  | uploadFiles (uploader : Option String) (path : String) (files : List (String × β))
      (conflictResolution : Option ConflictResolution)
  | shareUpload (uploader : Option String) (files : List (String × β))
  | deleteFiles (paths : List String)
  | renameFile (path newName : String)
  | createNewFolder (parentPath name : String)

/-- The state that a request leaves behind, whether it succeeds or fails. -/
def serve (s : ServerState β) : Request β → ServerState β
  | .uploadFiles uploader path files conflictResolution =>
      (Server.uploadFiles disk sharedFolder uploader path files conflictResolution s).2
  | .shareUpload uploader files => (Server.shareUpload disk sharedFolder uploader files s).2
  | .deleteFiles paths => { s with fs := (deletePaths disk sharedFolder paths s.fs).fs }
  | .renameFile path newName =>
      { s with fs := (renamePath disk sharedFolder path newName s.fs).fs }
  | .createNewFolder parentPath name =>
      { s with fs := (createFolder disk sharedFolder parentPath name s.fs).fs }

def requestStep (s : ServerState β) (request : Request β) : Option (ServerState β) :=
  some (serve disk sharedFolder s request)

/-! ## Browsing

`scopeUser` is the result of `receive_scope_user`: the user's name for the RECEIVE role. -/

def getFiles (scopeUser : Option String) (path : String) (s : ServerState β) :
    Except FileError DirectoryListing :=
  (listDirectory disk sharedFolder path s.fs).result.map fun listing =>
    match scopeUser with
    | none => listing
    | some user =>
        { listing with
          entries := listing.entries.filter fun e =>
            decide (e.type ≠ .directory ∧ relKey path e.name ∈ UploadIndex.ownedPaths s.owners user) }

/-- The check of a scoped user before a file is served. -/
def requireOwned (scopeUser : Option String) (owners : OwnerTable) (path : String) :
    Except FileError Unit :=
  match scopeUser with
  | none => .ok ()
  | some user =>
      match UploadIndex.isOwnedBy owners path user with
      | .error e => .error e
      | .ok true => .ok ()
      | .ok false => .error (.fileNotFound "Not found")

/-- The content that `download_single_file` and `preview_file` respond with. -/
def servedContent (scopeUser : Option String) (path : String) (s : ServerState β) :
    Except FileError (Authored β) :=
  match requireOwned scopeUser s.owners path with
  | .error e => .error e
  | .ok () => ((downloadFile disk sharedFolder path >>= fileResponse disk) s.fs).result

def downloadSingleFile (scopeUser : Option String) (path : String) (s : ServerState β) :
    Except FileError (Authored β) :=
  servedContent disk sharedFolder scopeUser path s

def previewFile (scopeUser : Option String) (path : String) (s : ServerState β) :
    Except FileError (Authored β) :=
  servedContent disk sharedFolder scopeUser path s

/-- The loop of `download_zip` over the paths of a scoped user. -/
def requireAllOwned (scopeUser : Option String) (owners : OwnerTable) :
    List String → Except FileError Unit
  | [] => .ok ()
  | path :: paths =>
      match requireOwned scopeUser owners path with
      | .error e => .error e
      | .ok () => requireAllOwned scopeUser owners paths

/-- The members of the archive. -/
def downloadZip (scopeUser : Option String) (paths : List String) (s : ServerState β) :
    Except FileError (List (String × Authored β)) :=
  match requireAllOwned scopeUser s.owners paths with
  | .error e => .error e
  | .ok () => (downloadAsZip disk sharedFolder paths s.fs).result

end Routes

end NetworkFileServer.Server
