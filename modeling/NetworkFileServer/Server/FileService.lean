import Mathlib.Algebra.Ring.Nat
import NetworkFileServer.Framework.FileM

/-!
# The file service

`server/app/services/file_service.py`: the path guard, the two name checks and the operations on the
shared folder. A base directory is an absolute path; the paths that the service builds are lists of
names below the root. `Disk` holds what the service takes from the platform.
-/

namespace NetworkFileServer.Server.FileService

structure Disk (α : Type) where
  limits : LinkLimits
  /-- `st_size`. -/
  size : Node α → Nat
  /-- `st_mtime` of what a path leads to, as `isoformat` writes it. -/
  modified : List String → String
  /-- How deep the walk of the ZIP library goes before the operating system refuses the path. -/
  walkDepth : Nat

inductive FileError where
  | pathTraversal (attemptedPath : String)
  | fileNotFound (message : String)
  | fileConflict (path existingPath : String)
  | invalidFileName (name reason : String)
  | invalidFileRequest (reason : String)
  | value
  | os (e : OsError)
deriving DecidableEq, Repr

inductive ConflictResolution where
  | overwrite
  | rename
  | skip
deriving DecidableEq, Repr

inductive FileType where
  | file
  | directory
deriving DecidableEq, Repr

structure FileEntry where
  name : String
  size : Nat
  sizeDisplay : String
  type : FileType
  modified : String
deriving DecidableEq, Repr

structure DirectoryListing where
  path : String
  entries : List FileEntry
deriving DecidableEq, Repr

structure Upload (α : Type) where
  filename : String
  content : α
deriving DecidableEq, Repr

structure UploadResult where
  name : String
  size : Nat
  sizeDisplay : String
  skipped : Bool
deriving DecidableEq, Repr

/-- `n / scale`, rounded to an integer, and to the even one halfway between two. -/
def roundHalfEven (n scale : Nat) : Nat :=
  let rest := 2 * (n % scale)
  if rest < scale ∨ (rest = scale ∧ n / scale % 2 = 0) then n / scale else n / scale + 1

/-- `float(n)`, which has 53 bits. -/
def toFloat (n : Nat) : Nat :=
  let scale := 2 ^ (n.log2 - 52)
  roundHalfEven n scale * scale

/-- `f"{size / scale:.1f}"`. -/
def fixedPoint (size scale : Nat) : String :=
  let tenths := roundHalfEven (10 * size) scale
  toString (tenths / 10) ++ "." ++ toString (tenths % 10)

/-- The loop of `format_file_size`, which divides a `float` by powers of two. -/
def inUnits (size : Nat) : Nat → List String → String
  | scale, [] => fixedPoint size scale ++ " TB"
  | scale, unit :: units =>
      if size < 1024 * scale then fixedPoint size scale ++ " " ++ unit
      else inUnits size (1024 * scale) units

def formatFileSize (sizeBytes : Nat) : String :=
  inUnits (toFloat sizeBytes) 1 ["B", "KB", "MB", "GB"]

example : formatFileSize 1023 = "1023.0 B" ∧ formatFileSize 1664 = "1.6 KB" ∧
    formatFileSize (2 ^ 40) = "1.0 TB" := by
  decide +kernel

def uploadResult (name : String) (size : Nat) (skipped : Bool) : UploadResult :=
  ⟨name, size, formatFileSize size, skipped⟩

@[simp] theorem uploadResult_name (name : String) (size : Nat) (skipped : Bool) :
    (uploadResult name size skipped).name = name := rfl

/-- `str(path)` of an absolute path. -/
def pathStr (p : Location) : String := "/" ++ "/".intercalate p

/-- `str(path.relative_to(base))`. -/
def relativeTo (p base : Location) : Except FileError String :=
  if base <+: p then
    .ok (if p = base then "." else "/".intercalate (p.drop base.length))
  else .error .value

def hasNul (s : String) : Bool := s.toList.contains '\x00'

/-- `PureWindowsPath(name).is_absolute()`: a drive letter with a root, or a share with its host. -/
def windowsAbsolute (name : String) : Bool :=
  let cs := name.toList.map fun c => if c = '/' then '\\' else c
  match cs with
  | _ :: ':' :: '\\' :: _ => true
  | '\\' :: '\\' :: rest =>
      match rest.splitOn '\\' with
      | host :: share :: parts =>
          if host = ['?'] ∧ share.map Char.toUpper = ['U', 'N', 'C'] then
            3 ≤ parts.length ∨ parts.length = 2 ∧ parts.getLast? ≠ some []
          else parts ≠ [] ∨ share ≠ [] ∧ host ∉ [[], ['?'], ['.'], ['?', '.']]
      | _ => false
  | _ => false

def validateName (name : String) : Except FileError Unit :=
  if name = "" then .error (.invalidFileName name "name must not be empty")
  else if name.toList.contains '/' then .error (.invalidFileName name "name must not contain '/'")
  else if name = ".." then .error (.invalidFileName name "name must not be '..'")
  else if (name.toList.splitOn '/').contains ['.', '.'] then
    .error (.invalidFileName name "name must not contain '..'")
  else if hasNul name then .error (.invalidFileName name "name must not contain null bytes")
  else .ok ()

def validateUploadFilename (filename : String) : Except FileError String :=
  if filename = "" then .error (.invalidFileName filename "filename must not be empty")
  else if hasNul filename then
    .error (.invalidFileName filename "filename must not contain null bytes")
  else if Text.startsWith filename "/" || windowsAbsolute filename then
    .error (.invalidFileName filename "filename must not be absolute")
  else if filename.toList.contains '/' then
    .error (.invalidFileName filename "filename must not contain '/'")
  else if filename.toList.contains '\\' then
    .error (.invalidFileName filename "filename must not contain '\\'")
  else if filename = "." ∨ filename = ".." then
    .error (.invalidFileName filename "filename must not be '.' or '..'")
  else .ok filename

/-- Where `name.rfind('.')` splits a name: not at its first or last character. -/
def suffixStart (name : List Char) : Nat :=
  let i := name.length - 1 - (name.reverse.takeWhile (· ≠ '.')).length
  if '.' ∈ name ∧ 0 < i ∧ i < name.length - 1 then i else name.length

/-- `PurePath.stem`. -/
def stem (name : String) : String := String.ofList (name.toList.take (suffixStart name.toList))

/-- `PurePath.suffix`. -/
def suffix (name : String) : String := String.ofList (name.toList.drop (suffixStart name.toList))

/-- `PurePath.with_suffix`, on the last component. -/
def withSuffix (name suff : String) : String := stem name ++ suff

/-- The temporary file of an overwritten name. -/
def tempName (filename : String) : String := withSuffix filename (suffix filename ++ ".tmp")

section Operations

variable {α : Type} (disk : Disk α)

def liftExcept {β : Type} : Except FileError β → FileM α FileError β
  | .error e => FileM.fail e
  | .ok b => pure b

/-- `Path.resolve()`. -/
def resolvePath (p : List String) : FileM α FileError Location :=
  (FileM.resolve disk.limits p).mapError .os

def resolveSafePath (baseDir : List String) (userPath : String) : FileM α FileError Location := do
  let baseResolved ← resolvePath disk baseDir
  if userPath = "" then pure baseResolved
  else if Text.startsWith userPath "/" then FileM.fail (.pathTraversal userPath)
  else if hasNul userPath then FileM.fail .value
  else do
    let candidate ← resolvePath disk (baseResolved ++ (PurePath.parse userPath).parts)
    if ¬baseResolved <+: candidate then FileM.fail (.pathTraversal userPath)
    else do
      let found ← FileM.pathExists disk.limits candidate
      let message := "Path '" ++ userPath ++ "' does not exist in shared folder"
      if found then pure candidate else FileM.fail (.fileNotFound message)

/-- The entry of what the path `item` leads to. -/
def fileEntry (item : List String) (name : String) (node : Node α) : FileEntry where
  name := name
  size := disk.size node
  sizeDisplay := formatFileSize (disk.size node)
  type := if node.isDir then .directory else .file
  modified := disk.modified item

/-- The loop body of `list_directory`. -/
def listEntry (target : Location) (name : String) : FileM α FileError FileEntry := do
  let node ← (FileM.stat disk.limits (target ++ [name])).mapError .os
  pure (fileEntry disk (target ++ [name]) name node)

def listDirectory (baseDir : List String) (relativePath : String) :
    FileM α FileError DirectoryListing := do
  let target ← resolveSafePath disk baseDir relativePath
  let names ← (FileM.listdir disk.limits target).mapError .os
  let entries ← FileM.forEach (listEntry disk target) names
  pure ⟨relativePath, entries⟩

def writeUploadChunks (upload : Upload α) (destination : Location) : FileM α FileError Nat := do
  (FileM.writeFile disk.limits destination upload.content).mapError .os
  pure (disk.size (.file upload.content))

/-- The name that the RENAME branch tries at a counter. -/
def numbered (filename : String) (counter : Nat) : String :=
  stem filename ++ "_" ++ toString counter ++ suffix filename

/-- The `while True` loop of the RENAME branch, with a bound on its rounds; `found` is `candidate.exists()`. -/
def freeNameVia (found : List String → FileM α FileError Bool) (targetDir : Location) (filename : String) :
    Nat → Nat → FileM α FileError String
  | 0, _ => FileM.fail (.os .fileExists)
  | rounds + 1, counter => do
      let taken ← found (targetDir ++ [numbered filename counter])
      if taken then freeNameVia found targetDir filename rounds (counter + 1)
      else pure (numbered filename counter)

/-- The loop over names of any length. -/
def freeName (targetDir : Location) (filename : String) : Nat → Nat → FileM α FileError String :=
  freeNameVia (FileM.pathExists disk.limits) targetDir filename

def writeDirectly (targetDir : Location) (filename : String) (upload : Upload α) :
    FileM α FileError UploadResult := do
  let bytesWritten ← writeUploadChunks disk upload (targetDir ++ [filename])
  pure (uploadResult filename bytesWritten false)

/-- Write to a temporary file, then `os.replace`. -/
def writeReplacing (targetDir : Location) (filename : String) (upload : Upload α) :
    FileM α FileError UploadResult := do
  let bytesWritten ← writeUploadChunks disk upload (targetDir ++ [tempName filename])
  (FileM.rename disk.limits (targetDir ++ [tempName filename])
    (targetDir ++ [filename])).mapError .os
  pure (uploadResult filename bytesWritten false)

/-- `conflict_resolution == OVERWRITE and (target_dir / filename).exists()`. -/
def overwrites (targetDir : Location) (filename : String) :
    Option ConflictResolution → FileM α FileError Bool
  | some .overwrite => FileM.pathExists disk.limits (targetDir ++ [filename])
  | none | some .rename | some .skip => pure false

/-- The end of `upload_file`. -/
def writeUpload (targetDir : Location) (filename : String) (upload : Upload α)
    (conflictResolution : Option ConflictResolution) : FileM α FileError UploadResult := do
  let replaces ← overwrites disk targetDir filename conflictResolution
  if replaces then writeReplacing disk targetDir filename upload
  else writeDirectly disk targetDir filename upload

/-- What `upload_file` does about a name that is taken. -/
def resolveConflict (targetDir : Location) (filename : String) (upload : Upload α) :
    Option ConflictResolution → FileM α FileError UploadResult
  | none => FileM.fail (.fileConflict filename (pathStr (targetDir ++ [filename])))
  | some .skip => do
      let existing ← (FileM.stat disk.limits (targetDir ++ [filename])).mapError .os
      pure (uploadResult filename (disk.size existing) true)
  | some .rename => do
      let objects ← FileM.objectCount
      let newName ← freeName disk targetDir filename (objects + 1) 1
      writeUpload disk targetDir newName upload (some .rename)
  | some .overwrite => writeUpload disk targetDir filename upload (some .overwrite)

def storeUpload (targetDir : Location) (filename : String) (upload : Upload α)
    (conflictResolution : Option ConflictResolution) : FileM α FileError UploadResult := do
  let conflict ← FileM.pathExists disk.limits (targetDir ++ [filename])
  if conflict then resolveConflict disk targetDir filename upload conflictResolution
  else writeUpload disk targetDir filename upload conflictResolution

def uploadFile (baseDir : List String) (relativeDir : String) (upload : Upload α)
    (conflictResolution : Option ConflictResolution) : FileM α FileError UploadResult := do
  let targetDir ← resolveSafePath disk baseDir relativeDir
  let filename ← liftExcept (validateUploadFilename upload.filename)
  storeUpload disk targetDir filename upload conflictResolution

def downloadFile (baseDir : List String) (relativePath : String) :
    FileM α FileError Location := do
  let resolved ← resolveSafePath disk baseDir relativePath
  let directory ← FileM.isDir disk.limits resolved
  let message := "Path '" ++ relativePath ++ "' is a directory, not a downloadable file"
  if directory then FileM.fail (.invalidFileRequest message) else pure resolved

/-- The body of `FileResponse(path)`. -/
def fileResponse (path : Location) : FileM α FileError α :=
  (FileM.readFile disk.limits path).mapError .os

/-- `shutil.rmtree` for directories, `os.remove` for the rest. -/
def removeObject (resolved : Location) : FileM α FileError Unit := do
  let directory ← FileM.isDir disk.limits resolved
  if directory then (FileM.rmtree disk.limits resolved).mapError .os
  else (FileM.remove disk.limits resolved).mapError .os

/-- The loop body of `delete_paths`. -/
def deletePath (baseDir : List String) (path : String) : FileM α FileError String := do
  let resolved ← resolveSafePath disk baseDir path
  removeObject disk resolved
  pure path

def deletePaths (baseDir : List String) (paths : List String) : FileM α FileError (List String) :=
  FileM.forEach (deletePath disk baseDir) paths

def renamePath (baseDir : List String) (oldRelative newName : String) :
    FileM α FileError String := do
  liftExcept (validateName newName)
  let resolved ← resolveSafePath disk baseDir oldRelative
  let newPath := resolved.dropLast ++ (PurePath.parse newName).parts
  let taken ← FileM.pathExists disk.limits newPath
  if taken then do
    let baseResolved ← resolvePath disk baseDir
    let existing ← liftExcept (relativeTo newPath baseResolved)
    FileM.fail (.fileConflict newName existing)
  else do
    (FileM.rename disk.limits resolved newPath).mapError .os
    let baseResolved ← resolvePath disk baseDir
    liftExcept (relativeTo newPath baseResolved)

def createFolder (baseDir : List String) (parentRelative folderName : String) :
    FileM α FileError String := do
  liftExcept (validateName folderName)
  let parent ← resolveSafePath disk baseDir parentRelative
  let newDir := parent ++ (PurePath.parse folderName).parts
  let taken ← FileM.pathExists disk.limits newDir
  if taken then do
    let baseResolved ← resolvePath disk baseDir
    let existing ← liftExcept (relativeTo newDir baseResolved)
    FileM.fail (.fileConflict folderName existing)
  else do
    (FileM.mkdir disk.limits newDir).mapError .os
    let baseResolved ← resolvePath disk baseDir
    liftExcept (relativeTo newDir baseResolved)

/-- What is assumed of `ZipStream.add_path` about the files that it opens: a directory is walked, links
are followed, and what leads nowhere is left out; `below` takes over at the children of a directory. -/
def addPathVia (below : List String → String → FileM α FileError (List (String × α)))
    (path : List String) (arcname : String) : FileM α FileError (List (String × α)) := do
  let found ← FileM.pathExists disk.limits path
  if found then do
    let node ← (FileM.stat disk.limits path).mapError .os
    match node with
    | .file content => pure [(arcname, content)]
    | .link _ => pure []
    | .dir => do
        let names ← (FileM.listdir disk.limits path).mapError .os
        let members ← FileM.forEach
          (fun name => below (path ++ [name]) (arcname ++ "/" ++ name)) names
        pure members.flatten
  else pure []

def addPath : Nat → List String → String → FileM α FileError (List (String × α))
  | 0 => addPathVia disk fun _ _ => pure []
  | depth + 1 => addPathVia disk (addPath depth)

section Library

variable {β : Type} (add : List String → String → FileM α FileError (List β))

/-- The loop body of `_zip_stream`; `add` is `add_path`. -/
def addResolvedVia (baseResolved resolved : Location) : FileM α FileError (List β) := do
  let arcname ← liftExcept (relativeTo resolved baseResolved)
  add resolved arcname

def zipStreamVia (baseResolved : Location) (resolvedPaths : List Location) : FileM α FileError (List β) := do
  let members ← FileM.forEach (addResolvedVia add baseResolved) resolvedPaths
  pure members.flatten

def downloadAsZipVia (baseDir : List String) (paths : List String) : FileM α FileError (List β) := do
  let baseResolved ← resolvePath disk baseDir
  let resolvedPaths ← FileM.forEach (resolveSafePath disk baseDir) paths
  zipStreamVia add baseResolved resolvedPaths

end Library

/-- The files of an archive as that walk opens them; how a library names its members is a matter of
`downloadAsZipVia`. -/
def downloadAsZip (baseDir : List String) (paths : List String) : FileM α FileError (List (String × α)) :=
  downloadAsZipVia disk (addPath disk disk.walkDepth) baseDir paths

end Operations

end NetworkFileServer.Server.FileService
