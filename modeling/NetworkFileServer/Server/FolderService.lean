import Mathlib.Order.Lattice.Nat
import NetworkFileServer.Framework.FolderPrograms
import NetworkFileServer.Server.ArchiveContents

/-!
# The shared folder, abstractly

What the file service is for: a map from paths to objects, and what each call returns and makes of the map. A
listing and an archive are sets here, and there are no temporary files but the one that a failed replacement
leaves behind.
-/

namespace NetworkFileServer.Server.FileService

variable {α : Type}

/-- Where a user's path leads in the folder, decided by the links of the file system. -/
def addressIn (disk : Disk α) (fs : FileSystem α) (base : Location) (userPath : String) :
    Except FileError (List String) :=
  if userPath = "" then .ok []
  else if Text.startsWith userPath "/" then .error (.pathTraversal userPath)
  else if hasNul userPath then .error .value
  else
    match fs.resolve disk.limits (base ++ (PurePath.parse userPath).parts) with
    | none => .error (.os .notFound)
    | some l => if base <+: l then .ok (l.drop base.length) else .error (.pathTraversal userPath)

theorem noUp_of_addressIn {disk : Disk α} {fs : FileSystem α} {base : Location} {userPath : String}
    {p : List String} (h : addressIn disk fs base userPath = .ok p) : ".." ∉ p := by
  unfold addressIn at h
  split at h
  · cases h
    exact List.not_mem_nil
  split at h
  · cases h
  split at h
  · cases h
  split at h
  · cases h
  · rename_i l hl
    split at h
    · cases h
      exact fun hup => (fs.resolve_resolved _ _ _ hl).noUp (List.mem_of_mem_drop hup)
    · cases h

/-- The path from the folder by which the service names an object. -/
def folderPath (p : List String) : String := if p = [] then "." else "/".intercalate p

/-- What a call returns. -/
inductive Answer (α : Type) where
  | listing (listing : DirectoryListing)
  | uploaded (result : UploadResult)
  | content (content : α)
  | deleted (paths : List String)
  | renamed (path : String)
  | created (path : String)
  | archive (members : List (String × Option α))

/-- What an entry says of an object of the folder; a folder does not keep when it was changed. -/
structure Item where
  name : String
  size : Nat
  sizeDisplay : String
  type : FileType

def FileEntry.item (entry : FileEntry) : Item := ⟨entry.name, entry.size, entry.sizeDisplay, entry.type⟩

/-- What an answer says; the order of a listing and of an archive says nothing. -/
inductive Reply (α : Type) where
  | listing (path : String) (items : Set Item)
  | uploaded (result : UploadResult)
  | content (content : α)
  | deleted (paths : List String)
  | renamed (path : String)
  | created (path : String)
  | archive (members : Set (String × Option α))

def Answer.reply : Answer α → Reply α
  | .listing found => .listing found.path {item | ∃ entry ∈ found.entries, entry.item = item}
  | .uploaded result => .uploaded result
  | .content bytes => .content bytes
  | .deleted paths => .deleted paths
  | .renamed path => .renamed path
  | .created path => .created path
  | .archive members => .archive {m | m ∈ members}

section Calls

variable (disk : Disk α) (zip : ZipLibrary α) (baseDir : List String)

/-- The call, with what it returns. -/
def FileOp.run : FileOp α → FileM α FileError (Answer α)
  | .listDirectory relativePath =>
      FileService.listDirectory disk baseDir relativePath >>= fun listing => pure (.listing listing)
  | .uploadFile relativeDir upload conflictResolution =>
      FileService.uploadFile disk baseDir relativeDir upload conflictResolution >>= fun result =>
        pure (.uploaded result)
  | .downloadFile relativePath =>
      (FileService.downloadFile disk baseDir relativePath >>= fileResponse disk) >>= fun content =>
        pure (.content content)
  | .deletePaths paths => FileService.deletePaths disk baseDir paths >>= fun deleted => pure (.deleted deleted)
  | .renamePath oldRelative newName =>
      FileService.renamePath disk baseDir oldRelative newName >>= fun path => pure (.renamed path)
  | .createFolder parentRelative folderName =>
      FileService.createFolder disk baseDir parentRelative folderName >>= fun path => pure (.created path)
  | .downloadAsZip paths => downloadAsZipVia disk zip.addPath baseDir paths >>= fun members => pure (.archive members)

/-- Calls one after the other, each whether the ones before it have failed or not. -/
def runAll : List (FileOp α) → FileSystem α → List (Except FileError (Answer α)) × FileSystem α
  | [], fs => ([], fs)
  | op :: ops, fs =>
      let outcome := op.run disk zip baseDir fs
      let rest := runAll ops outcome.fs
      (outcome.result :: rest.1, rest.2)

end Calls

/-- How the library refuses what is not there. -/
def ZipLibrary.refusal (zip : ZipLibrary α) (F : Folder α) (p : List String) : Option FileError :=
  if (F p).isSome then none else zip.missing

/-- A member for a file or an empty directory at or below a path. -/
def InArchive (F : Folder α) (p : List String) (m : String × Option α) : Prop :=
  ∃ names : List String, (∀ name ∈ names, ProperName name) ∧ m.1 = normpath (memberName (folderPath p) names) ∧
    match m.2 with
    | some content => F (p ++ names) = some (.file content)
    | none => F (p ++ names) = some .dir ∧ ∀ child, ProperName child → F (p ++ names ++ [child]) = none

/-- What the replies depend on beside what the folder holds: the platform, the ZIP library, where the folder is,
and where paths lead in it. -/
structure Share (α : Type) where
  disk : Disk α
  zip : ZipLibrary α
  base : Location
  address : String → Except FileError (List String)
  noUp : ∀ path p, address path = .ok p → ".." ∉ p

/-- The folder at `base` of a file system. -/
def Share.of (disk : Disk α) (zip : ZipLibrary α) (fs : FileSystem α) (base : Location) : Share α :=
  ⟨disk, zip, base, addressIn disk fs base, fun _ _ => noUp_of_addressIn⟩

namespace Share

variable (share : Share α) (F : Folder α)

def find (path : String) : Except FileError (List String) :=
  match share.address path with
  | .error e => .error e
  | .ok p =>
      if path = "" ∨ (F p).isSome = true then .ok p
      else .error (.fileNotFound ("Path '" ++ path ++ "' does not exist in shared folder"))

theorem address_of_find {share : Share α} {F : Folder α} {path : String} {p : List String}
    (h : share.find F path = .ok p) : share.address path = .ok p := by
  unfold find at h
  split at h
  · cases h
  · rename_i q hq
    split at h
    · cases h
      exact hq
    · cases h

theorem noUp_of_find {share : Share α} {F : Folder α} {path : String} {p : List String}
    (h : share.find F path = .ok p) : ".." ∉ p := share.noUp path p (address_of_find h)

theorem eq_nil_of_find {disk : Disk α} {zip : ZipLibrary α} {fs : FileSystem α} {base : Location} {F :
    Folder α} {path : String}
    {p : List String} (h : (Share.of disk zip fs base).find F path = .ok p) (hnone : F p = none) : p = [] := by
  have haddress := address_of_find h
  unfold find at h
  rw [haddress] at h
  by_cases hempty : path = ""
  · rw [hempty] at haddress
    exact (Except.ok.inj haddress).symm
  · simp [hempty, hnone] at h

def item (name : String) (node : Node α) : Item :=
  ⟨name, share.disk.size node, formatFileSize (share.disk.size node), if node.isDir then .directory else .file⟩

def list (path : String) : Except FileError (Reply α) :=
  match share.find F path with
  | .error e => .error e
  | .ok p =>
      if F.isDir p then
        .ok (.listing path
          {i | ∃ name node, ProperName name ∧ F (p ++ [name]) = some node ∧ i = share.item name node})
      else .error (.os (if (F p).isSome then .notADirectory else .notFound))

def download (path : String) : Except FileError (Reply α) :=
  match share.find F path with
  | .error e => .error e
  | .ok p =>
      if F.isDir p then
        .error (.invalidFileRequest ("Path '" ++ path ++ "' is a directory, not a downloadable file"))
      else ((FileM.contentOf (F p)).mapError .os).map .content

def archive (paths : List String) : Except FileError (Reply α) :=
  match paths.mapM (share.find F) with
  | .error e => .error e
  | .ok found =>
      match found.findSome? (share.zip.refusal F) with
      | some e => .error e
      | none => .ok (.archive {m | ∃ p ∈ found, InArchive F p m})

/-- Under a name that is free. -/
def store (p : List String) (name : String) (content : α) : Except FileError UploadResult × Folder α :=
  if F.isDir p then
    (.ok (uploadResult name (share.disk.size (.file content)) false), F.put (p ++ [name]) (.file content))
  else (.error (.os .notFound), F)

/-- In place of a file; a directory stays, and so does the temporary file that was to replace it. -/
def replace (p : List String) (name : String) (content : α) : Except FileError UploadResult × Folder α :=
  if F.isDir (p ++ [tempName name]) then (.error (.os .isADirectory), F)
  else if F.isDir (p ++ [name]) then (.error (.os .isADirectory), F.put (p ++ [tempName name]) (.file content))
  else
    (.ok (uploadResult name (share.disk.size (.file content)) false),
      (F.put (p ++ [name]) (.file content)).remove (p ++ [tempName name]))

/-- The first free one of `name_1`, `name_2`, …. -/
noncomputable def freshName (p : List String) (name : String) : String :=
  numbered name (1 + sInf {k | F (p ++ [numbered name (1 + k)]) = none})

noncomputable def place (p : List String) (name : String) (content : α)
    (conflictResolution : Option ConflictResolution) :
    Except FileError UploadResult × Folder α :=
  match F (p ++ [name]), conflictResolution with
  | none, _ => share.store F p name content
  | some _, none => (.error (.fileConflict name (pathStr (share.base ++ (p ++ [name])))), F)
  | some node, some .skip => (.ok (uploadResult name (share.disk.size node) true), F)
  | some _, some .rename => share.store F p (freshName F p name) content
  | some _, some .overwrite => share.replace F p name content

noncomputable def upload (dir : String) (upload : Upload α) (conflictResolution : Option ConflictResolution) :
    Except FileError UploadResult × Folder α :=
  match share.find F dir with
  | .error e => (.error e, F)
  | .ok p =>
      match validateUploadFilename upload.filename with
      | .error e => (.error e, F)
      | .ok name => share.place F p name upload.content conflictResolution

/-- Up to the first path that cannot be deleted. -/
def delete (F : Folder α) : List String → Except FileError (List String) × Folder α
  | [] => (.ok [], F)
  | path :: paths =>
      match share.find F path with
      | .error e => (.error e, F)
      | .ok p =>
          if (F p).isSome then
            let rest := delete (F.remove p) paths
            (rest.1.map (path :: ·), rest.2)
          else (.error (.os .notFound), F)

def rename (path newName : String) : Except FileError String × Folder α :=
  match validateName newName, share.find F path with
  | .error e, _ => (.error e, F)
  | .ok (), .error e => (.error e, F)
  | .ok (), .ok p =>
      let target := p.dropLast ++ (PurePath.parse newName).parts
      if (F target).isSome then (.error (.fileConflict newName (folderPath target)), F)
      else (.ok (folderPath target), F.move p target)

def create (parent name : String) : Except FileError String × Folder α :=
  match validateName name, share.find F parent with
  | .error e, _ => (.error e, F)
  | .ok (), .error e => (.error e, F)
  | .ok (), .ok p =>
      let target := p ++ (PurePath.parse name).parts
      if (F target).isSome then (.error (.fileConflict name (folderPath target)), F)
      -- The name `.` is the parent's, which makes the folder itself again when it has been deleted.
      else if (PurePath.parse name).parts = [] ∨ F.isDir p = true then (.ok (folderPath target), F.put target .dir)
      else (.error (.os .notFound), F)

noncomputable def serve : FileOp α → Except FileError (Reply α) × Folder α
  | .listDirectory path => (share.list F path, F)
  | .uploadFile dir upload conflictResolution =>
      ((share.upload F dir upload conflictResolution).1.map .uploaded, (share.upload F dir upload conflictResolution).2)
  | .downloadFile path => (share.download F path, F)
  | .deletePaths paths => ((share.delete F paths).1.map .deleted, (share.delete F paths).2)
  | .renamePath path newName => ((share.rename F path newName).1.map .renamed, (share.rename F path newName).2)
  | .createFolder parent name => ((share.create F parent name).1.map .created, (share.create F parent name).2)
  | .downloadAsZip paths => (share.archive F paths, F)

noncomputable def serveAll (F : Folder α) : List (FileOp α) → List (Except FileError (Reply α)) × Folder α
  | [] => ([], F)
  | op :: ops => ((share.serve F op).1 :: (serveAll (share.serve F op).2 ops).1, (serveAll (share.serve F op).2 ops).2)

end Share

end NetworkFileServer.Server.FileService
