import NetworkFileServer.Framework.TransitionSystem
import NetworkFileServer.Server.RequestEffects
import NetworkFileServer.Server.UploadKeys

/-!
# Keeping the upload index in step with the folder

The upload index says for a path who uploaded the file there, and the RECEIVE role is shown what the
index gives it. Nothing ties the index to the folder: a key can be recorded without a write, and an
object can come to stand at an indexed location without a record. This module states when a request
keeps the two in step, as a condition on the state before it, and proves that it then does.
-/

namespace NetworkFileServer.Server

open FileService

variable {β : Type}

/-- An object that a user may be shown: a directory, or a file with content of theirs. -/
def belongsTo (user : String) : Node (Authored β) → Bool
  | .dir => true
  | .file content => decide (content.writtenBy = some user)
  | .link _ => false

/-- No link is on the way to the location, and nothing at or below it is another user's. -/
structure Belongs (fs : FileSystem (Authored β)) (user : String) (l : Location) : Prop where
  resolved : fs.Resolved l
  below : ∀ x node, fs.get? (l ++ x) = some node → belongsTo user node = true

section Conditions

variable (disk : Disk (Authored β)) (sharedFolder : Location)

/-- The object can come to stand at `q`: it is no link on the way to an indexed location, and where it
is at or below one, it belongs to the user whom the index names. -/
def Harmless (owners : OwnerTable) (q : Location) (node : Node (Authored β)) : Prop :=
  ∀ e ∈ owners,
    (keyLocation sharedFolder e.1 <+: q → belongsTo e.2 node = true) ∧
      (q <+: keyLocation sharedFolder e.1 → node.isLink = false)

instance (owners : OwnerTable) (q : Location) (node : Node (Authored β)) :
    Decidable (Harmless sharedFolder owners q node) :=
  inferInstanceAs (Decidable (∀ e ∈ owners, _))

/-- The entries of the index that a request leaves as they are. -/
def remaining (recorded : Bool) (key : String) (owners : OwnerTable) : OwnerTable :=
  owners.filter fun e => !(recorded && decide (e.1 = key))

section Uploads

variable (uploader : Option String) (path : String)
  (conflictResolution : Option ConflictResolution)

/-- The name that an upload which goes through reports. -/
def reported (fs : FileSystem (Authored β)) (targetDir : Location) (filename : String) :
    Option String :=
  if Taken disk fs targetDir filename ∧ conflictResolution = some .skip then some filename
  else landing disk fs targetDir filename conflictResolution

/-- What the index will say about a file of the request is right: the path leads to its directory by
its own components, the key has no white space around it, and what is skipped is the uploader's. -/
def RecordsTruth (fs : FileSystem (Authored β)) (targetDir : Location) (filename : String) : Prop :=
  targetDir = keyLocation sharedFolder path ∧
    (∀ name ∈ reported disk conflictResolution fs targetDir filename,
      Text.strip (relKey path name) = relKey path name) ∧
    (Taken disk fs targetDir filename → conflictResolution = some .skip →
      ∀ e ∈ fs.tree, ∀ node ∈ fs.get? e.1, targetDir ++ [filename] <+: e.1 →
        ∃ user ∈ uploader, belongsTo user node = true)

/-- One file of an upload, in the folder in which it is stored. It is written through no link, and its
content lands harmlessly, but for the entry that the request is about to record. -/
def FileInStep (owners : OwnerTable) (recorded : Bool) (fs : FileSystem (Authored β))
    (file : String × β) : Prop :=
  (validateUploadFilename file.1).isOk = true →
    ∀ targetDir ∈ safeLocation disk fs sharedFolder path,
      OpensNoLink disk fs targetDir file.1 conflictResolution ∧
        (∀ name ∈ landing disk fs targetDir file.1 conflictResolution,
          Harmless sharedFolder (remaining recorded (relKey path name) owners) (targetDir ++ [name])
            (.file ⟨file.2, uploader⟩)) ∧
        (recorded = true →
          RecordsTruth disk sharedFolder uploader path conflictResolution fs targetDir file.1)

/-- Whether `upload_file` stores the file. -/
def Accepted (fs : FileSystem (Authored β)) (filename : String) : Prop :=
  (validateUploadFilename filename).isOk = true ∧
    ∃ targetDir ∈ safeLocation disk fs sharedFolder path,
      Storable disk fs targetDir filename conflictResolution

/-- The folder in which the next file of the request is stored. -/
def afterFile (fs : FileSystem (Authored β)) (file : String × β) : FileSystem (Authored β) :=
  (uploadFile disk sharedFolder path ⟨file.1, ⟨file.2, uploader⟩⟩ conflictResolution fs).fs

/-- The whole request is stored, so that its files are recorded. -/
def AllAccepted : FileSystem (Authored β) → List (String × β) → Prop
  | _, [] => True
  | fs, file :: files =>
      Accepted disk sharedFolder path conflictResolution fs file.1 ∧
        AllAccepted (afterFile disk sharedFolder uploader path conflictResolution fs file) files

def FilesInStep (owners : OwnerTable) (recorded : Bool) :
    FileSystem (Authored β) → List (String × β) → Prop
  | _, [] => True
  | fs, file :: files =>
      FileInStep disk sharedFolder uploader path conflictResolution owners recorded fs file ∧
        (Accepted disk sharedFolder path conflictResolution fs file.1 →
          FilesInStep owners recorded
            (afterFile disk sharedFolder uploader path conflictResolution fs file) files)

instance (fs : FileSystem (Authored β)) (targetDir : Location) (filename : String) :
    Decidable (RecordsTruth disk sharedFolder uploader path conflictResolution fs targetDir
      filename) :=
  inferInstanceAs (Decidable (_ ∧ _))

instance (fs : FileSystem (Authored β)) (targetDir : Location) (filename : String) :
    Decidable (OpensNoLink disk fs targetDir filename conflictResolution) :=
  inferInstanceAs (Decidable (∀ name ∈ opened disk fs targetDir filename conflictResolution, _))

instance (owners : OwnerTable) (recorded : Bool) (fs : FileSystem (Authored β))
    (file : String × β) :
    Decidable (FileInStep disk sharedFolder uploader path conflictResolution owners recorded fs
      file) :=
  inferInstanceAs (Decidable (_ → _))

instance (fs : FileSystem (Authored β)) (filename : String) :
    Decidable (Accepted disk sharedFolder path conflictResolution fs filename) :=
  inferInstanceAs (Decidable (_ ∧ _))

instance decidableAllAccepted : (fs : FileSystem (Authored β)) → (files : List (String × β)) →
    Decidable (AllAccepted disk sharedFolder uploader path conflictResolution fs files)
  | _, [] => isTrue trivial
  | fs, file :: files =>
      have := decidableAllAccepted
        (afterFile disk sharedFolder uploader path conflictResolution fs file) files
      inferInstanceAs (Decidable (_ ∧ _))

instance decidableFilesInStep (owners : OwnerTable) (recorded : Bool) :
    (fs : FileSystem (Authored β)) → (files : List (String × β)) →
    Decidable (FilesInStep disk sharedFolder uploader path conflictResolution owners recorded fs
      files)
  | _, [] => isTrue trivial
  | fs, file :: files =>
      have := decidableFilesInStep owners recorded
        (afterFile disk sharedFolder uploader path conflictResolution fs file) files
      inferInstanceAs (Decidable (_ ∧ _))

end Uploads

/-- Everything that a rename moves comes to stand harmlessly. -/
def RenameInStep (fs : FileSystem (Authored β)) (owners : OwnerTable) (path newName : String) :
    Prop :=
  (validateName newName).isOk = true → ∀ resolved ∈ safeLocation disk fs sharedFolder path,
    (fs.locate disk.limits (resolved.dropLast ++ (PurePath.parse newName).parts)).isNone = true →
      ∀ e ∈ fs.tree, ∀ node ∈ fs.get? e.1, resolved <+: e.1 →
        Harmless sharedFolder owners
          (resolved.dropLast ++ (PurePath.parse newName).parts ++ e.1.drop resolved.length) node

instance (fs : FileSystem (Authored β)) (owners : OwnerTable) (path newName : String) :
    Decidable (RenameInStep disk sharedFolder fs owners path newName) :=
  inferInstanceAs (Decidable (_ → _))

/-- The request keeps the upload index in step with the folder. -/
def InStep (s : ServerState β) : Request β → Prop
  | .uploadFiles uploader path files conflictResolution =>
      FilesInStep disk sharedFolder uploader path conflictResolution s.owners
        (uploader.any (· ≠ "") && decide
          (AllAccepted disk sharedFolder uploader path conflictResolution s.fs files)) s.fs files
  | .shareUpload uploader files =>
      FilesInStep disk sharedFolder uploader "" (some .rename) s.owners false s.fs files
  | .deleteFiles _ => True
  | .renameFile path newName => RenameInStep disk sharedFolder s.fs s.owners path newName
  | .createNewFolder _ _ => True

instance (s : ServerState β) (request : Request β) :
    Decidable (InStep disk sharedFolder s request) :=
  match request with
  | .uploadFiles .. => inferInstanceAs (Decidable (FilesInStep ..))
  | .shareUpload .. => inferInstanceAs (Decidable (FilesInStep ..))
  | .deleteFiles _ => isTrue trivial
  | .renameFile .. => inferInstanceAs (Decidable (RenameInStep ..))
  | .createNewFolder _ _ => isTrue trivial

end Conditions

end NetworkFileServer.Server
