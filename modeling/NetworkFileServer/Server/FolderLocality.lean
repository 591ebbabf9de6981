import NetworkFileServer.Framework.LocalPrograms
import NetworkFileServer.Server.RequestEffects

/-!
# The operations stay in their folder

Where nothing in a folder is a link, each operation of the service changes nothing outside it, and what it
does and returns is decided by what is in it.
-/

namespace NetworkFileServer.Server.FileService

open FileM (StaysIn Inner)

variable {α : Type} (disk : Disk α) {base : Location}

theorem staysIn_liftExcept {β : Type} (x : Except FileError β) :
    StaysIn base (fun b => x = .ok b) (liftExcept x : FileM α FileError β) := by
  cases x with
  | error e => exact FileM.staysIn_fail e
  | ok b => exact FileM.staysIn_pure rfl

theorem staysIn_resolvePath (p : List String) :
    StaysIn base (fun l : Location => ".." ∉ l) (resolvePath disk p) :=
  FileM.staysIn_mapError _ (FileM.staysIn_resolve disk.limits p)

theorem staysIn_resolveBase :
    StaysIn base (fun l : Location => base = l ∧ ".." ∉ l) (resolvePath disk base) := by
  have hstays : StaysIn base _ (resolvePath disk base) := staysIn_resolvePath disk base
  refine ⟨hstays.outside, hstays.links, ?_, hstays.result, hstays.inside⟩
  intro fs l hfs hl
  obtain ⟨hresolve, -⟩ := (returns_resolvePath disk base fs fs l).mp ⟨hl, keeps_resolvePath disk base fs⟩
  rw [fs.resolve_of_resolved _ _ hfs.resolved] at hresolve
  obtain rfl := Option.some.inj hresolve
  exact ⟨rfl, hfs.resolved.noUp⟩

theorem staysIn_resolveSafePath (userPath : String) :
    StaysIn base (Inner base) (resolveSafePath disk base userPath) := by
  refine FileM.staysIn_bind (staysIn_resolveBase disk) ?_
  rintro _ ⟨rfl, hup⟩
  refine FileM.staysIn_ite (fun _ => FileM.staysIn_pure ⟨List.prefix_refl _, hup⟩) fun _ => ?_
  refine FileM.staysIn_ite (fun _ => FileM.staysIn_fail _) fun _ => ?_
  refine FileM.staysIn_ite (fun _ => FileM.staysIn_fail _) fun _ => ?_
  refine FileM.staysIn_bind (staysIn_resolvePath disk _) ?_
  intro candidate hcandidate
  refine FileM.staysIn_ite (fun _ => FileM.staysIn_fail _) fun hinside => ?_
  have hinner : Inner base candidate := ⟨not_not.mp hinside, hcandidate⟩
  refine FileM.staysIn_bind (FileM.staysIn_pathExists disk.limits hinner) ?_
  intro found _
  exact FileM.staysIn_ite (fun _ => FileM.staysIn_pure hinner) fun _ => FileM.staysIn_fail _

theorem staysIn_listDirectory (relativePath : String) :
    StaysIn base (fun _ => True) (listDirectory disk base relativePath) := by
  refine FileM.staysIn_bind (staysIn_resolveSafePath disk relativePath) ?_
  intro target htarget
  refine FileM.staysIn_bind (FileM.staysIn_mapError _ (FileM.staysIn_listdir disk.limits htarget)) ?_
  intro names hnames
  have hentry : ∀ name ∈ names, StaysIn base (fun _ => True) (listEntry disk target name) := by
    intro name hname
    have hchild := htarget.snoc (hnames name hname).2.2.1
    refine FileM.staysIn_bind (FileM.staysIn_mapError _ (FileM.staysIn_stat disk.limits hchild)) ?_
    exact fun _ _ => FileM.staysIn_pure trivial
  refine FileM.staysIn_bind (FileM.staysIn_forEach names hentry) ?_
  exact fun _ _ => FileM.staysIn_pure trivial

theorem staysIn_downloadFile (relativePath : String) :
    StaysIn base (Inner base) (downloadFile disk base relativePath) := by
  refine FileM.staysIn_bind (staysIn_resolveSafePath disk relativePath) ?_
  intro resolved hresolved
  refine FileM.staysIn_bind (FileM.staysIn_isDir disk.limits hresolved) ?_
  intro directory _
  exact FileM.staysIn_ite (fun _ => FileM.staysIn_fail _) fun _ => FileM.staysIn_pure hresolved

theorem staysIn_fileResponse {p : Location} (h : Inner base p) :
    StaysIn base (fun _ => True) (fileResponse disk p) :=
  FileM.staysIn_mapError _ (FileM.staysIn_readFile disk.limits h)

theorem staysIn_removeObject {p : Location} (h : Inner base p) :
    StaysIn base (fun _ => True) (removeObject disk p) := by
  refine FileM.staysIn_bind (FileM.staysIn_isDir disk.limits h) ?_
  intro directory _
  exact FileM.staysIn_ite (fun _ => FileM.staysIn_mapError _ (FileM.staysIn_rmtree disk.limits h))
    fun _ => FileM.staysIn_mapError _ (FileM.staysIn_remove disk.limits h)

theorem staysIn_deletePaths (paths : List String) :
    StaysIn base (fun _ => True) (deletePaths disk base paths) := by
  have hpath : ∀ path ∈ paths, StaysIn base (fun _ => True) (deletePath disk base path) := by
    intro path _
    refine FileM.staysIn_bind (staysIn_resolveSafePath disk path) ?_
    intro resolved hresolved
    refine FileM.staysIn_bind (staysIn_removeObject disk hresolved) ?_
    exact fun _ _ => FileM.staysIn_pure trivial
  exact (FileM.staysIn_forEach paths hpath).weaken fun _ _ => trivial

section Uploading

variable {targetDir : Location} {filename : String} (htarget : Inner base targetDir)

include htarget

theorem staysIn_writeUploadChunks (upload : Upload α) (hname : filename ≠ "..") :
    StaysIn base (fun _ => True) (writeUploadChunks disk upload (targetDir ++ [filename])) := by
  refine FileM.staysIn_bind
    (FileM.staysIn_mapError _ (FileM.staysIn_writeFile disk.limits htarget hname upload.content)) ?_
  exact fun _ _ => FileM.staysIn_pure trivial

theorem staysIn_writeUpload (upload : Upload α) (conflictResolution : Option ConflictResolution)
    (hname : filename ≠ "..") :
    StaysIn base (fun _ => True) (writeUpload disk targetDir filename upload conflictResolution) := by
  have hover : StaysIn base (fun _ => True)
      (overwrites disk targetDir filename conflictResolution : FileM α FileError Bool) := by
    cases conflictResolution with
    | none => exact FileM.staysIn_pure trivial
    | some cr =>
        cases cr with
        | overwrite => exact FileM.staysIn_pathExists disk.limits (htarget.snoc hname)
        | rename | skip => exact FileM.staysIn_pure trivial
  refine FileM.staysIn_bind hover ?_
  intro replaces _
  refine FileM.staysIn_ite ?_ ?_
  · intro _
    refine FileM.staysIn_bind (staysIn_writeUploadChunks disk htarget upload (tempName_ne_up filename)) ?_
    intro _ _
    refine FileM.staysIn_bind (FileM.staysIn_mapError _ (FileM.staysIn_rename disk.limits
      (htarget.snoc (tempName_ne_up filename)) (htarget.snoc hname))) ?_
    exact fun _ _ => FileM.staysIn_pure trivial
  · intro _
    refine FileM.staysIn_bind (staysIn_writeUploadChunks disk htarget upload hname) ?_
    exact fun _ _ => FileM.staysIn_pure trivial

variable {fs fs' : FileSystem α}

theorem taken_agree (hfs : fs.AgreeOn fs' base) (hname : filename ≠ "..") :
    Taken disk fs targetDir filename ↔ Taken disk fs' targetDir filename := by
  unfold Taken
  rw [(htarget.snoc hname).locate_agree disk.limits hfs]

theorem staysIn_freeName : StaysIn base (fun name => name ≠ "..")
    (FileM.objectCount >>= fun objects => freeName disk targetDir filename (objects + 1) 1 :
      FileM α FileError String) := by
  have houtcome : ∀ fs : FileSystem α, fs.Region base → ∃ name,
      (FileM.objectCount >>= fun objects => freeName disk targetDir filename (objects + 1) 1 :
        FileM α FileError String).Returns fs name fs ∧
      ∃ k, (∀ j < k, Taken disk fs targetDir (numbered filename (1 + j))) ∧
        ¬Taken disk fs targetDir (numbered filename (1 + k)) ∧ name = numbered filename (1 + k) := by
    intro fs hfs
    obtain ⟨name, hret⟩ := freeName_returns disk fs targetDir filename
      (hfs.resolved_below htarget.1 htarget.2)
    obtain ⟨-, k, -, hk⟩ := (returns_freeName disk fs _ _ _ _ _ _).mp hret
    refine ⟨name, ?_, k, hk⟩
    rw [FileM.returns_bind]
    exact ⟨_, fs, (FileM.returns_objectCount _ _ _).mpr ⟨rfl, rfl⟩, hret⟩
  refine ⟨?_, ?_, ?_, ?_, ?_⟩
  · intro fs hfs
    obtain ⟨name, hret, -⟩ := houtcome fs hfs
    rw [hret.2]
  · intro fs hfs
    obtain ⟨name, hret, -⟩ := houtcome fs hfs
    rw [hret.2]
    exact FileSystem.SameLinks.refl fs
  · intro fs b hfs hb
    obtain ⟨name, hret, k, -, -, rfl⟩ := houtcome fs hfs
    obtain rfl := Except.ok.inj (hb.symm.trans hret.1)
    exact numbered_ne_up filename _
  · intro fs fs' hfs
    obtain ⟨name, hret, k, hbelow, hfree, rfl⟩ := houtcome fs hfs.region
    obtain ⟨name', hret', k', hbelow', hfree', rfl⟩ := houtcome fs' hfs.region'
    have hagree : ∀ j, Taken disk fs targetDir (numbered filename (1 + j)) ↔
        Taken disk fs' targetDir (numbered filename (1 + j)) :=
      fun j => taken_agree disk htarget hfs (numbered_ne_up filename _)
    have hk : k = k' := by
      refine firstFree_unique disk fs targetDir filename k' k ?_ ?_ hbelow hfree
      · exact fun j hj => (hagree j).mpr (hbelow' j hj)
      · exact fun htaken => hfree' ((hagree k').mp htaken)
    rw [hret.1, hret'.1, hk]
  · intro fs fs' hfs
    obtain ⟨_, hret, -⟩ := houtcome fs hfs.region
    obtain ⟨_, hret', -⟩ := houtcome fs' hfs.region'
    rw [hret.2, hret'.2, hfs.inside]

theorem staysIn_resolveConflict (upload : Upload α) (conflictResolution : Option ConflictResolution)
    (hname : filename ≠ "..") :
    StaysIn base (fun _ => True) (resolveConflict disk targetDir filename upload conflictResolution) := by
  cases conflictResolution with
  | none => exact FileM.staysIn_fail _
  | some cr =>
      cases cr with
      | skip =>
          refine FileM.staysIn_bind (FileM.staysIn_mapError _
            (FileM.staysIn_stat disk.limits (htarget.snoc hname))) ?_
          exact fun _ _ => FileM.staysIn_pure trivial
      | rename =>
          have hassoc : resolveConflict disk targetDir filename upload (some .rename) =
              (FileM.objectCount >>= fun objects => freeName disk targetDir filename (objects + 1) 1) >>=
                fun newName => writeUpload disk targetDir newName upload (some .rename) :=
            (FileM.bind_assoc _ _ _).symm
          rw [hassoc]
          refine FileM.staysIn_bind (staysIn_freeName disk htarget) ?_
          exact fun newName hnew => staysIn_writeUpload disk htarget upload _ hnew
      | overwrite => exact staysIn_writeUpload disk htarget upload _ hname

theorem staysIn_storeUpload (upload : Upload α) (conflictResolution : Option ConflictResolution)
    (hname : filename ≠ "..") :
    StaysIn base (fun _ => True) (storeUpload disk targetDir filename upload conflictResolution) := by
  refine FileM.staysIn_bind (FileM.staysIn_pathExists disk.limits (htarget.snoc hname)) ?_
  intro conflict _
  exact FileM.staysIn_ite (fun _ => staysIn_resolveConflict disk htarget upload _ hname)
    fun _ => staysIn_writeUpload disk htarget upload _ hname

end Uploading

theorem staysIn_uploadFile (relativeDir : String) (upload : Upload α)
    (conflictResolution : Option ConflictResolution) :
    StaysIn base (fun _ => True) (uploadFile disk base relativeDir upload conflictResolution) := by
  refine FileM.staysIn_bind (staysIn_resolveSafePath disk relativeDir) ?_
  intro targetDir htarget
  refine FileM.staysIn_bind (staysIn_liftExcept _) ?_
  intro filename hvalid
  obtain rfl := validateUploadFilename_eq _ _ hvalid
  have hproper := properName_of_validateUploadFilename _ _ hvalid
  exact staysIn_storeUpload disk htarget upload conflictResolution hproper.2.2.1

end NetworkFileServer.Server.FileService
