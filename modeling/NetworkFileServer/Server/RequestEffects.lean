import NetworkFileServer.Server.ServiceConfinement
import NetworkFileServer.Server.UploadEffects

/-!
# What the requests add to the folder

Deletions add nothing, new folders add directories, a rename adds what it moves under its new path,
and an upload adds its content at its landing name.
-/

namespace NetworkFileServer.Server.FileService

variable {α : Type} (disk : Disk α) (baseDir : List String)

private theorem deletePath_adds (fs : FileSystem α) (path : String) :
    FileM.Leaves (fun fs' => fs.Adds fs' fun _ _ => False) (deletePath disk baseDir path) fs := by
  rw [deletePath]
  apply FileM.leaves_bind_of_keeps _ _ _ _ (resolveSafePath_keeps disk baseDir path)
    (FileSystem.Adds.refl fs _)
  intro resolved hret
  have hsafe : SafePath disk fs baseDir path resolved := hret
  have hres := hsafe.resolved
  rw [FileM.Leaves, FileM.bind_fs_of_keeps _ _ _ fun _ => FileM.keeps_pure _]
  cases hnode : fs.get? resolved with
  | none =>
      obtain ⟨e, he⟩ := removeObject_of_missing disk fs resolved hres hnode
      rw [he]
      exact FileSystem.Adds.refl fs _
  | some node =>
      have hfs := (removeObject_of_exists disk fs resolved hres (by simp [hnode])).1
      rw [hfs]
      exact fs.adds_erase resolved _

theorem deletePaths_adds (fs : FileSystem α) (paths : List String) :
    FileM.Leaves (fun fs' => fs.Adds fs' fun _ _ => False) (deletePaths disk baseDir paths) fs := by
  unfold deletePaths
  induction paths generalizing fs with
  | nil => exact FileSystem.Adds.refl fs _
  | cons path paths ih =>
      have hfirst := deletePath_adds disk baseDir fs path
      apply FileM.leaves_forEach_cons _ _ _ _ _ hfirst
      intro deleted fs' hret
      have hadds : fs.Adds fs' fun _ _ => False := hret.2 ▸ hfirst
      exact hadds.trans (ih fs')

theorem keeps_relativePath (path : List String) :
    ((resolvePath disk baseDir >>= fun baseResolved => liftExcept (relativeTo path baseResolved)) :
      FileM α FileError String).Keeps :=
  (keeps_resolvePath disk baseDir).bind fun _ => keeps_liftExcept _

theorem keeps_fileConflict (path : List String) (name : String) :
    ((resolvePath disk baseDir >>= fun baseResolved => liftExcept (relativeTo path baseResolved) >>=
      fun existing => FileM.fail (.fileConflict name existing)) : FileM α FileError String).Keeps := by
  apply (keeps_resolvePath disk baseDir).bind
  intro base
  exact (keeps_liftExcept _).bind fun _ => FileM.keeps_fail _

theorem createFolder_adds (fs : FileSystem α) (parentRelative folderName : String) :
    FileM.Leaves (fun fs' => fs.Adds fs' fun _ node => node = .dir)
      (createFolder disk baseDir parentRelative folderName) fs := by
  have hrefl := FileSystem.Adds.refl fs fun _ node => node = .dir
  rw [createFolder]
  apply FileM.leaves_bind_of_keeps _ _ _ _ (keeps_liftExcept _) hrefl
  intro _ _
  apply FileM.leaves_bind_of_keeps _ _ _ _ (resolveSafePath_keeps disk baseDir _) hrefl
  intro parent _
  apply FileM.leaves_bind_of_keeps _ _ _ _ (FileM.keeps_pathExists _ _) hrefl
  intro taken _
  cases taken with
  | true =>
      exact FileM.Keeps.leaves (keeps_fileConflict disk baseDir _ _) hrefl
  | false =>
      rw [if_neg (by simp), FileM.Leaves, FileM.bind_fs_of_keeps _ _ _ fun _ => keeps_relativePath disk baseDir _]
      change fs.Adds (FileM.mkdir disk.limits _ fs).fs _
      unfold FileM.mkdir
      split
      · exact hrefl
      · rename_i l _
        split
        · rename_i hfree
          have hput : fs.Puttable l .dir := ⟨hfree.1, fun _ => rfl⟩
          exact (fs.adds_put l .dir hput).mono fun q node h => h.2
        · exact hrefl

/-- What a rename puts where: the objects at and below the old path, at and below the new one. -/
def Moved (fs : FileSystem α) (oldRelative newName : String) (q : Location) (node : Node α) : Prop :=
  validateName newName = .ok () ∧ ∃ resolved, SafePath disk fs baseDir oldRelative resolved ∧
    resolved ≠ [] ∧ fs.locate disk.limits (resolved.dropLast ++ (PurePath.parse newName).parts) = none ∧
    ∃ x, q = resolved.dropLast ++ (PurePath.parse newName).parts ++ x ∧
      fs.get? (resolved ++ x) = some node

theorem renamePath_adds (fs : FileSystem α) (oldRelative newName : String) :
    FileM.Leaves (fun fs' => fs.Adds fs' (Moved disk baseDir fs oldRelative newName))
      (renamePath disk baseDir oldRelative newName) fs := by
  have hrefl := FileSystem.Adds.refl fs (Moved disk baseDir fs oldRelative newName)
  rw [renamePath]
  apply FileM.leaves_bind_of_keeps _ _ _ _ (keeps_liftExcept _) hrefl
  intro _ hvalid
  have hname := ((returns_liftExcept _ _ _ _).mp hvalid).1
  apply FileM.leaves_bind_of_keeps _ _ _ _ (resolveSafePath_keeps disk baseDir _) hrefl
  intro resolved hguard
  have hsafe : SafePath disk fs baseDir oldRelative resolved := hguard
  have hres := hsafe.resolved
  apply FileM.leaves_bind_of_keeps _ _ _ _ (FileM.keeps_pathExists _ _) hrefl
  intro taken hret
  obtain ⟨htaken, -⟩ := (FileM.returns_pathExists _ _ _ _ _).mp hret
  cases taken with
  | true =>
      exact FileM.Keeps.leaves (keeps_fileConflict disk baseDir _ _) hrefl
  | false =>
      rw [if_neg (by simp), FileM.Leaves, FileM.bind_fs_of_keeps _ _ _ fun _ => keeps_relativePath disk baseDir _]
      change fs.Adds (FileM.rename disk.limits resolved _ fs).fs _
      by_cases hren : ∃ s d, FileM.Renames disk.limits fs resolved
          (resolved.dropLast ++ (PurePath.parse newName).parts) s d
      · obtain ⟨s, d, hren⟩ := hren
        have hs : s = resolved := fs.locateEntry_eq _ _ _ hres.dropLast hren.source
        have hd := fs.locateEntry_eq _ _ _ (resolved_newPath fs resolved newName hres hname)
          hren.target
        subst hs hd
        rw [FileM.rename_of_renames _ _ _ _ _ _ hren]
        apply (fs.adds_move _ _ hren.movable).mono
        intro q node hmoved
        exact ⟨hname, s, hsafe, hren.movable.src_ne, by simpa using htaken, hmoved⟩
      · have hnot : ∀ s d, ¬FileM.Renames disk.limits fs resolved
            (resolved.dropLast ++ (PurePath.parse newName).parts) s d :=
          fun s d h => hren ⟨s, d, h⟩
        rw [(FileM.rename_of_not_renames _ _ _ _ hnot).1]
        exact hrefl

section Uploading

variable (fs : FileSystem α) (relativeDir : String) (upload : Upload α)
  (conflictResolution : Option ConflictResolution)

theorem properName_of_validateUploadFilename (filename name : String)
    (h : validateUploadFilename filename = .ok name) : ProperName filename := by
  unfold validateUploadFilename at h
  split at h
  · cases h
  rename_i hempty
  split at h
  · cases h
  split at h
  · cases h
  split at h
  · cases h
  rename_i hslash
  split at h
  · cases h
  split at h
  · cases h
  rename_i hdots
  refine ⟨hempty, fun h => hdots (.inl h), fun h => hdots (.inr h), ?_⟩
  simpa using hslash

theorem properName_numbered (filename : String) (hproper : ProperName filename) (k : Nat) :
    ProperName (numbered filename k) := by
  have hmem : '_' ∈ (numbered filename k).toList := by simp [numbered]
  refine ⟨?_, ?_, numbered_ne_up filename k, ?_⟩
  · intro heq
    rw [heq] at hmem
    exact absurd hmem (by decide)
  · intro heq
    rw [heq] at hmem
    exact absurd hmem (by decide)
  · have hstem : '/' ∉ (stem filename).toList := by
      intro hin
      rw [stem, String.toList_ofList] at hin
      exact hproper.2.2.2 (List.mem_of_mem_take hin)
    have hsuffix : '/' ∉ (suffix filename).toList := by
      intro hin
      rw [suffix, String.toList_ofList] at hin
      exact hproper.2.2.2 (List.mem_of_mem_drop hin)
    have hdigits : '/' ∉ Nat.toDigits 10 k := by
      intro hin
      exact absurd (Nat.isDigit_of_mem_toDigits (by decide) (by decide) hin) (by decide)
    simp [numbered, hstem, hsuffix, hdigits]

theorem properName_tempName (filename : String) (hproper : ProperName filename) :
    ProperName (tempName filename) := by
  refine ⟨?_, ?_, tempName_ne_up filename, ?_⟩
  · intro heq
    have hlen := congrArg (fun s => s.toList.length) heq
    simp [tempName_eq] at hlen
  · intro heq
    have hlen := congrArg (fun s => s.toList.length) heq
    simp [tempName_eq] at hlen
  · rw [tempName_eq]
    simpa using hproper.2.2.2

theorem properName_of_landing (targetDir : Location) (filename name : String)
    (hproper : ProperName filename)
    (h : landing disk fs targetDir filename conflictResolution = some name) : ProperName name := by
  unfold landing at h
  split at h
  · cases conflictResolution with
    | none => cases h
    | some cr =>
        cases cr with
        | skip => cases h
        | rename =>
            obtain ⟨k, rfl, -, -⟩ := firstFree_spec disk fs targetDir filename name h
            exact properName_numbered filename hproper (1 + k)
        | overwrite =>
            obtain rfl := Option.some.inj h
            split
            · exact properName_tempName filename hproper
            · exact hproper
  · cases h
    exact hproper

theorem uploadFile_of_safe (targetDir : Location) (name : String)
    (hsafe : SafePath disk fs baseDir relativeDir targetDir)
    (hname : validateUploadFilename upload.filename = .ok name) :
    (uploadFile disk baseDir relativeDir upload conflictResolution fs).fs =
        (storeUpload disk targetDir upload.filename upload conflictResolution fs).fs ∧
      (uploadFile disk baseDir relativeDir upload conflictResolution fs).result =
        (storeUpload disk targetDir upload.filename upload conflictResolution fs).result := by
  have hlift : (liftExcept (validateUploadFilename upload.filename) :
      FileM α FileError String).Returns fs upload.filename fs := by
    rw [returns_liftExcept, hname, validateUploadFilename_eq _ _ hname]
    exact ⟨rfl, rfl⟩
  rw [uploadFile, FileM.bind_of_ok _ _ _ _ _ hsafe]
  dsimp only
  rw [FileM.bind_of_ok _ _ _ _ _ hlift]
  exact ⟨rfl, rfl⟩

theorem uploadFile_of_refused
    (h : ∀ targetDir, SafePath disk fs baseDir relativeDir targetDir →
      ∀ name, validateUploadFilename upload.filename ≠ .ok name) :
    (uploadFile disk baseDir relativeDir upload conflictResolution fs).fs = fs ∧
      ∀ r, (uploadFile disk baseDir relativeDir upload conflictResolution fs).result ≠ .ok r := by
  constructor
  · change FileM.Leaves (fun fs' => fs' = fs) _ fs
    rw [uploadFile]
    apply FileM.leaves_bind_of_keeps _ _ fs (fun fs' => fs' = fs)
      (resolveSafePath_keeps disk baseDir _) rfl
    intro targetDir hsafe
    apply FileM.leaves_bind_of_keeps _ _ fs (fun fs' => fs' = fs) (keeps_liftExcept _) rfl
    intro name hret
    exact absurd ((returns_liftExcept _ _ _ _).mp hret).1 (h targetDir hsafe name)
  · intro r hr
    rw [uploadFile] at hr
    obtain ⟨targetDir, fs₁, hguard, hrest⟩ := (FileM.returns_bind _ _ _ r _).mp ⟨hr, rfl⟩
    obtain ⟨hsafe, rfl⟩ := safePath_of_returns disk hguard
    obtain ⟨name, fs₁, hret, -⟩ := (FileM.returns_bind _ _ _ _ _).mp hrest
    exact absurd ((returns_liftExcept _ _ _ _).mp hret).1 (h targetDir hsafe name)

/-- An upload is refused at its path or its name, or goes on with the directory and the name. -/
theorem uploadFile_cases :
    ((uploadFile disk baseDir relativeDir upload conflictResolution fs).fs = fs ∧
        (∀ r, (uploadFile disk baseDir relativeDir upload conflictResolution fs).result ≠ .ok r) ∧
        ((validateUploadFilename upload.filename).isOk = true →
          safeLocation disk fs baseDir relativeDir = none)) ∨
      ∃ targetDir, SafePath disk fs baseDir relativeDir targetDir ∧
        (validateUploadFilename upload.filename).isOk = true ∧ ProperName upload.filename ∧
        (uploadFile disk baseDir relativeDir upload conflictResolution fs).fs =
          (storeUpload disk targetDir upload.filename upload conflictResolution fs).fs ∧
        (uploadFile disk baseDir relativeDir upload conflictResolution fs).result =
          (storeUpload disk targetDir upload.filename upload conflictResolution fs).result := by
  cases hvalid : validateUploadFilename upload.filename with
  | error e =>
      left
      obtain ⟨hfs, hresult⟩ := uploadFile_of_refused disk baseDir fs relativeDir upload conflictResolution
        fun _ _ name => by simp [hvalid]
      refine ⟨hfs, hresult, ?_⟩
      intro hok
      cases hok
  | ok name =>
      cases hsafe : safeLocation disk fs baseDir relativeDir with
      | none =>
          left
          have hnone : ∀ targetDir, ¬SafePath disk fs baseDir relativeDir targetDir := by
            intro targetDir h
            rw [(safeLocation_eq_some disk _ _ _ _).mpr h] at hsafe
            cases hsafe
          obtain ⟨hfs, hresult⟩ := uploadFile_of_refused disk baseDir fs relativeDir upload
            conflictResolution fun targetDir h => absurd h (hnone targetDir)
          exact ⟨hfs, hresult, fun _ => rfl⟩
      | some targetDir =>
          right
          have hpath := (safeLocation_eq_some disk _ _ _ _).mp hsafe
          obtain ⟨hfs, hresult⟩ := uploadFile_of_safe disk baseDir fs relativeDir upload
            conflictResolution targetDir name hpath hvalid
          exact ⟨targetDir, hpath, rfl, properName_of_validateUploadFilename _ name hvalid, hfs, hresult⟩

end Uploading

end NetworkFileServer.Server.FileService
