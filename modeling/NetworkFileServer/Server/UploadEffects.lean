import NetworkFileServer.Framework.FileWalks
import NetworkFileServer.Server.FreeName
import NetworkFileServer.Server.PathGuard

/-!
# What an upload leaves behind

An upload puts its content at one name of the target directory and changes nothing else. Which name
that is follows from the directory before the upload.
-/

namespace NetworkFileServer.Server.FileService

variable {α : Type} (disk : Disk α) (fs : FileSystem α)

/-- The first numbered name that is free. -/
def firstFree (targetDir : Location) (filename : String) : Option String :=
  ((List.range (fs.tree.length + 1)).find? fun k =>
    !decide (Taken disk fs targetDir (numbered filename (1 + k)))).map fun k =>
      numbered filename (1 + k)

/-- The name that an upload opens for writing. -/
def opened (targetDir : Location) (filename : String)
    (conflictResolution : Option ConflictResolution) : Option String :=
  if Taken disk fs targetDir filename then
    match conflictResolution with
    | none | some .skip => none
    | some .rename => firstFree disk fs targetDir filename
    | some .overwrite => some (tempName filename)
  else some filename

/-- The name that holds the content afterwards. The temporary file of an overwritten directory stays,
since `os.replace` refuses. -/
def landing (targetDir : Location) (filename : String)
    (conflictResolution : Option ConflictResolution) : Option String :=
  if Taken disk fs targetDir filename then
    match conflictResolution with
    | none | some .skip => none
    | some .rename => firstFree disk fs targetDir filename
    | some .overwrite =>
        some (if fs.isDirAt (targetDir ++ [filename]) then tempName filename else filename)
  else some filename

/-- Whether the upload goes through. -/
def Storable (targetDir : Location) (filename : String)
    (conflictResolution : Option ConflictResolution) : Prop :=
  fs.isDirAt targetDir = true ∧
    (Taken disk fs targetDir filename → conflictResolution ≠ none ∧
      (conflictResolution = some .overwrite →
        fs.isDirAt (targetDir ++ [tempName filename]) = false ∧
          fs.isDirAt (targetDir ++ [filename]) = false))

instance (targetDir : Location) (filename : String)
    (conflictResolution : Option ConflictResolution) :
    Decidable (Storable disk fs targetDir filename conflictResolution) :=
  inferInstanceAs (Decidable (_ ∧ _))

theorem stem_append_suffix (name : String) : stem name ++ suffix name = name := by
  apply String.toList_inj.mp
  simp [stem, suffix]

theorem tempName_eq (name : String) : tempName name = name ++ ".tmp" := by
  unfold tempName withSuffix
  rw [← String.append_assoc, stem_append_suffix]

theorem tempName_ne (name : String) : tempName name ≠ name := by
  intro h
  have hlen := congrArg (fun s => s.toList.length) h
  simp [tempName_eq] at hlen

theorem tempName_ne_up (name : String) : tempName name ≠ ".." := by
  intro h
  have hlen := congrArg (fun s => s.toList.length) h
  simp [tempName_eq] at hlen

theorem firstFree_of_returns (targetDir : Location) (filename newName : String)
    (fs' : FileSystem α)
    (h : (freeName disk targetDir filename (fs.tree.length + 1) 1).Returns fs newName fs') :
    fs = fs' ∧ firstFree disk fs targetDir filename = some newName := by
  obtain ⟨hfs, k, hk, htaken, hfree, rfl⟩ := (returns_freeName disk fs _ _ _ _ _ _).mp h
  have hfind : (List.range (fs.tree.length + 1)).find? (fun k =>
      !decide (Taken disk fs targetDir (numbered filename (1 + k)))) = some k := by
    rw [List.find?_range_eq_some]
    refine ⟨by simpa using hfree, by simpa using hk, ?_⟩
    intro j hj
    simpa using htaken j hj
  exact ⟨hfs, by rw [firstFree, hfind]; rfl⟩

theorem firstFree_spec (targetDir : Location) (filename name : String)
    (h : firstFree disk fs targetDir filename = some name) :
    ∃ k, name = numbered filename (1 + k) ∧ (∀ j < k, Taken disk fs targetDir (numbered filename (1 + j))) ∧
      ¬Taken disk fs targetDir (numbered filename (1 + k)) := by
  obtain ⟨k, hfind, hk⟩ := Option.map_eq_some_iff.mp h
  obtain ⟨hfree, -, hall⟩ := List.find?_range_eq_some.mp hfind
  exact ⟨k, hk.symm, by simpa using hall, by simpa using hfree⟩

theorem freeName_returns (targetDir : Location) (filename : String) (hres : fs.Resolved targetDir) :
    ∃ newName, (freeName disk targetDir filename (fs.tree.length + 1) 1).Returns fs newName fs := by
  obtain ⟨k, hbound, hleast, hfree⟩ := exists_firstFree disk fs targetDir filename hres
  exact ⟨_, (returns_freeName disk fs _ _ _ _ _ _).mpr ⟨rfl, k, by omega, hleast, hfree, rfl⟩⟩

theorem not_dir_of_not_taken (targetDir : Location) (name : String)
    (hres : fs.Resolved (targetDir ++ [name])) (h : ¬Taken disk fs targetDir name) :
    fs.isDirAt (targetDir ++ [name]) = false := by
  rw [Bool.eq_false_iff, ne_eq, FileSystem.isDirAt_eq_true]
  intro hnode
  rw [Taken, fs.locate_of_resolved _ _ hres, hnode] at h
  exact h rfl

section Writing

variable (targetDir : Location) (filename : String) (upload : Upload α)

/-- The content is at a name of the target directory, and nothing else is new. -/
def PutsAt (fs' : FileSystem α) (name : String) : Prop :=
  fs.Adds fs' fun q node => q = targetDir ++ [name] ∧ node = .file upload.content

theorem writeUploadChunks_of_resolved (p : Location) (hres : fs.Resolved p) :
    ¬(fs.isDirAt p.dropLast = true ∧ fs.isDirAt p = false) ∧
        (∃ e, writeUploadChunks disk upload p fs = ⟨.error e, fs, []⟩) ∨
      ∃ h : fs.Puttable p (.file upload.content), fs.isDirAt p = false ∧
        (writeUploadChunks disk upload p).Returns fs (disk.size (.file upload.content))
          (fs.put p (.file upload.content) h) := by
  rcases FileM.writeFile_of_resolved disk.limits fs p upload.content hres with
    ⟨hnot, e, he⟩ | ⟨hput, hdir, hret⟩
  · left
    refine ⟨hnot, .os e, ?_⟩
    have herr : (((FileM.writeFile disk.limits p upload.content).mapError FileError.os) fs).result =
        .error (.os e) := by
      simp [FileM.mapError, he, Except.mapError]
    rw [writeUploadChunks, FileM.bind_of_error _ _ _ _ herr]
    simp [FileM.mapError, he]
  · right
    refine ⟨hput, hdir, ?_⟩
    rw [writeUploadChunks, FileM.returns_bind]
    exact ⟨(), _, (FileM.returns_mapError _ _ _ _ _).mpr hret, by simp⟩

theorem writeDirectly_effect (hres : fs.Resolved (targetDir ++ [filename])) :
    PutsAt fs targetDir upload (writeDirectly disk targetDir filename upload fs).fs filename ∧
      (∀ r fs', (writeDirectly disk targetDir filename upload).Returns fs r fs' →
        r.name = filename ∧ fs'.get? (targetDir ++ [filename]) = some (.file upload.content)) ∧
      ((∃ r, (writeDirectly disk targetDir filename upload fs).result = .ok r) ↔
        fs.isDirAt targetDir = true ∧ fs.isDirAt (targetDir ++ [filename]) = false) := by
  rcases writeUploadChunks_of_resolved disk fs upload _ hres with
    ⟨hnot, e, he⟩ | ⟨hput, hdir, hret⟩
  · have herr : (writeUploadChunks disk upload (targetDir ++ [filename]) fs).result = .error e := by
      rw [he]
    rw [List.dropLast_concat] at hnot
    refine ⟨?_, ?_, ?_⟩
    · rw [writeDirectly, FileM.bind_of_error _ _ _ _ herr, he]
      exact FileSystem.Adds.refl fs _
    · intro r fs' h
      rw [writeDirectly, FileM.Returns, FileM.bind_of_error _ _ _ _ herr] at h
      cases h.1
    · rw [writeDirectly, FileM.bind_of_error _ _ _ _ herr]
      constructor
      · rintro ⟨r, hr⟩
        cases hr
      · intro h
        exact absurd h hnot
  · have hparent : fs.isDirAt targetDir = true := by
      have := hput.1
      rwa [List.dropLast_concat] at this
    refine ⟨?_, ?_, ?_⟩
    · rw [writeDirectly, FileM.bind_of_ok _ _ _ _ _ hret]
      exact fs.adds_put _ _ hput
    · intro r fs' h
      rw [writeDirectly, FileM.returns_bind_of_returns _ _ _ _ _ hret] at h
      obtain ⟨rfl, rfl⟩ := (FileM.returns_pure _ _ _ _).mp h
      refine ⟨rfl, ?_⟩
      rw [FileSystem.get?_put, if_pos rfl]
    · rw [writeDirectly, FileM.bind_of_ok _ _ _ _ _ hret]
      exact iff_of_true ⟨_, rfl⟩ ⟨hparent, hdir⟩

section Replacing

variable (hput : fs.Puttable (targetDir ++ [tempName filename]) (.file upload.content))

private theorem dest_ne_temp : targetDir ++ [filename] ≠ targetDir ++ [tempName filename] := by
  intro h
  have hname := List.singleton_inj.mp (List.append_cancel_left h)
  exact tempName_ne filename hname.symm

private theorem get?_dest :
    (fs.put _ _ hput).get? (targetDir ++ [filename]) = fs.get? (targetDir ++ [filename]) := by
  rw [FileSystem.get?_put, if_neg (dest_ne_temp targetDir filename)]

private theorem isDirAt_dest :
    (fs.put _ _ hput).isDirAt (targetDir ++ [filename]) = fs.isDirAt (targetDir ++ [filename]) := by
  rw [Bool.eq_iff_iff, FileSystem.isDirAt_eq_true, FileSystem.isDirAt_eq_true,
    get?_dest fs targetDir filename upload]

private theorem temp_not_dir :
    (fs.put _ _ hput).isDirAt (targetDir ++ [tempName filename]) = false := by
  rw [Bool.eq_false_iff, ne_eq, FileSystem.isDirAt_eq_true, FileSystem.get?_put, if_pos rfl]
  simp

/-- `os.replace` goes through exactly when no directory is in the way. -/
theorem renames_temp (hres : fs.Resolved targetDir) (hname : filename ≠ "..")
    (hdest : fs.isDirAt (targetDir ++ [filename]) = false) :
    FileM.Renames disk.limits (fs.put _ _ hput) (targetDir ++ [tempName filename])
      (targetDir ++ [filename]) (targetDir ++ [tempName filename]) (targetDir ++ [filename]) := by
  have htemp : ((fs.put _ _ hput).get? (targetDir ++ [tempName filename])).isSome = true := by
    rw [FileSystem.get?_put, if_pos rfl]
    rfl
  exact FileM.renames_child disk.limits _ targetDir (tempName filename) filename (hres.put hput rfl)
    (tempName_ne_up filename) hname (tempName_ne filename).symm htemp
    (temp_not_dir fs targetDir filename upload hput) (by rwa [isDirAt_dest fs targetDir filename upload])

theorem not_renames_temp (hdest : fs.isDirAt (targetDir ++ [filename]) = true)
    (hres : fs.Resolved targetDir) (src dst : Location) :
    ¬FileM.Renames disk.limits (fs.put _ _ hput) (targetDir ++ [tempName filename])
      (targetDir ++ [filename]) src dst := by
  exact FileM.not_renames_child disk.limits _ targetDir (tempName filename) filename (hres.put hput rfl)
    (temp_not_dir fs targetDir filename upload hput) (by rwa [isDirAt_dest fs targetDir filename upload])
    src dst

private theorem puts_of_move
    (hmov : (fs.put _ _ hput).Movable (targetDir ++ [tempName filename]) (targetDir ++ [filename])) :
    PutsAt fs targetDir upload ((fs.put _ _ hput).move _ _ hmov) filename ∧
      ((fs.put _ _ hput).move _ _ hmov).get? (targetDir ++ [filename]) =
        some (.file upload.content) := by
  have htemp : (fs.put _ _ hput).get? (targetDir ++ [tempName filename]) =
      some (.file upload.content) := by
    rw [FileSystem.get?_put, if_pos rfl]
  constructor
  · intro q node hq
    rw [FileSystem.get?_move] at hq
    split at hq
    · rename_i hpre
      obtain ⟨x, rfl⟩ := hpre
      rw [List.drop_left] at hq
      have heq := (fs.put _ _ hput).eq_of_below (targetDir ++ [tempName filename]) _
        (temp_not_dir fs targetDir filename upload hput) (List.prefix_append _ x) (by rw [hq]; rfl)
      obtain rfl := List.append_right_eq_self.mp heq
      rw [List.append_nil, htemp] at hq
      right
      exact ⟨List.append_nil _, (Option.some.inj hq).symm⟩
    · split at hq
      · cases hq
      · rename_i hnot
        rw [FileSystem.get?_put, if_neg] at hq
        · exact .inl hq
        · rintro rfl
          exact hnot (List.prefix_refl _)
  · rw [FileSystem.get?_move, if_pos (List.prefix_refl _), List.drop_length, List.append_nil]
    exact htemp

end Replacing

theorem writeReplacing_effect (hres : fs.Resolved targetDir) (hname : filename ≠ "..")
    (htemp : fs.Resolved (targetDir ++ [tempName filename])) :
    PutsAt fs targetDir upload (writeReplacing disk targetDir filename upload fs).fs
        (if fs.isDirAt (targetDir ++ [filename]) then tempName filename else filename) ∧
      (∀ r fs', (writeReplacing disk targetDir filename upload).Returns fs r fs' →
        fs.isDirAt (targetDir ++ [filename]) = false ∧ r.name = filename ∧
          fs'.get? (targetDir ++ [filename]) = some (.file upload.content)) ∧
      ((∃ r, (writeReplacing disk targetDir filename upload fs).result = .ok r) ↔
        fs.isDirAt targetDir = true ∧ fs.isDirAt (targetDir ++ [tempName filename]) = false ∧
          fs.isDirAt (targetDir ++ [filename]) = false) := by
  rcases writeUploadChunks_of_resolved disk fs upload _ htemp with
    ⟨hnot, e, he⟩ | ⟨hput, htempDir, hret⟩
  · have herr : (writeUploadChunks disk upload (targetDir ++ [tempName filename]) fs).result =
        .error e := by
      rw [he]
    rw [List.dropLast_concat] at hnot
    refine ⟨?_, ?_, ?_⟩
    · rw [writeReplacing, FileM.bind_of_error _ _ _ _ herr, he]
      exact FileSystem.Adds.refl fs _
    · intro r fs' h
      rw [writeReplacing, FileM.Returns, FileM.bind_of_error _ _ _ _ herr] at h
      cases h.1
    · rw [writeReplacing, FileM.bind_of_error _ _ _ _ herr]
      constructor
      · rintro ⟨r, hr⟩
        cases hr
      · intro h
        exact absurd ⟨h.1, h.2.1⟩ hnot
  · have hparent : fs.isDirAt targetDir = true := by
      have := hput.1
      rwa [List.dropLast_concat] at this
    cases hdest : fs.isDirAt (targetDir ++ [filename]) with
    | true =>
        obtain ⟨hfs, -, hok⟩ := FileM.rename_of_not_renames disk.limits (fs.put _ _ hput)
          (targetDir ++ [tempName filename]) (targetDir ++ [filename])
          (not_renames_temp disk fs targetDir filename upload hput hdest hres)
        -- The rename fails, so the upload does.
        have hfails : ∀ u, (FileM.rename disk.limits (targetDir ++ [tempName filename])
            (targetDir ++ [filename]) (fs.put _ _ hput)).result ≠ .ok u := by
          intro u hu
          have hresPut : (fs.put _ _ hput).Resolved targetDir := hres.put hput rfl
          have hentry := hok hu
          have hdir : (fs.put _ _ hput).isDirAt targetDir = true := by
            have hparent := (fs.put _ _ hput).isDirAt_dropLast (targetDir ++ [tempName filename])
              (by rw [FileSystem.get?_put, if_pos rfl]; rfl)
            rwa [List.dropLast_concat] at hparent
          rw [FileSystem.locateEntry_of_resolved _ _ _ _ (tempName_ne_up filename) hresPut,
            FileSystem.locateEntry_of_resolved _ _ _ _ hname hresPut, if_pos hdir, if_pos hdir]
            at hentry
          exact dest_ne_temp targetDir filename (Option.some.inj hentry).symm
        have hrefused : ∀ r fs', ¬(writeReplacing disk targetDir filename upload).Returns fs r fs' := by
          intro r fs' h
          rw [writeReplacing, FileM.returns_bind_of_returns _ _ _ _ _ hret,
            FileM.returns_bind] at h
          obtain ⟨u, fs₁, hu, -⟩ := h
          exact absurd ((FileM.returns_mapError _ _ _ _ _).mp hu).1 (hfails u)
        refine ⟨?_, fun r fs' h => absurd h (hrefused r fs'), ?_⟩
        · rw [writeReplacing, FileM.bind_of_ok _ _ _ _ _ hret]
          dsimp only
          rw [FileM.bind_fs_of_keeps _ _ _ fun _ => FileM.keeps_pure _]
          change PutsAt fs targetDir upload (FileM.rename disk.limits _ _ _).fs _
          rw [hfs]
          exact fs.adds_put _ _ hput
        · constructor
          · rintro ⟨r, hr⟩
            exact absurd ⟨hr, rfl⟩ (hrefused r _)
          · rintro ⟨-, -, hfalse⟩
            cases hfalse
    | false =>
        have hren := renames_temp disk fs targetDir filename upload hput hres hname hdest
        have hmove := FileM.rename_of_renames disk.limits _ _ _ _ _ hren
        obtain ⟨hputs, hget⟩ := puts_of_move fs targetDir filename upload hput hren.movable
        have hreturns : ((FileM.rename disk.limits (targetDir ++ [tempName filename])
            (targetDir ++ [filename])).mapError FileError.os).Returns (fs.put _ _ hput) ()
            ((fs.put _ _ hput).move _ _ hren.movable) := by
          rw [FileM.returns_mapError, FileM.Returns, hmove]
          exact ⟨rfl, rfl⟩
        refine ⟨?_, ?_, ?_⟩
        · rw [writeReplacing, FileM.bind_of_ok _ _ _ _ _ hret, FileM.bind_of_ok _ _ _ _ _ hreturns]
          exact hputs
        · intro r fs' h
          rw [writeReplacing, FileM.returns_bind_of_returns _ _ _ _ _ hret,
            FileM.returns_bind_of_returns _ _ _ _ _ hreturns] at h
          obtain ⟨rfl, rfl⟩ := (FileM.returns_pure _ _ _ _).mp h
          exact ⟨rfl, rfl, hget⟩
        · rw [writeReplacing, FileM.bind_of_ok _ _ _ _ _ hret, FileM.bind_of_ok _ _ _ _ _ hreturns]
          exact iff_of_true ⟨_, rfl⟩ ⟨hparent, htempDir, rfl⟩

end Writing

section Storing

variable (targetDir : Location) (filename : String) (upload : Upload α)
  (conflictResolution : Option ConflictResolution)

/-- What an upload into a directory leaves: nothing new but the content at the landing name, which is
there when the upload returns, unless it has skipped; and when it returns. -/
structure Stored (o : Outcome α FileError UploadResult) : Prop where
  adds : fs.Adds o.fs fun q node =>
    ∃ name, landing disk fs targetDir filename conflictResolution = some name ∧
      q = targetDir ++ [name] ∧ node = .file upload.content
  returns : ∀ r, o.result = .ok r →
    (Taken disk fs targetDir filename ∧ conflictResolution = some .skip ∧ r.name = filename ∧
        o.fs = fs) ∨
      (landing disk fs targetDir filename conflictResolution = some r.name ∧
        o.fs.get? (targetDir ++ [r.name]) = some (.file upload.content))
  accepts : (∃ r, o.result = .ok r) ↔ Storable disk fs targetDir filename conflictResolution

/-- No name that the upload opens for writing is a link. -/
def OpensNoLink : Prop :=
  ∀ name ∈ opened disk fs targetDir filename conflictResolution,
    (fs.get? (targetDir ++ [name])).any Node.isLink = false

theorem overwrites_returns (name : String) :
    (overwrites disk targetDir name conflictResolution).Returns fs
      (decide (conflictResolution = some .overwrite ∧ Taken disk fs targetDir name)) fs := by
  cases conflictResolution with
  | none => simp [overwrites]
  | some cr =>
      cases cr with
      | rename | skip => simp [overwrites]
      | overwrite => simp [overwrites, Taken]

private theorem writeUpload_outcome (name : String) :
    (writeUpload disk targetDir name upload conflictResolution fs).fs =
        (if conflictResolution = some .overwrite ∧ Taken disk fs targetDir name then
          writeReplacing disk targetDir name upload fs
        else writeDirectly disk targetDir name upload fs).fs ∧
      (writeUpload disk targetDir name upload conflictResolution fs).result =
        (if conflictResolution = some .overwrite ∧ Taken disk fs targetDir name then
          writeReplacing disk targetDir name upload fs
        else writeDirectly disk targetDir name upload fs).result := by
  rw [writeUpload, FileM.bind_of_ok _ _ _ _ _
    (overwrites_returns disk fs targetDir conflictResolution name)]
  by_cases h : conflictResolution = some .overwrite ∧ Taken disk fs targetDir name
  · simp [h]
  · simp only [h, decide_false, Bool.false_eq_true, ↓reduceIte, and_self]

/-- How an upload goes on: the name is taken and nothing is written, a free name is written, or the file is
replaced by way of the temporary one. -/
theorem storeUpload_cases (hres : fs.Resolved targetDir) (hname : filename ≠ "..") :
    (Taken disk fs targetDir filename ∧
        (storeUpload disk targetDir filename upload conflictResolution fs).fs = fs ∧
        (conflictResolution = none ∧ (storeUpload disk targetDir filename upload conflictResolution fs).result =
            .error (.fileConflict filename (pathStr (targetDir ++ [filename]))) ∨
          conflictResolution = some .skip ∧ ∃ r, r.name = filename ∧
            (storeUpload disk targetDir filename upload conflictResolution fs).result = .ok r)) ∨
      (∃ name, name ≠ ".." ∧ ¬Taken disk fs targetDir name ∧
        (¬Taken disk fs targetDir filename ∧ name = filename ∨
          Taken disk fs targetDir filename ∧ conflictResolution = some .rename) ∧
        opened disk fs targetDir filename conflictResolution = some name ∧
        landing disk fs targetDir filename conflictResolution = some name ∧
        (fs.isDirAt targetDir = true → Storable disk fs targetDir filename conflictResolution) ∧
        (storeUpload disk targetDir filename upload conflictResolution fs).fs =
            (writeDirectly disk targetDir name upload fs).fs ∧
          (storeUpload disk targetDir filename upload conflictResolution fs).result =
            (writeDirectly disk targetDir name upload fs).result) ∨
      conflictResolution = some .overwrite ∧ Taken disk fs targetDir filename ∧
        opened disk fs targetDir filename conflictResolution = some (tempName filename) ∧
        (storeUpload disk targetDir filename upload conflictResolution fs).fs =
            (writeReplacing disk targetDir filename upload fs).fs ∧
          (storeUpload disk targetDir filename upload conflictResolution fs).result =
            (writeReplacing disk targetDir filename upload fs).result := by
  have hexists : (FileM.pathExists disk.limits (targetDir ++ [filename]) : FileM α FileError Bool).Returns fs
      (decide (Taken disk fs targetDir filename)) fs := by
    rw [FileM.returns_pathExists]
    exact ⟨Bool.decide_eq_true.symm, rfl⟩
  rw [storeUpload, FileM.bind_of_ok _ _ _ _ _ hexists]
  obtain ⟨hwfs, hwresult⟩ := writeUpload_outcome disk fs targetDir upload conflictResolution filename
  by_cases h : Taken disk fs targetDir filename
  · simp only [h, decide_true, if_true]
    cases conflictResolution with
    | none => exact .inl ⟨trivial, rfl, .inl ⟨rfl, rfl⟩⟩
    | some cr =>
        cases cr with
        | skip =>
            obtain ⟨⟨l, node⟩, hfound⟩ := Option.isSome_iff_exists.mp h
            have hstat : ((FileM.stat disk.limits (targetDir ++ [filename])).mapError
                FileError.os).Returns fs node fs := by
              simp [hfound]
            rw [resolveConflict, FileM.bind_of_ok _ _ _ _ _ hstat]
            exact .inl ⟨trivial, rfl, .inr ⟨rfl, _, rfl, rfl⟩⟩
        | rename =>
            have hobjects : (FileM.objectCount : FileM α FileError Nat).Returns fs fs.tree.length fs := by
              simp
            obtain ⟨newName, hret⟩ := freeName_returns disk fs targetDir filename hres
            obtain ⟨-, hfirst⟩ := firstFree_of_returns disk fs targetDir filename newName fs hret
            obtain ⟨k, hk, -, hfree⟩ := firstFree_spec disk fs targetDir filename newName hfirst
            obtain ⟨hnewFs, hnewResult⟩ :=
              writeUpload_outcome disk fs targetDir upload (some .rename) newName
            rw [if_neg (by simp)] at hnewFs hnewResult
            rw [resolveConflict, FileM.bind_of_ok _ _ _ _ _ hobjects]
            dsimp only
            rw [FileM.bind_of_ok _ _ _ _ _ hret]
            refine .inr (.inl ⟨newName, hk ▸ numbered_ne_up filename
              (1 + k), hk ▸ hfree, .inr ⟨trivial, rfl⟩, ?_, ?_, ?_,
              hnewFs, hnewResult⟩)
            · simp only [opened, if_pos h, hfirst]
            · simp only [landing, if_pos h, hfirst]
            · exact fun hdir => ⟨hdir, by simp⟩
        | overwrite =>
            rw [if_pos ⟨rfl, h⟩] at hwfs hwresult
            refine .inr (.inr ⟨rfl, trivial, ?_, hwfs, hwresult⟩)
            simp only [opened, if_pos h]
  · rw [if_neg fun hboth => h hboth.2] at hwfs hwresult
    simp only [h, decide_false, Bool.false_eq_true, if_false]
    refine .inr (.inl ⟨filename, hname, h, .inl ⟨not_false, rfl⟩, ?_, ?_, ?_, hwfs, hwresult⟩)
    · simp only [opened, if_neg h]
    · simp only [landing, if_neg h]
    · exact fun hdir => ⟨hdir, fun htaken => absurd htaken h⟩

private theorem stored_of_directly (name : String) (o : Outcome α FileError UploadResult)
    (hres : fs.Resolved targetDir) (hname : name ≠ "..")
    (hlink : (fs.get? (targetDir ++ [name])).any Node.isLink = false)
    (hfree : ¬Taken disk fs targetDir name)
    (hland : landing disk fs targetDir filename conflictResolution = some name)
    (hstorable : fs.isDirAt targetDir = true →
      Storable disk fs targetDir filename conflictResolution)
    (hfs : o.fs = (writeDirectly disk targetDir name upload fs).fs)
    (hresult : o.result = (writeDirectly disk targetDir name upload fs).result) :
    Stored disk fs targetDir filename upload conflictResolution o := by
  have hresName := hres.snoc hname hlink
  obtain ⟨hputs, hreturns, haccepts⟩ := writeDirectly_effect disk fs targetDir name upload hresName
  constructor
  · rw [hfs]
    exact hputs.mono fun q node h => ⟨name, hland, h⟩
  · intro r hr
    right
    obtain ⟨hrname, hget⟩ := hreturns r _ ⟨hresult ▸ hr, rfl⟩
    rw [hrname, hfs]
    exact ⟨hland, hget⟩
  · rw [hresult, haccepts]
    constructor
    · intro h
      exact hstorable h.1
    · intro h
      exact ⟨h.1, not_dir_of_not_taken disk fs targetDir name hresName hfree⟩

private theorem stored_of_unchanged (o : Outcome α FileError UploadResult) (hfs : o.fs = fs)
    (hreturns : ∀ r, o.result = .ok r → Taken disk fs targetDir filename ∧
      conflictResolution = some .skip ∧ r.name = filename)
    (haccepts : (∃ r, o.result = .ok r) ↔ Storable disk fs targetDir filename conflictResolution) :
    Stored disk fs targetDir filename upload conflictResolution o := by
  constructor
  · rw [hfs]
    exact FileSystem.Adds.refl fs _
  · intro r hr
    obtain ⟨htaken, hskip, hname⟩ := hreturns r hr
    exact .inl ⟨htaken, hskip, hname, hfs⟩
  · exact haccepts

private theorem stored_overwrite (o : Outcome α FileError UploadResult)
    (htaken : Taken disk fs targetDir filename) (hres : fs.Resolved targetDir)
    (hname : filename ≠ "..")
    (hlink : (fs.get? (targetDir ++ [tempName filename])).any Node.isLink = false)
    (hfs : o.fs = (writeReplacing disk targetDir filename upload fs).fs)
    (hresult : o.result = (writeReplacing disk targetDir filename upload fs).result) :
    Stored disk fs targetDir filename upload (some .overwrite) o := by
  have hland : landing disk fs targetDir filename (some .overwrite) =
      some (if fs.isDirAt (targetDir ++ [filename]) then tempName filename else filename) := by
    simp only [landing, if_pos htaken]
  obtain ⟨hputs, hreturns, haccepts⟩ := writeReplacing_effect disk fs targetDir filename upload hres
    hname (hres.snoc (tempName_ne_up filename) hlink)
  constructor
  · rw [hfs]
    exact hputs.mono fun q node h => ⟨_, hland, h⟩
  · intro r hr
    right
    obtain ⟨hdest, hrname, hget⟩ := hreturns r _ ⟨hresult ▸ hr, rfl⟩
    rw [hland, hdest, hrname, hfs]
    exact ⟨rfl, hget⟩
  · rw [hresult, haccepts, Storable]
    simp [htaken]

theorem storeUpload_stored (hres : fs.Resolved targetDir) (hname : filename ≠ "..")
    (hopen : OpensNoLink disk fs targetDir filename conflictResolution) :
    Stored disk fs targetDir filename upload conflictResolution
      (storeUpload disk targetDir filename upload conflictResolution fs) := by
  rcases storeUpload_cases disk fs targetDir filename upload conflictResolution hres hname with
    ⟨htaken, hsame, hnone | hskip⟩ | ⟨name, hup, hfree, -, hopened, hland, hstorable, hfs, hresult⟩ |
      ⟨rfl, htaken, hopened, hfs, hresult⟩
  · obtain ⟨rfl, he⟩ := hnone
    apply stored_of_unchanged disk fs targetDir filename upload _ _ hsame
    · intro r hr
      rw [he] at hr
      cases hr
    · rw [he]
      constructor
      · rintro ⟨r, hr⟩
        cases hr
      · intro h
        exact absurd rfl (h.2 htaken).1
  · obtain ⟨rfl, r, hrname, hr⟩ := hskip
    have hdir := (fs.child_of_locate_below _ targetDir [] filename hres htaken).1
    apply stored_of_unchanged disk fs targetDir filename upload _ _ hsame
    · intro r' hr'
      rw [hr] at hr'
      cases hr'
      exact ⟨htaken, rfl, hrname⟩
    · exact iff_of_true ⟨r, hr⟩ ⟨hdir, by simp⟩
  · exact stored_of_directly disk fs targetDir filename upload conflictResolution name _ hres hup
      (hopen _ hopened) hfree hland hstorable hfs hresult
  · exact stored_overwrite disk fs targetDir filename upload _ htaken hres hname (hopen _ hopened) hfs hresult

private theorem writeDirectly_keepsWays (hres : fs.Resolved (targetDir ++ [filename])) :
    fs.KeepsWays (writeDirectly disk targetDir filename upload fs).fs := by
  have hlink := hres.noLink _ (List.prefix_refl _)
  rw [writeDirectly, FileM.bind_fs_of_keeps _ _ _ fun _ => FileM.keeps_pure _]
  rcases writeUploadChunks_of_resolved disk fs upload _ hres with ⟨-, e, he⟩ | ⟨hput, -, hret⟩
  · rw [he]
    exact FileSystem.KeepsWays.refl fs
  · rw [hret.2]
    exact FileSystem.keepsWays_put _ _ hput hlink

private theorem writeReplacing_keepsWays (hres : fs.Resolved targetDir)
    (htemp : fs.Resolved (targetDir ++ [tempName filename]))
    (hlink : (fs.get? (targetDir ++ [filename])).any Node.isLink = false) :
    fs.KeepsWays (writeReplacing disk targetDir filename upload fs).fs := by
  have htempLink := htemp.noLink _ (List.prefix_refl _)
  rw [writeReplacing]
  rcases writeUploadChunks_of_resolved disk fs upload _ htemp with ⟨-, e, he⟩ | ⟨hput, -, hret⟩
  · have herr : (writeUploadChunks disk upload (targetDir ++ [tempName filename]) fs).result = .error e := by
      rw [he]
    rw [FileM.bind_of_error _ _ _ _ herr, he]
    exact FileSystem.KeepsWays.refl fs
  · have hkeeps := FileSystem.keepsWays_put _ _ hput htempLink
    rw [FileM.bind_of_ok _ _ _ _ _ hret]
    dsimp only
    rw [FileM.bind_fs_of_keeps _ _ _ fun _ => FileM.keeps_pure _]
    change fs.KeepsWays (FileM.rename disk.limits _ _ _).fs
    by_cases hrenames : ∃ s d, FileM.Renames disk.limits (fs.put _ _ hput)
        (targetDir ++ [tempName filename]) (targetDir ++ [filename]) s d
    · obtain ⟨s, d, hren⟩ := hrenames
      have hresPut : (fs.put _ _ hput).Resolved targetDir := hres.put hput rfl
      obtain rfl := (fs.put _ _ hput).locateEntry_eq _ _ _ (by simpa using hresPut) hren.source
      obtain rfl := (fs.put _ _ hput).locateEntry_eq _ _ _ (by simpa using hresPut) hren.target
      have hfile : (fs.put _ _ hput).get? (targetDir ++ [tempName filename]) =
          some (.file upload.content) := by
        rw [FileSystem.get?_put, if_pos rfl]
      have hdest : (fs.put _ _ hput).isDirAt (targetDir ++ [filename]) = false := by
        rw [Bool.eq_false_iff, ne_eq, FileSystem.isDirAt_eq_true]
        intro hdir
        have hcan := hren.replaces
        unfold FileM.canReplace at hcan
        rw [hfile, hdir] at hcan
        cases hcan
      rw [FileM.rename_of_renames disk.limits _ _ _ _ _ hren]
      apply hkeeps.trans
      apply FileSystem.keepsWays_move _ _ _ hren.movable hfile hdest
      rw [get?_dest fs targetDir filename upload]
      exact hlink
    · have hnot : ∀ s d, ¬FileM.Renames disk.limits (fs.put _ _ hput)
          (targetDir ++ [tempName filename]) (targetDir ++ [filename]) s d :=
        fun s d hren => hrenames ⟨s, d, hren⟩
      rw [(FileM.rename_of_not_renames disk.limits _ _ _ hnot).1]
      exact hkeeps

/-- An upload that opens and replaces no link leaves the directories and links as they are. -/
theorem storeUpload_keepsWays (hres : fs.Resolved targetDir) (hname : filename ≠ "..")
    (hopen : OpensNoLink disk fs targetDir filename conflictResolution)
    (hreplace : conflictResolution = some .overwrite →
      (fs.get? (targetDir ++ [filename])).any Node.isLink = false) :
    fs.KeepsWays (storeUpload disk targetDir filename upload conflictResolution fs).fs := by
  rcases storeUpload_cases disk fs targetDir filename upload conflictResolution hres hname with
    ⟨-, hsame, -⟩ | ⟨name, hup, -, -, hopened, -, -, hfs, -⟩ | ⟨hoverwrite, -, hopened, hfs, -⟩
  · rw [hsame]
    exact FileSystem.KeepsWays.refl fs
  · rw [hfs]
    exact writeDirectly_keepsWays disk fs targetDir name upload (hres.snoc hup (hopen name hopened))
  · rw [hfs]
    exact writeReplacing_keepsWays disk fs targetDir filename upload hres
      (hres.snoc (tempName_ne_up filename) (hopen _ hopened)) (hreplace hoverwrite)

private theorem writeDirectly_refused (hres : fs.Resolved (targetDir ++ [filename]))
    (h : ∀ r, (writeDirectly disk targetDir filename upload fs).result ≠ .ok r) :
    (writeDirectly disk targetDir filename upload fs).fs = fs := by
  rcases writeUploadChunks_of_resolved disk fs upload _ hres with ⟨-, e, he⟩ | ⟨hput, -, hret⟩
  · rw [writeDirectly, FileM.bind_fs_of_keeps _ _ _ fun _ => FileM.keeps_pure _, he]
  · rw [writeDirectly, FileM.bind_of_ok _ _ _ _ _ hret] at h
    exact absurd rfl (h _)

private theorem writeReplacing_refused (hres : fs.Resolved targetDir) (hname : filename ≠ "..")
    (htemp : fs.Resolved (targetDir ++ [tempName filename]))
    (hdest : fs.isDirAt (targetDir ++ [filename]) = false)
    (h : ∀ r, (writeReplacing disk targetDir filename upload fs).result ≠ .ok r) :
    (writeReplacing disk targetDir filename upload fs).fs = fs := by
  have haccepts := (writeReplacing_effect disk fs targetDir filename upload hres hname htemp).2.2
  rcases writeUploadChunks_of_resolved disk fs upload _ htemp with ⟨-, e, he⟩ | ⟨hput, htempDir, -⟩
  · have herr : (writeUploadChunks disk upload (targetDir ++ [tempName filename]) fs).result = .error e := by
      rw [he]
    rw [writeReplacing, FileM.bind_of_error _ _ _ _ herr, he]
  · have hparent : fs.isDirAt targetDir = true := by
      have := hput.1
      rwa [List.dropLast_concat] at this
    obtain ⟨r, hr⟩ := haccepts.mpr ⟨hparent, htempDir, hdest⟩
    exact absurd hr (h r)

/-- An upload that is refused has written nothing, unless it was to replace a directory. -/
theorem storeUpload_refused (hres : fs.Resolved targetDir) (hname : filename ≠ "..")
    (hopen : OpensNoLink disk fs targetDir filename conflictResolution)
    (hdest : conflictResolution = some .overwrite → fs.isDirAt (targetDir ++ [filename]) = false)
    (h : ∀ r, (storeUpload disk targetDir filename upload conflictResolution fs).result ≠ .ok r) :
    (storeUpload disk targetDir filename upload conflictResolution fs).fs = fs := by
  rcases storeUpload_cases disk fs targetDir filename upload conflictResolution hres hname with
    ⟨-, hsame, -⟩ | ⟨name, hup, -, -, hopened, -, -, hfs, hresult⟩ | ⟨hoverwrite, -, hopened, hfs, hresult⟩
  · exact hsame
  · rw [hresult] at h
    rw [hfs]
    exact writeDirectly_refused disk fs targetDir name upload (hres.snoc hup (hopen name hopened)) h
  · rw [hresult] at h
    rw [hfs]
    exact writeReplacing_refused disk fs targetDir filename upload hres hname
      (hres.snoc (tempName_ne_up filename) (hopen _ hopened)) (hdest hoverwrite) h

end Storing

end NetworkFileServer.Server.FileService
