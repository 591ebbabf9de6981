import NetworkFileServer.Server.ReceiveScope

/-!
# The upload index stays in step with the folder

Every key of the index leads by its own components to a location where nothing is another user's. The
invariant is preserved by each request that meets its condition.
-/

namespace NetworkFileServer.Server

open FileService

variable {β : Type}

/-- Every entry of the index is true of the folder. -/
def IndexTrue (sharedFolder : Location) (owners : OwnerTable) (fs : FileSystem (Authored β)) : Prop :=
  fs.Resolved sharedFolder ∧ ∀ e ∈ owners, Belongs fs e.2 (keyLocation sharedFolder e.1)

structure ScopeInv (sharedFolder : Location) (s : ServerState β) : Prop where
  index : IndexTrue sharedFolder s.owners s.fs
  keys : (s.owners.map Prod.fst).Nodup

theorem Belongs.of_adds {fs fs' : FileSystem (Authored β)} {user : String} {l : Location}
    {P : Location → Node (Authored β) → Prop} (h : Belongs fs user l) (hadds : fs.Adds fs' P)
    (hnew : ∀ q node, P q node →
      (l <+: q → belongsTo user node = true) ∧ (q <+: l → node.isLink = false)) :
    Belongs fs' user l := by
  constructor
  · apply h.resolved.of_adds hadds
    intro q node hq hP
    exact (hnew q node hP).2 hq
  · intro x node hx
    rcases hadds _ _ hx with hold | hP
    · exact h.below x node hold
    · exact (hnew _ _ hP).1 (List.prefix_append l x)

theorem belongs_of_file {fs : FileSystem (Authored β)} {user : String} {l : Location}
    {content : Authored β} (hres : fs.Resolved l) (hget : fs.get? l = some (.file content))
    (hauthor : content.writtenBy = some user) : Belongs fs user l := by
  refine ⟨hres, ?_⟩
  intro x node hx
  have heq := fs.eq_of_below l _ (fs.isDirAt_of_get? l _ hget) (List.prefix_append l x) (by simp [hx])
  rw [heq, hget] at hx
  cases hx
  simpa [belongsTo] using hauthor

section Requests

variable (disk : Disk (Authored β)) (sharedFolder : Location)

theorem indexTrue_of_adds {owners : OwnerTable} {fs fs' : FileSystem (Authored β)}
    {P : Location → Node (Authored β) → Prop} (h : IndexTrue sharedFolder owners fs)
    (hadds : fs.Adds fs' P) (hbase : ∀ q node, q <+: sharedFolder → P q node → node.isLink = false)
    (hnew : ∀ q node, P q node → Harmless sharedFolder owners q node) :
    IndexTrue sharedFolder owners fs' := by
  constructor
  · exact h.1.of_adds hadds hbase
  · intro e he
    exact (h.2 e he).of_adds hadds fun q node hP => hnew q node hP e he

theorem deletePaths_indexTrue (owners : OwnerTable) (fs : FileSystem (Authored β))
    (paths : List String) (h : IndexTrue sharedFolder owners fs) :
    IndexTrue sharedFolder owners (deletePaths disk sharedFolder paths fs).fs := by
  apply indexTrue_of_adds sharedFolder h (deletePaths_adds disk sharedFolder fs paths)
  · intro q node _ hfalse
    exact hfalse.elim
  · intro q node hfalse
    exact hfalse.elim

theorem createFolder_indexTrue (owners : OwnerTable) (fs : FileSystem (Authored β))
    (parentPath name : String) (h : IndexTrue sharedFolder owners fs) :
    IndexTrue sharedFolder owners (createFolder disk sharedFolder parentPath name fs).fs := by
  apply indexTrue_of_adds sharedFolder h (createFolder_adds disk sharedFolder fs parentPath name)
  · intro q node _ hdir
    rw [hdir]
    rfl
  · intro q node hdir e _
    rw [hdir]
    exact ⟨fun _ => rfl, fun _ => rfl⟩

/-- A rename puts nothing on the way to the shared folder: its new path is free, and no shorter than
the path of the shared folder. -/
theorem not_moved_above (fs : FileSystem (Authored β)) (path newName : String) (q : Location)
    (node : Node (Authored β)) (hbase : fs.Resolved sharedFolder) (hq : q <+: sharedFolder) :
    ¬Moved disk sharedFolder fs path newName q node := by
  rintro ⟨hname, resolved, hsafe, hne, hfree, x, rfl, hget⟩
  have hinside := hsafe.inside (fs.resolve_of_resolved _ _ hbase)
  have hexists := fs.isSome_of_below resolved _ (List.prefix_append resolved x) (by simp [hget])
  rcases parse_of_validateName newName hname with ⟨hparts, -⟩ | ⟨hparts, -⟩
  · rw [hparts, List.append_nil, fs.locate_of_resolved _ _ hsafe.resolved.dropLast,
      (fs.isDirAt_eq_true _).mp (fs.isDirAt_dropLast resolved hexists)] at hfree
    cases hfree
  · rw [hparts] at hfree hq
    have hpre := hq.trans hinside
    have hlen := hpre.length_le
    have hpos := List.length_pos_of_ne_nil hne
    simp only [List.length_append, List.length_dropLast, List.length_singleton] at hlen
    have hx : x = [] := List.eq_nil_of_length_eq_zero (by omega)
    have heq : resolved.dropLast ++ [newName] = resolved := by
      rw [hx, List.append_nil] at hpre
      apply hpre.eq_of_length
      simp only [List.length_append, List.length_dropLast, List.length_singleton]
      omega
    rw [heq, fs.locate_of_resolved _ _ hsafe.resolved, Option.map_eq_none_iff] at hfree
    rw [hfree] at hexists
    cases hexists

theorem renamePath_indexTrue (owners : OwnerTable) (fs : FileSystem (Authored β))
    (path newName : String) (h : IndexTrue sharedFolder owners fs)
    (hcond : RenameInStep disk sharedFolder fs owners path newName) :
    IndexTrue sharedFolder owners (renamePath disk sharedFolder path newName fs).fs := by
  apply indexTrue_of_adds sharedFolder h (renamePath_adds disk sharedFolder fs path newName)
  · intro q node hq hmoved
    exact absurd hmoved (not_moved_above disk sharedFolder fs path newName q node h.1 hq)
  · rintro q node ⟨hname, resolved, hsafe, hne, hfree, x, rfl, hget⟩
    obtain ⟨e, he, hkey⟩ := fs.mem_of_get? (resolved ++ x) (by simp [hne]) (by simp [hget])
    have hharmless := hcond (by rw [hname]; rfl) resolved
      ((safeLocation_eq_some disk _ _ _ _).mpr hsafe) (by simp [hfree]) e he node
      (by rw [hkey, hget]; rfl) (by simp [hkey])
    rwa [hkey, List.drop_left] at hharmless

section Files

variable (uploader : Option String) (path : String)
  (conflictResolution : Option ConflictResolution) (owners : OwnerTable) (recorded : Bool)
  (fs : FileSystem (Authored β)) (file : String × β)

/-- The outcome of `upload_file` for one file of the request. -/
abbrev stored : Outcome (Authored β) FileError UploadResult :=
  uploadFile disk sharedFolder path ⟨file.1, ⟨file.2, uploader⟩⟩ conflictResolution fs

theorem stored_cases
    (hstep : FileInStep disk sharedFolder uploader path conflictResolution owners recorded fs file) :
    (¬Accepted disk sharedFolder path conflictResolution fs file.1 ∧
        (stored disk sharedFolder uploader path conflictResolution fs file).fs = fs ∧
        ∀ r, (stored disk sharedFolder uploader path conflictResolution fs file).result ≠ .ok r) ∨
      ∃ targetDir, SafePath disk fs sharedFolder path targetDir ∧
        (validateUploadFilename file.1).isOk = true ∧ ProperName file.1 ∧
        (Accepted disk sharedFolder path conflictResolution fs file.1 ↔
          Storable disk fs targetDir file.1 conflictResolution) ∧
        Stored disk fs targetDir file.1 ⟨file.1, ⟨file.2, uploader⟩⟩ conflictResolution
          (stored disk sharedFolder uploader path conflictResolution fs file) := by
  rcases uploadFile_cases disk sharedFolder fs path ⟨file.1, ⟨file.2, uploader⟩⟩ conflictResolution with
    ⟨hfs, hresult, hrefused⟩ | ⟨targetDir, hpath, hok, hproper, hfs, hresult⟩
  · refine .inl ⟨?_, hfs, hresult⟩
    rintro ⟨hok, targetDir, hmem, -⟩
    rw [hrefused hok] at hmem
    cases hmem
  · right
    have hsafe := (safeLocation_eq_some disk _ _ _ _).mpr hpath
    have hstored := storeUpload_stored disk fs targetDir file.1 ⟨file.1, ⟨file.2, uploader⟩⟩
      conflictResolution hpath.resolved hproper.2.2.1 (hstep hok targetDir hsafe).1
    refine ⟨targetDir, hpath, hok, hproper, ?_, ?_⟩
    · constructor
      · rintro ⟨-, dir, hmem, hstorable⟩
        rw [hsafe] at hmem
        cases hmem
        exact hstorable
      · intro hstorable
        exact ⟨hok, targetDir, hsafe, hstorable⟩
    · constructor
      · rw [stored, hfs]
        exact hstored.adds
      · rw [stored, hfs, hresult]
        exact hstored.returns
      · rw [stored, hresult]
        exact hstored.accepts

variable (hstep : FileInStep disk sharedFolder uploader path conflictResolution owners recorded fs
  file)

include hstep

theorem stored_accepted :
    (∃ r, (stored disk sharedFolder uploader path conflictResolution fs file).result = .ok r) ↔
      Accepted disk sharedFolder path conflictResolution fs file.1 := by
  rcases stored_cases disk sharedFolder uploader path conflictResolution owners recorded fs file
    hstep with ⟨hnot, -, hresult⟩ | ⟨targetDir, -, -, -, haccepted, hstored⟩
  · constructor
    · rintro ⟨r, hr⟩
      exact absurd hr (hresult r)
    · intro h
      exact absurd h hnot
  · rw [hstored.accepts, haccepted]

theorem stored_adds :
    fs.Adds (stored disk sharedFolder uploader path conflictResolution fs file).fs
      fun _ node => node = .file ⟨file.2, uploader⟩ := by
  rcases stored_cases disk sharedFolder uploader path conflictResolution owners recorded fs file
    hstep with ⟨-, hfs, -⟩ | ⟨targetDir, -, -, -, -, hstored⟩
  · rw [hfs]
    exact FileSystem.Adds.refl fs _
  · apply hstored.adds.mono
    rintro q node ⟨name, -, -, hnode⟩
    exact hnode

theorem stored_resolved (l : Location) (hres : fs.Resolved l) :
    (stored disk sharedFolder uploader path conflictResolution fs file).fs.Resolved l := by
  apply hres.of_adds (stored_adds disk sharedFolder uploader path conflictResolution owners recorded
    fs file hstep)
  intro q node _ hnode
  rw [hnode]
  rfl

theorem stored_uploader (user : String) (huser : uploader = some user) (l : Location)
    (h : Belongs fs user l) :
    Belongs (stored disk sharedFolder uploader path conflictResolution fs file).fs user l := by
  apply h.of_adds (stored_adds disk sharedFolder uploader path conflictResolution owners recorded fs
    file hstep)
  intro q node hnode
  rw [hnode]
  exact ⟨fun _ => by simp [belongsTo, huser], fun _ => rfl⟩

theorem stored_entry (e : String × String) (he : e ∈ owners)
    (hrecorded : recorded = true → Accepted disk sharedFolder path conflictResolution fs file.1)
    (h : Belongs fs e.2 (keyLocation sharedFolder e.1)) :
    Belongs (stored disk sharedFolder uploader path conflictResolution fs file).fs e.2
        (keyLocation sharedFolder e.1) ∨
      recorded = true ∧ ∃ r,
        (stored disk sharedFolder uploader path conflictResolution fs file).result = .ok r ∧
          e.1 = relKey path r.name := by
  have haccepts := stored_accepted disk sharedFolder uploader path conflictResolution owners recorded
    fs file hstep
  rcases stored_cases disk sharedFolder uploader path conflictResolution owners recorded fs file
    hstep with ⟨-, hfs, -⟩ | ⟨targetDir, hsafe, hok, -, -, hstored⟩
  · left
    rw [hfs]
    exact h
  · obtain ⟨-, hlands, -⟩ := hstep hok targetDir ((safeLocation_eq_some disk _ _ _ _).mpr hsafe)
    by_cases hkey : recorded = true ∧
        ∃ name ∈ landing disk fs targetDir file.1 conflictResolution, e.1 = relKey path name
    · right
      obtain ⟨hrec, name, hname, hkey⟩ := hkey
      obtain ⟨r, hr⟩ := haccepts.mpr (hrecorded hrec)
      refine ⟨hrec, r, hr, ?_⟩
      rcases hstored.returns r hr with ⟨htaken, hskip, -, -⟩ | ⟨hland, -⟩
      · -- Nothing lands when the upload is skipped.
        rw [hskip, landing, if_pos htaken] at hname
        cases hname
      · rw [Option.mem_def, hland] at hname
        rw [hkey, ← Option.some.inj hname]
    · left
      apply h.of_adds hstored.adds
      rintro q node ⟨name, hname, rfl, rfl⟩
      apply hlands name hname e
      rw [remaining, List.mem_filter]
      refine ⟨he, ?_⟩
      by_contra hnot
      have hexempt : recorded = true ∧ e.1 = relKey path name := by simpa using hnot
      exact hkey ⟨hexempt.1, name, hname, hexempt.2⟩

/-- What is recorded for the file is true, and its key is one that `_norm` leaves as it is. -/
theorem stored_recorded (user : String) (huser : uploader = some user) (hrec : recorded = true)
    (r : UploadResult)
    (hr : (stored disk sharedFolder uploader path conflictResolution fs file).result = .ok r) :
    Belongs (stored disk sharedFolder uploader path conflictResolution fs file).fs user
        (keyLocation sharedFolder (relKey path r.name)) ∧
      r.name ≠ "" ∧ UploadIndex.norm (relKey path r.name) = .ok (relKey path r.name) := by
  have hresolved := stored_resolved disk sharedFolder uploader path conflictResolution owners recorded
    fs file hstep
  rcases stored_cases disk sharedFolder uploader path conflictResolution owners recorded fs file
    hstep with ⟨-, -, hresult⟩ | ⟨targetDir, hsafe, hok, hproper, -, hstored⟩
  · exact absurd hr (hresult r)
  obtain ⟨-, -, htruth⟩ := hstep hok targetDir ((safeLocation_eq_some disk _ _ _ _).mpr hsafe)
  obtain ⟨hdir, hstrip, hskips⟩ := htruth hrec
  have hslash : Text.startsWith path "/" = false := hsafe.not_absolute
  -- The name is the file's own or the landing name, and the folder has the uploader's content there.
  have hname : ProperName r.name ∧
      reported disk conflictResolution fs targetDir file.1 = some r.name ∧
      Belongs (stored disk sharedFolder uploader path conflictResolution fs file).fs user
        (targetDir ++ [r.name]) := by
    rcases hstored.returns r hr with ⟨htaken, hskip, hrname, hfs⟩ | ⟨hland, hget⟩
    · refine ⟨hrname ▸ hproper, ?_, ?_⟩
      · rw [reported, if_pos ⟨htaken, hskip⟩, hrname]
      · rw [hfs, hrname]
        have hbelow : ∀ x node, fs.get? (targetDir ++ [file.1] ++ x) = some node →
            belongsTo user node = true := by
          intro x node hx
          obtain ⟨e, he, hkey⟩ := fs.mem_of_get? (targetDir ++ [file.1] ++ x) (by simp)
            (by rw [hx]; rfl)
          obtain ⟨user', huser', hbelongs⟩ := hskips htaken hskip e he node (by rw [hkey, hx]; rfl)
            (by rw [hkey]; exact List.prefix_append _ _)
          rw [huser] at huser'
          cases huser'
          exact hbelongs
        refine ⟨hsafe.resolved.snoc hproper.2.2.1 ?_, hbelow⟩
        cases hnode : fs.get? (targetDir ++ [file.1]) with
        | none => rfl
        | some node =>
            have hbelongs := hbelow [] node (by rwa [List.append_nil])
            cases node with
            | link target => cases hbelongs
            | file _ | dir => rfl
    · have hrname := properName_of_landing disk fs conflictResolution targetDir file.1 r.name hproper
        hland
      refine ⟨hrname, ?_, ?_⟩
      · have hnot : ¬(Taken disk fs targetDir file.1 ∧ conflictResolution = some .skip) := by
          rintro ⟨htaken, hskip⟩
          rw [hskip, landing, if_pos htaken] at hland
          cases hland
        rw [reported, if_neg hnot]
        exact hland
      · apply belongs_of_file _ hget huser
        apply (hresolved targetDir hsafe.resolved).snoc hrname.2.2.1
        rw [hget]
        rfl
  obtain ⟨hrname, hreported, hbelongs⟩ := hname
  have hparts := parts_relKey path r.name hslash hrname
  refine ⟨?_, hrname.1, ?_⟩
  · rw [keyLocation, hparts, ← List.append_assoc]
    rw [hdir, keyLocation] at hbelongs
    exact hbelongs
  · apply norm_of_stripped
    · intro hempty
      rw [hempty] at hparts
      have hlen := congrArg List.length hparts
      simp [PurePath.parse] at hlen
    · exact relKey_not_absolute path r.name hslash hrname
    · exact hstrip r.name hreported

end Files

section Uploads

variable (uploader : Option String) (path : String)
  (conflictResolution : Option ConflictResolution) (owners : OwnerTable)

/-- The loop over the files returns exactly when every file is stored. -/
theorem storeFiles_accepted (recorded : Bool) (fs : FileSystem (Authored β))
    (files : List (String × β))
    (hsteps : FilesInStep disk sharedFolder uploader path conflictResolution owners recorded fs
      files) :
    (∃ results,
        (storeFiles disk sharedFolder uploader path files conflictResolution fs).result =
          .ok results) ↔
      AllAccepted disk sharedFolder uploader path conflictResolution fs files := by
  induction files generalizing fs with
  | nil => exact iff_of_true ⟨[], rfl⟩ trivial
  | cons file files ih =>
      obtain ⟨hfile, hrest⟩ := hsteps
      have haccepts := stored_accepted disk sharedFolder uploader path conflictResolution owners
        recorded fs file hfile
      constructor
      · rintro ⟨results, hresults⟩
        obtain ⟨r, rs, fs', hr, hrs, -⟩ :=
          (FileM.returns_forEach_cons _ fs file files results _).mp ⟨hresults, rfl⟩
        have haccepted := haccepts.mp ⟨r, hr.1⟩
        have hfs : (stored disk sharedFolder uploader path conflictResolution fs file).fs = fs' := hr.2
        refine ⟨haccepted, (ih _ (hrest haccepted)).mp ⟨rs, ?_⟩⟩
        rw [afterFile, hfs]
        exact hrs.1
      · rintro ⟨haccepted, hall⟩
        obtain ⟨r, hr⟩ := haccepts.mpr haccepted
        obtain ⟨rs, hrs⟩ := (ih _ (hrest haccepted)).mpr hall
        refine ⟨r :: rs, ?_⟩
        exact ((FileM.returns_forEach_cons _ fs file files _ _).mpr
          ⟨r, rs, _, ⟨hr, rfl⟩, ⟨hrs, rfl⟩, rfl⟩).1

theorem storeFiles_unrecorded (fs : FileSystem (Authored β)) (files : List (String × β))
    (h : IndexTrue sharedFolder owners fs)
    (hsteps : FilesInStep disk sharedFolder uploader path conflictResolution owners false fs files) :
    IndexTrue sharedFolder owners
      (storeFiles disk sharedFolder uploader path files conflictResolution fs).fs := by
  induction files generalizing fs with
  | nil => exact h
  | cons file files ih =>
      obtain ⟨hfile, hrest⟩ := hsteps
      have hnext : IndexTrue sharedFolder owners
          (stored disk sharedFolder uploader path conflictResolution fs file).fs := by
        constructor
        · exact stored_resolved disk sharedFolder uploader path conflictResolution owners false fs
            file hfile sharedFolder h.1
        · intro e he
          have hentry := stored_entry disk sharedFolder uploader path conflictResolution owners false
            fs file hfile e he (by simp) (h.2 e he)
          exact hentry.resolve_right fun hrec => absurd hrec.1 (by simp)
      apply FileM.leaves_forEach_cons (fun file : String × β => uploadFile disk sharedFolder path
        ⟨file.1, ⟨file.2, uploader⟩⟩ conflictResolution) fs (IndexTrue sharedFolder owners) file files
        hnext
      intro r fs' hret
      have haccepted := (stored_accepted disk sharedFolder uploader path conflictResolution owners
        false fs file hfile).mp ⟨r, hret.1⟩
      rw [← hret.2]
      exact ih _ hnext (hrest haccepted)

/-- Between the files of a recorded request: the entries are true but for the keys that are still to
be recorded, and at those keys is content of the uploader. -/
structure Midway (user : String) (keys : List String) (fs : FileSystem (Authored β)) : Prop where
  base : fs.Resolved sharedFolder
  others : ∀ e ∈ owners, e.1 ∉ keys → Belongs fs e.2 (keyLocation sharedFolder e.1)
  own : ∀ key ∈ keys, Belongs fs user (keyLocation sharedFolder key)

theorem storeFiles_recorded (user : String) (huser : uploader = some user) (keys : List String)
    (fs : FileSystem (Authored β)) (files : List (String × β)) (results : List UploadResult)
    (h : Midway sharedFolder owners user keys fs)
    (hsteps : FilesInStep disk sharedFolder uploader path conflictResolution owners true fs files)
    (hresults : (storeFiles disk sharedFolder uploader path files conflictResolution fs).result =
      .ok results) :
    Midway sharedFolder owners user (keys ++ results.map fun r => relKey path r.name)
        (storeFiles disk sharedFolder uploader path files conflictResolution fs).fs ∧
      ∀ r ∈ results, r.name ≠ "" ∧
        UploadIndex.norm (relKey path r.name) = .ok (relKey path r.name) := by
  induction files generalizing fs keys results with
  | nil =>
      obtain rfl : [] = results := Except.ok.inj hresults
      rw [List.map_nil, List.append_nil]
      exact ⟨h, by simp⟩
  | cons file files ih =>
      obtain ⟨hfile, hrest⟩ := hsteps
      obtain ⟨r, rs, fs', hr, hrs, rfl⟩ :=
        (FileM.returns_forEach_cons _ fs file files results _).mp ⟨hresults, rfl⟩
      have haccepted := (stored_accepted disk sharedFolder uploader path conflictResolution owners
        true fs file hfile).mp ⟨r, hr.1⟩
      obtain ⟨hbelongs, hname⟩ := stored_recorded disk sharedFolder uploader path conflictResolution
        owners true fs file hfile user huser rfl r hr.1
      have hnext : Midway sharedFolder owners user (keys ++ [relKey path r.name])
          (stored disk sharedFolder uploader path conflictResolution fs file).fs := by
        constructor
        · exact stored_resolved disk sharedFolder uploader path conflictResolution owners true fs file
            hfile sharedFolder h.base
        · intro e he hkey
          rw [List.mem_append, List.mem_singleton, not_or] at hkey
          have hentry := stored_entry disk sharedFolder uploader path conflictResolution owners true
            fs file hfile e he (fun _ => haccepted) (h.others e he hkey.1)
          apply hentry.resolve_right
          rintro ⟨-, r', hr', hkey'⟩
          obtain rfl : r = r' := Except.ok.inj (hr.1.symm.trans hr')
          exact hkey.2 hkey'
        · intro key hkey
          rcases List.mem_append.mp hkey with hkey | hkey
          · exact stored_uploader disk sharedFolder uploader path conflictResolution owners true fs
              file hfile user huser _ (h.own key hkey)
          · rw [List.mem_singleton.mp hkey]
            exact hbelongs
      have hfs : (stored disk sharedFolder uploader path conflictResolution fs file).fs = fs' := hr.2
      have hstore : (storeFiles disk sharedFolder uploader path files conflictResolution
          (afterFile disk sharedFolder uploader path conflictResolution fs file)).result = .ok rs := by
        rw [afterFile, hfs]
        exact hrs.1
      obtain ⟨hmid, hnames⟩ := ih _ _ rs hnext (hrest haccepted) hstore
      have hfinal : (storeFiles disk sharedFolder uploader path (file :: files) conflictResolution
          fs).fs = (storeFiles disk sharedFolder uploader path files conflictResolution
            (afterFile disk sharedFolder uploader path conflictResolution fs file)).fs := by
        rw [afterFile, hfs]
        exact hrs.2.symm
      constructor
      · rw [List.append_assoc] at hmid
        rw [hfinal]
        exact hmid
      · exact List.forall_mem_cons.mpr ⟨hname, hnames⟩

end Uploads

theorem recordResults_of_no_user (path : String) (table : OwnerTable)
    (results : List UploadResult) : (recordResults "" path table results).2 = table := by
  induction results with
  | nil => rfl
  | cons r results ih =>
      rw [recordResults]
      split
      · exact ih
      · rfl

theorem mem_recordResults (user path : String) (table : OwnerTable) (results : List UploadResult)
    (huser : user ≠ "") (hkeys : (table.map Prod.fst).Nodup)
    (hresults : ∀ r ∈ results, r.name ≠ "" ∧
      UploadIndex.norm (relKey path r.name) = .ok (relKey path r.name)) :
    ((recordResults user path table results).2.map Prod.fst).Nodup ∧
      ∀ e ∈ (recordResults user path table results).2,
        (∃ r ∈ results, e = (relKey path r.name, user)) ∨
          e ∈ table ∧ ∀ r ∈ results, e.1 ≠ relKey path r.name := by
  induction results generalizing table with
  | nil => exact ⟨hkeys, fun e he => .inr ⟨he, by simp⟩⟩
  | cons r results ih =>
      obtain ⟨⟨hname, hnorm⟩, hrest⟩ := List.forall_mem_cons.mp hresults
      have hset : UploadIndex.recordUpload table (relKey path r.name) user =
          .ok (OrderedDict.set table (relKey path r.name) user) := by
        rw [UploadIndex.recordUpload, if_neg huser, hnorm]
        rfl
      have hstep : recordResults user path table (r :: results) =
          recordResults user path (OrderedDict.set table (relKey path r.name) user) results := by
        rw [recordResults, if_neg hname, hset]
      obtain ⟨hnodup, hmem⟩ := ih _ (OrderedDict.nodup_set table (relKey path r.name) user hkeys) hrest
      rw [hstep]
      refine ⟨hnodup, ?_⟩
      intro e he
      rcases hmem e he with ⟨r', hr', heq⟩ | ⟨hset, hother⟩
      · exact .inl ⟨r', List.mem_cons_of_mem _ hr', heq⟩
      · rcases OrderedDict.mem_set_of_nodup table _ user e hkeys hset with heq | ⟨htable, hne⟩
        · exact .inl ⟨r, List.mem_cons_self, heq⟩
        · exact .inr ⟨htable, List.forall_mem_cons.mpr ⟨hne, hother⟩⟩

theorem uploadFiles_scopeInv (s : ServerState β) (uploader : Option String) (path : String)
    (files : List (String × β)) (conflictResolution : Option ConflictResolution)
    (hinv : ScopeInv sharedFolder s)
    (hcond : InStep disk sharedFolder s (.uploadFiles uploader path files conflictResolution)) :
    ScopeInv sharedFolder
      (uploadFiles disk sharedFolder uploader path files conflictResolution s).2 := by
  have haccepts := storeFiles_accepted disk sharedFolder uploader path conflictResolution s.owners _
    s.fs files hcond
  have hunrecorded : (uploader.any (· ≠ "") && decide
      (AllAccepted disk sharedFolder uploader path conflictResolution s.fs files)) = false →
      IndexTrue sharedFolder s.owners
        (storeFiles disk sharedFolder uploader path files conflictResolution s.fs).fs := by
    intro hrec
    rw [InStep, hrec] at hcond
    exact storeFiles_unrecorded disk sharedFolder uploader path conflictResolution s.owners s.fs files
      hinv.index hcond
  cases hresult : (storeFiles disk sharedFolder uploader path files conflictResolution s.fs).result with
  | error e =>
      have hnot : ¬AllAccepted disk sharedFolder uploader path conflictResolution s.fs files := by
        intro hall
        obtain ⟨results, hresults⟩ := haccepts.mpr hall
        rw [hresult] at hresults
        cases hresults
      simp only [uploadFiles, hresult]
      exact ⟨hunrecorded (by simp [hnot]), hinv.keys⟩
  | ok results =>
      cases uploader with
      | none =>
          simp only [uploadFiles, hresult]
          exact ⟨hunrecorded (by simp), hinv.keys⟩
      | some user =>
          simp only [uploadFiles, hresult]
          by_cases huser : user = ""
          · subst huser
            rw [recordResults_of_no_user]
            exact ⟨hunrecorded (by simp), hinv.keys⟩
          · have hall := haccepts.mp ⟨results, hresult⟩
            have hrec : ((some user).any (· ≠ "") && decide
                (AllAccepted disk sharedFolder (some user) path conflictResolution s.fs files)) = true := by
              simp [huser, hall]
            rw [InStep, hrec] at hcond
            have hstart : Midway sharedFolder s.owners user [] s.fs :=
              ⟨hinv.index.1, fun e he _ => hinv.index.2 e he, by simp⟩
            obtain ⟨hmid, hresults⟩ := storeFiles_recorded disk sharedFolder (some user) path
              conflictResolution s.owners user rfl [] s.fs files results hstart hcond hresult
            obtain ⟨hnodup, hmem⟩ := mem_recordResults user path s.owners results huser hinv.keys hresults
            refine ⟨⟨hmid.base, ?_⟩, hnodup⟩
            intro e he
            rcases hmem e he with ⟨r, hr, rfl⟩ | ⟨hold, hother⟩
            · exact hmid.own _ (by simpa using ⟨r, hr, rfl⟩)
            · apply hmid.others e hold
              intro hkey
              obtain ⟨r, hr, heq⟩ := List.mem_map.mp (by simpa using hkey)
              exact hother r hr heq.symm

theorem serve_scopeInv (s : ServerState β) (request : Request β) (hinv : ScopeInv sharedFolder s)
    (hcond : InStep disk sharedFolder s request) :
    ScopeInv sharedFolder (serve disk sharedFolder s request) := by
  cases request with
  | uploadFiles uploader path files conflictResolution =>
      exact uploadFiles_scopeInv disk sharedFolder s uploader path files conflictResolution hinv hcond
  | shareUpload uploader files =>
      simp only [serve, shareUpload]
      split
      · exact hinv
      · exact ⟨storeFiles_unrecorded disk sharedFolder uploader "" (some .rename) s.owners s.fs files
          hinv.index hcond, hinv.keys⟩
  | deleteFiles paths =>
      exact ⟨deletePaths_indexTrue disk sharedFolder s.owners s.fs paths hinv.index, hinv.keys⟩
  | renameFile path newName =>
      exact ⟨renamePath_indexTrue disk sharedFolder s.owners s.fs path newName hinv.index hcond,
        hinv.keys⟩
  | createNewFolder parentPath name =>
      exact ⟨createFolder_indexTrue disk sharedFolder s.owners s.fs parentPath name hinv.index,
        hinv.keys⟩

/-- In a run whose requests all meet their condition, the index is in step with the folder. -/
theorem run_scopeInv (start final : ServerState β) (requests : List (Request β))
    (hstart : ScopeInv sharedFolder start)
    (hguard : TransitionSystem.Guarded (requestStep disk sharedFolder) (InStep disk sharedFolder)
      start requests)
    (hrun : TransitionSystem.run (requestStep disk sharedFolder) start requests = some final) :
    ScopeInv sharedFolder final := by
  apply TransitionSystem.run_invariant_of_guarded _ _ _ _ hstart hguard hrun
  intro s request t hinv hcond ht
  cases ht
  exact serve_scopeInv disk sharedFolder s request hinv hcond

end Requests

end NetworkFileServer.Server
