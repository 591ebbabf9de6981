import NetworkFileServer.Framework.TransitionSystem
import NetworkFileServer.Relay.DropBoxRecords

/-!
# Every file with a TTL keeps its row

A row leads to its file for as long as the directories and links on the way stay and the file is there. An
upload adds a row for each file that it leaves, and a row goes only together with its file.
-/

namespace NetworkFileServer.Relay.TtlStore

open Server Server.FileService

section

variable (disk : Disk (Option Int)) (dropboxDir : List String) (dropboxCode : Code)

section Removing

variable {fs : FileSystem (Option Int)} (row : FileTtlRow)

theorem contentAt_eq_some (content : Option Int) :
    contentAt disk dropboxDir fs row = some content ↔
      ∃ l, fs.locate disk.limits (fullPath dropboxDir row) = some (l, .file content) := by
  unfold contentAt
  split
  · rename_i l found hlocate
    rw [hlocate]
    simp
  · rename_i hnot
    constructor
    · intro h
      cases h
    · rintro ⟨l, hl⟩
      exact absurd hl (hnot l content)

theorem EndsPlainly.of_sub {fs' : FileSystem (Option Int)}
    (hsub : ∀ q node, fs'.get? q = some node → fs.get? q = some node) {row : FileTtlRow}
    (h : EndsPlainly disk dropboxDir fs row) : EndsPlainly disk dropboxDir fs' row := by
  intro hsome e he
  obtain ⟨⟨l, node⟩, hl⟩ := Option.isSome_iff_exists.mp hsome
  have hplain := h (by rw [FileSystem.locate_of_sub hsub _ _ _ _ hl]; rfl) e
    (FileSystem.locateEntry_of_sub hsub _ _ _ he)
  cases hnode : fs'.get? e with
  | none => rfl
  | some found =>
      rw [hsub e found hnode] at hplain
      exact hplain

theorem removeExpired_keepsWays (refuses : Bool) (h : EndsPlainly disk dropboxDir fs row) :
    fs.KeepsWays (removeExpired disk dropboxDir refuses row fs).fs := by
  rw [(removeExpired_outcome disk dropboxDir refuses row fs).1]
  split
  · rename_i hremoves
    have hplain := h hremoves.1
    unfold FileM.remove
    cases hentry : fs.locateEntry disk.limits (fullPath dropboxDir row) with
    | none => exact FileSystem.KeepsWays.refl fs
    | some e =>
        have hlink := hplain e hentry
        cases hnode : fs.get? e with
        | none => simp only [hnode]; exact FileSystem.KeepsWays.refl fs
        | some node =>
            cases node with
            | dir => simp only [hnode]; exact FileSystem.KeepsWays.refl fs
            | link target => simp [hnode, Node.isLink] at hlink
            | file content => simp only [hnode]; exact FileSystem.keepsWays_erase e content hnode
  · exact FileSystem.KeepsWays.refl fs

theorem removeExpired_removes (l : Location) (content : Option Int) (h : EndsPlainly disk dropboxDir fs row)
    (hlocate : fs.locate disk.limits (fullPath dropboxDir row) = some (l, .file content)) :
    (removeExpired disk dropboxDir false row fs).fs.get? l = none ∧
      (removeExpired disk dropboxDir false row fs).result = .ok true := by
  have hsome : (fs.locate disk.limits (fullPath dropboxDir row)).isSome = true := by simp [hlocate]
  have hget := ((FileSystem.locate_eq_some _ _ _ _).mp hlocate).2
  obtain ⟨e, hentry⟩ := FileSystem.exists_entry _ _ l _ hlocate rfl
  obtain rfl := FileSystem.eq_entry_of_locate _ _ l e _ hlocate hentry (h hsome e hentry)
  have hremove : FileM.remove disk.limits (fullPath dropboxDir row) fs =
      ⟨.ok (), fs.erase l, [.remove l]⟩ := by
    simp [FileM.remove, hentry, hget]
  have hroot : l ≠ [] := by
    rintro rfl
    rw [FileSystem.get?_nil] at hget
    cases hget
  obtain ⟨hfs, hresult⟩ := removeExpired_outcome disk dropboxDir false row fs
  rw [hfs, hresult, if_pos ⟨hsome, rfl⟩, if_pos hsome, hremove]
  constructor
  · rw [FileSystem.get?_erase, if_pos ⟨List.prefix_refl l, hroot⟩]
  · rfl

end Removing

section Sweeping

variable (refuses : FileTtlRow → Bool)

theorem sweepRow_sub (s : TtlStore (Option Int)) (row : FileTtlRow) (q : Location) (node : Node (Option Int))
    (h : (sweepRow disk dropboxDir dropboxCode refuses s row).fs.get? q = some node) :
    s.fs.get? q = some node := by
  unfold sweepRow at h
  dsimp only at h
  split at h
  · exact removeExpired_sub disk dropboxDir (refuses row) row s.fs q node h
  · exact h

theorem SweepRemoves.of_sub {fs fs' : FileSystem (Option Int)}
    (hsub : ∀ q node, fs'.get? q = some node → fs.get? q = some node) {row : FileTtlRow}
    (h : SweepRemoves disk dropboxDir refuses fs row) : SweepRemoves disk dropboxDir refuses fs' row := by
  refine ⟨h.1.of_sub disk dropboxDir hsub, ?_⟩
  intro httl
  obtain ⟨content, hcontent, hpos⟩ := (Option.any_eq_true _ _).mp httl
  have hbefore := contentAt_of_sub disk dropboxDir fs fs' hsub row content hcontent
  exact h.2 ((Option.any_eq_true _ _).mpr ⟨content, hbefore, hpos⟩)

theorem recorded_sweepRow (s : TtlStore (Option Int)) (row : FileTtlRow)
    (h : s.Recorded disk dropboxDir dropboxCode)
    (hrow : row.mountCode = dropboxCode → SweepRemoves disk dropboxDir refuses s.fs row) :
    (sweepRow disk dropboxDir dropboxCode refuses s row).Recorded disk dropboxDir dropboxCode := by
  intro l ttl hget hpos
  have hbefore := sweepRow_sub disk dropboxDir dropboxCode refuses s row l _ hget
  obtain ⟨kept, hkept, hcode, hleads⟩ := h l ttl hbefore hpos
  have hstays : s.fs.KeepsWays (sweepRow disk dropboxDir dropboxCode refuses s row).fs := by
    unfold sweepRow
    dsimp only
    split
    · rename_i hours
      exact removeExpired_keepsWays disk dropboxDir row (refuses row) (hrow hours).1
    · exact FileSystem.KeepsWays.refl s.fs
  have hother : ¬(kept.mountCode = row.mountCode ∧ kept.filePath = row.filePath) := by
    rintro ⟨hsameCode, hsamePath⟩
    have hours : row.mountCode = dropboxCode := hsameCode.symm.trans hcode
    have hpath : fullPath dropboxDir row = fullPath dropboxDir kept := by
      unfold fullPath
      rw [hsamePath]
    rw [← hpath] at hleads
    obtain ⟨hplain, hremoves⟩ := hrow hours
    have hcontent := (contentAt_eq_some disk dropboxDir row (some ttl)).mpr ⟨l, hleads⟩
    have hallowed : refuses row = false := hremoves (by simp [hcontent, hpos])
    have hgone := (removeExpired_removes disk dropboxDir row l (some ttl) hplain hleads).1
    rw [sweepRow, if_pos hours, hallowed, hgone] at hget
    cases hget
  refine ⟨kept, List.mem_filter.mpr ⟨hkept, decide_eq_true hother⟩, hcode, ?_⟩
  exact hstays.locate disk.limits _ l _ _ hleads hget rfl

theorem recorded_sweepRows (s : TtlStore (Option Int)) (rows : List FileTtlRow)
    (h : s.Recorded disk dropboxDir dropboxCode)
    (hrows : ∀ row ∈ rows, row.mountCode = dropboxCode →
      SweepRemoves disk dropboxDir refuses s.fs row) :
    (rows.foldl (sweepRow disk dropboxDir dropboxCode refuses) s).Recorded disk dropboxDir dropboxCode := by
  induction rows generalizing s with
  | nil => exact h
  | cons row rows ih =>
      obtain ⟨hrow, hrest⟩ := List.forall_mem_cons.mp hrows
      apply ih _ (recorded_sweepRow disk dropboxDir dropboxCode refuses s row h hrow)
      intro row' hrow' hours
      apply (hrest row' hrow' hours).of_sub disk dropboxDir refuses
      exact sweepRow_sub disk dropboxDir dropboxCode refuses s row

theorem BootRemoves.of_sub {fs fs' : FileSystem (Option Int)}
    (hsub : ∀ q node, fs'.get? q = some node → fs.get? q = some node) {row : FileTtlRow}
    (h : BootRemoves disk dropboxDir refuses fs row) : BootRemoves disk dropboxDir refuses fs' row := by
  refine ⟨h.1.of_sub disk dropboxDir hsub, ?_⟩
  intro hsome
  obtain ⟨⟨l, node⟩, hl⟩ := Option.isSome_iff_exists.mp hsome
  have hbefore := FileSystem.locate_of_sub hsub _ _ _ _ hl
  obtain ⟨hcontent, hallowed⟩ := h.2 (by rw [hbefore]; rfl)
  obtain ⟨content, hcontent⟩ := Option.isSome_iff_exists.mp hcontent
  obtain ⟨l', hl'⟩ := (contentAt_eq_some disk dropboxDir row content).mp hcontent
  rw [hbefore] at hl'
  obtain ⟨rfl, rfl⟩ := Prod.mk.inj (Option.some.inj hl')
  rw [(contentAt_eq_some disk dropboxDir row content).mpr ⟨l, hl⟩]
  exact ⟨rfl, hallowed⟩

theorem removeExpired_boot (fs : FileSystem (Option Int)) (row : FileTtlRow)
    (h : BootRemoves disk dropboxDir refuses fs row) :
    (∃ b, (removeExpired disk dropboxDir (refuses row) row fs).result = .ok b) ∧
      ∀ l content, fs.locate disk.limits (fullPath dropboxDir row) = some (l, .file content) →
        (removeExpired disk dropboxDir (refuses row) row fs).fs.get? l = none := by
  cases hlocate : fs.locate disk.limits (fullPath dropboxDir row) with
  | none =>
      constructor
      · rw [(removeExpired_outcome disk dropboxDir (refuses row) row fs).2]
        exact ⟨false, by simp [hlocate]⟩
      · intro l content hl
        cases hl
  | some found =>
      obtain ⟨hcontent, hallowed⟩ := h.2 (by rw [hlocate]; rfl)
      obtain ⟨content, hcontent⟩ := Option.isSome_iff_exists.mp hcontent
      obtain ⟨l, hl⟩ := (contentAt_eq_some disk dropboxDir row content).mp hcontent
      obtain ⟨hgone, hresult⟩ := removeExpired_removes disk dropboxDir row l content h.1 hl
      rw [hallowed]
      refine ⟨⟨true, hresult⟩, ?_⟩
      intro l' content' hl'
      rw [← hlocate, hl] at hl'
      obtain ⟨rfl, -⟩ := Prod.mk.inj (Option.some.inj hl')
      exact hgone

theorem bootFiles_removes (fs : FileSystem (Option Int)) (rows : List FileTtlRow)
    (h : ∀ row ∈ rows, BootRemoves disk dropboxDir refuses fs row) :
    fs.KeepsWays (bootFiles disk dropboxDir refuses fs rows) ∧
      (∀ q node, (bootFiles disk dropboxDir refuses fs rows).get? q = some node →
        fs.get? q = some node) ∧
      ∀ row ∈ rows, ∀ l content,
        fs.locate disk.limits (fullPath dropboxDir row) = some (l, .file content) →
          (bootFiles disk dropboxDir refuses fs rows).get? l = none := by
  induction rows generalizing fs with
  | nil => exact ⟨FileSystem.KeepsWays.refl fs, fun _ _ hq => hq, by simp⟩
  | cons row rows ih =>
      obtain ⟨hrow, hrest⟩ := List.forall_mem_cons.mp h
      obtain ⟨⟨b, hresult⟩, hgone⟩ := removeExpired_boot disk dropboxDir refuses fs row hrow
      have hkeeps := removeExpired_keepsWays disk dropboxDir row (refuses row) hrow.1
      have hsub := removeExpired_sub disk dropboxDir (refuses row) row fs
      obtain ⟨hrestKeeps, hrestSub, hrestGone⟩ := ih (removeExpired disk dropboxDir (refuses row) row fs).fs
        fun row' hrow' => (hrest row' hrow').of_sub disk dropboxDir refuses hsub
      have hstep : bootFiles disk dropboxDir refuses fs (row :: rows) =
          bootFiles disk dropboxDir refuses (removeExpired disk dropboxDir (refuses row) row fs).fs rows := by
        simp only [bootFiles, hresult]
      rw [hstep]
      refine ⟨hkeeps.trans hrestKeeps, fun q node hq => hsub q node (hrestSub q node hq), ?_⟩
      intro row' hrow' l content hl
      cases hafter : (removeExpired disk dropboxDir (refuses row) row fs).fs.get? l with
      | none =>
          -- what is gone stays gone
          cases hend : (bootFiles disk dropboxDir refuses
              (removeExpired disk dropboxDir (refuses row) row fs).fs rows).get? l with
          | none => rfl
          | some node =>
              rw [hrestSub l node hend] at hafter
              cases hafter
      | some node =>
          rcases List.mem_cons.mp hrow' with rfl | hlater
          · rw [hgone l content hl] at hafter
            cases hafter
          · have hget := hsub l node hafter
            rw [((FileSystem.locate_eq_some _ _ _ _).mp hl).2] at hget
            obtain rfl := Option.some.inj hget
            exact hrestGone row' hlater l content (hkeeps.locate disk.limits _ l _ _ hl hafter rfl)

theorem recorded_bootCleanup (s : TtlStore (Option Int)) (now : Int)
    (h : s.Recorded disk dropboxDir dropboxCode)
    (hrows : ∀ row ∈ s.table.filter (FileTtlTable.expiredFor (some dropboxCode) now),
      BootRemoves disk dropboxDir refuses s.fs row) :
    (s.bootCleanup disk dropboxDir dropboxCode now refuses).Recorded disk dropboxDir dropboxCode := by
  obtain ⟨hkeeps, hsub, hgone⟩ := bootFiles_removes disk dropboxDir refuses s.fs _ hrows
  intro l ttl hget hpos
  obtain ⟨row, hrow, hcode, hleads⟩ := h l ttl (hsub l _ hget) hpos
  have hlasting : FileTtlTable.expiredFor (some dropboxCode) now row = false := by
    rw [Bool.eq_false_iff]
    intro hexpired
    rw [bootCleanup, hgone row (List.mem_filter.mpr ⟨hrow, hexpired⟩) l (some ttl) hleads] at hget
    cases hget
  refine ⟨row, ?_, hcode, hkeeps.locate disk.limits _ l _ _ hleads hget rfl⟩
  rw [bootCleanup, FileTtlTable.deleteExpiredForMount_table]
  exact List.mem_filter.mpr ⟨hrow, by simp [hlasting]⟩

end Sweeping

section Uploading

variable (input : UploadInput)

/-- The outcome of `upload_file` for one file of the request. -/
abbrev stored (fs : FileSystem (Option Int)) (file : String) :
    Outcome (Option Int) FileError UploadResult :=
  uploadFile disk dropboxDir input.path ⟨file, some input.effectiveTtl⟩ input.conflictResolution fs

/-- The loop over the files, the content of which is the TTL of the request. -/
abbrev storeTimed (files : List String) : FileM (Option Int) FileError (List UploadResult) :=
  storeFiles disk dropboxDir input (some input.effectiveTtl) files

/-- A file is refused without effect, or stored into the directory that the path resolves to. -/
theorem stored_cases (fs : FileSystem (Option Int)) (file : String)
    (hopen : OpensPlainly disk dropboxDir input fs file) :
    (¬Accepts disk dropboxDir input fs file ∧ (stored disk dropboxDir input fs file).fs = fs ∧
        ∀ r, (stored disk dropboxDir input fs file).result ≠ .ok r) ∨
      ∃ targetDir, SafePath disk fs dropboxDir input.path targetDir ∧ ProperName file ∧
        (Accepts disk dropboxDir input fs file ↔
          Storable disk fs targetDir file input.conflictResolution) ∧
        Stored disk fs targetDir file ⟨file, some input.effectiveTtl⟩ input.conflictResolution
          (stored disk dropboxDir input fs file) ∧
        fs.KeepsWays (stored disk dropboxDir input fs file).fs ∧
        (¬OverwritesDirectory disk dropboxDir input fs file →
          (∀ r, (stored disk dropboxDir input fs file).result ≠ .ok r) →
            (stored disk dropboxDir input fs file).fs = fs) := by
  rcases uploadFile_cases disk dropboxDir fs input.path ⟨file, some input.effectiveTtl⟩
      input.conflictResolution with
    ⟨hfs, hresult, hrefused⟩ | ⟨targetDir, hpath, hok, hproper, hfs, hresult⟩
  · refine .inl ⟨?_, hfs, hresult⟩
    rintro ⟨hok, targetDir, hmem, -⟩
    rw [hrefused hok] at hmem
    cases hmem
  · right
    have hsafe := (safeLocation_eq_some disk _ _ _ _).mpr hpath
    obtain ⟨hnoLink, hreplace⟩ := hopen hok targetDir hsafe
    have hstored := storeUpload_stored disk fs targetDir file ⟨file, some input.effectiveTtl⟩
      input.conflictResolution hpath.resolved hproper.2.2.1 hnoLink
    refine ⟨targetDir, hpath, hproper, ?_, ⟨?_, ?_, ?_⟩, ?_, ?_⟩
    · constructor
      · rintro ⟨-, dir, hmem, hstorable⟩
        rw [hsafe] at hmem
        cases hmem
        exact hstorable
      · intro hstorable
        exact ⟨hok, targetDir, hsafe, hstorable⟩
    · rw [stored, hfs]
      exact hstored.adds
    · rw [stored, hfs, hresult]
      exact hstored.returns
    · rw [stored, hresult]
      exact hstored.accepts
    · rw [stored, hfs]
      exact storeUpload_keepsWays disk fs targetDir file _ input.conflictResolution hpath.resolved
        hproper.2.2.1 hnoLink hreplace
    · intro hdir hfails
      rw [stored, hresult] at hfails
      rw [stored, hfs]
      apply storeUpload_refused disk fs targetDir file _ input.conflictResolution hpath.resolved
        hproper.2.2.1 hnoLink _ hfails
      intro hoverwrite
      rw [Bool.eq_false_iff]
      intro hdest
      exact hdir ⟨hoverwrite, targetDir, hsafe, hdest⟩

theorem stored_effect (fs : FileSystem (Option Int)) (file : String)
    (hopen : OpensPlainly disk dropboxDir input fs file) :
    fs.KeepsWays (stored disk dropboxDir input fs file).fs ∧
      (fs.Adds (stored disk dropboxDir input fs file).fs fun _ node =>
        node = .file (some input.effectiveTtl)) ∧
      ((∃ r, (stored disk dropboxDir input fs file).result = .ok r) ↔
        Accepts disk dropboxDir input fs file) := by
  rcases stored_cases disk dropboxDir input fs file hopen with
    ⟨hnot, hfs, hresult⟩ | ⟨targetDir, -, -, haccepts, hstored, hkeeps, -⟩
  · refine ⟨?_, ?_, ?_⟩
    · rw [hfs]
      exact FileSystem.KeepsWays.refl fs
    · rw [hfs]
      exact FileSystem.Adds.refl fs _
    · constructor
      · rintro ⟨r, hr⟩
        exact absurd hr (hresult r)
      · intro h
        exact absurd h hnot
  · refine ⟨hkeeps, ?_, ?_⟩
    · apply hstored.adds.mono
      rintro q node ⟨name, -, -, hnode⟩
      exact hnode
    · rw [hstored.accepts, haccepts]

/-- A file that is refused has left nothing, unless it was to replace a directory. -/
theorem stored_refused (fs : FileSystem (Option Int)) (file : String)
    (hopen : OpensPlainly disk dropboxDir input fs file) (hnot : ¬Accepts disk dropboxDir input fs file)
    (hdir : ¬OverwritesDirectory disk dropboxDir input fs file) :
    (stored disk dropboxDir input fs file).fs = fs := by
  rcases stored_cases disk dropboxDir input fs file hopen with
    ⟨-, hfs, -⟩ | ⟨targetDir, -, -, haccepts, hstored, -, hrefused⟩
  · exact hfs
  · apply hrefused hdir
    intro r hr
    exact hnot (haccepts.mpr (hstored.accepts.mp ⟨r, hr⟩))

theorem stored_skipped (fs : FileSystem (Option Int)) (file : String)
    (hopen : OpensPlainly disk dropboxDir input fs file) (haccepts : Accepts disk dropboxDir input fs file)
    (hskips : Skips disk dropboxDir input fs file) : (stored disk dropboxDir input fs file).fs = fs := by
  rcases stored_cases disk dropboxDir input fs file hopen with
    ⟨hnot, -, -⟩ | ⟨targetDir, hpath, -, hiff, hstored, -, -⟩
  · exact absurd haccepts hnot
  · obtain ⟨r, hr⟩ := hstored.accepts.mpr (hiff.mp haccepts)
    obtain ⟨hskip, dir, hmem, htaken⟩ := hskips
    obtain rfl := hpath.unique ((safeLocation_eq_some disk _ _ _ _).mp hmem)
    rcases hstored.returns r hr with ⟨-, -, -, hfs⟩ | ⟨hland, -⟩
    · exact hfs
    · simp only [landing, if_pos htaken, hskip] at hland
      cases hland

theorem stored_reported (fs : FileSystem (Option Int)) (file : String) (r : UploadResult)
    (hopen : OpensPlainly disk dropboxDir input fs file)
    (hr : (stored disk dropboxDir input fs file).result = .ok r) :
    ∃ targetDir, SafePath disk fs dropboxDir input.path targetDir ∧ fs.isDirAt targetDir = true ∧
      ProperName r.name ∧
      fs.Adds (stored disk dropboxDir input fs file).fs fun q _ => q = targetDir ++ [r.name] := by
  rcases stored_cases disk dropboxDir input fs file hopen with
    ⟨-, -, hresult⟩ | ⟨targetDir, hpath, hproper, -, hstored, -, -⟩
  · exact absurd hr (hresult r)
  · have hstorable := hstored.accepts.mp ⟨r, hr⟩
    refine ⟨targetDir, hpath, hstorable.1, ?_⟩
    rcases hstored.returns r hr with ⟨-, -, hname, hfs⟩ | ⟨hland, -⟩
    · rw [hname, hfs]
      exact ⟨hproper, FileSystem.Adds.refl fs _⟩
    · refine ⟨properName_of_landing disk fs input.conflictResolution targetDir file r.name hproper hland,
        ?_⟩
      apply hstored.adds.mono
      rintro q node ⟨name, hname, hq, -⟩
      obtain rfl := Option.some.inj (hland.symm.trans hname)
      exact hq

theorem storeTimed_effect (written : Bool) (fs : FileSystem (Option Int)) (files : List String)
    (h : UploadRecords disk dropboxDir input written fs files) :
    fs.KeepsWays (storeTimed disk dropboxDir input files fs).fs ∧
      fs.Adds (storeTimed disk dropboxDir input files fs).fs fun _ node =>
        node = .file (some input.effectiveTtl) := by
  induction files generalizing fs written with
  | nil => exact ⟨FileSystem.KeepsWays.refl fs, FileSystem.Adds.refl fs _⟩
  | cons file files ih =>
      obtain ⟨hopen, haccepted, -⟩ := h
      obtain ⟨hkeeps, hadds, hiff⟩ := stored_effect disk dropboxDir input fs file hopen
      apply FileM.leaves_forEach_cons _ fs (fun fs' => fs.KeepsWays fs' ∧ fs.Adds fs' fun _ node =>
        node = .file (some input.effectiveTtl)) file files ⟨hkeeps, hadds⟩
      rintro r fs' ⟨hr, rfl⟩
      obtain ⟨hrestKeeps, hrestAdds⟩ := ih _ _ (haccepted (hiff.mp ⟨r, hr⟩)).2
      exact ⟨hkeeps.trans hrestKeeps, hadds.trans hrestAdds⟩

theorem storeTimed_failed (hpos : 0 < input.effectiveTtl) (written : Bool) (fs : FileSystem (Option Int))
    (files : List String) (h : UploadRecords disk dropboxDir input written fs files) (e : FileError)
    (hfails : (storeTimed disk dropboxDir input files fs).result = .error e) :
    written = false ∧ (storeTimed disk dropboxDir input files fs).fs = fs := by
  induction files generalizing fs written e with
  | nil => cases hfails
  | cons file files ih =>
      obtain ⟨hopen, haccepted, hrefused⟩ := h
      have hiff := (stored_effect disk dropboxDir input fs file hopen).2.2
      have hloop : storeTimed disk dropboxDir input (file :: files) = (do
          let r ← uploadFile disk dropboxDir input.path ⟨file, some input.effectiveTtl⟩
            input.conflictResolution
          let rs ← storeTimed disk dropboxDir input files
          pure (r :: rs)) := rfl
      cases hfirst : (stored disk dropboxDir input fs file).result with
      | error e' =>
          have hnot : ¬Accepts disk dropboxDir input fs file := by
            intro haccepts
            obtain ⟨r, hr⟩ := hiff.mpr haccepts
            rw [hfirst] at hr
            cases hr
          obtain ⟨hunwritten, hdir⟩ := hrefused hnot hpos
          refine ⟨hunwritten, ?_⟩
          rw [hloop, FileM.bind_of_error _ _ _ _ hfirst]
          exact stored_refused disk dropboxDir input fs file hopen hnot hdir
      | ok r =>
          have haccepts := hiff.mp ⟨r, hfirst⟩
          have hrest := (haccepted haccepts).2
          rw [hloop, FileM.bind_of_ok _ _ _ _ _ ⟨hfirst, rfl⟩] at hfails ⊢
          dsimp only at hfails ⊢
          rw [FileM.bind_fs_of_keeps _ _ _ fun _ => FileM.keeps_pure _]
          cases hlater : (storeTimed disk dropboxDir input files
              (stored disk dropboxDir input fs file).fs).result with
          | ok rs =>
              rw [FileM.bind_of_ok _ _ _ _ _ ⟨hlater, rfl⟩] at hfails
              cases hfails
          | error e' =>
              rw [FileM.bind_of_error _ _ _ _ hlater] at hfails
              obtain ⟨hunwritten, hfs⟩ := ih _ _ hrest _ hlater
              rw [Bool.or_eq_false_iff, Bool.not_eq_false', decide_eq_true_eq] at hunwritten
              refine ⟨hunwritten.1, hfs.trans ?_⟩
              exact stored_skipped disk dropboxDir input fs file hopen haccepts hunwritten.2

theorem storeTimed_unfit (hpos : 0 < input.effectiveTtl) (hfits : ¬FileTtlTable.fitsFloat input.effectiveTtl = true)
    (written : Bool) (fs : FileSystem (Option Int)) (files : List String)
    (h : UploadRecords disk dropboxDir input written fs files) :
    (storeTimed disk dropboxDir input files fs).fs = fs := by
  induction files generalizing fs written with
  | nil => rfl
  | cons file files ih =>
      obtain ⟨hopen, haccepted, hrefused⟩ := h
      have hiff := (stored_effect disk dropboxDir input fs file hopen).2.2
      have hsame : (stored disk dropboxDir input fs file).fs = fs := by
        by_cases haccepts : Accepts disk dropboxDir input fs file
        · have hskips := ((haccepted haccepts).1 hpos).2.resolve_left hfits
          exact stored_skipped disk dropboxDir input fs file hopen haccepts hskips
        · exact stored_refused disk dropboxDir input fs file hopen haccepts (hrefused haccepts hpos).2
      refine FileM.leaves_forEach_cons _ fs (fun fs' => fs' = fs) file files ?_ ?_
      · exact hsame
      · rintro r fs' ⟨hr, rfl⟩
        have hrest := (haccepted (hiff.mp ⟨r, hr⟩)).2
        exact (ih _ _ hrest).trans hsame

/-- What is new after a request with a TTL has a reported name, to which the key of the name leads. -/
theorem storeTimed_reported (hpos : 0 < input.effectiveTtl) (written : Bool)
    (fs fs' : FileSystem (Option Int)) (files : List String) (results : List UploadResult)
    (h : UploadRecords disk dropboxDir input written fs files)
    (hret : (storeTimed disk dropboxDir input files).Returns fs results fs') :
    fs.Adds fs' fun q _ => ∃ r ∈ results, ProperName r.name ∧ Text.startsWith input.path "/" = false ∧
      ∃ targetDir, q = targetDir ++ [r.name] ∧
        fs'.locate disk.limits (dropboxDir ++ (PurePath.parse input.path).parts) =
          some (targetDir, .dir) := by
  induction files generalizing fs written results with
  | nil =>
      obtain ⟨-, rfl⟩ := (FileM.returns_pure _ _ _ _).mp hret
      exact FileSystem.Adds.refl fs _
  | cons file files ih =>
      obtain ⟨hopen, haccepted, -⟩ := h
      obtain ⟨r, rs, fs₁, hfirst, hlater, rfl⟩ := (FileM.returns_forEach_cons _ _ _ _ _ _).mp hret
      obtain ⟨hr, rfl⟩ := hfirst
      obtain ⟨hkeeps, -, hiff⟩ := stored_effect disk dropboxDir input fs file hopen
      obtain ⟨hleads, hrest⟩ := haccepted (hiff.mp ⟨r, hr⟩)
      have hfinal : (storeTimed disk dropboxDir input files (afterFile disk dropboxDir input fs file)).fs =
          fs' := hlater.2
      have hrestKeeps := (storeTimed_effect disk dropboxDir input _ _ files hrest).1
      rw [hfinal] at hrestKeeps
      obtain ⟨targetDir, hpath, hdir, hproper, hadds⟩ :=
        stored_reported disk dropboxDir input fs file r hopen hr
      -- the path of the request still leads to the directory
      have htarget : fs'.locate disk.limits (dropboxDir ++ (PurePath.parse input.path).parts) =
          some (targetDir, .dir) := by
        have hnode := (fs.isDirAt_eq_true targetDir).mp hdir
        obtain ⟨⟨l, node⟩, hl, rfl⟩ :=
          Option.map_eq_some_iff.mp ((hleads hpos).1 targetDir ((safeLocation_eq_some disk _ _ _ _).mpr hpath))
        have hstays := (hkeeps.trans hrestKeeps) l .dir hnode (by simp)
        exact (hkeeps.trans hrestKeeps).locate disk.limits _ l _ _ hl hstays rfl
      apply (hadds.mono _).trans ((ih _ _ rs hrest hlater).mono _)
      · rintro q - hq
        exact ⟨r, List.mem_cons_self, hproper, hpath.not_absolute, targetDir, hq, htarget⟩
      · rintro q - ⟨r', hr', hall⟩
        exact ⟨r', List.mem_cons_of_mem _ hr', hall⟩

theorem exists_insertRow (table : FileTtlTable) (filePath key : String) (expiresAt createdAt : Int)
    (h : (∃ row ∈ table, row.mountCode = dropboxCode ∧ row.filePath = key) ∨ filePath = key) :
    ∃ row ∈ table.insertRow ⟨dropboxCode, filePath, expiresAt, createdAt⟩,
      row.mountCode = dropboxCode ∧ row.filePath = key := by
  by_cases hsame : filePath = key
  · exact ⟨⟨dropboxCode, filePath, expiresAt, createdAt⟩, List.mem_append_right _ List.mem_cons_self, rfl, hsame⟩
  · obtain ⟨row, hrow, hcode, hkey⟩ := h.resolve_right hsame
    refine ⟨row, List.mem_append_left _ (List.mem_filter.mpr ⟨hrow, decide_eq_true ?_⟩), hcode, hkey⟩
    rintro ⟨-, hpath⟩
    exact hsame (hpath.symm.trans hkey)

theorem recordTtls_cons (clock : Nat → Int) (table : FileTtlTable) (name : String) (names : List String)
    (hname : name ≠ "") :
    recordTtls dropboxCode input clock table (name :: names) =
      if FileTtlTable.fitsFloat input.effectiveTtl then
        recordTtls dropboxCode input (fun i => clock (i + 1))
          (table.insertRow ⟨dropboxCode, relKey input.path name, clock 0 + input.effectiveTtl, clock 0⟩) names
      else table := by
  rw [recordTtls, if_neg hname, FileTtlTable.recordFileTtl, FileTtlTable.expiryTime]
  by_cases hfits : FileTtlTable.fitsFloat input.effectiveTtl = true
  · rw [if_pos hfits, if_pos hfits]
    rfl
  · rw [if_neg hfits, if_neg hfits]
    rfl

theorem exists_recordTtls_of_exists (clock : Nat → Int) (table : FileTtlTable) (names : List String) (key : String)
    (h : ∃ row ∈ table, row.mountCode = dropboxCode ∧ row.filePath = key) :
    ∃ row ∈ recordTtls dropboxCode input clock table names,
      row.mountCode = dropboxCode ∧ row.filePath = key := by
  induction names generalizing clock table with
  | nil => exact h
  | cons name names ih =>
      by_cases hempty : name = ""
      · rw [recordTtls, if_pos hempty]
        exact ih _ table h
      · rw [recordTtls_cons dropboxCode input clock table name names hempty]
        split
        · exact ih _ _ (exists_insertRow dropboxCode table _ key _ _ (.inl h))
        · exact h

theorem exists_recordTtls_of_mem (hfits : FileTtlTable.fitsFloat input.effectiveTtl = true) (clock : Nat → Int)
    (table : FileTtlTable) (names : List String) (name : String) (hmem : name ∈ names) (hne : name ≠ "") :
    ∃ row ∈ recordTtls dropboxCode input clock table names,
      row.mountCode = dropboxCode ∧ row.filePath = relKey input.path name := by
  induction names generalizing clock table with
  | nil => cases hmem
  | cons first names ih =>
      by_cases hempty : first = ""
      · rw [recordTtls, if_pos hempty]
        exact ih _ table ((List.mem_cons.mp hmem).resolve_left fun heq => hne (heq.trans hempty))
      · rw [recordTtls_cons dropboxCode input clock table first names hempty, if_pos hfits]
        rcases List.mem_cons.mp hmem with rfl | hmem
        · exact exists_recordTtls_of_exists dropboxCode input _ _ names _
            (exists_insertRow dropboxCode table _ _ _ _ (.inr rfl))
        · exact ih _ _ hmem

theorem fullPath_of_relKey (row : FileTtlRow) (name : String)
    (hslash : Text.startsWith input.path "/" = false) (hname : ProperName name)
    (hrow : row.filePath = relKey input.path name) :
    fullPath dropboxDir row = dropboxDir ++ (PurePath.parse input.path).parts ++ [name] := by
  rw [fullPath, hrow, lstrip_of_not_startsWith _ (relKey_not_absolute input.path name hslash hname),
    parts_relKey input.path name hslash hname, List.append_assoc]

theorem recorded_uploadFiles (s : TtlStore (Option Int)) (clock : Nat → Int)
    (h : s.Recorded disk dropboxDir dropboxCode)
    (hrecords : UploadRecords disk dropboxDir input false s.fs input.filenames) :
    (s.uploadFiles disk dropboxDir dropboxCode input (some input.effectiveTtl) clock).Recorded disk
      dropboxDir dropboxCode := by
  obtain ⟨hkeeps, hadds⟩ := storeTimed_effect disk dropboxDir input false s.fs input.filenames hrecords
  -- a file that was there still has its row
  have hold : ∀ (table : FileTtlTable) (l : Location) (ttl : Int),
      (∀ row ∈ s.table, row.mountCode = dropboxCode →
        ∃ row' ∈ table, row'.mountCode = dropboxCode ∧ row'.filePath = row.filePath) →
      s.fs.get? l = some (.file (some ttl)) → 0 < ttl →
      (storeTimed disk dropboxDir input input.filenames s.fs).fs.get? l = some (.file (some ttl)) →
      ∃ row ∈ table, row.mountCode = dropboxCode ∧
        (storeTimed disk dropboxDir input input.filenames s.fs).fs.locate disk.limits
          (fullPath dropboxDir row) = some (l, .file (some ttl)) := by
    intro table l ttl htable hbefore hpos hget
    obtain ⟨row, hrow, hcode, hleads⟩ := h l ttl hbefore hpos
    obtain ⟨row', hrow', hcode', hpath⟩ := htable row hrow hcode
    refine ⟨row', hrow', hcode', ?_⟩
    rw [show fullPath dropboxDir row' = fullPath dropboxDir row by unfold fullPath; rw [hpath]]
    exact hkeeps.locate disk.limits _ l _ _ hleads hget rfl
  have hsame : ∀ row ∈ s.table, row.mountCode = dropboxCode →
      ∃ row' ∈ s.table, row'.mountCode = dropboxCode ∧ row'.filePath = row.filePath :=
    fun row hrow hcode => ⟨row, hrow, hcode, rfl⟩
  by_cases hpos : 0 < input.effectiveTtl
  · cases hresult : (storeTimed disk dropboxDir input input.filenames s.fs).result with
    | error e =>
        have hfs := (storeTimed_failed disk dropboxDir input hpos false s.fs input.filenames hrecords e
          hresult).2
        simp only [uploadFiles, hresult, hfs]
        exact h
    | ok results =>
        have hnew := storeTimed_reported disk dropboxDir input hpos false s.fs _ input.filenames results
          hrecords ⟨hresult, rfl⟩
        simp only [uploadFiles, hresult, gt_iff_lt, hpos, if_true]
        intro l ttl hget httl
        have hkept : ∀ row ∈ s.table, row.mountCode = dropboxCode →
            ∃ row' ∈ recordTtls dropboxCode input clock s.table (results.map fun r => r.name),
              row'.mountCode = dropboxCode ∧ row'.filePath = row.filePath := fun row hrow hcode =>
          exists_recordTtls_of_exists dropboxCode input clock s.table _ row.filePath ⟨row, hrow, hcode, rfl⟩
        by_cases hfits : FileTtlTable.fitsFloat input.effectiveTtl = true
        swap
        · have hfs := storeTimed_unfit disk dropboxDir input hpos hfits false s.fs input.filenames hrecords
          exact hold _ l ttl hkept (hfs ▸ hget) httl hget
        rcases hnew l _ hget with hbefore | ⟨r, hr, hproper, hslash, targetDir, hl, htarget⟩
        · exact hold _ l ttl hkept hbefore httl hget
        · obtain ⟨row, hrow, hcode, hkey⟩ := exists_recordTtls_of_mem dropboxCode input hfits clock s.table
            (results.map fun r => r.name) r.name (List.mem_map.mpr ⟨r, hr, rfl⟩) hproper.1
          refine ⟨row, hrow, hcode, ?_⟩
          rw [fullPath_of_relKey dropboxDir input row r.name hslash hproper hkey]
          rw [hl] at hget ⊢
          exact FileSystem.locate_snoc disk.limits _ targetDir r.name _ htarget hproper.2.2.1 hget rfl
  · have htable : (s.uploadFiles disk dropboxDir dropboxCode input (some input.effectiveTtl) clock) =
        ⟨(storeTimed disk dropboxDir input input.filenames s.fs).fs, s.table⟩ := by
      cases hresult : (storeTimed disk dropboxDir input input.filenames s.fs).result with
      | error e => simp only [uploadFiles, hresult]
      | ok results => simp only [uploadFiles, hresult, gt_iff_lt, hpos, if_false]
    rw [htable]
    intro l ttl hget httl
    rcases hadds l _ hget with hbefore | hnode
    · exact hold s.table l ttl hsame hbefore httl hget
    · simp only [Node.file.injEq, Option.some.injEq] at hnode
      rw [hnode] at httl
      exact absurd httl hpos

end Uploading

theorem recorded_step (s : TtlStore (Option Int)) (a : TtlOperation) (t : TtlStore (Option Int))
    (h : s.Recorded disk dropboxDir dropboxCode) (hkeeps : KeepsRows disk dropboxDir dropboxCode s a)
    (hstep : s.step disk dropboxDir dropboxCode a = some t) : t.Recorded disk dropboxDir dropboxCode := by
  cases a with
  | uploadFiles input clock =>
      obtain rfl := Option.some.inj hstep
      exact recorded_uploadFiles disk dropboxDir dropboxCode input s clock h hkeeps
  | sweepOnce now refuses =>
      obtain rfl := Option.some.inj hstep
      exact recorded_sweepRows disk dropboxDir dropboxCode refuses s _ h hkeeps
  | bootCleanup now refuses =>
      obtain rfl := Option.some.inj hstep
      exact recorded_bootCleanup disk dropboxDir dropboxCode refuses s now h hkeeps

/-- There is a file with a TTL, and no row leads to it. -/
def unrecorded (s : TtlStore (Option Int)) (l : Location) : Bool :=
  (match s.fs.get? l with
    | some (.file (some ttl)) => decide (0 < ttl)
    | _ => false) &&
  s.table.all fun row => (s.fs.locate disk.limits (fullPath dropboxDir row)).map Prod.fst ≠ some l

theorem not_recorded (s : TtlStore (Option Int)) (l : Location) (h : s.unrecorded disk dropboxDir l = true) :
    ¬s.Recorded disk dropboxDir dropboxCode := by
  intro hrecorded
  obtain ⟨htimed, hrows⟩ := Bool.and_eq_true_iff.mp h
  split at htimed
  · rename_i ttl hget
    obtain ⟨row, hrow, -, hleads⟩ := hrecorded l ttl hget (of_decide_eq_true htimed)
    have hnot := List.all_eq_true.mp hrows row hrow
    simp [hleads] at hnot
  · cases htimed

end

def recordDisk : Disk (Option Int) := ⟨⟨40, 40⟩, fun _ => 0, fun _ => "", 20⟩

def emptyStore : TtlStore (Option Int) where
  fs :=
    { tree := [(["data"], .dir), (["data", "dropbox"], .dir)]
      closed := by decide }
  table := []

theorem emptyStore_recorded : emptyStore.Recorded recordDisk ["data", "dropbox"] "drop" := by
  intro l ttl hget hpos
  have hroot : l ≠ [] := by
    rintro rfl
    rw [FileSystem.get?_nil] at hget
    cases hget
  obtain ⟨e, he, rfl⟩ := emptyStore.fs.mem_of_get? l hroot (by simp [hget])
  have hdirs : ∀ e ∈ emptyStore.fs.tree, emptyStore.fs.isDirAt e.1 = true := by decide +kernel
  rw [(emptyStore.fs.isDirAt_eq_true e.1).mp (hdirs e he)] at hget
  cases hget

abbrev recordStep : TtlStore (Option Int) → TtlOperation → Option (TtlStore (Option Int)) :=
  step recordDisk ["data", "dropbox"] "drop"

/-- Two uploads, and a sweep when the first one is over. -/
def twoUploads : List TtlOperation :=
  [.uploadFiles ⟨"", ["a.txt"], none, some 10⟩ fun _ => 0,
    .uploadFiles ⟨"", ["b.txt"], none, none⟩ fun _ => 5, .sweepOnce 20 fun _ => false]

/-- The second file of the second request is there already, so that the request fails after the first. -/
def failingBatch : List TtlOperation :=
  [.uploadFiles ⟨"", ["b.txt"], none, none⟩ fun _ => 0,
    .uploadFiles ⟨"", ["a.txt", "b.txt"], none, none⟩ fun _ => 5]

/-- The operating system refuses to remove the expired file. -/
def refusedRemoval : List TtlOperation :=
  [.uploadFiles ⟨"", ["a.txt"], none, some 10⟩ fun _ => 0, .sweepOnce 20 fun _ => true]

/-- The TTL is an `int` that is no `float`. -/
def hugeTtl : List TtlOperation := [.uploadFiles ⟨"", ["a.txt"], none, some ((10 ^ 309 : Nat) : Int)⟩ fun _ => 0]

end NetworkFileServer.Relay.TtlStore
