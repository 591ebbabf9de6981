import NetworkFileServer.Server.UploadNames
import NetworkFileServer.Tunnel.Frames

/-!
# What else an upload touches

An upload into a directory may hold links and directories under any name. It opens one name for writing and
may move what it finds there; which entries change besides its own is decided by where the opened name leads.
-/

namespace NetworkFileServer.Server.FileService

open Tunnel (Bytes)

/-- A disk whose files are bytes; `statSize` is the size of what is no file. -/
def byteDisk (limits : LinkLimits) (statSize : Node Bytes → Nat) (modified : List String → String)
    (walkDepth : Nat) : Disk Bytes where
  limits := limits
  size
    | .file content => content.length
    | node => statSize node
  modified := modified
  walkDepth := walkDepth

section Opening

variable {α : Type} (disk : Disk α) (fs : FileSystem α) (upload : Upload α)

/-- Writing puts the file where the path leads, if it leads somewhere that is no directory. -/
theorem writeUploadChunks_opens (p l : Location) (hcreat : fs.locateCreat disk.limits p = some l)
    (hdir : fs.isDirAt l = false) :
    ∃ hput : fs.Puttable l (.file upload.content),
      (writeUploadChunks disk upload p).Returns fs (disk.size (.file upload.content))
        (fs.put l (.file upload.content) hput) := by
  have hparent := fs.isDirAt_of_locateCreat disk.limits p l hcreat
  have hput : fs.Puttable l (.file upload.content) := ⟨hparent, by simp [hdir]⟩
  have hwrite : ((FileM.writeFile disk.limits p upload.content).mapError FileError.os).Returns fs ()
      (fs.put l (.file upload.content) hput) := by
    rw [FileM.returns_mapError, FileM.returns_writeFile]
    exact ⟨l, hcreat, hput, hdir, rfl⟩
  refine ⟨hput, ?_⟩
  rw [writeUploadChunks, FileM.returns_bind]
  exact ⟨(), _, hwrite, by simp⟩

/-- Why a path cannot be opened. -/
def openError (p : Location) : OsError :=
  if (fs.locateCreat disk.limits p).isNone then .notFound else .isADirectory

theorem writeUploadChunks_refused (p : Location)
    (h : ∀ l, fs.locateCreat disk.limits p = some l → fs.isDirAt l = true) :
    writeUploadChunks disk upload p fs = ⟨.error (.os (openError disk fs p)), fs, []⟩ := by
  have he : FileM.writeFile disk.limits p upload.content fs = ⟨.error (openError disk fs p), fs, []⟩ := by
    unfold FileM.writeFile openError
    cases hcreat : fs.locateCreat disk.limits p with
    | none => rfl
    | some l =>
        have hnot : ¬(fs.isDirAt l.dropLast = true ∧ fs.isDirAt l = false) := by simp [h l hcreat]
        simp only [dif_neg hnot]
        rfl
  have herr : ((FileM.writeFile disk.limits p upload.content).mapError FileError.os fs).result =
      .error (.os (openError disk fs p)) := by
    simp [FileM.mapError, he, Except.mapError]
  rw [writeUploadChunks, FileM.bind_of_error _ _ _ _ herr]
  simp [FileM.mapError, he]

/-- Opening the name makes or truncates no other entry of the directory. -/
def OpensOwn (targetDir : Location) (name : String) : Prop :=
  ∀ l, fs.locateCreat disk.limits (targetDir ++ [name]) = some l → targetDir <+: l → l = targetDir ++ [name]

/-- The names that an upload opens lead to themselves or out of the directory, and the temporary name of a
file that is replaced is free. -/
def KeepsSiblings (targetDir : Location) (upload : Upload α) (conflictResolution : Option ConflictResolution) :
    Prop :=
  if Taken disk fs targetDir upload.filename then
    match conflictResolution with
    | none | some .skip => True
    | some .rename =>
        ∀ k, (∀ j < k, Taken disk fs targetDir (numbered upload.filename (1 + j))) →
          ¬Taken disk fs targetDir (numbered upload.filename (1 + k)) →
          OpensOwn disk fs targetDir (numbered upload.filename (1 + k))
    | some .overwrite =>
        ∀ l, fs.locateCreat disk.limits (targetDir ++ [tempName upload.filename]) = some l →
          fs.isDirAt l = false →
          if fs.isDirAt (targetDir ++ [upload.filename]) then
            targetDir <+: l → fs.get? l = some (.file upload.content)
          else fs.get? (targetDir ++ [tempName upload.filename]) = none
  else OpensOwn disk fs targetDir upload.filename

end Opening

section Changes

variable (disk : Disk Bytes) (fs : FileSystem Bytes) (targetDir : Location) (upload : Upload Bytes)

/-- What an upload reports and does to its directory. -/
structure TouchesOnlyItsFile (o : Outcome Bytes FileError UploadResult) : Prop where
  stored : ∀ r, o.result = .ok r → r.skipped = false →
    (∃ l, o.fs.locate disk.limits (targetDir ++ [r.name]) = some (l, .file upload.content)) ∧
      r.size = upload.content.length
  skipped : ∀ r, o.result = .ok r → r.skipped = true → o.fs = fs
  conflict : ∀ path existing, o.result = .error (.fileConflict path existing) → o.fs = fs
  /-- Every path of the directory but the one that is reported as stored. -/
  others : ∀ q, targetDir <+: q → (∀ r, o.result = .ok r → r.skipped = false → q ≠ targetDir ++ [r.name]) →
    o.fs.get? q = fs.get? q

theorem touchesOnlyItsFile_of_unchanged (o : Outcome Bytes FileError UploadResult) (hfs : o.fs = fs)
    (hskipped : ∀ r, o.result = .ok r → r.skipped = true) : TouchesOnlyItsFile disk fs targetDir upload o := by
  refine ⟨?_, fun _ _ _ => hfs, fun _ _ _ => hfs, fun q _ _ => by rw [hfs]⟩
  intro r hr hnot
  rw [hskipped r hr] at hnot
  cases hnot

/-- The new file is found under its name; an entry besides it is untouched if its location is its own or
outside. -/
theorem writeDirectly_touches_iff (limits : LinkLimits) (statSize : Node Bytes → Nat)
    (modified : List String → String) (walkDepth : Nat)
    (name : String) (hfree : ¬Taken (byteDisk limits statSize modified walkDepth) fs targetDir name) :
    TouchesOnlyItsFile (byteDisk limits statSize modified walkDepth) fs targetDir upload
        (writeDirectly (byteDisk limits statSize modified walkDepth) targetDir name upload fs) ↔
      OpensOwn (byteDisk limits statSize modified walkDepth) fs targetDir name := by
  generalize hdisk : byteDisk limits statSize modified walkDepth = disk at *
  have hnone : fs.locate disk.limits (targetDir ++ [name]) = none := by
    rw [Taken, Bool.not_eq_true, Option.isSome_eq_false_iff, Option.isNone_iff_eq_none] at hfree
    exact hfree
  cases hcreat : fs.locateCreat disk.limits (targetDir ++ [name]) with
  | none =>
      have he := writeUploadChunks_refused disk fs upload (targetDir ++ [name]) (by simp [hcreat])
      have herr := congrArg Outcome.result he
      rw [writeDirectly, FileM.bind_of_error _ _ _ _ herr, he]
      refine iff_of_true ?_ ?_
      · exact touchesOnlyItsFile_of_unchanged disk fs targetDir upload _ rfl (by simp)
      · intro l hl
        rw [hcreat] at hl
        cases hl
  | some l =>
      have hnew := FileSystem.get?_of_locateCreat disk.limits _ l hcreat hnone
      have hdir : fs.isDirAt l = false := by
        rw [Bool.eq_false_iff, ne_eq, FileSystem.isDirAt_eq_true, hnew]
        simp
      obtain ⟨hput, hret⟩ := writeUploadChunks_opens disk fs upload _ l hcreat hdir
      rw [writeDirectly, FileM.bind_of_ok _ _ _ _ _ hret]
      constructor
      · intro h l' hl' hin
        rw [hcreat, Option.some.injEq] at hl'
        subst hl'
        by_contra hne
        have hsame := h.others l hin (by
          intro r hr _
          obtain rfl := Except.ok.inj hr
          exact hne)
        rw [hnew] at hsame
        change (fs.put l _ hput).get? l = none at hsame
        rw [FileSystem.get?_put, if_pos rfl] at hsame
        cases hsame
      · intro hown
        refine ⟨?_, ?_, ?_, ?_⟩
        · intro r hr _
          obtain rfl := Except.ok.inj hr
          refine ⟨⟨l, FileSystem.locate_put disk.limits _ l upload.content hcreat hput⟩, ?_⟩
          rw [← hdisk]
          rfl
        · intro r hr hskipped
          obtain rfl := Except.ok.inj hr
          cases hskipped
        · intro path existing hr
          cases hr
        · intro q hin hq
          have hne : q ≠ l := by
            rintro rfl
            exact hq _ rfl rfl (hown q hcreat hin)
          change (fs.put l _ hput).get? q = _
          rw [FileSystem.get?_put, if_neg hne]

theorem writeReplacing_opened {α : Type} (disk : Disk α) (fs : FileSystem α) (targetDir l : Location)
    (upload : Upload α) (filename : String) (hres : fs.Resolved targetDir) (hname : filename ≠ "..")
    (hcreat : fs.locateCreat disk.limits (targetDir ++ [tempName filename]) = some l)
    (hdir : fs.isDirAt l = false) :
    ∃ hput : fs.Puttable l (.file upload.content),
      (fs.isDirAt (targetDir ++ [filename]) = true →
        (writeReplacing disk targetDir filename upload fs).fs = fs.put l _ hput ∧
          ∃ e, (writeReplacing disk targetDir filename upload fs).result = .error (.os e)) ∧
      (fs.isDirAt (targetDir ++ [filename]) = false →
        ∃ hmove : (fs.put l _ hput).Movable (targetDir ++ [tempName filename]) (targetDir ++ [filename]),
          (writeReplacing disk targetDir filename upload).Returns fs
            (uploadResult filename (disk.size (.file upload.content)) false) ((fs.put l _ hput).move _ _ hmove)) := by
  obtain ⟨hput, hret⟩ := writeUploadChunks_opens disk fs upload _ l hcreat hdir
  have htempUp := tempName_ne_up filename
  have hresPut : (fs.put l _ hput).Resolved targetDir := hres.put hput rfl
  have hdirs := fun q => fs.isDirAt_put_file l q upload.content hput hdir
  -- An entry that is no link is opened itself.
  have hown : (fs.get? (targetDir ++ [tempName filename])).any Node.isLink = false →
      l = targetDir ++ [tempName filename] :=
    fun hlink => fs.locateCreat_eq _ _ l (hres.snoc htempUp hlink) hcreat
  have htempDir : fs.isDirAt (targetDir ++ [tempName filename]) = false := by
    by_contra hnot
    have hnode := (fs.isDirAt_eq_true _).mp (by simpa using hnot)
    rw [hown (by simp [hnode, Node.isLink])] at hdir
    exact hnot hdir
  refine ⟨hput, ?_, ?_⟩
  · intro hdest
    obtain ⟨hsame, -, hentry⟩ := FileM.rename_of_not_renames disk.limits (fs.put l _ hput)
      (targetDir ++ [tempName filename]) (targetDir ++ [filename])
      (FileM.not_renames_child disk.limits _ targetDir _ _ hresPut (by rw [hdirs, htempDir]) (by rw [hdirs, hdest]))
    constructor
    · rw [writeReplacing, FileM.bind_of_ok _ _ _ _ _ hret]
      dsimp only
      rw [FileM.bind_fs_of_keeps _ _ _ fun _ => FileM.keeps_pure _]
      exact hsame
    · cases hresult : (writeReplacing disk targetDir filename upload fs).result with
      | error e =>
          rw [writeReplacing, FileM.bind_of_ok _ _ _ _ _ hret] at hresult
          rcases FileM.error_of_bind _ _ _ _ hresult with hrename | ⟨_, _, -, hpure⟩
          · obtain ⟨e', rfl⟩ := FileM.error_of_mapError _ _ _ _ hrename
            exact ⟨e', rfl⟩
          · cases hpure
      | ok r =>
          exfalso
          have hreturns : (writeReplacing disk targetDir filename upload).Returns fs r _ := ⟨hresult, rfl⟩
          rw [writeReplacing, FileM.returns_bind_of_returns _ _ _ _ _ hret] at hreturns
          obtain ⟨u, fs', hrenamed, -⟩ := (FileM.returns_bind _ _ _ _ _).mp hreturns
          have hok := ((FileM.returns_mapError _ _ _ _ _).mp hrenamed).1
          have hsameEntry := hentry hok
          have hparent : (fs.put l _ hput).isDirAt targetDir = true := by
            have h := (fs.put l _ hput).isDirAt_dropLast (targetDir ++ [filename])
              (by rw [(FileSystem.isDirAt_eq_true _ _).mp ((hdirs _).trans hdest)]; rfl)
            rwa [List.dropLast_concat] at h
          rw [FileSystem.locateEntry_of_resolved _ _ _ _ htempUp hresPut,
            FileSystem.locateEntry_of_resolved _ _ _ _ hname hresPut, if_pos hparent, if_pos hparent] at hsameEntry
          exact tempName_ne filename (by simpa using hsameEntry)
  · intro hdest
    have htemp : ((fs.put l _ hput).get? (targetDir ++ [tempName filename])).isSome = true := by
      rw [FileSystem.get?_put]
      split
      · rfl
      · rename_i hne
        cases hnode : fs.get? (targetDir ++ [tempName filename]) with
        | none => exact absurd (hown (by simp [hnode])).symm hne
        | some node => rfl
    have hren := FileM.renames_child disk.limits (fs.put l _ hput) targetDir
      (tempName filename) filename hresPut htempUp
      hname (tempName_ne filename).symm htemp (by rw [hdirs, htempDir]) (by rw [hdirs, hdest])
    have hmoved := FileM.rename_of_renames disk.limits _ _ _ _ _ hren
    refine ⟨hren.movable, ?_⟩
    have hreplace : ((FileM.rename disk.limits (targetDir ++ [tempName filename])
        (targetDir ++ [filename])).mapError FileError.os).Returns (fs.put l _ hput) ()
        ((fs.put l _ hput).move _ _ hren.movable) := by
      rw [FileM.returns_mapError, FileM.Returns, hmoved]
      exact ⟨rfl, rfl⟩
    rw [writeReplacing, FileM.returns_bind_of_returns _ _ _ _ _ hret,
      FileM.returns_bind_of_returns _ _ _ _ _ hreplace, FileM.returns_pure]
    exact ⟨rfl, rfl⟩

theorem writeReplacing_of_free {α : Type} (disk : Disk α) (fs : FileSystem α) (targetDir l : Location)
    (upload : Upload α) (filename : String) (hres : fs.Resolved targetDir) (hname : filename ≠ "..")
    (hfree : fs.get? (targetDir ++ [tempName filename]) = none)
    (hcreat : fs.locateCreat disk.limits (targetDir ++ [tempName filename]) = some l)
    (hdest : fs.isDirAt (targetDir ++ [filename]) = false) :
    (writeReplacing disk targetDir filename upload fs).result =
        .ok (uploadResult filename (disk.size (.file upload.content)) false) ∧
      BecomesAt fs (writeReplacing disk targetDir filename upload fs).fs targetDir
        (Function.update (namesAt fs targetDir) filename (some (.file upload.content))) := by
  have hresTemp : fs.Resolved (targetDir ++ [tempName filename]) :=
    hres.snoc (tempName_ne_up filename) (by simp [hfree])
  obtain rfl := fs.locateCreat_eq _ _ l hresTemp hcreat
  have hdir : fs.isDirAt (targetDir ++ [tempName filename]) = false := by
    rw [Bool.eq_false_iff, ne_eq, FileSystem.isDirAt_eq_true, hfree]
    simp
  obtain ⟨hput, -, hmoves⟩ := writeReplacing_opened disk fs targetDir _ upload filename hres hname hcreat hdir
  obtain ⟨hmove, hok, hfs⟩ := hmoves hdest
  have hputs := becomesAt_put fs targetDir (tempName filename) _ hput
  have hfile : (fs.put _ _ hput).get? (targetDir ++ [tempName filename]) = some (.file upload.content) := by
    rw [FileSystem.get?_put, if_pos rfl]
  have hbecomes := hputs.trans (becomesAt_move _ targetDir _ _ upload.content hfile hmove)
  -- The temporary name was free before, and is again.
  have hnames : Function.update (namesAt fs targetDir) (tempName filename) none = namesAt fs targetDir := by
    rw [← hfree]
    exact Function.update_eq_self _ _
  rw [hputs.namesAt_eq, Function.update_idem, hnames, ← hfs] at hbecomes
  exact ⟨hok, hbecomes⟩

theorem touchesOnlyItsFile_of_becomes (disk : Disk Bytes) (fs : FileSystem Bytes) (targetDir : Location)
    (upload : Upload Bytes) (o : Outcome Bytes FileError UploadResult) (name : String)
    (hres : fs.Resolved targetDir) (hname : name ≠ "..")
    (hok : o.result = .ok (uploadResult name upload.content.length false))
    (hbecomes : BecomesAt fs o.fs targetDir
      (Function.update (namesAt fs targetDir) name (some (.file upload.content)))) :
    TouchesOnlyItsFile disk fs targetDir upload o := by
  have hstored := hbecomes.names name
  rw [Function.update_self] at hstored
  refine ⟨?_, ?_, by simp [hok], ?_⟩
  · intro r hr _
    rw [hok] at hr
    obtain rfl := Except.ok.inj hr
    refine ⟨⟨targetDir ++ [name], ?_⟩, rfl⟩
    rw [uploadResult_name, FileSystem.locate_of_resolved _ _ _
      ((hbecomes.resolved hres).snoc hname (by rw [hstored]; rfl)), hstored]
    rfl
  · intro r hr hskipped
    rw [hok] at hr
    obtain rfl := Except.ok.inj hr
    cases hskipped
  · intro q hin hq
    have hne : q ≠ targetDir ++ [name] := hq _ hok rfl
    by_cases hchild : ∃ name, q = targetDir ++ [name]
    · obtain ⟨name', rfl⟩ := hchild
      rw [hbecomes.names, Function.update_of_ne (by simpa using hne)]
      rfl
    · exact hbecomes.others q fun name' heq => hchild ⟨name', heq⟩

/-- `os.replace` takes the temporary entry with it, so it must be the one that the upload has made. -/
theorem writeReplacing_touches_iff (limits : LinkLimits) (statSize : Node Bytes → Nat)
    (modified : List String → String) (walkDepth : Nat)
    (hres : fs.Resolved targetDir) (hname : upload.filename ≠ "..") :
    TouchesOnlyItsFile (byteDisk limits statSize modified walkDepth) fs targetDir upload
        (writeReplacing (byteDisk limits statSize modified walkDepth) targetDir upload.filename upload fs) ↔
      ∀ l, fs.locateCreat limits (targetDir ++ [tempName upload.filename]) = some l → fs.isDirAt l = false →
        if fs.isDirAt (targetDir ++ [upload.filename]) then
          targetDir <+: l → fs.get? l = some (.file upload.content)
        else fs.get? (targetDir ++ [tempName upload.filename]) = none := by
  obtain ⟨disk, hdisk⟩ : ∃ disk, byteDisk limits statSize modified walkDepth = disk := ⟨_, rfl⟩
  have hlimits : limits = disk.limits := by rw [← hdisk]; rfl
  have hsize : disk.size (.file upload.content) = upload.content.length := by rw [← hdisk]; rfl
  rw [hdisk, hlimits]
  by_cases hopens : ∃ l, fs.locateCreat disk.limits (targetDir ++ [tempName upload.filename]) = some l ∧
      fs.isDirAt l = false
  · obtain ⟨l, hcreat, hdir⟩ := hopens
    obtain ⟨hput, hover, hmoves⟩ := writeReplacing_opened disk fs targetDir l upload upload.filename hres hname
      hcreat hdir
    have honly : ∀ P : Location → Prop, (∀ l', fs.locateCreat disk.limits
        (targetDir ++ [tempName upload.filename]) = some l' → fs.isDirAt l' = false → P l') ↔ P l := by
      intro P
      constructor
      · exact fun h => h l hcreat hdir
      · intro h l' hl' _
        rw [hcreat, Option.some.injEq] at hl'
        rwa [← hl']
    rw [honly]
    cases hdest : fs.isDirAt (targetDir ++ [upload.filename]) with
    | true =>
        obtain ⟨hfs, e, he⟩ := hover hdest
        rw [if_pos rfl]
        constructor
        · intro h hin
          have hsame := h.others l hin (by simp [he])
          rw [hfs, FileSystem.get?_put, if_pos rfl] at hsame
          exact hsame.symm
        · intro hold
          refine ⟨by simp [he], by simp [he], by simp [he], ?_⟩
          intro q hin _
          rw [hfs, FileSystem.get?_put]
          split
          · rename_i heq
            rw [heq, hold (heq ▸ hin)]
          · rfl
    | false =>
        obtain ⟨hmove, hok, hfs⟩ := hmoves hdest
        rw [if_neg (by simp)]
        constructor
        · intro h
          have hsame := h.others (targetDir ++ [tempName upload.filename]) (List.prefix_append _ _) (by
            intro r hr _
            rw [hok] at hr
            obtain rfl := Except.ok.inj hr
            simpa using tempName_ne upload.filename)
          rw [hfs, FileSystem.get?_move, if_neg, if_pos (List.prefix_refl _)] at hsame
          · exact hsame.symm
          · rw [Location.prefix_child_iff]
            exact tempName_ne upload.filename
        · intro hfree
          obtain ⟨hstored, hbecomes⟩ := writeReplacing_of_free disk fs targetDir l upload upload.filename hres
            hname hfree hcreat hdest
          rw [hsize] at hstored
          exact touchesOnlyItsFile_of_becomes disk fs targetDir upload _ upload.filename hres hname hstored hbecomes
  · have hrefused : ∀ l, fs.locateCreat disk.limits (targetDir ++ [tempName upload.filename]) = some l →
        fs.isDirAt l = true := by
      intro l hl
      by_contra hdir
      exact hopens ⟨l, hl, by simpa using hdir⟩
    have he := writeUploadChunks_refused disk fs upload (targetDir ++ [tempName upload.filename]) hrefused
    have herr := congrArg Outcome.result he
    rw [writeReplacing, FileM.bind_of_error _ _ _ _ herr, he]
    refine iff_of_true (touchesOnlyItsFile_of_unchanged disk fs targetDir upload _ rfl (by simp)) ?_
    intro l hl hdir
    rw [hrefused l hl] at hdir
    cases hdir

end Changes

theorem touchesOnlyItsFile_congr {disk : Disk Bytes} {fs : FileSystem Bytes} {targetDir : Location}
    {upload : Upload Bytes} {o o' : Outcome Bytes FileError UploadResult} (h : FileM.SameEnd o o') :
    TouchesOnlyItsFile disk fs targetDir upload o ↔ TouchesOnlyItsFile disk fs targetDir upload o' := by
  have hall : ∀ {o o' : Outcome Bytes FileError UploadResult}, FileM.SameEnd o o' →
      TouchesOnlyItsFile disk fs targetDir upload o → TouchesOnlyItsFile disk fs targetDir upload o' := by
    intro o o' hsame htouches
    obtain ⟨hfs, hresult⟩ := hsame
    obtain ⟨hstored, hskipped, hconflict, hothers⟩ := htouches
    rw [hfs, hresult] at *
    exact ⟨hstored, hskipped, hconflict, hothers⟩
  exact ⟨hall h, hall ⟨h.1.symm, h.2.symm⟩⟩

theorem storeUpload_skip {α : Type} (disk : Disk α) (fs : FileSystem α) (targetDir : Location) (filename : String)
    (upload : Upload α) (htaken : Taken disk fs targetDir filename) (r : UploadResult)
    (hr : (storeUpload disk targetDir filename upload (some .skip) fs).result = .ok r) : r.skipped = true := by
  have hreturns : (storeUpload disk targetDir filename upload (some .skip)).Returns fs r _ := ⟨hr, rfl⟩
  have hexists : (FileM.pathExists disk.limits (targetDir ++ [filename]) : FileM α FileError Bool).Returns fs
      true fs := (FileM.returns_pathExists _ _ _ _ _).mpr ⟨htaken, rfl⟩
  rw [storeUpload, FileM.returns_bind_of_returns _ _ _ _ _ hexists, if_pos rfl, resolveConflict,
    FileM.returns_bind] at hreturns
  obtain ⟨existing, fs', -, hpure⟩ := hreturns
  obtain ⟨rfl, -⟩ := (FileM.returns_pure _ _ _ _).mp hpure
  rfl

theorem keepsSiblings_iff_opensOwn {α : Type} (disk : Disk α) (fs : FileSystem α) (targetDir : Location)
    (upload : Upload α) (conflictResolution : Option ConflictResolution) (name : String)
    (hcase : ¬Taken disk fs targetDir upload.filename ∧ name = upload.filename ∨
      Taken disk fs targetDir upload.filename ∧ conflictResolution = some .rename)
    (hland : landing disk fs targetDir upload.filename conflictResolution = some name) :
    KeepsSiblings disk fs targetDir upload conflictResolution ↔ OpensOwn disk fs targetDir name := by
  unfold KeepsSiblings
  rcases hcase with ⟨hfree, rfl⟩ | ⟨htaken, rfl⟩
  · rw [if_neg hfree]
  · rw [landing, if_pos htaken] at hland
    obtain ⟨k, rfl, hall, hfree⟩ := firstFree_spec disk fs targetDir _ _ hland
    rw [if_pos htaken]
    constructor
    · exact fun h => h k hall hfree
    · intro hown k' hall' hfree'
      rwa [firstFree_unique disk fs targetDir _ k k' hall hfree hall' hfree']

/-- The upload of an accepted name into a directory that the guard lets through. -/
def UploadTouchesOnlyItsFile (disk : Disk Bytes) (fs : FileSystem Bytes) (baseDir : List String)
    (relativeDir : String) (upload : Upload Bytes) (conflictResolution : Option ConflictResolution) : Prop :=
  ∀ targetDir, SafePath disk fs baseDir relativeDir targetDir →
    (validateUploadFilename upload.filename).isOk = true →
    TouchesOnlyItsFile disk fs targetDir upload
      (uploadFile disk baseDir relativeDir upload conflictResolution fs)

def UploadKeepsSiblings (disk : Disk Bytes) (fs : FileSystem Bytes) (baseDir : List String)
    (relativeDir : String) (upload : Upload Bytes) (conflictResolution : Option ConflictResolution) : Prop :=
  ∀ targetDir, SafePath disk fs baseDir relativeDir targetDir →
    (validateUploadFilename upload.filename).isOk = true →
    KeepsSiblings disk fs targetDir upload conflictResolution

/-- An upload touches only its own file exactly if the names that it opens lead to themselves or out of the
directory, and if the temporary name of a file that it replaces is free. -/
theorem uploadFile_touches_iff (limits : LinkLimits) (statSize : Node Bytes → Nat)
    (modified : List String → String) (walkDepth : Nat)
    (fs : FileSystem Bytes) (baseDir : List String) (relativeDir : String) (upload : Upload Bytes)
    (conflictResolution : Option ConflictResolution) :
    UploadTouchesOnlyItsFile (byteDisk limits statSize modified walkDepth) fs baseDir relativeDir upload
        conflictResolution ↔
      UploadKeepsSiblings (byteDisk limits statSize modified walkDepth) fs baseDir relativeDir upload
        conflictResolution := by
  refine forall_congr' fun targetDir => forall_congr' fun hsafe => forall_congr' fun hvalid => ?_
  have hname := validateUploadFilename_of_isOk upload.filename hvalid
  have hup : upload.filename ≠ ".." := (properName_of_validateUploadFilename _ _ hname).2.2.1
  have hres := hsafe.resolved
  obtain ⟨disk, hdisk⟩ : ∃ disk, byteDisk limits statSize modified walkDepth = disk := ⟨_, rfl⟩
  rw [hdisk] at hsafe ⊢
  rw [touchesOnlyItsFile_congr (uploadFile_of_safe disk baseDir fs relativeDir upload conflictResolution targetDir
    _ hsafe hname)]
  rcases storeUpload_cases disk fs targetDir upload.filename upload conflictResolution hres hup with
    ⟨htaken, hsame, hkept⟩ | ⟨new, hnewUp, hfree, hcase, -, hland, -, hfs, hresult⟩ |
      ⟨rfl, htaken, -, hfs, hresult⟩
  · have hkeeps : KeepsSiblings disk fs targetDir upload conflictResolution := by
      unfold KeepsSiblings
      rw [if_pos htaken]
      rcases hkept with ⟨rfl, -⟩ | ⟨rfl, -⟩ <;> trivial
    refine iff_of_true (touchesOnlyItsFile_of_unchanged disk fs targetDir upload _ hsame ?_) hkeeps
    intro r hr
    rcases hkept with ⟨-, herror⟩ | ⟨rfl, -⟩
    · rw [herror] at hr
      cases hr
    · exact storeUpload_skip disk fs targetDir _ upload htaken r hr
  · subst hdisk
    rw [touchesOnlyItsFile_congr ⟨hfs, hresult⟩, writeDirectly_touches_iff fs targetDir upload limits statSize
      modified walkDepth new hfree, keepsSiblings_iff_opensOwn _ fs targetDir upload conflictResolution new hcase hland]
  · subst hdisk
    rw [touchesOnlyItsFile_congr ⟨hfs, hresult⟩, writeReplacing_touches_iff fs targetDir upload limits statSize
      modified walkDepth hres hup]
    unfold KeepsSiblings
    rw [if_pos htaken]
    exact Iff.rfl

/-- A folder with the files `x.txt` and `x.txt.tmp`. -/
def draftShare : FileSystem Bytes where
  tree :=
    [(["srv"], .dir), (["srv", "x.txt"], .file [1]), (["srv", "x.txt.tmp"], .file [2])]
  closed := by decide

def draftDisk : Disk Bytes := byteDisk ⟨40, 40⟩ (fun _ => 0) (fun _ => "") 20

/-- Overwriting `x.txt` removes `x.txt.tmp`. -/
theorem not_touchesOnlyItsFile_tempName :
    ¬UploadTouchesOnlyItsFile draftDisk draftShare ["srv"] "" ⟨"x.txt", [3]⟩ (some .overwrite) := by
  have hsafe : SafePath draftDisk draftShare ["srv"] "" ["srv"] := by
    refine (returns_resolveSafePath draftDisk _ _ _ _ _).mpr ⟨rfl, ["srv"], ?_, .inl ⟨rfl, rfl⟩⟩
    decide +kernel
  intro hall
  have h := hall ["srv"] hsafe (by decide)
  have hresult : (uploadFile draftDisk ["srv"] "" ⟨"x.txt", [3]⟩ (some .overwrite) draftShare).result =
      .ok (uploadResult "x.txt" 1 false) := by decide +kernel
  have hgone : (uploadFile draftDisk ["srv"] "" ⟨"x.txt", [3]⟩ (some .overwrite) draftShare).fs.get?
      ["srv", "x.txt.tmp"] = none := by decide +kernel
  have hsame := h.others ["srv", "x.txt.tmp"] (by decide) (by
    intro r hr _
    rw [hresult] at hr
    obtain rfl := Except.ok.inj hr
    decide)
  rw [hgone] at hsame
  exact absurd hsame (by decide +kernel)

end NetworkFileServer.Server.FileService
