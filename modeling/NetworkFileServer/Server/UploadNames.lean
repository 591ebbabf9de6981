import Mathlib.Logic.Function.Basic
import NetworkFileServer.Server.FolderLocality

/-!
# Uploads at the level of names

What the files of an upload do to the names of the target directory, when nothing there is a link: one rule
for each way through `upload_file`, and the loop over the files. The program refines the rules.
-/

namespace NetworkFileServer.Server.FileService

open FileM (StaysIn Inner)
open Function (update)

variable {α : Type}

/-- What a directory holds under each name. -/
abbrev Names (α : Type) := String → Option (Node α)

def namesAt (fs : FileSystem α) (targetDir : Location) : Names α := fun name => fs.get? (targetDir ++ [name])

/-- A file whose name is accepted: the name that is reported, or the error, and the names afterwards. -/
inductive Stores (conflictResolution : Option ConflictResolution) (names : Names α) (f : Upload α) :
    Except FileError String → Names α → Prop where
  | fresh (hfree : names f.filename = none) :
      Stores conflictResolution names f (.ok f.filename) (update names f.filename (some (.file f.content)))
  | conflict (path : String) (hheld : names f.filename ≠ none) (hnone : conflictResolution = none) :
      Stores conflictResolution names f (.error (.fileConflict f.filename path)) names
  | skipped (hheld : names f.filename ≠ none) (hskip : conflictResolution = some .skip) :
      Stores conflictResolution names f (.ok f.filename) names
  | renamed (name : String) (hheld : names f.filename ≠ none) (hrename : conflictResolution = some .rename)
      (hproper : ProperName name) (hnul : hasNul name = false) (hfree : names name = none) :
      Stores conflictResolution names f (.ok name) (update names name (some (.file f.content)))
  | replaced (hheld : names f.filename ≠ none) (hoverwrite : conflictResolution = some .overwrite)
      (hfile : names f.filename ≠ some .dir) (htemp : names (tempName f.filename) ≠ some .dir) :
      Stores conflictResolution names f (.ok f.filename)
        (update (update names (tempName f.filename) none) f.filename (some (.file f.content)))
  /-- A directory is in the way of the file or of its temporary name. -/
  | blocked (e : OsError) (after : Names α) (hheld : names f.filename ≠ none)
      (hoverwrite : conflictResolution = some .overwrite)
      (hdir : names f.filename = some .dir ∨ names (tempName f.filename) = some .dir) :
      Stores conflictResolution names f (.error (.os e)) after

/-- The loop over the files, up to the first error. -/
inductive StoresAll (conflictResolution : Option ConflictResolution) :
    Names α → List (Upload α) → Except FileError (List String) → Names α → Prop where
  | nil (names : Names α) : StoresAll conflictResolution names [] (.ok []) names
  | invalid (names : Names α) (f : Upload α) (rest : List (Upload α)) (e : FileError)
      (hinvalid : validateUploadFilename f.filename = .error e) :
      StoresAll conflictResolution names (f :: rest) (.error e) names
  | stopped (names after : Names α) (f : Upload α) (rest : List (Upload α)) (e : FileError)
      (hvalid : (validateUploadFilename f.filename).isOk = true)
      (hstores : Stores conflictResolution names f (.error e) after) :
      StoresAll conflictResolution names (f :: rest) (.error e) after
  | next (names between after : Names α) (f : Upload α) (rest : List (Upload α)) (name : String)
      (result : Except FileError (List String)) (hvalid : (validateUploadFilename f.filename).isOk = true)
      (hstores : Stores conflictResolution names f (.ok name) between)
      (hrest : StoresAll conflictResolution between rest result after) :
      StoresAll conflictResolution names (f :: rest) (result.map (name :: ·)) after

/-- Only the names of the directory differ. -/
structure BecomesAt (fs fs' : FileSystem α) (targetDir : Location) (after : Names α) : Prop where
  names : ∀ name, fs'.get? (targetDir ++ [name]) = after name
  others : ∀ q, (∀ name, q ≠ targetDir ++ [name]) → fs'.get? q = fs.get? q

theorem BecomesAt.refl (fs : FileSystem α) (targetDir : Location) :
    BecomesAt fs fs targetDir (namesAt fs targetDir) := ⟨fun _ => rfl, fun _ _ => rfl⟩

theorem BecomesAt.trans {fs fs' fs'' : FileSystem α} {targetDir : Location} {between after : Names α}
    (h : BecomesAt fs fs' targetDir between) (h' : BecomesAt fs' fs'' targetDir after) :
    BecomesAt fs fs'' targetDir after :=
  ⟨h'.names, fun q hq => (h'.others q hq).trans (h.others q hq)⟩

theorem BecomesAt.namesAt_eq {fs fs' : FileSystem α} {targetDir : Location} {after : Names α}
    (h : BecomesAt fs fs' targetDir after) : namesAt fs' targetDir = after := funext h.names

/-- No directory on the way to the names, the one that holds them included, is one of them. -/
theorem BecomesAt.get?_of_prefix {fs fs' : FileSystem α} {base targetDir : Location} {after : Names α}
    (h : BecomesAt fs fs' targetDir after) (hin : base <+: targetDir) : fs'.get? base = fs.get? base := by
  apply h.others
  intro name heq
  have hlen := hin.length_le
  rw [heq, List.length_append, List.length_singleton] at hlen
  omega

theorem BecomesAt.isDirAt {fs fs' : FileSystem α} {base targetDir : Location} {after : Names α}
    (h : BecomesAt fs fs' targetDir after) (hin : base <+: targetDir) : fs'.isDirAt base = fs.isDirAt base := by
  change (fs'.get? base).any Node.isDir = (fs.get? base).any Node.isDir
  rw [h.get?_of_prefix hin]

theorem BecomesAt.resolved {fs fs' : FileSystem α} {targetDir : Location} {after : Names α}
    (h : BecomesAt fs fs' targetDir after) (hres : fs.Resolved targetDir) : fs'.Resolved targetDir := by
  refine ⟨?_, hres.noUp⟩
  intro q hq
  rw [h.get?_of_prefix hq]
  exact hres.noLink q hq

/-- Nothing changes in a folder around the directory exactly when no name does. -/
theorem BecomesAt.unchanged_iff {fs fs' : FileSystem α} {base targetDir : Location} {after : Names α}
    (h : BecomesAt fs fs' targetDir after) (hin : base <+: targetDir) :
    (∀ q, base <+: q → fs'.get? q = fs.get? q) ↔ after = namesAt fs targetDir := by
  constructor
  · intro hsame
    funext name
    rw [← h.names name, hsame _ (hin.trans (List.prefix_append _ _))]
    rfl
  · rintro rfl q -
    by_cases hq : ∃ name, q = targetDir ++ [name]
    · obtain ⟨name, rfl⟩ := hq
      exact h.names name
    · exact h.others q fun name heq => hq ⟨name, heq⟩

theorem becomesAt_put (fs : FileSystem α) (targetDir : Location) (name : String) (node : Node α)
    (hput : fs.Puttable (targetDir ++ [name]) node) :
    BecomesAt fs (fs.put (targetDir ++ [name]) node hput) targetDir
      (update (namesAt fs targetDir) name (some node)) := by
  constructor
  · intro name'
    rw [FileSystem.get?_put]
    by_cases hname : name' = name
    · rw [hname, if_pos rfl, Function.update_self]
    · have hne : targetDir ++ [name'] ≠ targetDir ++ [name] := by simpa using hname
      rw [if_neg hne, Function.update_of_ne hname]
      rfl
  · intro q hq
    rw [FileSystem.get?_put, if_neg (hq name)]

theorem becomesAt_move (fs : FileSystem α) (targetDir : Location) (src dst : String) (content : α)
    (hfile : fs.get? (targetDir ++ [src]) = some (.file content))
    (hmove : fs.Movable (targetDir ++ [src]) (targetDir ++ [dst])) :
    BecomesAt fs (fs.move (targetDir ++ [src]) (targetDir ++ [dst]) hmove) targetDir
      (update (update (namesAt fs targetDir) src none) dst (some (.file content))) := by
  constructor
  · intro name
    rw [FileSystem.get?_move]
    simp only [Location.prefix_child_iff]
    by_cases hdst : name = dst
    · rw [if_pos hdst, hdst, Function.update_self]
      simpa using hfile
    · rw [if_neg hdst, Function.update_of_ne hdst]
      by_cases hsrc : name = src
      · rw [if_pos hsrc, hsrc, Function.update_self]
      · rw [if_neg hsrc, Function.update_of_ne hsrc]
        rfl
  · intro q hq
    -- Nothing is below a file, and nothing below what a file can replace.
    have hbelowSrc : ∀ x, x ≠ [] → fs.get? (targetDir ++ [src] ++ x) = none := by
      intro x hx
      by_contra hsome
      have heq := fs.eq_of_below _ _ (fs.isDirAt_of_get? _ _ hfile) (List.prefix_append _ x)
        (Option.isSome_iff_ne_none.mpr hsome)
      exact hx (List.append_right_eq_self.mp heq)
    rw [FileSystem.get?_move]
    split
    · rename_i hpre
      obtain ⟨x, rfl⟩ := hpre
      have hx : x ≠ [] := by
        rintro rfl
        exact hq dst (by simp)
      rw [List.drop_left, hbelowSrc x hx]
      by_contra hsome
      obtain ⟨e, he, hkey⟩ := fs.mem_of_get? _ (by simp) (Option.isSome_iff_ne_none.mpr (Ne.symm hsome))
      have heq := hmove.vacant e he (by rw [hkey]; exact List.prefix_append _ x)
      rw [hkey] at heq
      exact hx (List.append_right_eq_self.mp heq)
    · split
      · rename_i hpre
        obtain ⟨x, rfl⟩ := hpre
        have hx : x ≠ [] := by
          rintro rfl
          exact hq src (by simp)
        exact (hbelowSrc x hx).symm
      · rfl

theorem hasNul_of_validateUploadFilename (filename name : String)
    (h : validateUploadFilename filename = .ok name) : hasNul filename = false := by
  unfold validateUploadFilename at h
  split at h
  · cases h
  split at h
  · cases h
  rename_i hnul
  simpa using hnul

theorem hasNul_numbered (filename : String) (k : Nat) (h : hasNul filename = false) :
    hasNul (numbered filename k) = false := by
  unfold hasNul at h ⊢
  rw [List.contains_eq_mem, decide_eq_false_iff_not] at h ⊢
  intro hmem
  simp only [numbered, stem, suffix, String.toList_append, List.mem_append, String.toList_ofList] at hmem
  rcases hmem with ((hstem | hbar) | hdigits) | hsuffix
  · exact h (List.mem_of_mem_take hstem)
  · exact absurd hbar (by decide)
  · have hdigit := Text.digit_of_mem_repr k _ hdigits
    exact absurd hdigit (by decide)
  · exact h (List.mem_of_mem_drop hsuffix)

section OneFile

variable (disk : Disk α) {base targetDir : Location} {fs : FileSystem α} (f : Upload α)

theorem writeUploadChunks_error (p : Location) (e : FileError)
    (h : (writeUploadChunks disk f p fs).result = .error e) : ∃ e', FileError.os e' = e := by
  rcases FileM.error_of_bind _ _ _ _ h with hwrite | ⟨_, _, -, hpure⟩
  · exact FileM.error_of_mapError _ _ _ _ hwrite
  · cases hpure

theorem writeReplacing_error (e : FileError)
    (h : (writeReplacing disk targetDir f.filename f fs).result = .error e) : ∃ e', FileError.os e' = e := by
  rcases FileM.error_of_bind _ _ _ _ h with hwrite | ⟨_, _, -, hrest⟩
  · exact writeUploadChunks_error disk f _ e hwrite
  · rcases FileM.error_of_bind _ _ _ _ hrest with hrename | ⟨_, _, -, hpure⟩
    · exact FileM.error_of_mapError _ _ _ _ hrename
    · cases hpure

variable (hfs : fs.Region base) (htarget : Inner base targetDir) (hdir : fs.isDirAt targetDir = true)
  (hproper : ProperName f.filename) (hnul : hasNul f.filename = false)
  (conflictResolution : Option ConflictResolution)

include hfs htarget

theorem taken_iff (name : String) (hname : name ≠ "..") :
    Taken disk fs targetDir name ↔ namesAt fs targetDir name ≠ none := by
  unfold Taken namesAt
  rw [(htarget.snoc hname).locate disk.limits hfs]
  cases fs.get? (targetDir ++ [name]) <;> simp

include hdir

theorem writeDirectly_becomes (name : String) (hname : name ≠ "..")
    (hfree : namesAt fs targetDir name = none) :
    (writeDirectly disk targetDir name f fs).result.map UploadResult.name = .ok name ∧
      BecomesAt fs (writeDirectly disk targetDir name f fs).fs targetDir
        (update (namesAt fs targetDir) name (some (.file f.content))) := by
  have hchild := htarget.snoc hname
  have hnotDir : fs.isDirAt (targetDir ++ [name]) = false := by
    rw [Bool.eq_false_iff, ne_eq, FileSystem.isDirAt_eq_true]
    intro hnode
    rw [namesAt, hnode] at hfree
    cases hfree
  rcases writeUploadChunks_of_resolved disk fs f _ (hfs.resolved_below hchild.1 hchild.2) with
    ⟨hnot, -⟩ | ⟨hput, -, hret⟩
  · rw [List.dropLast_concat] at hnot
    exact absurd ⟨hdir, hnotDir⟩ hnot
  · rw [writeDirectly, FileM.bind_of_ok _ _ _ _ _ hret]
    exact ⟨rfl, becomesAt_put fs targetDir name _ hput⟩

include hproper

theorem writeReplacing_becomes (hheld : namesAt fs targetDir f.filename ≠ none) :
    ∃ result after, Stores (some .overwrite) (namesAt fs targetDir) f result after ∧
      (writeReplacing disk targetDir f.filename f fs).result.map UploadResult.name = result ∧
      BecomesAt fs (writeReplacing disk targetDir f.filename f fs).fs targetDir after := by
  have htemp := htarget.snoc (tempName_ne_up f.filename)
  have hresTarget := hfs.resolved_below htarget.1 htarget.2
  have hresTemp := hfs.resolved_below htemp.1 htemp.2
  have haccepts := (writeReplacing_effect disk fs targetDir f.filename f hresTarget hproper.2.2.1 hresTemp).2.2
  -- A refusal is an error of the operating system.
  have hrefused : ¬(fs.isDirAt targetDir = true ∧ fs.isDirAt (targetDir ++ [tempName f.filename]) = false ∧
      fs.isDirAt (targetDir ++ [f.filename]) = false) →
      ∃ e, (writeReplacing disk targetDir f.filename f fs).result.map UploadResult.name = .error (.os e) := by
    intro hnot
    cases hresult : (writeReplacing disk targetDir f.filename f fs).result with
    | ok r => exact absurd (haccepts.mp ⟨r, hresult⟩) hnot
    | error e =>
        obtain ⟨e', rfl⟩ := writeReplacing_error disk f e hresult
        exact ⟨e', rfl⟩
  have hchunks := writeUploadChunks_of_resolved disk fs f _ hresTemp
  rw [List.dropLast_concat] at hchunks
  cases htempDir : fs.isDirAt (targetDir ++ [tempName f.filename]) with
  | true =>
      obtain ⟨e, he⟩ := hrefused fun h => by simp [htempDir] at h
      rcases hchunks with ⟨-, e', he'⟩ | ⟨-, hfalse, -⟩
      · have herr : (writeUploadChunks disk f (targetDir ++ [tempName f.filename]) fs).result = .error e' := by
          rw [he']
        refine ⟨_, namesAt fs targetDir, .blocked e _ hheld rfl (.inr ((fs.isDirAt_eq_true _).mp htempDir)),
          he, ?_⟩
        rw [writeReplacing, FileM.bind_of_error _ _ _ _ herr, he']
        exact BecomesAt.refl fs targetDir
      · rw [htempDir] at hfalse
        cases hfalse
  | false =>
      rcases hchunks with ⟨hnot, -⟩ | ⟨hput, -, hret⟩
      · exact absurd ⟨hdir, htempDir⟩ hnot
      have hputs := becomesAt_put fs targetDir (tempName f.filename) _ hput
      cases hdest : fs.isDirAt (targetDir ++ [f.filename]) with
      | true =>
          obtain ⟨e, he⟩ := hrefused fun h => by simp [hdest] at h
          refine ⟨_, update (namesAt fs targetDir) (tempName f.filename) (some (.file f.content)),
            .blocked e _ hheld rfl (.inl ((fs.isDirAt_eq_true _).mp hdest)), he, ?_⟩
          rw [writeReplacing, FileM.bind_of_ok _ _ _ _ _ hret]
          dsimp only
          rw [FileM.bind_fs_of_keeps _ _ _ fun _ => FileM.keeps_pure _]
          change BecomesAt fs (FileM.rename disk.limits _ _ _).fs targetDir _
          rw [(FileM.rename_of_not_renames disk.limits _ _ _
            (not_renames_temp disk fs targetDir f.filename f hput hdest hresTarget)).1]
          exact hputs
      | false =>
          have hren := renames_temp disk fs targetDir f.filename f hput hresTarget hproper.2.2.1 hdest
          have hmove := FileM.rename_of_renames disk.limits _ _ _ _ _ hren
          have hreturns : ((FileM.rename disk.limits (targetDir ++ [tempName f.filename])
              (targetDir ++ [f.filename])).mapError FileError.os).Returns (fs.put _ _ hput) ()
              ((fs.put _ _ hput).move _ _ hren.movable) := by
            rw [FileM.returns_mapError, FileM.Returns, hmove]
            exact ⟨rfl, rfl⟩
          have hmoved := becomesAt_move (fs.put _ _ hput) targetDir (tempName f.filename) f.filename f.content
            (by rw [FileSystem.get?_put, if_pos rfl]) hren.movable
          have hnames : update (update (namesAt (fs.put _ _ hput) targetDir) (tempName f.filename) none)
              f.filename (some (.file f.content)) =
              update (update (namesAt fs targetDir) (tempName f.filename) none) f.filename
                (some (.file f.content)) := by
            rw [hputs.namesAt_eq, Function.update_idem]
          rw [hnames] at hmoved
          have hwhole : (writeReplacing disk targetDir f.filename f).Returns fs
              (uploadResult f.filename (disk.size (.file f.content)) false)
                ((fs.put _ _ hput).move _ _ hren.movable) := by
            rw [writeReplacing, FileM.returns_bind_of_returns _ _ _ _ _ hret,
              FileM.returns_bind_of_returns _ _ _ _ _ hreturns, FileM.returns_pure]
            exact ⟨rfl, rfl⟩
          rw [hwhole.1, hwhole.2]
          refine ⟨.ok f.filename, _, .replaced hheld rfl ?_ ?_, rfl, hputs.trans hmoved⟩
          · intro hnode
            rw [(fs.isDirAt_eq_true _).mpr hnode] at hdest
            cases hdest
          · intro hnode
            rw [(fs.isDirAt_eq_true _).mpr hnode] at htempDir
            cases htempDir

include hnul

theorem storeUpload_stores : ∃ result after,
    Stores conflictResolution (namesAt fs targetDir) f result after ∧
      (storeUpload disk targetDir f.filename f conflictResolution fs).result.map UploadResult.name = result ∧
      BecomesAt fs (storeUpload disk targetDir f.filename f conflictResolution fs).fs targetDir after := by
  have hres := hfs.resolved_below htarget.1 htarget.2
  have htaken := taken_iff disk hfs htarget f.filename hproper.2.2.1
  rcases storeUpload_cases disk fs targetDir f.filename f conflictResolution hres hproper.2.2.1 with
    ⟨hheld, hsame, ⟨hnone, herror⟩ | ⟨hskip, r, hname, hok⟩⟩ |
      ⟨name, hup, hfree, hcase, -, hland, -, hfs', hresult⟩ | ⟨rfl, hheld, -, hfs', hresult⟩
  · rw [herror, hsame]
    exact ⟨_, _, .conflict _ (htaken.mp hheld) hnone, rfl, BecomesAt.refl fs targetDir⟩
  · rw [hok, hsame]
    exact ⟨_, _, .skipped (htaken.mp hheld) hskip, congrArg Except.ok hname, BecomesAt.refl fs targetDir⟩
  · have hfree' : namesAt fs targetDir name = none := by
      by_contra hne
      exact hfree ((taken_iff disk hfs htarget name hup).mpr hne)
    obtain ⟨hname, hbecomes⟩ := writeDirectly_becomes disk f hfs htarget hdir name hup hfree'
    rw [hresult, hfs']
    rcases hcase with ⟨-, rfl⟩ | ⟨hheld, hrename⟩
    · exact ⟨_, _, .fresh hfree', hname, hbecomes⟩
    · have hnew := properName_of_landing disk fs conflictResolution targetDir f.filename name hproper hland
      have hnumbered : hasNul name = false := by
        unfold landing at hland
        rw [if_pos hheld, hrename] at hland
        obtain ⟨k, rfl, -, -⟩ := firstFree_spec disk fs targetDir f.filename name hland
        exact hasNul_numbered f.filename (1 + k) hnul
      exact ⟨_, _, .renamed name (htaken.mp hheld) hrename hnew hnumbered hfree', hname, hbecomes⟩
  · rw [hresult, hfs']
    exact writeReplacing_becomes disk f hfs htarget hdir hproper (htaken.mp hheld)

end OneFile

section Loop

variable (disk : Disk α) {base targetDir : Location} {fs fs' : FileSystem α} {path : String}

theorem SafePath.of_sameLinks {baseDir : List String} (hsafe : SafePath disk fs baseDir path targetDir)
    (hlinks : fs.SameLinks fs') (hexists : (fs'.get? targetDir).isSome = true) :
    SafePath disk fs' baseDir path targetDir := by
  obtain ⟨-, base', hbase, hpath⟩ := (returns_resolveSafePath disk _ _ _ _ _).mp hsafe
  refine (returns_resolveSafePath disk _ _ _ _ _).mpr ⟨rfl, base', ?_, ?_⟩
  · rw [← hlinks.resolve]
    exact hbase
  · rcases hpath with hempty | ⟨hrel, hinside, -, hresolve⟩
    · exact .inl hempty
    · exact .inr ⟨hrel, hinside, hexists, by rw [← hlinks.resolve]; exact hresolve⟩

theorem SafePath.inner (hsafe : SafePath disk fs base path targetDir) (hfs : fs.Region base) :
    Inner base targetDir :=
  ⟨hsafe.inside (fs.resolve_of_resolved _ _ hfs.resolved), hsafe.resolved.noUp⟩

theorem uploadFile_of_invalid (baseDir : List String) (f : Upload α)
    (conflictResolution : Option ConflictResolution) (e : FileError)
    (hsafe : SafePath disk fs baseDir path targetDir) (hinvalid : validateUploadFilename f.filename = .error e) :
    FileM.SameEnd (uploadFile disk baseDir path f conflictResolution fs) ⟨.error e, fs, []⟩ := by
  have hlift : (liftExcept (validateUploadFilename f.filename) : FileM α FileError String) fs =
      ⟨.error e, fs, []⟩ := by
    rw [hinvalid]
    rfl
  rw [uploadFile]
  refine (FileM.sameEnd_bind_of_ok _ _ fs targetDir fs hsafe).trans ?_
  have hbind := FileM.sameEnd_bind_of_error (liftExcept (validateUploadFilename f.filename))
    (fun filename => storeUpload disk targetDir filename f conflictResolution) fs e (by rw [hlift])
  rwa [hlift] at hbind

theorem uploadFiles_storesAll (hfs : fs.Region base) (hsafe : SafePath disk fs base path targetDir)
    (hdir : fs.isDirAt targetDir = true) (conflictResolution : Option ConflictResolution)
    (files : List (Upload α)) : ∃ result after,
    StoresAll conflictResolution (namesAt fs targetDir) files result after ∧
      (FileM.forEach (fun f => uploadFile disk base path f conflictResolution) files fs).result.map
        (List.map UploadResult.name) = result ∧
      BecomesAt fs (FileM.forEach (fun f => uploadFile disk base path f conflictResolution) files fs).fs
        targetDir after := by
  induction files generalizing fs with
  | nil => exact ⟨_, _, .nil _, rfl, BecomesAt.refl fs targetDir⟩
  | cons f rest ih =>
      have htarget := hsafe.inner disk hfs
      cases hvalid : validateUploadFilename f.filename with
      | error e =>
          have hend := uploadFile_of_invalid disk base f conflictResolution e hsafe hvalid
          have hstop := FileM.forEach_cons_of_error (fun f => uploadFile disk base path f conflictResolution) f rest
            fs e hend.2
          rw [hstop.1, hstop.2, hend.1]
          exact ⟨_, _, .invalid _ f rest e hvalid, rfl, BecomesAt.refl fs targetDir⟩
      | ok filename =>
          have hproper := properName_of_validateUploadFilename _ _ hvalid
          have hok : (validateUploadFilename f.filename).isOk = true := by rw [hvalid]; rfl
          obtain ⟨hsameFs, hsameResult⟩ := uploadFile_of_safe disk base fs path f conflictResolution targetDir
            filename hsafe hvalid
          obtain ⟨result, after, hstores, hresult, hbecomes⟩ :=
            storeUpload_stores disk f hfs htarget hdir hproper (hasNul_of_validateUploadFilename _ _ hvalid)
              conflictResolution
          rw [← hsameFs] at hbecomes
          rw [← hsameResult] at hresult
          cases hone : (uploadFile disk base path f conflictResolution fs).result with
          | error e =>
              have hstop := FileM.forEach_cons_of_error
                (fun f => uploadFile disk base path f conflictResolution) f rest fs e hone
              rw [hone] at hresult
              obtain rfl := hresult.symm
              rw [hstop.1, hstop.2]
              exact ⟨_, after, .stopped _ after f rest e hok hstores, rfl, hbecomes⟩
          | ok r =>
              have hgo := FileM.forEach_cons_of_ok (fun f => uploadFile disk base path f conflictResolution) f
                rest fs _ r ⟨hone, rfl⟩
              rw [hone] at hresult
              obtain rfl := hresult.symm
              have hstays : StaysIn base _ (uploadFile disk base path f conflictResolution) :=
                staysIn_uploadFile disk path f conflictResolution
              have hdir' := (hbecomes.isDirAt (List.prefix_refl _)).trans hdir
              have hexists : ((uploadFile disk base path f conflictResolution fs).fs.get? targetDir).isSome = true := by
                rw [(FileSystem.isDirAt_eq_true _ _).mp hdir']
                rfl
              obtain ⟨rest', after', hrest, hresult', hbecomes'⟩ := ih (hstays.region hfs)
                (hsafe.of_sameLinks disk (hstays.links fs hfs) hexists) hdir'
              rw [hbecomes.namesAt_eq] at hrest
              refine ⟨_, after', .next _ after after' f rest r.name rest' hok hstores hrest, ?_, ?_⟩
              · rw [hgo.2, ← hresult']
                cases (FileM.forEach (fun f => uploadFile disk base path f conflictResolution) rest
                  (uploadFile disk base path f conflictResolution fs).fs).result <;> rfl
              · rw [hgo.1]
                exact hbecomes.trans hbecomes'

end Loop

end NetworkFileServer.Server.FileService
