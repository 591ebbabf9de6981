import NetworkFileServer.Relay.StorageIsolation
import NetworkFileServer.Relay.UsageBytes
import NetworkFileServer.Server.FileEffects
import NetworkFileServer.Server.UploadChanges
import NetworkFileServer.Server.UploadKeys

/-!
# Failed uploads of a user

An upload that exceeds the quota afterwards deletes every name that it has reported, whether it has written
the file or not, and an upload that is refused in the middle deletes nothing. When the directory is as it was
before all the same is decided by the files of the request and by what the directory holds.
-/

namespace NetworkFileServer.Relay

open Server Server.FileService
open FileM (StaysIn Inner SameEnd)

variable {α : Type} (disk : Disk α) {base targetDir : Location} {fs fs' : FileSystem α} {path : String}

/-- What the path of a request names, whether something is there or not. -/
def Targets (fs : FileSystem α) (base : Location) (path : String) (targetDir : Location) : Prop :=
  path = "" ∧ targetDir = base ∨
    Relative path ∧ base <+: targetDir ∧
      fs.resolve disk.limits (base ++ (PurePath.parse path).parts) = some targetDir

theorem targets_of_safePath (hsafe : SafePath disk fs base path targetDir) (hfs : fs.Region base) :
    Targets disk fs base path targetDir := by
  obtain ⟨-, base', hbase, hpath⟩ := (returns_resolveSafePath disk _ _ _ _ _).mp hsafe
  obtain rfl : base = base' := Option.some.inj ((fs.resolve_of_resolved _ _ hfs.resolved).symm.trans hbase)
  exact hpath.imp_right fun h => ⟨h.1, h.2.1, h.2.2.2⟩

variable {disk} in
theorem Targets.of_sameLinks (h : Targets disk fs base path targetDir) (hlinks : fs.SameLinks fs') :
    Targets disk fs' base path targetDir :=
  h.imp_right fun h => ⟨h.1, h.2.1, by rw [← hlinks.resolve]; exact h.2.2⟩

variable {disk} in
theorem Targets.inner (h : Targets disk fs base path targetDir) (hfs : fs.Region base) : Inner base targetDir := by
  rcases h with ⟨-, rfl⟩ | ⟨-, hin, hresolve⟩
  · exact ⟨List.prefix_refl _, hfs.resolved.noUp⟩
  · exact ⟨hin, (fs.resolve_resolved _ _ _ hresolve).noUp⟩

section Rollback

variable (htargets : Targets disk fs base path targetDir) (hfs : fs.Region base) {name : String}
  (hproper : ProperName name) (hnul : hasNul name = false)

theorem relKey_relative (hpath : path = "" ∨ Relative path) (hproper : ProperName name)
    (hnul : hasNul name = false) : Relative (relKey path name) := by
  have hslash : Text.startsWith path "/" = false := by
    rcases hpath with rfl | hrel
    · rfl
    · exact hrel.2.1
  refine ⟨?_, relKey_not_absolute path name hslash hproper, ?_⟩
  · intro hempty
    have hparts := parts_relKey path name hslash hproper
    rw [hempty] at hparts
    have hlen := congrArg List.length hparts
    simp [PurePath.parse] at hlen
  · unfold relKey
    split
    · exact hnul
    · rename_i hne
      have hrel := hpath.resolve_left hne
      rw [String.append_assoc, lstrip_of_not_startsWith _ (startsWith_append path _ hne hslash)]
      have hnulPath := hrel.2.2
      unfold hasNul at hnul hnulPath ⊢
      rw [List.contains_eq_mem, decide_eq_false_iff_not] at hnul hnulPath ⊢
      simp [hnul, hnulPath]

include htargets hfs hproper hnul

theorem returns_resolveSafePath_key (r : Location) :
    (resolveSafePath disk base (relKey path name)).Returns fs r fs ↔
      r = targetDir ++ [name] ∧ (fs.get? (targetDir ++ [name])).isSome = true := by
  have hchild := (htargets.inner hfs).snoc hproper.2.2.1
  have hbase := fs.resolve_of_resolved disk.limits _ hfs.resolved
  have hrel : path = "" ∨ Relative path := htargets.imp And.left And.left
  have hslash : Text.startsWith path "/" = false := by
    rcases hrel with rfl | hrel
    · rfl
    · exact hrel.2.1
  have hkey := relKey_relative hrel hproper hnul
  have hresolve : fs.resolve disk.limits (base ++ (PurePath.parse (relKey path name)).parts) =
      some (targetDir ++ [name]) := by
    rw [parts_relKey path name hslash hproper, ← List.append_assoc]
    refine FileSystem.resolve_snoc disk.limits _ targetDir name ?_ hproper.2.2.1 (hfs.noLink _ hchild.1)
    rcases htargets with ⟨rfl, rfl⟩ | ⟨-, -, hresolve⟩
    · simpa [PurePath.parse] using hbase
    · exact hresolve
  rw [returns_resolveSafePath]
  constructor
  · rintro ⟨-, base', hbase', ⟨hempty, -⟩ | ⟨-, -, hsome, hr⟩⟩
    · exact absurd hempty hkey.1
    · obtain rfl : base = base' := Option.some.inj (hbase.symm.trans hbase')
      obtain rfl := Option.some.inj (hresolve.symm.trans hr)
      exact ⟨rfl, hsome⟩
  · rintro ⟨rfl, hsome⟩
    exact ⟨rfl, base, hbase, .inr ⟨hkey, hchild.1, hsome, hresolve⟩⟩

theorem deletePath_of_held (hheld : namesAt fs targetDir name ≠ none) :
    (deletePath disk base (relKey path name)).Returns fs (relKey path name) (fs.erase (targetDir ++ [name])) := by
  have hsome : (fs.get? (targetDir ++ [name])).isSome = true := Option.isSome_iff_ne_none.mpr hheld
  have hchild := (htargets.inner hfs).snoc hproper.2.2.1
  have hguard := (returns_resolveSafePath_key disk htargets hfs hproper hnul (targetDir ++ [name])).mpr
    ⟨rfl, hsome⟩
  obtain ⟨heffect, hresult, -⟩ := removeObject_of_exists disk fs _ (hfs.resolved_below hchild.1 hchild.2) hsome
  have hremove : (removeObject disk (targetDir ++ [name])).Returns fs () (fs.erase (targetDir ++ [name])) :=
    ⟨hresult.mpr (by simp), heffect⟩
  rw [deletePath, FileM.returns_bind_of_returns _ _ _ _ _ hguard,
    FileM.returns_bind_of_returns _ _ _ _ _ hremove]
  simp

theorem deletePath_of_free (hfree : namesAt fs targetDir name = none) :
    ∃ e, SameEnd (deletePath disk base (relKey path name) fs) ⟨.error e, fs, []⟩ := by
  have hkeeps := resolveSafePath_keeps disk base (relKey path name) fs
  cases hguard : (resolveSafePath disk base (relKey path name) fs).result with
  | error e =>
      refine ⟨e, ?_⟩
      rw [deletePath]
      exact (FileM.sameEnd_bind_of_error _ _ fs e hguard).trans ⟨hkeeps, rfl⟩
  | ok r =>
      have hreturns : (resolveSafePath disk base (relKey path name)).Returns fs r fs := ⟨hguard, hkeeps⟩
      obtain ⟨-, hsome⟩ := (returns_resolveSafePath_key disk htargets hfs hproper hnul r).mp hreturns
      exact absurd hfree (Option.isSome_iff_ne_none.mp hsome)

end Rollback

theorem region_erase (hfs : fs.Region base) {p : Location} (hp : base <+: p) : (fs.erase p).Region base :=
  hfs.of_outside (hfs.sameLinks_erase hp) (FileSystem.outside_erase hp)

/-- Below a name of the directory. -/
def UnderAny (targetDir : Location) (names : List String) (q : Location) : Prop :=
  ∃ name ∈ names, targetDir ++ [name] <+: q

/-- The rollback goes through exactly if the names are distinct and held, and leaves nothing of them. -/
theorem deletePaths_keys (htargets : Targets disk fs base path targetDir) (hfs : fs.Region base)
    (names : List String)
    (hproper : ∀ name ∈ names, ProperName name ∧ hasNul name = false) :
    ((∃ deleted, (deletePaths disk base (names.map (relKey path)) fs).result = .ok deleted) ↔
        names.Nodup ∧ ∀ name ∈ names, namesAt fs targetDir name ≠ none) ∧
      ((∃ deleted, (deletePaths disk base (names.map (relKey path)) fs).result = .ok deleted) →
        ∀ q, (UnderAny targetDir names q → (deletePaths disk base (names.map (relKey path)) fs).fs.get? q = none) ∧
          (¬UnderAny targetDir names q →
            (deletePaths disk base (names.map (relKey path)) fs).fs.get? q = fs.get? q)) := by
  induction names generalizing fs with
  | nil =>
      refine ⟨iff_of_true ⟨[], rfl⟩ (by simp), fun _ q => ⟨?_, fun _ => rfl⟩⟩
      rintro ⟨_, hmem, -⟩
      cases hmem
  | cons name names ih =>
      obtain ⟨⟨hname, hnul⟩, hproper⟩ := List.forall_mem_cons.mp hproper
      unfold deletePaths at ih ⊢
      rw [List.map_cons]
      by_cases hheld : namesAt fs targetDir name = none
      · obtain ⟨e, -, he⟩ := deletePath_of_free disk htargets hfs hname hnul hheld
        have hstop := (FileM.forEach_cons_of_error (deletePath disk base) (relKey path name)
          (names.map (relKey path)) fs e he).2
        rw [hstop]
        have hfails : ¬∃ deleted : List String, (Except.error e : Except FileError (List String)) = .ok deleted := by
          rintro ⟨_, h⟩
          cases h
        exact ⟨iff_of_false hfails fun h => h.2 name List.mem_cons_self hheld, fun h => absurd h hfails⟩
      · have hdelete := deletePath_of_held disk htargets hfs hname hnul hheld
        have hchild := (htargets.inner hfs).snoc hname.2.2.1
        have hgo := FileM.forEach_cons_of_ok (deletePath disk base) (relKey path name)
          (names.map (relKey path)) fs _ _ hdelete
        have htargets' := htargets.of_sameLinks (hfs.sameLinks_erase hchild.1)
        obtain ⟨hiff, heffect⟩ := ih htargets' (region_erase hfs hchild.1) hproper
        have hmap : (∃ deleted, (FileM.forEach (deletePath disk base) (relKey path name ::
            names.map (relKey path)) fs).result = .ok deleted) ↔
            ∃ deleted, (FileM.forEach (deletePath disk base) (names.map (relKey path))
              (fs.erase (targetDir ++ [name]))).result = .ok deleted := by
          rw [hgo.2]
          cases (FileM.forEach (deletePath disk base) (names.map (relKey path))
            (fs.erase (targetDir ++ [name]))).result <;> simp [Except.map]
        have herased : ∀ name', namesAt (fs.erase (targetDir ++ [name])) targetDir name' =
            if name' = name then none else namesAt fs targetDir name' := by
          intro name'
          unfold namesAt
          rw [FileSystem.get?_erase]
          by_cases hsame : name' = name
          · rw [if_pos ⟨(Location.prefix_child_iff targetDir name name').mpr hsame, by simp⟩, if_pos hsame]
          · rw [if_neg fun h => hsame ((Location.prefix_child_iff targetDir name name').mp h.1), if_neg hsame]
        rw [hmap, hgo.1]
        refine ⟨?_, ?_⟩
        · rw [hiff, List.nodup_cons, List.forall_mem_cons]
          constructor
          · rintro ⟨hnodup, hall⟩
            have hnew : name ∉ names := by
              intro hmem
              have hnone := hall name hmem
              rw [herased, if_pos rfl] at hnone
              exact hnone rfl
            refine ⟨⟨hnew, hnodup⟩, hheld, ?_⟩
            intro name' hmem
            have hne : name' ≠ name := fun heq => hnew (heq ▸ hmem)
            have hsome := hall name' hmem
            rwa [herased, if_neg hne] at hsome
          · rintro ⟨⟨hnew, hnodup⟩, -, hall⟩
            refine ⟨hnodup, ?_⟩
            intro name' hmem
            have hne : name' ≠ name := fun heq => hnew (heq ▸ hmem)
            rw [herased, if_neg hne]
            exact hall name' hmem
        · intro hok q
          obtain ⟨hgone, hkept⟩ := heffect hok q
          by_cases hunder : UnderAny targetDir names q
          · refine ⟨fun _ => hgone hunder, fun hnot => absurd ?_ hnot⟩
            obtain ⟨name', hmem, hpre⟩ := hunder
            exact ⟨name', List.mem_cons_of_mem name hmem, hpre⟩
          · have hq := hkept hunder
            rw [FileSystem.get?_erase] at hq
            constructor
            · rintro ⟨name', hmem, hpre⟩
              rcases List.mem_cons.mp hmem with rfl | hmem
              · rwa [if_pos ⟨hpre, by rintro rfl; simp at hpre⟩] at hq
              · exact absurd ⟨name', hmem, hpre⟩ hunder
            · intro hnone
              rwa [if_neg fun h => hnone ⟨name, List.mem_cons_self, h.1⟩] at hq

/-- The directory of a user, as the routes leave it: no link is in it or on the way to it, and every name is one
that a directory can hold. -/
structure StorageDir (fs : FileSystem α) (base : Location) : Prop where
  region : fs.Region base
  isDir : fs.isDirAt base = true
  proper : ∀ e ∈ fs.tree, ∀ c ∈ e.1, ProperName c

section Route

variable {dataDir : Location} {userId : Int} (hid : 0 < userId) (hfs : fs.Region (userPath dataDir userId))
  (hdir : fs.isDirAt (userPath dataDir userId) = true)

include hid hfs hdir

theorem userDir_returns : (userDir disk dataDir userId).Returns fs (userPath dataDir userId) fs := by
  have hinner : Inner (userPath dataDir userId) (userPath dataDir userId) :=
    ⟨List.prefix_refl _, hfs.resolved.noUp⟩
  have hentry := hinner.entry disk.limits hfs
  rw [hfs.parent, if_pos rfl] at hentry
  have hnode := (fs.isDirAt_eq_true _).mp hdir
  have hmkdir : FileM.mkdir disk.limits (userPath dataDir userId) fs = ⟨.error .fileExists, fs, []⟩ := by
    simp [FileM.mkdir, hentry, hnode]
  have hisDir : (FileM.isDir disk.limits (userPath dataDir userId) : FileM α OsError Bool).Returns fs true fs := by
    rw [FileM.returns_isDir, hinner.locate disk.limits hfs, hnode]
    exact ⟨rfl, rfl⟩
  have hexist : (existOk disk (userPath dataDir userId) .fileExists).Returns fs () fs := by
    rw [existOk, FileM.returns_bind_of_returns _ _ _ _ _ hisDir]
    simp
  have hmake : (makeDirs disk (userPath dataDir userId).reverse).Returns fs () fs := by
    have hsame := makeDirs_of_parent disk fs hfs
    have hcaught := FileM.catchError_of_error _ (existOk disk (userPath dataDir userId)) fs _
      (congrArg Outcome.result hmkdir)
    rw [hmkdir] at hcaught
    exact ⟨hsame.2.trans (hcaught.2.trans hexist.1), hsame.1.trans (hcaught.1.trans hexist.2)⟩
  rw [userDir, if_neg (by omega)]
  rw [FileM.returns_bind_of_returns _ _ _ () fs ((FileM.returns_mapError _ _ _ _ _).mpr hmake)]
  simp

theorem usageBytes_returns :
    (usageBytes disk dataDir userId).Returns fs (usedBytes disk fs (userPath dataDir userId)) fs := by
  rw [usageBytes, FileM.returns_bind_of_returns _ _ _ _ _ (userDir_returns disk hid hfs hdir)]
  exact ⟨rfl, rfl⟩

section Check

variable (quota : Int) (path : String) (results : List UploadResult)

theorem checkStored_of_within (hwithin : ¬quota < usedBytes disk fs (userPath dataDir userId)) :
    SameEnd (checkStored disk dataDir (userPath dataDir userId) userId quota path results fs)
      ⟨.ok (.results results), fs, []⟩ := by
  rw [checkStored]
  refine (FileM.sameEnd_bind_of_ok _ _ fs _ fs (usageBytes_returns disk hid hfs hdir)).trans ?_
  rw [if_neg hwithin]
  exact ⟨rfl, rfl⟩

theorem checkStored_of_over (hover : quota < usedBytes disk fs (userPath dataDir userId)) :
    SameEnd (checkStored disk dataDir (userPath dataDir userId) userId quota path results fs)
      ((deletePaths disk (userPath dataDir userId) (results.map fun result => relKey path result.name) >>=
        fun _ => pure (StorageResponse.quotaExceeded quota none)) fs) := by
  rw [checkStored]
  refine (FileM.sameEnd_bind_of_ok _ _ fs _ fs (usageBytes_returns disk hid hfs hdir)).trans ?_
  rw [if_pos hover]
  exact ⟨rfl, rfl⟩

end Check

variable (quota : Int) (files : List (Upload α)) (path : String)
  (conflictResolution : Option ConflictResolution) (declared : Nat)

theorem upload_of_declared
    (hover : declared ≠ 0 ∧ quota < usedBytes disk fs (userPath dataDir userId) + declared) :
    SameEnd (upload disk dataDir userId quota files path conflictResolution declared fs)
      ⟨.ok (.quotaExceeded quota (some (usedBytes disk fs (userPath dataDir userId)))), fs, []⟩ := by
  rw [upload]
  refine (FileM.sameEnd_bind_of_ok _ _ fs _ fs (userDir_returns disk hid hfs hdir)).trans ?_
  refine (FileM.sameEnd_bind_of_ok _ _ fs _ fs (usageBytes_returns disk hid hfs hdir)).trans ?_
  rw [if_pos hover]
  exact ⟨rfl, rfl⟩

variable (hroom : ¬(declared ≠ 0 ∧ quota < usedBytes disk fs (userPath dataDir userId) + declared))

include hroom

theorem upload_of_room : SameEnd (upload disk dataDir userId quota files path conflictResolution declared fs)
    (answerStored disk dataDir (userPath dataDir userId) userId quota path
      (uploadAll disk (userPath dataDir userId) path conflictResolution files fs).result
      (uploadAll disk (userPath dataDir userId) path conflictResolution files fs).fs) := by
  rw [upload]
  refine (FileM.sameEnd_bind_of_ok _ _ fs _ fs (userDir_returns disk hid hfs hdir)).trans ?_
  refine (FileM.sameEnd_bind_of_ok _ _ fs _ fs (usageBytes_returns disk hid hfs hdir)).trans ?_
  rw [if_neg hroom]
  exact FileM.sameEnd_bind_of_ok _ _ fs _ _ ⟨rfl, rfl⟩

end Route

/-- An upload that is answered with an error status has left the directory as it was. -/
def FailsUnchanged (base : Location) (fs : FileSystem α) (o : Outcome α FileError (StorageResponse α)) : Prop :=
  ∀ response, o.result = .ok response → response.status ∈ [400, 403, 409, 413] →
    ∀ q, base <+: q → o.fs.get? q = fs.get? q

/-- The names that the files can touch. -/
def touched (files : List (Upload α)) : Finset String :=
  (files.flatMap fun f => [f.filename, tempName f.filename]).toFinset

/-- The usage after all files are stored is within the quota. -/
def WithinAfter (quota : Int) (usage : Nat) (names after : Names α) (files : List (Upload α)) : Prop :=
  ((usage + ∑ name ∈ touched files, fileBytes disk (after name) : ℕ) : Int) ≤
    quota + (∑ name ∈ touched files, fileBytes disk (names name) : ℕ)

/-- The check after the files of a skipping or overwriting request does no harm: none of the names was held, the
usage is within the quota, or the rollback fails, at a name that is given twice or no longer there. -/
def StoredHarmless (conflictResolution : Option ConflictResolution) (quota : Int) (usage : Nat)
    (names : Names α) (files : List (Upload α)) : Prop :=
  (∀ f ∈ files, names f.filename = none) ∨
    WithinAfter disk quota usage names (files.foldl (taking conflictResolution) names) files ∨
    ¬(files.map Upload.filename).Nodup ∨
    ∃ f ∈ files, files.foldl (taking conflictResolution) names f.filename = none

/-- What the files of a request must be like, in a directory with the given names. -/
def HarmlessUpload (quota : Int) (usage : Nat) (names : Names α) (files : List (Upload α)) :
    Option ConflictResolution → Prop
  | none =>
      (∀ f ∈ files.head?, ¬(f.accepted = true ∧ names f.filename = none)) ∨
        (∀ f ∈ files, f.accepted = true ∧ names f.filename = none) ∧ (files.map Upload.filename).Nodup
  | some .rename => (∀ f ∈ files.head?, f.accepted = false) ∨ ∀ f ∈ files, f.accepted = true
  | some .skip =>
      (∀ f ∈ files, f.accepted = true) ∧ StoredHarmless disk (some .skip) quota usage names files ∨
        (∃ f ∈ files, f.accepted = false) ∧ ∀ f ∈ acceptedFirst files, names f.filename ≠ none
  | some .overwrite =>
      Blocked names (acceptedFirst files) ∨
        (∀ f ∈ files, f.accepted = true) ∧ StoredHarmless disk (some .overwrite) quota usage names files ∨
        (∃ f ∈ files, f.accepted = false) ∧
          (acceptedFirst files).foldl (taking (some .overwrite)) names = names

theorem uploadStatus_mem {e : FileError} {status : Nat} (h : uploadStatus e = some status) :
    status ∈ [400, 403, 409, 413] := by
  cases e <;> simp [uploadStatus] at h <;> simp [← h]

theorem StorageDir.properlyBelow (hstorage : StorageDir fs base) (hsafe : SafePath disk fs base path targetDir)
    (hdir : fs.isDirAt targetDir = true) {name : String} (hproper : ProperName name) :
    ProperlyBelow base (targetDir ++ [name]) := by
  have htarget := hsafe.inner disk hstorage.region
  have hnames : ∀ c ∈ targetDir, ProperName c := by
    by_cases hroot : targetDir = []
    · simp [hroot]
    · obtain ⟨e, he, hkey⟩ := fs.mem_of_get? targetDir hroot
        (by rw [(fs.isDirAt_eq_true targetDir).mp hdir]; rfl)
      rw [← hkey]
      exact hstorage.proper e he
  exact (properlyBelow_child htarget.1 name).mpr ⟨fun c hc => hnames c (List.mem_of_mem_drop hc), hproper⟩

theorem withinAfter_iff (hstorage : StorageDir fs base) (hfs' : fs'.Region base)
    (hsafe : SafePath disk fs base path targetDir) (hdir : fs.isDirAt targetDir = true) {after : Names α}
    (hbecomes : BecomesAt fs fs' targetDir after) (quota : Int) (files : List (Upload α))
    (haccepted : ∀ f ∈ files, f.accepted = true)
    (hsame : ∀ name, name ∉ touched files → after name = namesAt fs targetDir name) :
    WithinAfter disk quota (usedBytes disk fs base) (namesAt fs targetDir) after files ↔
      ¬quota < usedBytes disk fs' base := by
  have htarget := hsafe.inner disk hstorage.region
  have hproper : ∀ name ∈ touched files, ProperName name := by
    intro name hname
    obtain ⟨f, hf, hmem⟩ := List.mem_flatMap.mp (List.mem_toFinset.mp hname)
    have hfilename : ProperName f.filename := by
      cases hvalid : validateUploadFilename f.filename with
      | error e =>
          have haccepted := haccepted f hf
          rw [not_accepted_of_error hvalid] at haccepted
          cases haccepted
      | ok name' => exact properName_of_validateUploadFilename _ _ hvalid
    rcases List.mem_cons.mp hmem with rfl | hmem
    · exact hfilename
    · rw [List.mem_singleton.mp hmem]
      exact properName_tempName _ hfilename
  have hinj : Set.InjOn (fun name => targetDir ++ [name]) (touched files : Set String) := by
    intro name _ name' _ heq
    simpa using heq
  have hbelow : ∀ q ∈ (touched files).image fun name => targetDir ++ [name], ProperlyBelow base q := by
    intro q hq
    obtain ⟨name, hname, rfl⟩ := Finset.mem_image.mp hq
    exact hstorage.properlyBelow disk hsafe hdir (hproper name hname)
  have hothers : ∀ q, q ∉ (touched files).image (fun name => targetDir ++ [name]) → fs'.get? q = fs.get? q := by
    intro q hq
    by_cases hname : ∃ name, q = targetDir ++ [name]
    · obtain ⟨name, rfl⟩ := hname
      have hnot : name ∉ touched files := fun hmem => hq (Finset.mem_image_of_mem _ hmem)
      rw [hbecomes.names, hsame name hnot]
      rfl
    · exact hbecomes.others q fun name heq => hname ⟨name, heq⟩
  have hdirBase : fs'.isDirAt base = true := (hbecomes.isDirAt htarget.1).trans hstorage.isDir
  have hchange := usedBytes_change disk hstorage.region hfs' hstorage.isDir hdirBase
    ((touched files).image fun name => targetDir ++ [name]) hbelow hothers
  rw [Finset.sum_image hinj, Finset.sum_image hinj] at hchange
  have hbefore : ∑ name ∈ touched files, fileBytes disk (fs.get? (targetDir ++ [name])) =
      ∑ name ∈ touched files, fileBytes disk (namesAt fs targetDir name) := rfl
  have hafter : ∑ name ∈ touched files, fileBytes disk (fs'.get? (targetDir ++ [name])) =
      ∑ name ∈ touched files, fileBytes disk (after name) :=
    Finset.sum_congr rfl fun name _ => by rw [hbecomes.names]
  rw [hbefore, hafter] at hchange
  unfold WithinAfter
  omega

section Ends

variable {dataDir : Location} {userId : Int} {after : Names α} (hid : 0 < userId)
  (hfs : fs.Region (userPath dataDir userId)) (hdir : fs.isDirAt (userPath dataDir userId) = true)
  (quota : Int) (files : List (Upload α)) (path : String) (conflictResolution : Option ConflictResolution)
  (declared : Nat)
  (hroom : ¬(declared ≠ 0 ∧ quota < usedBytes disk fs (userPath dataDir userId) + declared))

include hid hfs hdir hroom

/-- A refused file: the directory is as it was exactly if the files before it have changed nothing. -/
theorem failsUnchanged_of_error (e : FileError)
    (herr : (uploadAll disk (userPath dataDir userId) path conflictResolution files fs).result = .error e) :
    FailsUnchanged (userPath dataDir userId) fs
        (upload disk dataDir userId quota files path conflictResolution declared fs) ↔
      (uploadStatus e ≠ none → ∀ q, userPath dataDir userId <+: q →
        (uploadAll disk (userPath dataDir userId) path conflictResolution files fs).fs.get? q = fs.get? q) := by
  have hsame := upload_of_room disk hid hfs hdir quota files path conflictResolution declared hroom
  rw [herr] at hsame
  unfold FailsUnchanged
  rw [hsame.1, hsame.2]
  cases hstatus : uploadStatus e with
  | none =>
      simp only [answerStored, hstatus, ne_eq, not_true_eq_false, false_imp_iff, iff_true]
      intro response hresponse
      cases hresponse
  | some status =>
      simp only [answerStored, hstatus, ne_eq, reduceCtorEq, not_false_eq_true, true_imp_iff]
      constructor
      · intro h
        exact h _ rfl (uploadStatus_mem hstatus)
      · intro h response _ _
        exact h

section AllStored

variable (results : List UploadResult)
  (hok : (uploadAll disk (userPath dataDir userId) path conflictResolution files fs).result = .ok results)
  (hfs' : fs'.Region (userPath dataDir userId)) (hdir' : fs'.isDirAt (userPath dataDir userId) = true)
  (hstored : (uploadAll disk (userPath dataDir userId) path conflictResolution files fs).fs = fs')

include hok hfs' hdir' hstored

theorem failsUnchanged_of_within (hwithin : ¬quota < usedBytes disk fs' (userPath dataDir userId)) :
    FailsUnchanged (userPath dataDir userId) fs
      (upload disk dataDir userId quota files path conflictResolution declared fs) := by
  have hsame := upload_of_room disk hid hfs hdir quota files path conflictResolution declared hroom
  rw [hok, hstored] at hsame
  have hcheck := hsame.trans (checkStored_of_within disk hid hfs' hdir' quota path results hwithin)
  intro response hresponse hstatus
  rw [hcheck.2] at hresponse
  obtain rfl := Except.ok.inj hresponse
  simp [StorageResponse.status] at hstatus

/-- All files are stored, and the usage is over the quota: the rollback goes through only for distinct names that
are still there, and the directory is as it was exactly if none of them was there before. -/
theorem failsUnchanged_of_over (hover : quota < usedBytes disk fs' (userPath dataDir userId))
    (htargets : Targets disk fs' (userPath dataDir userId) path targetDir)
    (hbecomes : BecomesAt fs fs' targetDir after)
    (hproper : ∀ name ∈ results.map UploadResult.name, ProperName name ∧ hasNul name = false)
    (hothers : (results.map UploadResult.name).Nodup →
      (∀ name ∈ results.map UploadResult.name, namesAt fs targetDir name = none) →
        ∀ name, name ∉ results.map UploadResult.name → after name = namesAt fs targetDir name) :
    FailsUnchanged (userPath dataDir userId) fs
        (upload disk dataDir userId quota files path conflictResolution declared fs) ↔
      ((results.map UploadResult.name).Nodup → (∀ name ∈ results.map UploadResult.name, after name ≠ none) →
        ∀ name ∈ results.map UploadResult.name, namesAt fs targetDir name = none) := by
  have hsame := upload_of_room disk hid hfs hdir quota files path conflictResolution declared hroom
  rw [hok, hstored] at hsame
  have hcheck := hsame.trans (checkStored_of_over disk hid hfs' hdir' quota path results hover)
  have hkeys : (results.map fun result => relKey path result.name) =
      (results.map UploadResult.name).map (relKey path) := by
    rw [List.map_map]
    rfl
  rw [hkeys] at hcheck
  obtain ⟨hiff, heffect⟩ := deletePaths_keys disk htargets hfs' (results.map UploadResult.name) hproper
  rw [hbecomes.namesAt_eq] at hiff
  generalize results.map UploadResult.name = names at *
  cases hrollback : (deletePaths disk (userPath dataDir userId) (names.map (relKey path)) fs').result with
  | error e =>
      have hfails := hcheck.trans (FileM.sameEnd_bind_of_error _ _ fs' e hrollback)
      rw [hrollback] at hiff
      have hnot : ¬(names.Nodup ∧ ∀ name ∈ names, after name ≠ none) := by
        intro h
        obtain ⟨_, hfalse⟩ := hiff.mpr h
        cases hfalse
      refine iff_of_true ?_ fun hnodup hheld => absurd ⟨hnodup, hheld⟩ hnot
      intro response hresponse
      rw [hfails.2] at hresponse
      cases hresponse
  | ok deleted =>
      have hdone := hcheck.trans (FileM.sameEnd_bind_of_ok _ _ fs' deleted _ ⟨hrollback, rfl⟩)
      obtain ⟨hnodup, hheld⟩ := hiff.mp ⟨deleted, hrollback⟩
      have heffect := heffect ⟨deleted, hrollback⟩
      unfold FailsUnchanged
      rw [hdone.1, hdone.2]
      change (∀ response, Except.ok (StorageResponse.quotaExceeded quota none) = Except.ok response → _ →
        ∀ q, _ → (deletePaths disk (userPath dataDir userId) (names.map (relKey path)) fs').fs.get? q = _) ↔ _
      constructor
      · intro h _ _ name hname
        have hin := (htargets.inner hfs').1.trans (List.prefix_append targetDir [name])
        have hsameAt := h _ rfl (by simp [StorageResponse.status]) _ hin
        rw [(heffect _).1 ⟨name, hname, List.prefix_refl _⟩] at hsameAt
        exact hsameAt.symm
      · intro h response _ _ q _
        have hfree := h hnodup hheld
        by_cases hunder : UnderAny targetDir names q
        · rw [(heffect q).1 hunder]
          obtain ⟨name, hname, x, rfl⟩ := hunder
          by_contra hsome
          have hnode := fs.isSome_of_below _ _ (List.prefix_append (targetDir ++ [name]) x)
            (Option.isSome_iff_ne_none.mpr (Ne.symm hsome))
          exact absurd (hfree name hname) (Option.isSome_iff_ne_none.mp hnode)
        · rw [(heffect q).2 hunder]
          by_cases hname : ∃ name, q = targetDir ++ [name]
          · obtain ⟨name, rfl⟩ := hname
            have hnot : name ∉ names := fun hmem => hunder ⟨name, hmem, List.prefix_refl _⟩
            rw [hbecomes.names, hothers hnodup hfree name hnot]
            rfl
          · exact hbecomes.others q fun name heq => hname ⟨name, heq⟩

end AllStored

end Ends

section Names

variable {names after : Names α} {files : List (Upload α)} {conflictResolution : Option ConflictResolution}
  {result : Except FileError (List String)} (quota : Int) (usage : Nat)

theorem uploadStatus_of_invalid {f : Upload α} {e : FileError}
    (h : validateUploadFilename f.filename = .error e) : uploadStatus e ≠ none := by
  unfold validateUploadFilename at h
  repeat' split at h
  all_goals cases h
  all_goals simp [uploadStatus]

theorem harmless_iff_of_error {e : FileError} (h : StoresAll conflictResolution names files result after)
    (herr : result = .error e) :
    HarmlessUpload disk quota usage names files conflictResolution ↔ (uploadStatus e ≠ none → after = names) := by
  have hcases := h.error_cases herr
  cases conflictResolution with
  | none =>
      have hstatus : uploadStatus e ≠ none := by
        rcases hcases with ⟨f, -, hinvalid⟩ | ⟨-, name, path, rfl⟩ | ⟨hcr, -⟩
        · exact uploadStatus_of_invalid hinvalid
        · simp [uploadStatus]
        · cases hcr
      have hnot : ¬((∀ f ∈ files, f.accepted = true ∧ names f.filename = none) ∧
          (files.map Upload.filename).Nodup) := by
        intro hall
        obtain ⟨reported, hok⟩ := h.ok_iff_none.mpr hall
        rw [herr] at hok
        cases hok
      rw [HarmlessUpload, h.unchanged_iff_none herr rfl, or_iff_left hnot]
      simp only [hstatus, ne_eq, not_false_eq_true, true_imp_iff]
  | some cr =>
      cases cr with
      | rename =>
          obtain ⟨f, hf, hinvalid⟩ : ∃ f ∈ files, validateUploadFilename f.filename = .error e := by
            simpa using hcases
          have hnot : ¬∀ f ∈ files, f.accepted = true := by
            intro hall
            have haccepted := hall f hf
            rw [not_accepted_of_error hinvalid] at haccepted
            cases haccepted
          rw [HarmlessUpload, h.unchanged_iff_rename herr rfl, or_iff_left hnot]
          simp only [uploadStatus_of_invalid hinvalid, ne_eq, not_false_eq_true, true_imp_iff]
      | skip =>
          obtain ⟨f, hf, hinvalid⟩ : ∃ f ∈ files, validateUploadFilename f.filename = .error e := by
            simpa using hcases
          have hrefused := not_accepted_of_error hinvalid
          have hnot : ¬((∀ f ∈ files, f.accepted = true) ∧
              StoredHarmless disk (some .skip) quota usage names files) := by
            rintro ⟨hall, -⟩
            have haccepted := hall f hf
            rw [hrefused] at haccepted
            cases haccepted
          rw [HarmlessUpload, h.unchanged_iff_skip rfl, or_iff_right hnot]
          simp only [uploadStatus_of_invalid hinvalid, ne_eq, not_false_eq_true, true_imp_iff]
          exact and_iff_right ⟨f, hf, hrefused⟩
      | overwrite =>
          rcases h.overwrites with ⟨hblocked, e', hos⟩ | ⟨hfree, hafter, hend⟩
          · obtain rfl := Except.error.inj (herr.symm.trans hos)
            refine iff_of_true (.inl hblocked) fun hstatus => absurd rfl hstatus
          · obtain ⟨f, hf, e', he, hinvalid⟩ :
                ∃ f ∈ files, ∃ e, result = .error e ∧ validateUploadFilename f.filename = .error e := by
              rcases hend with ⟨hok, -⟩ | hend
              · rw [herr] at hok
                cases hok
              · exact hend
            obtain rfl := Except.error.inj (herr.symm.trans he)
            have hrefused := not_accepted_of_error hinvalid
            have hnot : ¬((∀ f ∈ files, f.accepted = true) ∧
                StoredHarmless disk (some .overwrite) quota usage names files) := by
              rintro ⟨hall, -⟩
              have haccepted := hall f hf
              rw [hrefused] at haccepted
              cases haccepted
            rw [HarmlessUpload, or_iff_right hfree, or_iff_right hnot, ← hafter]
            simp only [uploadStatus_of_invalid hinvalid, ne_eq, not_false_eq_true, true_imp_iff]
            exact and_iff_right ⟨f, hf, hrefused⟩

theorem harmless_iff_of_ok {reported : List String} (h : StoresAll conflictResolution names files result after)
    (hok : result = .ok reported) (exceeds : Prop)
    (hexceeds : after = files.foldl (taking conflictResolution) names →
      (WithinAfter disk quota usage names after files ↔ ¬exceeds)) :
    HarmlessUpload disk quota usage names files conflictResolution ↔
      (exceeds → reported.Nodup → (∀ name ∈ reported, after name ≠ none) → ∀ name ∈ reported, names name = none) := by
  have haccepted := h.accepted hok
  have hnone : ¬∃ f ∈ files, f.accepted = false := by
    rintro ⟨f, hf, hrefused⟩
    rw [haccepted f hf] at hrefused
    cases hrefused
  -- What is common to the two resolutions that keep the names.
  have hstored : reported = files.map Upload.filename → after = files.foldl (taking conflictResolution) names →
      (StoredHarmless disk conflictResolution quota usage names files ↔
        (exceeds → reported.Nodup → (∀ name ∈ reported, after name ≠ none) →
          ∀ name ∈ reported, names name = none)) := by
    rintro rfl hafter
    unfold StoredHarmless
    rw [← hafter, hexceeds hafter]
    simp only [List.mem_map, forall_exists_index, and_imp, forall_apply_eq_imp_iff₂]
    constructor
    · rintro (hfree | hwithin | hdup | ⟨f, hf, hgone⟩)
      · exact fun _ _ _ => hfree
      · exact fun hov => absurd hov hwithin
      · exact fun _ hnodup => absurd hnodup hdup
      · exact fun _ _ hheld => absurd hgone (hheld f hf)
    · intro hall
      by_cases hov : exceeds
      · by_cases hnodup : (files.map Upload.filename).Nodup
        · by_cases hheld : ∀ f ∈ files, after f.filename ≠ none
          · exact .inl (hall hov hnodup hheld)
          · push Not at hheld
            exact .inr (.inr (.inr hheld))
        · exact .inr (.inr (.inl hnodup))
      · exact .inr (.inl hov)
  cases conflictResolution with
  | none =>
      have hall := h.ok_iff_none.mp ⟨reported, hok⟩
      exact iff_of_true (.inr hall) fun _ _ _ => h.reported_free hok (by simp) (by simp)
  | some cr =>
      cases cr with
      | rename => exact iff_of_true (.inr haccepted) fun _ _ _ => h.reported_free hok (by simp) (by simp)
      | skip =>
          rw [HarmlessUpload, or_iff_left fun hrefused => hnone hrefused.1, and_iff_right haccepted]
          exact hstored (h.reported_filenames hok (by simp)) (h.after_eq hok (by simp))
      | overwrite =>
          have hfree : ¬Blocked names (acceptedFirst files) := by
            rcases h.overwrites with ⟨-, e, he⟩ | ⟨hfree, -⟩
            · rw [hok] at he
              cases he
            · exact hfree
          rw [HarmlessUpload, or_iff_right hfree, or_iff_left fun hrefused => hnone hrefused.1,
            and_iff_right haccepted]
          exact hstored (h.reported_filenames hok (by simp)) (h.after_eq hok (by simp))

end Names

section Claim

variable {dataDir : Location} {userId : Int}

theorem staysIn_uploadAll (path : String) (conflictResolution : Option ConflictResolution)
    (files : List (Upload α)) :
    StaysIn base (fun _ => True) (uploadAll disk base path conflictResolution files) :=
  (FileM.staysIn_forEach files fun f _ => staysIn_uploadFile disk path f conflictResolution).weaken
    fun _ _ => trivial

theorem uploadFile_of_noDirectory (hfs : fs.Region base) (path : String) (f : Upload α)
    (conflictResolution : Option ConflictResolution)
    (hnone : ∀ targetDir, SafePath disk fs base path targetDir → fs.isDirAt targetDir = false) :
    (uploadFile disk base path f conflictResolution fs).fs = fs ∧
      ∃ e, (uploadFile disk base path f conflictResolution fs).result = .error e := by
  have herror : ∀ (r : Except FileError UploadResult), (∀ b, r ≠ .ok b) → ∃ e, r = .error e := by
    intro r hr
    cases r with
    | error e => exact ⟨e, rfl⟩
    | ok b => exact absurd rfl (hr b)
  rcases uploadFile_cases disk base fs path f conflictResolution with
    ⟨hsame, hrefused, -⟩ | ⟨targetDir, hsafe, -, hproper, hsame, hresult⟩
  · exact ⟨hsame, herror _ hrefused⟩
  · have htarget := hsafe.inner disk hfs
    have hres := hfs.resolved_below htarget.1 htarget.2
    have hlinks : ∀ name, (fs.get? (targetDir ++ [name])).any Node.isLink = false :=
      fun name => hfs.noLink _ (htarget.1.trans (List.prefix_append _ _))
    have hopen : OpensNoLink disk fs targetDir f.filename conflictResolution := fun name _ => hlinks name
    have hnotDir := hnone targetDir hsafe
    have hdest : fs.isDirAt (targetDir ++ [f.filename]) = false := by
      by_contra hdir
      have hbelow := fs.isDirAt_of_below targetDir [f.filename] (by simp)
        (by rw [(fs.isDirAt_eq_true _).mp (by simpa using hdir)]; rfl)
      rw [hnotDir] at hbelow
      cases hbelow
    have hrefused : ∀ r, (storeUpload disk targetDir f.filename f conflictResolution fs).result ≠ .ok r := by
      intro r hr
      have hstorable := (storeUpload_stored disk fs targetDir f.filename f conflictResolution hres
        hproper.2.2.1 hopen).accepts.mp ⟨r, hr⟩
      have htrue := hstorable.1
      rw [hnotDir] at htrue
      cases htrue
    rw [hsame, hresult]
    exact ⟨storeUpload_refused disk fs targetDir f.filename f conflictResolution hres hproper.2.2.1 hopen
      (fun _ => hdest) hrefused, herror _ hrefused⟩

variable (hid : 0 < userId) (hstorage : StorageDir fs (userPath dataDir userId)) (quota : Int)
  (files : List (Upload α)) (conflictResolution : Option ConflictResolution) (declared : Nat)

include hid hstorage

theorem failsUnchanged_of_noDirectory
    (hroom : ¬(declared ≠ 0 ∧ quota < usedBytes disk fs (userPath dataDir userId) + declared)) (path : String)
    (hnone : ∀ targetDir, SafePath disk fs (userPath dataDir userId) path targetDir →
      fs.isDirAt targetDir = false) :
    FailsUnchanged (userPath dataDir userId) fs
      (upload disk dataDir userId quota files path conflictResolution declared fs) := by
  have hfs := hstorage.region
  cases files with
  | nil =>
      have hnil : (uploadAll disk (userPath dataDir userId) path conflictResolution [] fs).result = .ok [] := rfl
      have hsame : (uploadAll disk (userPath dataDir userId) path conflictResolution [] fs).fs = fs := rfl
      by_cases hwithin : quota < usedBytes disk fs (userPath dataDir userId)
      · have hgo := upload_of_room disk hid hfs hstorage.isDir quota [] path conflictResolution declared hroom
        rw [hnil, hsame] at hgo
        have hcheck := hgo.trans (checkStored_of_over disk hid hfs hstorage.isDir quota path [] hwithin)
        intro _ _ _ q _
        rw [hcheck.1]
        rfl
      · exact failsUnchanged_of_within disk hid hfs hstorage.isDir quota [] path conflictResolution declared hroom
          [] hnil hfs hstorage.isDir hsame hwithin
  | cons f rest =>
      obtain ⟨hsame, e, he⟩ := uploadFile_of_noDirectory disk hfs path f conflictResolution hnone
      have hstop := (FileM.forEach_cons_of_error (fun f => uploadFile disk (userPath dataDir userId) path f
        conflictResolution) f rest fs e he).2
      have hstopFs := (FileM.forEach_cons_of_error (fun f => uploadFile disk (userPath dataDir userId) path f
        conflictResolution) f rest fs e he).1
      rw [failsUnchanged_of_error disk hid hfs hstorage.isDir quota (f :: rest) path conflictResolution declared
        hroom e hstop]
      intro _ q _
      exact congrArg (FileSystem.get? · q) (hstopFs.trans hsame)

theorem failsUnchanged_iff_of_safe
    (hroom : ¬(declared ≠ 0 ∧ quota < usedBytes disk fs (userPath dataDir userId) + declared))
    (hsafe : SafePath disk fs (userPath dataDir userId) path targetDir) (hdir : fs.isDirAt targetDir = true) :
    FailsUnchanged (userPath dataDir userId) fs
        (upload disk dataDir userId quota files path conflictResolution declared fs) ↔
      HarmlessUpload disk quota (usedBytes disk fs (userPath dataDir userId)) (namesAt fs targetDir) files
        conflictResolution := by
  have hfs := hstorage.region
  have htarget := hsafe.inner disk hfs
  have hstays : StaysIn (userPath dataDir userId) (fun _ => True)
      (uploadAll disk (userPath dataDir userId) path conflictResolution files) :=
    staysIn_uploadAll disk path conflictResolution files
  have hfs' := hstays.region hfs
  obtain ⟨result, after, hall, hresult, hbecomes⟩ :=
    uploadFiles_storesAll disk hfs hsafe hdir conflictResolution files
  change (uploadAll disk (userPath dataDir userId) path conflictResolution files fs).result.map
    (List.map UploadResult.name) = result at hresult
  change BecomesAt fs (uploadAll disk (userPath dataDir userId) path conflictResolution files fs).fs
    targetDir after at hbecomes
  cases hend : (uploadAll disk (userPath dataDir userId) path conflictResolution files fs).result with
  | error e =>
      rw [hend] at hresult
      rw [failsUnchanged_of_error disk hid hfs hstorage.isDir quota files path conflictResolution declared hroom
        e hend, hbecomes.unchanged_iff htarget.1]
      exact (harmless_iff_of_error disk quota _ hall hresult.symm).symm
  | ok results =>
      rw [hend] at hresult
      have hok : result = .ok (results.map UploadResult.name) := hresult.symm
      have haccepted := hall.accepted hok
      have htargets' := (targets_of_safePath disk hsafe hfs).of_sameLinks (hstays.links fs hfs)
      have hdirBase : (uploadAll disk (userPath dataDir userId) path conflictResolution files fs).fs.isDirAt
          (userPath dataDir userId) = true := (hbecomes.isDirAt htarget.1).trans hstorage.isDir
      rw [harmless_iff_of_ok disk quota _ hall hok (quota < usedBytes disk
        (uploadAll disk (userPath dataDir userId) path conflictResolution files fs).fs (userPath dataDir userId))]
      · by_cases hover : quota < usedBytes disk
            (uploadAll disk (userPath dataDir userId) path conflictResolution files fs).fs (userPath dataDir userId)
        · rw [failsUnchanged_of_over disk hid hfs hstorage.isDir quota files path conflictResolution declared
            hroom results hend hfs' hdirBase rfl hover htargets' hbecomes (hall.reported_proper hok)
            fun hnodup hfree => hall.others_same hok hnodup hfree]
          simp only [hover, true_imp_iff]
        · exact iff_of_true (failsUnchanged_of_within disk hid hfs hstorage.isDir quota files path
            conflictResolution declared hroom results hend hfs' hdirBase rfl hover) fun h => absurd h hover
      · intro hafter
        refine withinAfter_iff disk hstorage hfs' hsafe hdir hbecomes quota files haccepted ?_
        intro name hname
        rw [hafter]
        refine foldl_taking_of_ne files _ name ?_
        intro f hf
        constructor
        · rintro rfl
          exact hname (List.mem_toFinset.mpr (List.mem_flatMap.mpr ⟨f, hf, List.mem_cons_self⟩))
        · rintro rfl
          exact hname (List.mem_toFinset.mpr (List.mem_flatMap.mpr ⟨f, hf, by simp⟩))

/-- An upload that fails leaves the directory of the user as it was exactly if its declared size is too large, or
its path names no directory, or its files are harmless. -/
theorem failsUnchanged_iff (path : String) :
    FailsUnchanged (userPath dataDir userId) fs
        (upload disk dataDir userId quota files path conflictResolution declared fs) ↔
      (declared ≠ 0 ∧ quota < usedBytes disk fs (userPath dataDir userId) + declared) ∨
        ∀ targetDir, safeLocation disk fs (userPath dataDir userId) path = some targetDir →
          fs.isDirAt targetDir = true →
            HarmlessUpload disk quota (usedBytes disk fs (userPath dataDir userId)) (namesAt fs targetDir) files
              conflictResolution := by
  have hfs := hstorage.region
  by_cases hover : declared ≠ 0 ∧ quota < usedBytes disk fs (userPath dataDir userId) + declared
  · have hsame := upload_of_declared disk hid hfs hstorage.isDir quota files path conflictResolution declared hover
    refine iff_of_true ?_ (.inl hover)
    intro _ _ _ q _
    rw [hsame.1]
  · rw [or_iff_right hover]
    by_cases hdir : ∃ targetDir, SafePath disk fs (userPath dataDir userId) path targetDir ∧
        fs.isDirAt targetDir = true
    · obtain ⟨targetDir, hsafe, hdir⟩ := hdir
      rw [failsUnchanged_iff_of_safe disk hid hstorage quota files conflictResolution declared hover hsafe hdir]
      have hlocation := (safeLocation_eq_some disk fs _ path targetDir).mpr hsafe
      constructor
      · intro h targetDir' hlocation' _
        obtain rfl := Option.some.inj (hlocation.symm.trans hlocation')
        exact h
      · exact fun h => h targetDir hlocation hdir
    · have hnone : ∀ targetDir, SafePath disk fs (userPath dataDir userId) path targetDir →
          fs.isDirAt targetDir = false :=
        fun targetDir hsafe => by
          by_contra hne
          exact hdir ⟨targetDir, hsafe, by simpa using hne⟩
      refine iff_of_true ?_ ?_
      · exact failsUnchanged_of_noDirectory disk hid hstorage quota files conflictResolution declared hover path
          hnone
      · intro targetDir hlocation htrue
        rw [hnone targetDir ((safeLocation_eq_some disk fs _ path targetDir).mp hlocation)] at htrue
        cases htrue

end Claim

/-- A user with one file. -/
def oneFile : FileSystem String where
  tree := [(["data"], .dir), (["data", "users"], .dir), (["data", "users", "1"], .dir),
    (["data", "users", "1", "a.txt"], .file "old")]
  closed := by decide

theorem storageDir_oneFile : StorageDir oneFile (userPath ["data"] 1) := by
  have hnoLink : ∀ q, (oneFile.get? q).any Node.isLink = false :=
    FileSystem.noLink_of_tree (by decide)
  refine ⟨⟨by decide, by decide +kernel, ⟨fun q _ => hnoLink q, by decide +kernel⟩, fun q _ => hnoLink q⟩,
    by decide +kernel, by decide +kernel⟩

/-- A file that was there is replaced, the usage is over the quota, and the rollback deletes the file. -/
theorem not_failsUnchanged_oneFile :
    ¬FailsUnchanged (userPath ["data"] 1) oneFile
      (upload textDisk ["data"] 1 10 [⟨"a.txt", "twelve bytes"⟩] "" (some .overwrite) 0 oneFile) := by
  intro h
  have hresult : (upload textDisk ["data"] 1 10 [⟨"a.txt", "twelve bytes"⟩] "" (some .overwrite) 0 oneFile).result =
      .ok (.quotaExceeded 10 none) := by decide +kernel
  have hgone : (upload textDisk ["data"] 1 10 [⟨"a.txt", "twelve bytes"⟩] "" (some .overwrite) 0
      oneFile).fs.get? ["data", "users", "1", "a.txt"] = none := by decide +kernel
  have hsame := h _ hresult (by decide) ["data", "users", "1", "a.txt"] (by decide +kernel)
  rw [hgone] at hsame
  exact absurd hsame (by decide +kernel)

/-- With another name for the new file, nothing that was there is lost. -/
theorem failsUnchanged_oneFile_renamed :
    FailsUnchanged (userPath ["data"] 1) oneFile
      (upload textDisk ["data"] 1 10 [⟨"a.txt", "twelve bytes"⟩] "" (some .rename) 0 oneFile) :=
  (failsUnchanged_iff textDisk (by decide) storageDir_oneFile 10 [⟨"a.txt", "twelve bytes"⟩] (some .rename) 0 "").mpr
    (.inr fun _ _ _ => .inr (by decide +kernel))

end NetworkFileServer.Relay
