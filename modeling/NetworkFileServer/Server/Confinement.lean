import Mathlib.Data.List.TakeWhile
import NetworkFileServer.Server.FreeName
import NetworkFileServer.Server.PathGuard

/-!
# Confinement of the file service

The guard checks the path that the user names; the operations then act on a child of it, on a sibling
or on the tree below. This module says for every operation exactly when all that it accesses is at or
below the base directory.
-/

namespace NetworkFileServer.Server.FileService

variable {α : Type} (disk : Disk α)

section Leads

variable (fs : FileSystem α) (base : Location)

/-- The path leads to an object outside the base directory. -/
def LeadsOutside (p : List String) : Prop :=
  ∃ l node, fs.locate disk.limits p = some (l, node) ∧ ¬base <+: l

/-- Opening the path for writing creates or changes a file outside the base directory. -/
def WritesOutside (p : List String) : Prop :=
  ∃ l, fs.locateCreat disk.limits p = some l ∧ fs.isDirAt l = false ∧ ¬base <+: l

theorem not_leadsOutside (p : List String) :
    ¬LeadsOutside disk fs base p ↔
      ∀ l node, fs.locate disk.limits p = some (l, node) → (Access.read l).Within base := by
  unfold LeadsOutside
  push Not
  rfl

theorem not_leadsOutside_of_resolved (p : Location) (hres : fs.Resolved p) (hin : base <+: p) :
    ¬LeadsOutside disk fs base p := by
  rw [not_leadsOutside, fs.locate_of_resolved _ _ hres]
  intro l node hl
  obtain ⟨node', -, heq⟩ := Option.map_eq_some_iff.mp hl
  cases heq
  exact hin

theorem logs_writeFile_within (p : List String) (content : α) :
    FileM.Logs (Access.Within base) (FileM.writeFile disk.limits p content) fs ↔
      ¬WritesOutside disk fs base p := by
  rw [FileM.logs_writeFile]
  unfold WritesOutside
  push Not
  refine forall_congr' fun l => ?_
  constructor
  · intro h hl hdir
    have hwithin := h hl (fs.isDirAt_of_locateCreat _ _ _ hl) hdir
    split at hwithin <;> exact hwithin
  · intro h hl _ hdir
    split <;> exact h hl hdir

end Leads

section Listing

variable (fs : FileSystem α) (baseDir : List String) (base : Location)

/-- Up to the first child that leads nowhere, no child of the listed directory leads outside. -/
def ListsWithin (relativePath : String) : Prop :=
  ∀ target, SafePath disk fs baseDir relativePath target →
    ∀ name ∈ (fs.names target).takeWhile
        fun name => (fs.locate disk.limits (target ++ [name])).isSome,
      ¬LeadsOutside disk fs base (target ++ [name])

private theorem logs_listEntries (P : Access → Prop) (target : Location) (names : List String) :
    FileM.Logs P (FileM.forEach (listEntry disk target) names) fs ↔
      ∀ name ∈ names.takeWhile fun name => (fs.locate disk.limits (target ++ [name])).isSome,
        ∀ l node, fs.locate disk.limits (target ++ [name]) = some (l, node) → P (.read l) := by
  induction names with
  | nil => simp [FileM.forEach]
  | cons name names ih =>
      have hentry : FileM.Logs P (listEntry disk target name) fs ↔
          ∀ l node, fs.locate disk.limits (target ++ [name]) = some (l, node) → P (.read l) := by
        rw [listEntry, FileM.logs_bind, FileM.logs_mapError, FileM.logs_stat]
        simp
      have hreturns : ∀ y fs', (listEntry disk target name).Returns fs y fs' →
          fs = fs' ∧ (fs.locate disk.limits (target ++ [name])).isSome = true := by
        intro y fs' hret
        obtain ⟨node, fs₁, hnode, hpure⟩ := (FileM.returns_bind _ _ _ _ _).mp hret
        obtain ⟨⟨l, hl⟩, rfl⟩ := (FileM.returns_stat _ _ _ _ _).mp
          ((FileM.returns_mapError _ _ _ _ _).mp hnode)
        obtain ⟨-, rfl⟩ := (FileM.returns_pure _ _ _ _).mp hpure
        exact ⟨rfl, by simp [hl]⟩
      rw [FileM.logs_forEach_cons, hentry]
      cases hloc : fs.locate disk.limits (target ++ [name]) with
      | none =>
          simp only [hloc, Option.isSome_none, Bool.false_eq_true, not_false_eq_true,
            List.takeWhile_cons_of_neg, List.not_mem_nil, false_implies, implies_true, iff_true,
            reduceCtorEq, true_and]
          intro y fs' hret
          have hsome := (hreturns y fs' hret).2
          rw [hloc] at hsome
          cases hsome
      | some found =>
          obtain ⟨l, node⟩ := found
          have hret : (listEntry disk target name).Returns fs
              (fileEntry disk (target ++ [name]) name node) fs := by
            refine (FileM.returns_bind _ _ _ _ _).mpr ⟨node, fs, ?_, by simp⟩
            rw [FileM.returns_mapError, FileM.returns_stat]
            exact ⟨⟨l, hloc⟩, rfl⟩
          rw [List.takeWhile_cons_of_pos (by simp [hloc]), List.forall_mem_cons, hloc, ← ih]
          refine and_congr_right fun _ => ?_
          constructor
          · exact fun h => h _ fs hret
          · intro h y fs' hret'
            rw [← (hreturns y fs' hret').1]
            exact h

theorem listDirectory_within (relativePath : String)
    (hbase : fs.resolve disk.limits baseDir = some base) :
    FileM.Logs (Access.Within base) (listDirectory disk baseDir relativePath) fs ↔
      ListsWithin disk fs baseDir base relativePath := by
  rw [listDirectory, FileM.logs_bind]
  have hguard := resolveSafePath_logs disk (Access.Within base) fs baseDir base relativePath hbase
    fun _ h => h
  constructor
  · rintro ⟨-, hrest⟩ target hsafe name hname
    have hlogs := ((FileM.logs_bind _ _ _ _).mp (hrest target fs hsafe)).2
    have hsome : (fs.locate disk.limits (target ++ [name])).isSome = true := by
      simpa using List.mem_takeWhile_imp hname
    have hdir := (fs.child_of_locate_below _ target [] name hsafe.resolved hsome).1
    have hlist : ((FileM.listdir disk.limits target).mapError FileError.os).Returns fs
        (fs.names target) fs := by
      rw [FileM.returns_mapError, FileM.returns_listdir]
      refine ⟨⟨target, ?_, rfl⟩, rfl⟩
      rw [fs.locate_of_resolved _ _ hsafe.resolved, (fs.isDirAt_eq_true _).mp hdir]
      rfl
    have hentries := ((FileM.logs_bind _ _ _ _).mp (hlogs _ fs hlist)).1
    rw [not_leadsOutside]
    exact (logs_listEntries disk fs _ target _).mp hentries name hname
  · intro h
    refine ⟨hguard, ?_⟩
    intro target fs' hret
    obtain ⟨hsafe, rfl⟩ := safePath_of_returns disk hret
    have hin := hsafe.inside hbase
    rw [FileM.logs_bind, FileM.logs_mapError, FileM.logs_listdir]
    refine ⟨?_, ?_⟩
    · intro l hl
      exact (not_leadsOutside disk fs base target).mp
        (not_leadsOutside_of_resolved disk fs base target hsafe.resolved hin) l _ hl
    · intro names fs' hret'
      obtain ⟨⟨l, hl, rfl⟩, rfl⟩ := (FileM.returns_listdir _ _ _ _ _).mp
        ((FileM.returns_mapError _ _ _ _ _).mp hret')
      rw [fs.locate_of_resolved _ _ hsafe.resolved] at hl
      obtain ⟨node, -, heq⟩ := Option.map_eq_some_iff.mp hl
      cases heq
      rw [FileM.logs_bind]
      refine ⟨?_, by simp⟩
      rw [logs_listEntries]
      intro name hname
      rw [← not_leadsOutside]
      exact h target hsafe name hname

end Listing

section Uploading

variable (fs : FileSystem α) (baseDir : List String) (base : Location)

/-- The names that RENAME tries lead nowhere outside, and neither does the first free one when it is
opened for writing. -/
def RenamesWithin (targetDir : Location) (filename : String) : Prop :=
  ∀ k, (∀ j < k, Taken disk fs targetDir (numbered filename (1 + j))) →
    ¬LeadsOutside disk fs base (targetDir ++ [numbered filename (1 + k)]) ∧
      (¬Taken disk fs targetDir (numbered filename (1 + k)) →
        ¬WritesOutside disk fs base (targetDir ++ [numbered filename (1 + k)]))

/-- The name in the target directory leads nowhere outside; nor do, when they are opened for writing,
the name itself if it is free, its temporary name if it is overwritten, and the name that RENAME
finds. -/
def UploadsWithin (relativeDir filename : String)
    (conflictResolution : Option ConflictResolution) : Prop :=
  ∀ targetDir, SafePath disk fs baseDir relativeDir targetDir →
    validateUploadFilename filename = .ok filename →
    ¬LeadsOutside disk fs base (targetDir ++ [filename]) ∧
      (¬Taken disk fs targetDir filename →
        ¬WritesOutside disk fs base (targetDir ++ [filename])) ∧
      (Taken disk fs targetDir filename → conflictResolution = some .overwrite →
        ¬WritesOutside disk fs base (targetDir ++ [tempName filename])) ∧
      (Taken disk fs targetDir filename → conflictResolution = some .rename →
        RenamesWithin disk fs base targetDir filename)

theorem logs_writeUploadChunks_within (upload : Upload α) (p : Location) :
    FileM.Logs (Access.Within base) (writeUploadChunks disk upload p) fs ↔
      ¬WritesOutside disk fs base p := by
  rw [writeUploadChunks, FileM.logs_bind, FileM.logs_mapError, logs_writeFile_within]
  simp

theorem logs_rename_child (targetDir : Location) (a b : String) (hres : fs.Resolved targetDir)
    (hin : base <+: targetDir) :
    FileM.Logs (Access.Within base)
      (FileM.rename disk.limits (targetDir ++ [a]) (targetDir ++ [b])) fs := by
  rw [FileM.logs_rename]
  intro s d hren
  have hs : s = targetDir ++ [a] := fs.locateEntry_eq _ _ _ (by simpa using hres) hren.source
  have hd : d = targetDir ++ [b] := fs.locateEntry_eq _ _ _ (by simpa using hres) hren.target
  refine ⟨hs ▸ hin.trans (List.prefix_append _ _), hd ▸ hin.trans (List.prefix_append _ _), ?_⟩
  intro heq
  have hlen := hin.length_le
  rw [← heq, hs, List.length_append, List.length_singleton] at hlen
  omega

theorem resolved_of_writeFile {fs' : FileSystem α} {p q : Location} {content : α}
    (hres : fs.Resolved q) (h : (FileM.writeFile disk.limits p content).Returns fs () fs') :
    fs'.Resolved q := by
  obtain ⟨l, -, hput, -, rfl⟩ := (FileM.returns_writeFile _ _ _ _ _).mp h
  exact hres.put hput rfl

theorem writeDirectly_within (targetDir : Location) (filename : String) (upload : Upload α) :
    FileM.Logs (Access.Within base) (writeDirectly disk targetDir filename upload) fs ↔
      ¬WritesOutside disk fs base (targetDir ++ [filename]) := by
  rw [writeDirectly, FileM.logs_bind, logs_writeUploadChunks_within]
  simp

theorem writeReplacing_within (targetDir : Location) (filename : String) (upload : Upload α)
    (hres : fs.Resolved targetDir) (hin : base <+: targetDir) :
    FileM.Logs (Access.Within base) (writeReplacing disk targetDir filename upload) fs ↔
      ¬WritesOutside disk fs base (targetDir ++ [tempName filename]) := by
  rw [writeReplacing, FileM.logs_bind, logs_writeUploadChunks_within]
  refine and_iff_left_of_imp fun _ => ?_
  intro bytes fs' hret
  obtain ⟨u, fs₁, hwrite, hpure⟩ := (FileM.returns_bind _ _ _ _ _).mp hret
  obtain ⟨-, rfl⟩ := (FileM.returns_pure _ _ _ _).mp hpure
  have hres' := resolved_of_writeFile disk fs hres ((FileM.returns_mapError _ _ _ _ _).mp hwrite)
  rw [FileM.logs_bind, FileM.logs_mapError]
  exact ⟨logs_rename_child disk fs₁ base targetDir _ _ hres' hin, by simp⟩

theorem returns_pathExists_iff (p : List String) (Q : Bool → FileSystem α → Prop) :
    (∀ b fs', (FileM.pathExists disk.limits p : FileM α FileError Bool).Returns fs b fs' →
        Q b fs') ↔
      Q (fs.locate disk.limits p).isSome fs := by
  simp only [FileM.returns_pathExists]
  constructor
  · exact fun h => h _ fs ⟨rfl, rfl⟩
  · rintro h b fs' ⟨rfl, rfl⟩
    exact h

theorem writeUpload_within (targetDir : Location) (filename : String) (upload : Upload α)
    (conflictResolution : Option ConflictResolution)
    (hcr : conflictResolution ≠ some .overwrite) :
    FileM.Logs (Access.Within base)
        (writeUpload disk targetDir filename upload conflictResolution) fs ↔
      ¬WritesOutside disk fs base (targetDir ++ [filename]) := by
  have hpure : overwrites disk targetDir filename conflictResolution =
      (pure false : FileM α FileError Bool) := by
    cases conflictResolution with
    | none => rfl
    | some cr =>
        cases cr with
        | overwrite => exact absurd rfl hcr
        | rename | skip => rfl
  rw [writeUpload, hpure, FileM.logs_bind, ← writeDirectly_within]
  simp only [FileM.logs_pure, FileM.returns_pure, true_and]
  constructor
  · exact fun h => h false fs ⟨rfl, rfl⟩
  · rintro h replaces fs' ⟨rfl, rfl⟩
    exact h

theorem writeUpload_overwrite_within (targetDir : Location) (filename : String)
    (upload : Upload α) (hres : fs.Resolved targetDir) (hin : base <+: targetDir) :
    FileM.Logs (Access.Within base)
        (writeUpload disk targetDir filename upload (some .overwrite)) fs ↔
      ¬LeadsOutside disk fs base (targetDir ++ [filename]) ∧
      (Taken disk fs targetDir filename →
        ¬WritesOutside disk fs base (targetDir ++ [tempName filename])) ∧
      (¬Taken disk fs targetDir filename →
        ¬WritesOutside disk fs base (targetDir ++ [filename])) := by
  rw [writeUpload, overwrites, FileM.logs_bind, FileM.logs_pathExists, ← not_leadsOutside,
    returns_pathExists_iff]
  refine and_congr_right fun _ => ?_
  by_cases htaken : Taken disk fs targetDir filename
  · have hsome : (fs.locate disk.limits (targetDir ++ [filename])).isSome = true := htaken
    simp [hsome, htaken, writeReplacing_within disk fs base targetDir filename upload hres hin]
  · have hnone : (fs.locate disk.limits (targetDir ++ [filename])).isSome = false := by
      simpa [Taken] using htaken
    simp [hnone, htaken, writeDirectly_within]

theorem renameConflict_within (targetDir : Location) (filename : String) (upload : Upload α)
    (hres : fs.Resolved targetDir) :
    FileM.Logs (Access.Within base)
        (resolveConflict disk targetDir filename upload (some .rename)) fs ↔
      RenamesWithin disk fs base targetDir filename := by
  rw [resolveConflict, FileM.logs_bind]
  simp only [FileM.logs_objectCount, FileM.returns_objectCount, true_and]
  constructor
  · intro h k htaken
    have hlogs := (FileM.logs_bind _ _ _ _).mp (h _ fs ⟨rfl, rfl⟩)
    have hk := taken_le_objects disk fs targetDir filename k hres htaken
    refine ⟨?_, ?_⟩
    · rw [not_leadsOutside]
      exact (logs_freeName disk fs _ _ _ _ _).mp hlogs.1 k (by omega) htaken
    · intro hfree
      have hret := (returns_freeName disk fs targetDir filename
        (numbered filename (1 + k)) (fs.tree.length + 1) 1 fs).mpr
        ⟨rfl, k, by omega, htaken, hfree, rfl⟩
      rw [← writeUpload_within disk fs base targetDir _ upload (some .rename) (by simp)]
      exact hlogs.2 _ fs hret
  · rintro h objects fs' ⟨rfl, rfl⟩
    rw [FileM.logs_bind, logs_freeName]
    refine ⟨?_, ?_⟩
    · intro k _ htaken
      rw [← not_leadsOutside]
      exact (h k htaken).1
    · intro newName fs' hret
      obtain ⟨rfl, k, -, htaken, hfree, rfl⟩ := (returns_freeName disk fs _ _ _ _ _ _).mp hret
      rw [writeUpload_within disk fs base targetDir _ upload (some .rename) (by simp)]
      exact (h k htaken).2 hfree

theorem storeUpload_within (targetDir : Location) (filename : String) (upload : Upload α)
    (conflictResolution : Option ConflictResolution) (hres : fs.Resolved targetDir)
    (hin : base <+: targetDir) :
    FileM.Logs (Access.Within base)
        (storeUpload disk targetDir filename upload conflictResolution) fs ↔
      ¬LeadsOutside disk fs base (targetDir ++ [filename]) ∧
      (¬Taken disk fs targetDir filename →
        ¬WritesOutside disk fs base (targetDir ++ [filename])) ∧
      (Taken disk fs targetDir filename → conflictResolution = some .overwrite →
        ¬WritesOutside disk fs base (targetDir ++ [tempName filename])) ∧
      (Taken disk fs targetDir filename → conflictResolution = some .rename →
        RenamesWithin disk fs base targetDir filename) := by
  rw [storeUpload, FileM.logs_bind, FileM.logs_pathExists, ← not_leadsOutside,
    returns_pathExists_iff]
  refine and_congr_right fun hout => ?_
  by_cases htaken : Taken disk fs targetDir filename
  · have hsome : (fs.locate disk.limits (targetDir ++ [filename])).isSome = true := htaken
    simp only [hsome, if_true, htaken, not_true_eq_false, false_implies, true_implies, true_and]
    cases conflictResolution with
    | none => simp [resolveConflict]
    | some cr =>
        cases cr with
        | skip =>
            simp only [Option.some.injEq, reduceCtorEq, false_implies, and_self, iff_true]
            rw [resolveConflict, FileM.logs_bind, FileM.logs_mapError, FileM.logs_stat,
              ← not_leadsOutside]
            exact ⟨hout, by simp⟩
        | overwrite =>
            rw [resolveConflict,
              writeUpload_overwrite_within disk fs base targetDir filename upload hres hin]
            simp [htaken, hout]
        | rename =>
            rw [renameConflict_within disk fs base targetDir filename upload hres]
            simp
  · have hnone : (fs.locate disk.limits (targetDir ++ [filename])).isSome = false := by
      simpa [Taken] using htaken
    simp only [hnone, Bool.false_eq_true, if_false, htaken, not_false_eq_true, true_implies,
      false_implies, and_true]
    by_cases hcr : conflictResolution = some .overwrite
    · rw [hcr, writeUpload_overwrite_within disk fs base targetDir filename upload hres hin]
      simp [htaken, hout]
    · exact writeUpload_within disk fs base targetDir filename upload conflictResolution hcr

theorem validateUploadFilename_eq (filename name : String)
    (h : validateUploadFilename filename = .ok name) : name = filename := by
  unfold validateUploadFilename at h
  repeat
    split at h
    · cases h
  exact (Except.ok.inj h).symm

theorem validateUploadFilename_of_isOk (filename : String) (h : (validateUploadFilename filename).isOk = true) :
    validateUploadFilename filename = .ok filename := by
  cases hvalid : validateUploadFilename filename with
  | ok name => rw [validateUploadFilename_eq filename name hvalid]
  | error e =>
      rw [hvalid] at h
      cases h

theorem uploadFile_within (relativeDir : String) (upload : Upload α)
    (conflictResolution : Option ConflictResolution)
    (hbase : fs.resolve disk.limits baseDir = some base) :
    FileM.Logs (Access.Within base)
        (uploadFile disk baseDir relativeDir upload conflictResolution) fs ↔
      UploadsWithin disk fs baseDir base relativeDir upload.filename conflictResolution := by
  rw [uploadFile, FileM.logs_bind]
  have hguard := resolveSafePath_logs disk (Access.Within base) fs baseDir base relativeDir hbase
    fun _ h => h
  constructor
  · rintro ⟨-, h⟩ targetDir hsafe hname
    have hrest := ((FileM.logs_bind _ _ _ _).mp (h targetDir fs hsafe)).2
    have hstore := hrest upload.filename fs ((returns_liftExcept _ _ _ _).mpr ⟨hname, rfl⟩)
    exact (storeUpload_within disk fs base targetDir _ upload _ hsafe.resolved
      (hsafe.inside hbase)).mp hstore
  · intro h
    refine ⟨hguard, ?_⟩
    intro targetDir fs' hret
    obtain ⟨hsafe, rfl⟩ := safePath_of_returns disk hret
    rw [FileM.logs_bind]
    refine ⟨by simp, ?_⟩
    intro name fs' hret'
    obtain ⟨hname, rfl⟩ := (returns_liftExcept _ _ _ _).mp hret'
    cases validateUploadFilename_eq _ _ hname
    exact (storeUpload_within disk fs base targetDir _ upload _ hsafe.resolved
      (hsafe.inside hbase)).mpr (h targetDir hsafe hname)

end Uploading

end NetworkFileServer.Server.FileService
