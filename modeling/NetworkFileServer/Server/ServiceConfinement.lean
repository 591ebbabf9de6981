import NetworkFileServer.Server.Confinement
import NetworkFileServer.Server.FileEffects
import NetworkFileServer.Server.ZipWalk

/-!
# Confinement of the file service: the other operations and the whole service

Downloads stay inside without a condition. New folders depend on the name of the child, renames on
the name of the sibling and on whether the base directory itself is renamed, deletions on the base
directory resolving to the same place throughout, archives on the whole tree below their paths.
-/

namespace NetworkFileServer.Server.FileService

variable {α : Type} (disk : Disk α)

section Single

variable (fs : FileSystem α) (baseDir : List String) (base : Location)

theorem downloadFile_within (relativePath : String)
    (hbase : fs.resolve disk.limits baseDir = some base) :
    FileM.Logs (Access.Within base)
      (downloadFile disk baseDir relativePath >>= fileResponse disk) fs := by
  rw [FileM.logs_bind]
  constructor
  · rw [downloadFile, FileM.logs_bind]
    constructor
    · exact resolveSafePath_logs disk _ fs baseDir base relativePath hbase fun _ h => h
    · intro resolved fs' hret
      obtain ⟨hsafe, rfl⟩ := safePath_of_returns disk hret
      have hin := not_leadsOutside_of_resolved disk fs base resolved hsafe.resolved
        (hsafe.inside hbase)
      rw [FileM.logs_bind, FileM.logs_isDir]
      constructor
      · exact (not_leadsOutside disk fs base resolved).mp hin
      · intro directory fs' _
        cases directory <;> simp
  · intro path fs' hret
    rw [downloadFile] at hret
    obtain ⟨resolved, fs₁, hguard, hrest⟩ := (FileM.returns_bind _ _ _ _ _).mp hret
    obtain ⟨hsafe, rfl⟩ := safePath_of_returns disk hguard
    obtain ⟨directory, fs₁, hdir, hrest⟩ := (FileM.returns_bind _ _ _ _ _).mp hrest
    obtain ⟨-, rfl⟩ := (FileM.returns_isDir _ _ _ _ _).mp hdir
    cases directory with
    | true => exact absurd hrest (FileM.returns_fail _ _ _ _)
    | false =>
        obtain ⟨rfl, rfl⟩ := (FileM.returns_pure _ _ _ _).mp hrest
        have hin := not_leadsOutside_of_resolved disk fs base resolved hsafe.resolved
          (hsafe.inside hbase)
        rw [fileResponse, FileM.logs_mapError, FileM.logs_readFile]
        intro l content hl
        exact (not_leadsOutside disk fs base resolved).mp hin l _ hl

theorem parse_of_validateName (name : String) (h : validateName name = .ok ()) :
    (PurePath.parse name).parts = [] ∧ name = "." ∨
      (PurePath.parse name).parts = [name] ∧ name ≠ ".." := by
  unfold validateName at h
  split at h
  · cases h
  rename_i hempty
  split at h
  · cases h
  rename_i hslash
  split at h
  · cases h
  rename_i hup
  have hsplit : name.toList.splitOn '/' = [name.toList] :=
    List.splitOn_eq_singleton (by simpa using hslash)
  simp only [PurePath.parse, hsplit, List.map_singleton, String.ofList_toList]
  by_cases hdot : name = "."
  · exact .inl ⟨by simp [hdot], hdot⟩
  · exact .inr ⟨by simp [hempty, hdot], hup⟩

/-- The name of the new folder leads nowhere outside. -/
def CreatesWithin (parentRelative folderName : String) : Prop :=
  ∀ parent, SafePath disk fs baseDir parentRelative parent → validateName folderName = .ok () →
    ¬LeadsOutside disk fs base (parent ++ (PurePath.parse folderName).parts)

theorem createFolder_within (parentRelative folderName : String)
    (hbase : fs.resolve disk.limits baseDir = some base) :
    FileM.Logs (Access.Within base) (createFolder disk baseDir parentRelative folderName) fs ↔
      CreatesWithin disk fs baseDir base parentRelative folderName := by
  have hguard := resolveSafePath_logs disk (Access.Within base) fs baseDir base parentRelative hbase
    fun _ h => h
  rw [createFolder, FileM.logs_bind]
  constructor
  · rintro ⟨-, h⟩ parent hsafe hname
    have hrest := h () fs ((returns_liftExcept _ _ _ _).mpr ⟨hname, rfl⟩)
    have hparent := ((FileM.logs_bind _ _ _ _).mp hrest).2 parent fs hsafe
    have hexists := ((FileM.logs_bind _ _ _ _).mp hparent).1
    rwa [FileM.logs_pathExists, ← not_leadsOutside] at hexists
  · intro h
    refine ⟨by simp, ?_⟩
    intro u fs' hret
    obtain ⟨hname, rfl⟩ := (returns_liftExcept _ _ _ _).mp hret
    rw [FileM.logs_bind]
    refine ⟨hguard, ?_⟩
    intro parent fs' hret'
    obtain ⟨hsafe, rfl⟩ := safePath_of_returns disk hret'
    rw [FileM.logs_bind, FileM.logs_pathExists, ← not_leadsOutside]
    refine ⟨h parent hsafe hname, ?_⟩
    intro taken fs' hret₁
    obtain ⟨-, rfl⟩ := (FileM.returns_pathExists _ _ _ _ _).mp hret₁
    cases taken with
    | true => simp [FileM.logs_bind]
    | false =>
        simp only [Bool.false_eq_true, if_false, FileM.logs_bind, FileM.logs_mapError,
          logs_resolvePath, logs_liftExcept, implies_true, and_true]
        rw [FileM.logs_mkdir]
        intro l hl _ _
        have hnewRes : fs.Resolved (parent ++ (PurePath.parse folderName).parts).dropLast := by
          rcases parse_of_validateName folderName hname with ⟨hparts, -⟩ | ⟨hparts, -⟩
          · rw [hparts, List.append_nil]
            exact hsafe.resolved.dropLast
          · rw [hparts, List.dropLast_concat]
            exact hsafe.resolved
        rw [fs.locateEntry_eq _ _ _ hnewRes hl]
        exact (hsafe.inside hbase).trans (List.prefix_append _ _)

/-- The rename takes the base directory itself to the new path: the base exists, it is not the root of
the file system, and nothing is in the way. -/
def MovesBase (newPath : Location) : Prop :=
  base ≠ [] ∧ (fs.get? base).isSome = true ∧ fs.locate disk.limits newPath = none ∧
    (fs.isDirAt base = true → fs.get? newPath = none)

/-- The new path of what is renamed leads nowhere outside, and the base directory is not renamed. -/
def MovesWithin (oldRelative newName : String) : Prop :=
  ∀ resolved, SafePath disk fs baseDir oldRelative resolved → validateName newName = .ok () →
    ¬LeadsOutside disk fs base (resolved.dropLast ++ (PurePath.parse newName).parts) ∧
      (resolved = base →
        ¬MovesBase disk fs base (resolved.dropLast ++ (PurePath.parse newName).parts))

theorem resolved_newPath (resolved : Location) (newName : String)
    (hres : fs.Resolved resolved) (hname : validateName newName = .ok ()) :
    fs.Resolved (resolved.dropLast ++ (PurePath.parse newName).parts).dropLast := by
  rcases parse_of_validateName newName hname with ⟨hparts, -⟩ | ⟨hparts, -⟩
  · rw [hparts, List.append_nil]
    exact hres.dropLast.dropLast
  · rw [hparts, List.dropLast_concat]
    exact hres.dropLast

theorem renames_base (newName : String) (hres : fs.Resolved base)
    (hname : validateName newName = .ok ())
    (hmoves : MovesBase disk fs base (base.dropLast ++ (PurePath.parse newName).parts)) :
    FileM.Renames disk.limits fs base (base.dropLast ++ (PurePath.parse newName).parts) base
      (base.dropLast ++ (PurePath.parse newName).parts) := by
  obtain ⟨hne, hsome, hfree, hdir⟩ := hmoves
  have hparent := fs.isDirAt_dropLast base hsome
  rcases parse_of_validateName newName hname with ⟨hparts, -⟩ | ⟨hparts, hup⟩
  · -- The name `.` is the parent directory, which is there.
    rw [hparts, List.append_nil, fs.locate_of_resolved _ _ hres.dropLast,
      (fs.isDirAt_eq_true _).mp hparent] at hfree
    cases hfree
  · rw [hparts] at hfree hdir ⊢
    have hsource := fs.locateEntry_of_exists disk.limits base hres hsome
    have htarget : fs.locateEntry disk.limits (base.dropLast ++ [newName]) =
        some (base.dropLast ++ [newName]) := by
      rw [fs.locateEntry_of_resolved _ _ _ hup hres.dropLast, if_pos hparent]
    -- The new name is free, or a link that leads nowhere.
    have hnotDir : fs.isDirAt (base.dropLast ++ [newName]) = false := by
      by_contra hnot
      have hnode := (fs.isDirAt_eq_true _).mp (by simpa using hnot)
      have hresNew : fs.Resolved (base.dropLast ++ [newName]) :=
        hres.dropLast.snoc hup (by simp [hnode, Node.isLink])
      rw [fs.locate_of_resolved _ _ hresNew, hnode] at hfree
      cases hfree
    have hcan : FileM.canReplace fs base (base.dropLast ++ [newName]) = .ok () := by
      obtain ⟨node, hnode⟩ := Option.isSome_iff_exists.mp hsome
      have hdirNode := fs.isDirAt_eq_true (base.dropLast ++ [newName])
      unfold FileM.canReplace
      rw [hnode]
      cases hnew : fs.get? (base.dropLast ++ [newName]) with
      | none => rfl
      | some other =>
          cases node with
          | dir =>
              have := hdir ((fs.isDirAt_eq_true base).mpr hnode)
              rw [hnew] at this
              cases this
          | file _ | link _ =>
              cases other with
              | dir =>
                  rw [hnotDir, hnew] at hdirNode
                  simp at hdirNode
              | file _ | link _ => rfl
    have hbelow : ¬base <+: base.dropLast ++ [newName] := by
      intro hpre
      have hlen : base.length = (base.dropLast ++ [newName]).length := by
        have hpos := List.length_pos_of_ne_nil hne
        simp only [List.length_append, List.length_dropLast, List.length_singleton]
        omega
      have heq := hpre.eq_of_length hlen
      rw [← heq, fs.locate_of_resolved _ _ hres] at hfree
      obtain ⟨node, hnode⟩ := Option.isSome_iff_exists.mp hsome
      rw [hnode] at hfree
      cases hfree
    exact ⟨hsource, htarget, hcan, hsome, hbelow, by rwa [List.dropLast_concat],
      fs.vacant_of_not_dir _ hnotDir⟩

theorem movesBase_of_renames (newName : String) (hres : fs.Resolved base)
    (hname : validateName newName = .ok ())
    (hfree : fs.locate disk.limits (base.dropLast ++ (PurePath.parse newName).parts) = none)
    (hren : FileM.Renames disk.limits fs base (base.dropLast ++ (PurePath.parse newName).parts) base
      (base.dropLast ++ (PurePath.parse newName).parts)) :
    MovesBase disk fs base (base.dropLast ++ (PurePath.parse newName).parts) := by
  refine ⟨hren.movable.src_ne, hren.movable.source, hfree, ?_⟩
  intro hdir
  have hcan := hren.replaces
  rcases parse_of_validateName newName hname with ⟨hparts, -⟩ | ⟨hparts, hup⟩
  · rw [hparts, List.append_nil, fs.locate_of_resolved _ _ hres.dropLast,
      (fs.isDirAt_eq_true _).mp (fs.isDirAt_dropLast base hren.movable.source)] at hfree
    cases hfree
  · rw [hparts] at hfree hcan ⊢
    unfold FileM.canReplace at hcan
    rw [(fs.isDirAt_eq_true base).mp hdir] at hcan
    cases hnew : fs.get? (base.dropLast ++ [newName]) with
    | none => rfl
    | some node =>
        rw [hnew] at hcan
        cases node with
        | file _ | link _ => cases hcan
        | dir =>
            have hresNew : fs.Resolved (base.dropLast ++ [newName]) :=
              hres.dropLast.snoc hup (by simp [hnew, Node.isLink])
            rw [fs.locate_of_resolved _ _ hresNew, hnew] at hfree
            cases hfree

theorem renamePath_within (oldRelative newName : String)
    (hbase : fs.resolve disk.limits baseDir = some base) :
    FileM.Logs (Access.Within base) (renamePath disk baseDir oldRelative newName) fs ↔
      MovesWithin disk fs baseDir base oldRelative newName := by
  have hbaseRes := fs.resolve_resolved _ _ _ hbase
  have hguard := resolveSafePath_logs disk (Access.Within base) fs baseDir base oldRelative hbase
    fun _ h => h
  -- The part of the program that depends on whether the new path is taken.
  have hrename : ∀ resolved newPath : Location, FileM.Logs (Access.Within base) (do
        (FileM.rename disk.limits resolved newPath).mapError .os
        let baseResolved ← resolvePath disk baseDir
        liftExcept (relativeTo newPath baseResolved)) fs ↔
      FileM.Logs (Access.Within base) (FileM.rename disk.limits resolved newPath) fs := by
    intro resolved newPath
    simp [FileM.logs_bind]
  rw [renamePath, FileM.logs_bind]
  constructor
  · rintro ⟨-, h⟩ resolved hsafe hname
    have hrest := h () fs ((returns_liftExcept _ _ _ _).mpr ⟨hname, rfl⟩)
    have hold := ((FileM.logs_bind _ _ _ _).mp hrest).2 resolved fs hsafe
    obtain ⟨hexists, hnext⟩ := (FileM.logs_bind _ _ _ _).mp hold
    rw [FileM.logs_pathExists, ← not_leadsOutside] at hexists
    refine ⟨hexists, ?_⟩
    rintro rfl hmoves
    have hmove := hnext false fs ((FileM.returns_pathExists _ _ _ _ _).mpr (by simp [hmoves.2.2.1]))
    rw [if_neg (by simp), hrename, FileM.logs_rename] at hmove
    exact (hmove _ _ (renames_base disk fs resolved newName hbaseRes hname hmoves)).2.2 rfl
  · intro h
    refine ⟨by simp, ?_⟩
    intro u fs' hret
    obtain ⟨hname, rfl⟩ := (returns_liftExcept _ _ _ _).mp hret
    rw [FileM.logs_bind]
    refine ⟨hguard, ?_⟩
    intro resolved fs' hret'
    obtain ⟨hsafe, rfl⟩ := safePath_of_returns disk hret'
    obtain ⟨hout, hmoves⟩ := h resolved hsafe hname
    rw [FileM.logs_bind, FileM.logs_pathExists, ← not_leadsOutside]
    refine ⟨hout, ?_⟩
    intro taken fs' hret₁
    obtain ⟨htaken, rfl⟩ := (FileM.returns_pathExists _ _ _ _ _).mp hret₁
    cases taken with
    | true => simp [FileM.logs_bind]
    | false =>
        rw [if_neg (by simp), hrename, FileM.logs_rename]
        intro src dst hren
        have hsrc : src = resolved := fs.locateEntry_eq _ _ _ hsafe.resolved.dropLast hren.source
        have hdst := fs.locateEntry_eq _ _ _ (resolved_newPath fs resolved newName hsafe.resolved hname)
          hren.target
        subst hsrc hdst
        have hin := hsafe.inside hbase
        have hne : src ≠ base := by
          rintro rfl
          exact hmoves rfl (movesBase_of_renames disk fs src newName hbaseRes hname
            (by simpa using htaken) hren)
        have hparent : base <+: src.dropLast := by
          obtain ⟨x, rfl⟩ := hin
          have hx : x ≠ [] := by
            rintro rfl
            exact hne (List.append_nil base)
          rw [List.dropLast_append_of_ne_nil hx]
          exact List.prefix_append base _
        exact ⟨hin, hparent.trans (List.prefix_append _ _), hne⟩

end Single

section Deleting

variable (baseDir : List String) (base : Location)

/-- Each path that exists, resolved after the deletions before it, is inside the base directory as it
was resolved at the start. -/
def DeletesWithin : FileSystem α → List String → Prop
  | _, [] => True
  | fs, path :: paths =>
      ∀ resolved, SafePath disk fs baseDir path resolved → (fs.get? resolved).isSome = true →
        base <+: resolved ∧ (resolved ≠ [] → DeletesWithin (fs.erase resolved) paths)

private theorem deletePath_within (fs : FileSystem α) (path : String) :
    FileM.Logs (Access.Within base) (deletePath disk baseDir path) fs ↔
      ∀ resolved, SafePath disk fs baseDir path resolved → (fs.get? resolved).isSome = true →
        base <+: resolved := by
  rw [deletePath, FileM.logs_bind, logs_resolveSafePath]
  constructor
  · rintro ⟨-, h⟩ resolved hsafe hsome
    have hremove := ((FileM.logs_bind _ _ _ _).mp (h resolved fs hsafe)).1
    rw [removeObject, FileM.logs_bind, FileM.logs_isDir, fs.locate_of_resolved _ _ hsafe.resolved]
      at hremove
    obtain ⟨node, hnode⟩ := Option.isSome_iff_exists.mp hsome
    exact hremove.1 resolved node (by rw [hnode]; rfl)
  · intro h
    constructor
    · intro hempty resolved hsafe
      obtain ⟨-, base', -, hr⟩ := (returns_resolveSafePath disk _ _ _ _ _).mp hsafe
      exact h resolved hsafe (hr.resolve_left fun hr => hempty hr.1).2.2.1
    · intro resolved fs' hret
      obtain ⟨hsafe, rfl⟩ := safePath_of_returns disk hret
      rw [FileM.logs_bind]
      refine ⟨?_, by simp⟩
      cases hnode : fs.get? resolved with
      | none =>
          obtain ⟨e, he⟩ := removeObject_of_missing disk fs resolved hsafe.resolved hnode
          intro a ha
          simp [he] at ha
      | some node =>
          have hsome : (fs.get? resolved).isSome = true := by simp [hnode]
          have hin := h resolved hsafe hsome
          intro a ha
          obtain ⟨-, -, hlog⟩ := removeObject_of_exists disk fs resolved hsafe.resolved hsome
          rcases hlog a ha with rfl | ⟨q, hq, rfl⟩
          · exact hin
          · exact hin.trans hq

theorem returns_deletePath (fs fs' : FileSystem α) (path deleted : String) :
    (deletePath disk baseDir path).Returns fs deleted fs' ↔
      deleted = path ∧ ∃ resolved, SafePath disk fs baseDir path resolved ∧
        (fs.get? resolved).isSome = true ∧ resolved ≠ [] ∧ fs' = fs.erase resolved := by
  rw [deletePath, FileM.returns_bind]
  constructor
  · rintro ⟨resolved, fs₁, hguard, hret⟩
    obtain ⟨hsafe, rfl⟩ := safePath_of_returns disk hguard
    obtain ⟨u, fs₁, hremove, hpure⟩ := (FileM.returns_bind _ _ _ _ _).mp hret
    obtain ⟨rfl, rfl⟩ := (FileM.returns_pure _ _ _ _).mp hpure
    refine ⟨rfl, resolved, hsafe, ?_⟩
    cases hnode : fs.get? resolved with
    | none =>
        obtain ⟨e, he⟩ := removeObject_of_missing disk fs resolved hsafe.resolved hnode
        rw [FileM.Returns, he] at hremove
        cases hremove.1
    | some node =>
        obtain ⟨hfs, hok, -⟩ := removeObject_of_exists disk fs resolved hsafe.resolved
          (by simp [hnode])
        exact ⟨rfl, hok.mp hremove.1, by rw [← hfs, hremove.2]⟩
  · rintro ⟨rfl, resolved, hsafe, hsome, hroot, rfl⟩
    obtain ⟨hfs, hok, -⟩ := removeObject_of_exists disk fs resolved hsafe.resolved hsome
    refine ⟨resolved, fs, hsafe, (FileM.returns_bind _ _ _ _ _).mpr ⟨(), _, ⟨?_, hfs⟩, by simp⟩⟩
    exact hok.mpr hroot

theorem deletePaths_within (fs : FileSystem α) (paths : List String) :
    FileM.Logs (Access.Within base) (deletePaths disk baseDir paths) fs ↔
      DeletesWithin disk baseDir base fs paths := by
  unfold deletePaths
  induction paths generalizing fs with
  | nil => simp [FileM.forEach, DeletesWithin]
  | cons path paths ih =>
      rw [FileM.logs_forEach_cons, deletePath_within, DeletesWithin]
      simp only [returns_deletePath, ih]
      constructor
      · rintro ⟨hin, hrest⟩ resolved hsafe hsome
        exact ⟨hin resolved hsafe hsome, fun hroot =>
          hrest path _ ⟨rfl, resolved, hsafe, hsome, hroot, rfl⟩⟩
      · intro h
        refine ⟨fun resolved hsafe hsome => (h resolved hsafe hsome).1, ?_⟩
        rintro deleted fs' ⟨rfl, resolved, hsafe, hsome, hroot, rfl⟩
        exact (h resolved hsafe hsome).2 hroot

/-- A base directory that is its own resolved path, as `ServerConfig` stores it, stays so under
deletions: they are confined without a condition. -/
theorem deletesWithin_of_resolved (fs : FileSystem α) (paths : List String)
    (hres : fs.Resolved base) : DeletesWithin disk base base fs paths := by
  induction paths generalizing fs with
  | nil => trivial
  | cons path paths ih =>
      intro resolved hsafe _
      exact ⟨hsafe.inside (fs.resolve_of_resolved _ _ hres), fun _ => ih _ (hres.erase resolved)⟩

end Deleting

section Archives

variable (fs : FileSystem α) (baseDir : List String) (base : Location)

/-- If every path is let through, nothing in the trees below them leads outside. -/
def ZipsWithin (paths : List String) : Prop :=
  (∀ path ∈ paths, ∃ resolved, SafePath disk fs baseDir path resolved) →
    ∀ path ∈ paths, ∀ resolved, SafePath disk fs baseDir path resolved →
      ∀ names : List String, names.length ≤ disk.walkDepth → (∀ name ∈ names, ProperName name) →
        ¬LeadsOutside disk fs base (resolved ++ names)

private theorem logs_guardAll (paths : List String)
    (hbase : fs.resolve disk.limits baseDir = some base) :
    FileM.Logs (Access.Within base) (FileM.forEach (resolveSafePath disk baseDir) paths) fs := by
  induction paths with
  | nil => simp [FileM.forEach]
  | cons path paths ih =>
      rw [FileM.logs_forEach_cons]
      constructor
      · exact resolveSafePath_logs disk _ fs baseDir base path hbase fun _ h => h
      · intro resolved fs' hret
        obtain ⟨-, rfl⟩ := safePath_of_returns disk hret
        exact ih

theorem returns_guardAll (fs' : FileSystem α) (paths : List String) (resolved : List Location)
    (h : (FileM.forEach (resolveSafePath disk baseDir) paths).Returns fs resolved fs') :
    fs = fs' ∧ (∀ path ∈ paths, ∃ r ∈ resolved, SafePath disk fs baseDir path r) ∧
      ∀ r ∈ resolved, ∃ path ∈ paths, SafePath disk fs baseDir path r := by
  induction paths generalizing resolved with
  | nil =>
      obtain ⟨rfl, rfl⟩ := (FileM.returns_pure _ _ _ _).mp h
      simp
  | cons path paths ih =>
      obtain ⟨r, rs, fs₁, hr, hrs, rfl⟩ := (FileM.returns_forEach_cons _ _ _ _ _ _).mp h
      obtain ⟨hsafe, rfl⟩ := safePath_of_returns disk hr
      obtain ⟨hfs, hpaths, hlocs⟩ := ih rs hrs
      refine ⟨hfs, ?_, ?_⟩
      · refine List.forall_mem_cons.mpr ⟨⟨r, List.mem_cons_self, hsafe⟩, ?_⟩
        intro path' hpath'
        obtain ⟨r', hr', hsafe'⟩ := hpaths path' hpath'
        exact ⟨r', List.mem_cons_of_mem _ hr', hsafe'⟩
      · refine List.forall_mem_cons.mpr ⟨⟨path, List.mem_cons_self, hsafe⟩, ?_⟩
        intro r' hr'
        obtain ⟨path', hpath', hsafe'⟩ := hlocs r' hr'
        exact ⟨path', List.mem_cons_of_mem _ hpath', hsafe'⟩

private theorem logs_addResolved (P : Access → Prop) (resolved : Location)
    (hin : base <+: resolved) :
    (∃ members, (addResolvedVia (addPath disk disk.walkDepth) base resolved).Returns fs members fs) ∧
      (FileM.Logs P (addResolvedVia (addPath disk disk.walkDepth) base resolved) fs ↔
        ∀ names : List String, names.length ≤ disk.walkDepth →
          (∀ name ∈ names, ProperName name) →
          ∀ l node, fs.locate disk.limits (resolved ++ names) = some (l, node) → P (.read l)) := by
  obtain ⟨arcname, harc⟩ : ∃ arcname, relativeTo resolved base = .ok arcname := by
    unfold relativeTo
    rw [if_pos hin]
    exact ⟨_, rfl⟩
  have hret : (liftExcept (relativeTo resolved base) : FileM α FileError String).Returns fs arcname
      fs := by
    simp [harc]
  constructor
  · obtain ⟨members, hmembers⟩ := addPath_returns disk fs disk.walkDepth resolved arcname
    exact ⟨members, (FileM.returns_bind_of_returns _ _ _ _ _ hret _ _).mpr hmembers⟩
  · rw [addResolvedVia, FileM.logs_bind_of_returns _ _ _ _ _ _ hret, logs_addPath]
    simp

private theorem logs_zipStream (resolved : List Location) (hin : ∀ r ∈ resolved, base <+: r) :
    FileM.Logs (Access.Within base) (zipStreamVia (addPath disk disk.walkDepth) base resolved) fs ↔
      ∀ r ∈ resolved, ∀ names : List String, names.length ≤ disk.walkDepth →
        (∀ name ∈ names, ProperName name) → ¬LeadsOutside disk fs base (r ++ names) := by
  have hreturns : ∀ r ∈ resolved, ∃ members,
      (addResolvedVia (addPath disk disk.walkDepth) base r).Returns fs members fs := fun r hr =>
    (logs_addResolved disk fs base (fun _ => True) r (hin r hr)).1
  obtain ⟨members, hmembers⟩ := FileM.returns_forEach_of_returns _ fs resolved hreturns
  rw [zipStreamVia, FileM.logs_bind_of_returns _ _ _ _ _ _ hmembers,
    FileM.logs_forEach_of_returns _ _ _ _ hreturns]
  simp only [FileM.logs_pure, and_true]
  apply forall₂_congr
  intro r hr
  rw [(logs_addResolved disk fs base _ r (hin r hr)).2]
  simp only [not_leadsOutside]

theorem downloadAsZip_within (paths : List String)
    (hbase : fs.resolve disk.limits baseDir = some base) :
    FileM.Logs (Access.Within base) (downloadAsZip disk baseDir paths) fs ↔
      ZipsWithin disk fs baseDir base paths := by
  have hresolve : (resolvePath disk baseDir).Returns fs base fs := by simp [hbase]
  have hguard := logs_guardAll disk fs baseDir base paths hbase
  rw [downloadAsZip, downloadAsZipVia, FileM.logs_bind_of_returns _ _ _ _ _ _ hresolve, FileM.logs_bind]
  constructor
  · rintro ⟨-, -, h⟩ hall path hpath r hsafe
    obtain ⟨resolved, hret⟩ := FileM.returns_forEach_of_returns
      (resolveSafePath disk baseDir) fs paths fun path hpath => hall path hpath
    obtain ⟨-, hpaths, hlocs⟩ := returns_guardAll disk fs baseDir fs paths resolved hret
    have hin : ∀ r ∈ resolved, base <+: r := by
      intro r hr
      obtain ⟨path, -, hsafe⟩ := hlocs r hr
      exact hsafe.inside hbase
    obtain ⟨r', hr', hsafe'⟩ := hpaths path hpath
    rw [hsafe'.unique hsafe]
    exact (logs_zipStream disk fs base resolved hin).mp (h resolved fs hret) r' hr'
  · intro h
    refine ⟨by simp, hguard, ?_⟩
    intro resolved fs' hret
    obtain ⟨rfl, hpaths, hlocs⟩ := returns_guardAll disk fs baseDir fs' paths resolved hret
    have hin : ∀ r ∈ resolved, base <+: r := by
      intro r hr
      obtain ⟨path, -, hsafe⟩ := hlocs r hr
      exact hsafe.inside hbase
    rw [logs_zipStream disk fs base resolved hin]
    intro r hr
    obtain ⟨path, hpath, hsafe⟩ := hlocs r hr
    have hall : ∀ path ∈ paths, ∃ r, SafePath disk fs baseDir path r := by
      intro path' hpath'
      obtain ⟨r', -, hsafe'⟩ := hpaths path' hpath'
      exact ⟨r', hsafe'⟩
    exact h hall path hpath r hsafe

end Archives

/-- A call of the file service. A download includes the response that it is for. -/
inductive FileOp (α : Type) where
  | listDirectory (relativePath : String)
  | uploadFile (relativeDir : String) (upload : Upload α)
      (conflictResolution : Option ConflictResolution)
  | downloadFile (relativePath : String)
  | deletePaths (paths : List String)
  | renamePath (oldRelative newName : String)
  | createFolder (parentRelative folderName : String)
  | downloadAsZip (paths : List String)

/-- Everything that the call accesses, in order. -/
def FileOp.accesses (baseDir : List String) (fs : FileSystem α) : FileOp α → List Access
  | .listDirectory relativePath => (FileService.listDirectory disk baseDir relativePath fs).log
  | .uploadFile relativeDir upload conflictResolution =>
      (FileService.uploadFile disk baseDir relativeDir upload conflictResolution fs).log
  | .downloadFile relativePath =>
      ((FileService.downloadFile disk baseDir relativePath >>= fileResponse disk) fs).log
  | .deletePaths paths => (FileService.deletePaths disk baseDir paths fs).log
  | .renamePath oldRelative newName =>
      (FileService.renamePath disk baseDir oldRelative newName fs).log
  | .createFolder parentRelative folderName =>
      (FileService.createFolder disk baseDir parentRelative folderName fs).log
  | .downloadAsZip paths => (FileService.downloadAsZip disk baseDir paths fs).log

/-- Every access of the call is at or below the base directory, and none moves the base directory. -/
def Confined (fs : FileSystem α) (baseDir : List String) (op : FileOp α) : Prop :=
  ∀ base, fs.resolve disk.limits baseDir = some base →
    ∀ a ∈ op.accesses disk baseDir fs, a.Within base

/-- The condition on the file system and the arguments of a call under which it is confined. -/
def ConfinedWhen (fs : FileSystem α) (baseDir : List String) (op : FileOp α) : Prop :=
  ∀ base, fs.resolve disk.limits baseDir = some base →
    match op with
    | .listDirectory relativePath => ListsWithin disk fs baseDir base relativePath
    | .uploadFile relativeDir upload conflictResolution =>
        UploadsWithin disk fs baseDir base relativeDir upload.filename conflictResolution
    | .downloadFile _ => True
    | .deletePaths paths => DeletesWithin disk baseDir base fs paths
    | .renamePath oldRelative newName => MovesWithin disk fs baseDir base oldRelative newName
    | .createFolder parentRelative folderName =>
        CreatesWithin disk fs baseDir base parentRelative folderName
    | .downloadAsZip paths => ZipsWithin disk fs baseDir base paths

/-- A call of the file service is confined to the base directory exactly when its condition holds. -/
theorem confined_iff_confinedWhen (fs : FileSystem α) (baseDir : List String) (op : FileOp α) :
    Confined disk fs baseDir op ↔ ConfinedWhen disk fs baseDir op := by
  apply forall₂_congr
  intro base hbase
  cases op with
  | listDirectory relativePath => exact listDirectory_within disk fs baseDir base relativePath hbase
  | uploadFile relativeDir upload conflictResolution =>
      exact uploadFile_within disk fs baseDir base relativeDir upload conflictResolution hbase
  | downloadFile relativePath =>
      exact iff_true_intro (downloadFile_within disk fs baseDir base relativePath hbase)
  | deletePaths paths => exact deletePaths_within disk baseDir base fs paths
  | renamePath oldRelative newName =>
      exact renamePath_within disk fs baseDir base oldRelative newName hbase
  | createFolder parentRelative folderName =>
      exact createFolder_within disk fs baseDir base parentRelative folderName hbase
  | downloadAsZip paths => exact downloadAsZip_within disk fs baseDir base paths hbase

/-- A disk on which a shared folder `/srv/share` holds a link `report.txt` to the missing file
`/etc/cron.d/job`. -/
def linkedDisk : Disk String :=
  ⟨⟨40, 40⟩, fun node => match node with | .file content => content.length | _ => 0, fun _ => "", 20⟩

def linkedShare : FileSystem String where
  tree :=
    [(["srv"], .dir), (["srv", "share"], .dir), (["etc"], .dir), (["etc", "cron.d"], .dir),
      (["srv", "share", "report.txt"], .link ⟨true, ["etc", "cron.d", "job"]⟩)]
  closed := by decide

/-- An upload named as the link creates the file outside. -/
theorem upload_throughLink_not_confined :
    ¬Confined linkedDisk linkedShare ["srv", "share"]
      (.uploadFile "" ⟨"report.txt", "* * * * * root sh"⟩ none) := by
  intro h
  have hbase : linkedShare.resolve linkedDisk.limits ["srv", "share"] = some ["srv", "share"] := by
    decide +kernel
  have hwithin := h ["srv", "share"] hbase (.create ["etc", "cron.d", "job"]) (by decide +kernel)
  exact absurd hwithin (by decide)

end NetworkFileServer.Server.FileService
