import NetworkFileServer.Framework.FileRegion
import NetworkFileServer.Framework.FileWalks
import NetworkFileServer.Framework.RecursiveListing
import NetworkFileServer.Server.FolderPaths

/-!
# Searching the shared folder

`search_files`: what is listed, and that the listing agrees with browsing. `lower` is `str.lower`.
-/

namespace FileSystem

variable {α : Type*} {fs : FileSystem α} {l cur : Location} {n m : Nat} {p : List String}

theorem WalksTo.resolvesTo (h : fs.WalksTo l n cur p) : fs.ResolvesTo l n cur p := by
  induction h with
  | done n => exact .done n
  | up _ _ ih => exact .up ih
  | link _ hup hnode _ ih => exact .link hup hnode ih
  | name _ hup hnode hlink _ ih => exact .name hup (by rwa [hnode]) ih

theorem ResolvesTo.mono (h : fs.ResolvesTo l n cur p) (hnm : n ≤ m) : fs.ResolvesTo l m cur p := by
  induction h generalizing m with
  | done n => exact .done m
  | up _ ih => exact .up (ih hnm)
  | link hup hnode _ ih =>
      obtain ⟨m, rfl⟩ := Nat.exists_eq_add_of_lt hnm
      exact .link hup hnode (ih (by omega))
  | name hup hlink _ ih => exact .name hup hlink (ih hnm)

theorem resolve_of_locate (lim : LinkLimits) (hlim : lim.kernel ≤ lim.realpath) (p : List String) (l : Location)
    (node : Node α) (h : fs.locate lim p = some (l, node)) : fs.resolve lim p = some l := by
  have hwalk := (walk_eq_some fs lim.kernel [] l p).mp ((locate_eq_some lim p l node).mp h).1
  exact (realWalk_eq_some fs lim.realpath [] l p).mpr (hwalk.resolvesTo.mono hlim)

theorem not_link_of_locate (lim : LinkLimits) (p : List String) (l : Location) (node : Node α)
    (h : fs.locate lim p = some (l, node)) : node.isLink = false := by
  obtain ⟨hwalk, hnode⟩ := (locate_eq_some lim p l node).mp h
  have hnot := ((walk_eq_some fs lim.kernel [] l p).mp hwalk).opensAt.not_link rfl rfl
  rwa [hnode] at hnot

end FileSystem

namespace NetworkFileServer.Server.FileService

variable {α : Type} (disk : Disk α) (lower : String → String)

/-- `item.is_file() or item.is_dir()`. -/
def isFileOrDir (item : List String) : FileM α FileError Bool := do
  let file ← FileM.isFile disk.limits item
  if file then pure true else FileM.isDir disk.limits item

/-- The loop body of `search_files`. -/
def searchItem (baseResolved rootResolved : Location) (queryLower : String) (item : List String) :
    FileM α FileError (List FileEntry) := do
  let found ← isFileOrDir disk item
  if !found then pure []
  else do
    let resolved ← (resolvePath disk item).attempt
    match resolved with
    -- The item is skipped.
    | .error _ => pure []
    | .ok itemResolved =>
        if ¬baseResolved <+: itemResolved then pure []
        else if !Text.contains (lower (item.getLast?.getD "")) queryLower then pure []
        else do
          let node ← (FileM.stat disk.limits item).mapError .os
          let relativeName ← liftExcept (relativeTo item rootResolved)
          pure [fileEntry disk item relativeName node]

/-- `root_resolved.rglob("*")`, which yields nothing below a file. -/
def searchItems (rootResolved : Location) : FileM α FileError (List (List String)) := do
  let directory ← FileM.isDir disk.limits rootResolved
  if directory then do
    let objects ← FileM.objectCount
    (FileM.rglob disk.limits objects rootResolved).mapError .os
  else pure []

def searchFiles (baseDir : List String) (searchRoot query : String) : FileM α FileError (List FileEntry) := do
  if query = "" then FileM.fail (.invalidFileRequest "Search query must not be empty")
  else do
    let baseResolved ← resolvePath disk baseDir
    let rootResolved ← resolveSafePath disk baseDir searchRoot
    let items ← searchItems disk rootResolved
    let results ← FileM.forEach (searchItem disk lower baseResolved rootResolved (lower query)) items
    pure results.flatten

/-- The entry that a search from `root` lists for the object that the names below `root` lead to. -/
def entryBelow (root : Location) (names : List String) (node : Node α) : FileEntry :=
  fileEntry disk (root ++ names) ("/".intercalate names) node

variable (fs : FileSystem α)

/-- The names lead to an object of the folder `base`, and the last of them contains the query. -/
def Listed (base root : Location) (queryLower : String) (names : List String) (entry : FileEntry) : Prop :=
  (∃ name ∈ names.getLast?, Text.contains (lower name) queryLower = true) ∧
    ∃ l node, fs.locate disk.limits (root ++ names) = some (l, node) ∧ base <+: l ∧
      entry = entryBelow disk root names node

/-- An object below `root`, reached through no link but perhaps at its end, that is to be listed. -/
def Matches (base root : Location) (query : String) (entry : FileEntry) : Prop :=
  ∃ names : List String, (∀ name ∈ names, ProperName name) ∧ (fs.get? (root ++ names)).isSome = true ∧
    Listed disk lower fs base root (lower query) names entry

theorem returns_searchItems (root : Location) (hres : fs.Resolved root) :
    (searchItems disk root).Returns fs (fs.descendants fs.tree.length root) fs := by
  have hisDir : (FileM.isDir disk.limits root : FileM α FileError Bool).Returns fs (fs.isDirAt root) fs := by
    rw [FileM.returns_isDir, fs.locate_of_resolved disk.limits root hres, Option.any_map]
    exact ⟨rfl, rfl⟩
  rw [searchItems, FileM.returns_bind_of_returns _ _ _ _ fs hisDir]
  cases hdir : fs.isDirAt root with
  | true =>
      have hcount : (FileM.objectCount : FileM α FileError Nat).Returns fs fs.tree.length fs := ⟨rfl, rfl⟩
      rw [if_pos rfl, FileM.returns_bind_of_returns _ _ _ _ fs hcount, FileM.returns_mapError]
      exact FileM.returns_rglob disk.limits fs _ root hdir hres
  | false =>
      -- Nothing is below a file.
      have hnone : fs.descendants fs.tree.length root = [] := by
        rw [List.eq_nil_iff_forall_not_mem]
        intro p hp
        obtain ⟨names, rfl, hne, -, -, hsome⟩ := (fs.mem_descendants _ root p).mp hp
        rw [fs.isDirAt_of_below root names hne hsome] at hdir
        cases hdir
      rw [hnone]
      simp

theorem returns_isFileOrDir (item : List String) :
    (isFileOrDir disk item).Returns fs (fs.locate disk.limits item).isSome fs := by
  rw [isFileOrDir, FileM.returns_bind_of_returns _ _ _ _ fs (FileM.returns_isFile disk.limits fs item)]
  cases hlocate : fs.locate disk.limits item with
  | none => simp [hlocate]
  | some found =>
      obtain ⟨l, node⟩ := found
      have hlink := FileSystem.not_link_of_locate disk.limits item l node hlocate
      cases node with
      | file content => simp [Node.isDir, Node.isLink]
      | dir => simp [Node.isDir, hlocate]
      | link target => cases hlink

theorem relativeTo_append (root names : Location) (hne : names ≠ []) :
    relativeTo (root ++ names) root = .ok ("/".intercalate names) := by
  rw [relativeTo, if_pos (List.prefix_append root names), if_neg (by simpa using hne), List.drop_left]

theorem returns_searchItem (base root : Location) (queryLower : String) (names : List String) (hne : names ≠ [])
    (hlim : disk.limits.kernel ≤ disk.limits.realpath) :
    ∃ entries, (searchItem disk lower base root queryLower (root ++ names)).Returns fs entries fs ∧
      ∀ entry, entry ∈ entries ↔ Listed disk lower fs base root queryLower names entry := by
  obtain ⟨name, hname⟩ := Option.ne_none_iff_exists'.mp (mt List.getLast?_eq_none_iff.mp hne)
  have hlast : (root ++ names).getLast? = some name := by
    rw [List.getLast?_append, hname]
    rfl
  simp only [Listed, hname, Option.mem_some_iff, exists_eq_left']
  simp only [searchItem, FileM.returns_bind_of_returns _ _ _ _ fs (returns_isFileOrDir disk fs _)]
  cases hlocate : fs.locate disk.limits (root ++ names) with
  | none => exact ⟨[], by simp, by simp⟩
  | some found =>
      obtain ⟨l, node⟩ := found
      have hresolve := FileSystem.resolve_of_locate disk.limits hlim _ l node hlocate
      have hresolved : (resolvePath disk (root ++ names)).attempt.Returns fs (.ok l) fs := by
        obtain ⟨hresult, hfs⟩ := (returns_resolvePath disk (root ++ names) fs fs l).mpr ⟨hresolve, rfl⟩
        exact ⟨congrArg Except.ok hresult, hfs⟩
      have hstat : ((FileM.stat disk.limits (root ++ names)).mapError FileError.os).Returns fs node fs := by
        simp [hlocate]
      have hrelative : (liftExcept (relativeTo (root ++ names) root) : FileM α FileError String).Returns fs
          ("/".intercalate names) fs := by
        simp [relativeTo_append root names hne]
      simp only [Option.isSome_some, Bool.not_true, Bool.false_eq_true, ↓reduceIte,
        FileM.returns_bind_of_returns _ _ _ _ fs hresolved, hlast, Option.getD_some]
      by_cases hin : base <+: l
      · cases hcontains : Text.contains (lower name) queryLower with
        | false => exact ⟨[], by simp [hin], by simp⟩
        | true =>
            refine ⟨[entryBelow disk root names node], ?_, ?_⟩
            · simp only [hin, not_true_eq_false, ↓reduceIte, Bool.not_true, Bool.false_eq_true,
                FileM.returns_bind_of_returns _ _ _ _ fs hstat, FileM.returns_bind_of_returns _ _ _ _ fs hrelative]
              exact (FileM.returns_pure _ _ _ _).mpr ⟨rfl, rfl⟩
            · intro entry
              rw [List.mem_singleton]
              constructor
              · intro hentry
                exact ⟨rfl, l, node, rfl, hin, hentry⟩
              · rintro ⟨-, l', node', hfound, -, hentry⟩
                cases hfound
                exact hentry
      · refine ⟨[], by simp [hin], ?_⟩
        intro entry
        constructor
        · intro hentry
          cases hentry
        · rintro ⟨-, l', node', hfound, hin', -⟩
          cases hfound
          exact absurd hin' hin

/-- A search of a folder that the guard lets through returns, and it lists exactly what matches. -/
theorem returns_searchFiles (baseDir : List String) (base root : Location) (searchRoot query : String)
    (hlim : disk.limits.kernel ≤ disk.limits.realpath) (hbase : fs.resolve disk.limits baseDir = some base)
    (hroot : SafePath disk fs baseDir searchRoot root) (hquery : query ≠ "") :
    ∃ results, (searchFiles disk lower baseDir searchRoot query).Returns fs results fs ∧
      ∀ entry, entry ∈ results ↔ Matches disk lower fs base root query entry := by
  have hresolve : (resolvePath disk baseDir).Returns fs base fs := by simp [hbase]
  have hitems : ∀ item ∈ fs.descendants fs.tree.length root, ∃ entries,
      (searchItem disk lower base root (lower query) item).Returns fs entries fs ∧ ∀ entry, entry ∈ entries ↔
        ∃ names, item = root ++ names ∧ Listed disk lower fs base root (lower query) names entry := by
    intro item hitem
    obtain ⟨names, rfl, hne, -⟩ := (fs.mem_descendants_length root item).mp hitem
    obtain ⟨entries, hret, hentries⟩ := returns_searchItem disk lower fs base root (lower query) names hne hlim
    refine ⟨entries, hret, ?_⟩
    intro entry
    rw [hentries]
    constructor
    · intro hlisted
      exact ⟨names, rfl, hlisted⟩
    · rintro ⟨names', heq, hlisted⟩
      rwa [List.append_cancel_left heq]
  obtain ⟨entries, hloop, hmem⟩ := FileM.returns_forEach_flatten _ _ fs _ hitems
  refine ⟨entries.flatten, ?_, ?_⟩
  · rw [searchFiles, if_neg hquery, FileM.returns_bind_of_returns _ _ _ _ fs hresolve,
      FileM.returns_bind_of_returns _ _ _ _ fs hroot,
      FileM.returns_bind_of_returns _ _ _ _ fs (returns_searchItems disk fs root hroot.resolved),
      FileM.returns_bind_of_returns _ _ _ _ fs hloop]
    exact (FileM.returns_pure _ _ _ _).mpr ⟨rfl, rfl⟩
  · intro entry
    rw [hmem]
    constructor
    · rintro ⟨item, hitem, names, rfl, hlisted⟩
      obtain ⟨names', heq, -, hproper, hsome⟩ := (fs.mem_descendants_length root _).mp hitem
      rw [← List.append_cancel_left heq] at hproper
      exact ⟨names, hproper, hsome, hlisted⟩
    · rintro ⟨names, hproper, hsome, hlisted⟩
      have hne : names ≠ [] := by
        rintro rfl
        obtain ⟨name, hname, -⟩ := hlisted.1
        cases hname
      exact ⟨root ++ names, (fs.mem_descendants_length root _).mpr ⟨names, rfl, hne, hproper, hsome⟩, names, rfl,
        hlisted⟩

/-- A search lists exactly the objects below its root, reached through no link but perhaps at their end, whose name
contains the query and whose path the guard lets through, with the size and the type of what the path leads to. So
every hit can be opened, and none is outside of the shared folder. -/
theorem searchFiles_lists_openable (hnames : fs.WellNamed) (hlim : disk.limits.kernel ≤ disk.limits.realpath)
    {baseDir : List String} {base root : Location} {searchRoot query : String}
    (hbase : fs.resolve disk.limits baseDir = some base) (hroot : SafePath disk fs baseDir searchRoot root)
    (hquery : query ≠ "") :
    ∃ results, (searchFiles disk lower baseDir searchRoot query).Returns fs results fs ∧
      ∀ entry, entry ∈ results ↔ ∃ names, (fs.get? (root ++ names)).isSome = true ∧
        (∃ name ∈ names.getLast?, Text.contains (lower name) (lower query) = true) ∧
          ∃ l node, fs.locate disk.limits (root ++ names) = some (l, node) ∧
            SafePath disk fs baseDir (pathFrom base (root ++ names)) l ∧ entry = entryBelow disk root names node := by
  obtain ⟨results, hret, hlists⟩ :=
    returns_searchFiles disk lower fs baseDir base root searchRoot query hlim hbase hroot hquery
  obtain ⟨way, rfl⟩ := hroot.inside hbase
  refine ⟨results, hret, ?_⟩
  have hguard : ∀ names l node, (fs.get? (base ++ way ++ names)).isSome = true → names ≠ [] →
      fs.locate disk.limits (base ++ way ++ names) = some (l, node) →
      (SafePath disk fs baseDir (pathFrom base (base ++ way ++ names)) l ↔ base <+: l) := by
    intro names l node hsome hne hlocate
    have hallowed : ∀ name ∈ way ++ names, ProperName name ∧ '\x00' ∉ name.toList := by
      intro name hname
      refine hnames.of_get? _ hsome name ?_
      rw [List.append_assoc]
      exact List.mem_append_right _ hname
    have hresolve := FileSystem.resolve_of_locate disk.limits hlim _ l node hlocate
    have hnode := ((FileSystem.locate_eq_some disk.limits _ l node).mp hlocate).2
    rw [List.append_assoc] at hresolve ⊢
    rw [safePath_pathFrom disk fs baseDir base l (way ++ names) (by simp [hne]) hbase hallowed]
    simp [hresolve, hnode]
  intro entry
  rw [hlists]
  constructor
  · rintro ⟨names, -, hsome, hcontains, l, node, hlocate, hin, hentry⟩
    have hne : names ≠ [] := by
      rintro rfl
      obtain ⟨name, hname, -⟩ := hcontains
      cases hname
    exact ⟨names, hsome, hcontains, l, node, hlocate, (hguard names l node hsome hne hlocate).mpr hin, hentry⟩
  · rintro ⟨names, hsome, hcontains, l, node, hlocate, hsafe, hentry⟩
    refine ⟨names, ?_, hsome, hcontains, l, node, hlocate, hsafe.inside hbase, hentry⟩
    intro name hname
    exact (hnames.of_get? _ hsome name (List.mem_append_right _ hname)).1

/-- A disk with a shared folder `/srv/docs`. -/
def searchDisk : Disk String :=
  ⟨⟨40, 40⟩, fun node => match node with | .file content => content.length | _ => 0, fun _ => "", 20⟩

/-- The folder has a link to a file outside. -/
def searchedShare : FileSystem String where
  tree :=
    [(["srv"], .dir), (["srv", "docs"], .dir), (["srv", "docs", "old"], .dir), (["etc"], .dir),
      (["srv", "docs", "Report.txt"], .file "ok"), (["srv", "docs", "old", "report-1.txt"], .file "older"),
      (["etc", "report.cfg"], .file "key"), (["srv", "docs", "report.cfg"], .link ⟨true, ["etc", "report.cfg"]⟩)]
  closed := by decide

theorem searchFiles_lists_openable_share :
    ∃ results, (searchFiles searchDisk Text.lower ["srv", "docs"] "" "REPORT").Returns searchedShare results
        searchedShare ∧
      ∀ entry, entry ∈ results ↔ ∃ names, (searchedShare.get? (["srv", "docs"] ++ names)).isSome = true ∧
        (∃ name ∈ names.getLast?, Text.contains (Text.lower name) (Text.lower "REPORT") = true) ∧
          ∃ l node, searchedShare.locate searchDisk.limits (["srv", "docs"] ++ names) = some (l, node) ∧
            SafePath searchDisk searchedShare ["srv", "docs"] (pathFrom ["srv", "docs"] (["srv", "docs"] ++ names)) l ∧
              entry = entryBelow searchDisk ["srv", "docs"] names node :=
  searchFiles_lists_openable searchDisk Text.lower searchedShare (by decide +kernel) (by decide) (by decide +kernel)
    ⟨by decide +kernel, rfl⟩ (by decide)

theorem returns_listEntry (target : Location) (name : String) (entry : FileEntry) (fs' : FileSystem α) :
    (listEntry disk target name).Returns fs entry fs' ↔
      fs = fs' ∧ ∃ l node, fs.locate disk.limits (target ++ [name]) = some (l, node) ∧
        entry = entryBelow disk target [name] node := by
  rw [listEntry, FileM.returns_bind]
  constructor
  · rintro ⟨node, fs₁, hstat, hpure⟩
    rw [FileM.returns_mapError, FileM.returns_stat] at hstat
    obtain ⟨⟨l, hlocate⟩, rfl⟩ := hstat
    obtain ⟨rfl, rfl⟩ := (FileM.returns_pure _ _ _ _).mp hpure
    exact ⟨rfl, l, node, hlocate, by simp [entryBelow]⟩
  · rintro ⟨rfl, l, node, hlocate, rfl⟩
    refine ⟨node, fs, ?_, ?_⟩
    · rw [FileM.returns_mapError, FileM.returns_stat]
      exact ⟨⟨l, hlocate⟩, rfl⟩
    · simp [entryBelow]

theorem listEntry_keeps (target : Location) (name : String) : (listEntry disk target name fs).fs = fs := by
  refine FileM.Keeps.bind ?_ (fun _ => FileM.keeps_pure _) fs
  exact FileM.stat_keeps disk.limits _

theorem listed_of_returns {baseDir : List String} {relativePath : String} {listing : DirectoryListing}
    (h : (listDirectory disk baseDir relativePath).Returns fs listing fs) :
    ∃ target, SafePath disk fs baseDir relativePath target ∧ fs.isDirAt target = true ∧
      ∀ entry, entry ∈ listing.entries ↔ ∃ name ∈ fs.names target, ∃ l node,
        fs.locate disk.limits (target ++ [name]) = some (l, node) ∧ entry = entryBelow disk target [name] node := by
  obtain ⟨target, fs₁, htarget, h⟩ := (FileM.returns_bind _ _ _ _ _).mp h
  obtain ⟨hsafe, rfl⟩ := safePath_of_returns disk htarget
  obtain ⟨names, fs₁, hlist, h⟩ := (FileM.returns_bind _ _ _ _ _).mp h
  rw [FileM.returns_mapError, FileM.returns_listdir, fs.locate_of_resolved disk.limits target hsafe.resolved] at hlist
  obtain ⟨⟨l, hlocate, rfl⟩, rfl⟩ := hlist
  obtain ⟨node, hnode, heq⟩ := Option.map_eq_some_iff.mp hlocate
  cases heq
  obtain ⟨entries, fs₁, hloop, h⟩ := (FileM.returns_bind _ _ _ _ _).mp h
  obtain ⟨rfl, -⟩ := (FileM.returns_pure _ _ _ _).mp h
  refine ⟨target, hsafe, (fs.isDirAt_eq_true target).mpr hnode, ?_⟩
  have hkeeps : ∀ name ∈ fs.names target, (listEntry disk target name fs).fs = fs :=
    fun name _ => listEntry_keeps disk fs target name
  intro entry
  constructor
  · intro hentry
    obtain ⟨name, hname, hret⟩ := FileM.mem_of_returns_forEach _ fs _ _ fs₁ hkeeps hloop entry hentry
    exact ⟨name, hname, ((returns_listEntry disk fs target name entry fs).mp hret).2⟩
  · rintro ⟨name, hname, l, node, hfound, rfl⟩
    obtain ⟨entry, hentry, hret⟩ := FileM.returns_forEach_mem _ fs _ _ fs₁ hkeeps hloop name hname
    obtain ⟨-, l', node', hfound', rfl⟩ := (returns_listEntry disk fs target name entry fs).mp hret
    rw [hfound] at hfound'
    cases hfound'
    exact hentry

theorem returns_listDirectory {baseDir : List String} {relativePath : String} {base target : Location}
    (hregion : fs.Region base) (hsafe : SafePath disk fs baseDir relativePath target) (hin : base <+: target)
    (hdir : fs.isDirAt target = true) :
    ∃ listing, (listDirectory disk baseDir relativePath).Returns fs listing fs := by
  have hlist : ((FileM.listdir disk.limits target).mapError FileError.os).Returns fs (fs.names target) fs := by
    rw [FileM.returns_mapError, FileM.returns_listdir, fs.locate_of_resolved disk.limits target hsafe.resolved,
      (fs.isDirAt_eq_true target).mp hdir]
    exact ⟨⟨target, rfl, rfl⟩, rfl⟩
  have hentries : ∀ name ∈ fs.names target, ∃ entry, (listEntry disk target name).Returns fs entry fs := by
    intro name hname
    have hproper := fs.properName_of_mem_names target name hname
    obtain ⟨node, hnode⟩ := Option.isSome_iff_exists.mp ((fs.mem_names target name hproper).mp hname)
    have hres : fs.Resolved (target ++ [name]) := by
      refine hsafe.resolved.snoc hproper.2.2.1 ?_
      exact hregion.noLink _ (hin.trans (List.prefix_append target [name]))
    refine ⟨entryBelow disk target [name] node,
      (returns_listEntry disk fs target name _ fs).mpr ⟨rfl, target ++ [name], node, ?_, rfl⟩⟩
    rw [fs.locate_of_resolved disk.limits _ hres, hnode]
    rfl
  obtain ⟨entries, hloop⟩ := FileM.returns_forEach_of_returns _ fs _ hentries
  refine ⟨⟨relativePath, entries⟩, ?_⟩
  rw [listDirectory, FileM.returns_bind_of_returns _ _ _ _ fs hsafe, FileM.returns_bind_of_returns _ _ _ _ fs hlist,
    FileM.returns_bind_of_returns _ _ _ _ fs hloop]
  exact (FileM.returns_pure _ _ _ _).mpr ⟨rfl, rfl⟩

/-- In a folder without links a search finds exactly what browsing from its root finds. -/
theorem searchFiles_agrees_browsing (hnames : fs.WellNamed) (hlim : disk.limits.kernel ≤ disk.limits.realpath)
    {baseDir : List String} {base root : Location} {searchRoot query : String} (hregion : fs.Region base)
    (hbase : fs.resolve disk.limits baseDir = some base) (hroot : SafePath disk fs baseDir searchRoot root)
    (hquery : query ≠ "") :
    ∃ results, (searchFiles disk lower baseDir searchRoot query).Returns fs results fs ∧
      ∀ entry, entry ∈ results ↔ ∃ dirs listing listed, (∀ dir ∈ dirs, ProperName dir) ∧
        (listDirectory disk baseDir (pathFrom base (root ++ dirs))).Returns fs listing fs ∧
          listed ∈ listing.entries ∧ Text.contains (lower listed.name) (lower query) = true ∧
            entry = { listed with name := "/".intercalate (dirs ++ [listed.name]) } := by
  obtain ⟨results, hret, hlists⟩ :=
    returns_searchFiles disk lower fs baseDir base root searchRoot query hlim hbase hroot hquery
  obtain ⟨way, rfl⟩ := hroot.inside hbase
  have hway := hroot.allowed hnames hbase
  -- Without links a path leads to the location of its names.
  have hlocate : ∀ names, (∀ name ∈ names, ProperName name) → fs.locate disk.limits (base ++ way ++ names) =
      (fs.get? (base ++ way ++ names)).map fun node => (base ++ way ++ names, node) := by
    intro names hproper
    have hin : base <+: base ++ way ++ names := by
      rw [List.append_assoc]
      exact List.prefix_append _ _
    refine fs.locate_of_resolved disk.limits _ (hregion.resolved_below hin ?_)
    intro hup
    rcases List.mem_append.mp hup with hup | hup
    · exact hroot.resolved.noUp hup
    · exact (hproper _ hup).2.2.1 rfl
  refine ⟨results, hret, ?_⟩
  intro entry
  rw [hlists]
  constructor
  · rintro ⟨names, hproper, hsome, ⟨name, hname, hcontains⟩, l, node, hfound, -, rfl⟩
    obtain ⟨dirs, rfl⟩ := List.getLast?_eq_some_iff.mp hname
    have hchild : base ++ way ++ (dirs ++ [name]) = base ++ (way ++ dirs) ++ [name] := by simp
    rw [hchild] at hfound hsome
    have hdir := fs.isDirAt_of_below _ [name] (by simp) hsome
    have hallowed : ∀ name ∈ way ++ dirs, ProperName name ∧ '\x00' ∉ name.toList := by
      intro n hn
      exact hnames.of_get? _ hsome n (List.mem_append_left _ (List.mem_append_right _ hn))
    have hsafe := safePath_of_region hregion hbase hallowed (by rw [(fs.isDirAt_eq_true _).mp hdir]; rfl)
    obtain ⟨listing, hlisting⟩ := returns_listDirectory disk fs hregion hsafe (List.prefix_append _ _) hdir
    obtain ⟨target, htarget, -, hentries⟩ := listed_of_returns disk fs hlisting
    obtain rfl := hsafe.unique htarget
    refine ⟨dirs, listing, entryBelow disk (base ++ (way ++ dirs)) [name] node,
      fun dir hdir => hproper dir (List.mem_append_left _ hdir), ?_, ?_, ?_, ?_⟩
    · rwa [List.append_assoc]
    · exact (hentries _).mpr ⟨name, (fs.mem_names _ name (hproper name (by simp))).mpr hsome, l, node, hfound, rfl⟩
    · simpa [entryBelow, fileEntry] using hcontains
    · simp [entryBelow, fileEntry]
  · rintro ⟨dirs, listing, listed, hproper, hlisting, hlisted, hcontains, rfl⟩
    obtain ⟨target, hsafe, hdir, hentries⟩ := listed_of_returns disk fs hlisting
    obtain ⟨name, hname, l, node, hfound, rfl⟩ := (hentries listed).mp hlisted
    rw [List.append_assoc] at hsafe
    obtain rfl := hsafe.eq_of_region hregion hbase (by
      intro n hn
      rcases List.mem_append.mp hn with hn | hn
      · exact (hway n hn).1
      · exact hproper n hn)
    have hchild : base ++ (way ++ dirs) ++ [name] = base ++ way ++ (dirs ++ [name]) := by simp
    have hnameProper := fs.properName_of_mem_names _ name hname
    have hsome := (fs.mem_names _ name hnameProper).mp hname
    have hallProper : ∀ n ∈ dirs ++ [name], ProperName n := by
      intro n hn
      rcases List.mem_append.mp hn with hn | hn
      · exact hproper n hn
      · rwa [List.mem_singleton.mp hn]
    rw [hchild] at hfound hsome
    have hl : l = base ++ way ++ (dirs ++ [name]) := by
      rw [hlocate _ hallProper] at hfound
      obtain ⟨node', -, heq⟩ := Option.map_eq_some_iff.mp hfound
      exact (congrArg Prod.fst heq).symm
    refine ⟨dirs ++ [name], hallProper, hsome,
      ⟨name, by simp, by simpa [entryBelow, fileEntry] using hcontains⟩, l, node, hfound, ?_,
      by simp [entryBelow, fileEntry]⟩
    rw [hl, List.append_assoc]
    exact List.prefix_append _ _

/-- The shared folder without the link. -/
def plainShare : FileSystem String where
  tree := searchedShare.tree.filter fun e => !e.2.isLink
  closed := by decide

theorem searchFiles_agrees_browsing_share :
    ∃ results, (searchFiles searchDisk Text.lower ["srv", "docs"] "old" "REPORT").Returns plainShare results
        plainShare ∧
      ∀ entry, entry ∈ results ↔ ∃ dirs listing listed, (∀ dir ∈ dirs, ProperName dir) ∧
        (listDirectory searchDisk ["srv", "docs"] (pathFrom ["srv", "docs"] (["srv", "docs", "old"] ++ dirs))).Returns
          plainShare listing plainShare ∧
          listed ∈ listing.entries ∧ Text.contains (Text.lower listed.name) (Text.lower "REPORT") = true ∧
            entry = { listed with name := "/".intercalate (dirs ++ [listed.name]) } := by
  have hnoLink : ∀ q, (plainShare.get? q).any Node.isLink = false := FileSystem.noLink_of_tree (by decide +kernel)
  have hregion : plainShare.Region ["srv", "docs"] :=
    ⟨by decide, by decide +kernel, ⟨fun q _ => hnoLink q, by decide⟩, fun q _ => hnoLink q⟩
  exact searchFiles_agrees_browsing searchDisk Text.lower plainShare (by decide +kernel) (by decide) hregion
    (by decide +kernel) ⟨by decide +kernel, rfl⟩ (by decide)

end NetworkFileServer.Server.FileService
