import NetworkFileServer.Server.SearchFiles
import NetworkFileServer.Server.ServiceConfinement

/-!
# What an archive contains

`download_as_zip` over the ZIP library's `add_path`, of which it is assumed what it makes of a tree without links:
its files and its empty directories become the members, under normalized names. These are the names under which
the files can be downloaded.
-/

namespace NetworkFileServer.Server.FileService

variable {α : Type}

/-- One component of a path that is being normalized. -/
def pushName (names : List String) (c : String) : List String :=
  if c = "" ∨ c = "." then names
  else if c = ".." ∧ names ≠ [] ∧ names.getLast? ≠ some ".." then names.dropLast
  else names ++ [c]

/-- `os.path.normpath` of a relative path. -/
def normpath (path : String) : String :=
  let names := ((path.toList.splitOn '/').map String.ofList).foldl pushName []
  if names = [] then "." else "/".intercalate names

/-- The name of a member, below the name that the walk starts with. -/
def memberName (arcname : String) (names : List String) : String :=
  names.foldl (fun name child => name ++ "/" ++ child) arcname

/-- A member for what is at or below a path: a file with its content, or an empty directory. -/
def Archived (fs : FileSystem α) (path : Location) (arcname : String) (m : String × Option α) : Prop :=
  ∃ names : List String, (∀ name ∈ names, ProperName name) ∧ m.1 = normpath (memberName arcname names) ∧
    match m.2 with
    | some content => fs.get? (path ++ names) = some (.file content)
    | none => fs.get? (path ++ names) = some .dir ∧ fs.names (path ++ names) = []

/-- No link is on the way to the path, at it or below it. -/
structure LinkFree (fs : FileSystem α) (path : Location) : Prop where
  resolved : fs.Resolved path
  noLink : ∀ q, path <+: q → (fs.get? q).any Node.isLink = false

/-- The ZIP library. -/
structure ZipLibrary (α : Type) where
  addPath : List String → String → FileM α FileError (List (String × Option α))
  /-- How a path that leads nowhere is refused, unless it is left out. -/
  missing : Option FileError
  adds : ∀ fs path arcname, LinkFree fs path → (fs.get? path).isSome = true →
    ∃ members, (addPath path arcname).Returns fs members fs ∧ ∀ m, m ∈ members ↔ Archived fs path arcname m
  refuses : ∀ fs path arcname, LinkFree fs path → fs.get? path = none →
    (addPath path arcname fs).fs = fs ∧
      (addPath path arcname fs).result = (match missing with | some e => .error e | none => .ok [])

/-- The member for an object at or below a path, if it is one. -/
def memberOf (fs : FileSystem α) (path : Location) (arcname : String) (q : Location) : Option (String × Option α) :=
  match fs.get? q with
  | some (.file content) => some (normpath (memberName arcname (q.drop path.length)), some content)
  | some .dir => if fs.names q = [] then some (normpath (memberName arcname (q.drop path.length)), none) else none
  | _ => none

theorem memberOf_below (fs : FileSystem α) (path : Location) (arcname : String) (names : List String)
    (m : String × Option α) :
    memberOf fs path arcname (path ++ names) = some m ↔ m.1 = normpath (memberName arcname names) ∧
      match m.2 with
      | some content => fs.get? (path ++ names) = some (.file content)
      | none => fs.get? (path ++ names) = some .dir ∧ fs.names (path ++ names) = [] := by
  obtain ⟨name, content⟩ := m
  unfold memberOf
  rw [List.drop_left]
  cases fs.get? (path ++ names) with
  | none => cases content <;> simp
  | some node =>
      cases node with
      | file c => cases content <;> simp [eq_comm]
      | dir => cases content <;> simp [eq_comm, and_comm]
      | link target => cases content <;> simp

/-- The tree is listed. -/
def addTree (path : List String) (arcname : String) : FileM α FileError (List (String × Option α)) := fun fs =>
  if (fs.get? path).isSome then
    let found := path :: fs.descendants fs.tree.length path
    ⟨.ok (found.filterMap (memberOf fs path arcname)), fs, found.map .read⟩
  else ⟨.error (.os .notFound), fs, []⟩

theorem mem_addTree (fs : FileSystem α) (path : List String) (arcname : String) (m : String × Option α) :
    m ∈ (path :: fs.descendants fs.tree.length path).filterMap (memberOf fs path arcname) ↔
      Archived fs path arcname m := by
  rw [List.mem_filterMap]
  constructor
  · rintro ⟨q, hq, hmember⟩
    rcases List.mem_cons.mp hq with rfl | hq
    · refine ⟨[], by simp, (memberOf_below fs q arcname [] m).mp ?_⟩
      rwa [List.append_nil]
    · obtain ⟨names, rfl, -, hproper, -⟩ := (fs.mem_descendants_length path q).mp hq
      exact ⟨names, hproper, (memberOf_below fs path arcname names m).mp hmember⟩
  · rintro ⟨names, hproper, hmember⟩
    refine ⟨path ++ names, ?_, (memberOf_below fs path arcname names m).mpr hmember⟩
    by_cases hnil : names = []
    · simp [hnil]
    · refine List.mem_cons_of_mem _ ((fs.mem_descendants_length path _).mpr ⟨names, rfl, hnil, hproper, ?_⟩)
      obtain ⟨-, hnode⟩ := hmember
      split at hnode
      · rw [hnode]
        rfl
      · rw [hnode.1]
        rfl

def treeLibrary : ZipLibrary α where
  addPath := addTree
  missing := some (.os .notFound)
  adds := by
    intro fs path arcname _ hsome
    refine ⟨_, ?_, mem_addTree fs path arcname⟩
    unfold FileM.Returns addTree
    simp [hsome]
  refuses := by
    intro fs path arcname _ hnone
    simp [addTree, hnone]

/-- The name of the member for a selected location. -/
def arcnameOf (base r : Location) : String := if r = base then "." else "/".intercalate (r.drop base.length)

/-- The name of a member is a path: the way from the folder to the selected location, and on to the file. -/
theorem memberName_eq (names way : List String) (hway : way ≠ []) :
    memberName ("/".intercalate way) names = "/".intercalate (way ++ names) := by
  induction names generalizing way with
  | nil => rw [List.append_nil]; rfl
  | cons name rest ih =>
      have hsnoc : "/".intercalate way ++ "/" ++ name = "/".intercalate (way ++ [name]) := by
        rw [String.intercalate_append_of_ne_nil hway (by simp), String.intercalate_singleton]
      rw [memberName, List.foldl_cons, hsnoc]
      have hrest := ih (way ++ [name]) (by simp)
      rw [memberName] at hrest
      rw [hrest, List.append_assoc]
      rfl

theorem foldl_pushName (names done : List String) (hproper : ∀ name ∈ names, ProperName name) :
    names.foldl pushName done = done ++ names := by
  induction names generalizing done with
  | nil => simp
  | cons name rest ih =>
      obtain ⟨hempty, hdot, hup, -⟩ := hproper name List.mem_cons_self
      have hpush : pushName done name = done ++ [name] := by simp [pushName, hempty, hdot, hup]
      rw [List.foldl_cons, hpush, ih _ fun n hn => hproper n (List.mem_cons_of_mem _ hn), List.append_assoc]
      rfl

theorem foldl_pushName_dots (dots : List String) (hdots : ∀ dot ∈ dots, dot = ".") : dots.foldl pushName [] = [] := by
  induction dots with
  | nil => rfl
  | cons dot dots ih =>
      rw [List.foldl_cons, hdots dot List.mem_cons_self]
      exact ih fun d hd => hdots d (List.mem_cons_of_mem _ hd)

theorem normpath_intercalate (dots names : List String) (hdots : ∀ dot ∈ dots, dot = ".")
    (hproper : ∀ name ∈ names, ProperName name) (hne : dots ++ names ≠ []) :
    normpath ("/".intercalate (dots ++ names)) = if names = [] then "." else "/".intercalate names := by
  have hsplit : ("/".intercalate (dots ++ names)).toList.splitOn '/' = (dots ++ names).map String.toList := by
    rw [String.toList_intercalate]
    refine List.splitOn_intercalate '/' ?_ (by simpa using hne)
    intro cs hcs
    obtain ⟨name, hname, rfl⟩ := List.mem_map.mp hcs
    rcases List.mem_append.mp hname with hdot | hname
    · rw [hdots name hdot]
      decide
    · exact (hproper name hname).2.2.2
  have hid : String.ofList ∘ String.toList = id := by
    funext s
    simp
  rw [normpath, hsplit, List.map_map, hid, List.map_id, List.foldl_append, foldl_pushName_dots dots hdots,
    foldl_pushName names [] hproper, List.nil_append]

theorem normpath_memberName (base : Location) (way names : List String) (hway : ∀ name ∈ way, ProperName name)
    (hnames : ∀ name ∈ names, ProperName name) :
    normpath (memberName (arcnameOf base (base ++ way)) names) = arcnameOf base (base ++ (way ++ names)) := by
  have hproper : ∀ name ∈ way ++ names, ProperName name :=
    fun name hname => (List.mem_append.mp hname).elim (hway name) (hnames name)
  have harcname : arcnameOf base (base ++ (way ++ names)) =
      if way ++ names = [] then "." else "/".intercalate (way ++ names) := by
    simp only [arcnameOf, List.append_right_eq_self, List.drop_left]
  rw [harcname]
  by_cases hnil : way = []
  · -- The folder itself is called `.` in the archive.
    subst hnil
    have hdot := memberName_eq names ["."] (by simp)
    rw [String.intercalate_singleton] at hdot
    rw [arcnameOf, List.append_nil, if_pos rfl, hdot, List.nil_append]
    exact normpath_intercalate ["."] names (by simp) hnames (by simp)
  · rw [arcnameOf, if_neg (by simpa using hnil), List.drop_left, memberName_eq names way hnil]
    exact normpath_intercalate [] (way ++ names) (by simp) hproper (by simp [hnil])

theorem linkFree_of_region {fs : FileSystem α} {base : Location} (hregion : fs.Region base) (p : List String)
    (hup : ".." ∉ p) : LinkFree fs (base ++ p) where
  resolved := by
    refine hregion.resolved_below (List.prefix_append _ _) ?_
    intro hmem
    rcases List.mem_append.mp hmem with hmem | hmem
    · exact hregion.resolved.noUp hmem
    · exact hup hmem
  noLink := fun _ hq => hregion.noLink _ ((List.prefix_append base p).trans hq)

section Archive

variable (zip : ZipLibrary α) (disk : Disk α) (fs : FileSystem α) {baseDir : List String} {base : Location}
  (paths : List String)

/-- An object at or below one of the selected paths, by the way to it from the folder. -/
def Selected (baseDir : List String) (base : Location) (way : List String) : Prop :=
  ∃ path ∈ paths, ∃ start names, SafePath disk fs baseDir path (base ++ start) ∧
    (∀ name ∈ names, ProperName name) ∧ way = start ++ names

variable (hnames : fs.WellNamed) (hregion : fs.Region base) (hdir : fs.isDirAt base = true)
  (hbase : fs.resolve disk.limits baseDir = some base)
  (hpaths : ∀ path ∈ paths, ∃ r, SafePath disk fs baseDir path r)

include hnames hregion hdir hbase

theorem returns_addResolvedVia (start : List String) {path : String}
    (hsafe : SafePath disk fs baseDir path (base ++ start)) :
    ∃ members, (addResolvedVia zip.addPath base (base ++ start)).Returns fs members fs ∧
      ∀ m, m ∈ members ↔ Archived fs (base ++ start) (arcnameOf base (base ++ start)) m := by
  have hsome : (fs.get? (base ++ start)).isSome = true := by
    by_cases hnil : start = []
    · rw [hnil, List.append_nil, (fs.isDirAt_eq_true base).mp hdir]
      rfl
    · obtain ⟨-, base', hbase', hcases⟩ := (returns_resolveSafePath disk _ _ _ _ _).mp hsafe
      cases hbase.symm.trans hbase'
      rcases hcases with ⟨-, hroot⟩ | ⟨-, -, hsome, -⟩
      · exact absurd (List.append_right_eq_self.mp hroot) hnil
      · exact hsome
  have hup : ".." ∉ start := fun hmem => (hsafe.allowed hnames hbase ".." hmem).1.2.2.1 rfl
  obtain ⟨members, hret, hmem⟩ := zip.adds fs (base ++ start) (arcnameOf base (base ++ start))
    (linkFree_of_region hregion start hup) hsome
  refine ⟨members, ?_, hmem⟩
  have harcname : (liftExcept (relativeTo (base ++ start) base) : FileM α FileError String).Returns fs
      (arcnameOf base (base ++ start)) fs := by
    rw [relativeTo, if_pos (List.prefix_append base start)]
    simp [arcnameOf]
  exact (FileM.returns_bind_of_returns _ _ _ _ fs harcname _ _).mpr hret

include hpaths

/-- An archive of paths that the guard lets through has the files and the empty directories below them as members,
each under its path. -/
theorem returns_downloadAsZipVia :
    ∃ members, (downloadAsZipVia disk zip.addPath baseDir paths).Returns fs members fs ∧
      ∀ m, m ∈ members ↔ ∃ way, Selected disk fs paths baseDir base way ∧ m.1 = arcnameOf base (base ++ way) ∧
        match m.2 with
        | some content => fs.get? (base ++ way) = some (.file content)
        | none => fs.get? (base ++ way) = some .dir ∧ fs.names (base ++ way) = [] := by
  have hresolve : (resolvePath disk baseDir).Returns fs base fs := by simp [hbase]
  obtain ⟨resolved, hguard⟩ := FileM.returns_forEach_of_returns (resolveSafePath disk baseDir) fs paths hpaths
  obtain ⟨-, hforward, hback⟩ := returns_guardAll disk fs baseDir fs paths resolved hguard
  have hone : ∀ r ∈ resolved, ∃ members, (addResolvedVia zip.addPath base r).Returns fs members fs ∧
      ∀ m, m ∈ members ↔ Archived fs r (arcnameOf base r) m := by
    intro r hr
    obtain ⟨path, -, hsafe⟩ := hback r hr
    obtain ⟨start, rfl⟩ := hsafe.inside hbase
    exact returns_addResolvedVia zip disk fs hnames hregion hdir hbase start hsafe
  obtain ⟨members, hloop, hmem⟩ := FileM.returns_forEach_flatten _ _ fs resolved hone
  refine ⟨members.flatten, ?_, ?_⟩
  · rw [downloadAsZipVia, FileM.returns_bind_of_returns _ _ _ _ fs hresolve,
      FileM.returns_bind_of_returns _ _ _ _ fs hguard, zipStreamVia, FileM.returns_bind_of_returns _ _ _ _ fs hloop]
    exact (FileM.returns_pure _ _ _ _).mpr ⟨rfl, rfl⟩
  · intro m
    rw [hmem]
    constructor
    · rintro ⟨r, hr, names, hproper, hname, hnode⟩
      obtain ⟨path, hpath, hsafe⟩ := hback r hr
      obtain ⟨start, rfl⟩ := hsafe.inside hbase
      refine ⟨start ++ names, ⟨path, hpath, start, names, hsafe, hproper, rfl⟩, ?_, by rwa [← List.append_assoc]⟩
      rw [hname, normpath_memberName base start names (fun name h => (hsafe.allowed hnames hbase name h).1) hproper]
    · rintro ⟨-, ⟨path, hpath, start, names, hsafe, hproper, rfl⟩, hname, hnode⟩
      obtain ⟨r', hr', hsafe'⟩ := hforward path hpath
      rw [hsafe.unique hsafe'] at hr'
      refine ⟨base ++ start, hr', names, hproper, ?_, by rwa [List.append_assoc]⟩
      rw [hname, normpath_memberName base start names (fun name h => (hsafe.allowed hnames hbase name h).1) hproper]

/-- The members of an archive are exactly the files and the empty directories below the selected paths, each under
its path, and each file can be downloaded by its name in the archive with the same content. -/
theorem downloadAsZip_agrees_downloads :
    ∃ members, (downloadAsZipVia disk zip.addPath baseDir paths).Returns fs members fs ∧
      (∀ name content, (name, some content) ∈ members ↔ ∃ way, Selected disk fs paths baseDir base way ∧
        fs.get? (base ++ way) = some (.file content) ∧ name = pathFrom base (base ++ way)) ∧
      (∀ name, (name, none) ∈ members ↔ ∃ way, Selected disk fs paths baseDir base way ∧
        (fs.get? (base ++ way) = some .dir ∧ fs.names (base ++ way) = []) ∧ name = arcnameOf base (base ++ way)) ∧
      ∀ name content, (name, some content) ∈ members →
        (downloadFile disk baseDir name >>= fileResponse disk).Returns fs content fs := by
  obtain ⟨members, hret, hmem⟩ := returns_downloadAsZipVia zip disk fs paths hnames hregion hdir hbase hpaths
  have hfiles : ∀ name content, (name, some content) ∈ members ↔ ∃ way, Selected disk fs paths baseDir base way ∧
      fs.get? (base ++ way) = some (.file content) ∧ name = pathFrom base (base ++ way) := by
    intro name content
    rw [hmem]
    refine exists_congr fun way => and_congr_right fun _ => ?_
    rw [and_comm]
    refine and_congr_right fun hfile => ?_
    have hne : base ++ way ≠ base := by
      intro heq
      rw [heq, (fs.isDirAt_eq_true base).mp hdir] at hfile
      cases hfile
    rw [arcnameOf, if_neg hne, pathFrom]
  refine ⟨members, hret, hfiles, ?_, ?_⟩
  · intro name
    rw [hmem]
    exact exists_congr fun way => and_congr_right fun _ => and_comm
  · intro name content hmember
    obtain ⟨way, -, hfile, rfl⟩ := (hfiles name content).mp hmember
    have hallowed : ∀ name ∈ way, ProperName name ∧ '\x00' ∉ name.toList := fun name hname =>
      hnames.of_get? (base ++ way) (by rw [hfile]; rfl) name (List.mem_append_right _ hname)
    have hguard := safePath_of_region hregion hbase hallowed (by rw [hfile]; rfl)
    have hlocate : fs.locate disk.limits (base ++ way) = some (base ++ way, .file content) := by
      rw [fs.locate_of_resolved disk.limits _ hguard.resolved, hfile]
      rfl
    have hisDir : (FileM.isDir disk.limits (base ++ way) : FileM α FileError Bool).Returns fs false fs := by
      rw [FileM.returns_isDir, hlocate]
      exact ⟨rfl, rfl⟩
    have hread : (fileResponse disk (base ++ way)).Returns fs content fs := by
      rw [fileResponse, FileM.returns_mapError, FileM.returns_readFile]
      exact ⟨⟨base ++ way, hlocate⟩, rfl⟩
    refine (FileM.returns_bind _ _ _ _ _).mpr ⟨base ++ way, fs, ?_, hread⟩
    rw [downloadFile, FileM.returns_bind_of_returns _ _ _ _ fs hguard, FileM.returns_bind_of_returns _ _ _ _ fs hisDir]
    exact (FileM.returns_pure _ _ _ _).mpr ⟨rfl, rfl⟩

end Archive

theorem downloadAsZip_agrees_downloads_share :
    ∃ members, (downloadAsZipVia searchDisk treeLibrary.addPath ["srv", "docs"] ["old", ""]).Returns plainShare members
        plainShare ∧
      (∀ name content, (name, some content) ∈ members ↔
        ∃ way, Selected searchDisk plainShare ["old", ""] ["srv", "docs"] ["srv", "docs"] way ∧
          plainShare.get? (["srv", "docs"] ++ way) = some (.file content) ∧
            name = pathFrom ["srv", "docs"] (["srv", "docs"] ++ way)) ∧
      (∀ name, (name, none) ∈ members ↔
        ∃ way, Selected searchDisk plainShare ["old", ""] ["srv", "docs"] ["srv", "docs"] way ∧
          (plainShare.get? (["srv", "docs"] ++ way) = some .dir ∧ plainShare.names (["srv", "docs"] ++ way) = []) ∧
            name = arcnameOf ["srv", "docs"] (["srv", "docs"] ++ way)) ∧
      ∀ name content, (name, some content) ∈ members →
        (downloadFile searchDisk ["srv", "docs"] name >>= fileResponse searchDisk).Returns plainShare content
          plainShare := by
  have hnoLink : ∀ q, (plainShare.get? q).any Node.isLink = false := FileSystem.noLink_of_tree (by decide +kernel)
  have hregion : plainShare.Region ["srv", "docs"] :=
    ⟨by decide, by decide +kernel, ⟨fun q _ => hnoLink q, by decide⟩, fun q _ => hnoLink q⟩
  refine downloadAsZip_agrees_downloads treeLibrary searchDisk plainShare ["old", ""] (by decide +kernel) hregion
    (by decide +kernel) (by decide +kernel) ?_
  intro path hpath
  rcases List.mem_cons.mp hpath with rfl | hpath
  · exact ⟨["srv", "docs", "old"], by decide +kernel, rfl⟩
  · rw [List.mem_singleton.mp hpath]
    exact ⟨["srv", "docs"], by decide +kernel, rfl⟩

end NetworkFileServer.Server.FileService
