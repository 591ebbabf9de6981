import NetworkFileServer.Server.PathGuard

/-!
# The walk of a ZIP archive

`add_path` reads a tree through the links in it. It never fails on a file system that stands still,
and it reaches exactly the objects that a path of proper names leads to.
-/

namespace NetworkFileServer.Server.FileService

variable {α : Type} (disk : Disk α) (fs : FileSystem α)

section Level

variable (below : List String → String → FileM α FileError (List (String × α)))
  (path : List String) (arcname : String)

theorem addPathVia_of_missing (h : fs.locate disk.limits path = none) :
    addPathVia disk below path arcname fs = ⟨.ok [], fs, []⟩ := by
  rw [addPathVia, FileM.bind_of_ok _ _ _ false fs (by simp [h])]
  simp only [Bool.false_eq_true, ↓reduceIte, FileM.pathExists, h, List.nil_append]
  rfl

private theorem found_returns (l : Location) (node : Node α)
    (h : fs.locate disk.limits path = some (l, node)) :
    (FileM.pathExists disk.limits path : FileM α FileError Bool).Returns fs true fs ∧
      ((FileM.stat disk.limits path).mapError FileError.os).Returns fs node fs := by
  constructor <;> simp [h]

private theorem listdir_returns (l : Location) (h : fs.locate disk.limits path = some (l, .dir)) :
    ((FileM.listdir disk.limits path).mapError FileError.os).Returns fs (fs.names l) fs := by
  rw [FileM.returns_mapError, FileM.returns_listdir]
  exact ⟨⟨l, h, rfl⟩, rfl⟩

theorem logs_addPathVia (l : Location) (node : Node α)
    (h : fs.locate disk.limits path = some (l, node)) (P : Access → Prop) :
    FileM.Logs P (addPathVia disk below path arcname) fs ↔
      P (.read l) ∧ (node = .dir → FileM.Logs P (FileM.forEach
        (fun name => below (path ++ [name]) (arcname ++ "/" ++ name)) (fs.names l)) fs) := by
  have hread : (∀ l' node', fs.locate disk.limits path = some (l', node') → P (.read l')) ↔
      P (.read l) := by
    rw [h]
    constructor
    · exact fun hP => hP l node rfl
    · intro hP l' node' heq
      cases heq
      exact hP
  obtain ⟨hexists, hstat⟩ := found_returns disk fs path l node h
  rw [addPathVia, FileM.logs_bind_of_returns _ _ _ _ true fs hexists, FileM.logs_pathExists, hread]
  simp only [↓reduceIte]
  rw [FileM.logs_bind_of_returns _ _ _ _ node fs hstat, FileM.logs_mapError, FileM.logs_stat, hread]
  cases node with
  | file content => simp
  | link target => simp
  | dir =>
      have hlist := listdir_returns disk fs path l h
      simp only [true_implies]
      rw [FileM.logs_bind_of_returns _ _ _ _ _ fs hlist, FileM.logs_mapError, FileM.logs_listdir,
        FileM.logs_bind]
      constructor
      · rintro ⟨hl, -, -, hrest, -⟩
        exact ⟨hl, hrest⟩
      · rintro ⟨hl, hrest⟩
        refine ⟨hl, hl, ?_, hrest, by simp⟩
        intro l' hl'
        rw [h] at hl'
        cases hl'
        exact hl

end Level

theorem addPath_returns (depth : Nat) (path : List String) (arcname : String) :
    ∃ members, (addPath disk depth path arcname).Returns fs members fs := by
  have hlevel : ∀ below : List String → String → FileM α FileError (List (String × α)),
      (∀ path arcname, ∃ members, (below path arcname).Returns fs members fs) →
      ∀ path arcname, ∃ members, (addPathVia disk below path arcname).Returns fs members fs := by
    intro below hbelow path arcname
    cases h : fs.locate disk.limits path with
    | none =>
        refine ⟨[], ?_⟩
        rw [FileM.Returns, addPathVia_of_missing disk fs below path arcname h]
        exact ⟨rfl, rfl⟩
    | some found =>
        obtain ⟨l, node⟩ := found
        obtain ⟨hexists, hstat⟩ := found_returns disk fs path l node h
        simp only [addPathVia, FileM.returns_bind_of_returns _ _ _ true fs hexists, ↓reduceIte,
          FileM.returns_bind_of_returns _ _ _ node fs hstat]
        cases node with
        | file content => exact ⟨_, (FileM.returns_pure _ _ _ _).mpr ⟨rfl, rfl⟩⟩
        | link target => exact ⟨_, (FileM.returns_pure _ _ _ _).mpr ⟨rfl, rfl⟩⟩
        | dir =>
            have hlist := listdir_returns disk fs path l h
            obtain ⟨members, hmembers⟩ := FileM.returns_forEach_of_returns
              (fun name => below (path ++ [name]) (arcname ++ "/" ++ name)) fs (fs.names l)
              fun name _ => hbelow _ _
            simp only [FileM.returns_bind_of_returns _ _ _ _ fs hlist,
              FileM.returns_bind_of_returns _ _ _ _ fs hmembers]
            exact ⟨_, (FileM.returns_pure _ _ _ _).mpr ⟨rfl, rfl⟩⟩
  induction depth generalizing path arcname with
  | zero => exact hlevel _ (fun _ _ => ⟨[], by simp⟩) path arcname
  | succ depth ih => exact hlevel _ ih path arcname

/-- Every member of the archive is a file that a path of proper names below the start leads to. -/
theorem mem_addPath (depth : Nat) (path : List String) (arcname : String)
    (members : List (String × α)) (fs' : FileSystem α)
    (h : (addPath disk depth path arcname).Returns fs members fs') (m : String × α)
    (hm : m ∈ members) :
    ∃ names : List String, (∀ name ∈ names, ProperName name) ∧
      ∃ l, fs.locate disk.limits (path ++ names) = some (l, .file m.2) := by
  -- One level: the file itself, or a member that some child of the directory gives.
  have hlevel : ∀ below : List String → String → FileM α FileError (List (String × α)),
      (∀ path arcname, ((below path arcname) fs).fs = fs) →
      ∀ path arcname members, (addPathVia disk below path arcname).Returns fs members fs' →
        m ∈ members → (∃ l, fs.locate disk.limits path = some (l, .file m.2)) ∨
          ∃ name arcname ms, ProperName name ∧
            (below (path ++ [name]) arcname).Returns fs ms fs ∧ m ∈ ms := by
    intro below hkeeps path arcname members hret hmem
    cases hl : fs.locate disk.limits path with
    | none =>
        rw [FileM.Returns, addPathVia_of_missing disk fs below path arcname hl] at hret
        cases hret.1
        cases hmem
    | some found =>
        obtain ⟨l, node⟩ := found
        obtain ⟨hexists, hstat⟩ := found_returns disk fs path l node hl
        simp only [addPathVia, FileM.returns_bind_of_returns _ _ _ true fs hexists, ↓reduceIte,
          FileM.returns_bind_of_returns _ _ _ node fs hstat] at hret
        cases node with
        | file content =>
            obtain ⟨rfl, -⟩ := (FileM.returns_pure _ _ _ _).mp hret
            rw [List.mem_singleton.mp hmem]
            exact .inl ⟨l, rfl⟩
        | link target =>
            obtain ⟨rfl, -⟩ := (FileM.returns_pure _ _ _ _).mp hret
            cases hmem
        | dir =>
            have hlist := listdir_returns disk fs path l hl
            simp only [FileM.returns_bind_of_returns _ _ _ _ fs hlist] at hret
            obtain ⟨mss, fs₁, hmss, hpure⟩ := (FileM.returns_bind _ _ _ _ _).mp hret
            obtain ⟨rfl, -⟩ := (FileM.returns_pure _ _ _ _).mp hpure
            obtain ⟨ms, hms, hmem⟩ := List.mem_flatten.mp hmem
            obtain ⟨name, hname, hchild⟩ := FileM.mem_of_returns_forEach _ fs (fs.names l) mss fs₁
              (fun name _ => hkeeps _ _) hmss ms hms
            exact .inr ⟨name, _, ms, fs.properName_of_mem_names l name hname, hchild, hmem⟩
  have hkeeps : ∀ depth path arcname, (addPath disk depth path arcname fs).fs = fs := by
    intro depth path arcname
    obtain ⟨members, hret⟩ := addPath_returns disk fs depth path arcname
    exact hret.2
  have hfs : fs = fs' := (hkeeps depth path arcname).symm.trans h.2
  subst hfs
  induction depth generalizing path arcname members with
  | zero =>
      rcases hlevel _ (fun _ _ => rfl) path arcname members h hm with ⟨l, hl⟩ | hchild
      · exact ⟨[], by simp, l, by rwa [List.append_nil]⟩
      · obtain ⟨name, arcname', ms, -, hret, hmem⟩ := hchild
        obtain ⟨rfl, -⟩ := (FileM.returns_pure _ _ _ _).mp hret
        cases hmem
  | succ depth ih =>
      rcases hlevel _ (hkeeps depth) path arcname members h hm with ⟨l, hl⟩ | hchild
      · exact ⟨[], by simp, l, by rwa [List.append_nil]⟩
      · obtain ⟨name, arcname', ms, hname, hret, hmem⟩ := hchild
        obtain ⟨names, hnames, l, hl⟩ := ih _ _ ms hmem hret
        refine ⟨name :: names, List.forall_mem_cons.mpr ⟨hname, hnames⟩, l, ?_⟩
        rwa [List.append_assoc, List.singleton_append] at hl

/-- The walk reads exactly what the paths below its start lead to. -/
theorem logs_addPath (P : Access → Prop) (depth : Nat) (path : List String) (arcname : String) :
    FileM.Logs P (addPath disk depth path arcname) fs ↔
      ∀ names : List String, names.length ≤ depth → (∀ name ∈ names, ProperName name) →
        ∀ l node, fs.locate disk.limits (path ++ names) = some (l, node) → P (.read l) := by
  -- A path below something missing leads nowhere, so only paths through directories count.
  have hbelow : ∀ path name rest l node, ProperName name →
      fs.locate disk.limits (path ++ name :: rest) = some (l, node) →
      ∃ l', fs.locate disk.limits path = some (l', .dir) ∧ name ∈ fs.names l' := by
    intro path name rest l node hname hl
    obtain ⟨l', hl', hchild⟩ := fs.locate_split disk.limits path rest name (by simp [hl])
    exact ⟨l', hl', (fs.mem_names l' name hname).mpr (hchild hname.2.2.1)⟩
  induction depth generalizing path arcname with
  | zero =>
      have hnil : ∀ names : List String, names.length ≤ 0 → names = [] := fun names h =>
        List.eq_nil_of_length_eq_zero (by omega)
      cases h : fs.locate disk.limits path with
      | none =>
          rw [addPath, FileM.Logs, addPathVia_of_missing disk fs _ path arcname h]
          constructor
          · intro _ names hlen _ l node hl
            rw [hnil names hlen, List.append_nil, h] at hl
            cases hl
          · intro _ a ha
            cases ha
      | some found =>
          obtain ⟨l, node⟩ := found
          rw [addPath, logs_addPathVia disk fs _ path arcname l node h,
            FileM.logs_forEach_of_returns _ _ _ _ fun _ _ => ⟨[], by simp⟩]
          constructor
          · rintro ⟨hl, -⟩ names hlen - l' node' hl'
            rw [hnil names hlen, List.append_nil, h] at hl'
            cases hl'
            exact hl
          · intro hall
            exact ⟨hall [] (by simp) (by simp) l node (by simpa using h), by simp⟩
  | succ depth ih =>
      cases h : fs.locate disk.limits path with
      | none =>
          rw [addPath, FileM.Logs, addPathVia_of_missing disk fs _ path arcname h]
          constructor
          · intro _ names _ hproper l node hl
            cases names with
            | nil =>
                rw [List.append_nil, h] at hl
                cases hl
            | cons name rest =>
                obtain ⟨l', hl', -⟩ := hbelow path name rest l node
                  (hproper name List.mem_cons_self) hl
                rw [h] at hl'
                cases hl'
          · intro _ a ha
            cases ha
      | some found =>
          obtain ⟨l, node⟩ := found
          rw [addPath, logs_addPathVia disk fs _ path arcname l node h,
            FileM.logs_forEach_of_returns _ _ _ _ fun _ _ => addPath_returns disk fs _ _ _]
          constructor
          · rintro ⟨hl, hchildren⟩ names hlen hproper l' node' hl'
            cases names with
            | nil =>
                rw [List.append_nil, h] at hl'
                cases hl'
                exact hl
            | cons name rest =>
                obtain ⟨l₁, hl₁, hmem⟩ := hbelow path name rest l' node'
                  (hproper name List.mem_cons_self) hl'
                rw [h] at hl₁
                cases hl₁
                have hchild := (ih _ _).mp (hchildren rfl name hmem) rest (by simpa using hlen)
                  (fun n hn => hproper n (List.mem_cons_of_mem _ hn)) l' node'
                exact hchild (by simpa using hl')
          · intro hall
            refine ⟨hall [] (by simp) (by simp) l node (by simpa using h), ?_⟩
            intro _ name hname
            apply (ih _ _).mpr
            intro rest hlen hproper l' node' hl'
            refine hall (name :: rest) (by simpa using hlen) ?_ l' node' (by simpa using hl')
            exact List.forall_mem_cons.mpr ⟨fs.properName_of_mem_names l name hname, hproper⟩

end NetworkFileServer.Server.FileService
