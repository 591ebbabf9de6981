import NetworkFileServer.Framework.FileRegion
import NetworkFileServer.Server.PathGuard

/-!
# Paths of what is in the shared folder

The path by which a client names an object is the list of names below the folder, joined by slashes. The guard
lets it through as where the names lead to, and `list_directory` lists what is there.
-/

theorem startsWith_intercalate (first : String) (rest : List String) (hempty : first ≠ "")
    (hslash : '/' ∉ first.toList) :
    Text.startsWith ("/".intercalate (first :: rest)) "/" = false ∧ "/".intercalate (first :: rest) ≠ "" := by
  have hne : first.toList ≠ [] := by simpa using hempty
  obtain ⟨c, cs, hcs⟩ := List.exists_cons_of_ne_nil hne
  have hc : '/' ≠ c := by
    rintro rfl
    exact hslash (by simp [hcs])
  have hstart : ∃ more, ("/".intercalate (first :: rest)).toList = c :: more := by
    rw [String.toList_intercalate, List.map_cons, hcs]
    cases rest with
    | nil => exact ⟨cs, by simp⟩
    | cons second rest => exact ⟨_, by simp only [List.map_cons, List.intercalate_cons_cons, List.cons_append]; rfl⟩
  obtain ⟨more, hmore⟩ := hstart
  constructor
  · rw [Text.startsWith, hmore]
    simp [List.isPrefixOf, hc]
  · intro hnil
    rw [hnil] at hmore
    cases hmore

theorem PurePath.parse_intercalate_filter (names : List String)
    (h : ∀ name ∈ names, name ≠ "" ∧ '/' ∉ name.toList) :
    PurePath.parse ("/".intercalate names) = ⟨false, names.filter fun name => name ≠ "."⟩ := by
  cases names with
  | nil => decide
  | cons first rest =>
      have hsplit : ("/".intercalate (first :: rest)).toList.splitOn '/' = (first :: rest).map String.toList := by
        rw [String.toList_intercalate]
        refine List.splitOn_intercalate '/' ?_ (by simp)
        intro cs hcs
        obtain ⟨name, hname, rfl⟩ := List.mem_map.mp hcs
        exact (h name hname).2
      obtain ⟨hempty, hslash⟩ := h first List.mem_cons_self
      rw [parse, hsplit, (startsWith_intercalate first rest hempty hslash).1, List.map_map]
      simp only [Function.comp_def, String.ofList_toList, List.map_id']
      congr 1
      refine List.filter_congr ?_
      intro name hname
      simp [(h name hname).1]

theorem PurePath.parse_intercalate (names : List String) (h : ∀ name ∈ names, ProperName name) :
    PurePath.parse ("/".intercalate names) = ⟨false, names⟩ := by
  rw [parse_intercalate_filter names fun name hname => ⟨(h name hname).1, (h name hname).2.2.2⟩]
  congr 1
  rw [List.filter_eq_self]
  intro name hname
  simpa using (h name hname).2.1

namespace FileSystem

variable {α : Type*}

/-- Every object has a name that the kernel allows. -/
def WellNamed (fs : FileSystem α) : Prop := ∀ e ∈ fs.tree, ∀ name ∈ e.1, ProperName name ∧ '\x00' ∉ name.toList

instance (fs : FileSystem α) : Decidable fs.WellNamed := inferInstanceAs (Decidable (∀ e ∈ fs.tree, _))

theorem WellNamed.of_get? {fs : FileSystem α} (h : fs.WellNamed) (p : Location) (hp : (fs.get? p).isSome = true)
    (name : String) (hname : name ∈ p) : ProperName name ∧ '\x00' ∉ name.toList := by
  obtain ⟨e, he, rfl⟩ := fs.mem_of_get? p (List.ne_nil_of_mem hname) hp
  exact h e he name hname

end FileSystem

namespace NetworkFileServer.Server.FileService

variable {α : Type} (disk : Disk α) (fs : FileSystem α)

/-- The path of a location from the shared folder. -/
def pathFrom (base p : Location) : String := "/".intercalate (p.drop base.length)

theorem mem_toList_intercalate {c : Char} {names : List String} (h : c ∈ ("/".intercalate names).toList) :
    c = '/' ∨ ∃ name ∈ names, c ∈ name.toList := by
  induction names with
  | nil => simp at h
  | cons first rest ih =>
      cases rest with
      | nil => exact .inr ⟨first, by simp, by simpa using h⟩
      | cons second rest =>
          rw [String.intercalate_cons_cons, String.toList_append, String.toList_append, List.mem_append,
            List.mem_append] at h
          rcases h with (h | h) | h
          · exact .inr ⟨first, List.mem_cons_self, h⟩
          · exact .inl (by simpa using h)
          · rcases ih h with hslash | ⟨name, hname, hc⟩
            · exact .inl hslash
            · exact .inr ⟨name, List.mem_cons_of_mem _ hname, hc⟩

theorem relative_intercalate (names : List String) (hne : names ≠ [])
    (hnames : ∀ name ∈ names, name ≠ "" ∧ '/' ∉ name.toList ∧ '\x00' ∉ name.toList) :
    Relative ("/".intercalate names) := by
  cases names with
  | nil => exact absurd rfl hne
  | cons first rest =>
      obtain ⟨hempty, hslash, -⟩ := hnames first List.mem_cons_self
      obtain ⟨hstart, hnil⟩ := startsWith_intercalate first rest hempty hslash
      refine ⟨hnil, hstart, ?_⟩
      rw [hasNul, ← Bool.not_eq_true, List.contains_iff_mem]
      intro hnul
      rcases mem_toList_intercalate hnul with hsep | ⟨name, hname, hc⟩
      · cases hsep
      · exact (hnames name hname).2.2 hc

theorem safePath_pathFrom (baseDir : List String) (base l : Location) (names : List String) (hne : names ≠ [])
    (hbase : fs.resolve disk.limits baseDir = some base)
    (hnames : ∀ name ∈ names, ProperName name ∧ '\x00' ∉ name.toList) :
    SafePath disk fs baseDir (pathFrom base (base ++ names)) l ↔
      base <+: l ∧ (fs.get? l).isSome = true ∧ fs.resolve disk.limits (base ++ names) = some l := by
  have hrel := relative_intercalate names hne fun name hname =>
    ⟨(hnames name hname).1.1, (hnames name hname).1.2.2.2, (hnames name hname).2⟩
  rw [SafePath, returns_resolveSafePath, pathFrom, List.drop_left,
    PurePath.parse_intercalate names fun name hname => (hnames name hname).1]
  constructor
  · rintro ⟨-, base', hbase', hempty | ⟨-, hin, hsome, hresolve⟩⟩
    · exact absurd hempty.1 hrel.1
    · cases hbase.symm.trans hbase'
      exact ⟨hin, hsome, hresolve⟩
  · rintro ⟨hin, hsome, hresolve⟩
    exact ⟨rfl, base, hbase, .inr ⟨hrel, hin, hsome, hresolve⟩⟩

theorem SafePath.allowed {disk : Disk α} {fs : FileSystem α} {baseDir : List String} {userPath : String}
    {base way : Location} (h : SafePath disk fs baseDir userPath (base ++ way)) (hnames : fs.WellNamed)
    (hbase : fs.resolve disk.limits baseDir = some base) (name : String) (hname : name ∈ way) :
    ProperName name ∧ '\x00' ∉ name.toList := by
  obtain ⟨-, base', hbase', hcases⟩ := (returns_resolveSafePath disk _ _ _ _ _).mp h
  cases hbase.symm.trans hbase'
  rcases hcases with ⟨-, hroot⟩ | ⟨-, -, hsome, -⟩
  · rw [List.append_right_eq_self.mp hroot] at hname
    cases hname
  · exact hnames.of_get? _ hsome name (List.mem_append_right _ hname)

section Region

variable {disk fs} {baseDir : List String} {base : Location} {names : List String}

theorem SafePath.eq_of_region {l : Location} (h : SafePath disk fs baseDir (pathFrom base (base ++ names)) l)
    (hregion : fs.Region base) (hbase : fs.resolve disk.limits baseDir = some base)
    (hproper : ∀ name ∈ names, ProperName name) : l = base ++ names := by
  have hparse := PurePath.parse_intercalate names hproper
  have hres : fs.Resolved (base ++ names) := by
    refine hregion.resolved_below (List.prefix_append _ _) ?_
    intro hup
    rcases List.mem_append.mp hup with hup | hup
    · exact hregion.resolved.noUp hup
    · exact (hproper _ hup).2.2.1 rfl
  obtain ⟨-, base', hbase', hcases⟩ := (returns_resolveSafePath disk _ _ _ _ _).mp h
  cases hbase.symm.trans hbase'
  rw [pathFrom, List.drop_left] at hcases
  rcases hcases with ⟨hempty, rfl⟩ | ⟨-, -, -, hresolve⟩
  · rw [hempty] at hparse
    have hnil : [] = names := congrArg PurePath.parts hparse
    rw [← hnil, List.append_nil]
  · rw [hparse, fs.resolve_of_resolved disk.limits _ hres] at hresolve
    exact (Option.some.inj hresolve).symm

theorem safePath_of_region (hregion : fs.Region base) (hbase : fs.resolve disk.limits baseDir = some base)
    (hallowed : ∀ name ∈ names, ProperName name ∧ '\x00' ∉ name.toList)
    (hsome : (fs.get? (base ++ names)).isSome = true) :
    SafePath disk fs baseDir (pathFrom base (base ++ names)) (base ++ names) := by
  by_cases hne : names = []
  · subst hne
    rw [SafePath, returns_resolveSafePath, pathFrom, List.append_nil, List.drop_length]
    exact ⟨rfl, base, hbase, .inl ⟨rfl, rfl⟩⟩
  · refine (safePath_pathFrom disk fs baseDir base _ names hne hbase hallowed).mpr
      ⟨List.prefix_append _ _, hsome, fs.resolve_of_resolved disk.limits _ ?_⟩
    refine hregion.resolved_below (List.prefix_append _ _) ?_
    intro hup
    rcases List.mem_append.mp hup with hup | hup
    · exact hregion.resolved.noUp hup
    · exact (hallowed _ hup).1.2.2.1 rfl

end Region

end NetworkFileServer.Server.FileService
