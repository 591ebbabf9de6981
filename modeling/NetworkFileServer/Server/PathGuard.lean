import NetworkFileServer.Server.FileService

/-!
# What the path guard guarantees

`resolve_safe_path` returns a location without links at or below the resolved base directory, and it
looks at nothing outside that directory on the way.
-/

namespace NetworkFileServer.Server.FileService

variable {α : Type} (disk : Disk α)

@[simp] theorem logs_resolvePath (P : Access → Prop) (p : List String) (fs : FileSystem α) :
    FileM.Logs P (resolvePath disk p) fs := by
  simp [resolvePath]

@[simp] theorem returns_resolvePath (p : List String) (fs fs' : FileSystem α) (l : Location) :
    (resolvePath disk p).Returns fs l fs' ↔ fs.resolve disk.limits p = some l ∧ fs = fs' := by
  simp [resolvePath]

@[simp] theorem logs_liftExcept {β : Type} (P : Access → Prop) (x : Except FileError β)
    (fs : FileSystem α) : FileM.Logs P (liftExcept x) fs := by
  cases x <;> simp [liftExcept]

@[simp] theorem returns_liftExcept {β : Type} (x : Except FileError β) (b : β)
    (fs fs' : FileSystem α) :
    (liftExcept x).Returns fs b fs' ↔ x = .ok b ∧ fs = fs' := by
  cases x <;> simp [liftExcept]

@[simp] theorem keeps_resolvePath (p : List String) : (resolvePath disk p).Keeps := by
  simp [resolvePath]

@[simp] theorem keeps_liftExcept {β : Type} (x : Except FileError β) :
    (liftExcept x : FileM α FileError β).Keeps := by
  cases x <;> simp [liftExcept]

theorem resolveSafePath_keeps (baseDir : List String) (userPath : String) :
    (resolveSafePath disk baseDir userPath).Keeps := by
  apply FileM.Keeps.bind (keeps_resolvePath disk baseDir)
  intro base
  split
  · simp
  split
  · simp
  split
  · simp
  apply FileM.Keeps.bind (keeps_resolvePath disk _)
  intro candidate
  split
  · simp
  apply FileM.Keeps.bind (FileM.keeps_pathExists _ _)
  intro found
  cases found <;> simp

/-- The guard lets a user's path through as `r`. -/
def SafePath (fs : FileSystem α) (baseDir : List String) (userPath : String) (r : Location) : Prop :=
  (resolveSafePath disk baseDir userPath).Returns fs r fs

/-- The location that the guard lets a user's path through as. -/
def safeLocation (fs : FileSystem α) (baseDir : List String) (userPath : String) : Option Location :=
  match (resolveSafePath disk baseDir userPath fs).result with
  | .ok r => some r
  | .error _ => none

/-- A path that is not refused at sight. -/
def Relative (userPath : String) : Prop :=
  userPath ≠ "" ∧ Text.startsWith userPath "/" = false ∧ hasNul userPath = false

/-- Exactly what the guard returns, and that it changes nothing. -/
theorem returns_resolveSafePath (fs fs' : FileSystem α) (baseDir : List String) (userPath : String)
    (r : Location) :
    (resolveSafePath disk baseDir userPath).Returns fs r fs' ↔
      fs = fs' ∧ ∃ base, fs.resolve disk.limits baseDir = some base ∧
        (userPath = "" ∧ r = base ∨
          Relative userPath ∧ base <+: r ∧ (fs.get? r).isSome = true ∧
            fs.resolve disk.limits (base ++ (PurePath.parse userPath).parts) = some r) := by
  rw [resolveSafePath, FileM.returns_bind]
  constructor
  · rintro ⟨base, fs₁, hret₁, hret⟩
    obtain ⟨hbase, rfl⟩ := (returns_resolvePath disk _ _ _ _).mp hret₁
    split at hret
    · rename_i hempty
      obtain ⟨rfl, rfl⟩ := (FileM.returns_pure _ _ _ _).mp hret
      exact ⟨rfl, base, hbase, .inl ⟨hempty, rfl⟩⟩
    rename_i hempty
    split at hret
    · exact absurd hret (FileM.returns_fail _ _ _ _)
    rename_i hslash
    split at hret
    · exact absurd hret (FileM.returns_fail _ _ _ _)
    rename_i hnul
    obtain ⟨candidate, fs₁, hret₂, hret⟩ := (FileM.returns_bind _ _ _ _ _).mp hret
    obtain ⟨hcand, rfl⟩ := (returns_resolvePath disk _ _ _ _).mp hret₂
    split at hret
    · exact absurd hret (FileM.returns_fail _ _ _ _)
    rename_i hinside
    obtain ⟨found, fs₁, hret₃, hret⟩ := (FileM.returns_bind _ _ _ _ _).mp hret
    obtain ⟨hfound, rfl⟩ := (FileM.returns_pathExists _ _ _ _ _).mp hret₃
    cases found with
    | false => simp at hret
    | true =>
        obtain ⟨rfl, rfl⟩ := (FileM.returns_pure _ _ _ _).mp hret
        rw [fs.locate_of_resolved _ _ (fs.resolve_resolved _ _ _ hcand)] at hfound
        refine ⟨rfl, base, hbase, .inr ⟨⟨hempty, ?_, ?_⟩, ?_, ?_, hcand⟩⟩
        · simpa using hslash
        · simpa using hnul
        · simpa using hinside
        · simpa using hfound
  · rintro ⟨rfl, base, hbase, hr⟩
    refine ⟨base, fs, (returns_resolvePath disk _ _ _ _).mpr ⟨hbase, rfl⟩, ?_⟩
    rcases hr with ⟨hempty, rfl⟩ | ⟨⟨hempty, hslash, hnul⟩, hinside, hexists, hr⟩
    · simp [hempty]
    · rw [if_neg hempty, if_neg (by simp [hslash]), if_neg (by simp [hnul]), FileM.returns_bind]
      refine ⟨r, fs, (returns_resolvePath disk _ _ _ _).mpr ⟨hr, rfl⟩, ?_⟩
      rw [if_neg (by simpa using hinside), FileM.returns_bind]
      refine ⟨true, fs, ?_, by simp⟩
      rw [FileM.returns_pathExists, fs.locate_of_resolved _ _ (fs.resolve_resolved _ _ _ hr)]
      simpa using hexists

theorem safePath_of_returns {fs fs' : FileSystem α} {baseDir : List String} {userPath : String}
    {r : Location} (h : (resolveSafePath disk baseDir userPath).Returns fs r fs') :
    SafePath disk fs baseDir userPath r ∧ fs = fs' := by
  have heq := ((returns_resolveSafePath disk _ _ _ _ _).mp h).1
  subst heq
  exact ⟨h, rfl⟩

theorem safeLocation_eq_some (fs : FileSystem α) (baseDir : List String) (userPath : String)
    (r : Location) :
    safeLocation disk fs baseDir userPath = some r ↔ SafePath disk fs baseDir userPath r := by
  unfold safeLocation
  constructor
  · intro h
    split at h
    · rename_i r' hr'
      cases h
      exact (safePath_of_returns disk ⟨hr', rfl⟩).1
    · cases h
  · intro h
    rw [h.1]

theorem SafePath.unique {disk : Disk α} {fs : FileSystem α} {baseDir : List String}
    {userPath : String} {r r' : Location} (h : SafePath disk fs baseDir userPath r)
    (h' : SafePath disk fs baseDir userPath r') : r' = r :=
  Except.ok.inj (h'.1.symm.trans h.1)

theorem SafePath.inside {disk : Disk α} {fs : FileSystem α} {baseDir : List String}
    {userPath : String} {r base : Location} (h : SafePath disk fs baseDir userPath r)
    (hbase : fs.resolve disk.limits baseDir = some base) : base <+: r := by
  obtain ⟨-, base', hbase', hr⟩ := (returns_resolveSafePath disk _ _ _ _ _).mp h
  cases hbase.symm.trans hbase'
  rcases hr with ⟨-, rfl⟩ | ⟨-, hinside, -⟩
  · exact List.prefix_refl r
  · exact hinside

theorem SafePath.resolved {disk : Disk α} {fs : FileSystem α} {baseDir : List String}
    {userPath : String} {r : Location} (h : SafePath disk fs baseDir userPath r) :
    fs.Resolved r := by
  obtain ⟨-, base, hbase, hr⟩ := (returns_resolveSafePath disk _ _ _ _ _).mp h
  rcases hr with ⟨-, rfl⟩ | ⟨-, -, -, hr⟩
  · exact fs.resolve_resolved _ _ _ hbase
  · exact fs.resolve_resolved _ _ _ hr

theorem SafePath.not_absolute {disk : Disk α} {fs : FileSystem α} {baseDir : List String}
    {userPath : String} {r : Location} (h : SafePath disk fs baseDir userPath r) :
    Text.startsWith userPath "/" = false := by
  obtain ⟨-, base, -, hcases⟩ := (returns_resolveSafePath disk _ _ _ _ _).mp h
  rcases hcases with ⟨hempty, -⟩ | ⟨hrel, -⟩
  · rw [hempty]
    rfl
  · exact hrel.2.1

theorem logs_resolveSafePath (P : Access → Prop) (fs : FileSystem α) (baseDir : List String)
    (userPath : String) :
    FileM.Logs P (resolveSafePath disk baseDir userPath) fs ↔
      (userPath ≠ "" → ∀ r, SafePath disk fs baseDir userPath r → P (.read r)) := by
  have hexists : ∀ candidate r, fs.Resolved candidate →
      fs.locate disk.limits candidate = some r → r.1 = candidate := by
    intro candidate r hres hr
    rw [fs.locate_of_resolved _ _ hres] at hr
    obtain ⟨node, -, rfl⟩ := Option.map_eq_some_iff.mp hr
    rfl
  rw [resolveSafePath, FileM.logs_bind]
  simp only [logs_resolvePath, returns_resolvePath, true_and]
  constructor
  · intro h hempty r hsafe
    obtain ⟨-, base, hbase, hr⟩ := (returns_resolveSafePath disk _ _ _ _ _).mp hsafe
    obtain ⟨hrel, hinside, hsome, hr⟩ := hr.resolve_left fun hr => hempty hr.1
    have hlogs := h base fs ⟨hbase, rfl⟩
    rw [if_neg hempty, if_neg (by simp [hrel.2.1]), if_neg (by simp [hrel.2.2]),
      FileM.logs_bind] at hlogs
    have hnext := hlogs.2 r fs ((returns_resolvePath disk _ _ _ _).mpr ⟨hr, rfl⟩)
    rw [if_neg (by simpa using hinside), FileM.logs_bind, FileM.logs_pathExists] at hnext
    obtain ⟨node, hnode⟩ := Option.isSome_iff_exists.mp hsome
    refine hnext.1 r node ?_
    rw [fs.locate_of_resolved _ _ (fs.resolve_resolved _ _ _ hr), hnode]
    rfl
  · rintro h base fs' ⟨hbase, rfl⟩
    split
    · simp
    rename_i hempty
    split
    · simp
    rename_i hslash
    split
    · simp
    rename_i hnul
    rw [FileM.logs_bind]
    refine ⟨by simp, ?_⟩
    intro candidate fs' hret
    obtain ⟨hcand, rfl⟩ := (returns_resolvePath disk _ _ _ _).mp hret
    have hres := fs.resolve_resolved _ _ _ hcand
    split
    · simp
    rename_i hinside
    rw [FileM.logs_bind, FileM.logs_pathExists]
    constructor
    · intro l node hl
      obtain rfl : candidate = l := (hexists candidate (l, node) hres hl).symm
      refine h hempty candidate ((returns_resolveSafePath disk _ _ _ _ _).mpr
        ⟨rfl, base, hbase, .inr ⟨⟨hempty, by simpa using hslash, by simpa using hnul⟩,
          by simpa using hinside, ?_, hcand⟩⟩)
      rw [fs.locate_of_resolved _ _ hres] at hl
      obtain ⟨node', hnode, -⟩ := Option.map_eq_some_iff.mp hl
      simp [hnode]
    · intro found fs' hret
      cases found <;> simp

theorem resolveSafePath_logs (P : Access → Prop) (fs : FileSystem α) (baseDir : List String)
    (base : Location) (userPath : String) (hbase : fs.resolve disk.limits baseDir = some base)
    (hP : ∀ l, base <+: l → P (.read l)) :
    FileM.Logs P (resolveSafePath disk baseDir userPath) fs := by
  rw [logs_resolveSafePath]
  intro _ r hsafe
  exact hP r (hsafe.inside hbase)

end NetworkFileServer.Server.FileService
