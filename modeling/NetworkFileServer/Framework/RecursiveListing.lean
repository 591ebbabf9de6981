import Mathlib.Data.List.Nodup
import Mathlib.Data.List.Perm.Subperm
import NetworkFileServer.Framework.FileM

/-!
# Recursive listings

`Path.rglob("*")`: everything below a directory, without following links, as a program over a file system. On
a file system that stands still it yields exactly the locations below the directory.
-/

namespace FileSystem

variable {α : Type*} (fs : FileSystem α)

/-- Everything below a directory, down to a depth. -/
def descendants : Nat → Location → List Location
  | 0, _ => []
  | depth + 1, dir =>
      (fs.names dir).map (fun name => dir ++ [name]) ++
        (fs.names dir).flatMap fun name =>
          if fs.isDirAt (dir ++ [name]) then descendants depth (dir ++ [name]) else []

theorem mem_descendants (depth : Nat) (dir p : Location) :
    p ∈ fs.descendants depth dir ↔
      ∃ names, p = dir ++ names ∧ names ≠ [] ∧ names.length ≤ depth ∧ (∀ name ∈ names, ProperName name) ∧
        (fs.get? p).isSome = true := by
  induction depth generalizing dir p with
  | zero =>
      constructor
      · intro h
        cases h
      · rintro ⟨names, -, hne, hlen, -⟩
        exact absurd (List.eq_nil_of_length_eq_zero (Nat.le_zero.mp hlen)) hne
  | succ depth ih =>
      rw [descendants, List.mem_append, List.mem_map, List.mem_flatMap]
      constructor
      · rintro (⟨name, hname, rfl⟩ | ⟨name, hname, hp⟩)
        · have hproper := fs.properName_of_mem_names dir name hname
          exact ⟨[name], rfl, by simp, by simp, by simpa using hproper, (fs.mem_names dir name hproper).mp hname⟩
        · split at hp
          · obtain ⟨names, rfl, hne, hlen, hproper, hsome⟩ := (ih _ _).mp hp
            refine ⟨name :: names, by simp, by simp, by simpa using hlen, ?_, hsome⟩
            exact List.forall_mem_cons.mpr ⟨fs.properName_of_mem_names dir name hname, hproper⟩
          · cases hp
      · rintro ⟨names, rfl, hne, hlen, hproper, hsome⟩
        cases names with
        | nil => exact absurd rfl hne
        | cons name rest =>
            have hname := hproper name List.mem_cons_self
            rw [List.append_cons dir name rest] at hsome ⊢
            have hmem : name ∈ fs.names dir :=
              (fs.mem_names dir name hname).mpr (fs.isSome_of_below _ _ (List.prefix_append _ _) hsome)
            by_cases hrest : rest = []
            · exact .inl ⟨name, hmem, by simp [hrest]⟩
            · refine .inr ⟨name, hmem, ?_⟩
              rw [if_pos (fs.isDirAt_of_below _ rest hrest hsome)]
              exact (ih _ _).mpr ⟨rest, rfl, hrest, by simpa using hlen,
                fun n hn => hproper n (List.mem_cons_of_mem _ hn), hsome⟩

theorem length_le_of_get? (p : Location) (h : (fs.get? p).isSome = true) : p.length ≤ fs.tree.length := by
  -- The locations on the way are all different, and all of them hold an object.
  have hnodup : ((List.range p.length).map fun k => p.take (k + 1)).Nodup := by
    rw [List.nodup_map_iff_inj_on List.nodup_range]
    intro i hi j hj hij
    have hlen := congrArg List.length hij
    simp only [List.length_take] at hlen
    have hi' := List.mem_range.mp hi
    have hj' := List.mem_range.mp hj
    omega
  have hsub : ((List.range p.length).map fun k => p.take (k + 1)) ⊆ fs.tree.map Prod.fst := by
    intro q hq
    obtain ⟨k, hk, rfl⟩ := List.mem_map.mp hq
    have hne : p.take (k + 1) ≠ [] := by
      have hlen : (p.take (k + 1)).length = k + 1 := by
        rw [List.length_take]
        have hk' := List.mem_range.mp hk
        omega
      intro hnil
      rw [hnil] at hlen
      cases hlen
    obtain ⟨e, he, hkey⟩ := fs.mem_of_get? _ hne (fs.isSome_of_below _ p (List.take_prefix _ _) h)
    exact List.mem_map.mpr ⟨e, he, hkey⟩
  have hle := (List.subperm_of_subset hnodup hsub).length_le
  simpa using hle

theorem mem_descendants_length (dir p : Location) :
    p ∈ fs.descendants fs.tree.length dir ↔
      ∃ names, p = dir ++ names ∧ names ≠ [] ∧ (∀ name ∈ names, ProperName name) ∧
        (fs.get? p).isSome = true := by
  rw [mem_descendants]
  constructor
  · rintro ⟨names, hp, hne, -, hproper, hsome⟩
    exact ⟨names, hp, hne, hproper, hsome⟩
  · rintro ⟨names, rfl, hne, hproper, hsome⟩
    refine ⟨names, rfl, hne, ?_, hproper, hsome⟩
    have hlen := fs.length_le_of_get? _ hsome
    rw [List.length_append] at hlen
    omega

end FileSystem

namespace FileM

variable {α ε β γ : Type}

theorem returns_forEach_map (f : β → FileM α ε γ) (g : β → γ) (fs : FileSystem α) (xs : List β)
    (h : ∀ x ∈ xs, (f x).Returns fs (g x) fs) : (forEach f xs).Returns fs (xs.map g) fs := by
  induction xs with
  | nil => simp [forEach]
  | cons x xs ih =>
      rw [returns_forEach_cons]
      exact ⟨g x, xs.map g, fs, h x List.mem_cons_self, ih fun x' hx' => h x' (List.mem_cons_of_mem _ hx'), rfl⟩

/-- A loop whose programs change nothing and return lists, when it is known what is in each of them. -/
theorem returns_forEach_flatten (f : β → FileM α ε (List γ)) (P : β → γ → Prop) (fs : FileSystem α) (xs : List β)
    (h : ∀ x ∈ xs, ∃ ys, (f x).Returns fs ys fs ∧ ∀ y, y ∈ ys ↔ P x y) :
    ∃ yss, (forEach f xs).Returns fs yss fs ∧ ∀ y, y ∈ yss.flatten ↔ ∃ x ∈ xs, P x y := by
  induction xs with
  | nil => exact ⟨[], by simp [forEach], by simp⟩
  | cons x xs ih =>
      obtain ⟨ys, hys, hmem⟩ := h x List.mem_cons_self
      obtain ⟨yss, hyss, hrest⟩ := ih fun x' hx' => h x' (List.mem_cons_of_mem _ hx')
      refine ⟨ys :: yss, (returns_forEach_cons _ _ _ _ _ _).mpr ⟨ys, yss, fs, hys, hyss, rfl⟩, ?_⟩
      intro y
      rw [List.flatten_cons, List.mem_append, hmem, hrest, List.exists_mem_cons_iff]

section Operations

variable (lim : LinkLimits)

/-- `Path.is_file()`. -/
def isFile (p : List String) : FileM α ε Bool := fun fs =>
  match fs.locate lim p with
  | some (l, .file _) => ⟨.ok true, fs, [.read l]⟩
  | some (l, _) => ⟨.ok false, fs, [.read l]⟩
  | none => ⟨.ok false, fs, []⟩

/-- `DirEntry.is_dir(follow_symlinks=False)`. -/
def isRealDir (p : List String) : FileM α ε Bool := fun fs =>
  match fs.locateEntry lim p with
  | none => ⟨.ok false, fs, []⟩
  | some l => ⟨.ok (fs.isDirAt l), fs, [.read l]⟩

/-- `Path.rglob("*")` of a directory, down to a depth. -/
def rglob : Nat → List String → FileM α OsError (List (List String))
  | 0, _ => pure []
  | depth + 1, dir => do
      let names ← listdir lim dir
      let below ← forEach (fun name => do
        let descends ← isRealDir lim (dir ++ [name])
        if descends then rglob depth (dir ++ [name]) else pure []) names
      pure (names.map (fun name => dir ++ [name]) ++ below.flatten)

variable (fs : FileSystem α)

theorem returns_isFile (p : List String) :
    (isFile lim p : FileM α ε Bool).Returns fs
      ((fs.locate lim p).any fun found => !found.2.isDir && !found.2.isLink) fs := by
  unfold Returns isFile
  cases fs.locate lim p with
  | none => exact ⟨rfl, rfl⟩
  | some found =>
      obtain ⟨l, node⟩ := found
      cases node with
      | _ => exact ⟨rfl, rfl⟩

theorem returns_isRealDir (dir : Location) (name : String) (hdir : fs.isDirAt dir = true)
    (hres : fs.Resolved dir) (hname : name ≠ "..") :
    (isRealDir lim (dir ++ [name]) : FileM α ε Bool).Returns fs (fs.isDirAt (dir ++ [name])) fs := by
  unfold Returns isRealDir
  rw [fs.locateEntry_of_resolved lim dir name hname hres, if_pos hdir]
  exact ⟨rfl, rfl⟩

theorem returns_rglob (depth : Nat) (dir : Location) (hdir : fs.isDirAt dir = true) (hres : fs.Resolved dir) :
    (rglob lim depth dir).Returns fs (fs.descendants depth dir) fs := by
  induction depth generalizing dir with
  | zero => simp [rglob, FileSystem.descendants]
  | succ depth ih =>
      have hlist : (listdir lim dir).Returns fs (fs.names dir) fs := by
        rw [returns_listdir, fs.locate_of_resolved lim dir hres, (fs.isDirAt_eq_true dir).mp hdir]
        exact ⟨⟨dir, rfl, rfl⟩, rfl⟩
      rw [rglob, returns_bind_of_returns _ _ _ _ fs hlist]
      have hbelow : (forEach (fun name => do
          let descends ← isRealDir lim (dir ++ [name])
          if descends then rglob lim depth (dir ++ [name]) else pure []) (fs.names dir)).Returns fs
          ((fs.names dir).map fun name =>
            if fs.isDirAt (dir ++ [name]) then fs.descendants depth (dir ++ [name]) else []) fs := by
        refine returns_forEach_map _ _ fs _ ?_
        intro name hname
        have hup := (fs.properName_of_mem_names dir name hname).2.2.1
        rw [returns_bind_of_returns _ _ _ _ fs (returns_isRealDir lim fs dir name hdir hres hup)]
        split
        · rename_i hchild
          refine ih _ hchild (hres.snoc hup ?_)
          rw [(fs.isDirAt_eq_true _).mp hchild]
          rfl
        · simp
      rw [returns_bind_of_returns _ _ _ _ fs hbelow, returns_pure]
      exact ⟨rfl, rfl⟩

end Operations

end FileM
