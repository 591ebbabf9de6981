import Mathlib.Logic.Function.Basic
import NetworkFileServer.Framework.LocalPrograms

/-!
# Folders

A folder is a map from the paths below its directory to what is there. Programs over a file system are
reasoned about by what they do to a folder: a triple says how a program ends that is run where the folder holds
a given map, and that it leaves everything else alone.
-/

/-- What is at each path, as the list of names from the folder. -/
abbrev Folder (α : Type*) := List String → Option (Node α)

namespace Folder

variable {α : Type*}

def isDir (F : Folder α) (p : List String) : Bool := (F p).any Node.isDir

theorem isDir_eq_true (F : Folder α) (p : List String) : F.isDir p = true ↔ F p = some .dir := by
  unfold isDir
  cases F p with
  | none => simp
  | some node => cases node <;> simp [Node.isDir]

theorem isDir_eq_false (F : Folder α) (p : List String) : F.isDir p = false ↔ F p ≠ some .dir := by
  rw [← Bool.not_eq_true, isDir_eq_true]

/-- Everything is in a directory, and nothing is a link. -/
structure WellFormed (F : Folder α) : Prop where
  closed : ∀ p c, (F (p ++ [c])).isSome = true → F p = some .dir
  noLink : ∀ p target, F p ≠ some (.link target)

def put (F : Folder α) (p : List String) (node : Node α) : Folder α := Function.update F p (some node)

/-- Without the object, and without everything below it. -/
def remove (F : Folder α) (p : List String) : Folder α := fun q => if p <+: q then none else F q

/-- What was at and below `src` is at and below `dst`, in place of what was there. -/
def move (F : Folder α) (src dst : List String) : Folder α := fun q =>
  if dst <+: q then F (src ++ q.drop dst.length) else if src <+: q then none else F q

theorem WellFormed.below {F : Folder α} (h : F.WellFormed) (p x : List String) (hx : x ≠ [])
    (hdir : F p ≠ some .dir) : F (p ++ x) = none := by
  induction x using List.reverseRecOn with
  | nil => exact absurd rfl hx
  | append_singleton x c ih =>
      cases hchild : F (p ++ (x ++ [c])) with
      | none => rfl
      | some node =>
          have hparent : F (p ++ x) = some .dir := by
            apply h.closed (p ++ x) c
            rw [List.append_assoc, hchild]
            rfl
          by_cases hnil : x = []
          · rw [hnil, List.append_nil] at hparent
            exact absurd hparent hdir
          · rw [ih hnil] at hparent
            cases hparent

theorem move_put_file {F : Folder α} (h : F.WellFormed) (src dst : List String) (content : α)
    (hsrc : F src ≠ some .dir) (hdst : F dst ≠ some .dir) (happart : ¬src <+: dst) (happart' : ¬dst <+: src) :
    (F.put src (.file content)).move src dst = (F.put dst (.file content)).remove src := by
  funext q
  unfold move remove put
  by_cases hq : dst <+: q
  · obtain ⟨x, rfl⟩ := hq
    have hnot : ¬src <+: dst ++ x := by
      intro hpre
      rcases List.prefix_or_prefix_of_prefix hpre (List.prefix_append dst x) with hsd | hds
      · exact happart hsd
      · exact happart' hds
    rw [if_pos (List.prefix_append dst x), if_neg hnot, List.drop_left]
    by_cases hx : x = []
    · simp [hx]
    · rw [Function.update_of_ne (by simpa using hx), Function.update_of_ne (by simpa using hx),
        h.below src x hx hsrc, h.below dst x hx hdst]
  · have hne : q ≠ dst := fun heq => hq (heq ▸ List.prefix_refl _)
    rw [if_neg hq]
    by_cases hsq : src <+: q
    · rw [if_pos hsq, if_pos hsq]
    · have hne' : q ≠ src := fun heq => hsq (heq ▸ List.prefix_refl _)
      rw [if_neg hsq, if_neg hsq, Function.update_of_ne hne', Function.update_of_ne hne]

end Folder

namespace FileSystem

variable {α : Type*}

/-- The folder whose directory is at `base`. -/
def folder (fs : FileSystem α) (base : Location) : Folder α := fun p => fs.get? (base ++ p)

/-- The folder at `base` holds `F`, and everything else is as in `orig`. -/
structure Shows (orig : FileSystem α) (base : Location) (F : Folder α) (fs : FileSystem α) : Prop where
  region : fs.Region base
  outside : fs.outside base = orig.outside base
  folder : fs.folder base = F

variable {orig fs fs' : FileSystem α} {base : Location} {F : Folder α}

theorem Shows.get? (h : Shows orig base F fs) (p : List String) : fs.get? (base ++ p) = F p :=
  congrFun h.folder p

theorem Shows.isDirAt (h : Shows orig base F fs) (p : List String) :
    fs.isDirAt (base ++ p) = F.isDir p := by
  change (fs.get? _).any Node.isDir = _
  rw [h.get?, Folder.isDir]

theorem Shows.wellFormed (h : Shows orig base F fs) : F.WellFormed where
  closed := by
    intro p c hsome
    rw [← h.get?, ← List.append_assoc] at hsome
    have hdir := fs.isDirAt_dropLast _ hsome
    rw [List.dropLast_concat] at hdir
    rw [← h.get?]
    exact (fs.isDirAt_eq_true _).mp hdir
  noLink := by
    intro p target hnode
    rw [← h.get?] at hnode
    exact h.region.not_link (List.prefix_append base p) target hnode

theorem Shows.of_region (h : orig.Region base) : Shows orig base (orig.folder base) orig := ⟨h, rfl, rfl⟩

theorem Shows.sameLinks (h : Shows orig base F fs) (horig : orig.Region base) : orig.SameLinks fs := by
  apply horig.sameLinks
  · exact fun q hq => get?_of_outside h.outside hq
  · exact fun q target hq => h.region.not_link hq target

theorem Shows.update (h : Shows orig base F fs) {F' : Folder α} (hlinks : fs.SameLinks fs')
    (houtside : fs'.outside base = fs.outside base) (hfolder : ∀ p, fs'.get? (base ++ p) = F' p) :
    Shows orig base F' fs' where
  region := h.region.of_outside hlinks houtside
  outside := houtside.trans h.outside
  folder := funext hfolder

theorem Shows.put (h : Shows orig base F fs) (p : List String) (node : Node α)
    (hput : fs.Puttable (base ++ p) node) (hlink : node.isLink = false) :
    Shows orig base (F.put p node) (fs.put (base ++ p) node hput) := by
  have hin := List.prefix_append base p
  refine h.update (h.region.sameLinks_put hin hput hlink) (outside_put hin node hput) ?_
  intro q
  rw [get?_put, Folder.put]
  by_cases hq : q = p
  · simp [hq]
  · rw [if_neg (by simpa using hq), Function.update_of_ne hq, h.get?]

theorem Shows.erase (h : Shows orig base F fs) (p : List String) :
    Shows orig base (F.remove p) (fs.erase (base ++ p)) := by
  have hin := List.prefix_append base p
  refine h.update (h.region.sameLinks_erase hin) (outside_erase hin) ?_
  intro q
  have hne : base ++ q ≠ [] := by simp [h.region.ne_root]
  rw [get?_erase, Folder.remove]
  by_cases hq : p <+: q
  · rw [if_pos ⟨(List.prefix_append_right_inj base).mpr hq, hne⟩, if_pos hq]
  · rw [if_neg fun hpre => hq ((List.prefix_append_right_inj base).mp hpre.1), if_neg hq, h.get?]

theorem Shows.move (h : Shows orig base F fs) (src dst : List String)
    (hmove : fs.Movable (base ++ src) (base ++ dst)) :
    Shows orig base (F.move src dst) (fs.move (base ++ src) (base ++ dst) hmove) := by
  have hsrc := List.prefix_append base src
  have hdst := List.prefix_append base dst
  refine h.update (h.region.sameLinks_move hmove hsrc hdst) (outside_move hmove hsrc hdst) ?_
  intro q
  rw [get?_move, Folder.move]
  simp only [List.prefix_append_right_inj]
  by_cases hq : dst <+: q
  · obtain ⟨x, rfl⟩ := hq
    rw [if_pos (List.prefix_append dst x), if_pos (List.prefix_append dst x), List.drop_left, ← List.append_assoc,
      List.drop_left, List.append_assoc, h.get?]
  · rw [if_neg hq, if_neg hq]
    split
    · rfl
    · exact h.get? q

end FileSystem
