import Mathlib.Algebra.Ring.Nat
import NetworkFileServer.Framework.FileM

/-!
# The length of names

The kernel refuses a path that is too long, and a name that is too long when it comes to look the name up in a
directory. A lookup that it does not refuse ends where it would without the limits.
-/

structure NameLimits where
  /-- `NAME_MAX`, in bytes. -/
  name : Nat
  /-- `PATH_MAX`, in bytes, with the null byte at the end. -/
  path : Nat

namespace NameLimits

/-- An absolute path of names that are all short enough. -/
def Fits (names : NameLimits) (p : List String) : Prop :=
  (∀ c ∈ p, c.utf8ByteSize ≤ names.name) ∧ (p.map fun c => c.utf8ByteSize + 1).sum < names.path

/-- The limits of Linux. -/
def linux : NameLimits := ⟨255, 4096⟩

instance (names : NameLimits) (p : List String) : Decidable (names.Fits p) := inferInstanceAs (Decidable (_ ∧ _))

theorem utf8ByteSize_replicate (n : Nat) (c : Char) :
    (String.ofList (List.replicate n c)).utf8ByteSize = n * c.utf8Size := by
  induction n with
  | zero => simp
  | succ n ih =>
      rw [List.replicate_succ, String.ofList_cons, String.utf8ByteSize_append, ih,
        String.utf8ByteSize_singleton, Nat.succ_mul, Nat.add_comm]

theorem properName_replicate (n : Nat) : ProperName (String.ofList (List.replicate (n + 1) 'a')) := by
  refine ⟨?_, ?_, ?_, ?_⟩ <;> simp [String.ext_iff, List.replicate_succ]

end NameLimits

namespace FileSystem

variable {α : Type*}

/-- Whether the kernel's walk comes to a name of more than `max` bytes. -/
def longVia (fs : FileSystem α) (max : Nat) (follow : Location → List String → Bool) :
    Location → List String → Bool
  | _, [] => false
  | cur, c :: rest =>
      if !fs.isDirAt cur then false
      else if c = ".." then longVia fs max follow cur.dropLast rest
      else if max < c.utf8ByteSize then true
      else
        match fs.get? (cur ++ [c]) with
        | none => false
        | some (.link target) => follow (linkStart cur target) (target.parts ++ rest)
        | some _ => longVia fs max follow (cur ++ [c]) rest

def longWalk (fs : FileSystem α) (max : Nat) : Nat → Location → List String → Bool
  | 0 => fs.longVia max fun _ _ => false
  | n + 1 => fs.longVia max (longWalk fs max n)

/-- Looking up an absolute path is refused with `ENAMETOOLONG`. -/
def refuses (fs : FileSystem α) (names : NameLimits) (lim : LinkLimits) (p : List String) : Bool :=
  names.path ≤ (p.map fun c => c.utf8ByteSize + 1).sum || fs.longWalk names.name lim.kernel [] p

variable (fs : FileSystem α) (max : Nat)

theorem longWalk_of_dirs (n : Nat) (cur : Location) (p : List String) (c : String) (hc : c ≠ "..")
    (hres : fs.Resolved (cur ++ p)) (hdir : fs.isDirAt (cur ++ p) = true)
    (hnone : fs.get? (cur ++ p ++ [c]) = none) :
    fs.longWalk max n cur (p ++ [c]) = false ↔ ∀ d ∈ p ++ [c], d.utf8ByteSize ≤ max := by
  induction p generalizing cur with
  | nil =>
      rw [List.append_nil] at hdir hnone
      cases n <;> simp [longWalk, longVia, hdir, hc, hnone]
  | cons d p ih =>
      have hchild : cur ++ [d] ++ p = cur ++ d :: p := List.append_cons cur d p |>.symm
      have hcur : fs.isDirAt cur = true :=
        fs.isDirAt_of_below cur (d :: p) (by simp) (by rw [(fs.isDirAt_eq_true _).mp hdir]; rfl)
      have hup : d ≠ ".." := fun h => hres.noUp (by simp [h])
      obtain ⟨node, hnode⟩ := Option.isSome_iff_exists.mp (fs.isSome_of_below (cur ++ [d]) (cur ++ d :: p)
        ⟨p, hchild⟩ (by rw [(fs.isDirAt_eq_true _).mp hdir]; rfl))
      have hlink : node.isLink = false := by
        have := hres.noLink (cur ++ [d]) ⟨p, hchild⟩
        rwa [hnode, Option.any_some] at this
      have hrest := ih (cur ++ [d]) (by rwa [hchild]) (by rwa [hchild]) (by rwa [hchild])
      rw [List.cons_append, List.forall_mem_cons, ← hrest]
      cases node with
      | link target => cases hlink
      | file _ | dir =>
          cases n <;> simp [longWalk, longVia, hcur, hup, hnode]

theorem refuses_absent (names : NameLimits) (lim : LinkLimits) (dir : Location) (name : String)
    (hname : name ≠ "..") (hres : fs.Resolved dir) (hdir : fs.isDirAt dir = true)
    (hnone : fs.get? (dir ++ [name]) = none) :
    fs.refuses names lim (dir ++ [name]) = false ↔ names.Fits (dir ++ [name]) := by
  rw [refuses, Bool.or_eq_false_iff,
    fs.longWalk_of_dirs names.name lim.kernel [] dir name hname hres hdir hnone, decide_eq_false_iff_not, not_le]
  exact and_comm

theorem refuses_of_long (names : NameLimits) (lim : LinkLimits) (dir : Location) (name : String)
    (hname : name ≠ "..") (hres : fs.Resolved dir) (hdir : fs.isDirAt dir = true)
    (hnone : fs.get? (dir ++ [name]) = none) (hlong : names.name < name.utf8ByteSize) :
    fs.refuses names lim (dir ++ [name]) = true := by
  by_contra hok
  have hfits := (fs.refuses_absent names lim dir name hname hres hdir hnone).mp (by simpa using hok)
  have hle := hfits.1 name (by simp)
  omega

end FileSystem

namespace FileM

variable {α : Type} (names : NameLimits) (lim : LinkLimits) (p : List String) (fs fs' : FileSystem α)

/-- `Path.exists()`, which raises what it does not ignore. -/
def pathExistsWithin : FileM α OsError Bool := fun fs =>
  if fs.refuses names lim p then ⟨.error .nameTooLong, fs, []⟩ else pathExists lim p fs

theorem keeps_pathExistsWithin : Keeps (pathExistsWithin names lim p : FileM α OsError Bool) := by
  intro fs
  unfold pathExistsWithin
  split
  · rfl
  · exact keeps_pathExists lim p fs

theorem returns_pathExistsWithin (b : Bool) :
    (pathExistsWithin names lim p).Returns fs b fs' ↔
      fs.refuses names lim p = false ∧ (fs.locate lim p).isSome = b ∧ fs = fs' := by
  unfold Returns pathExistsWithin
  split
  · rename_i hrefuses
    simp [hrefuses]
  · rename_i hrefuses
    rw [← Returns, returns_pathExists]
    simp [hrefuses]

end FileM
