import Mathlib.Data.List.Basic
import Mathlib.Data.List.Infix
import NetworkFileServer.Framework.OrderedDict
import NetworkFileServer.Framework.Text

/-!
# File systems with symbolic links

A file system is a finite dictionary from locations to files, directories and symbolic links. A
location is the list of names from the root; a path is walked from the root, following links, and
ends at a location or nowhere. Files carry a value of any type.

Two walks are distinguished: the kernel's, which stops at anything missing, and the one of
`os.path.realpath`, which goes on by name. Both give up after a number of links, so that a loop of
links ends nowhere. What a walk found is also a derivation, one rule a component, and facts about walks
are by induction on it.
-/

/-- Where an object is, as the list of names from the root. -/
abbrev Location := List String

theorem Location.prefix_child_iff (dir : Location) (name name' : String) :
    dir ++ [name] <+: dir ++ [name'] ↔ name' = name := by
  rw [List.prefix_append_right_inj, List.cons_prefix_cons]
  simp [eq_comm]

/-- A path as `pathlib` keeps it: without empty and `.` components, with `..`. -/
structure PurePath where
  absolute : Bool
  parts : List String
deriving DecidableEq, Repr

def PurePath.parse (s : String) : PurePath :=
  ⟨Text.startsWith s "/",
    ((s.toList.splitOn '/').map String.ofList).filter fun c => c ≠ "" ∧ c ≠ "."⟩

/-- `p / q`: an absolute right operand replaces the left one. -/
def PurePath.join (p q : PurePath) : PurePath :=
  if q.absolute then q else ⟨p.absolute, p.parts ++ q.parts⟩

inductive Node (α : Type*) where
  | file (content : α)
  | dir
  | link (target : PurePath)
deriving DecidableEq, Repr

def Node.isDir {α : Type*} : Node α → Bool
  | .dir => true
  | .file _ | .link _ => false

def Node.isLink {α : Type*} : Node α → Bool
  | .link _ => true
  | .file _ | .dir => false

/-- How many links a walk follows before it gives up, in the kernel and in `realpath`. -/
structure LinkLimits where
  kernel : Nat
  realpath : Nat

/-- A name that a directory can hold. -/
def ProperName (n : String) : Prop := n ≠ "" ∧ n ≠ "." ∧ n ≠ ".." ∧ '/' ∉ n.toList

instance (n : String) : Decidable (ProperName n) := inferInstanceAs (Decidable (_ ∧ _))

abbrev FileTree (α : Type*) := OrderedDict Location (Node α)

namespace FileTree

variable {α : Type*}

/-- The object at a location; the root is always a directory. -/
def get? (t : FileTree α) (p : Location) : Option (Node α) :=
  if p = [] then some .dir else t.lookup fun q => decide (q = p)

def isDirAt (t : FileTree α) (p : Location) : Bool := (t.get? p).any Node.isDir

/-- Everything is in a directory. -/
def Closed (t : FileTree α) : Prop := ∀ e ∈ t, t.isDirAt e.1.dropLast = true

instance (t : FileTree α) : Decidable t.Closed := inferInstanceAs (Decidable (∀ e ∈ t, _))

end FileTree

structure FileSystem (α : Type*) where
  tree : FileTree α
  closed : tree.Closed

namespace FileSystem

variable {α : Type*}

def get? (fs : FileSystem α) (p : Location) : Option (Node α) := fs.tree.get? p

def isDirAt (fs : FileSystem α) (p : Location) : Bool := fs.tree.isDirAt p

/-- The names in a directory, in directory order. -/
def names (fs : FileSystem α) (p : Location) : List String :=
  fs.tree.filterMap fun (q, _) =>
    q.getLast?.filter fun n => decide (q = p ++ [n] ∧ ProperName n)

/-- Where a walk from directory `cur` goes on when it meets a link. -/
def linkStart (cur : Location) (target : PurePath) : Location :=
  if target.absolute then [] else cur

/-- Walk as the kernel does; `follow` takes over at a link. -/
def walkVia (fs : FileSystem α) (follow : Location → List String → Option Location) :
    Location → List String → Option Location
  | cur, [] => some cur
  | cur, c :: rest =>
      if !fs.isDirAt cur then none
      else if c = ".." then walkVia fs follow cur.dropLast rest
      else
        match fs.get? (cur ++ [c]) with
        | none => none
        | some (.link target) => follow (linkStart cur target) (target.parts ++ rest)
        | some _ => walkVia fs follow (cur ++ [c]) rest

def walk (fs : FileSystem α) : Nat → Location → List String → Option Location
  | 0 => fs.walkVia fun _ _ => none
  | n + 1 => fs.walkVia (walk fs n)

/-- Walk as `open(path, O_CREAT)` does: the last component may be missing, at the end of links too. -/
def creatVia (fs : FileSystem α) (follow : Location → List String → Option Location) :
    Location → List String → Option Location
  | cur, [] => some cur
  | cur, c :: rest =>
      if !fs.isDirAt cur then none
      else if c = ".." then creatVia fs follow cur.dropLast rest
      else
        match fs.get? (cur ++ [c]) with
        | none => if rest = [] then some (cur ++ [c]) else none
        | some (.link target) => follow (linkStart cur target) (target.parts ++ rest)
        | some _ => creatVia fs follow (cur ++ [c]) rest

def creatWalk (fs : FileSystem α) : Nat → Location → List String → Option Location
  | 0 => fs.creatVia fun _ _ => none
  | n + 1 => fs.creatVia (creatWalk fs n)

/-- Walk as `os.path.realpath` does: what is missing is kept by name. -/
def realVia (fs : FileSystem α) (follow : Location → List String → Option Location) :
    Location → List String → Option Location
  | cur, [] => some cur
  | cur, c :: rest =>
      if c = ".." then realVia fs follow cur.dropLast rest
      else
        match fs.get? (cur ++ [c]) with
        | some (.link target) => follow (linkStart cur target) (target.parts ++ rest)
        | _ => realVia fs follow (cur ++ [c]) rest

def realWalk (fs : FileSystem α) : Nat → Location → List String → Option Location
  | 0 => fs.realVia fun _ _ => none
  | n + 1 => fs.realVia (realWalk fs n)

/-- The object that an absolute path leads to, with its location. -/
def locate (fs : FileSystem α) (lim : LinkLimits) (p : List String) : Option (Location × Node α) :=
  (fs.walk lim.kernel [] p).bind fun l => (fs.get? l).map fun node => (l, node)

/-- The location that opening an absolute path for writing leads to. -/
def locateCreat (fs : FileSystem α) (lim : LinkLimits) (p : List String) : Option Location :=
  fs.creatWalk lim.kernel [] p

/-- The directory entry that a path names: links are followed up to the last component. -/
def locateEntry (fs : FileSystem α) (lim : LinkLimits) (p : List String) : Option Location :=
  match p.getLast? with
  | none => some []
  | some c =>
      if c = ".." then none
      else (fs.walk lim.kernel [] p.dropLast).bind fun l =>
        if fs.isDirAt l then some (l ++ [c]) else none

/-- `Path.resolve()` of an absolute path; `none` is a loop of links. -/
def resolve (fs : FileSystem α) (lim : LinkLimits) (p : List String) : Option Location :=
  fs.realWalk lim.realpath [] p

/-- No link and no `..` is on the way to the location. -/
structure Resolved (fs : FileSystem α) (p : Location) : Prop where
  noLink : ∀ q, q <+: p → (fs.get? q).any Node.isLink = false
  noUp : ".." ∉ p

theorem get?_nil (fs : FileSystem α) : fs.get? [] = some .dir := rfl

theorem isDirAt_eq_true (fs : FileSystem α) (p : Location) :
    fs.isDirAt p = true ↔ fs.get? p = some .dir := by
  change (fs.get? p).any Node.isDir = true ↔ _
  cases fs.get? p with
  | none => simp
  | some node => cases node <;> simp [Node.isDir]

theorem get?_of_mem (fs : FileSystem α) (e : Location × Node α) (he : e ∈ fs.tree) :
    (fs.get? e.1).isSome = true := by
  by_cases hnil : e.1 = []
  · rw [hnil]
    rfl
  · have hfind : (fs.tree.find? fun x => decide (x.1 = e.1)).isSome = true := by
      rw [List.find?_isSome]
      exact ⟨e, he, by simp⟩
    rw [get?, FileTree.get?, if_neg hnil, OrderedDict.lookup, Option.isSome_map]
    exact hfind

theorem mem_of_get? (fs : FileSystem α) (p : Location) (hp : p ≠ [])
    (h : (fs.get? p).isSome = true) : ∃ e ∈ fs.tree, e.1 = p := by
  obtain ⟨node, hnode⟩ := Option.isSome_iff_exists.mp h
  simp only [get?, FileTree.get?, if_neg hp, OrderedDict.lookup, Option.map_eq_some_iff] at hnode
  obtain ⟨e, he, -⟩ := hnode
  exact ⟨e, List.mem_of_find?_eq_some he, by simpa using List.find?_some he⟩

theorem isDirAt_dropLast (fs : FileSystem α) (p : Location) (h : (fs.get? p).isSome = true) :
    fs.isDirAt p.dropLast = true := by
  by_cases hp : p = []
  · subst hp
    rfl
  · obtain ⟨e, he, hkey⟩ := fs.mem_of_get? p hp h
    rw [← hkey]
    exact fs.closed e he

/-- Whatever has something below it is a directory. -/
theorem isDirAt_of_below (fs : FileSystem α) (p x : Location) (hx : x ≠ [])
    (h : (fs.get? (p ++ x)).isSome = true) : fs.isDirAt p = true := by
  induction x using List.reverseRecOn with
  | nil => exact absurd rfl hx
  | append_singleton x c ih =>
      have hdir : fs.isDirAt (p ++ x) = true := by
        have hdrop := fs.isDirAt_dropLast _ h
        rwa [← List.append_assoc, List.dropLast_concat] at hdrop
      by_cases hx' : x = []
      · simpa [hx'] using hdir
      · refine ih hx' ?_
        rw [(fs.isDirAt_eq_true _).mp hdir]
        rfl

/-- Whatever has something at it or below it exists. -/
theorem isSome_of_below (fs : FileSystem α) (p q : Location) (hpre : p <+: q) (hq : (fs.get? q).isSome = true) :
    (fs.get? p).isSome = true := by
  obtain ⟨x, rfl⟩ := hpre
  by_cases hx : x = []
  · rwa [hx, List.append_nil] at hq
  · rw [(fs.isDirAt_eq_true p).mp (fs.isDirAt_of_below p x hx hq)]
    rfl

theorem isDirAt_of_get? (fs : FileSystem α) (p : Location) (node : Node α) (h : fs.get? p = some node) :
    fs.isDirAt p = node.isDir := by
  change (fs.get? p).any Node.isDir = node.isDir
  rw [h, Option.any_some]

theorem eq_of_below (fs : FileSystem α) (p q : Location) (hdir : fs.isDirAt p = false) (hpre : p <+: q)
    (hq : (fs.get? q).isSome = true) : q = p := by
  obtain ⟨x, rfl⟩ := hpre
  by_cases hx : x = []
  · rw [hx, List.append_nil]
  · rw [fs.isDirAt_of_below p x hx hq] at hdir
    cases hdir

theorem vacant_of_not_dir (fs : FileSystem α) (p : Location) (h : fs.isDirAt p = false)
    (e : Location × Node α) (he : e ∈ fs.tree) (hp : p <+: e.1) : e.1 = p :=
  fs.eq_of_below p e.1 h hp (fs.get?_of_mem e he)

theorem mem_names (fs : FileSystem α) (p : Location) (n : String) (hn : ProperName n) :
    n ∈ fs.names p ↔ (fs.get? (p ++ [n])).isSome = true := by
  unfold names
  rw [List.mem_filterMap]
  constructor
  · rintro ⟨e, he, hlast⟩
    obtain ⟨hlast, hcond⟩ := Option.filter_eq_some_iff.mp hlast
    have hkey : e.1 = p ++ [n] := by
      have := decide_eq_true_eq.mp hcond
      exact this.1
    exact hkey ▸ fs.get?_of_mem e he
  · intro h
    obtain ⟨e, he, hkey⟩ := fs.mem_of_get? _ (by simp) h
    exact ⟨e, he, by simp [hkey, hn]⟩

theorem properName_of_mem_names (fs : FileSystem α) (p : Location) (n : String)
    (h : n ∈ fs.names p) : ProperName n := by
  obtain ⟨e, -, hlast⟩ := List.mem_filterMap.mp h
  obtain ⟨-, hcond⟩ := Option.filter_eq_some_iff.mp hlast
  exact (decide_eq_true_eq.mp hcond).2

theorem Resolved.nil (fs : FileSystem α) : fs.Resolved [] := by
  refine ⟨?_, List.not_mem_nil⟩
  intro q hq
  rw [List.prefix_nil.mp hq]
  rfl

theorem Resolved.of_prefix {fs : FileSystem α} {p q : Location} (h : fs.Resolved p) (hq : q <+: p) :
    fs.Resolved q :=
  ⟨fun r hr => h.noLink r (hr.trans hq), fun hmem => h.noUp (hq.subset hmem)⟩

theorem Resolved.dropLast {fs : FileSystem α} {p : Location} (h : fs.Resolved p) :
    fs.Resolved p.dropLast :=
  h.of_prefix (List.dropLast_prefix p)

theorem Resolved.snoc {fs : FileSystem α} {p : Location} {c : String} (h : fs.Resolved p)
    (hc : c ≠ "..") (hlink : (fs.get? (p ++ [c])).any Node.isLink = false) :
    fs.Resolved (p ++ [c]) := by
  refine ⟨?_, ?_⟩
  · intro q hq
    rcases List.prefix_concat_iff.mp hq with rfl | hq
    · exact hlink
    · exact h.noLink q hq
  · simpa [h.noUp] using hc.symm

theorem linkStart_cases (cur : Location) (target : PurePath) :
    linkStart cur target = [] ∨ linkStart cur target = cur := by
  unfold linkStart
  split
  · exact .inl rfl
  · exact .inr rfl

theorem isSome_linkStart (fs : FileSystem α) (cur : Location) (target : PurePath)
    (h : (fs.get? cur).isSome = true) : (fs.get? (linkStart cur target)).isSome = true := by
  rcases linkStart_cases cur target with heq | heq
  · rw [heq]
    rfl
  · rw [heq]
    exact h

section Walks

variable (fs : FileSystem α) (l : Location)

/-- The kernel's walk from a directory along a path ends at `l`, over at most a number of links. -/
inductive WalksTo : Nat → Location → List String → Prop
  | done (n : Nat) : WalksTo n l []
  | up {n : Nat} {cur : Location} {rest : List String} (hdir : fs.isDirAt cur = true)
      (hrest : WalksTo n cur.dropLast rest) : WalksTo n cur (".." :: rest)
  | link {n : Nat} {cur : Location} {c : String} {rest : List String} {target : PurePath}
      (hdir : fs.isDirAt cur = true) (hup : c ≠ "..") (hnode : fs.get? (cur ++ [c]) = some (.link target))
      (hrest : WalksTo n (linkStart cur target) (target.parts ++ rest)) : WalksTo (n + 1) cur (c :: rest)
  | name {n : Nat} {cur : Location} {c : String} {rest : List String} {node : Node α}
      (hdir : fs.isDirAt cur = true) (hup : c ≠ "..") (hnode : fs.get? (cur ++ [c]) = some node)
      (hlink : node.isLink = false) (hrest : WalksTo n (cur ++ [c]) rest) : WalksTo n cur (c :: rest)

/-- The walk that opens a file for writing; the last component may be missing. -/
inductive OpensAt : Nat → Location → List String → Prop
  | done (n : Nat) : OpensAt n l []
  | up {n : Nat} {cur : Location} {rest : List String} (hdir : fs.isDirAt cur = true)
      (hrest : OpensAt n cur.dropLast rest) : OpensAt n cur (".." :: rest)
  | link {n : Nat} {cur : Location} {c : String} {rest : List String} {target : PurePath}
      (hdir : fs.isDirAt cur = true) (hup : c ≠ "..") (hnode : fs.get? (cur ++ [c]) = some (.link target))
      (hrest : OpensAt n (linkStart cur target) (target.parts ++ rest)) : OpensAt (n + 1) cur (c :: rest)
  | name {n : Nat} {cur : Location} {c : String} {rest : List String} {node : Node α}
      (hdir : fs.isDirAt cur = true) (hup : c ≠ "..") (hnode : fs.get? (cur ++ [c]) = some node)
      (hlink : node.isLink = false) (hrest : OpensAt n (cur ++ [c]) rest) : OpensAt n cur (c :: rest)
  | last {n : Nat} {cur : Location} {c : String} (hdir : fs.isDirAt cur = true) (hup : c ≠ "..")
      (hnone : fs.get? (cur ++ [c]) = none) (hend : cur ++ [c] = l) : OpensAt n cur [c]

/-- The walk of `realpath`; what is missing or no directory is passed by name. -/
inductive ResolvesTo : Nat → Location → List String → Prop
  | done (n : Nat) : ResolvesTo n l []
  | up {n : Nat} {cur : Location} {rest : List String} (hrest : ResolvesTo n cur.dropLast rest) :
      ResolvesTo n cur (".." :: rest)
  | link {n : Nat} {cur : Location} {c : String} {rest : List String} {target : PurePath} (hup : c ≠ "..")
      (hnode : fs.get? (cur ++ [c]) = some (.link target))
      (hrest : ResolvesTo n (linkStart cur target) (target.parts ++ rest)) : ResolvesTo (n + 1) cur (c :: rest)
  | name {n : Nat} {cur : Location} {c : String} {rest : List String} (hup : c ≠ "..")
      (hlink : (fs.get? (cur ++ [c])).any Node.isLink = false) (hrest : ResolvesTo n (cur ++ [c]) rest) :
      ResolvesTo n cur (c :: rest)

variable {fs}

theorem walk_nil (n : Nat) (cur : Location) : fs.walk n cur [] = some cur := by
  cases n <;> rfl

theorem walk_up (n : Nat) {cur : Location} (rest : List String) (hdir : fs.isDirAt cur = true) :
    fs.walk n cur (".." :: rest) = fs.walk n cur.dropLast rest := by
  cases n <;> simp [walk, walkVia, hdir]

theorem walk_link (n : Nat) {cur : Location} {c : String} (rest : List String) {target : PurePath}
    (hdir : fs.isDirAt cur = true) (hup : c ≠ "..") (hnode : fs.get? (cur ++ [c]) = some (.link target)) :
    fs.walk (n + 1) cur (c :: rest) = fs.walk n (linkStart cur target) (target.parts ++ rest) := by
  simp [walk, walkVia, hdir, hup, hnode]

theorem walk_name (n : Nat) {cur : Location} {c : String} (rest : List String) {node : Node α}
    (hdir : fs.isDirAt cur = true) (hup : c ≠ "..") (hnode : fs.get? (cur ++ [c]) = some node)
    (hlink : node.isLink = false) : fs.walk n cur (c :: rest) = fs.walk n (cur ++ [c]) rest := by
  cases node with
  | link target => cases hlink
  | file _ | dir => cases n <;> simp [walk, walkVia, hdir, hup, hnode]

theorem creatWalk_nil (n : Nat) (cur : Location) : fs.creatWalk n cur [] = some cur := by
  cases n <;> rfl

theorem creatWalk_up (n : Nat) {cur : Location} (rest : List String) (hdir : fs.isDirAt cur = true) :
    fs.creatWalk n cur (".." :: rest) = fs.creatWalk n cur.dropLast rest := by
  cases n <;> simp [creatWalk, creatVia, hdir]

theorem creatWalk_link (n : Nat) {cur : Location} {c : String} (rest : List String) {target : PurePath}
    (hdir : fs.isDirAt cur = true) (hup : c ≠ "..") (hnode : fs.get? (cur ++ [c]) = some (.link target)) :
    fs.creatWalk (n + 1) cur (c :: rest) = fs.creatWalk n (linkStart cur target) (target.parts ++ rest) := by
  simp [creatWalk, creatVia, hdir, hup, hnode]

theorem creatWalk_name (n : Nat) {cur : Location} {c : String} (rest : List String) {node : Node α}
    (hdir : fs.isDirAt cur = true) (hup : c ≠ "..") (hnode : fs.get? (cur ++ [c]) = some node)
    (hlink : node.isLink = false) : fs.creatWalk n cur (c :: rest) = fs.creatWalk n (cur ++ [c]) rest := by
  cases node with
  | link target => cases hlink
  | file _ | dir => cases n <;> simp [creatWalk, creatVia, hdir, hup, hnode]

theorem creatWalk_last (n : Nat) {cur : Location} {c : String} (hdir : fs.isDirAt cur = true) (hup : c ≠ "..")
    (hnone : fs.get? (cur ++ [c]) = none) : fs.creatWalk n cur [c] = some (cur ++ [c]) := by
  cases n <;> simp [creatWalk, creatVia, hdir, hup, hnone]

theorem realWalk_nil (n : Nat) (cur : Location) : fs.realWalk n cur [] = some cur := by
  cases n <;> rfl

theorem realWalk_up (n : Nat) (cur : Location) (rest : List String) :
    fs.realWalk n cur (".." :: rest) = fs.realWalk n cur.dropLast rest := by
  cases n <;> simp [realWalk, realVia]

theorem realWalk_link (n : Nat) {cur : Location} {c : String} (rest : List String) {target : PurePath}
    (hup : c ≠ "..") (hnode : fs.get? (cur ++ [c]) = some (.link target)) :
    fs.realWalk (n + 1) cur (c :: rest) = fs.realWalk n (linkStart cur target) (target.parts ++ rest) := by
  simp [realWalk, realVia, hup, hnode]

theorem realWalk_name (n : Nat) {cur : Location} {c : String} (rest : List String) (hup : c ≠ "..")
    (hlink : (fs.get? (cur ++ [c])).any Node.isLink = false) :
    fs.realWalk n cur (c :: rest) = fs.realWalk n (cur ++ [c]) rest := by
  cases hnode : fs.get? (cur ++ [c]) with
  | none => cases n <;> simp [realWalk, realVia, hup, hnode]
  | some node =>
      cases node with
      | link target => simp [hnode, Node.isLink] at hlink
      | file _ | dir => cases n <;> simp [realWalk, realVia, hup, hnode]

end Walks

theorem walk_eq_some (fs : FileSystem α) (n : Nat) (cur l : Location) (p : List String) :
    fs.walk n cur p = some l ↔ fs.WalksTo l n cur p := by
  constructor
  · have hvia : ∀ (n : Nat) (follow : Location → List String → Option Location),
        (∀ cur rest, follow cur rest = some l → ∃ m, n = m + 1 ∧ fs.WalksTo l m cur rest) →
        ∀ p cur, fs.walkVia follow cur p = some l → fs.WalksTo l n cur p := by
      intro n follow hfollow p
      induction p with
      | nil =>
          intro cur h
          obtain rfl := Option.some.inj h
          exact .done n
      | cons c rest ih =>
          intro cur h
          simp only [walkVia] at h
          split at h
          · cases h
          · rename_i hdir
            have hdir : fs.isDirAt cur = true := by simpa using hdir
            split at h
            · rename_i hup
              subst hup
              exact .up hdir (ih _ h)
            · rename_i hup
              split at h
              · cases h
              · rename_i target hnode
                obtain ⟨m, rfl, hrest⟩ := hfollow _ _ h
                exact .link hdir hup hnode hrest
              · rename_i node hnot hnode
                refine .name hdir hup hnode ?_ (ih _ h)
                cases node with
                | link target => exact absurd rfl (hnot target)
                | file _ | dir => rfl
    induction n generalizing cur p with
    | zero => exact hvia 0 _ (by simp) p cur
    | succ n ih => exact hvia (n + 1) _ (fun cur rest h => ⟨n, rfl, ih cur rest h⟩) p cur
  · intro h
    induction h with
    | done n => exact walk_nil n l
    | up hdir _ ih => rw [walk_up _ _ hdir, ih]
    | link hdir hup hnode _ ih => rw [walk_link _ _ hdir hup hnode, ih]
    | name hdir hup hnode hlink _ ih => rw [walk_name _ _ hdir hup hnode hlink, ih]

theorem creatWalk_eq_some (fs : FileSystem α) (n : Nat) (cur l : Location) (p : List String) :
    fs.creatWalk n cur p = some l ↔ fs.OpensAt l n cur p := by
  constructor
  · have hvia : ∀ (n : Nat) (follow : Location → List String → Option Location),
        (∀ cur rest, follow cur rest = some l → ∃ m, n = m + 1 ∧ fs.OpensAt l m cur rest) →
        ∀ p cur, fs.creatVia follow cur p = some l → fs.OpensAt l n cur p := by
      intro n follow hfollow p
      induction p with
      | nil =>
          intro cur h
          obtain rfl := Option.some.inj h
          exact .done n
      | cons c rest ih =>
          intro cur h
          simp only [creatVia] at h
          split at h
          · cases h
          · rename_i hdir
            have hdir : fs.isDirAt cur = true := by simpa using hdir
            split at h
            · rename_i hup
              subst hup
              exact .up hdir (ih _ h)
            · rename_i hup
              split at h
              · rename_i hnone
                split at h
                · rename_i hrest
                  subst hrest
                  exact .last hdir hup hnone (Option.some.inj h)
                · cases h
              · rename_i target hnode
                obtain ⟨m, rfl, hrest⟩ := hfollow _ _ h
                exact .link hdir hup hnode hrest
              · rename_i node hnot hnode
                refine .name hdir hup hnode ?_ (ih _ h)
                cases node with
                | link target => exact absurd rfl (hnot target)
                | file _ | dir => rfl
    induction n generalizing cur p with
    | zero => exact hvia 0 _ (by simp) p cur
    | succ n ih => exact hvia (n + 1) _ (fun cur rest h => ⟨n, rfl, ih cur rest h⟩) p cur
  · intro h
    induction h with
    | done n => exact creatWalk_nil n l
    | up hdir _ ih => rw [creatWalk_up _ _ hdir, ih]
    | link hdir hup hnode _ ih => rw [creatWalk_link _ _ hdir hup hnode, ih]
    | name hdir hup hnode hlink _ ih => rw [creatWalk_name _ _ hdir hup hnode hlink, ih]
    | last hdir hup hnone hend => rw [creatWalk_last _ hdir hup hnone, hend]

theorem realWalk_eq_some (fs : FileSystem α) (n : Nat) (cur l : Location) (p : List String) :
    fs.realWalk n cur p = some l ↔ fs.ResolvesTo l n cur p := by
  constructor
  · have hvia : ∀ (n : Nat) (follow : Location → List String → Option Location),
        (∀ cur rest, follow cur rest = some l → ∃ m, n = m + 1 ∧ fs.ResolvesTo l m cur rest) →
        ∀ p cur, fs.realVia follow cur p = some l → fs.ResolvesTo l n cur p := by
      intro n follow hfollow p
      induction p with
      | nil =>
          intro cur h
          obtain rfl := Option.some.inj h
          exact .done n
      | cons c rest ih =>
          intro cur h
          simp only [realVia] at h
          split at h
          · rename_i hup
            subst hup
            exact .up (ih _ h)
          · rename_i hup
            split at h
            · rename_i target hnode
              obtain ⟨m, rfl, hrest⟩ := hfollow _ _ h
              exact .link hup hnode hrest
            · rename_i hnot
              refine .name hup ?_ (ih _ h)
              cases hnode : fs.get? (cur ++ [c]) with
              | none => rfl
              | some node =>
                  cases node with
                  | link target => exact absurd hnode (hnot target)
                  | file _ | dir => rfl
    induction n generalizing cur p with
    | zero => exact hvia 0 _ (by simp) p cur
    | succ n ih => exact hvia (n + 1) _ (fun cur rest h => ⟨n, rfl, ih cur rest h⟩) p cur
  · intro h
    induction h with
    | done n => exact realWalk_nil n l
    | up _ ih => rw [realWalk_up, ih]
    | link hup hnode _ ih => rw [realWalk_link _ _ hup hnode, ih]
    | name hup hlink _ ih => rw [realWalk_name _ _ hup hlink, ih]

section Along

variable {fs : FileSystem α} {l : Location} {n : Nat} {cur : Location} {p : List String}

theorem ResolvesTo.resolved (h : fs.ResolvesTo l n cur p) (hcur : fs.Resolved cur) : fs.Resolved l := by
  induction h with
  | done n => exact hcur
  | up _ ih => exact ih hcur.dropLast
  | @link _ cur _ _ target _ _ _ ih =>
      refine ih ?_
      rcases linkStart_cases cur target with heq | heq
      · rw [heq]
        exact Resolved.nil fs
      · rw [heq]
        exact hcur
  | name hup hlink _ ih => exact ih (hcur.snoc hup hlink)

theorem Resolved.head {c : String} {rest : List String} (h : fs.Resolved (cur ++ c :: rest)) :
    c ≠ ".." ∧ (fs.get? (cur ++ [c])).any Node.isLink = false ∧ fs.Resolved (cur ++ [c] ++ rest) := by
  refine ⟨?_, h.noLink _ ⟨rest, by simp⟩, by simpa using h⟩
  rintro rfl
  exact h.noUp (by simp)

theorem resolvesTo_of_resolved (n : Nat) (hl : cur ++ p = l) (hres : fs.Resolved l) : fs.ResolvesTo l n cur p := by
  induction p generalizing cur with
  | nil =>
      rw [List.append_nil] at hl
      rw [hl]
      exact .done n
  | cons c rest ih =>
      obtain ⟨hup, hlink, -⟩ := Resolved.head (hl ▸ hres)
      exact .name hup hlink (ih (by rw [← hl]; simp))

/-- Along names without links the kernel's walk arrives at the location that the names say. -/
theorem WalksTo.eq_of_resolved (h : fs.WalksTo l n cur p) (hres : fs.Resolved (cur ++ p)) : l = cur ++ p := by
  induction h with
  | done n => simp
  | up _ _ _ => exact absurd rfl hres.head.1
  | link _ _ hnode _ _ => simpa [hnode, Node.isLink] using hres.head.2.1
  | name _ _ _ _ _ ih => simpa using ih hres.head.2.2

theorem WalksTo.eq_of_resolvesTo {l' : Location} {m : Nat} (h : fs.WalksTo l n cur p)
    (h' : fs.ResolvesTo l' m cur p) : l = l' := by
  induction h generalizing m with
  | done n =>
      cases h'
      rfl
  | up _ _ ih =>
      cases h' with
      | up hrest => exact ih hrest
      | link hup _ _ => exact absurd rfl hup
      | name hup _ _ => exact absurd rfl hup
  | link _ hup hnode _ ih =>
      cases h' with
      | up _ => exact absurd rfl hup
      | link _ hnode' hrest =>
          cases hnode.symm.trans hnode'
          exact ih hrest
      | name _ hlink _ => simp [hnode, Node.isLink] at hlink
  | name _ hup hnode hlink _ ih =>
      cases h' with
      | up _ => exact absurd rfl hup
      | link _ hnode' _ =>
          cases hnode.symm.trans hnode'
          cases hlink
      | name _ _ hrest => exact ih hrest

theorem WalksTo.isSome (h : fs.WalksTo l n cur p) (hcur : (fs.get? cur).isSome = true) :
    (fs.get? l).isSome = true := by
  induction h with
  | done n => exact hcur
  | @up _ cur _ _ _ ih =>
      refine ih ?_
      rw [(fs.isDirAt_eq_true _).mp (fs.isDirAt_dropLast cur hcur)]
      rfl
  | link _ _ _ _ ih => exact ih (isSome_linkStart fs _ _ hcur)
  | name _ _ hnode _ _ ih => exact ih (by simp [hnode])

theorem walksTo_of_resolved (n : Nat) (hl : cur ++ p = l) (hres : fs.Resolved l)
    (hsome : (fs.get? l).isSome = true) : fs.WalksTo l n cur p := by
  induction p generalizing cur with
  | nil =>
      rw [List.append_nil] at hl
      rw [hl]
      exact .done n
  | cons c rest ih =>
      obtain ⟨hup, hlink, -⟩ := Resolved.head (hl ▸ hres)
      have hbelow : cur ++ [c] <+: l := ⟨rest, by rw [← hl]; simp⟩
      obtain ⟨node, hnode⟩ := Option.isSome_iff_exists.mp (fs.isSome_of_below _ _ hbelow hsome)
      have hdir := fs.isDirAt_dropLast (cur ++ [c]) (by simp [hnode])
      rw [List.dropLast_concat] at hdir
      exact .name hdir hup hnode (by simpa [hnode] using hlink) (ih (by rw [← hl]; simp))

theorem OpensAt.eq_of_resolved (h : fs.OpensAt l n cur p) (hres : fs.Resolved (cur ++ p)) : l = cur ++ p := by
  induction h with
  | done n => simp
  | up _ _ _ => exact absurd rfl hres.head.1
  | link _ _ hnode _ _ => simpa [hnode, Node.isLink] using hres.head.2.1
  | name _ _ _ _ _ ih => simpa using ih hres.head.2.2
  | last _ _ _ hend => exact hend.symm

/-- A name in a resolved directory can be opened for writing, unless it is a link. -/
theorem opensAt_of_dir {d : Location} (n : Nat) (c : String) (hd : cur ++ p = d) (hres : fs.Resolved (d ++ [c]))
    (hdir : fs.isDirAt d = true) : fs.OpensAt (d ++ [c]) n cur (p ++ [c]) := by
  induction p generalizing cur with
  | nil =>
      rw [List.append_nil] at hd
      subst hd
      obtain ⟨hup, hlink, -⟩ := hres.head
      cases hnode : fs.get? (cur ++ [c]) with
      | none => exact .last hdir hup hnode rfl
      | some node => exact .name hdir hup hnode (by simpa [hnode] using hlink) (.done n)
  | cons x rest ih =>
      have hsplit : d ++ [c] = cur ++ x :: (rest ++ [c]) := by rw [← hd]; simp
      obtain ⟨hup, hlink, -⟩ := Resolved.head (hsplit ▸ hres)
      have hbelow : cur ++ [x] <+: d := ⟨rest, by rw [← hd]; simp⟩
      obtain ⟨node, hnode⟩ := Option.isSome_iff_exists.mp
        (fs.isSome_of_below _ d hbelow (by simp [(fs.isDirAt_eq_true d).mp hdir]))
      have hparent := fs.isDirAt_dropLast (cur ++ [x]) (by simp [hnode])
      rw [List.dropLast_concat] at hparent
      exact .name hparent hup hnode (by simpa [hnode] using hlink) (ih (by rw [← hd]; simp))

end Along

theorem resolve_resolved (fs : FileSystem α) (lim : LinkLimits) (p : List String) (l : Location)
    (h : fs.resolve lim p = some l) : fs.Resolved l :=
  ((realWalk_eq_some fs lim.realpath [] l p).mp h).resolved (Resolved.nil fs)

theorem resolve_of_resolved (fs : FileSystem α) (lim : LinkLimits) (p : Location)
    (hres : fs.Resolved p) : fs.resolve lim p = some p :=
  (realWalk_eq_some fs lim.realpath [] p p).mpr (resolvesTo_of_resolved lim.realpath rfl hres)

theorem walk_of_resolved (fs : FileSystem α) (n : Nat) (p : Location) (hres : fs.Resolved p) :
    fs.walk n [] p = if (fs.get? p).isSome then some p else none := by
  split
  · rename_i hsome
    exact (walk_eq_some fs n [] p p).mpr (walksTo_of_resolved n rfl hres hsome)
  · rename_i hnone
    cases hwalk : fs.walk n [] p with
    | none => rfl
    | some l =>
        have hto := (walk_eq_some fs n [] l p).mp hwalk
        have hsome := hto.isSome rfl
        rw [hto.eq_of_resolved hres] at hsome
        exact absurd hsome hnone

theorem locate_of_resolved (fs : FileSystem α) (lim : LinkLimits) (p : Location)
    (hres : fs.Resolved p) : fs.locate lim p = (fs.get? p).map fun node => (p, node) := by
  rw [locate, fs.walk_of_resolved lim.kernel p hres]
  cases hnode : fs.get? p with
  | none => rfl
  | some node => simp [hnode]

theorem locateEntry_of_resolved (fs : FileSystem α) (lim : LinkLimits) (p : Location) (c : String)
    (hc : c ≠ "..") (hres : fs.Resolved p) :
    fs.locateEntry lim (p ++ [c]) = if fs.isDirAt p then some (p ++ [c]) else none := by
  rw [locateEntry]
  simp only [List.getLast?_concat, if_neg hc, List.dropLast_concat]
  rw [fs.walk_of_resolved lim.kernel p hres]
  cases hnode : fs.get? p with
  | none => simp [isDirAt, FileTree.isDirAt, show fs.tree.get? p = none from hnode]
  | some node => simp

theorem locateCreat_eq (fs : FileSystem α) (lim : LinkLimits) (p l : Location)
    (hres : fs.Resolved p) (h : fs.locateCreat lim p = some l) : l = p :=
  ((creatWalk_eq_some fs lim.kernel [] l p).mp h).eq_of_resolved hres

/-- A name in a resolved directory can be opened for writing, unless it is a link. -/
theorem locateCreat_of_dir (fs : FileSystem α) (lim : LinkLimits) (p : Location) (c : String)
    (hres : fs.Resolved (p ++ [c])) (hdir : fs.isDirAt p = true) :
    fs.locateCreat lim (p ++ [c]) = some (p ++ [c]) :=
  (creatWalk_eq_some fs lim.kernel [] _ _).mpr (opensAt_of_dir lim.kernel c rfl hres hdir)

section General

variable {fs : FileSystem α} {l : Location} {n : Nat} {cur : Location} {p : List String}

/-- Whatever a walk for writing ends at is in a directory. -/
theorem OpensAt.isDirAt_dropLast (h : fs.OpensAt l n cur p) (hcur : (fs.get? cur).isSome = true) :
    fs.isDirAt l.dropLast = true := by
  induction h with
  | done n => exact fs.isDirAt_dropLast l hcur
  | @up _ cur _ _ _ ih =>
      refine ih ?_
      rw [(fs.isDirAt_eq_true _).mp (fs.isDirAt_dropLast cur hcur)]
      rfl
  | link _ _ _ _ ih => exact ih (isSome_linkStart fs _ _ hcur)
  | name _ _ hnode _ _ ih => exact ih (by simp [hnode])
  | last hdir _ _ hend =>
      rw [← hend, List.dropLast_concat]
      exact hdir

theorem WalksTo.split {q : List String} (h : fs.WalksTo l n cur (p ++ q)) :
    ∃ m l', fs.WalksTo l' n cur p ∧ fs.WalksTo l m l' q := by
  generalize hxs : p ++ q = xs at h
  induction h generalizing p with
  | done n =>
      obtain ⟨rfl, rfl⟩ := List.append_eq_nil_iff.mp hxs
      exact ⟨n, l, .done n, .done n⟩
  | @up n cur rest hdir hrest ih =>
      rcases p with _ | ⟨c, p⟩
      · cases hxs
        exact ⟨n, cur, .done n, .up hdir hrest⟩
      · cases hxs
        obtain ⟨m, l', hfirst, hsecond⟩ := ih rfl
        exact ⟨m, l', .up hdir hfirst, hsecond⟩
  | @link n cur c rest target hdir hup hnode hrest ih =>
      rcases p with _ | ⟨d, p⟩
      · cases hxs
        exact ⟨n + 1, cur, .done _, .link hdir hup hnode hrest⟩
      · cases hxs
        obtain ⟨m, l', hfirst, hsecond⟩ := ih (List.append_assoc target.parts p q)
        exact ⟨m, l', .link hdir hup hnode hfirst, hsecond⟩
  | @name n cur c rest node hdir hup hnode hlink hrest ih =>
      rcases p with _ | ⟨d, p⟩
      · cases hxs
        exact ⟨n, cur, .done n, .name hdir hup hnode hlink hrest⟩
      · cases hxs
        obtain ⟨m, l', hfirst, hsecond⟩ := ih rfl
        exact ⟨m, l', .name hdir hup hnode hlink hfirst, hsecond⟩

theorem WalksTo.head {c : String} {rest : List String} (h : fs.WalksTo l n cur (c :: rest)) :
    fs.isDirAt cur = true ∧ (c ≠ ".." → (fs.get? (cur ++ [c])).isSome = true) := by
  cases h with
  | up hdir _ => exact ⟨hdir, fun hup => absurd rfl hup⟩
  | link hdir _ hnode _ => exact ⟨hdir, fun _ => by simp [hnode]⟩
  | name hdir _ hnode _ _ => exact ⟨hdir, fun _ => by simp [hnode]⟩

end General

theorem isDirAt_of_locateCreat (fs : FileSystem α) (lim : LinkLimits) (p : List String)
    (l : Location) (h : fs.locateCreat lim p = some l) : fs.isDirAt l.dropLast = true :=
  ((creatWalk_eq_some fs lim.kernel [] l p).mp h).isDirAt_dropLast rfl

theorem walk_split (fs : FileSystem α) (n : Nat) (cur l : Location) (p : List String) (c : String)
    (rest : List String) (h : fs.walk n cur (p ++ c :: rest) = some l) :
    ∃ l', fs.walk n cur p = some l' ∧ fs.isDirAt l' = true ∧
      (c ≠ ".." → (fs.get? (l' ++ [c])).isSome = true) := by
  obtain ⟨m, l', hfirst, hsecond⟩ := ((walk_eq_some fs n cur l _).mp h).split
  exact ⟨l', (walk_eq_some fs n cur l' p).mpr hfirst, hsecond.head⟩

theorem locateEntry_eq (fs : FileSystem α) (lim : LinkLimits) (p l : Location)
    (hres : fs.Resolved p.dropLast) (h : fs.locateEntry lim p = some l) : l = p := by
  rcases List.eq_nil_or_concat p with rfl | ⟨q, c, rfl⟩
  · cases h
    rfl
  · rw [List.concat_eq_append] at *
    rw [List.dropLast_concat] at hres
    by_cases hc : c = ".."
    · simp [locateEntry, hc] at h
    · rw [fs.locateEntry_of_resolved _ _ _ hc hres] at h
      split at h
      · exact (Option.some.inj h).symm
      · cases h

theorem locateEntry_of_exists (fs : FileSystem α) (lim : LinkLimits) (p : Location)
    (hres : fs.Resolved p) (h : (fs.get? p).isSome = true) : fs.locateEntry lim p = some p := by
  by_cases hne : p = []
  · rw [hne]
    rfl
  · have hlast : p.dropLast ++ [p.getLast hne] = p := List.dropLast_append_getLast hne
    have hup : p.getLast hne ≠ ".." := by
      intro heq
      exact hres.noUp (heq ▸ List.getLast_mem hne)
    have hentry := fs.locateEntry_of_resolved lim p.dropLast (p.getLast hne) hup hres.dropLast
    rwa [hlast, if_pos (fs.isDirAt_dropLast p h)] at hentry

theorem locate_split (fs : FileSystem α) (lim : LinkLimits) (p rest : List String) (c : String)
    (h : (fs.locate lim (p ++ c :: rest)).isSome = true) :
    ∃ l, fs.locate lim p = some (l, .dir) ∧ (c ≠ ".." → (fs.get? (l ++ [c])).isSome = true) := by
  obtain ⟨found, hfound⟩ := Option.isSome_iff_exists.mp h
  obtain ⟨l, hwalk, -⟩ := Option.bind_eq_some_iff.mp hfound
  obtain ⟨l', hl', hdir, hchild⟩ := fs.walk_split _ _ _ _ _ _ hwalk
  refine ⟨l', ?_, hchild⟩
  rw [locate, hl', Option.bind_some, (fs.isDirAt_eq_true l').mp hdir]
  rfl

theorem child_of_locate_below (fs : FileSystem α) (lim : LinkLimits) (p rest : List String)
    (c : String) (hres : fs.Resolved p)
    (h : (fs.locate lim (p ++ c :: rest)).isSome = true) :
    fs.isDirAt p = true ∧ (c ≠ ".." → (fs.get? (p ++ [c])).isSome = true) := by
  obtain ⟨l, hl, hchild⟩ := fs.locate_split lim p rest c h
  rw [fs.locate_of_resolved _ _ hres] at hl
  obtain ⟨node, hnode, heq⟩ := Option.map_eq_some_iff.mp hl
  cases heq
  exact ⟨(fs.isDirAt_eq_true p).mpr hnode, hchild⟩

end FileSystem
