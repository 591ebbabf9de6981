import Mathlib.Order.Bounds.Basic
import NetworkFileServer.Framework.NameLimits
import NetworkFileServer.Server.RequestEffects

/-!
# The name that RENAME selects

The loop asks `candidate.exists()`, which follows links and raises what the kernel refuses for its length. It
always ends, at the least number whose name leads nowhere or is refused. This is the least number whose name the
directory does not have, as long as no link that leads nowhere has a smaller one and that name is short enough.
-/

namespace NetworkFileServer.Server.FileService

variable {α : Type}

/-- The rounds of a loop that goes on as long as a predicate holds. -/
theorem isLeast_not_iff (P : Nat → Prop) (k : Nat) :
    IsLeast {k | 1 ≤ k ∧ ¬P k} k ↔ ∃ i, k = 1 + i ∧ (∀ j < i, P (1 + j)) ∧ ¬P (1 + i) := by
  constructor
  · rintro ⟨⟨hpos, hfree⟩, hleast⟩
    obtain ⟨i, rfl⟩ := Nat.exists_eq_add_of_le hpos
    refine ⟨i, rfl, ?_, hfree⟩
    intro j hj
    by_contra hnot
    have hle := hleast ⟨Nat.le_add_right 1 j, hnot⟩
    omega
  · rintro ⟨i, rfl, htaken, hfree⟩
    refine ⟨⟨Nat.le_add_right 1 i, hfree⟩, ?_⟩
    rintro k ⟨hpos, hnot⟩
    obtain ⟨j, rfl⟩ := Nat.exists_eq_add_of_le hpos
    by_contra hlt
    exact hnot (htaken j (by omega))

variable (names : NameLimits) (disk : Disk α) (fs : FileSystem α) (targetDir : Location) (filename : String)

/-- The `while True` loop from its first round on. -/
def renameLoop (rounds : Nat) : FileM α FileError String :=
  freeNameVia (fun p => (FileM.pathExistsWithin names disk.limits p).mapError .os) targetDir filename rounds 1

/-- The loop ends in round `k`, with the name of that number, and has changed nothing. -/
def LoopSelects (k : Nat) : Prop :=
  ∀ rounds, (renameLoop names disk targetDir filename rounds).Returns fs (numbered filename k) fs ↔ k ≤ rounds

/-- The loop ends in round `k` with an exception. -/
def LoopRaises (k : Nat) : Prop :=
  ∀ rounds, (renameLoop names disk targetDir filename rounds fs).result = .error (.os .nameTooLong) ↔ k ≤ rounds

/-- The loop selects the first numbered name that is not in the directory. -/
def SelectsLeast : Prop :=
  ∃ k, LoopSelects names disk fs targetDir filename k ∧
    IsLeast {k | 1 ≤ k ∧ numbered filename k ∉ fs.names targetDir} k

/-- A name that can be looked up and leads somewhere, through links. -/
def Leads (name : String) : Prop :=
  fs.refuses names disk.limits (targetDir ++ [name]) = false ∧ Taken disk fs targetDir name

/-- Of the numbered names that are in the directory, up to the first one that is not, none is a link that leads
nowhere. -/
def NoneDangles : Prop :=
  ∀ k, 1 ≤ k → (∀ j, 1 ≤ j → j ≤ k → numbered filename j ∈ fs.names targetDir) →
    Leads names disk fs targetDir (numbered filename k)

/-- The first numbered name that is not in the directory is short enough. -/
def FirstFits : Prop :=
  ∀ k, 1 ≤ k → numbered filename k ∉ fs.names targetDir →
    (∀ j, 1 ≤ j → j < k → numbered filename j ∈ fs.names targetDir) →
    names.Fits (targetDir ++ [numbered filename k])

theorem returns_found (p : List String) (b : Bool) (fs' : FileSystem α) :
    ((FileM.pathExistsWithin names disk.limits p).mapError FileError.os).Returns fs b fs' ↔
      fs.refuses names disk.limits p = false ∧ (fs.locate disk.limits p).isSome = b ∧ fs = fs' := by
  rw [FileM.returns_mapError, FileM.returns_pathExistsWithin]

theorem found_error (p : List String) :
    ((FileM.pathExistsWithin names disk.limits p).mapError FileError.os fs).result = .error (.os .nameTooLong) ↔
      fs.refuses names disk.limits p = true := by
  unfold FileM.mapError FileM.pathExistsWithin
  split
  · rename_i hrefuses
    simp [hrefuses, Except.mapError]
  · rename_i hrefuses
    unfold FileM.pathExists
    split <;> simp [hrefuses, Except.mapError]

theorem returns_renameLoop (newName : String) (rounds : Nat) (fs' : FileSystem α) :
    (renameLoop names disk targetDir filename rounds).Returns fs newName fs' ↔
      fs = fs' ∧ ∃ k < rounds, (∀ j < k, Leads names disk fs targetDir (numbered filename (1 + j))) ∧
        ¬Leads names disk fs targetDir (numbered filename (1 + k)) ∧
        fs.refuses names disk.limits (targetDir ++ [numbered filename (1 + k)]) = false ∧
        newName = numbered filename (1 + k) := by
  rw [renameLoop, returns_freeNameVia fs _ (fun p => FileM.keeps_pathExistsWithin names disk.limits p)]
  refine and_congr_right fun _ => exists_congr fun k => and_congr_right fun _ => and_congr ?_ ?_
  · simp only [returns_found, Leads, Taken, and_true]
  · simp only [returns_found, Leads, Taken, and_true]
    constructor
    · rintro ⟨⟨hnamed, hfree⟩, hname⟩
      exact ⟨by simp [hnamed, hfree], hnamed, hname⟩
    · rintro ⟨hnot, hnamed, hname⟩
      exact ⟨⟨hnamed, by simpa [hnamed] using hnot⟩, hname⟩

theorem returns_renameLoop_iff_freeName
    (hnamed : ∀ k, fs.refuses names disk.limits (targetDir ++ [numbered filename k]) = false) (newName : String)
    (rounds : Nat) (fs' : FileSystem α) :
    (renameLoop names disk targetDir filename rounds).Returns fs newName fs' ↔
      (freeName disk targetDir filename rounds 1).Returns fs newName fs' := by
  rw [returns_renameLoop, returns_freeName]
  simp [Leads, hnamed]

theorem renameLoop_error (rounds : Nat) :
    (renameLoop names disk targetDir filename rounds fs).result = .error (.os .nameTooLong) ↔
      ∃ k < rounds, (∀ j < k, Leads names disk fs targetDir (numbered filename (1 + j))) ∧
        fs.refuses names disk.limits (targetDir ++ [numbered filename (1 + k)]) = true := by
  rw [renameLoop, freeNameVia_error fs _ (fun p => FileM.keeps_pathExistsWithin names disk.limits p) _ _ _ _ _
    (by simp)]
  refine exists_congr fun k => and_congr_right fun _ => and_congr ?_ ?_
  · simp only [returns_found, Leads, Taken, and_true]
  · exact found_error names disk fs _

theorem loopSelects_iff (k : Nat) :
    LoopSelects names disk fs targetDir filename k ↔
      IsLeast {k | 1 ≤ k ∧ ¬Leads names disk fs targetDir (numbered filename k)} k ∧
        fs.refuses names disk.limits (targetDir ++ [numbered filename k]) = false := by
  rw [isLeast_not_iff fun k => Leads names disk fs targetDir (numbered filename k)]
  constructor
  · intro h
    obtain ⟨-, i, -, hleads, hnot, hnamed, hname⟩ := (returns_renameLoop names disk fs _ _ _ _ _).mp ((h k).mpr le_rfl)
    obtain rfl := numbered_injective filename hname
    exact ⟨⟨i, rfl, hleads, hnot⟩, hnamed⟩
  · rintro ⟨⟨i, rfl, hleads, hnot⟩, hnamed⟩ rounds
    rw [returns_renameLoop]
    constructor
    · rintro ⟨-, i', hi', -, -, -, hname⟩
      have heq := numbered_injective filename hname
      omega
    · intro hrounds
      exact ⟨rfl, i, by omega, hleads, hnot, hnamed, rfl⟩

theorem loopRaises_of_isLeast (k : Nat)
    (hleast : IsLeast {k | 1 ≤ k ∧ ¬Leads names disk fs targetDir (numbered filename k)} k)
    (hrefused : fs.refuses names disk.limits (targetDir ++ [numbered filename k]) = true) :
    LoopRaises names disk fs targetDir filename k := by
  obtain ⟨i, rfl, hleads, -⟩ :=
    (isLeast_not_iff (fun k => Leads names disk fs targetDir (numbered filename k)) k).mp hleast
  intro rounds
  rw [renameLoop_error]
  constructor
  · rintro ⟨i', hi', -, hrefused'⟩
    by_contra hlt
    have hlead := hleads i' (by omega)
    rw [hlead.1] at hrefused'
    cases hrefused'
  · intro hrounds
    exact ⟨i, by omega, hleads, hrefused⟩

section Resolved

variable (hres : fs.Resolved targetDir)

include hres

theorem loop_ends :
    ∃ k ≤ fs.tree.length + 1, IsLeast {k | 1 ≤ k ∧ ¬Leads names disk fs targetDir (numbered filename k)} k ∧
      (LoopSelects names disk fs targetDir filename k ∨ LoopRaises names disk fs targetDir filename k) := by
  have hbounded : ∀ k, (∀ j < k, Leads names disk fs targetDir (numbered filename (1 + j))) → k ≤ fs.tree.length :=
    fun k h => taken_le_objects disk fs targetDir filename k hres fun j hj => (h j hj).2
  have hends : ∃ i, ¬Leads names disk fs targetDir (numbered filename (1 + i)) := by
    by_contra hall
    have hle := hbounded (fs.tree.length + 1) fun j _ => not_not.mp (not_exists.mp hall j)
    omega
  obtain ⟨i, hnot, hfirst⟩ : ∃ i, ¬Leads names disk fs targetDir (numbered filename (1 + i)) ∧
      ∀ j < i, ¬¬Leads names disk fs targetDir (numbered filename (1 + j)) := by
    classical
    exact ⟨Nat.find hends, Nat.find_spec hends, fun j hj => Nat.find_min hends hj⟩
  have hleast := (isLeast_not_iff (fun k => Leads names disk fs targetDir (numbered filename k)) (1 + i)).mpr
    ⟨i, rfl, fun j hj => not_not.mp (hfirst j hj), hnot⟩
  have hle := hbounded i fun j hj => not_not.mp (hfirst j hj)
  refine ⟨1 + i, by omega, hleast, ?_⟩
  cases hrefused : fs.refuses names disk.limits (targetDir ++ [numbered filename (1 + i)]) with
  | false => exact .inl ((loopSelects_iff names disk fs targetDir filename _).mpr ⟨hleast, hrefused⟩)
  | true => exact .inr (loopRaises_of_isLeast names disk fs targetDir filename _ hleast hrefused)

theorem mem_names_of_leads (name : String) (hproper : ProperName name)
    (h : Leads names disk fs targetDir name) : name ∈ fs.names targetDir := by
  rw [fs.mem_names targetDir name hproper]
  exact (fs.child_of_locate_below disk.limits targetDir [] name hres h.2).2 hproper.2.2.1

variable (hdir : fs.isDirAt targetDir = true) (hproper : ∀ j, ProperName (numbered filename j))

include hdir hproper

theorem refuses_numbered (k : Nat) (hout : numbered filename k ∉ fs.names targetDir) :
    fs.refuses names disk.limits (targetDir ++ [numbered filename k]) = false ↔
      names.Fits (targetDir ++ [numbered filename k]) := by
  rw [fs.mem_names targetDir _ (hproper k), Bool.not_eq_true, Option.isSome_eq_false_iff, Option.isNone_iff_eq_none]
    at hout
  exact fs.refuses_absent names disk.limits targetDir _ (hproper k).2.2.1 hres hdir hout

theorem selectsLeast_of_leads (hnone : NoneDangles names disk fs targetDir filename)
    (hfirst : FirstFits names fs targetDir filename) : SelectsLeast names disk fs targetDir filename := by
  obtain ⟨k, -, hleast, -⟩ := loop_ends names disk fs targetDir filename hres
  have hin : ∀ j, 1 ≤ j → j < k → numbered filename j ∈ fs.names targetDir := by
    intro j hj hlt
    apply mem_names_of_leads names disk fs targetDir hres _ (hproper j)
    by_contra hnot
    have hle := hleast.2 ⟨hj, hnot⟩
    omega
  have hout : numbered filename k ∉ fs.names targetDir := by
    intro hmem
    refine hleast.1.2 (hnone k hleast.1.1 fun j hj hle => ?_)
    rcases Nat.eq_or_lt_of_le hle with rfl | hlt
    · exact hmem
    · exact hin j hj hlt
  have hnamed := (refuses_numbered names disk fs targetDir filename hres hdir hproper k hout).mpr
    (hfirst k hleast.1.1 hout hin)
  refine ⟨k, (loopSelects_iff names disk fs targetDir filename k).mpr ⟨hleast, hnamed⟩, ⟨hleast.1.1, hout⟩, ?_⟩
  rintro j ⟨hj, hout'⟩
  exact hleast.2 ⟨hj, fun hlead => hout' (mem_names_of_leads names disk fs targetDir hres _ (hproper j) hlead)⟩

/-- A loop that selects the least absent name has met no dangling link, and that name is short enough. -/
theorem leads_of_selectsLeast (h : SelectsLeast names disk fs targetDir filename) :
    NoneDangles names disk fs targetDir filename ∧ FirstFits names fs targetDir filename := by
  obtain ⟨k, hselects, ⟨hpos, hout⟩, hleast⟩ := h
  obtain ⟨hfirst, hnamed⟩ := (loopSelects_iff names disk fs targetDir filename k).mp hselects
  constructor
  · intro i hi hall
    by_contra hnot
    exact hout (hall k hpos (hfirst.2 ⟨hi, hnot⟩))
  · intro i hi hout' hall
    have hle : k ≤ i := hleast ⟨hi, hout'⟩
    obtain rfl : k = i := by
      rcases Nat.eq_or_lt_of_le hle with heq | hlt
      · exact heq
      · exact absurd (hall k hpos hlt) hout
    exact (refuses_numbered names disk fs targetDir filename hres hdir hproper k hout).mp hnamed

end Resolved

/-- The loop always ends, at the least number whose name leads nowhere or is refused. It selects the least one that
the directory does not have exactly if no name before that one is a link that leads nowhere, and it is short
enough. -/
theorem selectsLeast_iff (baseDir : List String) (relativeDir : String)
    (hpath : SafePath disk fs baseDir relativeDir targetDir) (hdir : fs.isDirAt targetDir = true)
    (hvalid : validateUploadFilename filename = .ok filename) :
    (∃ k ≤ fs.tree.length + 1, IsLeast {k | 1 ≤ k ∧ ¬Leads names disk fs targetDir (numbered filename k)} k ∧
        (LoopSelects names disk fs targetDir filename k ∨ LoopRaises names disk fs targetDir filename k)) ∧
      (SelectsLeast names disk fs targetDir filename ↔
        NoneDangles names disk fs targetDir filename ∧ FirstFits names fs targetDir filename) := by
  have hproper : ∀ j, ProperName (numbered filename j) :=
    properName_numbered filename (properName_of_validateUploadFilename filename filename hvalid)
  refine ⟨loop_ends names disk fs targetDir filename hpath.resolved, ?_, ?_⟩
  · exact leads_of_selectsLeast names disk fs targetDir filename hpath.resolved hdir hproper
  · rintro ⟨hnone, hfirst⟩
    exact selectsLeast_of_leads names disk fs targetDir filename hpath.resolved hdir hproper hnone hfirst

/-- A folder with `a.txt` and `a_1.txt`. -/
def numberedShare : FileSystem String where
  tree :=
    [(["srv"], .dir), (["srv", "share"], .dir), (["srv", "share", "a.txt"], .file "first"),
      (["srv", "share", "a_1.txt"], .file "second")]
  closed := by decide

theorem selectsLeast_iff_numbered :
    SelectsLeast .linux linkedDisk numberedShare ["srv", "share"] "a.txt" := by
  have hpath : SafePath linkedDisk numberedShare ["srv", "share"] "" ["srv", "share"] :=
    ⟨by decide +kernel, rfl⟩
  refine (selectsLeast_iff .linux linkedDisk numberedShare ["srv", "share"] "a.txt" ["srv", "share"] "" hpath
    (by decide) (by decide)).2.mpr ⟨?_, ?_⟩
  · intro k hpos hall
    rcases Nat.eq_or_lt_of_le hpos with rfl | hlater
    · exact ⟨by decide +kernel, by decide +kernel⟩
    · exact absurd (hall 2 (by decide) hlater) (by decide +kernel)
  · intro k hpos hout hall
    rcases Nat.lt_trichotomy k 2 with hless | rfl | hmore
    · obtain rfl : k = 1 := by omega
      exact absurd (by decide +kernel) hout
    · decide +kernel
    · exact absurd (hall 2 (by decide) hmore) (by decide +kernel)

/-- The same folder, in which `a_1.txt` is a link to a file that is gone. -/
def danglingShare : FileSystem String where
  tree :=
    [(["srv"], .dir), (["srv", "share"], .dir), (["srv", "share", "a.txt"], .file "first"),
      (["srv", "share", "a_1.txt"], .link ⟨false, ["gone.txt"]⟩)]
  closed := by decide

/-- A name of 254 bytes. -/
def longName : String := String.ofList (List.replicate 254 'a')

def longShare : FileSystem String where
  tree := [(["srv"], .dir), (["srv", "share"], .dir), (["srv", "share", longName], .file "first")]
  closed := by simp [FileTree.Closed, FileTree.isDirAt, FileTree.get?, OrderedDict.lookup, Node.isDir]

theorem utf8ByteSize_numbered_replicate (n : Nat) :
    (numbered (String.ofList (List.replicate n 'a')) 1).utf8ByteSize = n + 2 := by
  have hone : 'a'.utf8Size = 1 := by decide
  rw [numbered_of_not_mem _ (by simp), String.utf8ByteSize_append, String.utf8ByteSize_append,
    NameLimits.utf8ByteSize_replicate, hone, Nat.mul_one]
  rfl

theorem refuses_numbered_longName :
    longShare.refuses .linux linkedDisk.limits (["srv", "share"] ++ [numbered longName 1]) = true := by
  have hsize : (numbered longName 1).utf8ByteSize = 256 := utf8ByteSize_numbered_replicate 254
  have hshort : longName.utf8ByteSize = 254 := NameLimits.utf8ByteSize_replicate 254 'a'
  have hne : longName ≠ numbered longName 1 := by
    intro h
    rw [← h, hshort] at hsize
    cases hsize
  have hpath : longShare.resolve linkedDisk.limits ["srv", "share"] = some ["srv", "share"] := by decide +kernel
  apply longShare.refuses_of_long
  · exact numbered_ne_up longName 1
  · exact longShare.resolve_resolved _ _ _ hpath
  · decide +kernel
  · simp [longShare, FileSystem.get?, FileTree.get?, OrderedDict.lookup, hne]
  · rw [hsize]
    decide

/-- The name of a link is selected, although the directory has it; a number makes a long name too long. -/
theorem not_selectsLeast_dangling_long :
    (LoopSelects .linux linkedDisk danglingShare ["srv", "share"] "a.txt" 1 ∧
      numbered "a.txt" 1 ∈ danglingShare.names ["srv", "share"] ∧
      ¬SelectsLeast .linux linkedDisk danglingShare ["srv", "share"] "a.txt") ∧
    (longName ∈ longShare.names ["srv", "share"] ∧
      LoopRaises .linux linkedDisk longShare ["srv", "share"] longName 1 ∧
      ¬SelectsLeast .linux linkedDisk longShare ["srv", "share"] longName) := by
  have hmem : numbered "a.txt" 1 ∈ danglingShare.names ["srv", "share"] := by decide +kernel
  have hdangles : ¬Taken linkedDisk danglingShare ["srv", "share"] (numbered "a.txt" 1) := by decide +kernel
  have hlong := refuses_numbered_longName
  have hthere : longName ∈ longShare.names ["srv", "share"] := by
    have hproper : ProperName longName := NameLimits.properName_replicate 253
    simp [longShare, FileSystem.names, hproper]
  have hnot : ¬Leads .linux linkedDisk longShare ["srv", "share"] (numbered longName 1) :=
    fun h => Bool.false_ne_true (h.1.symm.trans hlong)
  refine ⟨⟨?_, hmem, ?_⟩, hthere, ?_, ?_⟩
  · exact (loopSelects_iff _ _ _ _ _ _).mpr ⟨⟨⟨le_rfl, fun h => hdangles h.2⟩, fun k hk => hk.1⟩, by decide +kernel⟩
  · rintro ⟨k, hselects, ⟨hpos, hout⟩, -⟩
    have hle := ((loopSelects_iff _ _ _ _ _ k).mp hselects).1.2 ⟨le_rfl, fun h => hdangles h.2⟩
    obtain rfl : k = 1 := by omega
    exact hout hmem
  · exact loopRaises_of_isLeast _ _ _ _ _ 1 ⟨⟨le_rfl, hnot⟩, fun k hk => hk.1⟩ hlong
  · rintro ⟨k, hselects, ⟨hpos, -⟩, -⟩
    obtain ⟨hleast, hnamed⟩ := (loopSelects_iff _ _ _ _ _ k).mp hselects
    have hle := hleast.2 ⟨le_rfl, hnot⟩
    obtain rfl : k = 1 := by omega
    rw [hlong] at hnamed
    cases hnamed

end NetworkFileServer.Server.FileService
