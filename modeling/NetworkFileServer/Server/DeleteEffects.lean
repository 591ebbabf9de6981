import NetworkFileServer.Framework.FileWalks
import NetworkFileServer.Server.ServiceConfinement

/-!
# What a deletion removes

`delete_paths` resolves each path before it removes anything, so that the object at the end of a link is
removed and the link stays.
-/

namespace NetworkFileServer.Server.FileService

variable {α : Type} (disk : Disk α) (baseDir : List String)

/-- The entry that a path names below the base directory: links are followed up to the last component. -/
def namedEntry (fs : FileSystem α) (path : String) : Option Location :=
  (fs.resolve disk.limits baseDir).bind fun base =>
    let parts := (PurePath.parse path).parts
    match parts.getLast? with
    | none => some base
    | some name =>
        if name = ".." then fs.resolve disk.limits (base ++ parts)
        else (fs.resolve disk.limits (base ++ parts.dropLast)).map (· ++ [name])

/-- A path has an entry if the guard lets it through, and the entry is a link unless the guard returns it. -/
theorem SafePath.namedEntry {fs : FileSystem α} {path : String} {resolved : Location}
    (h : SafePath disk fs baseDir path resolved) :
    ∃ named, namedEntry disk baseDir fs path = some named ∧
      (named = resolved ∨ (fs.get? named).any Node.isLink = true) := by
  obtain ⟨-, base, hbase, hr⟩ := (returns_resolveSafePath disk _ _ _ _ _).mp h
  have hresolved : fs.resolve disk.limits (base ++ (PurePath.parse path).parts) = some resolved := by
    rcases hr with ⟨rfl, rfl⟩ | ⟨-, -, -, hr⟩
    · have hparts : (PurePath.parse "").parts = [] := by decide
      rw [hparts, List.append_nil]
      exact fs.resolve_of_resolved _ _ (fs.resolve_resolved _ _ _ hbase)
    · exact hr
  simp only [FileService.namedEntry, hbase, Option.bind_some]
  rcases List.eq_nil_or_concat (PurePath.parse path).parts with hparts | ⟨front, name, hparts⟩
  · rw [hparts, List.append_nil] at hresolved
    rw [fs.resolve_of_resolved _ _ (fs.resolve_resolved _ _ _ hbase)] at hresolved
    exact ⟨base, by simp [hparts], .inl (Option.some.inj hresolved)⟩
  · rw [List.concat_eq_append] at hparts
    rw [hparts] at hresolved ⊢
    simp only [List.getLast?_concat, List.dropLast_concat]
    by_cases hup : name = ".."
    · exact ⟨resolved, by rw [if_pos hup, hresolved], .inl rfl⟩
    · rw [← List.append_assoc] at hresolved
      obtain ⟨dir, hdir⟩ := fs.resolve_of_append _ _ _ _ hresolved
      refine ⟨dir ++ [name], by rw [if_neg hup, hdir, Option.map_some], ?_⟩
      cases hlink : (fs.get? (dir ++ [name])).any Node.isLink with
      | true => exact .inr rfl
      | false =>
          have hsnoc := fs.resolve_snoc _ _ dir name hdir hup hlink
          exact .inl (Option.some.inj (hsnoc.symm.trans hresolved))

/-- One listed path in the tree that the deletions before it have left: the entry that it names, and where it
leads. -/
structure Turn where
  named : Location
  resolved : Location
deriving DecidableEq

/-- The turns of `delete_paths`, up to the first path that is refused. -/
def turns : FileSystem α → List String → List Turn
  | _, [] => []
  | fs, path :: paths =>
      match namedEntry disk baseDir fs path, safeLocation disk fs baseDir path with
      | some named, some resolved => ⟨named, resolved⟩ :: turns (fs.erase resolved) paths
      | _, _ => []

/-- The shared base directory, if there is one. -/
def sharedDir (fs : FileSystem α) : Option Location :=
  (fs.resolve disk.limits baseDir).filter fs.isDirAt

/-- The entries are gone with everything below them, every other path is as it was, and the base directory is
still there. -/
structure RemovesNamed (fs fs' : FileSystem α) (named : List Location) : Prop where
  removed : ∀ q, fs'.get? q = if ∃ entry ∈ named, entry <+: q then none else fs.get? q
  kept : ∀ base ∈ sharedDir disk baseDir fs, fs'.isDirAt base = true

/-- A path of the list that names what it leads to leads to the location or above it. -/
def Covered (list : List Turn) (q : Location) : Prop :=
  ∃ turn ∈ list, turn.named = turn.resolved ∧ turn.resolved <+: q

/-- No path leads to the base directory, and a path that names a link comes with paths that remove the link and
what it leads to. -/
structure RemovesLinksToo (fs : FileSystem α) (list : List Turn) : Prop where
  base : ∀ base ∈ sharedDir disk baseDir fs, ∀ turn ∈ list, ¬turn.resolved <+: base
  link : ∀ turn ∈ list, turn.named ≠ turn.resolved → Covered list turn.named
  target : ∀ turn ∈ list, turn.named ≠ turn.resolved → Covered list turn.resolved

/-- What holds of each turn in the tree before the deletions. -/
structure Turn.Sound (fs : FileSystem α) (turn : Turn) : Prop where
  target : ∃ node, fs.get? turn.resolved = some node ∧ node.isLink = false
  entry : turn.named = turn.resolved ∨ ∃ target, fs.get? turn.named = some (.link target)

theorem get?_of_get?_erase (fs : FileSystem α) (p q : Location) (node : Node α)
    (h : (fs.erase p).get? q = some node) : fs.get? q = some node := by
  rw [fs.get?_erase] at h
  split at h
  · cases h
  · exact h

theorem Turn.Sound.of_erase {fs : FileSystem α} {turn : Turn} (p : Location) (h : turn.Sound (fs.erase p)) :
    turn.Sound fs := by
  obtain ⟨node, hnode, hlink⟩ := h.target
  refine ⟨⟨node, get?_of_get?_erase fs p _ node hnode, hlink⟩, ?_⟩
  rcases h.entry with hsame | ⟨target, hentry⟩
  · exact .inl hsame
  · exact .inr ⟨target, get?_of_get?_erase fs p _ _ hentry⟩

theorem SafePath.turn {fs : FileSystem α} {path : String} {named resolved : Location}
    (hsafe : SafePath disk fs baseDir path resolved) (hsome : (fs.get? resolved).isSome = true)
    (hnamed : named = resolved ∨ (fs.get? named).any Node.isLink = true) :
    Turn.Sound fs ⟨named, resolved⟩ := by
  obtain ⟨node, hnode⟩ := Option.isSome_iff_exists.mp hsome
  have hlink := hsafe.resolved.noLink resolved (List.prefix_refl resolved)
  refine ⟨⟨node, hnode, by simpa [hnode] using hlink⟩, ?_⟩
  rcases hnamed with hsame | hentry
  · exact .inl hsame
  · right
    cases hget : fs.get? named with
    | none => simp [hget] at hentry
    | some node =>
        cases node with
        | link target => exact ⟨target, rfl⟩
        | file _ | dir => simp [hget, Node.isLink] at hentry

theorem deletePaths_turns (fs fs' : FileSystem α) (paths deleted : List String)
    (hret : (deletePaths disk baseDir paths).Returns fs deleted fs') :
    (∀ turn ∈ turns disk baseDir fs paths, turn.Sound fs) ∧
      ∀ q, fs'.get? q = if ∃ turn ∈ turns disk baseDir fs paths, turn.resolved <+: q then none else fs.get? q := by
  unfold deletePaths at hret
  induction paths generalizing fs deleted with
  | nil =>
      obtain ⟨-, rfl⟩ := (FileM.returns_pure _ _ _ _).mp hret
      simp [turns]
  | cons path paths ih =>
      obtain ⟨_, rest, fs₁, hpath, hrest, -⟩ := (FileM.returns_forEach_cons _ _ _ _ _ _).mp hret
      obtain ⟨-, resolved, hsafe, hsome, hroot, rfl⟩ := (returns_deletePath disk baseDir _ _ _ _).mp hpath
      obtain ⟨named, hnamed, hentry⟩ := hsafe.namedEntry
      obtain ⟨hsound, hget⟩ := ih _ _ hrest
      have hturns : turns disk baseDir fs (path :: paths) =
          ⟨named, resolved⟩ :: turns disk baseDir (fs.erase resolved) paths := by
        simp [turns, hnamed, (safeLocation_eq_some disk _ _ _ _).mpr hsafe]
      rw [hturns]
      refine ⟨?_, ?_⟩
      · intro turn hturn
        rcases List.mem_cons.mp hturn with rfl | hturn
        · exact hsafe.turn disk baseDir hsome hentry
        · exact (hsound turn hturn).of_erase resolved
      · intro q
        rw [hget q, fs.get?_erase]
        have hq : resolved <+: q → q ≠ [] := by
          rintro hpre rfl
          exact hroot (List.prefix_nil.mp hpre)
        by_cases hlater : ∃ turn ∈ turns disk baseDir (fs.erase resolved) paths, turn.resolved <+: q
        · rw [if_pos hlater, if_pos]
          obtain ⟨turn, hturn, hpre⟩ := hlater
          exact ⟨turn, List.mem_cons_of_mem _ hturn, hpre⟩
        · rw [if_neg hlater]
          by_cases hnow : resolved <+: q
          · rw [if_pos ⟨hnow, hq hnow⟩, if_pos ⟨_, List.mem_cons_self, hnow⟩]
          · rw [if_neg fun h => hnow h.1, if_neg]
            rintro ⟨turn, hturn, hpre⟩
            rcases List.mem_cons.mp hturn with rfl | hturn
            · exact hnow hpre
            · exact hlater ⟨turn, hturn, hpre⟩

/-- Of turns that remove what they name, each object that a path leads to goes with a path that is no link. -/
theorem covered_of_named (fs : FileSystem α) (list : List Turn) (hsound : ∀ turn ∈ list, turn.Sound fs)
    (q : Location) (node : Node α) (hget : fs.get? q = some node) (hlink : node.isLink = false)
    (hnamed : ∃ turn ∈ list, turn.named <+: q) : Covered list q := by
  obtain ⟨turn, hturn, hpre⟩ := hnamed
  rcases (hsound turn hturn).entry with hsame | ⟨target, hentry⟩
  · exact ⟨turn, hturn, hsame, hsame ▸ hpre⟩
  · have heq := fs.eq_of_below _ q (fs.isDirAt_of_get? _ _ hentry) hpre (by simp [hget])
    rw [← heq, hget] at hentry
    rw [Option.some.inj hentry] at hlink
    cases hlink

theorem removesNamed_iff_of_sound (fs fs' : FileSystem α) (list : List Turn)
    (hsound : ∀ turn ∈ list, turn.Sound fs)
    (hget : ∀ q, fs'.get? q = if ∃ turn ∈ list, turn.resolved <+: q then none else fs.get? q) :
    RemovesNamed disk baseDir fs fs' (list.map Turn.named) ↔ RemovesLinksToo disk baseDir fs list := by
  have hcovered : ∀ q, (∃ entry ∈ list.map Turn.named, entry <+: q) ↔ ∃ turn ∈ list, turn.named <+: q := by
    simp
  constructor
  · intro h
    -- what exists goes by its name exactly if it goes by a target
    have hsame : ∀ q, (fs.get? q).isSome = true →
        ((∃ turn ∈ list, turn.resolved <+: q) ↔ ∃ turn ∈ list, turn.named <+: q) := by
      intro q hq
      have hremoved := (hget q).symm.trans (h.removed q)
      rw [← hcovered]
      by_cases hto : ∃ turn ∈ list, turn.resolved <+: q
      · rw [if_pos hto] at hremoved
        by_cases hby : ∃ entry ∈ list.map Turn.named, entry <+: q
        · exact iff_of_true hto hby
        · rw [if_neg hby] at hremoved
          simp [← hremoved] at hq
      · rw [if_neg hto] at hremoved
        by_cases hby : ∃ entry ∈ list.map Turn.named, entry <+: q
        · rw [if_pos hby] at hremoved
          simp [hremoved] at hq
        · exact iff_of_false hto hby
    have htarget : ∀ turn ∈ list, Covered list turn.resolved := by
      intro turn hturn
      obtain ⟨node, hnode, hlink⟩ := (hsound turn hturn).target
      exact covered_of_named fs list hsound _ node hnode hlink
        ((hsame _ (by simp [hnode])).mp ⟨turn, hturn, List.prefix_refl _⟩)
    refine ⟨?_, ?_, fun turn hturn _ => htarget turn hturn⟩
    · intro base hbase turn hturn hpre
      have hkept := (fs'.isDirAt_eq_true base).mp (h.kept base hbase)
      rw [hget base, if_pos ⟨turn, hturn, hpre⟩] at hkept
      cases hkept
    · intro turn hturn hne
      obtain ⟨target, hentry⟩ := (hsound turn hturn).entry.resolve_left hne
      obtain ⟨other, hother, hpre⟩ := (hsame turn.named (by simp [hentry])).mpr
        ⟨turn, hturn, List.prefix_refl _⟩
      obtain ⟨last, hlast, hplain, hlastPre⟩ := htarget other hother
      exact ⟨last, hlast, hplain, hlastPre.trans hpre⟩
  · intro h
    refine ⟨?_, ?_⟩
    · intro q
      have hiff : (∃ turn ∈ list, turn.resolved <+: q) ↔ ∃ entry ∈ list.map Turn.named, entry <+: q := by
        rw [hcovered]
        constructor
        · rintro ⟨turn, hturn, hpre⟩
          by_cases hsame : turn.named = turn.resolved
          · exact ⟨turn, hturn, hsame ▸ hpre⟩
          · obtain ⟨other, hother, hplain, hover⟩ := h.target turn hturn hsame
            exact ⟨other, hother, hplain ▸ hover.trans hpre⟩
        · rintro ⟨turn, hturn, hpre⟩
          by_cases hsame : turn.named = turn.resolved
          · exact ⟨turn, hturn, hsame ▸ hpre⟩
          · obtain ⟨other, hother, -, hover⟩ := h.link turn hturn hsame
            exact ⟨other, hother, hover.trans hpre⟩
      simp only [hget q, hiff]
    · intro base hbase
      rw [fs'.isDirAt_eq_true, hget base, if_neg]
      · exact (fs.isDirAt_eq_true base).mp (Option.mem_filter_iff.mp hbase).2
      · rintro ⟨turn, hturn, hpre⟩
        exact h.base base hbase turn hturn hpre

/-- A list is deleted by name, and the base directory kept, exactly if no path leads to the base directory and
every path that ends in a link comes with other paths that remove the link and its target. -/
theorem deletePaths_removesNamed_iff (fs fs' : FileSystem α) (paths deleted : List String)
    (hret : (deletePaths disk baseDir paths).Returns fs deleted fs') :
    RemovesNamed disk baseDir fs fs' ((turns disk baseDir fs paths).map Turn.named) ↔
      RemovesLinksToo disk baseDir fs (turns disk baseDir fs paths) := by
  obtain ⟨hsound, hget⟩ := deletePaths_turns disk baseDir fs fs' paths deleted hret
  exact removesNamed_iff_of_sound disk baseDir fs fs' _ hsound hget

/-- A shared folder `/srv/share` with the folder `docs`, in which `latest` is a link to `old.txt`. -/
def latestShare : FileSystem String where
  tree :=
    [(["srv"], .dir), (["srv", "share"], .dir), (["srv", "share", "notes.txt"], .file "notes"),
      (["srv", "share", "docs"], .dir), (["srv", "share", "docs", "old.txt"], .file "old"),
      (["srv", "share", "docs", "latest"], .link ⟨false, ["old.txt"]⟩)]
  closed := by decide

theorem sharedDir_latestShare : sharedDir linkedDisk ["srv", "share"] latestShare = some ["srv", "share"] := by
  decide +kernel

/-- A file and a folder that holds a link and its target are removed as they are named. -/
theorem deletePaths_removesNamed_folder :
    RemovesNamed linkedDisk ["srv", "share"] latestShare
      (deletePaths linkedDisk ["srv", "share"] ["notes.txt", "docs/latest/../"] latestShare).fs
      ((turns linkedDisk ["srv", "share"] latestShare ["notes.txt", "docs/latest/../"]).map Turn.named) := by
  have hturns : turns linkedDisk ["srv", "share"] latestShare ["notes.txt", "docs/latest/../"] =
      [⟨["srv", "share", "notes.txt"], ["srv", "share", "notes.txt"]⟩,
        ⟨["srv", "share", "docs"], ["srv", "share", "docs"]⟩] := by
    decide +kernel
  refine (deletePaths_removesNamed_iff linkedDisk ["srv", "share"] latestShare _
    ["notes.txt", "docs/latest/../"] ["notes.txt", "docs/latest/../"] ⟨by decide +kernel, rfl⟩).mpr ?_
  rw [hturns]
  refine ⟨?_, by simp, by simp⟩
  rw [sharedDir_latestShare]
  decide

/-- The file at the end of the link is removed in place of the link, and the folder itself as `docs/..`. -/
theorem deletePaths_not_removesNamed :
    ((deletePaths linkedDisk ["srv", "share"] ["docs/latest"] latestShare).result = .ok ["docs/latest"] ∧
      ¬RemovesNamed linkedDisk ["srv", "share"] latestShare
        (deletePaths linkedDisk ["srv", "share"] ["docs/latest"] latestShare).fs
        ((turns linkedDisk ["srv", "share"] latestShare ["docs/latest"]).map Turn.named)) ∧
    ((deletePaths linkedDisk ["srv", "share"] ["docs/.."] latestShare).result = .ok ["docs/.."] ∧
      ¬RemovesNamed linkedDisk ["srv", "share"] latestShare
        (deletePaths linkedDisk ["srv", "share"] ["docs/.."] latestShare).fs
        ((turns linkedDisk ["srv", "share"] latestShare ["docs/.."]).map Turn.named)) := by
  refine ⟨⟨by decide +kernel, ?_⟩, ⟨by decide +kernel, ?_⟩⟩
  · intro h
    have hnamed : (turns linkedDisk ["srv", "share"] latestShare ["docs/latest"]).map Turn.named =
        [["srv", "share", "docs", "latest"]] := by
      decide +kernel
    have hstays : (deletePaths linkedDisk ["srv", "share"] ["docs/latest"] latestShare).fs.get?
        ["srv", "share", "docs", "latest"] = some (.link ⟨false, ["old.txt"]⟩) := by
      decide +kernel
    have hremoved := h.removed ["srv", "share", "docs", "latest"]
    rw [hnamed, hstays] at hremoved
    simp at hremoved
  · intro h
    have hgone : (deletePaths linkedDisk ["srv", "share"] ["docs/.."] latestShare).fs.isDirAt
        ["srv", "share"] = false := by
      decide +kernel
    exact absurd (h.kept ["srv", "share"] sharedDir_latestShare) (by simp [hgone])

end NetworkFileServer.Server.FileService
