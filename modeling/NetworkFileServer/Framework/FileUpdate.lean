import Mathlib.Data.List.Find
import NetworkFileServer.Framework.FileSystem

/-!
# Updates of a file system

The three changes that the operations of an operating system make to a tree: put an object at a
location, erase a subtree, move a subtree. Each takes the proof that its result is again a tree in
which everything is in a directory, and comes with the lemma that says what is where afterwards.
-/

namespace OrderedDict

variable {κ ν : Type*}

theorem lookup_set [DecidableEq κ] (d : OrderedDict κ ν) (k q : κ) (v : ν) :
    (d.set k v).lookup (fun k' => decide (k' = q)) =
      if q = k then some v else d.lookup fun k' => decide (k' = q) := by
  split
  · rename_i heq
    subst heq
    induction d with
    | nil => simp [set, lookup]
    | cons e d ih =>
        obtain ⟨k', v'⟩ := e
        by_cases hk : k' = q
        · simp [set, hk, lookup]
        · simpa [set, hk, lookup] using ih
  · rename_i hne
    exact lookup_set_of_not _ d k v (by simpa using Ne.symm hne)

theorem lookup_filter (d : OrderedDict κ ν) (keep : κ → Bool) (p : κ → Bool) :
    lookup p (d.filter fun e => keep e.1) = d.lookup fun k => keep k && p k := by
  simp only [lookup, List.find?_filter]
  congr 2
  funext e
  simp

end OrderedDict

namespace FileSystem

variable {α : Type*}

/-- The parent is a directory, and a directory is replaced by nothing else. -/
def Puttable (fs : FileSystem α) (p : Location) (node : Node α) : Prop :=
  fs.isDirAt p.dropLast = true ∧ (fs.isDirAt p = true → node = .dir)

private theorem tree_get?_set (t : FileTree α) (p q : Location) (node : Node α)
    (hp : p = [] → node = .dir) :
    FileTree.get? (OrderedDict.set t p node) q = if q = p then some node else t.get? q := by
  unfold FileTree.get?
  by_cases hq : q = []
  · subst hq
    by_cases hp' : p = []
    · simp [hp', hp hp']
    · simp [Ne.symm hp']
  · simp [hq, OrderedDict.lookup_set]

def put (fs : FileSystem α) (p : Location) (node : Node α) (h : fs.Puttable p node) :
    FileSystem α where
  tree := OrderedDict.set fs.tree p node
  closed := by
    intro e he
    have hroot : p = [] → node = .dir := fun hp => h.2 (by rw [hp]; rfl)
    have hparent : fs.isDirAt e.1.dropLast = true := by
      rcases OrderedDict.mem_set_key fs.tree p node e he with rfl | hmem
      · exact h.1
      · exact fs.closed e hmem
    change ((FileTree.get? _ _).any Node.isDir) = true
    rw [tree_get?_set fs.tree p _ node hroot]
    split
    · rename_i heq
      rw [h.2 (heq ▸ hparent)]
      rfl
    · exact hparent

theorem get?_put (fs : FileSystem α) (p q : Location) (node : Node α) (h : fs.Puttable p node) :
    (fs.put p node h).get? q = if q = p then some node else fs.get? q :=
  tree_get?_set fs.tree p q node fun hp => h.2 (by rw [hp]; rfl)

theorem Resolved.put {fs : FileSystem α} {p q : Location} {node : Node α} (hres : fs.Resolved q)
    (h : fs.Puttable p node) (hnode : node.isLink = false) : (fs.put p node h).Resolved q := by
  refine ⟨?_, hres.noUp⟩
  intro r hr
  rw [get?_put]
  split
  · simpa using hnode
  · exact hres.noLink r hr

theorem isDirAt_put_file (fs : FileSystem α) (l q : Location) (content : α)
    (hput : fs.Puttable l (.file content)) (hdir : fs.isDirAt l = false) :
    (fs.put l (.file content) hput).isDirAt q = fs.isDirAt q := by
  rw [Bool.eq_iff_iff, isDirAt_eq_true, isDirAt_eq_true, get?_put]
  split
  · rename_i heq
    rw [heq]
    refine iff_of_false (by simp) ?_
    intro hnode
    rw [(fs.isDirAt_eq_true l).mpr hnode] at hdir
    cases hdir
  · exact Iff.rfl

private theorem tree_get?_erase (t : FileTree α) (p q : Location) :
    FileTree.get? (t.filter fun e => !decide (p <+: e.1)) q =
      if p <+: q ∧ q ≠ [] then none else t.get? q := by
  unfold FileTree.get?
  by_cases hq : q = []
  · simp [hq]
  · have hfilter := OrderedDict.lookup_filter t (fun k => !decide (p <+: k)) fun k => decide (k = q)
    simp only [hq, if_false, ne_eq, not_false_eq_true, and_true]
    rw [hfilter]
    split
    · rename_i hpq
      refine OrderedDict.lookup_eq_none _ t ?_
      intro e _
      by_cases heq : e.1 = q
      · simp [heq, hpq]
      · simp [heq]
    · rename_i hpq
      congr 1
      funext k
      by_cases heq : k = q
      · simp [heq, hpq]
      · simp [heq]

/-- Remove an object with everything below it. -/
def erase (fs : FileSystem α) (p : Location) : FileSystem α where
  tree := fs.tree.filter fun e => !decide (p <+: e.1)
  closed := by
    intro e he
    obtain ⟨hmem, hkeep⟩ := List.mem_filter.mp he
    have hparent : ¬p <+: e.1.dropLast := by
      intro hp
      have := hp.trans (List.dropLast_prefix e.1)
      simp [this] at hkeep
    change ((FileTree.get? _ _).any Node.isDir) = true
    rw [tree_get?_erase fs.tree p, if_neg fun hp => hparent hp.1]
    exact fs.closed e hmem

theorem get?_erase (fs : FileSystem α) (p q : Location) :
    (fs.erase p).get? q = if p <+: q ∧ q ≠ [] then none else fs.get? q :=
  tree_get?_erase fs.tree p q

theorem Resolved.erase {fs : FileSystem α} {q : Location} (hres : fs.Resolved q) (p : Location) :
    (fs.erase p).Resolved q := by
  refine ⟨?_, hres.noUp⟩
  intro r hr
  rw [get?_erase]
  split
  · rfl
  · exact hres.noLink r hr

/-- The object at `src` can take the place of whatever is at `dst`. -/
structure Movable (fs : FileSystem α) (src dst : Location) : Prop where
  source : (fs.get? src).isSome = true
  notBelow : ¬src <+: dst
  parent : fs.isDirAt dst.dropLast = true
  vacant : ∀ e ∈ fs.tree, dst <+: e.1 → e.1 = dst

theorem Movable.src_ne {fs : FileSystem α} {src dst : Location} (h : fs.Movable src dst) :
    src ≠ [] := by
  intro hsrc
  exact h.notBelow (hsrc ▸ List.nil_prefix)

theorem Movable.not_above {fs : FileSystem α} {src dst : Location} (h : fs.Movable src dst) :
    ¬dst <+: src := by
  intro hpre
  obtain ⟨e, he, hkey⟩ := fs.mem_of_get? src h.src_ne h.source
  have heq := h.vacant e he (hkey ▸ hpre)
  exact h.notBelow (by rw [← hkey, heq])

/-- Where an object goes when `src` becomes `dst`. -/
def relocate (src dst p : Location) : Location :=
  if src <+: p then dst ++ p.drop src.length else p

def moveTree (t : FileTree α) (src dst : Location) : FileTree α :=
  (t.filter fun e => !decide (dst <+: e.1)).map fun e => (relocate src dst e.1, e.2)

private theorem relocate_eq_iff (src dst p q : Location) (hp : ¬dst <+: p) :
    relocate src dst p = q ↔
      if dst <+: q then p = src ++ q.drop dst.length else ¬src <+: q ∧ p = q := by
  unfold relocate
  by_cases hsrc : src <+: p
  · obtain ⟨x, rfl⟩ := hsrc
    simp only [List.prefix_append, if_true, List.drop_left]
    split
    · rename_i hdst
      obtain ⟨y, rfl⟩ := hdst
      simp
    · rename_i hdst
      constructor
      · rintro rfl
        exact absurd (List.prefix_append dst x) hdst
      · rintro ⟨hq, rfl⟩
        exact absurd (List.prefix_append src x) hq
  · rw [if_neg hsrc]
    split
    · rename_i hdst
      constructor
      · rintro rfl
        exact absurd hdst hp
      · intro heq
        exact absurd (heq ▸ List.prefix_append src _) hsrc
    · constructor
      · rintro rfl
        exact ⟨hsrc, rfl⟩
      · rintro ⟨-, heq⟩
        exact heq

private theorem not_prefix_of_apart {src dst : Location} (hnot : ¬src <+: dst)
    (hnot' : ¬dst <+: src) (x : Location) : ¬dst <+: src ++ x := by
  intro hpre
  rcases List.prefix_or_prefix_of_prefix hpre (List.prefix_append src x) with h | h
  · exact hnot' h
  · exact hnot h

private theorem tree_get?_move (t : FileTree α) (src dst q : Location) (hsrc : src ≠ [])
    (hnot : ¬src <+: dst) (hnot' : ¬dst <+: src) :
    (moveTree t src dst).get? q =
      if dst <+: q then t.get? (src ++ q.drop dst.length)
      else if src <+: q then none else t.get? q := by
  have hdst : dst ≠ [] := by
    rintro rfl
    exact hnot' List.nil_prefix
  by_cases hq : q = []
  · subst hq
    simp [FileTree.get?, hsrc, hdst]
  · have hfind : (moveTree t src dst).get? q = t.lookup fun p =>
        !decide (dst <+: p) && decide (relocate src dst p = q) := by
      simp only [FileTree.get?, if_neg hq, moveTree, OrderedDict.lookup, List.find?_map,
        List.find?_filter, Option.map_map]
      have hpred : (fun e : Location × Node α => decide ((!decide (dst <+: e.1)) = true ∧
          ((fun x : Location × Node α => decide (x.1 = q)) ∘
            fun e => (relocate src dst e.1, e.2)) e = true)) =
          fun e => !decide (dst <+: e.1) && decide (relocate src dst e.1 = q) := by
        funext e
        simp
      rw [hpred]
      rfl
    rw [hfind]
    by_cases hdq : dst <+: q
    · have hne : src ++ q.drop dst.length ≠ [] := by simp [hsrc]
      rw [if_pos hdq, FileTree.get?, if_neg hne]
      congr 1
      funext p
      by_cases hp : dst <+: p
      · have hpne : p ≠ src ++ q.drop dst.length := by
          rintro rfl
          exact not_prefix_of_apart hnot hnot' _ hp
        simp [hp, hpne]
      · simp [hp, relocate_eq_iff src dst p q hp, hdq]
    · rw [if_neg hdq]
      by_cases hsq : src <+: q
      · rw [if_pos hsq]
        refine OrderedDict.lookup_eq_none _ t ?_
        intro e _
        by_cases hp : dst <+: e.1
        · simp [hp]
        · simp [hp, relocate_eq_iff src dst e.1 q hp, hdq, hsq]
      · rw [if_neg hsq, FileTree.get?, if_neg hq]
        congr 1
        funext p
        by_cases hp : dst <+: p
        · have hpne : p ≠ q := by
            rintro rfl
            exact hdq hp
          simp [hp, hpne]
        · simp [hp, relocate_eq_iff src dst p q hp, hdq, hsq]

/-- Move an object with everything below it. -/
def move (fs : FileSystem α) (src dst : Location) (h : fs.Movable src dst) : FileSystem α where
  tree := moveTree fs.tree src dst
  closed := by
    intro e he
    obtain ⟨e', he', rfl⟩ := List.mem_map.mp he
    obtain ⟨hmem, hkeep⟩ := List.mem_filter.mp he'
    have hkeep : ¬dst <+: e'.1 := by simpa using hkeep
    have hparent := fs.closed e' hmem
    change ((FileTree.get? _ _).any Node.isDir) = true
    rw [tree_get?_move fs.tree src dst _ h.src_ne h.notBelow h.not_above]
    simp only [relocate]
    by_cases hsrc : src <+: e'.1
    · obtain ⟨x, hx⟩ := hsrc
      simp only [← hx, List.prefix_append, if_true, List.drop_left]
      rw [← hx] at hparent
      by_cases hnil : x = []
      · -- The moved object itself: its new parent is a directory that stays where it is.
        have hout : ¬dst <+: dst.dropLast := by
          intro hpre
          have hlen := hpre.length_le
          have hne : dst ≠ [] := by
            rintro rfl
            exact h.not_above List.nil_prefix
          have hpos := List.length_pos_of_ne_nil hne
          rw [List.length_dropLast] at hlen
          omega
        have hstay : ¬src <+: dst.dropLast := by
          intro hpre
          exact h.notBelow (hpre.trans (List.dropLast_prefix dst))
        simp only [hnil, List.append_nil, if_neg hout, if_neg hstay]
        exact h.parent
      · rw [List.dropLast_append_of_ne_nil hnil] at hparent ⊢
        simp only [List.prefix_append, if_true, List.drop_left]
        exact hparent
    · have hout : ¬dst <+: e'.1.dropLast := by
        intro hpre
        exact hkeep (hpre.trans (List.dropLast_prefix _))
      have hstay : ¬src <+: e'.1.dropLast := by
        intro hpre
        exact hsrc (hpre.trans (List.dropLast_prefix _))
      simp only [if_neg hsrc, if_neg hout, if_neg hstay]
      exact hparent

theorem get?_move (fs : FileSystem α) (src dst q : Location) (h : fs.Movable src dst) :
    (fs.move src dst h).get? q =
      if dst <+: q then fs.get? (src ++ q.drop dst.length)
      else if src <+: q then none else fs.get? q :=
  tree_get?_move fs.tree src dst q h.src_ne h.notBelow h.not_above

/-- Every object of `fs'` was there in `fs` or is one that `P` admits. -/
def Adds (fs fs' : FileSystem α) (P : Location → Node α → Prop) : Prop :=
  ∀ q node, fs'.get? q = some node → fs.get? q = some node ∨ P q node

theorem Adds.refl (fs : FileSystem α) (P : Location → Node α → Prop) : fs.Adds fs P :=
  fun _ _ h => .inl h

theorem Adds.mono {fs fs' : FileSystem α} {P Q : Location → Node α → Prop} (h : fs.Adds fs' P)
    (hPQ : ∀ q node, P q node → Q q node) : fs.Adds fs' Q :=
  fun q node hq => (h q node hq).imp_right (hPQ q node)

theorem Adds.trans {fs fs' fs'' : FileSystem α} {P : Location → Node α → Prop} (h : fs.Adds fs' P)
    (h' : fs'.Adds fs'' P) : fs.Adds fs'' P :=
  fun q node hq => (h' q node hq).elim (h q node) .inr

theorem adds_put (fs : FileSystem α) (p : Location) (node : Node α) (h : fs.Puttable p node) :
    fs.Adds (fs.put p node h) fun q n => q = p ∧ n = node := by
  intro q n hq
  rw [get?_put] at hq
  split at hq
  · rename_i heq
    exact .inr ⟨heq, (Option.some.inj hq).symm⟩
  · exact .inl hq

theorem adds_erase (fs : FileSystem α) (p : Location) (P : Location → Node α → Prop) :
    fs.Adds (fs.erase p) P := by
  intro q node hq
  rw [get?_erase] at hq
  split at hq
  · cases hq
  · exact .inl hq

theorem adds_move (fs : FileSystem α) (src dst : Location) (h : fs.Movable src dst) :
    fs.Adds (fs.move src dst h) fun q node => ∃ x, q = dst ++ x ∧ fs.get? (src ++ x) = some node := by
  intro q node hq
  rw [get?_move] at hq
  split at hq
  · rename_i hpre
    obtain ⟨x, rfl⟩ := hpre
    rw [List.drop_left] at hq
    exact .inr ⟨x, rfl, hq⟩
  · split at hq
    · cases hq
    · exact .inl hq

theorem Resolved.of_adds {fs fs' : FileSystem α} {P : Location → Node α → Prop} {p : Location}
    (hres : fs.Resolved p) (h : fs.Adds fs' P)
    (hlink : ∀ q node, q <+: p → P q node → node.isLink = false) : fs'.Resolved p := by
  refine ⟨?_, hres.noUp⟩
  intro q hq
  cases hnode : fs'.get? q with
  | none => rfl
  | some node =>
      rcases h q node hnode with hold | hnew
      · have hq' := hres.noLink q hq
        rw [hold] at hq'
        exact hq'
      · simpa using hlink q node hq hnew

section Removal

variable {fs fs' : FileSystem α} (hsub : ∀ q node, fs'.get? q = some node → fs.get? q = some node)

include hsub

theorem walk_of_sub (n : Nat) (cur l : Location) (p : List String) (h : fs'.walk n cur p = some l) :
    fs.walk n cur p = some l := by
  have hdirs : ∀ q, fs'.isDirAt q = true → fs.isDirAt q = true := fun q hdir =>
    (fs.isDirAt_eq_true q).mpr (hsub q _ ((fs'.isDirAt_eq_true q).mp hdir))
  rw [walk_eq_some] at h ⊢
  induction h with
  | done n => exact .done n
  | up hdir _ ih => exact .up (hdirs _ hdir) ih
  | link hdir hup hnode _ ih => exact .link (hdirs _ hdir) hup (hsub _ _ hnode) ih
  | name hdir hup hnode hlink _ ih => exact .name (hdirs _ hdir) hup (hsub _ _ hnode) hlink ih

theorem locate_of_sub (lim : LinkLimits) (p : List String) (l : Location) (node : Node α)
    (h : fs'.locate lim p = some (l, node)) : fs.locate lim p = some (l, node) := by
  unfold locate at h ⊢
  obtain ⟨l', hl', hnode⟩ := Option.bind_eq_some_iff.mp h
  obtain ⟨node', hnode', heq⟩ := Option.map_eq_some_iff.mp hnode
  cases heq
  rw [walk_of_sub hsub _ _ _ _ hl', Option.bind_some, hsub _ _ hnode']
  rfl

theorem locateEntry_of_sub (lim : LinkLimits) (p : List String) (e : Location)
    (h : fs'.locateEntry lim p = some e) : fs.locateEntry lim p = some e := by
  unfold locateEntry at h ⊢
  cases hlast : p.getLast? with
  | none =>
      rw [hlast] at h
      exact h
  | some c =>
      simp only [hlast] at h ⊢
      by_cases hup : c = ".."
      · simp [hup] at h
      · rw [if_neg hup] at h ⊢
        obtain ⟨d, hd, hentry⟩ := Option.bind_eq_some_iff.mp h
        rw [walk_of_sub hsub _ _ _ _ hd, Option.bind_some]
        cases hdir : fs'.isDirAt d with
        | false => simp [hdir] at hentry
        | true =>
            rw [(fs.isDirAt_eq_true d).mpr (hsub d _ ((fs'.isDirAt_eq_true d).mp hdir)), if_pos rfl]
            rw [hdir, if_pos rfl] at hentry
            exact hentry

end Removal

end FileSystem
