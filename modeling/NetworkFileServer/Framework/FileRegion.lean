import NetworkFileServer.Framework.FileM

/-!
# Programs that stay in a region

A region is what is at and below a directory, without links. A program stays in a region when it leaves
everything else as it is, and when its result and what it leaves in the region follow from the region alone.
The rules compose such programs.
-/

namespace OrderedDict

variable {κ ν : Type*}

theorem filter_set [DecidableEq κ] (keep : κ → Bool) (d : OrderedDict κ ν) (k : κ) (v : ν) :
    (d.set k v).filter (fun e => keep e.1) =
      if keep k then (OrderedDict.set (d.filter fun e => keep e.1) k v) else d.filter fun e => keep e.1 := by
  induction d with
  | nil => cases hk : keep k <;> simp [set, hk]
  | cons e d ih =>
      obtain ⟨k', v'⟩ := e
      by_cases hkey : k' = k
      · subst hkey
        cases hk : keep k' <;> simp [set, hk]
      · cases hk' : keep k'
        · simp only [set, if_neg hkey, List.filter_cons, hk', Bool.false_eq_true, if_false, ih]
        · simp only [set, if_neg hkey, List.filter_cons, hk', if_true, ih]
          split
          · rfl
          · rfl

end OrderedDict

namespace FileSystem

variable {α : Type*} {fs fs' fs'' : FileSystem α} {base p q : Location}

/-- The part of the tree at and below a location. -/
def inside (fs : FileSystem α) (base : Location) : FileTree α := fs.tree.filter fun e => decide (base <+: e.1)

/-- The rest of the tree. -/
def outside (fs : FileSystem α) (base : Location) : FileTree α := fs.tree.filter fun e => !decide (base <+: e.1)

/-- The same links, with the same targets. -/
def SameLinks (fs fs' : FileSystem α) : Prop :=
  ∀ q target, fs.get? q = some (.link target) ↔ fs'.get? q = some (.link target)

/-- A place in a directory, with no link at or below it, nor on the way to it. -/
structure Region (fs : FileSystem α) (base : Location) : Prop where
  ne_root : base ≠ []
  parent : fs.isDirAt base.dropLast = true
  resolved : fs.Resolved base
  noLink : ∀ q, base <+: q → (fs.get? q).any Node.isLink = false

/-- Two file systems that cannot be told apart in a region. -/
structure AgreeOn (fs fs' : FileSystem α) (base : Location) : Prop where
  region : fs.Region base
  region' : fs'.Region base
  links : fs.SameLinks fs'
  inside : fs.inside base = fs'.inside base

theorem SameLinks.refl (fs : FileSystem α) : fs.SameLinks fs := fun _ _ => Iff.rfl

theorem SameLinks.symm (h : fs.SameLinks fs') : fs'.SameLinks fs := fun q target => (h q target).symm

theorem SameLinks.trans (h : fs.SameLinks fs') (h' : fs'.SameLinks fs'') : fs.SameLinks fs'' :=
  fun q target => (h q target).trans (h' q target)

theorem SameLinks.any_isLink (h : fs.SameLinks fs') (q : Location) :
    (fs.get? q).any Node.isLink = (fs'.get? q).any Node.isLink := by
  have hlink : ∀ fs : FileSystem α, (fs.get? q).any Node.isLink = true ↔
      ∃ target, fs.get? q = some (.link target) := by
    intro fs
    cases hnode : fs.get? q with
    | none => simp
    | some node => cases node <;> simp [Node.isLink]
  rw [Bool.eq_iff_iff, hlink, hlink]
  exact exists_congr fun target => h q target

theorem SameLinks.resolved (h : fs.SameLinks fs') (hres : fs.Resolved p) : fs'.Resolved p :=
  ⟨fun q hq => by rw [← h.any_isLink]; exact hres.noLink q hq, hres.noUp⟩

theorem SameLinks.resolvesTo (h : fs.SameLinks fs') {l cur : Location} {n : Nat} {p : List String}
    (hto : fs.ResolvesTo l n cur p) : fs'.ResolvesTo l n cur p := by
  induction hto with
  | done n => exact .done n
  | up _ ih => exact .up ih
  | link hup hnode _ ih => exact .link hup ((h _ _).mp hnode) ih
  | name hup hlink _ ih =>
      rw [h.any_isLink] at hlink
      exact .name hup hlink ih

theorem SameLinks.resolve (h : fs.SameLinks fs') (lim : LinkLimits) (p : List String) :
    fs.resolve lim p = fs'.resolve lim p := by
  apply Option.ext
  intro l
  change fs.realWalk lim.realpath [] p = some l ↔ fs'.realWalk lim.realpath [] p = some l
  rw [realWalk_eq_some, realWalk_eq_some]
  exact ⟨h.resolvesTo, h.symm.resolvesTo⟩

theorem Region.of_sameLinks (h : fs.Region base) (hlinks : fs.SameLinks fs')
    (hparent : fs'.isDirAt base.dropLast = true) : fs'.Region base where
  ne_root := h.ne_root
  parent := hparent
  resolved := hlinks.resolved h.resolved
  noLink := fun q hq => by rw [← hlinks.any_isLink]; exact h.noLink q hq

theorem Region.resolved_below (h : fs.Region base) (hin : base <+: p) (hup : ".." ∉ p) : fs.Resolved p := by
  refine ⟨?_, hup⟩
  intro q hq
  rcases List.prefix_or_prefix_of_prefix hq hin with hbefore | hafter
  · exact h.resolved.noLink q hbefore
  · exact h.noLink q hafter

theorem AgreeOn.symm (h : fs.AgreeOn fs' base) : fs'.AgreeOn fs base :=
  ⟨h.region', h.region, h.links.symm, h.inside.symm⟩

theorem AgreeOn.refl (h : fs.Region base) : fs.AgreeOn fs base := ⟨h, h, SameLinks.refl fs, rfl⟩

theorem AgreeOn.trans (h : fs.AgreeOn fs' base) (h' : fs'.AgreeOn fs'' base) : fs.AgreeOn fs'' base :=
  ⟨h.region, h'.region', h.links.trans h'.links, h.inside.trans h'.inside⟩

theorem noLink_of_tree (h : ∀ e ∈ fs.tree, e.2.isLink = false) (q : Location) :
    (fs.get? q).any Node.isLink = false := by
  by_cases hq : q = []
  · rw [hq]
    rfl
  · unfold get? FileTree.get?
    rw [if_neg hq]
    cases hnode : OrderedDict.lookup (fun k => decide (k = q)) fs.tree with
    | none => rfl
    | some node => exact h (q, node) (OrderedDict.mem_of_lookup fs.tree q node hnode)

theorem get?_inside (hbase : base ≠ []) (hq : base <+: q) : fs.get? q = (fs.inside base).get? q := by
  have hne : q ≠ [] := by
    rintro rfl
    exact hbase (List.prefix_nil.mp hq)
  unfold get? FileTree.get? inside
  have hfilter := OrderedDict.lookup_filter fs.tree (fun k => decide (base <+: k)) fun k => decide (k = q)
  rw [if_neg hne, if_neg hne, hfilter]
  congr 1
  funext k
  by_cases hk : k = q
  · simp [hk, hq]
  · simp [hk]

theorem AgreeOn.get? (h : fs.AgreeOn fs' base) (hq : base <+: q) : fs.get? q = fs'.get? q := by
  rw [get?_inside h.region.ne_root hq, get?_inside h.region.ne_root hq, h.inside]

theorem AgreeOn.isDirAt (h : fs.AgreeOn fs' base) (hq : base <+: q) : fs.isDirAt q = fs'.isDirAt q := by
  change (fs.get? q).any Node.isDir = (fs'.get? q).any Node.isDir
  rw [h.get? hq]

theorem AgreeOn.isDirAt_dropLast (h : fs.AgreeOn fs' base) (hp : base <+: p) :
    fs.isDirAt p.dropLast = fs'.isDirAt p.dropLast := by
  obtain ⟨x, rfl⟩ := hp
  rcases List.eq_nil_or_concat x with rfl | ⟨y, c, rfl⟩
  · rw [List.append_nil, h.region.parent, h.region'.parent]
  · rw [List.concat_eq_append, ← List.append_assoc, List.dropLast_concat]
    exact h.isDirAt (List.prefix_append base y)

theorem names_inside (hp : base <+: p) : fs.names p = (fs.inside base).filterMap fun e =>
    e.1.getLast?.filter fun n => decide (e.1 = p ++ [n] ∧ ProperName n) := by
  unfold names inside
  induction fs.tree with
  | nil => rfl
  | cons e t ih =>
      obtain ⟨k, node⟩ := e
      by_cases hk : base <+: k
      · simp only [List.filterMap_cons, List.filter_cons, hk, decide_true, if_true]
        rw [ih]
      · have hnone : (k.getLast?.filter fun n => decide (k = p ++ [n] ∧ ProperName n)) = none := by
          rw [Option.filter_eq_none_iff]
          intro n _ hn
          have hk' : k = p ++ [n] := (decide_eq_true_eq.mp hn).1
          exact hk (hk' ▸ hp.trans (List.prefix_append p [n]))
        simp only [List.filterMap_cons, List.filter_cons, hk, decide_false, Bool.false_eq_true, if_false, hnone]
        exact ih

theorem AgreeOn.names (h : fs.AgreeOn fs' base) (hp : base <+: p) : fs.names p = fs'.names p := by
  rw [names_inside hp, names_inside hp, h.inside]

theorem get?_outside (hq : ¬base <+: q) : fs.get? q = (fs.outside base).get? q := by
  unfold get? FileTree.get? outside
  have hfilter := OrderedDict.lookup_filter fs.tree (fun k => !decide (base <+: k)) fun k => decide (k = q)
  rw [hfilter]
  congr 2
  funext k
  by_cases hk : k = q
  · simp [hk, hq]
  · simp [hk]

theorem get?_of_outside (h : fs'.outside base = fs.outside base) (hq : ¬base <+: q) :
    fs'.get? q = fs.get? q := by
  rw [get?_outside hq, get?_outside hq, h]

theorem Region.of_outside (h : fs.Region base) (hlinks : fs.SameLinks fs')
    (hsame : fs'.outside base = fs.outside base) : fs'.Region base := by
  apply h.of_sameLinks hlinks
  have hnot : ¬base <+: base.dropLast := by
    intro hpre
    have hlen := hpre.length_le
    have hpos := List.length_pos_iff.mpr h.ne_root
    rw [List.length_dropLast] at hlen
    omega
  change (fs'.get? _).any Node.isDir = true
  rw [get?_of_outside hsame hnot]
  exact h.parent

theorem inside_of_outside {other : Location} (h : fs'.outside base = fs.outside base)
    (hapart : ∀ q, other <+: q → ¬base <+: q) : fs'.inside other = fs.inside other := by
  have hfilter : ∀ fs : FileSystem α, fs.inside other =
      (fs.outside base).filter fun e => decide (other <+: e.1) := by
    intro fs
    unfold inside outside
    rw [List.filter_filter]
    apply List.filter_congr
    intro e _
    by_cases hin : other <+: e.1
    · simp [hin, hapart _ hin]
    · simp [hin]
  rw [hfilter, hfilter, h]

section Updates

variable (hp : base <+: p)

include hp

theorem outside_put (node : Node α) (h : fs.Puttable p node) :
    (fs.put p node h).outside base = fs.outside base := by
  change List.filter (fun e => (fun k => !decide (base <+: k)) e.1) (OrderedDict.set fs.tree p node) = _
  rw [OrderedDict.filter_set (fun k => !decide (base <+: k)), if_neg (by simp [hp])]
  rfl

theorem inside_put (node : Node α) (h : fs.Puttable p node) :
    (fs.put p node h).inside base = OrderedDict.set (fs.inside base) p node := by
  change List.filter (fun e => (fun k => decide (base <+: k)) e.1) (OrderedDict.set fs.tree p node) = _
  rw [OrderedDict.filter_set (fun k => decide (base <+: k)), if_pos (by simp [hp])]
  rfl

theorem outside_erase : (fs.erase p).outside base = fs.outside base := by
  change List.filter _ (List.filter _ _) = List.filter _ _
  rw [List.filter_filter]
  apply List.filter_congr
  intro e _
  by_cases hin : base <+: e.1
  · simp [hin]
  · have hnot : ¬p <+: e.1 := fun hpre => hin (hp.trans hpre)
    simp [hin, hnot]

omit hp in
theorem inside_erase : (fs.erase p).inside base = (fs.inside base).filter fun e => !decide (p <+: e.1) := by
  change List.filter _ (List.filter _ _) = List.filter _ (List.filter _ _)
  rw [List.filter_filter, List.filter_filter]
  apply List.filter_congr
  intro e _
  rw [Bool.and_comm]

end Updates

theorem base_prefix_relocate {src dst k : Location} (hsrc : base <+: src) (hdst : base <+: dst) :
    base <+: relocate src dst k ↔ base <+: k := by
  unfold relocate
  split
  · rename_i hpre
    exact iff_of_true (hdst.trans (List.prefix_append _ _)) (hsrc.trans hpre)
  · rfl

theorem outside_move {src dst : Location} (h : fs.Movable src dst) (hsrc : base <+: src)
    (hdst : base <+: dst) : (fs.move src dst h).outside base = fs.outside base := by
  change List.filter _ (List.map _ (List.filter _ _)) = _
  unfold outside
  rw [List.filter_map, List.filter_filter]
  have hsame : List.filter (fun e : Location × Node α => ((fun e : Location × Node α =>
      !decide (base <+: e.1)) ∘ fun e => (relocate src dst e.1, e.2)) e && !decide (dst <+: e.1)) fs.tree =
      List.filter (fun e => !decide (base <+: e.1)) fs.tree := by
    apply List.filter_congr
    intro e _
    simp only [Function.comp_apply, base_prefix_relocate hsrc hdst]
    by_cases hin : base <+: e.1
    · simp [hin]
    · have hnot : ¬dst <+: e.1 := fun hpre => hin (hdst.trans hpre)
      simp [hin, hnot]
  rw [hsame]
  refine (List.map_congr_left ?_).trans (List.map_id _)
  intro e he
  have hnot : ¬src <+: e.1 := by
    intro hpre
    have hout := (List.mem_filter.mp he).2
    simp [hsrc.trans hpre] at hout
  simp only [relocate, if_neg hnot, id]

theorem inside_move {src dst : Location} (h : fs.Movable src dst) (hsrc : base <+: src)
    (hdst : base <+: dst) : (fs.move src dst h).inside base = moveTree (fs.inside base) src dst := by
  change List.filter _ (List.map _ (List.filter _ _)) = List.map _ (List.filter _ (List.filter _ _))
  rw [List.filter_map, List.filter_filter, List.filter_filter]
  congr 1
  apply List.filter_congr
  intro e _
  simp only [Function.comp_apply, base_prefix_relocate hsrc hdst]
  rw [Bool.and_comm]

theorem Region.not_link (h : fs.Region base) (hp : base <+: p) (target : PurePath) :
    fs.get? p ≠ some (.link target) := by
  intro hnode
  have hlink := h.noLink p hp
  rw [hnode] at hlink
  cases hlink

theorem Region.sameLinks (h : fs.Region base)
    (hsame : ∀ q, ¬base <+: q → fs'.get? q = fs.get? q)
    (hnone : ∀ q target, base <+: q → fs'.get? q ≠ some (.link target)) : fs.SameLinks fs' := by
  intro q target
  by_cases hq : base <+: q
  · exact iff_of_false (h.not_link hq target) (hnone q target hq)
  · rw [hsame q hq]

theorem Region.sameLinks_put (h : fs.Region base) (hp : base <+: p) {node : Node α}
    (hput : fs.Puttable p node) (hnode : node.isLink = false) : fs.SameLinks (fs.put p node hput) := by
  apply h.sameLinks
  · intro q hq
    rw [get?_put, if_neg]
    rintro rfl
    exact hq hp
  · intro q target hq
    rw [get?_put]
    split
    · rintro heq
      rw [Option.some.inj heq] at hnode
      cases hnode
    · exact h.not_link hq target

theorem Region.sameLinks_erase (h : fs.Region base) (hp : base <+: p) : fs.SameLinks (fs.erase p) := by
  apply h.sameLinks
  · intro q hq
    rw [get?_erase, if_neg fun hpre => hq (hp.trans hpre.1)]
  · intro q target hq
    rw [get?_erase]
    split
    · simp
    · exact h.not_link hq target

theorem Region.sameLinks_move (h : fs.Region base) {src dst : Location} (hmove : fs.Movable src dst)
    (hsrc : base <+: src) (hdst : base <+: dst) : fs.SameLinks (fs.move src dst hmove) := by
  apply h.sameLinks
  · intro q hq
    rw [get?_move, if_neg fun hpre => hq (hdst.trans hpre), if_neg fun hpre => hq (hsrc.trans hpre)]
  · intro q target hq
    rw [get?_move]
    split
    · exact h.not_link (hsrc.trans (List.prefix_append _ _)) target
    · split
      · simp
      · exact h.not_link hq target

end FileSystem
