import Mathlib.Data.List.Perm.Subperm
import Mathlib.Logic.Relation

/-!
# Searching a graph with a worklist

A search that keeps what it has found and a frontier of what it has yet to look at, one node after
another. The nodes are looked at one by one, so that somebody else may change the graph in between;
what the search knows is stated for the graph as it is now.
-/

namespace Worklist

variable {α : Type*}

/-- The top of the frontier comes first. -/
structure Walk (α : Type*) where
  descendants : List α
  frontier : List α
deriving DecidableEq

/-- What one node adds: those of its children that have not been found yet. -/
def Walk.visit [DecidableEq α] (walk : Walk α) (children : List α) : Walk α :=
  children.foldl (fun walk child =>
    if child ∈ walk.descendants then walk
    else ⟨child :: walk.descendants, child :: walk.frontier⟩) walk

/-- A search from `root` that is about to look at `current`, in the graph `child`. -/
structure Explores (child : α → α → Prop) (root current : α) (walk : Walk α) : Prop where
  sound : ∀ x ∈ walk.descendants, Relation.TransGen child root x
  source : current = root ∨ current ∈ walk.descendants
  frontier : ∀ x ∈ walk.frontier, x ∈ walk.descendants
  closed : ∀ x, x = root ∨ x ∈ walk.descendants → x = current ∨ x ∈ walk.frontier ∨
    ∀ y, child x y → y ∈ walk.descendants

/-- What has been looked at is closed under the edges: the end of each of them has been found. -/
def Closed (edge : α → α → Prop) (root current : α) (walk : Walk α) : Prop :=
  ∀ x, x = root ∨ x ∈ walk.descendants → x = current ∨ x ∈ walk.frontier ∨ ∀ y, edge x y → y ∈ walk.descendants

theorem closed_start (edge : α → α → Prop) (root : α) : Closed edge root root ⟨[], []⟩ := by
  intro x hx
  exact .inl (hx.resolve_right (by simp))

theorem explores_start (child : α → α → Prop) (root : α) : Explores child root root ⟨[], []⟩ where
  sound := by simp
  source := .inl rfl
  frontier := by simp
  closed := closed_start child root

theorem visit_spec [DecidableEq α] (children : List α) (walk : Walk α) :
    (∀ x, x ∈ (walk.visit children).descendants ↔ x ∈ walk.descendants ∨ x ∈ children) ∧
    (∀ x, x ∈ (walk.visit children).frontier ↔
      x ∈ walk.frontier ∨ (x ∈ children ∧ x ∉ walk.descendants)) := by
  induction children generalizing walk with
  | nil => simp [Walk.visit]
  | cons c cs ih =>
      have hstep : walk.visit (c :: cs) =
          (if c ∈ walk.descendants then walk
            else ⟨c :: walk.descendants, c :: walk.frontier⟩ : Walk α).visit cs := rfl
      rw [hstep]
      by_cases hc : c ∈ walk.descendants
      · rw [if_pos hc]
        obtain ⟨hfound, hfrontier⟩ := ih walk
        refine ⟨?_, ?_⟩
        · intro x
          rw [hfound, List.mem_cons]
          constructor
          · rintro (hx | hx)
            · exact .inl hx
            · exact .inr (.inr hx)
          · rintro (hx | rfl | hx)
            · exact .inl hx
            · exact .inl hc
            · exact .inr hx
        · intro x
          rw [hfrontier, List.mem_cons]
          constructor
          · rintro (hx | ⟨hx, hnew⟩)
            · exact .inl hx
            · exact .inr ⟨.inr hx, hnew⟩
          · rintro (hx | ⟨rfl | hx, hnew⟩)
            · exact .inl hx
            · exact absurd hc hnew
            · exact .inr ⟨hx, hnew⟩
      · rw [if_neg hc]
        obtain ⟨hfound, hfrontier⟩ := ih ⟨c :: walk.descendants, c :: walk.frontier⟩
        refine ⟨?_, ?_⟩
        · intro x
          rw [hfound, List.mem_cons, List.mem_cons, or_assoc, or_left_comm]
        · intro x
          rw [hfrontier, List.mem_cons, List.mem_cons, List.mem_cons]
          by_cases hx : x = c
          · subst hx
            simp [hc]
          · simp [hx]

theorem Closed.visit [DecidableEq α] {edge : α → α → Prop} {root current : α} {walk : Walk α} {children : List α}
    (h : Closed edge root current walk) (hchildren : ∀ y, edge current y → y ∈ children) :
    ∀ x, x = root ∨ x ∈ (walk.visit children).descendants →
      x ∈ (walk.visit children).frontier ∨ ∀ y, edge x y → y ∈ (walk.visit children).descendants := by
  obtain ⟨hfound, hin⟩ := visit_spec children walk
  intro x hx
  by_cases hold : x = root ∨ x ∈ walk.descendants
  · rcases h x hold with rfl | hwaiting | hdone
    · right
      intro y hy
      exact (hfound y).mpr (.inr (hchildren y hy))
    · exact .inl ((hin x).mpr (.inl hwaiting))
    · right
      intro y hy
      exact (hfound y).mpr (.inl (hdone y hy))
  · obtain ⟨hne, hnew⟩ := not_or.mp hold
    have hchild : x ∈ children := ((hfound x).mp (hx.resolve_left hne)).resolve_left hnew
    exact .inl ((hin x).mpr (.inr ⟨hchild, hnew⟩))

theorem Closed.next [DecidableEq α] {edge : α → α → Prop} {root current next : α} {walk : Walk α}
    {rest children : List α} (h : Closed edge root current walk) (hchildren : ∀ y, edge current y → y ∈ children)
    (hfrontier : (walk.visit children).frontier = next :: rest) :
    Closed edge root next { walk.visit children with frontier := rest } := by
  intro x hx
  have hmem := h.visit hchildren x hx
  rw [hfrontier, List.mem_cons] at hmem
  exact or_assoc.mp hmem

theorem Closed.complete [DecidableEq α] {edge : α → α → Prop} {root current : α} {walk : Walk α} {children : List α}
    (h : Closed edge root current walk) (hchildren : ∀ y, edge current y → y ∈ children)
    (hfrontier : (walk.visit children).frontier = []) (x y : α)
    (hx : x = root ∨ x ∈ (walk.visit children).descendants) (hxy : edge x y) :
    y ∈ (walk.visit children).descendants := by
  rcases h.visit hchildren x hx with hwaiting | hdone
  · simp [hfrontier] at hwaiting
  · exact hdone y hxy

theorem Explores.next [DecidableEq α] {child : α → α → Prop} {root current next : α} {walk : Walk α}
    {rest children : List α} (h : Explores child root current walk)
    (hchildren : ∀ y, y ∈ children ↔ child current y)
    (hfrontier : (walk.visit children).frontier = next :: rest) :
    Explores child root next { walk.visit children with frontier := rest } := by
  obtain ⟨hfound, hin⟩ := visit_spec children walk
  have hroot : ∀ y, child current y → Relation.TransGen child root y := by
    intro y hy
    rcases h.source with rfl | hcurrent
    · exact Relation.TransGen.single hy
    · exact (h.sound current hcurrent).tail hy
  have hsub : ∀ x ∈ next :: rest, x ∈ (walk.visit children).descendants := by
    intro x hx
    rw [← hfrontier, hin] at hx
    rw [hfound]
    rcases hx with hold | ⟨hnew, -⟩
    · exact .inl (h.frontier x hold)
    · exact .inr hnew
  refine ⟨?_, .inr (hsub next List.mem_cons_self), ?_, ?_⟩
  · intro x hx
    rcases (hfound x).mp hx with hold | hnew
    · exact h.sound x hold
    · exact hroot x ((hchildren x).mp hnew)
  · intro x hx
    exact hsub x (List.mem_cons_of_mem next hx)
  · exact Closed.next h.closed (fun y => (hchildren y).mpr) hfrontier

theorem Explores.complete [DecidableEq α] {child : α → α → Prop} {root current : α} {walk : Walk α}
    {children : List α} (h : Explores child root current walk)
    (hchildren : ∀ y, y ∈ children ↔ child current y) (hfrontier : (walk.visit children).frontier = [])
    (x : α) : x ∈ (walk.visit children).descendants ↔ Relation.TransGen child root x := by
  obtain ⟨hfound, -⟩ := visit_spec children walk
  have hclosed := Closed.complete h.closed (fun y => (hchildren y).mpr) hfrontier
  constructor
  · intro hx
    rcases (hfound x).mp hx with hold | hnew
    · exact h.sound x hold
    · have hchild := (hchildren x).mp hnew
      rcases h.source with rfl | hcurrent
      · exact Relation.TransGen.single hchild
      · exact (h.sound current hcurrent).tail hchild
  · intro hx
    induction hx with
    | single hchild => exact hclosed root _ (.inl rfl) hchild
    | tail _ hchild ih => exact hclosed _ _ (.inr ih) hchild

/-- The search in one go, from the node that is looked at next; `none` if the bound on the nodes is too small. -/
def search [DecidableEq α] (children : α → List α) : Nat → α → Walk α → Option (List α)
  | 0, _, _ => none
  | bound + 1, current, walk =>
      match (walk.visit (children current)).frontier with
      | next :: rest => search children bound next { walk.visit (children current) with frontier := rest }
      | [] => some (walk.visit (children current)).descendants

theorem visit_counts [DecidableEq α] (nodes children : List α) (walk : Walk α) (hnodup : walk.descendants.Nodup)
    (hnodes : ∀ x ∈ walk.descendants, x ∈ nodes) (hchildren : ∀ x ∈ children, x ∈ nodes) :
    (walk.visit children).descendants.Nodup ∧ (∀ x ∈ (walk.visit children).descendants, x ∈ nodes) ∧
      (walk.visit children).frontier.length + walk.descendants.length =
        walk.frontier.length + (walk.visit children).descendants.length := by
  induction children generalizing walk with
  | nil => exact ⟨hnodup, hnodes, rfl⟩
  | cons c cs ih =>
      have hrest : ∀ x ∈ cs, x ∈ nodes := fun x hx => hchildren x (List.mem_cons_of_mem c hx)
      by_cases hc : c ∈ walk.descendants
      · have hstep : walk.visit (c :: cs) = walk.visit cs := by
          unfold Walk.visit
          rw [List.foldl_cons, if_pos hc]
        rw [hstep]
        exact ih walk hnodup hnodes hrest
      · have hstep : walk.visit (c :: cs) =
            (⟨c :: walk.descendants, c :: walk.frontier⟩ : Walk α).visit cs := by
          unfold Walk.visit
          rw [List.foldl_cons, if_neg hc]
        obtain ⟨hnodup', hnodes', hlength⟩ := ih ⟨c :: walk.descendants, c :: walk.frontier⟩
          (List.nodup_cons.mpr ⟨hc, hnodup⟩)
          (List.forall_mem_cons.mpr ⟨hchildren c List.mem_cons_self, hnodes⟩) hrest
        rw [hstep]
        refine ⟨hnodup', hnodes', ?_⟩
        simp only [List.length_cons] at hlength
        omega

/-- The search of a finite graph ends, with the nodes that are reached from its root: by induction on the bound, which
covers the frontier and the nodes that were not found yet. -/
theorem search_exact [DecidableEq α] {child : α → α → Prop} {children : α → List α} {nodes : List α} {root : α}
    (hchildren : ∀ x y, y ∈ children x ↔ child x y) (hnodes : ∀ x y, child x y → y ∈ nodes) (bound : Nat)
    (current : α) (walk : Walk α) (h : Explores child root current walk) (hnodup : walk.descendants.Nodup)
    (hknown : ∀ x ∈ walk.descendants, x ∈ nodes)
    (hbound : walk.frontier.length + nodes.length < bound + walk.descendants.length) :
    ∃ found, search children bound current walk = some found ∧
      ∀ x, x ∈ found ↔ Relation.TransGen child root x := by
  induction bound generalizing current walk with
  | zero =>
      have hlen := (List.subperm_of_subset hnodup hknown).length_le
      omega
  | succ bound ih =>
      obtain ⟨hnodup', hknown', hlength⟩ := visit_counts nodes (children current) walk hnodup hknown
        fun x hx => hnodes current x ((hchildren current x).mp hx)
      rw [search]
      cases hfrontier : (walk.visit (children current)).frontier with
      | nil => exact ⟨_, rfl, h.complete (hchildren current) hfrontier⟩
      | cons next rest =>
          refine ih next _ (h.next (hchildren current) hfrontier) hnodup' hknown' ?_
          rw [hfrontier, List.length_cons] at hlength
          simp only
          omega

theorem transGen_insertEdge {r r' : α → α → Prop} {a b : α} (hedge : ∀ x y, r' x y → r x y ∨ (x = a ∧ y = b))
    {x y : α} (h : Relation.TransGen r' x y) :
    Relation.TransGen r x y ∨ (Relation.ReflTransGen r x a ∧ Relation.ReflTransGen r b y) := by
  induction h with
  | single hxy =>
      rcases hedge _ _ hxy with hold | ⟨rfl, rfl⟩
      · exact .inl (Relation.TransGen.single hold)
      · exact .inr ⟨.refl, .refl⟩
  | tail _ hyz ih =>
      rcases hedge _ _ hyz with hold | ⟨rfl, rfl⟩
      · rcases ih with hxy | ⟨hxa, hby⟩
        · exact .inl (hxy.tail hold)
        · exact .inr ⟨hxa, hby.tail hold⟩
      · rcases ih with hxy | ⟨hxa, -⟩
        · exact .inr ⟨hxy.to_reflTransGen, .refl⟩
        · exact .inr ⟨hxa, .refl⟩

/-- One edge more does not close a cycle unless its end leads back to its beginning. -/
theorem acyclic_insertEdge {r r' : α → α → Prop} {a b : α}
    (hedge : ∀ x y, r' x y → r x y ∨ (x = a ∧ y = b)) (hacyclic : ∀ x, ¬ Relation.TransGen r x x)
    (hback : ¬ Relation.ReflTransGen r b a) (x : α) : ¬ Relation.TransGen r' x x := by
  intro h
  rcases transGen_insertEdge hedge h with hold | ⟨hxa, hbx⟩
  · exact hacyclic x hold
  · exact hback (hbx.trans hxa)

/-- The edge lies on a way from `root` to `goal`. -/
def OnWay (child : α → α → Prop) (root goal x y : α) : Prop :=
  Relation.ReflTransGen child root x ∧ child x y ∧ Relation.ReflTransGen child y goal

theorem onWay_mono {r r' : α → α → Prop} {root goal : α} (h : ∀ x y, OnWay r' root goal x y → r x y) {x y : α}
    (hxy : OnWay r' root goal x y) : OnWay r root goal x y := by
  obtain ⟨hbefore, hedge, hafter⟩ := hxy
  have hto : ∀ z, Relation.ReflTransGen r' root z → Relation.ReflTransGen r' z goal →
      Relation.ReflTransGen r root z := by
    intro z hz hgoal
    induction hz with
    | refl => exact .refl
    | tail hroot hlast ih => exact (ih (hgoal.head hlast)).tail (h _ _ ⟨hroot, hlast, hgoal⟩)
  have hfrom : ∀ z, Relation.ReflTransGen r' z goal → Relation.ReflTransGen r' root z →
      Relation.ReflTransGen r z goal := by
    intro z hz hroot
    induction hz using Relation.ReflTransGen.head_induction_on with
    | refl => exact .refl
    | head hfirst hgoal ih => exact (ih (hroot.tail hfirst)).head (h _ _ ⟨hroot, hfirst, hgoal⟩)
  exact ⟨hto x hbefore (hafter.head hedge), h x y ⟨hbefore, hedge, hafter⟩, hfrom y hafter (hbefore.tail hedge)⟩

/-- One edge more lies on no way if its beginning is not reached, or does not lead on from its end. -/
theorem onWay_insertEdge {r r' : α → α → Prop} {a b root goal : α}
    (hedge : ∀ x y, r' x y → r x y ∨ (x = a ∧ y = b))
    (hoff : ¬(Relation.ReflTransGen r root a ∧ Relation.ReflTransGen r b goal)) (x y : α)
    (h : OnWay r' root goal x y) : r x y := by
  obtain ⟨hbefore, hxy, hafter⟩ := h
  rcases hedge x y hxy with hold | ⟨rfl, rfl⟩
  · exact hold
  · exfalso
    apply hoff
    constructor
    · rcases Relation.reflTransGen_iff_eq_or_transGen.mp hbefore with rfl | hpath
      · exact .refl
      · rcases transGen_insertEdge hedge hpath with hold | ⟨hroot, -⟩
        · exact hold.to_reflTransGen
        · exact hroot
    · rcases Relation.reflTransGen_iff_eq_or_transGen.mp hafter with rfl | hpath
      · exact .refl
      · rcases transGen_insertEdge hedge hpath with hold | ⟨-, hgoal⟩
        · exact hold.to_reflTransGen
        · exact hgoal

theorem Closed.mono {edge edge' : α → α → Prop} {root current : α} {walk : Walk α} (h : Closed edge root current walk)
    (hsub : ∀ x y, edge' x y → edge x y) : Closed edge' root current walk := by
  intro x hx
  rcases h x hx with hcurrent | hwaiting | hdone
  · exact .inl hcurrent
  · exact .inr (.inl hwaiting)
  · exact .inr (.inr fun y hy => hdone y (hsub x y hy))

/-- A search that has followed every way to the goal, as the ways are at its end, has found the goal if there is one. -/
theorem Closed.mem_of_way [DecidableEq α] {child : α → α → Prop} {root goal current : α} {walk : Walk α}
    {children : List α} (h : Closed (OnWay child root goal) root current walk)
    (hchildren : ∀ y, child current y → y ∈ children) (hfrontier : (walk.visit children).frontier = [])
    (hway : Relation.TransGen child root goal) : goal ∈ (walk.visit children).descendants := by
  have hclosed := h.complete (fun y hy => hchildren y hy.2.1) hfrontier
  have hfound : ∀ z, Relation.TransGen child root z → Relation.ReflTransGen child z goal →
      z ∈ (walk.visit children).descendants := by
    intro z hz hgoal
    induction hz with
    | single hedge => exact hclosed root _ (.inl rfl) ⟨.refl, hedge, hgoal⟩
    | tail hpath hedge ih =>
        exact hclosed _ _ (.inr (ih (hgoal.head hedge))) ⟨hpath.to_reflTransGen, hedge, hgoal⟩
  exact hfound goal hway .refl

end Worklist
