import Mathlib.Logic.Relation
import Mathlib.Data.List.Perm.Subperm
import NetworkFileServer.Relay.AccessPolicy

/-!
# Groups of a user

The membership table of the account store and `accounts/resolve.py`, the search for all groups that
contain a user. The search adds a group to `acc` before it looks at the group's own parents, so its
depth is bounded by the number of memberships. The first argument of the search is the number of calls that may
be in one another; `resolveUserGroups` gives it as many as it can need.
-/

namespace NetworkFileServer.Accounts

open Relay (SubjectType)

structure Membership where
  groupId : Nat
  memberType : SubjectType
  memberId : Nat
deriving DecidableEq, Repr

/-- The tables `users` and `memberships`; of a user only the id is of interest here. -/
structure AccountStore where
  users : List Nat
  memberships : List Membership

inductive AccountsError where
  | userNotFound (userId : Nat)
  | groupCycle (groupId memberId : Nat)
  | tooDeep
deriving DecidableEq, Repr

namespace AccountStore

/-- `SELECT group_id FROM memberships WHERE member_type = ? AND member_id = ?` -/
def listParentGroupIds (store : AccountStore) (memberType : SubjectType) (memberId : Nat) : List Nat :=
  (store.memberships.filter fun m => m.memberType = memberType ∧ m.memberId = memberId).map
    Membership.groupId

/-- `_collect_parents`; the new elements of `acc` are added at the front. -/
def collectParents (store : AccountStore) :
    Nat → SubjectType → Nat → List Nat → List Nat → Except AccountsError (List Nat)
  | 0, _, _, _, _ => .error .tooDeep
  | depth + 1, memberType, memberId, acc, path =>
      (store.listParentGroupIds memberType memberId).foldlM (fun acc parentId =>
        if parentId ∈ path then .error (.groupCycle parentId parentId)
        else if parentId ∈ acc then .ok acc
        else store.collectParents depth .group parentId (parentId :: acc) (parentId :: path)) acc

/-- `resolve_user_groups` -/
def resolveUserGroups (store : AccountStore) (userId : Nat) : Except AccountsError (List Nat) :=
  if userId ∈ store.users then store.collectParents (store.memberships.length + 1) .user userId [] []
  else .error (.userNotFound userId)

/-- The group `g` lists the member directly. -/
def Contains (store : AccountStore) (member : SubjectType × Nat) (g : SubjectType × Nat) : Prop :=
  g.1 = .group ∧ ⟨g.2, member.1, member.2⟩ ∈ store.memberships

/-- The group `g` contains the member, directly or through other groups. -/
def InGroup (store : AccountStore) (member : SubjectType × Nat) (g : Nat) : Prop :=
  Relation.TransGen store.Contains member (.group, g)

/-- No group contains itself. -/
def Acyclic (store : AccountStore) : Prop := ∀ g, ¬ store.InGroup (.group, g) g

theorem mem_listParentGroupIds (store : AccountStore) (memberType : SubjectType) (memberId g : Nat) :
    g ∈ store.listParentGroupIds memberType memberId ↔ store.Contains (memberType, memberId) (.group, g) := by
  simp only [listParentGroupIds, List.mem_map, List.mem_filter, decide_eq_true_eq, Contains, true_and]
  constructor
  · rintro ⟨m, ⟨hmem, rfl, rfl⟩, rfl⟩
    exact hmem
  · intro hmem
    exact ⟨_, ⟨hmem, rfl, rfl⟩, rfl⟩

theorem inGroup_of_parent (store : AccountStore) (member : SubjectType × Nat) (p g : Nat)
    (hparent : store.Contains member (.group, p)) (hg : store.InGroup (.group, p) g) :
    store.InGroup member g :=
  Relation.TransGen.head hparent hg

theorem acyclic_of_lt (store : AccountStore)
    (h : ∀ m ∈ store.memberships, m.memberType = .group → m.memberId < m.groupId) : store.Acyclic := by
  have hlt : ∀ a b : SubjectType × Nat, Relation.TransGen store.Contains a b → a.1 = .group →
      b.1 = .group ∧ a.2 < b.2 := by
    intro a b hab hgroup
    induction hab with
    | single hdirect => exact ⟨hdirect.1, h _ hdirect.2 hgroup⟩
    | tail _ hdirect ih => exact ⟨hdirect.1, Nat.lt_trans ih.2 (h _ hdirect.2 ih.1)⟩
  intro g hg
  exact Nat.lt_irrefl g (hlt _ _ hg rfl).2

/-- The groups that were found, and are not being searched, have their parents among them. -/
def Closed (store : AccountStore) (acc path : List Nat) : Prop :=
  ∀ g ∈ acc, g ∉ path → ∀ p ∈ store.listParentGroupIds .group g, p ∈ acc

/-- What `acc` is like between two calls. -/
structure Found (store : AccountStore) (acc path : List Nat) : Prop where
  nodup : acc.Nodup
  known : ∀ g ∈ acc, g ∈ store.memberships.map Membership.groupId
  closed : store.Closed acc path

/-- What the search from a member adds to `acc`. -/
structure Adds (store : AccountStore) (member : SubjectType × Nat) (acc acc' path : List Nat) : Prop where
  found : store.Found acc' path
  keeps : ∀ g ∈ acc, g ∈ acc'
  sound : ∀ g ∈ acc', g ∈ acc ∨ store.InGroup member g

theorem Found.length_le {store : AccountStore} {acc path : List Nat} (h : store.Found acc path) :
    acc.length ≤ store.memberships.length := by
  have hsub : acc.Subperm (store.memberships.map Membership.groupId) :=
    List.subperm_of_subset h.nodup h.known
  simpa using hsub.length_le

theorem Adds.length_le {store : AccountStore} {member : SubjectType × Nat} {acc acc' path : List Nat}
    (hnodup : acc.Nodup) (h : store.Adds member acc acc' path) : acc.length ≤ acc'.length :=
  (List.subperm_of_subset hnodup h.keeps).length_le

theorem Adds.trans {store : AccountStore} {member : SubjectType × Nat} {acc acc' acc'' path : List Nat}
    (h : store.Adds member acc acc' path) (h' : store.Adds member acc' acc'' path) :
    store.Adds member acc acc'' path where
  found := h'.found
  keeps := by
    intro g hg
    exact h'.keeps g (h.keeps g hg)
  sound := by
    intro g hg
    rcases h'.sound g hg with hold | hin
    · exact h.sound g hold
    · exact .inr hin

/-- The branch that is being searched leads to the member. -/
def LeadsTo (store : AccountStore) (path : List Nat) (member : SubjectType × Nat) : Prop :=
  ∀ q ∈ path, member = (.group, q) ∨ Relation.TransGen store.Contains (.group, q) member

private theorem leadsTo_parent (store : AccountStore) (path : List Nat) (member : SubjectType × Nat)
    (hpath : store.LeadsTo path member) (p : Nat) (hparent : store.Contains member (.group, p)) (q : Nat)
    (hq : q ∈ path) : store.InGroup (.group, q) p := by
  rcases hpath q hq with rfl | hleads
  · exact Relation.TransGen.single hparent
  · exact hleads.tail hparent

private theorem found_cons (store : AccountStore) (acc path : List Nat) (member : SubjectType × Nat) (p : Nat)
    (hfound : store.Found acc path) (hparent : store.Contains member (.group, p)) (hnew : p ∉ acc) :
    store.Found (p :: acc) (p :: path) where
  nodup := List.nodup_cons.mpr ⟨hnew, hfound.nodup⟩
  known := by
    intro g hg
    rcases List.mem_cons.mp hg with rfl | hold
    · exact List.mem_map.mpr ⟨_, hparent.2, rfl⟩
    · exact hfound.known g hold
  closed := by
    intro g hg hgpath q hq
    have hne : g ≠ p := fun h => hgpath (by simp [h])
    have hold : g ∈ acc := (List.mem_cons.mp hg).resolve_left hne
    have hgold : g ∉ path := fun h => hgpath (by simp [h])
    exact List.mem_cons_of_mem p (hfound.closed g hold hgold q hq)

private theorem adds_of_parent (store : AccountStore) (acc acc' path : List Nat) (member : SubjectType × Nat)
    (p : Nat) (hparent : store.Contains member (.group, p))
    (hadds : store.Adds (.group, p) (p :: acc) acc' (p :: path))
    (hparents : ∀ q ∈ store.listParentGroupIds .group p, q ∈ acc') : store.Adds member acc acc' path where
  found :=
    { nodup := hadds.found.nodup
      known := hadds.found.known
      closed := by
        intro g hg hgpath q hq
        by_cases hgp : g = p
        · subst hgp
          exact hparents q hq
        · exact hadds.found.closed g hg (by simp [hgp, hgpath]) q hq }
  keeps := by
    intro g hg
    exact hadds.keeps g (List.mem_cons_of_mem p hg)
  sound := by
    intro g hg
    rcases hadds.sound g hg with hold | hin
    · rcases List.mem_cons.mp hold with rfl | hold
      · exact .inr (Relation.TransGen.single hparent)
      · exact .inl hold
    · exact .inr (store.inGroup_of_parent member p g hparent hin)

/-- A group that was found and is not being searched is done with: so are its parents, and it is on no cycle. -/
structure Settled (store : AccountStore) (acc path : List Nat) : Prop where
  found : store.Found acc path
  searched : ∀ q ∈ path, q ∈ acc
  parents : ∀ g ∈ acc, g ∉ path → ∀ p ∈ store.listParentGroupIds .group g, p ∉ path
  noCycle : ∀ g ∈ acc, g ∉ path → ¬store.InGroup (.group, g) g

theorem Settled.inGroup {store : AccountStore} {acc path : List Nat} (h : store.Settled acc path) {g x : Nat}
    (hparents : ∀ p ∈ store.listParentGroupIds .group g, p ∈ acc ∧ p ∉ path) (hin : store.InGroup (.group, g) x) :
    x ∈ acc ∧ x ∉ path := by
  have hchain : ∀ m, Relation.TransGen store.Contains (.group, g) m → m.1 = .group ∧ m.2 ∈ acc ∧ m.2 ∉ path := by
    intro m hm
    induction hm with
    | single hdirect =>
        obtain ⟨htype, hmem⟩ := hdirect
        exact ⟨htype, hparents _ ((store.mem_listParentGroupIds _ _ _).mpr ⟨rfl, hmem⟩)⟩
    | tail _ hdirect ih =>
        obtain ⟨htype, hmem⟩ := hdirect
        obtain ⟨hgroup, hacc, hpath⟩ := ih
        rw [hgroup] at hmem
        have hparent := (store.mem_listParentGroupIds _ _ _).mpr ⟨rfl, hmem⟩
        exact ⟨htype, h.found.closed _ hacc hpath _ hparent, h.parents _ hacc hpath _ hparent⟩
  exact (hchain _ hin).2

private theorem settled_cons (store : AccountStore) (acc path : List Nat) (member : SubjectType × Nat) (p : Nat)
    (h : store.Settled acc path) (hparent : store.Contains member (.group, p)) (hnew : p ∉ acc) :
    store.Settled (p :: acc) (p :: path) := by
  have hold : ∀ g ∈ p :: acc, g ∉ p :: path → g ∈ acc ∧ g ∉ path := by
    intro g hg hpath
    rw [List.mem_cons, not_or] at hpath
    exact ⟨(List.mem_cons.mp hg).resolve_left hpath.1, hpath.2⟩
  constructor
  · exact store.found_cons acc path member p h.found hparent hnew
  · intro q hq
    rcases List.mem_cons.mp hq with rfl | hq
    · exact List.mem_cons_self
    · exact List.mem_cons_of_mem p (h.searched q hq)
  · intro g hg hpath q hq
    obtain ⟨hacc, hnot⟩ := hold g hg hpath
    have hknown := h.found.closed g hacc hnot q hq
    rw [List.mem_cons, not_or]
    exact ⟨fun hqp => hnew (hqp ▸ hknown), h.parents g hacc hnot q hq⟩
  · intro g hg hpath
    obtain ⟨hacc, hnot⟩ := hold g hg hpath
    exact h.noCycle g hacc hnot

/-- The search of a parent is over, so the parent is done with. -/
private theorem settled_of_parent (store : AccountStore) (acc acc' path : List Nat) (member : SubjectType × Nat)
    (p : Nat) (hsettled : store.Settled acc path) (hparent : store.Contains member (.group, p))
    (hadds : store.Adds (.group, p) (p :: acc) acc' (p :: path)) (h : store.Settled acc' (p :: path))
    (hparents : ∀ q ∈ store.listParentGroupIds .group p, q ∈ acc' ∧ q ∉ p :: path) :
    store.Settled acc' path where
  found := (store.adds_of_parent acc acc' path member p hparent hadds fun q hq => (hparents q hq).1).found
  searched := by
    intro q hq
    exact hadds.keeps q (List.mem_cons_of_mem p (hsettled.searched q hq))
  parents := by
    intro g hg hpath q hq
    by_cases hgp : g = p
    · subst hgp
      exact fun hmem => (hparents q hq).2 (List.mem_cons_of_mem g hmem)
    · have hnot := h.parents g hg (by simp [hgp, hpath]) q hq
      exact fun hmem => hnot (List.mem_cons_of_mem p hmem)
  noCycle := by
    intro g hg hpath
    by_cases hgp : g = p
    · -- a cycle would lead back to a group that is still being searched
      subst hgp
      intro hcycle
      exact (h.inGroup hparents hcycle).2 List.mem_cons_self
    · exact h.noCycle g hg (by simp [hgp, hpath])

/-- The loop body of `_collect_parents`. -/
def visitParent (store : AccountStore) (depth : Nat) (path acc : List Nat) (parentId : Nat) :
    Except AccountsError (List Nat) :=
  if parentId ∈ path then .error (.groupCycle parentId parentId)
  else if parentId ∈ acc then .ok acc
  else store.collectParents depth .group parentId (parentId :: acc) (parentId :: path)

theorem collectParents_succ (store : AccountStore) (depth : Nat) (memberType : SubjectType) (memberId : Nat)
    (acc path : List Nat) : store.collectParents (depth + 1) memberType memberId acc path =
      (store.listParentGroupIds memberType memberId).foldlM (store.visitParent depth path) acc := rfl

/-- The search above some parents of a member ends: they are done with, and nothing was added but groups that contain
the member; or it has come to a cycle above it. -/
def SearchEnds (store : AccountStore) (member : SubjectType × Nat) (acc path ps : List Nat)
    (result : Except AccountsError (List Nat)) : Prop :=
  (∃ acc', result = .ok acc' ∧ store.Adds member acc acc' path ∧ store.Settled acc' path ∧
    ∀ p ∈ ps, p ∈ acc' ∧ p ∉ path) ∨
  ∃ g, result = .error (.groupCycle g g) ∧ store.InGroup member g ∧ store.InGroup (.group, g) g

theorem Settled.adds {store : AccountStore} {acc path : List Nat} (h : store.Settled acc path)
    (member : SubjectType × Nat) : store.Adds member acc acc path :=
  ⟨h.found, fun _ hg => hg, fun _ hg => .inl hg⟩

/-- One parent, where the recursive call ends. -/
theorem searchEnds_visitParent (store : AccountStore) (depth : Nat) (member : SubjectType × Nat)
    (acc path : List Nat) (p : Nat) (hsettled : store.Settled acc path)
    (hpath : store.LeadsTo path member) (hparent : store.Contains member (.group, p))
    (hcall : store.Settled (p :: acc) (p :: path) → store.LeadsTo (p :: path) (.group, p) →
      store.SearchEnds (.group, p) (p :: acc) (p :: path) (store.listParentGroupIds .group p)
        (store.collectParents depth .group p (p :: acc) (p :: path))) :
    store.SearchEnds member acc path [p] (store.visitParent depth path acc p) := by
  unfold visitParent
  by_cases hcycle : p ∈ path
  · rw [if_pos hcycle]
    exact .inr ⟨p, rfl, Relation.TransGen.single hparent,
      store.leadsTo_parent path _ hpath p hparent p hcycle⟩
  rw [if_neg hcycle]
  by_cases hold : p ∈ acc
  · rw [if_pos hold]
    exact .inl ⟨acc, rfl, hsettled.adds member, hsettled, by simp [hold, hcycle]⟩
  rw [if_neg hold]
  have hleads : store.LeadsTo (p :: path) (.group, p) := by
    intro q hq
    rcases List.mem_cons.mp hq with rfl | hq
    · exact .inl rfl
    · exact .inr (store.leadsTo_parent path _ hpath p hparent q hq)
  rcases hcall (store.settled_cons acc path _ p hsettled hparent hold) hleads with
    ⟨acc', hok, hadds, hsettled', hparents⟩ | ⟨g, herror, hin, hg⟩
  · refine .inl ⟨acc', hok, ?_, ?_, ?_⟩
    · exact store.adds_of_parent acc acc' path _ p hparent hadds fun q hq => (hparents q hq).1
    · exact store.settled_of_parent acc acc' path _ p hsettled hparent hadds hsettled' hparents
    · intro q hq
      rw [List.mem_singleton.mp hq]
      exact ⟨hadds.keeps p List.mem_cons_self, hcycle⟩
  · exact .inr ⟨g, herror, store.inGroup_of_parent _ p g hparent hin, hg⟩

/-- The loop over some parents, where each of them ends. -/
theorem searchEnds_foldlM (store : AccountStore) (depth : Nat) (member : SubjectType × Nat) (path ps : List Nat)
    (hvisit : ∀ p ∈ ps, ∀ acc, store.Settled acc path → store.memberships.length < depth + 1 + acc.length →
      store.SearchEnds member acc path [p] (store.visitParent depth path acc p)) (acc : List Nat)
    (hsettled : store.Settled acc path) (hdepth : store.memberships.length < depth + 1 + acc.length) :
    store.SearchEnds member acc path ps (ps.foldlM (store.visitParent depth path) acc) := by
  induction ps generalizing acc with
  | nil => exact .inl ⟨acc, rfl, hsettled.adds member, hsettled, by simp⟩
  | cons p ps ih =>
      rw [List.foldlM_cons]
      rcases hvisit p List.mem_cons_self acc hsettled hdepth with
        ⟨acc₁, hok, hfirst, hsettled₁, hp⟩ | ⟨g, herror, hcycle⟩
      · have hlen := hfirst.length_le hsettled.found.nodup
        rw [hok]
        rcases ih (fun q hq => hvisit q (List.mem_cons_of_mem p hq)) acc₁ hsettled₁ (by omega) with
          ⟨acc', hrest, hadds, hsettled', hall⟩ | hcycle
        · refine .inl ⟨acc', hrest, hfirst.trans hadds, hsettled', ?_⟩
          rw [List.forall_mem_cons]
          obtain ⟨hfound, hnot⟩ := hp p List.mem_cons_self
          exact ⟨⟨hadds.keeps p hfound, hnot⟩, hall⟩
        · exact .inr hcycle
      · rw [herror]
        exact .inr ⟨g, rfl, hcycle⟩

theorem collectParents_cases (store : AccountStore) (depth : Nat)
    (memberType : SubjectType) (memberId : Nat) (acc path : List Nat) (hsettled : store.Settled acc path)
    (hdepth : store.memberships.length < depth + acc.length)
    (hpath : store.LeadsTo path (memberType, memberId)) :
    store.SearchEnds (memberType, memberId) acc path (store.listParentGroupIds memberType memberId)
      (store.collectParents depth memberType memberId acc path) := by
  induction depth generalizing memberType memberId acc path with
  | zero =>
      have hlen := hsettled.found.length_le
      omega
  | succ depth ih =>
      rw [collectParents_succ]
      refine store.searchEnds_foldlM depth _ path _ ?_ acc hsettled hdepth
      intro p hp acc hsettled hdepth
      have hparent := (store.mem_listParentGroupIds memberType memberId p).mp hp
      apply store.searchEnds_visitParent depth _ acc path p hsettled hpath hparent
      intro hsettled' hleads
      exact ih .group p (p :: acc) (p :: path) hsettled' (by simp; omega) hleads

/-- The groups of an existing user, in any store: exactly the groups that contain the user, and none of them contains
itself; or a group above the user does. -/
theorem resolveUserGroups_cases (store : AccountStore) (userId : Nat) (huser : userId ∈ store.users) :
    (∃ groups, store.resolveUserGroups userId = .ok groups ∧ (∀ g, g ∈ groups ↔ store.InGroup (.user, userId) g) ∧
      ∀ g, store.InGroup (.user, userId) g → ¬store.InGroup (.group, g) g) ∨
    ∃ g, store.resolveUserGroups userId = .error (.groupCycle g g) ∧ store.InGroup (.user, userId) g ∧
      store.InGroup (.group, g) g := by
  have hempty : store.Settled [] [] := ⟨⟨List.nodup_nil, by simp, by simp [Closed]⟩, by simp, by simp, by simp⟩
  rw [resolveUserGroups, if_pos huser]
  rcases store.collectParents_cases (store.memberships.length + 1) .user userId [] [] hempty (by simp)
    (by simp [LeadsTo]) with ⟨groups, hok, hadds, hsettled, hparents⟩ | herror
  · left
    -- Along the chain of groups: the parents of every group on it were found too.
    have hchain : ∀ m, Relation.TransGen store.Contains (.user, userId) m → m.1 = .group ∧ m.2 ∈ groups := by
      intro m hm
      induction hm with
      | single hdirect =>
          obtain ⟨htype, hmem⟩ := hdirect
          exact ⟨htype, (hparents _ ((store.mem_listParentGroupIds _ _ _).mpr ⟨rfl, hmem⟩)).1⟩
      | tail _ hdirect ih =>
          obtain ⟨htype, hmem⟩ := hdirect
          obtain ⟨hgroup, hfoundGroup⟩ := ih
          refine ⟨htype, hadds.found.closed _ hfoundGroup (by simp) _ ?_⟩
          rw [hgroup] at hmem
          exact (store.mem_listParentGroupIds _ _ _).mpr ⟨rfl, hmem⟩
    have hmem : ∀ g, g ∈ groups ↔ store.InGroup (.user, userId) g := by
      intro g
      exact ⟨fun hg => (hadds.sound g hg).resolve_left (by simp), fun hin => (hchain _ hin).2⟩
    exact ⟨groups, hok, hmem, fun g hin => hsettled.noCycle g ((hmem g).mpr hin) (by simp)⟩
  · exact .inr herror

/-- On an acyclic store the resolved groups of an existing user are the groups that contain the user. -/
theorem resolveUserGroups_spec (store : AccountStore) (hacyclic : store.Acyclic) (userId : Nat)
    (huser : userId ∈ store.users) :
    ∃ groups, store.resolveUserGroups userId = .ok groups ∧
      ∀ g, g ∈ groups ↔ store.InGroup (.user, userId) g := by
  rcases store.resolveUserGroups_cases userId huser with ⟨groups, hok, hmem, -⟩ | ⟨g, -, -, hcycle⟩
  · exact ⟨groups, hok, hmem⟩
  · exact absurd hcycle (hacyclic g)

/-- The resolution of an existing user ends on every store. If no group above the user is on a cycle, it returns the
groups that contain the user; otherwise it is a `GroupCycleError`. -/
theorem resolveUserGroups_exact (store : AccountStore) (userId : Nat) (huser : userId ∈ store.users) :
    ((∀ g, store.InGroup (.user, userId) g → ¬store.InGroup (.group, g) g) →
      ∃ groups, store.resolveUserGroups userId = .ok groups ∧ ∀ g, g ∈ groups ↔ store.InGroup (.user, userId) g) ∧
    ((∃ g, store.InGroup (.user, userId) g ∧ store.InGroup (.group, g) g) →
      ∃ g, store.resolveUserGroups userId = .error (.groupCycle g g)) := by
  rcases store.resolveUserGroups_cases userId huser with ⟨groups, hok, hmem, hnone⟩ | ⟨g, herror, hin, hcycle⟩
  · refine ⟨fun _ => ⟨groups, hok, hmem⟩, ?_⟩
    rintro ⟨g, hin, hcycle⟩
    exact absurd hcycle (hnone g hin)
  · refine ⟨fun hnone => absurd hcycle (hnone g hin), fun _ => ⟨g, herror⟩⟩

theorem resolveUserGroups_userNotFound (store : AccountStore) (userId : Nat) (huser : userId ∉ store.users) :
    store.resolveUserGroups userId = .error (.userNotFound userId) := by
  rw [resolveUserGroups, if_neg huser]

end AccountStore

end NetworkFileServer.Accounts
