import NetworkFileServer.Accounts.StoreCalls

/-!
# Cycles in the groups

`add_member` looks for a path from the member to the group before it inserts the edge. The walk reads
one group after another, and the INSERT comes two awaits later still; the walk is right about the groups
that it has read when it read them.
-/

namespace NetworkFileServer.Accounts

open SharedTransaction

namespace AccountStore

/-- The group `g` lists the group `c`. -/
def ContainsGroup (store : AccountStore) (g c : Nat) : Prop := store.Contains (.group, c) (.group, g)

theorem inGroup_iff_transGen (store : AccountStore) (c g : Nat) :
    store.InGroup (.group, c) g ↔ Relation.TransGen store.ContainsGroup g c := by
  constructor
  · intro h
    have hpath : ∀ p, Relation.TransGen store.Contains (.group, c) p →
        p.1 = .group ∧ Relation.TransGen store.ContainsGroup p.2 c := by
      intro p hp
      induction hp with
      | single hdirect => exact ⟨hdirect.1, Relation.TransGen.single ⟨rfl, hdirect.2⟩⟩
      | tail _ hdirect ih =>
          obtain ⟨hgroup, hin⟩ := ih
          have hmem := hdirect.2
          rw [hgroup] at hmem
          exact ⟨hdirect.1, Relation.TransGen.head ⟨rfl, hmem⟩ hin⟩
    exact (hpath _ h).2
  · intro h
    induction h with
    | single hdirect => exact Relation.TransGen.single hdirect
    | tail _ hdirect ih => exact Relation.TransGen.head hdirect ih

theorem acyclic_iff (store : AccountStore) :
    store.Acyclic ↔ ∀ g, ¬ Relation.TransGen store.ContainsGroup g g := by
  unfold Acyclic
  simp only [inGroup_iff_transGen]

theorem acyclic_mono (store store' : AccountStore)
    (hsub : ∀ m ∈ store'.memberships, m ∈ store.memberships) (h : store.Acyclic) : store'.Acyclic := by
  rw [acyclic_iff] at h ⊢
  intro g hg
  apply h g
  refine Relation.TransGen.mono ?_ _ _ hg
  intro x y hxy
  exact ⟨hxy.1, hsub _ hxy.2⟩

/-- One membership more makes a cycle exactly if it puts a group into itself or into a group that it
contains. -/
theorem acyclic_insert_iff (store store' : AccountStore) (m : Membership)
    (hmem : ∀ m', m' ∈ store'.memberships ↔ m' ∈ store.memberships ∨ m' = m) (h : store.Acyclic) :
    store'.Acyclic ↔ (m.memberType = .group →
      m.memberId ≠ m.groupId ∧ ¬ store.InGroup (.group, m.groupId) m.memberId) := by
  constructor
  · intro h' htype
    have hedge : store'.ContainsGroup m.groupId m.memberId := by
      refine ⟨rfl, (hmem _).mpr (.inr ?_)⟩
      rw [← htype]
    refine ⟨?_, ?_⟩
    · intro heq
      apply h' m.groupId
      rw [heq] at hedge
      exact Relation.TransGen.single hedge
    · intro hin
      apply (acyclic_iff store').mp h' m.memberId
      apply Relation.TransGen.tail _ hedge
      refine Relation.TransGen.mono ?_ _ _ ((inGroup_iff_transGen store _ _).mp hin)
      intro x y hxy
      exact ⟨hxy.1, (hmem _).mpr (.inl hxy.2)⟩
  · intro hapart
    rw [acyclic_iff] at h ⊢
    cases htype : m.memberType with
    | user =>
        intro g hg
        apply h g
        refine Relation.TransGen.mono ?_ _ _ hg
        intro x y hxy
        rcases (hmem _).mp hxy.2 with hold | hnew
        · exact ⟨hxy.1, hold⟩
        · rw [← hnew] at htype
          cases htype
    | group =>
        obtain ⟨hne, hnot⟩ := hapart htype
        apply Worklist.acyclic_insertEdge (r := store.ContainsGroup) (a := m.groupId) (b := m.memberId)
        · intro x y hxy
          rcases (hmem _).mp hxy.2 with hold | hnew
          · exact .inl ⟨hxy.1, hold⟩
          · right
            rw [← hnew]
            exact ⟨rfl, rfl⟩
        · exact h
        · intro hback
          rcases Relation.reflTransGen_iff_eq_or_transGen.mp hback with heq | hpath
          · exact hne heq.symm
          · exact hnot ((inGroup_iff_transGen store _ _).mpr hpath)

theorem resolveUserGroups_ne_groupCycle (store : AccountStore) (h : store.Acyclic) (userId g m : Nat) :
    store.resolveUserGroups userId ≠ .error (.groupCycle g m) := by
  by_cases huser : userId ∈ store.users
  · obtain ⟨groups, hok, -⟩ := store.resolveUserGroups_spec h userId huser
    simp [hok]
  · simp [store.resolveUserGroups_userNotFound userId huser]

end AccountStore

/-- No group contains itself, and nobody's groups are a `GroupCycleError`. -/
def GroupsAcyclic (s : StoreConnection) : Prop :=
  s.current.toStore.Acyclic ∧
    ∀ userId g m, s.current.toStore.resolveUserGroups userId ≠ .error (.groupCycle g m)

/-- The membership of a group that a call has begun to look for a cycle of and has not inserted yet. -/
def StorePc.nests : StorePc → Option Membership
  | .memberWalk m _ _ => some m
  | .memberExists m | .memberInsert m => if m.memberType = .group then some m else none
  | _ => none

/-- The searches of the calls other than number `i`. -/
def searches (s : StoreConnection) (i : Nat) : List Membership := (s.calls.eraseIdx i).filterMap StorePc.nests

/-- The edge lies on a way from the member of the search to its group. -/
def OnWayOf (store : AccountStore) (search edge : Membership) : Prop :=
  Relation.ReflTransGen store.ContainsGroup search.memberId edge.groupId ∧
    Relation.ReflTransGen store.ContainsGroup edge.memberId search.groupId

/-- While a call is between its walk and its INSERT, no other call inserts an edge on a way from its member to its
group, and no rollback brings one back. -/
def WalksAlone (s : StoreConnection) : Action StoreCall → Prop
  | .start _ => True
  | .resume i =>
      match s.calls[i]? with
      | some (.memberInsert edge) =>
          edge.memberType = .group → edge ∉ s.current.memberships →
            ∀ search ∈ searches s i, ¬OnWayOf s.current.toStore search edge
      | some (.externalRollback _ _) =>
          ∀ edge ∈ s.durable.memberships, edge.memberType = .group → edge ∉ s.current.memberships →
            ∀ search ∈ searches s i, ¬OnWayOf s.durable.toStore search edge
      | _ => True

theorem Database.mem_childGroupIds_iff (d : Database) (store : AccountStore)
    (hd : d.memberships = store.memberships) (g c : Nat) :
    c ∈ d.childGroupIds g ↔ store.ContainsGroup g c := by
  rw [d.mem_childGroupIds, AccountStore.ContainsGroup, AccountStore.Contains, AccountStore.Contains, ← hd]
  rfl

namespace Database

/-- `_group_descendants`; the bound is on the rounds of its loop. -/
def groupDescendants (d : Database) (groupId : Nat) : Option (List Nat) :=
  Worklist.search d.childGroupIds (d.memberships.length + 1) groupId ⟨[], []⟩

theorem groupDescendants_exact (d : Database) (groupId : Nat) :
    ∃ descendants, d.groupDescendants groupId = some descendants ∧
      ∀ c, c ∈ descendants ↔ Relation.TransGen d.toStore.ContainsGroup groupId c := by
  have hmembers : ∀ g c, d.toStore.ContainsGroup g c → c ∈ d.memberships.map Membership.memberId := by
    intro g c hedge
    exact List.mem_map.mpr ⟨_, hedge.2, rfl⟩
  apply Worklist.search_exact (d.mem_childGroupIds_iff d.toStore rfl) hmembers
  · exact Worklist.explores_start _ _
  · exact List.nodup_nil
  · simp
  · simp

end Database

instance decidableReaches (d : Database) (g c : Nat) : Decidable (Relation.ReflTransGen d.toStore.ContainsGroup g c) :=
  decidable_of_iff (c = g ∨ (d.groupDescendants g).any (c ∈ ·) = true) (by
    obtain ⟨descendants, heq, hexact⟩ := d.groupDescendants_exact g
    simp [heq, hexact, Relation.reflTransGen_iff_eq_or_transGen])

instance decidableOnWayOf (d : Database) (search edge : Membership) : Decidable (OnWayOf d.toStore search edge) :=
  inferInstanceAs (Decidable (_ ∧ _))

instance decidableWalksAlone (s : StoreConnection) (a : Action StoreCall) : Decidable (WalksAlone s a) :=
  match a with
  | .start _ => isTrue trivial
  | .resume i =>
      match h : s.calls[i]? with
      | some (.memberInsert edge) =>
          decidable_of_iff (edge.memberType = .group → edge ∉ s.current.memberships →
            ∀ search ∈ searches s i, ¬OnWayOf s.current.toStore search edge) (by simp only [WalksAlone, h])
      | some (.externalRollback _ _) =>
          decidable_of_iff (∀ edge ∈ s.durable.memberships, edge.memberType = .group →
            edge ∉ s.current.memberships → ∀ search ∈ searches s i, ¬OnWayOf s.durable.toStore search edge)
            (by simp only [WalksAlone, h])
      | none | some (.userExists _) | some (.userInsert _) | some (.externalExists _ _ _)
      | some (.externalInsertUser _ _ _) | some (.externalInsertLink _ _ _) | some (.activeUpdate _ _)
      | some (.groupNameExists _ _) | some (.groupInsert _ _) | some (.groupDelete _)
      | some (.groupDeleteContents _) | some (.groupDeleteParents _) | some (.memberGroup _) | some (.memberUser _)
      | some (.memberChild _) | some (.memberWalk _ _ _) | some (.memberExists _) | some (.memberDelete _)
      | some (.quotaUser _ _) | some (.quotaReplace _ _) | some (.commit _) | some (.returned _) | some (.raised _) =>
          isTrue (by simp only [WalksAlone, h])

/-- `add_member` has compared the group with the member. -/
def StorePc.NotSelf : StorePc → Prop
  | .memberUser m => m.memberType = .user
  | .memberWalk m _ _ => m.memberId ≠ m.groupId
  | .memberExists m | .memberInsert m => m.memberType = .group → m.memberId ≠ m.groupId
  | _ => True

/-- A statement that gets through inserts a group, inserts a membership, or adds nothing to these two tables. -/
theorem StorePc.statement_cases (p : StorePc) (statement : Database → Option Database)
    (next : Database → StorePc) (d d' : Database) (h : p.awaits = .statement statement next)
    (hd : statement d = some d') :
    (∃ name createdAt, p = .groupInsert name createdAt ∧ d.insertGroup name createdAt = some d') ∨
    (∃ m, p = .memberInsert m ∧ d.insertMembership m = some d') ∨
    (∀ m, p ≠ .memberInsert m) ∧ (∀ g ∈ d'.groups, g ∈ d.groups) ∧ ∀ m ∈ d'.memberships, m ∈ d.memberships := by
  cases p with
  | groupInsert name createdAt =>
      simp only [awaits, write, Await.statement.injEq] at h
      obtain ⟨rfl, rfl⟩ := h
      exact .inl ⟨name, createdAt, rfl, hd⟩
  | memberInsert m =>
      simp only [awaits, write, Await.statement.injEq] at h
      obtain ⟨rfl, rfl⟩ := h
      exact .inr (.inl ⟨m, rfl, hd⟩)
  | userExists _ | externalExists _ _ _ | groupNameExists _ _ | memberGroup _ | memberUser _
  | memberChild _ | memberWalk _ _ _ | memberExists _ | quotaUser _ _ =>
      simp only [awaits, select, Await.statement.injEq] at h
      obtain ⟨rfl, rfl⟩ := h
      cases hd
  | userInsert new | externalInsertUser _ _ new =>
      simp only [awaits, write, Await.statement.injEq] at h
      obtain ⟨rfl, rfl⟩ := h
      obtain ⟨-, htables⟩ := d.insertUser_eq_some d' _ _ _ _ hd
      exact .inr (.inr ⟨by simp, by simp [htables], by simp [htables]⟩)
  | externalInsertLink _ _ _ =>
      simp only [awaits, write, Await.statement.injEq] at h
      obtain ⟨rfl, rfl⟩ := h
      obtain ⟨-, htables⟩ := d.insertIdentity_eq_some d' _ hd
      exact .inr (.inr ⟨by simp, by simp [htables], by simp [htables]⟩)
  | activeUpdate _ _ =>
      simp only [awaits, write, Await.statement.injEq] at h
      obtain ⟨rfl, rfl⟩ := h
      have htables := d.updateActive_eq_some d' _ _ hd
      exact .inr (.inr ⟨by simp, by simp [htables], by simp [htables]⟩)
  | groupDelete _ =>
      simp only [awaits, write, Await.statement.injEq] at h
      obtain ⟨rfl, rfl⟩ := h
      have htables := d.deleteGroupRow_eq_some d' _ hd
      exact .inr (.inr ⟨by simp, by simp +contextual [htables], by simp [htables]⟩)
  | memberDelete _ =>
      simp only [awaits, write, Await.statement.injEq] at h
      obtain ⟨rfl, rfl⟩ := h
      have htables := d.deleteMemberships_eq_some d' _ hd
      exact .inr (.inr ⟨by simp, by simp [htables], by simp +contextual [htables]⟩)
  | groupDeleteContents _ | groupDeleteParents _ =>
      simp only [awaits, Await.statement.injEq] at h
      obtain ⟨rfl, rfl⟩ := h
      have htables := d.deleteMemberships_eq_some d' _ hd
      exact .inr (.inr ⟨by simp, by simp [htables], by simp +contextual [htables]⟩)
  | quotaReplace _ _ =>
      simp only [awaits, Await.statement.injEq] at h
      obtain ⟨rfl, rfl⟩ := h
      cases hd
      exact .inr (.inr ⟨by simp, fun _ hg => hg, fun _ hm => hm⟩)
  | externalRollback _ _ | commit _ | returned _ | raised _ => simp [awaits] at h

theorem StorePc.statement_memberships (p : StorePc) (statement : Database → Option Database)
    (next : Database → StorePc) (d d' : Database) (h : p.awaits = .statement statement next)
    (hd : statement d = some d') :
    (∃ m, p = .memberInsert m ∧ m ∉ d.memberships ∧
      ∀ m', m' ∈ d'.memberships ↔ m' ∈ d.memberships ∨ m' = m) ∨
    (∀ m, p ≠ .memberInsert m) ∧ ∀ m' ∈ d'.memberships, m' ∈ d.memberships := by
  rcases p.statement_cases statement next d d' h hd with ⟨name, createdAt, rfl, hinsert⟩ | ⟨m, rfl, hinsert⟩ |
    ⟨hne, -, hsub⟩
  · have htables := d.insertGroup_eq_some d' name createdAt hinsert
    exact .inr ⟨by simp, by simp [htables]⟩
  · obtain ⟨hnew, htables⟩ := d.insertMembership_eq_some d' m hinsert
    exact .inl ⟨m, rfl, hnew, by simp [htables]⟩
  · exact .inr ⟨hne, hsub⟩

theorem StorePc.statement_notSelf (p : StorePc) (statement : Database → Option Database)
    (next : Database → StorePc) (d : Database) (h : p.awaits = .statement statement next)
    (hp : p.NotSelf) : (next d).NotSelf := by
  cases p with
  | memberGroup m =>
      simp only [awaits, select, Await.statement.injEq] at h
      obtain ⟨-, rfl⟩ := h
      simp only
      split
      · trivial
      · split
        · rename_i htype
          exact htype
        · trivial
  | memberChild m =>
      simp only [awaits, select, Await.statement.injEq] at h
      obtain ⟨-, rfl⟩ := h
      simp only
      split
      · trivial
      · split
        · trivial
        · rename_i hne
          exact hne
  | memberWalk m current walk =>
      simp only [awaits, select, Await.statement.injEq] at h
      obtain ⟨-, rfl⟩ := h
      simp only
      split
      · exact hp
      · split
        · trivial
        · exact fun _ => hp
  | memberUser m =>
      simp only [awaits, select, Await.statement.injEq] at h
      obtain ⟨-, rfl⟩ := h
      simp only
      split
      · trivial
      · intro htype
        rw [hp] at htype
        cases htype
  | memberExists m =>
      simp only [awaits, select, Await.statement.injEq] at h
      obtain ⟨-, rfl⟩ := h
      simp only
      split
      · trivial
      · exact hp
  | userExists _ | externalExists _ _ _ | groupNameExists _ _ | quotaUser _ _ =>
      simp only [awaits, select, Await.statement.injEq] at h
      obtain ⟨-, rfl⟩ := h
      simp only
      split <;> trivial
  | userInsert _ | externalInsertUser _ _ _ | externalInsertLink _ _ _ | activeUpdate _ _
  | groupInsert _ _ | groupDelete _ | memberInsert _ | memberDelete _ =>
      simp only [awaits, write, Await.statement.injEq] at h
      obtain ⟨-, rfl⟩ := h
      simp only
      split <;> trivial
  | groupDeleteContents _ | groupDeleteParents _ | quotaReplace _ _ =>
      simp only [awaits, Await.statement.injEq] at h
      obtain ⟨-, rfl⟩ := h
      trivial
  | externalRollback _ _ | commit _ | returned _ | raised _ => simp [awaits] at h

theorem StorePc.ends (p next : StorePc) (h : p.awaits = .commit next ∨ p.awaits = .rollback next) :
    (∃ result, next = .returned result) ∨ ∃ e, next = .raised e := by
  cases p with
  | commit result =>
      simp only [awaits, reduceCtorEq, Await.commit.injEq, or_false] at h
      exact .inl ⟨result, h.symm⟩
  | externalRollback username userId =>
      simp only [awaits, reduceCtorEq, Await.rollback.injEq, false_or] at h
      exact .inr ⟨_, h.symm⟩
  | _ => simp [awaits, select, write] at h

theorem StorePc.ends_notSelf (p next : StorePc)
    (h : p.awaits = .commit next ∨ p.awaits = .rollback next) : next.NotSelf := by
  rcases p.ends next h with ⟨_, rfl⟩ | ⟨_, rfl⟩ <;> trivial

theorem StoreCall.notSelf_entry (call : StoreCall) : call.entry.NotSelf := by
  cases call with
  | createUser _ _ _ _ | createExternalUser _ _ _ _ _ _ =>
      simp only [entry]
      split
      · trivial
      · split <;> trivial
  | createGroup _ _ | setUserQuota _ _ =>
      simp only [entry]
      split <;> trivial
  | setUserActive _ _ | deleteGroup _ | addMember _ _ _ | removeMember _ _ _ => trivial

/-- What a call knows of the ways from its member to its group, as they are now. -/
def StorePc.Searched (store : AccountStore) : StorePc → Prop
  | .memberWalk m current walk =>
      Worklist.Closed (Worklist.OnWay store.ContainsGroup m.memberId m.groupId) m.memberId current walk
  | .memberExists m | .memberInsert m => m.memberType = .group → ¬store.InGroup (.group, m.groupId) m.memberId
  | _ => True

theorem StorePc.searched_of_nests_none (store : AccountStore) (p : StorePc) (h : p.nests = none) :
    p.Searched store := by
  cases p with
  | memberWalk m current walk => cases h
  | memberExists m | memberInsert m =>
      intro htype
      simp [nests, htype] at h
  | _ => trivial

/-- What a call knows stays right as long as its ways get no new edge. -/
theorem StorePc.Searched.change {store store' : AccountStore} {p : StorePc} (hp : p.Searched store)
    (h : ∀ m, p.nests = some m → ∀ x y, Worklist.OnWay store'.ContainsGroup m.memberId m.groupId x y →
      store.ContainsGroup x y) : p.Searched store' := by
  have hnot : ∀ m : Membership, (m.memberType = .group → ¬store.InGroup (.group, m.groupId) m.memberId) →
      (m.memberType = .group → ∀ x y, Worklist.OnWay store'.ContainsGroup m.memberId m.groupId x y →
        store.ContainsGroup x y) → m.memberType = .group → ¬store'.InGroup (.group, m.groupId) m.memberId := by
    intro m hknown hways htype hin
    apply hknown htype
    rw [store'.inGroup_iff_transGen] at hin
    rw [store.inGroup_iff_transGen]
    obtain ⟨y, hfirst, hrest⟩ := Relation.TransGen.head'_iff.mp hin
    have hold := Worklist.onWay_mono (hways htype) ⟨.refl, hfirst, hrest⟩
    exact Relation.TransGen.head' hold.2.1 hold.2.2
  cases p with
  | memberWalk m current walk => exact Worklist.Closed.mono hp fun x y hxy => Worklist.onWay_mono (h m rfl) hxy
  | memberExists m | memberInsert m => exact hnot m hp fun htype => h m (by simp [nests, htype])
  | _ => trivial

theorem StorePc.searched_statement (p : StorePc) (statement : Database → Option Database) (next : Database → StorePc)
    (d : Database) (h : p.awaits = .statement statement next) (hself : p.NotSelf) (hp : p.Searched d.toStore) :
    (next d).Searched d.toStore := by
  cases p with
  | memberChild m =>
      simp only [awaits, select, Await.statement.injEq] at h
      obtain ⟨-, rfl⟩ := h
      simp only
      split
      · trivial
      · split
        · trivial
        · exact Worklist.closed_start _ _
  | memberUser m =>
      simp only [awaits, select, Await.statement.injEq] at h
      obtain ⟨-, rfl⟩ := h
      simp only
      split
      · trivial
      · intro htype
        rw [hself] at htype
        cases htype
  | memberWalk m current walk =>
      simp only [awaits, select, Await.statement.injEq] at h
      obtain ⟨-, rfl⟩ := h
      have hchildren : ∀ y, d.toStore.ContainsGroup current y → y ∈ d.childGroupIds current := fun y =>
        (d.mem_childGroupIds_iff d.toStore rfl current y).mpr
      simp only
      split
      · rename_i hfrontier
        exact Worklist.Closed.next hp (fun y hy => hchildren y hy.2.1) hfrontier
      · rename_i hfrontier
        split
        · trivial
        · rename_i hnot
          intro _ hin
          apply hnot
          exact Worklist.Closed.mem_of_way hp hchildren hfrontier ((d.toStore.inGroup_iff_transGen _ _).mp hin)
  | memberExists m =>
      simp only [awaits, select, Await.statement.injEq] at h
      obtain ⟨-, rfl⟩ := h
      simp only
      split
      · trivial
      · exact hp
  | memberGroup m =>
      simp only [awaits, select, Await.statement.injEq] at h
      obtain ⟨-, rfl⟩ := h
      simp only
      split
      · trivial
      · split <;> trivial
  | userExists _ | externalExists _ _ _ | groupNameExists _ _ | quotaUser _ _ =>
      simp only [awaits, select, Await.statement.injEq] at h
      obtain ⟨-, rfl⟩ := h
      simp only
      split <;> trivial
  | userInsert _ | externalInsertUser _ _ _ | externalInsertLink _ _ _ | activeUpdate _ _
  | groupInsert _ _ | groupDelete _ | memberInsert _ | memberDelete _ =>
      simp only [awaits, write, Await.statement.injEq] at h
      obtain ⟨-, rfl⟩ := h
      simp only
      split <;> trivial
  | groupDeleteContents _ | groupDeleteParents _ | quotaReplace _ _ =>
      simp only [awaits, Await.statement.injEq] at h
      obtain ⟨-, rfl⟩ := h
      trivial
  | externalRollback _ _ | commit _ | returned _ | raised _ => simp [awaits] at h

theorem StoreCall.nests_entry (call : StoreCall) : call.entry.nests = none := by
  cases call with
  | createUser _ _ _ _ | createExternalUser _ _ _ _ _ _ =>
      simp only [entry]
      split
      · rfl
      · split <;> rfl
  | createGroup _ _ | setUserQuota _ _ =>
      simp only [entry]
      split <;> rfl
  | setUserActive _ _ | deleteGroup _ | addMember _ _ _ | removeMember _ _ _ => rfl

structure AcyclicInv (s : StoreConnection) : Prop where
  current : s.current.toStore.Acyclic
  durable : s.durable.toStore.Acyclic
  notSelf : ∀ (i : Nat) (p : StorePc), s.calls[i]? = some p → p.NotSelf
  searched : ∀ (i : Nat) (p : StorePc), s.calls[i]? = some p → p.Searched s.current.toStore

theorem mem_searches {s : StoreConnection} {i j : Nat} {q : StorePc} {m : Membership} (hji : j ≠ i)
    (hq : s.calls[j]? = some q) (hm : q.nests = some m) : m ∈ searches s i :=
  List.mem_filterMap.mpr ⟨q, List.mem_eraseIdx_iff_getElem?.mpr ⟨j, hji, hq⟩, hm⟩

/-- The statement of another call leaves no edge that is new on a way that a call is looking for. -/
theorem keeps_ways {s : StoreConnection} {i : Nat} {p : StorePc} {statement : Database → Option Database}
    {next : Database → StorePc} {d : Database} (hcond : WalksAlone s (.resume i)) (hp : s.calls[i]? = some p)
    (hawaits : p.awaits = .statement statement next) (hd : statement s.current = some d) {j : Nat} {q : StorePc}
    {m : Membership} (hji : j ≠ i) (hq : s.calls[j]? = some q) (hm : q.nests = some m) (x y : Nat)
    (hway : Worklist.OnWay d.toStore.ContainsGroup m.memberId m.groupId x y) : s.current.toStore.ContainsGroup x y := by
  rcases p.statement_memberships statement next s.current d hawaits hd with ⟨new, rfl, hnew, hmem⟩ | ⟨-, hsub⟩
  · cases htype : new.memberType with
    | user =>
        rcases (hmem _).mp hway.2.1.2 with hold | heq
        · exact ⟨rfl, hold⟩
        · rw [← heq] at htype
          cases htype
    | group =>
        simp only [WalksAlone, hp] at hcond
        refine Worklist.onWay_insertEdge ?_ (hcond htype hnew m (mem_searches hji hq hm)) x y hway
        intro x y hxy
        rcases (hmem _).mp hxy.2 with hold | heq
        · exact .inl ⟨rfl, hold⟩
        · right
          rw [← heq]
          exact ⟨rfl, rfl⟩
  · exact ⟨rfl, hsub _ hway.2.1.2⟩

theorem StorePc.nests_of_write (p : StorePc) (statement : Database → Option Database) (next : Database → StorePc)
    (d d' : Database) (h : p.awaits = .statement statement next) (hd : statement d = some d') :
    (next d).nests = none := by
  cases p with
  | userExists _ | externalExists _ _ _ | groupNameExists _ _ | memberGroup _ | memberUser _
  | memberChild _ | memberWalk _ _ _ | memberExists _ | quotaUser _ _ =>
      simp only [awaits, select, Await.statement.injEq] at h
      obtain ⟨rfl, rfl⟩ := h
      cases hd
  | userInsert _ | externalInsertUser _ _ _ | externalInsertLink _ _ _ | activeUpdate _ _
  | groupInsert _ _ | groupDelete _ | memberInsert _ | memberDelete _ =>
      simp only [awaits, write, Await.statement.injEq] at h
      obtain ⟨-, rfl⟩ := h
      simp only
      split <;> rfl
  | groupDeleteContents _ | groupDeleteParents _ | quotaReplace _ _ =>
      simp only [awaits, Await.statement.injEq] at h
      obtain ⟨-, rfl⟩ := h
      rfl
  | externalRollback _ _ | commit _ | returned _ | raised _ => simp [awaits] at h

theorem searched_step (s : StoreConnection) (a : Action StoreCall) (t : StoreConnection) (hs : AcyclicInv s)
    (hcond : WalksAlone s a) (h : storeStep s a = some t) (j : Nat) (q : StorePc) (hq : t.calls[j]? = some q) :
    q.Searched t.current.toStore := by
  cases a with
  | start call =>
      cases step_start _ _ s t call h
      rcases TransitionSystem.getElem?_concat_cases hq with hold | ⟨-, rfl⟩
      · exact hs.searched j q hold
      · exact StorePc.searched_of_nests_none _ _ call.nests_entry
  | resume i =>
      obtain ⟨p, hp, hcases⟩ := step_resume_cases _ _ s t i h
      rcases hcases with ⟨statement, next, hawaits, -, rfl⟩ | ⟨statement, next, d, hawaits, hd, rfl⟩ |
        ⟨next, hawaits, rfl⟩ | ⟨next, hawaits, rfl⟩
      · rcases TransitionSystem.getElem?_set_cases hq with ⟨-, rfl⟩ | ⟨-, hold⟩
        · exact p.searched_statement statement next s.current hawaits (hs.notSelf i p hp) (hs.searched i p hp)
        · exact hs.searched j q hold
      · rcases TransitionSystem.getElem?_set_cases hq with ⟨-, rfl⟩ | ⟨hji, hold⟩
        · exact StorePc.searched_of_nests_none _ _ (p.nests_of_write statement next s.current d hawaits hd)
        · exact (hs.searched j q hold).change fun m hm => keeps_ways hcond hp hawaits hd hji hold hm
      · rcases TransitionSystem.getElem?_set_cases hq with ⟨-, rfl⟩ | ⟨-, hold⟩
        · rcases p.ends _ (.inl hawaits) with ⟨_, rfl⟩ | ⟨_, rfl⟩ <;> trivial
        · exact hs.searched j q hold
      · rcases TransitionSystem.getElem?_set_cases hq with ⟨-, rfl⟩ | ⟨hji, hold⟩
        · rcases p.ends _ (.inr hawaits) with ⟨_, rfl⟩ | ⟨_, rfl⟩ <;> trivial
        · cases p with
          | externalRollback username userId =>
              simp only [WalksAlone, hp] at hcond
              refine (hs.searched j q hold).change ?_
              intro m hm x y hway
              by_contra hnew
              exact hcond ⟨x, .group, y⟩ hway.2.1.2 rfl (fun hold => hnew ⟨rfl, hold⟩) m (mem_searches hji hold hm)
                ⟨hway.1, hway.2.2⟩
          | _ => simp [StorePc.awaits, StorePc.select, StorePc.write] at hawaits

theorem acyclicInv_step (s : StoreConnection) (a : Action StoreCall) (t : StoreConnection)
    (hs : AcyclicInv s) (hcond : WalksAlone s a) (h : storeStep s a = some t) : AcyclicInv t := by
  have ht : Holds (fun d => d.toStore.Acyclic) StorePc.NotSelf t := by
    apply holds_step StoreCall.entry StorePc.awaits _ _ StoreCall.notSelf_entry
      (fun p write next d hawaits hp => p.statement_notSelf write next d hawaits hp)
      StorePc.ends_notSelf s a t ⟨hs.current, hs.durable, hs.notSelf⟩ _ h
    rintro i p write next d rfl hp hawaits hd
    rcases p.statement_memberships write next s.current d hawaits hd with ⟨m, rfl, -, hmem⟩ | ⟨-, hsub⟩
    · apply (AccountStore.acyclic_insert_iff s.current.toStore d.toStore m hmem hs.current).mpr
      intro htype
      exact ⟨hs.notSelf i _ hp htype, hs.searched i _ hp htype⟩
    · exact AccountStore.acyclic_mono s.current.toStore d.toStore hsub hs.current
  exact ⟨ht.current, ht.durable, ht.calls, searched_step s a t hs hcond h⟩

/-- The groups stay acyclic in every run of any calls in which nobody puts an edge on the way that a call of
`add_member` has looked for. -/
theorem groupsAcyclic_of_walksAlone (d : Database) (hd : d.toStore.Acyclic) (schedule : List (Action StoreCall))
    (halone : TransitionSystem.Guarded storeStep WalksAlone (connect d) schedule) :
    TransitionSystem.Throughout storeStep GroupsAcyclic (connect d) schedule := by
  apply TransitionSystem.throughout_of_guarded storeStep WalksAlone AcyclicInv GroupsAcyclic _ acyclicInv_step _ halone
  · intro t ht
    exact ⟨ht.current, t.current.toStore.resolveUserGroups_ne_groupCycle ht.current⟩
  · exact ⟨hd, hd, by simp [connect], by simp [connect]⟩

/-- The groups `staff` and `admins`, and a call that puts `admins` into `staff`. -/
def nestGroups : List (Action StoreCall) :=
  [.start (.createGroup "staff" 0), .resume 0, .resume 0, .resume 0,
    .start (.createGroup "admins" 0), .resume 1, .resume 1, .resume 1,
    .start (.addMember 1 .group 2), .resume 2, .resume 2, .resume 2, .resume 2]

/-- Two calls put `admins` and `ops` into `staff`; both walks are over before the first INSERT. -/
def nestSiblings : List (Action StoreCall) :=
  [.start (.createGroup "staff" 0), .resume 0, .resume 0, .resume 0,
    .start (.createGroup "admins" 0), .resume 1, .resume 1, .resume 1,
    .start (.createGroup "ops" 0), .resume 2, .resume 2, .resume 2,
    .start (.addMember 1 .group 2), .start (.addMember 1 .group 3), .resume 3, .resume 3, .resume 3, .resume 3,
    .resume 4, .resume 4, .resume 4, .resume 4, .resume 3, .resume 4, .resume 3, .resume 4]

theorem groupsAcyclic_of_walksAlone_nestSiblings :
    (TransitionSystem.run storeStep (connect Database.empty) nestSiblings).map (fun s => s.durable.memberships) =
        some [⟨1, .group, 2⟩, ⟨1, .group, 3⟩] ∧
      TransitionSystem.Throughout storeStep GroupsAcyclic (connect Database.empty) nestSiblings := by
  have hacyclic : Database.empty.toStore.Acyclic :=
    AccountStore.acyclic_of_lt _ (by simp [Database.toStore, Database.empty])
  refine ⟨by decide +kernel, ?_⟩
  exact groupsAcyclic_of_walksAlone Database.empty hacyclic nestSiblings (by decide +kernel)

/-- Two calls put `staff` and `admins` into each other; both walks are over before the first INSERT. -/
def nestBothWays : List (Action StoreCall) :=
  nestGroups ++ [.start (.addMember 2 .group 1), .resume 3, .resume 3, .resume 3, .resume 3,
    .resume 2, .resume 3]

theorem groupsAcyclic_not_throughout :
    ∃ s, TransitionSystem.run storeStep (connect Database.empty) nestBothWays = some s ∧
      ¬ GroupsAcyclic s := by
  have heval : (TransitionSystem.run storeStep (connect Database.empty) nestBothWays).any (fun s =>
      decide (⟨1, .group, 2⟩ ∈ s.current.memberships ∧ ⟨2, .group, 1⟩ ∈ s.current.memberships)) = true := by
    decide +kernel
  obtain ⟨s, hrun, hs⟩ := (Option.any_eq_true _ _).mp heval
  obtain ⟨hfirst, hsecond⟩ := of_decide_eq_true hs
  refine ⟨s, hrun, ?_⟩
  intro hacyclic
  have hup : s.current.toStore.Contains (.group, 2) (.group, 1) := ⟨rfl, hfirst⟩
  have hdown : s.current.toStore.Contains (.group, 1) (.group, 2) := ⟨rfl, hsecond⟩
  exact hacyclic.1 1 (Relation.TransGen.head hdown (Relation.TransGen.single hup))

end NetworkFileServer.Accounts
