import NetworkFileServer.Accounts.AddMember

/-!
# Groups, one call at a time

`create_group` and `remove_member` with nobody else on the connection, and the names of the groups in
every interleaving: `create_group` strips its argument, so no other names get into the table.
-/

namespace NetworkFileServer.Accounts

open SharedTransaction (Action Alone Await Holds advance connect holds_step)

namespace Database

/-- `create_group` in one go. -/
def createGroup (d : Database) (name : String) (createdAt : ℚ) : Except StoreError (Database × Group) :=
  if Text.strip name = "" then .error (.valueError "group name must be a non-empty string")
  else
    match d.insertGroup (Text.strip name) createdAt with
    | some d' => .ok (d', d.newGroup (Text.strip name) createdAt)
    | none => .error (.groupNameTaken (Text.strip name))

/-- `remove_member` in one go. -/
def removeMember (d : Database) (m : Membership) : Except StoreError Database :=
  match d.deleteMemberships fun m' => m' = m with
  | some d' => .ok d'
  | none => .error (.membershipNotFound m)

theorem insertGroup_eq_none_iff (d : Database) (name : String) (createdAt : ℚ) :
    d.insertGroup name createdAt = none ↔ name ∈ d.groups.map Group.name := by
  unfold insertGroup
  simp only
  split
  · rename_i h
    simp [h]
  · rename_i h
    simp [h]

theorem groupNameExists_iff (d : Database) (name : String) :
    d.groupNameExists name = true ↔ name ∈ d.groups.map Group.name := by
  simp [groupNameExists, List.any_eq_true, List.mem_map]

theorem groupById_eq_some (d : Database) (groupId : Nat) (g : Group) :
    d.groupById groupId = some g ↔ g ∈ d.groups ∧ g.id = groupId :=
  KeyedTable.find?_eq_some_iff Group.id _ groupId d.groups d.constraints.groupIds (by simp) g

theorem group_eq_of_id (d : Database) {g g' : Group} (hg : g ∈ d.groups) (hg' : g' ∈ d.groups) (h : g.id = g'.id) :
    g = g' :=
  List.inj_on_of_nodup_map d.constraints.groupIds hg hg' h

theorem group_eq_of_name (d : Database) {g g' : Group} (hg : g ∈ d.groups) (hg' : g' ∈ d.groups)
    (h : g.name = g'.name) : g = g' :=
  List.inj_on_of_nodup_map d.constraints.groupNames hg hg' h

end Database

theorem createGroup_alone (d : Database) (name : String) (createdAt : ℚ) :
    Alone StorePc.awaits (d, d, (StoreCall.createGroup name createdAt).entry)
      (finished d ((d.createGroup name createdAt).map fun (d', g) => (d', .group g))) := by
  by_cases hblank : Text.strip name = ""
  · simp only [StoreCall.entry, Database.createGroup, hblank, if_true]
    exact .refl
  · simp only [StoreCall.entry, Database.createGroup, hblank, if_false]
    generalize Text.strip name = stripped
    cases hinsert : d.insertGroup stripped createdAt with
    | none =>
        have hexists := (d.groupNameExists_iff stripped).mpr ((d.insertGroup_eq_none_iff stripped createdAt).mp hinsert)
        exact .single (by simp [advance, StorePc.awaits, StorePc.select, hexists, finished, Except.map])
    | some d' =>
        have hfree : d.groupNameExists stripped = false := by
          rw [← Bool.not_eq_true, d.groupNameExists_iff, ← d.insertGroup_eq_none_iff stripped createdAt, hinsert]
          simp
        have hselect : advance StorePc.awaits (d, d, .groupNameExists stripped createdAt) =
            some (d, d, .groupInsert stripped createdAt) := by
          simp [advance, StorePc.awaits, StorePc.select, hfree]
        have hwrite : advance StorePc.awaits (d, d, .groupInsert stripped createdAt) =
            some (d, d', .commit (.group (d.newGroup stripped createdAt))) := by
          simp [advance, StorePc.awaits, StorePc.write, hinsert]
        have hcommit : advance StorePc.awaits (d, d', .commit (.group (d.newGroup stripped createdAt))) =
            some (d', d', .returned (.group (d.newGroup stripped createdAt))) := rfl
        exact .head hselect (.head hwrite (.single hcommit))

theorem removeMember_alone (d : Database) (m : Membership) :
    Alone StorePc.awaits (d, d, (StoreCall.removeMember m.groupId m.memberType m.memberId).entry)
      (finished d ((d.removeMember m).map fun d' => (d', .done))) := by
  have hentry : (StoreCall.removeMember m.groupId m.memberType m.memberId).entry = .memberDelete m := rfl
  rw [hentry]
  unfold Database.removeMember
  cases hdelete : d.deleteMemberships fun m' => m' = m with
  | none => exact .single (by simp [advance, StorePc.awaits, StorePc.write, hdelete, finished, Except.map])
  | some d' =>
      have hwrite : advance StorePc.awaits (d, d, .memberDelete m) = some (d, d', .commit .done) := by
        simp [advance, StorePc.awaits, StorePc.write, hdelete]
      have hcommit : advance StorePc.awaits (d, d', .commit .done) = some (d', d', .returned .done) := rfl
      exact .head hwrite (.single hcommit)

/-- A name as `create_group` stores it. -/
def IsGroupName (name : String) : Prop := Text.strip name = name ∧ name ≠ ""

theorem isGroupName_strip (name : String) (h : Text.strip name ≠ "") : IsGroupName (Text.strip name) :=
  ⟨Text.strip_strip name, h⟩

def Database.GroupsNamed (d : Database) : Prop := ∀ g ∈ d.groups, IsGroupName g.name

theorem Database.GroupsNamed.insert {d d' : Database} {name : String} {createdAt : ℚ} (hd : d.GroupsNamed)
    (hname : IsGroupName name) (h : d.insertGroup name createdAt = some d') : d'.GroupsNamed := by
  have htables := d.insertGroup_eq_some d' _ _ h
  intro g hg
  rw [htables] at hg
  rcases List.mem_append.mp hg with hold | hnew
  · exact hd g hold
  · rw [List.mem_singleton.mp hnew]
    exact hname

/-- The name that a call is about to insert. -/
def StorePc.GroupNamed : StorePc → Prop
  | .groupNameExists name _ | .groupInsert name _ => IsGroupName name
  | _ => True

structure GroupNamesInv (s : StoreConnection) : Prop where
  current : s.current.GroupsNamed
  durable : s.durable.GroupsNamed
  calls : ∀ (i : Nat) (p : StorePc), s.calls[i]? = some p → p.GroupNamed

theorem StoreCall.groupNamed_entry (call : StoreCall) : call.entry.GroupNamed := by
  cases call with
  | createGroup name createdAt =>
      simp only [entry]
      split
      · trivial
      · rename_i hne
        exact isGroupName_strip name hne
  | createUser _ _ _ _ | createExternalUser _ _ _ _ _ _ =>
      simp only [entry]
      split
      · trivial
      · split <;> trivial
  | setUserQuota _ _ =>
      simp only [entry]
      split <;> trivial
  | setUserActive _ _ | deleteGroup _ | addMember _ _ _ | removeMember _ _ _ => trivial

theorem StorePc.statement_groups (p : StorePc) (statement : Database → Option Database)
    (next : Database → StorePc) (d d' : Database) (h : p.awaits = .statement statement next)
    (hd : statement d = some d') :
    (∃ name createdAt, p = .groupInsert name createdAt ∧ d.insertGroup name createdAt = some d') ∨
      ∀ g ∈ d'.groups, g ∈ d.groups := by
  rcases p.statement_cases statement next d d' h hd with hinsert | ⟨m, rfl, hinsert⟩ | ⟨-, hsub, -⟩
  · exact .inl hinsert
  · have htables := (d.insertMembership_eq_some d' m hinsert).2
    exact .inr (by simp [htables])
  · exact .inr hsub

theorem StorePc.statement_groupNamed (p : StorePc) (statement : Database → Option Database)
    (next : Database → StorePc) (d : Database) (h : p.awaits = .statement statement next)
    (hp : p.GroupNamed) : (next d).GroupNamed := by
  cases p with
  | groupNameExists name createdAt =>
      simp only [awaits, select, Await.statement.injEq] at h
      obtain ⟨-, rfl⟩ := h
      simp only
      split
      · trivial
      · exact hp
  | memberGroup m | memberChild m | memberWalk m _ _ =>
      simp only [awaits, select, Await.statement.injEq] at h
      obtain ⟨-, rfl⟩ := h
      simp only
      split
      · trivial
      · split <;> trivial
  | userExists _ | externalExists _ _ _ | memberUser _ | memberExists _ | quotaUser _ _ =>
      simp only [awaits, select, Await.statement.injEq] at h
      obtain ⟨-, rfl⟩ := h
      simp only
      split <;> trivial
  | userInsert _ | externalInsertUser _ _ _ | externalInsertLink _ _ _ | activeUpdate _ _
  | groupInsert _ _ | groupDelete _ | memberInsert _ | memberDelete _ =>
      simp only [awaits, write, Await.statement.injEq] at h
      obtain ⟨-, rfl⟩ := h
      simp only
      split <;> trivial
  | groupDeleteContents _ | groupDeleteParents _ | quotaReplace _ _ =>
      simp only [awaits, Await.statement.injEq] at h
      obtain ⟨-, rfl⟩ := h
      trivial
  | externalRollback _ _ | commit _ | returned _ | raised _ => simp [awaits] at h

theorem StorePc.ends_groupNamed (p next : StorePc)
    (h : p.awaits = .commit next ∨ p.awaits = .rollback next) : next.GroupNamed := by
  rcases p.ends next h with ⟨_, rfl⟩ | ⟨_, rfl⟩ <;> trivial

theorem groupNamesInv_step (s : StoreConnection) (a : Action StoreCall) (t : StoreConnection)
    (hs : GroupNamesInv s) (h : storeStep s a = some t) : GroupNamesInv t := by
  have ht : Holds Database.GroupsNamed StorePc.GroupNamed t := by
    apply holds_step StoreCall.entry StorePc.awaits _ _ StoreCall.groupNamed_entry
      (fun p write next d hawaits hp => p.statement_groupNamed write next d hawaits hp)
      StorePc.ends_groupNamed s a t ⟨hs.current, hs.durable, hs.calls⟩ _ h
    intro i p write next d _ hp hawaits hd
    rcases p.statement_groups write next s.current d hawaits hd with ⟨name, _, rfl, hinsert⟩ | hsub
    · exact hs.current.insert (hs.calls i _ hp) hinsert
    · exact fun g hg => hs.current g (hsub g hg)
  exact ⟨ht.current, ht.durable, ht.calls⟩

/-- In every run of any calls, from a new database on, the groups have the names that `create_group` gives. -/
theorem groupsNamed_run (schedule : List (Action StoreCall)) (s : StoreConnection)
    (hrun : TransitionSystem.run storeStep (connect Database.empty) schedule = some s) :
    s.current.GroupsNamed ∧ s.durable.GroupsNamed := by
  have hinv := TransitionSystem.run_invariant storeStep GroupNamesInv groupNamesInv_step
    ⟨by simp [connect, Database.empty, Database.GroupsNamed],
      by simp [connect, Database.empty, Database.GroupsNamed], by simp [connect]⟩ hrun
  exact ⟨hinv.current, hinv.durable⟩

end NetworkFileServer.Accounts
