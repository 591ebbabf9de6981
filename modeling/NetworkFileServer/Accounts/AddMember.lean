import NetworkFileServer.Accounts.GroupCycles

/-!
# A call of `add_member` that nobody interrupts

`_group_descendants` ends on every database, with the groups below its argument. So the checks of
`add_member` refuse the edges that close a cycle and those that are there, and no others.
-/

namespace NetworkFileServer.Accounts

open SharedTransaction (Alone advance)

namespace Database

/-- The member exists, as far as `add_member` looks. -/
def checkMember (d : Database) (m : Membership) : Except StoreError Unit :=
  match m.memberType with
  | .user => if (d.userById m.memberId).isNone then .error (.userNotFound m.memberId) else .ok ()
  | .group =>
      if (d.groupById m.memberId).isNone then .error (.groupNotFound m.memberId)
      else if m.memberId = m.groupId then .error (.groupCycle m.groupId m.memberId)
      else if (d.groupDescendants m.memberId).any (m.groupId ∈ ·) then
        .error (.groupCycle m.groupId m.memberId)
      else .ok ()

/-- `add_member` in one go. -/
def addMember (d : Database) (m : Membership) : Except StoreError Database :=
  if (d.groupById m.groupId).isNone then .error (.groupNotFound m.groupId)
  else
    match d.checkMember m with
    | .error e => .error e
    | .ok () =>
        match d.insertMembership m with
        | some d' => .ok d'
        | none => .error (.duplicateMembership m)

end Database

/-- Where a call ends that has nobody beside it, for the calls that return no user. -/
def finished (d : Database) : Except StoreError (Database × StoreResult) → Database × Database × StorePc
  | .ok (d', result) => (d', d', .returned result)
  | .error e => (d, d, .raised e)

theorem memberWalk_alone (d : Database) (m : Membership) (bound current : Nat) (walk : Worklist.Walk Nat)
    (descendants : List Nat) (h : Worklist.search d.childGroupIds bound current walk = some descendants) :
    Alone StorePc.awaits (d, d, .memberWalk m current walk)
      (d, d, if m.groupId ∈ descendants then .raised (.groupCycle m.groupId m.memberId) else .memberExists m) := by
  induction bound generalizing current walk with
  | zero => cases h
  | succ bound ih =>
      rw [Worklist.search] at h
      cases hfrontier : (walk.visit (d.childGroupIds current)).frontier with
      | nil =>
          simp only [hfrontier, Option.some.injEq] at h
          subst h
          apply Relation.ReflTransGen.single
          simp [advance, StorePc.awaits, StorePc.select, hfrontier]
      | cons next rest =>
          simp only [hfrontier] at h
          apply Relation.ReflTransGen.head _ (ih next _ h)
          simp [advance, StorePc.awaits, StorePc.select, hfrontier]

theorem checkMember_alone (d : Database) (m : Membership) (hgroup : (d.groupById m.groupId).isNone = false) :
    Alone StorePc.awaits (d, d, .memberGroup m)
      (d, d, match d.checkMember m with | .ok () => .memberExists m | .error e => .raised e) := by
  cases htype : m.memberType with
  | user =>
      have hselect : advance StorePc.awaits (d, d, .memberGroup m) = some (d, d, .memberUser m) := by
        simp only [advance, StorePc.awaits, StorePc.select, hgroup, htype, Bool.false_eq_true, if_false,
          Option.getD_none]
      refine .head hselect (.single ?_)
      simp only [advance, StorePc.awaits, StorePc.select, Database.checkMember, htype, Option.getD_none]
      split <;> rfl
  | group =>
      have hselect : advance StorePc.awaits (d, d, .memberGroup m) = some (d, d, .memberChild m) := by
        simp only [advance, StorePc.awaits, StorePc.select, hgroup, htype, Bool.false_eq_true, if_false,
          Option.getD_none]
      refine .head hselect ?_
      by_cases hchild : (d.groupById m.memberId).isNone = true
      · refine .single ?_
        simp only [advance, StorePc.awaits, StorePc.select, Database.checkMember, htype, hchild, if_true,
          Option.getD_none]
      rw [Bool.not_eq_true] at hchild
      by_cases hself : m.memberId = m.groupId
      · refine .single ?_
        simp only [advance, StorePc.awaits, StorePc.select, Database.checkMember, htype, hself, hgroup,
          Bool.false_eq_true, if_false, if_true, Option.getD_none]
      · have hwalk : advance StorePc.awaits (d, d, .memberChild m) =
            some (d, d, .memberWalk m m.memberId ⟨[], []⟩) := by
          simp only [advance, StorePc.awaits, StorePc.select, hchild, Bool.false_eq_true, if_false, hself,
            Option.getD_none]
        refine .head hwalk ?_
        obtain ⟨descendants, hsearch, -⟩ := d.groupDescendants_exact m.memberId
        have hend := memberWalk_alone d m _ m.memberId ⟨[], []⟩ descendants hsearch
        simp only [Database.checkMember, htype, hchild, Bool.false_eq_true, if_false, hself, hsearch,
          Option.any_some, decide_eq_true_eq]
        by_cases hmem : m.groupId ∈ descendants
        · rw [if_pos hmem] at hend ⊢
          exact hend
        · rw [if_neg hmem] at hend ⊢
          exact hend

/-- The last two statements: an edge that is there is refused, and another one is committed. -/
theorem memberExists_alone (d : Database) (m : Membership) :
    Alone StorePc.awaits (d, d, .memberExists m)
      (finished d (match d.insertMembership m with
        | some d' => .ok (d', .done)
        | none => .error (.duplicateMembership m))) := by
  cases hinsert : d.insertMembership m with
  | none =>
      have hold := (d.insertMembership_eq_none_iff m).mp hinsert
      apply Relation.ReflTransGen.single
      simp [advance, StorePc.awaits, StorePc.select, Database.membershipExists, hold, finished]
  | some d' =>
      have hnew := (d.insertMembership_eq_some d' m hinsert).1
      have hselect : advance StorePc.awaits (d, d, .memberExists m) = some (d, d, .memberInsert m) := by
        simp only [advance, StorePc.awaits, StorePc.select, Database.membershipExists, Option.getD_none,
          List.any_eq_true, decide_eq_true_eq, exists_eq_right]
        rw [if_neg hnew]
      have hwrite : advance StorePc.awaits (d, d, .memberInsert m) = some (d, d', .commit .done) := by
        simp [advance, StorePc.awaits, StorePc.write, hinsert]
      have hcommit : advance StorePc.awaits (d, d', .commit .done) = some (d', d', .returned .done) := rfl
      exact .head hselect (.head hwrite (.single hcommit))

theorem addMember_alone (d : Database) (m : Membership) :
    Alone StorePc.awaits (d, d, (StoreCall.addMember m.groupId m.memberType m.memberId).entry)
      (finished d ((d.addMember m).map fun d' => (d', .done))) := by
  have hentry : (StoreCall.addMember m.groupId m.memberType m.memberId).entry = .memberGroup m := rfl
  rw [hentry]
  by_cases hgroup : (d.groupById m.groupId).isNone = true
  · refine .single ?_
    simp only [advance, StorePc.awaits, StorePc.select, Database.addMember, hgroup, if_true, finished, Except.map,
      Option.getD_none]
  · rw [Bool.not_eq_true] at hgroup
    have hcheck := checkMember_alone d m hgroup
    simp only [Database.addMember, hgroup, Bool.false_eq_true, if_false]
    cases hmember : d.checkMember m with
    | error e =>
        rw [hmember] at hcheck
        exact hcheck
    | ok checked =>
        rw [hmember] at hcheck
        apply hcheck.trans
        have hend := memberExists_alone d m
        cases hinsert : d.insertMembership m with
        | none =>
            rw [hinsert] at hend
            exact hend
        | some d' =>
            rw [hinsert] at hend
            exact hend

namespace Database

/-- The member that `add_member` is called with exists. -/
def HasMember (d : Database) (m : Membership) : Prop :=
  match m.memberType with
  | .user => (d.userById m.memberId).isSome = true
  | .group => (d.groupById m.memberId).isSome = true

/-- The memberships with one edge more. -/
def withEdge (d : Database) (m : Membership) : AccountStore :=
  { d.toStore with memberships := d.memberships ++ [m] }

/-- The edge would put a group into itself, directly or through other groups. -/
def ClosesCycle (d : Database) (m : Membership) : Prop :=
  m.memberType = .group ∧ (m.memberId = m.groupId ∨ d.toStore.InGroup (.group, m.groupId) m.memberId)

theorem closesCycle_iff (d : Database) (hacyclic : d.toStore.Acyclic) (m : Membership) :
    d.ClosesCycle m ↔ ¬ (d.withEdge m).Acyclic := by
  rw [AccountStore.acyclic_insert_iff d.toStore (d.withEdge m) m (by simp [withEdge, toStore]) hacyclic]
  unfold ClosesCycle
  constructor
  · intro hcloses hapart
    obtain ⟨htype, hcycle⟩ := hcloses
    obtain ⟨hne, hnot⟩ := hapart htype
    exact hcycle.elim hne hnot
  · intro hcycle
    by_contra hopen
    apply hcycle
    intro htype
    refine ⟨?_, ?_⟩
    · intro heq
      exact hopen ⟨htype, .inl heq⟩
    · intro hin
      exact hopen ⟨htype, .inr hin⟩

theorem not_closesCycle_of_mem (d : Database) (hacyclic : d.toStore.Acyclic) (m : Membership)
    (hmem : m ∈ d.memberships) : ¬ d.ClosesCycle m := by
  rw [d.closesCycle_iff hacyclic m, not_not]
  apply AccountStore.acyclic_mono d.toStore _ _ hacyclic
  intro m' hm'
  rcases List.mem_append.mp hm' with hold | hnew
  · exact hold
  · rw [List.mem_singleton.mp hnew]
    exact hmem

theorem checkMember_of_hasMember (d : Database) (m : Membership) (hmember : d.HasMember m) :
    (d.ClosesCycle m ∧ d.checkMember m = .error (.groupCycle m.groupId m.memberId)) ∨
      (¬ d.ClosesCycle m ∧ d.checkMember m = .ok ()) := by
  unfold HasMember at hmember
  unfold ClosesCycle checkMember
  cases htype : m.memberType with
  | user =>
      simp only [htype, Option.isSome_iff_ne_none] at hmember
      right
      simp [hmember]
  | group =>
      simp only [htype, Option.isSome_iff_ne_none] at hmember
      obtain ⟨descendants, hsearch, hexact⟩ := d.groupDescendants_exact m.memberId
      have hfound : (d.groupDescendants m.memberId).any (m.groupId ∈ ·) = true ↔
          d.toStore.InGroup (.group, m.groupId) m.memberId := by
        rw [hsearch, Option.any_some, decide_eq_true_eq, hexact, AccountStore.inGroup_iff_transGen]
      simp only [Option.isNone_iff_eq_none, hmember, if_false, true_and]
      by_cases hself : m.memberId = m.groupId
      · exact .inl ⟨.inl hself, if_pos hself⟩
      rw [if_neg hself]
      by_cases hback : d.toStore.InGroup (.group, m.groupId) m.memberId
      · exact .inl ⟨.inr hback, if_pos (hfound.mpr hback)⟩
      · refine .inr ⟨not_or.mpr ⟨hself, hback⟩, if_neg ?_⟩
        rw [hfound]
        exact hback

theorem addMember_cases (d : Database) (m : Membership) (hgroup : (d.groupById m.groupId).isSome = true)
    (hmember : d.HasMember m) :
    (d.ClosesCycle m ∧ d.addMember m = .error (.groupCycle m.groupId m.memberId)) ∨
    (¬ d.ClosesCycle m ∧ m ∈ d.memberships ∧ d.addMember m = .error (.duplicateMembership m)) ∨
    (¬ d.ClosesCycle m ∧ m ∉ d.memberships ∧ ∃ d', d.addMember m = .ok d' ∧
      d'.toTables = { d.toTables with memberships := d.memberships ++ [m] }) := by
  have hnone : (d.groupById m.groupId).isNone = false := by
    rw [Option.isNone_eq_false_iff]
    exact hgroup
  unfold addMember
  rw [hnone, if_neg (by simp)]
  rcases d.checkMember_of_hasMember m hmember with ⟨hcycle, hcheck⟩ | ⟨hopen, hcheck⟩
  · exact .inl ⟨hcycle, by rw [hcheck]⟩
  · right
    rw [hcheck]
    cases hinsert : d.insertMembership m with
    | none => exact .inl ⟨hopen, (d.insertMembership_eq_none_iff m).mp hinsert, rfl⟩
    | some d' =>
        obtain ⟨hnew, htables⟩ := d.insertMembership_eq_some d' m hinsert
        exact .inr ⟨hopen, hnew, d', rfl, htables⟩

end Database

/-- A call of `add_member` that has the connection for itself ends as the method does in one go. -/
theorem addMember_run (d : Database) (m : Membership) :
    ∃ n t pc, TransitionSystem.run storeStep (SharedTransaction.connect d)
        (.start (.addMember m.groupId m.memberType m.memberId) :: List.replicate n (.resume 0)) = some t ∧
      t.calls = [pc] ∧
      (t.durable, t.current, pc) = finished d ((d.addMember m).map fun d' => (d', .done)) := by
  obtain ⟨n, t, hrun, hdurable, hcurrent, hcalls⟩ :=
    SharedTransaction.run_start_of_alone StoreCall.entry StorePc.awaits d
      (.addMember m.groupId m.memberType m.memberId) _ (addMember_alone d m)
  exact ⟨n, t, _, hrun, hcalls, by rw [hdurable, hcurrent]⟩

/-- The walk ends with the groups below its argument, on every database. If no group contains itself and the
arguments of a call exist, the call ends: it refuses the edges that close a cycle and those that are there, and
leaves the database as it was, and otherwise it adds its edge and nothing else. -/
theorem addMember_exact (d : Database) (m : Membership) :
    (∀ groupId, ∃ descendants, d.groupDescendants groupId = some descendants ∧
      ∀ c, c ∈ descendants ↔ Relation.TransGen d.toStore.ContainsGroup groupId c) ∧
    (d.toStore.Acyclic → (d.groupById m.groupId).isSome = true → d.HasMember m →
      ∃ n t pc, TransitionSystem.run storeStep (SharedTransaction.connect d)
          (.start (.addMember m.groupId m.memberType m.memberId) :: List.replicate n (.resume 0)) = some t ∧
        t.calls = [pc] ∧ t.durable = t.current ∧
        ((∃ g c, pc = .raised (.groupCycle g c)) ↔ m.memberType = .group ∧ ¬ (d.withEdge m).Acyclic) ∧
        (¬ (d.withEdge m).Acyclic ↔ m.memberType = .group ∧
          (m.memberId = m.groupId ∨ d.toStore.InGroup (.group, m.groupId) m.memberId)) ∧
        ((∃ m', pc = .raised (.duplicateMembership m')) ↔ m ∈ d.memberships) ∧
        ((∃ e, pc = .raised e) → t.current = d) ∧
        ((¬ ∃ e, pc = .raised e) → pc = .returned .done ∧
          t.current.toTables = { d.toTables with memberships := d.memberships ++ [m] })) := by
  refine ⟨d.groupDescendants_exact, ?_⟩
  intro hacyclic hgroup hmember
  obtain ⟨n, t, pc, hrun, hcalls, hend⟩ := addMember_run d m
  have hiff := d.closesCycle_iff hacyclic m
  have htyped : m.memberType = .group ∧ ¬ (d.withEdge m).Acyclic ↔ d.ClosesCycle m := by
    rw [← hiff]
    exact ⟨And.right, fun hcycle => ⟨hcycle.1, hcycle⟩⟩
  refine ⟨n, t, pc, hrun, hcalls, ?_⟩
  rw [htyped]
  refine ⟨?_, ?_, hiff.symm, ?_⟩
  all_goals
    rcases d.addMember_cases m hgroup hmember with ⟨hcycle, hresult⟩ | ⟨hopen, hold, hresult⟩ |
      ⟨hopen, hnew, d', hresult, htables⟩
  all_goals
    simp only [hresult, Except.map, finished, Prod.mk.injEq] at hend
    obtain ⟨hdurable, hcurrent, rfl⟩ := hend
  · rw [hdurable, hcurrent]
  · rw [hdurable, hcurrent]
  · rw [hdurable, hcurrent]
  · simp [hcycle]
  · simp [hopen]
  · simp [hopen]
  · have hnew : m ∉ d.memberships := fun hold => d.not_closesCycle_of_mem hacyclic m hold hcycle
    simp [hnew, hcurrent]
  · simp [hold, hcurrent]
  · simp [hnew, hcurrent, htables]

/-- The groups `staff` and `admins`; `admins` is in `staff`. -/
def nestedGroups : Database :=
  { Database.empty with
    groups := [⟨1, "admins", 0⟩, ⟨2, "staff", 0⟩]
    memberships := [⟨2, .group, 1⟩]
    lastGroupId := 2
    constraints := by constructor <;> simp [Database.empty] }

theorem addMember_exact_nestedGroups :
    ∃ n t pc, TransitionSystem.run storeStep (SharedTransaction.connect nestedGroups)
        (.start (.addMember 1 .group 2) :: List.replicate n (.resume 0)) = some t ∧
      t.calls = [pc] ∧ (∃ g c, pc = .raised (.groupCycle g c)) ∧ t.current = nestedGroups := by
  have hacyclic : nestedGroups.toStore.Acyclic :=
    AccountStore.acyclic_of_lt _ (by simp [Database.toStore, nestedGroups])
  obtain ⟨n, t, pc, hrun, hcalls, -, hcycle, hcloses, -, hunchanged, -⟩ :=
    (addMember_exact nestedGroups ⟨1, .group, 2⟩).2 hacyclic (by decide) (by simp [Database.HasMember]; decide)
  have hin : nestedGroups.toStore.InGroup (.group, 1) 2 := Relation.TransGen.single ⟨rfl, by decide⟩
  have hraised := hcycle.mpr ⟨rfl, hcloses.mpr ⟨rfl, .inr hin⟩⟩
  obtain ⟨g, c, rfl⟩ := hraised
  exact ⟨n, t, _, hrun, hcalls, ⟨g, c, rfl⟩, hunchanged ⟨_, rfl⟩⟩

end NetworkFileServer.Accounts
