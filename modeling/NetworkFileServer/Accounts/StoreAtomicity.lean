import NetworkFileServer.Accounts.StoreCalls

/-!
# Which calls of the account store are atomic

Every call of the store ends what it has begun: it commits before it returns, and the one call that
raises after a write rolls back first. What is left are the transactions of the others.
-/

namespace NetworkFileServer.Accounts

open SharedTransaction

namespace StorePc

/-- How far a call at the position is with its own transaction. -/
def stage : StorePc → Stage
  | .externalInsertLink _ _ _ | .externalRollback _ (some _) | .groupDeleteContents _
  | .groupDeleteParents _ | .commit _ => .writing
  | .returned _ => .settled
  | .userExists _ | .userInsert _ | .externalExists _ _ _ | .externalInsertUser _ _ _
  | .externalRollback _ none | .activeUpdate _ _ | .groupNameExists _ _ | .groupInsert _ _
  | .groupDelete _ | .memberGroup _ | .memberUser _ | .memberChild _ | .memberWalk _ _ _
  | .memberExists _ | .memberInsert _ | .memberDelete _ | .quotaUser _ _ | .quotaReplace _ _
  | .raised _ => .clean

theorem stage_memberWalk (m : Membership) (walk : Worklist.Walk Nat) :
    stage (match walk.frontier with
      | next :: rest => .memberWalk m next { walk with frontier := rest }
      | [] =>
          if m.groupId ∈ walk.descendants then .raised (.groupCycle m.groupId m.memberId)
          else .memberExists m) = .clean := by
  cases walk.frontier with
  | cons next rest => rfl
  | nil => simp only; split <;> rfl

theorem stage_reads (p : StorePc) (statement : Database → Option Database) (next : Database → StorePc)
    (d : Database) (h : p.awaits = .statement statement next) (hnone : statement d = none) :
    (next d).stage = p.stage := by
  cases p with
  | memberWalk m current walk =>
      simp only [awaits, select, Await.statement.injEq] at h
      obtain ⟨rfl, rfl⟩ := h
      exact stage_memberWalk m _
  | memberGroup m =>
      simp only [awaits, select, Await.statement.injEq] at h
      obtain ⟨rfl, rfl⟩ := h
      cases m.memberType <;> simp only <;> split <;> rfl
  | memberChild m =>
      simp only [awaits, select, Await.statement.injEq] at h
      obtain ⟨rfl, rfl⟩ := h
      simp only
      split
      · rfl
      · split <;> rfl
  | userExists _ | externalExists _ _ _ | groupNameExists _ _ | memberUser _ | memberExists _
  | quotaUser _ _ =>
      simp only [awaits, select, Await.statement.injEq] at h
      obtain ⟨rfl, rfl⟩ := h
      simp only
      split <;> rfl
  | userInsert _ | externalInsertUser _ _ _ | externalInsertLink _ _ _ | activeUpdate _ _
  | groupInsert _ _ | groupDelete _ | memberInsert _ | memberDelete _ =>
      simp only [awaits, write, Await.statement.injEq] at h
      obtain ⟨rfl, rfl⟩ := h
      simp only [hnone]
      rfl
  | groupDeleteContents _ | groupDeleteParents _ =>
      simp only [awaits, Await.statement.injEq] at h
      obtain ⟨rfl, rfl⟩ := h
      rfl
  | quotaReplace _ _ =>
      simp only [awaits, Await.statement.injEq] at h
      obtain ⟨rfl, rfl⟩ := h
      cases hnone
  | externalRollback _ _ | commit _ | returned _ | raised _ => simp [awaits] at h

theorem stage_writes (p : StorePc) (statement : Database → Option Database) (next : Database → StorePc)
    (d d' : Database) (h : p.awaits = .statement statement next) (hsome : statement d = some d') :
    p.stage ≠ .settled ∧ (next d).stage = .writing := by
  cases p with
  | userExists _ | externalExists _ _ _ | groupNameExists _ _ | memberGroup _ | memberUser _
  | memberChild _ | memberWalk _ _ _ | memberExists _ | quotaUser _ _ =>
      simp only [awaits, select, Await.statement.injEq] at h
      obtain ⟨rfl, rfl⟩ := h
      cases hsome
  | userInsert _ | externalInsertUser _ _ _ | externalInsertLink _ _ _ | activeUpdate _ _
  | groupInsert _ _ | groupDelete _ | memberInsert _ | memberDelete _ =>
      simp only [awaits, write, Await.statement.injEq] at h
      obtain ⟨rfl, rfl⟩ := h
      simp [hsome, stage]
  | groupDeleteContents _ | groupDeleteParents _ | quotaReplace _ _ =>
      simp only [awaits, Await.statement.injEq] at h
      obtain ⟨rfl, rfl⟩ := h
      simp [stage]
  | externalRollback _ _ | commit _ | returned _ | raised _ => simp [awaits] at h

theorem disciplined : Disciplined awaits stage where
  reads := stage_reads
  writes := stage_writes
  commits := by
    intro p next h
    cases p <;> simp only [awaits, select, write, reduceCtorEq, Await.commit.injEq] at h
    rw [← h]
    rfl
  rollsBack := by
    intro p next h
    cases p <;> simp only [awaits, select, write, reduceCtorEq, Await.rollback.injEq] at h
    rw [← h]
    rfl
  returns := by
    intro p h
    cases p <;> simp [awaits, select, write, stage] at h ⊢
  raises := by
    intro p h
    cases p <;> simp [awaits, select, write, stage] at h ⊢

end StorePc

theorem StoreCall.stage_entry (call : StoreCall) : call.entry.stage = .clean := by
  cases call with
  | createUser _ _ _ _ | createExternalUser _ _ _ _ _ _ =>
      simp only [entry]
      split
      · rfl
      · split <;> rfl
  | createGroup _ _ | setUserQuota _ _ =>
      simp only [entry]
      split <;> rfl
  | setUserActive _ _ | deleteGroup _ | addMember _ _ _ | removeMember _ _ _ => rfl

/-- In every interleaving of any calls, over any database: as long as a rollback of
`create_external_user` meets no write of another call in the open transaction, and its own row not in
the committed database, a call that has returned has committed all of its writes and a call that has
raised none. -/
theorem storeCalls_atomic (d : Database) (schedule : List (Action StoreCall))
    (hguard : TransitionSystem.Guarded storeStep (OwnRollback StorePc.awaits) (connect d) schedule) :
    TransitionSystem.Throughout storeStep
      (fun s => Atomic StorePc.awaits s ∧ s.durable = replay s.committed d) (connect d) schedule :=
  atomic_throughout StoreCall.entry StorePc.awaits StorePc.stage StorePc.disciplined
    StoreCall.stage_entry d schedule hguard

/-- A first login of `bob`, and a second one with the same subject that rolls its own row back. -/
def loginTwice : List (Action StoreCall) :=
  [.start (.createExternalUser "authentik" "sub-1" "bob" none [1] 0),
    .start (.createExternalUser "authentik" "sub-1" "bob-2" none [2] 0),
    .resume 0, .resume 1, .resume 0, .resume 0, .resume 0, .resume 1, .resume 1, .resume 1]

theorem storeCalls_atomic_loginTwice :
    TransitionSystem.Guarded storeStep (OwnRollback StorePc.awaits) (connect Database.empty) loginTwice ∧
      TransitionSystem.Throughout storeStep
        (fun s => Atomic StorePc.awaits s ∧ s.durable = replay s.committed Database.empty)
        (connect Database.empty) loginTwice := by
  have hguard : TransitionSystem.Guarded storeStep (OwnRollback StorePc.awaits)
      (connect Database.empty) loginTwice := by decide +kernel
  exact ⟨hguard, storeCalls_atomic Database.empty loginTwice hguard⟩

/-- The SSO login of `bob` and the sign-up of `bob` have both found the name free. The INSERT of the
login fails, and its rollback takes the row of the sign-up with it. -/
def loginOverSignup : List (Action StoreCall) :=
  [.start (.createExternalUser "authentik" "sub-1" "bob" none [1] 0),
    .start (.createUser "bob" [2] none 0),
    .resume 0, .resume 1, .resume 1, .resume 0, .resume 0, .resume 1]

/-- The sign-up has returned its user, which is not in the database. -/
theorem storeCalls_not_atomic :
    ∃ s, TransitionSystem.run storeStep (connect Database.empty) loginOverSignup = some s ∧
      s.calls[1]? = some (.returned (.user ⟨1, "bob", none, [2], 0, true⟩)) ∧
      s.durable.users = [] ∧ ¬ Atomic StorePc.awaits s := by
  have heval : (TransitionSystem.run storeStep (connect Database.empty) loginOverSignup).any (fun s =>
      decide (s.calls[1]? = some (.returned (.user ⟨1, "bob", none, [2], 0, true⟩)) ∧
        s.durable.users = [] ∧ s.committed.length = 0 ∧ (ownedBy 1 s.written).length = 1)) = true := by
    decide +kernel
  obtain ⟨s, hrun, hs⟩ := (Option.any_eq_true _ _).mp heval
  obtain ⟨hcall, husers, hcommitted, hwritten⟩ := of_decide_eq_true hs
  refine ⟨s, hrun, hcall, husers, ?_⟩
  intro hatomic
  have hall : ownedBy 1 s.committed = ownedBy 1 s.written := hatomic 1 _ hcall
  rw [← hall, List.eq_nil_of_length_eq_zero hcommitted] at hwritten
  simp [ownedBy] at hwritten

end NetworkFileServer.Accounts
