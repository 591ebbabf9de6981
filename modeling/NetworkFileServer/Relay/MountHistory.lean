import NetworkFileServer.Relay.AccessProvenance
import NetworkFileServer.Relay.CodeReuse

/-!
# What a mount owes to its history

The agent that is connected to a mount is the one that was given its code last, if nothing has taken it since. The mode
of the mount is that of the policy that was declared last.
-/

namespace NetworkFileServer.Relay

open SqliteRegistry TransitionSystem

variable {κ : Type*}

namespace SqliteRegistry

/-- The mount is ONLINE, and this is its connection. -/
def Attached (r : SqliteRegistry κ) (code : Code) (connection : κ) : Prop :=
  (∃ row, r.mounts code = some row ∧ row.status = .online) ∧ r.connections code = some connection

theorem getConnection_eq_ok_iff_attached (r : SqliteRegistry κ) (closed : κ → Bool) (code : Code) (connection : κ) :
    r.getConnection closed code = .ok connection ↔ r.Attached code connection ∧ closed connection = false := by
  rw [getConnection_eq_ok_iff, Attached, and_assoc]

end SqliteRegistry

namespace RelayRegistry

/-- The agent of the connection is given the code. -/
def Attaches (code : Code) (connection : κ) (s : RelayRegistry κ) (e : ℚ × RelayEvent κ) : Prop :=
  ∃ now auth generated effectiveTtl a, e = (now, .mount (.connect auth connection generated effectiveTtl)) ∧
    s.registry.assignCode now auth connection generated effectiveTtl = .ok a ∧ a.code = code

/-- The mount loses the agent that it has: another one is given the code, the connection ends, the mount expires or is
deregistered, or the relay restarts. -/
inductive Detaches (code : Code) (s : RelayRegistry κ) : ℚ × RelayEvent κ → Prop
  | replaced (now : ℚ) (auth : AgentAuth) (connection : κ) (generated : Code) (effectiveTtl : ℚ) (a : Assignment κ)
      (hassign : s.registry.assignCode now auth connection generated effectiveTtl = .ok a) (hcode : a.code = code) :
      Detaches code s (now, .mount (.connect auth connection generated effectiveTtl))
  | disconnected (now : ℚ) : Detaches code s (now, .mount (.disconnect code))
  | expired (now : ℚ) : Detaches code s (now, .mount (.expire code))
  | deregistered (now : ℚ) : Detaches code s (now, .deregister code)
  | restarted (now : ℚ) : Detaches code s (now, .mount .restart)

/-- The agent of the connection was given the code, and the mount has not lost it since. -/
def Serves (events : List (ℚ × RelayEvent κ)) (code : Code) (connection : κ) : Prop :=
  Since step (fun _ => Attaches code connection) (Detaches code) empty events

section Attached

variable {r : SqliteRegistry κ} {code code' : Code} {connection : κ} {update : StoredRow → SqliteRegistry κ}

theorem attached_congr {r' : SqliteRegistry κ}
    (hstatus : (r'.mounts code).map (·.status) = (r.mounts code).map (·.status))
    (hconnection : r'.connections code = r.connections code) :
    r'.Attached code connection ↔ r.Attached code connection := by
  have hrow : ∀ q : SqliteRegistry κ, (∃ row, q.mounts code = some row ∧ row.status = .online) ↔
      (q.mounts code).map (·.status) = some .online := fun q => Option.map_eq_some_iff.symm
  unfold Attached
  rw [hrow, hrow, hstatus, hconnection]

theorem attached_outcome_withRow
    (hstatus : ∀ row, r.mounts code' = some row →
      ((update row).mounts code).map (·.status) = (r.mounts code).map (·.status))
    (hconnection : ∀ row, (update row).connections code = r.connections code) :
    (r.outcome (r.withRow code' update)).1.Attached code connection ↔ r.Attached code connection := by
  unfold withRow
  cases hrow : r.mounts code' with
  | none => rfl
  | some row => exact attached_congr (hstatus row hrow) (hconnection row)

theorem not_attached_outcome_withRow
    (hupdate : ∀ row, r.mounts code = some row → ¬(update row).Attached code connection) :
    ¬(r.outcome (r.withRow code update)).1.Attached code connection := by
  unfold withRow
  cases hrow : r.mounts code with
  | none =>
      rintro ⟨⟨row, hrow', -⟩, -⟩
      have hnone : r.mounts code = some row := hrow'
      rw [hrow] at hnone
      cases hnone
  | some row => exact hupdate row hrow

theorem not_attached_of_connections (hnone : r.connections code = none) : ¬r.Attached code connection := by
  rintro ⟨-, hconnection⟩
  rw [hnone] at hconnection
  cases hconnection

theorem attached_storePolicy (r : SqliteRegistry κ) (now : ℚ) (auth : AgentAuth) (new : κ) (generated : Code)
    (effectiveTtl : ℚ) (a : Assignment κ) (hassign : r.assignCode now auth new generated effectiveTtl = .ok a) :
    (storePolicy auth a).Attached code connection ↔
      if a.code = code then new = connection else r.Attached code connection := by
  have hassigned : (∃ row, a.registry.mounts a.code = some row ∧ row.status = .online) ∧
      a.registry.connections = Function.update r.connections a.code (some new) := by
    rcases assignCode_cases r now auth new generated effectiveTtl a hassign with
      ⟨-, -, hregistry, row, hrow, -⟩ | ⟨-, -, hregistry⟩
    · rw [hregistry]
      refine ⟨⟨{ row with status := .online }, ?_, rfl⟩, rfl⟩
      simp [reclaim, setStatus, SqliteRegistry.connect, hrow]
    · rw [hregistry]
      refine ⟨⟨freshRow auth.clientIp now (some (now + effectiveTtl)), ?_, rfl⟩, rfl⟩
      simp [insertMount, SqliteRegistry.connect]
  obtain ⟨⟨row, hrow, hstatus⟩, hconnections⟩ := hassigned
  obtain ⟨-, hother, -⟩ := assignCode_frame r now auth new generated effectiveTtl a hassign
  have hstored : storePolicy auth a = { a.registry.insertMount a.code { row with
      ownerUserId := auth.ownerUserId
      accessMode := auth.policy.accessMode
      hasPassword := auth.policy.hasPassword } with
      policy := Function.update a.registry.policy a.code (auth.policy.entries.foldl Registry.replaceEntry []) } := by
    simp only [storePolicy, setOwnerPolicy, withRow, hrow]
  rw [hstored]
  by_cases hcode : a.code = code
  · subst hcode
    rw [if_pos rfl]
    simp only [Attached, insertMount, hconnections, Function.update_self, Option.some.injEq]
    constructor
    · exact fun hattached => hattached.2
    · exact fun heq => ⟨⟨_, rfl, hstatus⟩, heq⟩
  · rw [if_neg hcode]
    have hne : code ≠ a.code := fun heq => hcode heq.symm
    apply attached_congr
    · simp only [insertMount, Function.update_of_ne hne, hother code hne]
    · simp only [insertMount, hconnections, Function.update_of_ne hne]

end Attached

theorem attached_deleteExpiredBefore (r : SqliteRegistry κ) (code : Code) (connection : κ) (cutoff : ℚ) :
    (r.deleteExpiredBefore cutoff).Attached code connection ↔ r.Attached code connection := by
  unfold SqliteRegistry.Attached
  apply and_congr_left'
  constructor
  · rintro ⟨row, hrow, hstatus⟩
    exact ⟨row, (Option.filter_eq_some_iff.mp hrow).1, hstatus⟩
  · rintro ⟨row, hrow, hstatus⟩
    exact ⟨row, Option.filter_eq_some_iff.mpr ⟨hrow, by simp [hstatus]⟩, hstatus⟩

theorem attached_step_connect {s t : RelayRegistry κ} (now : ℚ) (auth : AgentAuth) (new : κ) (generated : Code)
    (effectiveTtl : ℚ) (hstep : s.step (now, .mount (.connect auth new generated effectiveTtl)) = some t) (code : Code)
    (connection : κ) : t.registry.Attached code connection ↔
      Attaches code connection s (now, .mount (.connect auth new generated effectiveTtl)) ∨
        s.registry.Attached code connection ∧
          ¬Detaches code s (now, .mount (.connect auth new generated effectiveTtl)) := by
  cases hassign : s.registry.assignCode now auth new generated effectiveTtl with
  | error err =>
      simp only [step, MountEvent.step, hassign, Option.map_some, Option.some.injEq] at hstep
      subst hstep
      have hattaches : ¬Attaches code connection s (now, .mount (.connect auth new generated effectiveTtl)) := by
        rintro ⟨now', auth', generated', effectiveTtl', a, heq, hok, -⟩
        cases heq
        rw [hassign] at hok
        cases hok
      have hdetaches : ¬Detaches code s (now, .mount (.connect auth new generated effectiveTtl)) := by
        intro hdetaches
        cases hdetaches with
        | replaced _ _ _ _ _ a hok =>
            rw [hassign] at hok
            cases hok
      simp [hattaches, hdetaches]
  | ok a =>
      simp only [step, MountEvent.step, hassign, Option.map_some, Option.some.injEq] at hstep
      subst hstep
      have hattaches : Attaches code connection s (now, .mount (.connect auth new generated effectiveTtl)) ↔
          a.code = code ∧ new = connection := by
        constructor
        · rintro ⟨now', auth', generated', effectiveTtl', a', heq, hok, hcode⟩
          cases heq
          rw [hassign] at hok
          cases hok
          exact ⟨hcode, rfl⟩
        · rintro ⟨hcode, rfl⟩
          exact ⟨now, auth, generated, effectiveTtl, a, rfl, hassign, hcode⟩
      have hdetaches : Detaches code s (now, .mount (.connect auth new generated effectiveTtl)) ↔
          a.code = code := by
        constructor
        · intro hdetaches
          cases hdetaches with
          | replaced _ _ _ _ _ a' hok hcode =>
              rw [hassign] at hok
              cases hok
              exact hcode
        · exact .replaced now auth new generated effectiveTtl a hassign
      rw [attached_storePolicy s.registry now auth new generated effectiveTtl a hassign, hattaches, hdetaches]
      by_cases hcode : a.code = code
      · simp [hcode]
      · simp [hcode]

section Quiet

variable {s t : RelayRegistry κ} {now : ℚ} {e : RelayEvent κ} {code : Code} {connection : κ}
  (hother : ∀ auth new generated effectiveTtl, e ≠ .mount (.connect auth new generated effectiveTtl))

include hother

theorem not_attaches : ¬Attaches code connection s (now, e) := by
  rintro ⟨now', auth, generated, effectiveTtl, a, heq, -⟩
  cases heq
  exact hother _ _ _ _ rfl

theorem attached_step_of_kept (hnot : ¬Detaches code s (now, e))
    (hiff : t.registry.Attached code connection ↔ s.registry.Attached code connection) :
    t.registry.Attached code connection ↔
      Attaches code connection s (now, e) ∨ s.registry.Attached code connection ∧ ¬Detaches code s (now, e) := by
  rw [hiff]
  simp [not_attaches hother, hnot]

theorem attached_step_of_lost (hdetaches : Detaches code s (now, e))
    (hnot : ¬t.registry.Attached code connection) :
    t.registry.Attached code connection ↔
      Attaches code connection s (now, e) ∨ s.registry.Attached code connection ∧ ¬Detaches code s (now, e) := by
  simp [hnot, not_attaches hother, hdetaches]

end Quiet

theorem attached_step {s t : RelayRegistry κ} {e : ℚ × RelayEvent κ} (hstep : s.step e = some t) (code : Code)
    (connection : κ) : t.registry.Attached code connection ↔
      Attaches code connection s e ∨ s.registry.Attached code connection ∧ ¬Detaches code s e := by
  obtain ⟨now, e⟩ := e
  cases e with
  | mount e =>
      cases e with
      | connect auth new generated effectiveTtl =>
          exact attached_step_connect now auth new generated effectiveTtl hstep code connection
      | disconnect code' =>
          cases hstep
          by_cases hcode : code' = code
          · subst hcode
            refine attached_step_of_lost (by simp) (.disconnected now) ?_
            apply not_attached_outcome_withRow
            intro row hrow
            split
            · exact not_attached_of_connections (by simp [popSecret, SqliteRegistry.disconnect])
            · rename_i hstatus
              rintro ⟨⟨row', hrow', honline⟩, -⟩
              have hsame : s.registry.mounts code' = some row' := hrow'
              rw [hrow] at hsame
              cases hsame
              exact hstatus honline
          · have hne : code ≠ code' := fun heq => hcode heq.symm
            refine attached_step_of_kept (by simp) (fun hdetaches => by cases hdetaches; exact hcode rfl) ?_
            apply attached_outcome_withRow
            · intro row _
              split <;> simp [popSecret, SqliteRegistry.disconnect, setStatus, hne]
            · intro row
              split <;> simp [popSecret, SqliteRegistry.disconnect, setStatus, hne]
      | expire code' =>
          cases hstep
          by_cases hcode : code' = code
          · subst hcode
            refine attached_step_of_lost (by simp) (.expired now) ?_
            apply not_attached_outcome_withRow
            exact fun _ _ => not_attached_of_connections (by simp [popSecret, SqliteRegistry.disconnect])
          · have hne : code ≠ code' := fun heq => hcode heq.symm
            refine attached_step_of_kept (by simp) (fun hdetaches => by cases hdetaches; exact hcode rfl) ?_
            apply attached_outcome_withRow
            · intro row _
              simp [popSecret, SqliteRegistry.disconnect, setStatus, hne]
            · intro row
              simp [popSecret, SqliteRegistry.disconnect, setStatus, hne]
      | markTtlWarned code' =>
          cases hstep
          refine attached_step_of_kept (by simp) (fun hdetaches => by cases hdetaches) ?_
          apply attached_outcome_withRow
          · intro row hrow
            by_cases hcode : code = code'
            · subst hcode
              simp [insertMount, hrow]
            · simp [insertMount, hcode]
          · exact fun _ => rfl
      | deleteExpiredBefore cutoff =>
          cases hstep
          exact attached_step_of_kept (by simp) (fun hdetaches => by cases hdetaches)
            (attached_deleteExpiredBefore s.registry code connection cutoff)
      | restart =>
          cases hstep
          exact attached_step_of_lost (by simp) (.restarted now) (not_attached_of_connections rfl)
  | deregister code' =>
      cases hstep
      by_cases hcode : code' = code
      · subst hcode
        refine attached_step_of_lost (by simp) (.deregistered now) ?_
        apply not_attached_outcome_withRow
        exact fun _ _ => not_attached_of_connections (by simp [popSecret, SqliteRegistry.disconnect])
      · have hne : code ≠ code' := fun heq => hcode heq.symm
        refine attached_step_of_kept (by simp) (fun hdetaches => by cases hdetaches; exact hcode rfl) ?_
        apply attached_outcome_withRow
        · intro row _
          simp [popSecret, SqliteRegistry.disconnect, hne]
        · intro row
          simp [popSecret, SqliteRegistry.disconnect, hne]
  | setOwnerPolicy code' ownerUserId policy =>
      cases hstep
      refine attached_step_of_kept (by simp) (fun hdetaches => by cases hdetaches) ?_
      apply attached_outcome_withRow
      · intro row hrow
        by_cases hcode : code = code'
        · subst hcode
          simp [insertMount, hrow]
        · simp [insertMount, hcode]
      · exact fun _ => rfl
  | createRequest code' userId =>
      cases hstep
      exact attached_step_of_kept (by simp) (fun hdetaches => by cases hdetaches) Iff.rfl
  | resolveRequest requestId userId isAdmin action =>
      cases hstep
      refine attached_step_of_kept (by simp) (fun hdetaches => by cases hdetaches) ?_
      unfold resolveRequest
      cases s.resolvable requestId userId isAdmin with
      | none => rfl
      | some q => cases action <;> rfl

/-- The agent that is connected to a mount is the one that the events have connected and not taken since. -/
theorem attached_iff_serves {events : List (ℚ × RelayEvent κ)} {s : RelayRegistry κ}
    (hrun : run step empty events = some s) (code : Code) (connection : κ) :
    s.registry.Attached code connection ↔ Serves events code connection :=
  holds_iff_since (P := fun s : RelayRegistry κ => s.registry.Attached code connection)
    (not_attached_of_connections rfl) (fun _ _ _ _ _ hstep => attached_step hstep code connection) hrun

/-- The policy that an event declares for a code. -/
def declaredPolicy (s : RelayRegistry κ) : ℚ × RelayEvent κ → Option (Code × MountPolicy)
  | (now, .mount (.connect auth connection generated effectiveTtl)) =>
      match s.registry.assignCode now auth connection generated effectiveTtl with
      | .ok a => some (a.code, auth.policy)
      | .error _ => none
  | (_, .setOwnerPolicy code _ policy) => if s.registry.hasMount code then some (code, policy) else none
  | _ => none

/-- The policy is the last one that was declared for the code. -/
def LastDeclared (events : List (ℚ × RelayEvent κ)) (code : Code) (policy : MountPolicy) : Prop :=
  Since step (fun _ s e => s.declaredPolicy e = some (code, policy))
    (fun s e => ∃ other, s.declaredPolicy e = some (code, other)) empty events

/-- The row has the mode of the policy. -/
def HasModeOf (row : StoredRow) (policy : MountPolicy) : Prop :=
  row.accessMode = policy.accessMode ∧ row.hasPassword = policy.hasPassword

theorem hasModeOf_of_ownerPolicy {r t : SqliteRegistry κ} {code : Code} {row : StoredRow}
    (hkept : t.ownerPolicy code = r.ownerPolicy code) (hrow : t.mounts code = some row) :
    ∃ row', r.mounts code = some row' ∧ ∀ policy, HasModeOf row policy ↔ HasModeOf row' policy := by
  have hcolumns := congrArg Prod.fst hkept
  simp only [SqliteRegistry.ownerPolicy, hrow, Option.map_some] at hcolumns
  obtain ⟨row', hrow', heq⟩ := Option.map_eq_some_iff.mp hcolumns.symm
  refine ⟨row', hrow', ?_⟩
  simp only [Prod.mk.injEq] at heq
  intro policy
  unfold HasModeOf
  rw [heq.2.1, heq.2.2]

/-- A row has the mode of the policy that the event declares for its code, or the mode that it had before. -/
inductive ModeStep (code : Code) (row : StoredRow) (s : RelayRegistry κ) (e : ℚ × RelayEvent κ) : Prop
  | declared (policy : MountPolicy) (hdeclares : s.declaredPolicy e = some (code, policy))
      (hmode : HasModeOf row policy)
  | kept (hdeclares : ∀ policy, s.declaredPolicy e ≠ some (code, policy)) (row' : StoredRow)
      (hrow' : s.registry.mounts code = some row') (hmode : ∀ policy, HasModeOf row policy ↔ HasModeOf row' policy)

theorem ModeStep.of_ownerPolicy {s : RelayRegistry κ} {t : SqliteRegistry κ} {e : ℚ × RelayEvent κ} {code : Code}
    {row : StoredRow} (hdeclares : ∀ policy, s.declaredPolicy e ≠ some (code, policy))
    (hkept : t.ownerPolicy code = s.registry.ownerPolicy code) (hrow : t.mounts code = some row) :
    ModeStep code row s e := by
  obtain ⟨row', hrow', hmode⟩ := hasModeOf_of_ownerPolicy hkept hrow
  exact .kept hdeclares row' hrow' hmode

theorem modeStep_connect {s t : RelayRegistry κ} (now : ℚ) (auth : AgentAuth) (new : κ) (generated : Code)
    (effectiveTtl : ℚ) (hstep : s.step (now, .mount (.connect auth new generated effectiveTtl)) = some t) {code : Code}
    {row : StoredRow} (hrow : t.registry.mounts code = some row) :
    ModeStep code row s (now, .mount (.connect auth new generated effectiveTtl)) := by
  cases hassign : s.registry.assignCode now auth new generated effectiveTtl with
  | error err =>
      simp only [step, MountEvent.step, hassign, Option.map_some, Option.some.injEq] at hstep
      subst hstep
      exact .kept (by simp [declaredPolicy, hassign]) row hrow fun _ => Iff.rfl
  | ok a =>
      simp only [step, MountEvent.step, hassign, Option.map_some, Option.some.injEq] at hstep
      subst hstep
      obtain ⟨⟨assigned, hassigned⟩, hother, -⟩ := assignCode_frame _ now auth new generated effectiveTtl a hassign
      by_cases hcode : code = a.code
      · subst hcode
        refine .declared auth.policy (by simp [declaredPolicy, hassign]) ?_
        simp only [storePolicy, setOwnerPolicy, withRow, hassigned, insertMount, Function.update_self,
          Option.some.injEq] at hrow
        subst hrow
        exact ⟨rfl, rfl⟩
      · have hne : a.code ≠ code := fun heq => hcode heq.symm
        refine .kept (by simp [declaredPolicy, hassign, hne]) row ?_ fun _ => Iff.rfl
        rwa [mounts_storePolicy_of_ne auth a code hcode, hother code hcode] at hrow

theorem modeStep_of_step {s t : RelayRegistry κ} {e : ℚ × RelayEvent κ} (hstep : s.step e = some t) {code : Code}
    {row : StoredRow} (hrow : t.registry.mounts code = some row) : ModeStep code row s e := by
  have hstays : t.registry.mounts code ≠ none := by simp [hrow]
  obtain ⟨now, e⟩ := e
  cases e with
  | mount e =>
      cases e with
      | connect auth new generated effectiveTtl => exact modeStep_connect now auth new generated effectiveTtl hstep hrow
      | disconnect code' =>
          cases hstep
          refine .of_ownerPolicy (by simp [declaredPolicy]) (ownerPolicy_withRow _ code' code _ ?_) hrow
          intro row' _
          split
          · exact ownerPolicy_setStatus s.registry code' code .offline
          · rfl
      | expire code' =>
          cases hstep
          refine .of_ownerPolicy (by simp [declaredPolicy]) (ownerPolicy_withRow _ code' code _ ?_) hrow
          exact fun _ _ => ownerPolicy_setStatus s.registry code' code .expired
      | markTtlWarned code' =>
          cases hstep
          refine .of_ownerPolicy (by simp [declaredPolicy]) (ownerPolicy_withRow _ code' code _ ?_) hrow
          intro row' hrow'
          by_cases hcode : code = code'
          · subst hcode
            simp [ownerPolicy, insertMount, hrow']
          · simp [ownerPolicy, insertMount, hcode]
      | deleteExpiredBefore cutoff =>
          cases hstep
          exact .of_ownerPolicy (by simp [declaredPolicy])
            (ownerPolicy_deleteExpiredBefore s.registry cutoff code hstays) hrow
      | restart =>
          cases hstep
          exact .of_ownerPolicy (by simp [declaredPolicy]) (ownerPolicy_restart s.registry now code hstays) hrow
  | deregister code' =>
      cases hstep
      refine .of_ownerPolicy (by simp [declaredPolicy]) ?_ hrow
      simp only [perform, SqliteRegistry.deregister, withRow] at hstays ⊢
      cases hrow' : s.registry.mounts code' with
      | none => rfl
      | some row' =>
          simp only [hrow', outcome] at hstays ⊢
          by_cases hcode : code = code'
          · subst hcode
            exact absurd (by simp [popSecret, SqliteRegistry.disconnect]) hstays
          · simp [ownerPolicy, popSecret, SqliteRegistry.disconnect, hcode]
  | setOwnerPolicy code' ownerUserId policy =>
      cases hstep
      cases hrow' : s.registry.mounts code' with
      | none =>
          refine .of_ownerPolicy (by simp [declaredPolicy, hasMount, hrow']) ?_ hrow
          simp only [perform, SqliteRegistry.setOwnerPolicy, withRow, hrow', outcome]
      | some row' =>
          simp only [perform, SqliteRegistry.setOwnerPolicy, withRow, hrow', outcome] at hrow
          by_cases hcode : code = code'
          · subst hcode
            refine .declared policy (by simp [declaredPolicy, hasMount, hrow']) ?_
            simp only [insertMount, Function.update_self, Option.some.injEq] at hrow
            subst hrow
            exact ⟨rfl, rfl⟩
          · have hne : code' ≠ code := fun heq => hcode heq.symm
            refine .kept (by simp [declaredPolicy, hasMount, hrow', hne]) row ?_ fun _ => Iff.rfl
            simpa only [insertMount, Function.update_of_ne hcode] using hrow
  | createRequest code' userId =>
      cases hstep
      exact .kept (by simp [declaredPolicy]) row hrow fun _ => Iff.rfl
  | resolveRequest requestId userId isAdmin action =>
      cases hstep
      rw [resolveRequest_mounts] at hrow
      exact .kept (by simp [declaredPolicy]) row hrow fun _ => Iff.rfl

theorem hasModeOf_lastDeclared {events : List (ℚ × RelayEvent κ)} {s : RelayRegistry κ}
    (hrun : run step empty events = some s) {code : Code} {row : StoredRow} (hrow : s.registry.mounts code = some row) :
    (∃ policy, LastDeclared events code policy) ∧ ∀ policy, LastDeclared events code policy → HasModeOf row policy := by
  induction events using List.reverseRecOn generalizing s row with
  | nil =>
      cases hrun
      cases hrow
  | append_singleton events e ih =>
      obtain ⟨r, hr, hstep⟩ := exists_of_run_concat hrun
      have hsince : ∀ policy, LastDeclared (events ++ [e]) code policy ↔ r.declaredPolicy e = some (code, policy) ∨
          LastDeclared events code policy ∧ ¬∃ other, r.declaredPolicy e = some (code, other) :=
        fun policy => since_concat hr hstep
      cases modeStep_of_step hstep hrow with
      | declared policy hdeclares hmode =>
          refine ⟨⟨policy, (hsince policy).mpr (.inl hdeclares)⟩, ?_⟩
          intro policy' hlast
          rcases (hsince policy').mp hlast with hdeclares' | ⟨-, hnot⟩
          · rw [hdeclares] at hdeclares'
            cases hdeclares'
            exact hmode
          · exact absurd ⟨policy, hdeclares⟩ hnot
      | kept hdeclares row' hrow' hmode =>
          have hnot : ¬∃ other, r.declaredPolicy e = some (code, other) :=
            fun ⟨other, hother⟩ => hdeclares other hother
          obtain ⟨⟨policy, hpolicy⟩, hall⟩ := ih hr hrow'
          refine ⟨⟨policy, (hsince policy).mpr (.inr ⟨hpolicy, hnot⟩)⟩, ?_⟩
          intro policy' hlast
          rcases (hsince policy').mp hlast with hdeclares' | ⟨hbefore, -⟩
          · exact absurd hdeclares' (hdeclares policy')
          · exact (hmode policy').mpr (hall policy' hbefore)

end RelayRegistry

end NetworkFileServer.Relay
