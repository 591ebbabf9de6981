import NetworkFileServer.Relay.AccessDecision
import NetworkFileServer.Relay.AccessRequests

/-!
# A mount code that is used again

The row of a mount can be deleted, and its code registered again. The allowlist that the old mount left
behind is replaced by the declaration of the new one before anybody reads it. The access requests for
the old mount are left, too, and nothing replaces them.
-/

namespace NetworkFileServer.Relay

variable {κ : Type*}

namespace SqliteRegistry

/-- Everything under the code is gone. -/
def forget (r : SqliteRegistry κ) (code : Code) : SqliteRegistry κ where
  mounts := Function.update r.mounts code none
  policy := Function.update r.policy code []
  connections := Function.update r.connections code none
  identitySecrets := Function.update r.identitySecrets code none

/-- The same rows, and the same allowlists where there is a row. -/
structure Alike (r r' : SqliteRegistry κ) : Prop where
  mounts : r'.mounts = r.mounts
  policy : ∀ code row, r.mounts code = some row → r'.policy code = r.policy code

theorem forget_alike (r : SqliteRegistry κ) (code : Code) (hgone : r.mounts code = none) :
    Alike r (r.forget code) := by
  constructor
  · exact Function.update_eq_self_iff.mpr hgone.symm
  · intro code' row hrow
    apply Function.update_of_ne
    rintro rfl
    rw [hgone] at hrow
    cases hrow

theorem assignCode_with (r : SqliteRegistry κ) (policy : Code → List PolicyEntry)
    (connections : Code → Option κ) (identitySecrets : Code → Option String) (now : ℚ) (auth : AgentAuth)
    (connection : κ) (generated : Code) (effectiveTtl : ℚ) :
    assignCode ⟨r.mounts, policy, connections, identitySecrets⟩ now auth connection generated effectiveTtl =
      (r.assignCode now auth connection generated effectiveTtl).map fun a =>
        { a with registry := ⟨a.registry.mounts, policy, Function.update connections a.code (some connection),
          identitySecrets⟩ } := by
  have hregister : ∀ code,
      (register ⟨r.mounts, policy, connections, identitySecrets⟩ code (some connection) auth.clientIp now
        (some (now + effectiveTtl))).map (Assignment.mk · code false) =
      ((r.register code (some connection) auth.clientIp now (some (now + effectiveTtl))).map
        (Assignment.mk · code false)).map fun a =>
        { a with registry := ⟨a.registry.mounts, policy, Function.update connections a.code (some connection),
          identitySecrets⟩ } := by
    intro code
    by_cases hcode : code = ""
    · simp [register, hcode, Except.map]
    · simp [register, hcode, Except.map, insertMount, SqliteRegistry.connect]
  have hreclaim : ∀ code,
      reclaimResult ⟨r.mounts, policy, connections, identitySecrets⟩ now auth connection code =
        (r.reclaimResult now auth connection code).map fun p =>
          (⟨p.1.mounts, policy, Function.update connections code (some connection), identitySecrets⟩, p.2) := by
    intro code
    have hbyIp : tryReclaim ⟨r.mounts, policy, connections, identitySecrets⟩ now code connection auth.clientIp =
        (r.tryReclaim now code connection auth.clientIp).map fun p =>
          (⟨p.1.mounts, policy, Function.update connections code (some connection), identitySecrets⟩, p.2) := by
      unfold tryReclaim
      cases r.mounts code with
      | none => rfl
      | some row =>
          dsimp only
          split_ifs <;> rfl
    have hasOwner : ∀ owner,
        tryReclaimAsOwner ⟨r.mounts, policy, connections, identitySecrets⟩ now code connection owner =
        (r.tryReclaimAsOwner now code connection owner).map fun p =>
          (⟨p.1.mounts, policy, Function.update connections code (some connection), identitySecrets⟩, p.2) := by
      intro owner
      unfold tryReclaimAsOwner
      cases r.mounts code with
      | none => rfl
      | some row =>
          dsimp only
          split_ifs <;> rfl
    unfold reclaimResult
    rw [Option.map_or, hbyIp]
    congr 1
    cases auth.ownerUserId with
    | none => rfl
    | some owner => exact hasOwner owner
  unfold assignCode
  cases auth.preferredCode with
  | none => exact hregister generated
  | some code =>
      simp only [hreclaim]
      cases hresult : r.reclaimResult now auth connection code with
      | none => exact hregister _
      | some p => rfl

section Methods

variable {r r' : SqliteRegistry κ} (h : Alike r r')

include h

theorem Alike.setStatus (code : Code) (status : MountStatus) :
    Alike (r.setStatus code status) (r'.setStatus code status) := by
  refine ⟨by simp only [SqliteRegistry.setStatus, h.mounts], ?_⟩
  intro code' row hrow
  by_cases hcode : code' = code
  · subst hcode
    simp only [SqliteRegistry.setStatus, Function.update_self] at hrow
    obtain ⟨row', hrow', -⟩ := Option.map_eq_some_iff.mp hrow
    exact h.policy code' row' hrow'
  · simp only [SqliteRegistry.setStatus, Function.update_of_ne hcode] at hrow
    exact h.policy code' row hrow

theorem Alike.disconnect (code : Code) : Alike (r.disconnect code) (r'.disconnect code) :=
  ⟨h.mounts, h.policy⟩

theorem Alike.popSecret (code : Code) : Alike (r.popSecret code) (r'.popSecret code) :=
  ⟨h.mounts, h.policy⟩

theorem Alike.of_mounts (t t' : SqliteRegistry κ) (hmounts : t'.mounts = t.mounts)
    (hrows : ∀ code row, t.mounts code = some row → ∃ row', r.mounts code = some row')
    (hpolicy : t.policy = r.policy) (hpolicy' : t'.policy = r'.policy) : Alike t t' := by
  refine ⟨hmounts, ?_⟩
  intro code row hrow
  obtain ⟨row', hrow'⟩ := hrows code row hrow
  rw [hpolicy, hpolicy']
  exact h.policy code row' hrow'

theorem Alike.withRow (code : Code) (update update' : StoredRow → SqliteRegistry κ)
    (hupdate : ∀ row, r.mounts code = some row → Alike (update row) (update' row)) :
    Alike (r.outcome (r.withRow code update)).1 (r'.outcome (r'.withRow code update')).1 := by
  unfold SqliteRegistry.withRow
  rw [h.mounts]
  cases hrow : r.mounts code with
  | none => exact h
  | some row => exact hupdate row hrow

theorem Alike.deregister (now : ℚ) (code : Code) :
    Alike (r.perform now (.deregister code)).1 (r'.perform now (.deregister code)).1 := by
  apply h.withRow
  intro row _
  have hdeleted : Alike { r with mounts := Function.update r.mounts code none }
      { r' with mounts := Function.update r'.mounts code none } := by
    refine h.of_mounts _ _ (by simp only [h.mounts]) ?_ rfl rfl
    intro code' row' hrow'
    by_cases hcode : code' = code
    · subst hcode
      simp at hrow'
    · exact ⟨row', by simpa [hcode] using hrow'⟩
  exact (hdeleted.disconnect code).popSecret code

theorem Alike.setOwnerPolicy (now : ℚ) (code : Code) (ownerUserId : Option Nat) (policy : MountPolicy) :
    Alike (r.perform now (.setOwnerPolicy code ownerUserId policy)).1
      (r'.perform now (.setOwnerPolicy code ownerUserId policy)).1 := by
  apply h.withRow
  intro row _
  refine ⟨by simp only [insertMount, h.mounts], ?_⟩
  intro code' row' hrow'
  by_cases hcode : code' = code
  · subst hcode
    simp only [Function.update_self]
  · simp only [insertMount, Function.update_of_ne hcode] at hrow' ⊢
    exact h.policy code' row' hrow'

theorem Alike.storePolicy (now : ℚ) (auth : AgentAuth) (connection : κ) (generated : Code) (effectiveTtl : ℚ)
    (a a' : Assignment κ) (hassign : r.assignCode now auth connection generated effectiveTtl = .ok a)
    (hcode : a'.code = a.code) (hmounts : a'.registry.mounts = a.registry.mounts)
    (hpolicy : a'.registry.policy = r'.policy) :
    Alike (SqliteRegistry.storePolicy auth a) (SqliteRegistry.storePolicy auth a') := by
  obtain ⟨⟨row, hrow⟩, hother, hold⟩ := assignCode_frame r now auth connection generated effectiveTtl a hassign
  have hrow' : a'.registry.mounts a.code = some row := by rw [hmounts, hrow]
  simp only [SqliteRegistry.storePolicy, SqliteRegistry.setOwnerPolicy, SqliteRegistry.withRow, hcode, hrow, hrow']
  refine ⟨by simp only [insertMount, hmounts], ?_⟩
  intro code row' hcoderow
  by_cases hne : code = a.code
  · subst hne
    simp only [Function.update_self]
  · simp only [insertMount, Function.update_of_ne hne] at hcoderow ⊢
    rw [hpolicy, hold]
    rw [hother code hne] at hcoderow
    exact h.policy code row' hcoderow

omit h in
theorem mounts_storePolicy_of_ne (auth : AgentAuth) (a : Assignment κ) (code : Code) (hne : code ≠ a.code) :
    (SqliteRegistry.storePolicy auth a).mounts code = a.registry.mounts code := by
  unfold SqliteRegistry.storePolicy SqliteRegistry.setOwnerPolicy SqliteRegistry.withRow
  cases a.registry.mounts a.code with
  | none => rfl
  | some row => simp [insertMount, hne]

theorem Alike.step (e : ℚ × MountEvent κ) (t t' : SqliteRegistry κ) (ht : MountEvent.step r e = some t)
    (ht' : MountEvent.step r' e = some t') : Alike t t' := by
  obtain ⟨now, e⟩ := e
  cases e with
  | connect auth connection generated effectiveTtl =>
      have hr' : r' = ⟨r.mounts, r'.policy, r'.connections, r'.identitySecrets⟩ := by rw [← h.mounts]
      have hwith := assignCode_with r r'.policy r'.connections r'.identitySecrets now auth connection generated
        effectiveTtl
      rw [← hr'] at hwith
      cases hassign : r.assignCode now auth connection generated effectiveTtl with
      | error err =>
          rw [hassign] at hwith
          simp only [MountEvent.step, hassign, hwith, Except.map] at ht ht'
          cases ht
          cases ht'
          exact h
      | ok a =>
          rw [hassign] at hwith
          simp only [MountEvent.step, hassign, hwith, Except.map] at ht ht'
          cases ht
          cases ht'
          exact h.storePolicy now auth connection generated effectiveTtl a _ hassign rfl rfl rfl
  | disconnect code =>
      cases ht
      cases ht'
      apply h.withRow
      intro row _
      split
      · exact ((h.setStatus code .offline).disconnect code).popSecret code
      · exact h.popSecret code
  | expire code =>
      cases ht
      cases ht'
      apply h.withRow
      intro row _
      exact ((h.setStatus code .expired).disconnect code).popSecret code
  | markTtlWarned code =>
      cases ht
      cases ht'
      apply h.withRow
      intro row hrow
      refine h.of_mounts _ _ (by simp only [insertMount, h.mounts]) ?_ rfl rfl
      intro code' row' hrow'
      by_cases hcode : code' = code
      · exact ⟨row, by rw [hcode]; exact hrow⟩
      · exact ⟨row', by simpa [insertMount, hcode] using hrow'⟩
  | deleteExpiredBefore cutoff =>
      cases ht
      cases ht'
      refine h.of_mounts _ _ (by simp only [perform, deleteExpiredBefore, h.mounts]) ?_ rfl rfl
      intro code row hrow
      exact ⟨row, (Option.filter_eq_some_iff.mp hrow).1⟩
  | restart =>
      cases ht
      cases ht'
      refine h.of_mounts _ _ (by simp only [perform, restart, startupCleanup, deleteExpiredBefore, h.mounts])
        ?_ rfl rfl
      intro code row hrow
      obtain ⟨stored, hstored, -⟩ := Option.map_eq_some_iff.mp hrow
      exact ⟨stored, (Option.filter_eq_some_iff.mp hstored).1⟩

end Methods

end SqliteRegistry

namespace RequestTable

/-- The table without the requests for a code. -/
def forget (t : RequestTable) (code : Code) : RequestTable where
  rows := t.rows.filter fun q => q.code ≠ code
  lastId := t.lastId
  ids := t.ids.sublist (List.filter_sublist.map _)
  keys := t.keys.sublist (List.filter_sublist.map _)
  sequence := fun q hq => t.sequence q (List.mem_of_mem_filter hq)

theorem forget_eq_self (t : RequestTable) (code : Code) (h : ∀ q ∈ t.rows, q.code ≠ code) :
    t.forget code = t := by
  have hrows : (t.forget code).rows = t.rows := by
    apply List.filter_eq_self.mpr
    intro q hq
    simpa using h q hq
  cases t
  simp only [forget, RequestTable.mk.injEq, and_true] at hrows ⊢
  exact hrows

end RequestTable

namespace RelayRegistry

/-- The registry as if the code had never been used: nothing is stored under it. -/
def forget (s : RelayRegistry κ) (code : Code) : RelayRegistry κ :=
  ⟨s.registry.forget code, s.requests.forget code⟩

/-- What the handlers read is the same. -/
structure Alike (s s' : RelayRegistry κ) : Prop where
  registry : SqliteRegistry.Alike s.registry s'.registry
  requests : s'.requests = s.requests

theorem Alike.step (s s' : RelayRegistry κ) (e : ℚ × RelayEvent κ) (t t' : RelayRegistry κ) (h : Alike s s')
    (ht : s.step e = some t) (ht' : s'.step e = some t') : Alike t t' := by
  obtain ⟨now, e⟩ := e
  cases e with
  | mount e =>
      obtain ⟨r, hr, rfl⟩ := Option.map_eq_some_iff.mp ht
      obtain ⟨r', hr', rfl⟩ := Option.map_eq_some_iff.mp ht'
      exact ⟨h.registry.step (now, e) r r' hr hr', h.requests⟩
  | deregister code =>
      cases ht
      cases ht'
      exact ⟨h.registry.deregister now code, h.requests⟩
  | setOwnerPolicy code ownerUserId policy =>
      cases ht
      cases ht'
      exact ⟨h.registry.setOwnerPolicy now code ownerUserId policy, h.requests⟩
  | createRequest code userId =>
      cases ht
      cases ht'
      exact ⟨h.registry, by rw [h.requests]⟩
  | resolveRequest requestId userId isAdmin action =>
      cases ht
      cases ht'
      have hresolvable : s'.resolvable requestId userId isAdmin = s.resolvable requestId userId isAdmin := by
        unfold resolvable
        rw [h.requests, h.registry.mounts]
      unfold resolveRequest
      rw [hresolvable]
      cases hq : s.resolvable requestId userId isAdmin with
      | none => exact h
      | some q =>
          cases action with
          | deny => exact ⟨h.registry, by simp only [h.requests]⟩
          | approve role =>
              refine ⟨⟨h.registry.mounts, ?_⟩, by simp only [h.requests]⟩
              intro code row hrow
              by_cases hcode : code = q.code
              · subst hcode
                simp only [addPolicyEntry, Function.update_self]
                rw [h.registry.policy q.code row hrow]
              · simp only [addPolicyEntry, Function.update_of_ne hcode]
                exact h.registry.policy code row hrow

/-- Somebody has requested access to the code. -/
def Requested (s : RelayRegistry κ) (code : Code) : Prop := ∃ q ∈ s.requests.rows, q.code = code

theorem requested_resolveRequest (s : RelayRegistry κ) (requestId userId : Nat) (isAdmin : Bool)
    (action : ResolveAction) (code : Code) :
    (s.resolveRequest requestId userId isAdmin action).Requested code ↔ s.Requested code := by
  have hset : ∀ status, (∃ q ∈ (s.requests.setStatus requestId status).rows, q.code = code) ↔
      ∃ q ∈ s.requests.rows, q.code = code := by
    intro status
    simp [RequestTable.setStatus, RequestTable.withStatus_key]
  unfold resolveRequest
  cases s.resolvable requestId userId isAdmin with
  | none => rfl
  | some q =>
      cases action with
      | approve role => exact hset .approved
      | deny => exact hset .denied

theorem requested_step (s t : RelayRegistry κ) (e : ℚ × RelayEvent κ) (hstep : s.step e = some t)
    (code : Code) : t.Requested code ↔ s.Requested code ∨ ∃ now userId, e = (now, .createRequest code userId) := by
  obtain ⟨now, e⟩ := e
  cases e with
  | mount e =>
      obtain ⟨r, -, rfl⟩ := Option.map_eq_some_iff.mp hstep
      simp [Requested]
  | deregister code' =>
      cases hstep
      simp [Requested]
  | setOwnerPolicy code' ownerUserId policy =>
      cases hstep
      simp [Requested]
  | createRequest code' userId =>
      cases hstep
      constructor
      · rintro ⟨q, hq, rfl⟩
        rcases (s.requests.mem_insertOrIgnore code' userId now q).mp hq with hold | ⟨-, rfl⟩
        · exact .inl ⟨q, hold, rfl⟩
        · exact .inr ⟨now, userId, rfl⟩
      · rintro (⟨q, hq, rfl⟩ | ⟨now', userId', heq⟩)
        · exact ⟨q, (s.requests.mem_insertOrIgnore code' userId now q).mpr (.inl hq), rfl⟩
        · cases heq
          cases hfind : s.requests.find code userId with
          | none =>
              exact ⟨s.requests.newRow code userId now,
                (s.requests.mem_insertOrIgnore code userId now _).mpr (.inr ⟨hfind, rfl⟩), rfl⟩
          | some q =>
              obtain ⟨hq, hcode, -⟩ := (s.requests.find_eq_some_iff code userId q).mp hfind
              exact ⟨q, (s.requests.mem_insertOrIgnore code userId now q).mpr (.inl hq), hcode⟩
  | resolveRequest requestId userId isAdmin action =>
      cases hstep
      rw [requested_resolveRequest]
      simp

theorem requested_run (s t : RelayRegistry κ) (events : List (ℚ × RelayEvent κ))
    (hrun : TransitionSystem.run step s events = some t) (code : Code) :
    t.Requested code ↔ s.Requested code ∨ ∃ now userId, (now, .createRequest code userId) ∈ events := by
  induction events generalizing s with
  | nil =>
      cases hrun
      simp
  | cons e events ih =>
      obtain ⟨u, hu, hrest⟩ := (TransitionSystem.run_cons_eq_some step s t e events).mp hrun
      rw [ih u hrest, requested_step s u e hu code]
      simp only [List.mem_cons, exists_or, or_assoc, eq_comm]

/-- A row is there for a code that is not empty, and was put there by a session. -/
def Occupied (s : RelayRegistry κ) : Prop :=
  ∀ code row, s.registry.mounts code = some row → code ≠ "" ∧ Nonempty κ

theorem rows_perform (r : SqliteRegistry κ) (now : ℚ) (call : RegistryCall κ)
    (hcall : ∀ code connection agentIp createdAt expiresAt,
      call ≠ .register code connection agentIp createdAt expiresAt) (code : Code) (row : StoredRow)
    (hrow : (r.perform now call).1.mounts code = some row) : ∃ row', r.mounts code = some row' := by
  have hchange := r.perform_change now call code
  generalize hbefore : r.mount code = m at hchange
  generalize hafter : (r.perform now call).1.mount code = m' at hchange
  have hm : m.1 = r.mounts code := by rw [← hbefore]; rfl
  have hm' : m'.1 = some row := by rw [← hafter]; exact hrow
  rw [← hm]
  cases hchange with
  | untouched row' c => exact ⟨row, hm'⟩
  | edited row' => exact ⟨row', rfl⟩
  | registered m connection agentIp createdAt expiresAt heq => exact absurd heq (hcall _ _ _ _ _)
  | reclaimed row' => exact ⟨row', rfl⟩
  | taken row' => exact ⟨row', rfl⟩
  | deleted row' => cases hm'
  | purged row' => exact ⟨row', rfl⟩

theorem resolveRequest_mounts (s : RelayRegistry κ) (requestId userId : Nat) (isAdmin : Bool)
    (action : ResolveAction) :
    (s.resolveRequest requestId userId isAdmin action).registry.mounts = s.registry.mounts := by
  unfold resolveRequest
  cases s.resolvable requestId userId isAdmin with
  | none => rfl
  | some q => cases action <;> rfl

theorem occupied_step (s : RelayRegistry κ) (e : ℚ × RelayEvent κ) (t : RelayRegistry κ) (hs : Occupied s)
    (hstep : s.step e = some t) : Occupied t := by
  have hperform : ∀ now call, (∀ code connection agentIp createdAt expiresAt,
      call ≠ .register code connection agentIp createdAt expiresAt) →
      t.registry = (s.registry.perform now call).1 → Occupied t := by
    intro now call hcall ht code row hrow
    rw [ht] at hrow
    obtain ⟨row', hrow'⟩ := rows_perform s.registry now call hcall code row hrow
    exact hs code row' hrow'
  obtain ⟨now, e⟩ := e
  cases e with
  | mount e =>
      obtain ⟨r, hr, rfl⟩ := Option.map_eq_some_iff.mp hstep
      cases e with
      | connect auth connection generated effectiveTtl =>
          cases hassign : s.registry.assignCode now auth connection generated effectiveTtl with
          | error err =>
              simp only [MountEvent.step, hassign] at hr
              cases hr
              exact hs
          | ok a =>
              simp only [MountEvent.step, hassign] at hr
              cases hr
              intro code row hrow
              obtain ⟨⟨assigned, hassigned⟩, hother, -⟩ :=
                SqliteRegistry.assignCode_frame _ now auth connection generated effectiveTtl a hassign
              by_cases hcode : code = a.code
              · subst hcode
                rcases SqliteRegistry.assignCode_cases _ now auth connection generated effectiveTtl a hassign
                  with ⟨-, -, -, stored, hstored, -⟩ | ⟨-, hne, -⟩
                · exact hs a.code stored hstored
                · exact ⟨hne, ⟨connection⟩⟩
              · rw [SqliteRegistry.mounts_storePolicy_of_ne auth a code hcode, hother code hcode] at hrow
                exact hs code row hrow
      | disconnect code => cases hr; exact hperform now _ (by simp) rfl
      | expire code => cases hr; exact hperform now _ (by simp) rfl
      | markTtlWarned code => cases hr; exact hperform now _ (by simp) rfl
      | deleteExpiredBefore cutoff => cases hr; exact hperform now _ (by simp) rfl
      | restart => cases hr; exact hperform now _ (by simp) rfl
  | deregister code => cases hstep; exact hperform now _ (by simp) rfl
  | setOwnerPolicy code ownerUserId policy => cases hstep; exact hperform now _ (by simp) rfl
  | createRequest code userId => cases hstep; exact hs
  | resolveRequest requestId userId isAdmin action =>
      cases hstep
      unfold Occupied
      rw [resolveRequest_mounts]
      exact hs

/-- The access decisions for the code, the listing for its owner and the requests for it. -/
def SameResults (code : Code) (s s' : RelayRegistry κ) : Prop :=
  (∀ accounts identity, authorizeAccount (s'.registry.getPolicy code) accounts identity =
    authorizeAccount (s.registry.getPolicy code) accounts identity) ∧
  (∀ row owner, s.registry.mounts code = some row → row.ownerUserId = some owner →
    s'.listAccessRequestsForOwner owner = s.listAccessRequestsForOwner owner) ∧
  ∀ userId now, (s'.requests.createAccessRequest code userId now).2 =
    (s.requests.createAccessRequest code userId now).2

/-- Once a session has registered the code again, everything is as if it had never been used. -/
def NoCarryOver (code : Code) (s : RelayRegistry κ) : Prop :=
  ∀ (between later : List (ℚ × RelayEvent κ)) (now : ℚ) (auth : AgentAuth) (connection : κ) (generated : Code)
    (effectiveTtl : ℚ) (u t t' : RelayRegistry κ) (a : SqliteRegistry.Assignment κ),
    TransitionSystem.run step s between = some u →
    u.registry.assignCode now auth connection generated effectiveTtl = .ok a →
    a.code = code → a.reclaimed = false →
    TransitionSystem.run step s
      (between ++ (now, .mount (.connect auth connection generated effectiveTtl)) :: later) = some t →
    TransitionSystem.run step (s.forget code)
      (between ++ (now, .mount (.connect auth connection generated effectiveTtl)) :: later) = some t' →
    SameResults code t t'

theorem Alike.sameResults (s s' : RelayRegistry κ) (h : Alike s s') (code : Code) : SameResults code s s' := by
  refine ⟨?_, ?_, ?_⟩
  · intro accounts identity
    have hpolicy : s'.registry.getPolicy code = s.registry.getPolicy code := by
      unfold SqliteRegistry.getPolicy
      rw [h.registry.mounts]
      cases hrow : s.registry.mounts code with
      | none => rfl
      | some row => rw [Option.map_some, Option.map_some, h.registry.policy code row hrow]
    rw [hpolicy]
  · intro row owner _ _
    unfold listAccessRequestsForOwner
    rw [h.requests, h.registry.mounts]
  · intro userId now
    rw [h.requests]

/-- A session of the user 0 that asks for the code and declares an empty allowlist. -/
def newOwner (code : Code) : AgentAuth := ⟨some code, "", some 0, ⟨.restricted, false, []⟩⟩

theorem newOwner_registers (s : RelayRegistry κ) (code : Code) (hcode : code ≠ "")
    (hgone : s.registry.mounts code = none) (connection : κ) :
    ∃ a t row, s.registry.assignCode 0 (newOwner code) connection "" 0 = .ok a ∧ a.code = code ∧
      a.reclaimed = false ∧ s.step (0, .mount (.connect (newOwner code) connection "" 0)) = some t ∧
      t.requests = s.requests ∧ t.registry.mounts code = some row ∧ row.ownerUserId = some 0 := by
  have hreclaim : s.registry.reclaimResult 0 (newOwner code) connection code = none := by
    simp [SqliteRegistry.reclaimResult, newOwner, SqliteRegistry.tryReclaim, SqliteRegistry.tryReclaimAsOwner,
      hgone]
  obtain ⟨a, hassign, hacode, hfresh⟩ : ∃ a, s.registry.assignCode 0 (newOwner code) connection "" 0 = .ok a ∧
      a.code = code ∧ a.reclaimed = false := by
    have hpreferred : (newOwner code).preferredCode = some code := rfl
    simp [SqliteRegistry.assignCode, hpreferred, hreclaim, SqliteRegistry.hasMount, hgone,
      SqliteRegistry.register, hcode, Except.map]
  obtain ⟨⟨row, hrow⟩, -⟩ := s.registry.assignCode_frame 0 (newOwner code) connection "" 0 a hassign
  obtain ⟨row', hrow', howner⟩ := SqliteRegistry.storePolicy_owner (newOwner code) a row hrow
  refine ⟨a, ⟨SqliteRegistry.storePolicy (newOwner code) a, s.requests⟩, row', hassign, hacode, hfresh, ?_, rfl,
    ?_, howner⟩
  · simp [step, MountEvent.step, hassign]
  · rw [← hacode]
    exact hrow'

/-- For every history at whose end the row of a code is deleted: the code carries nothing over to a
session that registers it again, exactly if nobody has requested access to it before. -/
theorem noCarryOver_iff (code : Code) (past : List (ℚ × RelayEvent κ)) (s₀ s : RelayRegistry κ)
    (e : ℚ × RelayEvent κ) (hpast : TransitionSystem.run step empty past = some s₀)
    (hrow : s₀.registry.mounts code ≠ none) (hdelete : s₀.step e = some s)
    (hgone : s.registry.mounts code = none) :
    NoCarryOver code s ↔ ∀ now userId, (now, .createRequest code userId) ∉ past := by
  have hrequested : s.Requested code ↔ ∃ now userId, (now, .createRequest code userId) ∈ past := by
    rw [requested_step s₀ s e hdelete code, requested_run empty s₀ past hpast code]
    constructor
    · rintro ((⟨q, hq, -⟩ | hmem) | ⟨now, userId, rfl⟩)
      · cases hq
      · exact hmem
      · cases hdelete
        exact absurd hgone hrow
    · intro hmem
      exact .inl (.inr hmem)
  constructor
  · intro hnone now userId hmem
    obtain ⟨q, hq, hcode⟩ := hrequested.mpr ⟨now, userId, hmem⟩
    have hoccupied : Occupied s₀ := TransitionSystem.run_invariant step Occupied occupied_step (by
      intro code row hrow
      cases hrow) hpast
    obtain ⟨stored, hstored⟩ := Option.ne_none_iff_exists'.mp hrow
    obtain ⟨hne, ⟨connection⟩⟩ := hoccupied code stored hstored
    -- The new owner finds the old request in the listing, and would find none in the other history.
    obtain ⟨a, t, row, hassign, hacode, hfresh, ht, hrequests, htrow, howner⟩ :=
      newOwner_registers s code hne hgone connection
    obtain ⟨-, t', -, -, -, -, ht', hrequests', -⟩ :=
      newOwner_registers (s.forget code) code hne (by simp [forget, SqliteRegistry.forget]) connection
    have hsame := hnone [] [] 0 (newOwner code) connection "" 0 s t t' a rfl hassign hacode hfresh
      (by rw [List.nil_append, TransitionSystem.run_cons, ht]; rfl)
      (by rw [List.nil_append, TransitionSystem.run_cons, ht']; rfl)
    have hlisted : q ∈ t.listAccessRequestsForOwner 0 := by
      simp [listAccessRequestsForOwner, hrequests, hq, hcode, htrow, howner]
    rw [← hsame.2.1 row 0 htrow howner] at hlisted
    have hkept : q ∈ (s.forget code).requests.rows := by
      rw [← hrequests']
      exact List.mem_of_mem_filter (List.mem_reverse.mp hlisted)
    exact absurd hcode (by simpa using (List.mem_filter.mp hkept).2)
  · intro hnever between later now auth connection generated effectiveTtl u t t' a _ _ _ _ ht ht'
    have hfresh : ∀ q ∈ s.requests.rows, q.code ≠ code := by
      intro q hq hcode
      obtain ⟨now, userId, hmem⟩ := hrequested.mp ⟨q, hq, hcode⟩
      exact hnever now userId hmem
    have hstart : Alike s (s.forget code) :=
      ⟨s.registry.forget_alike code hgone, s.requests.forget_eq_self code hfresh⟩
    exact (TransitionSystem.run_related step Alike Alike.step hstart ht ht').sameResults _ _ code

/-- The mount `photos` of the owner 7, with a request of the user 1 if there is one. -/
def oldMount (requests : List (ℚ × RelayEvent (Fin 1))) : List (ℚ × RelayEvent (Fin 1)) :=
  (0, .mount (.connect ⟨some "photos", "10.0.0.7", some 7, ⟨.restricted, false, []⟩⟩ 0 "spare" 100)) :: requests

theorem noCarryOver_iff_photos :
    ∃ s₀ s, TransitionSystem.run step empty (oldMount []) = some s₀ ∧ s₀.registry.mounts "photos" ≠ none ∧
      s₀.step (1, .deregister "photos") = some s ∧ s.registry.mounts "photos" = none ∧
      (NoCarryOver "photos" s ↔ ∀ now userId, (now, .createRequest "photos" userId) ∉ oldMount []) := by
  have heval : (TransitionSystem.run step empty (oldMount [])).any (fun s₀ =>
      (s₀.registry.mounts "photos").isSome && (s₀.step (1, .deregister "photos")).any fun s =>
        decide (s.registry.mounts "photos" = none)) = true := by decide +kernel
  obtain ⟨s₀, hpast, hs₀⟩ := (Option.any_eq_true _ _).mp heval
  obtain ⟨hrow, hs⟩ := Bool.and_eq_true_iff.mp hs₀
  obtain ⟨s, hdelete, hgone⟩ := (Option.any_eq_true _ _).mp hs
  have hne : s₀.registry.mounts "photos" ≠ none := Option.isSome_iff_ne_none.mp hrow
  have hnone : s.registry.mounts "photos" = none := of_decide_eq_true hgone
  exact ⟨s₀, s, hpast, hne, hdelete, hnone, noCarryOver_iff "photos" (oldMount []) s₀ s _ hpast hne hdelete hnone⟩

/-- The user 1 was denied access to the old mount. The new owner is shown that request, and the user's
new request is answered with it. -/
theorem noCarryOver_not_denied :
    ∃ s₀ s t t', TransitionSystem.run step empty
        (oldMount [(1, .createRequest "photos" 1), (2, .resolveRequest 1 7 false .deny)]) = some s₀ ∧
      s₀.registry.mounts "photos" ≠ none ∧ s₀.step (3, .deregister "photos") = some s ∧
      s.registry.mounts "photos" = none ∧
      s.step (0, .mount (.connect (newOwner "photos") 0 "" 0)) = some t ∧
      (s.forget "photos").step (0, .mount (.connect (newOwner "photos") 0 "" 0)) = some t' ∧
      t.listAccessRequestsForOwner 0 = [⟨1, "photos", 1, .denied, 1⟩] ∧ t'.listAccessRequestsForOwner 0 = [] ∧
      (t.requests.createAccessRequest "photos" 1 5).2 = some ⟨1, "photos", 1, .denied, 1⟩ ∧
      (t'.requests.createAccessRequest "photos" 1 5).2 = some ⟨2, "photos", 1, .pending, 5⟩ ∧
      ¬ NoCarryOver "photos" s := by
  have heval : (TransitionSystem.run step empty
      (oldMount [(1, .createRequest "photos" 1), (2, .resolveRequest 1 7 false .deny)])).any (fun s₀ =>
      (s₀.registry.mounts "photos").isSome && (s₀.step (3, .deregister "photos")).any fun s =>
        decide (s.registry.mounts "photos" = none) &&
        (s.step (0, .mount (.connect (newOwner "photos") 0 "" 0))).any fun t =>
        ((s.forget "photos").step (0, .mount (.connect (newOwner "photos") 0 "" 0))).any fun t' =>
          decide (t.listAccessRequestsForOwner 0 = [⟨1, "photos", 1, .denied, 1⟩] ∧
            t'.listAccessRequestsForOwner 0 = [] ∧
            (t.requests.createAccessRequest "photos" 1 5).2 = some ⟨1, "photos", 1, .denied, 1⟩ ∧
            (t'.requests.createAccessRequest "photos" 1 5).2 = some ⟨2, "photos", 1, .pending, 5⟩)) = true := by
    decide +kernel
  obtain ⟨s₀, hpast, hs₀⟩ := (Option.any_eq_true _ _).mp heval
  obtain ⟨hrow, hs⟩ := Bool.and_eq_true_iff.mp hs₀
  obtain ⟨s, hdelete, hs⟩ := (Option.any_eq_true _ _).mp hs
  obtain ⟨hgone, hs⟩ := Bool.and_eq_true_iff.mp hs
  obtain ⟨t, ht, hs⟩ := (Option.any_eq_true _ _).mp hs
  obtain ⟨t', ht', hs⟩ := (Option.any_eq_true _ _).mp hs
  obtain ⟨hlist, hlist', hcreate, hcreate'⟩ := of_decide_eq_true hs
  have hnone : s.registry.mounts "photos" = none := of_decide_eq_true hgone
  refine ⟨s₀, s, t, t', hpast, Option.isSome_iff_ne_none.mp hrow, hdelete, hnone, ht, ht', hlist, hlist',
    hcreate, hcreate', ?_⟩
  intro hno
  obtain ⟨a, -, -, hassign, hacode, hfresh, -⟩ := newOwner_registers s "photos" (by decide) hnone 0
  have hsame := hno [] [] 0 (newOwner "photos") 0 "" 0 s t t' a rfl hassign hacode hfresh
    (by rw [List.nil_append, TransitionSystem.run_cons, ht]; rfl)
    (by rw [List.nil_append, TransitionSystem.run_cons, ht']; rfl)
  have hsamecreate := hsame.2.2 1 5
  rw [hcreate, hcreate'] at hsamecreate
  cases hsamecreate

end RelayRegistry

end NetworkFileServer.Relay
