import NetworkFileServer.Framework.LastChange
import NetworkFileServer.Relay.ApprovedAccess

/-!
# Where access comes from

A role that `authorize` finds goes back to what the agent of the mount declared last, or to a request of the
user himself that the owner or an admin has approved since.
-/

namespace NetworkFileServer.Relay

open KeyedTable SqliteRegistry TransitionSystem

variable {κ : Type*}

namespace RelayRegistry

/-- The event puts the entry on the allowlist of the mount: the agent declares it, as the last one for its
subject, or it is the entry of a user who has asked for access before, and whose request the owner of the mount
or an admin approves. -/
inductive Grants (code : Code) (x : PolicyEntry) (before : List (ℚ × RelayEvent κ)) (s : RelayRegistry κ) :
    ℚ × RelayEvent κ → Prop
  | declared (e : ℚ × RelayEvent κ) (entries : List PolicyEntry) (hdeclares : s.declares e = some (code, entries))
      (hlast : LastOf PolicyEntry.SameSubject entries x) : Grants code x before s e
  | approved (now : ℚ) (requestId resolver : Nat) (isAdmin : Bool) (role : Option Role) (q : AccessRequest)
      (row : StoredRow) (hq : s.requests.getAccessRequest requestId = some q) (hcode : q.code = code)
      (hrow : s.registry.mounts code = some row) (hmay : row.ownerUserId = some resolver ∨ isAdmin = true)
      (hasked : ∃ asked, (asked, .createRequest code q.userId) ∈ before)
      (hx : x = ⟨.user, q.userId, role.getD .read⟩) :
      Grants code x before s (now, .resolveRequest requestId resolver isAdmin (.approve role))

/-- The event takes the entry from the allowlist of the mount: the agent declares the whole list, or a request of
the same user is approved. -/
inductive Replaces (code : Code) (x : PolicyEntry) (s : RelayRegistry κ) : ℚ × RelayEvent κ → Prop
  | declared (e : ℚ × RelayEvent κ) (entries : List PolicyEntry) (hdeclares : s.declares e = some (code, entries)) :
      Replaces code x s e
  | approved (now : ℚ) (requestId resolver : Nat) (isAdmin : Bool) (role : Option Role) (q : AccessRequest)
      (hq : s.resolvable requestId resolver isAdmin = some q) (hcode : q.code = code) (hfor : x.IsFor q.userId) :
      Replaces code x s (now, .resolveRequest requestId resolver isAdmin (.approve role))

/-- The entry is in force after the events: one of them granted it, and none has replaced it since. -/
def InForce (events : List (ℚ × RelayEvent κ)) (code : Code) (x : PolicyEntry) : Prop :=
  Since step (Grants code x) (Replaces code x) empty events

theorem resolvable_iff (s : RelayRegistry κ) (requestId resolver : Nat) (isAdmin : Bool) (q : AccessRequest) :
    s.resolvable requestId resolver isAdmin = some q ↔ s.requests.getAccessRequest requestId = some q ∧
      ∃ row, s.registry.mounts q.code = some row ∧ (row.ownerUserId = some resolver ∨ isAdmin = true) := by
  unfold resolvable
  rw [Option.filter_eq_some_iff, Option.any_eq_true]
  simp only [Bool.or_eq_true, decide_eq_true_eq]

theorem asked_of_step {s t : RelayRegistry κ} {e : ℚ × RelayEvent κ} (hstep : s.step e = some t)
    (q : AccessRequest) (hq : q ∈ t.requests.rows) :
    (∃ q' ∈ s.requests.rows, q'.code = q.code ∧ q'.userId = q.userId) ∨ e.2 = .createRequest q.code q.userId := by
  obtain ⟨now, e⟩ := e
  cases e with
  | mount e =>
      obtain ⟨r, -, rfl⟩ := Option.map_eq_some_iff.mp hstep
      exact .inl ⟨q, hq, rfl, rfl⟩
  | deregister code =>
      cases hstep
      exact .inl ⟨q, hq, rfl, rfl⟩
  | setOwnerPolicy code ownerUserId policy =>
      cases hstep
      exact .inl ⟨q, hq, rfl, rfl⟩
  | createRequest code userId =>
      cases hstep
      rcases (RequestTable.mem_insertOrIgnore _ _ _ _ _).mp hq with hold | ⟨-, rfl⟩
      · exact .inl ⟨q, hold, rfl, rfl⟩
      · exact .inr rfl
  | resolveRequest requestId userId isAdmin action =>
      cases hstep
      have hset : ∀ status, q ∈ (s.requests.setStatus requestId status).rows →
          ∃ q' ∈ s.requests.rows, q'.code = q.code ∧ q'.userId = q.userId := by
        intro status hmem
        rcases (RequestTable.mem_setStatus _ _ _ _).mp hmem with ⟨hold, -⟩ | ⟨q', hq', -, rfl⟩
        · exact ⟨q, hold, rfl, rfl⟩
        · exact ⟨q', hq', rfl, rfl⟩
      unfold resolveRequest at hq
      cases hresolvable : s.resolvable requestId userId isAdmin with
      | none =>
          rw [hresolvable] at hq
          exact .inl ⟨q, hq, rfl, rfl⟩
      | some q' =>
          rw [hresolvable] at hq
          cases action with
          | approve role => exact .inl (hset _ hq)
          | deny => exact .inl (hset _ hq)

theorem asked_of_mem {before : List (ℚ × RelayEvent κ)} {s : RelayRegistry κ} (hrun : run step empty before = some s)
    (q : AccessRequest) (hq : q ∈ s.requests.rows) :
    ∃ asked, (asked, .createRequest q.code q.userId) ∈ before := by
  induction before using List.reverseRecOn generalizing s q with
  | nil =>
      cases hrun
      cases hq
  | append_singleton before e ih =>
      obtain ⟨r, hr, hstep⟩ := exists_of_run_concat hrun
      rcases asked_of_step hstep q hq with ⟨q', hq', hcode, huser⟩ | he
      · obtain ⟨asked, hmem⟩ := ih hr q' hq'
        rw [hcode, huser] at hmem
        exact ⟨asked, List.mem_append_left _ hmem⟩
      · exact ⟨e.1, by rw [← he]; simp⟩

/-- An event that declares nothing for the mount and approves nothing leaves its allowlist alone. -/
inductive PolicyStep (s : RelayRegistry κ) (e : ℚ × RelayEvent κ) (t : RelayRegistry κ) : Prop
  | declared (code : Code) (entries : List PolicyEntry) (hdeclares : s.declares e = some (code, entries))
      (hpolicy : t.registry.policy =
        Function.update s.registry.policy code (entries.foldl Registry.replaceEntry []))
  | approved (now : ℚ) (requestId resolver : Nat) (isAdmin : Bool) (role : Option Role) (q : AccessRequest)
      (he : e = (now, .resolveRequest requestId resolver isAdmin (.approve role)))
      (hq : s.resolvable requestId resolver isAdmin = some q)
      (hpolicy : t.registry.policy = Function.update s.registry.policy q.code
        (Registry.replaceEntry (s.registry.policy q.code) ⟨.user, q.userId, role.getD .read⟩))
  | unchanged (hdeclares : s.declares e = none)
      (happroves : ∀ now requestId resolver isAdmin role,
        e = (now, .resolveRequest requestId resolver isAdmin (.approve role)) →
          s.resolvable requestId resolver isAdmin = none)
      (hpolicy : t.registry.policy = s.registry.policy)

theorem policyStep_mount {s : RelayRegistry κ} {r : SqliteRegistry κ} (now : ℚ) (e : MountEvent κ)
    (hr : MountEvent.step s.registry (now, e) = some r) :
    s.PolicyStep (now, .mount e) { s with registry := r } := by
  by_cases hconnect : ∃ auth connection generated effectiveTtl, e = .connect auth connection generated effectiveTtl
  · obtain ⟨auth, connection, generated, effectiveTtl, rfl⟩ := hconnect
    cases hassign : s.registry.assignCode now auth connection generated effectiveTtl with
    | error err =>
        simp only [MountEvent.step, hassign] at hr
        cases hr
        exact .unchanged (by simp [declares, hassign]) (by simp) rfl
    | ok a =>
        simp only [MountEvent.step, hassign] at hr
        cases hr
        exact .declared a.code auth.policy.entries (by simp [declares, hassign])
          (policy_storePolicy auth s.registry now connection generated effectiveTtl a hassign)
  · have hother : ∀ auth connection generated effectiveTtl, e ≠ .connect auth connection generated effectiveTtl :=
      fun auth connection generated effectiveTtl heq => hconnect ⟨auth, connection, generated, effectiveTtl, heq⟩
    refine .unchanged ?_ (by simp) (MountEvent.policy_step s.registry r now e hother hr)
    cases e with
    | connect auth connection generated effectiveTtl => exact absurd rfl (hother _ _ _ _)
    | disconnect code | expire code | markTtlWarned code | deleteExpiredBefore cutoff | restart => rfl

theorem policyStep_of_step {s t : RelayRegistry κ} {e : ℚ × RelayEvent κ} (hstep : s.step e = some t) :
    s.PolicyStep e t := by
  obtain ⟨now, e⟩ := e
  cases e with
  | mount e =>
      obtain ⟨r, hr, rfl⟩ := Option.map_eq_some_iff.mp hstep
      exact policyStep_mount now e hr
  | deregister code =>
      cases hstep
      exact .unchanged rfl (by simp) (policy_outcome_withRow s.registry code _ fun _ => rfl)
  | setOwnerPolicy code ownerUserId policy =>
      cases hstep
      cases hrow : s.registry.mounts code with
      | none =>
          refine .unchanged (by simp [declares, hasMount, hrow]) (by simp) ?_
          simp [perform, setOwnerPolicy, withRow, hrow, outcome]
      | some row =>
          refine .declared code policy.entries (by simp [declares, hasMount, hrow]) ?_
          simp [perform, setOwnerPolicy, withRow, hrow, outcome]
  | createRequest code userId =>
      cases hstep
      exact .unchanged rfl (by simp) rfl
  | resolveRequest requestId resolver isAdmin action =>
      cases hstep
      cases hresolvable : s.resolvable requestId resolver isAdmin with
      | none =>
          refine .unchanged rfl ?_ (by simp only [resolveRequest, hresolvable])
          rintro now' requestId' resolver' isAdmin' role heq
          cases heq
          exact hresolvable
      | some q =>
          cases action with
          | approve role =>
              exact .approved now requestId resolver isAdmin role q rfl hresolvable
                (by simp only [resolveRequest, hresolvable]; rfl)
          | deny => exact .unchanged rfl (by simp) (by simp only [resolveRequest, hresolvable])

section Changes

variable {before : List (ℚ × RelayEvent κ)} {s t : RelayRegistry κ} {e : ℚ × RelayEvent κ} {code : Code}
  {x : PolicyEntry}

theorem grants_iff_of_declares {code' : Code} {entries : List PolicyEntry}
    (hdeclares : s.declares e = some (code', entries)) :
    Grants code x before s e ↔ code = code' ∧ LastOf PolicyEntry.SameSubject entries x := by
  constructor
  · intro hgrants
    cases hgrants with
    | declared _ entries' hdeclares' hlast =>
        rw [hdeclares] at hdeclares'
        cases hdeclares'
        exact ⟨rfl, hlast⟩
    | approved => cases hdeclares
  · rintro ⟨rfl, hlast⟩
    exact .declared e entries hdeclares hlast

theorem replaces_iff_of_declares {code' : Code} {entries : List PolicyEntry}
    (hdeclares : s.declares e = some (code', entries)) : Replaces code x s e ↔ code = code' := by
  constructor
  · intro hreplaces
    cases hreplaces with
    | declared _ entries' hdeclares' =>
        rw [hdeclares] at hdeclares'
        cases hdeclares'
        rfl
    | approved => cases hdeclares
  · rintro rfl
    exact .declared e entries hdeclares

section Approval

variable {now : ℚ} {requestId resolver : Nat} {isAdmin : Bool} {role : Option Role} {q : AccessRequest}
  (hq : s.resolvable requestId resolver isAdmin = some q)

include hq

theorem grants_iff_of_approve (hrun : run step empty before = some s) :
    Grants code x before s (now, .resolveRequest requestId resolver isAdmin (.approve role)) ↔
      code = q.code ∧ x = ⟨.user, q.userId, role.getD .read⟩ := by
  obtain ⟨hget, row, hrow, hmay⟩ := (s.resolvable_iff requestId resolver isAdmin q).mp hq
  constructor
  · intro hgrants
    cases hgrants with
    | declared _ entries hdeclares _ => cases hdeclares
    | approved _ _ _ _ _ q' _ hget' hcode _ _ _ hx =>
        rw [hget] at hget'
        cases hget'
        exact ⟨hcode.symm, hx⟩
  · rintro ⟨rfl, hx⟩
    have hasked := asked_of_mem hrun q (s.resolvable_eq_some requestId resolver isAdmin q hq).1
    exact .approved now requestId resolver isAdmin role q row hget rfl hrow hmay hasked hx

theorem replaces_iff_of_approve :
    Replaces code x s (now, .resolveRequest requestId resolver isAdmin (.approve role)) ↔
      code = q.code ∧ x.IsFor q.userId := by
  constructor
  · intro hreplaces
    cases hreplaces with
    | declared _ entries hdeclares => cases hdeclares
    | approved _ _ _ _ _ q' hq' hcode hfor =>
        rw [hq] at hq'
        cases hq'
        exact ⟨hcode.symm, hfor⟩
  · rintro ⟨rfl, hfor⟩
    exact .approved now requestId resolver isAdmin role q hq rfl hfor

end Approval

section Quiet

variable (hdeclares : s.declares e = none) (happroves : ∀ now requestId resolver isAdmin role,
  e = (now, .resolveRequest requestId resolver isAdmin (.approve role)) →
    s.resolvable requestId resolver isAdmin = none)

include hdeclares happroves

theorem not_grants_of_quiet : ¬Grants code x before s e := by
  intro hgrants
  cases hgrants with
  | declared _ entries hdeclares' _ =>
      rw [hdeclares] at hdeclares'
      cases hdeclares'
  | approved now requestId resolver isAdmin role q row hget hcode hrow hmay _ _ =>
      subst hcode
      have hq := (s.resolvable_iff requestId resolver isAdmin q).mpr ⟨hget, row, hrow, hmay⟩
      rw [happroves now requestId resolver isAdmin role rfl] at hq
      cases hq

theorem not_replaces_of_quiet : ¬Replaces code x s e := by
  intro hreplaces
  cases hreplaces with
  | declared _ entries hdeclares' =>
      rw [hdeclares] at hdeclares'
      cases hdeclares'
  | approved now requestId resolver isAdmin role q hq _ _ =>
      rw [happroves now requestId resolver isAdmin role rfl] at hq
      cases hq

end Quiet

theorem mem_policy_step (hrun : run step empty before = some s) (hstep : s.step e = some t) :
    x ∈ t.registry.policy code ↔
      Grants code x before s e ∨ x ∈ s.registry.policy code ∧ ¬Replaces code x s e := by
  cases policyStep_of_step hstep with
  | declared code' entries hdeclares hpolicy =>
      rw [hpolicy, grants_iff_of_declares hdeclares, replaces_iff_of_declares hdeclares]
      by_cases hcode : code = code'
      · subst hcode
        rw [Function.update_self, mem_foldl_replaceEntry]
        simp
      · rw [Function.update_of_ne hcode]
        simp [hcode]
  | approved now requestId resolver isAdmin role q he hq hpolicy =>
      subst he
      rw [hpolicy, grants_iff_of_approve hq hrun, replaces_iff_of_approve hq]
      by_cases hcode : code = q.code
      · subst hcode
        rw [Function.update_self, mem_replaceEntry]
        simp only [true_and]
        exact or_comm
      · rw [Function.update_of_ne hcode]
        simp [hcode]
  | unchanged hdeclares happroves hpolicy =>
      have hgrants : ¬Grants code x before s e := not_grants_of_quiet hdeclares happroves
      have hreplaces : ¬Replaces code x s e := not_replaces_of_quiet hdeclares happroves
      rw [hpolicy]
      simp [hgrants, hreplaces]

end Changes

/-- The allowlist of a mount is what the events have granted and not replaced since. -/
theorem mem_policy_iff {events : List (ℚ × RelayEvent κ)} {s : RelayRegistry κ} (hrun : run step empty events = some s)
    (code : Code) (x : PolicyEntry) : x ∈ s.registry.policy code ↔ InForce events code x :=
  holds_iff_since (P := fun s : RelayRegistry κ => x ∈ s.registry.policy code) (by simp [empty])
    (fun _ _ _ _ hbefore hstep => mem_policy_step hbefore hstep) hrun

/-- After any events a user is identified on a mount exactly with the greatest role that is in force for him. -/
theorem authorize_identifies_iff {events : List (ℚ × RelayEvent κ)} {s : RelayRegistry κ}
    (hrun : run step empty events = some s) (store : Accounts.AccountStore) (hacyclic : store.Acyclic) (code : Code)
    (identity : Option SessionIdentity) (username : String) (role : Role) :
    authorizeAccount (s.registry.getPolicy code) (some store) identity = .ok (.identified username role) ↔
      s.registry.hasMount code = true ∧ ∃ i, identity = some i ∧ i.username = username ∧ i.userId ∈ store.users ∧
        (∃ x, InForce events code x ∧ x.Matches store i.userId ∧ x.role = role) ∧
        ∀ x, InForce events code x → x.Matches store i.userId → x.role.rank ≤ role.rank := by
  unfold hasMount getPolicy
  simp only [← mem_policy_iff hrun]
  cases hrow : s.registry.mounts code with
  | none => simp [authorizeAccount, authorize, Except.mapError]
  | some row =>
      simp only [Option.map_some, Option.isSome_some, true_and]
      rcases authorizeAccount_cases ⟨row.accessMode, row.hasPassword, s.registry.policy code⟩ store hacyclic identity
        with ⟨i, role', rfl, huser, hdecision, hrole, hmax⟩ | ⟨hnot, hdecision⟩
      · rw [hdecision]
        constructor
        · intro heq
          cases heq
          exact ⟨i, rfl, rfl, huser, hrole, hmax⟩
        · rintro ⟨j, hj, rfl, -, ⟨x, hx, hmatches, rfl⟩, hmax'⟩
          cases hj
          obtain ⟨y, hy, hmatches', rfl⟩ := hrole
          have heq := Role.rank_injective x.role y.role (le_antisymm (hmax x hx hmatches) (hmax' y hy hmatches'))
          rw [heq]
      · rw [hdecision]
        constructor
        · exact fun heq => absurd heq (unidentified_ne_identified _ _ username role)
        · rintro ⟨i, rfl, -, huser, ⟨x, hx, hmatches, -⟩, -⟩
          exact absurd ⟨i, rfl, huser, x, hx, hmatches⟩ hnot

/-- The owner has approved the request of the user 1, with the role WRITE. -/
theorem authorize_identifies_iff_approval :
    ∃ s, run step empty DeclaredRegistry.approval = some s ∧
      authorizeAccount (s.registry.getPolicy "photos") (some aliceStore.toStore) (some ⟨1, "alice"⟩) =
        .ok (.identified "alice" .write) := by
  have heval : (run step empty DeclaredRegistry.approval).any (fun s =>
      decide (s.registry.hasMount "photos" = true ∧ s.registry.policy "photos" = [⟨.user, 1, .write⟩])) = true := by
    decide +kernel
  obtain ⟨s, hrun, hs⟩ := (Option.any_eq_true _ _).mp heval
  obtain ⟨hmount, hpolicy⟩ := of_decide_eq_true hs
  refine ⟨s, hrun, ?_⟩
  apply (authorize_identifies_iff hrun aliceStore.toStore aliceStore_acyclic "photos" _ "alice" .write).mpr
  refine ⟨hmount, ⟨1, "alice"⟩, rfl, rfl, by decide, ⟨⟨.user, 1, .write⟩, ?_, rfl, rfl⟩, ?_⟩
  · rw [← mem_policy_iff hrun, hpolicy]
    exact List.mem_singleton_self _
  · intro x hx _
    rw [← mem_policy_iff hrun, hpolicy] at hx
    rw [List.mem_singleton.mp hx]

end RelayRegistry

end NetworkFileServer.Relay
