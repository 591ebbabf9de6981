import NetworkFileServer.Relay.AgentSecrets
import NetworkFileServer.Server.Permissions

/-!
# Operations on a mounted folder

A request for a mounted folder passes the access check of the relay, goes to the agent that is connected, and passes
the guards of the server behind the agent. What gets that far depends on what has happened to the mount before: which
agent was connected last, what was declared, and which requests for access were approved.
-/

namespace NetworkFileServer.Server

open Relay Shared TransitionSystem
open Accounts (AccountStore)

/-- The agent behind a connection: whether its folder has a password, and the secret that it has minted. -/
structure MountedAgent where
  hasPassword : Bool
  identitySecret : Option Secret

/-- `build_mount_app` -/
def MountedAgent.config (agent : MountedAgent) (code : Code) : AccessConfig where
  mountCode := some code
  identitySecret := agent.identitySecret
  hasPassword := agent.hasPassword
  readOnly := false
  receive := false

@[simp] theorem MountedAgent.hasPassword_config (agent : MountedAgent) (code : Code) :
    (agent.config code).hasPassword = agent.hasPassword := rfl

@[simp] theorem MountedAgent.identitySecret_config (agent : MountedAgent) (code : Code) :
    (agent.config code).identitySecret = agent.identitySecret := rfl

variable {κ : Type*}

/-- `proxy_request` for a mount that is not a local one, up to the work of the route in the server behind the
agent. -/
def operationPasses (hmac : String → String → String) (agent : κ → MountedAgent) (closed : κ → Bool)
    (s : RelayRegistry κ) (store : AccountStore) (code : Code) (identity : Option SessionIdentity) (headers : Headers)
    (validCookie : Bool) (owners : OwnerTable) (op : Operation) : Bool :=
  match authorizeAccount (s.registry.getPolicy code) (some store) identity with
  | .error _ => false
  | .ok decision =>
      match s.registry.getConnection closed code with
      | .error _ => false
      | .ok connection =>
          permits hmac ((agent connection).config code)
            (forwardHeaders hmac headers decision (s.registry.getIdentitySecret code)) validCookie owners op

/-- The session's user exists, and this is the greatest role that the events have given him on the mount. -/
def GreatestInForce (events : List (ℚ × RelayEvent κ)) (store : AccountStore) (code : Code)
    (identity : Option SessionIdentity) (username : String) (role : Role) : Prop :=
  ∃ i, identity = some i ∧ i.username = username ∧ i.userId ∈ store.users ∧
    (∃ x, RelayRegistry.InForce events code x ∧ x.Matches store i.userId ∧ x.role = role) ∧
      ∀ x, RelayRegistry.InForce events code x → x.Matches store i.userId → x.role.rank ≤ role.rank

theorem GreatestInForce.unique {events : List (ℚ × RelayEvent κ)} {store : AccountStore} {code : Code}
    {identity : Option SessionIdentity} {username username' : String} {role role' : Role}
    (h : GreatestInForce events store code identity username role)
    (h' : GreatestInForce events store code identity username' role') : username' = username ∧ role' = role := by
  obtain ⟨i, rfl, rfl, -, ⟨x, hx, hmatches, rfl⟩, hmax⟩ := h
  obtain ⟨j, hj, rfl, -, ⟨y, hy, hmatches', rfl⟩, hmax'⟩ := h'
  cases hj
  exact ⟨rfl, Role.rank_injective y.role x.role (le_antisymm (hmax y hy hmatches') (hmax' x hx hmatches))⟩

theorem permitsAs_config_none (agent : MountedAgent) (code : Code) (validCookie : Bool) (owners : OwnerTable)
    (op : Operation) : permitsAs (agent.config code) none validCookie owners op = true ↔
      (agent.hasPassword = true → validCookie = true) := by
  have hguards : op.dependencies.all (fun guard => guard.passes (agent.config code) none) = true := by
    apply List.all_eq_true.mpr
    intro guard _
    cases guard <;> rfl
  have hscope : op.inScope (scopeOf none) owners = true := inScope_none owners op
  unfold permitsAs
  rw [hguards, hscope, MountedAgent.hasPassword_config]
  cases agent.hasPassword <;> cases validCookie <;> simp

theorem seenIdentity_signed {agent : κ → MountedAgent} {s : RelayRegistry κ}
    (hsigned : RelayRegistry.Signed (fun connection => (agent connection).identitySecret) s) {code : Code}
    {connection : κ} (hattached : s.registry.Attached code connection) (username : String) (role : Role) :
    seenIdentity ((agent connection).config code) (s.registry.getIdentitySecret code) (.identified username role) =
      (agent connection).identitySecret.map fun _ => (username, role) := by
  unfold seenIdentity
  cases hsecret : (agent connection).identitySecret with
  | none =>
      apply if_neg
      rintro ⟨-, k, -, hk⟩
      rw [MountedAgent.identitySecret_config, hsecret] at hk
      cases hk
  | some k =>
      apply if_pos
      exact ⟨rfl, k, hsigned.keeps code connection k hattached hsecret, hsecret⟩

theorem exists_unidentified_iff (policy : MountPolicy) (identity : Option SessionIdentity) :
    (∃ username, unidentified policy identity = .ok (.passthrough username)) ↔
      (policy.accessMode = .restricted → policy.hasPassword = true) := by
  unfold unidentified
  cases hmode : policy.accessMode with
  | «open» => simp
  | legacy => simp
  | restricted =>
      cases hpassword : policy.hasPassword with
      | true => simp
      | false => cases identity <;> simp

theorem unidentified_ok (policy : MountPolicy) (identity : Option SessionIdentity) (decision : AccessDecision)
    (hok : unidentified policy identity = .ok decision) : ∃ username, decision = .passthrough username := by
  cases decision with
  | identified username role => exact absurd hok (unidentified_ne_identified policy identity username role)
  | passthrough username => exact ⟨username, rfl⟩

section Run

variable {events : List (ℚ × RelayEvent κ)} {s : RelayRegistry κ}

theorem authorizeAccount_of_run (hrun : run RelayRegistry.step RelayRegistry.empty events = some s)
    (store : AccountStore) (hacyclic : store.Acyclic) (identity : Option SessionIdentity) {code : Code}
    {row : StoredRow} (hrow : s.registry.mounts code = some row) :
    (∃ username role, GreatestInForce events store code identity username role ∧
      authorizeAccount (s.registry.getPolicy code) (some store) identity = .ok (.identified username role)) ∨
    (¬∃ username role, GreatestInForce events store code identity username role) ∧
      authorizeAccount (s.registry.getPolicy code) (some store) identity =
        unidentified ⟨row.accessMode, row.hasPassword, s.registry.policy code⟩ identity := by
  have hpolicy : s.registry.getPolicy code = some ⟨row.accessMode, row.hasPassword, s.registry.policy code⟩ := by
    unfold SqliteRegistry.getPolicy
    rw [hrow, Option.map_some]
  have hmem := RelayRegistry.mem_policy_iff hrun code
  rw [hpolicy]
  rcases authorizeAccount_cases ⟨row.accessMode, row.hasPassword, s.registry.policy code⟩ store hacyclic identity
    with ⟨i, role, rfl, huser, hdecision, ⟨x, hx, hmatches, hrole⟩, hmax⟩ | ⟨hnot, hdecision⟩
  · refine .inl ⟨i.username, role, ⟨i, rfl, rfl, huser, ⟨x, (hmem x).mp hx, hmatches, hrole⟩, ?_⟩, hdecision⟩
    intro y hy
    exact hmax y ((hmem y).mpr hy)
  · refine .inr ⟨?_, hdecision⟩
    rintro ⟨username, role, i, rfl, -, huser, ⟨x, hx, hmatches, -⟩, -⟩
    exact hnot ⟨i, rfl, huser, x, (hmem x).mpr hx, hmatches⟩

/-- Strangers pass exactly if the policy that was declared last says so. -/
theorem exists_unidentified_iff_lastDeclared (hrun : run RelayRegistry.step RelayRegistry.empty events = some s)
    (identity : Option SessionIdentity) {code : Code} {row : StoredRow}
    (hrow : s.registry.mounts code = some row) :
    (∃ username, unidentified ⟨row.accessMode, row.hasPassword, s.registry.policy code⟩ identity =
      .ok (.passthrough username)) ↔
      ∃ policy, RelayRegistry.LastDeclared events code policy ∧
        (policy.accessMode = .restricted → policy.hasPassword = true) := by
  obtain ⟨⟨policy, hlast⟩, hall⟩ := RelayRegistry.hasModeOf_lastDeclared hrun hrow
  rw [exists_unidentified_iff]
  constructor
  · intro hopen
    obtain ⟨hmode, hpassword⟩ := hall policy hlast
    exact ⟨policy, hlast, by rwa [← hmode, ← hpassword]⟩
  · rintro ⟨policy', hlast', hopen⟩
    obtain ⟨hmode, hpassword⟩ := hall policy' hlast'
    rwa [← hmode, ← hpassword] at hopen

end Run

section Operations

variable {hmac : String → String → String} (hhex : HexDigests hmac) (hfree : CollisionFree hmac)
  {agent : κ → MountedAgent} {events : List (ℚ × RelayEvent κ)} {s : RelayRegistry κ}
  (hrun : run (RelayRegistry.agentStep fun connection => (agent connection).identitySecret) RelayRegistry.empty
    events = some s)

include hhex hfree hrun

/-- For a mount with an agent that is connected: the role that is in force decides, and where none is, the mode and
the password. -/
theorem operationPasses_attached (closed : κ → Bool) (store : AccountStore) (hacyclic : store.Acyclic) (code : Code)
    (identity : Option SessionIdentity) (headers : Headers) (validCookie : Bool) (owners : OwnerTable) (op : Operation)
    {connection : κ} (hattached : s.registry.Attached code connection) (hopen : closed connection = false) :
    operationPasses hmac agent closed s store code identity headers validCookie owners op = true ↔
      (∃ username role, GreatestInForce events store code identity username role ∧
        permitsAs ((agent connection).config code)
          ((agent connection).identitySecret.map fun _ => (username, role)) validCookie owners op = true) ∨
      ((¬∃ username role, GreatestInForce events store code identity username role) ∧
        (∃ policy, RelayRegistry.LastDeclared events code policy ∧
          (policy.accessMode = .restricted → policy.hasPassword = true)) ∧
        ((agent connection).hasPassword = true → validCookie = true)) := by
  have hforget := RelayRegistry.run_forgetSecrets _ hrun
  have hsigned := RelayRegistry.signed_of_run hrun
  obtain ⟨⟨row, hrow, hstatus⟩, -⟩ := id hattached
  have hconnection := (s.registry.getConnection_eq_ok_iff_attached closed code connection).mpr ⟨hattached, hopen⟩
  have hpermits := fun decision => permits_forwardHeaders hmac hhex hfree headers decision
    (s.registry.getIdentitySecret code) ((agent connection).config code) validCookie owners op
  unfold operationPasses
  rcases authorizeAccount_of_run hforget store hacyclic identity hrow with
    ⟨username, role, hgreatest, hdecision⟩ | ⟨hnone, hdecision⟩
  · rw [RelayRegistry.getPolicy_forgetSecrets] at hdecision
    simp only [hdecision, hconnection, hpermits, seenIdentity_signed hsigned hattached]
    constructor
    · exact fun hpasses => .inl ⟨username, role, hgreatest, hpasses⟩
    · rintro (⟨username', role', hgreatest', hpasses⟩ | ⟨hnone, -⟩)
      · obtain ⟨rfl, rfl⟩ := hgreatest.unique hgreatest'
        exact hpasses
      · exact absurd ⟨username, role, hgreatest⟩ hnone
  · rw [RelayRegistry.getPolicy_forgetSecrets, RelayRegistry.policy_forgetSecrets] at hdecision
    have hstrangers := exists_unidentified_iff_lastDeclared hforget identity hrow
    rw [RelayRegistry.policy_forgetSecrets] at hstrangers
    rw [← hstrangers, hdecision]
    cases hunidentified : unidentified ⟨row.accessMode, row.hasPassword, s.registry.policy code⟩ identity with
    | error err => simpa using fun username role hgreatest => absurd ⟨username, role, hgreatest⟩ hnone
    | ok decision =>
        obtain ⟨username, rfl⟩ := unidentified_ok _ identity decision hunidentified
        simp only [hconnection, hpermits, seenIdentity, permitsAs_config_none]
        constructor
        · exact fun hcookie => .inr ⟨hnone, ⟨username, rfl⟩, hcookie⟩
        · rintro (⟨username', role, hgreatest, -⟩ | ⟨-, -, hcookie⟩)
          · exact absurd ⟨username', role, hgreatest⟩ hnone
          · exact hcookie

/-- After any events an operation on a mounted folder gets through relay and server exactly if an agent serves the
mount, and the greatest role that is in force for the user permits it, or no role is in force for him, the mount
was last declared open to strangers, and he has the password of the folder if it has one. -/
theorem operationPasses_iff (closed : κ → Bool) (store : AccountStore) (hacyclic : store.Acyclic) (code : Code)
    (identity : Option SessionIdentity) (headers : Headers) (validCookie : Bool) (owners : OwnerTable)
    (op : Operation) :
    operationPasses hmac agent closed s store code identity headers validCookie owners op = true ↔
      ∃ connection, RelayRegistry.Serves events code connection ∧ closed connection = false ∧
        ((∃ username role, GreatestInForce events store code identity username role ∧
          permitsAs ((agent connection).config code)
            ((agent connection).identitySecret.map fun _ => (username, role)) validCookie owners op = true) ∨
        ((¬∃ username role, GreatestInForce events store code identity username role) ∧
          (∃ policy, RelayRegistry.LastDeclared events code policy ∧
            (policy.accessMode = .restricted → policy.hasPassword = true)) ∧
          ((agent connection).hasPassword = true → validCookie = true))) := by
  have hforget := RelayRegistry.run_forgetSecrets _ hrun
  have hserves : ∀ connection, s.registry.Attached code connection ↔ RelayRegistry.Serves events code connection :=
    RelayRegistry.attached_iff_serves hforget code
  constructor
  · intro hpasses
    -- no operation passes without a connection
    have hconnected : ∃ connection, s.registry.getConnection closed code = .ok connection := by
      unfold operationPasses at hpasses
      split at hpasses
      · cases hpasses
      · split at hpasses
        · cases hpasses
        · exact ⟨_, ‹_›⟩
    obtain ⟨connection, hconnection⟩ := hconnected
    obtain ⟨hattached, hopen⟩ := (s.registry.getConnection_eq_ok_iff_attached closed code connection).mp hconnection
    refine ⟨connection, (hserves connection).mp hattached, hopen, ?_⟩
    exact (operationPasses_attached hhex hfree hrun closed store hacyclic code identity headers validCookie owners op
      hattached hopen).mp hpasses
  · rintro ⟨connection, hconnection, hopen, hpasses⟩
    exact (operationPasses_attached hhex hfree hrun closed store hacyclic code identity headers validCookie owners op
      ((hserves connection).mpr hconnection) hopen).mpr hpasses

end Operations

/-- The folder has a password. -/
def aliceMount : Fin 1 → MountedAgent := fun _ => ⟨true, some aliceSecret⟩

/-- The owner has approved the request of the user 1, with the role WRITE: she uploads without the password. -/
theorem operationPasses_iff_approval :
    ∃ s, run (RelayRegistry.agentStep fun connection => (aliceMount connection).identitySecret) RelayRegistry.empty
        DeclaredRegistry.approval = some s ∧
      operationPasses aliceHmac aliceMount (fun _ => false) s aliceStore.toStore "photos" (some ⟨1, "alice"⟩) [] false
        [] (.upload "") = true := by
  have heval : (run (RelayRegistry.agentStep fun connection => (aliceMount connection).identitySecret)
      RelayRegistry.empty DeclaredRegistry.approval).any (fun s =>
        decide ((s.registry.mounts "photos").map (·.status) = some .online ∧
          s.registry.connections "photos" = some 0 ∧ s.registry.policy "photos" = [⟨.user, 1, .write⟩])) = true := by
    decide +kernel
  obtain ⟨s, hrun, hs⟩ := (Option.any_eq_true _ _).mp heval
  obtain ⟨hstatus, hconnection, hpolicy⟩ := of_decide_eq_true hs
  have hforget := RelayRegistry.run_forgetSecrets _ hrun
  have hattached : s.registry.Attached "photos" 0 := ⟨Option.map_eq_some_iff.mp hstatus, hconnection⟩
  have hforce : ∀ x, RelayRegistry.InForce DeclaredRegistry.approval "photos" x ↔ x = ⟨.user, 1, .write⟩ := by
    intro x
    rw [← RelayRegistry.mem_policy_iff hforget, show s.forgetSecrets.registry.policy "photos" = _ from hpolicy,
      List.mem_singleton]
  refine ⟨s, hrun, ?_⟩
  apply (operationPasses_iff aliceHmac_hexDigests aliceHmac_collisionFree hrun (fun _ => false) aliceStore.toStore
    aliceStore_acyclic "photos" (some ⟨1, "alice"⟩) [] false [] (.upload "")).mpr
  refine ⟨0, (RelayRegistry.attached_iff_serves hforget "photos" 0).mp hattached, rfl, .inl ⟨"alice", .write, ?_, ?_⟩⟩
  · refine ⟨⟨1, "alice"⟩, rfl, rfl, by decide, ⟨⟨.user, 1, .write⟩, (hforce _).mpr rfl, rfl, rfl⟩, ?_⟩
    intro x hx _
    rw [(hforce x).mp hx]
  · decide

end NetworkFileServer.Server
