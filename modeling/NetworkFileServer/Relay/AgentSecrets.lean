import NetworkFileServer.Relay.AgentConnect
import NetworkFileServer.Relay.MountHistory
import NetworkFileServer.Shared.IdentitySig

/-!
# The agent behind a connection

An agent mints an identity secret for each connection. It sends the secret to the relay in `agent_auth`, and builds
the server behind the connection with it. After any events the relay signs the requests for a mount with the secret
of the agent that is connected to it then.
-/

namespace NetworkFileServer.Relay

open Shared SqliteRegistry TransitionSystem

variable {κ : Type*}

/-- What `_read_agent_auth` returns for an agent with this secret. An agent from before the secrets has none. -/
def AgentAuth.handshake (auth : AgentAuth) (secret : Option Secret) : Handshake where
  ownerUserId := auth.ownerUserId
  policy := auth.policy
  identitySecret := secret.map Subtype.val
  secret_ne := by
    intro value hvalue
    obtain ⟨secret, -, rfl⟩ := Option.map_eq_some_iff.mp hvalue
    exact secret.2

namespace SqliteRegistry

/-- `get_identity_secret`; only strings that are not empty are ever stored. -/
def getIdentitySecret (r : SqliteRegistry κ) (code : Code) : Option Secret :=
  (r.identitySecrets code).bind fun value => if h : value ≠ "" then some ⟨value, h⟩ else none

/-- The registry of a relay that has no secrets. -/
def forgetSecrets (r : SqliteRegistry κ) : SqliteRegistry κ := { r with identitySecrets := fun _ => none }

theorem forgetSecrets_outcome_withRow (r : SqliteRegistry κ) (code : Code)
    (update update' : StoredRow → SqliteRegistry κ) (hupdate : ∀ row, (update row).forgetSecrets = update' row) :
    (r.outcome (r.withRow code update)).1.forgetSecrets =
      (r.forgetSecrets.outcome (r.forgetSecrets.withRow code update')).1 := by
  have hmounts : r.forgetSecrets.mounts = r.mounts := rfl
  unfold withRow
  rw [hmounts]
  cases r.mounts code with
  | none => rfl
  | some row => exact hupdate row

@[simp] theorem popSecret_forgetSecrets (r : SqliteRegistry κ) (code : Code) :
    r.forgetSecrets.popSecret code = r.forgetSecrets := by
  unfold popSecret forgetSecrets
  simp

theorem assignCode_forgetSecrets (r : SqliteRegistry κ) (now : ℚ) (auth : AgentAuth) (connection : κ)
    (generated : Code) (effectiveTtl : ℚ) :
    r.forgetSecrets.assignCode now auth connection generated effectiveTtl =
      (r.assignCode now auth connection generated effectiveTtl).map fun a =>
        { a with registry := a.registry.forgetSecrets } := by
  have hwith := assignCode_with r r.policy r.connections (fun _ => none) now auth connection generated effectiveTtl
  unfold forgetSecrets
  rw [hwith]
  cases hassign : r.assignCode now auth connection generated effectiveTtl with
  | error err => rfl
  | ok a =>
      rcases assignCode_cases r now auth connection generated effectiveTtl a hassign with
        ⟨-, -, hregistry, -⟩ | ⟨-, -, hregistry⟩
      · simp [Except.map, hregistry, reclaim, setStatus, SqliteRegistry.connect]
      · simp [Except.map, hregistry, insertMount, SqliteRegistry.connect]

theorem storePolicy_forgetSecrets (auth : AgentAuth) (a : Assignment κ) :
    storePolicy auth { a with registry := a.registry.forgetSecrets } = (storePolicy auth a).forgetSecrets := by
  have hmounts : a.registry.forgetSecrets.mounts = a.registry.mounts := rfl
  unfold storePolicy setOwnerPolicy withRow
  simp only [hmounts]
  cases a.registry.mounts a.code with
  | none => rfl
  | some row => rfl

end SqliteRegistry

theorem registerAgent_forgetSecrets (r : SqliteRegistry κ) (now : ℚ) (auth : AgentAuth) (secret : Option Secret)
    (connection : κ) (generated : Code) (effectiveTtl : ℚ) :
    some (registerAgent r now auth.clientIp auth.preferredCode (auth.handshake secret) connection generated
        effectiveTtl).1.forgetSecrets =
      MountEvent.step r.forgetSecrets (now, .connect auth connection generated effectiveTtl) := by
  simp only [registerAgent, MountEvent.step, assignCode_forgetSecrets, AgentAuth.handshake]
  cases r.assignCode now auth connection generated effectiveTtl with
  | error err => rfl
  | ok a =>
      simp only [Except.map, storePolicy_forgetSecrets]
      cases secret with
      | none => rfl
      | some secret =>
          simp only [Option.map_some, setIdentitySecret, secret.2, if_false]
          by_cases hcode : a.code = ""
          · simp only [hcode, if_true]
          · simp only [hcode, if_false]
            rfl

namespace RelayRegistry

section Secrets

variable (secret : κ → Option Secret)

/-- An event, with the identity secret that a connecting agent sends. -/
def agentStep (s : RelayRegistry κ) : ℚ × RelayEvent κ → Option (RelayRegistry κ)
  | (now, .mount (.connect auth connection generated effectiveTtl)) =>
      some { s with registry := (registerAgent s.registry now auth.clientIp auth.preferredCode
        (auth.handshake (secret connection)) connection generated effectiveTtl).1 }
  | e => s.step e

def forgetSecrets (s : RelayRegistry κ) : RelayRegistry κ := { s with registry := s.registry.forgetSecrets }

theorem registry_forgetSecrets (s : RelayRegistry κ) : s.forgetSecrets.registry = s.registry.forgetSecrets := rfl

theorem policy_forgetSecrets (s : RelayRegistry κ) (code : Code) :
    s.forgetSecrets.registry.policy code = s.registry.policy code := rfl

theorem getPolicy_forgetSecrets (s : RelayRegistry κ) (code : Code) :
    s.forgetSecrets.registry.getPolicy code = s.registry.getPolicy code := rfl

theorem forgetSecrets_resolveRequest (s : RelayRegistry κ) (requestId userId : Nat) (isAdmin : Bool)
    (action : ResolveAction) : (s.resolveRequest requestId userId isAdmin action).forgetSecrets =
      s.forgetSecrets.resolveRequest requestId userId isAdmin action := by
  have hresolvable : s.forgetSecrets.resolvable requestId userId isAdmin =
      s.resolvable requestId userId isAdmin := rfl
  unfold resolveRequest
  rw [hresolvable]
  cases s.resolvable requestId userId isAdmin with
  | none => rfl
  | some q => cases action <;> rfl

theorem agentStep_forgetSecrets (s : RelayRegistry κ) (e : ℚ × RelayEvent κ) :
    (s.agentStep secret e).map forgetSecrets = s.forgetSecrets.step e := by
  obtain ⟨now, e⟩ := e
  cases e with
  | mount e =>
      cases e with
      | connect auth connection generated effectiveTtl =>
          have hregister := registerAgent_forgetSecrets s.registry now auth (secret connection) connection generated
            effectiveTtl
          simp only [agentStep, step, Option.map_some]
          rw [registry_forgetSecrets, ← hregister]
          rfl
      | disconnect code =>
          have hpop := forgetSecrets_outcome_withRow s.registry code
            (fun row => if row.status = .online then
              ((s.registry.setStatus code .offline).disconnect code).popSecret code else s.registry.popSecret code)
            (fun row => if row.status = .online then
              ((s.registry.forgetSecrets.setStatus code .offline).disconnect code).popSecret code
              else s.registry.forgetSecrets.popSecret code) (by
              intro row
              split
              · exact (popSecret_forgetSecrets _ _).symm
              · exact (popSecret_forgetSecrets _ _).symm)
          exact congrArg (fun r => some { s with registry := r }) hpop
      | expire code =>
          have hpop := forgetSecrets_outcome_withRow s.registry code
            (fun _ => ((s.registry.setStatus code .expired).disconnect code).popSecret code)
            (fun _ => ((s.registry.forgetSecrets.setStatus code .expired).disconnect code).popSecret code)
            fun _ => (popSecret_forgetSecrets _ _).symm
          exact congrArg (fun r => some { s with registry := r }) hpop
      | markTtlWarned code =>
          have hwarned := forgetSecrets_outcome_withRow s.registry code
            (fun row => s.registry.insertMount code { row with ttlWarned := true })
            (fun row => s.registry.forgetSecrets.insertMount code { row with ttlWarned := true }) fun _ => rfl
          exact congrArg (fun r => some { s with registry := r }) hwarned
      | deleteExpiredBefore cutoff => rfl
      | restart => rfl
  | deregister code =>
      have hpop := forgetSecrets_outcome_withRow s.registry code
        (fun _ => ({ s.registry with mounts := Function.update s.registry.mounts code none }.disconnect code).popSecret
          code)
        (fun _ => ({ s.registry.forgetSecrets with
          mounts := Function.update s.registry.mounts code none }.disconnect code).popSecret code)
        fun _ => (popSecret_forgetSecrets _ _).symm
      exact congrArg (fun r => some { s with registry := r }) hpop
  | setOwnerPolicy code ownerUserId policy =>
      have hset := forgetSecrets_outcome_withRow s.registry code
        (fun row => { s.registry.insertMount code { row with
          ownerUserId := ownerUserId, accessMode := policy.accessMode, hasPassword := policy.hasPassword } with
          policy := Function.update s.registry.policy code (policy.entries.foldl Registry.replaceEntry []) })
        (fun row => { s.registry.forgetSecrets.insertMount code { row with
          ownerUserId := ownerUserId, accessMode := policy.accessMode, hasPassword := policy.hasPassword } with
          policy := Function.update s.registry.policy code (policy.entries.foldl Registry.replaceEntry []) })
        fun _ => rfl
      exact congrArg (fun r => some { s with registry := r }) hset
  | createRequest code userId => rfl
  | resolveRequest requestId userId isAdmin action =>
      exact congrArg some (forgetSecrets_resolveRequest s requestId userId isAdmin action)

/-- The rows, the allowlists, the connections and the requests are those that the events give without secrets. -/
theorem run_forgetSecrets {events : List (ℚ × RelayEvent κ)} {s : RelayRegistry κ}
    (hrun : run (agentStep secret) empty events = some s) : run step empty events = some s.forgetSecrets := by
  have hmap := run_map (agentStep secret) step forgetSecrets (agentStep_forgetSecrets secret) empty events
  rw [hrun] at hmap
  exact hmap.symm

end Secrets

section Secrets

variable {secret : κ → Option Secret} {s t : RelayRegistry κ} {e : ℚ × RelayEvent κ} {code : Code}

theorem identitySecrets_storePolicy (auth : AgentAuth) (r : SqliteRegistry κ) (now : ℚ) (new : κ) (generated : Code)
    (effectiveTtl : ℚ) (a : Assignment κ) (hassign : r.assignCode now auth new generated effectiveTtl = .ok a) :
    (storePolicy auth a).identitySecrets = r.identitySecrets := by
  obtain ⟨⟨row, hrow⟩, -, -⟩ := assignCode_frame r now auth new generated effectiveTtl a hassign
  have hstored : (storePolicy auth a).identitySecrets = a.registry.identitySecrets := by
    simp only [storePolicy, setOwnerPolicy, withRow, hrow]
    rfl
  rw [hstored]
  rcases assignCode_cases r now auth new generated effectiveTtl a hassign with
    ⟨-, -, hregistry, -⟩ | ⟨-, -, hregistry⟩
  · rw [hregistry]
    rfl
  · rw [hregistry]
    rfl

theorem assignCode_named (hnamed : Occupied s) (now : ℚ) (auth : AgentAuth) (new : κ) (generated : Code)
    (effectiveTtl : ℚ) (a : Assignment κ)
    (hassign : s.registry.assignCode now auth new generated effectiveTtl = .ok a) : a.code ≠ "" := by
  rcases assignCode_cases s.registry now auth new generated effectiveTtl a hassign with
    ⟨-, -, -, row, hrow, -⟩ | ⟨-, hcode, -⟩
  · exact (hnamed a.code row hrow).1
  · exact hcode

theorem identitySecrets_registerAgent (r : SqliteRegistry κ) (now : ℚ) (auth : AgentAuth) (sent : Option Secret)
    (new : κ) (generated : Code) (effectiveTtl : ℚ) (a : Assignment κ)
    (hassign : r.assignCode now auth new generated effectiveTtl = .ok a) (hcode : a.code ≠ "") :
    (registerAgent r now auth.clientIp auth.preferredCode (auth.handshake sent) new generated
        effectiveTtl).1.identitySecrets =
      match sent with
      | none => r.identitySecrets
      | some k => Function.update r.identitySecrets a.code (some k.1) := by
  have hkept := identitySecrets_storePolicy auth r now new generated effectiveTtl a hassign
  simp only [registerAgent, AgentAuth.handshake, hassign]
  cases sent with
  | none => exact hkept
  | some k =>
      simp only [Option.map_some, setIdentitySecret, hcode, k.2, if_false]
      rw [hkept]

theorem identitySecrets_outcome_withRow (r : SqliteRegistry κ) (code' : Code) (update : StoredRow → SqliteRegistry κ)
    (hupdate : ∀ row, (update row).identitySecrets code = r.identitySecrets code) :
    (r.outcome (r.withRow code' update)).1.identitySecrets code = r.identitySecrets code := by
  unfold withRow
  cases r.mounts code' with
  | none => rfl
  | some row => exact hupdate row

theorem identitySecrets_step (hnamed : Occupied s) (hstep : s.agentStep secret e = some t)
    (hnot : ¬Detaches code s.forgetSecrets e) :
    t.registry.identitySecrets code = s.registry.identitySecrets code := by
  obtain ⟨now, e⟩ := e
  cases e with
  | mount e =>
      cases e with
      | connect auth new generated effectiveTtl =>
          simp only [agentStep, Option.some.injEq] at hstep
          subst hstep
          cases hassign : s.registry.assignCode now auth new generated effectiveTtl with
          | error err => simp only [registerAgent, AgentAuth.handshake, hassign]
          | ok a =>
              have hforget : s.forgetSecrets.registry.assignCode now auth new generated effectiveTtl =
                  .ok { a with registry := a.registry.forgetSecrets } := by
                have hassign' := assignCode_forgetSecrets s.registry now auth new generated effectiveTtl
                rw [hassign] at hassign'
                exact hassign'
              have hne : code ≠ a.code := by
                rintro rfl
                exact hnot (.replaced now auth new generated effectiveTtl _ hforget rfl)
              have hcode := assignCode_named hnamed now auth new generated effectiveTtl a hassign
              simp only
              rw [identitySecrets_registerAgent s.registry now auth (secret new) new generated effectiveTtl a hassign
                hcode]
              cases secret new with
              | none => rfl
              | some k => exact Function.update_of_ne hne _ _
      | disconnect code' =>
          cases hstep
          have hne : code ≠ code' := by
            rintro rfl
            exact hnot (.disconnected now)
          apply identitySecrets_outcome_withRow
          intro row
          split <;> simp [popSecret, SqliteRegistry.disconnect, setStatus, hne]
      | expire code' =>
          cases hstep
          have hne : code ≠ code' := by
            rintro rfl
            exact hnot (.expired now)
          apply identitySecrets_outcome_withRow
          intro row
          simp [popSecret, SqliteRegistry.disconnect, setStatus, hne]
      | markTtlWarned code' =>
          cases hstep
          exact identitySecrets_outcome_withRow s.registry code' _ fun _ => rfl
      | deleteExpiredBefore cutoff =>
          cases hstep
          rfl
      | restart => exact absurd (.restarted now) hnot
  | deregister code' =>
      cases hstep
      have hne : code ≠ code' := by
        rintro rfl
        exact hnot (.deregistered now)
      apply identitySecrets_outcome_withRow
      intro row
      simp [popSecret, SqliteRegistry.disconnect, hne]
  | setOwnerPolicy code' ownerUserId policy =>
      cases hstep
      exact identitySecrets_outcome_withRow s.registry code' _ fun _ => rfl
  | createRequest code' userId =>
      cases hstep
      rfl
  | resolveRequest requestId userId isAdmin action =>
      cases hstep
      unfold resolveRequest
      cases s.resolvable requestId userId isAdmin with
      | none => rfl
      | some q => cases action <;> rfl

/-- The relay has the secret of every agent that is connected. -/
structure Signed (secret : κ → Option Secret) (s : RelayRegistry κ) : Prop where
  named : Occupied s
  keeps : ∀ code connection k, s.registry.Attached code connection → secret connection = some k →
    s.registry.getIdentitySecret code = some k

theorem empty_signed : Signed secret empty := by
  refine ⟨?_, ?_⟩
  · intro code row hrow
    cases hrow
  · intro code connection k hattached _
    exact absurd hattached (not_attached_of_connections rfl)

theorem getIdentitySecret_of_eq {r : SqliteRegistry κ} {k : Secret} (hstored : r.identitySecrets code = some k.1) :
    r.getIdentitySecret code = some k := by
  unfold getIdentitySecret
  rw [hstored, Option.bind_some, dif_pos k.2]

theorem signed_step (hs : Signed secret s) (hstep : s.agentStep secret e = some t) : Signed secret t := by
  have hforget : s.forgetSecrets.step e = some t.forgetSecrets := by
    rw [← agentStep_forgetSecrets secret, hstep]
    rfl
  refine ⟨occupied_step s.forgetSecrets e t.forgetSecrets hs.named hforget, ?_⟩
  intro code connection k hattached hk
  have hbefore := (attached_step hforget code connection).mp hattached
  rcases hbefore with ⟨now, auth, generated, effectiveTtl, a, rfl, hassign, rfl⟩ | ⟨hattached', hnot⟩
  · -- the agent is connected now
    have hassign' := assignCode_forgetSecrets s.registry now auth connection generated effectiveTtl
    rw [← registry_forgetSecrets, hassign] at hassign'
    cases hgiven : s.registry.assignCode now auth connection generated effectiveTtl with
    | error err =>
        rw [hgiven] at hassign'
        cases hassign'
    | ok a' =>
        rw [hgiven] at hassign'
        cases hassign'
        simp only [agentStep, Option.some.injEq] at hstep
        subst hstep
        have hcode := assignCode_named hs.named now auth connection generated effectiveTtl a' hgiven
        apply getIdentitySecret_of_eq
        simp only
        rw [identitySecrets_registerAgent s.registry now auth (secret connection) connection generated effectiveTtl a'
          hgiven hcode, hk]
        exact Function.update_self _ _ _
  · -- it was connected before, and has stayed
    have hstored := hs.keeps code connection k hattached' hk
    unfold getIdentitySecret at hstored ⊢
    rw [identitySecrets_step hs.named hstep hnot]
    exact hstored

/-- After any events the relay signs with the secret that the server behind the connection verifies with. -/
theorem signed_of_run {events : List (ℚ × RelayEvent κ)} (hrun : run (agentStep secret) empty events = some s) :
    Signed secret s :=
  run_invariant (agentStep secret) (Signed secret) (fun _ _ _ => signed_step) empty_signed hrun

end Secrets

end RelayRegistry

end NetworkFileServer.Relay
