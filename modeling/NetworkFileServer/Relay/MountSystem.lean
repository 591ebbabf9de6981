import NetworkFileServer.Framework.TransitionSystem
import NetworkFileServer.Relay.Registry

/-!
# Agent sessions and proxied requests on one registry

`agent_websocket`, the part of `proxy_request` and `proxy_websocket` up to the OPEN frame, and the
TTL sweep, interleaved at their awaits. A position of a handler is the operation that it awaits;
completing it executes the operation and runs the handler to its next await.
-/

namespace NetworkFileServer.Relay

/-- What a session says in its query string and in its `agent_auth` frame. -/
structure AgentAuth where
  preferredCode : Option Code
  clientIp : String
  ownerUserId : Option Nat
  policy : MountPolicy

/-- The awaits of `agent_websocket`. -/
inductive SessionPc where
  /-- The checks before the handshake, `accept` and `_read_agent_auth`. -/
  | connecting
  /-- The SELECT of `try_reclaim_as_owner` or `try_reclaim`. -/
  | reclaimSelect (code : Code) (asOwner : Bool)
  | reclaimUpdate (code : Code)
  | reclaimCommit (code : Code)
  | hasMount (code : Code)
  | registerInsert (code : Code)
  | registerCommit (code : Code)
  /-- The statements of `set_owner_policy`; `policyInsert _ _ []` is its commit. -/
  | policyUpdate (code : Code) (reclaimed : Bool)
  | policyDelete (code : Code) (reclaimed : Bool)
  | policyInsert (code : Code) (reclaimed : Bool) (rest : List PolicyEntry)
  /-- `send_control({"type": "mount_registered", ...})`. -/
  | sendRegistered (code : Code) (reclaimed : Bool)
  | getExpired (code : Code)
  | sendExpired (code : Code)
  /-- `run_receive_loop` -/
  | receiving (code : Code)
  /-- `conn.close()` in the `finally`. -/
  | closing (code : Code)
  /-- The statements of `mark_offline`. -/
  | offlineSelect (code : Code)
  | offlineUpdate (code : Code)
  | offlineCommit (code : Code)
  | ended
deriving DecidableEq

/-- What an awaited operation reports that is not in the registry: whether the TTL has passed, the
code that `generate_mount_code` would draw, and whether files of the mount have expired. -/
structure Answer where
  ttlPassed : Bool
  generated : Code
  filesExpired : Bool

/-- The handler's code after the first reclaim attempt. -/
def SessionPc.reclaim (auth : AgentAuth) (code : Code) : SessionPc :=
  .reclaimSelect code auth.ownerUserId.isSome

/-- Complete the awaited operation and run `agent_websocket` to its next await. -/
def sessionStep {ι : Type*} (auth : AgentAuth) (i : ι) (r : Registry ι) (answer : Answer) :
    SessionPc → Option (Registry ι × SessionPc)
  | .connecting =>
      match auth.preferredCode with
      | some code => some (r, .reclaim auth code)
      | none => some (r, .registerInsert answer.generated)
  | .reclaimSelect code asOwner =>
      if Registry.reclaimable (r.mounts code) auth.ownerUserId auth.clientIp asOwner answer.ttlPassed then
        some (r, .reclaimUpdate code)
      else if asOwner then some (r, .reclaimSelect code false)
      else some (r, .hasMount code)
  | .reclaimUpdate code => some (r.setStatus code .online, .reclaimCommit code)
  | .reclaimCommit code => some (r.connect code i, .policyUpdate code true)
  | .hasMount code =>
      some (r, .registerInsert (if (r.mounts code).isSome then answer.generated else code))
  | .registerInsert code =>
      -- `ValueError`: nothing was registered.
      if code = "" then some (r, .ended)
      else some (r.insertMount code auth.clientIp, .registerCommit code)
  | .registerCommit code => some (r.connect code i, .policyUpdate code false)
  | .policyUpdate code reclaimed =>
      -- No row: the `MountNotFoundError` is logged and the handler goes on.
      if (r.mounts code).isSome then
        some (r.setPolicyColumns code auth.ownerUserId auth.policy.accessMode auth.policy.hasPassword,
          .policyDelete code reclaimed)
      else some (r, .sendRegistered code reclaimed)
  | .policyDelete code reclaimed =>
      some (r.deletePolicy code, .policyInsert code reclaimed auth.policy.entries)
  | .policyInsert code reclaimed (e :: rest) =>
      some (r.insertPolicy code e, .policyInsert code reclaimed rest)
  | .policyInsert code reclaimed [] => some (r, .sendRegistered code reclaimed)
  | .sendRegistered code reclaimed => some (r, if reclaimed then .getExpired code else .receiving code)
  | .getExpired code => some (r, if answer.filesExpired then .sendExpired code else .receiving code)
  | .sendExpired code => some (r, .receiving code)
  | .receiving code => some (r, .closing code)
  | .closing code => some (r, .offlineSelect code)
  | .offlineSelect code => some (r, if r.isOnline code then .offlineUpdate code else .ended)
  | .offlineUpdate code => some (r.setStatus code .offline, .offlineCommit code)
  | .offlineCommit code => some (r.disconnect code, .ended)
  | .ended => none

/-- The awaited operation raises. Only the receive loop is inside a `try`. -/
def sessionFail : SessionPc → Option SessionPc
  | .receiving code => some (.closing code)
  | .ended => none
  | _ => some .ended

/-- The code under which the session's connection was stored. -/
def SessionPc.assigned : SessionPc → Option Code
  | .policyUpdate code _ | .policyDelete code _ | .policyInsert code _ _ | .sendRegistered code _
  | .getExpired code | .sendExpired code | .receiving code | .closing code | .offlineSelect code
  | .offlineUpdate code | .offlineCommit code => some code
  | .connecting | .reclaimSelect _ _ | .reclaimUpdate _ | .reclaimCommit _ | .hasMount _
  | .registerInsert _ | .registerCommit _ | .ended => none

/-- The code whose row the awaited statement turns ONLINE. -/
def SessionPc.turnsOnline : SessionPc → Option Code
  | .reclaimUpdate code | .registerInsert code => some code
  | _ => none

structure ProxyRequest where
  code : Code
  identity : Option SessionIdentity

/-- The awaits of a proxied request up to the frame that opens its stream. -/
inductive RequestPc (ι : Type*) where
  /-- The SELECT on `mounts` of `get_policy`. -/
  | arriving
  /-- The SELECT on `mount_policy`. -/
  | policySelect (accessMode : AccessMode) (hasPassword : Bool)
  /-- `resolve_user_group_ids` -/
  | authorizing (policy : Option MountPolicy)
  /-- The SELECT of `get_connection`; `store` is what the accounts said. -/
  | statusSelect (store : Option GroupIds)
  | lookup (store : Option GroupIds)
  /-- The OPEN or WS_OPEN frame goes out on the connection of session `i`. -/
  | sent (i : ι) (store : Option GroupIds)
  | refused

def requestStep {ι : Type*} (req : ProxyRequest) (r : Registry ι) (closed : ι → Bool)
    (store : Option GroupIds) : RequestPc ι → Option (RequestPc ι)
  | .arriving =>
      match r.mounts req.code with
      | some row => some (.policySelect row.accessMode row.hasPassword)
      | none => some (.authorizing none)
  | .policySelect accessMode hasPassword =>
      some (.authorizing (some ⟨accessMode, hasPassword, r.policy req.code⟩))
  | .authorizing policy =>
      match authorize policy store req.identity with
      | .ok _ => some (.statusSelect store)
      | .error _ => some .refused
  | .statusSelect store => some (if r.isOnline req.code then .lookup store else .refused)
  | .lookup store =>
      match r.connections req.code with
      | some i => some (if closed i then .refused else .sent i store)
      | none => some .refused
  | .sent _ _ | .refused => none

section

variable {ι : Type*} (auth : AgentAuth) (i : ι) (r r' : Registry ι) (answer : Answer)
  (pc pc' : SessionPc)

/-- A connection that is in the registry after the step was there before, or the session has just
stored its own. -/
theorem sessionStep_connections (h : sessionStep auth i r answer pc = some (r', pc')) (c : Code) (j : ι)
    (hj : r'.connections c = some j) :
    r.connections c = some j ∨ (j = i ∧ ∃ reclaimed, pc' = .policyUpdate c reclaimed) := by
  have hconnect : ∀ code reclaimed, r' = r.connect code i → pc' = .policyUpdate code reclaimed →
      r.connections c = some j ∨ (j = i ∧ ∃ reclaimed, pc' = .policyUpdate c reclaimed) := by
    rintro code reclaimed rfl rfl
    by_cases hc : c = code
    · subst hc
      have hij : i = j := by simpa [Registry.connect] using hj
      exact .inr ⟨hij.symm, reclaimed, rfl⟩
    · exact .inl (by simpa [Registry.connect, hc] using hj)
  cases pc with
  | connecting =>
      simp only [sessionStep] at h
      split at h <;> cases h <;> exact .inl hj
  | reclaimSelect code asOwner =>
      simp only [sessionStep] at h
      split at h
      · cases h
        exact .inl hj
      · split at h <;> cases h <;> exact .inl hj
  | reclaimCommit code =>
      cases h
      exact hconnect code true rfl rfl
  | registerCommit code =>
      cases h
      exact hconnect code false rfl rfl
  | registerInsert code =>
      simp only [sessionStep] at h
      split at h <;> cases h <;> exact .inl hj
  | policyUpdate code reclaimed =>
      simp only [sessionStep] at h
      split at h <;> cases h <;> exact .inl hj
  | policyInsert code reclaimed rest => cases rest <;> cases h <;> exact .inl hj
  | offlineCommit code =>
      cases h
      exact .inl (Registry.disconnect_connections r code c j hj)
  | ended => cases h
  | _ =>
      cases h
      exact .inl hj

theorem sessionStep_isOnline (h : sessionStep auth i r answer pc = some (r', pc')) (c : Code)
    (hc : r'.isOnline c = true) :
    r.isOnline c = true ∨ (pc.turnsOnline = some c ∧ pc'.assigned = none) := by
  cases pc with
  | connecting =>
      simp only [sessionStep] at h
      split at h <;> cases h <;> exact .inl hc
  | reclaimSelect code asOwner =>
      simp only [sessionStep] at h
      split at h
      · cases h
        exact .inl hc
      · split at h <;> cases h <;> exact .inl hc
  | reclaimUpdate code =>
      cases h
      rw [Registry.isOnline_setStatus] at hc
      split at hc
      · rename_i heq
        subst heq
        exact .inr ⟨rfl, rfl⟩
      · exact .inl hc
  | registerInsert code =>
      simp only [sessionStep] at h
      split at h
      · cases h
        exact .inl hc
      · cases h
        rw [Registry.isOnline_insertMount] at hc
        split at hc
        · rename_i heq
          subst heq
          exact .inr ⟨rfl, rfl⟩
        · exact .inl hc
  | policyUpdate code reclaimed =>
      simp only [sessionStep] at h
      split at h
      · cases h
        rw [Registry.isOnline_setPolicyColumns] at hc
        exact .inl hc
      · cases h
        exact .inl hc
  | policyInsert code reclaimed rest => cases rest <;> cases h <;> exact .inl hc
  | offlineUpdate code =>
      cases h
      rw [Registry.isOnline_setStatus] at hc
      split at hc
      · simp at hc
      · exact .inl hc
  | ended => cases h
  | _ =>
      cases h
      exact .inl hc

theorem sessionStep_assigned (h : sessionStep auth i r answer pc = some (r', pc')) (c : Code)
    (hc : pc.assigned = some c) : pc' = .ended ∨ pc'.assigned = some c := by
  cases pc with
  | connecting | reclaimSelect _ _ | reclaimUpdate _ | reclaimCommit _ | hasMount _
  | registerInsert _ | registerCommit _ | ended => cases hc
  | policyUpdate code reclaimed =>
      simp only [sessionStep] at h
      split at h <;> cases h <;> exact .inr hc
  | policyInsert code reclaimed rest => cases rest <;> cases h <;> exact .inr hc
  | sendRegistered code reclaimed => cases reclaimed <;> cases h <;> exact .inr hc
  | getExpired code =>
      cases h
      split <;> exact .inr hc
  | offlineSelect code =>
      cases h
      split
      · exact .inr hc
      · exact .inl rfl
  | offlineCommit code =>
      cases h
      exact .inl rfl
  | policyDelete _ _ | sendExpired _ | receiving _ | closing _ | offlineUpdate _ =>
      cases h
      exact .inr hc

end

structure MountSystem (ι ρ : Type*) where
  registry : Registry ι
  session : ι → SessionPc
  request : ρ → RequestPc ι
  /-- `is_closed` of the session's connection. -/
  closed : ι → Bool
  /-- The mount that the TTL sweep has marked expired and not yet popped. -/
  sweeping : Option Code

inductive MountAction (ι ρ : Type*) where
  | session (i : ι) (answer : Answer)
  | sessionFail (i : ι)
  /-- The connection is torn down by its heartbeat or by the sweep. -/
  | connClosed (i : ι)
  | request (k : ρ) (store : Option GroupIds)
  | requestFail (k : ρ)
  /-- The UPDATE of `expire`. -/
  | sweepExpire (code : Code)
  | sweepPop
  | sweepDelete (code : Code)

namespace MountSystem

variable {ι ρ : Type*} [DecidableEq ι] [DecidableEq ρ]

/-- The relay after `_startup_cleanup`, with whatever the database holds. -/
def start (mounts : Code → Option MountRow) (policy : Code → List PolicyEntry) : MountSystem ι ρ :=
  ⟨⟨mounts, policy, fun _ => none⟩, fun _ => .connecting, fun _ => .arriving, fun _ => false, none⟩

def setSession (s : MountSystem ι ρ) (i : ι) (pc : SessionPc) : MountSystem ι ρ :=
  { s with session := Function.update s.session i pc }

def setRequest (s : MountSystem ι ρ) (k : ρ) (pc : RequestPc ι) : MountSystem ι ρ :=
  { s with request := Function.update s.request k pc }

/-- `conn.close()` sets the flag before its first await. -/
def markClosed (s : MountSystem ι ρ) (i : ι) : MountSystem ι ρ :=
  { s with closed := Function.update s.closed i true }

def step (auth : ι → AgentAuth) (req : ρ → ProxyRequest) (s : MountSystem ι ρ) :
    MountAction ι ρ → Option (MountSystem ι ρ)
  | .session i answer =>
      (sessionStep (auth i) i s.registry answer (s.session i)).map fun (r, pc) =>
        let s := { s.setSession i pc with registry := r }
        match pc with
        | .closing _ => s.markClosed i
        | _ => s
  | .sessionFail i =>
      (sessionFail (s.session i)).map fun pc =>
        match pc with
        | .closing _ => (s.setSession i pc).markClosed i
        | _ => s.setSession i pc
  | .connClosed i => some (s.markClosed i)
  | .request k store =>
      (requestStep (req k) s.registry s.closed store (s.request k)).map (s.setRequest k)
  | .requestFail k =>
      match s.request k with
      | .sent _ _ | .refused => none
      | _ => some (s.setRequest k .refused)
  | .sweepExpire code =>
      if s.sweeping = none && (s.registry.mounts code).isSome then
        some { s with registry := s.registry.setStatus code .expired, sweeping := some code }
      else none
  | .sweepPop =>
      s.sweeping.map fun code => { s with registry := s.registry.disconnect code, sweeping := none }
  | .sweepDelete code =>
      if s.sweeping = none then some { s with registry := s.registry.deleteExpired code } else none

end MountSystem

end NetworkFileServer.Relay
