import NetworkFileServer.Relay.MountDatabase
import NetworkFileServer.Relay.Ownership

/-!
# An agent connects

`agent_websocket` up to `mount_registered`, for one agent that nobody interrupts: the checks before the
handshake, the handshake, and the assignment of a code. The cap is checked before the handler looks at the
code that the agent asks for, and the row of that code counts.
-/

namespace NetworkFileServer.Relay

/-- The configuration that the checks read. -/
structure ConnectLimits where
  dropboxCode : Code
  maxMountsPerIp : Nat

/-- What `_read_agent_auth` returns; an empty secret is none. -/
structure Handshake where
  ownerUserId : Option Nat
  policy : MountPolicy
  identitySecret : Option String
  secret_ne : ∀ secret ∈ identitySecret, secret ≠ ""

/-- The last message of the handler before it returns or receives. The texts are those of the source. -/
inductive ConnectReply where
  /-- `"Reserved mount code"` -/
  | reservedCode
  /-- `"Rate limit exceeded"` -/
  | rateLimited (retryAfter : Nat)
  /-- `"Too many active mounts"` -/
  | tooManyMounts (max : Nat)
  /-- `_read_agent_auth` has sent its own error. -/
  | handshakeRefused
  | failed (err : RegistryError)
  | registered (code : Code) (reclaimed : Bool)
deriving DecidableEq

variable {κ : Type*}

def SqliteRegistry.setIdentitySecret (r : SqliteRegistry κ) (code : Code) (secret : String) :
    Except RegistryError (SqliteRegistry κ) :=
  if code = "" then .error (.valueError "code must be a non-empty string")
  else if secret = "" then .error (.valueError "secret must be a non-empty string")
  else .ok { r with identitySecrets := Function.update r.identitySecrets code (some secret) }

open SqliteRegistry

/-- The part of the handler after the handshake. -/
def registerAgent (r : SqliteRegistry κ) (now : ℚ) (clientIp : String) (code : Option Code)
    (handshake : Handshake) (connection : κ) (generated : Code) (effectiveTtl : ℚ) :
    SqliteRegistry κ × ConnectReply :=
  let auth : AgentAuth := ⟨code, clientIp, handshake.ownerUserId, handshake.policy⟩
  match r.assignCode now auth connection generated effectiveTtl with
  | .error err => (r, .failed err)
  | .ok a =>
      let stored := storePolicy auth a
      match handshake.identitySecret with
      | none => (stored, .registered a.code a.reclaimed)
      | some secret =>
          match stored.setIdentitySecret a.code secret with
          | .error err => (stored, .failed err)
          | .ok r' => (r', .registered a.code a.reclaimed)

/-- `agent_websocket`. `withinRate` is what the rate limiter says; `handshake` is `none` when
`_read_agent_auth` refuses. -/
def agentWebsocket (limits : ConnectLimits) (d : MountDatabase κ) (withinRate : Bool) (now : ℚ)
    (clientIp : String) (code : Option Code) (handshake : Option Handshake) (connection : κ)
    (generated : Code) (effectiveTtl : ℚ) : SqliteRegistry κ × ConnectReply :=
  if code = some limits.dropboxCode then (d.toSqliteRegistry, .reservedCode)
  else if withinRate = false then (d.toSqliteRegistry, .rateLimited 3600)
  else if d.countMountsByIp clientIp ≥ limits.maxMountsPerIp then
    (d.toSqliteRegistry, .tooManyMounts limits.maxMountsPerIp)
  else
    match handshake with
    | none => (d.toSqliteRegistry, .handshakeRefused)
    | some handshake =>
        registerAgent d.toSqliteRegistry now clientIp code handshake connection generated effectiveTtl

/-- The agent has got the code, the row is ONLINE, and the connection is the agent's. -/
def Reclaims (result : SqliteRegistry κ × ConnectReply) (code : Code) (connection : κ) : Prop :=
  result.2 = .registered code true ∧
    (∃ row, result.1.mounts code = some row ∧ row.status = .online) ∧
    result.1.connections code = some connection

/-- The mount is the agent's own: it is OFFLINE and within its TTL, and the agent comes from the stored
address or is the stored owner. `register` refuses an empty code. -/
structure OwnMount (r : SqliteRegistry κ) (now : ℚ) (clientIp : String) (ownerUserId : Option Nat)
    (code : Code) (row : StoredRow) : Prop where
  named : code ≠ ""
  stored : r.mounts code = some row
  offline : row.status = .offline
  live : row.pastTtl now = false
  agent : row.agentIp = clientIp ∨ ∃ owner, row.ownerUserId = some owner ∧ ownerUserId = some owner

theorem OwnMount.reclaimResult {r : SqliteRegistry κ} {now : ℚ} {code : Code} {row : StoredRow}
    (auth : AgentAuth) (h : OwnMount r now auth.clientIp auth.ownerUserId code row) (connection : κ) :
    r.reclaimResult now auth connection code = some (r.reclaim code connection, row.remainingTtl now) := by
  have hbyIp : row.agentIp = auth.clientIp → r.tryReclaim now code connection auth.clientIp =
      some (r.reclaim code connection, row.remainingTtl now) := by
    intro hip
    exact (tryReclaim_eq_some_iff _ _ _ _ _ _ _).mpr ⟨row, h.stored, h.offline, hip, h.live, rfl, rfl⟩
  have howner : ∀ owner, row.ownerUserId = some owner →
      r.tryReclaimAsOwner now code connection owner =
        some (r.reclaim code connection, row.remainingTtl now) := by
    intro owner hrow
    exact (tryReclaimAsOwner_eq_some_iff _ _ _ _ _ _ _).mpr ⟨row, h.stored, h.offline, hrow, h.live, rfl, rfl⟩
  unfold SqliteRegistry.reclaimResult
  rcases h.agent with hip | ⟨owner, hrow, hauth⟩
  · rw [hbyIp hip]
    -- the owner's attempt comes first, and gives the same when it succeeds
    cases hauth : auth.ownerUserId with
    | none => rfl
    | some owner =>
        by_cases hrow : row.ownerUserId = some owner
        · rw [Option.bind_some, howner owner hrow]
          rfl
        · have hnone : r.tryReclaimAsOwner now code connection owner = none := by
            simp [tryReclaimAsOwner, h.stored, h.offline, hrow]
          rw [Option.bind_some, hnone]
          rfl
  · rw [hauth, Option.bind_some, howner owner hrow]
    rfl

theorem registerAgent_reclaims (r : SqliteRegistry κ) (now : ℚ) (clientIp : String) (code : Code)
    (handshake : Handshake) (connection : κ) (generated : Code) (effectiveTtl : ℚ) (row : StoredRow)
    (h : OwnMount r now clientIp handshake.ownerUserId code row) :
    Reclaims (registerAgent r now clientIp (some code) handshake connection generated effectiveTtl) code
      connection := by
  let auth : AgentAuth := ⟨some code, clientIp, handshake.ownerUserId, handshake.policy⟩
  have hassign : r.assignCode now auth connection generated effectiveTtl =
      .ok ⟨r.reclaim code connection, code, true⟩ := by
    have hresult := h.reclaimResult auth connection
    simp only [assignCode, auth, hresult]
  have hstored : ∃ row', (storePolicy auth ⟨r.reclaim code connection, code, true⟩).mounts code = some row' ∧
      row'.status = .online := by
    simp [storePolicy, setOwnerPolicy, withRow, reclaim, setStatus, SqliteRegistry.connect, h.stored,
      insertMount]
  have hconnection : (storePolicy auth ⟨r.reclaim code connection, code, true⟩).connections code =
      some connection := by
    simp [storePolicy, setOwnerPolicy, withRow, reclaim, setStatus, SqliteRegistry.connect, h.stored,
      insertMount]
  simp only [auth] at hassign
  simp only [registerAgent, hassign]
  cases hsecret : handshake.identitySecret with
  | none => exact ⟨rfl, hstored, hconnection⟩
  | some secret =>
      have hne : secret ≠ "" := handshake.secret_ne secret hsecret
      simp only [setIdentitySecret, h.named, hne, if_false]
      exact ⟨rfl, hstored, hconnection⟩

/-- An agent within the rate limit and with a valid handshake gets its own mount back exactly when the code
is not the reserved one and the count of its address, with the OFFLINE rows, is below the cap. -/
theorem agentWebsocket_reclaims_iff (limits : ConnectLimits) (d : MountDatabase κ) (now : ℚ)
    (clientIp : String) (code : Code) (handshake : Handshake) (connection : κ) (generated : Code)
    (effectiveTtl : ℚ) (row : StoredRow)
    (h : OwnMount d.toSqliteRegistry now clientIp handshake.ownerUserId code row) :
    Reclaims (agentWebsocket limits d true now clientIp (some code) (some handshake) connection generated
        effectiveTtl) code connection ↔
      code ≠ limits.dropboxCode ∧ d.countMountsByIp clientIp < limits.maxMountsPerIp := by
  unfold agentWebsocket
  by_cases hreserved : code = limits.dropboxCode
  · simp [hreserved, Reclaims]
  · by_cases hfull : d.countMountsByIp clientIp ≥ limits.maxMountsPerIp
    · simp [hreserved, hfull, Reclaims]
    · have hreclaims := registerAgent_reclaims d.toSqliteRegistry now clientIp code handshake connection
        generated effectiveTtl row h
      have hroom : d.countMountsByIp clientIp < limits.maxMountsPerIp := by omega
      simp only [Option.some.injEq, hreserved, if_false, Bool.true_eq_false, hfull]
      exact ⟨fun _ => ⟨hreserved, hroom⟩, fun _ => hreclaims⟩

/-- An agent that has lost its connection. -/
def lostMount : StoredRow where
  status := .offline
  agentIp := "192.0.2.1"
  ownerUserId := none
  accessMode := .open
  hasPassword := false
  createdAt := 0
  expiresAt := some 3600
  ttlWarned := false

def lostDatabase : MountDatabase Unit where
  mounts := fun code => if code = "photos" then some lostMount else none
  policy := fun _ => []
  connections := fun _ => none
  identitySecrets := fun _ => none
  codes := ["photos"]
  nodup := by decide
  listed := by
    intro code
    by_cases hcode : code = "photos" <;> simp [hcode]

def openHandshake : Handshake := ⟨none, ⟨.open, false, []⟩, none, by simp⟩

theorem lostMount_own : OwnMount lostDatabase.toSqliteRegistry 60 "192.0.2.1" openHandshake.ownerUserId
    "photos" lostMount :=
  ⟨by decide, rfl, rfl, by decide +kernel, .inl rfl⟩

theorem agentWebsocket_reclaims_below_cap :
    Reclaims (agentWebsocket ⟨"dropbox", 5⟩ lostDatabase true 60 "192.0.2.1" (some "photos")
      (some openHandshake) () "k3x9" 3600) "photos" () :=
  (agentWebsocket_reclaims_iff ⟨"dropbox", 5⟩ lostDatabase 60 "192.0.2.1" "photos" openHandshake () "k3x9" 3600
    lostMount lostMount_own).mpr ⟨by decide, by decide⟩

/-- The only mount of the address is the one that is asked for, and it fills the cap. -/
theorem agentWebsocket_refuses_own_mount :
    OwnMount lostDatabase.toSqliteRegistry 60 "192.0.2.1" openHandshake.ownerUserId "photos" lostMount ∧
      lostDatabase.countMountsByIp "192.0.2.1" ≤ 1 ∧
      (agentWebsocket ⟨"dropbox", 1⟩ lostDatabase true 60 "192.0.2.1" (some "photos") (some openHandshake) ()
        "k3x9" 3600).2 = .tooManyMounts 1 ∧
      ¬Reclaims (agentWebsocket ⟨"dropbox", 1⟩ lostDatabase true 60 "192.0.2.1" (some "photos")
        (some openHandshake) () "k3x9" 3600) "photos" () := by
  have hreply : (agentWebsocket ⟨"dropbox", 1⟩ lostDatabase true 60 "192.0.2.1" (some "photos")
      (some openHandshake) () "k3x9" 3600).2 = .tooManyMounts 1 := by
    decide +kernel
  refine ⟨lostMount_own, by decide, hreply, ?_⟩
  intro h
  have hregistered := h.1
  rw [hreply] at hregistered
  cases hregistered

end NetworkFileServer.Relay
