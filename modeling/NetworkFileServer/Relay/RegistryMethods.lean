import Mathlib.Data.Rat.Defs
import NetworkFileServer.Relay.Registry

/-!
# The methods of the mount registry

`SqliteMountRegistry` with whole rows, times included, and with each method executed without
interruption. A method that raises changes nothing, so an error carries no registry. Times are exact
here where the source has floats.

`toRegistry` forgets the times: what is left of a method are the statements of `Registry`.
-/

namespace NetworkFileServer.Relay

/-- All columns of a row of the table `mounts`. -/
structure StoredRow extends MountRow where
  createdAt : ℚ
  expiresAt : Option ℚ
  ttlWarned : Bool
deriving DecidableEq

namespace StoredRow

/-- `expires_at is not None and expires_at <= now` -/
def pastTtl (row : StoredRow) (now : ℚ) : Bool := row.expiresAt.any fun e => e ≤ now

/-- `int(expires_at - now)`, which is only asked for before the expiry. -/
def remainingTtl (row : StoredRow) (now : ℚ) : ℤ :=
  match row.expiresAt with
  | some e => (e - now).floor
  | none => 0

end StoredRow

inductive RegistryError where
  | valueError (message : String)
  | mountNotFound (code : Code)
  | mountOffline (code : Code)
  | mountExpired (code : Code)
  | runtimeError (message : String)
deriving DecidableEq

/-- The database and the two dictionaries. -/
structure SqliteRegistry (κ : Type*) where
  mounts : Code → Option StoredRow
  policy : Code → List PolicyEntry
  connections : Code → Option κ
  identitySecrets : Code → Option String

namespace SqliteRegistry

variable {κ : Type*}

def setStatus (r : SqliteRegistry κ) (code : Code) (status : MountStatus) : SqliteRegistry κ :=
  { r with
    mounts := Function.update r.mounts code
      ((r.mounts code).map fun row => { row with status := status }) }

def connect (r : SqliteRegistry κ) (code : Code) (connection : κ) : SqliteRegistry κ :=
  { r with connections := Function.update r.connections code (some connection) }

def disconnect (r : SqliteRegistry κ) (code : Code) : SqliteRegistry κ :=
  { r with connections := Function.update r.connections code none }

/-- `self._identity_secrets.pop(code, None)` -/
def popSecret (r : SqliteRegistry κ) (code : Code) : SqliteRegistry κ :=
  { r with identitySecrets := Function.update r.identitySecrets code none }

/-- The row of the `INSERT OR REPLACE`: the policy columns get their defaults. -/
def freshRow (agentIp : String) (createdAt : ℚ) (expiresAt : Option ℚ) : StoredRow :=
  ⟨⟨.online, agentIp, none, .open, false⟩, createdAt, expiresAt, false⟩

/-- The row of the code is replaced as a whole. -/
def insertMount (r : SqliteRegistry κ) (code : Code) (row : StoredRow) : SqliteRegistry κ :=
  { r with mounts := Function.update r.mounts code (some row) }

def register (r : SqliteRegistry κ) (code : Code) (connection : Option κ) (agentIp : String)
    (createdAt : ℚ) (expiresAt : Option ℚ) : Except RegistryError (SqliteRegistry κ) :=
  if code = "" then .error (.valueError "Mount code must not be empty")
  else
    let r := r.insertMount code (freshRow agentIp createdAt expiresAt)
    match connection with
    | some connection => .ok (r.connect code connection)
    | none => .ok r

/-- The methods that raise for a code without a row. -/
def withRow (r : SqliteRegistry κ) (code : Code) (update : StoredRow → SqliteRegistry κ) :
    Except RegistryError (SqliteRegistry κ) :=
  match r.mounts code with
  | none => .error (.mountNotFound code)
  | some row => .ok (update row)

def deregister (r : SqliteRegistry κ) (code : Code) : Except RegistryError (SqliteRegistry κ) :=
  r.withRow code fun _ =>
    { r with mounts := Function.update r.mounts code none }.disconnect code |>.popSecret code

/-- `closed` is `is_closed` of the connections at the moment of the call. -/
def getConnection (r : SqliteRegistry κ) (closed : κ → Bool) (code : Code) : Except RegistryError κ :=
  match r.mounts code with
  | none => .error (.mountNotFound code)
  | some row =>
      match row.status with
      | .offline => .error (.mountOffline code)
      | .expired => .error (.mountExpired code)
      | .online =>
          match r.connections code with
          | none => .error (.runtimeError ("Mount '" ++ code ++ "' has no tunnel connection (local mount)"))
          | some connection =>
              if closed connection then .error (.mountOffline code) else .ok connection

def markOffline (r : SqliteRegistry κ) (code : Code) : Except RegistryError (SqliteRegistry κ) :=
  r.withRow code fun row =>
    if row.status = .online then (r.setStatus code .offline).disconnect code |>.popSecret code
    else r.popSecret code

def expire (r : SqliteRegistry κ) (code : Code) : Except RegistryError (SqliteRegistry κ) :=
  r.withRow code fun _ => (r.setStatus code .expired).disconnect code |>.popSecret code

def markTtlWarned (r : SqliteRegistry κ) (code : Code) : Except RegistryError (SqliteRegistry κ) :=
  r.withRow code fun row => r.insertMount code { row with ttlWarned := true }

def hasMount (r : SqliteRegistry κ) (code : Code) : Bool := (r.mounts code).isSome

/-- The UPDATE of both reclaims and the connection that they store. -/
def reclaim (r : SqliteRegistry κ) (code : Code) (connection : κ) : SqliteRegistry κ :=
  (r.setStatus code .online).connect code connection

def tryReclaim (r : SqliteRegistry κ) (now : ℚ) (code : Code) (connection : κ) (agentIp : String) :
    Option (SqliteRegistry κ × ℤ) :=
  match r.mounts code with
  | none => none
  | some row =>
      if row.status ≠ .offline then none
      else if row.agentIp ≠ agentIp then none
      else if row.pastTtl now then none
      else some (r.reclaim code connection, row.remainingTtl now)

def tryReclaimAsOwner (r : SqliteRegistry κ) (now : ℚ) (code : Code) (connection : κ)
    (ownerUserId : Nat) : Option (SqliteRegistry κ × ℤ) :=
  match r.mounts code with
  | none => none
  | some row =>
      if row.status ≠ .offline then none
      else if row.ownerUserId ≠ some ownerUserId then none
      else if row.pastTtl now then none
      else some (r.reclaim code connection, row.remainingTtl now)

def deleteExpiredBefore (r : SqliteRegistry κ) (cutoff : ℚ) : SqliteRegistry κ :=
  { r with
    mounts := fun code => (r.mounts code).filter fun row =>
      ¬ (row.status = .expired ∧ row.expiresAt.any (fun e => e < cutoff) = true) }

def setOwnerPolicy (r : SqliteRegistry κ) (code : Code) (ownerUserId : Option Nat) (policy : MountPolicy) :
    Except RegistryError (SqliteRegistry κ) :=
  r.withRow code fun row =>
    { r.insertMount code { row with
        ownerUserId := ownerUserId, accessMode := policy.accessMode, hasPassword := policy.hasPassword } with
      policy := Function.update r.policy code (policy.entries.foldl Registry.replaceEntry []) }

/-- The columns of `get_policy` that the access decision uses; `none` is a `MountNotFoundError`. -/
def getPolicy (r : SqliteRegistry κ) (code : Code) : Option MountPolicy :=
  (r.mounts code).map fun row => ⟨row.accessMode, row.hasPassword, r.policy code⟩

/-- `_RETENTION_SECONDS` -/
def retentionSeconds : ℚ := 6 * 3600

/-- What `_startup_cleanup` does to a row that it does not delete. -/
def cleanedRow (now : ℚ) (row : StoredRow) : StoredRow :=
  let row := if row.expiresAt.any (fun e => e < now) then { row with status := .expired } else row
  if row.status = .online then { row with status := .offline } else row

def startupCleanup (r : SqliteRegistry κ) (now : ℚ) : SqliteRegistry κ :=
  let r := r.deleteExpiredBefore (now - retentionSeconds)
  { r with mounts := fun code => (r.mounts code).map (cleanedRow now) }

/-- `create` over the database of `r`: the dictionaries start empty. -/
def restart (r : SqliteRegistry κ) (now : ℚ) : SqliteRegistry κ :=
  { r with connections := fun _ => none, identitySecrets := fun _ => none }.startupCleanup now

theorem register_eq_ok_iff (r r' : SqliteRegistry κ) (code : Code) (connection : κ) (agentIp : String)
    (createdAt : ℚ) (expiresAt : Option ℚ) :
    r.register code (some connection) agentIp createdAt expiresAt = .ok r' ↔ code ≠ "" ∧
      r' = (r.insertMount code (freshRow agentIp createdAt expiresAt)).connect code connection := by
  by_cases hcode : code = ""
  · simp [register, hcode]
  · simp [register, hcode, eq_comm]

/-- A reclaim by IP succeeds exactly on an unexpired OFFLINE row that was registered from that IP. -/
theorem tryReclaim_eq_some_iff (r r' : SqliteRegistry κ) (now : ℚ) (code : Code) (connection : κ)
    (agentIp : String) (remaining : ℤ) :
    r.tryReclaim now code connection agentIp = some (r', remaining) ↔
      ∃ row, r.mounts code = some row ∧ row.status = .offline ∧ row.agentIp = agentIp ∧
        row.pastTtl now = false ∧ r.reclaim code connection = r' ∧ row.remainingTtl now = remaining := by
  unfold tryReclaim
  cases hrow : r.mounts code with
  | none => simp
  | some row =>
      by_cases hstatus : row.status = .offline
      · by_cases hip : row.agentIp = agentIp
        · cases hpast : row.pastTtl now <;> simp [hstatus, hip, hpast]
        · simp [hip, hstatus]
      · simp [hstatus]

theorem tryReclaimAsOwner_eq_some_iff (r r' : SqliteRegistry κ) (now : ℚ) (code : Code) (connection : κ)
    (ownerUserId : Nat) (remaining : ℤ) :
    r.tryReclaimAsOwner now code connection ownerUserId = some (r', remaining) ↔
      ∃ row, r.mounts code = some row ∧ row.status = .offline ∧ row.ownerUserId = some ownerUserId ∧
        row.pastTtl now = false ∧ r.reclaim code connection = r' ∧ row.remainingTtl now = remaining := by
  unfold tryReclaimAsOwner
  cases hrow : r.mounts code with
  | none => simp
  | some row =>
      by_cases hstatus : row.status = .offline
      · by_cases howner : row.ownerUserId = some ownerUserId
        · cases hpast : row.pastTtl now <;> simp [hstatus, howner, hpast]
        · simp [howner, hstatus]
      · simp [hstatus]

theorem getConnection_eq_ok_iff (r : SqliteRegistry κ) (closed : κ → Bool) (code : Code) (connection : κ) :
    r.getConnection closed code = .ok connection ↔
      (∃ row, r.mounts code = some row ∧ row.status = .online) ∧
        r.connections code = some connection ∧ closed connection = false := by
  unfold getConnection
  cases hrow : r.mounts code with
  | none => simp
  | some row =>
      cases hstatus : row.status with
      | offline => simp [hstatus]
      | expired => simp [hstatus]
      | online =>
          cases hc : r.connections code with
          | none => simp [hstatus]
          | some stored =>
              simp only [Option.some.injEq, exists_eq_left', hstatus, true_and]
              constructor
              · intro hok
                split at hok
                · cases hok
                · rename_i hopen
                  cases hok
                  exact ⟨rfl, by simpa using hopen⟩
              · rintro ⟨rfl, hopen⟩
                simp [hopen]

theorem cleanedRow_status (now : ℚ) (row : StoredRow) : (cleanedRow now row).status ≠ .online ∧
    (row.status = .expired → (cleanedRow now row).status = .expired) := by
  unfold cleanedRow
  cases hpast : row.expiresAt.any (fun e => e < now) <;> cases hstatus : row.status <;> simp [hstatus]

theorem cleanedRow_expiresAt (now : ℚ) (row : StoredRow) :
    (cleanedRow now row).expiresAt = row.expiresAt := by
  unfold cleanedRow
  cases hpast : row.expiresAt.any (fun e => e < now) <;> cases hstatus : row.status <;> simp [hstatus]

/-- The tables without the times. -/
def toRegistry (r : SqliteRegistry κ) : Registry κ :=
  ⟨fun code => (r.mounts code).map (·.toMountRow), r.policy, r.connections⟩

theorem toRegistry_mounts (r : SqliteRegistry κ) (code : Code) :
    r.toRegistry.mounts code = (r.mounts code).map (·.toMountRow) := rfl

theorem toRegistry_setStatus (r : SqliteRegistry κ) (code : Code) (status : MountStatus) :
    (r.setStatus code status).toRegistry = r.toRegistry.setStatus code status := by
  unfold toRegistry setStatus Registry.setStatus
  congr 1
  funext c
  by_cases hc : c = code
  · subst hc
    simp [Function.comp_def]
  · simp [hc]

theorem toRegistry_insertMount (r : SqliteRegistry κ) (code : Code) (agentIp : String) (createdAt : ℚ)
    (expiresAt : Option ℚ) : (r.insertMount code (freshRow agentIp createdAt expiresAt)).toRegistry =
      r.toRegistry.insertMount code agentIp := by
  unfold toRegistry insertMount Registry.insertMount
  congr 1
  funext c
  by_cases hc : c = code
  · subst hc
    simp [freshRow]
  · simp [hc]

theorem toRegistry_connect (r : SqliteRegistry κ) (code : Code) (connection : κ) :
    (r.connect code connection).toRegistry = r.toRegistry.connect code connection := rfl

theorem foldl_insertPolicy (r : Registry κ) (code : Code) (entries : List PolicyEntry) :
    entries.foldl (fun r e => r.insertPolicy code e) r =
      { r with policy := Function.update r.policy code (entries.foldl Registry.replaceEntry (r.policy code)) } := by
  induction entries generalizing r with
  | nil => simp
  | cons e entries ih =>
      rw [List.foldl_cons, ih]
      simp [Registry.insertPolicy]

theorem setOwnerPolicy_toRegistry (r r' : SqliteRegistry κ) (code : Code) (ownerUserId : Option Nat)
    (policy : MountPolicy) (h : r.setOwnerPolicy code ownerUserId policy = .ok r') :
    r'.toRegistry = policy.entries.foldl (fun r e => r.insertPolicy code e)
      ((r.toRegistry.setPolicyColumns code ownerUserId policy.accessMode policy.hasPassword).deletePolicy
        code) := by
  unfold setOwnerPolicy withRow at h
  split at h
  · cases h
  · rename_i row hrow
    cases h
    rw [foldl_insertPolicy]
    unfold toRegistry insertMount Registry.deletePolicy Registry.setPolicyColumns
    simp only [Function.update_self, Function.update_idem]
    congr 1
    funext c
    by_cases hc : c = code
    · subst hc
      simp [hrow]
    · simp [hc]

end SqliteRegistry

end NetworkFileServer.Relay
