import Mathlib.Logic.Function.Basic
import NetworkFileServer.Relay.AccessPolicy

/-!
# The mount registry

`SqliteMountRegistry`: the tables `mounts` and `mount_policy` and the dictionary `_connections`. The
definitions below are its SQL statements and dictionary updates; its methods run several of them,
with an await in between, and are part of the session and request handlers. All statements go
through one SQLite connection, so a statement sees what was written before it, committed or not.

The expiry time of a row is compared with the clock only, so the comparison is left to the schedule.
-/

namespace NetworkFileServer.Relay

abbrev Code := String

inductive MountStatus where
  | online
  | offline
  | expired
deriving DecidableEq, Repr

/-- A row of the table `mounts`. -/
structure MountRow where
  status : MountStatus
  agentIp : String
  ownerUserId : Option Nat
  accessMode : AccessMode
  hasPassword : Bool
deriving DecidableEq, Repr

/-- The registry; a connection is named by the agent session that it belongs to. -/
structure Registry (ι : Type*) where
  mounts : Code → Option MountRow
  policy : Code → List PolicyEntry
  connections : Code → Option ι

namespace Registry

variable {ι : Type*}

/-- `INSERT OR REPLACE INTO mounts` of `register`: the policy columns get their defaults. -/
def insertMount (r : Registry ι) (c : Code) (agentIp : String) : Registry ι :=
  { r with mounts := Function.update r.mounts c (some ⟨.online, agentIp, none, .open, false⟩) }

/-- `UPDATE mounts SET status = ? WHERE code = ?`. -/
def setStatus (r : Registry ι) (c : Code) (status : MountStatus) : Registry ι :=
  { r with
    mounts := Function.update r.mounts c ((r.mounts c).map fun row => { row with status := status }) }

/-- The `UPDATE mounts` of `set_owner_policy`. -/
def setPolicyColumns (r : Registry ι) (c : Code) (ownerUserId : Option Nat) (accessMode : AccessMode)
    (hasPassword : Bool) : Registry ι :=
  { r with
    mounts := Function.update r.mounts c ((r.mounts c).map fun row =>
      { row with ownerUserId := ownerUserId, accessMode := accessMode, hasPassword := hasPassword }) }

/-- `DELETE FROM mount_policy WHERE code = ?`. -/
def deletePolicy (r : Registry ι) (c : Code) : Registry ι :=
  { r with policy := Function.update r.policy c [] }

/-- One table row per subject: a second entry for a subject replaces the first. -/
def replaceEntry (entries : List PolicyEntry) (e : PolicyEntry) : List PolicyEntry :=
  entries.filter (fun e' => ¬ (e'.subjectType = e.subjectType ∧ e'.subjectId = e.subjectId)) ++ [e]

/-- `INSERT OR REPLACE INTO mount_policy`. -/
def insertPolicy (r : Registry ι) (c : Code) (e : PolicyEntry) : Registry ι :=
  { r with policy := Function.update r.policy c (replaceEntry (r.policy c) e) }

/-- `DELETE FROM mounts` of an expired row. -/
def deleteExpired (r : Registry ι) (c : Code) : Registry ι :=
  { r with
    mounts := Function.update r.mounts c ((r.mounts c).filter fun row => row.status ≠ .expired) }

/-- `self._connections[code] = connection`. -/
def connect (r : Registry ι) (c : Code) (i : ι) : Registry ι :=
  { r with connections := Function.update r.connections c (some i) }

/-- `self._connections.pop(code, None)`. -/
def disconnect (r : Registry ι) (c : Code) : Registry ι :=
  { r with connections := Function.update r.connections c none }

def status (r : Registry ι) (c : Code) : Option MountStatus := (r.mounts c).map (·.status)

def isOnline (r : Registry ι) (c : Code) : Bool :=
  (r.mounts c).any fun row => row.status = .online

/-- The checks of `try_reclaim_as_owner` and of `try_reclaim` on the row that they have read. -/
def reclaimable (row : Option MountRow) (owner : Option Nat) (agentIp : String) (asOwner ttlPassed : Bool) :
    Bool :=
  match row with
  | none => false
  | some row =>
      row.status = .offline && !ttlPassed &&
        if asOwner then row.ownerUserId.isSome && row.ownerUserId = owner else row.agentIp = agentIp

theorem isOnline_setStatus (r : Registry ι) (c c' : Code) (status : MountStatus) :
    (r.setStatus c status).isOnline c' =
      if c' = c then (r.mounts c).isSome && decide (status = .online) else r.isOnline c' := by
  by_cases hc : c' = c
  · subst hc
    cases hrow : r.mounts c' <;> simp [setStatus, isOnline, hrow]
  · simp [setStatus, isOnline, hc]

theorem isOnline_insertMount (r : Registry ι) (c c' : Code) (agentIp : String) :
    (r.insertMount c agentIp).isOnline c' = if c' = c then true else r.isOnline c' := by
  by_cases hc : c' = c
  · subst hc
    simp [insertMount, isOnline]
  · simp [insertMount, isOnline, hc]

theorem isOnline_setPolicyColumns (r : Registry ι) (c c' : Code) (ownerUserId : Option Nat)
    (accessMode : AccessMode) (hasPassword : Bool) :
    (r.setPolicyColumns c ownerUserId accessMode hasPassword).isOnline c' = r.isOnline c' := by
  by_cases hc : c' = c
  · subst hc
    cases hrow : r.mounts c' <;> simp [setPolicyColumns, isOnline, hrow]
  · simp [setPolicyColumns, isOnline, hc]

theorem isOnline_deleteExpired (r : Registry ι) (c c' : Code)
    (h : (r.deleteExpired c).isOnline c' = true) : r.isOnline c' = true := by
  by_cases hc : c' = c
  · subst hc
    cases hrow : r.mounts c' with
    | none => simp [deleteExpired, isOnline, hrow] at h
    | some row =>
        simp only [deleteExpired, isOnline, hrow, Function.update_self, Option.any_filter,
          Option.any_some] at h ⊢
        simp_all
  · simpa [deleteExpired, isOnline, hc] using h

theorem status_setStatus (r : Registry ι) (c c' : Code) (status : MountStatus) :
    (r.setStatus c status).status c' =
      if c' = c then (r.status c).map fun _ => status else r.status c' := by
  by_cases hc : c' = c
  · subst hc
    simp [setStatus, Registry.status, Function.comp_def]
  · simp [setStatus, Registry.status, hc]

theorem status_insertMount (r : Registry ι) (c c' : Code) (agentIp : String) :
    (r.insertMount c agentIp).status c' = if c' = c then some .online else r.status c' := by
  by_cases hc : c' = c
  · subst hc
    simp [insertMount, status]
  · simp [insertMount, status, hc]

theorem status_setPolicyColumns (r : Registry ι) (c c' : Code) (ownerUserId : Option Nat)
    (accessMode : AccessMode) (hasPassword : Bool) :
    (r.setPolicyColumns c ownerUserId accessMode hasPassword).status c' = r.status c' := by
  by_cases hc : c' = c
  · subst hc
    simp [setPolicyColumns, status, Function.comp_def]
  · simp [setPolicyColumns, status, hc]

theorem status_deleteExpired (r : Registry ι) (c c' : Code) :
    (r.deleteExpired c).status c' = r.status c' ∨ (c' = c ∧ r.status c = some .expired) := by
  by_cases hc : c' = c
  · subst hc
    cases hrow : r.mounts c' with
    | none => exact .inl (by simp [deleteExpired, status, hrow])
    | some row =>
        by_cases hexp : row.status = .expired
        · exact .inr ⟨rfl, by simp [status, hrow, hexp]⟩
        · exact .inl (by simp [deleteExpired, status, hrow, hexp, Option.filter])
  · exact .inl (by simp [deleteExpired, status, hc])

theorem disconnect_connections (r : Registry ι) (c c' : Code) (i : ι)
    (h : (r.disconnect c).connections c' = some i) : r.connections c' = some i := by
  by_cases hc : c' = c
  · subst hc
    simp [disconnect] at h
  · simpa [disconnect, hc] using h

theorem replaceEntry_subset (entries : List PolicyEntry) (e e' : PolicyEntry)
    (h : e' ∈ replaceEntry entries e) : e' = e ∨ e' ∈ entries := by
  rcases List.mem_append.mp h with hold | hnew
  · exact .inr (List.mem_filter.mp hold).1
  · exact .inl (List.mem_singleton.mp hnew)

end Registry

end NetworkFileServer.Relay
