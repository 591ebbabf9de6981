import Mathlib.Data.List.Nodup
import NetworkFileServer.Framework.KeyedTable
import NetworkFileServer.Relay.Ownership

/-!
# Access requests

The table `access_requests` and the handlers of `access_requests.py`, on the registry that the agents
write to. Requests are keyed by code and user and are never deleted.

`INSERT OR IGNORE` counts the id that it did not use.
-/

namespace NetworkFileServer.Relay

inductive AccessRequestStatus where
  | pending
  | approved
  | denied
deriving DecidableEq, Repr

structure AccessRequest where
  id : Nat
  code : Code
  userId : Nat
  status : AccessRequestStatus
  createdAt : ℚ
deriving DecidableEq

/-- The table with its primary key, its UNIQUE constraint and its AUTOINCREMENT sequence. -/
structure RequestTable where
  rows : List AccessRequest
  lastId : Nat
  ids : (rows.map AccessRequest.id).Nodup
  keys : (rows.map fun q => (q.code, q.userId)).Nodup
  sequence : ∀ q ∈ rows, q.id ≤ lastId

namespace RequestTable

def empty : RequestTable := ⟨[], 0, List.nodup_nil, List.nodup_nil, by simp⟩

def find (t : RequestTable) (code : Code) (userId : Nat) : Option AccessRequest :=
  t.rows.find? fun q => q.code = code ∧ q.userId = userId

/-- `get_access_request`; `none` is an `AccessRequestNotFoundError`. -/
def getAccessRequest (t : RequestTable) (requestId : Nat) : Option AccessRequest :=
  t.rows.find? fun q => q.id = requestId

theorem find_eq_none_iff (t : RequestTable) (code : Code) (userId : Nat) :
    t.find code userId = none ↔ (code, userId) ∉ t.rows.map fun q => (q.code, q.userId) := by
  simp [find, List.find?_eq_none]

theorem find_eq_some_iff (t : RequestTable) (code : Code) (userId : Nat) (q : AccessRequest) :
    t.find code userId = some q ↔ q ∈ t.rows ∧ q.code = code ∧ q.userId = userId := by
  have hfind := KeyedTable.find?_eq_some_iff (fun q : AccessRequest => (q.code, q.userId))
    (fun q => q.code = code ∧ q.userId = userId) (code, userId) t.rows t.keys (by simp) q
  rw [Prod.mk.injEq] at hfind
  exact hfind

theorem getAccessRequest_eq_some_iff (t : RequestTable) (requestId : Nat) (q : AccessRequest) :
    t.getAccessRequest requestId = some q ↔ q ∈ t.rows ∧ q.id = requestId :=
  KeyedTable.find?_eq_some_iff AccessRequest.id _ requestId t.rows t.ids (by simp) q

/-- The row of an `INSERT OR IGNORE`. -/
def newRow (t : RequestTable) (code : Code) (userId : Nat) (now : ℚ) : AccessRequest :=
  ⟨t.lastId + 1, code, userId, .pending, now⟩

theorem newRow_id_not_mem (t : RequestTable) (code : Code) (userId : Nat) (now : ℚ) :
    (t.newRow code userId now).id ∉ t.rows.map AccessRequest.id :=
  KeyedTable.succ_not_mem AccessRequest.id t.rows t.lastId t.sequence

def insertOrIgnore (t : RequestTable) (code : Code) (userId : Nat) (now : ℚ) : RequestTable :=
  if h : (code, userId) ∈ t.rows.map fun q => (q.code, q.userId) then
    { t with
      lastId := t.lastId + 1
      sequence := fun q hq => Nat.le_succ_of_le (t.sequence q hq) }
  else
    { rows := t.rows ++ [t.newRow code userId now]
      lastId := t.lastId + 1
      ids := KeyedTable.nodup_concat _ t.rows _ t.ids (t.newRow_id_not_mem code userId now)
      keys := KeyedTable.nodup_concat _ t.rows _ t.keys h
      sequence := by
        intro q hq
        rcases List.mem_append.mp hq with hold | hnew
        · exact Nat.le_succ_of_le (t.sequence q hold)
        · rw [List.mem_singleton.mp hnew]
          exact Nat.le_refl _ }

/-- `create_access_request` -/
def createAccessRequest (t : RequestTable) (code : Code) (userId : Nat) (now : ℚ) :
    RequestTable × Option AccessRequest :=
  let t := t.insertOrIgnore code userId now
  (t, t.find code userId)

def withStatus (requestId : Nat) (status : AccessRequestStatus) (q : AccessRequest) : AccessRequest :=
  if q.id = requestId then { q with status := status } else q

theorem withStatus_key (requestId : Nat) (status : AccessRequestStatus) (q : AccessRequest) :
    (withStatus requestId status q).id = q.id ∧ (withStatus requestId status q).code = q.code ∧
      (withStatus requestId status q).userId = q.userId := by
  unfold withStatus
  split <;> exact ⟨rfl, rfl, rfl⟩

/-- The UPDATE of `resolve_access_request`. -/
def setStatus (t : RequestTable) (requestId : Nat) (status : AccessRequestStatus) : RequestTable where
  rows := t.rows.map (withStatus requestId status)
  lastId := t.lastId
  ids := by simpa [Function.comp_def, withStatus_key] using t.ids
  keys := by simpa [Function.comp_def, withStatus_key] using t.keys
  sequence := by
    intro q hq
    obtain ⟨q', hq', rfl⟩ := List.mem_map.mp hq
    rw [(withStatus_key requestId status q').1]
    exact t.sequence q' hq'

theorem mem_insertOrIgnore (t : RequestTable) (code : Code) (userId : Nat) (now : ℚ) (q : AccessRequest) :
    q ∈ (t.insertOrIgnore code userId now).rows ↔ q ∈ t.rows ∨
      (t.find code userId = none ∧ q = t.newRow code userId now) := by
  unfold insertOrIgnore
  rw [find_eq_none_iff]
  split
  · rename_i h
    simp [h]
  · rename_i h
    simp [h]

theorem mem_setStatus (t : RequestTable) (requestId : Nat) (status : AccessRequestStatus) (q : AccessRequest) :
    q ∈ (t.setStatus requestId status).rows ↔ (q ∈ t.rows ∧ q.id ≠ requestId) ∨
      ∃ q' ∈ t.rows, q'.id = requestId ∧ q = { q' with status := status } := by
  constructor
  · intro h
    obtain ⟨q', hq', rfl⟩ := List.mem_map.mp h
    unfold withStatus
    split
    · rename_i hid
      exact .inr ⟨q', hq', hid, rfl⟩
    · rename_i hid
      exact .inl ⟨hq', hid⟩
  · rintro (⟨hq, hid⟩ | ⟨q', hq', hid, rfl⟩)
    · exact List.mem_map.mpr ⟨q, hq, by simp [withStatus, hid]⟩
    · exact List.mem_map.mpr ⟨q', hq', by simp [withStatus, hid]⟩

end RequestTable

/-- The whole database of the registry, with its dictionaries. -/
structure RelayRegistry (κ : Type*) where
  registry : SqliteRegistry κ
  requests : RequestTable

/-- `ResolveAction`, with the role of an approval. -/
inductive ResolveAction where
  | approve (role : Option Role)
  | deny
deriving DecidableEq

/-- What happens to the registry: a mount event, a policy that is declared for a code, or a request of a
logged-in user. `isAdmin` is `is_admin_username` of the resolving user. -/
inductive RelayEvent (κ : Type*) where
  | mount (e : MountEvent κ)
  | deregister (code : Code)
  | setOwnerPolicy (code : Code) (ownerUserId : Option Nat) (policy : MountPolicy)
  | createRequest (code : Code) (userId : Nat)
  | resolveRequest (requestId : Nat) (userId : Nat) (isAdmin : Bool) (action : ResolveAction)

namespace RelayRegistry

variable {κ : Type*}

/-- A new relay. -/
def empty : RelayRegistry κ := ⟨⟨fun _ => none, fun _ => [], fun _ => none, fun _ => none⟩, .empty⟩

/-- `add_policy_entry`, after the SELECT has found the row. -/
def addPolicyEntry (r : SqliteRegistry κ) (code : Code) (e : PolicyEntry) : SqliteRegistry κ :=
  { r with policy := Function.update r.policy code (Registry.replaceEntry (r.policy code) e) }

/-- The request that `resolve_request` works on: it exists, its mount has a row, and the user owns the
mount or is an admin. -/
def resolvable (s : RelayRegistry κ) (requestId userId : Nat) (isAdmin : Bool) : Option AccessRequest :=
  (s.requests.getAccessRequest requestId).filter fun q =>
    (s.registry.mounts q.code).any fun row => row.ownerUserId = some userId || isAdmin

/-- `resolve_request`; without a resolvable request the handler raises and nothing changes. -/
def resolveRequest (s : RelayRegistry κ) (requestId userId : Nat) (isAdmin : Bool) (action : ResolveAction) :
    RelayRegistry κ :=
  match s.resolvable requestId userId isAdmin with
  | none => s
  | some q =>
      match action with
      | .approve role =>
          { registry := addPolicyEntry s.registry q.code ⟨.user, q.userId, role.getD .read⟩
            requests := s.requests.setStatus requestId .approved }
      | .deny => { s with requests := s.requests.setStatus requestId .denied }

/-- `list_access_requests_for_owner`, the latest request first. -/
def listAccessRequestsForOwner (s : RelayRegistry κ) (ownerUserId : Nat) : List AccessRequest :=
  (s.requests.rows.filter fun q =>
    (s.registry.mounts q.code).any fun row => row.ownerUserId = some ownerUserId).reverse

def step (s : RelayRegistry κ) : ℚ × RelayEvent κ → Option (RelayRegistry κ)
  | (now, .mount e) => (MountEvent.step s.registry (now, e)).map fun r => { s with registry := r }
  | (now, .deregister code) => some { s with registry := (s.registry.perform now (.deregister code)).1 }
  | (now, .setOwnerPolicy code ownerUserId policy) =>
      some { s with registry := (s.registry.perform now (.setOwnerPolicy code ownerUserId policy)).1 }
  | (now, .createRequest code userId) =>
      some { s with requests := (s.requests.createAccessRequest code userId now).1 }
  | (_, .resolveRequest requestId userId isAdmin action) =>
      some (s.resolveRequest requestId userId isAdmin action)

theorem step_isSome (s : RelayRegistry κ) (e : ℚ × RelayEvent κ) : (s.step e).isSome = true := by
  obtain ⟨now, e⟩ := e
  cases e with
  | mount e =>
      cases e with
      | connect auth connection generated effectiveTtl =>
          cases hassign : s.registry.assignCode now auth connection generated effectiveTtl <;>
            simp [step, MountEvent.step, hassign]
      | disconnect code => rfl
      | expire code => rfl
      | markTtlWarned code => rfl
      | deleteExpiredBefore cutoff => rfl
      | restart => rfl
  | deregister code => rfl
  | setOwnerPolicy code ownerUserId policy => rfl
  | createRequest code userId => rfl
  | resolveRequest requestId userId isAdmin action => rfl

end RelayRegistry

end NetworkFileServer.Relay
