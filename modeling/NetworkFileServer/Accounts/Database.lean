import Mathlib.Data.List.Nodup
import Mathlib.Data.Rat.Defs
import NetworkFileServer.Accounts.Groups
import NetworkFileServer.Framework.KeyedTable
import NetworkFileServer.Framework.Text
import NetworkFileServer.Tunnel.Frames

/-!
# The account database

The tables of `accounts/sqlite_store.py` and the SQL statements on them. The UNIQUE constraints and
the primary keys are part of the database, so no statement can break them; a statement that would is
an `IntegrityError`. A statement is `none` when it writes nothing.
-/

namespace NetworkFileServer.Accounts

open Relay (SubjectType)
open Tunnel (Bytes)

structure User where
  id : Nat
  username : String
  email : Option String
  passwordHash : Bytes
  createdAt : ℚ
  isActive : Bool
deriving DecidableEq

structure Group where
  id : Nat
  name : String
  createdAt : ℚ
deriving DecidableEq

/-- A row of `external_identities`. -/
structure ExternalIdentity where
  provider : String
  subject : String
  userId : Nat
  createdAt : ℚ
deriving DecidableEq

structure Tables where
  users : List User
  groups : List Group
  memberships : List Membership
  userQuota : Nat → Option Nat
  externalIdentities : List ExternalIdentity
  /-- The largest ids that AUTOINCREMENT has given, from `sqlite_sequence`. -/
  lastUserId : Nat
  lastGroupId : Nat

/-- What SQLite enforces. -/
structure Tables.Constraints (t : Tables) : Prop where
  userIds : (t.users.map User.id).Nodup
  usernames : (t.users.map User.username).Nodup
  userSequence : ∀ u ∈ t.users, u.id ≤ t.lastUserId
  groupIds : (t.groups.map Group.id).Nodup
  groupNames : (t.groups.map Group.name).Nodup
  groupSequence : ∀ g ∈ t.groups, g.id ≤ t.lastGroupId
  memberships : t.memberships.Nodup
  identities : (t.externalIdentities.map fun e => (e.provider, e.subject)).Nodup

structure Database extends Tables where
  constraints : toTables.Constraints

namespace Database

def empty : Database where
  users := []
  groups := []
  memberships := []
  userQuota := fun _ => none
  externalIdentities := []
  lastUserId := 0
  lastGroupId := 0
  constraints := by constructor <;> simp

/-- `SELECT 1 FROM users WHERE username = ?` -/
def usernameExists (d : Database) (username : String) : Bool := d.users.any (·.username = username)

def userByUsername (d : Database) (username : String) : Option User :=
  d.users.find? (·.username = username)

def userById (d : Database) (userId : Nat) : Option User := d.users.find? (·.id = userId)

def groupNameExists (d : Database) (name : String) : Bool := d.groups.any (·.name = name)

def groupById (d : Database) (groupId : Nat) : Option Group := d.groups.find? (·.id = groupId)

def groupByName (d : Database) (name : String) : Option Group := d.groups.find? (·.name = name)

def membershipExists (d : Database) (m : Membership) : Bool := d.memberships.any (· = m)

/-- The SELECT of `_group_descendants`. -/
def childGroupIds (d : Database) (groupId : Nat) : List Nat :=
  (d.memberships.filter fun m => m.groupId = groupId ∧ m.memberType = .group).map Membership.memberId

def identityOf (d : Database) (provider subject : String) : Option ExternalIdentity :=
  d.externalIdentities.find? fun e => e.provider = provider ∧ e.subject = subject

/-- The join of `get_user_by_external_id`. -/
def userByExternalId (d : Database) (provider subject : String) : Option User :=
  (d.identityOf provider subject).bind fun e => d.userById e.userId

/-- What `accounts/resolve.py` sees. -/
def toStore (d : Database) : AccountStore := ⟨d.users.map User.id, d.memberships⟩

/-- The row that `INSERT INTO users` adds. -/
def newUser (d : Database) (username : String) (email : Option String) (passwordHash : Bytes)
    (createdAt : ℚ) : User :=
  ⟨d.lastUserId + 1, username, email, passwordHash, createdAt, true⟩

theorem Tables.Constraints.insertUser {t : Tables} (h : t.Constraints) (u : User)
    (hid : u.id = t.lastUserId + 1) (hname : u.username ∉ t.users.map User.username) :
    { t with users := t.users ++ [u], lastUserId := u.id }.Constraints :=
  { h with
    userIds := KeyedTable.nodup_concat User.id t.users u h.userIds (by
      rw [hid]
      exact KeyedTable.succ_not_mem User.id t.users t.lastUserId h.userSequence)
    usernames := KeyedTable.nodup_concat User.username t.users u h.usernames hname
    userSequence := by
      intro v hv
      rcases List.mem_append.mp hv with hold | hnew
      · have hle := h.userSequence v hold
        simp only [hid]
        omega
      · rw [List.mem_singleton.mp hnew] }

def insertUser (d : Database) (username : String) (email : Option String) (passwordHash : Bytes)
    (createdAt : ℚ) : Option Database :=
  let u := d.newUser username email passwordHash createdAt
  if h : username ∈ d.users.map User.username then none
  else
    some
      { d with
        users := d.users ++ [u]
        lastUserId := u.id
        constraints := Tables.Constraints.insertUser d.constraints u rfl h }

def setActive (userId : Nat) (isActive : Bool) (u : User) : User :=
  if u.id = userId then { u with isActive := isActive } else u

theorem setActive_id (userId : Nat) (isActive : Bool) (u : User) :
    (setActive userId isActive u).id = u.id := by
  unfold setActive
  split <;> rfl

theorem setActive_username (userId : Nat) (isActive : Bool) (u : User) :
    (setActive userId isActive u).username = u.username := by
  unfold setActive
  split <;> rfl

theorem Tables.Constraints.updateActive {t : Tables} (h : t.Constraints) (userId : Nat) (isActive : Bool) :
    { t with users := t.users.map (setActive userId isActive) }.Constraints :=
  { h with
    userIds := by simpa [Function.comp_def, setActive_id] using h.userIds
    usernames := by simpa [Function.comp_def, setActive_username] using h.usernames
    userSequence := by
      intro v hv
      obtain ⟨u, hu, rfl⟩ := List.mem_map.mp hv
      rw [setActive_id]
      exact h.userSequence u hu }

/-- `UPDATE users SET is_active = ? WHERE id = ?` -/
def updateActive (d : Database) (userId : Nat) (isActive : Bool) : Option Database :=
  if (d.userById userId).isSome then
    some
      { d with
        users := d.users.map (setActive userId isActive)
        constraints := Tables.Constraints.updateActive d.constraints userId isActive }
  else none

theorem Tables.Constraints.insertIdentity {t : Tables} (h : t.Constraints) (e : ExternalIdentity)
    (hkey : (e.provider, e.subject) ∉ t.externalIdentities.map fun e => (e.provider, e.subject)) :
    { t with externalIdentities := t.externalIdentities ++ [e] }.Constraints :=
  { h with identities := KeyedTable.nodup_concat _ t.externalIdentities e h.identities hkey }

def insertIdentity (d : Database) (e : ExternalIdentity) : Option Database :=
  if h : (e.provider, e.subject) ∈ d.externalIdentities.map fun e => (e.provider, e.subject) then none
  else
    some
      { d with
        externalIdentities := d.externalIdentities ++ [e]
        constraints := Tables.Constraints.insertIdentity d.constraints e h }

/-- The row that `INSERT INTO groups` adds. -/
def newGroup (d : Database) (name : String) (createdAt : ℚ) : Group := ⟨d.lastGroupId + 1, name, createdAt⟩

theorem Tables.Constraints.insertGroup {t : Tables} (h : t.Constraints) (g : Group)
    (hid : g.id = t.lastGroupId + 1) (hname : g.name ∉ t.groups.map Group.name) :
    { t with groups := t.groups ++ [g], lastGroupId := g.id }.Constraints :=
  { h with
    groupIds := KeyedTable.nodup_concat Group.id t.groups g h.groupIds (by
      rw [hid]
      exact KeyedTable.succ_not_mem Group.id t.groups t.lastGroupId h.groupSequence)
    groupNames := KeyedTable.nodup_concat Group.name t.groups g h.groupNames hname
    groupSequence := by
      intro v hv
      rcases List.mem_append.mp hv with hold | hnew
      · have hle := h.groupSequence v hold
        simp only [hid]
        omega
      · rw [List.mem_singleton.mp hnew] }

def insertGroup (d : Database) (name : String) (createdAt : ℚ) : Option Database :=
  let g := d.newGroup name createdAt
  if h : name ∈ d.groups.map Group.name then none
  else
    some
      { d with
        groups := d.groups ++ [g]
        lastGroupId := g.id
        constraints := Tables.Constraints.insertGroup d.constraints g rfl h }

theorem Tables.Constraints.deleteGroup {t : Tables} (h : t.Constraints) (groupId : Nat) :
    { t with groups := t.groups.filter fun g => g.id ≠ groupId }.Constraints :=
  { h with
    groupIds := h.groupIds.sublist (List.filter_sublist.map _)
    groupNames := h.groupNames.sublist (List.filter_sublist.map _)
    groupSequence := by
      intro g hg
      exact h.groupSequence g (List.mem_filter.mp hg).1 }

/-- `DELETE FROM groups WHERE id = ?` -/
def deleteGroupRow (d : Database) (groupId : Nat) : Option Database :=
  if (d.groupById groupId).isSome then
    some
      { d with
        groups := d.groups.filter fun g => g.id ≠ groupId
        constraints := Tables.Constraints.deleteGroup d.constraints groupId }
  else none

theorem Tables.Constraints.insertMembership {t : Tables} (h : t.Constraints) (m : Membership)
    (hnew : m ∉ t.memberships) : { t with memberships := t.memberships ++ [m] }.Constraints :=
  { h with memberships := by simpa using h.memberships.concat hnew }

def insertMembership (d : Database) (m : Membership) : Option Database :=
  if h : m ∈ d.memberships then none
  else
    some
      { d with
        memberships := d.memberships ++ [m]
        constraints := Tables.Constraints.insertMembership d.constraints m h }

theorem Tables.Constraints.deleteMemberships {t : Tables} (h : t.Constraints) (which : Membership → Bool) :
    { t with memberships := t.memberships.filter fun m => !which m }.Constraints :=
  { h with memberships := h.memberships.sublist List.filter_sublist }

/-- `DELETE FROM memberships WHERE ...` -/
def deleteMemberships (d : Database) (which : Membership → Bool) : Option Database :=
  if d.memberships.any which then
    some
      { d with
        memberships := d.memberships.filter fun m => !which m
        constraints := Tables.Constraints.deleteMemberships d.constraints which }
  else none

/-- `INSERT OR REPLACE INTO user_quota` -/
def replaceQuota (d : Database) (userId quotaBytes : Nat) : Database :=
  { d with
    userQuota := Function.update d.userQuota userId (some quotaBytes)
    constraints := { d.constraints with } }

theorem userById_eq_some (d : Database) (userId : Nat) (u : User) :
    d.userById userId = some u ↔ u ∈ d.users ∧ u.id = userId :=
  KeyedTable.find?_eq_some_iff User.id _ userId d.users d.constraints.userIds (by simp) u

theorem userById_congr {d d' : Database} (h : d'.users = d.users) (userId : Nat) :
    d'.userById userId = d.userById userId := by
  unfold userById
  rw [h]

theorem userByUsername_eq_some (d : Database) (username : String) (u : User) :
    d.userByUsername username = some u ↔ u ∈ d.users ∧ u.username = username :=
  KeyedTable.find?_eq_some_iff User.username _ username d.users d.constraints.usernames (by simp) u

theorem groupByName_eq_some (d : Database) (name : String) (g : Group) :
    d.groupByName name = some g ↔ g ∈ d.groups ∧ g.name = name :=
  KeyedTable.find?_eq_some_iff Group.name _ name d.groups d.constraints.groupNames (by simp) g

theorem usernameExists_iff (d : Database) (username : String) :
    d.usernameExists username = true ↔ username ∈ d.users.map User.username := by
  simp [usernameExists, List.any_eq_true, List.mem_map]

theorem identityOf_eq_some (d : Database) (provider subject : String) (e : ExternalIdentity) :
    d.identityOf provider subject = some e ↔
      e ∈ d.externalIdentities ∧ e.provider = provider ∧ e.subject = subject := by
  have hfind := KeyedTable.find?_eq_some_iff (fun e : ExternalIdentity => (e.provider, e.subject))
    (fun e => e.provider = provider ∧ e.subject = subject) (provider, subject) d.externalIdentities
    d.constraints.identities (by simp) e
  rw [Prod.mk.injEq] at hfind
  exact hfind

theorem userByExternalId_eq_some (d : Database) (provider subject : String) (u : User) :
    d.userByExternalId provider subject = some u ↔ u ∈ d.users ∧
      ∃ e ∈ d.externalIdentities, e.provider = provider ∧ e.subject = subject ∧ e.userId = u.id := by
  unfold userByExternalId
  rw [Option.bind_eq_some_iff]
  constructor
  · rintro ⟨e, he, hu⟩
    obtain ⟨hmem, hprovider, hsubject⟩ := (identityOf_eq_some d provider subject e).mp he
    obtain ⟨huser, hid⟩ := (userById_eq_some d e.userId u).mp hu
    exact ⟨huser, e, hmem, hprovider, hsubject, hid.symm⟩
  · rintro ⟨huser, e, hmem, hprovider, hsubject, hid⟩
    exact ⟨e, (identityOf_eq_some d provider subject e).mpr ⟨hmem, hprovider, hsubject⟩,
      (userById_eq_some d e.userId u).mpr ⟨huser, hid.symm⟩⟩

theorem insertUser_eq_some (d d' : Database) (username : String) (email : Option String)
    (passwordHash : Bytes) (createdAt : ℚ)
    (h : d.insertUser username email passwordHash createdAt = some d') :
    username ∉ d.users.map User.username ∧
      d'.toTables = { d.toTables with
        users := d.users ++ [d.newUser username email passwordHash createdAt]
        lastUserId := d.lastUserId + 1 } := by
  unfold insertUser at h
  simp only at h
  split at h
  · cases h
  · rename_i hnew
    cases h
    exact ⟨hnew, rfl⟩

theorem updateActive_eq_some (d d' : Database) (userId : Nat) (isActive : Bool)
    (h : d.updateActive userId isActive = some d') :
    d'.toTables = { d.toTables with users := d.users.map (setActive userId isActive) } := by
  unfold updateActive at h
  split at h
  · cases h
    rfl
  · cases h

theorem insertGroup_eq_some (d d' : Database) (name : String) (createdAt : ℚ)
    (h : d.insertGroup name createdAt = some d') :
    d'.toTables = { d.toTables with
      groups := d.groups ++ [d.newGroup name createdAt]
      lastGroupId := d.lastGroupId + 1 } := by
  unfold insertGroup at h
  simp only at h
  split at h
  · cases h
  · cases h
    rfl

theorem deleteGroupRow_eq_some (d d' : Database) (groupId : Nat) (h : d.deleteGroupRow groupId = some d') :
    d'.toTables = { d.toTables with groups := d.groups.filter fun g => g.id ≠ groupId } := by
  unfold deleteGroupRow at h
  split at h
  · cases h
    rfl
  · cases h

theorem insertIdentity_eq_some (d d' : Database) (e : ExternalIdentity) (h : d.insertIdentity e = some d') :
    d.identityOf e.provider e.subject = none ∧
      d'.toTables = { d.toTables with externalIdentities := d.externalIdentities ++ [e] } := by
  unfold insertIdentity at h
  split at h
  · cases h
  · rename_i hnew
    cases h
    refine ⟨?_, rfl⟩
    apply List.find?_eq_none.mpr
    intro e' he' hkey
    have hkey' : e'.provider = e.provider ∧ e'.subject = e.subject := by simpa using hkey
    exact hnew (List.mem_map.mpr ⟨e', he', by simp [hkey']⟩)

theorem insertMembership_eq_some (d d' : Database) (m : Membership) (h : d.insertMembership m = some d') :
    m ∉ d.memberships ∧ d'.toTables = { d.toTables with memberships := d.memberships ++ [m] } := by
  unfold insertMembership at h
  split at h
  · cases h
  · rename_i hnew
    cases h
    exact ⟨hnew, rfl⟩

theorem insertMembership_eq_none_iff (d : Database) (m : Membership) :
    d.insertMembership m = none ↔ m ∈ d.memberships := by
  unfold insertMembership
  split <;> simp_all

theorem deleteMemberships_eq_some (d d' : Database) (which : Membership → Bool)
    (h : d.deleteMemberships which = some d') :
    d'.toTables = { d.toTables with memberships := d.memberships.filter fun m => !which m } := by
  unfold deleteMemberships at h
  split at h
  · cases h
    rfl
  · cases h

theorem mem_childGroupIds (d : Database) (groupId child : Nat) :
    child ∈ d.childGroupIds groupId ↔ d.toStore.Contains (.group, child) (.group, groupId) := by
  simp only [childGroupIds, List.mem_map, List.mem_filter, decide_eq_true_eq, AccountStore.Contains, toStore,
    true_and]
  constructor
  · rintro ⟨m, ⟨hm, rfl, htype⟩, rfl⟩
    rw [← htype]
    exact hm
  · intro hm
    exact ⟨_, ⟨hm, rfl, rfl⟩, rfl⟩

end Database

end NetworkFileServer.Accounts
