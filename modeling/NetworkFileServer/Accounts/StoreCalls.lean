import NetworkFileServer.Accounts.Database
import NetworkFileServer.Framework.SharedTransaction
import NetworkFileServer.Framework.Worklist

/-!
# The calls of the account store

The methods of `SqliteAccountStore` that write, as positions at their awaits. All of them go through
one `aiosqlite` connection. A SELECT and the fetch of its rows are one statement. The clock and the
random sentinel of an SSO account are arguments here.
-/

namespace NetworkFileServer.Accounts

open Relay (SubjectType)
open Tunnel (Bytes)
open SharedTransaction (Await)

inductive StoreError where
  | valueError (message : String)
  | usernameTaken (username : String)
  | userNotFound (userId : Nat)
  | groupNameTaken (name : String)
  | groupNotFound (groupId : Nat)
  | groupCycle (groupId memberId : Nat)
  | duplicateMembership (m : Membership)
  | membershipNotFound (m : Membership)
deriving DecidableEq

/-- What a call returns. -/
inductive StoreResult where
  | user (u : User)
  | group (g : Group)
  | done
deriving DecidableEq

/-- The values of an `INSERT INTO users`. -/
structure NewUser where
  username : String
  email : Option String
  passwordHash : Bytes
  createdAt : ℚ
deriving DecidableEq

namespace NewUser

def insert (new : NewUser) (d : Database) : Option Database :=
  d.insertUser new.username new.email new.passwordHash new.createdAt

/-- The `User` with the id that the INSERT has given. -/
def row (new : NewUser) (d : Database) : User :=
  d.newUser new.username new.email new.passwordHash new.createdAt

end NewUser

/-- The awaits of the calls. -/
inductive StorePc where
  /-- `_username_exists` of `create_user`. -/
  | userExists (new : NewUser)
  | userInsert (new : NewUser)
  /-- `_username_exists` of `create_external_user`. -/
  | externalExists (provider subject : String) (new : NewUser)
  | externalInsertUser (provider subject : String) (new : NewUser)
  | externalInsertLink (provider subject : String) (user : User)
  /-- `userId` is the row of the first INSERT, if it was the second one that failed. -/
  | externalRollback (username : String) (userId : Option Nat)
  | activeUpdate (userId : Nat) (isActive : Bool)
  | groupNameExists (name : String) (createdAt : ℚ)
  | groupInsert (name : String) (createdAt : ℚ)
  | groupDelete (groupId : Nat)
  | groupDeleteContents (groupId : Nat)
  | groupDeleteParents (groupId : Nat)
  /-- `get_group_by_id(group_id)` of `add_member`. -/
  | memberGroup (m : Membership)
  | memberUser (m : Membership)
  | memberChild (m : Membership)
  /-- The SELECT of `_group_descendants` for the group `current`, with its local variables. -/
  | memberWalk (m : Membership) (current : Nat) (walk : Worklist.Walk Nat)
  | memberExists (m : Membership)
  | memberInsert (m : Membership)
  | memberDelete (m : Membership)
  | quotaUser (userId quotaBytes : Nat)
  | quotaReplace (userId quotaBytes : Nat)
  | commit (result : StoreResult)
  | returned (result : StoreResult)
  | raised (e : StoreError)
deriving DecidableEq

namespace StorePc

/-- A SELECT. -/
def select (next : Database → StorePc) : Await Database StorePc := .statement (fun _ => none) next

/-- A statement that goes on in one way if it has written and in another if it has not. -/
def write (statement : Database → Option Database) (written unwritten : Database → StorePc) :
    Await Database StorePc :=
  .statement statement fun d => if (statement d).isSome then written d else unwritten d

/-- The code between one await and the next. -/
def awaits : StorePc → Await Database StorePc
  | .userExists new =>
      select fun d =>
        if d.usernameExists new.username then .raised (.usernameTaken new.username) else .userInsert new
  | .userInsert new =>
      write new.insert (fun d => .commit (.user (new.row d))) fun _ => .raised (.usernameTaken new.username)
  | .externalExists provider subject new =>
      select fun d =>
        if d.usernameExists new.username then .raised (.usernameTaken new.username)
        else .externalInsertUser provider subject new
  | .externalInsertUser provider subject new =>
      write new.insert (fun d => .externalInsertLink provider subject (new.row d))
        fun _ => .externalRollback new.username none
  | .externalInsertLink provider subject user =>
      write (fun d => d.insertIdentity ⟨provider, subject, user.id, user.createdAt⟩)
        (fun _ => .commit (.user user)) fun _ => .externalRollback user.username (some user.id)
  | .externalRollback username _ => .rollback (.raised (.usernameTaken username))
  | .activeUpdate userId isActive =>
      write (fun d => d.updateActive userId isActive) (fun _ => .commit .done)
        fun _ => .raised (.userNotFound userId)
  | .groupNameExists name createdAt =>
      select fun d =>
        if d.groupNameExists name then .raised (.groupNameTaken name) else .groupInsert name createdAt
  | .groupInsert name createdAt =>
      write (fun d => d.insertGroup name createdAt) (fun d => .commit (.group (d.newGroup name createdAt)))
        fun _ => .raised (.groupNameTaken name)
  | .groupDelete groupId =>
      write (fun d => d.deleteGroupRow groupId) (fun _ => .groupDeleteContents groupId)
        fun _ => .raised (.groupNotFound groupId)
  | .groupDeleteContents groupId =>
      .statement (fun d => d.deleteMemberships fun m => m.groupId = groupId)
        fun _ => .groupDeleteParents groupId
  | .groupDeleteParents groupId =>
      .statement (fun d => d.deleteMemberships fun m => m.memberType = .group ∧ m.memberId = groupId)
        fun _ => .commit .done
  | .memberGroup m =>
      select fun d =>
        if (d.groupById m.groupId).isNone then .raised (.groupNotFound m.groupId)
        else
          match m.memberType with
          | .user => .memberUser m
          | .group => .memberChild m
  | .memberUser m =>
      select fun d =>
        if (d.userById m.memberId).isNone then .raised (.userNotFound m.memberId) else .memberExists m
  | .memberChild m =>
      select fun d =>
        if (d.groupById m.memberId).isNone then .raised (.groupNotFound m.memberId)
        else if m.memberId = m.groupId then .raised (.groupCycle m.groupId m.memberId)
        else .memberWalk m m.memberId ⟨[], []⟩
  | .memberWalk m current walk =>
      select fun d =>
        let walk := walk.visit (d.childGroupIds current)
        match walk.frontier with
        | next :: rest => .memberWalk m next { walk with frontier := rest }
        | [] =>
            if m.groupId ∈ walk.descendants then .raised (.groupCycle m.groupId m.memberId)
            else .memberExists m
  | .memberExists m =>
      select fun d => if d.membershipExists m then .raised (.duplicateMembership m) else .memberInsert m
  | .memberInsert m =>
      write (fun d => d.insertMembership m) (fun _ => .commit .done) fun _ => .raised (.duplicateMembership m)
  | .memberDelete m =>
      write (fun d => d.deleteMemberships fun m' => m' = m) (fun _ => .commit .done)
        fun _ => .raised (.membershipNotFound m)
  | .quotaUser userId quotaBytes =>
      select fun d =>
        if (d.userById userId).isNone then .raised (.userNotFound userId) else .quotaReplace userId quotaBytes
  | .quotaReplace userId quotaBytes =>
      .statement (fun d => some (d.replaceQuota userId quotaBytes)) fun _ => .commit .done
  | .commit result => .commit (.returned result)
  | .returned _ => .returned
  | .raised _ => .raised

end StorePc

/-- The calls with their arguments. -/
inductive StoreCall where
  | createUser (username : String) (passwordHash : Bytes) (email : Option String) (createdAt : ℚ)
  | createExternalUser (provider subject username : String) (email : Option String) (sentinel : Bytes)
      (createdAt : ℚ)
  | setUserActive (userId : Nat) (isActive : Bool)
  | createGroup (name : String) (createdAt : ℚ)
  | deleteGroup (groupId : Nat)
  | addMember (groupId : Nat) (memberType : SubjectType) (memberId : Nat)
  | removeMember (groupId : Nat) (memberType : SubjectType) (memberId : Nat)
  | setUserQuota (userId : Nat) (quotaBytes : ℤ)
deriving DecidableEq

namespace StoreCall

open StorePc

/-- From the first line of the method to its first await. -/
def entry : StoreCall → StorePc
  | .createUser username passwordHash email createdAt =>
      if Text.strip username = "" then .raised (.valueError "username must be a non-empty string")
      else if passwordHash = [] then .raised (.valueError "password_hash must be non-empty bytes")
      else .userExists ⟨Text.strip username, email, passwordHash, createdAt⟩
  | .createExternalUser provider subject username email sentinel createdAt =>
      if Text.strip username = "" then .raised (.valueError "username must be a non-empty string")
      else if provider = "" ∨ subject = "" then
        .raised (.valueError "provider and subject must be non-empty")
      else .externalExists provider subject ⟨Text.strip username, email, sentinel, createdAt⟩
  | .setUserActive userId isActive => .activeUpdate userId isActive
  | .createGroup name createdAt =>
      if Text.strip name = "" then .raised (.valueError "group name must be a non-empty string")
      else .groupNameExists (Text.strip name) createdAt
  | .deleteGroup groupId => .groupDelete groupId
  | .addMember groupId memberType memberId => .memberGroup ⟨groupId, memberType, memberId⟩
  | .removeMember groupId memberType memberId => .memberDelete ⟨groupId, memberType, memberId⟩
  | .setUserQuota userId quotaBytes =>
      if quotaBytes < 0 then .raised (.valueError "quota_bytes must be a non-negative integer")
      else .quotaUser userId quotaBytes.toNat

end StoreCall

/-- The calls of one `SqliteAccountStore`, interleaved at their awaits. -/
abbrev StoreConnection := SharedTransaction.Connection Database StorePc

def storeStep : StoreConnection → SharedTransaction.Action StoreCall → Option StoreConnection :=
  SharedTransaction.step StoreCall.entry StorePc.awaits

end NetworkFileServer.Accounts
