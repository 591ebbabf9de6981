import NetworkFileServer.Accounts.StoreCalls

/-!
# The account store, one call at a time

`create_user` and `create_external_user` with nobody else on the connection.
-/

namespace NetworkFileServer.Accounts

open Tunnel (Bytes)
open SharedTransaction (Alone advance)

namespace Database

def createUser (d : Database) (username : String) (passwordHash : Bytes) (email : Option String)
    (createdAt : ℚ) : Except StoreError (Database × User) :=
  if Text.strip username = "" then .error (.valueError "username must be a non-empty string")
  else if passwordHash = [] then .error (.valueError "password_hash must be non-empty bytes")
  else
    let new : NewUser := ⟨Text.strip username, email, passwordHash, createdAt⟩
    match new.insert d with
    | some d' => .ok (d', new.row d)
    | none => .error (.usernameTaken (Text.strip username))

def createExternalUser (d : Database) (provider subject username : String) (email : Option String)
    (sentinel : Bytes) (createdAt : ℚ) : Except StoreError (Database × User) :=
  if Text.strip username = "" then .error (.valueError "username must be a non-empty string")
  else if provider = "" ∨ subject = "" then .error (.valueError "provider and subject must be non-empty")
  else
    let new : NewUser := ⟨Text.strip username, email, sentinel, createdAt⟩
    match (new.insert d).bind fun d' => d'.insertIdentity ⟨provider, subject, (new.row d).id, createdAt⟩ with
    | some d' => .ok (d', new.row d)
    -- Taken, or already linked: the rollback takes the user back.
    | none => .error (.usernameTaken (Text.strip username))

end Database

/-- Where a call ends that has nobody beside it. -/
def ended (d : Database) : Except StoreError (Database × User) → Database × Database × StorePc
  | .ok (d', u) => (d', d', .returned (.user u))
  | .error e => (d, d, .raised e)

theorem NewUser.insert_eq_none_iff (new : NewUser) (d : Database) :
    new.insert d = none ↔ d.usernameExists new.username = true := by
  rw [Database.usernameExists_iff]
  unfold NewUser.insert Database.insertUser
  simp only
  split
  · rename_i h
    simp [h]
  · rename_i h
    simp [h]

theorem NewUser.usernameExists_of_insert (new : NewUser) (d d' : Database) (h : new.insert d = some d') :
    d.usernameExists new.username = false := by
  by_contra hexists
  rw [(new.insert_eq_none_iff d).mpr (by simpa using hexists)] at h
  cases h

theorem createUser_alone (d : Database) (username : String) (passwordHash : Bytes) (email : Option String)
    (createdAt : ℚ) :
    Alone StorePc.awaits (d, d, (StoreCall.createUser username passwordHash email createdAt).entry)
      (ended d (d.createUser username passwordHash email createdAt)) := by
  by_cases hblank : Text.strip username = ""
  · simp only [StoreCall.entry, Database.createUser, hblank, if_true]
    exact .refl
  by_cases hhash : passwordHash = []
  · simp only [StoreCall.entry, Database.createUser, hblank, hhash, if_true, if_false]
    exact .refl
  · simp only [StoreCall.entry, Database.createUser, hblank, hhash, if_false]
    generalize hnew : (⟨Text.strip username, email, passwordHash, createdAt⟩ : NewUser) = new
    have hname : Text.strip username = new.username := by rw [← hnew]
    cases hinsert : new.insert d with
    | none =>
        have hexists := (new.insert_eq_none_iff d).mp hinsert
        exact .single (by simp [advance, StorePc.awaits, StorePc.select, hexists, ended, hname])
    | some d' =>
        have hfree := new.usernameExists_of_insert d d' hinsert
        have hselect : advance StorePc.awaits (d, d, .userExists new) = some (d, d, .userInsert new) := by
          simp [advance, StorePc.awaits, StorePc.select, hfree]
        have hwrite : advance StorePc.awaits (d, d, .userInsert new) =
            some (d, d', .commit (.user (new.row d))) := by
          simp [advance, StorePc.awaits, StorePc.write, hinsert]
        have hcommit : advance StorePc.awaits (d, d', .commit (.user (new.row d))) =
            some (d', d', .returned (.user (new.row d))) := rfl
        exact .head hselect (.head hwrite (.single hcommit))

theorem createUser_run (d : Database) (username : String) (passwordHash : Bytes) (email : Option String)
    (createdAt : ℚ) :
    ∃ n t, TransitionSystem.run storeStep (SharedTransaction.connect d)
        (.start (.createUser username passwordHash email createdAt) :: List.replicate n (.resume 0)) =
          some t ∧
      (t.durable, t.current, t.calls) =
        let (durable, current, pc) := ended d (d.createUser username passwordHash email createdAt)
        (durable, current, [pc]) := by
  obtain ⟨n, t, hrun, hdurable, hcurrent, hcalls⟩ :=
    SharedTransaction.run_start_of_alone StoreCall.entry StorePc.awaits d
      (.createUser username passwordHash email createdAt) _ (createUser_alone d _ _ _ _)
  exact ⟨n, t, hrun, by rw [hdurable, hcurrent, hcalls]⟩

theorem createExternalUser_alone (d : Database) (provider subject username : String) (email : Option String)
    (sentinel : Bytes) (createdAt : ℚ) :
    Alone StorePc.awaits
      (d, d, (StoreCall.createExternalUser provider subject username email sentinel createdAt).entry)
      (ended d (d.createExternalUser provider subject username email sentinel createdAt)) := by
  by_cases hblank : Text.strip username = ""
  · simp only [StoreCall.entry, Database.createExternalUser, hblank, if_true]
    exact .refl
  by_cases hempty : provider = "" ∨ subject = ""
  · simp only [StoreCall.entry, Database.createExternalUser, hblank, hempty, if_true, if_false]
    exact .refl
  · simp only [StoreCall.entry, Database.createExternalUser, hblank, hempty, if_false]
    generalize hnew : (⟨Text.strip username, email, sentinel, createdAt⟩ : NewUser) = new
    have hname : Text.strip username = new.username := by rw [← hnew]
    have hcreated : createdAt = (new.row d).createdAt := by rw [← hnew]; rfl
    cases hinsert : new.insert d with
    | none =>
        have hexists := (new.insert_eq_none_iff d).mp hinsert
        exact .single (by simp [advance, StorePc.awaits, StorePc.select, hexists, ended, hname])
    | some d' =>
        have hfree := new.usernameExists_of_insert d d' hinsert
        have hselect : advance StorePc.awaits (d, d, .externalExists provider subject new) =
            some (d, d, .externalInsertUser provider subject new) := by
          simp [advance, StorePc.awaits, StorePc.select, hfree]
        have hwrite : advance StorePc.awaits (d, d, .externalInsertUser provider subject new) =
            some (d, d', .externalInsertLink provider subject (new.row d)) := by
          simp [advance, StorePc.awaits, StorePc.write, hinsert]
        rw [Option.bind_some, hcreated]
        cases hlink : d'.insertIdentity ⟨provider, subject, (new.row d).id, (new.row d).createdAt⟩ with
        | none =>
            have hrefused : advance StorePc.awaits (d, d', .externalInsertLink provider subject (new.row d)) =
                some (d, d', .externalRollback new.username (some (new.row d).id)) := by
              simp [advance, StorePc.awaits, StorePc.write, hlink]
              rfl
            have hrollback : advance StorePc.awaits
                (d, d', .externalRollback new.username (some (new.row d).id)) =
                some (d, d, .raised (.usernameTaken new.username)) := rfl
            rw [hname]
            exact .head hselect (.head hwrite (.head hrefused (.single hrollback)))
        | some d'' =>
            have hlinked : advance StorePc.awaits (d, d', .externalInsertLink provider subject (new.row d)) =
                some (d, d'', .commit (.user (new.row d))) := by
              simp [advance, StorePc.awaits, StorePc.write, hlink]
            have hcommit : advance StorePc.awaits (d, d'', .commit (.user (new.row d))) =
                some (d'', d'', .returned (.user (new.row d))) := rfl
            exact .head hselect (.head hwrite (.head hlinked (.single hcommit)))

end NetworkFileServer.Accounts
