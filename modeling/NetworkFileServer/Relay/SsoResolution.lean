import NetworkFileServer.Relay.SsoLogin

/-!
# The account of an SSO login

What `_resolve_or_create` keeps up: a user row and its link come and go together, and no two logins
work on the same row. Both rows are written in the transaction that all calls share, so this is only as
good as the rollbacks: they have to take back the rows of their own call and nothing else.
-/

namespace NetworkFileServer.Relay

open Accounts SharedTransaction

/-- The subject is linked to the account. -/
def Linked (d : Database) (sub : String) (userId : Nat) : Prop :=
  ∃ e ∈ d.externalIdentities, e.provider = ssoProvider ∧ e.subject = sub ∧ e.userId = userId

/-- No external identity is linked to the account. -/
def Unlinked (d : Database) (userId : Nat) : Prop := ∀ e ∈ d.externalIdentities, e.userId ≠ userId

/-- Every link leads to an account, and no two links to the same one. -/
structure WellLinked (d : Database) : Prop where
  target : ∀ e ∈ d.externalIdentities, ∃ u ∈ d.users, u.id = e.userId
  single : (d.externalIdentities.map ExternalIdentity.userId).Nodup

namespace LoginPc

/-- The user row that the call has inserted. -/
def rowId : LoginPc → Option Nat
  | .signup (.commit (.user u)) | .signup (.returned (.user u)) => some u.id
  | .creating _ _ (.externalInsertLink _ _ u) | .creating _ _ (.commit (.user u)) => some u.id
  | .creating _ _ (.externalRollback _ userId) => userId
  | _ => none

/-- What is true of a call at its position, in the committed and in the current database. -/
def Ok (durable current : Database) : LoginPc → Prop
  | .signup (.userExists _) | .signup (.userInsert _) | .signup (.raised _) => True
  | .signup (.commit (.user u)) | .signup (.returned (.user u)) => u ∈ current.users ∧ Unlinked current u.id
  | .lookup _ | .relookup _ _ | .failed _ => True
  | .creating login _ (.externalExists provider subject _)
  | .creating login _ (.externalInsertUser provider subject _) => provider = ssoProvider ∧ subject = login.sub
  | .creating login _ (.externalInsertLink provider subject u) =>
      provider = ssoProvider ∧ subject = login.sub ∧ u ∈ current.users ∧ Unlinked current u.id
  | .creating _ _ (.externalRollback _ none) => True
  | .creating _ _ (.externalRollback _ (some userId)) =>
      (∃ u ∈ current.users, u.id = userId) ∧ Unlinked current userId
  | .creating login _ (.commit (.user u)) => u ∈ current.users ∧ Linked current login.sub u.id
  | .resolved login u => u ∈ durable.users ∧ Linked durable login.sub u.id
  | _ => False

theorem Ok.row {durable current : Database} {p : LoginPc} (h : p.Ok durable current) {userId : Nat}
    (hrow : p.rowId = some userId) : ∃ u ∈ current.users, u.id = userId := by
  unfold rowId at hrow
  split at hrow
  · cases hrow
    exact ⟨_, h.1, rfl⟩
  · cases hrow
    exact ⟨_, h.1, rfl⟩
  · cases hrow
    exact ⟨_, h.2.2.1, rfl⟩
  · cases hrow
    exact ⟨_, h.1, rfl⟩
  · subst hrow
    exact h.1
  · cases hrow

theorem Ok.transfer {durable current durable' current' : Database} {p : LoginPc}
    (h : p.Ok durable current)
    (husers : ∀ u ∈ current.users, p.rowId = some u.id → u ∈ current'.users)
    (hlinks : ∀ e ∈ current.externalIdentities, p.rowId = some e.userId → e ∈ current'.externalIdentities)
    (hunlinked : ∀ userId, p.rowId = some userId → Unlinked current userId → Unlinked current' userId)
    (hdurable : ∀ u ∈ durable.users, u ∈ durable'.users)
    (hdurableLinks : ∀ e ∈ durable.externalIdentities, e ∈ durable'.externalIdentities) :
    p.Ok durable' current' := by
  unfold Ok at h ⊢
  split at h
  all_goals first
    | trivial
    | exact h
    | exact ⟨husers _ h.1 rfl, hunlinked _ rfl h.2⟩
    | exact ⟨h.1, h.2.1, husers _ h.2.2.1 rfl, hunlinked _ rfl h.2.2.2⟩
    | skip
  · obtain ⟨⟨u, hu, rfl⟩, hfree⟩ := h
    exact ⟨⟨u, husers u hu rfl, rfl⟩, hunlinked _ rfl hfree⟩
  · obtain ⟨hu, e, he, hprovider, hsubject, hid⟩ := h
    exact ⟨husers _ hu rfl, e, hlinks e he (by simp [rowId, hid]), hprovider, hsubject, hid⟩
  · obtain ⟨hu, e, he, hlink⟩ := h
    exact ⟨hdurable _ hu, e, hdurableLinks e he, hlink⟩

end LoginPc

/-- The account is a password account: it was there without a link, or a sign-up has inserted it. -/
def PasswordAccount (initial : Database) (s : LoginConnection) (userId : Nat) : Prop :=
  (∃ u ∈ initial.users, u.id = userId ∧ Unlinked initial u.id) ∨
    ∃ (i : Nat) (u : User), u.id = userId ∧
      (s.calls[i]? = some (.signup (.commit (.user u))) ∨ s.calls[i]? = some (.signup (.returned (.user u))))

/-- A callback has inserted the row, and neither linked it nor rolled it back yet. -/
def InProgress (s : LoginConnection) (userId : Nat) : Prop :=
  ∃ (i : Nat) (login : SsoLogin) (attempt : Nat),
    (∃ provider subject u, u.id = userId ∧
      s.calls[i]? = some (.creating login attempt (.externalInsertLink provider subject u))) ∨
    ∃ username, s.calls[i]? = some (.creating login attempt (.externalRollback username (some userId)))

/-- What SSO account resolution promises, in one state. -/
structure SsoSound (initial : Database) (s : LoginConnection) : Prop where
  linked : ∀ (i : Nat) login u, s.calls[i]? = some (.resolved login u) →
    u ∈ s.durable.users ∧ Linked s.durable login.sub u.id
  sameSub : ∀ (i j : Nat) login login' u u', s.calls[i]? = some (.resolved login u) →
    s.calls[j]? = some (.resolved login' u') → login.sub = login'.sub → u.id = u'.id
  differentSub : ∀ (i j : Nat) login login' u u', s.calls[i]? = some (.resolved login u) →
    s.calls[j]? = some (.resolved login' u') → login.sub ≠ login'.sub → u.id ≠ u'.id
  notPassword : ∀ (i : Nat) login u, s.calls[i]? = some (.resolved login u) → ¬ PasswordAccount initial s u.id
  noOrphan : ∀ u ∈ s.current.users, Unlinked s.current u.id →
    PasswordAccount initial s u.id ∨ InProgress s u.id

/-- A callback adopts a linked account only if the link is committed. -/
def CommittedLookup (s : LoginConnection) : Action LoginRequest → Prop
  | .start _ => True
  | .resume i =>
      match s.calls[i]? with
      | some (.lookup login) | some (.relookup login _) =>
          ∀ user ∈ s.current.userByExternalId ssoProvider login.sub,
            s.durable.userByExternalId ssoProvider login.sub = some user
      | _ => True

/-- The call has inserted the row and not taken it back. -/
def Holds (s : LoginConnection) (i : Nat) (userId : Nat) : Prop :=
  ∃ p, s.calls[i]? = some p ∧ p.rowId = some userId

structure SsoInv (initial : Database) (s : LoginConnection) : Prop where
  initialUsers : ∀ u ∈ initial.users, u ∈ s.durable.users
  durableUsers : ∀ u ∈ s.durable.users, u ∈ s.current.users
  durableLinks : ∀ e ∈ s.durable.externalIdentities, e ∈ s.current.externalIdentities
  durableLinked : WellLinked s.durable
  currentLinked : WellLinked s.current
  position : ∀ (i : Nat) p, s.calls[i]? = some p → p.Ok s.durable s.current
  apart : ∀ i j userId, Holds s i userId → Holds s j userId → i = j
  added : ∀ i userId, Holds s i userId → ∀ u ∈ initial.users, u.id ≠ userId
  /-- The write of a row is in the logs, and if the row is committed, so is the write. -/
  wrote : ∀ i userId, Holds s i userId → ∃ w, w.owner = i ∧ (w ∈ s.pending ∨ w ∈ s.committed)
  wroteDurable : ∀ i, ∀ u ∈ s.durable.users, Holds s i u.id → ∃ w ∈ s.committed, w.owner = i
  /-- What is not committed belongs to a call with an open write. -/
  newUsers : ∀ u ∈ s.current.users, u ∈ s.durable.users ∨ ∃ w ∈ s.pending, Holds s w.owner u.id
  newLinks : ∀ e ∈ s.current.externalIdentities, e ∈ s.durable.externalIdentities ∨
    ∃ w ∈ s.pending, Holds s w.owner e.userId
  initialUnlinked : ∀ u ∈ initial.users, Unlinked initial u.id → Unlinked s.current u.id
  accounted : ∀ u ∈ s.current.users, ¬ Unlinked s.current u.id ∨
    (u ∈ initial.users ∧ Unlinked initial u.id) ∨ ∃ i, Holds s i u.id

namespace LoginPc

theorem create_ok (durable current : Database) (login : SsoLogin) (i : Nat) :
    (create login i).Ok durable current ∧ (create login i).rowId = none := by
  unfold create StoreCall.entry
  simp only
  split
  · exact ⟨trivial, rfl⟩
  · split
    · exact ⟨trivial, rfl⟩
    · exact ⟨⟨rfl, rfl⟩, rfl⟩

theorem entry_ok (isAlnum : Char → Bool) (durable current : Database) (request : LoginRequest) :
    (request.entry isAlnum).Ok durable current ∧ (request.entry isAlnum).rowId = none := by
  cases request with
  | signup username passwordHash email createdAt =>
      simp only [LoginRequest.entry, StoreCall.entry]
      split
      · exact ⟨trivial, rfl⟩
      · split
        · exact ⟨trivial, rfl⟩
        · exact ⟨trivial, rfl⟩
  | callback sub claims sentinel createdAt => exact ⟨trivial, rfl⟩

private theorem lookup_ok (durable current : Database) (login : SsoLogin) (otherwise : LoginPc)
    (hother : otherwise.Ok durable current ∧ otherwise.rowId = none)
    (hlookup : ∀ user ∈ current.userByExternalId ssoProvider login.sub,
      durable.userByExternalId ssoProvider login.sub = some user) :
    (match current.userByExternalId ssoProvider login.sub with
      | some user => LoginPc.resolved login user
      | none => otherwise).Ok durable current ∧
    (match current.userByExternalId ssoProvider login.sub with
      | some user => LoginPc.resolved login user
      | none => otherwise).rowId = none := by
  cases hfound : current.userByExternalId ssoProvider login.sub with
  | none => exact hother
  | some user =>
      have hcommitted := hlookup user (by simp [hfound])
      exact ⟨(durable.userByExternalId_eq_some ssoProvider login.sub user).mp hcommitted, rfl⟩

theorem ok_of_read (s : LoginConnection) (i : Nat) (p : LoginPc) (hp : s.calls[i]? = some p)
    (h : p.Ok s.durable s.current) (hlookup : CommittedLookup s (.resume i))
    (statement : Database → Option Database) (next : Database → LoginPc)
    (hawaits : p.awaits = .statement statement next) (hnone : statement s.current = none) :
    (next s.current).Ok s.durable s.current ∧ (next s.current).rowId = p.rowId := by
  cases p with
  | signup pc =>
      cases pc with
      | userExists new =>
          simp only [awaits, StorePc.awaits, StorePc.select, Await.map, Await.statement.injEq] at hawaits
          obtain ⟨rfl, rfl⟩ := hawaits
          simp only
          split <;> exact ⟨trivial, rfl⟩
      | userInsert new =>
          simp only [awaits, StorePc.awaits, StorePc.write, Await.map, Await.statement.injEq] at hawaits
          obtain ⟨rfl, rfl⟩ := hawaits
          simp only [hnone]
          exact ⟨trivial, rfl⟩
      | commit result => simp [awaits, StorePc.awaits, Await.map] at hawaits
      | returned result => simp [awaits, StorePc.awaits, Await.map] at hawaits
      | raised e => simp [awaits, StorePc.awaits, Await.map] at hawaits
      | _ => exact absurd h (by simp [Ok])
  | lookup login =>
      simp only [awaits, Await.statement.injEq] at hawaits
      obtain ⟨-, rfl⟩ := hawaits
      simp only [CommittedLookup, hp] at hlookup
      exact lookup_ok s.durable s.current login _ (create_ok _ _ login 0) hlookup
  | relookup login attempt =>
      simp only [awaits, Await.statement.injEq] at hawaits
      obtain ⟨-, rfl⟩ := hawaits
      simp only [CommittedLookup, hp] at hlookup
      apply lookup_ok s.durable s.current login _ _ hlookup
      split
      · exact create_ok _ _ login (attempt + 1)
      · exact ⟨trivial, rfl⟩
  | creating login attempt pc =>
      cases pc with
      | externalExists provider subject new =>
          simp only [awaits, StorePc.awaits, StorePc.select, Await.map, Await.statement.injEq] at hawaits
          obtain ⟨rfl, rfl⟩ := hawaits
          simp only
          split
          · exact ⟨trivial, rfl⟩
          · exact ⟨h, rfl⟩
      | externalInsertUser provider subject new =>
          simp only [awaits, StorePc.awaits, StorePc.write, Await.map, Await.statement.injEq] at hawaits
          obtain ⟨rfl, rfl⟩ := hawaits
          simp only [hnone]
          exact ⟨trivial, rfl⟩
      | externalInsertLink provider subject u =>
          simp only [awaits, StorePc.awaits, StorePc.write, Await.map, Await.statement.injEq] at hawaits
          obtain ⟨rfl, rfl⟩ := hawaits
          simp only [hnone]
          exact ⟨⟨⟨u, h.2.2.1, rfl⟩, h.2.2.2⟩, rfl⟩
      | externalRollback _ _ => simp [awaits, StorePc.awaits, Await.map] at hawaits
      | commit result => simp [awaits, StorePc.awaits, Await.map] at hawaits
      | _ => exact absurd h (by simp [Ok])
  | resolved login u => simp [awaits] at hawaits
  | failed e => simp [awaits] at hawaits

theorem write_cases (durable current d : Database) (p : LoginPc) (h : p.Ok durable current)
    (statement : Database → Option Database) (next : Database → LoginPc)
    (hawaits : p.awaits = .statement statement next) (hsome : statement current = some d) :
    (∃ new : NewUser, p.rowId = none ∧ new.insert current = some d ∧
      (next current).rowId = some (new.row current).id ∧
      ((new.row current) ∈ d.users → Unlinked d (new.row current).id → (next current).Ok durable d)) ∨
    ∃ login attempt u createdAt, p.rowId = some u.id ∧ u ∈ current.users ∧ Unlinked current u.id ∧
      current.insertIdentity ⟨ssoProvider, login.sub, u.id, createdAt⟩ = some d ∧
      next current = .creating login attempt (.commit (.user u)) := by
  cases p with
  | signup pc =>
      cases pc with
      | userExists new =>
          simp only [awaits, StorePc.awaits, StorePc.select, Await.map, Await.statement.injEq] at hawaits
          obtain ⟨rfl, -⟩ := hawaits
          cases hsome
      | userInsert new =>
          simp only [awaits, StorePc.awaits, StorePc.write, Await.map, Await.statement.injEq] at hawaits
          obtain ⟨rfl, rfl⟩ := hawaits
          refine .inl ⟨new, rfl, hsome, ?_, ?_⟩
          · simp only [hsome]
            rfl
          · intro hrow hfree
            simp only [hsome]
            exact ⟨hrow, hfree⟩
      | commit result => simp [awaits, StorePc.awaits, Await.map] at hawaits
      | returned result => simp [awaits, StorePc.awaits, Await.map] at hawaits
      | raised e => simp [awaits, StorePc.awaits, Await.map] at hawaits
      | _ => exact absurd h (by simp [Ok])
  | lookup login =>
      simp only [awaits, Await.statement.injEq] at hawaits
      obtain ⟨rfl, -⟩ := hawaits
      cases hsome
  | relookup login attempt =>
      simp only [awaits, Await.statement.injEq] at hawaits
      obtain ⟨rfl, -⟩ := hawaits
      cases hsome
  | creating login attempt pc =>
      cases pc with
      | externalExists provider subject new =>
          simp only [awaits, StorePc.awaits, StorePc.select, Await.map, Await.statement.injEq] at hawaits
          obtain ⟨rfl, -⟩ := hawaits
          cases hsome
      | externalInsertUser provider subject new =>
          simp only [awaits, StorePc.awaits, StorePc.write, Await.map, Await.statement.injEq] at hawaits
          obtain ⟨rfl, rfl⟩ := hawaits
          refine .inl ⟨new, rfl, hsome, ?_, ?_⟩
          · simp only [hsome]
            rfl
          · intro hrow hfree
            simp only [hsome]
            exact ⟨h.1, h.2, hrow, hfree⟩
      | externalInsertLink provider subject u =>
          simp only [awaits, StorePc.awaits, StorePc.write, Await.map, Await.statement.injEq] at hawaits
          obtain ⟨rfl, rfl⟩ := hawaits
          obtain ⟨rfl, rfl, hu, hfree⟩ := h
          refine .inr ⟨login, attempt, u, u.createdAt, rfl, hu, hfree, hsome, ?_⟩
          simp only [hsome]
          rfl
      | externalRollback _ _ => simp [awaits, StorePc.awaits, Await.map] at hawaits
      | commit result => simp [awaits, StorePc.awaits, Await.map] at hawaits
      | _ => exact absurd h (by simp [Ok])
  | resolved login u => simp [awaits] at hawaits
  | failed e => simp [awaits] at hawaits

theorem commit_cases (durable current : Database) (p next : LoginPc) (h : p.Ok durable current)
    (hawaits : p.awaits = .commit next) : next.Ok current current ∧
      ∃ u : User, p.rowId = some u.id ∧
        (next.rowId = p.rowId ∨ next.rowId = none ∧ ¬ Unlinked current u.id) := by
  cases p with
  | signup pc =>
      cases pc with
      | commit result =>
          simp only [awaits, StorePc.awaits, Await.map, Await.commit.injEq] at hawaits
          subst hawaits
          cases result with
          | user u => exact ⟨h, u, rfl, .inl rfl⟩
          | _ => exact absurd h (by simp [Ok])
      | userExists new => simp [awaits, StorePc.awaits, StorePc.select, Await.map] at hawaits
      | userInsert new => simp [awaits, StorePc.awaits, StorePc.write, Await.map] at hawaits
      | returned result => simp [awaits, StorePc.awaits, Await.map] at hawaits
      | raised e => simp [awaits, StorePc.awaits, Await.map] at hawaits
      | _ => exact absurd h (by simp [Ok])
  | creating login attempt pc =>
      cases pc with
      | commit result =>
          simp only [awaits, StorePc.awaits, Await.map, Await.commit.injEq] at hawaits
          subst hawaits
          cases result with
          | user u =>
              obtain ⟨e, he, hprovider, hsubject, hid⟩ := h.2
              exact ⟨h, u, rfl, .inr ⟨rfl, fun hfree => hfree e he hid⟩⟩
          | _ => exact absurd h (by simp [Ok])
      | externalExists _ _ _ => simp [awaits, StorePc.awaits, StorePc.select, Await.map] at hawaits
      | externalInsertUser _ _ _ => simp [awaits, StorePc.awaits, StorePc.write, Await.map] at hawaits
      | externalInsertLink _ _ _ => simp [awaits, StorePc.awaits, StorePc.write, Await.map] at hawaits
      | externalRollback _ _ => simp [awaits, StorePc.awaits, Await.map] at hawaits
      | _ => exact absurd h (by simp [Ok])
  | lookup _ | relookup _ _ | resolved _ _ | failed _ => simp [awaits] at hawaits

theorem rollback_cases (durable current : Database) (p next : LoginPc) (h : p.Ok durable current)
    (hawaits : p.awaits = .rollback next) : (∃ login attempt, next = .relookup login attempt) ∧
      ∀ userId, p.rowId = some userId → Unlinked current userId := by
  cases p with
  | creating login attempt pc =>
      cases pc with
      | externalRollback username userId =>
          simp only [awaits, StorePc.awaits, Await.map, Await.rollback.injEq] at hawaits
          refine ⟨⟨login, attempt, hawaits.symm⟩, ?_⟩
          intro x hx
          obtain rfl : userId = some x := hx
          exact h.2
      | commit result => simp [awaits, StorePc.awaits, Await.map] at hawaits
      | externalExists _ _ _ => simp [awaits, StorePc.awaits, StorePc.select, Await.map] at hawaits
      | externalInsertUser _ _ _ => simp [awaits, StorePc.awaits, StorePc.write, Await.map] at hawaits
      | externalInsertLink _ _ _ => simp [awaits, StorePc.awaits, StorePc.write, Await.map] at hawaits
      | _ => exact absurd h (by simp [Ok])
  | signup pc =>
      cases pc with
      | userExists new => simp [awaits, StorePc.awaits, StorePc.select, Await.map] at hawaits
      | userInsert new => simp [awaits, StorePc.awaits, StorePc.write, Await.map] at hawaits
      | commit result => simp [awaits, StorePc.awaits, Await.map] at hawaits
      | returned result => simp [awaits, StorePc.awaits, Await.map] at hawaits
      | raised e => simp [awaits, StorePc.awaits, Await.map] at hawaits
      | _ => exact absurd h (by simp [Ok])
  | lookup _ | relookup _ _ | resolved _ _ | failed _ => simp [awaits] at hawaits

end LoginPc

theorem ssoInv_connect (d : Database) (hd : WellLinked d) : SsoInv d (connect d : LoginConnection) where
  initialUsers := fun _ hu => hu
  durableUsers := fun _ hu => hu
  durableLinks := fun _ he => he
  durableLinked := hd
  currentLinked := hd
  position := by simp [connect]
  apart := by simp [Holds, connect]
  added := by simp [Holds, connect]
  wrote := by simp [Holds, connect]
  wroteDurable := by simp [Holds, connect]
  newUsers := fun _ hu => .inl hu
  newLinks := fun _ he => .inl he
  initialUnlinked := fun _ _ hfree => hfree
  accounted := by
    intro u hu
    by_cases hfree : Unlinked d u.id
    · exact .inr (.inl ⟨hu, hfree⟩)
    · exact .inl hfree

theorem Holds.row {initial : Database} {s : LoginConnection} (hs : SsoInv initial s) {i userId : Nat}
    (h : Holds s i userId) : ∃ u ∈ s.current.users, u.id = userId := by
  obtain ⟨p, hp, hid⟩ := h
  exact (hs.position i p hp).row hid

theorem holds_set {s t : LoginConnection} {i : Nat} {p q : LoginPc} (hp : s.calls[i]? = some p)
    (hcalls : t.calls = s.calls.set i q) (j userId : Nat) :
    Holds t j userId ↔ (j = i ∧ q.rowId = some userId) ∨ (j ≠ i ∧ Holds s j userId) := by
  have hlt : i < s.calls.length := (List.getElem?_eq_some_iff.mp hp).1
  unfold Holds
  rw [hcalls]
  by_cases hij : j = i
  · subst hij
    simp [hlt]
  · rw [List.getElem?_set_ne (Ne.symm hij)]
    simp [hij]

theorem ssoInv_sameRows (initial : Database) (s t : LoginConnection) (hs : SsoInv initial s)
    (ht : t = { s with calls := t.calls }) (hholds : ∀ i userId, Holds t i userId ↔ Holds s i userId)
    (hposition : ∀ (i : Nat) p, t.calls[i]? = some p → p.Ok t.durable t.current) : SsoInv initial t := by
  have hdurable : t.durable = s.durable := by rw [ht]
  have hcurrent : t.current = s.current := by rw [ht]
  have hpending : t.pending = s.pending := by rw [ht]
  have hcommitted : t.committed = s.committed := by rw [ht]
  constructor
  case position => exact hposition
  all_goals simp only [hholds, hdurable, hcurrent, hpending, hcommitted]
  · exact hs.initialUsers
  · exact hs.durableUsers
  · exact hs.durableLinks
  · exact hs.durableLinked
  · exact hs.currentLinked
  · exact hs.apart
  · exact hs.added
  · exact hs.wrote
  · exact hs.wroteDurable
  · exact hs.newUsers
  · exact hs.newLinks
  · exact hs.initialUnlinked
  · exact hs.accounted

theorem ssoInv_start (initial : Database) (s : LoginConnection) (hs : SsoInv initial s) (p : LoginPc)
    (hok : p.Ok s.durable s.current) (hrow : p.rowId = none) :
    SsoInv initial { s with calls := s.calls ++ [p] } := by
  apply ssoInv_sameRows initial s _ hs rfl
  · intro i userId
    constructor
    · rintro ⟨q, hq, hid⟩
      rcases TransitionSystem.getElem?_concat_cases hq with hold | ⟨-, rfl⟩
      · exact ⟨q, hold, hid⟩
      · rw [hrow] at hid
        cases hid
    · rintro ⟨q, hq, hid⟩
      refine ⟨q, ?_, hid⟩
      rw [List.getElem?_append_left (List.getElem?_eq_some_iff.mp hq).1]
      exact hq
  · intro i q hq
    rcases TransitionSystem.getElem?_concat_cases hq with hold | ⟨-, rfl⟩
    · exact hs.position i q hold
    · exact hok

theorem ssoInv_read (initial : Database) (s : LoginConnection) (hs : SsoInv initial s) (i : Nat)
    (p q : LoginPc) (hp : s.calls[i]? = some p) (hok : q.Ok s.durable s.current) (hrow : q.rowId = p.rowId) :
    SsoInv initial { s with calls := s.calls.set i q } := by
  apply ssoInv_sameRows initial s _ hs rfl
  · intro j userId
    rw [holds_set hp rfl]
    by_cases hij : j = i
    · subst hij
      simp [Holds, hp, hrow]
    · simp [hij]
  · intro j r hr
    rcases TransitionSystem.getElem?_set_cases hr with ⟨-, rfl⟩ | ⟨-, hold⟩
    · exact hok
    · exact hs.position j r hold

theorem insert_row (current d : Database) (new : NewUser) (hd : new.insert current = some d) :
    d.users = current.users ++ [new.row current] ∧ d.externalIdentities = current.externalIdentities ∧
      ∀ u ∈ current.users, u.id ≠ (new.row current).id := by
  obtain ⟨-, htables⟩ := current.insertUser_eq_some d _ _ _ _ hd
  refine ⟨by simp only [htables]; rfl, by simp only [htables], ?_⟩
  intro u hu
  have hle := current.constraints.userSequence u hu
  have hid : (new.row current).id = current.lastUserId + 1 := rfl
  omega

theorem unlinked_insert {current d : Database} {new : NewUser} (hlinked : WellLinked current)
    (hd : new.insert current = some d) : Unlinked d (new.row current).id := by
  obtain ⟨-, hlinks, hfresh⟩ := insert_row current d new hd
  intro e he
  rw [hlinks] at he
  obtain ⟨u, hu, hid⟩ := hlinked.target e he
  rw [← hid]
  exact hfresh u hu

theorem wellLinked_insert {current d : Database} {new : NewUser} (hlinked : WellLinked current)
    (hd : new.insert current = some d) : WellLinked d := by
  obtain ⟨husers, hlinks, -⟩ := insert_row current d new hd
  constructor
  · intro e he
    rw [hlinks] at he
    obtain ⟨u, hu, hid⟩ := hlinked.target e he
    exact ⟨u, by simp [husers, hu], hid⟩
  · rw [hlinks]
    exact hlinked.single

theorem LoginPc.Ok.insertUser {durable current d : Database} {new : NewUser} {p : LoginPc}
    (h : p.Ok durable current) (hd : new.insert current = some d) : p.Ok durable d := by
  obtain ⟨husers, hlinks, -⟩ := insert_row current d new hd
  apply h.transfer
  · intro u hu _
    simp [husers, hu]
  · intro e he _
    rw [hlinks]
    exact he
  · intro userId _ hfree
    unfold Unlinked
    rw [hlinks]
    exact hfree
  · exact fun _ hu => hu
  · exact fun _ he => he

theorem holds_insert {s t : LoginConnection} {i userId : Nat} {p q : LoginPc}
    (hp : s.calls[i]? = some p) (hnone : p.rowId = none) (hcalls : t.calls = s.calls.set i q)
    (hrow : q.rowId = some userId) (j id : Nat) :
    Holds t j id ↔ (j = i ∧ id = userId) ∨ Holds s j id := by
  have hfree : ¬ Holds s i id := by
    rintro ⟨r, hr, hid⟩
    rw [hp] at hr
    cases hr
    rw [hnone] at hid
    cases hid
  rw [holds_set hp hcalls, hrow, Option.some.injEq, eq_comm (a := userId)]
  by_cases hij : j = i
  · subst hij
    simp [hfree]
  · simp [hij]

theorem open_concat {s t : LoginConnection} (w : Write Database) (hpending : t.pending = s.pending ++ [w])
    (hholds : ∀ i userId, Holds s i userId → Holds t i userId) {userId : Nat}
    (h : ∃ w ∈ s.pending, Holds s w.owner userId) : ∃ w ∈ t.pending, Holds t w.owner userId := by
  obtain ⟨w', hw, hheld⟩ := h
  exact ⟨w', by simp [hpending, hw], hholds _ _ hheld⟩

theorem SsoInv.wrote_concat {initial : Database} {s : LoginConnection} (hs : SsoInv initial s)
    (w : Write Database) {i userId : Nat} (h : Holds s i userId) :
    ∃ w', w'.owner = i ∧ (w' ∈ s.pending ++ [w] ∨ w' ∈ s.committed) := by
  obtain ⟨w', howner, hw⟩ := hs.wrote i userId h
  rcases hw with hw | hw
  · exact ⟨w', howner, .inl (by simp [hw])⟩
  · exact ⟨w', howner, .inr hw⟩

theorem SsoInv.apart_insert {initial : Database} {s t : LoginConnection} (hs : SsoInv initial s)
    {i userId : Nat} (hfresh : ∀ u ∈ s.current.users, u.id ≠ userId)
    (hholds : ∀ j id, Holds t j id ↔ (j = i ∧ id = userId) ∨ Holds s j id) (j k id : Nat)
    (hj : Holds t j id) (hk : Holds t k id) : j = k := by
  have hold : ∀ l, ¬ Holds s l userId := by
    intro l h
    obtain ⟨u, hu, hid⟩ := h.row hs
    exact hfresh u hu hid
  rcases (hholds j id).mp hj with ⟨rfl, rfl⟩ | hj
  · rcases (hholds k id).mp hk with ⟨rfl, -⟩ | hk
    · rfl
    · exact absurd hk (hold k)
  · rcases (hholds k id).mp hk with ⟨-, rfl⟩ | hk
    · exact absurd hj (hold j)
    · exact hs.apart j k id hj hk

theorem ssoInv_insertUser (initial : Database) (s : LoginConnection) (hs : SsoInv initial s) (i : Nat)
    (p q : LoginPc) (hp : s.calls[i]? = some p) (hnone : p.rowId = none) (new : NewUser) (d : Database)
    (hd : new.insert s.current = some d) (hrow : q.rowId = some (new.row s.current).id)
    (hok : new.row s.current ∈ d.users → Unlinked d (new.row s.current).id → q.Ok s.durable d)
    (statement : Database → Option Database) :
    SsoInv initial { s with
      current := d, calls := s.calls.set i q, written := s.written ++ [⟨i, statement⟩],
      pending := s.pending ++ [⟨i, statement⟩] } := by
  obtain ⟨husers, hlinks, hfresh⟩ := insert_row s.current d new hd
  have hsub : ∀ u ∈ s.current.users, u ∈ d.users := by
    intro u hu
    simp [husers, hu]
  have hunlinked : ∀ userId, Unlinked d userId ↔ Unlinked s.current userId := by
    intro userId
    unfold Unlinked
    rw [hlinks]
  have hholds := holds_insert (t := { s with
      current := d, calls := s.calls.set i q, written := s.written ++ [⟨i, statement⟩],
      pending := s.pending ++ [⟨i, statement⟩] }) hp hnone rfl hrow
  have hkeep := fun j userId (h : Holds s j userId) => (hholds j userId).mpr (.inr h)
  have hself := (hholds i (new.row s.current).id).mpr (.inl ⟨rfl, rfl⟩)
  constructor
  case initialUsers => exact hs.initialUsers
  case durableUsers => exact fun u hu => hsub u (hs.durableUsers u hu)
  case durableLinks =>
    rw [hlinks]
    exact hs.durableLinks
  case durableLinked => exact hs.durableLinked
  case currentLinked => exact wellLinked_insert hs.currentLinked hd
  case position =>
    intro j r hr
    rcases TransitionSystem.getElem?_set_cases hr with ⟨-, rfl⟩ | ⟨-, hold⟩
    · exact hok (by simp [husers]) (unlinked_insert hs.currentLinked hd)
    · exact (hs.position j r hold).insertUser hd
  case apart => exact hs.apart_insert hfresh hholds
  case added =>
    intro j userId hj u hu
    rcases (hholds j userId).mp hj with ⟨-, rfl⟩ | hj
    · exact hfresh u (hs.durableUsers u (hs.initialUsers u hu))
    · exact hs.added j userId hj u hu
  case wrote =>
    intro j userId hj
    rcases (hholds j userId).mp hj with ⟨rfl, -⟩ | hj
    · exact ⟨⟨j, statement⟩, rfl, .inl (by simp)⟩
    · exact hs.wrote_concat _ hj
  case wroteDurable =>
    intro j u hu hj
    rcases (hholds j u.id).mp hj with ⟨-, hid⟩ | hj
    · exact absurd hid (hfresh u (hs.durableUsers u hu))
    · exact hs.wroteDurable j u hu hj
  case newUsers =>
    intro u hu
    rw [husers, List.mem_append, List.mem_singleton] at hu
    rcases hu with hu | rfl
    · exact (hs.newUsers u hu).imp_right (open_concat _ rfl hkeep)
    · exact .inr ⟨⟨i, statement⟩, by simp, hself⟩
  case newLinks =>
    intro e he
    rw [hlinks] at he
    exact (hs.newLinks e he).imp_right (open_concat _ rfl hkeep)
  case initialUnlinked =>
    intro u hu hfree
    exact (hunlinked u.id).mpr (hs.initialUnlinked u hu hfree)
  case accounted =>
    intro u hu
    rw [husers, List.mem_append, List.mem_singleton] at hu
    rcases hu with hu | rfl
    · rw [hunlinked]
      exact (hs.accounted u hu).imp_right (Or.imp_right fun ⟨j, h⟩ => ⟨j, hkeep j _ h⟩)
    · exact .inr (.inr ⟨i, hself⟩)

section InsertLink

variable {current d : Database} {e : ExternalIdentity} (hd : current.insertIdentity e = some d)

theorem insertIdentity_tables (hd : current.insertIdentity e = some d) :
    d.users = current.users ∧ d.externalIdentities = current.externalIdentities ++ [e] := by
  obtain ⟨-, htables⟩ := current.insertIdentity_eq_some d e hd
  simp [htables]

include hd

theorem unlinked_insertIdentity (userId : Nat) :
    Unlinked d userId ↔ Unlinked current userId ∧ e.userId ≠ userId := by
  unfold Unlinked
  rw [(insertIdentity_tables hd).2]
  simp [or_imp, forall_and]

theorem wellLinked_insertIdentity (hlinked : WellLinked current)
    (htarget : ∃ u ∈ current.users, u.id = e.userId) (hfree : Unlinked current e.userId) :
    WellLinked d := by
  obtain ⟨husers, hlinks⟩ := insertIdentity_tables hd
  constructor
  · intro e' he
    rw [husers]
    rw [hlinks, List.mem_append, List.mem_singleton] at he
    rcases he with hold | rfl
    · exact hlinked.target e' hold
    · exact htarget
  · rw [hlinks]
    apply KeyedTable.nodup_concat ExternalIdentity.userId _ _ hlinked.single
    intro hin
    obtain ⟨e', he, hid⟩ := List.mem_map.mp hin
    exact hfree e' he hid

theorem LoginPc.Ok.insertIdentity {durable : Database} {p : LoginPc} (h : p.Ok durable current)
    (hother : p.rowId ≠ some e.userId) : p.Ok durable d := by
  obtain ⟨husers, hlinks⟩ := insertIdentity_tables hd
  apply h.transfer
  · intro u hu _
    rw [husers]
    exact hu
  · intro e' he _
    simp [hlinks, he]
  · intro userId hid hfree
    refine (unlinked_insertIdentity hd userId).mpr ⟨hfree, ?_⟩
    rintro rfl
    exact hother hid
  · exact fun _ hu => hu
  · exact fun _ he => he

end InsertLink

theorem ssoInv_insertLink (initial : Database) (s : LoginConnection) (hs : SsoInv initial s) (i : Nat)
    (p : LoginPc) (hp : s.calls[i]? = some p) (login : SsoLogin) (attempt : Nat) (u : User) (createdAt : ℚ)
    (hrow : p.rowId = some u.id) (hu : u ∈ s.current.users) (hfree : Unlinked s.current u.id) (d : Database)
    (hd : s.current.insertIdentity ⟨ssoProvider, login.sub, u.id, createdAt⟩ = some d)
    (statement : Database → Option Database) :
    SsoInv initial { s with
      current := d, calls := s.calls.set i (.creating login attempt (.commit (.user u))),
      written := s.written ++ [⟨i, statement⟩], pending := s.pending ++ [⟨i, statement⟩] } := by
  obtain ⟨husers, hlinks⟩ := insertIdentity_tables hd
  have hself : Holds s i u.id := ⟨p, hp, hrow⟩
  have hholds : ∀ j userId, Holds { s with
      current := d, calls := s.calls.set i (.creating login attempt (.commit (.user u))),
      written := s.written ++ [⟨i, statement⟩], pending := s.pending ++ [⟨i, statement⟩] } j userId ↔
      Holds s j userId := by
    intro j userId
    have hsame : (LoginPc.creating login attempt (.commit (.user u))).rowId = p.rowId := hrow.symm
    rw [holds_set hp rfl]
    by_cases hij : j = i
    · subst hij
      simp [Holds, hp, hsame]
    · simp [hij]
  have hkeep := fun j userId => (hholds j userId).mpr
  constructor
  case position =>
    intro j r hr
    rcases TransitionSystem.getElem?_set_cases hr with ⟨-, rfl⟩ | ⟨hne, hold⟩
    · refine ⟨husers ▸ hu, ⟨ssoProvider, login.sub, u.id, createdAt⟩, ?_, rfl, rfl, rfl⟩
      simp [hlinks]
    · apply (hs.position j r hold).insertIdentity hd
      intro hid
      exact hne (hs.apart j i u.id ⟨r, hold, hid⟩ hself)
  case newUsers =>
    intro v hv
    rw [husers] at hv
    exact (hs.newUsers v hv).imp_right (open_concat _ rfl hkeep)
  case newLinks =>
    intro e he
    rw [hlinks, List.mem_append, List.mem_singleton] at he
    rcases he with hold | rfl
    · exact (hs.newLinks e hold).imp_right (open_concat _ rfl hkeep)
    · exact .inr ⟨⟨i, statement⟩, by simp, hkeep i _ hself⟩
  all_goals simp only [hholds]
  case initialUsers => exact hs.initialUsers
  case durableUsers =>
    rw [husers]
    exact hs.durableUsers
  case durableLinks =>
    intro e he
    simp [hlinks, hs.durableLinks e he]
  case durableLinked => exact hs.durableLinked
  case currentLinked => exact wellLinked_insertIdentity hd hs.currentLinked ⟨u, hu, rfl⟩ hfree
  case apart => exact hs.apart
  case added => exact hs.added
  case wrote => exact fun j userId hj => hs.wrote_concat _ hj
  case wroteDurable => exact hs.wroteDurable
  case initialUnlinked =>
    intro v hv hinitial
    refine (unlinked_insertIdentity hd v.id).mpr ⟨hs.initialUnlinked v hv hinitial, ?_⟩
    exact (hs.added i u.id hself v hv).symm
  case accounted =>
    intro v hv
    rw [husers] at hv
    rw [unlinked_insertIdentity hd]
    by_cases hvu : u.id = v.id
    · exact .inl fun h => h.2 hvu
    · exact (hs.accounted v hv).imp_left fun hlinked h => hlinked h.1

theorem ssoInv_commit (initial : Database) (s : LoginConnection) (hs : SsoInv initial s) (i : Nat)
    (p q : LoginPc) (hp : s.calls[i]? = some p) (hok : q.Ok s.current s.current) (u : User)
    (hrow : p.rowId = some u.id) (hq : q.rowId = p.rowId ∨ q.rowId = none ∧ ¬ Unlinked s.current u.id) :
    SsoInv initial { s with
      durable := s.current, calls := s.calls.set i q, pending := [],
      committed := s.committed ++ s.pending } := by
  have hholds := holds_set (t := { s with
      durable := s.current, calls := s.calls.set i q, pending := [],
      committed := s.committed ++ s.pending }) hp rfl
  have hold : ∀ j userId, Holds { s with
      durable := s.current, calls := s.calls.set i q, pending := [],
      committed := s.committed ++ s.pending } j userId → Holds s j userId := by
    intro j userId h
    rcases (hholds j userId).mp h with ⟨rfl, hid⟩ | ⟨-, h⟩
    · rcases hq with hsame | ⟨hnone, -⟩
      · exact ⟨p, hp, hsame ▸ hid⟩
      · rw [hnone] at hid
        cases hid
    · exact h
  have hcommitted : ∀ j userId, Holds s j userId → ∃ w ∈ s.committed ++ s.pending, w.owner = j := by
    intro j userId h
    obtain ⟨w, howner, hw⟩ := hs.wrote j userId h
    exact ⟨w, List.mem_append.mpr hw.symm, howner⟩
  refine
    { initialUsers := fun v hv => hs.durableUsers v (hs.initialUsers v hv)
      durableUsers := fun _ hv => hv
      durableLinks := fun _ he => he
      durableLinked := hs.currentLinked
      currentLinked := hs.currentLinked
      position := ?_
      apart := fun j k userId hj hk => hs.apart j k userId (hold j userId hj) (hold k userId hk)
      added := fun j userId hj => hs.added j userId (hold j userId hj)
      wrote := ?_
      wroteDurable := fun j v _ hj => hcommitted j v.id (hold j v.id hj)
      newUsers := fun _ hv => .inl hv
      newLinks := fun _ he => .inl he
      initialUnlinked := hs.initialUnlinked
      accounted := ?_ }
  · intro j r hr
    rcases TransitionSystem.getElem?_set_cases hr with ⟨-, rfl⟩ | ⟨-, hr⟩
    · exact hok
    · exact (hs.position j r hr).transfer (fun _ hv _ => hv) (fun _ he _ => he) (fun _ _ h => h)
        hs.durableUsers hs.durableLinks
  · intro j userId hj
    obtain ⟨w, hw, howner⟩ := hcommitted j userId (hold j userId hj)
    exact ⟨w, howner, .inr hw⟩
  · intro v hv
    rcases hs.accounted v hv with hlinked | hinitial | ⟨j, h⟩
    · exact .inl hlinked
    · exact .inr (.inl hinitial)
    · by_cases hij : j = i
      · subst hij
        obtain ⟨r, hr, hid⟩ := h
        rw [hp] at hr
        cases hr
        rcases hq with hsame | ⟨-, hlinked⟩
        · exact .inr (.inr ⟨j, (hholds j v.id).mpr (.inl ⟨rfl, hsame.trans hid⟩)⟩)
        · rw [hrow] at hid
          rw [← Option.some.inj hid]
          exact .inl hlinked
      · exact .inr (.inr ⟨j, (hholds j v.id).mpr (.inr ⟨hij, h⟩)⟩)

theorem ssoInv_rollback (initial : Database) (s : LoginConnection) (hs : SsoInv initial s) (i : Nat)
    (p : LoginPc) (hp : s.calls[i]? = some p) (login : SsoLogin) (attempt : Nat)
    (hfree : ∀ userId, p.rowId = some userId → Unlinked s.current userId)
    (hpending : ∀ w ∈ s.pending, w.owner = i) (hcommitted : ∀ w ∈ s.committed, w.owner ≠ i) :
    SsoInv initial { s with
      current := s.durable, calls := s.calls.set i (.relookup login attempt),
      written := s.written.filter fun w => w.owner ≠ i, pending := [] } := by
  have hholds : ∀ j userId, Holds { s with
      current := s.durable, calls := s.calls.set i (.relookup login attempt),
      written := s.written.filter fun w => w.owner ≠ i, pending := [] } j userId ↔
      j ≠ i ∧ Holds s j userId := by
    intro j userId
    rw [holds_set hp rfl]
    simp [LoginPc.rowId]
  have hself : ∀ userId, Holds s i userId → p.rowId = some userId := by
    rintro userId ⟨r, hr, hid⟩
    rw [hp] at hr
    cases hr
    exact hid
  -- Rows and links of the other calls are committed: the open transaction has only writes of `i`.
  have husers : ∀ v ∈ s.current.users, v ∈ s.durable.users ∨ Holds s i v.id := by
    intro v hv
    rcases hs.newUsers v hv with hin | ⟨w, hw, h⟩
    · exact .inl hin
    · rw [hpending w hw] at h
      exact .inr h
  have hlinks : ∀ e ∈ s.current.externalIdentities, e ∈ s.durable.externalIdentities := by
    intro e he
    rcases hs.newLinks e he with hin | ⟨w, hw, h⟩
    · exact hin
    · rw [hpending w hw] at h
      exact absurd rfl (hfree e.userId (hself e.userId h) e he)
  have hlogged : ∀ j userId, j ≠ i → Holds s j userId → ∃ w ∈ s.committed, w.owner = j := by
    intro j userId hij h
    obtain ⟨w, howner, hw | hw⟩ := hs.wrote j userId h
    · exact absurd (howner.symm.trans (hpending w hw)) hij
    · exact ⟨w, hw, howner⟩
  refine
    { initialUsers := hs.initialUsers
      durableUsers := fun _ hv => hv
      durableLinks := fun _ he => he
      durableLinked := hs.durableLinked
      currentLinked := hs.durableLinked
      position := ?_
      apart := ?_
      added := fun j userId hj => hs.added j userId ((hholds j userId).mp hj).2
      wrote := ?_
      wroteDurable := ?_
      newUsers := fun _ hv => .inl hv
      newLinks := fun _ he => .inl he
      initialUnlinked := fun v hv h e he => hs.initialUnlinked v hv h e (hs.durableLinks e he)
      accounted := ?_ }
  · intro j r hr
    rcases TransitionSystem.getElem?_set_cases hr with ⟨-, rfl⟩ | ⟨hne, hr⟩
    · trivial
    · apply (hs.position j r hr).transfer
      · intro v hv hid
        rcases husers v hv with hin | h
        · exact hin
        · exact absurd (hs.apart j i v.id ⟨r, hr, hid⟩ h) hne
      · exact fun e he _ => hlinks e he
      · exact fun userId _ h e he => h e (hs.durableLinks e he)
      · exact fun _ hv => hv
      · exact fun _ he => he
  · intro j k userId hj hk
    exact hs.apart j k userId ((hholds j userId).mp hj).2 ((hholds k userId).mp hk).2
  · intro j userId hj
    obtain ⟨hne, h⟩ := (hholds j userId).mp hj
    obtain ⟨w, hw, howner⟩ := hlogged j userId hne h
    exact ⟨w, howner, .inr hw⟩
  · intro j v _ hj
    obtain ⟨hne, h⟩ := (hholds j v.id).mp hj
    exact hlogged j v.id hne h
  · intro v hv
    rcases hs.accounted v (hs.durableUsers v hv) with hlinked | hinitial | ⟨j, h⟩
    · left
      intro hunlinked
      exact hlinked fun e he => hunlinked e (hlinks e he)
    · exact .inr (.inl hinitial)
    · by_cases hij : j = i
      · subst hij
        obtain ⟨w, hw, howner⟩ := hs.wroteDurable j v hv h
        exact absurd howner (hcommitted w hw)
      · exact .inr (.inr ⟨j, (hholds j v.id).mpr ⟨hij, h⟩⟩)

theorem ssoInv_step (isAlnum : Char → Bool) (initial : Database) (s : LoginConnection)
    (a : Action LoginRequest) (t : LoginConnection) (hs : SsoInv initial s)
    (hcond : OwnRollback LoginPc.awaits s a ∧ CommittedLookup s a) (h : loginStep isAlnum s a = some t) :
    SsoInv initial t := by
  cases a with
  | start request =>
      cases step_start _ _ s t request h
      obtain ⟨hok, hrow⟩ := LoginPc.entry_ok isAlnum s.durable s.current request
      exact ssoInv_start initial s hs _ hok hrow
  | resume i =>
      obtain ⟨p, hp, hcases⟩ := step_resume_cases _ _ s t i h
      have hposition := hs.position i p hp
      rcases hcases with ⟨statement, next, hawaits, hnone, rfl⟩ | ⟨statement, next, d, hawaits, hd, rfl⟩ |
        ⟨next, hawaits, rfl⟩ | ⟨next, hawaits, rfl⟩
      · obtain ⟨hok, hrow⟩ := LoginPc.ok_of_read s i p hp hposition hcond.2 statement next hawaits hnone
        exact ssoInv_read initial s hs i p _ hp hok hrow
      · rcases LoginPc.write_cases s.durable s.current d p hposition statement next hawaits hd with
          ⟨new, hnone, hinsert, hrow, hok⟩ | ⟨login, attempt, u, createdAt, hrow, hu, hfree, hinsert, hnext⟩
        · exact ssoInv_insertUser initial s hs i p _ hp hnone new d hinsert hrow hok statement
        · rw [hnext]
          exact ssoInv_insertLink initial s hs i p hp login attempt u createdAt hrow hu hfree d hinsert
            statement
      · obtain ⟨hok, u, hrow, hq⟩ := LoginPc.commit_cases s.durable s.current p next hposition hawaits
        exact ssoInv_commit initial s hs i p next hp hok u hrow hq
      · obtain ⟨⟨login, attempt, rfl⟩, hfree⟩ :=
          LoginPc.rollback_cases s.durable s.current p next hposition hawaits
        have hown := hcond.1
        simp only [OwnRollback, hp, Option.map_some, hawaits] at hown
        exact ssoInv_rollback initial s hs i p hp login attempt hfree hown.1 hown.2

theorem ssoSound_of_inv (initial : Database) (s : LoginConnection) (hs : SsoInv initial s) :
    SsoSound initial s := by
  have hlinked : ∀ (i : Nat) login u, s.calls[i]? = some (.resolved login u) →
      u ∈ s.durable.users ∧ Linked s.durable login.sub u.id := by
    intro i login u h
    exact hs.position i _ h
  refine ⟨hlinked, ?_, ?_, ?_, ?_⟩
  · intro i j login login' u u' hi hj hsub
    obtain ⟨-, e, he, hprovider, hsubject, hid⟩ := hlinked i login u hi
    obtain ⟨-, e', he', hprovider', hsubject', hid'⟩ := hlinked j login' u' hj
    have hsame : e = e' := List.inj_on_of_nodup_map s.durable.constraints.identities he he'
      (by simp [hprovider, hprovider', hsubject, hsubject', hsub])
    rw [← hid, ← hid', hsame]
  · intro i j login login' u u' hi hj hsub hsameId
    obtain ⟨-, e, he, -, hsubject, hid⟩ := hlinked i login u hi
    obtain ⟨-, e', he', -, hsubject', hid'⟩ := hlinked j login' u' hj
    have hsame : e = e' := List.inj_on_of_nodup_map hs.durableLinked.single he he'
      (hid.trans (hsameId.trans hid'.symm))
    exact hsub (hsubject.symm.trans (hsame ▸ hsubject'))
  · intro i login u hi hpassword
    obtain ⟨-, e, he, -, -, hid⟩ := hlinked i login u hi
    have hcurrent := hs.durableLinks e he
    rcases hpassword with ⟨v, hv, hvid, hfree⟩ | ⟨j, v, hvid, hsignup⟩
    · exact hs.initialUnlinked v hv hfree e hcurrent (hid.trans hvid.symm)
    · have hfree : Unlinked s.current v.id := by
        rcases hsignup with h | h
        · exact (hs.position j _ h).2
        · exact (hs.position j _ h).2
      exact hfree e hcurrent (hid.trans hvid.symm)
  · intro u hu hfree
    rcases hs.accounted u hu with hlinked | ⟨hinitial, hinitialFree⟩ | ⟨i, p, hp, hid⟩
    · exact absurd hfree hlinked
    · exact .inl (.inl ⟨u, hinitial, rfl, hinitialFree⟩)
    · have hok := hs.position i p hp
      unfold LoginPc.rowId at hid
      split at hid
      · exact .inl (.inr ⟨i, _, Option.some.inj hid, .inl hp⟩)
      · exact .inl (.inr ⟨i, _, Option.some.inj hid, .inr hp⟩)
      · exact .inr ⟨i, _, _, .inl ⟨_, _, _, Option.some.inj hid, hp⟩⟩
      · obtain ⟨-, e, he, -, -, heid⟩ := hok
        exact absurd (heid.trans (Option.some.inj hid)) (hfree e he)
      · subst hid
        exact .inr ⟨i, _, _, .inr ⟨_, hp⟩⟩
      · cases hid

/-- In every interleaving of any callbacks and sign-ups, over any account store whose links lead to
accounts of their own: as long as a rollback takes back the rows of its own call and no others, and a
callback adopts only a committed link, every callback returns the account of its subject. -/
theorem ssoLogins_sound (isAlnum : Char → Bool) (d : Database) (hd : WellLinked d)
    (schedule : List (Action LoginRequest))
    (hguard : TransitionSystem.Guarded (loginStep isAlnum)
      (fun s a => OwnRollback LoginPc.awaits s a ∧ CommittedLookup s a) (connect d) schedule) :
    TransitionSystem.Throughout (loginStep isAlnum) (SsoSound d) (connect d) schedule :=
  TransitionSystem.throughout_of_guarded _ _ (SsoInv d) (SsoSound d) (ssoSound_of_inv d)
    (ssoInv_step isAlnum d) (ssoInv_connect d hd) hguard

instance decidableCommittedLookup (s : LoginConnection) (a : Action LoginRequest) :
    Decidable (CommittedLookup s a) :=
  match a with
  | .start _ => isTrue trivial
  | .resume i =>
      match h : s.calls[i]? with
      | some (.lookup login) | some (.relookup login _) =>
          decidable_of_iff (∀ user ∈ s.current.userByExternalId ssoProvider login.sub,
            s.durable.userByExternalId ssoProvider login.sub = some user) (by simp [CommittedLookup, h])
      | none | some (.signup _) | some (.creating _ _ _) | some (.resolved _ _) | some (.failed _) =>
          isTrue (by simp [CommittedLookup, h])

/-- `bob` signs up; somebody called `bob` logs in over SSO, and then again. -/
def bobTwice : List (Action LoginRequest) :=
  let claims : Claims := ⟨some "bob", none, none, none⟩
  [.start (.signup "bob" [1] none 0), .resume 0, .resume 0, .resume 0,
    .start (.callback "sub-1" claims (fun _ => [2]) fun _ => 0),
    .resume 1, .resume 1, .resume 1, .resume 1, .resume 1, .resume 1, .resume 1,
    .start (.callback "sub-1" claims (fun _ => [3]) fun _ => 0), .resume 2]

theorem ssoLogins_sound_bobTwice :
    WellLinked Database.empty ∧
      (TransitionSystem.run (loginStep Char.isAlphanum) (connect Database.empty) bobTwice).isSome = true ∧
      TransitionSystem.Throughout (loginStep Char.isAlphanum) (SsoSound Database.empty)
        (connect Database.empty) bobTwice := by
  have hempty : WellLinked Database.empty := ⟨by simp [Database.empty], by simp [Database.empty]⟩
  have hguard : TransitionSystem.Guarded (loginStep Char.isAlphanum)
      (fun s a => OwnRollback LoginPc.awaits s a ∧ CommittedLookup s a)
      (connect Database.empty) bobTwice := by decide +kernel
  exact ⟨hempty, by decide +kernel,
    ssoLogins_sound Char.isAlphanum Database.empty hempty bobTwice hguard⟩

/-- Two different subjects, both called `bob`, log in for the first time. The second one's INSERT fails on
the name, and its rollback takes the account and the link of the first one with it. -/
def bobAndBob : List (Action LoginRequest) :=
  let claims : Claims := ⟨some "bob", none, none, none⟩
  [.start (.callback "sub-1" claims (fun _ => [1]) fun _ => 0),
    .start (.callback "sub-2" claims (fun _ => [2]) fun _ => 0),
    .resume 0, .resume 1, .resume 0, .resume 1, .resume 0, .resume 0, .resume 1, .resume 1, .resume 0]

def LoginPc.isResolved : LoginPc → Bool
  | .resolved _ _ => true
  | _ => false

/-- The first callback has returned an account that does not exist. -/
theorem ssoLogins_not_sound :
    ∃ s, TransitionSystem.run (loginStep Char.isAlphanum) (connect Database.empty) bobAndBob = some s ∧
      ¬ SsoSound Database.empty s := by
  have heval : (TransitionSystem.run (loginStep Char.isAlphanum) (connect Database.empty) bobAndBob).any
      (fun s => decide (s.durable.users = []) && s.calls[0]?.any LoginPc.isResolved) = true := by
    decide +kernel
  obtain ⟨s, hrun, hs⟩ := (Option.any_eq_true _ _).mp heval
  obtain ⟨husers, hcall⟩ := (Bool.and_eq_true _ _).mp hs
  obtain ⟨pc, hpc, hresolved⟩ := (Option.any_eq_true _ _).mp hcall
  refine ⟨s, hrun, ?_⟩
  intro hsound
  cases pc with
  | resolved login u =>
      have hmem := (hsound.linked 0 login u hpc).1
      rw [of_decide_eq_true husers] at hmem
      cases hmem
  | _ => cases hresolved

end NetworkFileServer.Relay
