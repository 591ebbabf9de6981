import NetworkFileServer.Relay.SsoLogin

/-!
# The names of admins

`is_admin_username` compares a name stripped and in lower case. The table of users keeps usernames apart
as they are written, so two accounts can have one admin's name. `lower` is `str.lower`.
-/

namespace NetworkFileServer.Accounts.StorePc

open SharedTransaction (Await)

/-- The user that the call is about to insert. -/
def inserting : StorePc → Option NewUser
  | .userInsert new | .externalInsertUser _ _ new => some new
  | _ => none

theorem statement_usernames (p : StorePc) (statement : Database → Option Database)
    (next : Database → StorePc) (d d' : Database) (h : p.awaits = .statement statement next)
    (hd : statement d = some d') :
    (∃ new, p.inserting = some new ∧ d'.users = d.users ++ [new.row d]) ∨
      d'.users.map User.username = d.users.map User.username := by
  cases p with
  | userInsert new | externalInsertUser _ _ new =>
      simp only [awaits, write, Await.statement.injEq] at h
      obtain ⟨rfl, rfl⟩ := h
      obtain ⟨-, htables⟩ := d.insertUser_eq_some d' _ _ _ _ hd
      exact .inl ⟨new, rfl, by rw [htables]; rfl⟩
  | userExists _ | externalExists _ _ _ | groupNameExists _ _ | memberGroup _ | memberUser _
  | memberChild _ | memberWalk _ _ _ | memberExists _ | quotaUser _ _ =>
      simp only [awaits, select, Await.statement.injEq] at h
      obtain ⟨rfl, rfl⟩ := h
      cases hd
  | externalInsertLink _ _ _ =>
      simp only [awaits, write, Await.statement.injEq] at h
      obtain ⟨rfl, rfl⟩ := h
      obtain ⟨-, htables⟩ := d.insertIdentity_eq_some d' _ hd
      exact .inr (by rw [htables])
  | activeUpdate _ _ =>
      simp only [awaits, write, Await.statement.injEq] at h
      obtain ⟨rfl, rfl⟩ := h
      have htables := d.updateActive_eq_some d' _ _ hd
      exact .inr (by rw [htables]; simp [Function.comp_def, Database.setActive_username])
  | groupInsert _ _ =>
      simp only [awaits, write, Await.statement.injEq] at h
      obtain ⟨rfl, rfl⟩ := h
      exact .inr (by rw [d.insertGroup_eq_some d' _ _ hd])
  | groupDelete _ =>
      simp only [awaits, write, Await.statement.injEq] at h
      obtain ⟨rfl, rfl⟩ := h
      exact .inr (by rw [d.deleteGroupRow_eq_some d' _ hd])
  | memberInsert m =>
      simp only [awaits, write, Await.statement.injEq] at h
      obtain ⟨rfl, rfl⟩ := h
      obtain ⟨-, htables⟩ := d.insertMembership_eq_some d' m hd
      exact .inr (by rw [htables])
  | memberDelete _ =>
      simp only [awaits, write, Await.statement.injEq] at h
      obtain ⟨rfl, rfl⟩ := h
      exact .inr (by rw [d.deleteMemberships_eq_some d' _ hd])
  | groupDeleteContents _ | groupDeleteParents _ =>
      simp only [awaits, Await.statement.injEq] at h
      obtain ⟨rfl, rfl⟩ := h
      exact .inr (by rw [d.deleteMemberships_eq_some d' _ hd])
  | quotaReplace _ _ =>
      simp only [awaits, Await.statement.injEq] at h
      obtain ⟨rfl, rfl⟩ := h
      cases hd
      exact .inr rfl
  | externalRollback _ _ | commit _ | returned _ | raised _ => simp [awaits] at h

theorem awaits_inserting (p : StorePc) (new : NewUser) (hp : p.inserting = some new) :
    ∃ next, p.awaits = .statement new.insert next := by
  cases p with
  | userInsert _ | externalInsertUser _ _ _ =>
      cases hp
      exact ⟨_, rfl⟩
  | _ => cases hp

end NetworkFileServer.Accounts.StorePc

namespace NetworkFileServer.Relay

open Accounts SharedTransaction

/-- `admin_users` of the configuration: from `RELAY_ADMIN_USERS` if it is set, else from the file. -/
def loadAdminUsers (lower : String → String) (adminEnv : Option String) (raw : List String) : List String :=
  let users :=
    match adminEnv with
    | some env => (env.toList.splitOn ',').map String.ofList
    | none => raw
  (users.filter fun u => Text.strip u ≠ "").map fun u => lower (Text.strip u)

def isAdminUsername (lower : String → String) (adminUsers : List String) (username : String) : Bool :=
  lower (Text.strip username) ∈ adminUsers

/-- Every configured name denotes at most one account. -/
def AdminsUnique (lower : String → String) (adminUsers : List String) (d : Database) : Prop :=
  ∀ name ∈ adminUsers, ∀ u ∈ d.users, ∀ v ∈ d.users,
    isAdminUsername lower [name] u.username = true → isAdminUsername lower [name] v.username = true → u = v

theorem adminsUnique_iff (lower : String → String) (adminUsers : List String) (d : Database) :
    AdminsUnique lower adminUsers d ↔
      ∀ x ∈ d.users.map User.username, ∀ y ∈ d.users.map User.username,
        isAdminUsername lower adminUsers x = true → lower (Text.strip y) = lower (Text.strip x) → x = y := by
  constructor
  · intro h x hx y hy hadmin hsame
    obtain ⟨u, hu, rfl⟩ := List.mem_map.mp hx
    obtain ⟨v, hv, rfl⟩ := List.mem_map.mp hy
    rw [h (lower (Text.strip u.username)) (by simpa [isAdminUsername] using hadmin) u hu v hv
      (by simp [isAdminUsername]) (by simp [isAdminUsername, hsame])]
  · intro h name hname u hu v hv hadmin hadmin'
    simp only [isAdminUsername, List.mem_singleton, decide_eq_true_eq] at hadmin hadmin'
    have hsame := h u.username (List.mem_map_of_mem hu) v.username (List.mem_map_of_mem hv)
      (by simp [isAdminUsername, hadmin, hname]) (hadmin'.trans hadmin.symm)
    exact List.inj_on_of_nodup_map d.constraints.usernames hu hv hsame

namespace LoginPc

/-- The user that the request is about to insert. -/
def inserting : LoginPc → Option NewUser
  | .signup pc | .creating _ _ pc => pc.inserting
  | _ => none

theorem awaits_inserting (p : LoginPc) (new : NewUser) (hp : p.inserting = some new) :
    ∃ next, p.awaits = .statement new.insert next := by
  cases p with
  | signup pc | creating _ _ pc =>
      obtain ⟨next, hnext⟩ := pc.awaits_inserting new hp
      exact ⟨_, by rw [awaits, hnext]; rfl⟩
  | _ => cases hp

theorem statement_usernames (p : LoginPc) (statement : Database → Option Database)
    (next : Database → LoginPc) (d d' : Database) (h : p.awaits = .statement statement next)
    (hd : statement d = some d') :
    (∃ new, p.inserting = some new ∧ d'.users = d.users ++ [new.row d]) ∨
      d'.users.map User.username = d.users.map User.username := by
  cases p with
  | signup pc | creating _ _ pc =>
      obtain ⟨next', hnext⟩ := Await.map_eq_statement _ pc.awaits statement next h
      exact pc.statement_usernames statement next' d d' hnext hd
  | lookup login | relookup login i =>
      simp only [awaits, Await.statement.injEq] at h
      obtain ⟨rfl, rfl⟩ := h
      cases hd
  | resolved _ _ | failed _ => simp [awaits] at h

end LoginPc

/-- No user is inserted whose name, although nobody has it as it is written, is an admin's name that an
account has already. -/
def FreshAdminName (lower : String → String) (adminUsers : List String) (s : LoginConnection) :
    Action LoginRequest → Prop
  | .start _ => True
  | .resume i =>
      ∀ p ∈ s.calls[i]?, ∀ new ∈ p.inserting, new.username ∉ s.current.users.map User.username →
        isAdminUsername lower adminUsers new.username = true →
        ∀ u ∈ s.current.users, lower (Text.strip u.username) ≠ lower (Text.strip new.username)

/-- Both the open transaction and what it would fall back to. -/
structure AdminInv (lower : String → String) (adminUsers : List String) (s : LoginConnection) : Prop where
  current : AdminsUnique lower adminUsers s.current
  durable : AdminsUnique lower adminUsers s.durable

theorem adminsUnique_insert_iff (lower : String → String) (adminUsers : List String) (d d' : Database)
    (hd : AdminsUnique lower adminUsers d) (new : NewUser) (hinsert : new.insert d = some d') :
    AdminsUnique lower adminUsers d' ↔ (isAdminUsername lower adminUsers new.username = true →
      ∀ u ∈ d.users, lower (Text.strip u.username) ≠ lower (Text.strip new.username)) := by
  obtain ⟨hnew, htables⟩ := d.insertUser_eq_some d' _ _ _ _ hinsert
  have hnames : ∀ x, x ∈ d'.users.map User.username ↔ x ∈ d.users.map User.username ∨ x = new.username := by
    intro x
    rw [htables]
    simp [Database.newUser]
  rw [adminsUnique_iff] at hd ⊢
  constructor
  · intro hunique hadmin u hu hsame
    have hmem := List.mem_map_of_mem (f := User.username) hu
    apply hnew
    rw [hunique new.username ((hnames _).mpr (.inr rfl)) u.username ((hnames _).mpr (.inl hmem)) hadmin hsame]
    exact hmem
  · intro hfresh x hx y hy hadmin hsame
    rcases (hnames x).mp hx with hx | rfl
    · rcases (hnames y).mp hy with hy | rfl
      · exact hd x hx y hy hadmin hsame
      · obtain ⟨u, hu, rfl⟩ := List.mem_map.mp hx
        have hadmin' : isAdminUsername lower adminUsers new.username = true := by
          simpa [isAdminUsername, hsame] using hadmin
        exact absurd hsame.symm (hfresh hadmin' u hu)
    · rcases (hnames y).mp hy with hy | rfl
      · obtain ⟨u, hu, rfl⟩ := List.mem_map.mp hy
        exact absurd hsame (hfresh hadmin u hu)
      · rfl

theorem adminInv_step (lower : String → String) (adminUsers : List String) (isAlnum : Char → Bool)
    (s : LoginConnection) (a : Action LoginRequest) (t : LoginConnection)
    (hs : AdminInv lower adminUsers s) (hcond : FreshAdminName lower adminUsers s a)
    (h : loginStep isAlnum s a = some t) : AdminInv lower adminUsers t := by
  have ht : Holds (AdminsUnique lower adminUsers) (fun _ => True) t := by
    apply holds_step (LoginRequest.entry isAlnum) LoginPc.awaits _ _ (fun _ => trivial)
      (fun _ _ _ _ _ _ => trivial) (fun _ _ _ => trivial) s a t
      ⟨hs.current, hs.durable, fun _ _ _ => trivial⟩ _ h
    rintro i p write next d rfl hp hawaits hd
    cases hinserting : p.inserting with
    | some new =>
        obtain ⟨next', hnext⟩ := p.awaits_inserting new hinserting
        rw [hawaits] at hnext
        obtain ⟨rfl, -⟩ := Await.statement.inj hnext
        have hnew := (s.current.insertUser_eq_some d _ _ _ _ hd).1
        exact (adminsUnique_insert_iff lower adminUsers s.current d hs.current new hd).mpr
          (hcond p hp new hinserting hnew)
    | none =>
        rcases p.statement_usernames write next s.current d hawaits hd with ⟨new, hnew, -⟩ | hsame
        · rw [hinserting] at hnew
          cases hnew
        · have hcurrent := hs.current
          rw [adminsUnique_iff] at hcurrent ⊢
          rw [hsame]
          exact hcurrent
  exact ⟨ht.current, ht.durable⟩

theorem not_adminsUnique_of_not_fresh (lower : String → String) (adminUsers : List String)
    (isAlnum : Char → Bool) (s : LoginConnection) (a : Action LoginRequest) (t : LoginConnection)
    (hs : AdminInv lower adminUsers s) (hcond : ¬ FreshAdminName lower adminUsers s a)
    (h : loginStep isAlnum s a = some t) : ¬ AdminsUnique lower adminUsers t.current := by
  intro hunique
  apply hcond
  cases a with
  | start request => trivial
  | resume i =>
      intro p hp new hinserting hnew
      obtain ⟨next, hnext⟩ := p.awaits_inserting new hinserting
      obtain ⟨p', hp', hcases⟩ := step_resume_cases _ _ s t i h
      obtain rfl : p' = p := Option.some.inj (hp'.symm.trans hp)
      rcases hcases with ⟨statement, next', hawaits, hnone, -⟩ | ⟨statement, next', d, hawaits, hd, rfl⟩ |
        ⟨next', hawaits, -⟩ | ⟨next', hawaits, -⟩
      · rw [hawaits] at hnext
        obtain ⟨rfl, -⟩ := Await.statement.inj hnext
        simp [NewUser.insert, Database.insertUser, hnew] at hnone
      · rw [hawaits] at hnext
        obtain ⟨rfl, -⟩ := Await.statement.inj hnext
        exact (adminsUnique_insert_iff lower adminUsers s.current d hs.current new hd).mp hunique
      · rw [hnext] at hawaits
        cases hawaits
      · rw [hnext] at hawaits
        cases hawaits

/-- For every configuration and in every run of sign-ups and SSO logins: every admin name denotes at most
one account in every state on the way, exactly if no user is ever inserted under an admin's name that,
written in another way, an account has already. -/
theorem adminNames_unique_iff (lower : String → String) (adminUsers : List String) (isAlnum : Char → Bool)
    (d : Database) (hd : AdminsUnique lower adminUsers d) (schedule : List (Action LoginRequest))
    (s : LoginConnection) (hrun : TransitionSystem.run (loginStep isAlnum) (connect d) schedule = some s) :
    TransitionSystem.Throughout (loginStep isAlnum) (fun s => AdminsUnique lower adminUsers s.current)
        (connect d) schedule ↔
      TransitionSystem.Guarded (loginStep isAlnum) (FreshAdminName lower adminUsers) (connect d) schedule :=
  TransitionSystem.throughout_iff_guarded (loginStep isAlnum) (FreshAdminName lower adminUsers)
    (AdminInv lower adminUsers) _ (fun _ ht => ht.current) (adminInv_step lower adminUsers isAlnum)
    (not_adminsUnique_of_not_fresh lower adminUsers isAlnum) ⟨hd, hd⟩ hrun

/-- The admin `alice` signs up, and then somebody else under another name. -/
def signUps (other : String) : List (Action LoginRequest) :=
  [.start (.signup "alice" [1] none 0), .resume 0, .resume 0, .resume 0,
    .start (.signup other [2] none 1), .resume 1, .resume 1, .resume 1]

theorem adminNames_unique_iff_bob :
    ∃ s, TransitionSystem.run (loginStep Char.isAlphanum) (connect Database.empty) (signUps "bob") = some s ∧
      AdminsUnique Text.lower (loadAdminUsers Text.lower (some "alice") []) Database.empty ∧
      (TransitionSystem.Throughout (loginStep Char.isAlphanum)
          (fun s => AdminsUnique Text.lower (loadAdminUsers Text.lower (some "alice") []) s.current)
          (connect Database.empty) (signUps "bob") ↔
        TransitionSystem.Guarded (loginStep Char.isAlphanum)
          (FreshAdminName Text.lower (loadAdminUsers Text.lower (some "alice") [])) (connect Database.empty)
          (signUps "bob")) := by
  have heval : (TransitionSystem.run (loginStep Char.isAlphanum) (connect Database.empty)
      (signUps "bob")).isSome = true := by decide +kernel
  obtain ⟨s, hrun⟩ := Option.isSome_iff_exists.mp heval
  have hempty : AdminsUnique Text.lower (loadAdminUsers Text.lower (some "alice") []) Database.empty := by
    intro name _ u hu
    cases hu
  exact ⟨s, hrun, hempty, adminNames_unique_iff Text.lower _ Char.isAlphanum Database.empty hempty
    (signUps "bob") s hrun⟩

/-- `Alice` is another user than `alice`, and an admin as well. -/
theorem adminNames_not_unique :
    ∃ s, TransitionSystem.run (loginStep Char.isAlphanum) (connect Database.empty) (signUps "Alice") = some s ∧
      (∃ u ∈ s.durable.users, ∃ v ∈ s.durable.users, u.username = "alice" ∧ v.username = "Alice" ∧
        isAdminUsername Text.lower (loadAdminUsers Text.lower (some "alice") []) u.username = true ∧
        isAdminUsername Text.lower (loadAdminUsers Text.lower (some "alice") []) v.username = true) ∧
      ¬ AdminsUnique Text.lower (loadAdminUsers Text.lower (some "alice") []) s.current := by
  have heval : (TransitionSystem.run (loginStep Char.isAlphanum) (connect Database.empty)
      (signUps "Alice")).any (fun s => decide (s.durable.users =
        [⟨1, "alice", none, [1], 0, true⟩, ⟨2, "Alice", none, [2], 1, true⟩] ∧
        s.current.users = [⟨1, "alice", none, [1], 0, true⟩, ⟨2, "Alice", none, [2], 1, true⟩])) = true := by
    decide +kernel
  obtain ⟨s, hrun, hs⟩ := (Option.any_eq_true _ _).mp heval
  obtain ⟨hdurable, hcurrent⟩ := of_decide_eq_true hs
  refine ⟨s, hrun, ⟨⟨1, "alice", none, [1], 0, true⟩, by simp [hdurable], ⟨2, "Alice", none, [2], 1, true⟩,
    by simp [hdurable], rfl, rfl, by decide +kernel, by decide +kernel⟩, ?_⟩
  intro hunique
  have hsame := hunique "alice" (by decide +kernel) ⟨1, "alice", none, [1], 0, true⟩ (by simp [hcurrent])
    ⟨2, "Alice", none, [2], 1, true⟩ (by simp [hcurrent]) (by decide +kernel) (by decide +kernel)
  cases hsame

end NetworkFileServer.Relay
