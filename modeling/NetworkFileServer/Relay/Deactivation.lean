import NetworkFileServer.Relay.Sessions

/-!
# Deactivated accounts

A password no longer gets an inactive account a session or an agent token. A session that the account
has already is not looked up again: it lasts until its token is a week old.
-/

namespace NetworkFileServer.Relay

open Accounts

variable {τ : Type*}

/-- The reply is a session cookie or an agent token for the user. -/
def AuthReply.Credential (userId : Nat) : AuthReply τ → Prop
  | .cookie identity _ => identity.userId = userId
  | .agentToken owner _ => owner = userId
  | _ => False

/-- A request with the cookie is let through by a guard, or is identified on some mount. -/
def Accepted (lib : AuthLibraries τ) (adminUsers : List String) (now : ℚ) (token : τ) : Prop :=
  (∃ i, getCurrentIdentity lib now (some token) = .ok i) ∨
  (∃ i, requireAdmin lib adminUsers now (some token) = .ok i) ∨
  ∃ policy store username role, authorizeRequest lib policy store now (some token) =
    .ok (.identified username role)

/-- No request gets an inactive user a credential, and no cookie of the user is accepted. -/
def Deactivated (lib : AuthLibraries τ) (adminUsers : List String) (s : AuthState τ) : Prop :=
  ∀ u ∈ s.accounts.users, u.isActive = false →
    (∀ now request, ¬ (serve lib s now request).2.Credential u.id) ∧
    ∀ c ∈ s.issued, c.identity.userId = u.id → ∀ now, ¬ Accepted lib adminUsers now c.token

/-- No request other than an SSO callback gets an inactive user a credential; a cookie of the user was not
issued for a password while the user was inactive, and is accepted for a week at most. -/
def DeactivatedInAWeek (lib : AuthLibraries τ) (adminUsers : List String) (s : AuthState τ) : Prop :=
  ∀ u ∈ s.accounts.users, u.isActive = false →
    (∀ now request, (∀ exchange sentinel createdAt, request ≠ .oidcCallback exchange sentinel createdAt) →
      ¬ (serve lib s now request).2.Credential u.id) ∧
    ∀ c ∈ s.issued, c.identity.userId = u.id → (c.path = .password → c.active = true) ∧
      ∀ now, Accepted lib adminUsers now c.token → now.floor - c.issuedAt.floor ≤ sessionMaxAgeSeconds

/-- The log holds what the serializer has signed. -/
def Issued (lib : AuthLibraries τ) (s : AuthState τ) : Prop :=
  ∀ c ∈ s.issued, c.token = lib.session.dumps c.issuedAt c.identity ∧ (c.path = .password → c.active = true)

theorem checkCredentials_active (lib : AuthLibraries τ) (d : Database) (username password : String) (user : User)
    (h : checkCredentials lib d username password = .ok user) : user ∈ d.users ∧ user.isActive = true := by
  unfold checkCredentials at h
  split at h
  · cases h
  · rename_i found hfound
    split at h
    · cases h
    · cases h
    · split at h
      · cases h
      · rename_i hpassed
        cases h
        simp only [Bool.or_eq_true, Bool.not_eq_true', not_or, Bool.not_eq_false] at hpassed
        exact ⟨((d.userByUsername_eq_some username user).mp hfound).1, hpassed.2⟩

theorem checkCredentials_ne (lib : AuthLibraries τ) (d : Database) (username password : String) (user u : User)
    (h : checkCredentials lib d username password = .ok user) (hu : u ∈ d.users) (hinactive : u.isActive = false) :
    user.id ≠ u.id := by
  obtain ⟨huser, hactive⟩ := checkCredentials_active lib d username password user h
  intro hid
  rw [List.inj_on_of_nodup_map d.constraints.userIds huser hu hid, hinactive] at hactive
  cases hactive

theorem issueCookie_cases (lib : AuthLibraries τ) (s : AuthState τ) (now : ℚ) (path : CookiePath) (user : User) :
    issueCookie lib s now path user = (s, .error 500) ∨
      issueCookie lib s now path user =
        ({ s with issued := s.issued ++ [⟨lib.session.dumps now ⟨user.id, user.username⟩,
            ⟨user.id, user.username⟩, now, path, user.isActive⟩] },
          .cookie ⟨user.id, user.username⟩ (lib.session.dumps now ⟨user.id, user.username⟩)) := by
  unfold issueCookie issue
  by_cases hname : user.username = ""
  · exact .inl (by simp [hname])
  · exact .inr (by simp [hname])

theorem not_credential_of_inactive (lib : AuthLibraries τ) (s : AuthState τ) (now : ℚ) (request : AuthRequest)
    (hrequest : ∀ exchange sentinel createdAt, request ≠ .oidcCallback exchange sentinel createdAt) (u : User)
    (hu : u ∈ s.accounts.users) (hinactive : u.isActive = false) :
    ¬ (serve lib s now request).2.Credential u.id := by
  cases request with
  | signup username password email salt =>
      simp only [serve, signup]
      split
      · exact id
      · split <;> exact id
  | login username password =>
      simp only [serve, login]
      split
      · exact id
      · rename_i user hcheck
        have hne := checkCredentials_ne lib s.accounts username password user u hcheck hu hinactive
        rcases issueCookie_cases lib s now .password user with hissue | hissue
        · rw [hissue]
          exact id
        · rw [hissue]
          exact hne
  | agentToken username password =>
      simp only [serve, agentToken]
      split
      · exact id
      · rename_i user hcheck
        exact checkCredentials_ne lib s.accounts username password user u hcheck hu hinactive
  | oidcCallback exchange sentinel createdAt => exact absurd rfl (hrequest _ _ _)
  | setUserActive userId isActive =>
      simp only [serve, setUserActive]
      split <;> exact id

theorem getOptionalIdentity_age (lib : AuthLibraries τ) (now issuedAt : ℚ) (identity i : SessionIdentity)
    (h : getOptionalIdentity lib now (some (lib.session.dumps issuedAt identity)) = some i) :
    now.floor - issuedAt.floor ≤ sessionMaxAgeSeconds := by
  simp only [getOptionalIdentity, Option.bind_some, lib.session.loads_dumps] at h
  split at h
  · rename_i hage
    exact hage.2
  · cases h

theorem authorizeAccount_anonymous (policy : Option MountPolicy) (store : Option AccountStore)
    (username : String) (role : Role) : authorizeAccount policy store none ≠ .ok (.identified username role) := by
  cases policy with
  | none => simp [authorizeAccount, authorize, Except.mapError]
  | some policy =>
      have hdecision : authorizeAccount (some policy) store none = unidentified policy none := by
        simp only [authorizeAccount, authorize_mapError]
        rfl
      rw [hdecision]
      exact unidentified_ne_identified policy none username role

theorem Accepted.identity {lib : AuthLibraries τ} {adminUsers : List String} {now : ℚ} {token : τ}
    (h : Accepted lib adminUsers now token) : ∃ i, getOptionalIdentity lib now (some token) = some i := by
  cases hidentity : getOptionalIdentity lib now (some token) with
  | some i => exact ⟨i, rfl⟩
  | none =>
      have hcurrent : getCurrentIdentity lib now (some token) = .error 401 := by
        simp [getCurrentIdentity, hidentity]
      rcases h with ⟨i, hi⟩ | ⟨i, hi⟩ | ⟨policy, store, username, role, hdecision⟩
      · rw [hcurrent] at hi
        cases hi
      · simp only [requireAdmin, hcurrent] at hi
        cases hi
      · simp only [authorizeRequest, hidentity] at hdecision
        exact absurd hdecision (authorizeAccount_anonymous policy store username role)

theorem issued_issueCookie (lib : AuthLibraries τ) (s : AuthState τ) (now : ℚ) (path : CookiePath) (user : User)
    (hs : Issued lib s) (hactive : path = .password → user.isActive = true) :
    Issued lib (issueCookie lib s now path user).1 := by
  rcases issueCookie_cases lib s now path user with hissue | hissue
  · rw [hissue]
    exact hs
  · rw [hissue]
    intro c hc
    rcases List.mem_append.mp hc with hold | hnew
    · exact hs c hold
    · rw [List.mem_singleton.mp hnew]
      exact ⟨rfl, hactive⟩

theorem issued_step (lib : AuthLibraries τ) (s : AuthState τ) (e : ℚ × AuthRequest) (t : AuthState τ)
    (hs : Issued lib s) (hstep : authStep lib s e = some t) : Issued lib t := by
  obtain ⟨now, request⟩ := e
  cases hstep
  cases request with
  | signup username password email salt =>
      simp only [serve, signup]
      split
      · exact hs
      · split <;> exact hs
  | login username password =>
      simp only [serve, login]
      split
      · exact hs
      · rename_i user hcheck
        have hactive := (checkCredentials_active lib s.accounts username password user hcheck).2
        exact issued_issueCookie lib s now .password user hs fun _ => hactive
  | agentToken username password =>
      simp only [serve, agentToken]
      split <;> exact hs
  | oidcCallback exchange sentinel createdAt =>
      simp only [serve, oidcCallback]
      split
      · exact hs
      · split
        · exact hs
        · split
          · rename_i d user _
            exact issued_issueCookie lib { s with accounts := d } now .sso user hs (by simp)
          · exact hs
  | setUserActive userId isActive =>
      simp only [serve, setUserActive]
      split <;> exact hs

/-- For every history of sign-ups, logins, agent-token requests, SSO callbacks and activations, in every
state on the way: no request other than an SSO callback gets an inactive user a session cookie or an
agent token, and no session cookie of the user is accepted that is older than a week or that was issued
for a password while the user was inactive. -/
theorem deactivated_inAWeek (lib : AuthLibraries τ) (adminUsers : List String) (d : Database)
    (history : List (ℚ × AuthRequest)) :
    TransitionSystem.Throughout (authStep lib) (DeactivatedInAWeek lib adminUsers) ⟨d, []⟩ history := by
  apply TransitionSystem.throughout_of_invariant _ (Issued lib) _ _ (issued_step lib)
  · intro c hc
    cases hc
  · intro s hs u hu hinactive
    constructor
    · intro now request hrequest
      exact not_credential_of_inactive lib s now request hrequest u hu hinactive
    · intro c hc _
      obtain ⟨htoken, hactive⟩ := hs c hc
      refine ⟨hactive, ?_⟩
      intro now haccepted
      obtain ⟨i, hi⟩ := haccepted.identity
      rw [htoken] at hi
      exact getOptionalIdentity_age lib now c.issuedAt c.identity i hi

/-- A serializer whose tokens say what was signed, and when. -/
def plainSerializer {α τ : Type*} (sign : ℚ × α → τ) (read : τ → Option (ℚ × α))
    (hread : ∀ x, read (sign x) = some x) : TimedSerializer α τ where
  dumps := fun issuedAt x => sign (issuedAt, x)
  loads := fun now maxAge token =>
    (read token).bind fun (issuedAt, x) =>
      if 0 ≤ now.floor - issuedAt.floor ∧ now.floor - issuedAt.floor ≤ maxAge then some x else none
  loads_dumps := by
    intro issuedAt now maxAge x
    rw [hread]
    rfl

/-- Passwords are their own hashes. -/
def plainLibraries : AuthLibraries ((ℚ × SessionIdentity) ⊕ (ℚ × Nat)) where
  hashpw := fun _ password => password.toList.map fun c => c.toNat.toUInt8
  checkpw := fun password hashed => some (hashed = password.toList.map fun c => c.toNat.toUInt8)
  session := plainSerializer .inl Sum.getLeft? fun _ => rfl
  agent := plainSerializer .inr Sum.getRight? fun _ => rfl
  lower := Text.lower
  isAlnum := Char.isAlphanum

/-- `alice` signs up and logs in, and an admin deactivates the account. -/
def aliceLeaves : List (ℚ × AuthRequest) :=
  [(0, .signup "alice" "secret" none []), (1, .login "alice" "secret"), (2, .setUserActive 1 false)]

/-- The session is let through afterwards, and is identified on a mount that lists the user. -/
theorem deactivated_not_atOnce :
    ∃ s token, TransitionSystem.run (authStep plainLibraries) ⟨Database.empty, []⟩ aliceLeaves = some s ∧
      (∃ u ∈ s.accounts.users, u.id = 1 ∧ u.isActive = false) ∧
      (∃ c ∈ s.issued, c.token = token ∧ c.identity.userId = 1) ∧
      getCurrentIdentity plainLibraries 3 (some token) = .ok ⟨1, "alice"⟩ ∧
      authorizeRequest plainLibraries (some ⟨.restricted, false, [⟨.user, 1, .write⟩]⟩)
        (some s.accounts.toStore) 3 (some token) = .ok (.identified "alice" .write) ∧
      ¬ Deactivated plainLibraries [] s := by
  have heval : (TransitionSystem.run (authStep plainLibraries) ⟨Database.empty, []⟩ aliceLeaves).any (fun s =>
      s.accounts.users.any (fun u => decide (u.id = 1 ∧ u.isActive = false)) &&
      s.issued.any (fun c => decide (c.token = .inl (1, ⟨1, "alice"⟩) ∧ c.identity.userId = 1)) &&
      decide (authorizeRequest plainLibraries (some ⟨.restricted, false, [⟨.user, 1, .write⟩]⟩)
        (some s.accounts.toStore) 3 (some (.inl (1, ⟨1, "alice"⟩))) = .ok (.identified "alice" .write))) =
        true := by decide +kernel
  obtain ⟨s, hrun, hs⟩ := (Option.any_eq_true _ _).mp heval
  obtain ⟨hs, hidentified⟩ := Bool.and_eq_true_iff.mp hs
  obtain ⟨huser, hissued⟩ := Bool.and_eq_true_iff.mp hs
  obtain ⟨u, hu, hinactive⟩ := List.any_eq_true.mp huser
  obtain ⟨c, hc, htoken⟩ := List.any_eq_true.mp hissued
  obtain ⟨hid, hinactive⟩ := of_decide_eq_true hinactive
  obtain ⟨htoken, hcid⟩ := of_decide_eq_true htoken
  have hcurrent : getCurrentIdentity plainLibraries 3 (some (.inl (1, ⟨1, "alice"⟩))) = .ok ⟨1, "alice"⟩ := by
    decide +kernel
  refine ⟨s, .inl (1, ⟨1, "alice"⟩), hrun, ⟨u, hu, hid, hinactive⟩, ⟨c, hc, htoken, hcid⟩, hcurrent,
    of_decide_eq_true hidentified, ?_⟩
  intro hdeactivated
  have hrefused := (hdeactivated u hu hinactive).2 c hc (hcid.trans hid.symm) 3
  rw [htoken] at hrefused
  exact hrefused (.inl ⟨_, hcurrent⟩)

end NetworkFileServer.Relay
