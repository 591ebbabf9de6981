import NetworkFileServer.Accounts.StoreMethods
import NetworkFileServer.Relay.AccessDecision
import NetworkFileServer.Relay.AdminNames

/-!
# Sessions

`session.py`, the handlers of `auth.py`, `oidc_callback` and the guards of `dependencies.py`, one request
at a time. The signatures are `itsdangerous` and the password hashes `bcrypt`. `_sync_groups` only writes
groups and memberships and is left out: no credential depends on them.
-/

namespace NetworkFileServer.Relay

open Accounts
open SharedTransaction (Alone advance)
open Tunnel (Bytes)

/-- The loop of `_resolve_or_create`, from the candidate `i` on. -/
def tryCandidates (d : Database) (login : SsoLogin) : Nat → Nat → Except LoginError (Database × User)
  | 0, _ => .error .noUsername
  | left + 1, i =>
      match d.createExternalUser ssoProvider login.sub (login.candidate i) login.email (login.sentinel i)
        (login.createdAt i) with
      | .ok result => .ok result
      | .error (.usernameTaken _) =>
          match d.userByExternalId ssoProvider login.sub with
          | some user => .ok (d, user)
          | none => tryCandidates d login left (i + 1)
      | .error e => .error (.store e)

def resolveOrCreate (d : Database) (login : SsoLogin) : Except LoginError (Database × User) :=
  match d.userByExternalId ssoProvider login.sub with
  | some user => .ok (d, user)
  | none => tryCandidates d login 50 0

/-- Where a callback ends that has nobody beside it. -/
def loginEnded (d : Database) (login : SsoLogin) :
    Except LoginError (Database × User) → Database × Database × LoginPc
  | .ok (d', user) => (d', d', .resolved login user)
  | .error e => (d, d, .failed e)

theorem alone_afterCreate (login : SsoLogin) (i : Nat) (x y : Database × Database × StorePc)
    (h : Alone StorePc.awaits x y) :
    Alone LoginPc.awaits (x.1, x.2.1, .afterCreate login i x.2.2) (y.1, y.2.1, .afterCreate login i y.2.2) := by
  induction h with
  | refl => exact .refl
  | @tail y z _ hstep ih =>
      refine ih.tail ?_
      obtain ⟨durable, current, pc⟩ := y
      -- A call that can go on is neither returned nor raised.
      have hrunning : LoginPc.afterCreate login i pc = .creating login i pc := by
        cases pc with
        | returned result => simp [advance, StorePc.awaits] at hstep
        | raised e => simp [advance, StorePc.awaits] at hstep
        | _ => rfl
      simp only [hrunning]
      simp only [advance, LoginPc.awaits] at hstep ⊢
      cases hawaits : pc.awaits with
      | statement write next =>
          simp only [hawaits, Option.some.injEq] at hstep
          subst hstep
          rfl
      | commit next =>
          simp only [hawaits, Option.some.injEq] at hstep
          subst hstep
          rfl
      | rollback next =>
          simp only [hawaits, Option.some.injEq] at hstep
          subst hstep
          rfl
      | returned => simp [hawaits] at hstep
      | raised => simp [hawaits] at hstep

theorem candidate_alone (d : Database) (login : SsoLogin) (left i : Nat)
    (hrest : Alone LoginPc.awaits (d, d, if i + 1 < 50 then .create login (i + 1) else .failed .noUsername)
      (loginEnded d login (tryCandidates d login left (i + 1)))) :
    Alone LoginPc.awaits (d, d, .create login i)
      (loginEnded d login (tryCandidates d login (left + 1) i)) := by
  rw [tryCandidates]
  generalize hresult : d.createExternalUser ssoProvider login.sub (login.candidate i) login.email
    (login.sentinel i) (login.createdAt i) = result
  have hcreate : Alone LoginPc.awaits (d, d, .create login i)
      ((ended d result).1, (ended d result).2.1, .afterCreate login i (ended d result).2.2) := by
    have hcall := alone_afterCreate login i _ _ (createExternalUser_alone d ssoProvider login.sub
      (login.candidate i) login.email (login.sentinel i) (login.createdAt i))
    dsimp only at hcall
    rw [← hresult]
    exact hcall
  cases result with
  | ok result =>
      obtain ⟨d', user⟩ := result
      simpa only [ended, loginEnded, LoginPc.afterCreate] using hcreate
  | error e =>
      cases e with
      | usernameTaken username =>
          refine hcreate.trans ?_
          cases hfound : d.userByExternalId ssoProvider login.sub with
          | some user =>
              apply Relation.ReflTransGen.single
              simp [advance, ended, LoginPc.afterCreate, LoginPc.awaits, hfound, loginEnded]
          | none =>
              refine .head ?_ hrest
              simp [advance, ended, LoginPc.afterCreate, LoginPc.awaits, hfound]
      | _ => simpa only [ended, loginEnded, LoginPc.afterCreate] using hcreate

theorem create_alone (d : Database) (login : SsoLogin) (left i : Nat) (hi : left + 1 + i = 50) :
    Alone LoginPc.awaits (d, d, .create login i)
      (loginEnded d login (tryCandidates d login (left + 1) i)) := by
  induction left generalizing i with
  | zero =>
      apply candidate_alone
      rw [if_neg (by omega)]
      exact .refl
  | succ left ih =>
      apply candidate_alone
      rw [if_pos (by omega)]
      exact ih (i + 1) (by omega)

theorem resolveOrCreate_alone (d : Database) (login : SsoLogin) :
    Alone LoginPc.awaits (d, d, .lookup login) (loginEnded d login (resolveOrCreate d login)) := by
  unfold resolveOrCreate
  cases hfound : d.userByExternalId ssoProvider login.sub with
  | some user => exact .single (by simp [advance, LoginPc.awaits, hfound, loginEnded])
  | none =>
      have hlookup : advance LoginPc.awaits (d, d, .lookup login) = some (d, d, .create login 0) := by
        simp [advance, LoginPc.awaits, hfound]
      exact .head hlookup (create_alone d login 49 0 rfl)

theorem resolveOrCreate_run (isAlnum : Char → Bool) (d : Database) (sub : String) (claims : Claims)
    (sentinel : Nat → Bytes) (createdAt : Nat → ℚ) :
    ∃ n t, TransitionSystem.run (loginStep isAlnum) (SharedTransaction.connect d)
        (.start (.callback sub claims sentinel createdAt) :: List.replicate n (.resume 0)) = some t ∧
      (t.durable, t.current, t.calls) =
        let login : SsoLogin := ⟨sub, deriveUsername isAlnum claims, claims.email, sentinel, createdAt⟩
        let (durable, current, pc) := loginEnded d login (resolveOrCreate d login)
        (durable, current, [pc]) := by
  obtain ⟨n, t, hrun, hdurable, hcurrent, hcalls⟩ :=
    SharedTransaction.run_start_of_alone (LoginRequest.entry isAlnum) LoginPc.awaits d
      (.callback sub claims sentinel createdAt) _ (resolveOrCreate_alone d _)
  exact ⟨n, t, hrun, by rw [hdurable, hcurrent, hcalls]⟩

/-- A `URLSafeTimedSerializer` with its key and salt. `loads` is `none` for a bad signature and for an
expired one; the ages are in whole seconds. -/
structure TimedSerializer (α τ : Type*) where
  dumps : ℚ → α → τ
  loads : ℚ → ℤ → τ → Option α
  loads_dumps : ∀ issuedAt now maxAge x, loads now maxAge (dumps issuedAt x) =
    if 0 ≤ now.floor - issuedAt.floor ∧ now.floor - issuedAt.floor ≤ maxAge then some x else none

/-- What the handlers use from outside: `bcrypt` with the salt that it drew (`checkpw` raises a
`ValueError` for a hash that it cannot read), the two serializers and the methods of `str`. -/
structure AuthLibraries (τ : Type*) where
  hashpw : Bytes → String → Bytes
  checkpw : String → Bytes → Option Bool
  session : TimedSerializer SessionIdentity τ
  agent : TimedSerializer Nat τ
  lower : String → String
  isAlnum : Char → Bool

/-- `SESSION_MAX_AGE_SECONDS` -/
def sessionMaxAgeSeconds : ℤ := 7 * 24 * 3600

section Handlers

variable {τ : Type*} (lib : AuthLibraries τ)

/-- `hash_password`; `none` is a `WeakPasswordError`. -/
def hashPassword (salt : Bytes) (password : String) : Option Bytes :=
  if password = "" then none
  else if password.utf8ByteSize > 72 then none
  else some (lib.hashpw salt password)

inductive PasswordError where
  | weak
  | valueError
deriving DecidableEq

def verifyPassword (password : String) (hashed : Bytes) : Except PasswordError Bool :=
  if password = "" then .error .weak
  else if hashed = [] then .error .valueError
  else
    match lib.checkpw password hashed with
    | some ok => .ok ok
    | none => .error .valueError

/-- `issue`; `none` is a `ValueError`. -/
def issue (now : ℚ) (user : User) : Option τ :=
  if user.username = "" then none else some (lib.session.dumps now ⟨user.id, user.username⟩)

/-- How a session cookie was obtained. -/
inductive CookiePath where
  | password
  | sso
deriving DecidableEq

/-- A session cookie that was given out, and whether its account was active then. -/
structure IssuedCookie (τ : Type*) where
  token : τ
  identity : SessionIdentity
  issuedAt : ℚ
  path : CookiePath
  active : Bool

structure AuthState (τ : Type*) where
  accounts : Database
  issued : List (IssuedCookie τ)

/-- The requests, with the salt and the random values that the handler draws. A callback brings the `sub`
and the claims, if the exchange with the identity provider succeeded. -/
inductive AuthRequest where
  | signup (username password : String) (email : Option String) (salt : Bytes)
  | login (username password : String)
  | agentToken (username password : String)
  | oidcCallback (exchange : Option (String × Claims)) (sentinel : Nat → Bytes) (createdAt : Nat → ℚ)
  | setUserActive (userId : Nat) (isActive : Bool)

inductive AuthReply (τ : Type*) where
  | signedUp (userId : Nat) (username : String)
  /-- The response sets the session cookie. -/
  | cookie (identity : SessionIdentity) (token : τ)
  | agentToken (userId : Nat) (token : τ)
  | done
  /-- The redirect to the login page with `sso_error`. -/
  | ssoError
  | error (status : Nat)

/-- What `login` and `agent_token` do before they issue a token. -/
def checkCredentials (d : Database) (username password : String) : Except Nat User :=
  match d.userByUsername username with
  | none => .error 401
  | some user =>
      match verifyPassword lib password user.passwordHash with
      | .error .weak => .error 401
      | .error .valueError => .error 500
      | .ok ok => if !ok || !user.isActive then .error 401 else .ok user

def issueCookie (s : AuthState τ) (now : ℚ) (path : CookiePath) (user : User) : AuthState τ × AuthReply τ :=
  match issue lib now user with
  | none => (s, .error 500)
  | some token =>
      let identity : SessionIdentity := ⟨user.id, user.username⟩
      ({ s with issued := s.issued ++ [⟨token, identity, now, path, user.isActive⟩] }, .cookie identity token)

def login (s : AuthState τ) (now : ℚ) (username password : String) : AuthState τ × AuthReply τ :=
  match checkCredentials lib s.accounts username password with
  | .error status => (s, .error status)
  | .ok user => issueCookie lib s now .password user

def agentToken (s : AuthState τ) (now : ℚ) (username password : String) : AuthState τ × AuthReply τ :=
  match checkCredentials lib s.accounts username password with
  | .error status => (s, .error status)
  | .ok user => (s, .agentToken user.id (lib.agent.dumps now user.id))

def signup (s : AuthState τ) (now : ℚ) (username password : String) (email : Option String) (salt : Bytes) :
    AuthState τ × AuthReply τ :=
  match hashPassword lib salt password with
  | none => (s, .error 400)
  | some passwordHash =>
      match s.accounts.createUser username passwordHash email now with
      | .ok (d, user) => ({ s with accounts := d }, .signedUp user.id user.username)
      | .error (.usernameTaken _) => (s, .error 409)
      | .error _ => (s, .error 400)

/-- `oidc_callback`. The flag `is_active` is not looked at. -/
def oidcCallback (s : AuthState τ) (now : ℚ) (exchange : Option (String × Claims)) (sentinel : Nat → Bytes)
    (createdAt : Nat → ℚ) : AuthState τ × AuthReply τ :=
  match exchange with
  | none => (s, .ssoError)
  | some (sub, claims) =>
      if sub = "" then (s, .ssoError)
      else
        match resolveOrCreate s.accounts
          ⟨sub, deriveUsername lib.isAlnum claims, claims.email, sentinel, createdAt⟩ with
        | .ok (d, user) => issueCookie lib { s with accounts := d } now .sso user
        | .error _ => (s, .error 500)

def setUserActive (s : AuthState τ) (userId : Nat) (isActive : Bool) : AuthState τ × AuthReply τ :=
  match s.accounts.updateActive userId isActive with
  | some d => ({ s with accounts := d }, .done)
  | none => (s, .error 404)

def serve (s : AuthState τ) (now : ℚ) : AuthRequest → AuthState τ × AuthReply τ
  | .signup username password email salt => signup lib s now username password email salt
  | .login username password => login lib s now username password
  | .agentToken username password => agentToken lib s now username password
  | .oidcCallback exchange sentinel createdAt => oidcCallback lib s now exchange sentinel createdAt
  | .setUserActive userId isActive => setUserActive s userId isActive

def authStep (s : AuthState τ) : ℚ × AuthRequest → Option (AuthState τ)
  | (now, request) => some (serve lib s now request).1

/-- `get_optional_identity` and `identity_from_cookies`, with the cookie if there is one that is not
empty. -/
def getOptionalIdentity (now : ℚ) (cookie : Option τ) : Option SessionIdentity :=
  cookie.bind (lib.session.loads now sessionMaxAgeSeconds)

def getCurrentIdentity (now : ℚ) (cookie : Option τ) : Except Nat SessionIdentity :=
  match getOptionalIdentity lib now cookie with
  | none => .error 401
  | some identity => .ok identity

def requireAdmin (adminUsers : List String) (now : ℚ) (cookie : Option τ) : Except Nat SessionIdentity :=
  match getCurrentIdentity lib now cookie with
  | .error status => .error status
  | .ok identity =>
      if isAdminUsername lib.lower adminUsers identity.username then .ok identity else .error 403

/-- `authorize` for the session of a request. -/
def authorizeRequest (policy : Option MountPolicy) (store : Option AccountStore) (now : ℚ)
    (cookie : Option τ) : Except AuthorizeError AccessDecision :=
  authorizeAccount policy store (getOptionalIdentity lib now cookie)

end Handlers

end NetworkFileServer.Relay
