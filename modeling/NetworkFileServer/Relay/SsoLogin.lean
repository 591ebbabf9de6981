import NetworkFileServer.Accounts.StoreCalls

/-!
# SSO logins and sign-ups

`_derive_username` and `_resolve_or_create` of `oidc_auth.py`, next to the sign-ups of `auth.py`, on one
account store. `isAlnum` is `str.isalnum` of a character. A claim that is missing or not a string is
`none`: the source asks for a string before it uses a claim.
-/

namespace NetworkFileServer.Relay

open Accounts
open SharedTransaction (Await)
open Tunnel (Bytes)

/-- `PROVIDER` -/
def ssoProvider : String := "authentik"

structure Claims where
  preferredUsername : Option String
  nickname : Option String
  name : Option String
  email : Option String

/-- `value.strip()` of the first of the three claims that is not blank. -/
def Claims.readableName (claims : Claims) : Option String :=
  [claims.preferredUsername, claims.nickname, claims.name].findSome? fun value =>
    value.bind fun value => if Text.strip value = "" then none else some (Text.strip value)

def deriveUsername (isAlnum : Char → Bool) (claims : Claims) : String :=
  let base :=
    match claims.readableName with
    | some name => name
    | none =>
        match claims.email with
        | some email => if '@' ∈ email.toList then String.ofList (email.toList.takeWhile (· ≠ '@')) else "user"
        | none => "user"
  let cleaned := Text.stripChars ['-', '_', '.']
    (String.ofList (base.toList.filter fun ch => isAlnum ch || ch ∈ ['-', '_', '.']))
  if cleaned = "" then "user" else cleaned

/-- What a callback brings along; the sentinels and the times are those of its attempts. -/
structure SsoLogin where
  sub : String
  base : String
  email : Option String
  sentinel : Nat → Bytes
  createdAt : Nat → ℚ

/-- `candidate` of the loop. -/
def SsoLogin.candidate (login : SsoLogin) (i : Nat) : String :=
  if i = 0 then login.base else login.base ++ "-" ++ toString (i + 1)

inductive LoginError where
  | store (e : StoreError)
  /-- `OidcError("could not allocate a unique username for the SSO account")` -/
  | noUsername
deriving DecidableEq

/-- The awaits of a sign-up and of a callback. -/
inductive LoginPc where
  | signup (pc : StorePc)
  /-- The first `get_user_by_external_id`. -/
  | lookup (login : SsoLogin)
  /-- `create_external_user` with the candidate `i`. -/
  | creating (login : SsoLogin) (i : Nat) (pc : StorePc)
  /-- `get_user_by_external_id` after the candidate `i` was taken. -/
  | relookup (login : SsoLogin) (i : Nat)
  | resolved (login : SsoLogin) (user : User)
  | failed (e : LoginError)

namespace LoginPc

/-- The loop of `_resolve_or_create` around `create_external_user`. -/
def afterCreate (login : SsoLogin) (i : Nat) : StorePc → LoginPc
  | .returned (.user user) => .resolved login user
  | .raised (.usernameTaken _) => .relookup login i
  | .raised e => .failed (.store e)
  | pc => .creating login i pc

/-- The candidate `i`, from the call of `create_external_user` to its first await. -/
def create (login : SsoLogin) (i : Nat) : LoginPc :=
  afterCreate login i (StoreCall.createExternalUser ssoProvider login.sub (login.candidate i) login.email
    (login.sentinel i) (login.createdAt i)).entry

def awaits : LoginPc → Await Database LoginPc
  | .signup pc => pc.awaits.map .signup
  | .lookup login =>
      .statement (fun _ => none) fun d =>
        match d.userByExternalId ssoProvider login.sub with
        | some user => .resolved login user
        | none => create login 0
  | .creating login i pc => pc.awaits.map (afterCreate login i)
  | .relookup login i =>
      .statement (fun _ => none) fun d =>
        match d.userByExternalId ssoProvider login.sub with
        | some user => .resolved login user
        | none => if i + 1 < 50 then create login (i + 1) else .failed .noUsername
  | .resolved _ _ => .returned
  | .failed _ => .raised

end LoginPc

inductive LoginRequest where
  | signup (username : String) (passwordHash : Bytes) (email : Option String) (createdAt : ℚ)
  | callback (sub : String) (claims : Claims) (sentinel : Nat → Bytes) (createdAt : Nat → ℚ)

def LoginRequest.entry (isAlnum : Char → Bool) : LoginRequest → LoginPc
  | .signup username passwordHash email createdAt =>
      .signup (StoreCall.createUser username passwordHash email createdAt).entry
  | .callback sub claims sentinel createdAt =>
      .lookup ⟨sub, deriveUsername isAlnum claims, claims.email, sentinel, createdAt⟩

abbrev LoginConnection := SharedTransaction.Connection Database LoginPc

/-- Any number of callbacks and sign-ups on one account store, interleaved at their awaits. -/
def loginStep (isAlnum : Char → Bool) :
    LoginConnection → SharedTransaction.Action LoginRequest → Option LoginConnection :=
  SharedTransaction.step (LoginRequest.entry isAlnum) LoginPc.awaits

end NetworkFileServer.Relay
