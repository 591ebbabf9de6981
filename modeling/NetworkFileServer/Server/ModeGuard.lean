import NetworkFileServer.Server.FilesRouter
import NetworkFileServer.Server.RelayIdentity

/-!
# What a role may do

The dependencies of `mode_guard.py`, the password gate of `AuthMiddleware`, and the routes that they
guard. `permits` is the whole way of a request through the server; `permitsAs` says the same of the
identity that the server has verified.
-/

namespace NetworkFileServer.Server

open Relay Shared

/-- The server's configuration as far as access is concerned. -/
structure AccessConfig extends ServerConfig where
  hasPassword : Bool
  readOnly : Bool
  receive : Bool

/-- `Role(value)`; `none` is a `ValueError`. -/
def roleOfValue (value : String) : Option Role :=
  [Role.read, .write, .receive].find? fun role => role.value = value

inductive GuardError where
  | readOnly (operation : String)
  | accessDenied (message : String)
  | signature (e : SignatureError)
deriving DecidableEq

/-- The dependencies of a route. -/
inductive Guard where
  | requireWriteAccess
  | requireFullAccess
  | requireBrowseAccess
deriving DecidableEq

/-- The routes of the file, clipboard, share and file request routers. -/
inductive Operation where
  /-- Whether an entry of the folder `path` is in its listing. -/
  | listEntry (path name : String) (isDirectory : Bool)
  | download (path : String)
  | downloadZip (paths : List String)
  | preview (path : String)
  | search (query path : String)
  | upload (path : String)
  | shareUpload
  | rename (path newName : String)
  | delete (paths : List String)
  | createFolder (parentPath name : String)
  | listSnippets
  | editSnippets
  | shareLinks
  | listFileRequests
  | editFileRequests

/-- `dependencies=[...]` of the route. -/
def Operation.dependencies : Operation → List Guard
  | .listEntry _ _ _ | .download _ | .downloadZip _ | .preview _ | .search _ _ => [.requireBrowseAccess]
  | .upload _ | .shareUpload => [.requireWriteAccess]
  | .rename _ _ | .delete _ | .createFolder _ _ | .editSnippets | .shareLinks | .editFileRequests =>
      [.requireWriteAccess, .requireFullAccess]
  | .listSnippets | .listFileRequests => [.requireFullAccess]

/-- What the handler lets a scoped user do; everybody else is not scoped. -/
def Operation.inScope (scopeUser : Option String) (owners : OwnerTable) : Operation → Bool
  | .listEntry path name isDirectory =>
      scopeUser.all fun user => !isDirectory && relKey path name ∈ UploadIndex.ownedPaths owners user
  | .download path | .preview path => (requireOwned scopeUser owners path).isOk
  | .downloadZip paths => (requireAllOwned scopeUser owners paths).isOk
  | .search _ _ => scopeUser.isNone
  | _ => true

section

variable (hmac : String → String → String) (config : AccessConfig) (headers : Headers)

def trustedRole : Except SignatureError (Option Role) :=
  (verifiedIdentity hmac config.toServerConfig headers).map fun verified =>
    verified.bind fun (_, role, _) => roleOfValue role

def trustedUser : Except SignatureError (Option String) :=
  (verifiedIdentity hmac config.toServerConfig headers).map fun verified => verified.map Prod.fst

def isAuthBypassed : Except SignatureError Bool :=
  (verifiedIdentity hmac config.toServerConfig headers).map fun verified =>
    verified.any fun (_, _, bypass) => bypass

def requireWriteAccess : Except GuardError Unit :=
  match trustedRole hmac config headers with
  | .error e => .error (.signature e)
  | .ok (some .read) => .error (.readOnly "write operation")
  | .ok (some _) => .ok ()
  | .ok none => if config.readOnly then .error (.readOnly "write operation") else .ok ()

def requireFullAccess : Except GuardError Unit :=
  match trustedRole hmac config headers with
  | .error e => .error (.signature e)
  | .ok (some .receive) => .error (.accessDenied "Access denied in receive mode")
  | .ok (some _) => .ok ()
  | .ok none => if config.receive then .error (.accessDenied "Access denied in receive mode") else .ok ()

def requireBrowseAccess : Except GuardError Unit :=
  match trustedRole hmac config headers with
  | .error e => .error (.signature e)
  | .ok (some _) => .ok ()
  | .ok none => if config.receive then .error (.accessDenied "Access denied in receive mode") else .ok ()

def receiveScopeUser : Except SignatureError (Option String) :=
  match trustedRole hmac config headers with
  | .error e => .error e
  | .ok (some .receive) => trustedUser hmac config headers
  | .ok _ => .ok none

def Guard.check : Guard → Except GuardError Unit
  | .requireWriteAccess => Server.requireWriteAccess hmac config headers
  | .requireFullAccess => Server.requireFullAccess hmac config headers
  | .requireBrowseAccess => Server.requireBrowseAccess hmac config headers

/-- `AuthMiddleware`, which is there if the server has a password. All of the routes are under
`/api/`. -/
def passesAuth (validCookie : Bool) : Bool :=
  !config.hasPassword || validCookie ||
    match isAuthBypassed hmac config headers with
    | .ok bypassed => bypassed
    | .error _ => false

/-- The request gets as far as the work of its route. -/
def permits (validCookie : Bool) (owners : OwnerTable) (op : Operation) : Bool :=
  passesAuth hmac config headers validCookie &&
    (op.dependencies.all fun guard => (guard.check hmac config headers).isOk) &&
    match receiveScopeUser hmac config headers with
    | .ok scopeUser => op.inScope scopeUser owners
    | .error _ => false

end

/-- The guards for a verified identity, or for none. -/
def Guard.passes (config : AccessConfig) (seen : Option (String × Role)) : Guard → Bool
  | .requireWriteAccess =>
      match seen with
      | some (_, role) => role ≠ .read
      | none => !config.readOnly
  | .requireFullAccess =>
      match seen with
      | some (_, role) => role ≠ .receive
      | none => !config.receive
  | .requireBrowseAccess => seen.isSome || !config.receive

/-- The user that browsing is scoped to. -/
def scopeOf : Option (String × Role) → Option String
  | some (user, .receive) => some user
  | _ => none

/-- `permits` for a verified identity, or for none. -/
def permitsAs (config : AccessConfig) (seen : Option (String × Role)) (validCookie : Bool)
    (owners : OwnerTable) (op : Operation) : Bool :=
  (!config.hasPassword || validCookie || seen.isSome) &&
    (op.dependencies.all fun guard => guard.passes config seen) && op.inScope (scopeOf seen) owners

/-- The server believes the identity that the relay vouches for. -/
def Trusts (config : AccessConfig) (stored : Option Secret) : Prop :=
  isRelayServed config.toServerConfig = true ∧ SecretsAgree stored config.identitySecret

instance decidableTrusts (config : AccessConfig) (stored : Option Secret) : Decidable (Trusts config stored) :=
  inferInstanceAs (Decidable (_ ∧ _))

/-- The identity that the server sees behind an access decision. -/
def seenIdentity (config : AccessConfig) (stored : Option Secret) : AccessDecision → Option (String × Role)
  | .identified username role => if Trusts config stored then some (username, role) else none
  | .passthrough _ => none

theorem roleOfValue_value (role : Role) : roleOfValue role.value = some role := by
  cases role <;> decide

theorem verifiedIdentity_seen (hmac : String → String → String) (hhex : HexDigests hmac)
    (hfree : CollisionFree hmac) (headers : Headers) (decision : AccessDecision) (stored : Option Secret)
    (config : AccessConfig) :
    verifiedIdentity hmac config.toServerConfig (forwardHeaders hmac headers decision stored) =
      .ok ((seenIdentity config stored decision).map fun seen => (seen.1, seen.2.value, true)) := by
  cases hserved : isRelayServed config.toServerConfig with
  | false =>
      have hnone : seenIdentity config stored decision = none := by
        cases decision <;> simp [seenIdentity, Trusts, hserved]
      simp [verifiedIdentity, hserved, hnone]
  | true =>
      rw [verifiedIdentity_forwardHeaders hmac hhex hfree headers decision stored config.toServerConfig hserved]
      cases decision with
      | passthrough username => rfl
      | identified username role =>
          by_cases hagree : SecretsAgree stored config.identitySecret <;>
            simp [seenIdentity, Trusts, hserved, hagree]

theorem permits_forwardHeaders (hmac : String → String → String) (hhex : HexDigests hmac)
    (hfree : CollisionFree hmac) (headers : Headers) (decision : AccessDecision) (stored : Option Secret)
    (config : AccessConfig) (validCookie : Bool) (owners : OwnerTable) (op : Operation) :
    permits hmac config (forwardHeaders hmac headers decision stored) validCookie owners op =
      permitsAs config (seenIdentity config stored decision) validCookie owners op := by
  have hverified := verifiedIdentity_seen hmac hhex hfree headers decision stored config
  cases hseen : seenIdentity config stored decision with
  | none =>
      rw [hseen] at hverified
      have hrole : trustedRole hmac config (forwardHeaders hmac headers decision stored) = .ok none := by
        rw [trustedRole, hverified]
        rfl
      have hauth : passesAuth hmac config (forwardHeaders hmac headers decision stored) validCookie =
          (!config.hasPassword || validCookie) := by
        simp [passesAuth, isAuthBypassed, hverified, Except.map]
      have hguard : ∀ guard : Guard,
          (guard.check hmac config (forwardHeaders hmac headers decision stored)).isOk =
            guard.passes config none := by
        intro guard
        cases guard <;> cases hro : config.readOnly <;> cases hrec : config.receive <;>
          simp [Guard.check, Guard.passes, requireWriteAccess, requireFullAccess, requireBrowseAccess, hrole,
            hro, hrec, Except.isOk, Except.toBool]
      simp [permits, permitsAs, hauth, hguard, receiveScopeUser, hrole, scopeOf]
  | some seen =>
      obtain ⟨user, role⟩ := seen
      rw [hseen] at hverified
      have hrole : trustedRole hmac config (forwardHeaders hmac headers decision stored) = .ok (some role) := by
        rw [trustedRole, hverified]
        simp [Except.map, roleOfValue_value]
      have hauth : passesAuth hmac config (forwardHeaders hmac headers decision stored) validCookie = true := by
        simp [passesAuth, isAuthBypassed, hverified, Except.map]
      have huser : trustedUser hmac config (forwardHeaders hmac headers decision stored) = .ok (some user) := by
        rw [trustedUser, hverified]
        rfl
      have hguard : ∀ guard : Guard,
          (guard.check hmac config (forwardHeaders hmac headers decision stored)).isOk =
            guard.passes config (some (user, role)) := by
        intro guard
        cases guard <;> cases role <;>
          simp [Guard.check, Guard.passes, requireWriteAccess, requireFullAccess, requireBrowseAccess, hrole,
            Except.isOk, Except.toBool]
      have hscope : receiveScopeUser hmac config (forwardHeaders hmac headers decision stored) =
          .ok (scopeOf (some (user, role))) := by
        cases role <;> simp [receiveScopeUser, hrole, huser, scopeOf]
      simp [permits, permitsAs, hauth, hguard, hscope]

end NetworkFileServer.Server
