import NetworkFileServer.Framework.Text

/-!
# Signed identities

`shared/identity_sig.py`: the relay signs the identity that it injects with a secret of the mount,
and the server verifies the signature. HMAC-SHA256 itself is a parameter, as the function from a
secret and a message to the hexadecimal digest.
-/

namespace NetworkFileServer.Shared

def identitySigHeader : String := "x-wfs-identity-sig"

/-- A per-mount secret. `set_identity_secret`, `sign_identity` and `verify_identity` refuse the
empty string, and `secrets.token_urlsafe` does not make it. -/
abbrev Secret := { s : String // s ≠ "" }

/-- `hmac.compare_digest` raises on text that is not ASCII. -/
inductive SignatureError where
  | typeError
deriving DecidableEq, Repr

def canonical (user role : String) (bypass : Bool) : String :=
  user ++ "\n" ++ role ++ "\n" ++ (if bypass then "1" else "0")

section

variable (hmac : String → String → String)

def signIdentity (secret : Secret) (user role : String) (bypass : Bool) : String :=
  hmac secret.val (canonical user role bypass)

def verifyIdentity (secret : Secret) (user role : String) (bypass : Bool) (signature : String) :
    Except SignatureError Bool :=
  if signature = "" then .ok false
  else
    let expected := signIdentity hmac secret user role bypass
    if Text.isAscii expected && Text.isAscii signature then .ok (expected = signature)
    else .error .typeError

/-- Digests are non-empty ASCII text. -/
def HexDigests : Prop := ∀ key message, hmac key message ≠ "" ∧ Text.isAscii (hmac key message) = true

def CollisionFree : Prop := ∀ key message key' message',
  hmac key message = hmac key' message' → key = key' ∧ message = message'

/-- The signature of one party is valid for another one exactly when they share the secret. -/
theorem verifyIdentity_signIdentity (hhex : HexDigests hmac) (hfree : CollisionFree hmac)
    (secret secret' : Secret) (user role : String) (bypass : Bool) :
    verifyIdentity hmac secret user role bypass (signIdentity hmac secret' user role bypass) =
      .ok (decide (secret = secret')) := by
  have hne : signIdentity hmac secret' user role bypass ≠ "" := (hhex _ _).1
  have hascii : ∀ s : Secret, Text.isAscii (signIdentity hmac s user role bypass) = true :=
    fun s => (hhex _ _).2
  have hiff : signIdentity hmac secret user role bypass = signIdentity hmac secret' user role bypass ↔
      secret = secret' := by
    constructor
    · intro h
      exact Subtype.ext (hfree _ _ _ _ h).1
    · intro h
      rw [h]
  simp [verifyIdentity, hne, hascii, hiff]

end

end NetworkFileServer.Shared
