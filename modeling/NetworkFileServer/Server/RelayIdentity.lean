import Mathlib.Logic.Encodable.Basic
import Mathlib.Logic.Equiv.List
import NetworkFileServer.Relay.ForwardHeaders

/-!
# The identity that the embedded server believes

`relay_identity.py` of the server, and what it makes of the headers that the relay forwards. The
agent's HTTP client hands the server the forwarded headers as they are.
-/

namespace NetworkFileServer.Server

open Relay Shared

/-- The part of `ServerConfig` that `relay_identity.py` reads. -/
structure ServerConfig where
  mountCode : Option String
  identitySecret : Option Secret
deriving DecidableEq

def isRelayServed (config : ServerConfig) : Bool := config.mountCode.isSome

/-- `_verified_identity`. -/
def verifiedIdentity (hmac : String → String → String) (config : ServerConfig) (headers : Headers) :
    Except SignatureError (Option (String × String × Bool)) :=
  if !isRelayServed config then .ok none
  else
    match config.identitySecret with
    | none => .ok none
    | some secret =>
        match getHeader headers headerUser, getHeader headers headerRole,
          getHeader headers identitySigHeader with
        | some user, some role, some signature =>
            let bypass := decide (getHeader headers headerAuthBypass = some "1")
            match verifyIdentity hmac secret user role bypass signature with
            | .ok true => .ok (some (user, role, bypass))
            | .ok false => .ok none
            | .error e => .error e
        | _, _, _ => .ok none

/-- Relay and server hold the same secret for the mount. -/
def SecretsAgree (stored identitySecret : Option Secret) : Prop :=
  ∃ secret, stored = some secret ∧ identitySecret = some secret

instance (stored identitySecret : Option Secret) : Decidable (SecretsAgree stored identitySecret) :=
  decidable_of_iff (stored = identitySecret ∧ stored.isSome = true) (by
    unfold SecretsAgree
    cases stored <;> cases identitySecret <;> simp [eq_comm])

/-- Whatever the browser sends, a relay-served server sees the identity of the access decision, if
the decision identified somebody and both ends hold the same secret, and nobody otherwise. -/
theorem verifiedIdentity_forwardHeaders (hmac : String → String → String)
    (hhex : HexDigests hmac) (hfree : CollisionFree hmac) (headers : Headers)
    (decision : AccessDecision) (stored : Option Secret) (config : ServerConfig)
    (hserved : isRelayServed config = true) :
    verifiedIdentity hmac config (forwardHeaders hmac headers decision stored) = .ok (
      match decision with
      | .identified username role =>
          if SecretsAgree stored config.identitySecret then some (username, role.value, true)
          else none
      | .passthrough _ => none) := by
  -- Nothing that the browser sent is left under the four names.
  have hnone : ∀ name value, Text.startsWith name "x-wfs-" = true → name ≠ "host" →
      getHeader ((stripHeaders headers).set "host" value) name = none :=
    fun name value hname hhost => getHeader_stripped headers name value hname hhost
  have huser := hnone headerUser ((getHeader headers "host").getD "") (by decide) (by decide)
  have hrole := hnone headerRole ((getHeader headers "host").getD "") (by decide) (by decide)
  have hbypass := hnone headerAuthBypass ((getHeader headers "host").getD "") (by decide) (by decide)
  have hsig := hnone identitySigHeader ((getHeader headers "host").getD "") (by decide) (by decide)
  cases hsecret : config.identitySecret with
  | none => cases decision <;> simp [verifiedIdentity, hserved, hsecret, SecretsAgree]
  | some secret =>
      cases decision with
      | passthrough username =>
          simp [verifiedIdentity, hserved, hsecret, forwardHeaders, huser]
      | identified username role =>
          obtain ⟨hu, hr, hb, hs⟩ :=
            injectIdentity_headers hmac _ username role.value stored huser hrole hbypass hsig
          cases stored with
          | none =>
              simp [verifiedIdentity, hserved, hsecret, forwardHeaders, hs, SecretsAgree]
          | some secret' =>
              have hverify :=
                verifyIdentity_signIdentity hmac hhex hfree secret secret' username role.value true
              by_cases hsame : secret = secret'
              · subst hsame
                simp [verifiedIdentity, hserved, hsecret, forwardHeaders, hu, hr, hb, hs, hverify,
                  SecretsAgree]
              · simp [verifiedIdentity, hserved, hsecret, forwardHeaders, hu, hr, hb, hs, hverify,
                  SecretsAgree, hsame]

def aliceSecret : Secret := ⟨"s3cret", by decide⟩

/-- HMAC-SHA256 at the secret and the tuple of the test below; elsewhere any digest that is free of
collisions. -/
def aliceHmac (key message : String) : String :=
  if key = "s3cret" ∧ message = "alice\nreceive\n1" then
    "db06385f7686bef0ab2a6aac92c784db3defc7a041257a74931e1dbfca6baede"
  else
    String.ofList (List.replicate
      (Encodable.encode (key.toList.map Char.toNat, message.toList.map Char.toNat) + 65) 'a')

theorem aliceHmac_hexDigests : HexDigests aliceHmac := by
  intro key message
  unfold aliceHmac
  split
  · decide
  · refine ⟨?_, ?_⟩
    · intro h
      have hlen := congrArg (fun s : String => s.toList.length) h
      simp at hlen
    · simp [Text.isAscii]

private theorem toNat_map_injective : Function.Injective fun s : String => s.toList.map Char.toNat := by
  intro s t h
  have hchars : s.toList = t.toList :=
    List.map_injective_iff.mpr (fun c d hcd => Char.ext (UInt32.toNat_inj.mp hcd)) h
  exact String.toList_inj.mp hchars

theorem aliceHmac_collisionFree : CollisionFree aliceHmac := by
  intro key message key' message' h
  unfold aliceHmac at h
  split at h <;> split at h
  · rename_i hk hk'
    exact ⟨hk.1.trans hk'.1.symm, hk.2.trans hk'.2.symm⟩
  · have hlen := congrArg (fun s : String => s.toList.length) h
    simp at hlen
  · have hlen := congrArg (fun s : String => s.toList.length) h
    simp at hlen
  · have hlen := congrArg (fun s : String => s.toList.length) h
    simp only [String.toList_ofList, List.length_replicate, Nat.add_right_cancel_iff] at hlen
    obtain ⟨hkey, hmessage⟩ := Prod.mk.inj (Encodable.encode_injective hlen)
    exact ⟨toNat_map_injective hkey, toNat_map_injective hmessage⟩

/-- A browser that forges identity headers, in two spellings, is still seen as who it is. -/
theorem verifiedIdentity_forwardHeaders_forged :
    verifiedIdentity aliceHmac ⟨some "abc", some aliceSecret⟩
      (forwardHeaders aliceHmac
        [("host", "relay"), ("X-WFS-User", "root"), ("x-wfs-role", "write"), ("accept", "*/*")]
        (.identified "alice" .receive) (some aliceSecret)) =
      .ok (some ("alice", "receive", true)) := by
  rw [verifiedIdentity_forwardHeaders aliceHmac aliceHmac_hexDigests aliceHmac_collisionFree _ _ _ _
    (by decide)]
  simp [SecretsAgree, Role.value]

end NetworkFileServer.Server
