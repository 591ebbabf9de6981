import NetworkFileServer.Server.ModeGuard

/-!
# Trust decisions at arbitrary header values

The four functions of `relay_identity.py` on whatever a client puts into the identity headers. The comparison
with the digest takes ASCII text only, and nothing looks at the signature before.
-/

namespace NetworkFileServer.Server

open Relay Shared

section

variable (hmac : String → String → String) (config : AccessConfig) (headers : Headers)

/-- The identity tuple and the signature that the headers present. -/
def presented : Option (String × String × Bool × String) :=
  match getHeader headers headerUser, getHeader headers headerRole, getHeader headers identitySigHeader with
  | some user, some role, some signature =>
      some (user, role, decide (getHeader headers headerAuthBypass = some "1"), signature)
  | _, _, _ => none

/-- The signature is the HMAC of the tuple. -/
def Vouched (secret : Secret) (headers : Headers) : Prop :=
  ∃ user role bypass, presented headers = some (user, role, bypass, signIdentity hmac secret user role bypass)

/-- The trust decisions are made without an exception, and an identity that is not vouched for is nobody's. -/
structure FailsClosed (secret : Secret) : Prop where
  verified : (verifiedIdentity hmac config.toServerConfig headers).isOk = true
  role : (trustedRole hmac config headers).isOk = true
  user : (trustedUser hmac config headers).isOk = true
  bypassed : (isAuthBypassed hmac config headers).isOk = true
  closed : ¬Vouched hmac secret headers →
    verifiedIdentity hmac config.toServerConfig headers = .ok none ∧ trustedRole hmac config headers = .ok none ∧
      trustedUser hmac config headers = .ok none ∧ isAuthBypassed hmac config headers = .ok false

/-- The signature that reaches the comparison has a character that is not ASCII. -/
def ForeignSignature : Prop :=
  config.mountCode.isSome = true ∧ ∃ user role bypass signature,
    presented headers = some (user, role, bypass, signature) ∧ Text.isAscii signature = false

variable {hmac config headers} {secret : Secret} (hsecret : config.identitySecret = some secret)

theorem failsClosed_of_verified {verified : Option (String × String × Bool)}
    (hverified : verifiedIdentity hmac config.toServerConfig headers = .ok verified)
    (hclosed : ¬Vouched hmac secret headers → verified = none) :
    FailsClosed hmac config headers secret := by
  refine ⟨?_, ?_, ?_, ?_, ?_⟩
  · rw [hverified]
    rfl
  · rw [trustedRole, hverified]
    rfl
  · rw [trustedUser, hverified]
    rfl
  · rw [isAuthBypassed, hverified]
    rfl
  · intro hforged
    rw [hclosed hforged] at hverified
    refine ⟨hverified, ?_, ?_, ?_⟩
    · rw [trustedRole, hverified]
      rfl
    · rw [trustedUser, hverified]
      rfl
    · rw [isAuthBypassed, hverified]
      rfl

include hsecret

theorem verifiedIdentity_of_absent (habsent : presented headers = none) :
    verifiedIdentity hmac config.toServerConfig headers = .ok none := by
  unfold verifiedIdentity
  unfold presented at habsent
  split
  · rfl
  · rw [hsecret]
    simp only
    split
    · rename_i huser hrole hsignature
      rw [huser, hrole, hsignature] at habsent
      cases habsent
    · rfl

theorem verifiedIdentity_of_presented (hserved : config.mountCode.isSome = true) {user role signature : String}
    {bypass : Bool} (hpresented : presented headers = some (user, role, bypass, signature)) :
    verifiedIdentity hmac config.toServerConfig headers =
      (verifyIdentity hmac secret user role bypass signature).map fun valid =>
        if valid then some (user, role, bypass) else none := by
  unfold presented at hpresented
  split at hpresented
  · rename_i huser hrole hsignature
    cases hpresented
    have hnot : (!isRelayServed config.toServerConfig) = false := by simp [isRelayServed, hserved]
    unfold verifiedIdentity
    rw [hnot, hsecret, huser, hrole, hsignature]
    simp only [Bool.false_eq_true, if_false]
    cases verifyIdentity hmac secret user role _ signature with
    | error e => rfl
    | ok valid => cases valid <;> rfl
  · cases hpresented

omit hsecret in
theorem verifyIdentity_of_foreign {user role signature : String} {bypass : Bool}
    (hforeign : Text.isAscii signature = false) :
    verifyIdentity hmac secret user role bypass signature = .error .typeError := by
  have hne : signature ≠ "" := by
    rintro rfl
    cases hforeign
  simp [verifyIdentity, hne, hforeign]

omit hsecret in
theorem verifyIdentity_of_ascii (hhex : HexDigests hmac) {user role signature : String} {bypass : Bool}
    (hascii : Text.isAscii signature = true) :
    verifyIdentity hmac secret user role bypass signature =
      .ok (decide (signature = signIdentity hmac secret user role bypass)) := by
  have hdigest := hhex secret.val (canonical user role bypass)
  by_cases hempty : signature = ""
  · have hne : "" ≠ signIdentity hmac secret user role bypass := hdigest.1.symm
    simp [verifyIdentity, hempty, hne]
  · have hexpected : Text.isAscii (signIdentity hmac secret user role bypass) = true := hdigest.2
    simp [verifyIdentity, hempty, hexpected, hascii, eq_comm]

theorem not_failsClosed_of_foreign (h : ForeignSignature config headers) :
    ¬FailsClosed hmac config headers secret := by
  obtain ⟨hserved, user, role, bypass, signature, hpresented, hforeign⟩ := h
  have hraised : verifiedIdentity hmac config.toServerConfig headers = _ :=
    verifiedIdentity_of_presented hsecret hserved hpresented
  rw [verifyIdentity_of_foreign hforeign] at hraised
  intro hclosed
  have hok := hclosed.verified
  rw [hraised] at hok
  cases hok

/-- With a secret, the trust decisions fail closed exactly if no signature that is not ASCII gets to the
comparison. -/
theorem failsClosed_iff (hhex : HexDigests hmac) :
    FailsClosed hmac config headers secret ↔ ¬ForeignSignature config headers := by
  constructor
  · exact fun hclosed hforeign => not_failsClosed_of_foreign hsecret hforeign hclosed
  · intro hplain
    cases hserved : config.mountCode.isSome with
    | false =>
        have hnot : (!isRelayServed config.toServerConfig) = true := by simp [isRelayServed, hserved]
        have hnobody : verifiedIdentity hmac config.toServerConfig headers = .ok none := by
          rw [verifiedIdentity, hnot]
          rfl
        exact failsClosed_of_verified hnobody fun _ => rfl
    | true =>
        cases hpresented : presented headers with
        | none =>
            exact failsClosed_of_verified (verifiedIdentity_of_absent hsecret hpresented) fun _ => rfl
        | some tuple =>
            obtain ⟨user, role, bypass, signature⟩ := tuple
            have hascii : Text.isAscii signature = true := by
              by_contra hforeign
              exact hplain ⟨hserved, user, role, bypass, signature, hpresented, by simpa using hforeign⟩
            have hverified : verifiedIdentity hmac config.toServerConfig headers = _ :=
              verifiedIdentity_of_presented hsecret hserved hpresented
            rw [verifyIdentity_of_ascii hhex hascii] at hverified
            refine failsClosed_of_verified hverified ?_
            intro hforged
            have hne : signature ≠ signIdentity hmac secret user role bypass := by
              rintro rfl
              exact hforged ⟨user, role, bypass, hpresented⟩
            simp [hne]

end

/-- A tunnel-served server with the secret of the test above. -/
def aliceServer : AccessConfig := ⟨⟨some "abc", some aliceSecret⟩, true, false, false⟩

/-- A forged signature is refused. -/
theorem failsClosed_iff_forged :
    FailsClosed aliceHmac aliceServer
      [("x-wfs-user", "alice"), ("x-wfs-role", "write"), ("x-wfs-identity-sig", "0123")] aliceSecret := by
  refine (failsClosed_iff rfl aliceHmac_hexDigests).mpr ?_
  rintro ⟨-, user, role, bypass, signature, hpresented, hforeign⟩
  have hsignature : presented [("x-wfs-user", "alice"), ("x-wfs-role", "write"), ("x-wfs-identity-sig", "0123")] =
      some ("alice", "write", false, "0123") := by decide
  rw [hsignature] at hpresented
  cases hpresented
  exact absurd hforeign (by decide)

/-- One character of Latin-1 in the signature is an exception. -/
theorem not_failsClosed_latin1 :
    ¬FailsClosed aliceHmac aliceServer
      [("x-wfs-user", "alice"), ("x-wfs-role", "write"), ("x-wfs-identity-sig", "é")] aliceSecret :=
  not_failsClosed_of_foreign rfl ⟨by decide, "alice", "write", false, "é", by decide, by decide⟩

end NetworkFileServer.Server
