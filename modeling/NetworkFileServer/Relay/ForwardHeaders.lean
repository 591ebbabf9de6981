import NetworkFileServer.Framework.OrderedDict
import NetworkFileServer.Relay.AccessPolicy
import NetworkFileServer.Shared.IdentitySig

/-!
# The headers that the proxy forwards

`proxy_request` and `proxy_websocket` copy the browser's headers except the hop-by-hop ones, the
host and everything that starts with `x-wfs-`, and then add the identity that the relay vouches for.
-/

namespace NetworkFileServer.Relay

open Shared

abbrev Headers := OrderedDict String String

/-- `Headers.get`: the first header of that name, in any letter case. -/
def getHeader (headers : Headers) (name : String) : Option String :=
  headers.lookup fun key => decide (Text.lower key = name)

/-- `HOP_BY_HOP`. -/
def hopByHop : List String :=
  ["connection", "keep-alive", "te", "trailers", "transfer-encoding", "upgrade",
    "proxy-authenticate", "proxy-authorization"]

def headerUser : String := "x-wfs-user"

def headerRole : String := "x-wfs-role"

def headerAuthBypass : String := "x-wfs-auth-bypass"

def isStripped (name : String) : Bool :=
  let lname := Text.lower name
  lname ∈ hopByHop || lname = "host" || Text.startsWith lname "x-wfs-"

/-- The loop over `request.headers.items()`, which yields duplicates too. -/
def stripHeaders (headers : Headers) : Headers :=
  headers.foldl (fun forward h => if isStripped h.1 then forward else forward.set h.1 h.2) []

section

variable (hmac : String → String → String)

/-- `_inject_identity`. -/
def injectIdentity (headers : Headers) (username roleValue : String) (secret : Option Secret) :
    Headers :=
  let headers := headers.set headerUser username
  let headers := headers.set headerRole roleValue
  let headers := headers.set headerAuthBypass "1"
  match secret with
  | some secret => headers.set identitySigHeader (signIdentity hmac secret username roleValue true)
  | none => headers

def forwardHeaders (headers : Headers) (decision : AccessDecision) (secret : Option Secret) :
    Headers :=
  let forward := (stripHeaders headers).set "host" ((getHeader headers "host").getD "")
  match decision with
  | .identified username role => injectIdentity hmac forward username role.value secret
  | .passthrough _ => forward

end

theorem stripHeaders_not_wfs (headers : Headers) :
    ∀ h ∈ stripHeaders headers, Text.startsWith (Text.lower h.1) "x-wfs-" = false := by
  have hfold : ∀ (rest forward : Headers),
      (∀ h ∈ forward, Text.startsWith (Text.lower h.1) "x-wfs-" = false) →
      ∀ h ∈ rest.foldl (fun forward h => if isStripped h.1 then forward else forward.set h.1 h.2)
        forward, Text.startsWith (Text.lower h.1) "x-wfs-" = false := by
    intro rest
    induction rest with
    | nil => exact fun forward hforward => hforward
    | cons e rest ih =>
        intro forward hforward
        rw [List.foldl_cons]
        apply ih
        split
        · exact hforward
        · rename_i hkeep
          intro h hmem
          rcases OrderedDict.mem_set_key forward e.1 e.2 h hmem with rfl | hold
          · simp only [isStripped, Bool.or_eq_true, not_or, Bool.not_eq_true] at hkeep
            exact hkeep.2
          · exact hforward h hold
  exact hfold headers [] (by simp)

theorem getHeader_stripped (headers : Headers) (name value : String)
    (hname : Text.startsWith name "x-wfs-" = true) (hhost : name ≠ "host") :
    getHeader ((stripHeaders headers).set "host" value) name = none := by
  have hlower : Text.lower "host" = "host" := by decide
  unfold getHeader
  rw [OrderedDict.lookup_set_of_not _ _ _ _ (by simp [hlower, hhost.symm])]
  apply OrderedDict.lookup_eq_none
  intro h hmem
  have hnot := stripHeaders_not_wfs headers h hmem
  rw [decide_eq_false_iff_not]
  intro heq
  rw [heq, hname] at hnot
  cases hnot

theorem getHeader_set_ne (headers : Headers) (key name value : String)
    (hne : Text.lower key ≠ name) : getHeader (headers.set key value) name = getHeader headers name :=
  OrderedDict.lookup_set_of_not _ headers key value (by simp [hne])

theorem getHeader_set_self (headers : Headers) (key value : String) (hkey : Text.lower key = key)
    (hnone : getHeader headers key = none) : getHeader (headers.set key value) key = some value :=
  OrderedDict.lookup_set_of_none _ headers key value (by simp [hkey]) hnone

theorem injectIdentity_headers (hmac : String → String → String) (headers : Headers)
    (username roleValue : String) (secret : Option Secret)
    (huser : getHeader headers headerUser = none) (hrole : getHeader headers headerRole = none)
    (hbypass : getHeader headers headerAuthBypass = none)
    (hsig : getHeader headers identitySigHeader = none) :
    getHeader (injectIdentity hmac headers username roleValue secret) headerUser = some username ∧
    getHeader (injectIdentity hmac headers username roleValue secret) headerRole = some roleValue ∧
    getHeader (injectIdentity hmac headers username roleValue secret) headerAuthBypass = some "1" ∧
    getHeader (injectIdentity hmac headers username roleValue secret) identitySigHeader =
      secret.map fun s => signIdentity hmac s username roleValue true := by
  have lowerUser : Text.lower headerUser = headerUser := by decide
  have lowerRole : Text.lower headerRole = headerRole := by decide
  have lowerBypass : Text.lower headerAuthBypass = headerAuthBypass := by decide
  have lowerSig : Text.lower identitySigHeader = identitySigHeader := by decide
  -- The three assignments that are made with or without a secret.
  let base := ((headers.set headerUser username).set headerRole roleValue).set headerAuthBypass "1"
  have baseUser : getHeader base headerUser = some username := by
    rw [getHeader_set_ne _ _ _ _ (by decide), getHeader_set_ne _ _ _ _ (by decide)]
    exact getHeader_set_self headers headerUser username lowerUser huser
  have baseRole : getHeader base headerRole = some roleValue := by
    rw [getHeader_set_ne _ _ _ _ (by decide)]
    apply getHeader_set_self _ _ _ lowerRole
    rw [getHeader_set_ne _ _ _ _ (by decide)]
    exact hrole
  have baseBypass : getHeader base headerAuthBypass = some "1" := by
    apply getHeader_set_self _ _ _ lowerBypass
    rw [getHeader_set_ne _ _ _ _ (by decide), getHeader_set_ne _ _ _ _ (by decide)]
    exact hbypass
  have baseSig : getHeader base identitySigHeader = none := by
    rw [getHeader_set_ne _ _ _ _ (by decide), getHeader_set_ne _ _ _ _ (by decide),
      getHeader_set_ne _ _ _ _ (by decide)]
    exact hsig
  cases secret with
  | none => exact ⟨baseUser, baseRole, baseBypass, baseSig⟩
  | some s =>
      refine ⟨?_, ?_, ?_, ?_⟩
      · exact (getHeader_set_ne base identitySigHeader headerUser _ (by decide)).trans baseUser
      · exact (getHeader_set_ne base identitySigHeader headerRole _ (by decide)).trans baseRole
      · exact (getHeader_set_ne base identitySigHeader headerAuthBypass _ (by decide)).trans baseBypass
      · exact getHeader_set_self base identitySigHeader _ lowerSig baseSig

end NetworkFileServer.Relay
