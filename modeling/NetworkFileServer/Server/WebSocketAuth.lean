import NetworkFileServer.Server.ModeGuard

/-!
# Signing in over two transports

`AuthMiddleware` gates the HTTP requests, and `websocket_endpoint` gates the socket itself, since the
middleware lets the upgrade through. Both read the session cookie, each in its own way: the
middleware makes a dictionary of the header list, in which the last header of a name counts, and the
endpoint stops at the first one. Only the middleware asks for the bypass that the relay has signed.

What `SimpleCookie` makes of a cookie header and which tokens `AuthTokenService` takes are
parameters.
-/

namespace NetworkFileServer.Server

open Relay Shared

/-- What a request can raise before it is let through. -/
inductive AuthError where
  | cookie
  | signature (e : SignatureError)
deriving DecidableEq

/-- `GUARDED_PREFIX`. -/
def guardedPrefix : String := "/api/"

/-- `EXEMPT_API_PREFIXES`. -/
def exemptApiPrefixes : List String := ["/api/auth/login", "/api/auth/logout", "/api/server-info"]

/-- The paths that the middleware checks. -/
def isGuarded (path : String) : Bool :=
  Text.startsWith path guardedPrefix && !exemptApiPrefixes.any fun exempt => Text.startsWith path exempt

inductive HttpVerdict where
  /-- The application gets the request. -/
  | forwarded
  | unauthorized
  | raised (e : AuthError)
deriving DecidableEq

inductive SocketVerdict where
  /-- The socket goes to the connection manager. -/
  | connected
  /-- It is closed with this code. -/
  | closed (code : Nat)
  | raised (e : AuthError)
deriving DecidableEq

/-- `{k.lower(): v for k, v in headers}`: the last header of a name, in any letter case. -/
def strHeaders (headers : Headers) : Headers :=
  headers.foldl (fun d h => d.set (Text.lower h.1) h.2) []

/-- `dict(headers).get(b"cookie", b"")`: the last cookie header. -/
def lastCookieHeader (headers : Headers) : String :=
  ((headers.reverse.find? fun h => h.1 = "cookie").map Prod.snd).getD ""

/-- The loop over `websocket.headers.raw`: the first cookie header. -/
def firstCookieHeader (headers : Headers) : String :=
  ((headers.find? fun h => h.1 = "cookie").map Prod.snd).getD ""

section

variable (simpleCookie : String → Except AuthError (OrderedDict String String))
  (validateToken : String → Bool)

/-- `_extract_session_cookie`. -/
def extractSessionCookie (cookieHeader : String) : Except AuthError (Option String) :=
  if cookieHeader = "" then .ok none
  else (simpleCookie cookieHeader).map fun cookie => cookie.lookup fun name => decide (name = "session")

/-- `AuthMiddleware.__call__` for an HTTP request. -/
def authMiddleware (hmac : String → String → String) (config : AccessConfig) (path : String)
    (headers : Headers) : HttpVerdict :=
  if !isGuarded path then .forwarded
  else
    match isAuthBypassed hmac config (strHeaders headers) with
    | .error e => .raised (.signature e)
    | .ok true => .forwarded
    | .ok false =>
        match extractSessionCookie simpleCookie (lastCookieHeader headers) with
        | .error e => .raised e
        | .ok none => .unauthorized
        | .ok (some token) => if validateToken token then .forwarded else .unauthorized

/-- The check at the start of `websocket_endpoint`. -/
def websocketAuth (config : AccessConfig) (headers : Headers) : SocketVerdict :=
  if !config.hasPassword then .connected
  else
    let cookieHeader := firstCookieHeader headers
    if cookieHeader = "" then .closed 4001
    else
      match simpleCookie cookieHeader with
      | .error e => .raised e
      | .ok cookie =>
          match cookie.lookup fun name => decide (name = "session") with
          | none => .closed 4001
          | some token => if validateToken token then .connected else .closed 4001

/-- A cookie header with a session token that is valid. -/
def CarriesSession (cookieHeader : String) : Prop :=
  ∃ token, extractSessionCookie simpleCookie cookieHeader = .ok (some token) ∧ validateToken token = true

/-- The cookie headers give the socket and the request the same answer: behind a signed bypass the
first one has to carry a session, without one the first carries a session when the last does, and
where the verification raises, the first carries none. -/
def SameSignIn (hmac : String → String → String) (config : AccessConfig) (headers : Headers) : Prop :=
  match isAuthBypassed hmac config (strHeaders headers) with
  | .ok true => CarriesSession simpleCookie validateToken (firstCookieHeader headers)
  | .ok false =>
      CarriesSession simpleCookie validateToken (firstCookieHeader headers) ↔
        CarriesSession simpleCookie validateToken (lastCookieHeader headers)
  | .error _ => ¬CarriesSession simpleCookie validateToken (firstCookieHeader headers)

/-- With a password the socket is connected by the session of the first cookie header, and by nothing
else. -/
theorem websocketAuth_eq_connected (config : AccessConfig) (headers : Headers)
    (hpassword : config.hasPassword = true) :
    websocketAuth simpleCookie validateToken config headers = .connected ↔
      CarriesSession simpleCookie validateToken (firstCookieHeader headers) := by
  unfold websocketAuth CarriesSession extractSessionCookie
  rw [hpassword]
  by_cases hempty : firstCookieHeader headers = ""
  · simp [hempty]
  · simp only [Bool.not_true, Bool.false_eq_true, ↓reduceIte, hempty]
    cases hcookie : simpleCookie (firstCookieHeader headers) with
    | error e => simp [Except.map]
    | ok cookie =>
        cases htoken : cookie.lookup fun name => decide (name = "session") with
        | none => simp [Except.map, htoken]
        | some token => cases hvalid : validateToken token <;> simp [Except.map, htoken, hvalid]

/-- A guarded request is forwarded by a signed bypass, or by the session of the last cookie header
where the identity headers have been read without an error. -/
theorem authMiddleware_eq_forwarded (hmac : String → String → String) (config : AccessConfig)
    (path : String) (headers : Headers) (hguarded : isGuarded path = true) :
    authMiddleware simpleCookie validateToken hmac config path headers = .forwarded ↔
      isAuthBypassed hmac config (strHeaders headers) = .ok true ∨
        isAuthBypassed hmac config (strHeaders headers) = .ok false ∧
          CarriesSession simpleCookie validateToken (lastCookieHeader headers) := by
  unfold authMiddleware CarriesSession
  rw [hguarded]
  cases hbypass : isAuthBypassed hmac config (strHeaders headers) with
  | error e => simp
  | ok bypassed =>
      cases bypassed with
      | true => simp
      | false =>
          cases htoken : extractSessionCookie simpleCookie (lastCookieHeader headers) with
          | error e => simp
          | ok found =>
              cases found with
              | none => simp
              | some token => cases hvalid : validateToken token <;> simp [hvalid]

/-- Socket and request are let through together exactly when the cookie headers answer alike, and a
signed bypass comes with a session. -/
theorem websocketAuth_agrees_iff (hmac : String → String → String) (config : AccessConfig)
    (path : String) (headers : Headers) (hpassword : config.hasPassword = true)
    (hguarded : isGuarded path = true) :
    (websocketAuth simpleCookie validateToken config headers = .connected ↔
        authMiddleware simpleCookie validateToken hmac config path headers = .forwarded) ↔
      SameSignIn simpleCookie validateToken hmac config headers := by
  rw [websocketAuth_eq_connected simpleCookie validateToken config headers hpassword,
    authMiddleware_eq_forwarded simpleCookie validateToken hmac config path headers hguarded]
  unfold SameSignIn
  cases isAuthBypassed hmac config (strHeaders headers) with
  | error e => simp
  | ok bypassed => cases bypassed <;> simp

theorem lastCookieHeader_eq_first (before after : Headers) (value : String)
    (hbefore : ∀ h ∈ before, h.1 ≠ "cookie") (hafter : ∀ h ∈ after, h.1 ≠ "cookie") :
    lastCookieHeader (before ++ ("cookie", value) :: after) =
      firstCookieHeader (before ++ ("cookie", value) :: after) := by
  have hfirst : (before.find? fun h => h.1 = "cookie") = none := by
    rw [List.find?_eq_none]
    intro h hmem
    simpa using hbefore h hmem
  have hlast : (after.reverse.find? fun h => h.1 = "cookie") = none := by
    rw [List.find?_eq_none]
    intro h hmem
    simpa using hafter h (List.mem_reverse.mp hmem)
  simp [lastCookieHeader, firstCookieHeader, List.find?_append, hfirst, hlast]

theorem sameSignIn_of_one_cookie (hmac : String → String → String) (config : AccessConfig)
    (before after : Headers) (value : String) (hbefore : ∀ h ∈ before, h.1 ≠ "cookie")
    (hafter : ∀ h ∈ after, h.1 ≠ "cookie")
    (hbypass : isAuthBypassed hmac config (strHeaders (before ++ ("cookie", value) :: after)) = .ok false) :
    SameSignIn simpleCookie validateToken hmac config (before ++ ("cookie", value) :: after) := by
  unfold SameSignIn
  rw [hbypass, lastCookieHeader_eq_first before after value hbefore hafter]

end

/-- `SimpleCookie` at the headers of the examples below. -/
def plainSession (cookieHeader : String) : Except AuthError (OrderedDict String String) :=
  .ok (if cookieHeader = "session=live" then [("session", "live")]
    else if cookieHeader = "session=dead" then [("session", "dead")] else [])

def passwordConfig : AccessConfig :=
  { mountCode := some "abc", identitySecret := some aliceSecret, hasPassword := true, readOnly := false,
    receive := false }

/-- The identity headers that the relay signs for an allow-listed user. -/
def aliceIdentity : Headers :=
  [("x-wfs-user", "alice"), ("x-wfs-role", "receive"), ("x-wfs-auth-bypass", "1"),
    ("x-wfs-identity-sig", "db06385f7686bef0ab2a6aac92c784db3defc7a041257a74931e1dbfca6baede")]

theorem websocketAuth_agrees_on_session :
    (websocketAuth plainSession (· = "live") passwordConfig [("cookie", "session=live")] = .connected ↔
        authMiddleware plainSession (· = "live") aliceHmac passwordConfig "/api/files"
          [("cookie", "session=live")] = .forwarded) ↔
      SameSignIn plainSession (· = "live") aliceHmac passwordConfig [("cookie", "session=live")] :=
  websocketAuth_agrees_iff plainSession _ aliceHmac passwordConfig "/api/files" _ rfl (by decide)

/-- Alice's requests are let through by the bypass that the relay has signed for her, and her socket is
closed. -/
theorem websocketAuth_disagrees :
    ¬∀ (simpleCookie : String → Except AuthError (OrderedDict String String))
        (validateToken : String → Bool) (hmac : String → String → String) (config : AccessConfig)
        (path : String) (headers : Headers), config.hasPassword = true → isGuarded path = true →
        (websocketAuth simpleCookie validateToken config headers = .connected ↔
          authMiddleware simpleCookie validateToken hmac config path headers = .forwarded) := by
  intro h
  have hagree := h plainSession (· = "live") aliceHmac passwordConfig "/api/files" aliceIdentity rfl
    (by decide)
  have hforwarded : authMiddleware plainSession (· = "live") aliceHmac passwordConfig "/api/files"
      aliceIdentity = .forwarded := by
    decide +kernel
  have hconnected := hagree.mpr hforwarded
  revert hconnected
  decide +kernel

/-- Two cookie headers, of which only the last carries a session, divide the transports as well. -/
example : websocketAuth plainSession (· = "live") passwordConfig
      [("cookie", "session=dead"), ("cookie", "session=live")] = .closed 4001 ∧
    authMiddleware plainSession (· = "live") aliceHmac passwordConfig "/api/files"
      [("cookie", "session=dead"), ("cookie", "session=live")] = .forwarded := by
  decide +kernel

end NetworkFileServer.Server
