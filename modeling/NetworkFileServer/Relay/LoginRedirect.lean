import NetworkFileServer.Relay.Sessions

/-!
# Redirects after a login

`_safe_next`, `oidc_login` and the redirect of `oidc_callback` in `oidc_auth.py`, with the signed state of
`session.py`, and `nextTarget` of `LoginPage.tsx`. Both filter the parameter `next`.
-/

namespace NetworkFileServer.Relay

open Accounts
open Text (startsWith)
open Tunnel (Bytes)

/-- `_safe_next` -/
def safeNext : Option String → String
  | none => "/"
  | some raw => if raw ≠ "" ∧ startsWith raw "/" ∧ !startsWith raw "//" then raw else "/"

/-- `nextTarget` of the login page. -/
def nextTarget : Option String → String
  | none => "/"
  | some p => if p ≠ "" ∧ startsWith p "/" then p else "/"

/-- `_LOGIN_ERROR_REDIRECT` -/
def loginErrorRedirect : String := "/login?sso_error=1"

/-- `OIDC_STATE_MAX_AGE_SECONDS` -/
def oidcStateMaxAgeSeconds : ℤ := 600

/-- The payload of the state. -/
structure OauthState where
  next : String
  csrf : String
deriving DecidableEq

/-- What a callback brings: the parameters of the query (`code` and `state` if they are not empty), the CSRF
cookie, and the `sub` and the claims if the exchange with the identity provider succeeds. -/
structure CallbackRequest (τ : Type*) where
  error : Option String
  code : Option String
  state : Option τ
  csrfCookie : Option String
  exchange : Option (String × Claims)
  sentinel : Nat → Bytes
  createdAt : Nat → ℚ

inductive CallbackReply (τ : Type*) where
  /-- A redirect, with the session cookie if one is set. -/
  | redirect (url : String) (cookie : Option τ)
  | error (status : Nat)

def CallbackReply.url {τ : Type*} : CallbackReply τ → Option String
  | .redirect url _ => some url
  | .error _ => none

section Server

variable {τ : Type*} (lib : AuthLibraries τ) (states : TimedSerializer OauthState τ)

/-- `issue_oauth_state`; `none` is a `ValueError`. -/
def issueOauthState (now : ℚ) (nextUrl csrf : String) : Option τ :=
  if csrf = "" then none else some (states.dumps now ⟨nextUrl, csrf⟩)

/-- `verify_oauth_state`; `none` is an `InvalidSessionError`. -/
def verifyOauthState (now : ℚ) (token : τ) : Option OauthState :=
  states.loads now oidcStateMaxAgeSeconds token

/-- The state that `oidc_login` signs for the identity provider; `csrf` is the nonce that it draws. -/
def oidcLogin (now : ℚ) (next : Option String) (csrf : String) : Option τ :=
  issueOauthState states now (safeNext next) csrf

/-- `oidc_callback` with the redirect that it answers. -/
def oidcCallbackReply (s : AuthState τ) (now : ℚ) (request : CallbackRequest τ) : CallbackReply τ :=
  if request.error.any (· ≠ "") then .redirect loginErrorRedirect none
  else
    match request.code, request.state with
    | some _, some rawState =>
        match verifyOauthState states now rawState with
        | none => .redirect loginErrorRedirect none
        | some state =>
            match request.csrfCookie with
            | none => .redirect loginErrorRedirect none
            | some cookie =>
                if cookie = "" then .redirect loginErrorRedirect none
                -- `compare_digest` raises a `TypeError`.
                else if !(Text.isAscii cookie && Text.isAscii state.csrf) then .error 500
                else if cookie ≠ state.csrf then .redirect loginErrorRedirect none
                else
                  match (oidcCallback lib s now request.exchange request.sentinel request.createdAt).2 with
                  | .cookie _ token => .redirect state.next (some token)
                  | .error status => .error status
                  | _ => .redirect loginErrorRedirect none
    | _, _ => .redirect loginErrorRedirect none

end Server

/-- What `submit` assigns to the location, after the answer to `accounts.login`. -/
def submit (next : Option String) (accepted : Bool) : Option String :=
  if accepted then some (nextTarget next) else none

/-- The button "Continue as guest". -/
def continueAsGuest (next : Option String) : String := nextTarget next

/-- The parameter `next` of the link "Sign in with Mugyen". -/
def ssoLinkNext (next : Option String) : Option String := some (nextTarget next)

/-- A slash, and behind it neither a slash nor a backslash. -/
def OnSite (target : String) : Prop :=
  ∃ rest, target.toList = '/' :: rest ∧ rest.head? ≠ some '/' ∧ rest.head? ≠ some '\\'

/-- Where the round trip of `oidc_login` ends, with any callback that presents its state. -/
def RoundTripOnSite {τ : Type*} (lib : AuthLibraries τ) (states : TimedSerializer OauthState τ)
    (next : Option String) : Prop :=
  ∀ issuedAt csrf token, oidcLogin states issuedAt next csrf = some token →
    ∀ s now request, request.state = some token →
      ∀ url ∈ (oidcCallbackReply lib states s now request).url, OnSite url

/-- All redirects that a parameter `next` leads to. -/
structure StaysOnSite {τ : Type*} (lib : AuthLibraries τ) (states : TimedSerializer OauthState τ)
    (next : Option String) : Prop where
  safeNext : OnSite (safeNext next)
  roundTrip : RoundTripOnSite lib states next
  submit : ∀ accepted, ∀ url ∈ submit next accepted, OnSite url
  guest : OnSite (continueAsGuest next)
  ssoLink : RoundTripOnSite lib states (ssoLinkNext next)

/-- Neither relative to the scheme nor the spelling of it that browsers take for the same. -/
def PathOnly (next : Option String) : Bool :=
  next.all fun raw => !startsWith raw "//" && !startsWith raw "/\\"

theorem onSite_root : OnSite "/" := ⟨[], by decide, by decide, by decide⟩

theorem onSite_loginErrorRedirect : OnSite loginErrorRedirect :=
  ⟨"login?sso_error=1".toList, by decide, by decide, by decide⟩

theorem startsWith_two (raw start : String) (c : Char) (hstart : start.toList = ['/', c]) :
    startsWith raw start = true ↔ ∃ rest, raw.toList = '/' :: c :: rest := by
  unfold startsWith
  rw [hstart, List.isPrefixOf_iff_prefix]
  constructor
  · intro ⟨rest, hrest⟩
    exact ⟨rest, hrest.symm⟩
  · intro ⟨rest, hrest⟩
    exact ⟨rest, hrest.symm⟩

theorem startsWith_slash (raw : String) : startsWith raw "/" = true ↔ ∃ rest, raw.toList = '/' :: rest := by
  have hlist : startsWith raw "/" = ['/'].isPrefixOf raw.toList := rfl
  rw [hlist, List.isPrefixOf_iff_prefix]
  constructor
  · intro ⟨rest, hrest⟩
    exact ⟨rest, hrest.symm⟩
  · intro ⟨rest, hrest⟩
    exact ⟨rest, hrest.symm⟩

theorem startsWith_slash_of_two (raw start : String) {c : Char} (hstart : start.toList = ['/', c])
    (h : startsWith raw start = true) : startsWith raw "/" = true := by
  obtain ⟨rest, hrest⟩ := (startsWith_two raw start c hstart).mp h
  exact (startsWith_slash raw).mpr ⟨c :: rest, hrest⟩

theorem startsWith_two_ne (raw start start' : String) {c c' : Char} (hstart : start.toList = ['/', c])
    (hstart' : start'.toList = ['/', c']) (hne : c ≠ c') (h : startsWith raw start = true) :
    startsWith raw start' = false := by
  rw [← Bool.not_eq_true, startsWith_two raw start' c' hstart']
  intro ⟨rest', hrest'⟩
  obtain ⟨rest, hrest⟩ := (startsWith_two raw start c hstart).mp h
  rw [hrest] at hrest'
  simp only [List.cons.injEq, true_and] at hrest'
  exact hne hrest'.1

theorem ne_empty_of_startsWith {raw : String} (h : startsWith raw "/" = true) : raw ≠ "" := by
  rintro rfl
  revert h
  decide

/-- A text that begins with a slash is on the site unless one of the two follows. -/
theorem onSite_iff (raw : String) (h : startsWith raw "/" = true) :
    OnSite raw ↔ startsWith raw "//" = false ∧ startsWith raw "/\\" = false := by
  obtain ⟨rest, hrest⟩ := (startsWith_slash raw).mp h
  rw [← Bool.not_eq_true, ← Bool.not_eq_true, startsWith_two raw "//" '/' rfl,
    startsWith_two raw "/\\" '\\' rfl]
  constructor
  · intro ⟨rest', hrest', hslash, hbackslash⟩
    constructor
    · intro ⟨more, hmore⟩
      rw [hmore, List.cons.injEq] at hrest'
      exact hslash (by rw [← hrest'.2]; rfl)
    · intro ⟨more, hmore⟩
      rw [hmore, List.cons.injEq] at hrest'
      exact hbackslash (by rw [← hrest'.2]; rfl)
  · intro ⟨hslash, hbackslash⟩
    refine ⟨rest, hrest, ?_, ?_⟩
    · intro hhead
      obtain ⟨more, rfl⟩ := List.head?_eq_some_iff.mp hhead
      exact hslash ⟨more, hrest⟩
    · intro hhead
      obtain ⟨more, rfl⟩ := List.head?_eq_some_iff.mp hhead
      exact hbackslash ⟨more, hrest⟩

theorem nextTarget_cases (next : Option String) :
    nextTarget next = "/" ∧ (∀ raw ∈ next, startsWith raw "/" = false) ∨
      ∃ raw, next = some raw ∧ startsWith raw "/" = true ∧ nextTarget next = raw := by
  cases next with
  | none => exact .inl ⟨rfl, by simp⟩
  | some raw =>
      by_cases h : startsWith raw "/" = true
      · exact .inr ⟨raw, rfl, h, by simp [nextTarget, h, ne_empty_of_startsWith h]⟩
      · refine .inl ⟨by simp [nextTarget, h], ?_⟩
        intro raw' hraw'
        cases hraw'
        simpa using h

theorem onSite_nextTarget_iff (next : Option String) : OnSite (nextTarget next) ↔ PathOnly next = true := by
  rcases nextTarget_cases next with ⟨hroot, hno⟩ | ⟨raw, rfl, hslash, htarget⟩
  · have hpath : PathOnly next = true := by
      cases next with
      | none => rfl
      | some raw =>
          have hfalse : ∀ (start : String) (c : Char), start.toList = ['/', c] → startsWith raw start = false := by
            intro start c hstart
            rw [← Bool.not_eq_true]
            intro h
            exact Bool.false_ne_true ((hno raw rfl).symm.trans (startsWith_slash_of_two raw _ hstart h))
          simp only [PathOnly, Option.all_some, hfalse "//" '/' rfl, hfalse "/\\" '\\' rfl, Bool.not_false,
            Bool.and_self]
    rw [hroot, hpath]
    exact iff_of_true onSite_root rfl
  · rw [htarget, onSite_iff raw hslash]
    simp only [PathOnly, Option.all_some, Bool.and_eq_true, Bool.not_eq_true']

theorem safeNext_eq (next : Option String) :
    safeNext next = if next.any (startsWith · "//") then "/" else nextTarget next := by
  cases next with
  | none => rfl
  | some raw =>
      by_cases htwo : startsWith raw "//" = true
      · simp [safeNext, htwo]
      · simp [safeNext, nextTarget, htwo]

theorem safeNext_eq_nextTarget_iff (next : Option String) :
    safeNext next = nextTarget next ↔ next.any (startsWith · "//") = false := by
  rw [safeNext_eq]
  by_cases htwo : next.any (startsWith · "//") = true
  · rw [if_pos htwo, htwo]
    cases next with
    | none => cases htwo
    | some raw =>
        have hslash : startsWith raw "/" = true := startsWith_slash_of_two raw "//" rfl htwo
        have hne : "/" ≠ raw := by
          rintro rfl
          revert htwo
          decide
        simp [nextTarget, hslash, ne_empty_of_startsWith hslash, hne]
  · rw [if_neg htwo, Bool.eq_false_iff.mpr htwo]
    simp

theorem onSite_safeNext_iff (next : Option String) :
    OnSite (safeNext next) ↔ next.any (startsWith · "/\\") = false := by
  rw [safeNext_eq]
  cases next with
  | none => exact iff_of_true onSite_root rfl
  | some raw =>
      simp only [Option.any_some]
      by_cases htwo : startsWith raw "//" = true
      · rw [if_pos htwo]
        exact iff_of_true onSite_root (startsWith_two_ne raw _ "/\\" rfl rfl (by decide) htwo)
      · rw [if_neg htwo, onSite_nextTarget_iff]
        simp [PathOnly, htwo]

theorem safeNext_ssoLinkNext (next : Option String) : safeNext (ssoLinkNext next) = safeNext next := by
  rcases nextTarget_cases next with ⟨hroot, hno⟩ | ⟨raw, rfl, hslash, htarget⟩
  · rw [ssoLinkNext, hroot]
    cases next with
    | none => decide
    | some raw =>
        have hraw : safeNext (some raw) = "/" := by simp [safeNext, hno raw rfl]
        rw [hraw]
        decide
  · rw [ssoLinkNext, htarget]

section RoundTrip

variable {τ : Type*} (lib : AuthLibraries τ) (states : TimedSerializer OauthState τ)

theorem oidcCallbackReply_url (s : AuthState τ) (now : ℚ) (request : CallbackRequest τ) (url : String)
    (h : url ∈ (oidcCallbackReply lib states s now request).url) :
    url = loginErrorRedirect ∨
      ∃ token state, request.state = some token ∧ verifyOauthState states now token = some state ∧
        url = state.next := by
  revert h
  unfold oidcCallbackReply
  split
  · intro h
    exact .inl (Option.mem_some_iff.mp h).symm
  · split
    · rename_i code token hcode htoken
      split
      · intro h
        exact .inl (Option.mem_some_iff.mp h).symm
      · rename_i state hstate
        split
        · intro h
          exact .inl (Option.mem_some_iff.mp h).symm
        · split
          · intro h
            exact .inl (Option.mem_some_iff.mp h).symm
          · split
            · intro h
              cases h
            · split
              · intro h
                exact .inl (Option.mem_some_iff.mp h).symm
              · split
                · intro h
                  exact .inr ⟨token, state, htoken, hstate, (Option.mem_some_iff.mp h).symm⟩
                · intro h
                  cases h
                · intro h
                  exact .inl (Option.mem_some_iff.mp h).symm
    · intro h
      exact .inl (Option.mem_some_iff.mp h).symm

theorem verifyOauthState_oidcLogin (issuedAt now : ℚ) (next : Option String) (csrf : String) (token : τ)
    (state : OauthState) (hlogin : oidcLogin states issuedAt next csrf = some token)
    (hverify : verifyOauthState states now token = some state) : state = ⟨safeNext next, csrf⟩ := by
  unfold oidcLogin issueOauthState at hlogin
  split at hlogin
  · cases hlogin
  · rw [← Option.some.inj hlogin, verifyOauthState, states.loads_dumps] at hverify
    split at hverify
    · exact (Option.some.inj hverify).symm
    · cases hverify

theorem roundTripOnSite (next : Option String) (h : OnSite (safeNext next)) :
    RoundTripOnSite lib states next := by
  intro issuedAt csrf token hlogin s now request hrequest url hurl
  rcases oidcCallbackReply_url lib states s now request url hurl with rfl | ⟨token', state, htoken, hstate, rfl⟩
  · exact onSite_loginErrorRedirect
  · rw [hrequest, Option.some.injEq] at htoken
    subst htoken
    rw [verifyOauthState_oidcLogin states issuedAt now next csrf token state hlogin hstate]
    exact h

/-- The redirects stay on the site exactly for a parameter that begins neither with two slashes nor with a
slash and a backslash. -/
theorem staysOnSite_iff (next : Option String) :
    StaysOnSite lib states next ↔ PathOnly next = true := by
  constructor
  · intro h
    exact (onSite_nextTarget_iff next).mp h.guest
  · intro hpath
    have hpage : OnSite (nextTarget next) := (onSite_nextTarget_iff next).mpr hpath
    have hserver : OnSite (safeNext next) := by
      rw [onSite_safeNext_iff]
      cases next with
      | none => rfl
      | some raw =>
          simp only [PathOnly, Option.all_some, Bool.and_eq_true, Bool.not_eq_true'] at hpath
          exact hpath.2
    refine ⟨hserver, roundTripOnSite lib states next hserver, ?_, hpage, ?_⟩
    · intro accepted url hurl
      cases accepted with
      | false => cases hurl
      | true => rwa [← Option.some.inj hurl]
    · apply roundTripOnSite
      rwa [safeNext_ssoLinkNext]

/-- `/login?next=//evil.com` leads guests and those who log in to another host. -/
theorem not_staysOnSite_otherHost :
    ∃ next : Option String, nextTarget next = "//evil.com" ∧
      ∀ {τ : Type} (lib : AuthLibraries τ) (states : TimedSerializer OauthState τ),
        ¬ StaysOnSite lib states next := by
  refine ⟨some "//evil.com", by decide, ?_⟩
  intro τ lib states h
  exact absurd ((onSite_nextTarget_iff _).mp h.guest) (by decide)

end RoundTrip

end NetworkFileServer.Relay
