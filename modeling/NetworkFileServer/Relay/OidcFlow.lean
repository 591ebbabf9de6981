import Mathlib.Logic.Function.Basic
import NetworkFileServer.Framework.TransitionSystem
import NetworkFileServer.Relay.LoginRedirect

/-!
# The round trip of an SSO login

`oidc_login` and `oidc_callback` with many browsers at once, who all wait for the identity provider and for
their answers. A browser keeps the CSRF cookie that an answer sets until an answer deletes it, and it may
withhold it. Links lead a browser to the callback with any parameters. Other clients send what they like.
-/

namespace NetworkFileServer.Relay

open Accounts

section Callback

variable {τ : Type*} (lib : AuthLibraries τ) (states : TimedSerializer OauthState τ)

/-- `oidc_callback` up to the exchange of the code. -/
def callbackChecks (now : ℚ) (request : CallbackRequest τ) : Except (CallbackReply τ) OauthState :=
  if request.error.any (· ≠ "") then .error (.redirect loginErrorRedirect none)
  else
    match request.code, request.state with
    | some _, some rawState =>
        match verifyOauthState states now rawState with
        | none => .error (.redirect loginErrorRedirect none)
        | some state =>
            match request.csrfCookie with
            | none => .error (.redirect loginErrorRedirect none)
            | some cookie =>
                if cookie = "" then .error (.redirect loginErrorRedirect none)
                -- `compare_digest` raises a `TypeError`.
                else if !(Text.isAscii cookie && Text.isAscii state.csrf) then .error (.error 500)
                else if cookie ≠ state.csrf then .error (.redirect loginErrorRedirect none)
                else .ok state
    | _, _ => .error (.redirect loginErrorRedirect none)

/-- `oidc_callback` from the exchange on. -/
def callbackEnd (s : AuthState τ) (now : ℚ) (request : CallbackRequest τ) (state : OauthState) :
    AuthState τ × CallbackReply τ :=
  let (s', reply) := oidcCallback lib s now request.exchange request.sentinel request.createdAt
  (s',
    match reply with
    | .cookie _ token => .redirect state.next (some token)
    | .error status => .error status
    | _ => .redirect loginErrorRedirect none)

theorem oidcCallbackReply_eq (s : AuthState τ) (now : ℚ) (request : CallbackRequest τ) :
    oidcCallbackReply lib states s now request =
      match callbackChecks states now request with
      | .error reply => reply
      | .ok state => (callbackEnd lib s now request state).2 := by
  unfold oidcCallbackReply callbackChecks
  by_cases herror : request.error.any (· ≠ "") = true
  · rw [if_pos herror, if_pos herror]
  · rw [if_neg herror, if_neg herror]
    cases request.code with
    | none => rfl
    | some code =>
        cases request.state with
        | none => rfl
        | some rawState =>
            cases hverify : verifyOauthState states now rawState with
            | none => simp only [hverify]
            | some state =>
                cases request.csrfCookie with
                | none => simp only [hverify]
                | some cookie =>
                    simp only [hverify]
                    split
                    · rfl
                    · split
                      · rfl
                      · split
                        · rfl
                        · rfl

theorem callbackChecks_eq_ok_iff (now : ℚ) (request : CallbackRequest τ) (state : OauthState) :
    callbackChecks states now request = .ok state ↔
      request.error.any (· ≠ "") = false ∧ request.code.isSome ∧ request.csrfCookie = some state.csrf ∧
        (state.csrf ≠ "" ∧ Text.isAscii state.csrf) ∧
          ∃ token, request.state = some token ∧ verifyOauthState states now token = some state := by
  unfold callbackChecks
  by_cases herror : request.error.any (· ≠ "") = true
  · rw [if_pos herror, herror]
    simp
  · rw [if_neg herror, Bool.eq_false_iff.mpr herror]
    cases request.code with
    | none => simp
    | some code =>
        cases request.state with
        | none => simp
        | some rawState =>
            cases hverify : verifyOauthState states now rawState with
            | none => simp [hverify]
            | some state' =>
                cases hcookie : request.csrfCookie with
                | none => simp [hverify]
                | some cookie =>
                    simp only [hverify, Option.isSome_some, Option.some.injEq, true_and, exists_eq_left']
                    split
                    · rename_i hempty
                      simp only [reduceCtorEq, false_iff]
                      rintro ⟨rfl, ⟨hne, -⟩, rfl⟩
                      exact hne hempty
                    · split
                      · rename_i hascii
                        simp only [reduceCtorEq, false_iff]
                        rintro ⟨rfl, ⟨-, hstate⟩, rfl⟩
                        simp [hstate] at hascii
                      · split
                        · rename_i hne
                          simp only [reduceCtorEq, false_iff]
                          rintro ⟨rfl, -, rfl⟩
                          exact hne rfl
                        · rename_i hempty hascii hne
                          simp only [Decidable.not_not] at hne
                          subst hne
                          simp only [Bool.and_self, Bool.not_eq_true', Bool.not_eq_false] at hascii
                          constructor
                          · intro h
                            rw [Except.ok.injEq] at h
                            subst h
                            exact ⟨rfl, ⟨hempty, hascii⟩, rfl⟩
                          · rintro ⟨-, -, rfl⟩
                            rfl

end Callback

/-- What an answer does to the CSRF cookie of the browser. -/
inductive CsrfUpdate where
  | keep
  | set (csrf : String)
  | delete
deriving DecidableEq

def CsrfUpdate.apply : CsrfUpdate → Option String → Option String
  | .keep, cookie => cookie
  | .set csrf, _ => some csrf
  | .delete, _ => none

/-- `_clear_csrf` is on every redirect of a callback. -/
def CallbackReply.csrf {τ : Type*} : CallbackReply τ → CsrfUpdate
  | .redirect _ _ => .delete
  | .error _ => .keep

theorem CallbackReply.csrf_ne_set {τ : Type*} (reply : CallbackReply τ) (csrf : String) : reply.csrf ≠ .set csrf := by
  cases reply with
  | _ => simp [CallbackReply.csrf]

/-- Where a request is. A client that is not a browser is `none`. -/
inductive ExchangePc (τ : Type*) where
  /-- `oidc_login` awaits `authorize_url`. -/
  | authorizing (csrf : String)
  /-- `oidc_callback` has checked the request and awaits the identity provider. -/
  | exchanging (checkedAt : ℚ) (request : CallbackRequest τ) (state : OauthState)
  | replied (update : CsrfUpdate)
  | received

/-- The nonce that is on the way to the client. -/
def ExchangePc.nonce {τ : Type*} : ExchangePc τ → Option String
  | .authorizing csrf | .replied (.set csrf) => some csrf
  | _ => none

/-- The handler is still running. -/
def ExchangePc.running {τ : Type*} : ExchangePc τ → Bool
  | .authorizing _ | .exchanging _ _ _ => true
  | .replied _ | .received => false

structure Exchange (τ : Type*) where
  client : Option Nat
  pc : ExchangePc τ

/-- A login that has begun, with the nonce that was drawn and the state that was signed for it. -/
structure BegunLogin (τ : Type*) where
  client : Option Nat
  issuedAt : ℚ
  next : Option String
  csrf : String
  token : τ

/-- A session that the callback number `exchange` has set. -/
structure Landed (τ : Type*) where
  exchange : Nat
  client : Option Nat
  checkedAt : ℚ
  presented : Option τ
  csrf : String
  url : String
  session : τ

structure OidcFlow (τ : Type*) where
  server : AuthState τ
  /-- The CSRF cookie of each browser. -/
  jars : Nat → Option String
  exchanges : List (Exchange τ)
  logins : List (BegunLogin τ)
  landed : List (Landed τ)

inductive OidcAction (τ : Type*) where
  | login (client : Option Nat) (now : ℚ) (next : Option String) (csrf : String)
  /-- `authorize_url` returns or raises an `OidcError`. -/
  | authorize (i : Nat) (ok : Bool)
  | callback (client : Option Nat) (now : ℚ) (request : CallbackRequest τ)
  /-- The identity provider has answered, and the callback ends. -/
  | finish (i : Nat) (now : ℚ)
  /-- The handler is cancelled, or raises what nothing catches. -/
  | abort (i : Nat)
  /-- The answer reaches the client. -/
  | deliver (i : Nat)
  /-- A request of the other handlers of `auth.py`. -/
  | serve (now : ℚ) (request : AuthRequest)

namespace OidcFlow

variable {τ : Type*}

def start (server : AuthState τ) : OidcFlow τ := ⟨server, fun _ => none, [], [], []⟩

/-- A browser sends the cookie that it holds, or none. -/
def sends (s : OidcFlow τ) : Option Nat → Option String → Bool
  | none, _ => true
  | some _, none => true
  | some browser, some cookie => s.jars browser = some cookie

def put (s : OidcFlow τ) (i : Nat) (client : Option Nat) (pc : ExchangePc τ) : OidcFlow τ :=
  { s with exchanges := s.exchanges.set i ⟨client, pc⟩ }

def push (s : OidcFlow τ) (client : Option Nat) (pc : ExchangePc τ) : OidcFlow τ :=
  { s with exchanges := s.exchanges ++ [⟨client, pc⟩] }

def receive (s : OidcFlow τ) (update : CsrfUpdate) : Option Nat → OidcFlow τ
  | none => s
  | some browser => { s with jars := Function.update s.jars browser (update.apply (s.jars browser)) }

/-- The session of an answer, if it sets one. -/
def landing (i : Nat) (client : Option Nat) (checkedAt : ℚ) (request : CallbackRequest τ) (state : OauthState) :
    CallbackReply τ → List (Landed τ)
  | .redirect url (some session) => [⟨i, client, checkedAt, request.state, state.csrf, url, session⟩]
  | _ => []

variable (lib : AuthLibraries τ) (states : TimedSerializer OauthState τ)

def step (s : OidcFlow τ) : OidcAction τ → Option (OidcFlow τ)
  | .login client now next csrf =>
      match oidcLogin states now next csrf with
      | none => some (s.push client (.replied .keep))
      | some token =>
          some { s.push client (.authorizing csrf) with logins := s.logins ++ [⟨client, now, next, csrf, token⟩] }
  | .authorize i ok =>
      match s.exchanges[i]? with
      | some ⟨client, .authorizing csrf⟩ => some (s.put i client (.replied (if ok then .set csrf else .keep)))
      | _ => none
  | .callback client now request =>
      if s.sends client request.csrfCookie then
        match callbackChecks states now request with
        | .error reply => some (s.push client (.replied reply.csrf))
        | .ok state => some (s.push client (.exchanging now request state))
      else none
  | .finish i now =>
      match s.exchanges[i]? with
      | some ⟨client, .exchanging checkedAt request state⟩ =>
          let (server, reply) := callbackEnd lib s.server now request state
          some
            { s.put i client (.replied reply.csrf) with
              server
              landed := s.landed ++ landing i client checkedAt request state reply }
      | _ => none
  | .abort i =>
      match s.exchanges[i]? with
      | some ⟨client, .authorizing _⟩ | some ⟨client, .exchanging _ _ _⟩ => some (s.put i client (.replied .keep))
      | _ => none
  | .deliver i =>
      match s.exchanges[i]? with
      | some ⟨client, .replied update⟩ => some ((s.put i client .received).receive update client)
      | _ => none
  | .serve now request =>
      match request with
      | .oidcCallback _ _ _ => none
      | _ => some { s with server := (serve lib s.server now request).1 }

/-- What a session says about the callback that has set it. -/
structure LandedFrom (x : Landed τ) (client : Option Nat) (i : Nat) (pc : ExchangePc τ) (update : CsrfUpdate) :
    Prop where
  exchange : x.exchange = i
  client : x.client = client
  deletes : update = .delete
  checked : ∃ request state, pc = .exchanging x.checkedAt request state ∧ x.presented = request.state ∧
    x.csrf = state.csrf ∧ x.url = state.next

/-- The moves of the system: an action begins a request, ends a handler or delivers an answer. -/
inductive Effect (s : OidcFlow τ) : OidcAction τ → OidcFlow τ → Prop where
  | begun (client : Option Nat) (now : ℚ) (next : Option String) (csrf : String) :
      Effect s (.login client now next csrf)
        { s.push client (.authorizing csrf) with
          logins := s.logins ++ [⟨client, now, next, csrf, states.dumps now ⟨safeNext next, csrf⟩⟩] }
  | checked (client : Option Nat) (now : ℚ) (request : CallbackRequest τ) (state : OauthState)
      (hsends : s.sends client request.csrfCookie = true) (hok : callbackChecks states now request = .ok state) :
      Effect s (.callback client now request) (s.push client (.exchanging now request state))
  | refused (a : OidcAction τ) (client : Option Nat) (update : CsrfUpdate) (hupdate : ∀ csrf, update ≠ .set csrf) :
      Effect s a (s.push client (.replied update))
  | answered (a : OidcAction τ) (i : Nat) (client : Option Nat) (pc : ExchangePc τ) (update : CsrfUpdate)
      (server : AuthState τ) (landed : List (Landed τ)) (he : s.exchanges[i]? = some ⟨client, pc⟩)
      (hrunning : pc.running = true) (hnonce : ∀ csrf, update = .set csrf → pc.nonce = some csrf)
      (hlanded : ∀ x ∈ landed, LandedFrom x client i pc update) :
      Effect s a { s.put i client (.replied update) with server, landed := s.landed ++ landed }
  | delivered (i : Nat) (client : Option Nat) (update : CsrfUpdate)
      (he : s.exchanges[i]? = some ⟨client, .replied update⟩) :
      Effect s (.deliver i) ((s.put i client .received).receive update client)
  | served (a : OidcAction τ) (server : AuthState τ) : Effect s a { s with server }

variable {lib states}

/-- A session is set with a redirect, and with the address and the nonce of the state that was checked. -/
theorem landedFrom_callbackEnd {server : AuthState τ} {i : Nat} {client : Option Nat} {now checkedAt : ℚ}
    {request : CallbackRequest τ} {state : OauthState} {x : Landed τ}
    (hx : x ∈ landing i client checkedAt request state (callbackEnd lib server now request state).2) :
    LandedFrom x client i (.exchanging checkedAt request state)
      (callbackEnd lib server now request state).2.csrf := by
  unfold callbackEnd at hx ⊢
  generalize oidcCallback lib server now request.exchange request.sentinel request.createdAt = ended at hx ⊢
  obtain ⟨server', reply⟩ := ended
  cases reply with
  | cookie identity token =>
      rw [List.mem_singleton.mp hx]
      exact ⟨rfl, rfl, rfl, request, state, rfl, rfl, rfl, rfl⟩
  | _ => cases hx

theorem effect_of_step {s t : OidcFlow τ} {a : OidcAction τ} (hstep : step lib states s a = some t) :
    Effect states s a t := by
  cases a with
  | login client now next csrf =>
      simp only [step] at hstep
      split at hstep
      · rw [← Option.some.inj hstep]
        exact .refused _ client .keep (by simp)
      · rename_i token htoken
        unfold oidcLogin issueOauthState at htoken
        split at htoken
        · cases htoken
        · rw [← Option.some.inj hstep, ← Option.some.inj htoken]
          exact .begun client now next csrf
  | authorize i ok =>
      simp only [step] at hstep
      split at hstep
      · rename_i client csrf he
        have hnonce : ∀ csrf', (if ok then CsrfUpdate.set csrf else .keep) = .set csrf' →
            (ExchangePc.authorizing csrf : ExchangePc τ).nonce = some csrf' := by
          intro csrf' hset
          cases ok with
          | false => cases hset
          | true =>
              cases hset
              rfl
        have hanswered : Effect states s (.authorize i ok) _ :=
          .answered (.authorize i ok) i client _ _ s.server [] he rfl hnonce (by simp)
        rw [List.append_nil] at hanswered
        rw [← Option.some.inj hstep]
        exact hanswered
      · cases hstep
  | callback client now request =>
      simp only [step] at hstep
      split at hstep
      · rename_i hsends
        split at hstep
        · rename_i reply hreply
          rw [← Option.some.inj hstep]
          exact .refused _ client reply.csrf reply.csrf_ne_set
        · rename_i state hok
          rw [← Option.some.inj hstep]
          exact .checked client now request state hsends hok
      · cases hstep
  | finish i now =>
      simp only [step] at hstep
      split at hstep
      · rename_i client checkedAt request state he
        rw [← Option.some.inj hstep]
        exact .answered _ i client _ _ _ _ he rfl
          (fun csrf hset => absurd hset (CallbackReply.csrf_ne_set _ csrf)) fun x hx => landedFrom_callbackEnd hx
      · cases hstep
  | abort i =>
      have habort : ∀ client pc, s.exchanges[i]? = some ⟨client, pc⟩ → pc.running = true →
          Effect states s (.abort i) (s.put i client (.replied .keep)) := by
        intro client pc he hrunning
        have hanswered : Effect states s (.abort i) _ :=
          .answered (.abort i) i client pc .keep s.server [] he hrunning (by simp) (by simp)
        rw [List.append_nil] at hanswered
        exact hanswered
      simp only [step] at hstep
      split at hstep
      · rename_i client csrf he
        rw [← Option.some.inj hstep]
        exact habort client _ he rfl
      · rename_i client checkedAt request state he
        rw [← Option.some.inj hstep]
        exact habort client _ he rfl
      · cases hstep
  | deliver i =>
      simp only [step] at hstep
      split at hstep
      · rename_i client update he
        rw [← Option.some.inj hstep]
        exact .delivered i client update he
      · cases hstep
  | serve now request =>
      simp only [step] at hstep
      split at hstep
      · cases hstep
      · rw [← Option.some.inj hstep]
        exact .served _ _

variable (states)

/-- No nonce is drawn twice. -/
def FreshNonce (s : OidcFlow τ) : OidcAction τ → Prop
  | .login _ _ _ csrf => ∀ login ∈ s.logins, login.csrf ≠ csrf
  | _ => True

/-- Who presents a state that passes for signed has it from a login. -/
def Unforged (s : OidcFlow τ) : OidcAction τ → Prop
  | .callback _ now request =>
      ∀ token ∈ request.state, (verifyOauthState states now token).isSome → ∃ login ∈ s.logins, login.token = token
  | _ => True

instance (s : OidcFlow τ) (a : OidcAction τ) : Decidable (FreshNonce s a) :=
  match a with
  | .login _ _ _ csrf => inferInstanceAs (Decidable (∀ login ∈ s.logins, login.csrf ≠ csrf))
  | .authorize _ _ | .callback _ _ _ | .finish _ _ | .abort _ | .deliver _ | .serve _ _ => isTrue trivial

instance [DecidableEq τ] (s : OidcFlow τ) (a : OidcAction τ) : Decidable (Unforged states s a) :=
  match a with
  | .callback _ now request =>
      inferInstanceAs (Decidable (∀ token ∈ request.state,
        (verifyOauthState states now token).isSome → ∃ login ∈ s.logins, login.token = token))
  | .login _ _ _ _ | .authorize _ _ | .finish _ _ | .abort _ | .deliver _ | .serve _ _ => isTrue trivial

/-- The login is one of the browser, the state that was presented was signed for it, and in time. -/
def Backs (login : BegunLogin τ) (browser : Nat) (checkedAt : ℚ) (presented : Option τ) (url csrf : String) :
    Prop :=
  login.client = some browser ∧ presented = some login.token ∧ url = safeNext login.next ∧ csrf = login.csrf ∧
    0 ≤ checkedAt.floor - login.issuedAt.floor ∧
    checkedAt.floor - login.issuedAt.floor ≤ oidcStateMaxAgeSeconds

/-- A nonce is on the way to the client that began its login, and what has passed the checks is backed. -/
structure ExchangeOk (logins : List (BegunLogin τ)) (e : Exchange τ) : Prop where
  nonce : ∀ csrf ∈ e.pc.nonce, ∃ login ∈ logins, login.client = e.client ∧ login.csrf = csrf
  checked : ∀ checkedAt request state browser, e = ⟨some browser, .exchanging checkedAt request state⟩ →
    ∃ login ∈ logins, Backs login browser checkedAt request.state state.next state.csrf

structure Inv (s : OidcFlow τ) : Prop where
  signed : ∀ login ∈ s.logins, login.token = states.dumps login.issuedAt ⟨safeNext login.next, login.csrf⟩
  fresh : ∀ login ∈ s.logins, ∀ other ∈ s.logins, other.csrf = login.csrf → other = login
  jars : ∀ browser csrf, s.jars browser = some csrf →
    ∃ login ∈ s.logins, login.client = some browser ∧ login.csrf = csrf
  exchanges : ∀ e ∈ s.exchanges, ExchangeOk s.logins e
  landed : ∀ x ∈ s.landed, ∀ browser, x.client = some browser →
    ∃ login ∈ s.logins, Backs login browser x.checkedAt x.presented x.url x.csrf

theorem inv_start (server : AuthState τ) : Inv states (start server) where
  signed := by simp [start]
  fresh := by simp [start]
  jars := by simp [start]
  exchanges := by simp [start]
  landed := by simp [start]

variable {states}

theorem ExchangeOk.mono {logins logins' : List (BegunLogin τ)} {e : Exchange τ} (h : ExchangeOk logins e)
    (hsub : ∀ login ∈ logins, login ∈ logins') : ExchangeOk logins' e where
  nonce := by
    intro csrf hcsrf
    obtain ⟨login, hlogin, hof⟩ := h.nonce csrf hcsrf
    exact ⟨login, hsub login hlogin, hof⟩
  checked := by
    intro checkedAt request state browser he
    obtain ⟨login, hlogin, hbacks⟩ := h.checked checkedAt request state browser he
    exact ⟨login, hsub login hlogin, hbacks⟩

theorem exchangeOk_idle (logins : List (BegunLogin τ)) (client : Option Nat) (pc : ExchangePc τ)
    (hnonce : pc.nonce = none) (hpc : ∀ checkedAt request state, pc ≠ .exchanging checkedAt request state) :
    ExchangeOk logins ⟨client, pc⟩ where
  nonce := by simp [hnonce]
  checked := by
    intro checkedAt request state browser he
    rw [Exchange.mk.injEq] at he
    exact absurd he.2 (hpc checkedAt request state)

theorem ExchangeOk.reply {logins : List (BegunLogin τ)} {client : Option Nat} {pc : ExchangePc τ}
    (h : ExchangeOk logins ⟨client, pc⟩) (update : CsrfUpdate)
    (hnonce : ∀ csrf, update = .set csrf → pc.nonce = some csrf) : ExchangeOk logins ⟨client, .replied update⟩ where
  nonce := by
    intro csrf hcsrf
    cases update with
    | set csrf' =>
        rw [← Option.some.inj hcsrf]
        exact h.nonce csrf' (hnonce csrf' rfl)
    | _ => cases hcsrf
  checked := by
    intro checkedAt request state browser he
    cases he

theorem inv_put {s : OidcFlow τ} (h : Inv states s) (i : Nat) (client : Option Nat) (pc : ExchangePc τ)
    (hpc : ExchangeOk s.logins ⟨client, pc⟩) : Inv states (s.put i client pc) where
  signed := h.signed
  fresh := h.fresh
  jars := h.jars
  landed := h.landed
  exchanges := by
    intro e he
    rcases List.mem_or_eq_of_mem_set he with he | rfl
    · exact h.exchanges e he
    · exact hpc

theorem inv_push {s : OidcFlow τ} (h : Inv states s) (client : Option Nat) (pc : ExchangePc τ)
    (hpc : ExchangeOk s.logins ⟨client, pc⟩) : Inv states (s.push client pc) where
  signed := h.signed
  fresh := h.fresh
  jars := h.jars
  landed := h.landed
  exchanges := by
    intro e he
    rcases List.mem_append.mp he with he | he
    · exact h.exchanges e he
    · rw [List.mem_singleton.mp he]
      exact hpc

theorem inv_begin {s : OidcFlow τ} (h : Inv states s) (login : BegunLogin τ)
    (hsigned : login.token = states.dumps login.issuedAt ⟨safeNext login.next, login.csrf⟩)
    (hfresh : ∀ other ∈ s.logins, other.csrf ≠ login.csrf) :
    Inv states { s with logins := s.logins ++ [login] } := by
  have hsub : ∀ l ∈ s.logins, l ∈ s.logins ++ [login] := fun l hl => List.mem_append_left _ hl
  constructor
  · intro l hl
    rcases List.mem_append.mp hl with hl | hl
    · exact h.signed l hl
    · rw [List.mem_singleton.mp hl]
      exact hsigned
  · intro l hl other hother hcsrf
    rcases List.mem_append.mp hl with hl | hl <;> rcases List.mem_append.mp hother with hother | hother
    · exact h.fresh l hl other hother hcsrf
    · rw [List.mem_singleton.mp hother] at hcsrf
      exact absurd hcsrf.symm (hfresh l hl)
    · rw [List.mem_singleton.mp hl] at hcsrf
      exact absurd hcsrf (hfresh other hother)
    · rw [List.mem_singleton.mp hl, List.mem_singleton.mp hother]
  · intro browser csrf hjar
    obtain ⟨l, hl, hof⟩ := h.jars browser csrf hjar
    exact ⟨l, hsub l hl, hof⟩
  · intro e he
    exact (h.exchanges e he).mono hsub
  · intro x hx browser hclient
    obtain ⟨l, hl, hbacks⟩ := h.landed x hx browser hclient
    exact ⟨l, hsub l hl, hbacks⟩

theorem receive_jars (s : OidcFlow τ) (update : CsrfUpdate) (client : Option Nat) (browser : Nat) :
    (s.receive update client).jars browser =
      if client = some browser then update.apply (s.jars browser) else s.jars browser := by
  cases client with
  | none => rfl
  | some browser' =>
      by_cases hbrowser : browser = browser'
      · subst hbrowser
        simp [receive]
      · simp [receive, Function.update_of_ne hbrowser, Ne.symm hbrowser]

theorem inv_receive {s : OidcFlow τ} (h : Inv states s) (update : CsrfUpdate) (client : Option Nat)
    (hpc : ExchangeOk s.logins ⟨client, .replied update⟩) : Inv states (s.receive update client) := by
  have hrest : (s.receive update client).logins = s.logins ∧ (s.receive update client).exchanges = s.exchanges ∧
      (s.receive update client).landed = s.landed := by
    cases client with
    | _ => exact ⟨rfl, rfl, rfl⟩
  obtain ⟨hlogins, hexchanges, hlanded⟩ := hrest
  constructor
  · rw [hlogins]
    exact h.signed
  · rw [hlogins]
    exact h.fresh
  · intro browser csrf hjar
    rw [hlogins]
    rw [receive_jars] at hjar
    split at hjar
    · rename_i hclient
      subst hclient
      cases update with
      | keep => exact h.jars browser csrf hjar
      | set csrf' =>
          obtain ⟨login, hlogin, hof, hcsrf⟩ := hpc.nonce csrf' rfl
          exact ⟨login, hlogin, hof, hcsrf.trans (Option.some.inj hjar)⟩
      | delete => cases hjar
    · exact h.jars browser csrf hjar
  · rw [hlogins, hexchanges]
    exact h.exchanges
  · rw [hlogins, hlanded]
    exact h.landed

theorem backs_of_checks {s : OidcFlow τ} (h : Inv states s) (browser : Nat) (now : ℚ)
    (request : CallbackRequest τ) (state : OauthState)
    (hunforged : Unforged states s (.callback (some browser) now request))
    (hsends : s.sends (some browser) request.csrfCookie = true)
    (hok : callbackChecks states now request = .ok state) :
    ∃ login ∈ s.logins, Backs login browser now request.state state.next state.csrf := by
  obtain ⟨-, -, hcookie, -, token, htoken, hverify⟩ := (callbackChecks_eq_ok_iff states now request state).mp hok
  obtain ⟨login, hlogin, rfl⟩ := hunforged token htoken (by rw [hverify]; rfl)
  rw [verifyOauthState, h.signed login hlogin, states.loads_dumps] at hverify
  split at hverify
  · rename_i hage
    rw [Option.some.injEq] at hverify
    subst hverify
    rw [hcookie] at hsends
    obtain ⟨own, hown, hclient, hcsrf⟩ := h.jars browser login.csrf (of_decide_eq_true hsends)
    rw [h.fresh login hlogin own hown hcsrf] at hclient
    exact ⟨login, hlogin, hclient, htoken, rfl, rfl, hage.1, hage.2⟩
  · cases hverify

theorem inv_effect {s t : OidcFlow τ} {a : OidcAction τ} (h : Inv states s)
    (hallowed : FreshNonce s a ∧ Unforged states s a) (heffect : Effect states s a t) : Inv states t := by
  obtain ⟨hfresh, hunforged⟩ := hallowed
  cases heffect with
  | begun client now next csrf =>
      refine inv_push (inv_begin h ⟨client, now, next, csrf, _⟩ rfl hfresh) client _ ?_
      constructor
      · intro csrf' hcsrf
        exact ⟨_, List.mem_append_right _ (List.mem_singleton.mpr rfl), rfl, Option.some.inj hcsrf⟩
      · intro checkedAt request state browser he
        cases he
  | checked client now request state hsends hok =>
      refine inv_push h client _ ⟨by simp [ExchangePc.nonce], ?_⟩
      intro checkedAt request' state' browser he
      cases he
      exact backs_of_checks h browser now request state hunforged hsends hok
  | refused a client update hupdate =>
      refine inv_push h client _ (exchangeOk_idle _ client _ ?_ (by simp))
      cases update with
      | set csrf => exact absurd rfl (hupdate csrf)
      | _ => rfl
  | answered a i client pc update server landed he hrunning hnonce hlanded =>
      have hok := h.exchanges _ (List.mem_of_getElem? he)
      have hput := inv_put h i client (.replied update) (hok.reply update hnonce)
      refine ⟨hput.signed, hput.fresh, hput.jars, hput.exchanges, ?_⟩
      intro x hx browser hclient
      rcases List.mem_append.mp hx with hx | hx
      · exact h.landed x hx browser hclient
      · obtain ⟨request, state, rfl, hpresented, hcsrf, hurl⟩ := (hlanded x hx).checked
        rw [hpresented, hurl, hcsrf]
        rw [← (hlanded x hx).client, hclient] at hok
        exact hok.checked x.checkedAt request state browser rfl
  | delivered i client update he =>
      refine inv_receive (inv_put h i client _ (exchangeOk_idle _ client _ rfl (by simp))) update client ?_
      exact h.exchanges _ (List.mem_of_getElem? he)
  | served a server => exact ⟨h.signed, h.fresh, h.jars, h.exchanges, h.landed⟩

end OidcFlow

end NetworkFileServer.Relay
