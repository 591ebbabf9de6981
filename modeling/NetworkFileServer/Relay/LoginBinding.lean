import NetworkFileServer.Relay.Deactivation
import NetworkFileServer.Relay.OidcFlow

/-!
# An SSO login stays with its browser

A session that a callback sets goes to the browser that began the login, and once the browser has the answer
the state of the login is used up.
-/

namespace NetworkFileServer.Relay

open Accounts
open TransitionSystem (run run_append_of_eq_some Guarded run_invariant_of_guarded getElem?_set_cases
  getElem?_concat_cases)

namespace OidcFlow

variable {τ : Type*} {lib : AuthLibraries τ} {states : TimedSerializer OauthState τ}

section Effects

variable {s t : OidcFlow τ} {a : OidcAction τ}

theorem receive_exchanges (s : OidcFlow τ) (update : CsrfUpdate) (client : Option Nat) :
    (s.receive update client).exchanges = s.exchanges := by
  cases client with
  | _ => rfl

theorem Effect.logins (heffect : Effect states s a t) : ∀ login ∈ s.logins, login ∈ t.logins := by
  intro login hlogin
  cases heffect with
  | begun client now next csrf => exact List.mem_append_left _ hlogin
  | delivered i client update hi =>
      cases client with
      | _ => exact hlogin
  | _ => exact hlogin

theorem Effect.nonce_at (heffect : Effect states s a t) {j : Nat} {f : Exchange τ} {csrf : String}
    (hj : t.exchanges[j]? = some f) (hnonce : f.pc.nonce = some csrf) :
    (∃ e, s.exchanges[j]? = some e ∧ e.pc.nonce = some csrf) ∨
      j = s.exchanges.length ∧ ∃ client now next, a = .login client now next csrf := by
  cases heffect with
  | begun client now next csrf' =>
      rcases getElem?_concat_cases hj with hj | ⟨hlast, rfl⟩
      · exact .inl ⟨f, hj, hnonce⟩
      · cases hnonce
        exact .inr ⟨hlast, client, now, next, rfl⟩
  | checked client now request state hsends hok =>
      rcases getElem?_concat_cases hj with hj | ⟨-, rfl⟩
      · exact .inl ⟨f, hj, hnonce⟩
      · cases hnonce
  | refused a client update hupdate =>
      rcases getElem?_concat_cases hj with hj | ⟨-, rfl⟩
      · exact .inl ⟨f, hj, hnonce⟩
      · cases update with
        | set csrf' => exact absurd rfl (hupdate csrf')
        | _ => cases hnonce
  | answered a i client pc update server landed hi hrunning hkept hlanded =>
      rcases getElem?_set_cases hj with ⟨rfl, rfl⟩ | ⟨-, hj⟩
      · cases update with
        | set csrf' => exact .inl ⟨_, hi, (hkept csrf' rfl).trans hnonce⟩
        | _ => cases hnonce
      · exact .inl ⟨f, hj, hnonce⟩
  | delivered i client update hi =>
      rw [receive_exchanges] at hj
      rcases getElem?_set_cases hj with ⟨-, rfl⟩ | ⟨-, hj⟩
      · cases hnonce
      · exact .inl ⟨f, hj, hnonce⟩
  | served a server => exact .inl ⟨f, hj, hnonce⟩

theorem Effect.exchanging_at (heffect : Effect states s a t) {j : Nat} {client : Option Nat} {checkedAt : ℚ}
    {request : CallbackRequest τ} {state : OauthState}
    (hj : t.exchanges[j]? = some ⟨client, .exchanging checkedAt request state⟩) :
    s.exchanges[j]? = some ⟨client, .exchanging checkedAt request state⟩ ∨
      s.sends client request.csrfCookie = true ∧ callbackChecks states checkedAt request = .ok state := by
  cases heffect with
  | begun client' now next csrf =>
      rcases getElem?_concat_cases hj with hj | ⟨-, he⟩
      · exact .inl hj
      · cases he
  | checked client' now request' state' hsends hok =>
      rcases getElem?_concat_cases hj with hj | ⟨-, he⟩
      · exact .inl hj
      · cases he
        exact .inr ⟨hsends, hok⟩
  | refused a client' update hupdate =>
      rcases getElem?_concat_cases hj with hj | ⟨-, he⟩
      · exact .inl hj
      · cases he
  | answered a i client' pc update server landed hi hrunning hkept hlanded =>
      rcases getElem?_set_cases hj with ⟨-, he⟩ | ⟨-, hj⟩
      · cases he
      · exact .inl hj
  | delivered i client' update hi =>
      rw [receive_exchanges] at hj
      rcases getElem?_set_cases hj with ⟨-, he⟩ | ⟨-, hj⟩
      · cases he
      · exact .inl hj
  | served a server => exact .inl hj

theorem Effect.jars (heffect : Effect states s a t) (browser : Nat) :
    t.jars browser = s.jars browser ∨
      ∃ i update, a = .deliver i ∧ s.exchanges[i]? = some ⟨some browser, .replied update⟩ ∧
        t.exchanges[i]? = some ⟨some browser, .received⟩ ∧ t.jars browser = update.apply (s.jars browser) := by
  cases heffect with
  | delivered i client update hi =>
      rw [receive_jars, receive_exchanges]
      split
      · rename_i hclient
        subst hclient
        exact .inr ⟨i, update, rfl, hi, List.getElem?_set_self (List.getElem?_eq_some_iff.mp hi).1, rfl⟩
      · exact .inl rfl
  | _ => exact .inl rfl

theorem Effect.settled (heffect : Effect states s a t) {j : Nat} {client : Option Nat} {pc : ExchangePc τ}
    (hj : s.exchanges[j]? = some ⟨client, pc⟩) (hended : pc.running = false) :
    t.exchanges[j]? = some ⟨client, pc⟩ ∨
      ∃ update, pc = .replied update ∧ t.exchanges[j]? = some ⟨client, .received⟩ ∧
        ∀ browser, client = some browser → t.jars browser = update.apply (s.jars browser) := by
  have hlt : j < s.exchanges.length := (List.getElem?_eq_some_iff.mp hj).1
  cases heffect with
  | begun client' now next csrf => exact .inl ((List.getElem?_append_left hlt).trans hj)
  | checked client' now request state hsends hok => exact .inl ((List.getElem?_append_left hlt).trans hj)
  | refused a client' update hupdate => exact .inl ((List.getElem?_append_left hlt).trans hj)
  | answered a i client' pc' update server landed hi hrunning hkept hlanded =>
      have hne : i ≠ j := by
        rintro rfl
        rw [hi, Option.some.injEq, Exchange.mk.injEq] at hj
        rw [hj.2, hended] at hrunning
        cases hrunning
      exact .inl ((List.getElem?_set_ne hne).trans hj)
  | delivered i client' update hi =>
      rw [receive_exchanges]
      by_cases hij : i = j
      · subst hij
        rw [hi, Option.some.injEq, Exchange.mk.injEq] at hj
        obtain ⟨rfl, rfl⟩ := hj
        refine .inr ⟨update, rfl, List.getElem?_set_self hlt, ?_⟩
        rintro browser rfl
        rw [receive_jars, if_pos rfl]
        rfl
      · exact .inl ((List.getElem?_set_ne hij).trans hj)
  | served a server => exact .inl hj

/-- A session is set by a callback that has been checked, and its answer deletes the cookie. -/
theorem Effect.landed (heffect : Effect states s a t) {x : Landed τ} (hx : x ∈ t.landed) :
    x ∈ s.landed ∨
      ∃ request state, s.exchanges[x.exchange]? = some ⟨x.client, .exchanging x.checkedAt request state⟩ ∧
        t.exchanges[x.exchange]? = some ⟨x.client, .replied .delete⟩ ∧ x.csrf = state.csrf := by
  cases heffect with
  | answered a i client pc update server landed hi hrunning hkept hlanded =>
      rcases List.mem_append.mp hx with hx | hx
      · exact .inl hx
      · obtain ⟨rfl, rfl, rfl, request, state, rfl, -, hcsrf, -⟩ := hlanded x hx
        refine .inr ⟨request, state, hi, ?_, hcsrf⟩
        exact List.getElem?_set_self (List.getElem?_eq_some_iff.mp hi).1
  | delivered i client update hi =>
      cases client with
      | _ => exact .inl hx
  | _ => exact .inl hx

end Effects

/-- The nonce was drawn, and is not on the way to its client any more. -/
structure Arrived (s : OidcFlow τ) (csrf : String) : Prop where
  drawn : ∃ login ∈ s.logins, login.csrf = csrf
  gone : ∀ (j : Nat) (e : Exchange τ), s.exchanges[j]? = some e → e.pc.nonce ≠ some csrf

/-- A nonce arrives once, and then its browser may use it until the browser has an answer to that. -/
structure Once (s : OidcFlow τ) : Prop where
  once : ∀ (i j : Nat) (e f : Exchange τ) (csrf : String), s.exchanges[i]? = some e → s.exchanges[j]? = some f →
    e.pc.nonce = some csrf → f.pc.nonce = some csrf → i = j
  jars : ∀ browser csrf, s.jars browser = some csrf → Arrived s csrf
  checked : ∀ (j browser : Nat) (checkedAt : ℚ) (request : CallbackRequest τ) (state : OauthState),
    s.exchanges[j]? = some ⟨some browser, .exchanging checkedAt request state⟩ → Arrived s state.csrf
  landed : ∀ x ∈ s.landed, ∀ browser, x.client = some browser →
    Arrived s x.csrf ∧
      (s.exchanges[x.exchange]? = some ⟨some browser, .replied .delete⟩ ∨
        s.exchanges[x.exchange]? = some ⟨some browser, .received⟩ ∧ s.jars browser ≠ some x.csrf)

/-- The browser can do no more with the nonce in callbacks from the number `n` on. -/
structure Spent (browser : Nat) (csrf : String) (n : Nat) (s : OidcFlow τ) : Prop where
  arrived : Arrived s csrf
  jar : s.jars browser ≠ some csrf
  exchanges : ∀ (j : Nat) (checkedAt : ℚ) (request : CallbackRequest τ) (state : OauthState), n ≤ j →
    s.exchanges[j]? = some ⟨some browser, .exchanging checkedAt request state⟩ → state.csrf ≠ csrf
  landed : ∀ y ∈ s.landed, y.client = some browser → y.csrf = csrf → y.exchange < n

theorem once_start (server : AuthState τ) : Once (start server) where
  once := by simp [start]
  jars := by simp [start]
  checked := by simp [start]
  landed := by simp [start]

section Steps

variable {s t : OidcFlow τ} {a : OidcAction τ}

theorem Effect.arrived (heffect : Effect states s a t) (hfresh : FreshNonce s a) {csrf : String}
    (h : Arrived s csrf) : Arrived t csrf := by
  obtain ⟨login, hlogin, hcsrf⟩ := h.drawn
  refine ⟨⟨login, heffect.logins login hlogin, hcsrf⟩, ?_⟩
  intro j e he hnonce
  rcases heffect.nonce_at he hnonce with ⟨e', he', hnonce'⟩ | ⟨-, client, now, next, rfl⟩
  · exact h.gone j e' he' hnonce'
  · exact hfresh login hlogin hcsrf

theorem Effect.arrived_of_jar (heffect : Effect states s a t) (hinv : Inv states s) (h : Once s)
    (hfresh : FreshNonce s a) {browser : Nat} {csrf : String} (hjar : t.jars browser = some csrf) :
    Arrived t csrf := by
  rcases heffect.jars browser with hsame | ⟨i, update, rfl, hi, hreceived, hupdate⟩
  · rw [hsame] at hjar
    exact heffect.arrived hfresh (h.jars browser csrf hjar)
  · rw [hupdate] at hjar
    cases update with
    | keep => exact heffect.arrived hfresh (h.jars browser csrf hjar)
    | delete => cases hjar
    | set csrf' =>
        cases hjar
        obtain ⟨login, hlogin, -, hcsrf⟩ := (hinv.exchanges _ (List.mem_of_getElem? hi)).nonce csrf rfl
        refine ⟨⟨login, heffect.logins login hlogin, hcsrf⟩, ?_⟩
        intro j e he hnonce
        rcases heffect.nonce_at he hnonce with ⟨e', he', hnonce'⟩ | ⟨-, client, now, next, hlogin⟩
        · -- Another request cannot carry the nonce, and this one has been answered.
          cases h.once i j _ e' csrf hi he' rfl hnonce'
          rw [hreceived] at he
          cases he
          cases hnonce
        · cases hlogin

theorem Effect.arrived_of_exchanging (heffect : Effect states s a t) (h : Once s) {j browser : Nat}
    {checkedAt : ℚ} {request : CallbackRequest τ} {state : OauthState}
    (hj : t.exchanges[j]? = some ⟨some browser, .exchanging checkedAt request state⟩) : Arrived s state.csrf := by
  rcases heffect.exchanging_at hj with hj | ⟨hsends, hok⟩
  · exact h.checked j browser checkedAt request state hj
  · obtain ⟨-, -, hcookie, -⟩ := (callbackChecks_eq_ok_iff states checkedAt request state).mp hok
    rw [hcookie] at hsends
    exact h.jars browser state.csrf (of_decide_eq_true hsends)

theorem Effect.jar_ne (heffect : Effect states s a t) {browser : Nat} {csrf : String} (harrived : Arrived s csrf)
    (hjar : s.jars browser ≠ some csrf) : t.jars browser ≠ some csrf := by
  intro hholds
  rcases heffect.jars browser with hsame | ⟨i, update, -, hi, -, hupdate⟩
  · exact hjar (hsame.symm.trans hholds)
  · rw [hupdate] at hholds
    cases update with
    | keep => exact hjar hholds
    | delete => cases hholds
    | set csrf' => exact harrived.gone i _ hi hholds

theorem once_effect (hinv : Inv states s) (h : Once s) (hfresh : FreshNonce s a)
    (heffect : Effect states s a t) : Once t := by
  -- A nonce that is just drawn is with no other request.
  have hnew : ∀ (i : Nat) (e : Exchange τ) client now next csrf, s.exchanges[i]? = some e → e.pc.nonce = some csrf →
      a ≠ .login client now next csrf := by
    rintro i e client now next csrf hi hnonce rfl
    obtain ⟨login, hlogin, -, hcsrf⟩ := (hinv.exchanges e (List.mem_of_getElem? hi)).nonce csrf hnonce
    exact hfresh login hlogin hcsrf
  constructor
  · intro i j e f csrf hi hj he hf
    rcases heffect.nonce_at hi he with ⟨e', hi, he⟩ | ⟨hlast, client, now, next, hlogin⟩ <;>
      rcases heffect.nonce_at hj hf with ⟨f', hj, hf⟩ | ⟨hlast', client', now', next', hlogin'⟩
    · exact h.once i j e' f' csrf hi hj he hf
    · exact absurd hlogin' (hnew i e' client' now' next' csrf hi he)
    · exact absurd hlogin (hnew j f' client now next csrf hj hf)
    · exact hlast.trans hlast'.symm
  · intro browser csrf hjar
    exact heffect.arrived_of_jar hinv h hfresh hjar
  · intro j browser checkedAt request state hj
    exact heffect.arrived hfresh (heffect.arrived_of_exchanging h hj)
  · intro x hx browser hclient
    rcases heffect.landed hx with hx | ⟨request, state, hexchange, hreplied, hcsrf⟩
    · obtain ⟨harrived, hanswer⟩ := h.landed x hx browser hclient
      refine ⟨heffect.arrived hfresh harrived, ?_⟩
      rcases hanswer with hreplied | ⟨hreceived, hjar⟩
      · rcases heffect.settled hreplied rfl with hstays | ⟨update, hdelete, hreceived, hjar⟩
        · exact .inl hstays
        · cases hdelete
          refine .inr ⟨hreceived, ?_⟩
          rw [hjar browser rfl]
          simp [CsrfUpdate.apply]
      · rcases heffect.settled hreceived rfl with hstays | ⟨update, hne, -⟩
        · exact .inr ⟨hstays, heffect.jar_ne harrived hjar⟩
        · cases hne
    · rw [hclient] at hexchange hreplied
      refine ⟨?_, .inl hreplied⟩
      rw [hcsrf]
      exact heffect.arrived hfresh (h.checked _ browser _ request state hexchange)

theorem spent_effect {browser n : Nat} {csrf : String} (h : Spent browser csrf n s) (hfresh : FreshNonce s a)
    (heffect : Effect states s a t) : Spent browser csrf n t where
  arrived := heffect.arrived hfresh h.arrived
  jar := heffect.jar_ne h.arrived h.jar
  exchanges := by
    intro j checkedAt request state hn hj
    rcases heffect.exchanging_at hj with hj | ⟨hsends, hok⟩
    · exact h.exchanges j checkedAt request state hn hj
    · rintro rfl
      obtain ⟨-, -, hcookie, -⟩ := (callbackChecks_eq_ok_iff states checkedAt request state).mp hok
      rw [hcookie] at hsends
      exact h.jar (of_decide_eq_true hsends)
  landed := by
    intro y hy hclient hcsrf
    rcases heffect.landed hy with hy | ⟨request, state, hexchange, -, hstate⟩
    · exact h.landed y hy hclient hcsrf
    · by_contra hle
      rw [hclient] at hexchange
      exact h.exchanges y.exchange _ request state (Nat.le_of_not_lt hle) hexchange (hstate.symm.trans hcsrf)

end Steps

section Runs

variable {server : AuthState τ} {as bs : List (OidcAction τ)} {s u : OidcFlow τ}

theorem inv_run (hfresh : Guarded (step lib states) FreshNonce (start server) as)
    (hunforged : Guarded (step lib states) (Unforged states) (start server) as)
    (hrun : run (step lib states) (start server) as = some s) : Inv states s ∧ Once s := by
  refine run_invariant_of_guarded (step lib states) _ (fun s => Inv states s ∧ Once s) ?_
    ⟨inv_start states server, once_start server⟩ (hfresh.and hunforged) hrun
  intro s a t h hallowed hstep
  have heffect := effect_of_step hstep
  exact ⟨inv_effect h.1 hallowed heffect, once_effect h.1 h.2 hallowed.1 heffect⟩

/-- A signed state can be read, so it says what was signed. -/
theorem state_eq_of_dumps_eq {issuedAt issuedAt' : ℚ} {state state' : OauthState}
    (h : states.dumps issuedAt state = states.dumps issuedAt' state') : state = state' := by
  have hread := congrArg (states.loads issuedAt 0) h
  rw [states.loads_dumps, states.loads_dumps, if_pos (by omega)] at hread
  split at hread
  · exact Option.some.inj hread
  · cases hread

theorem csrf_eq_of_token (h : Inv states s) (h' : Inv states u) {login other : BegunLogin τ}
    (hlogin : login ∈ s.logins) (hother : other ∈ u.logins) (htoken : login.token = other.token) :
    login.csrf = other.csrf := by
  rw [h.signed login hlogin, h'.signed other hother] at htoken
  exact congrArg OauthState.csrf (state_eq_of_dumps_eq htoken)

/-- In every order of steps, a session that a callback sets in a browser completes a login of that browser: the
state was signed for this login and for no other, not more than ten minutes ago, and the browser lands on the
address that it asked for then. -/
theorem landed_of_own_login (hfresh : Guarded (step lib states) FreshNonce (start server) as)
    (hunforged : Guarded (step lib states) (Unforged states) (start server) as)
    (hrun : run (step lib states) (start server) as = some s) {x : Landed τ} (hx : x ∈ s.landed) {browser : Nat}
    (hclient : x.client = some browser) :
    ∃ login ∈ s.logins, Backs login browser x.checkedAt x.presented x.url x.csrf ∧
      ∀ other ∈ s.logins, x.presented = some other.token → other = login := by
  obtain ⟨hinv, -⟩ := inv_run hfresh hunforged hrun
  obtain ⟨login, hlogin, hbacks⟩ := hinv.landed x hx browser hclient
  refine ⟨login, hlogin, hbacks, ?_⟩
  intro other hother hpresented
  exact hinv.fresh login hlogin other hother
    (csrf_eq_of_token hinv hinv hother hlogin (Option.some.inj (hpresented.symm.trans hbacks.2.1)))

/-- Tokens of the three serializers. -/
abbrev PlainToken : Type := (ℚ × SessionIdentity) ⊕ (ℚ × Nat) ⊕ (ℚ × OauthState)

def plainStates : TimedSerializer OauthState PlainToken :=
  plainSerializer (fun x => .inr (.inr x)) (fun token => token.getRight?.bind Sum.getRight?) fun _ => rfl

def plainSso : AuthLibraries PlainToken where
  hashpw := fun _ _ => []
  checkpw := fun _ _ => none
  session := plainSerializer .inl Sum.getLeft? fun _ => rfl
  agent := plainSerializer (fun x => .inr (.inl x)) (fun token => token.getRight?.bind Sum.getLeft?) fun _ => rfl
  lower := Text.lower
  isAlnum := Char.isAlphanum

/-- A callback with the state of a login, by somebody whom the identity provider knows as `sub`. -/
def callbackWith (issuedAt : ℚ) (next csrf sub : String) (cookie : Option String) : CallbackRequest PlainToken :=
  ⟨none, some "code", some (plainStates.dumps issuedAt ⟨next, csrf⟩), cookie,
    some (sub, ⟨some sub, none, none, none⟩), fun _ => [], fun _ => 0⟩

/-- A stranger and the browser `7` log in, and a link leads the browser to a callback with the stranger's state.
The browser then completes its own login. -/
def luredAndLoggedIn : List (OidcAction PlainToken) :=
  [.login none 0 none "stranger", .authorize 0 true, .login (some 7) 1 (some "/inbox") "nonce",
    .callback (some 7) 2 (callbackWith 0 "/" "stranger" "mallory" none), .authorize 1 true, .deliver 1,
    .callback (some 7) 9 (callbackWith 1 "/inbox" "nonce" "alice" (some "nonce")), .finish 3 10, .deliver 3]

theorem landed_of_own_login_lured :
    ∃ s, run (step plainSso plainStates) (start ⟨Database.empty, []⟩) luredAndLoggedIn = some s ∧
      ∃ x ∈ s.landed, x.client = some 7 ∧
        ∃ login ∈ s.logins, Backs login 7 x.checkedAt x.presented x.url x.csrf ∧
          ∀ other ∈ s.logins, x.presented = some other.token → other = login := by
  have hlands : (run (step plainSso plainStates) (start ⟨Database.empty, []⟩) luredAndLoggedIn).any (fun s =>
      s.landed.any fun x => decide (x.client = some 7)) = true := by decide +kernel
  obtain ⟨s, hrun, hs⟩ := (Option.any_eq_true _ _).mp hlands
  obtain ⟨x, hx, hclient⟩ := List.any_eq_true.mp hs
  exact ⟨s, hrun, x, hx, of_decide_eq_true hclient,
    landed_of_own_login (by decide +kernel) (by decide +kernel) hrun hx (of_decide_eq_true hclient)⟩

/-- Once the answer with a session has reached the browser, no callback of the browser that arrives later sets a
session for the same state, in every order of steps. -/
theorem landed_once (hfresh : Guarded (step lib states) FreshNonce (start server) (as ++ bs))
    (hunforged : Guarded (step lib states) (Unforged states) (start server) (as ++ bs))
    (hrun : run (step lib states) (start server) as = some s) (hrest : run (step lib states) s bs = some u)
    {x : Landed τ} (hx : x ∈ s.landed) {browser : Nat}
    (hreceived : s.exchanges[x.exchange]? = some ⟨some browser, .received⟩) (hclient : x.client = some browser)
    {y : Landed τ} (hy : y ∈ u.landed) (hyclient : y.client = some browser)
    (hpresented : y.presented = x.presented) : y.exchange < s.exchanges.length := by
  obtain ⟨hinv, honce⟩ := inv_run hfresh.of_append.1 hunforged.of_append.1 hrun
  obtain ⟨harrived, hanswer⟩ := honce.landed x hx browser hclient
  have hjar : s.jars browser ≠ some x.csrf := by
    rcases hanswer with hreplied | ⟨-, hjar⟩
    · rw [hreceived] at hreplied
      cases hreplied
    · exact hjar
  have hspent : Spent browser x.csrf s.exchanges.length s := by
    refine ⟨harrived, hjar, ?_, ?_⟩
    · intro j checkedAt request state hn hj
      rw [List.getElem?_eq_none hn] at hj
      cases hj
    · intro z hz hzclient _
      rcases (honce.landed z hz browser hzclient).2 with hz | ⟨hz, -⟩
      · exact (List.getElem?_eq_some_iff.mp hz).1
      · exact (List.getElem?_eq_some_iff.mp hz).1
  have hrest' : Spent browser x.csrf s.exchanges.length u := by
    refine run_invariant_of_guarded (step lib states) FreshNonce _ ?_ hspent (hfresh.of_append.2 s hrun) hrest
    intro s a t h hfresh hstep
    exact spent_effect h hfresh (effect_of_step hstep)
  refine hrest'.landed y hy hyclient ?_
  -- Both sessions are for the login that the state was signed for.
  have hinv' := (inv_run hfresh hunforged (run_append_of_eq_some (step lib states) hrun hrest)).1
  obtain ⟨login, hlogin, -, htoken, -, hcsrf, -⟩ := hinv.landed x hx browser hclient
  obtain ⟨login', hlogin', -, htoken', -, hcsrf', -⟩ := hinv'.landed y hy browser hyclient
  rw [hpresented, htoken] at htoken'
  rw [hcsrf, hcsrf']
  exact (csrf_eq_of_token hinv hinv' hlogin hlogin' (Option.some.inj htoken')).symm

/-- The browser comes back to the callback with the same state. -/
def comesBack : List (OidcAction PlainToken) :=
  [.callback (some 7) 12 (callbackWith 1 "/inbox" "nonce" "alice" none)]

theorem landed_once_comesBack :
    ∃ s u, run (step plainSso plainStates) (start ⟨Database.empty, []⟩) luredAndLoggedIn = some s ∧
      run (step plainSso plainStates) s comesBack = some u ∧
      ∃ x ∈ s.landed, ∃ y ∈ u.landed, y.presented = x.presented ∧ y.exchange < s.exchanges.length := by
  have hlands : (run (step plainSso plainStates) (start ⟨Database.empty, []⟩) luredAndLoggedIn).any (fun s =>
      (run (step plainSso plainStates) s comesBack).any fun u => s.landed.any fun x => u.landed.any fun y =>
        decide (x.client = some 7 ∧ y.client = some 7 ∧ y.presented = x.presented) &&
          (s.exchanges[x.exchange]?).any fun
            | ⟨client, .received⟩ => decide (client = some 7)
            | _ => false) = true := by decide +kernel
  obtain ⟨s, hrun, hs⟩ := (Option.any_eq_true _ _).mp hlands
  obtain ⟨u, hrest, hu⟩ := (Option.any_eq_true _ _).mp hs
  obtain ⟨x, hx, hxy⟩ := List.any_eq_true.mp hu
  obtain ⟨y, hy, hboth⟩ := List.any_eq_true.mp hxy
  obtain ⟨hclients, hanswer⟩ := Bool.and_eq_true_iff.mp hboth
  obtain ⟨hxclient, hyclient, hpresented⟩ := of_decide_eq_true hclients
  obtain ⟨e, he, hreceived⟩ := (Option.any_eq_true _ _).mp hanswer
  split at hreceived
  · rw [of_decide_eq_true hreceived] at he
    exact ⟨s, u, hrun, hrest, x, hx, y, hy, hpresented,
      landed_once (by decide +kernel) (by decide +kernel) hrun hrest hx he hxclient hy hyclient hpresented⟩
  · cases hreceived

end Runs

end OidcFlow

end NetworkFileServer.Relay
