import NetworkFileServer.Relay.ResponseDelivery
import NetworkFileServer.Relay.RewriteOutcome

/-!
# The body of a proxied HTML response

`proxy_request` buffers the body of a `text/html` response, and rewrites it whole; or it has read more than it may
buffer, and `passthrough_generator` sends what was buffered and goes on with the same iterator. What the browser is
given for a body is kept beside the exchange of the request.
-/

namespace NetworkFileServer.Relay

open Tunnel TunnelConnection

/-- What the browser has of the body after a step of the handler. A response that is not over the cap is rewritten
and sent whole. -/
def htmlOutput (rewrite : Bytes → Except RewriteError Bytes) (conn : TunnelConnection) (id : UUID)
    (chunk : List Bytes) (body : Except RewriteError Bytes) : ProxyPc → ProxyEvent → Except RewriteError Bytes
  | .buffering iter parts, .iter e =>
      match conn.iterStep id iter e with
      | some (_, .finished, _) => rewrite parts.flatten
      | _ => body
  | .replaying _ (part :: _), .replay => body.map (· ++ part)
  | .checking _, .connected => body.map (· ++ chunk.flatten)
  | _, _ => body

/-- The response is text/html. -/
def beginsHtml : ProxyPc → ProxyEvent → Bool
  | .readingFirst, .firstByte .html => true
  | _, _ => false

structure HtmlExchange where
  exchange : ResponseExchange
  html : Bool
  body : Except RewriteError Bytes

/-- What `rewrite` makes of a body that is not over the cap, and the body itself otherwise. -/
def rewrittenIfSmall (rewrite : Bytes → Except RewriteError Bytes) (body : Bytes) : Except RewriteError Bytes :=
  if body.length ≤ htmlRewriteMaxBytes then rewrite body else .ok body

namespace HtmlExchange

def init : HtmlExchange := ⟨.init, false, .ok []⟩

variable (rewrite : Bytes → Except RewriteError Bytes) (id : UUID)

def step (s : HtmlExchange) (a : ExchangeAction) : Option HtmlExchange :=
  (s.exchange.step id a).map fun exchange =>
    match a with
    | .relay (.handler id' e) =>
        if id' = id then
          { exchange := exchange
            html := s.html || beginsHtml (s.exchange.relay.handler id) e
            body := htmlOutput rewrite s.exchange.relay.conn id s.exchange.chunk s.body
              (s.exchange.relay.handler id) e }
        else { s with exchange := exchange }
    | _ => { s with exchange := exchange }

/-- The closed event of the stream is set by a CLOSE frame only. -/
def NotInterrupted (s : HtmlExchange) (a : ExchangeAction) : Prop := ¬s.exchange.Interrupts id a

instance (s : HtmlExchange) (a : ExchangeAction) : Decidable (s.NotInterrupted id a) :=
  inferInstanceAs (Decidable (¬_))

/-- What the browser was given, and whether the cap was passed, at each position of the handler of an HTML
response. -/
def Phase (delivered : List Bytes) (body : Except RewriteError Bytes) (finished : Bool) : ProxyPc → Prop
  | .absent | .sendingRequest | .readingFirst | .responding => False
  | .buffering _ parts =>
      ∃ head, delivered = [head] ∧ body = .ok [] ∧ parts.flatten.length ≤ htmlRewriteMaxBytes ∧ finished = false
  | .respondingOverCap _ parts =>
      ∃ head, delivered = [head] ∧ body = .ok [] ∧ htmlRewriteMaxBytes < parts.flatten.length ∧ finished = false
  | .replaying _ parts => ∃ head rest, delivered = head :: rest ∧ body = .ok rest.flatten ∧
      htmlRewriteMaxBytes < (rest ++ parts).flatten.length ∧ finished = false
  | .streaming _ | .checking _ => ∃ head rest, delivered = head :: rest ∧ body = .ok rest.flatten ∧
      htmlRewriteMaxBytes < rest.flatten.length ∧ finished = false
  | .timedOut | .wsOpening | .wsStarting | .bridging _ | .leaving | .ended => finished = true →
      ∃ head rest, delivered = head :: rest ∧ body = rewrittenIfSmall rewrite rest.flatten

/-- The handler has not read the metadata of the response. -/
def early : ProxyPc → Bool
  | .absent | .sendingRequest | .readingFirst => true
  | _ => false

structure Inv (s : HtmlExchange) : Prop where
  early : early (s.exchange.relay.handler id) = true →
    s.html = false ∧ s.exchange.delivered = [] ∧ s.body = .ok [] ∧ s.exchange.bodyFinished = false
  phase : s.html = true →
    Phase rewrite s.exchange.delivered s.body s.exchange.bodyFinished (s.exchange.relay.handler id)

theorem inv_init : Inv rewrite id init where
  early := fun _ => ⟨rfl, rfl, rfl, rfl⟩
  phase := nofun

section

variable {rewrite id} {conn conn' : TunnelConnection} {pc' : ProxyPc} {delivered : List Bytes}
  {body : Except RewriteError Bytes} {finished : Bool}

theorem phase_buffering {iter : IterPc} {parts : List Bytes} {e : IterEvent} (chunk : List Bytes)
    (h : proxyStep conn id (.buffering iter parts) (.iter e) = some (conn', pc'))
    (hphase : Phase rewrite delivered body finished (.buffering iter parts)) :
    Phase rewrite (delivered ++ passedOn conn id chunk (.buffering iter parts) (.iter e))
      (htmlOutput rewrite conn id chunk body (.buffering iter parts) (.iter e))
      (finished || finishesBody conn id (.buffering iter parts) (.iter e)) pc' := by
  obtain ⟨head, rfl, rfl, hsmall, rfl⟩ := hphase
  obtain ⟨⟨taken, iter', out⟩, hstep, heq⟩ := Option.map_eq_some_iff.mp h
  cases heq
  by_cases hfin : iter' = .finished
  · subst hfin
    obtain ⟨-, rfl, -, -⟩ := iterStep_finished conn _ id iter e out hstep
    simp only [passedOn, htmlOutput, finishesBody, hstep, bufferPart, if_true]
    intro _
    refine ⟨head, parts, rfl, ?_⟩
    rw [rewrittenIfSmall, if_pos hsmall]
  · have hpassed : passedOn conn id chunk (.buffering iter parts) (.iter e) = [] := by
      simp only [passedOn, hstep]
      split
      · rename_i heq
        cases heq
        exact absurd rfl hfin
      · rfl
    have hbody : htmlOutput rewrite conn id chunk (.ok []) (.buffering iter parts) (.iter e) = .ok [] := by
      simp only [htmlOutput, hstep]
      split
      · rename_i heq
        cases heq
        exact absurd rfl hfin
      · rfl
    have hrunning : finishesBody conn id (.buffering iter parts) (.iter e) = false := by
      simp [finishesBody, hstep, hfin]
    rw [hpassed, hbody, hrunning, List.append_nil]
    cases out with
    | none =>
        rw [bufferPart, if_neg hfin]
        exact ⟨head, rfl, rfl, hsmall, rfl⟩
    | some part =>
        have hlength : ((parts ++ [part]).map List.length).sum = (parts ++ [part]).flatten.length :=
          List.length_flatten.symm
        simp only [bufferPart, hlength]
        split
        · rename_i hover
          exact ⟨head, rfl, rfl, hover, rfl⟩
        · rename_i hfits
          exact ⟨head, rfl, rfl, by omega, rfl⟩

theorem phase_streaming {iter : IterPc} {e : IterEvent} (chunk : List Bytes)
    (h : proxyStep conn id (.streaming iter) (.iter e) = some (conn', pc'))
    (hphase : Phase rewrite delivered body finished (.streaming iter)) :
    Phase rewrite (delivered ++ passedOn conn id chunk (.streaming iter) (.iter e))
      (htmlOutput rewrite conn id chunk body (.streaming iter) (.iter e))
      (finished || finishesBody conn id (.streaming iter) (.iter e)) pc' := by
  obtain ⟨head, rest, rfl, rfl, hover, rfl⟩ := hphase
  obtain ⟨⟨taken, iter', out⟩, hstep, heq⟩ := Option.map_eq_some_iff.mp h
  have hfinishes : finishesBody conn id (.streaming iter) (.iter e) = decide (iter' = .finished) := by
    simp [finishesBody, hstep]
  have hpassed : head :: rest ++ passedOn conn id chunk (.streaming iter) (.iter e) = head :: rest :=
    List.append_nil _
  rw [hfinishes, hpassed]
  cases out with
  | some part =>
      have hfin : iter' ≠ .finished := by
        rintro rfl
        have hnone := (iterStep_finished conn taken id iter e (some part) hstep).2.1
        cases hnone
      cases heq
      exact ⟨head, rest, rfl, rfl, hover, by simp [hfin]⟩
  | none =>
      by_cases hfin : iter' = .finished
      · simp only [hfin, if_true] at heq
        cases heq
        intro _
        refine ⟨head, rest, rfl, ?_⟩
        rw [rewrittenIfSmall, if_neg (by omega)]
        rfl
      · simp only [hfin, if_false] at heq
        cases heq
        exact ⟨head, rest, rfl, rfl, hover, by simp [hfin]⟩

theorem phase_handler {pc : ProxyPc} {e : ProxyEvent} (chunk : List Bytes)
    (h : proxyStep conn id pc e = some (conn', pc')) (hphase : Phase rewrite delivered body finished pc) :
    Phase rewrite (delivered ++ passedOn conn id chunk pc e) (htmlOutput rewrite conn id chunk body pc e)
      (finished || finishesBody conn id pc e) pc' := by
  cases pc with
  | absent | sendingRequest | readingFirst | responding => cases hphase
  | buffering iter parts =>
      cases e with
      | iter e' => exact phase_buffering chunk h hphase
      | abort =>
          cases h
          obtain ⟨-, -, -, -, rfl⟩ := hphase
          intro hfinished
          cases hfinished
      | _ => cases h
  | respondingOverCap iter parts =>
      obtain ⟨head, rfl, rfl, hover, rfl⟩ := hphase
      cases e with
      | startBody =>
          cases h
          exact ⟨head, [], rfl, rfl, by simpa using hover, rfl⟩
      | abort =>
          cases h
          intro hfinished
          cases hfinished
      | _ => cases h
  | replaying iter parts =>
      obtain ⟨head, rest, rfl, rfl, hover, rfl⟩ := hphase
      cases e with
      | replay =>
          cases parts with
          | nil =>
              cases h
              exact ⟨head, rest, by simp [passedOn], rfl, by simpa using hover, rfl⟩
          | cons part parts =>
              cases h
              refine ⟨head, rest ++ [part], rfl, ?_, by simpa using hover, rfl⟩
              simp [htmlOutput, Except.map]
      | abort =>
          cases parts <;> cases h <;> intro hfinished <;> cases hfinished
      | _ => cases parts <;> cases h
  | streaming iter =>
      cases e with
      | iter e' => exact phase_streaming chunk h hphase
      | abort =>
          cases h
          obtain ⟨-, -, -, -, -, rfl⟩ := hphase
          intro hfinished
          cases hfinished
      | _ => cases h
  | checking iter =>
      obtain ⟨head, rest, rfl, rfl, hover, rfl⟩ := hphase
      cases e with
      | connected =>
          cases h
          refine ⟨head, rest ++ chunk, rfl, ?_, ?_, rfl⟩
          · simp [htmlOutput, Except.map]
          · rw [List.flatten_append, List.length_append]
            omega
      | browserGone | abort =>
          cases h
          intro hfinished
          cases hfinished
      | _ => cases h
  | wsStarting =>
      cases e with
      | startBody =>
          cases h
          unfold startIter
          split <;> simpa [passedOn, htmlOutput, finishesBody, Phase] using hphase
      | _ => cases h <;> simpa [passedOn, htmlOutput, finishesBody, Phase] using hphase
  | bridging iter =>
      cases e with
      | iter e' =>
          obtain ⟨⟨taken, iter', out⟩, -, heq⟩ := Option.map_eq_some_iff.mp h
          cases heq
          split <;> simpa [passedOn, htmlOutput, finishesBody, Phase] using hphase
      | _ => cases h <;> simpa [passedOn, htmlOutput, finishesBody, Phase] using hphase
  | timedOut | wsOpening | leaving | ended =>
      cases e <;> cases h <;> simpa [passedOn, htmlOutput, finishesBody, Phase] using hphase

theorem phase_begins {pc : ProxyPc} {e : ProxyEvent} (chunk : List Bytes)
    (h : proxyStep conn id pc e = some (conn', pc')) (hbegins : beginsHtml pc e = true) :
    Phase rewrite ([] ++ passedOn conn id chunk pc e) (htmlOutput rewrite conn id chunk (.ok []) pc e)
      (false || finishesBody conn id pc e) pc' := by
  unfold beginsHtml at hbegins
  split at hbegins
  · obtain ⟨⟨p, taken⟩, htake, heq⟩ := Option.map_eq_some_iff.mp h
    cases heq
    have hpassed : passedOn conn id chunk .readingFirst (.firstByte .html) = [p] := by
      simp [passedOn, htake]
    rw [hpassed]
    unfold startIter
    split
    · exact ⟨p, rfl, rfl, by simp, rfl⟩
    · intro hfinished
      cases hfinished
  · cases hbegins

theorem early_handler {pc : ProxyPc} {e : ProxyEvent} (body : Except RewriteError Bytes) (chunk : List Bytes)
    (h : proxyStep conn id pc e = some (conn', pc')) (hpc' : early pc' = true) :
    early pc = true ∧ passedOn conn id chunk pc e = [] ∧ htmlOutput rewrite conn id chunk body pc e = body ∧
      finishesBody conn id pc e = false ∧ beginsHtml pc e = false := by
  have hstart : ∀ c started, early started = false → early (startIter c id started .ended) = false := by
    intro c started hstarted
    unfold startIter
    split
    · exact hstarted
    · rfl
  cases pc with
  | sendingRequest => cases e <;> cases h <;> exact ⟨rfl, rfl, rfl, rfl, rfl⟩
  | readingFirst =>
      cases e with
      | firstByte response =>
          obtain ⟨⟨p, taken⟩, -, heq⟩ := Option.map_eq_some_iff.mp h
          cases response <;> cases heq
          · cases hpc'
          · rw [hstart _ _ rfl] at hpc'
            cases hpc'
          · cases hpc'
      | _ => cases h <;> cases hpc'
  | buffering iter parts =>
      cases e with
      | iter e' =>
          obtain ⟨⟨taken, iter', out⟩, -, heq⟩ := Option.map_eq_some_iff.mp h
          cases heq
          cases out <;> simp only [bufferPart] at hpc' <;> split at hpc' <;> cases hpc'
      | _ => cases h <;> cases hpc'
  | responding =>
      cases e with
      | startBody =>
          cases h
          rw [hstart _ _ rfl] at hpc'
          cases hpc'
      | _ => cases h <;> cases hpc'
  | streaming iter =>
      cases e with
      | iter e' =>
          obtain ⟨⟨taken, iter', out⟩, -, heq⟩ := Option.map_eq_some_iff.mp h
          cases out with
          | none =>
              simp only at heq
              split at heq <;> cases heq <;> cases hpc'
          | some part =>
              cases heq
              cases hpc'
      | _ => cases h <;> cases hpc'
  | wsStarting =>
      cases e with
      | startBody =>
          cases h
          unfold startIter at hpc'
          split at hpc' <;> cases hpc'
      | _ => cases h <;> cases hpc'
  | bridging iter =>
      cases e with
      | iter e' =>
          obtain ⟨⟨taken, iter', out⟩, -, heq⟩ := Option.map_eq_some_iff.mp h
          cases heq
          split at hpc' <;> cases hpc'
      | _ => cases h <;> cases hpc'
  | replaying iter parts => cases e <;> cases parts <;> cases h <;> cases hpc'
  | _ => cases e <;> cases h <;> cases hpc'

theorem beginsHtml_early {pc : ProxyPc} {e : ProxyEvent} (h : beginsHtml pc e = true) : early pc = true := by
  unfold beginsHtml at h
  split at h
  · rfl
  · cases h

end

/-- A step of the handler of the stream. -/
structure Moves (s t : HtmlExchange) (e : ProxyEvent) (conn : TunnelConnection) (pc : ProxyPc) : Prop where
  move : proxyStep s.exchange.relay.conn id (s.exchange.relay.handler id) e = some (conn, pc)
  conn_eq : t.exchange.relay.conn = conn
  handler : t.exchange.relay.handler id = pc
  sent : t.exchange.sent = s.exchange.sent
  delivered : t.exchange.delivered = s.exchange.delivered ++
    passedOn s.exchange.relay.conn id s.exchange.chunk (s.exchange.relay.handler id) e
  bodyFinished : t.exchange.bodyFinished = (s.exchange.bodyFinished ||
    finishesBody s.exchange.relay.conn id (s.exchange.relay.handler id) e)
  html : t.html = (s.html || beginsHtml (s.exchange.relay.handler id) e)
  body : t.body = htmlOutput rewrite s.exchange.relay.conn id s.exchange.chunk s.body
    (s.exchange.relay.handler id) e

variable {rewrite id}

variable (rewrite) in
theorem exists_moves {s : HtmlExchange} {e : ProxyEvent} {conn : TunnelConnection} {pc : ProxyPc}
    (h : proxyStep s.exchange.relay.conn id (s.exchange.relay.handler id) e = some (conn, pc)) :
    ∃ t, s.step rewrite id (.relay (.handler id e)) = some t ∧ Moves rewrite id s t e conn pc := by
  simp only [step, ResponseExchange.step, RelayTunnel.step, h, Option.map_some, if_true]
  refine ⟨_, rfl, h, rfl, ?_, rfl, rfl, rfl, rfl, rfl⟩
  exact Function.update_self ..

theorem moves_of_step {s t : HtmlExchange} {e : ProxyEvent}
    (h : s.step rewrite id (.relay (.handler id e)) = some t) : ∃ conn pc, Moves rewrite id s t e conn pc := by
  obtain ⟨exchange, hexchange, -⟩ := Option.map_eq_some_iff.mp h
  obtain ⟨relay, hrelay, -⟩ := Option.map_eq_some_iff.mp hexchange
  obtain ⟨⟨conn, pc⟩, hstep, -⟩ := Option.map_eq_some_iff.mp hrelay
  obtain ⟨t', ht', hmoves⟩ := exists_moves rewrite hstep
  obtain rfl : t = t' := Option.some.inj (h.symm.trans ht')
  exact ⟨conn, pc, hmoves⟩

theorem handler_of_other {s t : RelayTunnel} {a : RelayAction} (h : s.step a = some t)
    (hother : ∀ e, a ≠ .handler id e) : t.handler id = s.handler id ∨ s.handler id = .absent := by
  cases a with
  | openStream id' isWebSocket =>
      by_cases hid : id = id'
      · subst hid
        simp only [RelayTunnel.step] at h
        split at h
        · rename_i habsent
          exact .inr habsent
        · cases h
      · exact .inl (RelayTunnel.step_untouched s t _ id h (Ne.symm hid)).handler
  | handler id' e =>
      have hid : id' ≠ id := by
        rintro rfl
        exact hother e rfl
      exact .inl (RelayTunnel.step_untouched s t _ id h hid).handler
  | receive f =>
      simp only [RelayTunnel.step] at h
      split at h <;> cases h
      exact .inl rfl
  | resumePut =>
      obtain ⟨conn, -, rfl⟩ := Option.map_eq_some_iff.mp h
      exact .inl rfl
  | getTask id' =>
      simp only [RelayTunnel.step] at h
      split at h
      · obtain ⟨taken, -, rfl⟩ := Option.map_eq_some_iff.mp h
        exact .inl rfl
      · cases h
  | tearDown =>
      cases h
      exact .inl rfl

theorem exchange_other {s t : ResponseExchange} {a : ExchangeAction} (h : s.step id a = some t)
    (hother : ∀ e, a ≠ .relay (.handler id e)) :
    t.delivered = s.delivered ∧ t.bodyFinished = s.bodyFinished ∧
      (t.relay.handler id = s.relay.handler id ∨ s.relay.handler id = .absent) := by
  cases a with
  | agentSend f =>
      simp only [ResponseExchange.step] at h
      split at h <;> cases h
      exact ⟨rfl, rfl, .inl rfl⟩
  | relay a =>
      have hrelay : ∀ relay, s.relay.step a = some relay →
          relay.handler id = s.relay.handler id ∨ s.relay.handler id = .absent :=
        fun relay hstep => handler_of_other hstep fun e ha => hother e (ha ▸ rfl)
      cases a with
      | receive f =>
          simp only [ResponseExchange.step] at h
          split at h
          · obtain ⟨relay, hstep, rfl⟩ := Option.map_eq_some_iff.mp h
            exact ⟨rfl, rfl, hrelay relay hstep⟩
          · cases h
      | handler id' e =>
          have hid : id' ≠ id := by
            rintro rfl
            exact hother e rfl
          simp only [ResponseExchange.step, hid, if_false] at h
          obtain ⟨relay, hstep, rfl⟩ := Option.map_eq_some_iff.mp h
          exact ⟨rfl, rfl, hrelay relay hstep⟩
      | tearDown =>
          cases h
          exact ⟨rfl, rfl, hrelay _ rfl⟩
      | _ =>
          obtain ⟨relay, hstep, rfl⟩ := Option.map_eq_some_iff.mp h
          exact ⟨rfl, rfl, hrelay relay hstep⟩

theorem step_other {s t : HtmlExchange} {a : ExchangeAction} (h : s.step rewrite id a = some t)
    (hother : ∀ e, a ≠ .relay (.handler id e)) :
    s.exchange.step id a = some t.exchange ∧ t.html = s.html ∧ t.body = s.body := by
  obtain ⟨exchange, hexchange, rfl⟩ := Option.map_eq_some_iff.mp h
  split
  · rename_i id' e
    have hid : id' ≠ id := by
      rintro rfl
      exact hother e rfl
    rw [if_neg hid]
    exact ⟨hexchange, rfl, rfl⟩
  · exact ⟨hexchange, rfl, rfl⟩

theorem inv_handler {s t : HtmlExchange} {e : ProxyEvent} {conn : TunnelConnection} {pc : ProxyPc}
    (hinv : Inv rewrite id s) (h : Moves rewrite id s t e conn pc) : Inv rewrite id t := by
  constructor
  · intro hearly
    rw [h.handler] at hearly
    obtain ⟨hbefore, hpassed, hbody, hfinishes, hhtml⟩ :=
      early_handler s.body s.exchange.chunk h.move hearly
    obtain ⟨hnot, hdelivered, hempty, hrunning⟩ := hinv.early hbefore
    rw [h.html, h.delivered, h.body, h.bodyFinished, hnot, hhtml, hdelivered, hpassed, hbody, hempty, hrunning,
      hfinishes]
    exact ⟨rfl, rfl, rfl, rfl⟩
  · intro hhtml
    rw [h.html] at hhtml
    rw [h.delivered, h.body, h.bodyFinished, h.handler]
    by_cases hbefore : s.html = true
    · exact phase_handler s.exchange.chunk h.move (hinv.phase hbefore)
    · -- this step reads the metadata
      have hbegins : beginsHtml (s.exchange.relay.handler id) e = true := by simpa [hbefore] using hhtml
      obtain ⟨-, hdelivered, hempty, hrunning⟩ := hinv.early (beginsHtml_early hbegins)
      rw [hdelivered, hempty, hrunning]
      exact phase_begins s.exchange.chunk h.move hbegins

theorem inv_step (s : HtmlExchange) (a : ExchangeAction) (t : HtmlExchange) (hinv : Inv rewrite id s)
    (h : s.step rewrite id a = some t) : Inv rewrite id t := by
  by_cases hhandler : ∃ e, a = .relay (.handler id e)
  · obtain ⟨e, rfl⟩ := hhandler
    obtain ⟨conn, pc, hmoves⟩ := moves_of_step h
    exact inv_handler hinv hmoves
  · have hother : ∀ e, a ≠ .relay (.handler id e) := fun e ha => hhandler ⟨e, ha⟩
    obtain ⟨hexchange, hhtml, hbody⟩ := step_other h hother
    obtain ⟨hdelivered, hfinished, hsame | habsent⟩ := exchange_other hexchange hother
    · constructor
      · intro hearly
        rw [hhtml, hdelivered, hbody, hfinished]
        exact hinv.early (hsame ▸ hearly)
      · intro hset
        rw [hdelivered, hbody, hfinished, hsame]
        exact hinv.phase (hhtml ▸ hset)
    · have hfresh := hinv.early (by rw [habsent]; rfl)
      constructor
      · intro _
        rw [hhtml, hdelivered, hbody, hfinished]
        exact hfresh
      · intro hset
        rw [hhtml, hfresh.1] at hset
        cases hset

theorem exchange_step (s : HtmlExchange) (a : ExchangeAction) (t : HtmlExchange)
    (h : s.step rewrite id a = some t) : s.exchange.step id a = some t.exchange := by
  obtain ⟨exchange, hexchange, rfl⟩ := Option.map_eq_some_iff.mp h
  split
  · split <;> exact hexchange
  · exact hexchange

theorem bothInv_step (s : HtmlExchange) (a : ExchangeAction) (t : HtmlExchange)
    (hinv : Inv rewrite id s ∧ ResponseExchange.ExchangeInv id s.exchange) (hcond : s.NotInterrupted id a)
    (h : s.step rewrite id a = some t) :
    Inv rewrite id t ∧ ResponseExchange.ExchangeInv id t.exchange :=
  ⟨inv_step s a t hinv.1 h,
    ResponseExchange.exchangeInv_step id s.exchange a t.exchange hinv.2 hcond (exchange_step s a t h)⟩

theorem body_of_finished {s : HtmlExchange} (hinv : Inv rewrite id s)
    (hexchange : ResponseExchange.ExchangeInv id s.exchange)
    (hhtml : s.html = true) (hfinished : s.exchange.bodyFinished = true) :
    ∃ head chunks, s.exchange.sent = head :: chunks ∧ s.body = rewrittenIfSmall rewrite chunks.flatten := by
  obtain ⟨hended, -, hcomplete⟩ := hexchange.finished hfinished
  have hphase := hinv.phase hhtml
  rw [hended] at hphase
  obtain ⟨head, rest, hdelivered, hbody⟩ := hphase hfinished
  exact ⟨head, rest, by rw [← hcomplete, hdelivered], hbody⟩

/-- How many moves an iterator has before it at most, once the stream is closed. -/
def iterRank (conn : TunnelConnection) (id : UUID) (iter : IterPc) : Nat :=
  4 * (conn.states id).queue.items.length +
    match iter with
    | .waiting (some _) _ => 4
    | .yielded => 3
    | .waiting none false => 2
    | .waiting none true => 1
    | .draining | .finished => 0

theorem takeItem_length {conn conn' : TunnelConnection} {p : Bytes} (h : conn.takeItem id = some (p, conn')) :
    (conn.states id).queue.items.length = (conn'.states id).queue.items.length + 1 := by
  obtain ⟨q, hitems, rfl⟩ := takeItem_cases conn conn' id p h
  simp [hitems]

theorem drain_progress (conn : TunnelConnection) (id : UUID) :
    ∃ conn' iter' out, conn.drain id = (conn', iter', out) ∧
      (iter' = .finished ∨ iterRank conn' id iter' < 4 * (conn.states id).queue.items.length) := by
  unfold drain
  cases htake : conn.takeItem id with
  | none => exact ⟨_, _, _, rfl, .inl rfl⟩
  | some taken =>
      obtain ⟨p, conn'⟩ := taken
      refine ⟨conn', .draining, some p, rfl, .inr ?_⟩
      have hlength := takeItem_length htake
      simp only [iterRank]
      omega

theorem iter_progress {conn : TunnelConnection} {iter : IterPc} (hclosed : (conn.states id).closed = true)
    (hiter : iter ≠ .finished) :
    ∃ e conn' iter' out, conn.iterStep id iter e = some (conn', iter', out) ∧
      (iter' = .finished ∨ iterRank conn' id iter' < iterRank conn id iter) := by
  cases iter with
  | finished => exact absurd rfl hiter
  | yielded =>
      by_cases hempty : (conn.states id).queue.items.isEmpty = true
      · exact ⟨.next, _, _, _, by simp only [iterStep, hclosed, hempty, Bool.and_self, if_true]; rfl, .inl rfl⟩
      · refine ⟨.next, conn, .waiting none false, none, by simp [iterStep, hempty], .inr ?_⟩
        simp only [iterRank]
        omega
  | draining =>
      obtain ⟨conn', iter', out, hdrain, hrank⟩ := drain_progress conn id
      exact ⟨.next, conn', iter', out, by rw [iterStep, hdrain], hrank.imp_right fun h => by simpa [iterRank] using h⟩
  | waiting got closedDone =>
      cases got with
      | some p =>
          refine ⟨.resume, conn, .yielded, some p, by cases closedDone <;> rfl, .inr ?_⟩
          simp only [iterRank]
          omega
      | none =>
          cases closedDone with
          | true =>
              obtain ⟨conn', iter', out, hdrain, hrank⟩ := drain_progress conn id
              refine ⟨.resume, conn', iter', out, by rw [iterStep, hdrain], hrank.imp_right fun h => ?_⟩
              simp only [iterRank] at h ⊢
              omega
          | false =>
              cases htake : conn.takeItem id with
              | none =>
                  refine ⟨.closedTask, conn, .waiting none true, none, by simp [iterStep, hclosed], .inr ?_⟩
                  simp only [iterRank]
                  omega
              | some taken =>
                  obtain ⟨p, conn'⟩ := taken
                  refine ⟨.getTask, conn', .waiting (some p) false, none, by simp [iterStep, htake], .inr ?_⟩
                  have hlength := takeItem_length htake
                  simp only [iterRank]
                  omega

/-- The moves of a handler that sends a body to a browser that stays. -/
def isBodyMove : ProxyEvent → Bool
  | .iter _ | .startBody | .replay | .connected => true
  | _ => false

variable (rewrite id) in
/-- The handler can finish the body without anything else happening. -/
def CanFinish (s : HtmlExchange) : Prop :=
  ∃ moves : List ProxyEvent, (∀ e ∈ moves, isBodyMove e = true) ∧
    ∃ t, TransitionSystem.run (step rewrite id) s (moves.map fun e => .relay (.handler id e)) = some t ∧
      t.exchange.bodyFinished = true ∧ t.html = true ∧ t.exchange.sent = s.exchange.sent

theorem canFinish_of_last {s t : HtmlExchange} {e : ProxyEvent} {conn : TunnelConnection} {pc : ProxyPc}
    (hstep : s.step rewrite id (.relay (.handler id e)) = some t) (hmoves : Moves rewrite id s t e conn pc)
    (he : isBodyMove e = true) (hhtml : s.html = true)
    (hfinishes : finishesBody s.exchange.relay.conn id (s.exchange.relay.handler id) e = true) :
    CanFinish rewrite id s := by
  refine ⟨[e], by simpa using he, t, ?_, ?_, ?_, hmoves.sent⟩
  · rw [List.map_singleton, TransitionSystem.run_cons, hstep]
    rfl
  · rw [hmoves.bodyFinished, hfinishes, Bool.or_true]
  · rw [hmoves.html, hhtml]
    rfl

theorem CanFinish.cons {s t : HtmlExchange} {e : ProxyEvent} {conn : TunnelConnection} {pc : ProxyPc}
    (h : CanFinish rewrite id t) (hstep : s.step rewrite id (.relay (.handler id e)) = some t)
    (hmoves : Moves rewrite id s t e conn pc) (he : isBodyMove e = true) : CanFinish rewrite id s := by
  obtain ⟨moves, hall, u, hrun, hfinished, hhtml, hsent⟩ := h
  refine ⟨e :: moves, ?_, u, ?_, hfinished, hhtml, hsent.trans hmoves.sent⟩
  · intro e' he'
    rcases List.mem_cons.mp he' with rfl | he'
    · exact he
    · exact hall e' he'
  · rw [List.map_cons, TransitionSystem.run_cons, hstep]
    exact hrun

theorem Moves.closed {s t : HtmlExchange} {e : ProxyEvent} {conn : TunnelConnection} {pc : ProxyPc}
    (h : Moves rewrite id s t e conn pc) (hclosed : (s.exchange.relay.conn.states id).closed = true) :
    (t.exchange.relay.conn.states id).closed = true := by
  rw [h.conn_eq, (proxyStep_touches _ conn id _ pc e h.move).closed id, hclosed]

theorem Moves.keeps_html {s t : HtmlExchange} {e : ProxyEvent} {conn : TunnelConnection} {pc : ProxyPc}
    (h : Moves rewrite id s t e conn pc) (hhtml : s.html = true) : t.html = true := by
  rw [h.html, hhtml]
  rfl

theorem canFinish_streaming (n : Nat) (s : HtmlExchange) (iter : IterPc) (hhtml : s.html = true)
    (hclosed : (s.exchange.relay.conn.states id).closed = true) (hpc : s.exchange.relay.handler id = .streaming iter)
    (hiter : iter ≠ .finished) (hn : iterRank s.exchange.relay.conn id iter < n) : CanFinish rewrite id s := by
  induction n generalizing s iter with
  | zero => omega
  | succ n ih =>
      obtain ⟨e, conn, iter', out, hstep, hrank⟩ := iter_progress hclosed hiter
      cases out with
      | some part =>
          have hfin : iter' ≠ .finished := by
            rintro rfl
            cases (iterStep_finished _ conn id iter e (some part) hstep).2.1
          have hmove : proxyStep s.exchange.relay.conn id (s.exchange.relay.handler id) (.iter e) =
              some (conn, .checking iter') := by
            rw [hpc, proxyStep, hstep]
            rfl
          obtain ⟨t, ht, hmoves⟩ := exists_moves rewrite hmove
          have hmove' : proxyStep t.exchange.relay.conn id (t.exchange.relay.handler id) .connected =
              some (conn, .streaming iter') := by
            rw [hmoves.handler, hmoves.conn_eq, proxyStep]
          obtain ⟨u, hu, hmoves'⟩ := exists_moves rewrite hmove'
          have hnext : CanFinish rewrite id u := by
            refine ih u iter' (hmoves'.keeps_html (hmoves.keeps_html hhtml)) (hmoves'.closed (hmoves.closed hclosed))
              hmoves'.handler hfin ?_
            have hless := hrank.resolve_left hfin
            rw [hmoves'.conn_eq]
            omega
          exact (hnext.cons hu hmoves' rfl).cons ht hmoves rfl
      | none =>
          by_cases hfin : iter' = .finished
          · have hmove : proxyStep s.exchange.relay.conn id (s.exchange.relay.handler id) (.iter e) =
                some (conn.removeStream id, .ended) := by
              rw [hpc, proxyStep, hstep]
              simp [hfin]
            obtain ⟨t, ht, hmoves⟩ := exists_moves rewrite hmove
            refine canFinish_of_last ht hmoves rfl hhtml ?_
            simp [hpc, finishesBody, hstep, hfin]
          · have hmove : proxyStep s.exchange.relay.conn id (s.exchange.relay.handler id) (.iter e) =
                some (conn, .streaming iter') := by
              rw [hpc, proxyStep, hstep]
              simp [hfin]
            obtain ⟨t, ht, hmoves⟩ := exists_moves rewrite hmove
            have hnext : CanFinish rewrite id t := by
              refine ih t iter' (hmoves.keeps_html hhtml) (hmoves.closed hclosed) hmoves.handler hfin ?_
              have hless := hrank.resolve_left hfin
              rw [hmoves.conn_eq]
              omega
            exact hnext.cons ht hmoves rfl

theorem canFinish_replaying (parts : List Bytes) (s : HtmlExchange) (iter : IterPc) (hhtml : s.html = true)
    (hclosed : (s.exchange.relay.conn.states id).closed = true)
    (hpc : s.exchange.relay.handler id = .replaying iter parts) (hiter : iter ≠ .finished) :
    CanFinish rewrite id s := by
  induction parts generalizing s with
  | nil =>
      have hmove : proxyStep s.exchange.relay.conn id (s.exchange.relay.handler id) .replay =
          some (s.exchange.relay.conn, .streaming iter) := by rw [hpc, proxyStep]
      obtain ⟨t, ht, hmoves⟩ := exists_moves rewrite hmove
      have hnext : CanFinish rewrite id t :=
        canFinish_streaming _ t iter (hmoves.keeps_html hhtml) (hmoves.closed hclosed) hmoves.handler hiter
          (Nat.lt_succ_self _)
      exact hnext.cons ht hmoves rfl
  | cons part parts ih =>
      have hmove : proxyStep s.exchange.relay.conn id (s.exchange.relay.handler id) .replay =
          some (s.exchange.relay.conn, .replaying iter parts) := by rw [hpc, proxyStep]
      obtain ⟨t, ht, hmoves⟩ := exists_moves rewrite hmove
      exact (ih t (hmoves.keeps_html hhtml) (hmoves.closed hclosed) hmoves.handler).cons ht hmoves rfl

theorem canFinish_overCap (s : HtmlExchange) (iter : IterPc) (parts : List Bytes) (hhtml : s.html = true)
    (hclosed : (s.exchange.relay.conn.states id).closed = true)
    (hpc : s.exchange.relay.handler id = .respondingOverCap iter parts) (hiter : iter ≠ .finished) :
    CanFinish rewrite id s := by
  have hmove : proxyStep s.exchange.relay.conn id (s.exchange.relay.handler id) .startBody =
      some (s.exchange.relay.conn, .replaying iter parts) := by rw [hpc, proxyStep]
  obtain ⟨t, ht, hmoves⟩ := exists_moves rewrite hmove
  have hnext : CanFinish rewrite id t :=
    canFinish_replaying parts t iter (hmoves.keeps_html hhtml) (hmoves.closed hclosed) hmoves.handler hiter
  exact hnext.cons ht hmoves rfl

theorem canFinish_buffering (n : Nat) (s : HtmlExchange) (iter : IterPc) (parts : List Bytes) (hhtml : s.html = true)
    (hclosed : (s.exchange.relay.conn.states id).closed = true)
    (hpc : s.exchange.relay.handler id = .buffering iter parts) (hiter : iter ≠ .finished)
    (hn : iterRank s.exchange.relay.conn id iter < n) : CanFinish rewrite id s := by
  induction n generalizing s iter parts with
  | zero => omega
  | succ n ih =>
      obtain ⟨e, conn, iter', out, hstep, hrank⟩ := iter_progress hclosed hiter
      have hmove : proxyStep s.exchange.relay.conn id (s.exchange.relay.handler id) (.iter e) =
          some (conn, bufferPart iter' parts out) := by
        rw [hpc, proxyStep, hstep]
        rfl
      obtain ⟨t, ht, hmoves⟩ := exists_moves rewrite hmove
      by_cases hfin : iter' = .finished
      · refine canFinish_of_last ht hmoves rfl hhtml ?_
        simp [hpc, finishesBody, hstep, hfin]
      · have hless := hrank.resolve_left hfin
        have hrank' : iterRank t.exchange.relay.conn id iter' < n := by
          rw [hmoves.conn_eq]
          omega
        have hnext : CanFinish rewrite id t := by
          have hhandler := hmoves.handler
          cases out with
          | none =>
              rw [bufferPart, if_neg hfin] at hhandler
              exact ih t iter' parts (hmoves.keeps_html hhtml) (hmoves.closed hclosed) hhandler hfin hrank'
          | some part =>
              simp only [bufferPart] at hhandler
              split at hhandler
              · exact canFinish_overCap t iter' _ (hmoves.keeps_html hhtml) (hmoves.closed hclosed) hhandler hfin
              · exact ih t iter' _ (hmoves.keeps_html hhtml) (hmoves.closed hclosed) hhandler hfin hrank'
        exact hnext.cons ht hmoves rfl

theorem canFinish {s : HtmlExchange} (hinv : Inv rewrite id s)
    (hexchange : ResponseExchange.ExchangeInv id s.exchange) (hhtml : s.html = true)
    (hserving : (s.exchange.relay.handler id).serving = true)
    (hclosed : (s.exchange.relay.conn.states id).closed = true) : CanFinish rewrite id s := by
  have hphase := hinv.phase hhtml
  have hiter : ∀ iter, (s.exchange.relay.handler id).bodyIter = some iter → iter ≠ .finished :=
    fun iter h => (hexchange.consistent iter h).1
  cases hpc : s.exchange.relay.handler id with
  | absent | sendingRequest | readingFirst | responding =>
      rw [hpc] at hphase
      cases hphase
  | buffering iter parts =>
      exact canFinish_buffering _ s iter parts hhtml hclosed hpc (hiter iter (by rw [hpc]; rfl)) (Nat.lt_succ_self _)
  | respondingOverCap iter parts =>
      exact canFinish_overCap s iter parts hhtml hclosed hpc (hiter iter (by rw [hpc]; rfl))
  | replaying iter parts =>
      exact canFinish_replaying parts s iter hhtml hclosed hpc (hiter iter (by rw [hpc]; rfl))
  | streaming iter =>
      exact canFinish_streaming _ s iter hhtml hclosed hpc (hiter iter (by rw [hpc]; rfl)) (Nat.lt_succ_self _)
  | checking iter =>
      have hmove : proxyStep s.exchange.relay.conn id (s.exchange.relay.handler id) .connected =
          some (s.exchange.relay.conn, .streaming iter) := by rw [hpc, proxyStep]
      obtain ⟨t, ht, hmoves⟩ := exists_moves rewrite hmove
      have hnext : CanFinish rewrite id t := canFinish_streaming _ t iter (hmoves.keeps_html hhtml)
        (hmoves.closed hclosed) hmoves.handler
        (hiter iter (by rw [hpc]; rfl)) (Nat.lt_succ_self _)
      exact hnext.cons ht hmoves rfl
  | timedOut | wsOpening | wsStarting | bridging _ | leaving | ended =>
      rw [hpc] at hserving
      cases hserving

theorem inv_of_run {acts : List ExchangeAction} {s : HtmlExchange}
    (hcond : TransitionSystem.Guarded (step rewrite id) (NotInterrupted id) init acts)
    (hrun : TransitionSystem.run (step rewrite id) init acts = some s) :
    Inv rewrite id s ∧ ResponseExchange.ExchangeInv id s.exchange :=
  TransitionSystem.run_invariant_of_guarded (step rewrite id) (NotInterrupted id)
    (fun s => Inv rewrite id s ∧ ResponseExchange.ExchangeInv id s.exchange) bothInv_step
    ⟨inv_init rewrite id, ResponseExchange.exchangeInv_init id⟩ hcond hrun

/-- As long as the stream of an HTML response is closed by its CLOSE only: what the browser was given for a body that
has finished is the rewriting of all that the agent sent, or that itself if it is over the cap; and once the stream is
closed, a body that is being sent can be finished. -/
theorem htmlBody_delivered (groupNumber : List Char → Option Nat) (codecs : Codecs) (contentType code : String)
    (id : UUID) (acts : List ExchangeAction) (s : HtmlExchange)
    (hcond : TransitionSystem.Guarded
      (step (fun body => rewriteHtmlBody groupNumber codecs body contentType ("/m/" ++ code)) id)
      (NotInterrupted id) init acts)
    (hrun : TransitionSystem.run
      (step (fun body => rewriteHtmlBody groupNumber codecs body contentType ("/m/" ++ code)) id) init acts = some s)
    (hhtml : s.html = true) :
    (s.exchange.bodyFinished = true → ∃ head chunks, s.exchange.sent = head :: chunks ∧
      s.body = if chunks.flatten.length ≤ htmlRewriteMaxBytes then
          rewriteHtmlBody groupNumber codecs chunks.flatten contentType ("/m/" ++ code)
        else .ok chunks.flatten) ∧
    ((s.exchange.relay.handler id).serving = true → (s.exchange.relay.conn.states id).closed = true →
      CanFinish (fun body => rewriteHtmlBody groupNumber codecs body contentType ("/m/" ++ code)) id s) := by
  obtain ⟨hinv, hexchange⟩ := inv_of_run hcond hrun
  exact ⟨body_of_finished hinv hexchange hhtml, canFinish hinv hexchange hhtml⟩

/-- A page in two chunks, whose attribute is cut between them. -/
def twoChunkPage : List ExchangeAction :=
  [.relay (.openStream 1 false), .relay (.handler 1 .sent), .agentSend ⟨.data, 1, [123, 125]⟩,
    .agentSend ⟨.data, 1, utf8Encode "<a href="⟩, .agentSend ⟨.data, 1, utf8Encode "'/x'>"⟩,
    .agentSend ⟨.close, 1, []⟩, .relay (.receive ⟨.data, 1, [123, 125]⟩),
    .relay (.handler 1 (.firstByte .html)), .relay (.receive ⟨.data, 1, utf8Encode "<a href="⟩),
    .relay (.handler 1 (.iter .getTask)), .relay (.handler 1 (.iter .resume)),
    .relay (.handler 1 (.iter .next)), .relay (.receive ⟨.data, 1, utf8Encode "'/x'>"⟩),
    .relay (.receive ⟨.close, 1, []⟩), .relay (.handler 1 (.iter .closedTask)),
    .relay (.handler 1 (.iter .resume)), .relay (.handler 1 (.iter .next))]

theorem htmlBody_delivered_page :
    ∃ s, TransitionSystem.run
        (step (fun body => rewriteHtmlBody (fun _ => none) utf8Codecs body "text/html" ("/m/" ++ "AB")) 1) init
        twoChunkPage = some s ∧ s.html = true ∧
      ∃ head chunks, s.exchange.sent = head :: chunks ∧
        s.body = if chunks.flatten.length ≤ htmlRewriteMaxBytes then
            rewriteHtmlBody (fun _ => none) utf8Codecs chunks.flatten "text/html" ("/m/" ++ "AB")
          else .ok chunks.flatten := by
  have hguard : TransitionSystem.Guarded
      (step (fun body => rewriteHtmlBody (fun _ => none) utf8Codecs body "text/html" ("/m/" ++ "AB")) 1)
      (NotInterrupted 1) init twoChunkPage := by
    decide +kernel
  have heval : (TransitionSystem.run
      (step (fun body => rewriteHtmlBody (fun _ => none) utf8Codecs body "text/html" ("/m/" ++ "AB")) 1) init
      twoChunkPage).any (fun s => s.html && s.exchange.bodyFinished) = true := by
    decide +kernel
  obtain ⟨s, hrun, hs⟩ := (Option.any_eq_true _ _).mp heval
  obtain ⟨hhtml, hfinished⟩ := Bool.and_eq_true_iff.mp hs
  have hdelivered := htmlBody_delivered (fun _ => none) utf8Codecs "text/html" "AB" 1 twoChunkPage s hguard hrun hhtml
  exact ⟨s, hrun, hhtml, hdelivered.1 hfinished⟩

end HtmlExchange

end NetworkFileServer.Relay
