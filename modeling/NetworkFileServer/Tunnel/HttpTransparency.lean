import NetworkFileServer.Tunnel.HttpExchange

/-!
# The answer to a request, from the local application to the browser

Seen from one request, the two ends of a tunnel are an exchange of the relay with an agent that sends
DATA frames and one CLOSE. So the browser is always given a prefix of the application's answer, and
the whole of it unless the relay's end is torn down while the response is being served.
-/

namespace NetworkFileServer.Relay.ResponseExchange

open Tunnel TunnelConnection

/-- A property of an exchange that is kept by every step which does not interrupt the response, and
by what other streams do to the relay. -/
structure Kept (id : UUID) (I : ResponseExchange → Prop) : Prop where
  others : ∀ s relay, I s → RelayTunnel.Untouched id s.relay relay → I { s with relay := relay }
  moves : ∀ s b t, I s → ¬ s.Interrupts id b → s.step id b = some t → I t

theorem kept_exchangeInv (id : UUID) : Kept id (ExchangeInv id) where
  others := fun _ _ hinv h => hinv.untouched h
  moves := fun s b t hinv hcond h => exchangeInv_step id s b t hinv hcond h

theorem kept_prefixInv (id : UUID) : Kept id (PrefixInv id) where
  others := fun _ _ hinv h => hinv.untouched h
  moves := fun s b t hinv _ h => prefixInv_step id s b t hinv h

/-- The frames that the agent hands to the channel in one of its steps: those of another stream, or
some of an answer that was not closed before. -/
def MayFollow (id : UUID) (s : ResponseExchange) (out : List Frame) : Prop :=
  (∀ f ∈ out, f.requestId ≠ id) ∨
    (s.relay.handler id ≠ .absent ∧ s.closeSent = false ∧ (∀ f ∈ out, f.type ≠ .wsData) ∧
      ∀ f ∈ out.dropLast, isClose id f = false)

theorem Kept.sends {id : UUID} {I : ResponseExchange → Prop} (hkept : Kept id I) (out : List Frame)
    (s : ResponseExchange) (hs : I s) (hmay : s.MayFollow id out) :
    I { s with
      wire := s.wire ++ out
      sent := s.sent ++ dataPayloads id out
      closeSent := s.closeSent || out.any (isClose id) } := by
  induction out generalizing s with
  | nil => simpa using hs
  | cons f rest ih =>
      have hallowed : s.agentMaySend id f = true := by
        rcases hmay with hothers | ⟨hopened, hnot, htypes, -⟩
        · simp [agentMaySend, hothers f List.mem_cons_self]
        · simp [agentMaySend, hopened, hnot, htypes f List.mem_cons_self]
      have hnext := hkept.moves s (.agentSend f) _ hs (fun h => h) (if_pos hallowed)
      have hall := ih _ hnext ?_
      · have hsplit : dataPayloads id (f :: rest) = dataPayloads id [f] ++ dataPayloads id rest := by
          rw [← dataPayloads_append, List.singleton_append]
        simpa [hsplit, Bool.or_assoc] using hall
      · rcases hmay with hothers | ⟨hopened, hnot, htypes, hlast⟩
        · exact .inl fun g hg => hothers g (List.mem_cons_of_mem f hg)
        · cases rest with
          | nil => exact .inl (by simp)
          | cons g rest =>
              have hopen : isClose id f = false := hlast f (by simp)
              refine .inr ⟨hopened, by simp [hnot, hopen], ?_, ?_⟩
              · exact fun g hg => htypes g (List.mem_cons_of_mem f hg)
              · intro g' hg'
                exact hlast g' (by simp [hg'])

end NetworkFileServer.Relay.ResponseExchange

namespace NetworkFileServer.Agent

open Tunnel TunnelConnection Relay

theorem agentStep_answers (env : AgentEnv) (conn conn' : TunnelConnection) (id : UUID)
    (pc pc' : AgentPc) (e : AgentEvent) (out : List Frame)
    (h : agentStep env conn id pc e = some (conn', pc', out)) (hhttp : pc.isWebSocket = false) :
    out = [] ∨ (∃ payload, out = [⟨.data, id, payload⟩]) ∨ out = [⟨.close, id, []⟩] := by
  cases pc with
  | spawned =>
      cases e with
      | start =>
          simp only [agentStep] at h
          split at h <;> cases h <;> exact .inl rfl
      | _ => cases h <;> exact .inl rfl
  | readingBody parts =>
      cases e with
      | bodyGet =>
          obtain ⟨⟨chunk, taken⟩, -, heq⟩ := Option.map_eq_some_iff.mp h
          simp only at heq
          split at heq <;> cases heq <;> exact .inl rfl
      | _ => cases h <;> exact .inl rfl
  | requesting content => cases e <;> cases h <;> exact .inl rfl
  | sending payload rest fails =>
      cases e with
      | sent =>
          cases h
          exact .inr (.inl ⟨payload, rfl⟩)
      | _ => cases h <;> exact .inl rfl
  | sendingClose =>
      cases e with
      | sent =>
          cases h
          exact .inr (.inr rfl)
      | _ => cases h <;> exact .inl rfl
  | absent | rejected | ended => cases e <;> cases h
  | _ => cases hhttp

theorem OnlyData.not_closed {id : UUID} {frames : List Frame} (h : OnlyData id frames) :
    frames.any (ResponseExchange.isClose id) = false := by
  rw [List.any_eq_false]
  intro f hf hclose
  obtain ⟨htype, hid⟩ : f.type = .close ∧ f.requestId = id := by
    simpa [ResponseExchange.isClose] using hclose
  have hdata := h f (by simp [framesOf, hf, hid])
  rw [htype] at hdata
  cases hdata

namespace AgentTunnel

theorem AnswerInv.not_closed {env : AgentEnv} {id : UUID} {s : AgentTunnel}
    (hinv : s.AnswerInv env id) (hhttp : (s.handler id).isWebSocket = false)
    (hrunning : s.handler id ≠ .rejected) (hended : ∀ how, s.handler id ≠ .ended how) :
    s.sent.any (ResponseExchange.isClose id) = false := by
  have honly : OnlyData id s.sent := by
    unfold AnswerInv at hinv
    cases hpc : s.handler id with
    | absent | spawned | readingBody | requesting =>
        rw [hpc] at hinv
        exact onlyData_of_nil hinv
    | sending | sendingClose =>
        rw [hpc] at hinv
        exact hinv.1
    | rejected => exact absurd hpc hrunning
    | ended how => exact absurd hpc (hended how)
    | _ =>
        rw [hpc] at hhttp
        cases hhttp
  exact honly.not_closed

theorem step_answers (env : AgentEnv) (s t : AgentTunnel) (a : AgentAction) (id : UUID)
    (hinv : s.AnswerInv env id) (hhttp : (s.handler id).isWebSocket = false)
    (hopen : ∀ f, a = .receive f → f.requestId = id → f.type ≠ .wsOpen)
    (h : s.step env a = some t) :
    ∃ out, t.sent = s.sent ++ out ∧ ((∀ f ∈ out, f.requestId ≠ id) ∨
      ((s.handler id ≠ .absent ∨ ∃ f, a = .receive f ∧ f.requestId = id) ∧
        s.sent.any (ResponseExchange.isClose id) = false ∧
        (∀ f ∈ out, f.type = .data ∨ f.type = .close) ∧
        ∀ f ∈ out.dropLast, ResponseExchange.isClose id f = false)) := by
  by_cases hspares : a.Spares id
  · obtain ⟨-, -, out, hsent, hout⟩ := step_untouched env s t a id h hspares
    refine ⟨out, hsent, .inl ?_⟩
    intro f hf hid
    have hmem : f ∈ framesOf id out := by simp [framesOf, hf, hid]
    rw [hout] at hmem
    cases hmem
  · cases a with
    | receive f =>
        have hid : f.requestId = id := not_not.mp hspares
        subst hid
        simp only [step] at h
        split at h
        · unfold onFrame at h
          split at h
          · split at h
            · cases h
            · rename_i habsent
              have habsent' : s.handler f.requestId = .absent := not_not.mp habsent
              split at h
              · cases h
                refine ⟨[], ?_, .inl (by simp)⟩
                unfold spawn
                split <;> simp [setHandler]
              · cases h
                refine ⟨_, rfl, .inr ⟨.inr ⟨f, rfl, rfl⟩, ?_, ?_, ?_⟩⟩
                · exact hinv.not_closed hhttp (by simp [habsent']) (by simp [habsent'])
                · simp
                · simp [ResponseExchange.isClose]
          · rename_i htype
            exact absurd htype (hopen f rfl rfl)
          · cases h
            exact ⟨[], by simp, .inl (by simp)⟩
        · cases h
    | handler id' e =>
        have hid : id' = id := not_not.mp hspares
        subst hid
        obtain ⟨⟨conn, pc, out⟩, hstep, rfl⟩ := Option.map_eq_some_iff.mp h
        have hopened := (agentStep_opened env s.conn conn id' _ pc e out hstep).1
        have hnot : s.sent.any (ResponseExchange.isClose id') = false := by
          refine hinv.not_closed hhttp ?_ ?_
          · intro hpc
            rw [hpc] at hstep
            cases e <;> cases hstep
          · intro how hpc
            rw [hpc] at hstep
            cases e <;> cases hstep
        refine ⟨out, rfl, .inr ⟨.inl hopened, hnot, ?_⟩⟩
        rcases agentStep_answers env s.conn conn id' _ pc e out hstep hhttp with
          rfl | ⟨payload, rfl⟩ | rfl <;> simp
    | resumePut => exact absurd trivial hspares
    | tearDown =>
        cases h
        exact ⟨[], by simp, .inl (by simp)⟩

end AgentTunnel

end NetworkFileServer.Agent

namespace NetworkFileServer.Tunnel

open Relay Agent TunnelConnection

namespace HttpExchange

/-- The exchange of the relay with the agent over one request. -/
def exchange (id : UUID) (x : HttpExchange) : ResponseExchange where
  relay := x.tunnel.relay
  wire := x.tunnel.toRelay
  sent := dataPayloads id x.tunnel.agent.sent
  closeSent := x.tunnel.agent.sent.any (ResponseExchange.isClose id)
  closeReceived := x.closeReceived
  chunk := x.chunk
  delivered := x.delivered
  bodyFinished := x.bodyFinished

/-- The agent's end keeps its own invariants: what a task has sent is a part of its answer. -/
structure AgentInv (env : AgentEnv) (id : UUID) (s : JointTunnel) : Prop where
  answer : s.agent.AnswerInv env id
  payloads : s.agent.SentInv env id

theorem agentInv_step (env : AgentEnv) (metadata : UUID → Bytes) (id : UUID) (s t : JointTunnel)
    (a : JointAction) (hinv : AgentInv env id s) (h : s.step env metadata a = some t) :
    AgentInv env id t := by
  cases hside : movesAgent a with
  | false =>
      obtain ⟨hsame, -⟩ := step_relaySide a hside h
      exact ⟨hsame ▸ hinv.answer, hsame ▸ hinv.payloads⟩
  | true =>
      obtain ⟨agent, b, hmoves⟩ := step_agentSide a hside h
      have hanswer := AgentTunnel.answerInv_step env id s.agent b agent hinv.answer hmoves.moves
      have hpayloads := AgentTunnel.sentInv_step env id s.agent b agent hinv.payloads hmoves.moves
      rcases hmoves.lands with heq | ⟨id', heq⟩
      · exact ⟨heq ▸ hanswer, heq ▸ hpayloads⟩
      · by_cases hid : id' = id
        · have hws : (t.agent.handler id).isWebSocket = true := by
            rw [heq]
            simp [AgentTunnel.setHandler, hid, AgentPc.isWebSocket]
          exact ⟨AgentTunnel.answerInv_webSocket hws, AgentTunnel.sentInv_webSocket hws⟩
        · have hhandler : t.agent.handler id = agent.handler id := by
            rw [heq]
            simp [AgentTunnel.setHandler, Ne.symm hid]
          have hsent : t.agent.sent = agent.sent := by rw [heq]; rfl
          exact ⟨hanswer.congr hhandler (by rw [hsent]), hpayloads.congr hhandler (by rw [hsent])⟩

/-- The stream is a request over HTTP, or it was not opened yet. -/
def Http (id : UUID) (x : HttpExchange) : Prop :=
  x.request ≠ none ∨ x.tunnel.relay.handler id = .absent

section Http

variable {env : AgentEnv} {metadata : UUID → Bytes} {id : UUID} {x y : HttpExchange}

theorem Http.relay (h : x.Http id) (hinv : RequestInv env metadata id x) :
    (x.tunnel.relay.handler id).isWebSocket = false := by
  rcases h with hsome | habsent
  · obtain ⟨chunks, hchunks⟩ := Option.ne_none_iff_exists'.mp hsome
    exact (hinv.opened chunks hchunks).http
  · rw [habsent]
    rfl

theorem Http.agent (h : x.Http id) (hinv : RequestInv env metadata id x) :
    (x.tunnel.agent.handler id).isWebSocket = false := by
  rcases h with hsome | habsent
  · obtain ⟨chunks, hchunks⟩ := Option.ne_none_iff_exists'.mp hsome
    exact (hinv.opened chunks hchunks).phase.agent_http
  · rw [(hinv.fresh habsent).2.2]
    rfl

theorem Http.opened (h : x.Http id) (hinv : RequestInv env metadata id x)
    (hreached : x.tunnel.agent.handler id ≠ .absent ∨ ∃ f ∈ x.tunnel.toAgent, f.requestId = id) :
    ∃ chunks, Opened env metadata id chunks x.tunnel := by
  rcases h with hsome | habsent
  · obtain ⟨chunks, hchunks⟩ := Option.ne_none_iff_exists'.mp hsome
    exact ⟨chunks, hinv.opened chunks hchunks⟩
  · obtain ⟨-, hframes, hagent⟩ := hinv.fresh habsent
    rcases hreached with hreached | ⟨f, hf, hid⟩
    · exact absurd hagent hreached
    · have hmem : f ∈ framesOf id x.tunnel.toAgent := by simp [framesOf, hf, hid]
      rw [hframes] at hmem
      cases hmem

theorem http_before (a : JointAction) (hinv : RequestInv env metadata id x)
    (h : x.step env metadata id a = some y) (hy : y.Http id) : x.Http id := by
  obtain ⟨tunnel, hstep, rfl⟩ := Option.map_eq_some_iff.mp h
  by_cases hopen : ∃ ws cs, a = .openStream id ws cs
  · obtain ⟨ws, cs, rfl⟩ := hopen
    obtain ⟨relay, hrelay, -⟩ := Option.map_eq_some_iff.mp hstep
    simp only [RelayTunnel.step] at hrelay
    split at hrelay
    · exact .inr ‹_›
    · cases hrelay
  · have hno : ∀ ws cs, a ≠ .openStream id ws cs := by
      intro ws cs heq
      exact hopen ⟨ws, cs, heq⟩
    rcases hy with hsome | habsent
    · rw [record_request id x tunnel a fun cs => hno false cs] at hsome
      exact .inl hsome
    · rw [record_tunnel] at habsent
      exact .inr (fresh_step a hno
        (fun hbefore => (hinv.fresh hbefore).2) hstep habsent).1

/-- The frames of a request for the relay are those of an answer. -/
def OnlyAnswers (id : UUID) (s : JointTunnel) : Prop :=
  ∀ f ∈ s.toRelay, f.requestId = id → f.type = .data ∨ f.type = .close

theorem exchange_agentSide (a : JointAction) (hside : movesAgent a = true)
    (hinv : RequestInv env metadata id x) (hagent : AgentInv env id x.tunnel) (hx : x.Http id)
    (h : x.step env metadata id a = some y) :
    ∃ out, (x.exchange id).MayFollow id out ∧ (∀ f ∈ out, f.requestId = id → f.type = .data ∨ f.type = .close) ∧
      y.exchange id = { x.exchange id with
        wire := (x.exchange id).wire ++ out
        sent := (x.exchange id).sent ++ dataPayloads id out
        closeSent := (x.exchange id).closeSent || out.any (ResponseExchange.isClose id) } := by
  obtain ⟨tunnel, hstep, rfl⟩ := Option.map_eq_some_iff.mp h
  obtain ⟨agent, b, hmoves⟩ := step_agentSide a hside hstep
  have hopen : ∀ f, b = .receive f → f.requestId = id → f.type ≠ .wsOpen := by
    rintro f rfl hid
    obtain ⟨chunks, hopened⟩ := hx.opened hinv (.inr ⟨f, hmoves.receives f rfl, hid⟩)
    refine hopened.phase.not_wsOpen f (hmoves.receives f rfl) hid ?_
    have hreceives := hmoves.moves
    simp only [AgentTunnel.step] at hreceives
    split at hreceives
    · assumption
    · cases hreceives
  obtain ⟨out, hsent, hout⟩ :=
    AgentTunnel.step_answers env x.tunnel.agent agent b id hagent.answer (hx.agent hinv) hopen hmoves.moves
  have hlands : tunnel.agent.sent = x.tunnel.agent.sent ++ out := by
    rcases hmoves.lands with heq | ⟨id', heq⟩
    · rw [heq, hsent]
    · rw [heq, ← hsent]
      rfl
  have hwire : tunnel.toRelay = x.tunnel.toRelay ++ out := by
    rw [hmoves.toRelay, hsent, List.drop_left]
  have hrecord : x.record id tunnel a = { x with tunnel := tunnel } := by
    cases a with
    | agentReceive | agentResumePut | agentHandler | localMessage | agentTearDown => rfl
    | _ => cases hside
  refine ⟨out, ?_, ?_, ?_⟩
  · rcases hout with hothers | ⟨hreached, hnot, htypes, hlast⟩
    · exact .inl hothers
    · have hopened : ∃ chunks, Opened env metadata id chunks x.tunnel := by
        refine hx.opened hinv ?_
        rcases hreached with hreached | ⟨f, hf, hid⟩
        · exact .inl hreached
        · exact .inr ⟨f, hmoves.receives f hf, hid⟩
      obtain ⟨chunks, hopened⟩ := hopened
      refine .inr ⟨hopened.opened, hnot, ?_, hlast⟩
      intro f hf
      rcases htypes f hf with htype | htype <;> simp [htype]
  · intro f hf hid
    rcases hout with hothers | ⟨-, -, htypes, -⟩
    · exact absurd hid (hothers f hf)
    · exact htypes f hf
  · rw [hrecord]
    simp [exchange, hmoves.relay, hwire, hlands, dataPayloads_append]

theorem untouched_deliverBrowser (id : UUID) (s : JointTunnel) (id' : UUID) (out : Option Bytes) (hne : id' ≠ id) :
    RelayTunnel.Untouched id s.relay (s.deliverBrowser id' out).relay := by
  obtain ⟨handler, browser, heq, hhandler⟩ := JointTunnel.deliverBrowser_cases s id' out
  rw [heq]
  refine ⟨?_, rfl, rfl, fun hnone => hnone, rfl, Iff.rfl⟩
  rcases hhandler with rfl | rfl
  · rfl
  · simp [Ne.symm hne]

theorem exchange_relaySide (I : ResponseExchange → Prop) (hkept : ResponseExchange.Kept id I)
    (a : JointAction) (hside : movesAgent a = false) (hinv : RequestInv env metadata id x) (hx : x.Http id)
    (honly : OnlyAnswers id x.tunnel)
    (htear : a = .relayTearDown → I (x.exchange id) → I { x.exchange id with
      relay := { x.tunnel.relay with conn := x.tunnel.relay.conn.tearDown } })
    (h : x.step env metadata id a = some y) (hI : I (x.exchange id)) : I (y.exchange id) := by
  obtain ⟨tunnel, hstep, rfl⟩ := Option.map_eq_some_iff.mp h
  have hhttp := hx.relay hinv
  cases a with
  | openStream id' ws cs =>
      obtain ⟨relay, hrelay, rfl⟩ := Option.map_eq_some_iff.mp hstep
      have hnext := hkept.moves (x.exchange id) (.relay (.openStream id' ws)) _ hI (fun hnot => hnot)
        (Option.map_eq_some_iff.mpr ⟨relay, hrelay, rfl⟩)
      cases ws <;> exact hnext
  | upload id' =>
      simp only [JointTunnel.step] at hstep
      split at hstep
      · obtain ⟨⟨pc, out⟩, -, rfl⟩ := Option.map_eq_some_iff.mp hstep
        exact hI
      · cases hstep
  | relayHandler id' e =>
      by_cases hid : id' = id
      · subst hid
        obtain ⟨-, relay, hrelay, rfl⟩ :=
          JointTunnel.step_relayHandler_http env metadata e hhttp hstep
        have hnext := hkept.moves (x.exchange id') (.relay (.handler id' e)) _ hI (fun hnot => hnot)
          (Option.map_eq_some_iff.mpr ⟨relay, hrelay, rfl⟩)
        simpa [record, exchange] using hnext
      · have hrecord : x.record id tunnel (.relayHandler id' e) = { x with tunnel := tunnel } := by
          simp [record, hid]
        rw [hrecord]
        simp only [JointTunnel.step] at hstep
        split at hstep
        · cases hstep
        · obtain ⟨relay, hrelay, rfl⟩ := Option.map_eq_some_iff.mp hstep
          have hmoved := hkept.others (x.exchange id) relay hI
            (RelayTunnel.step_untouched x.tunnel.relay relay _ id hrelay hid)
          have huntouched := untouched_deliverBrowser id { x.tunnel with
            relay := relay
            toAgent := x.tunnel.toAgent ++ JointTunnel.relaySends (metadata id') (x.tunnel.webSocket id') id'
              (x.tunnel.relay.handler id') e } id'
            (JointTunnel.relayChunk x.tunnel.relay.conn id' (x.tunnel.relay.handler id') e) hid
          have hnext := hkept.others _ _ hmoved huntouched
          obtain ⟨handler, browser, heq, -⟩ := JointTunnel.deliverBrowser_cases _ id' _
          rw [heq] at hnext ⊢
          exact hnext
  | browserMessage id' m =>
      obtain ⟨hpc, hforward⟩ := JointTunnel.browserMessage_forward env metadata m hstep
      have hid : id' ≠ id := by
        rintro rfl
        rcases hpc with ⟨iter, hpc⟩ | hpc <;> rw [hpc] at hhttp <;> cases hhttp
      simp only [JointTunnel.forwardBrowser] at hforward
      split at hforward
      · obtain ⟨relay, hrelay, rfl⟩ := Option.map_eq_some_iff.mp hforward
        exact hkept.others (x.exchange id) relay hI
          (RelayTunnel.step_untouched x.tunnel.relay relay _ id hrelay hid)
      · cases hforward
        exact hI
  | relayReceive =>
      cases hframes : x.tunnel.toRelay with
      | nil => simp [JointTunnel.step, hframes] at hstep
      | cons f rest =>
          simp only [JointTunnel.step, hframes] at hstep
          obtain ⟨relay, hrelay, rfl⟩ := Option.map_eq_some_iff.mp hstep
          have hcond : ¬ (x.exchange id).Interrupts id (.relay (.receive f)) := by
            rintro ⟨hid, hends, hnot, -⟩
            rcases honly f (by simp [hframes]) hid with htype | htype
            · simp [htype, FrameType.endsStream] at hends
            · exact hnot htype
          have hhead : (x.exchange id).wire.head? = some f := by simp [exchange, hframes]
          have hnext := hkept.moves (x.exchange id) (.relay (.receive f)) _ hI hcond
            ((if_pos hhead).trans (Option.map_eq_some_iff.mpr ⟨relay, hrelay, rfl⟩))
          simpa [record, exchange, hframes] using hnext
  | relayResumePut =>
      obtain ⟨relay, hrelay, rfl⟩ := Option.map_eq_some_iff.mp hstep
      exact hkept.moves (x.exchange id) (.relay .resumePut) _ hI (fun hnot => hnot)
        (Option.map_eq_some_iff.mpr ⟨relay, hrelay, rfl⟩)
  | relayGetTask id' =>
      obtain ⟨relay, hrelay, rfl⟩ := Option.map_eq_some_iff.mp hstep
      exact hkept.moves (x.exchange id) (.relay (.getTask id')) _ hI (fun hnot => hnot)
        (Option.map_eq_some_iff.mpr ⟨relay, hrelay, rfl⟩)
  | relayTearDown =>
      cases hstep
      exact htear rfl hI
  | _ => cases hside

theorem onlyAnswers_step (a : JointAction) (hinv : RequestInv env metadata id x)
    (hagent : AgentInv env id x.tunnel) (hx : x.Http id) (honly : OnlyAnswers id x.tunnel)
    (h : x.step env metadata id a = some y) : OnlyAnswers id y.tunnel := by
  cases hside : movesAgent a with
  | true =>
      obtain ⟨out, -, htypes, heq⟩ := exchange_agentSide a hside hinv hagent hx h
      have hwire : y.tunnel.toRelay = x.tunnel.toRelay ++ out := congrArg ResponseExchange.wire heq
      intro f hf hid
      rw [hwire] at hf
      rcases List.mem_append.mp hf with hf | hf
      · exact honly f hf hid
      · exact htypes f hf hid
  | false =>
      have hsub : ∀ f ∈ y.tunnel.toRelay, f ∈ x.tunnel.toRelay := by
        obtain ⟨tunnel, hstep, rfl⟩ := Option.map_eq_some_iff.mp h
        rw [record_tunnel]
        exact (step_relaySide a hside hstep).2.1
      exact fun f hf => honly f (hsub f hf)

end Http

/-- The relay's end is torn down while it serves the response and has not seen its end. -/
def CutsOff (id : UUID) (x : HttpExchange) : JointAction → Prop
  | .relayTearDown => x.tunnel.relay.conn.closed = false ∧
      (x.tunnel.relay.handler id).serving = true ∧ (x.tunnel.relay.conn.states id).closed = false
  | _ => False

instance decidableCutsOff (id : UUID) (x : HttpExchange) (a : JointAction) :
    Decidable (x.CutsOff id a) :=
  match a with
  | .relayTearDown => inferInstanceAs (Decidable (_ ∧ _))
  | .openStream _ _ _ | .upload _ | .relayHandler _ _ | .browserMessage _ _ | .relayReceive
  | .relayResumePut | .relayGetTask _ | .agentReceive | .agentResumePut | .agentHandler _ _
  | .localMessage _ _ | .agentTearDown => isFalse (fun h => h)

/-- The invariant of a request, with what it says of its exchange. -/
structure HttpInv (env : AgentEnv) (metadata : UUID → Bytes) (id : UUID)
    (I : ResponseExchange → Prop) (x : HttpExchange) : Prop where
  request : RequestInv env metadata id x
  agent : AgentInv env id x.tunnel
  answers : x.Http id → OnlyAnswers id x.tunnel
  exchange : x.Http id → I (x.exchange id)

theorem httpInv_init (env : AgentEnv) (metadata : UUID → Bytes) (id : UUID)
    (I : ResponseExchange → Prop) (hI : I .init) : HttpInv env metadata id I init where
  request := requestInv_init env metadata id
  agent := ⟨AgentTunnel.answerInv_init env id, AgentTunnel.sentInv_init env id⟩
  answers := fun _ => nofun
  exchange := fun _ => hI

theorem httpInv_step (env : AgentEnv) (metadata : UUID → Bytes) (id : UUID)
    (I : ResponseExchange → Prop) (hkept : ResponseExchange.Kept id I) (x : HttpExchange)
    (a : JointAction) (y : HttpExchange) (hinv : HttpInv env metadata id I x)
    (htear : a = .relayTearDown → I (x.exchange id) → I { x.exchange id with
      relay := { x.tunnel.relay with conn := x.tunnel.relay.conn.tearDown } })
    (h : x.step env metadata id a = some y) : HttpInv env metadata id I y where
  request := requestInv_step env metadata id x a y hinv.request h
  agent := by
    obtain ⟨tunnel, hstep, rfl⟩ := Option.map_eq_some_iff.mp h
    rw [record_tunnel]
    exact agentInv_step env metadata id x.tunnel tunnel a hinv.agent hstep
  answers := by
    intro hy
    have hx := http_before a hinv.request h hy
    exact onlyAnswers_step a hinv.request hinv.agent hx (hinv.answers hx) h
  exchange := by
    intro hy
    have hx := http_before a hinv.request h hy
    cases hside : movesAgent a with
    | true =>
        obtain ⟨out, hmay, -, heq⟩ := exchange_agentSide a hside hinv.request hinv.agent hx h
        rw [heq]
        exact hkept.sends out (x.exchange id) (hinv.exchange hx) hmay
    | false =>
        exact exchange_relaySide I hkept a hside hinv.request hx (hinv.answers hx) htear h
          (hinv.exchange hx)

section Runs

variable {env : AgentEnv} {metadata : UUID → Bytes} {id : UUID} {acts : List JointAction}
  {x : HttpExchange}

theorem prefixInv_of_httpInv (hrun : TransitionSystem.run (step env metadata id) init acts = some x) :
    HttpInv env metadata id (ResponseExchange.PrefixInv id) x := by
  refine TransitionSystem.run_invariant (step env metadata id) _ ?_
    (httpInv_init env metadata id _ (ResponseExchange.prefixInv_init id)) hrun
  intro x a y hinv h
  refine httpInv_step env metadata id _ (ResponseExchange.kept_prefixInv id) x a y hinv ?_ h
  intro _ hprefix
  exact ResponseExchange.prefixInv_tearDown hprefix

theorem httpInv_exchange
    (hguard : TransitionSystem.Guarded (step env metadata id) (fun x a => ¬ x.CutsOff id a) init acts)
    (hrun : TransitionSystem.run (step env metadata id) init acts = some x) :
    HttpInv env metadata id (ResponseExchange.ExchangeInv id) x := by
  refine TransitionSystem.run_invariant_of_guarded (step env metadata id) _ _ ?_
    (httpInv_init env metadata id _ (ResponseExchange.exchangeInv_init id)) hguard hrun
  intro x a y hinv hcond h
  refine httpInv_step env metadata id _ (ResponseExchange.kept_exchangeInv id) x a y hinv ?_ h
  rintro rfl hexchange
  exact ResponseExchange.exchangeInv_tearDown hexchange hcond

theorem HttpInv.sent_prefix {I : ResponseExchange → Prop} (hinv : HttpInv env metadata id I x)
    {chunks : List Bytes} (hrequest : x.request = some chunks) :
    dataPayloads id x.tunnel.agent.sent <+: env.reply (metadata id) id := by
  have hphase := (hinv.request.opened chunks hrequest).phase
  have hhttp := hphase.agent_http
  have hnone : x.tunnel.agent.handler id = .absent →
      dataPayloads id x.tunnel.agent.sent <+: env.reply (metadata id) id := by
    intro habsent
    have hsent := hinv.agent.payloads
    unfold AgentTunnel.SentInv at hsent
    rw [habsent] at hsent
    rw [AgentTunnel.dataPayloads_of_nil hsent]
    exact List.nil_prefix
  cases hphase with
  | unopened _ _ _ habsent => exact hnone habsent
  | announced _ _ _ _ _ habsent => exact hnone habsent
  | lost _ _ habsent => exact hnone habsent
  | arrived _ _ _ hvalid =>
      unfold AgentEnv.reply
      by_cases hpc : x.tunnel.agent.handler id = .rejected
      · rw [if_neg (by simp [hvalid.mp hpc])]
        rcases hinv.agent.payloads.rejected hpc with hsent | ⟨hsent, -⟩
        · rw [hsent]
        · rw [hsent]
          exact List.nil_prefix
      · have haccepted : env.validOpen (metadata id) = true := by
          by_contra hnot
          exact hpc (hvalid.mpr (by simpa using hnot))
        rw [if_pos haccepted]
        exact hinv.agent.payloads.prefix_answer hhttp hpc

theorem HttpInv.sent_whole {I : ResponseExchange → Prop} (hinv : HttpInv env metadata id I x)
    {chunks : List Bytes} (hrequest : x.request = some chunks)
    (hclosed : x.tunnel.agent.sent.any (ResponseExchange.isClose id) = true) :
    dataPayloads id x.tunnel.agent.sent = env.reply (metadata id) id ∧
      (env.validOpen (metadata id) = true → (env.app id).Answers env.decoder) := by
  have hphase := (hinv.request.opened chunks hrequest).phase
  have hhttp := hphase.agent_http
  have hvalid : x.tunnel.agent.handler id ≠ .absent →
      (x.tunnel.agent.handler id = .rejected ↔ env.validOpen (metadata id) = false) := by
    intro hopened
    cases hphase with
    | unopened _ _ _ habsent => exact absurd habsent hopened
    | announced _ _ _ _ _ habsent => exact absurd habsent hopened
    | lost _ _ habsent => exact absurd habsent hopened
    | arrived _ _ _ hvalid => exact hvalid
  unfold AgentEnv.reply
  by_cases hpc : x.tunnel.agent.handler id = .rejected
  · have hinvalid := (hvalid (by simp [hpc])).mp hpc
    rw [if_neg (by simp [hinvalid])]
    refine ⟨?_, by simp [hinvalid]⟩
    rcases hinv.agent.payloads.rejected hpc with hsent | ⟨-, hopen⟩
    · exact hsent
    · have hnot : x.tunnel.agent.sent.any (ResponseExchange.isClose id) = false := hopen
      rw [hclosed] at hnot
      cases hnot
  · -- Only the last statement of the task sends a CLOSE.
    have hreturned : x.tunnel.agent.handler id = .ended .returned := by
      by_contra hnot
      have hopen : x.tunnel.agent.sent.any (ResponseExchange.isClose id) = false := by
        by_cases hended : ∃ how, x.tunnel.agent.handler id = .ended how
        · obtain ⟨how, hended⟩ := hended
          have hdata : OnlyData id x.tunnel.agent.sent := by
            have hanswer := hinv.agent.answer
            unfold AgentTunnel.AnswerInv at hanswer
            rw [hended] at hanswer
            cases how with
            | returned => exact absurd hended hnot
            | raised => exact hanswer.1
            | transport | cancelled => exact hanswer
          exact hdata.not_closed
        · exact hinv.agent.answer.not_closed hhttp hpc (fun how heq => hended ⟨how, heq⟩)
      rw [hclosed] at hopen
      cases hopen
    have haccepted : env.validOpen (metadata id) = true := by
      by_contra hnot
      exact hpc ((hvalid (by simp [hreturned])).mpr (by simpa using hnot))
    rw [if_pos haccepted]
    have hsent := hinv.agent.payloads
    have hanswer := hinv.agent.answer
    unfold AgentTunnel.SentInv at hsent
    unfold AgentTunnel.AnswerInv at hanswer
    rw [hreturned] at hsent hanswer
    exact ⟨hsent, fun _ => hanswer.2⟩

/-- In every interleaving of all the streams of a tunnel, with errors, cancellation and teardown at
any point, the content that a task hands to the local application is the body that the browser sent
for this request. -/
theorem requestContent_eq_body (env : AgentEnv) (metadata : UUID → Bytes) (id : UUID)
    (acts : List JointAction) (x : HttpExchange) (chunks : List Bytes) (content : Bytes)
    (hrun : TransitionSystem.run (step env metadata id) init acts = some x)
    (hrequest : x.request = some chunks)
    (hcontent : x.tunnel.agent.handler id = .requesting content) : content = chunks.flatten := by
  have hphase := ((prefixInv_of_httpInv hrun).request.opened chunks hrequest).phase
  cases hphase with
  | unopened _ _ _ habsent => simp [hcontent] at habsent
  | announced _ _ _ _ _ habsent => simp [hcontent] at habsent
  | lost _ _ habsent => simp [hcontent] at habsent
  | arrived _ _ hbody _ =>
      rw [hcontent] at hbody
      exact hbody

/-- A body of two chunks, up to the local application. -/
def shortUpload : List JointAction :=
  [.openStream 1 false [[1, 2], [3]], .upload 1, .agentReceive, .upload 1, .upload 1, .agentReceive,
    .agentHandler 1 .start, .agentHandler 1 .bodyGet, .upload 1, .upload 1, .upload 1, .upload 1,
    .upload 1, .agentReceive, .agentReceive, .agentHandler 1 .bodyGet, .agentHandler 1 .bodyGet]

theorem requestContent_eq_body_short :
    ∃ x content, TransitionSystem.run
        (step (AgentTunnel.plainEnv AgentTunnel.hello) (fun _ => []) 1) init shortUpload = some x ∧
      x.tunnel.agent.handler 1 = .requesting content ∧ content = [[1, 2], [3]].flatten := by
  have heval : (TransitionSystem.run (step (AgentTunnel.plainEnv AgentTunnel.hello) (fun _ => []) 1)
      init shortUpload).any (fun x => decide (x.request = some [[1, 2], [3]] ∧
        x.tunnel.agent.handler 1 = .requesting [1, 2, 3])) = true := by
    decide +kernel
  obtain ⟨x, hrun, hx⟩ := (Option.any_eq_true _ _).mp heval
  obtain ⟨hrequest, hcontent⟩ := of_decide_eq_true hx
  exact ⟨x, [1, 2, 3], hrun, hcontent, requestContent_eq_body _ _ 1 _ x _ _ hrun hrequest hcontent⟩

/-- And what the browser has been given is always a prefix of the agent's reply to this request. -/
theorem delivered_prefix_reply (env : AgentEnv) (metadata : UUID → Bytes) (id : UUID)
    (acts : List JointAction) (x : HttpExchange) (chunks : List Bytes)
    (hrun : TransitionSystem.run (step env metadata id) init acts = some x)
    (hrequest : x.request = some chunks) : x.delivered <+: env.reply (metadata id) id := by
  have hinv := prefixInv_of_httpInv hrun
  have hdelivered := (hinv.exchange (.inl (by simp [hrequest]))).delivered
  exact hdelivered.trans (hinv.sent_prefix hrequest)

/-- The same request and its answer. The tunnel goes down after the CLOSE, while the generator still
drains. -/
def shortExchange : List JointAction :=
  shortUpload ++
    [.relayHandler 1 .sent, .agentHandler 1 .respond, .agentHandler 1 .sent, .relayReceive,
      .relayHandler 1 (.firstByte .other), .relayHandler 1 .startBody, .agentHandler 1 .sent,
      .agentHandler 1 .sent, .relayReceive, .relayReceive, .relayTearDown,
      .relayHandler 1 (.iter .closedTask), .relayHandler 1 (.iter .resume), .relayHandler 1 .connected,
      .relayHandler 1 (.iter .next)]

theorem delivered_prefix_reply_short :
    ∃ x, TransitionSystem.run (step (AgentTunnel.plainEnv AgentTunnel.hello) (fun _ => []) 1) init
        shortExchange = some x ∧
      x.delivered <+: (AgentTunnel.plainEnv AgentTunnel.hello).reply [] 1 := by
  have heval : (TransitionSystem.run (step (AgentTunnel.plainEnv AgentTunnel.hello) (fun _ => []) 1)
      init shortExchange).any (fun x => decide (x.request = some [[1, 2], [3]])) = true := by
    decide +kernel
  obtain ⟨x, hrun, hx⟩ := (Option.any_eq_true _ _).mp heval
  exact ⟨x, hrun, delivered_prefix_reply _ (fun _ => []) 1 _ x _ hrun (of_decide_eq_true hx)⟩

/-- Unless the relay's end is torn down while it serves the response, a body that finishes is byte
for byte the body that the application has answered with. -/
theorem finishedResponse_eq_answer (env : AgentEnv) (metadata : UUID → Bytes) (id : UUID)
    (acts : List JointAction) (x : HttpExchange) (chunks : List Bytes)
    (hguard : TransitionSystem.Guarded (step env metadata id) (fun x a => ¬ x.CutsOff id a) init acts)
    (hrun : TransitionSystem.run (step env metadata id) init acts = some x)
    (hrequest : x.request = some chunks) (hfinished : x.bodyFinished = true) :
    (env.validOpen (metadata id) = true → ∃ status headers raw body,
      (env.app id).response = some (status, headers, raw) ∧
      x.delivered = metaPayload status headers :: body ∧
      env.decoder headers raw = (body.flatten, false)) ∧
    (env.validOpen (metadata id) = false → x.delivered = [metaPayload 400 []]) := by
  have hinv := httpInv_exchange hguard hrun
  have hexchange := hinv.exchange (.inl (by simp [hrequest]))
  obtain ⟨-, hreceived, hdelivered⟩ := hexchange.finished hfinished
  obtain ⟨hwhole, hanswers⟩ := hinv.sent_whole hrequest (hexchange.closeSent (.inl hreceived))
  have hreply : x.delivered = env.reply (metadata id) id := hdelivered.trans hwhole
  refine ⟨?_, ?_⟩
  · intro hvalid
    obtain ⟨status, headers, raw, hresponse, hsize, hfails⟩ := hanswers hvalid
    refine ⟨status, headers, raw, slices (env.decoder headers raw).1, hresponse, ?_, ?_⟩
    · rw [hreply, AgentEnv.reply, if_pos hvalid, AgentEnv.answer, hresponse]
      simp [Nat.not_lt.mpr hsize, aiterBytes, hfails]
    · rw [slices_flatten, ← hfails]
  · intro hinvalid
    rw [hreply, AgentEnv.reply, if_neg (by simp [hinvalid])]

theorem finishedResponse_eq_answer_short :
    ∃ x status headers raw body,
      TransitionSystem.run (step (AgentTunnel.plainEnv AgentTunnel.hello) (fun _ => []) 1) init
        shortExchange = some x ∧
      AgentTunnel.hello.response = some (status, headers, raw) ∧
      x.delivered = metaPayload status headers :: body ∧ (raw, false) = (body.flatten, false) := by
  have hguard : TransitionSystem.Guarded
      (step (AgentTunnel.plainEnv AgentTunnel.hello) (fun _ => []) 1)
      (fun x a => ¬ x.CutsOff 1 a) init shortExchange := by
    decide +kernel
  have heval : (TransitionSystem.run (step (AgentTunnel.plainEnv AgentTunnel.hello) (fun _ => []) 1)
      init shortExchange).any (fun x => decide (x.request = some [[1, 2], [3]] ∧
        x.bodyFinished = true)) = true := by
    decide +kernel
  obtain ⟨x, hrun, hx⟩ := (Option.any_eq_true _ _).mp heval
  obtain ⟨hrequest, hfinished⟩ := of_decide_eq_true hx
  obtain ⟨status, headers, raw, body, hresponse, hdelivered, hbody⟩ :=
    (finishedResponse_eq_answer _ _ 1 _ x _ hguard hrun hrequest hfinished).1 rfl
  exact ⟨x, status, headers, raw, body, hrun, hresponse, hdelivered, hbody⟩

end Runs

end HttpExchange

end NetworkFileServer.Tunnel
