import NetworkFileServer.Relay.ResponsePrefix
import NetworkFileServer.Tunnel.HttpRequest

/-!
# A request over HTTP, from end to end

The two ends of a tunnel with any number of streams, and one request among them. What the browser has
sent for it and what it was given is recorded beside the tunnel. Between the browser and the local
application the tunnel is transparent: the application gets the body of the browser, and the browser
gets the answer of the application, or a prefix of it.
-/

namespace NetworkFileServer.Tunnel

open Relay Agent TunnelConnection

structure HttpExchange where
  tunnel : JointTunnel
  /-- The chunks of the body that the browser sends. -/
  request : Option (List Bytes)
  /-- The relay has received the CLOSE of the agent. -/
  closeReceived : Bool
  /-- What a generator holds while it asks `is_disconnected`. -/
  chunk : List Bytes
  /-- The payloads that were passed on to the browser; the first one is the status and the headers. -/
  delivered : List Bytes
  /-- The body iterator of the response has finished. -/
  bodyFinished : Bool

namespace HttpExchange

def init : HttpExchange := ⟨.init, none, false, [], [], false⟩

/-- The record of the request `id` after a step of the tunnel. -/
def record (id : UUID) (x : HttpExchange) (tunnel : JointTunnel) : JointAction → HttpExchange
  | .openStream id' false chunks =>
      { x with tunnel := tunnel, request := if id' = id then some chunks else x.request }
  | .relayHandler id' e =>
      if id' = id then
        let conn := x.tunnel.relay.conn
        let pc := x.tunnel.relay.handler id
        { x with
          tunnel := tunnel
          delivered := x.delivered ++ passedOn conn id x.chunk pc e
          chunk := chunkInHand conn id pc e
          bodyFinished := x.bodyFinished || finishesBody conn id pc e }
      else { x with tunnel := tunnel }
  | .relayReceive =>
      { x with
        tunnel := tunnel
        closeReceived := x.closeReceived ||
          x.tunnel.toRelay.head?.any (ResponseExchange.isClose id) }
  | _ => { x with tunnel := tunnel }

def step (env : AgentEnv) (metadata : UUID → Bytes) (id : UUID) (x : HttpExchange)
    (a : JointAction) : Option HttpExchange :=
  (x.tunnel.step env metadata a).map fun tunnel => x.record id tunnel a

theorem record_tunnel (id : UUID) (x : HttpExchange) (tunnel : JointTunnel) (a : JointAction) :
    (x.record id tunnel a).tunnel = tunnel := by
  cases a with
  | openStream id' isWebSocket chunks => cases isWebSocket <;> rfl
  | relayHandler id' e =>
      simp only [record]
      split <;> rfl
  | _ => rfl

theorem record_request (id : UUID) (x : HttpExchange) (tunnel : JointTunnel) (a : JointAction)
    (ha : ∀ chunks, a ≠ .openStream id false chunks) :
    (x.record id tunnel a).request = x.request := by
  cases a with
  | openStream id' isWebSocket chunks =>
      cases isWebSocket with
      | false =>
          have hne : id' ≠ id := by
            rintro rfl
            exact ha chunks rfl
          simp [record, hne]
      | true => rfl
  | relayHandler id' e =>
      simp only [record]
      split <;> rfl
  | _ => rfl

section Steps

variable {env : AgentEnv} {metadata : UUID → Bytes} {id : UUID} {s t : JointTunnel}

theorem loopEnded_agent (env : AgentEnv) (s t : AgentTunnel) (a : AgentAction)
    (h : s.step env a = some t) (hended : s.conn.receiveLoop = .ended) :
    t.conn.receiveLoop = .ended := by
  cases a with
  | receive f => simp [AgentTunnel.step, hended] at h
  | resumePut =>
      obtain ⟨conn, hput, -⟩ := Option.map_eq_some_iff.mp h
      simp [TunnelConnection.resumePut, hended] at hput
  | handler id e =>
      obtain ⟨⟨conn, pc, out⟩, hstep, rfl⟩ := Option.map_eq_some_iff.mp h
      obtain ⟨htouches, -⟩ := AgentTunnel.agentStep_frame env s.conn conn id _ pc e out hstep
      exact htouches.receiveLoop.trans hended
  | tearDown =>
      cases h
      exact (tearDown_frame s.conn).1.trans hended

/-- A step of the agent's end, with the frames that it hands to the channel. A bridge task of a
WebSocket may fail on the message that it gets. -/
structure AgentMoves (env : AgentEnv) (s t : JointTunnel) (agent : AgentTunnel) (b : AgentAction) :
    Prop where
  moves : s.agent.step env b = some agent
  receives : ∀ f, b = .receive f → f ∈ s.toAgent
  relay : t.relay = s.relay
  upload : t.upload = s.upload
  webSocket : t.webSocket = s.webSocket
  toRelay : t.toRelay = s.toRelay ++ agent.sent.drop s.agent.sent.length
  lands : t.agent = agent ∨ ∃ id', t.agent =
    { agent.setHandler id' .wsClosing with conn := agent.conn.removeStream id' }

/-- Whether an action belongs to the agent's end. -/
def movesAgent : JointAction → Bool
  | .agentReceive | .agentResumePut | .agentHandler _ _ | .localMessage _ _ | .agentTearDown => true
  | _ => false

theorem step_agentSide (a : JointAction) (ha : movesAgent a = true)
    (h : s.step env metadata a = some t) : ∃ agent b, AgentMoves env s t agent b := by
  cases a with
  | agentReceive =>
      simp only [JointTunnel.step] at h
      split at h
      · rename_i f rest hframes
        obtain ⟨agent, hagent, rfl⟩ := Option.map_eq_some_iff.mp h
        refine ⟨agent, .receive f, hagent, ?_, rfl, rfl, rfl, rfl, .inl rfl⟩
        intro g hg
        cases hg
        simp [hframes]
      · cases h
  | agentResumePut =>
      obtain ⟨agent, hagent, rfl⟩ := Option.map_eq_some_iff.mp h
      exact ⟨agent, .resumePut, hagent, by simp, rfl, rfl, rfl, rfl, .inl rfl⟩
  | agentHandler id' e =>
      simp only [JointTunnel.step] at h
      split at h
      · cases h
      · obtain ⟨agent, hagent, rfl⟩ := Option.map_eq_some_iff.mp h
        obtain ⟨agent', localApp, heq, hcases⟩ := JointTunnel.deliverLocal_cases (s.moveAgent agent) id'
          (JointTunnel.agentChunk s.agent.conn id' (s.agent.handler id') e)
        rw [heq]
        refine ⟨agent, .handler id' e, hagent, by simp, rfl, rfl, rfl, rfl, ?_⟩
        rcases hcases with rfl | rfl
        · exact .inl rfl
        · exact .inr ⟨id', rfl⟩
  | localMessage id' m =>
      obtain ⟨agent, hagent, rfl⟩ := Option.map_eq_some_iff.mp h
      exact ⟨agent, .handler id' _, hagent, by simp, rfl, rfl, rfl, rfl, .inl rfl⟩
  | agentTearDown =>
      cases h
      exact ⟨_, .tearDown, rfl, by simp, rfl, rfl, rfl, rfl, .inl rfl⟩
  | _ => cases ha

theorem step_relaySide (a : JointAction) (ha : movesAgent a = false)
    (h : s.step env metadata a = some t) : t.agent = s.agent ∧
      (∀ f ∈ t.toRelay, f ∈ s.toRelay) ∧
      ∀ id, (∀ ws chunks, a ≠ .openStream id ws chunks) → a ≠ .upload id → t.upload id = s.upload id := by
  cases a with
  | openStream id' isWebSocket chunks =>
      obtain ⟨relay, -, rfl⟩ := Option.map_eq_some_iff.mp h
      refine ⟨rfl, fun _ hf => hf, ?_⟩
      intro id hopen _
      have hne : id ≠ id' := by
        rintro rfl
        exact hopen _ _ rfl
      simp [hne]
  | upload id' =>
      simp only [JointTunnel.step] at h
      split at h
      · obtain ⟨⟨pc, out⟩, -, rfl⟩ := Option.map_eq_some_iff.mp h
        refine ⟨rfl, fun _ hf => hf, ?_⟩
        intro id _ hup
        have hne : id ≠ id' := by
          rintro rfl
          exact hup rfl
        simp [hne]
      · cases h
  | relayHandler id' e =>
      obtain ⟨conn, pc, pc', getTask, browser, -, -, rfl⟩ :=
        JointTunnel.step_relayHandler_cases env metadata s t id' e h
      exact ⟨rfl, fun _ hf => hf, fun _ _ _ => rfl⟩
  | browserMessage id' m =>
      obtain ⟨-, hforward⟩ := JointTunnel.browserMessage_forward env metadata m h
      simp only [JointTunnel.forwardBrowser] at hforward
      split at hforward
      · obtain ⟨relay, -, rfl⟩ := Option.map_eq_some_iff.mp hforward
        exact ⟨rfl, fun _ hf => hf, fun _ _ _ => rfl⟩
      · cases hforward
        exact ⟨rfl, fun _ hf => hf, fun _ _ _ => rfl⟩
  | relayReceive =>
      simp only [JointTunnel.step] at h
      split at h
      · rename_i hframes
        obtain ⟨relay, -, rfl⟩ := Option.map_eq_some_iff.mp h
        refine ⟨rfl, ?_, fun _ _ _ => rfl⟩
        intro f hf
        rw [hframes]
        exact List.mem_cons_of_mem _ hf
      · cases h
  | relayResumePut | relayGetTask =>
      obtain ⟨relay, -, rfl⟩ := Option.map_eq_some_iff.mp h
      exact ⟨rfl, fun _ hf => hf, fun _ _ _ => rfl⟩
  | relayTearDown =>
      cases h
      exact ⟨rfl, fun _ hf => hf, fun _ _ _ => rfl⟩
  | _ => cases ha

theorem loopEnded_step (a : JointAction) (h : s.step env metadata a = some t)
    (hended : s.agent.conn.receiveLoop = .ended) : t.agent.conn.receiveLoop = .ended := by
  cases hside : movesAgent a with
  | true =>
      obtain ⟨agent, b, hmoves⟩ := step_agentSide a hside h
      have hagent := loopEnded_agent env s.agent agent b hmoves.moves hended
      rcases hmoves.lands with heq | ⟨id', heq⟩
      · rw [heq]
        exact hagent
      · rw [heq]
        exact hagent
  | false =>
      rw [(step_relaySide a hside h).1]
      exact hended

theorem step_upload_of_not_concerns (a : JointAction) (h : s.step env metadata a = some t)
    (ha : ¬ JointTunnel.Concerns id s a) : t.upload id = s.upload id := by
  cases hside : movesAgent a with
  | true =>
      obtain ⟨agent, b, hmoves⟩ := step_agentSide a hside h
      rw [hmoves.upload]
  | false =>
      refine (step_relaySide a hside h).2.2 id ?_ ?_
      · rintro ws chunks rfl
        exact ha rfl
      · rintro rfl
        exact ha rfl

/-- What the tunnel knows of a request over HTTP that was opened. -/
structure Opened (env : AgentEnv) (metadata : UUID → Bytes) (id : UUID) (chunks : List Bytes)
    (s : JointTunnel) : Prop where
  opened : s.relay.handler id ≠ .absent
  socket : s.webSocket id = false
  http : (s.relay.handler id).isWebSocket = false
  phase : JointTunnel.RequestPhase (env.validOpen (metadata id)) (metadata id) id chunks s

theorem opened_openStream (isWebSocket : Bool) (chunks : List Bytes)
    (hframes : framesOf id s.toAgent = []) (hagent : s.agent.handler id = .absent)
    (h : s.step env metadata (.openStream id isWebSocket chunks) = some t) :
    s.relay.handler id = .absent ∧ t.relay.handler id ≠ .absent ∧
      (isWebSocket = false → Opened env metadata id chunks t) := by
  obtain ⟨relay, hrelay, rfl⟩ := Option.map_eq_some_iff.mp h
  simp only [RelayTunnel.step] at hrelay
  split at hrelay
  · rename_i habsent
    refine ⟨habsent, ?_⟩
    split at hrelay
    · cases hrelay
      refine ⟨by cases isWebSocket <;> simp, ?_⟩
      rintro rfl
      exact ⟨by simp, by simp, by simp [ProxyPc.isWebSocket],
        .unopened (.inl (by simp)) (by simp) hframes hagent⟩
    · cases hrelay
      refine ⟨by simp, ?_⟩
      rintro rfl
      exact ⟨by simp, by simp, by simp [ProxyPc.isWebSocket],
        .unopened (.inr (by simp)) (by simp) hframes hagent⟩
  · cases hrelay

theorem opened_of_relay {chunks : List Bytes} (hopened : Opened env metadata id chunks s)
    (hhandler : t.relay.handler id = s.relay.handler id) (hsocket : t.webSocket id = s.webSocket id)
    (hphase : JointTunnel.RequestPhase (env.validOpen (metadata id)) (metadata id) id chunks t) :
    Opened env metadata id chunks t :=
  ⟨hhandler ▸ hopened.opened, hsocket ▸ hopened.socket, hhandler ▸ hopened.http, hphase⟩

theorem opened_agentSide (a : JointAction) {chunks : List Bytes} (ha : movesAgent a = true)
    (hconcerns : JointTunnel.Concerns id s a) (hopened : Opened env metadata id chunks s)
    (h : s.step env metadata a = some t) : Opened env metadata id chunks t := by
  obtain ⟨agent, b, hmoves⟩ := step_agentSide a ha h
  refine opened_of_relay hopened (by rw [hmoves.relay]) (by rw [hmoves.webSocket]) ?_
  cases a with
  | agentReceive =>
      cases hframes : s.toAgent with
      | nil => simp [JointTunnel.step, hframes] at h
      | cons f rest =>
          have hid : f.requestId = id := hconcerns f (by simp [hframes])
          exact JointTunnel.requestPhase_agentReceive env metadata f rest hopened.phase hframes hid h
  | agentHandler id' e =>
      cases hconcerns
      exact JointTunnel.requestPhase_agentHandler env metadata e hopened.phase h
  | localMessage id' m =>
      cases hconcerns
      -- The task of a request forwards no message of a WebSocket.
      obtain ⟨agent, hagent, -⟩ := Option.map_eq_some_iff.mp h
      obtain ⟨⟨conn, pc, out⟩, hstep, -⟩ := Option.map_eq_some_iff.mp hagent
      have hhttp := hopened.phase.agent_http
      cases hpc : s.agent.handler id <;> rw [hpc] at hstep hhttp <;> first | cases hstep | cases hhttp
  | agentTearDown => exact JointTunnel.requestPhase_agentTearDown env metadata hopened.phase h
  | agentResumePut => exact hconcerns.elim
  | _ => cases ha

theorem opened_relaySide (a : JointAction) {chunks : List Bytes} (ha : movesAgent a = false)
    (hopen : ∀ ws cs, a ≠ .openStream id ws cs) (hconcerns : JointTunnel.Concerns id s a)
    (hopened : Opened env metadata id chunks s) (h : s.step env metadata a = some t) :
    Opened env metadata id chunks t := by
  cases a with
  | openStream id' ws cs =>
      cases hconcerns
      exact absurd rfl (hopen ws cs)
  | upload id' =>
      cases hconcerns
      have hnext := JointTunnel.requestPhase_upload env metadata hopened.phase h
      simp only [JointTunnel.step] at h
      split at h
      · obtain ⟨⟨pc, out⟩, -, rfl⟩ := Option.map_eq_some_iff.mp h
        exact opened_of_relay hopened rfl rfl hnext
      · cases h
  | relayHandler id' e =>
      cases hconcerns
      have hnext :=
        JointTunnel.requestPhase_relayHandler env metadata e hopened.phase hopened.socket hopened.http h
      obtain ⟨-, relay, hrelay, rfl⟩ := JointTunnel.step_relayHandler_http env metadata e hopened.http h
      obtain ⟨⟨conn, pc⟩, hstep, rfl⟩ := Option.map_eq_some_iff.mp hrelay
      refine ⟨?_, hopened.socket, ?_, hnext⟩
      · simpa using proxyStep_opened s.relay.conn conn _ _ pc e hstep
      · simpa using proxyStep_http s.relay.conn conn _ _ pc e hstep hopened.http
  | browserMessage id' m =>
      cases hconcerns
      obtain ⟨hpc, -⟩ := JointTunnel.browserMessage_forward env metadata m h
      have hhttp := hopened.http
      rcases hpc with ⟨iter, hpc⟩ | hpc <;> rw [hpc] at hhttp <;> cases hhttp
  | relayReceive =>
      simp only [JointTunnel.step] at h
      split at h
      · obtain ⟨relay, hrelay, rfl⟩ := Option.map_eq_some_iff.mp h
        simp only [RelayTunnel.step] at hrelay
        split at hrelay
        · cases hrelay
          exact opened_of_relay hopened rfl rfl (hopened.phase.of_relay_conn rfl rfl rfl rfl)
        · cases hrelay
      · cases h
  | relayGetTask id' =>
      obtain ⟨relay, hrelay, rfl⟩ := Option.map_eq_some_iff.mp h
      simp only [RelayTunnel.step] at hrelay
      split at hrelay
      · obtain ⟨taken, -, rfl⟩ := Option.map_eq_some_iff.mp hrelay
        exact opened_of_relay hopened rfl rfl (hopened.phase.of_relay_conn rfl rfl rfl rfl)
      · cases hrelay
  | relayTearDown =>
      cases h
      exact opened_of_relay hopened rfl rfl (hopened.phase.of_relay_conn rfl rfl rfl rfl)
  | relayResumePut => exact hconcerns.elim
  | _ => cases ha

theorem opened_step (a : JointAction) {chunks : List Bytes}
    (hopen : ∀ ws cs, a ≠ .openStream id ws cs) (hopened : Opened env metadata id chunks s)
    (h : s.step env metadata a = some t) : Opened env metadata id chunks t := by
  by_cases hconcerns : JointTunnel.Concerns id s a
  · cases hside : movesAgent a with
    | true => exact opened_agentSide a hside hconcerns hopened h
    | false => exact opened_relaySide a hside hopen hconcerns hopened h
  · obtain ⟨hlane, hsocket⟩ := JointTunnel.step_lane env metadata a h hconcerns
    have hhandler : t.relay.handler id = s.relay.handler id := congrArg BridgeLane.relay hlane
    refine opened_of_relay hopened hhandler hsocket ?_
    exact hopened.phase.congr hlane (step_upload_of_not_concerns a h hconcerns) (loopEnded_step a h)

/-- An agent that neither has a task of the stream nor a frame of it on the way gets neither by itself. -/
theorem untraced_agentSide (a : JointAction) (ha : movesAgent a = true)
    (hconcerns : JointTunnel.Concerns id s a) (hframes : framesOf id s.toAgent = [])
    (hagent : s.agent.handler id = .absent) (h : s.step env metadata a = some t) :
    framesOf id t.toAgent = [] ∧ t.agent.handler id = .absent := by
  have hnone : ∀ e, agentStep env s.agent.conn id (s.agent.handler id) e = none := by
    intro e
    rw [hagent]
    cases e <;> rfl
  cases a with
  | agentReceive =>
      cases hto : s.toAgent with
      | nil => simp [JointTunnel.step, hto] at h
      | cons f rest =>
          have hid : f.requestId = id := hconcerns f (by simp [hto])
          subst hid
          rw [hto, framesOf_cons_self] at hframes
          cases hframes
  | agentHandler id' e =>
      cases hconcerns
      simp only [JointTunnel.step] at h
      split at h
      · cases h
      · simp [AgentTunnel.step, hnone] at h
  | localMessage id' m =>
      cases hconcerns
      simp [JointTunnel.step, AgentTunnel.step, hnone] at h
  | agentTearDown =>
      cases h
      exact ⟨hframes, hagent⟩
  | agentResumePut => exact hconcerns.elim
  | _ => cases ha

theorem ne_absent_of_relayHandler (e : ProxyEvent) (h : s.step env metadata (.relayHandler id e) = some t) :
    t.relay.handler id ≠ .absent := by
  obtain ⟨conn, pc, pc', getTask, browser, hstep, hpc', rfl⟩ :=
    JointTunnel.step_relayHandler_cases env metadata s t id e h
  have hopened := proxyStep_opened s.relay.conn conn id _ pc e hstep
  rcases hpc' with rfl | rfl
  · simpa using hopened
  · simp

theorem ne_absent_of_browserMessage (m : WsMessage)
    (h : s.step env metadata (.browserMessage id m) = some t) : t.relay.handler id ≠ .absent := by
  obtain ⟨hpc, hforward⟩ := JointTunnel.browserMessage_forward env metadata m h
  simp only [JointTunnel.forwardBrowser] at hforward
  split at hforward
  · obtain ⟨relay, hrelay, rfl⟩ := Option.map_eq_some_iff.mp hforward
    obtain ⟨⟨conn, pc⟩, hstep, rfl⟩ := Option.map_eq_some_iff.mp hrelay
    simpa using proxyStep_opened s.relay.conn conn id _ pc _ hstep
  · cases hforward
    rcases hpc with ⟨iter, hpc⟩ | hpc <;> simp [hpc]

/-- Of the relay's end only `open_stream` makes a request out of nothing, and no other step of it
sends a frame of a stream that has no handler. -/
theorem absent_relaySide (a : JointAction) (ha : movesAgent a = false)
    (hopen : ∀ ws cs, a ≠ .openStream id ws cs) (hconcerns : JointTunnel.Concerns id s a)
    (h : s.step env metadata a = some t) (habsent : t.relay.handler id = .absent) :
    s.relay.handler id = .absent ∧ framesOf id t.toAgent = framesOf id s.toAgent := by
  cases a with
  | openStream id' ws cs =>
      cases hconcerns
      exact absurd rfl (hopen ws cs)
  | upload id' =>
      cases hconcerns
      simp only [JointTunnel.step] at h
      split at h
      · rename_i hsending
        obtain ⟨⟨pc, out⟩, -, rfl⟩ := Option.map_eq_some_iff.mp h
        rw [hsending] at habsent
        cases habsent
      · cases h
  | relayHandler id' e =>
      cases hconcerns
      exact absurd habsent (ne_absent_of_relayHandler e h)
  | browserMessage id' m =>
      cases hconcerns
      exact absurd habsent (ne_absent_of_browserMessage m h)
  | relayReceive =>
      simp only [JointTunnel.step] at h
      split at h
      · obtain ⟨relay, hrelay, rfl⟩ := Option.map_eq_some_iff.mp h
        simp only [RelayTunnel.step] at hrelay
        split at hrelay
        · cases hrelay
          exact ⟨habsent, rfl⟩
        · cases hrelay
      · cases h
  | relayGetTask id' =>
      obtain ⟨relay, hrelay, rfl⟩ := Option.map_eq_some_iff.mp h
      simp only [RelayTunnel.step] at hrelay
      split at hrelay
      · obtain ⟨taken, -, rfl⟩ := Option.map_eq_some_iff.mp hrelay
        exact ⟨habsent, rfl⟩
      · cases hrelay
  | relayTearDown =>
      cases h
      exact ⟨habsent, rfl⟩
  | relayResumePut => exact hconcerns.elim
  | _ => cases ha

theorem fresh_step (a : JointAction) (hopen : ∀ ws cs, a ≠ .openStream id ws cs)
    (hfresh : s.relay.handler id = .absent →
      framesOf id s.toAgent = [] ∧ s.agent.handler id = .absent)
    (h : s.step env metadata a = some t) (habsent : t.relay.handler id = .absent) :
    s.relay.handler id = .absent ∧ framesOf id t.toAgent = [] ∧ t.agent.handler id = .absent := by
  by_cases hconcerns : JointTunnel.Concerns id s a
  · cases hside : movesAgent a with
    | true =>
        obtain ⟨agent, b, hmoves⟩ := step_agentSide a hside h
        rw [hmoves.relay] at habsent
        obtain ⟨hframes, hagent⟩ := hfresh habsent
        exact ⟨habsent, untraced_agentSide a hside hconcerns hframes hagent h⟩
    | false =>
        obtain ⟨hbefore, hsame⟩ := absent_relaySide a hside hopen hconcerns h habsent
        rw [(step_relaySide a hside h).1, hsame]
        exact ⟨hbefore, hfresh hbefore⟩
  · obtain ⟨hlane, -⟩ := JointTunnel.step_lane env metadata a h hconcerns
    have hhandler : t.relay.handler id = s.relay.handler id := congrArg BridgeLane.relay hlane
    have hframes : framesOf id t.toAgent = framesOf id s.toAgent := congrArg BridgeLane.toAgent hlane
    have hagent : t.agent.handler id = s.agent.handler id := congrArg BridgeLane.agent hlane
    rw [hhandler] at habsent
    rw [hframes, hagent]
    exact ⟨habsent, hfresh habsent⟩

end Steps

/-- A stream that was not opened yet has left no trace, and a request is somewhere on its way. -/
structure RequestInv (env : AgentEnv) (metadata : UUID → Bytes) (id : UUID) (x : HttpExchange) :
    Prop where
  fresh : x.tunnel.relay.handler id = .absent →
    x.request = none ∧ framesOf id x.tunnel.toAgent = [] ∧ x.tunnel.agent.handler id = .absent
  opened : ∀ chunks, x.request = some chunks → Opened env metadata id chunks x.tunnel

theorem requestInv_init (env : AgentEnv) (metadata : UUID → Bytes) (id : UUID) :
    RequestInv env metadata id init where
  fresh := fun _ => ⟨rfl, rfl, rfl⟩
  opened := nofun

theorem requestInv_step (env : AgentEnv) (metadata : UUID → Bytes) (id : UUID) (x : HttpExchange)
    (a : JointAction) (y : HttpExchange) (hinv : RequestInv env metadata id x)
    (h : x.step env metadata id a = some y) : RequestInv env metadata id y := by
  obtain ⟨tunnel, hstep, rfl⟩ := Option.map_eq_some_iff.mp h
  by_cases hopen : ∀ ws cs, a ≠ .openStream id ws cs
  · have hrequest : (x.record id tunnel a).request = x.request :=
      record_request id x tunnel a fun cs => hopen false cs
    constructor
    · intro habsent
      rw [record_tunnel] at habsent ⊢
      obtain ⟨hbefore, hframes, hagent⟩ := fresh_step a hopen
        (fun hbefore => (hinv.fresh hbefore).2) hstep habsent
      exact ⟨hrequest.trans (hinv.fresh hbefore).1, hframes, hagent⟩
    · intro chunks hchunks
      rw [record_tunnel]
      rw [hrequest] at hchunks
      exact opened_step a hopen (hinv.opened chunks hchunks) hstep
  · simp only [not_forall, not_not] at hopen
    obtain ⟨ws, cs, rfl⟩ := hopen
    -- Its handler was absent, so that nothing of the stream is on its way.
    have hbefore : x.tunnel.relay.handler id = .absent := by
      obtain ⟨relay, hrelay, -⟩ := Option.map_eq_some_iff.mp hstep
      simp only [RelayTunnel.step] at hrelay
      split at hrelay
      · assumption
      · cases hrelay
    obtain ⟨hrequest, hframes, hagent⟩ := hinv.fresh hbefore
    obtain ⟨-, hopened, hnext⟩ := opened_openStream ws cs hframes hagent hstep
    constructor
    · intro habsent
      rw [record_tunnel] at habsent
      exact absurd habsent hopened
    · intro chunks hchunks
      rw [record_tunnel]
      cases ws with
      | true =>
          have hnone : (x.record id tunnel (.openStream id true cs)).request = x.request := rfl
          rw [hnone, hrequest] at hchunks
          cases hchunks
      | false =>
          have hsome : (x.record id tunnel (.openStream id false cs)).request = some cs := by
            simp [record]
          rw [hsome] at hchunks
          cases hchunks
          exact hnext rfl

end HttpExchange

end NetworkFileServer.Tunnel
