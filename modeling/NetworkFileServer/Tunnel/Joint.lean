import NetworkFileServer.Agent.Handlers
import NetworkFileServer.Framework.TransitionSystem
import NetworkFileServer.Relay.ProxyStreams
import NetworkFileServer.Relay.RequestBody
import NetworkFileServer.Tunnel.WsPayload

/-!
# The two ends of a tunnel

The relay's end and the agent's end of one tunnel, with the frames that are on their way in the two
directions. The WebSocket between them keeps the order of its frames. The browsers and the local
application are parties of their own: they send and receive WebSocket messages. Whoever moves is
chosen by the schedule.
-/

namespace NetworkFileServer.Tunnel

open Relay Agent TunnelConnection

/-- The messages of one WebSocket that a bridge has read from its peer, and those that it has sent
to it. -/
structure Endpoint where
  sent : List WsMessage
  received : List WsMessage

/-- The bridge reads a message of its peer. -/
def Endpoint.send (p : Endpoint) (m : WsMessage) : Endpoint := { p with sent := p.sent ++ [m] }

/-- The bridge sends a message to its peer. -/
def Endpoint.receive (p : Endpoint) (m : WsMessage) : Endpoint :=
  { p with received := p.received ++ [m] }

structure JointTunnel where
  relay : RelayTunnel
  /-- How far the request of each stream is sent. -/
  upload : UUID → SenderPc
  webSocket : UUID → Bool
  agent : AgentTunnel
  /-- The frames that the agent has not received yet, oldest first. -/
  toAgent : List Frame
  toRelay : List Frame
  /-- The identifiers that `uuid.uuid4()` has given, oldest first. -/
  opened : List UUID
  browser : UUID → Endpoint
  localApp : UUID → Endpoint

inductive JointAction where
  /-- A request with the chunks of its body, or a WebSocket upgrade, reaches `conn.open_stream`. -/
  | openStream (id : UUID) (isWebSocket : Bool) (chunks : List Bytes)
  /-- `proxy_request` sends on, up to its next await. -/
  | upload (id : UUID)
  | relayHandler (id : UUID) (e : ProxyEvent)
  /-- `browser_to_agent` has received a message. -/
  | browserMessage (id : UUID) (m : WsMessage)
  | relayReceive
  | relayResumePut
  | relayGetTask (id : UUID)
  | relayTearDown
  | agentReceive
  | agentResumePut
  | agentHandler (id : UUID) (e : AgentEvent)
  /-- `local_to_relay` has received a message. -/
  | localMessage (id : UUID) (m : WsMessage)
  | agentTearDown

namespace JointTunnel

def init : JointTunnel where
  relay := .init
  upload := fun _ => .sent
  webSocket := fun _ => false
  agent := .init
  toAgent := []
  toRelay := []
  opened := []
  browser := fun _ => ⟨[], []⟩
  localApp := fun _ => ⟨[], []⟩

/-- The frames that the relay's handler hands to the WebSocket by an event, the body of a request
apart. -/
def relaySends (metadata : Bytes) (isWebSocket : Bool) (id : UUID) : ProxyPc → ProxyEvent → List Frame
  | .wsOpening, .sent => [⟨.wsOpen, id, metadata⟩]
  | .timedOut, .cancelSent => [⟨.cancel, id, []⟩]
  | .checking _, .browserGone => [⟨.cancel, id, []⟩]
  | .leaving, .finish => if isWebSocket then [⟨.wsClose, id, []⟩] else []
  | _, _ => []

/-- The chunk that `agent_to_browser` gets from `read_stream_iter`. -/
def relayChunk (conn : TunnelConnection) (id : UUID) : ProxyPc → ProxyEvent → Option Bytes
  | .bridging iter, .iter e => (conn.iterStep id iter e).bind fun (_, _, out) => out
  | _, _ => none

/-- The chunk that `relay_to_local` gets. -/
def agentChunk (conn : TunnelConnection) (id : UUID) : AgentPc → AgentEvent → Option Bytes
  | .wsBridging iter, .iter e => (conn.iterStep id iter e).bind fun (_, _, out) => out
  | _, _ => none

/-- `agent_to_browser` with a chunk. A chunk that it cannot decode ends the task. -/
def deliverBrowser (s : JointTunnel) (id : UUID) : Option Bytes → JointTunnel
  | none => s
  | some chunk =>
      match WsMessage.decode chunk with
      | some m => { s with browser := Function.update s.browser id ((s.browser id).receive m) }
      | none =>
          { s with relay := { s.relay with handler := Function.update s.relay.handler id .leaving } }

/-- `relay_to_local` with a chunk. -/
def deliverLocal (s : JointTunnel) (id : UUID) : Option Bytes → JointTunnel
  | none => s
  | some chunk =>
      match WsMessage.decode chunk with
      | some m => { s with localApp := Function.update s.localApp id ((s.localApp id).receive m) }
      | none =>
          { s with agent :=
              { s.agent.setHandler id .wsClosing with conn := s.agent.conn.removeStream id } }

/-- The agent's end moves; what it hands to the WebSocket is on its way to the relay. -/
def moveAgent (s : JointTunnel) (agent : AgentTunnel) : JointTunnel :=
  { s with agent := agent, toRelay := s.toRelay ++ agent.sent.drop s.agent.sent.length }

/-- `send_ws_data` of a message of the browser. `serialize_frame` raises on a payload that is too
large, which ends `browser_task`. -/
def forwardBrowser (s : JointTunnel) (id : UUID) (m : WsMessage) : Option JointTunnel :=
  let s := { s with browser := Function.update s.browser id ((s.browser id).send m) }
  if maxPayloadBytes < m.encode.length then
    (s.relay.step (.handler id .bridgeEnd)).map fun relay => { s with relay := relay }
  else some { s with toAgent := s.toAgent ++ [⟨.wsData, id, m.encode⟩] }

def step (env : AgentEnv) (metadata : UUID → Bytes) (s : JointTunnel) : JointAction → Option JointTunnel
  | .openStream id isWebSocket chunks =>
      (s.relay.step (.openStream id isWebSocket)).map fun relay =>
        { s with
          relay := relay
          upload := Function.update s.upload id (.opening chunks)
          webSocket := Function.update s.webSocket id isWebSocket
          opened := s.opened ++ [id] }
  | .upload id =>
      if s.relay.handler id = .sendingRequest then
        (senderStep id (metadata id) (s.upload id)).map fun (pc, out) =>
          { s with upload := Function.update s.upload id pc, toAgent := s.toAgent ++ out.toList }
      else none
  | .relayHandler id e =>
      -- The handler goes on to `read_stream` after the end-of-body sentinel.
      if s.relay.handler id = .sendingRequest ∧ e = .sent ∧ s.upload id ≠ .sent then none
      else
        (s.relay.step (.handler id e)).map fun relay =>
          ({ s with
            relay := relay
            toAgent := s.toAgent ++
              relaySends (metadata id) (s.webSocket id) id (s.relay.handler id) e } : JointTunnel)
            |>.deliverBrowser id (relayChunk s.relay.conn id (s.relay.handler id) e)
  | .browserMessage id m =>
      match s.relay.handler id with
      | .wsStarting | .bridging _ => s.forwardBrowser id m
      | _ => none
  | .relayReceive =>
      match s.toRelay with
      | f :: rest =>
          (s.relay.step (.receive f)).map fun relay => { s with relay := relay, toRelay := rest }
      | [] => none
  | .relayResumePut => (s.relay.step .resumePut).map fun relay => { s with relay := relay }
  | .relayGetTask id => (s.relay.step (.getTask id)).map fun relay => { s with relay := relay }
  | .relayTearDown => (s.relay.step .tearDown).map fun relay => { s with relay := relay }
  | .agentReceive =>
      match s.toAgent with
      | f :: rest =>
          (s.agent.step env (.receive f)).map fun agent => { s.moveAgent agent with toAgent := rest }
      | [] => none
  | .agentResumePut => (s.agent.step env .resumePut).map s.moveAgent
  | .agentHandler id e =>
      match e with
      | .localMessage _ => none
      | _ =>
          (s.agent.step env (.handler id e)).map fun agent =>
            (s.moveAgent agent).deliverLocal id (agentChunk s.agent.conn id (s.agent.handler id) e)
  | .localMessage id m =>
      (s.agent.step env (.handler id (.localMessage m.encode))).map fun agent =>
        { s.moveAgent agent with
          localApp := Function.update s.localApp id ((s.localApp id).send m) }
  | .agentTearDown => (s.agent.step env .tearDown).map s.moveAgent

theorem deliverBrowser_cases (s : JointTunnel) (id : UUID) (out : Option Bytes) :
    ∃ handler browser, s.deliverBrowser id out =
        { s with relay := { s.relay with handler := handler }, browser := browser } ∧
      (handler = s.relay.handler ∨ handler = Function.update s.relay.handler id .leaving) := by
  unfold deliverBrowser
  split
  · exact ⟨s.relay.handler, s.browser, rfl, .inl rfl⟩
  · split
    · exact ⟨s.relay.handler, _, rfl, .inl rfl⟩
    · exact ⟨_, s.browser, rfl, .inr rfl⟩

theorem deliverLocal_cases (s : JointTunnel) (id : UUID) (out : Option Bytes) :
    ∃ agent localApp, s.deliverLocal id out = { s with agent := agent, localApp := localApp } ∧
      (agent = s.agent ∨ agent =
        { s.agent.setHandler id .wsClosing with conn := s.agent.conn.removeStream id }) := by
  unfold deliverLocal
  split
  · exact ⟨s.agent, s.localApp, rfl, .inl rfl⟩
  · split
    · exact ⟨s.agent, _, rfl, .inl rfl⟩
    · exact ⟨_, s.localApp, rfl, .inr rfl⟩

theorem step_relayHandler_cases (env : AgentEnv) (metadata : UUID → Bytes) (s t : JointTunnel)
    (id : UUID) (e : ProxyEvent) (h : s.step env metadata (.relayHandler id e) = some t) :
    ∃ conn pc pc' getTask browser,
      proxyStep s.relay.conn id (s.relay.handler id) e = some (conn, pc) ∧
      (pc' = pc ∨ pc' = .leaving) ∧
      t = { s with
        relay := ⟨conn, Function.update s.relay.handler id pc', getTask⟩
        toAgent := s.toAgent ++
          relaySends (metadata id) (s.webSocket id) id (s.relay.handler id) e
        browser := browser } := by
  simp only [step] at h
  split at h
  · cases h
  · obtain ⟨relay, hrelay, rfl⟩ := Option.map_eq_some_iff.mp h
    obtain ⟨⟨conn, pc⟩, hstep, rfl⟩ := Option.map_eq_some_iff.mp hrelay
    obtain ⟨handler, browser, heq, hhandler⟩ := deliverBrowser_cases
      { s with
        relay := ⟨conn, Function.update s.relay.handler id pc,
          Function.update s.relay.getTask id
            (s.relay.getTask id || leavesGetTask (s.relay.handler id) e)⟩
        toAgent := s.toAgent ++
          relaySends (metadata id) (s.webSocket id) id (s.relay.handler id) e }
      id (relayChunk s.relay.conn id (s.relay.handler id) e)
    rcases hhandler with rfl | rfl
    · exact ⟨conn, pc, pc, _, browser, hstep, .inl rfl, heq⟩
    · simp only [Function.update_idem] at heq
      exact ⟨conn, pc, .leaving, _, browser, hstep, .inr rfl, heq⟩

theorem browserMessage_forward (env : AgentEnv) (metadata : UUID → Bytes) {s t : JointTunnel} {id : UUID}
    (m : WsMessage) (h : s.step env metadata (.browserMessage id m) = some t) :
    ((∃ iter, s.relay.handler id = .bridging iter) ∨ s.relay.handler id = .wsStarting) ∧
      s.forwardBrowser id m = some t := by
  simp only [step] at h
  split at h
  · exact ⟨.inr ‹_›, h⟩
  · exact ⟨.inl ⟨_, ‹_›⟩, h⟩
  · cases h

end JointTunnel

end NetworkFileServer.Tunnel
