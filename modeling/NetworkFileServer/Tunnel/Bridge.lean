import NetworkFileServer.Tunnel.Joint

/-!
# What a WebSocket bridge carries

One WebSocket of the tunnel, followed in both directions: from the browser through `browser_to_agent`,
the channel, the agent's queue and `relay_to_local` to the local application, and back. A message is
one WS_DATA frame, so it has to fit into a frame together with its marker byte.
-/

namespace NetworkFileServer.Tunnel

open Relay Agent TunnelConnection

/-- Everything that was sent has arrived or is still in transit, in the order of sending. -/
def Carried (sent received : List WsMessage) (transit : List Bytes) : Prop :=
  ∃ rest, sent = received ++ rest ∧ rest.map WsMessage.encode = transit

namespace Carried

variable {sent received : List WsMessage} {transit : List Bytes}

theorem nil : Carried [] [] [] := ⟨[], rfl, rfl⟩

theorem send (h : Carried sent received transit) (m : WsMessage) :
    Carried (sent ++ [m]) received (transit ++ [m.encode]) := by
  obtain ⟨rest, rfl, rfl⟩ := h
  exact ⟨rest ++ [m], by simp, by simp⟩

theorem deliver {chunk : Bytes} (h : Carried sent received (chunk :: transit)) :
    ∃ m, WsMessage.decode chunk = some m ∧ Carried sent (received ++ [m]) transit := by
  obtain ⟨rest, rfl, hrest⟩ := h
  cases rest with
  | nil => cases hrest
  | cons m rest =>
      simp only [List.map_cons, List.cons.injEq] at hrest
      obtain ⟨rfl, rfl⟩ := hrest
      exact ⟨m, m.decode_encode, rest, by simp, rfl⟩

theorem not_carried_of_lost (h : Carried sent received transit) (m : WsMessage) :
    ¬ Carried (sent ++ [m]) received transit := by
  obtain ⟨rest, rfl, hrest⟩ := h
  rintro ⟨rest', hsent, hrest'⟩
  have hlength := congrArg List.length hsent
  have htransit := congrArg List.length (hrest.trans hrest'.symm)
  simp only [List.length_append, List.length_map, List.length_singleton] at hlength htransit
  omega

end Carried

/-- The payloads of the WS_DATA frames, in order. -/
def wsPayloads (frames : List Frame) : List Bytes :=
  (frames.filter (·.type = .wsData)).map (·.payload)

/-- The chunk that the relay's iterator holds between the queue and `agent_to_browser`. -/
def heldByRelay : ProxyPc → List Bytes
  | .bridging iter => iter.held
  | _ => []

/-- The same for `relay_to_local`. -/
def heldByAgent : AgentPc → List Bytes
  | .wsBridging iter => iter.held
  | _ => []

/-- Everything of the state that concerns one WebSocket. -/
structure BridgeLane where
  relay : ProxyPc
  getTask : Bool
  relayBuffered : List Bytes
  relayClosed : Bool
  inRelay : Bool
  toAgent : List Frame
  agent : AgentPc
  agentBuffered : List Bytes
  agentClosed : Bool
  inAgent : Bool
  toRelay : List Frame
  browser : Endpoint
  localApp : Endpoint

namespace BridgeLane

/-- What is on its way from the browser to the local application, oldest first. -/
def transitToLocal (l : BridgeLane) : List Bytes :=
  heldByAgent l.agent ++ l.agentBuffered ++ wsPayloads l.toAgent

/-- What is on its way from the local application to the browser, oldest first. -/
def transitToBrowser (l : BridgeLane) : List Bytes :=
  heldByRelay l.relay ++ l.relayBuffered ++ wsPayloads l.toRelay

/-- `agent_to_browser` reads the stream, or will. -/
def relayReads (l : BridgeLane) : Bool :=
  match l.relay with
  | .wsStarting | .bridging _ => true
  | _ => false

/-- `relay_to_local` reads the stream, or will: the WS_OPEN comes before every message. -/
def agentReads (l : BridgeLane) : Bool :=
  match l.agent with
  | .absent | .wsSpawned | .wsConnecting | .wsStarting | .wsBridging _ => true
  | _ => false

end BridgeLane

namespace JointTunnel

def lane (s : JointTunnel) (id : UUID) : BridgeLane where
  relay := s.relay.handler id
  getTask := s.relay.getTask id
  relayBuffered := s.relay.conn.buffered id
  relayClosed := (s.relay.conn.states id).closed
  inRelay := decide (id ∈ s.relay.conn.streams)
  toAgent := framesOf id s.toAgent
  agent := s.agent.handler id
  agentBuffered := s.agent.conn.buffered id
  agentClosed := (s.agent.conn.states id).closed
  inAgent := decide (id ∈ s.agent.conn.streams)
  toRelay := framesOf id s.toRelay
  browser := s.browser id
  localApp := s.localApp id

/-- In both directions nothing is lost, split, merged, duplicated or reordered, and what is in transit
has a reader. -/
structure Faithful (l : BridgeLane) : Prop where
  toLocal : Carried l.browser.sent l.localApp.received l.transitToLocal
  localReads : l.transitToLocal ≠ [] → l.agentReads = true
  toBrowser : Carried l.localApp.sent l.browser.received l.transitToBrowser
  browserReads : l.transitToBrowser ≠ [] → l.relayReads = true

/-- The bridge of one WebSocket is faithful. -/
def BridgeFaithful (id : UUID) (s : JointTunnel) : Prop :=
  s.webSocket id = true → Faithful (s.lane id)

/-- The browser, the local application and the tunnel between them stay connected: the local
application accepts the WebSocket, neither end goes away and nothing is torn down. -/
def StaysConnected (env : AgentEnv) (id : UUID) (s : JointTunnel) : JointAction → Prop
  | .relayHandler id' e => id' = id → e ≠ .bridgeEnd ∧ e ≠ .abort ∧ e ≠ .sendRejected
  | .agentHandler id' e =>
      id' = id → e ≠ .bridgeEnd ∧ e ≠ .cancel ∧ e ≠ .connectFailed ∧ e ≠ .sendFailed
  | .agentReceive => ∀ f ∈ s.toAgent.head?, f.requestId = id → f.type = .wsOpen →
      env.validWsOpen f.payload = true ∧ s.agent.conn.streams.length < maxStreams
  | .relayTearDown | .agentTearDown => False
  | _ => True

instance decidableStaysConnected (env : AgentEnv) (id : UUID) (s : JointTunnel) (a : JointAction) :
    Decidable (s.StaysConnected env id a) :=
  match a with
  | .relayHandler id' e =>
      decidable_of_iff (id' = id → e ≠ .bridgeEnd ∧ e ≠ .abort ∧ e ≠ .sendRejected) Iff.rfl
  | .agentHandler id' e =>
      decidable_of_iff (id' = id → e ≠ .bridgeEnd ∧ e ≠ .cancel ∧ e ≠ .connectFailed ∧ e ≠ .sendFailed)
        Iff.rfl
  | .agentReceive =>
      decidable_of_iff (∀ f ∈ s.toAgent.head?, f.requestId = id → f.type = .wsOpen →
        env.validWsOpen f.payload = true ∧ s.agent.conn.streams.length < maxStreams) Iff.rfl
  | .relayTearDown | .agentTearDown => isFalse (fun h => h)
  | .openStream _ _ _ | .upload _ | .browserMessage _ _ | .relayReceive | .relayResumePut
  | .relayGetTask _ | .agentResumePut | .localMessage _ _ => isTrue trivial

/-- Every message of the WebSocket fits into a frame with its marker. -/
def MessageFits (id : UUID) (s : JointTunnel) : JointAction → Prop
  | .browserMessage id' m | .localMessage id' m =>
      id' = id → s.webSocket id = true → m.size < maxPayloadBytes
  | _ => True

instance decidableMessageFits (id : UUID) (s : JointTunnel) (a : JointAction) :
    Decidable (s.MessageFits id a) :=
  match a with
  | .browserMessage id' m | .localMessage id' m =>
      decidable_of_iff (id' = id → s.webSocket id = true → m.size < maxPayloadBytes) Iff.rfl
  | .openStream _ _ _ | .upload _ | .relayHandler _ _ | .relayReceive | .relayResumePut
  | .relayGetTask _ | .relayTearDown | .agentReceive | .agentResumePut | .agentHandler _ _
  | .agentTearDown => isTrue trivial

end JointTunnel

/-- The iterator waits for chunks and has not seen the stream closed. -/
def IterPc.reads : IterPc → Bool
  | .waiting _ false | .yielded => true
  | _ => false

theorem iterStep_reads (conn conn' : TunnelConnection) (id : UUID) (pc pc' : IterPc) (e : IterEvent)
    (out : Option Bytes) (h : conn.iterStep id pc e = some (conn', pc', out)) (hreads : pc.reads = true)
    (hopen : (conn.states id).closed = false) : pc'.reads = true := by
  rcases iterStep_cases conn conn' id pc pc' e out h with
    ⟨p, c, rfl, -, -, rfl, -⟩ | ⟨got, -, -, hset, -⟩ | ⟨p, c, -, -, -, rfl, -⟩ | ⟨p, hpc, -⟩ |
    ⟨hpc, -⟩ | ⟨-, -, -, rfl, -⟩
  · cases c
    · rfl
    · cases hreads
  · rw [hopen] at hset
    cases hset
  · rfl
  · rcases hpc with ⟨rfl, -⟩ | ⟨rfl, -⟩ <;> cases hreads
  · rcases hpc with ⟨rfl, -⟩ | ⟨rfl, -⟩ | ⟨-, -, hset⟩
    · cases hreads
    · cases hreads
    · rw [hopen] at hset
      cases hset
  · rfl

/-- So it neither finishes nor removes its stream. -/
theorem iterStep_open (conn conn' : TunnelConnection) (id : UUID) (pc pc' : IterPc) (e : IterEvent)
    (out : Option Bytes) (h : conn.iterStep id pc e = some (conn', pc', out)) (hreads : pc.reads = true)
    (hopen : (conn.states id).closed = false) :
    pc'.reads = true ∧ pc' ≠ .finished ∧ (conn'.states id).closed = false ∧
      conn'.streams = conn.streams := by
  have hreads' := iterStep_reads conn conn' id pc pc' e out h hreads hopen
  have hfinished : pc' ≠ .finished := by
    rintro rfl
    cases hreads'
  have hclosed := (iterStep_touches conn conn' id pc pc' e out h).closed id
  have hstreams := iterStep_streams conn conn' id pc pc' e out h
  rw [if_neg hfinished] at hstreams
  exact ⟨hreads', hfinished, hclosed.trans hopen, hstreams⟩

def OnlyWsData (frames : List Frame) : Prop := ∀ f ∈ frames, f.type = .wsData

theorem OnlyWsData.concat {frames : List Frame} (h : OnlyWsData frames) (f : Frame)
    (hf : f.type = .wsData) : OnlyWsData (frames ++ [f]) := by
  intro g hg
  rcases List.mem_append.mp hg with hg | hg
  · exact h g hg
  · rw [List.mem_singleton.mp hg, hf]

theorem OnlyWsData.tail {f : Frame} {rest : List Frame} (h : OnlyWsData (f :: rest)) :
    f.type = .wsData ∧ OnlyWsData rest :=
  ⟨h f (by simp), fun g hg => h g (by simp [hg])⟩

namespace BridgeLane

/-- Nothing of the WebSocket has reached the channel. -/
structure Idle (l : BridgeLane) : Prop where
  getTask : l.getTask = false
  relayBuffered : l.relayBuffered = []
  toAgent : l.toAgent = []
  agent : l.agent = .absent
  agentBuffered : l.agentBuffered = []
  inAgent : l.inAgent = false
  toRelay : l.toRelay = []
  browser : l.browser = ⟨[], []⟩
  localApp : l.localApp = ⟨[], []⟩

/-- The WS_OPEN is on its way, before every message. -/
structure Announced (l : BridgeLane) : Prop where
  toAgent : ∃ f rest, l.toAgent = f :: rest ∧ f.type = .wsOpen ∧ OnlyWsData rest
  agent : l.agent = .absent
  agentBuffered : l.agentBuffered = []
  inAgent : l.inAgent = false
  toRelay : l.toRelay = []

/-- The agent has accepted the WebSocket. -/
structure Accepted (l : BridgeLane) : Prop where
  toAgent : OnlyWsData l.toAgent
  agent : l.agent = .wsSpawned ∨ l.agent = .wsConnecting ∨ l.agent = .wsStarting ∨
    ∃ iter, l.agent = .wsBridging iter ∧ iter.reads = true
  agentClosed : l.agentClosed = false
  inAgent : l.inAgent = true
  toRelay : OnlyWsData l.toRelay

/-- The WebSocket is open at the relay. -/
structure Live (l : BridgeLane) : Prop where
  relay : l.relay = .wsStarting ∨ ∃ iter, l.relay = .bridging iter ∧ iter.reads = true
  getTask : l.getTask = false
  relayClosed : l.relayClosed = false
  inRelay : l.inRelay = true
  agentSide : l.Announced ∨ l.Accepted
  toLocal : Carried l.browser.sent l.localApp.received l.transitToLocal
  toBrowser : Carried l.localApp.sent l.browser.received l.transitToBrowser

/-- The positions of a WebSocket whose WS_OPEN was not sent. -/
def Unsent (l : BridgeLane) : Prop :=
  l.Idle ∧ (l.relay = .absent ∨ l.relay = .ended ∨
    (l.relay = .wsOpening ∧ l.relayClosed = false ∧ l.inRelay = true))

theorem Idle.faithful {l : BridgeLane} (h : l.Idle) (hrelay : heldByRelay l.relay = []) :
    JointTunnel.Faithful l := by
  have hlocal : l.transitToLocal = [] := by
    simp [transitToLocal, h.agent, heldByAgent, h.agentBuffered, h.toAgent, wsPayloads]
  have hbrowser : l.transitToBrowser = [] := by
    simp [transitToBrowser, hrelay, h.relayBuffered, h.toRelay, wsPayloads]
  refine ⟨?_, fun hne => absurd hlocal hne, ?_, fun hne => absurd hbrowser hne⟩
  · rw [hlocal, h.browser, h.localApp]
    exact .nil
  · rw [hbrowser, h.browser, h.localApp]
    exact .nil

theorem Unsent.faithful {l : BridgeLane} (h : l.Unsent) : JointTunnel.Faithful l := by
  refine h.1.faithful ?_
  rcases h.2 with hpc | hpc | ⟨hpc, -⟩ <;> rw [hpc] <;> rfl

theorem Live.faithful {l : BridgeLane} (h : l.Live) : JointTunnel.Faithful l := by
  refine ⟨h.toLocal, fun _ => ?_, h.toBrowser, fun _ => ?_⟩
  · rcases h.agentSide with hside | hside
    · simp [agentReads, hside.agent]
    · rcases hside.agent with hpc | hpc | hpc | ⟨iter, hpc, -⟩ <;> simp [agentReads, hpc]
  · rcases h.relay with hpc | ⟨iter, hpc, -⟩ <;> simp [relayReads, hpc]

theorem Idle.opens {l : BridgeLane} (h : l.Idle) (pc : ProxyPc) (buffered : List Bytes) (closed inRelay : Bool)
    (hbuffered : buffered = [])
    (hpc : pc = .ended ∨ (pc = .wsOpening ∧ closed = false ∧ inRelay = true)) :
    Unsent { l with relay := pc, relayBuffered := buffered, relayClosed := closed, inRelay := inRelay } :=
  ⟨⟨h.getTask, hbuffered, h.toAgent, h.agent, h.agentBuffered, h.inAgent, h.toRelay, h.browser, h.localApp⟩,
    .inr hpc⟩

theorem Unsent.sends {l : BridgeLane} (h : l.Unsent) (hpc : l.relay = .wsOpening) (f : Frame)
    (hf : f.type = .wsOpen) : Live { l with relay := .wsStarting, toAgent := l.toAgent ++ [f] } := by
  obtain ⟨hidle, hpos⟩ := h
  have hopen : l.relayClosed = false ∧ l.inRelay = true := by
    rcases hpos with h | h | ⟨-, hclosed, hmem⟩
    · rw [hpc] at h
      cases h
    · rw [hpc] at h
      cases h
    · exact ⟨hclosed, hmem⟩
  refine ⟨.inl rfl, hidle.getTask, hopen.1, hopen.2, .inl ?_, ?_, ?_⟩
  · refine ⟨⟨f, [], ?_, hf, ?_⟩, hidle.agent, hidle.agentBuffered, hidle.inAgent, hidle.toRelay⟩
    · simp [hidle.toAgent]
    · simp [OnlyWsData]
  · simpa [transitToLocal, hidle.agent, heldByAgent, hidle.agentBuffered, hidle.toAgent, wsPayloads, hf,
      hidle.browser, hidle.localApp] using Carried.nil
  · simpa [transitToBrowser, heldByRelay, hidle.relayBuffered, hidle.toRelay, wsPayloads, hidle.browser,
      hidle.localApp] using Carried.nil

theorem Live.browserMessage {l : BridgeLane} (h : l.Live) (id : UUID) (m : WsMessage) :
    Live { l with
      browser := l.browser.send m
      toAgent := l.toAgent ++ [⟨.wsData, id, m.encode⟩] } := by
  refine ⟨h.relay, h.getTask, h.relayClosed, h.inRelay, ?_, ?_, h.toBrowser⟩
  · rcases h.agentSide with hside | hside
    · obtain ⟨f, rest, hto, hf, hrest⟩ := hside.toAgent
      exact .inl ⟨⟨f, rest ++ [⟨.wsData, id, m.encode⟩], by simp [hto], hf, .concat hrest _ rfl⟩,
        hside.agent, hside.agentBuffered, hside.inAgent, hside.toRelay⟩
    · exact .inr ⟨.concat hside.toAgent _ rfl, hside.agent, hside.agentClosed, hside.inAgent, hside.toRelay⟩
  · simpa [transitToLocal, wsPayloads, Endpoint.send] using h.toLocal.send m

theorem Live.localMessage {l : BridgeLane} (h : l.Live) (hside : l.Accepted) (id : UUID) (m : WsMessage) :
    Live { l with
      localApp := l.localApp.send m
      toRelay := l.toRelay ++ [⟨.wsData, id, m.encode⟩] } := by
  refine ⟨h.relay, h.getTask, h.relayClosed, h.inRelay, .inr ?_, h.toLocal, ?_⟩
  · exact ⟨hside.toAgent, hside.agent, hside.agentClosed, hside.inAgent, .concat hside.toRelay _ rfl⟩
  · simpa [transitToBrowser, wsPayloads, Endpoint.send] using h.toBrowser.send m

/-- The frames for the relay are WS_DATA frames, and there are none before the WebSocket is accepted. -/
theorem Live.onlyWsData {l : BridgeLane} (h : l.Live) : OnlyWsData l.toRelay := by
  rcases h.agentSide with hside | hside
  · simp [OnlyWsData, hside.toRelay]
  · exact hside.toRelay

theorem Live.relayReceive {l : BridgeLane} (h : l.Live) (f : Frame) (rest : List Frame)
    (hto : l.toRelay = f :: rest) :
    Live { l with relayBuffered := l.relayBuffered ++ [f.payload], toRelay := rest } := by
  obtain ⟨hf, hrest⟩ := OnlyWsData.tail (hto ▸ h.onlyWsData)
  refine ⟨h.relay, h.getTask, h.relayClosed, h.inRelay, ?_, h.toLocal, ?_⟩
  · rcases h.agentSide with hside | hside
    · rw [hside.toRelay] at hto
      cases hto
    · exact .inr ⟨hside.toAgent, hside.agent, hside.agentClosed, hside.inAgent, hrest⟩
  · simpa [transitToBrowser, hto, wsPayloads, hf] using h.toBrowser

theorem Live.agentReceive {l : BridgeLane} (h : l.Live) (hside : l.Accepted) (f : Frame) (rest : List Frame)
    (hto : l.toAgent = f :: rest) :
    Live { l with agentBuffered := l.agentBuffered ++ [f.payload], toAgent := rest } := by
  obtain ⟨hf, hrest⟩ := OnlyWsData.tail (hto ▸ hside.toAgent)
  refine ⟨h.relay, h.getTask, h.relayClosed, h.inRelay, .inr ?_, ?_, h.toBrowser⟩
  · exact ⟨hrest, hside.agent, hside.agentClosed, hside.inAgent, hside.toRelay⟩
  · simpa [transitToLocal, hto, wsPayloads, hf] using h.toLocal

theorem Live.accept {l : BridgeLane} (h : l.Live) (hside : l.Announced) (f : Frame) (rest : List Frame)
    (hto : l.toAgent = f :: rest) :
    Live { l with
      agent := .wsSpawned
      agentBuffered := []
      agentClosed := false
      inAgent := true
      toAgent := rest } := by
  obtain ⟨f', rest', hto', hf, hrest⟩ := hside.toAgent
  rw [hto] at hto'
  cases hto'
  refine ⟨h.relay, h.getTask, h.relayClosed, h.inRelay, .inr ?_, ?_, h.toBrowser⟩
  · exact ⟨hrest, .inl rfl, rfl, rfl, by simp [OnlyWsData, hside.toRelay]⟩
  · simpa [transitToLocal, hto, hside.agent, hside.agentBuffered, heldByAgent, wsPayloads, hf] using h.toLocal

theorem agentSide_congr {l l' : BridgeLane} (h : l.Announced ∨ l.Accepted) (htoAgent : l'.toAgent = l.toAgent)
    (hagent : l'.agent = l.agent) (hbuffered : l'.agentBuffered = l.agentBuffered)
    (hclosed : l'.agentClosed = l.agentClosed) (hmem : l'.inAgent = l.inAgent)
    (htoRelay : l'.toRelay = l.toRelay) : l'.Announced ∨ l'.Accepted := by
  rcases h with h | h
  · exact .inl ⟨htoAgent ▸ h.toAgent, hagent ▸ h.agent, hbuffered ▸ h.agentBuffered, hmem ▸ h.inAgent,
      htoRelay ▸ h.toRelay⟩
  · exact .inr ⟨htoAgent ▸ h.toAgent, hagent ▸ h.agent, hclosed ▸ h.agentClosed, hmem ▸ h.inAgent,
      htoRelay ▸ h.toRelay⟩

theorem Live.startBridge {l : BridgeLane} (h : l.Live) (hpc : l.relay = .wsStarting) :
    Live { l with relay := .bridging (.waiting none false) } := by
  refine ⟨.inr ⟨_, rfl, rfl⟩, h.getTask, h.relayClosed, h.inRelay, ?_, h.toLocal, ?_⟩
  · exact agentSide_congr h.agentSide rfl rfl rfl rfl rfl rfl
  · simpa [transitToBrowser, hpc, heldByRelay, IterPc.held] using h.toBrowser

theorem Live.agentMoves {l : BridgeLane} (h : l.Live) (hside : l.Accepted) (pc : AgentPc)
    (hheld : heldByAgent l.agent = []) (hpc : pc = .wsConnecting ∨ pc = .wsStarting ∨
      pc = .wsBridging (.waiting none false)) : Live { l with agent := pc } := by
  refine ⟨h.relay, h.getTask, h.relayClosed, h.inRelay, .inr ?_, ?_, h.toBrowser⟩
  · refine ⟨hside.toAgent, ?_, hside.agentClosed, hside.inAgent, hside.toRelay⟩
    rcases hpc with rfl | rfl | rfl
    · exact .inr (.inl rfl)
    · exact .inr (.inr (.inl rfl))
    · exact .inr (.inr (.inr ⟨_, rfl, rfl⟩))
  · have hnone : heldByAgent pc = [] := by rcases hpc with rfl | rfl | rfl <;> rfl
    simpa [transitToLocal, hheld, hnone] using h.toLocal

theorem Live.relayIter {l : BridgeLane} (h : l.Live) (iter iter' : IterPc) (buffered : List Bytes)
    (hpc : l.relay = .bridging iter) (hreads : iter'.reads = true)
    (heq : iter.held ++ l.relayBuffered = iter'.held ++ buffered) :
    Live { l with relay := .bridging iter', relayBuffered := buffered } := by
  refine ⟨.inr ⟨iter', rfl, hreads⟩, h.getTask, h.relayClosed, h.inRelay, ?_, h.toLocal, ?_⟩
  · exact agentSide_congr h.agentSide rfl rfl rfl rfl rfl rfl
  · have htransit := h.toBrowser
    rw [transitToBrowser, hpc, heldByRelay, heq] at htransit
    exact htransit

theorem Live.relayYields {l : BridgeLane} (h : l.Live) (iter iter' : IterPc) (chunk : Bytes)
    (buffered : List Bytes) (hpc : l.relay = .bridging iter) (hreads : iter'.reads = true)
    (heq : iter.held ++ l.relayBuffered = chunk :: (iter'.held ++ buffered)) :
    ∃ m, WsMessage.decode chunk = some m ∧
      Live { l with
        relay := .bridging iter'
        relayBuffered := buffered
        browser := l.browser.receive m } := by
  have htransit := h.toBrowser
  rw [transitToBrowser, hpc, heldByRelay, heq, List.cons_append] at htransit
  obtain ⟨m, hdecode, hcarried⟩ := htransit.deliver
  refine ⟨m, hdecode, .inr ⟨iter', rfl, hreads⟩, h.getTask, h.relayClosed, h.inRelay, ?_, h.toLocal, hcarried⟩
  exact agentSide_congr h.agentSide rfl rfl rfl rfl rfl rfl

theorem Live.agentIter {l : BridgeLane} (h : l.Live) (hside : l.Accepted) (iter iter' : IterPc)
    (buffered : List Bytes) (hpc : l.agent = .wsBridging iter) (hreads : iter'.reads = true)
    (heq : iter.held ++ l.agentBuffered = iter'.held ++ buffered) :
    Live { l with agent := .wsBridging iter', agentBuffered := buffered } := by
  refine ⟨h.relay, h.getTask, h.relayClosed, h.inRelay, .inr ?_, ?_, h.toBrowser⟩
  · exact ⟨hside.toAgent, .inr (.inr (.inr ⟨iter', rfl, hreads⟩)), hside.agentClosed, hside.inAgent,
      hside.toRelay⟩
  · have htransit := h.toLocal
    rw [transitToLocal, hpc, heldByAgent, heq] at htransit
    exact htransit

theorem Live.agentYields {l : BridgeLane} (h : l.Live) (hside : l.Accepted) (iter iter' : IterPc)
    (chunk : Bytes) (buffered : List Bytes) (hpc : l.agent = .wsBridging iter) (hreads : iter'.reads = true)
    (heq : iter.held ++ l.agentBuffered = chunk :: (iter'.held ++ buffered)) :
    ∃ m, WsMessage.decode chunk = some m ∧
      Live { l with
        agent := .wsBridging iter'
        agentBuffered := buffered
        localApp := l.localApp.receive m } := by
  have htransit := h.toLocal
  rw [transitToLocal, hpc, heldByAgent, heq, List.cons_append] at htransit
  obtain ⟨m, hdecode, hcarried⟩ := htransit.deliver
  refine ⟨m, hdecode, h.relay, h.getTask, h.relayClosed, h.inRelay, .inr ?_, hcarried, h.toBrowser⟩
  exact ⟨hside.toAgent, .inr (.inr (.inr ⟨iter', rfl, hreads⟩)), hside.agentClosed, hside.inAgent,
    hside.toRelay⟩

end BridgeLane

end NetworkFileServer.Tunnel
