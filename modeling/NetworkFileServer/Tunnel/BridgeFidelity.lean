import NetworkFileServer.Tunnel.Bridge

/-!
# Fidelity of the WebSocket bridge

While the browser, the local application and the tunnel stay connected, a bridge carries every
message in both directions, for every interleaving with the other streams, exactly as long as each
message fits into a frame with its marker byte.
-/

namespace NetworkFileServer.Tunnel

open Relay Agent TunnelConnection

namespace JointTunnel

section Others

variable {s t : JointTunnel} {id : UUID}

theorem lane_congr (hrelay : RelayTunnel.Untouched id s.relay t.relay)
    (hhandler : t.agent.handler id = s.agent.handler id) (hconn : s.agent.conn.Untouched id t.agent.conn)
    (htoAgent : framesOf id t.toAgent = framesOf id s.toAgent)
    (htoRelay : framesOf id t.toRelay = framesOf id s.toRelay) (hbrowser : t.browser id = s.browser id)
    (hlocal : t.localApp id = s.localApp id) : t.lane id = s.lane id := by
  simp [lane, hrelay.handler, hrelay.getTask, hrelay.buffered, hrelay.closed, hrelay.table, htoAgent,
    hhandler, hconn.buffered, hconn.closed, hconn.table, htoRelay, hbrowser, hlocal]

theorem lane_relay (hrelay : RelayTunnel.Untouched id s.relay t.relay) (hagent : t.agent = s.agent)
    (htoAgent : framesOf id t.toAgent = framesOf id s.toAgent)
    (htoRelay : framesOf id t.toRelay = framesOf id s.toRelay) (hbrowser : t.browser id = s.browser id)
    (hlocal : t.localApp id = s.localApp id) : t.lane id = s.lane id :=
  lane_congr hrelay (by rw [hagent]) (hagent ▸ .refl) htoAgent htoRelay hbrowser hlocal

theorem framesOf_nil_of_other {frames : List Frame} {id' : UUID} (h : ∀ f ∈ frames, f.requestId = id')
    (hne : id' ≠ id) : framesOf id frames = [] := by
  simp only [framesOf, List.filter_eq_nil_iff]
  intro f hf
  simp [h f hf, hne]

theorem relaySends_requestId (payload : Bytes) (isWebSocket : Bool) (pc : ProxyPc) (e : ProxyEvent) :
    ∀ f ∈ relaySends payload isWebSocket id pc e, f.requestId = id := by
  cases pc with
  | leaving => cases e <;> cases isWebSocket <;> simp [relaySends]
  | _ => cases e <;> simp [relaySends]

theorem lane_deliverBrowser (s : JointTunnel) (out : Option Bytes) {id' : UUID} (hne : id' ≠ id) :
    (s.deliverBrowser id' out).lane id = s.lane id := by
  unfold deliverBrowser
  split
  · rfl
  · split <;> simp [lane, Ne.symm hne]

theorem lane_deliverLocal (s : JointTunnel) (out : Option Bytes) {id' : UUID} (hne : id' ≠ id) :
    (s.deliverLocal id' out).lane id = s.lane id := by
  unfold deliverLocal
  split
  · rfl
  · split
    · simp [lane, Ne.symm hne]
    · simp [lane, AgentTunnel.setHandler, Ne.symm hne]

theorem lane_moveAgent (env : AgentEnv) (s : JointTunnel) (agent : AgentTunnel) (a : AgentAction)
    (h : s.agent.step env a = some agent) (ha : a.Spares id) : (s.moveAgent agent).lane id = s.lane id := by
  obtain ⟨hhandler, hconn, out, hsent, hout⟩ := AgentTunnel.step_untouched env s.agent agent a id h ha
  refine lane_congr (.refl id s.relay) hhandler hconn rfl ?_ rfl rfl
  simp [moveAgent, hsent, framesOf_append, hout]

/-- What a step is about: the stream of its handler, or of the frame that is received. -/
def Concerns (id : UUID) (s : JointTunnel) : JointAction → Prop
  | .openStream id' _ _ | .upload id' | .relayHandler id' _ | .browserMessage id' _ | .relayGetTask id'
  | .agentHandler id' _ | .localMessage id' _ => id' = id
  | .relayReceive => ∀ f ∈ s.toRelay.head?, f.requestId = id
  | .agentReceive => ∀ f ∈ s.toAgent.head?, f.requestId = id
  | .relayResumePut | .agentResumePut => False
  | .relayTearDown | .agentTearDown => True

theorem step_lane (env : AgentEnv) (metadata : UUID → Bytes) (a : JointAction)
    (h : s.step env metadata a = some t) (ha : ¬ Concerns id s a) :
    t.lane id = s.lane id ∧ t.webSocket id = s.webSocket id := by
  cases a with
  | openStream id' isWebSocket chunks =>
      have hne : id' ≠ id := ha
      obtain ⟨relay, hrelay, rfl⟩ := Option.map_eq_some_iff.mp h
      refine ⟨?_, by simp [Ne.symm hne]⟩
      exact lane_relay (RelayTunnel.step_untouched s.relay relay _ id hrelay hne) rfl rfl rfl rfl rfl
  | upload id' =>
      have hne : id' ≠ id := ha
      simp only [step] at h
      split at h
      · obtain ⟨⟨pc, out⟩, hsend, rfl⟩ := Option.map_eq_some_iff.mp h
        refine ⟨lane_relay (.refl id s.relay) rfl ?_ rfl rfl rfl, rfl⟩
        have hout : ∀ f ∈ out.toList, f.requestId = id' := by
          intro f hf
          have heq : out = some f := Option.mem_toList.mp hf
          subst heq
          rcases senderStep_frame id' (metadata id') _ pc f hsend with ⟨chunks, -, rfl⟩ | ⟨-, hf⟩
          · rfl
          · rw [hf]
        simp [framesOf_append, framesOf_nil_of_other hout hne]
      · cases h
  | relayHandler id' e =>
      have hne : id' ≠ id := ha
      simp only [step] at h
      split at h
      · cases h
      · obtain ⟨relay, hrelay, rfl⟩ := Option.map_eq_some_iff.mp h
        refine ⟨(lane_deliverBrowser _ _ hne).trans ?_, ?_⟩
        · refine lane_relay (RelayTunnel.step_untouched s.relay relay _ id hrelay hne) rfl ?_ rfl rfl rfl
          have hout := framesOf_nil_of_other
            (relaySends_requestId (metadata id') (s.webSocket id') (s.relay.handler id') e) hne
          simp [framesOf_append, hout]
        · obtain ⟨handler, browser, heq, -⟩ := deliverBrowser_cases _ id' _
          rw [heq]
  | browserMessage id' m =>
      have hne : id' ≠ id := ha
      obtain ⟨-, hforward⟩ := browserMessage_forward env metadata m h
      simp only [forwardBrowser] at hforward
      split at hforward
      · obtain ⟨relay, hrelay, rfl⟩ := Option.map_eq_some_iff.mp hforward
        refine ⟨?_, rfl⟩
        exact lane_relay (RelayTunnel.step_untouched s.relay relay _ id hrelay hne) rfl rfl rfl
          (by simp [Ne.symm hne]) rfl
      · cases hforward
        refine ⟨lane_relay (.refl id s.relay) rfl ?_ rfl (by simp [Ne.symm hne]) rfl, rfl⟩
        simp [framesOf, hne]
  | relayReceive =>
      simp only [step] at h
      split at h
      · rename_i f rest hframes
        have hne : f.requestId ≠ id := by simpa [Concerns, hframes] using ha
        obtain ⟨relay, hrelay, rfl⟩ := Option.map_eq_some_iff.mp h
        refine ⟨lane_relay (RelayTunnel.step_untouched s.relay relay _ id hrelay hne) rfl rfl ?_ rfl rfl, rfl⟩
        rw [hframes, framesOf_cons_ne id f rest hne]
      · cases h
  | relayResumePut =>
      obtain ⟨relay, hrelay, rfl⟩ := Option.map_eq_some_iff.mp h
      exact ⟨lane_relay (RelayTunnel.step_untouched s.relay relay _ id hrelay trivial) rfl rfl rfl rfl rfl, rfl⟩
  | relayGetTask id' =>
      have hne : id' ≠ id := ha
      obtain ⟨relay, hrelay, rfl⟩ := Option.map_eq_some_iff.mp h
      exact ⟨lane_relay (RelayTunnel.step_untouched s.relay relay _ id hrelay hne) rfl rfl rfl rfl rfl, rfl⟩
  | agentReceive =>
      simp only [step] at h
      split at h
      · rename_i f rest hframes
        have hne : f.requestId ≠ id := by simpa [Concerns, hframes] using ha
        obtain ⟨agent, hagent, rfl⟩ := Option.map_eq_some_iff.mp h
        refine ⟨Eq.trans ?_ (lane_moveAgent env s agent _ hagent hne), rfl⟩
        have hrest : framesOf id rest = framesOf id s.toAgent := by
          rw [hframes, framesOf_cons_ne id f rest hne]
        simp [lane, hrest, moveAgent]
      · cases h
  | agentResumePut =>
      obtain ⟨agent, hagent, rfl⟩ := Option.map_eq_some_iff.mp h
      exact ⟨lane_moveAgent env s agent _ hagent trivial, rfl⟩
  | agentHandler id' e =>
      have hne : id' ≠ id := ha
      simp only [step] at h
      split at h
      · cases h
      · obtain ⟨agent, hagent, rfl⟩ := Option.map_eq_some_iff.mp h
        refine ⟨(lane_deliverLocal _ _ hne).trans (lane_moveAgent env s agent _ hagent hne), ?_⟩
        obtain ⟨agent', localApp, heq, -⟩ := deliverLocal_cases (s.moveAgent agent) id' _
        rw [heq]
        rfl
  | localMessage id' m =>
      have hne : id' ≠ id := ha
      obtain ⟨agent, hagent, rfl⟩ := Option.map_eq_some_iff.mp h
      refine ⟨Eq.trans ?_ (lane_moveAgent env s agent _ hagent hne), rfl⟩
      simp [lane, Ne.symm hne, moveAgent]
  | relayTearDown | agentTearDown => exact absurd trivial ha

end Others

structure BridgeInv (id : UUID) (s : JointTunnel) : Prop where
  fresh : s.relay.handler id = .absent → (s.lane id).Idle
  socket : s.webSocket id = true → (s.lane id).Unsent ∨ (s.lane id).Live

theorem bridgeInv_init (id : UUID) : BridgeInv id init where
  fresh := fun _ => ⟨rfl, rfl, rfl, rfl, rfl, rfl, rfl, rfl, rfl⟩
  socket := by simp [init]

section Own

variable {s t : JointTunnel} {id : UUID}

theorem BridgeInv.of_lane (hinv : BridgeInv id s) (hlane : t.lane id = s.lane id)
    (hsocket : t.webSocket id = s.webSocket id) : BridgeInv id t := by
  have hrelay : t.relay.handler id = s.relay.handler id := congrArg BridgeLane.relay hlane
  refine ⟨?_, ?_⟩
  · rw [hlane, hrelay]
    exact hinv.fresh
  · rw [hlane, hsocket]
    exact hinv.socket

theorem BridgeInv.of_request (hsocket : t.webSocket id ≠ true) (hopened : t.relay.handler id ≠ .absent) :
    BridgeInv id t :=
  ⟨fun h => absurd h hopened, fun h => absurd h hsocket⟩

theorem BridgeInv.of_live (hopened : t.relay.handler id ≠ .absent) (hlive : (t.lane id).Live) :
    BridgeInv id t :=
  ⟨fun h => absurd h hopened, fun _ => .inr hlive⟩

theorem live_opened (h : (s.lane id).Live) : s.relay.handler id ≠ .absent := by
  have hrelay : s.relay.handler id = .wsStarting ∨
      ∃ iter, s.relay.handler id = .bridging iter ∧ iter.reads = true := h.relay
  rcases hrelay with hpc | ⟨iter, hpc, -⟩ <;> simp [hpc]

theorem bridgeInv_openStream (env : AgentEnv) (metadata : UUID → Bytes) (isWebSocket : Bool)
    (chunks : List Bytes) (hinv : BridgeInv id s)
    (h : s.step env metadata (.openStream id isWebSocket chunks) = some t) : BridgeInv id t := by
  obtain ⟨relay, hrelay, rfl⟩ := Option.map_eq_some_iff.mp h
  simp only [RelayTunnel.step] at hrelay
  split at hrelay
  · rename_i habsent
    have hidle := hinv.fresh habsent
    split at hrelay
    · rename_i conn hopen
      cases hrelay
      obtain ⟨hstate, -, hstreams, hloop⟩ := openStream_cases s.relay.conn conn id hopen
      have hbuffered : conn.buffered id = [] := by
        have hempty : s.relay.conn.buffered id = [] := hidle.relayBuffered
        simp only [buffered, List.append_eq_nil_iff] at hempty
        simpa [buffered, pendingPut, hloop, hstate, StreamState.fresh, BoundedQueue.empty] using hempty.2
      refine ⟨?_, ?_⟩
      · intro hpc
        cases isWebSocket <;> simp at hpc
      · intro hsocket
        simp only [Function.update_self] at hsocket
        subst hsocket
        have hunsent := hidle.opens .wsOpening (conn.buffered id) (conn.states id).closed
          (decide (id ∈ conn.streams)) hbuffered (.inr ⟨rfl, by simp [hstate, StreamState.fresh],
            by simp [hstreams]⟩)
        left
        simpa [lane] using hunsent
    · cases hrelay
      refine ⟨?_, ?_⟩
      · intro hpc
        simp at hpc
      · intro _
        have hunsent := hidle.opens .ended (s.relay.conn.buffered id) (s.relay.conn.states id).closed
          (decide (id ∈ s.relay.conn.streams)) hidle.relayBuffered (.inl rfl)
        left
        simpa [lane] using hunsent
  · cases hrelay

theorem unsent_positions (h : (s.lane id).Unsent) : s.relay.handler id = .absent ∨
    s.relay.handler id = .ended ∨ s.relay.handler id = .wsOpening := by
  rcases h.2 with hpc | hpc | ⟨hpc, -⟩
  · exact .inl hpc
  · exact .inr (.inl hpc)
  · exact .inr (.inr hpc)

theorem live_sends (env : AgentEnv) (metadata : UUID → Bytes) (e : ProxyEvent)
    (hunsent : (s.lane id).Unsent) (hconn : s.StaysConnected env id (.relayHandler id e))
    (h : s.step env metadata (.relayHandler id e) = some t) : (t.lane id).Live := by
  obtain ⟨-, habort, hrejected⟩ := hconn rfl
  rcases unsent_positions hunsent with hpc | hpc | hpc
  · cases e <;> simp [step, RelayTunnel.step, hpc, proxyStep] at h
  · cases e <;> simp [step, RelayTunnel.step, hpc, proxyStep] at h
  · cases e with
    | sent =>
        simp only [step, RelayTunnel.step, hpc, proxyStep, relaySends, relayChunk, deliverBrowser,
          leavesGetTask, Bool.or_false, Function.update_eq_self] at h
        cases h
        have hlive := hunsent.sends hpc ⟨.wsOpen, id, metadata id⟩ rfl
        simpa [lane, framesOf] using hlive
    | sendRejected => exact absurd rfl hrejected
    | abort => exact absurd rfl habort
    | _ => simp [step, RelayTunnel.step, hpc, proxyStep] at h

theorem live_relayHandler (env : AgentEnv) (metadata : UUID → Bytes) (e : ProxyEvent)
    (hlive : (s.lane id).Live) (hconn : s.StaysConnected env id (.relayHandler id e))
    (h : s.step env metadata (.relayHandler id e) = some t) : (t.lane id).Live := by
  obtain ⟨hend, habort, -⟩ := hconn rfl
  have hmem : id ∈ s.relay.conn.streams := by simpa [lane] using hlive.inRelay
  have hopen : (s.relay.conn.states id).closed = false := hlive.relayClosed
  have hrelay : s.relay.handler id = .wsStarting ∨
      ∃ iter, s.relay.handler id = .bridging iter ∧ iter.reads = true := hlive.relay
  rcases hrelay with hpc | ⟨iter, hpc, hreads⟩
  · cases e with
    | startBody =>
        simp only [step, RelayTunnel.step, hpc, proxyStep, relaySends, relayChunk, deliverBrowser,
          leavesGetTask, Bool.or_false, Function.update_eq_self, startIter_of_mem _ _ _ _ hmem] at h
        cases h
        simpa [lane] using hlive.startBridge hpc
    | bridgeEnd => exact absurd rfl hend
    | abort => exact absurd rfl habort
    | _ => simp [step, RelayTunnel.step, hpc, proxyStep] at h
  · cases e with
    | iter e' =>
        have hguard : ¬ (s.relay.handler id = .sendingRequest ∧ ProxyEvent.iter e' = .sent ∧
            s.upload id ≠ .sent) := by simp [hpc]
        rw [step, if_neg hguard] at h
        obtain ⟨relay, hrelay, rfl⟩ := Option.map_eq_some_iff.mp h
        obtain ⟨⟨conn, pc⟩, hproxy, rfl⟩ := Option.map_eq_some_iff.mp hrelay
        rw [hpc] at hproxy
        obtain ⟨⟨conn', iter', out⟩, hiter, heq⟩ := Option.map_eq_some_iff.mp hproxy
        obtain ⟨hreads', hfinished, hclosed, hstreams⟩ :=
          iterStep_open s.relay.conn conn' id iter iter' e' out hiter hreads hopen
        simp only [if_neg hfinished, Prod.mk.injEq] at heq
        obtain ⟨rfl, rfl⟩ := heq
        have hbuffered := iterStep_buffered s.relay.conn conn' id iter iter' e' out hiter
        cases out with
        | none =>
            have hnext := hlive.relayIter iter iter' (conn'.buffered id) hpc hreads' hbuffered
            simpa [lane, hpc, relaySends, relayChunk, hiter, deliverBrowser, leavesGetTask, hclosed, hopen,
              hstreams] using hnext
        | some chunk =>
            obtain ⟨m, hdecode, hnext⟩ :=
              hlive.relayYields iter iter' chunk (conn'.buffered id) hpc hreads' hbuffered
            simpa [lane, hpc, relaySends, relayChunk, hiter, deliverBrowser, hdecode, leavesGetTask, hclosed,
              hopen, hstreams] using hnext
    | bridgeEnd => exact absurd rfl hend
    | abort => exact absurd rfl habort
    | _ => simp [step, RelayTunnel.step, hpc, proxyStep] at h

theorem live_of_browserMessage (env : AgentEnv) (metadata : UUID → Bytes) (m : WsMessage)
    (hphase : (s.lane id).Unsent ∨ (s.lane id).Live)
    (h : s.step env metadata (.browserMessage id m) = some t) : (s.lane id).Live := by
  obtain ⟨hpc, -⟩ := browserMessage_forward env metadata m h
  rcases hphase with hunsent | hlive
  · have hrelay := unsent_positions hunsent
    rcases hpc with ⟨iter, hpc⟩ | hpc <;> simp [hpc] at hrelay
  · exact hlive

theorem live_browserMessage (env : AgentEnv) (metadata : UUID → Bytes) (m : WsMessage)
    (hlive : (s.lane id).Live) (hfits : m.size < maxPayloadBytes)
    (h : s.step env metadata (.browserMessage id m) = some t) : (t.lane id).Live := by
  obtain ⟨-, hforward⟩ := browserMessage_forward env metadata m h
  have hsize : ¬ maxPayloadBytes < m.encode.length := by
    rw [m.encode_length]
    omega
  simp only [forwardBrowser, if_neg hsize] at hforward
  cases hforward
  simpa [lane, framesOf] using hlive.browserMessage id m

theorem live_relayReceive (env : AgentEnv) (metadata : UUID → Bytes) (f : Frame) (rest : List Frame)
    (hlive : (s.lane id).Live) (hframes : s.toRelay = f :: rest) (hid : f.requestId = id)
    (h : s.step env metadata .relayReceive = some t) : (t.lane id).Live := by
  have hmem : f.requestId ∈ s.relay.conn.streams := by simpa [lane, hid] using hlive.inRelay
  have hto : (s.lane id).toRelay = f :: framesOf id rest := by
    subst hid
    simp [lane, hframes, framesOf_cons_self]
  obtain ⟨hdata, -⟩ := OnlyWsData.tail (hto ▸ hlive.onlyWsData)
  simp only [step, hframes, RelayTunnel.step] at h
  split at h
  · rename_i hloop
    cases h
    have hput := dispatchFrame_put s.relay.conn f (by simp [hdata, FrameType.carriesData]) hmem
    have hbuffered : s.relay.conn.buffered id = (s.relay.conn.states id).queue.items := by
      simp [buffered, pendingPut, hloop]
    have hnext := hlive.relayReceive f (framesOf id rest) hto
    simpa [lane, hput, putPayload_buffered, putPayload_closed, hid, hbuffered] using hnext
  · cases h

theorem live_agentReceive (env : AgentEnv) (metadata : UUID → Bytes) (f : Frame) (rest : List Frame)
    (hlive : (s.lane id).Live) (hframes : s.toAgent = f :: rest) (hid : f.requestId = id)
    (hconn : s.StaysConnected env id .agentReceive) (h : s.step env metadata .agentReceive = some t) :
    (t.lane id).Live := by
  have hto : (s.lane id).toAgent = f :: framesOf id rest := by
    subst hid
    simp [lane, hframes, framesOf_cons_self]
  simp only [step, hframes, AgentTunnel.step] at h
  split at h
  · rename_i hloop
    rcases hlive.agentSide with hside | hside
    · -- The first frame of the stream is its WS_OPEN, and there is room for it.
      obtain ⟨f', rest', hto', hopen, -⟩ := hside.toAgent
      rw [hto] at hto'
      cases hto'
      obtain ⟨hvalid, hroom⟩ := hconn f (by simp [hframes]) hid hopen
      have habsent : s.agent.handler id = .absent := hside.agent
      have hnot : id ∉ s.agent.conn.streams := by simpa [lane] using hside.inAgent
      obtain ⟨conn, hok⟩ := openStream_of_room s.agent.conn id hnot hroom
      obtain ⟨hstate, -, hstreams, hkeep⟩ := openStream_cases s.agent.conn conn id hok
      simp only [AgentTunnel.onFrame, hopen, hid, habsent, hvalid, AgentTunnel.spawn, hok] at h
      cases h
      have hbuffered : conn.buffered id = [] := by
        simp [buffered, pendingPut, hkeep, hloop, hstate, StreamState.fresh, BoundedQueue.empty]
      have hnext := hlive.accept hside f (framesOf id rest) hto
      simpa [lane, moveAgent, AgentTunnel.setHandler, hbuffered, hstate, StreamState.fresh, hstreams]
        using hnext
    · obtain ⟨hdata, -⟩ := OnlyWsData.tail (hto ▸ hside.toAgent)
      have hmem : f.requestId ∈ s.agent.conn.streams := by simpa [lane, hid] using hside.inAgent
      have hput := dispatchFrame_put s.agent.conn f (by simp [hdata, FrameType.carriesData]) hmem
      simp only [AgentTunnel.onFrame, hdata] at h
      cases h
      have hbuffered : s.agent.conn.buffered id = (s.agent.conn.states id).queue.items := by
        simp [buffered, pendingPut, hloop]
      have hnext := hlive.agentReceive hside f (framesOf id rest) hto
      simpa [lane, moveAgent, hput, putPayload_buffered, putPayload_closed, hid, hbuffered] using hnext
  · cases h

theorem accepted_of_step (env : AgentEnv) (e : AgentEvent) (agent : AgentTunnel)
    (hphase : (s.lane id).Unsent ∨ (s.lane id).Live)
    (h : s.agent.step env (.handler id e) = some agent) : (s.lane id).Live ∧ (s.lane id).Accepted := by
  obtain ⟨⟨conn, pc, out⟩, hstep, -⟩ := Option.map_eq_some_iff.mp h
  have hpc := (agentStep_opened env s.agent.conn conn id _ pc e out hstep).1
  rcases hphase with ⟨hidle, -⟩ | hlive
  · exact absurd hidle.agent hpc
  · rcases hlive.agentSide with hside | hside
    · exact absurd hside.agent hpc
    · exact ⟨hlive, hside⟩

theorem live_agentHandler (env : AgentEnv) (metadata : UUID → Bytes) (e : AgentEvent)
    (hphase : (s.lane id).Unsent ∨ (s.lane id).Live)
    (hconn : s.StaysConnected env id (.agentHandler id e))
    (h : s.step env metadata (.agentHandler id e) = some t) : (t.lane id).Live := by
  obtain ⟨hend, hcancel, hrefused, -⟩ := hconn rfl
  simp only [step] at h
  split at h
  · cases h
  · rename_i hmessage
    obtain ⟨agent, hagent, rfl⟩ := Option.map_eq_some_iff.mp h
    obtain ⟨hlive, hside⟩ := accepted_of_step env e agent hphase hagent
    obtain ⟨⟨conn, pc, frames⟩, hstep, rfl⟩ := Option.map_eq_some_iff.mp hagent
    have hmem : id ∈ s.agent.conn.streams := by simpa [lane] using hside.inAgent
    have hopen : (s.agent.conn.states id).closed = false := hside.agentClosed
    have hpos : s.agent.handler id = .wsSpawned ∨ s.agent.handler id = .wsConnecting ∨
        s.agent.handler id = .wsStarting ∨
        ∃ iter, s.agent.handler id = .wsBridging iter ∧ iter.reads = true := hside.agent
    rcases hpos with hpc | hpc | hpc | ⟨iter, hpc, hreads⟩ <;> rw [hpc] at hstep
    · cases e with
      | start =>
          cases hstep
          have hheld : heldByAgent (s.lane id).agent = [] := by simp [lane, hpc, heldByAgent]
          have hnext := hlive.agentMoves hside .wsConnecting hheld (.inl rfl)
          simpa [lane, moveAgent, hpc, agentChunk, deliverLocal, AgentTunnel.setHandler] using hnext
      | cancel => exact absurd rfl hcancel
      | _ => cases hstep
    · cases e with
      | connected =>
          cases hstep
          have hheld : heldByAgent (s.lane id).agent = [] := by simp [lane, hpc, heldByAgent]
          have hnext := hlive.agentMoves hside .wsStarting hheld (.inr (.inl rfl))
          simpa [lane, moveAgent, hpc, agentChunk, deliverLocal, AgentTunnel.setHandler] using hnext
      | connectFailed => exact absurd rfl hrefused
      | cancel => exact absurd rfl hcancel
      | _ => cases hstep
    · cases e with
      | start =>
          simp only [agentStep, getStream, if_pos hmem] at hstep
          cases hstep
          have hheld : heldByAgent (s.lane id).agent = [] := by simp [lane, hpc, heldByAgent]
          have hnext := hlive.agentMoves hside _ hheld (.inr (.inr rfl))
          simpa [lane, moveAgent, hpc, agentChunk, deliverLocal, AgentTunnel.setHandler] using hnext
      | cancel => exact absurd rfl hcancel
      | _ => cases hstep
    · cases e with
      | iter e' =>
          obtain ⟨⟨conn', iter', out⟩, hiter, heq⟩ := Option.map_eq_some_iff.mp hstep
          obtain ⟨hreads', hfinished, hclosed, hstreams⟩ :=
            iterStep_open s.agent.conn conn' id iter iter' e' out hiter hreads hopen
          simp only [if_neg hfinished, Prod.mk.injEq] at heq
          obtain ⟨rfl, rfl, rfl⟩ := heq
          have hbuffered := iterStep_buffered s.agent.conn conn' id iter iter' e' out hiter
          cases out with
          | none =>
              have hnext := hlive.agentIter hside iter iter' (conn'.buffered id) hpc hreads' hbuffered
              simpa [lane, moveAgent, hpc, agentChunk, hiter, deliverLocal, AgentTunnel.setHandler, hclosed,
                hopen, hstreams] using hnext
          | some chunk =>
              obtain ⟨m, hdecode, hnext⟩ :=
                hlive.agentYields hside iter iter' chunk (conn'.buffered id) hpc hreads' hbuffered
              simpa [lane, moveAgent, hpc, agentChunk, hiter, deliverLocal, hdecode, AgentTunnel.setHandler,
                hclosed, hopen, hstreams] using hnext
      | localMessage payload => exact absurd rfl (hmessage payload)
      | bridgeEnd => exact absurd rfl hend
      | cancel => exact absurd rfl hcancel
      | _ => cases hstep

theorem localMessage_bridging (env : AgentEnv) (m : WsMessage) (agent : AgentTunnel)
    (hside : (s.lane id).Accepted)
    (h : s.agent.step env (.handler id (.localMessage m.encode)) = some agent) :
    ∃ iter, s.agent.handler id = .wsBridging iter := by
  obtain ⟨⟨conn, pc, frames⟩, hstep, -⟩ := Option.map_eq_some_iff.mp h
  have hpos : s.agent.handler id = .wsSpawned ∨ s.agent.handler id = .wsConnecting ∨
      s.agent.handler id = .wsStarting ∨
      ∃ iter, s.agent.handler id = .wsBridging iter ∧ iter.reads = true := hside.agent
  rcases hpos with hpc | hpc | hpc | ⟨iter, hpc, -⟩
  · rw [hpc] at hstep
    cases hstep
  · rw [hpc] at hstep
    cases hstep
  · rw [hpc] at hstep
    cases hstep
  · exact ⟨iter, hpc⟩

theorem live_localMessage (env : AgentEnv) (metadata : UUID → Bytes) (m : WsMessage)
    (hphase : (s.lane id).Unsent ∨ (s.lane id).Live) (hfits : m.size < maxPayloadBytes)
    (h : s.step env metadata (.localMessage id m) = some t) : (t.lane id).Live := by
  obtain ⟨agent, hagent, rfl⟩ := Option.map_eq_some_iff.mp h
  obtain ⟨hlive, hside⟩ := accepted_of_step env _ agent hphase hagent
  obtain ⟨iter, hpc⟩ := localMessage_bridging env m agent hside hagent
  have hsize : ¬ maxPayloadBytes < m.encode.length := by
    rw [m.encode_length]
    omega
  simp only [AgentTunnel.step, hpc, agentStep, if_neg hsize] at hagent
  cases hagent
  have hhandler : Function.update s.agent.handler id (.wsBridging iter) = s.agent.handler := by
    rw [← hpc, Function.update_eq_self]
  simpa [lane, moveAgent, AgentTunnel.setHandler, hhandler, framesOf] using hlive.localMessage hside id m

theorem BridgeInv.opened_of_toRelay (hinv : BridgeInv id s) (f : Frame) (rest : List Frame)
    (hframes : s.toRelay = f :: rest) (hid : f.requestId = id) : s.relay.handler id ≠ .absent := by
  intro habsent
  have hnone : framesOf id s.toRelay = [] := (hinv.fresh habsent).toRelay
  subst hid
  simp [hframes, framesOf_cons_self] at hnone

theorem BridgeInv.opened_of_toAgent (hinv : BridgeInv id s) (f : Frame) (rest : List Frame)
    (hframes : s.toAgent = f :: rest) (hid : f.requestId = id) : s.relay.handler id ≠ .absent := by
  intro habsent
  have hnone : framesOf id s.toAgent = [] := (hinv.fresh habsent).toAgent
  subst hid
  simp [hframes, framesOf_cons_self] at hnone

theorem BridgeInv.opened_of_agent (env : AgentEnv) (hinv : BridgeInv id s) (e : AgentEvent)
    (agent : AgentTunnel) (h : s.agent.step env (.handler id e) = some agent) :
    s.relay.handler id ≠ .absent := by
  intro habsent
  obtain ⟨⟨conn, pc, out⟩, hstep, -⟩ := Option.map_eq_some_iff.mp h
  exact (agentStep_opened env s.agent.conn conn id _ pc e out hstep).1 (hinv.fresh habsent).agent

theorem bridgeInv_upload (env : AgentEnv) (metadata : UUID → Bytes) (hinv : BridgeInv id s)
    (h : s.step env metadata (.upload id) = some t) : BridgeInv id t := by
  simp only [step] at h
  split at h
  · rename_i hsending
    obtain ⟨⟨pc, out⟩, -, rfl⟩ := Option.map_eq_some_iff.mp h
    refine .of_request ?_ (by simp [hsending])
    intro hsocket
    rcases hinv.socket hsocket with ⟨-, hpos⟩ | hlive
    · simp [lane, hsending] at hpos
    · have hrelay := hlive.relay
      simp [lane, hsending] at hrelay
  · cases h

theorem bridgeInv_relayHandler (env : AgentEnv) (metadata : UUID → Bytes) (e : ProxyEvent)
    (hinv : BridgeInv id s) (hconn : s.StaysConnected env id (.relayHandler id e))
    (h : s.step env metadata (.relayHandler id e) = some t) : BridgeInv id t := by
  by_cases hsocket : s.webSocket id = true
  · have hlive : (t.lane id).Live := by
      rcases hinv.socket hsocket with hunsent | hlive
      · exact live_sends env metadata e hunsent hconn h
      · exact live_relayHandler env metadata e hlive hconn h
    exact .of_live (live_opened hlive) hlive
  · obtain ⟨conn, pc, pc', getTask, browser, hstep, hpc', rfl⟩ :=
      step_relayHandler_cases env metadata s t id e h
    refine .of_request hsocket ?_
    rcases hpc' with rfl | rfl
    · simpa using proxyStep_opened s.relay.conn conn id _ pc' e hstep
    · simp

theorem bridgeInv_browserMessage (env : AgentEnv) (metadata : UUID → Bytes) (m : WsMessage)
    (hinv : BridgeInv id s) (hfits : s.MessageFits id (.browserMessage id m))
    (h : s.step env metadata (.browserMessage id m) = some t) : BridgeInv id t := by
  by_cases hsocket : s.webSocket id = true
  · have hbefore := live_of_browserMessage env metadata m (hinv.socket hsocket) h
    have hlive := live_browserMessage env metadata m hbefore (hfits rfl hsocket) h
    exact .of_live (live_opened hlive) hlive
  · obtain ⟨hpc, hforward⟩ := browserMessage_forward env metadata m h
    have hopened : s.relay.handler id ≠ .absent := by
      rcases hpc with ⟨iter, hpc⟩ | hpc <;> simp [hpc]
    simp only [forwardBrowser] at hforward
    split at hforward
    · obtain ⟨relay, hrelay, rfl⟩ := Option.map_eq_some_iff.mp hforward
      obtain ⟨⟨conn, pc⟩, hproxy, rfl⟩ := Option.map_eq_some_iff.mp hrelay
      exact .of_request hsocket (by simpa using proxyStep_opened s.relay.conn conn id _ pc _ hproxy)
    · cases hforward
      exact .of_request hsocket hopened

theorem bridgeInv_relayReceive (env : AgentEnv) (metadata : UUID → Bytes) (f : Frame) (rest : List Frame)
    (hinv : BridgeInv id s) (hframes : s.toRelay = f :: rest) (hid : f.requestId = id)
    (h : s.step env metadata .relayReceive = some t) : BridgeInv id t := by
  by_cases hsocket : s.webSocket id = true
  · rcases hinv.socket hsocket with ⟨hidle, -⟩ | hlive
    · have hnone : framesOf id s.toRelay = [] := hidle.toRelay
      subst hid
      simp [hframes, framesOf_cons_self] at hnone
    · have hnext := live_relayReceive env metadata f rest hlive hframes hid h
      exact .of_live (live_opened hnext) hnext
  · have hopened := hinv.opened_of_toRelay f rest hframes hid
    simp only [step, hframes, RelayTunnel.step] at h
    split at h
    · cases h
      exact .of_request hsocket hopened
    · cases h

theorem bridgeInv_agentReceive (env : AgentEnv) (metadata : UUID → Bytes) (f : Frame) (rest : List Frame)
    (hinv : BridgeInv id s) (hframes : s.toAgent = f :: rest) (hid : f.requestId = id)
    (hconn : s.StaysConnected env id .agentReceive) (h : s.step env metadata .agentReceive = some t) :
    BridgeInv id t := by
  by_cases hsocket : s.webSocket id = true
  · rcases hinv.socket hsocket with ⟨hidle, -⟩ | hlive
    · have hnone : framesOf id s.toAgent = [] := hidle.toAgent
      subst hid
      simp [hframes, framesOf_cons_self] at hnone
    · have hnext := live_agentReceive env metadata f rest hlive hframes hid hconn h
      exact .of_live (live_opened hnext) hnext
  · have hopened := hinv.opened_of_toAgent f rest hframes hid
    simp only [step, hframes] at h
    obtain ⟨agent, -, rfl⟩ := Option.map_eq_some_iff.mp h
    exact .of_request hsocket hopened

theorem bridgeInv_relayGetTask (env : AgentEnv) (metadata : UUID → Bytes) (hinv : BridgeInv id s)
    (h : s.step env metadata (.relayGetTask id) = some t) : BridgeInv id t := by
  obtain ⟨relay, hrelay, rfl⟩ := Option.map_eq_some_iff.mp h
  simp only [RelayTunnel.step] at hrelay
  split at hrelay
  · rename_i htask
    obtain ⟨taken, -, rfl⟩ := Option.map_eq_some_iff.mp hrelay
    have hno : (s.lane id).getTask ≠ false := by simp [lane, htask]
    refine .of_request ?_ ?_
    · intro hsocket
      rcases hinv.socket hsocket with ⟨hidle, -⟩ | hlive
      · exact hno hidle.getTask
      · exact hno hlive.getTask
    · intro habsent
      exact hno (hinv.fresh habsent).getTask
  · cases hrelay

theorem bridgeInv_agentHandler (env : AgentEnv) (metadata : UUID → Bytes) (e : AgentEvent)
    (hinv : BridgeInv id s) (hconn : s.StaysConnected env id (.agentHandler id e))
    (h : s.step env metadata (.agentHandler id e) = some t) : BridgeInv id t := by
  by_cases hsocket : s.webSocket id = true
  · have hnext := live_agentHandler env metadata e (hinv.socket hsocket) hconn h
    exact .of_live (live_opened hnext) hnext
  · simp only [step] at h
    split at h
    · cases h
    · obtain ⟨agent, hagent, rfl⟩ := Option.map_eq_some_iff.mp h
      have hopened := hinv.opened_of_agent env e agent hagent
      obtain ⟨agent', localApp, heq, -⟩ := deliverLocal_cases (s.moveAgent agent) id
        (agentChunk s.agent.conn id (s.agent.handler id) e)
      rw [heq]
      exact .of_request hsocket hopened

theorem bridgeInv_localMessage (env : AgentEnv) (metadata : UUID → Bytes) (m : WsMessage)
    (hinv : BridgeInv id s) (hfits : s.MessageFits id (.localMessage id m))
    (h : s.step env metadata (.localMessage id m) = some t) : BridgeInv id t := by
  by_cases hsocket : s.webSocket id = true
  · have hnext := live_localMessage env metadata m (hinv.socket hsocket) (hfits rfl hsocket) h
    exact .of_live (live_opened hnext) hnext
  · obtain ⟨agent, hagent, rfl⟩ := Option.map_eq_some_iff.mp h
    have hopened := hinv.opened_of_agent env _ agent hagent
    exact .of_request hsocket hopened

theorem bridgeInv_step (env : AgentEnv) (metadata : UUID → Bytes) (id : UUID) (s : JointTunnel)
    (a : JointAction) (t : JointTunnel) (hinv : BridgeInv id s) (hconn : s.StaysConnected env id a)
    (hfits : s.MessageFits id a) (h : s.step env metadata a = some t) : BridgeInv id t := by
  by_cases hid : Concerns id s a
  · cases a with
    | openStream id' isWebSocket chunks =>
        cases hid
        exact bridgeInv_openStream env metadata isWebSocket chunks hinv h
    | upload id' =>
        cases hid
        exact bridgeInv_upload env metadata hinv h
    | relayHandler id' e =>
        cases hid
        exact bridgeInv_relayHandler env metadata e hinv hconn h
    | browserMessage id' m =>
        cases hid
        exact bridgeInv_browserMessage env metadata m hinv hfits h
    | relayReceive =>
        cases hframes : s.toRelay with
        | nil => simp [step, hframes] at h
        | cons f rest =>
            exact bridgeInv_relayReceive env metadata f rest hinv hframes (hid f (by simp [hframes])) h
    | relayGetTask id' =>
        cases hid
        exact bridgeInv_relayGetTask env metadata hinv h
    | agentReceive =>
        cases hframes : s.toAgent with
        | nil => simp [step, hframes] at h
        | cons f rest =>
            exact bridgeInv_agentReceive env metadata f rest hinv hframes (hid f (by simp [hframes]))
              hconn h
    | agentHandler id' e =>
        cases hid
        exact bridgeInv_agentHandler env metadata e hinv hconn h
    | localMessage id' m =>
        cases hid
        exact bridgeInv_localMessage env metadata m hinv hfits h
    | relayResumePut | agentResumePut => exact hid.elim
    | relayTearDown | agentTearDown => exact hconn.elim
  · obtain ⟨hlane, hsocket⟩ := step_lane env metadata a h hid
    exact hinv.of_lane hlane hsocket

theorem BridgeInv.faithful (hinv : BridgeInv id s) : BridgeFaithful id s := by
  intro hsocket
  rcases hinv.socket hsocket with hunsent | hlive
  · exact hunsent.faithful
  · exact hlive.faithful

theorem not_faithful_browserMessage (env : AgentEnv) (metadata : UUID → Bytes) (m : WsMessage)
    (hsocket : s.webSocket id = true) (hlive : (s.lane id).Live) (hlarge : ¬ m.size < maxPayloadBytes)
    (h : s.step env metadata (.browserMessage id m) = some t) : ¬ BridgeFaithful id t := by
  obtain ⟨-, hforward⟩ := browserMessage_forward env metadata m h
  have hsize : maxPayloadBytes < m.encode.length := by
    rw [m.encode_length]
    omega
  simp only [forwardBrowser, if_pos hsize] at hforward
  obtain ⟨relay, -, rfl⟩ := Option.map_eq_some_iff.mp hforward
  intro hfaithful
  have hcarried := (hfaithful hsocket).toLocal
  simp only [lane, Function.update_self, Endpoint.send] at hcarried
  exact hlive.toLocal.not_carried_of_lost m hcarried

theorem not_faithful_localMessage (env : AgentEnv) (metadata : UUID → Bytes) (m : WsMessage)
    (hsocket : s.webSocket id = true) (hphase : (s.lane id).Unsent ∨ (s.lane id).Live)
    (hlarge : ¬ m.size < maxPayloadBytes) (h : s.step env metadata (.localMessage id m) = some t) :
    ¬ BridgeFaithful id t := by
  obtain ⟨agent, hagent, rfl⟩ := Option.map_eq_some_iff.mp h
  obtain ⟨hlive, hside⟩ := accepted_of_step env _ agent hphase hagent
  obtain ⟨iter, hpc⟩ := localMessage_bridging env m agent hside hagent
  have hsize : maxPayloadBytes < m.encode.length := by
    rw [m.encode_length]
    omega
  simp only [AgentTunnel.step, hpc, agentStep, if_pos hsize] at hagent
  cases hagent
  intro hfaithful
  have hcarried := (hfaithful hsocket).toBrowser
  simp only [lane, moveAgent, AgentTunnel.setHandler, List.append_nil, List.drop_length,
    Function.update_self, Endpoint.send] at hcarried
  exact hlive.toBrowser.not_carried_of_lost m hcarried

theorem exists_step_browserMessage (env : AgentEnv) (metadata : UUID → Bytes) (m : WsMessage)
    (iter : IterPc) (hpc : s.relay.handler id = .bridging iter) (hlarge : ¬ m.size < maxPayloadBytes) :
    ∃ t, s.step env metadata (.browserMessage id m) = some t := by
  have hsize : maxPayloadBytes < m.encode.length := by
    rw [m.encode_length]
    omega
  simp [step, hpc, forwardBrowser, hsize, RelayTunnel.step, proxyStep]

theorem not_faithful_step (env : AgentEnv) (metadata : UUID → Bytes) (id : UUID) (s : JointTunnel)
    (a : JointAction) (t : JointTunnel) (hinv : BridgeInv id s) (hlarge : ¬ s.MessageFits id a)
    (h : s.step env metadata a = some t) : ¬ BridgeFaithful id t := by
  cases a with
  | browserMessage id' m =>
      simp only [MessageFits, Classical.not_imp] at hlarge
      obtain ⟨rfl, hsocket, hlarge⟩ := hlarge
      have hlive := live_of_browserMessage env metadata m (hinv.socket hsocket) h
      exact not_faithful_browserMessage env metadata m hsocket hlive hlarge h
  | localMessage id' m =>
      simp only [MessageFits, Classical.not_imp] at hlarge
      obtain ⟨rfl, hsocket, hlarge⟩ := hlarge
      exact not_faithful_localMessage env metadata m hsocket (hinv.socket hsocket) hlarge h
  | _ => exact absurd trivial hlarge

end Own

/-- While both ends stay connected, a bridge is faithful in every state exactly if every message that
it reads fits into a frame together with its marker. -/
theorem bridge_faithful_iff (env : AgentEnv) (metadata : UUID → Bytes) (id : UUID)
    (acts : List JointAction) (u : JointTunnel)
    (hconn : TransitionSystem.Guarded (step env metadata) (StaysConnected env id) init acts)
    (hrun : TransitionSystem.run (step env metadata) init acts = some u) :
    TransitionSystem.Throughout (step env metadata) (BridgeFaithful id) init acts ↔
      TransitionSystem.Guarded (step env metadata) (MessageFits id) init acts :=
  TransitionSystem.throughout_iff_guarded_of_allowed (step env metadata) (StaysConnected env id)
    (MessageFits id) (BridgeInv id) (BridgeFaithful id) (fun _ hinv => hinv.faithful)
    (bridgeInv_step env metadata id)
    (fun s a t hinv _ hlarge h => not_faithful_step env metadata id s a t hinv hlarge h)
    (bridgeInv_init id) hconn hrun

/-- A WebSocket up to the start of its two bridges. -/
def openedBridge : List JointAction :=
  [.openStream 1 true [], .relayHandler 1 .sent, .relayHandler 1 .startBody, .agentReceive,
    .agentHandler 1 .start, .agentHandler 1 .connected, .agentHandler 1 .start]

/-- A text for the local application and its binary answer. -/
def shortTalk : List JointAction :=
  openedBridge ++
    [.browserMessage 1 (.text "hi"), .agentReceive, .agentHandler 1 (.iter .getTask),
      .agentHandler 1 (.iter .resume), .localMessage 1 (.binary [1, 2]), .relayReceive,
      .relayHandler 1 (.iter .getTask), .relayHandler 1 (.iter .resume)]

theorem bridge_faithful_iff_shortTalk :
    ∃ u, TransitionSystem.run (step (AgentTunnel.plainEnv AgentTunnel.hello) fun _ => []) init shortTalk =
        some u ∧
      TransitionSystem.Guarded (step (AgentTunnel.plainEnv AgentTunnel.hello) fun _ => [])
        (StaysConnected (AgentTunnel.plainEnv AgentTunnel.hello) 1) init shortTalk ∧
      TransitionSystem.Throughout (step (AgentTunnel.plainEnv AgentTunnel.hello) fun _ => [])
        (BridgeFaithful 1) init shortTalk := by
  have hrun : (TransitionSystem.run (step (AgentTunnel.plainEnv AgentTunnel.hello) fun _ => []) init
      shortTalk).isSome = true := by decide +kernel
  obtain ⟨u, hu⟩ := Option.isSome_iff_exists.mp hrun
  have hconn : TransitionSystem.Guarded (step (AgentTunnel.plainEnv AgentTunnel.hello) fun _ => [])
      (StaysConnected (AgentTunnel.plainEnv AgentTunnel.hello) 1) init shortTalk := by decide +kernel
  exact ⟨u, hu, hconn, (bridge_faithful_iff _ _ 1 shortTalk u hconn hu).mpr (by decide +kernel)⟩

/-- A binary message of exactly `MAX_PAYLOAD_BYTES`. -/
def largeMessage : WsMessage := .binary (List.replicate maxPayloadBytes 0)

theorem bridge_not_faithful : ¬ ∀ (env : AgentEnv) (metadata : UUID → Bytes) (id : UUID)
    (acts : List JointAction),
    TransitionSystem.Guarded (step env metadata) (StaysConnected env id) init acts →
      TransitionSystem.Throughout (step env metadata) (BridgeFaithful id) init acts := by
  intro hfaithful
  let env := AgentTunnel.plainEnv AgentTunnel.hello
  let metadata : UUID → Bytes := fun _ => []
  have hconn : TransitionSystem.Guarded (step env metadata) (StaysConnected env 1) init openedBridge := by
    decide +kernel
  have hfits : TransitionSystem.Guarded (step env metadata) (MessageFits 1) init openedBridge := by
    decide +kernel
  have hopened : (TransitionSystem.run (step env metadata) init openedBridge).map
      (fun s => (s.relay.handler 1, s.webSocket 1)) = some (.bridging (.waiting none false), true) := by
    decide +kernel
  obtain ⟨s, hrun, hs⟩ := Option.map_eq_some_iff.mp hopened
  obtain ⟨hpc, hsocket⟩ := Prod.mk.inj hs
  have hinv : BridgeInv 1 s := by
    refine TransitionSystem.run_invariant_of_guarded (step env metadata)
      (fun s a => s.StaysConnected env 1 a ∧ s.MessageFits 1 a) (BridgeInv 1) ?_ (bridgeInv_init 1)
      (hconn.and hfits) hrun
    intro s a t hinv hcond h
    exact bridgeInv_step env metadata 1 s a t hinv hcond.1 hcond.2 h
  have hlarge : ¬ largeMessage.size < maxPayloadBytes := by simp [largeMessage, WsMessage.size]
  obtain ⟨t, ht⟩ := exists_step_browserMessage env metadata largeMessage _ hpc hlarge
  have hlost := not_faithful_step env metadata 1 s (.browserMessage 1 largeMessage) t hinv
    (fun hfits => hlarge (hfits rfl hsocket)) ht
  refine hlost ((hfaithful env metadata 1 (openedBridge ++ [.browserMessage 1 largeMessage]) ?_).last
    (TransitionSystem.run_append_of_eq_some _ hrun ?_))
  · exact hconn.append fun _ _ => ⟨trivial, fun _ _ => trivial⟩
  · rw [TransitionSystem.run_cons, ht]
    rfl

end JointTunnel

end NetworkFileServer.Tunnel
