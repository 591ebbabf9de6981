import Mathlib.Data.List.Perm.Subperm
import NetworkFileServer.Tunnel.Joint

/-!
# OPEN frames at the limit of the agent's table

The relay checks `MAX_STREAMS` against its own table, the agent against its own. A stream is
outstanding while the relay may still open it, while its OPEN is on its way, and while it is in the
table of the agent. As long as the relay opens a stream only below `MAX_STREAMS` outstanding ones,
`open_stream` never raises in `on_open` or `on_ws_open`.
-/

namespace NetworkFileServer.Tunnel

open Relay Agent TunnelConnection

/-- The streams that are opened by the frames. -/
def openIds (frames : List Frame) : List UUID :=
  (frames.filter (·.type.opensStream)).map (·.requestId)

@[simp] theorem openIds_append (fs gs : List Frame) : openIds (fs ++ gs) = openIds fs ++ openIds gs := by
  simp [openIds]

namespace JointTunnel

/-- The relay has registered the stream and its OPEN is still to be sent. -/
def mayOpen (s : JointTunnel) (id : UUID) : Bool :=
  match s.relay.handler id, s.upload id with
  | .wsOpening, _ => true
  | .sendingRequest, .opening _ => true
  | _, _ => false

def isOutstanding (s : JointTunnel) (id : UUID) : Bool :=
  s.mayOpen id || decide (id ∈ openIds s.toAgent) || decide (id ∈ s.agent.conn.streams)

/-- How many streams the agent may have to hold at once. -/
def outstanding (s : JointTunnel) : Nat := s.opened.countP s.isOutstanding

/-- `open_stream` did not raise in the agent's receive loop. -/
def LoopAlive (s : JointTunnel) : Prop := s.agent.conn.receiveLoop ≠ .ended

/-- Where the relay's table has room for a new stream, the agent's will have it too. -/
def RoomAtAgent (s : JointTunnel) : JointAction → Prop
  | .openStream _ _ _ => s.relay.conn.streams.length < maxStreams → s.outstanding < maxStreams
  | _ => True

instance decidableRoomAtAgent (s : JointTunnel) (a : JointAction) : Decidable (s.RoomAtAgent a) :=
  match a with
  | .openStream _ _ _ =>
      decidable_of_iff (s.relay.conn.streams.length < maxStreams → s.outstanding < maxStreams) Iff.rfl
  | .upload _ | .relayHandler _ _ | .browserMessage _ _ | .relayReceive | .relayResumePut
  | .relayGetTask _ | .relayTearDown | .agentReceive | .agentResumePut | .agentHandler _ _
  | .localMessage _ _ | .agentTearDown => isTrue trivial

/-- A step that moves no OPEN: nothing is opened, sent or received, and the agent's table does not
grow. -/
structure Quiet (s t : JointTunnel) : Prop where
  opened : t.opened = s.opened
  relayHandler : ∀ id, t.relay.handler id = .absent ↔ s.relay.handler id = .absent
  mayOpen : ∀ id, t.mayOpen id = true → s.mayOpen id = true
  inFlight : openIds t.toAgent = openIds s.toAgent
  agentHandler : ∀ id, t.agent.handler id = .absent ↔ s.agent.handler id = .absent
  table : ∀ id, id ∈ t.agent.conn.streams → id ∈ s.agent.conn.streams
  loop : s.agent.conn.receiveLoop ≠ .ended → t.agent.conn.receiveLoop ≠ .ended

/-- `open_stream` of the relay. It raises without room. -/
structure Opens (id : UUID) (s t : JointTunnel) : Prop where
  fresh : s.relay.handler id = .absent
  opened : t.opened = s.opened ++ [id]
  relayHandler : ∀ id', t.relay.handler id' = .absent ↔ id' ≠ id ∧ s.relay.handler id' = .absent
  others : ∀ id', id' ≠ id → t.mayOpen id' = s.mayOpen id'
  room : t.mayOpen id = true → s.relay.conn.streams.length < maxStreams
  inFlight : t.toAgent = s.toAgent
  agent : t.agent = s.agent

/-- `send_open` or `send_ws_open`. -/
structure Sends (id : UUID) (s t : JointTunnel) : Prop where
  opened : t.opened = s.opened
  relayHandler : ∀ id', t.relay.handler id' = .absent ↔ s.relay.handler id' = .absent
  before : s.mayOpen id = true
  mayOpen : ∀ id', t.mayOpen id' = true → id' ≠ id ∧ s.mayOpen id' = true
  inFlight : openIds t.toAgent = openIds s.toAgent ++ [id]
  agent : t.agent = s.agent

/-- The agent receives an OPEN or a WS_OPEN. -/
structure Arrives (id : UUID) (s t : JointTunnel) : Prop where
  opened : t.opened = s.opened
  relay : t.relay = s.relay
  upload : t.upload = s.upload
  inFlight : openIds s.toAgent = id :: openIds t.toAgent
  fresh : s.agent.handler id = .absent
  agent : (∃ pc, pc ≠ .absent ∧ t.agent = s.agent.spawn id pc) ∨ ∃ reply, t.agent = s.agent.reject id reply

theorem Quiet.of_relay {s t : JointTunnel} (hopened : t.opened = s.opened)
    (hrelay : ∀ id, t.relay.handler id = .absent ↔ s.relay.handler id = .absent)
    (hmay : ∀ id, t.mayOpen id = true → s.mayOpen id = true)
    (hframes : openIds t.toAgent = openIds s.toAgent) (hagent : t.agent = s.agent) : Quiet s t where
  opened := hopened
  relayHandler := hrelay
  mayOpen := hmay
  inFlight := hframes
  agentHandler := by simp [hagent]
  table := by simp [hagent]
  loop := by simp [hagent]

theorem Quiet.of_relay_conn {s t : JointTunnel} (hopened : t.opened = s.opened)
    (hhandler : t.relay.handler = s.relay.handler) (hupload : t.upload = s.upload)
    (hframes : openIds t.toAgent = openIds s.toAgent) (hagent : t.agent = s.agent) : Quiet s t := by
  refine .of_relay hopened ?_ ?_ hframes hagent
  · simp [hhandler]
  · intro id
    simp only [JointTunnel.mayOpen, hhandler, hupload]
    exact fun h => h

theorem Quiet.of_agent {s t : JointTunnel} (hopened : t.opened = s.opened) (hrelay : t.relay = s.relay)
    (hupload : t.upload = s.upload) (hframes : openIds t.toAgent = openIds s.toAgent)
    (hhandler : ∀ id, t.agent.handler id = .absent ↔ s.agent.handler id = .absent)
    (htable : ∀ id, id ∈ t.agent.conn.streams → id ∈ s.agent.conn.streams)
    (hloop : s.agent.conn.receiveLoop ≠ .ended → t.agent.conn.receiveLoop ≠ .ended) : Quiet s t where
  opened := hopened
  relayHandler := by simp [hrelay]
  mayOpen := by
    intro id
    simp only [JointTunnel.mayOpen, hrelay, hupload]
    exact fun h => h
  inFlight := hframes
  agentHandler := hhandler
  table := htable
  loop := hloop

section Steps

variable (env : AgentEnv) (metadata : UUID → Bytes) {s t : JointTunnel}

theorem opens_openStream (id : UUID) (isWebSocket : Bool) (chunks : List Bytes)
    (h : s.step env metadata (.openStream id isWebSocket chunks) = some t) : Opens id s t := by
  obtain ⟨relay, hrelay, rfl⟩ := Option.map_eq_some_iff.mp h
  simp only [RelayTunnel.step] at hrelay
  split at hrelay
  · rename_i hfresh
    have hothers : ∀ (relay : RelayTunnel) (pc : ProxyPc) (id' : UUID), id' ≠ id →
        relay.handler = Function.update s.relay.handler id pc →
        mayOpen { s with
          relay := relay
          upload := Function.update s.upload id (.opening chunks)
          webSocket := Function.update s.webSocket id isWebSocket
          opened := s.opened ++ [id] } id' = s.mayOpen id' := by
      intro relay pc id' hne hhandler
      simp [mayOpen, hhandler, hne]
    have habsent : ∀ (pc : ProxyPc) (id' : UUID), pc ≠ .absent →
        (Function.update s.relay.handler id pc id' = .absent ↔
          id' ≠ id ∧ s.relay.handler id' = .absent) := by
      intro pc id' hpc
      by_cases heq : id' = id
      · subst heq
        simp [hpc]
      · simp [heq]
    split at hrelay
    · rename_i conn hopen
      cases hrelay
      refine ⟨hfresh, rfl, fun id' => habsent _ id' ?_, fun id' hne => hothers _ _ id' hne rfl, ?_,
        rfl, rfl⟩
      · split <;> simp
      · intro _
        unfold openStream at hopen
        split at hopen
        · cases hopen
        · rename_i hlimit
          omega
    · cases hrelay
      refine ⟨hfresh, rfl, fun id' => habsent _ id' (by simp), fun id' hne => hothers _ _ id' hne rfl,
        ?_, rfl, rfl⟩
      intro hmay
      simp [mayOpen] at hmay
  · cases hrelay

theorem quiet_or_sends_upload (id : UUID) (h : s.step env metadata (.upload id) = some t) :
    Quiet s t ∨ Sends id s t := by
  simp only [step] at h
  split at h
  · rename_i hsending
    obtain ⟨⟨pc, out⟩, hsend, rfl⟩ := Option.map_eq_some_iff.mp h
    -- Only the first await of the sender is before its OPEN.
    have hpc : ∀ chunks, pc ≠ .opening chunks := by
      rintro chunks rfl
      cases hup : s.upload id with
      | streaming rest => cases rest <;> simp [hup, senderStep] at hsend
      | splitting chunk offset rest =>
          simp only [hup, senderStep] at hsend
          split at hsend <;> cases hsend
      | _ => simp [hup, senderStep] at hsend
    have hmay : ∀ id', mayOpen { s with
        upload := Function.update s.upload id pc
        toAgent := s.toAgent ++ out.toList } id' = true → id' ≠ id ∧ s.mayOpen id' = true := by
      intro id' hid'
      by_cases heq : id' = id
      · subst heq
        cases pc with
        | opening chunks => exact absurd rfl (hpc chunks)
        | _ => simp [mayOpen, hsending] at hid'
      · exact ⟨heq, by simpa [mayOpen, heq] using hid'⟩
    cases out with
    | none => exact .inl (.of_relay rfl (fun _ => Iff.rfl) (fun id' h => (hmay id' h).2) (by simp) rfl)
    | some f =>
        rcases senderStep_frame id (metadata id) _ pc f hsend with ⟨chunks, hup, rfl⟩ | ⟨-, hf⟩
        · refine .inr ⟨rfl, fun _ => Iff.rfl, ?_, hmay, ?_, rfl⟩
          · simp [mayOpen, hsending, hup]
          · simp [openIds, FrameType.opensStream]
        · refine .inl (.of_relay rfl (fun _ => Iff.rfl) (fun id' h => (hmay id' h).2) ?_ rfl)
          rw [hf]
          simp [openIds, FrameType.opensStream]
  · cases h

theorem openIds_relaySends (payload : Bytes) (isWebSocket : Bool) (id : UUID) (pc : ProxyPc)
    (e : ProxyEvent) :
    openIds (relaySends payload isWebSocket id pc e) = if pc = .wsOpening ∧ e = .sent then [id] else [] := by
  cases pc with
  | leaving => cases e <;> cases isWebSocket <;> rfl
  | _ => cases e <;> rfl

theorem quiet_or_sends_relayHandler (id : UUID) (e : ProxyEvent)
    (h : s.step env metadata (.relayHandler id e) = some t) : Quiet s t ∨ Sends id s t := by
  obtain ⟨conn, pc, pc', getTask, browser, hstep, hpc', rfl⟩ :=
    step_relayHandler_cases env metadata s t id e h
  have hunsent : pc'.unsent = false := by
    rcases hpc' with rfl | rfl
    · exact proxyStep_unsent s.relay.conn conn id _ pc' e hstep
    · rfl
  have hhandler : s.relay.handler id ≠ .absent := by
    intro habsent
    rw [habsent] at hstep
    cases e <;> cases hstep
  have habsent : ∀ id', Function.update s.relay.handler id pc' id' = .absent ↔
      s.relay.handler id' = .absent := by
    intro id'
    by_cases heq : id' = id
    · subst heq
      have hne : pc' ≠ .absent := by
        rintro rfl
        cases hunsent
      simp [hne, hhandler]
    · simp [heq]
  have hmay : ∀ id', mayOpen { s with
      relay := ⟨conn, Function.update s.relay.handler id pc', getTask⟩
      toAgent := s.toAgent ++ relaySends (metadata id) (s.webSocket id) id (s.relay.handler id) e
      browser := browser } id' = true → id' ≠ id ∧ s.mayOpen id' = true := by
    intro id' hid'
    by_cases heq : id' = id
    · subst heq
      cases pc' with
      | absent | sendingRequest | wsOpening => cases hunsent
      | _ => simp [mayOpen] at hid'
    · exact ⟨heq, by simpa [mayOpen, heq] using hid'⟩
  have hframes := openIds_relaySends (metadata id) (s.webSocket id) id (s.relay.handler id) e
  split at hframes
  · rename_i hopening
    refine .inr ⟨rfl, habsent, ?_, hmay, ?_, rfl⟩
    · simp [mayOpen, hopening.1]
    · simp [hframes]
  · exact .inl (.of_relay rfl habsent (fun id' h => (hmay id' h).2) (by simp [hframes]) rfl)

theorem quiet_browserMessage (id : UUID) (m : WsMessage)
    (h : s.step env metadata (.browserMessage id m) = some t) : Quiet s t := by
  obtain ⟨hforward, hstep⟩ := browserMessage_forward env metadata m h
  have hleaves : ∀ relay, s.relay.step (.handler id .bridgeEnd) = some relay →
      relay.handler = Function.update s.relay.handler id .leaving := by
    intro relay hrelay
    obtain ⟨⟨conn, pc⟩, hproxy, rfl⟩ := Option.map_eq_some_iff.mp hrelay
    rcases hforward with ⟨iter, hpc⟩ | hpc
    · rw [hpc] at hproxy
      cases hproxy
      rfl
    · rw [hpc] at hproxy
      cases hproxy
      rfl
  have hpresent : s.relay.handler id ≠ .absent := by
    rcases hforward with ⟨iter, hpc⟩ | hpc <;> simp [hpc]
  simp only [forwardBrowser] at hstep
  split at hstep
  · obtain ⟨relay, hrelay, rfl⟩ := Option.map_eq_some_iff.mp hstep
    have hhandler := hleaves relay hrelay
    refine .of_relay rfl ?_ ?_ rfl rfl
    · intro id'
      by_cases heq : id' = id
      · subst heq
        simp [hhandler, hpresent]
      · simp [hhandler, heq]
    · intro id' hid'
      by_cases heq : id' = id
      · subst heq
        simp [mayOpen, hhandler] at hid'
      · simpa [mayOpen, hhandler, heq] using hid'
  · cases hstep
    exact .of_relay_conn rfl rfl rfl (by simp [openIds, FrameType.opensStream]) rfl

theorem quiet_or_arrives_agentReceive (h : s.step env metadata .agentReceive = some t) :
    Quiet s t ∨ ∃ id, Arrives id s t := by
  simp only [step] at h
  split at h
  · rename_i f rest hframes
    obtain ⟨agent, hagent, rfl⟩ := Option.map_eq_some_iff.mp h
    simp only [AgentTunnel.step] at hagent
    split at hagent
    · rename_i hloop
      rcases AgentTunnel.onFrame_cases env s.agent agent f hagent with
        ⟨hopens, rfl⟩ | ⟨hopens, habsent, hcase⟩
      · refine .inl (.of_agent rfl rfl rfl ?_ (fun _ => Iff.rfl) ?_ ?_)
        · simp [hframes, openIds, hopens]
        · intro id hmem
          rw [← dispatchFrame_streams s.agent.conn f]
          exact hmem
        · exact dispatchFrame_alive s.agent.conn f
      · refine .inr ⟨f.requestId, rfl, rfl, rfl, ?_, habsent, ?_⟩
        · simp [hframes, openIds, hopens]
        · rcases hcase with ⟨pc, hpc, rfl⟩ | ⟨reply, rfl, -⟩
          · refine .inl ⟨pc, ?_, rfl⟩
            rcases hpc with rfl | rfl <;> simp
          · exact .inr ⟨reply, rfl⟩
    · cases hagent
  · cases h

theorem quiet_agent (id : UUID) (e : AgentEvent) (agent : AgentTunnel) (out : Option Bytes)
    (h : s.agent.step env (.handler id e) = some agent) :
    Quiet s ((s.moveAgent agent).deliverLocal id out) := by
  obtain ⟨⟨conn, pc, frames⟩, hstep, rfl⟩ := Option.map_eq_some_iff.mp h
  obtain ⟨hpc, hpc'⟩ := agentStep_opened env s.agent.conn conn id _ pc e frames hstep
  obtain ⟨htouches, -⟩ := AgentTunnel.agentStep_frame env s.agent.conn conn id _ pc e frames hstep
  have habsent : ∀ (next : AgentPc) (id' : UUID), next ≠ .absent →
      (Function.update s.agent.handler id next id' = .absent ↔ s.agent.handler id' = .absent) := by
    intro next id' hnext
    by_cases heq : id' = id
    · subst heq
      simp [hpc, hnext]
    · simp [heq]
  obtain ⟨agent, localApp, heq, hagent⟩ := deliverLocal_cases
    (s.moveAgent { s.agent.setHandler id pc with conn := conn, sent := s.agent.sent ++ frames }) id out
  rw [heq]
  rcases hagent with rfl | rfl
  · refine .of_agent rfl rfl rfl rfl (fun id' => habsent pc id' hpc') (fun id' => htouches.mem) ?_
    intro hloop
    exact htouches.receiveLoop ▸ hloop
  · refine .of_agent rfl rfl rfl rfl ?_ ?_ ?_
    · intro id'
      simpa [moveAgent, AgentTunnel.setHandler] using habsent .wsClosing id' (by simp)
    · intro id' hmem
      exact htouches.mem ((removeStream_mem_iff conn id id').mp hmem).2
    · intro hloop
      exact htouches.receiveLoop ▸ hloop

/-- Every step leaves the OPEN frames alone, opens a stream, sends its OPEN or receives one. -/
theorem step_openMoves (a : JointAction) (h : s.step env metadata a = some t) :
    Quiet s t ∨ (∃ id isWebSocket chunks, a = .openStream id isWebSocket chunks ∧ Opens id s t) ∨
      (∃ id, Sends id s t) ∨ ∃ id, Arrives id s t := by
  cases a with
  | openStream id isWebSocket chunks =>
      exact .inr (.inl ⟨id, isWebSocket, chunks, rfl,
        opens_openStream env metadata id isWebSocket chunks h⟩)
  | upload id =>
      rcases quiet_or_sends_upload env metadata id h with hquiet | hsends
      · exact .inl hquiet
      · exact .inr (.inr (.inl ⟨id, hsends⟩))
  | relayHandler id e =>
      rcases quiet_or_sends_relayHandler env metadata id e h with hquiet | hsends
      · exact .inl hquiet
      · exact .inr (.inr (.inl ⟨id, hsends⟩))
  | browserMessage id m => exact .inl (quiet_browserMessage env metadata id m h)
  | relayReceive =>
      simp only [step] at h
      split at h
      · obtain ⟨relay, hrelay, rfl⟩ := Option.map_eq_some_iff.mp h
        simp only [RelayTunnel.step] at hrelay
        split at hrelay
        · cases hrelay
          exact .inl (.of_relay_conn rfl rfl rfl rfl rfl)
        · cases hrelay
      · cases h
  | relayResumePut =>
      obtain ⟨relay, hrelay, rfl⟩ := Option.map_eq_some_iff.mp h
      obtain ⟨conn, -, rfl⟩ := Option.map_eq_some_iff.mp hrelay
      exact .inl (.of_relay_conn rfl rfl rfl rfl rfl)
  | relayGetTask id =>
      obtain ⟨relay, hrelay, rfl⟩ := Option.map_eq_some_iff.mp h
      simp only [RelayTunnel.step] at hrelay
      split at hrelay
      · obtain ⟨taken, -, rfl⟩ := Option.map_eq_some_iff.mp hrelay
        exact .inl (.of_relay_conn rfl rfl rfl rfl rfl)
      · cases hrelay
  | relayTearDown =>
      cases h
      exact .inl (.of_relay_conn rfl rfl rfl rfl rfl)
  | agentReceive =>
      rcases quiet_or_arrives_agentReceive env metadata h with hquiet | harrives
      · exact .inl hquiet
      · exact .inr (.inr (.inr harrives))
  | agentResumePut =>
      obtain ⟨agent, hagent, rfl⟩ := Option.map_eq_some_iff.mp h
      obtain ⟨conn, hput, rfl⟩ := Option.map_eq_some_iff.mp hagent
      obtain ⟨id, p, -, -, rfl⟩ := resumePut_cases s.agent.conn conn hput
      refine .inl (.of_agent rfl rfl rfl rfl (fun _ => Iff.rfl) ?_ ?_)
      · simp [moveAgent]
      · intro _
        exact putPayload_alive s.agent.conn id p
  | agentHandler id e =>
      simp only [step] at h
      split at h
      · cases h
      · obtain ⟨agent, hagent, rfl⟩ := Option.map_eq_some_iff.mp h
        exact .inl (quiet_agent env id e agent _ hagent)
  | localMessage id m =>
      obtain ⟨agent, hagent, rfl⟩ := Option.map_eq_some_iff.mp h
      have hquiet := quiet_agent env id _ agent none hagent
      exact .inl (.of_agent rfl rfl rfl rfl hquiet.agentHandler hquiet.table hquiet.loop)
  | agentTearDown =>
      cases h
      obtain ⟨hloop, -⟩ := tearDown_frame s.agent.conn
      refine .inl (.of_agent rfl rfl rfl rfl (fun _ => Iff.rfl) ?_ ?_)
      · exact fun id => mem_of_mem_tearDown s.agent.conn id
      · intro halive
        simpa [moveAgent, hloop] using halive

end Steps

theorem isOutstanding_iff (s : JointTunnel) (id : UUID) : s.isOutstanding id = true ↔
    s.mayOpen id = true ∨ id ∈ openIds s.toAgent ∨ id ∈ s.agent.conn.streams := by
  simp [isOutstanding, or_assoc]

theorem handler_of_mayOpen (s : JointTunnel) (id : UUID) (h : s.mayOpen id = true) :
    s.relay.handler id ≠ .absent := by
  intro habsent
  simp [mayOpen, habsent] at h

theorem outstanding_mono {s t : JointTunnel} (hopened : t.opened = s.opened)
    (h : ∀ id, t.isOutstanding id = true → s.isOutstanding id = true) : t.outstanding ≤ s.outstanding := by
  unfold outstanding
  rw [hopened]
  exact List.countP_mono_left fun id _ => h id

/-- A stream is outstanding in one way only: before its OPEN is sent, while the OPEN is on its way, or
once the agent has received it. -/
structure Accounted (s : JointTunnel) : Prop where
  opened_nodup : s.opened.Nodup
  opened_iff : ∀ id, id ∈ s.opened ↔ s.relay.handler id ≠ .absent
  unsent : ∀ id, s.mayOpen id = true → s.agent.handler id = .absent
  inFlight : ∀ id ∈ openIds s.toAgent,
    id ∈ s.opened ∧ s.mayOpen id = false ∧ s.agent.handler id = .absent
  inFlight_nodup : (openIds s.toAgent).Nodup
  arrived : ∀ id, s.agent.handler id ≠ .absent → id ∈ s.opened
  table : ∀ id ∈ s.agent.conn.streams, s.agent.handler id ≠ .absent
  room : s.outstanding ≤ maxStreams
  alive : s.LoopAlive

theorem accounted_init : Accounted init where
  opened_nodup := List.nodup_nil
  opened_iff := by simp [init, RelayTunnel.init]
  unsent := by simp [mayOpen, init, RelayTunnel.init]
  inFlight := by simp [init, openIds]
  inFlight_nodup := List.nodup_nil
  arrived := by simp [init, AgentTunnel.init]
  table := by simp [init, AgentTunnel.init, TunnelConnection.new]
  room := Nat.zero_le _
  alive := by simp [LoopAlive, init, AgentTunnel.init, TunnelConnection.new]

theorem Accounted.table_lt {s : JointTunnel} (hinv : Accounted s) (id : UUID)
    (hid : id ∈ openIds s.toAgent) : id ∉ s.agent.conn.streams ∧
      s.agent.conn.streams.length < maxStreams := by
  obtain ⟨hopened, -, habsent⟩ := hinv.inFlight id hid
  have hnot : id ∉ s.agent.conn.streams := fun hmem => hinv.table id hmem habsent
  have hnodup : (id :: s.agent.conn.streams).Nodup :=
    List.nodup_cons.mpr ⟨hnot, s.agent.conn.streams_nodup⟩
  have hsubset : id :: s.agent.conn.streams ⊆ s.opened.filter s.isOutstanding := by
    intro id' hid'
    rw [List.mem_filter, isOutstanding_iff]
    rcases List.mem_cons.mp hid' with rfl | hmem
    · exact ⟨hopened, .inr (.inl hid)⟩
    · exact ⟨hinv.arrived id' (hinv.table id' hmem), .inr (.inr hmem)⟩
  have hle := (List.subperm_of_subset hnodup hsubset).length_le
  rw [List.length_cons, ← List.countP_eq_length_filter] at hle
  exact ⟨hnot, Nat.lt_of_lt_of_le hle hinv.room⟩

theorem accounted_quiet {s t : JointTunnel} (hinv : Accounted s) (h : Quiet s t) : Accounted t where
  opened_nodup := h.opened ▸ hinv.opened_nodup
  opened_iff := by
    intro id
    rw [h.opened, hinv.opened_iff id, ne_eq, ne_eq, h.relayHandler id]
  unsent := by
    intro id hmay
    exact (h.agentHandler id).mpr (hinv.unsent id (h.mayOpen id hmay))
  inFlight := by
    intro id hid
    rw [h.inFlight] at hid
    obtain ⟨hopened, hsent, habsent⟩ := hinv.inFlight id hid
    refine ⟨h.opened ▸ hopened, ?_, (h.agentHandler id).mpr habsent⟩
    by_contra hmay
    rw [h.mayOpen id (by simpa using hmay)] at hsent
    cases hsent
  inFlight_nodup := h.inFlight ▸ hinv.inFlight_nodup
  arrived := by
    intro id hid
    rw [h.opened]
    exact hinv.arrived id (mt (h.agentHandler id).mpr hid)
  table := by
    intro id hmem
    exact mt (h.agentHandler id).mp (hinv.table id (h.table id hmem))
  room := by
    refine Nat.le_trans (outstanding_mono h.opened ?_) hinv.room
    intro id
    rw [isOutstanding_iff, isOutstanding_iff, h.inFlight]
    rintro (hmay | hflight | hmem)
    · exact .inl (h.mayOpen id hmay)
    · exact .inr (.inl hflight)
    · exact .inr (.inr (h.table id hmem))
  alive := h.loop hinv.alive

theorem accounted_opens {s t : JointTunnel} {id : UUID} (hinv : Accounted s) (h : Opens id s t)
    (hroom : s.relay.conn.streams.length < maxStreams → s.outstanding < maxStreams) : Accounted t := by
  have hnew : id ∉ s.opened := fun hmem => (hinv.opened_iff id).mp hmem h.fresh
  have hne : ∀ id' ∈ s.opened, id' ≠ id := fun id' hmem heq => hnew (heq ▸ hmem)
  have habsent : s.agent.handler id = .absent := by
    by_contra hpc
    exact hnew (hinv.arrived id hpc)
  refine ⟨?_, ?_, ?_, ?_, ?_, ?_, ?_, ?_, ?_⟩
  · rw [h.opened]
    simpa using hinv.opened_nodup.concat hnew
  · intro id'
    rw [h.opened, ne_eq, h.relayHandler id', List.mem_append, hinv.opened_iff id']
    by_cases heq : id' = id
    · simp [heq]
    · simp [heq]
  · intro id' hmay
    rw [h.agent]
    by_cases heq : id' = id
    · exact heq ▸ habsent
    · exact hinv.unsent id' (h.others id' heq ▸ hmay)
  · intro id' hid'
    rw [h.inFlight] at hid'
    obtain ⟨hopened, hsent, hpc⟩ := hinv.inFlight id' hid'
    refine ⟨?_, ?_, h.agent ▸ hpc⟩
    · rw [h.opened]
      exact List.mem_append_left _ hopened
    · rw [h.others id' (hne id' hopened)]
      exact hsent
  · rw [h.inFlight]
    exact hinv.inFlight_nodup
  · intro id' hpc
    rw [h.agent] at hpc
    rw [h.opened]
    exact List.mem_append_left _ (hinv.arrived id' hpc)
  · rw [h.agent]
    exact hinv.table
  · -- The earlier streams are outstanding as before; the new one only if the relay had room for it.
    have hold : s.opened.countP t.isOutstanding = s.outstanding := by
      refine List.countP_congr ?_
      intro id' hmem
      rw [isOutstanding_iff, isOutstanding_iff, h.others id' (hne id' hmem), h.inFlight, h.agent]
    have hlast : t.isOutstanding id = true → s.outstanding < maxStreams := by
      rw [isOutstanding_iff, h.inFlight, h.agent]
      rintro (hmay | hflight | hmem)
      · exact hroom (h.room hmay)
      · exact absurd (hinv.inFlight id hflight).1 hnew
      · exact absurd habsent (hinv.table id hmem)
    have hle := hinv.room
    unfold outstanding
    rw [h.opened, List.countP_append, hold, List.countP_singleton]
    split
    · exact hlast ‹_›
    · exact hle
  · rw [LoopAlive, h.agent]
    exact hinv.alive

theorem accounted_sends {s t : JointTunnel} {id : UUID} (hinv : Accounted s) (h : Sends id s t) :
    Accounted t := by
  have hopened : id ∈ s.opened := (hinv.opened_iff id).mpr (handler_of_mayOpen s id h.before)
  have hsent : ∀ id', s.mayOpen id' = false ∨ id' = id → t.mayOpen id' = false := by
    intro id' hid'
    by_contra hmay
    obtain ⟨hne, hbefore⟩ := h.mayOpen id' (by simpa using hmay)
    rcases hid' with hfalse | heq
    · rw [hfalse] at hbefore
      cases hbefore
    · exact hne heq
  refine ⟨h.opened ▸ hinv.opened_nodup, ?_, ?_, ?_, ?_, ?_, ?_, ?_, ?_⟩
  · intro id'
    rw [h.opened, hinv.opened_iff id', ne_eq, ne_eq, h.relayHandler id']
  · intro id' hmay
    rw [h.agent]
    exact hinv.unsent id' (h.mayOpen id' hmay).2
  · intro id' hid'
    rw [h.inFlight] at hid'
    rw [h.opened, h.agent]
    rcases List.mem_append.mp hid' with hold | hnew
    · obtain ⟨hmem, hbefore, habsent⟩ := hinv.inFlight id' hold
      exact ⟨hmem, hsent id' (.inl hbefore), habsent⟩
    · have heq := List.mem_singleton.mp hnew
      subst heq
      exact ⟨hopened, hsent id' (.inr rfl), hinv.unsent id' h.before⟩
  · rw [h.inFlight]
    refine List.Nodup.append hinv.inFlight_nodup (List.nodup_singleton id) ?_
    intro id' hold hnew
    have heq := List.mem_singleton.mp hnew
    subst heq
    have hfalse := (hinv.inFlight id' hold).2.1
    rw [h.before] at hfalse
    cases hfalse
  · rw [h.agent, h.opened]
    exact hinv.arrived
  · rw [h.agent]
    exact hinv.table
  · refine Nat.le_trans (outstanding_mono h.opened ?_) hinv.room
    intro id'
    rw [isOutstanding_iff, isOutstanding_iff, h.inFlight, h.agent]
    rintro (hmay | hflight | hmem)
    · exact .inl (h.mayOpen id' hmay).2
    · rcases List.mem_append.mp hflight with hold | hnew
      · exact .inr (.inl hold)
      · exact .inl (List.mem_singleton.mp hnew ▸ h.before)
    · exact .inr (.inr hmem)
  · rw [LoopAlive, h.agent]
    exact hinv.alive

/-- The agent's end after an OPEN that there is room for: the table has at most the new stream in
addition, and its handler is there. -/
theorem Arrives.agent_cases {s t : JointTunnel} {id : UUID} (hinv : Accounted s) (h : Arrives id s t) :
    (∀ id', t.agent.handler id' = .absent ↔ id' ≠ id ∧ s.agent.handler id' = .absent) ∧
      (∀ id' ∈ t.agent.conn.streams, id' = id ∨ id' ∈ s.agent.conn.streams) ∧ t.LoopAlive := by
  have hid : id ∈ openIds s.toAgent := by simp [h.inFlight]
  have habsent : ∀ (pc : AgentPc) (id' : UUID), pc ≠ .absent →
      (Function.update s.agent.handler id pc id' = .absent ↔
        id' ≠ id ∧ s.agent.handler id' = .absent) := by
    intro pc id' hpc
    by_cases heq : id' = id
    · subst heq
      simp [hpc]
    · simp [heq]
  rcases h.agent with ⟨pc, hpc, hagent⟩ | ⟨reply, hagent⟩
  · obtain ⟨hnot, hroom⟩ := hinv.table_lt id hid
    obtain ⟨conn, hopen⟩ := openStream_of_room s.agent.conn id hnot hroom
    obtain ⟨-, -, hstreams, hloop⟩ := openStream_cases s.agent.conn conn id hopen
    simp only [AgentTunnel.spawn, hopen] at hagent
    rw [LoopAlive, hagent]
    refine ⟨fun id' => habsent pc id' hpc, ?_, ?_⟩
    · intro id' hmem
      simpa [hstreams, or_comm] using hmem
    · exact hloop ▸ hinv.alive
  · rw [LoopAlive, hagent]
    refine ⟨fun id' => habsent .rejected id' (by simp), fun id' hmem => .inr hmem, hinv.alive⟩

theorem accounted_arrives {s t : JointTunnel} {id : UUID} (hinv : Accounted s) (h : Arrives id s t) :
    Accounted t := by
  obtain ⟨hhandler, htable, halive⟩ := h.agent_cases hinv
  have hid : id ∈ openIds s.toAgent := by simp [h.inFlight]
  obtain ⟨hopened, hsent, -⟩ := hinv.inFlight id hid
  have hmay : ∀ id', t.mayOpen id' = s.mayOpen id' := by
    intro id'
    simp [mayOpen, h.relay, h.upload]
  have hrest := h.inFlight ▸ hinv.inFlight_nodup
  refine ⟨h.opened ▸ hinv.opened_nodup, ?_, ?_, ?_, hrest.of_cons, ?_, ?_, ?_, halive⟩
  · rw [h.opened, h.relay]
    exact hinv.opened_iff
  · intro id' hid'
    rw [hmay] at hid'
    refine (hhandler id').mpr ⟨?_, hinv.unsent id' hid'⟩
    rintro rfl
    rw [hsent] at hid'
    cases hid'
  · intro id' hid'
    obtain ⟨hmem, hbefore, habsent⟩ := hinv.inFlight id' (by simp [h.inFlight, hid'])
    refine ⟨h.opened ▸ hmem, hmay id' ▸ hbefore, (hhandler id').mpr ⟨?_, habsent⟩⟩
    rintro rfl
    exact (List.nodup_cons.mp hrest).1 hid'
  · intro id' hpc
    rw [h.opened]
    by_cases heq : id' = id
    · exact heq ▸ hopened
    · exact hinv.arrived id' fun habsent => hpc ((hhandler id').mpr ⟨heq, habsent⟩)
  · intro id' hmem habsent
    obtain ⟨hne, hbefore⟩ := (hhandler id').mp habsent
    rcases htable id' hmem with heq | hmem
    · exact hne heq
    · exact hinv.table id' hmem hbefore
  · refine Nat.le_trans (outstanding_mono h.opened ?_) hinv.room
    intro id'
    rw [isOutstanding_iff, isOutstanding_iff, hmay]
    rintro (hpending | hflight | hmem)
    · exact .inl hpending
    · exact .inr (.inl (by simp [h.inFlight, hflight]))
    · rcases htable id' hmem with rfl | hmem
      · exact .inr (.inl hid)
      · exact .inr (.inr hmem)

theorem accounted_step (env : AgentEnv) (metadata : UUID → Bytes) (s : JointTunnel) (a : JointAction)
    (t : JointTunnel) (hinv : Accounted s) (hroom : s.RoomAtAgent a)
    (h : s.step env metadata a = some t) : Accounted t := by
  rcases step_openMoves env metadata a h with
    hquiet | ⟨id, isWebSocket, chunks, rfl, hopens⟩ | ⟨id, hsends⟩ | ⟨id, harrives⟩
  · exact accounted_quiet hinv hquiet
  · exact accounted_opens hinv hopens hroom
  · exact accounted_sends hinv hsends
  · exact accounted_arrives hinv harrives

/-- A WebSocket that the local application refuses, up to the agent's WS_CLOSE. -/
def refusal (id : UUID) : List JointAction :=
  [.openStream id true [], .relayHandler id .sent, .agentReceive, .agentHandler id .start,
    .agentHandler id .connectFailed, .agentHandler id .sent]

/-- The relay sees the WS_CLOSE, leaves its bridge and says WS_CLOSE too. -/
def farewell (id : UUID) : List JointAction :=
  [.relayReceive, .relayHandler id .startBody, .relayHandler id (.iter .closedTask),
    .relayHandler id (.iter .resume), .relayHandler id .finish, .agentReceive]

def refusedWebSocket (id : UUID) : List JointAction := refusal id ++ farewell id

/-- Only `handle_ws_open_frame`'s inner `finally` removes the stream, and a refused WebSocket does not
get there: its entry stays in the agent's table. Nothing else is left of the earlier streams. -/
structure Leaked (ids : List UUID) (s : JointTunnel) : Prop where
  table : s.agent.conn.streams = ids
  loop : s.agent.conn.receiveLoop = .receiving
  relayTable : s.relay.conn.streams = []
  relayLoop : s.relay.conn.receiveLoop = .receiving
  toAgent : s.toAgent = []
  toRelay : s.toRelay = []
  fresh : ∀ id ∉ ids, s.relay.handler id = .absent ∧ s.agent.handler id = .absent

/-- The agent has answered a WebSocket with WS_CLOSE, and the relay still has its stream. -/
structure Refused (ids : List UUID) (id : UUID) (s : JointTunnel) : Prop where
  table : s.agent.conn.streams = ids ++ [id]
  loop : s.agent.conn.receiveLoop = .receiving
  relayTable : s.relay.conn.streams = [id]
  relayState : s.relay.conn.states id = .fresh
  relayLoop : s.relay.conn.receiveLoop = .receiving
  relayHandler : s.relay.handler id = .wsStarting
  webSocket : s.webSocket id = true
  toAgent : s.toAgent = []
  toRelay : s.toRelay = [⟨.wsClose, id, []⟩]
  fresh : ∀ id' ∉ ids ++ [id], s.relay.handler id' = .absent ∧ s.agent.handler id' = .absent

-- The two schedules are executed symbolically.
theorem refused_of_leaked (env : AgentEnv) (metadata : UUID → Bytes) (ids : List UUID) (id : UUID)
    (s : JointTunnel) (h : Leaked ids s) (hnew : id ∉ ids) (hroom : ids.length < maxStreams)
    (hvalid : env.validWsOpen (metadata id) = true) :
    ∃ t, TransitionSystem.run (step env metadata) s (refusal id) = some t ∧ Refused ids id t := by
  obtain ⟨hrelay, hagent⟩ := h.fresh id hnew
  obtain ⟨rconn, hropen⟩ := openStream_of_room s.relay.conn id (by simp [h.relayTable])
    (by simp [h.relayTable, maxStreams])
  obtain ⟨aconn, haopen⟩ := openStream_of_room s.agent.conn id (by simp [h.table, hnew])
    (by simp [h.table, hroom])
  obtain ⟨hrfresh, -, hrstreams, hrloop⟩ := openStream_cases s.relay.conn rconn id hropen
  obtain ⟨-, -, hastreams, haloop⟩ := openStream_cases s.agent.conn aconn id haopen
  refine ⟨?state, ?run, ?refused⟩
  case run =>
    simp [refusal, TransitionSystem.run, step, RelayTunnel.step, AgentTunnel.step, hrelay, hagent, hropen,
      haopen, proxyStep, relaySends, relayChunk, deliverBrowser, deliverLocal, agentChunk, moveAgent,
      AgentTunnel.onFrame, AgentTunnel.spawn, AgentTunnel.setHandler, agentStep, h.toAgent, h.toRelay,
      h.loop, hvalid]
    rfl
  case refused =>
    refine ⟨?_, haloop.trans h.loop, ?_, hrfresh, hrloop.trans h.relayLoop, by simp, by simp, rfl, rfl, ?_⟩
    · rw [hastreams, h.table]
    · rw [hrstreams, h.relayTable]
      rfl
    · intro id' hid'
      simp only [List.mem_append, List.mem_singleton, not_or] at hid'
      simpa [hid'.2] using h.fresh id' hid'.1

theorem leaked_of_refused (env : AgentEnv) (metadata : UUID → Bytes) (ids : List UUID) (id : UUID)
    (s : JointTunnel) (h : Refused ids id s) :
    ∃ t, TransitionSystem.run (step env metadata) s (farewell id) = some t ∧ Leaked (ids ++ [id]) t := by
  refine ⟨?state, ?run, ?leaked⟩
  case run =>
    simp [farewell, TransitionSystem.run, step, RelayTunnel.step, AgentTunnel.step, h.relayHandler,
      h.webSocket, h.toAgent, h.toRelay, h.loop, h.relayLoop, h.relayTable, h.relayState, h.table,
      proxyStep, relaySends, relayChunk, deliverBrowser, moveAgent, AgentTunnel.onFrame, dispatchFrame,
      FrameType.carriesData, FrameType.endsStream, closeStream, getStream, Except.map, startIter, iterStep,
      drain, takeItem, StreamState.fresh, BoundedQueue.get, BoundedQueue.empty, setState]
    rfl
  case leaked =>
    refine ⟨rfl, rfl, by simp, rfl, rfl, rfl, ?_⟩
    intro id' hid'
    have hne : id' ≠ id := by
      rintro rfl
      simp at hid'
    simpa [hne] using h.fresh id' hid'

theorem leaked_refused (env : AgentEnv) (metadata : UUID → Bytes) (ids : List UUID) (id : UUID)
    (s : JointTunnel) (h : Leaked ids s) (hnew : id ∉ ids) (hroom : ids.length < maxStreams)
    (hvalid : env.validWsOpen (metadata id) = true) :
    ∃ t, TransitionSystem.run (step env metadata) s (refusedWebSocket id) = some t ∧
      Leaked (ids ++ [id]) t := by
  obtain ⟨t, hrun, hrefused⟩ := refused_of_leaked env metadata ids id s h hnew hroom hvalid
  obtain ⟨u, hrest, hleaked⟩ := leaked_of_refused env metadata ids id t hrefused
  exact ⟨u, TransitionSystem.run_append_of_eq_some _ hrun hrest, hleaked⟩

theorem leaked_refused_all (env : AgentEnv) (metadata : UUID → Bytes) (ids new : List UUID)
    (s : JointTunnel) (h : Leaked ids s) (hnew : (ids ++ new).Nodup)
    (hroom : (ids ++ new).length ≤ maxStreams)
    (hvalid : ∀ id, env.validWsOpen (metadata id) = true) :
    ∃ t, TransitionSystem.run (step env metadata) s (new.flatMap refusedWebSocket) = some t ∧
      Leaked (ids ++ new) t := by
  induction new generalizing ids s with
  | nil => exact ⟨s, rfl, by simpa using h⟩
  | cons id new ih =>
      have hid : id ∉ ids := by
        intro hmem
        exact (List.disjoint_of_nodup_append hnew) hmem (by simp)
      have hlt : ids.length < maxStreams := by
        simp only [List.length_append, List.length_cons] at hroom
        omega
      have happend : ids ++ id :: new = ids ++ [id] ++ new := by simp
      rw [happend] at hnew hroom ⊢
      obtain ⟨t, hrun, hleaked⟩ := leaked_refused env metadata ids id s h hid hlt (hvalid id)
      obtain ⟨u, hrest, hall⟩ := ih (ids ++ [id]) t hleaked hnew hroom
      exact ⟨u, TransitionSystem.run_append_of_eq_some _ hrun hrest, hall⟩

/-- The next WebSocket kills the tunnel of the agent, although the table of the relay is empty. -/
theorem leaked_full (env : AgentEnv) (metadata : UUID → Bytes) (ids : List UUID) (id : UUID)
    (s : JointTunnel) (h : Leaked ids s) (hnew : id ∉ ids) (hfull : ids.length = maxStreams)
    (hvalid : env.validWsOpen (metadata id) = true) :
    ∃ t, TransitionSystem.run (step env metadata) s
        [.openStream id true [], .relayHandler id .sent, .agentReceive] = some t ∧ ¬ LoopAlive t := by
  obtain ⟨hrelay, hagent⟩ := h.fresh id hnew
  obtain ⟨rconn, hropen⟩ := openStream_of_room s.relay.conn id (by simp [h.relayTable])
    (by simp [h.relayTable, maxStreams])
  have haopen : s.agent.conn.openStream id = .error (.streamLimit id) := by
    simp [openStream, h.table, hfull]
  refine ⟨?state, ?run, ?dead⟩
  case run =>
    simp [TransitionSystem.run, step, RelayTunnel.step, AgentTunnel.step, hrelay, hagent, hropen,
      haopen, proxyStep, relaySends, relayChunk, deliverBrowser, AgentTunnel.onFrame, AgentTunnel.spawn,
      h.toAgent, h.loop, hvalid, moveAgent]
    rfl
  case dead => simp [LoopAlive]

/-- No OPEN ends the receive loop of the agent as long as the relay opens streams only while fewer
than `MAX_STREAMS` are outstanding. -/
theorem loopAlive_of_room (env : AgentEnv) (metadata : UUID → Bytes) (acts : List JointAction)
    (hroom : TransitionSystem.Guarded (step env metadata) RoomAtAgent init acts) :
    TransitionSystem.Throughout (step env metadata) LoopAlive init acts :=
  TransitionSystem.throughout_of_guarded (step env metadata) RoomAtAgent Accounted LoopAlive
    (fun _ hinv => hinv.alive) (accounted_step env metadata) accounted_init hroom

theorem loopAlive_of_room_refused :
    TransitionSystem.Guarded (step (AgentTunnel.plainEnv AgentTunnel.hello) fun _ => []) RoomAtAgent
        init (refusedWebSocket 1 ++ refusedWebSocket 2) ∧
      TransitionSystem.Throughout (step (AgentTunnel.plainEnv AgentTunnel.hello) fun _ => []) LoopAlive
        init (refusedWebSocket 1 ++ refusedWebSocket 2) := by
  have hroom : TransitionSystem.Guarded (step (AgentTunnel.plainEnv AgentTunnel.hello) fun _ => [])
      RoomAtAgent init (refusedWebSocket 1 ++ refusedWebSocket 2) := by decide +kernel
  exact ⟨hroom, loopAlive_of_room _ _ _ hroom⟩

/-- A hundred WebSockets that the local application refuses, then one more. -/
theorem loop_not_alive : ¬ ∀ (env : AgentEnv) (metadata : UUID → Bytes) (acts : List JointAction),
    TransitionSystem.Throughout (step env metadata) LoopAlive init acts := by
  intro halive
  let ids : List UUID := (List.range maxStreams).map (BitVec.ofNat 128)
  have hnodup : ids.Nodup := by decide +kernel
  have hnew : (100 : UUID) ∉ ids := by decide +kernel
  have hlength : ids.length = maxStreams := by simp [ids]
  obtain ⟨s, hrun, hleaked⟩ := leaked_refused_all (AgentTunnel.plainEnv AgentTunnel.hello) (fun _ => [])
    [] ids init ⟨rfl, rfl, rfl, rfl, rfl, rfl, fun _ _ => ⟨rfl, rfl⟩⟩ hnodup (Nat.le_of_eq hlength)
    (fun _ => rfl)
  obtain ⟨t, hlast, hdead⟩ := leaked_full (AgentTunnel.plainEnv AgentTunnel.hello) (fun _ => []) ids
    (100 : UUID) s hleaked hnew hlength rfl
  exact hdead ((halive _ _ _).last (TransitionSystem.run_append_of_eq_some _ hrun hlast))

end JointTunnel

end NetworkFileServer.Tunnel
