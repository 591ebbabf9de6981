import NetworkFileServer.Agent.AnswerSent
import NetworkFileServer.Tunnel.BridgeFidelity

/-!
# The body of a request, from the browser to the local application

One request over HTTP among all the streams of a tunnel. Its OPEN and its DATA frames cross the
channel in order, the agent's receive loop puts them on the queue of the stream, and the task joins
them. Teardown, cancellation and the errors of other streams may stop it at any point, but a content
that the task gets to is the body that the browser has sent.
-/

namespace NetworkFileServer.Relay

open Tunnel TunnelConnection

/-- A handler of `proxy_websocket`, up to its `finally`. -/
def ProxyPc.isWebSocket : ProxyPc → Bool
  | .wsOpening | .wsStarting | .bridging _ => true
  | _ => false

theorem startIter_http (conn : TunnelConnection) (id : UUID) (started missing : ProxyPc)
    (hstarted : started.isWebSocket = false) (hmissing : missing.isWebSocket = false) :
    (startIter conn id started missing).isWebSocket = false := by
  unfold startIter
  split
  · exact hstarted
  · exact hmissing

theorem proxyStep_http (conn conn' : TunnelConnection) (id : UUID) (pc pc' : ProxyPc)
    (e : ProxyEvent) (h : proxyStep conn id pc e = some (conn', pc')) (hpc : pc.isWebSocket = false) :
    pc'.isWebSocket = false := by
  cases pc with
  | readingFirst =>
      cases e with
      | firstByte response =>
          obtain ⟨⟨p, taken⟩, -, heq⟩ := Option.map_eq_some_iff.mp h
          cases response <;> cases heq
          · rfl
          · exact startIter_http _ _ _ _ rfl rfl
          · rfl
      | _ => cases h <;> rfl
  | buffering iter parts =>
      cases e with
      | iter e' =>
          obtain ⟨⟨taken, iter', out⟩, -, heq⟩ := Option.map_eq_some_iff.mp h
          cases heq
          cases out <;> simp only [bufferPart] <;> split <;> rfl
      | _ => cases h <;> rfl
  | streaming iter =>
      cases e with
      | iter e' =>
          obtain ⟨⟨taken, iter', out⟩, -, heq⟩ := Option.map_eq_some_iff.mp h
          cases out with
          | none =>
              simp only at heq
              split at heq <;> cases heq <;> rfl
          | some chunk =>
              cases heq
              rfl
      | _ => cases h <;> rfl
  | replaying iter parts => cases e <;> cases parts <;> cases h <;> rfl
  | sendingRequest | responding =>
      cases e <;> cases h <;> first | exact startIter_http _ _ _ _ rfl rfl | rfl
  | wsOpening | wsStarting | bridging => cases hpc
  | _ => cases e <;> cases h <;> rfl

end NetworkFileServer.Relay

namespace NetworkFileServer.Agent

open Tunnel TunnelConnection

/-- A task that has handed its request to the application. -/
def AgentPc.answering : AgentPc → Bool
  | .sending _ _ _ | .sendingClose | .ended _ => true
  | _ => false

theorem sendNext_answering (chunks : List Bytes) (fails : Bool) :
    (sendNext chunks fails).answering = true := by
  induction chunks with
  | nil =>
      unfold sendNext
      split <;> rfl
  | cons chunk rest ih =>
      unfold sendNext
      split
      · exact ih
      · split <;> rfl

theorem AgentEnv.responded_answering (env : AgentEnv) (id : UUID) :
    (env.responded id).answering = true := by
  unfold responded
  split
  · rfl
  · simp only
    split <;> rfl

theorem agentStep_answering (env : AgentEnv) (conn conn' : TunnelConnection) (id : UUID)
    (pc pc' : AgentPc) (e : AgentEvent) (out : List Frame)
    (h : agentStep env conn id pc e = some (conn', pc', out)) (hhttp : pc.isWebSocket = false)
    (hspawned : pc ≠ .spawned) (hreading : ∀ parts, pc ≠ .readingBody parts) :
    pc'.answering = true := by
  cases pc with
  | spawned => exact absurd rfl hspawned
  | readingBody parts => exact absurd rfl (hreading parts)
  | requesting content =>
      cases e with
      | respond =>
          cases h
          exact env.responded_answering id
      | _ => cases h <;> rfl
  | sending payload rest fails =>
      cases e with
      | sent =>
          cases h
          exact sendNext_answering rest fails
      | _ => cases h <;> rfl
  | sendingClose => cases e <;> cases h <;> rfl
  | absent | rejected | ended => cases e <;> cases h
  | _ => cases hhttp

theorem agentStep_running (env : AgentEnv) (conn conn' : TunnelConnection) (id : UUID)
    (pc pc' : AgentPc) (e : AgentEvent) (out : List Frame)
    (h : agentStep env conn id pc e = some (conn', pc', out)) (hhttp : pc.isWebSocket = false) :
    pc' ≠ .rejected := by
  rintro rfl
  cases pc with
  | spawned =>
      cases e with
      | start =>
          simp only [agentStep] at h
          split at h <;> cases h
      | _ => cases h
  | readingBody parts =>
      cases e with
      | bodyGet =>
          obtain ⟨⟨chunk, taken⟩, -, heq⟩ := Option.map_eq_some_iff.mp h
          simp only at heq
          split at heq <;> cases heq
      | _ => cases h
  | _ =>
      have hanswering := agentStep_answering env conn conn' id _ _ e out h hhttp (by simp) (by simp)
      cases hanswering

end NetworkFileServer.Agent

namespace NetworkFileServer.Tunnel

open Relay Agent TunnelConnection

/-- The frames of a request after its OPEN. -/
def BodyFrames (frames : List Frame) : Prop := ∀ f ∈ frames, f.type = .data ∨ f.type = .cancel

theorem BodyFrames.append {fs gs : List Frame} (hf : BodyFrames fs) (hg : BodyFrames gs) :
    BodyFrames (fs ++ gs) := by
  intro f hmem
  rcases List.mem_append.mp hmem with hmem | hmem
  · exact hf f hmem
  · exact hg f hmem

namespace JointTunnel

/-- The payloads `parts` are taken, and the others are buffered and then `rest`. What is to come does
come as long as the stream is in the agent's table. -/
def Awaits (chunks : List Bytes) (id : UUID) (s : JointTunnel) (parts : List Bytes) : Prop :=
  ∃ rest, parts ++ (s.agent.conn.buffered id ++ rest) = bodyPayloads chunks ∧
    (id ∈ s.agent.conn.streams → rest = dataPayloads id s.toAgent ++ (s.upload id).remaining)

/-- What the task of a request has of its body. -/
def BodyAt (chunks : List Bytes) (id : UUID) (s : JointTunnel) : AgentPc → Prop
  | .spawned => s.Awaits chunks id []
  | .readingBody parts => (∀ p ∈ parts, p ≠ []) ∧ s.Awaits chunks id parts
  | .requesting content => content = chunks.flatten
  | pc => pc ≠ .absent ∧ pc.isWebSocket = false

/-- How far a request has got on its way to its task; `valid` says whether the agent accepts its
metadata. -/
inductive RequestPhase (valid : Bool) (metadata : Bytes) (id : UUID) (chunks : List Bytes)
    (s : JointTunnel) : Prop
  /-- The OPEN is still to be sent. -/
  | unopened (hrelay : s.relay.handler id = .sendingRequest ∨ s.relay.handler id = .ended)
      (hupload : s.upload id = .opening chunks) (hframes : framesOf id s.toAgent = [])
      (hagent : s.agent.handler id = .absent)
  /-- The OPEN is on its way, before everything else. -/
  | announced (rest : List Frame) (hupload : ∀ cs, s.upload id ≠ .opening cs)
      (hframes : framesOf id s.toAgent = ⟨.open, id, metadata⟩ :: rest) (hrest : BodyFrames rest)
      (haccount : dataPayloads id s.toAgent ++ (s.upload id).remaining = bodyPayloads chunks)
      (hagent : s.agent.handler id = .absent)
  /-- The OPEN has arrived. -/
  | arrived (hupload : ∀ cs, s.upload id ≠ .opening cs) (hframes : BodyFrames (framesOf id s.toAgent))
      (hbody : s.BodyAt chunks id (s.agent.handler id))
      (hvalid : s.agent.handler id = .rejected ↔ valid = false)
  /-- The OPEN did not get a stream, which has ended the receive loop. -/
  | lost (hupload : ∀ cs, s.upload id ≠ .opening cs) (hloop : s.agent.conn.receiveLoop = .ended)
      (hagent : s.agent.handler id = .absent)

section Request

variable {valid : Bool} {metadata : Bytes} {id : UUID} {chunks : List Bytes} {s t : JointTunnel}

theorem dataPayloads_congr {fs gs : List Frame} (h : framesOf id fs = framesOf id gs) :
    dataPayloads id fs = dataPayloads id gs := by
  rw [← dataPayloads_framesOf id fs, h, dataPayloads_framesOf]

theorem Awaits.congr {parts : List Bytes} (h : s.Awaits chunks id parts)
    (hbuffered : t.agent.conn.buffered id = s.agent.conn.buffered id)
    (htable : id ∈ t.agent.conn.streams → id ∈ s.agent.conn.streams)
    (hrest : dataPayloads id t.toAgent ++ (t.upload id).remaining =
      dataPayloads id s.toAgent ++ (s.upload id).remaining) : t.Awaits chunks id parts := by
  obtain ⟨rest, heq, hcomes⟩ := h
  refine ⟨rest, ?_, ?_⟩
  · rw [hbuffered]
    exact heq
  · intro hmem
    rw [hrest]
    exact hcomes (htable hmem)

theorem BodyAt.congr {pc : AgentPc} (h : s.BodyAt chunks id pc)
    (hbuffered : t.agent.conn.buffered id = s.agent.conn.buffered id)
    (htable : id ∈ t.agent.conn.streams → id ∈ s.agent.conn.streams)
    (hrest : dataPayloads id t.toAgent ++ (t.upload id).remaining =
      dataPayloads id s.toAgent ++ (s.upload id).remaining) : t.BodyAt chunks id pc := by
  cases pc with
  | spawned => exact Awaits.congr h hbuffered htable hrest
  | readingBody parts => exact ⟨h.1, Awaits.congr h.2 hbuffered htable hrest⟩
  | _ => exact h

theorem BodyAt.http {pc : AgentPc} (h : s.BodyAt chunks id pc) :
    pc ≠ .absent ∧ pc.isWebSocket = false := by
  cases pc with
  | spawned | readingBody | requesting => exact ⟨nofun, rfl⟩
  | _ => exact h

theorem RequestPhase.agent_http (h : RequestPhase valid metadata id chunks s) :
    (s.agent.handler id).isWebSocket = false := by
  cases h with
  | unopened _ _ _ habsent => simp [habsent, AgentPc.isWebSocket]
  | announced _ _ _ _ _ habsent => simp [habsent, AgentPc.isWebSocket]
  | arrived _ _ hat _ => exact hat.http.2
  | lost _ _ habsent => simp [habsent, AgentPc.isWebSocket]

theorem RequestPhase.not_wsOpen (h : RequestPhase valid metadata id chunks s) (f : Frame)
    (hf : f ∈ s.toAgent) (hid : f.requestId = id) (hloop : s.agent.conn.receiveLoop = .receiving) :
    f.type ≠ .wsOpen := by
  have hmem : f ∈ framesOf id s.toAgent := by simp [framesOf, hf, hid]
  have hbody : ∀ rest : List Frame, BodyFrames rest → f ∈ rest → f.type ≠ .wsOpen := by
    intro rest hrest hin
    rcases hrest f hin with htype | htype <;> simp [htype]
  cases h with
  | unopened _ _ hnone _ =>
      rw [hnone] at hmem
      cases hmem
  | announced rest _ hopen hrest _ _ =>
      rw [hopen] at hmem
      rcases List.mem_cons.mp hmem with rfl | hin
      · simp
      · exact hbody rest hrest hin
  | arrived _ hframes _ _ => exact hbody _ hframes hmem
  | lost _ hended _ =>
      rw [hloop] at hended
      cases hended

theorem RequestPhase.congr (h : RequestPhase valid metadata id chunks s) (hlane : t.lane id = s.lane id)
    (hupload : t.upload id = s.upload id)
    (hloop : s.agent.conn.receiveLoop = .ended → t.agent.conn.receiveLoop = .ended) :
    RequestPhase valid metadata id chunks t := by
  have hrelay : t.relay.handler id = s.relay.handler id := congrArg BridgeLane.relay hlane
  have hframes : framesOf id t.toAgent = framesOf id s.toAgent := congrArg BridgeLane.toAgent hlane
  have hagent : t.agent.handler id = s.agent.handler id := congrArg BridgeLane.agent hlane
  have hbuffered : t.agent.conn.buffered id = s.agent.conn.buffered id :=
    congrArg BridgeLane.agentBuffered hlane
  have htable : id ∈ t.agent.conn.streams → id ∈ s.agent.conn.streams := by
    have heq : decide (id ∈ t.agent.conn.streams) = decide (id ∈ s.agent.conn.streams) :=
      congrArg BridgeLane.inAgent hlane
    intro hmem
    simpa [hmem] using heq.symm
  have hrest : dataPayloads id t.toAgent ++ (t.upload id).remaining =
      dataPayloads id s.toAgent ++ (s.upload id).remaining := by
    rw [dataPayloads_congr hframes, hupload]
  cases h with
  | unopened hpc hopening hnone habsent =>
      exact .unopened (hrelay ▸ hpc) (hupload.trans hopening) (hframes.trans hnone)
        (hagent.trans habsent)
  | announced rest hopening hopen hbody haccount habsent =>
      exact .announced rest (hupload ▸ hopening) (hframes.trans hopen) hbody (hrest.trans haccount)
        (hagent.trans habsent)
  | arrived hopening hbodies hbody hvalid =>
      refine .arrived (hupload ▸ hopening) (hframes ▸ hbodies) ?_ (hagent ▸ hvalid)
      rw [hagent]
      exact hbody.congr hbuffered htable hrest
  | lost hopening hended habsent =>
      exact .lost (hupload ▸ hopening) (hloop hended) (hagent.trans habsent)

/-- The relay moves. After the OPEN it hands to the channel what it had still to send of the request,
or a frame that ends it. -/
theorem RequestPhase.of_relay (h : RequestPhase valid metadata id chunks s)
    (hunopened : s.upload id = .opening chunks →
      (s.relay.handler id = .sendingRequest ∨ s.relay.handler id = .ended) →
      (t.relay.handler id = .sendingRequest ∨ t.relay.handler id = .ended) ∧
        t.upload id = .opening chunks ∧ t.toAgent = s.toAgent)
    (hopening : (∀ cs, s.upload id ≠ .opening cs) → ∀ cs, t.upload id ≠ .opening cs)
    (out : List Frame) (hagent : t.agent = s.agent) (hout : t.toAgent = s.toAgent ++ out)
    (hbody : (∀ cs, s.upload id ≠ .opening cs) → BodyFrames (framesOf id out))
    (hrest : dataPayloads id t.toAgent ++ (t.upload id).remaining =
      dataPayloads id s.toAgent ++ (s.upload id).remaining) :
    RequestPhase valid metadata id chunks t := by
  cases h with
  | unopened hpc hup hnone habsent =>
      obtain ⟨hpc', hup', hframes⟩ := hunopened hup hpc
      exact .unopened hpc' hup' (hframes ▸ hnone) (hagent ▸ habsent)
  | announced rest hno hopen hrestFrames haccount habsent =>
      refine .announced (rest ++ framesOf id out) (hopening hno) ?_ (hrestFrames.append (hbody hno))
        (hrest.trans haccount) (hagent ▸ habsent)
      rw [hout, framesOf_append, hopen, List.cons_append]
  | arrived hno hframes hat hvalid =>
      refine .arrived (hopening hno) ?_ ?_ (hagent ▸ hvalid)
      · rw [hout, framesOf_append]
        exact hframes.append (hbody hno)
      · rw [hagent]
        exact hat.congr (by rw [hagent]) (by simp [hagent]) hrest
  | lost hno hloop habsent => exact .lost (hopening hno) (hagent ▸ hloop) (hagent ▸ habsent)

theorem RequestPhase.of_relay_conn (h : RequestPhase valid metadata id chunks s)
    (hhandler : t.relay.handler id = s.relay.handler id) (hupload : t.upload = s.upload)
    (hagent : t.agent = s.agent) (hframes : t.toAgent = s.toAgent) :
    RequestPhase valid metadata id chunks t := by
  refine h.of_relay ?_ ?_ [] hagent (by simp [hframes]) (fun _ => nofun) (by rw [hframes, hupload])
  · intro hup hpc
    exact ⟨hhandler ▸ hpc, hupload ▸ hup, hframes⟩
  · rw [hupload]
    exact fun hno => hno

theorem senderStep_not_opening (pc pc' : SenderPc) (payload : Bytes) (out : Option Frame)
    (h : senderStep id payload pc = some (pc', out)) : ∀ cs, pc' ≠ .opening cs := by
  rintro cs rfl
  cases pc with
  | opening chunks => cases h
  | streaming rest => cases rest <;> cases h
  | splitting chunk offset rest =>
      simp only [senderStep] at h
      split at h <;> cases h
  | sent => cases h

theorem requestPhase_upload (env : AgentEnv) (metadata : UUID → Bytes)
    (hphase : RequestPhase (env.validOpen (metadata id)) (metadata id) id chunks s)
    (h : s.step env metadata (.upload id) = some t) : RequestPhase (env.validOpen (metadata id))
    (metadata id) id chunks t := by
  simp only [step] at h
  split at h
  · obtain ⟨⟨pc, out⟩, hsend, rfl⟩ := Option.map_eq_some_iff.mp h
    have hno := senderStep_not_opening _ pc (metadata id) out hsend
    have hremaining := senderStep_remaining id (metadata id) _ pc out hsend
    by_cases hup : s.upload id = .opening chunks
    · -- The OPEN is sent.
      rw [hup] at hsend hremaining
      cases hsend
      cases hphase with
      | unopened hpc _ hnone habsent =>
          refine .announced [] (by simp) ?_ (by simp [BodyFrames]) ?_ habsent
          · rw [framesOf_append, hnone]
            simp [framesOf]
          · have hempty : dataPayloads id s.toAgent = [] := AgentTunnel.dataPayloads_of_nil hnone
            simp only [dataPayloads_append, hempty, Function.update_self]
            simp [dataPayloads, SenderPc.remaining]
      | announced _ hnot => exact absurd hup (hnot chunks)
      | arrived hnot => exact absurd hup (hnot chunks)
      | lost hnot => exact absurd hup (hnot chunks)
    · refine hphase.of_relay (fun heq => absurd heq hup) (fun _ => by simpa using hno) out.toList rfl rfl
        ?_ ?_
      · intro hnot f hf
        have hmem : out = some f := Option.mem_toList.mp (List.mem_of_mem_filter hf)
        subst hmem
        rcases senderStep_frame id (metadata id) _ pc f hsend with ⟨cs, hcs, -⟩ | ⟨-, hdata⟩
        · exact absurd hcs (hnot cs)
        · exact .inl (by rw [hdata])
      · simp only [dataPayloads_append, Function.update_self]
        rw [hremaining, List.append_assoc]
  · cases h

theorem relaySends_http (id : UUID) (payload : Bytes) (pc : ProxyPc) (e : ProxyEvent)
    (hpc : pc.isWebSocket = false) :
    BodyFrames (relaySends payload false id pc e) ∧
      dataPayloads id (relaySends payload false id pc e) = [] ∧
      (pc = .sendingRequest ∨ pc = .ended → relaySends payload false id pc e = []) := by
  cases pc with
  | wsOpening => cases hpc
  | timedOut | checking =>
      cases e <;> simp [relaySends, BodyFrames, dataPayloads]
  | _ => cases e <;> simp [relaySends, BodyFrames]

/-- A handler of a request delivers no message of a WebSocket, and it goes on to `read_stream` once
its request is sent. -/
theorem step_relayHandler_http (env : AgentEnv) (metadata : UUID → Bytes) (e : ProxyEvent)
    (hhttp : (s.relay.handler id).isWebSocket = false)
    (h : s.step env metadata (.relayHandler id e) = some t) :
    ¬ (s.relay.handler id = .sendingRequest ∧ e = .sent ∧ s.upload id ≠ .sent) ∧
      ∃ relay, s.relay.step (.handler id e) = some relay ∧ t = { s with
        relay := relay
        toAgent := s.toAgent ++ relaySends (metadata id) (s.webSocket id) id (s.relay.handler id) e } := by
  have hchunk : relayChunk s.relay.conn id (s.relay.handler id) e = none := by
    cases hpc : s.relay.handler id with
    | bridging iter =>
        rw [hpc] at hhttp
        cases hhttp
    | _ => cases e <;> rfl
  simp only [step] at h
  split at h
  · cases h
  · rename_i hguard
    obtain ⟨relay, hrelay, rfl⟩ := Option.map_eq_some_iff.mp h
    rw [hchunk]
    exact ⟨hguard, relay, hrelay, rfl⟩

theorem requestPhase_relayHandler (env : AgentEnv) (metadata : UUID → Bytes) (e : ProxyEvent)
    (hphase : RequestPhase (env.validOpen (metadata id)) (metadata id) id chunks s) (hsocket : s.webSocket id = false)
    (hhttp : (s.relay.handler id).isWebSocket = false)
    (h : s.step env metadata (.relayHandler id e) = some t) :
    RequestPhase (env.validOpen (metadata id)) (metadata id) id chunks t := by
  obtain ⟨hguard, relay, hrelay, rfl⟩ := step_relayHandler_http env metadata e hhttp h
  obtain ⟨⟨conn, pc⟩, hstep, rfl⟩ := Option.map_eq_some_iff.mp hrelay
  obtain ⟨hbody, hnone, hquiet⟩ := relaySends_http id (metadata id) (s.relay.handler id) e hhttp
  rw [← hsocket] at hbody hnone hquiet
  refine hphase.of_relay ?_ (fun hno => hno) _ rfl rfl ?_ ?_
  · intro hup hpc
    refine ⟨.inr ?_, hup, by simp [hquiet hpc]⟩
    -- With its OPEN unsent the handler can only give the request up.
    rcases hpc with hpc | hpc
    · rw [hpc] at hstep
      cases e with
      | sent => exact absurd ⟨hpc, rfl, by simp [hup]⟩ hguard
      | _ => cases hstep <;> simp
    · rw [hpc] at hstep
      cases e <;> cases hstep
  · intro _ f hf
    exact hbody f (List.mem_of_mem_filter hf)
  · simp [dataPayloads_append, hnone]

theorem Awaits.dispatch {parts : List Bytes} (h : s.Awaits chunks id parts) (f : Frame)
    (rest : List Frame) (hframes : s.toAgent = f :: rest) (hid : f.requestId = id)
    (hloop : s.agent.conn.receiveLoop = .receiving) (htype : f.type = .data ∨ f.type = .cancel)
    (hagent : t.agent.conn = s.agent.conn.dispatchFrame f) (hrest : t.toAgent = rest)
    (hupload : t.upload = s.upload) : t.Awaits chunks id parts := by
  obtain ⟨later, heq, hcomes⟩ := h
  have hbuffered : s.agent.conn.buffered id = (s.agent.conn.states id).queue.items := by
    simp [buffered, pendingPut, hloop]
  have htable : id ∈ t.agent.conn.streams ↔ id ∈ s.agent.conn.streams := by
    rw [hagent, dispatchFrame_streams]
  rcases htype with hdata | hcancel
  · by_cases hmem : id ∈ s.agent.conn.streams
    · have hput : s.agent.conn.dispatchFrame f = s.agent.conn.putPayload id f.payload := by
        subst hid
        exact dispatchFrame_put s.agent.conn f (by simp [hdata, FrameType.carriesData]) hmem
      have hcons : dataPayloads id s.toAgent = f.payload :: dataPayloads id rest := by
        rw [hframes, dataPayloads_cons]
        simp [hid, hdata]
      have hnext := hcomes hmem
      rw [hcons] at hnext
      refine ⟨dataPayloads id rest ++ (s.upload id).remaining, ?_, ?_⟩
      · rw [hagent, hput, putPayload_buffered, ← heq, hnext, hbuffered]
        simp
      · intro _
        rw [hrest, hupload]
    · have hdrop : s.agent.conn.dispatchFrame f = s.agent.conn :=
        dispatchFrame_drop s.agent.conn f (hid ▸ hmem)
      refine ⟨later, ?_, ?_⟩
      · rw [hagent, hdrop]
        exact heq
      · intro hmem'
        exact absurd (htable.mp hmem') hmem
  · obtain ⟨-, hkeep, hstates⟩ :=
      dispatchFrame_end_frame s.agent.conn f (by simp [hcancel, FrameType.endsStream])
    have hsame : dataPayloads id s.toAgent = dataPayloads id rest := by
      rw [hframes, dataPayloads_cons]
      simp [hcancel]
    refine ⟨later, ?_, ?_⟩
    · have hkept : t.agent.conn.buffered id = s.agent.conn.buffered id := by
        rw [hagent]
        simp [buffered, pendingPut, hkeep, (hstates id).1]
      rw [hkept]
      exact heq
    · intro hmem
      rw [hrest, hupload, ← hsame]
      exact hcomes (htable.mp hmem)

theorem requestPhase_opens (env : AgentEnv) (metadata : UUID → Bytes) (rest : List Frame)
    (hupload : ∀ cs, s.upload id ≠ .opening cs)
    (hframes : s.toAgent = ⟨.open, id, metadata id⟩ :: rest) (hrest : BodyFrames (framesOf id rest))
    (haccount : dataPayloads id s.toAgent ++ (s.upload id).remaining = bodyPayloads chunks)
    (hagent : s.agent.handler id = .absent) (h : s.step env metadata .agentReceive = some t) :
    RequestPhase (env.validOpen (metadata id)) (metadata id) id chunks t := by
  simp only [step, hframes, AgentTunnel.step] at h
  split at h
  · rename_i hloop
    have hpayloads : dataPayloads id rest ++ (s.upload id).remaining = bodyPayloads chunks := by
      rw [hframes, dataPayloads_cons] at haccount
      simpa using haccount
    simp only [AgentTunnel.onFrame, hagent, ne_eq, not_true_eq_false, if_false] at h
    split at h
    · rename_i hvalid
      obtain ⟨agent, hspawn, rfl⟩ := Option.map_eq_some_iff.mp h
      cases hspawn
      unfold AgentTunnel.spawn
      cases hopen : s.agent.conn.openStream id with
      | ok conn =>
          obtain ⟨hstate, -, hstreams, hkeep⟩ := openStream_cases s.agent.conn conn id hopen
          have hbuffered : conn.buffered id = [] := by
            simp [buffered, pendingPut, hkeep, hloop, hstate, StreamState.fresh, BoundedQueue.empty]
          refine .arrived hupload hrest ?_ (by simp [moveAgent, AgentTunnel.setHandler, hvalid])
          simp only [moveAgent, AgentTunnel.setHandler, Function.update_self]
          refine ⟨dataPayloads id rest ++ (s.upload id).remaining, ?_, fun _ => rfl⟩
          show [] ++ (conn.buffered id ++ _) = _
          rw [hbuffered]
          exact hpayloads
      | error err => exact .lost hupload rfl hagent
    · rename_i hinvalid
      obtain ⟨agent, hreject, rfl⟩ := Option.map_eq_some_iff.mp h
      cases hreject
      refine .arrived hupload hrest ?_ ?_
      · simp [moveAgent, AgentTunnel.reject, AgentTunnel.setHandler, BodyAt, AgentPc.isWebSocket]
      · simpa [moveAgent, AgentTunnel.reject, AgentTunnel.setHandler] using hinvalid
  · cases h

theorem requestPhase_agentReceive (env : AgentEnv) (metadata : UUID → Bytes) (f : Frame)
    (rest : List Frame) (hphase : RequestPhase (env.validOpen (metadata id)) (metadata id) id chunks s)
    (hframes : s.toAgent = f :: rest) (hid : f.requestId = id)
    (h : s.step env metadata .agentReceive = some t) : RequestPhase (env.validOpen (metadata id))
    (metadata id) id chunks t := by
  have hto : framesOf id s.toAgent = f :: framesOf id rest := by
    subst hid
    rw [hframes, framesOf_cons_self]
  cases hphase with
  | unopened _ _ hnone _ =>
      rw [hto] at hnone
      cases hnone
  | announced rest' hno hopen hrest haccount habsent =>
      rw [hto] at hopen
      cases hopen
      exact requestPhase_opens env metadata rest hno hframes hrest haccount habsent h
  | arrived hno hbodies hat hvalid =>
      have htype : f.type = .data ∨ f.type = .cancel := hbodies f (by simp [hto])
      have hrest : BodyFrames (framesOf id rest) := by
        intro g hg
        exact hbodies g (by simp [hto, hg])
      have hopens : s.agent.onFrame env f =
          some { s.agent with conn := s.agent.conn.dispatchFrame f } := by
        rcases htype with htype | htype <;> simp [AgentTunnel.onFrame, htype]
      simp only [step, hframes, AgentTunnel.step, hopens] at h
      split at h
      · rename_i hloop
        cases h
        refine .arrived hno hrest ?_ hvalid
        have hawaits : ∀ parts, s.Awaits chunks id parts → Awaits chunks id
            { s.moveAgent { s.agent with conn := s.agent.conn.dispatchFrame f } with toAgent := rest }
            parts := fun parts hparts => hparts.dispatch f rest hframes hid hloop htype rfl rfl rfl
        show BodyAt chunks id _ (s.agent.handler id)
        cases hpc : s.agent.handler id with
        | spawned =>
            rw [hpc] at hat
            exact hawaits [] hat
        | readingBody parts =>
            rw [hpc] at hat
            exact ⟨hat.1, hawaits parts hat.2⟩
        | _ =>
            rw [hpc] at hat
            exact hat
      · cases h
  | lost _ hloop _ =>
      simp [step, hframes, AgentTunnel.step, hloop] at h

theorem BodyAt.of_answering {pc : AgentPc} (h : pc.answering = true) : s.BodyAt chunks id pc := by
  cases pc with
  | sending | sendingClose | ended => exact ⟨nofun, rfl⟩
  | _ => cases h

theorem step_agentHandler_http (env : AgentEnv) (metadata : UUID → Bytes) (e : AgentEvent)
    (hhttp : (s.agent.handler id).isWebSocket = false)
    (h : s.step env metadata (.agentHandler id e) = some t) :
    ∃ agent, s.agent.step env (.handler id e) = some agent ∧ t = s.moveAgent agent := by
  have hchunk : agentChunk s.agent.conn id (s.agent.handler id) e = none := by
    cases hpc : s.agent.handler id with
    | wsBridging iter =>
        rw [hpc] at hhttp
        cases hhttp
    | _ => cases e <;> rfl
  simp only [step] at h
  split at h
  · cases h
  · obtain ⟨agent, hagent, rfl⟩ := Option.map_eq_some_iff.mp h
    rw [hchunk]
    exact ⟨agent, hagent, rfl⟩

/-- The payload that the task takes is the next one of the body, and the empty one is its last. -/
theorem bodyAt_bodyGet {parts : List Bytes} (chunk : Bytes) (conn : TunnelConnection)
    (hparts : ∀ p ∈ parts, p ≠ []) (hawaits : s.Awaits chunks id parts)
    (htake : s.agent.conn.takeItem id = some (chunk, conn)) :
    (chunk = [] → parts.flatten = chunks.flatten) ∧
      (chunk ≠ [] → t.agent.conn = conn → t.toAgent = s.toAgent → t.upload = s.upload →
        t.BodyAt chunks id (.readingBody (parts ++ [chunk]))) := by
  obtain ⟨rest, heq, hcomes⟩ := hawaits
  have hbuffered := takeItem_buffered s.agent.conn conn id chunk htake
  rw [hbuffered, List.cons_append] at heq
  refine ⟨?_, ?_⟩
  · rintro rfl
    obtain ⟨hall, -⟩ := sentinel_last parts (chunks.flatMap slices) _ hparts
      (fun p hp => (flatMap_slices_bounds chunks p hp).1) heq
    rw [hall, flatMap_slices_flatten]
  · intro hne hconn htoAgent hupload
    refine ⟨?_, rest, ?_, ?_⟩
    · intro p hp
      rcases List.mem_append.mp hp with hp | hp
      · exact hparts p hp
      · rw [List.mem_singleton.mp hp]
        exact hne
    · rw [hconn, ← heq]
      simp
    · intro hmem
      rw [htoAgent, hupload]
      rw [hconn, takeItem_streams s.agent.conn conn id chunk htake] at hmem
      exact hcomes hmem

theorem requestPhase_agentHandler (env : AgentEnv) (metadata : UUID → Bytes) (e : AgentEvent)
    (hphase : RequestPhase (env.validOpen (metadata id)) (metadata id) id chunks s)
    (h : s.step env metadata (.agentHandler id e) = some t) :
    RequestPhase (env.validOpen (metadata id)) (metadata id) id chunks t := by
  have hhttp := hphase.agent_http
  obtain ⟨agent, hagent, rfl⟩ := step_agentHandler_http env metadata e hhttp h
  obtain ⟨⟨conn, pc, out⟩, hstep, rfl⟩ := Option.map_eq_some_iff.mp hagent
  have hopened := (agentStep_opened env s.agent.conn conn id _ pc e out hstep).1
  cases hphase with
  | unopened _ _ _ habsent => exact absurd habsent hopened
  | announced _ _ _ _ _ habsent => exact absurd habsent hopened
  | lost _ _ habsent => exact absurd habsent hopened
  | arrived hno hframes hat hvalid =>
      -- A task that moves was not rejected, and is not afterwards.
      have hrunning : s.agent.handler id ≠ .rejected := by
        intro hpc
        rw [hpc] at hstep
        cases e <;> cases hstep
      have hnext : pc ≠ .rejected := agentStep_running env s.agent.conn conn id _ pc e out hstep hhttp
      have hiff : pc = .rejected ↔ env.validOpen (metadata id) = false :=
        iff_of_false hnext (fun hnot => hrunning (hvalid.mpr hnot))
      refine .arrived hno hframes ?_ (by simpa [moveAgent, AgentTunnel.setHandler] using hiff)
      simp only [moveAgent, AgentTunnel.setHandler, Function.update_self]
      cases hpc : s.agent.handler id with
      | spawned =>
          rw [hpc] at hstep hat
          cases e with
          | start =>
              simp only [agentStep] at hstep
              split at hstep
              · cases hstep
                exact ⟨by simp, Awaits.congr hat rfl (fun hmem => hmem) rfl⟩
              · cases hstep
                exact .of_answering rfl
          | cancel =>
              cases hstep
              exact .of_answering rfl
          | _ => cases hstep
      | readingBody parts =>
          rw [hpc] at hstep hat
          cases e with
          | bodyGet =>
              obtain ⟨⟨chunk, taken⟩, htake, heq⟩ := Option.map_eq_some_iff.mp hstep
              obtain ⟨hlast, hnext⟩ := bodyAt_bodyGet chunk taken hat.1 hat.2 htake
              simp only at heq
              split at heq
              · rename_i hchunk
                cases heq
                exact hlast hchunk
              · rename_i hchunk
                cases heq
                exact hnext hchunk rfl rfl rfl
          | cancel =>
              cases hstep
              exact .of_answering rfl
          | _ => cases hstep
      | _ =>
          rw [hpc] at hhttp
          exact .of_answering (agentStep_answering env s.agent.conn conn id _ pc e out hstep
            (hpc ▸ hhttp) (by simp [hpc]) (by simp [hpc]))

theorem requestPhase_agentTearDown (env : AgentEnv) (metadata : UUID → Bytes)
    (hphase : RequestPhase (env.validOpen (metadata id)) (metadata id) id chunks s)
    (h : s.step env metadata .agentTearDown = some t) : RequestPhase (env.validOpen (metadata id))
    (metadata id) id chunks t := by
  cases h
  obtain ⟨hloop, hqueue⟩ := tearDown_frame s.agent.conn
  have hbuffered : s.agent.conn.tearDown.buffered id = s.agent.conn.buffered id := by
    simp [buffered, pendingPut, hloop, hqueue]
  cases hphase with
  | unopened hpc hup hnone habsent => exact .unopened hpc hup hnone habsent
  | announced rest hno hopen hrest haccount habsent =>
      exact .announced rest hno hopen hrest haccount habsent
  | arrived hno hframes hat hvalid =>
      exact .arrived hno hframes
        (hat.congr hbuffered (mem_of_mem_tearDown s.agent.conn id) rfl) hvalid
  | lost hno hended habsent => exact .lost hno (hloop.trans hended) habsent

end Request

end JointTunnel

end NetworkFileServer.Tunnel
