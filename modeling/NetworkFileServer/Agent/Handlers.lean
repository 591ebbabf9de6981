import NetworkFileServer.Agent.LocalResponse
import NetworkFileServer.Agent.RequestBody
import NetworkFileServer.Tunnel.ReadStream

/-!
# The handler tasks of the agent

The agent's end of a tunnel: the receive loop with `on_open` and `on_ws_open`, and one task for
every stream, `handle_open_frame` or `handle_ws_open_frame`. A position of a task is a point at
which it awaits; an event says how that await ends. Handing a frame to the WebSocket is one step.
A task is cancelled by `drain` only, when the agent shuts down.
-/

namespace NetworkFileServer.Agent

open Tunnel TunnelConnection

/-- What the agent is run with: the metadata parsers, what becomes of each request in the local
application, and httpx's content decoders. -/
structure AgentEnv where
  validOpen : Bytes → Bool
  validWsOpen : Bytes → Bool
  app : UUID → LocalRun
  decoder : ContentDecoder

/-- How the task of `handle_open_frame` has ended. -/
inductive TaskEnd where
  | returned
  /-- An exception of the application, of httpx or of `serialize_frame`. -/
  | raised
  /-- A send failed, or the connection was torn down before the task ran. -/
  | transport
  | cancelled
deriving DecidableEq

inductive AgentPc where
  | absent
  /-- `_reject_open` or `send_ws_close` has answered a malformed frame. -/
  | rejected
  /-- The stream is open and the task of `handle_open_frame` has not run. -/
  | spawned
  /-- In `chunk = await state.queue.get()`. -/
  | readingBody (parts : List Bytes)
  /-- Entering `asgi_client.stream(...)`; the inbound stream is removed. -/
  | requesting (content : Bytes)
  /-- In `send_data` of the metadata or of a chunk, with the chunks that come after it and whether
  the decoder raises after them. -/
  | sending (payload : Bytes) (rest : List Bytes) (fails : Bool)
  | sendingClose
  | ended (how : TaskEnd)
  | wsSpawned
  /-- In `ASGIWebSocketTransport` or `aconnect_ws`. -/
  | wsConnecting
  /-- The two bridge tasks were created and have not run. -/
  | wsStarting
  /-- `relay_to_local` iterates. -/
  | wsBridging (iter : IterPc)
  /-- In `send_ws_close` of the outer `finally`, without having got to the bridge. -/
  | wsRefused
  /-- The same after the `finally` of the bridge. -/
  | wsClosing
  | wsEnded
deriving DecidableEq

/-- A task of `handle_ws_open_frame`. -/
def AgentPc.isWebSocket : AgentPc → Bool
  | .wsSpawned | .wsConnecting | .wsStarting | .wsBridging _ | .wsRefused | .wsClosing
  | .wsEnded => true
  | _ => false

inductive AgentEvent where
  | start
  | bodyGet
  /-- `asgi_client.stream` has returned or raised. -/
  | respond
  | sent
  | sendFailed
  | connected
  | connectFailed
  | iter (e : IterEvent)
  /-- `local_to_relay` forwards a message of the local WebSocket. -/
  | localMessage (payload : Bytes)
  /-- A bridge task is done or has failed. -/
  | bridgeEnd
  | cancel
deriving DecidableEq

/-- From one `send_data` to the next: empty chunks are skipped, and `serialize_frame` raises on a
payload that is too large. -/
def sendNext : List Bytes → Bool → AgentPc
  | [], fails => if fails then .ended .raised else .sendingClose
  | chunk :: rest, fails =>
      if chunk = [] then sendNext rest fails
      else if maxPayloadBytes < chunk.length then .ended .raised
      else .sending chunk rest fails

/-- The response of the application is there: `send_data(request_id, meta_payload)` comes next. -/
def AgentEnv.responded (env : AgentEnv) (id : UUID) : AgentPc :=
  match (env.app id).response with
  | none => .ended .raised
  | some (status, headers, raw) =>
      let (decoded, fails) := env.decoder headers raw
      if maxPayloadBytes < (metaPayload status headers).length then .ended .raised
      else .sending (metaPayload status headers) (aiterBytes decoded fails) fails

/-- A task's next move, with the frames that it hands to the WebSocket. -/
def agentStep (env : AgentEnv) (conn : TunnelConnection) (id : UUID) :
    AgentPc → AgentEvent → Option (TunnelConnection × AgentPc × List Frame)
  | .spawned, .start =>
      match conn.getStream id with
      | .ok _ => some (conn, .readingBody [], [])
      | .error _ => some (conn, .ended .transport, [])
  | .spawned, .cancel => some (conn, .ended .cancelled, [])
  | .readingBody parts, .bodyGet =>
      (conn.takeItem id).map fun (chunk, conn) =>
        if chunk = [] then (conn.removeStream id, .requesting parts.flatten, [])
        else (conn, .readingBody (parts ++ [chunk]), [])
  | .readingBody _, .cancel => some (conn, .ended .cancelled, [])
  | .requesting _, .respond => some (conn, env.responded id, [])
  | .requesting _, .cancel => some (conn, .ended .cancelled, [])
  | .sending payload rest fails, .sent => some (conn, sendNext rest fails, [⟨.data, id, payload⟩])
  | .sending _ _ _, .sendFailed => some (conn, .ended .transport, [])
  | .sending _ _ _, .cancel => some (conn, .ended .cancelled, [])
  | .sendingClose, .sent => some (conn, .ended .returned, [⟨.close, id, []⟩])
  | .sendingClose, .sendFailed => some (conn, .ended .transport, [])
  | .sendingClose, .cancel => some (conn, .ended .cancelled, [])
  | .wsSpawned, .start => some (conn, .wsConnecting, [])
  | .wsSpawned, .cancel => some (conn, .wsEnded, [])
  | .wsConnecting, .connected => some (conn, .wsStarting, [])
  | .wsConnecting, .connectFailed => some (conn, .wsRefused, [])
  | .wsConnecting, .cancel => some (conn, .wsRefused, [])
  | .wsStarting, .start =>
      match conn.getStream id with
      | .ok _ => some (conn, .wsBridging (.waiting none false), [])
      | .error _ => some (conn.removeStream id, .wsClosing, [])
  | .wsStarting, .cancel => some (conn.removeStream id, .wsClosing, [])
  | .wsBridging iter, .iter e =>
      (conn.iterStep id iter e).map fun (conn, iter, _) =>
        if iter = .finished then (conn.removeStream id, .wsClosing, [])
        else (conn, .wsBridging iter, [])
  | .wsBridging iter, .localMessage payload =>
      if maxPayloadBytes < payload.length then some (conn.removeStream id, .wsClosing, [])
      else some (conn, .wsBridging iter, [⟨.wsData, id, payload⟩])
  | .wsBridging _, .bridgeEnd => some (conn.removeStream id, .wsClosing, [])
  -- The two tasks of a bridge that is cancelled at the shutdown go with the event loop.
  | .wsBridging _, .cancel => some (conn.removeStream id, .wsClosing, [])
  | .wsRefused, .sent | .wsClosing, .sent => some (conn, .wsEnded, [⟨.wsClose, id, []⟩])
  | .wsRefused, .sendFailed | .wsClosing, .sendFailed => some (conn, .wsEnded, [])
  | .wsRefused, .cancel | .wsClosing, .cancel => some (conn, .wsEnded, [])
  | _, _ => none

theorem agentStep_webSocket (env : AgentEnv) (conn conn' : TunnelConnection) (id : UUID)
    (pc pc' : AgentPc) (e : AgentEvent) (out : List Frame)
    (h : agentStep env conn id pc e = some (conn', pc', out)) (hws : pc.isWebSocket = true) :
    pc'.isWebSocket = true := by
  cases pc with
  | wsStarting =>
      cases e with
      | start =>
          simp only [agentStep] at h
          split at h <;> cases h <;> rfl
      | cancel =>
          cases h
          rfl
      | _ => cases h
  | wsBridging iter =>
      cases e with
      | iter e' =>
          obtain ⟨⟨moved, iter', out'⟩, -, heq⟩ := Option.map_eq_some_iff.mp h
          simp only at heq
          split at heq <;> cases heq <;> rfl
      | localMessage payload =>
          simp only [agentStep] at h
          split at h <;> cases h <;> rfl
      | bridgeEnd | cancel =>
          cases h
          rfl
      | _ => cases h
  | wsSpawned | wsConnecting | wsRefused | wsClosing | wsEnded => cases e <;> cases h <;> rfl
  | _ => cases hws

theorem sendNext_ne_absent (chunks : List Bytes) (fails : Bool) : sendNext chunks fails ≠ .absent := by
  induction chunks with
  | nil =>
      unfold sendNext
      split <;> simp
  | cons chunk rest ih =>
      unfold sendNext
      split
      · exact ih
      · split <;> simp

theorem AgentEnv.responded_ne_absent (env : AgentEnv) (id : UUID) : env.responded id ≠ .absent := by
  unfold responded
  split
  · simp
  · simp only
    split <;> simp

theorem agentStep_opened (env : AgentEnv) (conn conn' : TunnelConnection) (id : UUID)
    (pc pc' : AgentPc) (e : AgentEvent) (out : List Frame)
    (h : agentStep env conn id pc e = some (conn', pc', out)) : pc ≠ .absent ∧ pc' ≠ .absent := by
  cases pc with
  | absent => cases e <;> cases h
  | readingBody parts =>
      refine ⟨by simp, ?_⟩
      cases e with
      | bodyGet =>
          obtain ⟨⟨chunk, taken⟩, -, heq⟩ := Option.map_eq_some_iff.mp h
          simp only at heq
          split at heq <;> cases heq <;> simp
      | cancel =>
          cases h
          simp
      | _ => cases h
  | requesting content =>
      refine ⟨by simp, ?_⟩
      cases e with
      | respond =>
          cases h
          exact env.responded_ne_absent id
      | cancel =>
          cases h
          simp
      | _ => cases h
  | sending payload rest fails =>
      refine ⟨by simp, ?_⟩
      cases e with
      | sent =>
          cases h
          exact sendNext_ne_absent rest fails
      | sendFailed | cancel =>
          cases h
          simp
      | _ => cases h
  | wsBridging iter =>
      have hws := agentStep_webSocket env conn conn' id (.wsBridging iter) pc' e out h rfl
      refine ⟨by simp, ?_⟩
      rintro rfl
      cases hws
  | spawned | wsStarting =>
      refine ⟨by simp, ?_⟩
      cases e with
      | start =>
          simp only [agentStep] at h
          split at h <;> cases h <;> simp
      | cancel =>
          cases h
          simp
      | _ => cases h
  | _ =>
      refine ⟨by simp, ?_⟩
      cases e <;> cases h <;> simp

/-- Where a task of the body exchange is among all the positions of its task. -/
def HandlerPc.agentPc : HandlerPc → AgentPc
  | .absent => .absent
  | .spawned => .spawned
  | .readingBody parts => .readingBody parts
  | .rebuilt parts => .requesting parts.flatten
  | .failed => .ended .transport

theorem BodyState.step_startHandler (env : AgentEnv) (valid : Bytes → Bool)
    (metadata : UUID → Bytes) (s : BodyState) (id : UUID) :
    (s.step valid metadata (.startHandler id)).map
        (fun t => (t.agent, (t.handler id).agentPc, ([] : List Frame))) =
      agentStep env s.agent id (s.handler id).agentPc .start := by
  cases hpc : s.handler id with
  | spawned =>
      simp only [step, hpc, if_true, HandlerPc.agentPc, agentStep]
      cases s.agent.getStream id <;> simp [setHandler]
  | absent | readingBody _ | rebuilt _ | failed =>
      simp [step, hpc, HandlerPc.agentPc, agentStep]

theorem BodyState.step_bodyGet (env : AgentEnv) (valid : Bytes → Bool)
    (metadata : UUID → Bytes) (s : BodyState) (id : UUID) :
    (s.step valid metadata (.bodyGet id)).map
        (fun t => (t.agent, (t.handler id).agentPc, ([] : List Frame))) =
      agentStep env s.agent id (s.handler id).agentPc .bodyGet := by
  cases hpc : s.handler id with
  | readingBody parts =>
      simp only [step, hpc, HandlerPc.agentPc, agentStep, Option.map_map]
      congr 1
      funext taken
      by_cases hchunk : taken.1 = []
      · simp [onChunk, setHandler, hchunk]
      · simp [onChunk, setHandler, hchunk]
  | absent | spawned | rebuilt _ | failed =>
      simp [step, hpc, HandlerPc.agentPc, agentStep]

structure AgentTunnel where
  conn : TunnelConnection
  handler : UUID → AgentPc
  /-- The frames handed to the WebSocket, oldest first. -/
  sent : List Frame

inductive AgentAction where
  | receive (f : Frame)
  | resumePut
  | handler (id : UUID) (e : AgentEvent)
  | tearDown

/-- The action is about other streams. -/
def AgentAction.Spares (id : UUID) : AgentAction → Prop
  | .receive f => f.requestId ≠ id
  | .handler id' _ => id' ≠ id
  | .resumePut => True
  | .tearDown => False

namespace AgentTunnel

def init : AgentTunnel := ⟨.new, fun _ => .absent, []⟩

def setHandler (s : AgentTunnel) (id : UUID) (pc : AgentPc) : AgentTunnel :=
  { s with handler := Function.update s.handler id pc }

/-- `on_open` and `on_ws_open` after the metadata was accepted. An `open_stream` that raises ends the
receive loop. -/
def spawn (s : AgentTunnel) (id : UUID) (pc : AgentPc) : AgentTunnel :=
  match s.conn.openStream id with
  | .ok conn => { s.setHandler id pc with conn := conn }
  | .error _ => { s with conn := { s.conn with receiveLoop := .ended } }

/-- `_reject_open` and `send_ws_close`: answer a frame whose metadata is malformed. -/
def reject (s : AgentTunnel) (id : UUID) (reply : List Frame) : AgentTunnel :=
  { s.setHandler id .rejected with sent := s.sent ++ reply }

/-- One frame of `run_receive_loop_with_handlers`. The relay opens an identifier once. -/
def onFrame (env : AgentEnv) (s : AgentTunnel) (f : Frame) : Option AgentTunnel :=
  match f.type with
  | .open =>
      if s.handler f.requestId ≠ .absent then none
      else if env.validOpen f.payload then some (s.spawn f.requestId .spawned)
      else some (s.reject f.requestId
        [⟨.data, f.requestId, metaPayload 400 []⟩, ⟨.close, f.requestId, []⟩])
  | .wsOpen =>
      if s.handler f.requestId ≠ .absent then none
      else if env.validWsOpen f.payload then some (s.spawn f.requestId .wsSpawned)
      else some (s.reject f.requestId [⟨.wsClose, f.requestId, []⟩])
  | _ => some { s with conn := s.conn.dispatchFrame f }

def step (env : AgentEnv) (s : AgentTunnel) : AgentAction → Option AgentTunnel
  | .receive f => if s.conn.receiveLoop = .receiving then s.onFrame env f else none
  | .resumePut => s.conn.resumePut.map fun conn => { s with conn := conn }
  | .handler id e =>
      (agentStep env s.conn id (s.handler id) e).map fun (conn, pc, out) =>
        { s.setHandler id pc with conn := conn, sent := s.sent ++ out }
  | .tearDown => some { s with conn := s.conn.tearDown }

/-- An agent whose application answers every request with the same run. -/
def plainEnv (run : LocalRun) : AgentEnv :=
  ⟨fun _ => true, fun _ => true, fun _ => run, fun _ raw => (raw, false)⟩

/-- A small file. -/
def hello : LocalRun := ⟨false, some (200, [("content-length", "2")]), [[104, 105]], true, false⟩

/-- The error middleware of Starlette raises after its complete 500. -/
def raising : LocalRun := { hello with raised := true }

/-- A GET request up to the response of the application. -/
def getRequest : List AgentAction :=
  [.receive ⟨.open, 1, []⟩, .receive ⟨.data, 1, []⟩, .handler 1 .start, .handler 1 .bodyGet,
    .handler 1 .respond]

/-- What a step that is not one of the stream's own task leaves of it. -/
structure Beside (id : UUID) (s t : AgentTunnel) : Prop where
  handler : t.handler id = s.handler id
  sent : framesOf id t.sent = framesOf id s.sent
  queue : ∃ more, (t.conn.states id).queue.items = (s.conn.states id).queue.items ++ more
  table : id ∈ t.conn.streams → id ∈ s.conn.streams

/-- A task touches the connection by an item of its stream and by its table entry, and hands over
frames of its own stream only. -/
theorem agentStep_frame (env : AgentEnv) (conn conn' : TunnelConnection) (id : UUID)
    (pc pc' : AgentPc) (e : AgentEvent) (out : List Frame)
    (h : agentStep env conn id pc e = some (conn', pc', out)) :
    Touches id conn conn' ∧ ∀ f ∈ out, f.requestId = id := by
  cases pc with
  | readingBody parts =>
      cases e with
      | bodyGet =>
          obtain ⟨⟨chunk, taken⟩, ht, heq⟩ := Option.map_eq_some_iff.mp h
          simp only at heq
          split at heq
          · cases heq
            exact ⟨.remove (.take chunk ht), nofun⟩
          · cases heq
            exact ⟨.take chunk ht, nofun⟩
      | cancel =>
          cases h
          exact ⟨.refl, nofun⟩
      | _ => cases h
  | wsBridging iter =>
      cases e with
      | iter e' =>
          obtain ⟨⟨moved, iter', out'⟩, hstep, heq⟩ := Option.map_eq_some_iff.mp h
          have htouches := iterStep_touches conn moved id iter iter' e' out' hstep
          simp only at heq
          split at heq
          · cases heq
            exact ⟨.remove htouches, nofun⟩
          · cases heq
            exact ⟨htouches, nofun⟩
      | localMessage payload =>
          simp only [agentStep] at h
          split at h
          · cases h
            exact ⟨.remove .refl, nofun⟩
          · cases h
            exact ⟨.refl, by simp⟩
      | bridgeEnd | cancel =>
          cases h
          exact ⟨.remove .refl, nofun⟩
      | _ => cases h
  | spawned =>
      cases e with
      | start =>
          simp only [agentStep] at h
          split at h <;> cases h <;> exact ⟨.refl, nofun⟩
      | cancel =>
          cases h
          exact ⟨.refl, nofun⟩
      | _ => cases h
  | wsStarting =>
      cases e with
      | start =>
          simp only [agentStep] at h
          split at h
          · cases h
            exact ⟨.refl, nofun⟩
          · cases h
            exact ⟨.remove .refl, nofun⟩
      | cancel =>
          cases h
          exact ⟨.remove .refl, nofun⟩
      | _ => cases h
  | _ => cases e <;> cases h <;> exact ⟨.refl, by simp⟩

theorem agentStep_others (env : AgentEnv) (conn conn' : TunnelConnection) (id id' : UUID)
    (pc pc' : AgentPc) (e : AgentEvent) (out : List Frame)
    (h : agentStep env conn id pc e = some (conn', pc', out)) (hne : id' ≠ id) :
    conn'.states id' = conn.states id' ∧ (id' ∈ conn'.streams ↔ id' ∈ conn.streams) ∧
      framesOf id' out = [] := by
  obtain ⟨htouches, hout⟩ := agentStep_frame env conn conn' id pc pc' e out h
  refine ⟨htouches.states_ne hne, htouches.mem_iff hne, ?_⟩
  simp only [framesOf, List.filter_eq_nil_iff]
  intro f hf
  simp [hout f hf, Ne.symm hne]

theorem onFrame_cases (env : AgentEnv) (s t : AgentTunnel) (f : Frame)
    (h : s.onFrame env f = some t) :
    (f.type.opensStream = false ∧ t = { s with conn := s.conn.dispatchFrame f }) ∨
    (f.type.opensStream = true ∧ s.handler f.requestId = .absent ∧
      ((∃ pc, (pc = .spawned ∨ pc = .wsSpawned) ∧ t = s.spawn f.requestId pc) ∨
        ∃ reply, t = s.reject f.requestId reply ∧ ∀ g ∈ reply, g.requestId = f.requestId)) := by
  unfold onFrame at h
  split at h
  · rename_i htype
    split at h
    · cases h
    · rename_i habsent
      refine .inr ⟨by simp [htype, FrameType.opensStream], not_not.mp habsent, ?_⟩
      split at h
      · cases h
        exact .inl ⟨.spawned, .inl rfl, rfl⟩
      · cases h
        exact .inr ⟨_, rfl, by simp⟩
  · rename_i htype
    split at h
    · cases h
    · rename_i habsent
      refine .inr ⟨by simp [htype, FrameType.opensStream], not_not.mp habsent, ?_⟩
      split at h
      · cases h
        exact .inl ⟨.wsSpawned, .inr rfl, rfl⟩
      · cases h
        exact .inr ⟨_, rfl, by simp⟩
  · rename_i hopen hwsOpen
    cases h
    refine .inl ⟨?_, rfl⟩
    cases htype : f.type with
    | «open» => exact absurd htype hopen
    | wsOpen => exact absurd htype hwsOpen
    | _ => rfl

theorem beside_spawn (s : AgentTunnel) (id id' : UUID) (pc : AgentPc) (hne : id ≠ id') :
    Beside id s (s.spawn id' pc) := by
  unfold spawn
  split
  · rename_i conn hopen
    obtain ⟨-, hothers, hstreams, -⟩ := openStream_cases s.conn conn id' hopen
    refine ⟨by simp [setHandler, hne], rfl, ⟨[], by simp [hothers id hne]⟩, ?_⟩
    intro hmem
    simpa [hstreams, hne] using hmem
  · exact ⟨rfl, rfl, ⟨[], by simp⟩, fun hmem => hmem⟩

theorem beside_reject (s : AgentTunnel) (id id' : UUID) (reply : List Frame) (hne : id ≠ id')
    (hreply : ∀ g ∈ reply, g.requestId = id') : Beside id s (s.reject id' reply) := by
  refine ⟨by simp [reject, setHandler, hne], ?_, ⟨[], by simp [reject, setHandler]⟩, fun hmem => hmem⟩
  have hnone : framesOf id reply = [] := by
    simp only [framesOf, List.filter_eq_nil_iff]
    intro g hg
    simp [hreply g hg, Ne.symm hne]
  show framesOf id (s.sent ++ reply) = framesOf id s.sent
  rw [framesOf_append, hnone, List.append_nil]

/-- A step from the point of view of one stream: it is somebody else's, a move of the stream's own
task, or the frame that opens the stream. -/
theorem step_cases (env : AgentEnv) (s t : AgentTunnel) (a : AgentAction) (id : UUID)
    (h : s.step env a = some t) :
    Beside id s t ∨
    (∃ e conn pc out, a = .handler id e ∧
      agentStep env s.conn id (s.handler id) e = some (conn, pc, out) ∧
      t = { s.setHandler id pc with conn := conn, sent := s.sent ++ out }) ∨
    (s.handler id = .absent ∧ ((∃ pc, (pc = .spawned ∨ pc = .wsSpawned) ∧ t = s.spawn id pc) ∨
      ∃ reply, t = s.reject id reply)) := by
  cases a with
  | receive f =>
      simp only [step] at h
      split at h
      · rcases onFrame_cases env s t f h with ⟨-, rfl⟩ | ⟨-, habsent, hcase⟩
        · refine .inl ⟨rfl, rfl, dispatchFrame_items s.conn f id, ?_⟩
          simp [dispatchFrame_streams]
        · by_cases hid : id = f.requestId
          · subst hid
            refine .inr (.inr ⟨habsent, ?_⟩)
            rcases hcase with hspawn | ⟨reply, hreject, -⟩
            · exact .inl hspawn
            · exact .inr ⟨reply, hreject⟩
          · left
            rcases hcase with ⟨pc, -, rfl⟩ | ⟨reply, rfl, hreply⟩
            · exact beside_spawn s id f.requestId pc hid
            · exact beside_reject s id f.requestId reply hid hreply
      · cases h
  | resumePut =>
      obtain ⟨conn, hput, rfl⟩ := Option.map_eq_some_iff.mp h
      obtain ⟨id', p, -, -, rfl⟩ := resumePut_cases s.conn conn hput
      exact .inl ⟨rfl, rfl, putPayload_items s.conn id' id p, by simp⟩
  | handler id' e =>
      obtain ⟨⟨conn, pc, out⟩, hstep, rfl⟩ := Option.map_eq_some_iff.mp h
      by_cases hid : id = id'
      · subst hid
        exact .inr (.inl ⟨e, conn, pc, out, rfl, hstep, rfl⟩)
      · obtain ⟨hstate, hstreams, hout⟩ :=
          agentStep_others env s.conn conn id' id _ pc e out hstep hid
        refine .inl ⟨by simp [setHandler, hid], ?_, ⟨[], by simp [hstate]⟩, hstreams.mp⟩
        rw [framesOf_append, hout, List.append_nil]
  | tearDown =>
      cases h
      obtain ⟨-, hqueue⟩ := tearDown_frame s.conn
      exact .inl ⟨rfl, rfl, ⟨[], by simp [hqueue id]⟩, mem_of_mem_tearDown s.conn id⟩

theorem untouched_spawn (s : AgentTunnel) (id id' : UUID) (pc : AgentPc) (hne : id ≠ id')
    (hloop : s.conn.receiveLoop = .receiving) : s.conn.Untouched id (s.spawn id' pc).conn := by
  unfold spawn
  split
  · exact .of_openStream ‹_› hne
  · -- The loop held nothing when it ended.
    refine ⟨?_, fun _ => rfl, rfl, Iff.rfl⟩
    simp [TunnelConnection.buffered, pendingPut, hloop]

/-- A step that is not about a stream leaves its task, its part of the connection and its frames
alone. -/
theorem step_untouched (env : AgentEnv) (s t : AgentTunnel) (a : AgentAction) (id : UUID)
    (h : s.step env a = some t) (ha : a.Spares id) :
    t.handler id = s.handler id ∧ s.conn.Untouched id t.conn ∧
      ∃ out, t.sent = s.sent ++ out ∧ framesOf id out = [] := by
  cases a with
  | receive f =>
      have hne : id ≠ f.requestId := Ne.symm ha
      simp only [step] at h
      split at h
      · rename_i hloop
        rcases onFrame_cases env s t f h with ⟨-, rfl⟩ | ⟨-, -, hcase⟩
        · exact ⟨rfl, .of_dispatchFrame f hloop ha, [], by simp, rfl⟩
        · rcases hcase with ⟨pc, -, rfl⟩ | ⟨reply, rfl, hreply⟩
          · refine ⟨(beside_spawn s id f.requestId pc hne).handler, untouched_spawn s id _ pc hne hloop,
              [], ?_, rfl⟩
            unfold spawn
            split <;> simp [setHandler]
          · refine ⟨(beside_reject s id f.requestId reply hne hreply).handler, .refl, reply, rfl, ?_⟩
            simp only [framesOf, List.filter_eq_nil_iff]
            intro g hg
            simp [hreply g hg, Ne.symm hne]
      · cases h
  | resumePut =>
      obtain ⟨conn, hput, rfl⟩ := Option.map_eq_some_iff.mp h
      exact ⟨rfl, .of_resumePut hput, [], by simp, rfl⟩
  | handler id' e =>
      have hne : id ≠ id' := Ne.symm ha
      obtain ⟨⟨conn, pc, out⟩, hstep, rfl⟩ := Option.map_eq_some_iff.mp h
      obtain ⟨htouches, -⟩ := agentStep_frame env s.conn conn id' _ pc e out hstep
      obtain ⟨-, -, hout⟩ := agentStep_others env s.conn conn id' id _ pc e out hstep hne
      exact ⟨by simp [setHandler, hne], .of_touches htouches hne, out, rfl, hout⟩
  | tearDown => exact ha.elim

end AgentTunnel

end NetworkFileServer.Agent
