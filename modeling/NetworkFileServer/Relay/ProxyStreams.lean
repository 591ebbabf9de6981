import NetworkFileServer.Framework.TransitionSystem
import NetworkFileServer.Relay.HtmlRewriter
import NetworkFileServer.Tunnel.ReadStream

/-!
# The proxied streams of one mount

The relay's end of a tunnel: the receive loop and one handler (`proxy_request` or
`proxy_websocket`) for every stream. A position of a handler is a point at which it awaits; an
event says how that await ends. Which frames arrive, what the metadata of a response says and when
a browser goes away is chosen by the schedule.
-/

namespace NetworkFileServer.Relay

open Tunnel TunnelConnection

inductive ProxyPc where
  | absent
  /-- In `send_open`, `request.stream()` or `send_data`. -/
  | sendingRequest
  /-- In `read_stream(request_id, FIRST_BYTE_TIMEOUT_S)`. -/
  | readingFirst
  /-- In `send_cancel` after a `FirstByteTimeoutError`. -/
  | timedOut
  /-- In the `async for` that buffers an HTML body. -/
  | buffering (iter : IterPc) (parts : List Bytes)
  /-- A `StreamingResponse` over `stream_generator` was returned; the generator has not started. -/
  | responding
  /-- The same for `passthrough_generator`. -/
  | respondingOverCap (iter : IterPc) (parts : List Bytes)
  /-- In `for part in body_parts: yield part`. -/
  | replaying (iter : IterPc) (parts : List Bytes)
  /-- In the `async for` of either generator. -/
  | streaming (iter : IterPc)
  /-- In `await request.is_disconnected()`. -/
  | checking (iter : IterPc)
  /-- In `send_ws_open`. -/
  | wsOpening
  /-- `agent_task` was created and has not started. -/
  | wsStarting
  /-- `agent_to_browser` iterates. -/
  | bridging (iter : IterPc)
  /-- Nothing is read any more and `remove_stream` is still to come: in `send_cancel` of a
  generator, in `send_ws_close`, or a cancelled generator that was not finalised yet. -/
  | leaving
  | ended
deriving DecidableEq

/-- The request has not been sent yet, or not in full. -/
def ProxyPc.unsent : ProxyPc → Bool
  | .absent | .sendingRequest | .wsOpening => true
  | _ => false

/-- What `json.loads(first_chunk)` gives. -/
inductive ResponseMeta where
  | malformed
  | html
  | other
deriving DecidableEq

inductive ProxyEvent where
  | sent
  /-- `MetadataTooLargeError` or `TunnelSendError`. -/
  | sendRejected
  | firstByte (response : ResponseMeta)
  | firstByteTimeout
  | cancelSent
  | iter (e : IterEvent)
  | startBody
  | replay
  | connected
  | browserGone
  /-- `browser_task` is done, or `agent_task` failed on a message. -/
  | bridgeEnd
  | finish
  /-- An exception that the handler does not catch, cancellation among them. -/
  | abort
deriving DecidableEq

/-- The position after the iterator of a buffered HTML body has moved. -/
def bufferPart (iter : IterPc) (parts : List Bytes) : Option Bytes → ProxyPc
  | none => if iter = .finished then .ended else .buffering iter parts
  | some chunk =>
      let parts := parts ++ [chunk]
      if htmlRewriteMaxBytes < (parts.map List.length).sum then .respondingOverCap iter parts
      else .buffering iter parts

/-- Start `read_stream_iter`: its `get_stream` comes first. -/
def startIter (conn : TunnelConnection) (id : UUID) (started missing : ProxyPc) : ProxyPc :=
  match conn.getStream id with
  | .ok _ => started
  | .error _ => missing

/-- A handler's next move. A stream that `read_stream` or `read_stream_iter` does not find ends the
handler; `finally: conn.remove_stream` then has nothing to remove. -/
def proxyStep (conn : TunnelConnection) (id : UUID) :
    ProxyPc → ProxyEvent → Option (TunnelConnection × ProxyPc)
  | .sendingRequest, .sent => some (conn, startIter conn id .readingFirst .ended)
  | .sendingRequest, .sendRejected => some (conn.removeStream id, .ended)
  | .sendingRequest, .abort => some (conn, .ended)
  | .readingFirst, .firstByte response =>
      (conn.takeItem id).map fun (_, conn) =>
        match response with
        | .malformed => (conn, .ended)
        | .html => (conn, startIter conn id (.buffering (.waiting none false) []) .ended)
        | .other => (conn, .responding)
  | .readingFirst, .firstByteTimeout => some (conn, .timedOut)
  | .readingFirst, .abort => some (conn, .ended)
  | .timedOut, .cancelSent => some (conn.removeStream id, .ended)
  | .timedOut, .abort => some (conn, .ended)
  | .buffering iter parts, .iter e =>
      (conn.iterStep id iter e).map fun (conn, iter, out) => (conn, bufferPart iter parts out)
  | .buffering _ _, .abort => some (conn, .ended)
  | .responding, .startBody =>
      some (conn, startIter conn id (.streaming (.waiting none false)) .ended)
  | .responding, .abort => some (conn, .ended)
  | .respondingOverCap iter parts, .startBody => some (conn, .replaying iter parts)
  | .respondingOverCap _ _, .abort => some (conn, .ended)
  | .replaying iter (_ :: parts), .replay => some (conn, .replaying iter parts)
  | .replaying iter [], .replay => some (conn, .streaming iter)
  | .replaying _ _, .abort => some (conn, .leaving)
  | .streaming iter, .iter e =>
      (conn.iterStep id iter e).map fun (conn, iter, out) =>
        match out with
        | some _ => (conn, .checking iter)
        | none =>
            if iter = .finished then (conn.removeStream id, .ended) else (conn, .streaming iter)
  | .streaming _, .abort => some (conn, .leaving)
  | .checking iter, .connected => some (conn, .streaming iter)
  | .checking _, .browserGone => some (conn, .leaving)
  | .checking _, .abort => some (conn, .leaving)
  | .wsOpening, .sent => some (conn, .wsStarting)
  | .wsOpening, .sendRejected => some (conn.removeStream id, .ended)
  | .wsOpening, .abort => some (conn, .ended)
  | .wsStarting, .startBody =>
      some (conn, startIter conn id (.bridging (.waiting none false)) .leaving)
  | .wsStarting, .bridgeEnd => some (conn, .leaving)
  | .wsStarting, .abort => some (conn, .leaving)
  | .bridging iter, .iter e =>
      (conn.iterStep id iter e).map fun (conn, iter, _) =>
        (conn, if iter = .finished then .leaving else .bridging iter)
  | .bridging _, .bridgeEnd => some (conn, .leaving)
  -- Only a shutdown cancels `proxy_websocket`, and its two tasks go with the event loop.
  | .bridging _, .abort => some (conn, .leaving)
  | .leaving, .finish => some (conn.removeStream id, .ended)
  | _, _ => none

theorem startIter_of_mem (conn : TunnelConnection) (id : UUID) (started missing : ProxyPc)
    (hmem : id ∈ conn.streams) : startIter conn id started missing = started := by
  simp [startIter, getStream, hmem]

/-- A handler touches the connection by an item of its own stream and by its own table entry. -/
theorem proxyStep_touches (conn conn' : TunnelConnection) (id : UUID) (pc pc' : ProxyPc)
    (e : ProxyEvent) (h : proxyStep conn id pc e = some (conn', pc')) : Touches id conn conn' := by
  cases pc with
  | readingFirst =>
      cases e with
      | firstByte response =>
          obtain ⟨⟨p, taken⟩, ht, heq⟩ := Option.map_eq_some_iff.mp h
          have hconn : conn' = taken := by cases response <;> cases heq <;> rfl
          exact hconn ▸ .take p ht
      | _ => cases h <;> exact .refl
  | buffering iter parts =>
      cases e with
      | iter e' =>
          obtain ⟨⟨taken, iter', out⟩, hstep, heq⟩ := Option.map_eq_some_iff.mp h
          cases heq
          exact iterStep_touches conn _ id iter iter' e' out hstep
      | _ => cases h <;> exact .refl
  | streaming iter =>
      cases e with
      | iter e' =>
          obtain ⟨⟨taken, iter', out⟩, hstep, heq⟩ := Option.map_eq_some_iff.mp h
          have htouches := iterStep_touches conn taken id iter iter' e' out hstep
          cases out with
          | some chunk =>
              cases heq
              exact htouches
          | none =>
              simp only at heq
              split at heq <;> cases heq
              · -- `read_stream_iter` and the `finally` both remove the stream.
                exact .remove htouches
              · exact htouches
      | _ => cases h <;> exact .refl
  | bridging iter =>
      cases e with
      | iter e' =>
          obtain ⟨⟨taken, iter', out⟩, hstep, heq⟩ := Option.map_eq_some_iff.mp h
          cases heq
          exact iterStep_touches conn _ id iter iter' e' out hstep
      | _ => cases h <;> exact .refl
  | replaying iter parts => cases e <;> cases parts <;> cases h <;> exact .refl
  | _ => cases e <;> cases h <;> first | exact .refl | exact .remove .refl

theorem proxyStep_unsent (conn conn' : TunnelConnection) (id : UUID) (pc pc' : ProxyPc)
    (e : ProxyEvent) (h : proxyStep conn id pc e = some (conn', pc')) : pc'.unsent = false := by
  have hstart : ∀ c started missing, started.unsent = false → missing.unsent = false →
      (startIter c id started missing).unsent = false := by
    intro c started missing hstarted hmissing
    unfold startIter
    split
    · exact hstarted
    · exact hmissing
  cases pc with
  | readingFirst =>
      cases e with
      | firstByte response =>
          obtain ⟨⟨p, taken⟩, -, heq⟩ := Option.map_eq_some_iff.mp h
          cases response <;> cases heq
          · rfl
          · exact hstart _ _ _ rfl rfl
          · rfl
      | _ => cases h <;> rfl
  | buffering iter parts =>
      cases e with
      | iter e' =>
          obtain ⟨⟨taken, iter', out⟩, -, heq⟩ := Option.map_eq_some_iff.mp h
          cases heq
          cases out <;> simp only [bufferPart] <;> split <;> rfl
      | _ => cases h <;> rfl
  | streaming iter =>
      cases e with
      | iter e' =>
          obtain ⟨⟨taken, iter', out⟩, -, heq⟩ := Option.map_eq_some_iff.mp h
          cases out with
          | none =>
              simp only at heq
              split at heq <;> cases heq <;> rfl
          | some chunk =>
              cases heq
              rfl
      | _ => cases h <;> rfl
  | bridging iter =>
      cases e with
      | iter e' =>
          obtain ⟨⟨taken, iter', out⟩, -, heq⟩ := Option.map_eq_some_iff.mp h
          cases heq
          split <;> rfl
      | _ => cases h <;> rfl
  | replaying iter parts => cases e <;> cases parts <;> cases h <;> rfl
  | sendingRequest | responding | wsStarting =>
      cases e <;> cases h <;> first | exact hstart _ _ _ rfl rfl | rfl
  | _ => cases e <;> cases h <;> rfl

theorem proxyStep_opened (conn conn' : TunnelConnection) (id : UUID) (pc pc' : ProxyPc)
    (e : ProxyEvent) (h : proxyStep conn id pc e = some (conn', pc')) : pc' ≠ .absent := by
  have hunsent := proxyStep_unsent conn conn' id pc pc' e h
  rintro rfl
  cases hunsent

/-- Cancelling `asyncio.wait` does not cancel the tasks that it waits for: an iterator given up
there leaves a `get_task` behind, and that task still takes one item. -/
def leavesGetTask : ProxyPc → ProxyEvent → Bool
  | .buffering (.waiting none _) _, .abort => true
  | .streaming (.waiting none _), .abort => true
  | .bridging (.waiting none _), .bridgeEnd => true
  | _, _ => false

structure RelayTunnel where
  conn : TunnelConnection
  handler : UUID → ProxyPc
  getTask : UUID → Bool

inductive RelayAction where
  /-- `conn.open_stream(uuid.uuid4())` of a new request or WebSocket upgrade. -/
  | openStream (id : UUID) (isWebSocket : Bool)
  | receive (f : Frame)
  | resumePut
  | handler (id : UUID) (e : ProxyEvent)
  | getTask (id : UUID)
  | tearDown

namespace RelayTunnel

def init : RelayTunnel := ⟨.new, fun _ => .absent, fun _ => false⟩

def step (s : RelayTunnel) : RelayAction → Option RelayTunnel
  | .openStream id isWebSocket =>
      if s.handler id = .absent then
        match s.conn.openStream id with
        | .ok conn => some { s with
            conn := conn
            handler := Function.update s.handler id (if isWebSocket then .wsOpening else .sendingRequest) }
        | .error _ => some { s with handler := Function.update s.handler id .ended }
      else none
  | .receive f =>
      if s.conn.receiveLoop = .receiving then some { s with conn := s.conn.dispatchFrame f } else none
  | .resumePut => s.conn.resumePut.map fun conn => { s with conn := conn }
  | .handler id e =>
      (proxyStep s.conn id (s.handler id) e).map fun (conn, pc) =>
        { conn := conn
          handler := Function.update s.handler id pc
          getTask := Function.update s.getTask id (s.getTask id || leavesGetTask (s.handler id) e) }
  | .getTask id =>
      if s.getTask id then
        (s.conn.takeItem id).map fun (_, conn) =>
          { s with conn := conn, getTask := Function.update s.getTask id false }
      else none
  | .tearDown => some { s with conn := s.conn.tearDown }

/-- The receive loop is suspended in `queue.put` on stream `id`, and the queue is full. -/
def SuspendedOn (s : RelayTunnel) (id : UUID) : Prop :=
  (∃ p, s.conn.receiveLoop = .putting id p) ∧ (s.conn.states id).queue.full = true

/-- The receive loop is suspended in a `put` that no continuation of the run completes. -/
def Wedged (s : RelayTunnel) : Prop :=
  ∃ id p, s.conn.receiveLoop = .putting id p ∧
    ∀ acts t, TransitionSystem.run step s acts = some t → t.conn.receiveLoop = .putting id p

/-- What the steps of other streams leave alone. A suspended `put` may complete. -/
structure Untouched (id : UUID) (s t : RelayTunnel) : Prop where
  handler : t.handler id = s.handler id
  getTask : t.getTask id = s.getTask id
  buffered : t.conn.buffered id = s.conn.buffered id
  pending : s.conn.pendingPut id = [] → t.conn.pendingPut id = []
  closed : (t.conn.states id).closed = (s.conn.states id).closed
  table : id ∈ t.conn.streams ↔ id ∈ s.conn.streams

theorem Untouched.refl (id : UUID) (s : RelayTunnel) : Untouched id s s :=
  ⟨rfl, rfl, rfl, fun h => h, rfl, Iff.rfl⟩

private theorem Untouched.of_conn {id : UUID} {s t : RelayTunnel}
    (hhandler : t.handler id = s.handler id) (hget : t.getTask id = s.getTask id)
    (hconn : s.conn.Untouched id t.conn) : Untouched id s t :=
  ⟨hhandler, hget, hconn.buffered, hconn.pending, hconn.closed, hconn.table⟩

theorem step_untouched (s t : RelayTunnel) (a : RelayAction) (id : UUID)
    (h : s.step a = some t)
    (ha : match a with
      | .openStream id' _ | .handler id' _ | .getTask id' => id' ≠ id
      | .receive f => f.requestId ≠ id
      | .resumePut => True
      | .tearDown => False) : Untouched id s t := by
  cases a with
  | openStream id' isWebSocket =>
      have hne : id ≠ id' := Ne.symm ha
      simp only [step] at h
      split at h
      · split at h
        · rename_i conn hopen
          cases h
          exact .of_conn (by simp [hne]) rfl (.of_openStream hopen hne)
        · cases h
          exact .of_conn (by simp [hne]) rfl .refl
      · cases h
  | receive f =>
      simp only [step] at h
      split at h
      · rename_i hloop
        cases h
        exact .of_conn rfl rfl (.of_dispatchFrame f hloop ha)
      · cases h
  | resumePut =>
      obtain ⟨conn, hput, rfl⟩ := Option.map_eq_some_iff.mp h
      exact .of_conn rfl rfl (.of_resumePut hput)
  | handler id' e =>
      have hne : id ≠ id' := Ne.symm ha
      obtain ⟨⟨conn, pc⟩, hstep, rfl⟩ := Option.map_eq_some_iff.mp h
      have htouches := proxyStep_touches s.conn conn id' _ pc e hstep
      exact .of_conn (by simp [hne]) (by simp [hne]) (.of_touches htouches hne)
  | getTask id' =>
      have hne : id ≠ id' := Ne.symm ha
      simp only [step] at h
      split at h
      · obtain ⟨⟨p, conn⟩, ht, rfl⟩ := Option.map_eq_some_iff.mp h
        exact .of_conn rfl (by simp [hne]) (.of_touches (.take p ht) hne)
      · cases h
  | tearDown => exact ha.elim

end RelayTunnel

end NetworkFileServer.Relay
