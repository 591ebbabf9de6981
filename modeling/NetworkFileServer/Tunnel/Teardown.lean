import NetworkFileServer.Framework.TransitionSystem
import NetworkFileServer.Tunnel.Connection

/-!
# Closing a TunnelConnection

Three actors share the flag `_closed`: the heartbeat task, the receive loop and any number of
callers of `close()`. The flag is also what makes `close()` idempotent, so whoever sets it first
decides whether the WebSocket is ever closed.
-/

namespace NetworkFileServer.Tunnel

def heartbeatMissedLimit : Nat := 3

/-- The task of `_heartbeat_loop`, with the number of missed pongs. -/
inductive HeartbeatPc where
  | notStarted
  /-- Created, and not yet scheduled for the first time. -/
  | created
  /-- In `asyncio.sleep(heartbeat_interval_s)`. -/
  | sleeping (missed : Nat)
  /-- In `send_control({"type": "ping"})`. -/
  | pinging (missed : Nat)
  /-- In `asyncio.wait_for(self._pong_event.wait(), ...)`. -/
  | awaitingPong (missed : Nat)
  /-- The loop condition was false. -/
  | returned
  /-- Returned after its `_tear_down`. -/
  | timedOut
  /-- The exception of a ping that could not be sent is the result of the task. -/
  | died
  | cancelled
deriving DecidableEq

/-- The task has a result, so that awaiting it does not suspend. -/
def HeartbeatPc.done : HeartbeatPc → Bool
  | .returned | .timedOut | .died | .cancelled => true
  | .notStarted | .created | .sleeping _ | .pinging _ | .awaitingPong _ => false

inductive CloserPc where
  | idle
  /-- In `await self._heartbeat_task`. -/
  | awaitingHeartbeat
  /-- In `await self._ws.close()`. -/
  | closingSocket
  | returned
  | raised
deriving DecidableEq

def CloserPc.inProgress : CloserPc → Bool
  | .awaitingHeartbeat | .closingSocket => true
  | .idle | .returned | .raised => false

def CloserPc.finished : CloserPc → Bool
  | .returned | .raised => true
  | .idle | .awaitingHeartbeat | .closingSocket => false

inductive Socket where
  | opened
  /-- `close()` of the WebSocket was invoked. -/
  | closing
  | closed
deriving DecidableEq

structure Lifecycle where
  conn : TunnelConnection
  heartbeat : HeartbeatPc
  /-- `self._heartbeat_task.cancel()` was called on the running task. -/
  cancelRequested : Bool
  pongEvent : Bool
  socket : Socket
  closer : Nat → CloserPc

inductive LifecycleAction where
  | startHeartbeat
  /-- The heartbeat task runs for the first time. -/
  | begin
  | wake
  | pingSent
  | pingFailed
  | pongSeen
  | pongTimeout
  /-- The heartbeat task gets its `CancelledError`. -/
  | cancelDelivered
  /-- A binary frame of the peer. -/
  | receive (f : Frame)
  | resumePut
  | takeItem (id : UUID)
  /-- A `pong` control message of the peer. -/
  | pong
  /-- A disconnect, or an exception, ends the receive loop. -/
  | loopEnd
  | close (k : Nat)
  /-- Closer `k` sees the result of the heartbeat task. -/
  | heartbeatDone (k : Nat)
  /-- `self._ws.close()` returns or raises an `Exception`; both are the end of `close()`. -/
  | socketClosed (k : Nat)
  /-- The task that runs closer `k` is cancelled. -/
  | closerCancelled (k : Nat)

namespace Lifecycle

open TunnelConnection

def start : Lifecycle := ⟨.new, .notStarted, false, false, .opened, fun _ => .idle⟩

def setHeartbeat (s : Lifecycle) (pc : HeartbeatPc) : Lifecycle := { s with heartbeat := pc }

def setCloser (s : Lifecycle) (k : Nat) (pc : CloserPc) : Lifecycle :=
  { s with closer := Function.update s.closer k pc }

/-- The head of `while not self._closed`. -/
def loopHead (s : Lifecycle) (missed : Nat) : Lifecycle :=
  s.setHeartbeat (if s.conn.closed then .returned else .sleeping missed)

/-- `self._ws.close()` is called. -/
def invokeSocketClose (s : Lifecycle) (k : Nat) : Lifecycle :=
  { s.setCloser k .closingSocket with socket := .closing }

/-- `close()` up to its first suspension. -/
def close (s : Lifecycle) (k : Nat) : Lifecycle :=
  if s.conn.closed then s.setCloser k .returned
  else
    let s := { s with conn := s.conn.tearDown }
    match s.heartbeat with
    | .notStarted | .returned | .timedOut => s.invokeSocketClose k
    -- The `CancelledError` of a task that was cancelled before is caught, any other is not.
    | .cancelled => s.invokeSocketClose k
    | .died => s.setCloser k .raised
    | .created | .sleeping _ | .pinging _ | .awaitingPong _ =>
        { s with cancelRequested := true }.setCloser k .awaitingHeartbeat

/-- One move of the heartbeat task. After `cancel()` the next thing that it sees is its
`CancelledError`. -/
def heartbeatStep (missedLimit : Nat) (s : Lifecycle) : LifecycleAction → Option Lifecycle
  | .startHeartbeat =>
      if s.heartbeat = .notStarted then some (s.setHeartbeat .created) else none
  | .cancelDelivered =>
      if s.cancelRequested && !s.heartbeat.done then some (s.setHeartbeat .cancelled) else none
  | a =>
      if s.cancelRequested then none
      else
        match s.heartbeat, a with
        | .created, .begin => some (s.loopHead 0)
        | .sleeping missed, .wake => some { s.setHeartbeat (.pinging missed) with pongEvent := false }
        | .pinging missed, .pingSent => some (s.setHeartbeat (.awaitingPong missed))
        | .pinging _, .pingFailed => some (s.setHeartbeat .died)
        | .awaitingPong _, .pongSeen => if s.pongEvent then some (s.loopHead 0) else none
        | .awaitingPong missed, .pongTimeout =>
            if missedLimit ≤ missed + 1 then
              some { s.setHeartbeat .timedOut with conn := s.conn.tearDown }
            else some (s.loopHead (missed + 1))
        | _, _ => none

def step (missedLimit : Nat) (s : Lifecycle) : LifecycleAction → Option Lifecycle
  | .receive f =>
      if s.conn.receiveLoop = .receiving then some { s with conn := s.conn.dispatchFrame f } else none
  | .resumePut => s.conn.resumePut.map fun conn => { s with conn := conn }
  | .takeItem id => (s.conn.takeItem id).map fun (_, conn) => { s with conn := conn }
  | .pong => if s.conn.receiveLoop = .receiving then some { s with pongEvent := true } else none
  | .loopEnd =>
      if s.conn.receiveLoop = .receiving then
        some { s with conn := { s.conn with receiveLoop := .ended } }
      else none
  | .close k => if s.closer k = .idle then some (s.close k) else none
  | .heartbeatDone k =>
      if s.closer k = .awaitingHeartbeat && s.heartbeat.done then
        if s.heartbeat = .died then some (s.setCloser k .raised) else some (s.invokeSocketClose k)
      else none
  | .socketClosed k =>
      if s.closer k = .closingSocket then some { s.setCloser k .returned with socket := .closed }
      else none
  | .closerCancelled k =>
      match s.closer k with
      -- `except asyncio.CancelledError: pass` takes it for the heartbeat's.
      | .awaitingHeartbeat => some (s.invokeSocketClose k)
      | .closingSocket => some (s.setCloser k .raised)
      | .idle | .returned | .raised => none
  | a => s.heartbeatStep missedLimit a

/-- Once the connection is closed and no `close()` is under way, the WebSocket was told so; a
`close()` that has finished leaves it closed; and a heartbeat that gave up does not leave it open
with the receive loop still reading from it. -/
structure ClosesTransport (s : Lifecycle) : Prop where
  invoked : s.conn.closed = true → (∀ k, (s.closer k).inProgress = false) → s.socket ≠ .opened
  finished : ∀ k, (s.closer k).finished = true → s.socket = .closed
  heartbeat : s.heartbeat = .timedOut ∨ s.heartbeat = .died →
    ¬ (s.socket = .opened ∧ s.conn.receiveLoop ≠ .ended)

/-- The heartbeat neither gives up on an open connection nor dies while the loop still reads, no
`close()` meets a dead heartbeat or another `close()` under way, and nobody cancels a `close()`
that waits for the WebSocket. -/
def ClosesOnce (missedLimit : Nat) (s : Lifecycle) : LifecycleAction → Prop
  | .pongTimeout => ∀ missed, s.heartbeat = .awaitingPong missed → missed + 1 < missedLimit
  | .pingFailed => s.conn.receiveLoop = .ended
  | .close _ => (s.conn.closed = true → s.socket = .closed) ∧
      (s.conn.closed = false → s.heartbeat ≠ .died)
  | .closerCancelled k => s.closer k ≠ .closingSocket
  | _ => True

/-! ## The invariant

In a run that meets the condition the connection goes through three phases, and a single `close()`
takes it from the first to the last. -/

def Open (s : Lifecycle) : Prop :=
  s.conn.closed = false ∧ s.socket = .opened ∧ ∀ k, s.closer k = .idle

/-- Closer `k` awaits the heartbeat that it has cancelled, or the WebSocket. -/
def ClosingBy (k : Nat) (s : Lifecycle) : Prop :=
  s.conn.closed = true ∧ (∀ j, j ≠ k → s.closer j = .idle) ∧
    ((s.closer k = .awaitingHeartbeat ∧ s.socket = .opened ∧ s.cancelRequested = true ∧
        s.heartbeat ≠ .died) ∨
      (s.closer k = .closingSocket ∧ s.socket = .closing))

def Closed (s : Lifecycle) : Prop :=
  s.conn.closed = true ∧ s.socket = .closed ∧ ∀ k, s.closer k = .idle ∨ s.closer k = .returned

structure TransportInv (s : Lifecycle) : Prop where
  phase : s.Open ∨ (∃ k, s.ClosingBy k) ∨ s.Closed
  timedOut : s.heartbeat ≠ .timedOut
  died : s.heartbeat = .died → s.conn.receiveLoop = .ended

theorem transportInv_start : TransportInv start where
  phase := .inl ⟨rfl, rfl, fun _ => rfl⟩
  timedOut := by simp [start]
  died := by simp [start]

theorem TransportInv.closesTransport {s : Lifecycle} (h : s.TransportInv) : s.ClosesTransport where
  invoked := by
    intro hclosed hidle
    rcases h.phase with ⟨hopen, -, -⟩ | ⟨k, -, -, hk⟩ | ⟨-, hsocket, -⟩
    · rw [hopen] at hclosed
      cases hclosed
    · rcases hk with ⟨hpc, -⟩ | ⟨-, hsocket⟩
      · have hprogress := hidle k
        simp [hpc, CloserPc.inProgress] at hprogress
      · simp [hsocket]
    · simp [hsocket]
  finished := by
    intro k hk
    rcases h.phase with ⟨-, -, hidle⟩ | ⟨j, -, hothers, hj⟩ | ⟨-, hsocket, -⟩
    · simp [hidle k, CloserPc.finished] at hk
    · by_cases hkj : k = j
      · subst hkj
        rcases hj with ⟨hpc, -⟩ | ⟨hpc, -⟩ <;> simp [hpc, CloserPc.finished] at hk
      · simp [hothers k hkj, CloserPc.finished] at hk
    · exact hsocket
  heartbeat := by
    rintro (htimeout | hdied) ⟨-, hloop⟩
    · exact h.timedOut htimeout
    · exact hloop (h.died hdied)

/-- A step that only moves the receive loop and the queues keeps the invariant. -/
private theorem TransportInv.of_conn {s : Lifecycle} (h : s.TransportInv) (conn : TunnelConnection)
    (pongEvent : Bool) (hclosed : conn.closed = s.conn.closed)
    (hloop : s.conn.receiveLoop = .ended → conn.receiveLoop = .ended) :
    TransportInv { s with conn := conn, pongEvent := pongEvent } where
  phase := by
    rcases h.phase with ⟨hopen, hrest⟩ | ⟨k, hk, hrest⟩ | ⟨hc, hrest⟩
    · exact .inl ⟨hclosed.trans hopen, hrest⟩
    · exact .inr (.inl ⟨k, hclosed.trans hk, hrest⟩)
    · exact .inr (.inr ⟨hclosed.trans hc, hrest⟩)
  timedOut := h.timedOut
  died := fun hdied => hloop (h.died hdied)

/-- A step of the heartbeat task that neither gives up nor dies keeps the invariant. -/
private theorem TransportInv.of_heartbeat {s : Lifecycle} (h : s.TransportInv) (pc : HeartbeatPc)
    (pongEvent : Bool) (htimeout : pc ≠ .timedOut) (hdied : pc ≠ .died) :
    TransportInv { s with heartbeat := pc, pongEvent := pongEvent } where
  phase := by
    rcases h.phase with hopen | ⟨k, hk, hothers, hpc⟩ | hclosed
    · exact .inl hopen
    · refine .inr (.inl ⟨k, hk, hothers, ?_⟩)
      exact hpc.imp_left fun hw => ⟨hw.1, hw.2.1, hw.2.2.1, hdied⟩
    · exact .inr (.inr hclosed)
  timedOut := htimeout
  died := fun hd => absurd hd hdied

private theorem TransportInv.loopHead {s : Lifecycle} (h : s.TransportInv) (missed : Nat) :
    (s.loopHead missed).TransportInv := by
  refine h.of_heartbeat _ s.pongEvent ?_ ?_
  · split <;> simp
  · split <;> simp

theorem transportInv_heartbeatStep (missedLimit : Nat) (s : Lifecycle) (a : LifecycleAction)
    (t : Lifecycle) (hinv : s.TransportInv) (hcond : s.ClosesOnce missedLimit a)
    (h : s.heartbeatStep missedLimit a = some t) : t.TransportInv := by
  unfold heartbeatStep at h
  split at h
  · split at h
    · cases h
      exact hinv.of_heartbeat .created s.pongEvent (by simp) (by simp)
    · cases h
  · split at h
    · cases h
      exact hinv.of_heartbeat .cancelled s.pongEvent (by simp) (by simp)
    · cases h
  · split at h
    · cases h
    · rename_i hcancel
      split at h
      · cases h
        exact hinv.loopHead 0
      · cases h
        exact hinv.of_heartbeat (.pinging _) false (by simp) (by simp)
      · cases h
        exact hinv.of_heartbeat (.awaitingPong _) s.pongEvent (by simp) (by simp)
      · cases h
        refine ⟨?_, by simp [setHeartbeat], fun _ => hcond⟩
        -- A closer that awaits the heartbeat has cancelled it, so this one was not cancelled.
        rcases hinv.phase with hopen | ⟨k, hk, hothers, hpc⟩ | hclosed
        · exact .inl hopen
        · refine .inr (.inl ⟨k, hk, hothers, ?_⟩)
          rcases hpc with ⟨-, -, hreq, -⟩ | hsocket
          · exact absurd hreq hcancel
          · exact .inr hsocket
        · exact .inr (.inr hclosed)
      · split at h
        · cases h
          exact hinv.loopHead 0
        · cases h
      · rename_i missed hpc _ _
        have hlt := hcond missed hpc
        rw [if_neg (by omega)] at h
        cases h
        exact hinv.loopHead (missed + 1)
      · cases h

private theorem setCloser_others (s : Lifecycle) (k j : Nat) (pc : CloserPc) (h : j ≠ k) :
    (s.setCloser k pc).closer j = s.closer j := by
  simp [setCloser, h]

private theorem setCloser_self (s : Lifecycle) (k : Nat) (pc : CloserPc) :
    (s.setCloser k pc).closer k = pc := by
  simp [setCloser]

private theorem closingBy_invokeSocketClose (s : Lifecycle) (k : Nat)
    (hclosed : s.conn.closed = true) (hothers : ∀ j, j ≠ k → s.closer j = .idle) :
    (s.invokeSocketClose k).ClosingBy k := by
  refine ⟨hclosed, ?_, .inr ⟨setCloser_self s k _, rfl⟩⟩
  intro j hj
  exact (setCloser_others s k j _ hj).trans (hothers j hj)

private theorem TransportInv.of_inProgress {s : Lifecycle} (hinv : s.TransportInv) (k : Nat)
    (hk : (s.closer k).inProgress = true) :
    s.conn.closed = true ∧ ∀ j, j ≠ k → s.closer j = .idle := by
  rcases hinv.phase with ⟨-, -, hidle⟩ | ⟨i, hclosed, hothers, -⟩ | ⟨-, -, hpcs⟩
  · simp [hidle k, CloserPc.inProgress] at hk
  · by_cases hki : k = i
    · subst hki
      exact ⟨hclosed, hothers⟩
    · simp [hothers k hki, CloserPc.inProgress] at hk
  · rcases hpcs k with hpc | hpc <;> simp [hpc, CloserPc.inProgress] at hk

private theorem TransportInv.of_awaiting {s : Lifecycle} (hinv : s.TransportInv) (k : Nat)
    (hk : s.closer k = .awaitingHeartbeat) :
    s.conn.closed = true ∧ (∀ j, j ≠ k → s.closer j = .idle) ∧ s.heartbeat ≠ .died := by
  obtain ⟨hclosed, hothers⟩ := hinv.of_inProgress k (by simp [hk, CloserPc.inProgress])
  refine ⟨hclosed, hothers, ?_⟩
  rcases hinv.phase with ⟨-, -, hidle⟩ | ⟨i, -, hothers', hi⟩ | ⟨-, -, hpcs⟩
  · simp [hidle k] at hk
  · have hki : k = i := by
      by_contra hne
      simp [hothers' k hne] at hk
    subst hki
    rcases hi with ⟨-, -, -, hdied⟩ | ⟨hpc, -⟩
    · exact hdied
    · simp [hpc] at hk
  · rcases hpcs k with hpc | hpc <;> simp [hpc] at hk

theorem transportInv_close (missedLimit : Nat) (s : Lifecycle) (k : Nat) (hinv : s.TransportInv)
    (hcond : s.ClosesOnce missedLimit (.close k)) (hidle : s.closer k = .idle) :
    (s.close k).TransportInv := by
  obtain ⟨hsecond, hdead⟩ := hcond
  unfold close
  split
  · rename_i hclosed
    refine ⟨.inr (.inr ?_), hinv.timedOut, hinv.died⟩
    have hsocket := hsecond hclosed
    rcases hinv.phase with ⟨-, hopened, -⟩ | ⟨j, -, -, hj⟩ | ⟨-, -, hpcs⟩
    · rw [hsocket] at hopened
      cases hopened
    · rcases hj with ⟨-, hopened, -⟩ | ⟨-, hclosing⟩
      · rw [hsocket] at hopened
        cases hopened
      · rw [hsocket] at hclosing
        cases hclosing
    · refine ⟨hclosed, hsocket, ?_⟩
      intro j
      by_cases hj : j = k
      · subst hj
        exact .inr (setCloser_self s j .returned)
      · rw [setCloser_others s k j .returned hj]
        exact hpcs j
  · rename_i hopen
    have hnotDied := hdead (by simpa using hopen)
    have hothers : ∀ j, s.closer j = .idle := by
      rcases hinv.phase with ⟨-, -, hall⟩ | ⟨j, hc, -, -⟩ | ⟨hc, -, -⟩
      · exact hall
      · exact absurd hc hopen
      · exact absurd hc hopen
    have hclosed := tearDown_isClosed s.conn
    have hloop := (tearDown_frame s.conn).1
    have hdied : s.heartbeat = .died → s.conn.tearDown.receiveLoop = .ended :=
      fun hd => absurd hd hnotDied
    have hinvoke : (invokeSocketClose { s with conn := s.conn.tearDown } k).TransportInv :=
      ⟨.inr (.inl ⟨k, closingBy_invokeSocketClose _ k hclosed fun j _ => hothers j⟩),
        hinv.timedOut, hdied⟩
    have hawait : (setCloser { s with conn := s.conn.tearDown, cancelRequested := true } k
        .awaitingHeartbeat).TransportInv := by
      refine ⟨.inr (.inl ⟨k, hclosed, ?_, .inl ⟨setCloser_self _ k _, ?_, rfl, hnotDied⟩⟩),
        hinv.timedOut, hdied⟩
      · intro j hj
        exact (setCloser_others _ k j _ hj).trans (hothers j)
      · rcases hinv.phase with ⟨-, hopened, -⟩ | ⟨j, hc, -, -⟩ | ⟨hc, -, -⟩
        · exact hopened
        · exact absurd hc hopen
        · exact absurd hc hopen
    cases hpc : s.heartbeat with
    | notStarted | returned | timedOut | cancelled => simpa [hpc] using hinvoke
    | died => exact absurd hpc hnotDied
    | created | sleeping _ | pinging _ | awaitingPong _ => simpa [hpc] using hawait

theorem transportInv_step (missedLimit : Nat) (s : Lifecycle) (a : LifecycleAction) (t : Lifecycle)
    (hinv : s.TransportInv) (hcond : s.ClosesOnce missedLimit a)
    (h : s.step missedLimit a = some t) : t.TransportInv := by
  cases a with
  | receive f =>
      simp only [step] at h
      split at h
      · rename_i hloop
        cases h
        refine hinv.of_conn _ s.pongEvent (dispatchFrame_isClosed s.conn f) ?_
        intro hended
        rw [hloop] at hended
        cases hended
      · cases h
  | resumePut =>
      obtain ⟨conn, hput, rfl⟩ := Option.map_eq_some_iff.mp h
      obtain ⟨id, p, hloop, -, rfl⟩ := resumePut_cases s.conn conn hput
      refine hinv.of_conn _ s.pongEvent (putPayload_isClosed s.conn id p) ?_
      intro hended
      rw [hloop] at hended
      cases hended
  | takeItem id =>
      obtain ⟨⟨p, conn⟩, htake, rfl⟩ := Option.map_eq_some_iff.mp h
      refine hinv.of_conn _ s.pongEvent (takeItem_isClosed s.conn conn id p htake) ?_
      intro hended
      exact (takeItem_receiveLoop s.conn conn id p htake).trans hended
  | pong =>
      simp only [step] at h
      split at h
      · cases h
        exact hinv.of_conn s.conn true rfl fun hended => hended
      · cases h
  | loopEnd =>
      simp only [step] at h
      split at h
      · cases h
        exact hinv.of_conn _ s.pongEvent rfl fun _ => rfl
      · cases h
  | close k =>
      simp only [step] at h
      split at h
      · rename_i hidle
        cases h
        exact transportInv_close missedLimit s k hinv hcond hidle
      · cases h
  | heartbeatDone k =>
      simp only [step] at h
      split at h
      · rename_i hwait
        obtain ⟨hpc, -⟩ : s.closer k = .awaitingHeartbeat ∧ s.heartbeat.done = true := by
          simpa using hwait
        obtain ⟨hclosed, hothers, hdied⟩ := hinv.of_awaiting k hpc
        rw [if_neg hdied] at h
        cases h
        exact ⟨.inr (.inl ⟨k, closingBy_invokeSocketClose s k hclosed hothers⟩), hinv.timedOut,
          hinv.died⟩
      · cases h
  | socketClosed k =>
      simp only [step] at h
      split at h
      · rename_i hpc
        cases h
        refine ⟨.inr (.inr ?_), hinv.timedOut, hinv.died⟩
        obtain ⟨hclosed, hothers⟩ := hinv.of_inProgress k (by simp [hpc, CloserPc.inProgress])
        refine ⟨hclosed, rfl, ?_⟩
        intro j
        by_cases hj : j = k
        · subst hj
          exact .inr (setCloser_self s j .returned)
        · exact .inl ((setCloser_others s k j .returned hj).trans (hothers j hj))
      · cases h
  | closerCancelled k =>
      simp only [step] at h
      split at h
      · rename_i hpc
        cases h
        obtain ⟨hclosed, hothers, -⟩ := hinv.of_awaiting k hpc
        exact ⟨.inr (.inl ⟨k, closingBy_invokeSocketClose s k hclosed hothers⟩), hinv.timedOut,
          hinv.died⟩
      · rename_i hpc
        exact absurd hpc hcond
      · cases h
      · cases h
      · cases h
  | startHeartbeat | begin | wake | pingSent | pingFailed | pongSeen | pongTimeout
  | cancelDelivered => exact transportInv_heartbeatStep missedLimit s _ t hinv hcond h

/-- In a run in which nobody else gives the connection up, closing it always closes the WebSocket. -/
theorem close_closesTransport (missedLimit : Nat) (acts : List LifecycleAction) (s : Lifecycle)
    (hcond : TransitionSystem.Guarded (step missedLimit) (ClosesOnce missedLimit) start acts)
    (hrun : TransitionSystem.run (step missedLimit) start acts = some s) : s.ClosesTransport := by
  have hinv : s.TransportInv :=
    TransitionSystem.run_invariant_of_guarded (step missedLimit) (ClosesOnce missedLimit)
      TransportInv (transportInv_step missedLimit) transportInv_start hcond hrun
  exact hinv.closesTransport

instance decidableClosesOnce (missedLimit : Nat) (s : Lifecycle) (a : LifecycleAction) :
    Decidable (s.ClosesOnce missedLimit a) :=
  match a with
  | .pongTimeout =>
      match hpc : s.heartbeat with
      | .awaitingPong missed =>
          decidable_of_iff (missed + 1 < missedLimit) (by simp [ClosesOnce, hpc])
      | .notStarted | .created | .sleeping _ | .pinging _ | .returned | .timedOut | .died
      | .cancelled => isTrue (by simp [ClosesOnce, hpc])
  | .pingFailed => inferInstanceAs (Decidable (s.conn.receiveLoop = .ended))
  | .close _ => inferInstanceAs (Decidable (_ ∧ _))
  | .closerCancelled k => inferInstanceAs (Decidable (s.closer k ≠ .closingSocket))
  | .startHeartbeat | .begin | .wake | .pingSent | .pongSeen | .cancelDelivered | .receive _
  | .resumePut | .takeItem _ | .pong | .loopEnd | .heartbeatDone _ | .socketClosed _ =>
      isTrue trivial

/-- Two pongs are missed, the third ping is answered, then the mount is closed by its owner. -/
def closedInTime : List LifecycleAction :=
  [.startHeartbeat, .begin, .wake, .pingSent, .pongTimeout, .wake, .pingSent, .pongTimeout, .wake,
    .pingSent, .pong, .pongSeen, .close 0, .cancelDelivered, .heartbeatDone 0, .socketClosed 0,
    .loopEnd, .close 1]

theorem close_closesTransport_inTime :
    ∃ s, TransitionSystem.run (step heartbeatMissedLimit) start closedInTime = some s ∧
      s.closer 1 = .returned ∧ s.ClosesTransport := by
  have heval : (TransitionSystem.run (step heartbeatMissedLimit) start closedInTime).any
      (fun s => decide (s.closer 1 = .returned)) = true := by decide +kernel
  obtain ⟨s, hrun, hs⟩ := (Option.any_eq_true _ _).mp heval
  refine ⟨s, hrun, of_decide_eq_true hs, ?_⟩
  exact close_closesTransport heartbeatMissedLimit closedInTime s (by decide +kernel) hrun

/-- Three pongs are missed, and the `close()` that follows finds the flag set. -/
def heartbeatTimeout : List LifecycleAction :=
  [.startHeartbeat, .begin, .wake, .pingSent, .pongTimeout, .wake, .pingSent, .pongTimeout, .wake,
    .pingSent, .pongTimeout, .close 0]

theorem heartbeatTimeout_leavesSocketOpen :
    ∃ s, TransitionSystem.run (step heartbeatMissedLimit) start heartbeatTimeout = some s ∧
      s.closer 0 = .returned ∧ s.heartbeat = .timedOut ∧ s.conn.receiveLoop = .receiving ∧
      s.socket = .opened ∧ ¬ s.ClosesTransport := by
  have heval : (TransitionSystem.run (step heartbeatMissedLimit) start heartbeatTimeout).any
      (fun s => decide (s.closer 0 = .returned ∧ s.heartbeat = .timedOut ∧
        s.conn.receiveLoop = .receiving ∧ s.socket = .opened)) = true := by decide +kernel
  obtain ⟨s, hrun, hs⟩ := (Option.any_eq_true _ _).mp heval
  obtain ⟨hreturned, htimeout, hloop, hopened⟩ := of_decide_eq_true hs
  refine ⟨s, hrun, hreturned, htimeout, hloop, hopened, ?_⟩
  intro hcloses
  have hclosed := hcloses.finished 0 (by simp [hreturned, CloserPc.finished])
  rw [hopened] at hclosed
  cases hclosed

end Lifecycle

end NetworkFileServer.Tunnel
