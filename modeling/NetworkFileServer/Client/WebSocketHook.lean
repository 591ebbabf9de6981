import NetworkFileServer.Framework.TransitionSystem

/-!
# The WebSocket hook

`useWebSocket.ts`: the refs of the hook, the sockets that it has created and the timers that it has set.
Every closure that a socket or a timer holds reads the same refs, so an event of an old socket acts on the
state of the new one. An action is one effect or one event, which run to their end.

Timers may expire in any order. The message state of the hook is not part of the model, as no effect, timer
or other event reads it.
-/

namespace NetworkFileServer.Client

open TransitionSystem

inductive ReadyState where
  | connecting
  | open
  | closing
  | closed
deriving DecidableEq, Repr

/-- A socket with the identity in its URL; the browser and the other end move `readyState`. -/
structure HookSocket where
  deviceId : String
  deviceName : String
  readyState : ReadyState
  /-- The hook has called `close()`. -/
  closeCalled : Bool
  /-- The component was mounted when the socket was created. -/
  createdMounted : Bool
deriving DecidableEq, Repr

/-- `ws.close()`: a socket that is closing or closed is left as it is. -/
def HookSocket.close (w : HookSocket) : HookSocket :=
  { w with
    readyState := if w.readyState = .closed then .closed else .closing
    closeCalled := true }

/-- Connecting or open. -/
def HookSocket.live (w : HookSocket) : Bool := w.readyState = .connecting ∨ w.readyState = .open

/-- Neither has the hook closed the socket nor has its close event arrived. -/
def HookSocket.inUse (w : HookSocket) : Bool := w.readyState ≠ .closed ∧ w.closeCalled = false

inductive HookTimer where
  /-- Calls `connectRef.current`, not before the delay of the backoff. -/
  | reconnect (delay : Nat)
  /-- Resets `attemptRef`. -/
  | stable
deriving DecidableEq, Repr

/-- The hook; sockets are numbered in the order of their creation, and so are timers. -/
structure WebSocketHook where
  /-- The effect is set up, which it is from mount to unmount. -/
  componentMounted : Bool
  mountedRef : Bool
  wsRef : Option Nat
  attemptRef : Nat
  reconnectTimerRef : Option Nat
  stableTimerRef : Option Nat
  /-- The `connect` that reconnects: the identity that it closes over. -/
  connectRef : Option (String × String)
  sockets : List HookSocket
  /-- The timers that are set, by number. -/
  timers : List (Nat × HookTimer)
  timerCount : Nat
deriving DecidableEq, Repr

inductive HookEvent where
  | mount (deviceId deviceName : String)
  /-- `deviceId` or `deviceName` has changed: the cleanup and the effect run. -/
  | change (deviceId deviceName : String)
  | unmount
  | expire (timer : Nat)
  | onopen (i : Nat)
  /-- The other end begins to close the socket. -/
  | peerCloses (i : Nat)
  /-- The close event arrives. -/
  | onclose (i : Nat)
deriving DecidableEq, Repr

namespace WebSocketHook

/-- Before the first mount. -/
def start : WebSocketHook := ⟨false, true, none, 0, none, none, none, [], [], 0⟩

/-- `BASE_DELAY`, `MAX_RECONNECT_DELAY`; the jitter comes on top. -/
def backoffDelay (attempt : Nat) : Nat := min (1000 * 2 ^ attempt) 30000

def setReadyState (s : WebSocketHook) (i : Nat) (state : ReadyState) : WebSocketHook :=
  { s with sockets := s.sockets.modify i fun w => { w with readyState := state } }

/-- `clearTimeout(ref.current)`, unless the ref is null. -/
def clearTimeout (s : WebSocketHook) (ref : Option Nat) : WebSocketHook :=
  { s with timers := s.timers.filter fun e => some e.1 ≠ ref }

def connect (s : WebSocketHook) (deviceId deviceName : String) : WebSocketHook :=
  if s.mountedRef then
    { s with
      sockets := s.sockets ++ [⟨deviceId, deviceName, .connecting, false, s.componentMounted⟩]
      wsRef := some s.sockets.length }
  else s

/-- The effects after the first render, or after one with a new `connect`. -/
def effect (s : WebSocketHook) (deviceId deviceName : String) : WebSocketHook :=
  { s with connectRef := some (deviceId, deviceName), mountedRef := true, componentMounted := true }.connect
    deviceId deviceName

def cleanup (s : WebSocketHook) : WebSocketHook :=
  let s := { s with mountedRef := false }
  let s := { s.clearTimeout s.reconnectTimerRef with reconnectTimerRef := none }
  let s := { s.clearTimeout s.stableTimerRef with stableTimerRef := none }
  match s.wsRef with
  | some i => { s with sockets := s.sockets.modify i HookSocket.close, wsRef := none }
  | none => s

/-- The callbacks of the timers. -/
def fire (s : WebSocketHook) : HookTimer → WebSocketHook
  | .reconnect _ =>
      match s.connectRef with
      | some (deviceId, deviceName) => s.connect deviceId deviceName
      | none => s
  | .stable => { s with attemptRef := 0, stableTimerRef := none }

def setTimer (s : WebSocketHook) (timer : HookTimer) : WebSocketHook :=
  { s with timers := s.timers ++ [(s.timerCount, timer)], timerCount := s.timerCount + 1 }

/-- The handler of `onopen`. -/
def handleOpen (s : WebSocketHook) : WebSocketHook :=
  if s.mountedRef then { s.setTimer .stable with stableTimerRef := some s.timerCount } else s

/-- The handler of `onclose`. -/
def handleClose (s : WebSocketHook) : WebSocketHook :=
  if s.mountedRef then
    let s := { s with wsRef := none }
    let s := { s.clearTimeout s.stableTimerRef with stableTimerRef := none }
    { s.setTimer (.reconnect (backoffDelay s.attemptRef)) with
      attemptRef := s.attemptRef + 1, reconnectTimerRef := some s.timerCount }
  else s

/-- A timer is gone when its callback runs; the refs keep its number. -/
def expired (s : WebSocketHook) (timer : Nat) : WebSocketHook :=
  { s with timers := s.timers.filter fun e => e.1 ≠ timer }

def step (s : WebSocketHook) : HookEvent → Option WebSocketHook
  | .mount deviceId deviceName =>
      if s.componentMounted then none else some (s.effect deviceId deviceName)
  | .change deviceId deviceName =>
      if s.componentMounted then some (s.cleanup.effect deviceId deviceName) else none
  | .unmount => if s.componentMounted then some { s.cleanup with componentMounted := false } else none
  | .expire timer => (s.timers.lookup timer).map fun callback => (s.expired timer).fire callback
  | .onopen i =>
      if s.sockets[i]?.any (·.readyState = .connecting) then some (s.setReadyState i .open).handleOpen
      else none
  | .peerCloses i =>
      if s.sockets[i]?.any (·.readyState = .open) then some (s.setReadyState i .closing) else none
  | .onclose i =>
      if s.sockets[i]?.any (·.readyState ≠ .closed) then some (s.setReadyState i .closed).handleClose
      else none

/-- Never two sockets that are connecting or open, the ref on the newest socket as long as that one is
not closed, and no socket from an unmounted component. -/
structure OneSocket (s : WebSocketHook) : Prop where
  one : ∀ (i j : Nat) (v w : HookSocket), s.sockets[i]? = some v → s.sockets[j]? = some w →
    v.live = true → w.live = true → i = j
  ref : ∀ i w, i + 1 = s.sockets.length → s.sockets[i]? = some w → w.inUse = true → s.wsRef = some i
  created : ∀ w ∈ s.sockets, w.createdMounted = true

/-- While the hook is mounted, no close event of an older socket arrives as long as the newest is in use,
and no timer that is left over expires while the newest is connecting or open. -/
def NoStaleEvent (s : WebSocketHook) : HookEvent → Bool
  | .onclose i => !s.mountedRef || i + 1 = s.sockets.length || !s.sockets.getLast?.any HookSocket.inUse
  | .expire timer =>
      match s.timers.lookup timer with
      | some (.reconnect _) => !s.mountedRef || !s.sockets.getLast?.any HookSocket.live
      | _ => true
  | _ => true

structure Inv (s : WebSocketHook) : Prop where
  closing : ∀ w ∈ s.sockets, w.closeCalled = true → w.live = false
  live : ∀ i w, s.sockets[i]? = some w → w.live = true → i + 1 = s.sockets.length
  ref : ∀ i w, i + 1 = s.sockets.length → s.sockets[i]? = some w → w.inUse = true → s.wsRef = some i
  created : ∀ w ∈ s.sockets, w.createdMounted = true
  unmounted : s.componentMounted = false → ∀ i w, i + 1 = s.sockets.length → s.sockets[i]? = some w →
    w.inUse = false
  mounted : s.connectRef ≠ none → s.mountedRef = s.componentMounted
  begun : s.connectRef = none → s.timers = [] ∧ s.sockets = [] ∧ s.componentMounted = false

theorem inv_start : Inv start where
  closing := by simp [start]
  live := by simp [start]
  ref := by simp [start]
  created := by simp [start]
  unmounted := by simp [start]
  mounted := by simp [start]
  begun := by simp [start]

theorem Inv.oneSocket {s : WebSocketHook} (h : s.Inv) : s.OneSocket where
  one := by
    intro i j v w hi hj hv hw
    have hiLast := h.live i v hi hv
    have hjLast := h.live j w hj hw
    omega
  ref := h.ref
  created := h.created

theorem inUse_of_live {s : WebSocketHook} (h : s.Inv) {i : Nat} {w : HookSocket}
    (hi : s.sockets[i]? = some w) (hw : w.live = true) : w.inUse = true := by
  have hclosing := h.closing w (List.mem_of_getElem? hi)
  cases hcalled : w.closeCalled with
  | true => simp [hclosing hcalled] at hw
  | false =>
      simp only [HookSocket.live, decide_eq_true_eq] at hw
      rcases hw with hw | hw <;> simp [HookSocket.inUse, hw, hcalled]

/-- A socket that moves on, without a new one: it is not used again when it was not used before. -/
theorem inv_modify {s : WebSocketHook} (h : s.Inv) (i : Nat) (f : HookSocket → HookSocket)
    (hlive : ∀ w, s.sockets[i]? = some w → (f w).live = true → w.live = true)
    (huse : ∀ w, s.sockets[i]? = some w → (f w).inUse = true → w.inUse = true)
    (hclosing : ∀ w, s.sockets[i]? = some w → (f w).closeCalled = true → w.closeCalled = true)
    (hcreated : ∀ w, (f w).createdMounted = w.createdMounted) :
    Inv { s with sockets := s.sockets.modify i f } := by
  have hget : ∀ j w, (s.sockets.modify i f)[j]? = some w →
      ∃ v, s.sockets[j]? = some v ∧ (w = v ∨ (i = j ∧ w = f v)) := by
    intro j w hj
    rw [List.getElem?_modify] at hj
    obtain ⟨v, hv, rfl⟩ := Option.map_eq_some_iff.mp hj
    refine ⟨v, hv, ?_⟩
    by_cases hij : i = j <;> simp [hij]
  have hmem : ∀ w ∈ s.sockets.modify i f, ∃ j v, s.sockets[j]? = some v ∧ (w = v ∨ (i = j ∧ w = f v)) := by
    intro w hw
    obtain ⟨j, hj⟩ := List.mem_iff_getElem?.mp hw
    exact ⟨j, hget j w hj⟩
  refine ⟨?_, ?_, ?_, ?_, ?_, h.mounted, ?_⟩
  · intro w hw hcalled
    obtain ⟨j, v, hv, rfl | ⟨rfl, rfl⟩⟩ := hmem w hw
    · exact h.closing w (List.mem_of_getElem? hv) hcalled
    · have hold := h.closing v (List.mem_of_getElem? hv) (hclosing v hv hcalled)
      by_contra hnot
      rw [hlive v hv (by simpa using hnot)] at hold
      cases hold
  · intro j w hj hw
    rw [List.length_modify]
    obtain ⟨v, hv, rfl | ⟨rfl, rfl⟩⟩ := hget j w hj
    · exact h.live j w hv hw
    · exact h.live i v hv (hlive v hv hw)
  · intro j w hlast hj hw
    rw [List.length_modify] at hlast
    obtain ⟨v, hv, rfl | ⟨rfl, rfl⟩⟩ := hget j w hj
    · exact h.ref j w hlast hv hw
    · exact h.ref i v hlast hv (huse v hv hw)
  · intro w hw
    obtain ⟨j, v, hv, rfl | ⟨rfl, rfl⟩⟩ := hmem w hw
    · exact h.created w (List.mem_of_getElem? hv)
    · rw [hcreated]
      exact h.created v (List.mem_of_getElem? hv)
  · intro hnot j w hlast hj
    rw [List.length_modify] at hlast
    obtain ⟨v, hv, rfl | ⟨rfl, rfl⟩⟩ := hget j w hj
    · exact h.unmounted hnot j w hlast hv
    · have hv' := h.unmounted hnot i v hlast hv
      by_contra hne
      simp [huse v hv (by simpa using hne)] at hv'
  · intro hnone
    obtain ⟨htimers, hsockets, hcomponent⟩ := h.begun hnone
    exact ⟨htimers, by simp [hsockets], hcomponent⟩

theorem inv_of_timers {s t : WebSocketHook} (h : s.Inv) (hsockets : t.sockets = s.sockets)
    (hwsRef : t.wsRef = s.wsRef) (hmounted : t.mountedRef = s.mountedRef)
    (hcomponent : t.componentMounted = s.componentMounted) (hconnect : t.connectRef = s.connectRef)
    (hbegun : t.connectRef = none → t.timers = []) : t.Inv := by
  refine ⟨?_, ?_, ?_, ?_, ?_, ?_, ?_⟩
  · rw [hsockets]
    exact h.closing
  · rw [hsockets]
    exact h.live
  · rw [hsockets, hwsRef]
    exact h.ref
  · rw [hsockets]
    exact h.created
  · rw [hsockets, hcomponent]
    exact h.unmounted
  · rw [hconnect, hmounted, hcomponent]
    exact h.mounted
  · intro hnone
    obtain ⟨-, hempty, hnot⟩ := h.begun (hconnect ▸ hnone)
    exact ⟨hbegun hnone, hsockets.trans hempty, hcomponent.trans hnot⟩

/-- Every socket is closed, or on its way there. -/
structure Idle (s : WebSocketHook) : Prop where
  closing : ∀ w ∈ s.sockets, w.closeCalled = true → w.live = false
  idle : ∀ w ∈ s.sockets, w.live = false
  created : ∀ w ∈ s.sockets, w.createdMounted = true

theorem inv_connect {s : WebSocketHook} (h : s.Idle) (hmounted : s.mountedRef = true)
    (hcomponent : s.componentMounted = true) (hconnect : s.connectRef ≠ none) (deviceId deviceName : String) :
    (s.connect deviceId deviceName).Inv := by
  rw [connect, if_pos hmounted]
  refine ⟨?_, ?_, ?_, ?_, ?_, ?_, ?_⟩
  · intro w hw
    rcases List.mem_append.mp hw with hold | hnew
    · exact h.closing w hold
    · rw [List.mem_singleton.mp hnew]
      intro hcalled
      cases hcalled
  · intro i w hi hw
    rcases getElem?_concat_cases hi with hold | ⟨rfl, -⟩
    · rw [h.idle w (List.mem_of_getElem? hold)] at hw
      cases hw
    · simp
  · intro i w hlast _ _
    have hi : i = s.sockets.length := by simpa using hlast
    rw [hi]
  · intro w hw
    rcases List.mem_append.mp hw with hold | hnew
    · exact h.created w hold
    · rw [List.mem_singleton.mp hnew]
      exact hcomponent
  · intro hnot
    exact absurd hcomponent (by simpa using hnot)
  · intro _
    exact hmounted.trans hcomponent.symm
  · intro hnone
    exact absurd hnone hconnect

theorem inv_effect {s : WebSocketHook} (h : s.Idle) (deviceId deviceName : String) :
    (s.effect deviceId deviceName).Inv := by
  unfold effect
  refine inv_connect ?_ rfl rfl (Option.some_ne_none _) deviceId deviceName
  exact ⟨h.closing, h.idle, h.created⟩

theorem Inv.idle {s : WebSocketHook} (h : s.Inv) (hunused : ∀ i w, i + 1 = s.sockets.length →
    s.sockets[i]? = some w → w.inUse = false) : s.Idle := by
  refine ⟨h.closing, ?_, h.created⟩
  intro w hw
  obtain ⟨i, hi⟩ := List.mem_iff_getElem?.mp hw
  by_contra hlive
  have hlive : w.live = true := by simpa using hlive
  have huse := inUse_of_live h hi hlive
  rw [hunused i w (h.live i w hi hlive) hi] at huse
  cases huse

theorem close_live (w : HookSocket) : w.close.live = false := by
  by_cases h : w.readyState = .closed <;> simp [HookSocket.close, HookSocket.live, h]

theorem close_inUse (w : HookSocket) : w.close.inUse = false := by
  simp [HookSocket.close, HookSocket.inUse]

theorem cleanup_refs (s : WebSocketHook) :
    s.cleanup.mountedRef = false ∧ s.cleanup.connectRef = s.connectRef ∧
      (s.timers = [] → s.cleanup.timers = []) := by
  unfold cleanup
  cases hws : s.wsRef with
  | none => simp +contextual [clearTimeout]
  | some i => simp +contextual [clearTimeout]

theorem cleanup_sockets (s : WebSocketHook) :
    s.cleanup.sockets.length = s.sockets.length ∧ ∀ i w, s.cleanup.sockets[i]? = some w →
      ∃ v, s.sockets[i]? = some v ∧ (w = v.close ∨ s.wsRef ≠ some i ∧ w = v) := by
  unfold cleanup
  cases hws : s.wsRef with
  | none =>
      refine ⟨by simp [clearTimeout], ?_⟩
      intro i w hi
      exact ⟨w, by simpa [clearTimeout] using hi, .inr ⟨Option.some_ne_none i |>.symm, rfl⟩⟩
  | some k =>
      refine ⟨by simp [clearTimeout], ?_⟩
      intro i w hi
      simp only [clearTimeout, List.getElem?_modify] at hi
      obtain ⟨v, hv, rfl⟩ := Option.map_eq_some_iff.mp hi
      refine ⟨v, hv, ?_⟩
      by_cases hki : k = i
      · left
        simp [hki]
      · right
        exact ⟨fun heq => hki (Option.some.inj heq), by simp [hki]⟩

theorem cleanup_idle {s : WebSocketHook} (h : s.Inv) : s.cleanup.Idle := by
  obtain ⟨-, hsockets⟩ := s.cleanup_sockets
  have hmem : ∀ w ∈ s.cleanup.sockets, ∃ i v, s.sockets[i]? = some v ∧
      (w = v.close ∨ s.wsRef ≠ some i ∧ w = v) := by
    intro w hw
    obtain ⟨i, hi⟩ := List.mem_iff_getElem?.mp hw
    exact ⟨i, hsockets i w hi⟩
  have hidle : ∀ w ∈ s.cleanup.sockets, w.live = false := by
    intro w hw
    obtain ⟨i, v, hv, rfl | ⟨hne, rfl⟩⟩ := hmem w hw
    · exact close_live v
    · -- a socket that is connecting or open is the newest, and the ref names it
      by_contra hlive
      have hlive : w.live = true := by simpa using hlive
      exact hne (h.ref i w (h.live i w hv hlive) hv (inUse_of_live h hv hlive))
  refine ⟨fun w hw _ => hidle w hw, hidle, ?_⟩
  intro w hw
  obtain ⟨i, v, hv, rfl | ⟨-, rfl⟩⟩ := hmem w hw
  · exact h.created v (List.mem_of_getElem? hv)
  · exact h.created w (List.mem_of_getElem? hv)

theorem inv_unmount {s : WebSocketHook} (h : s.Inv) : Inv { s.cleanup with componentMounted := false } := by
  obtain ⟨hmounted, hconnect, htimers⟩ := s.cleanup_refs
  obtain ⟨hlength, hsockets⟩ := s.cleanup_sockets
  have hidle := cleanup_idle h
  have hunused : ∀ i w, i + 1 = s.cleanup.sockets.length → s.cleanup.sockets[i]? = some w →
      w.inUse = false := by
    intro i w hlast hi
    rw [hlength] at hlast
    obtain ⟨v, hv, rfl | ⟨hne, rfl⟩⟩ := hsockets i w hi
    · exact close_inUse v
    · by_contra huse
      exact hne (h.ref i w hlast hv (by simpa using huse))
  refine ⟨hidle.closing, ?_, ?_, hidle.created, fun _ => hunused, fun _ => hmounted, ?_⟩
  · intro i w hi hw
    rw [hidle.idle w (List.mem_of_getElem? hi)] at hw
    cases hw
  · intro i w hlast hi hw
    rw [hunused i w hlast hi] at hw
    cases hw
  · intro hnone
    obtain ⟨hempty, hnoSockets, -⟩ := h.begun (hconnect ▸ hnone)
    refine ⟨htimers hempty, ?_, rfl⟩
    exact List.length_eq_zero_iff.mp (hlength.trans (by rw [hnoSockets]; rfl))

theorem setReadyState_sockets (s : WebSocketHook) (i j : Nat) (state : ReadyState) :
    (s.setReadyState i state).sockets[j]? =
      s.sockets[j]?.map fun w => if i = j then { w with readyState := state } else w := by
  simp only [setReadyState, List.getElem?_modify]
  by_cases hij : i = j <;> simp [hij]

theorem inv_setReadyState {s : WebSocketHook} (h : s.Inv) (i : Nat) (state : ReadyState)
    (hstate : state = .closing ∧ s.sockets[i]?.any (·.readyState = .open) = true ∨ state = .closed) :
    (s.setReadyState i state).Inv := by
  apply inv_modify h
  · intro w _ hlive
    rcases hstate with ⟨rfl, -⟩ | rfl <;> simp [HookSocket.live] at hlive
  · intro w hi huse
    rcases hstate with ⟨rfl, hopen⟩ | rfl
    · rw [hi] at hopen
      simp_all [HookSocket.inUse]
    · simp [HookSocket.inUse] at huse
  · exact fun w _ hcalled => hcalled
  · exact fun w => rfl

theorem inv_onopen {s : WebSocketHook} (h : s.Inv) (i : Nat) (w : HookSocket) (hi : s.sockets[i]? = some w)
    (hstate : w.readyState = .connecting) : (s.setReadyState i .open).handleOpen.Inv := by
  have hconnect : s.connectRef ≠ none := by
    intro hnone
    rw [(h.begun hnone).2.1] at hi
    cases hi
  have hopen : (s.setReadyState i .open).Inv := by
    apply inv_modify h
    · intro v hv _
      cases hi.symm.trans hv
      simp [HookSocket.live, hstate]
    · intro v hv huse
      cases hi.symm.trans hv
      simpa [HookSocket.inUse, hstate] using huse
    · exact fun v _ hcalled => hcalled
    · exact fun v => rfl
  unfold handleOpen
  split
  · exact inv_of_timers hopen rfl rfl rfl rfl rfl fun hnone => absurd hnone hconnect
  · exact hopen

theorem inv_onclose {s : WebSocketHook} (h : s.Inv) (i : Nat) (w : HookSocket) (hi : s.sockets[i]? = some w)
    (hcond : s.NoStaleEvent (.onclose i) = true) : (s.setReadyState i .closed).handleClose.Inv := by
  have hconnect : s.connectRef ≠ none := by
    intro hnone
    rw [(h.begun hnone).2.1] at hi
    cases hi
  have hclosed := inv_setReadyState h i .closed (.inr rfl)
  unfold handleClose
  split
  · rename_i hmounted
    have hunused : ∀ j v, j + 1 = s.sockets.length →
        (s.setReadyState i .closed).sockets[j]? = some v → v.inUse = false := by
      intro j v hlast hj
      rw [setReadyState_sockets] at hj
      obtain ⟨u, hu, rfl⟩ := Option.map_eq_some_iff.mp hj
      by_cases hij : i = j
      · simp [hij, HookSocket.inUse]
      · have hnewest : s.sockets.getLast? = some u := by
          rw [List.getLast?_eq_getElem?, show s.sockets.length - 1 = j by omega]
          exact hu
        have hmounted : s.mountedRef = true := hmounted
        have hne : i + 1 ≠ s.sockets.length := by omega
        simpa [NoStaleEvent, hmounted, hne, hnewest, hij] using hcond
    have hlength : (s.setReadyState i .closed).sockets.length = s.sockets.length := by
      simp [setReadyState]
    refine ⟨hclosed.closing, hclosed.live, ?_, hclosed.created, hclosed.unmounted, hclosed.mounted, ?_⟩
    · intro j v hlast hj huse
      rw [hunused j v (hlast.trans hlength) hj] at huse
      cases huse
    · intro hnone
      exact absurd hnone hconnect
  · exact hclosed

theorem fire_reconnect {s : WebSocketHook} {deviceId deviceName : String}
    (h : s.connectRef = some (deviceId, deviceName)) (timer delay : Nat) :
    (s.expired timer).fire (.reconnect delay) = (s.expired timer).connect deviceId deviceName := by
  simp only [fire, expired, h]

theorem inv_expire {s : WebSocketHook} (h : s.Inv) (timer : Nat) (callback : HookTimer)
    (htimer : s.timers.lookup timer = some callback) (hcond : s.NoStaleEvent (.expire timer) = true) :
    ((s.expired timer).fire callback).Inv := by
  have hconnect : s.connectRef ≠ none := by
    intro hnone
    rw [(h.begun hnone).1] at htimer
    cases htimer
  have hbefore : (s.expired timer).Inv :=
    inv_of_timers h rfl rfl rfl rfl rfl fun hnone => absurd hnone hconnect
  cases callback with
  | stable => exact inv_of_timers hbefore rfl rfl rfl rfl rfl fun hnone => absurd hnone hconnect
  | reconnect delay =>
      obtain ⟨⟨deviceId, deviceName⟩, hsome⟩ := Option.ne_none_iff_exists'.mp hconnect
      rw [fire_reconnect hsome]
      by_cases hmounted : s.mountedRef = true
      · have hnewest : ∀ w, s.sockets.getLast? = some w → w.live = false := by
          intro w hw
          simpa [NoStaleEvent, htimer, hmounted, hw] using hcond
        have hidle : ∀ w ∈ s.sockets, w.live = false := ?_
        · exact inv_connect (s := s.expired timer) ⟨h.closing, hidle, h.created⟩ hmounted
            ((h.mounted hconnect).symm.trans hmounted) hconnect deviceId deviceName
        intro w hw
        obtain ⟨i, hi⟩ := List.mem_iff_getElem?.mp hw
        by_contra hlive
        have hlast := h.live i w hi (by simpa using hlive)
        refine hlive (hnewest w ?_)
        rw [List.getLast?_eq_getElem?, show s.sockets.length - 1 = i by omega]
        exact hi
      · rw [connect, if_neg (show ¬(s.expired timer).mountedRef = true from hmounted)]
        exact hbefore

theorem inv_step (s : WebSocketHook) (e : HookEvent) (t : WebSocketHook) (hs : s.Inv)
    (hcond : s.NoStaleEvent e = true) (h : s.step e = some t) : t.Inv := by
  cases e with
  | mount deviceId deviceName =>
      simp only [step] at h
      split at h
      · cases h
      · rename_i hnot
        cases h
        exact inv_effect (hs.idle (hs.unmounted (by simpa using hnot))) deviceId deviceName
  | change deviceId deviceName =>
      simp only [step] at h
      split at h
      · cases h
        exact inv_effect (cleanup_idle hs) deviceId deviceName
      · cases h
  | unmount =>
      simp only [step] at h
      split at h
      · cases h
        exact inv_unmount hs
      · cases h
  | expire timer =>
      obtain ⟨callback, htimer, rfl⟩ := Option.map_eq_some_iff.mp h
      exact inv_expire hs timer callback htimer hcond
  | onopen i =>
      simp only [step] at h
      split at h
      · rename_i hstate
        cases h
        obtain ⟨w, hi, hw⟩ := (Option.any_eq_true _ _).mp hstate
        exact inv_onopen hs i w hi (by simpa using hw)
      · cases h
  | peerCloses i =>
      simp only [step] at h
      split at h
      · rename_i hstate
        cases h
        exact inv_setReadyState hs i .closing (.inl ⟨rfl, hstate⟩)
      · cases h
  | onclose i =>
      simp only [step] at h
      split at h
      · rename_i hstate
        cases h
        obtain ⟨w, hi, -⟩ := (Option.any_eq_true _ _).mp hstate
        exact inv_onclose hs i w hi hcond
      · cases h

theorem handleClose_sockets (s : WebSocketHook) : s.handleClose.sockets = s.sockets := by
  unfold handleClose
  split <;> rfl

theorem handleClose_wsRef {s : WebSocketHook} (h : s.mountedRef = true) : s.handleClose.wsRef = none := by
  rw [handleClose, if_pos h]
  rfl

theorem not_oneSocket_of_stale (s : WebSocketHook) (e : HookEvent) (t : WebSocketHook) (hs : s.Inv)
    (hcond : ¬s.NoStaleEvent e = true) (h : s.step e = some t) : ¬t.OneSocket := by
  intro hone
  cases e with
  | onclose i =>
      simp only [NoStaleEvent, Bool.or_eq_true, Bool.not_eq_true', decide_eq_true_eq, not_or,
        Bool.not_eq_false] at hcond
      obtain ⟨⟨hmounted, hne⟩, hnewest⟩ := hcond
      obtain ⟨w, hw, huse⟩ := (Option.any_eq_true _ _).mp hnewest
      rw [List.getLast?_eq_getElem?] at hw
      have hlt := (List.getElem?_eq_some_iff.mp hw).1
      simp only [step] at h
      split at h
      · cases h
        have hnot : ¬i = s.sockets.length - 1 := by omega
        have hsame : (s.setReadyState i .closed).handleClose.sockets[s.sockets.length - 1]? = some w := by
          rw [handleClose_sockets, setReadyState_sockets, hw]
          simp [hnot]
        have hlength : s.sockets.length - 1 + 1 =
            (s.setReadyState i .closed).handleClose.sockets.length := by
          rw [handleClose_sockets, setReadyState, List.length_modify]
          omega
        have href := hone.ref (s.sockets.length - 1) w hlength hsame huse
        rw [handleClose_wsRef (show (s.setReadyState i .closed).mountedRef = true from hmounted)] at href
        cases href
      · cases h
  | expire timer =>
      obtain ⟨callback, htimer, rfl⟩ := Option.map_eq_some_iff.mp h
      cases callback with
      | stable => simp [NoStaleEvent, htimer] at hcond
      | reconnect delay =>
          simp only [NoStaleEvent, htimer, Bool.or_eq_true, Bool.not_eq_true', not_or,
            Bool.not_eq_false] at hcond
          obtain ⟨hmounted, hnewest⟩ := hcond
          obtain ⟨w, hw, hlive⟩ := (Option.any_eq_true _ _).mp hnewest
          rw [List.getLast?_eq_getElem?] at hw
          have hlt := (List.getElem?_eq_some_iff.mp hw).1
          have hconnect : s.connectRef ≠ none := by
            intro hnone
            rw [(hs.begun hnone).1] at htimer
            cases htimer
          obtain ⟨⟨deviceId, deviceName⟩, hsome⟩ := Option.ne_none_iff_exists'.mp hconnect
          have hsockets : ((s.expired timer).fire (.reconnect delay)).sockets =
              s.sockets ++ [⟨deviceId, deviceName, .connecting, false, s.componentMounted⟩] := by
            rw [fire_reconnect hsome, connect, if_pos (show (s.expired timer).mountedRef = true from hmounted)]
            rfl
          have hsame := hone.one (s.sockets.length - 1) s.sockets.length w _
            (by rw [hsockets, List.getElem?_append_left hlt]; exact hw)
            (by rw [hsockets, List.getElem?_concat_length]) hlive (by simp [HookSocket.live])
          omega
  | _ => exact absurd rfl hcond

/-- The hook keeps one socket in every state of a run exactly when no stale event reaches it. -/
theorem oneSocket_iff (events : List HookEvent) (u : WebSocketHook)
    (hrun : run step start events = some u) :
    Throughout step OneSocket start events ↔
      Guarded step (fun s e => s.NoStaleEvent e = true) start events :=
  throughout_iff_guarded step (fun s e => s.NoStaleEvent e = true) Inv OneSocket
    (fun _ hs => hs.oneSocket) inv_step not_oneSocket_of_stale inv_start hrun

/-- The socket is lost and replaced, and the page is left. -/
def reconnects : List HookEvent :=
  [.mount "dev-1" "Fox", .onopen 0, .peerCloses 0, .onclose 0, .expire 1, .onopen 1, .unmount, .onclose 1]

theorem oneSocket_iff_reconnects : Throughout step OneSocket start reconnects := by
  obtain ⟨u, hrun⟩ : ∃ u, run step start reconnects = some u :=
    Option.isSome_iff_exists.mp (by decide +kernel)
  exact (oneSocket_iff reconnects u hrun).mpr (by decide +kernel)

/-- The name changes; the close event of the first socket comes when the second one is open, and the
timer that it sets expires. -/
def renames : List HookEvent :=
  [.mount "dev-1" "Fox", .onopen 0, .change "dev-1" "Bear", .onopen 1, .onclose 0, .expire 2]

/-- The hook has two sockets then, of which one is open and the other connecting. -/
theorem not_oneSocket_renames :
    ¬∀ (events : List HookEvent) (u : WebSocketHook), run step start events = some u → u.OneSocket := by
  intro h
  have hsockets : (run step start renames).map WebSocketHook.sockets =
      some [⟨"dev-1", "Fox", .closed, true, true⟩, ⟨"dev-1", "Bear", .open, false, true⟩,
        ⟨"dev-1", "Bear", .connecting, false, true⟩] := by
    decide +kernel
  obtain ⟨u, hrun, hu⟩ := Option.map_eq_some_iff.mp hsockets
  have hone := (h renames u hrun).one 1 2 ⟨"dev-1", "Bear", .open, false, true⟩
    ⟨"dev-1", "Bear", .connecting, false, true⟩ (by rw [hu]; rfl) (by rw [hu]; rfl) (by decide) (by decide)
  cases hone

end WebSocketHook

end NetworkFileServer.Client
