import NetworkFileServer.Agent.Handlers

/-!
# When the agent's stream table leaks

`on_open` and `on_ws_open` register a stream before they start its task. `handle_open_frame` removes
it after the body loop, and `handle_ws_open_frame` in the `finally` of the bridge; a task that does
not get there leaves it in the table. With `MAX_STREAMS` of them, the next OPEN ends the receive
loop.
-/

namespace NetworkFileServer.Agent

open Tunnel TunnelConnection

/-- The `remove_stream` of the task is still ahead, or will never come. -/
def AgentPc.holdsStream : AgentPc → Bool
  | .spawned | .readingBody _ | .wsSpawned | .wsConnecting | .wsStarting | .wsBridging _
  | .wsRefused => true
  | .absent | .rejected | .requesting _ | .sending _ _ _ | .sendingClose | .ended _ | .wsClosing
  | .wsEnded => false

/-- The exits that no `remove_stream` lies on: a cancellation before the body is complete, and any
end of a WebSocket task that did not get to its bridge. -/
def abandons : AgentPc → AgentEvent → Bool
  | .spawned, .cancel | .readingBody _, .cancel | .wsSpawned, .cancel => true
  | .wsRefused, .sent | .wsRefused, .sendFailed | .wsRefused, .cancel => true
  | _, _ => false

theorem agentStep_abandons (env : AgentEnv) (conn conn' : TunnelConnection) (id : UUID)
    (pc pc' : AgentPc) (e : AgentEvent) (out : List Frame)
    (h : agentStep env conn id pc e = some (conn', pc', out)) (habandons : abandons pc e = true) :
    pc.holdsStream = true ∧ (pc' = .ended .cancelled ∨ pc' = .wsEnded) ∧
      conn'.streams = conn.streams := by
  unfold abandons at habandons
  split at habandons <;> cases habandons <;> cases h <;> simp [AgentPc.holdsStream]

theorem agentStep_spawned_leaves (env : AgentEnv) (conn conn' : TunnelConnection) (id : UUID)
    (pc' : AgentPc) (out : List Frame)
    (h : agentStep env conn id .spawned .start = some (conn', pc', out))
    (hpc' : pc'.holdsStream = false) : id ∉ conn'.streams := by
  simp only [agentStep] at h
  split at h
  · cases h
    cases hpc'
  · rename_i hmissing
    cases h
    intro hmem
    simp [getStream, hmem] at hmissing

theorem agentStep_bodyGet_leaves (env : AgentEnv) (conn conn' : TunnelConnection) (id : UUID)
    (parts : List Bytes) (pc' : AgentPc) (out : List Frame)
    (h : agentStep env conn id (.readingBody parts) .bodyGet = some (conn', pc', out))
    (hpc' : pc'.holdsStream = false) : id ∉ conn'.streams := by
  obtain ⟨⟨chunk, taken⟩, -, heq⟩ := Option.map_eq_some_iff.mp h
  simp only at heq
  split at heq
  · cases heq
    exact not_mem_removeStream taken id
  · cases heq
    cases hpc'

theorem agentStep_wsBridging_leaves (env : AgentEnv) (conn conn' : TunnelConnection) (id : UUID)
    (iter : IterPc) (pc' : AgentPc) (e : AgentEvent) (out : List Frame)
    (h : agentStep env conn id (.wsBridging iter) e = some (conn', pc', out))
    (hpc' : pc'.holdsStream = false) : id ∉ conn'.streams := by
  cases e with
  | iter e' =>
      obtain ⟨⟨moved, iter', out'⟩, -, heq⟩ := Option.map_eq_some_iff.mp h
      simp only at heq
      split at heq
      · cases heq
        exact not_mem_removeStream moved id
      · cases heq
        cases hpc'
  | localMessage payload =>
      simp only [agentStep] at h
      split at h
      · cases h
        exact not_mem_removeStream conn id
      · cases h
        cases hpc'
  | bridgeEnd | cancel =>
      cases h
      exact not_mem_removeStream conn id
  | _ => cases h

/-- Every other exit goes by a `remove_stream`, or by a `get_stream` that found no stream. -/
theorem agentStep_removes (env : AgentEnv) (conn conn' : TunnelConnection) (id : UUID)
    (pc pc' : AgentPc) (e : AgentEvent) (out : List Frame)
    (h : agentStep env conn id pc e = some (conn', pc', out)) (hpc : pc.holdsStream = true)
    (hpc' : pc'.holdsStream = false) (hstays : abandons pc e = false) : id ∉ conn'.streams := by
  cases pc with
  | spawned =>
      cases e with
      | start => exact agentStep_spawned_leaves env conn conn' id pc' out h hpc'
      | cancel => cases hstays
      | _ => cases h
  | readingBody parts =>
      cases e with
      | bodyGet => exact agentStep_bodyGet_leaves env conn conn' id parts pc' out h hpc'
      | cancel => cases hstays
      | _ => cases h
  | wsSpawned =>
      cases e with
      | start =>
          cases h
          cases hpc'
      | cancel => cases hstays
      | _ => cases h
  | wsConnecting =>
      cases e with
      | connected | connectFailed | cancel =>
          cases h
          cases hpc'
      | _ => cases h
  | wsStarting =>
      cases e with
      | start =>
          simp only [agentStep] at h
          split at h
          · cases h
            cases hpc'
          · cases h
            exact not_mem_removeStream conn id
      | cancel =>
          cases h
          exact not_mem_removeStream conn id
      | _ => cases h
  | wsBridging iter => exact agentStep_wsBridging_leaves env conn conn' id iter pc' e out h hpc'
  | wsRefused =>
      cases e with
      | sent | sendFailed | cancel => cases hstays
      | _ => cases h
  | _ => cases hpc

theorem agentStep_released (env : AgentEnv) (conn conn' : TunnelConnection) (id : UUID)
    (pc pc' : AgentPc) (e : AgentEvent) (out : List Frame)
    (h : agentStep env conn id pc e = some (conn', pc', out)) (hpc : pc.holdsStream = true)
    (hpc' : pc'.holdsStream = false) :
    id ∈ conn'.streams ↔ abandons pc e = true ∧ id ∈ conn.streams := by
  cases habandons : abandons pc e with
  | true => simp [(agentStep_abandons env conn conn' id pc pc' e out h habandons).2.2]
  | false => simp [agentStep_removes env conn conn' id pc pc' e out h hpc hpc' habandons]

namespace AgentTunnel

/-- The streams of the tasks that have ended are out of the table. -/
def Released (s : AgentTunnel) : Prop :=
  ∀ id, ((∃ how, s.handler id = .ended how) ∨ s.handler id = .wsEnded) → id ∉ s.conn.streams

/-- The task of a stream that is in the table leaves by an exit without `remove_stream`. -/
def Leaks (s : AgentTunnel) : AgentAction → Prop
  | .handler id e => abandons (s.handler id) e = true ∧ id ∈ s.conn.streams
  | _ => False

instance (s : AgentTunnel) (a : AgentAction) : Decidable (s.Leaks a) :=
  match a with
  | .handler _ _ => inferInstanceAs (Decidable (_ ∧ _))
  | .receive _ | .resumePut | .tearDown => isFalse (fun h => h)

/-- A stream in the table has a task whose `remove_stream` is still ahead. -/
def TableInv (s : AgentTunnel) : Prop :=
  ∀ id, id ∈ s.conn.streams → (s.handler id).holdsStream = true

theorem tableInv_init : init.TableInv := nofun

theorem TableInv.released {s : AgentTunnel} (hinv : s.TableInv) : s.Released := by
  intro id hended hmem
  have hholds := hinv id hmem
  rcases hended with ⟨how, hpc⟩ | hpc
  · rw [hpc] at hholds
    cases hholds
  · rw [hpc] at hholds
    cases hholds

theorem tableInv_step (env : AgentEnv) (s : AgentTunnel) (a : AgentAction) (t : AgentTunnel)
    (hinv : s.TableInv) (hcond : ¬ s.Leaks a) (h : s.step env a = some t) : t.TableInv := by
  intro id hmem
  rcases step_cases env s t a id h with
    hbeside | ⟨e, conn, pc, out, rfl, hstep, rfl⟩ | ⟨habsent, hopens⟩
  · rw [hbeside.handler]
    exact hinv id (hbeside.table hmem)
  · have htouches := (agentStep_frame env s.conn conn id _ pc e out hstep).1
    have hholds := hinv id (htouches.mem hmem)
    by_contra hnot
    have hpc : pc.holdsStream = false := by simpa [setHandler] using hnot
    exact hcond ((agentStep_released env s.conn conn id _ pc e out hstep hholds hpc).mp hmem)
  · have hnone : id ∉ s.conn.streams := by
      intro hin
      have hholds := hinv id hin
      rw [habsent] at hholds
      cases hholds
    rcases hopens with ⟨pc, hpc, rfl⟩ | ⟨reply, rfl⟩
    · unfold spawn at hmem ⊢
      split at hmem
      · rcases hpc with rfl | rfl <;> simp [setHandler, AgentPc.holdsStream]
      · exact absurd hmem hnone
    · exact absurd hmem hnone

theorem not_released_of_leaks (env : AgentEnv) (s : AgentTunnel) (a : AgentAction)
    (t : AgentTunnel) (hleaks : s.Leaks a) (h : s.step env a = some t) : ¬ t.Released := by
  cases a with
  | handler id e =>
      obtain ⟨⟨conn, pc, out⟩, hstep, rfl⟩ := Option.map_eq_some_iff.mp h
      obtain ⟨hholds, hended, -⟩ :=
        agentStep_abandons env s.conn conn id _ pc e out hstep hleaks.1
      have hnone : pc.holdsStream = false := by
        rcases hended with rfl | rfl <;> rfl
      have hmem := (agentStep_released env s.conn conn id _ pc e out hstep hholds hnone).mpr hleaks
      intro hreleased
      refine hreleased id ?_ hmem
      rcases hended with rfl | rfl
      · exact .inl ⟨.cancelled, by simp [setHandler]⟩
      · exact .inr (by simp [setHandler])
  | _ => exact hleaks.elim

/-- Along every run, the table holds no stream of an ended task exactly if no task leaves by an exit
without `remove_stream` while its stream is in the table. -/
theorem endedTasks_released_iff (env : AgentEnv) (acts : List AgentAction) (s : AgentTunnel)
    (hrun : TransitionSystem.run (step env) init acts = some s) :
    TransitionSystem.Throughout (step env) Released init acts ↔
      TransitionSystem.Guarded (step env) (fun s a => ¬ s.Leaks a) init acts := by
  apply TransitionSystem.throughout_iff_guarded (step env) _ TableInv Released
  · exact fun _ hinv => hinv.released
  · exact tableInv_step env
  · intro s a t _ hcond h
    exact not_released_of_leaks env s a t (not_not.mp hcond) h
  · exact tableInv_init
  · exact hrun

/-- A request whose application raises, and a bridge that its local WebSocket ends. -/
def twoStreams : List AgentAction :=
  getRequest ++ [.receive ⟨.wsOpen, 2, []⟩, .handler 2 .start, .handler 2 .connected,
    .handler 2 .start, .handler 2 (.localMessage [0, 104]), .handler 2 .bridgeEnd, .handler 2 .sent]

theorem endedTasks_released_iff_twoStreams :
    TransitionSystem.Throughout (step (plainEnv raising)) Released init twoStreams := by
  have hguard : TransitionSystem.Guarded (step (plainEnv raising)) (fun s a => ¬ s.Leaks a) init
      twoStreams := by
    decide +kernel
  have heval : (TransitionSystem.run (step (plainEnv raising)) init twoStreams).isSome = true := by
    decide +kernel
  obtain ⟨s, hrun⟩ := Option.isSome_iff_exists.mp heval
  exact (endedTasks_released_iff (plainEnv raising) twoStreams s hrun).mpr hguard

/-- A WebSocket that the local application refuses. -/
def refusedWebSocket : List AgentAction :=
  [.receive ⟨.wsOpen, 1, []⟩, .handler 1 .start, .handler 1 .connectFailed, .handler 1 .sent]

theorem refusedWebSocket_not_released :
    ∃ s, TransitionSystem.run (step (plainEnv hello)) init refusedWebSocket = some s ∧
      s.handler 1 = .wsEnded ∧ 1 ∈ s.conn.streams ∧ ¬ s.Released := by
  have heval : (TransitionSystem.run (step (plainEnv hello)) init refusedWebSocket).any
      (fun s => decide (s.handler 1 = .wsEnded ∧ 1 ∈ s.conn.streams)) = true := by
    decide +kernel
  obtain ⟨s, hrun, hs⟩ := (Option.any_eq_true _ _).mp heval
  obtain ⟨hended, hmem⟩ := of_decide_eq_true hs
  exact ⟨s, hrun, hended, hmem, fun hreleased => hreleased 1 (.inr hended) hmem⟩

end AgentTunnel

end NetworkFileServer.Agent
