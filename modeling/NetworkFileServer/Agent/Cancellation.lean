import NetworkFileServer.Agent.Handlers

/-!
# What a CANCEL frame stops

`handle_open_frame` takes a `StreamNotFoundError` of `send_data` for the signal that the relay has
cancelled the request. `send_data` does not look at the stream table, and the body loop does not
look at the closed event, so a CANCEL changes nothing that the task goes by: it stops a request only
if nothing was going to be sent for it anyway.
-/

namespace NetworkFileServer.Agent

open Tunnel TunnelConnection

/-- A task of `handle_open_frame`. -/
def AgentPc.isOpenFrame : AgentPc → Bool
  | .spawned | .readingBody _ | .requesting _ | .sending _ _ _ | .sendingClose | .ended _ => true
  | _ => false

namespace AgentTunnel

/-- The task is in the body loop, or about to enter it, and the end of the body is not queued. -/
def AwaitsBody (s : AgentTunnel) (id : UUID) : Prop :=
  ((s.handler id = .spawned ∧ id ∈ s.conn.streams) ∨ ∃ parts, s.handler id = .readingBody parts) ∧
    [] ∉ (s.conn.states id).queue.items

/-- However the run goes on, nothing more is sent for the request, and its task does not wait for a
body. -/
def Stopped (env : AgentEnv) (id : UUID) (s : AgentTunnel) : Prop :=
  (∀ acts t, TransitionSystem.run (step env) s acts = some t →
    framesOf id t.sent = framesOf id s.sent) ∧ ¬ s.AwaitsBody id

/-- The task has ended, or it has the whole body and the application's answer is one of which
nothing can be sent. -/
def Silent (env : AgentEnv) (id : UUID) (s : AgentTunnel) : Prop :=
  match s.handler id with
  | .spawned => id ∈ s.conn.streams →
      [] ∈ (s.conn.states id).queue.items ∧ ¬ (env.app id).Begins
  | .readingBody _ => [] ∈ (s.conn.states id).queue.items ∧ ¬ (env.app id).Begins
  | .requesting _ => ¬ (env.app id).Begins
  | .ended _ => True
  | _ => False

theorem responded_cases (env : AgentEnv) (id : UUID) :
    (¬ (env.app id).Begins ∧ env.responded id = .ended .raised) ∨
    ((env.app id).Begins ∧ ∃ payload rest fails, env.responded id = .sending payload rest fails) := by
  unfold AgentEnv.responded LocalRun.Begins
  cases hresponse : (env.app id).response with
  | none => exact .inl ⟨by simp, rfl⟩
  | some answer =>
      obtain ⟨status, headers, raw⟩ := answer
      simp only
      by_cases hsize : maxPayloadBytes < (metaPayload status headers).length
      · rw [if_pos hsize]
        refine .inl ⟨?_, rfl⟩
        rintro ⟨status', headers', raw', hsome, hfits⟩
        cases hsome
        omega
      · rw [if_neg hsize]
        exact .inr ⟨⟨status, headers, raw, rfl, by omega⟩, _, _, _, rfl⟩

theorem Silent.not_awaitsBody {env : AgentEnv} {id : UUID} {s : AgentTunnel}
    (h : s.Silent env id) : ¬ s.AwaitsBody id := by
  rintro ⟨⟨hpc, hmem⟩ | ⟨parts, hpc⟩, hnone⟩
  · rw [Silent, hpc] at h
    exact hnone (h hmem).1
  · rw [Silent, hpc] at h
    exact hnone h.1

theorem Silent.beside {env : AgentEnv} {id : UUID} {s t : AgentTunnel} (h : s.Silent env id)
    (hbeside : Beside id s t) : t.Silent env id := by
  obtain ⟨hhandler, -, ⟨more, hqueue⟩, htable⟩ := hbeside
  have hkept : [] ∈ (s.conn.states id).queue.items → [] ∈ (t.conn.states id).queue.items := by
    intro hmem
    rw [hqueue]
    exact List.mem_append_left more hmem
  unfold Silent at *
  rw [hhandler]
  cases hpc : s.handler id with
  | spawned =>
      rw [hpc] at h
      intro hmem
      exact (h (htable hmem)).imp_left hkept
  | readingBody parts =>
      rw [hpc] at h
      exact h.imp_left hkept
  | _ =>
      rw [hpc] at h
      exact h

theorem silent_handler {env : AgentEnv} {id : UUID} {s : AgentTunnel} {e : AgentEvent}
    {conn : TunnelConnection} {pc : AgentPc} {out : List Frame} (h : s.Silent env id)
    (hstep : agentStep env s.conn id (s.handler id) e = some (conn, pc, out)) :
    out = [] ∧ Silent env id { s.setHandler id pc with conn := conn, sent := s.sent ++ out } := by
  have hself : (s.setHandler id pc).handler id = pc := by simp [setHandler]
  unfold Silent at h
  cases hpc : s.handler id with
  | spawned =>
      rw [hpc] at h hstep
      cases e with
      | start =>
          simp only [agentStep] at hstep
          split at hstep
          · rename_i st hfound
            cases hstep
            refine ⟨rfl, ?_⟩
            have hmem := ((getStream_eq_ok_iff s.conn id st).mp hfound).1
            simpa [Silent, hself] using h hmem
          · cases hstep
            exact ⟨rfl, by simp [Silent, hself]⟩
      | cancel =>
          cases hstep
          exact ⟨rfl, by simp [Silent, hself]⟩
      | _ => cases hstep
  | readingBody parts =>
      rw [hpc] at h hstep
      cases e with
      | bodyGet =>
          obtain ⟨⟨chunk, taken⟩, ht, heq⟩ := Option.map_eq_some_iff.mp hstep
          obtain ⟨q, hitems, htaken⟩ := takeItem_cases s.conn taken id chunk ht
          simp only at heq
          split at heq
          · cases heq
            exact ⟨rfl, by simpa [Silent, hself] using h.2⟩
          · rename_i hchunk
            cases heq
            refine ⟨rfl, ?_⟩
            -- The end of the body was not the chunk that was taken.
            have hrest : [] ∈ q.items := by
              have hmem := h.1
              rw [hitems] at hmem
              rcases List.mem_cons.mp hmem with heq | hmem
              · exact absurd heq.symm hchunk
              · exact hmem
            subst htaken
            simpa [Silent, hself] using And.intro hrest h.2
      | cancel =>
          cases hstep
          exact ⟨rfl, by simp [Silent, hself]⟩
      | _ => cases hstep
  | requesting content =>
      rw [hpc] at h hstep
      cases e with
      | respond =>
          cases hstep
          refine ⟨rfl, ?_⟩
          rcases responded_cases env id with ⟨-, hraised⟩ | ⟨hbegins, -⟩
          · simp [Silent, setHandler, hraised]
          · exact absurd hbegins h
      | cancel =>
          cases hstep
          exact ⟨rfl, by simp [Silent, hself]⟩
      | _ => cases hstep
  | ended how =>
      rw [hpc] at hstep
      cases e <;> cases hstep
  | _ =>
      rw [hpc] at h
      cases h

theorem silent_step (env : AgentEnv) (id : UUID) (frames : List Frame) (s : AgentTunnel)
    (a : AgentAction) (t : AgentTunnel)
    (hinv : s.Silent env id ∧ framesOf id s.sent = frames) (h : s.step env a = some t) :
    t.Silent env id ∧ framesOf id t.sent = frames := by
  obtain ⟨hsilent, hframes⟩ := hinv
  rcases step_cases env s t a id h with
    hbeside | ⟨e, conn, pc, out, -, hstep, rfl⟩ | ⟨habsent, -⟩
  · exact ⟨hsilent.beside hbeside, hbeside.sent.trans hframes⟩
  · obtain ⟨rfl, hnext⟩ := silent_handler hsilent hstep
    refine ⟨hnext, ?_⟩
    simpa using hframes
  · rw [Silent, habsent] at hsilent
    cases hsilent

theorem Silent.stopped {env : AgentEnv} {id : UUID} {s : AgentTunnel} (h : s.Silent env id) :
    s.Stopped env id := by
  refine ⟨?_, h.not_awaitsBody⟩
  intro acts t hrun
  exact (TransitionSystem.run_invariant (step env)
    (fun t => t.Silent env id ∧ framesOf id t.sent = framesOf id s.sent)
    (silent_step env id (framesOf id s.sent)) ⟨h, rfl⟩ hrun).2

/-- Some continuation of the run sends another frame for the stream. -/
def Sends (env : AgentEnv) (id : UUID) (s : AgentTunnel) : Prop :=
  ∃ acts t, TransitionSystem.run (step env) s acts = some t ∧
    framesOf id t.sent ≠ framesOf id s.sent

theorem Stopped.not_sends {env : AgentEnv} {id : UUID} {s : AgentTunnel} (h : s.Stopped env id) :
    ¬ s.Sends env id := by
  rintro ⟨acts, t, hrun, hne⟩
  exact hne (h.1 acts t hrun)

theorem Sends.of_handler {env : AgentEnv} {id : UUID} {s : AgentTunnel} (e : AgentEvent)
    {conn : TunnelConnection} {pc : AgentPc}
    (hstep : agentStep env s.conn id (s.handler id) e = some (conn, pc, []))
    (h : Sends env id { s.setHandler id pc with conn := conn }) : s.Sends env id := by
  obtain ⟨acts, t, hrun, hne⟩ := h
  refine ⟨.handler id e :: acts, t, ?_, hne⟩
  rw [TransitionSystem.run_cons_eq_some]
  refine ⟨{ s.setHandler id pc with conn := conn }, ?_, hrun⟩
  simp [step, hstep, setHandler]

theorem sends_of_frame {env : AgentEnv} {id : UUID} {s : AgentTunnel} (e : AgentEvent)
    {conn : TunnelConnection} {pc : AgentPc} {f : Frame} (hid : f.requestId = id)
    (hstep : agentStep env s.conn id (s.handler id) e = some (conn, pc, [f])) :
    s.Sends env id := by
  refine ⟨[.handler id e], { s.setHandler id pc with conn := conn, sent := s.sent ++ [f] }, ?_, ?_⟩
  · simp [TransitionSystem.run, step, hstep]
  · rw [framesOf_append]
    simp [framesOf, hid]

theorem sends_of_requesting {env : AgentEnv} {id : UUID} {s : AgentTunnel} (content : Bytes)
    (hpc : s.handler id = .requesting content) (hbegins : (env.app id).Begins) :
    s.Sends env id := by
  rcases responded_cases env id with ⟨hnot, -⟩ | ⟨-, payload, rest, fails, hsending⟩
  · exact absurd hbegins hnot
  · have hrespond : agentStep env s.conn id (s.handler id) .respond =
        some (s.conn, .sending payload rest fails, []) := by
      rw [hpc, ← hsending]
      rfl
    refine .of_handler .respond hrespond ?_
    have hself : (s.setHandler id (.sending payload rest fails)).handler id =
        .sending payload rest fails := by
      simp [setHandler]
    apply sends_of_frame .sent (f := ⟨.data, id, payload⟩) rfl
    · rw [hself]
      rfl

theorem sends_of_readingBody {env : AgentEnv} {id : UUID} (items : List Bytes) {s : AgentTunnel}
    (parts : List Bytes) (hitems : (s.conn.states id).queue.items = items)
    (hpc : s.handler id = .readingBody parts) (hend : [] ∈ items)
    (hbegins : (env.app id).Begins) : s.Sends env id := by
  induction items generalizing s parts with
  | nil => cases hend
  | cons chunk items ih =>
      obtain ⟨taken, ht⟩ : ∃ taken, s.conn.takeItem id = some (chunk, taken) := by
        cases htake : s.conn.takeItem id with
        | none =>
            rw [takeItem_eq_none_iff, hitems] at htake
            cases htake
        | some result =>
            obtain ⟨p, taken⟩ := result
            obtain ⟨q, hq, -⟩ := takeItem_cases s.conn taken id p htake
            rw [hitems] at hq
            cases hq
            exact ⟨taken, rfl⟩
      obtain ⟨q, hq, htaken⟩ := takeItem_cases s.conn taken id chunk ht
      rw [hitems] at hq
      by_cases hchunk : chunk = []
      · have hget : agentStep env s.conn id (s.handler id) .bodyGet =
            some (taken.removeStream id, .requesting parts.flatten, []) := by
          simp [hpc, agentStep, ht, hchunk]
        refine .of_handler .bodyGet hget ?_
        apply sends_of_requesting parts.flatten _ hbegins
        simp [setHandler]
      · have hget : agentStep env s.conn id (s.handler id) .bodyGet =
            some (taken, .readingBody (parts ++ [chunk]), []) := by
          simp [hpc, agentStep, ht, hchunk]
        refine .of_handler .bodyGet hget ?_
        have hrest : [] ∈ items := by
          rcases List.mem_cons.mp hend with heq | hmem
          · exact absurd heq.symm hchunk
          · exact hmem
        apply ih (parts ++ [chunk]) _ _ hrest
        · subst htaken
          cases hq
          simp
        · simp [setHandler]

theorem Stopped.silent {env : AgentEnv} {id : UUID} {s : AgentTunnel} (h : s.Stopped env id)
    (hpc : (s.handler id).isOpenFrame = true) : s.Silent env id := by
  have hnever := h.not_sends
  have hqueued : ((s.handler id = .spawned ∧ id ∈ s.conn.streams) ∨
      ∃ parts, s.handler id = .readingBody parts) → [] ∈ (s.conn.states id).queue.items := by
    intro hreads
    by_contra hnone
    exact h.2 ⟨hreads, hnone⟩
  unfold Silent
  cases hat : s.handler id with
  | spawned =>
      intro hmem
      have hend := hqueued (.inl ⟨hat, hmem⟩)
      refine ⟨hend, ?_⟩
      intro hbegins
      have hstart : agentStep env s.conn id (s.handler id) .start =
          some (s.conn, .readingBody [], []) := by
        simp [hat, agentStep, getStream, hmem]
      apply hnever
      refine .of_handler .start hstart ?_
      refine sends_of_readingBody (s.conn.states id).queue.items [] rfl ?_ hend hbegins
      simp [setHandler]
  | readingBody parts =>
      have hend := hqueued (.inr ⟨parts, hat⟩)
      refine ⟨hend, ?_⟩
      intro hbegins
      exact hnever (sends_of_readingBody _ parts rfl hat hend hbegins)
  | requesting content =>
      intro hbegins
      exact hnever (sends_of_requesting content hat hbegins)
  | sending payload rest fails =>
      apply hnever
      apply sends_of_frame .sent (f := ⟨.data, id, payload⟩) rfl
      · rw [hat]
        rfl
  | sendingClose =>
      apply hnever
      apply sends_of_frame .sent (f := ⟨.close, id, []⟩) rfl
      · rw [hat]
        rfl
  | ended how => trivial
  | _ =>
      rw [hat] at hpc
      cases hpc

/-- A CANCEL stops the sender exactly if there was nothing left to stop. -/
theorem cancel_stops_iff (env : AgentEnv) (s t : AgentTunnel) (id : UUID) (payload : Bytes)
    (hpc : (s.handler id).isOpenFrame = true)
    (h : s.step env (.receive ⟨.cancel, id, payload⟩) = some t) :
    t.Stopped env id ↔ s.Silent env id := by
  obtain ⟨hstreams, -, hstates⟩ := dispatchFrame_end_frame s.conn ⟨.cancel, id, payload⟩ rfl
  have ht : t = { s with conn := s.conn.dispatchFrame ⟨.cancel, id, payload⟩ } := by
    simp only [step] at h
    split at h
    · exact (Option.some.inj h).symm
    · cases h
  -- The dispatch sets the closed event, which the task never looks at.
  have hsame : t.Silent env id ↔ s.Silent env id := by
    rw [ht]
    simp only [Silent, hstreams, (hstates id).1]
  rw [← hsame]
  constructor
  · intro hstopped
    apply hstopped.silent
    rw [ht]
    exact hpc
  · exact Silent.stopped

/-- A GET request that is cancelled after the application has raised. -/
theorem cancel_stops_iff_raising :
    ∃ s t, TransitionSystem.run (step (plainEnv raising)) init getRequest = some s ∧
      s.step (plainEnv raising) (.receive ⟨.cancel, 1, []⟩) = some t ∧
      t.Stopped (plainEnv raising) 1 := by
  have heval : (TransitionSystem.run (step (plainEnv raising)) init getRequest).any (fun s =>
      decide (s.handler 1 = .ended .raised) &&
        (s.step (plainEnv raising) (.receive ⟨.cancel, 1, []⟩)).isSome) = true := by
    decide +kernel
  obtain ⟨s, hrun, hs⟩ := (Option.any_eq_true _ _).mp heval
  obtain ⟨hpc, hsome⟩ := Bool.and_eq_true_iff.mp hs
  have hended := of_decide_eq_true hpc
  obtain ⟨t, hstep⟩ := Option.isSome_iff_exists.mp hsome
  have hopen : (s.handler 1).isOpenFrame = true := by
    rw [hended]
    rfl
  have hsilent : s.Silent (plainEnv raising) 1 := by
    rw [Silent, hended]
    trivial
  exact ⟨s, t, hrun, hstep, (cancel_stops_iff (plainEnv raising) s t 1 [] hopen hstep).mpr hsilent⟩

/-- A download whose browser goes away after the metadata: the CANCEL is dispatched, and the agent
sends the file and its CLOSE. -/
theorem cancelledDownload_not_stopped :
    ∃ s t u, TransitionSystem.run (step (plainEnv hello)) init (getRequest ++ [.handler 1 .sent]) =
        some s ∧
      s.step (plainEnv hello) (.receive ⟨.cancel, 1, []⟩) = some t ∧
      TransitionSystem.run (step (plainEnv hello)) t [.handler 1 .sent, .handler 1 .sent] = some u ∧
      framesOf 1 u.sent = framesOf 1 t.sent ++ [⟨.data, 1, [104, 105]⟩, ⟨.close, 1, []⟩] ∧
      ¬ t.Stopped (plainEnv hello) 1 := by
  have heval : (TransitionSystem.run (step (plainEnv hello)) init
      (getRequest ++ [.handler 1 .sent])).any (fun s =>
        (s.step (plainEnv hello) (.receive ⟨.cancel, 1, []⟩)).any (fun t =>
          (TransitionSystem.run (step (plainEnv hello)) t [.handler 1 .sent, .handler 1 .sent]).any
            (fun u => decide (framesOf 1 u.sent =
              framesOf 1 t.sent ++ [⟨.data, 1, [104, 105]⟩, ⟨.close, 1, []⟩])))) = true := by
    decide +kernel
  obtain ⟨s, hrun, hs⟩ := (Option.any_eq_true _ _).mp heval
  obtain ⟨t, hstep, ht⟩ := (Option.any_eq_true _ _).mp hs
  obtain ⟨u, hrest, hu⟩ := (Option.any_eq_true _ _).mp ht
  have hframes := of_decide_eq_true hu
  refine ⟨s, t, u, hrun, hstep, hrest, hframes, ?_⟩
  intro hstopped
  have hsame := hstopped.1 _ u hrest
  rw [hframes] at hsame
  simp at hsame

end AgentTunnel

end NetworkFileServer.Agent
