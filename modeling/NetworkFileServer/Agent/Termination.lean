import NetworkFileServer.Agent.Handlers

/-!
# When an accepted OPEN is terminated

The relay's request ends with the CLOSE frame of its stream. `handle_open_frame` sends it as its
last statement, so it is missing whenever an exception leaves the task before: from the
application, through httpx, or from `serialize_frame` when the header frame is too large.
-/

namespace NetworkFileServer.Agent

open Tunnel TunnelConnection

/-- The frames of a stream are DATA frames and then one CLOSE. -/
def Terminated (id : UUID) (frames : List Frame) : Prop :=
  ∃ datas close, framesOf id frames = datas ++ [close] ∧ close.type = .close ∧
    ∀ f ∈ datas, f.type = .data

/-- Only DATA frames so far. -/
def OnlyData (id : UUID) (frames : List Frame) : Prop := ∀ f ∈ framesOf id frames, f.type = .data

theorem OnlyData.not_terminated {id : UUID} {frames : List Frame} (h : OnlyData id frames) :
    ¬ Terminated id frames := by
  rintro ⟨datas, close, hframes, hclose, -⟩
  have hdata := h close (by simp [hframes])
  rw [hclose] at hdata
  cases hdata

theorem OnlyData.data {id : UUID} {frames : List Frame} (h : OnlyData id frames) (payload : Bytes) :
    OnlyData id (frames ++ [⟨.data, id, payload⟩]) := by
  intro f hf
  rw [framesOf_append, List.mem_append] at hf
  rcases hf with hf | hf
  · exact h f hf
  · have hmem := List.mem_of_mem_filter hf
    rw [List.mem_singleton.mp hmem]

theorem OnlyData.close {id : UUID} {frames : List Frame} (h : OnlyData id frames) :
    Terminated id (frames ++ [⟨.close, id, []⟩]) := by
  refine ⟨framesOf id frames, ⟨.close, id, []⟩, ?_, rfl, h⟩
  rw [framesOf_append]
  simp [framesOf]

namespace AgentEnv

/-- The chunks that are still to be sent come from an answer whose metadata could be sent. -/
def InAnswer (env : AgentEnv) (id : UUID) (rest : List Bytes) (fails : Bool) : Prop :=
  (∃ status headers raw, (env.app id).response = some (status, headers, raw) ∧
    (metaPayload status headers).length ≤ maxPayloadBytes ∧ (env.decoder headers raw).2 = fails) ∧
  ∀ chunk ∈ rest, chunk ≠ [] ∧ chunk.length ≤ maxPayloadBytes

theorem InAnswer.answers_iff {env : AgentEnv} {id : UUID} {rest : List Bytes} {fails : Bool}
    (h : env.InAnswer id rest fails) : (env.app id).Answers env.decoder ↔ fails = false := by
  obtain ⟨⟨status, headers, raw, hresponse, hsize, hfails⟩, -⟩ := h
  constructor
  · rintro ⟨status', headers', raw', hresponse', -, hdecoded⟩
    rw [hresponse] at hresponse'
    cases hresponse'
    exact hfails.symm.trans hdecoded
  · intro hnone
    exact ⟨status, headers, raw, hresponse, hsize, hfails.trans hnone⟩

end AgentEnv

namespace AgentTunnel

/-- What the position of a task of `handle_open_frame` says about the frames that it has sent. -/
def AnswerInv (env : AgentEnv) (id : UUID) (s : AgentTunnel) : Prop :=
  match s.handler id with
  | .absent | .spawned | .readingBody _ | .requesting _ => framesOf id s.sent = []
  | .sending _ rest fails => OnlyData id s.sent ∧ env.InAnswer id rest fails
  | .sendingClose => OnlyData id s.sent ∧ (env.app id).Answers env.decoder
  | .ended .returned => Terminated id s.sent ∧ (env.app id).Answers env.decoder
  | .ended .raised => OnlyData id s.sent ∧ ¬ (env.app id).Answers env.decoder
  | .ended .transport | .ended .cancelled => OnlyData id s.sent
  | .rejected | .wsSpawned | .wsConnecting | .wsStarting | .wsBridging _ | .wsRefused | .wsClosing
  | .wsEnded => True

theorem answerInv_init (env : AgentEnv) (id : UUID) : init.AnswerInv env id := rfl

theorem onlyData_of_nil {id : UUID} {frames : List Frame} (h : framesOf id frames = []) :
    OnlyData id frames := by
  intro f hf
  rw [h] at hf
  cases hf

/-- The invariant is about the position and the frames only. -/
theorem AnswerInv.congr {env : AgentEnv} {id : UUID} {s t : AgentTunnel} (hinv : s.AnswerInv env id)
    (hhandler : t.handler id = s.handler id) (hsent : framesOf id t.sent = framesOf id s.sent) :
    t.AnswerInv env id := by
  unfold AnswerInv OnlyData Terminated at *
  rw [hhandler, hsent]
  exact hinv

theorem answerInv_sendNext {env : AgentEnv} {id : UUID} {rest : List Bytes} {fails : Bool}
    {t : AgentTunnel} (hhandler : t.handler id = sendNext rest fails) (hdata : OnlyData id t.sent)
    (hanswer : env.InAnswer id rest fails) : t.AnswerInv env id := by
  unfold AnswerInv
  cases rest with
  | nil =>
      cases fails with
      | true =>
          rw [hhandler]
          refine ⟨hdata, ?_⟩
          rw [hanswer.answers_iff]
          exact nofun
      | false =>
          rw [hhandler]
          exact ⟨hdata, hanswer.answers_iff.mpr rfl⟩
  | cons chunk rest =>
      obtain ⟨hne, hsize⟩ := hanswer.2 chunk List.mem_cons_self
      have hnext : sendNext (chunk :: rest) fails = .sending chunk rest fails := by
        simp [sendNext, hne, Nat.not_lt.mpr hsize]
      rw [hhandler, hnext]
      exact ⟨hdata, hanswer.1, fun c hc => hanswer.2 c (List.mem_cons_of_mem chunk hc)⟩

theorem answerInv_responded {env : AgentEnv} {id : UUID} {t : AgentTunnel}
    (hhandler : t.handler id = env.responded id) (hnone : framesOf id t.sent = []) :
    t.AnswerInv env id := by
  unfold AnswerInv
  rw [hhandler]
  have hdata := onlyData_of_nil hnone
  unfold AgentEnv.responded
  cases hresponse : (env.app id).response with
  | none =>
      refine ⟨hdata, ?_⟩
      rintro ⟨status, headers, raw, hsome, -⟩
      rw [hresponse] at hsome
      cases hsome
  | some answer =>
      obtain ⟨status, headers, raw⟩ := answer
      simp only
      by_cases hsize : maxPayloadBytes < (metaPayload status headers).length
      · rw [if_pos hsize]
        refine ⟨hdata, ?_⟩
        rintro ⟨status', headers', raw', hsome, hfits, -⟩
        rw [hresponse] at hsome
        cases hsome
        omega
      · rw [if_neg hsize]
        refine ⟨hdata, ⟨status, headers, raw, hresponse, by omega, rfl⟩, ?_⟩
        intro chunk hchunk
        exact aiterBytes_bounds _ _ chunk hchunk

theorem answerInv_broken {env : AgentEnv} {id : UUID} {t : AgentTunnel}
    (hhandler : t.handler id = .ended .transport ∨ t.handler id = .ended .cancelled)
    (hdata : OnlyData id t.sent) : t.AnswerInv env id := by
  unfold AnswerInv
  rcases hhandler with hhandler | hhandler
  · rw [hhandler]
    exact hdata
  · rw [hhandler]
    exact hdata

theorem answerInv_webSocket {env : AgentEnv} {id : UUID} {t : AgentTunnel}
    (hws : (t.handler id).isWebSocket = true) : t.AnswerInv env id := by
  unfold AnswerInv
  cases hpc : t.handler id <;> first | trivial | (rw [hpc] at hws; cases hws)

theorem answerInv_handler (env : AgentEnv) (id : UUID) (s : AgentTunnel) (e : AgentEvent)
    (conn : TunnelConnection) (pc : AgentPc) (out : List Frame) (hinv : s.AnswerInv env id)
    (h : agentStep env s.conn id (s.handler id) e = some (conn, pc, out)) :
    AnswerInv env id { s.setHandler id pc with conn := conn, sent := s.sent ++ out } := by
  have hself : (s.setHandler id pc).handler id = pc := by simp [setHandler]
  unfold AnswerInv at hinv
  cases hpc : s.handler id with
  | absent | rejected | ended =>
      rw [hpc] at h
      cases e <;> cases h
  | spawned =>
      rw [hpc] at h hinv
      cases e with
      | start =>
          simp only [agentStep] at h
          split at h
          · cases h
            simpa [AnswerInv, hself] using hinv
          · cases h
            refine answerInv_broken (.inl hself) ?_
            simpa using onlyData_of_nil hinv
      | cancel =>
          cases h
          refine answerInv_broken (.inr hself) ?_
          simpa using onlyData_of_nil hinv
      | _ => cases h
  | readingBody parts =>
      rw [hpc] at h hinv
      cases e with
      | bodyGet =>
          obtain ⟨⟨chunk, taken⟩, -, heq⟩ := Option.map_eq_some_iff.mp h
          simp only at heq
          split at heq
          · cases heq
            simpa [AnswerInv, hself] using hinv
          · cases heq
            simpa [AnswerInv, hself] using hinv
      | cancel =>
          cases h
          refine answerInv_broken (.inr hself) ?_
          simpa using onlyData_of_nil hinv
      | _ => cases h
  | requesting content =>
      rw [hpc] at h hinv
      cases e with
      | respond =>
          cases h
          refine answerInv_responded hself ?_
          simpa using hinv
      | cancel =>
          cases h
          refine answerInv_broken (.inr hself) ?_
          simpa using onlyData_of_nil hinv
      | _ => cases h
  | sending payload rest fails =>
      rw [hpc] at h hinv
      cases e with
      | sent =>
          cases h
          exact answerInv_sendNext hself (hinv.1.data payload) hinv.2
      | sendFailed =>
          cases h
          refine answerInv_broken (.inl hself) ?_
          simpa using hinv.1
      | cancel =>
          cases h
          refine answerInv_broken (.inr hself) ?_
          simpa using hinv.1
      | _ => cases h
  | sendingClose =>
      rw [hpc] at h hinv
      cases e with
      | sent =>
          cases h
          unfold AnswerInv
          rw [hself]
          exact ⟨hinv.1.close, hinv.2⟩
      | sendFailed =>
          cases h
          refine answerInv_broken (.inl hself) ?_
          simpa using hinv.1
      | cancel =>
          cases h
          refine answerInv_broken (.inr hself) ?_
          simpa using hinv.1
      | _ => cases h
  | wsSpawned | wsConnecting | wsStarting | wsBridging | wsRefused | wsClosing | wsEnded =>
      rw [hpc] at h
      have hws := agentStep_webSocket env s.conn conn id _ pc e out h rfl
      rw [← hself] at hws
      exact answerInv_webSocket hws

theorem answerInv_opens (env : AgentEnv) (id : UUID) (s t : AgentTunnel) (hinv : s.AnswerInv env id)
    (habsent : s.handler id = .absent)
    (h : (∃ pc, (pc = .spawned ∨ pc = .wsSpawned) ∧ t = s.spawn id pc) ∨
      ∃ reply, t = s.reject id reply) : t.AnswerInv env id := by
  have hnone : framesOf id s.sent = [] := by
    unfold AnswerInv at hinv
    rw [habsent] at hinv
    exact hinv
  rcases h with ⟨pc, hpc, rfl⟩ | ⟨reply, rfl⟩
  · unfold spawn
    split
    · unfold AnswerInv
      rcases hpc with rfl | rfl
      · simpa [setHandler] using hnone
      · simp [setHandler]
    · exact hinv.congr rfl rfl
  · unfold AnswerInv reject
    simp [setHandler]

theorem answerInv_step (env : AgentEnv) (id : UUID) (s : AgentTunnel) (a : AgentAction)
    (t : AgentTunnel) (hinv : s.AnswerInv env id) (h : s.step env a = some t) :
    t.AnswerInv env id := by
  rcases step_cases env s t a id h with
    hbeside | ⟨e, conn, pc, out, -, hstep, rfl⟩ | ⟨habsent, hopens⟩
  · exact hinv.congr hbeside.handler hbeside.sent
  · exact answerInv_handler env id s e conn pc out hinv hstep
  · exact answerInv_opens env id s t hinv habsent hopens

/-- A task of `handle_open_frame` that has ended, other than by a failure of the transport, has
terminated its stream exactly if the application's answer could be sent and the task was not
cancelled. -/
theorem openFrame_terminated_iff (env : AgentEnv) (acts : List AgentAction) (s : AgentTunnel)
    (hrun : TransitionSystem.run (step env) init acts = some s) (id : UUID) (how : TaskEnd)
    (hended : s.handler id = .ended how) (htransport : how ≠ .transport) :
    Terminated id s.sent ↔ (env.app id).Answers env.decoder ∧ how ≠ .cancelled := by
  have hinv : s.AnswerInv env id :=
    TransitionSystem.run_invariant (step env) (AnswerInv env id) (answerInv_step env id)
      (answerInv_init env id) hrun
  unfold AnswerInv at hinv
  rw [hended] at hinv
  cases how with
  | returned => exact ⟨fun _ => ⟨hinv.2, nofun⟩, fun _ => hinv.1⟩
  | raised => exact iff_of_false hinv.1.not_terminated (fun h => hinv.2 h.1)
  | transport => exact absurd rfl htransport
  | cancelled => exact iff_of_false (OnlyData.not_terminated hinv) (fun h => h.2 rfl)

theorem openFrame_terminated_iff_hello :
    ∃ s, TransitionSystem.run (step (plainEnv hello)) init
        (getRequest ++ [.handler 1 .sent, .handler 1 .sent, .handler 1 .sent]) = some s ∧
      s.handler 1 = .ended .returned ∧ Terminated 1 s.sent := by
  have heval : (TransitionSystem.run (step (plainEnv hello)) init
      (getRequest ++ [.handler 1 .sent, .handler 1 .sent, .handler 1 .sent])).any
      (fun s => decide (s.handler 1 = .ended .returned)) = true := by
    decide +kernel
  obtain ⟨s, hrun, hs⟩ := (Option.any_eq_true _ _).mp heval
  have hended := of_decide_eq_true hs
  have hanswers : ((plainEnv hello).app 1).Answers (plainEnv hello).decoder :=
    ⟨200, [("content-length", "2")], [104, 105], by decide, by decide +kernel, rfl⟩
  exact ⟨s, hrun, hended, (openFrame_terminated_iff (plainEnv hello) _ s hrun 1 .returned hended
    nofun).mpr ⟨hanswers, nofun⟩⟩

/-- Of an application that raises, nothing at all is sent. -/
theorem raisingApp_not_terminated :
    ∃ s, TransitionSystem.run (step (plainEnv raising)) init getRequest = some s ∧
      s.handler 1 = .ended .raised ∧ s.sent = [] ∧ ¬ Terminated 1 s.sent := by
  have heval : (TransitionSystem.run (step (plainEnv raising)) init getRequest).any
      (fun s => decide (s.handler 1 = .ended .raised ∧ s.sent = [])) = true := by
    decide +kernel
  obtain ⟨s, hrun, hs⟩ := (Option.any_eq_true _ _).mp heval
  obtain ⟨hended, hsent⟩ := of_decide_eq_true hs
  refine ⟨s, hrun, hended, hsent, OnlyData.not_terminated ?_⟩
  rw [hsent]
  exact nofun

end AgentTunnel

end NetworkFileServer.Agent
