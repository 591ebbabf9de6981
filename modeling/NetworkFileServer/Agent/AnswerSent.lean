import NetworkFileServer.Agent.Termination

/-!
# The payloads of an answer

What `handle_open_frame` sends for a stream is the metadata of the application's response and the
chunks of its body, in order. A task that does not get to its CLOSE has sent a prefix of them.
-/

namespace NetworkFileServer.Agent

open Tunnel TunnelConnection Relay

/-- The payloads of the DATA frames that a complete answer has. -/
def AgentEnv.answer (env : AgentEnv) (id : UUID) : List Bytes :=
  match (env.app id).response with
  | none => []
  | some (status, headers, raw) =>
      let (decoded, fails) := env.decoder headers raw
      if maxPayloadBytes < (metaPayload status headers).length then []
      else metaPayload status headers :: aiterBytes decoded fails

/-- What `_reject_open` sends for a malformed OPEN. -/
def rejection (id : UUID) : List Frame := [⟨.data, id, metaPayload 400 []⟩, ⟨.close, id, []⟩]

/-- The payloads of the whole reply to an OPEN with this metadata. -/
def AgentEnv.reply (env : AgentEnv) (metadata : Bytes) (id : UUID) : List Bytes :=
  if env.validOpen metadata then env.answer id else [metaPayload 400 []]

namespace AgentTunnel

/-- What the position of a task says about the payloads that it has sent. -/
def SentInv (env : AgentEnv) (id : UUID) (s : AgentTunnel) : Prop :=
  match s.handler id with
  | .sending payload rest _ =>
      dataPayloads id s.sent ++ payload :: rest = env.answer id ∧
        ∀ chunk ∈ rest, chunk ≠ [] ∧ chunk.length ≤ maxPayloadBytes
  | .sendingClose | .ended .returned => dataPayloads id s.sent = env.answer id
  | .rejected => framesOf id s.sent = rejection id ∨ framesOf id s.sent = [⟨.wsClose, id, []⟩]
  | .absent | .spawned | .readingBody _ | .requesting _ => framesOf id s.sent = []
  | .ended _ => dataPayloads id s.sent <+: env.answer id
  | .wsSpawned | .wsConnecting | .wsStarting | .wsBridging _ | .wsRefused | .wsClosing
  | .wsEnded => True

theorem sentInv_init (env : AgentEnv) (id : UUID) : init.SentInv env id := rfl

theorem SentInv.congr {env : AgentEnv} {id : UUID} {s t : AgentTunnel} (hinv : s.SentInv env id)
    (hhandler : t.handler id = s.handler id) (hsent : framesOf id t.sent = framesOf id s.sent) :
    t.SentInv env id := by
  have hpayloads : dataPayloads id t.sent = dataPayloads id s.sent := by
    rw [← dataPayloads_framesOf id t.sent, hsent, dataPayloads_framesOf]
  unfold SentInv at *
  rw [hhandler, hpayloads, hsent]
  exact hinv

theorem sentInv_sendNext {env : AgentEnv} {id : UUID} {rest : List Bytes} {fails : Bool}
    {t : AgentTunnel} (hhandler : t.handler id = sendNext rest fails)
    (hsent : dataPayloads id t.sent ++ rest = env.answer id)
    (hrest : ∀ chunk ∈ rest, chunk ≠ [] ∧ chunk.length ≤ maxPayloadBytes) : t.SentInv env id := by
  unfold SentInv
  cases rest with
  | nil =>
      rw [List.append_nil] at hsent
      cases fails with
      | true =>
          rw [hhandler]
          exact ⟨[], by simpa using hsent⟩
      | false =>
          rw [hhandler]
          exact hsent
  | cons chunk rest =>
      obtain ⟨hne, hsize⟩ := hrest chunk List.mem_cons_self
      have hnext : sendNext (chunk :: rest) fails = .sending chunk rest fails := by
        simp [sendNext, hne, Nat.not_lt.mpr hsize]
      rw [hhandler, hnext]
      exact ⟨hsent, fun c hc => hrest c (List.mem_cons_of_mem chunk hc)⟩

theorem dataPayloads_of_nil {id : UUID} {frames : List Frame} (h : framesOf id frames = []) :
    dataPayloads id frames = [] := by
  rw [← dataPayloads_framesOf, h]
  rfl

theorem sentInv_responded {env : AgentEnv} {id : UUID} {t : AgentTunnel}
    (hhandler : t.handler id = env.responded id) (hnone : dataPayloads id t.sent = []) :
    t.SentInv env id := by
  unfold SentInv
  rw [hhandler]
  unfold AgentEnv.responded
  cases hresponse : (env.app id).response with
  | none =>
      show dataPayloads id t.sent <+: env.answer id
      rw [hnone]
      exact List.nil_prefix
  | some response =>
      obtain ⟨status, headers, raw⟩ := response
      simp only
      by_cases hsize : maxPayloadBytes < (metaPayload status headers).length
      · rw [if_pos hsize]
        show dataPayloads id t.sent <+: env.answer id
        rw [hnone]
        exact List.nil_prefix
      · rw [if_neg hsize]
        refine ⟨?_, fun chunk hchunk => aiterBytes_bounds _ _ chunk hchunk⟩
        simp [AgentEnv.answer, hresponse, hsize, hnone]

theorem sentInv_broken {env : AgentEnv} {id : UUID} {t : AgentTunnel}
    (hhandler : t.handler id = .ended .transport ∨ t.handler id = .ended .cancelled)
    (hsent : dataPayloads id t.sent <+: env.answer id) : t.SentInv env id := by
  unfold SentInv
  rcases hhandler with hhandler | hhandler
  · rw [hhandler]
    exact hsent
  · rw [hhandler]
    exact hsent

theorem sentInv_webSocket {env : AgentEnv} {id : UUID} {t : AgentTunnel}
    (hws : (t.handler id).isWebSocket = true) : t.SentInv env id := by
  unfold SentInv
  cases hpc : t.handler id <;> first | trivial | (rw [hpc] at hws; cases hws)

theorem sentInv_handler (env : AgentEnv) (id : UUID) (s : AgentTunnel) (e : AgentEvent)
    (conn : TunnelConnection) (pc : AgentPc) (out : List Frame) (hinv : s.SentInv env id)
    (h : agentStep env s.conn id (s.handler id) e = some (conn, pc, out)) :
    SentInv env id { s.setHandler id pc with conn := conn, sent := s.sent ++ out } := by
  have hself : (s.setHandler id pc).handler id = pc := by simp [setHandler]
  have hbroken : pc = .ended .transport ∨ pc = .ended .cancelled →
      dataPayloads id (s.sent ++ out) <+: env.answer id →
      SentInv env id { s.setHandler id pc with conn := conn, sent := s.sent ++ out } := by
    intro hpc hsent
    refine sentInv_broken ?_ hsent
    rcases hpc with rfl | rfl
    · exact .inl hself
    · exact .inr hself
  unfold SentInv at hinv
  cases hpc : s.handler id with
  | absent | rejected | ended =>
      rw [hpc] at h
      cases e <;> cases h
  | spawned =>
      rw [hpc] at h hinv
      cases e with
      | start =>
          simp only [agentStep] at h
          split at h
          · cases h
            simpa [SentInv, hself] using hinv
          · cases h
            exact hbroken (.inl rfl) (by simp [dataPayloads_of_nil hinv])
      | cancel =>
          cases h
          exact hbroken (.inr rfl) (by simp [dataPayloads_of_nil hinv])
      | _ => cases h
  | readingBody parts =>
      rw [hpc] at h hinv
      cases e with
      | bodyGet =>
          obtain ⟨⟨chunk, taken⟩, -, heq⟩ := Option.map_eq_some_iff.mp h
          simp only at heq
          split at heq
          · cases heq
            simpa [SentInv, hself] using hinv
          · cases heq
            simpa [SentInv, hself] using hinv
      | cancel =>
          cases h
          exact hbroken (.inr rfl) (by simp [dataPayloads_of_nil hinv])
      | _ => cases h
  | requesting content =>
      rw [hpc] at h hinv
      cases e with
      | respond =>
          cases h
          refine sentInv_responded hself ?_
          simpa using dataPayloads_of_nil hinv
      | cancel =>
          cases h
          exact hbroken (.inr rfl) (by simp [dataPayloads_of_nil hinv])
      | _ => cases h
  | sending payload rest fails =>
      rw [hpc] at h hinv
      obtain ⟨hsent, hrest⟩ := hinv
      cases e with
      | sent =>
          cases h
          refine sentInv_sendNext hself ?_ hrest
          have hone : dataPayloads id [⟨.data, id, payload⟩] = [payload] := by simp [dataPayloads]
          show dataPayloads id (s.sent ++ [⟨.data, id, payload⟩]) ++ rest = env.answer id
          rw [dataPayloads_append, hone, ← hsent]
          simp
      | sendFailed =>
          cases h
          exact hbroken (.inl rfl) ⟨payload :: rest, by simpa using hsent⟩
      | cancel =>
          cases h
          exact hbroken (.inr rfl) ⟨payload :: rest, by simpa using hsent⟩
      | _ => cases h
  | sendingClose =>
      rw [hpc] at h hinv
      cases e with
      | sent =>
          cases h
          have hnone : dataPayloads id [⟨.close, id, []⟩] = [] := by simp [dataPayloads]
          unfold SentInv
          rw [hself]
          show dataPayloads id (s.sent ++ [⟨.close, id, []⟩]) = env.answer id
          rw [dataPayloads_append, hnone, List.append_nil]
          exact hinv
      | sendFailed =>
          cases h
          exact hbroken (.inl rfl) ⟨[], by simpa using hinv⟩
      | cancel =>
          cases h
          exact hbroken (.inr rfl) ⟨[], by simpa using hinv⟩
      | _ => cases h
  | wsSpawned | wsConnecting | wsStarting | wsBridging | wsRefused | wsClosing | wsEnded =>
      rw [hpc] at h
      have hws := agentStep_webSocket env s.conn conn id _ pc e out h rfl
      rw [← hself] at hws
      exact sentInv_webSocket hws

/-- Whatever a task has sent, its answer begins with it. -/
theorem SentInv.prefix_answer {env : AgentEnv} {id : UUID} {s : AgentTunnel}
    (hinv : s.SentInv env id) (hhttp : (s.handler id).isWebSocket = false)
    (hrunning : s.handler id ≠ .rejected) : dataPayloads id s.sent <+: env.answer id := by
  unfold SentInv at hinv
  cases hpc : s.handler id with
  | rejected => exact absurd hpc hrunning
  | absent | spawned | readingBody | requesting =>
      rw [hpc] at hinv
      rw [dataPayloads_of_nil hinv]
      exact List.nil_prefix
  | sending payload rest fails =>
      rw [hpc] at hinv
      exact ⟨payload :: rest, hinv.1⟩
  | sendingClose =>
      rw [hpc] at hinv
      exact ⟨[], by simpa using hinv⟩
  | ended how =>
      rw [hpc] at hinv
      cases how with
      | returned => exact ⟨[], by simpa using hinv⟩
      | raised | transport | cancelled => exact hinv
  | _ =>
      rw [hpc] at hhttp
      cases hhttp

theorem SentInv.rejected {env : AgentEnv} {id : UUID} {s : AgentTunnel} (hinv : s.SentInv env id)
    (hpc : s.handler id = .rejected) :
    dataPayloads id s.sent = [metaPayload 400 []] ∨
      (dataPayloads id s.sent = [] ∧ s.sent.any (fun f => f.type = .close ∧ f.requestId = id) = false) := by
  unfold SentInv at hinv
  rw [hpc] at hinv
  rcases hinv with hframes | hframes
  · left
    rw [← dataPayloads_framesOf, hframes]
    simp [rejection, dataPayloads]
  · right
    refine ⟨?_, ?_⟩
    · rw [← dataPayloads_framesOf, hframes]
      simp [dataPayloads]
    · rw [List.any_eq_false]
      intro f hf hclose
      obtain ⟨htype, hid⟩ : f.type = .close ∧ f.requestId = id := by simpa using hclose
      have hmem : f ∈ framesOf id s.sent := by simp [framesOf, hf, hid]
      rw [hframes, List.mem_singleton] at hmem
      rw [hmem] at htype
      cases htype

theorem sentInv_receive (env : AgentEnv) (id : UUID) (s t : AgentTunnel) (f : Frame)
    (hinv : s.SentInv env id) (h : s.step env (.receive f) = some t) : t.SentInv env id := by
  by_cases hid : f.requestId = id
  · subst hid
    simp only [step] at h
    split at h
    · have hnone : s.handler f.requestId = .absent → framesOf f.requestId s.sent = [] := by
        intro habsent
        unfold SentInv at hinv
        rw [habsent] at hinv
        exact hinv
      have hspawn : ∀ pc, (pc = .spawned ∨ pc = .wsSpawned) → s.handler f.requestId = .absent →
          (s.spawn f.requestId pc).SentInv env f.requestId := by
        intro pc hpc habsent
        unfold spawn
        split
        · unfold SentInv
          rcases hpc with rfl | rfl
          · simpa [setHandler] using hnone habsent
          · simp [setHandler]
        · exact hinv.congr rfl rfl
      have hreject : ∀ reply, s.handler f.requestId = .absent →
          framesOf f.requestId reply = rejection f.requestId ∨
            framesOf f.requestId reply = [⟨.wsClose, f.requestId, []⟩] →
          (s.reject f.requestId reply).SentInv env f.requestId := by
        intro reply habsent hreply
        unfold SentInv
        simpa [reject, setHandler, framesOf_append, hnone habsent] using hreply
      unfold onFrame at h
      split at h
      · split at h
        · cases h
        · rename_i habsent
          split at h
          · cases h
            exact hspawn _ (.inl rfl) (not_not.mp habsent)
          · cases h
            exact hreject _ (not_not.mp habsent) (.inl (by simp [framesOf, rejection]))
      · split at h
        · cases h
        · rename_i habsent
          split at h
          · cases h
            exact hspawn _ (.inr rfl) (not_not.mp habsent)
          · cases h
            exact hreject _ (not_not.mp habsent) (.inr (by simp [framesOf]))
      · cases h
        exact hinv.congr rfl rfl
    · cases h
  · obtain ⟨hhandler, -, out, hsent, hout⟩ := step_untouched env s t (.receive f) id h hid
    refine hinv.congr hhandler ?_
    rw [hsent, framesOf_append, hout, List.append_nil]

theorem sentInv_step (env : AgentEnv) (id : UUID) (s : AgentTunnel) (a : AgentAction)
    (t : AgentTunnel) (hinv : s.SentInv env id) (h : s.step env a = some t) : t.SentInv env id := by
  cases a with
  | receive f => exact sentInv_receive env id s t f hinv h
  | resumePut =>
      obtain ⟨conn, -, rfl⟩ := Option.map_eq_some_iff.mp h
      exact hinv.congr rfl rfl
  | handler id' e =>
      by_cases hid : id' = id
      · subst hid
        obtain ⟨⟨conn, pc, out⟩, hstep, rfl⟩ := Option.map_eq_some_iff.mp h
        exact sentInv_handler env id' s e conn pc out hinv hstep
      · obtain ⟨hhandler, -, out, hsent, hout⟩ := step_untouched env s t (.handler id' e) id h hid
        refine hinv.congr hhandler ?_
        rw [hsent, framesOf_append, hout, List.append_nil]
  | tearDown =>
      cases h
      exact hinv.congr rfl rfl

end AgentTunnel

end NetworkFileServer.Agent
