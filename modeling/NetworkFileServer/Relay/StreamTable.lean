import NetworkFileServer.Relay.ProxyStreams

/-!
# When the relay's stream table leaks

A stream that a handler opened has to be out of the table once the handler and its response have
ended. The `except` branches, `read_stream_iter` and the `finally` blocks take it out; every other
exit leaves it there, where it counts against `MAX_STREAMS` until the connection goes down.
-/

namespace NetworkFileServer.Relay

open Tunnel TunnelConnection

/-- The exits of a handler that no `remove_stream` lies on: outside of the two `except` branches
before the response, before a generator was started, or in the loop that buffers HTML. -/
def abandons : ProxyPc → ProxyEvent → Bool
  | .sendingRequest, .abort | .readingFirst, .firstByte .malformed | .readingFirst, .abort
  | .timedOut, .abort | .buffering _ _, .abort | .responding, .abort
  | .respondingOverCap _ _, .abort | .wsOpening, .abort => true
  | _, _ => false

private theorem startIter_ended (conn : TunnelConnection) (id : UUID) (started : ProxyPc)
    (h : startIter conn id started .ended = .ended) (hstarted : started ≠ .ended) :
    id ∉ conn.streams := by
  intro hmem
  rw [startIter_of_mem conn id started .ended hmem] at h
  exact hstarted h

theorem proxyStep_abandons (conn conn' : TunnelConnection) (id : UUID) (pc pc' : ProxyPc)
    (e : ProxyEvent) (h : proxyStep conn id pc e = some (conn', pc'))
    (habandons : abandons pc e = true) : pc' = .ended ∧ conn'.streams = conn.streams := by
  unfold abandons at habandons
  split at habandons <;> try cases habandons
  all_goals first
    | (cases h; exact ⟨rfl, rfl⟩)
    | (obtain ⟨⟨p, taken⟩, htaken, heq⟩ := Option.map_eq_some_iff.mp h
       cases heq
       exact ⟨rfl, takeItem_streams conn _ id p htaken⟩)

theorem proxyStep_readingFirst_ended (conn conn' : TunnelConnection) (id : UUID)
    (response : ResponseMeta) (hresponse : response ≠ .malformed)
    (h : proxyStep conn id .readingFirst (.firstByte response) = some (conn', .ended)) :
    id ∉ conn'.streams := by
  obtain ⟨⟨p, taken⟩, -, heq⟩ := Option.map_eq_some_iff.mp h
  cases response with
  | malformed => exact absurd rfl hresponse
  | html =>
      have hconn : taken = conn' := congrArg Prod.fst heq
      have hpc := congrArg Prod.snd heq
      exact hconn ▸ startIter_ended taken id _ hpc (by simp)
  | other => cases heq

/-- The loop that buffers HTML ends the handler only where `read_stream_iter` finished, and that
one removed the stream itself. -/
theorem proxyStep_buffering_ended (conn conn' : TunnelConnection) (id : UUID) (iter : IterPc)
    (parts : List Bytes) (e : IterEvent)
    (h : proxyStep conn id (.buffering iter parts) (.iter e) = some (conn', .ended)) :
    id ∉ conn'.streams := by
  obtain ⟨⟨taken, iter', out⟩, hstep, heq⟩ := Option.map_eq_some_iff.mp h
  have hconn : taken = conn' := congrArg Prod.fst heq
  have hpc : bufferPart iter' parts out = .ended := congrArg Prod.snd heq
  have hfin : iter' = .finished := by
    cases out with
    | none =>
        by_contra hnot
        simp [bufferPart, hnot] at hpc
    | some part =>
        simp only [bufferPart] at hpc
        split at hpc <;> cases hpc
  subst hconn hfin
  rw [(iterStep_finished conn _ id iter e out hstep).1]
  exact not_mem_removeStream conn id

theorem proxyStep_streaming_ended (conn conn' : TunnelConnection) (id : UUID) (iter : IterPc)
    (e : IterEvent)
    (h : proxyStep conn id (.streaming iter) (.iter e) = some (conn', .ended)) :
    id ∉ conn'.streams := by
  obtain ⟨⟨taken, iter', out⟩, -, heq⟩ := Option.map_eq_some_iff.mp h
  cases out with
  | none =>
      simp only at heq
      split at heq
      · cases heq
        exact not_mem_removeStream taken id
      · cases heq
  | some chunk => cases heq

theorem proxyStep_removes (conn conn' : TunnelConnection) (id : UUID) (pc : ProxyPc)
    (e : ProxyEvent) (h : proxyStep conn id pc e = some (conn', .ended))
    (hstays : abandons pc e = false) : id ∉ conn'.streams := by
  have hstarts (started : ProxyPc) (hstarted : started ≠ .ended)
      (hs : some (conn, startIter conn id started .ended) = some (conn', .ended)) :
      id ∉ conn'.streams := by
    obtain ⟨hconn, hpc⟩ := Prod.mk.inj (Option.some.inj hs)
    exact hconn ▸ startIter_ended conn id started hpc hstarted
  have hremoves (hs : some (conn.removeStream id, ProxyPc.ended) = some (conn', .ended)) :
      id ∉ conn'.streams := by
    cases hs
    exact not_mem_removeStream conn id
  cases pc with
  | sendingRequest =>
      cases e with
      | sent => exact hstarts _ (by simp) h
      | sendRejected => exact hremoves h
      | abort => cases hstays
      | _ => cases h
  | readingFirst =>
      cases e with
      | firstByte response =>
          have hresponse : response ≠ .malformed := by
            rintro rfl
            cases hstays
          exact proxyStep_readingFirst_ended conn conn' id response hresponse h
      | abort => cases hstays
      | _ => cases h
  | timedOut =>
      cases e with
      | cancelSent => exact hremoves h
      | abort => cases hstays
      | _ => cases h
  | buffering iter parts =>
      cases e with
      | iter e' => exact proxyStep_buffering_ended conn conn' id iter parts e' h
      | abort => cases hstays
      | _ => cases h
  | responding =>
      cases e with
      | startBody => exact hstarts _ (by simp) h
      | abort => cases hstays
      | _ => cases h
  | streaming iter =>
      cases e with
      | iter e' => exact proxyStep_streaming_ended conn conn' id iter e' h
      | _ => cases h
  | wsOpening =>
      cases e with
      | sendRejected => exact hremoves h
      | abort => cases hstays
      | _ => cases h
  | wsStarting =>
      cases e with
      | startBody =>
          have hpc := congrArg Prod.snd (Option.some.inj h)
          simp only [startIter] at hpc
          split at hpc <;> cases hpc
      | _ => cases h
  | bridging iter =>
      cases e with
      | iter e' =>
          obtain ⟨⟨taken, iter', out⟩, -, heq⟩ := Option.map_eq_some_iff.mp h
          have hpc := congrArg Prod.snd heq
          simp only at hpc
          split at hpc <;> cases hpc
      | _ => cases h
  | leaving =>
      cases e with
      | finish => exact hremoves h
      | _ => cases h
  | respondingOverCap iter parts =>
      cases e with
      | abort => cases hstays
      | _ => cases h
  | replaying iter parts => cases e <;> cases parts <;> cases h
  | absent | ended | checking iter => cases e <;> cases h

theorem proxyStep_released (conn conn' : TunnelConnection) (id : UUID) (pc pc' : ProxyPc)
    (e : ProxyEvent) (h : proxyStep conn id pc e = some (conn', pc')) (hended : pc' = .ended) :
    id ∈ conn'.streams ↔ abandons pc e = true ∧ id ∈ conn.streams := by
  subst hended
  cases habandons : abandons pc e with
  | true => simp [(proxyStep_abandons conn conn' id pc _ e h habandons).2]
  | false => simp [proxyStep_removes conn conn' id pc e h habandons]

namespace RelayTunnel

/-- The streams of the handlers that have ended are out of the table. -/
def Released (s : RelayTunnel) : Prop := ∀ id, s.handler id = .ended → id ∉ s.conn.streams

/-- The handler of a stream that is in the table leaves by an exit without `remove_stream`. -/
def Leaks (s : RelayTunnel) : RelayAction → Prop
  | .handler id e => abandons (s.handler id) e = true ∧ id ∈ s.conn.streams
  | _ => False

instance (s : RelayTunnel) (a : RelayAction) : Decidable (s.Leaks a) :=
  match a with
  | .handler _ _ => inferInstanceAs (Decidable (_ ∧ _))
  | .openStream _ _ | .receive _ | .resumePut | .getTask _ | .tearDown => isFalse (fun h => h)

/-- A stream in the table has a handler that is still running. -/
def TableInv (s : RelayTunnel) : Prop :=
  ∀ id, id ∈ s.conn.streams → s.handler id ≠ .absent ∧ s.handler id ≠ .ended

theorem tableInv_init : init.TableInv := nofun

theorem TableInv.released {s : RelayTunnel} (hinv : s.TableInv) : s.Released := by
  intro id hended hmem
  exact (hinv id hmem).2 hended

theorem tableInv_openStream {s t : RelayTunnel} (hinv : s.TableInv) (id : UUID)
    (isWebSocket : Bool) (h : s.step (.openStream id isWebSocket) = some t) :
    id ∈ t.conn.streams → t.handler id ≠ .absent ∧ t.handler id ≠ .ended := by
  simp only [step] at h
  split at h
  · rename_i habsent
    split at h
    · cases h
      intro _
      cases isWebSocket <;> simp
    · cases h
      intro hmem
      exact absurd habsent (hinv id hmem).1
  · cases h

theorem tableInv_handler {s t : RelayTunnel} (id : UUID) (e : ProxyEvent)
    (hcond : ¬ s.Leaks (.handler id e)) (h : s.step (.handler id e) = some t) :
    id ∈ t.conn.streams → t.handler id ≠ .absent ∧ t.handler id ≠ .ended := by
  obtain ⟨⟨conn, pc⟩, hstep, rfl⟩ := Option.map_eq_some_iff.mp h
  intro hmem
  have hopened := proxyStep_opened s.conn conn id _ pc e hstep
  have hrunning : pc ≠ .ended := by
    intro hended
    exact hcond ((proxyStep_released s.conn conn id _ pc e hstep hended).mp hmem)
  simpa using And.intro hopened hrunning

theorem tableInv_step (s : RelayTunnel) (a : RelayAction) (t : RelayTunnel) (hinv : s.TableInv)
    (hcond : ¬ s.Leaks a) (h : s.step a = some t) : t.TableInv := by
  -- A stream that the step is not about keeps its place and its handler.
  have hother : ∀ id, Untouched id s t →
      id ∈ t.conn.streams → t.handler id ≠ .absent ∧ t.handler id ≠ .ended := by
    intro id hsame hmem
    rw [hsame.handler]
    exact hinv id (hsame.table.mp hmem)
  intro id
  cases a with
  | openStream id' isWebSocket =>
      by_cases hid : id' = id
      · subst hid
        exact tableInv_openStream hinv id' isWebSocket h
      · exact hother id (step_untouched s t _ id h hid)
  | receive f =>
      simp only [step] at h
      split at h
      · cases h
        intro hmem
        rw [dispatchFrame_streams] at hmem
        exact hinv id hmem
      · cases h
  | resumePut => exact hother id (step_untouched s t _ id h trivial)
  | handler id' e =>
      by_cases hid : id' = id
      · subst hid
        exact tableInv_handler id' e hcond h
      · exact hother id (step_untouched s t _ id h hid)
  | getTask id' =>
      simp only [step] at h
      split at h
      · obtain ⟨⟨p, conn⟩, ht, rfl⟩ := Option.map_eq_some_iff.mp h
        intro hmem
        refine hinv id ?_
        rw [← takeItem_streams s.conn conn id' p ht]
        exact hmem
      · cases h
  | tearDown =>
      cases h
      intro hmem
      exact hinv id (mem_of_mem_tearDown s.conn id hmem)

theorem not_released_of_leaks (s : RelayTunnel) (a : RelayAction) (t : RelayTunnel)
    (hleaks : s.Leaks a) (h : s.step a = some t) : ¬ t.Released := by
  cases a with
  | handler id e =>
      obtain ⟨⟨conn, pc⟩, hstep, rfl⟩ := Option.map_eq_some_iff.mp h
      obtain ⟨hended, -⟩ := proxyStep_abandons s.conn conn id _ pc e hstep hleaks.1
      have hmem := (proxyStep_released s.conn conn id _ pc e hstep hended).mpr hleaks
      intro hreleased
      exact hreleased id (by simp [hended]) hmem
  | _ => exact hleaks.elim

/-- Along every run, the table holds no stream of an ended handler exactly if no handler leaves by
an exit without `remove_stream` while its stream is in the table. -/
theorem endedHandlers_released_iff (acts : List RelayAction) (s : RelayTunnel)
    (hrun : TransitionSystem.run step init acts = some s) :
    TransitionSystem.Throughout step Released init acts ↔
      TransitionSystem.Guarded step (fun s a => ¬ s.Leaks a) init acts := by
  apply TransitionSystem.throughout_iff_guarded step _ TableInv Released
  · exact fun _ hinv => hinv.released
  · exact tableInv_step
  · intro s a t _ hcond h
    exact not_released_of_leaks s a t (not_not.mp hcond) h
  · exact tableInv_init
  · exact hrun

/-- A download that succeeds, one that times out and an upgrade that the agent cannot be told of. -/
def threeRequests : List RelayAction :=
  [.openStream 1 false, .openStream 2 false, .openStream 3 true, .handler 1 .sent,
    .handler 3 .sendRejected, .receive ⟨.data, 1, [123, 125]⟩, .handler 1 (.firstByte .other),
    .handler 2 .sent, .handler 1 .startBody, .receive ⟨.close, 1, []⟩, .handler 2 .firstByteTimeout,
    .handler 1 (.iter .closedTask), .handler 1 (.iter .resume), .handler 2 .cancelSent]

theorem endedHandlers_released_iff_threeRequests :
    TransitionSystem.Throughout step Released init threeRequests := by
  have hguard : TransitionSystem.Guarded step (fun s a => ¬ s.Leaks a) init threeRequests := by
    decide +kernel
  have heval : (TransitionSystem.run step init threeRequests).isSome = true := by
    decide +kernel
  obtain ⟨s, hrun⟩ := Option.isSome_iff_exists.mp heval
  exact (endedHandlers_released_iff threeRequests s hrun).mpr hguard

/-- The browser goes away while its request body is read: `request.stream()` raises. -/
theorem abortedUpload_not_released :
    ∃ s, TransitionSystem.run step init [.openStream 1 false, .handler 1 .abort] = some s ∧
      s.handler 1 = .ended ∧ 1 ∈ s.conn.streams ∧ ¬ s.Released := by
  have heval : (TransitionSystem.run step init [.openStream 1 false, .handler 1 .abort]).any
      (fun s => decide (s.handler 1 = .ended ∧ 1 ∈ s.conn.streams)) = true := by
    decide +kernel
  obtain ⟨s, hrun, hs⟩ := (Option.any_eq_true _ _).mp heval
  obtain ⟨hended, hmem⟩ := of_decide_eq_true hs
  exact ⟨s, hrun, hended, hmem, fun hreleased => hreleased 1 hended hmem⟩

end RelayTunnel

end NetworkFileServer.Relay
