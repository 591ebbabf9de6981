import NetworkFileServer.Relay.ProxyStreams

/-!
# When the receive loop is wedged

`_dispatch_frame` waits for room in the queue of one stream, and the receive loop serves all of
them. A handler that stops reading while the loop waits on its stream, or whose stream is still in
the table after that, leaves the loop waiting for good. As long as neither happens, every
suspended `put` can be completed by steps of the stream's own handler.
-/

namespace NetworkFileServer.Relay

open Tunnel TunnelConnection

/-- The handler can still get to a `queue.get`. -/
def ProxyPc.reads : ProxyPc → Bool
  | .sendingRequest | .readingFirst | .responding | .wsOpening | .wsStarting => true
  | .buffering iter _ | .respondingOverCap iter _ | .replaying iter _ | .streaming iter
  | .checking iter | .bridging iter => iter ≠ .finished
  | .absent | .timedOut | .leaving | .ended => false

/-- The handler has a `get_stream` before its next `queue.get`. -/
def ProxyPc.looksUp : ProxyPc → Bool
  | .sendingRequest | .responding | .wsOpening | .wsStarting => true
  | _ => false

/-- After the event the handler does not read any more. -/
def ProxyEvent.givesUp : ProxyEvent → Bool
  | .sendRejected | .firstByteTimeout | .browserGone | .bridgeEnd | .abort => true
  | _ => false

namespace RelayTunnel

/-- A full queue only gets another frame while somebody reads it, and nobody stops reading, or
loses the stream before reading it, while the receive loop waits for room there. -/
def KeepsReading (s : RelayTunnel) : RelayAction → Prop
  | .receive f => f.type.carriesData = true → f.requestId ∈ s.conn.streams →
      (s.conn.states f.requestId).queue.full = true →
      (s.handler f.requestId).reads = true ∨ s.getTask f.requestId = true
  | .handler id e => s.SuspendedOn id → e.givesUp = true → leavesGetTask (s.handler id) e = true
  | .tearDown => ∀ id, s.SuspendedOn id → (s.handler id).looksUp = false
  | .openStream _ _ | .resumePut | .getTask _ => True

instance decidableSuspendedOn (s : RelayTunnel) (id : UUID) : Decidable (s.SuspendedOn id) :=
  let waiting : Decidable (∃ p, s.conn.receiveLoop = .putting id p) :=
    match s.conn.receiveLoop with
    | .putting id' p' => decidable_of_iff (id' = id) (by simp)
    | .receiving | .ended => isFalse (by simp)
  instDecidableAnd

instance decidableKeepsReading (s : RelayTunnel) (a : RelayAction) : Decidable (s.KeepsReading a) :=
  match a with
  | .receive _ | .handler _ _ => inferInstanceAs (Decidable (_ → _))
  | .tearDown =>
      match hloop : s.conn.receiveLoop with
      | .putting id p =>
          decidable_of_iff ((s.conn.states id).queue.full = true → (s.handler id).looksUp = false)
            (by simp [KeepsReading, SuspendedOn, hloop])
      | .receiving | .ended => isTrue (by simp [KeepsReading, SuspendedOn, hloop])
  | .openStream _ _ | .resumePut | .getTask _ => isTrue trivial

/-- Whoever the receive loop waits for can still read. -/
def HasReader (s : RelayTunnel) (id : UUID) : Prop :=
  s.getTask id = true ∨
    ((s.handler id).reads = true ∧ ((s.handler id).looksUp = true → id ∈ s.conn.streams))

def LoopInv (s : RelayTunnel) : Prop := ∀ id, s.SuspendedOn id → s.HasReader id

/-- Some continuation of the run gets the receive loop back to `receive`. -/
def Unblocks (s : RelayTunnel) : Prop :=
  ∃ acts t, TransitionSystem.run step s acts = some t ∧ t.conn.receiveLoop = .receiving

theorem Unblocks.of_step {s t : RelayTunnel} (a : RelayAction) (h : s.step a = some t)
    (ht : t.Unblocks) : s.Unblocks := by
  obtain ⟨acts, u, hrun, hu⟩ := ht
  refine ⟨a :: acts, u, ?_, hu⟩
  rw [TransitionSystem.run_cons_eq_some]
  exact ⟨t, h, hrun⟩

private theorem unblocks_of_room (s : RelayTunnel) (id : UUID) (p : Bytes)
    (hloop : s.conn.receiveLoop = .putting id p)
    (hroom : (s.conn.states id).queue.full = false) : s.Unblocks := by
  have hput : s.conn.resumePut = some (s.conn.putPayload id p) := by
    simp [resumePut, hloop, hroom]
  refine ⟨[.resumePut], { s with conn := s.conn.putPayload id p }, ?_, ?_⟩
  · simp [TransitionSystem.run, step, hput]
  · simp [putPayload_receiveLoop, hroom]

private theorem takeItem_of_full (conn : TunnelConnection) (id : UUID)
    (hfull : (conn.states id).queue.full = true) :
    ∃ p conn', conn.takeItem id = some (p, conn') ∧ conn'.receiveLoop = conn.receiveLoop ∧
      (conn'.states id).queue.full = false := by
  obtain ⟨p, q, hget, hroom⟩ := BoundedQueue.get_of_full _ (by decide) hfull
  refine ⟨p, conn.setState id { conn.states id with queue := q }, ?_, rfl, ?_⟩
  · simp [takeItem, hget]
  · simpa using hroom

private theorem unblocks_of_take (s : RelayTunnel) (id : UUID) (e : ProxyEvent)
    (hsus : s.SuspendedOn id)
    (htake : ∀ x conn, s.conn.takeItem id = some (x, conn) →
      ∃ pc, proxyStep s.conn id (s.handler id) e = some (conn, pc)) : s.Unblocks := by
  obtain ⟨⟨p, hloop⟩, hfull⟩ := hsus
  obtain ⟨x, conn, ht, hkeep, hroom⟩ := takeItem_of_full s.conn id hfull
  obtain ⟨pc, hpc⟩ := htake x conn ht
  have hstep : s.step (.handler id e) = some
      { conn := conn
        handler := Function.update s.handler id pc
        getTask := Function.update s.getTask id (s.getTask id || leavesGetTask (s.handler id) e) } := by
    simp [step, hpc]
  refine .of_step _ hstep (unblocks_of_room _ id p ?_ hroom)
  exact hkeep.trans hloop

private theorem unblocks_of_move (s : RelayTunnel) (id : UUID) (e : ProxyEvent) (pc : ProxyPc)
    (hsus : s.SuspendedOn id) (hpc : proxyStep s.conn id (s.handler id) e = some (s.conn, pc))
    (hnext : ∀ t : RelayTunnel, t.conn = s.conn → t.SuspendedOn id → t.handler id = pc →
      t.Unblocks) : s.Unblocks := by
  have hstep : s.step (.handler id e) = some
      { conn := s.conn
        handler := Function.update s.handler id pc
        getTask := Function.update s.getTask id (s.getTask id || leavesGetTask (s.handler id) e) } := by
    simp [step, hpc]
  refine .of_step _ hstep (hnext _ rfl hsus ?_)
  simp

private theorem not_empty_of_full (s : RelayTunnel) (id : UUID) (hsus : s.SuspendedOn id) :
    (s.conn.states id).queue.items.isEmpty = false := by
  have hfull := (BoundedQueue.full_iff _).mp hsus.2
  cases hitems : (s.conn.states id).queue.items with
  | nil => simp [hitems, queueDepth] at hfull
  | cons x xs => rfl

private theorem iterStep_yielded_of_full (s : RelayTunnel) (id : UUID) (hsus : s.SuspendedOn id) :
    s.conn.iterStep id .yielded .next = some (s.conn, .waiting none false, none) := by
  simp [iterStep, not_empty_of_full s id hsus]

/-- A position whose `async for` is at `iter` gets to a `get` if it passes on the moves of its
iterator, and if it asks for the next item after one was yielded. -/
private theorem unblocks_of_iterating (id : UUID) (onIter : IterPc → ProxyPc → Prop)
    (hmove : ∀ conn iter e conn' iter' pc, onIter iter pc →
      conn.iterStep id iter e = some (conn', iter', none) → iter' ≠ .finished →
      ∃ pc', proxyStep conn id pc (.iter e) = some (conn', pc') ∧ onIter iter' pc')
    (hdrain : ∀ conn conn' x pc, onIter .draining pc →
      conn.iterStep id .draining .next = some (conn', .draining, some x) →
      ∃ pc', proxyStep conn id pc (.iter .next) = some (conn', pc'))
    (hyield : ∀ (s : RelayTunnel) q c, s.SuspendedOn id → onIter (.waiting (some q) c) (s.handler id) →
      (∀ t : RelayTunnel, t.SuspendedOn id → onIter .yielded (t.handler id) → t.Unblocks) → s.Unblocks)
    (s : RelayTunnel) (iter : IterPc) (hsus : s.SuspendedOn id) (hpc : onIter iter (s.handler id))
    (hiter : iter ≠ .finished) : s.Unblocks := by
  have hwaiting : ∀ (t : RelayTunnel) (c : Bool), t.SuspendedOn id →
      onIter (.waiting none c) (t.handler id) → t.Unblocks := by
    intro t c ht htpc
    refine unblocks_of_take t id (.iter .getTask) ht ?_
    intro x conn htake
    have hstep : t.conn.iterStep id (.waiting none c) .getTask =
        some (conn, .waiting (some x) c, none) := by
      simp [iterStep, htake]
    obtain ⟨pc', hpc', _⟩ := hmove _ _ _ _ _ _ htpc hstep (by simp)
    exact ⟨pc', hpc'⟩
  have hyielded : ∀ t : RelayTunnel, t.SuspendedOn id → onIter .yielded (t.handler id) →
      t.Unblocks := by
    intro t ht htpc
    obtain ⟨pc', hpc', hat⟩ :=
      hmove _ _ _ _ _ _ htpc (iterStep_yielded_of_full t id ht) (by simp)
    refine unblocks_of_move t id (.iter .next) pc' ht hpc' ?_
    intro u _ hu hupc
    refine hwaiting u false hu ?_
    rw [hupc]
    exact hat
  cases iter with
  | waiting got c =>
      cases got with
      | none => exact hwaiting s c hsus hpc
      | some q => exact hyield s q c hsus hpc hyielded
  | yielded => exact hyielded s hsus hpc
  | draining =>
      refine unblocks_of_take s id (.iter .next) hsus ?_
      intro x conn htake
      have hstep : s.conn.iterStep id .draining .next = some (conn, .draining, some x) := by
        simp [iterStep, drain, htake]
      exact hdrain _ _ x _ hpc hstep
  | finished => exact absurd rfl hiter

section

attribute [local simp] proxyStep

private theorem unblocks_of_streaming (s : RelayTunnel) (id : UUID) (iter : IterPc)
    (hsus : s.SuspendedOn id) (hpc : s.handler id = .streaming iter) (hiter : iter ≠ .finished) :
    s.Unblocks := by
  refine unblocks_of_iterating id (fun iter pc => pc = .streaming iter) ?_ ?_ ?_ s iter hsus hpc hiter
  · intro conn iter e conn' iter' pc hat hstep hfin
    simp [hat, hstep, hfin]
  · intro conn conn' x pc hat hstep
    simp [hat, hstep]
  · intro s q c hsus hat hyielded
    -- The chunk is held back until `is_disconnected` has answered.
    refine unblocks_of_move s id (.iter .resume) (.checking .yielded) hsus ?_ ?_
    · simp [hat, iterStep]
    · intro t _ ht htpc
      refine unblocks_of_move t id .connected (.streaming .yielded) ht ?_ ?_
      · simp [htpc]
      · intro u _ hu hupc
        exact hyielded u hu hupc

private theorem unblocks_of_replaying (s : RelayTunnel) (id : UUID) (iter : IterPc)
    (parts : List Bytes) (hsus : s.SuspendedOn id) (hpc : s.handler id = .replaying iter parts)
    (hiter : iter ≠ .finished) : s.Unblocks := by
  induction parts generalizing s with
  | nil =>
      refine unblocks_of_move s id .replay (.streaming iter) hsus ?_ ?_
      · simp [hpc]
      · intro t _ ht htpc
        exact unblocks_of_streaming t id iter ht htpc hiter
  | cons part parts ih =>
      refine unblocks_of_move s id .replay (.replaying iter parts) hsus ?_ ?_
      · simp [hpc]
      · intro t _ ht htpc
        exact ih t ht htpc

private theorem unblocks_of_respondingOverCap (s : RelayTunnel) (id : UUID) (iter : IterPc)
    (parts : List Bytes) (hsus : s.SuspendedOn id)
    (hpc : s.handler id = .respondingOverCap iter parts) (hiter : iter ≠ .finished) :
    s.Unblocks := by
  refine unblocks_of_move s id .startBody (.replaying iter parts) hsus ?_ ?_
  · simp [hpc]
  · intro t _ ht htpc
    exact unblocks_of_replaying t id iter parts ht htpc hiter

private theorem unblocks_of_buffering (s : RelayTunnel) (id : UUID) (iter : IterPc)
    (parts : List Bytes) (hsus : s.SuspendedOn id) (hpc : s.handler id = .buffering iter parts)
    (hiter : iter ≠ .finished) : s.Unblocks := by
  refine unblocks_of_iterating id (fun iter pc => ∃ parts, pc = .buffering iter parts)
    ?_ ?_ ?_ s iter hsus ⟨parts, hpc⟩ hiter
  · rintro conn iter e conn' iter' pc ⟨parts, rfl⟩ hstep hfin
    simp [hstep, bufferPart, hfin]
  · rintro conn conn' x pc ⟨parts, rfl⟩ hstep
    simp [hstep]
  · rintro s q c hsus ⟨parts, hat⟩ hyielded
    refine unblocks_of_move s id (.iter .resume) (bufferPart .yielded parts (some q)) hsus ?_ ?_
    · simp [hat, iterStep]
    · intro t _ ht htpc
      simp only [bufferPart] at htpc
      split at htpc
      · exact unblocks_of_respondingOverCap t id _ _ ht htpc (by simp)
      · exact hyielded t ht ⟨_, htpc⟩

private theorem unblocks_of_bridging (s : RelayTunnel) (id : UUID) (iter : IterPc)
    (hsus : s.SuspendedOn id) (hpc : s.handler id = .bridging iter) (hiter : iter ≠ .finished) :
    s.Unblocks := by
  refine unblocks_of_iterating id (fun iter pc => pc = .bridging iter) ?_ ?_ ?_ s iter hsus hpc hiter
  · intro conn iter e conn' iter' pc hat hstep hfin
    simp [hat, hstep, hfin]
  · intro conn conn' x pc hat hstep
    simp [hat, hstep]
  · intro s q c hsus hat hyielded
    refine unblocks_of_move s id (.iter .resume) (.bridging .yielded) hsus ?_ ?_
    · simp [hat, iterStep]
    · intro t _ ht htpc
      exact hyielded t ht htpc

private theorem unblocks_of_readingFirst (s : RelayTunnel) (id : UUID) (hsus : s.SuspendedOn id)
    (hpc : s.handler id = .readingFirst) : s.Unblocks := by
  refine unblocks_of_take s id (.firstByte .other) hsus ?_
  intro x conn htake
  simp [hpc, htake]

private theorem unblocks_of_wsStarting (s : RelayTunnel) (id : UUID) (hsus : s.SuspendedOn id)
    (hpc : s.handler id = .wsStarting) (hmem : id ∈ s.conn.streams) : s.Unblocks := by
  refine unblocks_of_move s id .startBody (.bridging (.waiting none false)) hsus ?_ ?_
  · simp [hpc, startIter_of_mem _ _ _ _ hmem]
  · intro t _ ht htpc
    exact unblocks_of_bridging t id _ ht htpc (by simp)

theorem unblocks_of_hasReader (s : RelayTunnel) (id : UUID) (hsus : s.SuspendedOn id)
    (hreader : s.HasReader id) : s.Unblocks := by
  rcases hreader with hget | ⟨hreads, hlook⟩
  · obtain ⟨⟨p, hloop⟩, hfull⟩ := hsus
    obtain ⟨x, conn, ht, hkeep, hroom⟩ := takeItem_of_full s.conn id hfull
    have hstep : s.step (.getTask id) =
        some { s with conn := conn, getTask := Function.update s.getTask id false } := by
      simp [step, hget, ht]
    exact .of_step _ hstep (unblocks_of_room _ id p (hkeep.trans hloop) hroom)
  · cases hpc : s.handler id with
    | absent | timedOut | leaving | ended => simp [hpc, ProxyPc.reads] at hreads
    | sendingRequest =>
        have hmem := hlook (by simp [hpc, ProxyPc.looksUp])
        refine unblocks_of_move s id .sent .readingFirst hsus ?_ ?_
        · simp [hpc, startIter_of_mem _ _ _ _ hmem]
        · intro t _ ht htpc
          exact unblocks_of_readingFirst t id ht htpc
    | readingFirst => exact unblocks_of_readingFirst s id hsus hpc
    | buffering iter parts =>
        exact unblocks_of_buffering s id iter parts hsus hpc (by simpa [hpc, ProxyPc.reads] using hreads)
    | responding =>
        have hmem := hlook (by simp [hpc, ProxyPc.looksUp])
        refine unblocks_of_move s id .startBody (.streaming (.waiting none false)) hsus ?_ ?_
        · simp [hpc, startIter_of_mem _ _ _ _ hmem]
        · intro t _ ht htpc
          exact unblocks_of_streaming t id _ ht htpc (by simp)
    | respondingOverCap iter parts =>
        exact unblocks_of_respondingOverCap s id iter parts hsus hpc
          (by simpa [hpc, ProxyPc.reads] using hreads)
    | replaying iter parts =>
        exact unblocks_of_replaying s id iter parts hsus hpc (by simpa [hpc, ProxyPc.reads] using hreads)
    | streaming iter =>
        exact unblocks_of_streaming s id iter hsus hpc (by simpa [hpc, ProxyPc.reads] using hreads)
    | checking iter =>
        refine unblocks_of_move s id .connected (.streaming iter) hsus ?_ ?_
        · simp [hpc]
        · intro t _ ht htpc
          exact unblocks_of_streaming t id iter ht htpc (by simpa [hpc, ProxyPc.reads] using hreads)
    | wsOpening =>
        have hmem := hlook (by simp [hpc, ProxyPc.looksUp])
        refine unblocks_of_move s id .sent .wsStarting hsus ?_ ?_
        · simp [hpc]
        · intro t htconn ht htpc
          exact unblocks_of_wsStarting t id ht htpc (by rw [htconn]; exact hmem)
    | wsStarting =>
        exact unblocks_of_wsStarting s id hsus hpc (hlook (by simp [hpc, ProxyPc.looksUp]))
    | bridging iter =>
        exact unblocks_of_bridging s id iter hsus hpc (by simpa [hpc, ProxyPc.reads] using hreads)

end

private theorem iterStep_of_full (conn conn' : TunnelConnection) (id : UUID) (iter iter' : IterPc)
    (e : IterEvent) (out : Option Bytes) (h : conn.iterStep id iter e = some (conn', iter', out))
    (hfull : (conn'.states id).queue.full = true) : conn' = conn ∧ iter' ≠ .finished := by
  have hne : ∀ p, conn.takeItem id ≠ some (p, conn') := by
    intro p ht
    rw [takeItem_room conn conn' id p ht] at hfull
    cases hfull
  rcases iterStep_cases conn conn' id iter iter' e out h with
    ⟨p, c, -, -, ht, -, -⟩ | ⟨got, -, -, -, rfl, rfl, -⟩ | ⟨p, c, -, -, rfl, rfl, -⟩ |
    ⟨p, -, ht, -, -⟩ | ⟨-, hempty, rfl, -, -⟩ | ⟨-, -, rfl, rfl, -⟩
  · exact absurd ht (hne p)
  · exact ⟨rfl, by simp⟩
  · exact ⟨rfl, by simp⟩
  · exact absurd ht (hne p)
  · rw [BoundedQueue.full_iff, removeStream_states, hempty] at hfull
    simp [queueDepth] at hfull
  · exact ⟨rfl, by simp⟩

/-- A handler that still reads and does not give up goes on reading, unless it has taken an item. -/
private theorem proxyStep_reads (conn conn' : TunnelConnection) (id : UUID) (pc pc' : ProxyPc)
    (e : ProxyEvent) (h : proxyStep conn id pc e = some (conn', pc'))
    (hfull : (conn'.states id).queue.full = true) (he : e.givesUp = false)
    (hreads : pc.reads = true) (hlook : pc.looksUp = true → id ∈ conn.streams) :
    pc'.reads = true ∧ (pc'.looksUp = true → id ∈ conn'.streams) := by
  cases pc with
  | absent | timedOut | leaving | ended => cases hreads
  | sendingRequest =>
      have hmem := hlook rfl
      cases e <;> cases he <;> cases h
      rw [startIter_of_mem _ _ _ _ hmem]
      exact ⟨rfl, by simp [ProxyPc.looksUp]⟩
  | readingFirst =>
      cases e <;> cases he <;> try cases h
      rename_i response
      obtain ⟨⟨p, taken⟩, ht, heq⟩ := Option.map_eq_some_iff.mp h
      have hconn : conn' = taken := by cases response <;> cases heq <;> rfl
      rw [hconn, takeItem_room conn taken id p ht] at hfull
      cases hfull
  | buffering iter parts =>
      cases e <;> cases he <;> try cases h
      rename_i e'
      obtain ⟨⟨taken, iter', out⟩, hstep, heq⟩ := Option.map_eq_some_iff.mp h
      cases heq
      obtain ⟨rfl, hfin⟩ := iterStep_of_full conn _ id iter iter' e' out hstep hfull
      cases out with
      | none => simp [bufferPart, hfin, ProxyPc.reads, ProxyPc.looksUp]
      | some chunk =>
          simp only [bufferPart]
          split <;> simp [hfin, ProxyPc.reads, ProxyPc.looksUp]
  | responding =>
      have hmem := hlook rfl
      cases e <;> cases he <;> cases h
      rw [startIter_of_mem _ _ _ _ hmem]
      exact ⟨rfl, by simp [ProxyPc.looksUp]⟩
  | respondingOverCap iter parts =>
      cases e <;> cases he <;> cases h
      exact ⟨hreads, by simp [ProxyPc.looksUp]⟩
  | replaying iter parts =>
      cases e <;> cases he <;> cases parts <;> cases h <;> exact ⟨hreads, by simp [ProxyPc.looksUp]⟩
  | streaming iter =>
      cases e <;> cases he <;> try cases h
      rename_i e'
      obtain ⟨⟨taken, iter', out⟩, hstep, heq⟩ := Option.map_eq_some_iff.mp h
      have hfull' : (taken.states id).queue.full = true := by
        cases out with
        | some chunk =>
            cases heq
            exact hfull
        | none =>
            simp only at heq
            split at heq <;> cases heq <;> exact hfull
      obtain ⟨rfl, hfin⟩ := iterStep_of_full conn taken id iter iter' e' out hstep hfull'
      cases out with
      | some chunk =>
          cases heq
          simp [hfin, ProxyPc.reads, ProxyPc.looksUp]
      | none =>
          simp only [hfin, if_false] at heq
          cases heq
          simp [hfin, ProxyPc.reads, ProxyPc.looksUp]
  | checking iter =>
      cases e <;> cases he <;> cases h
      exact ⟨hreads, by simp [ProxyPc.looksUp]⟩
  | wsOpening =>
      cases e <;> cases he <;> cases h
      exact ⟨rfl, fun _ => hlook rfl⟩
  | wsStarting =>
      have hmem := hlook rfl
      cases e <;> cases he <;> cases h
      rw [startIter_of_mem _ _ _ _ hmem]
      exact ⟨rfl, by simp [ProxyPc.looksUp]⟩
  | bridging iter =>
      cases e <;> cases he <;> try cases h
      rename_i e'
      obtain ⟨⟨taken, iter', out⟩, hstep, heq⟩ := Option.map_eq_some_iff.mp h
      cases heq
      obtain ⟨rfl, hfin⟩ := iterStep_of_full conn _ id iter iter' e' out hstep hfull
      simp [hfin, ProxyPc.reads, ProxyPc.looksUp]

private theorem dispatchFrame_suspends (conn : TunnelConnection) (f : Frame) (id : UUID) (p : Bytes)
    (hloop : conn.receiveLoop = .receiving)
    (h : (conn.dispatchFrame f).receiveLoop = .putting id p) :
    f.type.carriesData = true ∧ f.requestId = id ∧ id ∈ conn.streams ∧
      (conn.states id).queue.full = true := by
  by_cases hmem : f.requestId ∈ conn.streams
  · by_cases hdata : f.type.carriesData = true
    · rw [dispatchFrame_put conn f hdata hmem, putPayload_receiveLoop] at h
      split at h
      · cases h
        exact ⟨hdata, rfl, hmem, by assumption⟩
      · cases h
    · by_cases hend : f.type.endsStream = true
      · rw [dispatchFrame_end conn f hend hmem, setState_receiveLoop, hloop] at h
        cases h
      · simp [dispatchFrame, hdata, hend, hloop] at h
  · rw [dispatchFrame_drop conn f hmem, hloop] at h
    cases h

private theorem loopInv_frame {s t : RelayTunnel} (id : UUID) (hinv : s.LoopInv)
    (hloop : t.conn.receiveLoop = s.conn.receiveLoop)
    (hstate : t.conn.states id = s.conn.states id) (hget : t.getTask id = s.getTask id)
    (hpc : t.handler id = s.handler id) (hmem : id ∈ s.conn.streams → id ∈ t.conn.streams)
    (hsus : t.SuspendedOn id) : t.HasReader id := by
  unfold SuspendedOn at hsus
  rw [hloop, hstate] at hsus
  unfold HasReader
  rw [hget, hpc]
  exact (hinv id hsus).imp_right fun hreader => ⟨hreader.1, fun hlook => hmem (hreader.2 hlook)⟩

private theorem loopInv_handler {s t : RelayTunnel} (id' : UUID) (e : ProxyEvent) (hinv : s.LoopInv)
    (hcond : s.KeepsReading (.handler id' e)) (h : s.step (.handler id' e) = some t) :
    t.LoopInv := by
  obtain ⟨⟨conn, pc⟩, hstep, rfl⟩ := Option.map_eq_some_iff.mp h
  have htouches := proxyStep_touches s.conn conn id' (s.handler id') pc e hstep
  intro id hsus
  by_cases hid : id = id'
  · subst hid
    -- The queue is still full, so the step has taken nothing.
    have hbefore : s.SuspendedOn id := by
      refine ⟨?_, htouches.full hsus.2⟩
      rw [← htouches.receiveLoop]
      exact hsus.1
    rcases hinv id hbefore with hget | ⟨hreads, hlook⟩
    · exact .inl (by simp [hget])
    · cases hgive : e.givesUp with
      | true => exact .inl (by simp [hcond hbefore hgive])
      | false =>
          refine .inr ?_
          simpa using proxyStep_reads s.conn conn id _ pc e hstep hsus.2 hgive hreads hlook
  · exact loopInv_frame id hinv htouches.receiveLoop (htouches.states_ne hid) (by simp [hid])
      (by simp [hid]) (htouches.mem_iff hid).mpr hsus

theorem loopInv_step (s : RelayTunnel) (a : RelayAction) (t : RelayTunnel) (hinv : s.LoopInv)
    (hcond : s.KeepsReading a) (h : s.step a = some t) : t.LoopInv := by
  cases a with
  | openStream id' isWebSocket =>
      simp only [step] at h
      split at h
      · rename_i habsent
        split at h
        · rename_i conn hopen
          cases h
          obtain ⟨hfresh, hothers, hstreams, hkeep⟩ := openStream_cases s.conn conn id' hopen
          intro id hsus
          by_cases hid : id = id'
          · subst hid
            have hfull := hsus.2
            simp [hfresh, StreamState.fresh, BoundedQueue.full, queueDepth] at hfull
          · refine loopInv_frame id hinv hkeep (hothers id hid) rfl (by simp [hid]) ?_ hsus
            intro hmem
            rw [hstreams]
            exact List.mem_append_left _ hmem
        · cases h
          intro id hsus
          by_cases hid : id = id'
          · subst hid
            rcases hinv id hsus with hget | ⟨hreads, -⟩
            · exact .inl hget
            · rw [habsent] at hreads
              cases hreads
          · exact loopInv_frame id hinv rfl rfl rfl (by simp [hid]) (fun hmem => hmem) hsus
      · cases h
  | receive f =>
      simp only [step] at h
      split at h
      · rename_i hloop
        cases h
        intro id hsus
        obtain ⟨⟨p, hput⟩, -⟩ := hsus
        obtain ⟨hdata, rfl, hmem, hfull⟩ := dispatchFrame_suspends s.conn f id p hloop hput
        rcases hcond hdata hmem hfull with hreads | hget
        · refine .inr ⟨hreads, fun _ => ?_⟩
          rw [dispatchFrame_put s.conn f hdata hmem, putPayload_streams]
          exact hmem
        · exact .inl hget
      · cases h
  | resumePut =>
      obtain ⟨conn, hput, rfl⟩ := Option.map_eq_some_iff.mp h
      obtain ⟨id', p', -, hroom, rfl⟩ := resumePut_cases s.conn conn hput
      intro id hsus
      obtain ⟨⟨p, hloop⟩, -⟩ := hsus
      simp [putPayload_receiveLoop, hroom] at hloop
  | handler id' e => exact loopInv_handler id' e hinv hcond h
  | getTask id' =>
      simp only [step] at h
      split at h
      · obtain ⟨⟨p, conn⟩, ht, rfl⟩ := Option.map_eq_some_iff.mp h
        intro id hsus
        by_cases hid : id = id'
        · subst hid
          have hfull := hsus.2
          simp [takeItem_room s.conn conn id p ht] at hfull
        · refine loopInv_frame id hinv (takeItem_receiveLoop s.conn conn id' p ht)
            (takeItem_states_ne s.conn conn id' id p ht hid) (by simp [hid]) rfl ?_ hsus
          intro hmem
          rw [takeItem_streams s.conn conn id' p ht]
          exact hmem
      · cases h
  | tearDown =>
      cases h
      intro id hsus
      obtain ⟨hloop, hqueue⟩ := tearDown_frame s.conn
      have hbefore : s.SuspendedOn id := by
        refine ⟨?_, ?_⟩
        · rw [← hloop]
          exact hsus.1
        · rw [← hqueue]
          exact hsus.2
      rcases hinv id hbefore with hget | ⟨hreads, -⟩
      · exact .inl hget
      · refine .inr ⟨hreads, fun hlook => ?_⟩
        rw [hcond id hbefore] at hlook
        cases hlook

/-- As long as every full queue that a frame is put on has a reader, and nobody stops reading
while the receive loop waits for it, no reachable state is wedged. -/
theorem receiveLoop_not_wedged (acts : List RelayAction) (s : RelayTunnel)
    (hcond : TransitionSystem.Guarded step KeepsReading init acts)
    (hrun : TransitionSystem.run step init acts = some s) : ¬ s.Wedged := by
  have hinit : init.LoopInv := by
    intro id hsus
    obtain ⟨⟨p, hloop⟩, -⟩ := hsus
    cases hloop
  have hinv : s.LoopInv :=
    TransitionSystem.run_invariant_of_guarded step KeepsReading LoopInv loopInv_step hinit hcond hrun
  rintro ⟨id, p, hloop, hstuck⟩
  have hunblocks : s.Unblocks := by
    cases hfull : (s.conn.states id).queue.full with
    | false => exact unblocks_of_room s id p hloop hfull
    | true =>
        have hsus : s.SuspendedOn id := ⟨⟨p, hloop⟩, hfull⟩
        exact unblocks_of_hasReader s id hsus (hinv id hsus)
  obtain ⟨acts', t, hrun', ht⟩ := hunblocks
  rw [hstuck acts' t hrun'] at ht
  cases ht

/-- A download to a slow browser: its first chunk is being sent while one frame more than the queue
holds arrives. -/
def slowDownload : List RelayAction :=
  [.openStream 1 false, .handler 1 .sent, .receive ⟨.data, 1, [123, 125]⟩,
    .handler 1 (.firstByte .other), .handler 1 .startBody, .receive ⟨.data, 1, [7]⟩,
    .handler 1 (.iter .getTask), .handler 1 (.iter .resume), .handler 1 .connected] ++
    List.replicate 65 (.receive ⟨.data, 1, [7]⟩)

theorem receiveLoop_not_wedged_slowDownload :
    ∃ s, TransitionSystem.run step init slowDownload = some s ∧ s.SuspendedOn 1 ∧ ¬ s.Wedged := by
  have heval : (TransitionSystem.run step init slowDownload).any
      (fun s => decide (s.SuspendedOn 1)) = true := by decide +kernel
  obtain ⟨s, hrun, hsus⟩ := (Option.any_eq_true _ _).mp heval
  refine ⟨s, hrun, of_decide_eq_true hsus, ?_⟩
  exact receiveLoop_not_wedged slowDownload s (by decide +kernel) hrun

/-- Stream `id` is left, and the receive loop waits for room in its queue. -/
def Abandoned (id : UUID) (p : Bytes) (s : RelayTunnel) : Prop :=
  s.conn.receiveLoop = .putting id p ∧ (s.conn.states id).queue.full = true ∧
    s.handler id = .ended ∧ s.getTask id = false

private theorem abandoned_step (id : UUID) (p : Bytes) (s : RelayTunnel) (a : RelayAction)
    (t : RelayTunnel) (hs : s.Abandoned id p) (h : s.step a = some t) : t.Abandoned id p := by
  obtain ⟨hloop, hfull, hended, hget⟩ := hs
  cases a with
  | openStream id' isWebSocket =>
      simp only [step] at h
      split at h
      · rename_i habsent
        have hid : id ≠ id' := by
          intro heq
          rw [← heq, hended] at habsent
          cases habsent
        split at h
        · rename_i conn hopen
          cases h
          obtain ⟨-, hothers, -, hkeep⟩ := openStream_cases s.conn conn id' hopen
          refine ⟨hkeep.trans hloop, ?_, by simpa [hid] using hended, hget⟩
          rw [hothers id hid]
          exact hfull
        · cases h
          exact ⟨hloop, hfull, by simpa [hid] using hended, hget⟩
      · cases h
  | receive f =>
      simp [step, hloop] at h
  | resumePut =>
      simp [step, resumePut, hloop, hfull] at h
  | handler id' e =>
      obtain ⟨⟨conn, pc⟩, hstep, rfl⟩ := Option.map_eq_some_iff.mp h
      have hid : id ≠ id' := by
        intro heq
        rw [← heq, hended] at hstep
        cases e <;> cases hstep
      have htouches := proxyStep_touches s.conn conn id' _ pc e hstep
      refine ⟨htouches.receiveLoop.trans hloop, ?_, by simpa [hid] using hended,
        by simpa [hid] using hget⟩
      rw [htouches.states_ne hid]
      exact hfull
  | getTask id' =>
      simp only [step] at h
      split at h
      · rename_i hget'
        have hid : id ≠ id' := by
          intro heq
          rw [← heq, hget] at hget'
          cases hget'
        obtain ⟨⟨q, conn⟩, ht, rfl⟩ := Option.map_eq_some_iff.mp h
        refine ⟨(takeItem_receiveLoop s.conn conn id' q ht).trans hloop, ?_, hended,
          by simpa [hid] using hget⟩
        rw [takeItem_states_ne s.conn conn id' id q ht hid]
        exact hfull
      · cases h
  | tearDown =>
      cases h
      obtain ⟨hkeep, hqueue⟩ := tearDown_frame s.conn
      refine ⟨hkeep.trans hloop, ?_, hended, hget⟩
      rw [hqueue]
      exact hfull

theorem wedged_of_abandoned (id : UUID) (p : Bytes) (s : RelayTunnel) (hs : s.Abandoned id p) :
    s.Wedged := by
  refine ⟨id, p, hs.1, ?_⟩
  intro acts t hrun
  exact (TransitionSystem.run_invariant step (Abandoned id p) (abandoned_step id p) hs hrun).1

/-- The generator takes one chunk more, which only lets the receive loop fill the queue again. Then
`is_disconnected` answers that the browser is gone, and `stream_generator` removes the stream. -/
def abandonedDownload : List RelayAction :=
  slowDownload ++ [.handler 1 (.iter .next), .handler 1 (.iter .getTask), .resumePut,
    .receive ⟨.data, 1, [7]⟩, .handler 1 (.iter .resume), .handler 1 .browserGone,
    .handler 1 .finish]

theorem abandonedDownload_wedged :
    ∃ s, TransitionSystem.run step init abandonedDownload = some s ∧ s.Wedged ∧
      (∃ p, s.conn.receiveLoop = .putting 1 p) ∧ 1 ∉ s.conn.streams ∧ s.handler 1 = .ended := by
  have heval : (TransitionSystem.run step init abandonedDownload).any (fun s =>
      decide (s.conn.receiveLoop = .putting 1 [7]) && (s.conn.states 1).queue.full &&
        decide (s.handler 1 = .ended) && !s.getTask 1 && decide (1 ∉ s.conn.streams)) = true := by
    decide +kernel
  obtain ⟨s, hrun, hs⟩ := (Option.any_eq_true _ _).mp heval
  simp only [Bool.and_eq_true, decide_eq_true_eq, Bool.not_eq_true'] at hs
  obtain ⟨⟨⟨⟨hloop, hfull⟩, hended⟩, hget⟩, hmem⟩ := hs
  exact ⟨s, hrun, wedged_of_abandoned 1 [7] s ⟨hloop, hfull, hended, hget⟩, ⟨[7], hloop⟩, hmem, hended⟩

end RelayTunnel

end NetworkFileServer.Relay
