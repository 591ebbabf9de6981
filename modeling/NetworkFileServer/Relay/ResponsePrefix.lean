import NetworkFileServer.Relay.ResponseDelivery

/-!
# What a browser is given of a response

However an exchange is interrupted, by a teardown of the tunnel or by a frame that ends the stream,
the browser is given nothing that the agent has not sent for its request, and nothing out of order:
what it has is a prefix of the DATA frames of the agent.
-/

namespace NetworkFileServer.Relay

open Tunnel TunnelConnection

theorem prefix_passedOn (conn conn' : TunnelConnection) (id : UUID) (pc pc' : ProxyPc)
    (e : ProxyEvent) (chunk : List Bytes) (h : proxyStep conn id pc e = some (conn', pc')) :
    passedOn conn id chunk pc e <+: pc.unpassed chunk ++ conn.buffered id := by
  cases pc with
  | readingFirst =>
      cases e with
      | firstByte response =>
          obtain ⟨⟨p, taken⟩, ht, -⟩ := Option.map_eq_some_iff.mp h
          have hbuffered := takeItem_buffered conn taken id p ht
          simp [passedOn, ht, ProxyPc.unpassed, hbuffered]
      | _ => exact List.nil_prefix
  | buffering iter parts =>
      cases e with
      | iter e' =>
          simp only [passedOn]
          split
          · rw [ProxyPc.unpassed, List.append_assoc]
            exact List.prefix_append _ _
          · exact List.nil_prefix
      | _ => exact List.nil_prefix
  | replaying iter parts =>
      cases parts with
      | nil => cases e <;> exact List.nil_prefix
      | cons part parts =>
          cases e with
          | replay => simp [passedOn, ProxyPc.unpassed]
          | _ => exact List.nil_prefix
  | checking iter =>
      cases e with
      | connected =>
          rw [ProxyPc.unpassed, List.append_assoc]
          exact List.prefix_append _ _
      | _ => exact List.nil_prefix
  | _ => cases e <;> exact List.nil_prefix

theorem passedOn_of_notServing (conn : TunnelConnection) (id : UUID) (pc : ProxyPc) (e : ProxyEvent)
    (chunk : List Bytes) (h : pc.serving = false) : passedOn conn id chunk pc e = [] := by
  cases pc with
  | absent | timedOut | wsOpening | wsStarting | bridging | leaving | ended => cases e <;> rfl
  | _ => cases h

namespace ResponseExchange

/-- Where the payloads of a response are. A stream that is no longer in the table gets no more of
them, but what was read and queued before is still a part of what was sent. -/
structure PrefixInv (id : UUID) (s : ResponseExchange) : Prop where
  unopened : s.relay.handler id = .absent → id ∉ s.relay.conn.streams ∧
    s.relay.conn.pendingPut id = [] ∧ (∀ f ∈ s.wire, f.requestId ≠ id) ∧ s.sent = [] ∧
    s.delivered = []
  account : (s.relay.handler id).serving = true → id ∈ s.relay.conn.streams →
    s.delivered ++ ((s.relay.handler id).unpassed s.chunk ++ s.relay.conn.buffered id) ++
      dataPayloads id s.wire = s.sent
  queued : (s.relay.handler id).serving = true →
    s.delivered ++ ((s.relay.handler id).unpassed s.chunk ++ s.relay.conn.buffered id) <+: s.sent
  delivered : s.delivered <+: s.sent
  typed : ∀ f ∈ s.wire, f.requestId = id → f.type ≠ .wsData
  getTask : s.relay.getTask id = true →
    s.relay.handler id = .leaving ∨ s.relay.handler id = .ended

theorem prefixInv_init (id : UUID) : PrefixInv id init where
  unopened := by simp [init, RelayTunnel.init, TunnelConnection.new, pendingPut]
  account := nofun
  queued := nofun
  delivered := List.nil_prefix
  typed := nofun
  getTask := nofun

/-- A step of the relay after which the handler of the stream is where it was, and the payloads of a
stream that is being served are too. -/
theorem PrefixInv.of_relay {id : UUID} {s : ResponseExchange} {relay : RelayTunnel}
    (hinv : PrefixInv id s) (hhandler : relay.handler id = s.relay.handler id)
    (hget : relay.getTask id = true → s.relay.getTask id = true)
    (hpending : s.relay.conn.pendingPut id = [] → relay.conn.pendingPut id = [])
    (hmem : id ∈ relay.conn.streams → id ∈ s.relay.conn.streams)
    (hbuffered : (s.relay.handler id).serving = true →
      relay.conn.buffered id = s.relay.conn.buffered id) :
    PrefixInv id { s with relay := relay } where
  unopened := by
    intro habsent
    obtain ⟨hunopened, hnone, hrest⟩ := hinv.unopened (hhandler ▸ habsent)
    exact ⟨mt hmem hunopened, hpending hnone, hrest⟩
  account := by
    intro hserving htable
    rw [hhandler] at hserving ⊢
    rw [hbuffered hserving]
    exact hinv.account hserving (hmem htable)
  queued := by
    intro hserving
    rw [hhandler] at hserving ⊢
    rw [hbuffered hserving]
    exact hinv.queued hserving
  delivered := hinv.delivered
  typed := hinv.typed
  getTask := by
    intro htask
    rw [hhandler]
    exact hinv.getTask (hget htask)

theorem PrefixInv.untouched {id : UUID} {s : ResponseExchange} {relay : RelayTunnel}
    (hinv : PrefixInv id s) (h : RelayTunnel.Untouched id s.relay relay) :
    PrefixInv id { s with relay := relay } :=
  hinv.of_relay h.handler (fun hget => h.getTask ▸ hget) h.pending h.table.mp fun _ => h.buffered

theorem prefixInv_agentSend {id : UUID} {s t : ResponseExchange} (hinv : PrefixInv id s) (f : Frame)
    (h : s.step id (.agentSend f) = some t) : PrefixInv id t := by
  simp only [step] at h
  split at h
  · rename_i hmay
    cases h
    have hmay' : f.requestId ≠ id ∨
        (s.relay.handler id ≠ .absent ∧ s.closeSent = false ∧ f.type ≠ .wsData) := by
      simpa [agentMaySend] using hmay
    have hgrows : s.sent <+: s.sent ++ dataPayloads id [f] := List.prefix_append _ _
    constructor
    · intro habsent
      obtain ⟨hmem, hpending, hwire, hsent, hdelivered⟩ := hinv.unopened habsent
      have hne : f.requestId ≠ id := by
        rcases hmay' with hne | ⟨hopened, -⟩
        · exact hne
        · exact absurd habsent hopened
      refine ⟨hmem, hpending, ?_, ?_, hdelivered⟩
      · intro g hg
        rcases List.mem_append.mp hg with hg | hg
        · exact hwire g hg
        · rw [List.mem_singleton.mp hg]
          exact hne
      · simp [hsent, dataPayloads_of_ne id f hne]
    · intro hserving htable
      have haccount := hinv.account hserving htable
      rw [dataPayloads_append, ← List.append_assoc, haccount]
    · exact fun hserving => (hinv.queued hserving).trans hgrows
    · exact hinv.delivered.trans hgrows
    · intro g hg hid
      rcases List.mem_append.mp hg with hg | hg
      · exact hinv.typed g hg hid
      · rw [List.mem_singleton.mp hg] at hid ⊢
        rcases hmay' with hne | ⟨-, -, htype⟩
        · exact absurd hid hne
        · exact htype
    · exact hinv.getTask
  · cases h

/-- A frame leaves the wire. Its payload is accounted for elsewhere, or its stream is not in the
table. -/
theorem PrefixInv.tail {id : UUID} {s : ResponseExchange} (hinv : PrefixInv id s) (f : Frame)
    (rest : List Frame) (hwire : s.wire = f :: rest)
    (hdata : dataPayloads id [f] = [] ∨ id ∉ s.relay.conn.streams) :
    PrefixInv id { s with wire := rest } := by
  have hsub : ∀ g ∈ rest, g ∈ s.wire := by
    intro g hg
    rw [hwire]
    exact List.mem_cons_of_mem f hg
  constructor
  · intro habsent
    obtain ⟨hmem, hpending, hframes, hrest⟩ := hinv.unopened habsent
    exact ⟨hmem, hpending, fun g hg => hframes g (hsub g hg), hrest⟩
  · intro hserving htable
    have haccount := hinv.account hserving htable
    rcases hdata with hdata | hnot
    · rw [hwire, ← List.singleton_append, dataPayloads_append, hdata] at haccount
      exact haccount
    · exact absurd htable hnot
  · exact hinv.queued
  · exact hinv.delivered
  · exact fun g hg => hinv.typed g (hsub g hg)
  · exact hinv.getTask

theorem prefixInv_data {id : UUID} {s : ResponseExchange} (hinv : PrefixInv id s) (f : Frame)
    (rest : List Frame) (hwire : s.wire = f :: rest) (hloop : s.relay.conn.receiveLoop = .receiving)
    (hid : f.requestId = id) (htype : f.type = .data) (htable : id ∈ s.relay.conn.streams) :
    PrefixInv id { s with
      relay := { s.relay with conn := s.relay.conn.dispatchFrame f }, wire := rest } := by
  have hcons : dataPayloads id s.wire = f.payload :: dataPayloads id rest := by
    rw [hwire, dataPayloads_cons]
    simp [hid, htype]
  have hdispatch : s.relay.conn.dispatchFrame f = s.relay.conn.putPayload id f.payload := by
    subst hid
    exact dispatchFrame_put s.relay.conn f (by simp [htype, FrameType.carriesData]) htable
  have hbuffered : (s.relay.conn.dispatchFrame f).buffered id =
      s.relay.conn.buffered id ++ [f.payload] := by
    rw [hdispatch, putPayload_buffered]
    simp [buffered, pendingPut_of_receiving s.relay.conn id hloop]
  have hall : (s.relay.handler id).serving = true →
      s.delivered ++ ((s.relay.handler id).unpassed s.chunk ++
        (s.relay.conn.dispatchFrame f).buffered id) ++ dataPayloads id rest = s.sent := by
    intro hserving
    have haccount := hinv.account hserving htable
    rw [hcons] at haccount
    simpa [hbuffered] using haccount
  constructor
  · intro habsent
    exact absurd htable (hinv.unopened habsent).1
  · exact fun hserving _ => hall hserving
  · exact fun hserving => ⟨_, hall hserving⟩
  · exact hinv.delivered
  · intro g hg
    refine hinv.typed g ?_
    rw [hwire]
    exact List.mem_cons_of_mem f hg
  · exact hinv.getTask

theorem prefixInv_receive {id : UUID} {s t : ResponseExchange} (hinv : PrefixInv id s) (f : Frame)
    (h : s.step id (.relay (.receive f)) = some t) : PrefixInv id t := by
  simp only [step] at h
  split at h
  · rename_i hhead
    obtain ⟨relay, hstep, rfl⟩ := Option.map_eq_some_iff.mp h
    obtain ⟨rest, hwire⟩ : ∃ rest, s.wire = f :: rest := by
      cases hs : s.wire with
      | nil => simp [hs] at hhead
      | cons g rest =>
          rw [hs, List.head?_cons] at hhead
          cases hhead
          exact ⟨rest, rfl⟩
    -- The record of the CLOSE is no part of the invariant.
    suffices hnext : PrefixInv id { s with relay := relay, wire := rest } by
      rw [hwire]
      exact ⟨hnext.unopened, hnext.account, hnext.queued, hnext.delivered, hnext.typed, hnext.getTask⟩
    have hrun := hstep
    simp only [RelayTunnel.step] at hstep
    split at hstep
    · rename_i hloop
      by_cases hid : f.requestId = id
      · cases hstep
        by_cases htable : id ∈ s.relay.conn.streams
        · by_cases htype : f.type = .data
          · exact prefixInv_data hinv f rest hwire hloop hid htype htable
          · have htail := hinv.tail f rest hwire (.inl (by simp [dataPayloads, htype]))
            by_cases hends : f.type.endsStream = true
            · obtain ⟨hstreams, hrecv, hstates⟩ := dispatchFrame_end_frame s.relay.conn f hends
              have hpending : (s.relay.conn.dispatchFrame f).pendingPut id =
                  s.relay.conn.pendingPut id := by simp [pendingPut, hrecv]
              refine htail.of_relay rfl (fun hget => hget) hpending.trans (by simp [hstreams]) ?_
              intro _
              simp [buffered, hpending, (hstates id).1]
            · have hquiet : s.relay.conn.dispatchFrame f = s.relay.conn := by
                have hws := hinv.typed f (by simp [hwire]) hid
                cases ht : f.type <;> simp_all [dispatchFrame, FrameType.carriesData]
              rw [hquiet]
              exact htail
        · rw [dispatchFrame_drop s.relay.conn f (hid ▸ htable)]
          exact hinv.tail f rest hwire (.inr htable)
      · have htail := hinv.tail f rest hwire (.inl (dataPayloads_of_ne id f hid))
        exact htail.untouched (RelayTunnel.step_untouched s.relay relay (.receive f) id hrun hid)
    · cases hstep
  · cases h

theorem prefixInv_handler {id : UUID} {s t : ResponseExchange} (hinv : PrefixInv id s)
    (e : ProxyEvent) (h : s.step id (.relay (.handler id e)) = some t) : PrefixInv id t := by
  obtain ⟨relay, hrelay, rfl⟩ := Option.map_eq_some_iff.mp h
  obtain ⟨⟨conn, pc⟩, hstep, rfl⟩ := Option.map_eq_some_iff.mp hrelay
  simp only [if_true]
  have htouches := proxyStep_touches s.relay.conn conn id _ pc e hstep
  have hserves : pc.serving = true → (s.relay.handler id).serving = true ∧
      ServingStep s.relay.conn conn id (s.relay.handler id) pc
        ((s.relay.handler id).unpassed s.chunk)
        (passedOn s.relay.conn id s.chunk (s.relay.handler id) e)
        (pc.unpassed (chunkInHand s.relay.conn id (s.relay.handler id) e)) := by
    intro hpc
    have hserving : (s.relay.handler id).serving = true := by
      by_contra hnot
      have hnever := proxyStep_notServing s.relay.conn conn id _ pc e hstep (by simpa using hnot)
      rw [hpc] at hnever
      cases hnever
    exact ⟨hserving, proxyStep_serving s.relay.conn conn id _ pc e s.chunk hstep hserving (.inl hpc)⟩
  have hmoved : pc.serving = true →
      s.delivered ++ passedOn s.relay.conn id s.chunk (s.relay.handler id) e ++
        (pc.unpassed (chunkInHand s.relay.conn id (s.relay.handler id) e) ++ conn.buffered id) =
      s.delivered ++ ((s.relay.handler id).unpassed s.chunk ++ s.relay.conn.buffered id) := by
    intro hpc
    rw [(hserves hpc).2.account, List.append_assoc]
  constructor
  · intro habsent
    have hopened := proxyStep_opened s.relay.conn conn id _ pc e hstep
    exact absurd (by simpa using habsent) hopened
  · intro hserving htable
    have hpc : pc.serving = true := by simpa using hserving
    obtain ⟨hbefore, hserve⟩ := hserves hpc
    have htable' : id ∈ s.relay.conn.streams := hserve.streams hpc ▸ htable
    simpa [hmoved hpc] using hinv.account hbefore htable'
  · intro hserving
    have hpc : pc.serving = true := by simpa using hserving
    simpa [hmoved hpc] using hinv.queued (hserves hpc).1
  · show s.delivered ++ passedOn s.relay.conn id s.chunk (s.relay.handler id) e <+: s.sent
    by_cases hserving : (s.relay.handler id).serving = true
    · refine List.IsPrefix.trans ?_ (hinv.queued hserving)
      exact (List.prefix_append_right_inj s.delivered).mpr
        (prefix_passedOn s.relay.conn conn id _ pc e s.chunk hstep)
    · rw [passedOn_of_notServing _ _ _ _ _ (by simpa using hserving), List.append_nil]
      exact hinv.delivered
  · exact hinv.typed
  · intro hget
    have hleaves : leavesGetTask (s.relay.handler id) e = true ∨
        s.relay.handler id = .leaving ∨ s.relay.handler id = .ended := by
      rcases Bool.or_eq_true_iff.mp (by simpa using hget) with htask | hleave
      · exact .inr (hinv.getTask htask)
      · exact .inl hleave
    simpa using proxyStep_leaves s.relay.conn conn id _ pc e hstep hleaves

theorem prefixInv_openStream {id : UUID} {s : ResponseExchange} {relay : RelayTunnel}
    (hinv : PrefixInv id s) (isWebSocket : Bool)
    (h : s.relay.step (.openStream id isWebSocket) = some relay) :
    PrefixInv id { s with relay := relay } := by
  simp only [RelayTunnel.step] at h
  split at h
  · rename_i habsent
    obtain ⟨-, hpending, hframes, hsent, hdelivered⟩ := hinv.unopened habsent
    have hnoTask : s.relay.getTask id ≠ true := by
      intro hget
      have hgone := hinv.getTask hget
      simp [habsent] at hgone
    have hnone : dataPayloads id s.wire = [] := by
      simp only [dataPayloads, List.filterMap_eq_nil_iff]
      intro f hf
      simp [hframes f hf]
    split at h
    · rename_i conn hopen
      cases h
      obtain ⟨hfresh, -, -, hkeep⟩ := openStream_cases s.relay.conn conn id hopen
      have hbuffered : conn.buffered id = [] := by
        have hpending' : conn.pendingPut id = [] := by
          rw [← hpending]
          simp [pendingPut, hkeep]
        simp [buffered, hpending', hfresh, StreamState.fresh]
      have hunpassed : ((if isWebSocket then ProxyPc.wsOpening else .sendingRequest).unpassed
          s.chunk) = [] := by
        cases isWebSocket <;> rfl
      constructor
      · intro hnot
        cases isWebSocket <;> simp at hnot
      · intro _ _
        simp [hunpassed, hbuffered, hsent, hdelivered, hnone]
      · intro _
        simp [hunpassed, hbuffered, hdelivered]
      · exact hinv.delivered
      · exact hinv.typed
      · exact fun hget => absurd hget hnoTask
    · cases h
      constructor
      · intro hnot
        simp at hnot
      · intro hserving
        simp [ProxyPc.serving] at hserving
      · intro hserving
        simp [ProxyPc.serving] at hserving
      · exact hinv.delivered
      · exact hinv.typed
      · exact fun hget => absurd hget hnoTask
  · cases h

theorem prefixInv_getTask {id : UUID} {s : ResponseExchange} {relay : RelayTunnel}
    (hinv : PrefixInv id s) (h : s.relay.step (.getTask id) = some relay) :
    PrefixInv id { s with relay := relay } := by
  simp only [RelayTunnel.step] at h
  split at h
  · rename_i hget
    obtain ⟨⟨p, conn⟩, ht, rfl⟩ := Option.map_eq_some_iff.mp h
    have hloop := takeItem_receiveLoop s.relay.conn conn id p ht
    refine hinv.of_relay rfl ?_ ?_ ?_ ?_
    · intro htask
      simp at htask
    · simp [pendingPut, hloop]
    · simp [takeItem_streams s.relay.conn conn id p ht]
    · intro hserving
      rcases hinv.getTask hget with hgone | hgone <;> simp [hgone, ProxyPc.serving] at hserving
  · cases h

theorem prefixInv_tearDown {id : UUID} {s : ResponseExchange} (hinv : PrefixInv id s) :
    PrefixInv id { s with relay := { s.relay with conn := s.relay.conn.tearDown } } := by
  obtain ⟨hloop, hqueue⟩ := tearDown_frame s.relay.conn
  have hpending : s.relay.conn.tearDown.pendingPut id = s.relay.conn.pendingPut id := by
    simp [pendingPut, hloop]
  refine hinv.of_relay rfl (fun hget => hget) hpending.trans (mem_of_mem_tearDown s.relay.conn id) ?_
  intro _
  simp [buffered, hpending, hqueue id]

/-- Every step keeps what the browser has a prefix of what was sent, also one that interrupts the
response. -/
theorem prefixInv_step (id : UUID) (s : ResponseExchange) (a : ExchangeAction)
    (t : ResponseExchange) (hinv : PrefixInv id s) (h : s.step id a = some t) : PrefixInv id t := by
  cases a with
  | agentSend f => exact prefixInv_agentSend hinv f h
  | relay a =>
      cases a with
      | receive f => exact prefixInv_receive hinv f h
      | handler id' e =>
          by_cases hid : id' = id
          · subst hid
            exact prefixInv_handler hinv e h
          · obtain ⟨relay, hstep, rfl⟩ := Option.map_eq_some_iff.mp h
            simp only [hid, if_false]
            exact hinv.untouched (RelayTunnel.step_untouched s.relay relay _ id hstep hid)
      | openStream id' isWebSocket =>
          obtain ⟨relay, hstep, rfl⟩ := Option.map_eq_some_iff.mp h
          by_cases hid : id' = id
          · subst hid
            exact prefixInv_openStream hinv isWebSocket hstep
          · exact hinv.untouched (RelayTunnel.step_untouched s.relay relay _ id hstep hid)
      | resumePut =>
          obtain ⟨relay, hstep, rfl⟩ := Option.map_eq_some_iff.mp h
          exact hinv.untouched (RelayTunnel.step_untouched s.relay relay _ id hstep trivial)
      | getTask id' =>
          obtain ⟨relay, hstep, rfl⟩ := Option.map_eq_some_iff.mp h
          by_cases hid : id' = id
          · subst hid
            exact prefixInv_getTask hinv hstep
          · exact hinv.untouched (RelayTunnel.step_untouched s.relay relay _ id hstep hid)
      | tearDown =>
          cases h
          exact prefixInv_tearDown hinv

end ResponseExchange

end NetworkFileServer.Relay
