import NetworkFileServer.Relay.ServingSteps

/-!
# Whether a proxied response arrives whole

One request stream of a tunnel, followed from the agent's frames to the browser. The relay moves as
in `RelayTunnel`, with any number of other streams; the frames come over a wire that keeps their
order. What the agent has sent, what the browser was given and whether the body iterator has
finished is kept beside the state.
-/

namespace NetworkFileServer.Relay

open Tunnel TunnelConnection

structure ResponseExchange where
  relay : RelayTunnel
  /-- What the agent has sent and the relay has not received, oldest first. -/
  wire : List Frame
  /-- The payloads of the DATA frames that the agent has sent for the request. -/
  sent : List Bytes
  closeSent : Bool
  closeReceived : Bool
  chunk : List Bytes
  delivered : List Bytes
  bodyFinished : Bool

inductive ExchangeAction where
  | agentSend (f : Frame)
  | relay (a : RelayAction)

namespace ResponseExchange

def init : ResponseExchange := ⟨.init, [], [], false, false, [], [], false⟩

def isClose (id : UUID) (f : Frame) : Bool := f.type = .close ∧ f.requestId = id

/-- The agent answers a request that it was sent. `handle_open_frame` sends DATA frames, and nothing
after its CLOSE. -/
def agentMaySend (s : ResponseExchange) (id : UUID) (f : Frame) : Bool :=
  f.requestId ≠ id ∨ (s.relay.handler id ≠ .absent ∧ s.closeSent = false ∧ f.type ≠ .wsData)

def step (id : UUID) (s : ResponseExchange) : ExchangeAction → Option ResponseExchange
  | .agentSend f =>
      if s.agentMaySend id f then
        some { s with
          wire := s.wire ++ [f]
          sent := s.sent ++ dataPayloads id [f]
          closeSent := s.closeSent || isClose id f }
      else none
  | .relay (.receive f) =>
      if s.wire.head? = some f then
        (s.relay.step (.receive f)).map fun relay =>
          { s with
            relay := relay
            wire := s.wire.tail
            closeReceived := s.closeReceived || isClose id f }
      else none
  | .relay (.handler id' e) =>
      (s.relay.step (.handler id' e)).map fun relay =>
        if id' = id then
          { s with
            relay := relay
            delivered := s.delivered ++ passedOn s.relay.conn id s.chunk (s.relay.handler id) e
            chunk := chunkInHand s.relay.conn id (s.relay.handler id) e
            bodyFinished :=
              s.bodyFinished || finishesBody s.relay.conn id (s.relay.handler id) e }
        else { s with relay := relay }
  | .relay a => (s.relay.step a).map fun relay => { s with relay := relay }

/-- A body that finished normally was ended by the CLOSE of the agent and is complete. -/
def Complete (s : ResponseExchange) : Prop :=
  s.bodyFinished = true → s.closeReceived = true ∧ s.delivered = s.sent

/-- The step sets the closed event of a stream that is being served without a CLOSE frame. -/
def Interrupts (id : UUID) (s : ResponseExchange) : ExchangeAction → Prop
  | .relay (.receive f) => f.requestId = id ∧ f.type.endsStream = true ∧ f.type ≠ .close ∧
      (s.relay.handler id).serving = true ∧ (s.relay.conn.states id).closed = false
  | .relay .tearDown => s.relay.conn.closed = false ∧
      (s.relay.handler id).serving = true ∧ (s.relay.conn.states id).closed = false
  | _ => False

instance (id : UUID) (s : ResponseExchange) (a : ExchangeAction) : Decidable (s.Interrupts id a) :=
  match a with
  | .relay (.receive _) | .relay .tearDown => inferInstanceAs (Decidable (_ ∧ _))
  | .agentSend _ | .relay (.openStream _ _) | .relay .resumePut | .relay (.handler _ _)
  | .relay (.getTask _) => isFalse (fun h => h)

/-- No DATA of the stream comes after its CLOSE. -/
def CloseLast (id : UUID) : List Frame → Prop
  | [] => True
  | f :: fs => (isClose id f = true → dataPayloads id fs = []) ∧ CloseLast id fs

structure ExchangeInv (id : UUID) (s : ResponseExchange) : Prop where
  unopened : s.relay.handler id = .absent → id ∉ s.relay.conn.streams ∧
    s.relay.conn.pendingPut id = [] ∧ (∀ f ∈ s.wire, f.requestId ≠ id) ∧ s.sent = [] ∧
    s.delivered = []
  /-- What the browser has, what is on its way and what has not arrived is what was sent. -/
  account : (s.relay.handler id).serving = true →
    s.delivered ++ ((s.relay.handler id).unpassed s.chunk ++ s.relay.conn.buffered id) ++
      dataPayloads id s.wire = s.sent
  table : (s.relay.handler id).serving = true → (s.relay.conn.states id).closed = false →
    id ∈ s.relay.conn.streams
  closed : (s.relay.handler id).serving = true → (s.relay.conn.states id).closed = true →
    s.closeReceived = true
  consistent : ∀ iter, (s.relay.handler id).bodyIter = some iter →
    iter ≠ .finished ∧ s.relay.conn.IterConsistent id iter
  ordered : CloseLast id s.wire
  typed : ∀ f ∈ s.wire, f.requestId = id → f.type ≠ .wsData
  closeSent : s.closeReceived = true ∨ (∃ f ∈ s.wire, isClose id f = true) → s.closeSent = true
  nothingLeft : s.closeReceived = true →
    s.relay.conn.pendingPut id = [] ∧ dataPayloads id s.wire = []
  getTask : s.relay.getTask id = true →
    s.relay.handler id = .leaving ∨ s.relay.handler id = .ended
  finished : s.bodyFinished = true →
    s.relay.handler id = .ended ∧ s.closeReceived = true ∧ s.delivered = s.sent

theorem exchangeInv_init (id : UUID) : ExchangeInv id init where
  unopened := by simp [init, RelayTunnel.init, TunnelConnection.new, pendingPut]
  account := nofun
  table := nofun
  closed := nofun
  consistent := nofun
  ordered := trivial
  typed := nofun
  closeSent := by simp [init]
  nothingLeft := nofun
  getTask := nofun
  finished := nofun

theorem ProxyPc.serving_of_bodyIter (pc : ProxyPc) (iter : IterPc) (h : pc.bodyIter = some iter) :
    pc.serving = true := by
  cases pc <;> first | rfl | cases h

/-- A step of the relay after which the handler of the stream is where it was, and that has not
touched the stream if it is being served. -/
theorem ExchangeInv.of_relay {id : UUID} {s : ResponseExchange} {relay : RelayTunnel}
    (hinv : ExchangeInv id s) (hhandler : relay.handler id = s.relay.handler id)
    (hget : relay.getTask id = true → s.relay.getTask id = true)
    (hpending : s.relay.conn.pendingPut id = [] → relay.conn.pendingPut id = [])
    (hmem : id ∉ s.relay.conn.streams → id ∉ relay.conn.streams)
    (hkept : (s.relay.handler id).serving = true →
      relay.conn.buffered id = s.relay.conn.buffered id ∧
      (relay.conn.states id).closed = (s.relay.conn.states id).closed ∧
      ((s.relay.conn.states id).closed = false → id ∈ s.relay.conn.streams →
        id ∈ relay.conn.streams)) :
    ExchangeInv id { s with relay := relay } where
  unopened := by
    intro habsent
    obtain ⟨hunopened, hnone, hrest⟩ := hinv.unopened (hhandler ▸ habsent)
    exact ⟨hmem hunopened, hpending hnone, hrest⟩
  account := by
    intro hserving
    rw [hhandler] at hserving ⊢
    rw [(hkept hserving).1]
    exact hinv.account hserving
  table := by
    intro hserving hopen
    rw [hhandler] at hserving
    obtain ⟨-, hclosed, htable⟩ := hkept hserving
    rw [hclosed] at hopen
    exact htable hopen (hinv.table hserving hopen)
  closed := by
    intro hserving hclosed
    rw [hhandler] at hserving
    rw [(hkept hserving).2.1] at hclosed
    exact hinv.closed hserving hclosed
  consistent := by
    intro iter hiter
    rw [hhandler] at hiter
    obtain ⟨hfin, hconsistent⟩ := hinv.consistent iter hiter
    have hclosed := (hkept (ProxyPc.serving_of_bodyIter _ iter hiter)).2.1
    exact ⟨hfin, hconsistent.mono hclosed.trans (fun hdone => absurd hdone hfin)⟩
  ordered := hinv.ordered
  typed := hinv.typed
  closeSent := hinv.closeSent
  nothingLeft := by
    intro hreceived
    obtain ⟨hnone, hwire⟩ := hinv.nothingLeft hreceived
    exact ⟨hpending hnone, hwire⟩
  getTask := by
    intro htask
    rw [hhandler]
    exact hinv.getTask (hget htask)
  finished := by
    intro hfinished
    rw [hhandler]
    exact hinv.finished hfinished

theorem ExchangeInv.untouched {id : UUID} {s : ResponseExchange} {relay : RelayTunnel}
    (hinv : ExchangeInv id s) (h : RelayTunnel.Untouched id s.relay relay) :
    ExchangeInv id { s with relay := relay } := by
  apply hinv.of_relay h.handler (fun hget => h.getTask ▸ hget) h.pending (mt h.table.mp)
  intro _
  exact ⟨h.buffered, h.closed, fun _ => h.table.mpr⟩

theorem dataPayloads_of_ne (id : UUID) (f : Frame) (h : f.requestId ≠ id) :
    dataPayloads id [f] = [] := by
  simp [dataPayloads, h]

theorem closeLast_concat (id : UUID) (fs : List Frame) (f : Frame) (h : CloseLast id fs)
    (hlast : (∃ g ∈ fs, isClose id g = true) → dataPayloads id [f] = []) :
    CloseLast id (fs ++ [f]) := by
  induction fs with
  | nil => exact ⟨fun _ => rfl, trivial⟩
  | cons g fs ih =>
      refine ⟨?_, ih h.2 ?_⟩
      · intro hclose
        show dataPayloads id (fs ++ [f]) = []
        rw [dataPayloads_append, h.1 hclose, hlast ⟨g, List.mem_cons_self, hclose⟩]
        rfl
      · rintro ⟨g', hg', hclose⟩
        exact hlast ⟨g', List.mem_cons_of_mem g hg', hclose⟩

theorem exchangeInv_agentSend {id : UUID} {s t : ResponseExchange} (hinv : ExchangeInv id s)
    (f : Frame) (h : s.step id (.agentSend f) = some t) : ExchangeInv id t := by
  simp only [step] at h
  split at h
  · rename_i hmay
    cases h
    have hmay' : f.requestId ≠ id ∨
        (s.relay.handler id ≠ .absent ∧ s.closeSent = false ∧ f.type ≠ .wsData) := by
      simpa [agentMaySend] using hmay
    -- A frame that follows the CLOSE belongs to another stream.
    have hafter : s.closeSent = true → dataPayloads id [f] = [] := by
      intro hsent
      rcases hmay' with hne | ⟨-, hopen, -⟩
      · exact dataPayloads_of_ne id f hne
      · rw [hsent] at hopen
        cases hopen
    constructor
    · intro habsent
      obtain ⟨hmem, hpending, hwire, hsent, hdelivered⟩ := hinv.unopened habsent
      have hne : f.requestId ≠ id := by
        rcases hmay' with hne | ⟨hopened, -⟩
        · exact hne
        · exact absurd habsent hopened
      refine ⟨hmem, hpending, ?_, ?_, hdelivered⟩
      · intro g hg
        rcases List.mem_append.mp hg with hg | hg
        · exact hwire g hg
        · rw [List.mem_singleton.mp hg]
          exact hne
      · simp [hsent, dataPayloads_of_ne id f hne]
    · intro hserving
      have haccount := hinv.account hserving
      rw [dataPayloads_append, ← List.append_assoc, haccount]
    · exact hinv.table
    · exact hinv.closed
    · exact hinv.consistent
    · exact closeLast_concat id s.wire f hinv.ordered fun hclose => hafter (hinv.closeSent (.inr hclose))
    · intro g hg hid
      rcases List.mem_append.mp hg with hg | hg
      · exact hinv.typed g hg hid
      · rw [List.mem_singleton.mp hg] at hid ⊢
        rcases hmay' with hne | ⟨-, -, htype⟩
        · exact absurd hid hne
        · exact htype
    · rintro (hreceived | ⟨g, hg, hclose⟩)
      · simp [hinv.closeSent (.inl hreceived)]
      · rcases List.mem_append.mp hg with hg | hg
        · simp [hinv.closeSent (.inr ⟨g, hg, hclose⟩)]
        · rw [List.mem_singleton.mp hg] at hclose
          simp [hclose]
    · intro hreceived
      obtain ⟨hpending, hwire⟩ := hinv.nothingLeft hreceived
      refine ⟨hpending, ?_⟩
      rw [dataPayloads_append, hwire, hafter (hinv.closeSent (.inl hreceived))]
      rfl
    · exact hinv.getTask
    · intro hfinished
      obtain ⟨hended, hreceived, hdelivered⟩ := hinv.finished hfinished
      refine ⟨hended, hreceived, ?_⟩
      simp [hdelivered, hafter (hinv.closeSent (.inl hreceived))]
  · cases h

theorem ExchangeInv.tail {id : UUID} {s : ResponseExchange} (hinv : ExchangeInv id s) (f : Frame)
    (rest : List Frame) (hwire : s.wire = f :: rest) (hdata : dataPayloads id [f] = []) :
    ExchangeInv id { s with wire := rest } := by
  have hsame : dataPayloads id s.wire = dataPayloads id rest := by
    rw [hwire, ← List.singleton_append, dataPayloads_append, hdata]
    rfl
  have hsub : ∀ g ∈ rest, g ∈ s.wire := by
    intro g hg
    rw [hwire]
    exact List.mem_cons_of_mem f hg
  have hordered := hinv.ordered
  rw [hwire] at hordered
  constructor
  · intro habsent
    obtain ⟨hmem, hpending, hframes, hrest⟩ := hinv.unopened habsent
    exact ⟨hmem, hpending, fun g hg => hframes g (hsub g hg), hrest⟩
  · intro hserving
    have haccount := hinv.account hserving
    rw [hsame] at haccount
    exact haccount
  · exact hinv.table
  · exact hinv.closed
  · exact hinv.consistent
  · exact hordered.2
  · exact fun g hg => hinv.typed g (hsub g hg)
  · rintro (hreceived | ⟨g, hg, hclose⟩)
    · exact hinv.closeSent (.inl hreceived)
    · exact hinv.closeSent (.inr ⟨g, hsub g hg, hclose⟩)
  · intro hreceived
    obtain ⟨hpending, hnone⟩ := hinv.nothingLeft hreceived
    exact ⟨hpending, hsame ▸ hnone⟩
  · exact hinv.getTask
  · exact hinv.finished

theorem exchangeInv_data {id : UUID} {s : ResponseExchange} (hinv : ExchangeInv id s) (f : Frame)
    (rest : List Frame) (hwire : s.wire = f :: rest) (hloop : s.relay.conn.receiveLoop = .receiving)
    (hid : f.requestId = id) (htype : f.type = .data) :
    ExchangeInv id { s with
      relay := { s.relay with conn := s.relay.conn.dispatchFrame f }, wire := rest } := by
  have hcons : dataPayloads id s.wire = f.payload :: dataPayloads id rest := by
    rw [hwire, dataPayloads_cons]
    simp [hid, htype]
  have hcarries : f.type.carriesData = true := by simp [htype, FrameType.carriesData]
  have hnotReceived : s.closeReceived = false := by
    by_contra hreceived
    have hnone := (hinv.nothingLeft (by simpa using hreceived)).2
    rw [hcons] at hnone
    cases hnone
  have hopened : s.relay.handler id ≠ .absent := by
    intro habsent
    obtain ⟨-, -, hframes, -⟩ := hinv.unopened habsent
    exact hframes f (by simp [hwire]) hid
  have hput : (s.relay.handler id).serving = true → id ∈ s.relay.conn.streams ∧
      s.relay.conn.dispatchFrame f = s.relay.conn.putPayload id f.payload := by
    intro hserving
    have hmem : id ∈ s.relay.conn.streams := by
      apply hinv.table hserving
      by_contra hclosed
      have hreceived := hinv.closed hserving (by simpa using hclosed)
      rw [hnotReceived] at hreceived
      cases hreceived
    subst hid
    exact ⟨hmem, dispatchFrame_put s.relay.conn f hcarries hmem⟩
  have hsub : ∀ g ∈ rest, g ∈ s.wire := by
    intro g hg
    rw [hwire]
    exact List.mem_cons_of_mem f hg
  have hordered := hinv.ordered
  rw [hwire] at hordered
  constructor
  · exact fun habsent => absurd habsent hopened
  · intro hserving
    have haccount := hinv.account hserving
    rw [hcons] at haccount
    have hbuffered : (s.relay.conn.dispatchFrame f).buffered id =
        s.relay.conn.buffered id ++ [f.payload] := by
      rw [(hput hserving).2, putPayload_buffered]
      simp [buffered, pendingPut_of_receiving s.relay.conn id hloop]
    simpa [hbuffered] using haccount
  · intro hserving _
    obtain ⟨hmem, hdispatch⟩ := hput hserving
    simpa [hdispatch] using hmem
  · intro hserving hclosed
    simp only [(hput hserving).2, putPayload_closed] at hclosed
    exact hinv.closed hserving hclosed
  · intro iter hiter
    obtain ⟨hfin, hconsistent⟩ := hinv.consistent iter hiter
    have hdispatch := (hput (ProxyPc.serving_of_bodyIter _ iter hiter)).2
    refine ⟨hfin, hconsistent.mono ?_ (fun hdone => absurd hdone hfin)⟩
    intro hclosed
    simpa [hdispatch, putPayload_closed] using hclosed
  · exact hordered.2
  · exact fun g hg => hinv.typed g (hsub g hg)
  · rintro (hreceived | ⟨g, hg, hclose⟩)
    · exact hinv.closeSent (.inl hreceived)
    · exact hinv.closeSent (.inr ⟨g, hsub g hg, hclose⟩)
  · intro hreceived
    rw [hnotReceived] at hreceived
    cases hreceived
  · exact hinv.getTask
  · exact hinv.finished

theorem exchangeInv_ends {id : UUID} {s : ResponseExchange} (hinv : ExchangeInv id s) (f : Frame)
    (hends : f.type.endsStream = true)
    (hclosed : f.requestId = id → (s.relay.handler id).serving = true →
      (s.relay.conn.states id).closed = true) :
    ExchangeInv id { s with relay := { s.relay with conn := s.relay.conn.dispatchFrame f } } := by
  obtain ⟨hstreams, hrecv, hstates⟩ := dispatchFrame_end_frame s.relay.conn f hends
  have hpending : (s.relay.conn.dispatchFrame f).pendingPut id = s.relay.conn.pendingPut id := by
    simp [pendingPut, hrecv]
  apply hinv.of_relay
  · rfl
  · exact fun hget => hget
  · exact fun hnone => hpending.trans hnone
  · simp [hstreams]
  · intro hserving
    refine ⟨?_, ?_, ?_⟩
    · simp [buffered, hpending, (hstates id).1]
    · rw [(hstates id).2]
      by_cases hid : id = f.requestId
      · simp [hclosed hid.symm hserving]
      · simp [hid]
    · simp [hstreams]

/-- The CLOSE of the agent: nothing comes after it, and the receive loop holds nothing back. -/
theorem exchangeInv_close {id : UUID} {s : ResponseExchange} (hinv : ExchangeInv id s) (f : Frame)
    (rest : List Frame) (hwire : s.wire = f :: rest) (hloop : s.relay.conn.receiveLoop = .receiving)
    (hclose : isClose id f = true) :
    ExchangeInv id { s with
      relay := { s.relay with conn := s.relay.conn.dispatchFrame f }
      wire := rest
      closeReceived := true } := by
  have htype : f.type = .close ∧ f.requestId = id := by simpa [isClose] using hclose
  obtain ⟨hstreams, hrecv, hstates⟩ := dispatchFrame_end_frame s.relay.conn f
    (by simp [htype.1, FrameType.endsStream])
  have hpending : (s.relay.conn.dispatchFrame f).pendingPut id = [] := by
    simp [pendingPut, hrecv, hloop]
  have hbuffered : (s.relay.conn.dispatchFrame f).buffered id = s.relay.conn.buffered id := by
    simp [buffered, hpending, (hstates id).1, pendingPut_of_receiving s.relay.conn id hloop]
  have htail := hinv.tail f rest hwire (by simp [dataPayloads, htype.1])
  have hordered := hinv.ordered
  rw [hwire] at hordered
  have hsent : s.closeSent = true := hinv.closeSent (.inr ⟨f, by simp [hwire], hclose⟩)
  constructor
  · intro habsent
    obtain ⟨-, -, hframes, -⟩ := hinv.unopened habsent
    exact absurd htype.2 (hframes f (by simp [hwire]))
  · intro hserving
    have haccount := htail.account hserving
    simpa [hbuffered] using haccount
  · intro hserving hopen
    have hopen' : (s.relay.conn.states id).closed = false := by
      simpa [(hstates id).2] using (Bool.or_eq_false_iff.mp ((hstates id).2 ▸ hopen)).1
    simpa [hstreams] using hinv.table hserving hopen'
  · exact fun _ _ => rfl
  · intro iter hiter
    obtain ⟨hfin, hconsistent⟩ := hinv.consistent iter hiter
    refine ⟨hfin, hconsistent.mono ?_ (fun hdone => absurd hdone hfin)⟩
    intro hclosed
    simp [(hstates id).2, hclosed]
  · exact hordered.2
  · exact htail.typed
  · exact fun _ => hsent
  · exact fun _ => ⟨hpending, hordered.1 hclose⟩
  · exact hinv.getTask
  · intro hfinished
    obtain ⟨hended, -, hdelivered⟩ := hinv.finished hfinished
    exact ⟨hended, rfl, hdelivered⟩

theorem exchangeInv_receive {id : UUID} {s t : ResponseExchange} (hinv : ExchangeInv id s)
    (f : Frame) (hcond : ¬ s.Interrupts id (.relay (.receive f)))
    (h : s.step id (.relay (.receive f)) = some t) : ExchangeInv id t := by
  simp only [step] at h
  split at h
  · rename_i hhead
    obtain ⟨relay, hstep, rfl⟩ := Option.map_eq_some_iff.mp h
    obtain ⟨rest, hwire⟩ : ∃ rest, s.wire = f :: rest := by
      cases hs : s.wire with
      | nil => simp [hs] at hhead
      | cons g rest =>
          rw [hs, List.head?_cons] at hhead
          cases hhead
          exact ⟨rest, rfl⟩
    have htail : s.wire.tail = rest := by simp [hwire]
    simp only [htail]
    have hrun := hstep
    simp only [RelayTunnel.step] at hstep
    split at hstep
    · rename_i hloop
      by_cases hid : f.requestId = id
      · cases hstep
        by_cases hclose : isClose id f = true
        · simpa [hclose] using exchangeInv_close hinv f rest hwire hloop hclose
        · simp only [hclose, Bool.or_false]
          have hnot : f.type ≠ .close := by
            intro htype
            exact hclose (by simp [isClose, htype, hid])
          by_cases hends : f.type.endsStream = true
          · have hdata : dataPayloads id [f] = [] := by
              cases ht : f.type <;> simp [dataPayloads, ht]
              simp [ht, FrameType.endsStream] at hends
            refine exchangeInv_ends (hinv.tail f rest hwire hdata) f hends ?_
            intro _ hserving
            by_contra hopen
            exact hcond ⟨hid, hends, hnot, hserving, by simpa using hopen⟩
          · by_cases htype : f.type = .data
            · exact exchangeInv_data hinv f rest hwire hloop hid htype
            · have hquiet : s.relay.conn.dispatchFrame f = s.relay.conn := by
                have hws := hinv.typed f (by simp [hwire]) hid
                cases ht : f.type <;> simp_all [dispatchFrame, FrameType.carriesData]
              rw [hquiet]
              exact hinv.tail f rest hwire (by simp [dataPayloads, htype])
      · have hnot : isClose id f = false := by simp [isClose, hid]
        simp only [hnot, Bool.or_false]
        have hother := hinv.tail f rest hwire (dataPayloads_of_ne id f hid)
        exact hother.untouched (RelayTunnel.step_untouched s.relay relay (.receive f) id hrun hid)
    · cases hstep
  · cases h

theorem exchangeInv_handler {id : UUID} {s t : ResponseExchange} (hinv : ExchangeInv id s)
    (e : ProxyEvent) (h : s.step id (.relay (.handler id e)) = some t) : ExchangeInv id t := by
  obtain ⟨relay, hrelay, rfl⟩ := Option.map_eq_some_iff.mp h
  obtain ⟨⟨conn, pc⟩, hstep, rfl⟩ := Option.map_eq_some_iff.mp hrelay
  simp only [if_true]
  have htouches := proxyStep_touches s.relay.conn conn id _ pc e hstep
  have hpending : conn.pendingPut id = s.relay.conn.pendingPut id := by
    simp [pendingPut, htouches.receiveLoop]
  have hclosed := htouches.closed id
  have hopened := proxyStep_opened s.relay.conn conn id _ pc e hstep
  have hconsistent : ∀ iter, (s.relay.handler id).bodyIter = some iter →
      s.relay.conn.IterConsistent id iter := fun iter hiter => (hinv.consistent iter hiter).2
  -- The body has not finished before: its handler would have ended.
  have hrunning : s.bodyFinished = false := by
    by_contra hfinished
    obtain ⟨hended, -, -⟩ := hinv.finished (by simpa using hfinished)
    rw [hended] at hstep
    cases e <;> cases hstep
  have hserves : pc.serving = true ∨ finishesBody s.relay.conn id (s.relay.handler id) e = true →
      ServingStep s.relay.conn conn id (s.relay.handler id) pc
        ((s.relay.handler id).unpassed s.chunk)
        (passedOn s.relay.conn id s.chunk (s.relay.handler id) e)
        (pc.unpassed (chunkInHand s.relay.conn id (s.relay.handler id) e)) ∧
      (s.relay.handler id).serving = true := by
    intro hnext
    have hserving : (s.relay.handler id).serving = true := by
      rcases hnext with hserving | hfin
      · by_contra hnot
        have hnever := proxyStep_notServing s.relay.conn conn id _ pc e hstep (by simpa using hnot)
        rw [hserving] at hnever
        cases hnever
      · exact (proxyStep_finishesBody s.relay.conn conn id _ pc e hstep hfin hconsistent).1
    exact ⟨proxyStep_serving s.relay.conn conn id _ pc e s.chunk hstep hserving hnext, hserving⟩
  have haccount : pc.serving = true ∨
      finishesBody s.relay.conn id (s.relay.handler id) e = true →
      s.delivered ++ passedOn s.relay.conn id s.chunk (s.relay.handler id) e ++
        (pc.unpassed (chunkInHand s.relay.conn id (s.relay.handler id) e) ++ conn.buffered id) ++
        dataPayloads id s.wire = s.sent := by
    intro hnext
    obtain ⟨hserve, hserving⟩ := hserves hnext
    rw [← hinv.account hserving, hserve.account]
    simp
  constructor
  · intro habsent
    exact absurd (by simpa using habsent) hopened
  · intro hserving
    have hpc : pc.serving = true := by simpa using hserving
    simpa using haccount (.inl hpc)
  · intro hserving hopen
    have hpc : pc.serving = true := by simpa using hserving
    obtain ⟨hserve, hbefore⟩ := hserves (.inl hpc)
    rw [hclosed] at hopen
    show id ∈ conn.streams
    rw [hserve.streams hpc]
    exact hinv.table hbefore hopen
  · intro hserving hset
    have hpc : pc.serving = true := by simpa using hserving
    rw [hclosed] at hset
    exact hinv.closed (hserves (.inl hpc)).2 hset
  · intro iter hiter
    have hiter' : pc.bodyIter = some iter := by simpa using hiter
    obtain ⟨hserve, -⟩ := hserves (.inl (ProxyPc.serving_of_bodyIter pc iter hiter'))
    exact hserve.consistent hinv.consistent iter hiter'
  · exact hinv.ordered
  · exact hinv.typed
  · exact hinv.closeSent
  · intro hreceived
    obtain ⟨hnone, hwire⟩ := hinv.nothingLeft hreceived
    exact ⟨hpending.trans hnone, hwire⟩
  · intro hget
    have hleaves : leavesGetTask (s.relay.handler id) e = true ∨
        s.relay.handler id = .leaving ∨ s.relay.handler id = .ended := by
      rcases Bool.or_eq_true_iff.mp (by simpa using hget) with htask | hleave
      · exact .inr (hinv.getTask htask)
      · exact .inl hleave
    simpa using proxyStep_leaves s.relay.conn conn id _ pc e hstep hleaves
  · intro hfinished
    have hfin : finishesBody s.relay.conn id (s.relay.handler id) e = true := by
      simpa [hrunning] using hfinished
    obtain ⟨hserving, hended, hset, hempty⟩ :=
      proxyStep_finishesBody s.relay.conn conn id _ pc e hstep hfin hconsistent
    have hreceived : s.closeReceived = true := by
      rw [hclosed] at hset
      exact hinv.closed hserving hset
    obtain ⟨hnone, hwire⟩ := hinv.nothingLeft hreceived
    refine ⟨by simp [hended], hreceived, ?_⟩
    have hall := haccount (.inr hfin)
    have hbuffered : conn.buffered id = [] := by simp [buffered, hempty, hpending, hnone]
    simpa [hended, ProxyPc.unpassed, hbuffered, hwire] using hall

theorem exchangeInv_openStream {id : UUID} {s : ResponseExchange} {relay : RelayTunnel}
    (hinv : ExchangeInv id s) (isWebSocket : Bool)
    (h : s.relay.step (.openStream id isWebSocket) = some relay) :
    ExchangeInv id { s with relay := relay } := by
  simp only [RelayTunnel.step] at h
  split at h
  · rename_i habsent
    obtain ⟨-, hpending, hframes, hsent, hdelivered⟩ := hinv.unopened habsent
    have hrunning : s.bodyFinished ≠ true := by
      intro hfinished
      have hended := (hinv.finished hfinished).1
      rw [habsent] at hended
      cases hended
    have hnoTask : s.relay.getTask id ≠ true := by
      intro hget
      have hgone := hinv.getTask hget
      simp [habsent] at hgone
    have hnone : dataPayloads id s.wire = [] := by
      simp only [dataPayloads, List.filterMap_eq_nil_iff]
      intro f hf
      simp [hframes f hf]
    split at h
    · rename_i conn hopen
      cases h
      obtain ⟨hfresh, -, hstreams, hkeep⟩ := openStream_cases s.relay.conn conn id hopen
      have hpending' : conn.pendingPut id = [] := by
        rw [← hpending]
        simp [pendingPut, hkeep]
      have hiter : ∀ iter, (if isWebSocket then ProxyPc.wsOpening else .sendingRequest).bodyIter ≠
          some iter := by
        cases isWebSocket <;> simp [ProxyPc.bodyIter]
      constructor
      · intro hnot
        cases isWebSocket <;> simp at hnot
      · intro _
        cases isWebSocket <;>
          simp [hsent, hdelivered, hnone, buffered, hpending', hfresh, StreamState.fresh,
            ProxyPc.unpassed]
      · intro _ _
        simp [hstreams]
      · intro _ hclosed
        simp [hfresh, StreamState.fresh] at hclosed
      · intro iter hbody
        exact absurd (by simpa using hbody) (hiter iter)
      · exact hinv.ordered
      · exact hinv.typed
      · exact hinv.closeSent
      · exact fun hreceived => ⟨hpending', (hinv.nothingLeft hreceived).2⟩
      · exact fun hget => absurd hget hnoTask
      · exact fun hfinished => absurd hfinished hrunning
    · cases h
      constructor
      · intro hnot
        simp at hnot
      · intro hserving
        simp [ProxyPc.serving] at hserving
      · intro hserving
        simp [ProxyPc.serving] at hserving
      · intro hserving
        simp [ProxyPc.serving] at hserving
      · intro iter hbody
        simp [ProxyPc.bodyIter] at hbody
      · exact hinv.ordered
      · exact hinv.typed
      · exact hinv.closeSent
      · exact hinv.nothingLeft
      · exact fun hget => absurd hget hnoTask
      · exact fun hfinished => absurd hfinished hrunning
  · cases h

/-- A `get_task` that an abandoned iterator left behind takes nothing from a served stream. -/
theorem exchangeInv_getTask {id : UUID} {s : ResponseExchange} {relay : RelayTunnel}
    (hinv : ExchangeInv id s) (h : s.relay.step (.getTask id) = some relay) :
    ExchangeInv id { s with relay := relay } := by
  simp only [RelayTunnel.step] at h
  split at h
  · rename_i hget
    obtain ⟨⟨p, conn⟩, ht, rfl⟩ := Option.map_eq_some_iff.mp h
    have hloop := takeItem_receiveLoop s.relay.conn conn id p ht
    apply hinv.of_relay
    · rfl
    · intro htask
      simp at htask
    · simp [pendingPut, hloop]
    · simp [takeItem_streams s.relay.conn conn id p ht]
    · intro hserving
      rcases hinv.getTask hget with hgone | hgone <;> simp [hgone, ProxyPc.serving] at hserving
  · cases h

/-- A teardown sets the event of every open stream; a served one has to have it set already. -/
theorem exchangeInv_tearDown {id : UUID} {s : ResponseExchange} (hinv : ExchangeInv id s)
    (hcond : ¬ s.Interrupts id (.relay .tearDown)) :
    ExchangeInv id { s with relay := { s.relay with conn := s.relay.conn.tearDown } } := by
  obtain ⟨hloop, hqueue⟩ := tearDown_frame s.relay.conn
  have hpending : s.relay.conn.tearDown.pendingPut id = s.relay.conn.pendingPut id := by
    simp [pendingPut, hloop]
  by_cases hdown : s.relay.conn.closed = true
  · have hsame : s.relay.conn.tearDown = s.relay.conn := by simp [tearDown, hdown]
    rw [hsame]
    exact hinv
  · have hset : (s.relay.handler id).serving = true → (s.relay.conn.states id).closed = true := by
      intro hserving
      by_contra hopen
      exact hcond ⟨by simpa using hdown, hserving, by simpa using hopen⟩
    apply hinv.of_relay
    · rfl
    · exact fun hget => hget
    · exact fun hnone => hpending.trans hnone
    · simp [tearDown, hdown]
    · intro hserving
      refine ⟨?_, ?_, ?_⟩
      · simp [buffered, hpending, hqueue id]
      · simp only [tearDown, hdown, if_false, Bool.false_eq_true]
        split <;> simp [hset hserving]
      · intro hopen
        rw [hset hserving] at hopen
        cases hopen

theorem exchangeInv_step (id : UUID) (s : ResponseExchange) (a : ExchangeAction)
    (t : ResponseExchange) (hinv : ExchangeInv id s) (hcond : ¬ s.Interrupts id a)
    (h : s.step id a = some t) : ExchangeInv id t := by
  cases a with
  | agentSend f => exact exchangeInv_agentSend hinv f h
  | relay a =>
      cases a with
      | receive f => exact exchangeInv_receive hinv f hcond h
      | handler id' e =>
          by_cases hid : id' = id
          · subst hid
            exact exchangeInv_handler hinv e h
          · obtain ⟨relay, hstep, rfl⟩ := Option.map_eq_some_iff.mp h
            simp only [hid, if_false]
            exact hinv.untouched (RelayTunnel.step_untouched s.relay relay _ id hstep hid)
      | openStream id' isWebSocket =>
          obtain ⟨relay, hstep, rfl⟩ := Option.map_eq_some_iff.mp h
          by_cases hid : id' = id
          · subst hid
            exact exchangeInv_openStream hinv isWebSocket hstep
          · exact hinv.untouched (RelayTunnel.step_untouched s.relay relay _ id hstep hid)
      | resumePut =>
          obtain ⟨relay, hstep, rfl⟩ := Option.map_eq_some_iff.mp h
          exact hinv.untouched (RelayTunnel.step_untouched s.relay relay _ id hstep trivial)
      | getTask id' =>
          obtain ⟨relay, hstep, rfl⟩ := Option.map_eq_some_iff.mp h
          by_cases hid : id' = id
          · subst hid
            exact exchangeInv_getTask hinv hstep
          · exact hinv.untouched (RelayTunnel.step_untouched s.relay relay _ id hstep hid)
      | tearDown =>
          cases h
          exact exchangeInv_tearDown hinv hcond

/-- As long as the closed event of a served stream is set by a CLOSE frame only, a body that
finishes is complete. -/
theorem finishedBody_complete (id : UUID) (acts : List ExchangeAction) (s : ResponseExchange)
    (hcond : TransitionSystem.Guarded (step id) (fun s a => ¬ s.Interrupts id a) init acts)
    (hrun : TransitionSystem.run (step id) init acts = some s) : s.Complete := by
  have hinv : ExchangeInv id s :=
    TransitionSystem.run_invariant_of_guarded (step id) (fun s a => ¬ s.Interrupts id a)
      (ExchangeInv id) (exchangeInv_step id) (exchangeInv_init id) hcond hrun
  intro hfinished
  exact (hinv.finished hfinished).2

/-- A download of two chunks. The tunnel goes down after the CLOSE, while the generator still
drains. -/
def orderlyDownload : List ExchangeAction :=
  [.relay (.openStream 1 false), .relay (.handler 1 .sent), .agentSend ⟨.data, 1, [123, 125]⟩,
    .agentSend ⟨.data, 1, [7]⟩, .agentSend ⟨.data, 1, [8]⟩, .agentSend ⟨.close, 1, []⟩,
    .relay (.receive ⟨.data, 1, [123, 125]⟩), .relay (.handler 1 (.firstByte .other)),
    .relay (.handler 1 .startBody), .relay (.receive ⟨.data, 1, [7]⟩),
    .relay (.receive ⟨.data, 1, [8]⟩), .relay (.receive ⟨.close, 1, []⟩), .relay .tearDown,
    .relay (.handler 1 (.iter .closedTask)), .relay (.handler 1 (.iter .resume)),
    .relay (.handler 1 .connected), .relay (.handler 1 (.iter .next)),
    .relay (.handler 1 .connected), .relay (.handler 1 (.iter .next))]

theorem finishedBody_complete_orderly :
    ∃ s, TransitionSystem.run (step 1) init orderlyDownload = some s ∧ s.bodyFinished = true ∧
      s.delivered = [[123, 125], [7], [8]] ∧ s.Complete := by
  have hguard : TransitionSystem.Guarded (step 1) (fun s a => ¬ s.Interrupts 1 a) init
      orderlyDownload := by
    decide +kernel
  have heval : (TransitionSystem.run (step 1) init orderlyDownload).any (fun s =>
      decide (s.bodyFinished = true ∧ s.delivered = [[123, 125], [7], [8]])) = true := by
    decide +kernel
  obtain ⟨s, hrun, hs⟩ := (Option.any_eq_true _ _).mp heval
  obtain ⟨hfinished, hdelivered⟩ := of_decide_eq_true hs
  exact ⟨s, hrun, hfinished, hdelivered, finishedBody_complete 1 orderlyDownload s hguard hrun⟩

/-- The same download, with the heartbeat giving up before the second chunk has arrived. -/
def interruptedDownload : List ExchangeAction :=
  [.relay (.openStream 1 false), .relay (.handler 1 .sent), .agentSend ⟨.data, 1, [123, 125]⟩,
    .agentSend ⟨.data, 1, [7]⟩, .agentSend ⟨.data, 1, [8]⟩,
    .relay (.receive ⟨.data, 1, [123, 125]⟩), .relay (.handler 1 (.firstByte .other)),
    .relay (.handler 1 .startBody), .relay (.receive ⟨.data, 1, [7]⟩), .relay .tearDown,
    .relay (.handler 1 (.iter .closedTask)), .relay (.handler 1 (.iter .resume)),
    .relay (.handler 1 .connected), .relay (.handler 1 (.iter .next))]

/-- The body of the response ends normally, without a CLOSE and without its last chunk. -/
theorem interruptedDownload_truncated :
    ∃ s, TransitionSystem.run (step 1) init interruptedDownload = some s ∧
      s.sent = [[123, 125], [7], [8]] ∧ s.delivered = [[123, 125], [7]] ∧ ¬ s.Complete := by
  have heval : (TransitionSystem.run (step 1) init interruptedDownload).any (fun s =>
      decide (s.bodyFinished = true ∧ s.closeReceived = false ∧
        s.sent = [[123, 125], [7], [8]] ∧ s.delivered = [[123, 125], [7]])) = true := by
    decide +kernel
  obtain ⟨s, hrun, hs⟩ := (Option.any_eq_true _ _).mp heval
  obtain ⟨hfinished, hreceived, hsent, hdelivered⟩ := of_decide_eq_true hs
  refine ⟨s, hrun, hsent, hdelivered, ?_⟩
  intro hcomplete
  have hclose := (hcomplete hfinished).1
  rw [hreceived] at hclose
  cases hclose

end ResponseExchange

end NetworkFileServer.Relay
