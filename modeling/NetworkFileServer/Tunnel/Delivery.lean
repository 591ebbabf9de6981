import NetworkFileServer.Framework.TransitionSystem
import NetworkFileServer.Tunnel.ReadStream

/-!
# Delivery of response streams

The receive loop and the consumers of any number of open streams, interleaved in every order. A
consumer calls `read_stream` and then iterates `read_stream_iter`, as the proxy does. What arrives
from the peer is a list of frames; `delivered` records what each consumer was given.
-/

namespace NetworkFileServer.Tunnel

open TunnelConnection

inductive ConsumerPc where
  | idle
  /-- In `await asyncio.wait_for(state.queue.get(), timeout=timeout_s)`. -/
  | reading
  | iterating (pc : IterPc)
  /-- After a `StreamNotFoundError` or a `FirstByteTimeoutError`. -/
  | failed
deriving DecidableEq

def ConsumerPc.held : ConsumerPc → List Bytes
  | .iterating pc => pc.held
  | .idle | .reading | .failed => []

structure DeliveryState where
  conn : TunnelConnection
  incoming : List Frame
  consumer : UUID → ConsumerPc
  delivered : UUID → List Bytes

inductive DeliveryAction where
  | receive
  | resumePut
  | readStream (id : UUID)
  | firstByte (id : UUID)
  | firstByteTimeout (id : UUID)
  | readStreamIter (id : UUID)
  | iter (id : UUID) (e : IterEvent)

namespace DeliveryState

def start (conn : TunnelConnection) (frames : List Frame) : DeliveryState :=
  ⟨conn, frames, fun _ => .idle, fun _ => []⟩

/-- Consumer `id` moves to `pc` and is given `out`. -/
def advance (s : DeliveryState) (id : UUID) (conn : TunnelConnection) (pc : ConsumerPc)
    (out : List Bytes) : DeliveryState :=
  { s with
    conn := conn
    consumer := Function.update s.consumer id pc
    delivered := Function.update s.delivered id (s.delivered id ++ out) }

/-- `state = self.get_stream(request_id)` at the head of both readers. -/
def enter (s : DeliveryState) (id : UUID) (pc : ConsumerPc) : DeliveryState :=
  match s.conn.getStream id with
  | .ok _ => s.advance id s.conn pc []
  | .error _ => s.advance id s.conn .failed []

def step (s : DeliveryState) : DeliveryAction → Option DeliveryState
  | .receive =>
      match s.conn.receiveLoop, s.incoming with
      | .receiving, f :: rest =>
          some { s with conn := s.conn.dispatchFrame f, incoming := rest }
      | _, _ => none
  | .resumePut => s.conn.resumePut.map fun conn => { s with conn := conn }
  | .readStream id => if s.consumer id = .idle then some (s.enter id .reading) else none
  | .firstByte id =>
      if s.consumer id = .reading then
        (s.conn.takeItem id).map fun (p, conn) => s.advance id conn .idle [p]
      else none
  | .firstByteTimeout id =>
      if s.consumer id = .reading then some (s.advance id s.conn .failed []) else none
  | .readStreamIter id =>
      if s.consumer id = .idle then some (s.enter id (.iterating (.waiting none false))) else none
  | .iter id e =>
      match s.consumer id with
      | .iterating pc =>
          (s.conn.iterStep id pc e).map fun (conn, pc', out) =>
            s.advance id conn (.iterating pc') out.toList
      | _ => none

end DeliveryState

/-- Each stream's CLOSE comes after its DATA frames. -/
def CloseAfterData : List Frame → Prop
  | [] => True
  | f :: fs => (f.type = .close → dataPayloads f.requestId fs = []) ∧ CloseAfterData fs

def HasClose (id : UUID) (frames : List Frame) : Prop :=
  ∃ f ∈ frames, f.type = .close ∧ f.requestId = id

/-- Only DATA and CLOSE frames of the given streams. -/
def WellAddressed (ids : List UUID) (frames : List Frame) : Prop :=
  ∀ f ∈ frames, (f.type = .data ∨ f.type = .close) ∧ f.requestId ∈ ids

/-- The invariant of a run: for every stream, what was given to the consumer, what it holds, what
is buffered and what has not arrived yet make up the payloads of the peer. -/
structure DeliveryInv (ids : List UUID) (frames : List Frame) (s : DeliveryState) : Prop where
  addressed : WellAddressed ids s.incoming
  ordered : CloseAfterData s.incoming
  account : ∀ id ∈ ids, s.delivered id ++ ((s.consumer id).held ++ s.conn.buffered id) ++
    dataPayloads id s.incoming = dataPayloads id frames
  closed : ∀ id ∈ ids, (s.conn.states id).closed = true →
    s.conn.pendingPut id = [] ∧ dataPayloads id s.incoming = []
  closeSeen : ∀ id ∈ ids, HasClose id frames →
    HasClose id s.incoming ∨ (s.conn.states id).closed = true
  consistent : ∀ id ∈ ids, ∀ pc, s.consumer id = .iterating pc → s.conn.IterConsistent id pc
  table : ∀ id ∈ ids, id ∈ s.conn.streams ↔ s.consumer id ≠ .iterating .finished
  loop : s.conn.receiveLoop = .receiving ∨ ∃ id ∈ ids, ∃ p, s.conn.receiveLoop = .putting id p

theorem deliveryInv_start (conn : TunnelConnection) (frames : List Frame)
    (hfresh : ∀ id ∈ conn.streams, conn.states id = .fresh)
    (hloop : conn.receiveLoop = .receiving) (haddr : WellAddressed conn.streams frames)
    (hord : CloseAfterData frames) :
    DeliveryInv conn.streams frames (.start conn frames) where
  addressed := haddr
  ordered := hord
  account := by
    intro id hid
    simp [DeliveryState.start, ConsumerPc.held, buffered, pendingPut_of_receiving conn id hloop,
      hfresh id hid, StreamState.fresh]
  closed := by
    intro id hid hc
    simp [DeliveryState.start, hfresh id hid, StreamState.fresh] at hc
  closeSeen := fun _ _ h => .inl h
  consistent := by
    intro id _ pc hpc
    cases hpc
  table := by
    intro id hid
    simpa [DeliveryState.start] using hid
  loop := .inl hloop

private theorem mem_streams_of_incoming {ids : List UUID} {frames : List Frame}
    {s : DeliveryState} (hinv : DeliveryInv ids frames s) (id : UUID) (hid : id ∈ ids)
    (hdata : dataPayloads id s.incoming ≠ []) : id ∈ s.conn.streams := by
  rw [hinv.table id hid]
  intro hfin
  have hclosed := (hinv.consistent id hid _ hfin).1
  exact hdata (hinv.closed id hid hclosed).2

private theorem deliveryInv_data {ids : List UUID} {frames : List Frame} {s : DeliveryState}
    (hinv : DeliveryInv ids frames s) (f : Frame) (rest : List Frame)
    (hloop : s.conn.receiveLoop = .receiving) (hin : s.incoming = f :: rest)
    (ht : f.type = .data) (hid : f.requestId ∈ ids) :
    DeliveryInv ids frames { s with conn := s.conn.dispatchFrame f, incoming := rest } := by
  have hcons (id : UUID) : dataPayloads id s.incoming =
      (if f.requestId = id then [f.payload] else []) ++ dataPayloads id rest := by
    rw [hin, dataPayloads_cons]
    simp [ht]
  have hmem : f.requestId ∈ s.conn.streams :=
    mem_streams_of_incoming hinv f.requestId hid (by simp [hcons])
  have hopen : (s.conn.states f.requestId).closed = false := by
    by_contra hc
    have hnone := (hinv.closed f.requestId hid (by simpa using hc)).2
    simp [hcons] at hnone
  have hbuf (id : UUID) : (s.conn.dispatchFrame f).buffered id =
      s.conn.buffered id ++ if f.requestId = id then [f.payload] else [] := by
    rw [dispatchFrame_put _ f (by simp [ht, FrameType.carriesData]) hmem, putPayload_buffered]
    simp [buffered, pendingPut_of_receiving s.conn id hloop]
  have hne (id : UUID) (h : id ≠ f.requestId) :
      (s.conn.dispatchFrame f).states id = s.conn.states id := by
    rw [dispatchFrame_put _ f (by simp [ht, FrameType.carriesData]) hmem, putPayload_states_ne _ _ _ _ h]
  have hclosed (id : UUID) : ((s.conn.dispatchFrame f).states id).closed =
      (s.conn.states id).closed := by
    rw [dispatchFrame_put _ f (by simp [ht, FrameType.carriesData]) hmem, putPayload_closed]
  have hrecv := putPayload_receiveLoop s.conn f.requestId f.payload
  rw [← dispatchFrame_put _ f (by simp [ht, FrameType.carriesData]) hmem] at hrecv
  refine ⟨?_, ?_, ?_, ?_, ?_, ?_, ?_, ?_⟩
  · intro g hg
    exact hinv.addressed g (by simp [hin, hg])
  · have hord := hinv.ordered
    rw [hin] at hord
    exact hord.2
  · intro id hid'
    have hacc := hinv.account id hid'
    rw [hcons] at hacc
    simpa [hbuf] using hacc
  · intro id hid' hc
    have hc' : (s.conn.states id).closed = true := (hclosed id).symm.trans hc
    have hne' : f.requestId ≠ id := by
      intro heq
      rw [← heq, hopen] at hc'
      cases hc'
    have hold := hinv.closed id hid' hc'
    refine ⟨?_, ?_⟩
    · simp only [pendingPut, hrecv]
      split <;> rename_i hput <;> split at hput <;> cases hput
      · simp [hne']
      · rfl
    · simpa [hcons, hne'] using hold.2
  · intro id hid' hclose
    rcases hinv.closeSeen id hid' hclose with ⟨g, hg, htype, hgid⟩ | hc
    · rw [hin, List.mem_cons] at hg
      rcases hg with rfl | hg
      · rw [ht] at htype
        cases htype
      · exact .inl ⟨g, hg, htype, hgid⟩
    · exact .inr ((hclosed id).trans hc)
  · intro id hid' pc hpc
    have hold := hinv.consistent id hid' pc hpc
    apply hold.mono
    · exact (hclosed id).trans
    · intro hfin
      subst hfin
      have hset := hold.1
      have heq : id ≠ f.requestId := by
        rintro rfl
        rw [hopen] at hset
        cases hset
      rw [hne id heq]
  · intro id hid'
    have hst : (s.conn.dispatchFrame f).streams = s.conn.streams := by
      rw [dispatchFrame_put _ f (by simp [ht, FrameType.carriesData]) hmem, putPayload_streams]
    simpa only [hst] using hinv.table id hid'
  · simp only [hrecv]
    split
    · exact .inr ⟨f.requestId, hid, f.payload, rfl⟩
    · exact .inl rfl

private theorem deliveryInv_close {ids : List UUID} {frames : List Frame} {s : DeliveryState}
    (hinv : DeliveryInv ids frames s) (f : Frame) (rest : List Frame)
    (hloop : s.conn.receiveLoop = .receiving) (hin : s.incoming = f :: rest)
    (ht : f.type = .close) :
    DeliveryInv ids frames { s with conn := s.conn.dispatchFrame f, incoming := rest } := by
  have hcons (id : UUID) : dataPayloads id s.incoming = dataPayloads id rest := by
    rw [hin, dataPayloads_cons]
    simp [ht]
  have hord := hinv.ordered
  rw [hin] at hord
  obtain ⟨hstreams, hrecv, hstates⟩ :=
    dispatchFrame_end_frame s.conn f (by simp [ht, FrameType.endsStream])
  have hpend (id : UUID) : (s.conn.dispatchFrame f).pendingPut id = [] := by
    simp [pendingPut, hrecv, hloop]
  have hbuf (id : UUID) : (s.conn.dispatchFrame f).buffered id = s.conn.buffered id := by
    simp [buffered, hpend, (hstates id).1, pendingPut_of_receiving s.conn id hloop]
  have hmono (id : UUID) (hc : (s.conn.states id).closed = true) :
      ((s.conn.dispatchFrame f).states id).closed = true := by
    simp [(hstates id).2, hc]
  refine ⟨?_, hord.2, ?_, ?_, ?_, ?_, ?_, .inl (hrecv.trans hloop)⟩
  · intro g hg
    exact hinv.addressed g (by simp [hin, hg])
  · intro id hid
    have hacc := hinv.account id hid
    rw [hcons] at hacc
    simpa [hbuf] using hacc
  · intro id hid hc
    refine ⟨hpend id, ?_⟩
    by_cases heq : id = f.requestId
    · subst heq
      exact hord.1 ht
    · have hc' : (s.conn.states id).closed = true := by
        simpa [(hstates id).2, heq] using hc
      exact (hcons id).symm.trans (hinv.closed id hid hc').2
  · intro id hid hclose
    rcases hinv.closeSeen id hid hclose with ⟨g, hg, htype, hgid⟩ | hc
    · rw [hin, List.mem_cons] at hg
      rcases hg with rfl | hg
      · right
        by_cases hmem : id ∈ s.conn.streams
        · simp [(hstates id).2, hgid, hmem]
        · have hfin : s.consumer id = .iterating .finished := by
            by_contra hne
            exact hmem ((hinv.table id hid).mpr hne)
          exact hmono id (hinv.consistent id hid _ hfin).1
      · exact .inl ⟨g, hg, htype, hgid⟩
    · exact .inr (hmono id hc)
  · intro id hid pc hpc
    have hold := hinv.consistent id hid pc hpc
    exact hold.mono (hmono id) (fun _ => (hstates id).1)
  · intro id hid
    simpa [hstreams] using hinv.table id hid

private theorem deliveryInv_resumePut {ids : List UUID} {frames : List Frame}
    {s : DeliveryState} (hinv : DeliveryInv ids frames s) (conn : TunnelConnection)
    (h : s.conn.resumePut = some conn) : DeliveryInv ids frames { s with conn := conn } := by
  have hbuf := resumePut_buffered s.conn conn h
  obtain ⟨id₀, p, hloop, hroom, rfl⟩ := resumePut_cases s.conn conn h
  have hopen (hid : id₀ ∈ ids) : (s.conn.states id₀).closed = false := by
    by_contra hc
    have hnone := (hinv.closed id₀ hid (by simpa using hc)).1
    simp [pendingPut, hloop] at hnone
  refine ⟨hinv.addressed, hinv.ordered, ?_, ?_, ?_, ?_, ?_, ?_⟩
  · intro id hid
    have hacc := hinv.account id hid
    simpa [hbuf] using hacc
  · intro id hid hc
    have hc' : (s.conn.states id).closed = true := by
      rw [← putPayload_closed s.conn id₀ id p]
      exact hc
    refine ⟨?_, (hinv.closed id hid hc').2⟩
    simp [pendingPut, putPayload_receiveLoop, hroom]
  · intro id hid hclose
    rcases hinv.closeSeen id hid hclose with hin | hc
    · exact .inl hin
    · exact .inr ((putPayload_closed s.conn id₀ id p).trans hc)
  · intro id hid pc hpc
    have hold := hinv.consistent id hid pc hpc
    apply hold.mono
    · exact (putPayload_closed s.conn id₀ id p).trans
    · intro hfin
      subst hfin
      have hset := hold.1
      have hne : id ≠ id₀ := by
        rintro rfl
        rw [hopen hid] at hset
        cases hset
      exact congrArg StreamState.queue (putPayload_states_ne s.conn id₀ id p hne)
  · intro id hid
    simpa using hinv.table id hid
  · left
    simp [putPayload_receiveLoop, hroom]

/-- A move of one consumer that accounts for the items it takes and leaves the other streams and
the receive loop alone. -/
private theorem deliveryInv_advance {ids : List UUID} {frames : List Frame} {s : DeliveryState}
    (hinv : DeliveryInv ids frames s) (id : UUID) (conn : TunnelConnection) (pc : ConsumerPc)
    (out : List Bytes) (hloop : conn.receiveLoop = s.conn.receiveLoop)
    (hstates : ∀ id', id' ≠ id → conn.states id' = s.conn.states id')
    (hclosed : (conn.states id).closed = (s.conn.states id).closed)
    (hacc : (s.consumer id).held ++ s.conn.buffered id = out ++ (pc.held ++ conn.buffered id))
    (hother : ∀ id', id' ≠ id → (id' ∈ conn.streams ↔ id' ∈ s.conn.streams))
    (hself : id ∈ ids → (id ∈ conn.streams ↔ pc ≠ .iterating .finished))
    (hcons : id ∈ ids → ∀ it, pc = .iterating it → conn.IterConsistent id it) :
    DeliveryInv ids frames (s.advance id conn pc out) := by
  have hpend (id' : UUID) : conn.pendingPut id' = s.conn.pendingPut id' := by
    simp [pendingPut, hloop]
  refine ⟨hinv.addressed, hinv.ordered, ?_, ?_, ?_, ?_, ?_, ?_⟩
  · intro id' hid'
    have hold := hinv.account id' hid'
    by_cases heq : id' = id
    · subst heq
      rw [hacc] at hold
      simpa [DeliveryState.advance] using hold
    · simpa [DeliveryState.advance, heq, buffered, hpend, hstates id' heq] using hold
  · intro id' hid' hc
    have hc' : (s.conn.states id').closed = true := by
      by_cases heq : id' = id
      · subst heq
        exact hclosed.symm.trans hc
      · rw [← hstates id' heq]
        exact hc
    have hold := hinv.closed id' hid' hc'
    exact ⟨(hpend id').trans hold.1, hold.2⟩
  · intro id' hid' hclose
    rcases hinv.closeSeen id' hid' hclose with hin | hc
    · exact .inl hin
    · right
      by_cases heq : id' = id
      · subst heq
        exact hclosed.trans hc
      · simpa [DeliveryState.advance, hstates id' heq] using hc
  · intro id' hid' it hit
    by_cases heq : id' = id
    · subst heq
      exact hcons hid' it (by simpa [DeliveryState.advance] using hit)
    · have hold := hinv.consistent id' hid' it (by simpa [DeliveryState.advance, heq] using hit)
      apply hold.mono
      · rw [← hstates id' heq]
        exact fun h => h
      · intro _
        exact congrArg StreamState.queue (hstates id' heq)
  · intro id' hid'
    by_cases heq : id' = id
    · subst heq
      simpa [DeliveryState.advance] using hself hid'
    · simpa [DeliveryState.advance, heq, hother id' heq] using hinv.table id' hid'
  · change conn.receiveLoop = .receiving ∨ ∃ id' ∈ ids, ∃ p, conn.receiveLoop = .putting id' p
    rw [hloop]
    exact hinv.loop

private theorem deliveryInv_enter {ids : List UUID} {frames : List Frame} {s : DeliveryState}
    (hinv : DeliveryInv ids frames s) (id : UUID) (pc : ConsumerPc)
    (hidle : s.consumer id = .idle)
    (hpc : pc = .reading ∨ pc = .iterating (.waiting none false)) :
    DeliveryInv ids frames (s.enter id pc) := by
  have hheld : (s.consumer id).held = [] := by rw [hidle]; rfl
  have hpcHeld : pc.held = [] := by rcases hpc with rfl | rfl <;> rfl
  unfold DeliveryState.enter
  split
  · rename_i st hst
    have hmem := ((getStream_eq_ok_iff _ _ _).mp hst).1
    apply deliveryInv_advance hinv id s.conn pc [] rfl (fun _ _ => rfl) rfl
    · simp [hheld, hpcHeld]
    · exact fun _ _ => Iff.rfl
    · intro _
      rcases hpc with rfl | rfl <;> simpa using hmem
    · intro _ it hit
      rcases hpc with rfl | rfl
      · cases hit
      · cases hit
        intro hdone
        cases hdone
  · apply deliveryInv_advance hinv id s.conn .failed [] rfl (fun _ _ => rfl) rfl
    · rw [hheld]
      rfl
    · exact fun _ _ => Iff.rfl
    · intro hid
      have htable := hinv.table id hid
      simp [hidle] at htable
      simpa using htable
    · intro _ it hit
      cases hit

private theorem deliveryInv_firstByte {ids : List UUID} {frames : List Frame}
    {s : DeliveryState} (hinv : DeliveryInv ids frames s) (id : UUID) (p : Bytes)
    (conn : TunnelConnection) (hread : s.consumer id = .reading)
    (htake : s.conn.takeItem id = some (p, conn)) :
    DeliveryInv ids frames (s.advance id conn .idle [p]) := by
  have hstreams := takeItem_streams s.conn conn id p htake
  apply deliveryInv_advance hinv id conn .idle [p] (takeItem_receiveLoop s.conn conn id p htake)
    (fun id' hne => takeItem_states_ne s.conn conn id id' p htake hne)
    (takeItem_closed s.conn conn id p htake id)
  · simp [hread, ConsumerPc.held, takeItem_buffered s.conn conn id p htake]
  · intro id' _
    rw [hstreams]
  · intro hid
    simpa [hread, hstreams] using hinv.table id hid
  · intro _ it hit
    cases hit

private theorem deliveryInv_iter {ids : List UUID} {frames : List Frame} {s : DeliveryState}
    (hinv : DeliveryInv ids frames s) (id : UUID) (e : IterEvent) (pc pc' : IterPc)
    (conn : TunnelConnection) (out : Option Bytes) (hpc : s.consumer id = .iterating pc)
    (h : s.conn.iterStep id pc e = some (conn, pc', out)) :
    DeliveryInv ids frames (s.advance id conn (.iterating pc') out.toList) := by
  have hstreams := iterStep_streams s.conn conn id pc pc' e out h
  have htouches := iterStep_touches s.conn conn id pc pc' e out h
  apply deliveryInv_advance hinv id conn (.iterating pc') out.toList htouches.receiveLoop
    (fun _ hne => htouches.states_ne hne) (htouches.closed id)
  · simpa [hpc, ConsumerPc.held] using iterStep_buffered s.conn conn id pc pc' e out h
  · intro id' hne
    rw [hstreams]
    split
    · rw [s.conn.streams_nodup.mem_erase_iff]
      simp [hne]
    · rfl
  · intro hid
    have hne : pc ≠ .finished := by
      rintro rfl
      simp [iterStep] at h
    have hmem : id ∈ s.conn.streams := by
      rw [hinv.table id hid, hpc]
      simpa using hne
    rw [hstreams]
    by_cases hfin : pc' = .finished
    · simp [hfin, s.conn.streams_nodup.mem_erase_iff]
    · simp [hfin, hmem]
  · intro hid it hit
    cases hit
    exact iterStep_consistent s.conn conn id pc pc' e out h (hinv.consistent id hid pc hpc)

theorem deliveryInv_step (ids : List UUID) (frames : List Frame) (s : DeliveryState)
    (a : DeliveryAction) (t : DeliveryState) (hinv : DeliveryInv ids frames s)
    (h : s.step a = some t) : DeliveryInv ids frames t := by
  cases a with
  | receive =>
      simp only [DeliveryState.step] at h
      split at h
      · rename_i f rest hloop hin
        cases h
        have haddr := hinv.addressed f (by simp [hin])
        rcases haddr.1 with ht | ht
        · exact deliveryInv_data hinv f rest hloop hin ht haddr.2
        · exact deliveryInv_close hinv f rest hloop hin ht
      · cases h
  | resumePut =>
      obtain ⟨conn, hconn, rfl⟩ := Option.map_eq_some_iff.mp h
      exact deliveryInv_resumePut hinv conn hconn
  | readStream id =>
      simp only [DeliveryState.step] at h
      split at h
      · rename_i hidle
        cases h
        exact deliveryInv_enter hinv id .reading hidle (.inl rfl)
      · cases h
  | firstByte id =>
      simp only [DeliveryState.step] at h
      split at h
      · rename_i hread
        obtain ⟨⟨p, conn⟩, htake, rfl⟩ := Option.map_eq_some_iff.mp h
        exact deliveryInv_firstByte hinv id p conn hread htake
      · cases h
  | firstByteTimeout id =>
      simp only [DeliveryState.step] at h
      split at h
      · rename_i hread
        cases h
        apply deliveryInv_advance hinv id s.conn .failed [] rfl (fun _ _ => rfl) rfl
        · simp [hread, ConsumerPc.held]
        · exact fun _ _ => Iff.rfl
        · intro hid
          simpa [hread] using hinv.table id hid
        · intro _ it hit
          cases hit
      · cases h
  | readStreamIter id =>
      simp only [DeliveryState.step] at h
      split at h
      · rename_i hidle
        cases h
        exact deliveryInv_enter hinv id _ hidle (.inr rfl)
      · cases h
  | iter id e =>
      simp only [DeliveryState.step] at h
      split at h
      · rename_i pc hpc
        obtain ⟨⟨conn, pc', out⟩, hit, rfl⟩ := Option.map_eq_some_iff.mp h
        exact deliveryInv_iter hinv id e pc pc' conn out hpc hit
      · cases h

private theorem quiescent_consumer {ids : List UUID} {frames : List Frame} {s : DeliveryState}
    (hinv : DeliveryInv ids frames s) (hq : TransitionSystem.Quiescent DeliveryState.step s)
    (id : UUID) (hid : id ∈ ids) (hok : s.consumer id ≠ .failed) :
    (s.consumer id).held = [] ∧ (s.conn.states id).queue.items = [] ∧
      ((s.conn.states id).closed = true → s.consumer id = .iterating .finished) := by
  cases hpc : s.consumer id with
  | idle =>
      have h := hq (.readStreamIter id)
      simp [DeliveryState.step, hpc] at h
  | reading =>
      have h := hq (.firstByteTimeout id)
      simp [DeliveryState.step, hpc] at h
  | failed => exact absurd hpc hok
  | iterating pc =>
      cases pc with
      | waiting got done =>
          cases got with
          | some p =>
              have h := hq (.iter id .resume)
              simp [DeliveryState.step, hpc, iterStep] at h
          | none =>
              have hget := hq (.iter id .getTask)
              have hitems : (s.conn.states id).queue.items = [] := by
                simpa [DeliveryState.step, hpc, iterStep, takeItem_eq_none_iff] using hget
              refine ⟨rfl, hitems, ?_⟩
              intro hc
              cases done with
              | false =>
                  have h := hq (.iter id .closedTask)
                  simp [DeliveryState.step, hpc, iterStep, hc] at h
              | true =>
                  have h := hq (.iter id .resume)
                  simp [DeliveryState.step, hpc, iterStep] at h
      | yielded =>
          have h := hq (.iter id .next)
          simp only [DeliveryState.step, hpc, iterStep, Option.map_eq_none_iff] at h
          split at h <;> cases h
      | draining =>
          have h := hq (.iter id .next)
          simp [DeliveryState.step, hpc, iterStep] at h
      | finished => exact ⟨rfl, (hinv.consistent id hid _ hpc).2, fun _ => rfl⟩

private theorem quiescent_receiveLoop {ids : List UUID} {frames : List Frame}
    {s : DeliveryState} (hinv : DeliveryInv ids frames s)
    (hq : TransitionSystem.Quiescent DeliveryState.step s)
    (hok : ∀ id ∈ ids, s.consumer id ≠ .failed) :
    s.conn.receiveLoop = .receiving ∧ s.incoming = [] := by
  rcases hinv.loop with hloop | ⟨id, hid, p, hloop⟩
  · refine ⟨hloop, ?_⟩
    cases hin : s.incoming with
    | nil => rfl
    | cons f rest =>
        have h := hq .receive
        simp [DeliveryState.step, hloop, hin] at h
  · have hempty := (quiescent_consumer hinv hq id hid (hok id hid)).2.1
    have hroom : (s.conn.states id).queue.full = false := by
      simp [BoundedQueue.full, hempty, queueDepth]
    have h := hq .resumePut
    simp [DeliveryState.step, resumePut, hloop, hroom] at h

/-- In every interleaving each consumer is given the payloads of its own stream, in order and each
once. A finished iterator has given all of them and has removed the stream. If no reader failed,
the system only comes to rest once everything is delivered, and then every stream that the peer
closed is finished. -/
theorem readStream_delivery (conn : TunnelConnection) (frames : List Frame)
    (acts : List DeliveryAction) (s : DeliveryState)
    (hfresh : ∀ id ∈ conn.streams, conn.states id = .fresh)
    (hloop : conn.receiveLoop = .receiving) (haddr : WellAddressed conn.streams frames)
    (hord : CloseAfterData frames)
    (hrun : TransitionSystem.run DeliveryState.step (.start conn frames) acts = some s) :
    (∀ id ∈ conn.streams, s.delivered id <+: dataPayloads id frames) ∧
    (∀ id ∈ conn.streams, s.consumer id = .iterating .finished →
      s.delivered id = dataPayloads id frames ∧ id ∉ s.conn.streams) ∧
    (TransitionSystem.Quiescent DeliveryState.step s →
      (∀ id ∈ conn.streams, s.consumer id ≠ .failed) →
      ∀ id ∈ conn.streams, s.delivered id = dataPayloads id frames ∧
        (HasClose id frames → s.consumer id = .iterating .finished)) := by
  have hinv : DeliveryInv conn.streams frames s :=
    TransitionSystem.run_invariant DeliveryState.step _ (deliveryInv_step conn.streams frames)
      (deliveryInv_start conn frames hfresh hloop haddr hord) hrun
  refine ⟨?_, ?_, ?_⟩
  · intro id hid
    rw [← hinv.account id hid, List.append_assoc]
    exact List.prefix_append _ _
  · intro id hid hfin
    have hpc := hinv.consistent id hid _ hfin
    have hnone := hinv.closed id hid hpc.1
    have hacc := hinv.account id hid
    refine ⟨?_, ?_⟩
    · simpa [hfin, ConsumerPc.held, IterPc.held, buffered, hpc.2, hnone.1, hnone.2] using hacc
    · rw [hinv.table id hid]
      exact fun h => h hfin
  · intro hq hok id hid
    obtain ⟨hrecv, hin⟩ := quiescent_receiveLoop hinv hq hok
    obtain ⟨hheld, hitems, hclosed⟩ := quiescent_consumer hinv hq id hid (hok id hid)
    have hacc := hinv.account id hid
    refine ⟨?_, ?_⟩
    · simpa [hheld, buffered, hitems, hin, pendingPut_of_receiving s.conn id hrecv] using hacc
    · intro hclose
      rcases hinv.closeSeen id hid hclose with ⟨f, hf, -⟩ | hc
      · simp [hin] at hf
      · exact hclosed hc

/-- Two open streams. -/
def twoStreams : TunnelConnection :=
  ⟨[1, 2], fun _ => .fresh, .receiving, false, by decide, by decide⟩

/-- Two responses whose frames arrive interleaved. -/
def twoResponses : List Frame :=
  [⟨.data, 1, [10]⟩, ⟨.data, 2, [20]⟩, ⟨.data, 1, [11]⟩, ⟨.close, 1, []⟩, ⟨.close, 2, []⟩]

/-- Stream 1 is closed while its iterator still waits: the closed event wins, then the queue is
drained. -/
def twoReaders : List DeliveryAction :=
  [.readStream 1, .receive, .firstByte 1, .readStreamIter 1, .receive, .receive, .receive,
    .iter 1 .closedTask, .iter 1 .resume, .readStream 2, .firstByte 2, .iter 1 .next, .receive]

theorem readStream_delivery_twoReaders :
    ∃ s, TransitionSystem.run DeliveryState.step (.start twoStreams twoResponses) twoReaders =
        some s ∧ s.consumer 1 = .iterating .finished ∧ s.delivered 1 = [[10], [11]] ∧
        1 ∉ s.conn.streams := by
  refine ⟨_, rfl, rfl, ?_⟩
  exact (readStream_delivery twoStreams twoResponses twoReaders _ (fun _ _ => rfl) rfl
    (by simp [WellAddressed, twoResponses, twoStreams])
    (by simp [CloseAfterData, twoResponses, dataPayloads]) rfl).2.1 1 (by simp [twoStreams]) rfl

end NetworkFileServer.Tunnel
