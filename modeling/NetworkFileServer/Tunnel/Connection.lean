import Mathlib.Data.List.Basic
import Mathlib.Data.List.Nodup
import Mathlib.Logic.Function.Basic
import NetworkFileServer.Framework.BoundedQueue
import NetworkFileServer.Tunnel.Frames

/-!
# The stream table of a TunnelConnection

`TunnelConnection` multiplexes streams over one WebSocket. The table `_streams` is the list of its
keys; the `StreamState` objects are kept by identifier also after `remove_stream`, because the
consumer and a suspended `put` go on holding a reference to the object. Identifiers come from
`uuid4`, so an identifier is opened at most once.

The receive loop is a single coroutine. It is between two frames, or suspended in
`await state.queue.put(payload)` on a full queue, or it has ended.
-/

namespace NetworkFileServer.Tunnel

structure StreamState where
  queue : BoundedQueue queueDepth Bytes
  closed : Bool

def StreamState.fresh : StreamState := ⟨.empty, false⟩

inductive ReceiveLoop where
  | receiving
  | putting (id : UUID) (payload : Bytes)
  | ended
deriving DecidableEq

structure TunnelConnection where
  streams : List UUID
  states : UUID → StreamState
  receiveLoop : ReceiveLoop
  closed : Bool
  streams_nodup : streams.Nodup
  streams_le : streams.length ≤ maxStreams

/-- The errors of `tunnel/exceptions.py` that the stream table raises. -/
inductive TunnelError where
  | streamLimit (id : UUID)
  | alreadyOpen (id : UUID)
  | streamNotFound (id : UUID)
deriving DecidableEq, Repr

namespace TunnelConnection

def new : TunnelConnection :=
  ⟨[], fun _ => .fresh, .receiving, false, List.nodup_nil, Nat.zero_le _⟩

def setState (conn : TunnelConnection) (id : UUID) (st : StreamState) : TunnelConnection :=
  { conn with states := Function.update conn.states id st }

def openStream (conn : TunnelConnection) (id : UUID) : Except TunnelError TunnelConnection :=
  if hlimit : maxStreams ≤ conn.streams.length then .error (.streamLimit id)
  else if hmem : id ∈ conn.streams then .error (.alreadyOpen id)
  else
    .ok { conn.setState id .fresh with
      streams := conn.streams ++ [id]
      streams_nodup := by simpa using conn.streams_nodup.concat hmem
      streams_le := by simpa [Nat.succ_le_iff] using hlimit }

def getStream (conn : TunnelConnection) (id : UUID) : Except TunnelError StreamState :=
  if id ∈ conn.streams then .ok (conn.states id) else .error (.streamNotFound id)

def closeStream (conn : TunnelConnection) (id : UUID) : Except TunnelError TunnelConnection :=
  (conn.getStream id).map fun st => conn.setState id { st with closed := true }

def removeStream (conn : TunnelConnection) (id : UUID) : TunnelConnection :=
  { conn with
    streams := conn.streams.erase id
    streams_nodup := conn.streams_nodup.erase id
    streams_le := Nat.le_trans List.length_erase_le conn.streams_le }

/-- `await state.queue.put(payload)`: at once when there is room, else the loop is suspended. -/
def putPayload (conn : TunnelConnection) (id : UUID) (payload : Bytes) : TunnelConnection :=
  match (conn.states id).queue.put payload with
  | some q =>
      { conn.setState id { conn.states id with queue := q } with receiveLoop := .receiving }
  | none => { conn with receiveLoop := .putting id payload }

/-- `_dispatch_frame`. The `StreamNotFoundError` of a stream that is not in the table is swallowed. -/
def dispatchFrame (conn : TunnelConnection) (f : Frame) : TunnelConnection :=
  if f.type.carriesData then
    match conn.getStream f.requestId with
    | .ok _ => conn.putPayload f.requestId f.payload
    | .error _ => conn
  else if f.type.endsStream then
    match conn.closeStream f.requestId with
    | .ok conn' => conn'
    | .error _ => conn
  else conn

/-- The event loop wakes the suspended `put` once its queue has room. -/
def resumePut (conn : TunnelConnection) : Option TunnelConnection :=
  match conn.receiveLoop with
  | .putting id payload =>
      if (conn.states id).queue.full then none else some (conn.putPayload id payload)
  | .receiving | .ended => none

/-- `_tear_down`: signal every stream of the table and clear it. -/
def tearDown (conn : TunnelConnection) : TunnelConnection :=
  if conn.closed then conn
  else
    { conn with
      closed := true
      states := fun id =>
        if id ∈ conn.streams then { conn.states id with closed := true } else conn.states id
      streams := []
      streams_nodup := List.nodup_nil
      streams_le := Nat.zero_le _ }

/-- `state.queue.get()` completing, by whichever coroutine holds the stream object. -/
def takeItem (conn : TunnelConnection) (id : UUID) : Option (Bytes × TunnelConnection) :=
  (conn.states id).queue.get.map fun (p, q) =>
    (p, conn.setState id { conn.states id with queue := q })

/-- The payload that the receive loop still holds for a stream. -/
def pendingPut (conn : TunnelConnection) (id : UUID) : List Bytes :=
  match conn.receiveLoop with
  | .putting id' p => if id' = id then [p] else []
  | .receiving | .ended => []

/-- Everything that was dispatched to a stream and not yet taken from it. -/
def buffered (conn : TunnelConnection) (id : UUID) : List Bytes :=
  (conn.states id).queue.items ++ conn.pendingPut id

@[simp] theorem setState_states_self (conn : TunnelConnection) (id : UUID) (st : StreamState) :
    (conn.setState id st).states id = st := by
  simp [setState]

theorem setState_states_ne (conn : TunnelConnection) (id id' : UUID) (st : StreamState)
    (h : id' ≠ id) : (conn.setState id st).states id' = conn.states id' := by
  simp [setState, h]

@[simp] theorem setState_streams (conn : TunnelConnection) (id : UUID) (st : StreamState) :
    (conn.setState id st).streams = conn.streams := rfl

@[simp] theorem setState_receiveLoop (conn : TunnelConnection) (id : UUID) (st : StreamState) :
    (conn.setState id st).receiveLoop = conn.receiveLoop := rfl

@[simp] theorem removeStream_states (conn : TunnelConnection) (id : UUID) :
    (conn.removeStream id).states = conn.states := rfl

@[simp] theorem removeStream_receiveLoop (conn : TunnelConnection) (id : UUID) :
    (conn.removeStream id).receiveLoop = conn.receiveLoop := rfl

@[simp] theorem removeStream_streams (conn : TunnelConnection) (id : UUID) :
    (conn.removeStream id).streams = conn.streams.erase id := rfl

@[simp] theorem removeStream_buffered (conn : TunnelConnection) (id id' : UUID) :
    (conn.removeStream id).buffered id' = conn.buffered id' := rfl

theorem getStream_eq_ok_iff (conn : TunnelConnection) (id : UUID) (st : StreamState) :
    conn.getStream id = .ok st ↔ id ∈ conn.streams ∧ st = conn.states id := by
  unfold getStream
  split <;> rename_i h <;> simp [h, eq_comm]

theorem removeStream_mem_iff (conn : TunnelConnection) (id id' : UUID) :
    id' ∈ (conn.removeStream id).streams ↔ id' ≠ id ∧ id' ∈ conn.streams := by
  rw [removeStream_streams, conn.streams_nodup.mem_erase_iff]

theorem openStream_cases (conn conn' : TunnelConnection) (id : UUID)
    (h : conn.openStream id = .ok conn') :
    conn'.states id = .fresh ∧ (∀ id', id' ≠ id → conn'.states id' = conn.states id') ∧
      conn'.streams = conn.streams ++ [id] ∧ conn'.receiveLoop = conn.receiveLoop := by
  unfold openStream at h
  split at h
  · cases h
  · split at h
    · cases h
    · cases h
      refine ⟨setState_states_self conn id .fresh, ?_, rfl, rfl⟩
      intro id' hne
      exact setState_states_ne conn id id' .fresh hne

theorem openStream_of_room (conn : TunnelConnection) (id : UUID) (hnot : id ∉ conn.streams)
    (hroom : conn.streams.length < maxStreams) : ∃ conn', conn.openStream id = .ok conn' := by
  unfold openStream
  rw [dif_neg (Nat.not_le.mpr hroom), dif_neg hnot]
  exact ⟨_, rfl⟩

theorem tearDown_frame (conn : TunnelConnection) :
    conn.tearDown.receiveLoop = conn.receiveLoop ∧
      ∀ id, (conn.tearDown.states id).queue = (conn.states id).queue := by
  unfold tearDown
  split
  · exact ⟨rfl, fun _ => rfl⟩
  · refine ⟨rfl, ?_⟩
    intro id
    simp only
    split <;> rfl

theorem mem_of_mem_tearDown (conn : TunnelConnection) (id : UUID)
    (h : id ∈ conn.tearDown.streams) : id ∈ conn.streams := by
  unfold tearDown at h
  split at h
  · exact h
  · cases h

theorem dispatchFrame_put (conn : TunnelConnection) (f : Frame) (ht : f.type.carriesData = true)
    (hmem : f.requestId ∈ conn.streams) :
    conn.dispatchFrame f = conn.putPayload f.requestId f.payload := by
  simp [dispatchFrame, ht, getStream, hmem]

theorem dispatchFrame_drop (conn : TunnelConnection) (f : Frame)
    (hmem : f.requestId ∉ conn.streams) : conn.dispatchFrame f = conn := by
  simp [dispatchFrame, closeStream, getStream, hmem, Except.map]

theorem dispatchFrame_end (conn : TunnelConnection) (f : Frame) (ht : f.type.endsStream = true)
    (hmem : f.requestId ∈ conn.streams) :
    conn.dispatchFrame f =
      conn.setState f.requestId { conn.states f.requestId with closed := true } := by
  have hdata : f.type.carriesData = false := by
    revert ht
    cases f.type <;> simp [FrameType.endsStream, FrameType.carriesData]
  simp [dispatchFrame, ht, hdata, closeStream, getStream, hmem, Except.map]

/-- A frame that ends a stream changes nothing but the closed flag of that stream. -/
theorem dispatchFrame_end_frame (conn : TunnelConnection) (f : Frame)
    (ht : f.type.endsStream = true) :
    (conn.dispatchFrame f).streams = conn.streams ∧
      (conn.dispatchFrame f).receiveLoop = conn.receiveLoop ∧
      ∀ id, ((conn.dispatchFrame f).states id).queue = (conn.states id).queue ∧
        ((conn.dispatchFrame f).states id).closed =
          ((conn.states id).closed || decide (id = f.requestId ∧ id ∈ conn.streams)) := by
  by_cases hmem : f.requestId ∈ conn.streams
  · rw [dispatchFrame_end conn f ht hmem]
    refine ⟨rfl, rfl, ?_⟩
    intro id
    by_cases heq : id = f.requestId
    · subst heq
      simp [hmem]
    · simp [setState, heq]
  · rw [dispatchFrame_drop conn f hmem]
    refine ⟨rfl, rfl, ?_⟩
    intro id
    by_cases heq : id = f.requestId
    · subst heq
      simp [hmem]
    · simp [heq]

theorem dispatchFrame_streams (conn : TunnelConnection) (f : Frame) :
    (conn.dispatchFrame f).streams = conn.streams := by
  unfold dispatchFrame
  split
  · split
    · unfold putPayload
      split <;> rfl
    · rfl
  · split
    · by_cases hmem : f.requestId ∈ conn.streams
      · simp [closeStream, getStream, hmem, Except.map]
      · simp [closeStream, getStream, hmem, Except.map]
    · rfl

theorem pendingPut_of_receiving (conn : TunnelConnection) (id : UUID)
    (h : conn.receiveLoop = .receiving) : conn.pendingPut id = [] := by
  simp [pendingPut, h]

@[simp] theorem putPayload_streams (conn : TunnelConnection) (id : UUID) (p : Bytes) :
    (conn.putPayload id p).streams = conn.streams := by
  unfold putPayload
  split <;> rfl

theorem putPayload_closed (conn : TunnelConnection) (id id' : UUID) (p : Bytes) :
    ((conn.putPayload id p).states id').closed = (conn.states id').closed := by
  unfold putPayload
  split
  · by_cases h : id' = id
    · subst h
      simp [setState]
    · simp [setState, h]
  · rfl

/-- Whether or not the queue has room, the payload is now the last one buffered for the stream,
and nothing else is held by the receive loop. -/
theorem putPayload_buffered (conn : TunnelConnection) (id id' : UUID) (p : Bytes) :
    (conn.putPayload id p).buffered id' =
      (conn.states id').queue.items ++ if id = id' then [p] else [] := by
  unfold putPayload
  split
  · rename_i q hq
    have hitems := ((BoundedQueue.put_eq_some_iff _ _ _).mp hq).2
    by_cases h : id' = id
    · subst h
      simp [buffered, pendingPut, setState, hitems]
    · simp [buffered, pendingPut, setState, h, Ne.symm h]
  · simp [buffered, pendingPut]

theorem putPayload_receiveLoop (conn : TunnelConnection) (id : UUID) (p : Bytes) :
    (conn.putPayload id p).receiveLoop =
      if (conn.states id).queue.full then .putting id p else .receiving := by
  unfold putPayload
  split
  · rename_i q hq
    have hroom := ((BoundedQueue.put_eq_some_iff _ _ _).mp hq).1
    simp [hroom]
  · rename_i hq
    have hfull := (BoundedQueue.put_eq_none_iff _ _).mp hq
    simp [hfull]

theorem putPayload_states_ne (conn : TunnelConnection) (id id' : UUID) (p : Bytes)
    (h : id' ≠ id) : (conn.putPayload id p).states id' = conn.states id' := by
  unfold putPayload
  split
  · simp [setState, h]
  · rfl

theorem putPayload_items (conn : TunnelConnection) (id id' : UUID) (p : Bytes) :
    ∃ more, ((conn.putPayload id p).states id').queue.items =
      (conn.states id').queue.items ++ more := by
  unfold putPayload
  split
  · rename_i q hq
    have hitems := ((BoundedQueue.put_eq_some_iff _ _ _).mp hq).2
    by_cases h : id' = id
    · subst h
      exact ⟨[p], by simp [setState, hitems]⟩
    · exact ⟨[], by simp [setState, h]⟩
  · exact ⟨[], by simp⟩

theorem dispatchFrame_items (conn : TunnelConnection) (f : Frame) (id : UUID) :
    ∃ more, ((conn.dispatchFrame f).states id).queue.items =
      (conn.states id).queue.items ++ more := by
  by_cases hmem : f.requestId ∈ conn.streams
  · by_cases hdata : f.type.carriesData = true
    · rw [dispatchFrame_put conn f hdata hmem]
      exact putPayload_items conn f.requestId id f.payload
    · by_cases hend : f.type.endsStream = true
      · obtain ⟨-, -, hstates⟩ := dispatchFrame_end_frame conn f hend
        exact ⟨[], by simp [(hstates id).1]⟩
      · exact ⟨[], by simp [dispatchFrame, hdata, hend]⟩
  · exact ⟨[], by simp [dispatchFrame_drop conn f hmem]⟩

theorem putPayload_alive (conn : TunnelConnection) (id : UUID) (p : Bytes) :
    (conn.putPayload id p).receiveLoop ≠ .ended := by
  rw [putPayload_receiveLoop]
  split <;> simp

theorem dispatchFrame_alive (conn : TunnelConnection) (f : Frame) (h : conn.receiveLoop ≠ .ended) :
    (conn.dispatchFrame f).receiveLoop ≠ .ended := by
  by_cases hmem : f.requestId ∈ conn.streams
  · by_cases hdata : f.type.carriesData = true
    · rw [dispatchFrame_put conn f hdata hmem]
      exact putPayload_alive conn f.requestId f.payload
    · by_cases hend : f.type.endsStream = true
      · obtain ⟨-, hloop, -⟩ := dispatchFrame_end_frame conn f hend
        rw [hloop]
        exact h
      · simpa [dispatchFrame, hdata, hend] using h
  · rw [dispatchFrame_drop conn f hmem]
    exact h

theorem resumePut_cases (conn conn' : TunnelConnection) (h : conn.resumePut = some conn') :
    ∃ id p, conn.receiveLoop = .putting id p ∧ (conn.states id).queue.full = false ∧
      conn' = conn.putPayload id p := by
  unfold resumePut at h
  split at h
  · rename_i id p hloop
    split at h
    · cases h
    · rename_i hroom
      cases h
      exact ⟨id, p, hloop, by simpa using hroom, rfl⟩
  · cases h
  · cases h

theorem resumePut_buffered (conn conn' : TunnelConnection) (h : conn.resumePut = some conn')
    (id : UUID) : conn'.buffered id = conn.buffered id := by
  obtain ⟨id', p, hloop, _, rfl⟩ := resumePut_cases conn conn' h
  rw [putPayload_buffered]
  simp [buffered, pendingPut, hloop]

theorem takeItem_cases (conn conn' : TunnelConnection) (id : UUID) (p : Bytes)
    (h : conn.takeItem id = some (p, conn')) :
    ∃ q, (conn.states id).queue.items = p :: q.items ∧
      conn' = conn.setState id { conn.states id with queue := q } := by
  unfold takeItem at h
  obtain ⟨⟨p', q⟩, hget, heq⟩ := Option.map_eq_some_iff.mp h
  cases heq
  exact ⟨q, (BoundedQueue.get_eq_some_iff _ _ _).mp hget, rfl⟩

theorem takeItem_eq_none_iff (conn : TunnelConnection) (id : UUID) :
    conn.takeItem id = none ↔ (conn.states id).queue.items = [] := by
  simp [takeItem, BoundedQueue.get_eq_none_iff]

theorem takeItem_streams (conn conn' : TunnelConnection) (id : UUID) (p : Bytes)
    (h : conn.takeItem id = some (p, conn')) : conn'.streams = conn.streams := by
  obtain ⟨q, _, rfl⟩ := takeItem_cases conn conn' id p h
  rfl

theorem takeItem_receiveLoop (conn conn' : TunnelConnection) (id : UUID) (p : Bytes)
    (h : conn.takeItem id = some (p, conn')) : conn'.receiveLoop = conn.receiveLoop := by
  obtain ⟨q, _, rfl⟩ := takeItem_cases conn conn' id p h
  rfl

theorem takeItem_closed (conn conn' : TunnelConnection) (id : UUID) (p : Bytes)
    (h : conn.takeItem id = some (p, conn')) (id' : UUID) :
    (conn'.states id').closed = (conn.states id').closed := by
  obtain ⟨q, _, rfl⟩ := takeItem_cases conn conn' id p h
  by_cases h' : id' = id
  · subst h'
    simp
  · rw [setState_states_ne _ _ _ _ h']

theorem takeItem_buffered (conn conn' : TunnelConnection) (id : UUID) (p : Bytes)
    (h : conn.takeItem id = some (p, conn')) : conn.buffered id = p :: conn'.buffered id := by
  obtain ⟨q, hitems, rfl⟩ := takeItem_cases conn conn' id p h
  simp [buffered, pendingPut, hitems]

theorem takeItem_states_ne (conn conn' : TunnelConnection) (id id' : UUID) (p : Bytes)
    (h : conn.takeItem id = some (p, conn')) (hne : id' ≠ id) :
    conn'.states id' = conn.states id' := by
  obtain ⟨q, _, rfl⟩ := takeItem_cases conn conn' id p h
  exact setState_states_ne _ _ _ _ hne

theorem takeItem_room (conn conn' : TunnelConnection) (id : UUID) (p : Bytes)
    (h : conn.takeItem id = some (p, conn')) : (conn'.states id).queue.full = false := by
  obtain ⟨q, hitems, rfl⟩ := takeItem_cases conn conn' id p h
  have hle := (conn.states id).queue.length_le
  rw [hitems, List.length_cons] at hle
  simp only [setState_states_self, BoundedQueue.full, decide_eq_false_iff_not]
  omega

theorem not_mem_removeStream (conn : TunnelConnection) (id : UUID) :
    id ∉ (conn.removeStream id).streams := by
  intro hmem
  exact ((removeStream_mem_iff conn id id).mp hmem).1 rfl

/-- Between two of its awaits a coroutine takes an item of its own stream or removes its own entry
of the table. -/
inductive Touches (id : UUID) (conn : TunnelConnection) : TunnelConnection → Prop
  | refl : Touches id conn conn
  | take {conn' : TunnelConnection} (p : Bytes) (h : conn.takeItem id = some (p, conn')) :
      Touches id conn conn'
  | remove {conn' : TunnelConnection} (h : Touches id conn conn') :
      Touches id conn (conn'.removeStream id)

namespace Touches

variable {id : UUID} {conn conn' : TunnelConnection}

theorem receiveLoop (h : Touches id conn conn') : conn'.receiveLoop = conn.receiveLoop := by
  induction h with
  | refl => rfl
  | take p ht => exact takeItem_receiveLoop conn _ id p ht
  | remove _ ih => exact ih

theorem states_ne (h : Touches id conn conn') {id' : UUID} (hne : id' ≠ id) :
    conn'.states id' = conn.states id' := by
  induction h with
  | refl => rfl
  | take p ht => exact takeItem_states_ne conn _ id id' p ht hne
  | remove _ ih => exact ih

theorem closed (h : Touches id conn conn') (id' : UUID) :
    (conn'.states id').closed = (conn.states id').closed := by
  induction h with
  | refl => rfl
  | take p ht => exact takeItem_closed conn _ id p ht id'
  | remove _ ih => exact ih

theorem mem (h : Touches id conn conn') {id' : UUID} (hmem : id' ∈ conn'.streams) :
    id' ∈ conn.streams := by
  induction h with
  | refl => exact hmem
  | take p ht => exact takeItem_streams conn _ id p ht ▸ hmem
  | remove _ ih => exact ih ((removeStream_mem_iff _ id id').mp hmem).2

theorem mem_iff (h : Touches id conn conn') {id' : UUID} (hne : id' ≠ id) :
    id' ∈ conn'.streams ↔ id' ∈ conn.streams := by
  induction h with
  | refl => rfl
  | take p ht => rw [takeItem_streams conn _ id p ht]
  | remove _ ih => rw [removeStream_mem_iff, and_iff_right hne, ih]

theorem full (h : Touches id conn conn') (hfull : (conn'.states id).queue.full = true) :
    (conn.states id).queue.full = true := by
  induction h with
  | refl => exact hfull
  | take p ht =>
      rw [takeItem_room conn _ id p ht] at hfull
      cases hfull
  | remove _ ih => exact ih hfull

end Touches

theorem putPayload_isClosed (conn : TunnelConnection) (id : UUID) (p : Bytes) :
    (conn.putPayload id p).closed = conn.closed := by
  unfold putPayload
  split <;> rfl

theorem dispatchFrame_isClosed (conn : TunnelConnection) (f : Frame) :
    (conn.dispatchFrame f).closed = conn.closed := by
  by_cases hmem : f.requestId ∈ conn.streams
  · by_cases hdata : f.type.carriesData = true
    · rw [dispatchFrame_put conn f hdata hmem]
      exact putPayload_isClosed conn f.requestId f.payload
    · by_cases hend : f.type.endsStream = true
      · rw [dispatchFrame_end conn f hend hmem]
        rfl
      · simp [dispatchFrame, hdata, hend]
  · rw [dispatchFrame_drop conn f hmem]

theorem takeItem_isClosed (conn conn' : TunnelConnection) (id : UUID) (p : Bytes)
    (h : conn.takeItem id = some (p, conn')) : conn'.closed = conn.closed := by
  obtain ⟨q, _, rfl⟩ := takeItem_cases conn conn' id p h
  rfl

theorem tearDown_isClosed (conn : TunnelConnection) : conn.tearDown.closed = true := by
  unfold tearDown
  split
  · assumption
  · rfl

/-- What the steps of other streams leave of a stream. A suspended `put` may complete. -/
structure Untouched (id : UUID) (conn conn' : TunnelConnection) : Prop where
  buffered : conn'.buffered id = conn.buffered id
  pending : conn.pendingPut id = [] → conn'.pendingPut id = []
  closed : (conn'.states id).closed = (conn.states id).closed
  table : id ∈ conn'.streams ↔ id ∈ conn.streams

namespace Untouched

variable {id : UUID} {conn conn' : TunnelConnection}

theorem refl : Untouched id conn conn := ⟨rfl, fun h => h, rfl, Iff.rfl⟩

theorem of_states (hloop : conn'.receiveLoop = conn.receiveLoop)
    (hstate : conn'.states id = conn.states id) (htable : id ∈ conn'.streams ↔ id ∈ conn.streams) :
    Untouched id conn conn' where
  buffered := by simp [TunnelConnection.buffered, pendingPut, hloop, hstate]
  pending := by simp [pendingPut, hloop]
  closed := by rw [hstate]
  table := htable

theorem of_touches {id' : UUID} (h : Touches id' conn conn') (hne : id ≠ id') : Untouched id conn conn' :=
  .of_states h.receiveLoop (h.states_ne hne) (h.mem_iff hne)

theorem of_openStream {id' : UUID} (h : conn.openStream id' = .ok conn') (hne : id ≠ id') :
    Untouched id conn conn' := by
  obtain ⟨-, hothers, hstreams, hloop⟩ := openStream_cases conn conn' id' h
  exact .of_states hloop (hothers id hne) (by simp [hstreams, hne])

theorem of_resumePut (h : conn.resumePut = some conn') : Untouched id conn conn' := by
  have hbuffered := resumePut_buffered conn conn' h id
  obtain ⟨id', p, -, hroom, rfl⟩ := resumePut_cases conn conn' h
  refine ⟨hbuffered, ?_, putPayload_closed conn id' id p, by simp⟩
  intro _
  simp [pendingPut, putPayload_receiveLoop, hroom]

theorem of_dispatchFrame (f : Frame) (hloop : conn.receiveLoop = .receiving) (hne : f.requestId ≠ id) :
    Untouched id conn (conn.dispatchFrame f) := by
  by_cases hmem : f.requestId ∈ conn.streams
  · by_cases hdata : f.type.carriesData = true
    · rw [dispatchFrame_put conn f hdata hmem]
      have hstate : (conn.putPayload f.requestId f.payload).states id = conn.states id :=
        putPayload_states_ne conn f.requestId id f.payload (Ne.symm hne)
      have hpending : (conn.putPayload f.requestId f.payload).pendingPut id = [] := by
        simp only [pendingPut, putPayload_receiveLoop]
        split <;> rename_i hput <;> split at hput <;> cases hput <;> simp [hne]
      refine ⟨?_, fun _ => hpending, by rw [hstate], by simp⟩
      simp [TunnelConnection.buffered, hstate, hpending, pendingPut_of_receiving conn id hloop]
    · by_cases hend : f.type.endsStream = true
      · rw [dispatchFrame_end conn f hend hmem]
        exact .of_states rfl (setState_states_ne _ _ _ _ (Ne.symm hne)) Iff.rfl
      · have hsame : conn.dispatchFrame f = conn := by simp [dispatchFrame, hdata, hend]
        rw [hsame]
        exact .refl
  · rw [dispatchFrame_drop conn f hmem]
    exact .refl

end Untouched

end TunnelConnection

end NetworkFileServer.Tunnel
