import NetworkFileServer.Framework.TransitionSystem
import NetworkFileServer.Relay.RequestBody
import NetworkFileServer.Tunnel.Connection

/-!
# Rebuilding request bodies across the tunnel

The relay's body senders, the in-order WebSocket, the agent's receive loop and the agent's
`handle_open_frame` tasks up to `content = b"".join(body_parts)`, in every interleaving. Whether
`RequestMetadata.from_payload` accepts an OPEN payload is a parameter.
-/

namespace NetworkFileServer.Agent

open Tunnel Relay

/-- Where the task of `handle_open_frame` is. -/
inductive HandlerPc where
  /-- `on_open` has not created the task. -/
  | absent
  /-- The stream is open and the task is created, but has not run. -/
  | spawned
  /-- In `chunk = await state.queue.get()`. -/
  | readingBody (parts : List Bytes)
  /-- `content` is built and the inbound stream is removed. -/
  | rebuilt (parts : List Bytes)
  /-- `get_stream` raised. -/
  | failed
deriving DecidableEq

/-- `content: bytes = b"".join(body_parts)`. -/
def HandlerPc.content : HandlerPc → Option Bytes
  | .rebuilt parts => some parts.flatten
  | .absent | .spawned | .readingBody _ | .failed => none

/-- The payloads that the task has taken from its queue. -/
def HandlerPc.taken : HandlerPc → List Bytes
  | .readingBody parts => parts
  | .rebuilt parts => parts ++ [[]]
  | .absent | .spawned | .failed => []

structure BodyState where
  sender : UUID → SenderPc
  /-- Everything that was sent, oldest first. -/
  sent : List Frame
  /-- What is still in flight. -/
  channel : List Frame
  agent : TunnelConnection
  handler : UUID → HandlerPc

inductive BodyAction where
  | send (id : UUID)
  | receive
  | resumePut
  | startHandler (id : UUID)
  | bodyGet (id : UUID)

namespace BodyState

def start (requests : UUID → Option (List Bytes)) : BodyState where
  sender id := match requests id with
    | some chunks => .opening chunks
    | none => .sent
  sent := []
  channel := []
  agent := .new
  handler _ := .absent

def setHandler (s : BodyState) (id : UUID) (pc : HandlerPc) : BodyState :=
  { s with handler := Function.update s.handler id pc }

/-- `_OpenFrameHandlers.on_open`. An `open_stream` that raises ends the receive loop; a rejected
OPEN is answered with a 400 and changes nothing here. -/
def onOpen (valid : Bytes → Bool) (s : BodyState) (f : Frame) : BodyState :=
  if valid f.payload then
    match s.agent.openStream f.requestId with
    | .ok agent => { s.setHandler f.requestId .spawned with agent := agent }
    | .error _ => { s with agent := { s.agent with receiveLoop := .ended } }
  else s

/-- One frame of `run_receive_loop_with_handlers`. -/
def onFrame (valid : Bytes → Bool) (s : BodyState) (f : Frame) : BodyState :=
  if f.type = .open then s.onOpen valid f else { s with agent := s.agent.dispatchFrame f }

/-- The body loop: an empty chunk ends it and removes the inbound stream. -/
def onChunk (s : BodyState) (id : UUID) (parts : List Bytes) (chunk : Bytes)
    (agent : TunnelConnection) : BodyState :=
  if chunk = [] then
    { s.setHandler id (.rebuilt parts) with agent := agent.removeStream id }
  else { s.setHandler id (.readingBody (parts ++ [chunk])) with agent := agent }

def step (valid : Bytes → Bool) (metadata : UUID → Bytes) (s : BodyState) :
    BodyAction → Option BodyState
  | .send id =>
      (senderStep id (metadata id) (s.sender id)).map fun (pc, out) =>
        { s with
          sender := Function.update s.sender id pc
          sent := s.sent ++ out.toList
          channel := s.channel ++ out.toList }
  | .receive =>
      match s.agent.receiveLoop, s.channel with
      | .receiving, f :: rest => some ({ s with channel := rest }.onFrame valid f)
      | _, _ => none
  | .resumePut => s.agent.resumePut.map fun agent => { s with agent := agent }
  | .startHandler id =>
      if s.handler id = .spawned then
        match s.agent.getStream id with
        | .ok _ => some (s.setHandler id (.readingBody []))
        | .error _ => some (s.setHandler id .failed)
      else none
  | .bodyGet id =>
      match s.handler id with
      | .readingBody parts =>
          (s.agent.takeItem id).map fun (chunk, agent) => s.onChunk id parts chunk agent
      | _ => none

end BodyState

/-- Everything of the state that concerns one request. -/
structure Lane where
  sender : SenderPc
  sent : List Frame
  channel : List Frame
  alive : Bool
  handler : HandlerPc
  buffered : List Bytes
  inTable : Bool

def framesOf (id : UUID) (frames : List Frame) : List Frame :=
  frames.filter fun f => f.requestId = id

def BodyState.lane (s : BodyState) (id : UUID) : Lane where
  sender := s.sender id
  sent := framesOf id s.sent
  channel := framesOf id s.channel
  alive := !decide (s.agent.receiveLoop = .ended)
  handler := s.handler id
  buffered := s.agent.buffered id
  inTable := decide (id ∈ s.agent.streams)

theorem BodyState.setHandler_lane_self (s : BodyState) (id : UUID) (pc : HandlerPc) :
    (s.setHandler id pc).lane id = { s.lane id with handler := pc } := by
  simp only [BodyState.lane, BodyState.setHandler, Function.update_self]
  rfl

theorem BodyState.setHandler_lane_ne (s : BodyState) (id id' : UUID) (pc : HandlerPc)
    (h : id' ≠ id) : (s.setHandler id pc).lane id' = s.lane id' := by
  simp only [BodyState.lane, BodyState.setHandler, Function.update_of_ne h]
  rfl

/-- The invariant of one request. -/
structure LaneInv (valid : Bool) (metadata : Bytes) (request : Option (List Bytes)) (id : UUID)
    (l : Lane) : Prop where
  /-- Sent and unsent payloads make up the body. -/
  account : dataPayloads id l.sent ++ l.sender.remaining =
    (request.map bodyPayloads).getD []
  /-- The frames of a request are its OPEN and then its DATA frames. -/
  shape : l.sent = [] ∧ (request = none ∨ ∃ chunks, l.sender = .opening chunks) ∨
    (∀ chunks, l.sender ≠ .opening chunks) ∧
      l.sent = ⟨.open, id, metadata⟩ :: (dataPayloads id l.sent).map (Frame.mk .data id)
  /-- The WebSocket keeps the order and loses nothing. -/
  inFlight : l.channel <:+ l.sent
  /-- Before `on_open` everything is in flight. -/
  unopened : l.handler = .absent → l.buffered = [] ∧
    (l.alive = true → valid = true → l.channel = l.sent)
  /-- Afterwards every payload was taken, is buffered or is in flight. -/
  opened : l.handler ≠ .absent →
    l.handler.taken ++ (l.buffered ++ dataPayloads id l.channel) = dataPayloads id l.sent ∧
      (∀ f ∈ l.channel, f.type = .data) ∧ l.sent ≠ []
  parts : ∀ ps, l.handler = .readingBody ps ∨ l.handler = .rebuilt ps → ∀ p ∈ ps, p ≠ []
  table : l.inTable = true ↔ l.handler = .spawned ∨ ∃ ps, l.handler = .readingBody ps
  running : l.handler ≠ .failed

theorem LaneInv.dead {valid : Bool} {metadata : Bytes} {request : Option (List Bytes)}
    {id : UUID} {l l' : Lane} (h : LaneInv valid metadata request id l)
    (heq : l' = { l with alive := false }) : LaneInv valid metadata request id l' := by
  subst heq
  exact ⟨h.account, h.shape, h.inFlight, fun ha => ⟨(h.unopened ha).1, fun hc => by cases hc⟩, h.opened,
    h.parts, h.table, h.running⟩

theorem dataPayloads_framesOf (id : UUID) (frames : List Frame) :
    dataPayloads id (framesOf id frames) = dataPayloads id frames := by
  induction frames with
  | nil => rfl
  | cons f fs ih =>
      by_cases h : f.requestId = id
      · rw [framesOf, List.filter_cons_of_pos (by simpa using h), dataPayloads_cons,
          dataPayloads_cons]
        exact congrArg _ ih
      · rw [framesOf, List.filter_cons_of_neg (by simpa using h), dataPayloads_cons]
        simp only [h, and_false, if_false, List.nil_append]
        exact ih

theorem framesOf_append (id : UUID) (fs gs : List Frame) :
    framesOf id (fs ++ gs) = framesOf id fs ++ framesOf id gs := by
  simp [framesOf]

theorem framesOf_cons_ne (id : UUID) (f : Frame) (fs : List Frame) (h : f.requestId ≠ id) :
    framesOf id (f :: fs) = framesOf id fs := by
  simp [framesOf, h]

theorem framesOf_cons_self (f : Frame) (fs : List Frame) :
    framesOf f.requestId (f :: fs) = f :: framesOf f.requestId fs := by
  simp [framesOf]

/-- The sentinel is the only empty payload, so it is where the body ends. -/
theorem sentinel_last (as bs rest : List Bytes) (ha : ∀ a ∈ as, a ≠ []) (hb : ∀ b ∈ bs, b ≠ [])
    (h : as ++ ([] :: rest) = bs ++ [[]]) : as = bs ∧ rest = [] := by
  induction as generalizing bs with
  | nil =>
      cases bs with
      | nil => simpa using h
      | cons b bs =>
          simp only [List.nil_append, List.cons_append, List.cons.injEq] at h
          exact absurd h.1.symm (hb b (by simp))
  | cons a as ih =>
      cases bs with
      | nil =>
          simp only [List.cons_append, List.nil_append, List.cons.injEq] at h
          exact absurd h.1 (ha a (by simp))
      | cons b bs =>
          simp only [List.cons_append, List.cons.injEq] at h
          have hrec := ih bs (fun x hx => ha x (by simp [hx])) (fun x hx => hb x (by simp [hx])) h.2
          exact ⟨by rw [h.1, hrec.1], hrec.2⟩

section LaneFacts

variable {valid : Bool} {metadata : Bytes} {request : Option (List Bytes)} {id : UUID} {l : Lane}

/-- A frame in flight is the OPEN of the request, and then all its frames are in flight, or DATA. -/
theorem LaneInv.head (h : LaneInv valid metadata request id l) (f : Frame) (rest : List Frame)
    (hc : l.channel = f :: rest) :
    (f = ⟨.open, id, metadata⟩ ∧ l.channel = l.sent ∧
        rest = (dataPayloads id l.sent).map (Frame.mk .data id)) ∨
      (f = ⟨.data, id, f.payload⟩ ∧ l.channel ≠ l.sent) := by
  obtain ⟨before, hsuf⟩ := h.inFlight
  rcases h.shape with ⟨hnil, -⟩ | ⟨-, hsent⟩
  · rw [hnil, hc] at hsuf
    simp at hsuf
  · cases before with
    | nil =>
        have hall : l.channel = l.sent := by simpa using hsuf
        have heq := hall.trans hsent
        rw [hc] at heq
        exact .inl ⟨(List.cons.inj heq).1, hall, (List.cons.inj heq).2⟩
    | cons g before =>
        have heq := hsuf.trans hsent
        rw [hc] at heq
        have htail := (List.cons.inj heq).2
        have hmem : f ∈ (dataPayloads id l.sent).map (Frame.mk .data id) := by
          rw [← htail]
          simp
        obtain ⟨p, -, rfl⟩ := List.mem_map.mp hmem
        refine .inr ⟨rfl, ?_⟩
        intro hall
        rw [hc, hsent] at hall
        cases hall

theorem LaneInv.rebuilt_nothing_left (h : LaneInv valid metadata request id l)
    (parts : List Bytes) (hpc : l.handler = .rebuilt parts) :
    ∃ chunks, request = some chunks ∧ parts = chunks.flatMap slices ∧ l.buffered = [] ∧
      dataPayloads id l.channel = [] ∧ l.sender.remaining = [] := by
  have hopened := (h.opened (by simp [hpc])).1
  have hacc := h.account
  rw [← hopened, hpc] at hacc
  cases request with
  | none => simp [HandlerPc.taken] at hacc
  | some chunks =>
      have hsplit : parts ++ ([] :: (l.buffered ++ dataPayloads id l.channel ++
          l.sender.remaining)) = chunks.flatMap slices ++ [[]] := by
        simpa [HandlerPc.taken, bodyPayloads] using hacc
      have hlast := sentinel_last _ _ _ (h.parts parts (.inr hpc))
        (fun p hp => (flatMap_slices_bounds chunks p hp).1) hsplit
      simp only [List.append_eq_nil_iff] at hlast
      exact ⟨chunks, rfl, hlast.1, hlast.2.1.1, hlast.2.1.2, hlast.2.2⟩

private theorem remaining_ne_nil (pc : SenderPc) (h : pc ≠ .sent) : pc.remaining ≠ [] := by
  cases pc <;> simp_all [SenderPc.remaining, bodyPayloads]

private theorem LaneInv.shape_of_sending (h : LaneInv valid metadata request id l)
    (hne : l.sender ≠ .sent) (hop : ∀ chunks, l.sender ≠ .opening chunks) :
    l.sent = ⟨.open, id, metadata⟩ :: (dataPayloads id l.sent).map (Frame.mk .data id) := by
  rcases h.shape with ⟨-, hnone | ⟨chunks, hpc⟩⟩ | ⟨-, hsent⟩
  · have hacc := h.account
    simp only [hnone, Option.map_none, Option.getD_none, List.append_eq_nil_iff] at hacc
    exact absurd hacc.2 (remaining_ne_nil _ hne)
  · exact absurd hpc (hop chunks)
  · exact hsent

theorem LaneInv.send (h : LaneInv valid metadata request id l) (pc : SenderPc)
    (out : Option Frame) (hstep : senderStep id metadata l.sender = some (pc, out)) :
    LaneInv valid metadata request id
      { l with sender := pc, sent := l.sent ++ out.toList, channel := l.channel ++ out.toList } := by
  have hne : l.sender ≠ .sent := by
    intro hsent
    rw [hsent] at hstep
    cases hstep
  have hpc : ∀ chunks, pc ≠ .opening chunks := by
    intro chunks hop
    subst hop
    cases hs : l.sender with
    | opening cs => simp [hs, senderStep] at hstep
    | streaming cs => cases cs <;> simp [hs, senderStep] at hstep
    | splitting c o r =>
        simp only [hs, senderStep] at hstep
        split at hstep <;> cases hstep
    | sent => exact hne hs
  have hdata : dataPayloads id (l.sent ++ out.toList) =
      dataPayloads id l.sent ++ dataPayloads id out.toList := dataPayloads_append _ _ _
  refine ⟨?_, .inr ⟨hpc, ?_⟩, ?_, ?_, ?_, h.parts, h.table, h.running⟩
  · simp only [hdata]
    rw [List.append_assoc, ← senderStep_remaining id metadata _ _ _ hstep]
    exact h.account
  · simp only [hdata]
    cases out with
    | none =>
        have hop : ∀ chunks, l.sender ≠ .opening chunks := by
          intro chunks hs
          rw [hs] at hstep
          cases hstep
        simpa using h.shape_of_sending hne hop
    | some f =>
        rcases senderStep_frame id metadata _ _ f hstep with ⟨chunks, hs, rfl⟩ | ⟨hop, hf⟩
        · rcases h.shape with ⟨hnil, -⟩ | ⟨hno, -⟩
          · simp [hnil, dataPayloads]
          · exact absurd hs (hno chunks)
        · rw [hf]
          conv_lhs => rw [h.shape_of_sending hne hop]
          simp [dataPayloads]
  · obtain ⟨before, hsuf⟩ := h.inFlight
    refine ⟨before, ?_⟩
    simp only [← List.append_assoc, hsuf]
  · intro ha
    have hun := h.unopened ha
    refine ⟨hun.1, ?_⟩
    intro halive hval
    simp only [hun.2 halive hval]
  · intro ha
    obtain ⟨hacc, hall, hsome⟩ := h.opened ha
    refine ⟨?_, ?_, ?_⟩
    · simp only [hdata, dataPayloads_append]
      rw [← hacc]
      simp
    · intro f hf
      rcases List.mem_append.mp hf with hf | hf
      · exact hall f hf
      · have hout : out = some f := by simpa using hf
        subst hout
        rcases senderStep_frame id metadata _ _ f hstep with ⟨chunks, hs, -⟩ | ⟨-, hf'⟩
        · rcases h.shape with ⟨hnil, -⟩ | ⟨hno, -⟩
          · exact absurd hnil hsome
          · exact absurd hs (hno chunks)
        · rw [hf']
    · intro hnil
      exact hsome (List.append_eq_nil_iff.mp hnil).1

theorem LaneInv.spawn (h : LaneInv valid metadata request id l) (f : Frame) (rest : List Frame)
    (hc : l.channel = f :: rest) (ht : f.type = .open) :
    LaneInv valid metadata request id
      { l with channel := rest, handler := .spawned, buffered := [], inTable := true } := by
  rcases h.head f rest hc with ⟨-, hall, hrest⟩ | ⟨hf, -⟩
  · refine ⟨h.account, h.shape, ?_, ?_, ?_, ?_, ?_, ?_⟩
    · exact (List.suffix_cons f rest).trans (hc ▸ h.inFlight)
    · intro ha
      cases ha
    · intro _
      refine ⟨?_, ?_, ?_⟩
      · simp [HandlerPc.taken, hrest, dataPayloads, List.filterMap_map]
      · intro g hg
        simp only [hrest, List.mem_map] at hg
        obtain ⟨p, -, rfl⟩ := hg
        rfl
      · intro hnil
        rw [hnil, hc] at hall
        cases hall
    · intro ps hps
      rcases hps with hps | hps <;> cases hps
    · simp
    · simp
  · rw [hf] at ht
    cases ht

/-- An OPEN that creates no task, because it is rejected or because the loop dies on it. -/
theorem LaneInv.refuse (h : LaneInv valid metadata request id l) (f : Frame) (rest : List Frame)
    (hc : l.channel = f :: rest) (ht : f.type = .open) (alive : Bool)
    (hno : alive = true → valid = false) :
    LaneInv valid metadata request id { l with channel := rest, alive := alive } := by
  have habsent : l.handler = .absent := by
    by_contra hne
    have hdata := (h.opened hne).2.1 f (by simp [hc])
    rw [ht] at hdata
    cases hdata
  refine ⟨h.account, h.shape, ?_, ?_, ?_, h.parts, h.table, h.running⟩
  · exact (List.suffix_cons f rest).trans (hc ▸ h.inFlight)
  · intro _
    refine ⟨(h.unopened habsent).1, ?_⟩
    intro halive hval
    rw [hno halive] at hval
    cases hval
  · intro hne
    exact absurd habsent hne

theorem LaneInv.deliver (h : LaneInv valid metadata request id l) (f : Frame)
    (rest : List Frame) (hc : l.channel = f :: rest) (ht : f.type = .data) :
    LaneInv valid metadata request id
      { l with
        channel := rest
        buffered := if l.inTable then l.buffered ++ [f.payload] else l.buffered } := by
  have hsuf : rest <:+ l.sent := (List.suffix_cons f rest).trans (hc ▸ h.inFlight)
  rcases h.head f rest hc with ⟨hf, -, -⟩ | ⟨hf, hpartial⟩
  · rw [hf] at ht
    cases ht
  have hpay : dataPayloads id l.channel = f.payload :: dataPayloads id rest := by
    rw [hc, dataPayloads_cons, hf]
    simp
  by_cases habsent : l.handler = .absent
  · have htable : l.inTable = false := by
      have htab := h.table
      simpa [habsent] using htab
    refine ⟨h.account, h.shape, hsuf, ?_, ?_, h.parts, h.table, h.running⟩
    · intro _
      have hun := h.unopened habsent
      refine ⟨by simp [htable, hun.1], ?_⟩
      intro halive hval
      exact absurd (hun.2 halive hval) hpartial
    · intro hne
      exact absurd habsent hne
  · have htable : l.inTable = true := by
      rw [h.table]
      cases hpc : l.handler with
      | absent => exact absurd hpc habsent
      | spawned => exact .inl rfl
      | readingBody ps => exact .inr ⟨ps, rfl⟩
      | rebuilt ps =>
          obtain ⟨_, -, -, -, hnone, -⟩ := h.rebuilt_nothing_left ps hpc
          rw [hpay] at hnone
          cases hnone
      | failed => exact absurd hpc h.running
    refine ⟨h.account, h.shape, hsuf, ?_, ?_, h.parts, h.table, h.running⟩
    · intro ha
      exact absurd ha habsent
    · intro _
      obtain ⟨hacc, hall, hsome⟩ := h.opened habsent
      refine ⟨?_, ?_, hsome⟩
      · rw [← hacc, hpay]
        simp [htable]
      · intro g hg
        exact hall g (by simp [hc, hg])

theorem LaneInv.begin (h : LaneInv valid metadata request id l) (hpc : l.handler = .spawned) :
    LaneInv valid metadata request id { l with handler := .readingBody [] } := by
  refine ⟨h.account, h.shape, h.inFlight, ?_, ?_, ?_, ?_, ?_⟩
  · intro ha
    cases ha
  · intro _
    have hopened := h.opened (by simp [hpc])
    rw [hpc] at hopened
    exact hopened
  · intro ps hps
    rcases hps with hps | hps <;> cases hps
    simp
  · have htab := h.table
    simpa [hpc] using htab
  · simp

theorem LaneInv.chunk (h : LaneInv valid metadata request id l) (ps : List Bytes) (chunk : Bytes)
    (buf : List Bytes) (hpc : l.handler = .readingBody ps) (hbuf : l.buffered = chunk :: buf) :
    LaneInv valid metadata request id
      (if chunk = [] then { l with handler := .rebuilt ps, buffered := buf, inTable := false }
        else { l with handler := .readingBody (ps ++ [chunk]), buffered := buf }) := by
  obtain ⟨hacc, hall, hsome⟩ := h.opened (by simp [hpc])
  have hps := h.parts ps (.inl hpc)
  rw [hpc, hbuf] at hacc
  split
  · rename_i hnil
    subst hnil
    refine ⟨h.account, h.shape, h.inFlight, ?_, ?_, ?_, ?_, ?_⟩
    · intro ha
      cases ha
    · intro _
      exact ⟨by simpa [HandlerPc.taken] using hacc, hall, hsome⟩
    · intro ps' hps'
      rcases hps' with hps' | hps' <;> cases hps'
      exact hps
    · simp
    · simp
  · rename_i hne
    refine ⟨h.account, h.shape, h.inFlight, ?_, ?_, ?_, ?_, ?_⟩
    · intro ha
      cases ha
    · intro _
      exact ⟨by simpa [HandlerPc.taken] using hacc, hall, hsome⟩
    · intro ps' hps'
      rcases hps' with hps' | hps' <;> cases hps'
      intro p hp
      rcases List.mem_append.mp hp with hp | hp
      · exact hps p hp
      · have hpe : p = chunk := by simpa using hp
        rw [hpe]
        exact hne
    · have htab := h.table
      simpa [hpc] using htab
    · simp

end LaneFacts

/-- Every request satisfies its invariant. -/
def BodyInv (valid : Bytes → Bool) (metadata : UUID → Bytes)
    (requests : UUID → Option (List Bytes)) (s : BodyState) : Prop :=
  ∀ id, LaneInv (valid (metadata id)) (metadata id) (requests id) id (s.lane id)

section Steps

variable {valid : Bytes → Bool} {metadata : UUID → Bytes}
  {requests : UUID → Option (List Bytes)} {s : BodyState}

theorem bodyInv_start (valid : Bytes → Bool) (metadata : UUID → Bytes)
    (requests : UUID → Option (List Bytes)) :
    BodyInv valid metadata requests (.start requests) := by
  intro id
  cases hreq : requests id with
  | none =>
      refine ⟨?_, .inl ⟨rfl, .inl rfl⟩, List.suffix_refl _, ?_, ?_, ?_, ?_, ?_⟩
      · simp [BodyState.lane, BodyState.start, hreq, framesOf, SenderPc.remaining]
      · exact fun _ => ⟨rfl, fun _ _ => rfl⟩
      · exact fun h => absurd rfl h
      · simp [BodyState.lane, BodyState.start]
      · simp [BodyState.lane, BodyState.start, TunnelConnection.new]
      · simp [BodyState.lane, BodyState.start]
  | some chunks =>
      have hpc : (BodyState.start requests).sender id = .opening chunks := by
        simp [BodyState.start, hreq]
      refine ⟨?_, .inl ⟨rfl, .inr ⟨chunks, hpc⟩⟩, List.suffix_refl _, ?_, ?_, ?_, ?_, ?_⟩
      · simp [BodyState.lane, hpc, SenderPc.remaining]
        rfl
      · exact fun _ => ⟨rfl, fun _ _ => rfl⟩
      · exact fun h => absurd rfl h
      · simp [BodyState.lane, BodyState.start]
      · simp [BodyState.lane, BodyState.start, TunnelConnection.new]
      · simp [BodyState.lane, BodyState.start]

private theorem bodyInv_send (hinv : BodyInv valid metadata requests s) (id₀ : UUID)
    (pc : SenderPc) (out : Option Frame)
    (h : senderStep id₀ (metadata id₀) (s.sender id₀) = some (pc, out)) :
    BodyInv valid metadata requests
      { s with
        sender := Function.update s.sender id₀ pc
        sent := s.sent ++ out.toList
        channel := s.channel ++ out.toList } := by
  have hids : ∀ f ∈ out.toList, f.requestId = id₀ := by
    intro f hf
    have hout : out = some f := by simpa using hf
    subst hout
    rcases senderStep_frame id₀ _ _ _ f h with ⟨_, _, rfl⟩ | ⟨_, hf'⟩
    · rfl
    · rw [hf']
  intro id
  by_cases heq : id = id₀
  · subst heq
    have hout : framesOf id out.toList = out.toList := by
      apply List.filter_eq_self.mpr
      intro f hf
      simpa using hids f hf
    have hlane := (hinv id).send pc out h
    simpa [BodyState.lane, framesOf_append, hout] using hlane
  · have hout : framesOf id out.toList = [] := by
      apply List.filter_eq_nil_iff.mpr
      intro f hf
      simpa [hids f hf] using Ne.symm heq
    simpa [BodyState.lane, framesOf_append, hout, heq] using hinv id

private theorem bodyInv_open (hinv : BodyInv valid metadata requests s) (f : Frame)
    (rest : List Frame) (hloop : s.agent.receiveLoop = .receiving) (hin : s.channel = f :: rest)
    (ht : f.type = .open) :
    BodyInv valid metadata requests ({ s with channel := rest }.onOpen valid f) := by
  have hchan : (s.lane f.requestId).channel = f :: framesOf f.requestId rest := by
    simp [BodyState.lane, hin, framesOf_cons_self]
  have hother (id : UUID) (hne : id ≠ f.requestId) :
      framesOf id s.channel = framesOf id rest := by
    rw [hin, framesOf_cons_ne id f rest (Ne.symm hne)]
  have hpay : f.payload = metadata f.requestId := by
    rcases (hinv f.requestId).head f _ hchan with ⟨hf, -, -⟩ | ⟨hf, -⟩
    · rw [hf]
    · rw [hf] at ht
      cases ht
  unfold BodyState.onOpen
  split
  · rename_i hval
    split
    · rename_i agent hopen
      unfold TunnelConnection.openStream at hopen
      split at hopen
      · cases hopen
      · split at hopen
        · cases hopen
        · rename_i hmem
          cases hopen
          intro id
          by_cases heq : id = f.requestId
          · subst heq
            have hlane := (hinv f.requestId).spawn f _ hchan ht
            simpa [BodyState.lane, BodyState.setHandler, TunnelConnection.buffered,
              TunnelConnection.pendingPut, TunnelConnection.setState, hloop,
              StreamState.fresh] using hlane
          · have hlane := hinv id
            simpa [BodyState.lane, BodyState.setHandler, TunnelConnection.buffered,
              TunnelConnection.pendingPut, TunnelConnection.setState, hloop, heq,
              hother id heq] using hlane
    · intro id
      by_cases heq : id = f.requestId
      · subst heq
        have hlane := (hinv f.requestId).refuse f _ hchan ht false (by simp)
        simpa [BodyState.lane, TunnelConnection.buffered, TunnelConnection.pendingPut,
          hloop] using hlane
      · have hlane := (hinv id).dead rfl
        simpa [BodyState.lane, TunnelConnection.buffered, TunnelConnection.pendingPut, hloop,
          hother id heq] using hlane
  · rename_i hval
    have hval' : valid (metadata f.requestId) = false := by
      rw [← hpay]
      simpa using hval
    intro id
    by_cases heq : id = f.requestId
    · subst heq
      exact (hinv f.requestId).refuse f _ hchan ht (s.lane f.requestId).alive (fun _ => hval')
    · have hlane := hinv id
      simpa [BodyState.lane, hother id heq] using hlane

private theorem bodyInv_data (hinv : BodyInv valid metadata requests s) (f : Frame)
    (rest : List Frame) (hloop : s.agent.receiveLoop = .receiving) (hin : s.channel = f :: rest)
    (ht : f.type = .data) :
    BodyInv valid metadata requests
      { s with channel := rest, agent := s.agent.dispatchFrame f } := by
  have hchan : (s.lane f.requestId).channel = f :: framesOf f.requestId rest := by
    simp [BodyState.lane, hin, framesOf_cons_self]
  have hother (id : UUID) (hne : id ≠ f.requestId) :
      framesOf id s.channel = framesOf id rest := by
    rw [hin, framesOf_cons_ne id f rest (Ne.symm hne)]
  have hbuf (id : UUID) : s.agent.buffered id = (s.agent.states id).queue.items := by
    simp [TunnelConnection.buffered, TunnelConnection.pendingPut, hloop]
  by_cases hmem : f.requestId ∈ s.agent.streams
  · rw [TunnelConnection.dispatchFrame_put _ f (by simp [ht, FrameType.carriesData]) hmem]
    have halive := TunnelConnection.putPayload_alive s.agent f.requestId f.payload
    intro id
    by_cases heq : id = f.requestId
    · subst heq
      have hlane := (hinv f.requestId).deliver f _ hchan ht
      simpa [BodyState.lane, TunnelConnection.putPayload_buffered, hbuf, hmem, hloop,
        halive] using hlane
    · have hlane := hinv id
      simpa [BodyState.lane, TunnelConnection.putPayload_buffered, hbuf, hloop, halive,
        hother id heq, Ne.symm heq] using hlane
  · rw [TunnelConnection.dispatchFrame_drop _ f hmem]
    intro id
    by_cases heq : id = f.requestId
    · subst heq
      have hlane := (hinv f.requestId).deliver f _ hchan ht
      simpa [BodyState.lane, hmem] using hlane
    · have hlane := hinv id
      simpa [BodyState.lane, hother id heq] using hlane

private theorem bodyInv_bodyGet (hinv : BodyInv valid metadata requests s) (id₀ : UUID)
    (ps : List Bytes) (chunk : Bytes) (agent : TunnelConnection)
    (hpc : s.handler id₀ = .readingBody ps)
    (htake : s.agent.takeItem id₀ = some (chunk, agent)) :
    BodyInv valid metadata requests (s.onChunk id₀ ps chunk agent) := by
  have hstreams := TunnelConnection.takeItem_streams _ _ _ _ htake
  have hloop := TunnelConnection.takeItem_receiveLoop _ _ _ _ htake
  have hbuf := TunnelConnection.takeItem_buffered _ _ _ _ htake
  intro id
  by_cases heq : id = id₀
  · subst heq
    have hlane := (hinv id).chunk ps chunk (agent.buffered id) hpc hbuf
    unfold BodyState.onChunk
    split
    · rename_i hnil
      simpa [BodyState.lane, BodyState.setHandler, hnil, hloop,
        agent.streams_nodup.mem_erase_iff] using hlane
    · rename_i hnil
      simpa [BodyState.lane, BodyState.setHandler, hnil, hloop, hstreams] using hlane
  · have hlane := hinv id
    have hstates := TunnelConnection.takeItem_states_ne _ _ _ id _ htake heq
    have hbuf' : agent.buffered id = s.agent.buffered id := by
      simp [TunnelConnection.buffered, TunnelConnection.pendingPut, hloop, hstates]
    unfold BodyState.onChunk
    split
    · have hmem : id ∈ agent.streams.erase id₀ ↔ id ∈ s.agent.streams := by
        rw [agent.streams_nodup.mem_erase_iff, hstreams]
        simp [heq]
      simpa [BodyState.lane, BodyState.setHandler, hloop, hbuf', heq, hmem] using hlane
    · simpa [BodyState.lane, BodyState.setHandler, hloop, hbuf', heq, hstreams] using hlane

theorem bodyInv_step (s : BodyState) (a : BodyAction) (t : BodyState)
    (hinv : BodyInv valid metadata requests s) (h : s.step valid metadata a = some t) :
    BodyInv valid metadata requests t := by
  cases a with
  | send id =>
      obtain ⟨⟨pc, out⟩, hsend, rfl⟩ := Option.map_eq_some_iff.mp h
      exact bodyInv_send hinv id pc out hsend
  | receive =>
      simp only [BodyState.step] at h
      split at h
      · rename_i f rest hloop hin
        cases h
        have hchan : (s.lane f.requestId).channel = f :: framesOf f.requestId rest := by
          simp [BodyState.lane, hin, framesOf_cons_self]
        by_cases ht : f.type = .open
        · simpa [BodyState.onFrame, ht] using bodyInv_open hinv f rest hloop hin ht
        · have hdata : f.type = .data := by
            rcases (hinv f.requestId).head f _ hchan with ⟨hf, -, -⟩ | ⟨hf, -⟩
            · exact absurd (by rw [hf]) ht
            · rw [hf]
          simpa [BodyState.onFrame, ht] using bodyInv_data hinv f rest hloop hin hdata
      · cases h
  | resumePut =>
      obtain ⟨agent, hagent, rfl⟩ := Option.map_eq_some_iff.mp h
      have hbuf := TunnelConnection.resumePut_buffered _ _ hagent
      obtain ⟨id₀, p, hloop, hroom, rfl⟩ := TunnelConnection.resumePut_cases _ _ hagent
      intro id
      have hlane := hinv id
      simpa [BodyState.lane, hbuf, hloop, TunnelConnection.putPayload_receiveLoop,
        hroom] using hlane
  | startHandler id₀ =>
      simp only [BodyState.step] at h
      split at h
      · rename_i hpc
        have hmem : id₀ ∈ s.agent.streams := by
          have htab := (hinv id₀).table
          simpa [BodyState.lane, hpc] using htab
        have hget : s.agent.getStream id₀ = .ok (s.agent.states id₀) := by
          simp [TunnelConnection.getStream, hmem]
        rw [hget] at h
        cases h
        intro id
        by_cases heq : id = id₀
        · subst heq
          rw [BodyState.setHandler_lane_self]
          exact (hinv id).begin hpc
        · rw [BodyState.setHandler_lane_ne s id₀ id _ heq]
          exact hinv id
      · cases h
  | bodyGet id =>
      simp only [BodyState.step] at h
      split at h
      · rename_i ps hpc
        obtain ⟨⟨chunk, agent⟩, htake, rfl⟩ := Option.map_eq_some_iff.mp h
        exact bodyInv_bodyGet hinv id ps chunk agent hpc htake
      · cases h

/-- When nothing can move and the loop is alive, the channel is empty and no put is suspended. -/
private theorem quiescent_channel (hinv : BodyInv valid metadata requests s)
    (hq : TransitionSystem.Quiescent (BodyState.step valid metadata) s)
    (hlive : s.agent.receiveLoop ≠ .ended) :
    s.agent.receiveLoop = .receiving ∧ s.channel = [] := by
  cases hloop : s.agent.receiveLoop with
  | ended => exact absurd hloop hlive
  | receiving =>
      refine ⟨rfl, ?_⟩
      cases hin : s.channel with
      | nil => rfl
      | cons f rest =>
          have h := hq .receive
          simp [BodyState.step, hloop, hin] at h
  | putting id p =>
      have hfull : (s.agent.states id).queue.full = true := by
        have h := hq .resumePut
        simpa [BodyState.step, TunnelConnection.resumePut, hloop] using h
      have hbuf : s.agent.buffered id ≠ [] := by
        simp [TunnelConnection.buffered, TunnelConnection.pendingPut, hloop]
      have hlane := hinv id
      cases hpc : s.handler id with
      | absent => exact absurd (hlane.unopened hpc).1 hbuf
      | spawned =>
          have h := hq (.startHandler id)
          simp only [BodyState.step, hpc, if_true] at h
          split at h <;> cases h
      | readingBody ps =>
          obtain ⟨x, r, hget, -⟩ := BoundedQueue.get_of_full _ (by decide) hfull
          have h := hq (.bodyGet id)
          simp [BodyState.step, hpc, TunnelConnection.takeItem, hget] at h
      | rebuilt ps =>
          obtain ⟨_, -, -, hnone, -⟩ := hlane.rebuilt_nothing_left ps hpc
          exact absurd hnone hbuf
      | failed => exact absurd hpc hlane.running

private theorem quiescent_rebuilt (hinv : BodyInv valid metadata requests s)
    (hq : TransitionSystem.Quiescent (BodyState.step valid metadata) s)
    (hlive : s.agent.receiveLoop ≠ .ended) (id : UUID) (chunks : List Bytes)
    (hreq : requests id = some chunks) (hval : valid (metadata id) = true) :
    ∃ parts, s.handler id = .rebuilt parts := by
  obtain ⟨hloop, hchan⟩ := quiescent_channel hinv hq hlive
  have hlane := hinv id
  have hsent : s.sender id = .sent := by
    have h := hq (.send id)
    cases hs : s.sender id with
    | opening cs => simp [BodyState.step, hs, senderStep] at h
    | streaming cs => cases cs <;> simp [BodyState.step, hs, senderStep] at h
    | splitting c o r =>
        simp only [BodyState.step, hs, senderStep, Option.map_eq_none_iff] at h
        split at h <;> cases h
    | sent => rfl
  have hall : dataPayloads id (s.lane id).sent = bodyPayloads chunks := by
    have hacc := hlane.account
    simpa [hreq, BodyState.lane, hsent, SenderPc.remaining] using hacc
  cases hpc : s.handler id with
  | absent =>
      have heq := (hlane.unopened hpc).2 (by simp [BodyState.lane, hloop]) hval
      rw [← heq] at hall
      simp [BodyState.lane, hchan, framesOf, bodyPayloads] at hall
  | spawned =>
      have h := hq (.startHandler id)
      simp only [BodyState.step, hpc, if_true] at h
      split at h <;> cases h
  | readingBody ps =>
      have hitems : (s.agent.states id).queue.items = [] := by
        have h := hq (.bodyGet id)
        simpa [BodyState.step, hpc, TunnelConnection.takeItem_eq_none_iff] using h
      have hacc := (hlane.opened (by simp [BodyState.lane, hpc])).1
      have hps : ps = bodyPayloads chunks := by
        rw [hall] at hacc
        simpa [BodyState.lane, hpc, HandlerPc.taken, TunnelConnection.buffered,
          TunnelConnection.pendingPut, hloop, hitems, hchan, framesOf] using hacc
      exact absurd rfl (hlane.parts ps (.inl hpc) [] (by simp [hps, bodyPayloads]))
  | rebuilt ps => exact ⟨ps, rfl⟩
  | failed => exact absurd hpc hlane.running

end Steps

/-- The DATA frames of a request are the slices of its chunks, none of them empty, and then the
sentinel. -/
private theorem sent_payloads {valid : Bytes → Bool} {metadata : UUID → Bytes}
    {requests : UUID → Option (List Bytes)} {s : BodyState}
    (hinv : BodyInv valid metadata requests s) (id : UUID) :
    dataPayloads id s.sent <+: (requests id).elim [] bodyPayloads ∧
      (s.sender id = .sent → dataPayloads id s.sent = (requests id).elim [] bodyPayloads) := by
  have hacc := (hinv id).account
  have hsent : dataPayloads id (s.lane id).sent = dataPayloads id s.sent :=
    dataPayloads_framesOf id s.sent
  rw [hsent] at hacc
  have helim : ((requests id).map bodyPayloads).getD [] = (requests id).elim [] bodyPayloads := by
    cases requests id <;> rfl
  rw [helim] at hacc
  refine ⟨⟨_, hacc⟩, ?_⟩
  intro hpc
  simpa [BodyState.lane, hpc, SenderPc.remaining] using hacc

/-- Across every interleaving of the senders, the channel, the receive loop and the handlers: the
`content` that a handler rebuilds is the concatenation of the browser's chunks; every DATA frame
is within `MAX_PAYLOAD_BYTES`; the only empty one of a request is its last; and when nothing can
move any more, every request whose OPEN was admitted has been rebuilt. -/
theorem requestBody_integrity (valid : Bytes → Bool) (metadata : UUID → Bytes)
    (requests : UUID → Option (List Bytes)) (acts : List BodyAction) (s : BodyState)
    (hrun : TransitionSystem.run (BodyState.step valid metadata) (.start requests) acts = some s) :
    (∀ id chunks content, requests id = some chunks → (s.handler id).content = some content →
      content = chunks.flatten) ∧
    (∀ id, ∀ p ∈ dataPayloads id s.sent, p.length ≤ maxPayloadBytes) ∧
    (∀ id chunks, requests id = some chunks →
      (s.sender id = .sent → ∃ ps, dataPayloads id s.sent = ps ++ [[]] ∧ ∀ p ∈ ps, p ≠ []) ∧
      (s.sender id ≠ .sent → ∀ p ∈ dataPayloads id s.sent, p ≠ [])) ∧
    (TransitionSystem.Quiescent (BodyState.step valid metadata) s →
      s.agent.receiveLoop ≠ .ended → ∀ id chunks, requests id = some chunks →
      valid (metadata id) = true → (s.handler id).content = some chunks.flatten) := by
  have hinv : BodyInv valid metadata requests s :=
    TransitionSystem.run_invariant (BodyState.step valid metadata) _ bodyInv_step
      (bodyInv_start valid metadata requests) hrun
  have hcontent (id : UUID) (chunks parts : List Bytes) (hreq : requests id = some chunks)
      (hpc : s.handler id = .rebuilt parts) : parts.flatten = chunks.flatten := by
    obtain ⟨cs, hcs, rfl, -⟩ := (hinv id).rebuilt_nothing_left parts hpc
    rw [hreq] at hcs
    cases hcs
    exact flatMap_slices_flatten chunks
  refine ⟨?_, ?_, ?_, ?_⟩
  · intro id chunks content hreq hc
    cases hpc : s.handler id <;> rw [hpc] at hc <;> cases hc
    exact hcontent id chunks _ hreq hpc
  · intro id p hp
    obtain ⟨hpre, -⟩ := sent_payloads hinv id
    have hmem := hpre.subset hp
    cases hreq : requests id with
    | none => simp [hreq] at hmem
    | some chunks =>
        rw [hreq, Option.elim_some, bodyPayloads, List.mem_append] at hmem
        rcases hmem with hmem | hmem
        · exact (flatMap_slices_bounds chunks p hmem).2
        · have hnil : p = [] := by simpa using hmem
          simp [hnil]
  · intro id chunks hreq
    obtain ⟨hpre, hall⟩ := sent_payloads hinv id
    rw [hreq, Option.elim_some] at hpre hall
    have hslice (p : Bytes) (hp : p ∈ chunks.flatMap slices) : p ≠ [] :=
      (flatMap_slices_bounds chunks p hp).1
    refine ⟨?_, ?_⟩
    · intro hpc
      exact ⟨chunks.flatMap slices, hall hpc, hslice⟩
    · intro hpc p hp
      -- The sentinel is the last payload, and something is still unsent.
      have hacc := (hinv id).account
      have hsent : dataPayloads id (s.lane id).sent = dataPayloads id s.sent :=
        dataPayloads_framesOf id s.sent
      simp only [hsent, hreq, Option.map_some, Option.getD_some, bodyPayloads] at hacc
      have hrem : (s.lane id).sender.remaining ≠ [] := remaining_ne_nil _ hpc
      obtain ⟨last, x, hx⟩ := List.eq_nil_or_concat' _ |>.resolve_left hrem
      rw [hx, ← List.append_assoc] at hacc
      have hinit := (List.append_inj' hacc rfl).1
      apply hslice p
      rw [← hinit]
      exact List.mem_append_left _ hp
  · intro hq hlive id chunks hreq hval
    obtain ⟨parts, hpc⟩ := quiescent_rebuilt hinv hq hlive id chunks hreq hval
    rw [hpc]
    exact congrArg some (hcontent id chunks parts hreq hpc)

/-- Two uploads on one tunnel: one with an empty chunk, one without any byte. -/
def twoUploads : UUID → Option (List Bytes)
  | 1 => some [[1, 2], [], [3]]
  | 2 => some []
  | _ => none

def twoUploadsSchedule : List BodyAction :=
  [.send 1, .send 2, .receive, .receive, .send 1, .send 1, .startHandler 1, .receive, .send 2,
    .bodyGet 1, .send 1, .send 1, .send 1, .send 1, .send 1, .send 1, .send 1, .receive, .receive,
    .receive, .bodyGet 1, .bodyGet 1]

theorem requestBody_integrity_twoUploads :
    ∃ s content, TransitionSystem.run (BodyState.step (fun _ => true) fun _ => [])
        (.start twoUploads) twoUploadsSchedule = some s ∧
      (s.handler 1).content = some content ∧ content = [[1, 2], [], [3]].flatten := by
  refine ⟨_, [1, 2, 3], rfl, rfl, ?_⟩
  exact (requestBody_integrity (fun _ => true) (fun _ => []) twoUploads twoUploadsSchedule _
    rfl).1 1 _ _ rfl rfl

end NetworkFileServer.Agent
