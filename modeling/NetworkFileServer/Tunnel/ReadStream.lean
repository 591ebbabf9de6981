import NetworkFileServer.Tunnel.Connection

/-!
# `read_stream_iter` as a coroutine

One state for every point at which the generator can be suspended, one event for every coroutine
that can move it. In `await asyncio.wait({get_task, closed_task})` the two tasks run on their own:
`getTask` takes an item, `closedTask` sees the closed event, and `resume` is the generator being
woken after at least one of them is done. A `get_task` that is cancelled there has taken nothing.
-/

namespace NetworkFileServer.Tunnel

inductive IterPc where
  /-- In `asyncio.wait`, with the result of `get_task` if it is done, and whether `closed_task` is. -/
  | waiting (got : Option Bytes) (closedDone : Bool)
  /-- At `yield get_task.result()`. -/
  | yielded
  /-- At `yield state.queue.get_nowait()` in the drain loop. -/
  | draining
  | finished
deriving DecidableEq

inductive IterEvent where
  | getTask
  | closedTask
  | resume
  | next
deriving DecidableEq

/-- A completed `get_task` owns its item until the generator yields it. -/
def IterPc.held : IterPc → List Bytes
  | .waiting (some p) _ => [p]
  | .waiting none _ | .yielded | .draining | .finished => []

namespace TunnelConnection

/-- One round of `while not state.queue.empty(): yield state.queue.get_nowait()`. -/
def drain (conn : TunnelConnection) (id : UUID) : TunnelConnection × IterPc × Option Bytes :=
  match conn.takeItem id with
  | some (p, conn') => (conn', .draining, some p)
  | none => (conn.removeStream id, .finished, none)

/-- Advance the generator; the last component is the payload it yields, if any. -/
def iterStep (conn : TunnelConnection) (id : UUID) :
    IterPc → IterEvent → Option (TunnelConnection × IterPc × Option Bytes)
  | .waiting none closedDone, .getTask =>
      (conn.takeItem id).map fun (p, conn') => (conn', .waiting (some p) closedDone, none)
  | .waiting got false, .closedTask =>
      if (conn.states id).closed then some (conn, .waiting got true, none) else none
  | .waiting (some p) _, .resume => some (conn, .yielded, some p)
  | .waiting none true, .resume => some (conn.drain id)
  | .yielded, .next =>
      if (conn.states id).closed && (conn.states id).queue.items.isEmpty then
        some (conn.removeStream id, .finished, none)
      else some (conn, .waiting none false, none)
  | .draining, .next => some (conn.drain id)
  | _, _ => none

/-- What the position of the generator says about its stream. -/
def IterConsistent (conn : TunnelConnection) (id : UUID) : IterPc → Prop
  | .waiting _ closedDone => closedDone = true → (conn.states id).closed = true
  | .yielded => True
  | .draining => (conn.states id).closed = true
  | .finished => (conn.states id).closed = true ∧ (conn.states id).queue.items = []

theorem IterConsistent.mono {conn conn' : TunnelConnection} {id : UUID} {pc : IterPc}
    (h : conn.IterConsistent id pc)
    (hclosed : (conn.states id).closed = true → (conn'.states id).closed = true)
    (hqueue : pc = .finished → (conn'.states id).queue = (conn.states id).queue) :
    conn'.IterConsistent id pc := by
  cases pc with
  | waiting got done => exact fun hdone => hclosed (h hdone)
  | yielded => trivial
  | draining => exact hclosed h
  | finished =>
      refine ⟨hclosed h.1, ?_⟩
      rw [hqueue rfl]
      exact h.2

/-- Everything that one move of the generator can do: take an item, remove the stream, or
only change its own position. -/
theorem iterStep_cases (conn conn' : TunnelConnection) (id : UUID) (pc pc' : IterPc)
    (e : IterEvent) (out : Option Bytes) (h : conn.iterStep id pc e = some (conn', pc', out)) :
    (∃ p c, pc = .waiting none c ∧ e = .getTask ∧ conn.takeItem id = some (p, conn') ∧
        pc' = .waiting (some p) c ∧ out = none) ∨
    (∃ got, pc = .waiting got false ∧ e = .closedTask ∧ (conn.states id).closed = true ∧
        conn' = conn ∧ pc' = .waiting got true ∧ out = none) ∨
    (∃ p c, pc = .waiting (some p) c ∧ e = .resume ∧ conn' = conn ∧ pc' = .yielded ∧
        out = some p) ∨
    (∃ p, ((pc = .waiting none true ∧ e = .resume) ∨ (pc = .draining ∧ e = .next)) ∧
        conn.takeItem id = some (p, conn') ∧ pc' = .draining ∧ out = some p) ∨
    (((pc = .waiting none true ∧ e = .resume) ∨ (pc = .draining ∧ e = .next) ∨
        (pc = .yielded ∧ e = .next ∧ (conn.states id).closed = true)) ∧
        (conn.states id).queue.items = [] ∧ conn' = conn.removeStream id ∧ pc' = .finished ∧
        out = none) ∨
    (pc = .yielded ∧ e = .next ∧ conn' = conn ∧ pc' = .waiting none false ∧ out = none) := by
  unfold iterStep at h
  split at h
  · rename_i c
    obtain ⟨⟨p, conn''⟩, ht, heq⟩ := Option.map_eq_some_iff.mp h
    cases heq
    exact .inl ⟨p, c, rfl, rfl, ht, rfl, rfl⟩
  · rename_i got
    split at h
    · rename_i hc
      cases h
      exact .inr (.inl ⟨got, rfl, rfl, hc, rfl, rfl, rfl⟩)
    · cases h
  · rename_i p c
    cases h
    exact .inr (.inr (.inl ⟨p, c, rfl, rfl, rfl, rfl, rfl⟩))
  · have hd := Option.some.inj h
    unfold drain at hd
    split at hd
    · rename_i p conn'' ht
      cases hd
      exact .inr (.inr (.inr (.inl ⟨p, .inl ⟨rfl, rfl⟩, ht, rfl, rfl⟩)))
    · rename_i ht
      cases hd
      exact .inr (.inr (.inr (.inr (.inl ⟨.inl ⟨rfl, rfl⟩, (takeItem_eq_none_iff _ _).mp ht,
        rfl, rfl, rfl⟩))))
  · split at h
    · rename_i hc
      cases h
      simp only [Bool.and_eq_true, List.isEmpty_iff] at hc
      exact .inr (.inr (.inr (.inr (.inl ⟨.inr (.inr ⟨rfl, rfl, hc.1⟩), hc.2, rfl, rfl, rfl⟩))))
    · cases h
      exact .inr (.inr (.inr (.inr (.inr ⟨rfl, rfl, rfl, rfl, rfl⟩))))
  · have hd := Option.some.inj h
    unfold drain at hd
    split at hd
    · rename_i p conn'' ht
      cases hd
      exact .inr (.inr (.inr (.inl ⟨p, .inr ⟨rfl, rfl⟩, ht, rfl, rfl⟩)))
    · rename_i ht
      cases hd
      exact .inr (.inr (.inr (.inr (.inl ⟨.inr (.inl ⟨rfl, rfl⟩),
        (takeItem_eq_none_iff _ _).mp ht, rfl, rfl, rfl⟩))))
  · cases h

/-- No item is lost or invented: what the generator held and what was buffered is what it yields,
what it holds now and what is buffered now. -/
theorem iterStep_buffered (conn conn' : TunnelConnection) (id : UUID) (pc pc' : IterPc)
    (e : IterEvent) (out : Option Bytes) (h : conn.iterStep id pc e = some (conn', pc', out)) :
    pc.held ++ conn.buffered id = out.toList ++ (pc'.held ++ conn'.buffered id) := by
  rcases iterStep_cases conn conn' id pc pc' e out h with
    ⟨p, c, rfl, -, ht, rfl, rfl⟩ | ⟨got, rfl, -, -, rfl, rfl, rfl⟩ | ⟨p, c, rfl, -, rfl, rfl, rfl⟩ |
    ⟨p, hpc, ht, rfl, rfl⟩ | ⟨hpc, -, rfl, rfl, rfl⟩ | ⟨rfl, -, rfl, rfl, rfl⟩
  · simp [IterPc.held, takeItem_buffered conn conn' id p ht]
  · cases got <;> rfl
  · rfl
  · have hheld : pc.held = [] := by rcases hpc with ⟨rfl, -⟩ | ⟨rfl, -⟩ <;> rfl
    rw [hheld, takeItem_buffered conn conn' id p ht]
    rfl
  · have hheld : pc.held = [] := by
      rcases hpc with ⟨rfl, -⟩ | ⟨rfl, -⟩ | ⟨rfl, -, -⟩ <;> rfl
    rw [hheld]
    rfl
  · rfl

theorem iterStep_touches (conn conn' : TunnelConnection) (id : UUID) (pc pc' : IterPc)
    (e : IterEvent) (out : Option Bytes) (h : conn.iterStep id pc e = some (conn', pc', out)) :
    Touches id conn conn' := by
  rcases iterStep_cases conn conn' id pc pc' e out h with
    ⟨p, c, -, -, ht, -, -⟩ | ⟨got, -, -, -, rfl, -, -⟩ | ⟨p, c, -, -, rfl, -, -⟩ |
    ⟨p, -, ht, -, -⟩ | ⟨-, -, rfl, -, -⟩ | ⟨-, -, rfl, -, -⟩
  · exact .take p ht
  · exact .refl
  · exact .refl
  · exact .take p ht
  · exact .remove .refl
  · exact .refl

theorem iterStep_finished (conn conn' : TunnelConnection) (id : UUID) (pc : IterPc)
    (e : IterEvent) (out : Option Bytes) (h : conn.iterStep id pc e = some (conn', .finished, out)) :
    conn' = conn.removeStream id ∧ out = none ∧ pc.held = [] ∧
      (conn.states id).queue.items = [] := by
  rcases iterStep_cases conn conn' id pc .finished e out h with
    ⟨p, c, -, -, -, hpc, -⟩ | ⟨got, -, -, -, -, hpc, -⟩ | ⟨p, c, -, -, -, hpc, -⟩ |
    ⟨p, -, -, hpc, -⟩ | ⟨hpc, hempty, rfl, -, rfl⟩ | ⟨-, -, -, hpc, -⟩
  · cases hpc
  · cases hpc
  · cases hpc
  · cases hpc
  · refine ⟨rfl, rfl, ?_, hempty⟩
    rcases hpc with ⟨rfl, -⟩ | ⟨rfl, -⟩ | ⟨rfl, -, -⟩ <;> rfl
  · cases hpc

/-- The stream leaves the table exactly when the generator finishes. -/
theorem iterStep_streams (conn conn' : TunnelConnection) (id : UUID) (pc pc' : IterPc)
    (e : IterEvent) (out : Option Bytes) (h : conn.iterStep id pc e = some (conn', pc', out)) :
    conn'.streams = if pc' = .finished then conn.streams.erase id else conn.streams := by
  rcases iterStep_cases conn conn' id pc pc' e out h with
    ⟨p, c, -, -, ht, rfl, -⟩ | ⟨got, -, -, -, rfl, rfl, -⟩ | ⟨p, c, -, -, rfl, rfl, -⟩ |
    ⟨p, -, ht, rfl, -⟩ | ⟨-, -, rfl, rfl, -⟩ | ⟨-, -, rfl, rfl, -⟩
  · simpa using takeItem_streams conn conn' id p ht
  · simp
  · simp
  · simpa using takeItem_streams conn conn' id p ht
  · simp
  · simp

theorem iterStep_consistent (conn conn' : TunnelConnection) (id : UUID) (pc pc' : IterPc)
    (e : IterEvent) (out : Option Bytes) (h : conn.iterStep id pc e = some (conn', pc', out))
    (hc : conn.IterConsistent id pc) : conn'.IterConsistent id pc' := by
  have hclosed := (iterStep_touches conn conn' id pc pc' e out h).closed id
  rcases iterStep_cases conn conn' id pc pc' e out h with
    ⟨p, c, rfl, -, -, rfl, -⟩ | ⟨got, -, -, hset, rfl, rfl, -⟩ | ⟨p, c, -, -, -, rfl, -⟩ |
    ⟨p, hpc, -, rfl, -⟩ | ⟨hpc, hempty, rfl, rfl, -⟩ | ⟨-, -, -, rfl, -⟩
  · intro hdone
    rw [hclosed]
    exact hc hdone
  · exact fun _ => hset
  · trivial
  · rcases hpc with ⟨rfl, -⟩ | ⟨rfl, -⟩
    · exact hclosed.trans (hc rfl)
    · exact hclosed.trans hc
  · refine ⟨?_, hempty⟩
    rcases hpc with ⟨rfl, -⟩ | ⟨rfl, -⟩ | ⟨-, -, hset⟩
    · exact hc rfl
    · exact hc
    · exact hset
  · intro hdone
    cases hdone

end TunnelConnection

end NetworkFileServer.Tunnel
