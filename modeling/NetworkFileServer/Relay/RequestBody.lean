import NetworkFileServer.Tunnel.Frames

/-!
# Sending a request body

The part of `proxy_request` between `conn.open_stream` and `conn.read_stream`: one OPEN frame, the
browser's chunks cut into DATA frames of at most `MAX_PAYLOAD_BYTES`, and a zero-length DATA frame
as the end-of-body sentinel. Each state is a point at which the handler awaits.
-/

namespace NetworkFileServer.Relay

open Tunnel

inductive SenderPc where
  | opening (chunks : List Bytes)
  /-- At `async for chunk in request.stream()`. -/
  | streaming (chunks : List Bytes)
  /-- At the head of `while offset < len(chunk)`. -/
  | splitting (chunk : Bytes) (offset : Nat) (rest : List Bytes)
  | sent
deriving DecidableEq

/-- Run the handler to its next await; the frame it hands to the WebSocket, if any. -/
def senderStep (id : UUID) (metadata : Bytes) : SenderPc → Option (SenderPc × Option Frame)
  | .opening chunks => some (.streaming chunks, some ⟨.open, id, metadata⟩)
  | .streaming (chunk :: rest) => some (.splitting chunk 0 rest, none)
  | .streaming [] => some (.sent, some ⟨.data, id, []⟩)
  | .splitting chunk offset rest =>
      if offset < chunk.length then
        some (.splitting chunk (offset + maxPayloadBytes) rest,
          some ⟨.data, id, (chunk.drop offset).take maxPayloadBytes⟩)
      else some (.streaming rest, none)
  | .sent => none

/-- The slices that the splitting loop cuts from what is left of a chunk. -/
def slices (chunk : Bytes) : List Bytes :=
  if chunk = [] then [] else chunk.take maxPayloadBytes :: slices (chunk.drop maxPayloadBytes)
termination_by chunk.length
decreasing_by
  rename_i h
  have hpos := List.length_pos_iff.mpr h
  simp only [List.length_drop, maxPayloadBytes]
  omega

/-- The payloads of the DATA frames of a whole body. -/
def bodyPayloads (chunks : List Bytes) : List Bytes := chunks.flatMap slices ++ [[]]

/-- The payloads that a sender has still to send. -/
def SenderPc.remaining : SenderPc → List Bytes
  | .opening chunks | .streaming chunks => bodyPayloads chunks
  | .splitting chunk offset rest => slices (chunk.drop offset) ++ bodyPayloads rest
  | .sent => []

theorem slices_nil : slices [] = [] := by
  rw [slices]
  simp

theorem slices_cons (chunk : Bytes) (h : chunk ≠ []) :
    slices chunk = chunk.take maxPayloadBytes :: slices (chunk.drop maxPayloadBytes) := by
  rw [slices]
  simp [h]

theorem slices_flatten (chunk : Bytes) : (slices chunk).flatten = chunk := by
  induction chunk using slices.induct with
  | case1 => simp [slices_nil]
  | case2 chunk h ih =>
      rw [slices_cons chunk h, List.flatten_cons, ih, List.take_append_drop]

theorem slices_bounds (chunk p : Bytes) (hp : p ∈ slices chunk) :
    p ≠ [] ∧ p.length ≤ maxPayloadBytes := by
  induction chunk using slices.induct with
  | case1 => simp [slices_nil] at hp
  | case2 chunk h ih =>
      rw [slices_cons chunk h] at hp
      rcases List.mem_cons.mp hp with rfl | hp
      · refine ⟨?_, List.length_take_le _ _⟩
        simp [h, maxPayloadBytes]
      · exact ih hp

theorem flatMap_slices_flatten (chunks : List Bytes) :
    (chunks.flatMap slices).flatten = chunks.flatten := by
  induction chunks with
  | nil => rfl
  | cons chunk rest ih =>
      rw [List.flatMap_cons, List.flatten_append, slices_flatten, ih, List.flatten_cons]

theorem flatMap_slices_bounds (chunks : List Bytes) (p : Bytes)
    (hp : p ∈ chunks.flatMap slices) : p ≠ [] ∧ p.length ≤ maxPayloadBytes := by
  obtain ⟨chunk, _, hmem⟩ := List.mem_flatMap.mp hp
  exact slices_bounds chunk p hmem

theorem senderStep_remaining (id : UUID) (metadata : Bytes) (pc pc' : SenderPc)
    (out : Option Frame) (h : senderStep id metadata pc = some (pc', out)) :
    pc.remaining = dataPayloads id out.toList ++ pc'.remaining := by
  cases pc with
  | opening chunks =>
      cases h
      rfl
  | streaming chunks =>
      cases chunks with
      | nil =>
          cases h
          simp [SenderPc.remaining, bodyPayloads, dataPayloads]
      | cons chunk rest =>
          cases h
          simp [SenderPc.remaining, bodyPayloads]
  | splitting chunk offset rest =>
      simp only [senderStep] at h
      split at h
      · rename_i hlt
        cases h
        have hne : chunk.drop offset ≠ [] := by
          simp only [ne_eq, List.drop_eq_nil_iff, Nat.not_le]
          exact hlt
        simp [SenderPc.remaining, slices_cons _ hne, dataPayloads, List.drop_drop]
      · rename_i hge
        cases h
        have hnil : chunk.drop offset = [] := by
          rw [List.drop_eq_nil_iff]
          omega
        simp [SenderPc.remaining, hnil, slices_nil]
  | sent => cases h

theorem senderStep_frame (id : UUID) (metadata : Bytes) (pc pc' : SenderPc) (f : Frame)
    (h : senderStep id metadata pc = some (pc', some f)) :
    (∃ chunks, pc = .opening chunks ∧ f = ⟨.open, id, metadata⟩) ∨
      ((∀ chunks, pc ≠ .opening chunks) ∧ f = ⟨.data, id, f.payload⟩) := by
  cases pc with
  | opening chunks =>
      cases h
      exact .inl ⟨chunks, rfl, rfl⟩
  | streaming chunks =>
      cases chunks with
      | nil =>
          cases h
          exact .inr ⟨by simp, rfl⟩
      | cons chunk rest => cases h
  | splitting chunk offset rest =>
      simp only [senderStep] at h
      split at h
      · cases h
        exact .inr ⟨by simp, rfl⟩
      · cases h
  | sent => cases h

end NetworkFileServer.Relay
