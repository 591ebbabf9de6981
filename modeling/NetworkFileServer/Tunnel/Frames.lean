import Mathlib.Data.List.Basic

/-!
# Tunnel frames

The vocabulary of `tunnel/constants.py` and `tunnel/enums.py`: byte strings, stream identifiers,
frame types and the limits of the protocol.
-/

namespace NetworkFileServer.Tunnel

abbrev Bytes := List UInt8

/-- The 128 bits of a `uuid.UUID`. -/
abbrev UUID := BitVec 128

-- A shortcut: whether a stream is in a table is decided at every frame.
instance lawfulBEqUUID : LawfulBEq UUID := inferInstance

def maxPayloadBytes : Nat := 65536

def maxStreams : Nat := 100

def queueDepth : Nat := 64

inductive FrameType where
  | «open»
  | data
  | close
  | cancel
  | error
  | ping
  | pong
  | wsOpen
  | wsData
  | wsClose
deriving DecidableEq, Repr

/-- `frame_type in (FrameType.DATA, FrameType.WS_DATA)`. -/
def FrameType.carriesData : FrameType → Bool
  | .data | .wsData => true
  | _ => false

/-- `frame_type in (FrameType.CLOSE, FrameType.CANCEL, FrameType.ERROR, FrameType.WS_CLOSE)`. -/
def FrameType.endsStream : FrameType → Bool
  | .close | .cancel | .error | .wsClose => true
  | _ => false

/-- The frame types that `run_receive_loop_with_handlers` gives to its handlers. -/
def FrameType.opensStream : FrameType → Bool
  | .open | .wsOpen => true
  | _ => false

/-- What `deserialize_frame` hands to the receive loop. -/
structure Frame where
  type : FrameType
  requestId : UUID
  payload : Bytes
deriving DecidableEq, Repr

/-- The payloads of the DATA frames of one stream, in order. -/
def dataPayloads (id : UUID) (frames : List Frame) : List Bytes :=
  frames.filterMap fun f => if f.type = .data ∧ f.requestId = id then some f.payload else none

@[simp] theorem dataPayloads_nil (id : UUID) : dataPayloads id [] = [] := rfl

theorem dataPayloads_append (id : UUID) (fs gs : List Frame) :
    dataPayloads id (fs ++ gs) = dataPayloads id fs ++ dataPayloads id gs := by
  simp [dataPayloads]

theorem dataPayloads_cons (id : UUID) (f : Frame) (fs : List Frame) :
    dataPayloads id (f :: fs) =
      (if f.type = .data ∧ f.requestId = id then [f.payload] else []) ++ dataPayloads id fs := by
  unfold dataPayloads
  split <;> rename_i h <;> simp [h]

end NetworkFileServer.Tunnel
