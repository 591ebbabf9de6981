import NetworkFileServer.Framework.BigEndian
import NetworkFileServer.Tunnel.Frames

/-!
# The wire format of a frame

`tunnel/frames.py`: one byte for the type, the 16 bytes of the UUID, four bytes for the length of the payload, and
the payload. `struct` and `uuid.UUID` refuse byte strings of other lengths than theirs.
-/

namespace NetworkFileServer.Tunnel

/-- The value of a `FrameType`. -/
def FrameType.value : FrameType → UInt8
  | .open => 0x01
  | .data => 0x02
  | .close => 0x03
  | .cancel => 0x04
  | .error => 0x05
  | .ping => 0x06
  | .pong => 0x07
  | .wsOpen => 0x08
  | .wsData => 0x09
  | .wsClose => 0x0A

inductive FrameError where
  /-- A `FrameTooLargeError`. -/
  | frameTooLarge (size : Nat)
  | tooShort (size : Nat)
  | lengthMismatch (declared actual : Nat)
  /-- The `ValueError` of `FrameType`. -/
  | unknownType (typeByte : UInt8)
  /-- The `ValueError` of `uuid.UUID`. -/
  | badUuid
  | structError
deriving DecidableEq

def FrameError.isTunnelError : FrameError → Bool
  | .frameTooLarge _ | .tooShort _ | .lengthMismatch _ _ => true
  | .unknownType _ | .badUuid | .structError => false

def FrameError.isValueError : FrameError → Bool
  | .unknownType _ | .badUuid => true
  | .frameTooLarge _ | .tooShort _ | .lengthMismatch _ _ | .structError => false

/-- `struct.calcsize(HEADER_FORMAT)` -/
def headerSize : Nat := 21

/-- `request_id.bytes` -/
def uuidBytes (id : UUID) : Bytes := BigEndian.encode 16 id.toNat

/-- `uuid.UUID(bytes=...)` -/
def uuidOfBytes (bytes : Bytes) : Except FrameError UUID :=
  if bytes.length = 16 then .ok (BitVec.ofNat 128 (BigEndian.decode bytes)) else .error .badUuid

/-- `struct.pack(HEADER_FORMAT, ...)` -/
def packHeader (frameType : FrameType) (uuid : Bytes) (payloadLength : Nat) : Except FrameError Bytes :=
  if payloadLength < 2 ^ 32 then
    .ok (frameType.value :: (uuid ++ List.replicate 16 0).take 16 ++ BigEndian.encode 4 payloadLength)
  else .error .structError

/-- `struct.unpack(HEADER_FORMAT, ...)` -/
def unpackHeader : Bytes → Except FrameError (UInt8 × Bytes × Nat)
  | typeByte :: rest =>
      if rest.length = 20 then .ok (typeByte, rest.take 16, BigEndian.decode (rest.drop 16))
      else .error .structError
  | [] => .error .structError

/-- `FrameType(type_byte)` -/
def frameTypeOf (typeByte : UInt8) : Except FrameError FrameType :=
  match [FrameType.open, .data, .close, .cancel, .error, .ping, .pong, .wsOpen, .wsData, .wsClose].find?
      (fun frameType => frameType.value = typeByte) with
  | some frameType => .ok frameType
  | none => .error (.unknownType typeByte)

def serializeFrame (frameType : FrameType) (requestId : UUID) (payload : Bytes) : Except FrameError Bytes := do
  if payload.length > maxPayloadBytes then throw (.frameTooLarge payload.length)
  let header ← packHeader frameType (uuidBytes requestId) payload.length
  return header ++ payload

def deserializeFrame (data : Bytes) : Except FrameError Frame := do
  if data.length < headerSize then throw (.tooShort data.length)
  let (typeByte, uuid, payloadLength) ← unpackHeader (data.take headerSize)
  let frameType ← frameTypeOf typeByte
  let actualPayload := data.drop headerSize
  if actualPayload.length ≠ payloadLength then throw (.lengthMismatch payloadLength actualPayload.length)
  let requestId ← uuidOfBytes uuid
  return ⟨frameType, requestId, actualPayload⟩

theorem frameTypeOf_eq_ok (typeByte : UInt8) (frameType : FrameType) :
    frameTypeOf typeByte = .ok frameType ↔ frameType.value = typeByte := by
  constructor
  · intro h
    unfold frameTypeOf at h
    split at h
    · rename_i found hfound
      cases h
      simpa using List.find?_some hfound
    · cases h
  · rintro rfl
    cases frameType <;> decide

theorem frameTypeOf_error (typeByte : UInt8) (e : FrameError) (h : frameTypeOf typeByte = .error e) :
    e = .unknownType typeByte := by
  unfold frameTypeOf at h
  split at h
  · cases h
  · exact (Except.error.inj h).symm

@[simp] theorem length_uuidBytes (id : UUID) : (uuidBytes id).length = 16 := BigEndian.length_encode 16 _

theorem uuidOfBytes_uuidBytes (id : UUID) : uuidOfBytes (uuidBytes id) = .ok id := by
  have hlt : id.toNat < 256 ^ 16 := by
    have hid := id.isLt
    omega
  rw [uuidOfBytes, if_pos (length_uuidBytes id), uuidBytes, BigEndian.decode_encode 16 _ hlt, BitVec.ofNat_toNat]
  simp

theorem uuidBytes_of_length (bytes : Bytes) (h : bytes.length = 16) :
    ∃ id, uuidOfBytes bytes = .ok id ∧ uuidBytes id = bytes := by
  refine ⟨BitVec.ofNat 128 (BigEndian.decode bytes), by rw [uuidOfBytes, if_pos h], ?_⟩
  have hlt := BigEndian.decode_lt bytes
  rw [h] at hlt
  have hnat : (BitVec.ofNat 128 (BigEndian.decode bytes)).toNat = BigEndian.decode bytes := by
    rw [BitVec.toNat_ofNat, Nat.mod_eq_of_lt (by omega)]
  rw [uuidBytes, hnat, ← h, BigEndian.encode_decode]

theorem packHeader_ok (frameType : FrameType) (id : UUID) (size : Nat) (h : size < 2 ^ 32) :
    packHeader frameType (uuidBytes id) size =
      .ok (frameType.value :: uuidBytes id ++ BigEndian.encode 4 size) := by
  rw [packHeader, if_pos h, List.take_append_of_le_length (by simp), List.take_of_length_le (by simp)]

theorem serializeFrame_ok (frameType : FrameType) (id : UUID) (payload : Bytes)
    (h : payload.length ≤ maxPayloadBytes) :
    serializeFrame frameType id payload =
      .ok (frameType.value :: uuidBytes id ++ BigEndian.encode 4 payload.length ++ payload) := by
  have hnot : ¬payload.length > maxPayloadBytes := by omega
  have hsize : payload.length < 2 ^ 32 := by
    have hmax : maxPayloadBytes = 65536 := rfl
    omega
  simp only [serializeFrame, if_neg hnot, packHeader_ok frameType id _ hsize]
  rfl

theorem header_split (data : Bytes) (h : headerSize ≤ data.length) :
    ∃ typeByte uuid size payload, uuid.length = 16 ∧ size.length = 4 ∧
      data = typeByte :: uuid ++ size ++ payload := by
  cases data with
  | nil => simp [headerSize] at h
  | cons typeByte rest =>
      have hlen : 20 ≤ rest.length := by
        simp only [headerSize, List.length_cons] at h
        omega
      refine ⟨typeByte, rest.take 16, (rest.drop 16).take 4, rest.drop 20, ?_, ?_, ?_⟩
      · rw [List.length_take]
        omega
      · rw [List.length_take, List.length_drop]
        omega
      · have hrest : (rest.drop 16).take 4 ++ rest.drop 20 = rest.drop 16 := by
          have htake := List.take_append_drop 4 (rest.drop 16)
          rwa [List.drop_drop] at htake
        rw [List.cons_append, List.cons_append, List.append_assoc, hrest, List.take_append_drop]

theorem deserializeFrame_split (typeByte : UInt8) (uuid size payload : Bytes) (huuid : uuid.length = 16)
    (hsize : size.length = 4) :
    deserializeFrame (typeByte :: uuid ++ size ++ payload) =
      (frameTypeOf typeByte).bind fun frameType =>
        if payload.length ≠ BigEndian.decode size then
          .error (.lengthMismatch (BigEndian.decode size) payload.length)
        else (uuidOfBytes uuid).map fun requestId => ⟨frameType, requestId, payload⟩ := by
  have hheader : (typeByte :: uuid ++ size).length = headerSize := by
    simp [headerSize, huuid, hsize]
  have hnot : ¬(typeByte :: uuid ++ size ++ payload).length < headerSize := by
    rw [List.length_append, hheader]
    omega
  have htake : (typeByte :: uuid ++ size ++ payload).take headerSize = typeByte :: (uuid ++ size) := by
    rw [← hheader, List.take_left]
    rfl
  have hdrop : (typeByte :: uuid ++ size ++ payload).drop headerSize = payload := by
    rw [← hheader, List.drop_left]
  have hunpack : unpackHeader (typeByte :: (uuid ++ size)) = .ok (typeByte, uuid, BigEndian.decode size) := by
    rw [unpackHeader, if_pos (by simp [huuid, hsize]), List.take_left' huuid, List.drop_left' huuid]
  unfold deserializeFrame
  rw [if_neg hnot, htake, hdrop, hunpack]
  change (frameTypeOf typeByte).bind _ = _
  cases frameTypeOf typeByte with
  | error e => rfl
  | ok frameType =>
      change (if payload.length ≠ BigEndian.decode size then _ else _) = _
      split
      · rfl
      · change (uuidOfBytes uuid).bind _ = _
        cases uuidOfBytes uuid <;> rfl

/-- A byte string that is a frame. -/
def IsFrame (data : Bytes) : Prop :=
  headerSize ≤ data.length ∧ (∃ frameType : FrameType, data.head? = some frameType.value) ∧
    BigEndian.decode ((data.drop 17).take 4) = data.length - headerSize

/-- The parser on any byte string: the frame that it is written as, or one of the documented exceptions. -/
theorem deserializeFrame_cases (data : Bytes) :
    (IsFrame data ∧ ∃ f, deserializeFrame data = .ok f ∧
        data = f.type.value :: uuidBytes f.requestId ++ BigEndian.encode 4 f.payload.length ++ f.payload) ∨
      ¬IsFrame data ∧ ∃ e, deserializeFrame data = .error e ∧ (e.isTunnelError || e.isValueError) = true := by
  by_cases hlen : headerSize ≤ data.length
  · obtain ⟨typeByte, uuid, size, payload, huuid, hsize, rfl⟩ := header_split data hlen
    obtain ⟨id, hid, hbytes⟩ := uuidBytes_of_length uuid huuid
    have hfield : ((typeByte :: uuid ++ size ++ payload).drop 17).take 4 = size := by
      have hlen17 : (typeByte :: uuid).length = 17 := by simp [huuid]
      rw [List.append_assoc, List.drop_left' hlen17, List.take_left' hsize]
    have hpayload : (typeByte :: uuid ++ size ++ payload).length - headerSize = payload.length := by
      simp only [List.length_append, List.length_cons, huuid, hsize, headerSize]
      omega
    have hisFrame : IsFrame (typeByte :: uuid ++ size ++ payload) ↔
        (∃ frameType : FrameType, frameType.value = typeByte) ∧ payload.length = BigEndian.decode size := by
      unfold IsFrame
      rw [hfield, hpayload, and_iff_right hlen]
      simp [eq_comm]
    rw [deserializeFrame_split typeByte uuid size payload huuid hsize, hisFrame]
    cases htype : frameTypeOf typeByte with
    | error e =>
        right
        have hunknown : ¬∃ frameType : FrameType, frameType.value = typeByte := by
          rintro ⟨frameType, hvalue⟩
          rw [(frameTypeOf_eq_ok typeByte frameType).mpr hvalue] at htype
          cases htype
        refine ⟨fun h => hunknown h.1, e, rfl, ?_⟩
        rw [frameTypeOf_error typeByte e htype]
        rfl
    | ok frameType =>
        have hvalue := (frameTypeOf_eq_ok typeByte frameType).mp htype
        by_cases hmatch : payload.length = BigEndian.decode size
        · left
          refine ⟨⟨⟨frameType, hvalue⟩, hmatch⟩, ⟨frameType, id, payload⟩, ?_, ?_⟩
          · simp [Except.bind, hmatch, hid, Except.map]
          · have hencode : BigEndian.encode 4 payload.length = size := by
              rw [hmatch, ← hsize, BigEndian.encode_decode]
            simp only [hvalue, hbytes, hencode]
        · right
          refine ⟨fun h => hmatch h.2, .lengthMismatch (BigEndian.decode size) payload.length, ?_, rfl⟩
          simp [Except.bind, hmatch]
  · right
    refine ⟨fun h => hlen h.1, .tooShort data.length, ?_, rfl⟩
    unfold deserializeFrame
    rw [if_pos (by omega)]
    rfl

theorem deserializeFrame_serialized (frameType : FrameType) (id : UUID) (payload : Bytes)
    (h : payload.length ≤ maxPayloadBytes) :
    (serializeFrame frameType id payload).bind deserializeFrame = .ok ⟨frameType, id, payload⟩ := by
  have hsize : payload.length < 256 ^ 4 := by
    have hmax : maxPayloadBytes = 65536 := rfl
    omega
  have hread := deserializeFrame_split frameType.value (uuidBytes id) (BigEndian.encode 4 payload.length) payload
    (length_uuidBytes id) (BigEndian.length_encode 4 _)
  rw [BigEndian.decode_encode 4 _ hsize, uuidOfBytes_uuidBytes, (frameTypeOf_eq_ok _ frameType).mpr rfl] at hread
  rw [serializeFrame_ok frameType id payload h, Except.bind, hread]
  simp [Except.bind, Except.map]

/-- Frames are read back; exactly the byte strings that are frames are read, and written again as they were; and
everything else is a `TunnelError` or a `ValueError`. -/
theorem frame_codec :
    (∀ (frameType : FrameType) (id : UUID) (payload : Bytes), payload.length ≤ maxPayloadBytes →
      (serializeFrame frameType id payload).bind deserializeFrame = .ok ⟨frameType, id, payload⟩) ∧
    ∀ data : Bytes,
      ((∃ f, deserializeFrame data = .ok f) ↔ IsFrame data) ∧
      (∀ f, deserializeFrame data = .ok f → f.payload.length ≤ maxPayloadBytes →
        serializeFrame f.type f.requestId f.payload = .ok data) ∧
      (¬IsFrame data → ∃ e, deserializeFrame data = .error e ∧ (e.isTunnelError || e.isValueError) = true) := by
  refine ⟨deserializeFrame_serialized, ?_⟩
  intro data
  rcases deserializeFrame_cases data with ⟨hframe, f, hok, hdata⟩ | ⟨hnot, e, herror, hclass⟩
  · refine ⟨iff_of_true ⟨f, hok⟩ hframe, ?_, fun hnot => absurd hframe hnot⟩
    intro f' hok' hsize
    obtain rfl : f = f' := Except.ok.inj (hok.symm.trans hok')
    rw [serializeFrame_ok _ _ _ hsize, ← hdata]
  · have hfails : ¬∃ f, deserializeFrame data = .ok f := by
      rintro ⟨f, hok⟩
      rw [hok] at herror
      cases herror
    refine ⟨iff_of_false hfails hnot, ?_, fun _ => ⟨e, herror, hclass⟩⟩
    intro f hok
    exact absurd ⟨f, hok⟩ hfails

theorem frame_codec_ping :
    ([1, 2, 3] : Bytes).length ≤ maxPayloadBytes ∧
      (serializeFrame .ping 7 [1, 2, 3]).bind deserializeFrame = .ok ⟨.ping, 7, [1, 2, 3]⟩ :=
  have hsize : ([1, 2, 3] : Bytes).length ≤ maxPayloadBytes := by decide
  ⟨hsize, frame_codec.1 .ping 7 [1, 2, 3] hsize⟩

end NetworkFileServer.Tunnel
