import NetworkFileServer.Tunnel.Frames

/-!
# The payload of a WS_DATA frame

`tunnel/ws_payload.py`: a marker byte for the kind of a WebSocket message, then its content. A text
is a sequence of Unicode scalar values, as in a WebSocket message, so that it always has a UTF-8
encoding.
-/

namespace NetworkFileServer.Tunnel

inductive WsMessageKind where
  | text
  | binary
deriving DecidableEq, Repr

def WsMessageKind.value : WsMessageKind → UInt8
  | .text => 0x00
  | .binary => 0x01

/-- The two ways in which `decode_ws_message` raises a `TunnelError`. -/
inductive WsPayloadError where
  | missingMarker
  | unknownMarker (marker : UInt8)
deriving DecidableEq, Repr

/-- `text.encode("utf-8")`. -/
def utf8Encode (text : String) : Bytes := text.toByteArray.data.toList

/-- `data.decode("utf-8")`, `none` for a `UnicodeDecodeError`. -/
def utf8Decode (data : Bytes) : Option String := String.fromUTF8? ⟨data.toArray⟩

def encodeTextMessage (text : String) : Bytes := WsMessageKind.text.value :: utf8Encode text

def encodeBinaryMessage (data : Bytes) : Bytes := WsMessageKind.binary.value :: data

def decodeWsMessage : Bytes → Except WsPayloadError (WsMessageKind × Bytes)
  | [] => .error .missingMarker
  | marker :: data =>
      if marker = WsMessageKind.text.value then .ok (.text, data)
      else if marker = WsMessageKind.binary.value then .ok (.binary, data)
      else .error (.unknownMarker marker)

/-- A message of a browser or of a local WebSocket. -/
inductive WsMessage where
  | text (content : String)
  | binary (content : Bytes)
deriving DecidableEq

/-- What `browser_to_agent` and `local_to_relay` hand to `send_ws_data`. -/
def WsMessage.encode : WsMessage → Bytes
  | .text content => encodeTextMessage content
  | .binary content => encodeBinaryMessage content

/-- What `agent_to_browser` and `relay_to_local` send on for a chunk; `none` where they raise. -/
def WsMessage.decode (chunk : Bytes) : Option WsMessage :=
  match decodeWsMessage chunk with
  | .ok (.text, data) => (utf8Decode data).map .text
  | .ok (.binary, data) => some (.binary data)
  | .error _ => none

/-- The length of the content in bytes. -/
def WsMessage.size : WsMessage → Nat
  | .text content => (utf8Encode content).length
  | .binary content => content.length

theorem utf8Decode_utf8Encode (text : String) : utf8Decode (utf8Encode text) = some text := by
  have hbytes : (⟨(utf8Encode text).toArray⟩ : ByteArray) = text.toByteArray := by simp [utf8Encode]
  rw [utf8Decode, hbytes]
  exact dif_pos text.isValidUTF8

@[simp] theorem WsMessage.decode_encode (m : WsMessage) : WsMessage.decode m.encode = some m := by
  cases m with
  | text content =>
      simp [encode, encodeTextMessage, decode, decodeWsMessage, utf8Decode_utf8Encode]
  | binary content =>
      simp [encode, encodeBinaryMessage, decode, decodeWsMessage, WsMessageKind.value]

theorem WsMessage.encode_length (m : WsMessage) : m.encode.length = m.size + 1 := by
  cases m <;> rfl

end NetworkFileServer.Tunnel
