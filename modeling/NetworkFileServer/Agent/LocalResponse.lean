import NetworkFileServer.Relay.RequestBody

/-!
# What the local application answers

`handle_open_frame` sends the request to the application through `httpx.AsyncClient.stream` over an
`ASGITransport`. The transport runs the application to its end before it returns a response, and
lets its exceptions through. The first DATA frame of the answer is a JSON text with the status and
the headers; the others are what `aiter_bytes` cuts from the decoded body.
-/

namespace NetworkFileServer.Agent

open Tunnel

/-- `dict(response.headers)`. -/
abbrev ResponseHeaders := List (String × String)

/-- What happens to a request between `asgi_client.stream` and its response. -/
structure LocalRun where
  /-- httpx rejects the URL or a header of the metadata. -/
  refused : Bool
  /-- The `http.response.start` message. -/
  start : Option (Nat × ResponseHeaders)
  /-- The bodies of the `http.response.body` messages, none of them for HEAD. -/
  body : List Bytes
  /-- There was a body message without `more_body`. -/
  complete : Bool
  /-- The application raised, before, during or after its response. -/
  raised : Bool

/-- The response of `asgi_client.stream(...)`; `none` is an exception. -/
def LocalRun.response (run : LocalRun) : Option (Nat × ResponseHeaders × Bytes) :=
  if run.refused || run.raised || !run.complete then none
  else run.start.map fun (status, headers) => (status, headers, run.body.flatten)

/-- The content decoder of a response: the bytes that it gives, and whether it raises after them. -/
abbrev ContentDecoder := ResponseHeaders → Bytes → Bytes × Bool

/-- `response.aiter_bytes(chunk_size=MAX_PAYLOAD_BYTES)`. A decoder that raises takes the incomplete
last chunk with it. -/
def aiterBytes (decoded : Bytes) (fails : Bool) : List Bytes :=
  if fails then (Relay.slices decoded).filter fun chunk => chunk.length = maxPayloadBytes
  else Relay.slices decoded

def unicodeEscape (n : Nat) : List Char :=
  ['\\', 'u', Nat.digitChar (n / 4096 % 16), Nat.digitChar (n / 256 % 16),
    Nat.digitChar (n / 16 % 16), Nat.digitChar (n % 16)]

/-- The escapes of `ensure_ascii`; a character beyond the BMP becomes a surrogate pair. -/
def jsonEscape (c : Char) : List Char :=
  let n := c.toNat
  if c = '"' then ['\\', '"']
  else if c = '\\' then ['\\', '\\']
  else if n = 0x0a then ['\\', 'n']
  else if n = 0x0d then ['\\', 'r']
  else if n = 0x09 then ['\\', 't']
  else if n = 0x0c then ['\\', 'f']
  else if n = 0x08 then ['\\', 'b']
  else if 0x20 ≤ n ∧ n ≤ 0x7e then [c]
  else if n < 0x10000 then unicodeEscape n
  else unicodeEscape (0xd800 + (n - 0x10000) / 0x400) ++ unicodeEscape (0xdc00 + (n - 0x10000) % 0x400)

def jsonString (s : String) : List Char := '"' :: (s.toList.flatMap jsonEscape ++ ['"'])

def jsonHeaders (headers : ResponseHeaders) : List Char :=
  List.intercalate [',', ' '] (headers.map fun (k, v) => jsonString k ++ [':', ' '] ++ jsonString v)

/-- `json.dumps({"status": ..., "headers": ...}).encode("utf-8")`; the text is ASCII. -/
def metaPayload (status : Nat) (headers : ResponseHeaders) : Bytes :=
  let text := "\x7b\"status\": ".toList ++ Nat.toDigits 10 status ++ ", \"headers\": \x7b".toList ++
    jsonHeaders headers ++ ['\x7d', '\x7d']
  text.map fun c => UInt8.ofNat c.toNat

/-- The first DATA frame of the answer goes out. -/
def LocalRun.Begins (run : LocalRun) : Prop :=
  ∃ status headers raw, run.response = some (status, headers, raw) ∧
    (metaPayload status headers).length ≤ maxPayloadBytes

/-- The whole answer goes out. -/
def LocalRun.Answers (decoder : ContentDecoder) (run : LocalRun) : Prop :=
  ∃ status headers raw, run.response = some (status, headers, raw) ∧
    (metaPayload status headers).length ≤ maxPayloadBytes ∧ (decoder headers raw).2 = false

theorem aiterBytes_bounds (decoded : Bytes) (fails : Bool) (chunk : Bytes)
    (h : chunk ∈ aiterBytes decoded fails) : chunk ≠ [] ∧ chunk.length ≤ maxPayloadBytes := by
  apply Relay.slices_bounds decoded chunk
  unfold aiterBytes at h
  split at h
  · exact List.mem_of_mem_filter h
  · exact h

end NetworkFileServer.Agent
