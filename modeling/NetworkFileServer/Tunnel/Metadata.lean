import NetworkFileServer.Framework.JsonText
import NetworkFileServer.Tunnel.FrameCodec
import NetworkFileServer.Tunnel.WsPayload

/-!
# OPEN and WS_OPEN metadata

`tunnel/metadata.py`: the metadata of a request as a JSON payload, and back. The strings are Python strings, of any
code points. The limits are those of the interpreters at the two ends.
-/

namespace NetworkFileServer.Tunnel

open JsonText

/-- `METADATA_MAX_BYTES` -/
def metadataMaxBytes : Nat := 16384

/-- What the codec raises. -/
inductive MetadataException where
  | metadataError (message : String)
  /-- The `MetadataError` of `_parse_json`; its message ends in that of the exception that it was raised from. -/
  | notJson
  /-- `MetadataTooLargeError`, a subclass of `MetadataError`. -/
  | tooLarge (message : String)
  /-- A `ValueError` of an integer with too many digits. -/
  | valueError
  | recursionError
deriving DecidableEq

def MetadataException.isMetadataError : MetadataException → Bool
  | .metadataError _ | .notJson | .tooLarge _ => true
  | .valueError | .recursionError => false

structure RequestMetadata where
  method : PyStr
  path : PyStr
  query : PyStr
  headers : OrderedDict PyStr PyStr
  contentLength : Int

structure WsOpenMetadata where
  path : PyStr
  query : PyStr
  headers : OrderedDict PyStr PyStr

/-- `json.dumps(self.headers)` -/
def dumpHeaders (headers : OrderedDict PyStr PyStr) : List Char :=
  dumpObject (headers.map fun entry => (entry.1, dumpStr entry.2))

/-- The `json.dumps` of `RequestMetadata.to_payload`. -/
def RequestMetadata.dumps (limits : Limits) (m : RequestMetadata) : Option String :=
  (dumpInt limits m.contentLength).map fun contentLength =>
    String.ofList (dumpObject [(pyStr "method", dumpStr m.method), (pyStr "path", dumpStr m.path),
      (pyStr "query", dumpStr m.query), (pyStr "headers", dumpHeaders m.headers),
      (pyStr "content_length", contentLength)])

def WsOpenMetadata.dumps (m : WsOpenMetadata) : String :=
  String.ofList (dumpObject [(pyStr "path", dumpStr m.path), (pyStr "query", dumpStr m.query),
    (pyStr "headers", dumpHeaders m.headers)])

/-- The end of both `to_payload`s. -/
def capPayload (kind : String) (payload : Bytes) : Except MetadataException Bytes :=
  if payload.length > metadataMaxBytes then
    .error (.tooLarge (kind ++ " metadata is " ++ toString payload.length ++ " bytes (cap " ++
      toString metadataMaxBytes ++ "); refusing to build frame"))
  else .ok payload

def RequestMetadata.toPayload (limits : Limits) (m : RequestMetadata) : Except MetadataException Bytes :=
  match m.dumps limits with
  | some text => capPayload "request" (utf8Encode text)
  | none => .error .valueError

def WsOpenMetadata.toPayload (m : WsOpenMetadata) : Except MetadataException Bytes :=
  capPayload "ws" (utf8Encode m.dumps)

/-- `_require_str` -/
def requireStr (obj : OrderedDict PyStr Value) (key : String) : Except MetadataException PyStr :=
  match obj.get (pyStr key) with
  | some (.str s) => .ok s
  | _ => .error (.metadataError ("metadata field '" ++ key ++ "' must be a string"))

/-- The entries of a dictionary, if all its values are strings. -/
def stringEntries (fields : OrderedDict PyStr Value) : Option (OrderedDict PyStr PyStr) :=
  fields.mapM fun entry =>
    match entry.2 with
    | .str s => some (entry.1, s)
    | _ => none

/-- `_require_headers` -/
def requireHeaders (obj : OrderedDict PyStr Value) : Except MetadataException (OrderedDict PyStr PyStr) :=
  match obj.get (pyStr "headers") with
  | some (.obj fields) =>
      match stringEntries fields with
      | some headers => .ok headers
      | none => .error (.metadataError "metadata field 'headers' must be a dict[str, str]")
  | _ => .error (.metadataError "metadata field 'headers' must be a dict[str, str]")

/-- `_parse_json` -/
def parseJson (limits : Limits) (raw : Bytes) : Except MetadataException (OrderedDict PyStr Value) :=
  match utf8Decode raw with
  | none => .error .notJson
  | some text =>
      match loads limits text with
      | .ok (.obj fields) => .ok fields
      | .ok _ => .error (.metadataError "metadata payload must be a JSON object")
      | .error .decodeError => .error .notJson
      | .error .recursionError => .error .recursionError
      | .error .valueError => .error .valueError

/-- The size check at the beginning of both `from_payload`s. -/
def checkSize (kind : String) (raw : Bytes) : Except MetadataException Unit :=
  if raw.length > metadataMaxBytes then
    .error (.tooLarge (kind ++ " metadata is " ++ toString raw.length ++ " bytes (cap " ++
      toString metadataMaxBytes ++ ")"))
  else .ok ()

/-- The `content_length` of `RequestMetadata.from_payload`. -/
def requireContentLength (obj : OrderedDict PyStr Value) : Except MetadataException Int :=
  match obj.get (pyStr "content_length") with
  | none => .ok 0
  | some (.int n) => .ok n
  | some _ => .error (.metadataError "metadata field 'content_length' must be an int")

def RequestMetadata.fromObject (obj : OrderedDict PyStr Value) : Except MetadataException RequestMetadata := do
  let contentLength ← requireContentLength obj
  let method ← requireStr obj "method"
  let path ← requireStr obj "path"
  let query ← requireStr obj "query"
  let headers ← requireHeaders obj
  return ⟨method, path, query, headers, contentLength⟩

def WsOpenMetadata.fromObject (obj : OrderedDict PyStr Value) : Except MetadataException WsOpenMetadata := do
  let path ← requireStr obj "path"
  let query ← requireStr obj "query"
  let headers ← requireHeaders obj
  return ⟨path, query, headers⟩

def RequestMetadata.fromPayload (limits : Limits) (raw : Bytes) : Except MetadataException RequestMetadata := do
  checkSize "request" raw
  let obj ← parseJson limits raw
  RequestMetadata.fromObject obj

def WsOpenMetadata.fromPayload (limits : Limits) (raw : Bytes) : Except MetadataException WsOpenMetadata := do
  checkSize "ws" raw
  let obj ← parseJson limits raw
  WsOpenMetadata.fromObject obj

def HasString (obj : OrderedDict PyStr Value) (key : String) : Prop := ∃ s, obj.get (pyStr key) = some (.str s)

def HasHeaders (obj : OrderedDict PyStr Value) : Prop :=
  ∃ fields, obj.get (pyStr "headers") = some (.obj fields) ∧ ∀ entry ∈ fields, ∃ s, entry.2 = .str s

/-- Absent, or an integer that is no `bool`. -/
def HasContentLength (obj : OrderedDict PyStr Value) : Prop :=
  obj.get (pyStr "content_length") = none ∨ ∃ n, obj.get (pyStr "content_length") = some (.int n)

structure IsRequestObject (obj : OrderedDict PyStr Value) : Prop where
  method : HasString obj "method"
  path : HasString obj "path"
  query : HasString obj "query"
  headers : HasHeaders obj
  contentLength : HasContentLength obj

structure IsWsOpenObject (obj : OrderedDict PyStr Value) : Prop where
  path : HasString obj "path"
  query : HasString obj "query"
  headers : HasHeaders obj

/-- A payload that is to be accepted. -/
def IsPayload (isObject : OrderedDict PyStr Value → Prop) (raw : Bytes) : Prop :=
  raw.length ≤ metadataMaxBytes ∧
    ∃ text obj, utf8Decode raw = some text ∧ IsJson text (.obj obj) ∧ isObject obj

/-- The payloads that are to be accepted are accepted, and all others are refused with a `MetadataError`. -/
structure ExactOn {μ : Type} (fromPayload : Bytes → Except MetadataException μ)
    (isObject : OrderedDict PyStr Value → Prop) (raw : Bytes) : Prop where
  accepts : (∃ m, fromPayload raw = .ok m) ↔ IsPayload isObject raw
  refuses : ¬ IsPayload isObject raw → ∃ e, fromPayload raw = .error e ∧ e.isMetadataError = true

/-- A check that passes exactly if the property holds, and raises a `MetadataError` otherwise. -/
def Decides {α : Type} (result : Except MetadataException α) (P : Prop) : Prop :=
  (P ∧ ∃ a, result = .ok a) ∨ (¬ P ∧ ∃ e, result = .error e ∧ e.isMetadataError = true)

theorem Decides.bind {α β : Type} {result : Except MetadataException α} {f : α → Except MetadataException β}
    {P Q : Prop} (h : Decides result P) (hf : ∀ a, Decides (f a) Q) : Decides (result >>= f) (P ∧ Q) := by
  rcases h with ⟨hP, a, rfl⟩ | ⟨hP, e, rfl, he⟩
  · rcases hf a with ⟨hQ, b, hb⟩ | ⟨hQ, e, he⟩
    · exact .inl ⟨⟨hP, hQ⟩, b, hb⟩
    · exact .inr ⟨fun hboth => hQ hboth.2, e, he⟩
  · exact .inr ⟨fun hboth => hP hboth.1, e, rfl, he⟩

theorem Decides.pure {α : Type} (a : α) : Decides (Pure.pure a) True := .inl ⟨trivial, a, rfl⟩

theorem Decides.congr {α : Type} {result : Except MetadataException α} {P Q : Prop} (h : Decides result P)
    (hiff : P ↔ Q) : Decides result Q := by
  unfold Decides
  rw [← hiff]
  exact h

theorem requireStr_decides (obj : OrderedDict PyStr Value) (key : String) :
    Decides (requireStr obj key) (HasString obj key) := by
  unfold requireStr
  split
  · rename_i s hget
    exact .inl ⟨⟨s, hget⟩, s, rfl⟩
  · rename_i hother
    right
    refine ⟨?_, _, rfl, rfl⟩
    rintro ⟨s, hget⟩
    exact hother s hget

theorem stringEntries_cases (fields : OrderedDict PyStr Value) :
    ((∀ entry ∈ fields, ∃ s, entry.2 = .str s) ∧ ∃ headers, stringEntries fields = some headers) ∨
      ((¬ ∀ entry ∈ fields, ∃ s, entry.2 = .str s) ∧ stringEntries fields = none) := by
  unfold stringEntries
  induction fields with
  | nil => exact .inl ⟨by simp, [], rfl⟩
  | cons entry fields ih =>
      obtain ⟨k, v⟩ := entry
      rw [List.forall_mem_cons, List.mapM_cons]
      cases v with
      | str s =>
          rcases ih with ⟨hall, headers, hheaders⟩ | ⟨hnot, hnone⟩
          · exact .inl ⟨⟨⟨s, rfl⟩, hall⟩, (k, s) :: headers, by rw [hheaders]; rfl⟩
          · exact .inr ⟨fun h => hnot h.2, by rw [hnone]; rfl⟩
      | _ => exact .inr ⟨by simp, rfl⟩

theorem requireHeaders_decides (obj : OrderedDict PyStr Value) : Decides (requireHeaders obj) (HasHeaders obj) := by
  unfold requireHeaders
  split
  · rename_i fields hget
    rcases stringEntries_cases fields with ⟨hall, headers, hheaders⟩ | ⟨hnot, hnone⟩
    · rw [hheaders]
      exact .inl ⟨⟨fields, hget, hall⟩, headers, rfl⟩
    · rw [hnone]
      right
      refine ⟨?_, _, rfl, rfl⟩
      rintro ⟨fields', hget', hall⟩
      rw [hget] at hget'
      cases hget'
      exact hnot hall
  · rename_i hother
    right
    refine ⟨?_, _, rfl, rfl⟩
    rintro ⟨fields, hget, -⟩
    exact hother fields hget

theorem requireContentLength_decides (obj : OrderedDict PyStr Value) :
    Decides (requireContentLength obj) (HasContentLength obj) := by
  unfold requireContentLength
  split
  · rename_i hget
    exact .inl ⟨.inl hget, 0, rfl⟩
  · rename_i n hget
    exact .inl ⟨.inr ⟨n, hget⟩, n, rfl⟩
  · rename_i v hother hget
    right
    refine ⟨?_, _, rfl, rfl⟩
    rintro (hnone | ⟨n, hint⟩)
    · rw [hget] at hnone
      cases hnone
    · rw [hget] at hint
      cases hint
      exact hother n rfl

theorem RequestMetadata.fromObject_decides (obj : OrderedDict PyStr Value) :
    Decides (RequestMetadata.fromObject obj) (IsRequestObject obj) := by
  apply Decides.congr ((requireContentLength_decides obj).bind fun _ => (requireStr_decides obj "method").bind fun _ =>
    (requireStr_decides obj "path").bind fun _ => (requireStr_decides obj "query").bind fun _ =>
      (requireHeaders_decides obj).bind fun _ => Decides.pure _)
  constructor
  · rintro ⟨hlength, hmethod, hpath, hquery, hheaders, -⟩
    exact ⟨hmethod, hpath, hquery, hheaders, hlength⟩
  · rintro ⟨hmethod, hpath, hquery, hheaders, hlength⟩
    exact ⟨hlength, hmethod, hpath, hquery, hheaders, trivial⟩

theorem WsOpenMetadata.fromObject_decides (obj : OrderedDict PyStr Value) :
    Decides (WsOpenMetadata.fromObject obj) (IsWsOpenObject obj) := by
  apply Decides.congr ((requireStr_decides obj "path").bind fun _ => (requireStr_decides obj "query").bind fun _ =>
    (requireHeaders_decides obj).bind fun _ => Decides.pure _)
  constructor
  · rintro ⟨hpath, hquery, hheaders, -⟩
    exact ⟨hpath, hquery, hheaders⟩
  · rintro ⟨hpath, hquery, hheaders⟩
    exact ⟨hpath, hquery, hheaders, trivial⟩

theorem checkSize_decides (kind : String) (raw : Bytes) :
    Decides (checkSize kind raw) (raw.length ≤ metadataMaxBytes) := by
  unfold checkSize
  split
  · rename_i hlarge
    exact .inr ⟨by omega, _, rfl, rfl⟩
  · rename_i hsmall
    exact .inl ⟨by omega, (), rfl⟩

/-- The interpreter's limits do not come into the reading of a payload that is small enough. -/
def WithinLimits (limits : Limits) (raw : Bytes) : Prop :=
  raw.length ≤ metadataMaxBytes → ∀ text, utf8Decode raw = some text → ¬ HitsLimit (loads limits text)

/-- Short of the limits `_parse_json` returns the object that the payload is JSON of, if it is one. -/
theorem parseJson_within (limits : Limits) (raw : Bytes)
    (h : ∀ text, utf8Decode raw = some text → ¬ HitsLimit (loads limits text)) :
    (∃ text obj, utf8Decode raw = some text ∧ (∀ obj', IsJson text (.obj obj') ↔ obj' = obj) ∧
      parseJson limits raw = .ok obj) ∨
    ((¬ ∃ text obj, utf8Decode raw = some text ∧ IsJson text (.obj obj)) ∧
      ∃ e, parseJson limits raw = .error e ∧ e.isMetadataError = true) := by
  unfold parseJson
  cases hdecode : utf8Decode raw with
  | none => exact .inr ⟨by simp, _, rfl, rfl⟩
  | some text =>
      have hfree := h text hdecode
      have hiff := fun obj => loads_eq_ok_iff limits text hfree (.obj obj)
      have hnot : (∀ obj, loads limits text ≠ .ok (.obj obj)) →
          ¬ ∃ text' obj, some text = some text' ∧ IsJson text' (.obj obj) := by
        rintro hother ⟨text', obj, htext, hjson⟩
        cases htext
        exact hother obj ((hiff obj).mpr hjson)
      cases hloads : loads limits text with
      | ok v =>
          cases v with
          | obj obj =>
              refine .inl ⟨text, obj, rfl, ?_, by simp only [hloads]⟩
              intro obj'
              rw [← hiff obj', hloads]
              constructor
              · intro heq
                cases heq
                rfl
              · rintro rfl
                rfl
          | _ =>
              exact .inr ⟨hnot (by simp [hloads]), .metadataError "metadata payload must be a JSON object",
                by simp only [hloads], rfl⟩
      | error e =>
          cases e with
          | decodeError => exact .inr ⟨hnot (by simp [hloads]), .notJson, by simp only [hloads], rfl⟩
          | recursionError => exact absurd (.inl hloads) hfree
          | valueError => exact absurd (.inr hloads) hfree

theorem parseJson_beyond (limits : Limits) (raw : Bytes) (text : String) (hdecode : utf8Decode raw = some text)
    (h : HitsLimit (loads limits text)) : ∃ e, parseJson limits raw = .error e ∧ e.isMetadataError = false := by
  unfold parseJson
  rw [hdecode]
  rcases h with hrecursion | hvalue
  · exact ⟨.recursionError, by simp only [hrecursion], rfl⟩
  · exact ⟨.valueError, by simp only [hvalue], rfl⟩

/-- A `from_payload`, by what it makes of an object. -/
def fromPayloadBy {μ : Type} (limits : Limits) (kind : String)
    (fromObject : OrderedDict PyStr Value → Except MetadataException μ) (raw : Bytes) : Except MetadataException μ := do
  checkSize kind raw
  let obj ← parseJson limits raw
  fromObject obj

/-- A `from_payload` is exact on a payload if and only if the limits do not come into its reading. -/
theorem exactOn_iff {μ : Type} {isObject : OrderedDict PyStr Value → Prop} (limits : Limits) (kind : String)
    (fromObject : OrderedDict PyStr Value → Except MetadataException μ)
    (hobject : ∀ obj, Decides (fromObject obj) (isObject obj)) (raw : Bytes) :
    ExactOn (fromPayloadBy limits kind fromObject) isObject raw ↔ WithinLimits limits raw := by
  rcases checkSize_decides kind raw with ⟨hsize, ⟨⟩, hcheck⟩ | ⟨hsize, e, hcheck, he⟩
  · have hresult : fromPayloadBy limits kind fromObject raw = (parseJson limits raw).bind fromObject := by
      unfold fromPayloadBy
      rw [hcheck]
      rfl
    constructor
    · rintro ⟨haccepts, hrefuses⟩ - text hdecode hlimit
      obtain ⟨e, hparse, he⟩ := parseJson_beyond limits raw text hdecode hlimit
      have hraises : fromPayloadBy limits kind fromObject raw = .error e := by
        rw [hresult, hparse]
        rfl
      rw [hraises] at haccepts hrefuses
      have hnot : ¬ IsPayload isObject raw := by
        rw [← haccepts]
        simp
      obtain ⟨e', heq, he'⟩ := hrefuses hnot
      cases heq
      rw [he] at he'
      cases he'
    · intro hwithin
      suffices hdecides : Decides (fromPayloadBy limits kind fromObject raw) (IsPayload isObject raw) by
        rcases hdecides with ⟨hpayload, m, hm⟩ | ⟨hnot, e, hraises, he⟩
        · exact ⟨⟨fun _ => hpayload, fun _ => ⟨m, hm⟩⟩, fun hnot => absurd hpayload hnot⟩
        · refine ⟨⟨?_, fun hpayload => absurd hpayload hnot⟩, fun _ => ⟨e, hraises, he⟩⟩
          rintro ⟨m, hm⟩
          rw [hraises] at hm
          cases hm
      rw [hresult]
      rcases parseJson_within limits raw (hwithin hsize) with ⟨text, obj, hdecode, hjson, hparse⟩ |
        ⟨hnot, e, hparse, he⟩
      · rw [hparse]
        apply (hobject obj).congr
        constructor
        · intro hisobj
          exact ⟨hsize, text, obj, hdecode, (hjson obj).mpr rfl, hisobj⟩
        · rintro ⟨-, text', obj', hdecode', hjson', hisobj⟩
          rw [hdecode] at hdecode'
          cases hdecode'
          rw [← (hjson obj').mp hjson']
          exact hisobj
      · rw [hparse]
        refine .inr ⟨?_, e, rfl, he⟩
        rintro ⟨-, text, obj, hdecode, hjson, -⟩
        exact hnot ⟨text, obj, hdecode, hjson⟩
  · have hraises : fromPayloadBy limits kind fromObject raw = .error e := by
      unfold fromPayloadBy
      rw [hcheck]
      rfl
    have hnot : ¬ IsPayload isObject raw := fun hpayload => hsize hpayload.1
    constructor
    · intro _ hsmall
      exact absurd hsmall hsize
    · intro _
      refine ⟨⟨?_, fun hpayload => absurd hpayload hnot⟩, fun _ => ⟨e, hraises, he⟩⟩
      rintro ⟨m, hm⟩
      rw [hraises] at hm
      cases hm

/-- The dictionary of headers, as `json.loads` returns it. -/
def headersValue (headers : OrderedDict PyStr PyStr) : Value := .obj (headers.map fun entry => (entry.1, .str entry.2))

def RequestMetadata.toObject (m : RequestMetadata) : OrderedDict PyStr Value :=
  [(pyStr "method", .str m.method), (pyStr "path", .str m.path), (pyStr "query", .str m.query),
    (pyStr "headers", headersValue m.headers), (pyStr "content_length", .int m.contentLength)]

def WsOpenMetadata.toObject (m : WsOpenMetadata) : OrderedDict PyStr Value :=
  [(pyStr "path", .str m.path), (pyStr "query", .str m.query), (pyStr "headers", headersValue m.headers)]

theorem stringEntries_headers (headers : OrderedDict PyStr PyStr) :
    stringEntries (headers.map fun entry => (entry.1, .str entry.2)) = some headers := by
  unfold stringEntries
  induction headers with
  | nil => rfl
  | cons entry headers ih =>
      rw [List.map_cons, List.mapM_cons, ih]
      rfl

theorem RequestMetadata.nodup_toObject (m : RequestMetadata) : (m.toObject.map Prod.fst).Nodup := by
  have hkeys : (["method", "path", "query", "headers", "content_length"].map pyStr).Nodup :=
    List.Nodup.map pyStr_injective (by decide)
  exact hkeys

theorem WsOpenMetadata.nodup_toObject (m : WsOpenMetadata) : (m.toObject.map Prod.fst).Nodup := by
  have hkeys : (["path", "query", "headers"].map pyStr).Nodup := List.Nodup.map pyStr_injective (by decide)
  exact hkeys

section Fields

variable {obj : OrderedDict PyStr Value} (hobj : (obj.map Prod.fst).Nodup)

include hobj

theorem requireStr_of_mem (key : String) (s : PyStr) (h : (pyStr key, Value.str s) ∈ obj) :
    requireStr obj key = .ok s := by
  rw [requireStr, OrderedDict.get_eq_some_of_mem obj _ _ hobj h]

theorem requireHeaders_of_mem (headers : OrderedDict PyStr PyStr)
    (h : (pyStr "headers", headersValue headers) ∈ obj) : requireHeaders obj = .ok headers := by
  rw [requireHeaders, OrderedDict.get_eq_some_of_mem obj _ _ hobj h]
  simp only [headersValue, stringEntries_headers]

theorem requireContentLength_of_mem (n : Int) (h : (pyStr "content_length", Value.int n) ∈ obj) :
    requireContentLength obj = .ok n := by
  rw [requireContentLength, OrderedDict.get_eq_some_of_mem obj _ _ hobj h]

end Fields

theorem RequestMetadata.fromObject_toObject (m : RequestMetadata) : RequestMetadata.fromObject m.toObject = .ok m := by
  have hkeys := m.nodup_toObject
  unfold RequestMetadata.fromObject
  rw [requireContentLength_of_mem hkeys m.contentLength (by simp [toObject]),
    requireStr_of_mem hkeys "method" m.method (by simp [toObject]),
    requireStr_of_mem hkeys "path" m.path (by simp [toObject]),
    requireStr_of_mem hkeys "query" m.query (by simp [toObject]),
    requireHeaders_of_mem hkeys m.headers (by simp [toObject])]
  rfl

theorem WsOpenMetadata.fromObject_toObject (m : WsOpenMetadata) : WsOpenMetadata.fromObject m.toObject = .ok m := by
  have hkeys := m.nodup_toObject
  unfold WsOpenMetadata.fromObject
  rw [requireStr_of_mem hkeys "path" m.path (by simp [toObject]),
    requireStr_of_mem hkeys "query" m.query (by simp [toObject]),
    requireHeaders_of_mem hkeys m.headers (by simp [toObject])]
  rfl

theorem capPayload_eq_ok (kind : String) (bytes payload : Bytes) (h : capPayload kind bytes = .ok payload) :
    payload = bytes ∧ payload.length ≤ metadataMaxBytes := by
  unfold capPayload at h
  split at h
  · cases h
  · rename_i hsmall
    cases h
    exact ⟨rfl, by omega⟩

theorem serializeFrame_of_cap (payload : Bytes) (h : payload.length ≤ metadataMaxBytes) (frameType : FrameType)
    (requestId : UUID) : ∃ frame, serializeFrame frameType requestId payload = .ok frame := by
  have hcap : metadataMaxBytes ≤ maxPayloadBytes := by decide
  exact ⟨_, serializeFrame_ok frameType requestId payload (h.trans hcap)⟩

theorem fromPayloadBy_of_loads {μ : Type} (limits : Limits) (kind : String)
    (fromObject : OrderedDict PyStr Value → Except MetadataException μ) (text : String)
    (obj : OrderedDict PyStr Value) (hsize : (utf8Encode text).length ≤ metadataMaxBytes)
    (hloads : loads limits text = .ok (.obj obj)) :
    fromPayloadBy limits kind fromObject (utf8Encode text) = fromObject obj := by
  have hcheck : checkSize kind (utf8Encode text) = .ok () := if_neg (by omega)
  have hparse : parseJson limits (utf8Encode text) = .ok obj := by
    simp only [parseJson, utf8Decode_utf8Encode, hloads]
  unfold fromPayloadBy
  rw [hcheck, hparse]
  rfl

theorem RequestMetadata.fromPayload_toPayload (limits limits' : Limits) (m : RequestMetadata) (payload : Bytes)
    (h : m.toPayload limits = .ok payload)
    (hinverse : ∀ text, m.dumps limits = some text → loads limits' text = .ok (.obj m.toObject)) :
    RequestMetadata.fromPayload limits' payload = .ok m ∧
      ∀ frameType requestId, ∃ frame, serializeFrame frameType requestId payload = .ok frame := by
  unfold toPayload at h
  cases hdumps : m.dumps limits with
  | none => simp [hdumps] at h
  | some text =>
      simp only [hdumps] at h
      obtain ⟨rfl, hsize⟩ := capPayload_eq_ok "request" _ payload h
      refine ⟨?_, serializeFrame_of_cap _ hsize⟩
      exact (fromPayloadBy_of_loads limits' "request" RequestMetadata.fromObject text m.toObject hsize
        (hinverse text hdumps)).trans m.fromObject_toObject

theorem WsOpenMetadata.fromPayload_toPayload (limits : Limits) (m : WsOpenMetadata) (payload : Bytes)
    (h : m.toPayload = .ok payload) (hinverse : loads limits m.dumps = .ok (.obj m.toObject)) :
    WsOpenMetadata.fromPayload limits payload = .ok m ∧
      ∀ frameType requestId, ∃ frame, serializeFrame frameType requestId payload = .ok frame := by
  obtain ⟨rfl, hsize⟩ := capPayload_eq_ok "ws" _ payload h
  refine ⟨?_, serializeFrame_of_cap _ hsize⟩
  exact (fromPayloadBy_of_loads limits "ws" WsOpenMetadata.fromObject m.dumps m.toObject hsize hinverse).trans
    m.fromObject_toObject

/-- A dictionary of strings that `json.loads` returns as it was. -/
structure HeadersRead (headers : OrderedDict PyStr PyStr) : Prop where
  keys : (headers.map Prod.fst).Nodup
  paired : ∀ entry ∈ headers, WellPaired entry.1 ∧ WellPaired entry.2

theorem reads_dumpHeaders (limits : Limits) (headers : OrderedDict PyStr PyStr) (h : HeadersRead headers) :
    Reads limits 1 (dumpHeaders headers) (headersValue headers) := by
  apply reads_dumpObject limits 0
  · rw [List.forall₂_map_left_iff, List.forall₂_map_right_iff, List.forall₂_same]
    intro entry hentry
    obtain ⟨hkey, hvalue⟩ := h.paired entry hentry
    exact ⟨rfl, hkey, reads_dumpStr limits 0 entry.2 hvalue⟩
  · rw [List.map_map]
    exact h.keys

/-- The strings of the metadata and their headers are read back. -/
structure RequestMetadata.Readable (m : RequestMetadata) : Prop where
  method : WellPaired m.method
  path : WellPaired m.path
  query : WellPaired m.query
  headers : HeadersRead m.headers

structure WsOpenMetadata.Readable (m : WsOpenMetadata) : Prop where
  path : WellPaired m.path
  query : WellPaired m.query
  headers : HeadersRead m.headers

theorem RequestMetadata.loads_dumps (limits limits' : Limits) (m : RequestMetadata) (text : String)
    (hdigits : limits.digits ≤ limits'.digits) (hdepth : 2 ≤ limits'.depth) (hm : m.Readable)
    (h : m.dumps limits = some text) : loads limits' text = .ok (.obj m.toObject) := by
  obtain ⟨contentLength, hint, rfl⟩ := Option.map_eq_some_iff.mp h
  have hint' : dumpInt limits' m.contentLength = some contentLength := by
    unfold dumpInt at hint ⊢
    split at hint
    · cases hint
    · rw [if_neg (by omega)]
      exact hint
  apply loads_dumpObject limits' 1 _ _ _ m.nodup_toObject hdepth
  have hkey : ∀ key, WellPaired (pyStr key) := wellPaired_pyStr
  exact .cons ⟨rfl, hkey _, reads_dumpStr limits' 1 m.method hm.method⟩
    (.cons ⟨rfl, hkey _, reads_dumpStr limits' 1 m.path hm.path⟩
      (.cons ⟨rfl, hkey _, reads_dumpStr limits' 1 m.query hm.query⟩
        (.cons ⟨rfl, hkey _, reads_dumpHeaders limits' m.headers hm.headers⟩
          (.cons ⟨rfl, hkey _, reads_dumpInt limits' 1 m.contentLength contentLength hint'⟩ .nil))))

theorem WsOpenMetadata.loads_dumps (limits : Limits) (m : WsOpenMetadata) (hdepth : 2 ≤ limits.depth)
    (hm : m.Readable) : loads limits m.dumps = .ok (.obj m.toObject) := by
  apply loads_dumpObject limits 1 _ _ _ m.nodup_toObject hdepth
  have hkey : ∀ key, WellPaired (pyStr key) := wellPaired_pyStr
  exact .cons ⟨rfl, hkey _, reads_dumpStr limits 1 m.path hm.path⟩
    (.cons ⟨rfl, hkey _, reads_dumpStr limits 1 m.query hm.query⟩
      (.cons ⟨rfl, hkey _, reads_dumpHeaders limits m.headers hm.headers⟩ .nil))

/-- The round trips hold, and the payloads that `from_payload` is exact on are those that are read without running
into a limit of the interpreter. -/
theorem metadata_codec (limits limits' : Limits) :
    (∀ (m : RequestMetadata) (payload : Bytes), m.toPayload limits = .ok payload →
      (∀ text, m.dumps limits = some text → loads limits' text = .ok (.obj m.toObject)) →
      RequestMetadata.fromPayload limits' payload = .ok m ∧
        ∀ frameType requestId, ∃ frame, serializeFrame frameType requestId payload = .ok frame) ∧
    (∀ (m : WsOpenMetadata) (payload : Bytes), m.toPayload = .ok payload →
      loads limits' m.dumps = .ok (.obj m.toObject) →
      WsOpenMetadata.fromPayload limits' payload = .ok m ∧
        ∀ frameType requestId, ∃ frame, serializeFrame frameType requestId payload = .ok frame) ∧
    ∀ raw : Bytes,
      (ExactOn (RequestMetadata.fromPayload limits') IsRequestObject raw ↔ WithinLimits limits' raw) ∧
      (ExactOn (WsOpenMetadata.fromPayload limits') IsWsOpenObject raw ↔ WithinLimits limits' raw) := by
  refine ⟨?_, ?_, ?_⟩
  · intro m payload h hinverse
    exact m.fromPayload_toPayload limits limits' payload h hinverse
  · intro m payload h hinverse
    exact m.fromPayload_toPayload limits' payload h hinverse
  · intro raw
    exact ⟨exactOn_iff limits' "request" _ RequestMetadata.fromObject_decides raw,
      exactOn_iff limits' "ws" _ WsOpenMetadata.fromObject_decides raw⟩

/-- A `GET` with one header. -/
def getFiles : RequestMetadata :=
  ⟨pyStr "GET", pyStr "/files", pyStr "path=docs", [(pyStr "accept", pyStr "application/json")], 0⟩

/-- The limits of an interpreter by default. -/
def defaultLimits : Limits := ⟨1000, 4300⟩

theorem metadata_codec_getFiles :
    ∃ payload, getFiles.toPayload defaultLimits = .ok payload ∧
      RequestMetadata.fromPayload defaultLimits payload = .ok getFiles := by
  have hm : getFiles.Readable := by
    refine ⟨wellPaired_pyStr _, wellPaired_pyStr _, wellPaired_pyStr _, ⟨List.nodup_singleton _, ?_⟩⟩
    intro entry hentry
    rw [List.mem_singleton.mp hentry]
    exact ⟨wellPaired_pyStr _, wellPaired_pyStr _⟩
  have hok : (match getFiles.toPayload defaultLimits with | .ok _ => true | .error _ => false) = true := by
    decide +kernel
  cases hpayload : getFiles.toPayload defaultLimits with
  | error e => simp [hpayload] at hok
  | ok payload =>
      refine ⟨payload, rfl, ?_⟩
      exact ((metadata_codec defaultLimits defaultLimits).1 getFiles payload hpayload fun text htext =>
        getFiles.loads_dumps defaultLimits defaultLimits text (Nat.le_refl _) (by decide) hm htext).1

/-- A thousand and one opening brackets are refused with a `RecursionError`. -/
theorem not_exactOn_brackets :
    ¬ ∀ raw, ExactOn (RequestMetadata.fromPayload defaultLimits) IsRequestObject raw := by
  intro hexact
  have hwithin := (exactOn_iff defaultLimits "request" _ RequestMetadata.fromObject_decides _).mp
    (hexact (utf8Encode (String.ofList (List.replicate 1001 '['))))
  have hsize : (utf8Encode (String.ofList (List.replicate 1001 '['))).length ≤ metadataMaxBytes := by decide +kernel
  apply hwithin hsize _ (utf8Decode_utf8Encode _)
  exact .inl (loads_brackets defaultLimits 1001 (by decide))

end NetworkFileServer.Tunnel
