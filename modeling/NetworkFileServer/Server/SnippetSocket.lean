import NetworkFileServer.Framework.Json
import NetworkFileServer.Server.WebSocketAuth

/-!
# Editing a snippet over the socket

The clipboard of the server with the two ways to its snippets: the routes of `clipboard.py`, behind
`require_write_access` and `require_full_access`, and the `snippet_update` messages of
`websocket_endpoint`, which only asks whether the server is read-only.
-/

namespace NetworkFileServer.Server

open Relay Shared

structure ClipboardRow where
  id : String
  title : String
  content : String
  createdAt : String
  updatedAt : String
deriving DecidableEq

/-- The table `clipboard_snippets`, with its primary key. -/
structure ClipboardTable where
  rows : List ClipboardRow
  ids : (rows.map ClipboardRow.id).Nodup

/-- `MAX_CONTENT_LENGTH`. -/
def maxContentLength : Nat := 10000

inductive SnippetError where
  | notFound
  | validation (message : String)
  /-- A missing field, or a value that has no length or cannot be bound. -/
  | raised
deriving DecidableEq

/-- A row after `UPDATE clipboard_snippets SET title = ?, content = ?, updated_at = ?`. -/
def ClipboardRow.edit (row : ClipboardRow) (content now : String) : ClipboardRow :=
  { row with content := content, updatedAt := now }

def ClipboardTable.edit (table : ClipboardTable) (id content now : String) : ClipboardTable where
  rows := table.rows.map fun row => if row.id = id then row.edit content now else row
  ids := by
    have hids : (table.rows.map fun row => if row.id = id then row.edit content now else row).map
        ClipboardRow.id = table.rows.map ClipboardRow.id := by
      rw [List.map_map]
      apply List.map_congr_left
      intro row _
      simp only [Function.comp]
      split
      · rfl
      · rfl
    rw [hids]
    exact table.ids

/-- The row that `WHERE id = ?` selects. -/
def ClipboardTable.find? (table : ClipboardTable) (id : Option String) : Option ClipboardRow :=
  table.rows.find? fun row => decide (some row.id = id)

/-- `ServerStateStore.update_clipboard_snippet(snippet_id, content=content)`. -/
def updateClipboardSnippet (table : ClipboardTable) (snippetId content : Json) (now : String) :
    Except SnippetError Unit × ClipboardTable :=
  match snippetId.boundText with
  | .error _ => (.error .raised, table)
  | .ok id =>
      match table.find? id with
      | none => (.error .notFound, table)
      | some row =>
          match content with
          | .str text => (.ok (), table.edit row.id text now)
          -- An array or an object has a length and cannot be bound.
          | _ => (.error .raised, table)

/-- `ClipboardService.update_snippet`. -/
def updateSnippet (table : ClipboardTable) (snippetId content : Json) (now : String) :
    Except SnippetError Unit × ClipboardTable :=
  match content.len with
  | none => (.error .raised, table)
  | some length =>
      if maxContentLength < length then
        (.error (.validation "Content exceeds maximum length (10000 characters)"), table)
      else updateClipboardSnippet table snippetId content now

/-- What a message does to the loop of `websocket_endpoint`. -/
inductive LoopStep where
  | next
  /-- An exception ends the loop. -/
  | raised
deriving DecidableEq

/-- One round of the loop: a decoded message. -/
def receiveMessage (config : AccessConfig) (table : ClipboardTable) (data : OrderedDict String Json)
    (now : String) : LoopStep × ClipboardTable :=
  if (Json.get? data "type").any (·.isStr "ping") then (.next, table)
  else if (Json.get? data "type").any (·.isStr "snippet_update") then
    if config.readOnly then (.next, table)
    else
      match Json.get? data "snippet_id", Json.get? data "content" with
      | some snippetId, some content =>
          let updated := updateSnippet table snippetId content now
          (match updated.1 with
            | .ok () | .error .notFound | .error (.validation _) => .next
            | .error .raised => .raised, updated.2)
      | _, _ => (.raised, table)
  else (.next, table)

section

variable (simpleCookie : String → Except AuthError (OrderedDict String String))
  (validateToken : String → Bool)

/-- The clipboard after a client has connected with these headers and sent a message. -/
def socketMessage (config : AccessConfig) (headers : Headers) (table : ClipboardTable)
    (data : OrderedDict String Json) (now : String) : ClipboardTable :=
  match websocketAuth simpleCookie validateToken config headers with
  | .connected => (receiveMessage config table data now).2
  | .closed _ | .raised _ => table

end

/-- The message is an update of a snippet that is there, and the row it makes is another one. -/
def Edits (table : ClipboardTable) (data : OrderedDict String Json) (now : String) : Prop :=
  (Json.get? data "type").any (·.isStr "snippet_update") = true ∧
    ∃ snippetId text id row, Json.get? data "snippet_id" = some snippetId ∧
      Json.get? data "content" = some (.str text) ∧ text.length ≤ maxContentLength ∧
      snippetId.boundText = .ok id ∧ table.find? id = some row ∧ row.edit text now ≠ row

theorem ClipboardTable.edit_eq_self (table : ClipboardTable) (id : Option String) (row : ClipboardRow)
    (text now : String) (hrow : table.find? id = some row) :
    table.edit row.id text now = table ↔ row.edit text now = row := by
  have hmem := List.mem_of_find?_eq_some hrow
  constructor
  · intro h
    have hrows : (table.rows.map fun r => if r.id = row.id then r.edit text now else r) = table.rows :=
      congrArg ClipboardTable.rows h
    have hall := List.map_inj_left.mp (hrows.trans (List.map_id _).symm) row hmem
    simpa using hall
  · intro h
    obtain ⟨rows, ids⟩ := table
    simp only [ClipboardTable.edit, ClipboardTable.mk.injEq]
    have hsame : ∀ r ∈ rows, (if r.id = row.id then r.edit text now else r) = r := by
      intro r hr
      split
      · rename_i hid
        rwa [List.inj_on_of_nodup_map ids hr hmem hid]
      · rfl
    exact (List.map_congr_left hsame).trans (List.map_id rows)

theorem updateSnippet_changes (table : ClipboardTable) (snippetId content : Json) (now : String) :
    (updateSnippet table snippetId content now).2 ≠ table ↔
      ∃ text id row, content = .str text ∧ text.length ≤ maxContentLength ∧
        snippetId.boundText = .ok id ∧ table.find? id = some row ∧ row.edit text now ≠ row := by
  cases content with
  | null | bool _ | int _ | float _ => simp [updateSnippet, Json.len]
  | arr _ | obj _ =>
      simp only [updateSnippet, Json.len, updateClipboardSnippet]
      split
      · simp
      · cases snippetId.boundText with
        | error e => simp
        | ok id => cases hrow : table.find? id <;> simp [hrow]
  | str text =>
      by_cases hlen : maxContentLength < text.length
      · have hnot : ¬text.length ≤ maxContentLength := by omega
        simp [updateSnippet, Json.len, hlen, hnot]
      · have hle : text.length ≤ maxContentLength := by omega
        cases hbound : snippetId.boundText with
        | error e => simp [updateSnippet, Json.len, hlen, updateClipboardSnippet, hbound]
        | ok id =>
            cases hrow : table.find? id with
            | none => simp [updateSnippet, Json.len, hlen, updateClipboardSnippet, hbound, hrow]
            | some row =>
                have hself := table.edit_eq_self id row text now hrow
                simp [updateSnippet, Json.len, hlen, updateClipboardSnippet, hbound, hrow, hself, hle]

/-- A message changes the clipboard exactly when it is an edit and the server is not read-only. -/
theorem receiveMessage_changes (config : AccessConfig) (table : ClipboardTable)
    (data : OrderedDict String Json) (now : String) :
    (receiveMessage config table data now).2 ≠ table ↔
      config.readOnly = false ∧ Edits table data now := by
  unfold receiveMessage Edits
  cases htype : (Json.get? data "type").any (·.isStr "snippet_update") with
  | false => simp
  | true =>
      have hping : (Json.get? data "type").any (·.isStr "ping") = false := by
        cases hget : Json.get? data "type" with
        | none => rfl
        | some value =>
            rw [hget, Option.any_some] at htype
            cases value with
            | str s =>
                have hs : s = "snippet_update" := by simpa [Json.isStr] using htype
                simp [Json.isStr, hs]
            | _ => cases htype
      cases hreadOnly : config.readOnly with
      | true => simp [hping]
      | false =>
          cases hid : Json.get? data "snippet_id" with
          | none => simp [hping]
          | some snippetId =>
              cases hcontent : Json.get? data "content" with
              | none => simp [hping]
              | some content =>
                  simp only [hping, Bool.false_eq_true, ↓reduceIte, updateSnippet_changes, true_and]
                  constructor
                  · rintro ⟨text, id, row, rfl, hrest⟩
                    exact ⟨snippetId, text, id, row, rfl, rfl, hrest⟩
                  · rintro ⟨snippetId', text, id, row, hid', hcontent', hrest⟩
                    cases hid'
                    cases hcontent'
                    exact ⟨text, id, row, rfl, hrest⟩

section

variable (simpleCookie : String → Except AuthError (OrderedDict String String))
  (validateToken : String → Bool) (hmac : String → String → String) (config : AccessConfig)
  (headers : Headers)

/-- Both guards of the clipboard routes pass for the WRITE role, and without a role where the server is
neither read-only nor in receive mode. -/
theorem clipboardGuards_pass :
    requireWriteAccess hmac config headers = .ok () ∧ requireFullAccess hmac config headers = .ok () ↔
      trustedRole hmac config headers = .ok (some .write) ∨
        trustedRole hmac config headers = .ok none ∧ config.readOnly = false ∧
          config.receive = false := by
  unfold requireWriteAccess requireFullAccess
  cases trustedRole hmac config headers with
  | error e => simp
  | ok found =>
      cases found with
      | none => cases config.readOnly <;> cases config.receive <;> simp
      | some role => cases role <;> simp

/-- The message is not one that gets past the guards: the socket is not connected, the server is
read-only, the sender has the WRITE role, there is no role and no receive mode, or it edits nothing. -/
def SocketObeys (table : ClipboardTable) (data : OrderedDict String Json) (now : String) : Prop :=
  websocketAuth simpleCookie validateToken config headers ≠ .connected ∨ config.readOnly = true ∨
    trustedRole hmac config headers = .ok (some .write) ∨
    (trustedRole hmac config headers = .ok none ∧ config.receive = false) ∨ ¬Edits table data now

/-- A message changes the clipboard only where the guards of the routes pass, except from a connected
socket of a READ or RECEIVE user, of a sender whose signature cannot be compared, or in receive mode. -/
theorem socketMessage_guarded_iff (table : ClipboardTable) (data : OrderedDict String Json)
    (now : String) :
    (socketMessage simpleCookie validateToken config headers table data now ≠ table →
        requireWriteAccess hmac config headers = .ok () ∧
          requireFullAccess hmac config headers = .ok ()) ↔
      SocketObeys simpleCookie validateToken hmac config headers table data now := by
  have hchanges := receiveMessage_changes config table data now
  rw [clipboardGuards_pass]
  unfold socketMessage SocketObeys
  cases hauth : websocketAuth simpleCookie validateToken config headers with
  | closed code => simp
  | raised e => simp
  | connected =>
      simp only [hchanges, ne_eq, not_true_eq_false, false_or]
      cases hreadOnly : config.readOnly with
      | true => simp
      | false =>
          by_cases hedits : Edits table data now
          · simp [hedits]
          · simp [hedits]

end

/-- The server's `--receive` mode on the LAN. -/
def receiveConfig : AccessConfig :=
  { mountCode := none, identitySecret := none, hasPassword := false, readOnly := false, receive := true }

def noteTable : ClipboardTable :=
  ⟨[⟨"c0ffee00c0de", "note", "old", "2026-01-01T00:00:00+00:00", "2026-01-01T00:00:00+00:00"⟩], by decide⟩

/-- `{"type": "snippet_update", "snippet_id": "c0ffee00c0de", "content": "new"}`. -/
def noteUpdate : OrderedDict String Json :=
  [("type", .str "snippet_update"), ("snippet_id", .str "c0ffee00c0de"), ("content", .str "new")]

/-- In receive mode the routes of the clipboard are closed, and its snippets are changed by a message. -/
theorem socketMessage_not_guarded :
    ¬∀ (simpleCookie : String → Except AuthError (OrderedDict String String))
        (validateToken : String → Bool) (hmac : String → String → String) (config : AccessConfig)
        (headers : Headers) (table : ClipboardTable) (data : OrderedDict String Json) (now : String),
        socketMessage simpleCookie validateToken config headers table data now ≠ table →
          requireWriteAccess hmac config headers = .ok () ∧
            requireFullAccess hmac config headers = .ok () := by
  intro h
  have hguards := h plainSession (· = "live") aliceHmac receiveConfig [] noteTable noteUpdate
    "2026-01-02T00:00:00+00:00" (by
      intro heq
      have hrows := congrArg ClipboardTable.rows heq
      revert hrows
      decide +kernel)
  have hfull := hguards.2
  revert hfull
  decide +kernel

end NetworkFileServer.Server
