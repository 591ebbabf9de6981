import Mathlib.Logic.Function.Basic
import NetworkFileServer.Framework.OrderedDict
import NetworkFileServer.Framework.TransitionSystem
import NetworkFileServer.Server.ClipboardService

/-!
# The clipboards of the connected clients

Any number of `useClipboard` hooks, each with its socket, and the server: the routes of `clipboard.py` and the
`snippet_update` messages of the sockets. The store is called on a thread, and a broadcast waits after every
message that it sends, so that other tasks run in between. The server is not read-only, all devices stay
connected, their hooks have loaded the snippets, and the messages are well formed.
-/

namespace NetworkFileServer.Client

open Server
open Function (update)

inductive SnippetNotice where
  | created (snippet : ClipboardRow)
  | updated (snippet : ClipboardRow)
  | deleted (snippetId : String)
deriving DecidableEq

/-- The snippet that the message is about. -/
def SnippetNotice.id : SnippetNotice → String
  | .created snippet | .updated snippet => snippet.id
  | .deleted snippetId => snippetId

/-- The updaters of `setSnippets` in the message handlers. -/
def SnippetNotice.apply (snippets : List ClipboardRow) : SnippetNotice → List ClipboardRow
  | .created snippet =>
      if snippet.id ∈ snippets.map ClipboardRow.id then snippets else snippets ++ [snippet]
  | .updated snippet => snippets.map fun s => if s.id = snippet.id then snippet else s
  | .deleted snippetId => snippets.filter fun s => s.id ≠ snippetId

/-- Where a task of the server is. -/
inductive SnippetTask where
  /-- At `count_clipboard_snippets` of `create_snippet`. -/
  | count (title : String)
  | insert (title : String)
  /-- At `update_clipboard_snippet` for a message. -/
  | update (snippetId content : String)
  /-- At the same for a title; the hook has kept the snippet as it was. -/
  | retitle (snippetId title : String) (previous : Option ClipboardRow)
  | remove (snippetId : String) (removed : Option ClipboardRow)
  /-- The store has returned, and these devices are still to be sent the message. -/
  | send (notice : SnippetNotice) (targets : List String)
  /-- The response is under way. -/
  | answer (notice : SnippetNotice)
  | refusedTitle (snippetId : String) (previous : Option ClipboardRow)
  | refusedRemoval (snippetId : String) (removed : Option ClipboardRow)
  | refusedCreation
  | ended
deriving DecidableEq

namespace SnippetTask

/-- From one `await` to the next: the table, what is sent to whom, and where the task is then. A message has
no response; an update by message is sent to the other devices, everything else to all of them. -/
def resume (devices : List String) (device : String) (viaSocket : Bool) (t : ClipboardTable)
    (newId now : String) : SnippetTask → Option (ClipboardTable × Option (String × SnippetNotice) × SnippetTask)
  | .count title =>
      some (t, none, if maxSnippets ≤ t.rows.length then .refusedCreation else .insert title)
  | .insert title =>
      match t.insertClipboardSnippet ⟨newId, title, "", now, now⟩ with
      | some t' => some (t', none, .send (.created ⟨newId, title, "", now, now⟩) devices)
      | none => some (t, none, .refusedCreation)
  | .update snippetId content =>
      if maxContentLength < content.length then some (t, none, .ended)
      else
        match t.updateRow snippetId none (some content) now with
        | some (row, t') => some (t', none, .send (.updated row) (devices.filter fun d => d ≠ device))
        | none => some (t, none, .ended)
  | .retitle snippetId title previous =>
      match t.updateRow snippetId (some title) none now with
      | some (row, t') => some (t', none, .send (.updated row) devices)
      | none => some (t, none, .refusedTitle snippetId previous)
  | .remove snippetId removed =>
      match t.deleteClipboardSnippet snippetId with
      | some t' => some (t', none, .send (.deleted snippetId) devices)
      | none => some (t, none, .refusedRemoval snippetId removed)
  | .send notice (target :: targets) => some (t, some (target, notice), .send notice targets)
  | .send notice [] => some (t, none, if viaSocket then .ended else .answer notice)
  | .answer _ | .refusedTitle _ _ | .refusedRemoval _ _ | .refusedCreation | .ended => none

/-- What the task is still to send to a device. -/
def sends (device : String) : SnippetTask → Option SnippetNotice
  | .send notice targets => if device ∈ targets then some notice else none
  | _ => none

def inserts : SnippetTask → Bool
  | .insert _ => true
  | _ => false

def updates (snippetId : String) : SnippetTask → Bool
  | .update id _ => id = snippetId
  | _ => false

def retitles (snippetId : String) : SnippetTask → Bool
  | .retitle id _ _ => id = snippetId
  | _ => false

def removes (snippetId : String) : SnippetTask → Bool
  | .remove id _ => id = snippetId
  | _ => false

/-- The updaters of `setSnippets` when the response arrives. -/
def answered (snippets : List ClipboardRow) : SnippetTask → Option (List ClipboardRow)
  | .answer (.created snippet) => some ((SnippetNotice.created snippet).apply snippets)
  | .answer _ | .refusedCreation | .refusedTitle _ none | .refusedRemoval _ none => some snippets
  | .refusedTitle snippetId (some previous) =>
      some (snippets.map fun s => if s.id = snippetId then previous else s)
  | .refusedRemoval snippetId (some removed) =>
      some (if snippetId ∈ snippets.map ClipboardRow.id then snippets else snippets ++ [removed])
  | _ => none

end SnippetTask

/-- A request of a hook, or a message in the receive loop of its socket. -/
structure SnippetCall where
  device : String
  viaSocket : Bool
  task : SnippetTask
deriving DecidableEq

namespace SnippetCall

/-- What the tasks of the server are still to send to a device. -/
def toSend (calls : List SnippetCall) (device : String) : List SnippetNotice :=
  calls.filterMap fun call => call.task.sends device

/-- Content of the device is to be stored, or a title, or a removal. -/
def updating (calls : List SnippetCall) (device snippetId : String) : Bool :=
  calls.any fun call => call.device = device ∧ call.task.updates snippetId = true

def retitling (calls : List SnippetCall) (device snippetId : String) : Bool :=
  calls.any fun call => call.device = device ∧ call.task.retitles snippetId = true

def removing (calls : List SnippetCall) (device snippetId : String) : Bool :=
  calls.any fun call => call.device = device ∧ call.task.removes snippetId = true

end SnippetCall

structure ClipboardClient where
  snippets : List ClipboardRow
  /-- `debounceTimers`, with the content that each timer is going to send. -/
  timers : OrderedDict String String
  /-- The messages that the server has not taken from the socket. -/
  outbox : List (String × String)
  /-- The messages of the server that the hook has not received. -/
  inbox : List SnippetNotice

/-- The hook has content that the server has not taken from the socket. -/
def ClipboardClient.pending (client : ClipboardClient) (snippetId : String) : Bool :=
  (client.timers.get snippetId).isSome || client.outbox.any fun message => message.1 = snippetId

structure ClipboardSystem where
  table : ClipboardTable
  clients : String → ClipboardClient
  calls : List SnippetCall

inductive ClipboardEvent where
  | updateContent (device snippetId content : String)
  /-- A timer expires. -/
  | expire (device snippetId : String)
  /-- The receive loop of the socket takes the next message. -/
  | take (device : String)
  | addSnippet (device : String)
  | updateTitle (device snippetId title : String)
  | removeSnippet (device snippetId : String)
  | resume (i : Nat) (newId now : String)
  /-- The response of request number `i` arrives. -/
  | answered (i : Nat)
  /-- The next message of the socket arrives at the hook. -/
  | receive (device : String)
deriving DecidableEq

namespace ClipboardSystem

variable (devices : List String)

/-- The id occurs at a client or in a message to one. -/
def Seen (s : ClipboardSystem) (snippetId : String) : Prop :=
  ∃ device ∈ devices, snippetId ∈ (s.clients device).snippets.map ClipboardRow.id ∨
    ∃ notice ∈ (s.clients device).inbox ++ SnippetCall.toSend s.calls device, notice.id = snippetId

instance (s : ClipboardSystem) (snippetId : String) : Decidable (s.Seen devices snippetId) :=
  inferInstanceAs (Decidable (∃ device ∈ devices, _))

/-- The receive loop of the socket has handled its last message. -/
def LoopFree (s : ClipboardSystem) (device : String) : Prop :=
  ∀ call ∈ s.calls, call.viaSocket = true → call.device = device → call.task = .ended

instance (s : ClipboardSystem) (device : String) : Decidable (s.LoopFree device) :=
  inferInstanceAs (Decidable (∀ call ∈ s.calls, _))

def setClient (s : ClipboardSystem) (device : String) (client : ClipboardClient) : ClipboardSystem :=
  { s with clients := update s.clients device client }

/-- A message is sent on a socket. -/
def send (s : ClipboardSystem) : Option (String × SnippetNotice) → ClipboardSystem
  | some (target, notice) =>
      let client := s.clients target
      s.setClient target { client with inbox := client.inbox ++ [notice] }
  | none => s

/-- A task goes on. -/
def advance (s : ClipboardSystem) (i : Nat) (call : SnippetCall) (table : ClipboardTable) (task : SnippetTask) :
    ClipboardSystem :=
  { s with table := table, calls := s.calls.set i { call with task := task } }

def start (s : ClipboardSystem) (device : String) (viaSocket : Bool) (task : SnippetTask) : ClipboardSystem :=
  { s with calls := s.calls ++ [⟨device, viaSocket, task⟩] }

def step (s : ClipboardSystem) : ClipboardEvent → Option ClipboardSystem
  | .updateContent device snippetId content =>
      let client := s.clients device
      some <| s.setClient device
        { client with
          snippets := client.snippets.map fun row =>
            if row.id = snippetId then { row with content := content } else row
          timers := client.timers.set snippetId content }
  | .expire device snippetId =>
      let client := s.clients device
      (client.timers.get snippetId).map fun content =>
        s.setClient device
          { client with
            timers := client.timers.erase snippetId
            outbox := client.outbox ++ [(snippetId, content)] }
  | .take device =>
      let client := s.clients device
      match client.outbox with
      | (snippetId, content) :: outbox =>
          if device ∈ devices ∧ s.LoopFree device then
            some ((s.setClient device { client with outbox := outbox }).start device true
              (.update snippetId content))
          else none
      | [] => none
  | .addSnippet device => some (s.start device false (.count "Untitled"))
  | .updateTitle device snippetId title =>
      let client := s.clients device
      let snippets := client.snippets.map fun row =>
        if row.id = snippetId then { row with title := title } else row
      some ((s.setClient device { client with snippets := snippets }).start device false
        (.retitle snippetId title (held client.snippets snippetId)))
  | .removeSnippet device snippetId =>
      let client := s.clients device
      let snippets := client.snippets.filter fun row => row.id ≠ snippetId
      some ((s.setClient device { client with snippets := snippets }).start device false
        (.remove snippetId (held client.snippets snippetId)))
  | .resume i newId now => do
      let call ← s.calls[i]?
      -- `uuid.uuid4()` gives an id that has not been seen.
      guard (call.task.inserts = true → ¬s.Seen devices newId)
      let (table, sent, task) ← call.task.resume devices call.device call.viaSocket s.table newId now
      some ((s.send sent).advance i call table task)
  | .answered i => do
      let call ← s.calls[i]?
      let client := s.clients call.device
      let snippets ← call.task.answered client.snippets
      some ((s.setClient call.device { client with snippets := snippets }).advance i call s.table .ended)
  | .receive device =>
      let client := s.clients device
      match client.inbox with
      | notice :: inbox =>
          some (s.setClient device { client with snippets := notice.apply client.snippets, inbox := inbox })
      | [] => none

/-- No timer is pending, and no message or request is in flight. -/
def Quiescent (s : ClipboardSystem) : Prop :=
  (∀ device ∈ devices, (s.clients device).timers = [] ∧ (s.clients device).outbox = [] ∧
      (s.clients device).inbox = []) ∧
    ∀ call ∈ s.calls, call.task = .ended

/-- Every client has the snippets of the store, once each and with their title and content, and no others. -/
def Converged (s : ClipboardSystem) : Prop :=
  ∀ device ∈ devices, ((s.clients device).snippets.map ClipboardRow.id).Nodup ∧
    ∀ id, (held (s.clients device).snippets id).map (fun row => (row.title, row.content)) =
      (held s.table.rows id).map fun row => (row.title, row.content)

/-- No update is rejected. -/
def Accepts (s : ClipboardSystem) : ClipboardEvent → Bool
  | .resume i _ _ =>
      match s.calls[i]? with
      | some ⟨_, _, .update snippetId content⟩ =>
          content.length ≤ maxContentLength ∧ (held s.table.rows snippetId).isSome = true
      | some ⟨_, _, .retitle snippetId _ _⟩ => (held s.table.rows snippetId).isSome
      | _ => true
  | _ => true

end ClipboardSystem

end NetworkFileServer.Client
