import Mathlib.Data.List.Sort
import NetworkFileServer.Framework.KeyedTable
import NetworkFileServer.Framework.Text
import NetworkFileServer.Framework.TransitionSystem

/-!
# File requests

The table `file_requests` of `sqlite_store.py` and the calls of `file_request_service.py`. Every store
call runs in a thread of its own, so that other calls go on between the check of a request's status and
the write of the new one.
-/

namespace NetworkFileServer.Server

inductive RequestStatus where
  | pending
  | fulfilled
  | dismissed
deriving DecidableEq, Repr

def RequestStatus.value : RequestStatus → String
  | .pending => "pending"
  | .fulfilled => "fulfilled"
  | .dismissed => "dismissed"

structure FileRequestRow where
  id : String
  description : String
  requesterDeviceId : String
  requesterDeviceName : String
  status : RequestStatus
  createdAt : String
  fulfilledByDeviceName : Option String
  fulfilledFileName : Option String
  fulfilledFilePath : Option String
  fulfilledAt : Option String
deriving DecidableEq, Repr

/-- The table `file_requests`; the id is its primary key. -/
structure FileRequestTable where
  rows : List FileRequestRow
  ids : (rows.map FileRequestRow.id).Nodup

namespace FileRequestTable

variable (t : FileRequestTable)

/-- `SELECT … WHERE id = ?`; `none` is a `KeyError`. -/
def getFileRequest (requestId : String) : Option FileRequestRow :=
  t.rows.find? fun row => row.id = requestId

/-- `UPDATE … WHERE id = ?`, which leaves the id alone. -/
def update (requestId : String) (change : FileRequestRow → FileRequestRow)
    (hid : ∀ row, (change row).id = row.id) : FileRequestTable where
  rows := t.rows.map fun row => if row.id = requestId then change row else row
  ids := by
    have hids : (t.rows.map fun row => if row.id = requestId then change row else row).map
        FileRequestRow.id = t.rows.map FileRequestRow.id := by
      rw [List.map_map]
      apply List.map_congr_left
      intro row _
      by_cases hrow : row.id = requestId
      · simp [hrow, hid]
      · simp [hrow]
    rw [hids]
    exact t.ids

/-- What `update_file_request` makes of a row: an argument that is `None` leaves its column. -/
def nextRow (status : Option RequestStatus) (byDeviceName fileName filePath fulfilledAt : Option String)
    (row : FileRequestRow) : FileRequestRow :=
  { row with
    status := status.getD row.status
    fulfilledByDeviceName := byDeviceName.or row.fulfilledByDeviceName
    fulfilledFileName := fileName.or row.fulfilledFileName
    fulfilledFilePath := filePath.or row.fulfilledFilePath
    fulfilledAt := fulfilledAt.or row.fulfilledAt }

theorem nextRow_id (status : Option RequestStatus) (byDeviceName fileName filePath fulfilledAt : Option String)
    (row : FileRequestRow) :
    (nextRow status byDeviceName fileName filePath fulfilledAt row).id = row.id := rfl

/-- `update_file_request`: the row after the update, and the table. -/
def updateFileRequest (requestId : String) (status : Option RequestStatus)
    (byDeviceName fileName filePath fulfilledAt : Option String) :
    Option (FileRequestRow × FileRequestTable) :=
  let change := nextRow status byDeviceName fileName filePath fulfilledAt
  (t.getFileRequest requestId).map fun row =>
    (change row, t.update requestId change (nextRow_id _ _ _ _ _))

def dismissFileRequest (requestId : String) : Option FileRequestTable :=
  (t.getFileRequest requestId).map fun _ =>
    t.update requestId (fun row => { row with status := .dismissed }) fun _ => rfl

/-- An id that is in the table is an `IntegrityError`. -/
def insertFileRequest (row : FileRequestRow) : Option FileRequestTable :=
  if h : row.id ∈ t.rows.map FileRequestRow.id then none
  else some ⟨t.rows ++ [row], KeyedTable.nodup_concat FileRequestRow.id t.rows row t.ids h⟩

/-- `SELECT … WHERE status != 'dismissed' ORDER BY created_at DESC`. -/
def listFileRequests : List FileRequestRow :=
  (t.rows.filter fun row => row.status ≠ .dismissed).insertionSort fun a b => b.createdAt ≤ a.createdAt

theorem get_eq_some_iff (requestId : String) (row : FileRequestRow) :
    t.getFileRequest requestId = some row ↔ row ∈ t.rows ∧ row.id = requestId :=
  KeyedTable.find?_eq_some_iff FileRequestRow.id _ requestId t.rows t.ids (by simp) row

theorem get_update (requestId requestId' : String) (change : FileRequestRow → FileRequestRow)
    (hid : ∀ row, (change row).id = row.id) :
    (t.update requestId change hid).getFileRequest requestId' =
      if requestId' = requestId then (t.getFileRequest requestId').map change
      else t.getFileRequest requestId' := by
  unfold getFileRequest update
  rw [List.find?_map]
  have hkey : ((fun row : FileRequestRow => decide (row.id = requestId')) ∘ fun row =>
      if row.id = requestId then change row else row) = fun row => decide (row.id = requestId') := by
    funext row
    by_cases hrow : row.id = requestId <;> simp [hrow, hid]
  rw [hkey]
  cases hfind : t.rows.find? fun row => decide (row.id = requestId') with
  | none => simp
  | some row =>
      have hrow : row.id = requestId' := by simpa using List.find?_some hfind
      by_cases heq : requestId' = requestId <;> simp [hrow, heq]

theorem get_insert {row : FileRequestRow} {t' : FileRequestTable} (h : t.insertFileRequest row = some t')
    (requestId : String) (current : FileRequestRow) :
    t'.getFileRequest requestId = some current ↔
      t.getFileRequest requestId = some current ∨ requestId = row.id ∧ current = row := by
  unfold insertFileRequest at h
  split at h
  · cases h
  · cases h
    simp only [get_eq_some_iff, List.mem_append, List.mem_singleton]
    constructor
    · rintro ⟨hold | rfl, hid⟩
      · exact .inl ⟨hold, hid⟩
      · exact .inr ⟨hid.symm, rfl⟩
    · rintro (⟨hold, hid⟩ | ⟨rfl, rfl⟩)
      · exact ⟨.inl hold, hid⟩
      · exact ⟨.inr rfl, rfl⟩

theorem mem_listFileRequests (row : FileRequestRow) :
    row ∈ t.listFileRequests ↔ t.getFileRequest row.id = some row ∧ row.status ≠ .dismissed := by
  simp [listFileRequests, List.mem_insertionSort, get_eq_some_iff]

theorem listFileRequests_ids : (t.listFileRequests.map FileRequestRow.id).Nodup := by
  have hperm := (List.perm_insertionSort (fun a b : FileRequestRow => b.createdAt ≤ a.createdAt)
    (t.rows.filter fun row => row.status ≠ .dismissed)).map FileRequestRow.id
  refine hperm.nodup_iff.mpr ?_
  exact t.ids.sublist (List.filter_sublist.map _)

end FileRequestTable

/-- The row of `create_request`, with the id and the time that it makes; `none` is a `ValueError`. -/
def createRequest (requestId now description requesterDeviceId requesterDeviceName : String) :
    Option FileRequestRow :=
  if Text.strip description = "" then none
  else some ⟨requestId, Text.strip description, requesterDeviceId, requesterDeviceName, .pending, now,
    none, none, none, none⟩

inductive RequestError where
  | key (message : String)
  | value (message : String)
deriving DecidableEq, Repr

/-- The arguments of `fulfill_request`. -/
structure Fulfilment where
  requestId : String
  byDeviceName : String
  fileName : String
  filePath : String
deriving DecidableEq, Repr

inductive RequestCall where
  | fulfillRequest (f : Fulfilment)
  | dismissRequest (requestId callerDeviceId : String)
deriving DecidableEq, Repr

/-- Where a call is: at the store call that it awaits, or at its end. -/
inductive RequestCallPc where
  | fulfillGet (f : Fulfilment)
  | fulfillUpdate (f : Fulfilment) (now : String)
  | dismissGet (requestId callerDeviceId : String)
  | dismissUpdate (requestId : String)
  | fulfilled (f : Fulfilment) (row : FileRequestRow)
  | dismissed (requestId : String)
  | raised (e : RequestError)
deriving DecidableEq, Repr

def RequestCall.entry : RequestCall → RequestCallPc
  | .fulfillRequest f => .fulfillGet f
  | .dismissRequest requestId callerDeviceId => .dismissGet requestId callerDeviceId

def notFound (requestId : String) : RequestError := .key ("File request '" ++ requestId ++ "' not found")

/-- The store call that is awaited, and the code up to the next one; `now` is the time in between. -/
def RequestCallPc.resume (t : FileRequestTable) (now : String) :
    RequestCallPc → Option (FileRequestTable × RequestCallPc)
  | .fulfillGet f =>
      match t.getFileRequest f.requestId with
      | none => some (t, .raised (notFound f.requestId))
      | some current =>
          if current.status ≠ .pending then
            some (t, .raised (.value ("Can only fulfill PENDING requests, got " ++ current.status.value)))
          else some (t, .fulfillUpdate f now)
  | .fulfillUpdate f fulfilledAt =>
      match t.updateFileRequest f.requestId (some .fulfilled) (some f.byDeviceName) (some f.fileName)
          (some f.filePath) (some fulfilledAt) with
      | none => some (t, .raised (notFound f.requestId))
      | some (row, t') => some (t', .fulfilled f row)
  | .dismissGet requestId callerDeviceId =>
      match t.getFileRequest requestId with
      | none => some (t, .raised (notFound requestId))
      | some entry =>
          if entry.requesterDeviceId ≠ callerDeviceId then
            some (t, .raised (.value "Only the requester can dismiss their request"))
          else some (t, .dismissUpdate requestId)
  | .dismissUpdate requestId =>
      match t.dismissFileRequest requestId with
      | none => some (t, .raised (notFound requestId))
      | some t' => some (t', .dismissed requestId)
  | .fulfilled _ _ | .dismissed _ | .raised _ => none

/-- The table, the calls that have been made, and the requests that have been DISMISSED at some time. -/
structure RequestSystem where
  table : FileRequestTable
  calls : List RequestCallPc
  wasDismissed : List String

inductive RequestAction where
  | start (call : RequestCall)
  /-- The store call of call number `i` is executed. -/
  | resume (i : Nat) (now : String)
deriving DecidableEq, Repr

namespace RequestSystem

/-- The ids of the rows that are DISMISSED. -/
def dismissedIn (t : FileRequestTable) : List String :=
  (t.rows.filter fun row => row.status = .dismissed).map FileRequestRow.id

def start (t : FileRequestTable) : RequestSystem := ⟨t, [], dismissedIn t⟩

/-- What the calls do. -/
def move (s : RequestSystem) : RequestAction → Option (FileRequestTable × List RequestCallPc)
  | .start call => some (s.table, s.calls ++ [call.entry])
  | .resume i now =>
      (s.calls[i]?.bind fun pc => pc.resume s.table now).map fun (t, pc) => (t, s.calls.set i pc)

def step (s : RequestSystem) (a : RequestAction) : Option RequestSystem :=
  (s.move a).map fun (t, calls) => ⟨t, calls, s.wasDismissed ++ dismissedIn t⟩

end RequestSystem

end NetworkFileServer.Server
