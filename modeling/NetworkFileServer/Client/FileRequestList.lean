import NetworkFileServer.Server.FileRequests

/-!
# The hook's list of file requests

One `useFileRequests` hook with its socket and the server: the routes of `file_requests.py` for this hook
and for everybody else. A route is a sequence of store calls, and then a broadcast; the socket delivers in
the order of the broadcasts, the answers to HTTP requests come in any order. The socket of the device is
connected throughout, and every message is well formed.
-/

namespace NetworkFileServer.Client

open Server TransitionSystem

inductive FileRequestHttp where
  | create (description deviceId deviceName : String)
  /-- The file goes to the shared folder. -/
  | fulfill (requestId deviceName : String)
  | dismiss (requestId deviceId : String)
deriving DecidableEq, Repr

/-- A message of the socket or the answer to a call of the hook, which change the list in the same way. -/
inductive RequestNotice where
  | created (request : FileRequestRow)
  | fulfilled (requestId : String) (request : FileRequestRow)
  | dismissed (requestId : String)
deriving DecidableEq, Repr

/-- The notice tells that the request is fulfilled. -/
def RequestNotice.fulfils (requestId : String) : RequestNotice → Bool
  | .fulfilled id _ => id = requestId
  | _ => false

/-- Where a route is. -/
inductive FileRequestPc where
  /-- At the insert of `create_request`. -/
  | insert (row : FileRequestRow)
  /-- The request is stored, and the broadcast comes next. -/
  | inserted (row : FileRequestRow)
  /-- In `upload_file`. -/
  | upload (requestId deviceName : String)
  /-- In the service; when the service has returned, the broadcast comes next. -/
  | service (pc : RequestCallPc)
  /-- The response is under way. -/
  | answer (notice : RequestNotice)
  | ended
deriving DecidableEq, Repr

inductive FetchState where
  | asked
  /-- The server has read its list, and the response is under way. -/
  | answered (rows : List FileRequestRow)
  | fetched
deriving DecidableEq, Repr

structure RequestListSystem where
  table : FileRequestTable
  /-- The HTTP requests so far, with the mark of those that the hook has made. -/
  calls : List (Bool × FileRequestPc)
  /-- What the server has sent on the socket and the hook has not received. -/
  socket : List RequestNotice
  fetch : FetchState
  /-- The state of the hook. -/
  requests : List FileRequestRow

inductive RequestListEvent where
  /-- The server reads its list for the fetch. -/
  | list
  /-- The response of the fetch arrives. -/
  | fetched
  /-- The next message of the socket arrives. -/
  | receive
  | start (fromHook : Bool) (request : FileRequestHttp) (requestId now : String)
  /-- `upload_file` returns the name of the file, or raises. -/
  | uploaded (i : Nat) (name : Option String)
  | resume (i : Nat) (now : String)
  /-- The response of request number `i` arrives. -/
  | answered (i : Nat)
deriving DecidableEq, Repr

/-- The routes up to the first `await`; an id and a time are made for a new request. -/
def FileRequestHttp.entry (requestId now : String) : FileRequestHttp → FileRequestPc
  | .create description deviceId deviceName =>
      match createRequest requestId now description deviceId deviceName with
      | some row => .insert row
      | none => .ended
  | .fulfill requestId deviceName => .upload requestId deviceName
  | .dismiss requestId deviceId => .service (RequestCall.entry (.dismissRequest requestId deviceId))

/-- The hook sends its own device id. -/
def FileRequestHttp.sentBy (deviceId : String) : FileRequestHttp → Bool
  | .create _ device _ | .dismiss _ device => device = deviceId
  | .fulfill _ _ => true

namespace FileRequestPc

/-- From one `await` to the next: the table, what is sent to the device, and where the route is then. A
creation is broadcast to the other devices, everything else to all of them. -/
def resume (deviceId : String) (t : FileRequestTable) (now : String) :
    FileRequestPc → Option (FileRequestTable × List RequestNotice × FileRequestPc)
  | .insert row =>
      match t.insertFileRequest row with
      | some t' => some (t', [], .inserted row)
      | none => some (t, [], .ended)
  | .inserted row =>
      some (t, if row.requesterDeviceId = deviceId then [] else [.created row], .answer (.created row))
  | .service (.fulfilled f row) => some (t, [.fulfilled row.id row], .answer (.fulfilled f.requestId row))
  | .service (.dismissed requestId) => some (t, [.dismissed requestId], .answer (.dismissed requestId))
  | .service (.raised _) => some (t, [], .ended)
  | .service pc => (pc.resume t now).map fun (t', pc') => (t', [], .service pc')
  | .upload _ _ | .answer _ | .ended => none

/-- `upload_file` returns; the name of the file is its path, too. -/
def uploaded (name : Option String) : FileRequestPc → Option FileRequestPc
  | .upload requestId deviceName =>
      match name with
      | some name => some (.service (RequestCall.entry (.fulfillRequest ⟨requestId, deviceName, name, name⟩)))
      | none => some .ended
  | _ => none

end FileRequestPc

/-- The updaters of `setRequests`. -/
def RequestNotice.apply (requests : List FileRequestRow) : RequestNotice → List FileRequestRow
  | .created request => request :: requests
  | .fulfilled requestId request => requests.map fun r => if r.id = requestId then request else r
  | .dismissed requestId => requests.filter fun r => r.id ≠ requestId

namespace RequestListSystem

/-- The hook is mounted. -/
def start (t : FileRequestTable) : RequestListSystem := ⟨t, [], [], .asked, []⟩

variable (deviceId : String)

def step (s : RequestListSystem) : RequestListEvent → Option RequestListSystem
  | .list => if s.fetch = .asked then some { s with fetch := .answered s.table.listFileRequests } else none
  | .fetched =>
      match s.fetch with
      | .answered rows => some { s with fetch := .fetched, requests := rows }
      | _ => none
  | .receive =>
      match s.socket with
      | notice :: socket => some { s with socket := socket, requests := notice.apply s.requests }
      | [] => none
  | .start fromHook request requestId now =>
      if fromHook = true → request.sentBy deviceId = true then
        some { s with calls := s.calls ++ [(fromHook, request.entry requestId now)] }
      else none
  | .uploaded i name => do
      let (fromHook, pc) ← s.calls[i]?
      let pc' ← pc.uploaded name
      some { s with calls := s.calls.set i (fromHook, pc') }
  | .resume i now => do
      let (fromHook, pc) ← s.calls[i]?
      let (table, sent, pc') ← pc.resume deviceId s.table now
      some { s with table := table, socket := s.socket ++ sent, calls := s.calls.set i (fromHook, pc') }
  | .answered i =>
      match s.calls[i]? with
      | some (true, .answer notice) =>
          some { s with calls := s.calls.set i (true, .ended), requests := notice.apply s.requests }
      | some (false, .answer _) => some { s with calls := s.calls.set i (false, .ended) }
      | _ => none

/-- The list that the hook returns. -/
def shown (s : RequestListSystem) : List FileRequestRow := s.requests.filter fun r => r.status ≠ .dismissed

/-- Nothing is in flight. -/
def Settled (s : RequestListSystem) : Prop :=
  s.socket = [] ∧ s.fetch = .fetched ∧ ∀ call ∈ s.calls, call.2 = .ended

/-- The requests that are not dismissed, once each and with their status, and no others. -/
structure Exact (s : RequestListSystem) : Prop where
  once : (s.shown.map FileRequestRow.id).Nodup
  current : ∀ id status, (∃ r ∈ s.shown, r.id = id ∧ r.status = status) ↔
    status ≠ .dismissed ∧ ∃ row, s.table.getFileRequest id = some row ∧ row.status = status

/-- What the hook is still to learn from a call: the broadcast, and the response when it is its own. -/
def notices : Bool × FileRequestPc → List RequestNotice
  | (fromHook, .inserted row) =>
      if fromHook = true ∨ row.requesterDeviceId ≠ deviceId then [.created row] else []
  | (_, .service (.fulfilled f row)) => [.fulfilled f.requestId row]
  | (_, .service (.dismissed requestId)) => [.dismissed requestId]
  | (true, .answer notice) => [notice]
  | _ => []

def underWay (s : RequestListSystem) : List RequestNotice := s.socket ++ s.calls.flatMap (notices deviceId)

/-- The message about what has become of the request is still to come. -/
def ChangeUnderWay (under : List RequestNotice) (current : FileRequestRow) : Bool :=
  match current.status with
  | .pending => true
  | .fulfilled => under.any (·.fulfils current.id)
  | .dismissed => .dismissed current.id ∈ under

/-- The list tells already what the notice says. -/
def Told (rows : List FileRequestRow) : RequestNotice → Bool
  | .created row => row.id ∈ rows.map FileRequestRow.id
  | .fulfilled requestId _ => ∀ r ∈ rows, r.id = requestId → r.status ≠ .pending
  | .dismissed requestId => requestId ∉ rows.map FileRequestRow.id

/-- A message is handled in time. As long as the response of the fetch is under way, which replaces the
list, that response has to tell the same; afterwards a creation must be new to the list, and come before
the message about what has become of the request. -/
def InTime (s : RequestListSystem) (notice : RequestNotice) : Bool :=
  match s.fetch, notice with
  | .asked, _ => true
  | .answered rows, _ => Told rows notice
  | .fetched, .created row =>
      row.id ∉ s.requests.map FileRequestRow.id ∧
        (s.table.getFileRequest row.id).all (ChangeUnderWay (s.underWay deviceId))
  | .fetched, _ => true

/-- Messages are handled in time, a request with the device id of the hook that the hook has not made is
stored before the server answers the fetch, and no request is fulfilled after it was dismissed. -/
def Ordered (s : RequestListSystem) : RequestListEvent → Bool
  | .receive => s.socket.head?.all (s.InTime deviceId)
  | .answered i =>
      match s.calls[i]? with
      | some (true, .answer notice) => s.InTime deviceId notice
      | _ => true
  | .resume i _ =>
      match s.calls[i]? with
      | some (fromHook, .insert row) => fromHook = true ∨ row.requesterDeviceId ≠ deviceId ∨ s.fetch = .asked
      | some (_, .service (.fulfillUpdate f _)) =>
          (s.table.getFileRequest f.requestId).all fun row => row.status ≠ .dismissed
      | _ => true
  | _ => true

/-- What a notice says is true of the table. -/
def Sent (t : FileRequestTable) : RequestNotice → Prop
  | .created row => row.status = .pending ∧ ∃ current, t.getFileRequest row.id = some current
  | .fulfilled requestId row => row.id = requestId ∧ row.status = .fulfilled ∧
      ∃ current, t.getFileRequest requestId = some current ∧ current.status ≠ .pending
  | .dismissed requestId => ∃ current, t.getFileRequest requestId = some current ∧ current.status = .dismissed

/-- A list that the notices under way make equal to the table. -/
structure Agrees (t : FileRequestTable) (under : List RequestNotice) (rows : List FileRequestRow) : Prop where
  once : (rows.map FileRequestRow.id).Nodup
  known : ∀ r ∈ rows, r.status ≠ .dismissed ∧ ∃ current, t.getFileRequest r.id = some current ∧
    (r.status = current.status ∨ r.status = .pending ∧ current.status = .fulfilled ∧
        under.any (·.fulfils r.id) = true ∨
      current.status = .dismissed ∧ .dismissed r.id ∈ under)
  present : ∀ id current, t.getFileRequest id = some current → current.status ≠ .dismissed →
    id ∈ rows.map FileRequestRow.id ∨ ∃ row, row.id = id ∧ .created row ∈ under

theorem any_mono {under under' : List RequestNotice} (h : ∀ n ∈ under, n ∈ under') {id : String}
    (hany : under.any (·.fulfils id) = true) : under'.any (·.fulfils id) = true := by
  obtain ⟨n, hn, hid⟩ := List.any_eq_true.mp hany
  exact List.any_eq_true.mpr ⟨n, h n hn, hid⟩

variable {t t' : FileRequestTable} {under under' : List RequestNotice} {rows : List FileRequestRow}
  {n : RequestNotice}

theorem Agrees.mono (h : Agrees t under rows) (hsub : ∀ n ∈ under, n ∈ under') : Agrees t under' rows where
  once := h.once
  known := by
    intro r hr
    obtain ⟨hstatus, current, hcurrent, hsame | ⟨hpending, hful, hany⟩ | ⟨hdis, hmem⟩⟩ := h.known r hr
    · exact ⟨hstatus, current, hcurrent, .inl hsame⟩
    · exact ⟨hstatus, current, hcurrent, .inr (.inl ⟨hpending, hful, any_mono hsub hany⟩)⟩
    · exact ⟨hstatus, current, hcurrent, .inr (.inr ⟨hdis, hsub _ hmem⟩)⟩
  present := by
    intro id current hcurrent hstatus
    obtain hin | ⟨row, hid, hrow⟩ := h.present id current hcurrent hstatus
    · exact .inl hin
    · exact .inr ⟨row, hid, hsub _ hrow⟩

theorem agrees_listFileRequests (t : FileRequestTable) (under : List RequestNotice) :
    Agrees t under t.listFileRequests where
  once := t.listFileRequests_ids
  known := by
    intro r hr
    obtain ⟨hcurrent, hstatus⟩ := (t.mem_listFileRequests r).mp hr
    exact ⟨hstatus, r, hcurrent, .inl rfl⟩
  present := by
    intro id current hcurrent hstatus
    obtain ⟨-, rfl⟩ := (t.get_eq_some_iff id current).mp hcurrent
    exact .inl (List.mem_map_of_mem ((t.mem_listFileRequests current).mpr ⟨hcurrent, hstatus⟩))

theorem Agrees.applyCreated (h : Agrees t under rows) (row : FileRequestRow) (hsent : Sent t (.created row))
    (hnew : row.id ∉ rows.map FileRequestRow.id)
    (hchange : (t.getFileRequest row.id).all (ChangeUnderWay under) = true) :
    Agrees t under (row :: rows) := by
  obtain ⟨hpending, current, hcurrent⟩ := hsent
  have hid : current.id = row.id := ((t.get_eq_some_iff row.id current).mp hcurrent).2
  refine ⟨List.nodup_cons.mpr ⟨hnew, h.once⟩, ?_, ?_⟩
  · intro r hr
    rcases List.mem_cons.mp hr with rfl | hold
    · refine ⟨by simp [hpending], current, hcurrent, ?_⟩
      rw [hcurrent] at hchange
      simp only [Option.all_some, ChangeUnderWay, hid] at hchange
      cases hstatus : current.status with
      | pending => exact .inl hpending
      | fulfilled => exact .inr (.inl ⟨hpending, rfl, by simpa [hstatus] using hchange⟩)
      | dismissed => exact .inr (.inr ⟨rfl, by simpa [hstatus] using hchange⟩)
    · exact h.known r hold
  · intro id other hother hstatus
    obtain hin | hunder := h.present id other hother hstatus
    · exact .inl (List.mem_cons_of_mem _ hin)
    · exact .inr hunder

theorem Agrees.applyFulfilled (h : Agrees t under rows) (requestId : String) (row : FileRequestRow)
    (hsent : Sent t (.fulfilled requestId row)) :
    Agrees t under (rows.map fun r => if r.id = requestId then row else r) := by
  obtain ⟨hid, hfulfilled, current, hcurrent, hstatus⟩ := hsent
  have hids : (rows.map fun r => if r.id = requestId then row else r).map FileRequestRow.id =
      rows.map FileRequestRow.id := by
    rw [List.map_map]
    apply List.map_congr_left
    intro r _
    by_cases hr : r.id = requestId <;> simp [hr, hid]
  refine ⟨by rw [hids]; exact h.once, ?_, by rw [hids]; exact h.present⟩
  intro r hr
  obtain ⟨old, hold, rfl⟩ := List.mem_map.mp hr
  split
  · rename_i heq
    refine ⟨by simp [hfulfilled], current, by rw [hid]; exact hcurrent, ?_⟩
    obtain ⟨hnot, current', hcurrent', hcases⟩ := h.known old hold
    rw [heq, hcurrent] at hcurrent'
    cases hcurrent'
    rw [hfulfilled, hid, ← heq]
    rcases hcases with hsame | ⟨-, hful, -⟩ | hdis
    · left
      cases hcurrentStatus : current.status with
      | pending => exact absurd hcurrentStatus hstatus
      | fulfilled => rfl
      | dismissed => exact absurd (hsame.trans hcurrentStatus) hnot
    · exact .inl hful.symm
    · exact .inr (.inr hdis)
  · exact h.known old hold

theorem Agrees.applyDismissed (h : Agrees t under rows) (requestId : String)
    (hsent : Sent t (.dismissed requestId)) :
    Agrees t under (rows.filter fun r => r.id ≠ requestId) := by
  obtain ⟨current, hcurrent, hdismissed⟩ := hsent
  refine ⟨h.once.sublist (List.filter_sublist.map _), ?_, ?_⟩
  · intro r hr
    exact h.known r (List.mem_of_mem_filter hr)
  · intro id other hother hstatus
    obtain hin | hunder := h.present id other hother hstatus
    · left
      obtain ⟨r, hr, rfl⟩ := List.mem_map.mp hin
      refine List.mem_map_of_mem (List.mem_filter.mpr ⟨hr, ?_⟩)
      have hne : r.id ≠ requestId := by
        intro heq
        rw [heq, hcurrent] at hother
        cases hother
        exact hstatus hdismissed
      simpa using hne
    · exact .inr hunder

theorem Agrees.drop (h : Agrees t under rows) (notice : RequestNotice) (htold : Told rows notice = true)
    (hrest : ∀ n ∈ under, n = notice ∨ n ∈ under') : Agrees t under' rows where
  once := h.once
  known := by
    intro r hr
    obtain ⟨hstatus, current, hcurrent, hsame | ⟨hpending, hful, hany⟩ | ⟨hdis, hmem⟩⟩ := h.known r hr
    · exact ⟨hstatus, current, hcurrent, .inl hsame⟩
    · refine ⟨hstatus, current, hcurrent, .inr (.inl ⟨hpending, hful, ?_⟩)⟩
      obtain ⟨n, hn, hfulfils⟩ := List.any_eq_true.mp hany
      rcases hrest n hn with rfl | hn'
      · cases n with
        | fulfilled requestId row =>
            simp only [RequestNotice.fulfils, decide_eq_true_eq] at hfulfils
            simp only [Told, decide_eq_true_eq] at htold
            exact absurd hpending (htold r hr hfulfils.symm)
        | _ => cases hfulfils
      · exact List.any_eq_true.mpr ⟨n, hn', hfulfils⟩
    · refine ⟨hstatus, current, hcurrent, .inr (.inr ⟨hdis, ?_⟩)⟩
      rcases hrest _ hmem with rfl | hmem'
      · simp only [Told, decide_eq_true_eq] at htold
        exact absurd (List.mem_map_of_mem hr) htold
      · exact hmem'
  present := by
    intro id current hcurrent hstatus
    obtain hin | ⟨row, rfl, hrow⟩ := h.present id current hcurrent hstatus
    · exact .inl hin
    · rcases hrest _ hrow with rfl | hrow'
      · simp only [Told, decide_eq_true_eq] at htold
        exact .inl htold
      · exact .inr ⟨row, rfl, hrow'⟩

theorem told_apply (t : FileRequestTable) (rows : List FileRequestRow) (notice : RequestNotice)
    (hsent : Sent t notice) : Told (notice.apply rows) notice = true := by
  cases notice with
  | created row => simp [Told, RequestNotice.apply]
  | fulfilled requestId row =>
      obtain ⟨-, hfulfilled, -⟩ := hsent
      refine decide_eq_true ?_
      intro r hr hid
      obtain ⟨old, -, rfl⟩ := List.mem_map.mp hr
      split at hid
      · simp_all
      · contradiction
  | dismissed requestId => simp [Told, RequestNotice.apply]

theorem Sent.insert (h : Sent t n) {row : FileRequestRow} (hinsert : t.insertFileRequest row = some t') :
    Sent t' n := by
  have hkept : ∀ id current, t.getFileRequest id = some current → t'.getFileRequest id = some current :=
    fun id current hcurrent => (t.get_insert hinsert id current).mpr (.inl hcurrent)
  cases n with
  | created row =>
      obtain ⟨hpending, current, hcurrent⟩ := h
      exact ⟨hpending, current, hkept _ _ hcurrent⟩
  | fulfilled requestId row =>
      obtain ⟨hid, hfulfilled, current, hcurrent, hstatus⟩ := h
      exact ⟨hid, hfulfilled, current, hkept _ _ hcurrent, hstatus⟩
  | dismissed requestId =>
      obtain ⟨current, hcurrent, hstatus⟩ := h
      exact ⟨current, hkept _ _ hcurrent, hstatus⟩

theorem Agrees.insert (h : Agrees t under rows) {row : FileRequestRow}
    (hinsert : t.insertFileRequest row = some t') (hunder : .created row ∈ under) : Agrees t' under rows where
  once := h.once
  known := by
    intro r hr
    obtain ⟨hstatus, current, hcurrent, hcases⟩ := h.known r hr
    exact ⟨hstatus, current, (t.get_insert hinsert _ _).mpr (.inl hcurrent), hcases⟩
  present := by
    intro id current hcurrent hstatus
    rcases (t.get_insert hinsert id current).mp hcurrent with hold | ⟨rfl, rfl⟩
    · exact h.present id current hold hstatus
    · exact .inr ⟨current, rfl, hunder⟩

/-- One request is fulfilled or dismissed, and a dismissed one is not fulfilled. -/
structure Moves (t t' : FileRequestTable) (old new : FileRequestRow) : Prop where
  before : t.getFileRequest new.id = some old
  after : t'.getFileRequest new.id = some new
  others : ∀ id, id ≠ new.id → t'.getFileRequest id = t.getFileRequest id
  status : new.status = .fulfilled ∧ old.status ≠ .dismissed ∨ new.status = .dismissed

variable {old new : FileRequestRow}

theorem Moves.status_ne (h : Moves t t' old new) : new.status ≠ .pending := by
  rcases h.status with ⟨hnew, -⟩ | hnew <;> simp [hnew]

theorem Sent.moves (h : Sent t n) (hmoves : Moves t t' old new) : Sent t' n := by
  cases n with
  | created row =>
      obtain ⟨hpending, current, hcurrent⟩ := h
      refine ⟨hpending, ?_⟩
      by_cases heq : row.id = new.id
      · exact ⟨new, heq ▸ hmoves.after⟩
      · exact ⟨current, (hmoves.others _ heq).trans hcurrent⟩
  | fulfilled requestId row =>
      obtain ⟨hid, hfulfilled, current, hcurrent, hstatus⟩ := h
      refine ⟨hid, hfulfilled, ?_⟩
      by_cases heq : requestId = new.id
      · exact ⟨new, heq ▸ hmoves.after, hmoves.status_ne⟩
      · exact ⟨current, (hmoves.others _ heq).trans hcurrent, hstatus⟩
  | dismissed requestId =>
      obtain ⟨current, hcurrent, hstatus⟩ := h
      by_cases heq : requestId = new.id
      · refine ⟨new, heq ▸ hmoves.after, hmoves.status.resolve_left ?_⟩
        rintro ⟨-, hnot⟩
        rw [heq, hmoves.before] at hcurrent
        cases hcurrent
        exact hnot hstatus
      · exact ⟨current, (hmoves.others _ heq).trans hcurrent, hstatus⟩

theorem Agrees.moves (h : Agrees t under rows) (hmoves : Moves t t' old new)
    (hunder : ChangeUnderWay under new = true) : Agrees t' under rows where
  once := h.once
  known := by
    intro r hr
    obtain ⟨hstatus, current, hcurrent, hcases⟩ := h.known r hr
    refine ⟨hstatus, ?_⟩
    by_cases heq : r.id = new.id
    · refine ⟨new, heq ▸ hmoves.after, ?_⟩
      rw [heq, hmoves.before] at hcurrent
      cases hcurrent
      rcases hmoves.status with ⟨hnew, hold⟩ | hnew
      · simp only [ChangeUnderWay, hnew] at hunder
        rw [hnew, heq]
        cases hr : r.status with
        | pending => exact .inr (.inl ⟨rfl, rfl, hunder⟩)
        | fulfilled => exact .inl rfl
        | dismissed => exact absurd hr hstatus
      · simp only [ChangeUnderWay, hnew, decide_eq_true_eq] at hunder
        exact .inr (.inr ⟨hnew, heq ▸ hunder⟩)
    · exact ⟨current, (hmoves.others _ heq).trans hcurrent, hcases⟩
  present := by
    intro id current hcurrent hstatus
    by_cases heq : id = new.id
    · subst heq
      rw [hmoves.after] at hcurrent
      cases hcurrent
      refine h.present new.id old hmoves.before ?_
      exact (hmoves.status.resolve_right hstatus).2
    · rw [hmoves.others id heq] at hcurrent
      exact h.present id current hcurrent hstatus

theorem moves_fulfil {f : Fulfilment} {now : String} {row : FileRequestRow}
    (h : t.updateFileRequest f.requestId (some .fulfilled) (some f.byDeviceName) (some f.fileName)
      (some f.filePath) (some now) = some (row, t'))
    (hcond : (t.getFileRequest f.requestId).all (fun row => row.status ≠ .dismissed) = true) :
    row.id = f.requestId ∧ ∃ old, Moves t t' old row ∧ row.status = .fulfilled := by
  obtain ⟨old, hold, heq⟩ := Option.map_eq_some_iff.mp h
  cases heq
  have hid : old.id = f.requestId := ((t.get_eq_some_iff _ _).mp hold).2
  refine ⟨hid, old, ⟨?_, ?_, ?_, ?_⟩, rfl⟩
  · exact (congrArg t.getFileRequest hid).trans hold
  · refine (congrArg _ hid).trans ?_
    rw [FileRequestTable.get_update, if_pos rfl, hold]
    rfl
  · intro id hne
    have hne : id ≠ f.requestId := fun heq => hne (heq.trans hid.symm)
    rw [FileRequestTable.get_update, if_neg hne]
  · rw [hold] at hcond
    exact .inl ⟨rfl, by simpa using hcond⟩

theorem moves_dismiss {requestId : String} (h : t.dismissFileRequest requestId = some t') :
    ∃ old new, Moves t t' old new ∧ new.id = requestId ∧ new.status = .dismissed := by
  obtain ⟨old, hold, rfl⟩ := Option.map_eq_some_iff.mp h
  have hid : old.id = requestId := ((t.get_eq_some_iff _ _).mp hold).2
  refine ⟨old, { old with status := .dismissed }, ⟨?_, ?_, ?_, .inr rfl⟩, hid, rfl⟩
  · exact (congrArg t.getFileRequest hid).trans hold
  · refine (congrArg _ hid).trans ?_
    rw [FileRequestTable.get_update, if_pos rfl, hold]
    rfl
  · intro id hne
    have hne : id ≠ requestId := fun heq => hne (heq.trans hid.symm)
    rw [FileRequestTable.get_update, if_neg hne]

/-- What the list of the hook is, or will be when the response of the fetch arrives. -/
def view (s : RequestListSystem) : Option (List FileRequestRow) :=
  match s.fetch with
  | .asked => none
  | .answered rows => some rows
  | .fetched => some s.requests

structure Inv (s : RequestListSystem) : Prop where
  sent : ∀ n ∈ s.underWay deviceId, Sent s.table n
  agrees : ∀ rows, s.view = some rows → Agrees s.table (s.underWay deviceId) rows
  inserting : ∀ call ∈ s.calls, ∀ row, call.2 = .insert row → row.status = .pending

variable {deviceId}

theorem mem_underWay (s : RequestListSystem) (n : RequestNotice) :
    n ∈ s.underWay deviceId ↔ n ∈ s.socket ∨ ∃ call ∈ s.calls, n ∈ notices deviceId call := by
  rw [underWay, List.mem_append, List.mem_flatMap]

theorem inv_start (t : FileRequestTable) : Inv deviceId (start t) where
  sent := by simp [start, underWay]
  agrees := by simp [start, view]
  inserting := by simp [start]

theorem mem_notices_inserted (fromHook : Bool) (row : FileRequestRow) (n : RequestNotice) :
    n ∈ notices deviceId (fromHook, .inserted row) ↔
      (fromHook = true ∨ row.requesterDeviceId ≠ deviceId) ∧ n = .created row := by
  simp only [notices]
  split
  · rename_i hknown
    simp [hknown]
  · rename_i hunknown
    simp [hunknown]

theorem mem_notices_answer (fromHook : Bool) (notice n : RequestNotice) :
    n ∈ notices deviceId (fromHook, .answer notice) ↔ fromHook = true ∧ n = notice := by
  cases fromHook <;> simp [notices]

theorem underWay_set {s t : RequestListSystem} {i : Nat} {call call' : Bool × FileRequestPc}
    {sent : List RequestNotice} (hi : s.calls[i]? = some call) (hcalls : t.calls = s.calls.set i call')
    (hsocket : t.socket = s.socket ++ sent) (n : RequestNotice) :
    (n ∈ s.underWay deviceId → n ∈ notices deviceId call ∨ n ∈ t.underWay deviceId) ∧
      (n ∈ t.underWay deviceId → n ∈ s.underWay deviceId ∨ n ∈ sent ∨ n ∈ notices deviceId call') ∧
      (n ∈ sent ∨ n ∈ notices deviceId call' → n ∈ t.underWay deviceId) := by
  have hlt := (List.getElem?_eq_some_iff.mp hi).1
  simp only [mem_underWay, hcalls, hsocket, List.mem_append]
  refine ⟨?_, ?_, ?_⟩
  · rintro (hold | ⟨other, hother, hn⟩)
    · exact .inr (.inl (.inl hold))
    · obtain ⟨j, hj⟩ := List.mem_iff_getElem?.mp hother
      by_cases hij : i = j
      · subst hij
        rw [hi] at hj
        cases hj
        exact .inl hn
      · refine .inr (.inr ⟨other, List.mem_iff_getElem?.mpr ⟨j, ?_⟩, hn⟩)
        rw [List.getElem?_set_ne hij]
        exact hj
  · rintro ((hold | hsent) | ⟨other, hother, hn⟩)
    · exact .inl (.inl hold)
    · exact .inr (.inl hsent)
    · rcases List.mem_or_eq_of_mem_set hother with hold | rfl
      · exact .inl (.inr ⟨other, hold, hn⟩)
      · exact .inr (.inr hn)
  · rintro (hsent | hn)
    · exact .inl (.inr hsent)
    · exact .inr ⟨call', List.mem_set hlt call', hn⟩

/-- The route is at its insert. -/
def atInsert : FileRequestPc → Bool
  | .insert _ => true
  | _ => false

theorem ne_insert {pc : FileRequestPc} (h : atInsert pc = false) (row : FileRequestRow) : pc ≠ .insert row := by
  rintro rfl
  cases h

theorem inserting_set {s : RequestListSystem} (h : s.Inv deviceId) (i : Nat) (call' : Bool × FileRequestPc)
    (hinsert : atInsert call'.2 = false) :
    ∀ call ∈ s.calls.set i call', ∀ row, call.2 = .insert row → row.status = .pending := by
  intro call hmem row hrow
  rcases List.mem_or_eq_of_mem_set hmem with hold | rfl
  · exact h.inserting call hold row hrow
  · exact absurd hrow (ne_insert hinsert row)

theorem inv_quiet {s t : RequestListSystem} (h : s.Inv deviceId) (sent : List RequestNotice) {i : Nat}
    {call call' : Bool × FileRequestPc} (hi : s.calls[i]? = some call) (hcalls : t.calls = s.calls.set i call')
    (hsocket : t.socket = s.socket ++ sent) (htable : t.table = s.table) (hview : t.view = s.view)
    (hkept : ∀ n ∈ notices deviceId call, n ∈ sent ∨ n ∈ notices deviceId call')
    (hold : ∀ n, n ∈ sent ∨ n ∈ notices deviceId call' → n ∈ notices deviceId call)
    (hinsert : atInsert call'.2 = false) : t.Inv deviceId := by
  have hcall : ∀ n ∈ notices deviceId call, n ∈ s.underWay deviceId := fun n hn =>
    (s.mem_underWay n).mpr (.inr ⟨call, List.mem_of_getElem? hi, hn⟩)
  have hback : ∀ n ∈ s.underWay deviceId, n ∈ t.underWay deviceId := by
    intro n hn
    rcases (underWay_set hi hcalls hsocket n).1 hn with hmoved | hthere
    · exact (underWay_set hi hcalls hsocket n).2.2 (hkept n hmoved)
    · exact hthere
  refine ⟨?_, ?_, ?_⟩
  · intro n hn
    rw [htable]
    rcases (underWay_set hi hcalls hsocket n).2.1 hn with hthere | hnew
    · exact h.sent n hthere
    · exact h.sent n (hcall n (hold n hnew))
  · intro rows hrows
    rw [hview] at hrows
    rw [htable]
    exact (h.agrees rows hrows).mono hback
  · rw [hcalls]
    exact inserting_set h i call' hinsert

theorem inv_moves {s t : RequestListSystem} (h : s.Inv deviceId) {i : Nat} {call call' : Bool × FileRequestPc}
    (hi : s.calls[i]? = some call) (hcalls : t.calls = s.calls.set i call') (hsocket : t.socket = s.socket)
    (hview : t.view = s.view) {old new : FileRequestRow} (hmoves : Moves s.table t.table old new)
    (hcall : notices deviceId call = []) (notice : RequestNotice) (hcall' : notices deviceId call' = [notice])
    (hsent : Sent t.table notice) (hunder : ChangeUnderWay [notice] new = true)
    (hinsert : atInsert call'.2 = false) : t.Inv deviceId := by
  have hsocket : t.socket = s.socket ++ [] := by rw [hsocket, List.append_nil]
  have hback : ∀ n ∈ s.underWay deviceId, n ∈ t.underWay deviceId := by
    intro n hn
    exact ((underWay_set hi hcalls hsocket n).1 hn).resolve_left (by simp [hcall])
  have hnotice : notice ∈ t.underWay deviceId :=
    (underWay_set hi hcalls hsocket notice).2.2 (.inr (by simp [hcall']))
  refine ⟨?_, ?_, ?_⟩
  · intro n hn
    rcases (underWay_set hi hcalls hsocket n).2.1 hn with hthere | hnew | hnew
    · exact (h.sent n hthere).moves hmoves
    · cases hnew
    · rw [hcall', List.mem_singleton] at hnew
      rw [hnew]
      exact hsent
  · intro rows hrows
    rw [hview] at hrows
    refine ((h.agrees rows hrows).mono hback).moves hmoves ?_
    unfold ChangeUnderWay at hunder ⊢
    cases hstatus : new.status with
    | pending => rfl
    | fulfilled =>
        simp only [hstatus, List.any_cons, List.any_nil, Bool.or_false] at hunder
        exact List.any_eq_true.mpr ⟨notice, hnotice, hunder⟩
    | dismissed =>
        simp only [hstatus, List.mem_singleton, decide_eq_true_eq] at hunder
        simpa [hunder] using hnotice
  · rw [hcalls]
    exact inserting_set h i call' hinsert

theorem inv_insert {s t : RequestListSystem} (h : s.Inv deviceId) {i : Nat} {fromHook : Bool}
    {row : FileRequestRow} (hi : s.calls[i]? = some (fromHook, .insert row))
    (hcalls : t.calls = s.calls.set i (fromHook, .inserted row)) (hsocket : t.socket = s.socket)
    (hview : t.view = s.view) (hinsert : s.table.insertFileRequest row = some t.table)
    (hcond : fromHook = true ∨ row.requesterDeviceId ≠ deviceId ∨ s.view = none) : t.Inv deviceId := by
  have hsocket : t.socket = s.socket ++ [] := by rw [hsocket, List.append_nil]
  have hpending : row.status = .pending := h.inserting _ (List.mem_of_getElem? hi) row rfl
  have hback : ∀ n ∈ s.underWay deviceId, n ∈ t.underWay deviceId := by
    intro n hn
    exact ((underWay_set hi hcalls hsocket n).1 hn).resolve_left (by simp [notices])
  refine ⟨?_, ?_, ?_⟩
  · intro n hn
    rcases (underWay_set hi hcalls hsocket n).2.1 hn with hthere | hnew | hnew
    · exact (h.sent n hthere).insert hinsert
    · cases hnew
    · rw [((mem_notices_inserted fromHook row n).mp hnew).2]
      exact ⟨hpending, row, (s.table.get_insert hinsert _ _).mpr (.inr ⟨rfl, rfl⟩)⟩
  · intro rows hrows
    rw [hview] at hrows
    refine ((h.agrees rows hrows).mono hback).insert hinsert ?_
    refine (underWay_set hi hcalls hsocket _).2.2 (.inr ?_)
    refine (mem_notices_inserted fromHook row _).mpr ⟨?_, rfl⟩
    rcases hcond with hown | hother | hnone
    · exact .inl hown
    · exact .inr hother
    · rw [hrows] at hnone
      cases hnone
  · rw [hcalls]
    exact inserting_set h i _ rfl

theorem inv_apply {s t : RequestListSystem} (h : s.Inv deviceId) (notice : RequestNotice)
    (hnotice : notice ∈ s.underWay deviceId) (hintime : s.InTime deviceId notice = true)
    (htable : t.table = s.table) (hfetch : t.fetch = s.fetch) (hrequests : t.requests = notice.apply s.requests)
    (hfewer : ∀ n ∈ t.underWay deviceId, n ∈ s.underWay deviceId)
    (hrest : ∀ n ∈ s.underWay deviceId, n = notice ∨ n ∈ t.underWay deviceId)
    (hinsert : ∀ call ∈ t.calls, ∀ row, call.2 = .insert row → row.status = .pending) : t.Inv deviceId := by
  refine ⟨?_, ?_, hinsert⟩
  · intro n hn
    rw [htable]
    exact h.sent n (hfewer n hn)
  · intro rows hrows
    rw [htable]
    unfold view at hrows
    rw [hfetch] at hrows
    cases hs : s.fetch with
    | asked => simp [hs] at hrows
    | answered rows' =>
        simp only [hs, Option.some.injEq] at hrows
        subst hrows
        have hold := h.agrees rows' (by simp [view, hs])
        exact hold.drop notice (by simpa [InTime, hs] using hintime) hrest
    | fetched =>
        simp only [hs, hrequests, Option.some.injEq] at hrows
        subst hrows
        have hold := h.agrees s.requests (by simp [view, hs])
        have hsent := h.sent notice hnotice
        refine Agrees.drop ?_ notice (told_apply s.table s.requests notice hsent) hrest
        cases notice with
        | created row =>
            simp only [InTime, hs, decide_eq_true_eq] at hintime
            exact hold.applyCreated row hsent hintime.1 hintime.2
        | fulfilled requestId row => exact hold.applyFulfilled requestId row hsent
        | dismissed requestId => exact hold.applyDismissed requestId hsent

theorem notices_entry (fromHook : Bool) (request : FileRequestHttp) (requestId now : String) :
    notices deviceId (fromHook, request.entry requestId now) = [] := by
  cases request with
  | create description device deviceName =>
      simp only [FileRequestHttp.entry]
      split <;> rfl
  | fulfill _ _ => rfl
  | dismiss _ _ => rfl

theorem entry_insert {request : FileRequestHttp} {requestId now : String} {row : FileRequestRow}
    (h : request.entry requestId now = .insert row) : row.status = .pending := by
  cases request with
  | create description device deviceName =>
      simp only [FileRequestHttp.entry, createRequest] at h
      split at h
      · rename_i hrow
        cases h
        simp only [Option.ite_none_left_eq_some, Option.some.injEq] at hrow
        rw [← hrow.2]
      · cases h
  | fulfill _ _ => cases h
  | dismiss _ _ => cases h

theorem inv_enter {s : RequestListSystem} (h : s.Inv deviceId) (fromHook : Bool) (request : FileRequestHttp)
    (requestId now : String) :
    Inv deviceId { s with calls := s.calls ++ [(fromHook, request.entry requestId now)] } := by
  have hsame : ∀ n, n ∈ underWay deviceId
      { s with calls := s.calls ++ [(fromHook, request.entry requestId now)] } ↔ n ∈ s.underWay deviceId := by
    intro n
    simp [underWay, notices_entry]
  refine ⟨fun n hn => h.sent n ((hsame n).mp hn), ?_, ?_⟩
  · intro rows hrows
    exact (h.agrees rows hrows).mono fun n hn => (hsame n).mpr hn
  · intro call hcall row hrow
    rcases List.mem_append.mp hcall with hold | hnew
    · exact h.inserting call hold row hrow
    · rw [List.mem_singleton.mp hnew] at hrow
      exact @entry_insert request requestId now row hrow

theorem inv_service {s : RequestListSystem} (h : s.Inv deviceId) {i : Nat} {fromHook : Bool}
    {pc pc' : RequestCallPc} {table : FileRequestTable} {now : String}
    (hi : s.calls[i]? = some (fromHook, .service pc)) (hresume : pc.resume s.table now = some (table, pc'))
    (hcond : s.Ordered deviceId (.resume i now) = true) :
    Inv deviceId { s with table := table, calls := s.calls.set i (fromHook, .service pc') } := by
  have hquiet : table = s.table → notices deviceId (fromHook, .service pc) = [] →
      notices deviceId (fromHook, .service pc') = [] →
      Inv deviceId { s with table := table, calls := s.calls.set i (fromHook, .service pc') } := by
    intro htable hbefore hafter
    refine inv_quiet h [] hi rfl (List.append_nil _).symm htable rfl ?_ ?_ rfl
    · simp [hbefore]
    · simp [hafter]
  cases pc with
  | fulfillGet f =>
      simp only [RequestCallPc.resume] at hresume
      split at hresume
      · cases hresume
        exact hquiet rfl rfl rfl
      · split at hresume
        · cases hresume
          exact hquiet rfl rfl rfl
        · cases hresume
          exact hquiet rfl rfl rfl
  | fulfillUpdate f fulfilledAt =>
      simp only [RequestCallPc.resume] at hresume
      split at hresume
      · cases hresume
        exact hquiet rfl rfl rfl
      · rename_i row table' hupdate
        cases hresume
        simp only [Ordered, hi] at hcond
        obtain ⟨hid, old, hmoves, hfulfilled⟩ := moves_fulfil hupdate hcond
        refine inv_moves h hi rfl rfl rfl hmoves rfl (.fulfilled f.requestId row) rfl ?_ ?_ rfl
        · exact ⟨hid, hfulfilled, row, hid ▸ hmoves.after, hmoves.status_ne⟩
        · simp [ChangeUnderWay, hfulfilled, RequestNotice.fulfils, hid]
  | dismissGet requestId callerDeviceId =>
      simp only [RequestCallPc.resume] at hresume
      split at hresume
      · cases hresume
        exact hquiet rfl rfl rfl
      · split at hresume
        · cases hresume
          exact hquiet rfl rfl rfl
        · cases hresume
          exact hquiet rfl rfl rfl
  | dismissUpdate requestId =>
      simp only [RequestCallPc.resume] at hresume
      split at hresume
      · cases hresume
        exact hquiet rfl rfl rfl
      · rename_i table' hdismiss
        cases hresume
        obtain ⟨old, new, hmoves, rfl, hdismissed⟩ := moves_dismiss hdismiss
        refine inv_moves h hi rfl rfl rfl hmoves rfl (.dismissed new.id) rfl ?_ ?_ rfl
        · exact ⟨new, hmoves.after, hdismissed⟩
        · simp [ChangeUnderWay, hdismissed]
  | fulfilled f row => cases hresume
  | dismissed requestId => cases hresume
  | raised e => cases hresume

theorem resume_service {table : FileRequestTable} {pc : RequestCallPc} {pc' : FileRequestPc} {now : String}
    {sent : List RequestNotice} (h : FileRequestPc.resume deviceId t now (.service pc) = some (table, sent, pc')) :
    (∃ next, pc.resume t now = some (table, next) ∧ sent = [] ∧ pc' = .service next) ∨
      (∃ f row, pc = .fulfilled f row ∧ table = t ∧ sent = [.fulfilled row.id row] ∧
        pc' = .answer (.fulfilled f.requestId row)) ∨
      (∃ requestId, pc = .dismissed requestId ∧ table = t ∧ sent = [.dismissed requestId] ∧
        pc' = .answer (.dismissed requestId)) ∨
      ∃ e, pc = .raised e ∧ table = t ∧ sent = [] ∧ pc' = .ended := by
  have hgoes : FileRequestPc.resume deviceId t now (.service pc) =
      (pc.resume t now).map (fun (t', pc') => (t', [], .service pc')) →
      ∃ next, pc.resume t now = some (table, next) ∧ sent = [] ∧ pc' = .service next := by
    intro heq
    rw [heq] at h
    obtain ⟨⟨table', next⟩, hnext, heq⟩ := Option.map_eq_some_iff.mp h
    cases heq
    exact ⟨next, hnext, rfl, rfl⟩
  cases pc with
  | fulfilled f row =>
      cases h
      exact .inr (.inl ⟨f, row, rfl, rfl, rfl, rfl⟩)
  | dismissed requestId =>
      cases h
      exact .inr (.inr (.inl ⟨requestId, rfl, rfl, rfl, rfl⟩))
  | raised e =>
      cases h
      exact .inr (.inr (.inr ⟨e, rfl, rfl, rfl, rfl⟩))
  | _ => exact .inl (hgoes rfl)

theorem inv_resume {s : RequestListSystem} (h : s.Inv deviceId) {i : Nat} {fromHook : Bool}
    {pc pc' : FileRequestPc} {table : FileRequestTable} {sent : List RequestNotice} {now : String}
    (hi : s.calls[i]? = some (fromHook, pc))
    (hresume : pc.resume deviceId s.table now = some (table, sent, pc'))
    (hcond : s.Ordered deviceId (.resume i now) = true) :
    Inv deviceId { s with table := table, socket := s.socket ++ sent, calls := s.calls.set i (fromHook, pc') } := by
  cases pc with
  | insert row =>
      simp only [FileRequestPc.resume] at hresume
      split at hresume
      · rename_i table' hinsert
        cases hresume
        refine inv_insert h hi rfl (List.append_nil _) rfl hinsert ?_
        simp only [Ordered, hi, decide_eq_true_eq] at hcond
        rcases hcond with hown | hother | hasked
        · exact .inl hown
        · exact .inr (.inl hother)
        · exact .inr (.inr (by simp [view, hasked]))
      · cases hresume
        exact inv_quiet h _ hi rfl rfl rfl rfl (by simp [notices]) (by simp [notices]) rfl
  | inserted row =>
      simp only [FileRequestPc.resume, Option.some.injEq, Prod.mk.injEq] at hresume
      obtain ⟨rfl, rfl, rfl⟩ := hresume
      refine inv_quiet h _ hi rfl rfl rfl rfl ?_ ?_ rfl
      · intro n hn
        obtain ⟨hknown, rfl⟩ := (mem_notices_inserted fromHook row n).mp hn
        rcases hknown with hown | hother
        · exact .inr ((mem_notices_answer fromHook _ _).mpr ⟨hown, rfl⟩)
        · exact .inl (by simp [hother])
      · rintro n (hn | hn)
        · split at hn
          · cases hn
          · rename_i hother
            exact (mem_notices_inserted fromHook row n).mpr ⟨.inr hother, List.mem_singleton.mp hn⟩
        · obtain ⟨hown, rfl⟩ := (mem_notices_answer fromHook _ n).mp hn
          exact (mem_notices_inserted fromHook row _).mpr ⟨.inl hown, rfl⟩
  | upload requestId deviceName => cases hresume
  | service pc =>
      rcases resume_service hresume with ⟨next, hnext, rfl, rfl⟩ | ⟨f, row, rfl, rfl, rfl, rfl⟩ |
        ⟨requestId, rfl, rfl, rfl, rfl⟩ | ⟨e, rfl, rfl, rfl, rfl⟩
      · rw [List.append_nil]
        exact inv_service h hi hnext hcond
      · -- the message and the response name the request by the id of the row
        have hunder : .fulfilled f.requestId row ∈ s.underWay deviceId :=
          (s.mem_underWay _).mpr (.inr ⟨_, List.mem_of_getElem? hi, List.mem_singleton_self _⟩)
        have hid : row.id = f.requestId := (h.sent _ hunder).1
        refine inv_quiet h _ hi rfl rfl rfl rfl ?_ ?_ rfl
        · intro n hn
          rw [List.mem_singleton.mp hn, hid]
          exact .inl (List.mem_singleton_self _)
        · rintro n (hn | hn)
          · rw [List.mem_singleton.mp hn, hid]
            exact List.mem_singleton_self _
          · rw [((mem_notices_answer fromHook _ n).mp hn).2]
            exact List.mem_singleton_self _
      · refine inv_quiet h _ hi rfl rfl rfl rfl ?_ ?_ rfl
        · intro n hn
          exact .inl hn
        · rintro n (hn | hn)
          · exact hn
          · rw [((mem_notices_answer fromHook _ n).mp hn).2]
            exact List.mem_singleton_self _
      · exact inv_quiet h _ hi rfl rfl rfl rfl (by simp [notices]) (by simp [notices]) rfl
  | answer notice => cases hresume
  | ended => cases hresume

theorem inv_uploaded {s : RequestListSystem} (h : s.Inv deviceId) {i : Nat} {fromHook : Bool}
    {pc pc' : FileRequestPc} {name : Option String} (hi : s.calls[i]? = some (fromHook, pc))
    (huploaded : pc.uploaded name = some pc') : Inv deviceId { s with calls := s.calls.set i (fromHook, pc') } := by
  cases pc with
  | upload requestId deviceName =>
      cases name <;> cases huploaded <;>
        exact inv_quiet h [] hi rfl (List.append_nil _).symm rfl rfl (by simp [notices])
          (by simp [notices, RequestCall.entry]) rfl
  | _ => cases huploaded

theorem inv_receive {s : RequestListSystem} (h : s.Inv deviceId) {notice : RequestNotice}
    {socket : List RequestNotice} (hsocket : s.socket = notice :: socket)
    (hcond : s.Ordered deviceId .receive = true) :
    Inv deviceId { s with socket := socket, requests := notice.apply s.requests } := by
  have hintime : s.InTime deviceId notice = true := by simpa [Ordered, hsocket] using hcond
  refine inv_apply h notice ?_ hintime rfl rfl rfl ?_ ?_ h.inserting
  · simp [underWay, hsocket]
  · intro n hn
    simp only [underWay, hsocket, List.cons_append]
    exact List.mem_cons_of_mem _ hn
  · intro n hn
    simpa only [underWay, hsocket, List.cons_append, List.mem_cons] using hn

theorem inv_answered {s t : RequestListSystem} (h : s.Inv deviceId) (i : Nat)
    (hstep : s.step deviceId (.answered i) = some t) (hcond : s.Ordered deviceId (.answered i) = true) :
    t.Inv deviceId := by
  simp only [step] at hstep
  split at hstep
  · rename_i notice hi
    cases hstep
    have hmoved := @underWay_set deviceId s
      { s with calls := s.calls.set i (true, .ended), requests := notice.apply s.requests } i _ _ [] hi rfl
      (List.append_nil _).symm
    refine inv_apply h notice ?_ (by simpa [Ordered, hi] using hcond) rfl rfl rfl ?_ ?_ ?_
    · exact (s.mem_underWay _).mpr (.inr ⟨_, List.mem_of_getElem? hi, List.mem_singleton_self _⟩)
    · intro n hn
      exact ((hmoved n).2.1 hn).resolve_right (by simp [notices])
    · intro n hn
      exact ((hmoved n).1 hn).imp_left List.mem_singleton.mp
    · exact inserting_set h i _ rfl
  · rename_i notice hi
    cases hstep
    exact inv_quiet h [] hi rfl (List.append_nil _).symm rfl rfl (by simp [notices])
      (by simp [notices]) rfl
  · cases hstep

theorem inv_step (s : RequestListSystem) (e : RequestListEvent) (t : RequestListSystem) (hs : s.Inv deviceId)
    (hcond : s.Ordered deviceId e = true) (h : s.step deviceId e = some t) : t.Inv deviceId := by
  cases e with
  | list =>
      simp only [step, Option.ite_none_right_eq_some, Option.some.injEq] at h
      obtain ⟨-, rfl⟩ := h
      refine ⟨hs.sent, ?_, hs.inserting⟩
      intro rows hrows
      cases hrows
      exact agrees_listFileRequests _ _
  | fetched =>
      simp only [step] at h
      split at h
      · rename_i rows hfetch
        cases h
        refine ⟨hs.sent, ?_, hs.inserting⟩
        intro rows' hrows
        cases hrows
        exact hs.agrees rows (by simp [view, hfetch])
      · cases h
  | receive =>
      simp only [step] at h
      split at h
      · rename_i notice socket hsocket
        cases h
        exact inv_receive hs hsocket hcond
      · cases h
  | start fromHook request requestId now =>
      simp only [step, Option.ite_none_right_eq_some, Option.some.injEq] at h
      obtain ⟨-, rfl⟩ := h
      exact inv_enter hs fromHook request requestId now
  | uploaded i name =>
      simp only [step, Option.bind_eq_bind, Option.bind_eq_some_iff] at h
      obtain ⟨⟨fromHook, pc⟩, hi, pc', huploaded, heq⟩ := h
      cases heq
      exact inv_uploaded hs hi huploaded
  | resume i now =>
      simp only [step, Option.bind_eq_bind, Option.bind_eq_some_iff] at h
      obtain ⟨⟨fromHook, pc⟩, hi, ⟨table, sent, pc'⟩, hresume, heq⟩ := h
      cases heq
      exact inv_resume hs hi hresume hcond
  | answered i => exact inv_answered hs i h hcond

theorem Inv.exact {s : RequestListSystem} (h : s.Inv deviceId) (hsettled : s.Settled) : s.Exact := by
  obtain ⟨hsocket, hfetch, hcalls⟩ := hsettled
  have hunder : s.underWay deviceId = [] := by
    rw [underWay, hsocket, List.nil_append, List.flatMap_eq_nil_iff]
    intro call hcall
    obtain ⟨fromHook, pc⟩ := call
    have hended : pc = .ended := hcalls _ hcall
    rw [hended]
    rfl
  have hagrees := h.agrees s.requests (by simp [view, hfetch])
  rw [hunder] at hagrees
  have hknown : ∀ r ∈ s.requests, r.status ≠ .dismissed ∧
      ∃ current, s.table.getFileRequest r.id = some current ∧ r.status = current.status := by
    intro r hr
    obtain ⟨hstatus, current, hcurrent, hsame | ⟨-, -, hany⟩ | ⟨-, hmem⟩⟩ := hagrees.known r hr
    · exact ⟨hstatus, current, hcurrent, hsame⟩
    · cases hany
    · cases hmem
  refine ⟨hagrees.once.sublist (List.filter_sublist.map _), ?_⟩
  intro id status
  constructor
  · rintro ⟨r, hr, rfl, rfl⟩
    obtain ⟨hstatus, current, hcurrent, hsame⟩ := hknown r (List.mem_of_mem_filter hr)
    exact ⟨hstatus, current, hcurrent, hsame.symm⟩
  · rintro ⟨hstatus, row, hrow, rfl⟩
    obtain hin | ⟨created, -, hcreated⟩ := hagrees.present id row hrow hstatus
    · obtain ⟨r, hr, rfl⟩ := List.mem_map.mp hin
      obtain ⟨hnot, current, hcurrent, hsame⟩ := hknown r hr
      rw [hrow] at hcurrent
      cases hcurrent
      exact ⟨r, List.mem_filter.mpr ⟨hr, by simpa using hnot⟩, rfl, hsame⟩
    · cases hcreated

/-- In a run whose messages are handled in time, the hook shows the requests of the server whenever
nothing is in flight. -/
theorem exact_of_ordered (deviceId : String) (t : FileRequestTable) (events : List RequestListEvent)
    (hordered : Guarded (step deviceId) (fun s e => s.Ordered deviceId e = true) (start t) events) :
    Throughout (step deviceId) (fun s => s.Settled → s.Exact) (start t) events :=
  throughout_of_guarded (step deviceId) (fun s e => s.Ordered deviceId e = true) (Inv deviceId)
    (fun s => s.Settled → s.Exact) (fun _ hs hsettled => hs.exact hsettled) inv_step (inv_start t) hordered

def noRequests : FileRequestTable := ⟨[], List.nodup_nil⟩

def bearAsks : FileRequestHttp := .create " slides" "dev-2" "Bear"

def bearsRow : FileRequestRow := ⟨"r1", "slides", "dev-2", "Bear", .pending, "t1", none, none, none, none⟩

/-- Bear asks for a file after the hook has its list, and the hook's device sends it. -/
def fulfilsOne : List RequestListEvent :=
  [.list, .fetched, .start false bearAsks "r1" "t1", .resume 0 "t1", .resume 0 "t1", .receive,
    .start true (.fulfill "r1" "Fox") "" "", .uploaded 1 (some "slides.pdf"), .resume 1 "t2", .resume 1 "t2",
    .resume 1 "t2", .receive, .answered 1, .answered 0]

theorem exact_of_ordered_fulfilsOne :
    Throughout (step "dev-1") (fun s => s.Settled → s.Exact) (start noRequests) fulfilsOne :=
  exact_of_ordered "dev-1" noRequests fulfilsOne (by decide +kernel)

/-- Bear asks when the response of the fetch is under way: its message comes first, and the response
takes the request off the list. -/
def losesOne : List RequestListEvent :=
  [.list, .start false bearAsks "r1" "t1", .resume 0 "t1", .resume 0 "t1", .answered 0, .receive, .fetched]

theorem not_exact_losesOne :
    ¬∀ (deviceId : String) (t : FileRequestTable) (events : List RequestListEvent) (u : RequestListSystem),
      run (step deviceId) (start t) events = some u → u.Settled → u.Exact := by
  intro h
  have hlast : (run (step "dev-1") (start noRequests) losesOne).any (fun u => u.requests = [] ∧ u.socket = [] ∧
      u.fetch = .fetched ∧ u.calls = [(false, .ended)] ∧ u.table.rows = [bearsRow]) = true := by
    decide +kernel
  obtain ⟨u, hrun, hu⟩ := (Option.any_eq_true _ _).mp hlast
  obtain ⟨hrequests, hsocket, hfetch, hcalls, hrows⟩ := decide_eq_true_eq.mp hu
  have hexact := h "dev-1" noRequests losesOne u hrun ⟨hsocket, hfetch, by simp [hcalls]⟩
  have hstored : u.table.getFileRequest "r1" = some bearsRow :=
    (u.table.get_eq_some_iff "r1" bearsRow).mpr ⟨by simp [hrows], rfl⟩
  obtain ⟨r, hr, -⟩ := (hexact.current "r1" .pending).mpr ⟨by decide, bearsRow, hstored, rfl⟩
  simp [shown, hrequests] at hr

end RequestListSystem

end NetworkFileServer.Client
