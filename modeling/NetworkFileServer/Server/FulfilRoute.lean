import NetworkFileServer.Server.FileRequests
import NetworkFileServer.Server.UploadFrame

/-!
# The fulfil route

`fulfill_file_request` of `file_requests.py`, served alone: the uploaded file goes to the root of the shared
folder first, and the request is looked up afterwards.
-/

namespace NetworkFileServer.Server

open FileService (Disk FileError Upload UploadResult uploadFile validateUploadFilename)

/-- `fulfill_request`, with nobody between its two store calls. -/
def fulfillRequest (t : FileRequestTable) (now : String) (f : Fulfilment) :
    Except RequestError (FileRequestRow × FileRequestTable) :=
  match t.getFileRequest f.requestId with
  | none => .error (notFound f.requestId)
  | some current =>
      if current.status ≠ .pending then
        .error (.value ("Can only fulfill PENDING requests, got " ++ current.status.value))
      else
        match t.updateFileRequest f.requestId (some .fulfilled) (some f.byDeviceName) (some f.fileName)
            (some f.filePath) (some now) with
        | none => .error (notFound f.requestId)
        | some updated => .ok updated

/-- Where the store calls of `fulfill_request` end. -/
def fulfilEnd (t : FileRequestTable) (f : Fulfilment) :
    Except RequestError (FileRequestRow × FileRequestTable) → FileRequestTable × RequestCallPc
  | .ok (row, t') => (t', .fulfilled f row)
  | .error e => (t, .raised e)

theorem fulfillRequest_resume (t : FileRequestTable) (now : String) (f : Fulfilment) :
    (RequestCallPc.fulfillGet f).resume t now = some (fulfilEnd t f (fulfillRequest t now f)) ∨
      (RequestCallPc.fulfillGet f).resume t now = some (t, .fulfillUpdate f now) ∧
        (RequestCallPc.fulfillUpdate f now).resume t now = some (fulfilEnd t f (fulfillRequest t now f)) := by
  unfold fulfillRequest
  cases hget : t.getFileRequest f.requestId with
  | none => exact .inl (by simp [RequestCallPc.resume, hget, fulfilEnd])
  | some current =>
      by_cases hstatus : current.status = .pending
      · right
        constructor
        · simp [RequestCallPc.resume, hget, hstatus]
        · simp only [RequestCallPc.resume, hstatus, ne_eq, not_true_eq_false, if_false]
          cases t.updateFileRequest f.requestId (some .fulfilled) (some f.byDeviceName) (some f.fileName)
            (some f.filePath) (some now) with
          | none => rfl
          | some updated => rfl
      · exact .inl (by simp [RequestCallPc.resume, hget, hstatus, fulfilEnd])

/-- The request is in the table and waits. -/
def PendingIn (t : FileRequestTable) (requestId : String) : Prop :=
  ∃ row, t.getFileRequest requestId = some row ∧ row.status = .pending

theorem fulfillRequest_isOk (t : FileRequestTable) (now : String) (f : Fulfilment) :
    (fulfillRequest t now f).isOk = true ↔ PendingIn t f.requestId := by
  unfold fulfillRequest PendingIn
  cases hget : t.getFileRequest f.requestId with
  | none => simp [Except.isOk, Except.toBool]
  | some current =>
      by_cases hstatus : current.status = .pending
      · have hupdate : t.updateFileRequest f.requestId (some .fulfilled) (some f.byDeviceName) (some f.fileName)
            (some f.filePath) (some now) ≠ none := by
          simp [FileRequestTable.updateFileRequest, hget]
        obtain ⟨updated, hupdated⟩ := Option.ne_none_iff_exists'.mp hupdate
        simp [hstatus, hupdated, Except.isOk, Except.toBool]
      · simp [hstatus, Except.isOk, Except.toBool]

/-- The shared folder and the table of the server. -/
structure ShareState (α : Type) where
  fs : FileSystem α
  table : FileRequestTable

inductive RouteError where
  | file (e : FileError)
  | request (e : RequestError)
deriving DecidableEq, Repr

section Route

variable {α : Type} (disk : Disk α)

def fulfillFileRequest (sharedFolder : List String) (requestId deviceName : String) (file : Upload α)
    (now : String) (s : ShareState α) : Except RouteError FileRequestRow × ShareState α :=
  let o := uploadFile disk sharedFolder "" file none s.fs
  match o.result with
  | .error e => (.error (.file e), ⟨o.fs, s.table⟩)
  | .ok uploadResult =>
      match fulfillRequest s.table now ⟨requestId, deviceName, uploadResult.name, uploadResult.name⟩ with
      | .error e => (.error (.request e), ⟨o.fs, s.table⟩)
      | .ok (row, table) => (.ok row, ⟨o.fs, table⟩)

/-- The failures of the route: the request is unknown or not PENDING, or the name is taken. -/
def RouteError.Refusal : RouteError → Prop
  | .request _ => True
  | .file (.fileConflict _ _) => True
  | .file _ => False

/-- A refused request leaves everything as it was. -/
def LeavesShare (sharedFolder : List String) (requestId deviceName : String) (file : Upload α) (now : String)
    (s : ShareState α) : Prop :=
  ∀ e, (fulfillFileRequest disk sharedFolder requestId deviceName file now s).1 = .error e → e.Refusal →
    (fulfillFileRequest disk sharedFolder requestId deviceName file now s).2 = s

/-- The file can be stored under its name: the name is accepted and free, and opening it leads somewhere. -/
def StoresNew (fs : FileSystem α) (sharedFolder : List String) (file : Upload α) : Prop :=
  (validateUploadFilename file.filename).isOk = true ∧
    ∃ base, fs.resolve disk.limits sharedFolder = some base ∧
      fs.locate disk.limits (base ++ [file.filename]) = none ∧
      (fs.locateCreat disk.limits (base ++ [file.filename])).isSome = true

open FileService

theorem safePath_root {fs : FileSystem α} {sharedFolder : List String} {targetDir : Location} :
    SafePath disk fs sharedFolder "" targetDir ↔ fs.resolve disk.limits sharedFolder = some targetDir := by
  unfold SafePath
  rw [returns_resolveSafePath]
  constructor
  · rintro ⟨-, base, hbase, ⟨-, rfl⟩ | ⟨⟨hne, -⟩, -⟩⟩
    · exact hbase
    · exact absurd rfl hne
  · exact fun h => ⟨rfl, targetDir, h, .inl ⟨rfl, rfl⟩⟩

theorem uploadFile_new_cases (fs : FileSystem α) (sharedFolder : List String) (file : Upload α) :
    (StoresNew disk fs sharedFolder file ∧
        (∃ r, (uploadFile disk sharedFolder "" file none fs).result = .ok r) ∧
        (uploadFile disk sharedFolder "" file none fs).fs ≠ fs) ∨
      ¬StoresNew disk fs sharedFolder file ∧
        (∃ e, (uploadFile disk sharedFolder "" file none fs).result = .error e) ∧
        (uploadFile disk sharedFolder "" file none fs).fs = fs := by
  by_cases hsafe : ∃ base, SafePath disk fs sharedFolder "" base ∧
      (validateUploadFilename file.filename).isOk = true
  · obtain ⟨base, hsafe, hvalid⟩ := hsafe
    have hbase := (safePath_root disk).mp hsafe
    have hname := validateUploadFilename_of_isOk file.filename hvalid
    have hstores : StoresNew disk fs sharedFolder file ↔
        fs.locate disk.limits (base ++ [file.filename]) = none ∧
          (fs.locateCreat disk.limits (base ++ [file.filename])).isSome = true := by
      constructor
      · rintro ⟨-, base', hbase', h⟩
        rwa [Option.some.inj (hbase.symm.trans hbase')]
      · exact fun h => ⟨hvalid, base, hbase, h⟩
    have hup : file.filename ≠ ".." := (properName_of_validateUploadFilename _ _ hname).2.2.1
    obtain ⟨hfs, hresult⟩ := uploadFile_of_safe disk sharedFolder fs "" file none base _ hsafe hname
    rw [hstores, hfs, hresult]
    rcases storeUpload_cases disk fs base file.filename file none hsafe.resolved hup with
      ⟨htaken, hsame, ⟨-, herror⟩ | ⟨hskip, -⟩⟩ | ⟨new, -, hfree, hcase, -, -, -, hwrites, hwritten⟩ | ⟨hover, -⟩
    · right
      refine ⟨?_, ⟨_, herror⟩, hsame⟩
      rintro ⟨hnone, -⟩
      rw [Taken, hnone] at htaken
      cases htaken
    · cases hskip
    · obtain ⟨-, rfl⟩ : ¬Taken disk fs base file.filename ∧ new = file.filename :=
        hcase.resolve_right (by simp)
      have hnone : fs.locate disk.limits (base ++ [file.filename]) = none := by
        rw [Taken, Bool.not_eq_true, Option.isSome_eq_false_iff, Option.isNone_iff_eq_none] at hfree
        exact hfree
      rw [hwrites, hwritten]
      cases hcreat : fs.locateCreat disk.limits (base ++ [file.filename]) with
      | none =>
          have he := writeUploadChunks_refused disk fs file (base ++ [file.filename]) (by simp [hcreat])
          have herr := congrArg Outcome.result he
          right
          rw [writeDirectly, FileM.bind_of_error _ _ _ _ herr, he]
          exact ⟨by simp, ⟨_, rfl⟩, rfl⟩
      | some l =>
          have hnew := FileSystem.get?_of_locateCreat disk.limits _ l hcreat hnone
          have hdir : fs.isDirAt l = false := by
            rw [Bool.eq_false_iff, ne_eq, FileSystem.isDirAt_eq_true, hnew]
            simp
          obtain ⟨hput, hret⟩ := writeUploadChunks_opens disk fs file _ l hcreat hdir
          left
          rw [writeDirectly, FileM.bind_of_ok _ _ _ _ _ hret]
          refine ⟨⟨hnone, rfl⟩, ⟨_, rfl⟩, ?_⟩
          intro hsame
          have hget := congrArg (fun fs' => FileSystem.get? fs' l) hsame
          change (fs.put l _ hput).get? l = fs.get? l at hget
          rw [FileSystem.get?_put, if_pos rfl, hnew] at hget
          cases hget
    · cases hover
  · right
    obtain ⟨hsame, hnot⟩ := uploadFile_of_refused disk sharedFolder fs "" file none (by
      intro targetDir hpath name hname
      exact hsafe ⟨targetDir, hpath, by rw [hname]; rfl⟩)
    refine ⟨?_, ?_, hsame⟩
    · rintro ⟨hvalid, base, hbase, -⟩
      exact hsafe ⟨base, (safePath_root disk).mpr hbase, hvalid⟩
    · cases hresult : (uploadFile disk sharedFolder "" file none fs).result with
      | ok r => exact absurd hresult (hnot r)
      | error e => exact ⟨e, rfl⟩

/-- A refused request leaves the share as it was exactly if it is PENDING or its file cannot be stored. -/
theorem leavesShare_iff (sharedFolder : List String) (requestId deviceName : String) (file : Upload α)
    (now : String) (s : ShareState α) :
    LeavesShare disk sharedFolder requestId deviceName file now s ↔
      PendingIn s.table requestId ∨ ¬StoresNew disk s.fs sharedFolder file := by
  unfold LeavesShare fulfillFileRequest
  rcases uploadFile_new_cases disk s.fs sharedFolder file with
    ⟨hstores, ⟨r, hr⟩, hchanged⟩ | ⟨hnot, ⟨e, he⟩, hsame⟩
  · simp only [hr, hstores, not_true_eq_false, or_false]
    have hpending := fulfillRequest_isOk s.table now ⟨requestId, deviceName, r.name, r.name⟩
    cases hfulfil : fulfillRequest s.table now ⟨requestId, deviceName, r.name, r.name⟩ with
    | ok updated =>
        rw [hfulfil] at hpending
        refine iff_of_true ?_ (hpending.mp rfl)
        intro e herror
        cases herror
    | error e =>
        rw [hfulfil] at hpending
        refine iff_of_false ?_ fun h => by simpa [Except.isOk, Except.toBool] using hpending.mpr h
        intro h
        have hstate := h (.request e) rfl trivial
        exact hchanged (congrArg ShareState.fs hstate)
  · simp only [he]
    refine iff_of_true ?_ (.inr hnot)
    intro e' _ _
    rw [hsame]

end Route

def emptyShare : FileSystem String where
  tree := [(["srv"], .dir)]
  closed := by decide

def shareDisk : Disk String := ⟨⟨40, 40⟩, fun _ => 0, fun _ => "", 20⟩

/-- The file stays in the folder although there is no such request. -/
theorem not_leavesShare_unknown :
    ¬LeavesShare shareDisk ["srv"] "r-1" "phone" ⟨"a.txt", "text"⟩ "now" ⟨emptyShare, ⟨[], by decide⟩⟩ := by
  intro h
  have hstate := h (.request (notFound "r-1")) (by decide +kernel) trivial
  have hfile : (fulfillFileRequest shareDisk ["srv"] "r-1" "phone" ⟨"a.txt", "text"⟩ "now"
      ⟨emptyShare, ⟨[], by decide⟩⟩).2.fs.get? ["srv", "a.txt"] = some (.file "text") := by decide +kernel
  rw [hstate] at hfile
  exact absurd hfile (by decide +kernel)

end NetworkFileServer.Server
