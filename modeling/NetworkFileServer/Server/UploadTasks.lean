import NetworkFileServer.Framework.TransitionSystem
import NetworkFileServer.Server.UploadFrame

/-!
# Uploads side by side

`upload_file` and `_write_upload_chunks` with their awaits: a name is chosen in one go, and the file is opened,
read and written in calls between which other uploads go on. Calls are without a resolution, or with RENAME.
-/

namespace NetworkFileServer.Server.FileService

open Tunnel (Bytes)

/-- `UPLOAD_CHUNK_SIZE` -/
def uploadChunkSize : Nat := 1024 * 1024

structure UploadCall where
  relativeDir : String
  upload : Upload Bytes
  /-- RENAME, or no resolution. -/
  renames : Bool

def UploadCall.conflictResolution (call : UploadCall) : Option ConflictResolution :=
  if call.renames then some .rename else none

/-- A file that is open for writing: how many of its bytes have reached the file and what waits in the buffer,
next to what is left of the upload. -/
structure Writer where
  targetDir : Location
  filename : String
  location : Location
  position : Nat
  buffer : Bytes
  unread : Bytes
  bytesWritten : Nat
deriving DecidableEq

/-- Where a call is: at the call that it awaits, or at its end. -/
inductive UploadPc where
  | opening (targetDir : Location) (filename : String)
  | reading (out : Writer)
  | writing (out : Writer) (chunk : Bytes)
  | closing (out : Writer)
  | returned (out : Writer)
  | raised (e : FileError)
deriving DecidableEq

def Writer.result (out : Writer) : UploadResult := uploadResult out.filename out.bytesWritten false

def UploadPc.result : UploadPc → Option (Except FileError UploadResult)
  | .returned out => some (.ok out.result)
  | .raised e => some (.error e)
  | _ => none

section Calls

variable (disk : Disk Bytes) (baseDir : List String)

/-- The name under which a call stores its file. -/
def chooseName (targetDir : Location) (filename : String) (renames : Bool) : FileM Bytes FileError String := do
  let conflict ← FileM.pathExists disk.limits (targetDir ++ [filename])
  if conflict then
    if renames then do
      let objects ← FileM.objectCount
      freeName disk targetDir filename (objects + 1) 1
    else FileM.fail (.fileConflict filename (pathStr (targetDir ++ [filename])))
  else pure filename

/-- `upload_file` up to its first await. -/
def beginUpload (call : UploadCall) : FileM Bytes FileError (Location × String) := do
  let targetDir ← resolveSafePath disk baseDir call.relativeDir
  let filename ← liftExcept (validateUploadFilename call.upload.filename)
  let name ← chooseName disk targetDir filename call.renames
  pure (targetDir, name)

/-- Bytes that are written into a file at a position. -/
def writeAt (content : Bytes) (position : Nat) (data : Bytes) : Bytes :=
  content.take position ++ List.replicate (position - content.length) 0 ++ data ++
    content.drop (position + data.length)

def writeInto (fs : FileSystem Bytes) (l : Location) (position : Nat) (data : Bytes) : FileSystem Bytes :=
  if data = [] then fs
  else
    match fs.get? l with
    | some (.file content) =>
        if h : fs.isDirAt l.dropLast = true ∧ fs.isDirAt l = false then
          fs.put l (.file (writeAt content position data)) ⟨h.1, by simp [h.2]⟩
        else fs
    | _ => fs

/-- The buffer gives some of its bytes to the file. -/
def Writer.flush (fs : FileSystem Bytes) (out : Writer) (count : Nat) : FileSystem Bytes × Writer :=
  (writeInto fs out.location out.position (out.buffer.take count),
    { out with position := out.position + (out.buffer.take count).length, buffer := out.buffer.drop count })

/-- The call that is awaited, and the code up to the next one. A `write` leaves some bytes in the buffer; the
bytes of `count` go to the file. -/
def UploadPc.resume (content : Bytes) (fs : FileSystem Bytes) (count : Nat) :
    UploadPc → Option (FileSystem Bytes × UploadPc)
  | .opening targetDir filename =>
      match fs.locateCreat disk.limits (targetDir ++ [filename]) with
      | none => some (fs, .raised (.os .notFound))
      | some l =>
          if h : fs.isDirAt l.dropLast = true ∧ fs.isDirAt l = false then
            some (fs.put l (.file []) ⟨h.1, by simp [h.2]⟩, .reading ⟨targetDir, filename, l, 0, [], content, 0⟩)
          else some (fs, .raised (.os .isADirectory))
  | .reading out =>
      let chunk := out.unread.take uploadChunkSize
      let next := { out with unread := out.unread.drop uploadChunkSize }
      some (fs, if chunk = [] then .closing next else .writing next chunk)
  | .writing out chunk =>
      let (fs', next) := Writer.flush fs { out with buffer := out.buffer ++ chunk } count
      some (fs', .reading { next with bytesWritten := next.bytesWritten + chunk.length })
  | .closing out =>
      let (fs', next) := Writer.flush fs out out.buffer.length
      some (fs', .returned next)
  | .returned _ | .raised _ => none

structure UploadTask where
  call : UploadCall
  pc : UploadPc

structure UploadSystem where
  fs : FileSystem Bytes
  tasks : List UploadTask

inductive UploadAction where
  | start (call : UploadCall)
  /-- Call number `i` goes on. -/
  | resume (i : Nat) (count : Nat)

namespace UploadSystem

def start (fs : FileSystem Bytes) : UploadSystem := ⟨fs, []⟩

/-- A call as it arrives at its first await. -/
def entry (fs : FileSystem Bytes) (call : UploadCall) : UploadTask :=
  match (beginUpload disk baseDir call fs).result with
  | .ok (targetDir, name) => ⟨call, .opening targetDir name⟩
  | .error e => ⟨call, .raised e⟩

def step (s : UploadSystem) : UploadAction → Option UploadSystem
  | .start call => some { s with tasks := s.tasks ++ [entry disk baseDir s.fs call] }
  | .resume i count =>
      s.tasks[i]?.bind fun task =>
        (task.pc.resume disk task.call.upload.content s.fs count).map fun (fs, pc) =>
          ⟨fs, s.tasks.set i { task with pc := pc }⟩

end UploadSystem

end Calls

@[simp] theorem writeInto_nil (fs : FileSystem Bytes) (l : Location) (position : Nat) :
    writeInto fs l position [] = fs := rfl

theorem writeInto_of_file (fs : FileSystem Bytes) (l : Location) (position : Nat) (content data : Bytes)
    (hdata : data ≠ []) (hfile : fs.get? l = some (.file content)) :
    ∃ hput : fs.Puttable l (.file (writeAt content position data)),
      writeInto fs l position data = fs.put l (.file (writeAt content position data)) hput := by
  have hparent := fs.isDirAt_dropLast l (by simp [hfile])
  have hdir : fs.isDirAt l = false := by
    rw [Bool.eq_false_iff, ne_eq, FileSystem.isDirAt_eq_true, hfile]
    simp
  refine ⟨⟨hparent, by simp [hdir]⟩, ?_⟩
  simp only [writeInto, if_neg hdata, hfile]
  rw [dif_pos ⟨hparent, hdir⟩]

theorem writeAt_take (content data : Bytes) (position : Nat) (hbound : position ≤ content.length)
    (hdata : data <+: content.drop position) :
    writeAt (content.take position) position data = content.take (position + data.length) := by
  have hlength : (content.take position).length = position := by simpa using hbound
  have hend : (content.take position).drop (position + data.length) = [] := by
    apply List.drop_eq_nil_of_le
    omega
  rw [writeAt, hlength, Nat.sub_self, List.replicate_zero, List.append_nil, hend, List.append_nil, List.take_add,
    ← List.prefix_iff_eq_take.mp hdata, List.take_of_length_le hlength.le]

section Alone

variable (disk : Disk Bytes) (baseDir : List String)

theorem chooseName_keeps (targetDir : Location) (filename : String) (renames : Bool) :
    (chooseName disk targetDir filename renames).Keeps := by
  apply FileM.Keeps.bind (FileM.keeps_pathExists _ _)
  intro conflict
  cases conflict with
  | false => exact FileM.keeps_pure _
  | true =>
      cases renames with
      | false => exact FileM.keeps_fail _
      | true =>
          apply FileM.Keeps.bind (fun _ => rfl)
          intro objects
          exact freeName_keeps disk targetDir filename _ _

theorem beginUpload_keeps (call : UploadCall) : (beginUpload disk baseDir call).Keeps := by
  apply FileM.Keeps.bind (resolveSafePath_keeps disk baseDir _)
  intro targetDir
  apply FileM.Keeps.bind (keeps_liftExcept _)
  intro filename
  apply FileM.Keeps.bind (chooseName_keeps disk targetDir filename _)
  intro name
  exact FileM.keeps_pure _

theorem writeUpload_of_call (call : UploadCall) (targetDir : Location) (name : String) :
    writeUpload disk targetDir name call.upload call.conflictResolution =
      writeDirectly disk targetDir name call.upload := by
  unfold UploadCall.conflictResolution
  cases call.renames <;> rfl

theorem storeUpload_eq_choose (call : UploadCall) (targetDir : Location) (filename : String) :
    storeUpload disk targetDir filename call.upload call.conflictResolution =
      chooseName disk targetDir filename call.renames >>= fun name =>
        writeDirectly disk targetDir name call.upload := by
  rw [storeUpload, chooseName, FileM.bind_assoc]
  congr 1
  funext conflict
  cases conflict with
  | false => exact writeUpload_of_call disk call targetDir filename
  | true =>
      rw [if_pos rfl, if_pos rfl]
      unfold UploadCall.conflictResolution
      cases call.renames with
      | false => rfl
      | true =>
          rw [if_pos rfl, if_pos rfl, FileM.bind_assoc]
          rfl

theorem uploadFile_eq_begin (call : UploadCall) :
    uploadFile disk baseDir call.relativeDir call.upload call.conflictResolution =
      beginUpload disk baseDir call >>= fun (targetDir, name) => writeDirectly disk targetDir name call.upload := by
  rw [uploadFile, beginUpload, FileM.bind_assoc]
  congr 1
  funext targetDir
  rw [FileM.bind_assoc]
  congr 1
  funext filename
  rw [FileM.bind_assoc, storeUpload_eq_choose]
  rfl

/-- One task and the file system, as its steps change them while nobody else is there. -/
def advances (content : Bytes) (x y : FileSystem Bytes × UploadPc) : Prop :=
  x.2.resume disk content x.1 0 = some y

theorem advances_read (content : Bytes) (fs : FileSystem Bytes) (out : Writer) :
    Relation.ReflTransGen (advances disk content) (fs, .reading out)
      (fs, .closing { out with
        buffer := out.buffer ++ out.unread
        unread := []
        bytesWritten := out.bytesWritten + out.unread.length }) := by
  generalize hn : out.unread.length = n
  induction n using Nat.strong_induction_on generalizing out with
  | _ n ih =>
      by_cases hempty : out.unread = []
      · have hzero : n = 0 := by rw [← hn, hempty]; rfl
        refine .single ?_
        simp [advances, UploadPc.resume, hempty, hzero]
      · have hchunk : out.unread.take uploadChunkSize ≠ [] := by
          simpa [uploadChunkSize] using hempty
        have hshort : (out.unread.drop uploadChunkSize).length < n := by
          rw [← hn, List.length_drop]
          have := List.length_pos_of_ne_nil hempty
          simp only [uploadChunkSize]
          omega
        have hread : advances disk content (fs, .reading out) (fs, .writing
            { out with unread := out.unread.drop uploadChunkSize } (out.unread.take uploadChunkSize)) := by
          simp [advances, UploadPc.resume, hchunk]
        have hwrite : advances disk content (fs, .writing { out with unread := out.unread.drop uploadChunkSize }
            (out.unread.take uploadChunkSize)) (fs, .reading { out with
              buffer := out.buffer ++ out.unread.take uploadChunkSize
              unread := out.unread.drop uploadChunkSize
              bytesWritten := out.bytesWritten + (out.unread.take uploadChunkSize).length }) := by
          simp [advances, UploadPc.resume, Writer.flush]
        have hrest := ih _ hshort { out with
          buffer := out.buffer ++ out.unread.take uploadChunkSize
          unread := out.unread.drop uploadChunkSize
          bytesWritten := out.bytesWritten + (out.unread.take uploadChunkSize).length } rfl
        have hall : out.buffer ++ out.unread.take uploadChunkSize ++ out.unread.drop uploadChunkSize =
            out.buffer ++ out.unread := by
          rw [List.append_assoc, List.take_append_drop]
        have hcount : out.bytesWritten + (out.unread.take uploadChunkSize).length +
            (out.unread.drop uploadChunkSize).length = out.bytesWritten + n := by
          rw [List.length_take, List.length_drop]
          omega
        simp only [hall, hcount] at hrest
        exact .head hread (.head hwrite hrest)

theorem advances_open (content : Bytes) (fs : FileSystem Bytes) (targetDir l : Location) (filename : String)
    (hcreat : fs.locateCreat disk.limits (targetDir ++ [filename]) = some l) (hdir : fs.isDirAt l = false)
    (hput : fs.Puttable l (.file content)) :
    ∃ fs', Relation.ReflTransGen (advances disk content) (fs, .opening targetDir filename)
        (fs', .returned ⟨targetDir, filename, l, content.length, [], [], content.length⟩) ∧
      ∀ q, fs'.get? q = (fs.put l (.file content) hput).get? q := by
  have hempty : fs.Puttable l (.file []) := ⟨hput.1, by simp [hdir]⟩
  have hopen : advances disk content (fs, .opening targetDir filename)
      (fs.put l (.file []) hempty, .reading ⟨targetDir, filename, l, 0, [], content, 0⟩) := by
    simp only [advances, UploadPc.resume, hcreat]
    rw [dif_pos ⟨hput.1, hdir⟩]
  have hloop := advances_read disk content (fs.put l (.file []) hempty) ⟨targetDir, filename, l, 0, [], content, 0⟩
  simp only [List.nil_append, Nat.zero_add] at hloop
  refine ⟨writeInto (fs.put l (.file []) hempty) l 0 content, .head hopen (hloop.tail ?_), ?_⟩
  · simp [advances, UploadPc.resume, Writer.flush]
  · intro q
    by_cases hnil : content = []
    · subst hnil
      rfl
    · obtain ⟨hagain, heq⟩ := writeInto_of_file (fs.put l (.file []) hempty) l 0 [] content hnil
        (by rw [FileSystem.get?_put, if_pos rfl])
      have hall : writeAt [] 0 content = content := by simp [writeAt]
      rw [heq, FileSystem.get?_put, FileSystem.get?_put, FileSystem.get?_put, hall]
      split <;> rfl

end Alone

theorem run_of_advances (disk : Disk Bytes) (baseDir : List String) (call : UploadCall)
    (x y : FileSystem Bytes × UploadPc)
    (h : Relation.ReflTransGen (advances disk call.upload.content) x y) :
    Relation.ReflTransGen (fun s t => UploadSystem.step disk baseDir s (.resume 0 0) = some t)
      ⟨x.1, [⟨call, x.2⟩]⟩ ⟨y.1, [⟨call, y.2⟩]⟩ := by
  induction h with
  | refl => exact .refl
  | tail _ hstep ih =>
      refine ih.tail ?_
      unfold advances at hstep
      simp [UploadSystem.step, hstep]

theorem entry_call (disk : Disk Bytes) (baseDir : List String) (fs : FileSystem Bytes) (call : UploadCall) :
    (UploadSystem.entry disk baseDir fs call).call = call := by
  unfold UploadSystem.entry
  split <;> rfl

theorem run_start_of_advances (disk : Disk Bytes) (baseDir : List String) (fs : FileSystem Bytes)
    (call : UploadCall) (x : FileSystem Bytes × UploadPc)
    (hx : Relation.ReflTransGen (advances disk call.upload.content)
      (fs, (UploadSystem.entry disk baseDir fs call).pc) x) :
    ∃ n, TransitionSystem.run (UploadSystem.step disk baseDir) (UploadSystem.start fs)
      (.start call :: List.replicate n (.resume 0 0)) = some ⟨x.1, [⟨call, x.2⟩]⟩ := by
  obtain ⟨n, hn⟩ := TransitionSystem.exists_run_replicate _ _ (run_of_advances disk baseDir call _ x hx)
  have hentry : UploadSystem.entry disk baseDir fs call = ⟨call, (UploadSystem.entry disk baseDir fs call).pc⟩ :=
    congrArg (UploadTask.mk · (UploadSystem.entry disk baseDir fs call).pc) (entry_call disk baseDir fs call)
  refine ⟨n, (TransitionSystem.run_cons_eq_some _ _ _ _ _).mpr
    ⟨⟨fs, [UploadSystem.entry disk baseDir fs call]⟩, rfl, ?_⟩⟩
  rw [hentry]
  exact hn

theorem advances_end (limits : LinkLimits) (statSize : Node Bytes → Nat)
    (modified : List String → String) (walkDepth : Nat)
    (baseDir : List String) (fs : FileSystem Bytes) (call : UploadCall) :
    ∃ x, Relation.ReflTransGen (advances (byteDisk limits statSize modified walkDepth) call.upload.content)
        (fs, (UploadSystem.entry (byteDisk limits statSize modified walkDepth) baseDir fs call).pc) x ∧
      x.2.result = some (uploadFile (byteDisk limits statSize modified walkDepth) baseDir call.relativeDir call.upload
        call.conflictResolution fs).result ∧
      ∀ q, x.1.get? q = (uploadFile (byteDisk limits statSize modified walkDepth) baseDir call.relativeDir call.upload
        call.conflictResolution fs).fs.get? q := by
  obtain ⟨disk, hdisk⟩ : ∃ disk, byteDisk limits statSize modified walkDepth = disk := ⟨_, rfl⟩
  have hsize : disk.size (.file call.upload.content) = call.upload.content.length := by rw [← hdisk]; rfl
  rw [hdisk, uploadFile_eq_begin]
  unfold UploadSystem.entry
  cases hbegin : (beginUpload disk baseDir call fs).result with
  | error e =>
      refine ⟨(fs, .raised e), .refl, ?_⟩
      rw [FileM.bind_of_error _ _ _ _ hbegin, beginUpload_keeps disk baseDir call fs]
      exact ⟨rfl, fun _ => rfl⟩
  | ok chosen =>
      obtain ⟨targetDir, name⟩ := chosen
      have hret : (beginUpload disk baseDir call).Returns fs (targetDir, name) fs :=
        ⟨hbegin, beginUpload_keeps disk baseDir call fs⟩
      rw [FileM.bind_of_ok _ _ _ _ _ hret]
      dsimp only
      by_cases hopens : ∃ l, fs.locateCreat disk.limits (targetDir ++ [name]) = some l ∧ fs.isDirAt l = false
      · obtain ⟨l, hcreat, hdir⟩ := hopens
        obtain ⟨hput, hwrites⟩ := writeUploadChunks_opens disk fs call.upload _ l hcreat hdir
        obtain ⟨fs', hadvances, hsame⟩ := advances_open disk call.upload.content fs targetDir l name hcreat hdir hput
        refine ⟨_, hadvances, ?_⟩
        rw [writeDirectly, FileM.bind_of_ok _ _ _ _ _ hwrites, hsize]
        exact ⟨rfl, hsame⟩
      · have hrefused : ∀ l, fs.locateCreat disk.limits (targetDir ++ [name]) = some l → fs.isDirAt l = true := by
          intro l hl
          by_contra hdir
          exact hopens ⟨l, hl, by simpa using hdir⟩
        have he := writeUploadChunks_refused disk fs call.upload (targetDir ++ [name]) hrefused
        have herr := congrArg Outcome.result he
        refine ⟨(fs, .raised (.os (openError disk fs (targetDir ++ [name])))), .single ?_, ?_⟩
        · cases hcreat : fs.locateCreat disk.limits (targetDir ++ [name]) with
          | none => simp [advances, UploadPc.resume, openError, hcreat]
          | some l =>
              have hnot : ¬(fs.isDirAt l.dropLast = true ∧ fs.isDirAt l = false) := by simp [hrefused l hcreat]
              simp only [advances, UploadPc.resume, openError, hcreat, dif_neg hnot]
              rfl
        · rw [writeDirectly, FileM.bind_of_error _ _ _ _ herr, he]
          exact ⟨rfl, fun _ => rfl⟩

theorem uploadFile_run (limits : LinkLimits) (statSize : Node Bytes → Nat)
    (modified : List String → String) (walkDepth : Nat)
    (baseDir : List String) (fs : FileSystem Bytes) (call : UploadCall) :
    ∃ n fs' pc, TransitionSystem.run (UploadSystem.step (byteDisk limits statSize modified walkDepth) baseDir)
        (UploadSystem.start fs) (.start call :: List.replicate n (.resume 0 0)) = some ⟨fs', [⟨call, pc⟩]⟩ ∧
      pc.result = some (uploadFile (byteDisk limits statSize modified walkDepth) baseDir call.relativeDir call.upload
        call.conflictResolution fs).result ∧
      ∀ q, fs'.get? q = (uploadFile (byteDisk limits statSize modified walkDepth) baseDir call.relativeDir call.upload
        call.conflictResolution fs).fs.get? q := by
  obtain ⟨x, hx, hresult, hsame⟩ := advances_end limits statSize modified walkDepth baseDir fs call
  obtain ⟨n, hrun⟩ := run_start_of_advances _ baseDir fs call x hx
  exact ⟨n, x.1, x.2, hrun, hresult, hsame⟩

end NetworkFileServer.Server.FileService
