import NetworkFileServer.Server.UploadTasks

/-!
# Uploads that keep apart

A name is free when it is chosen and is opened later, when it may be taken. As long as every file is opened
where nothing is, the uploads have files of their own.
-/

namespace NetworkFileServer.Server.FileService

open Tunnel (Bytes)
open TransitionSystem

/-- The file that a call has opened. -/
def UploadPc.writer : UploadPc → Option Writer
  | .reading out | .writing out _ | .closing out | .returned out => some out
  | .opening _ _ | .raised _ => none

/-- What was read and not yet handed to the file. -/
def UploadPc.chunk : UploadPc → Bytes
  | .writing _ chunk => chunk
  | _ => []

/-- The call has returned `r` for a file in `targetDir`. -/
def UploadTask.Stored (task : UploadTask) (targetDir : Location) (r : UploadResult) : Prop :=
  ∃ out, task.pc = .returned out ∧ out.targetDir = targetDir ∧ out.result = r

namespace UploadSystem

variable (disk : Disk Bytes) (baseDir : List String)

def AllFinished (s : UploadSystem) : Prop := ∀ task ∈ s.tasks, task.pc.result.isSome = true

/-- Every call has a file of its own with its bytes, and the files that were there before are unchanged. -/
structure Separate (before : FileSystem Bytes) (s : UploadSystem) : Prop where
  distinct : ∀ (i j : Nat) (task task' : UploadTask) (targetDir : Location) (r r' : UploadResult), i ≠ j →
    s.tasks[i]? = some task → s.tasks[j]? = some task' → task.Stored targetDir r → task'.Stored targetDir r' →
    r.name ≠ r'.name
  stored : ∀ task ∈ s.tasks, ∀ (targetDir : Location) (r : UploadResult), task.Stored targetDir r →
    r.size = task.call.upload.content.length ∧
      ∃ l, s.fs.locate disk.limits (targetDir ++ [r.name]) = some (l, .file task.call.upload.content)
  kept : ∀ q content, before.get? q = some (.file content) → s.fs.get? q = some (.file content)

/-- A file is opened where nothing is. -/
def OpensNothing (s : UploadSystem) : UploadAction → Bool
  | .start _ => true
  | .resume i _ =>
      match s.tasks[i]? with
      | some ⟨_, .opening targetDir filename⟩ =>
          match s.fs.locateCreat disk.limits (targetDir ++ [filename]) with
          | some l => (s.fs.get? l).isNone
          | none => true
      | _ => true

/-- How far a call has come: what its file holds, and what is still to be written. -/
structure Writes (fs : FileSystem Bytes) (task : UploadTask) (out : Writer) : Prop where
  found : fs.locate disk.limits (out.targetDir ++ [out.filename]) =
    some (out.location, .file (task.call.upload.content.take out.position))
  bound : out.position ≤ task.call.upload.content.length
  rest : task.call.upload.content.drop out.position = out.buffer ++ task.pc.chunk ++ out.unread
  count : out.bytesWritten + task.pc.chunk.length + out.unread.length = task.call.upload.content.length
  closed : task.pc = .closing out ∨ task.pc = .returned out → out.unread = []
  ended : task.pc = .returned out → out.buffer = []

variable {disk baseDir} {before fs fs' : FileSystem Bytes} {s t : UploadSystem} {task task' : UploadTask}
  {out out' : Writer} {i : Nat}

theorem Writes.file (h : Writes disk fs task out) :
    fs.get? out.location = some (.file (task.call.upload.content.take out.position)) :=
  ((FileSystem.locate_eq_some _ _ _ _).mp h.found).2

theorem Writes.frame (h : Writes disk fs task out) (hways : fs.KeepsWays fs')
    (hsame : fs'.get? out.location = fs.get? out.location) : Writes disk fs' task out where
  found := hways.locate _ _ _ _ _ h.found (hsame.trans h.file) rfl
  bound := h.bound
  rest := h.rest
  count := h.count
  closed := h.closed
  ended := h.ended

theorem Writes.complete (h : Writes disk fs task out) (hreturned : task.pc = .returned out) :
    out.bytesWritten = task.call.upload.content.length ∧
      task.call.upload.content.take out.position = task.call.upload.content := by
  have hunread := h.closed (.inr hreturned)
  have hchunk : task.pc.chunk = [] := by rw [hreturned]; rfl
  have hcount := h.count
  have hrest := h.rest
  rw [hunread, hchunk] at hcount
  rw [h.ended hreturned, hunread, hchunk] at hrest
  refine ⟨hcount, ?_⟩
  rw [List.take_of_length_le]
  exact List.drop_eq_nil_iff.mp hrest

theorem flush_file (content : Bytes) (out : Writer) (count : Nat)
    (hfile : fs.get? out.location = some (.file (content.take out.position)))
    (hbound : out.position ≤ content.length) (hbuffer : out.buffer <+: content.drop out.position) :
    fs.KeepsWays (out.flush fs count).1 ∧
      (out.flush fs count).1.get? out.location = some (.file (content.take (out.flush fs count).2.position)) ∧
      ∀ q, q ≠ out.location → (out.flush fs count).1.get? q = fs.get? q := by
  have hdata : out.buffer.take count <+: content.drop out.position :=
    (List.take_prefix count out.buffer).trans hbuffer
  unfold Writer.flush
  by_cases hempty : out.buffer.take count = []
  · simp only [hempty, writeInto_nil, List.length_nil, Nat.add_zero]
    exact ⟨FileSystem.KeepsWays.refl fs, hfile, fun _ _ => trivial⟩
  · obtain ⟨hput, heq⟩ := writeInto_of_file fs out.location out.position _ _ hempty hfile
    simp only [heq]
    refine ⟨FileSystem.keepsWays_put _ _ hput (by simp [hfile, Node.isLink]), ?_, ?_⟩
    · rw [FileSystem.get?_put, if_pos rfl, writeAt_take content _ out.position hbound hdata]
    · intro q hq
      rw [FileSystem.get?_put, if_neg hq]

theorem flush_rest (fs : FileSystem Bytes) (content tail : Bytes) (out : Writer) (count : Nat)
    (hbound : out.position ≤ content.length)
    (hrest : content.drop out.position = out.buffer ++ tail) :
    content.drop (out.flush fs count).2.position = (out.flush fs count).2.buffer ++ tail ∧
      (out.flush fs count).2.position ≤ content.length := by
  have hlength := congrArg List.length hrest
  rw [List.length_drop, List.length_append] at hlength
  have hsplit : out.buffer ++ tail = out.buffer.take count ++ (out.buffer.drop count ++ tail) := by
    rw [← List.append_assoc, List.take_append_drop]
  unfold Writer.flush
  constructor
  · rw [← List.drop_drop, hrest, hsplit, List.drop_left]
  · have htake := List.length_take_le' count out.buffer
    simp only
    omega

theorem Writes.flush (h : Writes disk fs task out) (buffer tail : Bytes) (count : Nat)
    (hrest : out.buffer ++ task.pc.chunk ++ out.unread = buffer ++ tail) (fs' : FileSystem Bytes) (next : Writer)
    (hflush : { out with buffer := buffer }.flush fs count = (fs', next)) :
    fs.KeepsWays fs' ∧ (∀ q, q ≠ out.location → fs'.get? q = fs.get? q) ∧
      fs'.locate disk.limits (out.targetDir ++ [out.filename]) =
        some (out.location, .file (task.call.upload.content.take next.position)) ∧
      next.position ≤ task.call.upload.content.length ∧
      task.call.upload.content.drop next.position = next.buffer ++ tail := by
  have hdrop : task.call.upload.content.drop out.position = buffer ++ tail := h.rest.trans hrest
  obtain ⟨hways, hfile, hothers⟩ := flush_file task.call.upload.content { out with buffer := buffer } count h.file
    h.bound (by rw [hdrop]; exact List.prefix_append _ _)
  obtain ⟨hnext, hbound⟩ := flush_rest fs task.call.upload.content tail { out with buffer := buffer }
    count h.bound hdrop
  rw [hflush] at hways hfile hothers
  rw [hflush] at hnext hbound
  exact ⟨hways, hothers, hways.locate _ _ _ _ _ h.found hfile rfl, hbound, hnext⟩

structure Inv (disk : Disk Bytes) (before : FileSystem Bytes) (s : UploadSystem) : Prop where
  kept : ∀ q node, before.get? q = some node → s.fs.get? q = some node
  writes : ∀ (i : Nat) (task : UploadTask) (out : Writer), s.tasks[i]? = some task →
    task.pc.writer = some out → Writes disk s.fs task out
  fresh : ∀ (i : Nat) (task : UploadTask) (out : Writer), s.tasks[i]? = some task →
    task.pc.writer = some out → before.get? out.location = none
  apart : ∀ (i j : Nat) (task task' : UploadTask) (out out' : Writer), i ≠ j → s.tasks[i]? = some task →
    s.tasks[j]? = some task' → task.pc.writer = some out → task'.pc.writer = some out' →
    out.location ≠ out'.location

theorem inv_start (fs : FileSystem Bytes) : Inv disk fs (start fs) where
  kept := fun _ _ h => h
  writes := by
    intro i task out hi
    simp [start] at hi
  fresh := by
    intro i task out hi
    simp [start] at hi
  apart := by
    intro i j task task' out out' _ hi
    simp [start] at hi

theorem Inv.separate (hs : s.Inv disk before) : Separate disk before s where
  distinct := by
    intro i j task task' targetDir r r' hij hi hj ⟨out, hout, htarget, hr⟩ ⟨out', hout', htarget', hr'⟩ hname
    have hwriter : task.pc.writer = some out := by rw [hout]; rfl
    have hwriter' : task'.pc.writer = some out' := by rw [hout']; rfl
    have hfilename : out.filename = out'.filename := by
      subst hr
      subst hr'
      exact hname
    have hfound := (hs.writes i task out hi hwriter).found
    rw [htarget, hfilename, ← htarget', (hs.writes j task' out' hj hwriter').found] at hfound
    refine hs.apart i j task task' out out' hij hi hj hwriter hwriter' ?_
    exact (congrArg Prod.fst (Option.some.inj hfound)).symm
  stored := by
    intro task htask targetDir r ⟨out, hout, htarget, hr⟩
    obtain ⟨i, hi⟩ := List.mem_iff_getElem?.mp htask
    have hwrites := hs.writes i task out hi (by rw [hout]; rfl)
    obtain ⟨hsize, hall⟩ := hwrites.complete hout
    have hfound := hwrites.found
    rw [hall, htarget] at hfound
    subst hr
    exact ⟨hsize, out.location, hfound⟩
  kept := fun q content hq => hs.kept q (.file content) hq

theorem Inv.quiet (hs : s.Inv disk before) (hnone : task'.pc.writer = none) :
    Inv disk before { s with tasks := s.tasks.set i task' } where
  kept := hs.kept
  writes := by
    intro j task out hj hout
    rcases getElem?_set_cases hj with ⟨-, rfl⟩ | ⟨-, hj⟩
    · rw [hnone] at hout
      cases hout
    · exact hs.writes j task out hj hout
  fresh := by
    intro j task out hj hout
    rcases getElem?_set_cases hj with ⟨-, rfl⟩ | ⟨-, hj⟩
    · rw [hnone] at hout
      cases hout
    · exact hs.fresh j task out hj hout
  apart := by
    intro j k task task'' out out' hjk hj hk hout hout'
    rcases getElem?_set_cases hj with ⟨-, rfl⟩ | ⟨-, hj⟩
    · rw [hnone] at hout
      cases hout
    · rcases getElem?_set_cases hk with ⟨-, rfl⟩ | ⟨-, hk⟩
      · rw [hnone] at hout'
        cases hout'
      · exact hs.apart j k task task'' out out' hjk hj hk hout hout'

theorem Inv.join (hs : s.Inv disk before) (hnone : task'.pc.writer = none) :
    Inv disk before { s with tasks := s.tasks ++ [task'] } where
  kept := hs.kept
  writes := by
    intro j task out hj hout
    rcases getElem?_concat_cases hj with hj | ⟨-, rfl⟩
    · exact hs.writes j task out hj hout
    · rw [hnone] at hout
      cases hout
  fresh := by
    intro j task out hj hout
    rcases getElem?_concat_cases hj with hj | ⟨-, rfl⟩
    · exact hs.fresh j task out hj hout
    · rw [hnone] at hout
      cases hout
  apart := by
    intro j k task task'' out out' hjk hj hk hout hout'
    rcases getElem?_concat_cases hj with hj | ⟨-, rfl⟩
    · rcases getElem?_concat_cases hk with hk | ⟨-, rfl⟩
      · exact hs.apart j k task task'' out out' hjk hj hk hout hout'
      · rw [hnone] at hout'
        cases hout'
    · rw [hnone] at hout
      cases hout

theorem Inv.set (out' : Writer) (hs : s.Inv disk before) (hwriter : task'.pc.writer = some out')
    (hkept : ∀ q node, before.get? q = some node → fs'.get? q = some node) (hways : s.fs.KeepsWays fs')
    (hget : ∀ q, q ≠ out'.location → fs'.get? q = s.fs.get? q) (hwrites : Writes disk fs' task' out')
    (hfresh : before.get? out'.location = none)
    (hapart : ∀ j task out, j ≠ i → s.tasks[j]? = some task → task.pc.writer = some out →
      out.location ≠ out'.location) :
    Inv disk before ⟨fs', s.tasks.set i task'⟩ where
  kept := hkept
  writes := by
    intro j task out hj hout
    rcases getElem?_set_cases hj with ⟨-, rfl⟩ | ⟨hne, hj⟩
    · rw [hwriter, Option.some.injEq] at hout
      rwa [← hout]
    · exact (hs.writes j task out hj hout).frame hways (hget _ (hapart j task out hne hj hout))
  fresh := by
    intro j task out hj hout
    rcases getElem?_set_cases hj with ⟨-, rfl⟩ | ⟨-, hj⟩
    · rw [hwriter, Option.some.injEq] at hout
      rwa [← hout]
    · exact hs.fresh j task out hj hout
  apart := by
    intro j k task task'' out out'' hjk hj hk hout hout'
    rcases getElem?_set_cases hj with ⟨hji, rfl⟩ | ⟨hji, hj'⟩
    · rcases getElem?_set_cases hk with ⟨hki, rfl⟩ | ⟨hki, hk'⟩
      · exact absurd (hji.trans hki.symm) hjk
      · rw [hwriter, Option.some.injEq] at hout
        rw [← hout]
        exact (hapart k task'' out'' hki hk' hout').symm
    · rcases getElem?_set_cases hk with ⟨-, rfl⟩ | ⟨-, hk'⟩
      · rw [hwriter, Option.some.injEq] at hout'
        rw [← hout']
        exact hapart j task out hji hj' hout
      · exact hs.apart j k task task'' out out'' hjk hj' hk' hout hout'

theorem Inv.goesOn (out' : Writer) (hs : s.Inv disk before) (hi : s.tasks[i]? = some task)
    (hout : task.pc.writer = some out)
    (hwriter : task'.pc.writer = some out') (hlocation : out'.location = out.location)
    (hways : s.fs.KeepsWays fs') (hget : ∀ q, q ≠ out.location → fs'.get? q = s.fs.get? q)
    (hwrites : Writes disk fs' task' out') : Inv disk before ⟨fs', s.tasks.set i task'⟩ := by
  have hfresh := hs.fresh i task out hi hout
  apply hs.set out' hwriter ?_ hways ?_ hwrites ?_ ?_
  · intro q node hq
    rw [hget q, hs.kept q node hq]
    rintro rfl
    rw [hfresh] at hq
    cases hq
  · rwa [hlocation]
  · rwa [hlocation]
  · intro j other out'' hne hj hother
    rw [hlocation]
    exact hs.apart j i other task out'' out hne hj hi hother hout

theorem entry_writer (fs : FileSystem Bytes) (call : UploadCall) :
    (entry disk baseDir fs call).pc.writer = none := by
  unfold entry
  split <;> rfl

theorem inv_open (hs : s.Inv disk before) (call : UploadCall) (targetDir : Location) (filename : String)
    (l : Location)
    (hcreat : s.fs.locateCreat disk.limits (targetDir ++ [filename]) = some l) (hnone : s.fs.get? l = none)
    (hput : s.fs.Puttable l (.file [])) :
    Inv disk before ⟨s.fs.put l (.file []) hput,
      s.tasks.set i ⟨call, .reading ⟨targetDir, filename, l, 0, [], call.upload.content, 0⟩⟩⟩ := by
  have hfresh : before.get? l = none := by
    by_contra hsome
    obtain ⟨node, hnode⟩ := Option.ne_none_iff_exists'.mp hsome
    rw [hs.kept l node hnode] at hnone
    cases hnone
  apply hs.set ⟨targetDir, filename, l, 0, [], call.upload.content, 0⟩ rfl ?_ ?_ ?_ ?_ hfresh ?_
  · intro q node hq
    rw [FileSystem.get?_put, if_neg, hs.kept q node hq]
    rintro rfl
    rw [hfresh] at hq
    cases hq
  · exact FileSystem.keepsWays_put l [] hput (by simp [hnone])
  · intro q hq
    rw [FileSystem.get?_put, if_neg hq]
  · exact {
      found := FileSystem.locate_put disk.limits _ l [] hcreat hput
      bound := Nat.zero_le _
      rest := by simp [UploadPc.chunk]
      count := by simp [UploadPc.chunk]
      closed := by simp
      ended := by simp }
  · intro j task out _ hj hout heq
    have hfile := (hs.writes j task out hj hout).file
    rw [heq, hnone] at hfile
    cases hfile

theorem inv_resume (hs : s.Inv disk before) (call : UploadCall) (pc pc' : UploadPc) (count : Nat)
    (hi : s.tasks[i]? = some ⟨call, pc⟩) (hopens : s.OpensNothing disk (.resume i count) = true)
    (h : pc.resume disk call.upload.content s.fs count = some (fs', pc')) :
    Inv disk before ⟨fs', s.tasks.set i ⟨call, pc'⟩⟩ := by
  cases pc with
  | opening targetDir filename =>
      simp only [UploadPc.resume] at h
      simp only [OpensNothing, hi] at hopens
      split at h
      · cases h
        exact hs.quiet rfl
      · rename_i l hcreat
        simp only [hcreat, Option.isNone_iff_eq_none] at hopens
        split at h
        · cases h
          exact inv_open hs call targetDir filename l hcreat hopens _
        · cases h
          exact hs.quiet rfl
  | reading out =>
      have hwrites := hs.writes i _ out hi rfl
      have hrest := hwrites.rest
      have hcount := hwrites.count
      simp only [UploadPc.chunk, List.append_nil, List.length_nil, Nat.add_zero] at hrest hcount
      simp only [UploadPc.resume, Option.some.injEq, Prod.mk.injEq] at h
      obtain ⟨rfl, rfl⟩ := h
      split
      · rename_i hempty
        have hunread : out.unread = [] := by simpa [uploadChunkSize] using hempty
        apply hs.goesOn { out with unread := out.unread.drop uploadChunkSize } hi rfl rfl rfl
          (FileSystem.KeepsWays.refl _) fun _ _ => rfl
        exact {
          found := hwrites.found
          bound := hwrites.bound
          rest := by simp [UploadPc.chunk, hrest, hunread]
          count := by simpa [UploadPc.chunk, hunread] using hcount
          closed := by simp [hunread]
          ended := by simp }
      · apply hs.goesOn { out with unread := out.unread.drop uploadChunkSize } hi rfl rfl rfl
          (FileSystem.KeepsWays.refl _) fun _ _ => rfl
        exact {
          found := hwrites.found
          bound := hwrites.bound
          rest := by
            simp only [UploadPc.chunk, List.append_assoc, List.take_append_drop]
            exact hrest
          count := by
            simp only [UploadPc.chunk, List.length_take, List.length_drop]
            omega
          closed := by simp
          ended := by simp }
  | writing out chunk =>
      have hwrites := hs.writes i _ out hi rfl
      obtain ⟨⟨fs₁, next⟩, hflush⟩ : ∃ flushed, Writer.flush s.fs { out with buffer := out.buffer ++ chunk } count =
        flushed := ⟨_, rfl⟩
      obtain ⟨hways, hothers, hfound, hbound, hrest⟩ := hwrites.flush (out.buffer ++ chunk) out.unread count rfl fs₁
        next hflush
      have hcount := hwrites.count
      simp only [UploadPc.resume, hflush, Option.some.injEq, Prod.mk.injEq] at h
      obtain ⟨rfl, rfl⟩ := h
      have hnext := congrArg Prod.snd hflush
      simp only [Writer.flush] at hnext
      subst hnext
      refine hs.goesOn _ hi rfl rfl rfl hways hothers ?_
      exact {
        found := hfound
        bound := hbound
        rest := by simpa [UploadPc.chunk] using hrest
        count := by simpa [UploadPc.chunk] using hcount
        closed := by simp
        ended := by simp }
  | closing out =>
      have hwrites := hs.writes i _ out hi rfl
      have hunread := hwrites.closed (.inl rfl)
      obtain ⟨⟨fs₁, next⟩, hflush⟩ : ∃ flushed, Writer.flush s.fs out out.buffer.length = flushed := ⟨_, rfl⟩
      obtain ⟨hways, hothers, hfound, hbound, hrest⟩ := hwrites.flush out.buffer [] out.buffer.length
        (by simp [UploadPc.chunk, hunread]) fs₁ next hflush
      have hcount := hwrites.count
      simp only [UploadPc.resume, hflush, Option.some.injEq, Prod.mk.injEq] at h
      obtain ⟨rfl, rfl⟩ := h
      have hnext := congrArg Prod.snd hflush
      simp only [Writer.flush] at hnext
      subst hnext
      refine hs.goesOn _ hi rfl rfl rfl hways hothers ?_
      exact {
        found := hfound
        bound := hbound
        rest := by simpa [UploadPc.chunk, hunread] using hrest
        count := by simpa [UploadPc.chunk] using hcount
        closed := by simp [hunread]
        ended := by simp }
  | returned out | raised e => cases h

theorem inv_step (s : UploadSystem) (a : UploadAction) (t : UploadSystem) (hs : s.Inv disk before)
    (hopens : s.OpensNothing disk a = true) (h : s.step disk baseDir a = some t) : t.Inv disk before := by
  cases a with
  | start call =>
      cases h
      exact hs.join (entry_writer s.fs call)
  | resume i count =>
      obtain ⟨task, hi, hmap⟩ := Option.bind_eq_some_iff.mp h
      obtain ⟨⟨fs', pc'⟩, hresume, rfl⟩ := Option.map_eq_some_iff.mp hmap
      exact inv_resume hs task.call task.pc pc' count hi hopens hresume

/-- In a run in which every file is opened where nothing is, the uploads keep apart. -/
theorem uploads_separate (disk : Disk Bytes) (baseDir : List String) (before : FileSystem Bytes)
    (actions : List UploadAction)
    (hopens : Guarded (step disk baseDir) (fun s a => s.OpensNothing disk a = true) (start before) actions) :
    Throughout (step disk baseDir) (Separate disk before) (start before) actions :=
  throughout_of_guarded (step disk baseDir) (fun s a => s.OpensNothing disk a = true) (Inv disk before)
    (Separate disk before) (fun _ hs => hs.separate) inv_step (inv_start before) hopens

/-- A new file and one that is renamed, side by side. -/
def twoNames : List UploadAction :=
  [.start ⟨"", ⟨"b.txt", [7, 8]⟩, false⟩, .start ⟨"", ⟨"x.txt", [9]⟩, true⟩, .resume 0 0, .resume 1 0, .resume 1 0,
    .resume 0 0, .resume 0 1, .resume 1 0, .resume 1 0, .resume 0 0, .resume 1 0, .resume 0 0]

theorem uploads_separate_twoNames :
    Throughout (step draftDisk ["srv"]) (Separate draftDisk draftShare) (start draftShare) twoNames :=
  uploads_separate draftDisk ["srv"] draftShare twoNames (by decide +kernel)

/-- Both uploads find the name free before either of them opens it. -/
def sameName : List UploadAction :=
  [.start ⟨"", ⟨"b.txt", [7, 8]⟩, false⟩, .start ⟨"", ⟨"b.txt", [9]⟩, false⟩, .resume 0 0, .resume 0 0, .resume 0 0,
    .resume 0 0, .resume 0 0, .resume 1 0, .resume 1 0, .resume 1 0, .resume 1 0, .resume 1 0]

/-- Both calls report `b.txt`, and the bytes of the first are gone. -/
theorem not_separate_sameName :
    ∃ s, run (step draftDisk ["srv"]) (start draftShare) sameName = some s ∧ s.AllFinished ∧
      ¬Separate draftDisk draftShare s := by
  have hrun : (run (step draftDisk ["srv"]) (start draftShare) sameName).map (fun s => s.tasks.map UploadTask.pc) =
      some [.returned ⟨["srv"], "b.txt", ["srv", "b.txt"], 2, [], [], 2⟩,
        .returned ⟨["srv"], "b.txt", ["srv", "b.txt"], 1, [], [], 1⟩] := by decide +kernel
  obtain ⟨s, hs, htasks⟩ := Option.map_eq_some_iff.mp hrun
  obtain ⟨task, rest, hcons, hfirst, hrest⟩ := List.map_eq_cons_iff.mp htasks
  obtain ⟨task', rest', rfl, hsecond, hnil⟩ := List.map_eq_cons_iff.mp hrest
  obtain rfl := List.map_eq_nil_iff.mp hnil
  refine ⟨s, hs, ?_, ?_⟩
  · intro other hother
    rw [hcons, List.mem_cons, List.mem_singleton] at hother
    rcases hother with rfl | rfl
    · rw [hfirst]
      rfl
    · rw [hsecond]
      rfl
  · intro hseparate
    exact hseparate.distinct 0 1 task task' ["srv"] (uploadResult "b.txt" 2 false)
      (uploadResult "b.txt" 1 false) (by decide)
      (by rw [hcons]; rfl) (by rw [hcons]; rfl) ⟨_, hfirst, rfl, rfl⟩ ⟨_, hsecond, rfl, rfl⟩ rfl

end UploadSystem

end NetworkFileServer.Server.FileService
