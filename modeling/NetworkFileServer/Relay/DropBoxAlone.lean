import NetworkFileServer.Relay.DropBoxRecords

/-!
# The drop box, one operation at a time

A request, a sweep or a start that nothing else interrupts goes through its awaits and ends with the files
and rows that the operation has in one go. The content of an uploaded file is the number of its request
here.
-/

namespace NetworkFileServer.Relay.DropBox

open Server Server.FileService FileM

def store (s : DropBox) : TtlStore (Option Nat) := ⟨s.fs, s.table⟩

section

variable (disk : Disk (Option Nat)) (dropboxDir : List String) (dropboxCode : Code)

theorem step_of_later (s : DropBox) (now : Int) (a : DropBoxAction) (hup : s.up = true)
    (hnow : s.clock ≤ now) : s.step disk dropboxDir dropboxCode (now, a) =
      { s with clock := now }.act disk dropboxDir dropboxCode now a := by
  have hlate : ¬now < s.clock := not_lt.mpr hnow
  simp [step, hlate, hup]

theorem removeExpired_error (refuses : Bool) (row : FileTtlRow) (fs : FileSystem (Option Nat)) (e : OsError)
    (h : (removeExpired disk dropboxDir refuses row fs).result = .error e) :
    (removeExpired disk dropboxDir refuses row fs).fs = fs := by
  obtain ⟨hfs, hresult⟩ := removeExpired_outcome disk dropboxDir refuses row fs
  rw [hfs]
  split
  · rename_i hremoves
    rw [hresult, if_pos hremoves.1, hremoves.2] at h
    cases hremove : (FileM.remove disk.limits (fullPath dropboxDir row) fs).result with
    | error e' => exact FileM.remove_of_error _ _ _ e' hremove
    | ok _ =>
        rw [hremove] at h
        cases h
  · rfl

theorem bootRows_store (s : DropBox) (now : Int) (refuses : FileTtlRow → Bool) (rows : List FileTtlRow) :
    (s.bootRows disk dropboxDir now refuses rows).store =
      ⟨TtlStore.bootFiles disk dropboxDir refuses s.fs rows, s.table⟩ := by
  induction rows generalizing s with
  | nil => rfl
  | cons row rows ih =>
      cases hresult : (removeExpired disk dropboxDir (refuses row) row s.fs).result with
      | error e =>
          have hfs := removeExpired_error disk dropboxDir (refuses row) row s.fs e hresult
          simp only [bootRows, TtlStore.bootFiles, hresult, hfs]
          rfl
      | ok b =>
          simp only [bootRows, TtlStore.bootFiles, hresult]
          exact ih _

theorem boot_store (s : DropBox) (now : Int) (refuses : FileTtlRow → Bool) :
    (s.boot disk dropboxDir dropboxCode now refuses).store =
      s.store.bootCleanup disk dropboxDir dropboxCode now refuses :=
  bootRows_store disk dropboxDir _ now refuses _

/-- The sweep goes on, and nothing else does. -/
abbrev Sweeps (now : Int) (refuses : Bool) : DropBox → DropBox → Prop :=
  Relation.ReflTransGen fun s t => s.step disk dropboxDir dropboxCode (now, .sweep refuses) = some t

theorem sweepRows_alone (s : DropBox) (now : Int) (refuses : Bool) (rows : List FileTtlRow)
    (hup : s.up = true) (hclock : s.clock = now) :
    ∃ t, Sweeps disk dropboxDir dropboxCode now refuses
        (s.sweepRows disk dropboxDir dropboxCode now refuses rows) t ∧ t.sweep = .idle ∧
      t.store = rows.foldl (TtlStore.sweepRow disk dropboxDir dropboxCode fun _ => refuses) s.store := by
  induction rows generalizing s with
  | nil => exact ⟨_, .refl, rfl, rfl⟩
  | cons row rows ih =>
      let removed := if row.mountCode = dropboxCode then s.removeRow disk dropboxDir now refuses row else s
      let deleting : DropBox := { removed with sweep := .deleting row rows }
      let deleted : DropBox := { deleting with
        table := removed.table.deleteRecord row.mountCode row.filePath, sweep := .committing rows }
      have hsame : removed.up = true ∧ removed.clock = now ∧ removed.table = s.table ∧
          removed.fs = if row.mountCode = dropboxCode then (removeExpired disk dropboxDir refuses row s.fs).fs
            else s.fs := by
        by_cases hcode : row.mountCode = dropboxCode
        · have hremoved : removed = s.removeRow disk dropboxDir now refuses row := if_pos hcode
          rw [hremoved, if_pos hcode]
          exact ⟨hup, hclock, rfl, rfl⟩
        · have hremoved : removed = s := if_neg hcode
          rw [hremoved, if_neg hcode]
          exact ⟨hup, hclock, rfl, rfl⟩
      obtain ⟨hremovedUp, hremovedClock, htable, hfs⟩ := hsame
      have hstore : deleted.store =
          TtlStore.sweepRow disk dropboxDir dropboxCode (fun _ => refuses) s.store row := by
        change TtlStore.mk removed.fs (removed.table.deleteRecord _ _) = _
        rw [hfs, htable]
        rfl
      have hfirst : s.sweepRows disk dropboxDir dropboxCode now refuses (row :: rows) = deleting := rfl
      have hdelete : deleting.step disk dropboxDir dropboxCode (now, .sweep refuses) = some deleted := by
        rw [step_of_later disk dropboxDir dropboxCode deleting now _ hremovedUp hremovedClock.le,
          ← hremovedClock]
        rfl
      have hcommit : deleted.step disk dropboxDir dropboxCode (now, .sweep refuses) =
          some (deleted.sweepRows disk dropboxDir dropboxCode now refuses rows) := by
        rw [step_of_later disk dropboxDir dropboxCode deleted now _ hremovedUp hremovedClock.le,
          ← hremovedClock]
        rfl
      obtain ⟨t, ht, hidle, hrest⟩ := ih deleted hremovedUp hremovedClock
      rw [hfirst]
      refine ⟨t, .head hdelete (.head hcommit ht), hidle, ?_⟩
      rw [hrest, hstore, List.foldl_cons]

theorem sweep_alone (s : DropBox) (now : Int) (refuses : Bool) (hup : s.up = true) (hnow : s.clock ≤ now)
    (hidle : s.sweep = .idle) :
    ∃ n t, TransitionSystem.run (step disk dropboxDir dropboxCode) s
        (List.replicate n (now, .sweep refuses)) = some t ∧ t.sweep = .idle ∧
      t.store = s.store.sweepOnce disk dropboxDir dropboxCode now fun _ => refuses := by
  let selecting : DropBox := { s with clock := now, sweep := .selecting now }
  have hbegin : s.step disk dropboxDir dropboxCode (now, .sweep refuses) = some selecting := by
    rw [step_of_later disk dropboxDir dropboxCode s now _ hup hnow]
    simp [act, resumeSweep, hidle, selecting]
  have hselect : selecting.step disk dropboxDir dropboxCode (now, .sweep refuses) =
      some (selecting.sweepRows disk dropboxDir dropboxCode now refuses (s.table.getExpired now)) := by
    rw [step_of_later disk dropboxDir dropboxCode selecting now _ hup le_rfl]
    rfl
  obtain ⟨t, ht, hend, hstore⟩ := sweepRows_alone disk dropboxDir dropboxCode selecting now refuses
    (s.table.getExpired now) hup rfl
  obtain ⟨n, hrun⟩ := TransitionSystem.exists_run_replicate (step disk dropboxDir dropboxCode)
    (now, .sweep refuses) (.head hbegin (.head hselect ht))
  exact ⟨n, t, hrun, hend, hstore⟩

/-- The file is written, and takes the place of the one that it replaces. -/
def writeOut (content : Option Nat) (w : Writing) : FileM (Option Nat) FileError UploadResult := do
  let bytesWritten ← writeUploadChunks disk ⟨w.filename, content⟩ w.path
  finishWriting disk w
  pure (uploadResult w.filename bytesWritten false)

section Next

variable (input : UploadInput) (content : Option Nat) (fs : FileSystem (Option Nat))

theorem sameEnd_writeDirectly (targetDir : Location) (name : String) (upload : Upload (Option Nat)) :
    SameEnd (writeDirectly disk targetDir name upload fs)
      (writeOut disk upload.content ⟨targetDir, name, false⟩ fs) := by
  cases hwrite : (writeUploadChunks disk upload (targetDir ++ [name]) fs).result with
  | error e =>
      have hwrite' : (writeUploadChunks disk ⟨name, upload.content⟩
          (Writing.path ⟨targetDir, name, false⟩) fs).result = .error e := hwrite
      rw [writeDirectly, writeOut, bind_of_error _ _ _ e hwrite, bind_of_error _ _ _ e hwrite']
      exact ⟨rfl, rfl⟩
  | ok n =>
      have hwrite' : (writeUploadChunks disk ⟨name, upload.content⟩
          (Writing.path ⟨targetDir, name, false⟩)).Returns fs n
          (writeUploadChunks disk upload (targetDir ++ [name]) fs).fs := ⟨hwrite, rfl⟩
      rw [writeDirectly, writeOut, bind_of_ok _ _ _ n _ ⟨hwrite, rfl⟩, bind_of_ok _ _ _ n _ hwrite']
      exact ⟨rfl, rfl⟩

theorem writeOut_cases (w : Writing) :
    (∀ e, (FileM.writeFile disk.limits w.path content fs).result = .error e →
        SameEnd (writeOut disk content w fs)
          ⟨.error (.os e), (FileM.writeFile disk.limits w.path content fs).fs, []⟩) ∧
      ((FileM.writeFile disk.limits w.path content fs).result = .ok () →
        SameEnd (writeOut disk content w fs)
          ((finishWriting disk w >>= fun _ => pure (uploadResult w.filename (disk.size (.file content)) false))
            (FileM.writeFile disk.limits w.path content fs).fs)) := by
  constructor
  · intro e h
    have herror : ((FileM.writeFile disk.limits w.path content).mapError FileError.os fs).result =
        .error (.os e) := by
      simp [mapError, h, Except.mapError]
    have hchunks : SameEnd (writeUploadChunks disk ⟨w.filename, content⟩ w.path fs) _ :=
      sameEnd_bind_of_error _ _ fs _ herror
    exact (sameEnd_bind_of_error _ _ fs _ hchunks.2).trans ⟨hchunks.1, rfl⟩
  · intro h
    have hwritten : ((FileM.writeFile disk.limits w.path content).mapError FileError.os).Returns fs ()
        (FileM.writeFile disk.limits w.path content fs).fs :=
      (returns_mapError _ _ _ _ _).mpr ⟨h, rfl⟩
    have hchunks : SameEnd (writeUploadChunks disk ⟨w.filename, content⟩ w.path fs) _ :=
      sameEnd_bind_of_ok _ _ fs _ _ hwritten
    exact sameEnd_bind_of_ok _ _ fs _ _ ⟨hchunks.2, hchunks.1⟩

theorem nextWrite_cases (targetDir : Location) (file : String) (rest names : List String)
    (goOn : FileM (Option Nat) FileError NextFile) (hres : fs.Resolved targetDir) :
    (∃ e, SameEnd (nextWrite disk input targetDir file rest names goOn fs) ⟨.error e, fs, []⟩ ∧
        SameEnd (storeUpload disk targetDir file ⟨file, content⟩ input.conflictResolution fs)
          ⟨.error e, fs, []⟩) ∨
      (∃ r, r.name = file ∧
        SameEnd (storeUpload disk targetDir file ⟨file, content⟩ input.conflictResolution fs)
          ⟨.ok r, fs, []⟩ ∧
        SameEnd (nextWrite disk input targetDir file rest names goOn fs) (goOn fs)) ∨
      ∃ w, SameEnd (nextWrite disk input targetDir file rest names goOn fs)
          ⟨.ok (.writes w rest names), fs, []⟩ ∧
        SameEnd (storeUpload disk targetDir file ⟨file, content⟩ input.conflictResolution fs)
          (writeOut disk content w fs) := by
  have hexists : (FileM.pathExists disk.limits (targetDir ++ [file]) :
      FileM (Option Nat) FileError Bool).Returns fs
      (fs.locate disk.limits (targetDir ++ [file])).isSome fs := by
    simp
  have hstore : SameEnd (storeUpload disk targetDir file ⟨file, content⟩ input.conflictResolution fs) _ :=
    sameEnd_bind_of_ok _ _ fs _ _ hexists
  have hnext : SameEnd (nextWrite disk input targetDir file rest names goOn fs) _ :=
    sameEnd_bind_of_ok _ _ fs _ _ hexists
  cases htaken : (fs.locate disk.limits (targetDir ++ [file])).isSome with
  | false =>
      simp only [htaken, Bool.false_eq_true, if_false] at hstore hnext
      have hreplaces : (overwrites disk targetDir file input.conflictResolution).Returns fs false fs := by
        have hreturns := overwrites_returns disk fs targetDir input.conflictResolution file
        simpa [Taken, htaken] using hreturns
      have hwrite := hstore.trans (sameEnd_bind_of_ok _ _ fs _ _ hreplaces)
      exact .inr (.inr ⟨_, hnext, hwrite.trans (sameEnd_writeDirectly disk fs targetDir file _)⟩)
  | true =>
      simp only [htaken, if_true] at hstore hnext
      cases hconflict : input.conflictResolution with
      | none =>
          simp only [hconflict] at hstore hnext
          exact .inl ⟨_, hnext, hstore⟩
      | some cr =>
          cases cr with
          | skip =>
              simp only [hconflict] at hstore hnext
              obtain ⟨⟨l, node⟩, hfound⟩ := Option.isSome_iff_exists.mp htaken
              have hstat : ((FileM.stat disk.limits (targetDir ++ [file])).mapError FileError.os).Returns fs
                  node fs := by
                simp [hfound]
              exact .inr (.inl ⟨_, rfl, hstore.trans (sameEnd_bind_of_ok _ _ fs _ _ hstat), hnext⟩)
          | rename =>
              simp only [hconflict] at hstore hnext
              have hobjects : (FileM.objectCount : FileM (Option Nat) FileError Nat).Returns fs
                  fs.tree.length fs := by
                simp
              obtain ⟨newName, hfree⟩ := freeName_returns disk fs targetDir file hres
              have hreplaces : (overwrites disk targetDir newName (some .rename)).Returns fs false fs := by
                simp [overwrites]
              have hnamed := (hnext.trans (sameEnd_bind_of_ok _ _ fs _ _ hobjects)).trans
                (sameEnd_bind_of_ok _ _ fs _ _ hfree)
              have hwrite := ((hstore.trans (sameEnd_bind_of_ok _ _ fs _ _ hobjects)).trans
                (sameEnd_bind_of_ok _ _ fs _ _ hfree)).trans (sameEnd_bind_of_ok _ _ fs _ _ hreplaces)
              exact .inr (.inr ⟨_, hnamed,
                hwrite.trans (sameEnd_writeDirectly disk fs targetDir newName _)⟩)
          | overwrite =>
              simp only [hconflict] at hstore hnext
              have hreplaces : (overwrites disk targetDir file (some .overwrite)).Returns fs true fs := by
                simp [overwrites, htaken]
              have hwrite := hstore.trans (sameEnd_bind_of_ok _ _ fs _ _ hreplaces)
              exact .inr (.inr ⟨_, hnext, hwrite⟩)

/-- What the loop over the files comes to, beside what `upload_file` does with the next file. -/
theorem nextFile_cases (file : String) (rest names : List String) :
    (∃ e, SameEnd (nextFile disk dropboxDir input (file :: rest) names fs) ⟨.error e, fs, []⟩ ∧
        SameEnd (uploadFile disk dropboxDir input.path ⟨file, content⟩ input.conflictResolution fs)
          ⟨.error e, fs, []⟩) ∨
      (∃ r, SameEnd (uploadFile disk dropboxDir input.path ⟨file, content⟩ input.conflictResolution fs)
          ⟨.ok r, fs, []⟩ ∧
        SameEnd (nextFile disk dropboxDir input (file :: rest) names fs)
          (nextFile disk dropboxDir input rest (names ++ [r.name]) fs)) ∨
      ∃ w, SameEnd (nextFile disk dropboxDir input (file :: rest) names fs)
          ⟨.ok (.writes w rest names), fs, []⟩ ∧
        SameEnd (uploadFile disk dropboxDir input.path ⟨file, content⟩ input.conflictResolution fs)
          (writeOut disk content w fs) := by
  have hkeeps := resolveSafePath_keeps disk dropboxDir input.path fs
  cases hguard : (resolveSafePath disk dropboxDir input.path fs).result with
  | error e =>
      refine .inl ⟨e, ?_, ?_⟩
      · exact (sameEnd_bind_of_error _ _ fs e hguard).trans ⟨hkeeps, rfl⟩
      · exact (sameEnd_bind_of_error _ _ fs e hguard).trans ⟨hkeeps, rfl⟩
  | ok targetDir =>
      have hpath : SafePath disk fs dropboxDir input.path targetDir := ⟨hguard, hkeeps⟩
      have hnext : SameEnd (nextFile disk dropboxDir input (file :: rest) names fs) _ :=
        sameEnd_bind_of_ok _ _ fs _ _ hpath
      have hupload : SameEnd (uploadFile disk dropboxDir input.path ⟨file, content⟩
          input.conflictResolution fs) _ :=
        sameEnd_bind_of_ok _ _ fs _ _ hpath
      cases hvalid : validateUploadFilename file with
      | error e =>
          have hlift : (liftExcept (validateUploadFilename file) fs :
              Outcome (Option Nat) FileError String).result = .error e := by
            rw [hvalid]
            rfl
          have hfs : (liftExcept (validateUploadFilename file) fs :
              Outcome (Option Nat) FileError String).fs = fs := keeps_liftExcept _ fs
          refine .inl ⟨e, ?_, ?_⟩
          · exact hnext.trans ((sameEnd_bind_of_error _ _ fs e hlift).trans ⟨hfs, rfl⟩)
          · exact hupload.trans ((sameEnd_bind_of_error _ _ fs e hlift).trans ⟨hfs, rfl⟩)
      | ok filename =>
          obtain rfl := validateUploadFilename_eq file filename hvalid
          have hlift : (liftExcept (validateUploadFilename filename) :
              FileM (Option Nat) FileError String).Returns fs filename fs := by
            rw [returns_liftExcept, hvalid]
            exact ⟨rfl, rfl⟩
          have hnamed := hnext.trans (sameEnd_bind_of_ok _ _ fs _ _ hlift)
          have hstored := hupload.trans (sameEnd_bind_of_ok _ _ fs _ _ hlift)
          rcases nextWrite_cases disk input content fs targetDir filename rest names
              (nextFile disk dropboxDir input rest (names ++ [filename])) hpath.resolved with
            ⟨e, hn, hs⟩ | ⟨r, hname, hs, hn⟩ | ⟨w, hn, hs⟩
          · exact .inl ⟨e, hnamed.trans hn, hstored.trans hs⟩
          · refine .inr (.inl ⟨r, hstored.trans hs, ?_⟩)
            rw [hname]
            exact hnamed.trans hn
          · exact .inr (.inr ⟨w, hnamed.trans hn, hstored.trans hs⟩)

end Next

/-- Only the request goes on. -/
abbrev Resumes (now : Int) (k : Nat) : DropBox → DropBox → Prop :=
  Relation.ReflTransGen fun s t => s.step disk dropboxDir dropboxCode (now, .resume k) = some t

theorem resume_step (s : DropBox) (now : Int) (k : Nat) (u : UploadState) (hup : s.up = true)
    (hclock : s.clock = now) (hu : s.requests[k]? = some u) :
    s.step disk dropboxDir dropboxCode (now, .resume k) =
      s.resumeUpload disk dropboxDir dropboxCode now k u := by
  have hsame : ({ s with clock := now } : DropBox) = s := by rw [← hclock]
  rw [step_of_later disk dropboxDir dropboxCode s now _ hup hclock.le, hsame, act, hu, Option.bind_some]

theorem setRequest_get (s : DropBox) (k : Nat) (u u' : UploadState) (hu : s.requests[k]? = some u) :
    (s.setRequest k u').requests[k]? = some u' :=
  List.getElem?_set_self (List.getElem?_eq_some_iff.mp hu).1

/-- The request has come to its end. -/
def Ended (s : DropBox) (k : Nat) : Prop :=
  ∃ u : UploadState, s.requests[k]? = some u ∧ (u.pc = .finished ∨ u.pc = .failed)

theorem record_alone (s : DropBox) (now : Int) (k : Nat) (u : UploadState) (names : List String)
    (hup : s.up = true) (hclock : s.clock = now) (hu : s.requests[k]? = some u)
    (hpc : u.pc = startRecord u.input now names) :
    ∃ t, Resumes disk dropboxDir dropboxCode now k s t ∧ t.Ended k ∧
      t.store = ⟨s.fs, if u.input.effectiveTtl > 0 then
          TtlStore.recordTtls dropboxCode u.input (fun _ => now) s.table names
        else s.table⟩ := by
  induction names generalizing s u with
  | nil =>
      refine ⟨s, .refl, ⟨u, hu, .inl hpc⟩, ?_⟩
      split <;> rfl
  | cons name names ih =>
      by_cases hpos : u.input.effectiveTtl > 0
      · rw [startRecord, if_neg (not_not.mpr hpos)] at hpc
        simp only [hpos, if_true] at ih ⊢
        by_cases hname : name = ""
        · rw [if_pos hname] at hpc
          obtain ⟨t, ht, hended, hstore⟩ := ih s u hup hclock hu hpc
          rw [if_pos hpos] at hstore
          refine ⟨t, ht, hended, ?_⟩
          rw [hstore, TtlStore.recordTtls, if_pos hname]
        · rw [if_neg hname] at hpc
          rw [TtlStore.recordTtls, if_neg hname, FileTtlTable.recordFileTtl]
          by_cases hfits : FileTtlTable.fitsFloat u.input.effectiveTtl = true
          · rw [if_neg (not_not.mpr hfits)] at hpc
            rw [FileTtlTable.expiryTime, if_pos hfits]
            let row : FileTtlRow :=
              ⟨dropboxCode, relKey u.input.path name, now + u.input.effectiveTtl, now⟩
            let inserted : DropBox := { s.setRequest k { u with pc := .committing names } with
              table := s.table.insertRow row
              recorded := s.recorded ++ [(row, k)] }
            have hinserted : inserted.requests[k]? = some { u with pc := .committing names } :=
              setRequest_get s k u _ hu
            let next : UploadState := { u with pc := startRecord u.input now names }
            have hinsert : s.step disk dropboxDir dropboxCode (now, .resume k) = some inserted := by
              rw [resume_step disk dropboxDir dropboxCode s now k u hup hclock hu]
              simp only [resumeUpload, hpc, inserted, row]
            have hcommit : inserted.step disk dropboxDir dropboxCode (now, .resume k) =
                some (inserted.setRequest k next) := by
              rw [resume_step disk dropboxDir dropboxCode inserted now k _ hup hclock hinserted]
              rfl
            obtain ⟨t, ht, hended, hstore⟩ := ih (inserted.setRequest k next) next hup hclock
              (setRequest_get inserted k _ next hinserted) rfl
            rw [if_pos hpos] at hstore
            refine ⟨t, .head hinsert (.head hcommit ht), hended, ?_⟩
            rw [hstore]
            rfl
          · -- the `OverflowError` ends the request
            rw [if_pos hfits] at hpc
            rw [FileTtlTable.expiryTime, if_neg hfits]
            exact ⟨s, .refl, ⟨u, hu, .inr hpc⟩, rfl⟩
      · simp only [startRecord, hpos, not_false_eq_true, if_true] at hpc
        refine ⟨s, .refl, ⟨u, hu, .inl hpc⟩, ?_⟩
        rw [if_neg hpos]
        rfl

/-- What is there when the loop over the files has ended and `names` were reported before. -/
def afterStoring (input : UploadInput) (now : Int) (table : FileTtlTable) (names : List String)
    (stored : Outcome (Option Nat) FileError (List UploadResult)) : TtlStore (Option Nat) :=
  match stored.result with
  | .error _ => ⟨stored.fs, table⟩
  | .ok results =>
      ⟨stored.fs, if input.effectiveTtl > 0 then
          TtlStore.recordTtls dropboxCode input (fun _ => now) table (names ++ results.map fun r => r.name)
        else table⟩

section Storing

variable (input : UploadInput) (content : Option Nat) (now : Int) (table : FileTtlTable)
  (names : List String) (fs fs' : FileSystem (Option Nat)) (file : String) (rest : List String)

theorem afterStoring_of_error (e : FileError)
    (h : (uploadFile disk dropboxDir input.path ⟨file, content⟩ input.conflictResolution fs).result =
      .error e) :
    afterStoring dropboxCode input now table names
        (TtlStore.storeFiles disk dropboxDir input content (file :: rest) fs) =
      ⟨(uploadFile disk dropboxDir input.path ⟨file, content⟩ input.conflictResolution fs).fs,
        table⟩ := by
  have hloop : SameEnd (TtlStore.storeFiles disk dropboxDir input content (file :: rest) fs) _ :=
    sameEnd_bind_of_error _ _ fs e h
  rw [afterStoring, hloop.2]
  simp only [hloop.1]

theorem afterStoring_of_returns (r : UploadResult)
    (h : (uploadFile disk dropboxDir input.path ⟨file, content⟩ input.conflictResolution).Returns fs r
      fs') :
    afterStoring dropboxCode input now table names
        (TtlStore.storeFiles disk dropboxDir input content (file :: rest) fs) =
      afterStoring dropboxCode input now table (names ++ [r.name])
        (TtlStore.storeFiles disk dropboxDir input content rest fs') := by
  have hloop : SameEnd (TtlStore.storeFiles disk dropboxDir input content (file :: rest) fs) _ :=
    sameEnd_bind_of_ok _ _ fs _ _ h
  cases hrest : (TtlStore.storeFiles disk dropboxDir input content rest fs').result with
  | error e =>
      have hend := hloop.trans (sameEnd_bind_of_error _ _ fs' e hrest)
      simp only [afterStoring, hend.1, hend.2, hrest]
      rfl
  | ok results =>
      have hend := hloop.trans (sameEnd_bind_of_ok _ _ fs' results _ ⟨hrest, rfl⟩)
      have hresult : (TtlStore.storeFiles disk dropboxDir input content (file :: rest) fs).result =
          .ok (r :: results) := hend.2
      have hfs : (TtlStore.storeFiles disk dropboxDir input content (file :: rest) fs).fs =
          (TtlStore.storeFiles disk dropboxDir input content rest fs').fs := hend.1
      simp only [afterStoring, hresult, hfs, hrest, List.map_cons, List.append_assoc, List.singleton_append]

end Storing

theorem continueUpload_congr (s : DropBox) (now : Int) (k : Nat) (u : UploadState)
    (next next' : Outcome (Option Nat) FileError NextFile) (h : SameEnd next next') :
    s.continueUpload now k u next = s.continueUpload now k u next' := by
  simp only [continueUpload, h.1, h.2]

theorem write_alone (s : DropBox) (now : Int) (k : Nat) (u : UploadState) (w : Writing)
    (rest names : List String) (hup : s.up = true) (hclock : s.clock = now) (hu : s.requests[k]? = some u)
    (hpc : u.pc = .opening w rest names) :
    (∃ e, (writeOut disk (some k) w s.fs).result = .error e ∧
        ∃ t, Resumes disk dropboxDir dropboxCode now k s t ∧ t.Ended k ∧
          t.store = ⟨(writeOut disk (some k) w s.fs).fs, s.table⟩) ∨
      ∃ (r : UploadResult) (t : DropBox) (u' : UploadState), (writeOut disk (some k) w s.fs).result = .ok r ∧
        Resumes disk dropboxDir dropboxCode now k s
          (t.continueUpload now k u' (nextFile disk dropboxDir u.input rest (names ++ [r.name]) t.fs)) ∧
        t.store = ⟨(writeOut disk (some k) w s.fs).fs, s.table⟩ ∧ t.up = true ∧ t.clock = now ∧
        t.requests[k]? = some u' ∧ u'.input = u.input := by
  let opened := FileM.writeFile disk.limits w.path (some k) s.fs
  have hstart := resume_step disk dropboxDir dropboxCode s now k u hup hclock hu
  obtain ⟨hfails, hwrites⟩ := writeOut_cases disk (some k) s.fs w
  have hopen : FileM.writeFile disk.limits w.path (some k) s.fs = opened := rfl
  cases hopened : opened.result with
  | error e =>
      left
      let failed : DropBox := ({ s with fs := opened.fs }).setRequest k { u with pc := .failed }
      have hfailed : failed.requests[k]? = some { u with pc := .failed } :=
        setRequest_get { s with fs := opened.fs } k u _ hu
      have hstep : s.step disk dropboxDir dropboxCode (now, .resume k) = some failed := by
        rw [hstart]
        simp only [resumeUpload, hpc, hopen, hopened, failed]
      obtain ⟨hfs, hresult⟩ := hfails e hopened
      refine ⟨_, hresult, failed, .single hstep, ⟨_, hfailed, .inr rfl⟩, ?_⟩
      rw [hfs]
      rfl
  | ok _ =>
      let writing : UploadState := { u with pc := .writing w rest names }
      let written : DropBox := ({ s with fs := opened.fs }).setRequest k writing
      have hwritten : written.requests[k]? = some writing :=
        setRequest_get { s with fs := opened.fs } k u writing hu
      have hstep : s.step disk dropboxDir dropboxCode (now, .resume k) = some written := by
        rw [hstart]
        simp only [resumeUpload, hpc, hopen, hopened, written, writing]
      have hwrite := hwrites hopened
      let goOn : FileM (Option Nat) FileError NextFile := do
        finishWriting disk w
        nextFile disk dropboxDir u.input rest (names ++ [w.filename])
      have hcontinue : written.step disk dropboxDir dropboxCode (now, .resume k) =
          some (written.continueUpload now k writing (goOn opened.fs)) :=
        resume_step disk dropboxDir dropboxCode written now k writing hup hclock hwritten
      cases hfinish : (finishWriting disk w opened.fs).result with
      | error e =>
          left
          obtain ⟨hfs, hresult⟩ := hwrite.trans (sameEnd_bind_of_error _ _ opened.fs e hfinish)
          have hnext : SameEnd (goOn opened.fs) _ := sameEnd_bind_of_error _ _ opened.fs e hfinish
          rw [continueUpload_congr written now k writing _ _ hnext] at hcontinue
          refine ⟨_, hresult, _, .head hstep (.single hcontinue),
            ⟨_, setRequest_get written k writing { writing with pc := .failed } hwritten, .inr rfl⟩, ?_⟩
          rw [hfs]
          rfl
      | ok _ =>
          right
          obtain ⟨hfs, hresult⟩ := hwrite.trans (sameEnd_bind_of_ok _ _ opened.fs () _ ⟨hfinish, rfl⟩)
          have hnext : SameEnd (goOn opened.fs) _ :=
            sameEnd_bind_of_ok _ _ opened.fs () _ ⟨hfinish, rfl⟩
          rw [continueUpload_congr written now k writing _ _ hnext] at hcontinue
          let finished : DropBox := { written with fs := (finishWriting disk w opened.fs).fs }
          refine ⟨_, finished, writing, hresult, .head hstep (.single hcontinue), ?_, hup, hclock, hwritten,
            rfl⟩
          rw [hfs]
          rfl

theorem store_alone (s : DropBox) (now : Int) (k : Nat) (u : UploadState) (files names : List String)
    (hup : s.up = true) (hclock : s.clock = now) (hu : s.requests[k]? = some u) :
    ∃ t, Resumes disk dropboxDir dropboxCode now k
        (s.continueUpload now k u (nextFile disk dropboxDir u.input files names s.fs)) t ∧ t.Ended k ∧
      t.store = afterStoring dropboxCode u.input now s.table names
        (TtlStore.storeFiles disk dropboxDir u.input (some k) files s.fs) := by
  induction files generalizing s u names with
  | nil =>
      let stored : UploadState :=
        { u with pc := startRecord u.input now names, storedAt := some now }
      obtain ⟨t, ht, hended, hstore⟩ := record_alone disk dropboxDir dropboxCode (s.setRequest k stored) now
        k stored names hup hclock (setRequest_get s k u stored hu) rfl
      refine ⟨t, ht, hended, hstore.trans ?_⟩
      simp only [afterStoring, TtlStore.storeFiles, FileM.forEach]
      change _ = TtlStore.mk s.fs (if _ then TtlStore.recordTtls _ _ _ _ (names ++ []) else _)
      rw [List.append_nil]
      rfl
  | cons file rest ih =>
      rcases nextFile_cases disk dropboxDir u.input (some k) s.fs file rest names with
        ⟨e, hnext, hupload⟩ | ⟨r, hupload, hnext⟩ | ⟨w, hnext, hupload⟩
      · -- the file is refused
        rw [continueUpload_congr s now k u _ _ hnext]
        refine ⟨_, .refl, ⟨_, setRequest_get s k u { u with pc := .failed } hu, .inr rfl⟩, ?_⟩
        rw [afterStoring_of_error disk dropboxDir dropboxCode u.input (some k) now s.table names s.fs file
          rest e hupload.2, hupload.1]
        rfl
      · -- the file is skipped
        rw [continueUpload_congr s now k u _ _ hnext, afterStoring_of_returns disk dropboxDir dropboxCode
          u.input (some k) now s.table names s.fs s.fs file rest r ⟨hupload.2, hupload.1⟩]
        exact ih s u (names ++ [r.name]) hup hclock hu
      · -- the file is written
        rw [continueUpload_congr s now k u _ _ hnext]
        let opening : UploadState := { u with pc := .opening w rest names }
        rcases write_alone disk dropboxDir dropboxCode (s.setRequest k opening) now k opening w rest names hup
            hclock (setRequest_get s k u opening hu) rfl with
          ⟨e, hresult, t, ht, hended, hstore⟩ | ⟨r, t, u', hresult, ht, hstore, hup', hclock', hu', hinput⟩
        · have herror := hupload.2.trans hresult
          refine ⟨t, ht, hended, hstore.trans ?_⟩
          rw [afterStoring_of_error disk dropboxDir dropboxCode u.input (some k) now s.table names s.fs file
            rest e herror, hupload.1]
          rfl
        · obtain ⟨final, hfinal, hended, hend⟩ := ih t u' (names ++ [r.name]) hup' hclock' hu'
          rw [hinput] at hfinal hend
          refine ⟨final, ht.trans hfinal, hended, ?_⟩
          rw [hend, afterStoring_of_returns disk dropboxDir dropboxCode u.input (some k) now s.table names s.fs
            _ file rest r ⟨hupload.2.trans hresult, hupload.1⟩]
          have hfs : t.fs = (writeOut disk (some k) w s.fs).fs := congrArg TtlStore.fs hstore
          have htable : t.table = s.table := congrArg TtlStore.table hstore
          rw [hfs, htable]

theorem upload_alone (s : DropBox) (now : Int) (input : UploadInput) (hup : s.up = true)
    (hnow : s.clock ≤ now) :
    ∃ n t, TransitionSystem.run (step disk dropboxDir dropboxCode) s
        ((now, .upload input) :: List.replicate n (now, .resume s.requests.length)) = some t ∧
      t.Ended s.requests.length ∧
      t.store = s.store.uploadFiles disk dropboxDir dropboxCode input (some s.requests.length)
        fun _ => now := by
  let fresh : UploadState := ⟨input, .starting, none⟩
  let begun : DropBox := { s with clock := now, requests := s.requests ++ [fresh] }
  have hfresh : begun.requests[s.requests.length]? = some fresh := by
    simp [begun]
  have hbegin : s.step disk dropboxDir dropboxCode (now, .upload input) = some begun := by
    rw [step_of_later disk dropboxDir dropboxCode s now _ hup hnow]
    rfl
  have hreceived : begun.step disk dropboxDir dropboxCode (now, .resume s.requests.length) =
      some (begun.continueUpload now s.requests.length fresh
        (nextFile disk dropboxDir input input.filenames [] s.fs)) :=
    resume_step disk dropboxDir dropboxCode begun now _ fresh hup rfl hfresh
  obtain ⟨t, ht, hended, hstore⟩ := store_alone disk dropboxDir dropboxCode begun now s.requests.length
    fresh input.filenames [] hup rfl hfresh
  obtain ⟨n, hrun⟩ := TransitionSystem.exists_run_replicate (step disk dropboxDir dropboxCode)
    (now, .resume s.requests.length) (.head hreceived ht)
  refine ⟨n, t, (TransitionSystem.run_cons_eq_some _ _ _ _ _).mpr ⟨begun, hbegin, hrun⟩, hended, ?_⟩
  rw [hstore]
  rfl

end

end NetworkFileServer.Relay.DropBox
