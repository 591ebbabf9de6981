import NetworkFileServer.Client.UploadEntries

/-!
# Where the uploads go

`processUpload` sends an entry to the `currentPath` of the commit whose effect takes it up. An entry that has to
wait for a slot, or is queued again after a conflict or a failure, goes to the folder that is shown by then.

To compare the two, each file is handed to the hook together with the folder that is shown when it is dropped. The
hook carries its files along without looking at them, so that its runs are the same with the folder and without.
-/

namespace NetworkFileServer.Client

open TransitionSystem

variable {F G : Type}

def UploadFileState.mapFile (f : F → G) (u : UploadFileState F) : UploadFileState G :=
  ⟨u.id, f u.file, u.status, u.progress, u.error, u.conflictAction⟩

def UploadUpdate.mapFile (f : F → G) : UploadUpdate F → UploadUpdate G
  | .update id patch => .update id patch
  | .append newEntries => .append (newEntries.map (UploadFileState.mapFile f))
  | .removeDone => .removeDone

def UploadInFlight.mapFile (f : F → G) (upload : UploadInFlight F) : UploadInFlight G :=
  ⟨upload.id, f upload.file, upload.targetPath, upload.conflictResolution, upload.ttl⟩

def UploadEvent.mapFile (f : F → G) : UploadEvent F → UploadEvent G
  | .uploadFiles files => .uploadFiles (files.map (Prod.map f id))
  | .progress i percent => .progress i percent
  | .settle i outcome => .settle i outcome
  | .resolveConflict action => .resolveConflict action
  | .retryFailed id => .retryFailed id
  | .clearCompleted => .clearCompleted
  | .commit props => .commit props
  | .effect twice => .effect twice

def UploadHook.mapFile (f : F → G) (s : UploadHook F) : UploadHook G where
  uploads := s.uploads.map (UploadFileState.mapFile f)
  props := s.props
  updates := s.updates.map (UploadUpdate.mapFile f)
  effectWaits := s.effectWaits
  activeCount := s.activeCount
  processingIds := s.processingIds
  inFlight := s.inFlight.map (UploadInFlight.mapFile f)
  nextUploadId := s.nextUploadId

theorem newEntries_map (f : F → G) (bound : Nat) (files : List (F × Nat)) :
    newEntries bound (files.map (Prod.map f id)) = (newEntries bound files).map (UploadFileState.mapFile f) := by
  induction files generalizing bound with
  | nil => rfl
  | cons file files ih =>
      simp only [List.map_cons, newEntries, Prod.map, ih]
      rfl

theorem UploadUpdate.apply_mapFile (f : F → G) (prev : List (UploadFileState F)) (update : UploadUpdate F) :
    (update.mapFile f).apply (prev.map (UploadFileState.mapFile f)) =
      (update.apply prev).map (UploadFileState.mapFile f) := by
  cases update with
  | update id patch =>
      simp only [UploadUpdate.mapFile, UploadUpdate.apply, List.map_map]
      apply List.map_congr_left
      intro u _
      have hid : (u.mapFile f).id = u.id := rfl
      simp only [Function.comp_apply, hid]
      split <;> rfl
  | append newEntries => simp only [UploadUpdate.mapFile, UploadUpdate.apply, List.map_append]
  | removeDone =>
      simp only [UploadUpdate.mapFile, UploadUpdate.apply, List.filter_map]
      rfl

theorem foldl_apply_mapFile (f : F → G) (updates : List (UploadUpdate F)) (prev : List (UploadFileState F)) :
    (updates.map (UploadUpdate.mapFile f)).foldl UploadUpdate.apply (prev.map (UploadFileState.mapFile f)) =
      (updates.foldl UploadUpdate.apply prev).map (UploadFileState.mapFile f) := by
  induction updates generalizing prev with
  | nil => rfl
  | cons update updates ih => rw [List.map_cons, List.foldl_cons, List.foldl_cons, UploadUpdate.apply_mapFile, ih]

namespace UploadHook

theorem setUploads_mapFile (f : F → G) (s : UploadHook F) (update : UploadUpdate F) :
    (s.mapFile f).setUploads (update.mapFile f) = (s.setUploads update).mapFile f := by
  simp [setUploads, mapFile]

theorem processUpload_mapFile (f : F → G) (s : UploadHook F) (entry : UploadFileState F) :
    (s.mapFile f).processUpload (entry.mapFile f) = (s.processUpload entry).mapFile f := by
  by_cases hmem : entry.id ∈ s.processingIds
  · rw [processUpload_of_mem hmem]
    exact processUpload_of_mem hmem
  · have hmem' : (entry.mapFile f).id ∉ (s.mapFile f).processingIds := hmem
    rw [processUpload_of_notMem hmem, processUpload_of_notMem hmem']
    simp [mapFile, UploadFileState.mapFile, UploadUpdate.mapFile, UploadInFlight.mapFile, call]

theorem runEffect_mapFile (f : F → G) (s : UploadHook F) : (s.mapFile f).runEffect = s.runEffect.mapFile f := by
  have htaken : (s.mapFile f).takenUp = s.takenUp.map (UploadFileState.mapFile f) := by
    simp only [takenUp, mapFile, List.filter_map, List.map_take]
    rfl
  have hfold : ∀ (entries : List (UploadFileState F)) (s : UploadHook F),
      (entries.map (UploadFileState.mapFile f)).foldl processUpload (s.mapFile f) =
        (entries.foldl processUpload s).mapFile f := by
    intro entries
    induction entries with
    | nil => exact fun s => rfl
    | cons entry entries ih =>
        intro s
        rw [List.map_cons, List.foldl_cons, List.foldl_cons, processUpload_mapFile, ih]
  rw [runEffect_eq, runEffect_eq, htaken, hfold]

theorem resolveConflict_mapFile (f : F → G) (s : UploadHook F) (action : ConflictAction) :
    (s.mapFile f).resolveConflict action = (s.resolveConflict action).mapFile f := by
  have hpending : (s.mapFile f).pendingConflict = s.pendingConflict.map (UploadFileState.mapFile f) := by
    simp only [pendingConflict, mapFile, List.find?_map]
    rfl
  unfold resolveConflict
  rw [hpending]
  cases s.pendingConflict with
  | none => rfl
  | some entry =>
      by_cases hskip : action = .skip
      · simp only [Option.map_some, if_pos hskip]
        exact setUploads_mapFile f s (.update entry.id _)
      · simp only [Option.map_some, if_neg hskip]
        exact setUploads_mapFile f s (.update entry.id _)

theorem step_mapFile (f : F → G) (s : UploadHook F) (e : UploadEvent F) :
    step (s.mapFile f) (e.mapFile f) = (step s e).map (UploadHook.mapFile f) := by
  cases e with
  | uploadFiles files =>
      simp only [UploadEvent.mapFile, step, Option.map_some, List.length_map]
      have hset := setUploads_mapFile f s (.append (newEntries s.nextUploadId files))
      simp only [UploadUpdate.mapFile, ← newEntries_map] at hset
      exact congrArg (fun t : UploadHook G => some { t with nextUploadId := s.nextUploadId + files.length }) hset
  | progress i percent =>
      simp only [UploadEvent.mapFile, step, mapFile, List.getElem?_map, Option.map_map]
      congr 1
      funext upload
      exact setUploads_mapFile f s (.update upload.id _)
  | settle i outcome =>
      simp only [UploadEvent.mapFile, step, Option.map_map]
      have hget : (s.mapFile f).inFlight[i]? = s.inFlight[i]?.map (UploadInFlight.mapFile f) := List.getElem?_map ..
      rw [hget, Option.map_map]
      congr 1
      funext upload
      simp [settle, mapFile, UploadInFlight.mapFile, List.eraseIdx_map, Function.comp_def, UploadUpdate.mapFile]
  | resolveConflict action => exact congrArg some (resolveConflict_mapFile f s action)
  | retryFailed id => exact congrArg some (setUploads_mapFile f s (.update id _))
  | clearCompleted => exact congrArg some (setUploads_mapFile f s .removeDone)
  | commit props =>
      cases hwaits : s.effectWaits with
      | true => simp [UploadEvent.mapFile, step, mapFile, hwaits]
      | false =>
          have hfold := foldl_apply_mapFile f s.updates s.uploads
          simp [UploadEvent.mapFile, step, mapFile, hwaits, hfold]
  | effect twice =>
      cases hwaits : s.effectWaits with
      | false => simp [UploadEvent.mapFile, step, mapFile, hwaits]
      | true =>
          have hrun := runEffect_mapFile f { s with effectWaits := false }
          have heffect : (s.mapFile f).effectWaits = true := hwaits
          simp only [UploadEvent.mapFile, step, hwaits, heffect, if_true, runEffect_runEffect, ite_self,
            Option.map_some]
          exact congrArg some hrun

end UploadHook

/-- A file with the folder that was shown when it was dropped. -/
structure DroppedFile (F : Type) where
  file : F
  droppedIn : String
deriving DecidableEq

namespace UploadHook

/-- A step of the hook, in which `uploadFiles` is given its files with the folder that is shown. -/
def dropStep (s : UploadHook (DroppedFile F)) (e : UploadEvent F) : Option (UploadHook (DroppedFile F)) :=
  s.step (e.mapFile fun file => ⟨file, s.props.currentPath⟩)

theorem dropStep_untag (s : UploadHook (DroppedFile F)) (e : UploadEvent F) :
    (dropStep s e).map (UploadHook.mapFile DroppedFile.file) = step (s.mapFile DroppedFile.file) e := by
  rw [dropStep, ← step_mapFile]
  congr 1
  cases e with
  | uploadFiles files =>
      simp only [UploadEvent.mapFile, List.map_map]
      congr 1
      exact List.map_id files
  | _ => rfl

theorem run_dropStep_untag (props : UploadProps) (nextUploadId : Nat) (events : List (UploadEvent F)) :
    (run dropStep (mount props nextUploadId) events).map (UploadHook.mapFile DroppedFile.file) =
      run step (mount props nextUploadId) events :=
  run_map dropStep step (UploadHook.mapFile DroppedFile.file) dropStep_untag (mount props nextUploadId) events

/-- Every call is for the folder in which the file was dropped. A call is in flight in the state after the effect that
makes it. -/
def GoesWhereDropped (s : UploadHook (DroppedFile F)) : Prop :=
  ∀ upload ∈ s.inFlight, upload.targetPath = upload.file.droppedIn

theorem inFlight_of_dropStep {s t : UploadHook (DroppedFile F)} {e : UploadEvent F} (h : dropStep s e = some t)
    (hs : s.IdsUnique) :
    (∃ twice, e = .effect twice ∧ t.inFlight = s.inFlight ++ s.started) ∨
      (∀ twice, e ≠ .effect twice) ∧ t.inFlight ⊆ s.inFlight := by
  rcases inFlight_of_step h hs.shown.nodup with ⟨twice, heq, hflight⟩ | ⟨hother, hflight⟩
  · left
    cases e <;> cases heq
    exact ⟨twice, rfl, hflight⟩
  · right
    refine ⟨?_, hflight⟩
    rintro twice rfl
    exact hother twice rfl

/-- The folder changes only while no entry is queued, and no entry of another folder is queued again. -/
def LeavesNothing (s : UploadHook (DroppedFile F)) : UploadEvent F → Prop
  | .commit props => props.currentPath ≠ s.props.currentPath → ∀ u ∈ s.latest, u.status ≠ .queued
  | .retryFailed id => ∀ u ∈ s.latest, u.id = id → u.file.droppedIn = s.props.currentPath
  | .resolveConflict action =>
      action ≠ .skip → ∀ entry ∈ s.pendingConflict, ∀ u ∈ s.latest, u.id = entry.id →
        u.file.droppedIn = s.props.currentPath
  | _ => True

instance decidableLeavesNothing (s : UploadHook (DroppedFile F)) (e : UploadEvent F) : Decidable (s.LeavesNothing e) :=
  match e with
  | .commit _ | .resolveConflict _ => inferInstanceAs (Decidable (_ → _))
  | .retryFailed id => inferInstanceAs (Decidable (∀ u ∈ s.latest, u.id = id → u.file.droppedIn = s.props.currentPath))
  | .uploadFiles _ | .progress _ _ | .settle _ _ | .clearCompleted | .effect _ => isTrue trivial

theorem LeavesNothing.requeue {s : UploadHook (DroppedFile F)} {e : UploadEvent F} (h : s.LeavesNothing e) {id : String}
    (hagain : s.Requeues id (e.mapFile fun file => ⟨file, s.props.currentPath⟩)) :
    ∀ u ∈ s.latest, u.id = id → u.file.droppedIn = s.props.currentPath := by
  cases e with
  | retryFailed id' =>
      obtain rfl : id' = id := hagain
      exact h
  | resolveConflict action =>
      obtain ⟨hskip, entry, hpending, rfl⟩ := hagain
      exact h hskip entry hpending
  | _ => exact hagain.elim

/-- The queued entries are at home in the folder. -/
def WaitIn (folder : String) (uploads : List (UploadFileState (DroppedFile F))) : Prop :=
  ∀ u ∈ uploads, u.status = .queued → u.file.droppedIn = folder

structure WaitInv (s : UploadHook (DroppedFile F)) : Prop where
  shown : WaitIn s.props.currentPath s.uploads
  due : WaitIn s.props.currentPath s.latest

theorem file_of_mem_newEntries {bound : Nat} {files : List (F × Nat)} {u : UploadFileState F}
    (hu : u ∈ newEntries bound files) : u.file ∈ files.map Prod.fst := by
  induction files generalizing bound with
  | nil => cases hu
  | cons file files ih =>
      rcases List.mem_cons.mp hu with rfl | hrest
      · exact List.mem_cons_self
      · exact List.mem_cons_of_mem _ (ih hrest)

theorem WaitIn.update {folder : String} {uploads : List (UploadFileState (DroppedFile F))} (h : WaitIn folder uploads)
    (id : String) (patch : UploadPatch)
    (hqueued : patch.status = some .queued → ∀ u ∈ uploads, u.id = id → u.file.droppedIn = folder) :
    WaitIn folder (UploadUpdate.apply uploads (.update id patch)) := by
  intro u hu hstatus
  obtain ⟨v, hv, rfl⟩ := List.mem_map.mp hu
  by_cases hid : v.id = id
  · rw [if_pos hid] at hstatus ⊢
    change v.file.droppedIn = folder
    cases hpatch : patch.status with
    | none => exact h v hv (by simpa [UploadPatch.apply, hpatch] using hstatus)
    | some status => exact hqueued (by simpa [UploadPatch.apply, hpatch] using hstatus) v hv hid
  · rw [if_neg hid] at hstatus ⊢
    exact h v hv hstatus

theorem WaitIn.foldl_update {folder : String} {uploads : List (UploadFileState (DroppedFile F))}
    {us : List (UploadUpdate (DroppedFile F))} (h : WaitIn folder uploads)
    (hus : ∀ update ∈ us, ∃ id patch, update = .update id patch ∧
      (patch.status = some .queued → ∀ u ∈ uploads, u.id = id → u.file.droppedIn = folder)) :
    WaitIn folder (us.foldl UploadUpdate.apply uploads) := by
  induction us generalizing uploads with
  | nil => exact h
  | cons update us ih =>
      obtain ⟨id, patch, rfl, hqueued⟩ := hus update List.mem_cons_self
      rw [List.foldl_cons]
      apply ih (h.update id patch hqueued)
      intro update' hupdate'
      obtain ⟨id', patch', heq, hqueued'⟩ := hus update' (List.mem_cons_of_mem _ hupdate')
      refine ⟨id', patch', heq, ?_⟩
      intro hstatus u hu hid
      -- a change keeps the id and the file
      obtain ⟨v, hv, rfl⟩ := List.mem_map.mp hu
      have hsame := hqueued' hstatus v hv
      by_cases hvid : v.id = id
      · rw [if_pos hvid] at hid ⊢
        exact hsame hid
      · rw [if_neg hvid] at hid ⊢
        exact hsame hid

theorem waitInv_step (s : UploadHook (DroppedFile F)) (e : UploadEvent F) (t : UploadHook (DroppedFile F))
    (hs : s.WaitInv) (hleaves : s.LeavesNothing e) (h : dropStep s e = some t) : t.WaitInv := by
  obtain ⟨event, hevent⟩ : ∃ event, event = e.mapFile fun file : F => DroppedFile.mk file s.props.currentPath :=
    ⟨_, rfl⟩
  have hentries : EntryStep s t event := hevent ▸ entryStep_of_step h
  cases hentries with
  | commit props huploads hlatest hprops _ =>
      have hdue : WaitIn t.props.currentPath s.latest := by
        by_cases hsame : props.currentPath = s.props.currentPath
        · rw [hprops, hsame]
          exact hs.due
        · have hcommit : e = .commit props := by
            cases e <;> cases hevent
            rfl
          intro u hu hqueued
          subst hcommit
          exact absurd hqueued (hleaves hsame u hu)
      exact ⟨huploads ▸ hdue, hlatest ▸ hdue⟩
  | add files huploads hupdates hprops _ =>
      refine ⟨by rw [hprops, huploads]; exact hs.shown, ?_⟩
      rw [hprops, latest_of_updates huploads hupdates]
      intro u hu hqueued
      rcases List.mem_append.mp hu with hold | hnew
      · exact hs.due u hold hqueued
      · have hfile := file_of_mem_newEntries hnew
        cases e with
        | uploadFiles dropped =>
            cases hevent
            simp only [List.map_map, List.mem_map] at hfile
            obtain ⟨file, -, heq⟩ := hfile
            rw [← heq]
            rfl
        | _ => cases hevent
  | clear huploads hupdates hprops _ =>
      refine ⟨by rw [hprops, huploads]; exact hs.shown, ?_⟩
      rw [hprops, latest_of_updates huploads hupdates]
      intro u hu hqueued
      exact hs.due u (List.mem_of_mem_filter hu) hqueued
  | change _ us huploads hupdates hus hprops _ =>
      refine ⟨by rw [hprops, huploads]; exact hs.shown, ?_⟩
      rw [hprops, latest_of_updates huploads hupdates]
      apply hs.due.foldl_update
      intro update hupdate
      obtain ⟨id, patch, heq, hagain⟩ := hus update hupdate
      exact ⟨id, patch, heq, fun hqueued => hleaves.requeue (hevent ▸ hagain hqueued)⟩

theorem WaitInv.started {s : UploadHook (DroppedFile F)} (hs : s.WaitInv) :
    ∀ upload ∈ s.started, upload.targetPath = upload.file.droppedIn := by
  intro upload hupload
  obtain ⟨entry, hentry, rfl⟩ := List.mem_map.mp hupload
  have hqueued := List.mem_of_mem_take (List.mem_of_mem_filter hentry)
  obtain ⟨hin, hstatus⟩ := List.mem_filter.mp hqueued
  exact (hs.shown entry hin (by simpa using hstatus)).symm

structure TargetInv (s : UploadHook (DroppedFile F)) : Prop where
  ids : s.IdsUnique
  waits : s.WaitInv
  targets : s.GoesWhereDropped

theorem targetInv_step (s : UploadHook (DroppedFile F)) (e : UploadEvent F) (t : UploadHook (DroppedFile F))
    (hs : s.TargetInv) (hleaves : s.LeavesNothing e) (h : dropStep s e = some t) : t.TargetInv := by
  refine ⟨idsUnique_step s t _ hs.ids h, waitInv_step s e t hs.waits hleaves h, ?_⟩
  intro upload hupload
  rcases inFlight_of_dropStep h hs.ids with ⟨twice, rfl, hflight⟩ | ⟨-, hflight⟩
  · rw [hflight] at hupload
    rcases List.mem_append.mp hupload with hold | hnew
    · exact hs.targets upload hold
    · exact hs.waits.started upload hnew
  · exact hs.targets upload (hflight hupload)

/-- The files of who opens another folder only while nothing waits, and has nothing of another folder sent again, go
where they were dropped. -/
theorem goesWhereDropped_of_leavesNothing (props : UploadProps) (nextUploadId : Nat) (events : List (UploadEvent F))
    (hguard : Guarded dropStep LeavesNothing (mount props nextUploadId) events) :
    Throughout dropStep GoesWhereDropped (mount props nextUploadId) events := by
  refine throughout_of_guarded dropStep LeavesNothing TargetInv GoesWhereDropped (fun _ hs => hs.targets) targetInv_step
    ⟨idsUnique_mount props nextUploadId, ⟨?_, ?_⟩, ?_⟩ hguard
  · simp [WaitIn, mount]
  · simp [WaitIn, latest, mount]
  · simp [GoesWhereDropped, mount]

/-- Folder `name`, with other values that stay. -/
def inFolder (name : String) : UploadProps := ⟨name, 0, .oneDay⟩

/-- The folder is left while the file is in flight, and shown again before the conflict is resolved. -/
def comesBack : List (UploadEvent String) :=
  [.effect true, .uploadFiles [("a", 7)], .commit (inFolder "docs"), .effect false, .commit (inFolder "pics"),
    .effect false, .settle 0 (.rejected (.apiError 409 "")), .commit (inFolder "docs"), .effect false,
    .resolveConflict .overwrite, .commit (inFolder "docs"), .effect false]

theorem goesWhereDropped_of_leavesNothing_comesBack :
    Throughout dropStep GoesWhereDropped (mount (inFolder "docs") 0) comesBack :=
  goesWhereDropped_of_leavesNothing (inFolder "docs") 0 comesBack (by decide +kernel)

/-- Four files are dropped in `docs`, and `pics` is opened before the fourth has a slot. -/
def navigates : List (UploadEvent String) :=
  [.effect false, .uploadFiles [("a", 7), ("b", 7), ("c", 7), ("d", 7)], .commit (inFolder "docs"), .effect false,
    .commit (inFolder "pics"), .effect false, .settle 0 .completed, .commit (inFolder "pics"), .effect false]

/-- A file is in conflict with one of `docs`, and is to overwrite it when `pics` has been opened. -/
def overwritesElsewhere : List (UploadEvent String) :=
  [.effect false, .uploadFiles [("a", 7)], .commit (inFolder "docs"), .effect false,
    .settle 0 (.rejected (.apiError 409 "")), .commit (inFolder "pics"), .effect false,
    .resolveConflict .overwrite, .commit (inFolder "pics"), .effect false]

/-- The last call of a run: the file, where it was dropped, where it goes, and what it does about a conflict. -/
def lastCall (s : UploadHook (DroppedFile F)) : Option (F × String × String × Option ConflictAction) :=
  s.inFlight.getLast?.map fun upload =>
    (upload.file.file, upload.file.droppedIn, upload.targetPath, upload.conflictResolution)

/-- The fourth file goes to `pics`, and so does the one that is to overwrite a file of `docs`. -/
theorem not_goesWhereDropped_navigates :
    ((∃ u, run dropStep (mount (inFolder "docs") 0) navigates = some u ∧
        u.lastCall = some ("d", "docs", "pics", none)) ∧
      ¬Throughout dropStep GoesWhereDropped (mount (inFolder "docs") 0) navigates) ∧
    ((∃ u, run dropStep (mount (inFolder "docs") 0) overwritesElsewhere = some u ∧
        u.lastCall = some ("a", "docs", "pics", some .overwrite)) ∧
      ¬Throughout dropStep GoesWhereDropped (mount (inFolder "docs") 0) overwritesElsewhere) := by
  have hlast : ∀ (events : List (UploadEvent String)) (file : String) (action : Option ConflictAction),
      (run dropStep (mount (inFolder "docs") 0) events).map lastCall = some (some (file, "docs", "pics", action)) →
        (∃ u, run dropStep (mount (inFolder "docs") 0) events = some u ∧
          u.lastCall = some (file, "docs", "pics", action)) ∧
        ¬Throughout dropStep GoesWhereDropped (mount (inFolder "docs") 0) events := by
    intro events file action h
    obtain ⟨u, hu, hcall⟩ := Option.map_eq_some_iff.mp h
    refine ⟨⟨u, hu, hcall⟩, ?_⟩
    intro hthroughout
    obtain ⟨upload, hupload, heq⟩ := Option.map_eq_some_iff.mp hcall
    simp only [Prod.mk.injEq] at heq
    have htarget := (hthroughout.last hu) upload (List.mem_of_getLast? hupload)
    rw [heq.2.1, heq.2.2.1] at htarget
    exact absurd htarget (by decide)
  exact ⟨hlast navigates "d" none (by decide +kernel),
    hlast overwritesElsewhere "a" (some .overwrite) (by decide +kernel)⟩

end UploadHook

end NetworkFileServer.Client
