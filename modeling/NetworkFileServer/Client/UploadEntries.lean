import NetworkFileServer.Client.UploadQueue
import NetworkFileServer.Framework.Text

/-!
# The entries of the upload queue

No two entries have the same id, so that the entries an effect takes up are started one by one: the calls that
it makes can be read off the state before it.
-/

namespace NetworkFileServer.Client

open TransitionSystem

variable {F : Type}

theorem generateUploadId_injective {m n now now' : Nat} (h : generateUploadId m now = generateUploadId n now') :
    m = n := by
  have hcounter : ∀ k time : Nat, (Text.rpartition '-' (generateUploadId k time)).2.2 = toString (k + 1) := by
    intro k time
    have hdigits : '-' ∉ (toString (k + 1)).toList := by
      intro hmem
      exact absurd (Text.digit_of_mem_repr (k + 1) '-' hmem) (by decide)
    have hcut := Text.rpartition_append ("upload-" ++ toString time) hdigits
    rw [generateUploadId]
    exact congrArg (fun parts => parts.2.2) hcut
  have hrepr : toString (m + 1) = toString (n + 1) := by rw [← hcounter m now, h, hcounter]
  exact Nat.succ.inj (Text.natRepr_injective hrepr)

/-- The id was made from a counter below `bound`. -/
def IdBelow (bound : Nat) (id : String) : Prop := ∃ n now, n < bound ∧ id = generateUploadId n now

theorem IdBelow.mono {bound bound' : Nat} {id : String} (h : IdBelow bound id) (hle : bound ≤ bound') :
    IdBelow bound' id := by
  obtain ⟨n, now, hn, rfl⟩ := h
  exact ⟨n, now, hn.trans_le hle, rfl⟩

theorem id_of_mem_newEntries {bound : Nat} {files : List (F × Nat)} {u : UploadFileState F}
    (hu : u ∈ newEntries bound files) :
    ∃ n now, bound ≤ n ∧ n < bound + files.length ∧ u.id = generateUploadId n now := by
  induction files generalizing bound with
  | nil => cases hu
  | cons file files ih =>
      rcases List.mem_cons.mp hu with rfl | hrest
      · exact ⟨bound, file.2, le_rfl, by simp, rfl⟩
      · obtain ⟨n, now, hle, hlt, hid⟩ := ih hrest
        refine ⟨n, now, by omega, ?_, hid⟩
        rw [List.length_cons]
        omega

theorem nodup_newEntries (bound : Nat) (files : List (F × Nat)) :
    ((newEntries bound files).map UploadFileState.id).Nodup := by
  induction files generalizing bound with
  | nil => exact List.nodup_nil
  | cons file files ih =>
      rw [newEntries, List.map_cons, List.nodup_cons]
      refine ⟨?_, ih (bound + 1)⟩
      intro hmem
      obtain ⟨u, hu, hid⟩ := List.mem_map.mp hmem
      obtain ⟨n, now, hle, -, hn⟩ := id_of_mem_newEntries hu
      have heq := generateUploadId_injective (hn.symm.trans hid)
      omega

/-- The ids are different from each other, and made from counters below `bound`. -/
structure UniqueIds (bound : Nat) (uploads : List (UploadFileState F)) : Prop where
  nodup : (uploads.map UploadFileState.id).Nodup
  below : ∀ u ∈ uploads, IdBelow bound u.id

theorem UniqueIds.mono {bound bound' : Nat} {uploads : List (UploadFileState F)} (h : UniqueIds bound uploads)
    (hle : bound ≤ bound') : UniqueIds bound' uploads :=
  ⟨h.nodup, fun u hu => (h.below u hu).mono hle⟩

theorem UniqueIds.update {bound : Nat} {uploads : List (UploadFileState F)} (h : UniqueIds bound uploads)
    (id : String) (patch : UploadPatch) : UniqueIds bound (UploadUpdate.apply uploads (.update id patch)) := by
  have hsame : ∀ u : UploadFileState F, (if u.id = id then patch.apply u else u).id = u.id := by
    intro u
    split <;> rfl
  constructor
  · have hids : (UploadUpdate.apply uploads (.update id patch)).map UploadFileState.id =
        uploads.map UploadFileState.id := by
      simp only [UploadUpdate.apply, List.map_map]
      exact List.map_congr_left fun u _ => hsame u
    rw [hids]
    exact h.nodup
  · intro u hu
    obtain ⟨u', hu', rfl⟩ := List.mem_map.mp hu
    rw [hsame u']
    exact h.below u' hu'

theorem UniqueIds.removeDone {bound : Nat} {uploads : List (UploadFileState F)} (h : UniqueIds bound uploads) :
    UniqueIds bound (UploadUpdate.apply uploads .removeDone) := by
  constructor
  · exact h.nodup.sublist (List.filter_sublist.map _)
  · intro u hu
    exact h.below u (List.mem_of_mem_filter hu)

theorem UniqueIds.append {bound : Nat} {uploads : List (UploadFileState F)} (h : UniqueIds bound uploads)
    (files : List (F × Nat)) :
    UniqueIds (bound + files.length) (UploadUpdate.apply uploads (.append (newEntries bound files))) := by
  constructor
  · simp only [UploadUpdate.apply, List.map_append]
    rw [List.nodup_append]
    refine ⟨h.nodup, nodup_newEntries bound files, ?_⟩
    intro id hid id' hid' heq
    obtain ⟨u, hu, rfl⟩ := List.mem_map.mp hid
    obtain ⟨u', hu', rfl⟩ := List.mem_map.mp hid'
    obtain ⟨n, now, hlt, hn⟩ := h.below u hu
    obtain ⟨n', now', hle, -, hn'⟩ := id_of_mem_newEntries hu'
    have hsame := generateUploadId_injective (hn.symm.trans (heq.trans hn'))
    omega
  · intro u hu
    rcases List.mem_append.mp hu with hold | hnew
    · exact (h.below u hold).mono (Nat.le_add_right _ _)
    · obtain ⟨n, now, -, hlt, hid⟩ := id_of_mem_newEntries hnew
      exact ⟨n, now, hlt, hid⟩

namespace UploadHook

/-- The entries as the next commit will show them. -/
def latest (s : UploadHook F) : List (UploadFileState F) := s.updates.foldl UploadUpdate.apply s.uploads

/-- The calls that the effect makes. -/
def started (s : UploadHook F) : List (UploadInFlight F) :=
  (s.takenUp.filter fun entry => entry.id ∉ s.processingIds).map s.call

theorem inFlight_foldl_processUpload (entries : List (UploadFileState F)) (s : UploadHook F)
    (hnodup : (entries.map UploadFileState.id).Nodup) :
    (entries.foldl processUpload s).inFlight =
      s.inFlight ++ (entries.filter fun entry => entry.id ∉ s.processingIds).map s.call := by
  induction entries generalizing s with
  | nil => simp
  | cons entry entries ih =>
      rw [List.map_cons, List.nodup_cons] at hnodup
      obtain ⟨hnew, hrest⟩ := hnodup
      rw [List.foldl_cons]
      by_cases hmem : entry.id ∈ s.processingIds
      · rw [processUpload_of_mem hmem, ih s hrest, List.filter_cons_of_neg (by simpa using hmem)]
      · rw [processUpload_of_notMem hmem, ih _ hrest, List.filter_cons_of_pos (by simpa using hmem),
          List.map_cons, List.append_assoc]
        have hsame : (entries.filter fun entry' => entry'.id ∉ insert entry.id s.processingIds) =
            entries.filter fun entry' => entry'.id ∉ s.processingIds := by
          apply List.filter_congr
          intro entry' hentry'
          have hne : entry'.id ≠ entry.id := by
            intro heq
            exact hnew (heq ▸ List.mem_map_of_mem hentry')
          simp [hne]
        rw [hsame]
        rfl

/-- The event puts an entry back into the queue. -/
def Requeues (s : UploadHook F) (id : String) : UploadEvent F → Prop
  | .retryFailed id' => id' = id
  | .resolveConflict action => action ≠ .skip ∧ ∃ entry, s.pendingConflict = some entry ∧ entry.id = id
  | _ => False

/-- A commit shows the entries as they are due. Any other event only calls `setUploads`: it adds entries, removes
those that are done, or changes single ones. -/
inductive EntryStep (s t : UploadHook F) : UploadEvent F → Prop
  | commit (props : UploadProps) (huploads : t.uploads = s.latest) (hlatest : t.latest = s.latest)
      (hprops : t.props = props) (hnext : t.nextUploadId = s.nextUploadId) : EntryStep s t (.commit props)
  | add (files : List (F × Nat)) (huploads : t.uploads = s.uploads)
      (hupdates : t.updates = s.updates ++ [.append (newEntries s.nextUploadId files)]) (hprops : t.props = s.props)
      (hnext : t.nextUploadId = s.nextUploadId + files.length) : EntryStep s t (.uploadFiles files)
  | clear (huploads : t.uploads = s.uploads) (hupdates : t.updates = s.updates ++ [.removeDone])
      (hprops : t.props = s.props) (hnext : t.nextUploadId = s.nextUploadId) : EntryStep s t .clearCompleted
  | change (e : UploadEvent F) (us : List (UploadUpdate F)) (huploads : t.uploads = s.uploads)
      (hupdates : t.updates = s.updates ++ us)
      (hus : ∀ u ∈ us, ∃ id patch, u = .update id patch ∧ (patch.status = some .queued → s.Requeues id e))
      (hprops : t.props = s.props) (hnext : t.nextUploadId = s.nextUploadId) : EntryStep s t e

theorem EntryStep.updateUpload {s : UploadHook F} {e : UploadEvent F} (id : String) (patch : UploadPatch)
    (h : patch.status = some .queued → s.Requeues id e) : EntryStep s (s.updateUpload id patch) e := by
  refine .change e [.update id patch] rfl rfl ?_ rfl rfl
  intro u hu
  exact ⟨id, patch, List.mem_singleton.mp hu, h⟩

theorem status_of_mem_patches {outcome : UploadOutcome} {patch : UploadPatch} (h : patch ∈ outcome.patches) :
    patch.status ≠ some .queued := by
  have hfailure : ∀ failure : UploadFailure, failure.patch.status ≠ some .queued := by
    intro failure
    cases failure with
    | apiError status message =>
        simp only [UploadFailure.patch]
        split <;> simp
    | error message => simp [UploadFailure.patch]
    | thrown => simp [UploadFailure.patch]
  cases outcome with
  | completed =>
      obtain rfl := List.mem_singleton.mp h
      simp
  | completeRaises failure =>
      rcases List.mem_cons.mp h with rfl | hrest
      · simp
      · obtain rfl := List.mem_singleton.mp hrest
        exact hfailure failure
  | rejected failure =>
      obtain rfl := List.mem_singleton.mp h
      exact hfailure failure

theorem entryStep_of_step {s t : UploadHook F} {e : UploadEvent F} (h : step s e = some t) : EntryStep s t e := by
  cases e with
  | uploadFiles files =>
      obtain rfl := Option.some.inj h
      exact .add files rfl rfl rfl rfl
  | progress i percent =>
      obtain ⟨upload, -, rfl⟩ := Option.map_eq_some_iff.mp h
      exact .updateUpload _ _ (by simp)
  | settle i outcome =>
      obtain ⟨upload, -, rfl⟩ := Option.map_eq_some_iff.mp h
      refine .change _ (outcome.patches.map (UploadUpdate.update upload.id)) rfl rfl ?_ rfl rfl
      intro u hu
      obtain ⟨patch, hpatch, rfl⟩ := List.mem_map.mp hu
      exact ⟨upload.id, patch, rfl, fun hqueued => absurd hqueued (status_of_mem_patches hpatch)⟩
  | resolveConflict action =>
      obtain rfl := Option.some.inj h
      unfold resolveConflict
      cases hpending : s.pendingConflict with
      | none => exact .change _ [] rfl (by simp) (by simp) rfl rfl
      | some entry =>
          by_cases hskip : action = .skip
          · simp only [if_pos hskip]
            exact .updateUpload _ _ (by simp)
          · simp only [if_neg hskip]
            exact .updateUpload _ _ fun _ => ⟨hskip, entry, hpending, rfl⟩
  | retryFailed id =>
      obtain rfl := Option.some.inj h
      exact .updateUpload _ _ fun _ => rfl
  | clearCompleted =>
      obtain rfl := Option.some.inj h
      exact .clear rfl rfl rfl rfl
  | commit props =>
      obtain ⟨-, rfl⟩ := step_commit h
      exact .commit props rfl rfl rfl rfl
  | effect twice =>
      obtain ⟨-, rfl⟩ := step_effect h
      have hprocessed := processed_runEffect { s with effectWaits := false }
      obtain ⟨us, hupdates, hus⟩ := hprocessed.updates
      refine .change _ us hprocessed.uploads hupdates ?_ hprocessed.props hprocessed.nextUploadId
      intro u hu
      obtain ⟨id, patch, rfl, hstatus⟩ := hus u hu
      exact ⟨id, patch, rfl, fun hqueued => absurd hqueued hstatus⟩

theorem inFlight_of_step {s t : UploadHook F} {e : UploadEvent F} (h : step s e = some t)
    (hnodup : (s.uploads.map UploadFileState.id).Nodup) :
    (∃ twice, e = .effect twice ∧ t.inFlight = s.inFlight ++ s.started) ∨
      (∀ twice, e ≠ .effect twice) ∧ t.inFlight ⊆ s.inFlight := by
  cases e with
  | effect twice =>
      left
      refine ⟨twice, rfl, ?_⟩
      obtain ⟨-, rfl⟩ := step_effect h
      rw [runEffect_eq]
      apply inFlight_foldl_processUpload
      exact hnodup.sublist (((List.take_sublist _ _).trans List.filter_sublist).map _)
  | settle i outcome =>
      obtain ⟨upload, -, rfl⟩ := Option.map_eq_some_iff.mp h
      exact .inr ⟨by simp, List.eraseIdx_subset⟩
  | progress i percent =>
      obtain ⟨upload, -, rfl⟩ := Option.map_eq_some_iff.mp h
      exact .inr ⟨by simp, List.Subset.refl _⟩
  | resolveConflict action =>
      obtain rfl := Option.some.inj h
      refine .inr ⟨by simp, ?_⟩
      unfold resolveConflict
      cases s.pendingConflict with
      | none => exact List.Subset.refl _
      | some entry => by_cases hskip : action = .skip <;> simp [hskip, updateUpload, setUploads]
  | commit props =>
      obtain ⟨-, rfl⟩ := step_commit h
      exact .inr ⟨by simp, List.Subset.refl _⟩
  | uploadFiles _ | retryFailed _ | clearCompleted =>
      obtain rfl := Option.some.inj h
      exact .inr ⟨by simp, List.Subset.refl _⟩

/-- Of the entries that are shown, and of those that the next commit will show. -/
structure IdsUnique (s : UploadHook F) : Prop where
  shown : UniqueIds s.nextUploadId s.uploads
  due : UniqueIds s.nextUploadId s.latest

theorem idsUnique_mount (props : UploadProps) (nextUploadId : Nat) :
    (mount props nextUploadId : UploadHook F).IdsUnique :=
  ⟨⟨List.nodup_nil, by simp [mount]⟩, ⟨List.nodup_nil, by simp [mount, latest]⟩⟩

theorem latest_of_updates {s t : UploadHook F} {us : List (UploadUpdate F)} (huploads : t.uploads = s.uploads)
    (hupdates : t.updates = s.updates ++ us) : t.latest = us.foldl UploadUpdate.apply s.latest := by
  rw [latest, latest, huploads, hupdates, List.foldl_append]

theorem idsUnique_step (s t : UploadHook F) (e : UploadEvent F) (hs : s.IdsUnique) (h : step s e = some t) :
    t.IdsUnique := by
  cases entryStep_of_step h with
  | commit props huploads hlatest _ hnext =>
      refine ⟨?_, ?_⟩
      · rw [hnext, huploads]
        exact hs.due
      · rw [hnext, hlatest]
        exact hs.due
  | add files huploads hupdates _ hnext =>
      refine ⟨?_, ?_⟩
      · rw [hnext, huploads]
        exact hs.shown.mono (Nat.le_add_right _ _)
      · rw [hnext, latest_of_updates huploads hupdates]
        exact hs.due.append files
  | clear huploads hupdates _ hnext =>
      refine ⟨?_, ?_⟩
      · rw [hnext, huploads]
        exact hs.shown
      · rw [hnext, latest_of_updates huploads hupdates]
        exact hs.due.removeDone
  | change _ us huploads hupdates hus _ hnext =>
      refine ⟨?_, ?_⟩
      · rw [hnext, huploads]
        exact hs.shown
      · rw [hnext, latest_of_updates huploads hupdates]
        apply List.foldlRecOn us _ hs.due
        intro uploads huploads u hu
        obtain ⟨id, patch, rfl, -⟩ := hus u hu
        exact huploads.update id patch

end UploadHook

end NetworkFileServer.Client
