import Mathlib.Data.Finset.Card
import NetworkFileServer.Framework.TransitionSystem

/-!
# The upload queue

`useUpload.ts`: the entries of the last commit, the calls of `setUploads` that wait for the next one, and the
refs, which change at once. An action is one call, one effect, one commit or the end of one upload, which
run to their end. The effect that a commit leaves runs before the next commit.

The values that the hook renders with come with the commit: `currentPath` and `onUploadComplete` from the
parent, `fileTtl` from `setFileTtl`. `collapsed` is not part of the model, as no upload depends on it.
-/

namespace NetworkFileServer.Client

open TransitionSystem

inductive UploadStatus where
  | queued
  | uploading
  | done
  | failed
  | conflict
deriving DecidableEq, Repr

inductive ConflictAction where
  | overwrite
  | rename
  | skip
deriving DecidableEq, Repr

inductive UploadTTL where
  | oneHour
  | sixHours
  | oneDay
  | sevenDays
  | never
deriving DecidableEq, Repr

def UploadTTL.seconds : UploadTTL → Nat
  | .oneHour => 3600
  | .sixHours => 21600
  | .oneDay => 86400
  | .sevenDays => 604800
  | .never => 0

structure UploadFileState (F : Type) where
  id : String
  file : F
  status : UploadStatus
  progress : Nat
  error : Option String
  conflictAction : Option ConflictAction

/-- A `Partial<UploadFileState>`: the fields that a caller of `updateUpload` gives. -/
structure UploadPatch where
  status : Option UploadStatus := none
  progress : Option Nat := none
  error : Option (Option String) := none
  conflictAction : Option (Option ConflictAction) := none

/-- What `uploadWithProgress` rejects with, or `onUploadComplete` raises. -/
inductive UploadFailure where
  | apiError (status : Nat) (message : String)
  | error (message : String)
  /-- Not an instance of `Error`. -/
  | thrown
deriving DecidableEq, Repr

/-- How the `try` block ends. -/
inductive UploadOutcome where
  | completed
  /-- The file is uploaded, and `onUploadComplete` raises. -/
  | completeRaises (failure : UploadFailure)
  | rejected (failure : UploadFailure)
deriving DecidableEq, Repr

variable {F : Type}

def UploadPatch.apply (patch : UploadPatch) (u : UploadFileState F) : UploadFileState F :=
  { u with
    status := patch.status.getD u.status
    progress := patch.progress.getD u.progress
    error := patch.error.getD u.error
    conflictAction := patch.conflictAction.getD u.conflictAction }

/-- The updaters of `setUploads`. -/
inductive UploadUpdate (F : Type) where
  | update (id : String) (patch : UploadPatch)
  | append (newEntries : List (UploadFileState F))
  | removeDone

def UploadUpdate.apply (prev : List (UploadFileState F)) : UploadUpdate F → List (UploadFileState F)
  | .update id patch => prev.map fun u => if u.id = id then patch.apply u else u
  | .append newEntries => prev ++ newEntries
  | .removeDone => prev.filter fun u => u.status ≠ .done

/-- The values of a render that `processUpload` closes over. Callbacks are numbered. -/
structure UploadProps where
  currentPath : String
  onUploadComplete : Nat
  fileTtl : UploadTTL
deriving DecidableEq, Repr

/-- A call of `uploadWithProgress` for an entry. -/
structure UploadInFlight (F : Type) where
  id : String
  file : F
  targetPath : String
  conflictResolution : Option ConflictAction
  ttl : Nat

structure UploadHook (F : Type) where
  /-- The entries of the last commit. -/
  uploads : List (UploadFileState F)
  /-- The values of the last commit. -/
  props : UploadProps
  /-- The calls of `setUploads` since the last commit. -/
  updates : List (UploadUpdate F)
  /-- The last commit has changed `uploads` or `processUpload`, and the effect has not run yet. -/
  effectWaits : Bool
  activeCount : Int
  processingIds : Finset String
  /-- The uploads whose promise is not settled. -/
  inFlight : List (UploadInFlight F)
  nextUploadId : Nat

inductive UploadEvent (F : Type) where
  /-- Each file with the value of `Date.now()` for its id. -/
  | uploadFiles (files : List (F × Nat))
  | progress (i : Nat) (percent : Nat)
  /-- The promise of upload number `i` is settled: the function goes on to its end. -/
  | settle (i : Nat) (outcome : UploadOutcome)
  | resolveConflict (action : ConflictAction)
  | retryFailed (id : String)
  | clearCompleted
  | commit (props : UploadProps)
  /-- The effect runs, twice if `StrictMode` wants it. -/
  | effect (twice : Bool)

/-- `MAX_CONCURRENT`. -/
def maxConcurrent : Nat := 3

/-- `HTTP_CONFLICT`. -/
def httpConflict : Nat := 409

def generateUploadId (nextUploadId now : Nat) : String :=
  "upload-" ++ toString now ++ "-" ++ toString (nextUploadId + 1)

/-- The entries that `uploadFiles` makes. -/
def newEntries (nextUploadId : Nat) : List (F × Nat) → List (UploadFileState F)
  | [] => []
  | (file, now) :: files =>
      ⟨generateUploadId nextUploadId now, file, .queued, 0, none, none⟩ :: newEntries (nextUploadId + 1) files

/-- The `catch` block. -/
def UploadFailure.patch : UploadFailure → UploadPatch
  | .apiError status message =>
      if status = httpConflict then { status := some .conflict, error := some (some "File already exists") }
      else { status := some .failed, error := some (some message) }
  | .error message => { status := some .failed, error := some (some message) }
  | .thrown => { status := some .failed, error := some (some "Upload failed") }

/-- The patches of the `try` and the `catch` block, in order. -/
def UploadOutcome.patches : UploadOutcome → List UploadPatch
  | .completed => [{ status := some .done, progress := some 100 }]
  | .completeRaises failure => [{ status := some .done, progress := some 100 }, failure.patch]
  | .rejected failure => [failure.patch]

theorem UploadOutcome.patches_ne_nil (outcome : UploadOutcome) : outcome.patches ≠ [] := by
  cases outcome <;> simp [UploadOutcome.patches]

namespace UploadHook

/-- The first commit; other hooks have taken ids before. -/
def mount (props : UploadProps) (nextUploadId : Nat) : UploadHook F :=
  ⟨[], props, [], true, 0, ∅, [], nextUploadId⟩

/-- A call of `setUploads`. -/
def setUploads (s : UploadHook F) (update : UploadUpdate F) : UploadHook F :=
  { s with updates := s.updates ++ [update] }

def updateUpload (s : UploadHook F) (id : String) (patch : UploadPatch) : UploadHook F :=
  s.setUploads (.update id patch)

/-- Up to the `await`. -/
def processUpload (s : UploadHook F) (entry : UploadFileState F) : UploadHook F :=
  if entry.id ∈ s.processingIds then s
  else
    let s := { s with processingIds := insert entry.id s.processingIds, activeCount := s.activeCount + 1 }
    let s := s.updateUpload entry.id { status := some .uploading, progress := some 0, error := some none }
    { s with
      inFlight := s.inFlight ++
        [⟨entry.id, entry.file, s.props.currentPath, entry.conflictAction, s.props.fileTtl.seconds⟩] }

/-- From the `await` on, with the `finally` block. -/
def settle (s : UploadHook F) (i : Nat) (upload : UploadInFlight F) (outcome : UploadOutcome) : UploadHook F :=
  { s with
    updates := s.updates ++ outcome.patches.map (UploadUpdate.update upload.id)
    processingIds := s.processingIds.erase upload.id
    activeCount := s.activeCount - 1
    inFlight := s.inFlight.eraseIdx i }

/-- The effect that processes queued uploads, with what the last commit closes over. -/
def runEffect (s : UploadHook F) : UploadHook F :=
  let queued := s.uploads.filter fun u => u.status = .queued
  let slotsAvailable : Int := maxConcurrent - s.activeCount
  if slotsAvailable ≤ 0 ∨ queued.length = 0 then s
  else (queued.take slotsAvailable.toNat).foldl processUpload s

def pendingConflict (s : UploadHook F) : Option (UploadFileState F) :=
  s.uploads.find? fun u => u.status = .conflict

/-- Without a conflict it raises. -/
def resolveConflict (s : UploadHook F) (action : ConflictAction) : UploadHook F :=
  match s.pendingConflict with
  | none => s
  | some entry =>
      if action = .skip then
        s.updateUpload entry.id
          { status := some .done, conflictAction := some (some action), error := some none, progress := some 100 }
      else
        s.updateUpload entry.id
          { status := some .queued, conflictAction := some (some action), error := some none, progress := some 0 }

def retryFailed (s : UploadHook F) (id : String) : UploadHook F :=
  s.updateUpload id
    { status := some .queued, error := some none, progress := some 0, conflictAction := some none }

def step (s : UploadHook F) : UploadEvent F → Option (UploadHook F)
  | .uploadFiles files =>
      some { s.setUploads (.append (newEntries s.nextUploadId files)) with
        nextUploadId := s.nextUploadId + files.length }
  | .progress i percent =>
      s.inFlight[i]?.map fun upload => s.updateUpload upload.id { progress := some percent }
  | .settle i outcome => s.inFlight[i]?.map fun upload => s.settle i upload outcome
  | .resolveConflict action => some (s.resolveConflict action)
  | .retryFailed id => some (s.retryFailed id)
  | .clearCompleted => some (s.setUploads .removeDone)
  | .commit props =>
      if s.effectWaits then none
      else
        -- every updater returns a new array, so that any call of `setUploads` changes `uploads`
        some { s with
          uploads := s.updates.foldl UploadUpdate.apply s.uploads
          updates := []
          props := props
          effectWaits := decide (s.updates.length ≠ 0 ∨ props ≠ s.props) }
  | .effect twice =>
      if s.effectWaits then
        let s := { s with effectWaits := false }
        some (if twice then s.runEffect.runEffect else s.runEffect)
      else none

/-- An effect is to run, after the last commit or after the one that the calls of `setUploads` lead to. -/
def EffectPending (s : UploadHook F) : Prop := s.effectWaits = true ∨ s.updates ≠ []

/-- The discipline of the queue. -/
structure Disciplined (s : UploadHook F) : Prop where
  atMost : s.inFlight.length ≤ maxConcurrent
  once : (s.inFlight.map UploadInFlight.id).Nodup
  counted : s.activeCount = s.processingIds.card
  noStall : ¬s.EffectPending → s.inFlight = [] → ∀ u ∈ s.uploads, u.status ≠ .queued

/-- The entries that the effect takes up. -/
def takenUp (s : UploadHook F) : List (UploadFileState F) :=
  (s.uploads.filter fun u => u.status = .queued).take ((maxConcurrent : Int) - s.activeCount).toNat

/-- The call of `uploadWithProgress` for an entry. -/
def call (s : UploadHook F) (entry : UploadFileState F) : UploadInFlight F :=
  ⟨entry.id, entry.file, s.props.currentPath, entry.conflictAction, s.props.fileTtl.seconds⟩

theorem processUpload_of_mem {s : UploadHook F} {entry : UploadFileState F} (h : entry.id ∈ s.processingIds) :
    s.processUpload entry = s := by
  rw [processUpload, if_pos h]

theorem processUpload_of_notMem {s : UploadHook F} {entry : UploadFileState F} (h : entry.id ∉ s.processingIds) :
    s.processUpload entry = { s with
      processingIds := insert entry.id s.processingIds
      activeCount := s.activeCount + 1
      updates := s.updates ++
        [.update entry.id { status := some .uploading, progress := some 0, error := some none }]
      inFlight := s.inFlight ++ [s.call entry] } := by
  rw [processUpload, if_neg h]
  rfl

theorem foldl_processUpload_of_mem {s : UploadHook F} {entries : List (UploadFileState F)}
    (h : ∀ entry ∈ entries, entry.id ∈ s.processingIds) : entries.foldl processUpload s = s := by
  induction entries with
  | nil => rfl
  | cons entry entries ih =>
      rw [List.foldl_cons, processUpload_of_mem (h entry List.mem_cons_self)]
      exact ih fun entry' hentry' => h entry' (List.mem_cons_of_mem entry hentry')

/-- `t` is `s` after some entries have been processed. -/
structure Processed (entries : List (UploadFileState F)) (s t : UploadHook F) : Prop where
  uploads : t.uploads = s.uploads
  props : t.props = s.props
  nextUploadId : t.nextUploadId = s.nextUploadId
  effectWaits : t.effectWaits = s.effectWaits
  count : s.activeCount ≤ t.activeCount
  ids : ∀ entry ∈ entries, entry.id ∈ t.processingIds
  kept : s.processingIds ⊆ t.processingIds
  updates : ∃ us : List (UploadUpdate F), t.updates = s.updates ++ us ∧
    ∀ u ∈ us, ∃ id patch, u = .update id patch ∧ patch.status ≠ some .queued

theorem Processed.trans {entries entries' : List (UploadFileState F)} {s t v : UploadHook F}
    (h : Processed entries s t) (h' : Processed entries' t v) : Processed (entries ++ entries') s v where
  uploads := h'.uploads.trans h.uploads
  props := h'.props.trans h.props
  nextUploadId := h'.nextUploadId.trans h.nextUploadId
  effectWaits := h'.effectWaits.trans h.effectWaits
  count := h.count.trans h'.count
  ids := by
    intro entry hentry
    rcases List.mem_append.mp hentry with hin | hin
    · exact h'.kept (h.ids entry hin)
    · exact h'.ids entry hin
  kept := h.kept.trans h'.kept
  updates := by
    obtain ⟨us, hus, hstatus⟩ := h.updates
    obtain ⟨us', hus', hstatus'⟩ := h'.updates
    refine ⟨us ++ us', by rw [hus', hus, List.append_assoc], ?_⟩
    intro u hu
    rcases List.mem_append.mp hu with hin | hin
    · exact hstatus u hin
    · exact hstatus' u hin

theorem processed_one (entry : UploadFileState F) (s : UploadHook F) : Processed [entry] s (s.processUpload entry) := by
  by_cases hmem : entry.id ∈ s.processingIds
  · rw [processUpload_of_mem hmem]
    exact ⟨rfl, rfl, rfl, rfl, le_rfl, by simpa using hmem, subset_rfl, [], by simp, by simp⟩
  · rw [processUpload_of_notMem hmem]
    exact ⟨rfl, rfl, rfl, rfl, Int.le_add_one le_rfl, by simp, by simp, _, rfl, by simp⟩

theorem processed_foldl (entries : List (UploadFileState F)) (s : UploadHook F) :
    Processed entries s (entries.foldl processUpload s) := by
  induction entries generalizing s with
  | nil => exact ⟨rfl, rfl, rfl, rfl, le_rfl, by simp, subset_rfl, [], by simp, by simp⟩
  | cons entry entries ih => exact (processed_one entry s).trans (ih _)

theorem runEffect_eq (s : UploadHook F) : s.runEffect = s.takenUp.foldl processUpload s := by
  simp only [runEffect, takenUp]
  split
  · rename_i hidle
    have hnone : (s.uploads.filter fun u => u.status = .queued).take
        ((maxConcurrent : Int) - s.activeCount).toNat = [] := by
      rw [List.take_eq_nil_iff]
      rcases hidle with hfull | hempty
      · exact .inl (Int.toNat_of_nonpos hfull)
      · exact .inr (List.length_eq_zero_iff.mp hempty)
    rw [hnone]
    rfl
  · rfl

theorem processed_runEffect (s : UploadHook F) : Processed s.takenUp s s.runEffect := by
  rw [runEffect_eq]
  exact processed_foldl _ _

theorem runEffect_runEffect (s : UploadHook F) : s.runEffect.runEffect = s.runEffect := by
  have hfirst := s.processed_runEffect
  rw [s.runEffect.runEffect_eq]
  apply foldl_processUpload_of_mem
  intro entry hentry
  apply hfirst.ids
  have hcount := hfirst.count
  have hslots : ((maxConcurrent : Int) - s.runEffect.activeCount).toNat ≤
      ((maxConcurrent : Int) - s.activeCount).toNat := by
    omega
  rw [takenUp, hfirst.uploads] at hentry
  exact (List.take_sublist_take_left hslots).subset hentry

theorem step_commit {s t : UploadHook F} {props : UploadProps} (h : step s (.commit props) = some t) :
    s.effectWaits = false ∧ t = { s with
      uploads := s.updates.foldl UploadUpdate.apply s.uploads
      updates := []
      props := props
      effectWaits := decide (s.updates.length ≠ 0 ∨ props ≠ s.props) } := by
  cases hwaits : s.effectWaits with
  | true => simp [step, hwaits] at h
  | false =>
      simp only [step, hwaits, Bool.false_eq_true, if_false] at h
      exact ⟨rfl, (Option.some.inj h).symm⟩

theorem step_effect {s t : UploadHook F} {twice : Bool} (h : step s (.effect twice) = some t) :
    s.effectWaits = true ∧ t = runEffect { s with effectWaits := false } := by
  cases hwaits : s.effectWaits with
  | false => simp [step, hwaits] at h
  | true =>
      simp only [step, hwaits, if_true, runEffect_runEffect, ite_self] at h
      exact ⟨rfl, (Option.some.inj h).symm⟩

/-- The refs tell what is in flight. -/
structure RefsAgree (s : UploadHook F) : Prop where
  ids : s.processingIds = (s.inFlight.map UploadInFlight.id).toFinset
  once : (s.inFlight.map UploadInFlight.id).Nodup
  count : s.activeCount = s.inFlight.length

theorem RefsAgree.mem {s : UploadHook F} (h : s.RefsAgree) (id : String) :
    id ∈ s.processingIds ↔ id ∈ s.inFlight.map UploadInFlight.id := by
  rw [h.ids, List.mem_toFinset]

theorem RefsAgree.of_eq {s t : UploadHook F} (h : s.RefsAgree) (hids : t.processingIds = s.processingIds)
    (hcount : t.activeCount = s.activeCount) (hflight : t.inFlight = s.inFlight) : t.RefsAgree := by
  refine ⟨?_, ?_, ?_⟩
  · rw [hids, hflight]
    exact h.ids
  · rw [hflight]
    exact h.once
  · rw [hcount, hflight]
    exact h.count

theorem processUpload_refsAgree {s : UploadHook F} (h : s.RefsAgree) (entry : UploadFileState F) :
    (s.processUpload entry).RefsAgree := by
  by_cases hmem : entry.id ∈ s.processingIds
  · rw [processUpload_of_mem hmem]
    exact h
  · rw [processUpload_of_notMem hmem]
    rw [h.mem] at hmem
    refine ⟨?_, ?_, ?_⟩
    · rw [h.ids]
      ext id
      simp [call]
    · rw [List.map_append, List.nodup_append]
      refine ⟨h.once, by simp, ?_⟩
      intro id hin id' hid'
      rw [List.map_singleton, List.mem_singleton] at hid'
      rintro rfl
      have hid : id = entry.id := hid'
      exact hmem (hid ▸ hin)
    · simp [h.count]

theorem processUpload_inFlight {s : UploadHook F} (h : s.RefsAgree) (entry : UploadFileState F) :
    (s.processUpload entry).inFlight ≠ [] ∧
      s.inFlight.length ≤ (s.processUpload entry).inFlight.length ∧
      (s.processUpload entry).inFlight.length ≤ s.inFlight.length + 1 := by
  by_cases hmem : entry.id ∈ s.processingIds
  · rw [processUpload_of_mem hmem]
    refine ⟨?_, Nat.le_refl _, Nat.le_succ _⟩
    intro hnil
    rw [h.mem, hnil] at hmem
    cases hmem
  · rw [processUpload_of_notMem hmem]
    simp

theorem foldl_processUpload (entries : List (UploadFileState F)) {s : UploadHook F} (h : s.RefsAgree) :
    (entries.foldl processUpload s).RefsAgree ∧
      s.inFlight.length ≤ (entries.foldl processUpload s).inFlight.length ∧
      (entries.foldl processUpload s).inFlight.length ≤ s.inFlight.length + entries.length ∧
      (entries ≠ [] → (entries.foldl processUpload s).inFlight ≠ []) := by
  induction entries generalizing s with
  | nil => exact ⟨h, Nat.le_refl _, Nat.le_refl _, by simp⟩
  | cons entry entries ih =>
      obtain ⟨hagree, hleast, hmost, -⟩ := ih (processUpload_refsAgree h entry)
      obtain ⟨hsome, hkept, hone⟩ := processUpload_inFlight h entry
      rw [List.foldl_cons, List.length_cons]
      refine ⟨hagree, by omega, by omega, ?_⟩
      intro _ hnil
      rw [hnil] at hleast
      exact hsome (List.length_eq_zero_iff.mp (Nat.le_zero.mp hleast))

theorem settle_refsAgree {s : UploadHook F} (h : s.RefsAgree) (i : Nat) (upload : UploadInFlight F)
    (outcome : UploadOutcome) (hi : s.inFlight[i]? = some upload) : (s.settle i upload outcome).RefsAgree := by
  obtain ⟨hlt, hget⟩ := List.getElem?_eq_some_iff.mp hi
  have hmap : (s.inFlight.eraseIdx i).map UploadInFlight.id =
      (s.inFlight.map UploadInFlight.id).erase upload.id := by
    have herase := h.once.erase_getElem i (by simpa using hlt)
    rw [List.getElem_map, hget] at herase
    rw [herase, List.eraseIdx_map]
  refine ⟨?_, ?_, ?_⟩
  · simp only [settle, hmap, h.ids]
    ext id
    simp [h.once.mem_erase_iff]
  · simp only [settle, hmap]
    exact h.once.erase upload.id
  · simp only [settle, h.count, List.length_eraseIdx_of_lt hlt]
    omega

/-- The effect keeps to the free slots, and leaves no queued entry while nothing is in flight. -/
theorem runEffect_spec {s : UploadHook F} (h : s.RefsAgree) (hmost : s.inFlight.length ≤ maxConcurrent) :
    s.runEffect.RefsAgree ∧ s.runEffect.inFlight.length ≤ maxConcurrent ∧
      (s.runEffect.inFlight = [] → ∀ u ∈ s.uploads, u.status ≠ .queued) := by
  rw [runEffect_eq]
  obtain ⟨hagree, hleast, hlength, hsome⟩ := foldl_processUpload s.takenUp h
  have hcount := h.count
  have htaken : s.takenUp.length ≤ ((maxConcurrent : Int) - s.activeCount).toNat := List.length_take_le _ _
  refine ⟨hagree, by omega, ?_⟩
  intro hnil u hu hqueued
  rw [hnil, List.length_nil] at hleast
  have hnone : s.takenUp = [] := by
    by_contra hne
    exact hsome hne hnil
  rcases List.take_eq_nil_iff.mp hnone with hslots | hempty
  · simp only [maxConcurrent] at hslots
    omega
  · have hmem : u ∈ s.uploads.filter fun u => u.status = .queued := by simp [hu, hqueued]
    rw [hempty] at hmem
    cases hmem

structure Inv (s : UploadHook F) : Prop where
  refs : s.RefsAgree
  atMost : s.inFlight.length ≤ maxConcurrent
  noStall : s.effectWaits = false → s.updates = [] → s.inFlight = [] → ∀ u ∈ s.uploads, u.status ≠ .queued

theorem Inv.disciplined {s : UploadHook F} (h : s.Inv) : s.Disciplined where
  atMost := h.atMost
  once := h.refs.once
  counted := by
    rw [h.refs.ids, List.toFinset_card_of_nodup h.refs.once, List.length_map]
    exact h.refs.count
  noStall := by
    intro hpending
    obtain ⟨hwaits, hupdates⟩ := not_or.mp hpending
    exact h.noStall (by simpa using hwaits) (not_not.mp hupdates)

theorem inv_mount (props : UploadProps) (nextUploadId : Nat) : (mount props nextUploadId : UploadHook F).Inv where
  refs := ⟨by simp [mount], by simp [mount], rfl⟩
  atMost := Nat.zero_le _
  noStall := by simp [mount]

theorem inv_setUploads {s : UploadHook F} (h : s.Inv) (update : UploadUpdate F) : (s.setUploads update).Inv where
  refs := h.refs.of_eq rfl rfl rfl
  atMost := h.atMost
  noStall := by simp [setUploads]

theorem inv_resolveConflict {s : UploadHook F} (h : s.Inv) (action : ConflictAction) :
    (s.resolveConflict action).Inv := by
  unfold resolveConflict
  cases s.pendingConflict with
  | none => exact h
  | some entry =>
      by_cases hskip : action = .skip
      · simp only [if_pos hskip]
        exact inv_setUploads h _
      · simp only [if_neg hskip]
        exact inv_setUploads h _

/-- The slot that an upload frees comes with a call of `setUploads`, so that another effect follows. -/
theorem inv_settle {s : UploadHook F} (h : s.Inv) (i : Nat) (upload : UploadInFlight F)
    (outcome : UploadOutcome) (hi : s.inFlight[i]? = some upload) : (s.settle i upload outcome).Inv where
  refs := settle_refsAgree h.refs i upload outcome hi
  atMost := (List.length_eraseIdx_le s.inFlight i).trans h.atMost
  noStall := by
    intro _ hupdates
    have hnil := (List.append_eq_nil_iff.mp hupdates).2
    exact absurd (List.map_eq_nil_iff.mp hnil) outcome.patches_ne_nil

theorem inv_runEffect {s : UploadHook F} (h : s.RefsAgree) (hmost : s.inFlight.length ≤ maxConcurrent) :
    s.runEffect.Inv where
  refs := (runEffect_spec h hmost).1
  atMost := (runEffect_spec h hmost).2.1
  noStall := by
    intro _ _ hnil
    rw [s.processed_runEffect.uploads]
    exact (runEffect_spec h hmost).2.2 hnil

/-- A commit without a call of `setUploads` since the last one shows the same entries. -/
theorem inv_commit {s : UploadHook F} (h : s.Inv) (props : UploadProps) (hwaits : s.effectWaits = false) :
    Inv { s with
      uploads := s.updates.foldl UploadUpdate.apply s.uploads
      updates := []
      props := props
      effectWaits := decide (s.updates.length ≠ 0 ∨ props ≠ s.props) } where
  refs := h.refs.of_eq rfl rfl rfl
  atMost := h.atMost
  noStall := by
    intro hnone _ hflight
    have hupdates : s.updates = [] := by
      have hboth := of_decide_eq_false hnone
      exact List.length_eq_zero_iff.mp (not_not.mp (not_or.mp hboth).1)
    simp only [hupdates, List.foldl_nil]
    exact h.noStall hwaits hupdates hflight

theorem inv_step (s t : UploadHook F) (e : UploadEvent F) (h : s.Inv) (hstep : step s e = some t) : t.Inv := by
  cases e with
  | uploadFiles files =>
      obtain rfl := Option.some.inj hstep
      have hset := inv_setUploads h (.append (newEntries s.nextUploadId files))
      exact ⟨hset.refs.of_eq rfl rfl rfl, hset.atMost, hset.noStall⟩
  | progress i percent =>
      obtain ⟨upload, -, rfl⟩ := Option.map_eq_some_iff.mp hstep
      exact inv_setUploads h _
  | settle i outcome =>
      obtain ⟨upload, hi, rfl⟩ := Option.map_eq_some_iff.mp hstep
      exact inv_settle h i upload outcome hi
  | resolveConflict action =>
      obtain rfl := Option.some.inj hstep
      exact inv_resolveConflict h action
  | retryFailed id =>
      obtain rfl := Option.some.inj hstep
      exact inv_setUploads h _
  | clearCompleted =>
      obtain rfl := Option.some.inj hstep
      exact inv_setUploads h _
  | commit props =>
      obtain ⟨hwaits, rfl⟩ := step_commit hstep
      exact inv_commit h props hwaits
  | effect twice =>
      obtain ⟨-, rfl⟩ := step_effect hstep
      exact inv_runEffect (h.refs.of_eq rfl rfl rfl) h.atMost

/-- In every interleaving, the queue keeps its discipline in every state. -/
theorem disciplined_throughout (props : UploadProps) (nextUploadId : Nat) (events : List (UploadEvent F)) :
    Throughout step Disciplined (mount props nextUploadId) events :=
  throughout_of_invariant step Inv Disciplined (fun _ h => h.disciplined)
    (fun s e t h hstep => inv_step s t e h hstep) (inv_mount props nextUploadId) events

/-- Of five files three are in flight, and the fourth follows when the first is done. -/
example :
    let props : UploadProps := ⟨"docs", 0, .oneDay⟩
    let events : List (UploadEvent String) :=
      [.effect true, .uploadFiles [("a", 7), ("b", 7), ("c", 7), ("d", 7), ("e", 7)], .commit props, .effect false]
    (run step (mount props 0) events).map (fun s => s.inFlight.map UploadInFlight.file) =
        some ["a", "b", "c"] ∧
      (run step (mount props 0) (events ++ [.commit props, .effect false, .settle 0 .completed, .commit props,
        .effect false])).map (fun s => s.inFlight.map UploadInFlight.file) = some ["b", "c", "d"] := by
  decide +kernel

end UploadHook

end NetworkFileServer.Client
