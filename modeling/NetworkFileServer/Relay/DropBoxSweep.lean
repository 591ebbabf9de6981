import NetworkFileServer.Relay.DropBox

/-!
# What the sweep of the drop box removes

A row of the table says when the file of one request expires. The sweep and the cleanup look for the file
at the path of the row, and by then the path may hold another one: an upload without a TTL that took its
place, an upload that skipped it and recorded it as its own, a file that was renamed to it, a file whose
upload is still going on.
-/

namespace NetworkFileServer.Relay

/-- How far the request has come is in step with the time at which its files were stored. -/
def UploadState.Timely (clock : Int) (u : UploadState) : Prop :=
  match u.pc with
  | .starting | .opening _ _ _ | .writing _ _ _ => u.storedAt = none
  | .inserting _ calledAt _ =>
      0 < u.input.effectiveTtl ∧ calledAt ≤ clock ∧ ∃ c, u.storedAt = some c ∧ c ≤ calledAt
  | .committing _ => ∃ c, u.storedAt = some c ∧ c ≤ clock
  | .finished | .failed => True

theorem UploadState.Timely.mono {clock now : Int} {u : UploadState} (h : u.Timely clock)
    (hnow : clock ≤ now) : u.Timely now := by
  cases hpc : u.pc with
  | inserting filePath calledAt names =>
      simp only [UploadState.Timely, hpc] at h ⊢
      exact ⟨h.1, h.2.1.trans hnow, h.2.2⟩
  | committing names =>
      simp only [UploadState.Timely, hpc] at h ⊢
      obtain ⟨c, hc, hle⟩ := h
      exact ⟨c, hc, hle.trans hnow⟩
  | finished | failed => simp only [UploadState.Timely, hpc]
  | starting | opening _ _ _ | writing _ _ _ =>
      simp only [UploadState.Timely, hpc] at h ⊢
      exact h

theorem timely_startRecord (u : UploadState) (now : Int) (names : List String) (c : Int) (hc : c ≤ now) :
    UploadState.Timely now ⟨u.input, startRecord u.input now names, some c⟩ := by
  induction names with
  | nil => trivial
  | cons name names ih =>
      rw [startRecord]
      by_cases hpos : u.input.effectiveTtl > 0
      · rw [if_neg (not_not.mpr hpos)]
        by_cases hname : name = ""
        · rw [if_pos hname]
          exact ih
        · rw [if_neg hname]
          by_cases hfits : FileTtlTable.fitsFloat u.input.effectiveTtl = true
          · rw [if_neg (not_not.mpr hfits)]
            exact ⟨hpos, le_rfl, c, rfl, hc⟩
          · rw [if_pos hfits]
            exact True.intro
      · rw [if_pos hpos]
        exact True.intro

/-- The rows that the sweep has still to look at. -/
def SweepPc.rows : SweepPc → List FileTtlRow
  | .idle | .selecting _ => []
  | .deleting _ rest | .committing rest => rest

namespace DropBox

/-- The request has stored its files, has a TTL, and the TTL is over at the deadline. -/
def ExpiredBy (s : DropBox) (k : Nat) (deadline : Int) : Prop :=
  ∃ u storedAt, s.requests[k]? = some u ∧ u.storedAt = some storedAt ∧ 0 < u.input.effectiveTtl ∧
    storedAt + u.input.effectiveTtl ≤ deadline

/-- Every removed file was written by a request whose TTL was over. -/
def OnlyExpired (s : DropBox) : Prop :=
  ∀ r ∈ s.removed, ∃ k, r.writer = some k ∧ s.ExpiredBy k r.removedAt

/-- The row whose file the next step of the sweep looks for. -/
def nextRow (s : DropBox) : Option FileTtlRow :=
  match s.sweep with
  | .selecting calledAt => (s.table.getExpired calledAt).head?
  | .committing rest => rest.head?
  | .idle | .deleting _ _ => none

section

variable (disk : Server.FileService.Disk (Option Nat)) (dropboxDir : List String) (dropboxCode : Code)

/-- If the path of the row leads to a file, it is the one for which the row was recorded: the request that
recorded the row has written it. -/
def ownFile (s : DropBox) (row : FileTtlRow) : Bool :=
  match contentAt disk dropboxDir s.fs row with
  | some (some k) => decide ((row, k) ∈ s.recorded)
  | some none => false
  | none => true

/-- The step looks for the file of a row only where the file of that row is. -/
def findsOwnFiles (s : DropBox) : Int × DropBoxAction → Bool
  | (_, .sweep _) => s.nextRow.all fun row => row.mountCode ≠ dropboxCode || s.ownFile disk dropboxDir row
  | (now, .boot _) =>
      (s.table.filter (FileTtlTable.expiredFor (some dropboxCode) now)).all (s.ownFile disk dropboxDir)
  | _ => true

end

/-- Every recorded row expires when the TTL of its request is over, or later. -/
structure SweepInv (s : DropBox) : Prop where
  recorded : ∀ e ∈ s.recorded, s.ExpiredBy e.2 e.1.expiresAt
  removed : s.OnlyExpired
  timely : ∀ (k : Nat) (u : UploadState), s.requests[k]? = some u → u.Timely s.clock
  rows : ∀ row ∈ s.sweep.rows, row.expiresAt ≤ s.clock
  selecting : ∀ calledAt, s.sweep = .selecting calledAt → calledAt ≤ s.clock

/-- What the requests of one state have stored, those of the other have. -/
def KeepsStored (s t : DropBox) : Prop :=
  ∀ (k : Nat) (u : UploadState), s.requests[k]? = some u → ∃ u' : UploadState,
    t.requests[k]? = some u' ∧ u'.input = u.input ∧ ∀ c, u.storedAt = some c → u'.storedAt = some c

theorem ExpiredBy.keep {s t : DropBox} (hkeeps : KeepsStored s t) {k : Nat} {deadline : Int}
    (h : s.ExpiredBy k deadline) : t.ExpiredBy k deadline := by
  obtain ⟨u, c, hu, hc, hpos, hle⟩ := h
  obtain ⟨u', hu', hinput, hstored⟩ := hkeeps k u hu
  exact ⟨u', c, hu', hstored c hc, by rw [hinput]; exact hpos, by rw [hinput]; exact hle⟩

theorem SweepInv.of_requests {s t : DropBox} (hinv : s.SweepInv) (hkeeps : KeepsStored s t)
    (htimely : ∀ (k : Nat) (u : UploadState), t.requests[k]? = some u → u.Timely t.clock)
    (hrecorded : t.recorded = s.recorded) (hremoved : t.removed = s.removed) (hsweep : t.sweep = s.sweep)
    (hclock : s.clock ≤ t.clock) :
    t.SweepInv where
  recorded := by
    intro e he
    rw [hrecorded] at he
    exact (hinv.recorded e he).keep hkeeps
  removed := by
    intro r hr
    rw [hremoved] at hr
    obtain ⟨k, hk, hexpired⟩ := hinv.removed r hr
    exact ⟨k, hk, hexpired.keep hkeeps⟩
  timely := htimely
  rows := by
    intro row hrow
    rw [hsweep] at hrow
    exact (hinv.rows row hrow).trans hclock
  selecting := by
    intro calledAt hcalled
    rw [hsweep] at hcalled
    exact (hinv.selecting calledAt hcalled).trans hclock

theorem keepsStored_of_eq {s t : DropBox} (h : t.requests = s.requests) : KeepsStored s t := by
  intro k u hu
  exact ⟨u, by rw [h]; exact hu, rfl, fun _ hc => hc⟩

theorem keepsStored_setRequest (s t : DropBox) (k : Nat) (u u' : UploadState) (hu : s.requests[k]? = some u)
    (ht : t.requests = s.requests.set k u') (hinput : u'.input = u.input)
    (hstored : ∀ c, u.storedAt = some c → u'.storedAt = some c) : KeepsStored s t := by
  intro j v hv
  rw [ht]
  by_cases hjk : k = j
  · subst hjk
    obtain rfl := Option.some.inj (hu.symm.trans hv)
    have hlt := (List.getElem?_eq_some_iff.mp hu).1
    exact ⟨u', by rw [List.getElem?_set_self hlt], hinput, hstored⟩
  · exact ⟨v, by rw [List.getElem?_set_ne hjk]; exact hv, rfl, fun _ hc => hc⟩

theorem timely_setRequest (s : DropBox) (k : Nat) (u' : UploadState) (clock : Int)
    (htimely : ∀ (j : Nat) (v : UploadState), s.requests[j]? = some v → v.Timely clock)
    (hu' : u'.Timely clock) :
    ∀ (j : Nat) (v : UploadState), (s.requests.set k u')[j]? = some v → v.Timely clock := by
  intro j v hv
  by_cases hjk : k = j
  · subst hjk
    have hlt : k < s.requests.length := by
      have := (List.getElem?_eq_some_iff.mp hv).1
      simpa using this
    rw [List.getElem?_set_self hlt] at hv
    obtain rfl := Option.some.inj hv
    exact hu'
  · rw [List.getElem?_set_ne hjk] at hv
    exact htimely j v hv

theorem SweepInv.move {s t : DropBox} (hinv : s.SweepInv) (k : Nat) (u u' : UploadState)
    (hu : s.requests[k]? = some u) (hinput : u'.input = u.input)
    (hstored : ∀ c, u.storedAt = some c → u'.storedAt = some c) (hu' : u'.Timely s.clock)
    (hrequests : t.requests = s.requests.set k u') (hrecorded : t.recorded = s.recorded)
    (hremoved : t.removed = s.removed) (hsweep : t.sweep = s.sweep) (hclock : t.clock = s.clock) :
    t.SweepInv := by
  apply hinv.of_requests (keepsStored_setRequest s t k u u' hu hrequests hinput hstored) _ hrecorded
    hremoved hsweep hclock.ge
  rw [hrequests, hclock]
  exact timely_setRequest s k u' s.clock hinv.timely hu'

section Steps

variable (disk : Server.FileService.Disk (Option Nat)) (dropboxDir : List String) (dropboxCode : Code)

theorem sweepInv_continueUpload {s : DropBox} (hinv : s.SweepInv) (k : Nat) (u : UploadState)
    (hu : s.requests[k]? = some u) (hstored : u.storedAt = none)
    (next : Outcome (Option Nat) Server.FileService.FileError NextFile) :
    (s.continueUpload s.clock k u next).SweepInv := by
  have hnone : ∀ c, u.storedAt = some c → ∀ P : Prop, P := by
    intro c hc
    rw [hstored] at hc
    cases hc
  unfold continueUpload
  cases next.result with
  | error e =>
      exact hinv.move k u { u with pc := .failed } hu rfl (fun _ hc => hc) trivial rfl rfl rfl rfl rfl
  | ok found =>
      cases found with
      | writes w rest names =>
          exact hinv.move k u { u with pc := .opening w rest names } hu rfl (fun _ hc => hc) hstored rfl rfl
            rfl rfl rfl
      | allStored names =>
          exact hinv.move k u
            { u with pc := startRecord u.input s.clock names, storedAt := some s.clock } hu rfl
            (fun c hc => hnone c hc _) (timely_startRecord u s.clock names s.clock le_rfl) rfl rfl rfl rfl rfl

theorem sweepInv_insert {s t : DropBox} (hinv : s.SweepInv) (k : Nat) (u u' : UploadState)
    (hu : s.requests[k]? = some u) (hinput : u'.input = u.input) (hsame : u'.storedAt = u.storedAt)
    (hu' : u'.Timely s.clock) (row : FileTtlRow)
    (hexpires : ∃ c, u.storedAt = some c ∧ 0 < u.input.effectiveTtl ∧
      c + u.input.effectiveTtl ≤ row.expiresAt)
    (hrequests : t.requests = s.requests.set k u') (hrecorded : t.recorded = s.recorded ++ [(row, k)])
    (hremoved : t.removed = s.removed) (hsweep : t.sweep = s.sweep) (hclock : t.clock = s.clock) :
    t.SweepInv := by
  have hstored : ∀ c, u.storedAt = some c → u'.storedAt = some c := by
    intro c hc
    rw [hsame]
    exact hc
  have hkeeps := keepsStored_setRequest s t k u u' hu hrequests hinput hstored
  have hmoved : ({ t with recorded := s.recorded } : DropBox).SweepInv :=
    hinv.move k u u' hu hinput hstored hu' hrequests rfl hremoved hsweep hclock
  refine ⟨?_, hmoved.removed, hmoved.timely, hmoved.rows, hmoved.selecting⟩
  intro e he
  rw [hrecorded] at he
  rcases List.mem_append.mp he with hold | hnew
  · exact (hinv.recorded e hold).keep hkeeps
  · obtain rfl := List.mem_singleton.mp hnew
    obtain ⟨c, hc, hpos, hle⟩ := hexpires
    have hbefore : s.ExpiredBy k row.expiresAt := ⟨u, c, hu, hc, hpos, hle⟩
    exact hbefore.keep hkeeps

theorem sweepInv_resumeUpload {s t : DropBox} (hinv : s.SweepInv) (k : Nat) (u : UploadState)
    (hu : s.requests[k]? = some u) (h : s.resumeUpload disk dropboxDir dropboxCode s.clock k u = some t) :
    t.SweepInv := by
  have htimely := hinv.timely k u hu
  unfold resumeUpload at h
  cases hpc : u.pc with
  | starting =>
      simp only [hpc] at h
      simp only [UploadState.Timely, hpc] at htimely
      cases h
      exact sweepInv_continueUpload hinv k u hu htimely _
  | opening w rest names =>
      simp only [hpc] at h
      simp only [UploadState.Timely, hpc] at htimely
      split at h
      · cases h
        exact hinv.move k u { u with pc := .failed } hu rfl (fun _ hc => hc) trivial rfl rfl rfl rfl rfl
      · cases h
        exact hinv.move k u { u with pc := .writing w rest names } hu rfl (fun _ hc => hc) htimely rfl rfl rfl
          rfl rfl
  | writing w rest names =>
      simp only [hpc] at h
      simp only [UploadState.Timely, hpc] at htimely
      cases h
      exact sweepInv_continueUpload hinv k u hu htimely _
  | inserting filePath calledAt names =>
      simp only [hpc] at h
      simp only [UploadState.Timely, hpc] at htimely
      cases h
      obtain ⟨hpos, hcalled, c, hc, hle⟩ := htimely
      have hexpires : c + u.input.effectiveTtl ≤ calledAt + u.input.effectiveTtl := by omega
      exact sweepInv_insert hinv k u { u with pc := .committing names } hu rfl rfl
        ⟨c, hc, hle.trans hcalled⟩
        ⟨dropboxCode, filePath, calledAt + u.input.effectiveTtl, calledAt⟩ ⟨c, hc, hpos, hexpires⟩
        rfl rfl rfl rfl rfl
  | committing names =>
      simp only [hpc] at h
      simp only [UploadState.Timely, hpc] at htimely
      cases h
      obtain ⟨c, hc, hle⟩ := htimely
      exact hinv.move k u { u with pc := startRecord u.input s.clock names } hu rfl (fun _ hc => hc)
        (by
          rw [hc]
          exact timely_startRecord u s.clock names c hle) rfl rfl rfl rfl rfl
  | finished =>
      simp only [hpc] at h
      cases h
  | failed =>
      simp only [hpc] at h
      cases h

theorem sweepInv_removeRow {s : DropBox} (hinv : s.SweepInv) (refuses : Bool) (row : FileTtlRow)
    (hexpired : row.expiresAt ≤ s.clock) (hown : s.ownFile disk dropboxDir row = true) :
    (s.removeRow disk dropboxDir s.clock refuses row).SweepInv := by
  have hkeeps : KeepsStored s (s.removeRow disk dropboxDir s.clock refuses row) := keepsStored_of_eq rfl
  refine ⟨hinv.recorded, ?_, hinv.timely, hinv.rows, hinv.selecting⟩
  intro r hr
  rcases List.mem_append.mp hr with hold | hnew
  · exact hinv.removed r hold
  · split at hnew
    · rename_i writer _ hcontent
      obtain rfl := List.mem_singleton.mp hnew
      cases writer with
      | none => simp [ownFile, hcontent] at hown
      | some k =>
          have hmem : (row, k) ∈ s.recorded := by simpa [ownFile, hcontent] using hown
          obtain ⟨u, c, hu, hc, hpos, hle⟩ := hinv.recorded _ hmem
          exact ⟨k, rfl, u, c, hu, hc, hpos, hle.trans hexpired⟩
    · cases hnew

theorem sweepInv_sweepRows {s : DropBox} (hinv : s.SweepInv) (refuses : Bool) (rows : List FileTtlRow)
    (hexpired : ∀ row ∈ rows, row.expiresAt ≤ s.clock)
    (hown : ∀ row ∈ rows.head?, row.mountCode = dropboxCode → s.ownFile disk dropboxDir row = true) :
    (s.sweepRows disk dropboxDir dropboxCode s.clock refuses rows).SweepInv := by
  cases rows with
  | nil =>
      exact ⟨hinv.recorded, hinv.removed, hinv.timely, by simp [sweepRows, SweepPc.rows],
        by simp [sweepRows]⟩
  | cons row rest =>
      obtain ⟨hrow, hrest⟩ := List.forall_mem_cons.mp hexpired
      simp only [sweepRows]
      split
      · rename_i hcode
        have hremoved := sweepInv_removeRow disk dropboxDir hinv refuses row hrow (hown row rfl hcode)
        exact ⟨hremoved.recorded, hremoved.removed, hremoved.timely, hrest, by simp⟩
      · exact ⟨hinv.recorded, hinv.removed, hinv.timely, hrest, by simp⟩

theorem sweepInv_resumeSweep {s : DropBox} (hinv : s.SweepInv) (refuses : Bool)
    (hown : ∀ row ∈ s.nextRow, row.mountCode = dropboxCode → s.ownFile disk dropboxDir row = true) :
    (s.resumeSweep disk dropboxDir dropboxCode s.clock refuses).SweepInv := by
  unfold resumeSweep
  cases hpc : s.sweep with
  | idle =>
      refine ⟨hinv.recorded, hinv.removed, hinv.timely, by simp [SweepPc.rows], ?_⟩
      rintro calledAt ⟨⟩
      exact le_rfl
  | selecting calledAt =>
      apply sweepInv_sweepRows disk dropboxDir dropboxCode hinv refuses
      · intro row hrow
        have hle : row.expiresAt ≤ calledAt := by simpa using (List.mem_filter.mp hrow).2
        exact hle.trans (hinv.selecting calledAt hpc)
      · simpa [nextRow, hpc] using hown
  | deleting row rest =>
      have hrows := hinv.rows
      rw [hpc] at hrows
      exact ⟨hinv.recorded, hinv.removed, hinv.timely, hrows, by simp⟩
  | committing rest =>
      have hrows := hinv.rows
      rw [hpc] at hrows
      apply sweepInv_sweepRows disk dropboxDir dropboxCode hinv refuses rest hrows
      simpa [nextRow, hpc] using hown

theorem sweepInv_bootRows {s : DropBox} (hinv : s.SweepInv) (refuses : FileTtlRow → Bool)
    (rows : List FileTtlRow) (hexpired : ∀ row ∈ rows, row.expiresAt ≤ s.clock)
    (hown : ∀ row ∈ rows, s.ownFile disk dropboxDir row = true) :
    (s.bootRows disk dropboxDir s.clock refuses rows).SweepInv := by
  induction rows generalizing s with
  | nil => exact ⟨hinv.recorded, hinv.removed, hinv.timely, hinv.rows, hinv.selecting⟩
  | cons row rows ih =>
      obtain ⟨hrow, hrest⟩ := List.forall_mem_cons.mp hexpired
      obtain ⟨hrowOwn, hrestOwn⟩ := List.forall_mem_cons.mp hown
      simp only [bootRows]
      split
      · exact ⟨hinv.recorded, hinv.removed, hinv.timely, hinv.rows, hinv.selecting⟩
      · apply ih (sweepInv_removeRow disk dropboxDir hinv (refuses row) row hrow hrowOwn) hrest
        intro row' hrow'
        have hbefore := hrestOwn row' hrow'
        -- a file that the path still leads to is the one that it led to
        cases hcontent : contentAt disk dropboxDir
            (s.removeRow disk dropboxDir s.clock (refuses row) row).fs row' with
        | none => simp [ownFile, hcontent]
        | some writer =>
            have hsame := contentAt_of_sub disk dropboxDir s.fs _
              (removeExpired_sub disk dropboxDir (refuses row) row s.fs) row' writer hcontent
            simp only [ownFile, hcontent]
            simp only [ownFile, hsame] at hbefore
            exact hbefore

theorem sweepInv_boot {s : DropBox} (hinv : s.SweepInv) (refuses : FileTtlRow → Bool)
    (hown : ∀ row ∈ s.table.filter (FileTtlTable.expiredFor (some dropboxCode) s.clock),
      s.ownFile disk dropboxDir row = true) :
    (s.boot disk dropboxDir dropboxCode s.clock refuses).SweepInv := by
  let ended : DropBox := { s with
    requests := s.requests.map UploadState.ended
    sweep := .idle
    table := (s.table.deleteExpiredForMount (some dropboxCode) s.clock).2 }
  have hended : ∀ u : UploadState, u.ended.input = u.input ∧ u.ended.storedAt = u.storedAt ∧
      u.ended.Timely s.clock := by
    intro u
    unfold UploadState.ended
    split
    · rename_i hpc
      exact ⟨rfl, rfl, by simp [UploadState.Timely, hpc]⟩
    · exact ⟨rfl, rfl, trivial⟩
  have hkeeps : KeepsStored s ended := by
    intro k u hu
    refine ⟨u.ended, by simp [ended, hu], (hended u).1, ?_⟩
    intro c hc
    rw [(hended u).2.1]
    exact hc
  have hafter : ended.SweepInv := by
    refine ⟨?_, ?_, ?_, by simp [ended, SweepPc.rows], by simp [ended]⟩
    · intro e he
      exact (hinv.recorded e he).keep hkeeps
    · intro r hr
      obtain ⟨k, hk, hexpired⟩ := hinv.removed r hr
      exact ⟨k, hk, hexpired.keep hkeeps⟩
    · intro k u hu
      obtain ⟨v, -, rfl⟩ := List.mem_map.mp (List.mem_of_getElem? hu)
      exact (hended v).2.2
  apply sweepInv_bootRows disk dropboxDir hafter refuses _ _ hown
  intro row hrow
  have hexpired := (List.mem_filter.mp hrow).2
  simp only [FileTtlTable.expiredFor, decide_eq_true_eq] at hexpired
  exact hexpired.2

theorem sweepInv_act {s t : DropBox} (hinv : s.SweepInv) (a : DropBoxAction)
    (hown : s.findsOwnFiles disk dropboxDir dropboxCode (s.clock, a) = true)
    (h : s.act disk dropboxDir dropboxCode s.clock a = some t) : t.SweepInv := by
  cases a with
  | upload input =>
      cases h
      have hkeeps : KeepsStored s { s with requests := s.requests ++ [⟨input, .starting, none⟩] } := by
        intro k u hu
        have hlt := (List.getElem?_eq_some_iff.mp hu).1
        exact ⟨u, (List.getElem?_append_left hlt).trans hu, rfl, fun _ hc => hc⟩
      have htimely : ∀ (k : Nat) (u : UploadState),
          (s.requests ++ [⟨input, .starting, none⟩])[k]? = some u → u.Timely s.clock := by
        intro k u hu
        rcases List.mem_append.mp (List.mem_of_getElem? hu) with hold | hnew
        · obtain ⟨j, hj⟩ := List.mem_iff_getElem?.mp hold
          exact hinv.timely j u hj
        · obtain rfl := List.mem_singleton.mp hnew
          rfl
      exact hinv.of_requests hkeeps htimely rfl rfl rfl le_rfl
  | resume k =>
      obtain ⟨u, hu, hresume⟩ := Option.bind_eq_some_iff.mp h
      exact sweepInv_resumeUpload disk dropboxDir dropboxCode hinv k u hu hresume
  | raise k =>
      obtain ⟨u, hu, hraise⟩ := Option.bind_eq_some_iff.mp h
      unfold raiseUpload at hraise
      split at hraise
      · cases hraise
      · cases hraise
      · cases hraise
        exact hinv.move k u { u with pc := .failed } hu rfl (fun _ hc => hc) trivial rfl rfl rfl rfl rfl
  | deleteFiles paths =>
      cases h
      exact hinv.of_requests (keepsStored_of_eq rfl) hinv.timely rfl rfl rfl le_rfl
  | renameFile path newName =>
      cases h
      exact hinv.of_requests (keepsStored_of_eq rfl) hinv.timely rfl rfl rfl le_rfl
  | createNewFolder parentPath name =>
      cases h
      exact hinv.of_requests (keepsStored_of_eq rfl) hinv.timely rfl rfl rfl le_rfl
  | sweep refuses =>
      cases h
      apply sweepInv_resumeSweep disk dropboxDir dropboxCode hinv refuses
      intro row hrow hcode
      have hall := hown
      simp only [findsOwnFiles, Option.mem_def.mp hrow, Option.all_some, hcode] at hall
      simpa using hall
  | boot refuses =>
      cases h
      apply sweepInv_boot disk dropboxDir dropboxCode hinv refuses
      exact List.all_eq_true.mp hown

theorem sweepInv_step (s : DropBox) (a : Int × DropBoxAction) (t : DropBox) (hinv : s.SweepInv)
    (hown : s.findsOwnFiles disk dropboxDir dropboxCode a = true)
    (h : s.step disk dropboxDir dropboxCode a = some t) : t.SweepInv := by
  obtain ⟨now, a⟩ := a
  simp only [step] at h
  split at h
  · cases h
  · rename_i hlate
    have hnow : s.clock ≤ now := by
      rw [not_or, not_lt] at hlate
      exact hlate.1
    have hlater : ({ s with clock := now } : DropBox).SweepInv :=
      hinv.of_requests (keepsStored_of_eq rfl) (fun k u hu => (hinv.timely k u hu).mono hnow) rfl rfl rfl hnow
    exact sweepInv_act disk dropboxDir dropboxCode hlater a hown h

/-- Where every row finds the file for which it was recorded, or none, only expired uploads are removed. -/
theorem sweep_removes_only_expired (fs : FileSystem (Option Nat)) (begin : Int)
    (as : List (Int × DropBoxAction))
    (hown : TransitionSystem.Guarded (step disk dropboxDir dropboxCode)
      (fun s a => s.findsOwnFiles disk dropboxDir dropboxCode a = true) (start fs begin) as) :
    TransitionSystem.Throughout (step disk dropboxDir dropboxCode) OnlyExpired (start fs begin) as := by
  have hstart : (start fs begin).SweepInv := by
    refine ⟨?_, ?_, ?_, ?_, ?_⟩
    · intro e he
      cases he
    · intro r hr
      cases hr
    · intro k u hu
      cases hu
    · intro row hrow
      cases hrow
    · intro calledAt hcalled
      cases hcalled
  exact TransitionSystem.throughout_of_guarded _ _ SweepInv _ (fun _ hinv => hinv.removed)
    (sweepInv_step disk dropboxDir dropboxCode) hstart hown

end Steps

/-- A disk with an empty drop box. -/
def dropboxDisk : Server.FileService.Disk (Option Nat) := ⟨⟨40, 40⟩, fun _ => 0, fun _ => "", 20⟩

def emptyDropbox : FileSystem (Option Nat) where
  tree := [(["data"], .dir), (["data", "dropbox"], .dir)]
  closed := by decide

/-- `a.txt` is uploaded at the time 0 for ten seconds. -/
def shortUpload : List (Int × DropBoxAction) :=
  [(0, .upload ⟨"", ["a.txt"], none, some 10⟩), (0, .resume 0), (0, .resume 0), (0, .resume 0),
    (0, .resume 0), (0, .resume 0)]

/-- A sweep at the time 20 that deletes one row. -/
def sweepOfOne : List (Int × DropBoxAction) :=
  [(20, .sweep false), (20, .sweep false), (20, .sweep false), (20, .sweep false)]

/-- The file of the upload is the one that the sweep removes. -/
theorem sweep_removes_short_upload :
    ∃ s, TransitionSystem.run (step dropboxDisk ["data", "dropbox"] "drop") (start emptyDropbox 0)
        (shortUpload ++ sweepOfOne) = some s ∧ s.removed = [⟨some 0, 20⟩] ∧ s.OnlyExpired := by
  have hown : TransitionSystem.Guarded (step dropboxDisk ["data", "dropbox"] "drop")
      (fun s a => s.findsOwnFiles dropboxDisk ["data", "dropbox"] "drop" a = true) (start emptyDropbox 0)
      (shortUpload ++ sweepOfOne) := by
    decide +kernel
  have hremoved : (TransitionSystem.run (step dropboxDisk ["data", "dropbox"] "drop") (start emptyDropbox 0)
      (shortUpload ++ sweepOfOne)).any (fun s => s.removed = [⟨some 0, 20⟩]) = true := by
    decide +kernel
  obtain ⟨s, hrun, hs⟩ := (Option.any_eq_true _ _).mp hremoved
  have hexpired := (sweep_removes_only_expired dropboxDisk ["data", "dropbox"] "drop" emptyDropbox 0 _
    hown).last hrun
  exact ⟨s, hrun, of_decide_eq_true hs, hexpired⟩

/-- `a.txt` is overwritten at the time 5, and the new file has no TTL. -/
def lastingUpload : List (Int × DropBoxAction) :=
  [(5, .upload ⟨"", ["a.txt"], some .overwrite, some 0⟩), (5, .resume 1), (5, .resume 1), (5, .resume 1)]
/-- The sweep removes the file that took the place of the expired one, although it has no TTL. -/
theorem sweep_removes_lasting_upload :
    ∃ s, TransitionSystem.run (step dropboxDisk ["data", "dropbox"] "drop") (start emptyDropbox 0)
        (shortUpload ++ lastingUpload ++ sweepOfOne) = some s ∧ s.removed = [⟨some 1, 20⟩] ∧
      ¬TransitionSystem.Throughout (step dropboxDisk ["data", "dropbox"] "drop") OnlyExpired
        (start emptyDropbox 0) (shortUpload ++ lastingUpload ++ sweepOfOne) := by
  have hremoved : (TransitionSystem.run (step dropboxDisk ["data", "dropbox"] "drop") (start emptyDropbox 0)
      (shortUpload ++ lastingUpload ++ sweepOfOne)).any
      (fun s => s.removed = [⟨some 1, 20⟩] && (s.requests[1]?.map fun u => u.input.ttl) = some (some 0)) =
        true := by
    decide +kernel
  obtain ⟨s, hrun, hs⟩ := (Option.any_eq_true _ _).mp hremoved
  simp only [Bool.and_eq_true, decide_eq_true_eq] at hs
  refine ⟨s, hrun, hs.1, ?_⟩
  intro hthroughout
  obtain ⟨k, hk, u, c, hu, -, hpos, -⟩ := hthroughout.last hrun ⟨some 1, 20⟩ (by simp [hs.1])
  obtain rfl := Option.some.inj hk
  have httl : u.input.ttl = some 0 := by simpa [hu] using hs.2
  simp [UploadInput.effectiveTtl, httl] at hpos

end DropBox

end NetworkFileServer.Relay
