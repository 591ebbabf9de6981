import NetworkFileServer.Server.FileRequests

/-!
# One outcome per file request

`fulfill_request` checks the status of a request in one store call and writes the new one in another.
The outcome of a request is settled once, as long as it is still PENDING when the write comes; in
between another call may have fulfilled or dismissed it.
-/

namespace NetworkFileServer.Server.RequestSystem

open TransitionSystem

/-- Call number `i` has returned successfully. -/
def Succeeded (s : RequestSystem) (i : Nat) (f : Fulfilment) (row : FileRequestRow) : Prop :=
  s.calls[i]? = some (.fulfilled f row)

/-- Call number `i` is about to write. -/
def Writing (s : RequestSystem) (i : Nat) (f : Fulfilment) (now : String) : Prop :=
  s.calls[i]? = some (.fulfillUpdate f now)

/-- The stored `fulfilled_*` fields are the arguments of the call and the time that it has returned. -/
def StoredFor (t : FileRequestTable) (f : Fulfilment) (returned : FileRequestRow) : Prop :=
  ∃ row, t.getFileRequest f.requestId = some row ∧ row.fulfilledByDeviceName = some f.byDeviceName ∧
    row.fulfilledFileName = some f.fileName ∧ row.fulfilledFilePath = some f.filePath ∧
    row.fulfilledAt = returned.fulfilledAt

structure OneOutcome (s : RequestSystem) : Prop where
  once : ∀ i j f g row row', s.Succeeded i f row → s.Succeeded j g row' → f.requestId = g.requestId → i = j
  stored : ∀ i f row, s.Succeeded i f row → StoredFor s.table f row
  final : ∀ id ∈ s.wasDismissed, ∀ row, s.table.getFileRequest id = some row → row.status ≠ .fulfilled

/-- A fulfilment is written while the request is still PENDING. -/
def StillPending (s : RequestSystem) : RequestAction → Bool
  | .start _ => true
  | .resume i _ =>
      match s.calls[i]? with
      | some (.fulfillUpdate f _) =>
          (s.table.getFileRequest f.requestId).any fun row => row.status = .pending
      | _ => true

/-- The outcomes so far, and what is known about a call that is about to write. -/
structure Inv (s : RequestSystem) : Prop where
  once : ∀ i j f g row row', s.Succeeded i f row → s.Succeeded j g row' → f.requestId = g.requestId → i = j
  stored : ∀ i f row, s.Succeeded i f row → StoredFor s.table f row
  settled : ∀ i f row, s.Succeeded i f row → ∀ current,
    s.table.getFileRequest f.requestId = some current → current.status ≠ .pending
  recorded : ∀ id ∈ dismissedIn s.table, id ∈ s.wasDismissed
  kept : ∀ id ∈ s.wasDismissed, ∀ row, s.table.getFileRequest id = some row → row.status = .dismissed
  writing : ∀ i f now, s.Writing i f now → ∃ row, s.table.getFileRequest f.requestId = some row ∧
    (row.status = .fulfilled → ∃ j g row', s.Succeeded j g row' ∧ g.requestId = f.requestId)

theorem mem_dismissedIn (t : FileRequestTable) (id : String) :
    id ∈ dismissedIn t ↔ ∃ row, t.getFileRequest id = some row ∧ row.status = .dismissed := by
  unfold dismissedIn
  simp only [List.mem_map, List.mem_filter, decide_eq_true_eq, t.get_eq_some_iff]
  constructor
  · rintro ⟨row, ⟨hrow, hstatus⟩, hid⟩
    exact ⟨row, ⟨hrow, hid⟩, hstatus⟩
  · rintro ⟨row, ⟨hrow, hid⟩, hstatus⟩
    exact ⟨row, ⟨hrow, hstatus⟩, hid⟩

theorem dismissed_of_mem {t : FileRequestTable} {id : String} (h : id ∈ dismissedIn t)
    (row : FileRequestRow) (hrow : t.getFileRequest id = some row) : row.status = .dismissed := by
  obtain ⟨row', hrow', hstatus⟩ := (mem_dismissedIn t id).mp h
  rw [Option.some.inj (hrow.symm.trans hrow')]
  exact hstatus

theorem inv_start (t : FileRequestTable) : Inv (start t) where
  once := by
    intro i j f g row row' hi
    simp [Succeeded, start] at hi
  stored := by
    intro i f row hi
    simp [Succeeded, start] at hi
  settled := by
    intro i f row hi
    simp [Succeeded, start] at hi
  recorded := fun id hid => hid
  kept := fun id hid row hrow => dismissed_of_mem hid row hrow
  writing := by
    intro i f now hi
    simp [Writing, start] at hi

theorem Inv.oneOutcome {s : RequestSystem} (h : s.Inv) : s.OneOutcome where
  once := h.once
  stored := h.stored
  final := by
    intro id hid row hrow
    rw [h.kept id hid row hrow]
    decide

inductive Change (s : RequestSystem) (a : RequestAction) (t : RequestSystem) : Prop where
  /-- Nothing is written, and a call that is about to write has just read PENDING. -/
  | quiet (htable : t.table = s.table)
      (hsucceeded : ∀ i f row, t.Succeeded i f row ↔ s.Succeeded i f row)
      (hwriting : ∀ i f now, t.Writing i f now → s.Writing i f now ∨
        ∃ row, s.table.getFileRequest f.requestId = some row ∧ row.status = .pending)
  | fulfills (i : Nat) (f : Fulfilment) (now : String) (row : FileRequestRow)
      (change : FileRequestRow → FileRequestRow) (hid : ∀ r, (change r).id = r.id)
      (hchange : change = FileRequestTable.nextRow (some .fulfilled) (some f.byDeviceName)
        (some f.fileName) (some f.filePath) (some now))
      (ha : ∃ now, a = .resume i now) (hi : s.Writing i f now)
      (hrow : s.table.getFileRequest f.requestId = some row)
      (htable : t.table = s.table.update f.requestId change hid)
      (hcalls : t.calls = s.calls.set i (.fulfilled f (change row)))
  | dismisses (i : Nat) (id : String) (row : FileRequestRow)
      (hi : s.calls[i]? = some (.dismissUpdate id)) (hrow : s.table.getFileRequest id = some row)
      (htable : t.table = s.table.update id (fun r => { r with status := .dismissed }) fun _ => rfl)
      (hcalls : t.calls = s.calls.set i (.dismissed id))

theorem step_wasDismissed {s t : RequestSystem} {a : RequestAction} (h : s.step a = some t) (id : String) :
    id ∈ t.wasDismissed ↔ id ∈ s.wasDismissed ∨ id ∈ dismissedIn t.table := by
  obtain ⟨m, -, rfl⟩ := Option.map_eq_some_iff.mp h
  exact List.mem_append

theorem quiet_of_set {s t : RequestSystem} {a : RequestAction} {i : Nat} {pc pc' : RequestCallPc}
    (hi : s.calls[i]? = some pc)
    (hpc : ∀ f row, pc ≠ .fulfilled f row) (htable : t.table = s.table)
    (hcalls : t.calls = s.calls.set i pc') (hpc' : ∀ f row, pc' ≠ .fulfilled f row)
    (hread : ∀ f now, pc' = .fulfillUpdate f now →
      ∃ row, s.table.getFileRequest f.requestId = some row ∧ row.status = .pending) : Change s a t := by
  have hlt : i < s.calls.length := (List.getElem?_eq_some_iff.mp hi).1
  refine .quiet htable ?_ ?_
  · intro j f row
    unfold Succeeded
    rw [hcalls]
    by_cases hij : i = j
    · subst hij
      rw [List.getElem?_set_self hlt, hi]
      simp [hpc, hpc']
    · rw [List.getElem?_set_ne hij]
  · intro j f now hj
    unfold Writing at hj
    rw [hcalls] at hj
    rcases getElem?_set_cases hj with ⟨-, hnew⟩ | ⟨-, hold⟩
    · exact .inr (hread f now hnew.symm)
    · exact .inl hold

theorem step_change {s t : RequestSystem} {a : RequestAction} (h : s.step a = some t) : Change s a t := by
  obtain ⟨⟨table, calls⟩, hmove, rfl⟩ := Option.map_eq_some_iff.mp h
  cases a with
  | start call =>
      cases hmove
      refine .quiet rfl ?_ ?_
      · intro i f row
        constructor
        · intro hi
          rcases getElem?_concat_cases hi with hold | ⟨-, hnew⟩
          · exact hold
          · cases call <;> cases hnew
        · intro hi
          have hlt : i < s.calls.length := (List.getElem?_eq_some_iff.mp hi).1
          exact (List.getElem?_append_left hlt).trans hi
      · intro i f now hi
        rcases getElem?_concat_cases hi with hold | ⟨-, hnew⟩
        · exact .inl hold
        · cases call <;> cases hnew
  | resume i now =>
      obtain ⟨⟨table', pc'⟩, hresume, hpair⟩ := Option.map_eq_some_iff.mp hmove
      obtain ⟨pc, hi, hresume⟩ := Option.bind_eq_some_iff.mp hresume
      cases hpair
      cases pc with
      | fulfillGet f =>
          have hquiet : ∀ pc', (∀ f row, pc' ≠ .fulfilled f row) →
              (∀ f now, pc' = .fulfillUpdate f now → ∃ row,
                s.table.getFileRequest f.requestId = some row ∧ row.status = .pending) →
              Change s (.resume i now) ⟨s.table, s.calls.set i pc', s.wasDismissed ++ dismissedIn s.table⟩ :=
            fun pc' => quiet_of_set hi (by simp) rfl rfl
          simp only [RequestCallPc.resume] at hresume
          split at hresume
          · cases hresume
            exact hquiet _ (by simp) (by simp)
          · rename_i current hcurrent
            split at hresume
            · cases hresume
              exact hquiet _ (by simp) (by simp)
            · rename_i hstatus
              cases hresume
              refine hquiet _ (by simp) ?_
              intro g now' heq
              cases heq
              exact ⟨current, hcurrent, not_not.mp hstatus⟩
      | fulfillUpdate f at_ =>
          simp only [RequestCallPc.resume] at hresume
          split at hresume
          · cases hresume
            exact quiet_of_set hi (by simp) rfl rfl (by simp) (by simp)
          · rename_i row t' hupdate
            cases hresume
            obtain ⟨current, hcurrent, hpair⟩ := Option.map_eq_some_iff.mp hupdate
            cases hpair
            exact .fulfills i f at_ current (FileRequestTable.nextRow _ _ _ _ _)
              (FileRequestTable.nextRow_id _ _ _ _ _) rfl ⟨now, rfl⟩ hi
              hcurrent rfl rfl
      | dismissGet id caller =>
          simp only [RequestCallPc.resume] at hresume
          split at hresume
          · cases hresume
            exact quiet_of_set hi (by simp) rfl rfl (by simp) (by simp)
          · split at hresume
            · cases hresume
              exact quiet_of_set hi (by simp) rfl rfl (by simp) (by simp)
            · cases hresume
              exact quiet_of_set hi (by simp) rfl rfl (by simp) (by simp)
      | dismissUpdate id =>
          simp only [RequestCallPc.resume] at hresume
          split at hresume
          · cases hresume
            exact quiet_of_set hi (by simp) rfl rfl (by simp) (by simp)
          · rename_i t' hdismiss
            cases hresume
            obtain ⟨row, hrow, htable⟩ := Option.map_eq_some_iff.mp hdismiss
            exact .dismisses i id row hi hrow htable.symm rfl
      | fulfilled f row => cases hresume
      | dismissed id => cases hresume
      | raised e => cases hresume

theorem succeeded_set {s t : RequestSystem} {i : Nat} {pc pc' : RequestCallPc} (hi : s.calls[i]? = some pc)
    (hpc : ∀ f row, pc ≠ .fulfilled f row) (hcalls : t.calls = s.calls.set i pc') (j : Nat) (f : Fulfilment)
    (row : FileRequestRow) :
    t.Succeeded j f row ↔ (j = i ∧ pc' = .fulfilled f row) ∨ s.Succeeded j f row := by
  have hlt : i < s.calls.length := (List.getElem?_eq_some_iff.mp hi).1
  unfold Succeeded
  rw [hcalls]
  by_cases hij : i = j
  · subst hij
    rw [List.getElem?_set_self hlt, hi]
    simp [hpc]
  · rw [List.getElem?_set_ne hij]
    simp [Ne.symm hij]

theorem inv_quiet {s t : RequestSystem} {a : RequestAction} (hs : s.Inv) (h : s.step a = some t)
    (htable : t.table = s.table) (hsucceeded : ∀ i f row, t.Succeeded i f row ↔ s.Succeeded i f row)
    (hwriting : ∀ i f now, t.Writing i f now → s.Writing i f now ∨
      ∃ row, s.table.getFileRequest f.requestId = some row ∧ row.status = .pending) : t.Inv where
  once := by
    intro i j f g row row' hi hj
    exact hs.once i j f g row row' ((hsucceeded i f row).mp hi) ((hsucceeded j g row').mp hj)
  stored := by
    intro i f row hi
    rw [htable]
    exact hs.stored i f row ((hsucceeded i f row).mp hi)
  settled := by
    intro i f row hi
    rw [htable]
    exact hs.settled i f row ((hsucceeded i f row).mp hi)
  recorded := fun id hid => (step_wasDismissed h id).mpr (.inr hid)
  kept := by
    intro id hid row hrow
    rcases (step_wasDismissed h id).mp hid with hold | hnew
    · rw [htable] at hrow
      exact hs.kept id hold row hrow
    · exact dismissed_of_mem hnew row hrow
  writing := by
    intro i f now hi
    rw [htable]
    rcases hwriting i f now hi with hold | ⟨row, hrow, hstatus⟩
    · obtain ⟨row, hrow, hdone⟩ := hs.writing i f now hold
      refine ⟨row, hrow, ?_⟩
      intro hstatus
      obtain ⟨j, g, row', hj, hid⟩ := hdone hstatus
      exact ⟨j, g, row', (hsucceeded j g row').mpr hj, hid⟩
    · refine ⟨row, hrow, ?_⟩
      intro hfulfilled
      rw [hstatus] at hfulfilled
      cases hfulfilled

theorem inv_fulfills {s t : RequestSystem} {a : RequestAction} (hs : s.Inv) (h : s.step a = some t) {i : Nat}
    {f : Fulfilment} {now : String} {row : FileRequestRow} {change : FileRequestRow → FileRequestRow}
    {hid : ∀ r, (change r).id = r.id}
    (hchange : change = FileRequestTable.nextRow (some .fulfilled) (some f.byDeviceName)
      (some f.fileName) (some f.filePath) (some now))
    (hi : s.Writing i f now) (hrow : s.table.getFileRequest f.requestId = some row)
    (hpending : row.status = .pending) (htable : t.table = s.table.update f.requestId change hid)
    (hcalls : t.calls = s.calls.set i (.fulfilled f (change row))) : t.Inv := by
  have hget := fun id => s.table.get_update f.requestId id change hid
  rw [← htable] at hget
  have hself : t.table.getFileRequest f.requestId = some (change row) := by simp [hget, hrow]
  have hother : ∀ id, id ≠ f.requestId → t.table.getFileRequest id = s.table.getFileRequest id := by
    intro id hne
    simp [hget, hne]
  have hstatus : (change row).status = .fulfilled := by rw [hchange]; rfl
  have hsucceeded := succeeded_set hi (by simp) hcalls
  have hfresh : ∀ j g row', s.Succeeded j g row' → g.requestId ≠ f.requestId := by
    intro j g row' hj heq
    exact hs.settled j g row' hj row (heq ▸ hrow) hpending
  constructor
  · intro j k g g' r r' hj hk heq
    rcases (hsucceeded j g r).mp hj with ⟨rfl, hnew⟩ | hj
    · cases hnew
      rcases (hsucceeded k g' r').mp hk with ⟨rfl, -⟩ | hk
      · rfl
      · exact absurd heq.symm (hfresh k g' r' hk)
    · rcases (hsucceeded k g' r').mp hk with ⟨rfl, hnew⟩ | hk
      · cases hnew
        exact absurd heq (hfresh j g r hj)
      · exact hs.once j k g g' r r' hj hk heq
  · intro j g r hj
    rcases (hsucceeded j g r).mp hj with ⟨rfl, hnew⟩ | hj
    · cases hnew
      exact ⟨change row, hself, by rw [hchange]; exact ⟨rfl, rfl, rfl, rfl⟩⟩
    · obtain ⟨stored, hstored, hfields⟩ := hs.stored j g r hj
      exact ⟨stored, (hother _ (hfresh j g r hj)).trans hstored, hfields⟩
  · intro j g r hj current hcurrent
    rcases (hsucceeded j g r).mp hj with ⟨rfl, hnew⟩ | hj
    · cases hnew
      rw [← Option.some.inj (hself.symm.trans hcurrent), hstatus]
      decide
    · rw [hother _ (hfresh j g r hj)] at hcurrent
      exact hs.settled j g r hj current hcurrent
  · exact fun id hid => (step_wasDismissed h id).mpr (.inr hid)
  · intro id hmem r hr
    rcases (step_wasDismissed h id).mp hmem with hold | hnew
    · have hne : id ≠ f.requestId := by
        rintro rfl
        have hdismissed := hs.kept _ hold row hrow
        rw [hpending] at hdismissed
        cases hdismissed
      rw [hother id hne] at hr
      exact hs.kept id hold r hr
    · exact dismissed_of_mem hnew r hr
  · intro j g now' hj
    unfold Writing at hj
    rw [hcalls] at hj
    rcases getElem?_set_cases hj with ⟨-, hnew⟩ | ⟨-, hold⟩
    · cases hnew
    · by_cases hsame : g.requestId = f.requestId
      · refine ⟨change row, hsame ▸ hself, fun _ => ⟨i, f, change row, ?_, hsame.symm⟩⟩
        exact (hsucceeded i f (change row)).mpr (.inl ⟨rfl, rfl⟩)
      · rw [hother _ hsame]
        obtain ⟨r, hr, hdone⟩ := hs.writing j g now' hold
        refine ⟨r, hr, ?_⟩
        intro hfulfilled
        obtain ⟨k, g', r', hk, heq⟩ := hdone hfulfilled
        exact ⟨k, g', r', (hsucceeded k g' r').mpr (.inr hk), heq⟩

theorem inv_dismisses {s t : RequestSystem} {a : RequestAction} (hs : s.Inv) (h : s.step a = some t) {i : Nat}
    {id : String} {row : FileRequestRow} (hi : s.calls[i]? = some (.dismissUpdate id))
    (hrow : s.table.getFileRequest id = some row)
    (htable : t.table = s.table.update id (fun r => { r with status := .dismissed }) fun _ => rfl)
    (hcalls : t.calls = s.calls.set i (.dismissed id)) : t.Inv := by
  have hget := fun id' =>
    s.table.get_update id id' (fun r => { r with status := .dismissed }) fun _ => rfl
  rw [← htable] at hget
  have hself : t.table.getFileRequest id = some { row with status := .dismissed } := by simp [hget, hrow]
  have hother : ∀ id', id' ≠ id → t.table.getFileRequest id' = s.table.getFileRequest id' := by
    intro id' hne
    simp [hget, hne]
  have hsucceeded : ∀ j f r, t.Succeeded j f r ↔ s.Succeeded j f r := by
    intro j f r
    simpa using succeeded_set hi (by simp) hcalls j f r
  constructor
  · intro j k f g r r' hj hk
    exact hs.once j k f g r r' ((hsucceeded j f r).mp hj) ((hsucceeded k g r').mp hk)
  · intro j f r hj
    obtain ⟨stored, hstored, hfields⟩ := hs.stored j f r ((hsucceeded j f r).mp hj)
    by_cases hsame : f.requestId = id
    · subst hsame
      cases hrow.symm.trans hstored
      exact ⟨_, hself, hfields⟩
    · exact ⟨stored, (hother _ hsame).trans hstored, hfields⟩
  · intro j f r hj current hcurrent
    by_cases hsame : f.requestId = id
    · subst hsame
      rw [← Option.some.inj (hself.symm.trans hcurrent)]
      simp
    · rw [hother _ hsame] at hcurrent
      exact hs.settled j f r ((hsucceeded j f r).mp hj) current hcurrent
  · exact fun id' hid' => (step_wasDismissed h id').mpr (.inr hid')
  · intro id' hmem r hr
    rcases (step_wasDismissed h id').mp hmem with hold | hnew
    · by_cases hsame : id' = id
      · subst hsame
        rw [← Option.some.inj (hself.symm.trans hr)]
      · rw [hother id' hsame] at hr
        exact hs.kept id' hold r hr
    · exact dismissed_of_mem hnew r hr
  · intro j f now hj
    unfold Writing at hj
    rw [hcalls] at hj
    rcases getElem?_set_cases hj with ⟨-, hnew⟩ | ⟨-, hold⟩
    · cases hnew
    · obtain ⟨r, hr, hdone⟩ := hs.writing j f now hold
      by_cases hsame : f.requestId = id
      · subst hsame
        refine ⟨_, hself, ?_⟩
        intro hfulfilled
        cases hfulfilled
      · refine ⟨r, (hother _ hsame).trans hr, ?_⟩
        intro hfulfilled
        obtain ⟨k, g, r', hk, heq⟩ := hdone hfulfilled
        exact ⟨k, g, r', (hsucceeded k g r').mpr hk, heq⟩

theorem inv_step (s : RequestSystem) (a : RequestAction) (t : RequestSystem) (hs : s.Inv)
    (hcond : s.StillPending a = true) (h : s.step a = some t) : t.Inv := by
  cases step_change h with
  | quiet htable hsucceeded hwriting => exact inv_quiet hs h htable hsucceeded hwriting
  | fulfills i f now row change hid hchange ha hi hrow htable hcalls =>
      obtain ⟨now', rfl⟩ := ha
      have hpending : row.status = .pending := by
        unfold StillPending at hcond
        unfold Writing at hi
        simpa [hi, hrow] using hcond
      exact inv_fulfills hs h hchange hi hrow hpending htable hcalls
  | dismisses i id row hi hrow htable hcalls => exact inv_dismisses hs h hi hrow htable hcalls

theorem step_of_writing {s t : RequestSystem} {i : Nat} {f : Fulfilment} {fulfilledAt now : String}
    {row : FileRequestRow} (hi : s.Writing i f fulfilledAt)
    (hrow : s.table.getFileRequest f.requestId = some row) (h : s.step (.resume i now) = some t) :
    let change := FileRequestTable.nextRow (some .fulfilled) (some f.byDeviceName) (some f.fileName)
      (some f.filePath) (some fulfilledAt)
    t.table = s.table.update f.requestId change (FileRequestTable.nextRow_id _ _ _ _ _) ∧
      t.calls = s.calls.set i (.fulfilled f (change row)) := by
  unfold Writing at hi
  simp only [step, move, hi, Option.bind_some, RequestCallPc.resume, FileRequestTable.updateFileRequest,
    hrow, Option.map_some, Option.some.injEq] at h
  subst h
  exact ⟨rfl, rfl⟩

theorem not_oneOutcome_of_late (s : RequestSystem) (a : RequestAction) (t : RequestSystem) (hs : s.Inv)
    (hcond : ¬s.StillPending a = true) (h : s.step a = some t) : ¬t.OneOutcome := by
  obtain ⟨i, now, f, fulfilledAt, rfl, hi⟩ : ∃ i now f fulfilledAt, a = .resume i now ∧
      s.Writing i f fulfilledAt := by
    unfold StillPending at hcond
    split at hcond
    · exact absurd rfl hcond
    · split at hcond
      · rename_i i now _ f fulfilledAt hi
        exact ⟨i, now, f, fulfilledAt, rfl, hi⟩
      · exact absurd rfl hcond
  obtain ⟨row, hrow, hdone⟩ := hs.writing i f fulfilledAt hi
  obtain ⟨htable, hcalls⟩ := step_of_writing hi hrow h
  have hsucceeded := succeeded_set hi (by simp) hcalls
  have hnew := (hsucceeded i f _).mpr (.inl ⟨rfl, rfl⟩)
  intro hone
  cases hstatus : row.status with
  | pending =>
      apply hcond
      unfold Writing at hi
      simp [StillPending, hi, hrow, hstatus]
  | fulfilled =>
      obtain ⟨j, g, r, hj, heq⟩ := hdone hstatus
      have hij := hone.once i j f g _ r hnew ((hsucceeded j g r).mpr (.inr hj)) heq.symm
      subst hij
      cases hi.symm.trans hj
  | dismissed =>
      have hmem : f.requestId ∈ s.wasDismissed :=
        hs.recorded _ ((mem_dismissedIn _ _).mpr ⟨row, hrow, hstatus⟩)
      refine hone.final f.requestId ((step_wasDismissed h _).mpr (.inl hmem)) (FileRequestTable.nextRow
        (some .fulfilled) (some f.byDeviceName) (some f.fileName) (some f.filePath) (some fulfilledAt) row)
        ?_ rfl
      rw [htable, s.table.get_update, if_pos rfl, hrow, Option.map_some]

/-- A request has one outcome in every state of a run exactly when every fulfilment is written while the
request is still PENDING. -/
theorem oneOutcome_iff (table : FileRequestTable) (actions : List RequestAction) (u : RequestSystem)
    (hrun : run step (start table) actions = some u) :
    Throughout step OneOutcome (start table) actions ↔
      Guarded step (fun s a => s.StillPending a = true) (start table) actions :=
  throughout_iff_guarded step (fun s a => s.StillPending a = true) Inv OneOutcome
    (fun _ hs => hs.oneOutcome) inv_step not_oneOutcome_of_late (inv_start table) hrun

def slidesRow : FileRequestRow :=
  ⟨"r1", "Need slides", "fox-phone", "Fox", .pending, "09:00", none, none, none, none⟩

def slidesTable : FileRequestTable := ⟨[slidesRow], by decide⟩

def bearFulfils : Fulfilment := ⟨"r1", "Bold Bear", "slides.pdf", "slides.pdf"⟩

def owlFulfils : Fulfilment := ⟨"r1", "Calm Owl", "slides_v2.pdf", "slides_v2.pdf"⟩

/-- The second device comes when the first is done. -/
def oneAfterTheOther : List RequestAction :=
  [.start (.fulfillRequest bearFulfils), .resume 0 "09:01", .resume 0 "09:02",
    .start (.fulfillRequest owlFulfils), .resume 1 "09:03"]

theorem oneOutcome_iff_oneAfterTheOther :
    Throughout step OneOutcome (start slidesTable) oneAfterTheOther := by
  obtain ⟨u, hrun⟩ : ∃ u, run step (start slidesTable) oneAfterTheOther = some u :=
    Option.isSome_iff_exists.mp (by decide +kernel)
  exact (oneOutcome_iff slidesTable oneAfterTheOther u hrun).mpr (by decide +kernel)

/-- Both devices have read PENDING before one of them writes. -/
def atTheSameTime : List RequestAction :=
  [.start (.fulfillRequest bearFulfils), .start (.fulfillRequest owlFulfils), .resume 0 "09:01",
    .resume 1 "09:01", .resume 0 "09:02", .resume 1 "09:02"]

/-- The row that a device gets back. -/
def fulfilledRow (f : Fulfilment) : FileRequestRow :=
  { slidesRow with
    status := .fulfilled, fulfilledByDeviceName := some f.byDeviceName,
    fulfilledFileName := some f.fileName, fulfilledFilePath := some f.filePath, fulfilledAt := some "09:01" }

/-- Both devices are told that they have fulfilled the request. -/
theorem not_oneOutcome_atTheSameTime :
    ¬∀ (table : FileRequestTable) (actions : List RequestAction) (u : RequestSystem),
        run step (start table) actions = some u → u.OneOutcome := by
  intro h
  have hcalls : (run step (start slidesTable) atTheSameTime).map RequestSystem.calls =
      some [.fulfilled bearFulfils (fulfilledRow bearFulfils),
        .fulfilled owlFulfils (fulfilledRow owlFulfils)] := by
    decide +kernel
  obtain ⟨u, hrun, hu⟩ := Option.map_eq_some_iff.mp hcalls
  have hbear : u.Succeeded 0 bearFulfils (fulfilledRow bearFulfils) := by
    unfold Succeeded
    rw [hu]
    rfl
  have howl : u.Succeeded 1 owlFulfils (fulfilledRow owlFulfils) := by
    unfold Succeeded
    rw [hu]
    rfl
  have hsame := (h slidesTable atTheSameTime u hrun).once 0 1 _ _ _ _ hbear howl rfl
  cases hsame

end NetworkFileServer.Server.RequestSystem
