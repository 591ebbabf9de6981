import NetworkFileServer.Client.SnippetReplica

/-!
# The replicas of the clipboard

When the clients come to have what the store has: where no edit is overtaken, and where the messages and
responses about a snippet arrive in an order that fits the changes of the store.
-/

namespace NetworkFileServer.Client

open Server TransitionSystem
open Function (update)
open SnippetCall (toSend updating retitling removing)

namespace SnippetNotice

def creates (snippetId : String) : SnippetNotice → Bool
  | .created snippet => snippet.id = snippetId
  | _ => false

def updates (snippetId : String) : SnippetNotice → Bool
  | .updated snippet => snippet.id = snippetId
  | _ => false

/-- The message brings the title and the content of the row. -/
def brings (current : ClipboardRow) : SnippetNotice → Bool
  | .updated snippet => snippet.id = current.id ∧ SameText snippet current
  | _ => false

end SnippetNotice

namespace ClipboardSystem

/-- No update of the snippet is on the way to the client whose content is to be stored, and the client still
shows this content, or has changed it again, or is removing the snippet. -/
def NotOvertaken (s : ClipboardSystem) (device snippetId content : String) : Bool :=
  (((s.clients device).inbox ++ toSend s.calls device).all fun notice => !notice.updates snippetId) &&
    ((held (s.clients device).snippets snippetId).any (fun row => row.content = content) ||
      (s.clients device).pending snippetId || removing s.calls device snippetId)

/-- A message leaves after the creation of its snippet, and with the present text of the snippet unless the
device is still to be sent that. -/
def LeavesInOrder (s : ClipboardSystem) (device : String) : SnippetNotice → Bool
  | .created _ => true
  | .updated snippet =>
      (toSend s.calls device).all (fun notice => !notice.creates snippet.id) &&
        (held s.table.rows snippet.id).all fun current =>
          (SnippetNotice.updated snippet).brings current || (toSend s.calls device).any (·.brings current)
  | .deleted snippetId => (toSend s.calls device).all fun notice => !notice.creates snippetId

/-- A response that adds a snippet to the list of the client finds it there, or its deletion is on the way to
the client. -/
def AddsInTime (s : ClipboardSystem) (device snippetId : String) : Bool :=
  snippetId ∈ (s.clients device).snippets.map ClipboardRow.id ||
    .deleted snippetId ∈ (s.clients device).inbox ++ toSend s.calls device

/-- The response to a creation may also come before the message about it, or while the client is removing the
snippet. -/
def CreatedInTime (s : ClipboardSystem) (device : String) (row : ClipboardRow) : Bool :=
  s.AddsInTime device row.id ||
    (s.clients device).inbox.find? (fun notice => notice.id = row.id) = some (.created row) ||
    (removing s.calls device row.id && (held s.table.rows row.id).isSome)

def Ordered (s : ClipboardSystem) : ClipboardEvent → Bool
  | .resume i _ _ =>
      match s.calls[i]? with
      | some ⟨device, _, .update snippetId content⟩ => s.NotOvertaken device snippetId content
      | some ⟨_, _, .send notice (target :: _)⟩ => s.LeavesInOrder target notice
      | _ => true
  | .answered i =>
      match s.calls[i]? with
      | some ⟨device, _, .answer (.created row)⟩ => s.CreatedInTime device row
      | some ⟨device, _, .refusedRemoval snippetId (some _)⟩ => s.AddsInTime device snippetId
      | _ => true
  | _ => true

/-- The client and the store, for one snippet. -/
def Agrees (table : ClipboardTable) (client : ClipboardClient) (calls : List SnippetCall) (device id : String) :
    Prop :=
  AgreesAt id (held table.rows id) (held client.snippets id) client.inbox (· ∈ toSend calls device)
    (removing calls device id = true) (retitling calls device id = true)
    (client.pending id = true ∨ updating calls device id = true)

/-- No title has been refused, and a snippet that is kept for its return has the id of the request. -/
def Kept : SnippetTask → Prop
  | .refusedTitle _ _ => False
  | .remove snippetId removed | .refusedRemoval snippetId removed =>
      ∀ row, removed = some row → row.id = snippetId
  | _ => True

structure Inv (devices : List String) (s : ClipboardSystem) : Prop where
  agrees : ∀ device ∈ devices, ∀ id, Agrees s.table (s.clients device) s.calls device id
  once : ∀ device ∈ devices, ((s.clients device).snippets.map ClipboardRow.id).Nodup
  kept : ∀ call ∈ s.calls, Kept call.task

variable {devices : List String} {s t : ClipboardSystem} {table : ClipboardTable} {client : ClipboardClient}
  {calls calls' : List SnippetCall} {device id : String}

theorem mem_toSend (notice : SnippetNotice) :
    notice ∈ toSend calls device ↔ ∃ call ∈ calls, call.task.sends device = some notice := by
  simp [toSend]

theorem removing_iff : removing calls device id = true ↔
    ∃ call ∈ calls, call.device = device ∧ call.task.removes id = true := by
  simp [removing]

theorem mem_toSend_cons (call : SnippetCall) (rest : List SnippetCall) (notice : SnippetNotice) :
    notice ∈ toSend (call :: rest) device ↔ call.task.sends device = some notice ∨ notice ∈ toSend rest device := by
  simp [mem_toSend]

theorem sends_send (notice n : SnippetNotice) (targets : List String) :
    (SnippetTask.send notice targets).sends device = some n ↔ device ∈ targets ∧ n = notice := by
  simp [SnippetTask.sends, eq_comm]

theorem mem_toSend_perm (hperm : calls.Perm calls') (notice : SnippetNotice) :
    notice ∈ toSend calls device ↔ notice ∈ toSend calls' device := by
  rw [mem_toSend, mem_toSend]
  simp only [hperm.mem_iff]

theorem mem_toSend_of_eraseIdx {i : Nat} {notice : SnippetNotice}
    (h : notice ∈ toSend (calls.eraseIdx i) device) : notice ∈ toSend calls device := by
  obtain ⟨call, hcall, hsends⟩ := (mem_toSend notice).mp h
  exact (mem_toSend notice).mpr ⟨call, List.mem_of_mem_eraseIdx hcall, hsends⟩

theorem Agrees.perm (h : Agrees table client calls device id) (hperm : calls.Perm calls') :
    Agrees table client calls' device id := by
  have hany : ∀ p : SnippetCall → Bool, calls.any p = true → calls'.any p = true := by
    intro p hp
    obtain ⟨call, hcall, htrue⟩ := List.any_eq_true.mp hp
    exact List.any_eq_true.mpr ⟨call, hperm.mem_iff.mp hcall, htrue⟩
  exact AgreesAt.mono h (fun notice _ => mem_toSend_perm hperm notice) (hany _) (hany _) (Or.imp_right (hany _))

theorem perm_of_get {i : Nat} {call : SnippetCall} (h : calls[i]? = some call) :
    (call :: calls.eraseIdx i).Perm calls := by
  obtain ⟨hlt, rfl⟩ := List.getElem?_eq_some_iff.mp h
  exact List.getElem_cons_eraseIdx_perm hlt

theorem perm_set {i : Nat} {call : SnippetCall} (h : calls[i]? = some call) (call' : SnippetCall) :
    (call' :: calls.eraseIdx i).Perm (calls.set i call') := by
  have hlt := (List.getElem?_eq_some_iff.mp h).1
  exact (List.set_perm_cons_eraseIdx hlt call').symm

theorem agrees_cons (call : SnippetCall) (rest : List SnippetCall) :
    Agrees table client (call :: rest) device id ↔
      AgreesAt id (held table.rows id) (held client.snippets id) client.inbox
        (fun notice => call.task.sends device = some notice ∨ notice ∈ toSend rest device)
        (call.device = device ∧ call.task.removes id = true ∨ removing rest device id = true)
        (call.device = device ∧ call.task.retitles id = true ∨ retitling rest device id = true)
        (client.pending id = true ∨ call.device = device ∧ call.task.updates id = true ∨
          updating rest device id = true) := by
  have hsend : (fun notice => notice ∈ toSend (call :: rest) device) =
      fun notice => call.task.sends device = some notice ∨ notice ∈ toSend rest device := by
    funext notice
    rw [mem_toSend_cons]
  unfold Agrees
  rw [hsend]
  simp [removing, retitling, updating]

theorem agrees_quiet {call call' : SnippetCall} {rest : List SnippetCall}
    (h : Agrees table client (call :: rest) device id)
    (hsend : call'.task.sends device = call.task.sends device)
    (hremoves : call.task.removes id = true → call'.device = call.device ∧ call'.task.removes id = true)
    (hretitles : call.task.retitles id = true → call'.device = call.device ∧ call'.task.retitles id = true)
    (hupdates : call.task.updates id = true → call'.device = call.device ∧ call'.task.updates id = true) :
    Agrees table client (call' :: rest) device id := by
  rw [agrees_cons] at h ⊢
  refine h.mono ?_ ?_ ?_ ?_
  · intro notice _
    rw [hsend]
  · apply Or.imp_left
    rintro ⟨hdevice, htrue⟩
    exact ⟨(hremoves htrue).1.trans hdevice, (hremoves htrue).2⟩
  · apply Or.imp_left
    rintro ⟨hdevice, htrue⟩
    exact ⟨(hretitles htrue).1.trans hdevice, (hretitles htrue).2⟩
  · apply Or.imp_right
    apply Or.imp_left
    rintro ⟨hdevice, htrue⟩
    exact ⟨(hupdates htrue).1.trans hdevice, (hupdates htrue).2⟩

theorem agrees_other {call call' : SnippetCall} {rest : List SnippetCall} {table' : ClipboardTable}
    (h : Agrees table client (call :: rest) device id) (hstore : held table'.rows id = held table.rows id)
    (hsend : ∀ notice, call.task.sends device = some notice → notice.id ≠ id)
    (hsend' : ∀ notice, call'.task.sends device = some notice → notice.id ≠ id)
    (hremoves : call.task.removes id = false) (hretitles : call.task.retitles id = false)
    (hupdates : call.task.updates id = false) : Agrees table' client (call' :: rest) device id := by
  rw [agrees_cons] at h ⊢
  rw [hstore]
  refine h.mono ?_ ?_ ?_ ?_
  · intro notice hid
    have hnot : ¬call.task.sends device = some notice := fun hs => hsend notice hs hid
    have hnot' : ¬call'.task.sends device = some notice := fun hs => hsend' notice hs hid
    rw [or_iff_right hnot, or_iff_right hnot']
  · simpa [hremoves] using fun hr : removing rest device id = true => Or.inr hr
  · simpa [hretitles] using fun hr : retitling rest device id = true => Or.inr hr
  · rw [hupdates]
    rintro (hp | ⟨-, hfalse⟩ | hu)
    · exact .inl hp
    · cases hfalse
    · exact .inr (.inr hu)

theorem agrees_sending {call : SnippetCall} {rest : List SnippetCall} {table' : ClipboardTable}
    (h : Agrees table client (call :: rest) device id) (notice : SnippetNotice) (targets : List String)
    (hstore : held table'.rows id = held table.rows id) (hid : notice.id ≠ id)
    (hsend : call.task.sends device = none) (hremoves : call.task.removes id = false)
    (hretitles : call.task.retitles id = false) (hupdates : call.task.updates id = false) :
    Agrees table' client ({ call with task := .send notice targets } :: rest) device id := by
  refine agrees_other h hstore ?_ ?_ hremoves hretitles hupdates
  · simp [hsend]
  · intro sent hsent
    simp only [SnippetTask.sends, Option.ite_none_right_eq_some, Option.some.injEq] at hsent
    rw [← hsent.2]
    exact hid

theorem inv_advance (h : Inv devices s) {i : Nat} {call : SnippetCall} (hi : s.calls[i]? = some call)
    {task : SnippetTask} (htask : Kept task)
    (hagrees : ∀ device ∈ devices, ∀ id, Agrees s.table (s.clients device) (call :: s.calls.eraseIdx i) device id →
      Agrees table (s.clients device) ({ call with task := task } :: s.calls.eraseIdx i) device id) :
    Inv devices (s.advance i call table task) where
  agrees := by
    intro device hdevice id
    have hbefore := (h.agrees device hdevice id).perm (perm_of_get hi).symm
    exact (hagrees device hdevice id hbefore).perm (perm_set hi _)
  once := h.once
  kept := by
    intro other hother
    rcases List.mem_or_eq_of_mem_set hother with hold | rfl
    · exact h.kept other hold
    · exact htask

theorem inv_silent (h : Inv devices s) {i : Nat} {call : SnippetCall} (hi : s.calls[i]? = some call)
    {task : SnippetTask} (htask : Kept task)
    (hsend : ∀ device, call.task.sends device = none) (hsend' : ∀ device, task.sends device = none)
    (hnone : ∀ id, call.task.removes id = false ∧ call.task.retitles id = false ∧ call.task.updates id = false) :
    Inv devices (s.advance i call s.table task) := by
  refine inv_advance h hi htask fun device _ id hbefore => ?_
  obtain ⟨hremoves, hretitles, hupdates⟩ := hnone id
  refine agrees_other hbefore rfl ?_ ?_ hremoves hretitles hupdates
  · intro notice hn
    rw [hsend] at hn
    cases hn
  · intro notice hn
    have hn' : task.sends device = some notice := hn
    rw [hsend'] at hn'
    cases hn'

theorem inv_insert (h : Inv devices s) {i : Nat} {call : SnippetCall} (hi : s.calls[i]? = some call)
    {title : String} (htask : call.task = .insert title) {row : ClipboardRow}
    (hinsert : s.table.insertClipboardSnippet row = some table) (hfresh : ¬s.Seen devices row.id) :
    Inv devices (s.advance i call table (.send (.created row) devices)) := by
  refine inv_advance h hi trivial fun device hdevice id hbefore => ?_
  obtain ⟨hnone, hheld⟩ := ClipboardTable.held_insert hinsert id
  by_cases hid : id = row.id
  · have hunseen : ∀ notice, notice ∈ (s.clients device).inbox ++ toSend s.calls device → notice.id ≠ id := by
      intro notice hn heq
      exact hfresh ⟨device, hdevice, .inr ⟨notice, hn, heq.trans hid⟩⟩
    rw [agrees_cons, hheld, if_pos hid]
    have hv : held (s.clients device).snippets id = none := by
      rw [held_eq_none_iff, hid]
      exact fun hin => hfresh ⟨device, hdevice, .inl hin⟩
    have hrest : ∀ notice, notice ∈ toSend (s.calls.eraseIdx i) device → notice.id ≠ id := by
      intro notice hn
      exact hunseen notice (List.mem_append_right _ (mem_toSend_of_eraseIdx hn))
    refine (AgreesAt.created row hid.symm hv (fun notice hn => hunseen notice (List.mem_append_left _ hn)) hrest).mono
      ?_ (fun hr => hr) (fun hr => hr) fun hu => hu
    intro notice _
    simp [SnippetTask.sends, hdevice, eq_comm]
  · refine agrees_sending hbefore _ _ ?_ (Ne.symm hid) ?_ ?_ ?_ ?_
    · rw [hheld, if_neg hid]
    · simp [htask, SnippetTask.sends]
    · simp [htask, SnippetTask.removes]
    · simp [htask, SnippetTask.retitles]
    · simp [htask, SnippetTask.updates]

theorem inv_retitle (h : Inv devices s) {i : Nat} {call : SnippetCall} (hi : s.calls[i]? = some call)
    {snippetId title now : String} {previous : Option ClipboardRow}
    (htask : call.task = .retitle snippetId title previous) {row : ClipboardRow}
    (hupdate : s.table.updateRow snippetId (some title) none now = some (row, table)) :
    Inv devices (s.advance i call table (.send (.updated row) devices)) := by
  refine inv_advance h hi trivial fun device hdevice id hbefore => ?_
  obtain ⟨old, hold, -, hrow, hheld⟩ := ClipboardTable.held_updateRow hupdate id
  by_cases hid : id = snippetId
  · rw [agrees_cons] at hbefore ⊢
    rw [hheld, if_pos hid]
    rw [hid, hold] at hbefore
    rw [hid]
    refine (AgreesAt.updated hbefore row hrow).mono ?_ ?_ (fun hr => hr) fun hu => hu
    · intro notice _
      simp [htask, SnippetTask.sends, hdevice, eq_comm]
    · simp [htask, SnippetTask.removes]
  · refine agrees_sending hbefore _ _ ?_ (fun heq => hid (heq.symm.trans hrow)) ?_ ?_ ?_ ?_
    · rw [hheld, if_neg hid]
    · simp [htask, SnippetTask.sends]
    · simp [htask, SnippetTask.removes]
    · simpa [htask, SnippetTask.retitles] using Ne.symm hid
    · simp [htask, SnippetTask.updates]

theorem inv_update (h : Inv devices s) {i : Nat} {call : SnippetCall} (hi : s.calls[i]? = some call)
    {snippetId content now : String} (htask : call.task = .update snippetId content) {row : ClipboardRow}
    (hupdate : s.table.updateRow snippetId none (some content) now = some (row, table))
    (hcond : s.NotOvertaken call.device snippetId content = true) :
    Inv devices (s.advance i call table (.send (.updated row) (devices.filter fun d => d ≠ call.device))) := by
  refine inv_advance h hi trivial fun device hdevice id hbefore => ?_
  obtain ⟨old, hold, hnext, hrow, hheld⟩ := ClipboardTable.held_updateRow hupdate id
  by_cases hid : id = snippetId
  · rw [agrees_cons] at hbefore ⊢
    rw [hheld, if_pos hid]
    rw [hid, hold] at hbefore
    rw [hid]
    by_cases hown : device = call.device
    · subst hown
      simp only [NotOvertaken, Bool.and_eq_true, List.all_eq_true, Bool.not_eq_true', Bool.or_eq_true] at hcond
      obtain ⟨hnone, hshown⟩ := hcond
      have hupdated : ∀ snippet, .updated snippet ∈ (s.clients call.device).inbox ++ toSend s.calls call.device →
          snippet.id ≠ snippetId := by
        intro snippet hin
        simpa [SnippetNotice.updates] using hnone _ hin
      have hcontent : row.content = content := by rw [hnext]; rfl
      have hshows : (∃ shown, held (s.clients call.device).snippets snippetId = some shown ∧
          shown.content = row.content) ∨ (s.clients call.device).pending snippetId = true ∨
          (call.device = call.device ∧ call.task.removes snippetId = true ∨
            removing (s.calls.eraseIdx i) call.device snippetId = true) := by
        rcases hshown with (hshows | hpending) | hremoving
        · obtain ⟨shown, hshown, heq⟩ := (Option.any_eq_true _ _).mp hshows
          exact .inl ⟨shown, hshown, by simpa [hcontent] using heq⟩
        · exact .inr (.inl hpending)
        · refine .inr (.inr (.inr ?_))
          rw [removing_iff] at hremoving ⊢
          obtain ⟨other, hother, hdev, hremoves⟩ := hremoving
          refine ⟨other, ?_, hdev, hremoves⟩
          rcases List.mem_cons.mp ((perm_of_get hi).mem_iff.mpr hother) with rfl | hin
          · simp [htask, SnippetTask.removes] at hremoves
          · exact hin
      refine (hbefore.stored row ?_ ?_ ?_ hshows).mono ?_ ?_ ?_ fun hpending => .inl hpending
      · rw [hnext]
        rfl
      · exact fun snippet hin => hupdated snippet (List.mem_append_left _ hin)
      · intro snippet hsent
        have hother : .updated snippet ∈ toSend (s.calls.eraseIdx i) call.device := by
          simpa [htask, SnippetTask.sends] using hsent
        exact hupdated snippet (List.mem_append_right _ (mem_toSend_of_eraseIdx hother))
      · intro notice _
        simp [htask, SnippetTask.sends]
      · simp [htask, SnippetTask.removes]
      · simp [htask, SnippetTask.retitles]
    · refine (AgreesAt.updated hbefore row hrow).mono ?_ ?_ (fun hr => hr) fun hu => hu
      · intro notice _
        simp [htask, SnippetTask.sends, hdevice, hown, eq_comm]
      · simp [htask, SnippetTask.removes]
  · refine agrees_sending hbefore _ _ ?_ (fun heq => hid (heq.symm.trans hrow)) ?_ ?_ ?_ ?_
    · rw [hheld, if_neg hid]
    · simp [htask, SnippetTask.sends]
    · simp [htask, SnippetTask.removes]
    · simp [htask, SnippetTask.retitles]
    · simpa [htask, SnippetTask.updates] using Ne.symm hid

theorem inv_remove (h : Inv devices s) {i : Nat} {call : SnippetCall} (hi : s.calls[i]? = some call)
    {snippetId : String} {kept : Option ClipboardRow} (htask : call.task = .remove snippetId kept)
    (hdelete : s.table.deleteClipboardSnippet snippetId = some table) :
    Inv devices (s.advance i call table (.send (.deleted snippetId) devices)) := by
  refine inv_advance h hi trivial fun device hdevice id hbefore => ?_
  have hheld := ClipboardTable.held_delete hdelete id
  by_cases hid : id = snippetId
  · rw [agrees_cons, hheld, if_pos hid, hid]
    have hsend : (fun notice => SnippetTask.sends device (.send (.deleted snippetId) devices) = some notice ∨
        notice ∈ toSend (s.calls.eraseIdx i) device) =
        fun notice => notice = .deleted snippetId ∨ notice ∈ toSend (s.calls.eraseIdx i) device := by
      funext notice
      simp [SnippetTask.sends, hdevice, eq_comm]
    rw [hsend]
    exact AgreesAt.removed
  · refine agrees_sending hbefore _ _ ?_ (Ne.symm hid) ?_ ?_ ?_ ?_
    · rw [hheld, if_neg hid]
    · simp [htask, SnippetTask.sends]
    · simpa [htask, SnippetTask.removes] using Ne.symm hid
    · simp [htask, SnippetTask.retitles]
    · simp [htask, SnippetTask.updates]

theorem inv_refusedRemoval (h : Inv devices s) {i : Nat} {call : SnippetCall} (hi : s.calls[i]? = some call)
    {snippetId : String} {kept : Option ClipboardRow} (htask : call.task = .remove snippetId kept)
    (hnone : held s.table.rows snippetId = none) :
    Inv devices (s.advance i call s.table (.refusedRemoval snippetId kept)) := by
  have hkept : Kept (.refusedRemoval snippetId kept) := by
    have hcall := h.kept call (List.mem_of_getElem? hi)
    rw [htask] at hcall
    exact hcall
  refine inv_advance h hi hkept fun device hdevice id hbefore => ?_
  by_cases hid : id = snippetId
  · rw [agrees_cons] at hbefore ⊢
    rw [hid, hnone] at hbefore ⊢
    refine hbefore.of_absent ?_
    intro notice _
    simp [htask, SnippetTask.sends]
  · refine agrees_other hbefore rfl ?_ ?_ ?_ ?_ ?_
    · simp [htask, SnippetTask.sends]
    · simp [SnippetTask.sends]
    · simpa [htask, SnippetTask.removes] using Ne.symm hid
    · simp [htask, SnippetTask.retitles]
    · simp [htask, SnippetTask.updates]

theorem inOrder_of_leaves {notice : SnippetNotice} (h : s.LeavesInOrder device notice = true) :
    AgreesAt.InOrder (held s.table.rows notice.id) (· ∈ toSend s.calls device) notice := by
  have hcreates : ∀ snippetId, (toSend s.calls device).all (fun notice => !notice.creates snippetId) = true →
      ∀ snippet, snippet.id = snippetId → .created snippet ∉ toSend s.calls device := by
    intro snippetId hall snippet hid hin
    have hnot := List.all_eq_true.mp hall _ hin
    simp [SnippetNotice.creates, hid] at hnot
  cases notice with
  | created snippet => trivial
  | updated snippet =>
      simp only [LeavesInOrder, Bool.and_eq_true] at h
      refine ⟨hcreates _ h.1, fun current hcurrent => ?_⟩
      have hid : current.id = snippet.id := id_of_held hcurrent
      have hbrings := h.2
      have hstore : held s.table.rows snippet.id = some current := hcurrent
      rw [hstore, Option.all_some, Bool.or_eq_true] at hbrings
      rcases hbrings with hsame | hlater
      · simp only [SnippetNotice.brings, decide_eq_true_eq] at hsame
        exact .inl hsame.2
      · obtain ⟨later, hin, hbrings⟩ := List.any_eq_true.mp hlater
        cases later with
        | created _ => cases hbrings
        | deleted _ => cases hbrings
        | updated later =>
            simp only [SnippetNotice.brings, decide_eq_true_eq] at hbrings
            exact .inr ⟨later, hin, hbrings.1.trans hid, hbrings.2⟩
  | deleted snippetId => exact hcreates snippetId h

theorem inv_send (h : Inv devices s) {i : Nat} {call : SnippetCall} (hi : s.calls[i]? = some call)
    {notice : SnippetNotice} {target : String} {targets : List String}
    (htask : call.task = .send notice (target :: targets)) (hcond : s.LeavesInOrder target notice = true) :
    Inv devices ((s.send (some (target, notice))).advance i call s.table (.send notice targets)) := by
  have hperm := perm_of_get hi
  refine ⟨?_, ?_, ?_⟩
  · intro device hdevice id
    refine Agrees.perm ?_ (perm_set hi _)
    have hbefore := (h.agrees device hdevice id).perm hperm.symm
    by_cases hown : device = target
    · subst hown
      have hclient : ((s.send (some (device, notice))).advance i call s.table (.send notice targets)).clients device =
          { s.clients device with inbox := (s.clients device).inbox ++ [notice] } := Function.update_self ..
      -- What was to be sent is the message, and what is to be sent after it.
      have hset : ∀ n, call.task.sends device = some n ∨ n ∈ toSend (s.calls.eraseIdx i) device ↔ n = notice ∨
          ((SnippetTask.send notice targets).sends device = some n ∨ n ∈ toSend (s.calls.eraseIdx i) device) := by
        intro n
        rw [htask, sends_send, sends_send]
        simp only [List.mem_cons_self, true_and]
        tauto
      have horder : AgreesAt.InOrder (held s.table.rows notice.id) (fun n => n = notice ∨
          ((SnippetTask.send notice targets).sends device = some n ∨ n ∈ toSend (s.calls.eraseIdx i) device))
          notice := by
        have hsame : (fun n => n ∈ toSend s.calls device) = _ := funext fun n => propext
          (((mem_toSend_perm hperm n).symm.trans (mem_toSend_cons call _ n)).trans (hset n))
        rw [← hsame]
        exact inOrder_of_leaves hcond
      rw [agrees_cons] at hbefore ⊢
      rw [hclient]
      have hnext := hbefore.mono (fun n _ => hset n) (fun hr => hr) (fun hr => hr) fun hu => hu
      refine (hnext.send fun hid => hid ▸ horder).mono (fun _ _ => Iff.rfl) ?_ ?_ ?_
      · simp [htask, SnippetTask.removes]
      · simp [htask, SnippetTask.retitles]
      · simp [htask, SnippetTask.updates, ClipboardClient.pending]
    · have hclient : ((s.send (some (target, notice))).advance i call s.table (.send notice targets)).clients device =
          s.clients device := Function.update_of_ne hown ..
      rw [hclient]
      refine agrees_quiet hbefore ?_ ?_ ?_ ?_
      · simp [htask, SnippetTask.sends, hown]
      · simp [htask, SnippetTask.removes]
      · simp [htask, SnippetTask.retitles]
      · simp [htask, SnippetTask.updates]
  · intro device hdevice
    by_cases hown : device = target
    · subst hown
      have hclient : ((s.send (some (device, notice))).advance i call s.table (.send notice targets)).clients device =
          { s.clients device with inbox := (s.clients device).inbox ++ [notice] } := Function.update_self ..
      rw [hclient]
      exact h.once device hdevice
    · have hclient : ((s.send (some (target, notice))).advance i call s.table (.send notice targets)).clients device =
          s.clients device := Function.update_of_ne hown ..
      rw [hclient]
      exact h.once device hdevice
  · intro other hother
    rcases List.mem_or_eq_of_mem_set hother with hold | rfl
    · exact h.kept other hold
    · trivial

theorem inv_resume (h : Inv devices s) {i : Nat} {call : SnippetCall} (hi : s.calls[i]? = some call)
    {newId now : String} {sent : Option (String × SnippetNotice)} {task : SnippetTask}
    (hfresh : call.task.inserts = true → ¬s.Seen devices newId)
    (hresume : call.task.resume devices call.device call.viaSocket s.table newId now = some (table, sent, task))
    (haccepts : s.Accepts (.resume i newId now) = true) (hordered : s.Ordered (.resume i newId now) = true) :
    Inv devices ((s.send sent).advance i call table task) := by
  obtain ⟨device, viaSocket, task₀⟩ := call
  cases task₀ with
  | count title =>
      cases hresume
      refine inv_silent h hi ?_ ?_ ?_ ?_
      · split <;> trivial
      · simp [SnippetTask.sends]
      · intro d
        split <;> rfl
      · simp [SnippetTask.removes, SnippetTask.retitles, SnippetTask.updates]
  | insert title =>
      simp only [SnippetTask.resume] at hresume
      split at hresume
      · rename_i t' hinsert
        cases hresume
        exact inv_insert h hi rfl hinsert (hfresh rfl)
      · cases hresume
        exact inv_silent h hi trivial (by simp [SnippetTask.sends]) (by simp [SnippetTask.sends])
          (by simp [SnippetTask.removes, SnippetTask.retitles, SnippetTask.updates])
  | update snippetId content =>
      simp only [Accepts, hi, decide_eq_true_eq] at haccepts
      simp only [Ordered, hi] at hordered
      simp only [SnippetTask.resume, if_neg (Nat.not_lt.mpr haccepts.1)] at hresume
      split at hresume
      · rename_i row t' hupdate
        cases hresume
        exact inv_update h hi rfl hupdate hordered
      · rename_i hrefused
        rw [ClipboardTable.updateRow, Option.map_eq_none_iff] at hrefused
        rw [hrefused] at haccepts
        cases haccepts.2
  | retitle snippetId title previous =>
      simp only [Accepts, hi] at haccepts
      simp only [SnippetTask.resume] at hresume
      split at hresume
      · rename_i row t' hupdate
        cases hresume
        exact inv_retitle h hi rfl hupdate
      · rename_i hrefused
        rw [ClipboardTable.updateRow, Option.map_eq_none_iff] at hrefused
        rw [hrefused] at haccepts
        cases haccepts
  | remove snippetId kept =>
      simp only [SnippetTask.resume] at hresume
      split at hresume
      · rename_i t' hdelete
        cases hresume
        exact inv_remove h hi rfl hdelete
      · rename_i hrefused
        cases hresume
        rw [ClipboardTable.deleteClipboardSnippet, Option.map_eq_none_iff] at hrefused
        exact inv_refusedRemoval h hi rfl hrefused
  | send notice targets =>
      cases targets with
      | nil =>
          cases hresume
          refine inv_silent h hi ?_ ?_ ?_ ?_
          · split <;> trivial
          · simp [SnippetTask.sends]
          · intro d
            split <;> rfl
          · simp [SnippetTask.removes, SnippetTask.retitles, SnippetTask.updates]
      | cons target targets =>
          cases hresume
          simp only [Ordered, hi] at hordered
          exact inv_send h hi rfl hordered
  | _ => cases hresume

theorem inv_client (h : Inv devices s) (device : String) (client : ClipboardClient) (calls : List SnippetCall)
    (hothers : ∀ other id, other ≠ device → Agrees s.table (s.clients other) s.calls other id →
      Agrees s.table (s.clients other) calls other id)
    (hown : ∀ id, Agrees s.table (s.clients device) s.calls device id → Agrees s.table client calls device id)
    (honce : ((s.clients device).snippets.map ClipboardRow.id).Nodup → (client.snippets.map ClipboardRow.id).Nodup)
    (hkept : ∀ call ∈ calls, Kept call.task) :
    Inv devices { s with clients := update s.clients device client, calls := calls } where
  agrees := by
    intro other hother id
    have hbefore := h.agrees other hother id
    change Agrees s.table (update s.clients device client other) calls other id
    by_cases hsame : other = device
    · subst hsame
      rw [Function.update_self]
      exact hown id hbefore
    · rw [Function.update_of_ne hsame]
      exact hothers other id hsame hbefore
  once := by
    intro other hother
    change ((update s.clients device client other).snippets.map ClipboardRow.id).Nodup
    by_cases hsame : other = device
    · subst hsame
      rw [Function.update_self]
      exact honce (h.once other hother)
    · rw [Function.update_of_ne hsame]
      exact h.once other hother
  kept := hkept

theorem agrees_concat (h : Agrees table client calls device id) (call : SnippetCall)
    (hsend : call.task.sends device = none) : Agrees table client (calls ++ [call]) device id := by
  have hperm : (call :: calls).Perm (calls ++ [call]) := (List.perm_append_singleton call calls).symm
  refine Agrees.perm ?_ hperm
  rw [agrees_cons]
  refine h.mono ?_ .inr .inr (Or.imp_right .inr)
  intro notice _
  rw [hsend]
  simp

theorem kept_concat (h : Inv devices s) (call : SnippetCall) (htask : Kept call.task) :
    ∀ other ∈ s.calls ++ [call], Kept other.task := by
  intro other hother
  rcases List.mem_append.mp hother with hold | hnew
  · exact h.kept other hold
  · rw [List.mem_singleton.mp hnew]
    exact htask

theorem inv_updateContent (h : Inv devices s) (device snippetId content : String)
    (hstep : s.step devices (.updateContent device snippetId content) = some t) : Inv devices t := by
  cases hstep
  refine inv_client h device _ s.calls (fun _ _ _ hbefore => hbefore) ?_ ?_ h.kept
  · intro id hbefore
    have hmap := held_map (s.clients device).snippets snippetId id
      (fun row => { row with content := content }) fun _ hid => hid
    unfold Agrees at hbefore ⊢
    rw [hmap]
    by_cases hid : id = snippetId
    · rw [if_pos hid]
      refine hbefore.change _ (fun _ => .inl rfl) (fun _ => .inr (.inl ?_)) (fun hr => hr)
        (fun hr => hr) fun _ => .inl ?_
      · simp [ClipboardClient.pending, hid, OrderedDict.get_set_self]
      · simp [ClipboardClient.pending, hid, OrderedDict.get_set_self]
    · rw [if_neg hid]
      refine hbefore.mono (fun _ _ => Iff.rfl) (fun hr => hr) (fun hr => hr) (Or.imp_left fun hp => ?_)
      simpa [ClipboardClient.pending, OrderedDict.get_set_of_ne _ _ _ _ hid] using hp
  · intro honce
    rw [map_id_map _ snippetId (fun row => { row with content := content }) fun _ hid => hid]
    exact honce

theorem inv_expire (h : Inv devices s) (device snippetId : String)
    (hstep : s.step devices (.expire device snippetId) = some t) : Inv devices t := by
  obtain ⟨content, -, heq⟩ := Option.map_eq_some_iff.mp hstep
  cases heq
  refine inv_client h device _ s.calls (fun _ _ _ hbefore => hbefore) ?_ (fun honce => honce) h.kept
  intro id hbefore
  refine AgreesAt.mono hbefore (fun _ _ => Iff.rfl) (fun hr => hr) (fun hr => hr) (Or.imp_left fun hp => ?_)
  by_cases hid : id = snippetId
  · simp [ClipboardClient.pending, hid]
  · simp only [ClipboardClient.pending, OrderedDict.get_erase_of_ne _ _ _ hid, List.any_append,
      Bool.or_eq_true] at hp ⊢
    exact hp.imp_right .inl

theorem inv_take (h : Inv devices s) (device : String) (hstep : s.step devices (.take device) = some t) :
    Inv devices t := by
  simp only [step] at hstep
  split at hstep
  · rename_i snippetId content outbox houtbox
    split at hstep
    · cases hstep
      refine inv_client h device _ _ ?_ ?_ (fun honce => honce) (kept_concat h _ trivial)
      · exact fun other id _ hbefore => agrees_concat hbefore _ rfl
      · intro id hbefore
        have hconcat := agrees_concat hbefore ⟨device, true, .update snippetId content⟩ rfl
        refine AgreesAt.mono hconcat (fun _ _ => Iff.rfl) (fun hr => hr) (fun hr => hr) ?_
        rintro (hp | hu)
        · simp only [ClipboardClient.pending, houtbox, List.any_cons, Bool.or_eq_true, decide_eq_true_eq] at hp ⊢
          rcases hp with htimer | rfl | hrest
          · exact .inl (.inl htimer)
          · exact .inr (by simp [updating, SnippetTask.updates])
          · exact .inl (.inr hrest)
        · exact .inr hu
    · cases hstep
  · cases hstep

theorem inv_updateTitle (h : Inv devices s) (device snippetId title : String)
    (hstep : s.step devices (.updateTitle device snippetId title) = some t) : Inv devices t := by
  cases hstep
  refine inv_client h device _ _ ?_ ?_ ?_ (kept_concat h _ trivial)
  · exact fun other id _ hbefore => agrees_concat hbefore _ rfl
  · intro id hbefore
    have hconcat := agrees_concat hbefore
      ⟨device, false, .retitle snippetId title (held (s.clients device).snippets snippetId)⟩ rfl
    have hmap := held_map (s.clients device).snippets snippetId id
      (fun row => { row with title := title }) fun _ hid => hid
    unfold Agrees at hconcat ⊢
    rw [hmap]
    by_cases hid : id = snippetId
    · rw [if_pos hid]
      refine hconcat.change _ (fun _ => .inr ?_) (fun _ => .inl rfl) (fun hr => hr) (fun hr => hr) fun hu => hu
      simp [retitling, SnippetTask.retitles, hid]
    · rw [if_neg hid]
      exact hconcat
  · intro honce
    rw [map_id_map _ snippetId (fun row => { row with title := title }) fun _ hid => hid]
    exact honce

theorem inv_removeSnippet (h : Inv devices s) (device snippetId : String)
    (hstep : s.step devices (.removeSnippet device snippetId) = some t) : Inv devices t := by
  cases hstep
  refine inv_client h device _ _ ?_ ?_ ?_ (kept_concat h _ fun _ hrow => id_of_held hrow)
  · exact fun other id _ hbefore => agrees_concat hbefore _ rfl
  · intro id hbefore
    have hconcat := agrees_concat hbefore
      ⟨device, false, .remove snippetId (held (s.clients device).snippets snippetId)⟩ rfl
    unfold Agrees at hconcat ⊢
    rw [held_filter]
    by_cases hid : id = snippetId
    · rw [if_pos hid]
      refine hconcat.remove ?_
      simp [removing, SnippetTask.removes, hid]
    · rw [if_neg hid]
      exact hconcat
  · exact fun honce => honce.sublist (List.filter_sublist.map _)

theorem inv_receive (h : Inv devices s) (device : String) (hstep : s.step devices (.receive device) = some t) :
    Inv devices t := by
  simp only [step] at hstep
  split at hstep
  · rename_i notice inbox hinbox
    cases hstep
    refine inv_client h device _ s.calls (fun _ _ _ hbefore => hbefore) ?_ notice.nodup_apply h.kept
    intro id hbefore
    unfold Agrees at hbefore ⊢
    rw [hinbox] at hbefore
    rw [SnippetNotice.held_apply]
    exact hbefore.receive
  · cases hstep

theorem agrees_ended {i : Nat} {call : SnippetCall} (hi : calls[i]? = some call)
    (h : Agrees table client calls device id) (hsend : call.task.sends device = none)
    (hnone : call.task.removes id = false ∧ call.task.retitles id = false ∧ call.task.updates id = false) :
    Agrees table client (calls.set i { call with task := .ended }) device id := by
  obtain ⟨hremoves, hretitles, hupdates⟩ := hnone
  refine Agrees.perm (agrees_other (h.perm (perm_of_get hi).symm) rfl ?_ ?_ hremoves hretitles hupdates) (perm_set hi _)
  · intro notice hn
    rw [hsend] at hn
    cases hn
  · intro notice hn
    cases hn

theorem agrees_add (h : Agrees table client calls device id) (row : ClipboardRow) {snippets : List ClipboardRow}
    (hheld : held snippets id = if id = row.id then some ((held client.snippets id).getD row)
      else held client.snippets id)
    (hin : id = row.id → held client.snippets id = none →
      client.inbox.find? (fun notice => notice.id = id) = some (.created row) ∨
        .deleted id ∈ client.inbox ++ toSend calls device ∨
        removing calls device id = true ∧ (held table.rows id).isSome = true) :
    Agrees table { client with snippets := snippets } calls device id := by
  change AgreesAt id (held table.rows id) (held snippets id) client.inbox _ _ _ _
  rw [hheld]
  by_cases hid : id = row.id
  · rw [if_pos hid]
    unfold Agrees at h
    cases hv : held client.snippets id with
    | some old =>
        rw [hv] at h
        exact h
    | none =>
        rw [hv] at h
        refine h.add row ?_
        rcases hin hid hv with hhead | hdeleted | hremoving
        · exact .inl hhead
        · rcases List.mem_append.mp hdeleted with hinbox | hsend
          · exact .inr (.inl hinbox)
          · exact .inr (.inr (.inl hsend))
        · exact .inr (.inr (.inr hremoving))
  · rw [if_neg hid]
    exact h

theorem deleted_of_addsInTime {row : ClipboardRow} (h : s.AddsInTime device row.id = true)
    (hnone : held (s.clients device).snippets row.id = none) :
    .deleted row.id ∈ (s.clients device).inbox ++ toSend s.calls device := by
  simp only [AddsInTime, Bool.or_eq_true, decide_eq_true_eq] at h
  exact h.resolve_left ((held_eq_none_iff _).mp hnone)

theorem inv_answered (h : Inv devices s) (i : Nat) (hstep : s.step devices (.answered i) = some t)
    (hordered : s.Ordered (.answered i) = true) : Inv devices t := by
  simp only [step, Option.bind_eq_bind, Option.bind_eq_some_iff] at hstep
  obtain ⟨⟨device, viaSocket, task⟩, hi, snippets, hanswered, heq⟩ := hstep
  cases heq
  have hkept := h.kept _ (List.mem_of_getElem? hi)
  -- What the response does to the list, for a task that is over with it.
  have hgo : (∀ d, task.sends d = none) → (∀ id, task.removes id = false ∧ task.retitles id = false ∧
      task.updates id = false) →
      (((s.clients device).snippets.map ClipboardRow.id).Nodup → (snippets.map ClipboardRow.id).Nodup) →
      (∀ id, Agrees s.table (s.clients device) s.calls device id →
        Agrees s.table { s.clients device with snippets := snippets } s.calls device id) →
      Inv devices ((s.setClient device { s.clients device with snippets := snippets }).advance i
        ⟨device, viaSocket, task⟩ s.table .ended) := by
    intro hsend hnone honce hown
    refine inv_client h device _ _ ?_ ?_ honce ?_
    · exact fun other id _ hbefore => agrees_ended hi hbefore (hsend other) (hnone id)
    · exact fun id hbefore => agrees_ended hi (hown id hbefore) (hsend device) (hnone id)
    · intro other hother
      rcases List.mem_or_eq_of_mem_set hother with hold | rfl
      · exact h.kept other hold
      · trivial
  have hnothing : (∀ d, task.sends d = none) → (∀ id, task.removes id = false ∧ task.retitles id = false ∧
      task.updates id = false) → snippets = (s.clients device).snippets →
      Inv devices ((s.setClient device { s.clients device with snippets := snippets }).advance i
        ⟨device, viaSocket, task⟩ s.table .ended) := by
    intro hsend hnone hsame
    subst hsame
    exact hgo hsend hnone (fun honce => honce) fun _ hbefore => hbefore
  cases task with
  | answer notice =>
      cases notice with
      | created row =>
          simp only [Ordered, hi] at hordered
          cases hanswered
          refine hgo (fun _ => rfl) (fun _ => ⟨rfl, rfl, rfl⟩) (SnippetNotice.created row).nodup_apply ?_
          intro id hbefore
          refine agrees_add hbefore row ?_ ?_
          · rw [SnippetNotice.held_apply, SnippetNotice.applyAt]
            simp only [eq_comm]
          · rintro rfl hnone
            simp only [CreatedInTime, Bool.or_eq_true, decide_eq_true_eq, Bool.and_eq_true] at hordered
            rcases hordered with (hadds | hhead) | hremoving
            · exact .inr (.inl (deleted_of_addsInTime hadds hnone))
            · exact .inl hhead
            · exact .inr (.inr hremoving)
      | updated row =>
          cases hanswered
          exact hnothing (fun _ => rfl) (fun _ => ⟨rfl, rfl, rfl⟩) rfl
      | deleted snippetId =>
          cases hanswered
          exact hnothing (fun _ => rfl) (fun _ => ⟨rfl, rfl, rfl⟩) rfl
  | refusedTitle snippetId previous => exact hkept.elim
  | refusedRemoval snippetId removed =>
      cases removed with
      | none =>
          cases hanswered
          exact hnothing (fun _ => rfl) (fun _ => ⟨rfl, rfl, rfl⟩) rfl
      | some row =>
          simp only [Ordered, hi] at hordered
          cases hanswered
          have hid : row.id = snippetId := hkept row rfl
          subst hid
          -- The snippet comes back as it would from its creation.
          have happly : (if row.id ∈ (s.clients device).snippets.map ClipboardRow.id then (s.clients device).snippets
              else (s.clients device).snippets ++ [row]) = (SnippetNotice.created row).apply
                (s.clients device).snippets :=
            rfl
          rw [happly]
          rw [happly] at hgo
          refine hgo (fun _ => rfl) (fun _ => ⟨rfl, rfl, rfl⟩) (SnippetNotice.created row).nodup_apply ?_
          intro id hbefore
          refine agrees_add hbefore row ?_ ?_
          · rw [SnippetNotice.held_apply, SnippetNotice.applyAt]
            simp only [eq_comm]
          · rintro rfl hnone
            exact .inr (.inl (deleted_of_addsInTime hordered hnone))
  | refusedCreation =>
      cases hanswered
      exact hnothing (fun _ => rfl) (fun _ => ⟨rfl, rfl, rfl⟩) rfl
  | _ => cases hanswered

theorem inv_step (devices : List String) (s : ClipboardSystem) (e : ClipboardEvent) (t : ClipboardSystem)
    (h : Inv devices s) (hcond : s.Accepts e = true ∧ s.Ordered e = true) (hstep : s.step devices e = some t) :
    Inv devices t := by
  cases e with
  | updateContent device snippetId content => exact inv_updateContent h device snippetId content hstep
  | expire device snippetId => exact inv_expire h device snippetId hstep
  | take device => exact inv_take h device hstep
  | addSnippet device =>
      cases hstep
      exact ⟨fun other hother id => agrees_concat (h.agrees other hother id) _ rfl, h.once, kept_concat h _ trivial⟩
  | updateTitle device snippetId title => exact inv_updateTitle h device snippetId title hstep
  | removeSnippet device snippetId => exact inv_removeSnippet h device snippetId hstep
  | resume i newId now =>
      simp only [step, Option.bind_eq_bind, Option.bind_eq_some_iff] at hstep
      obtain ⟨call, hi, _, hfresh, ⟨table, sent, task⟩, hresume, heq⟩ := hstep
      cases heq
      rw [Option.guard_eq_some'] at hfresh
      exact inv_resume h hi hfresh hresume hcond.1 hcond.2
  | answered i => exact inv_answered h i hstep hcond.2
  | receive device => exact inv_receive h device hstep

theorem nothing_inFlight (hquiet : s.Quiescent devices) (device : String) :
    (∀ notice, notice ∉ toSend s.calls device) ∧ (∀ id, removing s.calls device id = false) ∧
      (∀ id, retitling s.calls device id = false) ∧ ∀ id, updating s.calls device id = false := by
  have hended := hquiet.2
  refine ⟨?_, ?_, ?_, ?_⟩
  · intro notice hin
    obtain ⟨call, hcall, hsends⟩ := (mem_toSend notice).mp hin
    rw [hended call hcall] at hsends
    cases hsends
  · intro id
    rw [removing, List.any_eq_false]
    intro call hcall
    simp [hended call hcall, SnippetTask.removes]
  · intro id
    rw [retitling, List.any_eq_false]
    intro call hcall
    simp [hended call hcall, SnippetTask.retitles]
  · intro id
    rw [updating, List.any_eq_false]
    intro call hcall
    simp [hended call hcall, SnippetTask.updates]

theorem inv_of_converged (hquiet : s.Quiescent devices) (hconverged : s.Converged devices) : Inv devices s where
  agrees := by
    intro device hdevice id
    unfold Agrees
    rw [(hquiet.1 device hdevice).2.2]
    exact AgreesAt.of_sameText ((hconverged device hdevice).2 id) (nothing_inFlight hquiet device).1
  once := fun device hdevice => (hconverged device hdevice).1
  kept := by
    intro call hcall
    rw [hquiet.2 call hcall]
    trivial

theorem Inv.converged (h : Inv devices s) (hquiet : s.Quiescent devices) : s.Converged devices := by
  intro device hdevice
  refine ⟨h.once device hdevice, fun id => ?_⟩
  obtain ⟨hsend, hremoving, hretitling, hupdating⟩ := nothing_inFlight hquiet device
  obtain ⟨htimers, houtbox, hinbox⟩ := hquiet.1 device hdevice
  have hagrees := h.agrees device hdevice id
  unfold Agrees at hagrees
  rw [hinbox] at hagrees
  refine hagrees.sameText hsend ?_ ?_ ?_
  · simp [hremoving]
  · simp [hretitling]
  · simp [hupdating, ClipboardClient.pending, htimers, houtbox, OrderedDict.get, OrderedDict.lookup]

/-- From a state in which the clients have what the store has, and in a run in which no update is rejected and
the steps are in order, the clients have what the store has whenever nothing is in flight. -/
theorem converged_of_ordered (devices : List String) (s : ClipboardSystem) (hquiet : s.Quiescent devices)
    (hconverged : s.Converged devices) (events : List ClipboardEvent)
    (haccepts : Guarded (step devices) (fun s e => s.Accepts e = true) s events)
    (hordered : Guarded (step devices) (fun s e => s.Ordered e = true) s events) :
    Throughout (step devices) (fun t => t.Quiescent devices → t.Converged devices) s events :=
  throughout_of_guarded (step devices) (fun s e => s.Accepts e = true ∧ s.Ordered e = true) (Inv devices)
    (fun t => t.Quiescent devices → t.Converged devices) (fun _ h => h.converged) (inv_step devices)
    (inv_of_converged hquiet hconverged) (haccepts.and hordered)

/-- All clients have loaded the table. -/
def synced (table : ClipboardTable) : ClipboardSystem := ⟨table, fun _ => ⟨table.rows, [], [], []⟩, []⟩

theorem quiescent_synced (devices : List String) (table : ClipboardTable) : (synced table).Quiescent devices :=
  ⟨fun _ _ => ⟨rfl, rfl, rfl⟩, nofun⟩

theorem converged_synced (devices : List String) (table : ClipboardTable) : (synced table).Converged devices :=
  fun _ _ => ⟨table.ids, fun _ => rfl⟩

/-- Fox edits the note, and Bear gives it another title when the edit has arrived. -/
def oneAfterTheOther : List ClipboardEvent :=
  [.updateContent "fox" "c0ffee00c0de" "new", .expire "fox" "c0ffee00c0de", .take "fox", .resume 0 "" "t1",
    .resume 0 "" "", .resume 0 "" "", .receive "bear", .updateTitle "bear" "c0ffee00c0de" "plan",
    .resume 1 "" "t2", .resume 1 "" "", .resume 1 "" "", .resume 1 "" "", .answered 1, .receive "fox", .receive "bear"]

theorem converged_of_ordered_oneAfterTheOther :
    Throughout (step ["fox", "bear"]) (fun t => t.Quiescent ["fox", "bear"] → t.Converged ["fox", "bear"])
      (synced noteTable) oneAfterTheOther :=
  converged_of_ordered ["fox", "bear"] (synced noteTable) (quiescent_synced _ _) (converged_synced _ _)
    oneAfterTheOther (by decide +kernel) (by decide +kernel)

/-- Both edit the note. Each is sent the edit of the other, and the store keeps the later one. -/
def bothEdit : List ClipboardEvent :=
  [.updateContent "fox" "c0ffee00c0de" "fox", .updateContent "bear" "c0ffee00c0de" "bear",
    .expire "fox" "c0ffee00c0de", .expire "bear" "c0ffee00c0de", .take "fox", .resume 0 "" "t1", .resume 0 "" "",
    .resume 0 "" "", .take "bear", .resume 1 "" "t2", .resume 1 "" "", .resume 1 "" "", .receive "fox",
    .receive "bear"]

theorem not_converged_bothEdit :
    ¬∀ (devices : List String) (s u : ClipboardSystem) (events : List ClipboardEvent),
      s.Quiescent devices → s.Converged devices →
        Guarded (step devices) (fun s e => s.Accepts e = true) s events →
          run (step devices) s events = some u → u.Quiescent devices → u.Converged devices := by
  intro h
  have hlast : (run (step ["fox", "bear"]) (synced noteTable) bothEdit).any (fun u =>
      (∀ device ∈ ["fox", "bear"], (u.clients device).timers = [] ∧ (u.clients device).outbox = [] ∧
        (u.clients device).inbox = []) ∧ (∀ call ∈ u.calls, call.task = .ended) ∧
      (held (u.clients "bear").snippets "c0ffee00c0de").map ClipboardRow.content = some "fox" ∧
      (held u.table.rows "c0ffee00c0de").map ClipboardRow.content = some "bear") = true := by
    decide +kernel
  obtain ⟨u, hrun, hu⟩ := (Option.any_eq_true _ _).mp hlast
  obtain ⟨hclients, hcalls, hbear, hstore⟩ := decide_eq_true_eq.mp hu
  have hconverged := h ["fox", "bear"] (synced noteTable) u bothEdit (quiescent_synced _ _) (converged_synced _ _)
    (by decide +kernel) hrun ⟨hclients, hcalls⟩
  have hsame := congrArg (Option.map Prod.snd) ((hconverged "bear" (by simp)).2 "c0ffee00c0de")
  rw [Option.map_map, Option.map_map] at hsame
  have hcontents := (hbear.symm.trans hsame).trans hstore
  exact absurd hcontents (by decide)

end ClipboardSystem

end NetworkFileServer.Client
