import NetworkFileServer.Client.Clipboard

/-!
# One snippet at one client

What the hook's list has for an id, once the messages on its socket are received, and how it relates to the
row of the store when further messages are still to be sent and changes of the hook are still to be stored.
-/

namespace NetworkFileServer.Client

open Server

/-- What a message makes of the snippet with an id. -/
def SnippetNotice.applyAt (id : String) (v : Option ClipboardRow) : SnippetNotice → Option ClipboardRow
  | .created snippet => if snippet.id = id then some (v.getD snippet) else v
  | .updated snippet => if snippet.id = id then v.map fun _ => snippet else v
  | .deleted snippetId => if snippetId = id then none else v

theorem SnippetNotice.held_apply (notice : SnippetNotice) (rows : List ClipboardRow) (id : String) :
    held (notice.apply rows) id = notice.applyAt id (held rows id) := by
  cases notice with
  | created snippet =>
      simp only [SnippetNotice.apply, SnippetNotice.applyAt]
      split
      · rename_i hin
        split
        · rename_i hid
          subst hid
          cases hheld : held rows snippet.id with
          | none => exact absurd hin ((held_eq_none_iff _).mp hheld)
          | some row => rfl
        · rfl
      · rename_i hnot
        rw [held_append]
        by_cases hid : snippet.id = id
        · subst hid
          rw [if_pos rfl, if_pos rfl, (held_eq_none_iff _).mpr hnot]
          rfl
        · rw [if_neg (Ne.symm hid), if_neg hid, Option.or_none]
  | updated snippet =>
      have hmap := held_map rows snippet.id id (fun _ => snippet) fun _ _ => rfl
      simp only [SnippetNotice.apply, SnippetNotice.applyAt, hmap]
      by_cases hid : id = snippet.id
      · rw [if_pos hid, if_pos hid.symm]
      · rw [if_neg hid, if_neg (Ne.symm hid)]
  | deleted snippetId =>
      rw [SnippetNotice.apply, held_filter, SnippetNotice.applyAt]
      by_cases hid : id = snippetId
      · rw [if_pos hid, if_pos hid.symm]
      · rw [if_neg hid, if_neg (Ne.symm hid)]

theorem SnippetNotice.applyAt_of_ne {notice : SnippetNotice} {id : String} (h : notice.id ≠ id)
    (v : Option ClipboardRow) : notice.applyAt id v = v := by
  cases notice <;> exact if_neg h

theorem SnippetNotice.nodup_apply (notice : SnippetNotice) {rows : List ClipboardRow}
    (h : (rows.map ClipboardRow.id).Nodup) : ((notice.apply rows).map ClipboardRow.id).Nodup := by
  cases notice with
  | created snippet =>
      simp only [SnippetNotice.apply]
      split
      · exact h
      · rename_i hnew
        exact KeyedTable.nodup_concat ClipboardRow.id rows snippet h hnew
  | updated snippet =>
      have hids := map_id_map rows snippet.id (fun _ => snippet) fun _ _ => rfl
      simp only [SnippetNotice.apply, hids]
      exact h
  | deleted snippetId => exact h.sublist (List.filter_sublist.map _)

/-- What the client has for the id after it has received its messages. -/
def received (id : String) (v : Option ClipboardRow) (inbox : List SnippetNotice) : Option ClipboardRow :=
  inbox.foldl (fun v notice => notice.applyAt id v) v

section Received

variable {id : String} {v : Option ClipboardRow} {inbox : List SnippetNotice}

theorem received_cons (notice : SnippetNotice) :
    received id v (notice :: inbox) = received id (notice.applyAt id v) inbox := rfl

theorem received_concat (notice : SnippetNotice) :
    received id v (inbox ++ [notice]) = notice.applyAt id (received id v inbox) := by
  simp [received, List.foldl_append]

theorem received_of_deleted (h : .deleted id ∈ inbox) (v w : Option ClipboardRow) :
    received id v inbox = received id w inbox := by
  induction inbox generalizing v w with
  | nil => cases h
  | cons notice inbox ih =>
      rw [received_cons, received_cons]
      rcases List.mem_cons.mp h with rfl | hin
      · simp [SnippetNotice.applyAt]
      · exact ih hin _ _

theorem received_eq_none {w : Option ClipboardRow} (hvw : v = none → w = none)
    (h : received id v inbox = none) : received id w inbox = none := by
  induction inbox generalizing v w with
  | nil => exact hvw h
  | cons notice inbox ih =>
      refine ih ?_ h
      cases notice with
      | created snippet =>
          simp only [SnippetNotice.applyAt]
          split
          · nofun
          · exact hvw
      | updated snippet =>
          simp only [SnippetNotice.applyAt]
          split
          · simpa using hvw
          · exact hvw
      | deleted snippetId =>
          simp only [SnippetNotice.applyAt]
          split
          · exact fun _ => rfl
          · exact hvw

/-- A change of the snippet in the list is still seen after the messages, or nothing of the snippet is. -/
theorem received_map (id : String) (v : Option ClipboardRow) (inbox : List SnippetNotice)
    (change : ClipboardRow → ClipboardRow) :
    received id (v.map change) inbox = received id v inbox ∨
      ∃ row, v = some row ∧ received id v inbox = some row ∧
        received id (v.map change) inbox = some (change row) := by
  cases v with
  | none => exact .inl rfl
  | some row =>
      induction inbox with
      | nil => exact .inr ⟨row, rfl, rfl, rfl⟩
      | cons notice inbox ih =>
          rw [received_cons, received_cons]
          cases notice with
          | created snippet =>
              simp only [SnippetNotice.applyAt]
              split
              · exact ih
              · exact ih
          | updated snippet =>
              simp only [SnippetNotice.applyAt]
              split
              · exact .inl rfl
              · exact ih
          | deleted snippetId =>
              simp only [SnippetNotice.applyAt]
              split
              · exact .inl rfl
              · exact ih

theorem received_of_quiet (row : ClipboardRow)
    (h : ∀ notice ∈ inbox, notice.id = id → ∃ snippet, notice = .created snippet) :
    received id (some row) inbox = some row := by
  induction inbox with
  | nil => rfl
  | cons notice inbox ih =>
      obtain ⟨hnotice, hinbox⟩ := List.forall_mem_cons.mp h
      rw [received_cons]
      by_cases hid : notice.id = id
      · obtain ⟨snippet, rfl⟩ := hnotice hid
        have hsnippet : snippet.id = id := hid
        rw [SnippetNotice.applyAt, if_pos hsnippet]
        exact ih hinbox
      · rw [SnippetNotice.applyAt_of_ne hid]
        exact ih hinbox

theorem received_of_head (snippet : ClipboardRow)
    (h : inbox.find? (fun notice => notice.id = id) = some (.created snippet)) :
    received id (some snippet) inbox = received id none inbox := by
  induction inbox with
  | nil => cases h
  | cons notice inbox ih =>
      rw [received_cons, received_cons]
      by_cases hid : notice.id = id
      · rw [List.find?_cons_of_pos (by simpa using hid)] at h
        obtain rfl := Option.some.inj h
        have hsnippet : snippet.id = id := hid
        simp [SnippetNotice.applyAt, hsnippet]
      · rw [List.find?_cons_of_neg (by simpa using hid)] at h
        rw [SnippetNotice.applyAt_of_ne hid, SnippetNotice.applyAt_of_ne hid]
        exact ih h

end Received

/-- The same title and content. -/
def SameText (a b : ClipboardRow) : Prop := a.title = b.title ∧ a.content = b.content

instance (a b : ClipboardRow) : Decidable (SameText a b) := inferInstanceAs (Decidable (_ ∧ _))

/-- What a client can come to have for an id: what it has after the messages on its socket, or what it is still
to be sent as created. -/
def Comes (id : String) (v : Option ClipboardRow) (inbox : List SnippetNotice) (toSend : SnippetNotice → Prop)
    (row : ClipboardRow) : Prop :=
  received id v inbox = some row ∨ received id v inbox = none ∧ toSend (.created row) ∧ row.id = id

/-- A client that the messages under way and its own changes make equal to the store. -/
structure AgreesAt (id : String) (store v : Option ClipboardRow) (inbox : List SnippetNotice)
    (toSend : SnippetNotice → Prop) (removing retitling unsent : Prop) : Prop where
  present : ∀ current, store = some current → removing ∨ (∃ row, Comes id v inbox toSend row) ∧
    ((∃ row, toSend (.updated row) ∧ row.id = id ∧ SameText row current) ∨
      ∀ row, Comes id v inbox toSend row →
        (row.title = current.title ∨ retitling) ∧ (row.content = current.content ∨ unsent))
  absent : store = none → (∀ row, ¬Comes id v inbox toSend row) ∨ toSend (.deleted id)
  deleted : .deleted id ∈ inbox ∨ toSend (.deleted id) → store = none

namespace AgreesAt

variable {id : String} {store v : Option ClipboardRow} {inbox : List SnippetNotice}
  {toSend toSend' : SnippetNotice → Prop} {removing retitling unsent removing' retitling' unsent' : Prop}

theorem comes_congr (h : ∀ notice, notice.id = id → (toSend notice ↔ toSend' notice)) (row : ClipboardRow) :
    Comes id v inbox toSend row ↔ Comes id v inbox toSend' row := by
  unfold Comes
  constructor
  · rintro (hheld | ⟨hnone, hsend, hid⟩)
    · exact .inl hheld
    · exact .inr ⟨hnone, (h (.created row) hid).mp hsend, hid⟩
  · rintro (hheld | ⟨hnone, hsend, hid⟩)
    · exact .inl hheld
    · exact .inr ⟨hnone, (h (.created row) hid).mpr hsend, hid⟩

/-- Only the messages about the snippet matter, and a change of the hook that is under way excuses more. -/
theorem mono (h : AgreesAt id store v inbox toSend removing retitling unsent)
    (hsend : ∀ notice, notice.id = id → (toSend notice ↔ toSend' notice)) (hremoving : removing → removing')
    (hretitling : retitling → retitling') (hunsent : unsent → unsent') :
    AgreesAt id store v inbox toSend' removing' retitling' unsent' where
  present := by
    intro current hcurrent
    rcases h.present current hcurrent with hrem | ⟨⟨row, hrow⟩, hagree⟩
    · exact .inl (hremoving hrem)
    · refine .inr ⟨⟨row, (comes_congr hsend row).mp hrow⟩, ?_⟩
      rcases hagree with ⟨fix, hfix, hid, hsame⟩ | hall
      · exact .inl ⟨fix, (hsend (.updated fix) hid).mp hfix, hid, hsame⟩
      · refine .inr fun row hrow => ?_
        obtain ⟨htitle, hcontent⟩ := hall row ((comes_congr hsend row).mpr hrow)
        exact ⟨htitle.imp_right hretitling, hcontent.imp_right hunsent⟩
  absent := by
    intro hnone
    rcases h.absent hnone with hcomes | hdeleted
    · exact .inl fun row hrow => hcomes row ((comes_congr hsend row).mpr hrow)
    · exact .inr ((hsend (.deleted id) rfl).mp hdeleted)
  deleted := by
    rintro (hinbox | hdeleted)
    · exact h.deleted (.inl hinbox)
    · exact h.deleted (.inr ((hsend (.deleted id) rfl).mpr hdeleted))

theorem of_absent (h : AgreesAt id none v inbox toSend removing retitling unsent)
    (hsend : ∀ notice, notice.id = id → (toSend notice ↔ toSend' notice)) :
    AgreesAt id none v inbox toSend' removing' retitling' unsent' where
  present := nofun
  absent := by
    intro _
    rcases h.absent rfl with hcomes | hdeleted
    · exact .inl fun row hrow => hcomes row ((comes_congr hsend row).mpr hrow)
    · exact .inr ((hsend (.deleted id) rfl).mp hdeleted)
  deleted := fun _ => rfl

theorem congr_received (h : AgreesAt id store v inbox toSend removing retitling unsent)
    {v' : Option ClipboardRow} {inbox' : List SnippetNotice}
    (hreceived : received id v' inbox' = received id v inbox)
    (hdeleted : .deleted id ∈ inbox' → .deleted id ∈ inbox) :
    AgreesAt id store v' inbox' toSend removing retitling unsent := by
  have hcomes : ∀ row, Comes id v' inbox' toSend row ↔ Comes id v inbox toSend row := by
    intro row
    unfold Comes
    rw [hreceived]
  refine ⟨?_, ?_, fun hin => h.deleted (hin.imp_left hdeleted)⟩
  · simpa only [hcomes] using h.present
  · simpa only [hcomes] using h.absent

theorem sameText (h : AgreesAt id store v [] toSend removing retitling unsent) (hsend : ∀ notice, ¬toSend notice)
    (hremoving : ¬removing) (hretitling : ¬retitling) (hunsent : ¬unsent) :
    v.map (fun row => (row.title, row.content)) = store.map fun row => (row.title, row.content) := by
  cases store with
  | none =>
      have hcomes := (h.absent rfl).resolve_right (hsend _)
      cases v with
      | none => rfl
      | some row => exact absurd (.inl rfl) (hcomes row)
  | some current =>
      obtain ⟨⟨row, hrow⟩, hagree⟩ := (h.present current rfl).resolve_left hremoving
      rcases hagree with ⟨fix, hfix, -, -⟩ | hall
      · exact absurd hfix (hsend _)
      · obtain ⟨htitle, hcontent⟩ := hall row hrow
        rcases hrow with hheld | ⟨-, hcreated, -⟩
        · have hv : v = some row := hheld
          rw [hv]
          simp [htitle.resolve_right hretitling, hcontent.resolve_right hunsent]
        · exact absurd hcreated (hsend _)

theorem of_sameText (hsame : v.map (fun row => (row.title, row.content)) =
      store.map fun row => (row.title, row.content)) (hsend : ∀ notice, ¬toSend notice) :
    AgreesAt id store v [] toSend removing retitling unsent := by
  refine ⟨?_, ?_, ?_⟩
  · intro current hcurrent
    rw [hcurrent] at hsame
    obtain ⟨row, hv, htext⟩ := Option.map_eq_some_iff.mp hsame
    obtain ⟨htitle, hcontent⟩ := Prod.mk.inj htext
    refine .inr ⟨⟨row, .inl hv⟩, .inr ?_⟩
    rintro row' (hheld | ⟨-, hcreated, -⟩)
    · obtain rfl := Option.some.inj (hv.symm.trans hheld)
      exact ⟨.inl htitle, .inl hcontent⟩
    · exact absurd hcreated (hsend _)
  · intro hnone
    rw [hnone, Option.map_none, Option.map_eq_none_iff] at hsame
    refine .inl ?_
    rintro row (hheld | ⟨-, hcreated, -⟩)
    · have hrow : v = some row := hheld
      rw [hsame] at hrow
      cases hrow
    · exact hsend _ hcreated
  · rintro (hin | hdeleted)
    · cases hin
    · exact absurd hdeleted (hsend _)

theorem change (h : AgreesAt id store v inbox toSend removing retitling unsent)
    (change : ClipboardRow → ClipboardRow) (htitle : ∀ row, (change row).title = row.title ∨ retitling')
    (hcontent : ∀ row, (change row).content = row.content ∨ unsent') (hremoving : removing → removing')
    (hretitling : retitling → retitling') (hunsent : unsent → unsent') :
    AgreesAt id store (v.map change) inbox toSend removing' retitling' unsent' := by
  have h' := h.mono (fun _ _ => Iff.rfl) hremoving hretitling hunsent
  rcases received_map id v inbox change with hsame | ⟨row, hv, hbefore, hafter⟩
  · exact h'.congr_received hsame fun hin => hin
  · have hcomes : ∀ row', Comes id (v.map change) inbox toSend row' ↔ row' = change row := by
      intro row'
      simp [Comes, hafter, eq_comm]
    have hbefore : Comes id v inbox toSend row := .inl hbefore
    refine ⟨?_, ?_, h'.deleted⟩
    · intro current hcurrent
      rcases h'.present current hcurrent with hrem | ⟨-, hfix | hall⟩
      · exact .inl hrem
      · exact .inr ⟨⟨_, (hcomes _).mpr rfl⟩, .inl hfix⟩
      · refine .inr ⟨⟨_, (hcomes _).mpr rfl⟩, .inr fun row' hrow' => ?_⟩
        obtain rfl := (hcomes row').mp hrow'
        obtain ⟨hoff, hconf⟩ := hall row hbefore
        refine ⟨?_, ?_⟩
        · rcases htitle row with heq | hret
          · rw [heq]
            exact hoff
          · exact .inr hret
        · rcases hcontent row with heq | hun
          · rw [heq]
            exact hconf
          · exact .inr hun
    · intro hnone
      rcases h'.absent hnone with hno | hdeleted
      · exact absurd hbefore (hno row)
      · exact .inr hdeleted

theorem remove (h : AgreesAt id store v inbox toSend removing retitling unsent) (hremoving : removing') :
    AgreesAt id store none inbox toSend removing' retitling' unsent' where
  present := fun _ _ => .inl hremoving
  absent := by
    intro hnone
    refine (h.absent hnone).imp_left fun hno row hrow => ?_
    have hreceived : received id v inbox = none := by
      cases hrec : received id v inbox with
      | none => rfl
      | some row => exact absurd (.inl hrec) (hno row)
    have hstill : received id none inbox = none := received_eq_none (fun _ => rfl) hreceived
    rcases hrow with hheld | ⟨-, hcreated, hid⟩
    · rw [hstill] at hheld
      cases hheld
    · exact hno row (.inr ⟨hreceived, hcreated, hid⟩)
  deleted := h.deleted

/-- The snippet is added, from the response to its creation or back after a refused removal. -/
theorem add (h : AgreesAt id store none inbox toSend removing retitling unsent) (row : ClipboardRow)
    (hin : inbox.find? (fun notice => notice.id = id) = some (.created row) ∨ .deleted id ∈ inbox ∨
      toSend (.deleted id) ∨ removing ∧ store.isSome = true) :
    AgreesAt id store (some row) inbox toSend removing retitling unsent := by
  rcases hin with hhead | hdeleted | hdeleted | ⟨hremoving, hstore⟩
  · exact h.congr_received (received_of_head row hhead) fun hin => hin
  · exact h.congr_received (received_of_deleted hdeleted _ _) fun hin => hin
  · have hnone := h.deleted (.inr hdeleted)
    refine ⟨?_, fun _ => .inr hdeleted, h.deleted⟩
    intro current hcurrent
    rw [hnone] at hcurrent
    cases hcurrent
  · refine ⟨fun _ _ => .inl hremoving, ?_, h.deleted⟩
    intro hnone
    rw [hnone] at hstore
    cases hstore

theorem receive {notice : SnippetNotice}
    (h : AgreesAt id store v (notice :: inbox) toSend removing retitling unsent) :
    AgreesAt id store (notice.applyAt id v) inbox toSend removing retitling unsent where
  present := h.present
  absent := h.absent
  deleted := fun hdeleted => h.deleted (hdeleted.imp_left (List.mem_cons_of_mem _))

/-- The message is not the last one with an old state, and nothing comes before the creation. -/
def InOrder (store : Option ClipboardRow) (toSend : SnippetNotice → Prop) : SnippetNotice → Prop
  | .created _ => True
  | .updated row => (∀ snippet, snippet.id = row.id → ¬toSend (.created snippet)) ∧
      ∀ current, store = some current → SameText row current ∨
        ∃ later, toSend (.updated later) ∧ later.id = row.id ∧ SameText later current
  | .deleted snippetId => ∀ snippet, snippet.id = snippetId → ¬toSend (.created snippet)

theorem send_created {snippet : ClipboardRow} (hid : snippet.id = id)
    (h : AgreesAt id store v inbox (fun n => n = .created snippet ∨ toSend n) removing retitling unsent) :
    AgreesAt id store v (inbox ++ [.created snippet]) toSend removing retitling unsent := by
  have hreceived : received id v (inbox ++ [.created snippet]) = some ((received id v inbox).getD snippet) := by
    rw [received_concat, SnippetNotice.applyAt, if_pos hid]
  have hback : ∀ row, Comes id v (inbox ++ [.created snippet]) toSend row →
      Comes id v inbox (fun n => n = .created snippet ∨ toSend n) row := by
    rintro row (hheld | ⟨hnone, -⟩)
    · obtain rfl := Option.some.inj (hreceived.symm.trans hheld)
      cases hbefore : received id v inbox with
      | none => exact .inr ⟨hbefore, .inl rfl, hid⟩
      | some old => exact .inl hbefore
    · rw [hreceived] at hnone
      cases hnone
  have hcomes : Comes id v (inbox ++ [.created snippet]) toSend ((received id v inbox).getD snippet) :=
    .inl hreceived
  refine ⟨?_, ?_, ?_⟩
  · intro current hcurrent
    rcases h.present current hcurrent with hrem | ⟨-, ⟨fix, hfix, hrest⟩ | hall⟩
    · exact .inl hrem
    · exact .inr ⟨⟨_, hcomes⟩, .inl ⟨fix, hfix.resolve_left nofun, hrest⟩⟩
    · exact .inr ⟨⟨_, hcomes⟩, .inr fun row hrow => hall row (hback row hrow)⟩
  · intro hnone
    rcases h.absent hnone with hno | hdeleted
    · exact absurd (hback _ hcomes) (hno _)
    · exact .inr (hdeleted.resolve_left nofun)
  · rintro (hin | hdeleted)
    · rcases List.mem_append.mp hin with hin | hin
      · exact h.deleted (.inl hin)
      · cases List.mem_singleton.mp hin
    · exact h.deleted (.inr (.inr hdeleted))

theorem send_updated {snippet : ClipboardRow} (hid : snippet.id = id)
    (h : AgreesAt id store v inbox (fun n => n = .updated snippet ∨ toSend n) removing retitling unsent)
    (horder : InOrder store (fun n => n = .updated snippet ∨ toSend n) (.updated snippet)) :
    AgreesAt id store v (inbox ++ [.updated snippet]) toSend removing retitling unsent := by
  obtain ⟨hfirst, hlast⟩ := horder
  rw [hid] at hfirst hlast
  have hreceived : received id v (inbox ++ [.updated snippet]) = (received id v inbox).map fun _ => snippet := by
    rw [received_concat, SnippetNotice.applyAt, if_pos hid]
  have hbefore : ∀ row, Comes id v inbox (fun n => n = .updated snippet ∨ toSend n) row →
      received id v inbox = some row := by
    rintro row (hheld | ⟨-, hcreated, hrow⟩)
    · exact hheld
    · exact absurd hcreated (hfirst row hrow)
  refine ⟨?_, ?_, ?_⟩
  · intro current hcurrent
    rcases h.present current hcurrent with hrem | ⟨⟨row, hrow⟩, -⟩
    · exact .inl hrem
    · have hnow : received id v (inbox ++ [.updated snippet]) = some snippet := by
        rw [hreceived, hbefore row hrow]
        rfl
      refine .inr ⟨⟨snippet, .inl hnow⟩, ?_⟩
      have hcurrentText : SameText snippet current → ∀ row,
          Comes id v (inbox ++ [.updated snippet]) toSend row →
            (row.title = current.title ∨ retitling) ∧ (row.content = current.content ∨ unsent) := by
        rintro hsame row (hheld | ⟨hnone, -⟩)
        · obtain rfl := Option.some.inj (hnow.symm.trans hheld)
          exact ⟨.inl hsame.1, .inl hsame.2⟩
        · rw [hnow] at hnone
          cases hnone
      rcases hlast current hcurrent with hsame | ⟨later, hlater, hlaterId, hsame⟩
      · exact .inr (hcurrentText hsame)
      · rcases hlater with heq | hlater
        · cases heq
          exact .inr (hcurrentText hsame)
        · exact .inl ⟨later, hlater, hlaterId, hsame⟩
  · intro hnone
    rcases h.absent hnone with hno | hdeleted
    · refine .inl fun row hrow => ?_
      have hnow : received id v inbox = none := by
        cases hrec : received id v inbox with
        | none => rfl
        | some old => exact absurd (.inl hrec) (hno old)
      rcases hrow with hheld | ⟨-, hcreated, hrow⟩
      · rw [hreceived, hnow] at hheld
        cases hheld
      · exact hfirst row hrow (.inr hcreated)
    · exact .inr (hdeleted.resolve_left nofun)
  · rintro (hin | hdeleted)
    · rcases List.mem_append.mp hin with hin | hin
      · exact h.deleted (.inl hin)
      · cases List.mem_singleton.mp hin
    · exact h.deleted (.inr (.inr hdeleted))

theorem send_deleted (h : AgreesAt id store v inbox (fun n => n = .deleted id ∨ toSend n) removing retitling unsent)
    (horder : InOrder store (fun n => n = .deleted id ∨ toSend n) (.deleted id)) :
    AgreesAt id store v (inbox ++ [.deleted id]) toSend removing retitling unsent := by
  have hnone : store = none := h.deleted (.inr (.inl rfl))
  have hreceived : received id v (inbox ++ [.deleted id]) = none := by
    rw [received_concat, SnippetNotice.applyAt, if_pos rfl]
  refine ⟨?_, ?_, fun _ => hnone⟩
  · intro current hcurrent
    rw [hnone] at hcurrent
    cases hcurrent
  · refine fun _ => .inl ?_
    rintro row (hheld | ⟨-, hcreated, hid⟩)
    · rw [hreceived] at hheld
      cases hheld
    · exact horder row hid (.inr hcreated)

theorem send {notice : SnippetNotice}
    (h : AgreesAt id store v inbox (fun n => n = notice ∨ toSend n) removing retitling unsent)
    (horder : notice.id = id → InOrder store (fun n => n = notice ∨ toSend n) notice) :
    AgreesAt id store v (inbox ++ [notice]) toSend removing retitling unsent := by
  by_cases hid : notice.id = id
  · cases notice with
    | created snippet => exact h.send_created hid
    | updated snippet => exact h.send_updated hid (horder hid)
    | deleted snippetId =>
        have hsnippet : snippetId = id := hid
        subst hsnippet
        exact h.send_deleted (horder rfl)
  · have hother : ∀ n, n.id = id → (n = notice ∨ toSend n ↔ toSend n) := by
      intro n hn
      refine or_iff_right fun heq => hid ?_
      rw [← heq]
      exact hn
    have hrest := h.mono hother (fun hr => hr) (fun hr => hr) fun hu => hu
    refine hrest.congr_received ?_ ?_
    · rw [received_concat, SnippetNotice.applyAt_of_ne hid]
    · intro hin
      rcases List.mem_append.mp hin with hin | hin
      · exact hin
      · exact absurd (congrArg SnippetNotice.id (List.mem_singleton.mp hin)).symm hid

theorem created (row : ClipboardRow) (hid : row.id = id) (hv : v = none)
    (hinbox : ∀ notice ∈ inbox, notice.id ≠ id) (hsend : ∀ notice, toSend notice → notice.id ≠ id) :
    AgreesAt id (some row) v inbox (fun n => n = .created row ∨ toSend n) removing retitling unsent := by
  have hreceived : ∀ (l : List SnippetNotice), (∀ notice ∈ l, notice.id ≠ id) → received id none l = none := by
    intro l hl
    induction l with
    | nil => rfl
    | cons notice l ih =>
        obtain ⟨hnotice, hl⟩ := List.forall_mem_cons.mp hl
        rw [received_cons, SnippetNotice.applyAt_of_ne hnotice]
        exact ih hl
  have hnone : received id v inbox = none := by
    rw [hv]
    exact hreceived inbox hinbox
  have hcomes : ∀ row', Comes id v inbox (fun n => n = .created row ∨ toSend n) row' → row' = row := by
    rintro row' (hheld | ⟨-, heq | hsent, hrow'⟩)
    · rw [hnone] at hheld
      cases hheld
    · cases heq
      rfl
    · exact absurd hrow' (hsend _ hsent)
  refine ⟨?_, nofun, ?_⟩
  · intro current hcurrent
    obtain rfl := Option.some.inj hcurrent
    refine .inr ⟨⟨row, .inr ⟨hnone, .inl rfl, hid⟩⟩, .inr fun row' hrow' => ?_⟩
    obtain rfl := hcomes row' hrow'
    exact ⟨.inl rfl, .inl rfl⟩
  · rintro (hin | heq | hsent)
    · exact absurd rfl (hinbox _ hin)
    · cases heq
    · exact absurd rfl (hsend _ hsent)

theorem updated {old : ClipboardRow} (h : AgreesAt id (some old) v inbox toSend removing retitling unsent)
    (row : ClipboardRow) (hid : row.id = id) :
    AgreesAt id (some row) v inbox (fun n => n = .updated row ∨ toSend n) removing retitling' unsent' := by
  have hcomes : ∀ row', Comes id v inbox (fun n => n = .updated row ∨ toSend n) row' ↔
      Comes id v inbox toSend row' := by
    intro row'
    simp [Comes]
  refine ⟨?_, nofun, ?_⟩
  · intro current hcurrent
    obtain rfl := Option.some.inj hcurrent
    rcases h.present old rfl with hrem | ⟨⟨row', hrow'⟩, -⟩
    · exact .inl hrem
    · exact .inr ⟨⟨row', (hcomes row').mpr hrow'⟩, .inl ⟨row, .inl rfl, hid, rfl, rfl⟩⟩
  · rintro (hin | heq | hsent)
    · cases h.deleted (.inl hin)
    · cases heq
    · cases h.deleted (.inr hsent)

theorem stored {old : ClipboardRow} (h : AgreesAt id (some old) v inbox toSend removing retitling unsent)
    (row : ClipboardRow) (htitle : row.title = old.title)
    (hinbox : ∀ snippet, .updated snippet ∈ inbox → snippet.id ≠ id)
    (hsend : ∀ snippet, toSend (.updated snippet) → snippet.id ≠ id)
    (hshown : (∃ shown, v = some shown ∧ shown.content = row.content) ∨ unsent' ∨ removing) :
    AgreesAt id (some row) v inbox toSend removing retitling unsent' := by
  refine ⟨?_, nofun, ?_⟩
  · intro current hcurrent
    obtain rfl := Option.some.inj hcurrent
    rcases h.present old rfl with hrem | ⟨hcomes, ⟨fix, hfix, hid, -⟩ | hall⟩
    · exact .inl hrem
    · exact absurd hid (hsend fix hfix)
    · rcases hshown with ⟨shown, rfl, hcontent⟩ | hun | hrem
      · -- Nothing on the way changes what the client shows.
        have hquiet : ∀ notice ∈ inbox, notice.id = id → ∃ snippet, notice = .created snippet := by
          intro notice hin hid
          cases notice with
          | created snippet => exact ⟨snippet, rfl⟩
          | updated snippet => exact absurd hid (hinbox snippet hin)
          | deleted snippetId =>
              have hsnippet : snippetId = id := hid
              subst hsnippet
              cases h.deleted (.inl hin)
        have hshown := received_of_quiet shown hquiet
        refine .inr ⟨hcomes, .inr fun row' hrow' => ?_⟩
        have hsame : row' = shown := by
          rcases hrow' with hheld | ⟨hnone, -⟩
          · exact Option.some.inj (hheld.symm.trans hshown)
          · rw [hshown] at hnone
            cases hnone
        refine ⟨?_, .inl (by rw [hsame, hcontent])⟩
        rw [htitle]
        exact (hall row' hrow').1
      · refine .inr ⟨hcomes, .inr fun row' hrow' => ⟨?_, .inr hun⟩⟩
        rw [htitle]
        exact (hall row' hrow').1
      · exact .inl hrem
  · intro hin
    cases h.deleted hin

theorem removed : AgreesAt id none v inbox (fun n => n = .deleted id ∨ toSend n) removing retitling unsent :=
  ⟨nofun, fun _ => .inr (.inl rfl), fun _ => rfl⟩

end AgreesAt

end NetworkFileServer.Client
