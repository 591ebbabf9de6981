import NetworkFileServer.Framework.KeyedTable
import NetworkFileServer.Server.SnippetSocket

/-!
# The clipboard service

The calls of `ClipboardService` on the table `clipboard_snippets`. Every call of the store is one transaction;
the service waits for a thread around it.
-/

namespace NetworkFileServer.Server

/-- `MAX_SNIPPETS`. -/
def maxSnippets : Nat := 50

/-- The row that a list of snippets has for an id. -/
def held (rows : List ClipboardRow) (id : String) : Option ClipboardRow := rows.find? fun row => row.id = id

section Held

variable {rows : List ClipboardRow}

theorem id_of_held {id : String} {row : ClipboardRow} (h : held rows id = some row) : row.id = id := by
  simpa using List.find?_some h

theorem held_eq_none_iff (id : String) : held rows id = none ↔ id ∉ rows.map ClipboardRow.id := by
  simp [held]

theorem held_map (rows : List ClipboardRow) (id id' : String) (change : ClipboardRow → ClipboardRow)
    (hid : ∀ row, row.id = id → (change row).id = id) :
    held (rows.map fun row => if row.id = id then change row else row) id' =
      if id' = id then (held rows id').map change else held rows id' := by
  unfold held
  rw [List.find?_map]
  have hkey : ((fun row : ClipboardRow => decide (row.id = id')) ∘ fun row =>
      if row.id = id then change row else row) = fun row => decide (row.id = id') := by
    funext row
    by_cases hrow : row.id = id
    · simp [hrow, hid row hrow]
    · simp [hrow]
  rw [hkey]
  cases hfind : rows.find? fun row => decide (row.id = id') with
  | none => simp
  | some row =>
      have hrow : row.id = id' := by simpa using List.find?_some hfind
      by_cases heq : id' = id
      · simp [hrow, heq]
      · simp [hrow, heq]

theorem held_filter (id id' : String) :
    held (rows.filter fun row => row.id ≠ id) id' = if id' = id then none else held rows id' := by
  unfold held
  induction rows with
  | nil => simp
  | cons row rows ih =>
      by_cases hrow : row.id = id
      · rw [List.filter_cons_of_neg (by simpa using hrow), ih]
        by_cases heq : id' = id
        · rw [if_pos heq, if_pos heq]
        · have hne : row.id ≠ id' := fun h => heq (h.symm.trans hrow)
          rw [if_neg heq, if_neg heq, List.find?_cons_of_neg (by simpa using hne)]
      · rw [List.filter_cons_of_pos (by simpa using hrow)]
        by_cases hsame : row.id = id'
        · have hne : id' ≠ id := fun h => hrow (hsame.trans h)
          rw [if_neg hne, List.find?_cons_of_pos (by simpa using hsame),
            List.find?_cons_of_pos (by simpa using hsame)]
        · rw [List.find?_cons_of_neg (by simpa using hsame), List.find?_cons_of_neg (by simpa using hsame), ih]

theorem held_append (row : ClipboardRow) (id : String) :
    held (rows ++ [row]) id = (held rows id).or (if id = row.id then some row else none) := by
  unfold held
  rw [List.find?_append]
  by_cases hid : id = row.id
  · simp [hid]
  · have hne : row.id ≠ id := Ne.symm hid
    simp [hid, hne]

theorem map_id_map (rows : List ClipboardRow) (id : String) (change : ClipboardRow → ClipboardRow)
    (hid : ∀ row, row.id = id → (change row).id = id) :
    (rows.map fun row => if row.id = id then change row else row).map ClipboardRow.id =
      rows.map ClipboardRow.id := by
  rw [List.map_map]
  apply List.map_congr_left
  intro row _
  by_cases hrow : row.id = id
  · simp [hrow, hid row hrow]
  · simp [hrow]

end Held

namespace ClipboardTable

variable (t : ClipboardTable)

/-- An id that is in the table is an `IntegrityError`. -/
def insertClipboardSnippet (row : ClipboardRow) : Option ClipboardTable :=
  if h : row.id ∈ t.rows.map ClipboardRow.id then none
  else some ⟨t.rows ++ [row], KeyedTable.nodup_concat ClipboardRow.id t.rows row t.ids h⟩

/-- What `update_clipboard_snippet` makes of a row: an argument that is `None` leaves its column. -/
def nextRow (title content : Option String) (updatedAt : String) (row : ClipboardRow) : ClipboardRow :=
  { row with title := title.getD row.title, content := content.getD row.content, updatedAt := updatedAt }

/-- `update_clipboard_snippet`: the row that is returned, and the table; `none` is a `KeyError`. -/
def updateRow (snippetId : String) (title content : Option String) (now : String) :
    Option (ClipboardRow × ClipboardTable) :=
  (held t.rows snippetId).map fun row =>
    (nextRow title content now row,
      ⟨t.rows.map fun row => if row.id = snippetId then nextRow title content now row else row, by
        rw [map_id_map _ snippetId (nextRow title content now) fun _ hid => hid]
        exact t.ids⟩)

/-- `delete_clipboard_snippet`; `none` is a `KeyError`. -/
def deleteClipboardSnippet (snippetId : String) : Option ClipboardTable :=
  (held t.rows snippetId).map fun _ =>
    ⟨t.rows.filter fun row => row.id ≠ snippetId, t.ids.sublist (List.filter_sublist.map _)⟩

variable {t} {t' : ClipboardTable}

theorem held_insert {row : ClipboardRow} (h : t.insertClipboardSnippet row = some t') (id : String) :
    held t.rows row.id = none ∧ held t'.rows id = if id = row.id then some row else held t.rows id := by
  unfold insertClipboardSnippet at h
  split at h
  · cases h
  · rename_i hfresh
    have hnone := (held_eq_none_iff row.id).mpr hfresh
    cases h
    refine ⟨hnone, ?_⟩
    rw [held_append]
    by_cases hid : id = row.id
    · rw [if_pos hid, if_pos hid, hid, hnone]
      rfl
    · rw [if_neg hid, if_neg hid, Option.or_none]

theorem held_updateRow {snippetId now : String} {title content : Option String} {row : ClipboardRow}
    (h : t.updateRow snippetId title content now = some (row, t')) (id : String) :
    ∃ old, held t.rows snippetId = some old ∧ row = nextRow title content now old ∧ row.id = snippetId ∧
      held t'.rows id = if id = snippetId then some row else held t.rows id := by
  obtain ⟨old, hold, heq⟩ := Option.map_eq_some_iff.mp h
  cases heq
  have hid : old.id = snippetId := id_of_held hold
  refine ⟨old, hold, rfl, hid, ?_⟩
  have hmap := held_map t.rows snippetId id (nextRow title content now) fun _ hid => hid
  rw [hmap]
  by_cases hid : id = snippetId
  · rw [if_pos hid, if_pos hid, hid, hold]
    rfl
  · rw [if_neg hid, if_neg hid]

theorem held_delete {snippetId : String} (h : t.deleteClipboardSnippet snippetId = some t') (id : String) :
    held t'.rows id = if id = snippetId then none else held t.rows id := by
  obtain ⟨old, -, heq⟩ := Option.map_eq_some_iff.mp h
  cases heq
  exact held_filter snippetId id

end ClipboardTable

end NetworkFileServer.Server
