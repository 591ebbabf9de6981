import NetworkFileServer.Framework.TransitionSystem
import NetworkFileServer.Server.ClipboardService

/-!
# The capacity of the clipboard

`create_snippet` counts the snippets in one call of the store and inserts the new one in another. Every call
runs in a thread of its own, and other calls go on in between.
-/

namespace NetworkFileServer.Server

open TransitionSystem

inductive SnippetStoreCall where
  | createSnippet (title : String)
  | deleteSnippet (snippetId : String)
deriving DecidableEq, Repr

/-- Where a call is: at the store call that it awaits, or at its end. -/
inductive SnippetStorePc where
  | count (title : String)
  | insert (row : ClipboardRow)
  | delete (snippetId : String)
  | created (row : ClipboardRow)
  | deleted
  | raised (e : SnippetError)
deriving DecidableEq

def SnippetStoreCall.entry : SnippetStoreCall → SnippetStorePc
  | .createSnippet title => .count title
  | .deleteSnippet snippetId => .delete snippetId

/-- The row of `create_snippet`, with the id and the time that it makes. -/
def newSnippet (snippetId now title : String) : ClipboardRow := ⟨snippetId, title, "", now, now⟩

/-- The store call that is awaited, and the code up to the next one; `snippetId` and `now` are the id and the
time that are made in between. -/
def SnippetStorePc.resume (t : ClipboardTable) (snippetId now : String) :
    SnippetStorePc → Option (ClipboardTable × SnippetStorePc)
  | .count title =>
      if maxSnippets ≤ t.rows.length then
        some (t, .raised (.validation ("Maximum snippet count (" ++ toString maxSnippets ++ ") exceeded")))
      else some (t, .insert (newSnippet snippetId now title))
  | .insert row =>
      match t.insertClipboardSnippet row with
      | none => some (t, .raised .raised)
      | some t' => some (t', .created row)
  | .delete snippetId =>
      match t.deleteClipboardSnippet snippetId with
      | none => some (t, .raised .notFound)
      | some t' => some (t', .deleted)
  | .created _ | .deleted | .raised _ => none

/-- The table, and the calls that have been made. -/
structure SnippetStoreSystem where
  table : ClipboardTable
  calls : List SnippetStorePc

inductive SnippetStoreAction where
  | start (call : SnippetStoreCall)
  /-- The store call of call number `i` is executed. -/
  | resume (i : Nat) (snippetId now : String)
deriving DecidableEq, Repr

namespace SnippetStoreSystem

def start (t : ClipboardTable) : SnippetStoreSystem := ⟨t, []⟩

def step (s : SnippetStoreSystem) : SnippetStoreAction → Option SnippetStoreSystem
  | .start call => some { s with calls := s.calls ++ [call.entry] }
  | .resume i snippetId now =>
      (s.calls[i]?.bind fun pc => pc.resume s.table snippetId now).map fun (t, pc) => ⟨t, s.calls.set i pc⟩

def WithinCapacity (s : SnippetStoreSystem) : Prop := s.table.rows.length ≤ maxSnippets

theorem length_insert {t t' : ClipboardTable} {row : ClipboardRow} (h : t.insertClipboardSnippet row = some t') :
    t'.rows.length = t.rows.length + 1 := by
  unfold ClipboardTable.insertClipboardSnippet at h
  split at h
  · cases h
  · cases h
    exact List.length_append

theorem length_delete {t t' : ClipboardTable} {snippetId : String}
    (h : t.deleteClipboardSnippet snippetId = some t') : t'.rows.length ≤ t.rows.length := by
  obtain ⟨row, -, rfl⟩ := Option.map_eq_some_iff.mp h
  exact List.length_filter_le _ _

def inserting : SnippetStorePc → Bool
  | .insert _ => true
  | _ => false

/-- A count that passes finds room for the snippets that other calls are about to insert, too. -/
def CountsAlone (s : SnippetStoreSystem) : SnippetStoreAction → Bool
  | .start _ => true
  | .resume i _ _ =>
      match s.calls[i]? with
      | some (.count _) =>
          maxSnippets ≤ s.table.rows.length || s.table.rows.length + s.calls.countP inserting < maxSnippets
      | _ => true

/-- There is room for the stored snippets and those that are about to be inserted. -/
def Reserved (s : SnippetStoreSystem) : Prop :=
  s.table.rows.length + s.calls.countP inserting ≤ maxSnippets

theorem countP_inserting_set {calls : List SnippetStorePc} {i : Nat} {pc : SnippetStorePc} (hi : calls[i]? = some pc)
    (pc' : SnippetStorePc) :
    (calls.set i pc').countP inserting + (if inserting pc then 1 else 0) =
      calls.countP inserting + if inserting pc' then 1 else 0 := by
  obtain ⟨hlt, hget⟩ := List.getElem?_eq_some_iff.mp hi
  have hpos : inserting pc = true → 0 < calls.countP inserting := by
    intro hpc
    exact List.countP_pos_iff.mpr ⟨pc, List.mem_of_getElem? hi, hpc⟩
  rw [List.countP_set hlt, hget]
  cases hpc : inserting pc with
  | true =>
      have := hpos hpc
      simp only [if_true]
      omega
  | false => simp

theorem Reserved.resume {s : SnippetStoreSystem} (hs : s.Reserved) {i : Nat} {pc : SnippetStorePc}
    (hi : s.calls[i]? = some pc) (table : ClipboardTable) (pc' : SnippetStorePc)
    (h : table.rows.length + (if inserting pc' then 1 else 0) ≤
      s.table.rows.length + if inserting pc then 1 else 0) : Reserved ⟨table, s.calls.set i pc'⟩ := by
  have hcount := countP_inserting_set hi pc'
  unfold Reserved at hs ⊢
  change table.rows.length + (s.calls.set i pc').countP inserting ≤ maxSnippets
  omega

theorem reserved_step (s : SnippetStoreSystem) (a : SnippetStoreAction) (t : SnippetStoreSystem) (hs : s.Reserved)
    (halone : s.CountsAlone a = true) (h : s.step a = some t) : t.Reserved := by
  cases a with
  | start call =>
      cases h
      cases call <;> simpa [Reserved, SnippetStoreCall.entry, inserting] using hs
  | resume i snippetId now =>
      obtain ⟨⟨table, pc'⟩, hresume, rfl⟩ := Option.map_eq_some_iff.mp h
      obtain ⟨pc, hi, hresume⟩ := Option.bind_eq_some_iff.mp hresume
      cases pc with
      | count title =>
          simp only [SnippetStorePc.resume] at hresume
          split at hresume
          · cases hresume
            exact hs.resume hi _ _ (le_refl _)
          · rename_i hroom
            cases hresume
            simp only [CountsAlone, hi, Bool.or_eq_true, decide_eq_true_eq, hroom, false_or] at halone
            have hcount := countP_inserting_set hi (.insert (newSnippet snippetId now title))
            simp only [inserting, Bool.false_eq_true, if_false, if_true] at hcount
            unfold Reserved
            change s.table.rows.length + (s.calls.set i _).countP inserting ≤ maxSnippets
            omega
      | insert row =>
          simp only [SnippetStorePc.resume] at hresume
          split at hresume
          · cases hresume
            exact hs.resume hi _ _ (by simp [inserting])
          · rename_i hinsert
            cases hresume
            exact hs.resume hi _ _ (by simp [inserting, length_insert hinsert])
      | delete id =>
          simp only [SnippetStorePc.resume] at hresume
          split at hresume
          · cases hresume
            exact hs.resume hi _ _ (le_refl _)
          · rename_i hdelete
            cases hresume
            exact hs.resume hi _ _ (length_delete hdelete)
      | created _ | deleted | raised _ => cases hresume

/-- The capacity holds in every run whose counts leave room for the calls that are on their way to their insert. -/
theorem withinCapacity_of_countsAlone (t : ClipboardTable) (actions : List SnippetStoreAction)
    (hstart : t.rows.length ≤ maxSnippets)
    (halone : Guarded step (fun s a => s.CountsAlone a = true) (start t) actions) :
    Throughout step WithinCapacity (start t) actions := by
  refine throughout_of_guarded step _ Reserved WithinCapacity ?_ reserved_step ?_ halone
  · intro s hs
    exact (Nat.le_add_right _ _).trans hs
  · simpa [Reserved, start] using hstart

/-- A table with 49 snippets. -/
def almostFull : ClipboardTable where
  rows := (List.range 49).map fun n => newSnippet (toString n) "" ""
  ids := by decide +kernel

/-- The last place is taken, freed and taken again. -/
def oneAfterTheOther : List SnippetStoreAction :=
  [.start (.createSnippet "a"), .resume 0 "a0" "", .resume 0 "" "", .start (.deleteSnippet "a0"), .resume 1 "" "",
    .start (.createSnippet "b"), .resume 2 "b0" "", .resume 2 "" ""]

theorem withinCapacity_of_countsAlone_oneAfterTheOther :
    Throughout step WithinCapacity (start almostFull) oneAfterTheOther :=
  withinCapacity_of_countsAlone almostFull oneAfterTheOther (by decide +kernel) (by decide +kernel)

/-- Both calls count before either of them inserts. -/
def bothCreate : List SnippetStoreAction :=
  [.start (.createSnippet "a"), .start (.createSnippet "b"), .resume 0 "a0" "", .resume 1 "b0" "", .resume 0 "" "",
    .resume 1 "" ""]

theorem not_withinCapacity_bothCreate :
    ∃ u, run step (start almostFull) bothCreate = some u ∧ u.table.rows.length = 51 ∧ ¬u.WithinCapacity := by
  have hrun : (run step (start almostFull) bothCreate).map (fun u => u.table.rows.length) = some 51 := by
    decide +kernel
  obtain ⟨u, hu, hlength⟩ := Option.map_eq_some_iff.mp hrun
  refine ⟨u, hu, hlength, ?_⟩
  unfold WithinCapacity
  rw [hlength]
  decide

end SnippetStoreSystem

end NetworkFileServer.Server
