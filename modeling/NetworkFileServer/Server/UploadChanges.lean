import NetworkFileServer.Server.UploadNames

/-!
# What an upload that stops leaves behind

The rules of `UploadNames` read backwards: from what the directory holds and the files of the request, which
names are different after the loop, and which names it reports.
-/

namespace NetworkFileServer.Server.FileService

open Function (update)

variable {α : Type}

def Upload.accepted (f : Upload α) : Bool := (validateUploadFilename f.filename).isOk

/-- The files before the first one whose name is refused. -/
def acceptedFirst (files : List (Upload α)) : List (Upload α) := files.takeWhile Upload.accepted

/-- A file that SKIP and OVERWRITE store, or leave: a name that is held is kept, or taken over through the
temporary name. -/
def taking (conflictResolution : Option ConflictResolution) (names : Names α) (f : Upload α) : Names α :=
  if (names f.filename).isNone then update names f.filename (some (.file f.content))
  else if conflictResolution = some .overwrite then
    update (update names (tempName f.filename) none) f.filename (some (.file f.content))
  else names

/-- A directory is in the way of a file that is to be replaced. -/
def BlockedAt (names : Names α) (f : Upload α) : Prop :=
  names f.filename ≠ none ∧ (names f.filename = some .dir ∨ names (tempName f.filename) = some .dir)

/-- A directory gets into the way of an overwriting request. -/
def Blocked : Names α → List (Upload α) → Prop
  | _, [] => False
  | names, f :: rest => BlockedAt names f ∨ Blocked (taking (some .overwrite) names f) rest

variable {names between after : Names α} {files rest : List (Upload α)} {f : Upload α} {name : String}
  {reported : List String} {e : FileError} {result : Except FileError (List String)}
  {conflictResolution : Option ConflictResolution}

theorem taking_of_free (h : names f.filename = none) :
    taking conflictResolution names f = update names f.filename (some (.file f.content)) := by
  simp [taking, h]

theorem accepted_of_isOk (h : (validateUploadFilename f.filename).isOk = true) : f.accepted = true := h

theorem not_accepted_of_error (h : validateUploadFilename f.filename = .error e) : f.accepted = false := by
  unfold Upload.accepted
  rw [h]
  rfl

theorem StoresAll.accepted (h : StoresAll conflictResolution names files result after)
    (hok : result = .ok reported) : ∀ f ∈ files, f.accepted = true := by
  induction h generalizing reported with
  | nil => exact fun f hf => absurd hf List.not_mem_nil
  | invalid | stopped => cases hok
  | next names between after f rest name result hvalid hstores hrest ih =>
      cases result with
      | error e => cases hok
      | ok reported' =>
          intro g hg
          rcases List.mem_cons.mp hg with rfl | hg
          · exact hvalid
          · exact ih rfl g hg

theorem Stores.keeps {result : Except FileError String} (h : Stores conflictResolution names f result after)
    (hkeeps : conflictResolution ≠ some .overwrite) (name : String) (hheld : names name ≠ none) :
    after name = names name := by
  cases h with
  | fresh hfree =>
      rw [Function.update_of_ne]
      rintro rfl
      exact hheld hfree
  | conflict | skipped => rfl
  | renamed name' _ _ _ _ hfree =>
      rw [Function.update_of_ne]
      rintro rfl
      exact hheld hfree
  | replaced _ hoverwrite | blocked _ _ _ hoverwrite => exact absurd hoverwrite hkeeps

theorem StoresAll.keeps (h : StoresAll conflictResolution names files result after)
    (hkeeps : conflictResolution ≠ some .overwrite) (name : String) (hheld : names name ≠ none) :
    after name = names name := by
  induction h with
  | nil | invalid => rfl
  | stopped names after f rest e _ hstores => exact hstores.keeps hkeeps name hheld
  | next names between after f rest name' result _ hstores _ ih =>
      have hfirst := hstores.keeps hkeeps name hheld
      rw [ih (by rwa [hfirst]), hfirst]

theorem Stores.held (h : Stores conflictResolution names f (.ok name) after) : after name ≠ none := by
  cases h with
  | fresh | renamed | replaced => simp
  | skipped hheld => exact hheld

/-- A file that is stored under a new name stays, unless the request overwrites. -/
theorem StoresAll.ne_of_next (hstores : Stores conflictResolution names f (.ok name) between)
    (hrest : StoresAll conflictResolution between rest result after)
    (hkeeps : conflictResolution ≠ some .overwrite) (hfree : names name = none) : after ≠ names := by
  intro heq
  have hheld := hrest.keeps hkeeps name hstores.held
  rw [heq, hfree] at hheld
  exact hstores.held hheld.symm

section Refused

variable (h : StoresAll conflictResolution names files result after) (herr : result = .error e)

include h herr

theorem StoresAll.unchanged_iff_none (hnone : conflictResolution = none) :
    after = names ↔ ∀ f ∈ files.head?, ¬(f.accepted = true ∧ names f.filename = none) := by
  subst hnone
  cases h with
  | nil => cases herr
  | invalid _ f rest e hinvalid => simp [not_accepted_of_error hinvalid]
  | stopped _ _ f rest e hvalid hstores =>
      cases hstores with
      | conflict path hheld => simp [hheld]
      | blocked _ _ _ hoverwrite => cases hoverwrite
  | next _ between _ f rest name result hvalid hstores hrest =>
      have hfree : name = f.filename ∧ names f.filename = none := by
        cases hstores with
        | fresh hfree => exact ⟨rfl, hfree⟩
        | skipped _ hskip => cases hskip
        | renamed _ _ hrename => cases hrename
        | replaced _ hoverwrite => cases hoverwrite
      refine iff_of_false (StoresAll.ne_of_next hstores hrest (by simp) (by rw [hfree.1, hfree.2])) ?_
      simp [accepted_of_isOk hvalid, hfree.2]

theorem StoresAll.unchanged_iff_rename (hrename : conflictResolution = some .rename) :
    after = names ↔ ∀ f ∈ files.head?, f.accepted = false := by
  subst hrename
  cases h with
  | nil => cases herr
  | invalid _ f rest e hinvalid => simp [not_accepted_of_error hinvalid]
  | stopped _ _ f rest e hvalid hstores =>
      cases hstores with
      | conflict _ _ hnone => cases hnone
      | blocked _ _ _ hoverwrite => cases hoverwrite
  | next _ between _ f rest name result hvalid hstores hrest =>
      have hfree : names name = none := by
        cases hstores with
        | fresh hfree => exact hfree
        | skipped _ hskip => cases hskip
        | renamed _ _ _ _ _ hfree => exact hfree
        | replaced _ hoverwrite => cases hoverwrite
      refine iff_of_false (StoresAll.ne_of_next hstores hrest (by simp) hfree) ?_
      simp [accepted_of_isOk hvalid]

omit herr in
theorem StoresAll.held_skip (hskip : conflictResolution = some .skip) :
    ∀ f ∈ acceptedFirst files, after f.filename ≠ none := by
  subst hskip
  induction h with
  | nil => simp [acceptedFirst]
  | invalid names f rest e hinvalid => simp [acceptedFirst, not_accepted_of_error hinvalid]
  | stopped names after f rest e hvalid hstores =>
      cases hstores with
      | conflict _ _ hnone => cases hnone
      | blocked _ _ _ hoverwrite => cases hoverwrite
  | next names between after f rest name result hvalid hstores hrest ih =>
      have hname : name = f.filename := by
        cases hstores with
        | fresh | skipped => rfl
        | renamed _ _ hrename => cases hrename
        | replaced _ hoverwrite => cases hoverwrite
      subst hname
      unfold acceptedFirst
      rw [List.takeWhile_cons_of_pos (accepted_of_isOk hvalid), List.forall_mem_cons]
      refine ⟨?_, ih⟩
      rw [hrest.keeps (by simp) _ hstores.held]
      exact hstores.held

omit herr in
theorem StoresAll.unchanged_of_skip (hskip : conflictResolution = some .skip)
    (hheld : ∀ f ∈ acceptedFirst files, names f.filename ≠ none) : after = names := by
  subst hskip
  induction h with
  | nil | invalid => rfl
  | stopped names after f rest e hvalid hstores =>
      cases hstores with
      | conflict _ _ hnone => cases hnone
      | blocked _ _ _ hoverwrite => cases hoverwrite
  | next names between after f rest name result hvalid hstores hrest ih =>
      unfold acceptedFirst at hheld
      rw [List.takeWhile_cons_of_pos (accepted_of_isOk hvalid), List.forall_mem_cons] at hheld
      cases hstores with
      | fresh hfree => exact absurd hfree hheld.1
      | skipped => exact ih hheld.2
      | renamed _ _ hrename => cases hrename
      | replaced _ hoverwrite => cases hoverwrite

omit herr in
/-- With SKIP, nothing changes exactly if every file before the refused one is held. -/
theorem StoresAll.unchanged_iff_skip (hskip : conflictResolution = some .skip) :
    after = names ↔ ∀ f ∈ acceptedFirst files, names f.filename ≠ none := by
  constructor
  · rintro rfl
    exact h.held_skip hskip
  · exact h.unchanged_of_skip hskip

end Refused

theorem StoresAll.overwrites (h : StoresAll (some .overwrite) names files result after) :
    (Blocked names (acceptedFirst files) ∧ ∃ e, result = .error (.os e)) ∨
      ¬Blocked names (acceptedFirst files) ∧ after = (acceptedFirst files).foldl (taking (some .overwrite)) names ∧
        (result = .ok (files.map Upload.filename) ∧ acceptedFirst files = files ∨
          ∃ f ∈ files, ∃ e, result = .error e ∧ validateUploadFilename f.filename = .error e) := by
  induction h with
  | nil => exact .inr ⟨id, rfl, .inl ⟨rfl, rfl⟩⟩
  | invalid names f rest e hinvalid =>
      have hnone : acceptedFirst (f :: rest) = [] :=
        List.takeWhile_cons_of_neg (by simp [not_accepted_of_error hinvalid])
      rw [hnone]
      exact .inr ⟨id, rfl, .inr ⟨f, List.mem_cons_self, e, rfl, hinvalid⟩⟩
  | stopped names after f rest e hvalid hstores =>
      left
      unfold acceptedFirst
      rw [List.takeWhile_cons_of_pos (accepted_of_isOk hvalid)]
      cases hstores with
      | conflict _ _ hnone => cases hnone
      | blocked e _ hheld _ hdir => exact ⟨.inl ⟨hheld, hdir⟩, e, rfl⟩
  | next names between after f rest name result hvalid hstores hrest ih =>
      have htakes : name = f.filename ∧ between = taking (some .overwrite) names f ∧ ¬BlockedAt names f := by
        cases hstores with
        | fresh hfree => exact ⟨rfl, (taking_of_free hfree).symm, fun hblocked => hblocked.1 hfree⟩
        | skipped _ hskip => cases hskip
        | renamed _ _ hrename => cases hrename
        | replaced hheld _ hfile htemp =>
            refine ⟨rfl, ?_, fun hblocked => hblocked.2.elim hfile htemp⟩
            simp [taking, hheld]
      obtain ⟨rfl, rfl, hfree⟩ := htakes
      unfold acceptedFirst at ih ⊢
      rw [List.takeWhile_cons_of_pos (accepted_of_isOk hvalid)]
      rcases ih with ⟨hblocked, e, rfl⟩ | ⟨hfreeRest, rfl, hend⟩
      · exact .inl ⟨.inr hblocked, e, rfl⟩
      · right
        refine ⟨fun hblocked => hblocked.elim hfree hfreeRest, rfl, ?_⟩
        rcases hend with ⟨rfl, hall⟩ | ⟨g, hg, e, rfl, hinvalid⟩
        · exact .inl ⟨rfl, by rw [hall]⟩
        · exact .inr ⟨g, List.mem_cons_of_mem f hg, e, rfl, hinvalid⟩

theorem StoresAll.error_cases (h : StoresAll conflictResolution names files result after)
    (herr : result = .error e) :
    (∃ f ∈ files, validateUploadFilename f.filename = .error e) ∨
      (conflictResolution = none ∧ ∃ name path, e = .fileConflict name path) ∨
      conflictResolution = some .overwrite ∧ ∃ e', e = .os e' := by
  induction h with
  | nil => cases herr
  | invalid names f rest e' hinvalid =>
      cases herr
      exact .inl ⟨f, List.mem_cons_self, hinvalid⟩
  | stopped names after f rest e' hvalid hstores =>
      cases herr
      cases hstores with
      | conflict path _ hnone => exact .inr (.inl ⟨hnone, _, path, rfl⟩)
      | blocked e' _ _ hoverwrite => exact .inr (.inr ⟨hoverwrite, e', rfl⟩)
  | next names between after f rest name result hvalid hstores hrest ih =>
      cases result with
      | ok reported => cases herr
      | error e' =>
          rcases ih herr with ⟨g, hg, hinvalid⟩ | hother
          · exact .inl ⟨g, List.mem_cons_of_mem f hg, hinvalid⟩
          · exact .inr hother

/-- Without a resolution, the loop returns exactly if every file has an accepted, free name of its own. -/
theorem StoresAll.ok_iff_none (h : StoresAll none names files result after) :
    (∃ reported, result = .ok reported) ↔
      (∀ f ∈ files, f.accepted = true ∧ names f.filename = none) ∧ (files.map Upload.filename).Nodup := by
  induction h with
  | nil => simp
  | invalid names f rest e hinvalid => simp [not_accepted_of_error hinvalid]
  | stopped names after f rest e hvalid hstores =>
      cases hstores with
      | conflict path hheld => simp [hheld]
      | blocked _ _ _ hoverwrite => cases hoverwrite
  | next names between after f rest name result hvalid hstores hrest ih =>
      have hfree : names f.filename = none ∧
          between = update names f.filename (some (.file f.content)) := by
        cases hstores with
        | fresh hfree => exact ⟨hfree, rfl⟩
        | skipped _ hskip => cases hskip
        | renamed _ _ hrename => cases hrename
        | replaced _ hoverwrite => cases hoverwrite
      obtain ⟨hfree, rfl⟩ := hfree
      have hmap : (∃ reported, result.map (name :: ·) = .ok reported) ↔ ∃ reported, result = .ok reported := by
        cases result <;> simp [Except.map]
      have hnames : (∀ g ∈ rest, g.accepted = true ∧
          update names f.filename (some (.file f.content)) g.filename = none) ↔
          (∀ g ∈ rest, g.accepted = true ∧ names g.filename = none) ∧
            f.filename ∉ rest.map Upload.filename := by
        constructor
        · intro hall
          have hne : ∀ g ∈ rest, g.filename ≠ f.filename := by
            intro g hg heq
            have hnone := (hall g hg).2
            rw [heq, Function.update_self] at hnone
            cases hnone
          refine ⟨fun g hg => ⟨(hall g hg).1, ?_⟩, ?_⟩
          · rw [← Function.update_of_ne (hne g hg) (some (.file f.content)) names]
            exact (hall g hg).2
          · intro hmem
            obtain ⟨g, hg, heq⟩ := List.mem_map.mp hmem
            exact hne g hg heq
        · rintro ⟨hall, hnot⟩ g hg
          have hne : g.filename ≠ f.filename := fun heq => hnot (List.mem_map.mpr ⟨g, hg, heq⟩)
          rw [Function.update_of_ne hne]
          exact hall g hg
      rw [hmap, ih, hnames, List.map_cons, List.nodup_cons, List.forall_mem_cons]
      simp only [accepted_of_isOk hvalid, hfree, true_and, and_self]
      exact and_assoc

section AllStored

variable (h : StoresAll conflictResolution names files result after) (hok : result = .ok reported)

include h hok

/-- Unless the request skips or overwrites, it reports names that were free. -/
theorem StoresAll.reported_free (hskip : conflictResolution ≠ some .skip)
    (hkeeps : conflictResolution ≠ some .overwrite) : ∀ name ∈ reported, names name = none := by
  induction h generalizing reported with
  | nil =>
      cases hok
      simp
  | invalid | stopped => cases hok
  | next names between after f rest name result hvalid hstores hrest ih =>
      have hfirst : names name = none := by
        cases hstores with
        | fresh hfree => exact hfree
        | skipped _ hskip' => exact absurd hskip' hskip
        | renamed _ _ _ _ _ hfree => exact hfree
        | replaced _ hoverwrite => exact absurd hoverwrite hkeeps
      cases result with
      | error e => cases hok
      | ok reported' =>
          cases hok
          rw [List.forall_mem_cons]
          refine ⟨hfirst, ?_⟩
          intro name' hname'
          by_contra hheld
          have hfree := ih rfl name' hname'
          rw [hstores.keeps hkeeps name' hheld] at hfree
          exact hheld hfree

theorem StoresAll.reported_proper : ∀ name ∈ reported, ProperName name ∧ hasNul name = false := by
  induction h generalizing reported with
  | nil =>
      cases hok
      simp
  | invalid | stopped => cases hok
  | next names between after f rest name result hvalid hstores hrest ih =>
      have hfilename : ProperName f.filename ∧ hasNul f.filename = false := by
        cases hname : validateUploadFilename f.filename with
        | error e =>
            rw [hname] at hvalid
            cases hvalid
        | ok name' =>
            exact ⟨properName_of_validateUploadFilename _ _ hname, hasNul_of_validateUploadFilename _ _ hname⟩
      have hfirst : ProperName name ∧ hasNul name = false := by
        cases hstores with
        | fresh | skipped | replaced => exact hfilename
        | renamed _ _ _ hproper hnul => exact ⟨hproper, hnul⟩
      cases result with
      | error e => cases hok
      | ok reported' =>
          cases hok
          rw [List.forall_mem_cons]
          exact ⟨hfirst, ih rfl⟩

theorem StoresAll.reported_filenames (hrename : conflictResolution ≠ some .rename) :
    reported = files.map Upload.filename := by
  induction h generalizing reported with
  | nil =>
      cases hok
      rfl
  | invalid | stopped => cases hok
  | next names between after f rest name result hvalid hstores hrest ih =>
      have hname : name = f.filename := by
        cases hstores with
        | fresh | skipped | replaced => rfl
        | renamed _ _ hrename' => exact absurd hrename' hrename
      cases result with
      | error e => cases hok
      | ok reported' =>
          cases hok
          rw [ih rfl, hname, List.map_cons]

theorem StoresAll.after_eq (hrename : conflictResolution ≠ some .rename) :
    after = files.foldl (taking conflictResolution) names := by
  induction h generalizing reported with
  | nil => rfl
  | invalid | stopped => cases hok
  | next names between after f rest name result hvalid hstores hrest ih =>
      have hbetween : between = taking conflictResolution names f := by
        cases hstores with
        | fresh hfree => exact (taking_of_free hfree).symm
        | skipped hheld hskip => simp [taking, hheld, hskip]
        | renamed _ _ hrename' => exact absurd hrename' hrename
        | replaced hheld hoverwrite => simp [taking, hheld, hoverwrite]
      cases result with
      | error e => cases hok
      | ok reported' => rw [ih rfl, hbetween, List.foldl_cons]

theorem StoresAll.others_same (hnodup : reported.Nodup) (hfree : ∀ name ∈ reported, names name = none) :
    ∀ name, name ∉ reported → after name = names name := by
  induction h generalizing reported with
  | nil => exact fun _ _ => rfl
  | invalid | stopped => cases hok
  | next names between after f rest name result hvalid hstores hrest ih =>
      cases result with
      | error e => cases hok
      | ok reported' =>
          cases hok
          obtain ⟨hnot, hnodup⟩ := List.nodup_cons.mp hnodup
          obtain ⟨hfirst, hfree⟩ := List.forall_mem_cons.mp hfree
          have hbetween : ∀ name', name' ≠ name → between name' = names name' := by
            intro name' hne
            cases hstores with
            | fresh | renamed => exact Function.update_of_ne hne _ _
            | skipped => rfl
            | replaced hheld => exact absurd hfirst hheld
          intro name' hname'
          rw [List.mem_cons, not_or] at hname'
          rw [ih rfl hnodup ?_ name' hname'.2, hbetween name' hname'.1]
          intro n hn
          rw [hbetween n fun heq => hnot (heq ▸ hn)]
          exact hfree n hn

end AllStored

theorem foldl_taking_of_ne (files : List (Upload α)) (names : Names α) (name : String)
    (hne : ∀ f ∈ files, name ≠ f.filename ∧ name ≠ tempName f.filename) :
    files.foldl (taking conflictResolution) names name = names name := by
  induction files generalizing names with
  | nil => rfl
  | cons f files ih =>
      obtain ⟨⟨hfile, htemp⟩, hrest⟩ := List.forall_mem_cons.mp hne
      rw [List.foldl_cons, ih _ hrest]
      unfold taking
      split
      · rw [Function.update_of_ne hfile]
      · split
        · rw [Function.update_of_ne hfile, Function.update_of_ne htemp]
        · rfl

end NetworkFileServer.Server.FileService
