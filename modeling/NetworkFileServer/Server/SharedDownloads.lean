import NetworkFileServer.Framework.LastChange
import NetworkFileServer.Server.FolderRuns
import NetworkFileServer.Server.LinkTable

/-!
# Downloads by share link

The routes of `share.py` over the share service and the folder, between the awaits of their handlers. Nobody has to
sign in for `share_download`, so the links decide what of the folder is public.
-/

namespace NetworkFileServer.Server.FileService

open FileM (Triple Computes)
open FileSystem (Shows)
open ShareLinkService (LinkTable Valid)
open TransitionSystem

variable {τ : Type*} {α : Type}

/-- What `share_download` answers. -/
inductive ShareReply (α : Type) where
  | expiredPage
  | unavailablePage
  | file (filename : String) (content : α)
deriving DecidableEq, Repr

/-- `resolved.name` -/
def fileName (l : Location) : String := l.getLast?.getD ""

/-- `except FileNotFoundError` -/
def FileError.isNotFound : FileError → Bool
  | .fileNotFound _ | .os .notFound => true
  | _ => false

/-- `share_download` with what `validate_token` has returned. -/
def shareDownload (disk : Disk α) (baseDir : List String) (found : Except (ShareLinkError τ) String) :
    FileM α FileError (ShareReply α) :=
  match found with
  | .error _ => pure .expiredPage
  | .ok filePath => do
      let resolved ← (resolveSafePath disk baseDir filePath).attempt
      match resolved with
      | .error e => if e.isNotFound then pure .unavailablePage else FileM.fail e
      | .ok l => do
          let content ← fileResponse disk l
          pure (.file (fileName l) content)

/-- The state of the application. `checked` has the paths of the `create_share_link` handlers that have found their
object and go on to `create_link`. -/
structure SharedFolder (τ : Type*) (α : Type) where
  service : ShareLinkService τ
  clock : ℚ
  fs : FileSystem α
  checked : List String

inductive ShareEvent (τ : Type*) (α : Type) where
  /-- A call of the file service. -/
  | file (op : FileOp α)
  /-- `create_share_link` up to its await. -/
  | checkPath (filePath : String)
  | createLink (now : ℚ) (filePath : String) (ttl : ShareTTL)
  | validateToken (now : ℚ) (token : τ)
  | revokeLink (now : ℚ) (token : τ)
  | listActiveLinks (now : ℚ)
  /-- A new process over the same state store. -/
  | restart

namespace SharedFolder

variable [DecidableEq τ] (ser : ShareSerializer τ) (disk : Disk α) (zip : ZipLibrary α) (baseDir : List String)

/-- The first start, with an empty state store. -/
def start (opened : ℚ) (fs : FileSystem α) : SharedFolder τ α := ⟨.init (some []), opened, fs, []⟩

/-- The clock does not go back. -/
def step (s : SharedFolder τ α) : ShareEvent τ α → Option (SharedFolder τ α)
  | .file op => some { s with fs := (op.run disk zip baseDir s.fs).fs }
  | .checkPath filePath =>
      match (resolveSafePath disk baseDir filePath s.fs).result with
      | .ok _ => some { s with checked := filePath :: s.checked }
      | .error _ => some s
  | .createLink now filePath ttl =>
      if now < s.clock ∨ filePath ∉ s.checked then none
      else some { s with service := (s.service.createLink ser now filePath ttl).1, clock := now }
  | .validateToken now token =>
      if now < s.clock then none
      else some { s with service := (s.service.validateToken ser now token).1, clock := now }
  | .revokeLink now token =>
      if now < s.clock then none else some { s with service := (s.service.revokeLink token).1, clock := now }
  | .listActiveLinks now =>
      if now < s.clock then none
      else some { s with service := (s.service.listActiveLinks ser now).1, clock := now }
  | .restart => some { s with service := .init s.service.store, checked := [] }

end SharedFolder

/-- The calls of the file service among the events. -/
def fileOps (events : List (ShareEvent τ α)) : List (FileOp α) :=
  events.filterMap fun
    | .file op => some op
    | _ => none

/-- What the folder holds after the events. -/
noncomputable def Share.after (share : Share α) (F : Folder α) (events : List (ShareEvent τ α)) : Folder α :=
  (share.serveAll F (fileOps events)).2

theorem Share.serveAll_concat (share : Share α) (F : Folder α) (ops : List (FileOp α)) (op : FileOp α) :
    (share.serveAll F (ops ++ [op])).2 = (share.serve (share.serveAll F ops).2 op).2 := by
  induction ops generalizing F with
  | nil => rfl
  | cons op' ops ih => exact ih _

theorem Share.after_concat_file (share : Share α) (F : Folder α) (events : List (ShareEvent τ α)) (op : FileOp α) :
    share.after F (events ++ [.file op]) = (share.serve (share.after F events) op).2 := by
  unfold Share.after fileOps
  rw [List.filterMap_append]
  exact share.serveAll_concat F _ op

theorem Share.after_concat_of_none (share : Share α) (F : Folder α) (events : List (ShareEvent τ α))
    (e : ShareEvent τ α)
    (he : ∀ op, e ≠ .file op) : share.after F (events ++ [e]) = share.after F events := by
  unfold Share.after fileOps
  rw [List.filterMap_append]
  cases e with
  | file op => exact absurd rfl (he op)
  | _ => simp

section Links

variable (ser : ShareSerializer τ) (share : Share α) (F : Folder α) (now : ℚ) (token : τ) (filePath : String)

/-- With the event the token becomes that of a link for the path, and is within its TTL at `now`. The path has led to
an object of the folder in this process. -/
def Issues (before : List (ShareEvent τ α)) (_s : SharedFolder τ α) (e : ShareEvent τ α) : Prop :=
  ∃ created ttl, e = .createLink created filePath ttl ∧ token = ser.dumps (getTimestamp created) filePath ∧
    getTimestamp now - getTimestamp created ≤ ttl.seconds ∧
    ∃ earlier rest p, before = earlier ++ .checkPath filePath :: rest ∧ .restart ∉ rest ∧
      share.find (share.after F earlier) filePath = .ok p

/-- The event ends the link of the token, or makes another one with the same token. -/
def Withdraws (_s : SharedFolder τ α) (e : ShareEvent τ α) : Prop :=
  (∃ t, e = .revokeLink t token) ∨
    ∃ created filePath ttl, e = .createLink created filePath ttl ∧ token = ser.dumps (getTimestamp created) filePath

end Links

namespace SharedFolder

variable [DecidableEq τ] {ser : ShareSerializer τ} {disk : Disk α} {zip : ZipLibrary α} {baseDir : List String}
  {opened : ℚ}
  {fs : FileSystem α} {base : Location} {s t : SharedFolder τ α} {events : List (ShareEvent τ α)}

theorem linkTable_step {e : ShareEvent τ α} (h : LinkTable ser s.clock s.service)
    (hstep : s.step ser disk zip baseDir e = some t) : LinkTable ser t.clock t.service := by
  cases e with
  | file op =>
      cases hstep
      exact h
  | checkPath filePath =>
      simp only [step] at hstep
      split at hstep <;> cases hstep <;> exact h
  | createLink now filePath ttl =>
      obtain ⟨hnot, heq⟩ := Option.ite_none_left_eq_some.mp hstep
      cases heq
      exact h.createLink (not_lt.mp fun hlt => hnot (.inl hlt)) filePath ttl
  | validateToken now token =>
      obtain ⟨hnot, heq⟩ := Option.ite_none_left_eq_some.mp hstep
      cases heq
      exact h.validateToken (not_lt.mp hnot) token
  | revokeLink now token =>
      obtain ⟨hnot, heq⟩ := Option.ite_none_left_eq_some.mp hstep
      cases heq
      exact (h.revokeLink token).later (not_lt.mp hnot)
  | listActiveLinks now =>
      obtain ⟨hnot, heq⟩ := Option.ite_none_left_eq_some.mp hstep
      cases heq
      exact h.listActiveLinks (not_lt.mp hnot)
  | restart =>
      cases hstep
      simpa only [h.restart] using h

theorem linkTable_run (hrun : run (step ser disk zip baseDir) (start opened fs) events = some s) :
    LinkTable ser s.clock s.service :=
  run_invariant _ (fun s => LinkTable ser s.clock s.service) (fun _ _ _ h hstep => linkTable_step h hstep)
    ShareLinkService.linkTable_init hrun

theorem clock_step {e : ShareEvent τ α} (hstep : s.step ser disk zip baseDir e = some t) : s.clock ≤ t.clock := by
  cases e with
  | file op | restart =>
      cases hstep
      exact le_rfl
  | checkPath filePath =>
      simp only [step] at hstep
      split at hstep <;> cases hstep <;> exact le_rfl
  | createLink now filePath ttl =>
      obtain ⟨hnot, heq⟩ := Option.ite_none_left_eq_some.mp hstep
      cases heq
      exact not_lt.mp fun hlt => hnot (.inl hlt)
  | validateToken now _ | revokeLink now _ | listActiveLinks now =>
      obtain ⟨hnot, heq⟩ := Option.ite_none_left_eq_some.mp hstep
      cases heq
      exact not_lt.mp hnot

section Folder

variable (hregion : fs.Region base) (hbase : fs.resolve disk.limits baseDir = some base)

include hregion hbase

theorem shows_run (hkeeps : ∀ op, .file op ∈ events → ¬op.RenamesFolder (Share.of disk zip fs base))
    (hrun : run (step ser disk zip baseDir) (start opened fs) events = some s) :
    Shows fs base ((Share.of disk zip fs base).after (fs.folder base) events) s.fs := by
  induction events using List.reverseRecOn generalizing s with
  | nil =>
      cases hrun
      exact Shows.of_region hregion
  | append_singleton events e ih =>
      obtain ⟨r, hr, hstep⟩ := exists_of_run_concat hrun
      have hshows := ih (fun op hop => hkeeps op (List.mem_append_left _ hop)) hr
      cases e with
      | file op =>
          cases hstep
          obtain ⟨F', hlast, -, rfl⟩ := triple_run hregion hbase op (hkeeps op (by simp)) r.fs hshows
          rw [Share.after_concat_file]
          exact hlast
      | checkPath filePath =>
          rw [Share.after_concat_of_none _ _ _ _ (by simp)]
          simp only [step] at hstep
          split at hstep <;> cases hstep <;> exact hshows
      | createLink now _ _ | validateToken now _ | revokeLink now _ | listActiveLinks now =>
          rw [Share.after_concat_of_none _ _ _ _ (by simp)]
          obtain ⟨-, heq⟩ := Option.ite_none_left_eq_some.mp hstep
          cases heq
          exact hshows
      | restart =>
          rw [Share.after_concat_of_none _ _ _ _ (by simp)]
          cases hstep
          exact hshows

theorem checked_run (hkeeps : ∀ op, .file op ∈ events → ¬op.RenamesFolder (Share.of disk zip fs base))
    (hrun : run (step ser disk zip baseDir) (start opened fs) events = some s) (filePath : String)
    (hchecked : filePath ∈ s.checked) :
    ∃ earlier rest p, events = earlier ++ .checkPath filePath :: rest ∧ .restart ∉ rest ∧
      (Share.of disk zip fs base).find
        ((Share.of disk zip fs base).after (fs.folder base) earlier) filePath = .ok p := by
  induction events using List.reverseRecOn generalizing s with
  | nil =>
      cases hrun
      cases hchecked
  | append_singleton events e ih =>
      obtain ⟨r, hr, hstep⟩ := exists_of_run_concat hrun
      have hkeeps' : ∀ op, .file op ∈ events → ¬op.RenamesFolder (Share.of disk zip fs base) :=
        fun op hop => hkeeps op (List.mem_append_left _ hop)
      have hold : filePath ∈ r.checked → e ≠ .restart → ∃ earlier rest p,
          events ++ [e] = earlier ++ .checkPath filePath :: rest ∧ .restart ∉ rest ∧
            (Share.of disk zip fs base).find
              ((Share.of disk zip fs base).after (fs.folder base) earlier) filePath = .ok p := by
        intro hmem he
        obtain ⟨earlier, rest, p, rfl, hrest, hfind⟩ := ih hkeeps' hr hmem
        exact ⟨earlier, rest ++ [e], p, by simp, by simp [hrest, he.symm], hfind⟩
      cases e with
      | file op =>
          cases hstep
          exact hold hchecked (by simp)
      | checkPath filePath' =>
          simp only [step] at hstep
          split at hstep
          · rename_i l hresult
            cases hstep
            rcases List.mem_cons.mp hchecked with rfl | hmem
            · obtain ⟨F', -, hfind, -⟩ := computes_resolveSafePath zip hregion hbase filePath r.fs
                (shows_run hregion hbase hkeeps' hr)
              rw [hresult] at hfind
              cases hp : (Share.of disk zip fs base).find
                ((Share.of disk zip fs base).after (fs.folder base) events) filePath with
              | error e =>
                  rw [hp] at hfind
                  cases hfind
              | ok p => exact ⟨events, [], p, rfl, List.not_mem_nil, hp⟩
            · exact hold hmem (by simp)
          · cases hstep
            exact hold hchecked (by simp)
      | createLink now _ _ | validateToken now _ | revokeLink now _ | listActiveLinks now =>
          obtain ⟨-, heq⟩ := Option.ite_none_left_eq_some.mp hstep
          cases heq
          exact hold hchecked (by simp)
      | restart =>
          cases hstep
          cases hchecked

theorem valid_step (hkeeps : ∀ op, .file op ∈ events → ¬op.RenamesFolder (Share.of disk zip fs base))
    (hrun : run (step ser disk zip baseDir) (start opened fs) events = some s) {e : ShareEvent τ α}
    (hstep : s.step ser disk zip baseDir e = some t) {now : ℚ} (hnow : t.clock ≤ now) (token : τ) (filePath : String) :
    t.service.Valid now token filePath ↔
      Issues ser (Share.of disk zip fs base) (fs.folder base) now token filePath events s e ∨
        s.service.Valid now token filePath ∧ ¬Withdraws ser token s e := by
  have htable := linkTable_run hrun
  have hquiet : (∀ created filePath ttl, e ≠ .createLink created filePath ttl) →
      ¬Issues ser (Share.of disk zip fs base) (fs.folder base) now token filePath events s e := by
    rintro hno ⟨created, ttl, rfl, -⟩
    exact hno created filePath ttl rfl
  have hkept : (∀ created filePath ttl, e ≠ .createLink created filePath ttl) → (∀ t token, e ≠ .revokeLink t token) →
      ¬Withdraws ser token s e := by
    rintro hno hrevoke (⟨t, rfl⟩ | ⟨created, filePath, ttl, rfl, -⟩)
    · exact hrevoke t token rfl
    · exact hno created filePath ttl rfl
  cases e with
  | file op =>
      cases hstep
      simp [hquiet (by simp), hkept (by simp) (by simp)]
  | checkPath filePath' =>
      have heq : t.service = s.service := by
        simp only [step] at hstep
        split at hstep <;> cases hstep <;> rfl
      simp [heq, hquiet (by simp), hkept (by simp) (by simp)]
  | createLink created filePath' ttl =>
      obtain ⟨hnot, heq⟩ := Option.ite_none_left_eq_some.mp hstep
      cases heq
      rw [ShareLinkService.valid_createLink]
      constructor
      · rintro (⟨htoken, rfl, hage⟩ | ⟨hne, hvalid⟩)
        · have hchecked : filePath' ∈ s.checked := by
            by_contra hmem
            exact hnot (.inr hmem)
          exact .inl ⟨created, ttl, rfl, htoken, hage, checked_run hregion hbase hkeeps hrun filePath' hchecked⟩
        · refine .inr ⟨hvalid, ?_⟩
          rintro (⟨t, heq⟩ | ⟨created', filePath'', ttl', heq, htoken⟩)
          · cases heq
          · cases heq
            exact hne htoken
      · rintro (⟨created', ttl', heq, htoken, hage, -⟩ | ⟨hvalid, hnot⟩)
        · cases heq
          exact .inl ⟨htoken, rfl, hage⟩
        · exact .inr ⟨fun htoken => hnot (.inr ⟨created, filePath', ttl, rfl, htoken⟩), hvalid⟩
  | validateToken now' token' =>
      obtain ⟨hnot, heq⟩ := Option.ite_none_left_eq_some.mp hstep
      cases heq
      rw [htable.valid_validateToken (not_lt.mp hnot) hnow]
      simp [hquiet (by simp), hkept (by simp) (by simp)]
  | revokeLink now' token' =>
      obtain ⟨-, heq⟩ := Option.ite_none_left_eq_some.mp hstep
      cases heq
      rw [ShareLinkService.valid_revokeLink]
      have hwithdraws : Withdraws ser token s (.revokeLink now' token') ↔ token = token' := by
        constructor
        · rintro (⟨t, heq⟩ | ⟨created, filePath, ttl, heq, -⟩)
          · cases heq
            rfl
          · cases heq
        · rintro rfl
          exact .inl ⟨now', rfl⟩
      rw [hwithdraws]
      simp only [hquiet (by simp), false_or]
      exact and_comm
  | listActiveLinks now' =>
      obtain ⟨hnot, heq⟩ := Option.ite_none_left_eq_some.mp hstep
      cases heq
      rw [htable.valid_listActiveLinks (not_lt.mp hnot) hnow]
      simp [hquiet (by simp), hkept (by simp) (by simp)]
  | restart =>
      cases hstep
      simp [htable.restart, hquiet (by simp), hkept (by simp) (by simp)]

/-- A token is valid when a link was made for it that is within its TTL, and nothing has withdrawn it since. -/
theorem valid_iff_since (hkeeps : ∀ op, .file op ∈ events → ¬op.RenamesFolder (Share.of disk zip fs base))
    (hrun : run (step ser disk zip baseDir) (start opened fs) events = some s) {now : ℚ}
    (hnow : s.clock ≤ now) (token : τ)
    (filePath : String) : s.service.Valid now token filePath ↔
      Since (step ser disk zip baseDir) (Issues ser (Share.of disk zip fs base) (fs.folder base) now token filePath)
        (Withdraws ser token) (start opened fs) events := by
  refine holds_iff_since_of_before (P := fun s : SharedFolder τ α => s.service.Valid now token filePath)
    (fun s => s.clock ≤ now) ?_ ?_ ?_ hrun hnow
  · rintro ⟨r, hget, -⟩
    cases hget
  · exact fun r e u hstep hclock => (clock_step hstep).trans hclock
  · intro before r e u hpre hbefore hstep hclock
    have hmem : ∀ op, .file op ∈ before → .file op ∈ events :=
      fun op hop => hpre.subset (List.mem_append_left _ hop)
    exact valid_step hregion hbase (fun op hop => hkeeps op (hmem op hop)) hbefore hstep hclock token filePath

end Folder

end SharedFolder

section Download

variable [DecidableEq τ] {ser : ShareSerializer τ} {disk : Disk α} {zip : ZipLibrary α} {baseDir : List String}
  {opened : ℚ}
  {fs : FileSystem α} {base : Location} {F : Folder α}

omit [DecidableEq τ] in
theorem computes_shareDownload (hregion : fs.Region base) (hbase : fs.resolve disk.limits baseDir = some base)
    (filePath : String) : Computes fs base F
    (shareDownload disk baseDir (.ok filePath : Except (ShareLinkError τ) String))
      (match (Share.of disk zip fs base).find F filePath with
        | .error e => if e.isNotFound then .ok .unavailablePage else .error e
        | .ok p => ((FileM.contentOf (F p)).mapError .os).map (.file (fileName (base ++ p))), F) := by
  refine (computes_resolveSafePath zip hregion hbase filePath).attempt.bind ?_
  cases hfind : (Share.of disk zip fs base).find F filePath with
  | error e =>
      cases hnotFound : e.isNotFound with
      | true =>
          simp only [Except.map, hnotFound, if_true]
          exact FileM.computes_pure _
      | false =>
          simp only [Except.map, hnotFound, Bool.false_eq_true, if_false]
          exact FileM.computes_fail _
  | ok p =>
      have hread : Computes fs base F (fileResponse disk (base ++ p)) _ :=
        (FileM.computes_readFile disk.limits (Share.noUp_of_find hfind)).mapError FileError.os
      simp only [Except.map]
      cases hcontent : FileM.contentOf (F p) with
      | error e =>
          rw [hcontent] at hread
          exact hread.bind_error
      | ok content =>
          rw [hcontent] at hread
          exact hread.bind (FileM.computes_pure _)

theorem contentOf_eq_ok (node : Option (Node α)) (content : α) :
    FileM.contentOf node = .ok content ↔ node = some (.file content) := by
  unfold FileM.contentOf
  split <;> simp

/-- Whatever happens around it, `share_download` gives a content away exactly when a link has been made for a path
of the folder, the link is within its TTL and has not been withdrawn when its token is looked at, and the path leads
to a file with this content when the file is opened. -/
theorem shareDownload_iff (hregion : fs.Region base) (hbase : fs.resolve disk.limits baseDir = some base)
    (events later : List (ShareEvent τ α)) (now : ℚ) (token : τ)
    (hkeeps : ∀ op, .file op ∈ events ++ .validateToken now token :: later → ¬op.RenamesFolder
      (Share.of disk zip fs base))
    {s t : SharedFolder τ α} (hrun : run (SharedFolder.step ser disk zip baseDir) (.start opened fs) events = some s)
    (hlater : run (SharedFolder.step ser disk zip baseDir) (.start opened fs)
      (events ++ .validateToken now token :: later) = some t) (filename : String) (content : α) :
    (shareDownload disk baseDir (s.service.validateToken ser now token).2 t.fs).result = .ok (.file filename content) ↔
      ∃ filePath p, Since (SharedFolder.step ser disk zip baseDir)
          (Issues ser (Share.of disk zip fs base) (fs.folder base) now token filePath) (Withdraws ser token)
          (.start opened fs) events ∧
        (Share.of disk zip fs base).find
          ((Share.of disk zip fs base).after (fs.folder base)
            (events ++ .validateToken now token :: later)) filePath = .ok p ∧
        (Share.of disk zip fs base).after (fs.folder base) (events ++ .validateToken now token :: later) p =
          some (.file content) ∧
        filename = fileName (base ++ p) := by
  have hshows := SharedFolder.shows_run hregion hbase hkeeps hlater
  have hkeeps' : ∀ op, .file op ∈ events → ¬op.RenamesFolder (Share.of disk zip fs base) :=
    fun op hop => hkeeps op (List.mem_append_left _ hop)
  have hnow : s.clock ≤ now := by
    rw [run_append, hrun, Option.bind_some, run_cons_eq_some] at hlater
    obtain ⟨u, hstep, -⟩ := hlater
    exact not_lt.mp (Option.ite_none_left_eq_some.mp hstep).1
  have hlink := fun filePath => (SharedFolder.linkTable_run hrun).validate_iff hnow token filePath
  simp only [SharedFolder.valid_iff_since hregion hbase hkeeps' hrun hnow] at hlink
  simp only [← hlink]
  cases hfound : (s.service.validateToken ser now token).2 with
  | error e =>
      constructor
      · intro h
        cases h
      · rintro ⟨filePath, p, hok, -⟩
        cases hok
  | ok filePath =>
      obtain ⟨F', -, hresult, -⟩ := computes_shareDownload (τ := τ) hregion hbase filePath t.fs hshows
      rw [hresult]
      constructor
      · intro h
        split at h
        · split at h <;> cases h
        · rename_i p hfind
          cases hcontent : FileM.contentOf ((Share.of disk zip fs base).after (fs.folder base)
              (events ++ .validateToken now token :: later) p) with
          | error e =>
              rw [hcontent] at h
              cases h
          | ok content' =>
              rw [hcontent] at h
              cases h
              exact ⟨filePath, p, rfl, hfind, (contentOf_eq_ok _ _).mp hcontent, rfl⟩
      · rintro ⟨filePath', p, hok, hfind, hfile, rfl⟩
        cases hok
        rw [hfind]
        simp only [(contentOf_eq_ok _ _).mpr hfile]
        rfl

end Download

/-- The notes are linked to, and written anew while a recipient waits for them. -/
def notesLinked : List (ShareEvent (ℤ × String) String) :=
  [.checkPath "old/../notes.txt", .createLink 10 "old/../notes.txt" .oneHour]

def notesRewritten : List (ShareEvent (ℤ × String) String) :=
  [.file (.uploadFile "" ⟨"notes.txt", "new"⟩ (some .overwrite))]

theorem shareDownload_iff_notes :
    ∃ filePath p, Since (SharedFolder.step ShareHistory.plainSerializer searchDisk treeLibrary ["srv", "docs"])
        (Issues ShareHistory.plainSerializer (Share.of searchDisk treeLibrary notesShare ["srv", "docs"])
          (notesShare.folder ["srv", "docs"]) 100 (10, "old/../notes.txt") filePath)
        (Withdraws ShareHistory.plainSerializer (10, "old/../notes.txt")) (.start 0 notesShare) notesLinked ∧
      (Share.of searchDisk treeLibrary notesShare ["srv", "docs"]).find
        ((Share.of searchDisk treeLibrary notesShare ["srv", "docs"]).after (notesShare.folder ["srv", "docs"])
          (notesLinked ++ .validateToken 100 (10, "old/../notes.txt") :: notesRewritten)) filePath = .ok p ∧
      (Share.of searchDisk treeLibrary notesShare ["srv", "docs"]).after (notesShare.folder ["srv", "docs"])
        (notesLinked ++ .validateToken 100 (10, "old/../notes.txt") :: notesRewritten) p = some (.file "new") ∧
      "notes.txt" = fileName (["srv", "docs"] ++ p) := by
  have heval : (run (SharedFolder.step ShareHistory.plainSerializer searchDisk treeLibrary ["srv", "docs"])
      (.start 0 notesShare) notesLinked).any (fun s =>
        (run (SharedFolder.step ShareHistory.plainSerializer searchDisk treeLibrary ["srv", "docs"])
          (.start 0 notesShare)
          (notesLinked ++ .validateToken 100 (10, "old/../notes.txt") :: notesRewritten)).any (fun t =>
            decide ((shareDownload searchDisk ["srv", "docs"]
              (s.service.validateToken ShareHistory.plainSerializer 100 (10, "old/../notes.txt")).2 t.fs).result =
                .ok (.file "notes.txt" "new")))) = true := by
    decide +kernel
  obtain ⟨s, hrun, hs⟩ := (Option.any_eq_true _ _).mp heval
  obtain ⟨t, hlater, hresult⟩ := (Option.any_eq_true _ _).mp hs
  refine (shareDownload_iff region_notesShare (by decide +kernel) notesLinked notesRewritten 100
    (10, "old/../notes.txt")
    ?_ hrun hlater "notes.txt" "new").mp (of_decide_eq_true hresult)
  intro op hop
  simp only [notesLinked, notesRewritten, List.cons_append, List.nil_append, List.mem_cons, List.not_mem_nil, or_false,
    reduceCtorEq, false_or, ShareEvent.file.injEq] at hop
  subst hop
  exact id

end NetworkFileServer.Server.FileService
