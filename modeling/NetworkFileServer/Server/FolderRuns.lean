import NetworkFileServer.Server.FolderRefinement

/-!
# Runs of the service on a folder

Every sequence of calls answers as the abstract folder does, and what is stored stays until a call is made that
is about it.
-/

namespace NetworkFileServer.Server.FileService

open FileM (Triple Computes)
open FileSystem (Shows)

variable {α : Type} {disk : Disk α} {zip : ZipLibrary α} {orig : FileSystem α} {baseDir : List String}
  {base : Location} {F F' : Folder α}

/-- The names that a path comes to when each `..` takes one back, as long as it stays in the folder. -/
def normalize : List String → List String → Option (List String)
  | names, [] => some names
  | names, c :: rest =>
      if c = ".." then if names = [] then none else normalize names.dropLast rest
      else normalize (names ++ [c]) rest

theorem resolvesTo_normalize (horig : orig.Region base) (n : Nat) (parts names p : List String)
    (h : normalize names parts = some p) : orig.ResolvesTo (base ++ p) n (base ++ names) parts := by
  induction parts generalizing names with
  | nil =>
      obtain rfl := Option.some.inj h
      exact .done n
  | cons c rest ih =>
      unfold normalize at h
      split at h
      · rename_i hup
        subst hup
        split at h
        · cases h
        · rename_i hne
          refine .up ?_
          rw [List.dropLast_append_of_ne_nil hne]
          exact ih _ h
      · rename_i hup
        refine .name hup (horig.noLink _ ?_) ?_
        · rw [List.append_assoc]
          exact List.prefix_append _ _
        · rw [List.append_assoc]
          exact ih _ h

theorem resolvesTo_append {fs : FileSystem α} {l cur : Location} {n : Nat} {p rest : List String}
    (hres : fs.Resolved (cur ++ p)) (h : fs.ResolvesTo l n (cur ++ p) rest) : fs.ResolvesTo l n cur (p ++ rest) := by
  induction p generalizing cur with
  | nil => simpa using h
  | cons c p ih =>
      obtain ⟨hup, hlink, htail⟩ := FileSystem.Resolved.head hres
      exact .name hup hlink (ih htail (by simpa using h))

theorem addressIn_eq (horig : orig.Region base) (path : String) (p : List String) (hrel : Relative path)
    (h : normalize [] (PurePath.parse path).parts = some p) : addressIn disk orig base path = .ok p := by
  have hto := resolvesTo_normalize horig disk.limits.realpath _ [] p h
  rw [List.append_nil] at hto
  have hfull : orig.resolve disk.limits (base ++ (PurePath.parse path).parts) = some (base ++ p) :=
    (FileSystem.realWalk_eq_some orig disk.limits.realpath [] (base ++ p) _).mpr
      (resolvesTo_append horig.resolved (by simpa using hto))
  unfold addressIn
  rw [if_neg hrel.1, if_neg (by simp [hrel.2.1]), if_neg (by simp [hrel.2.2]), hfull]
  simp

/-- The call renames the folder itself. -/
def FileOp.RenamesFolder (share : Share α) : FileOp α → Prop
  | .renamePath path _ => share.address path = .ok []
  | .listDirectory _ | .uploadFile _ _ _ | .downloadFile _ | .deletePaths _ | .createFolder _ _
  | .downloadAsZip _ => False

theorem triple_answer {β : Type} {m : FileM α FileError β} (answer : β → Answer α)
    {outcome : Except FileError (Reply α) × Folder α}
    (h : Triple orig base F m fun r F' => r.map (fun b => (answer b).reply) = outcome.1 ∧ F' = outcome.2) :
    Triple orig base F (m >>= fun b => pure (answer b)) fun r F' => r.map Answer.reply = outcome.1 ∧
      F' = outcome.2 := by
  refine FileM.Triple.map answer (h.mono ?_)
  rintro r F' ⟨hr, hF⟩
  refine ⟨?_, hF⟩
  rw [← hr]
  cases r <;> rfl

theorem triple_run (horig : orig.Region base) (hbase : orig.resolve disk.limits baseDir = some base) (op : FileOp α)
    (hkeeps : ¬op.RenamesFolder (Share.of disk zip orig base)) :
    Triple orig base F (op.run disk zip baseDir) fun r F' =>
      r.map Answer.reply = ((Share.of disk zip orig base).serve F op).1 ∧ F' =
        ((Share.of disk zip orig base).serve F op).2 := by
  cases op with
  | listDirectory path => exact triple_answer Answer.listing (triple_listDirectory zip horig hbase path)
  | uploadFile dir upload conflictResolution =>
      refine triple_answer Answer.uploaded
        ((computes_uploadFile zip horig hbase dir upload conflictResolution).mono ?_)
      rintro r F' ⟨rfl, rfl⟩
      exact ⟨rfl, rfl⟩
  | downloadFile path => exact triple_answer Answer.content (triple_downloadFile zip horig hbase path)
  | deletePaths paths =>
      refine triple_answer Answer.deleted ((computes_deletePaths zip horig hbase paths).mono ?_)
      rintro r F' ⟨rfl, rfl⟩
      exact ⟨rfl, rfl⟩
  | renamePath path newName =>
      refine triple_answer Answer.renamed ((computes_renamePath zip horig hbase path newName hkeeps).mono ?_)
      rintro r F' ⟨rfl, rfl⟩
      exact ⟨rfl, rfl⟩
  | createFolder parent name =>
      refine triple_answer Answer.created ((computes_createFolder zip horig hbase parent name).mono ?_)
      rintro r F' ⟨rfl, rfl⟩
      exact ⟨rfl, rfl⟩
  | downloadAsZip paths => exact triple_answer Answer.archive (triple_downloadAsZip zip horig hbase paths)

theorem runAll_serveAll (horig : orig.Region base) (hbase : orig.resolve disk.limits baseDir = some base)
    (ops : List (FileOp α)) (hkeeps : ∀ op ∈ ops, ¬op.RenamesFolder (Share.of disk zip orig base)) (fs : FileSystem α)
    (hfs : Shows orig base F fs) :
    (runAll disk zip baseDir ops fs).1.map (fun r => r.map Answer.reply) =
        ((Share.of disk zip orig base).serveAll F ops).1 ∧
      Shows orig base ((Share.of disk zip orig base).serveAll F ops).2 (runAll disk zip baseDir ops fs).2 := by
  induction ops generalizing F fs with
  | nil => exact ⟨rfl, hfs⟩
  | cons op ops ih =>
      obtain ⟨F', hshows, hreply, rfl⟩ := triple_run horig hbase op (hkeeps op List.mem_cons_self) fs hfs
      obtain ⟨hrest, hlast⟩ := ih (fun op' hop' => hkeeps op' (List.mem_cons_of_mem op hop')) _ hshows
      refine ⟨?_, hlast⟩
      rw [runAll, Share.serveAll, List.map_cons, hreply, hrest]

/-- The call may change the file at `p`: it deletes or renames it or what it is in, or overwrites it, be it for a
temporary file. -/
def FileOp.Touches (share : Share α) (p : List String) : FileOp α → Prop
  | .uploadFile dir upload (some .overwrite) => ∃ q, share.address dir = .ok q ∧
      (p = q ++ [upload.filename] ∨ p = q ++ [tempName upload.filename])
  | .deletePaths paths => ∃ path ∈ paths, ∃ q, share.address path = .ok q ∧ q <+: p
  | .renamePath path _ => ∃ q, share.address path = .ok q ∧ q <+: p
  | .uploadFile _ _ none | .uploadFile _ _ (some .skip) | .uploadFile _ _ (some .rename) => False
  | .listDirectory _ | .downloadFile _ | .createFolder _ _ | .downloadAsZip _ => False

theorem not_renamesFolder {share : Share α} {p : List String} {op : FileOp α} (h : ¬op.Touches share p) :
    ¬op.RenamesFolder share := by
  cases op with
  | renamePath path newName => exact fun hroot => h ⟨[], hroot, List.nil_prefix⟩
  | listDirectory _ | uploadFile _ _ _ | downloadFile _ | deletePaths _ | createFolder _ _ | downloadAsZip _ => exact id

section Stays

variable {share : Share α} {p : List String} {content : α}

theorem put_of_free {q : List String} (hfile : F p = some (.file content)) (hfree : F q = none) (node : Node α) :
    F.put q node p = some (.file content) := by
  refine (Function.update_of_ne ?_ _ _).trans hfile
  rintro rfl
  rw [hfree] at hfile
  cases hfile

theorem store_keeps {q : List String} {name : String} (hfile : F p = some (.file content))
    (hfree : F (q ++ [name]) = none) (new : α) : (share.store F q name new).2 p = some (.file content) := by
  unfold Share.store
  split
  · exact put_of_free hfile hfree _
  · exact hfile

/-- A file that is replaced is the one that was named, or the one in the way of the temporary file. -/
theorem replace_keeps {q : List String} {name : String} (hfile : F p = some (.file content))
    (hname : p ≠ q ++ [name]) (htemp : p ≠ q ++ [tempName name]) (hclosed : F.WellFormed) (new : α) :
    (share.replace F q name new).2 p = some (.file content) := by
  unfold Share.replace
  split
  · exact hfile
  · rename_i hfree
    split
    · exact (Function.update_of_ne htemp _ _).trans hfile
    · have hbelow : ¬q ++ [tempName name] <+: p := by
        rintro ⟨x, rfl⟩
        by_cases hx : x = []
        · exact htemp (by rw [hx, List.append_nil])
        · rw [hclosed.below _ x hx fun h => hfree ((F.isDir_eq_true _).mpr h)] at hfile
          cases hfile
      change Folder.remove _ _ p = _
      rw [Folder.remove, if_neg hbelow]
      exact (Function.update_of_ne hname _ _).trans hfile

theorem delete_keeps (paths : List String) (hfile : F p = some (.file content))
    (h : ¬(FileOp.deletePaths paths : FileOp α).Touches share p) : (share.delete F paths).2 p = some
    (.file content) := by
  induction paths generalizing F with
  | nil => exact hfile
  | cons path paths ih =>
      unfold Share.delete
      cases hfind : share.find F path with
      | error e => exact hfile
      | ok q =>
          dsimp only
          split
          · apply ih
            · have hnot : ¬q <+: p := fun hpre =>
                h ⟨path, List.mem_cons_self, q, Share.address_of_find hfind, hpre⟩
              rw [Folder.remove, if_neg hnot]
              exact hfile
            · rintro ⟨path', hpath', q', haddress, hpre⟩
              exact h ⟨path', List.mem_cons_of_mem path hpath', q', haddress, hpre⟩
          · exact hfile

theorem serve_keeps {fs : FileSystem α} (hfs : Shows orig base F fs) (op : FileOp α)
    (hfile : F p = some (.file content)) (h : ¬op.Touches share p) : (share.serve F op).2 p = some (.file content) := by
  cases op with
  | listDirectory _ | downloadFile _ | downloadAsZip _ => exact hfile
  | deletePaths paths => exact delete_keeps paths hfile h
  | uploadFile dir upload conflictResolution =>
      change (share.upload F dir upload conflictResolution).2 p = _
      unfold Share.upload
      cases hfind : share.find F dir with
      | error e => exact hfile
      | ok q =>
          dsimp only
          cases hvalid : validateUploadFilename upload.filename with
          | error e => exact hfile
          | ok name =>
              obtain rfl := validateUploadFilename_eq _ _ hvalid
              dsimp only
              unfold Share.place
              cases hnode : F (q ++ [upload.filename]) with
              | none => exact store_keeps hfile hnode upload.content
              | some node =>
                  cases conflictResolution with
                  | none => exact hfile
                  | some cr =>
                      cases cr with
                      | skip => exact hfile
                      | rename =>
                          exact store_keeps hfile (freshName_free (Share.noUp_of_find hfind) _ hfs).1 upload.content
                      | overwrite =>
                          have haddress := Share.address_of_find hfind
                          refine replace_keeps hfile ?_ ?_ hfs.wellFormed upload.content
                          · exact fun heq => h ⟨q, haddress, .inl heq⟩
                          · exact fun heq => h ⟨q, haddress, .inr heq⟩
  | renamePath path newName =>
      change (share.rename F path newName).2 p = _
      unfold Share.rename
      cases validateName newName with
      | error e => exact hfile
      | ok u =>
          cases hfind : share.find F path with
          | error e => exact hfile
          | ok q =>
              dsimp only
              split
              · exact hfile
              · rename_i hfree
                have hsrc : ¬q <+: p := fun hpre => h ⟨q, Share.address_of_find hfind, hpre⟩
                have hdst : ¬q.dropLast ++ (PurePath.parse newName).parts <+: p := by
                  rintro ⟨x, rfl⟩
                  by_cases hx : x = []
                  · rw [hx, List.append_nil] at hfile
                    exact hfree (by rw [hfile]; rfl)
                  · rw [hfs.wellFormed.below _ x hx (by intro hdir; exact hfree (by rw [hdir]; rfl))] at hfile
                    cases hfile
                change Folder.move _ _ _ p = _
                rw [Folder.move, if_neg hdst, if_neg hsrc]
                exact hfile
  | createFolder parent name =>
      change (share.create F parent name).2 p = _
      unfold Share.create
      cases validateName name with
      | error e => exact hfile
      | ok u =>
          cases share.find F parent with
          | error e => exact hfile
          | ok q =>
              dsimp only
              split
              · exact hfile
              · rename_i hfree
                split
                · exact put_of_free hfile (Option.not_isSome_iff_eq_none.mp hfree) _
                · exact hfile

end Stays

theorem stored_of_upload {share : Share α} {dir : String} {upload : Upload α}
    {conflictResolution : Option ConflictResolution} {result : UploadResult} {q : List String}
    (h : (share.upload F dir upload conflictResolution).1 = .ok result) (hnew : result.skipped = false)
    (hdir : share.address dir = .ok q) :
    (share.upload F dir upload conflictResolution).2 (q ++ [result.name]) = some (.file upload.content) := by
  have hstore : ∀ name : String, (share.store F q name upload.content).1 = .ok result →
      (share.store F q name upload.content).2 (q ++ [result.name]) = some (.file upload.content) := by
    intro name hstored
    unfold Share.store at hstored ⊢
    split at hstored
    · rename_i hparent
      cases hstored
      rw [if_pos hparent]
      exact Function.update_self _ _ _
    · cases hstored
  unfold Share.upload at h ⊢
  cases hfind : share.find F dir with
  | error e =>
      rw [hfind] at h
      cases h
  | ok q' =>
      obtain rfl := Except.ok.inj (hdir.symm.trans (Share.address_of_find hfind))
      rw [hfind] at h
      dsimp only at h ⊢
      cases hvalid : validateUploadFilename upload.filename with
      | error e =>
          rw [hvalid] at h
          cases h
      | ok name =>
          rw [hvalid] at h
          dsimp only at h ⊢
          unfold Share.place at h ⊢
          cases hnode : F (q ++ [name]) with
          | none =>
              rw [hnode] at h
              exact hstore name h
          | some node =>
              rw [hnode] at h
              cases conflictResolution with
              | none => cases h
              | some cr =>
                  cases cr with
                  | skip =>
                      cases h
                      cases hnew
                  | rename => exact hstore _ h
                  | overwrite =>
                      dsimp only at h ⊢
                      unfold Share.replace at h ⊢
                      split at h
                      · cases h
                      · rename_i htemp
                        split at h
                        · cases h
                        · rename_i hdest
                          cases h
                          rw [if_neg htemp, if_neg hdest]
                          change Folder.remove _ _ (q ++ [name]) = _
                          rw [Folder.remove, if_neg (tempName_apart q name).1]
                          exact Function.update_self _ _ _

theorem runAll_keeps (horig : orig.Region base) (hbase : orig.resolve disk.limits baseDir = some base) {p : List String}
    {content : α} (ops : List (FileOp α)) (hops : ∀ op ∈ ops, ¬op.Touches (Share.of disk zip orig base) p)
    (fs : FileSystem α) (hfs : Shows orig base F fs) (hfile : F p = some (.file content)) :
    ∃ F', Shows orig base F' (runAll disk zip baseDir ops fs).2 ∧ F' p = some (.file content) := by
  induction ops generalizing F fs with
  | nil => exact ⟨F, hfs, hfile⟩
  | cons op ops ih =>
      have hop := hops op List.mem_cons_self
      obtain ⟨F', hshows, -, rfl⟩ := triple_run horig hbase op (not_renamesFolder hop) fs hfs
      exact ih (fun op' hop' => hops op' (List.mem_cons_of_mem op hop')) _ hshows (serve_keeps hfs op hfile hop)

theorem download_of_file {share : Share α} {path : String} {p : List String} {content : α}
    (hpath : share.address path = .ok p) (hfile : F p = some (.file content)) :
    share.download F path = .ok (.content content) := by
  have hfind : share.find F path = .ok p := by
    unfold Share.find
    rw [hpath]
    simp [hfile]
  have hdir : F.isDir p = false := (F.isDir_eq_false p).mpr (by simp [hfile])
  unfold Share.download
  rw [hfind]
  dsimp only
  rw [hdir, hfile]
  rfl

/-- What an upload has stored can be downloaded with its content, under the name that the upload has answered with,
after any calls that neither delete, rename nor overwrite it. -/
theorem download_after_upload (fs fs' : FileSystem α) (hregion : fs.Region base)
    (hbase : fs.resolve disk.limits baseDir = some base) (dir : String) (upload : Upload α)
    (conflictResolution : Option ConflictResolution) (result : UploadResult)
    (hupload : (uploadFile disk baseDir dir upload conflictResolution).Returns fs result fs')
    (hnew : result.skipped = false) (q : List String) (hdir : addressIn disk fs base dir = .ok q)
    (ops : List (FileOp α)) (hops : ∀ op ∈ ops, ¬op.Touches (Share.of disk zip fs base) (q ++ [result.name]))
    (path : String) (hpath : addressIn disk fs base path = .ok (q ++ [result.name])) :
    ((downloadFile disk baseDir path >>= fileResponse disk) (runAll disk zip baseDir ops fs').2).result =
      .ok upload.content := by
  obtain ⟨F, hshows, hresult, rfl⟩ := computes_uploadFile zip hregion hbase dir upload conflictResolution fs
    (Shows.of_region hregion)
  rw [hupload.1] at hresult
  rw [hupload.2] at hshows
  have hstored := stored_of_upload hresult.symm hnew hdir
  obtain ⟨F', hlast, hfile⟩ := runAll_keeps hregion hbase ops hops fs' hshows hstored
  obtain ⟨F'', -, hreply, -⟩ := triple_downloadFile zip hregion hbase path _ hlast
  rw [download_of_file hpath hfile] at hreply
  cases hdownload :
    ((downloadFile disk baseDir path >>= fileResponse disk) (runAll disk zip baseDir ops fs').2).result with
  | error e =>
      rw [hdownload] at hreply
      cases hreply
  | ok content =>
      rw [hdownload] at hreply
      cases hreply
      rfl

/-- A folder with a file and a directory. -/
def notesShare : FileSystem String where
  tree :=
    [(["srv"], .dir), (["srv", "docs"], .dir), (["srv", "docs", "notes.txt"], .file "old"),
      (["srv", "docs", "old"], .dir)]
  closed := by decide

theorem region_notesShare : notesShare.Region ["srv", "docs"] := by
  have hnoLink : ∀ q, (notesShare.get? q).any Node.isLink = false := FileSystem.noLink_of_tree (by decide +kernel)
  exact ⟨by decide, by decide +kernel, ⟨fun q _ => hnoLink q, by decide⟩, fun q _ => hnoLink q⟩

/-- Work on the folder: a second version is stored under a new name, and its directory is renamed and removed. -/
def notesCalls : List (FileOp String) :=
  [.listDirectory "old/..", .uploadFile "" ⟨"notes.txt", "new"⟩ (some .rename), .renamePath "old" "archive",
    .downloadAsZip ["archive", ""], .deletePaths ["archive", "missing"]]

/-- The second version of the notes, and work after it that deletes the first one. -/
theorem download_after_upload_notes :
    ((downloadFile searchDisk ["srv", "docs"] "old/../notes_1.txt" >>= fileResponse searchDisk)
      (runAll searchDisk treeLibrary ["srv", "docs"]
        [.deletePaths ["notes.txt"], .uploadFile "" ⟨"notes_1.txt", "newer"⟩ none]
        (uploadFile searchDisk ["srv", "docs"] "" ⟨"notes.txt", "new"⟩ (some .rename) notesShare).fs).2).result =
      .ok "new" := by
  have hpath : addressIn searchDisk notesShare ["srv", "docs"] "old/../notes_1.txt" = .ok ["notes_1.txt"] :=
    addressIn_eq region_notesShare "old/../notes_1.txt" ["notes_1.txt"]
      ⟨by decide, by decide +kernel, by decide +kernel⟩ (by decide +kernel)
  refine download_after_upload notesShare _ region_notesShare (by decide +kernel) "" ⟨"notes.txt", "new"⟩ (some .rename)
    (uploadResult "notes_1.txt" 3 false) ⟨by decide +kernel, rfl⟩ rfl [] (by decide +kernel) _ ?_ _ hpath
  intro op hop
  simp only [List.mem_cons, List.not_mem_nil, or_false] at hop
  rcases hop with rfl | rfl
  · rintro ⟨path, hpath, q, haddress, hpre⟩
    rw [List.mem_singleton.mp hpath] at haddress
    have hnotes : addressIn searchDisk notesShare ["srv", "docs"] "notes.txt" = .ok ["notes.txt"] := by decide +kernel
    cases hnotes.symm.trans haddress
    exact absurd hpre (by decide)
  · exact id

end NetworkFileServer.Server.FileService
