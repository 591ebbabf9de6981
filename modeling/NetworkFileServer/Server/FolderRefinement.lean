import NetworkFileServer.Server.FolderService
import NetworkFileServer.Server.RequestEffects

/-!
# The service is the abstract folder

Each call of the service on a folder without links returns what the abstract folder replies and leaves what the
abstract folder becomes, and so does every sequence of calls.
-/

namespace NetworkFileServer.Server.FileService

open FileM (Triple Computes)
open FileSystem (Shows)

variable {α : Type} {disk : Disk α} (zip : ZipLibrary α) {orig : FileSystem α} {baseDir : List String}
  {base : Location} {F F' : Folder α}

section Guard

variable (horig : orig.Region base)

include horig

theorem computes_resolvePath (p : List String) : Computes orig base F (resolvePath disk p)
    ((orig.resolve disk.limits p).elim (.error (.os .notFound)) .ok, F) := by
  refine FileM.computes_of_keeps (keeps_resolvePath disk p) ?_
  intro fs hfs
  unfold resolvePath FileM.mapError FileM.resolve
  rw [(hfs.sameLinks horig).resolve disk.limits p]
  cases fs.resolve disk.limits p <;> rfl

theorem computes_resolveBase (hbase : orig.resolve disk.limits baseDir = some base) :
    Computes orig base F (resolvePath disk baseDir) (.ok base, F) := by
  have h : Computes orig base F (resolvePath disk baseDir) _ := computes_resolvePath horig baseDir
  rwa [hbase] at h

theorem computes_resolveSafePath (hbase : orig.resolve disk.limits baseDir = some base) (path : String) :
    Computes orig base F (resolveSafePath disk baseDir path)
      (((Share.of disk zip orig base).find F path).map (base ++ ·), F) := by
  refine (computes_resolveBase horig hbase).bind ?_
  unfold Share.find Share.of
  dsimp only
  unfold addressIn
  by_cases hempty : path = ""
  · simp only [hempty, true_or, if_true, Except.map, List.append_nil]
    exact FileM.computes_pure base
  rw [if_neg hempty, if_neg hempty]
  split
  · exact FileM.computes_fail _
  split
  · exact FileM.computes_fail _
  have hresolve : Computes orig base F (resolvePath disk (base ++ (PurePath.parse path).parts)) _ :=
    computes_resolvePath horig _
  cases hl : orig.resolve disk.limits (base ++ (PurePath.parse path).parts) with
  | none =>
      rw [hl] at hresolve
      exact hresolve.bind_error
  | some l =>
      rw [hl] at hresolve
      refine hresolve.bind ?_
      by_cases hin : base <+: l
      · obtain ⟨p, rfl⟩ := hin
        have hup : ".." ∉ p := fun hup => (orig.resolve_resolved _ _ _ hl).noUp (List.mem_append_right base hup)
        simp only [List.prefix_append, not_true, if_false, if_true, List.drop_left, hempty, false_or]
        refine (FileM.computes_pathExists disk.limits hup).bind ?_
        cases (F p).isSome with
        | true => exact FileM.computes_pure (base ++ p)
        | false => exact FileM.computes_fail _
      · simp only [hin, not_false_eq_true, if_true, if_false]
        exact FileM.computes_fail _

theorem triple_guard {β : Type} {Q : Except FileError β → Folder α → Prop} {f : Location → FileM α FileError β}
    (hbase : orig.resolve disk.limits baseDir = some base) (path : String)
    (hok : ∀ p, (Share.of disk zip orig base).find F path = .ok p → ".." ∉ p → Triple orig base F (f (base ++ p)) Q)
    (herror : ∀ e, (Share.of disk zip orig base).find F path = .error e → Q (.error e) F) :
    Triple orig base F (resolveSafePath disk baseDir path >>= f) Q := by
  have hguard : Computes orig base F _ _ := computes_resolveSafePath zip horig hbase path
  cases hfind : (Share.of disk zip orig base).find F path with
  | error e =>
      rw [hfind] at hguard
      refine hguard.bind_error.mono ?_
      rintro r F' ⟨rfl, rfl⟩
      exact herror e hfind
  | ok p =>
      rw [hfind] at hguard
      exact hguard.bind (hok p hfind (Share.noUp_of_find hfind))

omit horig in
theorem computes_entries {p : List String} (hp : ".." ∉ p) (names : List String)
    (hnames : ∀ n ∈ names, ProperName n ∧ (F (p ++ [n])).isSome = true) :
    Computes orig base F (FileM.forEach (listEntry disk (base ++ p)) names)
      (.ok (names.map fun n => fileEntry disk (base ++ (p ++ [n])) n ((F (p ++ [n])).getD .dir)), F) := by
  apply FileM.computes_forEach
  intro n hn
  obtain ⟨hproper, hsome⟩ := hnames n hn
  obtain ⟨node, hnode⟩ := Option.isSome_iff_exists.mp hsome
  have hup : ".." ∉ p ++ [n] := by simpa [hp] using hproper.2.2.1.symm
  have hstat : Computes orig base F _ _ := FileM.computes_stat disk.limits hup
  rw [hnode] at hstat
  unfold listEntry
  rw [List.append_assoc, hnode]
  exact (hstat.mapError FileError.os).bind (FileM.computes_pure _)

theorem triple_listDirectory (hbase : orig.resolve disk.limits baseDir = some base) (path : String) :
    Triple orig base F (listDirectory disk baseDir path) fun r F' =>
      r.map (fun l => Reply.listing l.path {i | ∃ e ∈ l.entries, e.item = i}) =
        (Share.of disk zip orig base).list F path ∧
        F' = F := by
  refine triple_guard zip horig hbase path ?_ ?_
  · intro p hfind hp
    unfold Share.list
    rw [hfind]
    dsimp only
    by_cases hdir : F p = some .dir
    · rw [if_pos ((F.isDir_eq_true p).mpr hdir)]
      refine ((FileM.triple_listdir disk.limits hp hdir).mapError FileError.os).bind ?_ ?_
      · rintro names F' ⟨r₀, hr₀, rfl, names', rfl, hnames⟩
        obtain rfl := Except.ok.inj hr₀
        refine (computes_entries hp names fun n hn => (hnames n).mp hn).bind ?_
        refine FileM.Triple.mono (FileM.computes_pure _) ?_
        rintro r F' ⟨rfl, rfl⟩
        refine ⟨congrArg (fun s => Except.ok (Reply.listing path s)) ?_, rfl⟩
        ext i
        simp only [List.mem_map, Set.mem_ofPred_eq]
        constructor
        · rintro ⟨e, ⟨n, hn, rfl⟩, rfl⟩
          obtain ⟨hproper, hsome⟩ := (hnames n).mp hn
          obtain ⟨node, hnode⟩ := Option.isSome_iff_exists.mp hsome
          exact ⟨n, node, hproper, hnode, by rw [hnode]; rfl⟩
        · rintro ⟨n, node, hproper, hnode, rfl⟩
          exact ⟨_, ⟨n, (hnames n).mpr ⟨hproper, by rw [hnode]; rfl⟩, rfl⟩, by rw [hnode]; rfl⟩
      · rintro e F' ⟨r₀, hr₀, -, names, rfl, -⟩
        cases hr₀
    · rw [if_neg fun h => hdir ((F.isDir_eq_true p).mp h)]
      have hlist : Computes orig base F _ _ :=
        (FileM.computes_listdir_of_not_dir disk.limits hp hdir).mapError FileError.os
      refine hlist.bind_error.mono ?_
      rintro r F' ⟨rfl, rfl⟩
      exact ⟨rfl, rfl⟩
  · intro e hfind
    refine ⟨?_, rfl⟩
    rw [Share.list, hfind]
    rfl

theorem triple_downloadFile (hbase : orig.resolve disk.limits baseDir = some base) (path : String) :
    Triple orig base F (downloadFile disk baseDir path >>= fileResponse disk) fun r F' =>
      r.map Reply.content = (Share.of disk zip orig base).download F path ∧ F' = F := by
  unfold downloadFile
  rw [FileM.bind_assoc]
  refine triple_guard zip horig hbase path ?_ ?_
  · intro p hfind hp
    unfold Share.download
    rw [hfind, FileM.bind_assoc]
    refine (FileM.computes_isDir disk.limits hp).bind ?_
    cases hdir : F.isDir p with
    | true =>
        refine (FileM.computes_fail _).bind_error.mono ?_
        rintro r F' ⟨rfl, rfl⟩
        exact ⟨by simp only [hdir, if_true, Except.map], rfl⟩
    | false =>
        refine (FileM.computes_pure (base ++ p)).bind ?_
        refine ((FileM.computes_readFile disk.limits hp).mapError FileError.os).mono ?_
        rintro r F' ⟨rfl, rfl⟩
        exact ⟨by simp only [hdir, Bool.false_eq_true, if_false], rfl⟩
  · intro e hfind
    refine ⟨?_, rfl⟩
    rw [Share.download, hfind]
    rfl

end Guard

theorem tempName_apart (q : List String) (name : String) :
    ¬q ++ [tempName name] <+: q ++ [name] ∧ ¬q ++ [name] <+: q ++ [tempName name] := by
  rw [Location.prefix_child_iff, Location.prefix_child_iff]
  exact ⟨fun h => tempName_ne name h.symm, tempName_ne name⟩

section Uploading

variable {p : List String} {name : String} (hp : ".." ∉ p) (hname : name ≠ "..")

theorem mem_append_up (hp : ".." ∉ p) (hname : name ≠ "..") : ".." ∉ p ++ [name] := by
  simpa [hp] using hname.symm

include hp hname

theorem computes_writeUploadChunks (upload : Upload α) :
    Computes orig base F (writeUploadChunks disk upload (base ++ (p ++ [name])))
      (((FileM.written F p name upload.content).1.mapError .os).map fun _ => disk.size (.file upload.content),
        (FileM.written F p name upload.content).2) := by
  have hwrite : Computes orig base F _ _ :=
    (FileM.computes_writeFile disk.limits hp hname upload.content).mapError FileError.os
  unfold writeUploadChunks
  cases hresult : (FileM.written F p name upload.content).1 with
  | error e =>
      rw [hresult] at hwrite
      exact hwrite.bind_error
  | ok u =>
      rw [hresult] at hwrite
      exact hwrite.bind (FileM.computes_pure _)

theorem computes_writeDirectly (hfree : F.isDir (p ++ [name]) = false) (upload : Upload α) :
    Computes orig base F (writeDirectly disk (base ++ p) name upload)
      ((Share.of disk zip orig base).store F p name upload.content) := by
  have hchunks : Computes orig base F (writeUploadChunks disk upload (base ++ (p ++ [name]))) _ :=
    computes_writeUploadChunks hp hname upload
  unfold writeDirectly Share.store
  rw [List.append_assoc]
  unfold FileM.written at hchunks
  cases hdir : F.isDir p with
  | false =>
      simp only [hdir, Bool.false_eq_true, if_false] at hchunks ⊢
      exact hchunks.bind_error
  | true =>
      simp only [hdir, hfree, Bool.false_eq_true, if_true, if_false] at hchunks ⊢
      exact hchunks.bind (FileM.computes_pure _)

theorem computes_writeReplacing (hparent : F p = some .dir) (upload : Upload α) :
    Computes orig base F (writeReplacing disk (base ++ p) name upload)
      ((Share.of disk zip orig base).replace F p name upload.content) := by
  refine FileM.Triple.of_shows fun _ hshows => ?_
  have htemp := tempName_ne_up name
  have hchunks : Computes orig base F (writeUploadChunks disk upload (base ++ (p ++ [tempName name]))) _ :=
    computes_writeUploadChunks hp htemp upload
  have hdir : F.isDir p = true := (F.isDir_eq_true p).mpr hparent
  unfold writeReplacing Share.replace
  rw [List.append_assoc, List.append_assoc]
  unfold FileM.written at hchunks
  cases hold : F.isDir (p ++ [tempName name]) with
  | true =>
      simp only [hdir, hold, if_true] at hchunks ⊢
      exact hchunks.bind_error
  | false =>
      simp only [hdir, hold, Bool.false_eq_true, if_true, if_false] at hchunks ⊢
      refine hchunks.bind ?_
      have happart := tempName_apart p name
      have hnode : F.put (p ++ [tempName name]) (.file upload.content) (p ++ [tempName name]) =
          some (.file upload.content) := Function.update_self _ _ _
      have hplace : F.put (p ++ [tempName name]) (.file upload.content) (p ++ [name]) = F (p ++ [name]) :=
        Function.update_of_ne (by simpa using (tempName_ne name).symm) _ _
      have hstays : F.put (p ++ [tempName name]) (.file upload.content) p = some .dir :=
        (Function.update_of_ne (by simp) _ _).trans hparent
      have hup : ".." ∉ p ++ [tempName name] := mem_append_up hp htemp
      cases hdest : F.isDir (p ++ [name]) with
      | true =>
          simp only [if_true]
          have hisDir := hplace.trans ((F.isDir_eq_true _).mp hdest)
          have hrename : Computes orig base _ _ _ :=
            (FileM.computes_rename_of_dir disk.limits hup hp hname hnode hisDir).mapError FileError.os
          exact hrename.bind_error
      | false =>
          simp only [Bool.false_eq_true, if_false]
          have hnotDir := (F.isDir_eq_false (p ++ [name])).mp hdest
          have hnotTemp := (F.isDir_eq_false (p ++ [tempName name])).mp hold
          have hrename : Computes orig base _ _ _ :=
            (FileM.computes_rename disk.limits hup hp hname hnode hstays (by rwa [hplace]) (by simp) happart.1).mapError
              FileError.os
          rw [Folder.move_put_file hshows.wellFormed _ _ upload.content hnotTemp hnotDir happart.1 happart.2] at hrename
          exact hrename.bind (FileM.computes_pure _)

theorem computes_writeUpload_free (hfree : F (p ++ [name]) = none) (upload : Upload α)
    (conflictResolution : Option ConflictResolution) :
    Computes orig base F (writeUpload disk (base ++ p) name upload conflictResolution)
      ((Share.of disk zip orig base).store F p name upload.content) := by
  have hover : Computes orig base F (overwrites disk (base ++ p) name conflictResolution : FileM α FileError Bool)
      (.ok false, F) := by
    have hexists : Computes orig base F (FileM.pathExists disk.limits _ : FileM α FileError Bool) _ :=
      FileM.computes_pathExists disk.limits (mem_append_up hp hname)
    rw [hfree, ← List.append_assoc] at hexists
    cases conflictResolution with
    | none => exact FileM.computes_pure false
    | some cr =>
        cases cr with
        | overwrite => exact hexists
        | rename | skip => exact FileM.computes_pure false
  refine hover.bind ?_
  exact computes_writeDirectly zip hp hname ((F.isDir_eq_false _).mpr (by simp [hfree])) upload

omit hname

theorem freshName_eq {fs : FileSystem α} (hfs : Shows orig base F fs) (k : Nat)
    (htaken : ∀ j < k, Taken disk fs (base ++ p) (numbered name (1 + j)))
    (hfree : ¬Taken disk fs (base ++ p) (numbered name (1 + k))) :
    Share.freshName F p name = numbered name (1 + k) ∧ F (p ++ [numbered name (1 + k)]) = none := by
  have hiff : ∀ j, Taken disk fs (base ++ p) (numbered name (1 + j)) ↔ F (p ++ [numbered name (1 + j)]) ≠ none := by
    intro j
    unfold Taken
    rw [List.append_assoc, FileM.locate_append disk.limits hfs (mem_append_up hp (numbered_ne_up name _)),
      Option.isSome_map, Option.isSome_iff_ne_none]
  have hnone : F (p ++ [numbered name (1 + k)]) = none := not_not.mp fun h => hfree ((hiff k).mpr h)
  have hmem : sInf {k | F (p ++ [numbered name (1 + k)]) = none} ∈ {k | F (p ++ [numbered name (1 + k)]) = none} :=
    Nat.sInf_mem ⟨k, hnone⟩
  have hleast : sInf {k | F (p ++ [numbered name (1 + k)]) = none} = k := by
    apply le_antisymm
    · exact Nat.sInf_le hnone
    · by_contra hlt
      exact (hiff _).mp (htaken _ (not_le.mp hlt)) hmem
  exact ⟨by rw [Share.freshName, hleast], hnone⟩

theorem exists_freshName (disk : Disk α) (name : String) {fs : FileSystem α} (hfs : Shows orig base F fs) :
    ∃ k ≤ fs.tree.length, (∀ j < k, Taken disk fs (base ++ p) (numbered name (1 + j))) ∧
      ¬Taken disk fs (base ++ p) (numbered name (1 + k)) :=
  exists_firstFree disk fs (base ++ p) name
    (hfs.region.resolved_below (FileM.inner_append hfs hp).1 (FileM.inner_append hfs hp).2)

theorem freshName_free (name : String) {fs : FileSystem α} (hfs : Shows orig base F fs) :
    F (p ++ [Share.freshName F p name]) = none ∧ Share.freshName F p name ≠ ".." := by
  let disk : Disk α := ⟨⟨0, 0⟩, fun _ => 0, fun _ => "", 0⟩
  obtain ⟨k, -, htaken, hfree⟩ := exists_freshName hp disk name hfs
  obtain ⟨heq, hnone⟩ := freshName_eq hp hfs k htaken hfree
  rw [heq]
  exact ⟨hnone, numbered_ne_up name _⟩

theorem computes_freeName : Computes orig base F
    (FileM.objectCount >>= fun objects => freeName disk (base ++ p) name (objects + 1) 1 : FileM α FileError String)
    (.ok (Share.freshName F p name), F) := by
  refine FileM.computes_of_keeps ?_ ?_
  · exact FileM.Keeps.bind (fun _ => rfl) fun _ => freeName_keeps disk _ _ _ _
  · intro fs hfs
    obtain ⟨k, hk, htaken, hfree⟩ := exists_freshName hp disk name hfs
    have hret : (freeName disk (base ++ p) name (fs.tree.length + 1) 1).Returns fs (numbered name (1 + k)) fs :=
      (returns_freeName disk fs _ _ _ _ _ _).mpr ⟨rfl, k, by omega, htaken, hfree, rfl⟩
    have hcount : (FileM.objectCount : FileM α FileError Nat).Returns fs fs.tree.length fs := ⟨rfl, rfl⟩
    rw [(freshName_eq hp hfs k htaken hfree).1]
    exact ((FileM.returns_bind_of_returns _ _ _ _ _ hcount _ _).mpr hret).1

/-- Storing a file, whatever is to be done about a name that is taken. -/
theorem computes_storeUpload (hname : name ≠ "..") (upload : Upload α)
    (conflictResolution : Option ConflictResolution) :
    Computes orig base F (storeUpload disk (base ++ p) name upload conflictResolution)
      ((Share.of disk zip orig base).place F p name upload.content conflictResolution) := by
  refine FileM.Triple.of_shows fun fs hfs => ?_
  have hup := mem_append_up hp hname
  unfold storeUpload Share.place
  rw [List.append_assoc]
  refine (FileM.computes_pathExists disk.limits hup).bind ?_
  cases hnode : F (p ++ [name]) with
  | none => exact computes_writeUpload_free zip hp hname hnode upload conflictResolution
  | some node =>
      have hparent : F p = some .dir := hfs.wellFormed.closed p name (by rw [hnode]; rfl)
      simp only [Option.isSome_some, if_true]
      cases conflictResolution with
      | none =>
          unfold resolveConflict
          rw [List.append_assoc]
          exact FileM.computes_fail _
      | some cr =>
          cases cr with
          | skip =>
              have hstat : Computes orig base F _ _ := (FileM.computes_stat disk.limits hup).mapError FileError.os
              rw [hnode] at hstat
              unfold resolveConflict
              rw [List.append_assoc]
              exact hstat.bind (FileM.computes_pure _)
          | rename =>
              have hassoc : resolveConflict disk (base ++ p) name upload (some .rename) =
                  (FileM.objectCount >>= fun objects => freeName disk (base ++ p) name (objects + 1) 1) >>=
                    fun newName => writeUpload disk (base ++ p) newName upload (some .rename) :=
                (FileM.bind_assoc _ _ _).symm
              rw [hassoc]
              obtain ⟨hfree, hfresh⟩ := freshName_free hp name hfs
              refine (computes_freeName hp).bind ?_
              exact computes_writeUpload_free zip hp hfresh hfree upload (some .rename)
          | overwrite =>
              have hexists : Computes orig base F (FileM.pathExists disk.limits _ : FileM α FileError Bool) _ :=
                FileM.computes_pathExists disk.limits hup
              rw [hnode, ← List.append_assoc] at hexists
              unfold resolveConflict
              exact hexists.bind (computes_writeReplacing zip hp hname hparent upload)

end Uploading

section Changes

variable (horig : orig.Region base) (hbase : orig.resolve disk.limits baseDir = some base)

include horig hbase

theorem computes_uploadFile (dir : String) (upload : Upload α) (conflictResolution : Option ConflictResolution) :
    Computes orig base F (uploadFile disk baseDir dir upload conflictResolution)
      ((Share.of disk zip orig base).upload F dir upload conflictResolution) := by
  refine triple_guard zip horig hbase dir ?_ ?_
  · intro p hfind hp
    unfold Share.upload
    rw [hfind]
    dsimp only
    cases hvalid : validateUploadFilename upload.filename with
    | error e => exact (FileM.computes_fail e).bind_error
    | ok name =>
        obtain rfl := validateUploadFilename_eq _ _ hvalid
        have hproper := properName_of_validateUploadFilename _ _ hvalid
        refine (FileM.computes_pure upload.filename).bind ?_
        exact computes_storeUpload zip hp hproper.2.2.1 upload conflictResolution
  · intro e hfind
    unfold Share.upload
    rw [hfind]
    exact ⟨rfl, rfl⟩

omit horig hbase in
theorem computes_removeObject {p : List String} (hp : ".." ∉ p) : Computes orig base F (removeObject disk (base ++ p))
    (if (F p).isSome then (.ok (), F.remove p) else (.error (.os .notFound), F)) := by
  refine FileM.Triple.of_shows fun fs hfs => ?_
  refine (FileM.computes_isDir disk.limits hp).bind ?_
  cases hnode : F p with
  | none =>
      rw [(F.isDir_eq_false p).mpr (by simp [hnode])]
      exact (FileM.computes_remove_of_missing disk.limits hp hnode).mapError FileError.os
  | some node =>
      cases node with
      | dir =>
          rw [(F.isDir_eq_true p).mpr hnode]
          exact (FileM.computes_rmtree disk.limits hp hnode).mapError FileError.os
      | file content =>
          rw [(F.isDir_eq_false p).mpr (by simp [hnode])]
          exact (FileM.computes_remove disk.limits hp hnode).mapError FileError.os
      | link target => exact absurd hnode (hfs.wellFormed.noLink p target)

theorem computes_deletePaths (paths : List String) : Computes orig base F (deletePaths disk baseDir paths)
    ((Share.of disk zip orig base).delete F paths) := by
  induction paths generalizing F with
  | nil => exact FileM.computes_pure []
  | cons path paths ih =>
      unfold deletePaths at ih ⊢
      unfold FileM.forEach deletePath Share.delete
      rw [FileM.bind_assoc]
      refine triple_guard zip horig hbase path ?_ ?_
      · intro p hfind hp
        rw [hfind, FileM.bind_assoc]
        have hremove : Computes orig base F (removeObject disk (base ++ p)) _ := computes_removeObject hp
        cases hsome : (F p).isSome with
        | false =>
            rw [hsome] at hremove
            simp only [hsome, Bool.false_eq_true, if_false]
            exact hremove.bind_error
        | true =>
            rw [hsome] at hremove
            simp only [hsome, if_true]
            refine hremove.bind ?_
            refine (FileM.computes_pure path).bind ?_
            refine FileM.Triple.map (path :: ·) (FileM.Triple.mono ih ?_)
            rintro r F' ⟨rfl, rfl⟩
            exact ⟨rfl, rfl⟩
      · intro e hfind
        rw [hfind]
        exact ⟨rfl, rfl⟩

omit horig hbase in
theorem relativeTo_folderPath (p : List String) : relativeTo (base ++ p) base = .ok (folderPath p) := by
  unfold relativeTo folderPath
  simp only [List.prefix_append, if_true, List.drop_left, List.append_right_eq_self]

theorem computes_relativePath (p : List String) :
    Computes orig base F (resolvePath disk baseDir >>= fun baseResolved =>
      liftExcept (relativeTo (base ++ p) baseResolved)) (.ok (folderPath p), F) := by
  refine (computes_resolveBase horig hbase).bind ?_
  rw [relativeTo_folderPath]
  exact FileM.computes_pure (folderPath p)

theorem computes_conflict (p : List String) (name : String) :
    Computes orig base F (resolvePath disk baseDir >>= fun baseResolved =>
      liftExcept (relativeTo (base ++ p) baseResolved) >>= fun existing =>
        (FileM.fail (.fileConflict name existing) : FileM α FileError String))
      (.error (.fileConflict name (folderPath p)), F) := by
  refine (computes_resolveBase horig hbase).bind ?_
  rw [relativeTo_folderPath]
  exact (FileM.computes_pure (folderPath p)).bind (FileM.computes_fail _)

theorem computes_createFolder (parent name : String) : Computes orig base F (createFolder disk baseDir parent name)
    ((Share.of disk zip orig base).create F parent name) := by
  unfold createFolder Share.create
  cases hvalid : validateName name with
  | error e => exact (FileM.computes_fail e).bind_error
  | ok u =>
      refine (FileM.computes_pure u).bind ?_
      refine triple_guard zip horig hbase parent ?_ ?_
      · intro p hfind hp
        rw [hfind]
        dsimp only
        rw [List.append_assoc]
        have htarget : ".." ∉ p ++ (PurePath.parse name).parts := by
          rcases parse_of_validateName name hvalid with ⟨hparts, -⟩ | ⟨hparts, hup⟩
          · rwa [hparts, List.append_nil]
          · rw [hparts]
            exact mem_append_up hp hup
        refine (FileM.computes_pathExists disk.limits htarget).bind ?_
        cases htaken : (F (p ++ (PurePath.parse name).parts)).isSome with
        | true => exact computes_conflict horig hbase _ name
        | false =>
            have hnone : F (p ++ (PurePath.parse name).parts) = none := Option.not_isSome_iff_eq_none.mp
              (by simp [htaken])
            simp only [Bool.false_eq_true, if_false]
            rcases parse_of_validateName name hvalid with ⟨hparts, -⟩ | ⟨hparts, hup⟩
            · rw [hparts, List.append_nil] at hnone
              obtain rfl := Share.eq_nil_of_find hfind hnone
              have hmkdir : Computes orig base F _ _ :=
                (FileM.computes_mkdir_root disk.limits hnone).mapError FileError.os
              simp only [hparts, List.append_nil, true_or, if_true]
              have hpath : Computes orig base (F.put [] .dir) _ _ := computes_relativePath horig hbase []
              rw [List.append_nil] at hpath
              exact hmkdir.bind hpath
            · rw [hparts] at hnone
              have hmkdir : Computes orig base F _ _ :=
                (FileM.computes_mkdir disk.limits hp hup hnone).mapError FileError.os
              simp only [hparts, List.cons_ne_nil, false_or]
              cases hdir : F.isDir p with
              | true =>
                  rw [hdir] at hmkdir
                  exact hmkdir.bind (computes_relativePath horig hbase _)
              | false =>
                  rw [hdir] at hmkdir
                  exact hmkdir.bind_error
      · intro e hfind
        rw [hfind]
        exact ⟨rfl, rfl⟩

theorem computes_renamePath (path newName : String) (hkeeps : (Share.of disk zip orig base).address path ≠ .ok []) :
    Computes orig base F (renamePath disk baseDir path newName)
      ((Share.of disk zip orig base).rename F path newName) := by
  unfold renamePath Share.rename
  cases hvalid : validateName newName with
  | error e => exact (FileM.computes_fail e).bind_error
  | ok u =>
      refine (FileM.computes_pure u).bind ?_
      refine triple_guard zip horig hbase path ?_ ?_
      · intro p hfind hp
        have hne : p ≠ [] := by
          rintro rfl
          exact hkeeps (Share.address_of_find hfind)
        rw [hfind]
        dsimp only
        rw [List.dropLast_append_of_ne_nil hne, List.append_assoc]
        refine FileM.Triple.of_shows fun fs hfs => ?_
        obtain ⟨node, hnode⟩ : ∃ node, F p = some node := by
          cases hnode : F p with
          | none => exact absurd (Share.eq_nil_of_find hfind hnode) hne
          | some node => exact ⟨node, rfl⟩
        have hparent : F p.dropLast = some .dir := by
          apply hfs.wellFormed.closed p.dropLast (p.getLast hne)
          rw [List.dropLast_append_getLast hne, hnode]
          rfl
        have hpdrop : ".." ∉ p.dropLast := fun h => hp (List.dropLast_subset p h)
        rcases parse_of_validateName newName hvalid with ⟨hparts, -⟩ | ⟨hparts, hup⟩
        · simp only [hparts, List.append_nil, hparent, Option.isSome_some, if_true]
          refine (FileM.computes_pathExists disk.limits hpdrop).bind ?_
          rw [hparent]
          exact computes_conflict horig hbase _ newName
        · simp only [hparts]
          refine (FileM.computes_pathExists disk.limits (mem_append_up hpdrop hup)).bind ?_
          cases htaken : (F (p.dropLast ++ [newName])).isSome with
          | true => exact computes_conflict horig hbase _ newName
          | false =>
              have hnone : F (p.dropLast ++ [newName]) = none := Option.not_isSome_iff_eq_none.mp (by simp [htaken])
              have hbelow : ¬p <+: p.dropLast ++ [newName] := by
                intro hpre
                have hlen : p.length = (p.dropLast ++ [newName]).length := by
                  have := List.length_pos_iff.mpr hne
                  simp
                  omega
                rw [hpre.eq_of_length hlen] at hnode
                rw [hnone] at hnode
                cases hnode
              have hrename : Computes orig base F _ _ :=
                (FileM.computes_rename disk.limits hp hpdrop hup hnode hparent (by simp [hnone]) (fun _ => hnone)
                  hbelow).mapError FileError.os
              exact hrename.bind (computes_relativePath horig hbase _)
      · intro e hfind
        rw [hfind]
        exact ⟨rfl, rfl⟩

theorem computes_guardAll (paths : List String) :
    Computes orig base F (FileM.forEach (resolveSafePath disk baseDir) paths)
      ((paths.mapM ((Share.of disk zip orig base).find F)).map fun found => found.map (base ++ ·), F) := by
  induction paths with
  | nil => exact FileM.computes_pure []
  | cons path paths ih =>
      refine triple_guard zip horig hbase path ?_ ?_
      · intro p hfind hp
        rw [List.mapM_cons, hfind]
        refine FileM.Triple.map ((base ++ p) :: ·) (ih.mono ?_)
        rintro r F' ⟨rfl, rfl⟩
        refine ⟨?_, rfl⟩
        cases paths.mapM ((Share.of disk zip orig base).find F') <;> rfl
      · intro e hfind
        rw [List.mapM_cons, hfind]
        exact ⟨rfl, rfl⟩

omit horig hbase in
theorem archived_iff {fs : FileSystem α} (hfs : Shows orig base F fs) (p : List String) (m : String × Option α) :
    Archived fs (base ++ p) (arcnameOf base (base ++ p)) m ↔ InArchive F p m := by
  have harcname : arcnameOf base (base ++ p) = folderPath p := by
    simp only [arcnameOf, folderPath, List.append_right_eq_self, List.drop_left]
  have hempty : ∀ names, fs.names (base ++ (p ++ names)) = [] ↔
      ∀ child, ProperName child → F (p ++ names ++ [child]) = none := by
    intro names
    rw [List.eq_nil_iff_forall_not_mem]
    constructor
    · intro h child hchild
      have hnot := h child
      rw [fs.mem_names _ _ hchild, List.append_assoc, hfs.get?] at hnot
      simpa using hnot
    · intro h child hmem
      have hchild := fs.properName_of_mem_names _ _ hmem
      rw [fs.mem_names _ _ hchild, List.append_assoc, hfs.get?, h child hchild] at hmem
      cases hmem
  unfold Archived InArchive
  rw [harcname]
  refine exists_congr fun names => and_congr_right fun _ => and_congr_right fun _ => ?_
  obtain ⟨name, content⟩ := m
  cases content with
  | some content => simp only [List.append_assoc, hfs.get?]
  | none => simp only [List.append_assoc base p names, hfs.get?, hempty]

omit horig hbase in
theorem not_inArchive_of_none (hwf : F.WellFormed) (p : List String) (hnone : F p = none) (m : String × Option α) :
    ¬InArchive F p m := by
  rintro ⟨names, -, -, hnode⟩
  have hbelow : F (p ++ names) = none := by
    by_cases hnil : names = []
    · rw [hnil, List.append_nil, hnone]
    · exact hwf.below p names hnil (by simp [hnone])
  split at hnode
  · rw [hbelow] at hnode
    cases hnode
  · rw [hbelow] at hnode
    cases hnode.1

variable (base) in
omit horig hbase in
theorem sameEnd_addResolvedVia (fs : FileSystem α) (p : List String) :
    FileM.SameEnd (addResolvedVia zip.addPath base (base ++ p) fs)
      (zip.addPath (base ++ p) (arcnameOf base (base ++ p)) fs) := by
  have harcname : (liftExcept (relativeTo (base ++ p) base) : FileM α FileError String).Returns fs
      (arcnameOf base (base ++ p)) fs := by
    rw [returns_liftExcept, relativeTo, if_pos (List.prefix_append base p)]
    exact ⟨rfl, rfl⟩
  exact FileM.sameEnd_bind_of_ok _ (fun arcname => zip.addPath (base ++ p) arcname) fs _ fs harcname

omit horig hbase in
theorem computes_addResolvedVia_refused (p : List String) (hp : ".." ∉ p) (e : FileError)
    (hrefusal : zip.refusal F p = some e) :
    Computes orig base F (addResolvedVia zip.addPath base (base ++ p)) (.error e, F) := by
  intro fs hfs
  obtain ⟨hleft, hresult⟩ := sameEnd_addResolvedVia zip base fs p
  have hnone : F p = none := by
    by_contra hsome
    simp [ZipLibrary.refusal, Option.isSome_iff_ne_none, hsome] at hrefusal
  rw [ZipLibrary.refusal, hnone] at hrefusal
  change zip.missing = some e at hrefusal
  obtain ⟨hkeeps, hrefused⟩ := zip.refuses fs (base ++ p) (arcnameOf base (base ++ p))
    (linkFree_of_region hfs.region p hp) (by rw [hfs.get?, hnone])
  rw [hrefusal] at hrefused
  rw [hleft, hresult, hkeeps, hrefused]
  exact ⟨F, hfs, rfl, rfl⟩

omit horig hbase in
theorem triple_addResolvedVia (p : List String) (hp : ".." ∉ p) (hrefusal : zip.refusal F p = none) :
    Triple orig base F (addResolvedVia zip.addPath base (base ++ p)) fun r F' => F' = F ∧
      ∃ added, r = .ok added ∧ ∀ m, m ∈ added ↔ InArchive F p m := by
  intro fs hfs
  obtain ⟨hleft, hresult⟩ := sameEnd_addResolvedVia zip base fs p
  have hfree := linkFree_of_region hfs.region p hp
  cases hnode : F p with
  | some node =>
      obtain ⟨added, ⟨hret, hkeeps⟩, hmem⟩ := zip.adds fs (base ++ p) (arcnameOf base (base ++ p)) hfree
        (by rw [hfs.get?, hnode]; rfl)
      rw [hleft, hresult, hkeeps, hret]
      exact ⟨F, hfs, rfl, added, rfl, fun m => (hmem m).trans (archived_iff hfs p m)⟩
  | none =>
      rw [ZipLibrary.refusal, hnode] at hrefusal
      change zip.missing = none at hrefusal
      obtain ⟨hkeeps, hempty⟩ := zip.refuses fs (base ++ p) (arcnameOf base (base ++ p)) hfree
        (by rw [hfs.get?, hnode])
      rw [hrefusal] at hempty
      rw [hleft, hresult, hkeeps, hempty]
      refine ⟨F, hfs, rfl, [], rfl, ?_⟩
      intro m
      simp [not_inArchive_of_none hfs.wellFormed p hnode m]

omit horig hbase in
theorem triple_addAll (found : List (List String)) (hfound : ∀ p ∈ found, ".." ∉ p) :
    Triple orig base F (FileM.forEach (addResolvedVia zip.addPath base) (found.map (base ++ ·))) fun r F' => F' = F ∧
      match found.findSome? (zip.refusal F) with
      | some e => r = .error e
      | none => ∃ added, r = .ok added ∧ ∀ m, m ∈ added.flatten ↔ ∃ p ∈ found, InArchive F p m := by
  induction found with
  | nil =>
      refine (FileM.computes_pure []).mono ?_
      rintro r F' ⟨rfl, rfl⟩
      exact ⟨rfl, [], rfl, by simp⟩
  | cons p found ih =>
      have hp := hfound p List.mem_cons_self
      have hrest := ih fun q hq => hfound q (List.mem_cons_of_mem p hq)
      rw [List.map_cons, FileM.forEach, List.findSome?_cons]
      cases hrefusal : zip.refusal F p with
      | some e =>
          refine (computes_addResolvedVia_refused zip p hp e hrefusal).bind_error.mono ?_
          rintro r F' ⟨rfl, rfl⟩
          exact ⟨rfl, rfl⟩
      | none =>
          refine (triple_addResolvedVia zip p hp hrefusal).bind ?_ ?_
          · rintro added F' ⟨rfl, added', hadded, hmem⟩
            cases hadded
            refine FileM.Triple.map (added :: ·) (hrest.mono ?_)
            rintro r F'' ⟨rfl, hr⟩
            refine ⟨rfl, ?_⟩
            cases hfirst : found.findSome? (zip.refusal F'') with
            | some e =>
                rw [hfirst] at hr
                change r = .error e at hr
                rw [hr]
                rfl
            | none =>
                rw [hfirst] at hr
                obtain ⟨members, rfl, hmembers⟩ := hr
                refine ⟨added :: members, rfl, ?_⟩
                intro m
                rw [List.flatten_cons, List.mem_append, hmem, hmembers, List.exists_mem_cons_iff]
          · rintro e F' ⟨-, added, herror, -⟩
            cases herror

omit horig hbase in
theorem triple_zipStreamVia (found : List (List String)) (hfound : ∀ p ∈ found, ".." ∉ p) :
    Triple orig base F (zipStreamVia zip.addPath base (found.map (base ++ ·))) fun r F' => F' = F ∧
      match found.findSome? (zip.refusal F) with
      | some e => r = .error e
      | none => ∃ added, r = .ok added ∧ ∀ m, m ∈ added ↔ ∃ p ∈ found, InArchive F p m := by
  refine FileM.Triple.map List.flatten ((triple_addAll zip found hfound).mono ?_)
  rintro r F' ⟨rfl, hr⟩
  refine ⟨rfl, ?_⟩
  cases hfirst : found.findSome? (zip.refusal F') with
  | some e =>
      rw [hfirst] at hr
      change r = .error e at hr
      rw [hr]
      rfl
  | none =>
      rw [hfirst] at hr
      obtain ⟨added, rfl, hmem⟩ := hr
      exact ⟨added.flatten, rfl, hmem⟩

omit horig hbase in
theorem noUp_of_mapM (share : Share α) (paths : List String) (found : List (List String))
    (h : paths.mapM (share.find F) = .ok found) : ∀ p ∈ found, ".." ∉ p := by
  induction paths generalizing found with
  | nil =>
      cases h
      simp
  | cons path paths ih =>
      rw [List.mapM_cons] at h
      cases hfind : share.find F path with
      | error e =>
          rw [hfind] at h
          cases h
      | ok p =>
          rw [hfind] at h
          cases hrest : paths.mapM (share.find F) with
          | error e =>
              rw [hrest] at h
              cases h
          | ok rest =>
              rw [hrest] at h
              cases h
              exact List.forall_mem_cons.mpr ⟨Share.noUp_of_find hfind, ih rest hrest⟩

theorem triple_downloadAsZip (paths : List String) :
    Triple orig base F (downloadAsZipVia disk zip.addPath baseDir paths) fun r F' =>
      r.map (fun members => Reply.archive {m | m ∈ members}) = (Share.of disk zip orig base).archive F paths ∧
        F' = F := by
  refine (computes_resolveBase horig hbase).bind ?_
  have hguard : Computes orig base F _ _ := computes_guardAll zip horig hbase paths
  unfold Share.archive
  cases hfind : paths.mapM ((Share.of disk zip orig base).find F) with
  | error e =>
      rw [hfind] at hguard
      refine hguard.bind_error.mono ?_
      rintro r F' ⟨rfl, rfl⟩
      exact ⟨rfl, rfl⟩
  | ok found =>
      rw [hfind] at hguard
      refine hguard.bind ((triple_zipStreamVia zip found (noUp_of_mapM _ paths found hfind)).mono ?_)
      rintro r F' ⟨rfl, hr⟩
      cases hfirst : found.findSome? (zip.refusal F') with
      | some e =>
          have hrefused : found.findSome? ((Share.of disk zip orig base).zip.refusal F') = some e := hfirst
          rw [hfirst] at hr
          change r = .error e at hr
          dsimp only
          rw [hr, hrefused]
          exact ⟨rfl, rfl⟩
      | none =>
          have hadded : found.findSome? ((Share.of disk zip orig base).zip.refusal F') = none := hfirst
          rw [hfirst] at hr
          obtain ⟨members, rfl, hmem⟩ := hr
          dsimp only
          rw [hadded]
          exact ⟨congrArg (fun s => Except.ok (Reply.archive s)) (Set.ext hmem), rfl⟩

end Changes

end NetworkFileServer.Server.FileService
