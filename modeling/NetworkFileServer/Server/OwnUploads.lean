import NetworkFileServer.Server.ReceiveReads

/-!
# What a RECEIVE user sees of their own uploads

A RECEIVE user is shown what the upload index gives them. The index is written by `upload_files` alone,
after the whole request, under a key made of the path of the request; a listing and a download build
their keys from the paths of their own requests. This module follows one written file from the request
that writes it to a later read of the same user.
-/

namespace NetworkFileServer.Server

open FileService

variable {β : Type}

def Request.uploader : Request β → Option String
  | .uploadFiles uploader _ _ _ => uploader
  | .shareUpload uploader _ => uploader
  | .deleteFiles _ | .renameFile _ _ | .createNewFolder _ _ => none

/-- The key under which `upload_files` records a name; `share_upload` records nothing. -/
def Request.indexKey (request : Request β) (name : String) : Option String :=
  match request with
  | .uploadFiles _ path _ _ => (UploadIndex.norm (relKey path name)).toOption
  | .shareUpload _ _ | .deleteFiles _ | .renameFile _ _ | .createNewFolder _ _ => none

section

variable (disk : Disk (Authored β)) (sharedFolder : Location)

/-- A request of the user wrote the file, and nothing has touched it up to the end of the run. -/
structure Wrote (user : String) (s : ServerState β) (request : Request β) (later : List (Request β))
    (final : ServerState β) (l : Location) (content : Authored β) : Prop where
  uploader : request.uploader = some user
  written : (serve disk sharedFolder s request).fs.get? l = some (.file content)
  isNew : s.fs.get? l ≠ some (.file content)
  run : TransitionSystem.run (requestStep disk sharedFolder) (serve disk sharedFolder s request) later =
    some final
  intact : TransitionSystem.Throughout (requestStep disk sharedFolder)
    (fun t => t.fs.get? l = some (.file content)) (serve disk sharedFolder s request) later

/-- The name is in the user's listing of the path. -/
def Lists (user path name : String) (s : ServerState β) : Prop :=
  ∃ listing, getFiles disk sharedFolder (some user) path s = .ok listing ∧
    ∃ e ∈ listing.entries, e.name = name

/-- The user downloads this content at the path. -/
def Downloads (user path : String) (content : Authored β) (s : ServerState β) : Prop :=
  downloadSingleFile disk sharedFolder (some user) path s = .ok content

/-- A file that the index will know: it is written through no link, and its key is not blank. -/
def Indexable (uploader : Option String) (path : String) (conflictResolution : Option ConflictResolution)
    (fs : FileSystem (Authored β)) (file : String × β) : Prop :=
  FileInStep disk sharedFolder uploader path conflictResolution [] false fs file ∧
    ∀ targetDir ∈ safeLocation disk fs sharedFolder path,
      ∀ name ∈ reported disk conflictResolution fs targetDir file.1, Text.strip (relKey path name) ≠ ""

/-- Every file of the request is stored and known to the index. -/
def AllIndexable (uploader : Option String) (path : String)
    (conflictResolution : Option ConflictResolution) :
    FileSystem (Authored β) → List (String × β) → Prop
  | _, [] => True
  | fs, file :: files =>
      Indexable disk sharedFolder uploader path conflictResolution fs file ∧
        Accepted disk sharedFolder path conflictResolution fs file.1 ∧
        AllIndexable uploader path conflictResolution
          (afterFile disk sharedFolder uploader path conflictResolution fs file) files

/-- The request puts what it writes into the index. -/
def Indexes (s : ServerState β) : Request β → Prop
  | .uploadFiles uploader path files conflictResolution =>
      uploader ≠ some "" ∧ AllIndexable disk sharedFolder uploader path conflictResolution s.fs files
  | .shareUpload _ _ | .deleteFiles _ | .renameFile _ _ | .createNewFolder _ _ => False

/-- The request does not report a file of somebody else under the key. -/
def KeepsKey (user key : String) (s : ServerState β) : Request β → Prop
  | .uploadFiles uploader path files conflictResolution =>
      uploader = some user ∨
        ∀ results, (storeFiles disk sharedFolder uploader path files conflictResolution s.fs).result =
          .ok results → ∀ r ∈ results, UploadIndex.norm (relKey path r.name) ≠ .ok key
  | .shareUpload _ _ | .deleteFiles _ | .renameFile _ _ | .createNewFolder _ _ => True

/-- No name of the directory is a link that leads nowhere, at which `list_directory` fails. -/
def NoDanglingNames (fs : FileSystem (Authored β)) (dir : Location) : Prop :=
  ∀ name ∈ fs.names dir, (fs.locate disk.limits (dir ++ [name])).isSome = true

instance (fs : FileSystem (Authored β)) (dir : Location) : Decidable (NoDanglingNames disk fs dir) :=
  inferInstanceAs (Decidable (∀ name ∈ fs.names dir, _))

theorem recordUpload_eq_ok (table table' : OwnerTable) (relPath uploader : String)
    (h : UploadIndex.recordUpload table relPath uploader = .ok table') :
    ∃ key, UploadIndex.norm relPath = .ok key ∧ table' = OrderedDict.set table key uploader := by
  unfold UploadIndex.recordUpload at h
  split at h
  · cases h
  cases hnorm : UploadIndex.norm relPath with
  | error e =>
      rw [hnorm] at h
      cases h
  | ok key =>
      rw [hnorm] at h
      exact ⟨key, rfl, (Except.ok.inj h).symm⟩

theorem lookup_recordResults (user path key : String) (table : OwnerTable) (results : List UploadResult)
    (h : table.lookup (fun k => decide (k = key)) = some user) :
    (recordResults user path table results).2.lookup (fun k => decide (k = key)) = some user := by
  induction results generalizing table with
  | nil => exact h
  | cons r results ih =>
      rw [recordResults]
      split
      · exact ih table h
      split
      · exact h
      rename_i table' hrecord
      obtain ⟨recorded, -, rfl⟩ := recordUpload_eq_ok table table' _ user hrecord
      apply ih
      rw [OrderedDict.lookup_set]
      split
      · rfl
      · exact h

theorem lookup_recordResults_of_ne (user path key : String) (table : OwnerTable)
    (results : List UploadResult) (h : ∀ r ∈ results, UploadIndex.norm (relKey path r.name) ≠ .ok key) :
    (recordResults user path table results).2.lookup (fun k => decide (k = key)) =
      table.lookup fun k => decide (k = key) := by
  induction results generalizing table with
  | nil => rfl
  | cons r results ih =>
      obtain ⟨hr, hrest⟩ := List.forall_mem_cons.mp h
      rw [recordResults]
      split
      · exact ih table hrest
      split
      · rfl
      rename_i table' hrecord
      obtain ⟨recorded, hnorm, rfl⟩ := recordUpload_eq_ok table table' _ user hrecord
      have hne : key ≠ recorded := by
        rintro rfl
        exact hr hnorm
      rw [ih _ hrest, OrderedDict.lookup_set, if_neg hne]

theorem recordResults_records (user path : String) (table : OwnerTable) (results : List UploadResult)
    (huser : user ≠ "")
    (hresults : ∀ r ∈ results, r.name ≠ "" ∧ Text.strip (relKey path r.name) ≠ "") (r : UploadResult)
    (hr : r ∈ results) (key : String) (hkey : UploadIndex.norm (relKey path r.name) = .ok key) :
    (recordResults user path table results).2.lookup (fun k => decide (k = key)) = some user := by
  induction results generalizing table with
  | nil => cases hr
  | cons first results ih =>
      obtain ⟨⟨hname, hblank⟩, hrest⟩ := List.forall_mem_cons.mp hresults
      have hnorm : UploadIndex.norm (relKey path first.name) =
          .ok (Text.lstrip '/' (Text.strip (relKey path first.name))) := by
        rw [UploadIndex.norm, if_neg hblank]
      have hrecord : UploadIndex.recordUpload table (relKey path first.name) user =
          .ok (OrderedDict.set table (Text.lstrip '/' (Text.strip (relKey path first.name))) user) := by
        rw [UploadIndex.recordUpload, if_neg huser, hnorm]
        rfl
      simp only [recordResults, if_neg hname, hrecord]
      rcases List.mem_cons.mp hr with rfl | hr
      · apply lookup_recordResults
        obtain rfl := Except.ok.inj (hnorm.symm.trans hkey)
        rw [OrderedDict.lookup_set, if_pos rfl]
      · exact ih _ hrest hr

section Storing

variable (uploader : Option String) (path : String) (conflictResolution : Option ConflictResolution)

theorem stored_indexable (fs : FileSystem (Authored β)) (file : String × β)
    (hindexable : Indexable disk sharedFolder uploader path conflictResolution fs file)
    (haccepted : Accepted disk sharedFolder path conflictResolution fs file.1) :
    ∃ r, (stored disk sharedFolder uploader path conflictResolution fs file).result = .ok r ∧
      (r.name ≠ "" ∧ Text.strip (relKey path r.name) ≠ "") ∧
      fs.Adds (stored disk sharedFolder uploader path conflictResolution fs file).fs fun q _ =>
        ∃ dir, q = dir ++ [r.name] ∧ ProperName r.name := by
  obtain ⟨hstep, hkeys⟩ := hindexable
  rcases stored_cases disk sharedFolder uploader path conflictResolution [] false fs file hstep with
    ⟨hnot, -⟩ | ⟨targetDir, hsafe, -, hproper, -, hstored⟩
  · exact absurd haccepted hnot
  obtain ⟨r, hr⟩ := (stored_accepted disk sharedFolder uploader path conflictResolution [] false fs
    file hstep).mpr haccepted
  have hkey := hkeys targetDir ((safeLocation_eq_some disk _ _ _ _).mpr hsafe) r.name
  refine ⟨r, hr, ?_⟩
  rcases hstored.returns r hr with ⟨htaken, hskip, hrname, -⟩ | ⟨hland, -⟩
  · -- What is skipped is reported, and nothing lands.
    have hreported : reported disk conflictResolution fs targetDir file.1 = some r.name := by
      rw [reported, if_pos ⟨htaken, hskip⟩, hrname]
    refine ⟨⟨hrname ▸ hproper.1, hkey hreported⟩, ?_⟩
    apply hstored.adds.mono
    rintro q node ⟨name, hname, -, -⟩
    rw [hskip, landing, if_pos htaken] at hname
    cases hname
  · have hrname := properName_of_landing disk fs conflictResolution targetDir file.1 r.name hproper
      hland
    have hreported : reported disk conflictResolution fs targetDir file.1 = some r.name := by
      rw [reported, if_neg]
      · exact hland
      · rintro ⟨htaken, hskip⟩
        rw [hskip, landing, if_pos htaken] at hland
        cases hland
    refine ⟨⟨hrname.1, hkey hreported⟩, ?_⟩
    apply hstored.adds.mono
    rintro q node ⟨name, hname, rfl, -⟩
    rw [hland] at hname
    obtain rfl := Option.some.inj hname
    exact ⟨targetDir, rfl, hrname⟩

theorem storeFiles_indexable (fs : FileSystem (Authored β)) (files : List (String × β))
    (hall : AllIndexable disk sharedFolder uploader path conflictResolution fs files) :
    ∃ results fs', (storeFiles disk sharedFolder uploader path files conflictResolution).Returns fs
        results fs' ∧
      (∀ r ∈ results, r.name ≠ "" ∧ Text.strip (relKey path r.name) ≠ "") ∧
      fs.Adds fs' fun q _ => ∃ r ∈ results, ∃ dir, q = dir ++ [r.name] ∧ ProperName r.name := by
  induction files generalizing fs with
  | nil => exact ⟨[], fs, ⟨rfl, rfl⟩, by simp, FileSystem.Adds.refl fs _⟩
  | cons file files ih =>
      obtain ⟨hindexable, haccepted, hrest⟩ := hall
      obtain ⟨r, hr, hnames, hadds⟩ := stored_indexable disk sharedFolder uploader path
        conflictResolution fs file hindexable haccepted
      obtain ⟨rs, fs', hrs, hrnames, hradds⟩ := ih _ hrest
      refine ⟨r :: rs, fs', ?_, List.forall_mem_cons.mpr ⟨hnames, hrnames⟩, ?_⟩
      · exact (FileM.returns_forEach_cons _ fs file files _ _).mpr
          ⟨r, rs, _, ⟨hr, rfl⟩, hrs, rfl⟩
      · apply (hadds.mono _).trans (hradds.mono _)
        · rintro q - ⟨dir, hdir, hproper⟩
          exact ⟨r, List.mem_cons_self, dir, hdir, hproper⟩
        · rintro q - ⟨r', hr', dir, hdir, hproper⟩
          exact ⟨r', List.mem_cons_of_mem _ hr', dir, hdir, hproper⟩

end Storing

/-- After a request that indexes what it writes, the index gives every new file to the uploader. -/
theorem serve_indexes (s : ServerState β) (request : Request β) (user : String) (dir : Location)
    (name key : String) (node : Node (Authored β)) (huploader : request.uploader = some user)
    (hindexes : Indexes disk sharedFolder s request)
    (hwritten : (serve disk sharedFolder s request).fs.get? (dir ++ [name]) = some node)
    (hnew : s.fs.get? (dir ++ [name]) ≠ some node) (hkey : request.indexKey name = some key) :
    (serve disk sharedFolder s request).owners.lookup (fun k => decide (k = key)) = some user ∧
      ProperName name := by
  cases request with
  | shareUpload _ _ | deleteFiles _ | renameFile _ _ | createNewFolder _ _ => exact hindexes.elim
  | uploadFiles uploader path files conflictResolution =>
      obtain rfl : uploader = some user := huploader
      obtain ⟨huser, hall⟩ := hindexes
      obtain ⟨results, fs', ⟨hresult, hfs⟩, hnames, hadds⟩ := storeFiles_indexable disk sharedFolder _
        path conflictResolution s.fs files hall
      have hserve : serve disk sharedFolder s (.uploadFiles (some user) path files conflictResolution) =
          ⟨fs', (recordResults user path s.owners results).2⟩ := by
        simp only [serve, uploadFiles, hresult, hfs]
      rw [hserve] at hwritten ⊢
      obtain ⟨r, hr, dir', hlocation, hproper⟩ := (hadds _ _ hwritten).resolve_left hnew
      obtain rfl : name = r.name := by
        have hlast := congrArg List.getLast? hlocation
        simpa using hlast
      have hnorm : UploadIndex.norm (relKey path r.name) = .ok key := by
        cases hn : UploadIndex.norm (relKey path r.name) with
        | error e => simp [Request.indexKey, hn, Except.toOption] at hkey
        | ok key' => simpa [Request.indexKey, hn, Except.toOption] using hkey
      exact ⟨recordResults_records user path s.owners results (fun h => huser (by rw [h])) hnames r hr
        key hnorm, hproper⟩

theorem serve_keepsKey (s : ServerState β) (request : Request β) (user key : String)
    (h : s.owners.lookup (fun k => decide (k = key)) = some user)
    (hkeeps : KeepsKey disk sharedFolder user key s request) :
    (serve disk sharedFolder s request).owners.lookup (fun k => decide (k = key)) = some user := by
  cases request with
  | deleteFiles _ | renameFile _ _ | createNewFolder _ _ => exact h
  | shareUpload uploader files =>
      simp only [serve, shareUpload]
      split
      · exact h
      · exact h
  | uploadFiles uploader path files conflictResolution =>
      simp only [serve, uploadFiles]
      split
      · exact h
      · exact h
      · rename_i results other hresult
        rcases hkeeps with hsame | hother
        · obtain rfl := Option.some.inj hsame
          exact lookup_recordResults other path key s.owners results h
        · exact (lookup_recordResults_of_ne other path key s.owners results
            (hother results hresult)).trans h

section Reading

variable (s : ServerState β) (user : String) (dir : Location) (name key : String) (content : Authored β)
  (howner : s.owners.lookup (fun k => decide (k = key)) = some user)
  (hfile : s.fs.get? (dir ++ [name]) = some (.file content))

include howner hfile

theorem lists_of_owned (path : String) (hproper : ProperName name)
    (hsafe : SafePath disk s.fs sharedFolder path dir) (hnames : NoDanglingNames disk s.fs dir)
    (hkey : relKey path name = key) : Lists disk sharedFolder user path name s := by
  have hdir : s.fs.isDirAt dir = true := by
    have hparent := s.fs.isDirAt_dropLast (dir ++ [name]) (by simp [hfile])
    rwa [List.dropLast_concat] at hparent
  have hlocate : s.fs.locate disk.limits dir = some (dir, .dir) := by
    rw [s.fs.locate_of_resolved _ _ hsafe.resolved, (s.fs.isDirAt_eq_true dir).mp hdir]
    rfl
  have hkeeps : ∀ n, (listEntry disk dir n s.fs).fs = s.fs := by
    intro n
    rw [listEntry, FileM.bind_fs_of_keeps _ _ _ fun _ => FileM.keeps_pure _]
    exact FileM.stat_keeps disk.limits _ s.fs
  have hentry : ∀ n ∈ s.fs.names dir, ∃ e, (listEntry disk dir n).Returns s.fs e s.fs := by
    intro n hn
    obtain ⟨⟨l, node⟩, hl⟩ := Option.isSome_iff_exists.mp (hnames n hn)
    refine ⟨fileEntry disk (dir ++ [n]) n node, ?_⟩
    rw [listEntry, FileM.returns_bind]
    refine ⟨node, s.fs, ?_, (FileM.returns_pure _ _ _ _).mpr ⟨rfl, rfl⟩⟩
    rw [FileM.returns_mapError, FileM.returns_stat]
    exact ⟨⟨l, hl⟩, rfl⟩
  obtain ⟨entries, hentries⟩ := FileM.returns_forEach_of_returns _ s.fs (s.fs.names dir) hentry
  -- The entry of the file itself.
  have hmem : name ∈ s.fs.names dir := (s.fs.mem_names dir name hproper).mpr (by simp [hfile])
  obtain ⟨e, he, hret⟩ := FileM.returns_forEach_mem _ s.fs (s.fs.names dir) entries s.fs
    (fun n _ => hkeeps n) hentries name hmem
  have hresolved : s.fs.Resolved (dir ++ [name]) := by
    apply hsafe.resolved.snoc hproper.2.2.1
    rw [hfile]
    rfl
  have heq : e = fileEntry disk (dir ++ [name]) name (.file content) := by
    rw [listEntry, FileM.returns_bind] at hret
    obtain ⟨node, fs₁, hstat, hpure⟩ := hret
    rw [FileM.returns_mapError, FileM.returns_stat, s.fs.locate_of_resolved _ _ hresolved, hfile]
      at hstat
    obtain ⟨⟨l, hl⟩, rfl⟩ := hstat
    obtain ⟨rfl, -⟩ := (FileM.returns_pure _ _ _ _).mp hpure
    cases hl
    rfl
  have hlist : (listDirectory disk sharedFolder path s.fs).result = .ok ⟨path, entries⟩ := by
    have hreturns : (listDirectory disk sharedFolder path).Returns s.fs ⟨path, entries⟩ s.fs := by
      rw [listDirectory, FileM.returns_bind_of_returns _ _ _ _ _ hsafe, FileM.returns_bind]
      refine ⟨s.fs.names dir, s.fs, ?_, ?_⟩
      · rw [FileM.returns_mapError, FileM.returns_listdir]
        exact ⟨⟨dir, hlocate, rfl⟩, rfl⟩
      · rw [FileM.returns_bind_of_returns _ _ _ _ _ hentries]
        exact (FileM.returns_pure _ _ _ _).mpr ⟨rfl, rfl⟩
    exact hreturns.1
  have howned : relKey path name ∈ UploadIndex.ownedPaths s.owners user := by
    have hrow := OrderedDict.mem_of_lookup s.owners key user howner
    exact List.mem_map.mpr ⟨(key, user), List.mem_filter.mpr ⟨hrow, by simp⟩, hkey.symm⟩
  refine ⟨_, by rw [getFiles, hlist]; rfl, e, ?_, by simp [heq, fileEntry]⟩
  apply List.mem_filter.mpr
  refine ⟨he, ?_⟩
  rw [heq]
  exact decide_eq_true ⟨by simp [fileEntry, Node.isDir], howned⟩

theorem downloads_of_owned (path : String)
    (hsafe : SafePath disk s.fs sharedFolder path (dir ++ [name]))
    (hkey : UploadIndex.norm path = .ok key) : Downloads disk sharedFolder user path content s := by
  have howned : requireOwned (some user) s.owners path = .ok () := by
    simp [requireOwned, UploadIndex.isOwnedBy, hkey, Except.map, howner]
  have hlocate : s.fs.locate disk.limits (dir ++ [name]) = some (dir ++ [name], .file content) := by
    rw [s.fs.locate_of_resolved _ _ hsafe.resolved, hfile]
    rfl
  have hreturns : (downloadFile disk sharedFolder path >>= fileResponse disk).Returns s.fs content
      s.fs := by
    rw [FileM.returns_bind]
    refine ⟨dir ++ [name], s.fs, ?_, ?_⟩
    · rw [downloadFile, FileM.returns_bind_of_returns _ _ _ _ _ hsafe, FileM.returns_bind]
      refine ⟨false, s.fs, ?_, (FileM.returns_pure _ _ _ _).mpr ⟨rfl, rfl⟩⟩
      rw [FileM.returns_isDir, hlocate]
      exact ⟨rfl, rfl⟩
    · rw [fileResponse, FileM.returns_mapError, FileM.returns_readFile]
      exact ⟨⟨_, hlocate⟩, rfl⟩
  rw [Downloads, downloadSingleFile, servedContent, howned]
  exact hreturns.1

end Reading

end

/-- Alice's upload into `in`. -/
def aliceUpload : Request String := .uploadFiles (some "alice") "in" [("a.txt", "one")] none

/-- Bob puts another file beside it. -/
def bobUpload : Request String := .uploadFiles (some "bob") "in" [("b.txt", "two")] none

end NetworkFileServer.Server
