import NetworkFileServer.Server.ReceiveInvariant

/-!
# What the RECEIVE role is given

While the upload index is in step with the folder, every content that a scoped user obtains was
written by an upload of that user.
-/

namespace NetworkFileServer.Server

open FileService

variable {β : Type}

section Reads

variable (disk : Disk (Authored β)) (sharedFolder : Location)

/-- The entry of the listing of `path` is a file with content of the user. -/
def ListsFileOf (user path : String) (entry : FileEntry) (s : ServerState β) : Prop :=
  ∃ target l content, SafePath disk s.fs sharedFolder path target ∧
    s.fs.locate disk.limits (target ++ [entry.name]) = some (l, .file content) ∧
    content.writtenBy = some user

/-- All that a scoped user obtains at the admitted paths, and all that is listed, is content written
by an upload request of the user. -/
structure ReadsOwn (admits : String → Prop) (user : String) (s : ServerState β) : Prop where
  download : ∀ path, admits path → ∀ content,
    downloadSingleFile disk sharedFolder (some user) path s = .ok content →
      content.writtenBy = some user
  preview : ∀ path, admits path → ∀ content,
    previewFile disk sharedFolder (some user) path s = .ok content → content.writtenBy = some user
  zip : ∀ paths, (∀ path ∈ paths, admits path) → ∀ members,
    downloadZip disk sharedFolder (some user) paths s = .ok members →
      ∀ m ∈ members, m.2.writtenBy = some user
  list : ∀ path listing, getFiles disk sharedFolder (some user) path s = .ok listing →
    ∀ entry ∈ listing.entries, ListsFileOf disk sharedFolder user path entry s

theorem safePath_eq (fs : FileSystem (Authored β)) (path : String) (r : Location)
    (hbase : fs.Resolved sharedFolder) (hres : fs.Resolved (keyLocation sharedFolder path))
    (hsafe : SafePath disk fs sharedFolder path r) : r = keyLocation sharedFolder path := by
  obtain ⟨-, base, hresolve, hcases⟩ := (returns_resolveSafePath disk _ _ _ _ _).mp hsafe
  rw [fs.resolve_of_resolved _ _ hbase] at hresolve
  cases hresolve
  rcases hcases with ⟨hempty, hr⟩ | ⟨-, -, -, hr⟩
  · rw [hr, keyLocation, hempty]
    simp [PurePath.parse]
  · have hown := fs.resolve_of_resolved disk.limits _ hres
    rw [keyLocation] at hown ⊢
    exact Option.some.inj (hr.symm.trans hown)

theorem belongs_of_owned (fs : FileSystem (Authored β)) (owners : OwnerTable) (user path : String)
    (r : Location) (hindex : IndexTrue sharedFolder owners fs) (hstrip : Text.strip path = path)
    (howned : requireOwned (some user) owners path = .ok ())
    (hsafe : SafePath disk fs sharedFolder path r) : Belongs fs user r := by
  have hcheck : UploadIndex.isOwnedBy owners path user = .ok true := by
    unfold requireOwned at howned
    dsimp only at howned
    split at howned
    · cases howned
    · assumption
    · cases howned
  have hrel : path ≠ "" ∧ Text.startsWith path "/" = false := by
    obtain ⟨-, base, -, hcases⟩ := (returns_resolveSafePath disk _ _ _ _ _).mp hsafe
    rcases hcases with ⟨hempty, -⟩ | ⟨hrel, -⟩
    · -- The index refuses the empty path.
      rw [hempty] at hcheck
      exact absurd hcheck (by simp [UploadIndex.isOwnedBy, UploadIndex.norm, Text.strip, Except.map])
    · exact ⟨hrel.1, hrel.2.1⟩
  have hlookup : owners.lookup (fun k => decide (k = path)) = some user := by
    rw [UploadIndex.isOwnedBy, norm_of_stripped path hrel.1 hrel.2 hstrip] at hcheck
    simpa [Except.map] using hcheck
  have hbelongs := hindex.2 _ (OrderedDict.mem_of_lookup owners path user hlookup)
  rw [safePath_eq disk sharedFolder fs path r hindex.1 hbelongs.resolved hsafe]
  exact hbelongs

theorem Belongs.resolved_below {fs : FileSystem (Authored β)} {user : String} {l : Location}
    (h : Belongs fs user l) (x : List String) (hx : ".." ∉ x) : fs.Resolved (l ++ x) := by
  constructor
  · intro q hq
    rcases List.prefix_or_prefix_of_prefix hq (List.prefix_append l x) with hql | hlq
    · exact h.resolved.noLink q hql
    · obtain ⟨y, rfl⟩ := hlq
      cases hnode : fs.get? (l ++ y) with
      | none => rfl
      | some node =>
          have hbelongs := h.below y node hnode
          cases node with
          | link target => cases hbelongs
          | file _ | dir => rfl
  · simp [h.resolved.noUp, hx]

theorem Belongs.author {fs : FileSystem (Authored β)} {user : String} {l : Location}
    (h : Belongs fs user l) (x : List String) (hx : ".." ∉ x) (q : Location) (content : Authored β)
    (hl : fs.locate disk.limits (l ++ x) = some (q, .file content)) :
    content.writtenBy = some user := by
  rw [fs.locate_of_resolved _ _ (h.resolved_below x hx)] at hl
  obtain ⟨node, hnode, heq⟩ := Option.map_eq_some_iff.mp hl
  cases heq
  have hbelongs := h.below x _ hnode
  simpa [belongsTo] using hbelongs

section Routes

variable (s : ServerState β) (user : String) (hindex : IndexTrue sharedFolder s.owners s.fs)

include hindex

theorem servedContent_author (path : String) (hstrip : Text.strip path = path)
    (content : Authored β)
    (h : servedContent disk sharedFolder (some user) path s = .ok content) :
    content.writtenBy = some user := by
  unfold servedContent at h
  split at h
  · cases h
  rename_i howned
  obtain ⟨served, fs₁, hdownload, hread⟩ := (FileM.returns_bind _ _ _ content _).mp ⟨h, rfl⟩
  rw [downloadFile] at hdownload
  obtain ⟨r, fs₂, hguard, hrest⟩ := (FileM.returns_bind _ _ _ _ _).mp hdownload
  obtain ⟨hsafe, rfl⟩ := safePath_of_returns disk hguard
  obtain ⟨directory, fs₂, hdir, hrest⟩ := (FileM.returns_bind _ _ _ _ _).mp hrest
  obtain ⟨-, rfl⟩ := (FileM.returns_isDir _ _ _ _ _).mp hdir
  have hbelongs := belongs_of_owned disk sharedFolder s.fs s.owners user path r hindex hstrip howned
    hsafe
  cases directory with
  | true => exact absurd hrest (FileM.returns_fail _ _ _ _)
  | false =>
      obtain ⟨rfl, rfl⟩ := (FileM.returns_pure _ _ _ _).mp hrest
      rw [fileResponse, FileM.returns_mapError, FileM.returns_readFile] at hread
      obtain ⟨⟨l, hl⟩, -⟩ := hread
      exact hbelongs.author disk [] (by simp) l content (by rwa [List.append_nil])

theorem downloadZip_author (paths : List String)
    (hstrip : ∀ path ∈ paths, Text.strip path = path) (members : List (String × Authored β))
    (h : downloadZip disk sharedFolder (some user) paths s = .ok members)
    (m : String × Authored β) (hm : m ∈ members) : m.2.writtenBy = some user := by
  have howned : requireAllOwned (some user) s.owners paths = .ok () →
      ∀ path ∈ paths, requireOwned (some user) s.owners path = .ok () := by
    intro hall
    clear h hstrip
    induction paths with
    | nil => simp
    | cons path paths ih =>
        rw [requireAllOwned] at hall
        split at hall
        · cases hall
        · rename_i hfirst
          exact List.forall_mem_cons.mpr ⟨hfirst, ih hall⟩
  unfold downloadZip at h
  split at h
  · cases h
  rename_i hall
  rw [downloadAsZip, downloadAsZipVia] at h
  obtain ⟨base, fs₁, hbase, hrest⟩ := (FileM.returns_bind _ _ _ members _).mp ⟨h, rfl⟩
  obtain ⟨-, rfl⟩ := (returns_resolvePath disk _ _ _ _).mp hbase
  obtain ⟨resolved, fs₂, hguard, hrest⟩ := (FileM.returns_bind _ _ _ _ _).mp hrest
  obtain ⟨rfl, -, hlocs⟩ := returns_guardAll disk s.fs sharedFolder fs₂ paths resolved hguard
  rw [zipStreamVia] at hrest
  obtain ⟨mss, fs₂, hmss, hpure⟩ := (FileM.returns_bind _ _ _ _ _).mp hrest
  obtain ⟨rfl, -⟩ := (FileM.returns_pure _ _ _ _).mp hpure
  obtain ⟨ms, hms, hm⟩ := List.mem_flatten.mp hm
  have hkeeps : ∀ r ∈ resolved, (addResolvedVia (addPath disk disk.walkDepth) base r s.fs).fs = s.fs := by
    intro r _
    apply FileM.leaves_bind_of_keeps _ _ s.fs (fun fs' => fs' = s.fs) (keeps_liftExcept _) rfl
    intro arcname _
    obtain ⟨_, hret⟩ := addPath_returns disk s.fs disk.walkDepth r arcname
    exact hret.2
  obtain ⟨r, hr, hadd⟩ := FileM.mem_of_returns_forEach _ s.fs resolved mss fs₂ hkeeps hmss ms hms
  rw [addResolvedVia] at hadd
  obtain ⟨arcname, fs₃, harc, hwalk⟩ := (FileM.returns_bind _ _ _ _ _).mp hadd
  obtain ⟨-, rfl⟩ := (returns_liftExcept _ _ _ _).mp harc
  obtain ⟨names, hnames, l, hl⟩ := mem_addPath disk s.fs _ _ _ _ _ hwalk m hm
  obtain ⟨path, hpath, hsafe⟩ := hlocs r hr
  have hbelongs := belongs_of_owned disk sharedFolder s.fs s.owners user path r hindex
    (hstrip path hpath) (howned hall path hpath) hsafe
  exact hbelongs.author disk names (fun hup => (hnames ".." hup).2.2.1 rfl) l m.2 hl

theorem getFiles_author (path : String) (listing : DirectoryListing)
    (h : getFiles disk sharedFolder (some user) path s = .ok listing) (entry : FileEntry)
    (hentry : entry ∈ listing.entries) : ListsFileOf disk sharedFolder user path entry s := by
  unfold getFiles at h
  cases hlist : (listDirectory disk sharedFolder path s.fs).result with
  | error e =>
      rw [hlist] at h
      cases h
  | ok full =>
      rw [hlist] at h
      obtain rfl := Except.ok.inj h
      obtain ⟨hmem, hkept⟩ := List.mem_filter.mp hentry
      obtain ⟨htype, hkey⟩ := decide_eq_true_eq.mp hkept
      -- The entry comes from a name of the directory that the path leads to.
      rw [listDirectory] at hlist
      obtain ⟨target, fs₁, hguard, hrest⟩ := (FileM.returns_bind _ _ _ full _).mp ⟨hlist, rfl⟩
      obtain ⟨hsafe, rfl⟩ := safePath_of_returns disk hguard
      obtain ⟨names, fs₁, hnames, hrest⟩ := (FileM.returns_bind _ _ _ _ _).mp hrest
      obtain ⟨⟨l, hl, rfl⟩, rfl⟩ :=
        (FileM.returns_listdir _ _ _ _ _).mp ((FileM.returns_mapError _ _ _ _ _).mp hnames)
      obtain ⟨entries, fs₁, hentries, hpure⟩ := (FileM.returns_bind _ _ _ _ _).mp hrest
      obtain ⟨rfl, -⟩ := (FileM.returns_pure _ _ _ _).mp hpure
      have hkeeps : ∀ name ∈ s.fs.names l, (listEntry disk target name s.fs).fs = s.fs := by
        intro name _
        rw [listEntry, FileM.bind_fs_of_keeps _ _ _ fun _ => FileM.keeps_pure _]
        exact FileM.stat_keeps disk.limits _ s.fs
      obtain ⟨name, hname, hret⟩ := FileM.mem_of_returns_forEach _ s.fs (s.fs.names l) entries fs₁
        hkeeps hentries entry hmem
      rw [listEntry] at hret
      obtain ⟨node, fs₂, hstat, hpure⟩ := (FileM.returns_bind _ _ _ _ _).mp hret
      obtain ⟨rfl, rfl⟩ := (FileM.returns_pure _ _ _ _).mp hpure
      obtain ⟨⟨q, hq⟩, -⟩ :=
        (FileM.returns_stat _ _ _ _ _).mp ((FileM.returns_mapError _ _ _ _ _).mp hstat)
      -- Its key is one that the index gives the user.
      have hproper := s.fs.properName_of_mem_names l name hname
      have howner : (relKey path name, user) ∈ s.owners := by
        obtain ⟨e, he, heq⟩ := List.mem_map.mp hkey
        obtain ⟨he, huser⟩ := List.mem_filter.mp he
        have hself : e.2 = user := by simpa using huser
        have hkeyed : e.1 = relKey path name := heq
        rwa [← hkeyed, ← hself]
      have hbelongs := hindex.2 _ howner
      have hslash : Text.startsWith path "/" = false := hsafe.not_absolute
      have hlocation : keyLocation sharedFolder (relKey path name) =
          keyLocation sharedFolder path ++ [name] := by
        rw [keyLocation, parts_relKey path name hslash hproper, ← List.append_assoc, keyLocation]
      rw [hlocation] at hbelongs
      have htarget := safePath_eq disk sharedFolder s.fs path target hindex.1
        (hbelongs.resolved.of_prefix (List.prefix_append _ _)) hsafe
      rw [← htarget] at hbelongs
      cases node with
      | dir => simp [fileEntry, Node.isDir] at htype
      | file content =>
          exact ⟨target, q, content, hsafe, hq,
            hbelongs.author disk [] (by simp) q content (by rwa [List.append_nil])⟩
      | link link =>
          have hres := hbelongs.resolved.noLink _ (List.prefix_refl _)
          rw [s.fs.locate_of_resolved _ _ hbelongs.resolved] at hq
          obtain ⟨node, hnode, heq⟩ := Option.map_eq_some_iff.mp hq
          cases heq
          rw [hnode] at hres
          cases hres

theorem readsOwn_of_indexTrue :
    ReadsOwn disk sharedFolder (fun path => Text.strip path = path) user s where
  download := servedContent_author disk sharedFolder s user hindex
  preview := servedContent_author disk sharedFolder s user hindex
  zip := downloadZip_author disk sharedFolder s user hindex
  list := getFiles_author disk sharedFolder s user hindex

end Routes

end Reads

/-- A disk whose shared folder `/srv/share` holds the file `notes.txt` and an empty folder `in`. -/
def sharedDisk : Disk (Authored String) :=
  ⟨⟨40, 40⟩, fun node => match node with | .file content => content.bytes.length | _ => 0, fun _ => "", 20⟩

def freshShare : ServerState String where
  fs :=
    { tree :=
        [(["srv"], .dir), (["srv", "share"], .dir), (["srv", "share", "in"], .dir),
          (["srv", "share", "notes.txt"], .file ⟨"minutes of the board", none⟩)]
      closed := by decide }
  owners := []

theorem freshShare_resolved : freshShare.fs.Resolved ["srv", "share"] :=
  freshShare.fs.resolve_resolved sharedDisk.limits ["srv", "share"] _ (by decide +kernel)

end NetworkFileServer.Server
