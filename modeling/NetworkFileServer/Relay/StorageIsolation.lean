import NetworkFileServer.Relay.UserStorage
import NetworkFileServer.Server.FolderLocality

/-!
# The storages of the users are isolated

A request of a user stays in the directory of the user, and the directories of two users are apart. So what a
user has and what the user is answered depend on the requests of this user alone.
-/

namespace NetworkFileServer.Relay

open Server Server.FileService
open FileM (StaysIn Inner)

variable {α : Type} (disk : Disk α) (dataDir : Location) {base : Location}

/-- A request of a logged-in user, with the quota of the user at the time. -/
structure StorageCall (α : Type) where
  userId : Int
  quota : Int
  request : StorageRequest α

/-- What a user is answered; an error is an exception that leaves the route. -/
structure StorageReply (α : Type) where
  userId : Int
  response : Except FileError (StorageResponse α)
deriving DecidableEq

def serveCall (call : StorageCall α) (fs : FileSystem α) : FileSystem α × StorageReply α :=
  let outcome := serveStorage disk dataDir call.userId call.quota call.request fs
  (outcome.fs, ⟨call.userId, outcome.result⟩)

/-- The requests one after the other. -/
def serveCalls : List (StorageCall α) → FileSystem α → FileSystem α × List (StorageReply α)
  | [], fs => (fs, [])
  | call :: calls, fs =>
      let (fs', reply) := serveCall disk dataDir call fs
      let (fs'', replies) := serveCalls calls fs'
      (fs'', reply :: replies)

/-- The users directory is a directory, and there is no link in it nor on the way to it. -/
structure PlainUsers (fs : FileSystem α) (users : Location) : Prop where
  isDir : fs.isDirAt users = true
  resolved : fs.Resolved users
  noLink : ∀ q, users <+: q → (fs.get? q).any Node.isLink = false

theorem makeDirs_of_parent (fs : FileSystem α) (hfs : fs.Region base) :
    FileM.SameEnd (makeDirs disk base.reverse fs)
      ((FileM.mkdir disk.limits base).catchError (existOk disk base) fs) := by
  obtain ⟨d, c, rfl⟩ : ∃ d c, base = d ++ [c] :=
    ⟨_, _, (List.dropLast_append_getLast hfs.ne_root).symm⟩
  have hinner : Inner (d ++ [c]) (d ++ [c]) := ⟨List.prefix_refl _, hfs.resolved.noUp⟩
  have hentry := hinner.entry disk.limits hfs
  rw [hfs.parent, if_pos rfl] at hentry
  rw [List.reverse_append, List.reverse_singleton, List.singleton_append, makeDirs, List.reverse_reverse]
  cases hmkdir : (FileM.mkdir disk.limits (d ++ [c]) fs).result with
  | ok u =>
      rw [FileM.catchError_of_ok _ _ fs u hmkdir, FileM.catchError_of_ok _ _ fs u hmkdir]
      exact ⟨rfl, rfl⟩
  | error e =>
      have he : e ≠ .notFound := by
        rintro rfl
        unfold FileM.mkdir at hmkdir
        rw [hentry] at hmkdir
        simp only at hmkdir
        split at hmkdir <;> cases hmkdir
      have hhandled := FileM.catchError_of_error (FileM.mkdir disk.limits (d ++ [c])) (existOk disk (d ++ [c]))
        fs e hmkdir
      refine (FileM.catchError_of_error _ _ fs e hmkdir).trans ?_
      rw [if_neg he]
      exact ⟨hhandled.1.symm, hhandled.2.symm⟩

theorem staysIn_makeDirs : StaysIn base (fun _ => True) (makeDirs disk base.reverse : FileM α OsError Unit) := by
  by_cases hup : ".." ∈ base
  · -- There is no such region.
    have hnone : ∀ fs : FileSystem α, ¬fs.Region base := fun fs hfs => hfs.resolved.noUp hup
    exact ⟨fun fs hfs => absurd hfs (hnone fs), fun fs hfs => absurd hfs (hnone fs), fun _ _ _ _ => trivial,
      fun fs _ hfs => absurd hfs.region (hnone fs), fun fs _ hfs => absurd hfs.region (hnone fs)⟩
  · have hinner : Inner base base := ⟨List.prefix_refl base, hup⟩
    refine StaysIn.congr ?_ (makeDirs_of_parent disk)
    refine FileM.staysIn_catchError (FileM.staysIn_mkdir disk.limits hinner) ?_
    intro e
    refine FileM.staysIn_bind (FileM.staysIn_isDir disk.limits hinner) ?_
    intro directory _
    exact FileM.staysIn_ite (fun _ => FileM.staysIn_pure trivial) fun _ => FileM.staysIn_fail e

theorem usedBytes_agree {fs fs' : FileSystem α} (hfs : fs.AgreeOn fs' base) :
    usedBytes disk fs base = usedBytes disk fs' base := by
  have hinner : Inner base base := ⟨List.prefix_refl base, hfs.region.resolved.noUp⟩
  have hkeys : ∀ fs : FileSystem α, ((fs.tree.map Prod.fst).filter fun q =>
      base <+: q ∧ q ≠ base ∧ ∀ c ∈ q.drop base.length, ProperName c) =
      ((fs.inside base).map Prod.fst).filter fun q =>
        base <+: q ∧ q ≠ base ∧ ∀ c ∈ q.drop base.length, ProperName c := by
    intro fs
    unfold FileSystem.inside
    rw [List.filter_map, List.filter_map, List.filter_filter]
    congr 1
    apply List.filter_congr
    intro e _
    by_cases hin : base <+: e.1
    · simp [hin]
    · simp [hin]
  have hwalked : walked disk fs base = walked disk fs' base := by
    unfold walked
    rw [hinner.locate_agree disk.limits hfs]
    split
    · rename_i l heq
      rw [hinner.locate disk.limits hfs.region'] at heq
      obtain ⟨_, -, hl⟩ := Option.map_eq_some_iff.mp heq
      cases hl
      rw [hkeys fs, hkeys fs', hfs.inside]
    · rfl
  unfold usedBytes
  rw [hwalked]
  congr 1
  apply List.map_congr_left
  intro p hp
  have hp' : Inner base p := by
    unfold walked at hp
    split at hp
    · obtain ⟨q, hq, rfl⟩ := List.mem_map.mp hp
      have hproper := (List.mem_filter.mp (List.mem_dedup.mp hq)).2
      rename_i l heq
      rw [hinner.locate disk.limits hfs.region'] at heq
      obtain ⟨_, -, hl⟩ := Option.map_eq_some_iff.mp heq
      cases hl
      refine ⟨List.prefix_append _ _, ?_⟩
      rw [List.mem_append]
      rintro (hup | hup)
      · exact hinner.2 hup
      · exact ((decide_eq_true_eq.mp hproper).2.2 _ hup).2.2.1 rfl
    · cases hp
  unfold sizeAt
  rw [hp'.locate_agree disk.limits hfs]

section Routes

variable {dataDir} {userId : Int} (hbase : base = userPath dataDir userId)

include hbase

theorem staysIn_userDir :
    StaysIn base (fun l => base = l) (userDir disk dataDir userId : FileM α FileError Location) := by
  subst hbase
  refine FileM.staysIn_ite (fun _ => FileM.staysIn_fail _) fun _ => ?_
  refine FileM.staysIn_bind (FileM.staysIn_mapError _ (staysIn_makeDirs disk)) ?_
  exact fun _ _ => FileM.staysIn_pure rfl

theorem staysIn_usageBytes : StaysIn base (fun _ => True) (usageBytes disk dataDir userId) := by
  refine FileM.staysIn_bind (staysIn_userDir disk hbase) ?_
  rintro _ rfl
  exact .of_keeps (fun _ => rfl) (fun _ _ _ _ => trivial)
    fun fs fs' hfs => congrArg Except.ok (usedBytes_agree disk hfs)

omit hbase in
theorem staysIn_catching (statusOf : FileError → Option Nat)
    {body : FileM α FileError (StorageResponse α)} (h : StaysIn base (fun _ => True) body) :
    StaysIn base (fun _ => True) (catching statusOf body) := by
  refine FileM.staysIn_catchError h ?_
  intro e
  cases statusOf e with
  | some status => exact FileM.staysIn_pure trivial
  | none => exact FileM.staysIn_fail e

theorem staysIn_checkStored (quota : Int) (path : String) (results : List UploadResult) :
    StaysIn base (fun _ => True) (checkStored disk dataDir base userId quota path results) := by
  refine FileM.staysIn_bind (staysIn_usageBytes disk hbase) ?_
  intro usage _
  refine FileM.staysIn_ite (fun _ => ?_) fun _ => FileM.staysIn_pure trivial
  refine FileM.staysIn_bind (staysIn_deletePaths disk _) ?_
  exact fun _ _ => FileM.staysIn_pure trivial

theorem staysIn_upload (quota : Int) (files : List (Upload α)) (path : String)
    (conflictResolution : Option ConflictResolution) (declared : Nat) :
    StaysIn base (fun _ => True) (upload disk dataDir userId quota files path conflictResolution declared) := by
  refine FileM.staysIn_bind (staysIn_userDir disk hbase) ?_
  rintro _ rfl
  refine FileM.staysIn_bind (staysIn_usageBytes disk hbase) ?_
  intro current _
  refine FileM.staysIn_ite (fun _ => FileM.staysIn_pure trivial) fun _ => ?_
  have hfile : ∀ f ∈ files, StaysIn base (fun _ => True)
      (uploadFile disk base path f conflictResolution) :=
    fun f _ => staysIn_uploadFile disk path f conflictResolution
  have hfiles : StaysIn base _ (uploadAll disk base path conflictResolution files) :=
    FileM.staysIn_forEach files hfile
  refine FileM.staysIn_bind (FileM.staysIn_attempt hfiles) ?_
  intro stored _
  cases stored with
  | ok results => exact staysIn_checkStored disk hbase quota path results
  | error e =>
      cases hstatus : uploadStatus e with
      | some status =>
          simp only [answerStored, hstatus]
          exact FileM.staysIn_pure trivial
      | none =>
          simp only [answerStored, hstatus]
          exact FileM.staysIn_fail e

theorem staysIn_download (path : String) :
    StaysIn base (fun _ => True) (download disk dataDir userId path) := by
  refine FileM.staysIn_bind (staysIn_userDir disk hbase) ?_
  rintro _ rfl
  refine FileM.staysIn_bind (FileM.staysIn_attempt (staysIn_downloadFile disk path)) ?_
  intro found hfound
  cases found with
  | ok fp =>
      refine FileM.staysIn_bind (staysIn_fileResponse disk (hfound fp rfl)) ?_
      exact fun _ _ => FileM.staysIn_pure trivial
  | error e =>
      cases hstatus : traversalMissingOrValue e with
      | some status =>
          simp only [hstatus]
          exact FileM.staysIn_pure trivial
      | none =>
          simp only [hstatus]
          exact FileM.staysIn_fail e

theorem staysIn_serveStorage (quota : Int) (request : StorageRequest α) :
    StaysIn base (fun _ => True) (serveStorage disk dataDir userId quota request) := by
  cases request with
  | getQuota =>
      refine FileM.staysIn_bind (staysIn_usageBytes disk hbase) ?_
      exact fun _ _ => FileM.staysIn_pure trivial
  | listFiles path =>
      refine FileM.staysIn_bind (staysIn_userDir disk hbase) ?_
      rintro _ rfl
      refine staysIn_catching _ (FileM.staysIn_bind (staysIn_listDirectory disk path) ?_)
      exact fun _ _ => FileM.staysIn_pure trivial
  | upload files path conflictResolution declared =>
      exact staysIn_upload disk hbase quota files path conflictResolution declared
  | download path => exact staysIn_download disk hbase path
  | delete paths =>
      refine FileM.staysIn_bind (staysIn_userDir disk hbase) ?_
      rintro _ rfl
      refine staysIn_catching _ (FileM.staysIn_bind (staysIn_deletePaths disk paths) ?_)
      exact fun _ _ => FileM.staysIn_pure trivial

end Routes

theorem staysIn_call (call : StorageCall α) : StaysIn (userPath dataDir call.userId) (fun _ => True)
    (serveStorage disk dataDir call.userId call.quota call.request) :=
  staysIn_serveStorage disk rfl call.quota call.request

theorem userPath_apart (userId other : Int) (hne : other ≠ userId) (q : Location)
    (h : userPath dataDir userId <+: q) : ¬userPath dataDir other <+: q := by
  intro hother
  have hlen : (userPath dataDir userId).length = (userPath dataDir other).length := by simp [userPath]
  have heq := (List.prefix_of_prefix_length_le h hother hlen.le).eq_of_length hlen
  have hname := List.append_cancel_left heq
  simp only [List.cons.injEq, and_true, true_and] at hname
  exact hne (Text.toString_injective hname).symm

theorem toString_ne_up (userId : Int) : toString userId ≠ ".." := by
  refine Text.toString_intro userId (fun s => s ≠ "..") ?_ ?_
  · intro k h
    exact absurd (Text.digit_of_mem_repr k '.' (by simp [h])) (by decide)
  · intro k h
    have hmem : '-' ∈ ("-" ++ k.repr).toList := by simp
    rw [h] at hmem
    exact absurd hmem (by decide)

variable {dataDir} {fs fs' : FileSystem α}

theorem region_of_plainUsers (hfs : PlainUsers fs (dataDir ++ ["users"])) (userId : Int) :
    fs.Region (userPath dataDir userId) := by
  have hsplit : userPath dataDir userId = dataDir ++ ["users"] ++ [toString userId] := by simp [userPath]
  rw [hsplit]
  refine ⟨by simp, ?_, ?_, ?_⟩
  · rw [List.dropLast_concat]
    exact hfs.isDir
  · exact hfs.resolved.snoc (toString_ne_up userId) (hfs.noLink _ (List.prefix_append _ _))
  · exact fun q hq => hfs.noLink q ((List.prefix_append _ _).trans hq)

theorem plainUsers_step (hfs : PlainUsers fs (dataDir ++ ["users"])) (call : StorageCall α) :
    PlainUsers (serveCall disk dataDir call fs).1 (dataDir ++ ["users"]) := by
  have hregion := region_of_plainUsers hfs call.userId
  have hstays := staysIn_call disk dataDir call
  have hlinks := hstays.links fs hregion
  refine ⟨?_, hlinks.resolved hfs.resolved, ?_⟩
  · have hnot : ¬userPath dataDir call.userId <+: dataDir ++ ["users"] := by
      intro hpre
      have hlen := hpre.length_le
      simp [userPath] at hlen
    rw [FileSystem.isDirAt_eq_true]
    refine (FileSystem.get?_of_outside (hstays.outside fs hregion) hnot).trans ?_
    exact (FileSystem.isDirAt_eq_true fs _).mp hfs.isDir
  · exact fun q hq => (hlinks.any_isLink q).symm.trans (hfs.noLink q hq)

theorem serveCall_other (userId : Int) (call : StorageCall α) (hother : call.userId ≠ userId)
    (hfs : PlainUsers fs (dataDir ++ ["users"])) (hagree : fs.AgreeOn fs' (userPath dataDir userId)) :
    (serveCall disk dataDir call fs).1.AgreeOn fs' (userPath dataDir userId) := by
  have hregion := region_of_plainUsers hfs call.userId
  have hstays := staysIn_call disk dataDir call
  refine ⟨region_of_plainUsers (plainUsers_step disk hfs call) userId, hagree.region', ?_, ?_⟩
  · exact (hstays.links fs hregion).symm.trans hagree.links
  · refine Eq.trans ?_ hagree.inside
    exact FileSystem.inside_of_outside (hstays.outside fs hregion)
      (userPath_apart dataDir userId call.userId hother)

theorem serveCalls_own (userId : Int) (calls : List (StorageCall α))
    (hfs : PlainUsers fs (dataDir ++ ["users"])) (hagree : fs.AgreeOn fs' (userPath dataDir userId)) :
    (serveCalls disk dataDir calls fs).1.AgreeOn
        (serveCalls disk dataDir (calls.filter fun call => call.userId = userId) fs').1
        (userPath dataDir userId) ∧
      (serveCalls disk dataDir calls fs).2.filter (fun reply => reply.userId = userId) =
        (serveCalls disk dataDir (calls.filter fun call => call.userId = userId) fs').2 := by
  induction calls generalizing fs fs' with
  | nil => exact ⟨hagree, rfl⟩
  | cons call calls ih =>
      have hplain := plainUsers_step disk hfs call
      by_cases hown : call.userId = userId
      · have hstays : StaysIn (userPath dataDir userId) (fun _ => True)
            (serveStorage disk dataDir call.userId call.quota call.request) :=
          staysIn_serveStorage disk (by rw [hown]) call.quota call.request
        obtain ⟨hfs', hreplies⟩ := ih hplain (hstays.agreeOn hagree)
        rw [List.filter_cons_of_pos (by simpa using hown)]
        refine ⟨hfs', ?_⟩
        simp only [serveCalls]
        rw [List.filter_cons_of_pos (by simp [serveCall, hown])]
        refine congrArg₂ List.cons ?_ hreplies
        exact congrArg (StorageReply.mk call.userId) (hstays.result fs fs' hagree)
      · obtain ⟨hfs', hreplies⟩ := ih hplain (serveCall_other disk userId call hown hfs hagree)
        rw [List.filter_cons_of_neg (by simpa using hown)]
        refine ⟨hfs', ?_⟩
        simp only [serveCalls]
        rw [List.filter_cons_of_neg (by simp [serveCall, hown]), hreplies]

/-- Two runs with the same requests of a user leave the user the same files and the same usage, and answer
the user the same. -/
theorem storage_isolated (fs : FileSystem α) (hfs : PlainUsers fs (dataDir ++ ["users"])) (userId : Int)
    (calls calls' : List (StorageCall α))
    (hsame : (calls.filter fun call => call.userId = userId) =
      calls'.filter fun call => call.userId = userId) :
    (serveCalls disk dataDir calls fs).1.inside (userPath dataDir userId) =
        (serveCalls disk dataDir calls' fs).1.inside (userPath dataDir userId) ∧
      usedBytes disk (serveCalls disk dataDir calls fs).1 (userPath dataDir userId) =
        usedBytes disk (serveCalls disk dataDir calls' fs).1 (userPath dataDir userId) ∧
      (serveCalls disk dataDir calls fs).2.filter (fun reply => reply.userId = userId) =
        (serveCalls disk dataDir calls' fs).2.filter fun reply => reply.userId = userId := by
  have hrefl := FileSystem.AgreeOn.refl (region_of_plainUsers hfs userId)
  obtain ⟨hagree, hreplies⟩ := serveCalls_own disk userId calls hfs hrefl
  obtain ⟨hagree', hreplies'⟩ := serveCalls_own disk userId calls' hfs hrefl
  rw [hsame] at hagree hreplies
  have hboth := hagree.trans hagree'.symm
  exact ⟨hboth.inside, usedBytes_agree disk hboth, hreplies.trans hreplies'.symm⟩

/-- The size of a text in bytes; a directory counts nothing. -/
def textDisk : Disk String := ⟨⟨40, 40⟩, fun node =>
  match node with
  | .file content => content.utf8ByteSize
  | .dir | .link _ => 0, fun _ => "", 16⟩

/-- A relay whose users directory is empty. -/
def emptyUsers : FileSystem String where
  tree := [(["data"], .dir), (["data", "users"], .dir)]
  closed := by decide

theorem plainUsers_emptyUsers : PlainUsers emptyUsers (["data"] ++ ["users"]) := by
  have hnoLink : ∀ q, (emptyUsers.get? q).any Node.isLink = false :=
    FileSystem.noLink_of_tree (by decide)
  exact ⟨by decide, ⟨fun q _ => hnoLink q, by decide⟩, fun q _ => hnoLink q⟩

/-- What the second user does to the files of the first one cannot be seen by the first one. -/
theorem storage_isolated_pair :
    let own : List (StorageCall String) :=
      [⟨1, 100, .upload [⟨"a.txt", "abc"⟩] "" none 0⟩, ⟨1, 100, .listFiles ""⟩]
    let other : StorageCall String := ⟨2, 100, .delete ["../1/a.txt", "."]⟩
    (serveCalls textDisk ["data"] (own.take 1 ++ other :: own.drop 1) emptyUsers).1.inside
        (userPath ["data"] 1) = (serveCalls textDisk ["data"] own emptyUsers).1.inside (userPath ["data"] 1) :=
  (storage_isolated textDisk emptyUsers plainUsers_emptyUsers 1 _ _ rfl).1

end NetworkFileServer.Relay
