import NetworkFileServer.Server.FilesRouter
import NetworkFileServer.Server.PathGuard

/-!
# Keys of the upload index

The upload index is keyed by path strings, the folder by locations. A key names a location by its
components; several keys can name the same one, since `pathlib` drops empty and `.` components and the
index does not.
-/

namespace NetworkFileServer.Server

open FileService

/-- Where a key of the upload index points in the folder. -/
def keyLocation (sharedFolder : Location) (key : String) : Location :=
  sharedFolder ++ (PurePath.parse key).parts

theorem parts_append (path name : String) (h : ProperName name) :
    (PurePath.parse (path ++ "/" ++ name)).parts = (PurePath.parse path).parts ++ [name] := by
  have hlist : (path ++ "/" ++ name).toList = path.toList ++ '/' :: name.toList := by simp
  simp only [PurePath.parse, hlist, List.splitOn_append_cons_self, List.map_append,
    List.filter_append, List.splitOn_eq_singleton h.2.2.2]
  simp [h.1, h.2.1]

theorem parts_of_properName (name : String) (h : ProperName name) :
    (PurePath.parse name).parts = [name] := by
  simp [PurePath.parse, List.splitOn_eq_singleton h.2.2.2, h.1, h.2.1]

theorem lstrip_of_not_startsWith (s : String) (h : Text.startsWith s "/" = false) :
    Text.lstrip '/' s = s := by
  unfold Text.lstrip
  have hdrop : s.toList.dropWhile (fun c => decide (c = '/')) = s.toList := by
    cases hs : s.toList with
    | nil => rfl
    | cons c cs =>
        have hc : c ≠ '/' := by
          rintro rfl
          simp [Text.startsWith, hs] at h
        simp [hc]
  rw [hdrop, String.ofList_toList]

theorem startsWith_append (path rest : String) (hpath : path ≠ "")
    (h : Text.startsWith path "/" = false) : Text.startsWith (path ++ rest) "/" = false := by
  cases hp : path.toList with
  | nil => exact absurd (String.toList_inj.mp (by simpa using hp)) hpath
  | cons c cs =>
      simp [Text.startsWith, hp] at h ⊢
      exact h

theorem startsWith_of_properName (name : String) (h : ProperName name) :
    Text.startsWith name "/" = false := by
  rw [Bool.eq_false_iff]
  intro hstart
  obtain ⟨rest, hrest⟩ := List.isPrefixOf_iff_prefix.mp hstart
  exact h.2.2.2 (by simp [← hrest])

theorem parts_relKey (path name : String) (hslash : Text.startsWith path "/" = false)
    (hname : ProperName name) :
    (PurePath.parse (relKey path name)).parts = (PurePath.parse path).parts ++ [name] := by
  unfold relKey
  split
  · rename_i hpath
    subst hpath
    exact parts_of_properName name hname
  · rename_i hpath
    rw [String.append_assoc, lstrip_of_not_startsWith _ (startsWith_append path _ hpath hslash),
      ← String.append_assoc, parts_append path name hname]

theorem relKey_not_absolute (path name : String) (hslash : Text.startsWith path "/" = false)
    (hname : ProperName name) : Text.startsWith (relKey path name) "/" = false := by
  unfold relKey
  split
  · exact startsWith_of_properName name hname
  · rename_i hpath
    have hstart := startsWith_append path ("/" ++ name) hpath hslash
    rwa [String.append_assoc, lstrip_of_not_startsWith _ hstart]

theorem norm_of_stripped (key : String) (hkey : key ≠ "")
    (hslash : Text.startsWith key "/" = false) (hstrip : Text.strip key = key) :
    UploadIndex.norm key = .ok key := by
  rw [UploadIndex.norm, hstrip, if_neg hkey, lstrip_of_not_startsWith key hslash]

end NetworkFileServer.Server
