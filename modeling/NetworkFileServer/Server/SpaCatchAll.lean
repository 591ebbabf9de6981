import NetworkFileServer.Framework.NameLimits
import NetworkFileServer.Server.FileService

/-!
# The catch-all route of the server

`spa_catch_all` of `server/app/main.py` with `spa_shell_response` of `shared/spa.py`. The route joins
the decoded request path to the directory of the client bundle and serves whatever regular file it
finds, else the shell of the single-page application. `is_file()` raises what it does not ignore, for a
name that the kernel refuses.
-/

namespace NetworkFileServer.Server.SpaCatchAll

variable {α : Type}

def spaPlaceholderHtml : String :=
  "<!doctype html><html><head><meta charset='utf-8'>" ++
  "<title>Network File Server</title></head>" ++
  "<body><div id='root'></div>" ++
  "<script type='module' src='/assets/index.js'></script>" ++
  "</body></html>"

inductive SpaResponse where
  | fileResponse (path : List String) (mediaType : Option String)
  | htmlResponse (body : String)
deriving DecidableEq, Repr

/-- The path leads to a regular file, through links. -/
def leadsToFile (lim : LinkLimits) (fs : FileSystem α) (p : List String) : Bool :=
  match fs.locate lim p with
  | some (_, .file _) => true
  | _ => false

/-- `Path.is_file()`. -/
def isFile (names : NameLimits) (lim : LinkLimits) (fs : FileSystem α) (p : List String) : Except OsError Bool :=
  if fs.refuses names lim p then .error .nameTooLong else .ok (leadsToFile lim fs p)

def spaShellResponse (names : NameLimits) (lim : LinkLimits) (fs : FileSystem α) (indexHtml : List String) :
    Except OsError SpaResponse := do
  if ← isFile names lim fs indexHtml then return .fileResponse indexHtml (some "text/html")
  return .htmlResponse spaPlaceholderHtml

/-- `client_dist / path`. -/
def staticFile (clientDist : List String) (path : String) : List String :=
  (PurePath.join ⟨true, clientDist⟩ (PurePath.parse path)).parts

def indexHtml (clientDist : List String) : List String := clientDist ++ ["index.html"]

/-- `static_file.is_file()`; a path with a null byte is no file. -/
def servesStatic (names : NameLimits) (lim : LinkLimits) (fs : FileSystem α) (clientDist : List String)
    (path : String) : Except OsError Bool :=
  if FileService.hasNul path then .ok false else isFile names lim fs (staticFile clientDist path)

def spaCatchAll (names : NameLimits) (lim : LinkLimits) (fs : FileSystem α) (clientDist : List String)
    (path : String) : Except OsError SpaResponse := do
  if ← servesStatic names lim fs clientDist path then return .fileResponse (staticFile clientDist path) none
  spaShellResponse names lim fs (indexHtml clientDist)

/-- The file whose content a response carries, with its location. -/
def SpaResponse.served (lim : LinkLimits) (fs : FileSystem α) : SpaResponse → Option (Location × α)
  | .fileResponse path _ =>
      match fs.locate lim path with
      | some (l, .file content) => some (l, content)
      | _ => none
  | .htmlResponse _ => none

section Confinement

variable (names : NameLimits) (lim : LinkLimits) (fs : FileSystem α) (clientDist : List String) (path : String)

/-- The path leads to a regular file outside a directory. -/
def LeadsToFileOutside (base : Location) (p : List String) : Prop :=
  ∃ l content, fs.locate lim p = some (l, .file content) ∧ ¬base <+: l

/-- The route answers with a file in the bundle or the shell, and with nothing from outside the bundle. -/
def ServesBundle : Prop :=
  ∀ base, fs.resolve lim clientDist = some base → ∃ response, spaCatchAll names lim fs clientDist path = .ok response ∧
    ((∃ l content, response.served lim fs = some (l, content) ∧ base <+: l) ∨
      spaShellResponse names lim fs (indexHtml clientDist) = .ok response) ∧
    ∀ l content, response.served lim fs = some (l, content) → base <+: l

/-- The two ways out of the bundle, where they lead to a regular file: a remainder that begins with `/`, and one
with `..` or a link on its way. -/
def Escapes (base : Location) : Prop :=
  ((PurePath.parse path).absolute = true ∧ LeadsToFileOutside lim fs base (PurePath.parse path).parts) ∨
    ((PurePath.parse path).absolute = false ∧ ¬fs.Resolved (base ++ (PurePath.parse path).parts) ∧
      LeadsToFileOutside lim fs base (clientDist ++ (PurePath.parse path).parts))

/-- The requests that the bundle answers. Where they name no regular file, `index.html` has to be a file of the
bundle, or none. -/
structure BundlePath (base : Location) : Prop where
  named : FileService.hasNul path = false → fs.refuses names lim (staticFile clientDist path) = false
  inside : FileService.hasNul path = false → ¬Escapes lim fs clientDist path base
  shell : (FileService.hasNul path = false → leadsToFile lim fs (staticFile clientDist path) = false) →
    fs.refuses names lim (indexHtml clientDist) = false ∧
      (¬fs.Resolved (base ++ ["index.html"]) → ¬LeadsToFileOutside lim fs base (indexHtml clientDist))

theorem served_fileResponse (p : List String) (mediaType : Option String) (l : Location)
    (content : α) :
    (SpaResponse.fileResponse p mediaType).served lim fs = some (l, content) ↔
      fs.locate lim p = some (l, .file content) := by
  simp only [SpaResponse.served]
  cases fs.locate lim p with
  | none => simp
  | some found =>
      obtain ⟨l', node⟩ := found
      cases node <;> simp

theorem leadsToFile_iff (p : List String) :
    leadsToFile lim fs p = true ↔ ∃ l content, fs.locate lim p = some (l, .file content) := by
  unfold leadsToFile
  cases fs.locate lim p with
  | none => simp
  | some found =>
      obtain ⟨l, node⟩ := found
      cases node <;> simp

theorem isFile_eq_ok (p : List String) (found : Bool) :
    isFile names lim fs p = .ok found ↔ fs.refuses names lim p = false ∧ leadsToFile lim fs p = found := by
  unfold isFile
  split
  · rename_i hrefuses
    simp [hrefuses]
  · rename_i hrefuses
    simp [hrefuses]

theorem servesStatic_eq_ok (found : Bool) :
    servesStatic names lim fs clientDist path = .ok found ↔
      (FileService.hasNul path = false → fs.refuses names lim (staticFile clientDist path) = false) ∧
        (!FileService.hasNul path && leadsToFile lim fs (staticFile clientDist path)) = found := by
  unfold servesStatic
  split
  · rename_i hnul
    simp [hnul]
  · rename_i hnul
    simp [hnul, isFile_eq_ok]

theorem spaShellResponse_eq_ok (response : SpaResponse) :
    spaShellResponse names lim fs (indexHtml clientDist) = .ok response ↔
      fs.refuses names lim (indexHtml clientDist) = false ∧
        response = if leadsToFile lim fs (indexHtml clientDist)
          then .fileResponse (indexHtml clientDist) (some "text/html") else .htmlResponse spaPlaceholderHtml := by
  unfold spaShellResponse
  cases hfile : isFile names lim fs (indexHtml clientDist) with
  | error e =>
      simp only [isFile] at hfile
      split at hfile
      · rename_i hrefuses
        constructor
        · intro h
          cases h
        · simp [hrefuses]
      · cases hfile
  | ok found =>
      obtain ⟨hnamed, hfound⟩ := (isFile_eq_ok names lim fs _ found).mp hfile
      rw [hfound, hnamed]
      cases found <;> simp [bind, Except.bind, pure, Except.pure, eq_comm]

theorem spaCatchAll_eq_ok (response : SpaResponse) :
    spaCatchAll names lim fs clientDist path = .ok response ↔
      (FileService.hasNul path = false → fs.refuses names lim (staticFile clientDist path) = false) ∧
        if (!FileService.hasNul path && leadsToFile lim fs (staticFile clientDist path)) = true
        then response = .fileResponse (staticFile clientDist path) none
        else spaShellResponse names lim fs (indexHtml clientDist) = .ok response := by
  unfold spaCatchAll
  cases hstatic : servesStatic names lim fs clientDist path with
  | error e =>
      constructor
      · intro h
        cases h
      · rintro ⟨hnamed, -⟩
        have hok := (servesStatic_eq_ok names lim fs clientDist path _).mpr ⟨hnamed, rfl⟩
        rw [hstatic] at hok
        cases hok
  | ok found =>
      obtain ⟨hnamed, hfound⟩ := (servesStatic_eq_ok names lim fs clientDist path found).mp hstatic
      rw [hfound, and_iff_right hnamed]
      cases found <;> simp [bind, Except.bind, pure, Except.pure, eq_comm]

theorem not_leadsToFileOutside_of_resolved (base : Location) (hbase : fs.resolve lim clientDist = some base)
    (p : List String) (hres : fs.Resolved (base ++ p)) : ¬LeadsToFileOutside lim fs base (clientDist ++ p) := by
  rintro ⟨l, content, hl, hout⟩
  obtain ⟨l', hwalk, hnode⟩ := Option.bind_eq_some_iff.mp hl
  obtain ⟨node, -, heq⟩ := Option.map_eq_some_iff.mp hnode
  obtain rfl : l' = l := congrArg Prod.fst heq
  obtain ⟨m, mid, hfirst, hsecond⟩ := ((fs.walk_eq_some _ _ _ _).mp hwalk).split
  have hmid : mid = base := hfirst.eq_of_resolvesTo ((fs.realWalk_eq_some _ _ _ _).mp hbase)
  subst hmid
  exact hout ⟨p, (hsecond.eq_of_resolved hres).symm⟩

theorem escapes_iff (base : Location) (hbase : fs.resolve lim clientDist = some base) :
    Escapes lim fs clientDist path base ↔ LeadsToFileOutside lim fs base (staticFile clientDist path) := by
  unfold Escapes staticFile PurePath.join
  cases (PurePath.parse path).absolute with
  | true => simp
  | false =>
      simp only [Bool.false_eq_true, false_and, ↓reduceIte, true_and, false_or]
      refine and_iff_right_of_imp fun hout hres => ?_
      exact not_leadsToFileOutside_of_resolved lim fs clientDist base hbase _ hres hout

theorem served_shell (response : SpaResponse)
    (hshell : spaShellResponse names lim fs (indexHtml clientDist) = .ok response) (l : Location) (content : α) :
    response.served lim fs = some (l, content) ↔ fs.locate lim (indexHtml clientDist) = some (l, .file content) := by
  obtain ⟨-, rfl⟩ := (spaShellResponse_eq_ok names lim fs clientDist response).mp hshell
  split
  · exact served_fileResponse lim fs _ _ l content
  · rename_i hnone
    constructor
    · intro h
      cases h
    · intro h
      exact absurd ((leadsToFile_iff lim fs _).mpr ⟨l, content, h⟩) hnone

theorem inside_iff (base : Location) (p : List String) :
    (∀ l content, fs.locate lim p = some (l, .file content) → base <+: l) ↔
      ¬LeadsToFileOutside lim fs base p := by
  simp only [LeadsToFileOutside, not_exists, not_and, not_not]

/-- The catch-all route keeps to the client bundle exactly for the requests that the bundle answers. -/
theorem servesBundle_iff_bundlePath :
    ServesBundle names lim fs clientDist path ↔
      ∀ base, fs.resolve lim clientDist = some base → BundlePath names lim fs clientDist path base := by
  refine forall₂_congr fun base hbase => ?_
  have hindex : (¬fs.Resolved (base ++ ["index.html"]) → ¬LeadsToFileOutside lim fs base (indexHtml clientDist)) ↔
      ¬LeadsToFileOutside lim fs base (indexHtml clientDist) :=
    ⟨fun h hout => h (fun hres => not_leadsToFileOutside_of_resolved lim fs clientDist base hbase _ hres hout) hout,
      fun h _ => h⟩
  have hescapes := escapes_iff lim fs clientDist path base hbase
  cases hstatic : !FileService.hasNul path && leadsToFile lim fs (staticFile clientDist path) with
  | true =>
      obtain ⟨hnul, hfile⟩ : FileService.hasNul path = false ∧
          leadsToFile lim fs (staticFile clientDist path) = true := by
        simpa using hstatic
      simp only [spaCatchAll_eq_ok, hstatic, ↓reduceIte]
      constructor
      · rintro ⟨response, ⟨hnamed, rfl⟩, -, hinside⟩
        simp only [served_fileResponse] at hinside
        refine ⟨hnamed, fun _ => ?_, fun hnone => by simp [hnone hnul] at hfile⟩
        rw [hescapes]
        exact (inside_iff lim fs base _).mp hinside
      · intro h
        have hinside := (inside_iff lim fs base _).mpr (hescapes.not.mp (h.inside hnul))
        obtain ⟨l, content, hl⟩ := (leadsToFile_iff lim fs _).mp hfile
        refine ⟨_, ⟨h.named, rfl⟩, .inl ⟨l, content, ?_, hinside l content hl⟩, ?_⟩
        · exact (served_fileResponse lim fs _ _ l content).mpr hl
        · simpa only [served_fileResponse] using hinside
  | false =>
      have hnofile : FileService.hasNul path = false → leadsToFile lim fs (staticFile clientDist path) = false := by
        intro hnul
        simpa [hnul] using hstatic
      simp only [spaCatchAll_eq_ok, hstatic, Bool.false_eq_true, ↓reduceIte]
      constructor
      · rintro ⟨response, ⟨hnamed, hshell⟩, -, hinside⟩
        simp only [served_shell names lim fs clientDist response hshell] at hinside
        refine ⟨hnamed, ?_, fun _ => ⟨?_, hindex.mpr ((inside_iff lim fs base _).mp hinside)⟩⟩
        · rw [hescapes]
          rintro hnul ⟨l, content, hl, -⟩
          have hfile := (leadsToFile_iff lim fs _).mpr ⟨l, content, hl⟩
          rw [hnofile hnul] at hfile
          cases hfile
        · exact ((spaShellResponse_eq_ok names lim fs clientDist response).mp hshell).1
      · intro h
        obtain ⟨hnamed, hin⟩ := h.shell hnofile
        have hshell := (spaShellResponse_eq_ok names lim fs clientDist _).mpr ⟨hnamed, rfl⟩
        refine ⟨_, ⟨h.named, hshell⟩, .inr hshell, ?_⟩
        simp only [served_shell names lim fs clientDist _ hshell]
        exact (inside_iff lim fs base _).mpr (hindex.mp hin)

end Confinement

/-- A server whose bundle is `/app/client/dist`. -/
def bundleHost : FileSystem String where
  tree :=
    [(["app"], .dir), (["app", "client"], .dir), (["app", "client", "dist"], .dir),
      (["app", "client", "dist", "index.html"], .file "<html>"), (["etc"], .dir),
      (["etc", "passwd"], .file "root:x:0:0")]
  closed := by decide

/-- A segment of 256 bytes. -/
def longSegment : String := String.ofList (List.replicate 256 'a')

theorem staticFile_of_properName (clientDist : List String) (name : String) (h : ProperName name) :
    staticFile clientDist name = clientDist ++ [name] := by
  have hsplit : name.toList.splitOn '/' = [name.toList] := List.splitOn_eq_singleton h.2.2.2
  have hrelative : Text.startsWith name "/" = false := by
    rw [Text.startsWith, Bool.eq_false_iff]
    intro hstart
    exact h.2.2.2 ((List.isPrefixOf_iff_prefix.mp hstart).subset (by decide))
  simp [staticFile, PurePath.join, PurePath.parse, hsplit, h.1, h.2.1, hrelative]

theorem hasNul_replicate (n : Nat) : FileService.hasNul (String.ofList (List.replicate n 'a')) = false := by
  simp [FileService.hasNul]

theorem refuses_longSegment : bundleHost.refuses .linux ⟨40, 40⟩
    (staticFile ["app", "client", "dist"] longSegment) = true := by
  have hproper : ProperName longSegment := NameLimits.properName_replicate 255
  have hbase : bundleHost.resolve ⟨40, 40⟩ ["app", "client", "dist"] = some ["app", "client", "dist"] := by
    decide +kernel
  have hsize : longSegment.utf8ByteSize = 256 := NameLimits.utf8ByteSize_replicate 256 'a'
  have hshell : "index.html" ≠ longSegment := by
    intro h
    rw [← h] at hsize
    exact absurd hsize (by decide)
  rw [staticFile_of_properName _ _ hproper]
  apply bundleHost.refuses_of_long
  · exact hproper.2.2.1
  · exact bundleHost.resolve_resolved _ _ _ hbase
  · decide +kernel
  · simp [bundleHost, FileSystem.get?, FileTree.get?, OrderedDict.lookup, hshell]
  · rw [hsize]
    decide

/-- The request `//etc/passwd` reaches the route with the remainder `/etc/passwd`; a segment that is too long is
an error of the server. -/
theorem not_servesBundle_absolute_long :
    ¬ServesBundle .linux ⟨40, 40⟩ bundleHost ["app", "client", "dist"] "/etc/passwd" ∧
      ¬ServesBundle .linux ⟨40, 40⟩ bundleHost ["app", "client", "dist"] longSegment := by
  have hbase : bundleHost.resolve ⟨40, 40⟩ ["app", "client", "dist"] =
      some ["app", "client", "dist"] := by
    decide +kernel
  constructor
  · have hserved : (spaCatchAll .linux ⟨40, 40⟩ bundleHost ["app", "client", "dist"] "/etc/passwd").map
        (SpaResponse.served ⟨40, 40⟩ bundleHost) = .ok (some (["etc", "passwd"], "root:x:0:0")) := by
      decide +kernel
    intro h
    obtain ⟨response, hresponse, -, hinside⟩ := h _ hbase
    rw [hresponse] at hserved
    exact absurd (hinside _ _ (Except.ok.inj hserved)) (by decide)
  · intro h
    obtain ⟨response, hresponse, -⟩ := h _ hbase
    have hnamed := ((spaCatchAll_eq_ok ..).mp hresponse).1 (hasNul_replicate 256)
    rw [refuses_longSegment] at hnamed
    cases hnamed

end NetworkFileServer.Server.SpaCatchAll
