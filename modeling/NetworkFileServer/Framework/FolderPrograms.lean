import NetworkFileServer.Framework.Folders

/-!
# Programs over a folder

The triples of the operations of the operating system at paths of a folder, and the rules that compose them.
-/

namespace FileM

open FileSystem (Shows)

variable {α ε ε' β γ : Type} (orig : FileSystem α) (base : Location)

/-- Run where the folder holds `F`, the program leaves everything else as it is, and what it returns and the
folder after it are as `Q` says. -/
def Triple (F : Folder α) (m : FileM α ε β) (Q : Except ε β → Folder α → Prop) : Prop :=
  ∀ fs, Shows orig base F fs → ∃ F', Shows orig base F' (m fs).fs ∧ Q (m fs).result F'

/-- The program has one outcome: what it returns, and the folder after it. -/
def Computes (F : Folder α) (m : FileM α ε β) (outcome : Except ε β × Folder α) : Prop :=
  Triple orig base F m fun r F' => r = outcome.1 ∧ F' = outcome.2

variable {orig base} {F F₁ F₂ : Folder α} {m : FileM α ε β} {f : β → FileM α ε γ}

theorem Triple.mono {Q Q' : Except ε β → Folder α → Prop} (h : Triple orig base F m Q)
    (hQ : ∀ r F', Q r F' → Q' r F') : Triple orig base F m Q' := by
  intro fs hfs
  obtain ⟨F', hshows, hpost⟩ := h fs hfs
  exact ⟨F', hshows, hQ _ _ hpost⟩

theorem Triple.of_shows {Q : Except ε β → Folder α → Prop}
    (h : ∀ fs, Shows orig base F fs → Triple orig base F m Q) : Triple orig base F m Q :=
  fun fs hfs => h fs hfs fs hfs

theorem computes_pure (b : β) : Computes orig base F (pure b : FileM α ε β) (.ok b, F) :=
  fun _ hfs => ⟨F, hfs, rfl, rfl⟩

theorem computes_fail (e : ε) : Computes orig base F (fail e : FileM α ε β) (.error e, F) :=
  fun _ hfs => ⟨F, hfs, rfl, rfl⟩

theorem Triple.bind {P : Except ε β → Folder α → Prop} {Q : Except ε γ → Folder α → Prop}
    (hm : Triple orig base F m P) (hok : ∀ b F', P (.ok b) F' → Triple orig base F' (f b) Q)
    (herror : ∀ e F', P (.error e) F' → Q (.error e) F') : Triple orig base F (m >>= f) Q := by
  intro fs hfs
  obtain ⟨F', hshows, hpost⟩ := hm fs hfs
  cases hresult : (m fs).result with
  | error e =>
      rw [hresult] at hpost
      rw [bind_of_error m f fs e hresult]
      exact ⟨F', hshows, herror e F' hpost⟩
  | ok b =>
      rw [hresult] at hpost
      rw [bind_of_ok m f fs b _ ⟨hresult, rfl⟩]
      exact hok b F' hpost _ hshows

theorem Computes.bind {b : β} {Q : Except ε γ → Folder α → Prop} (hm : Computes orig base F m (.ok b, F₁))
    (hf : Triple orig base F₁ (f b) Q) : Triple orig base F (m >>= f) Q := by
  refine Triple.bind hm ?_ ?_
  · rintro b' F' ⟨hb, rfl⟩
    cases hb
    exact hf
  · rintro e F' ⟨he, -⟩
    cases he

theorem Computes.bind_error {e : ε} (hm : Computes orig base F m (.error e, F₁)) :
    Computes orig base F (m >>= f) (.error e, F₁) := by
  refine Triple.bind hm ?_ ?_
  · rintro b F' ⟨hb, -⟩
    cases hb
  · rintro e' F' ⟨he, rfl⟩
    cases he
    exact ⟨rfl, rfl⟩

theorem Triple.mapError {P : Except ε β → Folder α → Prop} (g : ε → ε') (h : Triple orig base F m P) :
    Triple orig base F (m.mapError g) fun r F' => ∃ r₀, r = r₀.mapError g ∧ P r₀ F' := by
  intro fs hfs
  obtain ⟨F', hshows, hpost⟩ := h fs hfs
  exact ⟨F', hshows, (m fs).result, rfl, hpost⟩

theorem Computes.mapError {outcome : Except ε β × Folder α} (g : ε → ε') (h : Computes orig base F m outcome) :
    Computes orig base F (m.mapError g) (outcome.1.mapError g, outcome.2) := by
  intro fs hfs
  obtain ⟨F', hshows, hresult, hF⟩ := h fs hfs
  exact ⟨F', hshows, congrArg (Except.mapError g) hresult, hF⟩

theorem Computes.attempt {outcome : Except ε β × Folder α} (h : Computes orig base F m outcome) :
    Computes orig base F (m.attempt : FileM α ε (Except ε β)) (.ok outcome.1, outcome.2) := by
  intro fs hfs
  obtain ⟨F', hshows, hresult, hF⟩ := h fs hfs
  exact ⟨F', hshows, congrArg Except.ok hresult, hF⟩

theorem triple_of_keeps {Q : Except ε β → Folder α → Prop} (hkeeps : m.Keeps)
    (h : ∀ fs, Shows orig base F fs → Q (m fs).result F) : Triple orig base F m Q := by
  intro fs hfs
  refine ⟨F, ?_, h fs hfs⟩
  rw [hkeeps fs]
  exact hfs

theorem computes_of_keeps {r : Except ε β} (hkeeps : m.Keeps)
    (h : ∀ fs, Shows orig base F fs → (m fs).result = r) : Computes orig base F m (r, F) :=
  triple_of_keeps hkeeps fun fs hfs => ⟨h fs hfs, rfl⟩

theorem computes_of_outcome {outcome : Except ε β × Folder α} (h : ∀ fs, Shows orig base F fs →
    (m fs).result = outcome.1 ∧ Shows orig base outcome.2 (m fs).fs) : Computes orig base F m outcome :=
  fun fs hfs => ⟨outcome.2, (h fs hfs).2, (h fs hfs).1, rfl⟩

theorem Triple.map {Q : Except ε γ → Folder α → Prop} (g : β → γ)
    (h : Triple orig base F m fun r F' => Q (r.map g) F') :
    Triple orig base F (m >>= fun b => pure (g b)) Q := by
  refine h.bind ?_ ?_
  · exact fun b F' hpost => (computes_pure (g b)).mono fun _ _ heq => by rw [heq.1, heq.2]; exact hpost
  · exact fun e F' hpost => hpost

theorem computes_forEach {g : β → γ} (xs : List β) (h : ∀ x ∈ xs, Computes orig base F (f x) (.ok (g x), F)) :
    Computes orig base F (forEach f xs) (.ok (xs.map g), F) := by
  induction xs with
  | nil => exact computes_pure []
  | cons x xs ih =>
      refine (h x List.mem_cons_self).bind ?_
      refine (ih fun y hy => h y (List.mem_cons_of_mem x hy)).bind ?_
      exact computes_pure (g x :: xs.map g)

section Operations

variable (lim : LinkLimits) {p : List String} {c : String}

theorem inner_append {fs : FileSystem α} (hfs : Shows orig base F fs) (hp : ".." ∉ p) :
    Inner base (base ++ p) := by
  refine ⟨List.prefix_append base p, ?_⟩
  intro hup
  rcases List.mem_append.mp hup with hup | hup
  · exact hfs.region.resolved.noUp hup
  · exact hp hup

theorem locate_append {fs : FileSystem α} (hfs : Shows orig base F fs) (hp : ".." ∉ p) :
    fs.locate lim (base ++ p) = (F p).map fun node => (base ++ p, node) := by
  rw [(inner_append hfs hp).locate lim hfs.region, hfs.get?]

theorem computes_pathExists (hp : ".." ∉ p) :
    Computes orig base F (pathExists lim (base ++ p) : FileM α ε Bool) (.ok (F p).isSome, F) := by
  refine computes_of_keeps (keeps_pathExists lim _) ?_
  intro fs hfs
  unfold pathExists
  rw [locate_append lim hfs hp]
  cases F p <;> rfl

theorem computes_isDir (hp : ".." ∉ p) :
    Computes orig base F (isDir lim (base ++ p) : FileM α ε Bool) (.ok (F.isDir p), F) := by
  refine computes_of_keeps ?_ ?_
  · intro fs
    unfold isDir
    cases fs.locate lim (base ++ p) <;> rfl
  · intro fs hfs
    unfold isDir Folder.isDir
    rw [locate_append lim hfs hp]
    cases F p <;> rfl

theorem computes_stat (hp : ".." ∉ p) :
    Computes orig base F (stat lim (base ++ p)) ((F p).elim (.error .notFound) .ok, F) := by
  refine computes_of_keeps (stat_keeps lim _) ?_
  intro fs hfs
  unfold stat
  rw [locate_append lim hfs hp]
  cases F p <;> rfl

/-- What reading an object gives. -/
def contentOf : Option (Node α) → Except OsError α
  | some (.file content) => .ok content
  | some .dir | some (.link _) => .error .isADirectory
  | none => .error .notFound

theorem computes_readFile (hp : ".." ∉ p) :
    Computes orig base F (readFile lim (base ++ p)) (contentOf (F p), F) := by
  refine computes_of_keeps ?_ ?_
  · intro fs
    unfold readFile
    split <;> rfl
  · intro fs hfs
    unfold readFile
    rw [locate_append lim hfs hp]
    cases F p with
    | none => rfl
    | some node => cases node <;> rfl

theorem triple_listdir (hp : ".." ∉ p) (hdir : F p = some .dir) :
    Triple orig base F (listdir lim (base ++ p)) fun r F' => F' = F ∧
      ∃ names, r = .ok names ∧ ∀ n, n ∈ names ↔ ProperName n ∧ (F (p ++ [n])).isSome = true := by
  refine triple_of_keeps ?_ ?_
  · intro fs
    unfold listdir
    split <;> rfl
  · intro fs hfs
    refine ⟨rfl, fs.names (base ++ p), ?_, ?_⟩
    · unfold listdir
      rw [locate_append lim hfs hp, hdir]
      rfl
    · intro n
      constructor
      · intro hn
        have hproper := fs.properName_of_mem_names _ n hn
        rw [fs.mem_names _ n hproper, List.append_assoc, hfs.get?] at hn
        exact ⟨hproper, hn⟩
      · rintro ⟨hproper, hsome⟩
        rw [fs.mem_names _ n hproper, List.append_assoc, hfs.get?]
        exact hsome

theorem computes_listdir_of_not_dir (hp : ".." ∉ p) (hdir : F p ≠ some .dir) :
    Computes orig base F (listdir lim (base ++ p))
      (.error (if (F p).isSome then .notADirectory else .notFound), F) := by
  refine computes_of_keeps ?_ ?_
  · intro fs
    unfold listdir
    split <;> rfl
  · intro fs hfs
    unfold listdir
    rw [locate_append lim hfs hp]
    cases hnode : F p with
    | none => rfl
    | some node =>
        cases node with
        | dir => exact absurd hnode hdir
        | file _ | link _ => rfl

/-- What opening a name of a folder for writing does to the folder. -/
def written (F : Folder α) (p : List String) (c : String) (content : α) : Except OsError Unit × Folder α :=
  if F.isDir p then
    if F.isDir (p ++ [c]) then (.error .isADirectory, F) else (.ok (), F.put (p ++ [c]) (.file content))
  else (.error .notFound, F)

theorem computes_writeFile (hp : ".." ∉ p) (hc : c ≠ "..") (content : α) :
    Computes orig base F (writeFile lim (base ++ (p ++ [c])) content) (written F p c content) := by
  apply computes_of_outcome
  intro fs hfs
  have hcreat := (inner_append hfs hp).locateCreat lim hc hfs.region
  rw [List.append_assoc, hfs.isDirAt] at hcreat
  unfold written writeFile
  rw [hcreat]
  cases hdir : F.isDir p with
  | false => exact ⟨rfl, hfs⟩
  | true =>
      simp only [if_true]
      have hparent : fs.isDirAt (base ++ (p ++ [c])).dropLast = true := by
        rw [← List.append_assoc, List.dropLast_concat, hfs.isDirAt, hdir]
      cases hchild : F.isDir (p ++ [c]) with
      | true =>
          rw [dif_neg (by simp [hfs.isDirAt, hchild])]
          exact ⟨rfl, hfs⟩
      | false =>
          have hboth : fs.isDirAt (base ++ (p ++ [c])).dropLast = true ∧ fs.isDirAt (base ++ (p ++ [c])) = false :=
            ⟨hparent, by rw [hfs.isDirAt, hchild]⟩
          rw [dif_pos hboth]
          exact ⟨rfl, hfs.put _ _ ⟨hboth.1, by simp [hboth.2]⟩ rfl⟩

theorem isDirAt_parent {fs : FileSystem α} (hfs : Shows orig base F fs) (hsome : (F p).isSome = true) :
    fs.isDirAt (base ++ p).dropLast = true := by
  apply fs.isDirAt_dropLast
  rw [hfs.get?]
  exact hsome

theorem locateEntry_append {fs : FileSystem α} (hfs : Shows orig base F fs) (hp : ".." ∉ p)
    (hsome : (F p).isSome = true) : fs.locateEntry lim (base ++ p) = some (base ++ p) := by
  rw [(inner_append hfs hp).entry lim hfs.region, if_pos (isDirAt_parent hfs hsome)]

theorem locateEntry_child {fs : FileSystem α} (hfs : Shows orig base F fs) (hp : ".." ∉ p) (hc : c ≠ "..")
    (hdir : F p = some .dir) : fs.locateEntry lim (base ++ (p ++ [c])) = some (base ++ (p ++ [c])) := by
  have hinner : Inner base (base ++ (p ++ [c])) := by
    rw [← List.append_assoc]
    exact (inner_append hfs hp).snoc hc
  rw [hinner.entry lim hfs.region, if_pos]
  rw [← List.append_assoc, List.dropLast_concat, hfs.isDirAt, F.isDir_eq_true]
  exact hdir

theorem computes_mkdir (hp : ".." ∉ p) (hc : c ≠ "..") (hnone : F (p ++ [c]) = none) :
    Computes orig base F (mkdir lim (base ++ (p ++ [c])))
      (if F.isDir p then (.ok (), F.put (p ++ [c]) .dir) else (.error .notFound, F)) := by
  apply computes_of_outcome
  intro fs hfs
  have hinner : Inner base (base ++ (p ++ [c])) := by
    rw [← List.append_assoc]
    exact (inner_append hfs hp).snoc hc
  have hparent : fs.isDirAt (base ++ (p ++ [c])).dropLast = F.isDir p := by
    rw [← List.append_assoc, List.dropLast_concat, hfs.isDirAt]
  have hnode : fs.get? (base ++ (p ++ [c])) = none := by rw [hfs.get?, hnone]
  unfold mkdir
  rw [hinner.entry lim hfs.region, hparent]
  cases hdir : F.isDir p with
  | false => exact ⟨rfl, hfs⟩
  | true =>
      rw [hdir] at hparent
      simp only [if_true, dif_pos (And.intro hparent hnode)]
      exact ⟨trivial, hfs.put _ _ _ rfl⟩

theorem computes_mkdir_root (hnone : F [] = none) :
    Computes orig base F (mkdir lim base) (.ok (), F.put [] .dir) := by
  apply computes_of_outcome
  intro fs hfs
  have hinner : Inner base (base ++ []) := inner_append hfs List.not_mem_nil
  have hnode : fs.get? (base ++ []) = none := by rw [hfs.get?, hnone]
  have hshows := hfs.put [] .dir ⟨by rw [List.append_nil]; exact hfs.region.parent, fun _ => rfl⟩ rfl
  simp only [List.append_nil] at hinner hnode hshows
  unfold mkdir
  rw [hinner.entry lim hfs.region, if_pos hfs.region.parent]
  simp only [dif_pos (And.intro hfs.region.parent hnode)]
  exact ⟨trivial, hshows⟩

theorem computes_rmtree (hp : ".." ∉ p) (hdir : F p = some .dir) :
    Computes orig base F (rmtree lim (base ++ p)) (.ok (), F.remove p) := by
  apply computes_of_outcome
  intro fs hfs
  have hne : base ++ p ≠ [] := by simp [hfs.region.ne_root]
  have hnode : fs.get? (base ++ p) = some .dir := by rw [hfs.get?, hdir]
  unfold rmtree
  rw [locateEntry_append lim hfs hp (by rw [hdir]; rfl)]
  simp only [hnode, if_neg hne]
  exact ⟨trivial, hfs.erase p⟩

theorem computes_remove (hp : ".." ∉ p) {content : α} (hfile : F p = some (.file content)) :
    Computes orig base F (remove lim (base ++ p)) (.ok (), F.remove p) := by
  apply computes_of_outcome
  intro fs hfs
  have hnode : fs.get? (base ++ p) = some (.file content) := by rw [hfs.get?, hfile]
  unfold remove
  rw [locateEntry_append lim hfs hp (by rw [hfile]; rfl)]
  simp only [hnode]
  exact ⟨trivial, hfs.erase p⟩

theorem computes_remove_of_missing (hp : ".." ∉ p) (hnone : F p = none) :
    Computes orig base F (remove lim (base ++ p)) (.error .notFound, F) := by
  apply computes_of_outcome
  intro fs hfs
  have hnode : fs.get? (base ++ p) = none := by rw [hfs.get?, hnone]
  unfold remove
  rw [(inner_append hfs hp).entry lim hfs.region]
  cases fs.isDirAt (base ++ p).dropLast with
  | false => exact ⟨rfl, hfs⟩
  | true =>
      simp only [if_true, hnode]
      exact ⟨trivial, hfs⟩

section Rename

variable {src dst : List String} {d : String}

theorem vacant_append {fs : FileSystem α} (hfs : Shows orig base F fs) (hdst : F dst ≠ some .dir) :
    ∀ e ∈ fs.tree, base ++ dst <+: e.1 → e.1 = base ++ dst := by
  apply fs.vacant_of_not_dir
  rw [← Bool.not_eq_true, fs.isDirAt_eq_true, hfs.get?]
  exact hdst

theorem computes_rename (hsrc : ".." ∉ src) (hdst : ".." ∉ dst) (hd : d ≠ "..") {node : Node α}
    (hnode : F src = some node) (hparent : F dst = some .dir) (hplace : F (dst ++ [d]) ≠ some .dir)
    (hfree : node = .dir → F (dst ++ [d]) = none) (hbelow : ¬src <+: dst ++ [d]) :
    Computes orig base F (rename lim (base ++ src) (base ++ (dst ++ [d]))) (.ok (), F.move src (dst ++ [d])) := by
  apply computes_of_outcome
  intro fs hfs
  have hren : Renames lim fs (base ++ src) (base ++ (dst ++ [d])) (base ++ src) (base ++ (dst ++ [d])) := by
    refine ⟨locateEntry_append lim hfs hsrc (by rw [hnode]; rfl), locateEntry_child lim hfs hdst hd hparent, ?_, ?_⟩
    · unfold canReplace
      rw [hfs.get?, hfs.get?, hnode]
      cases hold : F (dst ++ [d]) with
      | none => rfl
      | some old =>
          cases node with
          | dir => rw [hfree rfl] at hold; cases hold
          | file _ | link _ =>
              cases old with
              | dir => exact absurd hold hplace
              | file _ | link _ => rfl
    · refine ⟨by rw [hfs.get?, hnode]; rfl, ?_, ?_, vacant_append hfs hplace⟩
      · rwa [List.prefix_append_right_inj]
      · rw [← List.append_assoc, List.dropLast_concat, hfs.isDirAt, F.isDir_eq_true]
        exact hparent
  rw [rename_of_renames lim fs _ _ _ _ hren]
  exact ⟨rfl, hfs.move src (dst ++ [d]) hren.movable⟩

theorem computes_rename_of_dir (hsrc : ".." ∉ src) (hdst : ".." ∉ dst) (hd : d ≠ "..") {content : α}
    (hfile : F src = some (.file content)) (hplace : F (dst ++ [d]) = some .dir) :
    Computes orig base F (rename lim (base ++ src) (base ++ (dst ++ [d]))) (.error .isADirectory, F) := by
  apply computes_of_outcome
  intro fs hfs
  have hparent : F dst = some .dir := hfs.wellFormed.closed dst d (by rw [hplace]; rfl)
  have hcan : canReplace fs (base ++ src) (base ++ (dst ++ [d])) = .error .isADirectory := by
    unfold canReplace
    rw [hfs.get?, hfs.get?, hfile, hplace]
  unfold rename
  rw [locateEntry_append lim hfs hsrc (by rw [hfile]; rfl), locateEntry_child lim hfs hdst hd hparent]
  simp only [hcan]
  rw [if_neg (by simp [hfs.region.ne_root])]
  exact ⟨rfl, hfs⟩

end Rename

end Operations

end FileM
