import NetworkFileServer.Framework.FileRegion

/-!
# The rules of local programs

A program stays in a region when it changes nothing else, and its result and its effect there are the same
for two file systems that agree on the region. The rule of a sequence hands the values that the first program
can return to the second one.
-/

namespace FileM

variable {α ε ε' β γ : Type}

structure StaysIn (base : Location) (Q : β → Prop) (m : FileM α ε β) : Prop where
  outside : ∀ fs : FileSystem α, fs.Region base → (m fs).fs.outside base = fs.outside base
  links : ∀ fs : FileSystem α, fs.Region base → fs.SameLinks (m fs).fs
  value : ∀ (fs : FileSystem α) b, fs.Region base → (m fs).result = .ok b → Q b
  result : ∀ fs fs' : FileSystem α, fs.AgreeOn fs' base → (m fs).result = (m fs').result
  inside : ∀ fs fs' : FileSystem α, fs.AgreeOn fs' base → (m fs).fs.inside base = (m fs').fs.inside base

variable {base : Location} {Q : β → Prop} {Q' : γ → Prop} {m : FileM α ε β}

theorem StaysIn.region (h : StaysIn base Q m) {fs : FileSystem α} (hfs : fs.Region base) :
    (m fs).fs.Region base := hfs.of_outside (h.links fs hfs) (h.outside fs hfs)

theorem StaysIn.agreeOn (h : StaysIn base Q m) {fs fs' : FileSystem α} (hfs : fs.AgreeOn fs' base) :
    (m fs).fs.AgreeOn (m fs').fs base where
  region := h.region hfs.region
  region' := h.region hfs.region'
  links := (h.links fs hfs.region).symm.trans (hfs.links.trans (h.links fs' hfs.region'))
  inside := h.inside fs fs' hfs

theorem StaysIn.of_keeps (hkeeps : m.Keeps)
    (hvalue : ∀ (fs : FileSystem α) b, fs.Region base → (m fs).result = .ok b → Q b)
    (hresult : ∀ fs fs' : FileSystem α, fs.AgreeOn fs' base → (m fs).result = (m fs').result) : StaysIn base Q m where
  outside := fun fs _ => by rw [hkeeps fs]
  links := fun fs _ => by rw [hkeeps fs]; exact FileSystem.SameLinks.refl fs
  value := hvalue
  result := hresult
  inside := fun fs fs' hfs => by rw [hkeeps fs, hkeeps fs']; exact hfs.inside

theorem StaysIn.weaken {P : β → Prop} (h : StaysIn base P m) (hPQ : ∀ b, P b → Q b) : StaysIn base Q m :=
  ⟨h.outside, h.links, fun fs b hfs hb => hPQ b (h.value fs b hfs hb), h.result, h.inside⟩

theorem bind_assoc {δ : Type} (m : FileM α ε β) (f : β → FileM α ε γ) (g : γ → FileM α ε δ) :
    m >>= f >>= g = m >>= fun b => f b >>= g := by
  funext fs
  cases hm : (m fs).result with
  | error e =>
      rw [bind_of_error m _ fs e hm]
      have hfirst : ((m >>= f) fs).result = .error e := by rw [bind_of_error m f fs e hm]
      rw [bind_of_error _ g fs e hfirst, bind_of_error m f fs e hm]
  | ok b =>
      rw [bind_of_ok m _ fs b _ ⟨hm, rfl⟩]
      cases hf : (f b (m fs).fs).result with
      | error e =>
          have hfirst : ((m >>= f) fs).result = .error e := by rw [bind_of_ok m f fs b _ ⟨hm, rfl⟩, hf]
          rw [bind_of_error _ g fs e hfirst, bind_of_ok m f fs b _ ⟨hm, rfl⟩, bind_of_error _ g _ e hf]
      | ok c =>
          have hfirst : (m >>= f).Returns fs c (f b (m fs).fs).fs := by
            rw [Returns, bind_of_ok m f fs b _ ⟨hm, rfl⟩]
            exact ⟨hf, rfl⟩
          rw [bind_of_ok _ g fs c _ hfirst, bind_of_ok m f fs b _ ⟨hm, rfl⟩, bind_of_ok _ g _ c _ ⟨hf, rfl⟩,
            List.append_assoc]

theorem staysIn_pure {b : β} (h : Q b) : StaysIn base Q (pure b : FileM α ε β) :=
  .of_keeps (keeps_pure b) (fun _ _ _ heq => by cases heq; exact h) fun _ _ _ => rfl

theorem staysIn_fail (e : ε) : StaysIn base Q (fail e : FileM α ε β) :=
  .of_keeps (keeps_fail e) (fun _ _ _ heq => by cases heq) fun _ _ _ => rfl

theorem staysIn_bind {f : β → FileM α ε γ} (hm : StaysIn base Q m) (hf : ∀ b, Q b → StaysIn base Q' (f b)) :
    StaysIn base Q' (m >>= f) := by
  have hcases : ∀ fs : FileSystem α, fs.Region base →
      (∃ e, (m fs).result = .error e ∧ ((m >>= f) fs).result = .error e ∧ ((m >>= f) fs).fs = (m fs).fs) ∨
      ∃ b, (m fs).result = .ok b ∧ Q b ∧ ((m >>= f) fs).result = (f b (m fs).fs).result ∧
        ((m >>= f) fs).fs = (f b (m fs).fs).fs := by
    intro fs hfs
    cases hresult : (m fs).result with
    | error e =>
        rw [bind_of_error m f fs e hresult]
        exact .inl ⟨e, rfl, rfl, rfl⟩
    | ok b =>
        rw [bind_of_ok m f fs b _ ⟨hresult, rfl⟩]
        exact .inr ⟨b, rfl, hm.value fs b hfs hresult, rfl, rfl⟩
  have hboth : ∀ fs fs' : FileSystem α, fs.AgreeOn fs' base → ((m >>= f) fs).result = ((m >>= f) fs').result ∧
      ((m >>= f) fs).fs.inside base = ((m >>= f) fs').fs.inside base := by
    intro fs fs' hfs
    have hsame := hm.result fs fs' hfs
    have hnext := hm.agreeOn hfs
    rcases hcases fs hfs.region with ⟨e, he, hresult, heffect⟩ | ⟨b, hb, hQ, hresult, heffect⟩
    · rcases hcases fs' hfs.region' with ⟨e', he', hresult', heffect'⟩ | ⟨b', hb', -⟩
      · rw [he, he'] at hsame
        rw [hresult, hresult', heffect, heffect', Except.error.inj hsame]
        exact ⟨rfl, hnext.inside⟩
      · rw [he, hb'] at hsame
        cases hsame
    · rcases hcases fs' hfs.region' with ⟨e', he', -⟩ | ⟨b', hb', -, hresult', heffect'⟩
      · rw [hb, he'] at hsame
        cases hsame
      · rw [hb, hb'] at hsame
        cases hsame
        rw [hresult, hresult', heffect, heffect']
        exact ⟨(hf b hQ).result _ _ hnext, (hf b hQ).inside _ _ hnext⟩
  refine ⟨?_, ?_, ?_, fun fs fs' hfs => (hboth fs fs' hfs).1, fun fs fs' hfs => (hboth fs fs' hfs).2⟩
  · intro fs hfs
    rcases hcases fs hfs with ⟨e, -, -, heffect⟩ | ⟨b, -, hQ, -, heffect⟩
    · rw [heffect]
      exact hm.outside fs hfs
    · rw [heffect, (hf b hQ).outside _ (hm.region hfs)]
      exact hm.outside fs hfs
  · intro fs hfs
    rcases hcases fs hfs with ⟨e, -, -, heffect⟩ | ⟨b, -, hQ, -, heffect⟩
    · rw [heffect]
      exact hm.links fs hfs
    · rw [heffect]
      exact (hm.links fs hfs).trans ((hf b hQ).links _ (hm.region hfs))
  · intro fs c hfs hc
    rcases hcases fs hfs with ⟨e, -, hresult, -⟩ | ⟨b, -, hQ, hresult, -⟩
    · rw [hresult] at hc
      cases hc
    · rw [hresult] at hc
      exact (hf b hQ).value _ c (hm.region hfs) hc

theorem staysIn_mapError (f : ε → ε') (h : StaysIn base Q m) : StaysIn base Q (m.mapError f) where
  outside := h.outside
  links := h.links
  value := by
    intro fs b hfs hb
    refine h.value fs b hfs ?_
    unfold mapError at hb
    cases hresult : (m fs).result with
    | error e => simp [hresult, Except.mapError] at hb
    | ok b' => simpa [hresult, Except.mapError] using hb
  result := fun fs fs' hfs => congrArg (Except.mapError f) (h.result fs fs' hfs)
  inside := h.inside

theorem staysIn_attempt (h : StaysIn base Q m) :
    StaysIn base (fun r => ∀ b, r = .ok b → Q b) (m.attempt : FileM α ε (Except ε β)) where
  outside := h.outside
  links := h.links
  value := fun fs _ hfs hr b hb => h.value fs b hfs ((Except.ok.inj hr).trans hb)
  result := fun fs fs' hfs => congrArg Except.ok (h.result fs fs' hfs)
  inside := h.inside

theorem error_of_bind (m : FileM α ε β) (f : β → FileM α ε γ) (fs : FileSystem α) (e : ε)
    (h : ((m >>= f) fs).result = .error e) :
    (m fs).result = .error e ∨ ∃ b fs', m.Returns fs b fs' ∧ (f b fs').result = .error e := by
  cases hm : (m fs).result with
  | error e' =>
      rw [bind_of_error m f fs e' hm] at h
      exact .inl (by rw [Except.error.inj h])
  | ok b =>
      rw [bind_of_ok m f fs b _ ⟨hm, rfl⟩] at h
      exact .inr ⟨b, _, ⟨hm, rfl⟩, h⟩

theorem error_of_mapError (m : FileM α ε β) (f : ε → ε') (fs : FileSystem α) (e : ε')
    (h : (m.mapError f fs).result = .error e) : ∃ e', f e' = e := by
  unfold mapError at h
  cases hm : (m fs).result with
  | ok b => simp [hm, Except.mapError] at h
  | error e' =>
      simp only [hm, Except.mapError, Except.error.injEq] at h
      exact ⟨e', h⟩

theorem forEach_cons_of_error (f : β → FileM α ε γ) (x : β) (xs : List β) (fs : FileSystem α) (e : ε)
    (h : (f x fs).result = .error e) : SameEnd (forEach f (x :: xs) fs) ⟨.error e, (f x fs).fs, []⟩ :=
  sameEnd_bind_of_error _ _ fs e h

theorem forEach_cons_of_ok (f : β → FileM α ε γ) (x : β) (xs : List β) (fs fs' : FileSystem α) (y : γ)
    (h : (f x).Returns fs y fs') :
    SameEnd (forEach f (x :: xs) fs) ⟨(forEach f xs fs').result.map (y :: ·), (forEach f xs fs').fs, []⟩ := by
  refine (sameEnd_bind_of_ok _ _ fs y fs' h).trans ?_
  cases hrest : (forEach f xs fs').result with
  | error e => exact sameEnd_bind_of_error _ _ fs' e hrest
  | ok ys => exact sameEnd_bind_of_ok _ _ fs' ys _ ⟨hrest, rfl⟩

theorem StaysIn.congr {m' : FileM α ε β} (h : StaysIn base Q m)
    (hsame : ∀ fs : FileSystem α, fs.Region base → SameEnd (m' fs) (m fs)) : StaysIn base Q m' where
  outside := fun fs hfs => by rw [(hsame fs hfs).1]; exact h.outside fs hfs
  links := fun fs hfs => by rw [(hsame fs hfs).1]; exact h.links fs hfs
  value := fun fs b hfs hb => h.value fs b hfs ((hsame fs hfs).2.symm.trans hb)
  result := fun fs fs' hfs => by
    rw [(hsame fs hfs.region).2, (hsame fs' hfs.region').2]
    exact h.result fs fs' hfs
  inside := fun fs fs' hfs => by
    rw [(hsame fs hfs.region).1, (hsame fs' hfs.region').1]
    exact h.inside fs fs' hfs

theorem catchError_of_ok (m : FileM α ε β) (handler : ε → FileM α ε β) (fs : FileSystem α) (b : β)
    (h : (m fs).result = .ok b) : m.catchError handler fs = m fs := by
  simp only [catchError, h]

theorem catchError_of_error (m : FileM α ε β) (handler : ε → FileM α ε β) (fs : FileSystem α) (e : ε)
    (h : (m fs).result = .error e) : SameEnd (m.catchError handler fs) (handler e (m fs).fs) := by
  simp only [catchError, h]
  exact ⟨rfl, rfl⟩

/-- The end of a `try`. -/
def orHandle (handler : ε → FileM α ε β) : Except ε β → FileM α ε β
  | .ok b => pure b
  | .error e => handler e

theorem catchError_eq (m : FileM α ε β) (handler : ε → FileM α ε β) (fs : FileSystem α) :
    SameEnd (m.catchError handler fs) ((m.attempt >>= orHandle handler) fs) := by
  rw [bind_of_ok _ _ _ (m fs).result (m fs).fs ⟨rfl, rfl⟩]
  cases hresult : (m fs).result with
  | ok b =>
      rw [catchError_of_ok m handler fs b hresult]
      exact ⟨rfl, hresult⟩
  | error e => exact catchError_of_error m handler fs e hresult

theorem staysIn_catchError {handler : ε → FileM α ε β} (h : StaysIn base Q m)
    (hhandler : ∀ e, StaysIn base Q (handler e)) : StaysIn base Q (m.catchError handler) := by
  refine StaysIn.congr ?_ fun fs _ => catchError_eq m handler fs
  refine staysIn_bind (staysIn_attempt h) ?_
  intro r hr
  cases r with
  | ok b => exact staysIn_pure (hr b rfl)
  | error e => exact hhandler e

theorem staysIn_forEach {f : β → FileM α ε γ} (xs : List β) (hf : ∀ x ∈ xs, StaysIn base Q' (f x)) :
    StaysIn base (fun ys => ∀ y ∈ ys, Q' y) (forEach f xs) := by
  induction xs with
  | nil => exact staysIn_pure (by simp)
  | cons x xs ih =>
      refine staysIn_bind (hf x List.mem_cons_self) ?_
      intro y hy
      refine staysIn_bind (ih fun x' hx' => hf x' (List.mem_cons_of_mem x hx')) ?_
      intro ys hys
      exact staysIn_pure (List.forall_mem_cons.mpr ⟨hy, hys⟩)

theorem staysIn_ite {c : Prop} [Decidable c] {m' : FileM α ε β} (h : c → StaysIn base Q m)
    (h' : ¬c → StaysIn base Q m') : StaysIn base Q (if c then m else m') := by
  split
  · rename_i hc
    exact h hc
  · rename_i hc
    exact h' hc

section Operations

variable (lim : LinkLimits) {p : Location}

theorem staysIn_resolve (p : List String) :
    StaysIn base (fun l : Location => ".." ∉ l) (resolve lim p : FileM α OsError Location) := by
  refine .of_keeps (keeps_resolve lim p) ?_ ?_
  · intro fs l _ hl
    have hret := (returns_resolve lim fs fs p l).mp ⟨hl, keeps_resolve lim p fs⟩
    exact (fs.resolve_resolved lim p l hret.1).noUp
  · intro fs fs' hfs
    unfold resolve
    rw [hfs.links.resolve lim p]
    cases fs'.resolve lim p <;> rfl

/-- A path below the directory by names. -/
def Inner (base p : Location) : Prop := base <+: p ∧ ".." ∉ p

theorem Inner.snoc {c : String} (h : Inner base p) (hc : c ≠ "..") : Inner base (p ++ [c]) :=
  ⟨h.1.trans (List.prefix_append p [c]), by simpa [h.2] using hc.symm⟩

variable {fs fs' : FileSystem α}

theorem Inner.locate (h : Inner base p) (hfs : fs.Region base) :
    fs.locate lim p = (fs.get? p).map fun node => (p, node) :=
  fs.locate_of_resolved lim p (hfs.resolved_below h.1 h.2)

theorem Inner.locate_agree (h : Inner base p) (hfs : fs.AgreeOn fs' base) :
    fs.locate lim p = fs'.locate lim p := by
  rw [h.locate lim hfs.region, h.locate lim hfs.region', hfs.get? h.1]

theorem staysIn_pathExists (h : Inner base p) :
    StaysIn base (fun _ => True) (pathExists lim p : FileM α ε Bool) := by
  refine .of_keeps (keeps_pathExists lim p) (fun _ _ _ _ => trivial) ?_
  intro fs fs' hfs
  unfold pathExists
  rw [h.locate_agree lim hfs]
  cases fs'.locate lim p <;> rfl

theorem staysIn_stat (h : Inner base p) :
    StaysIn base (fun _ => True) (stat lim p : FileM α OsError (Node α)) := by
  refine .of_keeps (stat_keeps lim p) (fun _ _ _ _ => trivial) ?_
  intro fs fs' hfs
  unfold stat
  rw [h.locate_agree lim hfs]
  cases fs'.locate lim p <;> rfl

theorem staysIn_isDir (h : Inner base p) :
    StaysIn base (fun _ => True) (isDir lim p : FileM α ε Bool) := by
  refine .of_keeps ?_ (fun _ _ _ _ => trivial) ?_
  · intro fs
    unfold isDir
    cases fs.locate lim p <;> rfl
  · intro fs fs' hfs
    unfold isDir
    rw [h.locate_agree lim hfs]
    cases fs'.locate lim p <;> rfl

theorem staysIn_readFile (h : Inner base p) :
    StaysIn base (fun _ => True) (readFile lim p : FileM α OsError α) := by
  refine .of_keeps ?_ (fun _ _ _ _ => trivial) ?_
  · intro fs
    unfold readFile
    split <;> rfl
  · intro fs fs' hfs
    unfold readFile
    rw [h.locate_agree lim hfs]
    split <;> rfl

theorem staysIn_listdir (h : Inner base p) :
    StaysIn base (fun ns => ∀ n ∈ ns, ProperName n) (listdir lim p : FileM α OsError (List String)) := by
  refine .of_keeps ?_ ?_ ?_
  · intro fs
    unfold listdir
    split <;> rfl
  · intro fs ns hfs hns n hn
    unfold listdir at hns
    split at hns
    · cases hns
    · cases hns
      exact fs.properName_of_mem_names _ n hn
    · cases hns
  · intro fs fs' hfs
    unfold listdir
    rw [h.locate lim hfs.region, h.locate lim hfs.region', hfs.get? h.1]
    cases fs'.get? p with
    | none => rfl
    | some node =>
        cases node with
        | dir => exact congrArg Except.ok (hfs.names h.1)
        | file _ | link _ => rfl

theorem StaysIn.of_outcome (m : FileM α ε β)
    (houtside : ∀ fs : FileSystem α, fs.Region base →
      (m fs).fs.outside base = fs.outside base ∧ fs.SameLinks (m fs).fs)
    (hagree : ∀ fs fs' : FileSystem α, fs.AgreeOn fs' base →
      (m fs).result = (m fs').result ∧ (m fs).fs.inside base = (m fs').fs.inside base) :
    StaysIn base (fun _ => True) m where
  outside := fun fs hfs => (houtside fs hfs).1
  links := fun fs hfs => (houtside fs hfs).2
  value := fun _ _ _ _ => trivial
  result := fun fs fs' hfs => (hagree fs fs' hfs).1
  inside := fun fs fs' hfs => (hagree fs fs' hfs).2

variable {c : String}

theorem Inner.locateCreat (h : Inner base p) (hc : c ≠ "..") (hfs : fs.Region base) :
    fs.locateCreat lim (p ++ [c]) = if fs.isDirAt p then some (p ++ [c]) else none := by
  have hres := hfs.resolved_below (h.snoc hc).1 (h.snoc hc).2
  split
  · rename_i hdir
    exact fs.locateCreat_of_dir lim p c hres hdir
  · rename_i hdir
    cases hl : fs.locateCreat lim (p ++ [c]) with
    | none => rfl
    | some l =>
        have hparent := fs.isDirAt_of_locateCreat lim _ l hl
        rw [fs.locateCreat_eq lim _ l hres hl, List.dropLast_concat] at hparent
        exact absurd hparent hdir

theorem staysIn_writeFile (h : Inner base p) (hc : c ≠ "..") (content : α) :
    StaysIn base (fun _ => True) (writeFile lim (p ++ [c]) content) := by
  have hin := (h.snoc hc).1
  have hcases : ∀ fs : FileSystem α, fs.Region base →
      (fs.isDirAt p = false ∧ writeFile lim (p ++ [c]) content fs = ⟨.error .notFound, fs, []⟩) ∨
      (fs.isDirAt p = true ∧ fs.isDirAt (p ++ [c]) = true ∧
        writeFile lim (p ++ [c]) content fs = ⟨.error .isADirectory, fs, []⟩) ∨
      (fs.isDirAt p = true ∧ fs.isDirAt (p ++ [c]) = false ∧
        ∃ hput : fs.Puttable (p ++ [c]) (.file content), (writeFile lim (p ++ [c]) content fs).result = .ok () ∧
          (writeFile lim (p ++ [c]) content fs).fs = fs.put (p ++ [c]) (.file content) hput) := by
    intro fs hfs
    have hcreat := h.locateCreat lim hc hfs
    cases hdir : fs.isDirAt p with
    | false =>
        rw [hdir, if_neg Bool.false_ne_true] at hcreat
        exact .inl ⟨rfl, by simp only [writeFile, hcreat]⟩
    | true =>
        rw [hdir, if_pos rfl] at hcreat
        cases hchild : fs.isDirAt (p ++ [c]) with
        | true => exact .inr (.inl ⟨rfl, rfl, by simp [writeFile, hcreat, hchild]⟩)
        | false =>
            have hboth : fs.isDirAt (p ++ [c]).dropLast = true ∧ fs.isDirAt (p ++ [c]) = false :=
              ⟨by rw [List.dropLast_concat]; exact hdir, hchild⟩
            refine .inr (.inr ⟨rfl, rfl, ⟨hboth.1, by simp [hchild]⟩, ?_, ?_⟩)
            · simp only [writeFile, hcreat, dif_pos hboth]
            · simp only [writeFile, hcreat, dif_pos hboth]
  apply StaysIn.of_outcome
  · intro fs hfs
    rcases hcases fs hfs with ⟨-, heq⟩ | ⟨-, -, heq⟩ | ⟨-, -, hput, -, heq⟩
    · rw [heq]
      exact ⟨rfl, FileSystem.SameLinks.refl fs⟩
    · rw [heq]
      exact ⟨rfl, FileSystem.SameLinks.refl fs⟩
    · rw [heq]
      exact ⟨FileSystem.outside_put hin _ hput, hfs.sameLinks_put hin hput rfl⟩
  · intro fs fs' hfs
    have hdir := hfs.isDirAt h.1
    have hchild := hfs.isDirAt hin
    rcases hcases fs hfs.region with ⟨h₁, heq⟩ | ⟨h₁, h₂, heq⟩ | ⟨h₁, h₂, hput, hok, heq⟩ <;>
      rcases hcases fs' hfs.region' with ⟨h₁', heq'⟩ | ⟨h₁', h₂', heq'⟩ | ⟨h₁', h₂', hput', hok', heq'⟩ <;>
      simp only [h₁, h₁', reduceCtorEq] at hdir <;> try simp only [h₂, h₂', reduceCtorEq] at hchild
    · rw [heq, heq']
      exact ⟨rfl, hfs.inside⟩
    · rw [heq, heq']
      exact ⟨rfl, hfs.inside⟩
    · rw [hok, hok', heq, heq', FileSystem.inside_put hin, FileSystem.inside_put hin, hfs.inside]
      exact ⟨rfl, rfl⟩

theorem Inner.entry (h : Inner base p) (hfs : fs.Region base) :
    fs.locateEntry lim p = if fs.isDirAt p.dropLast then some p else none := by
  have hne : p ≠ [] := by
    rintro rfl
    exact hfs.ne_root (List.prefix_nil.mp h.1)
  have hres := (hfs.resolved_below h.1 h.2).dropLast
  have hlast : p.getLast hne ≠ ".." := fun heq => h.2 (heq ▸ List.getLast_mem hne)
  have hentry := fs.locateEntry_of_resolved lim p.dropLast (p.getLast hne) hlast hres
  rwa [List.dropLast_append_getLast hne] at hentry

theorem staysIn_mkdir (h : Inner base p) :
    StaysIn base (fun _ => True) (mkdir lim p : FileM α OsError Unit) := by
  have hcases : ∀ fs : FileSystem α, fs.Region base →
      (fs.isDirAt p.dropLast = false ∧ mkdir lim p fs = ⟨.error .notFound, fs, []⟩) ∨
      (fs.isDirAt p.dropLast = true ∧ (fs.get? p).isSome = true ∧
        mkdir lim p fs = ⟨.error .fileExists, fs, []⟩) ∨
      (fs.isDirAt p.dropLast = true ∧ (fs.get? p).isSome = false ∧
        ∃ hput : fs.Puttable p .dir, mkdir lim p fs = ⟨.ok (), fs.put p .dir hput, [.create p]⟩) := by
    intro fs hfs
    have hentry := h.entry lim hfs
    cases hdir : fs.isDirAt p.dropLast with
    | false =>
        rw [hdir, if_neg Bool.false_ne_true] at hentry
        exact .inl ⟨rfl, by simp only [mkdir, hentry]⟩
    | true =>
        rw [hdir, if_pos rfl] at hentry
        cases hnode : fs.get? p with
        | some node => exact .inr (.inl ⟨rfl, rfl, by simp [mkdir, hentry, hnode]⟩)
        | none =>
            refine .inr (.inr ⟨rfl, rfl, ⟨hdir, fun _ => rfl⟩, ?_⟩)
            simp only [mkdir, hentry, dif_pos (And.intro hdir hnode)]
  apply StaysIn.of_outcome
  · intro fs hfs
    rcases hcases fs hfs with ⟨-, heq⟩ | ⟨-, -, heq⟩ | ⟨-, -, hput, heq⟩
    · rw [heq]
      exact ⟨rfl, FileSystem.SameLinks.refl fs⟩
    · rw [heq]
      exact ⟨rfl, FileSystem.SameLinks.refl fs⟩
    · rw [heq]
      exact ⟨FileSystem.outside_put h.1 _ hput, hfs.sameLinks_put h.1 hput rfl⟩
  · intro fs fs' hfs
    have hdir := hfs.isDirAt_dropLast h.1
    have hnode := congrArg Option.isSome (hfs.get? h.1)
    rcases hcases fs hfs.region with ⟨h₁, heq⟩ | ⟨h₁, h₂, heq⟩ | ⟨h₁, h₂, hput, heq⟩ <;>
      rcases hcases fs' hfs.region' with ⟨h₁', heq'⟩ | ⟨h₁', h₂', heq'⟩ | ⟨h₁', h₂', hput', heq'⟩ <;>
      simp only [h₁, h₁', reduceCtorEq] at hdir <;> try simp only [h₂, h₂', reduceCtorEq] at hnode
    · rw [heq, heq']
      exact ⟨rfl, hfs.inside⟩
    · rw [heq, heq']
      exact ⟨rfl, hfs.inside⟩
    · rw [heq, heq']
      refine ⟨rfl, ?_⟩
      rw [FileSystem.inside_put h.1, FileSystem.inside_put h.1, hfs.inside]

/-- Erase the entry that a path names, unless the object is refused. -/
def eraseEntry (refusal : Option (Node α) → Option OsError) (p : List String) : FileM α OsError Unit := fun fs =>
  match fs.locateEntry lim p with
  | none => ⟨.error .notFound, fs, []⟩
  | some l =>
      match refusal (fs.get? l) with
      | some e => ⟨.error e, fs, []⟩
      | none => ⟨.ok (), fs.erase l, []⟩

theorem staysIn_eraseEntry (h : Inner base p) (refusal : Option (Node α) → Option OsError) :
    StaysIn base (fun _ => True) (eraseEntry lim refusal p) := by
  apply StaysIn.of_outcome
  · intro fs hfs
    unfold eraseEntry
    rw [h.entry lim hfs]
    cases fs.isDirAt p.dropLast with
    | false => exact ⟨rfl, FileSystem.SameLinks.refl fs⟩
    | true =>
        simp only [if_true]
        cases refusal (fs.get? p) with
        | some e => exact ⟨rfl, FileSystem.SameLinks.refl fs⟩
        | none => exact ⟨FileSystem.outside_erase h.1, hfs.sameLinks_erase h.1⟩
  · intro fs fs' hfs
    unfold eraseEntry
    rw [h.entry lim hfs.region, h.entry lim hfs.region', hfs.isDirAt_dropLast h.1]
    cases fs'.isDirAt p.dropLast with
    | false => exact ⟨rfl, hfs.inside⟩
    | true =>
        simp only [if_true, hfs.get? h.1]
        cases refusal (fs'.get? p) with
        | some e => exact ⟨rfl, hfs.inside⟩
        | none =>
            refine ⟨rfl, ?_⟩
            dsimp only
            rw [FileSystem.inside_erase, FileSystem.inside_erase, hfs.inside]

/-- Why `os.remove` refuses an object. -/
def removeRefusal : Option (Node α) → Option OsError
  | none => some .notFound
  | some .dir => some .isADirectory
  | some _ => none

/-- Why `shutil.rmtree` refuses an object. -/
def rmtreeRefusal : Option (Node α) → Option OsError
  | none => some .notFound
  | some .dir => none
  | some _ => some .notADirectory

theorem staysIn_remove (h : Inner base p) :
    StaysIn base (fun _ => True) (remove lim p : FileM α OsError Unit) := by
  refine (staysIn_eraseEntry lim h removeRefusal).congr ?_
  intro fs _
  unfold remove eraseEntry
  cases fs.locateEntry lim p with
  | none => exact ⟨rfl, rfl⟩
  | some l =>
      cases hnode : fs.get? l with
      | none => simp [hnode, removeRefusal, SameEnd]
      | some node => cases node <;> simp [hnode, removeRefusal, SameEnd]

theorem staysIn_rmtree (h : Inner base p) :
    StaysIn base (fun _ => True) (rmtree lim p : FileM α OsError Unit) := by
  refine (staysIn_eraseEntry lim h rmtreeRefusal).congr ?_
  intro fs hfs
  have hne : p ≠ [] := by
    rintro rfl
    exact hfs.ne_root (List.prefix_nil.mp h.1)
  unfold rmtree eraseEntry
  rw [h.entry lim hfs]
  cases fs.isDirAt p.dropLast with
  | false => exact ⟨rfl, rfl⟩
  | true =>
      cases hnode : fs.get? p with
      | none => simp [hnode, rmtreeRefusal, SameEnd]
      | some node => cases node <;> simp [hnode, hne, rmtreeRefusal, SameEnd]

variable {src dst : Location}

theorem canReplace_agree (hfs : fs.AgreeOn fs' base) (hsrc : base <+: src) (hdst : base <+: dst) :
    canReplace fs src dst = canReplace fs' src dst := by
  unfold canReplace
  rw [hfs.get? hsrc, hfs.get? hdst]

theorem vacant_agree (hfs : fs.AgreeOn fs' base) (hdst : base <+: dst) :
    (∀ e ∈ fs.tree, dst <+: e.1 → e.1 = dst) ↔ ∀ e ∈ fs'.tree, dst <+: e.1 → e.1 = dst := by
  have hinside : ∀ fs : FileSystem α, (∀ e ∈ fs.tree, dst <+: e.1 → e.1 = dst) ↔
      ∀ e ∈ fs.inside base, dst <+: e.1 → e.1 = dst := by
    intro fs
    constructor
    · exact fun hall e he => hall e (List.mem_of_mem_filter he)
    · intro hall e he hpre
      exact hall e (List.mem_filter.mpr ⟨he, decide_eq_true (hdst.trans hpre)⟩) hpre
  rw [hinside fs, hinside fs', hfs.inside]

theorem staysIn_rename (hsrc : Inner base src) (hdst : Inner base dst) :
    StaysIn base (fun _ => True) (rename lim src dst : FileM α OsError Unit) := by
  apply StaysIn.of_outcome
  · intro fs hfs
    by_cases hren : ∃ s d, Renames lim fs src dst s d
    · obtain ⟨s, d, hren⟩ := hren
      have hs : s = src := by
        have hentry := hren.source
        rw [hsrc.entry lim hfs] at hentry
        split at hentry
        · exact (Option.some.inj hentry).symm
        · cases hentry
      have hd : d = dst := by
        have hentry := hren.target
        rw [hdst.entry lim hfs] at hentry
        split at hentry
        · exact (Option.some.inj hentry).symm
        · cases hentry
      subst hs hd
      rw [rename_of_renames lim fs _ _ _ _ hren]
      exact ⟨FileSystem.outside_move hren.movable hsrc.1 hdst.1,
        hfs.sameLinks_move hren.movable hsrc.1 hdst.1⟩
    · rw [(rename_of_not_renames lim fs src dst fun s d h => hren ⟨s, d, h⟩).1]
      exact ⟨rfl, FileSystem.SameLinks.refl fs⟩
  · intro fs fs' hfs
    have hmovable : ((fs.get? src).isSome = true ∧ fs.isDirAt dst.dropLast = true ∧
        ∀ e ∈ fs.tree, dst <+: e.1 → e.1 = dst) ↔ ((fs'.get? src).isSome = true ∧
        fs'.isDirAt dst.dropLast = true ∧ ∀ e ∈ fs'.tree, dst <+: e.1 → e.1 = dst) := by
      rw [hfs.get? hsrc.1, hfs.isDirAt_dropLast hdst.1, vacant_agree hfs hdst.1]
    unfold rename
    rw [hsrc.entry lim hfs.region, hsrc.entry lim hfs.region', hfs.isDirAt_dropLast hsrc.1,
      hdst.entry lim hfs.region, hdst.entry lim hfs.region', hfs.isDirAt_dropLast hdst.1]
    cases fs'.isDirAt src.dropLast with
    | false => exact ⟨rfl, hfs.inside⟩
    | true =>
        cases hparent : fs'.isDirAt dst.dropLast with
        | false => exact ⟨rfl, hfs.inside⟩
        | true =>
            simp only [if_true, canReplace_agree hfs hsrc.1 hdst.1]
            split
            · exact ⟨rfl, hfs.inside⟩
            · split
              · exact ⟨rfl, hfs.inside⟩
              · split
                · exact ⟨rfl, hfs.inside⟩
                · split
                  · exact ⟨rfl, hfs.inside⟩
                  · by_cases hmove : (fs.get? src).isSome = true ∧ fs.isDirAt dst.dropLast = true ∧
                        ∀ e ∈ fs.tree, dst <+: e.1 → e.1 = dst
                    · have hmove' := hmovable.mp hmove
                      rw [dif_pos hmove, dif_pos hmove']
                      refine ⟨rfl, ?_⟩
                      dsimp only
                      rw [FileSystem.inside_move _ hsrc.1 hdst.1, FileSystem.inside_move _ hsrc.1 hdst.1,
                        hfs.inside]
                    · rw [dif_neg hmove, dif_neg fun h => hmove (hmovable.mpr h)]
                      exact ⟨rfl, hfs.inside⟩

end Operations

end FileM
