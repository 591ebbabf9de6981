import NetworkFileServer.Framework.FileUpdate

/-!
# Programs over a file system

A program reads and changes a file system and returns or fails; it leaves the file system behind in
both cases. The log names every object that it reads, writes, creates, moves or removes, by the
location at which the object is. Looking up the components of a path is not in the log.
-/

/-- Why an operation of the operating system fails. `notFound` is the end of every path that leads
nowhere: a name that is missing, a name below a file, a loop of links. -/
inductive OsError where
  | notFound
  | notADirectory
  | isADirectory
  | fileExists
  | notEmpty
  | invalid
  | busy
  | nameTooLong
deriving DecidableEq, Repr

inductive Access where
  | read (l : Location)
  | write (l : Location)
  | create (l : Location)
  | remove (l : Location)
  | move (src dst : Location)
deriving DecidableEq, Repr

/-- The access stays at or below a directory, and does not move the directory. -/
def Access.Within (base : Location) : Access → Prop
  | .read l | .write l | .create l | .remove l => base <+: l
  | .move src dst => base <+: src ∧ base <+: dst ∧ src ≠ base

instance Access.decidableWithin (base : Location) (a : Access) : Decidable (a.Within base) :=
  match a with
  | .read l | .write l | .create l | .remove l => inferInstanceAs (Decidable (base <+: l))
  | .move src dst => inferInstanceAs (Decidable (base <+: src ∧ base <+: dst ∧ src ≠ base))

structure Outcome (α ε β : Type) where
  result : Except ε β
  fs : FileSystem α
  log : List Access

def FileM (α ε β : Type) := FileSystem α → Outcome α ε β

namespace FileM

variable {α ε ε' β γ : Type}

protected def pure (b : β) : FileM α ε β := fun fs => ⟨.ok b, fs, []⟩

protected def bind (m : FileM α ε β) (f : β → FileM α ε γ) : FileM α ε γ := fun fs =>
  match (m fs).result with
  | .error e => ⟨.error e, (m fs).fs, (m fs).log⟩
  | .ok b =>
      let next := f b (m fs).fs
      ⟨next.result, next.fs, (m fs).log ++ next.log⟩

instance : Monad (FileM α ε) where
  pure := FileM.pure
  bind := FileM.bind

def fail (e : ε) : FileM α ε β := fun fs => ⟨.error e, fs, []⟩

def mapError (f : ε → ε') (m : FileM α ε β) : FileM α ε' β := fun fs =>
  ⟨(m fs).result.mapError f, (m fs).fs, (m fs).log⟩

/-- `try … except`: the handler goes on where the program has failed. -/
def catchError (m : FileM α ε β) (handler : ε → FileM α ε β) : FileM α ε β := fun fs =>
  match (m fs).result with
  | .ok _ => m fs
  | .error e =>
      let next := handler e (m fs).fs
      ⟨next.result, next.fs, (m fs).log ++ next.log⟩

/-- The result or the error of a program. -/
def attempt (m : FileM α ε β) : FileM α ε (Except ε β) := fun fs => ⟨.ok (m fs).result, (m fs).fs, (m fs).log⟩

/-- Run a program for each element, in order, up to the first failure. -/
def forEach (f : β → FileM α ε γ) : List β → FileM α ε (List γ)
  | [] => pure []
  | x :: xs => do
      let y ← f x
      let ys ← forEach f xs
      pure (y :: ys)

/-- Every access of the program, run on `fs`, satisfies `P`. -/
def Logs (P : Access → Prop) (m : FileM α ε β) (fs : FileSystem α) : Prop := ∀ a ∈ (m fs).log, P a

/-- The program, run on `fs`, returns `b` and leaves `fs'`. -/
def Returns (m : FileM α ε β) (fs : FileSystem α) (b : β) (fs' : FileSystem α) : Prop :=
  (m fs).result = .ok b ∧ (m fs).fs = fs'

/-- The program changes nothing, whether it returns or fails. -/
def Keeps (m : FileM α ε β) : Prop := ∀ fs, (m fs).fs = fs

/-- What the program, run on `fs`, leaves behind satisfies `Q`, whether it returns or fails. -/
def Leaves (Q : FileSystem α → Prop) (m : FileM α ε β) (fs : FileSystem α) : Prop := Q (m fs).fs

section Rules

variable (P : Access → Prop) (m : FileM α ε β) (f : β → FileM α ε γ) (fs : FileSystem α)

theorem bind_of_ok (b : β) (fs' : FileSystem α) (h : m.Returns fs b fs') :
    (m >>= f) fs = ⟨(f b fs').result, (f b fs').fs, (m fs).log ++ (f b fs').log⟩ := by
  change FileM.bind m f fs = _
  simp only [FileM.bind, h.1, h.2]

theorem bind_of_error (e : ε) (h : (m fs).result = .error e) :
    (m >>= f) fs = ⟨.error e, (m fs).fs, (m fs).log⟩ := by
  change FileM.bind m f fs = _
  simp only [FileM.bind, h]

/-- The same outcome, but for the log. -/
def SameEnd (o o' : Outcome α ε β) : Prop := o.fs = o'.fs ∧ o.result = o'.result

theorem SameEnd.trans {o o' o'' : Outcome α ε β} (h : SameEnd o o') (h' : SameEnd o' o'') : SameEnd o o'' :=
  ⟨h.1.trans h'.1, h.2.trans h'.2⟩

theorem sameEnd_bind_of_ok (b : β) (fs' : FileSystem α) (h : m.Returns fs b fs') :
    SameEnd ((m >>= f) fs) (f b fs') := by
  rw [bind_of_ok m f fs b fs' h]
  exact ⟨rfl, rfl⟩

theorem sameEnd_bind_of_error (e : ε) (h : (m fs).result = .error e) :
    SameEnd ((m >>= f) fs) ⟨.error e, (m fs).fs, []⟩ := by
  rw [bind_of_error m f fs e h]
  exact ⟨rfl, rfl⟩

theorem bind_fs_of_keeps (h : ∀ b, Keeps (f b)) : ((m >>= f) fs).fs = (m fs).fs := by
  cases hm : (m fs).result with
  | error e => rw [bind_of_error m f fs e hm]
  | ok b =>
      rw [bind_of_ok m f fs b _ ⟨hm, rfl⟩]
      exact h b _

@[simp] theorem logs_pure (b : β) : Logs P (pure b : FileM α ε β) fs := by
  intro a ha
  cases ha

@[simp] theorem logs_fail (e : ε) : Logs P (fail e : FileM α ε β) fs := by
  intro a ha
  cases ha

theorem logs_bind :
    Logs P (m >>= f) fs ↔ Logs P m fs ∧ ∀ b fs', m.Returns fs b fs' → Logs P (f b) fs' := by
  cases h : (m fs).result with
  | error e =>
      rw [Logs, bind_of_error m f fs e h]
      constructor
      · intro hlog
        refine ⟨hlog, ?_⟩
        intro b fs' hret
        rw [hret.1] at h
        cases h
      · exact fun hlog => hlog.1
  | ok b =>
      rw [Logs, bind_of_ok m f fs b _ ⟨h, rfl⟩]
      constructor
      · intro hlog
        refine ⟨fun a ha => hlog a (List.mem_append_left _ ha), ?_⟩
        rintro b' fs' ⟨hb, rfl⟩ a ha
        rw [h] at hb
        cases hb
        exact hlog a (List.mem_append_right _ ha)
      · rintro ⟨hm, hf⟩ a ha
        rcases List.mem_append.mp ha with ha | ha
        · exact hm a ha
        · exact hf b _ ⟨h, rfl⟩ a ha

theorem logs_bind_of_returns (b : β) (fs' : FileSystem α) (h : m.Returns fs b fs') :
    Logs P (m >>= f) fs ↔ Logs P m fs ∧ Logs P (f b) fs' := by
  rw [logs_bind]
  refine and_congr_right fun _ => ?_
  constructor
  · exact fun hf => hf b fs' h
  · intro hf b' fs₁ h'
    have hb : b' = b := Except.ok.inj (h'.1.symm.trans h.1)
    have hfs : fs₁ = fs' := h'.2.symm.trans h.2
    rw [hb, hfs]
    exact hf

@[simp] theorem logs_mapError (g : ε → ε') : Logs P (m.mapError g) fs ↔ Logs P m fs := Iff.rfl

@[simp] theorem returns_pure (b c : β) (fs' : FileSystem α) :
    Returns (pure b : FileM α ε β) fs c fs' ↔ b = c ∧ fs = fs' := by
  change Except.ok b = Except.ok c ∧ fs = fs' ↔ _
  simp

@[simp] theorem returns_fail (e : ε) (c : β) (fs' : FileSystem α) :
    ¬Returns (fail e : FileM α ε β) fs c fs' := by
  rintro ⟨h, -⟩
  cases h

theorem returns_bind (c : γ) (fs'' : FileSystem α) :
    (m >>= f).Returns fs c fs'' ↔ ∃ b fs', m.Returns fs b fs' ∧ (f b).Returns fs' c fs'' := by
  cases h : (m fs).result with
  | error e =>
      rw [Returns, bind_of_error m f fs e h]
      constructor
      · rintro ⟨hok, -⟩
        cases hok
      · rintro ⟨b, fs', hret, -⟩
        rw [hret.1] at h
        cases h
  | ok b =>
      rw [Returns, bind_of_ok m f fs b _ ⟨h, rfl⟩]
      constructor
      · intro hret
        exact ⟨b, _, ⟨h, rfl⟩, hret⟩
      · rintro ⟨b', fs', ⟨hb, rfl⟩, hret⟩
        rw [h] at hb
        cases hb
        exact hret

theorem returns_bind_of_returns (b : β) (fs' : FileSystem α) (h : m.Returns fs b fs') (c : γ)
    (fs'' : FileSystem α) : (m >>= f).Returns fs c fs'' ↔ (f b).Returns fs' c fs'' := by
  rw [Returns, bind_of_ok m f fs b fs' h]
  rfl

@[simp] theorem returns_mapError (g : ε → ε') (b : β) (fs' : FileSystem α) :
    (m.mapError g).Returns fs b fs' ↔ m.Returns fs b fs' := by
  unfold Returns mapError
  cases (m fs).result <;> simp [Except.mapError]

theorem logs_forEach_cons (x : β) (xs : List β) :
    Logs P (forEach f (x :: xs)) fs ↔
      Logs P (f x) fs ∧ ∀ y fs', (f x).Returns fs y fs' → Logs P (forEach f xs) fs' := by
  have hrest : ∀ y fs', Logs P (forEach f xs >>= fun ys => pure (y :: ys)) fs' ↔
      Logs P (forEach f xs) fs' := by
    intro y fs'
    rw [logs_bind]
    simp
  rw [forEach, logs_bind]
  simp only [hrest]

theorem returns_forEach_cons (x : β) (xs : List β) (zs : List γ) (fs'' : FileSystem α) :
    (forEach f (x :: xs)).Returns fs zs fs'' ↔
      ∃ y ys fs', (f x).Returns fs y fs' ∧ (forEach f xs).Returns fs' ys fs'' ∧ zs = y :: ys := by
  rw [forEach, returns_bind]
  constructor
  · rintro ⟨y, fs', hy, hrest⟩
    obtain ⟨ys, fs₁, hys, hpure⟩ := (returns_bind _ _ _ _ _).mp hrest
    obtain ⟨rfl, rfl⟩ := (returns_pure _ _ _ _).mp hpure
    exact ⟨y, ys, fs', hy, hys, rfl⟩
  · rintro ⟨y, ys, fs', hy, hys, rfl⟩
    exact ⟨y, fs', hy, (returns_bind _ _ _ _ _).mpr ⟨ys, fs'', hys, by simp⟩⟩

theorem logs_forEach_of_returns (xs : List β) (h : ∀ x ∈ xs, ∃ y, (f x).Returns fs y fs) :
    Logs P (forEach f xs) fs ↔ ∀ x ∈ xs, Logs P (f x) fs := by
  induction xs with
  | nil => simp [forEach]
  | cons x xs ih =>
      obtain ⟨y, hy⟩ := h x List.mem_cons_self
      have hxs := ih fun x' hx' => h x' (List.mem_cons_of_mem _ hx')
      rw [logs_forEach_cons, List.forall_mem_cons, ← hxs]
      refine and_congr_right fun _ => ?_
      constructor
      · exact fun hrest => hrest y fs hy
      · intro hrest y' fs' hy'
        have hfs : fs' = fs := hy'.2.symm.trans hy.2
        rw [hfs]
        exact hrest

theorem returns_forEach_of_returns (xs : List β) (h : ∀ x ∈ xs, ∃ y, (f x).Returns fs y fs) :
    ∃ ys, (forEach f xs).Returns fs ys fs := by
  induction xs with
  | nil => exact ⟨[], by simp [forEach]⟩
  | cons x xs ih =>
      obtain ⟨y, hy⟩ := h x List.mem_cons_self
      obtain ⟨ys, hys⟩ := ih fun x' hx' => h x' (List.mem_cons_of_mem _ hx')
      exact ⟨y :: ys, (returns_forEach_cons _ _ _ _ _ _).mpr ⟨y, ys, fs, hy, hys, rfl⟩⟩

/-- Over programs that change nothing, each result of the loop is one of its programs' results. -/
theorem mem_of_returns_forEach (xs : List β) (ys : List γ) (fs' : FileSystem α)
    (hkeeps : ∀ x ∈ xs, (f x fs).fs = fs) (h : (forEach f xs).Returns fs ys fs') (y : γ) (hy : y ∈ ys) :
    ∃ x ∈ xs, (f x).Returns fs y fs := by
  induction xs generalizing ys with
  | nil =>
      obtain ⟨rfl, -⟩ := (returns_pure _ _ _ _).mp h
      cases hy
  | cons x xs ih =>
      obtain ⟨z, zs, fs₁, hz, hzs, rfl⟩ := (returns_forEach_cons _ _ _ _ _ _).mp h
      have hfs : fs = fs₁ := (hkeeps x List.mem_cons_self).symm.trans hz.2
      subst hfs
      rcases List.mem_cons.mp hy with rfl | hy
      · exact ⟨x, List.mem_cons_self, hz⟩
      · obtain ⟨x', hx', hret⟩ := ih zs (fun x' hx' => hkeeps x' (List.mem_cons_of_mem _ hx')) hzs hy
        exact ⟨x', List.mem_cons_of_mem _ hx', hret⟩

/-- Over programs that change nothing, each program has its result among those of the loop. -/
theorem returns_forEach_mem (xs : List β) (ys : List γ) (fs' : FileSystem α)
    (hkeeps : ∀ x ∈ xs, (f x fs).fs = fs) (h : (forEach f xs).Returns fs ys fs') (x : β) (hx : x ∈ xs) :
    ∃ y ∈ ys, (f x).Returns fs y fs := by
  induction xs generalizing ys with
  | nil => cases hx
  | cons first xs ih =>
      obtain ⟨z, zs, fs₁, hz, hzs, rfl⟩ := (returns_forEach_cons _ _ _ _ _ _).mp h
      have hfs : fs = fs₁ := (hkeeps first List.mem_cons_self).symm.trans hz.2
      subst hfs
      rcases List.mem_cons.mp hx with rfl | hx
      · exact ⟨z, List.mem_cons_self, hz⟩
      · obtain ⟨y, hy, hret⟩ := ih zs (fun x' hx' => hkeeps x' (List.mem_cons_of_mem _ hx')) hzs hx
        exact ⟨y, List.mem_cons_of_mem _ hy, hret⟩

@[simp] theorem keeps_pure (b : β) : Keeps (pure b : FileM α ε β) := fun _ => rfl

@[simp] theorem keeps_fail (e : ε) : Keeps (fail e : FileM α ε β) := fun _ => rfl

@[simp] theorem keeps_mapError (g : ε → ε') : Keeps (m.mapError g) ↔ Keeps m := Iff.rfl

variable {m f} in
theorem Keeps.bind (hm : Keeps m) (hf : ∀ b, Keeps (f b)) : Keeps (m >>= f) := by
  intro fs
  rw [bind_fs_of_keeps m f fs hf, hm fs]

variable (Q : FileSystem α → Prop)

theorem leaves_bind (hm : Leaves Q m fs) (hf : ∀ b fs', m.Returns fs b fs' → Leaves Q (f b) fs') :
    Leaves Q (m >>= f) fs := by
  cases h : (m fs).result with
  | error e =>
      rw [Leaves, bind_of_error m f fs e h]
      exact hm
  | ok b =>
      rw [Leaves, bind_of_ok m f fs b _ ⟨h, rfl⟩]
      exact hf b _ ⟨h, rfl⟩

theorem leaves_bind_of_keeps (hm : Keeps m) (hQ : Q fs)
    (hf : ∀ b, m.Returns fs b fs → Leaves Q (f b) fs) : Leaves Q (m >>= f) fs := by
  apply leaves_bind
  · rw [Leaves, hm fs]
    exact hQ
  · intro b fs' hret
    have hfs : fs = fs' := (hm fs).symm.trans hret.2
    subst hfs
    exact hf b hret

variable {m fs Q} in
theorem Keeps.leaves (hm : Keeps m) (hQ : Q fs) : Leaves Q m fs := by
  rw [Leaves, hm fs]
  exact hQ

theorem leaves_forEach_cons (x : β) (xs : List β) (hx : Leaves Q (f x) fs)
    (hxs : ∀ y fs', (f x).Returns fs y fs' → Leaves Q (forEach f xs) fs') :
    Leaves Q (forEach f (x :: xs)) fs := by
  rw [forEach]
  apply leaves_bind _ _ _ _ hx
  intro y fs' hret
  rw [Leaves, bind_fs_of_keeps _ _ _ fun _ => keeps_pure _]
  exact hxs y fs' hret

end Rules

section Operations

variable (lim : LinkLimits)

/-- `Path.resolve()`; a loop of links is an error. -/
def resolve (p : List String) : FileM α OsError Location := fun fs =>
  match fs.resolve lim p with
  | none => ⟨.error .notFound, fs, []⟩
  | some l => ⟨.ok l, fs, []⟩

def pathExists (p : List String) : FileM α ε Bool := fun fs =>
  match fs.locate lim p with
  | none => ⟨.ok false, fs, []⟩
  | some (l, _) => ⟨.ok true, fs, [.read l]⟩

/-- How many objects there are, a bound on the names that any directory holds. -/
def objectCount : FileM α ε Nat := fun fs => ⟨.ok fs.tree.length, fs, []⟩

/-- The object that the path leads to. -/
def stat (p : List String) : FileM α OsError (Node α) := fun fs =>
  match fs.locate lim p with
  | none => ⟨.error .notFound, fs, []⟩
  | some (l, node) => ⟨.ok node, fs, [.read l]⟩

def readFile (p : List String) : FileM α OsError α := fun fs =>
  match fs.locate lim p with
  | some (l, .file content) => ⟨.ok content, fs, [.read l]⟩
  | some (_, _) => ⟨.error .isADirectory, fs, []⟩
  | none => ⟨.error .notFound, fs, []⟩

def isDir (p : List String) : FileM α ε Bool := fun fs =>
  match fs.locate lim p with
  | none => ⟨.ok false, fs, []⟩
  | some (l, node) => ⟨.ok node.isDir, fs, [.read l]⟩

def listdir (p : List String) : FileM α OsError (List String) := fun fs =>
  match fs.locate lim p with
  | none => ⟨.error .notFound, fs, []⟩
  | some (l, .dir) => ⟨.ok (fs.names l), fs, [.read l]⟩
  | some (_, _) => ⟨.error .notADirectory, fs, []⟩

/-- `open(p, "wb")`, the whole content and `close`. -/
def writeFile (p : List String) (content : α) : FileM α OsError Unit := fun fs =>
  match fs.locateCreat lim p with
  | none => ⟨.error .notFound, fs, []⟩
  | some l =>
      if h : fs.isDirAt l.dropLast = true ∧ fs.isDirAt l = false then
        ⟨.ok (), fs.put l (.file content) ⟨h.1, by simp [h.2]⟩,
          [if (fs.get? l).isSome then .write l else .create l]⟩
      else ⟨.error .isADirectory, fs, []⟩

def mkdir (p : List String) : FileM α OsError Unit := fun fs =>
  match fs.locateEntry lim p with
  | none => ⟨.error .notFound, fs, []⟩
  | some l =>
      if h : fs.isDirAt l.dropLast = true ∧ fs.get? l = none then
        ⟨.ok (), fs.put l .dir ⟨h.1, fun _ => rfl⟩, [.create l]⟩
      else ⟨.error .fileExists, fs, []⟩

/-- `os.remove`: a link is removed itself. -/
def remove (p : List String) : FileM α OsError Unit := fun fs =>
  match fs.locateEntry lim p with
  | none => ⟨.error .notFound, fs, []⟩
  | some l =>
      match fs.get? l with
      | none => ⟨.error .notFound, fs, []⟩
      | some .dir => ⟨.error .isADirectory, fs, []⟩
      | some _ => ⟨.ok (), fs.erase l, [.remove l]⟩

/-- `shutil.rmtree`: links below the directory are removed and not followed. The root of the file
system is emptied and stays. -/
def rmtree (p : List String) : FileM α OsError Unit := fun fs =>
  match fs.locateEntry lim p with
  | none => ⟨.error .notFound, fs, []⟩
  | some l =>
      match fs.get? l with
      | none => ⟨.error .notFound, fs, []⟩
      | some .dir =>
          ⟨if l = [] then .error .busy else .ok (), fs.erase l,
            ((fs.tree.map Prod.fst).filter fun q => decide (l <+: q)).map .remove⟩
      | some _ => ⟨.error .notADirectory, fs, []⟩

/-- Whether `rename(2)` lets one object take the place of another. -/
def canReplace (fs : FileSystem α) (src dst : Location) : Except OsError Unit :=
  match fs.get? src, fs.get? dst with
  | none, _ => .error .notFound
  | some _, none => .ok ()
  | some .dir, some .dir => .ok ()
  | some .dir, some _ => .error .notADirectory
  | some _, some .dir => .error .isADirectory
  | some _, some _ => .ok ()

/-- `os.rename` and `os.replace`: neither path is followed at its last component. -/
def rename (src dst : List String) : FileM α OsError Unit := fun fs =>
  match fs.locateEntry lim src, fs.locateEntry lim dst with
  | some s, some d =>
      if s = [] ∨ d = [] then ⟨.error .busy, fs, []⟩
      else
        match canReplace fs s d with
        | .error e => ⟨.error e, fs, []⟩
        | .ok _ =>
            if s = d then ⟨.ok (), fs, []⟩
            else if hbelow : s <+: d then ⟨.error .invalid, fs, []⟩
            else if h : (fs.get? s).isSome = true ∧ fs.isDirAt d.dropLast = true ∧
                ∀ e ∈ fs.tree, d <+: e.1 → e.1 = d then
              ⟨.ok (), fs.move s d ⟨h.1, hbelow, h.2.1, h.2.2⟩, [.move s d]⟩
            else ⟨.error .notEmpty, fs, []⟩
  | _, _ => ⟨.error .notFound, fs, []⟩

section Specs

variable (P : Access → Prop) (fs fs' : FileSystem α) (p : List String)

@[simp] theorem logs_resolve : Logs P (resolve lim p) fs := by
  unfold Logs resolve
  cases fs.resolve lim p <;> simp

@[simp] theorem returns_resolve (l : Location) :
    (resolve lim p).Returns fs l fs' ↔ fs.resolve lim p = some l ∧ fs = fs' := by
  unfold Returns resolve
  cases fs.resolve lim p <;> simp

@[simp] theorem keeps_resolve : Keeps (resolve lim p : FileM α OsError Location) := by
  intro fs
  unfold resolve
  cases fs.resolve lim p <;> rfl

@[simp] theorem keeps_pathExists : Keeps (pathExists lim p : FileM α ε Bool) := by
  intro fs
  unfold pathExists
  cases fs.locate lim p <;> rfl

theorem stat_keeps : Keeps (stat lim p : FileM α OsError (Node α)) := by
  intro fs
  unfold stat
  cases fs.locate lim p <;> rfl

theorem logs_pathExists :
    Logs P (pathExists lim p : FileM α ε Bool) fs ↔
      ∀ l node, fs.locate lim p = some (l, node) → P (.read l) := by
  unfold Logs pathExists
  cases h : fs.locate lim p with
  | none => simp
  | some found => simp [Prod.ext_iff]

@[simp] theorem returns_pathExists (b : Bool) :
    (pathExists lim p : FileM α ε Bool).Returns fs b fs' ↔
      (fs.locate lim p).isSome = b ∧ fs = fs' := by
  unfold Returns pathExists
  cases h : fs.locate lim p <;> simp

theorem logs_stat :
    Logs P (stat lim p) fs ↔ ∀ l node, fs.locate lim p = some (l, node) → P (.read l) := by
  unfold Logs stat
  cases h : fs.locate lim p with
  | none => simp
  | some found => simp [Prod.ext_iff]

@[simp] theorem returns_stat (node : Node α) :
    (stat lim p).Returns fs node fs' ↔ (∃ l, fs.locate lim p = some (l, node)) ∧ fs = fs' := by
  unfold Returns stat
  cases h : fs.locate lim p with
  | none => simp
  | some found => simp [Prod.ext_iff]

theorem logs_readFile :
    Logs P (readFile lim p) fs ↔
      ∀ l content, fs.locate lim p = some (l, .file content) → P (.read l) := by
  unfold Logs readFile
  cases h : fs.locate lim p with
  | none => simp
  | some found =>
      obtain ⟨l, node⟩ := found
      cases node <;> simp

@[simp] theorem returns_readFile (content : α) :
    (readFile lim p).Returns fs content fs' ↔
      (∃ l, fs.locate lim p = some (l, .file content)) ∧ fs = fs' := by
  unfold Returns readFile
  cases h : fs.locate lim p with
  | none => simp
  | some found =>
      obtain ⟨l, node⟩ := found
      cases node <;> simp

@[simp] theorem logs_objectCount : Logs P (objectCount : FileM α ε Nat) fs := by
  intro a ha
  cases ha

@[simp] theorem returns_objectCount (n : Nat) :
    (objectCount : FileM α ε Nat).Returns fs n fs' ↔ fs.tree.length = n ∧ fs = fs' := by
  change Except.ok _ = Except.ok n ∧ fs = fs' ↔ _
  simp

theorem logs_isDir :
    Logs P (isDir lim p : FileM α ε Bool) fs ↔
      ∀ l node, fs.locate lim p = some (l, node) → P (.read l) := by
  unfold Logs isDir
  cases h : fs.locate lim p with
  | none => simp
  | some found => simp [Prod.ext_iff]

@[simp] theorem returns_isDir (b : Bool) :
    (isDir lim p : FileM α ε Bool).Returns fs b fs' ↔
      ((fs.locate lim p).any fun found => found.2.isDir) = b ∧ fs = fs' := by
  unfold Returns isDir
  cases h : fs.locate lim p <;> simp

theorem logs_listdir :
    Logs P (listdir lim p) fs ↔ ∀ l, fs.locate lim p = some (l, .dir) → P (.read l) := by
  unfold Logs listdir
  cases h : fs.locate lim p with
  | none => simp
  | some found =>
      obtain ⟨l, node⟩ := found
      cases node <;> simp

@[simp] theorem returns_listdir (ns : List String) :
    (listdir lim p).Returns fs ns fs' ↔
      (∃ l, fs.locate lim p = some (l, .dir) ∧ fs.names l = ns) ∧ fs = fs' := by
  unfold Returns listdir
  cases h : fs.locate lim p with
  | none => simp
  | some found =>
      obtain ⟨l, node⟩ := found
      cases node <;> simp

theorem logs_writeFile (content : α) :
    Logs P (writeFile lim p content) fs ↔
      ∀ l, fs.locateCreat lim p = some l → fs.isDirAt l.dropLast = true → fs.isDirAt l = false →
        P (if (fs.get? l).isSome then .write l else .create l) := by
  unfold Logs writeFile
  cases fs.locateCreat lim p with
  | none => simp
  | some l =>
      by_cases h : fs.isDirAt l.dropLast = true ∧ fs.isDirAt l = false
      · simp [h]
      · simp only [dif_neg h, Option.some.injEq]
        constructor
        · rintro - l' rfl hparent hdir
          exact absurd ⟨hparent, hdir⟩ h
        · intro _ a ha
          cases ha

theorem returns_writeFile (content : α) :
    (writeFile lim p content).Returns fs () fs' ↔
      ∃ l, fs.locateCreat lim p = some l ∧
        ∃ h : fs.Puttable l (.file content), fs.isDirAt l = false ∧
          fs' = fs.put l (.file content) h := by
  unfold Returns writeFile
  cases fs.locateCreat lim p with
  | none => simp
  | some l =>
      by_cases h : fs.isDirAt l.dropLast = true ∧ fs.isDirAt l = false
      · simp only [dif_pos h, Option.some.injEq, true_and, exists_eq_left']
        constructor
        · rintro rfl
          exact ⟨⟨h.1, by simp [h.2]⟩, h.2, rfl⟩
        · rintro ⟨-, -, rfl⟩
          rfl
      · simp only [dif_neg h, reduceCtorEq, false_and, false_iff, Option.some.injEq,
          exists_eq_left']
        rintro ⟨hput, hdir, -⟩
        exact h ⟨hput.1, hdir⟩

/-- Writing to a resolved path puts the file there if its parent is a directory and it is none, and
fails without effect otherwise. -/
theorem writeFile_of_resolved (content : α) (hres : fs.Resolved p) :
    ¬(fs.isDirAt p.dropLast = true ∧ fs.isDirAt p = false) ∧
        (∃ e, writeFile lim p content fs = ⟨.error e, fs, []⟩) ∨
      ∃ h : fs.Puttable p (.file content), fs.isDirAt p = false ∧
        (writeFile lim p content).Returns fs () (fs.put p (.file content) h) := by
  by_cases h : fs.isDirAt p.dropLast = true ∧ fs.isDirAt p = false
  · right
    have hne : p ≠ [] := by
      rintro rfl
      exact absurd h.2 (by simp [FileSystem.isDirAt_eq_true, FileSystem.get?_nil])
    have hcreat : fs.locateCreat lim p = some p := by
      have hlast := List.dropLast_append_getLast hne
      rw [← hlast] at hres ⊢
      exact fs.locateCreat_of_dir lim _ _ hres h.1
    have hput : fs.Puttable p (.file content) := ⟨h.1, by simp [h.2]⟩
    exact ⟨hput, h.2, (returns_writeFile lim fs _ p content).mpr ⟨p, hcreat, hput, h.2, rfl⟩⟩
  · left
    refine ⟨h, ?_⟩
    cases hl : fs.locateCreat lim p with
    | none => exact ⟨.notFound, by simp [writeFile, hl]⟩
    | some l =>
        have heq := fs.locateCreat_eq lim p l hres hl
        subst heq
        exact ⟨.isADirectory, by simp only [writeFile, hl, dif_neg h]⟩

theorem logs_mkdir :
    Logs P (mkdir lim p) fs ↔
      ∀ l, fs.locateEntry lim p = some l → fs.isDirAt l.dropLast = true → fs.get? l = none →
        P (.create l) := by
  unfold Logs mkdir
  cases fs.locateEntry lim p with
  | none => simp
  | some l =>
      by_cases h : fs.isDirAt l.dropLast = true ∧ fs.get? l = none
      · simp [h]
      · simp only [dif_neg h, Option.some.injEq]
        constructor
        · rintro - l' rfl hparent hnode
          exact absurd ⟨hparent, hnode⟩ h
        · intro _ a ha
          cases ha

theorem remove_of_error (e : OsError) (h : (remove lim p fs).result = .error e) : (remove lim p fs).fs = fs := by
  unfold remove at h ⊢
  cases hentry : fs.locateEntry lim p with
  | none => rfl
  | some l =>
      simp only [hentry] at h ⊢
      cases hnode : fs.get? l with
      | none => rfl
      | some node =>
          simp only [hnode] at h ⊢
          cases node with
          | dir => rfl
          | file _ | link _ => cases h

/-- When `rename` moves something, and from where to where. -/
structure Renames (src dst : List String) (s d : Location) : Prop where
  source : fs.locateEntry lim src = some s
  target : fs.locateEntry lim dst = some d
  replaces : canReplace fs s d = .ok ()
  movable : fs.Movable s d

theorem rename_of_renames (src dst : List String) (s d : Location)
    (h : Renames lim fs src dst s d) :
    rename lim src dst fs = ⟨.ok (), fs.move s d h.movable, [.move s d]⟩ := by
  have hmov := h.movable
  have hroot : ¬(s = [] ∨ d = []) := by
    rintro (hs | hd)
    · exact hmov.src_ne hs
    · exact hmov.not_above (hd ▸ List.nil_prefix)
  have hne : s ≠ d := by
    rintro rfl
    exact hmov.notBelow (List.prefix_refl s)
  simp only [rename, h.source, h.target, if_neg hroot, h.replaces, if_neg hne,
    dif_neg hmov.notBelow]
  rw [dif_pos ⟨hmov.source, hmov.parent, hmov.vacant⟩]

theorem rename_of_not_renames (src dst : List String) (h : ∀ s d, ¬Renames lim fs src dst s d) :
    (rename lim src dst fs).fs = fs ∧ (rename lim src dst fs).log = [] ∧
      ((rename lim src dst fs).result = .ok () →
        fs.locateEntry lim src = fs.locateEntry lim dst) := by
  unfold rename
  split
  · rename_i s d hs hd
    split
    · simp
    · split
      · simp
      · rename_i hcan
        split
        · rename_i heq
          simp [hs, hd, heq]
        · split
          · simp
          · rename_i hbelow
            split
            · rename_i hmov
              exact absurd ⟨hs, hd, hcan, hmov.1, hbelow, hmov.2.1, hmov.2.2⟩ (h s d)
            · simp
  · simp

theorem renames_child (dir : Location) (src dst : String) (hres : fs.Resolved dir) (hsrcUp : src ≠ "..")
    (hdstUp : dst ≠ "..") (hne : dst ≠ src) (hsrc : (fs.get? (dir ++ [src])).isSome = true)
    (hsrcDir : fs.isDirAt (dir ++ [src]) = false) (hdst : fs.isDirAt (dir ++ [dst]) = false) :
    Renames lim fs (dir ++ [src]) (dir ++ [dst]) (dir ++ [src]) (dir ++ [dst]) := by
  have hdir : fs.isDirAt dir = true := by
    have hparent := fs.isDirAt_dropLast _ hsrc
    rwa [List.dropLast_concat] at hparent
  refine ⟨?_, ?_, ?_, hsrc, ?_, by rwa [List.dropLast_concat], fs.vacant_of_not_dir _ hdst⟩
  · rw [FileSystem.locateEntry_of_resolved _ _ _ _ hsrcUp hres, if_pos hdir]
  · rw [FileSystem.locateEntry_of_resolved _ _ _ _ hdstUp hres, if_pos hdir]
  · obtain ⟨node, hnode⟩ := Option.isSome_iff_exists.mp hsrc
    have hfile : node ≠ .dir := by
      rintro rfl
      rw [(fs.isDirAt_eq_true _).mpr hnode] at hsrcDir
      cases hsrcDir
    have hplace : fs.get? (dir ++ [dst]) ≠ some .dir := by
      intro hold
      rw [(fs.isDirAt_eq_true _).mpr hold] at hdst
      cases hdst
    unfold canReplace
    rw [hnode]
    cases node with
    | dir => exact absurd rfl hfile
    | file _ | link _ =>
        cases hold : fs.get? (dir ++ [dst]) with
        | none => rfl
        | some old =>
            cases old with
            | dir => exact absurd hold hplace
            | file _ | link _ => rfl
  · rw [Location.prefix_child_iff]
    exact hne

theorem not_renames_child (dir : Location) (src dst : String) (hres : fs.Resolved dir)
    (hsrcDir : fs.isDirAt (dir ++ [src]) = false) (hdst : fs.isDirAt (dir ++ [dst]) = true) (s d : Location) :
    ¬Renames lim fs (dir ++ [src]) (dir ++ [dst]) s d := by
  intro hren
  have hs := fs.locateEntry_eq _ _ _ (by simpa using hres) hren.source
  have hd := fs.locateEntry_eq _ _ _ (by simpa using hres) hren.target
  have hcan := hren.replaces
  have hplace := (fs.isDirAt_eq_true _).mp hdst
  obtain ⟨node, hnode⟩ := Option.isSome_iff_exists.mp hren.movable.source
  rw [hs] at hnode
  unfold canReplace at hcan
  rw [hs, hd, hnode, hplace] at hcan
  cases node with
  | dir =>
      rw [(fs.isDirAt_eq_true _).mpr hnode] at hsrcDir
      cases hsrcDir
  | file _ | link _ => cases hcan

theorem logs_rename (src dst : List String) :
    Logs P (rename lim src dst) fs ↔ ∀ s d, Renames lim fs src dst s d → P (.move s d) := by
  by_cases h : ∃ s d, Renames lim fs src dst s d
  · obtain ⟨s, d, h⟩ := h
    rw [Logs, rename_of_renames lim fs src dst s d h]
    constructor
    · intro hlog s' d' h'
      have hs : s' = s := Option.some.inj (h'.source.symm.trans h.source)
      have hd : d' = d := Option.some.inj (h'.target.symm.trans h.target)
      rw [hs, hd]
      exact hlog _ (List.mem_singleton_self _)
    · intro hP a ha
      rw [List.mem_singleton.mp ha]
      exact hP s d h
  · have hnot : ∀ s d, ¬Renames lim fs src dst s d := fun s d hsd => h ⟨s, d, hsd⟩
    rw [Logs, (rename_of_not_renames lim fs src dst hnot).2.1]
    exact ⟨fun _ s d hsd => absurd hsd (hnot s d), fun _ a ha => absurd ha List.not_mem_nil⟩

end Specs

end Operations

end FileM
