import NetworkFileServer.Framework.FileM

/-!
# Paths while only files come and go

Where a path leads is decided by the directories and links on its way. As long as these stay, a path to a
file leads to the same location, whatever happens to the files.
-/

namespace FileSystem

variable {α : Type*} {fs fs' fs'' : FileSystem α}

/-- Directories and links are where they were. -/
def KeepsWays (fs fs' : FileSystem α) : Prop :=
  ∀ q node, fs.get? q = some node → (∀ content, node ≠ .file content) → fs'.get? q = some node

theorem KeepsWays.refl (fs : FileSystem α) : fs.KeepsWays fs := fun _ _ h _ => h

theorem KeepsWays.trans (h : fs.KeepsWays fs') (h' : fs'.KeepsWays fs'') : fs.KeepsWays fs'' :=
  fun q node hq hway => h' q node (h q node hq hway) hway

theorem KeepsWays.isDirAt (h : fs.KeepsWays fs') (q : Location) (hdir : fs.isDirAt q = true) :
    fs'.isDirAt q = true := by
  rw [isDirAt_eq_true] at hdir ⊢
  exact h q .dir hdir (by simp)

theorem keepsWays_put (p : Location) (content : α) (h : fs.Puttable p (.file content))
    (hlink : (fs.get? p).any Node.isLink = false) : fs.KeepsWays (fs.put p (.file content) h) := by
  intro q node hq hway
  rw [get?_put]
  split
  · rename_i heq
    subst heq
    cases node with
    | file c => exact absurd rfl (hway c)
    | dir => cases h.2 ((fs.isDirAt_eq_true q).mpr hq)
    | link target => simp [hq, Node.isLink] at hlink
  · exact hq

theorem keepsWays_erase (p : Location) (content : α) (hfile : fs.get? p = some (.file content)) :
    fs.KeepsWays (fs.erase p) := by
  intro q node hq hway
  rw [get?_erase, if_neg]
  · exact hq
  · rintro ⟨hpre, -⟩
    obtain rfl := fs.eq_of_below p q (fs.isDirAt_of_get? p _ hfile) hpre (by simp [hq])
    rw [hfile] at hq
    exact hway content (Option.some.inj hq).symm

theorem keepsWays_move (src dst : Location) (content : α) (h : fs.Movable src dst)
    (hfile : fs.get? src = some (.file content)) (hdir : fs.isDirAt dst = false)
    (hlink : (fs.get? dst).any Node.isLink = false) : fs.KeepsWays (fs.move src dst h) := by
  intro q node hq hway
  rw [get?_move, if_neg, if_neg]
  · exact hq
  · intro hpre
    obtain rfl := fs.eq_of_below src q (fs.isDirAt_of_get? src _ hfile) hpre (by simp [hq])
    rw [hfile] at hq
    exact hway content (Option.some.inj hq).symm
  · intro hpre
    obtain rfl := fs.eq_of_below dst q hdir hpre (by simp [hq])
    cases node with
    | file c => exact absurd rfl (hway c)
    | dir =>
        rw [(fs.isDirAt_eq_true q).mpr hq] at hdir
        cases hdir
    | link target => simp [hq, Node.isLink] at hlink

theorem OpensAt.of_not_dir {l cur : Location} {n : Nat} {p : List String} (h : fs.OpensAt l n cur p)
    (hdir : fs.isDirAt cur = false) : p = [] ∧ l = cur := by
  cases h with
  | done n => exact ⟨rfl, rfl⟩
  | up hcur _ | link hcur _ _ _ | name hcur _ _ _ _ | last hcur _ _ _ =>
      rw [hdir] at hcur
      cases hcur

theorem WalksTo.opensAt {l cur : Location} {n : Nat} {p : List String} (h : fs.WalksTo l n cur p) :
    fs.OpensAt l n cur p := by
  induction h with
  | done n => exact .done n
  | up hdir _ ih => exact .up hdir ih
  | link hdir hup hnode _ ih => exact .link hdir hup hnode ih
  | name hdir hup hnode hlink _ ih => exact .name hdir hup hnode hlink ih

/-- Once something is where a walk for writing has ended, the path leads there over kept ways. -/
theorem KeepsWays.walksTo (h : fs.KeepsWays fs') {l cur : Location} {n : Nat} {p : List String}
    (hl : (fs'.get? l).isSome = true) (hlink : (fs'.get? l).any Node.isLink = false) (hopens : fs.OpensAt l n cur p) :
    fs'.WalksTo l n cur p := by
  obtain ⟨node', hnode'⟩ := Option.isSome_iff_exists.mp hl
  have hend : ∀ (n : Nat) (cur : Location) (c : String), fs.isDirAt cur = true → c ≠ ".." → cur ++ [c] = l →
      fs'.WalksTo l n cur [c] := by
    intro n cur c hdir hup heq
    refine .name (h.isDirAt cur hdir) hup (by rw [heq]; exact hnode') (by simpa [hnode'] using hlink) ?_
    rw [heq]
    exact .done n
  induction hopens with
  | done n => exact .done n
  | up hdir _ ih => exact .up (h.isDirAt _ hdir) ih
  | link hdir hup hnode _ ih => exact .link (h.isDirAt _ hdir) hup (h _ _ hnode (by simp)) ih
  | @name n cur c rest node hdir hup hnode hnot hrest ih =>
      cases node with
      | link target => cases hnot
      | dir => exact .name (h.isDirAt _ hdir) hup (h _ _ hnode (by simp)) rfl ih
      | file content =>
          -- nothing is below a file, so the walk has come to its end
          obtain ⟨rfl, heq⟩ := hrest.of_not_dir (fs.isDirAt_of_get? _ _ hnode)
          exact hend n cur c hdir hup heq.symm
  | @last n cur c hdir hup hnone heq => exact hend n cur c hdir hup heq

/-- A walk on kept ways ends where it ended, unless it ends at a link now. -/
theorem KeepsWays.walk (h : fs.KeepsWays fs') (n : Nat) (cur l : Location) (p : List String)
    (hl : (fs'.get? l).isSome = true) (hlink : (fs'.get? l).any Node.isLink = false)
    (hwalk : fs.walk n cur p = some l) : fs'.walk n cur p = some l := by
  rw [walk_eq_some] at hwalk ⊢
  exact h.walksTo hl hlink hwalk.opensAt

theorem locate_eq_some (lim : LinkLimits) (p : List String) (l : Location) (node : Node α) :
    fs.locate lim p = some (l, node) ↔ fs.walk lim.kernel [] p = some l ∧ fs.get? l = some node := by
  unfold locate
  constructor
  · intro h
    obtain ⟨l', hwalk, hnode⟩ := Option.bind_eq_some_iff.mp h
    obtain ⟨node', hget, heq⟩ := Option.map_eq_some_iff.mp hnode
    cases heq
    exact ⟨hwalk, hget⟩
  · rintro ⟨hwalk, hget⟩
    rw [hwalk, Option.bind_some, hget]
    rfl

theorem KeepsWays.locate (h : fs.KeepsWays fs') (lim : LinkLimits) (p : List String) (l : Location)
    (node node' : Node α) (hlocate : fs.locate lim p = some (l, node)) (hget : fs'.get? l = some node')
    (hlink : node'.isLink = false) : fs'.locate lim p = some (l, node') := by
  rw [locate_eq_some] at hlocate ⊢
  exact ⟨h.walk _ _ l p (by simp [hget]) (by simpa [hget] using hlink) hlocate.1, hget⟩

theorem OpensAt.not_link {l cur : Location} {n : Nat} {p : List String} (h : fs.OpensAt l n cur p)
    (hcur : (fs.get? cur).isSome = true) (hlink : (fs.get? cur).any Node.isLink = false) :
    (fs.get? l).any Node.isLink = false := by
  induction h with
  | done n => exact hlink
  | @up _ cur _ _ _ ih =>
      have hparent := (fs.isDirAt_eq_true _).mp (fs.isDirAt_dropLast cur hcur)
      exact ih (by simp [hparent]) (by simp [hparent, Node.isLink])
  | @link _ cur _ _ target _ _ _ _ ih =>
      refine ih (isSome_linkStart fs cur target hcur) ?_
      rcases linkStart_cases cur target with heq | heq
      · rw [heq]
        rfl
      · rw [heq]
        exact hlink
  | name _ _ hnode hnot _ ih => exact ih (by simp [hnode]) (by simpa [hnode] using hnot)
  | last _ _ hnone hend =>
      rw [← hend, hnone]
      rfl

theorem not_link_of_locateCreat (lim : LinkLimits) (p : List String) (l : Location)
    (h : fs.locateCreat lim p = some l) : (fs.get? l).any Node.isLink = false :=
  ((creatWalk_eq_some fs lim.kernel [] l p).mp h).not_link rfl rfl

theorem KeepsWays.locate_of_locateCreat (h : fs.KeepsWays fs') (lim : LinkLimits) (p : List String) (l : Location)
    (node : Node α) (hcreat : fs.locateCreat lim p = some l) (hget : fs'.get? l = some node)
    (hlink : node.isLink = false) : fs'.locate lim p = some (l, node) := by
  rw [locate_eq_some, walk_eq_some]
  exact ⟨h.walksTo (by simp [hget]) (by simpa [hget] using hlink) ((creatWalk_eq_some fs _ _ l p).mp hcreat), hget⟩

theorem get?_of_locateCreat (lim : LinkLimits) (p : List String) (l : Location)
    (hcreat : fs.locateCreat lim p = some l) (hnone : fs.locate lim p = none) : fs.get? l = none := by
  cases hnode : fs.get? l with
  | none => rfl
  | some node =>
      have hlink := not_link_of_locateCreat lim p l hcreat
      rw [(KeepsWays.refl fs).locate_of_locateCreat lim p l node hcreat hnode (by simpa [hnode] using hlink)] at hnone
      cases hnone

theorem locate_put (lim : LinkLimits) (p : List String) (l : Location) (content : α)
    (hcreat : fs.locateCreat lim p = some l) (hput : fs.Puttable l (.file content)) :
    (fs.put l (.file content) hput).locate lim p = some (l, .file content) := by
  have hkeeps := keepsWays_put l content hput (not_link_of_locateCreat lim p l hcreat)
  exact hkeeps.locate_of_locateCreat lim p l _ hcreat (by rw [get?_put, if_pos rfl]) rfl

theorem walk_append (n : Nat) (cur l : Location) (p : List String) (hwalk : fs.walk n cur p = some l) :
    ∃ m, ∀ rest, fs.walk n cur (p ++ rest) = fs.walk m l rest := by
  rw [walk_eq_some] at hwalk
  induction hwalk with
  | done n => exact ⟨n, fun _ => rfl⟩
  | up hdir _ ih =>
      obtain ⟨m, hm⟩ := ih
      exact ⟨m, fun rest => by rw [List.cons_append, walk_up _ _ hdir, hm]⟩
  | link hdir hup hnode _ ih =>
      obtain ⟨m, hm⟩ := ih
      exact ⟨m, fun rest => by rw [List.cons_append, walk_link _ _ hdir hup hnode, ← List.append_assoc, hm]⟩
  | name hdir hup hnode hlink _ ih =>
      obtain ⟨m, hm⟩ := ih
      exact ⟨m, fun rest => by rw [List.cons_append, walk_name _ _ hdir hup hnode hlink, hm]⟩

theorem walk_snoc (n : Nat) (cur l : Location) (p : List String) (c : String) (node : Node α)
    (hwalk : fs.walk n cur p = some l) (hdir : fs.isDirAt l = true) (hup : c ≠ "..")
    (hget : fs.get? (l ++ [c]) = some node) (hlink : node.isLink = false) :
    fs.walk n cur (p ++ [c]) = some (l ++ [c]) := by
  obtain ⟨m, hm⟩ := walk_append n cur l p hwalk
  rw [hm, walk_name m [] hdir hup hget hlink, walk_nil]

theorem locate_snoc (lim : LinkLimits) (p : List String) (l : Location) (c : String) (node : Node α)
    (hlocate : fs.locate lim p = some (l, .dir)) (hup : c ≠ "..") (hget : fs.get? (l ++ [c]) = some node)
    (hlink : node.isLink = false) : fs.locate lim (p ++ [c]) = some (l ++ [c], node) := by
  rw [locate_eq_some] at hlocate ⊢
  have hdir := (fs.isDirAt_eq_true l).mpr hlocate.2
  exact ⟨walk_snoc _ _ l p c node hlocate.1 hdir hup hget hlink, hget⟩

theorem ResolvesTo.snoc {l cur : Location} {n : Nat} {p : List String} (h : fs.ResolvesTo l n cur p) (c : String)
    (hup : c ≠ "..") (hlink : (fs.get? (l ++ [c])).any Node.isLink = false) :
    fs.ResolvesTo (l ++ [c]) n cur (p ++ [c]) := by
  induction h with
  | done n => exact .name hup hlink (.done n)
  | up _ ih => exact .up ih
  | link hname hnode _ ih =>
      rw [List.append_assoc] at ih
      exact .link hname hnode ih
  | name hname hnot _ ih => exact .name hname hnot ih

theorem resolve_snoc (lim : LinkLimits) (p : List String) (l : Location) (c : String)
    (h : fs.resolve lim p = some l) (hup : c ≠ "..")
    (hlink : (fs.get? (l ++ [c])).any Node.isLink = false) :
    fs.resolve lim (p ++ [c]) = some (l ++ [c]) :=
  (realWalk_eq_some fs _ _ _ _).mpr (((realWalk_eq_some fs _ _ _ _).mp h).snoc c hup hlink)

theorem ResolvesTo.of_append {r cur : Location} {n : Nat} {p q : List String}
    (h : fs.ResolvesTo r n cur (p ++ q)) : ∃ l, fs.ResolvesTo l n cur p := by
  generalize hxs : p ++ q = xs at h
  induction h generalizing p with
  | done n =>
      obtain ⟨rfl, -⟩ := List.append_eq_nil_iff.mp hxs
      exact ⟨r, .done n⟩
  | @up n cur rest _ ih =>
      cases p with
      | nil => exact ⟨cur, .done n⟩
      | cons c p =>
          cases hxs
          obtain ⟨l, hl⟩ := ih rfl
          exact ⟨l, .up hl⟩
  | @link n cur c rest target hup hnode _ ih =>
      cases p with
      | nil => exact ⟨cur, .done _⟩
      | cons d p =>
          cases hxs
          obtain ⟨l, hl⟩ := ih (List.append_assoc target.parts p q)
          exact ⟨l, .link hup hnode hl⟩
  | @name n cur c rest hup hlink _ ih =>
      cases p with
      | nil => exact ⟨cur, .done n⟩
      | cons d p =>
          cases hxs
          obtain ⟨l, hl⟩ := ih rfl
          exact ⟨l, .name hup hlink hl⟩

theorem resolve_of_append (lim : LinkLimits) (p q : List String) (r : Location)
    (h : fs.resolve lim (p ++ q) = some r) : ∃ l, fs.resolve lim p = some l := by
  obtain ⟨l, hl⟩ := ((realWalk_eq_some fs _ _ _ _).mp h).of_append
  exact ⟨l, (realWalk_eq_some fs _ _ _ _).mpr hl⟩

theorem exists_entry (lim : LinkLimits) (p : List String) (l : Location) (node : Node α)
    (hlocate : fs.locate lim p = some (l, node)) (hnode : node.isDir = false) :
    ∃ e, fs.locateEntry lim p = some e := by
  rcases List.eq_nil_or_concat p with rfl | ⟨q, c, rfl⟩
  · exact ⟨[], rfl⟩
  · rw [List.concat_eq_append] at *
    obtain ⟨d, hd, -⟩ := fs.locate_split lim q [] c (by simp [hlocate])
    rw [locate_eq_some] at hd hlocate
    have hdir := (fs.isDirAt_eq_true d).mpr hd.2
    by_cases hup : c = ".."
    · -- a path that ends so leads to a directory
      subst hup
      obtain ⟨m, hm⟩ := walk_append _ _ d q hd.1
      have hend : fs.walk m d [".."] = some d.dropLast := by
        cases m <;> simp [walk, walkVia, hdir]
      obtain rfl := Option.some.inj (hend.symm.trans ((hm _).symm.trans hlocate.1))
      have hparent := fs.isDirAt_dropLast d (by simp [hd.2])
      rw [isDirAt_eq_true, hlocate.2] at hparent
      rw [Option.some.inj hparent] at hnode
      cases hnode
    · exact ⟨d ++ [c], by
        simp only [locateEntry, List.getLast?_concat, if_neg hup, List.dropLast_concat, hd.1, Option.bind_some,
          if_pos hdir]⟩

theorem eq_entry_of_locate (lim : LinkLimits) (p : List String) (l e : Location) (node : Node α)
    (hlocate : fs.locate lim p = some (l, node)) (hentry : fs.locateEntry lim p = some e)
    (hlink : (fs.get? e).any Node.isLink = false) : l = e := by
  rcases List.eq_nil_or_concat p with rfl | ⟨q, c, rfl⟩
  · have hroot := ((locate_eq_some lim [] l node).mp hlocate).1
    have hnil : fs.walk lim.kernel [] [] = some [] := by cases lim.kernel <;> rfl
    exact (Option.some.inj (hnil.symm.trans hroot)).symm.trans (Option.some.inj hentry)
  · rw [List.concat_eq_append] at *
    obtain ⟨d, hd, hchild⟩ := fs.locate_split lim q [] c (by simp [hlocate])
    have hwalk := ((locate_eq_some lim q d .dir).mp hd).1
    have hdir := (fs.isDirAt_eq_true d).mpr ((locate_eq_some lim q d .dir).mp hd).2
    by_cases hup : c = ".."
    · simp [locateEntry, hup] at hentry
    · simp only [locateEntry, List.getLast?_concat, if_neg hup, List.dropLast_concat, hwalk, Option.bind_some,
        if_pos hdir] at hentry
      obtain rfl := Option.some.inj hentry
      obtain ⟨found, hfound⟩ := Option.isSome_iff_exists.mp (hchild hup)
      have hsnoc := locate_snoc lim q d c found hd hup hfound (by simpa [hfound] using hlink)
      rw [hlocate] at hsnoc
      exact congrArg Prod.fst (Option.some.inj hsnoc)

end FileSystem
