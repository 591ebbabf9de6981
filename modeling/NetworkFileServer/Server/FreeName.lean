import Mathlib.Data.List.Nodup
import Mathlib.Data.List.Perm.Subperm
import Mathlib.Data.Nat.Find
import NetworkFileServer.Server.FileService

/-!
# The search for a free name

The RENAME branch of `upload_file` numbers the name until nothing is there. The numbered names are
distinct and a directory holds finitely many, so the bound on the rounds of the loop is never what
ends it.
-/

namespace NetworkFileServer.Server.FileService

variable {α : Type} (disk : Disk α) (fs : FileSystem α)

/-- Whether something is at a name of a directory, through links. -/
def Taken (targetDir : Location) (name : String) : Prop :=
  (fs.locate disk.limits (targetDir ++ [name])).isSome = true

instance (targetDir : Location) (name : String) : Decidable (Taken disk fs targetDir name) :=
  inferInstanceAs (Decidable (_ = true))

theorem numbered_injective (filename : String) : Function.Injective (numbered filename) := by
  intro j k h
  simp only [numbered, String.append_left_inj, String.append_right_inj] at h
  exact Text.natRepr_injective h

theorem suffixStart_of_not_mem (name : List Char) (h : '.' ∉ name) : suffixStart name = name.length := by
  simp [suffixStart, h]

theorem numbered_of_not_mem (filename : String) (h : '.' ∉ filename.toList) (k : Nat) :
    numbered filename k = filename ++ "_" ++ toString k := by
  simp [numbered, stem, suffix, suffixStart_of_not_mem _ h]

theorem numbered_ne_up (filename : String) (k : Nat) : numbered filename k ≠ ".." := by
  intro h
  have hmem : '_' ∈ (numbered filename k).toList := by simp [numbered]
  rw [h] at hmem
  exact absurd hmem (by decide)

/-- The numbered names are different from each other, so that no more of them are taken than there are objects. -/
theorem taken_le_objects (targetDir : Location) (filename : String) (k : Nat)
    (hres : fs.Resolved targetDir)
    (h : ∀ j < k, Taken disk fs targetDir (numbered filename (1 + j))) : k ≤ fs.tree.length := by
  have hinj : Function.Injective fun j => targetDir ++ [numbered filename (1 + j)] := by
    intro i j hij
    have hname := numbered_injective filename (List.singleton_inj.mp (List.append_cancel_left hij))
    omega
  have hsub : (List.range k).map (fun j => targetDir ++ [numbered filename (1 + j)]) ⊆
      fs.tree.map Prod.fst := by
    intro l hl
    obtain ⟨j, hj, rfl⟩ := List.mem_map.mp hl
    have htaken := h j (List.mem_range.mp hj)
    have hchild := (fs.child_of_locate_below _ targetDir [] _ hres htaken).2
      (numbered_ne_up filename (1 + j))
    obtain ⟨e, he, hkey⟩ := fs.mem_of_get? _ (by simp) hchild
    exact List.mem_map.mpr ⟨e, he, hkey⟩
  have hle := (List.subperm_of_subset (List.Nodup.map hinj List.nodup_range) hsub).length_le
  simpa using hle

/-- A directory holds finitely many names, so the RENAME loop comes to a free one. -/
theorem exists_firstFree (targetDir : Location) (filename : String) (hres : fs.Resolved targetDir) :
    ∃ k ≤ fs.tree.length, (∀ j < k, Taken disk fs targetDir (numbered filename (1 + j))) ∧
      ¬Taken disk fs targetDir (numbered filename (1 + k)) := by
  have hfree : ∃ k, ¬Taken disk fs targetDir (numbered filename (1 + k)) := by
    by_contra hall
    have htaken : ∀ j < fs.tree.length + 1, Taken disk fs targetDir (numbered filename (1 + j)) :=
      fun j _ => not_not.mp (not_exists.mp hall j)
    have hle := taken_le_objects disk fs targetDir filename _ hres htaken
    omega
  have hleast : ∀ j < Nat.find hfree, Taken disk fs targetDir (numbered filename (1 + j)) :=
    fun j hj => not_not.mp (Nat.find_min hfree hj)
  exact ⟨Nat.find hfree, taken_le_objects disk fs targetDir filename _ hres hleast, hleast, Nat.find_spec hfree⟩

theorem firstFree_unique (targetDir : Location) (filename : String) (k k' : Nat)
    (hall : ∀ j < k, Taken disk fs targetDir (numbered filename (1 + j)))
    (hfree : ¬Taken disk fs targetDir (numbered filename (1 + k)))
    (hall' : ∀ j < k', Taken disk fs targetDir (numbered filename (1 + j)))
    (hfree' : ¬Taken disk fs targetDir (numbered filename (1 + k'))) : k' = k := by
  rcases Nat.lt_trichotomy k' k with hlt | heq | hgt
  · exact absurd (hall k' hlt) hfree'
  · exact heq
  · exact absurd (hall' k hgt) hfree

section Loop

variable (found : List String → FileM α FileError Bool) (hkeeps : ∀ p, (found p).Keeps)

include hkeeps

theorem freeNameVia_keeps (targetDir : Location) (filename : String) (rounds counter : Nat) :
    (freeNameVia found targetDir filename rounds counter).Keeps := by
  induction rounds generalizing counter with
  | zero => exact FileM.keeps_fail _
  | succ rounds ih =>
      apply FileM.Keeps.bind (hkeeps _)
      intro taken
      cases taken with
      | false => exact FileM.keeps_pure _
      | true => exact ih (counter + 1)

theorem returns_freeNameVia (targetDir : Location) (filename newName : String) (rounds counter : Nat)
    (fs' : FileSystem α) :
    (freeNameVia found targetDir filename rounds counter).Returns fs newName fs' ↔
      fs = fs' ∧ ∃ k < rounds,
        (∀ j < k, (found (targetDir ++ [numbered filename (counter + j)])).Returns fs true fs) ∧
        (found (targetDir ++ [numbered filename (counter + k)])).Returns fs false fs ∧
        newName = numbered filename (counter + k) := by
  induction rounds generalizing counter with
  | zero => simp [freeNameVia]
  | succ rounds ih =>
      have hshift : ∀ j, counter + 1 + j = counter + (j + 1) := by omega
      rw [freeNameVia, FileM.returns_bind]
      constructor
      · rintro ⟨taken, fs₁, hret, hrest⟩
        obtain rfl : fs = fs₁ := (hkeeps _ fs).symm.trans hret.2
        cases taken with
        | false =>
            obtain ⟨rfl, rfl⟩ := (FileM.returns_pure _ _ _ _).mp hrest
            exact ⟨rfl, 0, by omega, by simp, hret, rfl⟩
        | true =>
            rw [if_pos rfl, ih] at hrest
            obtain ⟨rfl, k, hk, hall, hfree, rfl⟩ := hrest
            simp only [hshift] at hall hfree
            refine ⟨rfl, k + 1, by omega, ?_, hfree, by rw [hshift]⟩
            intro j hj
            cases j with
            | zero => exact hret
            | succ j => exact hall j (by omega)
      · rintro ⟨rfl, k, hk, hall, hfree, rfl⟩
        cases k with
        | zero => exact ⟨false, fs, hfree, by simp⟩
        | succ k =>
            refine ⟨true, fs, hall 0 (by omega), ?_⟩
            rw [if_pos rfl, ih]
            refine ⟨rfl, k, by omega, ?_, ?_, by rw [hshift]⟩
            · intro j hj
              rw [hshift]
              exact hall (j + 1) (by omega)
            · rw [hshift]
              exact hfree

theorem freeNameVia_error (targetDir : Location) (filename : String) (rounds counter : Nat) (e : FileError)
    (he : e ≠ .os .fileExists) :
    (freeNameVia found targetDir filename rounds counter fs).result = .error e ↔
      ∃ k < rounds,
        (∀ j < k, (found (targetDir ++ [numbered filename (counter + j)])).Returns fs true fs) ∧
        (found (targetDir ++ [numbered filename (counter + k)]) fs).result = .error e := by
  induction rounds generalizing counter with
  | zero => simp [freeNameVia, FileM.fail, he.symm]
  | succ rounds ih =>
      have hshift : ∀ j, counter + 1 + j = counter + (j + 1) := by omega
      rw [freeNameVia]
      cases hfound : (found (targetDir ++ [numbered filename counter]) fs).result with
      | error e' =>
          rw [FileM.bind_of_error _ _ fs e' hfound]
          constructor
          · intro h
            exact ⟨0, by omega, by simp, by simpa [hfound] using h⟩
          · rintro ⟨k, -, hall, herror⟩
            cases k with
            | zero => simpa [hfound] using herror
            | succ k =>
                have hfirst := (hall 0 (by omega)).1
                simp [hfound] at hfirst
      | ok taken =>
          rw [FileM.bind_of_ok _ _ fs taken fs ⟨hfound, hkeeps _ fs⟩]
          cases taken with
          | false =>
              constructor
              · intro h
                cases h
              · rintro ⟨k, -, hall, herror⟩
                cases k with
                | zero => simp [hfound] at herror
                | succ k =>
                    have hfirst := (hall 0 (by omega)).1
                    simp [hfound] at hfirst
          | true =>
              simp only [↓reduceIte, ih, hshift]
              constructor
              · rintro ⟨k, hk, hall, herror⟩
                refine ⟨k + 1, by omega, ?_, herror⟩
                intro j hj
                cases j with
                | zero => exact ⟨hfound, hkeeps _ fs⟩
                | succ j => exact hall j (by omega)
              · rintro ⟨k, hk, hall, herror⟩
                cases k with
                | zero => simp [hfound] at herror
                | succ k =>
                    exact ⟨k, by omega, fun j hj => hall (j + 1) (by omega), herror⟩

end Loop

theorem freeName_succ (targetDir : Location) (filename : String) (rounds counter : Nat) :
    freeName disk targetDir filename (rounds + 1) counter =
      FileM.pathExists disk.limits (targetDir ++ [numbered filename counter]) >>= fun taken =>
        if taken then freeName disk targetDir filename rounds (counter + 1)
        else pure (numbered filename counter) := rfl

theorem logs_freeName (P : Access → Prop) (targetDir : Location) (filename : String)
    (rounds counter : Nat) :
    FileM.Logs P (freeName disk targetDir filename rounds counter) fs ↔
      ∀ k < rounds, (∀ j < k, Taken disk fs targetDir (numbered filename (counter + j))) →
        ∀ l node, fs.locate disk.limits (targetDir ++ [numbered filename (counter + k)]) =
          some (l, node) → P (.read l) := by
  induction rounds generalizing counter with
  | zero => exact iff_of_true (FileM.logs_fail _ _ _) (by simp)
  | succ rounds ih =>
      rw [freeName_succ, FileM.logs_bind, FileM.logs_pathExists]
      constructor
      · rintro ⟨hfirst, hrest⟩ k hk htaken
        cases k with
        | zero => simpa using hfirst
        | succ k =>
            have hcounter : Taken disk fs targetDir (numbered filename counter) := htaken 0 (by omega)
            have hnext := hrest true fs ((FileM.returns_pathExists _ _ _ _ _).mpr ⟨hcounter, rfl⟩)
            rw [if_pos rfl, ih] at hnext
            have hshift : ∀ j, counter + 1 + j = counter + (j + 1) := by omega
            simp only [hshift] at hnext
            exact hnext k (by omega) fun j hj => htaken (j + 1) (by omega)
      · intro h
        refine ⟨h 0 (by omega) (by simp), ?_⟩
        intro taken fs' hret
        obtain ⟨htaken, rfl⟩ := (FileM.returns_pathExists _ _ _ _ _).mp hret
        cases taken with
        | false => simp
        | true =>
            rw [if_pos rfl, ih]
            intro k hk hall
            have hshift : ∀ j, counter + 1 + j = counter + (j + 1) := by omega
            simp only [hshift] at hall ⊢
            refine h (k + 1) (by omega) ?_
            intro j hj
            cases j with
            | zero => exact htaken
            | succ j => exact hall j (by omega)

theorem freeName_keeps (targetDir : Location) (filename : String) (rounds counter : Nat) :
    (freeName disk targetDir filename rounds counter).Keeps :=
  freeNameVia_keeps _ (FileM.keeps_pathExists _) targetDir filename rounds counter

theorem returns_freeName (targetDir : Location) (filename newName : String) (rounds counter : Nat)
    (fs' : FileSystem α) :
    (freeName disk targetDir filename rounds counter).Returns fs newName fs' ↔
      fs = fs' ∧ ∃ k < rounds,
        (∀ j < k, Taken disk fs targetDir (numbered filename (counter + j))) ∧
        ¬Taken disk fs targetDir (numbered filename (counter + k)) ∧
        newName = numbered filename (counter + k) := by
  rw [freeName, returns_freeNameVia fs _ (FileM.keeps_pathExists _)]
  simp only [FileM.returns_pathExists, Taken, and_true, Bool.not_eq_true]

end NetworkFileServer.Server.FileService
