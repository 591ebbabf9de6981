import NetworkFileServer.Server.PathGuard

/-!
# What the operations leave behind

The effect of removing a guarded location, as an update of the tree.
-/

namespace NetworkFileServer.Server.FileService

variable {α : Type} (disk : Disk α) (fs : FileSystem α)

section Removing

variable (resolved : Location) (hres : fs.Resolved resolved)

include hres

theorem removeObject_of_missing (h : fs.get? resolved = none) :
    ∃ e, removeObject disk resolved fs = ⟨.error e, fs, []⟩ := by
  have hlocate : fs.locate disk.limits resolved = none := by
    rw [fs.locate_of_resolved _ _ hres, h]
    rfl
  have hdir : (FileM.isDir disk.limits resolved : FileM α FileError Bool) fs =
      ⟨.ok false, fs, []⟩ := by
    simp [FileM.isDir, hlocate]
  have hremove : FileM.remove disk.limits resolved fs = ⟨.error .notFound, fs, []⟩ := by
    unfold FileM.remove
    cases hl : fs.locateEntry disk.limits resolved with
    | none => rfl
    | some l =>
        rw [fs.locateEntry_eq _ _ _ hres.dropLast hl]
        simp [h]
  rw [removeObject, FileM.bind_of_ok _ _ _ false fs (by simp [FileM.Returns, hdir]), hdir]
  exact ⟨.os .notFound, by simp [FileM.mapError, hremove, Except.mapError]⟩

/-- A guarded object goes with everything below it. The root of the file system is emptied. -/
theorem removeObject_of_exists (h : (fs.get? resolved).isSome = true) :
    (removeObject disk resolved fs).fs = fs.erase resolved ∧
      ((removeObject disk resolved fs).result = .ok () ↔ resolved ≠ []) ∧
      ∀ a ∈ (removeObject disk resolved fs).log,
        a = .read resolved ∨ ∃ q, resolved <+: q ∧ a = .remove q := by
  obtain ⟨node, hnode⟩ := Option.isSome_iff_exists.mp h
  have hlocate : fs.locate disk.limits resolved = some (resolved, node) := by
    rw [fs.locate_of_resolved _ _ hres, hnode]
    rfl
  have hentry := fs.locateEntry_of_exists disk.limits resolved hres h
  have hdir : (FileM.isDir disk.limits resolved : FileM α FileError Bool) fs =
      ⟨.ok node.isDir, fs, [.read resolved]⟩ := by
    simp [FileM.isDir, hlocate]
  rw [removeObject, FileM.bind_of_ok _ _ _ node.isDir fs (by simp [FileM.Returns, hdir]), hdir]
  cases node with
  | dir =>
      simp only [Node.isDir, ↓reduceIte, FileM.mapError, FileM.rmtree, hentry, hnode]
      refine ⟨trivial, ?_, ?_⟩
      · by_cases hroot : resolved = []
        · simp [hroot, Except.mapError]
        · simp [hroot, Except.mapError]
      · intro a ha
        rcases List.mem_append.mp ha with ha | ha
        · exact .inl (List.mem_singleton.mp ha)
        · obtain ⟨q, hq, rfl⟩ := List.mem_map.mp ha
          exact .inr ⟨q, by simpa using (List.mem_filter.mp hq).2, rfl⟩
  | file content =>
      have hroot : resolved ≠ [] := by
        rintro rfl
        cases hnode
      simp only [Node.isDir, Bool.false_eq_true, ↓reduceIte, FileM.mapError, FileM.remove, hentry,
        hnode]
      refine ⟨trivial, by simp [hroot, Except.mapError], ?_⟩
      intro a ha
      rcases List.mem_append.mp ha with ha | ha
      · exact .inl (List.mem_singleton.mp ha)
      · exact .inr ⟨resolved, List.prefix_refl _, List.mem_singleton.mp ha⟩
  | link target =>
      have hlink := hres.noLink resolved (List.prefix_refl _)
      simp [hnode, Node.isLink] at hlink

end Removing

end NetworkFileServer.Server.FileService
