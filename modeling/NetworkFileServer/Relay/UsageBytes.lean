import Mathlib.Algebra.BigOperators.Group.Finset.Basic
import Mathlib.Algebra.Order.BigOperators.Group.Finset
import NetworkFileServer.Relay.StorageIsolation

/-!
# The bytes of a directory

`usage_bytes` as a sum over locations, and how it changes with what is at some of them.
-/

namespace NetworkFileServer.Relay

open Server Server.FileService
open FileM (Inner)

variable {α : Type} (disk : Disk α) {base p : Location} {fs fs' : FileSystem α}

/-- The bytes of what is at a location. -/
def fileBytes : Option (Node α) → Nat
  | some (.file content) => disk.size (.file content)
  | _ => 0

/-- A location below the directory by names that a directory can hold. -/
def ProperlyBelow (base q : Location) : Prop := base <+: q ∧ q ≠ base ∧ ∀ c ∈ q.drop base.length, ProperName c

instance (base q : Location) : Decidable (ProperlyBelow base q) := inferInstanceAs (Decidable (_ ∧ _))

/-- The locations below a directory at which something is. -/
def heldBelow (fs : FileSystem α) (base : Location) : Finset Location :=
  ((fs.tree.map Prod.fst).filter fun q => ProperlyBelow base q).toFinset

theorem mem_heldBelow (q : Location) :
    q ∈ heldBelow fs base ↔ ProperlyBelow base q ∧ (fs.get? q).isSome = true := by
  unfold heldBelow
  rw [List.mem_toFinset, List.mem_filter, decide_eq_true_eq]
  constructor
  · rintro ⟨hkey, hbelow⟩
    obtain ⟨e, he, rfl⟩ := List.mem_map.mp hkey
    exact ⟨hbelow, fs.get?_of_mem e he⟩
  · rintro ⟨hbelow, hsome⟩
    have hne : q ≠ [] := by
      rintro rfl
      exact hbelow.2.1 (List.prefix_nil.mp hbelow.1).symm
    obtain ⟨e, he, rfl⟩ := fs.mem_of_get? q hne hsome
    exact ⟨List.mem_map_of_mem he, hbelow⟩

theorem ProperlyBelow.inner {q : Location} (h : ProperlyBelow base q) (hfs : fs.Region base) : Inner base q := by
  refine ⟨h.1, ?_⟩
  obtain ⟨x, rfl⟩ := h.1
  rw [List.mem_append]
  rintro (hup | hup)
  · exact hfs.resolved.noUp hup
  · exact (h.2.2 ".." (by rwa [List.drop_left])).2.2.1 rfl

theorem usedBytes_eq_sum (hfs : fs.Region base) (hdir : fs.isDirAt base = true) (within : Finset Location)
    (hheld : heldBelow fs base ⊆ within) (hbelow : ∀ q ∈ within, ProperlyBelow base q) :
    usedBytes disk fs base = ∑ q ∈ within, fileBytes disk (fs.get? q) := by
  have hinner : Inner base base := ⟨List.prefix_refl base, hfs.resolved.noUp⟩
  have hlocate : fs.locate disk.limits base = some (base, .dir) := by
    rw [hinner.locate disk.limits hfs, (fs.isDirAt_eq_true base).mp hdir]
    rfl
  have hpath : ∀ q, base <+: q → base ++ q.drop base.length = q := by
    rintro q ⟨x, rfl⟩
    rw [List.drop_left]
  have hsize : ∀ q, ProperlyBelow base q → sizeAt disk fs q = fileBytes disk (fs.get? q) := by
    intro q hq
    unfold sizeAt
    rw [(hq.inner hfs).locate disk.limits hfs]
    cases fs.get? q with
    | none => rfl
    | some node => cases node <;> rfl
  have hlist : usedBytes disk fs base = ∑ q ∈ heldBelow fs base, fileBytes disk (fs.get? q) := by
    have hdedup : ∀ l : List Location, l.toFinset = l.dedup.toFinset := by
      intro l
      ext q
      simp
    unfold usedBytes walked heldBelow
    rw [hlocate, hdedup, List.sum_toFinset _ (List.nodup_dedup _), List.map_map]
    congr 1
    apply List.map_congr_left
    intro q hq
    have hbelow : ProperlyBelow base q := of_decide_eq_true (List.mem_filter.mp (List.mem_dedup.mp hq)).2
    rw [Function.comp_apply, hpath q hbelow.1]
    exact hsize q hbelow
  rw [hlist]
  refine Finset.sum_subset hheld ?_
  intro q hq hnot
  have hnone : fs.get? q = none := by
    by_contra hsome
    exact hnot ((mem_heldBelow q).mpr ⟨hbelow q hq, Option.isSome_iff_ne_none.mpr hsome⟩)
  rw [hnone]
  rfl

theorem usedBytes_change (hfs : fs.Region base) (hfs' : fs'.Region base) (hdir : fs.isDirAt base = true)
    (hdir' : fs'.isDirAt base = true) (changed : Finset Location) (hbelow : ∀ q ∈ changed, ProperlyBelow base q)
    (hsame : ∀ q, q ∉ changed → fs'.get? q = fs.get? q) :
    usedBytes disk fs' base + ∑ q ∈ changed, fileBytes disk (fs.get? q) =
      usedBytes disk fs base + ∑ q ∈ changed, fileBytes disk (fs'.get? q) := by
  have hall : ∀ q ∈ heldBelow fs base ∪ heldBelow fs' base ∪ changed, ProperlyBelow base q := by
    intro q hq
    rcases Finset.mem_union.mp hq with hq | hq
    · rcases Finset.mem_union.mp hq with hq | hq
      · exact ((mem_heldBelow q).mp hq).1
      · exact ((mem_heldBelow q).mp hq).1
    · exact hbelow q hq
  have hsub : changed ⊆ heldBelow fs base ∪ heldBelow fs' base ∪ changed := Finset.subset_union_right
  have hheld : heldBelow fs base ⊆ heldBelow fs base ∪ heldBelow fs' base ∪ changed :=
    fun q hq => Finset.mem_union_left _ (Finset.mem_union_left _ hq)
  have hheld' : heldBelow fs' base ⊆ heldBelow fs base ∪ heldBelow fs' base ∪ changed :=
    fun q hq => Finset.mem_union_left _ (Finset.mem_union_right _ hq)
  rw [usedBytes_eq_sum disk hfs hdir _ hheld hall, usedBytes_eq_sum disk hfs' hdir' _ hheld' hall,
    ← Finset.sum_sdiff hsub, ← Finset.sum_sdiff hsub]
  have hrest : ∑ q ∈ (heldBelow fs base ∪ heldBelow fs' base ∪ changed) \ changed, fileBytes disk (fs'.get? q) =
      ∑ q ∈ (heldBelow fs base ∪ heldBelow fs' base ∪ changed) \ changed, fileBytes disk (fs.get? q) :=
    Finset.sum_congr rfl fun q hq => by rw [hsame q (Finset.mem_sdiff.mp hq).2]
  rw [hrest]
  omega

theorem properlyBelow_child (h : base <+: p) (name : String) :
    ProperlyBelow base (p ++ [name]) ↔ (∀ c ∈ p.drop base.length, ProperName c) ∧ ProperName name := by
  have hne : p ++ [name] ≠ base := by
    rintro rfl
    have hlen := h.length_le
    rw [List.length_append, List.length_singleton] at hlen
    omega
  have hprefix : base <+: p ++ [name] := h.trans (List.prefix_append _ _)
  unfold ProperlyBelow
  rw [List.drop_append_of_le_length h.length_le, and_iff_right hprefix, and_iff_right hne]
  constructor
  · intro hall
    exact ⟨fun c hc => hall c (List.mem_append_left _ hc), hall name (by simp)⟩
  · rintro ⟨hp, hname⟩ c hc
    rcases List.mem_append.mp hc with hc | hc
    · exact hp c hc
    · rwa [List.mem_singleton.mp hc]

end NetworkFileServer.Relay
