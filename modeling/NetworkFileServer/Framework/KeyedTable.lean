import Mathlib.Data.List.Basic
import Mathlib.Data.List.Nodup

/-!
# Tables with one row per key

A table is the list of its rows. Lookups and inserts in a table with a unique key, and what is left of a
list in a table that keeps one row per key, when every row replaces the one before it with the same key.
-/

namespace KeyedTable

variable {α β : Type*}

theorem find?_eq_some_iff (key : α → β) (p : α → Bool) (k : β) (l : List α) (hl : (l.map key).Nodup)
    (hp : ∀ a, p a = true ↔ key a = k) (x : α) : l.find? p = some x ↔ x ∈ l ∧ key x = k := by
  constructor
  · intro h
    exact ⟨List.mem_of_find?_eq_some h, (hp x).mp (List.find?_some h)⟩
  · rintro ⟨hx, hkey⟩
    cases hfind : l.find? p with
    | none => exact absurd ((hp x).mpr hkey) (List.find?_eq_none.mp hfind x hx)
    | some y =>
        have hy := List.mem_of_find?_eq_some hfind
        have hsame : key y = key x := ((hp y).mp (List.find?_some hfind)).trans hkey.symm
        rw [List.inj_on_of_nodup_map hl hy hx hsame]

theorem nodup_concat (key : α → β) (l : List α) (a : α) (hl : (l.map key).Nodup) (ha : key a ∉ l.map key) :
    ((l ++ [a]).map key).Nodup := by
  rw [List.map_append, List.map_cons, List.map_nil, ← List.concat_eq_append]
  exact hl.concat ha

theorem succ_not_mem (key : α → Nat) (l : List α) (last : Nat) (hl : ∀ a ∈ l, key a ≤ last) :
    last + 1 ∉ l.map key := by
  intro hmem
  obtain ⟨a, ha, heq⟩ := List.mem_map.mp hmem
  have hle := hl a ha
  omega

/-- Changing a predicate at one element of a list without repetitions changes its count there only. -/
theorem countP_of_change (l : List α) (a : α) (p q : α → Bool) (hl : l.Nodup) (ha : a ∈ l)
    (h : ∀ x ∈ l, x ≠ a → q x = p x) :
    l.countP q + (if p a then 1 else 0) = l.countP p + if q a then 1 else 0 := by
  induction l with
  | nil => cases ha
  | cons x l ih =>
      obtain ⟨hx, hl⟩ := List.nodup_cons.mp hl
      rw [List.countP_cons, List.countP_cons]
      by_cases heq : x = a
      · subst heq
        have hrest : l.countP q = l.countP p := by
          apply List.countP_congr
          intro y hy
          have hne : y ≠ x := by
            rintro rfl
            exact hx hy
          rw [h y (List.mem_cons_of_mem _ hy) hne]
        omega
      · have hmem : a ∈ l := (List.mem_cons.mp ha).resolve_left (Ne.symm heq)
        have hrest := ih hl hmem fun y hy => h y (List.mem_cons_of_mem _ hy)
        rw [h x List.mem_cons_self heq]
        omega

/-- `x` is in the list, and nothing of its kind comes after it. -/
def LastOf (same : α → α → Prop) (l : List α) (x : α) : Prop :=
  ∃ before after, l = before ++ x :: after ∧ ∀ y ∈ after, ¬ same y x

theorem LastOf.mem {same : α → α → Prop} {l : List α} {x : α} (h : LastOf same l x) : x ∈ l := by
  obtain ⟨before, after, rfl, -⟩ := h
  simp

theorem lastOf_concat (same : α → α → Prop) (l : List α) (x y : α) :
    LastOf same (l ++ [y]) x ↔ (LastOf same l x ∧ ¬ same y x) ∨ x = y := by
  constructor
  · rintro ⟨before, after, heq, hafter⟩
    rcases List.eq_nil_or_concat after with rfl | ⟨init, last, rfl⟩
    · have hxy := (List.append_inj_right' heq rfl)
      exact .inr (by simpa using hxy.symm)
    · rw [List.concat_eq_append, ← List.cons_append, ← List.append_assoc] at heq
      have hlast : y = last := by simpa using List.append_inj_right' heq rfl
      have hinit : l = before ++ x :: init := List.append_inj_left' heq rfl
      subst hlast
      refine .inl ⟨⟨before, init, hinit, ?_⟩, hafter y (by simp)⟩
      intro z hz
      exact hafter z (by simp [hz])
  · rintro (⟨⟨before, after, rfl, hafter⟩, hy⟩ | rfl)
    · refine ⟨before, after ++ [y], by simp, ?_⟩
      intro z hz
      rcases List.mem_append.mp hz with hold | hnew
      · exact hafter z hold
      · rw [List.mem_singleton.mp hnew]
        exact hy
    · exact ⟨l, [], rfl, by simp⟩

theorem lastOf_map (same : α → α → Prop) (same' : β → β → Prop) (f : α → β) (l : List α)
    (hf : ∀ a ∈ l, ∀ b ∈ l, same' (f a) (f b) ↔ same a b) (y : β) :
    LastOf same' (l.map f) y ↔ ∃ x, f x = y ∧ LastOf same l x := by
  constructor
  · rintro ⟨before, after, heq, hafter⟩
    obtain ⟨before', rest, rfl, -, hrest⟩ := List.map_eq_append_iff.mp heq
    obtain ⟨x, after', rfl, rfl, rfl⟩ := List.map_eq_cons_iff.mp hrest
    refine ⟨x, rfl, before', after', rfl, ?_⟩
    intro z hz hsame
    exact hafter (f z) (List.mem_map_of_mem hz) ((hf z (by simp [hz]) x (by simp)).mpr hsame)
  · rintro ⟨x, rfl, before, after, rfl, hafter⟩
    refine ⟨before.map f, after.map f, by simp, ?_⟩
    intro z hz hsame
    obtain ⟨w, hw, rfl⟩ := List.mem_map.mp hz
    exact hafter w hw ((hf w (by simp [hw]) x (by simp)).mp hsame)

end KeyedTable
