import Mathlib.Data.List.Basic
import Mathlib.Data.List.Nodup

/-!
# Insertion-ordered dictionaries

An association list in which assigning to a key that is there keeps its position, as a Python `dict`
does.
-/

abbrev OrderedDict (κ ν : Type*) := List (κ × ν)

namespace OrderedDict

variable {κ ν : Type*}

def set [DecidableEq κ] : OrderedDict κ ν → κ → ν → OrderedDict κ ν
  | [], k, v => [(k, v)]
  | (k', v') :: d, k, v => if k' = k then (k, v) :: d else (k', v') :: set d k v

/-- The value of the first entry whose key satisfies `p`. -/
def lookup (p : κ → Bool) (d : OrderedDict κ ν) : Option ν :=
  (d.find? fun e => p e.1).map Prod.snd

theorem mem_set_key [DecidableEq κ] (d : OrderedDict κ ν) (k : κ) (v : ν) (e : κ × ν) (h : e ∈ d.set k v) :
    e = (k, v) ∨ e ∈ d := by
  induction d with
  | nil => simpa [set] using h
  | cons e' d ih =>
      obtain ⟨k', v'⟩ := e'
      simp only [set] at h
      split at h
      · rcases List.mem_cons.mp h with rfl | hd
        · exact .inl rfl
        · exact .inr (List.mem_cons_of_mem _ hd)
      · rcases List.mem_cons.mp h with rfl | hd
        · exact .inr List.mem_cons_self
        · exact (ih hd).imp_right (List.mem_cons_of_mem _)

/-- In a dictionary without repeated keys an assignment leaves no other value under its key. -/
theorem mem_set_of_nodup [DecidableEq κ] (d : OrderedDict κ ν) (k : κ) (v : ν) (e : κ × ν)
    (hd : (d.map Prod.fst).Nodup) (h : e ∈ d.set k v) : e = (k, v) ∨ e ∈ d ∧ e.1 ≠ k := by
  induction d with
  | nil =>
      left
      simpa [set] using h
  | cons e' d ih =>
      obtain ⟨k', v'⟩ := e'
      obtain ⟨hk', hd'⟩ := List.nodup_cons.mp hd
      simp only [set] at h
      split at h
      · rename_i heq
        rcases List.mem_cons.mp h with rfl | hmem
        · exact .inl rfl
        · right
          refine ⟨List.mem_cons_of_mem _ hmem, ?_⟩
          intro hkey
          exact hk' (List.mem_map.mpr ⟨e, hmem, hkey.trans heq.symm⟩)
      · rename_i hne
        rcases List.mem_cons.mp h with rfl | hmem
        · exact .inr ⟨List.mem_cons_self, hne⟩
        · rcases ih hd' hmem with heq | ⟨hold, hne'⟩
          · exact .inl heq
          · exact .inr ⟨List.mem_cons_of_mem _ hold, hne'⟩

theorem nodup_set [DecidableEq κ] (d : OrderedDict κ ν) (k : κ) (v : ν)
    (hd : (d.map Prod.fst).Nodup) : ((d.set k v).map Prod.fst).Nodup := by
  induction d with
  | nil => simp [set]
  | cons e' d ih =>
      obtain ⟨k', v'⟩ := e'
      obtain ⟨hk', hd'⟩ := List.nodup_cons.mp hd
      simp only [set]
      split
      · rename_i heq
        rw [List.map_cons, List.nodup_cons]
        exact ⟨heq ▸ hk', hd'⟩
      · rename_i hne
        rw [List.map_cons, List.nodup_cons]
        refine ⟨?_, ih hd'⟩
        intro hmem
        obtain ⟨e, he, hkey⟩ := List.mem_map.mp hmem
        rcases mem_set_key d k v e he with rfl | hold
        · exact hne hkey.symm
        · exact hk' (List.mem_map.mpr ⟨e, hold, hkey⟩)

theorem mem_of_lookup [DecidableEq κ] (d : OrderedDict κ ν) (k : κ) (v : ν)
    (h : d.lookup (fun k' => decide (k' = k)) = some v) : (k, v) ∈ d := by
  obtain ⟨e, he, hv⟩ := Option.map_eq_some_iff.mp h
  have hkey : e.1 = k := by simpa using List.find?_some he
  have hmem := List.mem_of_find?_eq_some he
  rwa [← hkey, ← hv]

theorem lookup_set_of_not [DecidableEq κ] (p : κ → Bool) (d : OrderedDict κ ν) (k : κ) (v : ν)
    (hk : p k = false) :
    (d.set k v).lookup p = d.lookup p := by
  induction d with
  | nil => simp [set, lookup, hk]
  | cons e d ih =>
      obtain ⟨k', v'⟩ := e
      simp only [set]
      split
      · rename_i heq
        subst heq
        simp [lookup, hk]
      · cases hp : p k' with
        | true => simp [lookup, hp]
        | false => simpa [lookup, hp] using ih

theorem lookup_set_of_none [DecidableEq κ] (p : κ → Bool) (d : OrderedDict κ ν) (k : κ) (v : ν)
    (hk : p k = true) (hd : d.lookup p = none) : (d.set k v).lookup p = some v := by
  induction d with
  | nil => simp [set, lookup, hk]
  | cons e d ih =>
      obtain ⟨k', v'⟩ := e
      have hp : p k' = false := by
        by_contra hne
        simp [lookup, hne] at hd
      have hne : k' ≠ k := by
        intro heq
        rw [heq, hk] at hp
        cases hp
      have hd' : lookup p d = none := by simpa [lookup, hp] using hd
      simpa [set, hne, lookup, hp] using ih hd'

theorem lookup_eq_none (p : κ → Bool) (d : OrderedDict κ ν) (h : ∀ e ∈ d, p e.1 = false) :
    d.lookup p = none := by
  have hnone : d.find? (fun e => p e.1) = none := by
    rw [List.find?_eq_none]
    intro e he
    simp [h e he]
  simp [lookup, hnone]

section

variable [DecidableEq κ]

def get (d : OrderedDict κ ν) (k : κ) : Option ν := d.lookup fun k' => decide (k' = k)

/-- `pop(k, None)` -/
def erase (d : OrderedDict κ ν) (k : κ) : OrderedDict κ ν := d.filter fun e => e.1 ≠ k

/-- The dictionary that is filled with the entries of a list, one after another. -/
def fill (entries : List (κ × ν)) : OrderedDict κ ν := entries.foldl (fun d e => d.set e.1 e.2) []

theorem mem_set_self (d : OrderedDict κ ν) (k : κ) (v : ν) : (k, v) ∈ d.set k v := by
  induction d with
  | nil => simp [set]
  | cons e d ih =>
      obtain ⟨k', v'⟩ := e
      simp only [set]
      split
      · exact List.mem_cons_self
      · exact List.mem_cons_of_mem _ ih

theorem mem_set_of_ne (d : OrderedDict κ ν) (k : κ) (v : ν) (e : κ × ν) (h : e ∈ d) (hne : e.1 ≠ k) :
    e ∈ d.set k v := by
  induction d with
  | nil => cases h
  | cons e' d ih =>
      obtain ⟨k', v'⟩ := e'
      simp only [set]
      split
      · rename_i heq
        rcases List.mem_cons.mp h with rfl | hd
        · exact absurd heq hne
        · exact List.mem_cons_of_mem _ hd
      · rcases List.mem_cons.mp h with rfl | hd
        · exact List.mem_cons_self
        · exact List.mem_cons_of_mem _ (ih hd)

theorem set_append_of_not_mem (d : OrderedDict κ ν) (k : κ) (v : ν) (h : k ∉ d.map Prod.fst) :
    d.set k v = d ++ [(k, v)] := by
  induction d with
  | nil => rfl
  | cons e d ih =>
      obtain ⟨k', v'⟩ := e
      rw [List.map_cons, List.mem_cons, not_or] at h
      simp only [set, if_neg (Ne.symm h.1), ih h.2, List.cons_append]

theorem fill_of_nodup (entries : List (κ × ν)) (h : (entries.map Prod.fst).Nodup) : fill entries = entries := by
  suffices hall : ∀ d : OrderedDict κ ν, ((d ++ entries).map Prod.fst).Nodup →
      entries.foldl (fun d e => d.set e.1 e.2) d = d ++ entries from hall [] h
  clear h
  induction entries with
  | nil => simp
  | cons e entries ih =>
      intro d hd
      have hnew : e.1 ∉ d.map Prod.fst := by
        rw [List.map_append, List.map_cons] at hd
        intro hmem
        exact (List.nodup_append.mp hd).2.2 e.1 hmem e.1 List.mem_cons_self rfl
      rw [List.foldl_cons, set_append_of_not_mem d e.1 e.2 hnew, ih]
      · simp
      · simpa using hd

theorem get_eq_some_of_mem (d : OrderedDict κ ν) (k : κ) (v : ν) (hd : (d.map Prod.fst).Nodup)
    (h : (k, v) ∈ d) : d.get k = some v := by
  induction d with
  | nil => cases h
  | cons e d ih =>
      obtain ⟨hkey, hd⟩ := List.nodup_cons.mp hd
      rcases List.mem_cons.mp h with rfl | hmem
      · simp [get, lookup]
      · have hne : e.1 ≠ k := by
          rintro rfl
          exact hkey (List.mem_map.mpr ⟨(e.1, v), hmem, rfl⟩)
        have hrest := ih hd hmem
        simpa [get, lookup, hne] using hrest

theorem get_eq_none_iff (d : OrderedDict κ ν) (k : κ) : d.get k = none ↔ k ∉ d.map Prod.fst := by
  unfold get lookup
  rw [Option.map_eq_none_iff, List.find?_eq_none]
  simp only [List.mem_map, decide_eq_true_eq, not_exists, not_and]

theorem get_set_of_ne (d : OrderedDict κ ν) (k k' : κ) (v : ν) (hne : k' ≠ k) :
    (d.set k v).get k' = d.get k' :=
  lookup_set_of_not _ d k v (by simp [Ne.symm hne])

theorem get_set_self (d : OrderedDict κ ν) (k : κ) (v : ν) : (d.set k v).get k = some v := by
  induction d with
  | nil => simp [set, get, lookup]
  | cons e d ih =>
      obtain ⟨k', v'⟩ := e
      simp only [set]
      split
      · simp [get, lookup]
      · rename_i hne
        simpa [get, lookup, hne] using ih

theorem get_erase_self (d : OrderedDict κ ν) (k : κ) : (d.erase k).get k = none := by
  rw [get_eq_none_iff]
  intro hmem
  obtain ⟨e, he, hkey⟩ := List.mem_map.mp hmem
  exact absurd hkey (by simpa using (List.mem_filter.mp he).2)

theorem get_erase_of_ne (d : OrderedDict κ ν) (k k' : κ) (hne : k' ≠ k) : (d.erase k).get k' = d.get k' := by
  induction d with
  | nil => rfl
  | cons e d ih =>
      unfold erase at ih ⊢
      by_cases hkey : e.1 = k
      · have hskip : e.1 ≠ k' := by
          rintro heq
          exact hne (heq.symm.trans hkey)
        rw [List.filter_cons_of_neg (by simp [hkey]), ih]
        simp [get, lookup, hskip]
      · rw [List.filter_cons_of_pos (by simp [hkey])]
        by_cases hfound : e.1 = k'
        · simp [get, lookup, hfound]
        · simpa [get, lookup, hfound] using ih

theorem nodup_erase (d : OrderedDict κ ν) (k : κ) (hd : (d.map Prod.fst).Nodup) :
    ((d.erase k).map Prod.fst).Nodup :=
  hd.sublist (List.filter_sublist.map Prod.fst)

end

end OrderedDict
