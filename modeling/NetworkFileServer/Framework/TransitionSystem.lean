import Mathlib.Algebra.GroupWithZero.Nat
import Mathlib.Data.List.Basic
import Mathlib.Logic.Relation

/-!
# Schedules of a transition system

A concurrent component is a state type with a partial step function: an action names who moves,
and `none` means that the action is not enabled. A run is a list of actions, so the scheduler is
the list itself and "every interleaving" is a quantifier over lists.
-/

namespace TransitionSystem

variable {σ α : Type*}

/-- Execute a schedule. Every action has to be enabled in the state that it meets. -/
def run (step : σ → α → Option σ) : σ → List α → Option σ
  | s, [] => some s
  | s, a :: as => (step s a).bind fun t => run step t as

/-- Every action of the schedule meets the condition in the state in which it is taken. -/
def Guarded (step : σ → α → Option σ) (cond : σ → α → Prop) : σ → List α → Prop
  | _, [] => True
  | s, a :: as => cond s a ∧ ∀ t, step s a = some t → Guarded step cond t as

instance decidableGuarded (step : σ → α → Option σ) (cond : σ → α → Prop)
    [∀ s a, Decidable (cond s a)] (s : σ) (as : List α) : Decidable (Guarded step cond s as) :=
  match as with
  | [] => isTrue trivial
  | a :: as =>
      let rest : Decidable (∀ t, step s a = some t → Guarded step cond t as) :=
        match h : step s a with
        | none => isTrue fun t ht => by simp at ht
        | some t =>
            have := decidableGuarded step cond t as
            decidable_of_iff (Guarded step cond t as) (by simp)
      inferInstanceAs (Decidable (_ ∧ _))

/-- The property holds in every state that the schedule goes through. -/
def Throughout (step : σ → α → Option σ) (P : σ → Prop) : σ → List α → Prop
  | s, [] => P s
  | s, a :: as => P s ∧ ∀ t, step s a = some t → Throughout step P t as

/-- No action is enabled. -/
def Quiescent (step : σ → α → Option σ) (s : σ) : Prop := ∀ a, step s a = none

@[simp] theorem run_nil (step : σ → α → Option σ) (s : σ) : run step s [] = some s := rfl

theorem run_cons (step : σ → α → Option σ) (s : σ) (a : α) (as : List α) :
    run step s (a :: as) = (step s a).bind fun t => run step t as := rfl

theorem run_cons_eq_some (step : σ → α → Option σ) (s u : σ) (a : α) (as : List α) :
    run step s (a :: as) = some u ↔ ∃ t, step s a = some t ∧ run step t as = some u := by
  rw [run_cons, Option.bind_eq_some_iff]

theorem run_append (step : σ → α → Option σ) (s : σ) (as bs : List α) :
    run step s (as ++ bs) = (run step s as).bind fun t => run step t bs := by
  induction as generalizing s with
  | nil => rfl
  | cons a as ih =>
      rw [List.cons_append, run_cons, run_cons]
      cases step s a with
      | none => rfl
      | some t => exact ih t

theorem run_append_of_eq_some (step : σ → α → Option σ) {s t u : σ} {as bs : List α}
    (h : run step s as = some t) (h' : run step t bs = some u) :
    run step s (as ++ bs) = some u := by
  rw [run_append, h]
  exact h'

theorem exists_run_of_total (step : σ → α → Option σ) (htotal : ∀ s a, (step s a).isSome = true) (s : σ)
    (as : List α) : ∃ t, run step s as = some t := by
  induction as generalizing s with
  | nil => exact ⟨s, rfl⟩
  | cons a as ih =>
      obtain ⟨u, hu⟩ := Option.isSome_iff_exists.mp (htotal s a)
      obtain ⟨t, ht⟩ := ih u
      exact ⟨t, (run_cons_eq_some step s t a as).mpr ⟨u, hu, ht⟩⟩

theorem run_invariant (step : σ → α → Option σ) (inv : σ → Prop)
    (hstep : ∀ s a t, inv s → step s a = some t → inv t) {s t : σ} {as : List α}
    (hs : inv s) (hrun : run step s as = some t) : inv t := by
  induction as generalizing s with
  | nil =>
      cases hrun
      exact hs
  | cons a as ih =>
      obtain ⟨u, hu, hrest⟩ := (run_cons_eq_some step s t a as).mp hrun
      exact ih (hstep s a u hs hu) hrest

theorem run_invariant_of_guarded (step : σ → α → Option σ) (cond : σ → α → Prop)
    (inv : σ → Prop) (hstep : ∀ s a t, inv s → cond s a → step s a = some t → inv t)
    {s t : σ} {as : List α} (hs : inv s) (hguard : Guarded step cond s as)
    (hrun : run step s as = some t) : inv t := by
  induction as generalizing s with
  | nil =>
      cases hrun
      exact hs
  | cons a as ih =>
      obtain ⟨u, hu, hrest⟩ := (run_cons_eq_some step s t a as).mp hrun
      exact ih (hstep s a u hs hguard.1 hu) (hguard.2 u hu) hrest

theorem run_related (step : σ → α → Option σ) (R : σ → σ → Prop)
    (hstep : ∀ s t a s' t', R s t → step s a = some s' → step t a = some t' → R s' t') {s t s' t' : σ}
    {as : List α} (h : R s t) (hs : run step s as = some s') (ht : run step t as = some t') : R s' t' := by
  induction as generalizing s t with
  | nil =>
      cases hs
      cases ht
      exact h
  | cons a as ih =>
      obtain ⟨u, hu, hs⟩ := (run_cons_eq_some step s s' a as).mp hs
      obtain ⟨v, hv, ht⟩ := (run_cons_eq_some step t t' a as).mp ht
      exact ih (hstep s t a u v h hu hv) hs ht

theorem run_map {τ : Type*} (step : σ → α → Option σ) (step' : τ → α → Option τ) (f : σ → τ)
    (hstep : ∀ s a, (step s a).map f = step' (f s) a) (s : σ) (as : List α) :
    (run step s as).map f = run step' (f s) as := by
  induction as generalizing s with
  | nil => rfl
  | cons a as ih =>
      rw [run_cons, run_cons, ← hstep s a]
      cases step s a with
      | none => rfl
      | some t => exact ih t

theorem Guarded.and {step : σ → α → Option σ} {cond cond' : σ → α → Prop} {s : σ} {as : List α}
    (h : Guarded step cond s as) (h' : Guarded step cond' s as) :
    Guarded step (fun s a => cond s a ∧ cond' s a) s as := by
  induction as generalizing s with
  | nil => trivial
  | cons a as ih =>
      refine ⟨⟨h.1, h'.1⟩, ?_⟩
      intro t ht
      exact ih (h.2 t ht) (h'.2 t ht)

theorem Guarded.append {step : σ → α → Option σ} {cond : σ → α → Prop} {s : σ} {as bs : List α}
    (h : Guarded step cond s as) (hrest : ∀ t, run step s as = some t → Guarded step cond t bs) :
    Guarded step cond s (as ++ bs) := by
  induction as generalizing s with
  | nil => exact hrest s rfl
  | cons a as ih =>
      refine ⟨h.1, ?_⟩
      intro t ht
      refine ih (h.2 t ht) ?_
      intro u hu
      exact hrest u ((run_cons_eq_some step s u a as).mpr ⟨t, ht, hu⟩)

theorem Guarded.of_append {step : σ → α → Option σ} {cond : σ → α → Prop} {s : σ} {as bs : List α}
    (h : Guarded step cond s (as ++ bs)) :
    Guarded step cond s as ∧ ∀ t, run step s as = some t → Guarded step cond t bs := by
  induction as generalizing s with
  | nil =>
      refine ⟨trivial, ?_⟩
      intro t ht
      cases ht
      exact h
  | cons a as ih =>
      refine ⟨⟨h.1, fun t ht => (ih (h.2 t ht)).1⟩, ?_⟩
      intro u hu
      obtain ⟨t, ht, hrest⟩ := (run_cons_eq_some step s u a as).mp hu
      exact (ih (h.2 t ht)).2 u hrest

theorem Throughout.head {step : σ → α → Option σ} {P : σ → Prop} {s : σ} {as : List α}
    (h : Throughout step P s as) : P s := by
  cases as with
  | nil => exact h
  | cons a as => exact h.1

theorem Throughout.last {step : σ → α → Option σ} {P : σ → Prop} {s t : σ} {as : List α}
    (h : Throughout step P s as) (hrun : run step s as = some t) : P t := by
  induction as generalizing s with
  | nil =>
      cases hrun
      exact h
  | cons a as ih =>
      obtain ⟨u, hu, hrest⟩ := (run_cons_eq_some step s t a as).mp hrun
      exact ih (h.2 u hu) hrest

/-- What an invariant implies holds in every state of a run whose steps all meet the condition. -/
theorem throughout_of_guarded (step : σ → α → Option σ) (cond : σ → α → Prop) (inv P : σ → Prop)
    (hP : ∀ s, inv s → P s) (hstep : ∀ s a t, inv s → cond s a → step s a = some t → inv t)
    {s : σ} {as : List α} (hs : inv s) (hguard : Guarded step cond s as) : Throughout step P s as := by
  induction as generalizing s with
  | nil => exact hP s hs
  | cons a as ih =>
      refine ⟨hP s hs, ?_⟩
      intro t ht
      exact ih (hstep s a t hs hguard.1 ht) (hguard.2 t ht)

theorem throughout_of_invariant (step : σ → α → Option σ) (inv P : σ → Prop) (hP : ∀ s, inv s → P s)
    (hstep : ∀ s a t, inv s → step s a = some t → inv t) {s : σ} (hs : inv s) (as : List α) :
    Throughout step P s as := by
  induction as generalizing s with
  | nil => exact hP s hs
  | cons a as ih =>
      refine ⟨hP s hs, ?_⟩
      intro t ht
      exact ih (hstep s a t hs ht)

/-- A condition that an invariant carries is met at every step. -/
theorem guarded_of_invariant (step : σ → α → Option σ) (cond cond' : σ → α → Prop) (inv : σ → Prop)
    (hcond : ∀ s a, inv s → cond s a → cond' s a)
    (hstep : ∀ s a t, inv s → cond s a → step s a = some t → inv t)
    {s : σ} {as : List α} (hs : inv s) (hguard : Guarded step cond s as) : Guarded step cond' s as := by
  induction as generalizing s with
  | nil => trivial
  | cons a as ih =>
      refine ⟨hcond s a hs hguard.1, ?_⟩
      intro t ht
      exact ih (hstep s a t hs hguard.1 ht) (hguard.2 t ht)

theorem guarded_of_forall (step : σ → α → Option σ) (cond : α → Prop) (s : σ) (as : List α)
    (h : ∀ a ∈ as, cond a) : Guarded step (fun _ a => cond a) s as := by
  induction as generalizing s with
  | nil => trivial
  | cons a as ih => exact ⟨h a List.mem_cons_self, fun t _ => ih t fun b hb => h b (List.mem_cons_of_mem a hb)⟩

theorem guarded_true (step : σ → α → Option σ) (s : σ) (as : List α) :
    Guarded step (fun _ _ => True) s as :=
  guarded_of_forall step (fun _ => True) s as fun _ _ => trivial

/-- In the runs that the environment allows, a condition that an invariant needs at every step, and
whose violation shows in the next state, is exactly what a run has to meet. -/
theorem throughout_iff_guarded_of_allowed (step : σ → α → Option σ) (allowed cond : σ → α → Prop)
    (inv P : σ → Prop) (hP : ∀ s, inv s → P s)
    (hstep : ∀ s a t, inv s → allowed s a → cond s a → step s a = some t → inv t)
    (hbroken : ∀ s a t, inv s → allowed s a → ¬ cond s a → step s a = some t → ¬ P t)
    {s u : σ} {as : List α} (hs : inv s) (hallowed : Guarded step allowed s as)
    (hrun : run step s as = some u) : Throughout step P s as ↔ Guarded step cond s as := by
  induction as generalizing s with
  | nil => exact ⟨fun _ => trivial, fun _ => hP s hs⟩
  | cons a as ih =>
      obtain ⟨t, ht, hrest⟩ := (run_cons_eq_some step s u a as).mp hrun
      have hnext : ∀ t', step s a = some t' → t' = t := by
        intro t' ht'
        exact Option.some.inj (ht'.symm.trans ht)
      constructor
      · intro h
        have hcond : cond s a := by
          by_contra hnot
          exact hbroken s a t hs hallowed.1 hnot ht (h.2 t ht).head
        refine ⟨hcond, ?_⟩
        intro t' ht'
        rw [hnext t' ht']
        exact (ih (hstep s a t hs hallowed.1 hcond ht) (hallowed.2 t ht) hrest).mp (h.2 t ht)
      · intro h
        refine ⟨hP s hs, ?_⟩
        intro t' ht'
        rw [hnext t' ht']
        exact (ih (hstep s a t hs hallowed.1 h.1 ht) (hallowed.2 t ht) hrest).mpr (h.2 t ht)

theorem throughout_iff_guarded (step : σ → α → Option σ) (cond : σ → α → Prop) (inv P : σ → Prop)
    (hP : ∀ s, inv s → P s) (hstep : ∀ s a t, inv s → cond s a → step s a = some t → inv t)
    (hbroken : ∀ s a t, inv s → ¬ cond s a → step s a = some t → ¬ P t)
    {s u : σ} {as : List α} (hs : inv s) (hrun : run step s as = some u) :
    Throughout step P s as ↔ Guarded step cond s as :=
  throughout_iff_guarded_of_allowed step (fun _ _ => True) cond inv P hP
    (fun s a t hinv _ => hstep s a t hinv) (fun s a t hinv _ => hbroken s a t hinv) hs
    (guarded_true step s as) hrun

theorem exists_run_replicate (step : σ → α → Option σ) (a : α) {s t : σ}
    (h : Relation.ReflTransGen (fun x y => step x a = some y) s t) :
    ∃ n, run step s (List.replicate n a) = some t := by
  induction h using Relation.ReflTransGen.head_induction_on with
  | refl => exact ⟨0, rfl⟩
  | head hstep _ ih =>
      obtain ⟨n, hn⟩ := ih
      exact ⟨n + 1, (run_cons_eq_some step _ t a _).mpr ⟨_, hstep, hn⟩⟩

theorem getElem?_set_cases {π : Type*} {calls : List π} {i j : Nat} {p q : π}
    (h : (calls.set i p)[j]? = some q) :
    (j = i ∧ q = p) ∨ (j ≠ i ∧ calls[j]? = some q) := by
  by_cases hij : j = i
  · subst hij
    obtain ⟨hlt, hget⟩ := List.getElem?_eq_some_iff.mp h
    exact .inl ⟨rfl, by simpa using hget.symm⟩
  · rw [List.getElem?_set_ne (Ne.symm hij)] at h
    exact .inr ⟨hij, h⟩

theorem getElem?_concat_cases {π : Type*} {calls : List π} {j : Nat} {p q : π}
    (h : (calls ++ [p])[j]? = some q) :
    calls[j]? = some q ∨ (j = calls.length ∧ q = p) := by
  rcases Nat.lt_trichotomy j calls.length with hlt | heq | hgt
  · rw [List.getElem?_append_left hlt] at h
    exact .inl h
  · subst heq
    rw [List.getElem?_concat_length] at h
    exact .inr ⟨rfl, (Option.some.inj h).symm⟩
  · rw [List.getElem?_eq_none (by simp; omega)] at h
    cases h

-- Shortcuts for the literals of `Fin 1` and `Fin 2`, which number the parties of a small system.
instance neZero_one : NeZero 1 := ⟨Nat.one_ne_zero⟩

instance neZero_two : NeZero 2 := ⟨Nat.succ_ne_zero 1⟩

end TransitionSystem
