import Mathlib.Data.List.Induction
import NetworkFileServer.Framework.TransitionSystem

/-!
# The last change of a property

A property that some actions set and others break holds after a run exactly if an action of the run has set
it and none since has broken it. Whether an action sets it may depend on the run before.
-/

namespace TransitionSystem

variable {σ α : Type*} {step : σ → α → Option σ} {sets : List α → σ → α → Prop} {breaks : σ → α → Prop}
  {s t u : σ} {a : α} {as : List α}

theorem guarded_concat {cond : σ → α → Prop} (hrun : run step s as = some t) :
    Guarded step cond s (as ++ [a]) ↔ Guarded step cond s as ∧ cond t a := by
  constructor
  · intro h
    obtain ⟨hinit, hlast⟩ := h.of_append
    exact ⟨hinit, (hlast t hrun).1⟩
  · rintro ⟨hinit, hlast⟩
    apply hinit.append
    intro t' ht'
    rw [hrun] at ht'
    cases ht'
    exact ⟨hlast, fun _ _ => trivial⟩

theorem run_concat (hrun : run step s as = some t) : run step s (as ++ [a]) = step t a := by
  rw [run_append, hrun, Option.bind_some, run_cons]
  exact Option.bind_fun_some (step t a)

theorem exists_of_run_concat (h : run step s (as ++ [a]) = some u) :
    ∃ t, run step s as = some t ∧ step t a = some u := by
  rw [run_append] at h
  obtain ⟨t, hrun, hlast⟩ := Option.bind_eq_some_iff.mp h
  exact ⟨t, hrun, by rwa [← run_concat hrun, run_append, hrun]⟩

variable (step sets breaks) in
/-- An action of the run sets the property, and no later one breaks it. -/
def Since (s : σ) (as : List α) : Prop :=
  ∃ before a after t u, as = before ++ a :: after ∧ run step s before = some t ∧ step t a = some u ∧
    sets before t a ∧ Guarded step (fun v b => ¬breaks v b) u after

theorem not_since_nil : ¬Since step sets breaks s [] := by
  rintro ⟨before, a, after, t, u, heq, -⟩
  cases before <;> cases heq

theorem since_concat (hrun : run step s as = some t) (hstep : step t a = some u) :
    Since step sets breaks s (as ++ [a]) ↔ sets as t a ∨ Since step sets breaks s as ∧ ¬breaks t a := by
  constructor
  · rintro ⟨before, b, after, v, w, heq, hbefore, hb, hsets, hafter⟩
    rcases List.eq_nil_or_concat after with rfl | ⟨init, last, rfl⟩
    · obtain ⟨rfl, hlast⟩ := List.append_inj' heq rfl
      cases hlast
      rw [hrun] at hbefore
      cases hbefore
      exact .inl hsets
    · rw [List.concat_eq_append, ← List.cons_append, ← List.append_assoc] at heq
      obtain ⟨rfl, hlast⟩ := List.append_inj' heq rfl
      cases hlast
      rw [run_append, hbefore, Option.bind_some, run_cons, hb, Option.bind_some] at hrun
      rw [List.concat_eq_append, guarded_concat hrun] at hafter
      exact .inr ⟨⟨before, b, init, v, w, rfl, hbefore, hb, hsets, hafter.1⟩, hafter.2⟩
  · rintro (hsets | ⟨⟨before, b, after, v, w, rfl, hbefore, hb, hsets, hafter⟩, hnot⟩)
    · exact ⟨as, a, [], t, u, rfl, hrun, hstep, hsets, trivial⟩
    · rw [run_append, hbefore, Option.bind_some, run_cons, hb, Option.bind_some] at hrun
      refine ⟨before, b, after ++ [a], v, w, by simp, hbefore, hb, hsets, ?_⟩
      exact (guarded_concat hrun).mpr ⟨hafter, hnot⟩

/-- The rule: what one step does to the property says what the run has done to it. The steps are those of the run,
and of the states on the way it may be assumed that they meet what the last one does and no step can bring about. -/
theorem holds_iff_since_of_before {P : σ → Prop} (within : σ → Prop) (hstart : ¬P s)
    (hback : ∀ t a u, step t a = some u → within u → within t)
    (hstep : ∀ before t a u, before ++ [a] <+: as → run step s before = some t → step t a = some u → within u →
      (P u ↔ sets before t a ∨ P t ∧ ¬breaks t a))
    (hrun : run step s as = some t) (hwithin : within t) : P t ↔ Since step sets breaks s as := by
  induction as using List.reverseRecOn generalizing t with
  | nil =>
      cases hrun
      exact iff_of_false hstart not_since_nil
  | append_singleton as a ih =>
      obtain ⟨v, hv, ha⟩ := exists_of_run_concat hrun
      have hinit := ih (fun before t b u hpre => hstep before t b u (hpre.trans (List.prefix_append as [a]))) hv
        (hback v a t ha hwithin)
      rw [since_concat hv ha, hstep as v a t List.prefix_rfl hv ha hwithin, hinit]

theorem holds_iff_since {P : σ → Prop} (hstart : ¬P s) (hstep : ∀ before t a u, run step s before = some t →
    step t a = some u → (P u ↔ sets before t a ∨ P t ∧ ¬breaks t a)) (hrun : run step s as = some t) :
    P t ↔ Since step sets breaks s as :=
  holds_iff_since_of_before (fun _ => True) hstart (fun _ _ _ _ h => h)
    (fun before t a u _ hbefore hlast _ => hstep before t a u hbefore hlast) hrun trivial

end TransitionSystem
