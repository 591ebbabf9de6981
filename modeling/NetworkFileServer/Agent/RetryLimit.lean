import Mathlib.Algebra.Order.Ring.Abs
import Mathlib.Tactic.Ring
import NetworkFileServer.Agent.ReconnectLoop

/-!
# How often the reconnect loop retries

`compute_backoff` forms the power of two before it caps the delay, and `run_agent_loop` computes the delay in
the handler of the exception, outside the `try`. The power grows with the failures in a row until it is too
large for a `float`.
-/

namespace NetworkFileServer.Agent

open TransitionSystem

theorem floatTimesInt_two_pow (x : ℚ) (n : Nat) :
    floatTimesInt x (2 ^ n) = if n < floatBits then .ok (x * 2 ^ n) else .error .overflow := by
  have hle : 2 ^ floatBits ≤ 2 ^ n ↔ floatBits ≤ n := Nat.pow_le_pow_iff_right Nat.one_lt_two
  unfold floatTimesInt
  by_cases hn : n < floatBits
  · rw [if_neg (fun h => absurd (hle.mp h) (by omega)), if_pos hn, Nat.cast_pow, Nat.cast_ofNat]
  · rw [if_pos (hle.mpr (by omega)), if_neg hn]

theorem jittered_bounds (expDelay cap jitterFactor uniform : ℚ) (hpos : 0 ≤ expDelay) (hle : expDelay ≤ cap)
    (huniform : |uniform| ≤ jitterFactor) :
    0 ≤ max 0 (expDelay + uniform * expDelay) ∧
      max 0 (expDelay + uniform * expDelay) ≤ cap * (1 + jitterFactor) := by
  have hjitter : 0 ≤ jitterFactor := (abs_nonneg uniform).trans huniform
  have hfactor : 1 + uniform ≤ 1 + jitterFactor := by
    have := (le_abs_self uniform).trans huniform
    linarith
  refine ⟨le_max_left _ _, max_le ?_ ?_⟩
  · exact mul_nonneg (hpos.trans hle) (by linarith)
  · calc expDelay + uniform * expDelay = expDelay * (1 + uniform) := by ring
      _ ≤ expDelay * (1 + jitterFactor) := mul_le_mul_of_nonneg_left hfactor hpos
      _ ≤ cap * (1 + jitterFactor) := mul_le_mul_of_nonneg_right hle (by linarith)

section Valid

variable (attempt : Nat) (base cap jitterFactor uniform : ℚ) (hattempt : 1 ≤ attempt) (hbase : 0 < base)
  (hcap : base ≤ cap) (hjitter : 0 ≤ jitterFactor ∧ jitterFactor ≤ 1)

include hattempt hbase hcap hjitter

theorem computeBackoff_of_valid :
    computeBackoff attempt base cap jitterFactor uniform =
      (floatTimesInt base (2 ^ (attempt - 1))).map fun product =>
        max 0 (min product cap + uniform * min product cap) := by
  rw [computeBackoff, if_neg (by omega), if_neg (not_le.mpr hbase), if_neg (not_lt.mpr hcap),
    if_neg (not_not.mpr hjitter)]

theorem computeBackoff_overflow (h : floatBits < attempt) :
    computeBackoff attempt base cap jitterFactor uniform = .error .overflow := by
  rw [computeBackoff_of_valid attempt base cap jitterFactor uniform hattempt hbase hcap hjitter,
    floatTimesInt_two_pow, if_neg (by omega)]
  rfl

theorem computeBackoff_bounded (huniform : |uniform| ≤ jitterFactor) (h : attempt ≤ floatBits) :
    ∃ delay, computeBackoff attempt base cap jitterFactor uniform = .ok delay ∧
      0 ≤ delay ∧ delay ≤ cap * (1 + jitterFactor) := by
  rw [computeBackoff_of_valid attempt base cap jitterFactor uniform hattempt hbase hcap hjitter,
    floatTimesInt_two_pow, if_pos (by omega)]
  refine ⟨_, rfl, jittered_bounds _ cap jitterFactor uniform ?_ (min_le_right _ _) huniform⟩
  exact le_min (by positivity) (hbase.le.trans hcap)

/-- For valid arguments the delay is returned, within its bounds, for the first 1024 attempts and no others. -/
theorem computeBackoff_bounded_iff (huniform : |uniform| ≤ jitterFactor) :
    (∃ delay, computeBackoff attempt base cap jitterFactor uniform = .ok delay ∧
        0 ≤ delay ∧ delay ≤ cap * (1 + jitterFactor)) ↔ attempt ≤ floatBits := by
  constructor
  · rintro ⟨delay, hok, -⟩
    by_contra hlarge
    rw [computeBackoff_overflow attempt base cap jitterFactor uniform hattempt hbase hcap hjitter
      (not_le.mp hlarge)] at hok
    cases hok
  · exact computeBackoff_bounded attempt base cap jitterFactor uniform hattempt hbase hcap hjitter huniform

end Valid

/-- The event is none of those that end the loop: `AgentAuthError`, the end of the TTL, `KeyboardInterrupt`. -/
def LoopEvent.retried : LoopEvent → Bool
  | .authFails | .expire | .interrupt => false
  | _ => true

namespace AgentLoop

def KeepsRetrying (s : AgentLoop) : Prop := s.phase ≠ .ended

/-- An exception is not the 1025th one in a row. -/
def FewFailures (s : AgentLoop) : LoopEvent → Bool
  | .fails _ | .factoryFails _ _ | .closeFails _ => s.attempt < floatBits
  | .drained _ =>
      match s.phase with
      | .draining _ _ raised _ => !raised || s.attempt < floatBits
      | _ => true
  | _ => true

/-- The loop goes on, and no TTL has run out. -/
structure Going (s : AgentLoop) : Prop where
  retrying : s.KeepsRetrying
  lasting : ∀ code registered raised, s.phase ≠ .draining code registered raised true

theorem going_start (begin : ℚ) : (start begin).Going where
  retrying := by simp [KeepsRetrying, start]
  lasting := by simp [start]

/-- `compute_backoff` returns for the first 1024 failures in a row, and the loop ends at the next one. -/
theorem retry_phase (s : AgentLoop) (uniform : ℚ) (huniform : |uniform| ≤ 1 / 2) :
    (s.attempt < floatBits ∧ ∃ delay, 0 ≤ delay ∧ delay ≤ 90 ∧
        s.retry uniform = { s with attempt := s.attempt + 1, phase := .sleeping (s.now + delay) }) ∨
      ¬s.attempt < floatBits ∧ s.retry uniform = { s with attempt := s.attempt + 1, phase := .ended } := by
  have hbounded := computeBackoff_bounded_iff (s.attempt + 1) 1 60 (1 / 2) uniform (by omega) (by norm_num)
    (by norm_num) (by norm_num) huniform
  rcases s.retry_cases uniform with ⟨delay, hok, hretry⟩ | ⟨e, herror, hretry⟩
  · left
    by_cases hfew : s.attempt < floatBits
    · obtain ⟨delay', hok', hpos, hle⟩ := hbounded.mpr hfew
      cases hok.symm.trans hok'
      exact ⟨hfew, delay, hpos, hle.trans (by norm_num), hretry⟩
    · have hover := computeBackoff_overflow (s.attempt + 1) 1 60 (1 / 2) uniform (by omega) (by norm_num)
        (by norm_num) (by norm_num) (by omega)
      rw [hok] at hover
      cases hover
  · right
    refine ⟨?_, hretry⟩
    intro hfew
    obtain ⟨delay, hok, -⟩ := hbounded.mpr hfew
    rw [herror] at hok
    cases hok

theorem going_retry (s : AgentLoop) (uniform : ℚ) (huniform : |uniform| ≤ 1 / 2) (hfew : s.attempt < floatBits) :
    (s.retry uniform).Going := by
  rcases s.retry_phase uniform huniform with ⟨-, delay, -, -, hretry⟩ | ⟨hmany, -⟩
  · rw [hretry]
    constructor <;> simp [KeepsRetrying]
  · exact absurd hfew hmany

theorem not_keepsRetrying_retry (s : AgentLoop) (uniform : ℚ) (huniform : |uniform| ≤ 1 / 2)
    (hmany : ¬s.attempt < floatBits) : ¬(s.retry uniform).KeepsRetrying := by
  rcases s.retry_phase uniform huniform with ⟨hfew, -⟩ | ⟨-, hretry⟩
  · exact absurd hfew hmany
  · rw [hretry]
    exact fun h => h rfl

theorem going_step (ttlSeconds : Option Int) (s : AgentLoop) (e : LoopEvent) (t : AgentLoop) (hs : s.Going)
    (hretried : e.retried = true) (hfew : s.FewFailures e = true) (h : s.step ttlSeconds e = some t) : t.Going := by
  have hcases := step_cases ttlSeconds s e t h
  cases e with
  | pass d =>
      obtain ⟨-, rfl⟩ := hcases
      exact ⟨hs.retrying, hs.lasting⟩
  | register code =>
      obtain ⟨-, rfl⟩ := hcases
      constructor <;> simp [KeepsRetrying]
  | fails uniform | factoryFails _ uniform =>
      obtain ⟨-, huniform, rfl⟩ := hcases
      exact going_retry s uniform huniform (by simpa [FewFailures] using hfew)
  | request =>
      obtain ⟨-, -, -, rfl⟩ := hcases
      exact ⟨hs.retrying, hs.lasting⟩
  | disconnect | raises =>
      obtain ⟨-, -, -, rfl⟩ := hcases
      constructor <;> simp [KeepsRetrying]
  | drained uniform =>
      obtain ⟨code, registered, raised, ttlExpired, hphase, huniform, rfl⟩ := hcases
      cases raised with
      | true => exact going_retry s uniform huniform (by simpa [FewFailures, hphase] using hfew)
      | false =>
          cases ttlExpired with
          | true => exact absurd hphase (hs.lasting code registered false)
          | false => constructor <;> simp [drain, KeepsRetrying]
  | closeFails uniform =>
      obtain ⟨-, -, -, -, huniform, rfl⟩ := hcases
      exact going_retry s uniform huniform (by simpa [FewFailures] using hfew)
  | wake =>
      obtain ⟨-, -, rfl⟩ := hcases
      constructor <;> simp [KeepsRetrying]
  | authFails | expire | interrupt => cases hretried

theorem ended_of_manyFailures (ttlSeconds : Option Int) (s : AgentLoop) (e : LoopEvent) (t : AgentLoop)
    (hmany : ¬s.FewFailures e = true) (h : s.step ttlSeconds e = some t) : ¬t.KeepsRetrying := by
  have hcases := step_cases ttlSeconds s e t h
  cases e with
  | fails uniform | factoryFails _ uniform =>
      obtain ⟨-, huniform, rfl⟩ := hcases
      exact not_keepsRetrying_retry s uniform huniform (by simpa [FewFailures] using hmany)
  | drained uniform =>
      obtain ⟨code, registered, raised, ttlExpired, hphase, huniform, rfl⟩ := hcases
      simp only [FewFailures, hphase, Bool.or_eq_true, Bool.not_eq_eq_eq_not, Bool.not_true,
        decide_eq_true_eq, not_or, Bool.not_eq_false] at hmany
      rw [hmany.1]
      exact not_keepsRetrying_retry s uniform huniform hmany.2
  | closeFails uniform =>
      obtain ⟨-, -, -, -, huniform, rfl⟩ := hcases
      exact not_keepsRetrying_retry s uniform huniform (by simpa [FewFailures] using hmany)
  | _ => exact absurd rfl hmany

/-- In a run without `AgentExpiredError`, `AgentAuthError` and `KeyboardInterrupt`, the loop keeps retrying
exactly as long as there are no 1025 failures in a row. -/
theorem keepsRetrying_iff (ttlSeconds : Option Int) (begin : ℚ) (events : List LoopEvent) (u : AgentLoop)
    (hretried : ∀ e ∈ events, e.retried = true) (hrun : run (step ttlSeconds) (start begin) events = some u) :
    Throughout (step ttlSeconds) KeepsRetrying (start begin) events ↔
      Guarded (step ttlSeconds) (fun s e => s.FewFailures e = true) (start begin) events :=
  throughout_iff_guarded_of_allowed (step ttlSeconds) (fun _ e => e.retried = true)
    (fun s e => s.FewFailures e = true) Going KeepsRetrying (fun _ hs => hs.retrying) (going_step ttlSeconds)
    (fun s e t _ _ hmany h => ended_of_manyFailures ttlSeconds s e t hmany h) (going_start begin)
    (guarded_of_forall _ _ _ events hretried) hrun

/-- For the backoff and for the loop: the delay of an attempt is returned within its bounds, and the loop keeps
retrying, exactly as long as there are no 1025 failures in a row. -/
theorem backoff_retries_iff (attempt : Nat) (base cap jitterFactor uniform : ℚ) (ttlSeconds : Option Int)
    (begin : ℚ) (events : List LoopEvent) (u : AgentLoop) (hattempt : 1 ≤ attempt) (hbase : 0 < base)
    (hcap : base ≤ cap) (hjitter : 0 ≤ jitterFactor ∧ jitterFactor ≤ 1) (huniform : |uniform| ≤ jitterFactor)
    (hretried : ∀ e ∈ events, e.retried = true) (hrun : run (step ttlSeconds) (start begin) events = some u) :
    ((∃ delay, computeBackoff attempt base cap jitterFactor uniform = .ok delay ∧
      0 ≤ delay ∧ delay ≤ cap * (1 + jitterFactor)) ↔ attempt ≤ 1024) ∧
    (Throughout (step ttlSeconds) KeepsRetrying (start begin) events ↔
      Guarded (step ttlSeconds) (fun s e => s.FewFailures e = true) (start begin) events) :=
  ⟨computeBackoff_bounded_iff attempt base cap jitterFactor uniform hattempt hbase hcap hjitter huniform,
    keepsRetrying_iff ttlSeconds begin events u hretried hrun⟩

/-- Connections are refused, and the loop sleeps long enough after each one. -/
def refusals : Nat → List LoopEvent
  | 0 => []
  | n + 1 => refusals n ++ [.fails 0, .pass 90, .wake]

theorem retried_refusals (n : Nat) : ∀ e ∈ refusals n, e.retried = true := by
  induction n with
  | zero => simp [refusals]
  | succ n ih =>
      intro e he
      rcases List.mem_append.mp he with hold | hnew
      · exact ih e hold
      · simp only [List.mem_cons, List.not_mem_nil, or_false] at hnew
        rcases hnew with rfl | rfl | rfl <;> rfl

theorem run_refusals (ttlSeconds : Option Int) (begin : ℚ) (n : Nat) (hn : n ≤ floatBits) :
    ∃ s, run (step ttlSeconds) (start begin) (refusals n) = some s ∧ s.phase = .connecting ∧ s.attempt = n := by
  induction n with
  | zero => exact ⟨start begin, rfl, rfl, rfl⟩
  | succ n ih =>
      obtain ⟨s, hrun, hphase, hattempt⟩ := ih (by omega)
      rcases s.retry_phase 0 (by norm_num) with ⟨-, delay, -, hle, hretry⟩ | ⟨hmany, -⟩
      · refine ⟨{ s with now := s.now + 90, attempt := n + 1 }, run_append_of_eq_some _ hrun ?_, hphase, rfl⟩
        simp only [run, step, hphase, hretry]
        norm_num [countdown, hle, hattempt]
      · omega

theorem backoff_retries_iff_refusals :
    (∃ delay, computeBackoff 7 1 60 (1 / 2) 0 = .ok delay ∧ 0 ≤ delay ∧ delay ≤ 60 * (1 + 1 / 2)) ∧
      ∃ u, run (step none) (start 0) (refusals 2) = some u ∧
        Throughout (step none) KeepsRetrying (start 0) (refusals 2) := by
  obtain ⟨u, hrun, -⟩ := run_refusals none 0 2 (by decide)
  obtain ⟨hdelay, hloop⟩ := backoff_retries_iff 7 1 60 (1 / 2) 0 none 0 (refusals 2) u (by norm_num) (by norm_num)
    (by norm_num) (by norm_num) (by norm_num) (retried_refusals 2) hrun
  exact ⟨hdelay.mpr (by norm_num), u, hrun, hloop.mpr (by decide +kernel)⟩

/-- The first 1025 connections are all refused. -/
theorem not_keepsRetrying_refusals :
    computeBackoff 1025 1 60 (1 / 2) 0 = .error .overflow ∧
      ∃ u, run (step none) (start 0) (refusals 1024 ++ [.fails 0]) = some u ∧
        (∀ e ∈ refusals 1024 ++ [.fails 0], e.retried = true) ∧ ¬u.KeepsRetrying := by
  refine ⟨computeBackoff_overflow 1025 1 60 (1 / 2) 0 (by norm_num) (by norm_num) (by norm_num) (by norm_num)
    (by decide), ?_⟩
  obtain ⟨s, hrun, hphase, hattempt⟩ := run_refusals none 0 1024 (le_refl 1024)
  have hlast : run (step none) s [.fails 0] = some (s.retry 0) := by
    simp only [run, step, hphase]
    norm_num
  refine ⟨s.retry 0, run_append_of_eq_some _ hrun hlast, ?_, ?_⟩
  · intro e he
    rcases List.mem_append.mp he with hold | hnew
    · exact retried_refusals 1024 e hold
    · rw [List.mem_singleton.mp hnew]
      rfl
  · exact not_keepsRetrying_retry s 0 (by norm_num) (by rw [hattempt]; decide)

end AgentLoop

end NetworkFileServer.Agent
