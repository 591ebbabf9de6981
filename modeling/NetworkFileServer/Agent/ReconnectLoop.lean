import Mathlib.Algebra.Order.Group.Unbundled.Abs
import Mathlib.Algebra.Order.Ring.Rat
import Mathlib.Data.Rat.Defs
import Mathlib.Tactic.Linarith
import NetworkFileServer.Framework.TransitionSystem

/-!
# The reconnect loop and the TTL

`run_agent_loop` around `connect_and_serve`, with `compute_backoff`. Time passes in events of its own, and
the countdown's timer fires on time; every other event takes no time. An OPEN frame is served when the
receive loop takes it, and nothing is sent once the countdown has called `close()`.
-/

namespace NetworkFileServer.Agent

open TransitionSystem

/-- The `ValueError`s, with the values in their texts, and the `OverflowError` of a product. -/
inductive BackoffError where
  | attempt (attempt : Nat)
  | base (base : ℚ)
  | cap (cap base : ℚ)
  | jitterFactor (jitterFactor : ℚ)
  | overflow
deriving DecidableEq

/-- `1 << 1024` and everything above is too large to be converted to a `float`. -/
def floatBits : Nat := 1024

/-- A `float` times an `int`: the `int` is converted first. -/
def floatTimesInt (x : ℚ) (n : Nat) : Except BackoffError ℚ :=
  if 2 ^ floatBits ≤ n then .error .overflow else .ok (x * n)

/-- `uniform` is what `random.uniform(-jitter_factor, jitter_factor)` gives. -/
def computeBackoff (attempt : Nat) (base cap jitterFactor uniform : ℚ) : Except BackoffError ℚ :=
  if attempt < 1 then .error (.attempt attempt)
  else if base ≤ 0 then .error (.base base)
  else if cap < base then .error (.cap cap base)
  else if ¬(0 ≤ jitterFactor ∧ jitterFactor ≤ 1) then .error (.jitterFactor jitterFactor)
  else
    (floatTimesInt base (2 ^ (attempt - 1))).map fun product =>
      let expDelay := min product cap
      let jitter := uniform * expDelay
      max 0 (expDelay + jitter)

inductive AgentPhase where
  /-- In `connect_and_serve`, before the mount is registered. -/
  | connecting
  /-- In the receive loop, with the code and the time of the registration. -/
  | serving (code : String) (registered : ℚ)
  /-- In the `finally` block, until the countdown is cancelled: whether an exception other than those
  of a disconnect passes through, and `ttl_expired`. -/
  | draining (code : String) (registered : ℚ) (raised ttlExpired : Bool)
  | sleeping (wake : ℚ)
  | ended
deriving DecidableEq

structure AgentLoop where
  now : ℚ
  attempt : Nat
  /-- `last_code`: the code that the next connect asks for. -/
  lastCode : Option String
  phase : AgentPhase
  /-- When a request was served. -/
  served : List ℚ
deriving DecidableEq

inductive LoopEvent where
  | pass (d : ℚ)
  /-- `mount_registered` arrives. -/
  | register (code : String)
  /-- Connecting or registering raises. -/
  | fails (uniform : ℚ)
  /-- `mount_registered` arrives and `app_factory` raises, which is called before the `try` block. -/
  | factoryFails (code : String) (uniform : ℚ)
  /-- `AgentAuthError`. -/
  | authFails
  /-- An OPEN frame. -/
  | request
  /-- The receive loop ends, cleanly or with one of the exceptions of a disconnect. -/
  | disconnect
  /-- Another exception leaves the receive loop. -/
  | raises
  /-- The countdown is over. -/
  | expire
  /-- The handlers have ended, the countdown is cancelled, and `close()` returns. -/
  | drained (uniform : ℚ)
  /-- The same, but `close()` raises what the heartbeat has died of. -/
  | closeFails (uniform : ℚ)
  | wake
  /-- `KeyboardInterrupt`, or the task is cancelled. -/
  | interrupt
deriving DecidableEq

namespace AgentLoop

/-- A negative `ttl_seconds` does not sleep. -/
def countdownEnd (ttlSeconds : Option Int) (registered : ℚ) : Option ℚ :=
  ttlSeconds.map fun (seconds : Int) => registered + max (seconds : ℚ) 0

/-- The end of the countdown that is running. -/
def countdown (ttlSeconds : Option Int) : AgentPhase → Option ℚ
  | .serving _ registered => countdownEnd ttlSeconds registered
  | .draining _ registered _ ttlExpired => if ttlExpired then none else countdownEnd ttlSeconds registered
  | _ => none

/-- The last `except` clause of the loop, which an exception of `compute_backoff` leaves. -/
def retry (s : AgentLoop) (uniform : ℚ) : AgentLoop :=
  match computeBackoff (s.attempt + 1) 1 60 (1 / 2) uniform with
  | .ok delay => { s with attempt := s.attempt + 1, phase := .sleeping (s.now + delay) }
  | .error _ => { s with attempt := s.attempt + 1, phase := .ended }

/-- What becomes of `connect_and_serve`: an exception from the receive loop comes before the check of
`ttl_expired`, and a clean return is followed by the next connect. -/
def drain (s : AgentLoop) (code : String) (raised ttlExpired : Bool) (uniform : ℚ) : AgentLoop :=
  if raised then s.retry uniform
  else if ttlExpired then { s with phase := .ended }
  else { s with attempt := 0, lastCode := some code, phase := .connecting }

def step (ttlSeconds : Option Int) (s : AgentLoop) : LoopEvent → Option AgentLoop
  | .pass d =>
      if 0 ≤ d ∧ (countdown ttlSeconds s.phase).all (fun expiry => s.now + d ≤ expiry) then
        some { s with now := s.now + d }
      else none
  | .register code =>
      if s.phase = .connecting then some { s with phase := .serving code s.now } else none
  | .fails uniform =>
      if s.phase = .connecting ∧ -(1 / 2) ≤ uniform ∧ uniform ≤ 1 / 2 then some (s.retry uniform) else none
  | .factoryFails _ uniform =>
      if s.phase = .connecting ∧ -(1 / 2) ≤ uniform ∧ uniform ≤ 1 / 2 then some (s.retry uniform) else none
  | .authFails => if s.phase = .connecting then some { s with phase := .ended } else none
  | .request =>
      match s.phase with
      | .serving _ _ => some { s with served := s.served ++ [s.now] }
      | _ => none
  | .disconnect =>
      match s.phase with
      | .serving code registered => some { s with phase := .draining code registered false false }
      | _ => none
  | .raises =>
      match s.phase with
      | .serving code registered => some { s with phase := .draining code registered true false }
      | _ => none
  | .expire =>
      if countdown ttlSeconds s.phase = some s.now then
        match s.phase with
        | .serving code registered => some { s with phase := .draining code registered false true }
        | .draining code registered raised _ => some { s with phase := .draining code registered raised true }
        | _ => none
      else none
  | .drained uniform =>
      match s.phase with
      | .draining code _ raised ttlExpired =>
          if -(1 / 2) ≤ uniform ∧ uniform ≤ 1 / 2 then some (s.drain code raised ttlExpired uniform) else none
      | _ => none
  | .closeFails uniform =>
      match s.phase with
      -- after the countdown has called `close()`, the second call returns at once
      | .draining _ _ _ false =>
          if -(1 / 2) ≤ uniform ∧ uniform ≤ 1 / 2 then some (s.retry uniform) else none
      | _ => none
  | .wake =>
      match s.phase with
      | .sleeping wake => if wake ≤ s.now then some { s with phase := .connecting } else none
      | _ => none
  | .interrupt => if s.phase = .ended then none else some { s with phase := .ended }

/-- `run_agent_loop` is called. -/
def start (now : ℚ) : AgentLoop := ⟨now, 0, none, .connecting, []⟩

/-- No request was served after the deadline, nor would one be now. -/
structure ServesUntil (deadline : ℚ) (s : AgentLoop) : Prop where
  served : ∀ time ∈ s.served, time ≤ deadline
  serving : ∀ code registered, s.phase = .serving code registered → s.now ≤ deadline

/-- No session is registered after the deadline, and one that was registered later than the start of the
loop is lost by then. -/
def LostInTime (begin deadline : ℚ) (s : AgentLoop) : LoopEvent → Bool
  | .register _ => s.now ≤ deadline
  | .pass d =>
      match s.phase with
      | .serving _ registered => registered ≤ begin ∨ s.now + d ≤ deadline
      | _ => true
  | _ => true

/-- An exception is followed by a sleep, unless the delay overflows. -/
theorem retry_cases (s : AgentLoop) (uniform : ℚ) :
    (∃ delay, computeBackoff (s.attempt + 1) 1 60 (1 / 2) uniform = .ok delay ∧
        s.retry uniform = { s with attempt := s.attempt + 1, phase := .sleeping (s.now + delay) }) ∨
      ∃ e, computeBackoff (s.attempt + 1) 1 60 (1 / 2) uniform = .error e ∧
        s.retry uniform = { s with attempt := s.attempt + 1, phase := .ended } := by
  unfold retry
  cases hbackoff : computeBackoff (s.attempt + 1) 1 60 (1 / 2) uniform with
  | ok delay => exact .inl ⟨delay, rfl, rfl⟩
  | error e => exact .inr ⟨e, rfl, rfl⟩

theorem step_cases (ttlSeconds : Option Int) (s : AgentLoop) (e : LoopEvent) (t : AgentLoop)
    (h : s.step ttlSeconds e = some t) :
    match e with
    | .pass d =>
        (0 ≤ d ∧ (countdown ttlSeconds s.phase).all (fun expiry => s.now + d ≤ expiry) = true) ∧
          t = { s with now := s.now + d }
    | .register code => s.phase = .connecting ∧ t = { s with phase := .serving code s.now }
    | .fails uniform => s.phase = .connecting ∧ |uniform| ≤ 1 / 2 ∧ t = s.retry uniform
    | .factoryFails _ uniform => s.phase = .connecting ∧ |uniform| ≤ 1 / 2 ∧ t = s.retry uniform
    | .authFails => s.phase = .connecting ∧ t = { s with phase := .ended }
    | .request =>
        ∃ code registered, s.phase = .serving code registered ∧ t = { s with served := s.served ++ [s.now] }
    | .disconnect =>
        ∃ code registered, s.phase = .serving code registered ∧
          t = { s with phase := .draining code registered false false }
    | .raises =>
        ∃ code registered, s.phase = .serving code registered ∧
          t = { s with phase := .draining code registered true false }
    | .expire =>
        ∃ code registered raised,
          (s.phase = .serving code registered ∨ ∃ expired, s.phase = .draining code registered raised expired) ∧
            t = { s with phase := .draining code registered raised true }
    | .drained uniform =>
        ∃ code registered raised ttlExpired, s.phase = .draining code registered raised ttlExpired ∧
          |uniform| ≤ 1 / 2 ∧ t = s.drain code raised ttlExpired uniform
    | .closeFails uniform =>
        ∃ code registered raised, s.phase = .draining code registered raised false ∧
          |uniform| ≤ 1 / 2 ∧ t = s.retry uniform
    | .wake => ∃ wake, s.phase = .sleeping wake ∧ t = { s with phase := .connecting }
    | .interrupt => t = { s with phase := .ended } := by
  cases e with
  | pass d =>
      simp only [step, Option.ite_none_right_eq_some, Option.some.injEq] at h
      exact ⟨h.1, h.2.symm⟩
  | register code =>
      simp only [step, Option.ite_none_right_eq_some, Option.some.injEq] at h
      exact ⟨h.1, h.2.symm⟩
  | fails uniform | factoryFails _ uniform =>
      simp only [step, Option.ite_none_right_eq_some, Option.some.injEq] at h
      exact ⟨h.1.1, abs_le.mpr h.1.2, h.2.symm⟩
  | authFails =>
      simp only [step, Option.ite_none_right_eq_some, Option.some.injEq] at h
      exact ⟨h.1, h.2.symm⟩
  | request | disconnect | raises =>
      simp only [step] at h
      split at h
      · rename_i code registered hserving
        exact ⟨code, registered, hserving, (Option.some.inj h).symm⟩
      · cases h
  | expire =>
      simp only [step] at h
      split at h
      · split at h
        · rename_i code registered hserving
          exact ⟨code, registered, false, .inl hserving, (Option.some.inj h).symm⟩
        · rename_i code registered raised expired hdraining
          exact ⟨code, registered, raised, .inr ⟨expired, hdraining⟩, (Option.some.inj h).symm⟩
        · cases h
      · cases h
  | drained uniform =>
      simp only [step] at h
      split at h
      · rename_i code registered raised ttlExpired hdraining
        simp only [Option.ite_none_right_eq_some, Option.some.injEq] at h
        exact ⟨code, registered, raised, ttlExpired, hdraining, abs_le.mpr h.1, h.2.symm⟩
      · cases h
  | closeFails uniform =>
      simp only [step] at h
      split at h
      · rename_i code registered raised hdraining
        simp only [Option.ite_none_right_eq_some, Option.some.injEq] at h
        exact ⟨code, registered, raised, hdraining, abs_le.mpr h.1, h.2.symm⟩
      · cases h
  | wake =>
      simp only [step] at h
      split at h
      · rename_i wake hsleeping
        simp only [Option.ite_none_right_eq_some, Option.some.injEq] at h
        exact ⟨wake, hsleeping, h.2.symm⟩
      · cases h
  | interrupt =>
      simp only [step, Option.ite_none_left_eq_some, Option.some.injEq] at h
      exact h.2.symm

/-- The registration of the current session; while it serves, its countdown is running. -/
structure Inv (begin : ℚ) (ttl : Int) (s : AgentLoop) : Prop where
  servesUntil : s.ServesUntil (begin + ttl)
  begin_le : begin ≤ s.now
  session : ∀ code registered, s.phase = .serving code registered →
    begin ≤ registered ∧ registered ≤ begin + ttl

variable {begin : ℚ} {ttl : Int}

theorem inv_start (begin : ℚ) (ttl : Int) : (start begin).Inv begin ttl where
  servesUntil := by constructor <;> simp [start]
  begin_le := le_refl begin
  session := by simp [start]

theorem inv_of_phase {s : AgentLoop} (h : s.Inv begin ttl) (t : AgentLoop) (hnow : t.now = s.now)
    (hserved : ∀ time ∈ t.served, time ∈ s.served ∨
      time = s.now ∧ ∃ code registered, s.phase = .serving code registered)
    (hphase : ∀ code registered, t.phase = .serving code registered → s.phase = .serving code registered) :
    t.Inv begin ttl := by
  refine ⟨⟨?_, ?_⟩, by rw [hnow]; exact h.begin_le, ?_⟩
  · intro time htime
    rcases hserved time htime with hold | ⟨rfl, code, registered, hserving⟩
    · exact h.servesUntil.served time hold
    · exact h.servesUntil.serving code registered hserving
  · intro code registered hserving
    rw [hnow]
    exact h.servesUntil.serving code registered (hphase code registered hserving)
  · intro code registered hserving
    exact h.session code registered (hphase code registered hserving)

theorem inv_retry {s : AgentLoop} (h : s.Inv begin ttl) (uniform : ℚ) : (s.retry uniform).Inv begin ttl := by
  rcases s.retry_cases uniform with ⟨delay, -, hretry⟩ | ⟨e, -, hretry⟩
  · rw [hretry]
    exact inv_of_phase h _ rfl (fun _ htime => .inl htime) (by simp)
  · rw [hretry]
    exact inv_of_phase h _ rfl (fun _ htime => .inl htime) (by simp)

theorem inv_drain {s : AgentLoop} (h : s.Inv begin ttl) (code : String) (raised ttlExpired : Bool)
    (uniform : ℚ) : (s.drain code raised ttlExpired uniform).Inv begin ttl := by
  unfold drain
  split
  · exact inv_retry h uniform
  · split
    · exact inv_of_phase h _ rfl (fun _ htime => .inl htime) (by simp)
    · exact inv_of_phase h _ rfl (fun _ htime => .inl htime) (by simp)

theorem inv_register {s : AgentLoop} (h : s.Inv begin ttl) (code : String)
    (hcond : s.now ≤ begin + ttl) : Inv begin ttl { s with phase := .serving code s.now } := by
  refine ⟨⟨h.servesUntil.served, fun _ _ _ => hcond⟩, h.begin_le, ?_⟩
  intro code' registered hserving
  cases hserving
  exact ⟨h.begin_le, hcond⟩

/-- While a session serves, its countdown stops the clock; the first session's ends at the deadline. -/
theorem inv_pass {s : AgentLoop} (h : s.Inv begin ttl) (d : ℚ) (hnonneg : 0 ≤ d)
    (hcountdown : (countdown (some ttl) s.phase).all (fun expiry => s.now + d ≤ expiry) = true)
    (hcond : s.LostInTime begin (begin + ttl) (.pass d) = true) : Inv begin ttl { s with now := s.now + d } := by
  refine ⟨⟨h.servesUntil.served, ?_⟩, ?_, h.session⟩
  · intro code registered hserving
    change s.phase = _ at hserving
    change s.now + d ≤ begin + ttl
    obtain ⟨hle, hregistered⟩ := h.session code registered hserving
    simp only [countdown, hserving, countdownEnd, Option.map_some, Option.all_some,
      decide_eq_true_eq] at hcountdown
    simp only [LostInTime, hserving, decide_eq_true_eq] at hcond
    rcases hcond with hfirst | hlost
    · have httl : max (ttl : ℚ) 0 = ttl := max_eq_left (by linarith)
      rw [httl] at hcountdown
      linarith
    · exact hlost
  · have hbegin := h.begin_le
    change begin ≤ s.now + d
    linarith

theorem inv_step (s : AgentLoop) (e : LoopEvent) (t : AgentLoop) (hs : s.Inv begin ttl)
    (hcond : s.LostInTime begin (begin + ttl) e = true) (h : s.step (some ttl) e = some t) :
    t.Inv begin ttl := by
  have hcases := step_cases (some ttl) s e t h
  cases e with
  | pass d =>
      obtain ⟨⟨hnonneg, hcountdown⟩, rfl⟩ := hcases
      exact inv_pass hs d hnonneg hcountdown hcond
  | register code =>
      obtain ⟨-, rfl⟩ := hcases
      exact inv_register hs code (by simpa [LostInTime] using hcond)
  | fails uniform | factoryFails _ uniform =>
      obtain ⟨-, -, rfl⟩ := hcases
      exact inv_retry hs uniform
  | request =>
      obtain ⟨code, registered, hserving, rfl⟩ := hcases
      refine inv_of_phase hs _ rfl ?_ (fun _ _ hphase => hphase)
      intro time htime
      rcases List.mem_append.mp htime with hold | hnew
      · exact .inl hold
      · exact .inr ⟨List.mem_singleton.mp hnew, code, registered, hserving⟩
  | drained uniform =>
      obtain ⟨code, -, raised, ttlExpired, -, -, rfl⟩ := hcases
      exact inv_drain hs code raised ttlExpired uniform
  | closeFails uniform =>
      obtain ⟨-, -, -, -, -, rfl⟩ := hcases
      exact inv_retry hs uniform
  | authFails =>
      obtain ⟨-, rfl⟩ := hcases
      exact inv_of_phase hs _ rfl (fun _ htime => .inl htime) (by simp)
  | disconnect | raises =>
      obtain ⟨-, -, -, rfl⟩ := hcases
      exact inv_of_phase hs _ rfl (fun _ htime => .inl htime) (by simp)
  | expire =>
      obtain ⟨-, -, -, -, rfl⟩ := hcases
      exact inv_of_phase hs _ rfl (fun _ htime => .inl htime) (by simp)
  | wake =>
      obtain ⟨-, -, rfl⟩ := hcases
      exact inv_of_phase hs _ rfl (fun _ htime => .inl htime) (by simp)
  | interrupt =>
      cases hcases
      exact inv_of_phase hs _ rfl (fun _ htime => .inl htime) (by simp)

theorem not_servesUntil_of_late (s : AgentLoop) (e : LoopEvent) (t : AgentLoop) (deadline : ℚ)
    (hcond : ¬s.LostInTime begin deadline e = true) (h : s.step (some ttl) e = some t) :
    ¬t.ServesUntil deadline := by
  intro huntil
  have hcases := step_cases (some ttl) s e t h
  cases e with
  | pass d =>
      obtain ⟨-, rfl⟩ := hcases
      cases hphase : s.phase with
      | serving code registered =>
          simp only [LostInTime, hphase, decide_eq_true_eq, not_or] at hcond
          exact hcond.2 (huntil.serving code registered hphase)
      | _ => simp [LostInTime, hphase] at hcond
  | register code =>
      obtain ⟨-, rfl⟩ := hcases
      simp only [LostInTime, decide_eq_true_eq] at hcond
      exact hcond (huntil.serving code s.now rfl)
  | _ => exact absurd rfl hcond

/-- The connection is lost after ten seconds, and the one that replaces it after fifty. -/
def losesTwice : List LoopEvent :=
  [.register "code", .pass 10, .disconnect, .drained 0, .pass 1, .fails 0, .pass 1, .wake, .register "code",
    .pass 48, .request, .disconnect, .drained 0]

/-- A TTL of a minute, a connection that is lost after half of it, and a request after another 45 seconds. -/
def servesLate : List LoopEvent :=
  [.register "code", .pass 30, .disconnect, .drained 0, .register "code", .pass 45, .request]

end AgentLoop

end NetworkFileServer.Agent
