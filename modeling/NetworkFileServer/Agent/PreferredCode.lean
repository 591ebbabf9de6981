import NetworkFileServer.Agent.RetryLimit

/-!
# The code that a reconnect asks for

`connect_and_serve` hands the assigned code back by returning it. A session that is left by an exception
returns nothing, and the loop goes on with the code that it had before: one that `app_factory` raises, one that
leaves the receive loop and is not that of a disconnect, or the one that `close()` raises in the `finally` block.

The loop is watched together with the code of the last `mount_registered` message.
-/

namespace NetworkFileServer.Agent

open TransitionSystem

structure WatchedLoop where
  loop : AgentLoop
  /-- The code that the relay has assigned last. -/
  assigned : Option String
deriving DecidableEq

namespace WatchedLoop

def assignedAfter (assigned : Option String) : LoopEvent → Option String
  | .register code | .factoryFails code _ => some code
  | _ => assigned

def step (ttlSeconds : Option Int) (s : WatchedLoop) (e : LoopEvent) : Option WatchedLoop :=
  (s.loop.step ttlSeconds e).map fun loop => ⟨loop, assignedAfter s.assigned e⟩

def start (begin : ℚ) : WatchedLoop := ⟨.start begin, none⟩

/-- The `preferred_code` of the attempt that is under way, or that comes next. -/
def preferredCode (s : AgentLoop) : Option (Option String) :=
  match s.phase with
  | .connecting | .sleeping _ => some s.lastCode
  | _ => none

/-- After the first registration, an attempt passes the code that was assigned last. -/
def AsksForLast (s : WatchedLoop) : Prop :=
  ∀ code preferred, s.assigned = some code → preferredCode s.loop = some preferred → preferred = some code

/-- The code that the session has been assigned, while it lasts. -/
def sessionCode (s : AgentLoop) : Option String :=
  match s.phase with
  | .serving code _ | .draining code _ _ _ => some code
  | _ => none

/-- The session was assigned the code that it had asked for, or its exception is the 1025th in a row. -/
def MayRaise (s : AgentLoop) (code : String) : Bool := s.lastCode = some code || floatBits ≤ s.attempt

/-- Where an exception leaves a session: from `app_factory`, from the receive loop, or from `close()`. -/
def HandsBack (s : WatchedLoop) : LoopEvent → Bool
  | .factoryFails code _ => MayRaise s.loop code
  | .drained _ =>
      match s.loop.phase with
      | .draining code _ true _ => MayRaise s.loop code
      | _ => true
  | .closeFails _ =>
      match s.loop.phase with
      | .draining code _ _ _ => MayRaise s.loop code
      | _ => true
  | _ => true

structure Inv (s : WatchedLoop) : Prop where
  asksForLast : s.AsksForLast
  session : ∀ code, sessionCode s.loop = some code → s.assigned = some code

theorem inv_start (begin : ℚ) : (start begin).Inv where
  asksForLast := by simp [AsksForLast, start]
  session := by simp [sessionCode, start, AgentLoop.start]

theorem inv_of_phase {s : WatchedLoop} (hs : s.Inv) (loop : AgentLoop)
    (hpreferred : ∀ preferred, preferredCode loop = some preferred → preferredCode s.loop = some preferred)
    (hsession : ∀ code, sessionCode loop = some code → sessionCode s.loop = some code) :
    Inv ⟨loop, s.assigned⟩ where
  asksForLast := fun code preferred hassigned h => hs.asksForLast code preferred hassigned (hpreferred preferred h)
  session := fun code h => hs.session code (hsession code h)

theorem inv_of_code {s : WatchedLoop} (loop : AgentLoop) (code : String) (hassigned : s.assigned = some code)
    (hnext : ∀ preferred, preferredCode loop = some preferred → preferred = some code)
    (hsession : sessionCode loop = none) : Inv ⟨loop, s.assigned⟩ where
  asksForLast := by
    intro code' preferred hassigned' hpreferred
    cases hassigned.symm.trans hassigned'
    exact hnext preferred hpreferred
  session := by
    intro code' h
    rw [hsession] at h
    cases h

section Retry

variable (s : AgentLoop) (uniform : ℚ) (huniform : |uniform| ≤ 1 / 2)

include huniform

theorem preferredCode_retry :
    preferredCode (s.retry uniform) = if s.attempt < floatBits then some s.lastCode else none := by
  rcases s.retry_phase uniform huniform with ⟨hfew, delay, -, -, hretry⟩ | ⟨hmany, hretry⟩
  · rw [hretry, if_pos hfew]
    rfl
  · rw [hretry, if_neg hmany]
    rfl

theorem sessionCode_retry : sessionCode (s.retry uniform) = none := by
  rcases s.retry_phase uniform huniform with ⟨-, delay, -, -, hretry⟩ | ⟨-, hretry⟩
  · rw [hretry]
    rfl
  · rw [hretry]
    rfl

end Retry

/-- A session that is left by an exception is followed by one that asks for its own code, or by none. -/
theorem inv_raise {s : WatchedLoop} (uniform : ℚ) (huniform : |uniform| ≤ 1 / 2) (code : String)
    (hassigned : s.assigned = some code) (hmay : MayRaise s.loop code = true) :
    Inv ⟨s.loop.retry uniform, s.assigned⟩ := by
  refine inv_of_code _ code hassigned ?_ (sessionCode_retry s.loop uniform huniform)
  intro preferred hpreferred
  rw [preferredCode_retry s.loop uniform huniform, Option.ite_none_right_eq_some] at hpreferred
  obtain ⟨hfew, hlast⟩ := hpreferred
  have hsame : s.loop.lastCode = some code := by simpa [MayRaise, not_le.mpr hfew] using hmay
  rw [← Option.some.inj hlast, hsame]

theorem not_asksForLast_raise {s : WatchedLoop} (uniform : ℚ) (huniform : |uniform| ≤ 1 / 2) (code : String)
    (hassigned : s.assigned = some code) (hmay : ¬MayRaise s.loop code = true) :
    ¬AsksForLast ⟨s.loop.retry uniform, s.assigned⟩ := by
  simp only [MayRaise, Bool.or_eq_true, decide_eq_true_eq, not_or, not_le] at hmay
  have hpreferred := preferredCode_retry s.loop uniform huniform
  rw [if_pos hmay.2] at hpreferred
  intro hlast
  exact hmay.1 (hlast code s.loop.lastCode hassigned hpreferred)

theorem inv_fails {s : WatchedLoop} (hs : s.Inv) (uniform : ℚ) (huniform : |uniform| ≤ 1 / 2)
    (hphase : s.loop.phase = .connecting) : Inv ⟨s.loop.retry uniform, s.assigned⟩ := by
  apply inv_of_phase hs
  · intro preferred hpreferred
    rw [preferredCode_retry s.loop uniform huniform, Option.ite_none_right_eq_some] at hpreferred
    simpa [preferredCode, hphase] using hpreferred.2
  · rw [sessionCode_retry s.loop uniform huniform]
    simp

theorem inv_drain {s : WatchedLoop} (hs : s.Inv) (uniform : ℚ) (huniform : |uniform| ≤ 1 / 2) (code : String)
    (registered : ℚ) (raised ttlExpired : Bool) (hphase : s.loop.phase = .draining code registered raised ttlExpired)
    (hcond : s.HandsBack (.drained uniform) = true) :
    Inv ⟨s.loop.drain code raised ttlExpired uniform, s.assigned⟩ := by
  have hassigned : s.assigned = some code := hs.session code (by rw [sessionCode, hphase])
  cases raised with
  | true => exact inv_raise uniform huniform code hassigned (by simpa [HandsBack, hphase] using hcond)
  | false =>
      cases ttlExpired with
      | true => exact inv_of_code _ code hassigned (by simp [AgentLoop.drain, preferredCode]) rfl
      | false =>
          refine inv_of_code _ code hassigned ?_ rfl
          intro preferred hpreferred
          exact (Option.some.inj hpreferred).symm

theorem inv_step (ttlSeconds : Option Int) (s : WatchedLoop) (e : LoopEvent) (t : WatchedLoop) (hs : s.Inv)
    (hcond : s.HandsBack e = true) (h : s.step ttlSeconds e = some t) : t.Inv := by
  obtain ⟨loop, hstep, rfl⟩ := Option.map_eq_some_iff.mp h
  have hcases := AgentLoop.step_cases ttlSeconds s.loop e loop hstep
  cases e with
  | register code =>
      obtain ⟨-, rfl⟩ := hcases
      constructor
      · simp [AsksForLast, preferredCode]
      · simp [sessionCode, assignedAfter]
  | pass d =>
      obtain ⟨-, rfl⟩ := hcases
      exact inv_of_phase hs _ (fun _ h => h) (fun _ h => h)
  | fails uniform =>
      obtain ⟨hphase, huniform, rfl⟩ := hcases
      exact inv_fails hs uniform huniform hphase
  | factoryFails code uniform =>
      obtain ⟨-, huniform, rfl⟩ := hcases
      exact inv_raise (s := ⟨s.loop, some code⟩) uniform huniform code rfl hcond
  | authFails =>
      obtain ⟨-, rfl⟩ := hcases
      exact inv_of_phase hs _ (by simp [preferredCode]) (by simp [sessionCode])
  | request =>
      obtain ⟨-, -, -, rfl⟩ := hcases
      exact inv_of_phase hs _ (fun _ h => h) (fun _ h => h)
  | disconnect | raises =>
      obtain ⟨code, registered, hphase, rfl⟩ := hcases
      exact inv_of_phase hs _ (by simp [preferredCode]) (by simp [sessionCode, hphase])
  | expire =>
      obtain ⟨code, registered, raised, hphase | ⟨expired, hphase⟩, rfl⟩ := hcases
      · exact inv_of_phase hs _ (by simp [preferredCode]) (by simp [sessionCode, hphase])
      · exact inv_of_phase hs _ (by simp [preferredCode]) (by simp [sessionCode, hphase])
  | drained uniform =>
      obtain ⟨code, registered, raised, ttlExpired, hphase, huniform, rfl⟩ := hcases
      exact inv_drain hs uniform huniform code registered raised ttlExpired hphase hcond
  | closeFails uniform =>
      obtain ⟨code, registered, raised, hphase, huniform, rfl⟩ := hcases
      have hassigned : s.assigned = some code := hs.session code (by rw [sessionCode, hphase])
      exact inv_raise uniform huniform code hassigned (by simpa [HandsBack, hphase] using hcond)
  | wake =>
      obtain ⟨wake, hphase, rfl⟩ := hcases
      exact inv_of_phase hs _ (by simp [preferredCode, hphase]) (by simp [sessionCode])
  | interrupt =>
      cases hcases
      exact inv_of_phase hs _ (by simp [preferredCode]) (by simp [sessionCode])

theorem not_asksForLast_of_lost (ttlSeconds : Option Int) (s : WatchedLoop) (e : LoopEvent) (t : WatchedLoop)
    (hs : s.Inv) (hcond : ¬s.HandsBack e = true) (h : s.step ttlSeconds e = some t) : ¬t.AsksForLast := by
  obtain ⟨loop, hstep, rfl⟩ := Option.map_eq_some_iff.mp h
  have hcases := AgentLoop.step_cases ttlSeconds s.loop e loop hstep
  cases e with
  | factoryFails code uniform =>
      obtain ⟨-, huniform, rfl⟩ := hcases
      exact not_asksForLast_raise (s := ⟨s.loop, some code⟩) uniform huniform code rfl hcond
  | drained uniform =>
      obtain ⟨code, registered, raised, ttlExpired, hphase, huniform, rfl⟩ := hcases
      have hassigned : s.assigned = some code := hs.session code (by rw [sessionCode, hphase])
      cases raised with
      | false => simp [HandsBack, hphase] at hcond
      | true =>
          exact not_asksForLast_raise uniform huniform code hassigned (by simpa [HandsBack, hphase] using hcond)
  | closeFails uniform =>
      obtain ⟨code, registered, raised, hphase, huniform, rfl⟩ := hcases
      have hassigned : s.assigned = some code := hs.session code (by rw [sessionCode, hphase])
      exact not_asksForLast_raise uniform huniform code hassigned (by simpa [HandsBack, hphase] using hcond)
  | _ => exact absurd rfl hcond

/-- The attempts ask for the last assigned code exactly in the runs in which every session that is left by an
exception, and is followed by another attempt, was assigned the code that it had asked for. -/
theorem asksForLast_iff (ttlSeconds : Option Int) (begin : ℚ) (events : List LoopEvent) (u : WatchedLoop)
    (hrun : run (step ttlSeconds) (start begin) events = some u) :
    Throughout (step ttlSeconds) AsksForLast (start begin) events ↔
      Guarded (step ttlSeconds) (fun s e => s.HandsBack e = true) (start begin) events :=
  throughout_iff_guarded (step ttlSeconds) (fun s e => s.HandsBack e = true) Inv AsksForLast
    (fun _ hs => hs.asksForLast) (inv_step ttlSeconds) (not_asksForLast_of_lost ttlSeconds) (inv_start begin) hrun

/-- A clean disconnect, a refused connection, and sessions under the same code that are left by exceptions. -/
def comesBack : List LoopEvent :=
  [.register "k3x9", .disconnect, .drained 0, .fails 0, .pass 1, .wake, .register "k3x9", .raises, .drained 0,
    .pass 2, .wake, .factoryFails "k3x9" 0, .pass 4, .wake, .register "k3x9", .disconnect, .closeFails 0, .pass 8,
    .wake]

theorem asksForLast_iff_comesBack :
    Throughout (step none) AsksForLast (start 0) comesBack := by
  obtain ⟨u, hrun⟩ : ∃ u, run (step none) (start 0) comesBack = some u :=
    Option.isSome_iff_exists.mp (by decide +kernel)
  exact (asksForLast_iff none 0 comesBack u hrun).mpr (by decide +kernel)

theorem not_asksForLast_of_none (events : List LoopEvent) (code : String)
    (hrun : (run (step none) (start 0) events).map (fun u => (u.assigned, preferredCode u.loop)) =
      some (some code, some none)) :
    ∃ u, run (step none) (start 0) events = some u ∧ ¬u.AsksForLast := by
  obtain ⟨u, hu, heq⟩ := Option.map_eq_some_iff.mp hrun
  simp only [Prod.mk.injEq] at heq
  refine ⟨u, hu, ?_⟩
  intro hasks
  have hnone := hasks code none heq.1 heq.2
  cases hnone

/-- The first session is left by an exception of `app_factory`. -/
def factoryLosesCode : List LoopEvent := [.factoryFails "k3x9" 0, .pass 1, .wake]

/-- By one from the receive loop. -/
def frameLosesCode : List LoopEvent := [.register "k3x9", .raises, .drained 0, .pass 1, .wake]

/-- By that of a heartbeat which found the connection lost while the handlers ended. -/
def closeLosesCode : List LoopEvent := [.register "k3x9", .disconnect, .closeFails 0, .pass 1, .wake]

theorem not_asksForLast_losesCode :
    (∃ u, run (step none) (start 0) factoryLosesCode = some u ∧ ¬u.AsksForLast) ∧
      (∃ u, run (step none) (start 0) frameLosesCode = some u ∧ ¬u.AsksForLast) ∧
      ∃ u, run (step none) (start 0) closeLosesCode = some u ∧ ¬u.AsksForLast :=
  ⟨not_asksForLast_of_none _ "k3x9" (by decide +kernel), not_asksForLast_of_none _ "k3x9" (by decide +kernel),
    not_asksForLast_of_none _ "k3x9" (by decide +kernel)⟩

end WatchedLoop

end NetworkFileServer.Agent
