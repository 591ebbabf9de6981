import NetworkFileServer.Relay.MountSystem

/-!
# What a finished session leaves behind

`agent_websocket` takes its mount offline in the `finally` of the receive loop. An exception that is
raised between the registration and that `try`, or by `conn.close()` before `mark_offline`, ends the
handler with the row still ONLINE and the connection still stored.
-/

namespace NetworkFileServer.Relay

/-- `mark_offline` has decided, or is over. -/
def SessionPc.released : SessionPc → Bool
  | .offlineCommit _ | .ended => true
  | _ => false

/-- The awaits with the connection stored whose exception skips `mark_offline`. -/
def SessionPc.exposed : SessionPc → Bool
  | .policyUpdate _ _ | .policyDelete _ _ | .policyInsert _ _ _ | .sendRegistered _ _ | .getExpired _
  | .sendExpired _ | .closing _ | .offlineSelect _ | .offlineUpdate _ => true
  | .connecting | .reclaimSelect _ _ | .reclaimUpdate _ | .reclaimCommit _ | .hasMount _
  | .registerInsert _ | .registerCommit _ | .receiving _ | .offlineCommit _ | .ended => false

namespace MountSystem

variable {ι ρ : Type*}

/-- No exception is raised at an exposed await, and a row is turned ONLINE only while no connection
is stored for its code. -/
def EndsCleanly (s : MountSystem ι ρ) : MountAction ι ρ → Prop
  | .session i _ => ∀ code ∈ (s.session i).turnsOnline, s.registry.connections code = none
  | .sessionFail i => (s.session i).exposed = false
  | _ => True

/-- Stored connections belong to the session's own code, and a session that is through with
`mark_offline` has no connection stored under an ONLINE row. -/
structure SessionInv (s : MountSystem ι ρ) : Prop where
  owned : ∀ c i, s.registry.connections c = some i →
    s.session i = .ended ∨ (s.session i).assigned = some c
  released : ∀ c i, (s.session i).released = true → s.registry.connections c = some i →
    s.registry.isOnline c = false

theorem sessionInv_start (mounts : Code → Option MountRow) (policy : Code → List PolicyEntry) :
    SessionInv (start mounts policy : MountSystem ι ρ) where
  owned := by
    intro c i h
    cases h
  released := by
    intro c i _ h
    cases h

private theorem SessionInv.of_le {s t : MountSystem ι ρ} (h : s.SessionInv)
    (hsession : t.session = s.session)
    (hconn : ∀ c i, t.registry.connections c = some i → s.registry.connections c = some i)
    (honline : ∀ c, t.registry.isOnline c = true → s.registry.isOnline c = true) : t.SessionInv where
  owned := by
    intro c i hi
    rw [hsession]
    exact h.owned c i (hconn c i hi)
  released := by
    intro c i hrel hi
    rw [hsession] at hrel
    have hoff := h.released c i hrel (hconn c i hi)
    by_contra hon
    rw [honline c (by simpa using hon)] at hoff
    cases hoff

/-- The step after which `mark_offline` has decided leaves the row not ONLINE, or pops the
connection. -/
private theorem sessionStep_released (auth : AgentAuth) (i : ι) (r r' : Registry ι) (answer : Answer)
    (pc pc' : SessionPc) (h : sessionStep auth i r answer pc = some (r', pc'))
    (hpc' : pc'.released = true) (c : Code) (hc : pc.assigned = some c) :
    r'.isOnline c = false ∨ r'.connections c = none := by
  cases pc with
  | connecting | reclaimSelect _ _ | reclaimUpdate _ | reclaimCommit _ | hasMount _
  | registerInsert _ | registerCommit _ | ended => cases hc
  | policyUpdate code reclaimed =>
      simp only [sessionStep] at h
      split at h <;> cases h <;> cases hpc'
  | policyInsert code reclaimed rest => cases rest <;> cases h <;> cases hpc'
  | sendRegistered code reclaimed => cases reclaimed <;> cases h <;> cases hpc'
  | getExpired code =>
      cases h
      split at hpc' <;> cases hpc'
  | offlineSelect code =>
      cases hc
      simp only [sessionStep, Option.some.injEq, Prod.mk.injEq] at h
      obtain ⟨rfl, rfl⟩ := h
      split at hpc'
      · cases hpc'
      · rename_i hoff
        exact .inl (by simpa using hoff)
  | offlineUpdate code =>
      cases hc
      cases h
      exact .inl (by simp [Registry.isOnline_setStatus])
  | offlineCommit code =>
      cases hc
      cases h
      exact .inr (by simp [Registry.disconnect])
  | policyDelete _ _ | sendExpired _ | receiving _ | closing _ =>
      cases h
      cases hpc'

variable [DecidableEq ι]

private theorem sessionInv_session (auth : ι → AgentAuth) (s : MountSystem ι ρ) (i : ι)
    (answer : Answer) (r : Registry ι) (pc : SessionPc) (closed : ι → Bool) (hinv : s.SessionInv)
    (hcond : s.EndsCleanly (.session i answer))
    (h : sessionStep (auth i) i s.registry answer (s.session i) = some (r, pc)) :
    SessionInv { s.setSession i pc with registry := r, closed := closed } := by
  have hnotEnded : s.session i ≠ .ended := by
    intro hended
    rw [hended] at h
    cases h
  -- A connection of the stepping session that was there before is under its own code.
  have hown : ∀ c, s.registry.connections c = some i → (s.session i).assigned = some c := by
    intro c hc
    exact (hinv.owned c i hc).resolve_left hnotEnded
  refine ⟨?_, ?_⟩
  · intro c j hj
    rcases sessionStep_connections (auth i) i s.registry r answer _ pc h c j hj with
      hold | ⟨rfl, reclaimed, rfl⟩
    · by_cases hji : j = i
      · subst hji
        simpa [setSession] using sessionStep_assigned (auth j) j s.registry r answer _ pc h c (hown c hold)
      · simpa [setSession, hji] using hinv.owned c j hold
    · exact .inr (by simp [setSession, SessionPc.assigned])
  · intro c j hrel hj
    by_contra hon
    have hstored := sessionStep_connections (auth i) i s.registry r answer _ pc h c j hj
    rcases sessionStep_isOnline (auth i) i s.registry r answer _ pc h c (by simpa using hon) with
      hold | ⟨hpc, hpc'⟩
    · by_cases hji : j = i
      · subst hji
        have hpc : pc.released = true := by simpa [setSession] using hrel
        rcases hstored with hbefore | ⟨-, reclaimed, rfl⟩
        · rcases sessionStep_released (auth j) j s.registry r answer _ pc h hpc c (hown c hbefore) with
            hoff | hpopped
          · exact hon hoff
          · have hjc : r.connections c = some j := hj
            rw [hpopped] at hjc
            cases hjc
        · cases hpc
      · have hbefore : s.registry.connections c = some j :=
          hstored.resolve_right fun hnew => hji hnew.1
        have hoff := hinv.released c j (by simpa [setSession, hji] using hrel) hbefore
        rw [hold] at hoff
        cases hoff
    · rcases hstored with hbefore | ⟨-, reclaimed, rfl⟩
      · rw [hcond c hpc] at hbefore
        cases hbefore
      · cases hpc'

private theorem sessionInv_fail (s : MountSystem ι ρ) (i : ι) (pc : SessionPc) (closed : ι → Bool)
    (hinv : s.SessionInv) (hcond : (s.session i).exposed = false)
    (h : sessionFail (s.session i) = some pc) :
    SessionInv { s.setSession i pc with closed := closed } := by
  have hassigned : ∀ c, (s.session i).assigned = some c → pc = .ended ∨ pc.assigned = some c := by
    intro c hc
    cases hpc : s.session i <;> rw [hpc] at h hc <;> cases h <;> first | exact .inl rfl | exact .inr hc
  have hreleased : ∀ c, (s.session i).assigned = some c → pc.released = true →
      (s.session i).released = true := by
    intro c hc hrel
    cases hpc : s.session i <;> rw [hpc] at h hc hcond <;>
      first | rfl | (cases hc; done) | (cases hcond; done) | (cases h; cases hrel)
  have hnotEnded : s.session i ≠ .ended := by
    intro hended
    rw [hended] at h
    cases h
  refine ⟨?_, ?_⟩
  · intro c j hj
    by_cases hji : j = i
    · subst hji
      have hown := (hinv.owned c j hj).resolve_left hnotEnded
      simpa [setSession] using hassigned c hown
    · simpa [setSession, hji] using hinv.owned c j hj
  · intro c j hrel hj
    by_cases hji : j = i
    · subst hji
      have hown := (hinv.owned c j hj).resolve_left hnotEnded
      exact hinv.released c j (hreleased c hown (by simpa [setSession] using hrel)) hj
    · exact hinv.released c j (by simpa [setSession, hji] using hrel) hj

variable [DecidableEq ρ]

theorem sessionInv_step (auth : ι → AgentAuth) (req : ρ → ProxyRequest) (s : MountSystem ι ρ)
    (a : MountAction ι ρ) (t : MountSystem ι ρ) (hinv : s.SessionInv) (hcond : s.EndsCleanly a)
    (h : s.step auth req a = some t) : t.SessionInv := by
  cases a with
  | session i answer =>
      obtain ⟨⟨r, pc⟩, hstep, rfl⟩ := Option.map_eq_some_iff.mp h
      cases pc <;> exact sessionInv_session auth s i answer r _ _ hinv hcond hstep
  | sessionFail i =>
      obtain ⟨pc, hfail, rfl⟩ := Option.map_eq_some_iff.mp h
      cases pc <;> exact sessionInv_fail s i _ _ hinv hcond hfail
  | connClosed i =>
      cases h
      exact hinv.of_le rfl (fun _ _ hi => hi) (fun _ hon => hon)
  | request k store =>
      obtain ⟨pc, -, rfl⟩ := Option.map_eq_some_iff.mp h
      exact hinv.of_le rfl (fun _ _ hi => hi) (fun _ hon => hon)
  | requestFail k =>
      simp only [step] at h
      split at h <;> cases h
      exact hinv.of_le rfl (fun _ _ hi => hi) (fun _ hon => hon)
  | sweepExpire code =>
      simp only [step] at h
      split at h
      · cases h
        refine hinv.of_le rfl (fun _ _ hi => hi) ?_
        intro c hon
        rw [Registry.isOnline_setStatus] at hon
        split at hon
        · simp at hon
        · exact hon
      · cases h
  | sweepPop =>
      obtain ⟨code, -, rfl⟩ := Option.map_eq_some_iff.mp h
      exact hinv.of_le rfl (fun c i hi => Registry.disconnect_connections s.registry code c i hi)
        (fun _ hon => hon)
  | sweepDelete code =>
      simp only [step] at h
      split at h
      · cases h
        exact hinv.of_le rfl (fun _ _ hi => hi)
          (fun c hon => Registry.isOnline_deleteExpired s.registry code c hon)
      · cases h

/-- In a run that meets the condition, a handler that has ended leaves no code ONLINE with its own
connection. -/
theorem endedSession_notOnline (auth : ι → AgentAuth) (req : ρ → ProxyRequest)
    (mounts : Code → Option MountRow) (policy : Code → List PolicyEntry)
    (acts : List (MountAction ι ρ)) (s : MountSystem ι ρ)
    (hcond : TransitionSystem.Guarded (step auth req) EndsCleanly (start mounts policy) acts)
    (hrun : TransitionSystem.run (step auth req) (start mounts policy) acts = some s)
    (i : ι) (hended : s.session i = .ended) (c : Code) :
    ¬ (s.registry.isOnline c = true ∧ s.registry.connections c = some i) := by
  have hinv : s.SessionInv :=
    TransitionSystem.run_invariant_of_guarded (step auth req) EndsCleanly SessionInv
      (sessionInv_step auth req) (sessionInv_start mounts policy) hcond hrun
  rintro ⟨honline, hconn⟩
  have hoff := hinv.released c i (by simp [hended, SessionPc.released]) hconn
  rw [honline] at hoff
  cases hoff

instance decidableEndsCleanly (s : MountSystem ι ρ) (a : MountAction ι ρ) :
    Decidable (s.EndsCleanly a) :=
  match a with
  | .session _ _ => inferInstanceAs (Decidable (∀ _ ∈ _, _))
  | .sessionFail _ => inferInstanceAs (Decidable (_ = _))
  | .connClosed _ | .request _ _ | .requestFail _ | .sweepExpire _ | .sweepPop | .sweepDelete _ =>
      isTrue trivial

/-- An agent that asks for the code `photos`, without an owner. -/
def photosAgent : AgentAuth := ⟨some "photos", "10.0.0.7", none, ⟨.open, false, []⟩⟩

/-- The first session registers, and an exception ends its receive loop. The second one reclaims
the code, and ends by a disconnect. -/
def mountTwice : List (MountAction (Fin 2) Empty) :=
  List.replicate 9 (.session 0 ⟨false, "", false⟩) ++ [.sessionFail 0] ++
    List.replicate 4 (.session 0 ⟨false, "", false⟩) ++
    List.replicate 15 (.session 1 ⟨false, "", true⟩)

theorem endedSession_notOnline_mountTwice :
    ∃ s, TransitionSystem.run (step (fun _ => photosAgent) Empty.elim)
        (start (fun _ => none) fun _ => []) mountTwice = some s ∧
      s.session 0 = .ended ∧ s.session 1 = .ended ∧
      ¬ (s.registry.isOnline "photos" = true ∧ s.registry.connections "photos" = some 1) := by
  have heval : (TransitionSystem.run (step (fun _ => photosAgent) Empty.elim)
      (start (fun _ => none) fun _ => []) mountTwice).any
      (fun s => decide (s.session 0 = .ended ∧ s.session 1 = .ended)) = true := by decide +kernel
  obtain ⟨s, hrun, hs⟩ := (Option.any_eq_true _ _).mp heval
  obtain ⟨hfirst, hsecond⟩ := of_decide_eq_true hs
  refine ⟨s, hrun, hfirst, hsecond, ?_⟩
  exact endedSession_notOnline (fun _ => photosAgent) Empty.elim _ _ mountTwice s
    (by decide +kernel) hrun 1 hsecond "photos"

/-- The agent is gone before `mount_registered` is sent. -/
def lostRegistration : List (MountAction (Fin 1) Empty) :=
  List.replicate 8 (.session 0 ⟨false, "", false⟩) ++ [.sessionFail 0]

theorem lostRegistration_staysOnline :
    ∃ s, TransitionSystem.run (step (fun _ => photosAgent) Empty.elim)
        (start (fun _ => none) fun _ => []) lostRegistration = some s ∧
      s.session 0 = .ended ∧ s.registry.isOnline "photos" = true ∧
      s.registry.connections "photos" = some 0 := by
  have heval : (TransitionSystem.run (step (fun _ => photosAgent) Empty.elim)
      (start (fun _ => none) fun _ => []) lostRegistration).any
      (fun s => decide (s.session 0 = .ended ∧ s.registry.isOnline "photos" = true ∧
        s.registry.connections "photos" = some 0)) = true := by decide +kernel
  obtain ⟨s, hrun, hs⟩ := (Option.any_eq_true _ _).mp heval
  exact ⟨s, hrun, of_decide_eq_true hs⟩

end MountSystem

end NetworkFileServer.Relay
