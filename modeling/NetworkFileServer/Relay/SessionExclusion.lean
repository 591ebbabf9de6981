import Mathlib.Data.Fintype.Basic
import NetworkFileServer.Relay.SessionEnd

/-!
# One session per code

The registry methods that give a session its code first read the row and then write it, with an
await in between. Two sessions that read before either of them writes are both given the code, and
the one that ends first takes the connection, the identity secret and the row of the other.

The dictionary `_identity_secrets` is added to the sessions here: it is only written beside the
statements that are already steps.
-/

namespace NetworkFileServer.Relay

/-- The code that the session has written to the table as its own, until `mark_offline` is over. -/
def SessionPc.occupies : SessionPc → Option Code
  | .reclaimCommit code | .registerCommit code => some code
  | pc => pc.assigned

theorem SessionPc.occupies_of_assigned (pc : SessionPc) (c : Code) (h : pc.assigned = some c) :
    pc.occupies = some c := by
  cases pc <;> first | exact h | cases h

/-- The awaits of the `finally` of `agent_websocket`. -/
def SessionPc.ending : SessionPc → Bool
  | .closing _ | .offlineSelect _ | .offlineUpdate _ | .offlineCommit _ => true
  | _ => false

/-- `_identity_secrets` after the step of session `i` from `pc` to `pc'`. -/
def sessionSecrets {ι : Type*} (signs : Bool) (i : ι) (r : Registry ι) (secrets : Code → Option ι)
    (pc pc' : SessionPc) : Code → Option ι :=
  match pc, pc' with
  -- `set_identity_secret` runs between `set_owner_policy` and the await of `send_control`.
  | _, .sendRegistered code _ => if signs then Function.update secrets code (some i) else secrets
  -- No row: `MountNotFoundError` is raised before the pop.
  | .offlineSelect code, _ =>
      if (r.mounts code).isSome && !r.isOnline code then Function.update secrets code none else secrets
  | .offlineCommit code, _ => Function.update secrets code none
  | _, _ => secrets

/-- The relay with the dictionary `_identity_secrets`; a secret is named by the session that sent it. -/
structure SecretSystem (ι ρ : Type*) where
  relay : MountSystem ι ρ
  secrets : Code → Option ι

namespace SecretSystem

variable {ι ρ : Type*}

def start (mounts : Code → Option MountRow) (policy : Code → List PolicyEntry) : SecretSystem ι ρ :=
  ⟨MountSystem.start mounts policy, fun _ => none⟩

/-- `_identity_secrets` after an action that leads the relay to `m`. -/
def secretsAfter (signs : ι → Bool) (s : SecretSystem ι ρ) (m : MountSystem ι ρ) :
    MountAction ι ρ → Code → Option ι
  | .session i _ =>
      sessionSecrets (signs i) i s.relay.registry s.secrets (s.relay.session i) (m.session i)
  | .sweepPop =>
      match s.relay.sweeping with
      | some code => Function.update s.secrets code none
      | none => s.secrets
  | _ => s.secrets

def step [DecidableEq ι] [DecidableEq ρ] (auth : ι → AgentAuth) (signs : ι → Bool)
    (req : ρ → ProxyRequest) (s : SecretSystem ι ρ) (a : MountAction ι ρ) : Option (SecretSystem ι ρ) :=
  (s.relay.step auth req a).map fun m => ⟨m, s.secretsAfter signs m a⟩

/-- Nobody is in the middle of using the row: it is not there, or it is OFFLINE and no `mark_offline`
is between its UPDATE and its end, or it is EXPIRED and no session has outlived it. -/
def Free (s : SecretSystem ι ρ) (code : Code) : Prop :=
  match s.relay.registry.status code with
  | none => True
  | some .online => False
  | some .offline => ∀ j, s.relay.session j ≠ .offlineCommit code
  | some .expired => ∀ j, (s.relay.session j).occupies ≠ some code

/-- What was read before the await still holds at the write: a reclaim finds its row free, a
registration its code, and no row is deleted under a session. -/
def ReadsHold (s : SecretSystem ι ρ) : MountAction ι ρ → Prop
  | .session i _ =>
      match s.relay.session i with
      | .reclaimUpdate code => s.relay.registry.status code ≠ none ∧ s.Free code
      | .registerInsert code => code = "" ∨ s.Free code
      | _ => True
  | .sweepDelete code => s.relay.registry.status code = some .expired → s.Free code
  | _ => True

end SecretSystem

section

variable {ι : Type*} (auth : AgentAuth) (i : ι) (r r' : Registry ι) (answer : Answer)
  (pc pc' : SessionPc)

theorem sessionStep_occupies (h : sessionStep auth i r answer pc = some (r', pc')) (c : Code)
    (hc : pc'.occupies = some c) :
    (pc.occupies = some c ∧ pc ≠ .offlineCommit c) ∨
      (pc = .reclaimUpdate c ∧ r' = r.setStatus c .online) ∨
      (pc = .registerInsert c ∧ c ≠ "" ∧ r' = r.insertMount c auth.clientIp) := by
  cases pc with
  | connecting =>
      simp only [sessionStep] at h
      split at h <;> cases h <;> cases hc
  | reclaimSelect code asOwner =>
      simp only [sessionStep] at h
      split at h
      · cases h
        cases hc
      · split at h <;> cases h <;> cases hc
  | reclaimUpdate code =>
      cases h
      cases hc
      exact .inr (.inl ⟨rfl, rfl⟩)
  | hasMount code =>
      cases h
      cases hc
  | registerInsert code =>
      simp only [sessionStep] at h
      split at h
      · cases h
        cases hc
      · rename_i hne
        cases h
        cases hc
        exact .inr (.inr ⟨rfl, hne, rfl⟩)
  | policyUpdate code reclaimed =>
      simp only [sessionStep] at h
      split at h <;> cases h <;> exact .inl ⟨hc, by simp⟩
  | policyInsert code reclaimed rest => cases rest <;> cases h <;> exact .inl ⟨hc, by simp⟩
  | sendRegistered code reclaimed => cases reclaimed <;> cases h <;> exact .inl ⟨hc, by simp⟩
  | getExpired code =>
      cases h
      split at hc <;> exact .inl ⟨hc, by simp⟩
  | offlineSelect code =>
      cases h
      split at hc
      · exact .inl ⟨hc, by simp⟩
      · cases hc
  | offlineCommit code =>
      cases h
      cases hc
  | ended => cases h
  | _ =>
      cases h
      exact .inl ⟨hc, by simp⟩

theorem sessionStep_status (h : sessionStep auth i r answer pc = some (r', pc')) (c : Code) :
    r'.status c = r.status c ∨ (pc.turnsOnline = some c ∧ pc'.occupies = some c) ∨
      (pc = .offlineUpdate c ∧ pc' = .offlineCommit c ∧ r' = r.setStatus c .offline) := by
  cases pc with
  | connecting =>
      simp only [sessionStep] at h
      split at h <;> cases h <;> exact .inl rfl
  | reclaimSelect code asOwner =>
      simp only [sessionStep] at h
      split at h
      · cases h
        exact .inl rfl
      · split at h <;> cases h <;> exact .inl rfl
  | reclaimUpdate code =>
      cases h
      rw [Registry.status_setStatus]
      split
      · rename_i heq
        subst heq
        exact .inr (.inl ⟨rfl, rfl⟩)
      · exact .inl rfl
  | registerInsert code =>
      simp only [sessionStep] at h
      split at h
      · cases h
        exact .inl rfl
      · cases h
        rw [Registry.status_insertMount]
        split
        · rename_i heq
          subst heq
          exact .inr (.inl ⟨rfl, rfl⟩)
        · exact .inl rfl
  | policyUpdate code reclaimed =>
      simp only [sessionStep] at h
      split at h <;> cases h
      · exact .inl (Registry.status_setPolicyColumns _ _ _ _ _ _)
      · exact .inl rfl
  | policyInsert code reclaimed rest => cases rest <;> cases h <;> exact .inl rfl
  | offlineUpdate code =>
      cases h
      rw [Registry.status_setStatus]
      split
      · rename_i heq
        subst heq
        exact .inr (.inr ⟨rfl, rfl, rfl⟩)
      · exact .inl rfl
  | ended => cases h
  | _ =>
      cases h
      exact .inl rfl

/-- A secret that is in the dictionary after the step was there before, or the session has just set
its own. -/
theorem sessionSecrets_eq_some (signs : Bool) (secrets : Code → Option ι) (c : Code) (j : ι)
    (hj : sessionSecrets signs i r secrets pc pc' c = some j) :
    secrets c = some j ∨ (j = i ∧ pc'.assigned = some c) := by
  have hpop : ∀ code, Function.update secrets code none c = some j → secrets c = some j := by
    intro code hcode
    by_cases hc : c = code
    · subst hc
      simp at hcode
    · simpa [hc] using hcode
  unfold sessionSecrets at hj
  split at hj
  · rename_i code reclaimed
    split at hj
    · by_cases hc : c = code
      · subst hc
        have hij : i = j := by simpa using hj
        exact .inr ⟨hij.symm, rfl⟩
      · exact .inl (by simpa [hc] using hj)
    · exact .inl hj
  · split at hj
    · exact .inl (hpop _ hj)
    · exact .inl hj
  · exact .inl (hpop _ hj)
  · exact .inl hj

end

namespace SecretSystem

variable {ι ρ : Type*}

/-- The entries of a dictionary belong to sessions that have ended or hold the code. -/
def Owned (session : ι → SessionPc) (table : Code → Option ι) : Prop :=
  ∀ c i, table c = some i → session i = .ended ∨ (session i).assigned = some c

/-- A code is occupied by one session, whose row is there and is not OFFLINE before the session's own
`mark_offline`. -/
structure ExclusionInv (s : SecretSystem ι ρ) : Prop where
  unique : ∀ c i j, (s.relay.session i).occupies = some c → (s.relay.session j).occupies = some c → i = j
  stored : ∀ c i, (s.relay.session i).occupies = some c → s.relay.registry.status c ≠ none ∧
    (s.relay.registry.status c = some .offline → s.relay.session i = .offlineCommit c)
  connections : Owned s.relay.session s.relay.registry.connections
  secrets : Owned s.relay.session s.secrets

theorem exclusionInv_start (mounts : Code → Option MountRow) (policy : Code → List PolicyEntry) :
    ExclusionInv (start mounts policy : SecretSystem ι ρ) where
  unique := by
    intro c i j hi
    cases hi
  stored := by
    intro c i hi
    cases hi
  connections := by
    intro c i hi
    cases hi
  secrets := by
    intro c i hi
    cases hi

theorem ExclusionInv.not_occupied {s : SecretSystem ι ρ} (hinv : s.ExclusionInv) (c : Code)
    (hfree : s.Free c) (j : ι) : (s.relay.session j).occupies ≠ some c := by
  intro hj
  obtain ⟨hrow, hoffline⟩ := hinv.stored c j hj
  unfold Free at hfree
  split at hfree
  · rename_i hnone
    exact hrow hnone
  · exact hfree
  · rename_i hstatus
    exact hfree j (hoffline hstatus)
  · exact hfree j hj

/-- A step that moves no session and stores nothing, and that touches the status of a row only to
expire it or when nobody occupies its code. -/
private theorem ExclusionInv.of_le {s t : SecretSystem ι ρ} (hinv : s.ExclusionInv)
    (hsession : t.relay.session = s.relay.session)
    (hconn : ∀ c i, t.relay.registry.connections c = some i → s.relay.registry.connections c = some i)
    (hsecrets : ∀ c i, t.secrets c = some i → s.secrets c = some i)
    (hstatus : ∀ c j, (s.relay.session j).occupies = some c →
      t.relay.registry.status c = s.relay.registry.status c ∨
      t.relay.registry.status c = some .expired) : t.ExclusionInv where
  unique := by
    rw [hsession]
    exact hinv.unique
  stored := by
    intro c j hj
    rw [hsession] at hj ⊢
    rcases hstatus c j hj with hsame | hexpired
    · rw [hsame]
      exact hinv.stored c j hj
    · rw [hexpired]
      simp
  connections := by
    intro c j hj
    rw [hsession]
    exact hinv.connections c j (hconn c j hj)
  secrets := by
    intro c j hj
    rw [hsession]
    exact hinv.secrets c j (hsecrets c j hj)

private theorem not_occupied_of_turnsOnline (s : SecretSystem ι ρ) (i : ι) (answer : Answer)
    (hinv : s.ExclusionInv) (hcond : s.ReadsHold (.session i answer)) (c : Code)
    (hc : (s.relay.session i).turnsOnline = some c) (hne : s.relay.session i ≠ .registerInsert "") (j : ι) :
    (s.relay.session j).occupies ≠ some c := by
  simp only [ReadsHold] at hcond
  cases hpc : s.relay.session i with
  | reclaimUpdate code =>
      rw [hpc] at hcond hc
      cases hc
      exact hinv.not_occupied c hcond.2 j
  | registerInsert code =>
      rw [hpc] at hcond hc hne
      cases hc
      have hnonempty : c ≠ "" := fun heq => hne (by rw [heq])
      exact hinv.not_occupied c (hcond.resolve_left hnonempty) j
  | _ =>
      rw [hpc] at hc
      cases hc

private theorem sessionFail_cases (pc pc' : SessionPc) (h : sessionFail pc = some pc') :
    (∃ code, pc = .receiving code ∧ pc' = .closing code) ∨ (pc ≠ .ended ∧ pc' = .ended) := by
  cases pc <;> cases h <;> simp

/-- The step belongs to the end of session `i`: it is taken in its `finally`, or it is the exception
that ends it. -/
def EndsSession (s : SecretSystem ι ρ) (i : ι) : MountAction ι ρ → Prop
  | .session k _ => k = i ∧ (s.relay.session k).ending = true
  | .sessionFail k => k = i
  | _ => False

/-- The connection, the secret and the row of session `j` are not taken away between two states. -/
structure Spares (s t : SecretSystem ι ρ) (j : ι) : Prop where
  connection : ∀ c, s.relay.registry.connections c = some j → t.relay.registry.connections c = some j
  secret : ∀ c, s.secrets c = some j → t.secrets c = some j
  row : ∀ c, (s.relay.session j).assigned = some c → t.relay.registry.status c = some .offline →
    s.relay.registry.status c = some .offline

private theorem ending_elsewhere (auth : AgentAuth) (signs : Bool) (i : ι) (r r' : Registry ι)
    (secrets : Code → Option ι) (answer : Answer) (pc pc' : SessionPc) (hending : pc.ending = true)
    (h : sessionStep auth i r answer pc = some (r', pc')) (c : Code) (hc : pc.assigned ≠ some c) :
    r'.connections c = r.connections c ∧ r'.status c = r.status c ∧
      sessionSecrets signs i r secrets pc pc' c = secrets c := by
  cases pc with
  | closing code =>
      cases h
      exact ⟨rfl, rfl, rfl⟩
  | offlineSelect code =>
      have hne : c ≠ code := by
        rintro rfl
        exact hc rfl
      cases h
      refine ⟨rfl, rfl, ?_⟩
      cases hon : r.isOnline code <;> cases hrow : (r.mounts code).isSome <;>
        simp [sessionSecrets, hon, hrow, hne]
  | offlineUpdate code =>
      have hne : c ≠ code := by
        rintro rfl
        exact hc rfl
      cases h
      exact ⟨rfl, by rw [Registry.status_setStatus, if_neg hne], rfl⟩
  | offlineCommit code =>
      have hne : c ≠ code := by
        rintro rfl
        exact hc rfl
      cases h
      exact ⟨by simp [Registry.disconnect, hne], rfl, by simp [sessionSecrets, hne]⟩
  | _ => cases hending

variable [DecidableEq ι]

private theorem Owned.update {session : ι → SessionPc} {table table' : Code → Option ι}
    (hown : Owned session table) (i : ι) (pc : SessionPc) (hlive : session i ≠ .ended)
    (hkeeps : ∀ c, (session i).assigned = some c → pc = .ended ∨ pc.assigned = some c)
    (htable : ∀ c j, table' c = some j → table c = some j ∨ (j = i ∧ pc.assigned = some c)) :
    Owned (Function.update session i pc) table' := by
  intro c j hj
  by_cases hji : j = i
  · subst hji
    rw [Function.update_self]
    rcases htable c j hj with hold | ⟨-, hnew⟩
    · exact hkeeps c ((hown c j hold).resolve_left hlive)
    · exact .inr hnew
  · rw [Function.update_of_ne hji]
    have hold := (htable c j hj).resolve_right fun hnew => hji hnew.1
    exact hown c j hold

variable [DecidableEq ρ] (auth : ι → AgentAuth) (signs : ι → Bool) (req : ρ → ProxyRequest)

theorem step_session (s t : SecretSystem ι ρ) (i : ι) (answer : Answer)
    (h : s.step auth signs req (.session i answer) = some t) :
    ∃ r pc, sessionStep (auth i) i s.relay.registry answer (s.relay.session i) = some (r, pc) ∧
      t.relay.registry = r ∧ t.relay.session = Function.update s.relay.session i pc ∧
      t.secrets = sessionSecrets (signs i) i s.relay.registry s.secrets (s.relay.session i) pc := by
  obtain ⟨m, hm, rfl⟩ := Option.map_eq_some_iff.mp h
  obtain ⟨⟨r, pc⟩, hpc, rfl⟩ := Option.map_eq_some_iff.mp hm
  refine ⟨r, pc, hpc, ?_⟩
  cases pc <;>
    simp [MountSystem.setSession, MountSystem.markClosed, secretsAfter]

theorem step_sessionFail (s t : SecretSystem ι ρ) (i : ι)
    (h : s.step auth signs req (.sessionFail i) = some t) :
    ∃ pc, sessionFail (s.relay.session i) = some pc ∧ t.relay.registry = s.relay.registry ∧
      t.relay.session = Function.update s.relay.session i pc ∧ t.secrets = s.secrets := by
  obtain ⟨m, hm, rfl⟩ := Option.map_eq_some_iff.mp h
  obtain ⟨pc, hpc, rfl⟩ := Option.map_eq_some_iff.mp hm
  refine ⟨pc, hpc, ?_⟩
  cases pc <;>
    simp [MountSystem.setSession, MountSystem.markClosed, secretsAfter]

private theorem exclusionInv_session (s t : SecretSystem ι ρ) (i : ι) (answer : Answer)
    (hinv : s.ExclusionInv) (hcond : s.ReadsHold (.session i answer))
    (h : s.step auth signs req (.session i answer) = some t) : t.ExclusionInv := by
  obtain ⟨r, pc, hpc, hr, hsession, hsecrets⟩ := step_session auth signs req s t i answer h
  have hlive : s.relay.session i ≠ .ended := by
    intro hended
    rw [hended] at hpc
    cases hpc
  -- Who occupies a code after the step did so before, or the code was nobody's.
  have hfresh : ∀ c, (s.relay.session i).turnsOnline = some c → pc.occupies = some c →
      ∀ j, (s.relay.session j).occupies ≠ some c := by
    intro c hc hocc
    apply not_occupied_of_turnsOnline s i answer hinv hcond c hc
    intro hins
    rw [hins] at hpc
    cases hpc
    cases hocc
  have hother : ∀ c j, j ≠ i → pc.occupies = some c → (s.relay.session j).occupies ≠ some c := by
    intro c j hji hocc hj
    rcases sessionStep_occupies _ _ _ _ _ _ _ hpc c hocc with ⟨hbefore, -⟩ | ⟨hup, -⟩ | ⟨hin, -⟩
    · exact hji (hinv.unique c j i hj hbefore)
    · exact hfresh c (by rw [hup]; rfl) hocc j hj
    · exact hfresh c (by rw [hin]; rfl) hocc j hj
  refine ⟨?_, ?_, ?_, ?_⟩
  · intro c j k hj hk
    rw [hsession] at hj hk
    by_cases hji : j = i
    · by_cases hki : k = i
      · rw [hji, hki]
      · rw [hji, Function.update_self] at hj
        rw [Function.update_of_ne hki] at hk
        exact absurd hk (hother c k hki hj)
    · rw [Function.update_of_ne hji] at hj
      by_cases hki : k = i
      · rw [hki, Function.update_self] at hk
        exact absurd hj (hother c j hji hk)
      · rw [Function.update_of_ne hki] at hk
        exact hinv.unique c j k hj hk
  · intro c j hj
    rw [hsession] at hj ⊢
    rw [hr]
    by_cases hji : j = i
    · subst hji
      rw [Function.update_self] at hj ⊢
      rcases sessionStep_occupies _ _ _ _ _ _ _ hpc c hj with ⟨hbefore, hnot⟩ | ⟨hup, rfl⟩ | ⟨-, -, rfl⟩
      · obtain ⟨hrow, hoffline⟩ := hinv.stored c j hbefore
        rcases sessionStep_status _ _ _ _ _ _ _ hpc c with hsame | ⟨hturns, -⟩ | ⟨-, hpc', rfl⟩
        · rw [hsame]
          exact ⟨hrow, fun hoff => absurd (hoffline hoff) hnot⟩
        · exact absurd hbefore (hfresh c hturns hj j)
        · rw [Registry.status_setStatus]
          exact ⟨by simpa using hrow, fun _ => hpc'⟩
      · have hrow : s.relay.registry.status c ≠ none := by
          simp only [ReadsHold, hup] at hcond
          exact hcond.1
        rw [Registry.status_setStatus, if_pos rfl]
        refine ⟨by simpa using hrow, ?_⟩
        intro hoff
        obtain ⟨_, -, hoff⟩ := Option.map_eq_some_iff.mp hoff
        cases hoff
      · rw [Registry.status_insertMount, if_pos rfl]
        simp
    · rw [Function.update_of_ne hji] at hj ⊢
      rcases sessionStep_status _ _ _ _ _ _ _ hpc c with hsame | ⟨hturns, hocc⟩ | ⟨hup, -, -⟩
      · rw [hsame]
        exact hinv.stored c j hj
      · exact absurd hj (hfresh c hturns hocc j)
      · have hi : (s.relay.session i).occupies = some c := by
          rw [hup]
          rfl
        exact absurd (hinv.unique c j i hj hi) hji
  · rw [hsession, hr]
    apply hinv.connections.update i pc hlive (sessionStep_assigned _ _ _ _ _ _ _ hpc)
    intro c j hj
    rcases sessionStep_connections _ _ _ _ _ _ _ hpc c j hj with hold | ⟨rfl, reclaimed, rfl⟩
    · exact .inl hold
    · exact .inr ⟨rfl, rfl⟩
  · rw [hsession, hsecrets]
    apply hinv.secrets.update i pc hlive (sessionStep_assigned _ _ _ _ _ _ _ hpc)
    exact sessionSecrets_eq_some i s.relay.registry _ pc (signs i) s.secrets

private theorem exclusionInv_sessionFail (s t : SecretSystem ι ρ) (i : ι)
    (hinv : s.ExclusionInv) (h : s.step auth signs req (.sessionFail i) = some t) : t.ExclusionInv := by
  obtain ⟨pc, hpc, hr, hsession, hsecrets⟩ := step_sessionFail auth signs req s t i h
  have hcases := sessionFail_cases _ pc hpc
  have hocc : ∀ c, pc.occupies = some c →
      (s.relay.session i).occupies = some c ∧ s.relay.session i ≠ .offlineCommit c := by
    intro c hc
    rcases hcases with ⟨code, hbefore, rfl⟩ | ⟨-, rfl⟩
    · rw [hbefore]
      exact ⟨hc, by simp⟩
    · cases hc
  have hassigned : ∀ c, (s.relay.session i).assigned = some c → pc = .ended ∨ pc.assigned = some c := by
    intro c hc
    rcases hcases with ⟨code, hbefore, rfl⟩ | ⟨-, hend⟩
    · rw [hbefore] at hc
      exact .inr hc
    · exact .inl hend
  have hlive : s.relay.session i ≠ .ended := by
    rcases hcases with ⟨code, hbefore, -⟩ | ⟨hne, -⟩
    · rw [hbefore]
      simp
    · exact hne
  have hback : ∀ c j, (Function.update s.relay.session i pc j).occupies = some c →
      (s.relay.session j).occupies = some c := by
    intro c j hj
    by_cases hji : j = i
    · subst hji
      rw [Function.update_self] at hj
      exact (hocc c hj).1
    · rwa [Function.update_of_ne hji] at hj
  refine ⟨?_, ?_, ?_, ?_⟩
  · intro c j k hj hk
    rw [hsession] at hj hk
    exact hinv.unique c j k (hback c j hj) (hback c k hk)
  · intro c j hj
    rw [hsession] at hj ⊢
    rw [hr]
    obtain ⟨hrow, hoffline⟩ := hinv.stored c j (hback c j hj)
    refine ⟨hrow, fun hoff => ?_⟩
    by_cases hji : j = i
    · subst hji
      rw [Function.update_self] at hj
      exact absurd (hoffline hoff) (hocc c hj).2
    · rw [Function.update_of_ne hji]
      exact hoffline hoff
  · rw [hsession, hr]
    exact hinv.connections.update i pc hlive hassigned fun _ _ hj => .inl hj
  · rw [hsession, hsecrets]
    exact hinv.secrets.update i pc hlive hassigned fun _ _ hj => .inl hj

theorem exclusionInv_step (s : SecretSystem ι ρ) (a : MountAction ι ρ) (t : SecretSystem ι ρ)
    (hinv : s.ExclusionInv) (hcond : s.ReadsHold a) (h : s.step auth signs req a = some t) :
    t.ExclusionInv := by
  cases a with
  | session i answer => exact exclusionInv_session auth signs req s t i answer hinv hcond h
  | sessionFail i => exact exclusionInv_sessionFail auth signs req s t i hinv h
  | connClosed i =>
      cases h
      exact hinv.of_le rfl (fun _ _ hi => hi) (fun _ _ hi => hi) (fun _ _ _ => .inl rfl)
  | request k store =>
      obtain ⟨m, hm, rfl⟩ := Option.map_eq_some_iff.mp h
      obtain ⟨pc, -, rfl⟩ := Option.map_eq_some_iff.mp hm
      exact hinv.of_le rfl (fun _ _ hi => hi) (fun _ _ hi => hi) (fun _ _ _ => .inl rfl)
  | requestFail k =>
      obtain ⟨m, hm, rfl⟩ := Option.map_eq_some_iff.mp h
      simp only [MountSystem.step] at hm
      split at hm <;> cases hm
      exact hinv.of_le rfl (fun _ _ hi => hi) (fun _ _ hi => hi) (fun _ _ _ => .inl rfl)
  | sweepExpire code =>
      obtain ⟨m, hm, rfl⟩ := Option.map_eq_some_iff.mp h
      simp only [MountSystem.step] at hm
      split at hm
      · cases hm
        refine hinv.of_le rfl (fun _ _ hi => hi) (fun _ _ hi => hi) ?_
        intro c j hj
        rw [Registry.status_setStatus]
        split
        · rename_i heq
          subst heq
          obtain ⟨status, hstatus⟩ := Option.ne_none_iff_exists'.mp (hinv.stored c j hj).1
          exact .inr (by rw [hstatus]; rfl)
        · exact .inl rfl
      · cases hm
  | sweepPop =>
      obtain ⟨m, hm, rfl⟩ := Option.map_eq_some_iff.mp h
      obtain ⟨code, hcode, rfl⟩ := Option.map_eq_some_iff.mp hm
      refine hinv.of_le rfl (Registry.disconnect_connections s.relay.registry code) ?_
        (fun _ _ _ => .inl rfl)
      intro c j hj
      simp only [secretsAfter, hcode] at hj
      by_cases hc : c = code
      · subst hc
        simp at hj
      · simpa [hc] using hj
  | sweepDelete code =>
      obtain ⟨m, hm, rfl⟩ := Option.map_eq_some_iff.mp h
      simp only [MountSystem.step] at hm
      split at hm
      · cases hm
        refine hinv.of_le rfl (fun _ _ hi => hi) (fun _ _ hi => hi) ?_
        intro c j hj
        rcases Registry.status_deleteExpired s.relay.registry code c with hsame | ⟨rfl, hexpired⟩
        · exact .inl hsame
        · exact absurd hj (hinv.not_occupied c (hcond hexpired) j)
      · cases hm

theorem ExclusionInv.spares {s t : SecretSystem ι ρ} (hinv : s.ExclusionInv) (a : MountAction ι ρ)
    (h : s.step auth signs req a = some t) (i : ι) (hends : s.EndsSession i a) (j : ι) (hji : j ≠ i)
    (hlive : s.relay.session j ≠ .ended) : s.Spares t j := by
  cases a with
  | session k answer =>
      obtain ⟨rfl, hending⟩ := hends
      obtain ⟨r, pc, hpc, hr, hsession, hsecrets⟩ := step_session auth signs req s t k answer h
      -- The code of the other session is not the code of the ending one.
      have helse : ∀ c, (s.relay.session j).assigned = some c → (s.relay.session k).assigned ≠ some c := by
        intro c hj hk
        exact hji (hinv.unique c j k (SessionPc.occupies_of_assigned _ c hj)
          (SessionPc.occupies_of_assigned _ c hk))
      refine ⟨?_, ?_, ?_⟩
      · intro c hc
        have hj := (hinv.connections c j hc).resolve_left hlive
        have hsame := (ending_elsewhere (auth k) (signs k) k _ r s.secrets answer _ pc hending hpc c
          (helse c hj)).1
        rw [hr, hsame]
        exact hc
      · intro c hc
        have hj := (hinv.secrets c j hc).resolve_left hlive
        have hsame := (ending_elsewhere (auth k) (signs k) k _ r s.secrets answer _ pc hending hpc c
          (helse c hj)).2.2
        rw [hsecrets, hsame]
        exact hc
      · intro c hj hoff
        have hsame := (ending_elsewhere (auth k) (signs k) k _ r s.secrets answer _ pc hending hpc c
          (helse c hj)).2.1
        rw [hr, hsame] at hoff
        exact hoff
  | sessionFail k =>
      obtain ⟨pc, -, hr, -, hsecrets⟩ := step_sessionFail auth signs req s t k h
      refine ⟨?_, ?_, ?_⟩
      · intro c hc
        rw [hr]
        exact hc
      · intro c hc
        rw [hsecrets]
        exact hc
      · intro c _ hoff
        rw [hr] at hoff
        exact hoff
  | _ => cases hends

/-- In a run in which what the registry read still holds when it writes, no two sessions hold the
same code, and the end of a session spares the others. -/
theorem sessions_exclusive (mounts : Code → Option MountRow) (policy : Code → List PolicyEntry)
    (acts : List (MountAction ι ρ)) (s : SecretSystem ι ρ)
    (hcond : TransitionSystem.Guarded (step auth signs req) ReadsHold (start mounts policy) acts)
    (hrun : TransitionSystem.run (step auth signs req) (start mounts policy) acts = some s) :
    (∀ c i j, (s.relay.session i).assigned = some c → (s.relay.session j).assigned = some c → i = j) ∧
      ∀ a t, s.step auth signs req a = some t → ∀ i, s.EndsSession i a → ∀ j, j ≠ i →
        s.relay.session j ≠ .ended → s.Spares t j := by
  have hinv : s.ExclusionInv :=
    TransitionSystem.run_invariant_of_guarded (step auth signs req) ReadsHold ExclusionInv
      (exclusionInv_step auth signs req) (exclusionInv_start mounts policy) hcond hrun
  refine ⟨?_, ?_⟩
  · intro c i j hi hj
    exact hinv.unique c i j (SessionPc.occupies_of_assigned _ c hi) (SessionPc.occupies_of_assigned _ c hj)
  · intro a t h i hends j hji hlive
    exact hinv.spares auth signs req a h i hends j hji hlive

section

variable [Fintype ι]

instance decidableFree (s : SecretSystem ι ρ) (code : Code) : Decidable (s.Free code) :=
  match h : s.relay.registry.status code with
  | none => isTrue (by simp [Free, h])
  | some .online => isFalse (by simp [Free, h])
  | some .offline =>
      decidable_of_iff (∀ j, s.relay.session j ≠ .offlineCommit code) (by simp [Free, h])
  | some .expired =>
      decidable_of_iff (∀ j, (s.relay.session j).occupies ≠ some code) (by simp [Free, h])

instance decidableReadsHold (s : SecretSystem ι ρ) (a : MountAction ι ρ) : Decidable (s.ReadsHold a) :=
  match a with
  | .session i _ =>
      match h : s.relay.session i with
      | .reclaimUpdate code =>
          decidable_of_iff (s.relay.registry.status code ≠ none ∧ s.Free code) (by simp [ReadsHold, h])
      | .registerInsert code =>
          decidable_of_iff (code = "" ∨ s.Free code) (by simp [ReadsHold, h])
      | .connecting | .reclaimSelect _ _ | .reclaimCommit _ | .hasMount _ | .registerCommit _
      | .policyUpdate _ _ | .policyDelete _ _ | .policyInsert _ _ _ | .sendRegistered _ _
      | .getExpired _ | .sendExpired _ | .receiving _ | .closing _ | .offlineSelect _
      | .offlineUpdate _ | .offlineCommit _ | .ended => isTrue (by simp [ReadsHold, h])
  | .sweepDelete _ => inferInstanceAs (Decidable (_ → _))
  | .sessionFail _ | .connClosed _ | .request _ _ | .requestFail _ | .sweepExpire _ | .sweepPop =>
      isTrue trivial

end

/-- Session 0 is at the end of its `mark_offline` of `photos` while session 1 serves `music`. -/
def mountApart : List (MountAction (Fin 2) Empty) :=
  List.replicate 9 (.session 0 ⟨false, "", false⟩) ++ List.replicate 9 (.session 1 ⟨false, "", false⟩) ++
    List.replicate 4 (.session 0 ⟨false, "", false⟩)

def apartAgents (i : Fin 2) : AgentAuth :=
  if i = 0 then MountSystem.photosAgent else { MountSystem.photosAgent with preferredCode := some "music" }

theorem sessions_exclusive_mountApart :
    ∃ s, TransitionSystem.run (step apartAgents (fun _ => true) Empty.elim)
        (start (fun _ => none) fun _ => []) mountApart = some s ∧
      s.relay.session 0 = .offlineCommit "photos" ∧ s.relay.session 1 = .receiving "music" ∧
      s.relay.registry.connections "music" = some 1 ∧ s.secrets "music" = some 1 ∧
      ∀ t, s.step apartAgents (fun _ => true) Empty.elim (.session 0 ⟨false, "", false⟩) = some t →
        s.Spares t 1 := by
  have heval : (TransitionSystem.run (step apartAgents (fun _ => true) Empty.elim)
      (start (fun _ => none) fun _ => []) mountApart).any
      (fun s => decide (s.relay.session 0 = .offlineCommit "photos" ∧
        s.relay.session 1 = .receiving "music" ∧ s.relay.registry.connections "music" = some 1 ∧
        s.secrets "music" = some 1)) = true := by decide +kernel
  obtain ⟨s, hrun, hs⟩ := (Option.any_eq_true _ _).mp heval
  obtain ⟨hfirst, hsecond, hconn, hsecret⟩ := of_decide_eq_true hs
  refine ⟨s, hrun, hfirst, hsecond, hconn, hsecret, ?_⟩
  intro t ht
  have hspares := (sessions_exclusive apartAgents (fun _ => true) Empty.elim _ _ mountApart s
    (by decide +kernel) hrun).2 _ t ht 0
  exact hspares ⟨rfl, by rw [hfirst]; rfl⟩ 1 (by decide) (by rw [hsecond]; simp)

/-- Two agents ask for `photos`, and both look for the row before either of them inserts it. -/
def mountTogether : List (MountAction (Fin 2) Empty) :=
  List.replicate 3 (.session 0 ⟨false, "", false⟩) ++ List.replicate 3 (.session 1 ⟨false, "", false⟩) ++
    List.replicate 6 (.session 0 ⟨false, "", false⟩) ++ List.replicate 6 (.session 1 ⟨false, "", false⟩)

theorem mountTogether_not_exclusive :
    ∃ s, TransitionSystem.run (step (fun _ => MountSystem.photosAgent) (fun _ => true) Empty.elim)
        (start (fun _ => none) fun _ => []) mountTogether = some s ∧
      s.relay.session 0 = .receiving "photos" ∧ s.relay.session 1 = .receiving "photos" ∧
      s.relay.registry.connections "photos" = some 1 ∧ s.secrets "photos" = some 1 ∧
      ∃ t, TransitionSystem.run (step (fun _ => MountSystem.photosAgent) (fun _ => true) Empty.elim) s
          (List.replicate 5 (.session 0 ⟨false, "", false⟩)) = some t ∧
        t.relay.session 0 = .ended ∧ t.relay.session 1 = .receiving "photos" ∧
        t.relay.registry.connections "photos" = none ∧ t.secrets "photos" = none ∧
        t.relay.registry.status "photos" = some .offline := by
  have heval : (TransitionSystem.run (step (fun _ => MountSystem.photosAgent) (fun _ => true) Empty.elim)
      (start (fun _ => none) fun _ => []) mountTogether).any
      (fun s => decide (s.relay.session 0 = .receiving "photos" ∧ s.relay.session 1 = .receiving "photos" ∧
          s.relay.registry.connections "photos" = some 1 ∧ s.secrets "photos" = some 1) &&
        (TransitionSystem.run (step (fun _ => MountSystem.photosAgent) (fun _ => true) Empty.elim) s
          (List.replicate 5 (.session 0 ⟨false, "", false⟩))).any fun t =>
            decide (t.relay.session 0 = .ended ∧ t.relay.session 1 = .receiving "photos" ∧
              t.relay.registry.connections "photos" = none ∧ t.secrets "photos" = none ∧
              t.relay.registry.status "photos" = some .offline)) = true := by decide +kernel
  obtain ⟨s, hrun, hs⟩ := (Option.any_eq_true _ _).mp heval
  obtain ⟨htold, hend⟩ := (Bool.and_eq_true _ _).mp hs
  obtain ⟨t, hrest, ht⟩ := (Option.any_eq_true _ _).mp hend
  obtain ⟨hfirst, hsecond, hconn, hsecret⟩ := of_decide_eq_true htold
  exact ⟨s, hrun, hfirst, hsecond, hconn, hsecret, t, hrest, of_decide_eq_true ht⟩

end SecretSystem

end NetworkFileServer.Relay
