import NetworkFileServer.Relay.MountSystem
import NetworkFileServer.Relay.RegistryRuns

/-!
# Who takes over an owned mount

The code assignment of `agent_websocket` with `set_owner_policy`, for one session after another. The
owner of a mount may reclaim it from any address; whoever shares the address of the registration
may reclaim it too, and `set_owner_policy` then replaces the owner and the policy.
-/

namespace NetworkFileServer.Relay

namespace SqliteRegistry

variable {κ : Type*}

/-- `reclaim_result`: as the owner first, then by the client's IP. -/
def reclaimResult (r : SqliteRegistry κ) (now : ℚ) (auth : AgentAuth) (connection : κ) (code : Code) :
    Option (SqliteRegistry κ × ℤ) :=
  (auth.ownerUserId.bind fun owner => r.tryReclaimAsOwner now code connection owner).or
    (r.tryReclaim now code connection auth.clientIp)

/-- A session that has been given its code, before `set_owner_policy`. -/
structure Assignment (κ : Type*) where
  registry : SqliteRegistry κ
  code : Code
  reclaimed : Bool

/-- `generated` is what `generate_mount_code` draws, `effectiveTtl` the TTL under the relay's cap. -/
def assignCode (r : SqliteRegistry κ) (now : ℚ) (auth : AgentAuth) (connection : κ) (generated : Code)
    (effectiveTtl : ℚ) : Except RegistryError (Assignment κ) :=
  let fresh (code : Code) : Except RegistryError (Assignment κ) :=
    (r.register code (some connection) auth.clientIp now (some (now + effectiveTtl))).map (⟨·, code, false⟩)
  match auth.preferredCode with
  | none => fresh generated
  | some code =>
      match r.reclaimResult now auth connection code with
      | some (r', _) => .ok ⟨r', code, true⟩
      | none => fresh (if r.hasMount code then generated else code)

/-- `set_owner_policy` for the assigned code; a `MountNotFoundError` is logged. -/
def storePolicy (auth : AgentAuth) (a : Assignment κ) : SqliteRegistry κ :=
  match a.registry.setOwnerPolicy a.code auth.ownerUserId auth.policy with
  | .ok r => r
  | .error _ => a.registry

/-- What the policy of a mount consists of. -/
def ownerPolicy (r : SqliteRegistry κ) (code : Code) :
    Option (Option Nat × AccessMode × Bool) × List PolicyEntry :=
  ((r.mounts code).map fun row => (row.ownerUserId, row.accessMode, row.hasPassword), r.policy code)

theorem reclaimResult_eq_some (r r' : SqliteRegistry κ) (now : ℚ) (auth : AgentAuth) (connection : κ)
    (code : Code) (remaining : ℤ) (h : r.reclaimResult now auth connection code = some (r', remaining)) :
    r' = r.reclaim code connection ∧ ∃ row, r.mounts code = some row ∧ row.status = .offline ∧
      row.pastTtl now = false ∧
      ((row.ownerUserId.isSome ∧ row.ownerUserId = auth.ownerUserId) ∨ row.agentIp = auth.clientIp) := by
  rcases Option.or_eq_some_iff.mp h with hasOwner | ⟨-, hbyIp⟩
  · obtain ⟨owner, howner, hreclaim⟩ := Option.bind_eq_some_iff.mp hasOwner
    obtain ⟨row, hrow, hstatus, hrowOwner, hpast, rfl, -⟩ :=
      (tryReclaimAsOwner_eq_some_iff r r' now code connection owner remaining).mp hreclaim
    exact ⟨rfl, row, hrow, hstatus, hpast, .inl ⟨by simp [hrowOwner], hrowOwner.trans howner.symm⟩⟩
  · obtain ⟨row, hrow, hstatus, hip, hpast, rfl, -⟩ :=
      (tryReclaim_eq_some_iff r r' now code connection auth.clientIp remaining).mp hbyIp
    exact ⟨rfl, row, hrow, hstatus, hpast, .inr hip⟩

theorem assignCode_cases (r : SqliteRegistry κ) (now : ℚ) (auth : AgentAuth) (connection : κ)
    (generated : Code) (effectiveTtl : ℚ) (a : Assignment κ)
    (h : r.assignCode now auth connection generated effectiveTtl = .ok a) :
    (a.reclaimed = true ∧ auth.preferredCode = some a.code ∧ a.registry = r.reclaim a.code connection ∧
      ∃ row, r.mounts a.code = some row ∧ row.status = .offline ∧ row.pastTtl now = false ∧
        ((row.ownerUserId.isSome ∧ row.ownerUserId = auth.ownerUserId) ∨ row.agentIp = auth.clientIp)) ∨
    (a.reclaimed = false ∧ a.code ≠ "" ∧ a.registry =
      (r.insertMount a.code (freshRow auth.clientIp now (some (now + effectiveTtl)))).connect
        a.code connection) := by
  have hfresh : ∀ code,
      (r.register code (some connection) auth.clientIp now (some (now + effectiveTtl))).map
        (⟨·, code, false⟩) = .ok a → a.reclaimed = false ∧ a.code ≠ "" ∧ a.registry =
      (r.insertMount a.code (freshRow auth.clientIp now (some (now + effectiveTtl)))).connect
        a.code connection := by
    intro code hcode
    cases hreg : r.register code (some connection) auth.clientIp now (some (now + effectiveTtl)) with
    | error err =>
        rw [hreg] at hcode
        cases hcode
    | ok r' =>
        rw [hreg] at hcode
        cases hcode
        exact ⟨rfl, (register_eq_ok_iff r r' code connection _ _ _).mp hreg⟩
  unfold assignCode at h
  split at h
  · exact .inr (hfresh _ h)
  · rename_i code hpreferred
    split at h
    · rename_i r' remaining hreclaim
      cases h
      obtain ⟨rfl, hrow⟩ := reclaimResult_eq_some r r' now auth connection code remaining hreclaim
      exact .inl ⟨rfl, hpreferred, rfl, hrow⟩
    · exact .inr (hfresh _ h)

/-- The assigned code has a row, the rows of the other codes and all allowlists are as before. -/
theorem assignCode_frame (r : SqliteRegistry κ) (now : ℚ) (auth : AgentAuth) (connection : κ)
    (generated : Code) (effectiveTtl : ℚ) (a : Assignment κ)
    (h : r.assignCode now auth connection generated effectiveTtl = .ok a) :
    (∃ row, a.registry.mounts a.code = some row) ∧ (∀ code ≠ a.code, a.registry.mounts code = r.mounts code) ∧
      a.registry.policy = r.policy := by
  rcases assignCode_cases r now auth connection generated effectiveTtl a h with
    ⟨-, -, hregistry, row, hrow, -⟩ | ⟨-, -, hregistry⟩
  · refine ⟨⟨{ row with status := .online }, ?_⟩, ?_, by rw [hregistry]; rfl⟩
    · simp [hregistry, reclaim, setStatus, SqliteRegistry.connect, hrow]
    · intro code hcode
      simp [hregistry, reclaim, setStatus, SqliteRegistry.connect, hcode]
  · refine ⟨⟨freshRow auth.clientIp now (some (now + effectiveTtl)), ?_⟩, ?_, by rw [hregistry]; rfl⟩
    · rw [hregistry]
      simp [insertMount, SqliteRegistry.connect]
    · intro code hcode
      rw [hregistry]
      simp [insertMount, SqliteRegistry.connect, hcode]

theorem ownerPolicy_setStatus (r : SqliteRegistry κ) (code' code : Code) (status : MountStatus) :
    (r.setStatus code' status).ownerPolicy code = r.ownerPolicy code := by
  by_cases hcode : code = code'
  · subst hcode
    simp [ownerPolicy, setStatus, Function.comp_def]
  · simp [ownerPolicy, setStatus, hcode]

theorem ownerPolicy_cleanedRow (now : ℚ) (row : StoredRow) :
    ((cleanedRow now row).ownerUserId, (cleanedRow now row).accessMode, (cleanedRow now row).hasPassword) =
      (row.ownerUserId, row.accessMode, row.hasPassword) := by
  unfold cleanedRow
  cases hpast : row.expiresAt.any (fun e => e < now) <;> cases hstatus : row.status <;> simp [hstatus]

theorem ownerPolicy_withRow (r : SqliteRegistry κ) (code' code : Code) (update : StoredRow → SqliteRegistry κ)
    (hupdate : ∀ row, r.mounts code' = some row → (update row).ownerPolicy code = r.ownerPolicy code) :
    (r.outcome (r.withRow code' update)).1.ownerPolicy code = r.ownerPolicy code := by
  cases hrow : r.mounts code' with
  | none => simp only [withRow, hrow, outcome]
  | some row =>
      simp only [withRow, hrow, outcome]
      exact hupdate row hrow

theorem ownerPolicy_deleteExpiredBefore (r : SqliteRegistry κ) (cutoff : ℚ) (code : Code)
    (hstays : (r.deleteExpiredBefore cutoff).mounts code ≠ none) :
    (r.deleteExpiredBefore cutoff).ownerPolicy code = r.ownerPolicy code := by
  obtain ⟨row, hrow⟩ := Option.ne_none_iff_exists'.mp hstays
  have hbefore : r.mounts code = some row := (Option.filter_eq_some_iff.mp hrow).1
  rw [ownerPolicy, ownerPolicy, hrow, hbefore]
  rfl

theorem ownerPolicy_restart (r : SqliteRegistry κ) (now : ℚ) (code : Code)
    (hstays : (r.restart now).mounts code ≠ none) : (r.restart now).ownerPolicy code = r.ownerPolicy code := by
  obtain ⟨row, hrow⟩ := Option.ne_none_iff_exists'.mp hstays
  obtain ⟨stored, hstored, rfl⟩ := Option.map_eq_some_iff.mp hrow
  have hbefore : r.mounts code = some stored := (Option.filter_eq_some_iff.mp hstored).1
  rw [ownerPolicy, ownerPolicy, hrow, hbefore, Option.map_some, Option.map_some, ownerPolicy_cleanedRow]
  rfl

theorem ownerPolicy_storePolicy_of_ne (auth : AgentAuth) (a : Assignment κ) (code : Code)
    (hne : code ≠ a.code) : (storePolicy auth a).ownerPolicy code = a.registry.ownerPolicy code := by
  unfold storePolicy setOwnerPolicy withRow
  cases hrow : a.registry.mounts a.code with
  | none => rfl
  | some row => simp [ownerPolicy, insertMount, hne]

theorem storePolicy_owner (auth : AgentAuth) (a : Assignment κ) (row : StoredRow)
    (hrow : a.registry.mounts a.code = some row) :
    ∃ row', (storePolicy auth a).mounts a.code = some row' ∧ row'.ownerUserId = auth.ownerUserId := by
  unfold storePolicy setOwnerPolicy withRow
  rw [hrow]
  exact ⟨_, by simp [insertMount]; rfl, rfl⟩

/-- The session gets from one position to another without anybody else moving. -/
def SessionRuns (auth : AgentAuth) (i : κ) (p q : Registry κ × SessionPc) : Prop :=
  ∃ answers, TransitionSystem.run (fun p answer => sessionStep auth i p.1 answer p.2) p answers = some q

private theorem SessionRuns.trans {auth : AgentAuth} {i : κ} {p q u : Registry κ × SessionPc}
    (hpq : SessionRuns auth i p q) (hqu : SessionRuns auth i q u) : SessionRuns auth i p u := by
  obtain ⟨first, hfirst⟩ := hpq
  obtain ⟨second, hsecond⟩ := hqu
  exact ⟨first ++ second, TransitionSystem.run_append_of_eq_some _ hfirst hsecond⟩

private theorem SessionRuns.single {auth : AgentAuth} {i : κ} {r : Registry κ} {pc : SessionPc}
    {q : Registry κ × SessionPc} (answer : Answer) (h : sessionStep auth i r answer pc = some q) :
    SessionRuns auth i (r, pc) q := by
  refine ⟨[answer], ?_⟩
  rw [TransitionSystem.run_cons, h]
  rfl

private def anyAnswer : Answer := ⟨false, "", false⟩

private theorem sessionRuns_register (auth : AgentAuth) (i : κ) (r : Registry κ) (code : Code)
    (hcode : code ≠ "") : SessionRuns auth i (r, .registerInsert code)
      ((r.insertMount code auth.clientIp).connect code i, .policyUpdate code false) := by
  have hinsert : SessionRuns auth i (r, .registerInsert code)
      (r.insertMount code auth.clientIp, .registerCommit code) :=
    .single anyAnswer (by simp [sessionStep, hcode])
  exact hinsert.trans (.single anyAnswer rfl)

private theorem sessionRuns_reclaim (auth : AgentAuth) (i : κ) (r : Registry κ) (code : Code) :
    SessionRuns auth i (r, .reclaimUpdate code)
      ((r.setStatus code .online).connect code i, .policyUpdate code true) := by
  have hupdate : SessionRuns auth i (r, .reclaimUpdate code)
      (r.setStatus code .online, .reclaimCommit code) := .single anyAnswer rfl
  exact hupdate.trans (.single anyAnswer rfl)

private theorem sessionRuns_insertPolicy (auth : AgentAuth) (i : κ) (r : Registry κ) (code : Code)
    (reclaimed : Bool) (entries : List PolicyEntry) :
    SessionRuns auth i (r, .policyInsert code reclaimed entries)
      (entries.foldl (fun r e => r.insertPolicy code e) r, .sendRegistered code reclaimed) := by
  induction entries generalizing r with
  | nil => exact .single anyAnswer rfl
  | cons e entries ih =>
      have hfirst : SessionRuns auth i (r, .policyInsert code reclaimed (e :: entries))
          (r.insertPolicy code e, .policyInsert code reclaimed entries) := .single anyAnswer rfl
      exact hfirst.trans (ih (r.insertPolicy code e))

private theorem sessionRuns_storePolicy (auth : AgentAuth) (i : κ) (a : Assignment κ) :
    SessionRuns auth i (a.registry.toRegistry, .policyUpdate a.code a.reclaimed)
      ((storePolicy auth a).toRegistry, .sendRegistered a.code a.reclaimed) := by
  cases hset : a.registry.setOwnerPolicy a.code auth.ownerUserId auth.policy with
  | error err =>
      have hrow : a.registry.mounts a.code = none := by
        cases hrow : a.registry.mounts a.code with
        | none => rfl
        | some row => simp [setOwnerPolicy, withRow, hrow] at hset
      rw [storePolicy, hset]
      exact .single anyAnswer (by simp [sessionStep, toRegistry_mounts, hrow])
  | ok r' =>
      have hrow : (a.registry.toRegistry.mounts a.code).isSome = true := by
        cases hrow : a.registry.mounts a.code with
        | none => simp [setOwnerPolicy, withRow, hrow] at hset
        | some row => simp [toRegistry_mounts, hrow]
      rw [storePolicy, hset, setOwnerPolicy_toRegistry _ r' a.code auth.ownerUserId auth.policy hset]
      have hupdate : SessionRuns auth i (a.registry.toRegistry, .policyUpdate a.code a.reclaimed)
          (a.registry.toRegistry.setPolicyColumns a.code auth.ownerUserId auth.policy.accessMode
            auth.policy.hasPassword, .policyDelete a.code a.reclaimed) :=
        .single anyAnswer (by simp [sessionStep, hrow])
      exact hupdate.trans ((SessionRuns.single anyAnswer rfl).trans (sessionRuns_insertPolicy auth i _ _ _ _))

private theorem reclaimable_toRegistry (r : SqliteRegistry κ) (now : ℚ) (auth : AgentAuth) (connection : κ)
    (code : Code) (asOwner : Bool) (hasOwner : asOwner = true → auth.ownerUserId.isSome = true) :
    Registry.reclaimable (r.toRegistry.mounts code) auth.ownerUserId auth.clientIp asOwner
        ((r.mounts code).any fun row => row.pastTtl now) =
      (if asOwner then auth.ownerUserId.bind fun owner => r.tryReclaimAsOwner now code connection owner
        else r.tryReclaim now code connection auth.clientIp).isSome := by
  cases hrow : r.mounts code with
  | none => cases asOwner <;> cases howner : auth.ownerUserId <;>
      simp [toRegistry_mounts, hrow, Registry.reclaimable, tryReclaim, tryReclaimAsOwner]
  | some row =>
      cases asOwner with
      | false =>
          by_cases hstatus : row.status = .offline <;> by_cases hip : row.agentIp = auth.clientIp <;>
            cases hpast : row.pastTtl now <;>
            simp [toRegistry_mounts, hrow, Registry.reclaimable, tryReclaim, hstatus, hip, hpast]
      | true =>
          obtain ⟨owner, howner⟩ := Option.isSome_iff_exists.mp (hasOwner rfl)
          by_cases hstatus : row.status = .offline <;> by_cases hsame : row.ownerUserId = some owner <;>
            cases hpast : row.pastTtl now <;>
            simp [toRegistry_mounts, hrow, Registry.reclaimable, tryReclaimAsOwner, hstatus, howner, hsame,
              hpast]

private theorem sessionRuns_reclaimSelect (r : SqliteRegistry κ) (now : ℚ) (auth : AgentAuth) (connection : κ)
    (code : Code) : SessionRuns auth connection (r.toRegistry, .reclaim auth code)
      (r.toRegistry, if (r.reclaimResult now auth connection code).isSome then .reclaimUpdate code
        else .hasMount code) := by
  have hselect := fun asOwner hasOwner =>
    reclaimable_toRegistry r now auth connection code asOwner hasOwner
  have hbyIp : SessionRuns auth connection (r.toRegistry, .reclaimSelect code false)
      (r.toRegistry, if (r.tryReclaim now code connection auth.clientIp).isSome then .reclaimUpdate code
        else .hasMount code) := by
    refine .single ⟨(r.mounts code).any fun row => row.pastTtl now, "", false⟩ ?_
    simp only [sessionStep, hselect false (by simp)]
    cases r.tryReclaim now code connection auth.clientIp <;> simp
  cases howner : auth.ownerUserId with
  | none =>
      simp only [SessionPc.reclaim, reclaimResult, howner, Option.isSome_none, Option.bind_none, Option.none_or]
      exact hbyIp
  | some owner =>
      simp only [SessionPc.reclaim, reclaimResult, howner, Option.isSome_some, Option.bind_some, Option.isSome_or]
      have hstep : sessionStep auth connection r.toRegistry
          ⟨(r.mounts code).any fun row => row.pastTtl now, "", false⟩ (.reclaimSelect code true) =
          some (r.toRegistry, if (r.tryReclaimAsOwner now code connection owner).isSome then
            .reclaimUpdate code else .reclaimSelect code false) := by
        have hasOwner := hselect true (by simp [howner])
        simp only [howner, Option.bind_some, if_true] at hasOwner
        simp only [sessionStep, howner, hasOwner]
        cases r.tryReclaimAsOwner now code connection owner <;> simp
      cases hasOwner : r.tryReclaimAsOwner now code connection owner with
      | none =>
          simp only [hasOwner, Option.isSome_none, Bool.false_eq_true, if_false, Bool.false_or] at hstep ⊢
          exact (SessionRuns.single _ hstep).trans hbyIp
      | some result =>
          simp only [hasOwner, Option.isSome_some, if_true, Bool.true_or] at hstep ⊢
          exact .single _ hstep

/-- The steps of one session that nobody interrupts do what the methods do one after the other. -/
theorem assignCode_sessionRuns (r : SqliteRegistry κ) (now : ℚ) (auth : AgentAuth) (connection : κ)
    (generated : Code) (effectiveTtl : ℚ) (a : Assignment κ)
    (h : r.assignCode now auth connection generated effectiveTtl = .ok a) :
    SessionRuns auth connection (r.toRegistry, .connecting)
      ((storePolicy auth a).toRegistry, .sendRegistered a.code a.reclaimed) := by
  suffices hassign : SessionRuns auth connection (r.toRegistry, .connecting)
      (a.registry.toRegistry, .policyUpdate a.code a.reclaimed) from
    hassign.trans (sessionRuns_storePolicy auth connection a)
  have hfresh : ∀ code,
      (r.register code (some connection) auth.clientIp now (some (now + effectiveTtl))).map
        (⟨·, code, false⟩) = .ok a →
      SessionRuns auth connection (r.toRegistry, .registerInsert code)
        (a.registry.toRegistry, .policyUpdate a.code a.reclaimed) := by
    intro code hcode
    cases hreg : r.register code (some connection) auth.clientIp now (some (now + effectiveTtl)) with
    | error err =>
        rw [hreg] at hcode
        cases hcode
    | ok r' =>
        rw [hreg] at hcode
        cases hcode
        obtain ⟨hne, rfl⟩ := (register_eq_ok_iff r r' code connection _ _ _).mp hreg
        rw [toRegistry_connect, toRegistry_insertMount]
        exact sessionRuns_register auth connection r.toRegistry code hne
  unfold assignCode at h
  split at h
  · rename_i hpreferred
    have hconnect : SessionRuns auth connection (r.toRegistry, .connecting)
        (r.toRegistry, .registerInsert generated) :=
      .single ⟨false, generated, false⟩ (by simp [sessionStep, hpreferred])
    exact hconnect.trans (hfresh generated h)
  · rename_i code hpreferred
    have hconnect : SessionRuns auth connection (r.toRegistry, .connecting)
        (r.toRegistry, .reclaim auth code) :=
      .single anyAnswer (by simp [sessionStep, hpreferred])
    have hselect := hconnect.trans (sessionRuns_reclaimSelect r now auth connection code)
    split at h
    · rename_i r' remaining hreclaim
      cases h
      obtain ⟨rfl, -⟩ := reclaimResult_eq_some r r' now auth connection code remaining hreclaim
      simp only [hreclaim, Option.isSome_some, if_true] at hselect
      rw [reclaim, toRegistry_connect, toRegistry_setStatus]
      exact hselect.trans (sessionRuns_reclaim auth connection r.toRegistry code)
    · rename_i hreclaim
      simp only [hreclaim, Option.isSome_none, Bool.false_eq_true, if_false] at hselect
      have hlook : SessionRuns auth connection (r.toRegistry, .hasMount code)
          (r.toRegistry, .registerInsert (if r.hasMount code then generated else code)) := by
        refine .single ⟨false, generated, false⟩ ?_
        simp only [sessionStep, toRegistry_mounts, Option.isSome_map]
        rfl
      exact (hselect.trans hlook).trans (hfresh _ h)

end SqliteRegistry

/-- A session is opened, or one of the other writers of the registry runs. -/
inductive MountEvent (κ : Type*) where
  | connect (auth : AgentAuth) (connection : κ) (generated : Code) (effectiveTtl : ℚ)
  | disconnect (code : Code)
  | expire (code : Code)
  | markTtlWarned (code : Code)
  | deleteExpiredBefore (cutoff : ℚ)
  | restart

namespace MountEvent

open SqliteRegistry

variable {κ : Type*}

def step (r : SqliteRegistry κ) : ℚ × MountEvent κ → Option (SqliteRegistry κ)
  | (now, .connect auth connection generated effectiveTtl) =>
      match r.assignCode now auth connection generated effectiveTtl with
      | .ok a => some (storePolicy auth a)
      -- `ValueError` of `register`: the handler ends.
      | .error _ => some r
  | (now, .disconnect code) => some (r.perform now (.markOffline code)).1
  | (now, .expire code) => some (r.perform now (.expire code)).1
  | (now, .markTtlWarned code) => some (r.perform now (.markTtlWarned code)).1
  | (now, .deleteExpiredBefore cutoff) => some (r.perform now (.deleteExpiredBefore cutoff)).1
  | (now, .restart) => some (r.perform now .restart).1

/-- No session reclaims by its IP a mount that somebody else owns: an OFFLINE mount that it asks for,
that was registered from its IP and is not past its TTL, has no owner or is its own. -/
def OwnerReclaims (r : SqliteRegistry κ) : ℚ × MountEvent κ → Prop
  | (now, .connect auth _ _ _) =>
      ∀ code ∈ auth.preferredCode, ∀ row ∈ r.mounts code,
        row.status = .offline ∧ row.agentIp = auth.clientIp ∧ row.pastTtl now = false →
        row.ownerUserId = none ∨ row.ownerUserId = auth.ownerUserId
  | _ => True

/-- The event deletes the row of the code. The `INSERT OR REPLACE` of a session that registers the
code deletes the row that was there. -/
def Deletes (code : Code) (r : SqliteRegistry κ) (e : ℚ × MountEvent κ) : Prop :=
  (∀ r', step r e = some r' → r'.mounts code = none) ∨
    match e with
    | (now, .connect auth connection generated effectiveTtl) =>
        ∃ a, r.assignCode now auth connection generated effectiveTtl = .ok a ∧ a.code = code ∧
          a.reclaimed = false
    | _ => False

/-- The event is a session that is given the code by a reclaim, authenticated as the owner `o`. -/
def ReclaimedBy (o : Nat) (code : Code) (r : SqliteRegistry κ) (e : ℚ × MountEvent κ) : Prop :=
  match e with
  | (now, .connect auth connection generated effectiveTtl) =>
      auth.ownerUserId = some o ∧
        ∃ a, r.assignCode now auth connection generated effectiveTtl = .ok a ∧ a.code = code ∧
          a.reclaimed = true
  | _ => False

/-- The mount has the owner `o`. -/
def OwnedBy (o : Nat) (code : Code) (r : SqliteRegistry κ) : Prop :=
  ∃ row, r.mounts code = some row ∧ row.ownerUserId = some o

theorem reclaim_owner (o : Nat) (code : Code) (r : SqliteRegistry κ) (howned : OwnedBy o code r) (now : ℚ)
    (auth : AgentAuth) (connection : κ) (generated : Code) (effectiveTtl : ℚ)
    (hcond : OwnerReclaims r (now, .connect auth connection generated effectiveTtl)) (a : Assignment κ)
    (hassign : r.assignCode now auth connection generated effectiveTtl = .ok a) (hcode : a.code = code)
    (hreclaimed : a.reclaimed = true) : auth.ownerUserId = some o := by
  obtain ⟨row, hrow, howner⟩ := howned
  rcases assignCode_cases r now auth connection generated effectiveTtl a hassign with
    ⟨-, hpreferred, -, stored, hstored, hstatus, hpast, hright⟩ | ⟨hfresh, -⟩
  · rw [hcode, hrow] at hstored
    cases hstored
    rcases hright with ⟨-, hsame⟩ | hip
    · exact hsame.symm.trans howner
    · rcases hcond code (by rw [hpreferred, hcode]; rfl) row hrow ⟨hstatus, hip, hpast⟩ with hnone | hsame
      · rw [howner] at hnone
        cases hnone
      · exact hsame.symm.trans howner
  · rw [hreclaimed] at hfresh
    cases hfresh

private theorem ownerPolicy_step (r t : SqliteRegistry κ) (code : Code) (now : ℚ) (e : MountEvent κ)
    (hconnect : ∀ auth connection generated effectiveTtl,
      e ≠ .connect auth connection generated effectiveTtl)
    (hstep : step r (now, e) = some t) (hstays : t.mounts code ≠ none) :
    t.ownerPolicy code = r.ownerPolicy code := by
  cases e with
  | connect auth connection generated effectiveTtl => exact absurd rfl (hconnect _ _ _ _)
  | disconnect code' =>
      cases hstep
      apply ownerPolicy_withRow
      intro row _
      split
      · exact ownerPolicy_setStatus r code' code .offline
      · rfl
  | expire code' =>
      cases hstep
      apply ownerPolicy_withRow
      intro row _
      exact ownerPolicy_setStatus r code' code .expired
  | markTtlWarned code' =>
      cases hstep
      apply ownerPolicy_withRow
      intro row hrow
      by_cases hcode : code = code'
      · subst hcode
        simp [ownerPolicy, insertMount, hrow]
      · simp [ownerPolicy, insertMount, hcode]
  | deleteExpiredBefore cutoff =>
      cases hstep
      exact ownerPolicy_deleteExpiredBefore r cutoff code hstays
  | restart =>
      cases hstep
      exact ownerPolicy_restart r now code hstays

/-- An event that does not delete the row leaves the owner and the policy alone, or is a session of
the owner. -/
theorem ownerPolicy_or_reclaimedBy (o : Nat) (code : Code) (r t : SqliteRegistry κ) (e : ℚ × MountEvent κ)
    (howned : OwnedBy o code r) (hcond : OwnerReclaims r e) (hkept : ¬ Deletes code r e)
    (hstep : step r e = some t) :
    t.ownerPolicy code = r.ownerPolicy code ∨ (ReclaimedBy o code r e ∧ OwnedBy o code t) := by
  obtain ⟨now, e⟩ := e
  have hstays : t.mounts code ≠ none := by
    intro hnone
    apply hkept
    refine .inl fun t' ht' => ?_
    rw [hstep] at ht'
    cases ht'
    exact hnone
  by_cases hconnect : ∃ auth connection generated effectiveTtl,
      e = .connect auth connection generated effectiveTtl
  · obtain ⟨auth, connection, generated, effectiveTtl, rfl⟩ := hconnect
    cases hassign : r.assignCode now auth connection generated effectiveTtl with
    | error err =>
        simp only [step, hassign] at hstep
        cases hstep
        exact .inl rfl
    | ok a =>
        simp only [step, hassign] at hstep
        cases hstep
        by_cases hcode : code = a.code
        · have hreclaimed : a.reclaimed = true := by
            by_contra hfresh
            exact hkept (.inr ⟨a, hassign, hcode.symm, by simpa using hfresh⟩)
          have hauth := reclaim_owner o code r howned now auth connection generated effectiveTtl hcond a
            hassign hcode.symm hreclaimed
          rcases assignCode_cases r now auth connection generated effectiveTtl a hassign with
            ⟨-, -, hregistry, row, hrow, -⟩ | ⟨hfresh, -⟩
          · have hassigned : a.registry.mounts a.code = some { row with status := .online } := by
              simp [hregistry, reclaim, setStatus, SqliteRegistry.connect, hrow]
            obtain ⟨row', hrow', howner⟩ := storePolicy_owner auth a _ hassigned
            refine .inr ⟨⟨hauth, a, hassign, hcode.symm, hreclaimed⟩, row', ?_, howner.trans hauth⟩
            rw [hcode]
            exact hrow'
          · rw [hreclaimed] at hfresh
            cases hfresh
        · left
          rw [ownerPolicy_storePolicy_of_ne auth a code hcode]
          rcases assignCode_cases r now auth connection generated effectiveTtl a hassign with
            ⟨-, -, hregistry, -⟩ | ⟨-, -, hregistry⟩
          · rw [hregistry]
            exact ownerPolicy_setStatus r a.code code .online
          · rw [hregistry]
            simp [ownerPolicy, insertMount, SqliteRegistry.connect, hcode]
  · have hother : ∀ auth connection generated effectiveTtl,
        e ≠ .connect auth connection generated effectiveTtl := by
      intro auth connection generated effectiveTtl heq
      exact hconnect ⟨auth, connection, generated, effectiveTtl, heq⟩
    exact .inl (ownerPolicy_step r t code now e hother hstep hstays)

theorem ownedBy_of_ownerPolicy (o : Nat) (code : Code) (r t : SqliteRegistry κ) (howned : OwnedBy o code r)
    (hsame : t.ownerPolicy code = r.ownerPolicy code) : OwnedBy o code t := by
  obtain ⟨row, hrow, howner⟩ := howned
  have hcolumns := congrArg Prod.fst hsame
  simp only [ownerPolicy, hrow, Option.map_some] at hcolumns
  obtain ⟨row', hrow', heq⟩ := Option.map_eq_some_iff.mp hcolumns
  exact ⟨row', hrow', (congrArg Prod.fst heq).trans howner⟩

/-- From any moment at which a mount has an owner, and as long as its row is not deleted: in a run in
which nobody reclaims somebody else's mount by IP, every session that is given the code by a reclaim
is authenticated as the owner, and only such a session changes the owner or the policy. -/
theorem ownedMount_ownerOnly (o : Nat) (code : Code) (r : SqliteRegistry κ) (howned : OwnedBy o code r)
    (events : List (ℚ × MountEvent κ)) (s : SqliteRegistry κ)
    (hcond : TransitionSystem.Guarded step (fun r e => OwnerReclaims r e ∧ ¬ Deletes code r e) r events)
    (hrun : TransitionSystem.run step r events = some s) (e : ℚ × MountEvent κ)
    (hnext : OwnerReclaims s e) :
    (∀ now auth connection generated effectiveTtl a,
      e = (now, .connect auth connection generated effectiveTtl) →
      s.assignCode now auth connection generated effectiveTtl = .ok a → a.code = code →
      a.reclaimed = true → auth.ownerUserId = some o) ∧
    ∀ t, step s e = some t → ¬ Deletes code s e → t.ownerPolicy code ≠ s.ownerPolicy code →
      ReclaimedBy o code s e := by
  have hinv : OwnedBy o code s := by
    apply TransitionSystem.run_invariant_of_guarded step
      (fun r e => OwnerReclaims r e ∧ ¬ Deletes code r e) (OwnedBy o code) _ howned hcond hrun
    intro r e t hr hmeets hstep
    rcases ownerPolicy_or_reclaimedBy o code r t e hr hmeets.1 hmeets.2 hstep with hsame | ⟨-, ht⟩
    · exact ownedBy_of_ownerPolicy o code r t hr hsame
    · exact ht
  refine ⟨?_, ?_⟩
  · rintro now auth connection generated effectiveTtl a rfl hassign hcode hreclaimed
    exact reclaim_owner o code s hinv now auth connection generated effectiveTtl hnext a hassign hcode hreclaimed
  · intro t hstep hkept hchanged
    rcases ownerPolicy_or_reclaimedBy o code s t e hinv hnext hkept hstep with hsame | ⟨hby, -⟩
    · exact absurd hsame hchanged
    · exact hby

instance decidableOwnerReclaims (r : SqliteRegistry κ) (e : ℚ × MountEvent κ) :
    Decidable (OwnerReclaims r e) :=
  match e with
  | (now, .connect auth _ _ _) =>
      inferInstanceAs (Decidable (∀ code ∈ auth.preferredCode, ∀ row ∈ r.mounts code,
        row.status = .offline ∧ row.agentIp = auth.clientIp ∧ row.pastTtl now = false →
        row.ownerUserId = none ∨ row.ownerUserId = auth.ownerUserId))
  | (_, .disconnect _) | (_, .expire _) | (_, .markTtlWarned _) | (_, .deleteExpiredBefore _)
  | (_, .restart) => isTrue trivial

/-- The owner's agent restricts `photos` to one user. -/
def ownerAgent (clientIp : String) : AgentAuth :=
  ⟨some "photos", clientIp, some 7, ⟨.restricted, false, [⟨.user, 3, .read⟩]⟩⟩

/-- The owner has mounted `photos` and gone. -/
def ownerLeft : List (ℚ × MountEvent (Fin 2)) :=
  [(0, .connect (ownerAgent "10.0.0.7") 0 "spare" 100), (10, .disconnect "photos")]

def emptyRegistry : SqliteRegistry (Fin 2) := ⟨fun _ => none, fun _ => [], fun _ => none, fun _ => none⟩

theorem ownedMount_ownerOnly_ownerLeft :
    ∃ r s a, TransitionSystem.run step emptyRegistry (ownerLeft.take 1) = some r ∧
      OwnedBy 7 "photos" r ∧ TransitionSystem.run step r (ownerLeft.drop 1) = some s ∧
      s.assignCode 20 (ownerAgent "10.0.0.8") 1 "spare" 100 = .ok a ∧ a.code = "photos" ∧
      a.reclaimed = true ∧ (ownerAgent "10.0.0.8").ownerUserId = some 7 := by
  have heval : (TransitionSystem.run step emptyRegistry (ownerLeft.take 1)).any (fun r =>
      (r.mounts "photos").any (fun row => row.ownerUserId = some 7) &&
        (TransitionSystem.run step r (ownerLeft.drop 1)).any fun s =>
          (s.mounts "photos").isSome &&
            (decide (OwnerReclaims s (20, .connect (ownerAgent "10.0.0.8") (1 : Fin 2) "spare" 100)) &&
            match s.assignCode 20 (ownerAgent "10.0.0.8") 1 "spare" 100 with
            | .ok a => decide (a.code = "photos" ∧ a.reclaimed = true)
            | .error _ => false)) = true := by decide +kernel
  obtain ⟨r, hrun, hr⟩ := (Option.any_eq_true _ _).mp heval
  obtain ⟨hrow, hs⟩ := (Bool.and_eq_true _ _).mp hr
  obtain ⟨row, hrow, howner⟩ := (Option.any_eq_true _ _).mp hrow
  have howned : OwnedBy 7 "photos" r := ⟨row, hrow, of_decide_eq_true howner⟩
  obtain ⟨s, hrest, hs⟩ := (Option.any_eq_true _ _).mp hs
  obtain ⟨hstays, hs⟩ := (Bool.and_eq_true _ _).mp hs
  obtain ⟨hnext, hassigned⟩ := (Bool.and_eq_true _ _).mp hs
  cases hassign : s.assignCode 20 (ownerAgent "10.0.0.8") 1 "spare" 100 with
  | error err =>
      rw [hassign] at hassigned
      cases hassigned
  | ok a =>
      rw [hassign] at hassigned
      obtain ⟨hcode, hreclaimed⟩ := of_decide_eq_true hassigned
      have hdrop : step r (10, .disconnect "photos") = some s := by
        obtain ⟨t, hstep, ht⟩ := (TransitionSystem.run_cons_eq_some step r s _ _).mp hrest
        cases ht
        exact hstep
      have hcond : TransitionSystem.Guarded step
          (fun r e => OwnerReclaims r e ∧ ¬ Deletes "photos" r e) r (ownerLeft.drop 1) := by
        refine ⟨⟨trivial, ?_⟩, fun _ _ => trivial⟩
        rintro (hgone | hfalse)
        · rw [hgone s hdrop] at hstays
          cases hstays
        · exact hfalse
      have howns := (ownedMount_ownerOnly 7 "photos" r howned (ownerLeft.drop 1) s hcond hrest _
        (of_decide_eq_true hnext)).1 20 (ownerAgent "10.0.0.8") 1 "spare" 100 a rfl hassign hcode hreclaimed
      exact ⟨r, s, a, hrun, howned, hrest, hassign, hcode, hreclaimed, howns⟩

/-- A stranger behind the same address. -/
def neighbourAgent : AgentAuth := ⟨some "photos", "10.0.0.7", none, ⟨.open, false, []⟩⟩

theorem neighbour_takes_ownedMount :
    ∃ s a t, TransitionSystem.run step emptyRegistry ownerLeft = some s ∧ OwnedBy 7 "photos" s ∧
      s.assignCode 20 neighbourAgent 1 "spare" 100 = .ok a ∧ a.code = "photos" ∧ a.reclaimed = true ∧
      neighbourAgent.ownerUserId = none ∧
      step s (20, .connect neighbourAgent 1 "spare" 100) = some t ∧
      t.ownerPolicy "photos" = (some (none, .open, false), []) := by
  have heval : (TransitionSystem.run step emptyRegistry ownerLeft).any (fun s =>
      (s.mounts "photos").any (fun row => row.ownerUserId = some 7) &&
        match s.assignCode 20 neighbourAgent 1 "spare" 100 with
        | .ok a => decide (a.code = "photos" ∧ a.reclaimed = true ∧
            (storePolicy neighbourAgent a).ownerPolicy "photos" = (some (none, .open, false), []))
        | .error _ => false) = true := by decide +kernel
  obtain ⟨s, hrun, hs⟩ := (Option.any_eq_true _ _).mp heval
  obtain ⟨hrow, hassigned⟩ := (Bool.and_eq_true _ _).mp hs
  obtain ⟨row, hrow, howner⟩ := (Option.any_eq_true _ _).mp hrow
  cases hassign : s.assignCode 20 neighbourAgent 1 "spare" 100 with
  | error err =>
      rw [hassign] at hassigned
      cases hassigned
  | ok a =>
      rw [hassign] at hassigned
      obtain ⟨hcode, hreclaimed, hpolicy⟩ := of_decide_eq_true hassigned
      refine ⟨s, a, storePolicy neighbourAgent a, hrun, ⟨row, hrow, of_decide_eq_true howner⟩, hassign,
        hcode, hreclaimed, rfl, ?_, hpolicy⟩
      simp only [step, hassign]

end MountEvent

end NetworkFileServer.Relay
