import Mathlib.Data.Fintype.Basic
import NetworkFileServer.Relay.MountSystem

/-!
# Requests that reach a restricted mount

A registration makes the row ONLINE with the default policy, then stores the connection, and only
then writes the policy of the session: a window in which the connection is reachable under a policy
that is not its own. A request reads the policy and looks the connection up in separate steps. As
long as no request overlaps a window of its code, the policy that it was authorised against is the
one that the session behind the connection declared.
-/

namespace NetworkFileServer.Relay

/-- The session has turned the row of this code ONLINE and has not finished `set_owner_policy`. -/
def SessionPc.window : SessionPc → Option Code
  | .reclaimCommit code | .registerCommit code | .policyUpdate code _ | .policyDelete code _
  | .policyInsert code _ _ => some code
  | .connecting | .reclaimSelect _ _ | .reclaimUpdate _ | .hasMount _ | .registerInsert _
  | .sendRegistered _ _ | .getExpired _ | .sendExpired _ | .receiving _ | .closing _
  | .offlineSelect _ | .offlineUpdate _ | .offlineCommit _ | .ended => none

/-- The request has begun to read the policy and has not yet looked the connection up. -/
def RequestPc.inFlight {ι : Type*} : RequestPc ι → Bool
  | .policySelect _ _ | .authorizing _ | .statusSelect _ | .lookup _ => true
  | .arriving | .sent _ _ | .refused => false

def RequestPc.isArriving {ι : Type*} : RequestPc ι → Bool
  | .arriving => true
  | _ => false

def RequestPc.isSentTo {ι : Type*} [DecidableEq ι] (i : ι) : RequestPc ι → Bool
  | .sent j _ => j = i
  | _ => false

theorem RequestPc.isSentTo_iff {ι : Type*} [DecidableEq ι] {i : ι} {pc : RequestPc ι} :
    pc.isSentTo i = true ↔ ∃ store, pc = .sent i store := by
  cases pc <;> simp [RequestPc.isSentTo]

/-- What was read of a policy is what the session declared; of several entries for one subject the
table keeps one. -/
structure Declared (auth : AgentAuth) (accessMode : AccessMode) (hasPassword : Bool)
    (entries : List PolicyEntry) : Prop where
  accessMode : accessMode = auth.policy.accessMode
  hasPassword : hasPassword = auth.policy.hasPassword
  entries : ∀ e ∈ entries, e ∈ auth.policy.entries

/-- At one code the registry has only lost something: a connection, a row, or an ONLINE status. -/
structure Registry.Fades {ι : Type*} (r r' : Registry ι) (c : Code) : Prop where
  policy : r'.policy c = r.policy c
  connections : ∀ i, r'.connections c = some i → r.connections c = some i
  mounts : ∀ row', r'.mounts c = some row' →
    ∃ row, r.mounts c = some row ∧ row.accessMode = row'.accessMode ∧ row.hasPassword = row'.hasPassword

namespace Registry.Fades

variable {ι : Type*}

theorem refl (r : Registry ι) (c : Code) : r.Fades r c :=
  ⟨rfl, fun _ h => h, fun row h => ⟨row, h, rfl, rfl⟩⟩

theorem setStatus (r : Registry ι) (code c : Code) (status : MountStatus) :
    r.Fades (r.setStatus code status) c where
  policy := rfl
  connections := fun _ h => h
  mounts := by
    intro row' h
    by_cases hc : c = code
    · subst hc
      simp only [Registry.setStatus, Function.update_self, Option.map_eq_some_iff] at h
      obtain ⟨row, hrow, rfl⟩ := h
      exact ⟨row, hrow, rfl, rfl⟩
    · exact ⟨row', by simpa [Registry.setStatus, hc] using h, rfl, rfl⟩

theorem disconnect (r : Registry ι) (code c : Code) : r.Fades (r.disconnect code) c :=
  ⟨rfl, fun i h => disconnect_connections r code c i h, fun row h => ⟨row, h, rfl, rfl⟩⟩

theorem deleteExpired (r : Registry ι) (code c : Code) : r.Fades (r.deleteExpired code) c where
  policy := rfl
  connections := fun _ h => h
  mounts := by
    intro row h
    by_cases hc : c = code
    · subst hc
      simp only [Registry.deleteExpired, Function.update_self, Option.filter_eq_some_iff] at h
      exact ⟨row, h.1, rfl, rfl⟩
    · exact ⟨row, by simpa [Registry.deleteExpired, hc] using h, rfl, rfl⟩

theorem mounts_none {r r' : Registry ι} {c : Code} (h : r.Fades r' c) (hnone : r.mounts c = none) :
    r'.mounts c = none := by
  cases hrow : r'.mounts c with
  | none => rfl
  | some row' =>
      obtain ⟨row, hsome, -⟩ := h.mounts row' hrow
      rw [hnone] at hsome
      cases hsome

end Registry.Fades

/-- Outside of its window, and unless it enters one, a session takes things away only. -/
theorem sessionStep_fades {ι : Type*} (auth : AgentAuth) (i : ι) (r r' : Registry ι) (answer : Answer)
    (pc pc' : SessionPc) (h : sessionStep auth i r answer pc = some (r', pc')) (c : Code)
    (hwindow : pc.window ≠ some c) (henter : pc.turnsOnline ≠ some c) : r.Fades r' c := by
  cases pc with
  | connecting =>
      simp only [sessionStep] at h
      split at h <;> cases h <;> exact .refl r c
  | reclaimSelect code asOwner =>
      simp only [sessionStep] at h
      split at h
      · cases h
        exact .refl r c
      · split at h <;> cases h <;> exact .refl r c
  | reclaimUpdate code =>
      cases h
      exact .setStatus r code c .online
  | registerInsert code =>
      have hc : c ≠ code := fun heq => henter (by rw [heq]; rfl)
      simp only [sessionStep] at h
      split at h
      · cases h
        exact .refl r c
      · cases h
        exact ⟨rfl, fun _ hi => hi,
          fun row hrow => ⟨row, by simpa [Registry.insertMount, hc] using hrow, rfl, rfl⟩⟩
  | reclaimCommit code | registerCommit code =>
      have hc : c ≠ code := fun heq => hwindow (by rw [heq]; rfl)
      cases h
      exact ⟨rfl, fun i hi => by simpa [Registry.connect, hc] using hi,
        fun row hrow => ⟨row, hrow, rfl, rfl⟩⟩
  | policyUpdate code reclaimed =>
      have hc : c ≠ code := fun heq => hwindow (by rw [heq]; rfl)
      simp only [sessionStep] at h
      split at h
      · cases h
        exact ⟨rfl, fun _ hi => hi,
          fun row hrow => ⟨row, by simpa [Registry.setPolicyColumns, hc] using hrow, rfl, rfl⟩⟩
      · cases h
        exact .refl r c
  | policyDelete code reclaimed =>
      have hc : c ≠ code := fun heq => hwindow (by rw [heq]; rfl)
      cases h
      exact ⟨by simp [Registry.deletePolicy, hc], fun _ hi => hi, fun row hrow => ⟨row, hrow, rfl, rfl⟩⟩
  | policyInsert code reclaimed rest =>
      have hc : c ≠ code := fun heq => hwindow (by rw [heq]; rfl)
      cases rest with
      | nil =>
          cases h
          exact .refl r c
      | cons e rest =>
          cases h
          exact ⟨by simp [Registry.insertPolicy, hc], fun _ hi => hi,
            fun row hrow => ⟨row, hrow, rfl, rfl⟩⟩
  | offlineUpdate code =>
      cases h
      exact .setStatus r code c .offline
  | offlineCommit code =>
      cases h
      exact .disconnect r code c
  | ended => cases h
  | hasMount _ | sendRegistered _ _ | getExpired _ | sendExpired _ | receiving _ | closing _
  | offlineSelect _ =>
      cases h
      exact .refl r c

theorem sessionStep_window {ι : Type*} (auth : AgentAuth) (i : ι) (r r' : Registry ι) (answer : Answer)
    (pc pc' : SessionPc) (h : sessionStep auth i r answer pc = some (r', pc')) (c : Code)
    (hc : pc'.window = some c) : pc.window = some c ∨ pc.turnsOnline = some c := by
  cases pc with
  | connecting =>
      simp only [sessionStep] at h
      split at h <;> cases h <;> cases hc
  | reclaimSelect code asOwner =>
      simp only [sessionStep] at h
      split at h
      · cases h
        cases hc
      · split at h <;> cases h <;> cases hc
  | reclaimUpdate code =>
      cases h
      exact .inr hc
  | registerInsert code =>
      simp only [sessionStep] at h
      split at h
      · cases h
        cases hc
      · cases h
        exact .inr hc
  | reclaimCommit _ | registerCommit _ | policyDelete _ _ =>
      cases h
      exact .inl hc
  | policyUpdate code reclaimed =>
      simp only [sessionStep] at h
      split at h
      · cases h
        exact .inl hc
      · cases h
        cases hc
  | policyInsert code reclaimed rest =>
      cases rest with
      | nil =>
          cases h
          cases hc
      | cons e rest =>
          cases h
          exact .inl hc
  | sendRegistered code reclaimed => cases reclaimed <;> cases h <;> cases hc
  | getExpired code =>
      cases h
      split at hc <;> cases hc
  | offlineSelect code =>
      cases h
      split at hc <;> cases hc
  | ended => cases h
  | hasMount _ | sendExpired _ | receiving _ | closing _ | offlineUpdate _ | offlineCommit _ =>
      cases h
      cases hc

namespace MountSystem

variable {ι ρ : Type*}

def NoWindow (s : MountSystem ι ρ) (c : Code) : Prop := ∀ i, (s.session i).window ≠ some c

def NoRequest (req : ρ → ProxyRequest) (s : MountSystem ι ρ) (c : Code) : Prop :=
  ∀ k, (s.request k).inFlight = true → (req k).code ≠ c

/-- A window opens only while its code has no other window and no request in flight, it is not
left by an exception, and a request begins only outside of the windows of its code. -/
def PolicySettled (req : ρ → ProxyRequest) (s : MountSystem ι ρ) : MountAction ι ρ → Prop
  | .session i _ => ∀ c ∈ (s.session i).turnsOnline, s.NoWindow c ∧ s.NoRequest req c
  | .sessionFail i => (s.session i).window = none
  | .request k _ => (s.request k).isArriving = true → s.NoWindow (req k).code
  | _ => True

/-- The policy in the tables is that of the session whose connection is stored. -/
def Settled (auth : ι → AgentAuth) (r : Registry ι) (c : Code) : Prop :=
  ∀ i row, r.connections c = some i → r.mounts c = some row →
    Declared (auth i) row.accessMode row.hasPassword (r.policy c)

/-- How far session `i` has got with its policy. -/
def WindowOk (auth : ι → AgentAuth) (r : Registry ι) (i : ι) : SessionPc → Prop
  | .policyUpdate c _ => ∀ j, r.connections c = some j → j = i
  | .policyDelete c _ => (∀ j, r.connections c = some j → j = i) ∧
      ∀ row, r.mounts c = some row → Declared (auth i) row.accessMode row.hasPassword []
  | .policyInsert c _ rest => (∀ j, r.connections c = some j → j = i) ∧
      (∀ row, r.mounts c = some row → Declared (auth i) row.accessMode row.hasPassword (r.policy c)) ∧
      ∀ e ∈ rest, e ∈ (auth i).policy.entries
  | _ => True

/-- The allowlist of every session whose connection is stored lets the request through. -/
def Allowed (auth : ι → AgentAuth) (r : Registry ι) (req : ProxyRequest) (store : Option GroupIds) :
    Prop :=
  ∀ i, r.connections req.code = some i → (auth i).policy.accessMode = .restricted →
    (auth i).policy.hasPassword = false → OnAllowlist (auth i).policy.entries store req.identity

/-- What a request has read is what the session behind the stored connection declared. -/
def RequestOk (auth : ι → AgentAuth) (r : Registry ι) (req : ProxyRequest) : RequestPc ι → Prop
  | .policySelect accessMode hasPassword => ∀ i, r.connections req.code = some i →
      Declared (auth i) accessMode hasPassword (r.policy req.code)
  | .authorizing (some policy) => ∀ i, r.connections req.code = some i →
      Declared (auth i) policy.accessMode policy.hasPassword policy.entries
  | .authorizing none => r.mounts req.code = none
  | .statusSelect store => r.mounts req.code = none ∨ Allowed auth r req store
  | .lookup store => Allowed auth r req store
  | .sent i store => (auth i).policy.accessMode = .restricted → (auth i).policy.hasPassword = false →
      OnAllowlist (auth i).policy.entries store req.identity
  | .arriving | .refused => True

structure AccessInv (auth : ι → AgentAuth) (req : ρ → ProxyRequest) (s : MountSystem ι ρ) : Prop where
  unique : ∀ i j c, (s.session i).window = some c → (s.session j).window = some c → i = j
  window : ∀ i, WindowOk auth s.registry i (s.session i)
  settled : ∀ c, s.NoWindow c → Settled auth s.registry c
  flight : ∀ k, (s.request k).inFlight = true → s.NoWindow (req k).code
  request : ∀ k, RequestOk auth s.registry (req k) (s.request k)

theorem accessInv_start (auth : ι → AgentAuth) (req : ρ → ProxyRequest)
    (mounts : Code → Option MountRow) (policy : Code → List PolicyEntry) :
    AccessInv auth req (start mounts policy) where
  unique := by
    intro i j c h
    cases h
  window := fun _ => trivial
  settled := by
    intro c _ i row h
    cases h
  flight := by
    intro k h
    cases h
  request := fun _ => trivial

theorem Settled.fades {auth : ι → AgentAuth} {r r' : Registry ι} {c : Code} (h : Settled auth r c)
    (hf : r.Fades r' c) : Settled auth r' c := by
  intro i row' hi hrow'
  obtain ⟨row, hrow, hmode, hpassword⟩ := hf.mounts row' hrow'
  rw [← hmode, ← hpassword, hf.policy]
  exact h i row (hf.connections i hi) hrow

theorem WindowOk.fades {auth : ι → AgentAuth} {r r' : Registry ι} {i : ι} {pc : SessionPc}
    (h : WindowOk auth r i pc) (hf : ∀ c, pc.window = some c → r.Fades r' c) :
    WindowOk auth r' i pc := by
  cases pc with
  | policyUpdate c reclaimed =>
      exact fun j hj => h j ((hf c rfl).connections j hj)
  | policyDelete c reclaimed =>
      refine ⟨fun j hj => h.1 j ((hf c rfl).connections j hj), ?_⟩
      intro row' hrow'
      obtain ⟨row, hrow, hmode, hpassword⟩ := (hf c rfl).mounts row' hrow'
      rw [← hmode, ← hpassword]
      exact h.2 row hrow
  | policyInsert c reclaimed rest =>
      refine ⟨fun j hj => h.1 j ((hf c rfl).connections j hj), ?_, h.2.2⟩
      intro row' hrow'
      obtain ⟨row, hrow, hmode, hpassword⟩ := (hf c rfl).mounts row' hrow'
      rw [← hmode, ← hpassword, (hf c rfl).policy]
      exact h.2.1 row hrow
  | _ => trivial

theorem Allowed.fades {auth : ι → AgentAuth} {r r' : Registry ι} {req : ProxyRequest}
    {store : Option GroupIds} (h : Allowed auth r req store) (hf : r.Fades r' req.code) :
    Allowed auth r' req store :=
  fun i hi => h i (hf.connections i hi)

theorem RequestOk.fades {auth : ι → AgentAuth} {r r' : Registry ι} {req : ProxyRequest}
    {pc : RequestPc ι} (h : RequestOk auth r req pc)
    (hf : pc.inFlight = true → r.Fades r' req.code) : RequestOk auth r' req pc := by
  cases pc with
  | arriving | refused => trivial
  | policySelect accessMode hasPassword =>
      intro i hi
      rw [(hf rfl).policy]
      exact h i ((hf rfl).connections i hi)
  | authorizing policy =>
      cases policy with
      | none => exact (hf rfl).mounts_none h
      | some policy => exact fun i hi => h i ((hf rfl).connections i hi)
  | statusSelect store => exact h.imp (hf rfl).mounts_none fun hallowed => hallowed.fades (hf rfl)
  | lookup store => exact Allowed.fades h (hf rfl)
  | sent i store => exact h

private theorem AccessInv.of_fades {auth : ι → AgentAuth} {req : ρ → ProxyRequest}
    {s t : MountSystem ι ρ} (h : s.AccessInv auth req) (hsession : t.session = s.session)
    (hrequest : t.request = s.request) (hf : ∀ c, s.registry.Fades t.registry c) :
    t.AccessInv auth req := by
  have hnoWindow : ∀ c, t.NoWindow c → s.NoWindow c := by
    intro c hc i
    rw [← hsession]
    exact hc i
  refine ⟨?_, ?_, ?_, ?_, ?_⟩
  · rw [hsession]
    exact h.unique
  · intro i
    rw [hsession]
    exact (h.window i).fades fun c _ => hf c
  · intro c hc
    exact (h.settled c (hnoWindow c hc)).fades (hf c)
  · intro k hk i
    rw [hrequest] at hk
    rw [hsession]
    exact h.flight k hk i
  · intro k
    rw [hrequest]
    exact (h.request k).fades fun _ => hf _

private theorem requestOk_step (auth : ι → AgentAuth) (req : ProxyRequest) (r : Registry ι)
    (closed : ι → Bool) (store : Option GroupIds) (pc pc' : RequestPc ι)
    (h : requestStep req r closed store pc = some pc') (hok : RequestOk auth r req pc)
    (hsettled : pc.isArriving = true → Settled auth r req.code) : RequestOk auth r req pc' := by
  cases pc with
  | arriving =>
      simp only [requestStep] at h
      split at h
      · rename_i row hrow
        cases h
        exact fun i hi => hsettled rfl i row hi hrow
      · rename_i hrow
        cases h
        exact hrow
  | policySelect accessMode hasPassword =>
      cases h
      exact hok
  | authorizing policy =>
      simp only [requestStep] at h
      split at h
      · rename_i decision hdecision
        cases h
        cases policy with
        | none => exact .inl hok
        | some policy =>
            refine .inr ?_
            intro i hi hmode hpassword
            obtain ⟨hmode', hpassword', hentries⟩ := hok i hi
            obtain ⟨identity, groupIds, groups, hid, hstore, hgroups, e, he, hcovers⟩ :=
              authorize_restricted policy store req.identity decision (hmode'.trans hmode)
                (hpassword'.trans hpassword) hdecision
            exact ⟨identity, groupIds, groups, hid, hstore, hgroups, e, hentries e he, hcovers⟩
      · cases h
        trivial
  | statusSelect store' =>
      cases h
      split
      · rename_i honline
        refine hok.resolve_left ?_
        intro hnone
        simp [Registry.isOnline, hnone] at honline
      · trivial
  | lookup store' =>
      simp only [requestStep] at h
      split at h
      · rename_i i hi
        cases h
        split
        · trivial
        · exact hok i hi
      · cases h
        trivial
  | sent i store' => cases h
  | refused => cases h

/-- Nothing is in flight after a step that was not so before, unless the request has just arrived. -/
private theorem requestStep_inFlight (req : ProxyRequest) (r : Registry ι) (closed : ι → Bool)
    (store : Option GroupIds) (pc pc' : RequestPc ι) (h : requestStep req r closed store pc = some pc') :
    pc.inFlight = true ∨ pc.isArriving = true := by
  cases pc with
  | arriving => exact .inr rfl
  | policySelect _ _ | authorizing _ | statusSelect _ | lookup _ => exact .inl rfl
  | sent _ _ | refused => cases h

private theorem accessInv_request [DecidableEq ρ] (auth : ι → AgentAuth) (req : ρ → ProxyRequest)
    (s : MountSystem ι ρ) (k : ρ) (pc : RequestPc ι) (hinv : s.AccessInv auth req)
    (hflight : pc.inFlight = true → s.NoWindow (req k).code)
    (hok : RequestOk auth s.registry (req k) pc) : (s.setRequest k pc).AccessInv auth req := by
  refine ⟨hinv.unique, hinv.window, hinv.settled, ?_, ?_⟩
  · intro j hj
    by_cases hjk : j = k
    · subst hjk
      exact hflight (by simpa [setRequest] using hj)
    · exact hinv.flight j (by simpa [setRequest, hjk] using hj)
  · intro j
    by_cases hjk : j = k
    · subst hjk
      simpa [setRequest] using hok
    · simpa [setRequest, hjk] using hinv.request j

private theorem windowOk_session (auth : ι → AgentAuth) (i : ι) (r r' : Registry ι) (answer : Answer)
    (pc pc' : SessionPc) (h : sessionStep (auth i) i r answer pc = some (r', pc'))
    (hok : WindowOk auth r i pc) : WindowOk auth r' i pc' := by
  cases pc with
  | connecting =>
      simp only [sessionStep] at h
      split at h <;> cases h <;> trivial
  | reclaimSelect code asOwner =>
      simp only [sessionStep] at h
      split at h
      · cases h
        trivial
      · split at h <;> cases h <;> trivial
  | registerInsert code =>
      simp only [sessionStep] at h
      split at h <;> cases h <;> trivial
  | reclaimCommit code | registerCommit code =>
      cases h
      intro j hj
      have hij : i = j := by simpa [Registry.connect] using hj
      exact hij.symm
  | policyUpdate code reclaimed =>
      simp only [sessionStep] at h
      split at h
      · cases h
        refine ⟨hok, ?_⟩
        intro row hrow
        simp only [Registry.setPolicyColumns, Function.update_self, Option.map_eq_some_iff] at hrow
        obtain ⟨row', -, rfl⟩ := hrow
        exact ⟨rfl, rfl, by simp⟩
      · cases h
        trivial
  | policyDelete code reclaimed =>
      cases h
      refine ⟨hok.1, ?_, fun _ he => he⟩
      intro row hrow
      obtain ⟨hmode, hpassword, -⟩ := hok.2 row hrow
      exact ⟨hmode, hpassword, by simp [Registry.deletePolicy]⟩
  | policyInsert code reclaimed rest =>
      cases rest with
      | nil =>
          cases h
          trivial
      | cons e rest =>
          cases h
          obtain ⟨hown, hrows, hrest⟩ := hok
          refine ⟨hown, ?_, fun e' he' => hrest e' (List.mem_cons_of_mem _ he')⟩
          intro row hrow
          obtain ⟨hmode, hpassword, hentries⟩ := hrows row hrow
          refine ⟨hmode, hpassword, ?_⟩
          intro e' he'
          simp only [Registry.insertPolicy, Function.update_self] at he'
          rcases Registry.replaceEntry_subset _ e e' he' with rfl | hold
          · exact hrest e' List.mem_cons_self
          · exact hentries e' hold
  | sendRegistered code reclaimed => cases reclaimed <;> cases h <;> trivial
  | getExpired code =>
      cases h
      split <;> trivial
  | offlineSelect code =>
      cases h
      split <;> trivial
  | ended => cases h
  | reclaimUpdate _ | hasMount _ | sendExpired _ | receiving _ | closing _ | offlineUpdate _
  | offlineCommit _ =>
      cases h
      trivial

private theorem settled_session (auth : ι → AgentAuth) (i : ι) (r r' : Registry ι) (answer : Answer)
    (pc pc' : SessionPc) (h : sessionStep (auth i) i r answer pc = some (r', pc'))
    (hok : WindowOk auth r i pc) (c : Code) (hleft : pc'.window ≠ some c)
    (hpc : pc.window = some c ∨ (pc.turnsOnline = some c ∧ Settled auth r c)) :
    Settled auth r' c := by
  rcases hpc with hwindow | ⟨henter, hsettled⟩
  · cases pc with
    | reclaimCommit code | registerCommit code | policyDelete code _ =>
        cases h
        exact absurd hwindow hleft
    | policyUpdate code reclaimed =>
        cases hwindow
        simp only [sessionStep] at h
        split at h
        · cases h
          exact absurd rfl hleft
        · rename_i hrow
          cases h
          intro j row _ hsome
          simp [hsome] at hrow
    | policyInsert code reclaimed rest =>
        cases hwindow
        cases rest with
        | nil =>
            cases h
            obtain ⟨hown, hrows, -⟩ := hok
            intro j row hj hrow
            rw [hown j hj]
            exact hrows row hrow
        | cons e rest =>
            cases h
            exact absurd rfl hleft
    | _ => cases hwindow
  · cases pc with
    | reclaimUpdate code =>
        cases h
        exact absurd henter hleft
    | registerInsert code =>
        simp only [sessionStep] at h
        split at h
        · cases h
          exact hsettled
        · cases h
          exact absurd henter hleft
    | _ => cases henter

variable [DecidableEq ι]

private theorem accessInv_session (auth : ι → AgentAuth) (req : ρ → ProxyRequest)
    (s : MountSystem ι ρ) (i : ι) (answer : Answer) (r : Registry ι) (pc : SessionPc)
    (closed : ι → Bool) (hinv : s.AccessInv auth req)
    (hcond : s.PolicySettled req (.session i answer))
    (h : sessionStep (auth i) i s.registry answer (s.session i) = some (r, pc)) :
    AccessInv auth req { s.setSession i pc with registry := r, closed := closed } := by
  have hsession : ∀ j, j ≠ i →
      ({ s.setSession i pc with registry := r, closed := closed } : MountSystem ι ρ).session j =
        s.session j := by
    intro j hj
    simp [setSession, hj]
  have hself : ({ s.setSession i pc with registry := r, closed := closed } : MountSystem ι ρ).session i =
      pc := by
    simp [setSession]
  -- Whatever has a window or a request at a code is not disturbed there by another session.
  have hfades : ∀ c, (s.session i).window ≠ some c → (s.session i).turnsOnline ≠ some c →
      s.registry.Fades r c :=
    fun c hwindow henter => sessionStep_fades (auth i) i s.registry r answer _ pc h c hwindow henter
  refine ⟨?_, ?_, ?_, ?_, ?_⟩
  · have hone : ∀ j c, j ≠ i → (s.session j).window = some c → pc.window ≠ some c := by
      intro j c hj hwindow hpc
      rcases sessionStep_window (auth i) i s.registry r answer _ pc h c hpc with hold | henter
      · exact hj (hinv.unique j i c hwindow hold)
      · exact (hcond c henter).1 j hwindow
    intro j k c hj hk
    by_cases hji : j = i
    · by_cases hki : k = i
      · rw [hji, hki]
      · rw [hji, hself] at hj
        rw [hsession k hki] at hk
        exact absurd hj (hone k c hki hk)
    · rw [hsession j hji] at hj
      by_cases hki : k = i
      · rw [hki, hself] at hk
        exact absurd hk (hone j c hji hj)
      · rw [hsession k hki] at hk
        exact hinv.unique j k c hj hk
  · intro j
    by_cases hji : j = i
    · rw [hji, hself]
      exact windowOk_session auth i s.registry r answer _ pc h (hinv.window i)
    · rw [hsession j hji]
      refine (hinv.window j).fades ?_
      intro c hc
      apply hfades c
      · exact fun hwindow => hji (hinv.unique j i c hc hwindow)
      · exact fun henter => (hcond c henter).1 j hc
  · intro c hc
    have hleft : pc.window ≠ some c := by
      rw [← hself]
      exact hc i
    have hothers : ∀ j, j ≠ i → (s.session j).window ≠ some c := by
      intro j hj
      rw [← hsession j hj]
      exact hc j
    by_cases hwindow : (s.session i).window = some c
    · exact settled_session auth i s.registry r answer _ pc h (hinv.window i) c hleft (.inl hwindow)
    · have hnone : s.NoWindow c := by
        intro j
        by_cases hji : j = i
        · rw [hji]
          exact hwindow
        · exact hothers j hji
      by_cases henter : (s.session i).turnsOnline = some c
      · exact settled_session auth i s.registry r answer _ pc h (hinv.window i) c hleft
          (.inr ⟨henter, hinv.settled c hnone⟩)
      · exact (hinv.settled c hnone).fades (hfades c hwindow henter)
  · intro k hk j
    by_cases hji : j = i
    · rw [hji, hself]
      intro hpc
      rcases sessionStep_window (auth i) i s.registry r answer _ pc h _ hpc with hold | henter
      · exact hinv.flight k hk i hold
      · exact (hcond _ henter).2 k hk rfl
    · rw [hsession j hji]
      exact hinv.flight k hk j
  · intro k
    refine (hinv.request k).fades ?_
    intro hk
    apply hfades
    · exact hinv.flight k hk i
    · exact fun henter => (hcond _ henter).2 k hk rfl

private theorem accessInv_fail (auth : ι → AgentAuth) (req : ρ → ProxyRequest) (s : MountSystem ι ρ)
    (i : ι) (pc : SessionPc) (closed : ι → Bool) (hinv : s.AccessInv auth req)
    (hcond : (s.session i).window = none) (h : sessionFail (s.session i) = some pc) :
    AccessInv auth req { s.setSession i pc with closed := closed } := by
  have hpc : pc.window = none ∧ WindowOk auth s.registry i pc := by
    unfold sessionFail at h
    split at h <;> cases h <;> exact ⟨rfl, trivial⟩
  have hwindow : ∀ j, (({ s.setSession i pc with closed := closed } : MountSystem ι ρ).session j).window =
      (s.session j).window := by
    intro j
    by_cases hji : j = i
    · subst hji
      simp [setSession, hpc.1, hcond]
    · simp [setSession, hji]
  refine ⟨?_, ?_, ?_, ?_, hinv.request⟩
  · intro j k c hj hk
    rw [hwindow] at hj hk
    exact hinv.unique j k c hj hk
  · intro j
    by_cases hji : j = i
    · subst hji
      simpa [setSession] using hpc.2
    · simpa [setSession, hji] using hinv.window j
  · intro c hc
    apply hinv.settled c
    intro j
    rw [← hwindow j]
    exact hc j
  · intro k hk j
    rw [hwindow j]
    exact hinv.flight k hk j

variable [DecidableEq ρ]

theorem accessInv_step (auth : ι → AgentAuth) (req : ρ → ProxyRequest) (s : MountSystem ι ρ)
    (a : MountAction ι ρ) (t : MountSystem ι ρ) (hinv : s.AccessInv auth req)
    (hcond : s.PolicySettled req a) (h : s.step auth req a = some t) : t.AccessInv auth req := by
  cases a with
  | session i answer =>
      obtain ⟨⟨r, pc⟩, hstep, rfl⟩ := Option.map_eq_some_iff.mp h
      cases pc <;> exact accessInv_session auth req s i answer r _ _ hinv hcond hstep
  | sessionFail i =>
      obtain ⟨pc, hfail, rfl⟩ := Option.map_eq_some_iff.mp h
      cases pc <;> exact accessInv_fail auth req s i _ _ hinv hcond hfail
  | connClosed i =>
      cases h
      exact hinv.of_fades rfl rfl fun c => .refl _ c
  | request k store =>
      obtain ⟨pc, hstep, rfl⟩ := Option.map_eq_some_iff.mp h
      have hnone : s.NoWindow (req k).code := by
        rcases requestStep_inFlight _ _ _ _ _ _ hstep with hflight | harriving
        · exact hinv.flight k hflight
        · exact hcond harriving
      apply accessInv_request auth req s k pc hinv (fun _ => hnone)
      exact requestOk_step auth (req k) s.registry s.closed store _ pc hstep (hinv.request k)
        fun _ => hinv.settled _ hnone
  | requestFail k =>
      simp only [step] at h
      split at h <;> cases h
      exact accessInv_request auth req s k .refused hinv nofun trivial
  | sweepExpire code =>
      simp only [step] at h
      split at h
      · cases h
        exact hinv.of_fades rfl rfl fun c => .setStatus _ code c .expired
      · cases h
  | sweepPop =>
      obtain ⟨code, -, rfl⟩ := Option.map_eq_some_iff.mp h
      exact hinv.of_fades rfl rfl fun c => .disconnect _ code c
  | sweepDelete code =>
      simp only [step] at h
      split at h
      · cases h
        exact hinv.of_fades rfl rfl fun c => .deleteExpired _ code c
      · cases h

/-- In a run without such overlaps, whoever reaches a restricted mount without a password is on
the allowlist that its session declared. -/
theorem proxied_onAllowlist (auth : ι → AgentAuth) (req : ρ → ProxyRequest)
    (mounts : Code → Option MountRow) (policy : Code → List PolicyEntry)
    (acts : List (MountAction ι ρ)) (s : MountSystem ι ρ)
    (hcond : TransitionSystem.Guarded (step auth req) (PolicySettled req) (start mounts policy) acts)
    (hrun : TransitionSystem.run (step auth req) (start mounts policy) acts = some s)
    (k : ρ) (i : ι) (store : Option GroupIds) (hsent : s.request k = .sent i store)
    (hmode : (auth i).policy.accessMode = .restricted)
    (hpassword : (auth i).policy.hasPassword = false) :
    OnAllowlist (auth i).policy.entries store (req k).identity := by
  have hinv : s.AccessInv auth req :=
    TransitionSystem.run_invariant_of_guarded (step auth req) (PolicySettled req)
      (AccessInv auth req) (accessInv_step auth req) (accessInv_start auth req mounts policy)
      hcond hrun
  have hok := hinv.request k
  rw [hsent] at hok
  exact hok hmode hpassword

section

variable [Fintype ι] [Fintype ρ]

instance decidableNoWindow (s : MountSystem ι ρ) (c : Code) : Decidable (s.NoWindow c) :=
  inferInstanceAs (Decidable (∀ _, _))

instance decidableNoRequest (req : ρ → ProxyRequest) (s : MountSystem ι ρ) (c : Code) :
    Decidable (s.NoRequest req c) :=
  inferInstanceAs (Decidable (∀ _, _))

instance decidablePolicySettled (req : ρ → ProxyRequest) (s : MountSystem ι ρ)
    (a : MountAction ι ρ) : Decidable (s.PolicySettled req a) :=
  match a with
  | .session _ _ => inferInstanceAs (Decidable (∀ _ ∈ _, _))
  | .sessionFail _ => inferInstanceAs (Decidable (_ = _))
  | .request _ _ => inferInstanceAs (Decidable (_ → _))
  | .connClosed _ | .requestFail _ | .sweepExpire _ | .sweepPop | .sweepDelete _ => isTrue trivial

end

/-- A restricted mount of user 1 that lets group 7 in. -/
def familyAgent : AgentAuth :=
  ⟨some "family", "10.0.0.7", some 1, ⟨.restricted, false, [⟨.group, 7, .read⟩]⟩⟩

/-- User 2, a member of group 7. -/
def familyRequest : ProxyRequest := ⟨"family", some ⟨2, "bob"⟩⟩

def familyGroups : GroupIds := fun id => if id = 2 then some [7] else none

/-- The request comes once the policy is written. -/
def requestAfterPolicy : List (MountAction (Fin 1) (Fin 1)) :=
  List.replicate 11 (.session 0 ⟨false, "", false⟩) ++
    List.replicate 5 (.request 0 (some familyGroups))

theorem proxied_onAllowlist_afterPolicy :
    ∃ s store, TransitionSystem.run (step (fun _ => familyAgent) fun _ => familyRequest)
        (start (fun _ => none) fun _ => []) requestAfterPolicy = some s ∧
      s.request 0 = .sent 0 store ∧
      OnAllowlist familyAgent.policy.entries store familyRequest.identity := by
  have heval : (TransitionSystem.run (step (fun _ => familyAgent) fun _ => familyRequest)
      (start (fun _ => none) fun _ => []) requestAfterPolicy).any
      (fun s => (s.request 0).isSentTo 0) = true := by decide +kernel
  obtain ⟨s, hrun, hs⟩ := (Option.any_eq_true _ _).mp heval
  obtain ⟨store, hsent⟩ := RequestPc.isSentTo_iff.mp hs
  refine ⟨s, store, hrun, hsent, ?_⟩
  exact proxied_onAllowlist (fun _ => familyAgent) (fun _ => familyRequest) _ _ requestAfterPolicy s
    (by decide +kernel) hrun 0 0 store hsent rfl rfl

/-- Nobody in particular, before `set_owner_policy`. -/
def requestInWindow : List (MountAction (Fin 1) (Fin 1)) :=
  List.replicate 6 (.session 0 ⟨false, "", false⟩) ++ List.replicate 5 (.request 0 none)

theorem requestInWindow_sent :
    ∃ s store, TransitionSystem.run (step (fun _ => familyAgent) fun _ => ⟨"family", none⟩)
        (start (fun _ => none) fun _ => []) requestInWindow = some s ∧
      s.request 0 = .sent 0 store ∧ familyAgent.policy.accessMode = .restricted ∧
      familyAgent.policy.hasPassword = false ∧
      ¬ OnAllowlist familyAgent.policy.entries store none := by
  have heval : (TransitionSystem.run (step (fun _ => familyAgent) fun _ => ⟨"family", none⟩)
      (start (fun _ => none) fun _ => []) requestInWindow).any
      (fun s => (s.request 0).isSentTo 0) = true := by decide +kernel
  obtain ⟨s, hrun, hs⟩ := (Option.any_eq_true _ _).mp heval
  obtain ⟨store, hsent⟩ := RequestPc.isSentTo_iff.mp hs
  refine ⟨s, store, hrun, hsent, rfl, rfl, ?_⟩
  rintro ⟨i, _, _, hnone, -⟩
  cases hnone

end MountSystem

end NetworkFileServer.Relay
