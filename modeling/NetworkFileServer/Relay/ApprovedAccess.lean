import NetworkFileServer.Relay.AccessRequests
import NetworkFileServer.Relay.DeclaredAllowlist

/-!
# Approved and denied requests

An approval writes the request's status and an entry of the allowlist. What writes only one of the two
parts them again: a declaration replaces the whole allowlist and leaves the statuses, and a denial
changes the status and leaves the entry of an earlier approval.
-/

namespace NetworkFileServer.Relay

open SqliteRegistry

variable {κ : Type*}

/-- The entry names the user. -/
def PolicyEntry.IsFor (x : PolicyEntry) (userId : Nat) : Prop :=
  x.subjectType = .user ∧ x.subjectId = userId

instance PolicyEntry.decidableIsFor (x : PolicyEntry) (userId : Nat) : Decidable (x.IsFor userId) :=
  inferInstanceAs (Decidable (_ ∧ _))

theorem mem_replaceEntry (entries : List PolicyEntry) (userId : Nat) (role : Role) (x : PolicyEntry) :
    x ∈ Registry.replaceEntry entries ⟨.user, userId, role⟩ ↔
      (x ∈ entries ∧ ¬ x.IsFor userId) ∨ x = ⟨.user, userId, role⟩ := by
  simp only [Registry.replaceEntry, List.mem_append, List.mem_filter, decide_eq_true_eq,
    List.mem_singleton, PolicyEntry.IsFor]

/-- A table written from a list has an entry for the user exactly if the list has one. -/
theorem exists_isFor_foldl_replaceEntry (entries : List PolicyEntry) (userId : Nat) :
    (∃ x ∈ entries.foldl Registry.replaceEntry [], x.IsFor userId) ↔ ∃ x ∈ entries, x.IsFor userId := by
  constructor
  · rintro ⟨x, hx, hfor⟩
    exact ⟨x, ((mem_foldl_replaceEntry entries x).mp hx).mem, hfor⟩
  · rintro ⟨x, hx, hfor⟩
    induction entries using List.reverseRecOn with
    | nil => cases hx
    | append_singleton entries last ih =>
        rw [List.foldl_append, List.foldl_cons, List.foldl_nil]
        by_cases hlast : last.IsFor userId
        · exact ⟨last, by simp [Registry.replaceEntry], hlast⟩
        · have hold : x ∈ entries := by
            rcases List.mem_append.mp hx with hold | hnew
            · exact hold
            · rw [List.mem_singleton.mp hnew] at hfor
              exact absurd hfor hlast
          obtain ⟨y, hy, hyfor⟩ := ih hold
          refine ⟨y, ?_, hyfor⟩
          have hother : ¬ (y.subjectType = last.subjectType ∧ y.subjectId = last.subjectId) := by
            rintro ⟨htype, hid⟩
            exact hlast ⟨htype.symm.trans hyfor.1, hid.symm.trans hyfor.2⟩
          simp only [Registry.replaceEntry, List.mem_append, List.mem_filter, decide_eq_true_eq]
          exact .inl ⟨hy, hother⟩

namespace SqliteRegistry

theorem policy_storePolicy (auth : AgentAuth) (r : SqliteRegistry κ) (now : ℚ) (connection : κ)
    (generated : Code) (effectiveTtl : ℚ) (a : Assignment κ)
    (hassign : r.assignCode now auth connection generated effectiveTtl = .ok a) :
    (storePolicy auth a).policy =
      Function.update r.policy a.code (auth.policy.entries.foldl Registry.replaceEntry []) := by
  obtain ⟨⟨row, hrow⟩, -, hpolicy⟩ := assignCode_frame r now auth connection generated effectiveTtl a hassign
  simp only [storePolicy, setOwnerPolicy, withRow, hrow]
  rw [hpolicy]

theorem policy_outcome_withRow (r : SqliteRegistry κ) (code : Code) (update : StoredRow → SqliteRegistry κ)
    (hupdate : ∀ row, (update row).policy = r.policy) :
    (r.outcome (r.withRow code update)).1.policy = r.policy := by
  unfold withRow
  cases r.mounts code with
  | none => rfl
  | some row => exact hupdate row

end SqliteRegistry

theorem MountEvent.policy_step (r t : SqliteRegistry κ) (now : ℚ) (e : MountEvent κ)
    (hconnect : ∀ auth connection generated effectiveTtl,
      e ≠ .connect auth connection generated effectiveTtl)
    (hstep : MountEvent.step r (now, e) = some t) : t.policy = r.policy := by
  cases e with
  | connect auth connection generated effectiveTtl => exact absurd rfl (hconnect _ _ _ _)
  | disconnect code =>
      cases hstep
      apply policy_outcome_withRow
      intro row
      split <;> rfl
  | expire code =>
      cases hstep
      exact policy_outcome_withRow r code _ fun _ => rfl
  | markTtlWarned code =>
      cases hstep
      exact policy_outcome_withRow r code _ fun _ => rfl
  | deleteExpiredBefore cutoff =>
      cases hstep
      rfl
  | restart =>
      cases hstep
      rfl

namespace RelayRegistry

/-- The policy declaration of an event: the code and the entries that `set_owner_policy` writes for it. -/
def declares (s : RelayRegistry κ) : ℚ × RelayEvent κ → Option (Code × List PolicyEntry)
  | (now, .mount (.connect auth connection generated effectiveTtl)) =>
      match s.registry.assignCode now auth connection generated effectiveTtl with
      | .ok a => some (a.code, auth.policy.entries)
      | .error _ => none
  | (_, .setOwnerPolicy code _ policy) =>
      if s.registry.hasMount code then some (code, policy.entries) else none
  | _ => none

theorem resolvable_eq_some (s : RelayRegistry κ) (requestId userId : Nat) (isAdmin : Bool) (q : AccessRequest)
    (h : s.resolvable requestId userId isAdmin = some q) : q ∈ s.requests.rows ∧ q.id = requestId :=
  (s.requests.getAccessRequest_eq_some_iff requestId q).mp (Option.filter_eq_some_iff.mp h).1

/-- What an event can do to the allowlists and the requests. -/
inductive Decides (s : RelayRegistry κ) (e : ℚ × RelayEvent κ) (t : RelayRegistry κ) : Prop
  | declared (code : Code) (entries : List PolicyEntry) (hdeclares : s.declares e = some (code, entries))
      (hpolicy : t.registry.policy =
        Function.update s.registry.policy code (entries.foldl Registry.replaceEntry []))
      (hrequests : t.requests = s.requests)
  | unchanged (hdeclares : s.declares e = none) (hpolicy : t.registry.policy = s.registry.policy)
      (hrequests : t.requests = s.requests)
  | created (hdeclares : s.declares e = none) (code : Code) (userId : Nat) (now : ℚ)
      (hpolicy : t.registry.policy = s.registry.policy)
      (hrequests : t.requests = s.requests.insertOrIgnore code userId now)
  | approved (hdeclares : s.declares e = none) (q : AccessRequest) (role : Role)
      (hq : q ∈ s.requests.rows)
      (hpolicy : t.registry.policy = Function.update s.registry.policy q.code
        (Registry.replaceEntry (s.registry.policy q.code) ⟨.user, q.userId, role⟩))
      (hrequests : t.requests = s.requests.setStatus q.id .approved)
  | denied (hdeclares : s.declares e = none) (q : AccessRequest) (now : ℚ) (userId : Nat) (isAdmin : Bool)
      (he : e = (now, .resolveRequest q.id userId isAdmin .deny))
      (hq : s.resolvable q.id userId isAdmin = some q)
      (hpolicy : t.registry.policy = s.registry.policy)
      (hrequests : t.requests = s.requests.setStatus q.id .denied)

theorem step_decides (s t : RelayRegistry κ) (e : ℚ × RelayEvent κ) (hstep : s.step e = some t) :
    s.Decides e t := by
  obtain ⟨now, e⟩ := e
  cases e with
  | mount e =>
      obtain ⟨r, hr, rfl⟩ := Option.map_eq_some_iff.mp hstep
      by_cases hconnect : ∃ auth connection generated effectiveTtl,
          e = .connect auth connection generated effectiveTtl
      · obtain ⟨auth, connection, generated, effectiveTtl, rfl⟩ := hconnect
        cases hassign : s.registry.assignCode now auth connection generated effectiveTtl with
        | error err =>
            simp only [MountEvent.step, hassign] at hr
            cases hr
            exact .unchanged (by simp [declares, hassign]) rfl rfl
        | ok a =>
            simp only [MountEvent.step, hassign] at hr
            cases hr
            exact .declared a.code auth.policy.entries (by simp [declares, hassign])
              (policy_storePolicy auth s.registry now connection generated effectiveTtl a hassign) rfl
      · have hother : ∀ auth connection generated effectiveTtl,
            e ≠ .connect auth connection generated effectiveTtl := by
          intro auth connection generated effectiveTtl heq
          exact hconnect ⟨auth, connection, generated, effectiveTtl, heq⟩
        refine .unchanged ?_ (MountEvent.policy_step s.registry r now e hother hr) rfl
        cases e with
        | connect auth connection generated effectiveTtl => exact absurd rfl (hother _ _ _ _)
        | disconnect code => rfl
        | expire code => rfl
        | markTtlWarned code => rfl
        | deleteExpiredBefore cutoff => rfl
        | restart => rfl
  | deregister code =>
      cases hstep
      exact .unchanged rfl (policy_outcome_withRow s.registry code _ fun _ => rfl) rfl
  | setOwnerPolicy code ownerUserId policy =>
      cases hstep
      cases hrow : s.registry.mounts code with
      | none =>
          refine .unchanged (by simp [declares, hasMount, hrow]) ?_ rfl
          simp [perform, setOwnerPolicy, withRow, hrow, outcome]
      | some row =>
          refine .declared code policy.entries (by simp [declares, hasMount, hrow]) ?_ rfl
          simp [perform, setOwnerPolicy, withRow, hrow, outcome]
  | createRequest code userId =>
      cases hstep
      exact .created rfl code userId now rfl rfl
  | resolveRequest requestId userId isAdmin action =>
      cases hstep
      cases hresolvable : s.resolvable requestId userId isAdmin with
      | none =>
          simp only [resolveRequest, hresolvable]
          exact .unchanged rfl rfl rfl
      | some q =>
          obtain ⟨hq, rfl⟩ := s.resolvable_eq_some requestId userId isAdmin q hresolvable
          cases action with
          | approve role =>
              simp only [resolveRequest, hresolvable]
              exact .approved rfl q (role.getD .read) hq rfl rfl
          | deny =>
              simp only [resolveRequest, hresolvable]
              exact .denied rfl q now userId isAdmin rfl hresolvable rfl rfl

end RelayRegistry

/-- The registry, with the entries that were last declared for each code. -/
structure DeclaredRegistry (κ : Type*) extends RelayRegistry κ where
  declared : Code → List PolicyEntry

namespace DeclaredRegistry

def empty : DeclaredRegistry κ := ⟨.empty, fun _ => []⟩

def step (s : DeclaredRegistry κ) (e : ℚ × RelayEvent κ) : Option (DeclaredRegistry κ) :=
  (s.toRelayRegistry.step e).map fun t =>
    { toRelayRegistry := t
      declared := match s.declares e with
        | some (code, entries) => Function.update s.declared code entries
        | none => s.declared }

/-- The user of an APPROVED request has an allowlist entry on its mount, the user of a DENIED one has
none but what was declared. -/
structure Settled (s : DeclaredRegistry κ) : Prop where
  approved : ∀ q ∈ s.requests.rows, q.status = .approved →
    ∃ x ∈ s.registry.policy q.code, x.IsFor q.userId
  denied : ∀ q ∈ s.requests.rows, q.status = .denied →
    ∀ x ∈ s.registry.policy q.code, x.IsFor q.userId → x ∈ s.declared q.code

/-- A declaration names every user whose request for the mount is APPROVED, and no APPROVED request is
denied but one whose entry was declared. -/
def KeepsDecisions (s : DeclaredRegistry κ) (e : ℚ × RelayEvent κ) : Prop :=
  (∀ code entries, s.declares e = some (code, entries) →
    ∀ q ∈ s.requests.rows, q.code = code → q.status = .approved → ∃ x ∈ entries, x.IsFor q.userId) ∧
  ∀ now requestId userId isAdmin, e = (now, .resolveRequest requestId userId isAdmin .deny) →
    ∀ q, s.resolvable requestId userId isAdmin = some q → q.status = .approved →
      ∀ x ∈ s.registry.policy q.code, x.IsFor q.userId → x ∈ s.declared q.code

/-- An entry that was not declared belongs to an APPROVED request. -/
structure Granted (s : DeclaredRegistry κ) : Prop where
  approved : ∀ q ∈ s.requests.rows, q.status = .approved →
    ∃ x ∈ s.registry.policy q.code, x.IsFor q.userId
  undeclared : ∀ code, ∀ x ∈ s.registry.policy code, x ∉ s.declared code →
    ∃ q ∈ s.requests.rows, q.code = code ∧ x.IsFor q.userId ∧ q.status = .approved

theorem Granted.settled {s : DeclaredRegistry κ} (h : Granted s) : Settled s := by
  refine ⟨h.approved, ?_⟩
  intro q hq hdenied x hx hfor
  by_contra hnot
  obtain ⟨q', hq', hcode, hfor', hstatus⟩ := h.undeclared q.code x hx hnot
  have hkey : (q'.code, q'.userId) = (q.code, q.userId) := by
    rw [hcode, ← hfor'.2, hfor.2]
  rw [List.inj_on_of_nodup_map s.requests.keys hq' hq hkey, hdenied] at hstatus
  cases hstatus

theorem empty_granted : Granted (empty : DeclaredRegistry κ) :=
  ⟨by simp [empty, RelayRegistry.empty, RequestTable.empty], by simp [empty, RelayRegistry.empty]⟩

section Events

variable {s t : DeclaredRegistry κ} (hs : Granted s)

include hs

theorem granted_declared (code : Code) (entries : List PolicyEntry)
    (hnamed : ∀ q ∈ s.requests.rows, q.code = code → q.status = .approved → ∃ x ∈ entries, x.IsFor q.userId)
    (hdeclared : t.declared = Function.update s.declared code entries)
    (hpolicy : t.registry.policy =
      Function.update s.registry.policy code (entries.foldl Registry.replaceEntry []))
    (hrequests : t.requests = s.requests) : Granted t := by
  constructor
  · intro q hq hstatus
    rw [hrequests] at hq
    rw [hpolicy]
    by_cases hcode : q.code = code
    · rw [hcode, Function.update_self]
      exact (exists_isFor_foldl_replaceEntry entries q.userId).mpr (hnamed q hq hcode hstatus)
    · rw [Function.update_of_ne hcode]
      exact hs.approved q hq hstatus
  · intro code' x hx hnot
    rw [hpolicy] at hx
    rw [hdeclared] at hnot
    by_cases hcode : code' = code
    · subst hcode
      rw [Function.update_self] at hx hnot
      exact absurd ((mem_foldl_replaceEntry entries x).mp hx).mem hnot
    · rw [Function.update_of_ne hcode] at hx hnot
      rw [hrequests]
      exact hs.undeclared code' x hx hnot

theorem granted_created (code : Code) (userId : Nat) (now : ℚ) (hdeclared : t.declared = s.declared)
    (hpolicy : t.registry.policy = s.registry.policy)
    (hrequests : t.requests = s.requests.insertOrIgnore code userId now) : Granted t := by
  constructor
  · intro q hq hstatus
    rw [hrequests, RequestTable.mem_insertOrIgnore] at hq
    rw [hpolicy]
    rcases hq with hold | ⟨-, rfl⟩
    · exact hs.approved q hold hstatus
    · cases hstatus
  · intro code' x hx hnot
    rw [hpolicy] at hx
    rw [hdeclared] at hnot
    obtain ⟨q, hq, hq'⟩ := hs.undeclared code' x hx hnot
    rw [hrequests]
    exact ⟨q, (RequestTable.mem_insertOrIgnore _ _ _ _ _).mpr (.inl hq), hq'⟩

theorem granted_approved (q : AccessRequest) (role : Role) (hq : q ∈ s.requests.rows)
    (hdeclared : t.declared = s.declared)
    (hpolicy : t.registry.policy = Function.update s.registry.policy q.code
      (Registry.replaceEntry (s.registry.policy q.code) ⟨.user, q.userId, role⟩))
    (hrequests : t.requests = s.requests.setStatus q.id .approved) : Granted t := by
  -- The table has the new entry, and every other entry that it had.
  have hentry : ∀ code x, x ∈ s.registry.policy code → ¬ (code = q.code ∧ x.IsFor q.userId) →
      x ∈ t.registry.policy code := by
    intro code x hx hother
    rw [hpolicy]
    by_cases hcode : code = q.code
    · subst hcode
      rw [Function.update_self, mem_replaceEntry]
      exact .inl ⟨hx, fun hsame => hother ⟨rfl, hsame⟩⟩
    · rw [Function.update_of_ne hcode]
      exact hx
  have hnew : (⟨.user, q.userId, role⟩ : PolicyEntry) ∈ t.registry.policy q.code := by
    rw [hpolicy, Function.update_self, mem_replaceEntry]
    exact .inr rfl
  constructor
  · intro q' hq' hstatus
    rw [hrequests, RequestTable.mem_setStatus] at hq'
    rcases hq' with ⟨hold, hid⟩ | ⟨q'', hq'', hid, rfl⟩
    · obtain ⟨x, hx, hfor⟩ := hs.approved q' hold hstatus
      refine ⟨x, hentry q'.code x hx ?_, hfor⟩
      rintro ⟨hcode, hfor'⟩
      apply hid
      have hkey : (q'.code, q'.userId) = (q.code, q.userId) := by
        rw [hcode, ← hfor.2, hfor'.2]
      rw [List.inj_on_of_nodup_map s.requests.keys hold hq hkey]
    · rw [List.inj_on_of_nodup_map s.requests.ids hq'' hq hid]
      exact ⟨_, hnew, rfl, rfl⟩
  · intro code x hx hnot
    rw [hdeclared] at hnot
    rw [hrequests]
    by_cases hfor : code = q.code ∧ x.IsFor q.userId
    · refine ⟨{ q with status := .approved }, ?_, hfor.1.symm, hfor.2, rfl⟩
      exact (RequestTable.mem_setStatus _ _ _ _).mpr (.inr ⟨q, hq, rfl, rfl⟩)
    · have hold : x ∈ s.registry.policy code := by
        rw [hpolicy] at hx
        by_cases hcode : code = q.code
        · subst hcode
          rw [Function.update_self, mem_replaceEntry] at hx
          rcases hx with ⟨hx, -⟩ | rfl
          · exact hx
          · exact absurd ⟨rfl, rfl, rfl⟩ hfor
        · rw [Function.update_of_ne hcode] at hx
          exact hx
      obtain ⟨q', hq', hcode, hfor', hstatus⟩ := hs.undeclared code x hold hnot
      refine ⟨q', (RequestTable.mem_setStatus _ _ _ _).mpr (.inl ⟨hq', ?_⟩), hcode, hfor', hstatus⟩
      intro hid
      rw [List.inj_on_of_nodup_map s.requests.ids hq' hq hid] at hcode hfor'
      exact hfor ⟨hcode.symm, hfor'⟩

theorem granted_denied (q : AccessRequest) (hq : q ∈ s.requests.rows)
    (hkept : q.status = .approved → ∀ x ∈ s.registry.policy q.code, x.IsFor q.userId → x ∈ s.declared q.code)
    (hdeclared : t.declared = s.declared) (hpolicy : t.registry.policy = s.registry.policy)
    (hrequests : t.requests = s.requests.setStatus q.id .denied) : Granted t := by
  constructor
  · intro q' hq' hstatus
    rw [hrequests, RequestTable.mem_setStatus] at hq'
    rw [hpolicy]
    rcases hq' with ⟨hold, -⟩ | ⟨q'', -, -, rfl⟩
    · exact hs.approved q' hold hstatus
    · cases hstatus
  · intro code x hx hnot
    rw [hpolicy] at hx
    rw [hdeclared] at hnot
    obtain ⟨q', hq', rfl, hfor, hstatus⟩ := hs.undeclared code x hx hnot
    rw [hrequests]
    refine ⟨q', (RequestTable.mem_setStatus _ _ _ _).mpr (.inl ⟨hq', ?_⟩), rfl, hfor, hstatus⟩
    intro hid
    rw [List.inj_on_of_nodup_map s.requests.ids hq' hq hid] at hx hnot hfor hstatus
    exact hnot (hkept hstatus x hx hfor)

end Events

theorem granted_step (s : DeclaredRegistry κ) (e : ℚ × RelayEvent κ) (t : DeclaredRegistry κ)
    (hs : Granted s) (hcond : KeepsDecisions s e) (hstep : s.step e = some t) : Granted t := by
  obtain ⟨r, hr, rfl⟩ := Option.map_eq_some_iff.mp hstep
  cases s.toRelayRegistry.step_decides r e hr with
  | declared code entries hdeclares hpolicy hrequests =>
      exact granted_declared hs code entries (hcond.1 code entries hdeclares) (by simp only [hdeclares])
        hpolicy hrequests
  | unchanged hdeclares hpolicy hrequests =>
      simp only [hdeclares]
      exact ⟨by rw [hrequests, hpolicy]; exact hs.approved, by rw [hrequests, hpolicy]; exact hs.undeclared⟩
  | created hdeclares code userId now hpolicy hrequests =>
      exact granted_created hs code userId now (by simp only [hdeclares]) hpolicy hrequests
  | approved hdeclares q role hq hpolicy hrequests =>
      exact granted_approved hs q role hq (by simp only [hdeclares]) hpolicy hrequests
  | denied hdeclares q now userId isAdmin he hq hpolicy hrequests =>
      exact granted_denied hs q (s.resolvable_eq_some _ _ _ q hq).1 (hcond.2 _ _ _ _ he q hq)
        (by simp only [hdeclares]) hpolicy hrequests

theorem not_settled_of_not_keepsDecisions (s : DeclaredRegistry κ) (e : ℚ × RelayEvent κ)
    (t : DeclaredRegistry κ) (_hs : Granted s) (hcond : ¬ KeepsDecisions s e) (hstep : s.step e = some t) :
    ¬ Settled t := by
  intro hsettled
  apply hcond
  obtain ⟨r, hr, rfl⟩ := Option.map_eq_some_iff.mp hstep
  constructor
  · intro code entries hdeclares q hq hcode hstatus
    cases s.toRelayRegistry.step_decides r e hr with
    | declared code' entries' hdeclares' hpolicy hrequests =>
        rw [hdeclares] at hdeclares'
        cases hdeclares'
        obtain ⟨x, hx, hfor⟩ := hsettled.approved q (by rw [hrequests]; exact hq) hstatus
        rw [hpolicy, hcode, Function.update_self] at hx
        exact (exists_isFor_foldl_replaceEntry entries q.userId).mp ⟨x, hx, hfor⟩
    | unchanged hnone => rw [hdeclares] at hnone; cases hnone
    | created hnone => rw [hdeclares] at hnone; cases hnone
    | approved hnone => rw [hdeclares] at hnone; cases hnone
    | denied hnone => rw [hdeclares] at hnone; cases hnone
  · rintro now requestId userId isAdmin rfl q hq hstatus x hx hfor
    cases hr
    have hmem := s.resolvable_eq_some requestId userId isAdmin q hq
    have hrows : { q with status := .denied } ∈
        (s.resolveRequest requestId userId isAdmin .deny).requests.rows := by
      simp only [RelayRegistry.resolveRequest, hq]
      exact (RequestTable.mem_setStatus _ _ _ _).mpr (.inr ⟨q, hmem.1, hmem.2, rfl⟩)
    refine hsettled.denied { q with status := .denied } hrows rfl x ?_ hfor
    simp only [RelayRegistry.resolveRequest, hq]
    exact hx

theorem step_isSome (s : DeclaredRegistry κ) (e : ℚ × RelayEvent κ) : (s.step e).isSome = true := by
  rw [step, Option.isSome_map]
  exact s.toRelayRegistry.step_isSome e

/-- For every sequence of events: APPROVED requests have their entries and DENIED ones none of their own,
in every state on the way, exactly if every declaration names the users with APPROVED requests for the
mount and no APPROVED request is denied whose entry was not declared. -/
theorem requests_settled_iff (events : List (ℚ × RelayEvent κ)) :
    TransitionSystem.Throughout step Settled empty events ↔
      TransitionSystem.Guarded step KeepsDecisions empty events := by
  obtain ⟨u, hrun⟩ := TransitionSystem.exists_run_of_total step step_isSome empty events
  exact TransitionSystem.throughout_iff_guarded step KeepsDecisions Granted Settled
    (fun _ => Granted.settled) granted_step not_settled_of_not_keepsDecisions empty_granted hrun

/-- The owner 7 approves the request of the user 1. -/
def approval : List (ℚ × RelayEvent (Fin 1)) :=
  [(0, .mount (.connect (aliceAgent []) 0 "spare" 100)), (1, .createRequest "photos" 1),
    (2, .resolveRequest 1 7 false (.approve (some .write)))]

/-- The agent reconnects with the allowlist that it was started with. -/
def approvalThenReconnect : List (ℚ × RelayEvent (Fin 1)) :=
  approval ++ [(3, .mount (.disconnect "photos")), (4, .mount (.connect (aliceAgent []) 0 "spare" 100))]

def approvalThenDenial : List (ℚ × RelayEvent (Fin 1)) :=
  approval ++ [(3, .resolveRequest 1 7 false .deny)]

/-- After the reconnect the APPROVED request has no entry; after the denial the DENIED one has its entry
still. -/
theorem requests_not_settled :
    (∃ s, TransitionSystem.run step empty approvalThenReconnect = some s ∧ ¬ Settled s) ∧
      ∃ s, TransitionSystem.run step empty approvalThenDenial = some s ∧ ¬ Settled s := by
  constructor
  · have heval : (TransitionSystem.run step empty approvalThenReconnect).any (fun s =>
        decide (⟨1, "photos", 1, .approved, 1⟩ ∈ s.requests.rows ∧ s.registry.policy "photos" = [])) = true := by
      decide +kernel
    obtain ⟨s, hrun, hs⟩ := (Option.any_eq_true _ _).mp heval
    obtain ⟨hrow, hpolicy⟩ := of_decide_eq_true hs
    refine ⟨s, hrun, ?_⟩
    intro hsettled
    obtain ⟨x, hx, -⟩ := hsettled.approved _ hrow rfl
    rw [hpolicy] at hx
    cases hx
  · have heval : (TransitionSystem.run step empty approvalThenDenial).any (fun s =>
        decide (⟨1, "photos", 1, .denied, 1⟩ ∈ s.requests.rows ∧
          ⟨.user, 1, .write⟩ ∈ s.registry.policy "photos" ∧ s.declared "photos" = [])) = true := by
      decide +kernel
    obtain ⟨s, hrun, hs⟩ := (Option.any_eq_true _ _).mp heval
    obtain ⟨hrow, hentry, hdeclared⟩ := of_decide_eq_true hs
    refine ⟨s, hrun, ?_⟩
    intro hsettled
    have hin := hsettled.denied _ hrow rfl _ hentry ⟨rfl, rfl⟩
    rw [hdeclared] at hin
    cases hin

end DeclaredRegistry

end NetworkFileServer.Relay
