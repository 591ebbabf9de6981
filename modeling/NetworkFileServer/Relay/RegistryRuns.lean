import NetworkFileServer.Framework.TransitionSystem
import NetworkFileServer.Relay.RegistryMethods

/-!
# Runs of the registry

Any sequence of method calls and relay restarts, one at a time. The table and the dictionary of
connections are changed together: the dictionary is what the history of calls says it should be, and
only holds codes whose row is ONLINE.
-/

namespace NetworkFileServer.Relay

/-- A call of a registry method, or a restart of the relay over the same database. -/
inductive RegistryCall (κ : Type*) where
  | register (code : Code) (connection : κ) (agentIp : String) (createdAt : ℚ) (expiresAt : Option ℚ)
  | deregister (code : Code)
  | markOffline (code : Code)
  | expire (code : Code)
  | markTtlWarned (code : Code)
  | tryReclaim (code : Code) (connection : κ) (agentIp : String)
  | tryReclaimAsOwner (code : Code) (connection : κ) (ownerUserId : Nat)
  | setOwnerPolicy (code : Code) (ownerUserId : Option Nat) (policy : MountPolicy)
  | deleteExpiredBefore (cutoff : ℚ)
  | restart

/-- A call and whether it succeeded: a method that raises, or a reclaim that returns `None`, did not. -/
structure RegistryEvent (κ : Type*) where
  call : RegistryCall κ
  succeeded : Bool

namespace RegistryEvent

variable {κ : Type*}

/-- The connection that a successful register or reclaim of the code was given. -/
def gives (e : RegistryEvent κ) (code : Code) : Option κ :=
  match e.call with
  | .register code' connection _ _ _ | .tryReclaim code' connection _
  | .tryReclaimAsOwner code' connection _ => if e.succeeded ∧ code' = code then some connection else none
  | _ => none

/-- A mark_offline, expire or deregister of the code, or a restart. -/
def takes (e : RegistryEvent κ) (code : Code) : Bool :=
  match e.call with
  | .markOffline code' | .expire code' | .deregister code' => code' = code
  | .restart => true
  | _ => false

/-- The connection of the code after the event, given the one before. -/
def after (e : RegistryEvent κ) (code : Code) (before : Option κ) : Option κ :=
  match e.gives code with
  | some connection => some connection
  | none => if e.takes code then none else before

/-- The connection given to the latest successful register or reclaim of the code, with no later
mark_offline, expire, deregister or restart. -/
def Latest (history : List (RegistryEvent κ)) (code : Code) (connection : κ) : Prop :=
  ∃ earlier e later, history = earlier ++ e :: later ∧ e.gives code = some connection ∧
    ∀ e' ∈ later, e'.gives code = none ∧ e'.takes code = false

theorem latest_concat (history : List (RegistryEvent κ)) (e : RegistryEvent κ) (code : Code)
    (connection : κ) : Latest (history ++ [e]) code connection ↔
      e.gives code = some connection ∨
        (e.gives code = none ∧ e.takes code = false ∧ Latest history code connection) := by
  constructor
  · rintro ⟨earlier, g, later, heq, hgives, hlater⟩
    rcases List.eq_nil_or_concat later with rfl | ⟨init, last, rfl⟩
    · obtain ⟨-, hlast⟩ := List.append_inj' heq rfl
      cases hlast
      exact .inl hgives
    · rw [List.concat_eq_append, ← List.cons_append, ← List.append_assoc] at heq
      obtain ⟨hinit, hlast⟩ := List.append_inj' heq rfl
      cases hlast
      obtain ⟨hnone, htakes⟩ := hlater e (by simp)
      refine .inr ⟨hnone, htakes, earlier, g, init, hinit, hgives, ?_⟩
      intro e' he'
      exact hlater e' (by simp [he'])
  · rintro (hgives | ⟨hnone, htakes, earlier, g, later, rfl, hgives, hlater⟩)
    · exact ⟨history, e, [], rfl, hgives, by simp⟩
    · refine ⟨earlier, g, later ++ [e], by simp, hgives, ?_⟩
      intro e' he'
      rcases List.mem_append.mp he' with hold | hnew
      · exact hlater e' hold
      · rw [List.mem_singleton.mp hnew]
        exact ⟨hnone, htakes⟩

theorem after_eq_some_iff (e : RegistryEvent κ) (code : Code) (before : Option κ) (connection : κ) :
    e.after code before = some connection ↔ e.gives code = some connection ∨
      (e.gives code = none ∧ e.takes code = false ∧ before = some connection) := by
  unfold after
  cases e.gives code with
  | some given => simp
  | none => cases e.takes code <;> simp

end RegistryEvent

namespace SqliteRegistry

variable {κ : Type*}

/-- What is left after a method: a raised exception has changed nothing. -/
def outcome (r : SqliteRegistry κ) : Except RegistryError (SqliteRegistry κ) → SqliteRegistry κ × Bool
  | .ok r' => (r', true)
  | .error _ => (r, false)

def reclaimOutcome (r : SqliteRegistry κ) : Option (SqliteRegistry κ × ℤ) → SqliteRegistry κ × Bool
  | some (r', _) => (r', true)
  | none => (r, false)

def perform (r : SqliteRegistry κ) (now : ℚ) : RegistryCall κ → SqliteRegistry κ × Bool
  | .register code connection agentIp createdAt expiresAt =>
      r.outcome (r.register code (some connection) agentIp createdAt expiresAt)
  | .deregister code => r.outcome (r.deregister code)
  | .markOffline code => r.outcome (r.markOffline code)
  | .expire code => r.outcome (r.expire code)
  | .markTtlWarned code => r.outcome (r.markTtlWarned code)
  | .tryReclaim code connection agentIp => r.reclaimOutcome (r.tryReclaim now code connection agentIp)
  | .tryReclaimAsOwner code connection ownerUserId =>
      r.reclaimOutcome (r.tryReclaimAsOwner now code connection ownerUserId)
  | .setOwnerPolicy code ownerUserId policy => r.outcome (r.setOwnerPolicy code ownerUserId policy)
  | .deleteExpiredBefore cutoff => (r.deleteExpiredBefore cutoff, true)
  | .restart => (r.restart now, true)

/-- Every connection in the dictionary has an ONLINE row. -/
def Consistent (r : SqliteRegistry κ) : Prop :=
  ∀ code connection, r.connections code = some connection →
    ∃ row, r.mounts code = some row ∧ row.status = .online

end SqliteRegistry

/-- What one call can do to the row and the connection of a code. -/
inductive MountChange {κ : Type*} (e : RegistryEvent κ) (code : Code) :
    Option StoredRow × Option κ → Option StoredRow × Option κ → Prop
  /-- A call for another code, or one that found no row to work on. -/
  | untouched (row : Option StoredRow) (c : Option κ) (hgives : e.gives code = none)
      (htakes : e.takes code = true → row = none) : MountChange e code (row, c) (row, c)
  | edited (row row' : StoredRow) (c : Option κ) (hgives : e.gives code = none)
      (htakes : e.takes code = false) (hstatus : row'.status = row.status)
      (hexpiresAt : row'.expiresAt = row.expiresAt) : MountChange e code (some row, c) (some row', c)
  | registered (m : Option StoredRow × Option κ) (connection : κ) (agentIp : String) (createdAt : ℚ)
      (expiresAt : Option ℚ) (hcall : e.call = .register code connection agentIp createdAt expiresAt)
      (hgives : e.gives code = some connection) :
      MountChange e code m (some (SqliteRegistry.freshRow agentIp createdAt expiresAt), some connection)
  | reclaimed (row : StoredRow) (c : Option κ) (connection : κ) (hgives : e.gives code = some connection)
      (hstatus : row.status = .offline) :
      MountChange e code (some row, c) (some { row with status := .online }, some connection)
  /-- The row goes OFFLINE or EXPIRED. `mark_offline` leaves a row that is not ONLINE as it is. -/
  | taken (row row' : StoredRow) (c c' : Option κ) (hgives : e.gives code = none)
      (htakes : e.takes code = true) (hexpired : row.status = .expired → row'.status = .expired)
      (hexpiresAt : row'.expiresAt = row.expiresAt)
      (hpopped : c' = none ∨ (c' = c ∧ row.status ≠ .online)) :
      MountChange e code (some row, c) (some row', c')
  | deleted (row : Option StoredRow) (c : Option κ) (hgives : e.gives code = none)
      (htakes : e.takes code = true) : MountChange e code (row, c) (none, none)
  /-- The retention delete leaves the dictionary alone. -/
  | purged (row : StoredRow) (c : Option κ) (hgives : e.gives code = none)
      (htakes : e.takes code = false) (hstatus : row.status = .expired) :
      MountChange e code (some row, c) (none, c)

namespace MountChange

variable {κ : Type*} {e : RegistryEvent κ} {code : Code} {m m' : Option StoredRow × Option κ}

/-- The connection after the call is what the call says, if only ONLINE rows had one before. -/
theorem connection (h : MountChange e code m m')
    (hm : m.2 ≠ none → ∃ row, m.1 = some row ∧ row.status = .online) : m'.2 = e.after code m.2 := by
  have hnone : (∀ row, m.1 = some row → row.status ≠ .online) → m.2 = none := by
    intro hrow
    by_contra hc
    obtain ⟨row, hsome, honline⟩ := hm hc
    exact hrow row hsome honline
  unfold RegistryEvent.after
  cases h with
  | untouched row c hgives htakes =>
      rw [hgives]
      cases ht : e.takes code with
      | false => simp
      | true =>
          have hrow : row = none := htakes ht
          have hc : c = none := hnone (by simp [hrow])
          simp [hc]
  | edited row row' c hgives htakes hstatus hexpiresAt => simp [hgives, htakes]
  | registered m connection agentIp createdAt expiresAt hcall hgives => simp [hgives]
  | reclaimed row c connection hgives hstatus => simp [hgives]
  | taken row row' c c' hgives htakes hexpired hexpiresAt hpopped =>
      have hc' : c' = none := by
        rcases hpopped with hpop | ⟨rfl, hstatus⟩
        · exact hpop
        · apply hnone
          intro stored hstored
          cases hstored
          exact hstatus
      simp [hgives, htakes, hc']
  | deleted row c hgives htakes => simp [hgives, htakes]
  | purged row c hgives htakes hstatus => simp [hgives, htakes]

theorem consistent (h : MountChange e code m m')
    (hm : m.2 ≠ none → ∃ row, m.1 = some row ∧ row.status = .online) (hm' : m'.2 ≠ none) :
    ∃ row, m'.1 = some row ∧ row.status = .online := by
  cases h with
  | untouched row c hgives htakes => exact hm hm'
  | edited row row' c hgives htakes hstatus hexpiresAt =>
      obtain ⟨stored, hstored, honline⟩ := hm hm'
      cases hstored
      exact ⟨row', rfl, hstatus.trans honline⟩
  | registered m connection agentIp createdAt expiresAt hcall hgives => exact ⟨_, rfl, rfl⟩
  | reclaimed row c connection hgives hstatus => exact ⟨_, rfl, rfl⟩
  | taken row row' c c' hgives htakes hexpired hexpiresAt hpopped =>
      rcases hpopped with rfl | ⟨rfl, hstatus⟩
      · exact absurd rfl hm'
      · obtain ⟨stored, hstored, honline⟩ := hm hm'
        cases hstored
        exact absurd honline hstatus
  | deleted row c hgives htakes => exact absurd rfl hm'
  | purged row c hgives htakes hstatus =>
      obtain ⟨stored, hstored, honline⟩ := hm hm'
      cases hstored
      rw [hstatus] at honline
      cases honline

/-- A row that stays keeps its expiry time, and EXPIRED is final, unless the code is registered. -/
theorem row (h : MountChange e code m m') (row row' : StoredRow) (hrow : m.1 = some row)
    (hrow' : m'.1 = some row') :
    (∃ connection agentIp createdAt expiresAt,
      e.call = .register code connection agentIp createdAt expiresAt) ∨
      (row'.expiresAt = row.expiresAt ∧ (row.status = .expired → row'.status = .expired)) := by
  cases h with
  | untouched stored c hgives htakes =>
      cases hrow
      cases hrow'
      exact .inr ⟨rfl, fun hexp => hexp⟩
  | edited stored stored' c hgives htakes hstatus hexpiresAt =>
      cases hrow
      cases hrow'
      exact .inr ⟨hexpiresAt, fun hexp => hstatus.trans hexp⟩
  | registered m connection agentIp createdAt expiresAt hcall hgives =>
      exact .inl ⟨connection, agentIp, createdAt, expiresAt, hcall⟩
  | reclaimed stored c connection hgives hstatus =>
      cases hrow
      cases hrow'
      refine .inr ⟨rfl, fun hexp => ?_⟩
      rw [hstatus] at hexp
      cases hexp
  | taken stored stored' c c' hgives htakes hexpired hexpiresAt hpopped =>
      cases hrow
      cases hrow'
      exact .inr ⟨hexpiresAt, hexpired⟩
  | deleted stored c hgives htakes => cases hrow'
  | purged stored c hgives htakes hstatus => cases hrow'

end MountChange

namespace SqliteRegistry

variable {κ : Type*}

/-- The row and the connection of a code. -/
def mount (r : SqliteRegistry κ) (code : Code) : Option StoredRow × Option κ :=
  (r.mounts code, r.connections code)

private theorem withRow_change (r : SqliteRegistry κ) (call : RegistryCall κ) (code' code : Code)
    (update : StoredRow → SqliteRegistry κ) (hgives : ∀ b, RegistryEvent.gives ⟨call, b⟩ code = none)
    (htakes : code' ≠ code → ∀ b, RegistryEvent.takes ⟨call, b⟩ code = false)
    (hframe : ∀ row, code ≠ code' → (update row).mount code = r.mount code)
    (hchange : ∀ row, r.mounts code' = some row →
      MountChange ⟨call, true⟩ code' (some row, r.connections code') ((update row).mount code')) :
    MountChange ⟨call, (r.outcome (r.withRow code' update)).2⟩ code (r.mount code)
      ((r.outcome (r.withRow code' update)).1.mount code) := by
  cases hrow : r.mounts code' with
  | none =>
      simp only [withRow, hrow, outcome]
      refine .untouched _ _ (hgives false) ?_
      intro htaken
      by_contra hsome
      have hcode : code' ≠ code := by
        rintro rfl
        exact hsome hrow
      rw [htakes hcode] at htaken
      cases htaken
  | some row =>
      simp only [withRow, hrow, outcome]
      by_cases hcode : code' = code
      · subst hcode
        have hmount : r.mount code' = (some row, r.connections code') := by rw [mount, hrow]
        rw [hmount]
        exact hchange row hrow
      · rw [hframe row fun h => hcode h.symm]
        exact .untouched _ _ (hgives true) (by simp [htakes hcode])

private theorem reclaimOutcome_change (r : SqliteRegistry κ) (call : RegistryCall κ) (code' code : Code)
    (connection : κ) (result : Option (SqliteRegistry κ × ℤ))
    (hgives : ∀ b, RegistryEvent.gives ⟨call, b⟩ code = if b ∧ code' = code then some connection else none)
    (htakes : ∀ b, RegistryEvent.takes ⟨call, b⟩ code = false)
    (hresult : ∀ r' n, result = some (r', n) →
      r' = r.reclaim code' connection ∧ ∃ row, r.mounts code' = some row ∧ row.status = .offline) :
    MountChange ⟨call, (r.reclaimOutcome result).2⟩ code (r.mount code)
      ((r.reclaimOutcome result).1.mount code) := by
  cases result with
  | none => exact .untouched _ _ (by simp [reclaimOutcome, hgives]) (by simp [htakes])
  | some p =>
      obtain ⟨r', n⟩ := p
      obtain ⟨rfl, row, hrow, hstatus⟩ := hresult r' n rfl
      by_cases hcode : code' = code
      · subst hcode
        have hreclaimed : MountChange ⟨call, true⟩ code' (some row, r.connections code')
            (some { row with status := .online }, some connection) :=
          .reclaimed row _ connection (by simp [hgives]) hstatus
        simpa [mount, reclaimOutcome, reclaim, setStatus, connect, hrow] using hreclaimed
      · have hne : code ≠ code' := fun h => hcode h.symm
        have hsame : MountChange ⟨call, true⟩ code (r.mount code) (r.mount code) :=
          .untouched _ _ (by simp [hgives, hcode]) (by simp [htakes])
        simpa [mount, reclaimOutcome, reclaim, setStatus, connect, hne] using hsame

theorem perform_change (r : SqliteRegistry κ) (now : ℚ) (call : RegistryCall κ) (code : Code) :
    MountChange ⟨call, (r.perform now call).2⟩ code (r.mount code) ((r.perform now call).1.mount code) := by
  cases call with
  | register code' connection agentIp createdAt expiresAt =>
      cases hok : r.register code' (some connection) agentIp createdAt expiresAt with
      | error err =>
          simp only [perform, hok, outcome]
          exact .untouched _ _ (by simp [RegistryEvent.gives]) (fun htakes => by cases htakes)
      | ok r' =>
          obtain ⟨-, rfl⟩ := (register_eq_ok_iff r r' code' connection agentIp createdAt expiresAt).mp hok
          simp only [perform, hok, outcome]
          by_cases hcode : code' = code
          · subst hcode
            simp only [mount, insertMount, connect, Function.update_self]
            exact .registered _ connection agentIp createdAt expiresAt rfl (by simp [RegistryEvent.gives])
          · have hne : code ≠ code' := fun h => hcode h.symm
            simp only [mount, insertMount, connect, Function.update_of_ne hne]
            exact .untouched _ _ (by simp [RegistryEvent.gives, hcode]) (fun htakes => by cases htakes)
  | deregister code' =>
      apply withRow_change r _ code' code _ (fun _ => rfl) (fun hcode _ => by simp [RegistryEvent.takes, hcode])
      · intro row hne
        simp [mount, disconnect, popSecret, hne]
      · intro row hrow
        simp only [mount, disconnect, popSecret, Function.update_self]
        exact .deleted _ _ rfl (by simp [RegistryEvent.takes])
  | markOffline code' =>
      apply withRow_change r _ code' code _ (fun _ => rfl) (fun hcode _ => by simp [RegistryEvent.takes, hcode])
      · intro row hne
        split <;> simp [mount, setStatus, disconnect, popSecret, hne]
      · intro row hrow
        split
        · rename_i hstatus
          simp only [mount, setStatus, disconnect, popSecret, hrow, Function.update_self, Option.map_some]
          refine .taken row _ _ _ rfl (by simp [RegistryEvent.takes]) ?_ rfl (.inl rfl)
          intro hexp
          rw [hstatus] at hexp
          cases hexp
        · rename_i hstatus
          simp only [mount, popSecret, hrow]
          exact .taken row row _ _ rfl (by simp [RegistryEvent.takes]) (fun hexp => hexp) rfl
            (.inr ⟨rfl, hstatus⟩)
  | expire code' =>
      apply withRow_change r _ code' code _ (fun _ => rfl) (fun hcode _ => by simp [RegistryEvent.takes, hcode])
      · intro row hne
        simp [mount, setStatus, disconnect, popSecret, hne]
      · intro row hrow
        simp only [mount, setStatus, disconnect, popSecret, hrow, Function.update_self, Option.map_some]
        exact .taken row _ _ _ rfl (by simp [RegistryEvent.takes]) (fun _ => rfl) rfl (.inl rfl)
  | markTtlWarned code' =>
      apply withRow_change r _ code' code _ (fun _ => rfl) (fun _ _ => rfl)
      · intro row hne
        simp [mount, insertMount, hne]
      · intro row hrow
        simp only [mount, insertMount, Function.update_self]
        exact .edited row _ _ rfl rfl rfl rfl
  | tryReclaim code' connection agentIp =>
      apply reclaimOutcome_change r _ code' code connection _ (fun _ => rfl) (fun _ => rfl)
      intro r' n hsome
      obtain ⟨row, hrow, hstatus, -, -, rfl, -⟩ :=
        (tryReclaim_eq_some_iff r r' now code' connection agentIp n).mp hsome
      exact ⟨rfl, row, hrow, hstatus⟩
  | tryReclaimAsOwner code' connection ownerUserId =>
      apply reclaimOutcome_change r _ code' code connection _ (fun _ => rfl) (fun _ => rfl)
      intro r' n hsome
      obtain ⟨row, hrow, hstatus, -, -, rfl, -⟩ :=
        (tryReclaimAsOwner_eq_some_iff r r' now code' connection ownerUserId n).mp hsome
      exact ⟨rfl, row, hrow, hstatus⟩
  | setOwnerPolicy code' ownerUserId policy =>
      apply withRow_change r _ code' code _ (fun _ => rfl) (fun _ _ => rfl)
      · intro row hne
        simp [mount, insertMount, hne]
      · intro row hrow
        simp only [mount, insertMount, Function.update_self]
        exact .edited row _ _ rfl rfl rfl rfl
  | deleteExpiredBefore cutoff =>
      cases hrow : r.mounts code with
      | none =>
          simp only [perform, deleteExpiredBefore, mount, hrow, Option.filter_none]
          exact .untouched _ _ rfl (fun _ => rfl)
      | some row =>
          simp only [perform, deleteExpiredBefore, mount, hrow, Option.filter_some]
          split
          · exact .untouched _ _ rfl (fun htakes => by cases htakes)
          · rename_i hdelete
            have hexpired : row.status = .expired := by
              by_contra hne
              exact hdelete (by simp [hne])
            exact .purged row _ rfl rfl hexpired
  | restart =>
      cases hrow : r.mounts code with
      | none =>
          simp only [perform, restart, startupCleanup, deleteExpiredBefore, mount, hrow, Option.filter_none,
            Option.map_none]
          exact .deleted _ _ rfl rfl
      | some row =>
          simp only [perform, restart, startupCleanup, deleteExpiredBefore, mount, hrow, Option.filter_some]
          split
          · exact .taken row _ _ _ rfl rfl (cleanedRow_status now row).2 (cleanedRow_expiresAt now row)
              (.inl rfl)
          · exact .deleted _ _ rfl rfl

end SqliteRegistry

/-- The registry of the running relay and the calls since the first start. -/
structure RegistryRun (κ : Type*) where
  registry : SqliteRegistry κ
  history : List (RegistryEvent κ)

namespace RegistryRun

variable {κ : Type*}

/-- The first `create`, over whatever the database holds. -/
def create (now : ℚ) (mounts : Code → Option StoredRow) (policy : Code → List PolicyEntry) :
    RegistryRun κ :=
  ⟨SqliteRegistry.restart ⟨mounts, policy, fun _ => none, fun _ => none⟩ now, []⟩

def step (s : RegistryRun κ) (a : ℚ × RegistryCall κ) : Option (RegistryRun κ) :=
  let result := s.registry.perform a.1 a.2
  some ⟨result.1, s.history ++ [⟨a.2, result.2⟩]⟩

structure Inv (s : RegistryRun κ) : Prop where
  consistent : s.registry.Consistent
  connections : ∀ code connection, s.registry.connections code = some connection ↔
    RegistryEvent.Latest s.history code connection

theorem inv_create (now : ℚ) (mounts : Code → Option StoredRow) (policy : Code → List PolicyEntry) :
    Inv (create now mounts policy : RegistryRun κ) where
  consistent := by
    intro code connection hc
    cases hc
  connections := by
    intro code connection
    constructor
    · intro hc
      cases hc
    · rintro ⟨earlier, e, later, hnil, -⟩
      simp [create] at hnil

theorem inv_step (s : RegistryRun κ) (a : ℚ × RegistryCall κ) (t : RegistryRun κ) (hs : s.Inv)
    (h : s.step a = some t) : t.Inv := by
  obtain ⟨now, call⟩ := a
  cases h
  have hbefore : ∀ code, (s.registry.mount code).2 ≠ none →
      ∃ row, (s.registry.mount code).1 = some row ∧ row.status = .online := by
    intro code hc
    obtain ⟨connection, hconnection⟩ := Option.ne_none_iff_exists'.mp hc
    exact hs.consistent code connection hconnection
  refine ⟨?_, ?_⟩
  · intro code connection hc
    have hc' : ((s.registry.perform now call).1.mount code).2 = some connection := hc
    exact (s.registry.perform_change now call code).consistent (hbefore code) (by simp [hc'])
  · intro code connection
    have hafter := (s.registry.perform_change now call code).connection (hbefore code)
    simp only [SqliteRegistry.mount] at hafter
    rw [hafter, RegistryEvent.after_eq_some_iff, RegistryEvent.latest_concat, hs.connections]

/-- The registry over any run: connections only under ONLINE rows; `get_connection` returns what the
latest successful register or reclaim was given, while it lasts; EXPIRED is left and an expiry time
is changed by a register only. -/
theorem registry_run (now : ℚ) (mounts : Code → Option StoredRow) (policy : Code → List PolicyEntry)
    (calls : List (ℚ × RegistryCall κ)) (s : RegistryRun κ)
    (hrun : TransitionSystem.run step (create now mounts policy) calls = some s) :
    (∀ code, s.registry.connections code ≠ none →
      ∃ row, s.registry.mounts code = some row ∧ row.status = .online) ∧
    (∀ closed code connection, s.registry.getConnection closed code = .ok connection ↔
      RegistryEvent.Latest s.history code connection ∧ closed connection = false) ∧
    ∀ a t, s.step a = some t → ∀ code row row', s.registry.mounts code = some row →
      t.registry.mounts code = some row' →
      (row.status = .expired ∧ row'.status ≠ .expired) ∨ row'.expiresAt ≠ row.expiresAt →
      ∃ connection agentIp createdAt expiresAt,
        a.2 = .register code connection agentIp createdAt expiresAt := by
  have hs : s.Inv := TransitionSystem.run_invariant step Inv inv_step (inv_create now mounts policy) hrun
  refine ⟨?_, ?_, ?_⟩
  · intro code hc
    obtain ⟨connection, hconnection⟩ := Option.ne_none_iff_exists'.mp hc
    exact hs.consistent code connection hconnection
  · intro closed code connection
    rw [SqliteRegistry.getConnection_eq_ok_iff, ← hs.connections]
    constructor
    · rintro ⟨-, hc, hopen⟩
      exact ⟨hc, hopen⟩
    · rintro ⟨hc, hopen⟩
      exact ⟨hs.consistent code connection hc, hc, hopen⟩
  · intro a t h code row row' hrow hrow' hchanged
    cases h
    rcases (s.registry.perform_change a.1 a.2 code).row row row' hrow hrow' with hregister | ⟨hexp, hfinal⟩
    · exact hregister
    · rcases hchanged with ⟨hexpired, hnot⟩ | hne
      · exact absurd (hfinal hexpired) hnot
      · exact absurd hexp hne

/-- The agent comes back from the same address before the mount expires. -/
def comeBack : List (ℚ × RegistryCall (Fin 2)) :=
  [(0, .register "photos" 0 "10.0.0.7" 0 (some 100)), (10, .markOffline "photos"),
    (20, .tryReclaim "photos" 1 "10.0.0.7")]

theorem registry_run_comeBack :
    ∃ s, TransitionSystem.run step (create 0 (fun _ => none) fun _ => []) comeBack = some s ∧
      s.registry.getConnection (fun _ => false) "photos" = .ok 1 ∧
      RegistryEvent.Latest s.history "photos" 1 := by
  have heval : (TransitionSystem.run step (create 0 (fun _ => none) fun _ => []) comeBack).any
      (fun s => decide ((s.registry.getConnection (fun _ => false) "photos").toOption = some 1)) = true := by
    decide +kernel
  obtain ⟨s, hrun, hs⟩ := (Option.any_eq_true _ _).mp heval
  have hconn : s.registry.getConnection (fun _ => false) "photos" = .ok 1 := by
    have hopt := of_decide_eq_true hs
    cases hget : s.registry.getConnection (fun _ => false) "photos" with
    | error err => simp [hget, Except.toOption] at hopt
    | ok connection =>
        rw [hget] at hopt
        cases hopt
        rfl
  have hlatest := ((registry_run 0 _ _ comeBack s hrun).2.1 (fun _ => false) "photos" 1).mp hconn
  exact ⟨s, hrun, hconn, hlatest.1⟩

end RegistryRun

end NetworkFileServer.Relay
