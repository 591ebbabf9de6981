import Mathlib.Data.List.Nodup
import Mathlib.Data.Set.Card
import NetworkFileServer.Relay.MountDatabase
import NetworkFileServer.Relay.MountSystem

/-!
# The cap on the mounts of an address

`agent_websocket` counts the mounts of the client's address before it accepts the WebSocket. The row
is written after the handshake, and by then other connections may have written theirs.

The check is added to the sessions here, with the list of the codes that have or had a row: the count is
over that list.
-/

namespace NetworkFileServer.Relay

section

variable (codes : List Code) (mounts : Code → Option MountRow) (agentIp : String)

/-- The row of the code is one that `count_mounts_by_ip` counts. -/
def countedFor (code : Code) : Bool := (mounts code).any (MountRow.countsFor agentIp)

theorem countMountsByIp_update (hnodup : codes.Nodup)
    (hlisted : ∀ code, (mounts code).isSome = true → code ∈ codes) (code : Code) (row : Option MountRow)
    (hrow : row.isSome = true → code ∈ codes) :
    countMountsByIp codes (Function.update mounts code row) agentIp +
        (if countedFor mounts agentIp code then 1 else 0) =
      countMountsByIp codes mounts agentIp + if row.any (MountRow.countsFor agentIp) then 1 else 0 := by
  by_cases hcode : code ∈ codes
  · have hchange := KeyedTable.countP_of_change codes code (countedFor mounts agentIp)
      (countedFor (Function.update mounts code row) agentIp) hnodup hcode (by
        intro code' _ hne
        simp [countedFor, hne])
    have hafter : countedFor (Function.update mounts code row) agentIp code =
        row.any (MountRow.countsFor agentIp) := by
      simp [countedFor]
    rw [hafter] at hchange
    exact hchange
  · have hnone : row = none := by
      cases row with
      | none => rfl
      | some row => exact absurd (hrow rfl) hcode
    have hold : mounts code = none := by
      cases hmount : mounts code with
      | none => rfl
      | some old => exact absurd (hlisted code (by simp [hmount])) hcode
    subst hnone
    rw [Function.update_eq_self_iff.mpr hold.symm]
    simp [countedFor, hold]

theorem countMountsByIp_insert (hlisted : ∀ code, (mounts code).isSome = true → code ∈ codes) (code : Code) :
    countMountsByIp (codes.insert code) mounts agentIp = countMountsByIp codes mounts agentIp := by
  by_cases hcode : code ∈ codes
  · rw [List.insert_of_mem hcode]
  · have hnone : mounts code = none := by
      cases hmount : mounts code with
      | none => rfl
      | some row => exact absurd (hlisted code (by simp [hmount])) hcode
    rw [List.insert_of_not_mem hcode]
    simp [countMountsByIp, hnone]

end

/-- The table after the statement that a session awaits. -/
def sessionMounts {ι : Type*} (auth : AgentAuth) (r : Registry ι) : SessionPc → Code → Option MountRow
  | .registerInsert code => if code = "" then r.mounts else (r.insertMount code auth.clientIp).mounts
  | .reclaimUpdate code => (r.setStatus code .online).mounts
  | .offlineUpdate code => (r.setStatus code .offline).mounts
  | .policyUpdate code _ =>
      (r.setPolicyColumns code auth.ownerUserId auth.policy.accessMode auth.policy.hasPassword).mounts
  | _ => r.mounts

theorem sessionStep_mounts {ι : Type*} (auth : AgentAuth) (i : ι) (r r' : Registry ι) (answer : Answer)
    (pc pc' : SessionPc) (h : sessionStep auth i r answer pc = some (r', pc')) :
    r'.mounts = sessionMounts auth r pc := by
  cases pc with
  | connecting =>
      simp only [sessionStep] at h
      split at h <;> cases h <;> rfl
  | reclaimSelect code asOwner =>
      simp only [sessionStep] at h
      split at h
      · cases h
        rfl
      · split at h <;> cases h <;> rfl
  | registerInsert code =>
      simp only [sessionStep] at h
      split at h
      · rename_i hempty
        cases h
        simp [sessionMounts, hempty]
      · rename_i hne
        cases h
        simp [sessionMounts, hne]
  | policyUpdate code reclaimed =>
      simp only [sessionStep] at h
      split at h
      · cases h
        rfl
      · -- without a row the UPDATE finds nothing
        rename_i hgone
        cases h
        have hnone : r.mounts code = none := by simpa using hgone
        simp only [sessionMounts, Registry.setPolicyColumns, hnone, Option.map_none]
        exact (Function.update_eq_self_iff.mpr hnone.symm).symm
  | policyInsert code reclaimed rest => cases rest <;> cases h <;> rfl
  | ended => cases h
  | _ =>
      cases h
      rfl

theorem sessionMounts_expired {ι : Type*} (auth : AgentAuth) (r : Registry ι) (pc : SessionPc) {code : Code}
    {row : MountRow} (hrow : sessionMounts auth r pc code = some row) (hexpired : row.status = .expired) :
    ∃ old, r.mounts code = some old ∧ old.agentIp = row.agentIp ∧ old.status = .expired := by
  have hupdate : ∀ (code' : Code) (change : MountRow → MountRow),
      (∀ old, (change old).status = .expired → old.agentIp = (change old).agentIp ∧ old.status = .expired) →
      Function.update r.mounts code' ((r.mounts code').map change) code = some row →
      ∃ old, r.mounts code = some old ∧ old.agentIp = row.agentIp ∧ old.status = .expired := by
    intro code' change hchange hrow
    by_cases heq : code = code'
    · subst heq
      rw [Function.update_self] at hrow
      obtain ⟨old, hold, rfl⟩ := Option.map_eq_some_iff.mp hrow
      exact ⟨old, hold, hchange old hexpired⟩
    · rw [Function.update_of_ne heq] at hrow
      exact ⟨row, hrow, rfl, hexpired⟩
  cases pc with
  | registerInsert code' =>
      simp only [sessionMounts] at hrow
      split at hrow
      · exact ⟨row, hrow, rfl, hexpired⟩
      · by_cases heq : code = code'
        · subst heq
          simp only [Registry.insertMount, Function.update_self, Option.some.injEq] at hrow
          subst hrow
          cases hexpired
        · simp only [Registry.insertMount, Function.update_of_ne heq] at hrow
          exact ⟨row, hrow, rfl, hexpired⟩
  | reclaimUpdate code' => exact hupdate code' _ (fun old h => by cases h) hrow
  | offlineUpdate code' => exact hupdate code' _ (fun old h => by cases h) hrow
  | policyUpdate code' reclaimed =>
      simp only [sessionMounts, Registry.setPolicyColumns] at hrow
      refine hupdate code' _ ?_ hrow
      intro old h
      exact ⟨rfl, h⟩
  | _ => exact ⟨row, hrow, rfl, hexpired⟩

/-- The INSERT of `register` is still to come. -/
def SessionPc.beforeInsert : SessionPc → Bool
  | .connecting | .reclaimSelect _ _ | .hasMount _ | .registerInsert _ => true
  | _ => false

/-- The code whose status the awaited statement sets, after a SELECT that has looked at it. -/
def SessionPc.setsStatus : SessionPc → Option Code
  | .reclaimUpdate code | .offlineUpdate code => some code
  | _ => none

theorem sessionStep_beforeInsert {ι : Type*} {auth : AgentAuth} {i : ι} {r r' : Registry ι} {answer : Answer}
    {pc pc' : SessionPc} (h : sessionStep auth i r answer pc = some (r', pc')) (hpc' : pc'.beforeInsert = true) :
    pc.beforeInsert = true ∧ ∀ code, pc ≠ .registerInsert code := by
  cases pc with
  | connecting | reclaimSelect _ _ | hasMount _ => exact ⟨rfl, by simp⟩
  | registerInsert code =>
      simp only [sessionStep] at h
      split at h <;> cases h <;> cases hpc'
  | policyUpdate code reclaimed =>
      simp only [sessionStep] at h
      split at h <;> cases h <;> cases hpc'
  | policyInsert code reclaimed rest => cases rest <;> cases h <;> cases hpc'
  | sendRegistered code reclaimed => cases reclaimed <;> cases h <;> cases hpc'
  | getExpired code =>
      cases h
      split at hpc' <;> cases hpc'
  | offlineSelect code =>
      cases h
      split at hpc' <;> cases hpc'
  | ended => cases h
  | _ =>
      cases h
      cases hpc'

theorem sessionStep_setsStatus {ι : Type*} {auth : AgentAuth} {i : ι} {r r' : Registry ι} {answer : Answer}
    {pc pc' : SessionPc} (h : sessionStep auth i r answer pc = some (r', pc')) {code : Code}
    (hcode : pc'.setsStatus = some code) : ∀ row, r'.mounts code = some row → row.status ≠ .expired := by
  cases pc with
  | connecting =>
      simp only [sessionStep] at h
      split at h <;> cases h <;> cases hcode
  | reclaimSelect code' asOwner =>
      simp only [sessionStep] at h
      split at h
      · rename_i hreclaimable
        cases h
        cases hcode
        intro row hrow
        have hoffline : row.status = .offline := by
          simp only [Registry.reclaimable, hrow, Bool.and_eq_true, decide_eq_true_eq] at hreclaimable
          exact hreclaimable.1.1
        rw [hoffline]
        decide
      · split at h <;> cases h <;> cases hcode
  | registerInsert code' =>
      simp only [sessionStep] at h
      split at h <;> cases h <;> cases hcode
  | policyUpdate code' reclaimed =>
      simp only [sessionStep] at h
      split at h <;> cases h <;> cases hcode
  | policyInsert code' reclaimed rest => cases rest <;> cases h <;> cases hcode
  | sendRegistered code' reclaimed => cases reclaimed <;> cases h <;> cases hcode
  | getExpired code' =>
      cases h
      split at hcode <;> cases hcode
  | offlineSelect code' =>
      cases h
      split at hcode
      · rename_i honline
        cases hcode
        intro row hrow
        have honline : row.status = .online := by simpa [Registry.isOnline, hrow] using honline
        rw [honline]
        decide
      · cases hcode
  | ended => cases h
  | _ =>
      cases h
      cases hcode

/-- A session goes on by an action of its own. Any other action leaves the sessions alone, or ends one or closes its
connection. -/
theorem MountSystem.step_session_cases {ι ρ : Type*} [DecidableEq ι] [DecidableEq ρ] {auth : ι → AgentAuth}
    {req : ρ → ProxyRequest} {s t : MountSystem ι ρ} {a : MountAction ι ρ} (h : s.step auth req a = some t) :
    (∃ i answer pc, a = .session i answer ∧ t.session = Function.update s.session i pc ∧
      sessionStep (auth i) i s.registry answer (s.session i) = some (t.registry, pc)) ∨
    (∀ i answer, a ≠ .session i answer) ∧ (t.session = s.session ∨
      ∃ i pc, t.session = Function.update s.session i pc ∧ pc.beforeInsert = false ∧ pc.setsStatus = none) := by
  cases a with
  | session i answer =>
      obtain ⟨⟨r, pc⟩, hpc, rfl⟩ := Option.map_eq_some_iff.mp h
      refine .inl ⟨i, answer, pc, rfl, ?_⟩
      cases pc <;> exact ⟨rfl, hpc⟩
  | sessionFail i =>
      obtain ⟨pc, hpc, rfl⟩ := Option.map_eq_some_iff.mp h
      refine .inr ⟨by simp, .inr ⟨i, pc, ?_⟩⟩
      unfold sessionFail at hpc
      split at hpc <;> cases hpc <;> exact ⟨rfl, rfl, rfl⟩
  | connClosed i =>
      cases h
      exact .inr ⟨by simp, .inl rfl⟩
  | request k store =>
      obtain ⟨pc, -, rfl⟩ := Option.map_eq_some_iff.mp h
      exact .inr ⟨by simp, .inl rfl⟩
  | requestFail k =>
      simp only [MountSystem.step] at h
      split at h <;> cases h
      exact .inr ⟨by simp, .inl rfl⟩
  | sweepExpire code =>
      simp only [MountSystem.step] at h
      split at h <;> cases h
      exact .inr ⟨by simp, .inl rfl⟩
  | sweepPop =>
      obtain ⟨code, -, rfl⟩ := Option.map_eq_some_iff.mp h
      exact .inr ⟨by simp, .inl rfl⟩
  | sweepDelete code =>
      simp only [MountSystem.step] at h
      split at h <;> cases h
      exact .inr ⟨by simp, .inl rfl⟩

theorem MountSystem.step_expired {ι ρ : Type*} [DecidableEq ι] [DecidableEq ρ] {auth : ι → AgentAuth}
    {req : ρ → ProxyRequest} {s t : MountSystem ι ρ} {a : MountAction ι ρ} (h : s.step auth req a = some t)
    {code : Code} {row : MountRow} (hrow : t.registry.mounts code = some row) (hexpired : row.status = .expired) :
    ∃ old, s.registry.mounts code = some old ∧ old.agentIp = row.agentIp ∧
      (old.status = .expired ∨ a = .sweepExpire code) := by
  have hsame : t.registry.mounts = s.registry.mounts → ∃ old, s.registry.mounts code = some old ∧
      old.agentIp = row.agentIp ∧ (old.status = .expired ∨ a = .sweepExpire code) := by
    intro heq
    exact ⟨row, heq ▸ hrow, rfl, .inl hexpired⟩
  cases a with
  | session i answer =>
      obtain ⟨⟨r, pc⟩, hpc, rfl⟩ := Option.map_eq_some_iff.mp h
      have hmounts : r.mounts code = some row := by cases pc <;> exact hrow
      rw [sessionStep_mounts _ _ _ _ _ _ _ hpc] at hmounts
      obtain ⟨old, hold, hip, hwas⟩ := sessionMounts_expired _ _ _ hmounts hexpired
      exact ⟨old, hold, hip, .inl hwas⟩
  | sessionFail i =>
      obtain ⟨pc, -, rfl⟩ := Option.map_eq_some_iff.mp h
      exact hsame (by cases pc <;> rfl)
  | connClosed i =>
      cases h
      exact hsame rfl
  | request k store =>
      obtain ⟨pc, -, rfl⟩ := Option.map_eq_some_iff.mp h
      exact hsame rfl
  | requestFail k =>
      simp only [MountSystem.step] at h
      split at h <;> cases h
      exact hsame rfl
  | sweepExpire code' =>
      simp only [MountSystem.step] at h
      split at h <;> cases h
      by_cases heq : code = code'
      · subst heq
        simp only [Registry.setStatus, Function.update_self] at hrow
        obtain ⟨old, hold, rfl⟩ := Option.map_eq_some_iff.mp hrow
        exact ⟨old, hold, rfl, .inr rfl⟩
      · simp only [Registry.setStatus, Function.update_of_ne heq] at hrow
        exact ⟨row, hrow, rfl, .inl hexpired⟩
  | sweepPop =>
      obtain ⟨code', -, rfl⟩ := Option.map_eq_some_iff.mp h
      exact hsame rfl
  | sweepDelete code' =>
      simp only [MountSystem.step] at h
      split at h <;> cases h
      by_cases heq : code = code'
      · subst heq
        simp only [Registry.deleteExpired, Function.update_self] at hrow
        exact ⟨row, (Option.filter_eq_some_iff.mp hrow).1, rfl, .inl hexpired⟩
      · simp only [Registry.deleteExpired, Function.update_of_ne heq] at hrow
        exact ⟨row, hrow, rfl, .inl hexpired⟩

structure CapSystem (ι ρ : Type*) where
  relay : MountSystem ι ρ
  /-- Every code with a row is in the list. -/
  codes : List Code
  /-- The session has passed the check. -/
  checked : ι → Bool

inductive CapAction (ι ρ : Type*) where
  /-- The SELECT of `count_mounts_by_ip`. -/
  | checkCap (i : ι)
  | relay (a : MountAction ι ρ)

namespace CapSystem

variable {ι ρ : Type*}

def start (mounts : Code → Option MountRow) (policy : Code → List PolicyEntry) (codes : List Code) :
    CapSystem ι ρ :=
  ⟨MountSystem.start mounts policy, codes, fun _ => false⟩

def count (s : CapSystem ι ρ) (agentIp : String) : Nat :=
  countMountsByIp s.codes s.relay.registry.mounts agentIp

/-- A session goes on to its handshake when it has passed the check. -/
def admits (s : CapSystem ι ρ) : MountAction ι ρ → Bool
  | .session i _ => s.relay.session i ≠ .connecting || s.checked i
  | _ => true

def codesAfter (s : CapSystem ι ρ) : MountAction ι ρ → List Code
  | .session i _ =>
      match s.relay.session i with
      | .registerInsert code => s.codes.insert code
      | _ => s.codes
  | _ => s.codes

/-- A refused client is told so, and its handler returns. -/
def step [DecidableEq ι] [DecidableEq ρ] (auth : ι → AgentAuth) (req : ρ → ProxyRequest)
    (maxMountsPerIp : Nat) (s : CapSystem ι ρ) : CapAction ι ρ → Option (CapSystem ι ρ)
  | .checkCap i =>
      if s.relay.session i = .connecting ∧ s.checked i = false then
        if s.count (auth i).clientIp ≥ maxMountsPerIp then
          some { s with relay := s.relay.setSession i .ended }
        else some { s with checked := Function.update s.checked i true }
      else none
  | .relay a =>
      if s.admits a then
        (s.relay.step auth req a).map fun m => { s with relay := m, codes := s.codesAfter a }
      else none

/-- The session has passed the check for the address, and its INSERT is still to come. -/
def waits (auth : ι → AgentAuth) (agentIp : String) (s : CapSystem ι ρ) (j : ι) : Bool :=
  (auth j).clientIp = agentIp && (s.relay.session j).beforeInsert &&
    (s.relay.session j ≠ .connecting || s.checked j)

def waiting (auth : ι → AgentAuth) (agentIp : String) (s : CapSystem ι ρ) : Set ι :=
  {j | s.waits auth agentIp j = true}

/-- A check that passes finds room for the sessions that have passed it and are still to insert, too, and the sweep
expires no row of the address that a reclaim or a `mark_offline` has looked at and is about to update. -/
def ChecksAlone (auth : ι → AgentAuth) (maxMountsPerIp : Nat) (agentIp : String) (s : CapSystem ι ρ) :
    CapAction ι ρ → Prop
  | .checkCap i =>
      (auth i).clientIp = agentIp → s.count agentIp < maxMountsPerIp →
        s.count agentIp + (s.waiting auth agentIp).encard < maxMountsPerIp
  | .relay (.sweepExpire code) =>
      (s.relay.registry.mounts code).any (fun row => row.agentIp = agentIp) = true →
        ∀ j, (s.relay.session j).setsStatus ≠ some code
  | _ => True

theorem encard_waiting [Fintype ι] (auth : ι → AgentAuth) (agentIp : String) (s : CapSystem ι ρ) :
    (s.waiting auth agentIp).encard = (Finset.univ.filter fun j => s.waits auth agentIp j = true).card := by
  rw [← Set.encard_coe_eq_coe_finsetCard, Finset.coe_filter_univ]
  rfl

instance decidableChecksAlone [Fintype ι] (auth : ι → AgentAuth) (maxMountsPerIp : Nat) (agentIp : String)
    (s : CapSystem ι ρ) (a : CapAction ι ρ) : Decidable (s.ChecksAlone auth maxMountsPerIp agentIp a) :=
  match a with
  | .checkCap i =>
      decidable_of_iff ((auth i).clientIp = agentIp → s.count agentIp < maxMountsPerIp →
          s.count agentIp + (Finset.univ.filter fun j => s.waits auth agentIp j = true).card < maxMountsPerIp) (by
        rw [ChecksAlone, encard_waiting]
        norm_cast)
  | .relay (.sweepExpire code) =>
      inferInstanceAs (Decidable ((s.relay.registry.mounts code).any (fun row => row.agentIp = agentIp) = true →
        ∀ j, (s.relay.session j).setsStatus ≠ some code))
  | .relay (.session _ _) | .relay (.sessionFail _) | .relay (.connClosed _) | .relay (.request _ _)
  | .relay (.requestFail _) | .relay .sweepPop | .relay (.sweepDelete _) => isTrue trivial

/-- The list of codes is one for the table. -/
structure Listed (s : CapSystem ι ρ) : Prop where
  nodup : s.codes.Nodup
  listed : ∀ code, (s.relay.registry.mounts code).isSome = true → code ∈ s.codes

def WithinCap (maxMountsPerIp : Nat) (agentIp : String) (s : CapSystem ι ρ) : Prop :=
  s.count agentIp ≤ maxMountsPerIp

/-- One row is written, and its code is in the list afterwards. -/
structure WritesRow (s t : CapSystem ι ρ) (code : Code) (row : Option MountRow) : Prop where
  mounts : t.relay.registry.mounts = Function.update s.relay.registry.mounts code row
  codes : t.codes = s.codes ∨ t.codes = s.codes.insert code
  listed : row.isSome = true → code ∈ t.codes

theorem WritesRow.listedAfter {s t : CapSystem ι ρ} {code : Code} {row : Option MountRow}
    (hs : s.Listed) (h : WritesRow s t code row) : t.Listed := by
  have hsub : ∀ c ∈ s.codes, c ∈ t.codes := by
    intro c hc
    rcases h.codes with heq | heq
    · rwa [heq]
    · rw [heq]
      exact List.mem_insert_of_mem hc
  constructor
  · rcases h.codes with heq | heq
    · rw [heq]
      exact hs.nodup
    · rw [heq]
      exact hs.nodup.insert
  · intro c hc
    rw [h.mounts] at hc
    by_cases heq : c = code
    · subst heq
      rw [Function.update_self] at hc
      exact h.listed hc
    · rw [Function.update_of_ne heq] at hc
      exact hsub c (hs.listed c hc)

theorem WritesRow.count {s t : CapSystem ι ρ} {code : Code} {row : Option MountRow}
    (hs : s.Listed) (h : WritesRow s t code row) (agentIp : String) :
    t.count agentIp + (if countedFor s.relay.registry.mounts agentIp code then 1 else 0) =
      s.count agentIp + if row.any (MountRow.countsFor agentIp) then 1 else 0 := by
  have hnodup := (h.listedAfter hs).nodup
  have hcodes : countMountsByIp t.codes s.relay.registry.mounts agentIp = s.count agentIp ∧
      ∀ c, (s.relay.registry.mounts c).isSome = true → c ∈ t.codes := by
    rcases h.codes with heq | heq
    · rw [heq]
      exact ⟨rfl, hs.listed⟩
    · rw [heq]
      refine ⟨countMountsByIp_insert s.codes _ agentIp hs.listed code, ?_⟩
      intro c hc
      exact List.mem_insert_of_mem (hs.listed c hc)
  have hupdate := countMountsByIp_update t.codes s.relay.registry.mounts agentIp hnodup hcodes.2 code row
    h.listed
  rw [hcodes.1, ← h.mounts] at hupdate
  exact hupdate

theorem writesRow_of_mounts_eq {s t : CapSystem ι ρ} (hs : s.Listed) (code : Code)
    (hmounts : t.relay.registry.mounts = s.relay.registry.mounts)
    (hcodes : t.codes = s.codes ∨ t.codes = s.codes.insert code) :
    WritesRow s t code (s.relay.registry.mounts code) := by
  refine ⟨by rw [hmounts, Function.update_eq_self], hcodes, ?_⟩
  intro hrow
  rcases hcodes with heq | heq
  · rw [heq]
    exact hs.listed code hrow
  · rw [heq]
    exact List.mem_insert_self

theorem writesRow_of_map {s t : CapSystem ι ρ} (hs : s.Listed) (code : Code) (change : MountRow → MountRow)
    (hmounts : t.relay.registry.mounts = Function.update s.relay.registry.mounts code
      ((s.relay.registry.mounts code).map change)) (hcodes : t.codes = s.codes) :
    WritesRow s t code ((s.relay.registry.mounts code).map change) := by
  refine ⟨hmounts, .inl hcodes, ?_⟩
  intro hrow
  rw [hcodes]
  exact hs.listed code (by simpa using hrow)

theorem session_writes {s t : CapSystem ι ρ} (hs : s.Listed) (auth : ι → AgentAuth) (i : ι) (answer : Answer)
    (hmounts : t.relay.registry.mounts = sessionMounts (auth i) s.relay.registry (s.relay.session i))
    (hcodes : t.codes = s.codesAfter (.session i answer)) (agentIp : String) :
    (∃ code, s.relay.session i = .registerInsert code ∧ code ≠ "" ∧
        WritesRow s t code (some ⟨.online, (auth i).clientIp, none, .open, false⟩)) ∨
      (∃ code status, (s.relay.session i = .reclaimUpdate code ∨ s.relay.session i = .offlineUpdate code) ∧
        status ≠ .expired ∧ WritesRow s t code
          ((s.relay.registry.mounts code).map fun row => { row with status := status })) ∨
      ∃ code row, WritesRow s t code row ∧
        (row.any (MountRow.countsFor agentIp) = true → countedFor s.relay.registry.mounts agentIp code = true) := by
  cases hpc : s.relay.session i with
  | registerInsert code =>
      simp only [hpc, sessionMounts] at hmounts
      have hinsert : t.codes = s.codes.insert code := by simpa [codesAfter, hpc] using hcodes
      by_cases hempty : code = ""
      · right
        right
        rw [if_pos hempty] at hmounts
        exact ⟨code, _, writesRow_of_mounts_eq hs code hmounts (.inr hinsert), id⟩
      · left
        rw [if_neg hempty] at hmounts
        refine ⟨code, rfl, hempty, hmounts, .inr hinsert, ?_⟩
        rw [hinsert]
        intro _
        exact List.mem_insert_self
  | reclaimUpdate code =>
      simp only [hpc, sessionMounts] at hmounts
      exact .inr (.inl ⟨code, .online, .inl rfl, by decide,
        writesRow_of_map hs code _ hmounts (by simpa [codesAfter, hpc] using hcodes)⟩)
  | offlineUpdate code =>
      simp only [hpc, sessionMounts] at hmounts
      exact .inr (.inl ⟨code, .offline, .inr rfl, by decide,
        writesRow_of_map hs code _ hmounts (by simpa [codesAfter, hpc] using hcodes)⟩)
  | policyUpdate code reclaimed =>
      simp only [hpc, sessionMounts] at hmounts
      refine .inr (.inr ⟨code, _,
        writesRow_of_map hs code _ hmounts (by simpa [codesAfter, hpc] using hcodes), ?_⟩)
      cases hrow : s.relay.registry.mounts code <;> simp [countedFor, hrow, MountRow.countsFor]
  | _ =>
      simp only [hpc, sessionMounts] at hmounts
      have hsame : t.codes = s.codes := by simpa [codesAfter, hpc] using hcodes
      exact .inr (.inr ⟨"", _, writesRow_of_mounts_eq hs "" hmounts (.inl hsame), id⟩)

theorem mem_waiting {auth : ι → AgentAuth} {agentIp : String} {s : CapSystem ι ρ} {j : ι} :
    j ∈ s.waiting auth agentIp ↔ (auth j).clientIp = agentIp ∧ (s.relay.session j).beforeInsert = true ∧
      (s.relay.session j ≠ .connecting ∨ s.checked j = true) := by
  simp [waiting, waits, and_assoc]

/-- A session that goes on to a position before its INSERT has been in one, with the check passed. -/
theorem waiting_subset {s t : CapSystem ι ρ} [DecidableEq ι] (auth : ι → AgentAuth) (agentIp : String) {i : ι}
    {pc : SessionPc} (hsession : t.relay.session = Function.update s.relay.session i pc)
      (hchecked : t.checked = s.checked)
    (hpc : pc.beforeInsert = true → (s.relay.session i).beforeInsert = true ∧
      (s.relay.session i ≠ .connecting ∨ s.checked i = true)) :
    t.waiting auth agentIp ⊆ s.waiting auth agentIp := by
  intro j hj
  rw [mem_waiting, hsession, hchecked] at hj
  obtain ⟨hip, hbefore, hpassed⟩ := hj
  rw [mem_waiting]
  by_cases hji : j = i
  · subst hji
    rw [Function.update_self] at hbefore
    exact ⟨hip, hpc hbefore⟩
  · rw [Function.update_of_ne hji] at hbefore hpassed
    exact ⟨hip, hbefore, hpassed⟩

section

variable [DecidableEq ι] [DecidableEq ρ] (auth : ι → AgentAuth) (req : ρ → ProxyRequest)
  (maxMountsPerIp : Nat) (agentIp : String)

/-- What a step can write: a registration, a status other than EXPIRED, or a row that does not begin to
count. -/
theorem step_writes (s t : CapSystem ι ρ) (a : CapAction ι ρ) (hs : s.Listed)
    (h : s.step auth req maxMountsPerIp a = some t) :
    (∃ i answer code, a = .relay (.session i answer) ∧ s.relay.session i = .registerInsert code ∧
        code ≠ "" ∧ WritesRow s t code (some ⟨.online, (auth i).clientIp, none, .open, false⟩)) ∨
      (∃ i answer code status, a = .relay (.session i answer) ∧
        (s.relay.session i = .reclaimUpdate code ∨ s.relay.session i = .offlineUpdate code) ∧
        status ≠ .expired ∧ WritesRow s t code
          ((s.relay.registry.mounts code).map fun row => { row with status := status })) ∨
      ∃ code row, WritesRow s t code row ∧
        (row.any (MountRow.countsFor agentIp) = true → countedFor s.relay.registry.mounts agentIp code = true) := by
  have hunwritten : t.relay.registry.mounts = s.relay.registry.mounts → t.codes = s.codes →
      ∃ code row, WritesRow s t code row ∧
        (row.any (MountRow.countsFor agentIp) = true → countedFor s.relay.registry.mounts agentIp code = true) := by
    intro hmounts hcodes
    exact ⟨"", _, writesRow_of_mounts_eq hs "" hmounts (.inl hcodes), id⟩
  cases a with
  | checkCap i =>
      right
      right
      simp only [step] at h
      split at h
      · split at h <;> cases h <;> exact hunwritten rfl rfl
      · cases h
  | relay a =>
      simp only [step] at h
      split at h
      · obtain ⟨m, hm, rfl⟩ := Option.map_eq_some_iff.mp h
        cases a with
        | session i answer =>
            have hmounts : m.registry.mounts =
                sessionMounts (auth i) s.relay.registry (s.relay.session i) := by
              obtain ⟨⟨r, pc⟩, hpc, rfl⟩ := Option.map_eq_some_iff.mp hm
              rw [← sessionStep_mounts _ _ _ _ _ _ _ hpc]
              cases pc <;> rfl
            have hwrites := session_writes hs auth i answer hmounts
              (t := ⟨m, s.codesAfter (.session i answer), s.checked⟩) rfl agentIp
            rcases hwrites with ⟨code, hreg⟩ | ⟨code, status, hupdate⟩ | hquiet
            · exact .inl ⟨i, answer, code, rfl, hreg⟩
            · exact .inr (.inl ⟨i, answer, code, status, rfl, hupdate⟩)
            · exact .inr (.inr hquiet)
        | sessionFail i =>
            obtain ⟨pc, -, rfl⟩ := Option.map_eq_some_iff.mp hm
            exact .inr (.inr (hunwritten (by cases pc <;> rfl) rfl))
        | connClosed i =>
            cases hm
            exact .inr (.inr (hunwritten rfl rfl))
        | request k store =>
            obtain ⟨pc, -, rfl⟩ := Option.map_eq_some_iff.mp hm
            exact .inr (.inr (hunwritten rfl rfl))
        | requestFail k =>
            simp only [MountSystem.step] at hm
            split at hm <;> cases hm
            exact .inr (.inr (hunwritten rfl rfl))
        | sweepExpire code =>
            simp only [MountSystem.step] at hm
            split at hm <;> cases hm
            refine .inr (.inr ⟨code, _, writesRow_of_map hs code _ rfl rfl, ?_⟩)
            cases hrow : s.relay.registry.mounts code <;> simp [MountRow.countsFor]
        | sweepPop =>
            obtain ⟨code, -, rfl⟩ := Option.map_eq_some_iff.mp hm
            exact .inr (.inr (hunwritten rfl rfl))
        | sweepDelete code =>
            simp only [MountSystem.step] at hm
            split at hm <;> cases hm
            refine .inr (.inr ⟨code, _, ⟨rfl, .inl rfl, ?_⟩, ?_⟩)
            · intro hrow
              apply hs.listed
              cases hmount : s.relay.registry.mounts code <;> simp [hmount] at hrow ⊢
            · cases hrow : s.relay.registry.mounts code with
              | none => simp
              | some row =>
                  simp only [countedFor, hrow, Option.any_filter, Option.any_some]
                  intro hany
                  exact (Bool.and_eq_true _ _).mp hany |>.2
      · cases h

/-- The SELECT of a pending UPDATE of the status is still right that the row is not EXPIRED. -/
def SeesLive (s : CapSystem ι ρ) : Prop :=
  ∀ j code, (s.relay.session j).setsStatus = some code → ∀ row, s.relay.registry.mounts code = some row →
    row.agentIp = agentIp → row.status ≠ .expired

/-- The rows of the address, with those that are still to come. -/
def Reserved (s : CapSystem ι ρ) : Prop := s.count agentIp + (s.waiting auth agentIp).encard ≤ maxMountsPerIp

structure CapInv (s : CapSystem ι ρ) : Prop where
  rows : s.Listed
  live : s.SeesLive agentIp
  reserved : s.Reserved auth maxMountsPerIp agentIp

theorem count_of_step {s t : CapSystem ι ρ} {a : CapAction ι ρ} (hs : s.Listed) (hlive : s.SeesLive agentIp)
    (h : s.step auth req maxMountsPerIp a = some t) :
    t.Listed ∧ (t.count agentIp ≤ s.count agentIp ∨
      ∃ i answer code, a = .relay (.session i answer) ∧ s.relay.session i = .registerInsert code ∧
        (auth i).clientIp = agentIp ∧ t.count agentIp ≤ s.count agentIp + 1) := by
  rcases step_writes auth req maxMountsPerIp agentIp s t a hs h with
    ⟨i, answer, code, rfl, hpc, hne, hwrites⟩ | ⟨i, answer, code, status, rfl, hpc, hstatus, hwrites⟩ |
    ⟨code, row, hwrites, hcounts⟩
  · refine ⟨hwrites.listedAfter hs, ?_⟩
    have hcount := hwrites.count hs agentIp
    by_cases hip : (auth i).clientIp = agentIp
    · right
      refine ⟨i, answer, code, rfl, hpc, hip, ?_⟩
      split at hcount <;> split at hcount <;> omega
    · left
      have hnew : (some (⟨.online, (auth i).clientIp, none, .open, false⟩ : MountRow)).any
          (MountRow.countsFor agentIp) = false := by
        simp [MountRow.countsFor, hip]
      rw [hnew, if_neg Bool.false_ne_true] at hcount
      omega
  · refine ⟨hwrites.listedAfter hs, .inl ?_⟩
    have hcount := hwrites.count hs agentIp
    have hsets : (s.relay.session i).setsStatus = some code := by
      rcases hpc with hpc | hpc <;> rw [hpc] <;> rfl
    have hsame : ((s.relay.registry.mounts code).map fun row => { row with status := status }).any
        (MountRow.countsFor agentIp) = countedFor s.relay.registry.mounts agentIp code := by
      cases hrow : s.relay.registry.mounts code with
      | none => simp [countedFor, hrow]
      | some row =>
          by_cases hip : row.agentIp = agentIp
          · have hnot := hlive i code hsets row hrow hip
            simp [countedFor, hrow, MountRow.countsFor, hip, hnot, hstatus]
          · simp [countedFor, hrow, MountRow.countsFor, hip]
    rw [hsame] at hcount
    omega
  · refine ⟨hwrites.listedAfter hs, .inl ?_⟩
    have hcount := hwrites.count hs agentIp
    by_cases hany : row.any (MountRow.countsFor agentIp) = true
    · rw [if_pos (hcounts hany)] at hcount
      split at hcount <;> omega
    · rw [if_neg hany] at hcount
      omega

theorem waiting_of_relay {s t : CapSystem ι ρ} {a : MountAction ι ρ}
    (h : s.step auth req maxMountsPerIp (.relay a) = some t) :
    t.waiting auth agentIp ⊆ s.waiting auth agentIp ∧
      ∀ i answer code, a = .session i answer → s.relay.session i = .registerInsert code →
        (auth i).clientIp = agentIp → i ∈ s.waiting auth agentIp ∧ i ∉ t.waiting auth agentIp := by
  simp only [step] at h
  split at h
  · rename_i hadmits
    obtain ⟨m, hm, rfl⟩ := Option.map_eq_some_iff.mp h
    rcases MountSystem.step_session_cases hm with ⟨i, answer, pc, rfl, hsession, hstep⟩ | ⟨hother, hsession⟩
    · have hbefore := sessionStep_beforeInsert hstep
      refine ⟨waiting_subset auth agentIp hsession rfl ?_, ?_⟩
      · intro hpc
        refine ⟨(hbefore hpc).1, ?_⟩
        simpa [admits] using hadmits
      · intro i' answer' code heq hpc hip
        cases heq
        rw [mem_waiting, mem_waiting]
        refine ⟨⟨hip, by rw [hpc]; rfl, .inl (by rw [hpc]; simp)⟩, ?_⟩
        rintro ⟨-, hnext, -⟩
        rw [hsession, Function.update_self] at hnext
        exact (hbefore hnext).2 code hpc
    · refine ⟨?_, fun i answer code heq => absurd heq (hother i answer)⟩
      rcases hsession with hsame | ⟨i, pc, hsession, hbefore, -⟩
      · intro j hj
        rw [mem_waiting] at hj ⊢
        simpa only [hsame] using hj
      · exact waiting_subset auth agentIp hsession rfl (by simp [hbefore])
  · cases h

theorem seesLive_step {s t : CapSystem ι ρ} {a : CapAction ι ρ} (hlive : s.SeesLive agentIp)
    (halone : s.ChecksAlone auth maxMountsPerIp agentIp a) (h : s.step auth req maxMountsPerIp a = some t) :
    t.SeesLive agentIp := by
  cases a with
  | checkCap i =>
      simp only [step] at h
      split at h
      · split at h <;> cases h
        · intro j code hsets
          by_cases hji : j = i
          · subst hji
            simp [MountSystem.setSession, SessionPc.setsStatus] at hsets
          · exact hlive j code (by simpa [MountSystem.setSession, hji] using hsets)
        · exact hlive
      · cases h
  | relay a =>
      simp only [step] at h
      split at h
      · obtain ⟨m, hm, rfl⟩ := Option.map_eq_some_iff.mp h
        intro j code hsets row hrow hip hexpired
        have hstill : (s.relay.session j).setsStatus = some code → False := by
          intro hbefore
          obtain ⟨old, hold, hsame, hwas | rfl⟩ := MountSystem.step_expired hm hrow hexpired
          · exact hlive j code hbefore old hold (hsame.trans hip) hwas
          · exact halone (by simp [hold, hsame, hip]) j hbefore
        rcases MountSystem.step_session_cases hm with ⟨i, answer, pc, rfl, hsession, hstep⟩ | ⟨-, hsession⟩
        · rw [hsession] at hsets
          by_cases hji : j = i
          · subst hji
            rw [Function.update_self] at hsets
            exact sessionStep_setsStatus hstep hsets row hrow hexpired
          · exact hstill (by simpa only [Function.update_of_ne hji] using hsets)
        · rcases hsession with hsame | ⟨i, pc, hsession, -, hnone⟩
          · exact hstill (hsame ▸ hsets)
          · rw [hsession] at hsets
            by_cases hji : j = i
            · subst hji
              simp [hnone] at hsets
            · exact hstill (by simpa only [Function.update_of_ne hji] using hsets)
      · cases h

theorem reserved_step {s t : CapSystem ι ρ} {a : CapAction ι ρ} (hs : s.CapInv auth maxMountsPerIp agentIp)
    (halone : s.ChecksAlone auth maxMountsPerIp agentIp a) (h : s.step auth req maxMountsPerIp a = some t) :
    t.Reserved auth maxMountsPerIp agentIp := by
  have hreserved := hs.reserved
  unfold Reserved at hreserved ⊢
  have hcount := (count_of_step auth req maxMountsPerIp agentIp hs.rows hs.live h).2
  cases a with
  | checkCap i =>
      simp only [step] at h
      split at h
      · split at h
        · cases h
          have hfewer : waiting auth agentIp { s with relay := s.relay.setSession i .ended } ⊆
              s.waiting auth agentIp := waiting_subset auth agentIp rfl rfl (by simp [SessionPc.beforeInsert])
          exact (add_le_add_right (Set.encard_le_encard hfewer) _).trans hreserved
        · rename_i hroom
          cases h
          have hmore : waiting auth agentIp { s with checked := Function.update s.checked i true } ⊆
              insert i (s.waiting auth agentIp) := by
            intro j hj
            by_cases hji : j = i
            · exact .inl hji
            · right
              rw [mem_waiting] at hj ⊢
              simpa only [Function.update_of_ne hji] using hj
          by_cases hip : (auth i).clientIp = agentIp
          · have hless := halone hip (by rwa [hip, not_le] at hroom)
            calc (s.count agentIp : ℕ∞) + (waiting auth agentIp _).encard
                ≤ s.count agentIp + ((s.waiting auth agentIp).encard + 1) :=
                  add_le_add_right ((Set.encard_le_encard hmore).trans (Set.encard_insert_le _ _)) _
              _ = s.count agentIp + (s.waiting auth agentIp).encard + 1 := (add_assoc _ _ _).symm
              _ ≤ maxMountsPerIp := Order.add_one_le_of_lt hless
          · -- a client of another address
            have hother : waiting auth agentIp { s with checked := Function.update s.checked i true } ⊆
                s.waiting auth agentIp := by
              intro j hj
              rcases hmore hj with rfl | hwas
              · exact absurd (mem_waiting.mp hj).1 hip
              · exact hwas
            exact (add_le_add_right (Set.encard_le_encard hother) _).trans hreserved
      · cases h
  | relay a =>
      obtain ⟨hfewer, hinserts⟩ := waiting_of_relay auth req maxMountsPerIp agentIp h
      rcases hcount with hle | ⟨i, answer, code, heq, hpc, hip, hle⟩
      · exact (add_le_add (by exact_mod_cast hle) (Set.encard_le_encard hfewer)).trans hreserved
      · cases heq
        obtain ⟨hwas, hnow⟩ := hinserts i answer code rfl hpc hip
        have hone : (t.waiting auth agentIp).encard + 1 ≤ (s.waiting auth agentIp).encard := by
          rw [← Set.encard_insert_of_notMem hnow]
          exact Set.encard_le_encard (Set.insert_subset hwas hfewer)
        calc (t.count agentIp : ℕ∞) + (t.waiting auth agentIp).encard
            ≤ (s.count agentIp + 1) + (t.waiting auth agentIp).encard :=
              add_le_add_left (by exact_mod_cast hle) _
          _ = s.count agentIp + ((t.waiting auth agentIp).encard + 1) := by rw [add_assoc, add_comm 1]
          _ ≤ s.count agentIp + (s.waiting auth agentIp).encard := add_le_add_right hone _
          _ ≤ maxMountsPerIp := hreserved

/-- The cap holds in every run whose checks leave room for the sessions that are on their way to their INSERT, and
whose sweeps keep off the rows that are about to be updated. -/
theorem withinCap_of_checksAlone (mounts : Code → Option MountRow) (policy : Code → List PolicyEntry)
    (codes : List Code) (hnodup : codes.Nodup)
    (hlisted : ∀ code, (mounts code).isSome = true → code ∈ codes)
    (hstart : countMountsByIp codes mounts agentIp ≤ maxMountsPerIp) (as : List (CapAction ι ρ))
    (halone : TransitionSystem.Guarded (step auth req maxMountsPerIp) (ChecksAlone auth maxMountsPerIp agentIp)
      (start mounts policy codes) as) :
    TransitionSystem.Throughout (step auth req maxMountsPerIp) (WithinCap maxMountsPerIp agentIp)
      (start mounts policy codes) as := by
  refine TransitionSystem.throughout_of_guarded (step auth req maxMountsPerIp) _ (CapInv auth maxMountsPerIp agentIp)
    (WithinCap maxMountsPerIp agentIp) ?_ ?_ ⟨⟨hnodup, hlisted⟩, ?_, ?_⟩ halone
  · intro s hs
    have hcount : (s.count agentIp : ℕ∞) ≤ maxMountsPerIp := le_self_add.trans hs.reserved
    exact_mod_cast hcount
  · intro s a t hs hcond h
    exact ⟨(count_of_step auth req maxMountsPerIp agentIp hs.rows hs.live h).1,
      seesLive_step auth req maxMountsPerIp agentIp hs.live hcond h,
      reserved_step auth req maxMountsPerIp agentIp hs hcond h⟩
  · intro j code hsets
    cases hsets
  · have hnone : waiting auth agentIp (start mounts policy codes : CapSystem ι ρ) = ∅ := by
      ext j
      simp [mem_waiting, start, MountSystem.start]
    rw [Reserved, hnone, Set.encard_empty, add_zero]
    exact_mod_cast hstart

end

/-- Two agents behind one address, each with the code that is drawn for it. -/
def neighbourAgents (_ : Fin 2) : AgentAuth :=
  ⟨none, "192.0.2.1", none, ⟨.open, false, []⟩⟩

def answerFor (i : Fin 2) : Answer := ⟨false, if i = 0 then "k3x9" else "m7p2", false⟩

/-- An agent goes through the check, the handshake and the INSERT. -/
def mountNow (i : Fin 2) : List (CapAction (Fin 2) Empty) :=
  [.checkCap i, .relay (.session i (answerFor i)), .relay (.session i (answerFor i))]

theorem withinCap_of_checksAlone_oneAfterTheOther :
    TransitionSystem.Throughout (step neighbourAgents Empty.elim 2) (WithinCap 2 "192.0.2.1")
      (start (fun _ => none) (fun _ => []) []) (mountNow 0 ++ mountNow 1) :=
  withinCap_of_checksAlone neighbourAgents Empty.elim 2 "192.0.2.1" _ _ [] List.nodup_nil (by simp) (by decide) _
    (by decide +kernel)

/-- Both agents are counted before either of them has a row. -/
def mountBoth : List (CapAction (Fin 2) Empty) :=
  [.checkCap 0, .checkCap 1, .relay (.session 0 (answerFor 0)), .relay (.session 1 (answerFor 1)),
    .relay (.session 0 (answerFor 0)), .relay (.session 1 (answerFor 1))]

theorem mountBoth_exceeds_cap :
    ∃ u, TransitionSystem.run (step neighbourAgents Empty.elim 1) (start (fun _ => none) (fun _ => []) [])
        mountBoth = some u ∧ u.count "192.0.2.1" = 2 ∧ ¬u.WithinCap 1 "192.0.2.1" := by
  have heval : (TransitionSystem.run (step neighbourAgents Empty.elim 1)
      (start (fun _ => none) (fun _ => []) []) mountBoth).any
      (fun u => u.count "192.0.2.1" = 2) = true := by decide +kernel
  obtain ⟨u, hrun, hcount⟩ := (Option.any_eq_true _ _).mp heval
  have hcount : u.count "192.0.2.1" = 2 := of_decide_eq_true hcount
  refine ⟨u, hrun, hcount, ?_⟩
  unfold WithinCap
  rw [hcount]
  decide

end CapSystem

end NetworkFileServer.Relay
