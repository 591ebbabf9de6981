import NetworkFileServer.Framework.KeyedTable
import NetworkFileServer.Relay.RegistryMethods

/-!
# Counting and listing mounts

The table `mounts` is finite; a database is a registry with the list of the codes that have a row.
`count_mounts_by_ip` and `active_mounts` select over that list.
-/

namespace NetworkFileServer.Relay

/-- `agent_ip = ? AND status != 'expired'`. -/
def MountRow.countsFor (agentIp : String) (row : MountRow) : Bool :=
  row.agentIp = agentIp ∧ row.status ≠ .expired

/-- `count_mounts_by_ip` over the codes of a table. -/
def countMountsByIp (codes : List Code) (mounts : Code → Option MountRow) (agentIp : String) : Nat :=
  codes.countP fun code => (mounts code).any (MountRow.countsFor agentIp)

structure MountDatabase (κ : Type*) extends SqliteRegistry κ where
  codes : List Code
  nodup : codes.Nodup
  listed : ∀ code, (mounts code).isSome = true ↔ code ∈ codes

namespace MountDatabase

variable {κ : Type*}

def countMountsByIp (d : MountDatabase κ) (agentIp : String) : Nat :=
  Relay.countMountsByIp d.codes d.toRegistry.mounts agentIp

/-- A mount as `active_mounts` returns it. -/
structure MountRecord (κ : Type*) where
  code : Code
  row : StoredRow
  connection : Option κ

/-- The record of a code whose row is not EXPIRED. -/
def activeMount (d : MountDatabase κ) (code : Code) : Option (MountRecord κ) :=
  ((d.mounts code).filter fun row => row.status ≠ .expired).map fun row =>
    ⟨code, row, d.connections code⟩

def activeMounts (d : MountDatabase κ) : List (MountRecord κ) := d.codes.filterMap d.activeMount

/-- The database after statements that delete rows and insert none. -/
def keepRows (d : MountDatabase κ) (r : SqliteRegistry κ)
    (h : ∀ code, (r.mounts code).isSome = true → (d.mounts code).isSome = true) : MountDatabase κ :=
  { r with
    codes := d.codes.filter fun code => (r.mounts code).isSome
    nodup := d.nodup.filter _
    listed := by
      intro code
      rw [List.mem_filter, ← d.listed]
      exact ⟨fun hrow => ⟨h code hrow, hrow⟩, fun hrow => hrow.2⟩ }

/-- A code without a row does not count, so the codes before count as well as the codes after. -/
theorem keepRows_count (d : MountDatabase κ) (r : SqliteRegistry κ)
    (h : ∀ code, (r.mounts code).isSome = true → (d.mounts code).isSome = true) (agentIp : String) :
    (d.keepRows r h).countMountsByIp agentIp =
      Relay.countMountsByIp d.codes r.toRegistry.mounts agentIp := by
  unfold countMountsByIp Relay.countMountsByIp keepRows
  rw [List.countP_filter]
  apply List.countP_congr
  intro code _
  cases hrow : r.mounts code with
  | none => simp [SqliteRegistry.toRegistry, hrow]
  | some row => simp [SqliteRegistry.toRegistry, hrow]

theorem mem_activeMounts (d : MountDatabase κ) (m : MountRecord κ) :
    m ∈ d.activeMounts ↔ d.mounts m.code = some m.row ∧ m.row.status ≠ .expired ∧
      m.connection = d.connections m.code := by
  unfold activeMounts
  rw [List.mem_filterMap]
  constructor
  · rintro ⟨code, -, hm⟩
    obtain ⟨row, hrow, rfl⟩ := Option.map_eq_some_iff.mp hm
    obtain ⟨hrow, hstatus⟩ := Option.filter_eq_some_iff.mp hrow
    exact ⟨hrow, by simpa using hstatus, rfl⟩
  · rintro ⟨hrow, hstatus, hconnection⟩
    refine ⟨m.code, (d.listed m.code).mp (by simp [hrow]), ?_⟩
    simp [activeMount, hrow, Option.filter, hstatus, ← hconnection]

theorem activeMounts_nodup (d : MountDatabase κ) : (d.activeMounts.map MountRecord.code).Nodup := by
  have hcode : ∀ code m, d.activeMount code = some m → m.code = code := by
    intro code m hm
    obtain ⟨row, -, rfl⟩ := Option.map_eq_some_iff.mp hm
    rfl
  have hsub : (d.activeMounts.map MountRecord.code).Sublist d.codes := by
    unfold activeMounts
    induction d.codes with
    | nil => exact List.Sublist.refl _
    | cons code codes ih =>
        cases hm : d.activeMount code with
        | none =>
            rw [List.filterMap_cons_none hm]
            exact ih.cons code
        | some m =>
            rw [List.filterMap_cons_some hm, List.map_cons, hcode code m hm]
            exact ih.cons_cons code
  exact d.nodup.sublist hsub

end MountDatabase

end NetworkFileServer.Relay
