import Mathlib.Tactic.NormNum
import Mathlib.Tactic.Linarith
import NetworkFileServer.Relay.MountDatabase

/-!
# The sweep over the mounts

`sweep_once` of `ttl_sweep.py`, without other operations in between: a loop over a snapshot of the
mounts, in which an exception ends the work on one mount, and the deletion of old EXPIRED rows. The loop
leaves OFFLINE mounts alone.
-/

namespace NetworkFileServer.Relay

open MountDatabase

variable {κ : Type*}

section

/- `warningBefore` is `config.warning_before_seconds`, `raises` says whose `send_control` raises. -/
variable (warningBefore : ℚ) (raises : κ → Bool) (now : ℚ)

/-- What an exception leaves of a method. -/
def sweepTry (r : SqliteRegistry κ) (attempt : Except RegistryError (SqliteRegistry κ)) : SqliteRegistry κ :=
  match attempt with
  | .ok r' => r'
  | .error _ => r

/-- The loop body of `sweep_once`. Closing the connection comes after the expiry, so that its failure
changes nothing here; a warning that cannot be sent is not marked. -/
def sweepMount (r : SqliteRegistry κ) (mount : MountRecord κ) : SqliteRegistry κ :=
  match mount.row.expiresAt with
  | none => r
  | some expiresAt =>
      if mount.row.status ≠ .online then r
      else
        let remaining := expiresAt - now
        if remaining ≤ 0 then sweepTry r (r.expire mount.code)
        else if remaining ≤ warningBefore ∧ mount.row.ttlWarned = false then
          if mount.connection.any raises then r else sweepTry r (r.markTtlWarned mount.code)
        else r

def sweepLoop (r : SqliteRegistry κ) (mounts : List (MountRecord κ)) : SqliteRegistry κ :=
  mounts.foldl (sweepMount warningBefore raises now) r

/-- The columns of a swept row that the sweep changes. -/
def SweptFrom (row row' : StoredRow) : Prop :=
  row'.agentIp = row.agentIp ∧ row'.expiresAt = row.expiresAt ∧
    row'.status = if row.status = .online ∧ row.pastTtl now = true then .expired else row.status

theorem sweptFrom_of_kept (row row' : StoredRow) (hip : row'.agentIp = row.agentIp)
    (hexpires : row'.expiresAt = row.expiresAt) (hstatus : row'.status = row.status)
    (h : ¬(row.status = .online ∧ row.pastTtl now = true)) : SweptFrom now row row' := by
  refine ⟨hip, hexpires, ?_⟩
  rw [if_neg h, hstatus]

theorem sweepMount_mounts (r : SqliteRegistry κ) (mount : MountRecord κ)
    (hrow : r.mounts mount.code = some mount.row) :
    (∀ code ≠ mount.code,
        (sweepMount warningBefore raises now r mount).mounts code = r.mounts code) ∧
      ∃ row', (sweepMount warningBefore raises now r mount).mounts mount.code = some row' ∧
        SweptFrom now mount.row row' := by
  have hunchanged : ¬(mount.row.status = .online ∧ mount.row.pastTtl now = true) →
      sweepMount warningBefore raises now r mount = r → (∀ code ≠ mount.code,
        (sweepMount warningBefore raises now r mount).mounts code = r.mounts code) ∧
      ∃ row', (sweepMount warningBefore raises now r mount).mounts mount.code = some row' ∧
        SweptFrom now mount.row row' := by
    intro hkept heq
    rw [heq]
    exact ⟨fun _ _ => rfl, mount.row, hrow, sweptFrom_of_kept now _ _ rfl rfl rfl hkept⟩
  cases hexpires : mount.row.expiresAt with
  | none =>
      apply hunchanged
      · simp [StoredRow.pastTtl, hexpires]
      · simp [sweepMount, hexpires]
  | some expiresAt =>
      by_cases hstatus : mount.row.status = .online
      · by_cases hpast : expiresAt ≤ now
        · have hremaining : expiresAt - now ≤ 0 := by linarith
          have hround : sweepMount warningBefore raises now r mount =
              ((r.setStatus mount.code .expired).disconnect mount.code).popSecret mount.code := by
            simp [sweepMount, hexpires, hstatus, hremaining, sweepTry, SqliteRegistry.expire,
              SqliteRegistry.withRow, hrow]
          rw [hround]
          refine ⟨?_, { mount.row with status := .expired }, ?_, rfl, rfl, ?_⟩
          · intro code hcode
            simp [SqliteRegistry.popSecret, SqliteRegistry.disconnect, SqliteRegistry.setStatus, hcode]
          · simp [SqliteRegistry.popSecret, SqliteRegistry.disconnect, SqliteRegistry.setStatus, hrow]
          · simp [StoredRow.pastTtl, hexpires, hstatus, hpast]
        · have hremaining : ¬expiresAt - now ≤ 0 := by
            intro h
            exact hpast (by linarith)
          have hkept : ¬(mount.row.status = .online ∧ mount.row.pastTtl now = true) := by
            simp [StoredRow.pastTtl, hexpires, hpast]
          by_cases hwarns : (expiresAt - now ≤ warningBefore ∧ mount.row.ttlWarned = false) ∧
              mount.connection.any raises = false
          · have hround : sweepMount warningBefore raises now r mount =
                r.insertMount mount.code { mount.row with ttlWarned := true } := by
              simp [sweepMount, hexpires, hstatus, hremaining, hwarns, sweepTry,
                SqliteRegistry.markTtlWarned, SqliteRegistry.withRow, hrow]
            rw [hround]
            refine ⟨?_, { mount.row with ttlWarned := true }, ?_, ?_⟩
            · intro code hcode
              simp [SqliteRegistry.insertMount, hcode]
            · simp [SqliteRegistry.insertMount]
            · exact sweptFrom_of_kept now _ _ rfl rfl rfl hkept
          · apply hunchanged hkept
            simp only [sweepMount, hexpires, hstatus, ne_eq, not_true_eq_false, ↓reduceIte, hremaining]
            split
            · rename_i hwindow
              rw [if_pos]
              simpa [hwindow] using hwarns
            · rfl
      · apply hunchanged
        · simp [hstatus]
        · simp [sweepMount, hexpires, hstatus]

theorem sweepLoop_mounts (r : SqliteRegistry κ) (mounts : List (MountRecord κ))
    (hcodes : (mounts.map MountRecord.code).Nodup)
    (hrows : ∀ m ∈ mounts, r.mounts m.code = some m.row) :
    (∀ code ∉ mounts.map MountRecord.code,
        (sweepLoop warningBefore raises now r mounts).mounts code = r.mounts code) ∧
      ∀ m ∈ mounts, ∃ row', (sweepLoop warningBefore raises now r mounts).mounts m.code = some row' ∧
        SweptFrom now m.row row' := by
  induction mounts generalizing r with
  | nil => exact ⟨fun _ _ => rfl, by simp⟩
  | cons mount mounts ih =>
      obtain ⟨hmount, hrest⟩ := List.forall_mem_cons.mp hrows
      obtain ⟨hfirst, hnodup⟩ := List.nodup_cons.mp hcodes
      obtain ⟨hothers, row', hrow', hswept⟩ := sweepMount_mounts warningBefore raises now r mount hmount
      have hnext : ∀ m ∈ mounts,
          (sweepMount warningBefore raises now r mount).mounts m.code = some m.row := by
        intro m hm
        have hne : m.code ≠ mount.code := by
          intro heq
          exact hfirst (heq ▸ List.mem_map_of_mem hm)
        rw [hothers m.code hne]
        exact hrest m hm
      obtain ⟨hkept, hrounds⟩ := ih _ hnodup hnext
      constructor
      · intro code hcode
        rw [List.map_cons, List.mem_cons, not_or] at hcode
        exact (hkept code hcode.2).trans (hothers code hcode.1)
      · intro m hm
        rcases List.mem_cons.mp hm with rfl | hm
        · exact ⟨row', (hkept m.code hfirst).trans hrow', hswept⟩
        · exact hrounds m hm

theorem sweepLoop_swept (d : MountDatabase κ) (code : Code) :
    (∃ row row', d.mounts code = some row ∧
        (sweepLoop warningBefore raises now d.toSqliteRegistry d.activeMounts).mounts code = some row' ∧
        SweptFrom now row row') ∨
      d.mounts code = none ∧
        (sweepLoop warningBefore raises now d.toSqliteRegistry d.activeMounts).mounts code = none := by
  obtain ⟨hkept, hrounds⟩ := sweepLoop_mounts warningBefore raises now d.toSqliteRegistry d.activeMounts
    d.activeMounts_nodup fun m hm => ((d.mem_activeMounts m).mp hm).1
  have hskipped : (∀ m ∈ d.activeMounts, m.code ≠ code) →
      (sweepLoop warningBefore raises now d.toSqliteRegistry d.activeMounts).mounts code =
        d.mounts code := by
    intro hnot
    apply hkept
    intro hmem
    obtain ⟨m, hm, heq⟩ := List.mem_map.mp hmem
    exact hnot m hm heq
  cases hrow : d.mounts code with
  | none =>
      refine .inr ⟨rfl, (hskipped ?_).trans hrow⟩
      rintro m hm rfl
      have hsome := ((d.mem_activeMounts m).mp hm).1
      rw [hrow] at hsome
      cases hsome
  | some row =>
      left
      by_cases hexpired : row.status = .expired
      · refine ⟨row, row, rfl, (hskipped ?_).trans hrow, rfl, rfl, by simp [hexpired]⟩
        rintro m hm rfl
        obtain ⟨hsome, hstatus, -⟩ := (d.mem_activeMounts m).mp hm
        rw [hrow] at hsome
        cases hsome
        exact hstatus hexpired
      · obtain ⟨row', hrow', hswept⟩ := hrounds ⟨code, row, d.connections code⟩
          ((d.mem_activeMounts _).mpr ⟨hrow, hexpired, rfl⟩)
        exact ⟨row, row', rfl, hrow', hswept⟩

/-- `sweep_once`. -/
def sweepOnce (d : MountDatabase κ) : MountDatabase κ :=
  d.keepRows ((sweepLoop warningBefore raises now d.toSqliteRegistry d.activeMounts).deleteExpiredBefore
      (now - SqliteRegistry.retentionSeconds)) (by
    intro code hcode
    rcases sweepLoop_swept warningBefore raises now d code with ⟨row, -, hrow, -⟩ | ⟨-, hnone⟩
    · simp [hrow]
    · simp [SqliteRegistry.deleteExpiredBefore, hnone] at hcode)

theorem sweepOnce_mounts (d : MountDatabase κ) (code : Code) (row' : StoredRow)
    (h : (sweepOnce warningBefore raises now d).mounts code = some row') :
    (∃ row, d.mounts code = some row ∧ SweptFrom now row row') ∧
      ¬(row'.status = .expired ∧ row'.expiresAt.any
        (fun e => e < now - SqliteRegistry.retentionSeconds) = true) := by
  obtain ⟨hloop, hkept⟩ := Option.filter_eq_some_iff.mp h
  have hkept : ¬(row'.status = .expired ∧ row'.expiresAt.any
      (fun e => e < now - SqliteRegistry.retentionSeconds) = true) := by simpa [imp_iff_not_or] using hkept
  rcases sweepLoop_swept warningBefore raises now d code with ⟨row, row'', hrow, hswept, hfrom⟩ | ⟨-, hnone⟩
  · obtain rfl := Option.some.inj (hswept.symm.trans hloop)
    exact ⟨⟨row, hrow, hfrom⟩, hkept⟩
  · rw [hnone] at hloop
    cases hloop

/-- The count after a sweep, over the rows before it: those of the address that are still within
their TTL, and those that are OFFLINE. -/
theorem sweepOnce_count (d : MountDatabase κ) (agentIp : String) :
    (sweepOnce warningBefore raises now d).countMountsByIp agentIp =
      d.codes.countP fun code => (d.mounts code).any fun row =>
        row.countsFor agentIp && (decide (row.status = .offline) || !row.pastTtl now) := by
  unfold sweepOnce
  rw [keepRows_count]
  unfold Relay.countMountsByIp
  apply List.countP_congr
  intro code _
  rcases sweepLoop_swept warningBefore raises now d code with
    ⟨row, row', hrow, hrow', hip, -, hstatus⟩ | ⟨hnone, hnone'⟩
  · rw [hrow]
    -- a row that the retention deletes is EXPIRED and did not count
    have hcounts : ((((sweepLoop warningBefore raises now d.toSqliteRegistry
        d.activeMounts).deleteExpiredBefore
          (now - SqliteRegistry.retentionSeconds)).toRegistry.mounts code).any
            (MountRow.countsFor agentIp)) = row'.countsFor agentIp := by
      simp only [SqliteRegistry.toRegistry, SqliteRegistry.deleteExpiredBefore, hrow', Option.filter]
      split
      · rfl
      · rename_i hdeleted
        have hexpired : row'.status = .expired := by
          by_contra hne
          exact hdeleted (by simp [hne])
        simp [MountRow.countsFor, hexpired]
    rw [hcounts]
    cases hbefore : row.status <;> cases hpast : row.pastTtl now <;>
      simp [MountRow.countsFor, hip, hstatus, hbefore, hpast]
  · simp [SqliteRegistry.toRegistry, SqliteRegistry.deleteExpiredBefore, hnone, hnone']

theorem pastTtl_of_retained (row : StoredRow)
    (h : row.expiresAt.any (fun e => e < now - SqliteRegistry.retentionSeconds) = true) :
    row.pastTtl now = true := by
  unfold StoredRow.pastTtl
  cases hexpires : row.expiresAt with
  | none => simp [hexpires] at h
  | some e =>
      have hlt : e < now - SqliteRegistry.retentionSeconds := by simpa [hexpires] using h
      have hle : e ≤ now := by
        unfold SqliteRegistry.retentionSeconds at hlt
        linarith
      simpa using hle

/-- No row past its TTL counts for an address, and no row is older than the retention. -/
def Released (d : MountDatabase κ) : Prop :=
  (∀ code row, d.mounts code = some row → row.pastTtl now = true →
      ∀ agentIp, row.countsFor agentIp = false) ∧
    ∀ code row, d.mounts code = some row →
      row.expiresAt.any (fun e => e < now - SqliteRegistry.retentionSeconds) = false

/-- A sweep releases the mounts that were not OFFLINE before it. -/
theorem sweepOnce_releases (d : MountDatabase κ) :
    (∀ code row', (sweepOnce warningBefore raises now d).mounts code = some row' →
        (row'.pastTtl now = true ∧ ∃ agentIp, row'.countsFor agentIp = true) ∨
          row'.expiresAt.any (fun e => e < now - SqliteRegistry.retentionSeconds) = true →
        ∃ row, d.mounts code = some row ∧ row.status = .offline ∧ row'.status = .offline) ∧
      ∀ agentIp, (sweepOnce warningBefore raises now d).countMountsByIp agentIp =
        d.codes.countP fun code => (d.mounts code).any fun row =>
          row.countsFor agentIp && (decide (row.status = .offline) || !row.pastTtl now) := by
  refine ⟨?_, sweepOnce_count warningBefore raises now d⟩
  intro code row' hrow' hlate
  obtain ⟨⟨row, hrow, -, hexpires, hstatus⟩, hretained⟩ :=
    sweepOnce_mounts warningBefore raises now d code row' hrow'
  have hpast : row'.pastTtl now = true := by
    rcases hlate with ⟨hpast, -⟩ | hold
    · exact hpast
    · exact pastTtl_of_retained now row' hold
  have hnot : row'.status ≠ .expired := by
    intro hexpired
    rcases hlate with ⟨-, agentIp, hcounts⟩ | hold
    · simp [MountRow.countsFor, hexpired] at hcounts
    · exact hretained ⟨hexpired, hold⟩
  have hpast' : row.pastTtl now = true := by
    unfold StoredRow.pastTtl at hpast ⊢
    rwa [hexpires] at hpast
  cases hbefore : row.status <;> simp [hbefore, hpast', hnot] at hstatus
  exact ⟨row, hrow, hbefore, hstatus⟩

end

/-- A mount whose agent left at some time before its TTL ended. -/
def abandonedMount : StoredRow where
  status := .offline
  agentIp := "192.0.2.1"
  ownerUserId := none
  accessMode := .open
  hasPassword := false
  createdAt := 0
  expiresAt := some 3600
  ttlWarned := false

def abandonedDatabase : MountDatabase Unit where
  mounts := fun code => if code = "k3x9" then some abandonedMount else none
  policy := fun _ => []
  connections := fun _ => none
  identitySecrets := fun _ => none
  codes := ["k3x9"]
  nodup := by decide
  listed := by
    intro code
    by_cases hcode : code = "k3x9" <;> simp [hcode]

/-- Ten days later the mount still counts, and its row is still there. -/
theorem sweepOnce_keeps_abandoned :
    ¬Released 864000 (sweepOnce 300 (fun _ => false) 864000 abandonedDatabase) ∧
      (sweepOnce 300 (fun _ => false) 864000 abandonedDatabase).countMountsByIp "192.0.2.1" = 1 ∧
      (sweepOnce 300 (fun _ => false) 864000 abandonedDatabase).mounts "k3x9" = some abandonedMount := by
  have hrow : (sweepOnce 300 (fun _ => false) 864000 abandonedDatabase).mounts "k3x9" =
      some abandonedMount := by
    decide +kernel
  refine ⟨?_, by decide +kernel, hrow⟩
  intro h
  have hold := h.2 "k3x9" abandonedMount hrow
  revert hold
  decide +kernel

end NetworkFileServer.Relay
