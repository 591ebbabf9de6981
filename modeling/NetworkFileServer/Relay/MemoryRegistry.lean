import Mathlib.Data.List.Perm.Lattice
import NetworkFileServer.Framework.OrderedDict
import NetworkFileServer.Relay.MountDatabase

/-!
# The registry in memory

`MountRegistry` keeps a dictionary of records where `SqliteMountRegistry` has a table and a dictionary
of connections. Any sequence of the calls that both classes have gives the same answers: the table has
the rows of the dictionary, and the connection of every record that is ONLINE.
-/

namespace NetworkFileServer.Relay

/-- `MountRecord`. -/
structure LiveMount (κ : Type*) where
  code : Code
  connection : κ
  status : MountStatus
  agentIp : String
  createdAt : ℚ
  expiresAt : Option ℚ
  ttlWarned : Bool
deriving DecidableEq

/-- `self._mounts`. -/
structure MountRegistry (κ : Type*) where
  mounts : OrderedDict Code (LiveMount κ)

namespace MountRegistry

variable {κ : Type*} (r : MountRegistry κ)

def register (code : Code) (connection : κ) (agentIp : String) (createdAt : ℚ) (expiresAt : Option ℚ) :
    Except RegistryError (MountRegistry κ) :=
  if code = "" then .error (.valueError "Mount code must not be empty")
  else .ok ⟨r.mounts.set code ⟨code, connection, .online, agentIp, createdAt, expiresAt, false⟩⟩

def deregister (code : Code) : Except RegistryError (MountRegistry κ) :=
  match r.mounts.get code with
  | none => .error (.mountNotFound code)
  | some _ => .ok ⟨r.mounts.erase code⟩

/-- `closed` is `is_closed` of the connections at the moment of the call. -/
def getConnection (closed : κ → Bool) (code : Code) : Except RegistryError κ :=
  match r.mounts.get code with
  | none => .error (.mountNotFound code)
  | some record =>
      if record.status = .offline then .error (.mountOffline code)
      else if record.status = .expired then .error (.mountExpired code)
      else if closed record.connection then .error (.mountOffline code)
      else .ok record.connection

def markOffline (code : Code) : Except RegistryError (MountRegistry κ) :=
  match r.mounts.get code with
  | none => .error (.mountNotFound code)
  | some record => .ok ⟨r.mounts.set code { record with status := .offline }⟩

def hasMount (code : Code) : Bool := (r.mounts.get code).isSome

def countMountsByIp (agentIp : String) : Nat :=
  r.mounts.countP fun e => e.2.agentIp = agentIp ∧ e.2.status ≠ .expired

def activeMounts : List (LiveMount κ) :=
  (r.mounts.filter fun e => e.2.status ≠ .expired).map Prod.snd

end MountRegistry

namespace MountDatabase

variable {κ : Type*} (d : MountDatabase κ)

/-- The database after statements that touch the row of one code. -/
def withRowOf (r : SqliteRegistry κ) (code : Code) (h : ∀ c, c ≠ code → r.mounts c = d.mounts c) :
    MountDatabase κ :=
  { r with
    codes := if (r.mounts code).isSome then d.codes.insert code else d.codes.erase code
    nodup := by
      split
      · exact d.nodup.insert
      · exact d.nodup.erase code
    listed := by
      intro c
      by_cases hc : c = code
      · subst hc
        cases hrow : r.mounts c with
        | none => simp [d.nodup.mem_erase_iff]
        | some row => simp
      · rw [h c hc, d.listed]
        split
        · simp [hc]
        · simp [d.nodup.mem_erase_iff, hc] }

end MountDatabase

/-- A call that both registries take, with the connections that are closed at the moment. -/
inductive MountCall (κ : Type*) where
  | register (code : Code) (connection : κ) (agentIp : String) (createdAt : ℚ) (expiresAt : Option ℚ)
  | deregister (code : Code)
  | getConnection (closed : κ → Bool) (code : Code)
  | markOffline (code : Code)
  | hasMount (code : Code)
  | countMountsByIp (agentIp : String)
  | activeMounts

/-- A record of `active_mounts`. -/
structure MountReport (κ : Type*) where
  code : Code
  connection : Option κ
  status : MountStatus
  agentIp : String
  createdAt : ℚ
  expiresAt : Option ℚ
  ttlWarned : Bool
deriving DecidableEq

inductive MountAnswer (κ : Type*) where
  /-- `None`. -/
  | done
  | connection (c : κ)
  | found (b : Bool)
  | count (n : Nat)
  | mounts (reports : List (MountReport κ))

section

variable {κ : Type*}

def LiveMount.report (m : LiveMount κ) : MountReport κ :=
  ⟨m.code, some m.connection, m.status, m.agentIp, m.createdAt, m.expiresAt, m.ttlWarned⟩

/-- The six columns that `active_mounts` selects, and the connection. -/
def MountDatabase.MountRecord.report (m : MountDatabase.MountRecord κ) : MountReport κ :=
  ⟨m.code, m.connection, m.row.status, m.row.agentIp, m.row.createdAt, m.row.expiresAt, m.row.ttlWarned⟩

/-- What a call returns and what it leaves behind; a method that raises changes nothing. -/
def returning {σ : Type*} (s : σ) :
    Except RegistryError σ → Except RegistryError (MountAnswer κ) × σ
  | .ok s' => (.ok .done, s')
  | .error e => (.error e, s)

end

namespace MountRegistry

variable {κ : Type*}

def empty : MountRegistry κ := ⟨[]⟩

def perform (r : MountRegistry κ) : MountCall κ → Except RegistryError (MountAnswer κ) × MountRegistry κ
  | .register code connection agentIp createdAt expiresAt =>
      returning r (r.register code connection agentIp createdAt expiresAt)
  | .deregister code => returning r (r.deregister code)
  | .getConnection closed code => ((r.getConnection closed code).map .connection, r)
  | .markOffline code => returning r (r.markOffline code)
  | .hasMount code => (.ok (.found (r.hasMount code)), r)
  | .countMountsByIp agentIp => (.ok (.count (r.countMountsByIp agentIp)), r)
  | .activeMounts => (.ok (.mounts (r.activeMounts.map LiveMount.report)), r)

/-- The answers of a sequence of calls, one at a time. -/
def answers (r : MountRegistry κ) : List (MountCall κ) → List (Except RegistryError (MountAnswer κ))
  | [] => []
  | call :: calls => (r.perform call).1 :: answers (r.perform call).2 calls

end MountRegistry

namespace SqliteRegistry

variable {κ : Type*} (r : SqliteRegistry κ)

theorem register_others (code : Code) (connection : Option κ) (agentIp : String) (createdAt : ℚ)
    (expiresAt : Option ℚ) (r' : SqliteRegistry κ)
    (h : r.register code connection agentIp createdAt expiresAt = .ok r') (c : Code) (hc : c ≠ code) :
    r'.mounts c = r.mounts c := by
  unfold register at h
  split at h
  · cases h
  · cases connection with
    | none =>
        cases h
        simp [insertMount, hc]
    | some connection =>
        cases h
        simp [connect, insertMount, hc]

theorem deregister_others (code : Code) (r' : SqliteRegistry κ) (h : r.deregister code = .ok r') (c : Code)
    (hc : c ≠ code) : r'.mounts c = r.mounts c := by
  unfold deregister withRow at h
  split at h
  · cases h
  · cases h
    simp [disconnect, popSecret, hc]

theorem markOffline_others (code : Code) (r' : SqliteRegistry κ) (h : r.markOffline code = .ok r') (c : Code)
    (hc : c ≠ code) : r'.mounts c = r.mounts c := by
  unfold markOffline withRow at h
  split at h
  · cases h
  · simp only at h
    split at h
    · cases h
      simp [setStatus, disconnect, popSecret, hc]
    · cases h
      rfl

end SqliteRegistry

namespace MountDatabase

variable {κ : Type*}

def empty : MountDatabase κ where
  mounts := fun _ => none
  policy := fun _ => []
  connections := fun _ => none
  identitySecrets := fun _ => none
  codes := []
  nodup := List.nodup_nil
  listed := by simp

/-- A method that touches the row of one code. -/
def updated (d : MountDatabase κ) (code : Code) :
    (result : Except RegistryError (SqliteRegistry κ)) →
      (∀ r, result = .ok r → ∀ c, c ≠ code → r.mounts c = d.mounts c) → Except RegistryError (MountDatabase κ)
  | .error e, _ => .error e
  | .ok r, h => .ok (d.withRowOf r code (h r rfl))

theorem updated_of_ok (d : MountDatabase κ) (code : Code) {result : Except RegistryError (SqliteRegistry κ)}
    (h : ∀ r, result = .ok r → ∀ c, c ≠ code → r.mounts c = d.mounts c) {r : SqliteRegistry κ}
    (hresult : result = .ok r) : d.updated code result h = .ok (d.withRowOf r code (h r hresult)) := by
  subst hresult
  rfl

theorem updated_of_error (d : MountDatabase κ) (code : Code)
    {result : Except RegistryError (SqliteRegistry κ)}
    (h : ∀ r, result = .ok r → ∀ c, c ≠ code → r.mounts c = d.mounts c) {e : RegistryError}
    (hresult : result = .error e) : d.updated code result h = .error e := by
  subst hresult
  rfl

def perform (d : MountDatabase κ) : MountCall κ → Except RegistryError (MountAnswer κ) × MountDatabase κ
  | .register code connection agentIp createdAt expiresAt =>
      returning d (d.updated code (d.register code (some connection) agentIp createdAt expiresAt)
        (d.register_others code (some connection) agentIp createdAt expiresAt))
  | .deregister code => returning d (d.updated code (d.deregister code) (d.deregister_others code))
  | .getConnection closed code => ((d.getConnection closed code).map .connection, d)
  | .markOffline code => returning d (d.updated code (d.markOffline code) (d.markOffline_others code))
  | .hasMount code => (.ok (.found (d.hasMount code)), d)
  | .countMountsByIp agentIp => (.ok (.count (d.countMountsByIp agentIp)), d)
  | .activeMounts => (.ok (.mounts (d.activeMounts.map MountRecord.report)), d)

def answers (d : MountDatabase κ) : List (MountCall κ) → List (Except RegistryError (MountAnswer κ))
  | [] => []
  | call :: calls => (d.perform call).1 :: answers (d.perform call).2 calls

end MountDatabase

section

variable {κ : Type*}

/-- The record without the connection of a mount that is OFFLINE. -/
def MountReport.comparable (m : MountReport κ) : MountReport κ :=
  if m.status = .offline then { m with connection := none } else m

/-- The same value; snapshots have the same records up to order and up to the connection field of
OFFLINE records. -/
def MountAnswer.Same : MountAnswer κ → MountAnswer κ → Prop
  | .mounts l, .mounts l' => (l.map MountReport.comparable).Perm (l'.map MountReport.comparable)
  | a, a' => a = a'

/-- The same exception, or the same value. -/
inductive SameResult : Except RegistryError (MountAnswer κ) → Except RegistryError (MountAnswer κ) → Prop
  | raised (e : RegistryError) : SameResult (.error e) (.error e)
  | returned (a a' : MountAnswer κ) (h : a.Same a') : SameResult (.ok a) (.ok a')

theorem SameResult.refl_of_ok (a : MountAnswer κ) : SameResult (.ok a) (.ok a) := by
  refine .returned a a ?_
  cases a with
  | mounts l => exact List.Perm.refl _
  | _ => rfl

/-- The row that the table has for a record: these calls leave the policy columns at their defaults. -/
def LiveMount.row (m : LiveMount κ) : StoredRow :=
  ⟨⟨m.status, m.agentIp, none, .open, false⟩, m.createdAt, m.expiresAt, m.ttlWarned⟩

/-- The table has the rows of the dictionary, and the connections of its ONLINE records. -/
structure Mirrors (m : MountRegistry κ) (d : MountDatabase κ) : Prop where
  nodup : (m.mounts.map Prod.fst).Nodup
  rows : ∀ code, d.mounts code = (m.mounts.get code).map LiveMount.row
  connections : ∀ code record, m.mounts.get code = some record → record.status = .online →
    d.connections code = some record.connection
  keyed : ∀ code record, m.mounts.get code = some record → record.code = code
  unexpired : ∀ code record, m.mounts.get code = some record → record.status ≠ .expired

theorem mirrors_empty : Mirrors (MountRegistry.empty : MountRegistry κ) MountDatabase.empty where
  nodup := List.nodup_nil
  rows := fun _ => rfl
  connections := by
    intro code record h
    cases h
  keyed := by
    intro code record h
    cases h
  unexpired := by
    intro code record h
    cases h

variable {m : MountRegistry κ} {d : MountDatabase κ}

theorem Mirrors.codes_perm (h : Mirrors m d) : d.codes.Perm (m.mounts.map Prod.fst) := by
  rw [List.perm_ext_iff_of_nodup d.nodup h.nodup]
  intro code
  rw [← d.listed, h.rows, Option.isSome_map, ← not_iff_not, ← OrderedDict.get_eq_none_iff]
  simp

theorem Mirrors.get_of_mem (h : Mirrors m d) (e : Code × LiveMount κ) (he : e ∈ m.mounts) :
    m.mounts.get e.1 = some e.2 :=
  OrderedDict.get_eq_some_of_mem m.mounts e.1 e.2 h.nodup he

theorem Mirrors.countMountsByIp (h : Mirrors m d) (agentIp : String) :
    d.countMountsByIp agentIp = m.countMountsByIp agentIp := by
  unfold MountDatabase.countMountsByIp Relay.countMountsByIp MountRegistry.countMountsByIp
  rw [h.codes_perm.countP_eq, List.countP_map]
  apply List.countP_congr
  intro e he
  simp [SqliteRegistry.toRegistry, h.rows, h.get_of_mem e he, LiveMount.row, MountRow.countsFor]

theorem Mirrors.activeMount (h : Mirrors m d) (e : Code × LiveMount κ) (he : e ∈ m.mounts) :
    (d.activeMount e.1).map (fun r => r.report.comparable) =
      if e.2.status ≠ .expired then some e.2.report.comparable else none := by
  have hget := h.get_of_mem e he
  have hrow : d.mounts e.1 = some e.2.row := by
    rw [h.rows, hget]
    rfl
  have hcode := h.keyed e.1 e.2 hget
  cases hstatus : e.2.status with
  | expired => exact absurd hstatus (h.unexpired e.1 e.2 hget)
  | online =>
      have hconnection := h.connections e.1 e.2 hget hstatus
      simp [MountDatabase.activeMount, hrow, LiveMount.row, hstatus, hconnection, Option.filter,
        MountDatabase.MountRecord.report, LiveMount.report, MountReport.comparable, hcode]
  | offline =>
      simp [MountDatabase.activeMount, hrow, LiveMount.row, hstatus, Option.filter,
        MountDatabase.MountRecord.report, LiveMount.report, MountReport.comparable, hcode]

theorem Mirrors.activeMounts (h : Mirrors m d) :
    MountAnswer.Same (.mounts (m.activeMounts.map LiveMount.report))
      (.mounts (d.activeMounts.map MountDatabase.MountRecord.report)) := by
  have hsql : (d.activeMounts.map MountDatabase.MountRecord.report).map MountReport.comparable =
      d.codes.filterMap fun code => (d.activeMount code).map fun r => r.report.comparable := by
    rw [MountDatabase.activeMounts, List.map_map, List.map_filterMap]
    rfl
  have hentries : (m.mounts.map Prod.fst).filterMap
        (fun code => (d.activeMount code).map fun r => r.report.comparable) =
      m.mounts.filterMap fun e => if e.2.status ≠ .expired then some e.2.report.comparable else none := by
    rw [List.filterMap_map]
    apply List.filterMap_congr
    intro e he
    exact h.activeMount e he
  have hmemory : (m.activeMounts.map LiveMount.report).map MountReport.comparable =
      m.mounts.filterMap fun e => if e.2.status ≠ .expired then some e.2.report.comparable else none := by
    rw [MountRegistry.activeMounts, List.map_map, List.map_map, ← List.filterMap_eq_map,
      List.filterMap_filter]
    apply List.filterMap_congr
    intro e _
    by_cases hstatus : e.2.status = .expired <;> simp [hstatus]
  change List.Perm _ _
  rw [hmemory, hsql, ← hentries]
  exact (h.codes_perm.filterMap _).symm

theorem Mirrors.getConnection (h : Mirrors m d) (closed : κ → Bool) (code : Code) :
    d.getConnection closed code = m.getConnection closed code := by
  unfold SqliteRegistry.getConnection MountRegistry.getConnection
  rw [h.rows]
  cases hget : m.mounts.get code with
  | none => rfl
  | some record =>
      cases hstatus : record.status with
      | offline => simp [LiveMount.row, hstatus]
      | expired => simp [LiveMount.row, hstatus]
      | online => simp [LiveMount.row, hstatus, h.connections code record hget hstatus]

/-- Both methods raise the same, or both return and leave registries that mirror each other. -/
def Tally (memory : Except RegistryError (MountRegistry κ)) (sql : Except RegistryError (MountDatabase κ)) :
    Prop :=
  (∃ e, memory = .error e ∧ sql = .error e) ∨ ∃ m' d', memory = .ok m' ∧ sql = .ok d' ∧ Mirrors m' d'

/-- What the record of one code and the row of that code have to have in common. -/
structure MirrorsAt (m : MountRegistry κ) (r : SqliteRegistry κ) (code : Code) : Prop where
  row : r.mounts code = (m.mounts.get code).map LiveMount.row
  connection : ∀ record, m.mounts.get code = some record → record.status = .online →
    r.connections code = some record.connection
  keyed : ∀ record, m.mounts.get code = some record → record.code = code
  unexpired : ∀ record, m.mounts.get code = some record → record.status ≠ .expired

theorem Mirrors.change (h : Mirrors m d) (m' : MountRegistry κ) (r' : SqliteRegistry κ) (code : Code)
    (hmounts : ∀ c, c ≠ code → r'.mounts c = d.mounts c)
    (hnodup : (m'.mounts.map Prod.fst).Nodup)
    (hget : ∀ c, c ≠ code → m'.mounts.get c = m.mounts.get c)
    (hconnections : ∀ c, c ≠ code → r'.connections c = d.connections c) (hat : MirrorsAt m' r' code) :
    Mirrors m' (d.withRowOf r' code hmounts) := by
  refine ⟨hnodup, ?_, ?_, ?_, ?_⟩
  · intro c
    by_cases hc : c = code
    · subst hc
      exact hat.row
    · rw [hget c hc, ← h.rows]
      exact hmounts c hc
  · intro c record hrecord hstatus
    by_cases hc : c = code
    · subst hc
      exact hat.connection record hrecord hstatus
    · rw [hget c hc] at hrecord
      exact (hconnections c hc).trans (h.connections c record hrecord hstatus)
  · intro c record hrecord
    by_cases hc : c = code
    · subst hc
      exact hat.keyed record hrecord
    · rw [hget c hc] at hrecord
      exact h.keyed c record hrecord
  · intro c record hrecord
    by_cases hc : c = code
    · subst hc
      exact hat.unexpired record hrecord
    · rw [hget c hc] at hrecord
      exact h.unexpired c record hrecord

theorem Mirrors.register (h : Mirrors m d) (code : Code) (connection : κ) (agentIp : String) (createdAt : ℚ)
    (expiresAt : Option ℚ) : Tally (m.register code connection agentIp createdAt expiresAt)
      (d.updated code (d.register code (some connection) agentIp createdAt expiresAt)
        (d.register_others code (some connection) agentIp createdAt expiresAt)) := by
  by_cases hcode : code = ""
  · left
    refine ⟨.valueError "Mount code must not be empty", by simp [MountRegistry.register, hcode], ?_⟩
    exact d.updated_of_error code _ (by simp [SqliteRegistry.register, hcode])
  · right
    have hmemory : m.register code connection agentIp createdAt expiresAt = .ok
        ⟨m.mounts.set code ⟨code, connection, .online, agentIp, createdAt, expiresAt, false⟩⟩ := by
      simp [MountRegistry.register, hcode]
    have hsql : d.register code (some connection) agentIp createdAt expiresAt =
        .ok ((d.insertMount code (SqliteRegistry.freshRow agentIp createdAt expiresAt)).connect code
          connection) := by
      simp [SqliteRegistry.register, hcode]
    refine ⟨_, _, hmemory, d.updated_of_ok code _ hsql, ?_⟩
    apply h.change
    · exact OrderedDict.nodup_set _ _ _ h.nodup
    · intro c hc
      exact OrderedDict.get_set_of_ne _ _ _ _ hc
    · intro c hc
      simp [SqliteRegistry.connect, SqliteRegistry.insertMount, hc]
    · constructor
      all_goals
        simp [OrderedDict.get_set_self, SqliteRegistry.connect, SqliteRegistry.insertMount,
          LiveMount.row, SqliteRegistry.freshRow]

theorem Mirrors.deregister (h : Mirrors m d) (code : Code) : Tally (m.deregister code)
    (d.updated code (d.deregister code) (d.deregister_others code)) := by
  have hrow := h.rows code
  cases hget : m.mounts.get code with
  | none =>
      left
      refine ⟨.mountNotFound code, by simp [MountRegistry.deregister, hget], ?_⟩
      apply d.updated_of_error
      simp [SqliteRegistry.deregister, SqliteRegistry.withRow, hrow, hget]
  | some record =>
      right
      have hmemory : m.deregister code = .ok ⟨m.mounts.erase code⟩ := by
        simp [MountRegistry.deregister, hget]
      have hsql : d.deregister code = .ok (({ d.toSqliteRegistry with
          mounts := Function.update d.mounts code none }.disconnect code).popSecret code) := by
        simp [SqliteRegistry.deregister, SqliteRegistry.withRow, hrow, hget]
      refine ⟨_, _, hmemory, d.updated_of_ok code _ hsql, ?_⟩
      apply h.change
      · exact OrderedDict.nodup_erase _ _ h.nodup
      · intro c hc
        exact OrderedDict.get_erase_of_ne _ _ _ hc
      · intro c hc
        simp [SqliteRegistry.disconnect, SqliteRegistry.popSecret, hc]
      · constructor
        all_goals simp [OrderedDict.get_erase_self, SqliteRegistry.disconnect, SqliteRegistry.popSecret]

theorem Mirrors.markOffline (h : Mirrors m d) (code : Code) : Tally (m.markOffline code)
    (d.updated code (d.markOffline code) (d.markOffline_others code)) := by
  have hrow := h.rows code
  cases hget : m.mounts.get code with
  | none =>
      left
      refine ⟨.mountNotFound code, by simp [MountRegistry.markOffline, hget], ?_⟩
      apply d.updated_of_error
      simp [SqliteRegistry.markOffline, SqliteRegistry.withRow, hrow, hget]
  | some record =>
      right
      rw [hget, Option.map_some] at hrow
      have hkeyed := h.keyed code record hget
      have hmemory : m.markOffline code =
          .ok ⟨m.mounts.set code { record with status := .offline }⟩ := by
        simp [MountRegistry.markOffline, hget]
      obtain ⟨r', hsql, hrow', hconnections⟩ : ∃ r', d.markOffline code = .ok r' ∧
          r'.mounts code = some { record.row with status := .offline } ∧
          ∀ c, c ≠ code → r'.connections c = d.connections c := by
        cases hstatus : record.status with
        | expired => exact absurd hstatus (h.unexpired code record hget)
        | online =>
            refine ⟨((d.setStatus code .offline).disconnect code).popSecret code, ?_, ?_, ?_⟩
            · simp [SqliteRegistry.markOffline, SqliteRegistry.withRow, hrow, LiveMount.row, hstatus]
            · simp [SqliteRegistry.setStatus, SqliteRegistry.disconnect, SqliteRegistry.popSecret, hrow]
            · intro c hc
              simp [SqliteRegistry.setStatus, SqliteRegistry.disconnect, SqliteRegistry.popSecret, hc]
        | offline =>
            refine ⟨d.popSecret code, ?_, ?_, fun c _ => rfl⟩
            · simp [SqliteRegistry.markOffline, SqliteRegistry.withRow, hrow, LiveMount.row, hstatus]
            · simp [SqliteRegistry.popSecret, hrow, LiveMount.row, hstatus]
      refine ⟨_, _, hmemory, d.updated_of_ok code _ hsql, ?_⟩
      apply h.change
      · exact OrderedDict.nodup_set _ _ _ h.nodup
      · intro c hc
        exact OrderedDict.get_set_of_ne _ _ _ _ hc
      · exact hconnections
      · constructor
        · rw [OrderedDict.get_set_self, hrow']
          rfl
        all_goals simp [OrderedDict.get_set_self, hkeyed]

theorem Mirrors.perform (h : Mirrors m d) (call : MountCall κ) :
    SameResult (m.perform call).1 (d.perform call).1 ∧ Mirrors (m.perform call).2 (d.perform call).2 := by
  have hreturning : ∀ {memory : Except RegistryError (MountRegistry κ)}
      {sql : Except RegistryError (MountDatabase κ)}, Tally memory sql →
      SameResult (κ := κ) (returning m memory).1 (returning d sql).1 ∧
        Mirrors (returning (κ := κ) m memory).2 (returning (κ := κ) d sql).2 := by
    rintro memory sql (⟨e, rfl, rfl⟩ | ⟨m', d', rfl, rfl, h'⟩)
    · exact ⟨.raised e, h⟩
    · exact ⟨.refl_of_ok .done, h'⟩
  cases call with
  | register code connection agentIp createdAt expiresAt =>
      exact hreturning (h.register code connection agentIp createdAt expiresAt)
  | deregister code => exact hreturning (h.deregister code)
  | markOffline code => exact hreturning (h.markOffline code)
  | getConnection closed code =>
      refine ⟨?_, h⟩
      simp only [MountRegistry.perform, MountDatabase.perform, h.getConnection]
      cases m.getConnection closed code with
      | error e => exact .raised e
      | ok connection => exact .refl_of_ok (.connection connection)
  | hasMount code =>
      refine ⟨?_, h⟩
      simp only [MountRegistry.perform, MountDatabase.perform, MountRegistry.hasMount,
        SqliteRegistry.hasMount, h.rows, Option.isSome_map]
      exact .refl_of_ok _
  | countMountsByIp agentIp =>
      refine ⟨?_, h⟩
      simp only [MountRegistry.perform, MountDatabase.perform, h.countMountsByIp]
      exact .refl_of_ok _
  | activeMounts => exact ⟨.returned _ _ h.activeMounts, h⟩

theorem Mirrors.answers (h : Mirrors m d) (calls : List (MountCall κ)) :
    List.Forall₂ SameResult (m.answers calls) (d.answers calls) := by
  induction calls generalizing m d with
  | nil => exact .nil
  | cons call calls ih =>
      obtain ⟨hresult, hnext⟩ := h.perform call
      exact .cons hresult (ih hnext)

/-- From empty registries, both classes give the same answers to any sequence of calls. -/
theorem registries_agree (calls : List (MountCall κ)) : List.Forall₂ SameResult
    ((MountRegistry.empty : MountRegistry κ).answers calls)
    ((MountDatabase.empty : MountDatabase κ).answers calls) :=
  mirrors_empty.answers calls

end

end NetworkFileServer.Relay
