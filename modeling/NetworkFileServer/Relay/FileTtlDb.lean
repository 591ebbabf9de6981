import Mathlib.Algebra.Ring.Nat
import Mathlib.Data.List.Basic
import NetworkFileServer.Relay.Registry

/-!
# The table of file expiries

`FileTtlDb`: one table `file_ttl` for the drop box and all mounts, with one row per mount code and path.
The definitions below are its SQL statements. Times are in ticks of the clock.
-/

namespace NetworkFileServer.Relay

/-- A row of the table `file_ttl`. -/
structure FileTtlRow where
  mountCode : Code
  filePath : String
  expiresAt : Int
  createdAt : Int
deriving DecidableEq, Repr

abbrev FileTtlTable := List FileTtlRow

namespace FileTtlTable

/-- The `INSERT OR REPLACE` of `record_file_ttl`: the row of the same mount and path goes. -/
def insertRow (table : FileTtlTable) (new : FileTtlRow) : FileTtlTable :=
  table.filter (fun row => ¬(row.mountCode = new.mountCode ∧ row.filePath = new.filePath)) ++ [new]

/-- An `int` can be converted to a `float` if it does not round to `2 ** 1024`. -/
@[irreducible] def fitsFloat (n : Int) : Bool := n.natAbs < 2 ^ 1024 - 2 ^ 970

/-- `time.time() + ttl_seconds`, which converts the `int`. -/
def expiryTime (ttlSeconds now : Int) : Option Int := if fitsFloat ttlSeconds then some (now + ttlSeconds) else none

/-- `record_file_ttl`; `none` is the `OverflowError`. -/
def recordFileTtl (table : FileTtlTable) (mountCode : Code) (filePath : String) (ttlSeconds : Int)
    (now : Int) : Option FileTtlTable :=
  (expiryTime ttlSeconds now).map fun expiresAt => table.insertRow ⟨mountCode, filePath, expiresAt, now⟩

/-- The rows that `get_expired` selects. -/
def getExpired (table : FileTtlTable) (now : Int) : List FileTtlRow :=
  table.filter fun row => row.expiresAt ≤ now

/-- `delete_record`. -/
def deleteRecord (table : FileTtlTable) (mountCode : Code) (filePath : String) : FileTtlTable :=
  table.filter fun row => ¬(row.mountCode = mountCode ∧ row.filePath = filePath)

/-- `WHERE mount_code = ? AND expires_at <= ?`; NULL selects nothing. -/
def expiredFor (mountCode : Option Code) (now : Int) (row : FileTtlRow) : Bool :=
  some row.mountCode = mountCode ∧ row.expiresAt ≤ now

/-- `delete_expired_for_mount`: the paths of the rows, and the table without them. -/
def deleteExpiredForMount (table : FileTtlTable) (mountCode : Option Code) (now : Int) :
    List String × FileTtlTable :=
  let paths := (table.filter (expiredFor mountCode now)).map (·.filePath)
  if paths = [] then (paths, table)
  else (paths, table.filter fun row => !expiredFor mountCode now row)

theorem deleteExpiredForMount_table (table : FileTtlTable) (mountCode : Option Code) (now : Int) :
    (table.deleteExpiredForMount mountCode now).2 =
      table.filter fun row => !expiredFor mountCode now row := by
  unfold deleteExpiredForMount
  dsimp only
  split
  · rename_i hnone
    rw [List.map_eq_nil_iff, List.filter_eq_nil_iff] at hnone
    apply Eq.symm
    apply List.filter_eq_self.mpr
    intro row hrow
    simpa using hnone row hrow
  · rfl

end FileTtlTable

end NetworkFileServer.Relay
