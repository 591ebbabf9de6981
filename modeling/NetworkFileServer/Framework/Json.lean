import Mathlib.Algebra.Group.Int.Defs
import NetworkFileServer.Framework.OrderedDict

/-!
# JSON values, and binding them to an SQL statement

A decoded JSON text, as `json.loads` returns it, and what SQLite compares it as when it is bound to a
placeholder beside a TEXT column.
-/

inductive Json where
  | null
  | bool (b : Bool)
  | int (n : Int)
  /-- A number with a fraction or an exponent, by the text that SQLite renders it as; `none` is NaN,
  which SQLite stores as NULL. -/
  | float (sqlText : Option String)
  | str (s : String)
  | arr (items : List Json)
  /-- A dictionary; a repeated name has its last value. -/
  | obj (fields : List (String × Json))

/-- What binding a value can raise. -/
inductive BindError where
  | overflow
  | unsupportedType
deriving DecidableEq, Repr

namespace Json

/-- `data.get(name)`. -/
def get? (data : OrderedDict String Json) (name : String) : Option Json :=
  data.lookup fun key => decide (key = name)

/-- `value == text`. -/
def isStr (value : Json) (text : String) : Bool :=
  match value with
  | .str s => s = text
  | _ => false

/-- `len(value)`; `none` is a `TypeError`. -/
def len : Json → Option Nat
  | .str s => some s.length
  | .arr items => some items.length
  | .obj fields => some fields.length
  | .null | .bool _ | .int _ | .float _ => none

/-- The text that a TEXT column is compared with when the value is bound; `none` is NULL, which equals
nothing. -/
def boundText : Json → Except BindError (Option String)
  | .null => .ok none
  | .bool b => .ok (some (if b then "1" else "0"))
  | .int n => if -2 ^ 63 ≤ n ∧ n < 2 ^ 63 then .ok (some (toString n)) else .error .overflow
  | .float sqlText => .ok sqlText
  | .str s => .ok (some s)
  | .arr _ | .obj _ => .error .unsupportedType

end Json
