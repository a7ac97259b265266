import Settler.Decimal.Binary64
import Settler.Text.Str

/-!
JSON values, with integers and binary numbers apart and the members of an object in order.

An object keeps the first position and the last value of a repeated name (`put`).
-/

namespace Settler

/-- A JSON value. -/
inductive Json where
  | null
  | bool (b : Bool)
  | int (n : Int)
  | real (x : Binary64)
  | text (s : Str)
  | list (items : List Json)
  | object (members : List (Str × Json))
  deriving Repr, Inhabited

namespace Json

/-- The members of an object. -/
abbrev Members := List (Str × Json)

/-- The member of a name in a list of members. -/
def lookup (name : Str) : Members → Option Json
  | [] => none
  | (k, v) :: rest => if k = name then some v else lookup name rest

/-- Gives a name a value: in its place if the name is there, else at the end. -/
def put (name : Str) (v : Json) : Members → Members
  | [] => [(name, v)]
  | (k, w) :: rest => if k = name then (k, v) :: rest else (k, w) :: put name v rest

/-- The member of a name, of an object. -/
def get? (j : Json) (name : Str) : Option Json :=
  match j with
  | .object ms => lookup name ms
  | _ => none

/-- A value that counts as true: anything but null, false, zero and the empty ones. -/
def isTruthy : Json → Bool
  | .null => false
  | .bool b => b
  | .int n => n != 0
  | .real x => !x.isZero
  | .text s => !s.glyphs.isEmpty
  | .list items => !items.isEmpty
  | .object ms => !ms.isEmpty

/-- The name of a value's kind, as reports show it. -/
def kindName : Json → String
  | .null => "NoneType"
  | .bool _ => "bool"
  | .int _ => "int"
  | .real _ => "float"
  | .text _ => "str"
  | .list _ => "list"
  | .object _ => "dict"

end Json

end Settler
