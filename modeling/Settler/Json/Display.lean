import Settler.Json.Value
import Settler.Decimal.Shortest
import Settler.Text.Quoted

/-!
JSON values as log lines and reports show them.

Texts inside a value are quoted, names and items are separated by a comma and a space, and the
constants are `None`, `True` and `False`. A text on its own is shown as it is.
-/

namespace Settler.Json

/-- The text of a truth value. -/
def boolText (b : Bool) : String := if b then "True" else "False"

mutual

/-- A value with its texts quoted. -/
def shown : Json → String
  | .null => "None"
  | .bool b => boolText b
  | .int n => toString n
  | .real x => Decimal.text x
  | .text s => Text.quoted s
  | .list items => "[" ++ ", ".intercalate (shownItems items) ++ "]"
  | .object ms => "\x7b" ++ ", ".intercalate (shownMembers ms) ++ "\x7d"

/-- The items of a list, each shown. -/
def shownItems : List Json → List String
  | [] => []
  | j :: rest => shown j :: shownItems rest

/-- The members of an object, each shown as its quoted name and its value. -/
def shownMembers : Members → List String
  | [] => []
  | (k, v) :: rest => (Text.quoted k ++ ": " ++ shown v) :: shownMembers rest

end

/-- A value as plain text: a text is itself, anything else is shown. -/
def plain : Json → Str
  | .text s => s
  | j => j.shown

end Settler.Json
