import Settler.Json.Display

/-!
Reports on input that does not have the required form.

A report names a model and lists its issues in the order of the fields. An issue shows the input at
fault, cut in the middle when it is long.
-/

namespace Settler.Validation

/-- What is wrong with an input. -/
inductive Complaint where
  | missing
  | intType
  | intParsing
  | intFraction
  | intSize
  | notFinite
  | negative
  | realType
  | realParsing
  | boolType
  | boolParsing
  | textType
  /-- A text holds half of a surrogate pair. -/
  | textUnicode
  | notObject
  deriving DecidableEq, Repr

namespace Complaint

/-- The complaint's tag. -/
def tag : Complaint → String
  | .missing => "missing"
  | .intType => "int_type"
  | .intParsing => "int_parsing"
  | .intFraction => "int_from_float"
  | .intSize => "int_parsing_size"
  | .notFinite => "finite_number"
  | .negative => "greater_than_equal"
  | .realType => "float_type"
  | .realParsing => "float_parsing"
  | .boolType => "bool_type"
  | .boolParsing => "bool_parsing"
  | .textType => "string_type"
  | .textUnicode => "string_unicode"
  | .notObject => "model_type"

/-- The complaint in words, about an input for a model. -/
def text (model : String) : Complaint → String
  | .missing => "Field required"
  | .intType => "Input should be a valid integer"
  | .intParsing => "Input should be a valid integer, unable to parse string as an integer"
  | .intFraction => "Input should be a valid integer, got a number with a fractional part"
  | .intSize => "Unable to parse input string as an integer, exceeded maximum size"
  | .notFinite => "Input should be a finite number"
  | .negative => "Input should be greater than or equal to 0"
  | .realType => "Input should be a valid number"
  | .realParsing => "Input should be a valid number, unable to parse string as a number"
  | .boolType => "Input should be a valid boolean"
  | .boolParsing => "Input should be a valid boolean, unable to interpret input"
  | .textType => "Input should be a valid string"
  | .textUnicode => "Input should be a valid string, unable to parse raw data as a unicode string"
  | .notObject => "Input should be a valid dictionary or instance of " ++ model

end Complaint

/-- A complaint about an input, of a field or of the whole model. -/
structure Issue where
  field? : Option String
  complaint : Complaint
  input : Json
  deriving Repr

/-- The longest initial run of characters that takes at most a number of UTF-8 bytes. -/
def takeBytes : Nat → List Char → List Char
  | _, [] => []
  | room, c :: rest => if c.utf8Size ≤ room then c :: takeBytes (room - c.utf8Size) rest else []

/-- A text of more than 50 bytes loses its middle: 25 bytes at its start and 24 at its end stay, or
fewer where a character would be cut. -/
def clipped (s : String) : String :=
  if s.utf8ByteSize ≤ 50 then s
  else
    let cs := s.toList
    String.ofList (takeBytes 25 cs ++ ['.', '.', '.'] ++ (takeBytes 24 cs.reverse).reverse)

/-- The lines of an issue. -/
def Issue.text (model : String) (i : Issue) : String :=
  (match i.field? with
    | some name => "\n" ++ name
    | none => "")
    ++ "\n  " ++ i.complaint.text model ++ " [type=" ++ i.complaint.tag ++ ", input_value="
    ++ clipped i.input.shown ++ ", input_type=" ++ i.input.kindName ++ "]"

/-- The issues of an input for a model. -/
structure Report where
  model : String
  issues : List Issue
  deriving Repr

/-- The report in words. -/
def Report.message (r : Report) : String :=
  let count := r.issues.length
  toString count ++ " validation error" ++ (if count = 1 then "" else "s") ++ " for " ++ r.model
    ++ String.join (r.issues.map (Issue.text r.model))

/-- A value together with the issues met on the way to it; with issues the value is a stand-in. -/
structure Checked (α : Type) where
  issues : List Issue
  value : α

namespace Checked

instance : Monad Checked where
  pure a := ⟨[], a⟩
  bind x f :=
    let y := f x.value
    ⟨x.issues ++ y.issues, y.value⟩

/-- A field's value, or a stand-in and an issue. -/
def ofField {α : Type} (standIn : α) (name : String) (input : Json) :
    Except Complaint α → Checked α
  | .ok a => ⟨[], a⟩
  | .error c => ⟨[⟨some name, c, input⟩], standIn⟩

/-- The value if there are no issues, else the report on them. -/
def result {α : Type} (model : String) (x : Checked α) : Except Report α :=
  if x.issues.isEmpty then .ok x.value else .error ⟨model, x.issues⟩

end Checked

end Settler.Validation
