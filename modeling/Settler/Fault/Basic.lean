import Settler.Fault.Code
import Settler.Text.Quoted

/-!
Faults: everything that can cut an activity short.

A fault is a cause. `Fault.kind` names it and `Fault.message` words it, as reports show them.
-/

namespace Settler

/-- Why an activity was cut short. -/
inductive Fault where
  /-- It was told to stop. -/
  | cancelled
  /-- One of the scheduler's own errors. -/
  | scheduler (e : SchedulerError)
  /-- An exchange with a far side failed on the way. -/
  | transport (kind : String) (message : Str)
  /-- Any other failure of a collaborator. -/
  | foreign (kind : String) (message : Str)
  /-- A date left the years 1 to 9999 by adding a span. -/
  | dateRange
  /-- A date was given a year outside 1 to 9999. -/
  | yearRange (year : Nat)
  /-- Moments with and without an offset were compared. -/
  | mixedOffsets
  /-- A job was asked for by a name that no job has. -/
  | unknownJob (name : String)
  /-- Two jobs have one name. -/
  | duplicateJob (name : String)
  /-- An infinity was to be taken for a whole number. -/
  | infiniteInteger
  /-- An integer is too large for a binary number. -/
  | hugeInteger
  /-- A worker has no way to run. -/
  | notImplemented
  /-- A worker was given an answer that is not one to its question. -/
  | misfit
  /-- A log level has no meaning. -/
  | unknownLevel (name : String)
  /-- A text is no address. -/
  | invalidAddress (message : String)
  /-- Input did not have the required form. -/
  | invalid (report : String)
  deriving Repr

namespace Fault

/-- The fault's kind. -/
def kind : Fault → String
  | .cancelled => "CancelledError"
  | .scheduler e => e.family.name
  | .transport kind _ => kind
  | .foreign kind _ => kind
  | .dateRange => "OverflowError"
  | .yearRange _ => "ValueError"
  | .mixedOffsets => "TypeError"
  | .unknownJob _ => "KeyError"
  | .duplicateJob _ => "ValueError"
  | .infiniteInteger => "OverflowError"
  | .hugeInteger => "OverflowError"
  | .notImplemented => "NotImplementedError"
  | .misfit => "TypeError"
  | .unknownLevel _ => "ValueError"
  | .invalidAddress _ => "InvalidURL"
  | .invalid _ => "ValidationError"

/-- The fault in words. -/
def message : Fault → Str
  | .cancelled => ""
  | .scheduler e => e.message
  | .transport _ message => message
  | .foreign _ message => message
  | .dateRange => "date value out of range"
  | .yearRange year => "year " ++ toString year ++ " is out of range"
  | .mixedOffsets => "can't compare offset-naive and offset-aware datetimes"
  | .unknownJob name => Text.quoted name
  | .duplicateJob name => "Duplicate job name: " ++ name
  | .infiniteInteger => "cannot convert float infinity to integer"
  | .hugeInteger => "int too large to convert to float"
  | .notImplemented => ""
  | .misfit => "unexpected answer"
  | .unknownLevel name => "Unknown level: " ++ Text.quoted name
  | .invalidAddress message => message
  | .invalid report => report

/-- The fault's kind and words, as a job's health shows them. -/
def describe (f : Fault) : Str := f.kind ++ ": " ++ f.message

end Fault

end Settler
