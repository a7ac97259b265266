import Settler.Json.Value

/-!
The scheduler's own errors: their families, codes, default messages and details.

Every family but the general one has a fixed code. A message that is not given is the code's own.
-/

namespace Settler

/-- What an error is about. -/
inductive ErrorCode where
  | configuration
  | schedule
  | transport
  | malformed
  | delivery
  | internal
  deriving DecidableEq, Repr, Inhabited

namespace ErrorCode

/-- Every code, in order. -/
def all : List ErrorCode := [.configuration, .schedule, .transport, .malformed, .delivery, .internal]

/-- The code's number. -/
def number : ErrorCode → String
  | .configuration => "S001"
  | .schedule => "S002"
  | .transport => "S003"
  | .malformed => "S004"
  | .delivery => "S005"
  | .internal => "S010"

/-- The message of an error that is given none. -/
def message : ErrorCode → String
  | .configuration => "Invalid configuration"
  | .schedule => "Invalid schedule expression"
  | .transport => "Settlement service unreachable"
  | .malformed => "Malformed settlement response"
  | .delivery => "Notification delivery failed"
  | .internal => "Internal scheduler error"

/-- The code of a number; any other text stands for an internal error. -/
def ofNumber (s : String) : ErrorCode := (all.find? fun c => c.number == s).getD .internal

end ErrorCode

/-- The families of the scheduler's own errors. -/
inductive ErrorFamily where
  | general
  | configuration
  | schedule
  | transport
  | malformed
  | delivery
  deriving DecidableEq, Repr

namespace ErrorFamily

/-- Every family, in order. -/
def all : List ErrorFamily := [.general, .configuration, .schedule, .transport, .malformed, .delivery]

/-- The family's name, as reports show it. -/
def name : ErrorFamily → String
  | .general => "SchedulerException"
  | .configuration => "ConfigurationException"
  | .schedule => "ScheduleParseException"
  | .transport => "SettlementTransportException"
  | .malformed => "MalformedSettlementResponse"
  | .delivery => "NotificationException"

/-- The family of a name. -/
def ofName? (s : String) : Option ErrorFamily := all.find? fun f => f.name == s

/-- The code of a family's errors; a general error has the internal one unless it is given another. -/
def code : ErrorFamily → ErrorCode
  | .general => .internal
  | .configuration => .configuration
  | .schedule => .schedule
  | .transport => .transport
  | .malformed => .malformed
  | .delivery => .delivery

end ErrorFamily

/-- One of the scheduler's own errors. -/
structure SchedulerError where
  family : ErrorFamily
  code : ErrorCode
  message : Str
  details : Json.Members
  deriving Repr

namespace SchedulerError

/-- An error of a family, with its code. -/
def make (family : ErrorFamily) (message : Str) (details : Json.Members) : SchedulerError :=
  ⟨family, family.code, message, details⟩

/-- An error of a family with the code's own message and no details. -/
def plain (family : ErrorFamily) : SchedulerError := make family family.code.message []

/-- Configuration errors also count as run-time errors. -/
def isRuntimeError (e : SchedulerError) : Bool := e.family == .configuration

end SchedulerError

end Settler
