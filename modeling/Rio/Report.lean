/-!
# Reports

What a run has to say besides its result: records with a severity, in the order in which they arise.
They are plain values, returned with the result.
-/

namespace Rio

/-- How grave a record is. -/
inductive Severity where
  | error
  | warn
  | info
  | debug
  | trace
deriving Repr, DecidableEq

/-- The name of a severity as it is shown. -/
def Severity.name : Severity → String
  | error => "ERROR"
  | warn => "WARN"
  | info => "INFO"
  | debug => "DEBUG"
  | trace => "TRACE"

/-- One message with its severity. -/
structure Record where
  severity : Severity
  message : String
deriving Repr, DecidableEq

/-- The record on one line. -/
def Record.line (r : Record) : String :=
  r.severity.name ++ " " ++ r.message

end Rio
