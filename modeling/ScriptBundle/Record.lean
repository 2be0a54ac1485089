/-!
# Log records

What a pass over a project has to say about its input, in the order in which it was noticed.
-/

namespace ScriptBundle

/-- How serious a record is. -/
inductive Severity where
  | debug
  | warning
  deriving DecidableEq, Repr

/-- The word for a severity. -/
def Severity.word : Severity → String
  | .debug => "DEBUG"
  | .warning => "WARNING"

/-- One record of a log. -/
structure Record where
  /-- How serious it is. -/
  severity : Severity
  /-- What it says. -/
  message : String
  deriving DecidableEq, Repr

/-- The line of a record. -/
def Record.line (r : Record) : String := r.severity.word ++ " " ++ r.message

end ScriptBundle
