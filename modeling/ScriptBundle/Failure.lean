import ScriptBundle.Path
import ScriptBundle.Decimal.Notation
/-!
# Failures

A failure has a kind, a message, and perhaps a context: the file, the component and the instruction
that were looked at. Its text shows the context on a line before the message.
-/

namespace ScriptBundle

/-- Where a failure was met. -/
structure FailureContext where
  /-- The file that was read. -/
  file : Path
  /-- The component in it. -/
  component : Option String
  /-- The instruction of the component. -/
  sequence : Option Int

/-- The text of a context. -/
def FailureContext.text (c : FailureContext) : String :=
  let component := match c.component with
    | some n => if n.isEmpty then "" else " in component " ++ n
    | none => ""
  let sequence := match c.sequence with
    | some i => " @" ++ Decimal.intText i
    | none => ""
  c.file.text ++ component ++ sequence

/-- The kinds of failures. -/
inductive FailureKind where
  | general
  | extractionSkip
  | manifest
  | renderFile
  | doubleAttach
  | reinitialization
  | unknownParameter (name : String)
  | parameterValue
  | siteState
  | ownerResolution
  | moduleLoad (path : String)
  deriving DecidableEq, Repr

/-- A failure. -/
structure Failure where
  /-- What kind of failure it is. -/
  kind : FailureKind
  /-- What happened. -/
  message : String
  /-- Where it happened. -/
  context : Option FailureContext

/-- The text of a failure. -/
def Failure.text (f : Failure) : String :=
  match f.context with
  | some c => c.text ++ "\n" ++ f.message
  | none => f.message

/-- The failure to load a script. -/
def Failure.moduleLoad (path : String) (reason : Option String) : Failure :=
  let tail := match reason with
    | some r => if r.isEmpty then "" else ": " ++ r
    | none => ""
  ⟨.moduleLoad path, "Failed to load script " ++ path ++ tail, none⟩

/-- The failure for a parameter that no script site has. -/
def Failure.unknownParameter (name : String) : Failure :=
  ⟨.unknownParameter name, "Unknown parameter: " ++ name, none⟩

/-- The failure to use a render file. -/
def Failure.renderFile (message : String) (file : Path) (component : Option String) : Failure :=
  ⟨.renderFile, message, some ⟨file, component, none⟩⟩

end ScriptBundle
