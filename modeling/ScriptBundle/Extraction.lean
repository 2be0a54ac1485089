import ScriptBundle.Component.Basic
import ScriptBundle.Coercion
import ScriptBundle.Fragment
import ScriptBundle.Record
/-!
# Extracting scripts from components

A script declaration is an opened script component and what follows it up to the next closed
component. Its body is the last literal text among its contents, trimmed, and each of its parameters
takes its first value if that one is literal and can be read, and its default otherwise. A
declaration that is never closed, or has no body, is skipped.

`findings` looks at every opened script component of a stream in turn; the fragments and the log
records of a component are read off its findings.
-/

namespace ScriptBundle

/-- Why a declaration is skipped. -/
inductive SkipReason where
  | notClosed
  | noLiteralContent
  | emptyBody
  deriving DecidableEq, Repr

/-- The text for a reason. -/
def SkipReason.text : SkipReason → String
  | .notClosed => "no closing marker"
  | .noLiteralContent => "no literal content"
  | .emptyBody => "empty script body"

/-- A parameter whose literal value could not be read. -/
structure UnreadParameter where
  /-- The parameter. -/
  name : String
  /-- Its value. -/
  value : Value
  /-- The default used instead. -/
  default : Value

/-- What an opened script component leads to. -/
inductive Finding where
  /-- A fragment, and the parameters for which it uses defaults. -/
  | script (fragment : Fragment) (unread : List UnreadParameter)
  /-- No fragment. -/
  | skipped (sequence : Int) (reason : SkipReason)

/-- The instructions of the declaration that a stream starts with: those before the first closed
component. -/
def declaration? (stream : List Instruction) : Option (List Instruction) :=
  if stream.any (·.kind = .closeComponent) then
    some (stream.takeWhile (·.kind ≠ .closeComponent))
  else none

/-- The text of a literal content instruction. -/
def Instruction.contentText? (i : Instruction) : Option String :=
  if i.kind.isContent && i.literal then
    match i.value with
    | .string s => some s
    | _ => none
  else none

/-- The last literal text among the contents of a declaration. -/
def content? (declaration : List Instruction) : Option String :=
  declaration.reverse.findSome? Instruction.contentText?

/-- The value given first for a parameter, if it is literal. -/
def literalParameter? (declaration : List Instruction) (name : String) : Option Value :=
  match declaration.find? fun i => i.kind = .addComponentParameter && i.name = some name with
  | some i => if i.literal then some i.value else none
  | none => none

/-- A parameter that is read by `coerce`, with its default `default`, which is shown as `shown`, if
its value could not be read. -/
def parameter {α : Type} (coerce : Value → Except CoercionError α) (shown : α → Value)
    (declaration : List Instruction) (name : String) (default : α) : α × List UnreadParameter :=
  match literalParameter? declaration name with
  | none => (default, [])
  | some v =>
    match coerce v with
    | .ok a => (a, [])
    | .error _ => (default, [⟨name, v, shown default⟩])

/-- A truth parameter with its default, and whether its value could not be read. -/
def boolParameter (declaration : List Instruction) (name : String) (default : Bool) :
    Bool × List UnreadParameter :=
  parameter coerceBool .bool declaration name default

/-- A text parameter with its default, and whether its value could not be read. -/
def textParameter (declaration : List Instruction) (name : String) (default : Option String) :
    Option String × List UnreadParameter :=
  parameter coerceText .ofOptional declaration name default

/-- The fragment of a declaration with a body. -/
def fragmentOf (owner body : String) (declaration : List Instruction) : Finding :=
  let globalBundle := boolParameter declaration "GlobalBundle" false
  let bundleName := textParameter declaration "BundleName" (some defaultBundleName)
  let scriptFile := textParameter declaration "ScriptFile" none
  let asClass := boolParameter declaration "AsClass" true
  let className := textParameter declaration "ClassName" none
  let addToGlobal := boolParameter declaration "AddToGlobal" false
  let addAsInstance := boolParameter declaration "AddAsInstance" false
  .script
    { ownerId := owner
      body := body
      globalBundle := globalBundle.1
      bundleName := bundleName.1
      scriptFile := scriptFile.1
      asClass := asClass.1
      className := className.1
      addToGlobal := addToGlobal.1
      addAsInstance := addAsInstance.1 }
    (globalBundle.2 ++ bundleName.2 ++ scriptFile.2 ++ asClass.2 ++ className.2 ++ addToGlobal.2 ++
      addAsInstance.2)

/-- What the declaration at the start of a stream leads to. -/
def findingAt (owner : String) (marker : Instruction) (stream : List Instruction) : Finding :=
  match declaration? stream with
  | none => .skipped marker.sequence .notClosed
  | some declaration =>
    match content? declaration with
    | none => .skipped marker.sequence .noLiteralContent
    | some text =>
      let body := Text.trim text
      if body.isEmpty then .skipped marker.sequence .emptyBody
      else fragmentOf owner body declaration

/-- Holds of an instruction that opens one of the script components. -/
def Instruction.opensScript (names : List String) (i : Instruction) : Bool :=
  i.kind = .openComponent &&
    match i.typeName with
    | some n => names.contains n
    | none => false

/-- What the opened script components of a stream lead to, in order. -/
def findings (names : List String) (owner : String) : List Instruction → List Finding
  | [] => []
  | i :: rest =>
    if i.opensScript names then findingAt owner i (i :: rest) :: findings names owner rest
    else findings names owner rest

/-- The fragment of a finding. -/
def Finding.fragment? : Finding → Option Fragment
  | .script f _ => some f
  | .skipped _ _ => none

/-- The log records of a finding. -/
def Finding.records (owner : String) : Finding → List Record
  | .script _ unread => unread.map fun u =>
    ⟨.warning, "Cannot read " ++ u.name ++ "=" ++ u.value.quoted ++ " in " ++ owner ++
      ", using default " ++ u.default.quoted⟩
  | .skipped sequence reason =>
    [⟨.debug, "Skipping script in " ++ owner ++ " @" ++ Decimal.intText sequence ++ ": " ++
      reason.text⟩]

/-- What the script declarations of a component lead to, in order. -/
def Component.findings (names : List String) (c : Component) : List Finding :=
  ScriptBundle.findings names c.ownerId c.instructions

/-- The fragments of a component, in the order of their declarations. -/
def Component.fragments (names : List String) (c : Component) : List Fragment :=
  (c.findings names).filterMap Finding.fragment?

/-- The log records of extracting from a component. -/
def Component.records (names : List String) (c : Component) : List Record :=
  (c.findings names).flatMap (Finding.records c.ownerId)

/-- The names of the script components if no others are set. -/
def defaultScriptComponents : List String := ["Script"]

end ScriptBundle
