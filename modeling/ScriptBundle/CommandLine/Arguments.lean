import ScriptBundle.Naming
import ScriptBundle.Path
/-!
# Command-line arguments

The options of the program come before the name of a command, and those of the command after it, in
any order with its argument. Long options may have their value after an equals sign; short options
may be joined, and the value of the last one may follow at once. `--` ends the options. Of an option
given several times the last value counts. `--help` and `--version` take effect before anything that
is missing is complained about, and so does a path that no file can have.
-/

namespace ScriptBundle.CommandLine

/-- An option. -/
structure Switch where
  /-- Its name, with the hyphens. -/
  long : String
  /-- Its short name. -/
  short : Option Char
  /-- Whether it has a value. -/
  takesValue : Bool

/-- An option given, by its long name, with its value. -/
abbrev Given := List (String × String)

/-- The options of joined short names, and the arguments after them. -/
def shortSwitches? (switches : List Switch) :
    List Char → List String → Option (Given × List String)
  | [], args => some ([], args)
  | c :: cs, args =>
    match switches.find? fun s => s.short = some c with
    | none => none
    | some s =>
      if s.takesValue then
        if cs.isEmpty then
          match args with
          | v :: args => some ([(s.long, v)], args)
          | [] => none
        else some ([(s.long, String.ofList cs)], args)
      else (shortSwitches? switches cs args).map fun p => ((s.long, "") :: p.1, p.2)

/-- The options of one argument that starts with a hyphen, and the arguments after them. -/
def switches? (switches : List Switch) (arg : String) (args : List String) :
    Option (Given × List String) :=
  let cs := arg.toList
  let name := String.ofList (cs.takeWhile (· != '='))
  let value? := match cs.dropWhile (· != '=') with
    | _ :: v => some (String.ofList v)
    | [] => none
  match switches.find? fun s => s.long = name with
  | some s =>
    if s.takesValue then
      match value?, args with
      | some v, args => some ([(name, v)], args)
      | none, v :: args => some ([(name, v)], args)
      | none, [] => none
    else if value?.isSome then none
    else some ([(name, "")], args)
  | none =>
    match cs with
    | '-' :: '-' :: _ => none
    | _ :: cs => shortSwitches? switches cs args
    | [] => none

/-- Holds of the arguments that are options. -/
def isSwitch (arg : String) : Bool :=
  match arg.toList with
  | '-' :: _ :: _ => true
  | _ => false

/-- The options among arguments, and the other arguments. Unless options may stand after other
arguments, the first of these ends the options. -/
def split? (switches : List Switch) (interspersed : Bool) :
    Nat → List String → Option (Given × List String)
  | 0, args => some ([], args)
  | _ + 1, [] => some ([], [])
  | fuel + 1, arg :: args =>
    if arg = "--" then some ([], args)
    else if isSwitch arg then
      match switches? switches arg args with
      | none => none
      | some (given, args) =>
        (split? switches interspersed fuel args).map fun p => (given ++ p.1, p.2)
    else if interspersed then
      (split? switches interspersed fuel args).map fun p => (p.1, arg :: p.2)
    else some ([], arg :: args)

/-- The last value given for an option. -/
def valueOf? (given : Given) (long : String) : Option String := given.reverse.lookup long

/-- Whether an option is given. -/
def has (given : Given) (long : String) : Bool := (valueOf? given long).isSome

/-- A command with its options. -/
inductive Command where
  /-- Builds a project. -/
  | build (project : String) (output : Option String) (prune : Bool)
  /-- Shows the scripts of a project. -/
  | inspect (project : String)
  /-- Shows where a site in a component loads from. -/
  | resolve (component : String) (globalBundle : Bool) (bundleName : String)
      (library : Option String) (project : String)
  deriving DecidableEq, Repr

/-- The directory of the project of a command. -/
def Command.project : Command → String
  | .build project _ _ | .inspect project | .resolve _ _ _ _ project => project

/-- What arguments ask for. -/
inductive Request where
  | usageError
  | help
  | version
  /-- A path with a NUL character, which no file can have. -/
  | nulPath
  | command (c : Command)
  deriving DecidableEq, Repr

/-- The option for help. -/
def helpSwitch : Switch := ⟨"--help", none, false⟩

/-- The option for the directory of a project. -/
def projectSwitch : Switch := ⟨"--project", some 'p', true⟩

/-- The options of the program. -/
def programSwitches : List Switch :=
  [⟨"--version", none, false⟩, ⟨"--verbose", some 'v', false⟩, helpSwitch]

/-- The options of the command that builds. -/
def buildSwitches : List Switch :=
  [projectSwitch, ⟨"--output", some 'o', true⟩, ⟨"--prune", none, false⟩, helpSwitch]

/-- The options of the command that shows scripts. -/
def inspectSwitches : List Switch := [projectSwitch, helpSwitch]

/-- The options of the command that shows where a site loads from. -/
def resolveSwitches : List Switch :=
  [⟨"--global", none, false⟩, ⟨"--bundle-name", some 'b', true⟩, ⟨"--library", some 'l', true⟩,
    projectSwitch, helpSwitch]

/-- Whether a path given by an option has a NUL character. -/
def hasNulPath (given : Given) : Bool :=
  ["--project", "--output"].any fun name =>
    (valueOf? given name).any fun s => (Path.ofString s).hasNul

/-- The request of arguments for a command with `switches`, where `read?` reads its other
arguments. -/
def commandRequest (switches : List Switch) (args : List String)
    (read? : Given → List String → Option Command) : Request :=
  match split? switches true (args.length + 1) args with
  | none => .usageError
  | some (given, rest) =>
    if has given "--help" then .help
    else if hasNulPath given then .nulPath
    else
      match read? given rest with
      | some c => .command c
      | none => .usageError

/-- The directory of the project. -/
def projectOf (given : Given) : String := (valueOf? given "--project").getD "."

/-- The command that builds, which has no argument. -/
def buildCommand? (given : Given) : List String → Option Command
  | [] => some (.build (projectOf given) (valueOf? given "--output") (has given "--prune"))
  | _ => none

/-- The command that shows scripts, which has no argument. -/
def inspectCommand? (given : Given) : List String → Option Command
  | [] => some (.inspect (projectOf given))
  | _ => none

/-- The command that shows where a site loads from, which has one argument. -/
def resolveCommand? (given : Given) : List String → Option Command
  | [component] =>
    some (.resolve component (has given "--global")
      ((valueOf? given "--bundle-name").getD defaultBundleName) (valueOf? given "--library")
      (projectOf given))
  | _ => none

/-- What the options of the program ask for at once, if they do. -/
def eagerRequest? (given : Given) : Option Request :=
  given.findSome? fun g =>
    if g.1 = "--help" then some .help else if g.1 = "--version" then some .version else none

/-- The request of a name that is no command, followed by arguments. If it looks like an option, it
is read as one. -/
def unknownCommand (name : String) (args : List String) : Request :=
  match name.toList with
  | c :: _ =>
    if c.isAlphanum then .usageError
    else
      match split? programSwitches false (args.length + 2) (name :: args) with
      | some (given, _) => (eagerRequest? given).getD .usageError
      | none => .usageError
  | [] => .usageError

/-- The request of arguments. -/
def Request.ofArguments (args : List String) : Request :=
  match split? programSwitches false (args.length + 1) args with
  | none => .usageError
  | some (given, rest) =>
    match eagerRequest? given with
    | some r => r
    | none =>
      match rest with
      | "build" :: args => commandRequest buildSwitches args buildCommand?
      | "inspect" :: args => commandRequest inspectSwitches args inspectCommand?
      | "resolve" :: args => commandRequest resolveSwitches args resolveCommand?
      | name :: args => unknownCommand name args
      | [] => .usageError

end ScriptBundle.CommandLine
