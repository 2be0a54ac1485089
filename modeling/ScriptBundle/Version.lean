import ScriptBundle.Manifest
import ScriptBundle.Value.Text
/-!
# The version

The version is taken from the project file of a source checkout, if that is the project file of
this program and names a version. Otherwise nothing is known of it.
-/

namespace ScriptBundle

/-- The name of the program. -/
def programName : String := "inlinejs"

/-- The version this library describes. -/
def currentVersion : String := "0.3.0"

/-- The version if none is known. -/
def unknownVersion : String := "0.0.0"

/-- Why a project file gives no version. -/
inductive VersionError where
  /-- The file is not TOML. -/
  | invalid
  /-- Something else than a table stands where a table is expected. -/
  | notTable
  /-- An integer has this many digits, which is more than are read. -/
  | tooManyDigits (n : Nat)
  deriving DecidableEq

/-- The version that the members of a project file name. -/
def versionOfMembers (ms : Toml.Members) : Except VersionError String :=
  match ms.lookup "project" with
  | none => .ok unknownVersion
  | some (.object project) =>
    match project.lookup "name", project.lookup "version" with
    | some (.string n), some v => .ok (if n = programName then v.text else unknownVersion)
    | _, _ => .ok unknownVersion
  | some _ => .error .notTable

/-- The version according to a project file, if there is one. -/
def versionOf (projectFile : Option String) : Except VersionError String :=
  match projectFile with
  | none => .ok unknownVersion
  | some s =>
    match Toml.read s.toList with
    | .error .invalid => .error .invalid
    | .error (.tooManyDigits n) => .error (.tooManyDigits n)
    | .ok ms => versionOfMembers ms

end ScriptBundle
