import ScriptBundle.Failure
import ScriptBundle.Naming
import ScriptBundle.Text.Lines
import ScriptBundle.Toml.Document
import ScriptBundle.Tree.Change
/-!
# Manifests

The manifest of a project is the TOML file `inlinejs.toml` in its root. Every setting has a
default, and a project without the file has them all. The directory for bundles can also be set
from outside, which counts more than the file.
-/

namespace ScriptBundle

/-- The name of the file of a manifest. -/
def manifestFileName : String := "inlinejs.toml"

/-- The settings of a project. -/
structure Manifest where
  /-- The package of the application. -/
  name : String
  /-- The directories that render files are looked for in. -/
  sources : List Value
  /-- The directory that the site serves. -/
  staticRoot : String
  /-- The directory in it that receives the bundles. -/
  outputDir : String
  /-- The extension of script files. -/
  scriptExt : String
  /-- The names of the components that hold scripts. -/
  scriptComponents : List Value
  /-- Whether classes are written around scripts. -/
  classWrapping : Bool
  /-- Whether bundles that a build does not write are removed. -/
  prune : Bool
  /-- The directory that libraries are served from. -/
  contentRoot : String

/-- The settings of a project that sets nothing. -/
def Manifest.defaults : Manifest where
  name := "app"
  sources := [.string "."]
  staticRoot := "wwwroot"
  outputDir := defaultOutputDir
  scriptExt := defaultScriptExt
  scriptComponents := [.string "Script"]
  classWrapping := false
  prune := false
  contentRoot := "_content"

/-- Why there is no manifest. -/
inductive ManifestError where
  /-- The file cannot be read. -/
  | unreadable (path : Path)
  /-- The file is not TOML. -/
  | invalid (path : Path)
  /-- A setting has a value of the wrong type. -/
  | wrongType (key typeName : String)
  /-- Something else than a table stands where a table is expected. -/
  | notTable
  /-- An integer has this many digits, which is more than are read. -/
  | tooManyDigits (n : Nat)
  /-- The file system cannot tell whether there is a file. -/
  | file (e : FileError)
  deriving DecidableEq

/-- The message for an integer with too many digits. -/
def tooManyDigitsMessage (n : Nat) : String :=
  "Exceeds the limit (4300 digits) for integer string conversion: value has " ++
    Decimal.intText n ++ " digits; use sys.set_int_max_str_digits() to increase the limit"

/-- The message of a failure to get a manifest. -/
def ManifestError.message : ManifestError → String
  | .unreadable p => "Cannot read " ++ p.text
  | .invalid p => "Invalid " ++ p.text
  | .wrongType key typeName => manifestFileName ++ ": '" ++ key ++ "' must be " ++ typeName
  | .notTable => "not a table"
  | .tooManyDigits n => tooManyDigitsMessage n
  | .file e => e.message

/-- The members of a table that may be left out. -/
def tableMember (name : String) (ms : Toml.Members) : Except ManifestError Toml.Members :=
  match ms.lookup name with
  | none => .ok []
  | some (.object sub) => .ok sub
  | some _ => .error .notTable

/-- A setting with a default. -/
def setting {α : Type} (table key typeName : String) (read? : Value → Option α) (default : α)
    (ms : Toml.Members) : Except ManifestError α :=
  match ms.lookup key with
  | none => .ok default
  | some v =>
    match read? v with
    | some a => .ok a
    | none => .error (.wrongType (table ++ "." ++ key) typeName)

/-- The items of an array. -/
def Value.asArray? : Value → Option (List Value)
  | .array items => some items
  | _ => none

/-- The characters of a text. -/
def Value.asString? : Value → Option String
  | .string s => some s
  | _ => none

/-- A truth value. -/
def Value.asBool? : Value → Option Bool
  | .bool b => some b
  | _ => none

/-- The manifest that the members of a document describe. Of several wrong settings the first one
in this order is reported. -/
def Manifest.ofMembers (ms : Toml.Members) : Except ManifestError Manifest := do
  let d := Manifest.defaults
  let build ← tableMember "build" ms
  let sources ← setting "build" "sources" "list" Value.asArray? d.sources build
  let components ←
    setting "build" "script_components" "list" Value.asArray? d.scriptComponents build
  let classWrapping ← setting "build" "class_wrapping" "bool" Value.asBool? d.classWrapping build
  let prune ← setting "build" "prune" "bool" Value.asBool? d.prune build
  let staticRoot ← setting "build" "static_root" "str" Value.asString? d.staticRoot build
  let outputDir ← setting "build" "output_dir" "str" Value.asString? d.outputDir build
  let scriptExt ← setting "build" "script_ext" "str" Value.asString? d.scriptExt build
  let site ← tableMember "runtime" ms
  let contentRoot ← setting "runtime" "content_root" "str" Value.asString? d.contentRoot site
  let project ← tableMember "project" ms
  let name ← setting "project" "name" "str" Value.asString? d.name project
  .ok
    { name := name
      sources := sources
      staticRoot := staticRoot
      outputDir := outputDir
      scriptExt := scriptExt
      scriptComponents := components
      classWrapping := classWrapping
      prune := prune
      contentRoot := contentRoot }

/-- The manifest that the bytes of the file at a path hold. -/
def Manifest.ofBytes (path : Path) (bytes : ByteArray) : Except ManifestError Manifest :=
  match String.fromUTF8? bytes with
  | none => .error (.unreadable path)
  | some s =>
    match Toml.read (Text.universalNewlines s.toList) with
    | .error .invalid => .error (.invalid path)
    | .error (.tooManyDigits n) => .error (.tooManyDigits n)
    | .ok ms => Manifest.ofMembers ms

/-- The manifest with the directory for bundles set from outside, if that is not blank. -/
def Manifest.override (m : Manifest) (outputDir : Option String) : Manifest :=
  match outputDir with
  | none => m
  | some s => if Text.isBlankText s then m else { m with outputDir := Text.trim s }

/-- The manifest in the file at a path. -/
def Tree.loadManifest (t : Tree) (outputDir : Option String) (path : Path) :
    Except ManifestError Manifest :=
  match t.readFile path with
  | .error .embeddedNul => .error (.file .embeddedNul)
  | .error _ => .error (.unreadable path)
  | .ok bytes => (Manifest.ofBytes path bytes).map fun m => m.override outputDir

/-- The manifest of the project in a directory. -/
def Tree.findManifest (t : Tree) (outputDir : Option String) (root : Path) :
    Except ManifestError Manifest :=
  let path := root.child manifestFileName
  match t.existsAt path with
  | .error e => .error (.file e)
  | .ok false => .ok (Manifest.defaults.override outputDir)
  | .ok true => t.loadManifest outputDir path

/-- The directory that receives the bundles of a project. -/
def Manifest.outputPath (m : Manifest) (root : Path) : Path :=
  (root.child m.staticRoot).child m.outputDir

end ScriptBundle
