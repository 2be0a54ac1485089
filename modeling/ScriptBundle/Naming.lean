import ScriptBundle.Text.Blank
/-!
# Names of bundles and classes

The build writes the scripts of a component into a bundle, and at run time a script site loads the
bundle of its component. Both compute the bundle's key, its file name and the name of the class
around a component's scripts with the functions below, and need no other agreement.

Identities of components are dotted, and so are keys; the owner `A.B` with the bundle `C` and the
owner `A` with the bundle `B.C` share the key `A.B.C`.
-/

namespace ScriptBundle

/-- The name of a bundle that has no name of its own. -/
def defaultBundleName : String := "index"

/-- The directory for bundles if nothing else is set. -/
def defaultOutputDir : String := "inlinejs"

/-- The extension of script files if nothing else is set. -/
def defaultScriptExt : String := "js"

/-- The name, or the default name if there is none or it is empty. -/
def effectiveBundleName (name : Option String) : String :=
  match name with
  | some n => if n.isEmpty then defaultBundleName else n
  | none => defaultBundleName

/-- The key of the bundle of a script: the bundle's name alone if it is global, and otherwise the
owner and the name with a dot between them. -/
def bundleKey (isGlobal : Bool) (name : Option String) (owner : String) : String :=
  if isGlobal then effectiveBundleName name else owner ++ "." ++ effectiveBundleName name

/-- The name of the file of a bundle. -/
def bundleFileName (key : String) (ext : String) : String :=
  key ++ ".g." ++ ext

/-- The name of the class around the scripts of an owner: the identity with underscores for the
dots. -/
def ownerClassName (owner : String) : String :=
  Text.replaceChar '.' '_' owner

/-- An identifier as a member of a class, if there is one with a name. -/
def qualify (className : Option String) (identifier : String) : String :=
  match className with
  | some c => if c.isEmpty then identifier else c ++ "." ++ identifier
  | none => identifier

/-- A class name if it is given and not empty, and else the name for the owner. -/
def effectiveClassName (className : Option String) (owner : String) : String :=
  match className with
  | some c => if c.isEmpty then ownerClassName owner else c
  | none => ownerClassName owner

end ScriptBundle
