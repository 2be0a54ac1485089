import ScriptBundle.Bundle.Group
import ScriptBundle.Text.Lines
/-!
# The text of a bundle

A bundle starts with a banner line that names its key, and holds its sections one after the other.
Without class wrapping each script is a section. With it, the scripts that may be wrapped are
gathered into one class for each class name, which stands where the first script of that name
stands; the lines of its scripts are indented.
-/

namespace ScriptBundle

/-- A part of a bundle. -/
inductive Section where
  /-- A script on its own. -/
  | plain (f : Fragment)
  /-- The scripts of one class. -/
  | wrapped (className : String) (members : List Fragment)
  deriving DecidableEq, Repr

/-- The sections with one more member in the class of a name, which opens at the end if there is
none yet. -/
def addToClass (name : String) (f : Fragment) : List Section → List Section
  | [] => [.wrapped name [f]]
  | .wrapped n ms :: rest =>
    if n = name then .wrapped n (ms ++ [f]) :: rest else .wrapped n ms :: addToClass name f rest
  | .plain g :: rest => .plain g :: addToClass name f rest

/-- The sections with one more fragment. -/
def addSection (classWrapping : Bool) (f : Fragment) (sections : List Section) : List Section :=
  if classWrapping && f.asClass then addToClass f.effectiveClassName f sections
  else sections ++ [.plain f]

/-- The sections of the fragments of a bundle. -/
def sections (classWrapping : Bool) (fs : List Fragment) : List Section :=
  fs.foldl (fun ss f => addSection classWrapping f ss) []

/-- A line inside a class: indented, unless it is empty. -/
def indentLine (line : String) : String := if line.isEmpty then line else "  " ++ line

/-- The lines of a class section. -/
def classLines (name : String) (members : List Fragment) : List String :=
  let body := "\n".intercalate (members.flatMap fun f => (Text.lines f.body).map indentLine)
  let frame :=
    if members.any (·.addAsInstance) then
      ["export const " ++ name ++ " = new (class " ++ name ++ " \x7b", body, "\x7d)();"]
    else ["export class " ++ name ++ " \x7b", body, "\x7d"]
  if members.any (·.addToGlobal) then
    frame ++ ["globalThis." ++ name ++ " = " ++ name ++ ";"]
  else frame

/-- The text of a section. -/
def Section.text : Section → String
  | .plain f => f.body
  | .wrapped name members => "\n".intercalate (classLines name members)

/-- The start of the banner line. -/
def bannerStart : String := "// Auto-generated bundle: "

/-- The text of a bundle, unless it would hold nothing but blanks. -/
def BundleGroup.render (classWrapping : Bool) (g : BundleGroup) : Option String :=
  let body := String.join ((sections classWrapping g.fragments).map fun s => s.text ++ "\n")
  if Text.isBlankText body then none else some (bannerStart ++ g.key ++ "\n" ++ body)

end ScriptBundle
