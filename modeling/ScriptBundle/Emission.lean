import ScriptBundle.Bundle.Render
import ScriptBundle.Glob
import ScriptBundle.Tree.Change
/-!
# Writing bundles

Every group of fragments that renders to something is written to the file of its bundle. With
pruning, the files in the same directory that look like bundles and were not written are removed
afterwards. A failure leaves what was done before it.
-/

namespace ScriptBundle

/-- How bundles are written. -/
structure EmissionOptions where
  /-- The extension of script files. -/
  scriptExt : String := defaultScriptExt
  /-- Whether classes are written around scripts. -/
  classWrapping : Bool := false
  /-- Whether other bundles are removed. -/
  prune : Bool := false

/-- The path of the file of a bundle. -/
def EmissionOptions.bundlePath (o : EmissionOptions) (dir : Path) (key : String) : Path :=
  dir.child (bundleFileName key o.scriptExt)

/-- Writes the bundle of a group, if it has content, and returns the path. -/
def writeBundle (o : EmissionOptions) (dir : Path) (g : BundleGroup) :
    FileOperation (Option Path) :=
  match g.render o.classWrapping with
  | none => pure none
  | some content => do
    let path := o.bundlePath dir g.key
    FileOperation.writeFile path content.toUTF8
    pure (some path)

/-- Writes the bundles of groups and returns the paths. -/
def writeBundles (o : EmissionOptions) (dir : Path) : List BundleGroup → FileOperation (List Path)
  | [] => pure []
  | g :: gs => do
    let path ← writeBundle o dir g
    let paths ← writeBundles o dir gs
    pure (path.toList ++ paths)

/-- The pattern that the files of bundles follow. -/
def bundlePattern (ext : String) : String := bundleFileName "*" ext

/-- The paths in a directory that look like bundles. -/
def Tree.bundleFiles (t : Tree) (dir : Path) (ext : String) : Except FileError (List Path) :=
  match Glob.selectors? (bundlePattern ext) with
  | none => .error .doubleStar
  | some (selectors, onlyDirectories) => Glob.select t onlyDirectories selectors dir

/-- Removes the file where a path leads, unless nothing stands there. -/
def removeFound (p : Path) : FileOperation Unit := do
  match (← get).existsAt p with
  | .ok false => pure ()
  | _ => FileOperation.removeFile p

/-- Removes files. The paths are looked for one after the other, so that a file to which two of them
lead is not found again. -/
def removeFiles : List Path → FileOperation Unit
  | [] => pure ()
  | p :: ps => do
    removeFound p
    removeFiles ps

/-- Removes the bundles in a directory whose names are not among those of the paths `written`. -/
def pruneBundles (dir : Path) (ext : String) (written : List Path) : FileOperation Unit := do
  match (← get).bundleFiles dir ext with
  | .error e => throw e
  | .ok found => removeFiles (found.filter fun p => !(written.map Path.name).contains p.name)

/-- Writes the bundles of fragments into a directory, which is created if it is missing, and
returns their paths. -/
def emit (o : EmissionOptions) (fs : List Fragment) (dir : Path) : FileOperation (List Path) := do
  FileOperation.makeDirectories dir
  let written ← writeBundles o dir (groupFragments fs)
  if o.prune then pruneBundles dir o.scriptExt written
  pure written

end ScriptBundle
