import ScriptBundle.Fragment
/-!
# Groups of fragments

The fragments that share a bundle key form a group. Groups stand in the order in which their keys
first appear, and the fragments of a group in the order in which they were found.
-/

namespace ScriptBundle

/-- The fragments of one bundle. -/
structure BundleGroup where
  /-- The key of the bundle. -/
  key : String
  /-- Its fragments. -/
  fragments : List Fragment
  deriving DecidableEq, Repr

/-- Holds of a group whose scripts are nothing but blanks. -/
def BundleGroup.isEmpty (g : BundleGroup) : Bool := g.fragments.all Fragment.isBlank

/-- The groups with one more fragment at the end. -/
def addToGroups (f : Fragment) : List BundleGroup → List BundleGroup
  | [] => [⟨f.bundleKey, [f]⟩]
  | g :: gs =>
    if g.key = f.bundleKey then { g with fragments := g.fragments ++ [f] } :: gs
    else g :: addToGroups f gs

/-- The groups of a list of fragments. -/
def groupFragments (fs : List Fragment) : List BundleGroup :=
  fs.foldl (fun gs f => addToGroups f gs) []

end ScriptBundle
