import ScriptBundle.Discovery
import ScriptBundle.Emission
/-!
# Building a project

A build collects the fragments of a project and writes their bundles.
-/

namespace ScriptBundle

/-- What a build did. -/
structure BuildResult where
  /-- The directory of the bundles. -/
  outputDir : Path
  /-- The fragments found. -/
  fragments : List Fragment
  /-- The paths of the bundles written. -/
  written : List Path
  /-- The render files skipped. -/
  skipped : List Path

/-- How the bundles of a project are written. -/
def Manifest.emissionOptions (m : Manifest) : EmissionOptions where
  scriptExt := m.scriptExt
  classWrapping := m.classWrapping
  prune := m.prune

/-- Builds the project in a directory, and leaves the tree as it is afterwards. The bundles go to
`output`, or else to the directory that the manifest sets. -/
def Tree.build (t : Tree) (root : Path) (m : Manifest) (output : Option Path) :
    Logged BuildResult × Tree :=
  let dir := output.getD (m.outputPath root)
  let collected := t.collect root m
  match collected.result with
  | .error e => (⟨.error e, collected.log⟩, t)
  | .ok c =>
    match (emit m.emissionOptions c.fragments dir).run t with
    | (.error e, t) => (⟨.error (.file e), collected.log⟩, t)
    | (.ok written, t) =>
      (⟨.ok ⟨dir, c.fragments, written, c.skipped⟩, collected.log⟩, t)

end ScriptBundle
