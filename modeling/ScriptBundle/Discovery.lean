import ScriptBundle.Component.Decode
import ScriptBundle.Extraction
import ScriptBundle.Glob
import ScriptBundle.Manifest
/-!
# Finding the scripts of a project

Render files are looked for below the sources of a project. However often and in whatever order the
sources lead to a file, it is read once, and the files are read in the order of their paths. A file
that cannot be read, or does not hold components, is skipped with a warning.
-/

namespace ScriptBundle

/-- Why a pass over a project fails. -/
inductive PassError where
  /-- A source is no text. -/
  | sourceNotText
  /-- A name of a script component is an array or a table. -/
  | compoundName
  /-- A file operation fails. -/
  | file (e : FileError)
  deriving DecidableEq, Repr

/-- The result of a pass over a project, and the log up to its end. -/
structure Logged (α : Type) where
  /-- What the pass leads to. -/
  result : Except PassError α
  /-- What was logged. -/
  log : List Record

/-- The pattern that the names of render files follow. -/
def renderFilePattern : String := "*.render.json"

/-- The render files below a directory; below anything else there are none. -/
def Tree.renderFilesBelow (t : Tree) (base : Path) : Except FileError (List Path) :=
  Glob.select t false [.directories, .pattern renderFilePattern] base

/-- The record of a source that is missing. -/
def missingSource (base : Path) : Record :=
  ⟨.debug, "Render source " ++ base.text ++ " does not exist, skipping"⟩

/-- The render files below one source: its files, or a record that it is missing. -/
def Tree.sourceFiles (t : Tree) (root : Path) :
    Value → Except PassError (List Path × List Record)
  | .string rel =>
    let p := Path.ofString rel
    let base := Path.resolve root p
    if p.hasNul then .error (.file .embeddedNul)
    else
      match t.existsAt base with
      | .error e => .error (.file e)
      | .ok false => .ok ([], [missingSource base])
      | .ok true =>
        match t.renderFilesBelow base with
        | .error e => .error (.file e)
        | .ok files => .ok (files, [])
  | _ => .error .sourceNotText

/-- The render files below sources, one source after the other. -/
def Tree.filesOfSources (t : Tree) (root : Path) : List Value → Logged (List Path)
  | [] => ⟨.ok [], []⟩
  | s :: ss =>
    match t.sourceFiles root s with
    | .error e => ⟨.error e, []⟩
    | .ok (files, log) =>
      let rest := t.filesOfSources root ss
      ⟨rest.result.map (files ++ ·), log ++ rest.log⟩

/-- Paths in order, each once. -/
def sortPaths (ps : List Path) : List Path := ps.eraseDups.mergeSort Path.le

/-- The render files of a project. -/
def Tree.discover (t : Tree) (root : Path) (m : Manifest) : Logged (List Path) :=
  let found := t.filesOfSources root m.sources
  ⟨found.result.map sortPaths, found.log⟩

/-- Why a render file is skipped. -/
inductive RenderFileProblem where
  /-- It cannot be read. -/
  | unreadable
  /-- It does not hold components. -/
  | invalid (issues : List Validation.Issue)
  deriving Repr

/-- The message for a problem. -/
def RenderFileProblem.message : RenderFileProblem → String
  | .unreadable => "Cannot read render file"
  | .invalid _ => "Invalid render file"

/-- The failure that reports a problem with a file. -/
def RenderFileProblem.failure (p : RenderFileProblem) (file : Path) : Failure :=
  Failure.renderFile p.message file none

/-- The components in a render file. -/
def Tree.loadRenderFile (t : Tree) (file : Path) : Except RenderFileProblem (List Component) :=
  match t.readFile file with
  | .error _ => .error .unreadable
  | .ok bytes =>
    match componentsOfBytes bytes with
    | .ok cs => .ok cs
    | .error issues => .error (.invalid issues)

/-- The fragments found in a project. -/
structure Collection where
  /-- The fragments, in the order of files, components and declarations. -/
  fragments : List Fragment
  /-- The files that were skipped. -/
  skipped : List Path

/-- What one render file adds to a collection, and to the log. -/
def Tree.collectFile (t : Tree) (names : List String) (file : Path) : Collection × List Record :=
  match t.loadRenderFile file with
  | .error p => (⟨[], [file]⟩, [⟨.warning, (p.failure file).text⟩])
  | .ok cs => (⟨cs.flatMap (·.fragments names), []⟩, cs.flatMap (·.records names))

/-- What render files hold, one file after the other. -/
def Tree.collectFiles (t : Tree) (names : List String) (files : List Path) :
    Collection × List Record :=
  let parts := files.map (t.collectFile names)
  (⟨parts.flatMap (·.1.fragments), parts.flatMap (·.1.skipped)⟩, parts.flatMap (·.2))

/-- The names of the script components of a manifest, unless one of them is compound. Names that
are no texts never occur. -/
def Manifest.scriptNames (m : Manifest) : Except PassError (List String) :=
  if m.scriptComponents.any Toml.isContainer then .error .compoundName
  else .ok (m.scriptComponents.filterMap Value.asString?)

/-- The fragments of a project. -/
def Tree.collect (t : Tree) (root : Path) (m : Manifest) : Logged Collection :=
  match m.scriptNames with
  | .error e => ⟨.error e, []⟩
  | .ok names =>
    let found := t.discover root m
    match found.result with
    | .error e => ⟨.error e, found.log⟩
    | .ok files =>
      let (c, log) := t.collectFiles names files
      ⟨.ok c, found.log ++ log⟩

end ScriptBundle
