import ScriptBundle.Build
import ScriptBundle.CommandLine.Arguments
import ScriptBundle.Console.Wide
import ScriptBundle.Site.Location
import ScriptBundle.Version
/-!
# Running commands

A command works on a directory tree and ends with an exit code and the text it printed, or is
stopped by a fault. What is printed about a project is text with console markup, and how that
comes out depends on the console; where a site loads from is printed as it is.
-/

namespace ScriptBundle.CommandLine

/-- What stops a command. -/
inductive Fault where
  /-- The manifest cannot be used, in a way that is not reported to the user. -/
  | manifest (e : ManifestError)
  /-- A pass over the project fails. -/
  | pass (e : PassError)
  /-- The console cannot print a text with markup: a tag in it closes a style that is not open, or
  names one that cannot be read. -/
  | markup
  deriving DecidableEq

/-- The end of a command. -/
structure Ending where
  /-- The exit code. -/
  code : Nat
  /-- What was printed. -/
  printed : String
  deriving DecidableEq

/-- How a command ends. -/
abbrev Outcome := Except Fault Ending

/-- What a console prints, or the fault that it cannot. -/
def printing (t? : Option String) : Except Fault String :=
  match t? with
  | some t => .ok t
  | none => .error .markup

/-- A printed line of text with markup. -/
def shown (console : Console) (s : String) : Except Fault String := printing (console.line? s)

/-- Printed lines of text with markup. -/
def shownLines (console : Console) (ls : List String) : Except Fault String :=
  (ls.mapM (shown console)).map String.join

/-- What the failure of the manifest leads to: a message, or a fault if it is not one that is
reported. -/
def manifestFailure (console : Console) (e : ManifestError) : Outcome :=
  match e with
  | .unreadable _ | .invalid _ | .wrongType _ _ =>
    (shown console ("[red]" ++ e.message ++ "[/red]")).map fun s => ⟨1, s⟩
  | .notTable | .tooManyDigits _ | .file _ => .error (.manifest e)

/-- The directory of a project. -/
def projectRoot (t : Tree) (project : String) : Except Fault Path :=
  let p := Path.ofString project
  if p.hasNul then .error (.pass (.file .embeddedNul)) else .ok (Path.resolve ⟨1, t.here⟩ p)

/-- What is printed if there are no scripts. -/
def nothingFound : String := "[dim]No inline scripts found.[/dim]"

/-- What a build prints. -/
def buildReport (r : BuildResult) : List String :=
  let skipped := r.skipped.map fun p =>
    "[yellow]Skipped unreadable render file: " ++ p.text ++ "[/yellow]"
  if r.written.isEmpty then skipped ++ [nothingFound]
  else
    skipped ++ r.written.map (fun p => "[green]Wrote[/green] " ++ p.text) ++
      [Decimal.intText r.fragments.length ++ " script(s) in " ++
        Decimal.intText r.written.length ++ " bundle(s) -> " ++ r.outputDir.text]

/-- The end of a build that failed. -/
def buildFailure (console : Console) (e : PassError) : Outcome :=
  match e with
  | .file (.refused kind path) =>
    (shown console
      ("[red]Build failed: " ++ (FileError.refused kind path).message ++ "[/red]")).map
        fun s => ⟨1, s⟩
  | e => .error (.pass e)

/-- Builds a project. -/
def runBuild (console : Console) (t : Tree) (override : Option String) (project : String)
    (output : Option String) (prune : Bool) : Outcome × Tree :=
  match projectRoot t project with
  | .error f => (.error f, t)
  | .ok root =>
    match t.findManifest override root with
    | .error e => (manifestFailure console e, t)
    | .ok m =>
      let m := if prune then { m with prune := true } else m
      let (r, t) := t.build root m (output.map Path.ofString)
      match r.result with
      | .error e => (buildFailure console e, t)
      | .ok result => ((shownLines console (buildReport result)).map fun s => ⟨0, s⟩, t)

/-- The columns of the table of scripts. -/
def scriptColumns : List Console.Column :=
  [⟨"Bundle file", .left⟩, ⟨"Component", .left⟩, ⟨"Global", .centre⟩, ⟨"Lines", .right⟩]

/-- The rows of the table of scripts, with markup. -/
def scriptRows (ext : String) (fs : List Fragment) : List (List String) :=
  (groupFragments fs).flatMap fun g =>
    g.fragments.map fun f =>
      [bundleFileName g.key ext, f.ownerId, if f.globalBundle then "yes" else "",
        Decimal.intText (Text.lines f.body).length]

/-- A printed table of scripts, from rows with markup. -/
def shownTable (console : Console) (rows : List (List String)) : Except Fault String :=
  printing (console.tableText? "Inline script bundles" scriptColumns rows)

/-- What is printed about fragments. -/
def inspectReport (console : Console) (ext : String) (fs : List Fragment) : Except Fault String :=
  if fs.isEmpty then shown console nothingFound else shownTable console (scriptRows ext fs)

/-- Shows the scripts of a project. -/
def runInspect (console : Console) (t : Tree) (override : Option String) (project : String) :
    Outcome :=
  match projectRoot t project with
  | .error f => .error f
  | .ok root =>
    match t.findManifest override root with
    | .error e => manifestFailure console e
    | .ok m =>
      match (t.collect root m).result with
      | .error e => .error (.pass e)
      | .ok c => (inspectReport console m.scriptExt c.fragments).map fun s => ⟨0, s⟩

/-- The owner that stands for a component named on the command line. -/
def namedOwner (component : String) (library : Option String) (m : Manifest) : OwnerInfo where
  identity := component
  packageId := match library with
    | some l => if l.isEmpty then m.name else l
    | none => m.name
  isFromLib := library.isSome

/-- Shows where a site in a component loads from. -/
def runResolve (console : Console) (t : Tree) (override : Option String) (component : String)
    (globalBundle : Bool) (bundleName : String) (library : Option String) (project : String) :
    Outcome :=
  match projectRoot t project with
  | .error f => .error f
  | .ok root =>
    match t.findManifest override root with
    | .error e => manifestFailure console e
    | .ok m =>
      let settings := { m.siteSettings with classWrapping := false }
      let parameters : SiteParameters :=
        { globalBundle := globalBundle, bundleName := some bundleName }
      .ok ⟨0, settings.bundlePath parameters (namedOwner component library m) ++ "\n"⟩

/-- Runs a command on a tree with a console, and leaves the tree as it is afterwards. -/
def Command.runOn (console : Console) (c : Command) (t : Tree) (override : Option String) :
    Outcome × Tree :=
  match c with
  | .build project output prune => runBuild console t override project output prune
  | .inspect project => (runInspect console t override project, t)
  | .resolve component globalBundle bundleName library project =>
    (runResolve console t override component globalBundle bundleName library project, t)

/-- Runs a command with a console of 10000 columns. -/
def Command.run (c : Command) (t : Tree) (override : Option String) : Outcome × Tree :=
  c.runOn .wide t override

/-- The line that tells the version. -/
def versionLine : String := programName ++ " version " ++ currentVersion

end ScriptBundle.CommandLine
