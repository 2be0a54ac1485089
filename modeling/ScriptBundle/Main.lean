import ScriptBundle.CommandLine.Run
import ScriptBundle.LogLevel
/-!
# The command line

The program reads the directories that a command can reach into a tree, runs the command on it, and
writes back what has changed. Everything else is decided by the library.
-/

namespace ScriptBundle.CommandLine

/-- The usage text. -/
def usage : String :=
  "Usage: inlinejs [--verbose] COMMAND\n\n" ++
    "  build    [--project DIR] [--output DIR] [--prune]   write one file per bundle\n" ++
    "  inspect  [--project DIR]                            list scripts grouped by bundle\n" ++
    "  resolve  COMPONENT [--global] [--bundle-name NAME] [--library PACKAGE] [--project DIR]\n" ++
    "                                                      print the path a site would load\n"

/-- The text of the path of a location. -/
def locationText (loc : List String) : String := "/" ++ "/".intercalate loc

/-- The entries at and below a location, down to a depth. -/
def readBelow : Nat → List String → IO (List (List String × Entry))
  | 0, _ => pure []
  | depth + 1, loc => do
    let directory := (← IO.currentDir) / locationText loc
    let children ← (some <$> directory.readDir) <|> pure none
    match children with
    | some children =>
      let below ← children.toList.mapM fun c => readBelow depth (loc ++ [c.fileName])
      pure ((loc, .directory) :: below.flatten)
    | none =>
      let content ← (some <$> IO.FS.readBinFile (locationText loc)) <|> pure none
      pure (content.toList.map fun b => (loc, .file b))

/-- How deep directories are read. -/
def readingDepth : Nat := 64

/-- The directories that a location lies in. -/
def ancestors (loc : List String) : List (List String × Entry) :=
  (List.range loc.length).map fun n => (loc.take n, .directory)

/-- The entries that a command on a project can reach: those of the current directory, the project,
its sources and the directory for bundles. -/
def reachable (here : List String) (project : String) (output : Option String)
    (override : Option String) : IO Tree := do
  let root := Path.resolve ⟨1, here⟩ (Path.ofString project)
  let load (t : Tree) (loc : List String) : IO Tree := do
    if (t.entryAt? loc).isSome ∧ loc ≠ [] then pure t
    else
      let found := ancestors loc ++ (← readBelow readingDepth loc)
      pure (found.foldl (fun t e => if e.1.isEmpty then t else t.put e.1 e.2) t)
  let t ← load ⟨[], here⟩ root.parts
  match t.findManifest override root with
  | .error _ => pure t
  | .ok m =>
    let sources := m.sources.filterMap fun s => s.asString?.map fun s => root.child s
    let dir := match output with
      | some o => Path.ofString o
      | none => m.outputPath root
    (sources ++ [dir]).foldlM (fun t p => load t (Path.resolve ⟨1, here⟩ p).parts) t

/-- Writes back what stands at a location after a command and did not stand there before. -/
def writeEntry (before : Tree) (e : List String × Entry) : IO Unit :=
  match e.2, before.entryAt? e.1 with
  | .directory, some .directory => pure ()
  | .directory, _ => IO.FS.createDirAll (locationText e.1)
  | .file b, some (.file c) =>
    if b.toList = c.toList then pure () else IO.FS.writeBinFile (locationText e.1) b
  | .file b, _ => IO.FS.writeBinFile (locationText e.1) b

/-- Writes back what has changed. -/
def writeChanges (before after : Tree) : IO Unit := do
  after.entries.forM (writeEntry before)
  before.entries.forM fun e =>
    match e.2, after.entryAt? e.1 with
    | .file _, none => IO.FS.removeFile (locationText e.1)
    | _, _ => pure ()

/-- The message of a fault. -/
def Fault.message : Fault → String
  | .manifest e => e.message
  | .pass (.file e) => e.message
  | .pass .sourceNotText => "a source is not a string"
  | .pass .compoundName => "a script component is not a string"
  | .markup => "a text with markup cannot be printed"

/-- The directory for bundles that a command names. -/
def Command.output : Command → Option String
  | .build _ output _ => output
  | .inspect _ | .resolve _ _ _ _ _ => none

/-- Runs a command on the directories it can reach, and returns the exit code. -/
def perform (c : Command) : IO UInt32 := do
  let here := Path.partsOf (toString (← IO.currentDir))
  let override ← IO.getEnv "INLINEJS_OUTPUT_DIR"
  let before ← reachable here c.project c.output override
  let (outcome, after) := c.run before override
  writeChanges before after
  match outcome with
  | .ok e =>
    IO.print e.printed
    pure e.code.toUInt32
  | .error f =>
    IO.eprintln f.message
    pure 1

end ScriptBundle.CommandLine

open ScriptBundle.CommandLine in
/-- The program. -/
def main (args : List String) : IO UInt32 := do
  match Request.ofArguments args with
  | .usageError =>
    IO.eprint usage
    pure 2
  | .help =>
    IO.print usage
    pure 0
  | .version =>
    IO.println versionLine
    pure 0
  | .nulPath =>
    IO.eprintln ScriptBundle.FileError.embeddedNul.message
    pure 1
  | .command c => perform c
