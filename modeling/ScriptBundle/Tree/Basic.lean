import ScriptBundle.Path
import ScriptBundle.Text.Quoted
import ScriptBundle.Decimal.Notation
/-!
# Directory trees

A tree holds files and directories by their locations, which are lists of names from the root on.
`enter` goes one component further from a location, as a file system does: the location must be a
directory, and `..` leads to the one above it.
-/

namespace ScriptBundle

/-- What stands at a location. -/
inductive Entry where
  | file (content : ByteArray)
  | directory
  deriving Inhabited

/-- The files and directories below the root. -/
structure Tree where
  /-- Each location with what stands there, in the order of creation. -/
  entries : List (List String × Entry)
  /-- The location of the directory that relative paths start from. -/
  here : List String
  deriving Inhabited

/-- Why the file system refuses an operation. -/
inductive FileErrorKind where
  | notFound
  | fileExists
  | notDirectory
  | isDirectory
  | nameTooLong
  deriving DecidableEq, Repr

/-- Why an operation on a path fails. -/
inductive FileError where
  /-- The file system refuses it. -/
  | refused (kind : FileErrorKind) (path : Path)
  /-- The path holds a NUL character. -/
  | embeddedNul
  /-- A pattern has two stars beside something else. -/
  | doubleStar
  deriving DecidableEq, Repr

/-- The number of an error. -/
def FileErrorKind.number : FileErrorKind → Nat
  | .notFound => 2
  | .fileExists => 17
  | .notDirectory => 20
  | .isDirectory => 21
  | .nameTooLong => 36

/-- The description of an error. -/
def FileErrorKind.description : FileErrorKind → String
  | .notFound => "No such file or directory"
  | .fileExists => "File exists"
  | .notDirectory => "Not a directory"
  | .isDirectory => "Is a directory"
  | .nameTooLong => "File name too long"

/-- The message of an error. -/
def FileError.message : FileError → String
  | .refused kind path =>
    "[Errno " ++ Decimal.intText kind.number ++ "] " ++ kind.description ++ ": " ++
      Text.quoted path.text
  | .embeddedNul => "embedded null byte"
  | .doubleStar => "Invalid pattern: '**' can only be an entire path component"

namespace Tree

/-- The longest name of a file, in bytes. -/
def nameLimit : Nat := 255

/-- What stands at a location. -/
def entryAt? (t : Tree) (loc : List String) : Option Entry :=
  if loc.isEmpty then some .directory else t.entries.lookup loc

/-- Holds of the location of a directory. -/
def isDirectoryAt (t : Tree) (loc : List String) : Bool :=
  match t.entryAt? loc with
  | some .directory => true
  | _ => false

/-- The location one component further. -/
def enter (t : Tree) (loc : List String) (p : String) : Except FileErrorKind (List String) :=
  match t.entryAt? loc with
  | none => .error .notFound
  | some (.file _) => .error .notDirectory
  | some .directory =>
    if p = ".." then .ok loc.dropLast
    else if nameLimit < p.utf8ByteSize then .error .nameTooLong
    else .ok (loc ++ [p])

/-- The location that a path leads to. Something need not stand there, but all that the path goes
through must be directories. -/
def locate (t : Tree) (p : Path) : Except FileErrorKind (List String) :=
  p.parts.foldlM (enter t) (if p.isAbsolute then [] else t.here)

/-- What stands where a path leads. -/
def stat (t : Tree) (p : Path) : Except FileErrorKind Entry :=
  match t.locate p with
  | .error e => .error e
  | .ok loc =>
    match t.entryAt? loc with
    | some e => .ok e
    | none => .error .notFound

/-- The test of an entry where a path leads. What is missing fails the test; a path that is no
path of any file does too. -/
def test (t : Tree) (p : Path) (holds : Entry → Bool) : Except FileError Bool :=
  if p.hasNul then .ok false
  else
    match t.stat p with
    | .ok e => .ok (holds e)
    | .error .nameTooLong => .error (.refused .nameTooLong p)
    | .error _ => .ok false

/-- Whether something stands where a path leads. -/
def existsAt (t : Tree) (p : Path) : Except FileError Bool := t.test p fun _ => true

/-- Whether a directory stands where a path leads. -/
def isDirectory (t : Tree) (p : Path) : Except FileError Bool :=
  t.test p fun
    | .directory => true
    | .file _ => false

/-- The names in the directory at a location, in the order of creation. -/
def names (t : Tree) (loc : List String) : List String :=
  t.entries.filterMap fun e =>
    match e.1.getLast? with
    | some n => if e.1.dropLast = loc then some n else none
    | none => none

/-- The tree with an entry at a location, in place of what stood there. -/
def put (t : Tree) (loc : List String) (e : Entry) : Tree :=
  if t.entries.any (·.1 = loc) then
    { t with entries := t.entries.map fun x => if x.1 = loc then (loc, e) else x }
  else { t with entries := t.entries ++ [(loc, e)] }

/-- The tree without what stands at a location or below it. -/
def erase (t : Tree) (loc : List String) : Tree :=
  { t with entries := t.entries.filter fun x => !loc.isPrefixOf x.1 }

/-- The files below a location with their paths from there, in the order of the texts of these
paths. -/
def filesBelow (t : Tree) (loc : List String) : List (String × ByteArray) :=
  let found := t.entries.filterMap fun x =>
    match x.2 with
    | .file b =>
      if loc.isPrefixOf x.1 && loc.length < x.1.length then
        some ("/".intercalate (x.1.drop loc.length), b)
      else none
    | .directory => none
  found.mergeSort fun a b => Text.compareCodepoints a.1.toList b.1.toList != .gt

end Tree

end ScriptBundle
