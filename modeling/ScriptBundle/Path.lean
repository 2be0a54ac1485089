import ScriptBundle.Text.Blank
/-!
# Paths

A path is a root and a list of components. Empty components and `.` are dropped when a path is
read, `..` is kept. Exactly two slashes at the start are a root of their own; any other number of
them is one.
-/

namespace ScriptBundle

/-- A path. -/
structure Path where
  /-- How many slashes it starts with: none, one or two. -/
  slashes : Nat
  /-- Its components. -/
  parts : List String
  deriving DecidableEq, Repr, Inhabited

namespace Path

/-- The components of a text. -/
def partsOf (s : String) : List String :=
  (Text.splitOnChar '/' s).filter fun p => !p.isEmpty && p != "."

/-- The number of slashes in the root of a text. -/
def slashesOf : List Char → Nat
  | '/' :: '/' :: '/' :: _ => 1
  | '/' :: '/' :: _ => 2
  | '/' :: _ => 1
  | _ => 0

/-- The path that a text denotes. -/
def ofString (s : String) : Path := ⟨slashesOf s.toList, partsOf s⟩

/-- The text of a path. -/
def text (p : Path) : String :=
  if p.slashes = 0 ∧ p.parts.isEmpty then "."
  else String.ofList (List.replicate p.slashes '/') ++ "/".intercalate p.parts

/-- Holds of a path that starts at the root. -/
def isAbsolute (p : Path) : Bool := p.slashes ≠ 0

/-- The path `q` seen from `p`. -/
def join (p q : Path) : Path :=
  if q.isAbsolute then q else { p with parts := p.parts ++ q.parts }

/-- The path that a text denotes, seen from `p`. -/
def child (p : Path) (s : String) : Path := p.join (ofString s)

/-- The last component, if there is one. -/
def name (p : Path) : String := p.parts.getLastD ""

/-- The path without its last component. -/
def parent (p : Path) : Path := { p with parts := p.parts.dropLast }

/-- One component more in a path without `..`. -/
def normalStep (parts : List String) (p : String) : List String :=
  if p = ".." then parts.dropLast else parts ++ [p]

/-- The absolute path without `..` that is meant by a path seen from the directory `base`. -/
def resolve (base p : Path) : Path :=
  ⟨1, (base.join p).parts.foldl normalStep []⟩

/-- Holds of a path with a component that no file can have: one with a NUL character. -/
def hasNul (p : Path) : Bool := p.parts.any fun s => s.toList.contains '\x00'

/-- The order of paths: component by component, and each by code points. -/
def compareParts : List String → List String → Ordering
  | [], [] => .eq
  | [], _ :: _ => .lt
  | _ :: _, [] => .gt
  | p :: ps, q :: qs => (Text.compareCodepoints p.toList q.toList).then (compareParts ps qs)

/-- Whether `p` comes before `q` or is equal to it. -/
def le (p q : Path) : Bool := compareParts p.parts q.parts != .gt

end Path

end ScriptBundle
