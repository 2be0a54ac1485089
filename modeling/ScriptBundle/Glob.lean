import ScriptBundle.Tree.Basic
/-!
# Patterns for file names

In a pattern `*` stands for any run of characters, `?` for any one character and `[…]` for one
character of a set, which may hold ranges and be negated by `!`. A bracket that is never closed
stands for itself. A pattern for paths has such a pattern for every component; the component `**`
stands for any number of directories.
-/

namespace ScriptBundle.Glob

/-- A piece of a pattern. -/
inductive Piece where
  /-- Any run of characters. -/
  | run
  /-- Any one character. -/
  | any
  /-- One given character. -/
  | only (c : Char)
  /-- One character that lies in one of the ranges, or in none of them. -/
  | oneOf (negated : Bool) (ranges : List (Char × Char))
  deriving DecidableEq, Repr

/-- The text of a set up to the bracket that closes it, and what follows. A closing bracket that
comes first belongs to the set, and so does one after the mark of negation. -/
def closedSet? (cs : List Char) : Option (List Char × List Char) :=
  let (mark, cs) := match cs with
    | '!' :: r => (['!'], r)
    | r => ([], r)
  let (first, cs) := match cs with
    | ']' :: r => ([']'], r)
    | r => ([], r)
  match cs.dropWhile (· != ']') with
  | _ :: rest => some (mark ++ first ++ cs.takeWhile (· != ']'), rest)
  | [] => none

/-- The parts of a set between the hyphens that make ranges, where `least` characters of the
current part stand before a hyphen can end it. A hyphen at the end stands for itself. -/
def setParts (part : List Char) (least : Nat) : List Char → List (List Char)
  | [] => [part.reverse]
  | '-' :: cs =>
    if least ≤ part.length then
      if cs.isEmpty then [(('-' :: part).reverse)] else part.reverse :: setParts [] 2 cs
    else setParts ('-' :: part) least cs
  | c :: cs => setParts (c :: part) least cs

/-- The ranges of a set from the parts between its hyphens, where `start` is the character before
the last hyphen. A range that ends before it starts is empty. -/
def setRanges (start : Option Char) : List (List Char) → List (Char × Char)
  | [] => []
  | part :: parts =>
    let (range, singles) := match start, part with
      | some lo, hi :: r => (if lo ≤ hi then [(lo, hi)] else [], r)
      | _, r => ([], r)
    match parts with
    | [] => range ++ singles.map fun c => (c, c)
    | _ =>
      let last := singles.getLast?
      range ++ (singles.dropLast.map fun c => (c, c)) ++ setRanges last parts

/-- The piece for the text of a set. -/
def setPiece : List Char → Piece
  | '!' :: cs => .oneOf true (setRanges none (setParts [] 1 cs))
  | cs => .oneOf false (setRanges none (setParts [] 1 cs))

/-- The pieces of a pattern. -/
def piecesFrom : Nat → List Char → List Piece
  | 0, _ => []
  | _ + 1, [] => []
  | fuel + 1, '*' :: cs => .run :: piecesFrom fuel cs
  | fuel + 1, '?' :: cs => .any :: piecesFrom fuel cs
  | fuel + 1, '[' :: cs =>
    match closedSet? cs with
    | some (set, rest) => setPiece set :: piecesFrom fuel rest
    | none => .only '[' :: piecesFrom fuel cs
  | fuel + 1, c :: cs => .only c :: piecesFrom fuel cs

/-- The pieces of a pattern. -/
def pieces (pattern : String) : List Piece :=
  piecesFrom (pattern.toList.length + 1) pattern.toList

/-- Every end of a list, the list itself first. -/
def suffixes {α : Type} : List α → List (List α)
  | [] => [[]]
  | a :: as => (a :: as) :: suffixes as

/-- Whether a character is one that a piece stands for. -/
def Piece.admits (c : Char) : Piece → Bool
  | .run => false
  | .any => true
  | .only d => c = d
  | .oneOf negated ranges => (ranges.any fun r => r.1 ≤ c && c ≤ r.2) != negated

/-- Whether pieces stand for a text. -/
def matchPieces : List Piece → List Char → Bool
  | [], cs => cs.isEmpty
  | .run :: ps, cs => (suffixes cs).any (matchPieces ps)
  | p :: ps, cs =>
    match cs with
    | c :: cs => p.admits c && matchPieces ps cs
    | [] => false

/-- Whether a pattern stands for a name. -/
def nameMatches (pattern name : String) : Bool := matchPieces (pieces pattern) name.toList

/-- One component of a pattern for paths. -/
inductive Selector where
  /-- Any number of directories. -/
  | directories
  /-- The names that a pattern stands for. -/
  | pattern (p : String)
  /-- One name. -/
  | name (n : String)
  deriving DecidableEq, Repr

/-- Holds of a text in which two stars stand side by side. -/
def hasDoubleStar : List Char → Bool
  | '*' :: '*' :: _ => true
  | _ :: cs => hasDoubleStar cs
  | [] => false

/-- The selector for a component, unless two stars stand in it beside something else. -/
def selector? (component : String) : Option Selector :=
  let cs := component.toList
  if component = "**" then some .directories
  else if hasDoubleStar cs then none
  else if cs.any fun c => c == '*' || c == '?' || c == '[' then some (.pattern component)
  else some (.name component)

/-- The selectors for a pattern, and whether it selects directories only, as one with a slash at
its end does. -/
def selectors? (pattern : String) : Option (List Selector × Bool) :=
  let parts := Path.partsOf pattern
  let trailing := pattern.toList.getLast? == some '/'
  (parts.mapM selector?).map fun ss => (ss, trailing)

/-- The locations of the directories at a location and below it, each before those inside it. -/
def directoriesBelow (t : Tree) : Nat → List String → List (List String)
  | 0, loc => [loc]
  | fuel + 1, loc =>
    loc :: ((t.names loc).filter fun n => t.isDirectoryAt (loc ++ [n])).flatMap fun n =>
      directoriesBelow t fuel (loc ++ [n])

/-- The location of a path that leads to a directory. -/
def directoryLocation (t : Tree) (p : Path) : Option (List String) :=
  match t.locate p with
  | .ok loc => if t.isDirectoryAt loc then some loc else none
  | .error _ => none

/-- The paths below a directory that selectors choose. Each name before the last selector must be
that of a directory, and so must the last if `onlyDirectories`. -/
def select (t : Tree) (onlyDirectories : Bool) : List Selector → Path → Except FileError (List Path)
  | [], p => .ok [p]
  | s :: rest, p =>
    let dirOnly := !rest.isEmpty || onlyDirectories
    match s with
    | .name n => do
      let q : Path := { p with parts := p.parts ++ [n] }
      if ← (if dirOnly then t.isDirectory q else t.existsAt q) then
        select t onlyDirectories rest q
      else pure []
    | .pattern pat =>
      match directoryLocation t p with
      | none => .ok []
      | some loc => do
        let chosen := (t.names loc).filter fun n =>
          nameMatches pat n && (!dirOnly || t.isDirectoryAt (loc ++ [n]))
        let found ← chosen.mapM fun n =>
          select t onlyDirectories rest { p with parts := p.parts ++ [n] }
        pure found.flatten
    | .directories =>
      match directoryLocation t p with
      | none => .ok []
      | some loc => do
        let dirs := directoriesBelow t t.entries.length loc
        let found ← dirs.mapM fun d =>
          select t onlyDirectories rest { p with parts := p.parts ++ d.drop loc.length }
        pure found.flatten.eraseDups

end ScriptBundle.Glob
