import ScriptBundle.Tree.Basic
/-!
# Changing directory trees

The operations that create, write, read and remove files. What an operation changed before it
failed stays changed.
-/

namespace ScriptBundle

/-- An operation on a tree. -/
abbrev FileOperation (α : Type) := ExceptT FileError (StateM Tree) α

namespace FileOperation

/-- The operation that is refused. -/
def refuse {α : Type} (kind : FileErrorKind) (p : Path) : FileOperation α :=
  throw (.refused kind p)

/-- The location that a path leads to. -/
def locate (p : Path) : FileOperation (List String) := do
  if p.hasNul then throw .embeddedNul
  match (← get).locate p with
  | .ok loc => pure loc
  | .error k => refuse k p

/-- Creates a directory. -/
def makeDirectory (p : Path) : FileOperation Unit := do
  let loc ← locate p
  match (← get).entryAt? loc with
  | some _ => refuse .fileExists p
  | none => modify (·.put loc .directory)

/-- Goes on after an error if a directory stands at the path, and fails otherwise. -/
def acceptDirectory (p : Path) (e : FileError) : FileOperation Unit := do
  match e with
  | .embeddedNul | .doubleStar => throw e
  | .refused _ _ =>
    match (← get).isDirectory p with
    | .ok true => pure ()
    | .ok false => throw e
    | .error e => throw e

/-- Creates the directory of `slashes` and the reverse of `rev`, and before it the directories it
lies in. -/
def makeDirectoriesRev (slashes : Nat) : List String → FileOperation Unit
  | [] => tryCatch (makeDirectory ⟨slashes, []⟩) (acceptDirectory ⟨slashes, []⟩)
  | last :: rev =>
    let p : Path := ⟨slashes, (last :: rev).reverse⟩
    tryCatch (makeDirectory p) fun e =>
      match e with
      | .refused .notFound _ => do
        makeDirectoriesRev slashes rev
        tryCatch (makeDirectory p) fun
          | .refused .notFound q => refuse .notFound q
          | e => acceptDirectory p e
      | e => acceptDirectory p e

/-- Creates a directory and those it lies in; one that is there already is accepted. -/
def makeDirectories (p : Path) : FileOperation Unit :=
  makeDirectoriesRev p.slashes p.parts.reverse

/-- Writes a file in place of one that is there. -/
def writeFile (p : Path) (content : ByteArray) : FileOperation Unit := do
  let loc ← locate p
  match (← get).entryAt? loc with
  | some .directory => refuse .isDirectory p
  | _ => modify (·.put loc (.file content))

/-- Removes a file. -/
def removeFile (p : Path) : FileOperation Unit := do
  let loc ← locate p
  match (← get).entryAt? loc with
  | none => refuse .notFound p
  | some .directory => refuse .isDirectory p
  | some (.file _) => modify (·.erase loc)

end FileOperation

/-- The content of a file. -/
def Tree.readFile (t : Tree) (p : Path) : Except FileError ByteArray :=
  if p.hasNul then .error .embeddedNul
  else
    match t.stat p with
    | .ok (.file b) => .ok b
    | .ok .directory => .error (.refused .isDirectory p)
    | .error k => .error (.refused k p)

end ScriptBundle
