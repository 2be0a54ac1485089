import ScriptBundle.Failure
import ScriptBundle.Owner.Hierarchy
import ScriptBundle.Owner.Info
/-!
# Looking up owners

A host tells a script site which component it is nested in: by a class, an instance of one, or the
owner itself. The owner of a class is described by the class that declares how it is rendered. Each
class has one description, which is made at its first lookup and kept.
-/

namespace ScriptBundle

/-- A class that owners are looked up by. -/
inductive ClassId where
  /-- A class of a hierarchy. -/
  | declared (number : Nat)
  /-- A class that comes with the host's language. -/
  | builtin (name : String)
  deriving DecidableEq, Repr

/-- What a host says a site is nested in. -/
inductive OwnerContext where
  | nothing
  | info (owner : OwnerInfo)
  | cls (id : ClassId)
  | instanceOf (id : ClassId)
  deriving DecidableEq, Repr

/-- Why there is no owner. -/
inductive OwnerError where
  /-- The site is nested in nothing. -/
  | noComponent
  deriving DecidableEq, Repr

/-- The failure that reports that there is no owner. -/
def OwnerError.failure : OwnerError → Failure
  | .noComponent =>
    ⟨.ownerResolution,
      "Unable to retrieve parent component: script site has no enclosing component", none⟩

/-- An owner that was looked up. -/
structure OwnerAnswer where
  /-- The owner. -/
  owner : OwnerInfo
  /-- The number of the kept description that this is, if it is one. -/
  entry : Option Nat
  deriving DecidableEq, Repr

/-- A lookup of owners for one application. -/
structure OwnerLookup where
  /-- The package of the application. -/
  appPackage : String
  /-- The classes that owners may be given by. -/
  hierarchy : Hierarchy
  /-- The descriptions made so far. -/
  kept : List (ClassId × OwnerInfo)

namespace OwnerLookup

/-- The description of a class by its module and its name there. -/
def describe (appPackage moduleName qualifiedName : String) : OwnerInfo :=
  let package := String.ofList (moduleName.toList.takeWhile (· != '.'))
  { identity := moduleName ++ "." ++ qualifiedName
    packageId := package
    isFromLib := package != appPackage }

/-- The owner that a class stands for. -/
def ownerOf (l : OwnerLookup) : ClassId → OwnerInfo
  | .builtin name => describe l.appPackage "builtins" name
  | .declared c =>
    match l.hierarchy.classes[l.hierarchy.renderingClass c]? with
    | some d => describe l.appPackage d.moduleName d.qualifiedName
    | none => describe l.appPackage "" ""

/-- The kept description of a class, and the lookup that keeps it. -/
def ofClass (l : OwnerLookup) (id : ClassId) : OwnerAnswer × OwnerLookup :=
  match l.kept.findIdx? (·.1 = id), l.kept.lookup id with
  | some i, some owner => (⟨owner, some i⟩, l)
  | _, _ =>
    let owner := l.ownerOf id
    (⟨owner, some l.kept.length⟩, { l with kept := l.kept ++ [(id, owner)] })

/-- The owner that a context stands for, and the lookup afterwards. -/
def lookup (l : OwnerLookup) : OwnerContext → Except OwnerError OwnerAnswer × OwnerLookup
  | .nothing => (.error .noComponent, l)
  | .info owner => (.ok ⟨owner, none⟩, l)
  | .cls id | .instanceOf id =>
    let (answer, l) := l.ofClass id
    (.ok answer, l)

end OwnerLookup

end ScriptBundle
