/-!
# Class hierarchies

A class is declared with its bases, which are declared before it. Its linearization lists the class
and all it inherits from, the class itself first: the linearizations of the bases are merged so that
each of them, and the order of the bases, is kept. Not every hierarchy has linearizations.
-/

namespace ScriptBundle

/-- The declaration of a class. -/
structure ClassDeclaration where
  /-- The module it is declared in. -/
  moduleName : String
  /-- Its name inside the module. -/
  qualifiedName : String
  /-- The numbers of its bases, in order. -/
  bases : List Nat
  /-- Whether the class itself declares how it is rendered. -/
  renders : Bool
  deriving DecidableEq, Repr

/-- The first head of a list of lists that stands in no tail. -/
def nextInMerge? (lists : List (List Nat)) : Option Nat :=
  (lists.filterMap List.head?).find? fun c => lists.all fun l => !l.tail.contains c

/-- The lists without `c` where it is the head. -/
def dropHead (c : Nat) (lists : List (List Nat)) : List (List Nat) :=
  lists.map fun l => if l.head? = some c then l.tail else l

/-- The merge of lists, which keeps the order of each, if there is one. -/
def mergeLists? : Nat → List (List Nat) → Option (List Nat)
  | 0, lists => if lists.all List.isEmpty then some [] else none
  | fuel + 1, lists =>
    if lists.all List.isEmpty then some []
    else
      match nextInMerge? lists with
      | none => none
      | some c => (mergeLists? fuel (dropHead c lists)).map (c :: ·)

/-- The linearization of the class with number `c`, from those of the classes before it. -/
def linearize? (earlier : List (List Nat)) (c : Nat) (bases : List Nat) : Option (List Nat) :=
  if bases.eraseDups.length ≠ bases.length then none
  else
    match bases.mapM fun b => earlier[b]? with
    | none => none
    | some lists =>
      let lists := lists ++ [bases]
      (mergeLists? lists.flatten.length lists).map (c :: ·)

/-- The linearizations of classes, if all of them have one. -/
def linearizations? (classes : List ClassDeclaration) : Option (List (List Nat)) :=
  classes.foldlM (fun earlier d => (linearize? earlier earlier.length d.bases).map fun l =>
    earlier ++ [l]) []

/-- Classes with their linearizations. -/
structure Hierarchy where
  /-- The declarations. -/
  classes : List ClassDeclaration
  /-- The linearization of each. -/
  linearizations : List (List Nat)

/-- The hierarchy of declared classes, if they have linearizations. -/
def Hierarchy.ofClasses? (classes : List ClassDeclaration) : Option Hierarchy :=
  (linearizations? classes).map fun ls => ⟨classes, ls⟩

/-- Whether a class itself declares how it is rendered. -/
def Hierarchy.rendersItself (h : Hierarchy) (c : Nat) : Bool :=
  match h.classes[c]? with
  | some d => d.renders
  | none => false

/-- The class that declares how a class is rendered: the first in its linearization that does, and
the class itself if none does. -/
def Hierarchy.renderingClass (h : Hierarchy) (c : Nat) : Nat :=
  (((h.linearizations[c]?).getD [c]).find? h.rendersItself).getD c

end ScriptBundle
