import ScriptBundle.Value.Basic
/-!
# Compiled components

A component is compiled into a flat stream of render instructions. An instruction opens or closes
an element or a component, sets a parameter or an attribute, or adds content. Its value is literal,
or stands for an expression that is unknown before the component runs.
-/

namespace ScriptBundle

/-- The kinds of render instructions. -/
inductive InstructionKind where
  | openElement
  | closeElement
  | openComponent
  | closeComponent
  | addComponentParameter
  | addAttribute
  | addMarkupContent
  | addContent
  deriving DecidableEq, Repr

/-- The word for a kind in render files. -/
def InstructionKind.word : InstructionKind → String
  | .openElement => "open_element"
  | .closeElement => "close_element"
  | .openComponent => "open_component"
  | .closeComponent => "close_component"
  | .addComponentParameter => "add_component_parameter"
  | .addAttribute => "add_attribute"
  | .addMarkupContent => "add_markup_content"
  | .addContent => "add_content"

/-- Every kind of instruction. -/
def InstructionKind.all : List InstructionKind :=
  [.openElement, .closeElement, .openComponent, .closeComponent, .addComponentParameter,
    .addAttribute, .addMarkupContent, .addContent]

/-- The kind that a word stands for. -/
def InstructionKind.ofWord? (w : String) : Option InstructionKind :=
  InstructionKind.all.find? fun k => k.word = w

/-- Holds of the kinds that add content. -/
def InstructionKind.isContent : InstructionKind → Bool
  | .addMarkupContent | .addContent => true
  | _ => false

/-- A render instruction. -/
structure Instruction where
  /-- What the instruction does. -/
  kind : InstructionKind
  /-- The position that the compiler gave it. -/
  sequence : Int
  /-- The type of an opened component, or the name of a parameter or an attribute. -/
  name : Option String
  /-- The value it carries. -/
  value : Value
  /-- Whether the value is known. -/
  literal : Bool
  deriving Repr

/-- The name of a component type without its generic arguments, its namespace and a mark for the
outermost namespace. -/
def simpleTypeName (name : String) : String :=
  let outer := name.toList.takeWhile (· != '<')
  let last := (outer.reverse.takeWhile (· != '.')).reverse
  let mark := "global::".toList
  String.ofList (if mark.isPrefixOf last then last.drop mark.length else last)

/-- The simple name of the component type that an instruction names. -/
def Instruction.typeName (i : Instruction) : Option String :=
  i.name.map simpleTypeName

/-- A compiled component. -/
structure Component where
  /-- The component's own name. -/
  name : String
  /-- The namespace it is declared in. -/
  scope : Option String
  /-- Its render instructions. -/
  instructions : List Instruction
  deriving Repr

/-- The identity of a component, which names its bundles. -/
def Component.ownerId (c : Component) : String :=
  match c.scope with
  | some n => if n.isEmpty then c.name else n ++ "." ++ c.name
  | none => c.name

end ScriptBundle
