import ScriptBundle.Component.Basic
import ScriptBundle.Validation.Lax
import ScriptBundle.Json.Reader
/-!
# Reading components

A render file holds a component or an array of components as JSON. If it holds neither, the issues
of the first reading come before those of the second, each under the name of its branch.
-/

namespace ScriptBundle

open Validation

/-- The members of an object. -/
def objectMembers : Value → Checked (List (String × Value))
  | .object members => .ok members
  | _ => .fail .modelType

/-- A kind of instruction. -/
def decodeKind : Value → Checked InstructionKind
  | .string s =>
    match InstructionKind.ofWord? s with
    | some k => .ok k
    | none => .fail .unknownChoice
  | _ => .fail .unknownChoice

/-- The value of an instruction: a text, a truth value, a number or null. -/
def decodeLiteral : Value → Checked Value
  | .array _ | .object _ =>
    .error [⟨.stringType, [.field "str"]⟩, ⟨.boolType, [.field "bool"]⟩,
      ⟨.intType, [.field "int"]⟩, ⟨.floatType, [.field "float"]⟩]
  | v => .ok v

/-- A render instruction. -/
def decodeInstruction (v : Value) : Checked Instruction :=
  match objectMembers v with
  | .error is => .error is
  | .ok ms =>
    Checked.both
      (Checked.both
        (Checked.both
          (Checked.both
            (Checked.both (.ok Instruction.mk) (required "kind" decodeKind ms))
            (withDefault "sequence" 0 laxInt ms))
          (withDefault "name" none optionalString ms))
        (withDefault "value" .null decodeLiteral ms))
      (withDefault "literal" true laxBool ms)

/-- The readings of the items of an array. -/
def decodeList {α : Type} (read : Value → Checked α) : Value → Checked (List α)
  | .array items => Checked.allFrom 0 (items.map read)
  | _ => .fail .listType

/-- A component. -/
def decodeComponent (v : Value) : Checked Component :=
  match objectMembers v with
  | .error is => .error is
  | .ok ms =>
    Checked.both
      (Checked.both
        (Checked.both (.ok Component.mk) (required "name" string ms))
        (withDefault "namespace" none optionalString ms))
      (withDefault "instructions" [] (decodeList decodeInstruction) ms)

/-- The components of a value: one, or those of an array. -/
def decodeComponents (v : Value) : Checked (List Component) :=
  match decodeComponent v, decodeList decodeComponent v with
  | .ok c, _ => .ok [c]
  | .error _, .ok cs => .ok cs
  | .error is, .error js =>
    .error (is.map (Issue.under (.field "ComponentDefinition")) ++
      js.map (Issue.under (.field "list[ComponentDefinition]")))

/-- The components that the bytes of a render file hold. -/
def componentsOfBytes (bytes : ByteArray) : Checked (List Component) :=
  match Json.readBytes? bytes with
  | none => .fail .invalidJson
  | some v => decodeComponents v

end ScriptBundle
