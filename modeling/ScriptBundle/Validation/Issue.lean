/-!
# Validation issues

Reading a typed value from an untyped one collects every issue it meets, each with the place in
the value where it was met. `Checked.both` joins two readings: it succeeds if both do, and otherwise
holds the issues of both in order.
-/

namespace ScriptBundle.Validation

/-- One step from a value to a part of it. -/
inductive PathStep where
  /-- A member of an object, or a branch of a choice. -/
  | field (name : String)
  /-- An item of an array. -/
  | index (i : Nat)
  deriving DecidableEq, Repr

/-- What is wrong with a value. -/
inductive IssueKind where
  | missing
  | stringType
  | stringTooShort
  | boolType
  | boolParsing
  | intType
  | intParsing
  | intParsingSize
  | intFromFloat
  | finiteNumber
  | floatType
  | unknownChoice
  | listType
  | modelType
  | invalidJson
  deriving DecidableEq, Repr

/-- The code of a kind of issue in reports. -/
def IssueKind.code : IssueKind → String
  | .missing => "missing"
  | .stringType => "string_type"
  | .stringTooShort => "string_too_short"
  | .boolType => "bool_type"
  | .boolParsing => "bool_parsing"
  | .intType => "int_type"
  | .intParsing => "int_parsing"
  | .intParsingSize => "int_parsing_size"
  | .intFromFloat => "int_from_float"
  | .finiteNumber => "finite_number"
  | .floatType => "float_type"
  | .unknownChoice => "enum"
  | .listType => "list_type"
  | .modelType => "model_type"
  | .invalidJson => "json_invalid"

/-- Something wrong at a place in a value. -/
structure Issue where
  /-- What is wrong. -/
  kind : IssueKind
  /-- Where it is, from the outside in. -/
  location : List PathStep
  deriving DecidableEq, Repr

/-- The issue of a kind at the value itself. -/
def Issue.here (kind : IssueKind) : Issue := ⟨kind, []⟩

/-- The issue seen from one step further out. -/
def Issue.under (s : PathStep) (i : Issue) : Issue := { i with location := s :: i.location }

/-- A value read, or the issues that prevent it. -/
abbrev Checked (α : Type) := Except (List Issue) α

namespace Checked

variable {α β : Type}

/-- The failure with one issue. -/
def fail (kind : IssueKind) : Checked α := .error [Issue.here kind]

/-- A reading of a part, with its issues seen from one step further out. -/
def under (s : PathStep) : Checked α → Checked α
  | .ok a => .ok a
  | .error is => .error (is.map (Issue.under s))

/-- A function applied to an argument, both read. -/
def both : Checked (α → β) → Checked α → Checked β
  | .ok f, .ok a => .ok (f a)
  | .ok _, .error js => .error js
  | .error is, .ok _ => .error is
  | .error is, .error js => .error (is ++ js)

/-- The readings of all items of a list, with the place of each in its issues. -/
def allFrom (n : Nat) : List (Checked α) → Checked (List α)
  | [] => .ok []
  | c :: cs => both (both (.ok List.cons) (under (.index n) c)) (allFrom (n + 1) cs)

/-- The issues of a reading. -/
def issues : Checked α → List Issue
  | .ok _ => []
  | .error is => is

end Checked

end ScriptBundle.Validation
