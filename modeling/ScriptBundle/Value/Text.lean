import ScriptBundle.Value.Basic
import ScriptBundle.Decimal.Notation
import ScriptBundle.Text.Quoted
/-!
# Texts of values

A value is shown as it would be written in a message: `None`, `True`, `1.0`, `'text'`, `[1, 2]`,
`{'a': 1}`. `quoted` always shows quotes around a text; `text` leaves them out when the value
itself is a text.
-/

namespace ScriptBundle.Value

open Decimal

/-- The text of a truth value. -/
def boolText (b : Bool) : String := if b then "True" else "False"

mutual

/-- The text of a value, with texts between quotes. -/
def quoted : Value → String
  | .null => "None"
  | .bool b => boolText b
  | .int i => intText i
  | .double d => d.text
  | .string s => Text.quoted s
  | .moment s => s
  | .array items => "[" ++ ", ".intercalate (quotedItems items) ++ "]"
  | .object members => "\x7b" ++ ", ".intercalate (quotedMembers members) ++ "\x7d"

/-- The texts of the items of an array. -/
def quotedItems : List Value → List String
  | [] => []
  | v :: vs => v.quoted :: quotedItems vs

/-- The texts of the members of an object. -/
def quotedMembers : List (String × Value) → List String
  | [] => []
  | (k, v) :: ms => (Text.quoted k ++ ": " ++ v.quoted) :: quotedMembers ms

end

/-- The text of a value. -/
def text : Value → String
  | .string s => s
  | v => v.quoted

end ScriptBundle.Value
