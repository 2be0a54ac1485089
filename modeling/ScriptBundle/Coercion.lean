import ScriptBundle.Value.Text
import ScriptBundle.Text.Blank
/-!
# Literal parameters

The literal value of a parameter is turned into the type that the parameter has. Any value that can
be written out can be read as a text, and null as the absence of one; integers are written out up to
a number of digits. A truth value is read from itself and from the words `true` and `false` in any
case.
-/

namespace ScriptBundle

/-- The types that a parameter may be read as. -/
inductive ParameterType where
  | bool
  | text
  | int
  | double
  deriving DecidableEq, Repr

/-- Why a value cannot be read as a type. -/
inductive CoercionError where
  /-- Null stands for no truth value. -/
  | nullBool
  /-- The value stands for no truth value. -/
  | notBool (v : Value)
  /-- The value has too many digits to be written out. -/
  | tooManyDigits
  /-- No value is read as this type. -/
  | unsupported (t : ParameterType)

/-- The message of a failure. -/
def CoercionError.message : CoercionError → String
  | .nullBool => "null is not a bool"
  | .notBool v => v.quoted ++ " is not a bool"
  | .tooManyDigits => "Exceeds the limit (4300 digits) for integer string conversion; " ++
    "use sys.set_int_max_str_digits() to increase the limit"
  | .unsupported .bool => "Unsupported parameter type bool"
  | .unsupported .text => "Unsupported parameter type str"
  | .unsupported .int => "Unsupported parameter type int"
  | .unsupported .double => "Unsupported parameter type float"

/-- The number of digits up to which integers are written out. -/
def writtenDigitLimit : Nat := 4300

/-- Holds of integers with too many digits to be written out. -/
def Value.isTooLong : Value → Bool
  | .int i => writtenDigitLimit < (Nat.toDigits 10 i.natAbs).length
  | _ => false

/-- A value as a truth value. -/
def coerceBool : Value → Except CoercionError Bool
  | .null => .error .nullBool
  | .bool b => .ok b
  | .string s =>
    let w := Text.asciiLower (Text.trim s)
    if w = "true" then .ok true
    else if w = "false" then .ok false
    else .error (.notBool (.string s))
  | v => .error (if v.isTooLong then .tooManyDigits else .notBool v)

/-- A value as a text, and null as none. -/
def coerceText : Value → Except CoercionError (Option String)
  | .null => .ok none
  | v => if v.isTooLong then .error .tooManyDigits else .ok (some v.text)

/-- The value that stands for a text, or for none. -/
def Value.ofOptional : Option String → Value
  | some s => .string s
  | none => .null

/-- A value as a value of a type. -/
def coerce (t : ParameterType) (v : Value) : Except CoercionError Value :=
  match t, v with
  | .bool, v => (coerceBool v).map .bool
  | .text, v => (coerceText v).map Value.ofOptional
  | _, .null => .ok .null
  | t, _ => .error (.unsupported t)

end ScriptBundle
