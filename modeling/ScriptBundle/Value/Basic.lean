import ScriptBundle.Decimal.Binary64
/-!
# Values

The values that render files carry, that hosts assign to parameters, and that the script engine
returns. Objects keep their members in order.
-/

namespace ScriptBundle

open Decimal

/-- A value of a data format without types. -/
inductive Value where
  | null
  | bool (b : Bool)
  | int (i : Int)
  | double (d : Binary64)
  | string (s : String)
  /-- A date, a time of day or both, by its text. -/
  | moment (text : String)
  | array (items : List Value)
  | object (members : List (String × Value))
  deriving Inhabited, Repr

/-- The pairs with the value of `key` set to `value`: the value of the first pair of that key is
replaced, and a new key comes last. -/
def assign {α β : Type} [DecidableEq α] (key : α) (value : β) : List (α × β) → List (α × β)
  | [] => [(key, value)]
  | (k, v) :: rest => if k = key then (k, value) :: rest else (k, v) :: assign key value rest

/-- The pairs with each key once, in the order of first appearance and with the last value. -/
def lastValues {α β : Type} [DecidableEq α] (pairs : List (α × β)) : List (α × β) :=
  pairs.foldl (fun acc p => assign p.1 p.2 acc) []

/-- The value of a member of an object. -/
def Value.member? (name : String) : Value → Option Value
  | .object members => members.lookup name
  | _ => none

end ScriptBundle
