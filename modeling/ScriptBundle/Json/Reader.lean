import ScriptBundle.Json.Number
import ScriptBundle.Json.Text
/-!
# Reading JSON

`readText?` reads a whole text as one value, or not at all, and `readBytes?` the text that bytes
encode in UTF-8. Blanks are the space, the tab, the carriage return and the newline. Of members
with one name the last one counts. Arrays and objects that hold something may be nested to a limit.
-/

namespace ScriptBundle.Json

/-- How deep arrays and objects that hold something may be nested. -/
def nestingLimit : Nat := 200

/-- The blanks between the parts of a JSON text. -/
def isJsonBlank (c : Char) : Bool :=
  c == ' ' || c == '\t' || c == '\r' || c == '\n'

/-- The text from its first character on that is not blank. -/
def skipBlanks (cs : List Char) : List Char := cs.dropWhile isJsonBlank

mutual

/-- The value at the start of a text, inside which values may be nested `room` deep. -/
def value? : Nat → Nat → List Char → Option (Value × List Char)
  | 0, _, _ => none
  | fuel + 1, room, cs =>
    match cs with
    | 'n' :: 'u' :: 'l' :: 'l' :: rest => some (.null, rest)
    | 't' :: 'r' :: 'u' :: 'e' :: rest => some (.bool true, rest)
    | 'f' :: 'a' :: 'l' :: 's' :: 'e' :: rest => some (.bool false, rest)
    | 'N' :: 'a' :: 'N' :: rest => some (.double .nan, rest)
    | 'I' :: 'n' :: 'f' :: 'i' :: 'n' :: 'i' :: 't' :: 'y' :: rest =>
      some (.double (.infinite false), rest)
    | '"' :: rest => (textBody? rest).map fun p => (.string (String.ofList p.1), p.2)
    | '[' :: rest =>
      match skipBlanks rest with
      | ']' :: rest => some (.array [], rest)
      | rest =>
        match room with
        | 0 => none
        | room + 1 => (items? fuel room rest).map fun p => (.array p.1, p.2)
    | '\x7b' :: rest =>
      match skipBlanks rest with
      | '\x7d' :: rest => some (.object [], rest)
      | rest =>
        match room with
        | 0 => none
        | room + 1 => (members? fuel room rest).map fun p => (.object (lastValues p.1), p.2)
    | cs => number? cs

/-- The items of an array from the first of them on, and what follows the closing bracket. -/
def items? : Nat → Nat → List Char → Option (List Value × List Char)
  | 0, _, _ => none
  | fuel + 1, room, cs =>
    match value? fuel room cs with
    | none => none
    | some (v, rest) =>
      match skipBlanks rest with
      | ']' :: rest => some ([v], rest)
      | ',' :: rest => (items? fuel room (skipBlanks rest)).map fun p => (v :: p.1, p.2)
      | _ => none

/-- The members of an object from the first of them on, and what follows the closing brace. -/
def members? : Nat → Nat → List Char → Option (List (String × Value) × List Char)
  | 0, _, _ => none
  | fuel + 1, room, cs =>
    match cs with
    | '"' :: rest =>
      match textBody? rest with
      | none => none
      | some (k, rest) =>
        match skipBlanks rest with
        | ':' :: rest =>
          match value? fuel room (skipBlanks rest) with
          | none => none
          | some (v, rest) =>
            match skipBlanks rest with
            | '\x7d' :: rest => some ([(String.ofList k, v)], rest)
            | ',' :: rest =>
              (members? fuel room (skipBlanks rest)).map fun p => ((String.ofList k, v) :: p.1, p.2)
            | _ => none
        | _ => none
    | _ => none

end

/-- The value that a whole text holds. Every character of the text is passed at most twice. -/
def readText? (cs : List Char) : Option Value :=
  match value? (2 * cs.length + 2) nestingLimit (skipBlanks cs) with
  | some (v, rest) => if (skipBlanks rest).isEmpty then some v else none
  | none => none

/-- The value that bytes hold as UTF-8. -/
def readBytes? (bytes : ByteArray) : Option Value :=
  (String.fromUTF8? bytes).bind fun s => readText? s.toList

end ScriptBundle.Json
