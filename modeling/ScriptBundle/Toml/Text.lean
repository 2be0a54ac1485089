import ScriptBundle.Json.Text
/-!
# TOML texts

The four kinds of quoted texts. Between double quotes a backslash starts an escape; between single
quotes every character stands for itself. Tripled quotes allow several lines. Control characters may
not stand in any text, except the tab, and the newline where lines are allowed.
-/

namespace ScriptBundle.Toml

/-- Blanks inside a line. -/
def isSpace (c : Char) : Bool := c == ' ' || c == '\t'

/-- Blanks and newlines. -/
def isSpaceOrNewline (c : Char) : Bool := isSpace c || c == '\n'

/-- The text from its first character on that is no blank. -/
def skipSpaces (cs : List Char) : List Char := cs.dropWhile isSpace

/-- Holds of the control characters that may not stand inside a line. -/
def isControl (c : Char) : Bool := (c.toNat < 32 && c != '\t') || c.toNat == 127

/-- Holds of the characters that may not stand in a text. -/
def isIllegal (multiline : Bool) (c : Char) : Bool :=
  isControl c && !(multiline && c == '\n')

/-- The character of a number, unless it is a surrogate or too large. -/
def scalar? (n : Nat) : Option Char :=
  if n < 0xD800 ∨ (0xE000 ≤ n ∧ n ≤ 0x10FFFF) then some (Char.ofNat n) else none

/-- The character that a one-letter escape stands for. -/
def simpleEscape? : Char → Option Char
  | 'b' => some '\x08'
  | 't' => some '\t'
  | 'n' => some '\n'
  | 'f' => some '\x0c'
  | 'r' => some '\r'
  | '"' => some '"'
  | '\\' => some '\\'
  | _ => none

/-- The character written in `n` hexadecimal digits. -/
def hexEscape? (n : Nat) (cs : List Char) : Option (List Char × List Char) := do
  let ds := cs.take n
  if ds.length ≠ n then none
  let c ← scalar? (← Json.hexNumber? ds)
  some ([c], cs.drop n)

/-- What an escape stands for, from after its backslash. In a text of several lines a backslash at
the end of a line joins it to the next character that is not blank. -/
def escape? (multiline : Bool) : List Char → Option (List Char × List Char)
  | 'u' :: cs => hexEscape? 4 cs
  | 'U' :: cs => hexEscape? 8 cs
  | '\n' :: cs => if multiline then some ([], cs.dropWhile isSpaceOrNewline) else none
  | c :: cs =>
    if multiline && isSpace c then
      match skipSpaces cs with
      | [] => some ([], [])
      | '\n' :: rest => some ([], rest.dropWhile isSpaceOrNewline)
      | _ => none
    else (simpleEscape? c).map fun e => ([e], cs)
  | [] => none

/-- The characters up to the closing double quotes, with escapes read, and what follows. -/
def basicBody? (multiline : Bool) : Nat → List Char → Option (List Char × List Char)
  | 0, _ => none
  | fuel + 1, cs =>
    match cs with
    | [] => none
    | '"' :: rest =>
      if multiline then
        match rest with
        | '"' :: '"' :: rest => some ([], rest)
        | rest => (basicBody? multiline fuel rest).map fun p => ('"' :: p.1, p.2)
      else some ([], rest)
    | '\\' :: rest =>
      match escape? multiline rest with
      | none => none
      | some (out, rest) => (basicBody? multiline fuel rest).map fun p => (out ++ p.1, p.2)
    | c :: rest =>
      if isIllegal multiline c then none
      else (basicBody? multiline fuel rest).map fun p => (c :: p.1, p.2)

/-- The characters up to a single quote, and what follows. -/
def literalBody? : List Char → Option (List Char × List Char)
  | [] => none
  | '\'' :: rest => some ([], rest)
  | c :: rest =>
    if isIllegal false c then none else (literalBody? rest).map fun p => (c :: p.1, p.2)

/-- The characters up to three single quotes, and what follows. -/
def literalLines? : List Char → Option (List Char × List Char)
  | [] => none
  | '\'' :: '\'' :: '\'' :: rest => some ([], rest)
  | c :: rest =>
    if isIllegal true c then none else (literalLines? rest).map fun p => (c :: p.1, p.2)

/-- Up to two quotes before the closing ones belong to the text. -/
def withExtraQuotes (q : Char) (p : List Char × List Char) : List Char × List Char :=
  match p.2 with
  | c :: d :: rest =>
    if c = q then if d = q then (p.1 ++ [q, q], rest) else (p.1 ++ [q], d :: rest) else p
  | [c] => if c = q then (p.1 ++ [q], []) else p
  | [] => p

/-- The text without one newline at its start. -/
def dropNewline : List Char → List Char
  | '\n' :: cs => cs
  | cs => cs

/-- A quoted text inside a line, as keys may be. -/
def lineText? : List Char → Option (String × List Char)
  | '"' :: cs => (basicBody? false (cs.length + 1) cs).map fun p => (String.ofList p.1, p.2)
  | '\'' :: cs => (literalBody? cs).map fun p => (String.ofList p.1, p.2)
  | _ => none

/-- A quoted text. -/
def quotedText? : List Char → Option (String × List Char)
  | '"' :: '"' :: '"' :: cs =>
    (basicBody? true (cs.length + 1) (dropNewline cs)).map fun p =>
      let q := withExtraQuotes '"' p
      (String.ofList q.1, q.2)
  | '\'' :: '\'' :: '\'' :: cs =>
    (literalLines? (dropNewline cs)).map fun p =>
      let q := withExtraQuotes '\'' p
      (String.ofList q.1, q.2)
  | cs => lineText? cs

end ScriptBundle.Toml
