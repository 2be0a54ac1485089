import ScriptBundle.Text.Printable
/-!
# Quoted texts

A text between quotes, as it appears in messages. Single quotes are used unless the text holds a
single quote and no double quote. The quote in use and the backslash are escaped by a backslash,
tab, newline and carriage return have letters of their own, and every other unprintable character
is written by its code in two, four or eight hexadecimal digits.
-/

namespace ScriptBundle.Text

/-- The `width` lowest hexadecimal digits of `n`, most significant first. -/
def hexDigits (width n : Nat) : List Char :=
  (List.range width).reverse.map fun i => Nat.digitChar (n / Nat.pow 16 i % 16)

/-- One character inside quotes `q`. -/
def quoteChar (q c : Char) : List Char :=
  if c = q ∨ c = '\\' then ['\\', c]
  else if c = '\t' then ['\\', 't']
  else if c = '\n' then ['\\', 'n']
  else if c = '\r' then ['\\', 'r']
  else if isPrintable c then [c]
  else if c.toNat < 0x100 then '\\' :: 'x' :: hexDigits 2 c.toNat
  else if c.toNat < 0x10000 then '\\' :: 'u' :: hexDigits 4 c.toNat
  else '\\' :: 'U' :: hexDigits 8 c.toNat

/-- The quote that surrounds `cs`. -/
def quoteFor (cs : List Char) : Char :=
  if cs.contains '\'' && !cs.contains '"' then '"' else '\''

/-- The text between quotes, with escapes. -/
def quoted (s : String) : String :=
  let cs := s.toList
  let q := quoteFor cs
  String.ofList (q :: cs.flatMap (quoteChar q) ++ [q])

end ScriptBundle.Text
