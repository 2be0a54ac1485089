/-!
# Lines of a text

A text is cut after every line terminator. The terminators are the newline, the carriage return,
the pair of both (which counts once), the vertical tab, the form feed, three information
separators, the next-line control and the two Unicode separators. A terminator at the end of the
text opens no further line, so the empty text has no line.
-/

namespace ScriptBundle.Text

/-- The characters that end a line. -/
def isLineEnd (c : Char) : Bool :=
  let n := c.toNat
  (10 ≤ n && n ≤ 13) || (28 ≤ n && n ≤ 30) || n == 0x85 || n == 0x2028 || n == 0x2029

/-- The lines of `cs` without their terminators, where `line` holds the characters of the
current line in reverse. -/
def linesFrom (line : List Char) : List Char → List (List Char)
  | [] => if line.isEmpty then [] else [line.reverse]
  | '\r' :: '\n' :: cs => line.reverse :: linesFrom [] cs
  | c :: cs => if isLineEnd c then line.reverse :: linesFrom [] cs else linesFrom (c :: line) cs

/-- The lines of a text, without their terminators. -/
def lines (s : String) : List String :=
  (linesFrom [] s.toList).map String.ofList

/-- The text with every carriage return, alone or before a newline, read as a newline. -/
def universalNewlines : List Char → List Char
  | [] => []
  | '\r' :: '\n' :: cs => '\n' :: universalNewlines cs
  | c :: cs => (if c = '\r' then '\n' else c) :: universalNewlines cs

end ScriptBundle.Text
