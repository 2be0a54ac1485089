import ScriptBundle.Text.Width
import ScriptBundle.Text.Blank
/-!
# Wrapping lines

A line that is wider than its field is broken before a word that does not fit any more; a word is
never broken itself. Blanks that reach over the end of the field are dropped, and a line that is
still too wide is cut and ends in an ellipsis.
-/

namespace ScriptBundle.Console

open Text

/-- The number of columns that characters take. -/
def charsWidth (cs : List Char) : Nat := cs.foldl (fun n c => n + charWidth c) 0

/-- The words of a line with the blanks after them, where `word` holds the characters of the
current word in reverse. Blanks before the first word belong to it. -/
def wordsFrom (word : List Char) : List Char → List (List Char)
  | [] => [word.reverse]
  | c :: cs =>
    if word.head?.any isBlank && word.any (!isBlank ·) && !isBlank c then
      word.reverse :: wordsFrom [c] cs
    else wordsFrom (c :: word) cs

/-- The words of a line, each with the blanks after it. -/
def words (cs : List Char) : List (List Char) := wordsFrom [] cs

/-- The lines of at most `w` columns that words are set into, after the words of `line`. -/
def setWords (w : Nat) (line : List Char) : List (List Char) → List (List Char)
  | [] => [line]
  | word :: rest =>
    if line.isEmpty || charsWidth line + charsWidth (dropRightWhile isBlank word) ≤ w then
      setWords w (line ++ word) rest
    else line :: setWords w word rest

/-- A line without as many of the blanks at its end as it has characters over `w`. -/
def cropEnd (w : Nat) (cs : List Char) : List Char :=
  let blanks := (cs.reverse.takeWhile isBlank).length
  cs.take (cs.length - min blanks (cs.length - w))

/-- The longest start of a line that takes at most `w` columns. -/
def takeColumns : Nat → List Char → List Char
  | _, [] => []
  | w, c :: cs => if charWidth c ≤ w then c :: takeColumns (w - charWidth c) cs else []

/-- A line of at most `w` columns: the line itself, or the start of it and an ellipsis. -/
def ellipsize (w : Nat) (cs : List Char) : List Char :=
  if charsWidth cs ≤ w then cs
  else
    let start := takeColumns (w - 1) cs
    start ++ List.replicate (w - 1 - charsWidth start) ' ' ++ ['…']

/-- The lines of at most `w` columns that a line is broken into. -/
def wrap (w : Nat) (cs : List Char) : List (List Char) :=
  (setWords w [] (words cs)).map fun line => ellipsize w (cropEnd w line)

/-- The text with tabs expanded to the next multiple of eight columns, from column `column` on. -/
def expandTabs (column : Nat) : List Char → List Char
  | [] => []
  | '\n' :: cs => '\n' :: expandTabs 0 cs
  | '\t' :: cs =>
    let n := 8 - column % 8
    List.replicate n ' ' ++ expandTabs (column + n) cs
  | c :: cs => c :: expandTabs (column + charWidth c) cs

end ScriptBundle.Console
