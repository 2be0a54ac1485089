import ScriptBundle.Text.Blank
/-!
# Console markup

Text for a console may hold style tags in brackets, and a backslash before a tag makes it plain
text: `markup` cuts a text into its tags and what stands between them. Plain text may hold codes
between colons, which may be those of emoji: `pieces` cuts it at these.
-/

namespace ScriptBundle.Console

/-- A part of a text with markup. -/
inductive Markup where
  | plain (cs : List Char)
  | tag (cs : List Char)
  deriving DecidableEq, Repr

/-- Holds of the characters that a tag starts with. -/
def startsTag (c : Char) : Bool := ('a' ≤ c && c ≤ 'z') || c == '#' || c == '/' || c == '@'

/-- The inside of a tag from after its bracket on, and what follows the tag. Its first character
decides whether it is a tag, and no other bracket may open inside. -/
def tagBody? (cs : List Char) : Option (List Char × List Char) :=
  match cs with
  | c :: rest =>
    if startsTag c then
      match rest.dropWhile fun d => d != ']' && d != '[' with
      | ']' :: after => some (c :: rest.takeWhile fun d => d != ']' && d != '[', after)
      | _ => none
    else none
  | [] => none

/-- The run of backslashes at the start of a text, if a tag follows it: its length, the inside of
the tag and what follows. -/
def tagAt? (cs : List Char) : Option (Nat × List Char × List Char) :=
  let slashes := cs.takeWhile (· == '\\')
  match cs.dropWhile (· == '\\') with
  | '[' :: rest => (tagBody? rest).map fun p => (slashes.length, p.1, p.2)
  | _ => none

/-- The parts for a tag after `slashes` backslashes: every two of them stand for one, and an odd
one makes the tag plain text. -/
def tagParts (slashes : Nat) (body : List Char) : List Markup :=
  let half := List.replicate (slashes / 2) '\\'
  let before := if half.isEmpty then [] else [Markup.plain half]
  if slashes % 2 = 0 then before ++ [.tag body]
  else before ++ [.plain ('[' :: body ++ [']'])]

/-- A part of plain text, if there is any. -/
def plainPart (cs : List Char) : List Markup := if cs.isEmpty then [] else [.plain cs]

/-- The parts of a text, where `run` holds the plain characters before it in reverse. -/
def markupFrom : Nat → List Char → List Char → List Markup
  | 0, run, _ => plainPart run.reverse
  | _ + 1, run, [] => plainPart run.reverse
  | fuel + 1, run, c :: cs =>
    match tagAt? (c :: cs) with
    | some (slashes, body, rest) =>
      plainPart run.reverse ++ tagParts slashes body ++ markupFrom fuel [] rest
    | none =>
      let slashes := (c :: cs).takeWhile (· == '\\')
      if slashes.isEmpty then markupFrom fuel (c :: run) cs
      else markupFrom fuel (slashes ++ run) ((c :: cs).dropWhile (· == '\\'))

/-- The parts of a text. -/
def markup (cs : List Char) : List Markup := markupFrom (cs.length + 1) [] cs

/-- Plain text in which a backslash before a bracket is dropped. -/
def unescape : List Char → List Char
  | '\\' :: '[' :: cs => '[' :: unescape cs
  | c :: cs => c :: unescape cs
  | [] => []

/-- A piece of plain text: characters, or a code between colons. -/
inductive Piece where
  | text (cs : List Char)
  | code (cs : List Char)
  deriving DecidableEq, Repr

/-- The pieces of a text after a colon, of which `held` holds the characters in reverse, or after
what is cut already. A code ends at the next colon, and no blank may stand in it. -/
def piecesFrom : Option (List Char) → List Char → List Piece
  | none, [] => []
  | some held, [] => [.text (':' :: held.reverse)]
  | none, c :: cs => if c = ':' then piecesFrom (some []) cs else .text [c] :: piecesFrom none cs
  | some held, c :: cs =>
    if c = ':' then .code held.reverse :: piecesFrom none cs
    else if Text.isBlank c then .text (':' :: held.reverse ++ [c]) :: piecesFrom none cs
    else piecesFrom (some (c :: held)) cs

/-- The pieces of a text. -/
def pieces (cs : List Char) : List Piece := piecesFrom none cs

/-- Holds of the control characters that are not shown. -/
def isHidden (c : Char) : Bool :=
  let n := c.toNat
  n == 7 || n == 8 || n == 11 || n == 12 || n == 13

/-- The characters of a text that are shown. -/
def visible (cs : List Char) : List Char := cs.filter fun c => !isHidden c

end ScriptBundle.Console
