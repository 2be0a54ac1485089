import ScriptBundle.Console.Markup
import ScriptBundle.Console.Table
/-!
# Consoles

A console reads texts with markup and prints what they show. `[bold]` opens a style, `[/bold]`
closes it and `[/]` closes the one opened last; a tag that closes a style that is not open stops
the console. A tag that starts with `@` opens a handler, and closing it takes values that can be
read. Codes of emoji are replaced, and some control characters are not shown.

`Console` holds what a console looks up in tables of its own, the number of its columns, and what it
makes of lines and tables that it has no room for, with what is known of all these. What it reads
(`Console.bareText?`) and prints (`Console.line?`, `Console.tableText?`) is defined for every such
console. No colours are printed, and every character can be.
-/

namespace ScriptBundle

open Console

/-- A console, by what it looks up and what it does where there is no room. -/
structure Console where
  /-- The number of columns of a line. -/
  lineWidth : Nat
  /-- A line has eight columns at least: in a table narrower than that no cell is read. -/
  le_lineWidth : 8 ≤ lineWidth
  /-- The emoji that a code stands for, if it is the code of one. -/
  emoji? : List Char → Option (List Char)
  /-- The usual form of the name of a style: names of one style have the same. -/
  styleName : List Char → List Char
  /-- Whether the values given to a handler can be read. -/
  readsValues : List Char → Bool
  /-- Whether the styles can be drawn that are named in texts printed together. -/
  draws : List (List Markup) → Bool
  /-- The lines that a line is broken into if there is no room for it. -/
  fold : List Char → List (List Char)
  /-- The lines of a table, with its title, that there is no room for. -/
  squeeze : String → List Column → List (List String) → List String
  /-- An emoji takes no more characters than its code with the colons, and has no colon itself. -/
  emoji_short : ∀ {code e}, emoji? code = some e → e.length ≤ code.length + 2 ∧ ':' ∉ e
  /-- The name of a handler, and of nothing else, has a usual form that starts with `@`. -/
  styleName_handler : ∀ {c cs}, Text.isBlank c = false →
    ((styleName (c :: cs)).head? = some '@' ↔ c = '@')
  /-- A style named by small letters only can be drawn, whether or not there is one. -/
  draws_letters : ∀ {texts : List (List Markup)}, (∀ text ∈ texts, ∀ body, .tag body ∈ text →
    ∀ c ∈ body, c = '/' ∨ 'a' ≤ c ∧ c ≤ 'z') → draws texts = true
  /-- Breaking a line adds no characters but blanks. -/
  fold_subset : ∀ {line l}, l ∈ fold line → ∀ c ∈ l, c ∈ line ∨ c = ' '
  /-- A table has its frame also where there is no room. -/
  squeeze_corner : ∀ title columns rows, ∃ l ∈ squeeze title columns rows, '┏' ∈ l.toList

namespace Console

/-- A style that is open, with the values given to it. -/
structure OpenStyle where
  /-- Its name in the usual form. -/
  name : List Char
  /-- What stands behind the equals sign of its tag. -/
  values : List Char

section

variable (c : Console)

/-- Whether closing a style goes well: the values of a handler must be such as can be read. -/
def closes (s : OpenStyle) : Bool :=
  s.name.head? != some '@' || s.values.isEmpty || c.readsValues s.values

/-- The styles open after a tag, the last one first, or nothing if the tag closes a style that is
not open or does not close well. -/
def applyTag (open_ : List OpenStyle) (body : List Char) : Option (List OpenStyle) :=
  match body.takeWhile (· != '=') with
  | '/' :: name =>
    let name := Text.strip Text.isBlank name
    let isNamed : OpenStyle → Bool := fun s => name.isEmpty || s.name == c.styleName name
    match open_.find? isNamed with
    | some s => if c.closes s then some (open_.eraseP isNamed) else none
    | none => none
  | name => some (⟨c.styleName name, (body.dropWhile (· != '=')).tail⟩ :: open_)

/-- What is shown of a piece of plain text. -/
def pieceText : Piece → List Char
  | .text cs => cs
  | .code cs => (c.emoji? cs).getD (':' :: cs ++ [':'])

/-- A text with emoji in place of their codes. -/
def withEmoji (cs : List Char) : List Char := (pieces cs).flatMap c.pieceText

/-- What is left of a part of plain text. -/
def partText (cs : List Char) : List Char := c.withEmoji (unescape cs)

/-- The plain text of parts, unless a tag stops the console. -/
def withoutTags? (c : Console) (open_ : List OpenStyle) : List Markup → Option (List Char)
  | [] => some []
  | .plain cs :: ps => (c.withoutTags? open_ ps).map (c.partText cs ++ ·)
  | .tag body :: ps =>
    match c.applyTag open_ body with
    | some open_ => c.withoutTags? open_ ps
    | none => none

/-- A text with markup as it is read: without its tags and without the characters that are not
shown. -/
def bareText? (s : String) : Option String :=
  (c.withoutTags? [] (markup s.toList)).map fun cs => String.ofList (visible cs)

/-- The lines that a line is printed in: tabs are expanded, and if there is no room then it is
broken. -/
def lineLines (line : String) : List String :=
  let cs := expandTabs 0 line.toList
  if charsWidth cs ≤ c.lineWidth then [String.ofList cs] else (c.fold cs).map String.ofList

/-- What is printed of a text that has been read. -/
def laidOut (t : String) : String :=
  "\n".intercalate ((Text.splitOnChar '\n' t).flatMap c.lineLines) ++ "\n"

/-- What is printed of a text with markup. -/
def line? (s : String) : Option String :=
  if c.draws [markup s.toList] then (c.bareText? s).map c.laidOut else none

/-- The texts of cells as they are read. -/
def cells? (rows : List (List String)) : Option (List (List String)) :=
  rows.mapM (List.mapM c.bareText?)

/-- The lines of a table of texts that have been read. -/
def tableLines (title : String) (columns : List Column) (cells : List (List String)) :
    List String :=
  if tableWidth columns cells ≤ c.lineWidth then table title columns cells
  else c.squeeze title columns cells

/-- What is printed of a table of texts with markup. -/
def tableText? (title : String) (columns : List Column) (rows : List (List String)) :
    Option String :=
  if c.draws (rows.flatten.map fun s => markup s.toList) then
    (c.cells? rows).map fun cells =>
      String.join ((c.tableLines title columns cells).map (· ++ "\n"))
  else none

end

end Console

end ScriptBundle
