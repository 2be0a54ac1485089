import ScriptBundle.Console.Wrap
import ScriptBundle.Text.Lines
/-!
# Tables for the console

A table has a title centred above it, a heavy frame around its head and a light one around its
rows. Each column is as wide as its widest line, with a blank on both sides. A cell may hold several
lines, which makes its row as many lines high. A tab takes no room in a line when its width is
measured, and only a newline starts a line of a row: a line with a tab or another line terminator
may turn out too wide for its column, and is wrapped. All this is so if there is room for a table
of that width (`tableWidth`).
-/

namespace ScriptBundle.Console

/-- Where a cell stands in its column. -/
inductive Alignment where
  | left
  | centre
  | right
  deriving DecidableEq, Repr

/-- A column of a table. -/
structure Column where
  /-- The text in its head. -/
  head : String
  /-- Where its cells stand. -/
  alignment : Alignment

/-- `n` copies of a character. -/
def times (n : Nat) (c : Char) : String := String.ofList (List.replicate n c)

/-- A text in a field of a width. On the right and in the centre it stands without the blanks at its
end. -/
def pad (a : Alignment) (w : Nat) (s : String) : String :=
  let bare := String.ofList (Text.dropRightWhile Text.isBlank s.toList)
  match a with
  | .left => s ++ times (w - Text.width s) ' '
  | .right => times (w - Text.width bare) ' ' ++ bare
  | .centre =>
    let room := w - Text.width bare
    times (room / 2) ' ' ++ bare ++ times (room - room / 2) ' '

/-- The lines of a cell in a column of `w` columns. -/
def cellLines (w : Nat) (s : String) : List String :=
  (Text.splitOnChar '\n' s).flatMap fun line =>
    (wrap w (expandTabs 0 line.toList)).map String.ofList

/-- The width of a cell: that of its widest line. -/
def cellWidth (s : String) : Nat := ((Text.lines s).map Text.width).foldl max 0

/-- The width of a column. -/
def columnWidth (head : String) (cells : List String) : Nat :=
  (cells.map cellWidth).foldl max (cellWidth head)

/-- The characters of a horizontal line: its left end, the stretch between, the crossings and its
right end. -/
structure RuleStyle where
  left : String
  stretch : Char
  crossing : String
  right : String

/-- A horizontal line across columns. -/
def rule (r : RuleStyle) (widths : List Nat) : String :=
  r.left ++ r.crossing.intercalate (widths.map fun w => times (w + 2) r.stretch) ++ r.right

/-- A line of cells between bars. -/
def cellLine (bar : String) (cells : List String) : String :=
  bar ++ bar.intercalate (cells.map fun c => " " ++ c ++ " ") ++ bar

/-- The lines of a row: as many as its highest cell has. -/
def rowLines (bar : String) (columns : List (Alignment × Nat)) (cells : List String) :
    List String :=
  let lined := (columns.zip cells).map fun ((_, w), s) => cellLines w s
  let height := (lined.map List.length).foldl max 1
  (List.range height).map fun i =>
    cellLine bar <| (columns.zip lined).map fun ((a, w), ls) =>
      match ls[i]? with
      | some l => pad a w l
      | none => times w ' '

/-- The widths of the columns of a table. -/
def columnWidths (columns : List Column) (rows : List (List String)) : List Nat :=
  columns.mapIdx fun i c => columnWidth c.head (rows.map fun r => (r[i]?).getD "")

/-- The width of a table: each column has a blank on both sides and a bar after it. -/
def tableWidth (columns : List Column) (rows : List (List String)) : Nat :=
  (columnWidths columns rows).foldl (fun n w => n + w + 3) 1

/-- The lines of a table that there is room for. -/
def table (title : String) (columns : List Column) (rows : List (List String)) : List String :=
  let widths := columnWidths columns rows
  let heads := (columns.map Column.alignment).zip widths
  [pad .centre (tableWidth columns rows) title,
    rule ⟨"┏", '━', "┳", "┓"⟩ widths] ++
    rowLines "┃" heads (columns.map Column.head) ++
    [rule ⟨"┡", '━', "╇", "┩"⟩ widths] ++
    rows.flatMap (rowLines "│" heads) ++
    [rule ⟨"└", '─', "┴", "┘"⟩ widths]

/-- A table has a frame around its head. -/
theorem exists_corner (title : String) (columns : List Column) (rows : List (List String)) :
    ∃ l ∈ table title columns rows, '┏' ∈ l.toList := by
  refine ⟨_, List.mem_append_left _ (List.mem_append_left _ (List.mem_append_left _
    (List.mem_append_left _ (List.mem_cons_of_mem _ List.mem_cons_self)))), ?_⟩
  simp [rule]

end ScriptBundle.Console
