import Mathlib.Data.List.DropRight
import Mathlib.Data.List.TakeWhile
import ScriptBundle.Text.Blank
/-!
# Blank texts

A text is trimmed to nothing exactly if it is blank (`isEmpty_trim`), and what is left of any other
is not blank (`isBlankText_trim`) and stays as it is when it is trimmed again (`trim_trim`). A text
is blank if all its parts are.
-/

namespace ScriptBundle

open Text

theorem forall_mem_dropWhile {p : Char → Bool} {cs : List Char} :
    (∀ c ∈ cs.dropWhile p, p c = true) ↔ ∀ c ∈ cs, p c = true := by
  refine ⟨fun h c hc => ?_, fun h c hc => h c ((List.dropWhile_sublist p).mem hc)⟩
  rw [← List.takeWhile_append_dropWhile (p := p) (l := cs)] at hc
  obtain hc | hc := List.mem_append.1 hc
  · exact List.mem_takeWhile_imp hc
  · exact h c hc

theorem strip_eq_nil_iff {p : Char → Bool} {cs : List Char} :
    strip p cs = [] ↔ ∀ c ∈ cs, p c = true := by
  rw [strip, dropRightWhile, List.reverse_eq_nil_iff, List.dropWhile_eq_nil_iff]
  simp only [List.mem_reverse, forall_mem_dropWhile]

theorem forall_mem_strip {p : Char → Bool} {cs : List Char} :
    (∀ c ∈ strip p cs, p c = true) ↔ ∀ c ∈ cs, p c = true := by
  rw [strip, dropRightWhile]
  simp only [List.mem_reverse, forall_mem_dropWhile]

/-- Only a blank text is trimmed to nothing. -/
theorem isEmpty_trim (s : String) : (trim s).isEmpty = isBlankText s := by
  rw [Bool.eq_iff_iff, String.isEmpty_iff, trim, isBlankText, List.all_eq_true, ← strip_eq_nil_iff]
  simp

/-- What is left of a text that is trimmed is blank only if the text is. -/
theorem isBlankText_trim (s : String) : isBlankText (trim s) = isBlankText s := by
  rw [Bool.eq_iff_iff, trim, isBlankText, String.toList_ofList, List.all_eq_true, forall_mem_strip,
    isBlankText, List.all_eq_true]

/-- What has been stripped has nothing to strip at its start, -/
theorem dropWhile_strip (p : Char → Bool) (cs : List Char) :
    (strip p cs).dropWhile p = strip p cs := by
  have hstart : strip p cs <+: cs.dropWhile p := List.rdropWhile_prefix p _
  rw [List.dropWhile_eq_self_iff]
  intro hlength
  rw [hstart.getElem hlength]
  exact List.dropWhile_get_zero_not p cs _

/-- and nothing at its end. -/
theorem strip_strip (p : Char → Bool) (cs : List Char) : strip p (strip p cs) = strip p cs := by
  rw [strip, dropWhile_strip]
  exact List.rdropWhile_idempotent p (cs.dropWhile p)

theorem trim_trim (s : String) : trim (trim s) = trim s := by
  rw [trim, trim, String.toList_ofList, strip_strip]

theorem isBlankText_append (s t : String) :
    isBlankText (s ++ t) = (isBlankText s && isBlankText t) := by
  simp [isBlankText]

theorem isBlankText_join (l : List String) : isBlankText (String.join l) = l.all isBlankText := by
  induction l with
  | nil => rfl
  | cons s l ih => rw [String.join_cons, isBlankText_append, ih, List.all_cons]

theorem isBlankText_intercalate {s t : String} (l : List String)
    (h : isBlankText t = false) : isBlankText (s.intercalate (t :: l)) = false := by
  cases l with
  | nil => rw [String.intercalate_singleton, h]
  | cons u l =>
    rw [String.intercalate_cons_cons, isBlankText_append, isBlankText_append, h]
    rfl

end ScriptBundle
