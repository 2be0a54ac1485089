import ScriptBundle.Console.Basic
/-!
# A wide console

A console with lines of 10000 columns that has no tables: it knows no emoji, reads the values of
every handler and draws every style, and names of styles are of one word to it.
-/

namespace ScriptBundle.Console

/-- The words that are short for attributes. -/
def attributeWords : List (String × String) :=
  [("d", "dim"), ("b", "bold"), ("i", "italic"), ("u", "underline"), ("r", "reverse"),
    ("c", "conceal"), ("s", "strike"), ("uu", "underline2"), ("o", "overline")]

/-- The usual form of a name of one word. -/
def wordName (cs : List Char) : List Char :=
  let name := (Text.strip Text.isBlank cs).map Char.toLower
  match attributeWords.lookup (String.ofList name) with
  | some word => word.toList
  | none => name

theorem head?_strip {c : Char} (hc : Text.isBlank c = false) (cs : List Char) :
    (Text.strip Text.isBlank (c :: cs)).head? = some c := by
  rw [Text.strip, List.dropWhile_cons_of_neg (by simp [hc]), Text.dropRightWhile,
    List.reverse_cons, List.dropWhile_append]
  split
  · rw [List.dropWhile_cons_of_neg (by simp [hc])]
    rfl
  · rw [List.reverse_append]
    rfl

theorem toLower_eq_at {c : Char} : c.toLower = '@' ↔ c = '@' := by
  delta Char.toLower
  split
  next hupper =>
    -- A capital letter is not below the letters, and neither is its small one.
    refine iff_of_false (fun h => ?_) ?_
    · have hval : c.val + 32 = 64 := congrArg Char.val h
      grind
    · rintro rfl
      exact absurd hupper (by decide)
  next => exact Iff.rfl

theorem mem_of_lookup_word {name word : String} (h : attributeWords.lookup name = some word) :
    (name, word) ∈ attributeWords := by
  obtain ⟨before, after, hwords, -⟩ := List.lookup_eq_some_iff.1 h
  rw [hwords]
  exact List.mem_append_right _ List.mem_cons_self

theorem wordName_handler {c : Char} {cs : List Char} (hc : Text.isBlank c = false) :
    (wordName (c :: cs)).head? = some '@' ↔ c = '@' := by
  have hwords : ∀ p ∈ attributeWords,
      p.1.toList.head? ≠ some '@' ∧ p.2.toList.head? ≠ some '@' := by decide +kernel
  have hname : ((Text.strip Text.isBlank (c :: cs)).map Char.toLower).head? = some c.toLower := by
    rw [List.head?_map, head?_strip hc]
    rfl
  rw [wordName]
  split
  next word hword =>
    obtain ⟨hkey, hvalue⟩ := hwords _ (mem_of_lookup_word hword)
    refine iff_of_false hvalue fun h => hkey ?_
    rw [String.toList_ofList, hname, toLower_eq_at.2 h]
  next => rw [hname, Option.some.injEq, toLower_eq_at]

/-- A console with lines of 10000 columns and no tables. -/
def wide : Console where
  lineWidth := 10000
  le_lineWidth := by decide
  emoji? _ := none
  styleName := wordName
  readsValues _ := true
  draws _ := true
  fold line := [line]
  squeeze := table
  emoji_short := nofun
  styleName_handler := wordName_handler
  draws_letters _ := rfl
  fold_subset hl _ hc := .inl (List.mem_singleton.1 hl ▸ hc)
  squeeze_corner := exists_corner

end ScriptBundle.Console
