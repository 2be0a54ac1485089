import ScriptBundle.Console.Basic
import ScriptBundle.Proofs.Lists
/-!
# Lines that there is room for

A text that has been read is printed as it is if there is no tab in it and the console has room for
each of its lines (`laidOut_of_fits`). Otherwise nothing but blanks and line ends is added to its
characters (`forall_mem_laidOut`).
-/

namespace ScriptBundle.Console

open Text

variable {c : Console} {cs : List Char} {s t : String}

theorem go_splitOnChar_ne_nil (d : Char) (cs piece : List Char) :
    splitOnChar.go d cs piece ≠ [] := by
  induction cs generalizing piece with
  | nil => exact List.cons_ne_nil _ _
  | cons ch cs ih =>
    rw [splitOnChar.go]
    split_ifs
    · exact List.cons_ne_nil _ _
    · exact ih _

theorem intercalate_go_splitOnChar (d : Char) (cs piece : List Char) :
    (String.singleton d).intercalate (splitOnChar.go d cs piece) =
      String.ofList (piece.reverse ++ cs) := by
  induction cs generalizing piece with
  | nil => simp [splitOnChar.go]
  | cons ch cs ih =>
    rw [splitOnChar.go]
    split_ifs with hch
    · obtain ⟨first, more, hpieces⟩ := List.exists_cons_of_ne_nil (go_splitOnChar_ne_nil d cs [])
      have htail := ih []
      rw [hpieces] at htail ⊢
      rw [String.intercalate_cons_cons, htail, hch, ← String.toList_inj]
      simp
    · rw [ih, List.reverse_cons, List.append_assoc]
      rfl

/-- A text is put together from its pieces. -/
theorem intercalate_splitOnChar (d : Char) (s : String) :
    (String.singleton d).intercalate (splitOnChar d s) = s := by
  rw [splitOnChar, intercalate_go_splitOnChar, List.reverse_nil, List.nil_append,
    String.ofList_toList]

theorem expandTabs_eq_self (h : '\t' ∉ cs) (column : Nat) : expandTabs column cs = cs := by
  fun_induction expandTabs column cs with
  | case1 => rfl
  | case2 column cs ih => rw [ih fun hmem => h (List.mem_cons_of_mem _ hmem)]
  | case3 => exact absurd List.mem_cons_self h
  | case4 column c cs _ _ ih => rw [ih fun hmem => h (List.mem_cons_of_mem _ hmem)]

/-! ## Room -/

/-- The console has room for each line of a text. -/
def Fits (c : Console) (t : String) : Prop :=
  ∀ line ∈ splitOnChar '\n' t, width line ≤ c.lineWidth

theorem lineLines_of_fits (htab : '\t' ∉ s.toList) (hwidth : width s ≤ c.lineWidth) :
    c.lineLines s = [s] := by
  have hchars : charsWidth s.toList ≤ c.lineWidth := hwidth
  simp only [lineLines, expandTabs_eq_self htab, if_pos hchars, String.ofList_toList]

/-- What holds of the characters of a text holds of those of its lines. -/
theorem forall_mem_splitOnChar {P : Char → Prop} (hend : P '\n') :
    (∀ line ∈ splitOnChar '\n' t, ∀ ch ∈ line.toList, P ch) ↔ ∀ ch ∈ t.toList, P ch := by
  have htext : (['\n'] : List Char).intercalate ((splitOnChar '\n' t).map String.toList) =
      t.toList := by
    have hsep : (String.singleton '\n').toList = ['\n'] := rfl
    rw [← hsep, ← String.toList_intercalate, intercalate_splitOnChar]
  rw [← htext, forall_mem_intercalate (by simpa using hend), List.forall_mem_map]

/-- **A text that there is room for is printed as it is.** -/
theorem laidOut_of_fits (htab : '\t' ∉ t.toList) (h : c.Fits t) : c.laidOut t = t ++ "\n" := by
  have hlines : (splitOnChar '\n' t).flatMap c.lineLines = splitOnChar '\n' t := by
    have htabs : ∀ line ∈ splitOnChar '\n' t, ∀ ch ∈ line.toList, ch ≠ '\t' :=
      (forall_mem_splitOnChar (by decide)).2 fun ch hch hch' => htab (hch' ▸ hch)
    rw [List.flatMap_congr fun line hline =>
      lineLines_of_fits (fun hmem => htabs line hline _ hmem rfl) (h line hline)]
    exact List.flatMap_singleton' _
  rw [laidOut, hlines]
  exact congrArg (· ++ "\n") (intercalate_splitOnChar '\n' t)

/-! ## No room -/

theorem forall_mem_expandTabs {P : Char → Prop} (hblank : P ' ') (hend : P '\n')
    (h : ∀ ch ∈ cs, P ch) (column : Nat) : ∀ ch ∈ expandTabs column cs, P ch := by
  fun_induction expandTabs column cs with
  | case1 => exact h
  | case2 column cs ih =>
    exact List.forall_mem_cons.2 ⟨hend, ih (List.forall_mem_cons.1 h).2⟩
  | case3 column cs n ih =>
    refine List.forall_mem_append.2 ⟨fun ch hch => ?_, ih (List.forall_mem_cons.1 h).2⟩
    exact (List.mem_replicate.1 hch).2 ▸ hblank
  | case4 column ch cs _ _ ih =>
    exact List.forall_mem_cons.2 ⟨(List.forall_mem_cons.1 h).1, ih (List.forall_mem_cons.1 h).2⟩

theorem forall_mem_lineLines {P : Char → Prop} (hblank : P ' ') (hend : P '\n')
    (h : ∀ ch ∈ s.toList, P ch) : ∀ l ∈ c.lineLines s, ∀ ch ∈ l.toList, P ch := by
  have htabs := forall_mem_expandTabs hblank hend h 0
  rw [lineLines]
  split_ifs
  · simpa using htabs
  · intro l hl ch hch
    obtain ⟨cs, hcs, rfl⟩ := List.mem_map.1 hl
    rw [String.toList_ofList] at hch
    obtain hch | rfl := c.fold_subset hcs ch hch
    · exact htabs ch hch
    · exact hblank

/-- Nothing but blanks and line ends is added to a text that is printed. -/
theorem forall_mem_laidOut {P : Char → Prop} (hblank : P ' ') (hend : P '\n')
    (h : ∀ ch ∈ t.toList, P ch) : ∀ ch ∈ (c.laidOut t).toList, P ch := by
  have hlines : ∀ l ∈ (splitOnChar '\n' t).flatMap c.lineLines, ∀ ch ∈ l.toList, P ch := by
    intro l hl
    obtain ⟨line, hline, hl⟩ := List.mem_flatMap.1 hl
    exact forall_mem_lineLines hblank hend ((forall_mem_splitOnChar hend).2 h line hline) l hl
  rw [laidOut, String.toList_append, List.forall_mem_append, String.toList_intercalate,
    forall_mem_intercalate (by simpa using hend), List.forall_mem_map]
  exact ⟨hlines, by simpa using hend⟩

end ScriptBundle.Console
