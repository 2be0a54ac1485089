import ScriptBundle.Proofs.Bundles
import ScriptBundle.Proofs.Declarations
/-!
# Scripts out of their classes

The scripts of a class are taken apart at every line end and put together with newlines
(`intercalate_linesFrom`). So what is left of a class without its first and last lines and without
the indentation are its scripts with every line end read as a newline (`class_unwrapped`), which are
the scripts themselves only if they have no other line ends: one that has is not kept
(`separator_lost`).
-/

namespace ScriptBundle

open Text

/-! ## Line ends -/

/-- A text that is not empty and does not end with a line end. -/
def EndsInLine (cs : List Char) : Prop := ∃ c, cs.getLast? = some c ∧ isLineEnd c = false

/-- A text with each line end, the carriage return with the newline after it being one, read as a
newline. -/
def withNewlines : List Char → List Char
  | [] => []
  | '\r' :: '\n' :: cs => '\n' :: withNewlines cs
  | c :: cs => (if isLineEnd c then '\n' else c) :: withNewlines cs

section Lines

variable {c : Char} {cs ds line : List Char}

theorem isBlank_of_isLineEnd (h : isLineEnd c = true) : isBlank c = true := by
  simp only [isLineEnd, isBlank, Bool.or_eq_true, Bool.and_eq_true, decide_eq_true_eq,
    beq_iff_eq] at h ⊢
  omega

/-- A text is the same with newlines if it has no other line ends. -/
theorem withNewlines_eq_self_iff :
    withNewlines cs = cs ↔ ∀ c ∈ cs, isLineEnd c = true → c = '\n' := by
  induction cs using withNewlines.induct with
  | case1 => simp [withNewlines]
  | case2 cs ih => simp [withNewlines, isLineEnd]
  | case3 c cs hpair ih =>
    rw [withNewlines.eq_3 c cs hpair, List.cons.injEq, ih, List.forall_mem_cons]
    refine and_congr_left fun _ => ?_
    split_ifs with hc
    · exact ⟨fun h _ => h.symm, fun h => (h hc).symm⟩
    · exact iff_of_true rfl fun h => absurd h hc

/-- A text that has been trimmed does not end with a line end. -/
theorem endsInLine_of_trim {s : String} (h : trim s = s) (hne : s ≠ "") : EndsInLine s.toList := by
  have hlast : s.toList.getLast? =
      ((s.toList.dropWhile isBlank).reverse.dropWhile isBlank).head? := by
    have hlist := congrArg String.toList h
    rw [trim, String.toList_ofList] at hlist
    exact (congrArg List.getLast? hlist.symm).trans List.getLast?_reverse
  have hhead := List.head?_dropWhile_not isBlank (s.toList.dropWhile isBlank).reverse
  rw [← hlast] at hhead
  cases hc : s.toList.getLast? with
  | none => exact absurd (String.toList_eq_nil_iff.1 (List.getLast?_eq_none_iff.1 hc)) hne
  | some c =>
    rw [hc] at hhead
    refine ⟨c, hc, Bool.eq_false_iff.2 fun hline => ?_⟩
    exact absurd (isBlank_of_isLineEnd hline) (Bool.eq_false_iff.1 hhead)

/-- Behind a line end there is more. -/
theorem EndsInLine.of_append_cons (h : EndsInLine (ds ++ c :: cs)) (hc : isLineEnd c = true) :
    EndsInLine cs := by
  obtain ⟨d, hd, hline⟩ := h
  rw [List.getLast?_append_cons, List.getLast?_cons, Option.some.injEq] at hd
  cases hlast : cs.getLast? with
  | none =>
    rw [hlast, Option.getD_none] at hd
    rw [← hd, hc] at hline
    cases hline
  | some e =>
    rw [hlast, Option.getD_some] at hd
    exact ⟨d, hlast.trans (congrArg some hd), hline⟩

theorem EndsInLine.ne_nil (h : EndsInLine cs) : cs ≠ [] := by
  rintro rfl
  obtain ⟨c, hc, -⟩ := h
  cases hc

theorem EndsInLine.append (h : EndsInLine ds) (cs : List Char) : EndsInLine (cs ++ ds) := by
  obtain ⟨c, hc, hline⟩ := h
  exact ⟨c, by rw [List.getLast?_append, hc, Option.some_or], hline⟩

/-! ## Lines -/

theorem linesFrom_eq_nil_iff : linesFrom line cs = [] ↔ line = [] ∧ cs = [] := by
  -- The cases are those of `linesFrom`: the end of the text without and with an open line, a
  -- carriage return before a newline, any other line end, and any other character.
  induction line, cs using linesFrom.induct with
  | case1 line hempty => simp [linesFrom, List.isEmpty_iff.1 hempty]
  | case2 line hempty => simp [linesFrom, List.isEmpty_iff.not.1 hempty]
  | case3 line cs ih => simp [linesFrom]
  | case4 line c cs hpair hc ih => simp [linesFrom.eq_3 line c cs hpair, hc]
  | case5 line c cs hpair hc ih => simp [linesFrom.eq_3 line c cs hpair, hc, ih]

/-- There is no line end in a line. -/
theorem forall_mem_linesFrom (hline : ∀ c ∈ line, isLineEnd c = false) :
    ∀ l ∈ linesFrom line cs, ∀ c ∈ l, isLineEnd c = false := by
  have hreverse : ∀ {l : List Char}, (∀ c ∈ l, isLineEnd c = false) →
      ∀ c ∈ l.reverse, isLineEnd c = false := fun h c hc => h c (List.mem_reverse.1 hc)
  induction line, cs using linesFrom.induct with
  | case1 line hempty =>
    rw [linesFrom, if_pos hempty]
    exact nofun
  | case2 line hempty =>
    rw [linesFrom, if_neg hempty, List.forall_mem_singleton]
    exact hreverse hline
  | case3 line cs ih =>
    rw [linesFrom, List.forall_mem_cons]
    exact ⟨hreverse hline, ih nofun⟩
  | case4 line c cs hpair hc ih =>
    rw [linesFrom.eq_3 line c cs hpair, if_pos hc, List.forall_mem_cons]
    exact ⟨hreverse hline, ih nofun⟩
  | case5 line c cs hpair hc ih =>
    rw [linesFrom.eq_3 line c cs hpair, if_neg hc]
    exact ih (List.forall_mem_cons.2 ⟨Bool.eq_false_iff.2 hc, hline⟩)

/-- The lines of a text, put together with newlines. -/
theorem intercalate_linesFrom (h : EndsInLine (line.reverse ++ cs)) :
    ['\n'].intercalate (linesFrom line cs) = line.reverse ++ withNewlines cs := by
  -- A line end is not the last character, so there is a line behind it for the newline.
  have hcons : ∀ {line c ds cs}, EndsInLine (ds ++ c :: cs) → isLineEnd c = true →
      ['\n'].intercalate (line :: linesFrom [] cs) =
        line ++ '\n' :: ['\n'].intercalate (linesFrom [] cs) := fun h hc => by
    rw [List.intercalate_cons_of_ne_nil fun hnil =>
      (h.of_append_cons hc).ne_nil (linesFrom_eq_nil_iff.1 hnil).2, List.append_assoc]
    rfl
  induction line, cs using linesFrom.induct with
  | case1 line hempty =>
    rw [List.isEmpty_iff.1 hempty] at h
    exact absurd rfl h.ne_nil
  | case2 line hempty =>
    rw [linesFrom, if_neg hempty, List.intercalate_singleton, withNewlines, List.append_nil]
  | case3 line cs ih =>
    have hcs : EndsInLine (line.reverse ++ ['\r'] ++ '\n' :: cs) := by simpa using h
    rw [linesFrom, hcons hcs (by decide), ih (hcs.of_append_cons (by decide)), withNewlines]
    rfl
  | case4 line c cs hpair hc ih =>
    rw [linesFrom.eq_3 line c cs hpair, if_pos hc, hcons h hc, ih (h.of_append_cons hc),
      withNewlines.eq_3 c cs hpair, if_pos hc]
    rfl
  | case5 line c cs hpair hc ih =>
    rw [linesFrom.eq_3 line c cs hpair, if_neg hc, ih (by simpa using h),
      withNewlines.eq_3 c cs hpair, if_neg hc, List.reverse_cons, List.append_assoc]
    rfl

/-- The lines of two texts with a newline between them. -/
theorem linesFrom_append (h : EndsInLine (line.reverse ++ cs)) (ds : List Char) :
    linesFrom line (cs ++ '\n' :: ds) = linesFrom line cs ++ linesFrom [] ds := by
  induction line, cs using linesFrom.induct with
  | case1 line hempty =>
    rw [List.isEmpty_iff.1 hempty] at h
    exact absurd rfl h.ne_nil
  | case2 line hempty =>
    rw [linesFrom, if_neg hempty, List.nil_append, linesFrom.eq_3 line '\n' ds nofun,
      if_pos (by decide)]
    rfl
  | case3 line cs ih =>
    have hcs : EndsInLine (line.reverse ++ ['\r'] ++ '\n' :: cs) := by simpa using h
    rw [List.cons_append, List.cons_append, linesFrom, linesFrom,
      ih (hcs.of_append_cons (by decide)), List.cons_append]
  | case4 line c cs hpair hc ih =>
    -- A carriage return at the end of `cs` would be paired with the newline, but there is none.
    have hcs := h.of_append_cons hc
    have hpair' : ∀ es, c = '\r' → cs ++ '\n' :: ds = '\n' :: es → False := by
      obtain ⟨d, cs, rfl⟩ := List.exists_cons_of_ne_nil hcs.ne_nil
      intro es hr heq
      rw [List.cons_append, List.cons.injEq] at heq
      exact hpair cs hr (by rw [heq.1])
    rw [List.cons_append, linesFrom.eq_3 line c _ hpair', linesFrom.eq_3 line c cs hpair,
      if_pos hc, if_pos hc, ih hcs, List.cons_append]
  | case5 line c cs hpair hc ih =>
    have hpair' : ∀ es, c = '\r' → cs ++ '\n' :: ds = '\n' :: es → False := by
      rintro - rfl -
      exact hc (by decide)
    rw [List.cons_append, linesFrom.eq_3 line c _ hpair', linesFrom.eq_3 line c cs hpair,
      if_neg hc, if_neg hc, ih (by simpa using h)]

end Lines

/-- Texts that are put together with newlines keep their lines. -/
theorem lines_intercalate {texts : List String} (h : ∀ s ∈ texts, EndsInLine s.toList) :
    lines ("\n".intercalate texts) = texts.flatMap lines := by
  induction texts with
  | nil => rfl
  | cons s texts ih =>
    obtain ⟨hs, htexts⟩ := List.forall_mem_cons.1 h
    rcases eq_or_ne texts [] with rfl | hne
    · rw [String.intercalate_singleton, List.flatMap_singleton]
    · have hlist : ("\n".intercalate (s :: texts)).toList =
          s.toList ++ '\n' :: ("\n".intercalate texts).toList := by
        rw [String.intercalate_cons_of_ne_nil hne]
        simp
      rw [lines, hlist, linesFrom_append hs, List.map_append, List.flatMap_cons, ← ih htexts]
      rfl

theorem endsInLine_intercalate {texts : List String} (h : ∀ s ∈ texts, EndsInLine s.toList)
    (hne : texts ≠ []) : EndsInLine ("\n".intercalate texts).toList := by
  induction texts with
  | nil => exact absurd rfl hne
  | cons s texts ih =>
    obtain ⟨hs, htexts⟩ := List.forall_mem_cons.1 h
    rcases eq_or_ne texts [] with rfl | hne
    · rwa [String.intercalate_singleton]
    · rw [String.intercalate_cons_of_ne_nil hne, String.toList_append]
      exact (ih htexts hne).append _

/-! ## Indentation -/

/-- A line without the two blanks it starts with. -/
def unindentLine : List Char → List Char
  | ' ' :: ' ' :: cs => cs
  | cs => cs

/-- A text without the two blanks that lines start with. -/
def unindent (cs : List Char) : List Char :=
  ['\n'].intercalate ((cs.splitOn '\n').map unindentLine)

theorem toList_indentLine (line : String) :
    (indentLine line).toList = [] ∧ line.toList = [] ∨
      (indentLine line).toList = ' ' :: ' ' :: line.toList := by
  rw [indentLine]
  split_ifs with hempty
  · rw [String.isEmpty_iff.1 hempty]
    exact .inl ⟨rfl, rfl⟩
  · exact .inr (by simp)

theorem unindentLine_indentLine (line : String) :
    unindentLine (indentLine line).toList = line.toList := by
  obtain ⟨h, h'⟩ | h := toList_indentLine line
  · rw [h, h']
    rfl
  · rw [h]
    rfl

/-- The lines of a text are found again when they have been indented. -/
theorem splitOn_indented {s : String} (hs : EndsInLine s.toList) :
    ("\n".intercalate ((lines s).map indentLine)).toList.splitOn '\n' =
      (lines s).map fun line => (indentLine line).toList := by
  have hnone : ∀ cs ∈ (lines s).map fun line => (indentLine line).toList, '\n' ∉ cs := by
    intro cs hcs hmem
    obtain ⟨line, hline, rfl⟩ := List.mem_map.1 hcs
    obtain ⟨ds, hds, rfl⟩ := List.mem_map.1 hline
    obtain ⟨h, -⟩ | h := toList_indentLine (String.ofList ds)
    · rw [h] at hmem
      cases hmem
    · rw [h, String.toList_ofList] at hmem
      have hmem : '\n' ∈ ds := by simpa using hmem
      exact absurd (forall_mem_linesFrom (List.forall_mem_nil _) ds hds _ hmem) (by decide)
  have hne : ((lines s).map fun line => (indentLine line).toList) ≠ [] := by
    rw [lines, List.map_map]
    exact fun h => hs.ne_nil (linesFrom_eq_nil_iff.1 (List.map_eq_nil_iff.1 h)).2
  rw [String.toList_intercalate, List.map_map]
  exact List.splitOn_intercalate '\n' hnone hne

/-- A text that has been indented, without its indentation. -/
theorem unindent_indented {s : String} (hs : EndsInLine s.toList) :
    unindent ("\n".intercalate ((lines s).map indentLine)).toList = withNewlines s.toList := by
  rw [unindent, splitOn_indented hs, List.map_map, lines, List.map_map]
  have hid : (unindentLine ∘ fun line => (indentLine line).toList) ∘ String.ofList = id := by
    funext cs
    exact (unindentLine_indentLine _).trans String.toList_ofList
  rw [hid, List.map_id]
  exact intercalate_linesFrom hs

/-! ## Classes -/

/-- The line that opens a class. -/
def classStart (name : String) (members : List Fragment) : String :=
  if members.any (·.addAsInstance) then "export const " ++ name ++ " = new (class " ++ name ++ " \x7b"
  else "export class " ++ name ++ " \x7b"

/-- The lines that close a class. -/
def classEnd (name : String) (members : List Fragment) : String :=
  (if members.any (·.addAsInstance) then "\x7d)();" else "\x7d") ++
  if members.any (·.addToGlobal) then "\n" ++ "globalThis." ++ name ++ " = " ++ name ++ ";" else ""

/-- A class in a bundle, and what stands between its first and last lines. -/
structure Unwraps (name : String) (members : List Fragment) (text inner : String) : Prop where
  framed : text = classStart name members ++ "\n" ++ inner ++ "\n" ++ classEnd name members
  /-- A line in a class is empty or indented. -/
  indented : ∀ line ∈ inner.toList.splitOn '\n', line = [] ∨ [' ', ' '] <+: line
  /-- Without the indentation, the lines are the scripts with a newline between them and each line
  end read as a newline. -/
  unindented : unindent inner.toList =
    withNewlines ("\n".intercalate (members.map Fragment.body)).toList
  /-- So they are the scripts, character for character, if these have no other line ends, and only
  then. -/
  same_iff : unindent inner.toList = ("\n".intercalate (members.map Fragment.body)).toList ↔
    ∀ f ∈ members, ∀ c ∈ f.body.toList, isLineEnd c = true → c = '\n'

theorem unwraps_text {members : List Fragment} (hne : members ≠ [])
    (h : ∀ f ∈ members, EndsInLine f.body.toList) (name : String) :
    Unwraps name members (Section.wrapped name members).text
      ("\n".intercalate (memberLines members)) := by
  have hbodies : ∀ s ∈ members.map Fragment.body, EndsInLine s.toList := List.forall_mem_map.2 h
  have hends := endsInLine_intercalate hbodies (List.map_eq_nil_iff.not.2 hne)
  have hlines : memberLines members =
      (lines ("\n".intercalate (members.map Fragment.body))).map indentLine := by
    rw [← flatMap_indentLine, lines_intercalate hbodies, List.flatMap_map, List.map_flatMap]
  have hunindent := unindent_indented hends
  rw [← hlines] at hunindent
  refine ⟨?framed, ?indented, hunindent, ?same_iff⟩
  case framed =>
    rw [text_wrapped, classText, classStart, classEnd]
    split_ifs <;> simp only [String.append_assoc, String.append_empty]
  case indented =>
    rw [hlines, splitOn_indented hends, List.forall_mem_map]
    intro line _
    obtain ⟨hempty, -⟩ | hline := toList_indentLine line
    · exact .inl hempty
    · exact .inr ⟨line.toList, hline.symm⟩
  case same_iff =>
    rw [hunindent, withNewlines_eq_self_iff, String.toList_intercalate,
      forall_mem_intercalate (by simp), List.forall_mem_map, List.forall_mem_map]

/-- A section that is not blank stands in the text of the bundle, with a newline after it. -/
theorem exists_render_of_mem {g : BundleGroup} {classWrapping : Bool} {s : Section}
    (hs : s ∈ sections classWrapping g.fragments) (hblank : isBlankText s.text = false) :
    ∃ before after, g.render classWrapping = some (before ++ s.text ++ "\n" ++ after) := by
  obtain ⟨front, back, hsplit⟩ := List.append_of_mem hs
  refine ⟨bannerStart ++ g.key ++ "\n" ++ String.join (front.map fun s => s.text ++ "\n"),
    String.join (back.map fun s => s.text ++ "\n"), ?_⟩
  rw [BundleGroup.render_of_mem hs hblank, hsplit, List.map_append, List.map_cons,
    String.join_append, String.join_cons]
  simp only [String.append_assoc]

/-- A script that is trimmed and not empty. -/
def Fragment.IsTrimmed (f : Fragment) : Prop := trim f.body = f.body ∧ f.body ≠ ""

instance (f : Fragment) : Decidable f.IsTrimmed :=
  inferInstanceAs (Decidable (trim f.body = f.body ∧ f.body ≠ ""))

/-- The scripts of components are such. -/
theorem isTrimmed_of_mem_fragments {names : List String} {c : Component} {f : Fragment}
    (hf : f ∈ c.fragments names) : f.IsTrimmed := by
  refine ⟨trim_body_of_mem_fragments hf, fun hempty => ?_⟩
  have hblank := isBlank_of_mem_fragments hf
  rw [Fragment.isBlank, hempty] at hblank
  cases hblank

/-- **Class wrapping changes line ends only.** If the scripts of a bundle are trimmed and not empty,
as all are that are extracted (`isTrimmed_of_mem_fragments`), then each class in it, which is
written with all scripts that have its name, gives back these scripts, with a newline between them
and each line end read as a newline. -/
theorem class_unwrapped (g : BundleGroup) (h : ∀ f ∈ g.fragments, f.IsTrimmed) :
    ∀ name members, .wrapped name members ∈ sections true g.fragments →
      members = classMembers g.fragments name ∧ ∃ before text after inner,
        g.render true = some (before ++ text ++ "\n" ++ after) ∧
        text = (Section.wrapped name members).text ∧ Unwraps name members text inner := by
  intro name members hs
  obtain ⟨before, after, hrender⟩ := exists_render_of_mem hs (isBlankText_wrapped name members)
  obtain ⟨f, hf, heq⟩ := mem_sections.1 hs
  rw [sectionOf, Bool.true_and] at heq
  split_ifs at heq with hclass
  obtain ⟨rfl, rfl⟩ := Section.wrapped.inj heq
  have hmem : f ∈ classMembers g.fragments f.effectiveClassName :=
    List.mem_filter.2 ⟨hf, by simp [hclass]⟩
  refine ⟨rfl, before, _, after, _, hrender, rfl,
    unwraps_text (List.ne_nil_of_mem hmem) (fun e he => ?_) _⟩
  obtain ⟨htrim, hne⟩ := h e (List.mem_filter.1 he).1
  exact endsInLine_of_trim htrim hne

/-- Two scripts in a class, one of which has a separator for a line end, and one on its own. -/
theorem class_unwrapped_two :
    let f : String → Bool → Fragment := fun body asClass =>
      ⟨"App", body, true, some "index", none, asClass, some "K", false, false⟩
    let g : BundleGroup := ⟨"index", [f "a()\n\n  b()" true, f "c()" false, f "d\u2028e" true]⟩
    let members := [f "a()\n\n  b()" true, f "d\u2028e" true]
    (∀ e ∈ g.fragments, e.IsTrimmed) ∧ .wrapped "K" members ∈ sections true g.fragments ∧
      (members = classMembers g.fragments "K" ∧ ∃ before text after inner,
        g.render true = some (before ++ text ++ "\n" ++ after) ∧
        text = (Section.wrapped "K" members).text ∧ Unwraps "K" members text inner) := by
  intro f g members
  have h : ∀ e ∈ g.fragments, e.IsTrimmed := by decide +kernel
  have hs : .wrapped "K" members ∈ sections true g.fragments := by decide +kernel
  exact ⟨h, hs, class_unwrapped g h "K" members hs⟩

/-- A separator in a script is lost in a class: without the lines around it and the indentation
there is a newline in its place. Outside of a class it is kept. -/
theorem separator_lost :
    let body := "s = 'a\u2028b'"
    let f : Fragment := ⟨"App", body, true, some "index", none, true, none, false, false⟩
    let inner := "  s = 'a\n  b'"
    f.IsTrimmed ∧ sections true [f] = [.wrapped "App" [f]] ∧
      (Section.wrapped "App" [f]).text =
        classStart "App" [f] ++ "\n" ++ inner ++ "\n" ++ classEnd "App" [f] ∧
      unindent inner.toList = "s = 'a\nb'".toList ∧ unindent inner.toList ≠ body.toList ∧
      BundleGroup.render false ⟨"index", [f]⟩ =
        some ("// Auto-generated bundle: index\n" ++ body ++ "\n") := by
  decide +kernel

end ScriptBundle
