import ScriptBundle.Proofs.Streams
/-!
# Names of component types

The name of a component type is cut three times: before the first bracket, behind the last dot that
is left, and behind a mark that what is left starts with. So generic arguments may hold dots and
brackets of their own, and `simpleTypeName_eq_iff` says which names are cut down to a simple one.
Extraction takes an instruction that opens a component for the start of a script declaration if its
type has the simple name of a script component, and otherwise overlooks it (`takesForScript_iff`,
`overlooks_iff`). So script components are recognised however their types are written:
`scripts_recognised`.
-/

namespace ScriptBundle

/-! ## Cutting names -/

/-- The mark for the outermost namespace. -/
def outermostMark : String := "global::"

/-- The name of a type alone: there is no namespace before it, no mark and no generic argument. -/
structure IsSimpleTypeName (simple : String) : Prop where
  undotted : '.' ∉ simple.toList
  plain : '<' ∉ simple.toList
  unmarked : ¬ outermostMark.toList <+: simple.toList

/-- What starts with no mark is what is left of itself and of itself behind the mark, and of nothing
else. -/
theorem drop_mark_eq_iff {mark l simple : List Char} (h : ¬ mark <+: simple) :
    (if mark.isPrefixOf l then l.drop mark.length else l) = simple ↔
      ∃ dropped, (dropped = [] ∨ dropped = mark) ∧ l = dropped ++ simple := by
  split_ifs with hmark
  · obtain ⟨rest, rfl⟩ := List.isPrefixOf_iff_prefix.1 hmark
    rw [List.drop_left]
    constructor
    · rintro rfl
      exact ⟨mark, .inr rfl, rfl⟩
    · rintro ⟨_, rfl | rfl, hl⟩
      · exact absurd ⟨rest, hl⟩ h
      · exact List.append_cancel_left hl
  · constructor
    · rintro rfl
      exact ⟨[], .inl rfl, rfl⟩
    · rintro ⟨_, rfl | rfl, rfl⟩
      · rfl
      · exact absurd (List.isPrefixOf_iff_prefix.2 (List.prefix_append _ _)) hmark

/-- A name is cut down to a simple one exactly if this stands behind a dot or at the start, with or
without a mark, and before a bracket or at the end. -/
theorem simpleTypeName_eq_iff {name simple : String} (h : IsSimpleTypeName simple) :
    simpleTypeName name = simple ↔ ∃ lead mark arguments : List Char,
      name.toList = lead ++ mark ++ simple.toList ++ arguments ∧ '<' ∉ lead ∧
        (∀ c ∈ lead.getLast?, c = '.') ∧ (mark = [] ∨ mark = outermostMark.toList) ∧
        ∀ c ∈ arguments.head?, c = '<' := by
  have hcut : simpleTypeName name = simple ↔ ∃ mark, (mark = [] ∨ mark = outermostMark.toList) ∧
      ((name.toList.takeWhile (· != '<')).reverse.takeWhile (· != '.')).reverse =
        mark ++ simple.toList := by
    rw [simpleTypeName, ← String.toList_inj, String.toList_ofList]
    exact drop_mark_eq_iff h.unmarked
  rw [hcut]
  constructor
  · rintro ⟨mark, hmark, hlast⟩
    obtain ⟨-, lead, houter, hlead⟩ := reverse_takeWhile_ne_eq_iff.1 hlast
    obtain ⟨hplain, arguments, hname, harguments⟩ := takeWhile_ne_eq_iff.1 houter
    refine ⟨lead, mark, arguments, ?_, fun hmem => hplain (List.mem_append_left _ hmem), hlead,
      hmark, harguments⟩
    rw [hname, List.append_assoc lead mark]
  · rintro ⟨lead, mark, arguments, hname, hplain, hlead, hmark, harguments⟩
    have hmarked : '.' ∉ mark ∧ '<' ∉ mark := by
      obtain rfl | rfl := hmark <;> decide
    have houter : name.toList.takeWhile (· != '<') = lead ++ (mark ++ simple.toList) :=
      takeWhile_ne_eq_iff.2 ⟨by simp [hplain, hmarked.2, h.plain], arguments,
        by rw [hname, List.append_assoc lead mark], harguments⟩
    exact ⟨mark, hmark, reverse_takeWhile_ne_eq_iff.2
      ⟨by simp [hmarked.1, h.undotted], lead, houter, hlead⟩⟩

/-! ## Spellings -/

/-- A way to write the name of a component type. -/
structure TypeSpelling where
  /-- Whether it starts with the mark for the outermost namespace. -/
  marked : Bool
  /-- The parts of the namespace, of which there may be none. -/
  scope : List String
  /-- The name of the type alone. -/
  simple : String
  /-- What follows the bracket that generic arguments start with, if there are any. -/
  arguments : Option String
  plain_of_mem_scope : ∀ part ∈ scope, '<' ∉ part.toList
  isSimple : IsSimpleTypeName simple

namespace TypeSpelling

/-- What stands before the namespace. -/
def front (s : TypeSpelling) : String := if s.marked then outermostMark else ""

/-- What stands behind the name of the type. -/
def back (s : TypeSpelling) : String :=
  match s.arguments with
  | some arguments => "<" ++ arguments
  | none => ""

/-- The name as it is written. -/
def text (s : TypeSpelling) : String :=
  s.front ++ ".".intercalate (s.scope ++ [s.simple]) ++ s.back

theorem toList_front_eq (s : TypeSpelling) :
    s.front.toList = [] ∨ s.front.toList = outermostMark.toList := by
  rw [front]
  split_ifs <;> simp

theorem eq_of_mem_head?_back (s : TypeSpelling) : ∀ c ∈ s.back.toList.head?, c = '<' := by
  rw [back]
  cases s.arguments <;> simp

theorem plain_scope (s : TypeSpelling) : '<' ∉ (".".intercalate s.scope).toList := by
  have hparts : ∀ c ∈ (".".intercalate s.scope).toList, c ≠ '<' := by
    rw [String.toList_intercalate, forall_mem_intercalate (by simp), List.forall_mem_map]
    exact fun part hpart c hc h => s.plain_of_mem_scope part hpart (h ▸ hc)
  exact fun h => hparts _ h rfl

/-- However it is written, a type has its own name. -/
theorem simpleTypeName_text (s : TypeSpelling) : simpleTypeName s.text = s.simple := by
  rw [simpleTypeName_eq_iff s.isSimple]
  -- A mark in front stands before the name of the type if there is no namespace, and otherwise it
  -- goes with the first part of the namespace.
  rcases eq_or_ne s.scope [] with hscope | hscope
  · refine ⟨[], s.front.toList, s.back.toList, ?_, by simp, by simp, s.toList_front_eq,
      s.eq_of_mem_head?_back⟩
    simp [text, hscope]
  · have hfront : '<' ∉ s.front.toList := by
      obtain h | h := s.toList_front_eq <;> rw [h] <;> decide
    refine ⟨(s.front ++ ".".intercalate s.scope ++ ".").toList, [], s.back.toList, ?_, ?_, by simp,
      .inl rfl, s.eq_of_mem_head?_back⟩
    · rw [text, String.intercalate_append_of_ne_nil hscope (by simp)]
      simp
    · rw [String.toList_append, String.toList_append, List.mem_append, List.mem_append]
      exact not_or.2 ⟨not_or.2 ⟨hfront, s.plain_scope⟩, by decide⟩

/-- An instruction that opens a component of the type. -/
def marker (s : TypeSpelling) (sequence : Int) (value : Value) (literal : Bool) : Instruction :=
  ⟨.openComponent, sequence, some s.text, value, literal⟩

theorem opensScript_marker_iff (s : TypeSpelling) {names : List String} {sequence : Int}
    {value : Value} {literal : Bool} :
    (s.marker sequence value literal).OpensScript names ↔ s.simple ∈ names := by
  have htype : (s.marker sequence value literal).typeName = some s.simple :=
    congrArg some s.simpleTypeName_text
  have hkind : (s.marker sequence value literal).kind = .openComponent := rfl
  simp [Instruction.OpensScript, hkind, htype]

end TypeSpelling

/-! ## Opened components in a stream -/

section Insertion

variable {names : List String} {name : String} {scope : Option String}
  {before after : List Instruction} {i : Instruction}

/-- Extraction takes an instruction between others for the start of a script declaration: it finds
what the declaration leads to, in its place, and for the rest what it finds without it. -/
def TakesForScript (names : List String) (name : String) (scope : Option String)
    (before : List Instruction) (i : Instruction) (after : List Instruction) : Prop :=
  let c : Component := ⟨name, scope, before ++ i :: after⟩
  ∃ earlier, Component.findings names ⟨name, scope, before ++ after⟩ =
      earlier ++ Component.findings names ⟨name, scope, after⟩ ∧
    c.findings names = earlier ++ findingAt c.ownerId i (i :: after) ::
      Component.findings names ⟨name, scope, after⟩

/-- Extraction overlooks an instruction between others: there are the fragments and the log records
that there are without it. -/
structure Overlooks (names : List String) (name : String) (scope : Option String)
    (before : List Instruction) (i : Instruction) (after : List Instruction) : Prop where
  fragments : Component.fragments names ⟨name, scope, before ++ i :: after⟩ =
    Component.fragments names ⟨name, scope, before ++ after⟩
  records : Component.records names ⟨name, scope, before ++ i :: after⟩ =
    Component.records names ⟨name, scope, before ++ after⟩

theorem takesForScript_of_opensScript (h : i.OpensScript names) :
    TakesForScript names name scope before i after := by
  obtain ⟨earlier, hwithout, hwith⟩ := exists_findings_insert h.1 before after
  refine ⟨earlier, hwithout, hwith.trans ?_⟩
  rw [findings, if_pos (Instruction.opensScript_iff.2 h)]
  rfl

theorem overlooks_of_not_opensScript (hi : i.kind = .openComponent) (h : ¬ i.OpensScript names) :
    Overlooks names name scope before i after := by
  obtain ⟨earlier, hwithout, hwith⟩ := exists_findings_insert hi before after
  have hsame : Component.findings names ⟨name, scope, before ++ i :: after⟩ =
      Component.findings names ⟨name, scope, before ++ after⟩ := by
    refine (hwith.trans ?_).trans hwithout.symm
    rw [findings, if_neg (Instruction.opensScript_iff.not.2 h)]
  constructor
  · rw [Component.fragments, hsame, Component.fragments]
  · rw [Component.records, hsame, Component.records]
    rfl

/-- A finding is seen in a fragment or in a log record. -/
theorem Finding.fragment?_ne_none_or_records_ne_nil (finding : Finding) (owner : String) :
    finding.fragment? ≠ none ∨ finding.records owner ≠ [] := by
  cases finding with
  | script => exact .inl (by simp [fragment?])
  | skipped => exact .inr (by simp [records])

/-- What is taken for the start of a script declaration is not overlooked. -/
theorem TakesForScript.not_overlooks (h : TakesForScript names name scope before i after) :
    ¬ Overlooks names name scope before i after := by
  obtain ⟨earlier, hwithout, hwith⟩ := h
  rintro ⟨hfragments, hrecords⟩
  rw [Component.fragments, hwith, Component.fragments, hwithout, List.filterMap_append,
    List.filterMap_append, List.append_cancel_left_eq] at hfragments
  rw [Component.records, hwith, Component.records, hwithout, List.flatMap_append,
    List.flatMap_append] at hrecords
  have hrecords := List.append_cancel_left hrecords
  rw [List.flatMap_cons] at hrecords
  obtain hsome | hsome := Finding.fragment?_ne_none_or_records_ne_nil
    (findingAt (Component.ownerId ⟨name, scope, before ++ i :: after⟩) i (i :: after))
    (Component.ownerId ⟨name, scope, before ++ i :: after⟩)
  · obtain ⟨f, hf⟩ := Option.ne_none_iff_exists'.1 hsome
    rw [List.filterMap_cons_some hf] at hfragments
    exact List.cons_ne_self f _ hfragments
  · exact hsome (List.append_left_eq_self.1 hrecords)

theorem takesForScript_iff (hi : i.kind = .openComponent) :
    TakesForScript names name scope before i after ↔ i.OpensScript names := by
  refine ⟨fun h => ?_, takesForScript_of_opensScript⟩
  by_contra hopens
  exact h.not_overlooks (overlooks_of_not_opensScript hi hopens)

theorem overlooks_iff (hi : i.kind = .openComponent) :
    Overlooks names name scope before i after ↔ ¬ i.OpensScript names :=
  ⟨fun h hopens => (takesForScript_of_opensScript hopens).not_overlooks h,
    overlooks_of_not_opensScript hi⟩

end Insertion

/-- **Script components are recognised however their types are written**, with a namespace and a
mark before their names and generic arguments behind them, or without: extraction takes what opens
one for the start of a script declaration, and overlooks what opens any other component. -/
theorem scripts_recognised (s : TypeSpelling) : simpleTypeName s.text = s.simple ∧
    ∀ (names : List String) (name : String) (scope : Option String)
      (before after : List Instruction) (sequence : Int) (value : Value) (literal : Bool),
      (TakesForScript names name scope before (s.marker sequence value literal) after ↔
        s.simple ∈ names) ∧
      (Overlooks names name scope before (s.marker sequence value literal) after ↔
        s.simple ∉ names) := by
  refine ⟨s.simpleTypeName_text, ?_⟩
  intro names name scope before after sequence value literal
  have hopens := @TypeSpelling.opensScript_marker_iff s names sequence value literal
  exact ⟨(takesForScript_iff rfl).trans hopens, (overlooks_iff rfl).trans (not_congr hopens)⟩

/-- Dots and brackets in the arguments of a type do not count. -/
theorem scripts_recognised_generic :
    let s : TypeSpelling := ⟨true, ["InlineJs", "Web"], "Script", some "App.Widget, List<A.B>>",
      by decide, ⟨by decide, by decide, by decide⟩⟩
    let marker := s.marker 0 .null true
    let text : Instruction := ⟨.addContent, 1, none, .string "run()", true⟩
    let close : Instruction := ⟨.closeComponent, 2, none, .null, true⟩
    s.text = "global::InlineJs.Web.Script<App.Widget, List<A.B>>" ∧
      simpleTypeName s.text = "Script" ∧
      TakesForScript ["Script"] "Widget" none [] marker [text, close] ∧
      (Component.fragments ["Script"] ⟨"Widget", none, [marker, text, close]⟩).map Fragment.body =
        ["run()"] ∧
      Overlooks ["InlineScript"] "Widget" none [] marker [text, close] := by
  intro s marker text close
  obtain ⟨hname, hmarker⟩ := scripts_recognised s
  exact ⟨by decide, hname, (hmarker ..).1.2 (by decide), by decide, (hmarker ..).2.2 (by decide)⟩

end ScriptBundle
