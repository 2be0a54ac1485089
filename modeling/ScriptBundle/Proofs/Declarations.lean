import ScriptBundle.Proofs.Blanks
import ScriptBundle.Proofs.Streams
/-!
# Script declarations

A script declaration is an opened script component with what follows it, up to the first closed
component. What is inside decides about its fragment (`StandFor`): the last literal text is
the script, and each parameter has the value that it is given first. A stream has the fragments of
exactly those of its declarations that have a script, in their order (`exists_extracts`,
`fragments_declared`).
-/

namespace ScriptBundle

/-! ## Declarations -/

/-- The instruction adds a literal text. -/
def Instruction.AddsText (i : Instruction) (text : String) : Prop :=
  (i.kind = .addMarkupContent ∨ i.kind = .addContent) ∧ i.literal = true ∧ i.value = .string text

/-- The instruction sets the parameter of a name. -/
def Instruction.Sets (i : Instruction) (name : String) : Prop :=
  i.kind = .addComponentParameter ∧ i.name = some name

/-- The last literal text among instructions is added after `lead`. -/
def LastText (inside lead : List Instruction) (text : String) : Prop :=
  ∃ i trail, inside = lead ++ i :: trail ∧ i.AddsText text ∧ ∀ j ∈ trail, ∀ s, ¬ j.AddsText s

/-- The first of the instructions that set a parameter. -/
def FirstSet (inside : List Instruction) (name : String) (i : Instruction) : Prop :=
  ∃ lead trail, inside = lead ++ i :: trail ∧ i.Sets name ∧ ∀ j ∈ lead, ¬ j.Sets name

/-- The value of a parameter among instructions. -/
inductive TakesValue {α : Type} (coerce : Value → Except CoercionError α)
    (inside : List Instruction) (name : String) (default : α) : α → Prop
  /-- It is what the parameter is given first, if that is literal and can be read. -/
  | given {i : Instruction} {a : α} (first : FirstSet inside name i) (literal : i.literal = true)
      (value : coerce i.value = .ok a) : TakesValue coerce inside name default a
  /-- It is the default if that is not so, whatever the parameter is given later, -/
  | unread {i : Instruction} (first : FirstSet inside name i)
      (h : ∀ a, i.literal = true → coerce i.value ≠ .ok a) :
      TakesValue coerce inside name default default
  /-- or if it is given nothing. -/
  | unset (h : ∀ i ∈ inside, ¬ i.Sets name) : TakesValue coerce inside name default default

/-- The fragment that the instructions of a declaration stand for. -/
structure StandFor (inside : List Instruction) (owner : String) (f : Fragment) : Prop where
  ownerId : f.ownerId = owner
  body : ∃ lead text, LastText inside lead text ∧ f.body = Text.trim text
  globalBundle : TakesValue coerceBool inside "GlobalBundle" false f.globalBundle
  bundleName : TakesValue coerceText inside "BundleName" (some defaultBundleName) f.bundleName
  scriptFile : TakesValue coerceText inside "ScriptFile" none f.scriptFile
  asClass : TakesValue coerceBool inside "AsClass" true f.asClass
  className : TakesValue coerceText inside "ClassName" none f.className
  addToGlobal : TakesValue coerceBool inside "AddToGlobal" false f.addToGlobal
  addAsInstance : TakesValue coerceBool inside "AddAsInstance" false f.addAsInstance

/-- A script declaration in a stream of instructions. -/
structure Declaration (names : List String) (stream : List Instruction) where
  /-- What stands before it. -/
  before : List Instruction
  /-- The instruction that opens the script component. -/
  marker : Instruction
  /-- What stands between the instructions that open and close it. -/
  inside : List Instruction
  /-- The first instruction after the marker that closes a component. -/
  close : Instruction
  /-- What stands after it. -/
  after : List Instruction
  split : before ++ marker :: (inside ++ close :: after) = stream
  opens : marker.OpensScript names
  closes : close.kind = .closeComponent
  stillOpen : ∀ i ∈ inside, i.kind ≠ .closeComponent

namespace Declaration

variable {names : List String} {stream : List Instruction}

/-- The place of the marker in the stream. -/
def place (d : Declaration names stream) : Nat := d.before.length

/-- The declaration has a script: the last literal text in it is not blank. -/
def HasScript (d : Declaration names stream) : Prop :=
  ∃ lead text, LastText d.inside lead text ∧ Text.isBlankText text = false

/-- A declaration of a stream, after one more instruction. -/
def cons (i : Instruction) (d : Declaration names stream) : Declaration names (i :: stream) :=
  { d with before := i :: d.before, split := congrArg (i :: ·) d.split }

theorem parts_of_place {i : Instruction} {before after : List Instruction}
    (d : Declaration names (before ++ i :: after)) (h : d.place = before.length) :
    d.before = before ∧ d.marker = i ∧ d.inside ++ d.close :: d.after = after := by
  obtain ⟨hbefore, hrest⟩ := List.append_inj d.split h
  exact ⟨hbefore, List.cons.inj hrest⟩

/-- There is at most one declaration at a place. -/
theorem eq_of_place {d e : Declaration names stream} (h : d.place = e.place) : d = e := by
  have hsplit := d.split.trans e.split.symm
  obtain ⟨hbefore, hrest⟩ := List.append_inj hsplit h
  obtain ⟨hmarker, hrest⟩ := List.cons.inj hrest
  obtain ⟨hinside, hclose, hafter⟩ :=
    eq_of_first_close hrest d.closes e.closes d.stillOpen e.stillOpen
  cases d
  cases e
  simp_all

/-- A declaration is at the start of a stream, or in what follows. -/
theorem eq_cons_of_place {i : Instruction} (d : Declaration names (i :: stream)) (h : d.place ≠ 0) :
    ∃ e : Declaration names stream, d = e.cons i := by
  obtain ⟨before, marker, inside, close, after, split, opens, closes, stillOpen⟩ := d
  cases before with
  | nil => exact absurd rfl h
  | cons j before =>
    obtain ⟨rfl, hsplit⟩ := List.cons.inj split
    exact ⟨⟨before, marker, inside, close, after, hsplit, opens, closes, stillOpen⟩, rfl⟩

/-- A script component that is closed is declared. -/
theorem exists_of_closed {i : Instruction} (hopens : i.OpensScript names)
    (before : List Instruction) {after : List Instruction}
    (h : ∃ j ∈ after, j.kind = .closeComponent) :
    ∃ d : Declaration names (before ++ i :: after), d.place = before.length := by
  obtain ⟨inside, close, rest, rfl, hopen, hclose⟩ :=
    exists_first_not (P := fun j : Instruction => j.kind ≠ .closeComponent) (by simpa using h)
  exact ⟨⟨before, i, inside, close, rest, rfl, hopens, of_not_not hclose, hopen⟩, rfl⟩

end Declaration

/-! ## Reading a declaration -/

theorem Instruction.contentText?_eq_some {i : Instruction} {text : String} :
    i.contentText? = some text ↔ i.AddsText text := by
  rw [contentText?, AddsText]
  cases i.kind <;> cases i.literal <;> cases i.value <;> simp [InstructionKind.isContent]

theorem Instruction.contentText?_eq_none {i : Instruction} :
    i.contentText? = none ↔ ∀ text, ¬ i.AddsText text := by
  simp only [← contentText?_eq_some, Option.eq_none_iff_forall_ne_some, ne_eq]

theorem content?_eq_some {inside : List Instruction} {text : String} :
    content? inside = some text ↔ ∃ lead, LastText inside lead text := by
  rw [content?, List.findSome?_eq_some_iff]
  simp only [Instruction.contentText?_eq_some, Instruction.contentText?_eq_none]
  constructor
  · rintro ⟨trail, i, lead, h, hi, htrail⟩
    refine ⟨lead.reverse, i, trail.reverse, ?_, hi, fun j hj => htrail j (List.mem_reverse.1 hj)⟩
    rw [← List.reverse_reverse inside, h]
    simp
  · rintro ⟨lead, i, trail, rfl, hi, htrail⟩
    exact ⟨trail.reverse, i, lead.reverse, by simp, hi, fun j hj =>
      htrail j (List.mem_reverse.1 hj)⟩

theorem LastText.unique {inside lead lead' : List Instruction} {text text' : String}
    (h : LastText inside lead text) (h' : LastText inside lead' text') :
    lead = lead' ∧ text = text' := by
  obtain ⟨i, trail, rfl, hi, htrail⟩ := h
  obtain ⟨i', trail', hsplit, hi', htrail'⟩ := h'
  obtain ⟨hlead, rfl, -⟩ := eq_of_last (P := fun j : Instruction => ∃ s, j.AddsText s) hsplit
    ⟨text, hi⟩ ⟨text', hi'⟩ (fun j hj ⟨s, hs⟩ => htrail j hj s hs)
    (fun j hj ⟨s, hs⟩ => htrail' j hj s hs)
  exact ⟨hlead, Value.string.inj (hi.2.2.symm.trans hi'.2.2)⟩

theorem literalParameter?_eq (inside : List Instruction) (name : String) :
    (∃ i, FirstSet inside name i ∧
      literalParameter? inside name = if i.literal then some i.value else none) ∨
    (∀ i ∈ inside, ¬ i.Sets name) ∧ literalParameter? inside name = none := by
  rw [literalParameter?]
  split
  next i hi =>
    obtain ⟨hsets, lead, trail, rfl, hlead⟩ := List.find?_eq_some_iff_append.1 hi
    refine .inl ⟨i, ⟨lead, trail, rfl, by simpa [Instruction.Sets] using hsets, ?_⟩, rfl⟩
    intro j hj hsets
    simpa [hsets.1, hsets.2] using hlead j hj
  next hi =>
    refine .inr ⟨fun i hmem hsets => ?_, rfl⟩
    simpa [hsets.1, hsets.2] using List.find?_eq_none.1 hi i hmem

/-- A parameter is read as its value. -/
theorem takesValue_parameter {α : Type} (coerce : Value → Except CoercionError α)
    (shown : α → Value) (inside : List Instruction) (name : String) (default : α) :
    TakesValue coerce inside name default (parameter coerce shown inside name default).1 := by
  obtain ⟨i, hfirst, hi⟩ | ⟨hunset, hi⟩ := literalParameter?_eq inside name
  · cases hliteral : i.literal with
    | false =>
      rw [parameter, hi, hliteral]
      exact .unread hfirst fun a h => by simp [hliteral] at h
    | true =>
      rw [parameter, hi, if_pos hliteral]
      dsimp only
      cases hv : coerce i.value with
      | ok a => exact .given hfirst hliteral hv
      | error e => exact .unread hfirst fun a _ h => by simp [hv] at h
  · rw [parameter, hi]
    exact .unset hunset

namespace Declaration

variable {names : List String} {stream : List Instruction}

/-- A declaration leads to a fragment exactly if it has a script, and then to its own. -/
theorem fragment?_findingAt (d : Declaration names stream) (owner : String) :
    (∃ f, (findingAt owner d.marker (d.marker :: (d.inside ++ d.close :: d.after))).fragment? =
      some f ∧ d.HasScript ∧ StandFor d.inside owner f) ∨
    (findingAt owner d.marker (d.marker :: (d.inside ++ d.close :: d.after))).fragment? = none ∧
      ¬ d.HasScript := by
  have hopen : ∀ i ∈ d.marker :: d.inside, i.kind ≠ .closeComponent :=
    List.forall_mem_cons.2 ⟨by simp [d.opens.1], d.stillOpen⟩
  have hd : declaration? (d.marker :: (d.inside ++ d.close :: d.after)) =
      some (d.marker :: d.inside) := declaration?_eq_some.2 ⟨d.close, d.after, rfl, d.closes, hopen⟩
  have hcontent : content? (d.marker :: d.inside) = content? d.inside :=
    content?_insert d.opens.1 [] d.inside
  have hfragment : ∀ body, fragmentOf owner body (d.marker :: d.inside) =
      fragmentOf owner body d.inside := fragmentOf_insert d.opens.1 [] d.inside owner
  simp only [findingAt, hd, hcontent, hfragment, isEmpty_trim]
  cases htext : content? d.inside with
  | none =>
    refine .inr ⟨rfl, ?_⟩
    rintro ⟨lead, text, hlast, -⟩
    rw [content?_eq_some.2 ⟨lead, hlast⟩] at htext
    cases htext
  | some text =>
    obtain ⟨lead, hlast⟩ := content?_eq_some.1 htext
    dsimp only
    split_ifs with hblank
    · refine .inr ⟨rfl, ?_⟩
      rintro ⟨lead', text', hlast', hblank'⟩
      rw [(hlast.unique hlast').2, hblank'] at hblank
      cases hblank
    · refine .inl ⟨_, rfl, ⟨lead, text, hlast, Bool.eq_false_iff.2 hblank⟩, ?_⟩
      exact
        { ownerId := rfl
          body := ⟨lead, text, hlast, rfl⟩
          globalBundle := takesValue_parameter ..
          bundleName := takesValue_parameter ..
          scriptFile := takesValue_parameter ..
          asClass := takesValue_parameter ..
          className := takesValue_parameter ..
          addToGlobal := takesValue_parameter ..
          addAsInstance := takesValue_parameter .. }

end Declaration

/-! ## The declarations of a stream -/

/-- The fragments of a stream of instructions. -/
def streamFragments (names : List String) (owner : String) (stream : List Instruction) :
    List Fragment :=
  (findings names owner stream).filterMap Finding.fragment?

/-- Fragments are those of the declarations of a stream. -/
structure Extracts (names : List String) (owner : String) {stream : List Instruction}
    (ds : List (Declaration names stream)) (fs : List Fragment) : Prop where
  /-- The declarations come in the order of the stream, -/
  ordered : ds.Pairwise fun d e => d.place < e.place
  /-- they are all that have a script, -/
  mem_iff : ∀ d, d ∈ ds ↔ d.HasScript
  /-- and each stands for one fragment. -/
  fragments : List.Forall₂ (fun d f => StandFor d.inside owner f) ds fs

section Extraction

variable {names : List String} {owner : String} {stream : List Instruction} {i : Instruction}
  {ds : List (Declaration names stream)} {fs : List Fragment}

/-- The fragment that an instruction leads to, with what follows it. -/
def ownFragment? (names : List String) (owner : String) (i : Instruction)
    (after : List Instruction) : Option Fragment :=
  if i.opensScript names then (findingAt owner i (i :: after)).fragment? else none

theorem streamFragments_cons (names : List String) (owner : String) (i : Instruction)
    (stream : List Instruction) : streamFragments names owner (i :: stream) =
      (ownFragment? names owner i stream).toList ++ streamFragments names owner stream := by
  rw [streamFragments, findings, streamFragments, ownFragment?]
  split_ifs
  · cases h : (findingAt owner i (i :: stream)).fragment? with
    | none => rw [List.filterMap_cons_none h, Option.toList_none, List.nil_append]
    | some f => rw [List.filterMap_cons_some h, Option.toList_some, List.singleton_append]
  · rfl

/-- It is the fragment of the declaration at its place, if there is one with a script. -/
theorem ownFragment?_cases (names : List String) (owner : String) (before : List Instruction)
    (i : Instruction) (after : List Instruction) :
    (∃ (d : Declaration names (before ++ i :: after)) (f : Fragment), d.place = before.length ∧
      d.HasScript ∧ StandFor d.inside owner f ∧ ownFragment? names owner i after = some f) ∨
    (∀ d : Declaration names (before ++ i :: after), d.place = before.length → ¬ d.HasScript) ∧
      ownFragment? names owner i after = none := by
  rw [ownFragment?]
  by_cases hd : ∃ d : Declaration names (before ++ i :: after), d.place = before.length
  · obtain ⟨d, hplace⟩ := hd
    obtain ⟨-, hmarker, hafter⟩ := d.parts_of_place hplace
    have hopens : i.opensScript names = true := Instruction.opensScript_iff.2 (hmarker ▸ d.opens)
    have hfinding := d.fragment?_findingAt owner
    rw [hmarker, hafter] at hfinding
    rw [if_pos hopens]
    obtain ⟨f, hf, hscript, hstand⟩ | ⟨hnone, hscript⟩ := hfinding
    · exact .inl ⟨d, f, hplace, hscript, hstand, hf⟩
    · refine .inr ⟨fun e he => ?_, hnone⟩
      rwa [Declaration.eq_of_place (he.trans hplace.symm)]
  · refine .inr ⟨fun d hplace => absurd ⟨d, hplace⟩ hd, ?_⟩
    split_ifs with hopens
    · have hopens := Instruction.opensScript_iff.1 hopens
      have hopen : ∀ j ∈ i :: after, j.kind ≠ .closeComponent := by
        refine List.forall_mem_cons.2 ⟨by simp [hopens.1], fun j hj hclose => hd ?_⟩
        exact Declaration.exists_of_closed hopens before ⟨j, hj, hclose⟩
      rw [findingAt, declaration?_eq_none.2 hopen]
      rfl
    · rfl

namespace Extracts

theorem ordered_cons (h : Extracts names owner ds fs) :
    (ds.map (Declaration.cons i)).Pairwise fun d e => d.place < e.place := by
  rw [List.pairwise_map]
  exact h.ordered.imp fun hlt => Nat.succ_lt_succ hlt

theorem mem_cons_iff (h : Extracts names owner ds fs) (d : Declaration names (i :: stream)) :
    d ∈ ds.map (.cons i) ↔ d.place ≠ 0 ∧ d.HasScript := by
  constructor
  · intro hmem
    obtain ⟨e, he, rfl⟩ := List.mem_map.1 hmem
    exact ⟨Nat.succ_ne_zero _, (h.mem_iff e).1 he⟩
  · rintro ⟨hplace, hscript⟩
    obtain ⟨e, rfl⟩ := d.eq_cons_of_place hplace
    exact List.mem_map_of_mem ((h.mem_iff e).2 hscript)

/-- A stream has the fragments of what follows its first instruction, -/
theorem later (h : Extracts names owner ds fs)
    (hi : ∀ d : Declaration names (i :: stream), d.place = 0 → ¬ d.HasScript) :
    Extracts names owner (ds.map (.cons i)) fs := by
  refine ⟨h.ordered_cons, fun d => ?_, List.forall₂_map_left_iff.2 h.fragments⟩
  rw [h.mem_cons_iff]
  exact and_iff_right_of_imp fun hscript hplace => hi d hplace hscript

/-- and before them that of a declaration with a script at its start. -/
theorem first (h : Extracts names owner ds fs) {d : Declaration names (i :: stream)}
    (hplace : d.place = 0) (hscript : d.HasScript) {f : Fragment}
    (hf : StandFor d.inside owner f) : Extracts names owner (d :: ds.map (.cons i)) (f :: fs) := by
  refine ⟨.cons (fun e he => ?_) h.ordered_cons, fun e => ?_,
    .cons hf (List.forall₂_map_left_iff.2 h.fragments)⟩
  · rw [hplace]
    exact Nat.pos_of_ne_zero ((h.mem_cons_iff e).1 he).1
  · rw [List.mem_cons, h.mem_cons_iff]
    constructor
    · rintro (rfl | ⟨-, he⟩)
      · exact hscript
      · exact he
    · intro he
      by_cases heplace : e.place = 0
      · exact .inl (Declaration.eq_of_place (heplace.trans hplace.symm))
      · exact .inr ⟨heplace, he⟩

end Extracts

/-- The fragments of a stream are those of its declarations. -/
theorem exists_extracts (names : List String) (owner : String) (stream : List Instruction) :
    ∃ ds : List (Declaration names stream),
      Extracts names owner ds (streamFragments names owner stream) := by
  induction stream with
  | nil =>
    refine ⟨[], .nil, fun d => ?_, .nil⟩
    have hsplit := d.split
    simp at hsplit
  | cons i stream ih =>
    obtain ⟨ds, h⟩ := ih
    rw [streamFragments_cons]
    obtain ⟨d, f, hplace, hscript, hstand, hf⟩ | ⟨hnone, hf⟩ :=
      ownFragment?_cases names owner [] i stream
    · rw [hf]
      exact ⟨_, h.first hplace hscript hstand⟩
    · rw [hf]
      exact ⟨_, h.later hnone⟩

/-- Each of the fragments is that of a declaration with a script. -/
theorem Extracts.exists_of_mem (h : Extracts names owner ds fs) {f : Fragment} (hf : f ∈ fs) :
    ∃ d : Declaration names stream, d.HasScript ∧ StandFor d.inside owner f := by
  obtain ⟨d, hd, hstand⟩ := exists_of_mem_forall₂ h.fragments.flip hf
  exact ⟨d, (h.mem_iff d).1 hd, hstand⟩

/-- A script that is extracted from a component is that of one of its declarations. -/
theorem exists_declaration {c : Component} {f : Fragment} (hf : f ∈ c.fragments names) :
    ∃ d : Declaration names c.instructions, d.HasScript ∧ StandFor d.inside c.ownerId f := by
  obtain ⟨ds, hds⟩ := exists_extracts names c.ownerId c.instructions
  exact hds.exists_of_mem hf

/-- Its owner is the component, -/
theorem ownerId_of_mem_fragments {c : Component} {f : Fragment} (hf : f ∈ c.fragments names) :
    f.ownerId = c.ownerId := by
  obtain ⟨d, -, hstand⟩ := exists_declaration hf
  exact hstand.ownerId

/-- it is not blank, -/
theorem isBlank_of_mem_fragments {c : Component} {f : Fragment} (hf : f ∈ c.fragments names) :
    f.isBlank = false := by
  obtain ⟨d, ⟨lead, text, hlast, hblank⟩, hstand⟩ := exists_declaration hf
  obtain ⟨lead', text', hlast', hbody⟩ := hstand.body
  rw [Fragment.isBlank, hbody, isBlankText_trim, (hlast'.unique hlast).2, hblank]

/-- and it is trimmed. -/
theorem trim_body_of_mem_fragments {c : Component} {f : Fragment} (hf : f ∈ c.fragments names) :
    Text.trim f.body = f.body := by
  obtain ⟨d, -, hstand⟩ := exists_declaration hf
  obtain ⟨lead, text, -, hbody⟩ := hstand.body
  rw [hbody, trim_trim]

/-- An opened component adds a fragment to a stream exactly if there is a declaration with a script
at its place, and changes no other. -/
theorem streamFragments_insert_iff (names : List String) (owner : String)
    (hi : i.kind = .openComponent) (before after : List Instruction) :
    streamFragments names owner (before ++ i :: after) =
        streamFragments names owner (before ++ after) ↔
      ∀ d : Declaration names (before ++ i :: after), d.place = before.length → ¬ d.HasScript := by
  obtain ⟨earlier, hwithout, hwith⟩ := @exists_findings_insert names owner i hi before after
  have hfragments : streamFragments names owner (before ++ i :: after) =
      streamFragments names owner (before ++ after) ↔ ownFragment? names owner i after = none := by
    rw [streamFragments, streamFragments, hwith, hwithout, List.filterMap_append,
      List.filterMap_append, List.append_cancel_left_eq]
    have hcons := streamFragments_cons names owner i after
    rw [streamFragments, streamFragments] at hcons
    rw [hcons]
    cases ownFragment? names owner i after <;> simp
  rw [hfragments]
  obtain ⟨d, f, hplace, hscript, -, hf⟩ | ⟨hnone, hf⟩ :=
    ownFragment?_cases names owner before i after
  · exact iff_of_false (by simp [hf]) fun h => h d hplace hscript
  · exact iff_of_true hf hnone

/-- **Fragments are those of the declarations.** A component has one fragment for each of its
script declarations that has a script, in their order. A script component is declared if something
is closed after it, and one that has no script of its own may be left out without changing what is
extracted from the others. -/
theorem fragments_declared (names : List String) (c : Component) :
    ∃ ds : List (Declaration names c.instructions),
      Extracts names c.ownerId ds (c.fragments names) ∧
      (∀ before i after, c.instructions = before ++ i :: after → i.OpensScript names →
        ((∃ d : Declaration names c.instructions, d.place = before.length) ↔
          ∃ j ∈ after, j.kind = .closeComponent)) ∧
      ∀ before i after, c.instructions = before ++ i :: after → i.kind = .openComponent →
        (∀ d ∈ ds, d.place ≠ before.length) →
          Component.fragments names ⟨c.name, c.scope, before ++ after⟩ = c.fragments names := by
  obtain ⟨name, scope, instructions⟩ := c
  obtain ⟨ds, hds⟩ := exists_extracts names (Component.ownerId ⟨name, scope, instructions⟩)
    instructions
  refine ⟨ds, hds, ?_, ?_⟩
  · rintro before i after rfl hopens
    refine ⟨fun ⟨d, hplace⟩ => ?_, Declaration.exists_of_closed hopens before⟩
    obtain ⟨-, -, hafter⟩ := d.parts_of_place hplace
    have hclose : d.close ∈ d.inside ++ d.close :: d.after :=
      List.mem_append_right _ List.mem_cons_self
    exact ⟨d.close, (List.Perm.of_eq hafter).mem_iff.1 hclose, d.closes⟩
  · rintro before i after rfl hi hnone
    refine ((streamFragments_insert_iff names _ hi before after).2 fun d hplace hscript => ?_).symm
    exact hnone d ((hds.mem_iff d).2 hscript) hplace

end Extraction

end ScriptBundle
