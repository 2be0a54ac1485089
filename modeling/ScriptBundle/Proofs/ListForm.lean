import ScriptBundle.Proofs.Checked
import ScriptBundle.Proofs.Collecting
import ScriptBundle.Proofs.Json.ObjectTexts
/-!
# Files that hold a list

A render file that holds an array of objects is loaded exactly if files that hold one of the
objects each are, and then it holds their components, one after the other. Otherwise it holds none
of them, and among its issues are those of each object, under the object's place in the array
(`loadsAsList_of_arrayText`).
-/

namespace ScriptBundle

open Validation Json

/-- A file that holds a text. -/
structure TextFile where
  /-- The tree that the file is in. -/
  tree : Tree
  /-- Where the file is. -/
  path : Path
  /-- What it holds. -/
  text : String
  /-- The file can be read. -/
  reads : tree.readFile path = .ok text.toUTF8

namespace TextFile

/-- The components in the file. -/
def load (f : TextFile) : Except RenderFileProblem (List Component) := f.tree.loadRenderFile f.path

/-- The issues with what the file holds. -/
def issues (f : TextFile) : List Issue :=
  match f.load with
  | .error (.invalid is) => is
  | _ => []

/-- The characters of the file. -/
def chars (f : TextFile) : List Char := f.text.toList

end TextFile

/-- The issue with a text that is no JSON. -/
def noJson : Issue := .here .invalidJson

/-- The issues under one branch of a choice, seen from there. -/
def branchIssues (branch : String) (is : List Issue) : List Issue :=
  is.filterMap fun i =>
    match i.location with
    | .field name :: rest => if name = branch then some ⟨i.kind, rest⟩ else none
    | _ => none

/-- How a file that holds an array is loaded, given files that hold one of its items each. -/
structure LoadsAsList (whole : TextFile) (parts : List TextFile) : Prop where
  /-- The file holds the components of all items, if all of them can be loaded. -/
  succeeds : ∀ cs, whole.load = .ok cs ↔
    ∃ css, List.Forall₂ (fun part cs => part.load = .ok cs) parts css ∧ cs = css.flatten
  /-- Otherwise an item is no JSON, and neither is the array, or the issues of the items are those
  of the array as a list, and as a single component it has no issue but that it is none. -/
  fails : ∀ problem, whole.load = .error problem → ∃ is, problem = .invalid is ∧
    if ∃ part ∈ parts, part.issues = [noJson] then is = [noJson]
    else branchIssues "ComponentDefinition" is = [.here .modelType] ∧
      branchIssues "list[ComponentDefinition]" is = parts.zipIdx.flatMap fun p =>
        (branchIssues "ComponentDefinition" p.1.issues).map (Issue.under (.index p.2))

/-! ## Issues of a choice -/

theorem branchIssues_append (branch : String) (is js : List Issue) :
    branchIssues branch (is ++ js) = branchIssues branch is ++ branchIssues branch js :=
  List.filterMap_append

theorem branchIssues_under (branch : String) (is : List Issue) :
    branchIssues branch (is.map (Issue.under (.field branch))) = is := by
  rw [branchIssues, List.filterMap_map]
  simp [Function.comp_def, Issue.under]

theorem branchIssues_under_of_ne {branch other : String} (h : other ≠ branch) (is : List Issue) :
    branchIssues branch (is.map (Issue.under (.field other))) = [] := by
  rw [branchIssues, List.filterMap_map]
  simp [Function.comp_def, Issue.under, h]

/-! ## One file -/

variable {f : TextFile} {v : Value} {ms : List (String × Value)}

theorem TextFile.load_eq (f : TextFile) : f.load =
    match readText? f.chars with
    | none => .error (.invalid [noJson])
    | some v =>
      match decodeComponents v with
      | .ok cs => .ok cs
      | .error is => .error (.invalid is) := by
  rw [load, Tree.loadRenderFile, f.reads]
  dsimp only
  rw [componentsOfBytes, readBytes?_toUTF8, chars]
  cases readText? f.text.toList <;> rfl

theorem TextFile.load_of_not_readable (h : readText? f.chars = none) :
    f.load = .error (.invalid [noJson]) := by
  rw [f.load_eq, h]

theorem decodeComponents_object (ms : List (String × Value)) : decodeComponents (.object ms) =
    match decodeComponent (.object ms) with
    | .ok c => .ok [c]
    | .error is => .error (is.map (Issue.under (.field "ComponentDefinition")) ++
        [⟨.listType, [.field "list[ComponentDefinition]"]⟩]) := by
  rw [decodeComponents]
  cases decodeComponent (.object ms) <;> rfl

theorem decodeComponents_array (vs : List Value) : decodeComponents (.array vs) =
    match Checked.allFrom 0 (vs.map decodeComponent) with
    | .ok cs => .ok cs
    | .error is => .error (⟨.modelType, [.field "ComponentDefinition"]⟩ ::
        is.map (Issue.under (.field "list[ComponentDefinition]"))) := by
  rw [decodeComponents, decodeList]
  have hsingle : decodeComponent (.array vs) = .error [.here .modelType] := rfl
  rw [hsingle]
  cases Checked.allFrom 0 (vs.map decodeComponent) <;> rfl

/-- A file with an object holds its component, or none. -/
theorem TextFile.load_object_iff (h : readText? f.chars = some (.object ms)) {cs : List Component} :
    f.load = .ok cs ↔ ∃ c, decodeComponent (.object ms) = .ok c ∧ cs = [c] := by
  rw [f.load_eq, h]
  dsimp only
  rw [decodeComponents_object]
  cases decodeComponent (.object ms) with
  | ok c => simp [eq_comm]
  | error is => simp

theorem TextFile.branchIssues_object (h : readText? f.chars = some (.object ms)) :
    branchIssues "ComponentDefinition" f.issues = (decodeComponent (.object ms)).issues := by
  rw [issues, f.load_eq, h]
  dsimp only
  rw [decodeComponents_object]
  cases decodeComponent (.object ms) with
  | ok c => rfl
  | error is =>
    dsimp only
    rw [branchIssues_append, branchIssues_under]
    exact List.append_nil is

theorem TextFile.issues_object_ne (h : readText? f.chars = some (.object ms)) :
    f.issues ≠ [noJson] := by
  rw [issues, f.load_eq, h]
  dsimp only
  rw [decodeComponents_object]
  cases decodeComponent (.object ms) with
  | ok c => nofun
  | error is =>
    intro heq
    have hmem : (⟨.listType, [.field "list[ComponentDefinition]"]⟩ : Issue) ∈ [noJson] := by
      rw [← heq]
      exact List.mem_append_right _ List.mem_cons_self
    cases List.mem_singleton.1 hmem

/-! ## All files -/

/-- The files hold these values. -/
abbrev Hold (files : List TextFile) (vs : List Value) : Prop :=
  List.Forall₂ (fun f v => readText? f.chars = some v) files vs

variable {parts : List TextFile} {vs : List Value} {whole : TextFile}

/-- The components of a list of objects are those of the files that hold one of them each. -/
theorem Hold.decode_iff (h : Hold parts vs) (hparts : ∀ part ∈ parts, IsObjectText part.chars)
    {cs : List Component} : vs.map decodeComponent = cs.map .ok ↔
      ∃ css, List.Forall₂ (fun part cs => part.load = .ok cs) parts css ∧ cs = css.flatten := by
  induction h generalizing cs with
  | nil => simp [eq_comm]
  | @cons part v parts vs hv _ ih =>
    obtain ⟨hpart, hrest⟩ := List.forall_mem_cons.1 hparts
    obtain ⟨ms, rfl⟩ := exists_object_of_readWithin hpart ((readText?_eq _).symm.trans hv)
    constructor
    · intro heq
      cases cs with
      | nil => cases heq
      | cons c cs =>
        obtain ⟨hc, hcs⟩ := List.cons.inj heq
        obtain ⟨css, hcss, rfl⟩ := (ih hrest).1 hcs
        exact ⟨[c] :: css, .cons ((TextFile.load_object_iff hv).2 ⟨c, hc, rfl⟩) hcss, rfl⟩
    · rintro ⟨css, hcss, rfl⟩
      obtain ⟨cs, css, hload, hloads, rfl⟩ := List.forall₂_cons_left_iff.1 hcss
      obtain ⟨c, hc, rfl⟩ := (TextFile.load_object_iff hv).1 hload
      rw [List.map_cons, hc, (ih hrest).2 ⟨css, hloads, rfl⟩]
      rfl

/-- The issues of a list of objects are those of the files that hold one of them each. -/
theorem Hold.issues_eq (h : Hold parts vs) (hparts : ∀ part ∈ parts, IsObjectText part.chars) :
    (Checked.allFrom 0 (vs.map decodeComponent)).issues = parts.zipIdx.flatMap fun p =>
      (branchIssues "ComponentDefinition" p.1.issues).map (Issue.under (.index p.2)) := by
  rw [Checked.issues_allFrom]
  generalize 0 = n
  induction h generalizing n with
  | nil => rfl
  | @cons part v parts vs hv _ ih =>
    obtain ⟨hpart, hrest⟩ := List.forall_mem_cons.1 hparts
    obtain ⟨ms, rfl⟩ := exists_object_of_readWithin hpart ((readText?_eq _).symm.trans hv)
    simp only [List.map_cons, List.zipIdx_cons, List.flatMap_cons, ih hrest,
      TextFile.branchIssues_object hv]

theorem Hold.issues_ne (h : Hold parts vs) (hparts : ∀ part ∈ parts, IsObjectText part.chars) :
    ¬∃ part ∈ parts, part.issues = [noJson] := by
  rintro ⟨part, hpart, hissues⟩
  obtain ⟨v, -, hv⟩ := exists_of_mem_forall₂ h hpart
  obtain ⟨ms, rfl⟩ := exists_object_of_readWithin (hparts part hpart)
    ((readText?_eq _).symm.trans hv)
  exact TextFile.issues_object_ne hv hissues

theorem Hold.loadsAsList (h : Hold parts vs) (hparts : ∀ part ∈ parts, IsObjectText part.chars)
    (hwhole : readText? whole.chars = some (.array vs)) : LoadsAsList whole parts where
  succeeds cs := by
    rw [← h.decode_iff hparts, ← Checked.allFrom_eq_ok_iff (n := 0), whole.load_eq, hwhole]
    dsimp only
    rw [decodeComponents_array]
    cases Checked.allFrom 0 (vs.map decodeComponent) <;> simp
  fails problem hproblem := by
    rw [whole.load_eq, hwhole] at hproblem
    dsimp only at hproblem
    rw [decodeComponents_array] at hproblem
    have hissues := h.issues_eq hparts
    cases hall : Checked.allFrom 0 (vs.map decodeComponent) with
    | ok cs =>
      rw [hall] at hproblem
      cases hproblem
    | error is =>
      rw [hall] at hproblem hissues
      cases hproblem
      refine ⟨_, rfl, ?_⟩
      have hsplit : (⟨.modelType, [.field "ComponentDefinition"]⟩ : Issue) ::
          is.map (Issue.under (.field "list[ComponentDefinition]")) =
          [Issue.here .modelType].map (Issue.under (.field "ComponentDefinition")) ++
            is.map (Issue.under (.field "list[ComponentDefinition]")) := rfl
      rw [if_neg (h.issues_ne hparts), ← hissues, hsplit, branchIssues_append, branchIssues_append,
        branchIssues_under, branchIssues_under, branchIssues_under_of_ne (by decide),
        branchIssues_under_of_ne (by decide)]
      exact ⟨rfl, rfl⟩

/-- If one of the files is no JSON, the array is none. -/
theorem loadsAsList_of_not_readable (hwhole : readText? whole.chars = none)
    (hnone : ∃ part ∈ parts, readText? part.chars = none) : LoadsAsList whole parts := by
  obtain ⟨part, hmem, hpart⟩ := hnone
  have hpart := part.load_of_not_readable hpart
  have hwhole := whole.load_of_not_readable hwhole
  refine ⟨fun cs => ?_, fun problem hproblem => ⟨[noJson], ?_, ?_⟩⟩
  · rw [hwhole]
    refine iff_of_false nofun ?_
    rintro ⟨css, hcss, -⟩
    obtain ⟨cs, -, hcs⟩ := exists_of_mem_forall₂ hcss hmem
    rw [hpart] at hcs
    cases hcs
  · rw [hwhole] at hproblem
    exact (Except.error.inj hproblem).symm
  · have hissues : part.issues = [noJson] := by rw [TextFile.issues, hpart]
    rw [if_pos ⟨part, hmem, hissues⟩]

/-- **A file with the array of some object texts is loaded as files with one of them each are.** -/
theorem loadsAsList_of_arrayText (whole : TextFile) (parts : List TextFile)
    (hparts : ∀ part ∈ parts, IsObjectText part.chars)
    (hwhole : whole.chars = arrayText (parts.map TextFile.chars))
    (hnesting : WithinNesting whole.chars) : LoadsAsList whole parts := by
  have hobjects : ∀ cs ∈ parts.map TextFile.chars, IsObjectText cs := by
    rintro _ hcs
    obtain ⟨part, hpart, rfl⟩ := List.mem_map.1 hcs
    exact hparts part hpart
  have hread : ∀ v, readText? whole.chars = some v ↔ ∃ vs, v = .array vs ∧ Hold parts vs := by
    intro v
    rw [hwhole] at hnesting ⊢
    rw [readText?_arrayText hobjects hnesting]
    simp only [ReadAs, List.forall₂_map_left_iff]
  by_cases hhold : ∃ vs, Hold parts vs
  · obtain ⟨vs, hvs⟩ := hhold
    exact hvs.loadsAsList hparts ((hread _).2 ⟨vs, rfl, hvs⟩)
  · refine loadsAsList_of_not_readable ?_ ?_
    · rw [Option.eq_none_iff_forall_ne_some]
      intro v hv
      obtain ⟨vs, -, hvs⟩ := (hread v).1 hv
      exact hhold ⟨vs, hvs⟩
    · by_contra hnone
      have hall : ∀ part ∈ parts, readText? part.chars ≠ none := fun part hpart heq =>
        hnone ⟨part, hpart, heq⟩
      refine hhold ⟨parts.map fun part => (readText? part.chars).getD .null, ?_⟩
      rw [Hold, List.forall₂_map_right_iff, List.forall₂_same]
      intro part hpart
      obtain ⟨v, hv⟩ := Option.ne_none_iff_exists'.1 (hall part hpart)
      rw [hv]
      rfl

/-- A file in a tree of its own. -/
def TextFile.alone (text : String) : TextFile where
  tree := ⟨[(["C.render.json"], .file text.toUTF8)], []⟩
  path := ⟨1, ["C.render.json"]⟩
  text := text
  reads := rfl

/-- A component and one whose name is no text, alone and together. -/
theorem loadsAsList_mistyped :
    let parts := [TextFile.alone "\x7b\"name\": \"A\"\x7d", TextFile.alone "\x7b\"name\": 1\x7d"]
    let whole := TextFile.alone "[\x7b\"name\": \"A\"\x7d,\x7b\"name\": 1\x7d]"
    (∀ part ∈ parts, IsObjectText part.chars) ∧
      whole.chars = arrayText (parts.map TextFile.chars) ∧ WithinNesting whole.chars ∧
      LoadsAsList whole parts ∧ whole.load.isOk = false := by
  intro parts whole
  have hparts : ∀ part ∈ parts, IsObjectText part.chars :=
    List.forall_mem_cons.2 ⟨⟨_, [], rfl, rfl, nofun⟩,
      List.forall_mem_cons.2 ⟨⟨_, [], rfl, rfl, nofun⟩, nofun⟩⟩
  have hwhole : whole.chars = arrayText (parts.map TextFile.chars) := by decide +kernel
  have hnesting : WithinNesting whole.chars := withinNesting_of_readText? (by decide +kernel)
  exact ⟨hparts, hwhole, hnesting, loadsAsList_of_arrayText whole parts hparts hwhole hnesting,
    by decide +kernel⟩

end ScriptBundle
