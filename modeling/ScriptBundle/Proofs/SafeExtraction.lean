import ScriptBundle.Proofs.Bundles
import ScriptBundle.Proofs.Declarations
/-!
# Extraction does not fail

Extraction can be carried out in steps that may fail: a declaration is skipped, the value of a
parameter cannot be read, or a fragment is refused when it is put together from untyped members.
`extractAll` does this and catches only the first, and the second where a parameter has a default.
Nothing is left to escape from it: the values that are read have the types of the members
(`fragmentMembers_eq`), so the fragment is accepted as it is (`decodeFragment_members`). So
extraction in steps always succeeds, with valid scripts only: `extracted_valid`.
-/

namespace ScriptBundle

open Validation

/-! ## Extraction in steps -/

/-- A parameter of scripts that extraction reads. -/
structure BuildParameter where
  /-- Its name in declarations. -/
  name : String
  /-- The member of fragments that it sets. -/
  member : String
  /-- What its value is read as. -/
  type : ParameterType
  /-- Its value where none can be read. -/
  default : Value

/-- The parameters of scripts that extraction reads, in the order of the members. -/
def buildParameters : List BuildParameter :=
  [⟨"GlobalBundle", "global_bundle", .bool, .bool false⟩,
    ⟨"BundleName", "bundle_name", .text, .string defaultBundleName⟩,
    ⟨"ScriptFile", "script_file", .text, .null⟩,
    ⟨"AsClass", "as_class", .bool, .bool true⟩,
    ⟨"ClassName", "class_name", .text, .null⟩,
    ⟨"AddToGlobal", "add_to_global", .bool, .bool false⟩,
    ⟨"AddAsInstance", "add_as_instance", .bool, .bool false⟩]

/-- Why a step of extraction fails. -/
inductive ExtractionError where
  /-- The declaration has no script. -/
  | skip (reason : SkipReason)
  /-- The value of a parameter cannot be read. -/
  | unreadable (e : CoercionError)
  /-- The members of a fragment are refused. -/
  | refused (issues : List Issue)

/-- The value that a declaration gives a parameter, or the default if it is not literal or cannot be
read. -/
def BuildParameter.read (p : BuildParameter) (declaration : List Instruction) :
    Except ExtractionError Value :=
  match literalParameter? declaration p.name with
  | none => .ok p.default
  | some v =>
    tryCatch ((coerce p.type v).mapError .unreadable) fun
      | .unreadable _ => .ok p.default
      | e => .error e

/-- The members of the fragment of a declaration with a body. -/
def fragmentMembers (owner body : String) (declaration : List Instruction) :
    Except ExtractionError (List (String × Value)) := do
  let values ← buildParameters.mapM fun p => do return (p.member, ← p.read declaration)
  return ("owner_id", .string owner) :: ("body", .string body) :: values

/-- The fragment of the declaration at the start of a stream. -/
def extractAt (owner : String) (stream : List Instruction) : Except ExtractionError Fragment :=
  match declaration? stream with
  | none => .error (.skip .notClosed)
  | some declaration =>
    match content? declaration with
    | none => .error (.skip .noLiteralContent)
    | some text =>
      let body := Text.trim text
      if body.isEmpty then .error (.skip .emptyBody)
      else do
        let members ← fragmentMembers owner body declaration
        (decodeFragment members).mapError .refused

/-- The fragments of a stream. Declarations that are skipped are left out, and any other failure is
one of the whole. -/
def extractAll (names : List String) (owner : String) :
    List Instruction → Except ExtractionError (List Fragment)
  | [] => .ok []
  | i :: rest =>
    if i.opensScript names then
      match extractAt owner (i :: rest) with
      | .ok f => (extractAll names owner rest).map (f :: ·)
      | .error (.skip _) => extractAll names owner rest
      | .error e => .error e
    else extractAll names owner rest

/-! ## Values that are read -/

section Reading

variable {name member : String} {declaration : List Instruction}

theorem read_bool {default : Bool} :
    BuildParameter.read ⟨name, member, .bool, .bool default⟩ declaration =
      .ok (.bool (boolParameter declaration name default).1) := by
  simp only [BuildParameter.read, boolParameter, parameter, coerce]
  cases literalParameter? declaration name with
  | none => rfl
  | some v => cases hv : coerceBool v <;> simp [hv, Except.map, Except.mapError] <;> rfl

theorem read_text {default : Option String} :
    BuildParameter.read ⟨name, member, .text, .ofOptional default⟩ declaration =
      .ok (.ofOptional (textParameter declaration name default).1) := by
  simp only [BuildParameter.read, textParameter, parameter, coerce]
  cases literalParameter? declaration name with
  | none => rfl
  | some v => cases hv : coerceText v <;> simp [hv, Except.map, Except.mapError] <;> rfl

end Reading

/-- The members that describe a fragment. -/
def Fragment.members (f : Fragment) : List (String × Value) :=
  [("owner_id", .string f.ownerId), ("body", .string f.body),
    ("global_bundle", .bool f.globalBundle), ("bundle_name", .ofOptional f.bundleName),
    ("script_file", .ofOptional f.scriptFile), ("as_class", .bool f.asClass),
    ("class_name", .ofOptional f.className), ("add_to_global", .bool f.addToGlobal),
    ("add_as_instance", .bool f.addAsInstance)]

theorem fragmentMembers_eq {owner body : String} {declaration : List Instruction} {f : Fragment}
    {unread : List UnreadParameter} (h : fragmentOf owner body declaration = .script f unread) :
    fragmentMembers owner body declaration = .ok f.members := by
  cases h
  have text : ∀ name member, BuildParameter.read ⟨name, member, .text, .null⟩ declaration =
      .ok (.ofOptional (textParameter declaration name none).1) :=
    fun name member => @read_text name member declaration none
  have bundleName : ∀ name member,
      BuildParameter.read ⟨name, member, .text, .string defaultBundleName⟩ declaration =
      .ok (.ofOptional (textParameter declaration name (some defaultBundleName)).1) :=
    fun name member => @read_text name member declaration (some defaultBundleName)
  simp [fragmentMembers, buildParameters, read_bool, text, bundleName, Fragment.members, bind,
    Except.bind, pure, Except.pure]

theorem optionalString_ofOptional (o : Option String) : optionalString (.ofOptional o) = .ok o := by
  cases o <;> rfl

/-- A fragment with a body is what its members describe. -/
theorem decodeFragment_members {f : Fragment} (h : f.body.isEmpty = false) :
    decodeFragment f.members = .ok f := by
  simp [decodeFragment, Fragment.members, required, withDefault, List.lookup_cons, decodeBody, h,
    string, laxBool, optionalString_ofOptional, Checked.under, Checked.both]

/-! ## Extraction in steps finds the same -/

/-- What a finding comes to in steps. -/
def Finding.outcome : Finding → Except ExtractionError Fragment
  | .script f _ => .ok f
  | .skipped _ reason => .error (.skip reason)

theorem fragmentOf_outcome {owner body : String} (declaration : List Instruction)
    (h : body.isEmpty = false) :
    (fragmentMembers owner body declaration >>= fun ms =>
      (decodeFragment ms).mapError ExtractionError.refused) =
      (fragmentOf owner body declaration).outcome := by
  obtain ⟨f, unread, hf, hbody⟩ : ∃ f unread,
      fragmentOf owner body declaration = .script f unread ∧ f.body = body := ⟨_, _, rfl, rfl⟩
  rw [fragmentMembers_eq hf, hf]
  show (decodeFragment f.members).mapError ExtractionError.refused = .ok f
  rw [decodeFragment_members (hbody ▸ h)]
  rfl

/-- A declaration is skipped or gives a valid fragment. -/
theorem extractAt_eq (owner : String) (marker : Instruction) (stream : List Instruction) :
    extractAt owner stream = (findingAt owner marker stream).outcome := by
  rw [extractAt, findingAt]
  cases declaration? stream with
  | none => rfl
  | some declaration =>
    dsimp only
    cases content? declaration with
    | none => rfl
    | some text =>
      dsimp only
      split_ifs with hbody
      · rfl
      · exact fragmentOf_outcome declaration (by simpa using hbody)

/-- No failure is left after the skipped declarations. -/
theorem extractAll_eq (names : List String) (owner : String) (stream : List Instruction) :
    extractAll names owner stream = .ok (streamFragments names owner stream) := by
  induction stream with
  | nil => rfl
  | cons i rest ih =>
    rw [extractAll, streamFragments_cons, ownFragment?]
    split_ifs
    · rw [extractAt_eq owner i, ih]
      cases findingAt owner i (i :: rest) <;> rfl
    · exact ih

/-! ## Valid scripts -/

/-- A script that may be put into a bundle. -/
structure ValidScript (c : Component) (f : Fragment) : Prop where
  /-- It is one of the component, -/
  owner : f.ownerId = c.ownerId
  /-- it is trimmed, -/
  trimmed : Text.trim f.body = f.body
  /-- it is not blank, -/
  filled : f.isBlank = false
  /-- and its members are accepted as they are: truth values, and texts or null. -/
  accepted : decodeFragment f.members = .ok f
  /-- It is in a group of its key, -/
  grouped : ∀ fs, f ∈ fs → ∃ g ∈ groupFragments fs, g.key = f.bundleKey ∧ f ∈ g.fragments
  /-- and a group that it is in is not empty and has a text, with classes and without. -/
  rendered : ∀ g : BundleGroup, f ∈ g.fragments →
    g.isEmpty = false ∧ ∀ classWrapping, ∃ text, g.render classWrapping = some text

theorem isEmpty_of_mem {g : BundleGroup} {f : Fragment} (hf : f ∈ g.fragments)
    (h : f.isBlank = false) : g.isEmpty = false := by
  rw [BundleGroup.isEmpty, List.all_eq_false]
  exact ⟨f, hf, by simp [h]⟩

theorem validScript_of_mem {names : List String} {c : Component} {f : Fragment}
    (hf : f ∈ c.fragments names) : ValidScript c f where
  owner := ownerId_of_mem_fragments hf
  trimmed := trim_body_of_mem_fragments hf
  filled := isBlank_of_mem_fragments hf
  accepted := by
    refine decodeFragment_members ?_
    rw [← trim_body_of_mem_fragments hf, isEmpty_trim]
    exact isBlank_of_mem_fragments hf
  grouped fs hfs := by
    obtain ⟨g, hg, hfg⟩ := exists_group_of_mem hfs
    exact ⟨g, hg, (key_of_mem_groupFragments hg f hfg).symm, hfg⟩
  rendered g hfg :=
    ⟨isEmpty_of_mem hfg (isBlank_of_mem_fragments hf),
      BundleGroup.render_ne_none hfg (isBlank_of_mem_fragments hf)⟩

/-- **Extraction does not fail.** Whatever the instructions of a component are, extraction in steps
comes to its fragments, and these are valid scripts. -/
theorem extracted_valid (names : List String) (c : Component) :
    extractAll names c.ownerId c.instructions = .ok (c.fragments names) ∧
      ∀ f ∈ c.fragments names, ValidScript c f :=
  ⟨extractAll_eq names c.ownerId c.instructions, fun _ hf => validScript_of_mem hf⟩

/-- A flag that is no truth value and a name that is a number: the one has its default, the other is
written out. -/
theorem extracted_valid_number :
    let c : Component := ⟨"Widget", some "App", [⟨.openComponent, 0, some "Script", .null, true⟩,
      ⟨.addComponentParameter, 1, some "AsClass", .double .nan, true⟩,
      ⟨.addComponentParameter, 2, some "BundleName", .int 12, true⟩,
      ⟨.addContent, 3, none, .string " run() ", true⟩, ⟨.closeComponent, 4, none, .null, true⟩]⟩
    let f : Fragment := ⟨"App.Widget", "run()", false, some "12", none, true, none, false, false⟩
    f ∈ c.fragments ["Script"] ∧
      extractAll ["Script"] c.ownerId c.instructions = .ok (c.fragments ["Script"]) ∧
      ValidScript c f := by
  intro c f
  have hf : f ∈ c.fragments ["Script"] := by decide +kernel
  have h := extracted_valid ["Script"] c
  exact ⟨hf, h.1, h.2 f hf⟩

end ScriptBundle
