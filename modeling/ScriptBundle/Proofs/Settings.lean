import ScriptBundle.CommandLine.Run
import ScriptBundle.Proofs.Collecting
import ScriptBundle.Proofs.Tree.Selection
/-!
# How settings are checked

The settings of a project are checked one after the other, in the order of `settingPlaces`, and the
first problem is the one that is reported: `Manifest.ofMembers_checks` says so, and that a manifest
without a problem has for each setting what the document says, or the default. Each lemma of
`Checks` follows one step of the reading.

Not all that is wrong with a document is reported as a problem of the manifest. A section that is no
table, and an integer with too many digits, stop the reading with other errors; and the items of
lists are not looked at before they are used (`Manifest.Typed`). `reportsManifest` says for any
project what its document leads to, and what escapes from commands.
-/

namespace ScriptBundle

/-! ## Settings -/

/-- The type that a setting must have. -/
inductive SettingType where
  | text
  | truth
  | list
  deriving DecidableEq

/-- The name of a type in messages. -/
def SettingType.name : SettingType → String
  | .text => "str"
  | .truth => "bool"
  | .list => "list"

/-- Whether a value has a type. -/
def SettingType.admits : SettingType → Value → Bool
  | .text, .string _ => true
  | .truth, .bool _ => true
  | .list, .array _ => true
  | _, _ => false

/-- Where a setting stands in a document, and what it must be. -/
structure SettingPlace where
  /-- The section. -/
  table : String
  /-- The key in the section. -/
  key : String
  /-- The type of the value. -/
  type : SettingType

/-- The settings, in the order in which they are checked. -/
def settingPlaces : List SettingPlace :=
  [⟨"build", "sources", .list⟩, ⟨"build", "script_components", .list⟩,
    ⟨"build", "class_wrapping", .truth⟩, ⟨"build", "prune", .truth⟩,
    ⟨"build", "static_root", .text⟩, ⟨"build", "output_dir", .text⟩,
    ⟨"build", "script_ext", .text⟩, ⟨"runtime", "content_root", .text⟩, ⟨"project", "name", .text⟩]

/-- What a document says at a place. -/
def Toml.valueAt? (ms : Toml.Members) (table key : String) : Option Value :=
  (ms.lookup table).bind (Value.member? key)

/-- What is wrong with a setting in a document: its section is no table, or its value has the wrong
type. -/
def SettingPlace.problem? (p : SettingPlace) (ms : Toml.Members) : Option ManifestError :=
  match ms.lookup p.table with
  | none => none
  | some (.object sub) =>
    match sub.lookup p.key with
    | none => none
    | some v =>
      if p.type.admits v then none else some (.wrongType (p.table ++ "." ++ p.key) p.type.name)
  | some _ => some .notTable

/-- The first of the given settings that is wrong. -/
def firstProblem? (ps : List SettingPlace) (ms : Toml.Members) : Option ManifestError :=
  ps.findSome? (·.problem? ms)

/-- A manifest has for each setting what a document says, or else the default. -/
structure Manifest.Follows (m : Manifest) (ms : Toml.Members) : Prop where
  sources : m.sources =
    ((Toml.valueAt? ms "build" "sources").bind Value.asArray?).getD Manifest.defaults.sources
  scriptComponents : m.scriptComponents =
    ((Toml.valueAt? ms "build" "script_components").bind Value.asArray?).getD
      Manifest.defaults.scriptComponents
  classWrapping : m.classWrapping =
    ((Toml.valueAt? ms "build" "class_wrapping").bind Value.asBool?).getD
      Manifest.defaults.classWrapping
  prune : m.prune =
    ((Toml.valueAt? ms "build" "prune").bind Value.asBool?).getD Manifest.defaults.prune
  staticRoot : m.staticRoot =
    ((Toml.valueAt? ms "build" "static_root").bind Value.asString?).getD
      Manifest.defaults.staticRoot
  outputDir : m.outputDir =
    ((Toml.valueAt? ms "build" "output_dir").bind Value.asString?).getD Manifest.defaults.outputDir
  scriptExt : m.scriptExt =
    ((Toml.valueAt? ms "build" "script_ext").bind Value.asString?).getD Manifest.defaults.scriptExt
  contentRoot : m.contentRoot =
    ((Toml.valueAt? ms "runtime" "content_root").bind Value.asString?).getD
      Manifest.defaults.contentRoot
  name : m.name =
    ((Toml.valueAt? ms "project" "name").bind Value.asString?).getD Manifest.defaults.name

/-! ## The reading, step by step -/

/-- A reading of a document fails with the first problem of the given settings, and if there is none
then it gives what `good` holds of. -/
def Checks {α : Type} (ms : Toml.Members) (ps : List SettingPlace) (good : α → Prop)
    (r : Except ManifestError α) : Prop :=
  match firstProblem? ps ms with
  | some e => r = .error e
  | none => ∃ a, r = .ok a ∧ good a

section Reading

variable {α β : Type} {ms sub : Toml.Members} {p : SettingPlace} {ps : List SettingPlace}
  {good : α → Prop} {good' : β → Prop}

theorem Checks.done {a : α} (h : good a) : Checks ms [] good (.ok a) := ⟨a, rfl, h⟩

/-- One setting is checked before others. -/
theorem Checks.next {r : Except ManifestError α} {f : α → Except ManifestError β}
    (h : Checks ms [p] good r) (hf : ∀ a, good a → Checks ms ps good' (f a)) :
    Checks ms (p :: ps) good' (r >>= f) := by
  unfold Checks firstProblem? at *
  rw [List.findSome?_cons]
  rw [List.findSome?_cons, List.findSome?_nil] at h
  cases hp : p.problem? ms with
  | some e =>
    rw [hp] at h
    dsimp only at h ⊢
    rw [h]
    rfl
  | none =>
    rw [hp] at h
    obtain ⟨a, rfl, ha⟩ := h
    exact hf a ha

/-- A section is read, with what the document says there, or it is no table. -/
theorem tableMember_cases (ms : Toml.Members) (table : String) :
    (∃ sub, tableMember table ms = .ok sub ∧
      ∀ key, sub.lookup key = Toml.valueAt? ms table key) ∨
    tableMember table ms = .error .notTable ∧ ∃ v, ms.lookup table = some v ∧
      ∀ sub, v ≠ .object sub := by
  unfold tableMember Toml.valueAt?
  cases h : ms.lookup table with
  | none => exact .inl ⟨[], rfl, fun _ => rfl⟩
  | some v =>
    cases v with
    | object sub => exact .inl ⟨sub, rfl, fun _ => rfl⟩
    | _ => exact .inr ⟨rfl, _, rfl, nofun⟩

theorem SettingPlace.problem?_of_notTable {v : Value} (hv : ms.lookup p.table = some v)
    (hn : ∀ sub, v ≠ .object sub) : p.problem? ms = some .notTable := by
  unfold problem?
  rw [hv]
  cases v with
  | object sub => exact absurd rfl (hn sub)
  | _ => rfl

theorem SettingPlace.problem?_of_tableMember (h : tableMember p.table ms = .ok sub) :
    p.problem? ms = (sub.lookup p.key).bind fun v =>
      if p.type.admits v then none
      else some (.wrongType (p.table ++ "." ++ p.key) p.type.name) := by
  unfold tableMember at h
  unfold problem?
  cases hl : ms.lookup p.table with
  | none =>
    rw [hl] at h
    cases h
    rfl
  | some v =>
    rw [hl] at h
    cases v with
    | object sub' =>
      cases h
      dsimp only
      cases sub.lookup p.key <;> rfl
    | _ => cases h

/-- A section is read before the settings in it. -/
theorem Checks.section {table : String} {f : Toml.Members → Except ManifestError β}
    (hp : p.table = table)
    (hf : ∀ sub, tableMember table ms = .ok sub → Checks ms (p :: ps) good' (f sub)) :
    Checks ms (p :: ps) good' (tableMember table ms >>= f) := by
  obtain ⟨sub, hsub, -⟩ | ⟨hsub, v, hv, hn⟩ := tableMember_cases ms table
  · rw [hsub]
    exact hf sub hsub
  · unfold Checks firstProblem?
    rw [hsub, List.findSome?_cons, SettingPlace.problem?_of_notTable (hp ▸ hv) hn]
    rfl

/-- A setting is checked and read in its section. -/
theorem Checks.setting {read? : Value → Option α} {d : α}
    (hread : ∀ v, (read? v).isSome = p.type.admits v) (h : tableMember p.table ms = .ok sub) :
    Checks ms [p] (fun a => a = ((Toml.valueAt? ms p.table p.key).bind read?).getD d)
      (setting p.table p.key p.type.name read? d sub) := by
  have hvalue : sub.lookup p.key = Toml.valueAt? ms p.table p.key := by
    obtain ⟨sub', hsub, hvalue⟩ | ⟨hsub, -⟩ := tableMember_cases ms p.table
    · cases h.symm.trans hsub
      exact hvalue p.key
    · cases h.symm.trans hsub
  unfold Checks firstProblem? ScriptBundle.setting
  rw [List.findSome?_cons, List.findSome?_nil, SettingPlace.problem?_of_tableMember h, ← hvalue]
  cases hl : sub.lookup p.key with
  | none => exact ⟨d, rfl, rfl⟩
  | some v =>
    have hv := hread v
    cases hr : read? v with
    | none =>
      rw [hr] at hv
      simp [← hv, hr]
    | some a =>
      rw [hr] at hv
      simp [← hv, hr]

end Reading

@[simp] theorem isSome_asArray? (v : Value) :
    v.asArray?.isSome = SettingType.list.admits v := by cases v <;> rfl

@[simp] theorem isSome_asBool? (v : Value) :
    v.asBool?.isSome = SettingType.truth.admits v := by cases v <;> rfl

@[simp] theorem isSome_asString? (v : Value) :
    v.asString?.isSome = SettingType.text.admits v := by cases v <;> rfl

/-- **The check of a document.** The first problem is the error, and without a problem the manifest
follows the document. -/
theorem Manifest.ofMembers_checks (ms : Toml.Members) :
    Checks ms settingPlaces (·.Follows ms) (Manifest.ofMembers ms) := by
  refine Checks.section rfl fun build hbuild => ?_
  refine Checks.next (Checks.setting isSome_asArray? hbuild) fun sources hsources => ?_
  refine Checks.next (Checks.setting isSome_asArray? hbuild) fun components hcomponents => ?_
  refine Checks.next (Checks.setting isSome_asBool? hbuild) fun wrapping hwrapping => ?_
  refine Checks.next (Checks.setting isSome_asBool? hbuild) fun prune hprune => ?_
  refine Checks.next (Checks.setting isSome_asString? hbuild) fun static hstatic => ?_
  refine Checks.next (Checks.setting isSome_asString? hbuild) fun output houtput => ?_
  refine Checks.next (Checks.setting isSome_asString? hbuild) fun ext hext => ?_
  refine Checks.section rfl fun site hsite => ?_
  refine Checks.next (Checks.setting isSome_asString? hsite) fun content hcontent => ?_
  refine Checks.section rfl fun project hproject => ?_
  refine Checks.next (Checks.setting isSome_asString? hproject) fun name hname => ?_
  exact Checks.done ⟨hsources, hcomponents, hwrapping, hprune, hstatic, houtput, hext, hcontent,
    hname⟩

/-! ## What the bytes of a manifest lead to -/

/-- The document that the bytes of a file hold, if they are text. -/
def document? (bytes : ByteArray) : Option (Except Toml.ReadError Toml.Members) :=
  (String.fromUTF8? bytes).map fun s => Toml.read (Text.universalNewlines s.toList)

/-- What the bytes of the file at a path lead to. -/
inductive Verdict (path : Path) (override : Option String) (bytes : ByteArray) :
    Except ManifestError Manifest → Prop
  | noText (h : document? bytes = none) : Verdict path override bytes (.error (.unreadable path))
  | noDocument (h : document? bytes = some (.error .invalid)) :
      Verdict path override bytes (.error (.invalid path))
  | tooManyDigits {n : Nat} (h : document? bytes = some (.error (.tooManyDigits n))) :
      Verdict path override bytes (.error (.tooManyDigits n))
  | problem {ms : Toml.Members} {e : ManifestError} (h : document? bytes = some (.ok ms))
      (he : firstProblem? settingPlaces ms = some e) : Verdict path override bytes (.error e)
  | follows {ms : Toml.Members} {m : Manifest} (h : document? bytes = some (.ok ms))
      (hnone : firstProblem? settingPlaces ms = none) (hm : m.Follows ms) :
      Verdict path override bytes (.ok (m.override override))

theorem Manifest.verdict_ofBytes (path : Path) (override : Option String) (bytes : ByteArray) :
    Verdict path override bytes
      ((Manifest.ofBytes path bytes).map fun m => m.override override) := by
  have hdocument : document? bytes =
      (String.fromUTF8? bytes).map fun s => Toml.read (Text.universalNewlines s.toList) := rfl
  unfold ofBytes
  cases hs : String.fromUTF8? bytes with
  | none =>
    rw [hs] at hdocument
    exact .noText hdocument
  | some s =>
    rw [hs, Option.map_some] at hdocument
    dsimp only
    cases hread : Toml.read (Text.universalNewlines s.toList) with
    | error e =>
      rw [hread] at hdocument
      cases e with
      | invalid => exact .noDocument hdocument
      | tooManyDigits n => exact .tooManyDigits hdocument
    | ok ms =>
      rw [hread] at hdocument
      have hchecks := ofMembers_checks ms
      unfold Checks at hchecks
      dsimp only
      cases hp : firstProblem? settingPlaces ms with
      | some e =>
        rw [hp] at hchecks
        dsimp only at hchecks
        rw [hchecks]
        exact .problem hdocument hp
      | none =>
        rw [hp] at hchecks
        obtain ⟨m, hm, hfollows⟩ := hchecks
        rw [hm]
        exact .follows hdocument hp hfollows

/-- The errors that are reported as errors of the manifest. -/
def ManifestError.isReported : ManifestError → Bool
  | .unreadable _ | .invalid _ | .wrongType _ _ => true
  | .notTable | .tooManyDigits _ | .file _ => false

/-- All items of the lists of a manifest are texts. -/
structure Manifest.Typed (m : Manifest) : Prop where
  sources : ∀ v ∈ m.sources, ∃ s, v = .string s
  scriptComponents : ∀ v ∈ m.scriptComponents, ∃ s, v = .string s

/-- The keys of the lists of a manifest. -/
def listKeys : List String := ["sources", "script_components"]

/-- What is wrong with a document and is not reported as an error of the manifest: an integer with
too many digits, a section that is no table if that is the first problem, and, if there is no
problem, an item of a list that is no text. -/
inductive Unreported : Option (Except Toml.ReadError Toml.Members) → Prop
  | digits (n : Nat) : Unreported (some (.error (.tooManyDigits n)))
  | notTable {ms : Toml.Members} (h : firstProblem? settingPlaces ms = some .notTable) :
      Unreported (some (.ok ms))
  | item {ms : Toml.Members} (h : firstProblem? settingPlaces ms = none) {key : String}
      (hkey : key ∈ listKeys) {items : List Value}
      (hitems : Toml.valueAt? ms "build" key = some (.array items)) {v : Value} (hv : v ∈ items)
      (hn : v.asString? = none) : Unreported (some (.ok ms))

/-- A problem is reported unless it is a section that is no table. -/
theorem isReported_or_notTable {ps : List SettingPlace} {ms : Toml.Members} {e : ManifestError}
    (h : firstProblem? ps ms = some e) : e.isReported = true ∨ e = .notTable := by
  obtain ⟨p, -, hp⟩ := List.exists_of_findSome?_eq_some h
  unfold SettingPlace.problem? at hp
  split at hp
  next => cases hp
  next =>
    split at hp
    next => cases hp
    next =>
      split_ifs at hp
      cases hp
      exact .inl rfl
  next =>
    cases hp
    exact .inr rfl

theorem asString?_eq_none_iff {v : Value} : v.asString? = none ↔ ¬ ∃ s, v = .string s := by
  cases v <;> simp [Value.asString?]

/-- Without a problem, the lists of a manifest hold texts exactly if those of the document do. -/
theorem Manifest.Follows.typed_iff {m : Manifest} {ms : Toml.Members} (h : m.Follows ms) :
    m.Typed ↔ ∀ key ∈ listKeys, ∀ items, Toml.valueAt? ms "build" key = some (.array items) →
      ∀ v ∈ items, ∃ s, v = .string s := by
  -- The items are those of the document, or the only one of the default, which is a text.
  have list : ∀ (key d : String), (∀ v ∈ ((Toml.valueAt? ms "build" key).bind
      Value.asArray?).getD [.string d], ∃ s, v = .string s) ↔
      ∀ items, Toml.valueAt? ms "build" key = some (.array items) →
        ∀ v ∈ items, ∃ s, v = .string s := fun key d => by
    cases hv : Toml.valueAt? ms "build" key with
    | none => simp
    | some v => cases v <;> simp [Value.asArray?]
  have typed : m.Typed ↔ (∀ v ∈ m.sources, ∃ s, v = .string s) ∧
      ∀ v ∈ m.scriptComponents, ∃ s, v = .string s := ⟨fun h => ⟨h.1, h.2⟩, fun h => ⟨h.1, h.2⟩⟩
  rw [typed, h.sources, h.scriptComponents, Manifest.defaults, list, list]
  simp [listKeys]

theorem Manifest.typed_override {m : Manifest} (override : Option String) :
    (m.override override).Typed ↔ m.Typed := by
  have h : (m.override override).sources = m.sources ∧
      (m.override override).scriptComponents = m.scriptComponents := by
    unfold Manifest.override
    split
    · exact ⟨rfl, rfl⟩
    · split_ifs <;> exact ⟨rfl, rfl⟩
  exact ⟨fun ht => ⟨h.1 ▸ ht.sources, h.2 ▸ ht.scriptComponents⟩,
    fun ht => ⟨h.1.symm ▸ ht.sources, h.2.symm ▸ ht.scriptComponents⟩⟩

/-- An error is no manifest. -/
theorem ManifestError.reported_iff {e : ManifestError} :
    ((∃ e', (.error e : Except ManifestError Manifest) = .error e' ∧ e'.isReported = true) ∨
      ∃ m, (.error e : Except ManifestError Manifest) = .ok m ∧ m.Typed) ↔
        e.isReported = true := by
  simp

/-- A manifest is reported as bad, or has the declared types, unless something is wrong with it that
is not reported. -/
theorem Verdict.reported_iff {path : Path} {override : Option String} {bytes : ByteArray}
    {r : Except ManifestError Manifest} (h : Verdict path override bytes r) :
    ((∃ e, r = .error e ∧ e.isReported = true) ∨ ∃ m, r = .ok m ∧ m.Typed) ↔
      ¬ Unreported (document? bytes) := by
  cases h with
  | noText h | noDocument h =>
    rw [h, ManifestError.reported_iff]
    exact iff_of_true rfl nofun
  | @tooManyDigits n h =>
    rw [h, ManifestError.reported_iff]
    exact iff_of_false nofun (not_not.2 (.digits n))
  | @problem ms e h he =>
    rw [h, ManifestError.reported_iff]
    obtain hr | rfl := isReported_or_notTable he
    · refine iff_of_true hr fun hu => ?_
      cases hu with
      | notTable hn =>
        cases he.symm.trans hn
        cases hr
      | item hn => cases he.symm.trans hn
    · exact iff_of_false nofun (not_not.2 (.notTable he))
  | @follows ms m h hnone hm =>
    rw [h]
    have htyped := (Manifest.typed_override (m := m) override).trans hm.typed_iff
    constructor
    · rintro (⟨e, he, -⟩ | ⟨m', hm', ht⟩) hu
      · cases he
      cases hm'
      cases hu with
      | notTable hn => cases hnone.symm.trans hn
      | item _ hkey hitems hv hn =>
        exact asString?_eq_none_iff.1 hn (htyped.1 ht _ hkey _ hitems _ hv)
    · intro hn
      refine .inr ⟨_, rfl, htyped.2 fun key hkey items hitems v hv => ?_⟩
      by_contra hv'
      exact hn (.item hnone hkey hitems hv (asString?_eq_none_iff.2 hv'))

theorem Tree.findManifest_of_readFile {t : Tree} {override : Option String} {root : Path}
    {bytes : ByteArray} (h : t.readFile (root.child manifestFileName) = .ok bytes) :
    t.findManifest override root =
      (Manifest.ofBytes (root.child manifestFileName) bytes).map fun m => m.override override := by
  obtain ⟨hnul, loc, hloc, hentry⟩ := readFile_eq_ok.1 h
  have hexists : t.existsAt (root.child manifestFileName) = .ok true :=
    existsAt_eq_true.2 ⟨hnul, loc, _, hloc, hentry⟩
  simp only [findManifest, hexists, loadManifest, h]

/-! ## Lists that are used -/

/-- The names of script components are refused exactly if one of them is an array or a table. -/
theorem Manifest.scriptNames_eq_error {m : Manifest} {e : PassError} : m.scriptNames = .error e ↔
    e = .compoundName ∧ ∃ v ∈ m.scriptComponents, Toml.isContainer v = true := by
  have hany : m.scriptComponents.any Toml.isContainer = true ↔
      ∃ v ∈ m.scriptComponents, Toml.isContainer v = true := List.any_eq_true
  unfold scriptNames
  rw [← hany]
  split_ifs with h
  · exact ⟨fun he => ⟨(Except.error.inj he).symm, h⟩, fun he => he.1 ▸ rfl⟩
  · exact ⟨nofun, fun he => absurd he.2 h⟩

namespace Tree

variable {t : Tree} {root : Path} {m : Manifest} {v : Value}

/-- Nothing but a file operation fails over a source that is a text. -/
theorem sourceFiles_string_ne_error {rel : String} {e : PassError} (he : ∀ e', e ≠ .file e') :
    t.sourceFiles root (.string rel) ≠ .error e := by
  rw [sourceFiles]
  split_ifs
  · simpa using (he _).symm
  · split
    · simpa using (he _).symm
    · simp
    · split
      · simpa using (he _).symm
      · simp

theorem sourceFiles_eq_sourceNotText :
    t.sourceFiles root v = .error .sourceNotText ↔ v.asString? = none := by
  cases v with
  | string rel => exact iff_of_false (sourceFiles_string_ne_error nofun) nofun
  | _ => exact iff_of_true rfl rfl

theorem sourceFiles_ne_compoundName : t.sourceFiles root v ≠ .error .compoundName := by
  cases v with
  | string rel => exact sourceFiles_string_ne_error nofun
  | _ => exact nofun

/-- A search fails where the first of the sources fails that does. -/
theorem filesOfSources_eq_error {ss : List Value} {e : PassError} :
    (t.filesOfSources root ss).result = .error e ↔ ∃ pre s post, ss = pre ++ s :: post ∧
      (∀ s ∈ pre, ∃ r, t.sourceFiles root s = .ok r) ∧ t.sourceFiles root s = .error e := by
  induction ss with
  | nil => simp [filesOfSources]
  | cons s ss ih =>
    rw [filesOfSources]
    cases hs : t.sourceFiles root s with
    | error e' =>
      constructor
      · intro h
        cases h
        exact ⟨[], s, ss, rfl, by simp, hs⟩
      · rintro ⟨pre, s', post, heq, hpre, hs'⟩
        cases pre with
        | nil =>
          cases heq
          exact congrArg _ (Except.error.inj (hs.symm.trans hs'))
        | cons x pre =>
          cases heq
          obtain ⟨r, hr⟩ := hpre _ List.mem_cons_self
          cases hs.symm.trans hr
    | ok r =>
      obtain ⟨files, log⟩ := r
      have hmap : ((t.filesOfSources root ss).result.map (files ++ ·) = .error e) ↔
          (t.filesOfSources root ss).result = .error e := by
        cases (t.filesOfSources root ss).result <;> simp [Except.map]
      dsimp only
      rw [hmap, ih]
      constructor
      · rintro ⟨pre, s', post, rfl, hpre, hs'⟩
        exact ⟨s :: pre, s', post, rfl, by simpa [hs] using hpre, hs'⟩
      · rintro ⟨pre, s', post, heq, hpre, hs'⟩
        cases pre with
        | nil =>
          cases heq
          cases hs.symm.trans hs'
        | cons x pre =>
          cases heq
          exact ⟨pre, s', post, rfl, fun y hy => hpre y (List.mem_cons_of_mem _ hy), hs'⟩

theorem discover_eq_error {e : PassError} : (t.discover root m).result = .error e ↔
    (t.filesOfSources root m.sources).result = .error e := by
  rw [discover]
  cases (t.filesOfSources root m.sources).result <;> simp [Except.map]

/-- Some source is no text, and the search comes to it. -/
def ReachesNoText (t : Tree) (root : Path) (m : Manifest) : Prop :=
  ∃ pre v post, m.sources = pre ++ v :: post ∧
    (∀ s ∈ pre, ∃ r, t.sourceFiles root s = .ok r) ∧ v.asString? = none

theorem discover_eq_sourceNotText :
    (t.discover root m).result = .error .sourceNotText ↔ t.ReachesNoText root m := by
  simp only [discover_eq_error, filesOfSources_eq_error, sourceFiles_eq_sourceNotText,
    ReachesNoText]

theorem discover_ne_compoundName : (t.discover root m).result ≠ .error .compoundName := by
  rw [Ne, discover_eq_error, filesOfSources_eq_error]
  rintro ⟨-, s, -, -, -, h⟩
  exact sourceFiles_ne_compoundName h

theorem collect_eq_error {e : PassError} : (t.collect root m).result = .error e ↔
    m.scriptNames = .error e ∨
      (∃ names, m.scriptNames = .ok names) ∧ (t.discover root m).result = .error e := by
  unfold collect
  cases m.scriptNames with
  | error e' => simp
  | ok names =>
    dsimp only
    cases (t.discover root m).result <;> simp

end Tree

/-! ## What escapes from commands -/

namespace CommandLine

/-- Whether a command collects the scripts of a project. -/
def Command.collects : Command → Bool
  | .build _ _ _ | .inspect _ => true
  | .resolve _ _ _ _ _ => false

/-- The faults that stand for a value of the wrong type in a manifest. -/
def Fault.isTypeFault : Fault → Bool
  | .manifest .notTable | .pass .sourceNotText | .pass .compoundName => true
  | _ => false

/-- What a value of the wrong type in a manifest stops a command with. -/
inductive Escapes (t : Tree) (override : Option String) (c : Command) (root : Path) : Fault → Prop
  | notTable (h : t.findManifest override root = .error .notTable) :
      Escapes t override c root (.manifest .notTable)
  | compoundName {m : Manifest} (hc : c.collects = true) (hm : t.findManifest override root = .ok m)
      {v : Value} (hv : v ∈ m.scriptComponents) (h : Toml.isContainer v = true) :
      Escapes t override c root (.pass .compoundName)
  | noText {m : Manifest} (hc : c.collects = true) (hm : t.findManifest override root = .ok m)
      (hnames : ∃ names, m.scriptNames = .ok names) (h : t.ReachesNoText root m) :
      Escapes t override c root (.pass .sourceNotText)

/-- Nothing goes wrong but that the console cannot print a text. -/
def Prints {α : Type} (r : Except Fault α) : Prop := ∀ f, r = .error f → f = .markup

section Printing

variable {α β : Type} {r : Except Fault α}

theorem Prints.map (h : Prints r) (g : α → β) : Prints (r.map g) := by
  intro f hf
  cases r with
  | ok a => cases hf
  | error e =>
    cases hf
    exact h _ rfl

theorem Prints.mapM {g : α → Except Fault β} (h : ∀ a, Prints (g a)) (l : List α) :
    Prints (l.mapM g) := by
  induction l with
  | nil => nofun
  | cons a l ih =>
    intro f hf
    rw [List.mapM_cons] at hf
    cases ha : g a with
    | error e =>
      rw [ha] at hf
      cases hf
      exact h a _ ha
    | ok b =>
      rw [ha] at hf
      cases hl : l.mapM g with
      | error e =>
        rw [hl] at hf
        cases hf
        exact ih _ hl
      | ok bs =>
        rw [hl] at hf
        cases hf

theorem Prints.not_typeFault (h : Prints r) {f : Fault} (hf : f.isTypeFault = true) :
    r ≠ .error f := by
  intro hr
  rw [h f hr] at hf
  cases hf

theorem prints_printing (t? : Option String) : Prints (printing t?) := by
  intro f hf
  cases t? with
  | some => cases hf
  | none => exact (Except.error.inj hf).symm

theorem prints_shownLines (console : Console) (lines : List String) :
    Prints (shownLines console lines) :=
  (Prints.mapM (fun _ => prints_printing _) lines).map _

theorem prints_inspectReport (console : Console) (ext : String) (fs : List Fragment) :
    Prints (inspectReport console ext fs) := by
  unfold inspectReport
  split_ifs
  · exact prints_printing _
  · exact prints_printing _

end Printing

variable {console : Console} {t : Tree} {override : Option String} {root : Path} {c : Command}
  {f : Fault}

theorem manifestFailure_iff (hf : f.isTypeFault = true) (e : ManifestError) :
    manifestFailure console e = .error f ↔ e = .notTable ∧ f = .manifest .notTable := by
  have reported : ∀ {e : ManifestError}, e ≠ .notTable →
      manifestFailure console e =
        (shown console ("[red]" ++ e.message ++ "[/red]")).map (fun s => ⟨1, s⟩) →
      (manifestFailure console e = .error f ↔ e = .notTable ∧ f = .manifest .notTable) :=
    fun hne he => ⟨fun h => absurd (he.symm.trans h) (((prints_printing _).map _).not_typeFault hf),
      fun h => absurd h.1 hne⟩
  cases e with
  | unreadable | invalid | wrongType => exact reported nofun rfl
  | notTable =>
    exact ⟨fun h => ⟨rfl, (Except.error.inj h).symm⟩, fun h => h.2 ▸ rfl⟩
  | tooManyDigits | file =>
    refine ⟨fun h => ?_, nofun⟩
    cases h
    cases hf

theorem buildFailure_iff (hf : f.isTypeFault = true) (e : PassError) :
    buildFailure console e = .error f ↔ f = .pass e := by
  cases e with
  | file e =>
    have hne : f ≠ .pass (.file e) := fun h => by
      subst h
      cases hf
    refine ⟨fun h => ?_, fun h => absurd h hne⟩
    cases e with
    | refused => exact absurd h (((prints_printing _).map _).not_typeFault hf)
    | embeddedNul | doubleStar =>
      cases h
      cases hf
  | sourceNotText | compoundName => exact ⟨fun h => (Except.error.inj h).symm, fun h => h ▸ rfl⟩

/-- What stops collecting the scripts of a project, for a value of the wrong type. -/
theorem collect_iff {m : Manifest} (hm : t.findManifest override root = .ok m)
    (hc : c.collects = true) (hf : f.isTypeFault = true) :
    (∃ e, (t.collect root m).result = .error e ∧ f = .pass e) ↔ Escapes t override c root f := by
  constructor
  · rintro ⟨e, he, rfl⟩
    obtain he | ⟨hnames, he⟩ := Tree.collect_eq_error.1 he
    · obtain ⟨rfl, v, hv, h⟩ := Manifest.scriptNames_eq_error.1 he
      exact .compoundName hc hm hv h
    · cases e with
      | sourceNotText => exact .noText hc hm hnames (Tree.discover_eq_sourceNotText.1 he)
      | compoundName => exact absurd he Tree.discover_ne_compoundName
      | file => cases hf
  · intro h
    cases h with
    | notTable h => cases hm.symm.trans h
    | compoundName _ hm' hv h =>
      cases hm.symm.trans hm'
      exact ⟨_, Tree.collect_eq_error.2
        (.inl (Manifest.scriptNames_eq_error.2 ⟨rfl, _, hv, h⟩)), rfl⟩
    | noText _ hm' hnames h =>
      cases hm.symm.trans hm'
      exact ⟨_, Tree.collect_eq_error.2 (.inr ⟨hnames, Tree.discover_eq_sourceNotText.2 h⟩), rfl⟩

/-- Without a manifest, only a section that is no table escapes. -/
theorem escapes_of_error {e : ManifestError} (he : t.findManifest override root = .error e) :
    Escapes t override c root f ↔ e = .notTable ∧ f = .manifest .notTable := by
  constructor
  · intro h
    cases h with
    | notTable h => exact ⟨Except.error.inj (he.symm.trans h), rfl⟩
    | compoundName _ hm | noText _ hm => cases he.symm.trans hm
  · rintro ⟨rfl, rfl⟩
    exact .notTable he

/-- A build is stopped by what stops collecting the scripts, and by file operations. -/
theorem runBuild_iff {m : Manifest} {project : String} {output : Option String} {prune : Bool}
    (hroot : projectRoot t project = .ok root) (hm : t.findManifest override root = .ok m)
    (hf : f.isTypeFault = true) :
    (runBuild console t override project output prune).1 = .error f ↔
      ∃ e, (t.collect root m).result = .error e ∧ f = .pass e := by
  -- Whether bundles are removed does not matter for what is collected.
  have hcollect : ∀ m' : Manifest,
      t.collect root (if prune then { m' with prune := true } else m') = t.collect root m' :=
    fun m' => by cases prune <;> rfl
  simp only [runBuild, hroot, hm, Tree.build, hcollect]
  cases hresult : (t.collect root m).result with
  | error e => simp [buildFailure_iff hf]
  | ok c =>
    refine ⟨fun h => ?_, fun ⟨e, he, _⟩ => nomatch he⟩
    dsimp only at h
    split at h
    next e he =>
      split at he
      next =>
        cases he
        rw [buildFailure_iff hf] at h
        subst h
        cases hf
      next => cases he
    next => exact absurd h (((prints_shownLines _ _).map _).not_typeFault hf)

theorem runInspect_iff {m : Manifest} {project : String}
    (hroot : projectRoot t project = .ok root) (hm : t.findManifest override root = .ok m)
    (hf : f.isTypeFault = true) : runInspect console t override project = .error f ↔
      ∃ e, (t.collect root m).result = .error e ∧ f = .pass e := by
  simp only [runInspect, hroot, hm]
  cases (t.collect root m).result with
  | error e => simp [eq_comm]
  | ok c =>
    exact ⟨fun h => absurd h (((prints_inspectReport _ _ _).map _).not_typeFault hf),
      fun ⟨e, he, _⟩ => nomatch he⟩

theorem run_of_error {e : ManifestError} (hroot : projectRoot t c.project = .ok root)
    (he : t.findManifest override root = .error e) :
    (c.runOn console t override).1 = manifestFailure console e := by
  cases c <;>
    · rw [Command.project] at hroot
      simp only [Command.runOn, runBuild, runInspect, runResolve, hroot, he]

/-- A command is stopped by a value of the wrong type in the manifest as `Escapes` says. -/
theorem run_iff (hroot : projectRoot t c.project = .ok root) (hf : f.isTypeFault = true) :
    (c.runOn console t override).1 = .error f ↔ Escapes t override c root f := by
  cases hm : t.findManifest override root with
  | error e => rw [run_of_error hroot hm, manifestFailure_iff hf, escapes_of_error hm]
  | ok m =>
    cases c with
    | build project output prune =>
      exact (runBuild_iff hroot hm hf).trans (collect_iff hm rfl hf)
    | inspect project => exact (runInspect_iff hroot hm hf).trans (collect_iff hm rfl hf)
    | resolve component globalBundle bundleName library project =>
      rw [Command.project] at hroot
      simp only [Command.runOn, runResolve, hroot, hm]
      constructor
      · intro h
        cases h
      · intro h
        cases h with
        | notTable h => cases hm.symm.trans h
        | compoundName hc | noText hc => cases hc

/-- Nothing escapes from a command if the manifest has the declared types. -/
theorem not_escapes_of_typed {m : Manifest} (hm : t.findManifest override root = .ok m)
    (ht : m.Typed) : ¬ Escapes t override c root f := by
  intro h
  cases h with
  | notTable h => cases hm.symm.trans h
  | compoundName _ hm' hv h =>
    cases hm.symm.trans hm'
    obtain ⟨s, rfl⟩ := ht.scriptComponents _ hv
    cases h
  | noText _ hm' _ h =>
    cases hm.symm.trans hm'
    obtain ⟨pre, v, post, hsources, -, hv⟩ := h
    obtain ⟨s, rfl⟩ := ht.sources v (by simp [hsources])
    cases hv

end CommandLine

/-! ## Every project -/

open CommandLine in
/-- What holds of the manifest of the project in a directory. -/
structure ReportsManifest (t : Tree) (override : Option String) (root : Path) : Prop where
  /-- What the bytes of its file lead to. -/
  verdict : ∀ bytes, t.readFile (root.child manifestFileName) = .ok bytes →
    Verdict (root.child manifestFileName) override bytes (t.findManifest override root)
  /-- It is reported as bad, or has the declared types, unless what is wrong with it is not
  reported. -/
  reported : ∀ bytes, t.readFile (root.child manifestFileName) = .ok bytes →
    (((∃ e, t.findManifest override root = .error e ∧ e.isReported = true) ∨
      ∃ m, t.findManifest override root = .ok m ∧ m.Typed) ↔ ¬ Unreported (document? bytes))
  /-- Names of script components are taken over, unless one of them is an array or a table. -/
  names : ∀ (m : Manifest) e, m.scriptNames = .error e ↔
    e = .compoundName ∧ ∃ v ∈ m.scriptComponents, Toml.isContainer v = true
  /-- The search for render files is stopped by the first source that is no text. -/
  discovers : ∀ m, (t.discover root m).result = .error .sourceNotText ↔ t.ReachesNoText root m
  /-- What values of the wrong type stop commands with, whatever the console is, ... -/
  commands : ∀ (console : Console) (c : Command) f, projectRoot t c.project = .ok root →
    f.isTypeFault = true → ((c.runOn console t override).1 = .error f ↔ Escapes t override c root f)
  /-- ... which is nothing if the manifest has the declared types. -/
  typed : ∀ (console : Console) (c : Command) f m, projectRoot t c.project = .ok root →
    f.isTypeFault = true → t.findManifest override root = .ok m → m.Typed →
      (c.runOn console t override).1 ≠ .error f

/-- **Bad manifests.** What the file of a manifest leads to, for all bytes that it may hold, and
what escapes from commands. -/
theorem reportsManifest (t : Tree) (override : Option String) (root : Path) :
    ReportsManifest t override root where
  verdict bytes h := by
    rw [Tree.findManifest_of_readFile h]
    exact Manifest.verdict_ofBytes _ _ _
  reported bytes h := by
    rw [Tree.findManifest_of_readFile h]
    exact (Manifest.verdict_ofBytes _ _ _).reported_iff
  names m e := Manifest.scriptNames_eq_error
  discovers m := Tree.discover_eq_sourceNotText
  commands console c f hroot hf := CommandLine.run_iff hroot hf
  typed console c f m hroot hf hm ht h :=
    CommandLine.not_escapes_of_typed hm ht ((CommandLine.run_iff hroot hf).1 h)

/-- A tree with nothing but a manifest. -/
def manifestTree (s : String) : Tree := ⟨[([manifestFileName], .file s.toUTF8)], []⟩

/-- A number in the place of a section, and items of lists that are no texts, are not reported as
errors of the manifest. -/
theorem types_unreported :
    (match (manifestTree "build = 3\n").findManifest none ⟨1, []⟩ with
      | .error .notTable => true
      | _ => false) = true ∧
    CommandLine.runInspect .wide (manifestTree "[build]\nsources = [1]\n") none "." =
      .error (.pass .sourceNotText) ∧
    CommandLine.runInspect .wide (manifestTree "[build]\nscript_components = [[]]\n") none "." =
      .error (.pass .compoundName) := by
  decide +kernel

end ScriptBundle
