import ScriptBundle.Proofs.Bundles
import ScriptBundle.Proofs.Declarations
/-!
# Banners

A bundle starts with a comment that names its key. The key is made of the names of components, of
their namespaces and of bundles, and stands in the comment as it is. So the comment is one line if
no line of a script ends in any of these (`commentLine_banner_iff`,
`Fragment.oneLine_bundleKey_iff`), and otherwise what follows the line end in the key is code:
`banners_commented` says so for the bundles of all components, and `banner_with_code` is a bundle
that calls a function by its name.
-/

namespace ScriptBundle

/-! ## Lines of scripts -/

/-- The characters that end a line of a script, and with it a comment. -/
def endsScriptLine (c : Char) : Bool :=
  c = '\n' || c = '\r' || c = '\u2028' || c = '\u2029'

/-- No line of a script ends in a text. -/
def OneLine (s : String) : Prop := ∀ c ∈ s.toList, endsScriptLine c = false

-- Named, since an instance for all characters may be found in its place, and not be computed.
instance (s : String) : Decidable (OneLine s) :=
  List.decidableBAll (endsScriptLine · = false) s.toList

/-- A line of a script that is a comment and nothing else. -/
def CommentLine (s : String) : Prop := ∃ text, s = "//" ++ text ++ "\n" ∧ OneLine text

theorem oneLine_empty : OneLine "" := by decide

theorem oneLine_append {s t : String} : OneLine (s ++ t) ↔ OneLine s ∧ OneLine t := by
  rw [OneLine, String.toList_append, List.forall_mem_append]
  rfl

theorem commentLine_iff {text : String} : CommentLine ("//" ++ text ++ "\n") ↔ OneLine text := by
  refine ⟨fun ⟨text', htext, hline⟩ => ?_, fun h => ⟨text, rfl, h⟩⟩
  obtain rfl : text = text' := by simpa [← String.toList_inj] using htext
  exact hline

/-- A text in which a line ends has a first such place. -/
theorem exists_first_end {s : String} (h : ¬ OneLine s) :
    ∃ line c rest, s = line ++ String.singleton c ++ rest ∧ OneLine line ∧
      endsScriptLine c = true := by
  obtain ⟨line, c, rest, hs, hline, hc⟩ := exists_first_not h
  refine ⟨.ofList line, c, .ofList rest, ?_, by simpa [OneLine] using hline, by simpa using hc⟩
  rw [← String.toList_inj, hs]
  simp

/-! ## Names -/

theorem oneLine_effectiveBundleName_iff {name : Option String} :
    OneLine (effectiveBundleName name) ↔ ∀ n, name = some n → OneLine n := by
  have hdefault : OneLine defaultBundleName := by decide
  cases name with
  | none => exact iff_of_true hdefault nofun
  | some n =>
    rw [effectiveBundleName]
    split_ifs with hn
    · obtain rfl := String.isEmpty_iff.1 hn
      exact iff_of_true hdefault fun _ h => Option.some.inj h ▸ oneLine_empty
    · simp

/-- No line of a script ends in the names that a component has. -/
def Component.OneLine (c : Component) : Prop :=
  ScriptBundle.OneLine c.name ∧ ∀ n, c.scope = some n → ScriptBundle.OneLine n

theorem Component.oneLine_ownerId_iff {c : Component} :
    ScriptBundle.OneLine c.ownerId ↔ c.OneLine := by
  have hdot : ScriptBundle.OneLine "." := by decide
  obtain ⟨name, scope, instructions⟩ := c
  cases scope with
  | none => simp [ownerId, OneLine]
  | some n =>
    rw [ownerId, OneLine]
    dsimp only
    split_ifs with hn
    · obtain rfl := String.isEmpty_iff.1 hn
      exact (and_iff_left fun _ h => Option.some.inj h ▸ oneLine_empty).symm
    · rw [oneLine_append, oneLine_append]
      simp [hdot, and_comm]

/-- No line of a script ends in the names that the key of a script of a component is made of. -/
structure Fragment.NamedInLine (f : Fragment) (c : Component) : Prop where
  bundle : ∀ n, f.bundleName = some n → OneLine n
  component : f.globalBundle = false → c.OneLine

variable {names : List String}

/-- The key of a script is in one line if its parts are. -/
theorem Fragment.oneLine_bundleKey_iff {f : Fragment} {c : Component}
    (hf : f ∈ c.fragments names) : OneLine f.bundleKey ↔ f.NamedInLine c := by
  have hdot : OneLine "." := by decide
  rw [bundleKey, ScriptBundle.bundleKey, ownerId_of_mem_fragments hf]
  split_ifs with hglobal
  · rw [oneLine_effectiveBundleName_iff]
    exact ⟨fun h => ⟨h, by simp [hglobal]⟩, NamedInLine.bundle⟩
  · rw [oneLine_append, oneLine_append, oneLine_effectiveBundleName_iff,
      Component.oneLine_ownerId_iff]
    exact ⟨fun h => ⟨h.2, fun _ => h.1.1⟩, fun h =>
      ⟨⟨h.component (Bool.eq_false_iff.2 hglobal), hdot⟩, h.bundle⟩⟩

/-! ## Banners -/

/-- What stands in a bundle before its sections. -/
def BundleGroup.banner (g : BundleGroup) : String := bannerStart ++ g.key ++ "\n"

/-- The banner is a comment as long as no line ends in the key. -/
theorem commentLine_banner_iff {g : BundleGroup} : CommentLine g.banner ↔ OneLine g.key := by
  have hlead : OneLine " Auto-generated bundle: " := by decide
  have hstart : g.banner = "//" ++ (" Auto-generated bundle: " ++ g.key) ++ "\n" := by
    rw [BundleGroup.banner, ← String.append_assoc]
    rfl
  rw [hstart, commentLine_iff, oneLine_append]
  exact and_iff_right hlead

/-- How the banner of a bundle comes out. -/
structure Bannered (names : List String) (cs : List Component) (classWrapping : Bool)
    (g : BundleGroup) : Prop where
  /-- The bundle is the banner and its sections, of which there is at least one. -/
  render : g.render classWrapping = some (g.banner ++
    String.join ((sections classWrapping g.fragments).map fun s => s.text ++ "\n"))
  sections_ne_nil : sections classWrapping g.fragments ≠ []
  /-- It holds scripts of the components, -/
  scripts : ∃ c ∈ cs, ∃ f ∈ c.fragments names, f ∈ g.fragments
  /-- whose names decide if the banner is a comment line. -/
  comment_iff : ∀ c ∈ cs, ∀ f ∈ c.fragments names, f ∈ g.fragments →
    (CommentLine g.banner ↔ f.NamedInLine c)
  /-- If it is none then the comment ends in the key, and the rest of the key is code. -/
  code : ¬ CommentLine g.banner → ∃ comment c code,
    g.banner = bannerStart ++ comment ++ String.singleton c ++ code ++ "\n" ∧
      OneLine (bannerStart ++ comment) ∧ endsScriptLine c = true

/-- **The banner is one comment line** if no line of a script ends in the names of the bundle and,
unless all components share it, of the component. -/
theorem banners_commented {cs : List Component} {g : BundleGroup}
    (hg : g ∈ groupFragments (cs.flatMap (Component.fragments names))) (classWrapping : Bool) :
    Bannered names cs classWrapping g := by
  obtain ⟨f, hf⟩ := List.exists_mem_of_ne_nil _ (ne_nil_of_mem_groupFragments hg)
  have hsource : ∃ c ∈ cs, f ∈ c.fragments names := by
    have hmem := hf
    rw [fragments_eq_filter hg] at hmem
    exact List.mem_flatMap.1 (List.mem_filter.1 hmem).1
  obtain ⟨c, hc, hfc⟩ := hsource
  have hsection : sectionOf classWrapping g.fragments f ∈ sections classWrapping g.fragments :=
    mem_sections.2 ⟨f, hf, rfl⟩
  refine ⟨?render, List.ne_nil_of_mem hsection, ⟨c, hc, f, hfc, hf⟩, ?comment_iff, ?code⟩
  case render =>
    refine BundleGroup.render_of_mem hsection ?_
    rw [isBlankText_sectionOf, isBlank_of_mem_fragments hfc, Bool.and_false]
  case comment_iff =>
    intro c _ f hfc hf
    rw [commentLine_banner_iff, ← key_of_mem_groupFragments hg f hf, f.oneLine_bundleKey_iff hfc]
  case code =>
    intro hnot
    obtain ⟨comment, c, code, hkey, hcomment, hends⟩ :=
      exists_first_end (commentLine_banner_iff.not.1 hnot)
    refine ⟨comment, c, code, ?_, oneLine_append.2 ⟨by decide, hcomment⟩, hends⟩
    rw [BundleGroup.banner, hkey]
    simp only [String.append_assoc]

/-- The bundle that all components share, and that of a component in a namespace. -/
theorem banners_commented_two :
    let marker : Instruction := ⟨.openComponent, 0, some "Script", .null, true⟩
    let shared : Instruction := ⟨.addComponentParameter, 1, some "GlobalBundle", .bool true, true⟩
    let text : Instruction := ⟨.addContent, 2, none, .string "run()", true⟩
    let close : Instruction := ⟨.closeComponent, 3, none, .null, true⟩
    let a : Component := ⟨"A", none, [marker, shared, text, close]⟩
    let b : Component := ⟨"B", some "App", [marker, text, close]⟩
    ∃ g g', groupFragments ([a, b].flatMap (Component.fragments ["Script"])) = [g, g'] ∧
      g.banner = "// Auto-generated bundle: index\n" ∧
      g'.banner = "// Auto-generated bundle: App.B.index\n" ∧
      Bannered ["Script"] [a, b] false g ∧ Bannered ["Script"] [a, b] true g' := by
  intro marker shared text close a b
  have hgroups : ∃ g g',
      groupFragments ([a, b].flatMap (Component.fragments ["Script"])) = [g, g'] ∧
        g.banner = "// Auto-generated bundle: index\n" ∧
        g'.banner = "// Auto-generated bundle: App.B.index\n" := ⟨_, _, rfl, by decide, by decide⟩
  obtain ⟨g, g', h, hg, hg'⟩ := hgroups
  have hmem : ∀ x ∈ [g, g'], x ∈ groupFragments ([a, b].flatMap (Component.fragments ["Script"])) :=
    fun x hx => by rwa [h]
  exact ⟨g, g', h, hg, hg', banners_commented (hmem g (by simp)) false,
    banners_commented (hmem g' (by simp)) true⟩

/-- A bundle whose name goes on after a line end: the rest of its name is a call in its banner. -/
theorem banner_with_code :
    let c : Component := ⟨"A", none,
      [⟨.openComponent, 0, some "Script", .null, true⟩,
        ⟨.addComponentParameter, 1, some "GlobalBundle", .bool true, true⟩,
        ⟨.addComponentParameter, 2, some "BundleName", .string "x\nalert(1)", true⟩,
        ⟨.addContent, 3, none, .string "run()", true⟩, ⟨.closeComponent, 4, none, .null, true⟩]⟩
    ∃ g, groupFragments (c.fragments ["Script"]) = [g] ∧
      g.banner = "// Auto-generated bundle: x\nalert(1)\n" ∧ ¬ CommentLine g.banner ∧
      ∀ classWrapping, ∃ body, g.render classWrapping = some (g.banner ++ body) := by
  intro c
  refine ⟨⟨"x\nalert(1)", c.fragments ["Script"]⟩, by decide, by decide, ?_, ?_⟩
  · rw [commentLine_banner_iff]
    decide
  · rintro (_ | _)
    · exact ⟨"run()\n", by decide⟩
    · exact ⟨"export class A \x7b\n  run()\n\x7d\n", by decide⟩

end ScriptBundle
