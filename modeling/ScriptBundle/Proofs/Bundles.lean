import ScriptBundle.Build
import ScriptBundle.Proofs.Blanks
import ScriptBundle.Proofs.Grouping
import ScriptBundle.Proofs.Sections
import ScriptBundle.Proofs.Tree.Operations
/-!
# Where fragments go

In the bundle of its key a fragment stands on its own or in the class of its name
(`plain_or_wrapped_of_mem`, `eq_of_mem_wrapped`). A bundle is rendered to nothing if it is made up
of blank scripts outside of classes (`BundleGroup.render_eq_none_iff`), so that of a fragment that
is not blank is written whenever bundles are (`mem_emit`).
-/

namespace ScriptBundle

/-! ## Sections -/

/-- A fragment stands in a section. -/
def Section.Holds (f : Fragment) : Section → Prop
  | .plain g => g = f
  | .wrapped _ members => f ∈ members

section Sections

variable {classWrapping : Bool} {fs members : List Fragment} {f : Fragment} {name : String}

/-- Every fragment of a bundle stands in a section. -/
theorem exists_section_of_mem (hf : f ∈ fs) : ∃ s ∈ sections classWrapping fs, s.Holds f := by
  refine ⟨_, mem_sections.2 ⟨f, hf, rfl⟩, ?_⟩
  rw [sectionOf]
  split_ifs with hw
  · exact List.mem_filter.2 ⟨hf, by simp [hw]⟩
  · rfl

/-- A fragment of a bundle stands on its own or in a class. -/
theorem plain_or_wrapped_of_mem (hf : f ∈ fs) (classWrapping : Bool) :
    .plain f ∈ sections classWrapping fs ∨
      ∃ name members, .wrapped name members ∈ sections classWrapping fs ∧ f ∈ members := by
  obtain ⟨s, hs, hholds⟩ := @exists_section_of_mem classWrapping fs f hf
  cases s with
  | plain g =>
    obtain rfl : g = f := hholds
    exact .inl hs
  | wrapped name members => exact .inr ⟨name, members, hs, hholds⟩

/-- It stands in a class only if it may be wrapped, and that class is its own. -/
theorem eq_of_mem_wrapped (hs : .wrapped name members ∈ sections classWrapping fs)
    (hf : f ∈ members) : (classWrapping && f.asClass) = true ∧ name = f.effectiveClassName := by
  obtain ⟨e, -, he⟩ := mem_sections.1 hs
  rw [sectionOf] at he
  split_ifs at he
  obtain ⟨rfl, rfl⟩ := Section.wrapped.inj he
  obtain ⟨hw, hname⟩ := Bool.and_eq_true_iff.1 (List.mem_filter.1 hf).2
  exact ⟨hw, (of_decide_eq_true hname).symm⟩

/-- It stands on its own only if it may not be wrapped. -/
theorem not_wrapped_of_mem_plain (hs : .plain f ∈ sections classWrapping fs) :
    ¬ (classWrapping && f.asClass) = true := by
  obtain ⟨e, -, he⟩ := mem_sections.1 hs
  rw [sectionOf] at he
  split_ifs at he with hw
  · cases he
  · obtain rfl := Section.plain.inj he
    exact hw

end Sections

/-! ## Bundles that are written -/

/-- A class is never blank, whatever is in it. -/
theorem isBlankText_wrapped (name : String) (members : List Fragment) :
    Text.isBlankText (Section.wrapped name members).text = false := by
  have start : ∀ {t u : String}, Text.isBlankText t = false →
      Text.isBlankText (t ++ u) = false := fun h => by
    rw [isBlankText_append, h]
    rfl
  have const : Text.isBlankText "export const " = false := by decide
  have cls : Text.isBlankText "export class " = false := by decide
  rw [Section.text, classLines]
  split_ifs
  · exact isBlankText_intercalate _ (start (start (start (start const))))
  · exact isBlankText_intercalate _ (start (start cls))
  · exact isBlankText_intercalate _ (start (start (start (start const))))
  · exact isBlankText_intercalate _ (start (start cls))

/-- A section is blank if it is a blank script on its own. -/
theorem isBlankText_sectionOf (classWrapping : Bool) (fs : List Fragment) (f : Fragment) :
    Text.isBlankText (sectionOf classWrapping fs f).text =
      (!(classWrapping && f.asClass) && f.isBlank) := by
  rw [sectionOf]
  split_ifs with hw
  · rw [classSection, isBlankText_wrapped, hw, Bool.not_true, Bool.false_and]
  · rw [Bool.eq_false_iff.2 hw, Bool.not_false, Bool.true_and]
    rfl

/-- A bundle is rendered to nothing if it is made up of blank scripts outside of classes. -/
theorem BundleGroup.render_eq_none_iff (classWrapping : Bool) (g : BundleGroup) :
    g.render classWrapping = none ↔
      ∀ f ∈ g.fragments, (classWrapping && f.asClass) = false ∧ f.isBlank = true := by
  have hline : ∀ s : Section, Text.isBlankText (s.text ++ "\n") = Text.isBlankText s.text :=
    fun s => by rw [isBlankText_append, show Text.isBlankText "\n" = true by decide, Bool.and_true]
  have hsection : ∀ f, Text.isBlankText (sectionOf classWrapping g.fragments f).text = true ↔
      (classWrapping && f.asClass) = false ∧ f.isBlank = true := fun f => by
    rw [isBlankText_sectionOf, Bool.and_eq_true, Bool.not_eq_true']
  rw [render, ite_eq_left_iff, isBlankText_join, List.all_map]
  simp only [reduceCtorEq, imp_false, not_not, List.all_eq_true, Function.comp_apply, hline]
  constructor
  · exact fun h f hf => (hsection f).1 (h _ (mem_sections.2 ⟨f, hf, rfl⟩))
  · intro h s hs
    obtain ⟨f, hf, rfl⟩ := mem_sections.1 hs
    exact (hsection f).2 (h f hf)

/-- A bundle with a section that is not blank is rendered to its banner line and all its sections.
-/
theorem BundleGroup.render_of_mem {classWrapping : Bool} {g : BundleGroup} {s : Section}
    (hs : s ∈ sections classWrapping g.fragments) (hblank : Text.isBlankText s.text = false) :
    g.render classWrapping = some (bannerStart ++ g.key ++ "\n" ++
      String.join ((sections classWrapping g.fragments).map fun s => s.text ++ "\n")) := by
  rw [render, if_neg]
  rw [isBlankText_join, List.all_map, List.all_eq_true]
  intro hall
  have hs := hall s hs
  rw [Function.comp_apply, isBlankText_append, hblank, Bool.false_and] at hs
  cases hs

/-- A bundle with a script in it is rendered to something. -/
theorem BundleGroup.render_ne_none {g : BundleGroup} {f : Fragment} (hf : f ∈ g.fragments)
    (hblank : f.isBlank = false) (classWrapping : Bool) :
    ∃ content, g.render classWrapping = some content := by
  refine Option.ne_none_iff_exists'.1 fun hnone => ?_
  rw [((g.render_eq_none_iff classWrapping).1 hnone f hf).2] at hblank
  cases hblank

/-- The bundle of a group that is rendered to something is written to the file of its key. -/
theorem writeBundle_eq {o : EmissionOptions} {dir : Path} {g : BundleGroup} {content : String}
    (h : g.render o.classWrapping = some content) : writeBundle o dir g = (do
      FileOperation.writeFile (o.bundlePath dir g.key) content.toUTF8
      pure (some (o.bundlePath dir g.key))) := by
  rw [writeBundle, h]

theorem mem_writeBundles {o : EmissionOptions} {dir : Path} {gs : List BundleGroup}
    {t t' : Tree} {paths : List Path} (h : (writeBundles o dir gs).run t = (.ok paths, t'))
    {g : BundleGroup} (hg : g ∈ gs) {content : String}
    (hcontent : g.render o.classWrapping = some content) : o.bundlePath dir g.key ∈ paths := by
  induction gs generalizing t paths with
  | nil => cases hg
  | cons g₁ gs ih =>
    obtain ⟨path, t₁, hpath, h⟩ := FileOperation.run_bind_eq_ok h
    obtain ⟨paths', t₂, hpaths, h⟩ := FileOperation.run_bind_eq_ok h
    cases h
    obtain rfl | hg := List.mem_cons.1 hg
    · rw [writeBundle_eq hcontent] at hpath
      obtain ⟨_, t₃, -, hpath⟩ := FileOperation.run_bind_eq_ok hpath
      cases hpath
      exact List.mem_append_left _ (by simp)
    · exact List.mem_append_right _ (ih hpaths hg)

/-- **Every script is written.** When bundles of fragments are written, the bundle of a fragment
that is not blank is among them. -/
theorem mem_emit {o : EmissionOptions} {fs : List Fragment} {dir : Path} {t t' : Tree}
    {paths : List Path} (h : (emit o fs dir).run t = (.ok paths, t')) {f : Fragment} (hf : f ∈ fs)
    (hblank : f.isBlank = false) : o.bundlePath dir f.bundleKey ∈ paths := by
  obtain ⟨g, hg, hfg⟩ := exists_group_of_mem hf
  obtain ⟨content, hcontent⟩ := g.render_ne_none hfg hblank o.classWrapping
  rw [key_of_mem_groupFragments hg f hfg]
  obtain ⟨_, t₁, -, h⟩ := FileOperation.run_bind_eq_ok h
  obtain ⟨written, t₂, hwritten, h⟩ := FileOperation.run_bind_eq_ok h
  have hpaths : paths = written := by
    split_ifs at h
    · obtain ⟨_, t₃, -, h⟩ := FileOperation.run_bind_eq_ok h
      cases h
      rfl
    · cases h
      rfl
  exact hpaths ▸ mem_writeBundles hwritten hg hcontent

end ScriptBundle
