import Mathlib.Data.List.Forall2
import ScriptBundle.Proofs.Agreement
import ScriptBundle.Proofs.Site.Assigning
import ScriptBundle.Proofs.Unwrapping
/-!
# The classes of owners

The name of an owner's class has underscores for the dots of the owner, so two owners have the same
class exactly if they differ at most in dots and underscores (`ownerClassName_eq_iff`). A script
that names no class of its own stands in the class of its owner (`holds_iff_of_ownClass`), and the
identifiers of a site that names none are members of that class (`OwnClass.qualify_eq`). So
`classes_told` says when owners are kept apart in a bundle and at run time; `classes_merged` shows
two that are not.
-/

namespace ScriptBundle

/-! ## Names -/

/-- Identities that differ at most in that one has a dot where the other has an underscore. -/
def Blurred (a b : String) : Prop :=
  List.Forall₂ (fun c d => c = d ∨ c = '.' ∧ d = '_' ∨ c = '_' ∧ d = '.') a.toList b.toList

/-- Two owners have the same class exactly if they differ at most in dots and underscores. -/
theorem ownerClassName_eq_iff {a b : String} :
    ownerClassName a = ownerClassName b ↔ Blurred a b := by
  have hchar : ∀ c d : Char, (if c = '.' then '_' else c) = (if d = '.' then '_' else d) ↔
      c = d ∨ c = '.' ∧ d = '_' ∨ c = '_' ∧ d = '.' := by
    intro c d
    split_ifs with hc hd hd
    · simp [hc, hd]
    · simp [hc, hd, eq_comm]
    · simp [hc, hd]
    · simp [hc, hd]
  rw [ownerClassName, ownerClassName, Text.replaceChar, Text.replaceChar, String.ofList_inj,
    ← List.forall₂_eq_eq_eq, List.forall₂_map_left_iff, List.forall₂_map_right_iff, Blurred]
  simp only [hchar]

/-- What stands before the identifiers of a class of an owner. -/
def classPrefix (owner : String) : String :=
  if owner = "" then "" else ownerClassName owner ++ "."

theorem isEmpty_ownerClassName (owner : String) :
    (ownerClassName owner).isEmpty = decide (owner = "") := by
  rw [Bool.eq_iff_iff, String.isEmpty_iff, decide_eq_true_iff, ownerClassName, Text.replaceChar]
  simp

theorem qualify_ownerClassName (owner identifier : String) :
    qualify (some (ownerClassName owner)) identifier = classPrefix owner ++ identifier := by
  rw [qualify, isEmpty_ownerClassName, classPrefix]
  by_cases h : owner = ""
  · simp [h]
  · simp [h]

/-- The name of a class is told by what stands before its identifiers. -/
theorem classPrefix_eq_iff {a b : String} : classPrefix a = classPrefix b ↔ Blurred a b := by
  have hempty : ∀ {c : String}, ownerClassName c = "" ↔ c = "" := by
    intro c
    rw [← String.isEmpty_iff, isEmpty_ownerClassName, decide_eq_true_iff]
  rw [← ownerClassName_eq_iff, classPrefix, classPrefix]
  split_ifs with ha hb hb
  · simp [ha, hb]
  · rw [hempty.2 ha]
    exact iff_of_false (Ne.symm (by simp)) fun h => hb (hempty.1 h.symm)
  · rw [hempty.2 hb]
    exact iff_of_false (by simp) fun h => ha (hempty.1 h)
  · simp [← String.toList_inj]

/-! ## Classes in a bundle -/

/-- A fragment that is to be in a class and names none. -/
structure Fragment.OwnClass (f : Fragment) : Prop where
  asClass : f.asClass = true
  className : f.className.getD "" = ""

theorem effectiveClassName_eq {className : Option String} (h : className.getD "" = "")
    (owner : String) : effectiveClassName className owner = ownerClassName owner := by
  cases className with
  | none => rfl
  | some c =>
    obtain rfl : c = "" := h
    rfl

/-- The class of an owner in a bundle. -/
def ownSection (g : BundleGroup) (owner : String) : Section :=
  .wrapped (ownerClassName owner) (classMembers g.fragments (ownerClassName owner))

section Sections

variable {g : BundleGroup} {e f : Fragment}

theorem sectionOf_of_ownClass (h : f.OwnClass) :
    sectionOf true g.fragments f = ownSection g f.ownerId := by
  have hname : f.effectiveClassName = ownerClassName f.ownerId :=
    effectiveClassName_eq h.className f.ownerId
  rw [sectionOf, h.asClass, Bool.and_true, if_pos rfl, hname]
  rfl

/-- Such a fragment stands in the class of its owner and in no other section. -/
theorem holds_iff_of_ownClass (hf : f ∈ g.fragments) (h : f.OwnClass) {s : Section}
    (hs : s ∈ sections true g.fragments) : s.Holds f ↔ s = ownSection g f.ownerId := by
  rw [← sectionOf_of_ownClass h]
  constructor
  · intro hholds
    cases s with
    | plain e =>
      obtain rfl : e = f := hholds
      exact absurd (by simp [h.asClass]) (not_wrapped_of_mem_plain hs)
    | wrapped name members =>
      obtain ⟨e, -, he⟩ := mem_sections.1 hs
      rw [sectionOf] at he
      split_ifs at he
      rw [sectionOf, h.asClass, Bool.and_true, if_pos rfl]
      rw [he, (eq_of_mem_wrapped hs hholds).2.symm.trans (Section.wrapped.inj he).1]
  · rintro rfl
    rw [sectionOf, h.asClass, Bool.and_true, if_pos rfl]
    exact List.mem_filter.2 ⟨hf, by simp [h.asClass]⟩

theorem ownSection_mem (hf : f ∈ g.fragments) (h : f.OwnClass) :
    ownSection g f.ownerId ∈ sections true g.fragments :=
  mem_sections.2 ⟨f, hf, (sectionOf_of_ownClass h).symm⟩

theorem ownSection_eq_iff {a b : String} : ownSection g a = ownSection g b ↔ Blurred a b := by
  rw [← ownerClassName_eq_iff]
  refine ⟨fun h => (Section.wrapped.inj h).1, fun h => ?_⟩
  rw [ownSection, ownSection, h]

/-- Two sections that are not blank stand in the text of the bundle, one after the other. -/
theorem exists_render_of_two {classWrapping : Bool} {s s' : Section}
    (hs : s ∈ sections classWrapping g.fragments) (hs' : s' ∈ sections classWrapping g.fragments)
    (hne : s ≠ s') (hblank : Text.isBlankText s.text = false) :
    ∃ before first between second after, [first, second].Perm [s, s'] ∧
      g.render classWrapping = some
        (before ++ first.text ++ "\n" ++ between ++ second.text ++ "\n" ++ after) := by
  let line : Section → String := fun s => s.text ++ "\n"
  obtain ⟨front, first, mid, second, back, hsplit, hperm⟩ := exists_split_of_two hs hs' hne
  refine ⟨bannerStart ++ g.key ++ "\n" ++ String.join (front.map line), first,
    String.join (mid.map line), second, String.join (back.map line), hperm, ?_⟩
  rw [BundleGroup.render_of_mem hs hblank, hsplit]
  simp only [List.map_append, List.map_cons, String.join_append, String.join_cons,
    String.append_assoc, line]

end Sections

/-! ## Classes at run time -/

/-- A site whose identifiers are to be members of a class, and that names none: the site has an
owner, and its host has classes written around scripts. -/
structure World.OwnClass (w : World) (s : Nat) (owner : String) : Prop where
  classWrapping : (w.hosts (w.sites s).host).settings.classWrapping = true
  owner : ∃ o, (w.sites s).owner = some o ∧ o.identity = owner
  parameters : ∃ p, (w.sites s).parameters = some p ∧ p.asClass = true ∧ p.className.getD "" = ""

/-- The identifiers of such a site are members of the class of its owner. -/
theorem World.OwnClass.qualify_eq {w : World} {s : Nat} {owner : String} (h : w.OwnClass s owner)
    (hs : w.Grounded s) (identifier : String) :
    (w.sites s).qualify identifier = classPrefix owner ++ identifier := by
  obtain ⟨p, hp, hclass, hname⟩ := h.parameters
  obtain ⟨c, hc, rfl⟩ := Option.map_eq_some_iff.1 hp
  obtain ⟨o, ho, rfl⟩ := h.owner
  rw [Site.owner, hc, Option.bind_some] at ho
  obtain ⟨_, _, -, hsettles⟩ := hs c hc
  rw [Site.qualify, hc, Option.bind_some, hsettles.className, ho, SiteSettings.className_eq,
    h.classWrapping, hclass, Bool.and_true, if_pos rfl, effectiveClassName_eq hname,
    qualify_ownerClassName]

/-! ## Owners kept apart -/

/-- Where two fragments of a bundle stand that are to be in classes and name none. -/
structure InClasses (g : BundleGroup) (e f : Fragment) : Prop where
  /-- Each stands in one section, the class named after its owner. -/
  first : ∀ s ∈ sections true g.fragments, s.Holds e ↔ s = ownSection g e.ownerId
  second : ∀ s ∈ sections true g.fragments, s.Holds f ↔ s = ownSection g f.ownerId
  mem : ownSection g e.ownerId ∈ sections true g.fragments ∧
    ownSection g f.ownerId ∈ sections true g.fragments
  /-- These are one class only if the owners differ at most in dots and underscores. -/
  same_iff : ownSection g e.ownerId = ownSection g f.ownerId ↔ Blurred e.ownerId f.ownerId
  /-- Otherwise they are written one after the other. -/
  apart : ¬ Blurred e.ownerId f.ownerId → ∃ before s between s' after,
    [s, s'].Perm [ownSection g e.ownerId, ownSection g f.ownerId] ∧ g.render true =
      some (before ++ s.text ++ "\n" ++ between ++ s'.text ++ "\n" ++ after)

/-- How the classes of two owners are told apart. -/
structure ClassesTold (a b : String) : Prop where
  bundle : ∀ g : BundleGroup, ∀ e ∈ g.fragments, ∀ f ∈ g.fragments, e.OwnClass → f.OwnClass →
    e.ownerId = a → f.ownerId = b → InClasses g e f
  /-- At run time the identifiers of sites are members of different classes, unless the owners
  differ at most in dots and underscores. -/
  site : ∀ hosts hostOf engine ms w, (World.initial hosts hostOf engine).course ms = w →
    ∀ s s', w.OwnClass s a → w.OwnClass s' b →
      (∀ identifier, (w.sites s).qualify identifier = classPrefix a ++ identifier) ∧
      (∀ identifier, (w.sites s').qualify identifier = classPrefix b ++ identifier) ∧
      (classPrefix a = classPrefix b ↔ Blurred a b) ∧
      ∀ identifier, (w.sites s).qualify identifier = (w.sites s').qualify identifier ↔ Blurred a b

/-- **Owners are kept apart** as far as their classes have different names, in bundles and at run
time: if they differ in more than dots and underscores. -/
theorem classes_told (a b : String) : ClassesTold a b := by
  refine ⟨?bundle, ?site⟩
  case bundle =>
    rintro g e he f hf hec hfc rfl rfl
    have hes := ownSection_mem he hec
    have hfs := ownSection_mem hf hfc
    refine ⟨fun s => holds_iff_of_ownClass he hec, fun s => holds_iff_of_ownClass hf hfc,
      ⟨hes, hfs⟩, ownSection_eq_iff, fun hnot => ?_⟩
    exact exists_render_of_two hes hfs (ownSection_eq_iff.not.2 hnot) (isBlankText_wrapped _ _)
  case site =>
    rintro hosts hostOf engine ms w rfl s s' ha hb
    have hqa := ha.qualify_eq (World.grounded_course hosts hostOf engine ms s)
    have hqb := hb.qualify_eq (World.grounded_course hosts hostOf engine ms s')
    refine ⟨hqa, hqb, classPrefix_eq_iff, fun identifier => ?_⟩
    rw [hqa, hqb, ← classPrefix_eq_iff, ← String.toList_inj, ← String.toList_inj]
    simp

/-- The owners `App.A_B` and `App.A.B` have one class: their scripts stand in it together, and the
identifiers of their sites are the same. -/
theorem classes_merged :
    let script : String → String → Fragment := fun owner body =>
      ⟨owner, body, true, none, none, true, none, false, false⟩
    let a := script "App.A_B" "static run() \x7b\x7d"
    let b := script "App.A.B" "static stop() \x7b\x7d"
    let host : SiteHost := ⟨{ classWrapping := true }, ⟨"App", ⟨[], []⟩, []⟩, 0⟩
    let nest : Nat → String → Move := fun s owner =>
      .attach s ⟨.info ⟨owner, "App", false⟩, .absent⟩
    let w := (World.initial (fun _ => host) (fun _ => 0) fun _ => .reply .done).course
      [nest 0 "App.A_B", nest 1 "App.A.B", .assign 0 [("GlobalBundle", .bool true)],
        .assign 1 [("GlobalBundle", .bool true)]]
    (a.OwnClass ∧ b.OwnClass ∧ a.ownerId ≠ b.ownerId ∧
      (groupFragments [a, b]).map (sections true ·.fragments) = [[.wrapped "App_A_B" [a, b]]] ∧
      BundleGroup.render true ⟨"index", [a, b]⟩ = some ("// Auto-generated bundle: index\n" ++
        "export class App_A_B \x7b\n  static run() \x7b\x7d\n  static stop() \x7b\x7d\n\x7d\n")) ∧
      w.OwnClass 0 "App.A_B" ∧ w.OwnClass 1 "App.A.B" ∧
      (w.sites 0).qualify "run" = "App_A_B.run" ∧ (w.sites 1).qualify "run" = "App_A_B.run" := by
  intro script a b host nest w
  have howner : (w.sites 0).owner = some ⟨"App.A_B", "App", false⟩ ∧
      (w.sites 1).owner = some ⟨"App.A.B", "App", false⟩ := by decide +kernel
  have hparameters : ∀ s ∈ [0, 1], (w.sites s).parameters.any
      (fun p => p.asClass && p.className.getD "" = "") = true := by decide +kernel
  have hsite : ∀ s ∈ [0, 1], ∃ p, (w.sites s).parameters = some p ∧ p.asClass = true ∧
      p.className.getD "" = "" := fun s hs => by
    simpa only [Option.any_eq_true, Bool.and_eq_true, decide_eq_true_eq] using hparameters s hs
  refine ⟨⟨⟨rfl, rfl⟩, ⟨rfl, rfl⟩, by decide +kernel⟩, ?_, ?_, by decide +kernel⟩
  · exact ⟨rfl, ⟨_, howner.1, rfl⟩, hsite 0 (by simp)⟩
  · exact ⟨rfl, ⟨_, howner.2, rfl⟩, hsite 1 (by simp)⟩

end ScriptBundle
