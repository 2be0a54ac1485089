import Mathlib.Data.List.Induction
import Mathlib.Order.Nat
import ScriptBundle.Bundle.Render
import ScriptBundle.Proofs.Lists
/-!
# The sections of a bundle

One more fragment adds a section to a bundle or joins the class of its name (`sections_concat`). So
each fragment is in the section of its own or of its class (`mem_sections`), and sections stand
where the fragments that start them do (`Sectioned`): each fragment that may not be wrapped, and the
first of each class, in which all fragments of its name follow (`classSection`).
`sections_merged` says what text that makes.
-/

namespace ScriptBundle

/-- The name of the class that a section is. -/
def Section.className? : Section → Option String
  | .plain _ => none
  | .wrapped name _ => some name

/-- A section with one more member, if it is the class of a name. -/
def Section.join (name : String) (f : Fragment) : Section → Section
  | .plain g => .plain g
  | .wrapped n members => .wrapped n (if n = name then members ++ [f] else members)

/-- The class section of a name. -/
def classSection (classWrapping : Bool) (fs : List Fragment) (name : String) : Section :=
  .wrapped name (fs.filter fun f => (classWrapping && f.asClass) && f.effectiveClassName = name)

section Sections

variable {name : String} {f : Fragment} {ss : List Section} {classWrapping : Bool}
  {fs : List Fragment}

/-! ## Classes -/

theorem addToClass_of_notMem (h : name ∉ ss.filterMap Section.className?) :
    addToClass name f ss = ss ++ [.wrapped name [f]] := by
  induction ss with
  | nil => rfl
  | cons s ss ih =>
    cases s with
    | plain g => rw [addToClass, ih (by simpa [Section.className?] using h), List.cons_append]
    | wrapped n members =>
      have h : ¬ name = n ∧ name ∉ ss.filterMap Section.className? := by
        simpa [Section.className?] using h
      rw [addToClass, if_neg (Ne.symm h.1), ih h.2, List.cons_append]

theorem map_join_of_notMem (h : name ∉ ss.filterMap Section.className?) :
    ss.map (Section.join name f) = ss := by
  induction ss with
  | nil => rfl
  | cons s ss ih =>
    cases s with
    | plain g => rw [List.map_cons, ih (by simpa [Section.className?] using h), Section.join]
    | wrapped n members =>
      have h : ¬ name = n ∧ name ∉ ss.filterMap Section.className? := by
        simpa [Section.className?] using h
      rw [List.map_cons, ih h.2, Section.join, if_neg (Ne.symm h.1)]

theorem addToClass_of_mem (hn : (ss.filterMap Section.className?).Nodup)
    (h : name ∈ ss.filterMap Section.className?) :
    addToClass name f ss = ss.map (Section.join name f) := by
  induction ss with
  | nil => cases h
  | cons s ss ih =>
    cases s with
    | plain g => rw [addToClass, List.map_cons, ih hn h, Section.join]
    | wrapped n members =>
      obtain ⟨hnot, hn⟩ : n ∉ ss.filterMap Section.className? ∧
          (ss.filterMap Section.className?).Nodup := List.nodup_cons.1 hn
      rw [addToClass, List.map_cons, Section.join]
      split_ifs with heq
      · subst heq
        rw [map_join_of_notMem hnot]
      · have h : name ∈ ss.filterMap Section.className? :=
          (List.mem_cons.1 h).resolve_left (Ne.symm heq)
        rw [ih hn h]

theorem classSection_of_wrapped (hf : (classWrapping && f.asClass) = true) (name : String) :
    classSection classWrapping (fs ++ [f]) name =
      (classSection classWrapping fs name).join f.effectiveClassName f := by
  rw [classSection, List.filter_append, List.filter_cons, List.filter_nil, hf, Bool.true_and,
    classSection, Section.join]
  by_cases hname : name = f.effectiveClassName
  · rw [if_pos hname, if_pos (by simp [hname])]
  · rw [if_neg hname, if_neg (by simpa using Ne.symm hname), List.append_nil]

theorem classSection_of_plain (hf : ¬ (classWrapping && f.asClass) = true) :
    classSection classWrapping (fs ++ [f]) = classSection classWrapping fs := by
  funext name
  rw [classSection, List.filter_append, List.filter_cons_of_neg (by simp [hf]), List.filter_nil,
    List.append_nil, classSection]

/-! ## One more fragment -/

theorem sections_append_singleton (classWrapping : Bool) (fs : List Fragment) (f : Fragment) :
    sections classWrapping (fs ++ [f]) =
      addSection classWrapping f (sections classWrapping fs) := by
  rw [sections, List.foldl_append]
  rfl

theorem className?_addToClass (name : String) (f : Fragment) (ss : List Section) :
    (addToClass name f ss).filterMap Section.className? =
      if name ∈ ss.filterMap Section.className? then ss.filterMap Section.className?
      else ss.filterMap Section.className? ++ [name] := by
  by_cases h : name ∈ ss.filterMap Section.className?
  · rw [if_pos h]
    induction ss with
    | nil => cases h
    | cons s ss ih =>
      cases s with
      | plain g => exact ih h
      | wrapped n members =>
        rw [addToClass]
        split_ifs with hn
        · rfl
        · exact congrArg (n :: ·) (ih ((List.mem_cons.1 h).resolve_left (Ne.symm hn)))
  · rw [if_neg h, addToClass_of_notMem h, List.filterMap_append]
    rfl

/-- The names of the classes of a bundle. -/
def classNames (classWrapping : Bool) (fs : List Fragment) : List String :=
  (sections classWrapping fs).filterMap Section.className?

theorem classNames_concat (classWrapping : Bool) (fs : List Fragment) (f : Fragment) :
    classNames classWrapping (fs ++ [f]) =
      if (classWrapping && f.asClass) = true ∧ f.effectiveClassName ∉ classNames classWrapping fs
      then classNames classWrapping fs ++ [f.effectiveClassName]
      else classNames classWrapping fs := by
  rw [classNames, sections_append_singleton, addSection]
  by_cases hf : (classWrapping && f.asClass) = true
  · rw [if_pos hf, className?_addToClass, ← classNames]
    simp only [hf, true_and, ite_not]
  · rw [if_neg hf, List.filterMap_append, ← classNames, if_neg fun h => hf h.1]
    exact List.append_nil _

/-- No two classes of a bundle have the same name, -/
theorem nodup_classNames (classWrapping : Bool) (fs : List Fragment) :
    (classNames classWrapping fs).Nodup := by
  induction fs using List.reverseRecOn with
  | nil => exact .nil
  | append_singleton fs f ih =>
    rw [classNames_concat]
    split_ifs with h
    · rw [← List.concat_eq_append]
      exact ih.concat h.2
    · exact ih

/-- and there is a class for each name of a fragment that may be wrapped. -/
theorem mem_classNames : name ∈ classNames classWrapping fs ↔
    ∃ f ∈ fs, (classWrapping && f.asClass) = true ∧ f.effectiveClassName = name := by
  induction fs using List.reverseRecOn with
  | nil => simp [classNames, sections]
  | append_singleton fs f ih =>
    have hstep : name ∈ classNames classWrapping (fs ++ [f]) ↔
        name ∈ classNames classWrapping fs ∨
          (classWrapping && f.asClass) = true ∧ f.effectiveClassName = name := by
      rw [classNames_concat]
      split_ifs with h
      · rw [List.mem_append, List.mem_singleton, and_iff_right h.1, eq_comm]
      · refine (or_iff_left_of_imp ?_).symm
        rintro ⟨hf, rfl⟩
        exact of_not_not fun hmem => h ⟨hf, hmem⟩
    simp only [hstep, ih, List.mem_append, List.mem_singleton, or_and_right, exists_or,
      exists_eq_left]

/-- The class that a fragment opens. -/
theorem classSection_of_opens (hf : (classWrapping && f.asClass) = true)
    (hnot : f.effectiveClassName ∉ classNames classWrapping fs) :
    classSection classWrapping (fs ++ [f]) f.effectiveClassName =
      .wrapped f.effectiveClassName [f] := by
  have hnone : ∀ e ∈ fs, ¬ ((classWrapping && e.asClass) &&
      e.effectiveClassName = f.effectiveClassName) = true := by
    intro e he hname
    exact hnot (mem_classNames.2 ⟨e, he, by simpa using hname⟩)
  rw [classSection_of_wrapped hf, classSection, List.filter_eq_nil_iff.2 hnone, Section.join,
    if_pos rfl, List.nil_append]

/-- One more fragment stands on its own, joins the class of its name or opens it. -/
theorem sections_concat (classWrapping : Bool) (fs : List Fragment) (f : Fragment) :
    sections classWrapping (fs ++ [f]) =
      if (classWrapping && f.asClass) = true then
        if f.effectiveClassName ∈ classNames classWrapping fs then
          (sections classWrapping fs).map (Section.join f.effectiveClassName f)
        else sections classWrapping fs ++ [.wrapped f.effectiveClassName [f]]
      else sections classWrapping fs ++ [.plain f] := by
  rw [sections_append_singleton, addSection]
  split_ifs with hf hmem
  · exact addToClass_of_mem (nodup_classNames classWrapping fs) hmem
  · exact addToClass_of_notMem hmem
  · rfl

/-! ## Which sections there are -/

/-- The sections of fragments: a plain one for each that may not be wrapped, and the classes. -/
theorem sections_perm (classWrapping : Bool) (fs : List Fragment) :
    (sections classWrapping fs).Perm
      ((fs.filter fun f => !(classWrapping && f.asClass)).map Section.plain ++
        (classNames classWrapping fs).map (classSection classWrapping fs)) := by
  induction fs using List.reverseRecOn with
  | nil => exact .refl _
  | append_singleton fs f ih =>
    rw [sections_concat, classNames_concat, List.filter_append]
    by_cases hf : (classWrapping && f.asClass) = true
    · rw [if_pos hf, List.filter_cons_of_neg (by simp [hf]), List.filter_nil, List.append_nil]
      by_cases hmem : f.effectiveClassName ∈ classNames classWrapping fs
      · rw [if_pos hmem, if_neg fun h => h.2 hmem]
        refine (ih.map _).trans (.of_eq ?_)
        rw [List.map_append, List.map_map, List.map_map]
        exact congrArg _ (List.map_congr_left fun name _ => (classSection_of_wrapped hf name).symm)
      · have hothers : (classNames classWrapping fs).map (classSection classWrapping (fs ++ [f])) =
            (classNames classWrapping fs).map (classSection classWrapping fs) := by
          refine List.map_congr_left fun name hname => ?_
          rw [classSection_of_wrapped hf, classSection, Section.join, if_neg]
          rintro rfl
          exact hmem hname
        rw [if_neg hmem, if_pos ⟨hf, hmem⟩, List.map_append, List.map_singleton, hothers,
          classSection_of_opens hf hmem, ← List.append_assoc]
        exact ih.append_right _
    · rw [if_neg hf, if_neg fun h => hf h.1, classSection_of_plain hf,
        List.filter_cons_of_pos (by simp only [Bool.eq_false_iff.2 hf, Bool.not_false]),
        List.filter_nil, List.map_append, List.map_singleton, List.append_assoc]
      refine (ih.append_right _).trans ?_
      rw [List.append_assoc]
      exact .append_left _ List.perm_append_comm

/-- The section that a fragment is in. -/
def sectionOf (classWrapping : Bool) (fs : List Fragment) (f : Fragment) : Section :=
  if classWrapping && f.asClass then classSection classWrapping fs f.effectiveClassName
  else .plain f

theorem mem_sections {s : Section} :
    s ∈ sections classWrapping fs ↔ ∃ f ∈ fs, s = sectionOf classWrapping fs f := by
  rw [(sections_perm classWrapping fs).mem_iff, List.mem_append, List.mem_map, List.mem_map]
  constructor
  · rintro (⟨f, hf, rfl⟩ | ⟨name, hname, rfl⟩)
    · obtain ⟨hf, hw⟩ := List.mem_filter.1 hf
      rw [Bool.not_eq_true'] at hw
      exact ⟨f, hf, by rw [sectionOf, hw, if_neg Bool.false_ne_true]⟩
    · obtain ⟨f, hf, hw, rfl⟩ := mem_classNames.1 hname
      exact ⟨f, hf, by rw [sectionOf, if_pos hw]⟩
  · rintro ⟨f, hf, rfl⟩
    rw [sectionOf]
    split_ifs with hw
    · exact .inr ⟨_, mem_classNames.2 ⟨f, hf, hw, rfl⟩, rfl⟩
    · rw [Bool.not_eq_true, ← Bool.not_eq_true'] at hw
      exact .inl ⟨f, List.mem_filter.2 ⟨hf, hw⟩, rfl⟩

/-! ## Where sections stand -/

/-- The fragment at a place starts a section: it may not be wrapped, or no fragment of its class
stands before it. -/
def StartsSection (classWrapping : Bool) (fs : List Fragment) (n : Nat) : Prop :=
  ∃ f, fs[n]? = some f ∧ ((classWrapping && f.asClass) = true → ∀ e ∈ fs.take n,
    (classWrapping && e.asClass) = true → e.effectiveClassName ≠ f.effectiveClassName)

/-- The sections of fragments are those that start at `places`. -/
structure Sectioned (classWrapping : Bool) (fs : List Fragment) (places : List Nat) : Prop where
  ordered : places.Pairwise (· < ·)
  mem_iff : ∀ n, n ∈ places ↔ StartsSection classWrapping fs n
  forall₂ : List.Forall₂ (fun n s => ∃ f, fs[n]? = some f ∧ s = sectionOf classWrapping fs f)
    places (sections classWrapping fs)

theorem sectionOf_of_wrapped (hf : (classWrapping && f.asClass) = true) (e : Fragment) :
    sectionOf classWrapping (fs ++ [f]) e =
      (sectionOf classWrapping fs e).join f.effectiveClassName f := by
  rw [sectionOf, sectionOf]
  split_ifs
  · exact classSection_of_wrapped hf e.effectiveClassName
  · rfl

theorem sectionOf_of_plain (hf : ¬ (classWrapping && f.asClass) = true) :
    sectionOf classWrapping (fs ++ [f]) = sectionOf classWrapping fs := by
  funext e
  rw [sectionOf, sectionOf, classSection_of_plain hf]

theorem StartsSection.lt {n : Nat} (h : StartsSection classWrapping fs n) : n < fs.length := by
  obtain ⟨f, hf, -⟩ := h
  exact (List.getElem?_eq_some_iff.1 hf).1

/-- One more fragment starts a section unless there is a class for it. -/
theorem startsSection_concat (classWrapping : Bool) (fs : List Fragment) (f : Fragment) (n : Nat) :
    StartsSection classWrapping (fs ++ [f]) n ↔ StartsSection classWrapping fs n ∨
      n = fs.length ∧ ((classWrapping && f.asClass) = true →
        f.effectiveClassName ∉ classNames classWrapping fs) := by
  rcases lt_trichotomy n fs.length with hlt | rfl | hlt
  · rw [or_iff_left fun h => hlt.ne h.1, StartsSection, List.getElem?_append_left hlt,
      List.take_append_of_le_length hlt.le]
    rfl
  · rw [or_iff_right fun h => lt_irrefl _ h.lt, and_iff_right rfl, StartsSection,
      List.getElem?_concat_length, List.take_left]
    simp only [Option.some.injEq, exists_eq_left', mem_classNames, not_exists, not_and, ne_eq]
  · refine iff_of_false (fun h => ?_) fun h => ?_
    · have hle := h.lt
      rw [List.length_append, List.length_singleton] at hle
      omega
    · rcases h with h | ⟨rfl, -⟩
      · exact lt_asymm hlt h.lt
      · exact lt_irrefl _ hlt

namespace Sectioned

variable {places : List Nat}

/-- A fragment that starts a section adds its place. -/
theorem concat (h : Sectioned classWrapping fs places)
    (hstarts : (classWrapping && f.asClass) = true →
      f.effectiveClassName ∉ classNames classWrapping fs)
    (hss : List.Forall₂ (fun n s => ∃ g, (fs ++ [f])[n]? = some g ∧
      s = sectionOf classWrapping (fs ++ [f]) g) places ss)
    (heq : sections classWrapping (fs ++ [f]) = ss ++ [sectionOf classWrapping (fs ++ [f]) f]) :
    Sectioned classWrapping (fs ++ [f]) (places ++ [fs.length]) := by
  refine ⟨?_, fun n => ?_, ?_⟩
  · refine List.pairwise_append.2 ⟨h.ordered, List.pairwise_singleton _ _, fun n hn m hm => ?_⟩
    rw [List.mem_singleton.1 hm]
    exact ((h.mem_iff n).1 hn).lt
  · rw [startsSection_concat, List.mem_append, List.mem_singleton, h.mem_iff,
      and_iff_left hstarts]
  · rw [heq]
    exact List.rel_append hss (.cons ⟨f, List.getElem?_concat_length, rfl⟩ .nil)

/-- The other sections are as they were, but for that which a fragment joins. -/
theorem map_join (h : Sectioned classWrapping fs places)
    (hf : (classWrapping && f.asClass) = true) :
    List.Forall₂ (fun n s => ∃ g, (fs ++ [f])[n]? = some g ∧
      s = sectionOf classWrapping (fs ++ [f]) g) places
      ((sections classWrapping fs).map (Section.join f.effectiveClassName f)) := by
  refine List.forall₂_map_right_iff.2 (h.forall₂.imp ?_)
  rintro n _ ⟨g, hg, rfl⟩
  refine ⟨g, ?_, (sectionOf_of_wrapped hf g).symm⟩
  rw [List.getElem?_append_left (List.getElem?_eq_some_iff.1 hg).1, hg]

end Sectioned

theorem exists_sectioned (classWrapping : Bool) (fs : List Fragment) :
    ∃ places, Sectioned classWrapping fs places := by
  induction fs using List.reverseRecOn with
  | nil => exact ⟨[], .nil, by simp [StartsSection], .nil⟩
  | append_singleton fs f ih =>
    obtain ⟨places, h⟩ := ih
    by_cases hf : (classWrapping && f.asClass) = true
    · by_cases hmem : f.effectiveClassName ∈ classNames classWrapping fs
      · refine ⟨places, h.ordered, fun n => ?_, ?_⟩
        · rw [h.mem_iff, startsSection_concat]
          exact (or_iff_left fun hn => hn.2 hf hmem).symm
        · rw [sections_concat, if_pos hf, if_pos hmem]
          exact h.map_join hf
      · have hss := h.map_join hf
        rw [map_join_of_notMem hmem] at hss
        refine ⟨_, h.concat (fun _ => hmem) hss ?_⟩
        rw [sections_concat, if_pos hf, if_neg hmem, sectionOf, if_pos hf,
          classSection_of_opens hf hmem]
    · refine ⟨_, h.concat (absurd · hf) (h.forall₂.imp ?_) ?_⟩
      · rintro n _ ⟨g, hg, rfl⟩
        rw [List.getElem?_append_left (List.getElem?_eq_some_iff.1 hg).1, sectionOf_of_plain hf]
        exact ⟨g, hg, rfl⟩
      · rw [sections_concat, if_neg hf, sectionOf, if_neg hf]

end Sections

/-! ## The text of sections -/

/-- The fragments of a class. -/
def classMembers (fs : List Fragment) (name : String) : List Fragment :=
  fs.filter fun f => f.asClass && f.effectiveClassName = name

/-- The lines of fragments, indented unless they are empty. -/
def memberLines (fs : List Fragment) : List String :=
  fs.flatMap fun f => (Text.lines f.body).map fun line => if line = "" then "" else "  " ++ line

/-- A class with lines in it. -/
def classText (name : String) (asInstance published : Bool) (lines : List String) : String :=
  (if asInstance then "export const " ++ name ++ " = new (class " ++ name ++ " \x7b"
    else "export class " ++ name ++ " \x7b") ++ "\n" ++
  "\n".intercalate lines ++ "\n" ++ (if asInstance then "\x7d)();" else "\x7d") ++
  (if published then "\n" ++ "globalThis." ++ name ++ " = " ++ name ++ ";" else "")

/-- What stands in a bundle where a fragment starts a section. -/
inductive SectionText (fs : List Fragment) (f : Fragment) : String → Prop
  /-- A fragment that is not to be a class stands as it is. -/
  | plain (h : f.asClass = false) : SectionText fs f f.body
  /-- For one that is, its class stands there, as an instance if one of the fragments of the class
  asks for that, and published if one asks for that. -/
  | wrapped (h : f.asClass = true) {asInstance published : Bool}
      (instance_iff : asInstance = true ↔
        ∃ g ∈ classMembers fs f.effectiveClassName, g.addAsInstance = true)
      (published_iff : published = true ↔
        ∃ g ∈ classMembers fs f.effectiveClassName, g.addToGlobal = true) :
      SectionText fs f (classText f.effectiveClassName asInstance published
        (memberLines (classMembers fs f.effectiveClassName)))

/-- The sections of a bundle in which fragments are merged into classes. -/
structure Merges (fs : List Fragment) (places : List Nat) (texts : List String) : Prop where
  /-- Sections come in the order of the fragments that start them, -/
  ordered : places.Pairwise (· < ·)
  /-- which are those that are not to be classes, and the first of each class. -/
  mem_iff : ∀ n, n ∈ places ↔ ∃ f, fs[n]? = some f ∧ (f.asClass = true → ∀ e ∈ fs.take n,
    e.asClass = true → e.effectiveClassName ≠ f.effectiveClassName)
  /-- So there is one class for each name. -/
  once : ∀ f ∈ fs, f.asClass = true → ∃! n, n ∈ places ∧
    ∃ g, fs[n]? = some g ∧ g.asClass = true ∧ g.effectiveClassName = f.effectiveClassName
  texts : List.Forall₂ (fun n text => ∃ f, fs[n]? = some f ∧ SectionText fs f text) places texts

theorem flatMap_indentLine (fs : List Fragment) :
    (fs.flatMap fun f => (Text.lines f.body).map indentLine) = memberLines fs := by
  have hindent : indentLine = fun line => if line = "" then "" else "  " ++ line := by
    funext line
    rw [indentLine]
    split_ifs <;> simp_all
  rw [hindent, memberLines]

theorem text_wrapped (name : String) (members : List Fragment) :
    (Section.wrapped name members).text = classText name (members.any (·.addAsInstance))
      (members.any (·.addToGlobal)) (memberLines members) := by
  rw [Section.text, classLines, flatMap_indentLine, classText]
  split_ifs <;> simp only [List.cons_append, List.nil_append, String.intercalate_cons_cons,
    String.intercalate_singleton, String.append_assoc, String.append_empty]

/-- A section has the text that is due to the fragment that starts it. -/
theorem sectionText_sectionOf (fs : List Fragment) (f : Fragment) :
    SectionText fs f (sectionOf true fs f).text := by
  cases hf : f.asClass with
  | false =>
    rw [sectionOf, hf, Bool.and_false, if_neg Bool.false_ne_true]
    exact .plain hf
  | true =>
    rw [sectionOf, hf, Bool.and_true, if_pos rfl, classSection, text_wrapped]
    exact .wrapped hf List.any_eq_true List.any_eq_true

/-- A class has one place. -/
theorem Sectioned.exists_unique_place {fs : List Fragment} {places : List Nat}
    (h : Sectioned true fs places) {f : Fragment} (hmem : f ∈ fs) (hf : f.asClass = true) :
    ∃! n, n ∈ places ∧
      ∃ g, fs[n]? = some g ∧ g.asClass = true ∧ g.effectiveClassName = f.effectiveClassName := by
  obtain ⟨lead, e, trail, rfl, hlead, he⟩ := exists_first_not
    (P := fun e : Fragment => e.asClass = true → e.effectiveClassName ≠ f.effectiveClassName)
    fun hne => hne f hmem hf rfl
  obtain ⟨he, hname⟩ : e.asClass = true ∧ e.effectiveClassName = f.effectiveClassName := by
    simpa using he
  have hget : (lead ++ e :: trail)[lead.length]? = some e := by simp
  refine ⟨lead.length, ⟨(h.mem_iff _).2 ⟨e, hget, fun _ g hg hgc => ?_⟩, e, hget, he, hname⟩, ?_⟩
  · rw [List.take_left] at hg
    rw [hname]
    exact hlead g hg hgc
  · rintro n ⟨hn, g, hg, hgc, hgname⟩
    obtain ⟨g', hg', hfirst⟩ := (h.mem_iff n).1 hn
    obtain rfl := Option.some.inj (hg.symm.trans hg')
    rcases lt_trichotomy n lead.length with hlt | heq | hlt
    · rw [List.getElem?_append_left hlt] at hg
      exact absurd hgname (hlead g (List.mem_of_getElem? hg) hgc)
    · exact heq
    · refine absurd (hname.trans hgname.symm) (hfirst hgc e ?_ he)
      exact List.mem_take_iff_getElem.2 ⟨lead.length, by simp; omega, by simp⟩

/-- **Class wrapping merges scripts.** A bundle holds each script that is not to be a class as it
is, and where the first script of a class stands it holds the class, with the lines of all scripts
of that name in the order of the fragments. -/
theorem sections_merged (g : BundleGroup) : ∃ places texts, Merges g.fragments places texts ∧
    (sections true g.fragments).map Section.text = texts ∧
    g.render true =
      if Text.isBlankText (String.join (texts.map (· ++ "\n"))) then none
      else some (bannerStart ++ g.key ++ "\n" ++ String.join (texts.map (· ++ "\n"))) := by
  obtain ⟨places, h⟩ := exists_sectioned true g.fragments
  refine ⟨places, _, ?merges, rfl, ?render⟩
  case merges =>
    refine
      { ordered := h.ordered
        mem_iff := h.mem_iff
        once := fun f hmem hf => h.exists_unique_place hmem hf
        texts := List.forall₂_map_right_iff.2 (h.forall₂.imp ?_) }
    rintro n _ ⟨f, hf, rfl⟩
    exact ⟨f, hf, sectionText_sectionOf g.fragments f⟩
  case render =>
    rw [BundleGroup.render, List.map_map]
    rfl

/-- A script that joins its class over one that stands on its own. -/
example :
    let f : String → Bool → Fragment := fun body asClass =>
      ⟨"App", body, true, some "index", none, asClass, some "K", false, false⟩
    BundleGroup.render true ⟨"index", [f "a()\n\nb()" true, f "c()" false, f "d()" true]⟩ =
      some ("// Auto-generated bundle: index\nexport class K \x7b\n  a()\n\n  b()\n  d()\n\x7d\n" ++
        "c()\n") := by
  decide +kernel

end ScriptBundle
