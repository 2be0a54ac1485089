import Mathlib.Logic.Relation
import ScriptBundle.Proofs.RenderFiles
import ScriptBundle.Proofs.Tree.Names
/-!
# The sources of a project

The places that the sources of a manifest lead to decide which render files are found, and nothing
else about the sources does: another manifest finds the same if each of its sources leads to a place
of the first manifest or below one, and the other way round (`Tree.discover_of_within`). Neither the
order of sources nor how often one is named matters then, and nor does a source inside another one.
A part of a path that stays where it is, or goes to a name and back, does not change where the path
leads (`Respells.sameWay`).
-/

namespace ScriptBundle

/-! ## The order of render files -/

namespace Path

variable {p q : Path}

theorem compareParts_eq_lt (hs : p.slashes = q.slashes) (hle : p.le q = true) (hne : p ≠ q) :
    compareParts p.parts q.parts = .lt := by
  cases hc : compareParts p.parts q.parts with
  | lt => rfl
  | eq => exact absurd (congrArg₂ Path.mk hs (Std.LawfulEqCmp.eq_of_compare hc)) hne
  | gt =>
    rw [le, hc] at hle
    cases hle

/-- Of two paths in an ordered list the first comes before the second. -/
theorem Ordered.increasing {ps : List Path} (h : Ordered ps) :
    ps.Pairwise fun p q => compareParts p.parts q.parts = .lt := by
  refine (h.sorted.and h.nodup).imp_of_mem fun {p q} hp hq ⟨hle, hne⟩ => ?_
  exact compareParts_eq_lt ((h.absolute p hp).trans (h.absolute q hq).symm) hle hne

/-- An ordered list is what sorting leads to from its members. -/
theorem Ordered.sortPaths_eq {ps qs : List Path} (h : Ordered ps) (hsub : ∀ p ∈ qs, p ∈ ps)
    (hsub' : ∀ p ∈ ps, p ∈ qs) : sortPaths qs = ps :=
  (ordered_sortPaths fun p hp => h.absolute p (hsub p hp)).ext h fun p =>
    mem_sortPaths.trans ⟨hsub p, hsub' p⟩

end Path

/-! ## Where paths lead -/

namespace Path

/-- Two paths go the same way from everywhere. -/
structure SameWay (p q : Path) : Prop where
  isAbsolute : p.isAbsolute = q.isAbsolute
  hasNul : p.hasNul = q.hasNul
  steps : ∀ acc, p.parts.foldl normalStep acc = q.parts.foldl normalStep acc

namespace SameWay

variable {p q r : Path}

theorem refl (p : Path) : SameWay p p := ⟨rfl, rfl, fun _ => rfl⟩

theorem symm (h : SameWay p q) : SameWay q p :=
  ⟨h.isAbsolute.symm, h.hasNul.symm, fun acc => (h.steps acc).symm⟩

theorem trans (h : SameWay p q) (h' : SameWay q r) : SameWay p r :=
  ⟨h.isAbsolute.trans h'.isAbsolute, h.hasNul.trans h'.hasNul,
    fun acc => (h.steps acc).trans (h'.steps acc)⟩

theorem resolve (h : SameWay p q) (base : Path) : Path.resolve base p = Path.resolve base q := by
  rw [Path.resolve, Path.resolve, join, join, h.isAbsolute]
  split_ifs
  · rw [h.steps]
  · rw [List.foldl_append, List.foldl_append, h.steps]

end SameWay

/-- Components that lead back to where they start. -/
structure Still (ds : List String) : Prop where
  steps : ∀ acc, ds.foldl normalStep acc = acc
  hasNul : (Path.mk 0 ds).hasNul = false

theorem still_nil : Still [] := ⟨fun _ => rfl, rfl⟩

theorem still_back {n : String} (hdots : n ≠ "..") (hnul : '\x00' ∉ n.toList) :
    Still [n, ".."] where
  steps acc := by simp [normalStep, hdots]
  hasNul := by simp [hasNul, hnul]

/-- Components that lead back to where they start can be left out. -/
theorem Still.sameWay {p q : Path} {ps ds qs : List String} (hd : Still ds)
    (habsolute : p.isAbsolute = q.isAbsolute) (hp : p.parts = ps ++ qs)
    (hq : q.parts = ps ++ ds ++ qs) : SameWay p q where
  isAbsolute := habsolute
  hasNul := by
    have hnul : ds.any (fun s => s.toList.contains '\x00') = false := hd.hasNul
    rw [Path.hasNul, Path.hasNul, hp, hq, List.any_append, List.any_append, List.any_append, hnul,
      Bool.or_false]
  steps acc := by
    rw [hp, hq, List.foldl_append, List.foldl_append, List.foldl_append, hd.steps]

/-! ## Spellings of a path -/

/-- A path starts at the root if there is a slash in front. -/
theorem isAbsolute_ofString (s : String) :
    (ofString s).isAbsolute = (s.toList.head? == some '/') := by
  rw [isAbsolute, ofString, slashesOf.eq_def]
  cases h : s.toList with
  | nil => rfl
  | cons c cs => split <;> simp_all

theorem isAbsolute_append (s s' : String) : (ofString (s ++ "/" ++ s')).isAbsolute =
    (s.toList.isEmpty || (ofString s).isAbsolute) := by
  rw [isAbsolute_ofString, isAbsolute_ofString, String.toList_append, String.toList_append]
  cases s.toList <;> rfl

end Path

/-- A text that leads nowhere as part of a path: it stays where it is, or goes to a name and
back. -/
inductive Idle : String → Prop
  | stay : Idle "."
  | back {n : String} (hempty : n ≠ "") (hdot : n ≠ ".") (hdots : n ≠ "..")
      (hslash : '/' ∉ n.toList) (hnul : '\x00' ∉ n.toList) : Idle (n ++ "/..")

namespace Idle

variable {d : String}

theorem still (h : Idle d) : Path.Still (Path.partsOf d) := by
  cases h with
  | stay => exact Path.still_nil
  | @back n hempty hdot hdots hslash hnul =>
    have hparts : Path.partsOf (n ++ "/" ++ "..") = [n, ".."] := by
      rw [Path.partsOf_append, Path.partsOf_of_notMem hslash hempty hdot]
      rfl
    rw [show n ++ "/.." = n ++ "/" ++ ".." by rw [String.append_assoc]; rfl, hparts]
    exact Path.still_back hdots hnul

/-- There is no slash in front. -/
theorem exists_cons (h : Idle d) : ∃ c cs, d.toList = c :: cs ∧ c ≠ '/' := by
  cases h with
  | stay => exact ⟨'.', [], rfl, by decide⟩
  | @back n hempty hdot hdots hslash hnul =>
    cases hn : n.toList with
    | nil => exact absurd (String.toList_inj.1 hn) hempty
    | cons c cs =>
      refine ⟨c, cs ++ "/..".toList, by rw [String.toList_append, hn, List.cons_append], ?_⟩
      rintro rfl
      exact hslash (hn ▸ List.mem_cons_self)

theorem isAbsolute_append (h : Idle d) (s : String) :
    (Path.ofString (d ++ "/" ++ s)).isAbsolute = false := by
  obtain ⟨c, cs, hd, hc⟩ := h.exists_cons
  rw [Path.isAbsolute_append, Path.isAbsolute_ofString, hd]
  simpa using hc

end Idle

/-- A text has another one as a spelling with one part more that leads nowhere, or with one slash
more at its end. -/
inductive Respells : String → String → Prop
  | front {d s : String} (hd : Idle d) (hs : (Path.ofString s).isAbsolute = false) :
      Respells s (d ++ "/" ++ s)
  | inside {d : String} (hd : Idle d) (s s' : String) :
      Respells (s ++ "/" ++ s') (s ++ "/" ++ d ++ "/" ++ s')
  | back {d s : String} (hd : Idle d) (hs : s ≠ "") : Respells s (s ++ "/" ++ d)
  | slash {s : String} (hs : s ≠ "") : Respells s (s ++ "/")

/-- Another spelling leads to the same place. -/
theorem Respells.sameWay {s s' : String} (h : Respells s s') :
    Path.SameWay (Path.ofString s) (Path.ofString s') := by
  have habsolute : ∀ {s : String}, s ≠ "" → ∀ d,
      (Path.ofString s).isAbsolute = (Path.ofString (s ++ "/" ++ d)).isAbsolute := fun hs d => by
    rw [Path.isAbsolute_append, List.isEmpty_eq_false_iff.2 (by simpa using hs), Bool.false_or]
  cases h with
  | @front d s hd hs =>
    refine hd.still.sameWay (hs.trans (hd.isAbsolute_append s).symm) (List.nil_append _).symm ?_
    exact (Path.partsOf_append d s).trans (congrArg (· ++ _) (List.nil_append _).symm)
  | @inside d hd s s' =>
    have hassoc : s ++ "/" ++ d ++ "/" ++ s' = s ++ "/" ++ (d ++ "/" ++ s') := by
      simp only [String.append_assoc]
    refine hd.still.sameWay ?_ (Path.partsOf_append s s') ?_
    · rw [hassoc, Path.isAbsolute_append, Path.isAbsolute_append]
    · exact (Path.partsOf_append ..).trans (congrArg (· ++ _) (Path.partsOf_append ..))
  | @back d s hd hs =>
    refine hd.still.sameWay (habsolute hs d) (List.append_nil _).symm ?_
    exact (Path.partsOf_append s d).trans (List.append_nil _).symm
  | @slash s hs =>
    refine Path.still_nil.sameWay ?_ (List.append_nil _).symm ?_
    · simpa using habsolute hs ""
    · have hparts := Path.partsOf_append s ""
      rw [String.append_empty, show Path.partsOf "" = [] from rfl] at hparts
      simpa [Path.ofString] using hparts

/-- Another spelling of a source, by any number of such parts and slashes more or less. -/
def Respelled : String → String → Prop := Relation.EqvGen Respells

theorem Respelled.sameWay {s s' : String} (h : Respelled s s') :
    Path.SameWay (Path.ofString s) (Path.ofString s') := by
  induction h with
  | rel s s' h => exact h.sameWay
  | refl s => exact .refl _
  | symm s s' _ ih => exact ih.symm
  | trans s s' s'' _ _ ih ih' => exact ih.trans ih'

/-! ## Where sources lead -/

/-- A source leads to where one of a manifest leads, or below that. -/
def Manifest.Reaches (m : Manifest) (root : Path) (rel : String) : Prop :=
  ∃ rel', .string rel' ∈ m.sources ∧ ∃ ns, Path.resolve root (Path.ofString rel) =
    (Path.resolve root (Path.ofString rel')).below ns

/-- Each source of the first manifest leads to where one of the second leads, or below that. -/
def Manifest.Within (root : Path) (m m' : Manifest) : Prop :=
  ∀ rel, .string rel ∈ m.sources → m'.Reaches root rel

theorem Manifest.reaches_of_resolve {m : Manifest} {root : Path} {rel rel' : String}
    (hrel' : .string rel' ∈ m.sources) (h : Path.resolve root (Path.ofString rel) =
      Path.resolve root (Path.ofString rel')) : m.Reaches root rel :=
  ⟨rel', hrel', [], by rw [Path.below_nil, h]⟩

theorem Manifest.Covers.within {root p : Path} {m m' : Manifest} (h : m.Covers root p)
    (hw : Manifest.Within root m m') : m'.Covers root p := by
  obtain ⟨⟨rel, hrel, ns, hns, rfl⟩, hplain, hname⟩ := h
  obtain ⟨rel', hrel', ms, heq⟩ := hw rel hrel
  refine ⟨⟨rel', hrel', ms ++ ns, by simp [hns], ?_⟩, hplain, hname⟩
  rw [heq, Path.below_append]

/-- The sources of the second manifest are those of the first in other spellings, whatever their
order and number. -/
structure Manifest.Respelled (m m' : Manifest) : Prop where
  forth : ∀ rel, .string rel ∈ m.sources →
    ∃ rel', .string rel' ∈ m'.sources ∧ ScriptBundle.Respelled rel rel'
  back : ∀ s' ∈ m'.sources, ∃ rel', s' = .string rel' ∧
    ∃ rel, .string rel ∈ m.sources ∧ ScriptBundle.Respelled rel rel'

namespace Tree

/-- The file system can tell whether something stands where a source leads. -/
def LooksUp (t : Tree) (root : Path) (rel : String) : Prop :=
  (Path.ofString rel).hasNul = false ∧
    ∃ found, t.existsAt (Path.resolve root (Path.ofString rel)) = .ok found

variable {t : Tree} {root p : Path} {m m' : Manifest} {files : List Path}

theorem LooksUp.sameWay {rel rel' : String} (h : t.LooksUp root rel)
    (hway : Path.SameWay (Path.ofString rel) (Path.ofString rel')) : t.LooksUp root rel' := by
  rw [LooksUp, ← hway.hasNul, ← hway.resolve]
  exact h

theorem searchable_iff : t.Searchable root m ↔
    ∀ s ∈ m.sources, ∃ rel, s = .string rel ∧ t.LooksUp root rel := by
  simp only [Searchable, LooksUp, exists_and_left]

/-- Two manifests whose sources lead to the same places, or to places inside those, find the
same. -/
theorem discover_of_within (ht : t.WellFormed) (h : (t.discover root m).result = .ok files)
    (hm' : t.Searchable root m') (hw : Manifest.Within root m m')
    (hw' : Manifest.Within root m' m) : (t.discover root m').result = .ok files := by
  obtain ⟨files', h'⟩ := hm'.discover
  rw [h', (ordered_discover ht h').ext (ordered_discover ht h) fun p => ?_]
  rw [mem_discover ht h', mem_discover ht h]
  exact and_congr_left fun _ => ⟨fun hp => hp.within hw', fun hp => hp.within hw⟩

/-! ## What is found -/

/-- Something with the name of a render file stands at a path strictly below a source that is a
directory. -/
structure Sourced (t : Tree) (root : Path) (m : Manifest) (p : Path) : Prop where
  absolute : p.slashes = 1
  stands : t.entryAt? p.parts ≠ none
  name : ".render.json".toList <:+ p.name.toList
  below : ∃ rel, .string rel ∈ m.sources ∧
    t.isDirectoryAt (Path.resolve root (Path.ofString rel)).parts = true ∧
      ∃ ns ≠ [], p.parts = (Path.resolve root (Path.ofString rel)).parts ++ ns

theorem sourced_iff (ht : t.WellFormed) :
    t.Sourced root m p ↔ m.Covers root p ∧ t.entryAt? p.parts ≠ none := by
  constructor
  · rintro ⟨habsolute, hstands, hname, rel, hrel, -, ns, hns, hparts⟩
    obtain ⟨e, he⟩ := Option.ne_none_iff_exists'.1 hstands
    refine ⟨⟨⟨rel, hrel, ns, hns, ?_⟩, fun hdots => (ht.isName he hdots).1 rfl,
      (nameMatches_renderFilePattern _).2 hname⟩, hstands⟩
    exact congrArg₂ Path.mk habsolute hparts
  · rintro ⟨hp, hstands⟩
    obtain ⟨rel, hrel, ns, hns, hbelow⟩ := hp.below
    have hparts : p.parts = (Path.resolve root (Path.ofString rel)).parts ++ ns :=
      congrArg Path.parts hbelow
    obtain ⟨e, he⟩ := Option.ne_none_iff_exists'.1 hstands
    -- A directory is all that something can stand below.
    have hd := ht.above (hparts ▸ List.prefix_append _ ns) (by simpa [hparts] using hns) he
    exact ⟨hp.absolute, hstands, (nameMatches_renderFilePattern _).1 hp.name,
      rel, hrel, hd, ns, hns, hparts⟩

/-- The render files that are found depend on the places that the sources lead to. -/
structure Canonical (t : Tree) (root : Path) (m : Manifest) (files : List Path) : Prop where
  increasing : files.Pairwise fun p q => Path.compareParts p.parts q.parts = .lt
  mem_iff : ∀ p, p ∈ files ↔ t.Sourced root m p
  /-- The order of the sources does not matter, nor how often each of them is named. -/
  rearranged : ∀ m' : Manifest, (∀ s, s ∈ m'.sources ↔ s ∈ m.sources) →
    (t.discover root m').result = .ok files
  /-- One more source at or below the place of another adds nothing. -/
  nested : ∀ (m' : Manifest) (outer inner : String), .string outer ∈ m.sources →
    (∃ ns, Path.resolve root (Path.ofString inner) =
      (Path.resolve root (Path.ofString outer)).below ns) →
    (∀ s, s ∈ m'.sources ↔ s = .string inner ∨ s ∈ m.sources) →
      ((t.discover root m').result = .ok files ↔ t.LooksUp root inner)
  /-- The spellings of the sources do not matter. -/
  respelled : ∀ m' : Manifest, m.Respelled m' → (t.discover root m').result = .ok files

theorem discover_rearranged (ht : t.WellFormed) (h : (t.discover root m).result = .ok files)
    (hm' : ∀ s, s ∈ m'.sources ↔ s ∈ m.sources) : (t.discover root m').result = .ok files := by
  refine discover_of_within ht h (fun s hs => ?_) (fun rel hrel => ?_) fun rel hrel => ?_
  · exact searchable_of_discover h s ((hm' s).1 hs)
  · exact Manifest.reaches_of_resolve ((hm' _).2 hrel) rfl
  · exact Manifest.reaches_of_resolve ((hm' _).1 hrel) rfl

theorem discover_nested (ht : t.WellFormed) (h : (t.discover root m).result = .ok files)
    {outer inner : String} (houter : .string outer ∈ m.sources)
    (hinner : ∃ ns, Path.resolve root (Path.ofString inner) =
      (Path.resolve root (Path.ofString outer)).below ns)
    (hm' : ∀ s, s ∈ m'.sources ↔ s = .string inner ∨ s ∈ m.sources) :
    (t.discover root m').result = .ok files ↔ t.LooksUp root inner := by
  constructor
  · intro h'
    obtain ⟨rel, hrel, hlooks⟩ :=
      searchable_iff.1 (searchable_of_discover h') _ ((hm' _).2 (.inl rfl))
    cases hrel
    exact hlooks
  · intro hlooks
    refine discover_of_within ht h (searchable_iff.2 fun s hs => ?_) (fun rel hrel => ?_)
      fun rel hrel => ?_
    · obtain rfl | hs := (hm' s).1 hs
      · exact ⟨inner, rfl, hlooks⟩
      · exact searchable_iff.1 (searchable_of_discover h) s hs
    · exact Manifest.reaches_of_resolve ((hm' _).2 (.inr hrel)) rfl
    · obtain heq | hrel := (hm' _).1 hrel
      · cases heq
        exact ⟨outer, houter, hinner⟩
      · exact Manifest.reaches_of_resolve hrel rfl

theorem discover_respelled (ht : t.WellFormed) (h : (t.discover root m).result = .ok files)
    (hm' : m.Respelled m') : (t.discover root m').result = .ok files := by
  refine discover_of_within ht h (searchable_iff.2 fun s' hs' => ?_) (fun rel hrel => ?_)
    fun rel' hrel' => ?_
  · obtain ⟨rel', rfl, rel, hrel, hspelled⟩ := hm'.back s' hs'
    obtain ⟨_, heq, hlooks⟩ := searchable_iff.1 (searchable_of_discover h) _ hrel
    cases heq
    exact ⟨rel', rfl, hlooks.sameWay hspelled.sameWay⟩
  · obtain ⟨rel', hrel', hspelled⟩ := hm'.forth rel hrel
    exact Manifest.reaches_of_resolve hrel' (hspelled.sameWay.resolve root)
  · obtain ⟨_, heq, rel, hrel, hspelled⟩ := hm'.back _ hrel'
    cases heq
    exact Manifest.reaches_of_resolve hrel (hspelled.sameWay.resolve root).symm

/-- The render files that are found are in order, each once, and they are what stands below the
sources, in whatever way the sources name the same places. -/
theorem canonical_discover (ht : t.WellFormed) (h : (t.discover root m).result = .ok files) :
    t.Canonical root m files where
  increasing := (ordered_discover ht h).increasing
  mem_iff _ := (mem_discover ht h).trans (sourced_iff ht).symm
  rearranged _ := discover_rearranged ht h
  nested _ _ _ := discover_nested ht h
  respelled _ := discover_respelled ht h

/-- A project with render files in a directory and in one inside it. -/
def sourceTree : Tree :=
  ⟨[(["src"], .directory), (["src", "ui"], .directory),
    (["src", "b.render.json"], .file .empty), (["src", "ui", "a.render.json"], .file .empty),
    (["src", "notes.json"], .file .empty), (["src", "c.render.json"], .directory)], []⟩

/-- A source inside another one, one that is missing, and one spelled with a part that leads
nowhere. -/
theorem canonical_sourceTree :
    let m : Manifest := { Manifest.defaults with
      sources := [.string "src/ui", .string "gone", .string "./src/", .string "src/ui"] }
    let files : List Path := [⟨1, ["src", "b.render.json"]⟩, ⟨1, ["src", "c.render.json"]⟩,
      ⟨1, ["src", "ui", "a.render.json"]⟩]
    sourceTree.WellFormed ∧ (sourceTree.discover ⟨1, []⟩ m).result = .ok files ∧
      sourceTree.Canonical ⟨1, []⟩ m files := by
  intro m files
  have ht : sourceTree.WellFormed := by decide +kernel
  have hfound : (sourceTree.filesOfSources ⟨1, []⟩ m.sources).result =
      .ok [⟨1, ["src", "ui", "a.render.json"]⟩, ⟨1, ["src", "b.render.json"]⟩,
        ⟨1, ["src", "c.render.json"]⟩, ⟨1, ["src", "ui", "a.render.json"]⟩,
        ⟨1, ["src", "ui", "a.render.json"]⟩] := by decide +kernel
  have hfiles : Path.Ordered files :=
    ⟨by decide +kernel, by decide +kernel, by decide +kernel⟩
  have h : (sourceTree.discover ⟨1, []⟩ m).result = .ok files := by
    rw [discover, hfound]
    exact congrArg Except.ok (hfiles.sortPaths_eq (by decide +kernel) (by decide +kernel))
  exact ⟨ht, h, canonical_discover ht h⟩

end Tree

end ScriptBundle
