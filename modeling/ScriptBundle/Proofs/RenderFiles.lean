import ScriptBundle.Proofs.Collecting
import ScriptBundle.Proofs.Tree.Selection
/-!
# The render files of a project

The render files that are found are what stands at the paths that the manifest covers
(`mem_discover`), in the order of paths and each once, so that their paths make out the list
(`Path.Ordered.ext`). Looking for them fails over nothing but sources that cannot be looked up
(`searchable_of_discover`). What they hold together is the same in two trees if each covered path
holds the same in both (`flatMap_fragmentsIn_eq`).
-/

namespace ScriptBundle

/-! ## The order of paths -/

theorem Text.compareCodepoints_eq :
    compareCodepoints = List.compareLex fun c d => compare c.toNat d.toNat := by
  funext cs ds
  induction cs generalizing ds with
  | nil => cases ds <;> rfl
  | cons c cs ih =>
    cases ds with
    | nil => rfl
    | cons d ds =>
      rw [compareCodepoints, List.compareLex, ih, Nat.compare_eq_ite_lt]
      split_ifs <;> rfl

theorem transCmp_on {α β : Type} {cmp : β → β → Ordering} [Std.TransCmp cmp] (f : α → β) :
    Std.TransCmp fun a b => cmp (f a) (f b) where
  eq_swap := Std.OrientedCmp.eq_swap
  isLE_trans := Std.TransCmp.isLE_trans

theorem lawfulEqCmp_on {α β : Type} {cmp : β → β → Ordering} [Std.LawfulEqCmp cmp] {f : α → β}
    (hf : f.Injective) : Std.LawfulEqCmp fun a b => cmp (f a) (f b) where
  compare_self := Std.ReflCmp.compare_self
  eq_of_compare h := hf (Std.LawfulEqCmp.eq_of_compare h)

instance : Std.TransCmp Text.compareCodepoints := by
  have : Std.TransCmp fun c d : Char => compare c.toNat d.toNat := transCmp_on Char.toNat
  rw [Text.compareCodepoints_eq]
  infer_instance

instance : Std.LawfulEqCmp Text.compareCodepoints := by
  have : Std.LawfulEqCmp fun c d : Char => compare c.toNat d.toNat :=
    lawfulEqCmp_on fun _ _ => Char.toNat_inj.1
  rw [Text.compareCodepoints_eq]
  infer_instance

namespace Path

theorem compareParts_eq :
    compareParts = List.compareLex fun p q => Text.compareCodepoints p.toList q.toList := by
  funext ps qs
  induction ps generalizing qs with
  | nil => cases qs <;> rfl
  | cons p ps ih =>
    cases qs with
    | nil => rfl
    | cons q qs =>
      rw [compareParts, List.compareLex, ih]
      cases Text.compareCodepoints p.toList q.toList <;> rfl

instance : Std.TransCmp compareParts := by
  have : Std.TransCmp fun p q : String => Text.compareCodepoints p.toList q.toList :=
    transCmp_on String.toList
  rw [compareParts_eq]
  infer_instance

instance : Std.LawfulEqCmp compareParts := by
  have : Std.LawfulEqCmp fun p q : String => Text.compareCodepoints p.toList q.toList :=
    lawfulEqCmp_on fun _ _ => String.toList_inj.1
  rw [compareParts_eq]
  infer_instance

variable {p q r : Path}

theorem le_iff : p.le q = true ↔ (compareParts p.parts q.parts).isLE = true := by
  rw [le]
  cases compareParts p.parts q.parts <;> decide

theorem le_trans (h : p.le q = true) (h' : q.le r = true) : p.le r = true :=
  le_iff.2 (Std.TransCmp.isLE_trans (le_iff.1 h) (le_iff.1 h'))

theorem le_total (p q : Path) : (p.le q || q.le p) = true := by
  rw [le, le, @Std.OrientedCmp.eq_swap _ compareParts _ q.parts]
  cases compareParts p.parts q.parts <;> rfl

theorem eq_of_le_of_le (hs : p.slashes = q.slashes) (h : p.le q = true) (h' : q.le p = true) :
    p = q := by
  have heq : compareParts p.parts q.parts = .eq := by
    rw [le] at h h'
    rw [@Std.OrientedCmp.eq_swap _ compareParts] at h'
    cases hc : compareParts p.parts q.parts <;> simp_all
  obtain ⟨s, ps⟩ := p
  obtain ⟨s', qs⟩ := q
  exact congrArg₂ Path.mk hs (Std.LawfulEqCmp.eq_of_compare heq)

/-- Paths from the root, in order and each once. -/
structure Ordered (ps : List Path) : Prop where
  absolute : ∀ p ∈ ps, p.slashes = 1
  nodup : ps.Nodup
  sorted : ps.Pairwise fun p q => p.le q = true

namespace Ordered

variable {ps qs : List Path}

theorem filter (h : Ordered ps) (keep : Path → Bool) : Ordered (ps.filter keep) :=
  ⟨fun p hp => h.absolute p (List.mem_filter.1 hp).1, h.nodup.filter _, h.sorted.filter _⟩

/-- The members make out the list. -/
theorem ext (h : Ordered ps) (h' : Ordered qs) (hmem : ∀ p, p ∈ ps ↔ p ∈ qs) : ps = qs := by
  refine ((List.perm_ext_iff_of_nodup h.nodup h'.nodup).2 hmem).eq_of_pairwise
    (fun p q hp hq hle hle' => ?_) h.sorted h'.sorted
  exact eq_of_le_of_le ((h.absolute p hp).trans (h'.absolute q hq).symm) hle hle'

end Ordered

end Path

theorem mem_sortPaths {ps : List Path} {p : Path} : p ∈ sortPaths ps ↔ p ∈ ps := by
  rw [sortPaths, List.mem_mergeSort, List.mem_eraseDups]

theorem ordered_sortPaths {ps : List Path} (h : ∀ p ∈ ps, p.slashes = 1) :
    Path.Ordered (sortPaths ps) :=
  ⟨fun p hp => h p (mem_sortPaths.1 hp),
    (List.mergeSort_perm _ _).nodup_iff.2 (nodup_eraseDups ps),
    List.pairwise_mergeSort (fun p q r => @Path.le_trans p q r) Path.le_total _⟩

/-! ## Paths from the root -/

theorem Path.notMem_resolve (base p : Path) : ".." ∉ (Path.resolve base p).parts := by
  suffices ∀ ps acc : List String, ".." ∉ acc → ".." ∉ ps.foldl normalStep acc from
    this _ [] List.not_mem_nil
  intro ps
  induction ps with
  | nil => exact fun _ => id
  | cons n ps ih =>
    refine fun acc hacc => ih _ ?_
    rw [normalStep]
    split_ifs with hn
    · exact fun hmem => hacc (List.dropLast_subset _ hmem)
    · simpa using ⟨hacc, Ne.symm hn⟩

namespace Tree

variable {t u : Tree} {ps loc : List String} {e : Entry}

/-- From the root a path leads to the place that its components name. -/
theorem eq_of_locate_root (hps : ".." ∉ ps) (h : t.locate ⟨1, ps⟩ = .ok loc) : loc = ps :=
  @eq_of_locate_below t [] loc ⟨1, []⟩ rfl ps hps h

theorem WellFormed.locate_of_entry (ht : t.WellFormed) (he : t.entryAt? ps = some e) :
    t.locate ⟨1, ps⟩ = .ok ps := by
  obtain rfl | ⟨ps, n, rfl⟩ := List.eq_nil_or_concat ps
  · rfl
  · rw [List.concat_eq_append] at *
    have hparent := ht.parent_of_entry he
    rw [List.dropLast_concat] at hparent
    exact Tree.locate_below (p := ⟨1, ps⟩)
      (@WellFormed.locate_below t [] ⟨1, []⟩ ht rfl ps hparent) hparent
      (ht.isName (n := n) he (by simp))

theorem WellFormed.hasNul_of_entry (ht : t.WellFormed) (he : t.entryAt? ps = some e) (s : Nat) :
    (Path.mk s ps).hasNul = false := by
  refine List.any_eq_false.2 fun n hn hc => (ht.isName he hn).2.1 ?_
  exact List.contains_iff_mem.1 hc

theorem WellFormed.has_root_iff (ht : t.WellFormed) (hps : ".." ∉ ps) :
    t.Has ⟨1, ps⟩ ↔ t.entryAt? ps ≠ none := by
  rw [Option.ne_none_iff_exists']
  constructor
  · rintro ⟨loc, e, hloc, he⟩
    exact ⟨e, eq_of_locate_root hps hloc ▸ he⟩
  · rintro ⟨e, he⟩
    exact ⟨ps, e, ht.locate_of_entry he, he⟩

theorem readFile_root_iff (ht : t.WellFormed) (hps : ".." ∉ ps) {b : ByteArray} :
    t.readFile ⟨1, ps⟩ = .ok b ↔ t.entryAt? ps = some (.file b) := by
  rw [readFile_eq_ok]
  constructor
  · rintro ⟨-, loc, hloc, hb⟩
    exact eq_of_locate_root hps hloc ▸ hb
  · exact fun hb => ⟨ht.hasNul_of_entry hb 1, ps, ht.locate_of_entry hb, hb⟩

end Tree

/-! ## Paths that a manifest covers -/

/-- A path is one of a render file of the project, if something stands there: it lies below a source
of the manifest and has a fitting name. -/
structure Manifest.Covers (m : Manifest) (root p : Path) : Prop where
  below : ∃ rel, .string rel ∈ m.sources ∧
    ∃ ns ≠ [], p = (Path.resolve root (Path.ofString rel)).below ns
  plain : ".." ∉ p.parts
  name : Glob.nameMatches renderFilePattern p.name = true

theorem Manifest.Covers.absolute {m : Manifest} {root p : Path} (h : m.Covers root p) :
    p.slashes = 1 := by
  obtain ⟨rel, -, ns, -, rfl⟩ := h.below
  rfl

theorem Manifest.Covers.eq {m : Manifest} {root p : Path} (h : m.Covers root p) :
    p = ⟨1, p.parts⟩ := by
  rw [← h.absolute]

namespace Tree

variable {t u : Tree} {root : Path} {m : Manifest} {base p : Path} {files : List Path}

theorem mem_renderFilesBelow (ht : t.WellFormed) {bs : List String} (hbs : ".." ∉ bs)
    (h : t.renderFilesBelow ⟨1, bs⟩ = .ok files) : p ∈ files ↔
      (∃ ns ≠ [], p = Path.below ⟨1, bs⟩ ns) ∧ ".." ∉ p.parts ∧
        Glob.nameMatches renderFilePattern p.name = true ∧ t.entryAt? p.parts ≠ none := by
  have hname : ∀ ns n, (Path.below ⟨1, bs⟩ (ns ++ [n])).name = n := fun ns n => by
    simp [Path.name, Path.below]
  rw [Glob.mem_select ht h]
  constructor
  · rintro ⟨_, ⟨-, ns, rfl, hns, -⟩, _, ⟨-, n, rfl, hn, hmatch, hhas, -⟩, rfl⟩
    rw [← Path.below_append] at hhas ⊢
    have hdots : ".." ∉ bs ++ (ns ++ [n]) := by
      simp only [List.mem_append, List.mem_singleton, not_or]
      exact ⟨hbs, fun hmem => (hns _ hmem).1 rfl, hn.1.symm⟩
    exact ⟨⟨_, by simp, rfl⟩, hdots, (hname ns n).symm ▸ hmatch, (ht.has_root_iff hdots).1 hhas⟩
  · rintro ⟨⟨ms, hms, rfl⟩, hdots, hmatch, hstands⟩
    obtain ⟨ns, n, rfl⟩ := (List.eq_nil_or_concat ms).resolve_left hms
    rw [List.concat_eq_append] at *
    obtain ⟨e, he⟩ := Option.ne_none_iff_exists'.1 hstands
    rw [hname] at hmatch
    have hnames : ∀ n' ∈ ns ++ [n], IsName n' := fun n' hn' =>
      ht.isName he (List.mem_append_right _ hn')
    -- All that the path goes through are directories, since something stands at its end.
    have hdir : ∀ ds, ds <+: bs ++ ns → t.HasDirectory ⟨1, ds⟩ := fun ds hds => by
      have hprefix : ds <+: bs ++ (ns ++ [n]) :=
        hds.trans (List.append_assoc .. ▸ List.prefix_append _ _)
      have hd := ht.above hprefix (fun heq => by
        have hle := hds.length_le
        simp only [heq, List.length_append, List.length_singleton] at hle
        omega) he
      exact ⟨ds, ht.locate_of_entry (isDirectoryAt_iff.1 hd), hd⟩
    refine ⟨_, ⟨hdir _ (List.prefix_append _ _), ns, rfl,
      fun n' hn' => hnames n' (List.mem_append_left _ hn'), hdir _ (List.prefix_refl _)⟩,
      _, ⟨hdir _ (List.prefix_refl _), n, rfl, hnames n (by simp), hmatch, ?_,
        fun h => absurd h Bool.false_ne_true⟩,
      Path.below_append ..⟩
    rw [← Path.below_append]
    exact (ht.has_root_iff hdots).2 hstands

/-- What is found below one source. -/
theorem mem_sourceFiles (ht : t.WellFormed) {s : Value} {log : List Record}
    (h : t.sourceFiles root s = .ok (files, log)) : p ∈ files ↔ ∃ rel, s = .string rel ∧
      (∃ ns ≠ [], p = (Path.resolve root (Path.ofString rel)).below ns) ∧ ".." ∉ p.parts ∧
        Glob.nameMatches renderFilePattern p.name = true ∧ t.entryAt? p.parts ≠ none := by
  cases s with
  | string rel =>
    have hdots := Path.notMem_resolve root (Path.ofString rel)
    simp only [Value.string.injEq, exists_eq_left']
    rw [sourceFiles] at h
    split_ifs at h
    split at h
    next => cases h
    next hno =>
      cases h
      refine iff_of_false List.not_mem_nil ?_
      rintro ⟨⟨ns, hns, rfl⟩, -, -, hstands⟩
      obtain ⟨e, he⟩ := Option.ne_none_iff_exists'.1 hstands
      have hd := isDirectoryAt_iff.1 (ht.above (List.prefix_append _ ns) (by simpa using hns) he)
      have hyes := existsAt_eq_true.2
        ⟨ht.hasNul_of_entry hd 1, _, _, ht.locate_of_entry hd, hd⟩
      cases hno.symm.trans hyes
    next =>
      split at h
      next => cases h
      next hfiles =>
        cases h
        exact mem_renderFilesBelow ht hdots hfiles
  | _ => cases h

theorem mem_filesOfSources (ht : t.WellFormed) {ss : List Value}
    (h : (t.filesOfSources root ss).result = .ok files) : p ∈ files ↔ ∃ rel, .string rel ∈ ss ∧
      (∃ ns ≠ [], p = (Path.resolve root (Path.ofString rel)).below ns) ∧ ".." ∉ p.parts ∧
        Glob.nameMatches renderFilePattern p.name = true ∧ t.entryAt? p.parts ≠ none := by
  induction ss generalizing files with
  | nil =>
    cases h
    simp
  | cons s ss ih =>
    rw [filesOfSources] at h
    split at h
    next => cases h
    next found log hfound =>
      cases hrest : (t.filesOfSources root ss).result with
      | error e =>
        simp only [hrest] at h
        cases h
      | ok rest =>
        simp only [hrest] at h
        cases h
        rw [List.mem_append, mem_sourceFiles ht hfound, ih hrest]
        simp only [List.mem_cons, or_and_right, exists_or, eq_comm]

theorem exists_of_discover (h : (t.discover root m).result = .ok files) :
    ∃ found, (t.filesOfSources root m.sources).result = .ok found ∧ files = sortPaths found := by
  rw [discover] at h
  cases hfound : (t.filesOfSources root m.sources).result with
  | error e =>
    rw [hfound] at h
    cases h
  | ok found =>
    rw [hfound] at h
    cases h
    exact ⟨found, rfl, rfl⟩

/-- What is found is what stands at the paths that the manifest covers. -/
theorem mem_discover (ht : t.WellFormed) (h : (t.discover root m).result = .ok files) :
    p ∈ files ↔ m.Covers root p ∧ t.entryAt? p.parts ≠ none := by
  obtain ⟨found, hfound, rfl⟩ := exists_of_discover h
  rw [mem_sortPaths, mem_filesOfSources ht hfound]
  constructor
  · rintro ⟨rel, hrel, hbelow, hplain, hname, hstands⟩
    exact ⟨⟨⟨rel, hrel, hbelow⟩, hplain, hname⟩, hstands⟩
  · rintro ⟨⟨⟨rel, hrel, hbelow⟩, hplain, hname⟩, hstands⟩
    exact ⟨rel, hrel, hbelow, hplain, hname, hstands⟩

theorem ordered_discover (ht : t.WellFormed) (h : (t.discover root m).result = .ok files) :
    Path.Ordered files := by
  obtain ⟨found, hfound, rfl⟩ := exists_of_discover h
  exact ordered_sortPaths fun p hp =>
    ((mem_discover ht h).1 (mem_sortPaths.2 hp)).1.absolute

/-- Looking for render files fails over nothing but sources that cannot be looked up. -/
theorem searchable_of_discover (h : (t.discover root m).result = .ok files) :
    t.Searchable root m := by
  have hsources : ∀ (ss : List Value) (found : List Path),
      (t.filesOfSources root ss).result = .ok found → ∀ s ∈ ss, ∃ rel found, s = .string rel ∧
        (Path.ofString rel).hasNul = false ∧
          t.existsAt (Path.resolve root (Path.ofString rel)) = .ok found := by
    intro ss
    induction ss with
    | nil => exact fun _ _ => nofun
    | cons s ss ih =>
      intro found hfound
      rw [filesOfSources] at hfound
      split at hfound
      next => cases hfound
      next files log hs =>
        refine List.forall_mem_cons.2 ⟨?_, ?_⟩
        · cases s with
          | string rel =>
            rw [sourceFiles] at hs
            split_ifs at hs with hnul
            cases hexists : t.existsAt (Path.resolve root (Path.ofString rel)) with
            | error e =>
              simp only [hexists] at hs
              cases hs
            | ok found => exact ⟨rel, found, rfl, by simpa using hnul, hexists⟩
          | _ => cases hs
        · cases hrest : (t.filesOfSources root ss).result with
          | error e =>
            simp only [hrest] at hfound
            cases hfound
          | ok rest => exact ih rest hrest
  obtain ⟨found, hfound, -⟩ := exists_of_discover h
  exact hsources m.sources found hfound

/-! ## What covered paths hold -/

theorem fragmentsIn_congr_ok {names : List String}
    (h : ∀ b, u.readFile p = .ok b ↔ t.readFile p = .ok b) :
    u.fragmentsIn names p = t.fragmentsIn names p := by
  cases ht : t.readFile p with
  | ok b => exact fragmentsIn_congr (((h b).2 ht).trans ht.symm)
  | error e =>
    cases hu : u.readFile p with
    | ok b => rw [(h b).1 hu] at ht; cases ht
    | error e' => rw [fragmentsIn, fragmentsIn, loadRenderFile, loadRenderFile, ht, hu]

theorem exists_of_fragmentsIn_ne_nil {names : List String} (h : t.fragmentsIn names p ≠ []) :
    ∃ b, t.readFile p = .ok b := by
  cases hr : t.readFile p with
  | ok b => exact ⟨b, rfl⟩
  | error e =>
    rw [fragmentsIn, loadRenderFile, hr] at h
    exact absurd rfl h

/-- If each covered path holds the same in two trees then so do they together. -/
theorem flatMap_fragmentsIn_eq (ht : t.WellFormed) (hu : u.WellFormed) {names : List String}
    {files' : List Path} (hfiles : (t.discover root m).result = .ok files)
    (hfiles' : (u.discover root m).result = .ok files')
    (h : ∀ p, m.Covers root p → u.fragmentsIn names p = t.fragmentsIn names p) :
    files'.flatMap (u.fragmentsIn names) = files.flatMap (t.fragmentsIn names) := by
  have hstands : ∀ {v : Tree}, v.WellFormed → ∀ {p}, m.Covers root p →
      v.fragmentsIn names p ≠ [] → v.entryAt? p.parts ≠ none := by
    intro v hv p hp hne
    obtain ⟨b, hb⟩ := exists_of_fragmentsIn_ne_nil hne
    rw [hp.eq, readFile_root_iff hv hp.plain] at hb
    rw [hb]
    exact Option.some_ne_none _
  have hsame : files'.filter (u.fragmentsIn names · ≠ []) =
      files.filter (t.fragmentsIn names · ≠ []) := by
    refine ((ordered_discover hu hfiles').filter _).ext ((ordered_discover ht hfiles).filter _)
      fun p => ?_
    rw [List.mem_filter, List.mem_filter, mem_discover hu hfiles', mem_discover ht hfiles]
    simp only [decide_eq_true_eq, and_assoc]
    refine and_congr_right fun hp => ?_
    rw [h p hp]
    exact ⟨fun ⟨_, hne⟩ => ⟨hstands ht hp hne, hne⟩,
      fun ⟨_, hne⟩ => ⟨hstands hu hp (h p hp ▸ hne), hne⟩⟩
  calc files'.flatMap (u.fragmentsIn names)
      = (files'.filter (u.fragmentsIn names · ≠ [])).flatMap (u.fragmentsIn names) :=
        (flatMap_filter (by simp)).symm
    _ = (files.filter (t.fragmentsIn names · ≠ [])).flatMap (t.fragmentsIn names) := by
        rw [hsame]
        exact List.flatMap_congr fun p hp =>
          h p ((mem_discover ht hfiles).1 (List.mem_filter.1 hp).1).1
    _ = files.flatMap (t.fragmentsIn names) := flatMap_filter (by simp)

end Tree

end ScriptBundle
