import ScriptBundle.Build
import ScriptBundle.Proofs.Collecting
import ScriptBundle.Proofs.Emission
import ScriptBundle.Proofs.Streams
/-!
# Building, part by part

A build fails over a manifest that cannot be followed, or a directory that cannot be written to, and
else only over the name of a bundle: `Tree.buildsEach` says what a build does whatever the render
files hold. In `Tree.build_stopped` one name keeps another bundle from being written.
-/

namespace ScriptBundle

open FileOperation ScriptBundle.Tree

variable {t t₁ u : Tree} {dir : Path} {loc : List String} {n : String}

/-! ## Files directly in a directory -/

theorem locate_child (hnul : dir.hasNul = false) (hdir : t.locate dir = .ok loc)
    (hd : t.isDirectoryAt loc = true) (hn : IsName n) :
    Path.hasNul { dir with parts := dir.parts ++ [n] } = false ∧
      t.locate { dir with parts := dir.parts ++ [n] } = .ok (loc ++ [n]) := by
  obtain ⟨hdots, hc, hsize⟩ := hn
  constructor
  · rw [Path.hasNul] at hnul ⊢
    rw [List.any_append, hnul]
    simpa using hc
  · exact locate_concat.2 ⟨loc, hdir, enter_eq_ok.2 ⟨hd, .inr ⟨hdots, hsize, rfl⟩⟩⟩

/-- The bundle of a key can be written directly in the directory at a location. -/
structure EmissionOptions.Usable (o : EmissionOptions) (t : Tree) (loc : List String)
    (key : String) : Prop where
  plain : o.Plain key
  name : IsName (bundleFileName key o.scriptExt)
  free : t.isDirectoryAt (loc ++ [bundleFileName key o.scriptExt]) = false

theorem EmissionOptions.Usable.writable {o : EmissionOptions} {key : String}
    (h : o.Usable t loc key) (hnul : dir.hasNul = false) (hdir : t.locate dir = .ok loc)
    (hd : t.isDirectoryAt loc = true) : t.Writable (o.bundlePath dir key) := by
  rw [bundlePath_of_plain h.plain]
  obtain ⟨hnul, hloc⟩ := locate_child hnul hdir hd h.name
  exact ⟨hnul, _, hloc, h.free⟩

/-! ## Pruning -/

/-- Pruning finds nothing but files in the directory at a location: the extension makes a pattern
for names, and no directory has a name that this stands for. -/
structure Tree.Prunable (t : Tree) (loc : List String) (ext : String) : Prop where
  slash : '/' ∉ ext.toList
  stars : Glob.hasDoubleStar ext.toList = false
  files : ∀ n, Glob.nameMatches (bundlePattern ext) n = true → t.isDirectoryAt (loc ++ [n]) = false

theorem Tree.Prunable.congr {ext : String} (h : t.Prunable loc ext) (hsame : t.SameDirectories u) :
    u.Prunable loc ext :=
  ⟨h.slash, h.stars, fun n hn => (hsame.isDirectoryAt _).trans (h.files n hn)⟩

/-- The names in the directory at a location that look like names of bundles. -/
def Tree.bundleNames (t : Tree) (loc : List String) (ext : String) : List String :=
  (t.names loc).filter fun n => Glob.nameMatches (bundlePattern ext) n

section Pruning

variable {ext : String}

theorem Tree.Prunable.bundleFiles_eq (hp : t.Prunable loc ext) (hdir : t.locate dir = .ok loc)
    (hd : t.isDirectoryAt loc = true) : t.bundleFiles dir ext =
      .ok ((t.bundleNames loc ext).map fun n => { dir with parts := dir.parts ++ [n] }) := by
  have hlocation : Glob.directoryLocation t dir = some loc := by
    simp [Glob.directoryLocation, hdir, hd]
  rw [Tree.bundleFiles_eq hp.slash t dir, hp.stars, hlocation]
  rfl

theorem isName_of_mem_bundleNames (ht : t.WellFormed) (hn : n ∈ t.bundleNames loc ext) :
    IsName n := by
  obtain ⟨e, he⟩ := ht.mem_names_iff.1 (List.mem_filter.1 hn).1
  exact ht.isName he (by simp)

/-- After pruning, only the bundles that were written are left. -/
theorem run_pruneBundles (ht : t.WellFormed) (hnul : dir.hasNul = false)
    (hdir : t.locate dir = .ok loc) (hd : t.isDirectoryAt loc = true) (hp : t.Prunable loc ext)
    (written : List Path) :
    ∃ u, (pruneBundles dir ext written).run t = (.ok (), u) ∧
      ∀ n ∈ u.bundleNames loc ext, n ∈ written.map Path.name := by
  have hchild : ∀ n ∈ t.bundleNames loc ext, _ := fun n hn =>
    locate_child hnul hdir hd (isName_of_mem_bundleNames ht hn)
  set found := (t.bundleNames loc ext).map fun n =>
    ({ dir with parts := dir.parts ++ [n] } : Path)
  have hleads : ∀ p ∈ found, t.Leads p ∧ ¬ t.HasDirectory p := by
    intro p hmem
    obtain ⟨n, hn, rfl⟩ := List.mem_map.1 hmem
    obtain ⟨hnul', hloc⟩ := hchild n hn
    refine ⟨⟨hnul', _, hloc⟩, ?_⟩
    rintro ⟨loc', hloc', hd'⟩
    obtain rfl := Except.ok.inj (hloc'.symm.trans hloc)
    rw [hp.files n (List.mem_filter.1 hn).2] at hd'
    cases hd'
  have hstale : ∀ p ∈ found.filter (fun p => !(written.map Path.name).contains p.name),
      t.Leads p ∧ ¬ t.HasDirectory p := fun p hmem => hleads p (List.mem_filter.1 hmem).1
  obtain ⟨u, hu⟩ := (exists_removeFiles_iff ht fun p hmem => (hstale p hmem).1).2
    fun p hmem => (hstale p hmem).2
  refine ⟨u, ?_, fun n hn => ?_⟩
  · rw [run_pruneBundles_of_found (hp.bundleFiles_eq hdir hd), hu]
  · -- A name that is left was there before, so its file has not been removed.
    have hremoves := removes_of_run ht (fun p hmem => (hstale p hmem).1) hu
    obtain ⟨hn, hmatch⟩ := List.mem_filter.1 hn
    obtain ⟨e, he⟩ := hremoves.wellFormed.mem_names_iff.1 hn
    have hn : n ∈ t.bundleNames loc ext := List.mem_filter.2
      ⟨ht.mem_names_iff.2 ⟨e, hremoves.kept _ e he⟩, hmatch⟩
    by_contra hnot
    have hname : Path.name { dir with parts := dir.parts ++ [n] } = n := by simp [Path.name]
    obtain ⟨q, hq, -, hnone⟩ := hremoves.gone { dir with parts := dir.parts ++ [n] } (by
      rw [List.mem_filter, hname]
      exact ⟨List.mem_map_of_mem hn, by simpa using hnot⟩)
    rw [(hchild n hn).2] at hq
    cases hq
    rw [hnone] at he
    cases he

end Pruning

/-! ## Writing the bundles of a build -/

section Emitting

variable {o : EmissionOptions} {fs : List Fragment}

/-- Bundles are written, and others removed, if each has a path that can be written to. -/
theorem exists_of_writable (ht : t.WellFormed) (hmake : (makeDirectories dir).run t = (.ok (), t₁))
    (hdir : t₁.locate dir = .ok loc) (hw : ∀ x ∈ o.files dir (groupFragments fs), t₁.Writable x.1)
    (hp : o.prune = true → t₁.Prunable loc o.scriptExt) :
    ∃ u, (emit o fs dir).run t = (.ok ((o.files dir (groupFragments fs)).map Prod.fst), u) ∧
      (o.prune = true → ∀ n ∈ u.bundleNames loc o.scriptExt,
        n ∈ ((o.files dir (groupFragments fs)).map Prod.fst).map Path.name) := by
  have hv := ((grows_of_makeDirectories hmake).wellFormed ht).writeAll hw
  obtain ⟨hnul, loc', hloc', hd⟩ := (creates_makeDirectories dir).directory _ _ hmake
  obtain rfl : loc' = loc := Except.ok.inj (hloc'.symm.trans hdir)
  have hsame := sameDirectories_writeAll hw
  by_cases hprune : o.prune
  · obtain ⟨u, hu, hleft⟩ := run_pruneBundles hv hnul (hsame.locate_iff.2 hdir)
      ((hsame.isDirectoryAt _).trans hd) ((hp hprune).congr hsame)
      ((o.files dir (groupFragments fs)).map Prod.fst)
    exact ⟨u, emit_eq_ok.2 ⟨t₁, hmake, hw, rfl, by rw [if_pos hprune, hu]⟩, fun _ => hleft⟩
  · exact ⟨_, emit_eq_ok.2 ⟨t₁, hmake, hw, rfl, by rw [if_neg hprune]⟩, fun h => absurd h hprune⟩

/-- The first path that cannot be written to is where it ends. -/
theorem exists_of_not_writable (hmake : (makeDirectories dir).run t = (.ok (), t₁))
    {before after : List (Path × ByteArray)} {x : Path × ByteArray}
    (hf : o.files dir (groupFragments fs) = before ++ x :: after)
    (hb : ∀ y ∈ before, t₁.Writable y.1) (hx : ¬ t₁.Writable x.1) :
    ∃ e, (emit o fs dir).run t = (.error e, t₁.writeAll before) := by
  obtain ⟨e, he⟩ := run_writeBundles_of_not hf hb hx
  refine ⟨e, ?_⟩
  rw [emit, run_bind, hmake]
  dsimp only
  rw [run_bind, he]

end Emitting

/-! ## Builds -/

section Builds

variable {root : Path} {m : Manifest} {output : Option Path} {c : Collection}

theorem build_of_ok (hdir : output.getD (m.outputPath root) = dir)
    (hc : (t.collect root m).result = .ok c) {written : List Path}
    (h : (emit m.emissionOptions c.fragments dir).run t = (.ok written, u)) :
    t.build root m output =
      (⟨.ok ⟨dir, c.fragments, written, c.skipped⟩, (t.collect root m).log⟩, u) := by
  rw [build]
  simp only [hdir, hc, h]

theorem build_of_error (hdir : output.getD (m.outputPath root) = dir)
    (hc : (t.collect root m).result = .ok c) {e : FileError}
    (h : ((emit m.emissionOptions c.fragments dir).run t).1 = .error e) :
    t.build root m output = (⟨.error (.file e), (t.collect root m).log⟩,
      ((emit m.emissionOptions c.fragments dir).run t).2) := by
  rw [build]
  simp only [hdir, hc]
  cases hr : (emit m.emissionOptions c.fragments dir).run t with
  | mk r u =>
    rw [hr] at h
    obtain rfl : r = .error e := h
    rfl

theorem exists_of_build {r : BuildResult} (hdir : output.getD (m.outputPath root) = dir)
    (h : (t.build root m output).1.result = .ok r) : ∃ c, (t.collect root m).result = .ok c ∧
      (emit m.emissionOptions c.fragments dir).run t = (.ok r.written, (t.build root m output).2) ∧
        r = ⟨dir, c.fragments, r.written, c.skipped⟩ := by
  cases hc : (t.collect root m).result with
  | error e =>
    simp only [build, hc] at h
    cases h
  | ok c =>
    cases hrun : (emit m.emissionOptions c.fragments dir).run t with
    | mk result u =>
      cases result with
      | error e =>
        simp only [build_of_error hdir hc (congrArg Prod.fst hrun)] at h
        cases h
      | ok written =>
        rw [build_of_ok hdir hc hrun] at h ⊢
        cases h
        exact ⟨c, rfl, hrun, rfl⟩

/-- The files of the bundles of a build that reads the files `files`. -/
def Tree.bundlesOf (t : Tree) (m : Manifest) (dir : Path) (names : List String)
    (files : List Path) : List (Path × ByteArray) :=
  m.emissionOptions.files dir (groupFragments (files.flatMap (t.fragmentsIn names)))

/-- What a build does. It reads the files `files`, and the directory `dir` for its bundles is there
in `t₁`, at the location `loc`. -/
structure BuildsEach (t : Tree) (root : Path) (m : Manifest) (output : Option Path)
    (names : List String) (t₁ : Tree) (dir : Path) (loc : List String) (files : List Path) :
    Prop where
  nodup : files.Nodup
  located : t₁.locate dir = .ok loc ∧ t₁.isDirectoryAt loc = true
  /-- Whatever the files hold, the same ones are read, collecting succeeds, and each adds what it
  alone holds. -/
  collects : ∀ u : Tree, u.blank = t.blank → (u.collect root m).result =
    .ok ⟨files.flatMap (u.fragmentsIn names), files.filter u.isUnloadable⟩
  /-- One that cannot be loaded adds nothing. -/
  unloadable : ∀ (u : Tree) file, u.isUnloadable file = true → u.fragmentsIn names file = []
  /-- One that holds something else adds something else, and changes nothing that others add. -/
  isolated : ∀ (u : Tree) file, file ∈ files →
    (∀ f ∈ files, f ≠ file → u.readFile f = t.readFile f) → ∃ before after,
      files.flatMap (t.fragmentsIn names) = before ++ t.fragmentsIn names file ++ after ∧
      files.flatMap (u.fragmentsIn names) = before ++ u.fragmentsIn names file ++ after
  /-- In a component, what stands before a closed component and what follows it add the same
  together as they do by themselves. -/
  declarations : ∀ close : Instruction, close.kind = .closeComponent → ∀ name scope before rest,
    Component.fragments names ⟨name, scope, before ++ close :: rest⟩ =
      Component.fragments names ⟨name, scope, before ++ [close]⟩ ++
        Component.fragments names ⟨name, scope, rest⟩
  /-- A bundle whose file gets a usable name can be written. -/
  usable : ∀ key, m.emissionOptions.Usable t₁ loc key →
    t₁.Writable (m.emissionOptions.bundlePath dir key)
  /-- If all bundles can be written then the build succeeds and has written them, and with pruning
  no others are left. -/
  completes : (∀ x ∈ t.bundlesOf m dir names files, t₁.Writable x.1) →
    (m.prune = true → t₁.Prunable loc m.scriptExt) →
    ∃ u, t.build root m output = (⟨.ok ⟨dir, files.flatMap (t.fragmentsIn names),
        (t.bundlesOf m dir names files).map Prod.fst, files.filter t.isUnloadable⟩,
          (t.collect root m).log⟩, u) ∧
      u.HoldsAll (t.bundlesOf m dir names files) ∧
      (m.prune = true → ∀ n ∈ u.bundleNames loc m.scriptExt,
        n ∈ ((t.bundlesOf m dir names files).map Prod.fst).map Path.name)
  /-- Otherwise it fails when it comes to the first that cannot be written: those before it are
  written, and that is all. -/
  stops : ∀ before x after, t.bundlesOf m dir names files = before ++ x :: after →
    (∀ y ∈ before, t₁.Writable y.1) → ¬ t₁.Writable x.1 →
      ∃ e, t.build root m output =
        (⟨.error (.file e), (t.collect root m).log⟩, t₁.writeAll before)

/-- **Builds fail over nothing but names of bundles.** If a manifest can be followed and the
directory for bundles can be created, then a build writes the bundles of whatever the render files
hold, where what is wrong in one file, or in one declaration, has no effect on others; unless one of
the bundles has a name that no file can have. -/
theorem Tree.buildsEach (ht : t.WellFormed) {names : List String}
    (hnames : m.scriptNames = .ok names) (hm : t.Searchable root m)
    (hdir : output.getD (m.outputPath root) = dir)
    (hmake : (makeDirectories dir).run t = (.ok (), t₁)) :
    ∃ loc files, BuildsEach t root m output names t₁ dir loc files := by
  obtain ⟨hnul, loc, hloc, hd⟩ := (creates_makeDirectories dir).directory _ _ hmake
  obtain ⟨files, hfiles⟩ := hm.discover
  have hcollect := collect_eq hnames hfiles
  refine ⟨loc, files,
    { nodup := nodup_of_discover hfiles
      located := ⟨hloc, hd⟩
      collects := fun u hu => collect_eq hnames ?collects
      unloadable := fun u file => fragmentsIn_of_unloadable
      isolated := fun u file hfile => exists_of_other_files (nodup_of_discover hfiles) hfile
      declarations := fun close hclose => fragments_of_closed hclose
      usable := fun key hkey => hkey.writable hnul hloc hd
      completes := fun hw hp => ?completes
      stops := fun before x after hf hb hx => ?stops }⟩
  case collects => rw [← discover_blank, hu, discover_blank, hfiles]
  case completes =>
    obtain ⟨u, hu, hpruned⟩ := exists_of_writable ht hmake hloc hw hp
    obtain ⟨t₂, ps, hpass⟩ := pass_of_run ht hu
    exact ⟨u, build_of_ok hdir hcollect hu, hpass.holds ht, hpruned⟩
  case stops =>
    obtain ⟨e, he⟩ := exists_of_not_writable hmake hf hb hx
    have hbuild := build_of_error hdir hcollect (congrArg Prod.fst he)
    rw [he] at hbuild
    exact ⟨e, hbuild⟩

/-- A render file of a component that has one script. -/
def scriptText (name body : String) : String :=
  String.join ["\x7b\"name\": \"", name, "\", \"instructions\": [\x7b",
    "\"kind\": \"open_component\", ", "\"name\": \"Script\"\x7d, \x7b",
    "\"kind\": \"add_content\", ", "\"value\": \"", body, "\"\x7d, \x7b",
    "\"kind\": \"close_component\"", "\x7d]\x7d"]

/-- A project with a file that holds no component and one with a script. -/
def Tree.twoFiles : Tree :=
  ⟨[(["A.render.json"], .file "[]]".toUTF8),
    (["B.render.json"], .file (scriptText "B" "b()").toUTF8)], []⟩

theorem Tree.collect_twoFiles (hsources : m.sources = [.string "."])
    (hnames : m.scriptNames = .ok ["Script"]) : (twoFiles.collect ⟨1, []⟩ m).result =
      .ok ⟨[⟨"B", "b()", false, some "index", none, true, none, false, false⟩],
        [⟨1, ["A.render.json"]⟩]⟩ := by
  have hfound : (twoFiles.filesOfSources ⟨1, []⟩ m.sources).result =
      .ok [⟨1, ["A.render.json"]⟩, ⟨1, ["B.render.json"]⟩] := by
    rw [hsources]
    decide +kernel
  have hfiles : (twoFiles.discover ⟨1, []⟩ m).result =
      .ok [⟨1, ["A.render.json"]⟩, ⟨1, ["B.render.json"]⟩] := by
    rw [discover, hfound]
    exact congrArg Except.ok (List.mergeSort_of_pairwise (by decide +kernel))
  -- The text of a file is read without decoding its bytes.
  have hfirst : twoFiles.isUnloadable ⟨1, ["A.render.json"]⟩ = true := by
    rw [isUnloadable_of_text (readFile_eq_ok.2 ⟨rfl, ["A.render.json"], rfl, rfl⟩)]
    decide +kernel
  have hread : twoFiles.readFile ⟨1, ["B.render.json"]⟩ = .ok (scriptText "B" "b()").toUTF8 :=
    readFile_eq_ok.2 ⟨rfl, ["B.render.json"], rfl, rfl⟩
  have hsecond : twoFiles.isUnloadable ⟨1, ["B.render.json"]⟩ = false := by
    rw [isUnloadable_of_text hread, scriptText, String.toList_join]
    decide +kernel
  have hscript : twoFiles.fragmentsIn ["Script"] ⟨1, ["B.render.json"]⟩ =
      [⟨"B", "b()", false, some "index", none, true, none, false, false⟩] := by
    rw [fragmentsIn_of_text hread, scriptText, String.toList_join]
    decide +kernel
  rw [collect_eq hnames hfiles, List.flatMap_cons, List.flatMap_singleton,
    fragmentsIn_of_unloadable hfirst, hscript, List.filter_cons_of_pos hfirst,
    List.filter_cons_of_neg (by simp [hsecond])]
  rfl

/-- A project with a file that holds no component and one with a script, where bundles of earlier
builds are removed. -/
theorem Tree.buildsEach_two_files :
    let t : Tree := ⟨[(["A.render.json"], .file "[]]".toUTF8),
      (["B.render.json"], .file (scriptText "B" "b()").toUTF8)], []⟩
    let m : Manifest := { Manifest.defaults with prune := true }
    let dir : Path := ⟨1, ["wwwroot", "inlinejs"]⟩
    let r := (makeDirectories dir).run t
    t.WellFormed ∧ m.scriptNames = .ok ["Script"] ∧ t.Searchable ⟨1, []⟩ m ∧
      (none : Option Path).getD (m.outputPath ⟨1, []⟩) = dir ∧ r = (.ok (), r.2) ∧
      ∃ loc files, BuildsEach t ⟨1, []⟩ m none ["Script"] r.2 dir loc files := by
  intro t m dir r
  have ht : t.WellFormed := by decide +kernel
  have hnames : m.scriptNames = .ok ["Script"] := by decide +kernel
  have hm : t.Searchable ⟨1, []⟩ m := fun s hs => by
    obtain rfl := List.mem_singleton.1 hs
    exact ⟨".", true, rfl, by decide +kernel, by decide +kernel⟩
  have hdir : (none : Option Path).getD (m.outputPath ⟨1, []⟩) = dir := by decide +kernel
  have hr : r = (.ok (), r.2) := Prod.ext (by decide +kernel) rfl
  exact ⟨ht, hnames, hm, hdir, hr, Tree.buildsEach ht hnames hm hdir hr⟩

/-- A bundle that is not written because of another. The component of the first file has a slash in
its name, there is no directory of that name, and the script of the second file is not written. -/
theorem Tree.build_stopped :
    let t : Tree := ⟨[(["A.render.json"], .file (scriptText "a/b" "a()").toUTF8),
      (["B.render.json"], .file (scriptText "B" "b()").toUTF8)], []⟩
    let r := t.build ⟨1, []⟩ Manifest.defaults none
    let a : Path := ⟨1, ["wwwroot", "inlinejs", "a", "b.index.g.js"]⟩
    let b : Path := ⟨1, ["wwwroot", "inlinejs", "B.index.g.js"]⟩
    (t.fragmentsIn ["Script"] ⟨1, ["B.render.json"]⟩).map Fragment.body = ["b()"] ∧
      r.1.result.map BuildResult.written = .error (.file (.refused .notFound a)) ∧
      r.2.readFile b = .error (.refused .notFound b) := by
  intro t r a b
  have hfound : (t.filesOfSources ⟨1, []⟩ Manifest.defaults.sources).result =
      .ok [⟨1, ["A.render.json"]⟩, ⟨1, ["B.render.json"]⟩] := by decide +kernel
  have hfiles : (t.discover ⟨1, []⟩ Manifest.defaults).result =
      .ok [⟨1, ["A.render.json"]⟩, ⟨1, ["B.render.json"]⟩] := by
    rw [discover, hfound]
    exact congrArg Except.ok (List.mergeSort_of_pairwise (by decide +kernel))
  have hnames : Manifest.defaults.scriptNames = .ok ["Script"] := by decide +kernel
  have hdir : (none : Option Path).getD (Manifest.defaults.outputPath ⟨1, []⟩) =
      ⟨1, ["wwwroot", "inlinejs"]⟩ := by decide +kernel
  -- The text of a file is read without decoding its bytes.
  have hfirst : t.fragmentsIn ["Script"] ⟨1, ["A.render.json"]⟩ =
      [⟨"a/b", "a()", false, some "index", none, true, none, false, false⟩] := by
    rw [fragmentsIn_of_text (readFile_eq_ok.2 ⟨rfl, ["A.render.json"], rfl, rfl⟩), scriptText,
      String.toList_join]
    decide +kernel
  have hsecond : t.fragmentsIn ["Script"] ⟨1, ["B.render.json"]⟩ =
      [⟨"B", "b()", false, some "index", none, true, none, false, false⟩] := by
    rw [fragmentsIn_of_text (readFile_eq_ok.2 ⟨rfl, ["B.render.json"], rfl, rfl⟩), scriptText,
      String.toList_join]
    decide +kernel
  have hcollect := collect_eq hnames hfiles
  rw [List.flatMap_cons, List.flatMap_singleton, hfirst, hsecond] at hcollect
  have hr := build_of_error hdir hcollect (e := .refused .notFound a) (by decide +kernel)
  refine ⟨by rw [hsecond]; rfl, ?_, ?_⟩
  · exact congrArg (fun x => x.1.result.map BuildResult.written) hr
  · refine (congrArg (fun x => x.2.readFile b) hr).trans ?_
    decide +kernel

end Builds

end ScriptBundle
