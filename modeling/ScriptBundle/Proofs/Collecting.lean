import ScriptBundle.Discovery
import ScriptBundle.Proofs.Lists
import ScriptBundle.Proofs.Tree.Patterns
/-!
# Collecting, file by file

Which render files are found depends on the files and directories that there are, and not on what
the files hold (`discover_blank`). What they hold decides no more than what each of them adds by
itself (`collect_eq`), and in a component a declaration ends where a component is closed: what comes
after that is read as if nothing stood before it (`fragments_of_closed`).
-/

namespace ScriptBundle

/-! ## Trees of which only the shape is left -/

/-- A directory, or an empty file in place of a file. -/
def Entry.blank : Entry → Entry
  | .file _ => .file .empty
  | .directory => .directory

namespace Tree

/-- The tree in which all files are empty. -/
def blank (t : Tree) : Tree :=
  { t with entries := t.entries.map fun x => (x.1, x.2.blank) }

variable (t : Tree)

@[simp] theorem entryAt?_blank (loc : List String) :
    t.blank.entryAt? loc = (t.entryAt? loc).map Entry.blank := by
  rw [entryAt?, entryAt?]
  split_ifs
  · rfl
  · rw [blank]
    induction t.entries with
    | nil => rfl
    | cons x entries ih =>
      rw [List.map_cons, List.lookup_cons, List.lookup_cons, ih]
      split <;> rfl

@[simp] theorem isDirectoryAt_blank (loc : List String) :
    t.blank.isDirectoryAt loc = t.isDirectoryAt loc := by
  rw [isDirectoryAt, isDirectoryAt, entryAt?_blank]
  cases t.entryAt? loc with
  | none => rfl
  | some e => cases e <;> rfl

@[simp] theorem enter_blank : t.blank.enter = t.enter := by
  funext loc p
  rw [enter, enter, entryAt?_blank]
  cases t.entryAt? loc with
  | none => rfl
  | some e => cases e <;> rfl

@[simp] theorem locate_blank (p : Path) : t.blank.locate p = t.locate p := by
  rw [locate, locate, enter_blank]
  rfl

@[simp] theorem names_blank (loc : List String) : t.blank.names loc = t.names loc := by
  rw [names_eq, names_eq, blank, List.map_map]
  rfl

/-- A test that empty files pass as others do. -/
theorem test_blank {holds : Entry → Bool} (h : ∀ e, holds e.blank = holds e) (p : Path) :
    t.blank.test p holds = t.test p holds := by
  rw [test, test, stat, stat, locate_blank]
  cases t.locate p with
  | error k => rfl
  | ok loc =>
    dsimp only
    rw [entryAt?_blank]
    cases t.entryAt? loc with
    | none => rfl
    | some e => simp [h]

@[simp] theorem existsAt_blank (p : Path) : t.blank.existsAt p = t.existsAt p :=
  t.test_blank (fun _ => rfl) p

@[simp] theorem isDirectory_blank (p : Path) : t.blank.isDirectory p = t.isDirectory p :=
  t.test_blank (fun e => by cases e <;> rfl) p

end Tree

namespace Glob

variable (t : Tree)

@[simp] theorem directoryLocation_blank (p : Path) :
    directoryLocation t.blank p = directoryLocation t p := by
  simp [directoryLocation]

@[simp] theorem directoriesBelow_blank (fuel : Nat) (loc : List String) :
    directoriesBelow t.blank fuel loc = directoriesBelow t fuel loc := by
  induction fuel generalizing loc with
  | zero => rfl
  | succ fuel ih => simp [directoriesBelow, ih]

theorem select_blank (onlyDirectories : Bool) (selectors : List Selector) (p : Path) :
    select t.blank onlyDirectories selectors p = select t onlyDirectories selectors p := by
  have hlength : t.blank.entries.length = t.entries.length := by simp [Tree.blank]
  induction selectors generalizing p with
  | nil => rfl
  | cons s rest ih => cases s <;> simp [select, ih, hlength]

/-- Looking for names below a directory does not fail. -/
theorem exists_of_select_directories (t : Tree) (pat : String) (p : Path) :
    ∃ found, select t false [.directories, .pattern pat] p = .ok found := by
  rw [select]
  cases directoryLocation t p with
  | none => exact ⟨_, rfl⟩
  | some loc =>
    have hpure : ∀ (ds : List (List String)) (g : List String → List Path), ds.mapM (fun d =>
        (.ok (g d) : Except FileError (List Path))) = .ok (ds.map g) := fun ds g => List.mapM_pure
    simp only [select_pattern, hpure]
    exact ⟨_, rfl⟩

end Glob

/-! ## The files that are found -/

namespace Tree

variable (t : Tree) (root : Path) (m : Manifest)

theorem sourceFiles_blank (s : Value) : t.blank.sourceFiles root s = t.sourceFiles root s := by
  cases s with
  | string rel => simp [sourceFiles, renderFilesBelow, Glob.select_blank]
  | _ => rfl

theorem filesOfSources_blank (ss : List Value) :
    t.blank.filesOfSources root ss = t.filesOfSources root ss := by
  induction ss with
  | nil => rfl
  | cons s ss ih => rw [filesOfSources, filesOfSources, sourceFiles_blank, ih]

/-- What files hold does not matter for which are found. -/
theorem discover_blank : t.blank.discover root m = t.discover root m := by
  rw [discover, discover, filesOfSources_blank]

/-- The sources of a manifest can be looked up: each is a text, and the file system can tell whether
there is something at its path. -/
def Searchable (t : Tree) (root : Path) (m : Manifest) : Prop :=
  ∀ s ∈ m.sources, ∃ rel found, s = .string rel ∧ (Path.ofString rel).hasNul = false ∧
    t.existsAt (Path.resolve root (Path.ofString rel)) = .ok found

variable {t root m}

theorem exists_of_sourceFiles {rel : String} {found : Bool}
    (hnul : (Path.ofString rel).hasNul = false)
    (hfound : t.existsAt (Path.resolve root (Path.ofString rel)) = .ok found) :
    ∃ r, t.sourceFiles root (.string rel) = .ok r := by
  rw [sourceFiles]
  simp only [hnul, hfound]
  cases found with
  | false => exact ⟨_, rfl⟩
  | true =>
    obtain ⟨files, hfiles⟩ := Glob.exists_of_select_directories t renderFilePattern
      (Path.resolve root (Path.ofString rel))
    simp only [renderFilesBelow, hfiles]
    exact ⟨_, rfl⟩

theorem Searchable.discover (h : t.Searchable root m) :
    ∃ files, (t.discover root m).result = .ok files := by
  have hsources : ∀ ss : List Value, (∀ s ∈ ss, s ∈ m.sources) →
      ∃ files, (t.filesOfSources root ss).result = .ok files := by
    intro ss
    induction ss with
    | nil => exact fun _ => ⟨_, rfl⟩
    | cons s ss ih =>
      intro hss
      obtain ⟨rel, found, rfl, hnul, hfound⟩ := h s (hss s List.mem_cons_self)
      obtain ⟨⟨files, log⟩, hr⟩ := exists_of_sourceFiles hnul hfound
      obtain ⟨rest, hrest⟩ := ih fun s hs => hss s (List.mem_cons_of_mem _ hs)
      rw [filesOfSources, hr]
      exact ⟨files ++ rest, by simp only [hrest]; rfl⟩
  obtain ⟨files, hfiles⟩ := hsources m.sources fun _ => id
  exact ⟨sortPaths files, by rw [Tree.discover, hfiles]; rfl⟩

end Tree

/-- Each file is read once. -/
theorem Tree.nodup_of_discover {t : Tree} {root : Path} {m : Manifest} {files : List Path}
    (h : (t.discover root m).result = .ok files) : files.Nodup := by
  rw [discover] at h
  cases hr : (t.filesOfSources root m.sources).result with
  | error e =>
    rw [hr] at h
    cases h
  | ok ps =>
    rw [hr] at h
    cases h
    exact (List.mergeSort_perm _ _).nodup_iff.2 (nodup_eraseDups ps)

/-! ## What files add -/

theorem Json.readBytes?_toUTF8 (s : String) : readBytes? s.toUTF8 = readText? s.toList := by
  have hs : String.fromUTF8? s.toUTF8 = some s := dif_pos s.isValidUTF8
  rw [readBytes?, hs]
  rfl

namespace Tree

/-- The fragments in a render file, of which there are none if it cannot be loaded. -/
def fragmentsIn (t : Tree) (names : List String) (file : Path) : List Fragment :=
  match t.loadRenderFile file with
  | .ok cs => cs.flatMap (·.fragments names)
  | .error _ => []

/-- Holds of a render file that cannot be loaded. -/
def isUnloadable (t : Tree) (file : Path) : Bool := !(t.loadRenderFile file).isOk

variable {t u : Tree} {root : Path} {m : Manifest} {names : List String} {files : List Path}
  {file : Path}

theorem fragmentsIn_congr (h : u.readFile file = t.readFile file) :
    u.fragmentsIn names file = t.fragmentsIn names file := by
  rw [fragmentsIn, fragmentsIn, loadRenderFile, loadRenderFile, h]

theorem isUnloadable_congr (h : u.readFile file = t.readFile file) :
    u.isUnloadable file = t.isUnloadable file := by
  rw [isUnloadable, isUnloadable, loadRenderFile, loadRenderFile, h]

/-- What is in a file that holds a text is what the text says. -/
theorem fragmentsIn_of_text {s : String} (h : t.readFile file = .ok s.toUTF8) :
    t.fragmentsIn names file = match Json.readText? s.toList with
      | some v => (decodeComponents v).toOption.elim [] fun cs => cs.flatMap (·.fragments names)
      | none => [] := by
  rw [fragmentsIn, loadRenderFile, h]
  dsimp only
  rw [componentsOfBytes, Json.readBytes?_toUTF8]
  cases Json.readText? s.toList with
  | none => rfl
  | some v => cases hd : decodeComponents v <;> simp [hd, Except.toOption]

theorem isUnloadable_of_text {s : String} (h : t.readFile file = .ok s.toUTF8) :
    t.isUnloadable file = match Json.readText? s.toList with
      | some v => !(decodeComponents v).isOk
      | none => true := by
  rw [isUnloadable, loadRenderFile, h]
  dsimp only
  rw [componentsOfBytes, Json.readBytes?_toUTF8]
  cases Json.readText? s.toList with
  | none => rfl
  | some v => cases hd : decodeComponents v <;> simp [hd, Except.isOk, Except.toBool]

theorem fragmentsIn_of_unloadable (h : t.isUnloadable file = true) :
    t.fragmentsIn names file = [] := by
  rw [isUnloadable] at h
  rw [fragmentsIn]
  cases hl : t.loadRenderFile file with
  | ok cs => simp [hl, Except.isOk, Except.toBool] at h
  | error p => rfl

theorem collectFile_eq : (t.collectFile names file).1 =
    ⟨t.fragmentsIn names file, if t.isUnloadable file then [file] else []⟩ := by
  rw [collectFile, fragmentsIn, isUnloadable]
  cases t.loadRenderFile file <;> rfl

theorem collectFiles_eq : (t.collectFiles names files).1 =
    ⟨files.flatMap (t.fragmentsIn names), files.filter t.isUnloadable⟩ := by
  rw [collectFiles, List.flatMap_map, List.flatMap_map]
  simp only [collectFile_eq]
  congr 1
  induction files with
  | nil => rfl
  | cons file files ih =>
    rw [List.flatMap_cons, ih, List.filter_cons]
    split_ifs <;> rfl

/-- What is collected from a project is what its files add one by one. -/
theorem collect_eq (hnames : m.scriptNames = .ok names)
    (hfiles : (t.discover root m).result = .ok files) : (t.collect root m).result =
      .ok ⟨files.flatMap (t.fragmentsIn names), files.filter t.isUnloadable⟩ := by
  rw [collect]
  simp only [hnames, hfiles, collectFiles_eq]

theorem exists_of_collect {c : Collection} (h : (t.collect root m).result = .ok c) :
    ∃ names files, m.scriptNames = .ok names ∧ (t.discover root m).result = .ok files ∧
      c = ⟨files.flatMap (t.fragmentsIn names), files.filter t.isUnloadable⟩ := by
  cases hnames : m.scriptNames with
  | error e =>
    simp only [collect, hnames] at h
    cases h
  | ok names =>
    cases hfiles : (t.discover root m).result with
    | error e =>
      simp only [collect, hnames, hfiles] at h
      cases h
    | ok files =>
      rw [collect_eq hnames hfiles] at h
      exact ⟨names, files, rfl, rfl, (Except.ok.inj h).symm⟩

/-- Whatever a file holds, it adds its fragments in one place and changes no others. -/
theorem exists_of_other_files (hnodup : files.Nodup) (hfile : file ∈ files)
    (h : ∀ f ∈ files, f ≠ file → u.readFile f = t.readFile f) : ∃ before after,
      files.flatMap (t.fragmentsIn names) = before ++ t.fragmentsIn names file ++ after ∧
      files.flatMap (u.fragmentsIn names) = before ++ u.fragmentsIn names file ++ after := by
  obtain ⟨before, after, rfl⟩ := List.append_of_mem hfile
  obtain ⟨-, hafter, hdisjoint⟩ := List.nodup_append.1 hnodup
  have hb : before.flatMap (u.fragmentsIn names) = before.flatMap (t.fragmentsIn names) :=
    List.flatMap_congr fun f hf => fragmentsIn_congr
      (h f (List.mem_append_left _ hf) (hdisjoint f hf file List.mem_cons_self))
  have ha : after.flatMap (u.fragmentsIn names) = after.flatMap (t.fragmentsIn names) :=
    List.flatMap_congr fun f hf => fragmentsIn_congr
      (h f (List.mem_append_right _ (List.mem_cons_of_mem _ hf)) fun heq =>
        (List.nodup_cons.1 hafter).1 (heq ▸ hf))
  refine ⟨before.flatMap (t.fragmentsIn names), after.flatMap (t.fragmentsIn names), ?_, ?_⟩
  · simp
  · simp [hb, ha]

end Tree

end ScriptBundle
