import ScriptBundle.CommandLine.Run
import ScriptBundle.Proofs.Building
import ScriptBundle.Proofs.Console.Lines
import ScriptBundle.Proofs.Console.Readable
import ScriptBundle.Proofs.Declarations
import ScriptBundle.Proofs.Pruning
/-!
# The table of scripts shows what a build writes

The table has a row for each fragment, group by group, and a build writes a bundle for each group,
since no script that is extracted is blank (`isBlank_of_mem_fragments`). So the bundles in the table
are those that are written, in the same order, on every console: `inspect_shows`.
-/

namespace ScriptBundle

open FileOperation ScriptBundle.Tree ScriptBundle.Console

/-! ## No script is blank -/

theorem isBlank_of_mem_fragmentsIn {t : Tree} {names : List String} {file : Path} {f : Fragment}
    (hf : f ∈ t.fragmentsIn names file) : f.isBlank = false := by
  rw [fragmentsIn] at hf
  split at hf
  next cs _ =>
    obtain ⟨c, -, hf⟩ := List.mem_flatMap.1 hf
    exact isBlank_of_mem_fragments hf
  next => cases hf

theorem isBlank_of_collect {t : Tree} {root : Path} {m : Manifest} {c : Collection}
    (h : (t.collect root m).result = .ok c) : ∀ f ∈ c.fragments, f.isBlank = false := by
  obtain ⟨names, files, -, -, rfl⟩ := exists_of_collect h
  intro f hf
  obtain ⟨file, -, hf⟩ := List.mem_flatMap.1 hf
  exact isBlank_of_mem_fragmentsIn hf

/-! ## Groups, one after the other -/

/-- The fragments of groups with the keys of the groups. -/
def keyedFragments (gs : List BundleGroup) : List (String × Fragment) :=
  gs.flatMap fun g => g.fragments.map fun f => (g.key, f)

theorem map_snd_keyedFragments (gs : List BundleGroup) :
    (keyedFragments gs).map Prod.snd = gs.flatMap BundleGroup.fragments := by
  simp [keyedFragments, List.map_flatMap, Function.comp_def]

theorem map_fst_keyedFragments (gs : List BundleGroup) : (keyedFragments gs).map Prod.fst =
    gs.flatMap fun g => g.fragments.map fun _ => g.key := by
  simp [keyedFragments, List.map_flatMap, Function.comp_def]

theorem eraseDups_keyedFragments {gs : List BundleGroup} (hn : (gs.map BundleGroup.key).Nodup)
    (hne : ∀ g ∈ gs, g.fragments ≠ []) :
    ((keyedFragments gs).map Prod.fst).eraseDups = gs.map BundleGroup.key := by
  rw [map_fst_keyedFragments, eraseDups_keys hn hne]

/-! ## The table -/

namespace CommandLine

/-- The row of a fragment, under the key of a bundle. -/
def scriptRow (ext : String) (c : String × Fragment) : List String :=
  [bundleFileName c.1 ext, c.2.ownerId, if c.2.globalBundle then "yes" else "",
    Decimal.intText (Text.lines c.2.body).length]

theorem scriptRows_eq (ext : String) (fs : List Fragment) :
    scriptRows ext fs = (keyedFragments (groupFragments fs)).map (scriptRow ext) := by
  simp [scriptRows, keyedFragments, scriptRow, List.map_flatMap, Function.comp_def]

theorem nothingFound_eq : nothingFound = inStyle "dim" "No inline scripts found." ++ "" := by
  decide +kernel

theorem bareText?_nothingFound (c : Console) :
    c.bareText? nothingFound = some "No inline scripts found." := by
  rw [nothingFound_eq, bareText?_inStyle (by decide +kernel) (by decide +kernel)]
  rfl

theorem tagsAreWords_nothingFound : TagsAreWords nothingFound.toList := by
  rw [nothingFound_eq]
  exact tagsAreWords_inStyle (by decide +kernel) (by decide +kernel) tagsAreWords_nil

/-- The line for no scripts can be printed. -/
theorem shown_nothingFound (c : Console) :
    shown c nothingFound = .ok (c.laidOut "No inline scripts found.") := by
  rw [shown, line?, if_pos tagsAreWords_nothingFound.draws, bareText?_nothingFound]
  rfl

theorem shown_nothingFound_of_room {c : Console} (h : 24 ≤ c.lineWidth) :
    shown c nothingFound = .ok "No inline scripts found.\n" := by
  have hfits : c.Fits "No inline scripts found." := fun line hline => by
    have hwidth : ∀ l ∈ Text.splitOnChar '\n' "No inline scripts found.", Text.width l ≤ 24 := by
      decide +kernel
    exact (hwidth line hline).trans h
  rw [shown_nothingFound, laidOut_of_fits (by decide +kernel) hfits]
  rfl

theorem mem_toList_join {s : String} {ss : List String} (hs : s ∈ ss) {c : Char}
    (hc : c ∈ s.toList) : c ∈ (String.join ss).toList := by
  rw [String.toList_join]
  exact List.mem_flatMap.2 ⟨s, hs, hc⟩

/-- A table has its frame whether or not there is room for it. -/
theorem corner_mem_tableText? {c : Console} {title : String} {columns : List Column}
    {rows : List (List String)} {s : String} (h : c.tableText? title columns rows = some s) :
    '┏' ∈ s.toList := by
  rw [tableText?] at h
  split_ifs at h
  obtain ⟨cells, -, rfl⟩ := Option.map_eq_some_iff.1 h
  have hcorner : ∃ l ∈ c.tableLines title columns cells, '┏' ∈ l.toList := by
    rw [tableLines]
    split_ifs
    · exact exists_corner title columns cells
    · exact c.squeeze_corner title columns cells
  obtain ⟨l, hl, hmem⟩ := hcorner
  refine mem_toList_join (List.mem_map_of_mem (f := (· ++ "\n")) hl) ?_
  rw [String.toList_append]
  exact List.mem_append_left _ hmem

/-- How a command ends tells what it has printed. -/
theorem map_end_injective {r r' : Except Fault String}
    (h : (r.map fun s => (⟨0, s⟩ : Ending)) = r'.map fun s => ⟨0, s⟩) : r = r' := by
  cases r <;> cases r' <;> cases h <;> rfl

/-- The frame of a table is not found in the line that is printed if there are no scripts. -/
theorem shownTable_ne (c : Console) (rows : List (List String)) :
    shownTable c rows ≠ shown c nothingFound := by
  intro h
  rw [shown_nothingFound, shownTable] at h
  cases hrows : c.tableText? "Inline script bundles" scriptColumns rows with
  | none =>
    rw [hrows] at h
    cases h
  | some s =>
    rw [hrows] at h
    have hcorner := corner_mem_tableText? hrows
    rw [Except.ok.inj h] at hcorner
    have hmessage : ∀ ch ∈ "No inline scripts found.".toList, ch ≠ '┏' := by simp
    exact forall_mem_laidOut (by decide) (by decide) hmessage _ hcorner rfl

/-! ## Agreement -/

/-- What the table of scripts shows on a console of what a build did: its rows are those of the
fragments `cells`, each under the key of a bundle. -/
structure Shows (c : Console) (m : Manifest) (o : EmissionOptions) (r : BuildResult)
    (shows : Outcome) (cells : List (String × Fragment)) : Prop where
  /-- If there are rows then the table has these. -/
  table : cells ≠ [] →
    shows = (shownTable c (cells.map (scriptRow m.scriptExt))).map fun s => ⟨0, s⟩
  /-- Each fragment has one row, -/
  once : (cells.map Prod.snd).Perm r.fragments
  /-- which stands under the key of its bundle. -/
  own : ∀ c ∈ cells, c.1 = c.2.bundleKey
  /-- The keys in the order of rows are those of the bundles that have content, -/
  keys : (cells.map Prod.fst).eraseDups = (o.bundles (groupFragments r.fragments)).map Prod.fst
  /-- and these are written in that order. -/
  written : r.written = (cells.map Prod.fst).eraseDups.map (o.bundlePath r.outputDir)
  /-- If nothing is written then the line for no scripts is printed instead, and only then. -/
  nothing : shows = (shown c nothingFound).map (fun s => ⟨0, s⟩) ↔ r.written = []
  /-- That line is this, if there is room for it. -/
  message : 24 ≤ c.lineWidth → shown c nothingFound = .ok "No inline scripts found.\n"

/-- **The table shows what a build writes.** If a build of the project in a tree succeeds, with or
without class wrapping, then the bundles in the table of its scripts are those that were written, in
the same order, and each fragment has one row. -/
theorem inspect_shows {t : Tree} {override : Option String} {project : String} {root : Path}
    {m : Manifest} {output : Option Path} {r : BuildResult} (console : Console)
    (wrapping prune : Bool) (hroot : projectRoot t project = .ok root)
    (hm : t.findManifest override root = .ok m)
    (h : (t.build root { m with classWrapping := wrapping, prune := prune } output).1.result =
      .ok r) :
    ∃ cells, Shows console m
      (Manifest.emissionOptions { m with classWrapping := wrapping, prune := prune }) r
        (runInspect console t override project) cells := by
  obtain ⟨c, hc, hrun, hr⟩ := exists_of_build rfl h
  set o := Manifest.emissionOptions { m with classWrapping := wrapping, prune := prune } with ho
  have hblank := isBlank_of_collect hc
  have hfragments : r.fragments = c.fragments := by rw [hr]
  have hdir : r.outputDir = output.getD (m.outputPath root) := by rw [hr]; rfl
  obtain ⟨t₁, -, -, hpaths, -⟩ := emit_eq_ok.1 hrun
  set cells := keyedFragments (groupFragments r.fragments) with hcells
  have hkeys : (cells.map Prod.fst).eraseDups =
      (o.bundles (groupFragments r.fragments)).map Prod.fst := by
    rw [map_fst_bundles (hfragments ▸ hblank), hcells,
      eraseDups_keyedFragments (nodup_groupFragments _) fun g => ne_nil_of_mem_groupFragments]
  have hwritten : r.written = (cells.map Prod.fst).eraseDups.map (o.bundlePath r.outputDir) := by
    rw [hpaths, hkeys, hfragments, hdir, EmissionOptions.files, List.map_map, List.map_map]
    rfl
  have hinspect : runInspect console t override project =
      (inspectReport console m.scriptExt r.fragments).map fun s => ⟨0, s⟩ := by
    have hcollect : (t.collect root m).result = .ok c := hc
    simp only [runInspect, hroot, hm, hcollect, hfragments]
  have hempty : cells = [] ↔ r.fragments = [] := by
    rw [← List.map_eq_nil_iff (f := Prod.snd), hcells, map_snd_keyedFragments]
    exact ⟨fun h => ((flatMap_groupFragments_perm _).symm.trans (h ▸ .refl _)).eq_nil,
      fun h => by rw [h]; rfl⟩
  have htable : cells ≠ [] → runInspect console t override project =
      (shownTable console (cells.map (scriptRow m.scriptExt))).map fun s => ⟨0, s⟩ := by
    intro hne
    rw [hinspect, inspectReport, if_neg (by simpa using mt hempty.2 hne), scriptRows_eq]
  refine ⟨cells, ⟨htable, ?once, ?own, hkeys, hwritten, ?nothing, shown_nothingFound_of_room⟩⟩
  case once => exact map_snd_keyedFragments _ ▸ flatMap_groupFragments_perm _
  case own =>
    intro x hx
    obtain ⟨g, hg, hx⟩ := List.mem_flatMap.1 hx
    obtain ⟨f, hf, rfl⟩ := List.mem_map.1 hx
    exact (key_of_mem_groupFragments hg f hf).symm
  case nothing =>
    by_cases hnone : cells = []
    · refine iff_of_true ?_ (by rw [hwritten, hnone]; rfl)
      rw [hinspect, inspectReport, if_pos (by simpa using hempty.1 hnone)]
    · refine iff_of_false (fun heq => ?_) ?_
      · rw [htable hnone] at heq
        exact shownTable_ne console _ (map_end_injective heq)
      · obtain ⟨x, hx⟩ := List.exists_mem_of_ne_nil _ hnone
        have hkey : x.1 ∈ (cells.map Prod.fst).eraseDups :=
          List.mem_eraseDups.2 (List.mem_map_of_mem hx)
        exact hwritten ▸ List.ne_nil_of_mem (List.mem_map_of_mem hkey)

/-- A project with one script, which is built with class wrapping. -/
theorem inspect_shows_script :
    let m : Manifest := { Manifest.defaults with classWrapping := true, prune := false }
    let r := (twoFiles.build ⟨1, []⟩ m none).1.result
    projectRoot twoFiles "." = .ok ⟨1, []⟩ ∧
      twoFiles.findManifest none ⟨1, []⟩ = .ok Manifest.defaults ∧ ∃ result, r = .ok result ∧
        result.written = [⟨1, ["wwwroot", "inlinejs", "B.index.g.js"]⟩] ∧
          ∃ cells, Shows .wide Manifest.defaults m.emissionOptions result
            (runInspect .wide twoFiles none ".") cells := by
  intro m r
  have hroot : projectRoot twoFiles "." = .ok ⟨1, []⟩ := by decide +kernel
  have hm : twoFiles.findManifest none ⟨1, []⟩ = .ok Manifest.defaults := by rfl
  have hcollect := collect_twoFiles (m := m) rfl (by decide +kernel)
  have hr : ∃ result, r = .ok result ∧
      result.written = [⟨1, ["wwwroot", "inlinejs", "B.index.g.js"]⟩] := by
    exact ⟨_, congrArg (fun x => x.1.result) (build_of_ok rfl hcollect
      (Prod.ext (by decide +kernel) rfl)), rfl⟩
  obtain ⟨result, hresult, hwritten⟩ := hr
  exact ⟨hroot, hm, result, hresult, hwritten,
    inspect_shows .wide true false hroot hm hresult⟩

end CommandLine

end ScriptBundle
