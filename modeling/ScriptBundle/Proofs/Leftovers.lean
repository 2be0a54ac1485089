import ScriptBundle.Proofs.Pruning
import ScriptBundle.Proofs.Tree.Names
/-!
# What pruning leaves

Pruning compares names only: a file that looks like a bundle is left if something with the same name
was written elsewhere, and what looks like a bundle is told by a pattern with the extension in it.
In `stale_bundle_left` the one leaves a file that was not written, and the other takes a file for a
bundle that is none. So pruning is exact if nothing is written elsewhere and the extension means
only itself (`prunes_run`, which says what it does in general).
-/

namespace ScriptBundle

open FileOperation ScriptBundle.Tree

/-- Something was written to a place: a path that was written leads there. -/
def Tree.Written (u : Tree) (paths : List Path) (loc : List String) : Prop :=
  ∃ p ∈ paths, u.locate p = .ok loc

/-- There is a file at a place. -/
def Tree.HasFile (t : Tree) (loc : List String) : Prop := ∃ b, t.entryAt? loc = some (.file b)

section Stale

variable {t : Tree} {dir p : Path} {ext : String} {loc q kept : List String} {n : String}

/-- If there is no slash in the extension then stale paths lead to places in the directory. -/
theorem Tree.WellFormed.leads_stale_iff (ht : t.WellFormed) (hslash : '/' ∉ ext.toList)
    (hstars : Glob.hasDoubleStar ext.toList = false) (hdir : t.locate dir = .ok loc)
    (hd : t.isDirectoryAt loc = true) :
    (∃ p, t.Stale dir ext kept p ∧ t.locate p = .ok q) ↔ ∃ n, q = loc ++ [n] ∧
      (∃ e, t.entryAt? q = some e) ∧ n ∉ kept ∧ Glob.nameMatches (bundlePattern ext) n = true := by
  simp only [stale_iff_name hslash]
  constructor
  · rintro ⟨_, ⟨-, -, n, rfl, hn, hkept, hmatch, q', e, hq', he⟩, hq⟩
    obtain rfl := Except.ok.inj (hq'.symm.trans (Tree.locate_below hdir hd hn))
    obtain rfl := Except.ok.inj (hq'.symm.trans hq)
    exact ⟨n, rfl, ⟨e, he⟩, hkept, hmatch⟩
  · rintro ⟨n, rfl, ⟨e, he⟩, hkept, hmatch⟩
    have hn := ht.isName he (List.mem_append_right loc List.mem_cons_self)
    have hq := Tree.locate_below hdir hd hn
    exact ⟨_, ⟨hstars, ⟨loc, hdir, hd⟩, n, rfl, hn, hkept, hmatch, _, e, hq, he⟩, hq⟩

end Stale

section Passes

variable {o : EmissionOptions} {fs : List Fragment} {dir p : Path} {t t₁ u : Tree}
  {paths ps : List Path} {loc q : List String} {n : String}

theorem Pass.hasFile_of_written (h : Pass o fs dir t t₁ paths ps u) (ht : t.WellFormed)
    (hq : u.Written paths q) : u.HasFile q := by
  obtain ⟨p, hp, hloc⟩ := hq
  obtain ⟨content, hread⟩ := h.exists_readFile ht hp
  obtain ⟨-, q', hloc', hfile⟩ := readFile_eq_ok.1 hread
  obtain rfl := Except.ok.inj (hloc'.symm.trans hloc)
  exact ⟨content, hfile⟩

/-- A path that was written leads to a place in the directory if its key is plain. -/
theorem Pass.locate_of_filledKeys (h : Pass o fs dir t t₁ paths ps u)
    (hdir : t₁.locate dir = .ok loc) (hplain : ∀ key ∈ o.filledKeys fs, o.Plain key) :
    ∀ p ∈ paths, u.locate p = .ok (loc ++ [p.name]) := by
  intro p hp
  rw [h.paths_eq] at hp
  obtain ⟨x, hx, rfl⟩ := List.mem_map.1 hp
  obtain ⟨b, hb, rfl⟩ := List.mem_map.1 hx
  have hkey : o.Plain b.1 := by
    refine hplain b.1 ?_
    rw [← map_fst_bundles_eq]
    exact List.mem_map_of_mem hb
  have hname : (o.bundlePath dir b.1).name = bundleFileName b.1 o.scriptExt := by
    simp [EmissionOptions.bundlePath_of_plain hkey, Path.name]
  rw [hname]
  exact h.locate_of_plain (h.same.locate_iff.2 hdir) hb hkey

namespace FullPass

/-- What is stale before the files are written is what is stale afterwards and was there. -/
theorem stale_before_iff (h : FullPass o fs dir t t₁ paths ps u) {kept : List String} :
    t₁.Stale dir o.scriptExt kept p ↔
      (t₁.writeAll (o.files dir (groupFragments fs))).Stale dir o.scriptExt kept p ∧ t₁.Has p :=
  stale_iff (sameDirectories_writeAll h.writable).symm (fun _ => has_writeAll h.writable)
    (HasDirectory.has h.directory)

/-- Where a stale path leads nothing is left. -/
theorem gone (h : FullPass o fs dir t t₁ paths ps u) (hprune : o.prune = true)
    (hp : t₁.Stale dir o.scriptExt (paths.map Path.name) p) (hq : t₁.locate p = .ok q) :
    u.entryAt? q = none := by
  have hmem : p ∈ ps := (h.cleared p).2 ⟨hprune, (h.stale_before_iff.1 hp).1⟩
  obtain ⟨q', hq', -, hnone⟩ := h.removes.gone p hmem
  obtain rfl := Except.ok.inj
    (hq'.symm.trans ((sameDirectories_writeAll h.writable).locate_iff.2 hq))
  exact hnone

/-- Any other file that was not written is left. -/
theorem kept (h : FullPass o fs dir t t₁ paths ps u) {b : ByteArray}
    (hq : t.entryAt? q = some (.file b)) (hne : ¬ u.Written paths q)
    (hstale : ∀ p, t₁.Stale dir o.scriptExt (paths.map Path.name) p → t₁.locate p ≠ .ok q) :
    u.entryAt? q = some (.file b) := by
  have hsame := sameDirectories_writeAll h.writable
  have hq₁ := h.grows.keeps q _ hq
  rw [h.removes.others q, entryAt?_writeAll_of_ne h.writable, hq₁]
  · intro x hx hloc
    exact hne ⟨x.1, h.paths_eq ▸ List.mem_map_of_mem hx, h.same.locate_iff.2 hloc⟩
  · intro p hp hloc
    have hloc₁ := hsame.locate_iff.1 hloc
    exact hstale p (h.stale_before_iff.2 ⟨((h.cleared p).1 hp).2, q, _, hloc₁, hq₁⟩) hloc₁

theorem not_hasDoubleStar (h : FullPass o fs dir t t₁ paths ps u) (hprune : o.prune = true)
    (hslash : '/' ∉ o.scriptExt.toList) : Glob.hasDoubleStar o.scriptExt.toList = false := by
  obtain ⟨found, hfound⟩ := h.found hprune
  rw [bundleFiles_eq hslash] at hfound
  split_ifs at hfound with hstars
  exact Bool.eq_false_iff.2 hstars

theorem leads_stale_iff (h : FullPass o fs dir t t₁ paths ps u) (ht : t.WellFormed)
    (hprune : o.prune = true) (hdir : t₁.locate dir = .ok loc) (hslash : '/' ∉ o.scriptExt.toList) :
    (∃ p, t₁.Stale dir o.scriptExt (paths.map Path.name) p ∧ t₁.locate p = .ok q) ↔
      ∃ n, q = loc ++ [n] ∧ (∃ e, t₁.entryAt? q = some e) ∧ n ∉ paths.map Path.name ∧
        Glob.nameMatches (bundlePattern o.scriptExt) n = true := by
  obtain ⟨loc', hdir', hd⟩ := h.directory
  obtain rfl := Except.ok.inj (hdir'.symm.trans hdir)
  exact (h.grows.wellFormed ht).leads_stale_iff hslash (h.not_hasDoubleStar hprune hslash) hdir hd

/-- A file with the name of a bundle is left where it was written, or something with its name was
written elsewhere. -/
theorem hasFile_iff (h : FullPass o fs dir t t₁ paths ps u) (ht : t.WellFormed)
    (hprune : o.prune = true) (hdir : t₁.locate dir = .ok loc) (hslash : '/' ∉ o.scriptExt.toList)
    (hn : Glob.nameMatches (bundlePattern o.scriptExt) n = true) : u.HasFile (loc ++ [n]) ↔
      u.Written paths (loc ++ [n]) ∨ t.HasFile (loc ++ [n]) ∧ n ∈ paths.map Path.name := by
  by_cases hw : u.Written paths (loc ++ [n])
  · exact iff_of_true (h.hasFile_of_written ht hw) (.inl hw)
  · rw [or_iff_right hw]
    -- Nothing was written here, so the file is as old as `t`, and stale unless its name is kept.
    constructor
    · rintro ⟨b, hb⟩
      have hb₀ := h.elsewhere hb fun p hp hloc => hw ⟨p, hp, hloc⟩
      refine ⟨⟨b, hb₀⟩, of_not_not fun hname => ?_⟩
      obtain ⟨p, hp, hloc⟩ := (h.leads_stale_iff ht hprune hdir hslash).2
        ⟨n, rfl, ⟨_, h.grows.keeps _ _ hb₀⟩, hname, hn⟩
      rw [h.gone hprune hp hloc] at hb
      cases hb
    · rintro ⟨⟨b, hb⟩, hname⟩
      refine ⟨b, h.kept hb hw fun p hp hloc => ?_⟩
      obtain ⟨m, hm, -, hnot, -⟩ := (h.leads_stale_iff ht hprune hdir hslash).1 ⟨p, hp, hloc⟩
      obtain rfl := List.singleton_inj.1 (List.append_cancel_left hm)
      exact hnot hname

end FullPass

/-- What a pass that succeeds leaves, by which the tree `t` has become `u`, with the directory
there in `t₁`. -/
structure Prunes (o : EmissionOptions) (fs : List Fragment) (dir : Path) (t t₁ u : Tree)
    (loc : List String) (paths : List Path) : Prop where
  made : (makeDirectories dir).run t = (.ok (), t₁)
  located : t₁.locate dir = .ok loc
  directory : t₁.isDirectoryAt loc = true
  /-- No directory is removed. -/
  same : t₁.SameDirectories u
  paths_eq : paths = (o.filledKeys fs).map (o.bundlePath dir)
  /-- Where something was written stands a file. -/
  written : ∀ q, u.Written paths q → u.HasFile q
  /-- Any other file was there before. -/
  elsewhere : ∀ q b, ¬ u.Written paths q → u.entryAt? q = some (.file b) →
    t.entryAt? q = some (.file b)
  /-- Nothing is left where a path leads that looks like a bundle and has another name than all that
  was written, -/
  gone : ∀ p q, t₁.Stale dir o.scriptExt (paths.map Path.name) p → t₁.locate p = .ok q →
    u.entryAt? q = none
  /-- and everything else is left as it was. -/
  kept : ∀ q b, ¬ u.Written paths q → t.entryAt? q = some (.file b) →
    (∀ p, t₁.Stale dir o.scriptExt (paths.map Path.name) p → t₁.locate p ≠ .ok q) →
      u.entryAt? q = some (.file b)
  /-- If there is no slash in the extension, these paths lead to places in the directory with names
  that match the pattern. -/
  direct : '/' ∉ o.scriptExt.toList → ∀ q,
    (∃ p, t₁.Stale dir o.scriptExt (paths.map Path.name) p ∧ t₁.locate p = .ok q) ↔
      ∃ n, q = loc ++ [n] ∧ (∃ e, t₁.entryAt? q = some e) ∧ n ∉ paths.map Path.name ∧
        Glob.nameMatches (bundlePattern o.scriptExt) n = true
  /-- If moreover its characters mean nothing in patterns, the files left in the directory with
  names that end as those of bundles do are those written there, and those that were there before
  and have the name of one written elsewhere. -/
  left : '/' ∉ o.scriptExt.toList → Glob.Literal o.scriptExt.toList → ∀ n,
    bundleEnd o.scriptExt <:+ n.toList → (u.HasFile (loc ++ [n]) ↔
      u.Written paths (loc ++ [n]) ∨ t.HasFile (loc ++ [n]) ∧ n ∈ paths.map Path.name)
  /-- So if nothing is written elsewhere, they are those written there. -/
  exact : '/' ∉ o.scriptExt.toList → Glob.Literal o.scriptExt.toList →
    (∀ key ∈ o.filledKeys fs, o.Plain key) → ∀ n, bundleEnd o.scriptExt <:+ n.toList →
      (u.HasFile (loc ++ [n]) ↔ u.Written paths (loc ++ [n]))
  /-- All other files are as they were, unless they have been written. -/
  unchanged : '/' ∉ o.scriptExt.toList → Glob.Literal o.scriptExt.toList → ∀ q b,
    ¬ u.Written paths q → t.entryAt? q = some (.file b) →
      (∀ n, q = loc ++ [n] → ¬ bundleEnd o.scriptExt <:+ n.toList) →
        u.entryAt? q = some (.file b)

/-- **What pruning leaves.** With pruning, a pass that succeeds removes the files that look like
bundles and have another name than all that it has written, and no others. In the directory only the
bundles of this pass are left, if no slash stands in their names and the characters of the extension
mean nothing in patterns. -/
theorem prunes_run (ht : t.WellFormed) (hprune : o.prune = true)
    (h : (emit o fs dir).run t = (.ok paths, u)) :
    ∃ t₁ loc, Prunes o fs dir t t₁ u loc paths := by
  obtain ⟨t₁, ps, hpass⟩ := fullPass_of_run ht h
  obtain ⟨loc, hdir, hd⟩ := hpass.directory
  refine ⟨t₁, loc,
    { made := hpass.made
      located := hdir
      directory := hd
      same := hpass.same
      paths_eq := hpass.paths_eq_map
      written := fun q => hpass.hasFile_of_written ht
      elsewhere := fun q b hw hq => hpass.elsewhere hq fun p hp hloc => hw ⟨p, hp, hloc⟩
      gone := fun p q => hpass.gone hprune
      kept := fun q b hw hq => hpass.kept hq hw
      direct := fun hslash q => hpass.leads_stale_iff ht hprune hdir hslash
      left := fun hslash hliteral n hn => hpass.hasFile_iff ht hprune hdir hslash
        ((hliteral.nameMatches_bundlePattern n).2 hn)
      exact := ?exact
      unchanged := ?unchanged }⟩
  case exact =>
    intro hslash hliteral hplain n hn
    rw [hpass.hasFile_iff ht hprune hdir hslash ((hliteral.nameMatches_bundlePattern n).2 hn),
      or_iff_left_of_imp]
    rintro ⟨-, hname⟩
    obtain ⟨p, hp, rfl⟩ := List.mem_map.1 hname
    exact ⟨p, hp, hpass.locate_of_filledKeys hdir hplain p hp⟩
  case unchanged =>
    intro hslash hliteral q b hw hq hend
    refine hpass.kept hq hw fun p hp hloc => ?_
    obtain ⟨n, rfl, -, -, hmatch⟩ :=
      (hpass.leads_stale_iff ht hprune hdir hslash).1 ⟨p, hp, hloc⟩
    exact hend n rfl ((hliteral.nameMatches_bundlePattern n).1 hmatch)

end Passes

/-- One bundle is written into a directory with two others, one of which has another extension. -/
theorem prunes_one_of_two :
    let f : Fragment := ⟨"App", "new()", true, some "x", none, true, none, false, false⟩
    let o : EmissionOptions := { prune := true }
    let t : Tree := ⟨[(["out"], .directory), (["out", "old.g.js"], .file .empty),
      (["out", "old.g.ts"], .file .empty)], []⟩
    let dir : Path := ⟨0, ["out"]⟩
    let r := (emit o [f] dir).run t
    t.WellFormed ∧ o.prune = true ∧ r = (.ok [⟨0, ["out", "x.g.js"]⟩], r.2) ∧
      ∃ t₁ loc, Prunes o [f] dir t t₁ r.2 loc [⟨0, ["out", "x.g.js"]⟩] := by
  intro f o t dir r
  have ht : t.WellFormed := by decide +kernel
  have hr : r = (.ok [⟨0, ["out", "x.g.js"]⟩], r.2) := Prod.ext (by decide +kernel) rfl
  exact ⟨ht, rfl, hr, prunes_run ht rfl hr⟩

/-- A file that was not written, and whose name ends as those of bundles do, is left: because
something with the same name is written into a directory below, and because it does not match the
pattern that is made of the extension. With that extension another file, whose name ends otherwise,
is removed. -/
theorem stale_bundle_left :
    let f : Fragment := ⟨"App", "new()", true, some "sub/x", none, true, none, false, false⟩
    let dir : Path := ⟨0, ["out"]⟩
    let file : String → Path := fun n => ⟨0, ["out", n]⟩
    let t : Tree := ⟨[(["out"], .directory), (["out", "sub"], .directory),
      (["out", "x.g.js"], .file "old()".toUTF8)], []⟩
    let r := (emit { prune := true } [f] dir).run t
    let t' : Tree := ⟨[(["out"], .directory), (["out", "x.g.js"], .file "old()".toUTF8),
      (["out", "x.g.[j]s"], .file "old()".toUTF8)], []⟩
    let r' := (emit { prune := true, scriptExt := "[j]s" } [] dir).run t'
    (t.WellFormed ∧ r.1 = .ok [⟨0, ["out", "sub", "x.g.js"]⟩] ∧
        bundleEnd "js" <:+ "x.g.js".toList ∧
        r.2.readFile (file "x.g.js") = .ok "old()".toUTF8) ∧
      t'.WellFormed ∧ r'.1 = .ok [] ∧
        bundleEnd "[j]s" <:+ "x.g.[j]s".toList ∧
        r'.2.readFile (file "x.g.[j]s") = .ok "old()".toUTF8 ∧
        ¬ bundleEnd "[j]s" <:+ "x.g.js".toList ∧ r'.2.existsAt (file "x.g.js") = .ok false := by
  decide +kernel

end ScriptBundle
