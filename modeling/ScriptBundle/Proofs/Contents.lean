import ScriptBundle.Proofs.Emission
/-!
# Bundles without content

A blank script on its own adds nothing to a bundle, but in a class it does: what is rendered then is
the class with a blank line in it (`blank_class_written`). So a bundle is written for the keys of
scripts that are not blank and for those of scripts in classes, and for no others
(`writes_filled`).
-/

namespace ScriptBundle

open FileOperation ScriptBundle.Tree

/-- What a pass that succeeds, by which the tree `t` has become `u`, has written. -/
structure WritesFilled (o : EmissionOptions) (fs : List Fragment) (dir : Path) (t u : Tree)
    (paths : List Path) : Prop where
  /-- There is a path for each key under which there is something to write, and for no other. -/
  paths_eq : paths = (o.filledKeys fs).map (o.bundlePath dir)
  /-- Where it leads stands a file. -/
  there : ∀ p ∈ paths, ∃ content, u.readFile p = .ok content
  /-- Any other file was there before. -/
  elsewhere : ∀ loc content, u.entryAt? loc = some (.file content) →
    (∀ p ∈ paths, u.locate p ≠ .ok loc) → t.entryAt? loc = some (.file content)

variable {t : Tree}

/-- **Which bundles are written.** A group of fragments is rendered to nothing exactly if it is
empty and none of its scripts is to be in a class, and the others are written. -/
theorem writes_filled (ht : t.WellFormed) (o : EmissionOptions) (fs : List Fragment) (dir : Path) :
    (∀ g : BundleGroup, g.render o.classWrapping = none ↔
      g.isEmpty = true ∧ ∀ f ∈ g.fragments, (o.classWrapping && f.asClass) = false) ∧
    ∀ paths u, (emit o fs dir).run t = (.ok paths, u) → WritesFilled o fs dir t u paths := by
  refine ⟨fun g => ?_, fun paths u h => ?_⟩
  · rw [g.render_eq_none_iff, BundleGroup.isEmpty, List.all_eq_true, ← forall₂_and]
    exact forall₂_congr fun _ _ => and_comm
  · obtain ⟨t₁, ps, hpass⟩ := pass_of_run ht h
    exact ⟨hpass.paths_eq_map, fun p => hpass.exists_readFile ht,
      fun loc content => hpass.elsewhere⟩

/-- Of two bundles that hold only a blank script, one in a class, and a third one, the first is not
written. -/
theorem writes_filled_three :
    let f : String → String → Bool → Fragment := fun name body asClass =>
      ⟨"App", body, true, some name, none, asClass, some "K", false, false⟩
    let fs := [f "blank" " " false, f "class" " " true, f "script" "a()" false]
    let o : EmissionOptions := { classWrapping := true }
    let dir : Path := ⟨0, ["out"]⟩
    let paths : List Path := [⟨0, ["out", "class.g.js"]⟩, ⟨0, ["out", "script.g.js"]⟩]
    let r := (emit o fs dir).run ⟨[], []⟩
    WellFormed ⟨[], []⟩ ∧ r = (.ok paths, r.2) ∧ WritesFilled o fs dir ⟨[], []⟩ r.2 paths := by
  intro f fs o dir paths r
  have ht : WellFormed ⟨[], []⟩ := by decide +kernel
  have hr : r = (.ok paths, r.2) := Prod.ext (by decide +kernel) rfl
  exact ⟨ht, hr, (writes_filled ht o fs dir).2 paths r.2 hr⟩

/-- A blank script is written in a class. -/
theorem blank_class_written :
    let f : Fragment := ⟨"App", " ", true, some "index", none, true, none, false, false⟩
    let g : BundleGroup := ⟨"index", [f]⟩
    let file : Path := ⟨0, ["out", "index.g.js"]⟩
    let text := "// Auto-generated bundle: index\nexport class App \x7b\n   \n\x7d\n"
    let r := (emit { classWrapping := true } [f] ⟨0, ["out"]⟩).run ⟨[], []⟩
    f.body ≠ "" ∧ groupFragments [f] = [g] ∧ g.isEmpty = true ∧ g.render true = some text ∧
      r.1 = .ok [file] ∧ r.2.readFile file = .ok text.toUTF8 := by
  decide +kernel

end ScriptBundle
