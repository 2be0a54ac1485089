import ScriptBundle.Proofs.Emission
/-!
# Which scripts share a bundle

The key of a bundle of a component is the owner and the name with a dot between them, and a name
without a dot is found again behind the last dot of the key (`dotted_eq_iff`). So two choices of
such names have one key only if they mean the same bundle (`BundleChoice.key_eq_iff`), and
`bundles_told` says what that makes of groups and files. Keys with slashes are different and yet may
lead to the same file (`slashed_keys_collide`).
-/

namespace ScriptBundle

/-- What the bundle of a script is chosen by. -/
structure BundleChoice where
  /-- Whether all components share the bundle. -/
  isGlobal : Bool
  /-- The name of the bundle. -/
  name : Option String
  /-- The owner of the script. -/
  owner : String
  deriving DecidableEq

/-- The choice that a fragment makes. -/
def Fragment.choice (f : Fragment) : BundleChoice := ⟨f.globalBundle, f.bundleName, f.ownerId⟩

namespace BundleChoice

/-- The key of the chosen bundle. -/
def key (b : BundleChoice) : String := bundleKey b.isGlobal b.name b.owner

/-- There is no dot in the name of the bundle. -/
def Undotted (b : BundleChoice) : Prop := '.' ∉ (effectiveBundleName b.name).toList

instance (b : BundleChoice) : Decidable b.Undotted :=
  inferInstanceAs (Decidable ('.' ∉ (effectiveBundleName b.name).toList))

/-- Two choices mean the same bundle: one that all components share, or one of one component. -/
structure Same (b c : BundleChoice) : Prop where
  isGlobal : b.isGlobal = c.isGlobal
  name : effectiveBundleName b.name = effectiveBundleName c.name
  owner : b.isGlobal = false → b.owner = c.owner

end BundleChoice

/-! ## Keys -/

/-- What stands before and after the last dot of a text is told by the text. -/
theorem dotted_eq_iff {o o' n n' : String} (hn : '.' ∉ n.toList) (hn' : '.' ∉ n'.toList) :
    o ++ "." ++ n = o' ++ "." ++ n' ↔ o = o' ∧ n = n' := by
  constructor
  · intro h
    have hlist : o.toList ++ '.' :: n.toList = o'.toList ++ '.' :: n'.toList := by
      simpa using congrArg String.toList h
    have hnone : ∀ {m : String}, '.' ∉ m.toList → ∀ c ∈ m.toList, ¬ '.' = c :=
      fun hm c hc heq => hm (heq ▸ hc)
    obtain ⟨ho, -, hname⟩ := eq_of_last hlist rfl rfl (hnone hn) (hnone hn')
    exact ⟨String.toList_inj.1 ho, String.toList_inj.1 hname⟩
  · rintro ⟨rfl, rfl⟩
    rfl

/-- A text with a dot in it is none without. -/
theorem dotted_ne {o n n' : String} (hn' : '.' ∉ n'.toList) : o ++ "." ++ n ≠ n' := by
  rintro rfl
  simp at hn'

namespace BundleChoice

variable {b c : BundleChoice}

theorem key_of_global (hb : b.isGlobal = true) : b.key = effectiveBundleName b.name := by
  rw [key, bundleKey, if_pos hb]

theorem key_of_owned (hb : b.isGlobal = false) :
    b.key = b.owner ++ "." ++ effectiveBundleName b.name := by
  rw [key, bundleKey, hb, if_neg Bool.false_ne_true]

/-- **Only the same bundle has the same key**, if there is no dot in the names of bundles. -/
theorem key_eq_iff (hb : b.Undotted) (hc : c.Undotted) : b.key = c.key ↔ b.Same c := by
  cases hbg : b.isGlobal with
  | true =>
    cases hcg : c.isGlobal with
    | true =>
      rw [key_of_global hbg, key_of_global hcg]
      exact ⟨fun h => ⟨hbg.trans hcg.symm, h, by simp [hbg]⟩, Same.name⟩
    | false =>
      rw [key_of_global hbg, key_of_owned hcg]
      refine iff_of_false (dotted_ne hb).symm fun h => ?_
      simpa [hbg, hcg] using h.isGlobal
  | false =>
    cases hcg : c.isGlobal with
    | true =>
      rw [key_of_owned hbg, key_of_global hcg]
      refine iff_of_false (dotted_ne hc) fun h => ?_
      simpa [hbg, hcg] using h.isGlobal
    | false =>
      rw [key_of_owned hbg, key_of_owned hcg, dotted_eq_iff hb hc]
      exact ⟨fun h => ⟨hbg.trans hcg.symm, h.2, fun _ => h.1⟩, fun h => ⟨h.owner hbg, h.name⟩⟩

end BundleChoice

/-! ## Groups and files -/

/-- Two fragments are in one group exactly if they have the same key. -/
theorem exists_group_iff {fs : List Fragment} {e f : Fragment} (he : e ∈ fs) (hf : f ∈ fs) :
    (∃ g ∈ groupFragments fs, e ∈ g.fragments ∧ f ∈ g.fragments) ↔ e.bundleKey = f.bundleKey := by
  constructor
  · rintro ⟨g, hg, heg, hfg⟩
    rw [key_of_mem_groupFragments hg e heg, key_of_mem_groupFragments hg f hfg]
  · intro h
    refine ⟨_, groupOf_mem he, List.mem_filter.2 ⟨he, decide_eq_true rfl⟩, ?_⟩
    exact List.mem_filter.2 ⟨hf, decide_eq_true h.symm⟩

theorem bundleFileName_eq_iff {key key' : String} (ext : String) :
    bundleFileName key ext = bundleFileName key' ext ↔ key = key' :=
  ⟨bundleFileName_injective, congrArg (bundleFileName · ext)⟩

/-- Two plain keys lead to the same path only if they are the same. -/
theorem EmissionOptions.bundlePath_eq_iff {o : EmissionOptions} {key key' : String}
    (h : o.Plain key) (h' : o.Plain key') (dir : Path) :
    o.bundlePath dir key = o.bundlePath dir key' ↔ key = key' := by
  refine ⟨fun heq => ?_, congrArg (o.bundlePath dir)⟩
  rw [bundlePath_of_plain h, bundlePath_of_plain h', Path.mk.injEq] at heq
  have hlast := congrArg List.getLast? heq.2
  exact bundleFileName_injective (by simpa using hlast)

/-- What two choices of bundles have in common: everything if they mean the same bundle, and
otherwise nothing. -/
structure BundleChoice.Told (b c : BundleChoice) : Prop where
  /-- They have the same key if they mean the same bundle, and only then. -/
  key : b.key = c.key ↔ b.Same c
  /-- So it is with the names of the files -/
  fileName : ∀ ext, bundleFileName b.key ext = bundleFileName c.key ext ↔ b.Same c
  /-- and with the groups that their fragments are in. -/
  group : ∀ fs, ∀ e ∈ fs, ∀ f ∈ fs, e.choice = b → f.choice = c →
    ((∃ g ∈ groupFragments fs, e ∈ g.fragments ∧ f ∈ g.fragments) ↔ b.Same c)
  /-- If no slash stands in the names of the files then it is so with their paths -/
  path : ∀ (o : EmissionOptions) (dir : Path), o.Plain b.key → o.Plain c.key →
    (o.bundlePath dir b.key = o.bundlePath dir c.key ↔ b.Same c)
  /-- and with the files themselves, once there was something to write under both keys. -/
  file : ∀ (o : EmissionOptions) fs dir t u paths, t.WellFormed →
    (emit o fs dir).run t = (.ok paths, u) → b.key ∈ o.filledKeys fs → c.key ∈ o.filledKeys fs →
    o.Plain b.key → o.Plain c.key →
    (∃ content, u.readFile (o.bundlePath dir b.key) = .ok content) ∧
    (∃ content, u.readFile (o.bundlePath dir c.key) = .ok content) ∧
    (u.locate (o.bundlePath dir b.key) = u.locate (o.bundlePath dir c.key) ↔ b.Same c)

/-- **Bundles are told apart by their keys**, if there is no dot in their names: a bundle that all
components share is none of a component, and bundles of different components are different, whatever
the owners are called. They have files of their own if no slash stands in the names of these. -/
theorem bundles_told {b c : BundleChoice} (hb : b.Undotted) (hc : c.Undotted) : b.Told c := by
  have hkey := BundleChoice.key_eq_iff hb hc
  refine ⟨hkey, fun ext => (bundleFileName_eq_iff ext).trans hkey, ?group, ?path, ?file⟩
  case group =>
    rintro fs e he f hf rfl rfl
    exact (exists_group_iff he hf).trans hkey
  case path => exact fun o dir hb' hc' => (o.bundlePath_eq_iff hb' hc' dir).trans hkey
  case file =>
    intro o fs dir t u paths ht h hbw hcw hb' hc'
    obtain ⟨t₁, ps, hpass⟩ := pass_of_run ht h
    have hpath : ∀ {key}, key ∈ o.filledKeys fs → o.bundlePath dir key ∈ paths := fun hw =>
      hpass.paths_eq_map ▸ List.mem_map_of_mem hw
    refine ⟨hpass.exists_readFile ht (hpath hbw), hpass.exists_readFile ht (hpath hcw), ?_⟩
    rw [← map_fst_bundles_eq, List.mem_map] at hbw hcw
    obtain ⟨x, hx, hxb⟩ := hbw
    obtain ⟨y, hy, hyc⟩ := hcw
    rw [← hxb] at hb'
    rw [← hyc] at hc'
    rw [← hkey, ← hxb, ← hyc]
    exact hpass.locate_eq_iff hx hy hb' hc'

/-- The shared bundle without a name, and that of a component without one. -/
theorem bundles_told_index :
    let b : BundleChoice := ⟨true, none, "App.A"⟩
    let c : BundleChoice := ⟨false, some "", ""⟩
    b.Undotted ∧ c.Undotted ∧ b.key = "index" ∧ c.key = ".index" ∧ b.Told c := by
  intro b c
  have hb : b.Undotted := by decide
  have hc : c.Undotted := by decide
  exact ⟨hb, hc, rfl, rfl, bundles_told hb hc⟩

/-- With slashes, bundles with different keys are written to one file: that of a component over one
that all components share, and that of a component over that of another. -/
theorem slashed_keys_collide :
    let shared : Fragment := ⟨"App.A", "a()", true, some "a", none, true, none, false, false⟩
    let owned : Fragment := ⟨"", "b()", false, some "/a", none, true, none, false, false⟩
    let first : Fragment := ⟨"A", "c()", false, none, none, true, none, false, false⟩
    let second : Fragment := ⟨"./A", "d()", false, none, none, true, none, false, false⟩
    let fs := [shared, owned, first, second]
    let file : String → Path := fun name => ⟨0, ["out", name]⟩
    let r := (emit {} fs ⟨0, ["out"]⟩).run ⟨[], []⟩
    (∀ f ∈ fs, f.choice.Undotted) ∧
      fs.map Fragment.bundleKey = ["a", "./a", "A.index", "./A.index"] ∧
      (groupFragments fs).map BundleGroup.fragments = [[shared], [owned], [first], [second]] ∧
      r.1 = .ok [file "a.g.js", file "a.g.js", file "A.index.g.js", file "A.index.g.js"] ∧
      r.2.readFile (file "a.g.js") = .ok "// Auto-generated bundle: ./a\nb()\n".toUTF8 ∧
      r.2.readFile (file "A.index.g.js") =
        .ok "// Auto-generated bundle: ./A.index\nd()\n".toUTF8 := by
  decide +kernel

end ScriptBundle
