import ScriptBundle.CommandLine.Run
import ScriptBundle.Proofs.Bundles
import ScriptBundle.Proofs.Parameters
import ScriptBundle.Proofs.Site.Moving
/-!
# Sites load what the build writes

The build and the sites of a project find the bundle of a script declaration each on its own, and
`site_agrees` proves that they find the same: the site loads the file that the bundle is written to,
the command line names the same path, and identifiers are members of the class that the script is
written in, if there is one.
-/

namespace ScriptBundle

/-- The name of the file of the bundle that a fragment goes into. -/
def Manifest.bundleFile (m : Manifest) (f : Fragment) : String :=
  bundleFileName f.bundleKey m.scriptExt

/-- The path that a site of the application loads the bundle of a fragment from. -/
def Manifest.loadPath (m : Manifest) (f : Fragment) : String :=
  "./" ++ m.outputDir ++ "/" ++ m.bundleFile f

/-! ## What is extracted -/

theorem mem_findings {names : List String} {owner : String} {before rest : List Instruction}
    {marker : Instruction} (h : marker.opensScript names = true) :
    findingAt owner marker (marker :: rest) ∈ findings names owner (before ++ marker :: rest) := by
  induction before with
  | nil =>
    rw [List.nil_append, findings, if_pos h]
    exact List.mem_cons_self
  | cons i before ih =>
    rw [List.cons_append, findings]
    split_ifs
    · exact List.mem_cons_of_mem _ ih
    · exact ih

/-- The fragment of a declaration has the declaration's parameters and a script that is not blank.
-/
theorem fragmentOf_of_findingAt {owner : String} {marker : Instruction}
    {stream declaration : List Instruction} {f : Fragment} {unread : List UnreadParameter}
    (h : findingAt owner marker stream = .script f unread)
    (hd : declaration? stream = some declaration) :
    f.ownerId = owner ∧ f.isBlank = false ∧
      ∃ body, fragmentOf owner body declaration = .script f unread := by
  rw [findingAt, hd] at h
  dsimp only at h
  split at h
  next => cases h
  next text _ =>
    split_ifs at h with hbody
    have hf := h
    cases h
    refine ⟨rfl, ?_, _, hf⟩
    rw [Fragment.isBlank, isBlankText_trim, ← isEmpty_trim]
    simpa using hbody

/-! ## Names -/

theorem effectiveClassName_ne_empty {owner : String} (h : owner ≠ "") (className : Option String) :
    (effectiveClassName className owner).isEmpty = false := by
  have howner : (ownerClassName owner).isEmpty = false := by
    simpa [ownerClassName, Text.replaceChar] using h
  cases className with
  | none => exact howner
  | some c =>
    rw [effectiveClassName]
    split_ifs with hc
    · exact howner
    · simpa using hc

theorem SiteSettings.className_eq (s : SiteSettings) (p : SiteParameters) (o : OwnerInfo) :
    s.className p (some o) = if s.classWrapping && p.asClass then
      some (effectiveClassName p.className o.identity) else none := by
  rw [SiteSettings.className]
  split_ifs
  · cases p.className with
    | none => rfl
    | some c =>
      rw [effectiveClassName]
      dsimp only
      split_ifs <;> rfl
  · rfl

theorem effectiveBundleName_getD (name : Option String) :
    effectiveBundleName (some (name.getD "")) = effectiveBundleName name := by
  cases name <;> rfl

theorem bundlePath_eq {s : SiteSettings} {p : SiteParameters} {o : OwnerInfo}
    (ho : o.isFromLib = false) : s.bundlePath p o =
      "./" ++ s.outputDir ++ "/" ++
        bundleFileName (bundleKey p.globalBundle p.bundleName o.identity) s.scriptExt := by
  rw [SiteSettings.bundlePath, SiteSettings.originRoot, ho, if_neg Bool.false_ne_true,
    String.append_empty]

theorem Fragment.Matches.bundleKey_eq {f : Fragment} {p : SiteParameters} (h : f.Matches p) :
    f.bundleKey = ScriptBundle.bundleKey p.globalBundle p.bundleName f.ownerId := by
  rw [Fragment.bundleKey, h.globalBundle, h.bundleName]

/-! ## What is written and resolved -/

/-- The group of a fragment that is not blank is written to the file of the fragment's bundle. -/
theorem writeBundle_of_mem (m : Manifest) {fs : List Fragment} {g : BundleGroup}
    (hg : g ∈ groupFragments fs) {f : Fragment} (hf : f ∈ g.fragments)
    (hblank : f.isBlank = false) :
    bundleFileName g.key m.scriptExt = m.bundleFile f ∧ ∃ content : String, ∀ dir,
      writeBundle m.emissionOptions dir g = (do
        FileOperation.writeFile (dir.child (m.bundleFile f)) content.toUTF8
        pure (some (dir.child (m.bundleFile f)))) := by
  obtain ⟨content, hcontent⟩ := g.render_ne_none hf hblank m.emissionOptions.classWrapping
  have hfile : bundleFileName g.key m.scriptExt = m.bundleFile f := by
    rw [Manifest.bundleFile, key_of_mem_groupFragments hg f hf]
  refine ⟨hfile, content, fun dir => ?_⟩
  have hpath : m.emissionOptions.bundlePath dir g.key = dir.child (m.bundleFile f) :=
    congrArg dir.child hfile
  rw [writeBundle_eq hcontent, hpath]

/-- The command line names the file of the bundle, where an empty name stands for none. -/
theorem runResolve_eq {console : Console} {m : Manifest} {t : Tree} {override : Option String}
    {project : String} {root : Path} (hroot : CommandLine.projectRoot t project = .ok root)
    (hm : t.findManifest override root = .ok m) (owner : String) (globalBundle : Bool)
    (name : Option String) :
    CommandLine.runResolve console t override owner globalBundle (name.getD "") none project =
      .ok ⟨0, "./" ++ m.outputDir ++ "/" ++
        bundleFileName (bundleKey globalBundle name owner) m.scriptExt ++ "\n"⟩ := by
  have howner : (CommandLine.namedOwner owner none m).isFromLib = false := rfl
  simp only [CommandLine.runResolve, hroot, hm, bundlePath_eq howner, bundleKey,
    effectiveBundleName_getD]
  rfl

/-! ## Sites -/

/-- What assigning parameters without a script file settles in a site of the application. -/
theorem findSetup_eq {host : SiteHost} {o : OwnerInfo} {renderer : Renderer}
    {pairs : List (String × Value)} {p : SiteParameters} (hp : bindParameters pairs = .ok p)
    (hfile : p.scriptFile = none) : Site.findSetup host ⟨.info o, renderer⟩ pairs =
      .ok ⟨p, some o, host.settings.bundlePath p o, host.settings.className p (some o)⟩ := by
  have howner : Site.findOwner host ⟨.info o, renderer⟩ p = .ok (some o) := by
    rw [Site.findOwner, SiteParameters.needsOwner, hfile]
    rfl
  have hlocate : host.settings.locate? p (some o) = some (host.settings.bundlePath p o) := by
    rw [SiteSettings.locate?, hfile]
    rfl
  simp only [Site.findSetup, hp, howner, hlocate]

/-- What is settled in a new site to which a handle is attached and parameters are assigned. -/
theorem World.setup_of_assign (w : World) (s n : Nat) (handle : RenderHandle)
    {pairs : List (String × Value)} {c : SiteSetup}
    (hc : Site.findSetup (w.hosts n) handle pairs = .ok c) :
    ((((w.create s n).make (.attach s handle)).make (.assign s pairs)).sites s).setup = some c := by
  have hattach : (w.create s n).make (.attach s handle) = (w.create s n).updateSite s fun _ =>
      { host := n, handle := some handle, state := .attached } := by
    simp [World.make, World.attach, create, Site.attach]
  rw [hattach]
  generalize hv : (w.create s n).updateSite s _ = v
  have hsite : v.sites s = { host := n, handle := some handle, state := .attached } := by
    rw [← hv]
    exact put_self ..
  have hhosts : v.hosts = w.hosts := by rw [← hv]; rfl
  have hassign : ((v.sites s).assignParameters (v.hosts (v.sites s).host) pairs).2.setup =
      some c := by
    simp [hsite, hhosts, Site.assignParameters, hc]
  rw [World.make]
  obtain h | h := v.setParameters_eq s pairs <;> rw [h]
  · simpa only [updateSite, put_self] using hassign
  · simpa only [updateSite, put_self, record] using hassign

/-! ## Agreement -/

/-- The build, the command line and a site agree about a fragment of a component, where the site has
the parameters of its declaration. -/
structure Agrees (m : Manifest) (names : List String) (c : Component) (f : Fragment)
    (p : SiteParameters) (x : Site) : Prop where
  extracted : f ∈ c.fragments names
  file : x.file = some (m.loadPath f)
  /-- The group of the fragment, whatever others there are, is written to the file that the site
  loads. -/
  written : ∀ fs g, g ∈ groupFragments fs → f ∈ g.fragments →
    bundleFileName g.key m.scriptExt = m.bundleFile f ∧ ∃ content : String, ∀ dir,
      writeBundle m.emissionOptions dir g = (do
        FileOperation.writeFile (dir.child (m.bundleFile f)) content.toUTF8
        pure (some (dir.child (m.bundleFile f))))
  /-- So that file is among those that are written, if none fails. -/
  emitted : ∀ fs, f ∈ fs → ∀ dir t paths t',
    (emit m.emissionOptions fs dir).run t = (.ok paths, t') → dir.child (m.bundleFile f) ∈ paths
  /-- The command line names the path that the site loads from. -/
  resolved : ∀ console t override project root, CommandLine.projectRoot t project = .ok root →
    t.findManifest override root = .ok m →
      CommandLine.runResolve console t override c.ownerId p.globalBundle (p.bundleName.getD "") none
        project = .ok ⟨0, m.loadPath f ++ "\n"⟩
  /-- In a bundle the fragment is on its own or in a class. -/
  placed : ∀ fs, f ∈ fs → .plain f ∈ sections m.classWrapping fs ∨
    ∃ name members, .wrapped name members ∈ sections m.classWrapping fs ∧ f ∈ members
  /-- If it is in a class then identifiers of the site are members of that. -/
  wrapped : ∀ fs name members, .wrapped name members ∈ sections m.classWrapping fs → f ∈ members →
    ∀ identifier, x.qualify identifier = name ++ "." ++ identifier
  /-- If it is on its own then they are left as they are. -/
  plain : ∀ fs, .plain f ∈ sections m.classWrapping fs →
    ∀ identifier, x.qualify identifier = identifier

/-- **Sites load what the build writes.** If the values that a script declaration gives are assigned
to a site of the application, and no script file is among them, then the site loads the bundle that
the fragment of the declaration is written to, and knows the class that it is written in. -/
theorem site_agrees (m : Manifest) (names : List String) {c : Component} (hid : c.ownerId ≠ "")
    (before : List Instruction) {rest declaration : List Instruction} {marker : Instruction}
    (hc : c.instructions = before ++ marker :: rest) (hmarker : marker.opensScript names = true)
    (hd : declaration? (marker :: rest) = some declaration) {f : Fragment}
    {unread : List UnreadParameter}
    (hf : findingAt c.ownerId marker (marker :: rest) = .script f unread)
    {pairs : List (String × Value)} (hpairs : Declares declaration pairs) {p : SiteParameters}
    (hp : bindParameters pairs = .ok p) (hfile : p.scriptFile = none) (w : World) (s n : Nat)
    (hsettings : (w.hosts n).settings = m.siteSettings) (package : String) (renderer : Renderer) :
    Agrees m names c f p ((((w.create s n).make (.attach s
      ⟨.info ⟨c.ownerId, package, false⟩, renderer⟩)).make (.assign s pairs)).sites s) := by
  obtain ⟨howner, hblank, body, hfragment⟩ := fragmentOf_of_findingAt hf hd
  have hmatch := hpairs.reads hp hfragment
  have hsetup := w.setup_of_assign s n ⟨.info ⟨c.ownerId, package, false⟩, renderer⟩
    (findSetup_eq hp hfile)
  rw [hsettings, bundlePath_eq rfl, SiteSettings.className_eq] at hsetup
  generalize (((w.create s n).make _).make _).sites s = x at hsetup
  have hkey : f.bundleKey = bundleKey p.globalBundle p.bundleName c.ownerId :=
    hmatch.bundleKey_eq.trans (by rw [howner])
  have hclass : f.effectiveClassName = effectiveClassName p.className c.ownerId := by
    rw [Fragment.effectiveClassName, hmatch.className, howner]
  have hqualify : ∀ identifier, x.qualify identifier = qualify
      (if m.classWrapping && f.asClass then some f.effectiveClassName else none) identifier :=
    fun identifier => by
      rw [Site.qualify, hsetup, hmatch.asClass, hclass]
      rfl
  refine ⟨?extracted, ?file, ?written, ?emitted, ?resolved, ?placed, ?wrapped, ?plain⟩
  case extracted =>
    rw [Component.fragments, Component.findings, hc]
    exact List.mem_filterMap.2 ⟨_, mem_findings hmarker, by rw [hf]; rfl⟩
  case file =>
    rw [Site.file, hsetup, Manifest.loadPath, Manifest.bundleFile, hkey]
    rfl
  case written => exact fun fs g hg hfg => writeBundle_of_mem m hg hfg hblank
  case emitted => exact fun fs hmem dir t paths t' h => mem_emit h hmem hblank
  case resolved =>
    intro console t override project root hroot hmanifest
    rw [runResolve_eq hroot hmanifest, Manifest.loadPath, Manifest.bundleFile, hkey]
  case placed => exact fun fs hmem => plain_or_wrapped_of_mem hmem m.classWrapping
  case wrapped =>
    intro fs name members hs hmem identifier
    obtain ⟨hw, rfl⟩ := eq_of_mem_wrapped hs hmem
    rw [hqualify, if_pos hw, hclass, qualify, effectiveClassName_ne_empty hid]
    rfl
  case plain =>
    intro fs hs identifier
    rw [hqualify, if_neg (not_wrapped_of_mem_plain hs), qualify]

/-- A site in the component `App.Counter`, whose script has a bundle of its own. -/
theorem site_agrees_counter :
    let marker : Instruction := ⟨.openComponent, 0, some "Script", .null, true⟩
    let named : Instruction := ⟨.addComponentParameter, 1, some "BundleName", .string "lib", true⟩
    let text : Instruction := ⟨.addMarkupContent, 2, none, .string " f(); ", true⟩
    let c : Component :=
      ⟨"Counter", some "App", [marker, named, text, ⟨.closeComponent, 3, none, .null, true⟩]⟩
    let f : Fragment := ⟨"App.Counter", "f();", false, some "lib", none, true, none, false, false⟩
    let p : SiteParameters := { bundleName := some "lib" }
    let pairs := [("BundleName", Value.string "lib")]
    let w := World.initial (fun _ => ⟨Manifest.defaults.siteSettings, ⟨"app", ⟨[], []⟩, []⟩, 0⟩)
      (fun _ => 0) fun _ => .reply .done
    Declares [marker, named, text] pairs ∧ bindParameters pairs = .ok p ∧
      Agrees Manifest.defaults ["Script"] c f p ((((w.create 0 0).make (.attach 0
        ⟨.info ⟨c.ownerId, "app", false⟩, .absent⟩)).make (.assign 0 pairs)).sites 0) := by
  intro marker named text c f p pairs w
  have hpairs : Declares [marker, named, text] pairs :=
    ⟨by simp [marker, named, text], .refl _, by simp [pairs]⟩
  have hp : bindParameters pairs = .ok p := by rfl
  exact ⟨hpairs, hp, site_agrees Manifest.defaults ["Script"] (by decide) [] rfl (by decide) rfl rfl
    hpairs hp rfl w 0 0 rfl "app" .absent⟩

end ScriptBundle
