import ScriptBundle.Proofs.Site.OnlyForward
import ScriptBundle.Proofs.Site.Soundness
/-!
# Assigning parameters

Assigning parameters to a site settles all that it loads by, or nothing. `SiteFields.assign` sets
one field after the other, with whatever the lookup of the owner leads to, and would stop halfway if
the path could not be told once the parameters and the owner are set. `SiteFields.assign_whole`
shows that it never does, and `Site.fields_assignParameters` that what it sets is what the site
takes over at once.

A site whose parameters are refused has lost its only chance to get any. It is `Site.Spent`, stays
so, and never has anything to do with the engine (`Sound.barred`). `assignsWhole_course` puts the
results together for every site in every world of a course.
-/

namespace ScriptBundle

/-! ## Field by field -/

/-- What assigning parameters sets at a site. -/
structure SiteFields where
  /-- Whether parameters have been assigned, with success or without. -/
  initialized : Bool
  /-- The parameters. -/
  parameters : Option SiteParameters
  /-- The owner. -/
  owner : Option OwnerInfo
  /-- The path to load from. -/
  file : Option String
  /-- The class that identifiers belong to. -/
  className : Option String
  /-- The state. -/
  state : SiteState

/-- What assigning parameters sets, as a site has it. -/
def Site.fields (x : Site) : SiteFields where
  initialized := x.initialized
  parameters := x.parameters
  owner := x.owner
  file := x.file
  className := x.setup.bind (·.className)
  state := x.state

/-- What the lookup of a site's owner leads to, if a handle is attached. -/
def Site.ownerAnswer (x : Site) (host : SiteHost) : Option (Except OwnerError OwnerInfo) :=
  x.handle.map fun h => ((host.owners.lookup h.owner).1).map (·.owner)

/-- The errors after which no parameters can be assigned to a site any more. -/
def SiteError.bars : SiteError → Prop
  | .binding _ | .owner _ => True
  | _ => False

namespace SiteFields

/-- The owner of a site with the given parameters, if they need one, where `answer` is what its
lookup leads to. -/
def findOwner (p : SiteParameters) (answer : Except OwnerError OwnerInfo) :
    Except OwnerError (Option OwnerInfo) :=
  if p.needsOwner then answer.map some else .ok none

/-- Parameters are assigned, one field after the other. If a handle is attached then `answer` is
what the lookup of the owner leads to. -/
def assign (settings : SiteSettings) (answer : Option (Except OwnerError OwnerInfo))
    (pairs : List (String × Value)) (x : SiteFields) : Except SiteError Unit × SiteFields :=
  if x.initialized then (.error .initializedTwice, x)
  else
    match answer with
    | none => (.error .noHandle, x)
    | some answer =>
      let x := { x with initialized := true }
      match bindParameters pairs with
      | .error e => (.error (.binding e), x)
      | .ok p =>
        match findOwner p answer with
        | .error e => (.error (.owner e), x)
        | .ok owner =>
          let x := { x with parameters := some p }
          let x := { x with owner := owner }
          match settings.locate? p owner with
          | none => (.error .noPath, x)
          | some file =>
            let x := { x with file := some file }
            let x := { x with className := settings.className p owner }
            (.ok (), { x with state := .resolving })

/-- A setup is what the parameters, the answer of the lookup and the settings of the host say. -/
structure Settles (settings : SiteSettings) (answer : Except OwnerError OwnerInfo)
    (pairs : List (String × Value)) (c : SiteSetup) : Prop where
  parameters : bindParameters pairs = .ok c.parameters
  owner : findOwner c.parameters answer = .ok c.owner
  file : settings.locate? c.parameters c.owner = some c.file
  className : c.className = settings.className c.parameters c.owner

/-- What becomes of fields when parameters are assigned: all of them are set, or none but the mark
that it was tried. -/
inductive Whole (settings : SiteSettings) (answer : Option (Except OwnerError OwnerInfo))
    (pairs : List (String × Value)) (x : SiteFields) : Except SiteError Unit × SiteFields → Prop
  | kept {e : SiteError} (he : e = .initializedTwice ∨ e = .noHandle) :
      Whole settings answer pairs x (.error e, x)
  | marked {e : SiteError} (he : e.bars) (hx : x.initialized = false) :
      Whole settings answer pairs x (.error e, { x with initialized := true })
  | settled {a : Except OwnerError OwnerInfo} {c : SiteSetup} (hx : x.initialized = false)
      (ha : answer = some a) (hc : Settles settings a pairs c) :
      Whole settings answer pairs x
        (.ok (), ⟨true, some c.parameters, c.owner, some c.file, c.className, .resolving⟩)

variable {p : SiteParameters} {o : Option OwnerInfo}

theorem needsOwner_of_findOwner {answer : Except OwnerError OwnerInfo}
    (h : findOwner p answer = .ok o) : p.needsOwner = o.isSome := by
  unfold findOwner at h
  split_ifs at h with hp
  · cases answer <;> cases h
    exact hp
  · cases h
    simpa using hp

/-- The path is told once the owner is found. -/
theorem exists_locate (settings : SiteSettings) {answer : Except OwnerError OwnerInfo}
    (h : findOwner p answer = .ok o) : ∃ file, settings.locate? p o = some file := by
  have ho := needsOwner_of_findOwner h
  unfold SiteSettings.locate?
  cases hf : p.scriptFile with
  | some f => exact ⟨f, rfl⟩
  | none =>
    rw [SiteParameters.needsOwner, hf, Option.isNone_none] at ho
    exact Option.isSome_iff_exists.1 (by rw [Option.isSome_map, ← ho])

/-- **All or nothing.** Fields are set together, whatever the lookup of the owner leads to. -/
theorem assign_whole (settings : SiteSettings) (answer : Option (Except OwnerError OwnerInfo))
    (pairs : List (String × Value)) (x : SiteFields) :
    Whole settings answer pairs x (x.assign settings answer pairs) := by
  unfold assign
  split_ifs with hx
  · exact .kept (.inl rfl)
  replace hx : x.initialized = false := by simpa using hx
  cases answer with
  | none => exact .kept (.inr rfl)
  | some a =>
    dsimp only
    cases hb : bindParameters pairs with
    | error e => exact .marked trivial hx
    | ok p =>
      dsimp only
      cases ho : findOwner p a with
      | error e => exact .marked trivial hx
      | ok o =>
        obtain ⟨file, hfile⟩ := exists_locate settings ho
        simp only [hfile]
        exact .settled (c := ⟨p, o, file, _⟩) hx rfl ⟨hb, ho, hfile, rfl⟩

end SiteFields

namespace Site

variable {x y : Site} {s : Nat} {op : Operation} {k : List Frame}

theorem findOwner_eq (host : SiteHost) (h : RenderHandle) (p : SiteParameters) :
    findOwner host h p =
      SiteFields.findOwner p (((host.owners.lookup h.owner).1).map (·.owner)) := by
  unfold findOwner SiteFields.findOwner
  cases (host.owners.lookup h.owner).1 <;> rfl

/-- What is set field by field is what a site takes over at once. -/
theorem fields_assignParameters (x : Site) (host : SiteHost) (pairs : List (String × Value)) :
    x.fields.assign host.settings (x.ownerAnswer host) pairs =
      ((x.assignParameters host pairs).1.map fun _ => (),
        (x.assignParameters host pairs).2.fields) := by
  have hi : x.fields.initialized = x.initialized := rfl
  simp only [SiteFields.assign, assignParameters, ownerAnswer, hi]
  split_ifs
  · rfl
  cases x.handle with
  | none => rfl
  | some h =>
    simp only [Option.map_some, findSetup, findOwner_eq]
    cases bindParameters pairs with
    | error e => rfl
    | ok p =>
      dsimp only
      cases ho : SiteFields.findOwner p (((host.owners.lookup h.owner).1).map (·.owner)) with
      | error e => rfl
      | ok o =>
        obtain ⟨file, hfile⟩ := SiteFields.exists_locate host.settings ho
        simp only [hfile]
        rfl

/-- What becomes of a site when parameters are assigned to it. -/
inductive Assigned (host : SiteHost) (pairs : List (String × Value)) (x : Site) :
    Except SiteError SiteSetup × Site → Prop
  | kept {e : SiteError} (he : e = .initializedTwice ∨ e = .noHandle) :
      Assigned host pairs x (.error e, x)
  | marked {e : SiteError} (he : e.bars) (hx : x.AwaitsParameters) :
      Assigned host pairs x (.error e, { x with initialized := true })
  | settled {a : Except OwnerError OwnerInfo} {c : SiteSetup} (hx : x.AwaitsParameters)
      (ha : x.ownerAnswer host = some a) (hc : SiteFields.Settles host.settings a pairs c) :
      Assigned host pairs x
        (.ok c, { x with initialized := true, setup := some c, state := .resolving })

/-- A setup is refused for the parameters or for the owner, or else it is complete. -/
theorem findSetup_cases (host : SiteHost) (h : RenderHandle) (pairs : List (String × Value)) :
    (∃ e, findSetup host h pairs = .error e ∧ e.bars) ∨
      ∃ c, findSetup host h pairs = .ok c ∧ SiteFields.Settles host.settings
        (((host.owners.lookup h.owner).1).map (·.owner)) pairs c := by
  simp only [findSetup, findOwner_eq]
  cases hb : bindParameters pairs with
  | error e => exact .inl ⟨_, rfl, trivial⟩
  | ok p =>
    dsimp only
    cases ho : SiteFields.findOwner p (((host.owners.lookup h.owner).1).map (·.owner)) with
    | error e => exact .inl ⟨_, rfl, trivial⟩
    | ok o =>
      obtain ⟨file, hfile⟩ := SiteFields.exists_locate host.settings ho
      simp only [hfile]
      exact .inr ⟨_, rfl, hb, ho, hfile, rfl⟩

theorem assignParameters_assigned (x : Site) (host : SiteHost) (pairs : List (String × Value)) :
    Assigned host pairs x (x.assignParameters host pairs) := by
  unfold assignParameters
  split_ifs with hi
  · exact .kept (.inl rfl)
  split
  next => exact .kept (.inr rfl)
  next h hh =>
    have hx : x.AwaitsParameters := ⟨by simp [hh], by simpa using hi⟩
    obtain ⟨e, he, hbars⟩ | ⟨c, hc, hsettles⟩ := findSetup_cases host h pairs
    · simp only [he]
      exact .marked hbars hx
    · simp only [hc]
      exact .settled hx (by rw [ownerAnswer, hh, Option.map_some]) hsettles

/-! ## Spent sites -/

/-- A site whose parameters were refused. -/
def Spent (x : Site) : Prop := x.initialized = true ∧ x.setup = none

theorem Changes.setup_eq (h : x.Changes s op k y) : y.setup = x.setup := by
  cases h <;> rfl

theorem Spent.assignParameters (hx : x.Spent) (host : SiteHost) (pairs : List (String × Value)) :
    x.assignParameters host pairs = (.error .initializedTwice, x) := if_pos hx.1

end Site

namespace World

variable {w : World} {s t : Nat} {op : Operation} {k : List Frame}

theorem spent_make (h : (w.sites s).Spent) (m : Move) : ((w.make m).sites s).Spent := by
  obtain ⟨t, op, k, rfl, hc⟩ | hm := w.working_or_aside m
  · have hch := changes_step hc s
    exact ⟨hch.handle_eq.2.trans h.1, hch.setup_eq.trans h.2⟩
  obtain hs | ⟨handle, -, hs⟩ | ⟨pairs, -, hs⟩ := sites_make hm s
  · rwa [hs]
  · rw [(Site.attach_ok hs).2.2]
    exact h
  · rwa [hs, h.assignParameters]

theorem spent_course (h : (w.sites s).Spent) (ms : List Move) : ((w.course ms).sites s).Spent := by
  induction ms generalizing w with
  | nil => exact h
  | cons m ms ih => exact ih (spent_make h m)

/-- What a task at work loads has been set up. -/
theorem Sound.setup_of_load (hs : Sound w) (hc : w.control = .working t (.load s) k) :
    (w.sites s).setup.isSome :=
  hs.coherent.configured s t (hs.coherent.load_of_job (hs.job_of_load hc))

/-- A site calls the engine only after its load was started. -/
theorem Sound.load_of_called (hs : Sound w) {p : Purpose} {call : EngineCall}
    (hmem : .called p call ∈ w.events)
    (hp : p ∈ [.ownImport s, .init s, .use s, .unload s, .release s]) :
    (w.sites s).load ≠ none := by
  intro hl
  have hcases : p ∈ [.ownImport s, .init s] ∨ p ∈ [.use s, .unload s, .release s] := by
    simpa [or_assoc] using hp
  obtain hp | hp := hcases
  · have hevent : .called p call ∈ loadEvents s w.events :=
      List.mem_filter.2 ⟨hmem, by simpa [Event.serves] using hp⟩
    rw [hs.unloaded s hl] at hevent
    cases hevent
  · obtain ⟨pre, post, he⟩ := List.append_of_mem hmem
    obtain ⟨o, l, hl', -⟩ := (hs.after s p call pre post hp he).2.ended
    cases hl.symm.trans hl'

/-- Nothing can be done with a site, and nothing has been done for it. -/
structure Barred (w : World) (s : Nat) : Prop where
  assign : ∀ pairs, w.setParameters s pairs = (.error .initializedTwice, w)
  unloaded : (w.sites s).load = none
  /-- The task that would load the site, or have a registry import for it, is not at work. -/
  idle : ∀ t k, w.control ≠ .working t (.load s) k
  silent : ∀ p call, .called p call ∈ w.events →
    p ∉ [.ownImport s, .init s, .use s, .unload s, .release s]

/-- A site whose parameters were refused has nothing to do with the engine. -/
theorem Sound.barred (hs : Sound w) (h : (w.sites s).Spent) : w.Barred s := by
  have unloaded : (w.sites s).load = none := by
    by_contra hl
    obtain ⟨l, hl⟩ := Option.ne_none_iff_exists'.1 hl
    simpa [h.2] using hs.coherent.configured s l hl
  refine ⟨fun pairs => ?_, unloaded, fun t k hc => ?_, fun p call hmem hp => ?_⟩
  · simp only [setParameters, h.assignParameters, updateSite_self]
  · simpa [h.2] using hs.setup_of_load hc
  · exact hs.load_of_called hmem hp unloaded

/-! ## Every world of a course -/

/-- A site loads from where its parameters and its owner say. -/
def Located (w : World) (s : Nat) : Prop :=
  ∀ p, (w.sites s).parameters = some p → ∃ file, (w.sites s).file = some file ∧
    (w.hosts (w.sites s).host).settings.locate? p (w.sites s).owner = some file

/-- What is settled at a site follows from what it is nested in and from parameters that it was
assigned. -/
def Grounded (w : World) (s : Nat) : Prop :=
  ∀ c, (w.sites s).setup = some c → ∃ h pairs, (w.sites s).handle = some h ∧
    SiteFields.Settles (w.hosts (w.sites s).host).settings
      ((((w.hosts (w.sites s).host).owners.lookup h.owner).1).map (·.owner)) pairs c

theorem Grounded.located (h : w.Grounded s) : w.Located s := by
  intro p hp
  obtain ⟨c, hc, rfl⟩ := Option.map_eq_some_iff.1 hp
  obtain ⟨_, _, -, hsettles⟩ := h c hc
  rw [Site.file, Site.owner, hc]
  exact ⟨c.file, rfl, hsettles.file⟩

theorem Grounded.congr {v w : World} (h : v.Grounded s) (hosts : w.hosts = v.hosts)
    (host : (w.sites s).host = (v.sites s).host) (setup : (w.sites s).setup = (v.sites s).setup)
    (handle : (w.sites s).handle = (v.sites s).handle) : w.Grounded s := by
  unfold Grounded at h ⊢
  rw [hosts, host, setup, handle]
  exact h

theorem Grounded.make (hs : Sound w) (h : w.Grounded s) (m : Move) : (w.make m).Grounded s := by
  have hg := hs.grows_make m
  have congr := h.congr hg.hosts (hg.site s).host
  obtain ⟨t, op, k, rfl, hc⟩ | hm := w.working_or_aside m
  · have hchanges := changes_step hc s
    exact congr hchanges.setup_eq hchanges.handle_eq.1
  obtain hsite | ⟨handle, -, hsite⟩ | ⟨pairs, -, hsite⟩ := sites_make hm s
  · exact congr (by rw [hsite]) (by rw [hsite])
  · -- A handle is attached only where none was, and then nothing has been settled.
    obtain ⟨hnone, -, hattached⟩ := Site.attach_ok hsite
    intro c hc
    rw [hattached] at hc
    obtain ⟨handle', -, hh, -⟩ := h c hc
    rw [hnone] at hh
    cases hh
  · have hassigned := (w.sites s).assignParameters_assigned (w.hosts (w.sites s).host) pairs
    generalize (w.sites s).assignParameters (w.hosts (w.sites s).host) pairs = r at hassigned hsite
    cases hassigned with
    | kept | marked => exact congr (by rw [hsite]) (by rw [hsite])
    | @settled a c hx ha hc =>
      obtain ⟨handle, hh, rfl⟩ := Option.map_eq_some_iff.1 ha
      intro c' hc'
      rw [hsite] at hc' ⊢
      cases hc'
      exact ⟨handle, pairs, hh, hg.hosts ▸ hc⟩

theorem Grounded.course (hs : Sound w) (h : w.Grounded s) (ms : List Move) :
    (w.course ms).Grounded s := by
  induction ms generalizing w with
  | nil => exact h
  | cons m ms ih => exact ih (hs.make m) (h.make hs m)

theorem grounded_course (hosts : Nat → SiteHost) (hostOf : Nat → Nat)
    (engine : EngineCall → Behaviour) (ms : List Move) (s : Nat) :
    ((initial hosts hostOf engine).course ms).Grounded s := by
  refine Grounded.course (sound_initial hosts hostOf engine) (fun c hc => ?_) ms
  cases hc

/-- The world in which a site is set up and has asked for a render, if it can. -/
def setUp (w : World) (s : Nat) (h : RenderHandle) (c : SiteSetup) : World :=
  let w := w.updateSite s fun x =>
    { x with initialized := true, setup := some c, state := .resolving }
  if h.renderer = .absent then w else w.record (.render s)

/-- Assigning parameters to a site is refused before a render is asked for. Nothing changes, but
that the site may have lost its only chance to be assigned any. -/
structure RefusesParameters (w : World) (s : Nat) (e : SiteError) (w' : World) : Prop where
  error : e = .initializedTwice ∨ e = .noHandle ∨ e.bars
  unchanged : ∃ b, w' = w.updateSite s fun x => { x with initialized := b }
  barred : e.bars → ∀ ms, (w'.course ms).Barred s

/-- Assigning parameters to a site settles all that follows from them. -/
structure TakesParameters (w : World) (s : Nat) (pairs : List (String × Value))
    (r : Except SiteError Unit) (w' : World) (h : RenderHandle) (c : SiteSetup) : Prop where
  handle : (w.sites s).handle = some h
  settles : SiteFields.Settles (w.hosts (w.sites s).host).settings
    ((((w.hosts (w.sites s).host).owners.lookup h.owner).1).map (·.owner)) pairs c
  settled : w' = w.setUp s h c
  result : r = if h.renderer = .fails then .error .renderFailed else .ok ()

/-- What holds of assigning parameters to a site. -/
structure AssignsWhole (w : World) (s : Nat) : Prop where
  /-- All is settled together, or nothing. -/
  whole : ∀ pairs r w', w.setParameters s pairs = (r, w') →
    (∃ e, r = .error e ∧ w.RefusesParameters s e w') ∨ ∃ h c, w.TakesParameters s pairs r w' h c
  /-- That is what comes of setting one field after the other, ... -/
  byField : ∀ pairs r w', w.setParameters s pairs = (r, w') → ∃ r',
    (w.sites s).fields.assign (w.hosts (w.sites s).host).settings
      ((w.sites s).ownerAnswer (w.hosts (w.sites s).host)) pairs = (r', (w'.sites s).fields) ∧
    (r = r' ∨ r = .error .renderFailed ∧ r' = .ok ())
  /-- ... which settles all or nothing whatever a lookup of owners leads to. -/
  anyLookup : ∀ settings answer pairs, SiteFields.Whole settings answer pairs (w.sites s).fields
    ((w.sites s).fields.assign settings answer pairs)
  located : w.Located s
  /-- What is to be loaded is told whenever a site is loaded. -/
  loads : ∀ t k, w.control = .working t (.load s) k →
    (w.sites s).parameters.isSome ∧ (w.sites s).file.isSome

theorem sites_updateSite_self (f : Site → Site) :
    (w.updateSite s f).sites s = f (w.sites s) := put_self _ _ _

theorem sites_setUp (h : RenderHandle) (c : SiteSetup) : (w.setUp s h c).sites s =
    { w.sites s with initialized := true, setup := some c, state := .resolving } := by
  simp only [setUp]
  split_ifs
  · exact sites_updateSite_self _
  · exact put_self _ _ _

/-- A site that has been set up asks for a render. -/
theorem requestRender_eq {h : RenderHandle} {c : SiteSetup} (hh : (w.sites s).handle = some h) :
    (w.updateSite s fun x =>
        { x with initialized := true, setup := some c, state := .resolving }).requestRender s =
      (if h.renderer = .fails then .error .renderFailed else .ok (), w.setUp s h c) := by
  simp only [requestRender, sites_updateSite_self, hh, setUp]
  cases h.renderer <;> rfl

theorem Sound.whole (hs : Sound w) (pairs : List (String × Value)) {r : Except SiteError Unit}
    {w' : World} (hw : w.setParameters s pairs = (r, w')) :
    (∃ e, r = .error e ∧ w.RefusesParameters s e w') ∨
      ∃ h c, w.TakesParameters s pairs r w' h c := by
  have hassigned := (w.sites s).assignParameters_assigned (w.hosts (w.sites s).host) pairs
  have hmake : w' = w.make (.assign s pairs) := congrArg Prod.snd hw.symm
  simp only [setParameters] at hw
  generalize (w.sites s).assignParameters (w.hosts (w.sites s).host) pairs = y at hassigned hw
  cases hassigned with
  | @kept e he =>
    obtain ⟨rfl, rfl⟩ := Prod.mk.inj hw
    refine .inl ⟨e, rfl, ⟨he.imp_right .inl, ⟨(w.sites s).initialized, rfl⟩, fun hbars => ?_⟩⟩
    obtain rfl | rfl := he <;> cases hbars
  | @marked e he hx =>
    obtain ⟨rfl, rfl⟩ := Prod.mk.inj hw
    refine .inl ⟨e, rfl, ⟨.inr (.inr he), ⟨true, rfl⟩, fun _ ms => ?_⟩⟩
    have hs' : Sound (w.updateSite s fun x => { x with initialized := true }) :=
      hmake ▸ hs.make _
    refine (hs'.course ms).barred (spent_course ⟨?_, ?_⟩ ms) <;> rw [sites_updateSite_self]
    by_contra hsetup
    exact absurd (hs.coherent.settled s (Option.isSome_iff_ne_none.2 hsetup)).1 (by simp [hx.2])
  | @settled a c hx ha hc =>
    obtain ⟨h, hh, rfl⟩ := Option.map_eq_some_iff.1 ha
    obtain ⟨rfl, rfl⟩ := Prod.mk.inj ((requestRender_eq (c := c) hh).symm.trans hw)
    exact .inr ⟨h, c, hh, hc, rfl, rfl⟩

theorem fields_setParameters (pairs : List (String × Value)) {r : Except SiteError Unit}
    {w' : World} (hw : w.setParameters s pairs = (r, w')) : ∃ r',
    (w.sites s).fields.assign (w.hosts (w.sites s).host).settings
      ((w.sites s).ownerAnswer (w.hosts (w.sites s).host)) pairs = (r', (w'.sites s).fields) ∧
    (r = r' ∨ r = .error .renderFailed ∧ r' = .ok ()) := by
  rw [Site.fields_assignParameters]
  have hassigned := (w.sites s).assignParameters_assigned (w.hosts (w.sites s).host) pairs
  simp only [setParameters] at hw
  generalize (w.sites s).assignParameters (w.hosts (w.sites s).host) pairs = y at hassigned hw
  cases hassigned with
  | kept | marked =>
    obtain ⟨rfl, rfl⟩ := Prod.mk.inj hw
    exact ⟨_, by rw [sites_updateSite_self]; rfl, .inl rfl⟩
  | @settled a c hx ha hc =>
    obtain ⟨h, hh, rfl⟩ := Option.map_eq_some_iff.1 ha
    obtain ⟨rfl, rfl⟩ := Prod.mk.inj ((requestRender_eq (c := c) hh).symm.trans hw)
    refine ⟨.ok (), by rw [sites_setUp]; rfl, ?_⟩
    split_ifs
    · exact .inr ⟨rfl, rfl⟩
    · exact .inl rfl

/-- **All or nothing.** Whatever hosts and engine do and in whatever order, assigning parameters to
a site settles all that follows from them or is refused, and a site whose parameters were refused
never has anything to do with the engine. -/
theorem assignsWhole_course (hosts : Nat → SiteHost) (hostOf : Nat → Nat)
    (engine : EngineCall → Behaviour) (ms : List Move) (s : Nat) :
    AssignsWhole ((initial hosts hostOf engine).course ms) s := by
  have hs := sound_course hosts hostOf engine ms
  have located := (grounded_course hosts hostOf engine ms s).located
  generalize (initial hosts hostOf engine).course ms = w at hs located
  refine ⟨fun pairs r w' => hs.whole pairs, fun pairs r w' => fields_setParameters pairs,
    fun settings answer pairs => SiteFields.assign_whole settings answer pairs _, located,
    fun t k hc => ?_⟩
  obtain ⟨c, hc⟩ := Option.isSome_iff_exists.1 (hs.setup_of_load hc)
  simp [Site.parameters, Site.file, hc]

end World
end ScriptBundle
