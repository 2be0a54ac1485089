import Mathlib.Data.List.Basic
import ScriptBundle.Proofs.Site.Releasing
/-!
# Releasing once

A site calls the function for before releasing at most once and releases a module at most once, and
both only with the module that it has imported for itself: `World.ReleasesOnce` says so for a site,
and `releasesOnce_course` proves it of every world of a course. `World.Releasal` are the events that
there may be about releasing the module of a site.
-/

namespace ScriptBundle.World

/-- The events about releasing the module `h` of a site, so far. -/
inductive Releasal (c : SiteSetup) (s : Nat) (h : Value) : List Event → Prop
  | unloading {call : EngineCall} (hc : c.unloadCall? h = some call) :
      Releasal c s h [.called (.unload s) call]
  | unloaded {es : List Event} (hes : Unloads c s h es) : Releasal c s h es
  | releasing {es : List Event} (hes : Unloads c s h es) :
      Releasal c s h (es ++ [.called (.release s) (.dispose h)])
  | released {es : List Event} (hes : Unloads c s h es) (o : Outcome) :
      Releasal c s h
        (es ++ [.called (.release s) (.dispose h), .ended (.release s) (.dispose h) o])

section Releasal

variable {c : SiteSetup} {s : Nat} {h : Value} {es : List Event} {call : EngineCall}

theorem ReleaseStage.releasal {op : Operation} {k : List Frame} (hs : ReleaseStage c s h es op k) :
    Releasal c s h es := by
  cases hs with
  | unload => exact .unloaded .absent
  | unloadFollow hc => exact .unloading hc
  | unloaded hc o => exact .unloaded (.made hc o)
  | release hes => exact .unloaded hes
  | releaseFollow hes => exact .releasing hes

theorem Unloads.calls_le (hes : Unloads c s h es) :
    calls (.unload s) es ≤ 1 ∧ calls (.release s) es = 0 := by
  cases hes <;> simp [calls, Event.calls]

theorem Releasal.calls_le (hr : Releasal c s h es) :
    calls (.unload s) es ≤ 1 ∧ calls (.release s) es ≤ 1 := by
  cases hr with
  | unloading => simp [calls, Event.calls]
  | unloaded hes => exact ⟨hes.calls_le.1, by simp [hes.calls_le.2]⟩
  | releasing hes | released hes =>
    simp only [calls_append, hes.calls_le.2]
    exact ⟨hes.calls_le.1, by simp [calls, Event.calls]⟩

theorem Unloads.of_called (hes : Unloads c s h es) (hmem : .called (.unload s) call ∈ es) :
    c.unloadCall? h = some call ∧ ∃ o, .ended (.unload s) call o ∈ es := by
  cases hes with
  | absent => cases hmem
  | @made call' hc o =>
    obtain rfl : call = call' := by simpa using hmem
    exact ⟨hc, o, by simp⟩

theorem Releasal.unloadCall?_of_called (hr : Releasal c s h es)
    (hmem : .called (.unload s) call ∈ es) : c.unloadCall? h = some call := by
  cases hr with
  | unloading hc =>
    obtain rfl := by simpa using hmem
    exact hc
  | unloaded hes => exact (hes.of_called hmem).1
  | releasing hes | released hes => exact (hes.of_called (by simpa using hmem)).1

/-- When a module is released, the call before that has ended, and none is made after it. -/
theorem Releasal.of_release {pre post : List Event} (hr : Releasal c s h es)
    (he : es = pre ++ .called (.release s) call :: post) :
    call = .dispose h ∧ Unloads c s h pre ∧ ∀ call', .called (.unload s) call' ∉ post := by
  have absent : ∀ {es}, Unloads c s h es → .called (.release s) call ∉ es := fun hes => by
    cases hes <;> simp
  have split : ∀ {es' post'}, Unloads c s h es' → .called (.release s) call ∉ post' →
      (∀ call', .called (.unload s) call' ∉ post') →
      es' ++ .called (.release s) (.dispose h) :: post' = pre ++ .called (.release s) call :: post →
      call = .dispose h ∧ Unloads c s h pre ∧ ∀ call', .called (.unload s) call' ∉ post := by
    intro es' post' hes hpost hunload heq
    obtain ⟨rfl, hcall, rfl⟩ := (List.append_cons_inj_of_notMem (absent hes) hpost).1 heq
    cases hcall
    exact ⟨rfl, hes, hunload⟩
  cases hr with
  | unloading =>
    obtain ⟨-, h⟩ | ⟨-, h⟩ := List.singleton_eq_append_iff.1 he <;> cases h
  | unloaded hes => exact absurd (he ▸ by simp) (absent hes)
  | releasing hes => exact split hes (by simp) (by simp) he
  | released hes o => exact split hes (by simp) (by simp) he

end Releasal

variable {w : World} {s : Nat} {c : SiteSetup} {h : Value}

/-- Nothing has been done to release the module of a site, or the events are about its own module.
-/
theorem ReleaseState.releasal (hr : w.ReleaseState s) : releaseEvents s w.events = [] ∨
    ∃ c h, w.Owns s c h ∧ w.Taken s ∧ Releasal c s h (releaseEvents s w.events) := by
  cases hr with
  | before events => exact .inl events
  | during owns taken _ stage => exact .inr ⟨_, _, owns, taken, stage.releasal⟩
  | after owns taken hes events =>
    exact .inr ⟨_, _, owns, taken, events ▸ .released hes _⟩

/-- What holds of releasing the module of a site in a world of a course. -/
structure ReleasesOnce (w : World) (s : Nat) : Prop where
  /-- The function for before releasing is called at most once. -/
  oneUnload : calls (.unload s) w.events ≤ 1
  oneRelease : calls (.release s) w.events ≤ 1
  /-- It is called of the module that the site has imported for itself, after the call after loading
  has ended with success. -/
  unloads : ∀ pre call post, w.events = pre ++ .called (.unload s) call :: post →
    ∃ c h, w.Owns s c h ∧ c.unloadCall? h = some call ∧
      .ended (.ownImport s) (.importModule c.file) (.value h) ∈ pre ∧ Initialized s c h pre
  /-- The module that the site has imported for itself is released, and by then the call before that
  has ended, if there is one at all. -/
  releases : ∀ pre call post, w.events = pre ++ .called (.release s) call :: post →
    ∃ c h, w.Owns s c h ∧ call = .dispose h ∧
      .ended (.ownImport s) (.importModule c.file) (.value h) ∈ pre ∧
        ∀ call', .called (.unload s) call' ∈ w.events → ∃ o, .ended (.unload s) call' o ∈ pre
  /-- If the import fails then nothing is ever called or released. -/
  failed : ∀ path o, .ended (.ownImport s) (.importModule path) o ∈ w.events →
    (importOutcome path o).isFailure = true → ∀ ms, releaseEvents s (w.course ms).events = []
  /-- If the module is shared then the site never calls or releases anything. -/
  shared : ∀ c, (w.sites s).setup = some c → c.isShared = true →
    ∀ ms, releaseEvents s (w.course ms).events = []

theorem mem_loadEvents_of_import {path : String} {o : Outcome} {es : List Event}
    (h : .ended (.ownImport s) (.importModule path) o ∈ es) :
    .ended (.ownImport s) (.importModule path) o ∈ loadEvents s es :=
  List.mem_filter.2 ⟨h, by simp [Event.serves]⟩

/-- A module is taken from a site only if its import has not failed. -/
theorem Owns.importOutcome_eq (hs : Sound w) (owns : w.Owns s c h) (taken : w.Taken s)
    {path : String} {o : Outcome} (ho : .ended (.ownImport s) (.importModule path) o ∈ w.events) :
    importOutcome path o = .value h := by
  obtain ⟨-, o₁, hl⟩ := taken
  obtain ⟨c', -, hr⟩ := hs.result_of_loadEnded hl
  obtain ⟨o', heq⟩ := hr.exists_import_eq
  rw [← heq path o (mem_loadEvents_of_import ho),
    heq c.file (.value h) (mem_loadEvents_of_import owns.imported)]
  exact importOutcome_eq_value.2 ⟨rfl, owns.value⟩

/-- What is taken from a site is what its load has given. -/
theorem Owns.eq_of_loadEnded (hs : Sound w) (owns : w.Owns s c h) (taken : w.Taken s) {h' : Value}
    (hl : w.LoadEnded s (.value h')) : h' = h := by
  obtain ⟨c', hc', hr⟩ := hs.result_of_loadEnded hl
  cases owns.setup.symm.trans hc'
  have himported := Imported.of_result hr
  rw [Imported, if_neg (by simp [owns.isShared])] at himported
  obtain ⟨heq, -⟩ := importOutcome_eq_value.1 (owns.importOutcome_eq hs taken himported)
  exact Outcome.value.inj heq

theorem ReleaseState.failed (hs : Sound w) (hr : w.ReleaseState s) {path : String} {o : Outcome}
    (ho : .ended (.ownImport s) (.importModule path) o ∈ w.events)
    (hfail : (importOutcome path o).isFailure = true) : releaseEvents s w.events = [] := by
  obtain hev | ⟨c, h, owns, taken, -⟩ := hr.releasal
  · exact hev
  · rw [owns.importOutcome_eq hs taken ho] at hfail
    cases hfail

theorem ReleaseState.shared (hr : w.ReleaseState s) (hc : (w.sites s).setup = some c)
    (hshared : c.isShared = true) : releaseEvents s w.events = [] := by
  obtain hev | ⟨c', h, owns, -⟩ := hr.releasal
  · exact hev
  · cases hc.symm.trans owns.setup
    cases hshared.symm.trans owns.isShared

/-- The import of a module is over when the site calls a function or releases it. -/
theorem Owns.imported_before (hs : Sound w) (owns : w.Owns s c h) {p : Purpose} {call : EngineCall}
    {pre post : List Event} (hp : p ∈ [.use s, .unload s, .release s])
    (he : w.events = pre ++ .called p call :: post) :
    .ended (.ownImport s) (.importModule c.file) (.value h) ∈ pre := by
  obtain ⟨hpost, -⟩ := hs.after s p call pre post hp he
  have hmem := he ▸ owns.imported
  obtain hmem | hmem := List.mem_append.1 hmem
  · exact hmem
  · obtain hmem | hmem := List.mem_cons.1 hmem
    · cases hmem
    · have hmem := mem_loadEvents_of_import hmem
      rw [hpost] at hmem
      cases hmem

theorem mem_releaseEvents {pre post : List Event} {p : Purpose} {call : EngineCall}
    (hp : p ∈ [.unload s, .release s]) (he : w.events = pre ++ .called p call :: post) :
    releaseEvents s w.events = releaseEvents s pre ++ .called p call :: releaseEvents s post := by
  rw [he, releaseEvents_append]
  congr 1
  exact List.filter_cons_of_pos (by simpa [Event.serves] using hp)

/-- **Releasing once.** Whatever hosts and engine do and in whatever order, a site calls the
function for before releasing at most once and releases at most one module, the one it has imported
for itself; it does neither if its import has failed or its module is shared. -/
theorem releasesOnce_course (hosts : Nat → SiteHost) (hostOf : Nat → Nat)
    (engine : EngineCall → Behaviour) (ms : List Move) (s : Nat) :
    ReleasesOnce ((initial hosts hostOf engine).course ms) s := by
  have hs := sound_course hosts hostOf engine ms
  have hr : ReleaseState ((initial hosts hostOf engine).course ms) s :=
    ReleaseState.course (sound_initial hosts hostOf engine)
      (.before rfl fun t ⟨op, k, hp, _⟩ => by cases hp) ms
  generalize (initial hosts hostOf engine).course ms = w at hs hr
  have counts : calls (.unload s) (releaseEvents s w.events) ≤ 1 ∧
      calls (.release s) (releaseEvents s w.events) ≤ 1 := by
    obtain hev | ⟨c, h, -, -, hr⟩ := hr.releasal
    · simp [hev, calls]
    · exact hr.calls_le
  rw [releaseEvents, calls_filter_serves (by simp), calls_filter_serves (by simp)] at counts
  refine ⟨counts.1, counts.2, fun pre call post he => ?unloads, fun pre call post he => ?releases,
    fun path o ho hfail ms => ?failed, fun c hc hshared ms => ?shared⟩
  case unloads =>
    have hes := mem_releaseEvents (s := s) (by simp) he
    obtain hev | ⟨c, h, owns, taken, hrel⟩ := hr.releasal
    · simp [hev] at hes
    refine ⟨c, h, owns, hrel.unloadCall?_of_called (by simp [hes]),
      owns.imported_before hs (by simp) he, ?_⟩
    obtain ⟨-, ⟨hp, -⟩ | ⟨-, h', hl⟩ | ⟨hp, -⟩⟩ := hs.after s _ call pre post (by simp) he
    · cases hp
    · obtain rfl := owns.eq_of_loadEnded hs taken hl
      obtain ⟨c', hc', hinit⟩ := hs.initialized_before hl (by simp) he
      cases owns.setup.symm.trans hc'
      exact hinit
    · cases hp
  case releases =>
    have hes := mem_releaseEvents (s := s) (by simp) he
    obtain hev | ⟨c, h, owns, taken, hrel⟩ := hr.releasal
    · simp [hev] at hes
    obtain ⟨hcall, hunloads, hpost⟩ := hrel.of_release hes
    refine ⟨c, h, owns, hcall, owns.imported_before hs (by simp) he, fun call' hmem => ?_⟩
    have hmem : .called (.unload s) call' ∈ releaseEvents s w.events :=
      List.mem_filter.2 ⟨hmem, by simp [Event.serves]⟩
    rw [hes] at hmem
    obtain hmem | hmem := List.mem_append.1 hmem
    · obtain ⟨-, o, ho⟩ := hunloads.of_called hmem
      exact ⟨o, (List.mem_filter.1 ho).1⟩
    · obtain hmem | hmem := List.mem_cons.1 hmem
      · cases hmem
      · exact absurd hmem (hpost call')
  case failed =>
    exact (hr.course hs ms).failed (hs.course ms) ((hs.grows_course ms).events.subset ho) hfail
  case shared =>
    exact (hr.course hs ms).shared (((hs.grows_course ms).site s).setup c hc) hshared

/-- Two tasks that dispose a site at once release its module once. -/
example :
    let host : SiteHost := ⟨{}, ⟨"app", ⟨[], []⟩, []⟩, 0⟩
    let pairs := [("ScriptFile", .string "a.js"), ("OnUnload", .string "close")]
    let ms : List Move := [.attach 0 ⟨.nothing, .absent⟩, .assign 0 pairs,
      .start [.getModule 0, .dispose 0], .start [.getModule 0, .dispose 0]] ++
        List.replicate 50 .step
    let w := (initial (fun _ => host) (fun _ => 0) fun _ => .reply .done).course ms
    calls (.unload 0) w.events = 1 ∧ calls (.release 0) w.events = 1 := by decide +kernel

end ScriptBundle.World
