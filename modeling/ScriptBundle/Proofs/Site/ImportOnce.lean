import Mathlib.Data.List.Basic
import ScriptBundle.Proofs.Site.LoadOnce
import ScriptBundle.Proofs.Site.Sharing
/-!
# Importing once

While nobody closes a registry, the module at a path is imported for it again only if all earlier
attempts have failed, and everyone who shares it gets the same module: `World.ImportsOnce` says so,
and `importsOnce_course` proves it of every world of a course in which no host closes the registry.
-/

namespace ScriptBundle

/-- The outcome of a call to the engine that has ended. -/
def Event.outcome? : Event → Option Outcome
  | .ended _ _ o => some o
  | .called _ _ | .render _ => none

/-- The number of calls to import the module at a path for a registry. -/
def importCalls (r : Nat) (path : String) (es : List Event) : Nat :=
  calls (.sharedImport r) (importEvents r path es)

/-- What the calls to import the module at a path for a registry have ended in. -/
def importOutcomes (r : Nat) (path : String) (es : List Event) : List Outcome :=
  (importEvents r path es).filterMap Event.outcome?

/-- The number of calls to import the module at a path for a registry that have failed. -/
def importFailures (r : Nat) (path : String) (es : List Event) : Nat :=
  (importOutcomes r path es).countP fun o => (importOutcome path o).isFailure

namespace World

/-- The events about importing a path for a registry that there can be. -/
inductive ImportHistory (r : Nat) (path : String) : List Event → Prop
  | tried {es : List Event} (ht : Tried r path es) : ImportHistory r path es
  | begun {es : List Event} (ht : Tried r path es) :
      ImportHistory r path (es ++ [importAsked r path])
  | answered {es : List Event} (ht : Tried r path es) (o : Outcome) :
      ImportHistory r path (es ++ [importAsked r path, importAnswered r path o])

section History

variable {r : Nat} {path : String} {es : List Event}

theorem SharedStage.history {atWork : Prop} {op : Operation} {k : List Frame}
    (h : SharedStage r path atWork es op k) : ImportHistory r path es := by
  cases h with
  | fetch ht | stopped ht | call ht => exact .tried ht
  | follow ht => exact .begun ht
  | answered ht _ o | checked ht _ o => exact .answered ht o

theorem SharedResult.history {o : Outcome} (h : SharedResult r path es o) :
    ImportHistory r path es := by
  cases h with
  | stopped ht => exact .tried ht
  | answered ht o => exact .answered ht o

theorem SharedState.history {w : World} (h : w.SharedState r path) :
    ImportHistory r path (importEvents r path w.events) := by
  cases h with
  | free _ _ ht => exact .tried ht
  | pending _ _ _ stage => exact stage.history
  | ended _ _ _ result => exact result.history

@[simp] theorem calls_importAsked : calls (.sharedImport r) [importAsked r path] = 1 := by
  simp [calls, importAsked, Event.calls]

@[simp] theorem calls_importAnswered (o : Outcome) :
    calls (.sharedImport r) [importAsked r path, importAnswered r path o] = 1 := by
  simp [calls, importAsked, importAnswered, Event.calls]

@[simp] theorem outcome?_importAsked : (importAsked r path).outcome? = none := rfl

@[simp] theorem outcome?_importAnswered (o : Outcome) :
    (importAnswered r path o).outcome? = some o := rfl

/-- If all imports have failed then as many were called as have ended and as have failed. -/
theorem Tried.counts (ht : Tried r path es) : calls (.sharedImport r) es =
      (es.filterMap Event.outcome?).countP (fun o => (importOutcome path o).isFailure) ∧
    (es.filterMap Event.outcome?).length = calls (.sharedImport r) es := by
  induction ht with
  | never => exact ⟨rfl, rfl⟩
  | failed _ ho ih =>
    simp only [calls_append, List.filterMap_append, List.countP_append, List.length_append, ← ih.1,
      ih.2]
    simp [List.filterMap_cons, ho]

theorem ImportHistory.counts (h : ImportHistory r path es) : calls (.sharedImport r) es ≤
      (es.filterMap Event.outcome?).countP (fun o => (importOutcome path o).isFailure) + 1 ∧
    calls (.sharedImport r) es ≤ (es.filterMap Event.outcome?).length + 1 := by
  cases h with
  | tried ht =>
    rw [ht.counts.2, ← ht.counts.1]
    exact ⟨Nat.le_succ _, Nat.le_succ _⟩
  | begun ht | answered ht =>
    simp only [calls_append, List.filterMap_append, List.countP_append, List.length_append,
      ht.counts.2, ← ht.counts.1]
    simp

theorem Tried.not_answered (ht : Tried r path es) {o : Outcome}
    (ho : (importOutcome path o).isFailure = false) : importAnswered r path o ∉ es := by
  induction ht with
  | never => exact List.not_mem_nil
  | @failed es o' _ ho' ih =>
    have hne : o ≠ o' := fun e => by
      rw [e, ho'] at ho
      cases ho
    simpa [importAsked, importAnswered, hne] using ih

/-- Nothing happens after an import has succeeded. -/
theorem ImportHistory.last (h : ImportHistory r path es) {o : Outcome} {pre post : List Event}
    (he : es = pre ++ importAnswered r path o :: post)
    (ho : (importOutcome path o).isFailure = false) : post = [] := by
  have hmem : importAnswered r path o ∈ es := by simp [he]
  cases h with
  | tried ht => exact absurd hmem (ht.not_answered ho)
  | begun ht =>
    obtain hmem | hmem := List.mem_append.1 hmem
    · exact absurd hmem (ht.not_answered ho)
    · simp [importAsked, importAnswered] at hmem
  | @answered es ht o' =>
    have hfirst : importAnswered r path o ∉ es ++ [importAsked r path] := by
      simpa [importAsked, importAnswered] using ht.not_answered ho
    rw [List.append_cons] at he
    exact ((List.append_cons_inj_of_notMem hfirst List.not_mem_nil).1 he).2.2.symm

end History

/-- A site shares the module at a path through a registry. -/
def SharesAt (w : World) (s r : Nat) (path : String) : Prop :=
  ∃ c, (w.sites s).setup = some c ∧ c.isShared = true ∧
    (w.hosts (w.sites s).host).registry = r ∧ c.file = path

/-- What holds of importing the module at a path for a registry. -/
structure ImportsOnce (w : World) (r : Nat) (path : String) : Prop where
  /-- There is at most one call more than have failed. -/
  attempts : importCalls r path w.events ≤ importFailures r path w.events + 1
  /-- There is at most one call more than have ended. -/
  oneInFlight : importCalls r path w.events ≤ (importOutcomes r path w.events).length + 1
  /-- After a call has succeeded there is no other. -/
  settled : ∀ pre o post, w.events = pre ++ importAnswered r path o :: post →
    (importOutcome path o).isFailure = false → importAsked r path ∉ post
  /-- Whatever site's load has succeeded, its module is what the engine gave, the same for all. -/
  identical : ∀ s h, w.SharesAt s r path → w.LoadEnded s (.value h) →
    importAnswered r path (.value h) ∈ w.events ∧
      ∀ s' h', w.SharesAt s' r path → w.LoadEnded s' (.value h') → h' = h
  /-- No move takes a task from the registry that has not ended or has succeeded. -/
  kept : ∀ l, (w.registries r).lookup path = some l →
    (∀ o, w.outcome? l = some o → o.isFailure = false) →
      ∀ m, ((w.make m).registries r).lookup path = some l

variable {w : World} {r : Nat} {path : String}

/-- An import that has succeeded is the one that the registry remembers. -/
theorem SharedState.of_value (hw : Coherent w) (hs : w.SharedState r path) {l : Nat} {h : Value}
    (hj : (w.tasks l).job = .imports r path) (ho : w.outcome? l = some (.value h)) :
    (w.registries r).lookup path = some l ∧
      SharedResult r path (importEvents r path w.events) (.value h) := by
  have failed : ∀ {o}, w.outcome? l = some o → o.isFailure = true → False := fun ho' hfail => by
    cases ho.symm.trans ho'
    cases hfail
  cases hs with
  | free _ past =>
    obtain ⟨o, ho', hfail⟩ := past l hj nofun
    exact (failed ho' hfail).elim
  | @pending l' op k hl past hp stage =>
    by_cases hne : l' = l
    · rw [← hne, hw.outcome?_of_position? hp] at ho
      cases ho
    · obtain ⟨o, ho', hfail⟩ := past l hj fun e => hne (Option.some.inj e)
      exact (failed ho' hfail).elim
  | @ended l' o hl past ho' result =>
    by_cases hne : l' = l
    · subst hne
      cases ho.symm.trans ho'
      exact ⟨hl, result⟩
    · obtain ⟨o, ho', hfail⟩ := past l hj fun e => hne (Option.some.inj e)
      exact (failed ho' hfail).elim

theorem SharedResult.mem_of_value {es : List Event} {h : Value}
    (hr : SharedResult r path es (.value h)) : importAnswered r path (.value h) ∈ es := by
  generalize ho : Outcome.value h = o at hr
  cases hr with
  | stopped => cases ho
  | answered ht o =>
    obtain ⟨rfl, -⟩ := importOutcome_eq_value.1 ho.symm
    simp [← ho]

/-- The load of a site that shares a module ends in that. -/
theorem SharesAt.imported (hs : Sound w) {s : Nat} {h : Value} (hshares : w.SharesAt s r path)
    (hl : w.LoadEnded s (.value h)) :
    ∃ l, (w.tasks l).job = .imports r path ∧ w.outcome? l = some (.value h) := by
  obtain ⟨c, hc, hshared, rfl, rfl⟩ := hshares
  obtain ⟨c', hc', hr⟩ := hs.result_of_loadEnded hl
  cases hc.symm.trans hc'
  have himported := Imported.of_result hr
  rw [Imported, if_pos hshared] at himported
  obtain ⟨l, ⟨c', hc', hj⟩, ho⟩ := himported
  cases hc.symm.trans hc'
  exact ⟨l, hj, ho⟩

/-- A registry keeps what has not ended or has succeeded. -/
theorem Unclosed.kept (hs : Sound w) (hu : w.Unclosed r) {l : Nat}
    (hl : (w.registries r).lookup path = some l)
    (hgood : ∀ o, w.outcome? l = some o → o.isFailure = false) (m : Move) :
    ((w.make m).registries r).lookup path = some l := by
  cases registers_make hs hu m with
  | same registries => rw [registries, hl]
  | added _ registries => rw [registries, List.lookup_append, hl, Option.some_or]
  | @forgotten path' l' o ho hfail hl' registries =>
    by_cases hpath : path = path'
    · subst hpath
      cases hl.symm.trans hl'
      rw [hgood o ho] at hfail
      cases hfail
    · rw [registries, lookup_filter_ne hpath, hl]

/-- **Importing once.** Whatever hosts and engine do and in whatever order, as long as nobody closes
a registry, the module at a path is imported for it again only if all earlier attempts have failed.
-/
theorem importsOnce_course (hosts : Nat → SiteHost) (hostOf : Nat → Nat)
    (engine : EngineCall → Behaviour) (ms : List Move) (r : Nat) (path : String)
    (hm : ∀ m ∈ ms, ¬ m.closes r) :
    ImportsOnce ((initial hosts hostOf engine).course ms) r path := by
  have hs₀ := sound_initial hosts hostOf engine
  have hs := hs₀.course ms
  have hq₀ : Scheduled (initial hosts hostOf engine) := scheduled_course hosts hostOf engine []
  have hfree : (initial hosts hostOf engine).SharedState r path := .free rfl nofun .never
  obtain ⟨h, hu⟩ := hfree.course hs₀ hq₀ (fun t op k hp => by cases hp) hm
  generalize (initial hosts hostOf engine).course ms = w at hs h hu
  have hhist := h.history
  refine ⟨hhist.counts.1, hhist.counts.2, fun pre o post he ho hmem => ?settled,
    fun s v hshares hl => ?identical, fun l hl hgood m => hu.kept hs hl hgood m⟩
  case settled =>
    have hev : importEvents r path w.events = importEvents r path pre ++
        importAnswered r path o :: importEvents r path post := by
      rw [he, importEvents_append]
      congr 1
      exact List.filter_cons_of_pos (imports_importAnswered r path o)
    have hpost := hhist.last hev ho
    have hmem' : importAsked r path ∈ importEvents r path post :=
      List.mem_filter.2 ⟨hmem, imports_importAsked r path⟩
    rw [hpost] at hmem'
    cases hmem'
  case identical =>
    obtain ⟨l, hj, ho⟩ := hshares.imported hs hl
    obtain ⟨hlookup, result⟩ := h.of_value hs.coherent hj ho
    refine ⟨?_, fun s' v' hshares' hl' => ?_⟩
    · exact (List.mem_filter.1 result.mem_of_value).1
    · obtain ⟨l', hj', ho'⟩ := hshares'.imported hs hl'
      obtain ⟨hlookup', -⟩ := h.of_value hs.coherent hj' ho'
      cases hlookup.symm.trans hlookup'
      exact Outcome.value.inj (Option.some.inj (ho'.symm.trans ho))

/-- Two sites that share a script file and are loaded at once import it once. -/
theorem importsOnce_two_sites :
    let host : SiteHost := ⟨{}, ⟨"app", ⟨[], []⟩, []⟩, 0⟩
    let handle : RenderHandle := ⟨.nothing, .absent⟩
    let pairs := [("ScriptFile", .string "a.js"), ("GlobalBundle", .bool true)]
    let ms : List Move := [.attach 0 handle, .assign 0 pairs, .attach 1 handle, .assign 1 pairs,
      .start [.getModule 0], .start [.getModule 1]] ++ List.replicate 50 .step
    let w := (initial (fun _ => host) (fun _ => 0) fun _ => .reply .done).course ms
    (∀ m ∈ ms, ¬ m.closes 0) ∧ ImportsOnce w 0 "a.js" ∧ importCalls 0 "a.js" w.events = 1 := by
  intro host handle pairs ms w
  have h : ∀ m ∈ ms, ¬ m.closes 0 := by simp [ms, Move.closes]
  exact ⟨h, importsOnce_course _ _ _ _ _ _ h, by decide +kernel⟩

end World

end ScriptBundle
