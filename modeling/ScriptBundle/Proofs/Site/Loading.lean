import ScriptBundle.Proofs.Site.Changing
/-!
# The load of a site

The task that loads a site goes through stages. `LoadStage` gives for each stage the operation, the
frames and the exact events about the load so far, and `LoadResult` how a load may end with which
events. The tasks that import for a registry have stages of their own, `ImportStage`.
-/

namespace ScriptBundle

/-- The import of a site has ended in the given outcome, with the given events about it. One that is
shared leaves no events at the site; `shares` tells how it may have ended. -/
inductive Imports (c : SiteSetup) (s : Nat) (shares : Outcome → Prop) :
    List Event → Outcome → Prop
  | own (hc : c.isShared = false) (o : Outcome) :
      Imports c s shares [.called (.ownImport s) (.importModule c.file),
        .ended (.ownImport s) (.importModule c.file) o] (importOutcome c.file o)
  | shared (hc : c.isShared = true) {o : Outcome} (ho : shares o) : Imports c s shares [] o

/-- The call after loading the module `h` has ended in the given outcome, with the given events. -/
inductive Initializes (c : SiteSetup) (s : Nat) (h : Value) : List Event → Outcome → Prop
  | absent (hc : c.initCall? h = none) : Initializes c s h [] (.value .null)
  | made {call : EngineCall} (hc : c.initCall? h = some call) (o : Outcome) :
      Initializes c s h [.called (.init s) call, .ended (.init s) call o] o

/-- The load of a site has ended in the given outcome, with the given events about it. -/
inductive LoadResult (c : SiteSetup) (s : Nat) (shares : Outcome → Prop) :
    List Event → Outcome → Prop
  | importFailed {es : List Event} {o : Outcome} (hi : Imports c s shares es o)
      (ho : o.isFailure = true) : LoadResult c s shares es o
  | initFailed {es es' : List Event} {h : Value} {o : Outcome}
      (hi : Imports c s shares es (.value h)) (hn : Initializes c s h es' o)
      (ho : o.isFailure = true) : LoadResult c s shares (es ++ es') o
  | loaded {es es' : List Event} {h v : Value} (hi : Imports c s shares es (.value h))
      (hn : Initializes c s h es' (.value v)) : LoadResult c s shares (es ++ es') (.value h)

/-- The stages of the load of a site with the events about it so far. `joins` tells for which task
a shared import may wait. -/
inductive LoadStage (c : SiteSetup) (s : Nat) (joins : Nat → Prop) (shares : Outcome → Prop) :
    List Event → Operation → List Frame → Prop
  | start : LoadStage c s joins shares [] (.load s) []
  | fetch (hc : c.isShared = false) :
      LoadStage c s joins shares [] (.fetch (.ownImport s) c.file) [.keep s, .callInit s]
  | call (hc : c.isShared = false) :
      LoadStage c s joins shares [] (.call (.ownImport s) (.importModule c.file))
        [.imported c.file, .keep s, .callInit s]
  | follow (hc : c.isShared = false) (b : Behaviour) :
      LoadStage c s joins shares [.called (.ownImport s) (.importModule c.file)]
        (.follow (.ownImport s) (.importModule c.file) b)
        [.imported c.file, .keep s, .callInit s]
  | answered (hc : c.isShared = false) (o : Outcome) :
      LoadStage c s joins shares [.called (.ownImport s) (.importModule c.file),
        .ended (.ownImport s) (.importModule c.file) o] (.give o)
        [.imported c.file, .keep s, .callInit s]
  | checked (hc : c.isShared = false) {es : List Event} {o : Outcome}
      (hi : Imports c s shares es o) :
      LoadStage c s joins shares es (.give o) [.keep s, .callInit s]
  | await (hc : c.isShared = true) {l : Nat} (hl : joins l) :
      LoadStage c s joins shares [] (.await l) [.callInit s]
  | imported {es : List Event} {o : Outcome} (hi : Imports c s shares es o) :
      LoadStage c s joins shares es (.give o) [.callInit s]
  | init {es : List Event} {h : Value} {call : EngineCall} (hi : Imports c s shares es (.value h))
      (hc : c.initCall? h = some call) :
      LoadStage c s joins shares es (.call (.init s) call) [.finishLoad s h]
  | initFollow {es : List Event} {h : Value} {call : EngineCall}
      (hi : Imports c s shares es (.value h)) (hc : c.initCall? h = some call) (b : Behaviour) :
      LoadStage c s joins shares (es ++ [.called (.init s) call]) (.follow (.init s) call b)
        [.finishLoad s h]
  | initialized {es es' : List Event} {h : Value} {o : Outcome}
      (hi : Imports c s shares es (.value h)) (hn : Initializes c s h es' o) :
      LoadStage c s joins shares (es ++ es') (.give o) [.finishLoad s h]
  | ended {es : List Event} {o : Outcome} (hr : LoadResult c s shares es o) :
      LoadStage c s joins shares es (.give o) []

/-- The stages of a task that imports for a registry. -/
inductive ImportStage (r : Nat) (path : String) : Operation → List Frame → Prop
  | fetch : ImportStage r path (.fetch (.sharedImport r) path) []
  | call : ImportStage r path (.call (.sharedImport r) (.importModule path)) [.imported path]
  | follow (b : Behaviour) :
      ImportStage r path (.follow (.sharedImport r) (.importModule path) b) [.imported path]
  | answered (o : Outcome) : ImportStage r path (.give o) [.imported path]
  | ended (o : Outcome) : ImportStage r path (.give o) []

section Mono

variable {c : SiteSetup} {s : Nat} {joins joins' : Nat → Prop} {shares shares' : Outcome → Prop}
  {es : List Event} {o : Outcome}

theorem Imports.mono (hs : ∀ o, shares o → shares' o) (h : Imports c s shares es o) :
    Imports c s shares' es o := by
  cases h with
  | own hc o => exact .own hc o
  | shared hc ho => exact .shared hc (hs _ ho)

theorem LoadResult.mono (hs : ∀ o, shares o → shares' o) (h : LoadResult c s shares es o) :
    LoadResult c s shares' es o := by
  cases h with
  | importFailed hi ho => exact .importFailed (hi.mono hs) ho
  | initFailed hi hn ho => exact .initFailed (hi.mono hs) hn ho
  | loaded hi hn => exact .loaded (hi.mono hs) hn

theorem LoadStage.mono (hj : ∀ l, joins l → joins' l) (hs : ∀ o, shares o → shares' o)
    {op : Operation} {k : List Frame} (h : LoadStage c s joins shares es op k) :
    LoadStage c s joins' shares' es op k := by
  cases h with
  | start => exact .start
  | fetch hc => exact .fetch hc
  | call hc => exact .call hc
  | follow hc b => exact .follow hc b
  | answered hc o => exact .answered hc o
  | checked hc hi => exact .checked hc (hi.mono hs)
  | await hc hl => exact .await hc (hj _ hl)
  | imported hi => exact .imported (hi.mono hs)
  | init hi hc => exact .init (hi.mono hs) hc
  | initFollow hi hc b => exact .initFollow (hi.mono hs) hc b
  | initialized hi hn => exact .initialized (hi.mono hs) hn
  | ended hr => exact .ended (hr.mono hs)

end Mono

namespace World

/-- A task that a site's load may wait for: it imports what the site loads, for the same registry.
-/
def Joins (w : World) (s l : Nat) : Prop :=
  ∃ c, (w.sites s).setup = some c ∧
    (w.tasks l).job = .imports (w.hosts (w.sites s).host).registry c.file

/-- A shared import that a site's load may wait for has ended in the given outcome. -/
def Shares (w : World) (s : Nat) (o : Outcome) : Prop := ∃ l, w.Joins s l ∧ w.outcome? l = some o

/-- The load of a site has ended in the given outcome. -/
def LoadEnded (w : World) (s : Nat) (o : Outcome) : Prop :=
  ∃ l, (w.sites s).load = some l ∧ w.outcome? l = some o

section Grows

variable {w w' : World} (hw : Coherent w) (h : Grows w w')

include hw in
theorem Coherent.lt_of_job {t : Nat} (ht : ∀ op, (w.tasks t).job ≠ .host op) : t < w.taskCount := by
  by_contra hlt
  exact ht _ (hw.unspawned t (Nat.le_of_not_lt hlt)).job

include hw in
theorem Coherent.lt_of_position? {t : Nat} {p : Operation × List Frame}
    (hp : w.position? t = some p) : t < w.taskCount := by
  by_contra hlt
  rw [hw.position?_of_le (Nat.le_of_not_lt hlt)] at hp
  cases hp

include hw in
theorem Coherent.lt_of_outcome? {t : Nat} {o : Outcome} (ho : w.outcome? t = some o) :
    t < w.taskCount := by
  by_contra hlt
  rw [outcome?_eq_some, (hw.unspawned t (Nat.le_of_not_lt hlt)).status] at ho
  cases ho

include hw in
theorem Coherent.load_of_job {t s : Nat} (ht : (w.tasks t).job = .loads s) :
    (w.sites s).load = some t :=
  (hw.loads s t).2 ⟨hw.lt_of_job (by simp [ht]), ht⟩

include hw in
/-- One task only loads a site. -/
theorem Coherent.eq_of_loads {t u s : Nat} (ht : (w.tasks t).job = .loads s)
    (hu : (w.tasks u).job = .loads s) : t = u :=
  Option.some.inj ((hw.load_of_job ht).symm.trans (hw.load_of_job hu))

include hw h in
theorem Joins.grows {s l : Nat} (hl : w.Joins s l) : w'.Joins s l := by
  obtain ⟨c, hc, hj⟩ := hl
  refine ⟨c, (h.site s).setup c hc, ?_⟩
  rw [h.job l (hw.lt_of_job (by simp [hj])), h.hosts, (h.site s).host, hj]

include hw h in
theorem Shares.grows {s : Nat} {o : Outcome} (ho : w.Shares s o) : w'.Shares s o := by
  obtain ⟨l, hl, ho⟩ := ho
  exact ⟨l, hl.grows hw h, h.outcome l o ho⟩

include h in
theorem LoadEnded.grows {s : Nat} {o : Outcome} (ho : w.LoadEnded s o) : w'.LoadEnded s o := by
  obtain ⟨l, hl, ho⟩ := ho
  exact ⟨l, (h.site s).load l hl, h.outcome l o ho⟩

end Grows

end World

end ScriptBundle
