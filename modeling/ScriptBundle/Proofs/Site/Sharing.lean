import ScriptBundle.Proofs.Pairs
import ScriptBundle.Proofs.Site.Failing
import ScriptBundle.Proofs.Site.Registering
/-!
# Shared imports

The tasks that import a path for a registry follow each other: only after one has failed and was
forgotten is there another. `World.SharedState` says how far that is, with the exact events about
all of them, and every move keeps it while nobody closes the registry (`SharedState.make`).
-/

namespace ScriptBundle

/-- Whether an event is a call to import the module at a path for a registry, or the end of one. -/
def Event.imports (r : Nat) (path : String) : Event → Bool
  | .called p (.importModule path') | .ended p (.importModule path') _ =>
    p = .sharedImport r ∧ path' = path
  | _ => false

/-- The events about importing the module at a path for a registry. -/
def importEvents (r : Nat) (path : String) (es : List Event) : List Event :=
  es.filter (Event.imports r path)

@[simp] theorem importEvents_append (r : Nat) (path : String) (es es' : List Event) :
    importEvents r path (es ++ es') = importEvents r path es ++ importEvents r path es' :=
  List.filter_append ..

/-- The import of the module at a path for a registry was called. -/
def importAsked (r : Nat) (path : String) : Event := .called (.sharedImport r) (.importModule path)

/-- The import of the module at a path for a registry has ended. -/
def importAnswered (r : Nat) (path : String) (o : Outcome) : Event :=
  .ended (.sharedImport r) (.importModule path) o

@[simp] theorem imports_importAsked (r : Nat) (path : String) :
    (importAsked r path).imports r path = true := by
  simp [importAsked, Event.imports]

@[simp] theorem imports_importAnswered (r : Nat) (path : String) (o : Outcome) :
    (importAnswered r path o).imports r path = true := by
  simp [importAnswered, Event.imports]

namespace World

/-- The events about imports that have all failed. -/
inductive Tried (r : Nat) (path : String) : List Event → Prop
  | never : Tried r path []
  | failed {es : List Event} {o : Outcome} (ht : Tried r path es)
      (ho : (importOutcome path o).isFailure = true) :
      Tried r path (es ++ [importAsked r path, importAnswered r path o])

/-- The stages of a task that imports a path for a registry, after others that have failed, with the
events about all of them so far. Some last only while the task is at work. -/
inductive SharedStage (r : Nat) (path : String) (atWork : Prop) :
    List Event → Operation → List Frame → Prop
  | fetch {es : List Event} (ht : Tried r path es) :
      SharedStage r path atWork es (.fetch (.sharedImport r) path) []
  | stopped {es : List Event} (ht : Tried r path es) :
      SharedStage r path atWork es (.give .cancelled) []
  | call {es : List Event} (ht : Tried r path es) (hw : atWork) :
      SharedStage r path atWork es (.call (.sharedImport r) (.importModule path)) [.imported path]
  | follow {es : List Event} (ht : Tried r path es) (b : Behaviour) :
      SharedStage r path atWork (es ++ [importAsked r path])
        (.follow (.sharedImport r) (.importModule path) b) [.imported path]
  | answered {es : List Event} (ht : Tried r path es) (hw : atWork) (o : Outcome) :
      SharedStage r path atWork (es ++ [importAsked r path, importAnswered r path o]) (.give o)
        [.imported path]
  | checked {es : List Event} (ht : Tried r path es) (hw : atWork) (o : Outcome) :
      SharedStage r path atWork (es ++ [importAsked r path, importAnswered r path o])
        (.give (importOutcome path o)) []

/-- What the import of a path for a registry may end in, after others that have failed, with the
events about all of them. -/
inductive SharedResult (r : Nat) (path : String) : List Event → Outcome → Prop
  | stopped {es : List Event} (ht : Tried r path es) : SharedResult r path es .cancelled
  | answered {es : List Event} (ht : Tried r path es) (o : Outcome) :
      SharedResult r path (es ++ [importAsked r path, importAnswered r path o])
        (importOutcome path o)

/-- All imports of a path for a registry have failed, except for the given one. -/
def Past (w : World) (r : Nat) (path : String) (l : Option Nat) : Prop :=
  ∀ t, (w.tasks t).job = .imports r path → l ≠ some t →
    ∃ o, w.outcome? t = some o ∧ o.isFailure = true

/-- How far the imports of a path for a registry are. -/
inductive SharedState (w : World) (r : Nat) (path : String) : Prop
  | free (hl : (w.registries r).lookup path = none) (past : w.Past r path none)
      (tried : Tried r path (importEvents r path w.events))
  | pending {l : Nat} {op : Operation} {k : List Frame}
      (hl : (w.registries r).lookup path = some l) (past : w.Past r path (some l))
      (hp : w.position? l = some (op, k))
      (stage : SharedStage r path (w.AtWork l) (importEvents r path w.events) op k)
  | ended {l : Nat} {o : Outcome} (hl : (w.registries r).lookup path = some l)
      (past : w.Past r path (some l)) (ho : w.outcome? l = some o)
      (result : SharedResult r path (importEvents r path w.events) o)

variable {w w' : World} {r t : Nat} {path : String} {op : Operation} {k : List Frame}

theorem SharedResult.tried {es : List Event} {o : Outcome} (hr : SharedResult r path es o)
    (ho : o.isFailure = true) : Tried r path es := by
  cases hr with
  | stopped ht => exact ht
  | answered ht => exact ht.failed ho

theorem Past.grows (hg : Grows w w') {l l' : Option Nat} (h : w.Past r path l)
    (older : ∀ t, (w'.tasks t).job = .imports r path → l' ≠ some t → t < w.taskCount ∧ l ≠ some t) :
    w'.Past r path l' := by
  intro t hj hne
  obtain ⟨hlt, hne⟩ := older t hj hne
  obtain ⟨o, ho, hfail⟩ := h t ((hg.job t hlt).symm.trans hj) hne
  exact ⟨o, hg.outcome t o ho, hfail⟩

/-- A registry remembers under a path only a task that imports it. -/
theorem Coherent.job_of_lookup (hw : Coherent w) {l : Nat}
    (hl : (w.registries r).lookup path = some l) :
    l < w.taskCount ∧ (w.tasks l).job = .imports r path :=
  hw.remembered r path l (mem_of_lookup hl)

/-- An import that goes on is the one that the registry remembers. -/
theorem SharedState.pending_of_job (hw : Coherent w) (h : w.SharedState r path)
    (hj : (w.tasks t).job = .imports r path) (hp : w.position? t = some (op, k)) :
    (w.registries r).lookup path = some t ∧ w.Past r path (some t) ∧
      SharedStage r path (w.AtWork t) (importEvents r path w.events) op k := by
  have unended : ∀ {o}, w.outcome? t ≠ some o := fun ho => by
    rw [hw.outcome?_of_position? hp] at ho
    cases ho
  cases h with
  | free _ past =>
    obtain ⟨o, ho, -⟩ := past t hj nofun
    exact (unended ho).elim
  | @pending l op' k' hl past hp' stage =>
    have hlt : l = t := by_contra fun hne => by
      obtain ⟨o, ho, -⟩ := past t hj fun e => hne (Option.some.inj e)
      exact unended ho
    subst hlt
    cases hp'.symm.trans hp
    exact ⟨hl, past, stage⟩
  | @ended l o hl past ho =>
    by_cases hlt : l = t
    · exact (unended (hlt ▸ ho)).elim
    · obtain ⟨o', ho', -⟩ := past t hj fun e => hlt (Option.some.inj e)
      exact (unended ho').elim

/-! ## The task that imports -/

/-- A task stays in its stage unless it takes a step. -/
theorem SharedStage.make (hs : Sound w) {es : List Event} (hp : w.position? t = some (op, k))
    {m : Move} (ht : m = .step → ¬ w.AtWork t) (h : SharedStage r path (w.AtWork t) es op k) :
    ∃ op', (w.make m).position? t = some (op', k) ∧
      SharedStage r path ((w.make m).AtWork t) es op' k := by
  obtain ⟨op', hp', ⟨rfl, hw⟩ | ⟨hn, hwoken⟩⟩ := hs.stays hp ht
  · refine ⟨op', hp', ?_⟩
    cases h with
    | fetch ht => exact .fetch ht
    | stopped ht => exact .stopped ht
    | call ht => exact .call ht hw
    | follow ht b => exact .follow ht b
    | answered ht _ o => exact .answered ht hw o
    | checked ht _ o => exact .checked ht hw o
  · refine ⟨op', hp', ?_⟩
    cases h with
    | fetch ht =>
      cases hwoken with
      | same => exact .fetch ht
      | stopped => exact .stopped ht
    | stopped ht => cases hwoken <;> exact .stopped ht
    | follow ht b => cases hwoken <;> exact .follow ht _
    | call _ hw | answered _ hw | checked _ hw => exact absurd hw hn

/-- A step leads the task to its next stage, or ends it. -/
theorem SharedStage.step (hc : w.control = .working t op k) {es : List Event}
    (h : SharedStage r path (w.AtWork t) es op k) :
    (∃ op' k', w.step.position? t = some (op', k') ∧ SharedStage r path (w.step.AtWork t)
        (es ++ importEvents r path (op.emits w.named)) op' k') ∨
      ∃ o, w.step.outcome? t = some o ∧
        SharedResult r path (es ++ importEvents r path (op.emits w.named)) o := by
  have goesOn : ∀ {v : World} {op' k'}, w.step = v.goOn t op' k' →
      w.step.position? t = some (op', k') ∧ w.step.AtWork t := fun h =>
    ⟨position?_of_goOn h, _, _, by rw [h]; rfl⟩
  cases h with
  | fetch ht =>
    obtain ⟨hp, hw⟩ := goesOn (step_operate hc rfl)
    exact .inl ⟨_, _, hp, by simpa [Operation.emits, importEvents] using .call ht hw⟩
  | stopped ht =>
    refine .inr ⟨.cancelled, step_finish hc ▸ outcome?_finish _, ?_⟩
    simpa [Operation.emits, importEvents] using .stopped ht
  | call ht =>
    obtain ⟨hp, -⟩ := goesOn (step_operate hc rfl)
    refine .inl ⟨_, _, hp, ?_⟩
    change SharedStage r path _ (_ ++ importEvents r path [importAsked r path]) _ _
    simpa [importEvents] using .follow ht _
  | @follow es ht b =>
    cases b with
    | gate g =>
      refine .inl ⟨_, _, position?_of_gate (step_operate hc rfl), ?_⟩
      simpa [Operation.emits, importEvents] using .follow ht _
    | reply reply =>
      obtain ⟨hp, hw⟩ := goesOn (step_operate hc rfl)
      refine .inl ⟨_, _, hp, ?_⟩
      change SharedStage r path _ (_ ++ importEvents r path [importAnswered r path _]) _ _
      simpa [importEvents] using .answered ht hw _
  | answered ht _ o =>
    obtain ⟨hp, hw⟩ := goesOn (step_resume hc)
    exact .inl ⟨_, _, hp, by simpa [Operation.emits, importEvents] using .checked ht hw o⟩
  | checked ht _ o =>
    refine .inr ⟨_, step_finish hc ▸ outcome?_finish _, ?_⟩
    simpa [Operation.emits, importEvents] using .answered ht o

/-- A task that imports starts no other and leaves the registries alone. -/
theorem SharedStage.frame (hc : w.control = .working t op k) {atWork : Prop} {es : List Event}
    (h : SharedStage r path atWork es op k) :
    w.step.registries = w.registries ∧ w.step.taskCount = w.taskCount := by
  cases h with
  | fetch | call =>
    rw [step_operate hc rfl]
    exact ⟨rfl, rfl⟩
  | follow _ b =>
    rw [step_operate hc rfl]
    cases b <;> exact ⟨rfl, rfl⟩
  | stopped | checked =>
    rw [step_finish hc]
    exact ⟨rfl, rfl⟩
  | answered =>
    rw [step_resume hc]
    exact ⟨rfl, rfl⟩

/-- A step of the task that imports. -/
theorem SharedState.step_own (hs : Sound w) (h : w.SharedState r path)
    (hc : w.control = .working t op k) (hj : (w.tasks t).job = .imports r path) :
    w.step.SharedState r path := by
  have hs' : Sound w.step := hs.make .step
  obtain ⟨hl, past, stage⟩ := h.pending_of_job hs.coherent hj (position?_of_working hc)
  obtain ⟨registries, count⟩ := stage.frame hc
  have hl' : (w.step.registries r).lookup path = some t := registries ▸ hl
  have past' : w.step.Past r path (some t) := past.grows (hs.follows_step hc).grows
    fun u hu hne => ⟨count ▸ hs'.coherent.lt_of_job (by simp [hu]), hne⟩
  have hevents : importEvents r path w.step.events =
      importEvents r path w.events ++ importEvents r path (op.emits w.named) := by
    rw [events_step hc, importEvents_append]
  obtain ⟨op', k', hp, stage'⟩ | ⟨o, ho, result⟩ := stage.step hc
  · exact .pending hl' past' hp (hevents ▸ stage')
  · exact .ended hl' past' ho (hevents ▸ result)

/-! ## Other moves -/

/-- Only the tasks that import a path for a registry call the engine for that. -/
theorem Stage.importEvents_emits (hs : w.Stage t op k) (hj : (w.tasks t).job ≠ .imports r path)
    (n : Nat) : importEvents r path (op.emits n) = [] := by
  have importing : op.purpose? = some (.sharedImport r) → ∀ c, (op = .call (.sharedImport r) c ∨
      ∃ b, op = .follow (.sharedImport r) c b) → c ≠ .importModule path := by
    rintro hp c hop rfl
    have hallows := hs.allows hp
    obtain ⟨u, d, es, hj', -, -, -⟩ | ⟨r', path', hj', hs⟩ | ⟨call, hj', -⟩ := hs.byJob
    · exact (hj' ▸ hallows).elim
    · obtain rfl | ⟨b, rfl⟩ := hop <;> cases hs <;> exact hj hj'
    · exact (hj' ▸ hallows).elim
  refine List.filter_eq_nil_iff.2 fun e he htrue => ?_
  cases op with
  | call p c =>
    rw [List.mem_singleton.1 he] at htrue
    cases c with
    | importModule path' =>
      obtain ⟨rfl, rfl⟩ : p = .sharedImport r ∧ path' = path := by
        simpa [Event.imports] using htrue
      exact importing rfl _ (.inl rfl) rfl
    | invoke | dispose => simp [Event.imports] at htrue
  | follow p c b =>
    cases b with
    | gate => cases he
    | reply reply =>
      rw [List.mem_singleton.1 he] at htrue
      cases c with
      | importModule path' =>
        obtain ⟨rfl, rfl⟩ : p = .sharedImport r ∧ path' = path := by
          simpa [Event.imports] using htrue
        exact importing rfl _ (.inr ⟨_, rfl⟩) rfl
      | invoke | dispose => simp [Event.imports] at htrue
  | _ => cases he

/-- A move other than a step of the task that imports, by which the registry remembers the same of
the path. -/
theorem SharedState.of_lookup (hs : Sound w) (h : w.SharedState r path) {m : Move}
    (other : m = .step → ∀ t op k, w.control = .working t op k →
      (w.tasks t).job ≠ .imports r path)
    (events : importEvents r path (w.make m).events = importEvents r path w.events)
    (lookup : ((w.make m).registries r).lookup path = (w.registries r).lookup path)
    (older : ∀ t, ((w.make m).tasks t).job = .imports r path → t < w.taskCount) :
    (w.make m).SharedState r path := by
  have hg := hs.grows_make m
  have past' : ∀ {l}, w.Past r path l → (w.make m).Past r path l := fun past =>
    past.grows hg fun t ht hne => ⟨older t ht, hne⟩
  cases h with
  | free hl past tried => exact .free (lookup.trans hl) (past' past) (events ▸ tried)
  | @pending l op k hl past hp stage =>
    have hj := (hs.coherent.job_of_lookup hl).2
    obtain ⟨op', hp', stage'⟩ := stage.make hs hp fun hm ⟨op₁, k₁, hc⟩ => other hm l op₁ k₁ hc hj
    exact .pending (lookup.trans hl) (past' past) hp' (events ▸ stage')
  | ended hl past ho result =>
    exact .ended (lookup.trans hl) (past' past) (hg.outcome _ _ ho) (events ▸ result)

/-- A task that was added to a registry is at its start. -/
theorem Sound.fetches_of_new (hs : Sound w) {m : Move} (hq : Scheduled (w.make m))
    (hj : ((w.make m).tasks w.taskCount).job = .imports r path) :
    (w.make m).position? w.taskCount = some (.fetch (.sharedImport r) path, []) := by
  have hw' := (hs.make m).coherent
  have follows : ∀ actor, (∀ t, actor = some t → t < w.taskCount) → Follows actor w (w.make m) →
      (w.make m).position? w.taskCount = some (.fetch (.sharedImport r) path, []) := by
    intro actor hlt hf
    have hne : some w.taskCount ≠ actor := fun e => Nat.lt_irrefl _ (hlt _ e.symm)
    have hnone := hs.coherent.position?_of_le (Nat.le_refl w.taskCount)
    have hlt := hw'.lt_of_job (t := w.taskCount) (by simp [hj])
    obtain ⟨o, ho⟩ | ⟨op, k, hp⟩ := hq.standing hw' hlt
    · exact absurd (hs.coherent.lt_of_outcome? (hf.ends _ o hne ho)) (Nat.lt_irrefl _)
    · obtain ⟨-, rfl, rfl⟩ := hf.newcomers _ op k hne hnone hp
      rw [hp, hj]
      rfl
  obtain ⟨t, op, k, rfl, hc, hf⟩ | hf := hs.follows_move m
  · refine follows (some t) (fun u hu => ?_) hf
    cases hu
    exact (hs.coherent.atWork t op k hc).1
  · exact follows none nofun hf

/-- Moves other than steps of the task that imports. -/
theorem SharedState.of_others (hs : Sound w) (hq : Scheduled w) (hu : w.Unclosed r)
    (h : w.SharedState r path) {m : Move}
    (other : m = .step → ∀ t op k, w.control = .working t op k →
      (w.tasks t).job ≠ .imports r path)
    (events : importEvents r path (w.make m).events = importEvents r path w.events) :
    (w.make m).SharedState r path := by
  have hg := hs.grows_make m
  cases registers_make hs hu m with
  | same registries older =>
    exact h.of_lookup hs other events (registries ▸ rfl) fun t => older t path
  | @added path' free registries job older =>
    by_cases hpath : path = path'
    · subst hpath
      cases h with
      | free hl past tried =>
        have hp := hs.fetches_of_new (hq.make hs m) job
        refine .pending (l := w.taskCount) ?_ (past.grows hg fun t ht hne => ⟨?_, nofun⟩) hp
          (events ▸ .fetch tried)
        · rw [registries, List.lookup_append, hl]
          simp
        · exact (older t path ht).resolve_right fun e => hne (congrArg some e.symm)
      | pending hl | ended hl => cases hl.symm.trans free
    · refine h.of_lookup hs other events ?_ fun t ht => (older t path ht).resolve_right fun e => ?_
      · rw [registries, List.lookup_append, List.lookup_cons, beq_false_of_ne hpath]
        simp
      · cases (e ▸ job).symm.trans ht
        exact hpath rfl
  | @forgotten path' l o ho hfail hl registries older =>
    by_cases hpath : path = path'
    · subst hpath
      cases h with
      | free hl' => cases hl'.symm.trans hl
      | pending hl' past hp =>
        cases hl'.symm.trans hl
        rw [hs.coherent.outcome?_of_position? hp] at ho
        cases ho
      | @ended l' o' hl' past ho' result =>
        cases hl'.symm.trans hl
        cases ho'.symm.trans ho
        refine .free (registries ▸ lookup_filter_self) (fun t ht _ => ?_)
          (events ▸ result.tried hfail)
        by_cases htl : l = t
        · exact ⟨o, hg.outcome t o (htl ▸ ho), hfail⟩
        · obtain ⟨o', ho', hfail'⟩ := past t ((hg.job t (older t path ht)).symm.trans ht)
            fun e => htl (Option.some.inj e)
          exact ⟨o', hg.outcome t o' ho', hfail'⟩
    · exact h.of_lookup hs other events (registries ▸ lookup_filter_ne hpath) fun t => older t path

/-- **Shared imports.** While nobody closes a registry, a task imports a path for it only after all
others have failed and were forgotten. -/
theorem SharedState.make (hs : Sound w) (hq : Scheduled w) (hu : w.Unclosed r)
    (h : w.SharedState r path) (m : Move) : (w.make m).SharedState r path := by
  obtain ⟨t, op, k, rfl, hc⟩ | hm := w.working_or_aside m
  · by_cases hj : (w.tasks t).job = .imports r path
    · exact h.step_own hs hc hj
    · refine h.of_others hs hq hu (m := .step) (fun _ u op₁ k₁ hu => ?_) ?_
      · cases hc.symm.trans hu
        exact hj
      · change importEvents r path w.step.events = _
        rw [events_step hc, importEvents_append,
          (hs.stage t op k (position?_of_working hc)).importEvents_emits hj, List.append_nil]
  · obtain ⟨new, record, renders⟩ := events_make hm
    refine h.of_others hs hq hu (fun h t op k hc => ?_) ?_
    · cases (hm h).symm.trans hc
    · rw [record, importEvents_append, List.append_right_eq_self]
      refine List.filter_eq_nil_iff.2 fun e he => ?_
      obtain ⟨s, rfl⟩ := renders e he
      simp [Event.imports]

/-- What holds while a registry is not closed, holds along a course in which no host closes it. -/
theorem SharedState.course (hs : Sound w) (hq : Scheduled w) (hu : w.Unclosed r)
    (h : w.SharedState r path) {ms : List Move} (hm : ∀ m ∈ ms, ¬ m.closes r) :
    (w.course ms).SharedState r path ∧ (w.course ms).Unclosed r := by
  induction ms generalizing w with
  | nil => exact ⟨h, hu⟩
  | cons m ms ih =>
    exact ih (hs.make m) (hq.make hs m) (hu.make hs (hm m List.mem_cons_self))
      (h.make hs hq hu m) fun m' hm' => hm m' (List.mem_cons_of_mem m hm')

end World

end ScriptBundle
