import ScriptBundle.Proofs.Site.Fairness
import ScriptBundle.Proofs.Site.Stopping
/-!
# Loading once

A site is loaded at most once, its functions are called only after its load has succeeded, and a
load that fails fails for everybody: `World.LoadsOnce` says so for a site, and `loadsOnce_course`
proves it of every world of a course.
-/

namespace ScriptBundle

section Calls

variable {c : SiteSetup} {s : Nat} {joins : Nat → Prop} {shares : Outcome → Prop} {es : List Event}
  {o : Outcome} {h : Value} {op : Operation} {k : List Frame}

/-- The calls of a load: at most one import, which is no import of its own if the module is shared,
and at most one call after loading. -/
def CallsOnce (c : SiteSetup) (s : Nat) (es : List Event) : Prop :=
  calls (.ownImport s) es ≤ (if c.isShared then 0 else 1) ∧ calls (.init s) es ≤ 1

theorem Imports.calls_eq (hi : Imports c s shares es o) :
    calls (.ownImport s) es = (if c.isShared then 0 else 1) ∧
      calls (.init s) es = 0 := by
  cases hi with
  | own hc => simp [calls, Event.calls, hc]
  | shared hc => simp [calls, hc]

theorem Initializes.calls_le (hn : Initializes c s h es o) :
    calls (.ownImport s) es = 0 ∧ calls (.init s) es ≤ 1 := by
  cases hn <;> simp [calls, Event.calls]

theorem CallsOnce.of_imports (hi : Imports c s shares es o) : CallsOnce c s es :=
  ⟨le_of_eq hi.calls_eq.1, by simp [hi.calls_eq.2]⟩

theorem CallsOnce.of_initializes {es' : List Event} {o' : Outcome} (hi : Imports c s shares es o)
    (hn : Initializes c s h es' o') : CallsOnce c s (es ++ es') := by
  simp only [CallsOnce, calls_append, hi.calls_eq, hn.calls_le.1, Nat.zero_add]
  exact ⟨le_refl _, hn.calls_le.2⟩

theorem CallsOnce.of_result (hr : LoadResult c s shares es o) : CallsOnce c s es := by
  cases hr with
  | importFailed hi => exact .of_imports hi
  | initFailed hi hn | loaded hi hn => exact .of_initializes hi hn

theorem CallsOnce.of_stage (hs : LoadStage c s joins shares es op k) : CallsOnce c s es := by
  cases hs with
  | start | fetch | call | await => simp [CallsOnce, calls]
  | follow hc | answered hc => simp [CallsOnce, calls, Event.calls, hc]
  | checked _ hi | imported hi | init hi => exact .of_imports hi
  | initFollow hi =>
    simp only [CallsOnce, calls_append, hi.calls_eq, Nat.zero_add]
    simp [calls, Event.calls]
  | initialized hi hn => exact .of_initializes hi hn
  | ended hr => exact .of_result hr

/-- A load that has ended in a module has imported and initialized it. -/
theorem LoadResult.of_value (hr : LoadResult c s shares es (.value h)) : ∃ es₁ es₂ v,
    es = es₁ ++ es₂ ∧ Imports c s shares es₁ (.value h) ∧ Initializes c s h es₂ (.value v) := by
  generalize ho : Outcome.value h = o at hr
  cases hr with
  | importFailed _ hfail | initFailed _ _ hfail =>
    rw [← ho] at hfail
    cases hfail
  | loaded hi hn =>
    cases ho
    exact ⟨_, _, _, rfl, hi, hn⟩

end Calls

namespace World

variable {w : World} {s : Nat} {o : Outcome}

/-- The module `h` was imported for a site with the given setup. -/
def Imported (w : World) (s : Nat) (c : SiteSetup) (h : Value) : Prop :=
  if c.isShared then w.Shares s (.value h)
  else .ended (.ownImport s) (.importModule c.file) (.value h) ∈ w.events

/-- The call after loading the module `h` was made, if there is one, and has ended with success. -/
def Initialized (s : Nat) (c : SiteSetup) (h : Value) (es : List Event) : Prop :=
  ∀ call, c.initCall? h = some call →
    .called (.init s) call ∈ es ∧ ∃ v, .ended (.init s) call (.value v) ∈ es

/-- What a task may be given that gets the module of a site whose load fails with `o`: that failure,
unless the site is disposed or has no parameters, or the host has asked the task to stop. -/
def Refusal (past : List Move) (t : Nat) (o o' : Outcome) : Prop :=
  o' = o ∨ o' = .error .disposed ∨ o' = .error .noParameters ∨ o' = .cancelled ∧ .cancel t ∈ past

/-- What holds of the load of a site in a world that is reached by the given moves. -/
structure LoadsOnce (w : World) (past : List Move) (s : Nat) : Prop where
  /-- One task loads the site. -/
  oneLoad : ∀ t u, (w.tasks t).job = .loads s → (w.tasks u).job = .loads s → t = u
  /-- It imports at most one module for the site alone, and none if the module is shared. -/
  oneImport : ∀ c, (w.sites s).setup = some c →
    calls (.ownImport s) w.events ≤ if c.isShared then 0 else 1
  oneInit : calls (.init s) w.events ≤ 1
  /-- A function is called only after the call after loading has ended with success, and of the same
  module. -/
  used : ∀ pre call post, w.events = pre ++ .called (.use s) call :: post →
    ∃ c h id args, (w.sites s).setup = some c ∧ call = c.useCall h id args ∧ Initialized s c h pre
  /-- A site is ready only after its module was imported and initialized. -/
  ready : (w.sites s).state = .ready → ∃ c h, (w.sites s).setup = some c ∧ w.Imported s c h ∧
    Initialized s c h w.events
  /-- If the load fails then no function is ever called. -/
  unused : ∀ o, w.LoadFails s o → ∀ ms call, .called (.use s) call ∉ (w.course ms).events
  /-- If the load fails then whoever gets the module, then or later, is given that failure. -/
  refused : ∀ o, w.LoadFails s o → ∀ ms t o' f k, f.seeks = some s →
    (w.course ms).control = .working t (.give o') (f :: k) → Refusal (past ++ ms) t o o'
  /-- And it is given that in the end, whatever else happens. -/
  answered : ∀ o, w.LoadFails s o → ∀ ms t op f k, f.seeks = some s →
    (w.course ms).position? t = some (op, f :: k) → ∀ moves, Fair moves → ∃ n o',
      ((w.course ms).along moves n).control = .working t (.give o') (f :: k) ∧
        Refusal (past ++ ms ++ (List.range n).map moves) t o o'

theorem Sound.calls_le (hs : Sound w) (hq : Scheduled w) :
    (∀ c, (w.sites s).setup = some c →
      calls (.ownImport s) w.events ≤ if c.isShared then 0 else 1) ∧
        calls (.init s) w.events ≤ 1 := by
  have himport : Purpose.ownImport s ∈ [.ownImport s, .init s] := by simp
  have hinit : Purpose.init s ∈ [.ownImport s, .init s] := by simp
  rw [← calls_filter_serves himport, ← calls_filter_serves hinit, ← loadEvents]
  cases hl : (w.sites s).load with
  | none => simp [hs.unloaded s hl, calls]
  | some l =>
    obtain ⟨c', hc', h⟩ := hs.load_cases hq hl
    have once : CallsOnce c' s (loadEvents s w.events) := by
      obtain ⟨o, -, hr⟩ | ⟨op, k, -, hstage⟩ := h
      · exact .of_result hr
      · exact .of_stage hstage
    refine ⟨fun c hc => ?_, once.2⟩
    cases hc.symm.trans hc'
    exact once.1

theorem Initialized.of_result {c : SiteSetup} {shares : Outcome → Prop} {es : List Event}
    {h : Value} (hr : LoadResult c s shares (loadEvents s es) (.value h)) :
    Initialized s c h es := by
  obtain ⟨es₁, es₂, v, hes, -, hn⟩ := hr.of_value
  intro call hcall
  have mem : ∀ e ∈ es₂, e ∈ es := fun e he => by
    have : e ∈ loadEvents s es := hes ▸ List.mem_append_right _ he
    exact (List.mem_filter.1 this).1
  cases hn with
  | absent hnone => cases hnone.symm.trans hcall
  | made hsome =>
    cases hsome.symm.trans hcall
    exact ⟨mem _ (by simp), v, mem _ (by simp)⟩

theorem Imported.of_result {c : SiteSetup} {h : Value}
    (hr : LoadResult c s (w.Shares s) (loadEvents s w.events) (.value h)) : w.Imported s c h := by
  obtain ⟨es₁, es₂, v, hes, hi, -⟩ := hr.of_value
  rw [Imported]
  generalize ho : Outcome.value h = o at hi
  cases hi with
  | shared hc hshares =>
    rw [if_pos hc]
    exact hshares
  | own hc o =>
    obtain ⟨rfl, -⟩ := importOutcome_eq_value.1 ho.symm
    rw [if_neg (by simp [hc]), ← ho]
    have : .ended (.ownImport s) (.importModule c.file) (.value h) ∈ loadEvents s w.events := by
      simp [hes]
    exact (List.mem_filter.1 this).1

/-- The result of the load of a site that has ended. -/
theorem Sound.result_of_loadEnded (hs : Sound w) {o : Outcome} (hl : w.LoadEnded s o) :
    w.Loads s o := by
  obtain ⟨l, hl, ho⟩ := hl
  exact hs.result l s _ ((hs.coherent.loads s l).1 hl).2 ho

/-- The module that a load has given was initialized before any function is called or the module
released. -/
theorem Sound.initialized_before (hs : Sound w) {h : Value} (hl : w.LoadEnded s (.value h))
    {p : Purpose} {call : EngineCall} {pre post : List Event}
    (hp : p ∈ [.use s, .unload s, .release s]) (he : w.events = pre ++ .called p call :: post) :
    ∃ c, (w.sites s).setup = some c ∧ Initialized s c h pre := by
  obtain ⟨hpost, -⟩ := hs.after s p call pre post hp he
  obtain ⟨c, hc, hr⟩ := hs.result_of_loadEnded hl
  refine ⟨c, hc, @Initialized.of_result s c (w.Shares s) pre h ?_⟩
  have hcall : loadEvents s (.called p call :: post) = loadEvents s post := by
    refine List.filter_cons_of_neg ?_
    simp only [List.mem_cons, List.not_mem_nil, or_false] at hp
    obtain rfl | rfl | rfl := hp <;> simp [Event.serves]
  rwa [he, loadEvents_append, hcall, hpost, List.append_nil] at hr

/-- A function is called of the module that the load has given, and that has been initialized. -/
theorem Sound.initialized_of_use (hs : Sound w) {call : EngineCall} {pre post : List Event}
    (he : w.events = pre ++ .called (.use s) call :: post) : ∃ c h id args,
      (w.sites s).setup = some c ∧ call = c.useCall h id args ∧ Initialized s c h pre := by
  obtain ⟨-, ⟨-, h, hl, id, args, hcall⟩ | ⟨hp, -⟩ | ⟨hp, -⟩⟩ :=
    hs.after s _ call pre post (by simp) he
  · obtain ⟨c, hc, hinit⟩ := hs.initialized_before hl (by simp) he
    refine ⟨c, h, id, args, hc, ?_, hinit⟩
    rw [hcall, Site.useCall, Site.qualify, hc]
    rfl
  · cases hp
  · cases hp

theorem Sound.initialized_of_ready (hs : Sound w) (hr : (w.sites s).state = .ready) : ∃ c h,
    (w.sites s).setup = some c ∧ w.Imported s c h ∧ Initialized s c h w.events := by
  obtain ⟨t, h, hj, hp | ho⟩ := hs.ready s hr
  · obtain ⟨c, hc, hr⟩ := (hs.stage t _ _ hp).loads hj
    exact ⟨c, h, hc, .of_result hr, .of_result hr⟩
  · obtain ⟨c, hc, hr⟩ := hs.result t s _ hj ho
    exact ⟨c, h, hc, .of_result hr, .of_result hr⟩

/-- No function is called of a site whose load fails. -/
theorem Fails.not_used (hs : Sound w) (hfails : w.Fails s o) (call : EngineCall) :
    .called (.use s) call ∉ w.events := by
  intro hmem
  obtain ⟨pre, post, he⟩ := List.append_of_mem hmem
  obtain ⟨-, ⟨-, h, hl, -⟩ | ⟨hp, -⟩ | ⟨hp, -⟩⟩ := hs.after s _ call pre post (by simp) he
  · have hvalue := hfails.eq hs.coherent hl
    rw [← hvalue] at hfails
    cases hfails.1
  · cases hp
  · cases hp

/-- What a task is given that gets the module of a site whose load fails. -/
theorem Fails.refusal (hs : Sound w) (hfails : w.Fails s o) {t : Nat} {f : Frame} {k : List Frame}
    (hf : f.seeks = some s) {o' : Outcome} (hc : w.control = .working t (.give o') (f :: k))
    {past : List Move}
    (stopped : ∀ op, (w.tasks t).job = .host op → (w.tasks t).stopping = true → .cancel t ∈ past) :
    Refusal past t o o' := by
  cases hs.seeks (position?_of_working hc) hf with
  | give h =>
    cases h with
    | disposed => exact .inr (.inl rfl)
    | noParameters => exact .inr (.inr (.inl rfl))
    | ended hl => exact .inl (hfails.eq hs.coherent hl)
    | stopped hstop =>
      obtain ⟨⟨op, hj⟩, -⟩ := hs.hosted_of_seeks (position?_of_working hc) hf
      exact .inr (.inr (.inr ⟨rfl, stopped op hj hstop⟩))

/-- **Loading once.** Whatever hosts and engine do and in whatever order, a site is loaded at most
once, its functions are called only after that has succeeded, and if it fails then whoever gets the
module is given that failure. -/
theorem loadsOnce_course (hosts : Nat → SiteHost) (hostOf : Nat → Nat)
    (engine : EngineCall → Behaviour) (ms : List Move) (s : Nat) :
    LoadsOnce ((initial hosts hostOf engine).course ms) ms s := by
  have hs := sound_course hosts hostOf engine ms
  have hq := scheduled_course hosts hostOf engine ms
  -- A host's task is never told to stop unless the host wants it to.
  have stopped : ∀ ms' t op, ((((initial hosts hostOf engine).course ms).course ms').tasks t).job =
      .host op → ((((initial hosts hostOf engine).course ms).course ms').tasks t).stopping = true →
        .cancel t ∈ ms ++ ms' := fun ms' t op hj hstop => by
    rw [← course_append] at hj hstop
    exact (stopping_course (sound_initial hosts hostOf engine) hj hstop).resolve_left nofun
  generalize (initial hosts hostOf engine).course ms = w at hs hq stopped
  obtain ⟨oneImport, oneInit⟩ := hs.calls_le (s := s) hq
  have fails : ∀ {o}, w.LoadFails s o → ∀ ms', (w.course ms').Fails s o :=
    fun ho ms' => (ho.fails hs hq).course hs ms'
  have refused : ∀ o, w.LoadFails s o → ∀ ms' t o' f k, f.seeks = some s →
      (w.course ms').control = .working t (.give o') (f :: k) → Refusal (ms ++ ms') t o o' :=
    fun o ho ms' t o' f k hf hc => (fails ho ms').refusal (hs.course ms') hf hc (stopped ms' t)
  refine ⟨fun t u => hs.coherent.eq_of_loads, oneImport, oneInit,
    fun pre call post => hs.initialized_of_use, hs.initialized_of_ready,
    fun o ho ms' => (fails ho ms').not_used (hs.course ms'), refused,
    fun o ho ms' t op f k hf hp moves fair => ?_⟩
  obtain ⟨n, o', hc⟩ :=
    (fails ho ms').eventually_answers (hs.course ms') (hq.course hs ms') hp hf fair
  refine ⟨n, o', hc, ?_⟩
  rw [along_eq_course, ← course_append] at hc
  rw [List.append_assoc]
  exact refused o ho _ t o' f k hf hc

/-- Two tasks that call a function of a site at once load it once. -/
example :
    let host : SiteHost := ⟨{}, ⟨"app", ⟨[], []⟩, []⟩, 0⟩
    let pairs := [("ScriptFile", .string "a.js"), ("OnInit", .string "init")]
    let ms : List Move := [.attach 0 ⟨.nothing, .absent⟩, .assign 0 pairs,
      .start [.invoke 0 "f" []], .start [.invoke 0 "f" []]] ++ List.replicate 50 .step
    let w := (initial (fun _ => host) (fun _ => 0) fun _ => .reply .done).course ms
    calls (.ownImport 0) w.events = 1 ∧ calls (.init 0) w.events = 1 ∧
      calls (.use 0) w.events = 2 := by decide +kernel

end World

end ScriptBundle
