import ScriptBundle.Proofs.Site.LoadOnce
/-!
# Releasing once

A module that a site imported for itself is taken from the site by one task, which calls the
function for before releasing, if there is one and the load was a success, and then releases the
module. `World.ReleaseState` says how far that is, with the exact events about it, and a move goes
from a state to itself or the next (`ReleaseState.make`). The result is `releasesOnce_course`.
-/

namespace ScriptBundle.World

/-- The call before the module `h` is released was not made, or has ended. -/
inductive Unloads (c : SiteSetup) (s : Nat) (h : Value) : List Event → Prop
  | absent : Unloads c s h []
  | made {call : EngineCall} (hc : c.unloadCall? h = some call) (o : Outcome) :
      Unloads c s h [.called (.unload s) call, .ended (.unload s) call o]

/-- The stages of the task that releases the module `h` of a site, with the events about that so
far. -/
inductive ReleaseStage (c : SiteSetup) (s : Nat) (h : Value) :
    List Event → Operation → List Frame → Prop
  | unload {call : EngineCall} (hc : c.unloadCall? h = some call) (k : List Frame) :
      ReleaseStage c s h [] (.call (.unload s) call) (.releaseModule s h :: k)
  | unloadFollow {call : EngineCall} (hc : c.unloadCall? h = some call) (b : Behaviour)
      (k : List Frame) : ReleaseStage c s h [.called (.unload s) call]
        (.follow (.unload s) call b) (.releaseModule s h :: k)
  | unloaded {call : EngineCall} (hc : c.unloadCall? h = some call) (o o' : Outcome)
      (k : List Frame) :
      ReleaseStage c s h [.called (.unload s) call, .ended (.unload s) call o] (.give o')
        (.releaseModule s h :: k)
  | release {es : List Event} (hes : Unloads c s h es) (k : List Frame) :
      ReleaseStage c s h es (.call (.release s) (.dispose h)) k
  | releaseFollow {es : List Event} (hes : Unloads c s h es) (b : Behaviour) (k : List Frame) :
      ReleaseStage c s h (es ++ [.called (.release s) (.dispose h)])
        (.follow (.release s) (.dispose h) b) k

theorem ReleaseStage.releases {c : SiteSetup} {s : Nat} {h : Value} {es : List Event}
    {op : Operation} {k : List Frame} (hstage : ReleaseStage c s h es op k) : Releases s op k := by
  cases hstage with
  | unload | unloadFollow => exact .inl rfl
  | unloaded => exact .inr (.inr ⟨h, List.mem_cons_self⟩)
  | release | releaseFollow => exact .inr (.inl rfl)

/-- A task is to release the module of a site. -/
def Releasing (w : World) (s t : Nat) : Prop :=
  ∃ op k, w.position? t = some (op, k) ∧ Releases s op k

/-- The module `h` was imported for a site alone. -/
structure Owns (w : World) (s : Nat) (c : SiteSetup) (h : Value) : Prop where
  setup : (w.sites s).setup = some c
  isShared : c.isShared = false
  value : h ≠ .null
  imported : .ended (.ownImport s) (.importModule c.file) (.value h) ∈ w.events

/-- The module of a site was taken from the site after its load. -/
def Taken (w : World) (s : Nat) : Prop :=
  (w.sites s).imported = none ∧ ∃ o, w.LoadEnded s o

/-- How far a site has come with releasing its module. -/
inductive ReleaseState (w : World) (s : Nat) : Prop
  | before (events : releaseEvents s w.events = []) (nobody : ∀ t, ¬ w.Releasing s t)
  | during {c : SiteSetup} {h : Value} {t : Nat} {op : Operation} {k : List Frame}
      (owns : w.Owns s c h) (taken : w.Taken s) (hp : w.position? t = some (op, k))
      (stage : ReleaseStage c s h (releaseEvents s w.events) op k)
      (others : ∀ u, u ≠ t → ¬ w.Releasing s u)
  | after {c : SiteSetup} {h : Value} {es : List Event} {o : Outcome} (owns : w.Owns s c h)
      (taken : w.Taken s) (hes : Unloads c s h es)
      (events : releaseEvents s w.events =
        es ++ [.called (.release s) (.dispose h), .ended (.release s) (.dispose h) o])
      (nobody : ∀ t, ¬ w.Releasing s t)

variable {w w' : World} {s t : Nat} {op : Operation} {k : List Frame}

theorem Owns.grows (hg : Grows w w') {c : SiteSetup} {h : Value} (ho : w.Owns s c h) :
    w'.Owns s c h :=
  ⟨(hg.site s).setup c ho.setup, ho.isShared, ho.value, hg.events.subset ho.imported⟩

/-! ## Tasks that are not at work -/

/-- Woken, a task does not begin to release a module. -/
theorem Woken.releases {op' : Operation} (h : w.Woken t op op') (hr : Releases s op' k) :
    Releases s op k := by
  cases h with
  | same => exact hr
  | told | passed => simpa [Releases] using hr
  | stopped =>
    cases op with
    | follow => exact hr
    | fetch | call =>
      obtain hr | hr | hr := hr
      · cases hr
      · cases hr
      · exact .inr (.inr hr)
    | _ => exact hr

theorem not_releases_start (hw : Coherent w) (t : Nat)
    (hr : Releases s (w.tasks t).job.operation []) : False := by
  cases hj : (w.tasks t).job with
  | host op =>
    obtain ⟨calls, rfl⟩ := hw.hosted t op hj
    simp [Releases, hj, Job.operation] at hr
  | loads | imports => simp [Releases, hj, Job.operation] at hr

/-- Only the task at work begins to release a module. -/
theorem Follows.releasing {actor : Option Nat} (hf : Follows actor w w') (ht : some t ≠ actor)
    (hr : w'.Releasing s t) : w.Releasing s t := by
  obtain ⟨op', k, hp', hr⟩ := hr
  cases hp : w.position? t with
  | none =>
    obtain ⟨-, rfl, rfl⟩ := hf.newcomers t op' k ht hp hp'
    exact (not_releases_start hf.coherent t hr).elim
  | some p =>
    obtain ⟨op, k₁⟩ := p
    obtain ⟨op₁, hp₁, hwoken⟩ := hf.others t op k₁ ht hp
    obtain ⟨rfl, rfl⟩ := Prod.mk.inj (Option.some.inj (hp₁.symm.trans hp'))
    exact ⟨op, _, hp, hwoken.releases hr⟩

/-! ## The task at work -/

/-- A task that is handed the outcome of a load waits for it, or is to stop. -/
theorem Stage.of_releaseAfter {o : Outcome} (hs : w.Stage t (.give o) (.releaseAfter s :: k)) :
    (w.LoadEnded s o ∨ o = .cancelled) ∧ ∀ f ∈ k, w.PlainFrame f := by
  obtain ⟨u, c, es, -, -, -, hs⟩ | ⟨r, path, -, hs⟩ | ⟨call, -, hs⟩ := hs.byJob
  · cases hs
  · cases hs
  · cases hs with
    | plain _ hk => exact (hk _ List.mem_cons_self).elim
    | seeks hf => cases hf
    | toldLoad ho hk => exact ⟨ho, hk⟩

/-- Whatever follows the release of a module may be handed any outcome. -/
theorem Stage.frames_of_release (hs : w.Stage t op k) (hop : op.purpose? = some (.release s)) :
    ∀ f ∈ k, w.PlainFrame f := by
  have hallows := hs.allows hop
  obtain ⟨u, c, es, hj, -, -, -⟩ | ⟨r, path, hj, -⟩ | ⟨call, -, hs⟩ := hs.byJob
  · exact (hj ▸ hallows).elim
  · exact (hj ▸ hallows).elim
  · cases hs with
    | plain _ hk => exact hk
    | seeks _ hseeks => cases hseeks <;> cases hop
    | unloads hunload => cases hunload.symm.trans hop
    | awaitsLoad | toldLoad | unloaded => cases hop

theorem not_releases_give (hk : ∀ f ∈ k, w.PlainFrame f) {o : Outcome} :
    ¬ Releases s (.give o) k := by
  rintro (h | h | ⟨h, hmem⟩)
  · cases h
  · cases h
  · exact (hk _ hmem).elim

/-- A task that has waited for the load of a site takes the module that the site keeps. -/
theorem releases_step (hs : Sound w) {o : Outcome}
    (hc : w.control = .working t (.give o) (.releaseAfter s :: k)) :
    ¬ w.step.Releasing s t ∨ ∃ c h op' k', w.Owns s c h ∧ (w.sites s).imported = some h ∧
      w.step.Taken s ∧ w.step.position? t = some (op', k') ∧ ReleaseStage c s h [] op' k' := by
  obtain ⟨hl, hk⟩ := (hs.stage t _ _ (position?_of_working hc)).of_releaseAfter
  obtain ⟨v, op', k', hstep, h⟩ := proceeds_step hc rfl (.inr (by simp))
  -- Whoever takes the module has been told that the load has ended.
  have takes : ∀ {loaded m}, o.releases? = some loaded → (w.sites s).imported = some m →
      v = (w.updateSite s fun x => { x with imported := none }) →
      ∃ c, w.Owns s c m ∧ w.step.Taken s := by
    rintro loaded m hr hm rfl
    obtain ⟨c, hc, hshared, hnull, hmem⟩ := hs.kept s m hm
    have hn : o ≠ .cancelled := by
      rintro rfl
      cases hr
    refine ⟨c, ⟨hc, hshared, hnull, hmem⟩, ?_, o, (hl.resolve_right hn).grows (hs.grows_make .step)⟩
    rw [hstep]
    simp [goOn, updateSite]
  cases h with
  | yields h => cases h
  | returns =>
    left
    rintro ⟨op', k', hp, hr⟩
    cases (position?_of_goOn hstep).symm.trans hp
    exact not_releases_give hk hr
  | @unloads _ _ m call _ hr hm hcall =>
    obtain ⟨c, owns, taken⟩ := takes hr hm rfl
    have hunload : c.unloadCall? m = some call := by
      simpa [Site.unloadCall?, owns.setup] using hcall
    exact .inr ⟨c, _, _, _, owns, hm, taken, position?_of_goOn hstep, .unload hunload k⟩
  | releases hr hm =>
    obtain ⟨c, owns, taken⟩ := takes hr hm rfl
    exact .inr ⟨c, _, _, _, owns, hm, taken, position?_of_goOn hstep, .release .absent k⟩

/-- Whoever begins to release a module takes it from the site. -/
theorem releasing_step (hs : Sound w) (hc : w.control = .working t op k)
    (hr : w.step.Releasing s t) :
    w.Releasing s t ∨ ∃ c h op' k', w.Owns s c h ∧ (w.sites s).imported = some h ∧
      w.step.Taken s ∧ w.step.position? t = some (op', k') ∧ ReleaseStage c s h [] op' k' := by
  obtain ⟨op', k', hp, hrel⟩ := id hr
  have hpos := position?_of_working hc
  obtain onward | ⟨rfl, rfl⟩ := onward_step hc hp
  · obtain hrel | ⟨o, k₁, rfl, rfl⟩ := onward.releases s hrel
    · exact .inl ⟨op, k, hpos, hrel⟩
    · exact .inr ((releases_step hs hc).resolve_left (not_not_intro hr))
  · exact .inl ⟨_, _, hpos, hrel⟩

/-- A release goes from a stage to the next, or ends. -/
theorem ReleaseStage.step (hs : Sound w) (hc : w.control = .working t op k) {c : SiteSetup}
    {h : Value} {es : List Event} (hstage : ReleaseStage c s h es op k) :
    (∃ op' k', w.step.position? t = some (op', k') ∧
      ReleaseStage c s h (es ++ releaseEvents s (op.emits w.named)) op' k') ∨
    (∃ es' o, Unloads c s h es' ∧ es ++ releaseEvents s (op.emits w.named) =
        es' ++ [.called (.release s) (.dispose h), .ended (.release s) (.dispose h) o]) ∧
      ¬ w.step.Releasing s t := by
  have hplain := hs.stage t op k (position?_of_working hc)
  cases hstage with
  | @unload call hu k =>
    refine .inl ⟨_, _, position?_of_goOn (step_operate hc rfl), ?_⟩
    simpa [Operation.emits, releaseEvents, Event.serves] using .unloadFollow hu _ k
  | @unloadFollow call hu b k =>
    cases b with
    | gate g =>
      refine .inl ⟨_, _, position?_of_gate (step_operate hc rfl), ?_⟩
      exact .unloadFollow hu _ k
    | reply r =>
      refine .inl ⟨_, _, position?_of_goOn (step_operate hc rfl), ?_⟩
      simpa [Operation.emits, releaseEvents, Event.serves] using .unloaded hu _ _ k
  | @unloaded call hu o o' k =>
    refine .inl ⟨_, _, position?_of_goOn (step_resume hc), ?_⟩
    exact .release (.made hu o) _
  | release hes k =>
    refine .inl ⟨_, _, position?_of_goOn (step_operate hc rfl), ?_⟩
    simpa [Operation.emits, releaseEvents, Event.serves] using .releaseFollow hes _ k
  | @releaseFollow es hes b k =>
    cases b with
    | gate g =>
      refine .inl ⟨_, _, position?_of_gate (step_operate hc rfl), ?_⟩
      simpa [Operation.emits, releaseEvents] using .releaseFollow hes _ k
    | reply r =>
      refine .inr ⟨⟨es, (EngineCall.dispose h).outcome w.named r, hes, ?_⟩, ?_⟩
      · simp [Operation.emits, releaseEvents, Event.serves]
      · rintro ⟨op', k', hp, hr⟩
        cases (position?_of_goOn (step_operate hc rfl)).symm.trans hp
        exact not_releases_give (hplain.frames_of_release rfl) hr

/-- Only calls that release a module leave events about it. -/
theorem releaseEvents_step (hc : w.control = .working t op k) (hr : ¬ w.Releasing s t) :
    releaseEvents s w.step.events = releaseEvents s w.events := by
  rw [events_step hc, releaseEvents_append, List.append_right_eq_self]
  refine List.filter_eq_nil_iff.2 fun e he => ?_
  rw [Operation.serves_emits (fun p hp hmem => hr ⟨op, k, position?_of_working hc, ?_⟩) e he]
  · simp
  · have haim : op.aim? = some p := by cases op <;> cases hp <;> rfl
    simp only [List.mem_cons, List.not_mem_nil, or_false] at hmem
    obtain rfl | rfl := hmem
    · exact .inl haim
    · exact .inr (.inl haim)

/-- The module of a site that was taken stays so. -/
theorem Taken.make (hs : Sound w) (h : w.Taken s) (m : Move) : (w.make m).Taken s := by
  obtain ⟨hnone, o, ho⟩ := h
  refine ⟨?_, o, ho.grows (hs.grows_make m)⟩
  obtain ⟨t, op, k, rfl, hc⟩ | hm := w.working_or_aside m
  · have hch := changes_step hc s
    change (w.step.sites s).imported = none
    generalize w.step.sites s = x at hch
    cases hch with
    | kept =>
      -- The load that is to keep a module has not ended.
      obtain ⟨hj, -⟩ := (hs.stage t _ _ (position?_of_working hc)).of_keep
      obtain ⟨l, hl, ho⟩ := ho
      cases (hs.coherent.load_of_job hj).symm.trans hl
      rw [hs.coherent.outcome?_of_position? (position?_of_working hc)] at ho
      cases ho
    | released => rfl
    | _ => exact hnone
  · rw [imported_make hm, hnone]

/-- A release that waits stays in its stage when it is woken. -/
theorem ReleaseStage.woken {c : SiteSetup} {h : Value} {es : List Event} {op' : Operation}
    (hstage : ReleaseStage c s h es op k) (hop : ∀ p call, op ≠ .call p call)
    (hwoken : w.Woken t op op') : ReleaseStage c s h es op' k := by
  cases hstage with
  | unload | release => exact absurd rfl (hop _ _)
  | unloadFollow hu b k => cases hwoken <;> exact .unloadFollow hu _ k
  | unloaded hu o o' k => cases hwoken <;> exact .unloaded hu o _ k
  | releaseFollow hes b k => cases hwoken <;> exact .releaseFollow hes _ k

/-- A release stays in its stage unless its task takes a step. -/
theorem ReleaseStage.make (hs : Sound w) {c : SiteSetup} {h : Value} {es : List Event}
    (hstage : ReleaseStage c s h es op k) (hp : w.position? t = some (op, k)) {m : Move}
    (ht : m = .step → ¬ w.AtWork t) :
    ∃ op', (w.make m).position? t = some (op', k) ∧ ReleaseStage c s h es op' k := by
  obtain ⟨op', hp', ⟨rfl, -⟩ | ⟨hn, hwoken⟩⟩ := hs.stays hp ht
  · exact ⟨op', hp', hstage⟩
  refine ⟨op', hp', hstage.woken (fun p call hop => ?_) hwoken⟩
  obtain ⟨cause, -, h⟩ | ⟨g, p', c', -, h⟩ | ⟨l, -, h⟩ :=
    status_of_position (fun op k hc => hn ⟨op, k, hc⟩) hp
  · exact (hs.coherent.operation_of_wake t cause).2.2 p call (h.symm.trans hop)
  · cases h.symm.trans hop
  · cases h.symm.trans hop

/-! ## Every move -/

/-- A move keeps the state of a release if no task begins to release and none that does steps. -/
theorem ReleaseState.of_others (hs : Sound w) (h : w.ReleaseState s) {m : Move}
    (actor : m = .step → ∀ t op k, w.control = .working t op k → ¬ w.Releasing s t)
    (releasing : ∀ t, (w.make m).Releasing s t → w.Releasing s t)
    (events : releaseEvents s (w.make m).events = releaseEvents s w.events) :
    (w.make m).ReleaseState s := by
  have hg := hs.grows_make m
  cases h with
  | before hev nobody =>
    exact .before (events.trans hev) fun t ht => nobody t (releasing t ht)
  | @during c h t op k owns taken hp stage others =>
    obtain ⟨op', hp', stage'⟩ := stage.make hs hp fun hm ⟨op₁, k₁, hc⟩ =>
      actor hm t op₁ k₁ hc ⟨op, k, hp, stage.releases⟩
    exact .during (owns.grows hg) (taken.make hs m) hp' (events ▸ stage') fun u hu ht =>
      others u hu (releasing u ht)
  | after owns taken hes hev nobody =>
    exact .after (owns.grows hg) (taken.make hs m) hes (events.trans hev) fun t ht =>
      nobody t (releasing t ht)

/-- A step keeps the state of the release of a site, or leads to the next. -/
theorem ReleaseState.step_working (hs : Sound w) (h : w.ReleaseState s)
    (hc : w.control = .working t op k) : w.step.ReleaseState s := by
  have hf := hs.follows_step hc
  have hg := hf.grows
  have other : ∀ u, u ≠ t → w.step.Releasing s u → w.Releasing s u := fun u hu =>
    hf.releasing fun e => hu (Option.some.inj e)
  by_cases hr : w.Releasing s t
  · cases h with
    | before _ nobody => exact absurd hr (nobody t)
    | after _ _ _ _ nobody => exact absurd hr (nobody t)
    | @during c h t₀ op₀ k₀ owns taken hp stage others =>
      have ht : t₀ = t := by_contra fun hne => others t (Ne.symm hne) hr
      subst ht
      cases (position?_of_working hc).symm.trans hp
      have taken' : w.step.Taken s := taken.make hs .step
      have events : releaseEvents s w.step.events =
          releaseEvents s w.events ++ releaseEvents s (op.emits w.named) := by
        rw [events_step hc, releaseEvents_append]
      obtain ⟨op', k', hp', stage'⟩ | ⟨⟨es, o, hes, hev⟩, hn⟩ := stage.step hs hc
      · exact .during (owns.grows hg) taken' hp' (events ▸ stage') fun u hu ht =>
          others u hu (other u hu ht)
      · refine .after (owns.grows hg) taken' hes (events.trans hev) fun u ht => ?_
        by_cases hu : u = t₀
        · exact hn (hu ▸ ht)
        · exact others u hu (other u hu ht)
  · have events := releaseEvents_step hc hr
    by_cases hr' : w.step.Releasing s t
    · obtain ⟨c, h', op', k', owns, himported, taken, hp', stage⟩ :=
        (releasing_step hs hc hr').resolve_left hr
      cases h with
      | before hev nobody =>
        exact .during (owns.grows hg) taken hp' (events.trans hev ▸ stage) fun u hu ht =>
          nobody u (other u hu ht)
      | during _ taken => cases taken.1.symm.trans himported
      | after _ taken => cases taken.1.symm.trans himported
    · refine h.of_others hs (m := .step) (fun _ u op₁ k₁ hu => ?_) (fun u ht => ?_) events
      · cases hc.symm.trans hu
        exact hr
      · by_cases hu : u = t
        · exact absurd (hu ▸ ht) hr'
        · exact other u hu ht

/-- A move keeps the state of the release of a site, or leads to the next. -/
theorem ReleaseState.make (hs : Sound w) (h : w.ReleaseState s) (m : Move) :
    (w.make m).ReleaseState s := by
  obtain ⟨t, op, k, rfl, hc⟩ | hm := w.working_or_aside m
  · exact h.step_working hs hc
  · obtain ⟨new, record, renders⟩ := events_make hm
    refine h.of_others hs (fun h t op k hc => ?_)
      (fun t => (hm.follows hs.coherent).releasing nofun)
      ?_
    · cases (hm h).symm.trans hc
    · rw [record, releaseEvents_append, List.append_right_eq_self]
      refine List.filter_eq_nil_iff.2 fun e he => ?_
      obtain ⟨u, rfl⟩ := renders e he
      simp [Event.serves]

theorem ReleaseState.course (hs : Sound w) (h : w.ReleaseState s) (ms : List Move) :
    (w.course ms).ReleaseState s := by
  induction ms generalizing w with
  | nil => exact h
  | cons m ms ih => exact ih (hs.make m) (h.make hs m)

theorem releaseState_course (hosts : Nat → SiteHost) (hostOf : Nat → Nat)
    (engine : EngineCall → Behaviour) (ms : List Move) (s : Nat) :
    ReleaseState ((initial hosts hostOf engine).course ms) s :=
  .course (sound_initial hosts hostOf engine) (.before rfl nofun) ms

end ScriptBundle.World
