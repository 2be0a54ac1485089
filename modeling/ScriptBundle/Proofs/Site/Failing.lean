import ScriptBundle.Proofs.Site.Scheduling
/-!
# Loads that fail

Once the import of a site or its call after loading has failed, `World.LoadFails`, the load is on
its way to end in that failure or has ended in it, `World.Fails`, and no move changes that
(`Fails.make`).
-/

namespace ScriptBundle

section Events

variable {c : SiteSetup} {s : Nat} {shares : Outcome → Prop} {es : List Event} {o o' : Outcome}
  {h : Value}

theorem Imports.of_ended (hi : Imports c s shares es o) {path : String}
    (hmem : .ended (.ownImport s) (.importModule path) o' ∈ es) : o = importOutcome path o' := by
  cases hi with
  | own _ o =>
    obtain ⟨hp, ho⟩ : path = c.file ∧ o' = o := by simpa using hmem
    rw [hp, ho]
  | shared => cases hmem

theorem Imports.not_init (hi : Imports c s shares es o) {call : EngineCall} :
    .ended (.init s) call o' ∉ es := by
  cases hi <;> simp

theorem Initializes.of_ended (hn : Initializes c s h es o) {call : EngineCall}
    (hmem : .ended (.init s) call o' ∈ es) : o = o' := by
  cases hn with
  | absent => cases hmem
  | made _ o =>
    obtain ⟨-, ho⟩ : call = _ ∧ o' = o := by simpa using hmem
    exact ho.symm

theorem Initializes.not_import (hn : Initializes c s h es o) {call : EngineCall} :
    .ended (.ownImport s) call o' ∉ es := by
  cases hn <;> simp

/-- A load that has ended after a failed import has ended in that failure. -/
theorem LoadResult.of_import (hr : LoadResult c s shares es o) {path : String}
    (hmem : .ended (.ownImport s) (.importModule path) o' ∈ es)
    (ho : (importOutcome path o').isFailure = true) : o = importOutcome path o' := by
  cases hr with
  | importFailed hi => exact hi.of_ended hmem
  | initFailed hi hn | loaded hi hn =>
    obtain hmem | hmem := List.mem_append.1 hmem
    · rw [← hi.of_ended hmem] at ho
      cases ho
    · exact absurd hmem hn.not_import

/-- A load that has ended after a failed call has ended in that failure. -/
theorem LoadResult.of_init (hr : LoadResult c s shares es o) {call : EngineCall}
    (hmem : .ended (.init s) call o' ∈ es) (ho : o'.isFailure = true) : o = o' := by
  cases hr with
  | importFailed hi => exact absurd hmem hi.not_init
  | initFailed hi hn =>
    obtain hmem | hmem := List.mem_append.1 hmem
    · exact absurd hmem hi.not_init
    · exact hn.of_ended hmem
  | loaded hi hn =>
    obtain hmem | hmem := List.mem_append.1 hmem
    · exact absurd hmem hi.not_init
    · rw [← hn.of_ended hmem] at ho
      cases ho

/-- All ends of the import of a site come to the same. -/
theorem LoadResult.exists_import_eq (hr : LoadResult c s shares es o) : ∃ o', ∀ path o₁,
      .ended (.ownImport s) (.importModule path) o₁ ∈ es → o' = importOutcome path o₁ := by
  cases hr with
  | importFailed hi => exact ⟨o, fun _ _ => hi.of_ended⟩
  | initFailed hi hn | loaded hi hn =>
    refine ⟨_, fun path o₁ hmem => hi.of_ended ?_⟩
    exact (List.mem_append.1 hmem).resolve_right hn.not_import

end Events

namespace World

/-- The load of a site is to fail with the given outcome: its own import, the shared import that it
waits for or the call after loading has failed. -/
inductive LoadFails (w : World) (s : Nat) : Outcome → Prop
  | ownImport {path : String} {o : Outcome}
      (h : .ended (.ownImport s) (.importModule path) o ∈ w.events)
      (ho : (importOutcome path o).isFailure = true) : LoadFails w s (importOutcome path o)
  | sharedImport {l l' : Nat} {k : List Frame} {o : Outcome} (hl : (w.sites s).load = some l)
      (hp : w.position? l = some (.await l', k)) (hl' : w.outcome? l' = some o)
      (ho : o.isFailure = true) : LoadFails w s o
  | init {call : EngineCall} {o : Outcome} (h : .ended (.init s) call o ∈ w.events)
      (ho : o.isFailure = true) : LoadFails w s o

/-- The stages of the load of a site from which it ends in the given outcome. -/
inductive FailStage (w : World) (s : Nat) (o : Outcome) : Operation → List Frame → Prop
  | await {l : Nat} (hl : w.outcome? l = some o) : FailStage w s o (.await l) [.callInit s]
  | answered {path : String} {o' : Outcome} (ho : importOutcome path o' = o) :
      FailStage w s o (.give o') [.imported path, .keep s, .callInit s]
  | checked : FailStage w s o (.give o) [.keep s, .callInit s]
  | imported : FailStage w s o (.give o) [.callInit s]
  | initialized {h : Value} : FailStage w s o (.give o) [.finishLoad s h]
  | ended : FailStage w s o (.give o) []

/-- The load of a site has ended in the given failure or is on its way to. -/
def Fails (w : World) (s : Nat) (o : Outcome) : Prop :=
  o.isFailure = true ∧ ∃ l, (w.sites s).load = some l ∧
    (w.outcome? l = some o ∨ ∃ op k, w.position? l = some (op, k) ∧ w.FailStage s o op k)

variable {w w' : World} {t s : Nat} {o : Outcome} {op : Operation} {k : List Frame}

theorem FailStage.of_import {c : SiteSetup} {joins : Nat → Prop} {shares : Outcome → Prop}
    {es : List Event} {path : String} (hs : LoadStage c s joins shares es op k)
    (hmem : .ended (.ownImport s) (.importModule path) o ∈ es)
    (ho : (importOutcome path o).isFailure = true) :
    w.FailStage s (importOutcome path o) op k := by
  have succeeded : ∀ {es h}, Imports c s shares es (.value h) →
      .ended (.ownImport s) (.importModule path) o ∉ es := fun hi hmem => by
    rw [← hi.of_ended hmem] at ho
    cases ho
  cases hs with
  | start | fetch | call | await => cases hmem
  | follow => simp at hmem
  | answered _ o' =>
    obtain ⟨rfl, rfl⟩ : path = c.file ∧ o = o' := by simpa using hmem
    exact .answered rfl
  | checked _ hi => exact hi.of_ended hmem ▸ .checked
  | imported hi => exact hi.of_ended hmem ▸ .imported
  | init hi => exact absurd hmem (succeeded hi)
  | initFollow hi => exact absurd (by simpa using hmem) (succeeded hi)
  | initialized hi hn =>
    obtain hmem | hmem := List.mem_append.1 hmem
    · exact absurd hmem (succeeded hi)
    · exact absurd hmem hn.not_import
  | ended hr => exact hr.of_import hmem ho ▸ .ended

theorem FailStage.of_init {c : SiteSetup} {joins : Nat → Prop} {shares : Outcome → Prop}
    {es : List Event} {call : EngineCall} (hs : LoadStage c s joins shares es op k)
    (hmem : .ended (.init s) call o ∈ es) (ho : o.isFailure = true) : w.FailStage s o op k := by
  cases hs with
  | start | fetch | call | await => cases hmem
  | follow | answered => simp at hmem
  | checked _ hi | imported hi | init hi => exact absurd hmem hi.not_init
  | initFollow hi => exact absurd (by simpa using hmem) hi.not_init
  | initialized hi hn =>
    obtain hmem | hmem := List.mem_append.1 hmem
    · exact absurd hmem hi.not_init
    · exact hn.of_ended hmem ▸ .initialized
  | ended hr => exact hr.of_init hmem ho ▸ .ended

/-- A task has ended or is to do something. -/
theorem Scheduled.standing (hw : Coherent w) (h : Scheduled w) (ht : t < w.taskCount) :
    (∃ o, w.outcome? t = some o) ∨ ∃ op k, w.position? t = some (op, k) := by
  have pos : (w.tasks t).status ≠ .active → w.position? t = (w.tasks t).position? := fun hn =>
    position?_eq_task rfl (hw.not_atWork hn)
  cases hs : (w.tasks t).status with
  | finished o => exact .inl ⟨o, outcome?_eq_some.2 hs⟩
  | active =>
    obtain ⟨op, k, hc⟩ := (h t).active ht hs
    exact .inr ⟨op, k, position?_of_working hc⟩
  | ready | atGate | awaiting =>
    refine .inr ?_
    rw [pos (by simp [hs])]
    simp [Task.position?, hs]

/-- A load that was started has ended or is in one of its stages. -/
theorem Sound.load_cases (hs : Sound w) (hq : Scheduled w) {l : Nat}
    (hl : (w.sites s).load = some l) : ∃ c, (w.sites s).setup = some c ∧
      ((∃ o, w.outcome? l = some o ∧ LoadResult c s (w.Shares s) (loadEvents s w.events) o) ∨
        ∃ op k, w.position? l = some (op, k) ∧
          LoadStage c s (w.Joins s) (w.Shares s) (loadEvents s w.events) op k) := by
  obtain ⟨hlt, hj⟩ := (hs.coherent.loads s l).1 hl
  obtain ⟨o, ho⟩ | ⟨op, k, hp⟩ := hq.standing hs.coherent hlt
  · obtain ⟨c, hc, hr⟩ := hs.result l s o hj ho
    exact ⟨c, hc, .inl ⟨o, ho, hr⟩⟩
  · have hstage := hs.stage l op k hp
    rw [Stage, hj] at hstage
    obtain ⟨c, hc, hstage⟩ := hstage
    exact ⟨c, hc, .inr ⟨op, k, hp, hstage⟩⟩

theorem LoadFails.fails (hs : Sound w) (hq : Scheduled w) (h : w.LoadFails s o) : w.Fails s o := by
  have hw := hs.coherent
  have started : ∀ {e : Event}, e ∈ w.events → e.serves [.ownImport s, .init s] = true →
      e ∈ loadEvents s w.events ∧ ∃ l, (w.sites s).load = some l := fun he hserves => by
    have hmem : _ ∈ loadEvents s w.events := List.mem_filter.2 ⟨he, hserves⟩
    refine ⟨hmem, Option.ne_none_iff_exists'.1 fun hl => ?_⟩
    rw [hs.unloaded s hl] at hmem
    cases hmem
  cases h with
  | @ownImport path o he ho =>
    obtain ⟨hmem, l, hl⟩ := started he (by simp [Event.serves])
    refine ⟨ho, l, hl, ?_⟩
    obtain ⟨c, -, ⟨o₁, ho₁, hr⟩ | ⟨op, k, hp, hstage⟩⟩ := hs.load_cases hq hl
    · exact .inl (hr.of_import hmem ho ▸ ho₁)
    · exact .inr ⟨op, k, hp, .of_import hstage hmem ho⟩
  | sharedImport hl hp hl' ho =>
    refine ⟨ho, _, hl, .inr ⟨_, _, hp, ?_⟩⟩
    obtain ⟨c, -, ⟨o₁, ho₁, -⟩ | ⟨op, k, hp', hstage⟩⟩ := hs.load_cases hq hl
    · rw [hw.outcome?_of_position? hp] at ho₁
      cases ho₁
    · cases hp.symm.trans hp'
      generalize loadEvents s w.events = es at hstage
      cases hstage with
      | await => exact .await hl'
  | init he ho =>
    obtain ⟨hmem, l, hl⟩ := started he (by simp [Event.serves])
    refine ⟨ho, l, hl, ?_⟩
    obtain ⟨c, -, ⟨o₁, ho₁, hr⟩ | ⟨op, k, hp, hstage⟩⟩ := hs.load_cases hq hl
    · exact .inl (hr.of_init hmem ho ▸ ho₁)
    · exact .inr ⟨op, k, hp, .of_init hstage hmem ho⟩

/-- A step leads a load that fails towards its end. -/
theorem FailStage.step (hc : w.control = .working t op k) (hg : Grows w w.step)
    (ho : o.isFailure = true) (h : w.FailStage s o op k) :
    w.step.outcome? t = some o ∨
      ∃ op' k', w.step.position? t = some (op', k') ∧ w.step.FailStage s o op' k' := by
  cases h with
  | await hl =>
    have hl' := hg.outcome _ o hl
    obtain ⟨o', ho', hp⟩ | hp := position?_of_awaitTask (step_operate hc rfl)
    · cases hl.symm.trans ho'
      exact .inr ⟨_, _, hp, .imported⟩
    · exact .inr ⟨_, _, hp, .await hl'⟩
  | answered he => exact .inr ⟨_, _, position?_of_goOn (step_resume hc), he ▸ .checked⟩
  | checked =>
    cases o with
    | value => cases ho
    | error | cancelled => exact .inr ⟨_, _, position?_of_goOn (step_resume hc), .imported⟩
  | imported | initialized =>
    cases o with
    | value => cases ho
    | error | cancelled => exact .inr ⟨_, _, position?_of_goOn (step_resume hc), .ended⟩
  | ended => exact .inl (step_finish hc ▸ outcome?_finish o)

theorem FailStage.grows (hg : Grows w w') (h : w.FailStage s o op k) : w'.FailStage s o op k := by
  cases h with
  | await hl => exact .await (hg.outcome _ o hl)
  | answered he => exact .answered he
  | checked => exact .checked
  | imported => exact .imported
  | initialized => exact .initialized
  | ended => exact .ended

theorem FailStage.woken {op' : Operation} (hj : (w.tasks t).job = .loads s)
    (h : w.FailStage s o op k) (hwoken : w.Woken t op op') : w.FailStage s o op' k := by
  cases hwoken with
  | same => exact h
  | told ho =>
    cases h with
    | await hl =>
      cases hl.symm.trans ho
      exact .imported
  | passed => cases h
  | stopped _ hn => exact absurd hj (hn s)

/-- A load that fails stays on its way. -/
theorem Fails.make (hs : Sound w) (h : w.Fails s o) (m : Move) : (w.make m).Fails s o := by
  obtain ⟨ho, l, hl, h⟩ := h
  have hg := hs.grows_make m
  refine ⟨ho, l, (hg.site s).load l hl, ?_⟩
  obtain h | ⟨op, k, hp, h⟩ := h
  · exact .inl (hg.outcome l o h)
  have follows : ∀ actor, some l ≠ actor → Follows actor w (w.make m) →
      ∃ op' k', (w.make m).position? l = some (op', k') ∧ (w.make m).FailStage s o op' k' := by
    intro actor hne hf
    obtain ⟨hlt, hj⟩ := (hs.coherent.loads s l).1 hl
    obtain ⟨op', hp', hwoken⟩ := hf.others l op k hne hp
    exact ⟨op', k, hp', (h.grows hg).woken ((hg.job l hlt).trans hj) hwoken⟩
  obtain ⟨t, op₁, k₁, rfl, hc, hf⟩ | hf := hs.follows_move m
  · by_cases ht : l = t
    · subst ht
      cases (position?_of_working hc).symm.trans hp
      exact h.step hc hg ho
    · exact .inr (follows _ (fun e => ht (Option.some.inj e)) hf)
  · exact .inr (follows none nofun hf)

theorem Fails.course (hs : Sound w) (h : w.Fails s o) (ms : List Move) :
    (w.course ms).Fails s o := by
  induction ms generalizing w with
  | nil => exact h
  | cons m ms ih => exact ih (hs.make m) (h.make hs m)

/-- The load of a site that fails does not end in any other way. -/
theorem Fails.eq (hw : Coherent w) (h : w.Fails s o) {o' : Outcome} (ho : w.LoadEnded s o') :
    o' = o := by
  obtain ⟨-, l, hl, h⟩ := h
  obtain ⟨l', hl', ho'⟩ := ho
  cases hl.symm.trans hl'
  obtain h | ⟨op, k, hp, -⟩ := h
  · exact Option.some.inj (ho'.symm.trans h)
  · rw [hw.outcome?_of_position? hp] at ho'
    cases ho'

end World

end ScriptBundle
