import ScriptBundle.Proofs.Site.ReleaseOnce
import ScriptBundle.Proofs.Site.Waiting
/-!
# Where the module of a site is

A module that a site has imported for itself goes from the load to the site, and from there to the
task that releases it: `World.InCustody` says that it is nowhere else, and a move keeps that
(`InCustody.make`). Whoever is to release the module looks at the outcome of the load only, by
`Outcome.leavesNothing`. If there is a module by that then the load has imported one
(`LoadResult.exists_import`). The converse holds unless the call after loading has failed in the way
that imports fail (`LoadResult.leaves`).
-/

namespace ScriptBundle

/-- Whether the outcome of a load is taken to mean that there is nothing to release. -/
def Outcome.leavesNothing : Outcome → Bool
  | .error (.moduleLoad _ _ _) | .cancelled => true
  | .value _ | .error _ => false

/-! ## Outcomes of loads -/

section Outcomes

variable {c : SiteSetup} {s : Nat} {shares : Outcome → Prop} {es : List Event} {o : Outcome}
  {h : Value}

theorem leavesNothing_importOutcome {path : String} {call : EngineCall} {n : Nat} {r : Reply}
    (ho : (importOutcome path (call.outcome n r)).isFailure = true) :
    (importOutcome path (call.outcome n r)).leavesNothing = true := by
  cases r with
  | done =>
    cases call with
    | importModule => cases ho
    | invoke | dispose => rfl
  | returned v =>
    cases v with
    | null => rfl
    | _ => cases ho
  | failed | loadFailed | cancelled => rfl

theorem Imports.ended_of_value (hi : Imports c s shares es (.value h)) (hown : c.isShared = false) :
    h ≠ .null ∧ .ended (.ownImport s) (.importModule c.file) (.value h) ∈ es := by
  generalize hv : Outcome.value h = o at hi
  cases hi with
  | own _ o =>
    obtain ⟨rfl, hn⟩ := importOutcome_eq_value.1 hv.symm
    exact ⟨hn, by rw [← hv]; simp⟩
  | shared hc => cases hown.symm.trans hc

/-- A load that leaves something has imported a module. -/
theorem LoadResult.exists_import (hr : LoadResult c s shares es o) (hown : c.isShared = false)
    (answered : ∀ call o, .ended (.ownImport s) call o ∈ es → ∃ n r, o = call.outcome n r)
    (ho : o.leavesNothing = false) :
    ∃ h, h ≠ .null ∧ .ended (.ownImport s) (.importModule c.file) (.value h) ∈ es := by
  cases hr with
  | importFailed hi hfail =>
    cases hi with
    | own _ o =>
      obtain ⟨n, r, rfl⟩ := answered (.importModule c.file) o (by simp)
      cases ho.symm.trans (leavesNothing_importOutcome hfail)
    | shared hc => cases hown.symm.trans hc
  | initFailed hi hn | loaded hi hn =>
    obtain ⟨hnull, hmem⟩ := hi.ended_of_value hown
    exact ⟨_, hnull, List.mem_append_left _ hmem⟩

/-- A load that has imported a module leaves it, unless the call after loading ends like a load
without a module. -/
theorem LoadResult.leaves (hr : LoadResult c s shares es o) {path : String}
    (hmem : .ended (.ownImport s) (.importModule path) (.value h) ∈ es) (hn : h ≠ .null)
    (hinit : ∀ call o, .ended (.init s) call o ∈ es → o.leavesNothing = false) :
    o.leavesNothing = false := by
  cases hr with
  | importFailed hi hfail =>
    rw [hi.of_ended hmem, importOutcome_eq_value.2 ⟨rfl, hn⟩]
    rfl
  | initFailed hi hi' hfail =>
    cases hi' with
    | absent => cases hfail
    | @made call => exact hinit call o (by simp)
  | loaded => rfl

/-- A load hands a module to its own site. -/
theorem LoadStage.eq_of_keep {u : Nat} {joins : Nat → Prop} {op : Operation} {k : List Frame}
    (hl : LoadStage c s joins shares es op k) (hk : .keep u ∈ k) : s = u := by
  cases hl <;> simp at hk <;> exact hk.symm

end Outcomes

namespace World

variable {w : World} {s t : Nat} {o : Outcome} {op : Operation} {k : List Frame} {c : SiteSetup}
  {h : Value}

/-- All calls that have ended were answered by the engine. -/
def Answered (w : World) : Prop :=
  ∀ p call o, .ended p call o ∈ w.events → ∃ n r, o = call.outcome n r

theorem Answered.make (h : Answered w) (m : Move) : Answered (w.make m) := by
  intro p call o hmem
  obtain hmem | ⟨-, t, r, k, -, ho⟩ := ended_make hmem
  · exact h p call o hmem
  · exact ⟨w.named, r, ho⟩

/-! ## Beginning to release -/

/-- What was begun to release a module is never taken back. -/
theorem Begun.make (hs : Sound w) (hr : w.ReleaseState s) (h : w.Begun s) (m : Move) :
    (w.make m).Begun s := by
  obtain ⟨u, hu⟩ | hne := h
  · cases hr with
    | before _ nobody | after _ _ _ _ nobody => exact absurd hu (nobody u)
    | @during c v t op k owns taken hp stage others =>
      by_cases ht : m = .step ∧ w.AtWork t
      · obtain ⟨rfl, op₁, k₁, hc⟩ := ht
        cases (position?_of_working hc).symm.trans hp
        obtain ⟨op', k', hp', stage'⟩ | ⟨⟨es, o, -, he⟩, -⟩ := stage.step hs hc
        · exact .inl ⟨t, op', k', hp', stage'.releases⟩
        · refine .inr ?_
          change releaseEvents s w.step.events ≠ []
          rw [events_step hc, releaseEvents_append, he]
          simp
      · obtain ⟨op', hp', stage'⟩ := stage.make hs hp fun hm hat => ht ⟨hm, hat⟩
        exact .inl ⟨t, op', k, hp', stage'.releases⟩
  · obtain ⟨new, hnew⟩ := (hs.grows_make m).events
    refine .inr ?_
    rw [← hnew, releaseEvents_append]
    exact fun he => hne (List.append_eq_nil_iff.1 he).1

theorem step_releaseAfter (hc : w.control = .working t (.give o) (.releaseAfter s :: k)) :
    (o.leavesNothing = true ∧ ∃ o', w.step = w.goOn t (.give o') k) ∨
      (o.leavesNothing = false ∧ ∃ loaded, w.step = w.release t s loaded k) := by
  rw [step_resume hc]
  cases o with
  | value => exact .inr ⟨rfl, true, rfl⟩
  | error e =>
    cases e with
    | moduleLoad => exact .inl ⟨rfl, _, rfl⟩
    | disposed | noParameters | engine => exact .inr ⟨rfl, false, rfl⟩
  | cancelled => exact .inl ⟨rfl, _, rfl⟩

/-- Whoever is told the outcome of the load takes the module that the site keeps, if that outcome
leaves something to release. -/
theorem releasing_of_imported (hc : w.control = .working t (.give o) (.releaseAfter s :: k))
    (ho : o.leavesNothing = false) (hm : (w.sites s).imported ≠ none) : w.step.Releasing s t := by
  obtain ⟨hn, -⟩ | ⟨-, loaded, hstep⟩ := step_releaseAfter hc
  · cases ho.symm.trans hn
  obtain ⟨v, hv⟩ := Option.ne_none_iff_exists'.1 hm
  simp only [World.release, hv] at hstep
  split at hstep
  · exact ⟨_, _, position?_of_goOn hstep, .inl rfl⟩
  · exact ⟨_, _, position?_of_goOn hstep, .inr (.inl rfl)⟩

/-- Somebody begins to release a module only if the load has left something. -/
theorem leaves_of_begun_make (hs : Sound w)
    (h : w.Begun s → ∃ o, w.LoadEnded s o ∧ o.leavesNothing = false) {m : Move}
    (hb : (w.make m).Begun s) : ∃ o, (w.make m).LoadEnded s o ∧ o.leavesNothing = false := by
  have hg := hs.grows_make m
  by_cases hold : w.Begun s
  · obtain ⟨o, hl, ho⟩ := h hold
    exact ⟨o, hl.grows hg, ho⟩
  obtain ⟨rfl, t, o, k, hc, ho⟩ := (begun_make hs hb).resolve_left hold
  obtain ⟨hl, plain⟩ := (hs.stage t _ _ (position?_of_working hc)).of_releaseAfter
  obtain ⟨-, o', hstep⟩ | ⟨hleaves, -⟩ := step_releaseAfter hc
  · exfalso
    obtain ⟨u, hu⟩ | hne := hb
    · obtain hu' | ⟨-, o₁, k₁, hc', -⟩ := releasing_make hs hu
      · exact hold (.inl ⟨u, hu'⟩)
      · cases hc.symm.trans hc'
        obtain ⟨op', k', hp, hr⟩ := hu
        cases (position?_of_goOn hstep).symm.trans hp
        exact not_releases_give plain hr
    · exact hold (.inr (releaseEvents_step hc (fun ht => hold (.inl ⟨t, ht⟩)) ▸ hne))
  · exact ⟨o, (hl.resolve_right ho).grows hg, hleaves⟩

/-! ## From the load to the site and on -/

/-- The module that a site has imported for itself is on its way to the site, or is kept there, or
somebody has begun to release it. -/
def InCustody (w : World) (s : Nat) : Prop := (∃ c h, w.Owns s c h) →
  (∃ l op k, w.position? l = some (op, k) ∧ .keep s ∈ k) ∨ (w.sites s).imported ≠ none ∨ w.Begun s

/-- Only the load of a site hands it a module. -/
theorem Sound.load_of_keep (hs : Sound w) (hp : w.position? t = some (op, k)) (hk : .keep s ∈ k) :
    (w.tasks t).job = .loads s ∧ ∃ c, (w.sites s).setup = some c ∧
      LoadStage c s (w.Joins s) (w.Shares s) (loadEvents s w.events) op k := by
  have top : ∀ {p : Prop} {f : Frame} {k₁ : List Frame}, (∀ f ∈ k₁, w.PlainFrame f) →
      .keep s ∈ f :: k₁ → f ≠ .keep s → p := fun plain hmem hf =>
    (plain _ ((List.mem_cons.1 hmem).resolve_left hf.symm)).elim
  obtain ⟨u, c, es, hj, hc, rfl, h⟩ | ⟨r, path, -, h⟩ | ⟨call, -, h⟩ := (hs.stage t op k hp).byJob
  · obtain rfl := h.eq_of_keep hk
    exact ⟨hj, c, hc, h⟩
  · cases h <;> simp at hk
  · cases h with
    | plain _ plain => exact (plain _ hk).elim
    | seeks hf _ plain =>
      refine top plain hk ?_
      rintro rfl
      cases hf
    | awaitsLoad _ plain | toldLoad _ plain | unloads _ _ plain | unloaded _ plain =>
      exact top plain hk nofun

/-- The load of a site holds on to what it has imported until the site keeps that. -/
theorem Sound.keep_step (hs : Sound w) (hc : w.control = .working t op k) (hk : .keep s ∈ k)
    (owns : w.Owns s c h) : (∃ op' k', w.step.position? t = some (op', k') ∧ .keep s ∈ k') ∨
      (w.step.sites s).imported ≠ none := by
  obtain ⟨-, c', hsetup, stage⟩ := hs.load_of_keep (position?_of_working hc) hk
  cases owns.setup.symm.trans hsetup
  have himported := mem_loadEvents_of_import owns.imported
  generalize loadEvents s w.events = es at stage himported
  cases stage with
  | fetch =>
    refine .inl ⟨_, _, position?_of_goOn (step_operate hc rfl), ?_⟩
    exact List.mem_cons_of_mem _ hk
  | call => exact .inl ⟨_, _, position?_of_goOn (step_operate hc rfl), hk⟩
  | follow _ b =>
    cases b with
    | gate g => exact .inl ⟨_, _, position?_of_gate (step_operate hc rfl), hk⟩
    | reply r => exact .inl ⟨_, _, position?_of_goOn (step_operate hc rfl), hk⟩
  | answered =>
    exact .inl ⟨_, _, position?_of_goOn (step_resume hc), List.mem_cons_self⟩
  | checked _ hi =>
    have ho := hi.of_ended himported
    rw [importOutcome_eq_value.2 ⟨rfl, owns.value⟩] at ho
    subst ho
    right
    rw [step_resume hc]
    simp [resume, goOn, updateSite]
  | start | await | imported | init | initFollow | initialized | ended => simp at hk

/-- A site that has imported a module has begun to load it. -/
theorem Sound.load_of_imported (hs : Sound w) {path : String}
    (hmem : .ended (.ownImport s) (.importModule path) o ∈ w.events) :
    ∃ l, (w.sites s).load = some l := by
  refine Option.ne_none_iff_exists'.1 fun hl => ?_
  have hmem := mem_loadEvents_of_import hmem
  rw [hs.unloaded s hl] at hmem
  cases hmem

/-- What a site has imported for itself it has imported before, or its load has just been told. -/
theorem Owns.of_make (hs : Sound w) {m : Move} (owns : (w.make m).Owns s c h) :
    w.Owns s c h ∨ ∃ l op k, (w.make m).position? l = some (op, k) ∧ .keep s ∈ k := by
  have setup : ∀ c', (w.sites s).setup = some c' → c = c' := fun c' hc' =>
    Option.some.inj (owns.setup.symm.trans (((hs.grows_make m).site s).setup c' hc'))
  obtain hmem | ⟨rfl, t, r, k, hc, -⟩ := ended_make owns.imported
  · obtain ⟨l, hl⟩ := hs.load_of_imported hmem
    obtain ⟨c', hc'⟩ := Option.isSome_iff_exists.1 (hs.coherent.configured s l hl)
    obtain rfl := setup c' hc'
    exact .inl ⟨hc', owns.isShared, owns.value, hmem⟩
  · have stage := hs.stage t _ _ (position?_of_working hc)
    have hj := (stage.allows (p := .ownImport s) rfl).eq_loads (s := s) (by simp)
    obtain ⟨u, c', es, hj', hc', -, stage⟩ | ⟨r, path, hj', -⟩ | ⟨call, hj', -⟩ := stage.byJob <;>
      cases hj.symm.trans hj'
    obtain rfl := setup c' hc'
    refine .inr ⟨t, _, k, position?_of_goOn (step_operate hc rfl), ?_⟩
    cases stage with
    | follow => simp

/-- Whoever takes the module from a site has begun to release it. -/
theorem imported_step (hc : w.control = .working t op k) (hm : (w.sites s).imported ≠ none) :
    (w.step.sites s).imported ≠ none ∨ w.step.Begun s := by
  have hch := changes_step hc s
  generalize hx : w.step.sites s = x at hch
  cases hch with
  | released =>
    obtain ⟨-, o', hstep⟩ | ⟨ho, -⟩ := step_releaseAfter hc
    · rw [← hx, hstep]
      exact .inl hm
    · exact .inr (.inl ⟨t, releasing_of_imported hc ho hm⟩)
  | kept => exact .inl nofun
  | _ => exact .inl hm

/-- A move keeps the module of a site in custody. -/
theorem InCustody.make (hs : Sound w) (hr : w.ReleaseState s) (hcustody : w.InCustody s)
    (m : Move) : (w.make m).InCustody s := by
  rintro ⟨c, h, howns⟩
  obtain owns | hkeeps := howns.of_make hs
  swap
  · exact .inl hkeeps
  obtain ⟨l, op, k, hp, hk⟩ | himported | hbegun := hcustody ⟨c, h, owns⟩
  · by_cases hl : m = .step ∧ w.AtWork l
    · obtain ⟨rfl, op₁, k₁, hc⟩ := hl
      cases (position?_of_working hc).symm.trans hp
      exact (hs.keep_step hc hk owns).imp (fun ⟨op', k', h⟩ => ⟨l, op', k', h⟩) .inl
    · obtain ⟨op', hp', -⟩ := hs.stays hp fun hm hat => hl ⟨hm, hat⟩
      exact .inl ⟨l, op', k, hp', hk⟩
  · obtain ⟨t, op, k, rfl, hc⟩ | hm := w.working_or_aside m
    · exact .inr (imported_step hc himported)
    · exact .inr (.inl (imported_make hm s ▸ himported))
  · exact .inr (.inr (hbegun.make hs hr m))

/-- A site whose load has ended and left something keeps its module until somebody takes it. -/
theorem InCustody.of_loadEnded (hs : Sound w) (ha : Answered w) (hcustody : w.InCustody s)
    (hown : ∀ c, (w.sites s).setup = some c → c.isShared = false) (hl : w.LoadEnded s o)
    (ho : o.leavesNothing = false) : (w.sites s).imported ≠ none ∨ w.Begun s := by
  obtain ⟨c, hc, hr⟩ := hs.result_of_loadEnded hl
  obtain ⟨h, hn, hmem⟩ := hr.exists_import (hown c hc)
    (fun call o hmem => ha _ call o (List.mem_filter.1 hmem).1) ho
  obtain ⟨l', op, k, hp, hk⟩ | hkept :=
    hcustody ⟨c, h, hc, hown c hc, hn, (List.mem_filter.1 hmem).1⟩
  · -- The load that is to hand the module to the site has not ended.
    obtain ⟨l, hload, hended⟩ := hl
    cases (hs.coherent.load_of_job (hs.load_of_keep hp hk).1).symm.trans hload
    cases (hs.coherent.outcome?_of_position? hp).symm.trans hended
  · exact hkept

end World

end ScriptBundle
