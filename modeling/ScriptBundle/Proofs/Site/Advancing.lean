import ScriptBundle.Proofs.Pairs
import ScriptBundle.Proofs.Site.Staging
/-!
# From stage to stage

A step of a task at work leads from a stage to the next, or ends the task: `LoadStage.step`,
`ImportStage.step` and `CallStage.step`, and `Stage.step` for all of them.
-/

namespace ScriptBundle

/-! ## Tasks that load and import -/

section

open World

variable {w : World} {t : Nat} {op : Operation} {k : List Frame}

theorem World.Coherent.joins_of_lookup (hw : Coherent w) {s l : Nat} {c : SiteSetup}
    (hc : (w.sites s).setup = some c)
    (hl : (w.registries (w.hosts (w.sites s).host).registry).lookup c.file = some l) :
    w.Joins s l :=
  ⟨c, hc, (hw.remembered _ c.file l (mem_of_lookup hl)).2⟩

/-- A load goes from a stage to the next, or ends. -/
theorem LoadStage.step {c : SiteSetup} {s : Nat} {es : List Event}
    (hw : Coherent w) (hc : w.control = .working t op k) (hg : Grows w w.step)
    (hes : loadEvents s w.events = es) (hsetup : (w.sites s).setup = some c)
    (hs : LoadStage c s (w.Joins s) (w.Shares s) es op k) :
    (∃ o, op = .give o ∧ k = []) ∨ ∃ op' k', w.step.position? t = some (op', k') ∧
      LoadStage c s (w.step.Joins s) (w.step.Shares s) (loadEvents s w.step.events) op' k' := by
  have next : ∀ {op' k' es'}, w.step.position? t = some (op', k') →
      LoadStage c s (w.step.Joins s) (w.step.Shares s) es' op' k' →
      es' = es ++ loadEvents s (op.emits w.named) →
      (∃ o, op = .give o ∧ k = []) ∨ ∃ op' k', w.step.position? t = some (op', k') ∧
        LoadStage c s (w.step.Joins s) (w.step.Shares s) (loadEvents s w.step.events) op' k' :=
    fun hp hs he => .inr ⟨_, _, hp, by rwa [events_step hc, loadEvents_append, hes, ← he]⟩
  have hs := hs.mono (fun l => Joins.grows hw hg) fun o => Shares.grows hw hg
  cases hs with
  | start =>
    have hstep := step_operate hc rfl
    simp only [operate, World.load, hsetup] at hstep
    split_ifs at hstep with hshared
    · split at hstep
      next l hl =>
        have hj := Joins.grows hw hg (hw.joins_of_lookup hsetup hl)
        exact next (position?_of_goOn hstep) (.await hshared hj) rfl
      next =>
        have hj : w.step.Joins s w.taskCount := by
          rw [hstep]
          exact ⟨c, hsetup, by simp [goOn, World.spawn]⟩
        exact next (position?_of_goOn hstep) (.await hshared hj) rfl
    · exact next (position?_of_goOn hstep) (.fetch (by simpa using hshared)) rfl
  | fetch hn => exact next (position?_of_goOn (step_operate hc rfl)) (.call hn) rfl
  | call hn =>
    refine next (position?_of_goOn (step_operate hc rfl)) (.follow hn _) ?_
    simp [Operation.emits, loadEvents, Event.serves]
  | follow hn b =>
    cases b with
    | gate g => exact next (position?_of_gate (step_operate hc rfl)) (.follow hn _) rfl
    | reply r =>
      refine next (position?_of_goOn (step_operate hc rfl)) (.answered hn _) ?_
      simp [Operation.emits, loadEvents, Event.serves]
  | answered hn o => exact next (position?_of_goOn (step_resume hc)) (.checked hn (.own hn o)) rfl
  | @checked hn _ o hi =>
    have hp : w.step.position? t = some (.give o, [.callInit s]) := by
      cases o <;> exact position?_of_goOn (step_resume hc)
    exact next hp (.imported hi) (List.append_nil es).symm
  | await hn hl =>
    obtain ⟨o, ho, hp⟩ | hp := position?_of_awaitTask (step_operate hc rfl)
    · exact next hp (.imported (.shared hn ⟨_, hl, hg.outcome _ o ho⟩)) rfl
    · exact next hp (.await hn hl) rfl
  | @imported _ o hi =>
    have hstep := step_resume hc
    cases o with
    | value h =>
      simp only [resume, Site.initCall?, hsetup, Option.bind_some] at hstep
      split at hstep
      next call hcall =>
        exact next (position?_of_goOn hstep) (.init hi hcall) (List.append_nil es).symm
      next hcall =>
        exact next (position?_of_goOn hstep) (.initialized hi (.absent hcall)) rfl
    | error | cancelled =>
      exact next (position?_of_goOn hstep) (.ended (.importFailed hi rfl))
        (List.append_nil es).symm
  | init hi hcall =>
    refine next (position?_of_goOn (step_operate hc rfl)) (.initFollow hi hcall _) ?_
    simp [Operation.emits, loadEvents, Event.serves]
  | initFollow hi hcall b =>
    cases b with
    | gate g =>
      exact next (position?_of_gate (step_operate hc rfl)) (.initFollow hi hcall _)
        (List.append_nil _).symm
    | reply r =>
      refine next (position?_of_goOn (step_operate hc rfl)) (.initialized hi (.made hcall _)) ?_
      simp [Operation.emits, loadEvents, Event.serves]
  | @initialized _ _ h o hi hn =>
    cases o with
    | value v =>
      exact next (position?_of_goOn (step_resume hc)) (.ended (.loaded hi hn))
        (List.append_nil _).symm
    | error | cancelled =>
      exact next (position?_of_goOn (step_resume hc)) (.ended (.initFailed hi hn rfl))
        (List.append_nil _).symm
  | ended hr => exact .inl ⟨_, rfl, rfl⟩

/-- An import for a registry goes from a stage to the next, or ends. -/
theorem ImportStage.step {r : Nat} {path : String} (hc : w.control = .working t op k)
    (hs : ImportStage r path op k) :
    (∃ o, op = .give o ∧ k = []) ∨ ∃ op' k', w.step.position? t = some (op', k') ∧
      ImportStage r path op' k' := by
  cases hs with
  | fetch => exact .inr ⟨_, _, position?_of_goOn (step_operate hc rfl), .call⟩
  | call => exact .inr ⟨_, _, position?_of_goOn (step_operate hc rfl), .follow _⟩
  | follow b =>
    cases b with
    | gate g => exact .inr ⟨_, _, position?_of_gate (step_operate hc rfl), .follow _⟩
    | reply r => exact .inr ⟨_, _, position?_of_goOn (step_operate hc rfl), .answered _⟩
  | answered o => exact .inr ⟨_, _, position?_of_goOn (step_resume hc), .ended _⟩
  | ended o => exact .inl ⟨o, rfl, rfl⟩

end

/-! ## Tasks of hosts -/

namespace World

variable {w v : World} {t : Nat} {op op' : Operation} {k k' : List Frame}

/-- The operations that a host's task does without frames of their own. -/
theorem plainOperation_operation (c : SiteCall) : w.PlainOperation c.operation := by
  cases c <;> trivial

/-- What the task does that gets a module of a site. -/
theorem Seeks.step {s : Nat} {f : Frame} (hc : w.control = .working t op (f :: k))
    (hg : Grows w w.step) (hop : w.Seeks t s op) (hgive : op.gives = false) :
    ∃ op', w.step.position? t = some (op', f :: k) ∧ w.step.Seeks t s op' := by
  have goes : ∀ {v op' k'}, w.step = v.goOn t op' k' → w.Proceeds op (f :: k) v op' k' →
      k' = f :: k ∧ w.step.Seeks t s op' := fun hstep h => by
    cases hop with
    | get =>
      cases h with
      | yields h =>
        cases h with
        | refuses => exact ⟨rfl, .give .disposed⟩
        | hasNoParameters => exact ⟨rfl, .give .noParameters⟩
      | joins _ _ hl => exact ⟨rfl, .await ((hg.site s).load _ hl)⟩
      | startsLoad =>
        refine ⟨rfl, .await ?_⟩
        rw [hstep]
        simp [goOn, updateSite]
    | await hl =>
      cases h with
      | yields h =>
        cases h with
        | hasEnded ho => exact ⟨rfl, .give (.ended ⟨_, (hg.site s).load _ hl, hg.outcome _ _ ho⟩)⟩
    | give => cases hgive
  obtain ⟨o, rfl, -⟩ | ⟨op', k', hp, rfl, hop'⟩ := ends_or_leads hc goes ⟨rfl, hop.grows hg⟩
  · cases hgive
  · exact ⟨op', hp, hop'⟩

/-- What a task of a host does without heeding what it is given leads to one of its situations. -/
theorem Proceeds.callStage_of_plain (hw : Coherent w) (hg : Grows w w.step)
    (hstep : w.step = v.goOn t op' k') (h : w.Proceeds op k v op' k') (hop : w.PlainOperation op)
    (hk : ∀ f ∈ k, w.PlainFrame f) : w.step.CallStage t op' k' := by
  have hop := hop.grows hw hg
  have hk : ∀ f ∈ k, w.step.PlainFrame f := fun f hf => (hk f hf).grows hw hg
  have rest : ∀ {f k₁}, k = f :: k₁ → ∀ f' ∈ k₁, w.step.PlainFrame f' := by
    rintro f k₁ rfl
    exact (List.forall_mem_cons.1 hk).2
  have push : ∀ {f k₁}, w.step.PlainFrame f → (∀ f' ∈ k₁, w.step.PlainFrame f') →
      ∀ f' ∈ f :: k₁, w.step.PlainFrame f' := fun hf hk => List.forall_mem_cons.2 ⟨hf, hk⟩
  cases h with
  | renders | asks => exact .seeks rfl .get hk
  | joins _ _ hl => exact .plain (Nat.lt_of_lt_of_le ((hw.loads _ _).1 hl).1 hg.count) hk
  | startsLoad =>
    have hlt : w.taskCount < w.step.taskCount := by
      rw [hstep]
      exact Nat.lt_succ_self _
    exact .plain hlt hk
  | disposesLoading _ _ hl => exact .awaitsLoad ((hg.site _).load _ hl) (push trivial hk)
  | @closes r =>
    refine .plain (AllImport.grows hw hg fun l hl => ?_) hk
    obtain ⟨⟨path, l⟩, he, rfl⟩ := List.mem_map.1 hl
    exact ⟨r, path, (hw.remembered r path l he).2⟩
  | cancels | skips => exact .plain (fun l hl => hop l (List.mem_cons_of_mem _ hl)) hk
  | releasesShared =>
    exact .plain trivial (push (fun l hl => hop l (List.mem_cons_of_mem _ hl)) hk)
  | @makesNext c =>
    by_cases hget : ∃ s, c = .getModule s
    · obtain ⟨s, rfl⟩ := hget
      exact .seeks rfl .get hk
    · exact .plain (plainOperation_operation c) (push (fun s hs => hget ⟨s, hs⟩) hk)
  | calls => exact .plain hop hk
  | asksVoid | within | callsNext => exact .plain trivial (push trivial hk)
  | yields | disposes | answered => exact .plain trivial hk
  | returns | callsOn | hasMade => exact .plain trivial (rest rfl)
  | leaves => exact .plain trivial (push trivial (rest rfl))
  | closesNext => exact .plain (hk _ List.mem_cons_self) (rest rfl)
  | joinsImport | startsImport | importsOwn | fetches => exact hop.elim
  | uses | keeps | initializes | hasNoInit | finishes | unloads | releases | releasesUnloaded =>
    exact (hk _ List.mem_cons_self).elim

/-- A task of a host goes from a situation to another, or ends. -/
theorem CallStage.step (hw : Coherent w) (hc : w.control = .working t op k) (hg : Grows w w.step)
    (hs : w.CallStage t op k) :
    (∃ o, op = .give o ∧ k = []) ∨
      ∃ op' k', w.step.position? t = some (op', k') ∧ w.step.CallStage t op' k' := by
  refine ends_or_leads hc (fun {v op' k'} hstep h => ?_) (hs.grows hw hg)
  have frames : ∀ {k : List Frame}, (∀ f ∈ k, w.PlainFrame f) → ∀ f ∈ k, w.step.PlainFrame f :=
    fun hk f hf => (hk f hf).grows hw hg
  cases hs with
  | plain hop hk => exact h.callStage_of_plain hw hg hstep hop hk
  | @seeks _ f k s hf hop hk =>
    obtain ⟨o, rfl⟩ | hgive := op.give_or_not
    · cases hop with
      | give ho =>
        cases h with
        | yields h => cases h
        | returns => exact .plain trivial (frames hk)
        | @uses _ h id args =>
          cases hf
          have hl : w.LoadEnded s (.value h) := by
            cases ho with
            | ended ho => exact ho
          refine .plain ?_ (frames hk)
          exact ⟨h, id, args, (useCall_grows hw hg hl id args).symm, hl.grows hg⟩
        | hasMade => exact .plain trivial (frames hk)
        | _ => cases hf
    · obtain ⟨op₁, hp, hs⟩ := hop.step hc hg hgive
      cases (position?_of_goOn hstep).symm.trans hp
      exact .seeks hf hs (frames hk)
  | awaitsLoad hl hk =>
    cases h with
    | yields h =>
      cases h with
      | hasEnded ho =>
        exact .toldLoad (.inl ⟨_, (hg.site _).load _ hl, hg.outcome _ _ ho⟩) (frames hk)
  | @toldLoad s o k ho hk =>
    have ended : ∀ {loaded}, o.releases? = some loaded → w.step.LoadEnded s o := fun hr =>
      (ho.resolve_right fun hn => by rw [hn] at hr; cases hr).grows hg
    cases h with
    | yields h => cases h
    | returns => exact .plain trivial (frames hk)
    | unloads hr =>
      cases o with
      | value v => exact .unloads rfl (ended hr) (frames hk)
      | error e => cases e <;> cases hr
      | cancelled => cases hr
    | releases hr => exact .plain ⟨o, ended hr⟩ (frames hk)
  | unloads hop hl hk =>
    have hl := hl.grows hg
    cases h with
    | calls => exact .unloads hop hl (frames hk)
    | answered => exact .unloaded hl (frames hk)
    | yields h => cases h <;> cases hop
    | _ => cases hop
  | unloaded hl hk =>
    cases h with
    | yields h => cases h
    | returns h =>
      cases h with
      | fails _ hf => cases hf
    | releasesUnloaded =>
      exact .plain ⟨_, hl.grows hg⟩ (List.forall_mem_cons.2 ⟨trivial, frames hk⟩)

/-! ## All tasks -/

theorem Stage.step (hw : Coherent w) (hc : w.control = .working t op k) (hg : Grows w w.step)
    (hs : w.Stage t op k) :
    (∃ o, op = .give o ∧ k = []) ∨
      ∃ op' k', w.step.position? t = some (op', k') ∧ w.step.Stage t op' k' := by
  have job := hg.job t (hw.atWork t op k hc).1
  obtain ⟨s, c, es, hj, hsetup, hes, hs⟩ | ⟨r, path, hj, hs⟩ | ⟨call, hj, hs⟩ := hs.byJob
  · refine (hs.step hw hc hg hes hsetup).imp id ?_
    rintro ⟨op', k', hp, hs⟩
    exact ⟨op', k', hp, .of_loads (job.trans hj) ((hg.site s).setup c hsetup) hs⟩
  · refine (hs.step hc).imp id ?_
    rintro ⟨op', k', hp, hs⟩
    exact ⟨op', k', hp, .of_imports (job.trans hj) hs⟩
  · refine (hs.step hw hc hg).imp id ?_
    rintro ⟨op', k', hp, hs⟩
    exact ⟨op', k', hp, .of_host (job.trans hj) hs⟩

end World

end ScriptBundle
