import ScriptBundle.Proofs.Site.Asking
import ScriptBundle.Proofs.Site.Filing
import ScriptBundle.Proofs.Site.Tidy
/-!
# Trying again

A shared import that fails is given to nobody who comes later. The task that is to load a site
starts behind the item of the queue by which the registry forgets the import, if the load is begun
after the import has failed: `World.Shuns`, which every move keeps (`Shuns.make`). And what the
registry remembers by then under that path is younger. So whoever tries again is given an import
that is not the failed one (`Gets.eventually_given`) and was started later.

`World.Retries` says so, and `retries_course` proves it of every world of a course, whoever closes
registries.
-/

namespace ScriptBundle.World

variable {w : World} {s l d d' : Nat} {op : Operation} {k : List Frame} {r : Nat} {path : String}
  {o : Outcome}

/-! ## What the load of a site waits for -/

/-- What the load of a site is about to wait for, it has waited for before, or the registry has
given it. -/
theorem Sound.await_step (hs : Sound w) (hc : w.control = .working l op k)
    (hj : (w.tasks l).job = .loads s) {k' : List Frame}
    (hp : w.step.position? l = some (.await d, k')) :
    op = .await d ∨ d = w.taskCount ∨ ∃ r path, (path, d) ∈ w.registries r := by
  obtain ⟨_, h⟩ | ⟨⟨rfl, -⟩, -⟩ := proceeds_or_stays hc hp
  swap
  · exact .inl rfl
  have hstage := hs.stage l op k (position?_of_working hc)
  rw [Stage, hj] at hstage
  obtain ⟨c, -, hstage⟩ := hstage
  right
  generalize hop : Operation.await d = op' at h
  cases h with
  | startsLoad | startsImport =>
    cases hop
    exact .inl rfl
  | joinsImport _ _ hl' =>
    cases hop
    exact .inr ⟨_, _, mem_of_lookup hl'⟩
  | joins | disposesLoading =>
    generalize loadEvents s w.events = es at hstage
    cases hstage
  | @makesNext c => cases c <;> cases hop
  | _ => cases hop

/-- So it is with every move. -/
theorem Given.of_make (hs : Sound w) {m : Move} (h : (w.make m).Given s d) :
    w.Given s d ∨ d = w.taskCount ∨ ∃ r path, (path, d) ∈ w.registries r := by
  obtain ⟨l, k, hl, hp⟩ := h
  have hs' := hs.make m
  have hg := hs.grows_make m
  have hj' := ((hs'.coherent.loads s l).1 hl).2
  have load : ∀ {p}, w.position? l = some p → (w.tasks l).job = .loads s := fun hp =>
    (hg.job l (hs.coherent.lt_of_position? hp)).symm.trans hj'
  obtain ⟨h, -⟩ | ⟨op, hp₀, hwoken⟩ | ⟨rfl, op, k₀, hc⟩ := hs.stood_make hp
  · rw [hj'] at h
    cases h
  · have hj := load hp₀
    generalize he : Operation.await d = op' at hwoken
    cases hwoken with
    | same => exact .inl ⟨l, k, hs.coherent.load_of_job hj, he ▸ hp₀⟩
    | told | passed => cases he
    | stopped => cases op <;> cases he
  · have hp₀ := position?_of_working hc
    have hj := load hp₀
    refine (hs.await_step hc hj hp).imp_left ?_
    rintro rfl
    exact ⟨l, k₀, hs.coherent.load_of_job hj, hp₀⟩

theorem Sound.lt_of_given (hs : Sound w) (h : w.Given s d) : d < w.taskCount := by
  obtain ⟨l, k, -, hp⟩ := h
  exact (hs.stage l _ k hp).await_lt hs.coherent

/-! ## Loads that are begun late -/

/-- The load of a site has not asked the registry, and does not before the given items of the queue
are taken. -/
def Unasked (w : World) (s : Nat) (before : List Ready) : Prop :=
  ∀ l op k, (w.sites s).load = some l → w.position? l = some (op, k) →
    op = .load s ∧ ¬ w.AtWork l ∧ .work l ∉ before

/-- An import that has failed is not given to a site any more: the registry forgets it before the
site's load asks for it, or has forgotten it. -/
inductive Shuns (w : World) (s r : Nat) (path : String) (d : Nat) : Prop
  | early {before after : List Ready} (hq : w.queue = before ++ .forget r path d :: after)
      (unasked : w.Unasked s before) : Shuns w s r path d
  | late (gone : (path, d) ∉ w.registries r)
      (newer : ∀ d', w.Given s d' → (w.tasks d').job = .imports r path → d < d') :
      Shuns w s r path d

theorem Unasked.not_given {before : List Ready} (h : w.Unasked s before) : ¬ w.Given s d := by
  rintro ⟨l, k, hl, hp⟩
  cases (h l _ k hl hp).1

/-- Who is in the queue to be put to work has something to do. -/
theorem Tidy.position?_of_work (hw : Coherent w) (h : Tidy w) (hmem : .work l ∈ w.queue) :
    ∃ op k, w.position? l = some (op, k) := by
  have hwork : l ∈ w.works := List.mem_filterMap.2 ⟨_, hmem, rfl⟩
  have hcount := List.count_pos_iff.2 hwork
  have hqueued := h.work l
  cases hst : (w.tasks l).status with
  | ready cause =>
    rw [position?_eq_task rfl fun op k => hw.not_atWork (by simp [hst]) op k]
    simp [Task.position?, hst]
  | active | atGate | awaiting | finished =>
    rw [hst] at hqueued
    exact absurd hqueued (Nat.not_le.2 hcount)

/-- A load that has not asked the registry does not do so while other items of the queue are taken.
-/
theorem Unasked.make (hs : Sound w) (htidy : Tidy w) {before : List Ready}
    (h : w.Unasked s before) (queued : before ⊆ w.queue) {m : Move}
    (head : ∀ l rest, w.queue = .work l :: rest → .work l ∈ before) :
    (w.make m).Unasked s before := by
  intro l op k hl hp
  have hg := hs.grows_make m
  have hj' := (((hs.make m).coherent.loads s l).1 hl).2
  -- What is known of the load was known before, unless it has just been started.
  have known : ∀ {op k}, w.position? l = some (op, k) →
      op = .load s ∧ ¬ w.AtWork l ∧ .work l ∉ before := fun hp => by
    have hj := (hg.job l (hs.coherent.lt_of_position? hp)).symm.trans hj'
    exact h l _ _ (hs.coherent.load_of_job hj) hp
  have idle : ¬ w.AtWork l := fun ⟨op, k, hc⟩ =>
    (known (position?_of_working hc)).2.1 ⟨op, k, hc⟩
  have absent : .work l ∉ before := fun hmem => by
    obtain ⟨op, k, hp₀⟩ := htidy.position?_of_work hs.coherent (queued hmem)
    exact (known hp₀).2.2 hmem
  refine ⟨?_, fun hwork => ?_, absent⟩
  · obtain ⟨rfl, -⟩ | ⟨op, hp₀, hwoken⟩ | ⟨-, op, k₀, hc⟩ := hs.stood_make hp
    · rw [hj']
      rfl
    · obtain ⟨rfl, -⟩ := known hp₀
      cases hwoken with
      | same => rfl
      | stopped _ hn => exact absurd hj' (hn s)
    · exact absurd ⟨op, k₀, hc⟩ idle
  · obtain ⟨-, rest, -, hq, -⟩ := head_of_atWork idle hwork
    exact absent (head l rest hq)

theorem Unasked.mono {before before' : List Ready} (h : w.Unasked s before)
    (hsub : before' ⊆ before) : w.Unasked s before' := fun l op k hl hp =>
  ⟨(h l op k hl hp).1, (h l op k hl hp).2.1, fun hmem => (h l op k hl hp).2.2 (hsub hmem)⟩

section Failed

variable (hs : Sound w) (hfiled : Filed w) (htidy : Tidy w)
  (hj : (w.tasks d).job = .imports r path) (ho : w.outcome? d = some o) (hfail : o.isFailure = true)

include hs hfiled htidy ho hfail in
/-- The registry has forgotten the import once the queue has come to that. -/
theorem Shuns.make_of_early {before after : List Ready}
    (hq : w.queue = before ++ .forget r path d :: after) (unasked : w.Unasked s before) (m : Move) :
    (w.make m).Shuns s r path d := by
  have unasked' : (w.make m).Unasked s before := by
    refine unasked.make hs htidy (hq ▸ List.subset_append_left _ _) fun l rest hq' => ?_
    cases before with
    | nil => cases hq.symm.trans hq'
    | cons item before =>
      cases hq.symm.trans hq'
      exact List.mem_cons_self
  have behind : w.queue <+: (w.make m).queue → (w.make m).Shuns s r path d := fun ⟨more, hq'⟩ => by
    have hq : (w.make m).queue = before ++ .forget r path d :: (after ++ more) := by
      rw [← hq', hq, List.append_assoc, List.cons_append]
    exact .early hq unasked'
  by_cases hm : m = .step
  · subst hm
    cases hc : w.control with
    | working => exact behind (queue_step hc)
    | idle =>
      cases before with
      | cons item before =>
        obtain ⟨more, hq'⟩ := queue_step_idle hc hq
        have hq : (w.make .step).queue = before ++ .forget r path d :: (after ++ more) :=
          hq'.symm.trans (by simp)
        exact .early hq (unasked'.mono (List.subset_cons_self _ _))
      | nil =>
        refine .late (fun hmem => ?_) fun d' hd' => (unasked'.not_given hd').elim
        have hlt := hs.coherent.lt_of_outcome? ho
        obtain hmem₀ | ⟨rfl, -⟩ := mem_registries_make hs hmem
        · have hfree := hfiled.lookup_step_of_forget hc hq hmem₀ ho hfail
          exact not_mem_of_lookup_eq_none hfree d hmem
        · exact lt_irrefl _ hlt
  · exact behind (make_frame hm).2

include hs hfiled hj in
theorem Shuns.make_of_late (gone : (path, d) ∉ w.registries r)
    (newer : ∀ d', w.Given s d' → (w.tasks d').job = .imports r path → d < d') (m : Move) :
    (w.make m).Shuns s r path d := by
  have hg := hs.grows_make m
  have hlt : d < w.taskCount := hs.coherent.lt_of_job (by simp [hj])
  refine .late (fun hmem => ?_) fun d' hd' hj' => ?_
  · obtain hmem | ⟨rfl, -⟩ := mem_registries_make hs hmem
    · exact gone hmem
    · exact lt_irrefl _ hlt
  · obtain hd | rfl | ⟨r', path', hmem⟩ := hd'.of_make hs
    · exact newer d' hd ((hg.job d' (hs.lt_of_given hd)).symm.trans hj')
    · exact hlt
    · obtain ⟨hlt', hj₀⟩ := hs.coherent.remembered r' path' d' hmem
      cases hj₀.symm.trans ((hg.job d' hlt').symm.trans hj')
      refine lt_of_le_of_ne (hfiled.newest r path d' d hmem hj) ?_
      rintro rfl
      exact gone hmem

include hs hfiled htidy hj ho hfail in
theorem Shuns.make (h : w.Shuns s r path d) (m : Move) : (w.make m).Shuns s r path d := by
  cases h with
  | early hq unasked => exact Shuns.make_of_early hs hfiled htidy ho hfail hq unasked m
  | late gone newer => exact Shuns.make_of_late hs hfiled hj gone newer m

include hs hfiled htidy hj ho hfail in
theorem Shuns.course (h : w.Shuns s r path d) (ms : List Move) :
    (w.course ms).Shuns s r path d := by
  induction ms generalizing w with
  | nil => exact h
  | cons m ms ih =>
    have hg := hs.grows_make m
    have hlt := hs.coherent.lt_of_outcome? ho
    exact ih (hs.make m) (hfiled.make hs m) (htidy.make hs.coherent m)
      ((hg.job d hlt).trans hj) (hg.outcome d o ho) (h.make hs hfiled htidy hj ho hfail m)

include hfiled ho hfail in
/-- A site whose load has not been begun shuns all imports that have failed. -/
theorem shuns_of_unloaded (hl : (w.sites s).load = none) : w.Shuns s r path d := by
  by_cases hmem : (path, d) ∈ w.registries r
  · obtain ⟨before, after, hq⟩ := List.append_of_mem (hfiled.failing r path d o hmem ho hfail)
    exact .early hq fun l op k hl' => by cases hl.symm.trans hl'
  · refine .late hmem fun d' hd' => ?_
    obtain ⟨l, k, hl', -⟩ := hd'
    cases hl.symm.trans hl'

end Failed

/-! ## Courses -/

/-- A shared import has failed. -/
def HasFailed (w : World) (r : Nat) (path : String) (d : Nat) : Prop :=
  (w.tasks d).job = .imports r path ∧ ∃ o, w.outcome? d = some o ∧ o.isFailure = true

/-- What is to come for a site whose load is begun after a shared import has failed. -/
structure Renews (w : World) (s r : Nat) (path : String) (d : Nat) : Prop where
  /-- It is never given that import. If it is given one for the same path and registry, then one
  that was started later. -/
  newer : ∀ ms d', (w.course ms).Given s d' →
    d' ≠ d ∧ (((w.course ms).tasks d').job = .imports r path → d < d')
  /-- If it shares the module at that path then it is given such an import when its load asks the
  registry: it joins the one that is remembered, or starts a new one. -/
  joins : ∀ ms l k, (w.course ms).control = .working l (.load s) k →
    (w.course ms).SharesAt s r path → ∃ d', d < d' ∧ (w.course ms).step.Given s d' ∧
      (((w.course ms).registries r).lookup path = some d' ∨
        ((w.course ms).registries r).lookup path = none ∧ d' = (w.course ms).taskCount)
  /-- And it comes to that, as long as the machine keeps taking steps, once somebody gets the module
  of the site. -/
  reaches : ∀ moves, Fair moves → ∀ n, (w.along moves n).SharesAt s r path →
    (w.along moves n).Gets s → ∃ m d', d < d' ∧ (w.along moves m).Given s d' ∧
      ((w.along moves m).tasks d').job = .imports r path

/-- What holds of shared imports that have failed, whatever comes next. -/
structure Retries (w : World) : Prop where
  /-- The item of the queue by which a registry forgets a task takes no other from any registry. -/
  own : ∀ r path l rest, w.control = .idle → w.queue = .forget r path l :: rest →
    ∀ r' path' l', (path', l') ∈ w.registries r' →
      (path', l') ∈ w.step.registries r' ∨ r' = r ∧ path' = path ∧ l' = l
  /-- A site whose load is begun after an import has failed is given another one. -/
  renews : ∀ r path d, w.HasFailed r path d → ∀ s, (w.sites s).load = none → w.Renews s r path d

/-- No site is given a failed import if its load is begun later. -/
theorem HasFailed.newer (hs : Sound w) (hfiled : Filed w) (htidy : Tidy w)
    (h : w.HasFailed r path d) (hl : (w.sites s).load = none) (ms : List Move)
    (hd' : (w.course ms).Given s d') :
    d' ≠ d ∧ (((w.course ms).tasks d').job = .imports r path → d < d') := by
  obtain ⟨hj, o, ho, hfail⟩ := h
  have hshuns := (shuns_of_unloaded hfiled ho hfail hl).course hs hfiled htidy hj ho hfail ms
  have newer : ((w.course ms).tasks d').job = .imports r path → d < d' := fun hj' => by
    cases hshuns with
    | early _ unasked => exact (unasked.not_given hd').elim
    | late _ newer => exact newer d' hd' hj'
  refine ⟨?_, newer⟩
  rintro rfl
  have hlt := hs.coherent.lt_of_outcome? ho
  exact lt_irrefl _ (newer (((hs.grows_course ms).job _ hlt).trans hj))

/-- **Trying again.** Whatever hosts and engine do and in whatever order, also if registries are
closed, whoever begins to load a shared module after an import of it has failed waits for another,
which was started later. -/
theorem retries_course (hosts : Nat → SiteHost) (hostOf : Nat → Nat)
    (engine : EngineCall → Behaviour) (ms : List Move) :
    Retries ((initial hosts hostOf engine).course ms) := by
  have hs := sound_course hosts hostOf engine ms
  have hfiled := filed_course hosts hostOf engine ms
  have htidy := tidy_course hosts hostOf engine ms
  have hq := scheduled_course hosts hostOf engine ms
  generalize (initial hosts hostOf engine).course ms = w at hs hfiled htidy hq
  refine ⟨fun r path l rest hc hq r' path' l' hm => hfiled.mem_step_of_forget hc hq hm,
    fun r path d hfailed s hl => ?_⟩
  have newer := fun ms d' (hd' : (w.course ms).Given s d') =>
    hfailed.newer hs hfiled htidy hl ms hd'
  refine ⟨newer, fun ms' l k hc hshares => ?joins, fun moves fair n hshares hgets => ?reaches⟩
  case joins =>
    have hs' := hs.course ms'
    obtain ⟨d', hd', hfrom⟩ := hs'.given_step hc hshares
    have hj' := hd'.job_eq (hs'.make .step) (hshares.grows (hs'.grows_make .step))
    have hnewer := newer (ms' ++ [.step]) d'
    rw [course_append] at hnewer
    exact ⟨d', (hnewer hd').2 hj', hd', hfrom⟩
  case reaches =>
    obtain ⟨m, d', hd', hj'⟩ := hgets.eventually_given hs hq hl fair hshares
    refine ⟨m, d', ?_, hd', hj'⟩
    rw [along_eq_course] at hd' hj'
    exact (newer _ d' hd').2 hj'

/-- A script file cannot be imported for the first site, but for the second one it can. -/
example :
    let host : SiteHost := ⟨{}, ⟨"app", ⟨[], []⟩, []⟩, 0⟩
    let handle : RenderHandle := ⟨.nothing, .absent⟩
    let pairs := [("ScriptFile", .string "a.js"), ("GlobalBundle", .bool true)]
    let w := (initial (fun _ => host) (fun _ => 0) fun _ => .reply (.failed "offline")).course
      ([.attach 0 handle, .assign 0 pairs, .attach 1 handle, .assign 1 pairs,
        .start [.getModule 0]] ++ List.replicate 30 .step ++
        [.behave fun _ => .reply .done, .start [.getModule 1]] ++ List.replicate 30 .step)
    calls (.sharedImport 0) w.events = 2 ∧ (w.sites 0).state = .resolving ∧
      (w.sites 1).state = .ready := by
  decide +kernel

end ScriptBundle.World
