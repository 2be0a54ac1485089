import ScriptBundle.Proofs.Site.Sharing
/-!
# Registries in order

A registry remembers one task for each path, the last one that was started for it, and a task that
has failed is not remembered for longer than it takes the queue to come to it: `World.Filed`. Every
world of a course is like that, also if registries are closed (`filed_course`).

So the item of the queue by which a registry forgets a task takes no other task from any registry
(`Filed.mem_step_of_forget`).
-/

namespace ScriptBundle

namespace World

/-- Registries remember what they should. -/
structure Filed (w : World) : Prop where
  /-- A registry remembers one task for each path. -/
  keys : ∀ r, ((w.registries r).map Prod.fst).Nodup
  /-- No other that imports the same has been started since. -/
  newest : ∀ r path l t, (path, l) ∈ w.registries r → (w.tasks t).job = .imports r path → t ≤ l
  /-- A task that has failed is to be forgotten. -/
  failing : ∀ r path l o, (path, l) ∈ w.registries r → w.outcome? l = some o →
    o.isFailure = true → .forget r path l ∈ w.queue

variable {w : World} {t l : Nat} {op : Operation} {k : List Frame} {r : Nat} {path : String}

/-- The task at work ends only by giving an outcome to nobody. -/
theorem Sound.give_of_ended (hs : Sound w) (hc : w.control = .working t op k) {o : Outcome}
    (ho : w.step.outcome? t = some o) : op = .give o ∧ k = [] := by
  have hf := hs.follows_step hc
  obtain ⟨o', rfl, rfl⟩ | ⟨op', k', hp, -⟩ :=
    (hs.stage t op k (position?_of_working hc)).step hs.coherent hc hf.grows
  · rw [step_finish hc, outcome?_finish] at ho
    cases ho
    exact ⟨rfl, rfl⟩
  · rw [hf.coherent.outcome?_of_position? hp] at ho
    cases ho

/-- The items of the queue stay there until they are taken. -/
theorem mem_queue_make {m : Move} {item : Ready} (h : item ∈ w.queue)
    (taken : m = .step → w.control = .idle → ∀ rest, w.queue ≠ item :: rest) :
    item ∈ (w.make m).queue := by
  by_cases hm : m = .step
  · subst hm
    cases hc : w.control with
    | working t op k => exact (queue_step hc).subset h
    | idle =>
      cases hq : w.queue with
      | nil => simp [hq] at h
      | cons first rest =>
        refine (queue_step_idle hc hq).subset ?_
        rw [hq] at h
        refine (List.mem_cons.1 h).resolve_left ?_
        rintro rfl
        exact taken rfl hc rest hq
  · exact (make_frame hm).2.subset h

/-- A registry forgets a task that has failed when the queue comes to it. -/
theorem Filed.lookup_step_of_forget (h : Filed w) (hc : w.control = .idle) {rest : List Ready}
    (hq : w.queue = .forget r path l :: rest) (hm : (path, l) ∈ w.registries r) {o : Outcome}
    (ho : w.outcome? l = some o) (hfail : o.isFailure = true) :
    (w.step.registries r).lookup path = none := by
  have hl := lookup_of_mem (h.keys r) hm
  have ho' : World.outcome? { w with queue := rest } l = some o := ho
  rw [step_of_idle hc hq]
  simp only [take, forget, ho', hfail, hl, and_self, if_true, put_self]
  exact lookup_filter_self

/-- By that it forgets no other task. -/
theorem Filed.mem_step_of_forget (h : Filed w) (hc : w.control = .idle) {rest : List Ready}
    (hq : w.queue = .forget r path l :: rest) {r' l' : Nat} {path' : String}
    (hm : (path', l') ∈ w.registries r') :
    (path', l') ∈ w.step.registries r' ∨ r' = r ∧ path' = path ∧ l' = l := by
  have hidles := idles_step hc
  generalize w.step = w' at hidles
  cases hidles with
  | rests => exact .inl hm
  | works | tells | drops => exact .inl hm
  | forgets hq' ho hfail hl =>
    cases hq.symm.trans hq'
    dsimp only
    obtain hput | ⟨rfl, hput⟩ := put_eq_or w.registries r
      ((w.registries r).filter fun e => e.1 ≠ path) r'
    · exact .inl (by rwa [hput])
    by_cases hpath : path' = path
    · subst hpath
      have hl' := lookup_of_mem (h.keys r') hm
      exact .inr ⟨rfl, rfl, Option.some.inj (hl'.symm.trans hl)⟩
    · left
      rw [hput]
      exact List.mem_filter.2 ⟨hm, by simpa using hpath⟩

/-! ## Every move -/

theorem registries_of_closeRegistry (hc : w.control = .working t (.closeRegistry r) k) :
    w.step.registries r = [] := by
  rw [step_operate hc rfl]
  exact put_self ..

/-- A registry remembers what it did before, or a task that has just been started for a path that
was free. -/
theorem mem_registries_make (hs : Sound w) {m : Move}
    (hm : (path, l) ∈ (w.make m).registries r) : (path, l) ∈ w.registries r ∨
      l = w.taskCount ∧ (w.registries r).lookup path = none := by
  obtain h | ⟨rfl, t, k, hc⟩ := registers_or_closes (r := r) hs m
  · cases h with
    | same registries => exact .inl (registries ▸ hm)
    | added free registries =>
      rw [registries, List.mem_append, List.mem_singleton, Prod.mk.injEq] at hm
      exact hm.imp_right fun ⟨hpath, hl⟩ => ⟨hl, hpath ▸ free⟩
    | forgotten _ _ _ registries =>
      rw [registries] at hm
      exact .inl (List.mem_filter.1 hm).1
  · rw [make, registries_of_closeRegistry hc] at hm
    cases hm

theorem Filed.keys_make (hs : Sound w) (h : Filed w) (m : Move) :
    (((w.make m).registries r).map Prod.fst).Nodup := by
  obtain hr | ⟨rfl, t, k, hc⟩ := registers_or_closes (r := r) hs m
  · cases hr with
    | same registries => exact registries ▸ h.keys r
    | added free registries =>
      rw [registries, List.map_append, List.nodup_append]
      refine ⟨h.keys r, List.nodup_singleton _, fun p hp p' hp' => ?_⟩
      obtain ⟨e, he, rfl⟩ := List.mem_map.1 hp
      rw [List.mem_singleton.1 hp']
      rintro rfl
      exact not_mem_of_lookup_eq_none free e.2 he
    | forgotten _ _ _ registries =>
      rw [registries]
      exact (h.keys r).sublist (List.filter_sublist.map _)
  · rw [make, registries_of_closeRegistry hc]
    exact List.nodup_nil

/-- A task that a move starts is younger than those there were, and the only one. -/
theorem Filed.newest_make (hs : Sound w) (h : Filed w) (m : Move)
    (hm : (path, l) ∈ (w.make m).registries r) (hj : ((w.make m).tasks t).job = .imports r path) :
    t ≤ l := by
  have hg := hs.grows_make m
  have older : t < w.taskCount → t ≤ l := fun hlt => by
    obtain hm | ⟨rfl, -⟩ := mem_registries_make hs hm
    · exact h.newest r path l t hm ((hg.job t hlt).symm.trans hj)
    · exact hlt.le
  obtain hr | ⟨rfl, u, k, hc⟩ := registers_or_closes (r := r) hs m
  · cases hr with
    | same _ importing | forgotten _ _ _ _ importing => exact older (importing t path hj)
    | @added path' free registries job importing =>
      obtain hlt | rfl := importing t path hj
      · exact older hlt
      cases job.symm.trans hj
      obtain hm | ⟨rfl, -⟩ := mem_registries_make hs hm
      · exact absurd hm (not_mem_of_lookup_eq_none free l)
      · exact le_rfl
  · rw [make, registries_of_closeRegistry hc] at hm
    cases hm

theorem Filed.failing_make (hs : Sound w) (h : Filed w) (m : Move)
    (hm : (path, l) ∈ (w.make m).registries r) {o : Outcome}
    (ho : (w.make m).outcome? l = some o) (hfail : o.isFailure = true) :
    .forget r path l ∈ (w.make m).queue := by
  have hlt : ∀ {o}, w.outcome? l = some o → l < w.taskCount := hs.coherent.lt_of_outcome?
  -- A task that has just been started has not ended.
  have old : l < w.taskCount := by
    obtain ⟨u, op, k, rfl, hc, hf⟩ | hf := hs.follows_move m
    · by_cases hu : l = u
      · exact hu ▸ (hs.coherent.atWork u op k hc).1
      · exact hlt (hf.ends l o (fun e => hu (Option.some.inj e)) ho)
    · exact hlt (hf.ends l o nofun ho)
  have hm' : (path, l) ∈ w.registries r :=
    (mem_registries_make hs hm).resolve_right fun ⟨e, _⟩ => absurd old (e ▸ lt_irrefl _)
  cases ho₁ : w.outcome? l with
  | some o₁ =>
    cases ((hs.grows_make m).outcome l o₁ ho₁).symm.trans ho
    refine mem_queue_make (h.failing r path l o hm' ho₁ hfail) fun hstep hc rest hq => ?_
    subst hstep
    exact not_mem_of_lookup_eq_none (h.lookup_step_of_forget hc hq hm' ho₁ hfail) l hm
  | none =>
    have other : ∀ actor, some l ≠ actor → Follows actor w (w.make m) → False :=
      fun actor hne hf => by
        cases ho₁.symm.trans (hf.ends l o hne ho)
    obtain ⟨u, op, k, rfl, hc, hf⟩ | hf := hs.follows_move m
    · by_cases hu : l = u
      · subst hu
        obtain ⟨rfl, rfl⟩ := hs.give_of_ended hc ho
        rw [make, step_finish hc]
        simp [finish, (hs.coherent.remembered r path l hm').2]
      · exact (other _ (fun e => hu (Option.some.inj e)) hf).elim
    · exact (other none nofun hf).elim

theorem Filed.make (hs : Sound w) (h : Filed w) (m : Move) : Filed (w.make m) where
  keys _ := h.keys_make hs m
  newest _ _ _ _ hm hj := h.newest_make hs m hm hj
  failing _ _ _ _ hm ho hfail := h.failing_make hs m hm ho hfail

theorem Filed.course (hs : Sound w) (h : Filed w) (ms : List Move) : Filed (w.course ms) := by
  induction ms generalizing w with
  | nil => exact h
  | cons m ms ih => exact ih (hs.make m) (h.make hs m)

theorem filed_initial (hosts : Nat → SiteHost) (hostOf : Nat → Nat)
    (engine : EngineCall → Behaviour) : Filed (initial hosts hostOf engine) where
  keys _ := List.nodup_nil
  newest _ _ _ _ h := by cases h
  failing _ _ _ _ h := by cases h

/-- **Registries stay in order** whatever hosts and engine do, and whoever closes them. -/
theorem filed_course (hosts : Nat → SiteHost) (hostOf : Nat → Nat)
    (engine : EngineCall → Behaviour) (ms : List Move) :
    Filed ((initial hosts hostOf engine).course ms) :=
  (filed_initial hosts hostOf engine).course (sound_initial hosts hostOf engine) ms

end World

end ScriptBundle
