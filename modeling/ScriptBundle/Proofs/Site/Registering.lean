import ScriptBundle.Proofs.Site.Queueing
/-!
# What registries remember

A registry that nobody closes, `World.Unclosed`, is changed in two ways only (`registers_make`): a
task that imports is added under its path when that is free, and one that has failed is forgotten.
-/

namespace ScriptBundle

/-- A move after which a task is to close a registry. -/
def Move.closes (r : Nat) : Move → Prop
  | .start calls => .closeRegistry r ∈ calls
  | _ => False

namespace World

variable {w w' : World} {r t : Nat} {op : Operation} {k : List Frame}

/-! ## New tasks -/

theorem count_cancel (u : Nat) : (w.cancel u).taskCount = w.taskCount := by
  obtain ⟨_, _, _, h⟩ := w.exists_cancel_eq u
  rw [h]

theorem registries_cancel (u : Nat) : (w.cancel u).registries = w.registries := by
  obtain ⟨_, _, _, h⟩ := w.exists_cancel_eq u
  rw [h]

/-- A step of the task at work starts a task, which a registry remembers if it imports, or changes
no registry but one that is closed. -/
theorem started_step (hc : w.control = .working t op k) :
    w.step.taskCount = w.taskCount ∧
        (∀ r, w.step.registries r = w.registries r ∨ op = .closeRegistry r) ∨
      w.step.taskCount = w.taskCount + 1 ∧
        w.Remembers w.step.registries (w.step.tasks w.taskCount).job := by
  have hturn := turn_step hc
  generalize w.step = w' at hturn
  cases hturn with
  | goesOn _ count _ registries => exact .inl ⟨count, registries⟩
  | spawns job tasks count _ registries =>
    refine .inr ⟨count, ?_⟩
    simp only [goOn, tasks, World.spawn, put_self]
    exact registries
  | cancels l => exact .inl ⟨count_cancel l, fun r => .inl (congrFun (registries_cancel l) r)⟩
  | waits hl =>
    rw [awaitTask_eq hl]
    exact .inl ⟨rfl, fun _ => .inl rfl⟩
  | atGate | ends => exact .inl ⟨rfl, fun _ => .inl rfl⟩

/-- Without a task at work, a step starts no task, and a registry only forgets one that failed. -/
theorem started_step_idle (hc : w.control = .idle) :
    w.step.taskCount = w.taskCount ∧ ∀ r, w.step.registries r = w.registries r ∨
      ∃ path l o, w.outcome? l = some o ∧ o.isFailure = true ∧
        (w.registries r).lookup path = some l ∧
          w.step.registries r = (w.registries r).filter fun e => e.1 ≠ path := by
  have hidles := idles_step hc
  generalize w.step = w' at hidles
  cases hidles with
  | @forgets r' l path o _ _ ho hfail hl =>
    refine ⟨rfl, fun r => ?_⟩
    obtain hr | ⟨rfl, hr⟩ := put_eq_or w.registries r'
      ((w.registries r').filter fun e => e.1 ≠ path) r
    · exact .inl hr
    · exact .inr ⟨path, l, o, ho, hfail, hl, hr⟩
  | _ => exact ⟨rfl, fun _ => .inl rfl⟩

theorem started_openGate (g : String) (b : Behaviour) :
    (w.openGate g b).taskCount = w.taskCount ∧ (w.openGate g b).registries = w.registries :=
  openGate_keeps
    (motive := fun v => v.taskCount = w.taskCount ∧ v.registries = w.registries) ⟨rfl, rfl⟩
    fun _ _ _ _ _ h => h

/-- Moves other than steps change no registry, and start a task only if a host does. -/
theorem started_make {m : Move} (hm : m ≠ .step) : (w.make m).registries = w.registries ∧
    ((w.make m).taskCount = w.taskCount ∨ ∃ calls, m = .start calls ∧
      (w.make m).taskCount = w.taskCount + 1 ∧
        ((w.make m).tasks w.taskCount).job = .host (.inTurn calls)) := by
  have hhappens := happens_make (w := w) hm
  generalize w.make m = w' at hhappens
  cases hhappens with
  | started calls =>
    refine ⟨rfl, .inr ⟨calls, rfl, rfl, ?_⟩⟩
    simp only [World.spawn, put_self]
  | opened g b => exact ⟨(started_openGate g b).2, .inl (started_openGate g b).1⟩
  | @cancels t => exact ⟨registries_cancel t, .inl (count_cancel t)⟩
  | _ => exact ⟨rfl, .inl rfl⟩

/-! ## Registries that nobody closes -/

/-- No task is to close the registry. -/
def Unclosed (w : World) (r : Nat) : Prop :=
  ∀ t op k, w.position? t = some (op, k) → ¬ Closes r op k

/-- Woken, a task does not begin to close a registry. -/
theorem Woken.closes {op' : Operation} (h : w.Woken t op op') (hcl : Closes r op' k) :
    Closes r op k := by
  cases h with
  | same => exact hcl
  | told | passed => simpa [Closes] using hcl
  | stopped =>
    obtain h | ⟨calls, h, -⟩ | h := hcl
    · cases op <;> cases h
    · cases op <;> cases h
    · exact .inr (.inr h)

/-- A task that is to close a registry from its start was started by a host for that. -/
theorem Coherent.closes_start (hw : Coherent w) (hcl : Closes r (w.tasks t).job.operation []) :
    ∃ calls, (w.tasks t).job = .host (.inTurn calls) ∧ .closeRegistry r ∈ calls := by
  cases hj : (w.tasks t).job with
  | host op =>
    obtain ⟨calls, rfl⟩ := hw.hosted t op hj
    refine ⟨calls, rfl, ?_⟩
    simpa [Closes, hj, Job.operation] using hcl
  | loads | imports => simp [Closes, hj, Job.operation] at hcl

/-- Unless a host starts to close a registry, nobody does. -/
theorem Unclosed.make (hs : Sound w) (hu : w.Unclosed r) {m : Move} (hm : ¬ m.closes r) :
    (w.make m).Unclosed r := by
  have other : ∀ actor, Follows actor w (w.make m) → (∀ t, w.taskCount ≤ t →
        t < (w.make m).taskCount → ∀ calls, ((w.make m).tasks t).job = .host (.inTurn calls) →
          .closeRegistry r ∉ calls) →
      ∀ t op k, some t ≠ actor → (w.make m).position? t = some (op, k) → ¬ Closes r op k := by
    intro actor hf newer t op k ht hp hcl
    cases hq : w.position? t with
    | none =>
      obtain ⟨hlt, rfl, rfl⟩ := hf.newcomers t op k ht hq hp
      obtain ⟨calls, hj, hmem⟩ := hf.coherent.closes_start hcl
      exact newer t hlt (hf.coherent.lt_of_position? hp) calls hj hmem
    | some q =>
      obtain ⟨op₁, k₁⟩ := q
      obtain ⟨op', hp', hwoken⟩ := hf.others t op₁ k₁ ht hq
      obtain ⟨rfl, rfl⟩ := Prod.mk.inj (Option.some.inj (hp'.symm.trans hp))
      exact hu t op₁ _ hq (hwoken.closes hcl)
  intro t op k hp hcl
  obtain ⟨u, op₁, k₁, rfl, hc⟩ | hm' := w.working_or_aside m
  · by_cases ht : t = u
    · subst ht
      have hpos := position?_of_working hc
      obtain onward | ⟨rfl, rfl⟩ := onward_step hc hp
      · exact hu t op₁ k₁ hpos (onward.closes r hcl)
      · exact hu t _ _ hpos hcl
    · refine other _ (hs.follows_step hc) (fun v hle hlt calls hj => ?_) t op k
        (fun e => ht (Option.some.inj e)) hp hcl
      obtain ⟨count, -⟩ | ⟨count, registries⟩ := started_step hc
      · exact absurd (count ▸ hlt) (Nat.not_lt.2 hle)
      · have hv : v = w.taskCount :=
          Nat.le_antisymm (Nat.le_of_lt_succ (Nat.lt_of_lt_of_eq hlt count)) hle
        change (w.step.tasks v).job = _ at hj
        rw [← hv, hj] at registries
        exact registries.elim
  · refine other _ (hm'.follows hs.coherent) (fun v hle hlt calls hj => ?_) t op k nofun hp hcl
    by_cases hstep : m = .step
    · subst hstep
      exact absurd ((started_step_idle (hm' rfl)).1 ▸ hlt) (Nat.not_lt.2 hle)
    · obtain ⟨-, count | ⟨calls', rfl, count, job⟩⟩ := started_make (w := w) hstep
      · exact absurd (count ▸ hlt) (Nat.not_lt.2 hle)
      · have hv : v = w.taskCount :=
          Nat.le_antisymm (Nat.le_of_lt_succ (Nat.lt_of_lt_of_eq hlt count)) hle
        rw [hv, job] at hj
        cases hj
        exact hm

/-- What can become of a registry that nobody closes. -/
inductive Registers (w w' : World) (r : Nat) : Prop
  | same (registries : w'.registries r = w.registries r)
      (older : ∀ t path, (w'.tasks t).job = .imports r path → t < w.taskCount)
  | added {path : String} (free : (w.registries r).lookup path = none)
      (registries : w'.registries r = w.registries r ++ [(path, w.taskCount)])
      (job : (w'.tasks w.taskCount).job = .imports r path)
      (older : ∀ t path, (w'.tasks t).job = .imports r path → t < w.taskCount ∨ t = w.taskCount)
  | forgotten {path : String} {l : Nat} {o : Outcome} (ho : w.outcome? l = some o)
      (hfail : o.isFailure = true) (hl : (w.registries r).lookup path = some l)
      (registries : w'.registries r = (w.registries r).filter fun e => e.1 ≠ path)
      (older : ∀ t path, (w'.tasks t).job = .imports r path → t < w.taskCount)

/-- A move closes a registry, or does to it what is done to a registry that nobody closes. -/
theorem registers_or_closes (hs : Sound w) (m : Move) : w.Registers (w.make m) r ∨
    m = .step ∧ ∃ t k, w.control = .working t (.closeRegistry r) k := by
  have hw' := (hs.make m).coherent
  have importing : ∀ t path, ((w.make m).tasks t).job = .imports r path →
      t < (w.make m).taskCount := fun t path hj => hw'.lt_of_job (by simp [hj])
  obtain ⟨u, op, k, rfl, hc⟩ | hm := w.working_or_aside m
  · obtain ⟨count, registries⟩ | ⟨count, registries⟩ := started_step hc
    · obtain registries | rfl := registries r
      · exact .inl (.same registries fun t path hj => count ▸ importing t path hj)
      · exact .inr ⟨rfl, u, k, hc⟩
    · have newest : ∀ t path, (w.step.tasks t).job = .imports r path →
          t < w.taskCount ∨ t = w.taskCount := fun t path hj =>
        Nat.lt_succ_iff_lt_or_eq.1 (Nat.lt_of_lt_of_eq (importing t path hj) count)
      cases hj : (w.step.tasks w.taskCount).job with
      | host op => simp [hj, Remembers] at registries
      | loads s =>
        rw [hj] at registries
        refine .inl (.same (congrFun registries r) fun t path hj' => ?_)
        refine (newest t path hj').resolve_right fun ht => ?_
        cases (ht ▸ hj).symm.trans hj'
      | imports r' path' =>
        rw [hj] at registries
        obtain ⟨free, registries⟩ := registries
        by_cases hr : r = r'
        · subst hr
          exact .inl (.added free ((congrFun registries r).trans (put_self ..)) hj newest)
        · refine .inl (.same ((congrFun registries r).trans (put_of_ne _ _ hr))
            fun t path hj' => ?_)
          refine (newest t path hj').resolve_right fun ht => ?_
          cases (ht ▸ hj).symm.trans hj'
          exact hr rfl
  · left
    by_cases hstep : m = .step
    · subst hstep
      obtain ⟨count, registries⟩ := started_step_idle (hm rfl)
      have older : ∀ t path, (w.step.tasks t).job = .imports r path → t < w.taskCount :=
        fun t path hj => count ▸ importing t path hj
      obtain registries | ⟨path, l, o, ho, hfail, hl, registries⟩ := registries r
      · exact .same registries older
      · exact .forgotten ho hfail hl registries older
    · obtain ⟨registries, count | ⟨calls, rfl, count, job⟩⟩ := started_make (w := w) hstep
      · exact .same (congrFun registries r) fun t path hj => count ▸ importing t path hj
      · refine .same (congrFun registries r) fun t path hj => ?_
        have hlt : t < w.taskCount + 1 := count ▸ importing t path hj
        refine (Nat.lt_succ_iff_lt_or_eq.1 hlt).resolve_right fun ht => ?_
        rw [ht, job] at hj
        cases hj

/-- **What registries remember.** A registry that nobody closes remembers a task only if its path is
free, and forgets one only if that has failed. -/
theorem registers_make (hs : Sound w) (hu : w.Unclosed r) (m : Move) :
    w.Registers (w.make m) r := by
  refine (registers_or_closes hs m).resolve_right ?_
  rintro ⟨-, t, k, hc⟩
  exact hu t _ k (position?_of_working hc) (.inl rfl)

end World

end ScriptBundle
