import ScriptBundle.Proofs.Site.Calling
/-!
# The stages of tasks

Each task stands in one of the stages that its job allows, `World.Stage`. It starts there
(`Coherent.stage_start`), and being woken keeps it there (`Stage.woken`). From the stage of a task
follows what it is about to do: which sites it has to do with, and that a function is called or a
module released only once the load of the site has ended (`Stage.warrants`).
-/

namespace ScriptBundle

theorem importOutcome_eq_value {path : String} {o : Outcome} {h : Value} :
    importOutcome path o = .value h ↔ o = .value h ∧ h ≠ .null := by
  constructor
  · intro ho
    cases o with
    | value v => cases v <;> cases ho <;> exact ⟨rfl, nofun⟩
    | error e => cases e <;> cases ho
    | cancelled => cases ho
  · rintro ⟨rfl, hn⟩
    cases h with
    | null => exact absurd rfl hn
    | _ => rfl

/-- The purposes for which a task with a given job calls the engine. -/
def Job.allows : Job → Purpose → Prop
  | .host _, .use _ | .host _, .unload _ | .host _, .release _ | .host _, .close _ => True
  | .loads s, .ownImport s' | .loads s, .init s' => s' = s
  | .imports r _, .sharedImport r' => r' = r
  | _, _ => False

theorem Job.allows.eq_loads {j : Job} {p : Purpose} {s : Nat} (h : j.allows p)
    (hp : p ∈ [.ownImport s, .init s]) : j = .loads s := by
  simp only [List.mem_cons, List.not_mem_nil, or_false] at hp
  cases j with
  | loads u =>
    have hs : s = u := by obtain rfl | rfl := hp <;> exact h
    rw [hs]
  | host | imports => obtain rfl | rfl := hp <;> exact h.elim

/-- What a load waits for, it may be told. -/
theorem LoadStage.woken {w : World} {c : SiteSetup} {t s : Nat} {es : List Event}
    {op op' : Operation} {k : List Frame} (hj : (w.tasks t).job = .loads s)
    (hs : LoadStage c s (w.Joins s) (w.Shares s) es op k) (hwoken : w.Woken t op op') :
    LoadStage c s (w.Joins s) (w.Shares s) es op' k := by
  cases hwoken with
  | same => exact hs
  | told ho =>
    cases hs with
    | await hc hl => exact .imported (.shared hc ⟨_, hl, ho⟩)
  | passed =>
    cases hs with
    | follow hc => exact .follow hc _
    | initFollow hi hc => exact .initFollow hi hc _
  | stopped _ h => exact absurd hj (h s)

theorem ImportStage.woken {w : World} {t r : Nat} {path : String} {op op' : Operation}
    {k : List Frame} (hs : ImportStage r path op k) (hwoken : w.Woken t op op') :
    ImportStage r path op' k := by
  cases hwoken with
  | same => exact hs
  | told => cases hs
  | passed =>
    cases hs with
    | follow => exact .follow _
  | stopped =>
    cases hs with
    | fetch => exact .ended _
    | call => exact .answered _
    | follow => exact .follow _
    | answered => exact .answered _
    | ended => exact .ended _

namespace World

/-- The stages that a task may stand in, by its job. -/
def Stage (w : World) (t : Nat) (op : Operation) (k : List Frame) : Prop :=
  match (w.tasks t).job with
  | .loads s => ∃ c, (w.sites s).setup = some c ∧
      LoadStage c s (w.Joins s) (w.Shares s) (loadEvents s w.events) op k
  | .imports r path => ImportStage r path op k
  | .host _ => w.CallStage t op k

variable {w w' : World} {t : Nat} {op : Operation} {k : List Frame}

/-- The job of a task tells whether it loads, imports, or makes the calls of a host. -/
theorem Stage.byJob (hs : w.Stage t op k) :
    (∃ s c es, (w.tasks t).job = .loads s ∧ (w.sites s).setup = some c ∧
        loadEvents s w.events = es ∧ LoadStage c s (w.Joins s) (w.Shares s) es op k) ∨
      (∃ r path, (w.tasks t).job = .imports r path ∧ ImportStage r path op k) ∨
        ∃ call, (w.tasks t).job = .host call ∧ w.CallStage t op k := by
  unfold Stage at hs
  split at hs
  next s hj =>
    obtain ⟨c, hc, hs⟩ := hs
    exact .inl ⟨s, c, _, hj, hc, rfl, hs⟩
  next r path hj => exact .inr (.inl ⟨r, path, hj, hs⟩)
  next call hj => exact .inr (.inr ⟨call, hj, hs⟩)

theorem Stage.of_loads {c : SiteSetup} {s : Nat} (hj : (w.tasks t).job = .loads s)
    (hc : (w.sites s).setup = some c)
    (hs : LoadStage c s (w.Joins s) (w.Shares s) (loadEvents s w.events) op k) :
    w.Stage t op k := by
  rw [Stage, hj]
  exact ⟨c, hc, hs⟩

theorem Stage.of_imports {r : Nat} {path : String} (hj : (w.tasks t).job = .imports r path)
    (hs : ImportStage r path op k) : w.Stage t op k := by
  rw [Stage, hj]
  exact hs

theorem Stage.of_host {call : Operation} (hj : (w.tasks t).job = .host call)
    (hs : w.CallStage t op k) : w.Stage t op k := by
  rw [Stage, hj]
  exact hs

theorem Stage.allows (h : w.Stage t op k) {p : Purpose} (hp : op.purpose? = some p) :
    (w.tasks t).job.allows p := by
  obtain ⟨s, c, es, hj, -, -, h⟩ | ⟨r, path, hj, h⟩ | ⟨call, hj, h⟩ := h.byJob <;> rw [hj]
  · cases h <;> cases hp <;> rfl
  · cases h <;> cases hp <;> rfl
  · cases h with
    | plain hop =>
      cases op with
      | call p' c | follow p' c b =>
        cases hp
        cases p <;> trivial
      | _ => cases hp
    | seeks _ hop => cases hop <;> cases hp
    | awaitsLoad | toldLoad | unloaded => cases hp
    | unloads hop =>
      cases hop.symm.trans hp
      trivial

theorem Stage.grows (hw : Coherent w) (h : Grows w w') (ht : t < w.taskCount)
    (events : ∀ s, (w.tasks t).job = .loads s → loadEvents s w'.events = loadEvents s w.events)
    (hs : w.Stage t op k) : w'.Stage t op k := by
  have job := h.job t ht
  obtain ⟨s, c, es, hj, hc, rfl, hs⟩ | ⟨r, path, hj, hs⟩ | ⟨call, hj, hs⟩ := hs.byJob
  · refine .of_loads (job.trans hj) ((h.site s).setup c hc) ?_
    rw [events s hj]
    exact hs.mono (fun l => Joins.grows hw h) fun o => Shares.grows hw h
  · exact .of_imports (job.trans hj) hs
  · exact .of_host (job.trans hj) (hs.grows hw h)

theorem Stage.woken {op' : Operation} (hs : w.Stage t op k) (hwoken : w.Woken t op op') :
    w.Stage t op' k := by
  obtain ⟨s, c, es, hj, hc, rfl, hs⟩ | ⟨r, path, hj, hs⟩ | ⟨call, hj, hs⟩ := hs.byJob
  · exact .of_loads hj hc (hs.woken hj hwoken)
  · exact .of_imports hj (hs.woken hwoken)
  · exact .of_host hj (hs.woken hwoken)

/-- Every task starts in a stage that its job allows. -/
theorem Coherent.stage_start (hw : Coherent w) (t : Nat)
    (events : ∀ s, (w.tasks t).job = .loads s → loadEvents s w.events = []) (ht : t < w.taskCount) :
    w.Stage t (w.tasks t).job.operation [] := by
  cases hj : (w.tasks t).job with
  | loads s =>
    have hl : (w.sites s).load = some t := (hw.loads s t).2 ⟨ht, hj⟩
    obtain ⟨c, hc⟩ := Option.isSome_iff_exists.1 (hw.configured s t hl)
    refine .of_loads hj hc ?_
    rw [events s hj]
    exact .start
  | imports r path => exact .of_imports hj .fetch
  | host op =>
    obtain ⟨calls, rfl⟩ := hw.hosted t op hj
    exact .of_host hj (.plain trivial nofun)

/-! ## What tasks are about to do -/

/-- Only tasks that import for registries are asked to stop by other tasks. -/
theorem Stage.loadsOf (hs : w.Stage t op k) :
    ∀ l ∈ loadsOf op, ∃ r path, (w.tasks l).job = .imports r path := by
  intro l hl
  cases op with
  | closeLoads r ls =>
    obtain ⟨s, c, es, -, -, -, hs⟩ | ⟨r, path, -, hs⟩ | ⟨call, -, hs⟩ := hs.byJob
    · cases hs
    · cases hs
    · cases hs with
      | plain hop => exact hop l hl
      | seeks _ hop => cases hop
      | unloads hop => cases hop
  | _ => cases hl

/-- Tasks wait for tasks that there are. -/
theorem Stage.await_lt {l : Nat} (hw : Coherent w) (hs : w.Stage t (.await l) k) :
    l < w.taskCount := by
  obtain ⟨s, c, es, -, -, -, hs⟩ | ⟨r, path, -, hs⟩ | ⟨call, -, hs⟩ := hs.byJob
  · cases hs with
    | await _ hl =>
      obtain ⟨c, -, hj⟩ := hl
      exact hw.lt_of_job (by simp [hj])
  · cases hs
  · cases hs with
    | plain hop => exact hop
    | seeks _ hop =>
      cases hop with
      | await hl => exact ((hw.loads _ l).1 hl).1
    | awaitsLoad hl => exact ((hw.loads _ l).1 hl).1
    | unloads hop => cases hop

/-- Only the load of a site hands it a module, which it has imported. -/
theorem Stage.of_keep {s : Nat} {h : Value} (hs : w.Stage t (.give (.value h)) (.keep s :: k)) :
    (w.tasks t).job = .loads s ∧ ∃ c, (w.sites s).setup = some c ∧ c.isShared = false ∧
      h ≠ .null ∧ .ended (.ownImport s) (.importModule c.file) (.value h) ∈ w.events := by
  obtain ⟨u, c, es, hj, hc, hes, hs⟩ | ⟨r, path, -, hs⟩ | ⟨call, -, hs⟩ := hs.byJob
  · cases hs with
    | checked hn hi =>
      suffices h ≠ .null ∧
          .ended (.ownImport s) (.importModule c.file) (.value h) ∈ loadEvents s w.events from
        ⟨hj, c, hc, hn, this.1, (List.mem_filter.1 this.2).1⟩
      rw [hes]
      generalize ho : Outcome.value h = o at hi
      cases hi with
      | own _ o =>
        obtain ⟨rfl, hnull⟩ := importOutcome_eq_value.1 ho.symm
        exact ⟨hnull, by simp [← ho]⟩
      | shared hn' => simp [hn] at hn'
  · cases hs
  · cases hs with
    | plain _ hk => exact (hk _ List.mem_cons_self).elim
    | seeks hf => cases hf

/-- Only the load of a site makes it ready, and ends with that. -/
theorem Stage.of_finishLoad {s : Nat} {h : Value} (hs : w.Stage t op (.finishLoad s h :: k)) :
    (w.tasks t).job = .loads s ∧ k = [] := by
  obtain ⟨u, c, es, hj, -, -, hs⟩ | ⟨r, path, -, hs⟩ | ⟨call, -, hs⟩ := hs.byJob
  · cases hs <;> exact ⟨hj, rfl⟩
  · cases hs
  · cases hs with
    | plain _ hk => exact (hk _ List.mem_cons_self).elim
    | seeks hf => cases hf

/-- What a call needs that is made for a site once its load has ended: a function is called of the
module that the load gave. -/
def Warrants (w : World) (s : Nat) (call : EngineCall) (p : Purpose) : Prop :=
  (p = .use s ∧ ∃ h, w.LoadEnded s (.value h) ∧ ∃ id args, call = (w.sites s).useCall h id args) ∨
    (p = .unload s ∧ ∃ h, w.LoadEnded s (.value h)) ∨ p = .release s ∧ ∃ o, w.LoadEnded s o

theorem Warrants.ended {s : Nat} {call : EngineCall} {p : Purpose} (h : w.Warrants s call p) :
    ∃ o, w.LoadEnded s o := by
  obtain ⟨-, h, hl, -⟩ | ⟨-, h, hl⟩ | ⟨-, o, hl⟩ := h <;> exact ⟨_, hl⟩

theorem Warrants.grows {s : Nat} {call : EngineCall} {p : Purpose} (hw : Coherent w)
    (hg : Grows w w') (h : w.Warrants s call p) : w'.Warrants s call p := by
  obtain ⟨hp, h, hl, id, args, hcall⟩ | ⟨hp, h, hl⟩ | ⟨hp, o, hl⟩ := h
  · exact .inl ⟨hp, h, hl.grows hg, id, args, hcall.trans (useCall_grows hw hg hl id args).symm⟩
  · exact .inr (.inl ⟨hp, h, hl.grows hg⟩)
  · exact .inr (.inr ⟨hp, o, hl.grows hg⟩)

/-- Functions are called and modules released only once the load of the site has ended. -/
theorem Stage.warrants {s : Nat} {call : EngineCall} {p : Purpose}
    (hs : w.Stage t (.call p call) k) (hp : p ∈ [.use s, .unload s, .release s]) :
    w.Warrants s call p := by
  obtain ⟨u, c, es, -, -, -, hs⟩ | ⟨r, path, -, hs⟩ | ⟨op, -, hs⟩ := hs.byJob
  · cases hs <;> simp at hp
  · cases hs
    simp at hp
  · cases hs with
    | plain hop =>
      simp only [List.mem_cons, List.not_mem_nil, or_false] at hp
      obtain rfl | rfl | rfl := hp
      · obtain ⟨h, id, args, hcall, hl⟩ := hop
        exact .inl ⟨rfl, h, hl, id, args, hcall⟩
      · exact hop.elim
      · exact .inr (.inr ⟨rfl, hop⟩)
    | seeks _ hop => cases hop
    | unloads hop hl =>
      cases hop
      simp only [List.mem_cons, List.not_mem_nil, or_false, reduceCtorEq, false_or,
        Purpose.unload.injEq] at hp
      exact hp ▸ .inr (.inl ⟨hp ▸ rfl, _, hl⟩)

end World

end ScriptBundle
