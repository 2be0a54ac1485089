import ScriptBundle.Proofs.Site.Advancing
/-!
# Every world of a course is sound

`World.Sound` is the invariant that carries the results about sites: each task stands in one of the
stages that its job allows, a load that has ended is a `LoadResult` of what has happened, and
modules are kept and used only after they were loaded. A move keeps it (`Sound.make`), and so it
holds after every course from a new world (`sound_course`).
-/

namespace ScriptBundle.World

/-- The load of a site may end in the given outcome, after what has happened. -/
def Loads (w : World) (s : Nat) (o : Outcome) : Prop :=
  ∃ c, (w.sites s).setup = some c ∧ LoadResult c s (w.Shares s) (loadEvents s w.events) o

/-- A world that a course may lead to. -/
structure Sound (w : World) : Prop where
  coherent : Coherent w
  stage : ∀ t op k, w.position? t = some (op, k) → w.Stage t op k
  result : ∀ t s o, (w.tasks t).job = .loads s → w.outcome? t = some o → w.Loads s o
  /-- Nothing has been done to load a site whose load was not started. -/
  unloaded : ∀ s, (w.sites s).load = none → loadEvents s w.events = []
  /-- A site keeps only what it has imported for itself. -/
  kept : ∀ s h, (w.sites s).imported = some h → ∃ c, (w.sites s).setup = some c ∧
    c.isShared = false ∧ h ≠ .null ∧
      .ended (.ownImport s) (.importModule c.file) (.value h) ∈ w.events
  /-- The load of a site that is ready is as good as ended. -/
  ready : ∀ s, (w.sites s).state = .ready → ∃ t h, (w.tasks t).job = .loads s ∧
    (w.position? t = some (.give (.value h), []) ∨ w.outcome? t = some (.value h))
  /-- Functions are called and modules released only after the load has ended. -/
  after : ∀ s p call pre post, p ∈ [.use s, .unload s, .release s] →
    w.events = pre ++ .called p call :: post → loadEvents s post = [] ∧ w.Warrants s call p

variable {w w' : World} {t : Nat} {op : Operation} {k : List Frame}

theorem Loads.grows (hw : Coherent w) (h : Grows w w') {s : Nat} {o : Outcome}
    (events : loadEvents s w'.events = loadEvents s w.events) (ho : w.Loads s o) :
    w'.Loads s o := by
  obtain ⟨c, hc, hr⟩ := ho
  exact ⟨c, (h.site s).setup c hc, events ▸ hr.mono fun o => Shares.grows hw h⟩

/-- A load that is about to end is a result of what has happened. -/
theorem Stage.loads {s : Nat} {o : Outcome} (hs : w.Stage t (.give o) [])
    (hj : (w.tasks t).job = .loads s) : w.Loads s o := by
  obtain ⟨u, c, es, hj', hc, hes, hs⟩ | ⟨r, path, hj', -⟩ | ⟨call, hj', -⟩ := hs.byJob <;>
    cases hj.symm.trans hj'
  refine ⟨c, hc, ?_⟩
  rw [hes]
  cases hs with
  | ended hr => exact hr

namespace Sound

theorem follows_step (h : Sound w) (hc : w.control = .working t op k) :
    Follows (some t) w w.step :=
  World.follows_step h.coherent hc fun l hl s => by
    obtain ⟨r, path, hj⟩ := (h.stage t op k (position?_of_working hc)).loadsOf l hl
    simp [hj]

/-- Only the load of a site leaves events about it. -/
theorem loadEvents_emits (h : Sound w) (hc : w.control = .working t op k) {s : Nat}
    (hj : (w.tasks t).job ≠ .loads s) (n : Nat) : loadEvents s (op.emits n) = [] := by
  refine List.filter_eq_nil_iff.2 fun e he => ?_
  rw [Operation.serves_emits (fun p hp hmem => hj ?_) e he]
  · simp
  · exact ((h.stage t op k (position?_of_working hc)).allows hp).eq_loads hmem

theorem loadEvents_step (h : Sound w) (hc : w.control = .working t op k) {s : Nat}
    (hj : (w.tasks t).job ≠ .loads s) :
    loadEvents s w.step.events = loadEvents s w.events := by
  rw [events_step hc, loadEvents_append, h.loadEvents_emits hc hj, List.append_nil]

/-- A task that does not act stays in its stages, and a new one begins in one. -/
theorem stage_of_follows (h : Sound w) {actor : Option Nat} (hf : Follows actor w w')
    (others : ∀ t s, some t ≠ actor → (w.tasks t).job = .loads s →
      loadEvents s w'.events = loadEvents s w.events)
    (unloaded : ∀ s, (w.sites s).load = none → loadEvents s w'.events = [])
    (ht : some t ≠ actor) (hp : w'.position? t = some (op, k)) : w'.Stage t op k := by
  have hw := h.coherent
  have hg := hf.grows
  cases hq : w.position? t with
  | none =>
    obtain ⟨hlt, rfl, rfl⟩ := hf.newcomers t op k ht hq hp
    refine hf.coherent.stage_start t (fun s hj => unloaded s ?_) (hf.coherent.lt_of_position? hp)
    by_contra hl
    obtain ⟨l, hl⟩ := Option.ne_none_iff_exists'.1 hl
    have := hf.coherent.eq_of_loads hj ((hf.coherent.loads s l).1 ((hg.site s).load l hl)).2
    have := ((hw.loads s l).1 hl).1
    omega
  | some q =>
    obtain ⟨op₁, k₁⟩ := q
    obtain ⟨op', hp', hwoken⟩ := hf.others t op₁ k₁ ht hq
    obtain ⟨rfl, rfl⟩ := Prod.mk.inj (Option.some.inj (hp'.symm.trans hp))
    exact ((h.stage t op₁ k₁ hq).grows hw hg (hw.lt_of_position? hq) fun s hj =>
      others t s ht hj).woken hwoken

/-- A site that is ready stays loaded. -/
theorem ready_of_follows (h : Sound w) {actor : Option Nat} (hf : Follows actor w w')
    (ends : ∀ t, actor = some t → ∀ h, w.position? t = some (.give (.value h), []) →
      w'.outcome? t = some (.value h))
    {s : Nat} (hr : (w.sites s).state = .ready) : ∃ t h, (w'.tasks t).job = .loads s ∧
      (w'.position? t = some (.give (.value h), []) ∨ w'.outcome? t = some (.value h)) := by
  have hg := hf.grows
  obtain ⟨t, v, hj, hp⟩ := h.ready s hr
  have hj' : (w'.tasks t).job = .loads s :=
    (hg.job t (h.coherent.lt_of_job (by simp [hj]))).trans hj
  refine ⟨t, v, hj', ?_⟩
  obtain hp | ho := hp
  · by_cases ht : actor = some t
    · exact .inr (ends t ht v hp)
    obtain ⟨op', hp', hwoken⟩ := hf.others t _ _ (Ne.symm ht) hp
    cases hwoken with
    | same => exact .inl hp'
    | stopped _ hn => exact absurd hj' (hn s)
  · exact .inr (hg.outcome t _ ho)

/-- Functions are called and modules released after the load also in the next world, if the new
events are of that kind. -/
theorem after_of_follows (h : Sound w) {actor : Option Nat} (hf : Follows actor w w')
    (working : ∀ t, actor = some t → w.outcome? t = none)
    (events : ∀ s, (∀ t, actor = some t → (w.tasks t).job ≠ .loads s) →
      loadEvents s w'.events = loadEvents s w.events)
    {new : List Event} (record : w'.events = w.events ++ new)
    (called : ∀ s p call pre post, p ∈ [.use s, .unload s, .release s] →
      new = pre ++ .called p call :: post → post = [] ∧ w.Warrants s call p)
    {s : Nat} {p : Purpose} {call : EngineCall} {pre post : List Event}
    (hp : p ∈ [.use s, .unload s, .release s]) (he : w'.events = pre ++ .called p call :: post) :
    loadEvents s post = [] ∧ w'.Warrants s call p := by
  have hw := h.coherent
  have fresh : ∀ pre, new = pre ++ .called p call :: post →
      loadEvents s post = [] ∧ w'.Warrants s call p := by
    intro pre hnew
    obtain ⟨rfl, hwarrants⟩ := called s p call pre post hp hnew
    exact ⟨rfl, hwarrants.grows hw hf.grows⟩
  rw [record] at he
  -- Either the call is new, or the new events come after it.
  obtain ⟨es, -, hnew⟩ | ⟨es, hes, hpost⟩ := List.append_eq_append_iff.1 he
  · exact fresh _ hnew
  cases es with
  | nil => exact fresh [] hpost.symm
  | cons e es =>
    rw [List.cons_append] at hpost
    obtain ⟨rfl, rfl⟩ := List.cons.inj hpost
    obtain ⟨hpost, hwarrants⟩ := h.after s p call pre es hp hes
    have hevents := events s fun t ht hj => by
      obtain ⟨o, l, hl, ho⟩ := hwarrants.ended
      rw [← Option.some.inj ((hw.load_of_job hj).symm.trans hl), working t ht] at ho
      cases ho
    rw [record, loadEvents_append, List.append_right_eq_self] at hevents
    rw [loadEvents_append, hpost, hevents]
    exact ⟨rfl, hwarrants.grows hw hf.grows⟩

/-- A move keeps the world sound if what it does to the task at work, to sites and to the record of
events is sound. -/
theorem of_follows (h : Sound w) {actor : Option Nat} (hf : Follows actor w w')
    (working : ∀ t, actor = some t → w.outcome? t = none)
    (events : ∀ s, (∀ t, actor = some t → (w.tasks t).job ≠ .loads s) →
      loadEvents s w'.events = loadEvents s w.events)
    (stage : ∀ t, actor = some t → ∀ op k, w'.position? t = some (op, k) → w'.Stage t op k)
    (result : ∀ t, actor = some t → ∀ s o, (w'.tasks t).job = .loads s → w'.outcome? t = some o →
      w'.Loads s o)
    (kept : ∀ s h, (w'.sites s).imported = some h → (w.sites s).imported = some h ∨
      ∃ c, (w'.sites s).setup = some c ∧ c.isShared = false ∧ h ≠ .null ∧
        .ended (.ownImport s) (.importModule c.file) (.value h) ∈ w'.events)
    (ready : ∀ s, (w'.sites s).state = .ready → (w.sites s).state = .ready ∨
      ∃ t h, (w'.tasks t).job = .loads s ∧ w'.position? t = some (.give (.value h), []))
    (ends : ∀ t, actor = some t → ∀ h, w.position? t = some (.give (.value h), []) →
      w'.outcome? t = some (.value h))
    {new : List Event} (record : w'.events = w.events ++ new)
    (called : ∀ s p call pre post, p ∈ [.use s, .unload s, .release s] →
      new = pre ++ .called p call :: post → post = [] ∧ w.Warrants s call p) : Sound w' := by
  have hw := h.coherent
  have hg := hf.grows
  -- Only the load of a site leaves events about it.
  have others : ∀ t s, some t ≠ actor → (w.tasks t).job = .loads s →
      loadEvents s w'.events = loadEvents s w.events := fun t s ht hj =>
    events _ fun u hu hj' => ht (hw.eq_of_loads hj hj' ▸ hu.symm)
  have unloaded : ∀ s, (w.sites s).load = none → loadEvents s w'.events = [] := fun s hl => by
    rw [events _ fun u _ hj => ?_, h.unloaded _ hl]
    simp [hw.load_of_job hj] at hl
  refine ⟨hf.coherent, fun t op k hp => ?_, fun t s o hj ho => ?_, fun s hl => unloaded s ?_,
    fun s h' hi => ?_, fun s hr => ?_,
    fun s p call pre post => h.after_of_follows hf working events record called⟩
  case refine_1 =>
    by_cases ht : actor = some t
    · exact stage t ht op k hp
    · exact h.stage_of_follows hf others unloaded (Ne.symm ht) hp
  case refine_2 =>
    by_cases ht : actor = some t
    · exact result t ht s o hj ho
    have ho := hf.ends t o (Ne.symm ht) ho
    have hj : (w.tasks t).job = .loads s := hg.job t (hw.lt_of_outcome? ho) ▸ hj
    exact (h.result t s o hj ho).grows hw hg (others t s (Ne.symm ht) hj)
  case refine_3 =>
    by_contra hn
    obtain ⟨l, hl'⟩ := Option.ne_none_iff_exists'.1 hn
    simp [(hg.site s).load l hl'] at hl
  case refine_4 =>
    obtain hi | hi := kept s h' hi
    · obtain ⟨c, hc, hshared, hnull, hmem⟩ := h.kept s h' hi
      exact ⟨c, (hg.site s).setup c hc, hshared, hnull, hg.events.subset hmem⟩
    · exact hi
  case refine_5 =>
    obtain hr | ⟨t, v, hj, hp⟩ := ready s hr
    · exact h.ready_of_follows hf ends hr
    · exact ⟨t, v, hj, .inl hp⟩

/-- A step of the task at work. -/
theorem step_working (h : Sound w) (hc : w.control = .working t op k) : Sound w.step := by
  have hw := h.coherent
  have hf := h.follows_step hc
  have hpos := position?_of_working hc
  have hstage := h.stage t op k hpos
  have hfinish : ∀ {o}, op = .give o → k = [] → w.step = w.finish t o := by
    rintro o rfl rfl
    exact step_finish hc
  refine h.of_follows hf (fun u hu => ?_) (fun s hs => ?_) (fun u hu op₁ k₁ hp => ?_)
    (fun u hu s o hj ho => ?_) (fun s h' hi => ?_) (fun s hr => ?_) (fun u hu h' hp => ?_)
    (events_step hc) fun s p call pre post hp hnew => ?_
  case refine_1 =>
    cases hu
    exact hw.outcome?_of_position? hpos
  case refine_2 => exact h.loadEvents_step hc (hs t rfl)
  case refine_3 =>
    cases hu
    obtain ⟨o, ho, hk⟩ | ⟨op', k', hp', hs⟩ := hstage.step hw hc hf.grows
    · rw [hfinish ho hk, position?_finish] at hp
      cases hp
    · obtain ⟨rfl, rfl⟩ := Prod.mk.inj (Option.some.inj (hp'.symm.trans hp))
      exact hs
  case refine_4 =>
    cases hu
    obtain ⟨o', rfl, rfl⟩ | ⟨op', k', hp', -⟩ := hstage.step hw hc hf.grows
    · have hj' : (w.tasks t).job = .loads s := hf.grows.job t (hw.atWork t _ _ hc).1 ▸ hj
      rw [hfinish rfl rfl, outcome?_finish] at ho
      cases ho
      refine (hstage.loads hj').grows hw hf.grows ?_
      rw [events_step hc, loadEvents_append]
      exact List.append_nil _
    · rw [hf.coherent.outcome?_of_position? hp'] at ho
      cases ho
  case refine_5 =>
    have hch := changes_step hc s
    generalize w.step.sites s = x at hch hi
    cases hch with
    | kept =>
      cases hi
      obtain ⟨-, c, hsetup, hn, hnull, hmem⟩ := hstage.of_keep
      exact .inr ⟨c, hsetup, hn, hnull, hf.grows.events.subset hmem⟩
    | released => cases hi
    | _ => exact .inl hi
  case refine_6 =>
    have hch := changes_step hc s
    generalize w.step.sites s = x at hch hr
    cases hch with
    | @loaded v h' k =>
      obtain ⟨hj, rfl⟩ := hstage.of_finishLoad
      exact .inr ⟨t, h', (hf.grows.job t (hw.atWork t _ _ hc).1).trans hj,
        position?_of_goOn (step_resume hc)⟩
    | disposed => cases hr
    | _ => exact .inl hr
  case refine_7 =>
    cases hu
    obtain ⟨rfl, rfl⟩ := Prod.mk.inj (Option.some.inj (hpos.symm.trans hp))
    rw [hfinish rfl rfl, outcome?_finish]
  case refine_8 =>
    obtain ⟨rfl, -, rfl⟩ := Operation.emits_eq_called hnew
    exact ⟨rfl, hstage.warrants hp⟩

/-- A move that no task makes. -/
theorem of_follows_none (h : Sound w) (hf : Follows none w w')
    (imported : ∀ s, (w'.sites s).imported = (w.sites s).imported)
    (ready : ∀ s, (w'.sites s).state = .ready → (w.sites s).state = .ready)
    {new : List Event} (record : w'.events = w.events ++ new)
    (renders : ∀ e ∈ new, ∃ s, e = .render s) : Sound w' := by
  have none_ : ∀ s, loadEvents s new = [] := fun s => List.filter_eq_nil_iff.2 fun e he => by
    obtain ⟨u, rfl⟩ := renders e he
    simp [Event.serves]
  refine h.of_follows hf (by simp) (fun s _ => ?_) (by simp) (by simp)
    (fun s v hi => .inl (imported s ▸ hi)) (fun s hr => .inl (ready s hr)) (by simp) record
    fun s p call pre post _ hnew => ?_
  · rw [record, loadEvents_append, none_, List.append_nil]
  · obtain ⟨u, hu⟩ := renders (.called p call) (by simp [hnew])
    cases hu

/-- A move keeps the world sound. -/
theorem make (h : Sound w) (m : Move) : Sound (w.make m) := by
  obtain ⟨t, op, k, rfl, hc⟩ | hm := w.working_or_aside m
  · exact h.step_working hc
  · obtain ⟨new, record, renders⟩ := events_make hm
    exact h.of_follows_none (hm.follows h.coherent) (imported_make hm) (fun s => ready_make hm)
      record renders

theorem course (h : Sound w) (ms : List Move) : Sound (w.course ms) := by
  induction ms generalizing w with
  | nil => exact h
  | cons m ms ih => exact ih (h.make m)

/-- A move is a step of the task at work, or has no actor. -/
theorem follows_move (h : Sound w) (m : Move) :
    (∃ t op k, m = .step ∧ w.control = .working t op k ∧ Follows (some t) w (w.make m)) ∨
      Follows none w (w.make m) := by
  obtain ⟨t, op, k, rfl, hc⟩ | hm := w.working_or_aside m
  · exact .inl ⟨t, op, k, rfl, hc, h.follows_step hc⟩
  · exact .inr (hm.follows h.coherent)

theorem grows_make (h : Sound w) (m : Move) : Grows w (w.make m) := by
  obtain ⟨_, _, _, -, -, hf⟩ | hf := h.follows_move m <;> exact hf.grows

/-- What a course never takes back. -/
theorem grows_course (h : Sound w) (ms : List Move) : Grows w (w.course ms) := by
  induction ms generalizing w with
  | nil => exact .refl w
  | cons m ms ih => exact (h.grows_make m).trans (ih (h.make m))

/-- Only the task for that loads a site. -/
theorem job_of_load {s : Nat} (h : Sound w) (hc : w.control = .working t (.load s) k) :
    (w.tasks t).job = .loads s := by
  obtain ⟨u, c, es, hj, -, -, hstage⟩ | ⟨r, path, -, hstage⟩ | ⟨call, -, hstage⟩ :=
    (h.stage t _ k (position?_of_working hc)).byJob
  · cases hstage with
    | start => exact hj
  · cases hstage
  · cases hstage with
    | plain hop => exact hop.elim
    | seeks hf hop => cases hop
    | unloads hop => cases hop

end Sound

/-- Nothing stands in a new world. -/
theorem sound_initial (hosts : Nat → SiteHost) (hostOf : Nat → Nat)
    (engine : EngineCall → Behaviour) : Sound (initial hosts hostOf engine) where
  coherent := ⟨fun _ _ => .refl _, nofun, nofun, fun _ _ h => ⟨[], by cases h; rfl⟩,
    fun _ _ => ⟨nofun, nofun⟩, nofun, nofun, nofun⟩
  stage _ _ _ h := by cases h
  result _ _ _ _ h := by cases h
  unloaded _ _ := rfl
  kept := nofun
  ready := nofun
  after _ _ _ pre post _ h := by simp [initial] at h

/-- **Every world of a course is sound.** -/
theorem sound_course (hosts : Nat → SiteHost) (hostOf : Nat → Nat)
    (engine : EngineCall → Behaviour) (ms : List Move) :
    Sound ((initial hosts hostOf engine).course ms) := (sound_initial hosts hostOf engine).course ms

end ScriptBundle.World
