import Mathlib.Tactic.Set
import ScriptBundle.Proofs.Site.Standing
/-!
# How a world follows another

The ways in which a world follows another in the sense of `World.Follows`: with no actor if sites
and registries change, a task is added (`AddsTask`) or put elsewhere, or one in the queue is put to
work, and with the task at work as the actor if that goes on or stops. What is put elsewhere, put to
work or stops is one task, and no other changes (`ChangesTask`).
-/

namespace ScriptBundle.World

/-! ## Moves that leave the control alone -/

variable {w w' : World}

theorem Coherent.of_same (hw : Coherent w) (count : w'.taskCount = w.taskCount)
    (control : w'.control = w.control) (sites : ∀ s, (w.sites s).Grows (w'.sites s))
    (settled : ∀ s, (w'.sites s).Settled) (load : ∀ s, (w'.sites s).load = (w.sites s).load)
    (registries : ∀ r, w'.registries r ⊆ w.registries r)
    (tasks : ∀ u, (w.tasks u).Same (w'.tasks u)) : Coherent w' where
  unspawned t ht := by
    have h := hw.unspawned t (count ▸ ht)
    have h' := tasks t
    exact ⟨h'.status.trans h.status, h'.frames.trans h.frames, h'.stopping.trans h.stopping,
      h'.job.trans h.job⟩
  atWork t op k h := by
    rw [count, (tasks t).status]
    exact hw.atWork t op k (control ▸ h)
  starting t h := by
    rw [(tasks t).frames]
    exact hw.starting t ((tasks t).status ▸ h)
  hosted t op h := hw.hosted t op ((tasks t).job ▸ h)
  loads s l := by
    rw [load, count, (tasks l).job]
    exact hw.loads s l
  configured s l h := by
    obtain ⟨c, hc⟩ := Option.isSome_iff_exists.1 (hw.configured s l (load s ▸ h))
    simp [(sites s).setup c hc]
  settled := settled
  remembered r path l h := by
    rw [count, (tasks l).job]
    exact hw.remembered r path l (registries r h)

theorem position?_congr (control : w'.control = w.control) {u : Nat}
    (task : (w.tasks u).Same (w'.tasks u)) : w'.position? u = w.position? u := by
  simp only [position?, control, task.position?]

theorem Coherent.not_atWork (hw : Coherent w) {u : Nat} (hu : (w.tasks u).status ≠ .active)
    (op : Operation) (k : List Frame) : w.control ≠ .working u op k :=
  fun h => hu (hw.atWork u op k h).2

theorem position?_eq_task (control : w'.control = w.control) {u : Nat}
    (hu : ∀ op k, w.control ≠ .working u op k) : w'.position? u = (w'.tasks u).position? := by
  cases hc : w.control with
  | idle => exact position?_of_idle (control.trans hc) u
  | working t op k =>
    refine position?_of_working_ne (control.trans hc) fun h => ?_
    exact hu op k (h ▸ hc)

theorem Coherent.position?_of_le (hw : Coherent w) {u : Nat} (hu : w.taskCount ≤ u) :
    w.position? u = none := by
  rw [position?_eq_task rfl fun op k h => absurd (hw.atWork u op k h).1 (Nat.not_lt.2 hu)]
  simp [Task.position?, (hw.unspawned u hu).status]

/-- A move that changes sites, events and registries, and no task. -/
theorem Follows.of_same (hw : Coherent w) (hosts : w'.hosts = w.hosts)
    (count : w'.taskCount = w.taskCount) (control : w'.control = w.control)
    (sites : ∀ s, (w.sites s).Grows (w'.sites s)) (settled : ∀ s, (w'.sites s).Settled)
    (load : ∀ s, (w'.sites s).load = (w.sites s).load)
    (registries : ∀ r, w'.registries r ⊆ w.registries r)
    (events : w.events <+: w'.events) (tasks : ∀ u, (w.tasks u).Same (w'.tasks u)) :
    Follows none w w' where
  coherent := hw.of_same count control sites settled load registries tasks
  grows :=
    { hosts := hosts
      site := sites
      count := Nat.le_of_eq count.symm
      job := fun t _ => (tasks t).job
      outcome := fun t o h => by rw [outcome?_congr (tasks t).status, h]
      stopping := fun t h => by rw [(tasks t).stopping, h]
      events := events }
  others u op k _ h := ⟨op, by rw [position?_congr control (tasks u), h], .same⟩
  newcomers u op k _ h h' := by simp [position?_congr control (tasks u), h] at h'
  ends u o _ h := by rwa [outcome?_congr (tasks u).status] at h

theorem Follows.trans {v : World} (h : Follows none w v) (h' : Follows none v w')
    (count : v.taskCount = w.taskCount) : Follows none w w' := by
  have none_ : ∀ u, w.position? u = none → v.position? u = none := fun u hu => by
    cases hp : v.position? u with
    | none => rfl
    | some p =>
      obtain ⟨op, k⟩ := p
      have := h.coherent.position?_of_le (count ▸ (h.newcomers u op k nofun hu hp).1)
      simp [hp] at this
  refine ⟨h'.coherent, h.grows.trans h'.grows, fun u op k hu hp => ?_, fun u op k hu hn hp => ?_,
    fun u o hu ho => h.ends u o hu (h'.ends u o hu ho)⟩
  · obtain ⟨op₁, hp₁, hwoken₁⟩ := h.others u op k hu hp
    obtain ⟨op₂, hp₂, hwoken₂⟩ := h'.others u op₁ k hu hp₁
    have hlt : u < v.taskCount := by
      by_contra hlt
      simp [h.coherent.position?_of_le (Nat.le_of_not_lt hlt)] at hp₁
    exact ⟨op₂, hp₂, (hwoken₁.grows h'.grows hlt).trans hwoken₂⟩
  · exact count ▸ h'.newcomers u op k hu (none_ u hn) hp

theorem Follows.refl (hw : Coherent w) : Follows none w w :=
  .of_same hw rfl rfl rfl (fun _ => .refl _) hw.settled (fun _ => rfl) (fun _ _ h => h)
    (List.prefix_refl _) fun _ => .refl _

/-- A site is changed. -/
theorem Follows.updateSite (hw : Coherent w) (s : Nat) (f : Site → Site)
    (grows : (w.sites s).Grows (f (w.sites s))) (settled : (f (w.sites s)).Settled)
    (load : (f (w.sites s)).load = (w.sites s).load) : Follows none w (w.updateSite s f) := by
  have at_ : ∀ u, (w.updateSite s f).sites u = w.sites u ∨
      u = s ∧ (w.updateSite s f).sites u = f (w.sites s) := put_eq_or _ _ _
  refine .of_same hw rfl rfl rfl (fun u => ?_) (fun u => ?_) (fun u => ?_) (fun _ _ h => h)
    (List.prefix_refl _) (fun _ => .refl _)
  · obtain h | ⟨rfl, h⟩ := at_ u <;> rw [h]
    · exact .refl _
    · exact grows
  · obtain h | ⟨rfl, h⟩ := at_ u <;> rw [h]
    · exact hw.settled u
    · exact settled
  · obtain h | ⟨rfl, h⟩ := at_ u <;> rw [h]
    exact load

/-! ## Moves that add a task -/

/-- A move that adds a task, and the site or the registry that it is for remembers it. -/
structure AddsTask (job : Job) (w w' : World) : Prop where
  tasks : w'.tasks = put w.tasks w.taskCount { status := .ready .start, job := job }
  count : w'.taskCount = w.taskCount + 1
  control : w'.control = w.control
  hosts : w'.hosts = w.hosts
  events : w'.events = w.events
  sites : ∀ s, (w.sites s).Grows (w'.sites s)
  settled : ∀ s, (w'.sites s).Settled
  load : ∀ s l, (w'.sites s).load = some l ↔
    (w.sites s).load = some l ∨ l = w.taskCount ∧ job = .loads s
  hosted : ∀ op, job = .host op → ∃ calls, op = .inTurn calls
  configured : ∀ s, job = .loads s → (w.sites s).setup.isSome
  registries : ∀ r path l, (path, l) ∈ w'.registries r →
    (path, l) ∈ w.registries r ∨ l = w.taskCount ∧ job = .imports r path

namespace AddsTask

variable {job : Job}

theorem task_of_lt (h : AddsTask job w w') {u : Nat} (hu : u < w.taskCount) :
    w'.tasks u = w.tasks u := by
  rw [h.tasks, put_of_ne _ _ (Nat.ne_of_lt hu)]

theorem task_of_ne (h : AddsTask job w w') {u : Nat} (hu : u ≠ w.taskCount) :
    w'.tasks u = w.tasks u := by
  rw [h.tasks, put_of_ne _ _ hu]

theorem newTask (h : AddsTask job w w') :
    w'.tasks w.taskCount = { status := .ready .start, job := job } := by
  rw [h.tasks, put_self]

theorem coherent (h : AddsTask job w w') (hw : Coherent w) : Coherent w' where
  unspawned t ht := by
    have hlt : w.taskCount + 1 ≤ t := h.count ▸ ht
    rw [h.task_of_ne (Nat.ne_of_gt hlt)]
    exact hw.unspawned t (Nat.le_of_lt hlt)
  atWork t op k hc := by
    obtain ⟨hlt, ht⟩ := hw.atWork t op k (h.control ▸ hc)
    rw [h.task_of_lt hlt, h.count]
    exact ⟨Nat.lt_succ_of_lt hlt, ht⟩
  starting t hs := by
    obtain rfl | ht := eq_or_ne t w.taskCount
    · rw [h.newTask]
    · rw [h.task_of_ne ht] at hs ⊢
      exact hw.starting t hs
  hosted t op hj := by
    obtain rfl | ht := eq_or_ne t w.taskCount
    · rw [h.newTask] at hj
      exact h.hosted op hj
    · rw [h.task_of_ne ht] at hj
      exact hw.hosted t op hj
  loads s l := by
    rw [h.load, hw.loads, h.count]
    constructor
    · rintro (⟨hl, hj⟩ | ⟨rfl, rfl⟩)
      · exact ⟨Nat.lt_succ_of_lt hl, by rw [h.task_of_lt hl, hj]⟩
      · exact ⟨Nat.lt_succ_self _, by rw [h.newTask]⟩
    · rintro ⟨hl, hj⟩
      obtain rfl | hl' := eq_or_ne l w.taskCount
      · rw [h.newTask] at hj
        exact .inr ⟨rfl, hj⟩
      · rw [h.task_of_ne hl'] at hj
        exact .inl ⟨by omega, hj⟩
  configured s l hl := by
    have hs : (w.sites s).setup.isSome := by
      obtain hl | ⟨-, hj⟩ := (h.load s l).1 hl
      · exact hw.configured s l hl
      · exact h.configured s hj
    obtain ⟨c, hc⟩ := Option.isSome_iff_exists.1 hs
    simp [(h.sites s).setup c hc]
  settled := h.settled
  remembered r path l hmem := by
    rw [h.count]
    obtain hmem | ⟨rfl, rfl⟩ := h.registries r path l hmem
    · obtain ⟨hl, hj⟩ := hw.remembered r path l hmem
      exact ⟨Nat.lt_succ_of_lt hl, by rw [h.task_of_lt hl, hj]⟩
    · exact ⟨Nat.lt_succ_self _, by rw [h.newTask]⟩

theorem outcome? (h : AddsTask job w w') (hw : Coherent w) (u : Nat) :
    w'.outcome? u = w.outcome? u := by
  obtain rfl | hu := eq_or_ne u w.taskCount
  · rw [World.outcome?, World.outcome?, h.newTask, (hw.unspawned _ (Nat.le_refl _)).status]
  · rw [World.outcome?, World.outcome?, h.task_of_ne hu]

theorem grows (h : AddsTask job w w') (hw : Coherent w) : Grows w w' where
  hosts := h.hosts
  site := h.sites
  count := by rw [h.count]; exact Nat.le_succ _
  job t ht := by rw [h.task_of_lt ht]
  outcome t o ho := by rw [h.outcome? hw, ho]
  stopping t ht := by
    obtain rfl | hne := eq_or_ne t w.taskCount
    · rw [(hw.unspawned _ (Nat.le_refl _)).stopping] at ht
      cases ht
    · rw [h.task_of_ne hne, ht]
  events := h.events ▸ List.prefix_refl _

theorem position?_of_ne (h : AddsTask job w w') {u : Nat} (hu : u ≠ w.taskCount) :
    w'.position? u = w.position? u :=
  position?_congr h.control (h.task_of_ne hu ▸ .refl _)

theorem follows (h : AddsTask job w w') (hw : Coherent w) : Follows none w w' where
  coherent := h.coherent hw
  grows := h.grows hw
  others u op k _ hp := by
    have hu : u ≠ w.taskCount := by
      rintro rfl
      rw [hw.position?_of_le (Nat.le_refl _)] at hp
      cases hp
    exact ⟨op, by rw [h.position?_of_ne hu, hp], .same⟩
  newcomers u op k _ hn hp := by
    obtain rfl | hu := eq_or_ne u w.taskCount
    · refine ⟨Nat.le_refl _, ?_⟩
      have hne : ∀ op k, w.control ≠ .working w.taskCount op k := fun op k hc =>
        absurd (hw.atWork _ op k hc).1 (Nat.lt_irrefl _)
      rw [position?_eq_task h.control hne, h.newTask] at hp
      rw [h.newTask]
      cases hp
      exact ⟨rfl, rfl⟩
    · rw [h.position?_of_ne hu, hn] at hp
      cases hp
  ends u o _ ho := by rwa [h.outcome? hw] at ho

end AddsTask

/-! ## Moves that change one task -/

/-- A move that changes one task and what is at work, and nothing else but the queue and who waits
for what. -/
structure ChangesTask (u : Nat) (w w' : World) : Prop where
  hosts : w'.hosts = w.hosts
  count : w'.taskCount = w.taskCount
  sites : w'.sites = w.sites
  registries : w'.registries = w.registries
  events : w'.events = w.events
  others : ∀ v, v ≠ u → (w.tasks v).Same (w'.tasks v)
  job : (w'.tasks u).job = (w.tasks u).job
  stopping : (w.tasks u).stopping = true → (w'.tasks u).stopping = true

namespace ChangesTask

variable {u : Nat}

/-- Another task takes the place of one, in tasks that differ from those before in who waits for
them at most. -/
theorem of_put {tasks : Nat → Task} {y : Task} (hosts : w'.hosts = w.hosts)
    (count : w'.taskCount = w.taskCount) (sites : w'.sites = w.sites)
    (registries : w'.registries = w.registries) (events : w'.events = w.events)
    (put : w'.tasks = put tasks u y) (same : ∀ v, (w.tasks v).Same (tasks v))
    (job : y.job = (w.tasks u).job)
    (stopping : (w.tasks u).stopping = true → y.stopping = true) : ChangesTask u w w' := by
  have self : w'.tasks u = y := by rw [put, put_self]
  refine ⟨hosts, count, sites, registries, events, fun v hv => ?_, by rw [self, job],
    fun hs => by rw [self, stopping hs]⟩
  rw [put, put_of_ne _ _ hv]
  exact same v

theorem jobs (h : ChangesTask u w w') (v : Nat) : (w'.tasks v).job = (w.tasks v).job := by
  obtain rfl | hv := eq_or_ne v u
  · exact h.job
  · exact (h.others v hv).job

theorem coherent (h : ChangesTask u w w') (hw : Coherent w) (hu : u < w.taskCount)
    (atWork : ∀ t op k, w'.control = .working t op k →
      t < w.taskCount ∧ (w'.tasks t).status = .active)
    (starting : (w'.tasks u).status = .ready .start → (w'.tasks u).frames = []) :
    Coherent w' where
  unspawned t ht := by
    have hle : w.taskCount ≤ t := h.count ▸ ht
    have ht := hw.unspawned t hle
    have ht' := h.others t (Nat.ne_of_gt (Nat.lt_of_lt_of_le hu hle))
    exact ⟨ht'.status.trans ht.status, ht'.frames.trans ht.frames, ht'.stopping.trans ht.stopping,
      ht'.job.trans ht.job⟩
  atWork t op k hc := h.count ▸ atWork t op k hc
  starting t hs := by
    obtain rfl | ht := eq_or_ne t u
    · exact starting hs
    · rw [(h.others t ht).frames]
      exact hw.starting t ((h.others t ht).status ▸ hs)
  hosted t op hj := hw.hosted t op (h.jobs t ▸ hj)
  loads s l := by rw [h.sites, h.count, h.jobs, hw.loads]
  configured s l hl := by
    rw [h.sites] at hl ⊢
    exact hw.configured s l hl
  settled := h.sites ▸ hw.settled
  remembered r path l hmem := by
    rw [h.count, h.jobs]
    exact hw.remembered r path l (h.registries ▸ hmem)

theorem grows (h : ChangesTask u w w')
    (outcome : ∀ o, w.outcome? u = some o → w'.outcome? u = some o) : Grows w w' where
  hosts := h.hosts
  site s := h.sites ▸ .refl _
  count := Nat.le_of_eq h.count.symm
  job t _ := h.jobs t
  outcome t o ho := by
    obtain rfl | ht := eq_or_ne t u
    · exact outcome o ho
    · rw [outcome?_congr (h.others t ht).status, ho]
  stopping t ht := by
    obtain rfl | hne := eq_or_ne t u
    · exact h.stopping ht
    · rw [(h.others t hne).stopping, ht]
  events := h.events ▸ List.prefix_refl _

end ChangesTask

theorem outcome?_of_position? {u : Nat} {p : Operation × List Frame}
    (h : (w.tasks u).position? = some p) : w.outcome? u = none := by
  rw [outcome?]
  cases hs : (w.tasks u).status with
  | finished o =>
    rw [Task.position?, hs] at h
    cases h
  | ready | active | atGate | awaiting => rfl

/-- A task that is not at work is put elsewhere. -/
theorem Follows.rouse (hw : Coherent w) {u : Nat} (h : ChangesTask u w w')
    (control : w'.control = w.control) {y : Task} (self : w'.tasks u = y) {op op' : Operation}
    {k : List Frame} (stood : (w.tasks u).position? = some (op, k))
    (stands : y.position? = some (op', k)) (woken : Woken w' u op op')
    (starting : y.status ≠ .ready .start) : Follows none w w' := by
  subst self
  have active : (w.tasks u).status ≠ .active := fun h => by simp [Task.position?, h] at stood
  have ended := outcome?_of_position? stood
  have hu : u < w.taskCount := by
    by_contra hu
    exact active (hw.unspawned u (by omega)).status
  have pos : w.position? u = some (op, k) := by
    rw [position?_eq_task rfl (hw.not_atWork active), stood]
  have pos' : w'.position? u = some (op', k) := by
    rw [position?_eq_task control (hw.not_atWork active), stands]
  have others : ∀ v, v ≠ u → w'.position? v = w.position? v := fun v hv =>
    position?_congr control (h.others v hv)
  refine ⟨h.coherent hw hu (fun t op k hc => ?_) fun hs => absurd hs starting,
    h.grows fun o ho => ?_, fun v op₁ k₁ _ hp => ?_, fun v op₁ k₁ _ hn hp => ?_,
    fun v o _ ho => ?_⟩
  · obtain ⟨hlt, ht⟩ := hw.atWork t op k (control ▸ hc)
    rw [(h.others t fun e => active (e ▸ ht)).status]
    exact ⟨hlt, ht⟩
  · cases ended.symm.trans ho
  · obtain rfl | hv := eq_or_ne v u
    · cases pos.symm.trans hp
      exact ⟨op', pos', woken⟩
    · exact ⟨op₁, by rw [others v hv, hp], .same⟩
  · obtain rfl | hv := eq_or_ne v u
    · cases pos.symm.trans hn
    · rw [others v hv, hn] at hp
      cases hp
  · obtain rfl | hv := eq_or_ne v u
    · cases (outcome?_of_position? stands).symm.trans ho
    · rwa [outcome?_congr (h.others v hv).status] at ho

/-! ## Moves of the task at work -/

variable {v : World} {t : Nat} {op op' : Operation} {k k' : List Frame}

/-- The task at work goes on after a change of something else. -/
theorem Follows.goOn (h : Follows none w v) (hc : v.control = .working t op k)
    (op' : Operation) (k' : List Frame) :
    Follows (some t) w (v.goOn t op' k') := by
  have pos : ∀ u, some u ≠ some t → (v.goOn t op' k').position? u = v.position? u := fun u hu => by
    have hu : u ≠ t := fun e => hu (congrArg some e)
    rw [position?_of_working_ne hc hu, position?_of_working_ne (w := v.goOn t op' k') rfl hu]
    rfl
  refine ⟨?coherent, ?grows, ?others, ?newcomers, ?ends⟩
  case coherent =>
    obtain ⟨h₁, h₂, h₃, h₄, h₅, h₆, h₇, h₈⟩ := h.coherent
    refine ⟨h₁, fun u op₁ k₁ hu => ?_, h₃, h₄, h₅, h₆, h₇, h₈⟩
    obtain ⟨rfl, -, -⟩ := Control.working.inj hu
    exact h₂ t op k hc
  case grows =>
    obtain ⟨h₁, h₂, h₃, h₄, h₅, h₆, h₇⟩ := h.grows
    exact ⟨h₁, h₂, h₃, h₄, h₅, h₆, h₇⟩
  case others =>
    intro u op₁ k₁ hu hp
    obtain ⟨op₂, hp₂, hwoken⟩ := h.others u op₁ k₁ nofun hp
    have tasks : (v.goOn t op' k').tasks = v.tasks := rfl
    exact ⟨op₂, by rw [pos u hu, hp₂], hwoken.of_tasks_eq tasks⟩
  case newcomers =>
    intro u op₁ k₁ hu hn hp
    exact h.newcomers u op₁ k₁ nofun hn (pos u hu ▸ hp)
  case ends =>
    intro u o _ ho
    exact h.ends u o nofun ho

/-- The task at work stops working, because it waits or has ended. -/
theorem Follows.stopWork (hw : Coherent w) (hc : w.control = .working t op k)
    (h : ChangesTask t w w') (control : w'.control = .idle) {y : Task} (self : w'.tasks t = y)
    (starting : y.status ≠ .ready .start) : Follows (some t) w w' := by
  subst self
  obtain ⟨hlt, ht⟩ := hw.atWork t op k hc
  have pos : ∀ u, some u ≠ some t → w'.position? u = w.position? u := fun u hu => by
    have hu : u ≠ t := fun e => hu (congrArg some e)
    rw [position?_of_working_ne hc hu, position?_of_idle control, (h.others u hu).position?]
  refine ⟨h.coherent hw hlt (fun u op₁ k₁ hc' => ?_) fun hs => absurd hs starting,
    h.grows fun o ho => ?_, fun u op₁ k₁ hu hp => ⟨op₁, by rw [pos u hu, hp], .same⟩,
    fun u op₁ k₁ hu hn hp => ?_, fun u o hu ho => ?_⟩
  · cases control.symm.trans hc'
  · rw [outcome?_eq_some, ht] at ho
    cases ho
  · rw [pos u hu, hn] at hp
    cases hp
  · rwa [outcome?_congr (h.others u fun e => hu (congrArg some e)).status] at ho

/-- A task is put to work. -/
theorem Follows.startWork (hw : Coherent w) (hc : w.control = .idle) {cause : Wake}
    (ht : (w.tasks t).status = .ready cause) :
    Follows none w ((w.updateTask t fun x => { x with status := .active }).goOn t
      (cause.operation (w.tasks t).job) (w.tasks t).frames) := by
  set w' := (w.updateTask t fun x => { x with status := .active }).goOn t
    (cause.operation (w.tasks t).job) (w.tasks t).frames
  have hlt : t < w.taskCount := by
    by_contra hlt
    cases (hw.unspawned t (Nat.le_of_not_lt hlt)).status.symm.trans ht
  have self : w'.tasks t = { w.tasks t with status := .active } := put_self ..
  have other : ∀ u, u ≠ t → w'.tasks u = w.tasks u := fun u hu => put_of_ne _ _ hu
  have h : ChangesTask t w w' := .of_put rfl rfl rfl rfl rfl rfl (fun _ => .refl _) rfl id
  have pos : ∀ u, w'.position? u = w.position? u := fun u => by
    obtain rfl | hu := eq_or_ne u t
    · rw [position?_of_working (w := w') rfl, position?_of_idle hc]
      simp [Task.position?, ht]
    · rw [position?_of_working_ne (w := w') rfl hu, position?_of_idle hc, other u hu]
  have outcome : ∀ u, w'.outcome? u = w.outcome? u := fun u => by
    obtain rfl | hu := eq_or_ne u t
    · simp [World.outcome?, self, ht]
    · simp only [World.outcome?, other u hu]
  refine ⟨h.coherent hw hlt (fun u op k hc' => ?_) fun hs => ?_, h.grows fun o ho => ?_,
    fun u op k _ hp => ⟨op, by rw [pos, hp], .same⟩, fun u op k _ hn hp => ?_,
    fun u o _ ho => by rwa [outcome] at ho⟩
  · obtain ⟨rfl, -, -⟩ := Control.working.inj hc'
    exact ⟨hlt, by rw [self]⟩
  · rw [self] at hs
    cases hs
  · rw [outcome, ho]
  · rw [pos, hn] at hp
    cases hp

end ScriptBundle.World
