import ScriptBundle.Proofs.Site.Line
/-!
# Nobody stands in line twice

A task that is ready is in the queue once, a task that waits for another is once among those who
wait for it, and no other task is in either: `World.Tidy`, which every move keeps (`Tidy.make`). So
the task at work stands in no line (`Tidy.of_active`), and stands at the end once it begins to wait.
-/

namespace ScriptBundle

/-- How often a task may be in the queue to be put to work. -/
def TaskStatus.queued : TaskStatus → Nat
  | .ready _ => 1
  | _ => 0

/-- How often a task may be among those who wait for a task. -/
def TaskStatus.waits (l : Nat) : TaskStatus → Nat
  | .awaiting l' => if l' = l then 1 else 0
  | _ => 0

namespace World

variable {w w' : World} {t : Nat} {op : Operation} {k : List Frame}

/-- A task is in the queue to be put to work only if it is ready, and among those who wait for a
task only if it does. Those who wait for a task are told only once it has ended. -/
structure Tidy (w : World) : Prop where
  work : ∀ t, w.works.count t ≤ (w.tasks t).status.queued
  waiter : ∀ l t, (w.tasks l).waiters.count t ≤ (w.tasks t).status.waits l
  emptied : ∀ l o, w.outcome? l = some o → (w.tasks l).waiters = []
  told : ∀ l t, .tell l t ∈ w.queue → ∃ o, w.outcome? l = some o

/-- A task changes, but nobody comes to wait for it. -/
theorem Tidy.of_put {x : Task} (h : Tidy w) (queue : w'.queue = w.queue)
    (tasks : w'.tasks = put w.tasks t x) (waiters : x.waiters.Sublist (w.tasks t).waiters)
    (work : w.works.count t ≤ x.status.queued)
    (waiter : ∀ l, (w.tasks l).waiters.count t ≤ x.status.waits l)
    (ended : ∀ o, x.status = .finished o ↔ (w.tasks t).status = .finished o) : Tidy w' := by
  have self : w'.tasks t = x := by rw [tasks, put_self]
  have other : ∀ u, u ≠ t → w'.tasks u = w.tasks u := fun u hu => by rw [tasks, put_of_ne _ _ hu]
  have fewer : ∀ l, (w'.tasks l).waiters.Sublist (w.tasks l).waiters := fun l => by
    obtain rfl | hl := eq_or_ne l t
    · rwa [self]
    · exact other l hl ▸ List.Sublist.refl _
  have outcome : ∀ l o, w'.outcome? l = some o ↔ w.outcome? l = some o := fun l o => by
    rw [outcome?_eq_some, outcome?_eq_some]
    obtain rfl | hl := eq_or_ne l t
    · rw [self]
      exact ended o
    · rw [other l hl]
  refine ⟨fun u => ?_, fun l u => ((fewer l).count_le u).trans ?_, fun l o ho => ?_,
    fun l u hmem => ?_⟩
  · rw [works_of_queue queue]
    obtain rfl | hu := eq_or_ne u t
    · rwa [self]
    · rw [other u hu]
      exact h.work u
  · obtain rfl | hu := eq_or_ne u t
    · rw [self]
      exact waiter l
    · rw [other u hu]
      exact h.waiter l u
  · exact List.sublist_nil.1 (h.emptied l o ((outcome l o).1 ho) ▸ fewer l)
  · obtain ⟨o, ho⟩ := h.told l u (queue ▸ hmem)
    exact ⟨o, (outcome l o).2 ho⟩

theorem Tidy.congr (h : Tidy w) (queue : w'.queue = w.queue) (tasks : w'.tasks = w.tasks) :
    Tidy w' := by
  have outcome : w'.outcome? = w.outcome? := funext fun l => outcome?_congr (by rw [tasks])
  constructor
  · rw [works_of_queue queue, tasks]
    exact h.work
  · rw [tasks]
    exact h.waiter
  · rw [outcome, tasks]
    exact h.emptied
  · rw [queue, outcome]
    exact h.told

theorem Tidy.enqueue (h : Tidy w) {cause : Wake} (ht : (w.tasks t).status = .ready cause)
    (hwork : w.works.count t = 0) : Tidy (w.enqueue (.work t)) := by
  have works : (w.enqueue (.work t)).works = w.works ++ [t] := works_of_work rfl
  refine ⟨fun u => ?_, h.waiter, h.emptied, fun l u hmem => ?_⟩
  · rw [works, List.count_append]
    change _ ≤ (w.tasks u).status.queued
    obtain rfl | hu := eq_or_ne u t
    · rw [hwork, ht]
      simp [TaskStatus.queued]
    · rw [List.count_singleton, if_neg (by simpa using Ne.symm hu)]
      exact h.work u
  · obtain hmem | hmem := List.mem_append.1 hmem
    · exact h.told l u hmem
    · cases List.mem_singleton.1 hmem

theorem Tidy.drop (h : Tidy w) {item : Ready} {rest : List Ready} (hq : w.queue = item :: rest) :
    Tidy { w with queue := rest } := by
  have works : (World.works { w with queue := rest }).Sublist w.works := by
    rw [World.works, World.works, hq]
    exact (List.sublist_cons_self _ _).filterMap _
  refine ⟨fun t => (works.count_le t).trans (h.work t), h.waiter, h.emptied, fun l t hmem => ?_⟩
  exact h.told l t (hq ▸ List.mem_cons_of_mem _ hmem)

/-- A task that waits at a gate, or is not among those who wait any more, is put into the queue. -/
theorem Tidy.wake (h : Tidy w) (cause : Wake) (hst : (∃ g p c, (w.tasks t).status = .atGate g p c) ∨
    ∃ l, (w.tasks t).status = .awaiting l ∧ t ∉ (w.tasks l).waiters) : Tidy (w.wake t cause) := by
  have hwork : w.works.count t = 0 := by
    have hle := h.work t
    obtain ⟨g, p, c, hst⟩ | ⟨l, hst, -⟩ := hst <;> rw [hst] at hle <;> exact Nat.le_zero.1 hle
  have hwaiter : ∀ l, (w.tasks l).waiters.count t = 0 := fun l => by
    have hle := h.waiter l t
    obtain ⟨g, p, c, hst⟩ | ⟨l', hst, hmem⟩ := hst <;> rw [hst] at hle
    · exact Nat.le_zero.1 hle
    · obtain rfl | hl := eq_or_ne l' l
      · exact List.count_eq_zero.2 hmem
      · rw [TaskStatus.waits, if_neg hl] at hle
        exact Nat.le_zero.1 hle
  have hput : Tidy (w.updateTask t fun x => { x with status := .ready cause }) := by
    refine h.of_put rfl rfl (List.Sublist.refl _) (by simp [hwork]) (by simp [hwaiter])
      fun o => ⟨nofun, fun ho => ?_⟩
    obtain ⟨g, p, c, hst⟩ | ⟨l, hst, -⟩ := hst <;> cases hst.symm.trans ho
  exact hput.enqueue (congrArg Task.status (put_self ..)) hwork

theorem Tidy.spawn (hw : Coherent w) (h : Tidy w) (job : Job) : Tidy (w.spawn job) := by
  have idle : (w.tasks w.taskCount).status = .active := (hw.unspawned _ (le_refl _)).status
  have hwork : w.works.count w.taskCount = 0 := by
    have hle := h.work w.taskCount
    rw [idle] at hle
    exact Nat.le_zero.1 hle
  have hwaiter : ∀ l, (w.tasks l).waiters.count w.taskCount = 0 := fun l => by
    have hle := h.waiter l w.taskCount
    rw [idle] at hle
    exact Nat.le_zero.1 hle
  have hput : Tidy { w with
      tasks := put w.tasks w.taskCount { status := .ready .start, job := job }
      taskCount := w.taskCount + 1 } :=
    h.of_put rfl rfl (List.nil_sublist _) (by simp [hwork]) (by simp [hwaiter])
      fun o => ⟨nofun, fun ho => by cases idle.symm.trans ho⟩
  exact hput.enqueue (congrArg Task.status (put_self ..)) hwork

/-- The task at work stands in no line. -/
theorem Tidy.of_active (h : Tidy w) (ht : (w.tasks t).status = .active) :
    w.works.count t = 0 ∧ ∀ l, (w.tasks l).waiters.count t = 0 := by
  refine ⟨Nat.le_zero.1 ?_, fun l => Nat.le_zero.1 ?_⟩
  · simpa only [ht, TaskStatus.queued] using h.work t
  · simpa only [ht, TaskStatus.waits] using h.waiter l t

theorem Tidy.cancel (h : Tidy w) (t : Nat) : Tidy (w.cancel t) := by
  have hwork := h.work t
  have hwaiter := fun l => h.waiter l t
  simp only [World.cancel]
  split
  next => exact h
  next => exact h
  next cause hst =>
    rw [hst] at hwork
    simp only [hst] at hwaiter
    refine h.of_put rfl rfl (List.Sublist.refl _) hwork hwaiter fun o => ?_
    simp [hst]
  next g p c hst =>
    have hstop : Tidy (World.updateTask { w with gates := put w.gates g ((w.gates g).erase t) } t
        fun x => { x with stopping := true }) :=
      Tidy.of_put (h.congr rfl rfl) rfl rfl (List.Sublist.refl _) hwork hwaiter fun o => Iff.rfl
    exact hstop.wake _ (.inl ⟨g, p, c, (congrArg Task.status (put_self ..)).trans hst⟩)
  next l hst =>
    have herase : Tidy (w.updateTask l fun x => { x with waiters := x.waiters.erase t }) :=
      h.of_put rfl rfl List.erase_sublist (h.work l) (fun l' => h.waiter l' l) fun o => Iff.rfl
    have hstop : Tidy ((w.updateTask l fun x =>
        { x with waiters := x.waiters.erase t }).updateTask t
          fun x => { x with stopping := true }) :=
      herase.of_put rfl rfl (List.Sublist.refl _) (herase.work t) (fun l' => herase.waiter l' t)
        fun o => Iff.rfl
    refine hstop.wake _ (.inr ⟨l, ?_, fun hmem => ?_⟩)
    · refine (congrArg Task.status (put_self ..)).trans ?_
      change (put w.tasks l _ t).status = _
      obtain hput | ⟨rfl, hput⟩ := put_eq_or w.tasks l _ t <;> rw [hput, ← hst]
    · -- Those who wait for a task do so once.
      have hle := hwaiter l
      rw [hst, TaskStatus.waits, if_pos rfl] at hle
      have herased : t ∈ (w.tasks l).waiters.erase t := by
        have hmem' := (waiters_updateTask (List.Sublist.refl _)).subset hmem
        change t ∈ (put w.tasks l _ l).waiters at hmem'
        rwa [put_self] at hmem'
      have hpos := List.count_pos_iff.2 herased
      rw [List.count_erase_self] at hpos
      omega

theorem Tidy.awaitTask (h : Tidy w) (ht : (w.tasks t).status = .active) {l : Nat}
    (hl : w.outcome? l = none) : Tidy (w.awaitTask t l k) := by
  obtain ⟨hwork, hwaiter⟩ := h.of_active ht
  have self := status_awaitTask (t := t) (k := k) hl
  have other := fun u (hu : u ≠ t) => status_awaitTask_of_ne (k := k) hl hu
  have waiters := fun m => waiters_awaitTask (t := t) (k := k) hl m
  have outcome : ∀ m o, (w.awaitTask t l k).outcome? m = some o → w.outcome? m = some o :=
    fun m o ho => by
      rw [outcome?_eq_some] at ho ⊢
      obtain rfl | hm := eq_or_ne m t
      · cases self.symm.trans ho
      · exact (other m hm).symm.trans ho
  have queue := queue_awaitTask (w := w) (t := t) (k := k) l
  refine ⟨fun u => ?_, fun m u => ?_, fun m o ho => ?_, fun m u hmem => ?_⟩
  · rw [works_of_queue queue]
    obtain rfl | hu := eq_or_ne u t
    · exact hwork.le.trans (Nat.zero_le _)
    · rw [other u hu]
      exact h.work u
  · rw [waiters]
    obtain rfl | hu := eq_or_ne u t
    · rw [self]
      split_ifs with hm
      · simp [TaskStatus.waits, hwaiter l, hm]
      · exact (hwaiter m).le.trans (Nat.zero_le _)
    · rw [other u hu]
      split_ifs with hm
      · rw [List.count_append, List.count_singleton, if_neg (by simpa using Ne.symm hu), hm]
        exact h.waiter l u
      · exact h.waiter m u
  · have ho' := outcome m o ho
    rw [waiters, if_neg, h.emptied m o ho']
    rintro rfl
    cases hl.symm.trans ho'
  · obtain ⟨o, ho⟩ := h.told m u (queue ▸ hmem)
    refine ⟨o, ?_⟩
    rw [outcome?_eq_some] at ho ⊢
    rw [other m, ho]
    rintro rfl
    cases ht.symm.trans ho

theorem Tidy.finish (h : Tidy w) (ht : (w.tasks t).status = .active) (o : Outcome) :
    Tidy (w.finish t o) := by
  obtain ⟨hwork, hwaiter⟩ := h.of_active ht
  have self : ((w.finish t o).tasks t).status = .finished o := congrArg Task.status (put_self ..)
  have other : ∀ u, u ≠ t → (w.finish t o).tasks u = w.tasks u := fun u hu => put_of_ne _ _ hu
  have waiters : ∀ m, ((w.finish t o).tasks m).waiters.Sublist (w.tasks m).waiters := fun m => by
    rw [waiters_finish]
    split_ifs
    · exact List.nil_sublist _
    · exact List.Sublist.refl _
  refine ⟨fun u => ?_, fun m u => ((waiters m).count_le u).trans ?_, fun m o' ho => ?_,
    fun m u hmem => ?_⟩
  · rw [works_finish]
    obtain rfl | hu := eq_or_ne u t
    · exact hwork.le.trans (Nat.zero_le _)
    · rw [other u hu]
      exact h.work u
  · obtain rfl | hu := eq_or_ne u t
    · exact (hwaiter m).le.trans (Nat.zero_le _)
    · rw [other u hu]
      exact h.waiter m u
  · rw [waiters_finish]
    split_ifs with hm
    · rfl
    · rw [outcome?_congr (w := w) (by rw [other m (Ne.symm hm)])] at ho
      exact h.emptied m o' ho
  · by_cases hm : m = t
    · exact ⟨o, hm ▸ outcome?_finish o⟩
    obtain ⟨forgets, queue, void⟩ := w.queue_finish (t := t) o
    rw [queue, List.mem_append, List.mem_append] at hmem
    obtain (hmem | hmem) | hmem := hmem
    · obtain ⟨o', ho⟩ := h.told m u hmem
      exact ⟨o', (outcome?_congr (by rw [other m hm])).trans ho⟩
    · obtain ⟨r, path, hr⟩ := void _ hmem
      cases hr
    · obtain ⟨u', -, hu⟩ := List.mem_map.1 hmem
      cases hu
      exact absurd rfl hm

theorem Tidy.step_working (hw : Coherent w) (h : Tidy w) (hc : w.control = .working t op k) :
    Tidy w.step := by
  have ht := (hw.atWork t op k hc).2
  have hturn := turn_step hc
  generalize w.step = w' at hturn
  cases hturn with
  | goesOn tasks count queue => exact h.congr queue tasks
  | spawns job tasks count queue => exact (h.spawn hw job).congr queue tasks
  | cancels l => exact (h.cancel l).congr rfl rfl
  | waits hl => exact h.awaitTask ht hl
  | atGate =>
    obtain ⟨hwork, hwaiter⟩ := h.of_active ht
    refine h.of_put rfl rfl (List.Sublist.refl _) (by simp [hwork]) (by simp [hwaiter])
      fun o => ⟨nofun, fun ho => ?_⟩
    cases ht.symm.trans ho
  | ends => exact h.finish ht _

theorem Tidy.step_idle (h : Tidy w) (hc : w.control = .idle) : Tidy w.step := by
  have hidles := idles_step hc
  generalize w.step = w' at hidles
  cases hidles with
  | rests => exact h
  | @works t cause rest hq hst =>
    have hdrop := h.drop hq
    have hwork : (World.works { w with queue := rest }).count t = 0 := by
      have hle := h.work t
      rw [hst, works_of_head hq, List.count_cons_self] at hle
      exact Nat.le_zero.1 (Nat.le_of_succ_le_succ hle)
    have hwaiter : ∀ l, (w.tasks l).waiters.count t = 0 := fun l => by
      have hle := h.waiter l t
      rw [hst] at hle
      exact Nat.le_zero.1 hle
    refine hdrop.of_put rfl rfl (List.Sublist.refl _) hwork.le (fun l => (hwaiter l).le)
      fun o => ⟨nofun, fun ho => ?_⟩
    cases hst.symm.trans ho
  | @tells l t o rest hq hst ho =>
    refine (h.drop hq).wake _ (.inr ⟨l, hst, ?_⟩)
    rw [h.emptied l o ho]
    exact List.not_mem_nil
  | forgets hq => exact (h.drop hq).congr rfl rfl
  | drops hq => exact h.drop hq

theorem Tidy.make (hw : Coherent w) (h : Tidy w) (m : Move) : Tidy (w.make m) := by
  by_cases hm : m = .step
  · subst hm
    cases hc : w.control with
    | idle => exact h.step_idle hc
    | working => exact h.step_working hw hc
  have hhappens := happens_make (w := w) hm
  generalize w.make m = w' at hhappens
  cases hhappens with
  | refused | unheld => exact h
  | attached | assigned | renders | behaves => exact h.congr rfl rfl
  | started calls => exact h.spawn hw _
  | opened g b =>
    exact openGate_keeps (motive := Tidy) (h.congr rfl rfl) fun v t p c ht hv =>
      hv.wake _ (.inl ⟨g, p, c, ht⟩)
  | cancels => exact h.cancel _

theorem tidy_initial (hosts : Nat → SiteHost) (hostOf : Nat → Nat)
    (engine : EngineCall → Behaviour) : Tidy (initial hosts hostOf engine) where
  work _ := Nat.zero_le _
  waiter _ _ := Nat.zero_le _
  emptied _ _ _ := rfl
  told _ _ := nofun

theorem tidy_course (hosts : Nat → SiteHost) (hostOf : Nat → Nat)
    (engine : EngineCall → Behaviour) (ms : List Move) :
    Tidy ((initial hosts hostOf engine).course ms) := by
  suffices ∀ w : World, Sound w → Tidy w → Tidy (w.course ms) from
    this _ (sound_initial hosts hostOf engine) (tidy_initial hosts hostOf engine)
  intro w hs h
  induction ms generalizing w with
  | nil => exact h
  | cons m ms ih => exact ih (w.make m) (hs.make m) (h.make hs.coherent m)

end World

end ScriptBundle
