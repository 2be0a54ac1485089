import ScriptBundle.Proofs.Site.Waiting
/-!
# The line for the end of a task

Whoever waits for a task goes on in the order in which they came, although it takes two moves to go
on: those who are put to work already stand in front, then come those who are yet to be told, and
then those who wait. Being told takes a task from the front of the second group to the back of the
first, so nobody changes places (`shortens_make`).
-/

namespace ScriptBundle

/-- The task that an item of the queue puts to work. -/
def Ready.work? : Ready → Option Nat
  | .work t => some t
  | .tell _ _ | .forget _ _ _ => none

/-- The task that an item of the queue tells of the end of a task. -/
def Ready.told? (l : Nat) : Ready → Option Nat
  | .tell l' t => if l' = l then some t else none
  | .work _ | .forget _ _ _ => none

namespace World

/-- The tasks that are to be put to work, in the order of the queue. -/
def works (w : World) : List Nat := w.queue.filterMap Ready.work?

/-- The tasks that stand in line for the end of a task, in the order in which they go on. -/
def line (w : World) (l : Nat) : List Nat :=
  w.works ++ w.queue.filterMap (Ready.told? l) ++ (w.tasks l).waiters

variable {w w' : World} {P : Nat → Bool} {l t x : Nat} {op : Operation} {k : List Frame}

/-- Of the tasks that are looked at, none stands in line that did not before, and those who stay
keep their order. -/
def Shortens (P : Nat → Bool) (l : Nat) (w w' : World) : Prop :=
  ((w'.line l).filter P).Sublist ((w.line l).filter P)

/-! ## Changes of the line -/

theorem Shortens.refl (w : World) : Shortens P l w w := List.Sublist.refl _

theorem Shortens.trans {v : World} (h : Shortens P l w v) (h' : Shortens P l v w') :
    Shortens P l w w' := List.Sublist.trans h' h

theorem waiters_updateTask {f : Task → Task}
    (h : (f (w.tasks t)).waiters.Sublist (w.tasks t).waiters) :
    ((w.updateTask t f).tasks l).waiters.Sublist (w.tasks l).waiters := by
  change (put w.tasks t (f (w.tasks t)) l).waiters.Sublist _
  obtain hput | ⟨rfl, hput⟩ := put_eq_or w.tasks t (f (w.tasks t)) l
  · exact hput ▸ List.Sublist.refl _
  · rw [hput]
    exact h

theorem works_of_queue (queue : w'.queue = w.queue) : w'.works = w.works := by
  rw [works, works, queue]

theorem works_of_work (queue : w'.queue = w.queue ++ [.work t]) : w'.works = w.works ++ [t] := by
  rw [works, works, queue, List.filterMap_append]
  rfl

theorem works_of_head {rest : List Ready} (hq : w.queue = .work t :: rest) :
    w.works = t :: World.works { w with queue := rest } := by
  rw [works, works, hq]
  rfl

theorem shortens_of_waiters (queue : w'.queue = w.queue)
    (waiters : (w'.tasks l).waiters.Sublist (w.tasks l).waiters) : Shortens P l w w' := by
  simp only [Shortens, line, queue, works_of_queue queue]
  exact (waiters.append_left _).filter P

theorem shortens_of_tasks (queue : w'.queue = w.queue) (tasks : w'.tasks = w.tasks) :
    Shortens P l w w' := by
  exact shortens_of_waiters queue (tasks ▸ List.Sublist.refl _)

theorem shortens_of_work (ht : P t = false) (queue : w'.queue = w.queue ++ [.work t])
    (waiters : (w'.tasks l).waiters.Sublist (w.tasks l).waiters) : Shortens P l w w' := by
  have tells : w'.queue.filterMap (Ready.told? l) = w.queue.filterMap (Ready.told? l) := by
    rw [queue, List.filterMap_append]
    exact List.append_nil _
  have skipped : [t].filter P = [] := by simp [ht]
  simp only [Shortens, line, works_of_work queue, tells, List.filter_append, skipped,
    List.append_nil]
  exact (waiters.filter P).append_left _

theorem shortens_of_drop {item : Ready} {rest : List Ready} (hq : w.queue = item :: rest)
    (queue : w'.queue = rest) (waiters : (w'.tasks l).waiters.Sublist (w.tasks l).waiters) :
    Shortens P l w w' := by
  have dropped : rest.Sublist (item :: rest) := List.sublist_cons_self item rest
  simp only [Shortens, line, works, queue, hq]
  exact (((dropped.filterMap _).append (dropped.filterMap _)).append waiters).filter P

theorem shortens_spawn (job : Job) (ht : P w.taskCount = false) :
    Shortens P l w (w.spawn job) := by
  refine shortens_of_work ht rfl ?_
  change ((w.updateTask w.taskCount fun _ =>
    { status := .ready .start, job := job }).tasks l).waiters.Sublist _
  exact waiters_updateTask (List.nil_sublist _)

theorem shortens_wake (ht : P t = false) (cause : Wake) : Shortens P l w (w.wake t cause) := by
  refine shortens_of_work ht rfl ?_
  change ((w.updateTask t fun x => { x with status := .ready cause }).tasks l).waiters.Sublist _
  exact waiters_updateTask (List.Sublist.refl _)

theorem shortens_cancel (ht : P t = false) : Shortens P l w (w.cancel t) := by
  simp only [cancel]
  split
  next => exact .refl w
  next => exact .refl w
  next =>
    refine shortens_of_waiters rfl ?_
    exact waiters_updateTask (List.Sublist.refl _)
  next =>
    refine Shortens.trans ?_ (shortens_wake ht _)
    refine shortens_of_waiters rfl ?_
    exact waiters_updateTask (List.Sublist.refl _)
  next =>
    refine Shortens.trans ?_ (shortens_wake ht _)
    refine shortens_of_waiters rfl ?_
    apply List.Sublist.trans (waiters_updateTask (List.Sublist.refl _))
    exact waiters_updateTask List.erase_sublist

theorem waiters_awaitTask {l' : Nat} (hl : w.outcome? l' = none) (l : Nat) :
    ((w.awaitTask t l' k).tasks l).waiters =
      if l = l' then (w.tasks l').waiters ++ [t] else (w.tasks l).waiters := by
  have added :
      (put w.tasks l' { w.tasks l' with waiters := (w.tasks l').waiters ++ [t] } l).waiters =
        if l = l' then (w.tasks l').waiters ++ [t] else (w.tasks l).waiters := by
    split_ifs with h
    · rw [h, put_self]
    · rw [put_of_ne _ _ h]
  rw [← added, awaitTask_eq hl]
  obtain rfl | h := eq_or_ne l t
  · simp only [updateTask, put_self]
  · simp only [updateTask, put_of_ne _ _ h]

theorem queue_awaitTask (l' : Nat) : (w.awaitTask t l' k).queue = w.queue := by
  simp only [awaitTask]
  split <;> rfl

/-- Whoever begins to wait stands at the end. -/
theorem line_awaitTask (hl : w.outcome? l = none) :
    (w.awaitTask t l k).line l = w.line l ++ [t] := by
  simp only [line, works_of_queue (queue_awaitTask l), queue_awaitTask, waiters_awaitTask hl,
    if_true, List.append_assoc]

theorem shortens_awaitTask (ht : P t = false) {l' : Nat} (hl : w.outcome? l' = none) :
    Shortens P l w (w.awaitTask t l' k) := by
  have waiters :
      ((w.awaitTask t l' k).tasks l).waiters.filter P = (w.tasks l).waiters.filter P := by
    rw [waiters_awaitTask hl]
    split_ifs with h
    · simp [h, ht]
    · rfl
  simp only [Shortens, line, works_of_queue (queue_awaitTask l'), queue_awaitTask,
    List.filter_append, waiters]
  exact List.Sublist.refl _

theorem queue_finish (o : Outcome) : ∃ forgets, (w.finish t o).queue =
      w.queue ++ forgets ++ (w.tasks t).waiters.map (Ready.tell t) ∧
    ∀ r ∈ forgets, ∃ registry path, r = .forget registry path t := by
  refine ⟨_, rfl, fun r hr => ?_⟩
  split at hr
  next registry path _ => exact ⟨registry, path, List.mem_singleton.1 hr⟩
  next => cases hr
  next => cases hr

theorem works_finish (o : Outcome) : (w.finish t o).works = w.works := by
  obtain ⟨forgets, queue, void⟩ := w.queue_finish (t := t) o
  have skipped : forgets.filterMap Ready.work? = [] := List.filterMap_eq_nil_iff.2 fun r hr => by
    obtain ⟨registry, path, rfl⟩ := void r hr
    rfl
  rw [works, queue, List.filterMap_append, List.filterMap_append, skipped]
  simp [works, List.filterMap_map, Function.comp_def, Ready.work?]

theorem waiters_finish (o : Outcome) :
    ((w.finish t o).tasks l).waiters = if t = l then [] else (w.tasks l).waiters := by
  change (put w.tasks t { w.tasks t with status := .finished o, waiters := [] } l).waiters = _
  split_ifs with ht
  · rw [ht, put_self]
  · rw [put_of_ne _ _ (Ne.symm ht)]

/-- A task that ends puts those who wait for it in front of those who come later. -/
theorem shortens_finish (o : Outcome) : Shortens P l w (w.finish t o) := by
  obtain ⟨forgets, queue, void⟩ := w.queue_finish (t := t) o
  have skipped : forgets.filterMap (Ready.told? l) = [] :=
    List.filterMap_eq_nil_iff.2 fun r hr => by
      obtain ⟨registry, path, rfl⟩ := void r hr
      rfl
  have tells : (w.finish t o).queue.filterMap (Ready.told? l) =
      w.queue.filterMap (Ready.told? l) ++ if t = l then (w.tasks t).waiters else [] := by
    rw [queue, List.filterMap_append, List.filterMap_append, skipped]
    split_ifs with ht <;> simp [List.filterMap_map, Function.comp_def, Ready.told?, ht]
  simp only [Shortens, line, works_finish, tells, waiters_finish]
  split_ifs with ht
  · simp [ht]
  · simp

/-- Being told of the end of a task does not change its line. Whoever is told of the end of another
task comes to stand in it. -/
theorem shortens_tell {l' : Nat} (cause : Wake) {rest : List Ready}
    (hq : w.queue = .tell l' t :: rest) (ht : l' = l ∨ P t = false) :
    Shortens P l w ({ w with queue := rest }.wake t cause) := by
  obtain rfl | ht := ht
  · have waiters : ((World.wake { w with queue := rest } t cause).tasks l').waiters.Sublist
        (w.tasks l').waiters := by
      change ((w.updateTask t fun x =>
        { x with status := .ready cause }).tasks l').waiters.Sublist _
      exact waiters_updateTask (List.Sublist.refl _)
    have works : (World.wake { w with queue := rest } t cause).works = w.works ++ [t] := by
      rw [works, works, hq, List.filterMap_cons_none rfl]
      exact List.filterMap_append
    have tells : w.queue.filterMap (Ready.told? l') =
        t :: (World.wake { w with queue := rest } t cause).queue.filterMap (Ready.told? l') := by
      simp [wake, enqueue, updateTask, hq, Ready.told?]
    simp only [Shortens, line, works, tells, List.append_assoc, List.cons_append]
    exact ((((waiters.append_left _).cons_cons t).append_left _)).filter P
  · have hdrop : Shortens P l w { w with queue := rest } :=
      shortens_of_drop hq rfl (List.Sublist.refl _)
    exact hdrop.trans (shortens_wake ht cause)

/-! ## Every move -/

/-- A task does not come to stand in the line for the end of another because of a move. -/
structure KeepsPlace (w : World) (m : Move) (l x : Nat) : Prop where
  older : x < w.taskCount
  /-- No registry imports by it, so it is not asked to stop when one is closed. -/
  kept : ∀ r path, (w.tasks x).job ≠ .imports r path
  /-- It waits for no other task. -/
  awaits : ∀ l', (w.tasks x).status = .awaiting l' → l' = l
  ungated : ∀ g p c, (w.tasks x).status ≠ .atGate g p c
  uncancelled : m = .cancel x → (w.tasks x).status = .active
  /-- It does not begin to wait. -/
  unjoined : m = .step → ∀ l' k, w.control ≠ .working x (.await l') k

theorem shortens_step (hs : Sound w) (hc : w.control = .working t op k)
    (hP : ∀ x, P x = true → w.KeepsPlace .step l x) : Shortens P l w w.step := by
  have off : ∀ x, ¬ w.KeepsPlace .step l x → P x = false := fun x hx => by
    by_contra h
    exact hx (hP x (by simpa using h))
  have hloads := (hs.stage t op k (position?_of_working hc)).loadsOf
  have hturn := turn_step hc
  generalize w.step = w' at hturn
  cases hturn with
  | goesOn tasks count queue => exact shortens_of_tasks queue tasks
  | spawns job tasks count queue =>
    have hspawn : Shortens P l w (w.spawn job) :=
      shortens_spawn job (off _ fun h => absurd h.older (lt_irrefl _))
    exact hspawn.trans (shortens_of_tasks queue tasks)
  | cancels l' hl =>
    obtain ⟨r, path, hj⟩ := hloads l' hl
    have hcancel : Shortens P l w (w.cancel l') := shortens_cancel (off _ fun h => h.kept r path hj)
    exact hcancel.trans (shortens_of_tasks rfl rfl)
  | waits hl => exact shortens_awaitTask (off _ fun h => h.unjoined rfl _ _ hc) hl
  | atGate =>
    refine shortens_of_waiters rfl ?_
    change ((w.updateTask t fun x => { x with status := .atGate _ _ _, frames := k }).tasks
      l).waiters.Sublist _
    exact waiters_updateTask (List.Sublist.refl _)
  | ends => exact shortens_finish _

theorem shortens_step_idle (hc : w.control = .idle)
    (hP : ∀ x, P x = true → w.KeepsPlace .step l x) : Shortens P l w w.step := by
  have hidles := idles_step hc
  generalize w.step = w' at hidles
  cases hidles with
  | rests => exact .refl w
  | @works t cause rest hq hst =>
    refine shortens_of_drop hq rfl ?_
    change ((w.updateTask t fun x => { x with status := .active }).tasks l).waiters.Sublist _
    exact waiters_updateTask (List.Sublist.refl _)
  | @tells l' t o rest hq hst ho =>
    apply shortens_tell _ hq
    cases hPt : P t with
    | true => exact .inl ((hP t hPt).awaits l' hst)
    | false => exact .inr rfl
  | forgets hq | drops hq => exact shortens_of_drop hq rfl (List.Sublist.refl _)

/-- A move changes the line for the end of a task only by those who do not keep their places. -/
theorem shortens_make (hs : Sound w) {m : Move}
    (hP : ∀ x, P x = true → w.KeepsPlace m l x) : Shortens P l w (w.make m) := by
  by_cases hm : m = .step
  · subst hm
    cases hc : w.control with
    | idle => exact shortens_step_idle hc hP
    | working => exact shortens_step hs hc hP
  have off : ∀ x, ¬ w.KeepsPlace m l x → P x = false := fun x hx => by
    by_contra h
    exact hx (hP x (by simpa using h))
  have hhappens := happens_make (w := w) hm
  generalize w.make m = w' at hhappens
  cases hhappens with
  | refused | unheld => exact .refl w
  | attached | assigned | renders | behaves => exact shortens_of_tasks rfl rfl
  | started calls => exact shortens_spawn _ (off _ fun h => absurd h.older (lt_irrefl _))
  | opened g b =>
    -- Those who are looked at do not wait at a gate, also after others were woken.
    refine (openGate_keeps (motive := fun v => Shortens P l w v ∧
      ∀ x, P x = true → ∀ g p c, (v.tasks x).status ≠ .atGate g p c)
      ⟨shortens_of_tasks rfl rfl, fun x hx => (hP x hx).ungated⟩ fun v t p c ht h => ?_).1
    have hPt : P t = false := by
      by_contra hne
      exact h.2 t (by simpa using hne) _ p c ht
    refine ⟨h.1.trans (shortens_wake hPt _), fun x hx g p c => ?_⟩
    have hne : x ≠ t := by
      rintro rfl
      cases hPt.symm.trans hx
    change (put v.tasks t _ x).status ≠ _
    rw [put_of_ne _ _ hne]
    exact h.2 x hx g p c
  | @cancels t op hj =>
    cases hPt : P t with
    | false => exact shortens_cancel hPt
    | true =>
      have hactive := (hP t hPt).uncancelled rfl
      simp only [cancel, hactive]
      exact .refl w

end World

end ScriptBundle
