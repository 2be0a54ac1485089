import ScriptBundle.Proofs.Site.Soundness
import ScriptBundle.Proofs.Site.Turning
/-!
# Nobody is forgotten

A task that is active is at work, one that is ready is in the queue, and one that waits for a task
is known to that task, or to the queue once the task has ended: `World.Scheduled`. So when the queue
is empty and nothing is being done, whoever has not ended waits at a gate or for a task that has not
ended either. Every world of a course is scheduled (`scheduled_course`).
-/

namespace ScriptBundle.World

/-- A task is where it has to be in order to go on. -/
structure Attended (w : World) (t : Nat) : Prop where
  active : t < w.taskCount → (w.tasks t).status = .active → ∃ op k, w.control = .working t op k
  ready : ∀ wake, (w.tasks t).status = .ready wake → .work t ∈ w.queue
  awaits : ∀ l, (w.tasks t).status = .awaiting l → l < w.taskCount ∧
    (w.outcome? l = none → t ∈ (w.tasks l).waiters) ∧
      ∀ o, w.outcome? l = some o → .tell l t ∈ w.queue

/-- All tasks are where they have to be. -/
def Scheduled (w : World) : Prop := ∀ t, w.Attended t

variable {w w' : World} {t : Nat} {op : Operation} {k : List Frame}

/-- A change of one task keeps the world scheduled if it loses no other task. -/
theorem Scheduled.of_others (h : Scheduled w) (u : Nat) (self : w'.Attended u)
    (count : w.taskCount ≤ w'.taskCount)
    (newer : ∀ t, t ≠ u → t < w'.taskCount → t < w.taskCount)
    (status : ∀ t, t ≠ u → (w'.tasks t).status = (w.tasks t).status)
    (control : ∀ t op k, t ≠ u → w.control = .working t op k →
      ∃ op k, w'.control = .working t op k)
    (work : ∀ t, t ≠ u → .work t ∈ w.queue → .work t ∈ w'.queue)
    (tell : ∀ t l, t ≠ u → .tell l t ∈ w.queue → .tell l t ∈ w'.queue)
    (waiters : ∀ t l, t ≠ u → l < w.taskCount → w'.outcome? l = none →
      t ∈ (w.tasks l).waiters → t ∈ (w'.tasks l).waiters)
    (grows : ∀ l o, w.outcome? l = some o → w'.outcome? l = some o)
    (ends : ∀ l o, w.outcome? l = none → w'.outcome? l = some o →
      ∀ t ∈ (w.tasks l).waiters, .tell l t ∈ w'.queue) : Scheduled w' := by
  intro t
  by_cases ht : t = u
  · exact ht ▸ self
  refine ⟨fun hlt ha => ?_, fun wake hr => ?_, fun l hl => ?_⟩
  · obtain ⟨op, k, hc⟩ := (h t).active (newer t ht hlt) (status t ht ▸ ha)
    exact control t op k ht hc
  · exact work t ht ((h t).ready wake (status t ht ▸ hr))
  · obtain ⟨hlt, hnone, hsome⟩ := (h t).awaits l (status t ht ▸ hl)
    refine ⟨Nat.lt_of_lt_of_le hlt count, fun hn => waiters t l ht hlt hn (hnone ?_),
      fun o ho => ?_⟩
    · cases ho : w.outcome? l with
      | none => rfl
      | some o =>
        rw [grows l o ho] at hn
        cases hn
    · cases ho' : w.outcome? l with
      | none => exact ends l o ho' ho t (hnone ho')
      | some o' => exact tell t l ht (hsome o' ho')

/-- A change that leaves tasks and queue alone. -/
theorem Scheduled.congr (h : Scheduled w) (tasks : w'.tasks = w.tasks)
    (count : w'.taskCount = w.taskCount) (queue : w'.queue = w.queue)
    (control : ∀ t op k, w.control = .working t op k → ∃ op k, w'.control = .working t op k) :
    Scheduled w' := by
  have outcome : w'.outcome? = w.outcome? := by
    funext l
    simp only [outcome?, tasks]
  intro t
  refine ⟨fun hlt ha => ?_, fun wake hr => ?_, fun l hl => ?_⟩
  · obtain ⟨op, k, hc⟩ := (h t).active (count ▸ hlt) (tasks ▸ ha)
    exact control t op k hc
  · exact queue ▸ (h t).ready wake (tasks ▸ hr)
  · rw [count, outcome, tasks, queue]
    exact (h t).awaits l (tasks ▸ hl)

theorem Scheduled.goOn (h : Scheduled w) (hc : w.control = .working t op k) {v : World}
    (tasks : v.tasks = w.tasks) (count : v.taskCount = w.taskCount) (queue : v.queue = w.queue)
    (op' : Operation) (k' : List Frame) : Scheduled (v.goOn t op' k') := by
  refine h.congr tasks count queue fun u op₁ k₁ hu => ?_
  rw [hc] at hu
  cases hu
  exact ⟨op', k', rfl⟩

theorem Scheduled.spawn (hw : Coherent w) (h : Scheduled w) (job : Job) :
    Scheduled (w.spawn job) := by
  have self : (w.spawn job).tasks w.taskCount = { status := .ready .start, job := job } :=
    put_self ..
  have old : ∀ t, t ≠ w.taskCount → (w.spawn job).tasks t = w.tasks t := fun t ht =>
    put_of_ne _ _ ht
  have none_ : w.outcome? w.taskCount = none := by
    simp [outcome?, (hw.unspawned _ (Nat.le_refl _)).status]
  have outcome : (w.spawn job).outcome? = w.outcome? := by
    funext l
    by_cases hl : l = w.taskCount
    · rw [hl, none_]
      simp only [outcome?, self]
    · simp only [outcome?, old l hl]
  refine h.of_others w.taskCount ⟨fun _ ha => ?_, fun _ _ => ?_, fun l hl => ?_⟩
    (Nat.le_succ _) (fun t ht hlt => ?_) (fun t ht => by rw [old t ht])
    (fun t op k _ hc => ⟨op, k, hc⟩)
    (fun t _ h => List.mem_append_left _ h) (fun t l _ h => List.mem_append_left _ h)
    (fun t l _ hl _ hm => ?_) (fun l o ho => by rw [outcome, ho]) fun l o hn ho => ?_
  · rw [self] at ha
    cases ha
  · exact List.mem_append_right _ (List.mem_singleton.2 rfl)
  · rw [self] at hl
    cases hl
  · have hlt : t < w.taskCount + 1 := hlt
    omega
  · rwa [old l (Nat.ne_of_lt hl)]
  · rw [outcome, hn] at ho
    cases ho

theorem mem_waiters_put {f : Nat → Task} {u l t : Nat} {x : Task}
    (hx : t ∈ (f u).waiters → t ∈ x.waiters) (h : t ∈ (f l).waiters) :
    t ∈ (put f u x l).waiters := by
  by_cases hl : l = u
  · rw [hl, put_self]
    exact hx (hl ▸ h)
  · rwa [put_of_ne _ _ hl]

/-- A task that is not at work is put into the queue. -/
theorem Scheduled.rouse (h : Scheduled w) (u : Nat) (cause : Wake)
    (count : w'.taskCount = w.taskCount) (control : w'.control = w.control)
    (queue : ∀ r ∈ w.queue, r ∈ w'.queue ∨ ∃ l, r = .tell l u)
    (self : (w'.tasks u).status = .ready cause) (queued : .work u ∈ w'.queue)
    (running : w.outcome? u = none)
    (others : ∀ t, t ≠ u → (w'.tasks t).status = (w.tasks t).status)
    (waiters : ∀ t l, t ≠ u → t ∈ (w.tasks l).waiters → t ∈ (w'.tasks l).waiters) :
    Scheduled w' := by
  have outcome : w'.outcome? = w.outcome? := by
    funext l
    by_cases hl : l = u
    · rw [hl, running]
      simp only [outcome?, self]
    · exact outcome?_congr (others l hl)
  refine h.of_others u ⟨fun _ ha => ?_, fun _ _ => queued, fun l hl => ?_⟩
    (Nat.le_of_eq count.symm) (fun t _ hlt => count ▸ hlt) others
    (fun t op k _ hc => ⟨op, k, control.trans hc⟩) (fun t ht hm => ?_) (fun t l ht hm => ?_)
    (fun t l ht _ _ hm => waiters t l ht hm) (fun l o ho => by rw [outcome, ho]) fun l o hn ho => ?_
  · rw [self] at ha
    cases ha
  · rw [self] at hl
    cases hl
  · obtain hm | ⟨l, hl⟩ := queue _ hm
    · exact hm
    · cases hl
  · obtain hm | ⟨l', hl⟩ := queue _ hm
    · exact hm
    · cases hl
      exact absurd rfl ht
  · rw [outcome, hn] at ho
    cases ho

theorem Scheduled.wake (h : Scheduled w) {u : Nat} (cause : Wake) (hu : w.outcome? u = none) :
    Scheduled (w.wake u cause) := by
  have old : ∀ t, t ≠ u → (w.wake u cause).tasks t = w.tasks t := fun t ht => put_of_ne _ _ ht
  have self : (w.wake u cause).tasks u = { w.tasks u with status := .ready cause } := put_self ..
  exact h.rouse u cause rfl rfl
    (fun r hr => .inl (List.mem_append_left _ hr)) (by rw [self])
    (List.mem_append_right _ (List.mem_singleton.2 rfl)) hu (fun t ht => by rw [old t ht])
    fun t l _ hm => mem_waiters_put id hm

theorem waiters_cancel {u t l : Nat} (ht : t ≠ u) (h : t ∈ (w.tasks l).waiters) :
    t ∈ ((w.cancel u).tasks l).waiters := by
  simp only [World.cancel]
  split
  · exact h
  · exact h
  · exact mem_waiters_put id h
  · exact mem_waiters_put id (mem_waiters_put id h)
  · refine mem_waiters_put id (mem_waiters_put id (mem_waiters_put (fun h => ?_) h))
    exact (List.mem_erase_of_ne ht).2 h

theorem Scheduled.cancel (h : Scheduled w) (u : Nat) : Scheduled (w.cancel u) := by
  have other : ∀ t, t ≠ u → ((w.cancel u).tasks t).status = (w.tasks t).status :=
    fun t ht => (same_cancel ht).status
  have waiters : ∀ t l, t ≠ u → t ∈ (w.tasks l).waiters → t ∈ ((w.cancel u).tasks l).waiters :=
    fun t l => waiters_cancel
  cases hs : (w.tasks u).status with
  | finished _ | active => simpa only [World.cancel, hs] using h
  | ready wake =>
    refine h.rouse u wake.interrupted ?_ (control_cancel w u)
      (fun r hr => .inl ?_) ?_ ?_ (by simp only [outcome?, hs]) other waiters <;>
      simp only [World.cancel, hs, updateTask, put_self]
    · exact hr
    · exact (h u).ready wake hs
  | atGate g p c =>
    refine h.rouse u (.resumed p c (.reply .cancelled)) ?_ (control_cancel w u)
      (fun r hr => .inl ?_) ?_ ?_ (by simp only [outcome?, hs]) other waiters <;>
      simp only [World.cancel, hs, updateTask, World.wake, enqueue, put_self]
    · exact List.mem_append_left _ hr
    · exact List.mem_append_right _ (List.mem_singleton.2 rfl)
  | awaiting l =>
    refine h.rouse u (.told .cancelled) ?_ (control_cancel w u)
      (fun r hr => .inl ?_) ?_ ?_ (by simp only [outcome?, hs]) other waiters <;>
      simp only [World.cancel, hs, updateTask, World.wake, enqueue, put_self]
    · exact List.mem_append_left _ hr
    · exact List.mem_append_right _ (List.mem_singleton.2 rfl)

/-- The task at work waits for another. -/
theorem Scheduled.awaitTask (h : Scheduled w) (hc : w.control = .working t op k)
    (ht : w.outcome? t = none) {l : Nat} (hlt : l < w.taskCount) (hl : w.outcome? l = none) :
    Scheduled (w.awaitTask t l k) := by
  have hw' := awaitTask_eq (t := t) (k := k) hl
  have self := status_awaitTask (t := t) (k := k) hl
  have other := fun u (hu : u ≠ t) => status_awaitTask_of_ne (k := k) hl hu
  have waiters : ∀ u m, u ∈ (w.tasks m).waiters → u ∈ ((w.awaitTask t l k).tasks m).waiters :=
    fun u m hm => by
      rw [hw']
      exact mem_waiters_put id (mem_waiters_put (fun h => List.mem_append_left _ h) hm)
  have outcome : (w.awaitTask t l k).outcome? = w.outcome? := by
    funext u
    by_cases hu : u = t
    · rw [hu, ht]
      simp only [outcome?, self]
    · exact outcome?_congr (other u hu)
  have queue : (w.awaitTask t l k).queue = w.queue := by rw [hw']; rfl
  refine h.of_others t ⟨fun _ ha => ?_, fun _ hr => ?_, fun l' hl' => ?_⟩
    (by rw [hw']; exact Nat.le_refl _) (fun u _ hlt => by rw [hw'] at hlt; exact hlt) other
    (fun u op₁ k₁ hu hc' => ?_) (fun u _ hm => queue ▸ hm) (fun u m _ hm => queue ▸ hm)
    (fun u m _ _ _ hm => waiters u m hm) (fun m o ho => by rw [outcome, ho]) fun m o hn ho => ?_
  · rw [self] at ha
    cases ha
  · rw [self] at hr
    cases hr
  · rw [self] at hl'
    cases hl'
    refine ⟨by rw [hw']; exact hlt, fun _ => ?_, fun o ho => ?_⟩
    · rw [hw']
      refine mem_waiters_put id ?_
      dsimp only [updateTask]
      rw [put_self]
      exact List.mem_append_right _ (List.mem_singleton.2 rfl)
    · rw [outcome, hl] at ho
      cases ho
  · rw [hc] at hc'
    cases hc'
    exact absurd rfl hu
  · rw [outcome, hn] at ho
    cases ho

/-- The task at work waits at a gate. -/
theorem Scheduled.gate (h : Scheduled w) (hc : w.control = .working t op k)
    (ht : w.outcome? t = none) (p : Purpose) (c : EngineCall) (g : String) :
    Scheduled (w.follow t p c k (.gate g)) := by
  have self : ((w.follow t p c k (.gate g)).tasks t).status = .atGate g p c := by
    simp only [World.follow, updateTask, put_self]
  have other : ∀ u, u ≠ t → (w.follow t p c k (.gate g)).tasks u = w.tasks u :=
    fun u hu => put_of_ne _ _ hu
  have outcome : (w.follow t p c k (.gate g)).outcome? = w.outcome? := by
    funext u
    by_cases hu : u = t
    · rw [hu, ht]
      simp only [outcome?, self]
    · simp only [outcome?, other u hu]
  refine h.of_others t ⟨fun _ ha => ?_, fun _ hr => ?_, fun l hl => ?_⟩ (Nat.le_refl _)
    (fun u _ hlt => hlt) (fun u hu => by rw [other u hu]) (fun u op₁ k₁ hu hc' => ?_)
    (fun u _ hm => hm) (fun u m _ hm => hm) (fun u m _ _ _ hm => mem_waiters_put id hm)
    (fun m o ho => by rw [outcome, ho]) fun m o hn ho => ?_
  · rw [self] at ha
    cases ha
  · rw [self] at hr
    cases hr
  · rw [self] at hl
    cases hl
  · rw [hc] at hc'
    cases hc'
    exact absurd rfl hu
  · rw [outcome, hn] at ho
    cases ho

/-- The task at work ends. -/
theorem Scheduled.finish (h : Scheduled w) (hc : w.control = .working t op k)
    (ht : w.outcome? t = none) (o : Outcome) : Scheduled (w.finish t o) := by
  have self : (w.finish t o).tasks t = { w.tasks t with status := .finished o, waiters := [] } :=
    put_self ..
  have other : ∀ u, u ≠ t → (w.finish t o).tasks u = w.tasks u := fun u hu => put_of_ne _ _ hu
  have outcome : ∀ u, u ≠ t → (w.finish t o).outcome? u = w.outcome? u := fun u hu => by
    simp only [outcome?, other u hu]
  have queue : ∀ r ∈ w.queue, r ∈ (w.finish t o).queue := fun r hr =>
    List.mem_append_left _ (List.mem_append_left _ hr)
  refine h.of_others t ⟨fun _ ha => ?_, fun _ hr => ?_, fun l hl => ?_⟩ (Nat.le_refl _)
    (fun u _ hlt => hlt) (fun u hu => by rw [other u hu]) (fun u op₁ k₁ hu hc' => ?_)
    (fun u _ hm => queue _ hm) (fun u m _ hm => queue _ hm) (fun u m _ _ hn hm => ?_)
    (fun m o' ho => ?_) fun m o' hn ho => ?_
  · rw [self] at ha
    cases ha
  · rw [self] at hr
    cases hr
  · rw [self] at hl
    cases hl
  · rw [hc] at hc'
    cases hc'
    exact absurd rfl hu
  · have hm' : m ≠ t := fun e => by
      rw [e, outcome?_finish] at hn
      cases hn
    rwa [other m hm']
  · rw [outcome m fun e => ?_, ho]
    rw [e, ht] at ho
    cases ho
  · by_cases hm : m = t
    · intro u hu
      refine List.mem_append_right _ (List.mem_map.2 ⟨u, hm ▸ hu, ?_⟩)
      rw [hm]
    · rw [outcome m hm, hn] at ho
      cases ho

/-! ## Moves -/

/-- Steps of a task at work. -/
theorem Scheduled.step_working (hs : Sound w) (h : Scheduled w) (hc : w.control = .working t op k) :
    Scheduled w.step := by
  have hw := hs.coherent
  have ht := hw.outcome?_of_position? (position?_of_working hc)
  have hstage := hs.stage t op k (position?_of_working hc)
  have hturn := turn_step hc
  generalize w.step = w' at hturn
  cases hturn with
  | goesOn tasks count queue => exact h.goOn hc tasks count queue _ _
  | spawns job tasks count queue => exact (h.spawn hw job).goOn hc tasks count queue _ _
  | cancels l => exact (h.cancel l).goOn ((control_cancel w l).trans hc) rfl rfl rfl _ _
  | waits hl => exact h.awaitTask hc ht (hstage.await_lt hw) hl
  | atGate => exact h.gate hc ht _ _ _
  | ends => exact h.finish hc ht _

/-- An item of the queue that nobody needs is dropped. -/
theorem Scheduled.drop (h : Scheduled w) {r : Ready} {rest : List Ready} (hq : w.queue = r :: rest)
    (work : ∀ t, r = .work t → ∀ cause, (w.tasks t).status ≠ .ready cause)
    (tell : ∀ l t, r = .tell l t → (w.tasks t).status = .awaiting l → w.outcome? l = none) :
    Scheduled { w with queue := rest } := by
  intro t
  refine ⟨(h t).active, fun cause hr => ?_, fun l hl => ?_⟩
  · obtain hr' | hr' := List.mem_cons.1 (hq ▸ (h t).ready cause hr)
    · exact absurd hr (work t hr'.symm cause)
    · exact hr'
  · obtain ⟨hlt, hnone, hsome⟩ := (h t).awaits l hl
    refine ⟨hlt, hnone, fun o ho => ?_⟩
    obtain hr' | hr' := List.mem_cons.1 (hq ▸ hsome o ho)
    · have ho : w.outcome? l = some o := ho
      rw [tell l t hr'.symm hl] at ho
      cases ho
    · exact hr'

/-- The first task of the queue is put to work. -/
theorem Scheduled.startWork (h : Scheduled w) (hc : w.control = .idle) {rest : List Ready}
    (hq : w.queue = .work t :: rest) {cause : Wake} (hs : (w.tasks t).status = .ready cause) :
    Scheduled (({ w with queue := rest }.updateTask t fun x => { x with status := .active }).goOn t
      (cause.operation (w.tasks t).job) (w.tasks t).frames) := by
  set w' := World.goOn _ t (cause.operation (w.tasks t).job) (w.tasks t).frames with hw'
  have self : w'.tasks t = { w.tasks t with status := .active } := put_self ..
  have other : ∀ u, u ≠ t → w'.tasks u = w.tasks u := fun u hu => put_of_ne _ _ hu
  have outcome : w'.outcome? = w.outcome? := by
    funext u
    by_cases hu : u = t
    · simp only [hu, outcome?, self, hs]
    · simp only [outcome?, other u hu]
  have later : ∀ r ∈ w.queue, r ≠ .work t → r ∈ rest := fun r hr hne =>
    (List.mem_cons.1 (hq ▸ hr)).resolve_left hne
  refine h.of_others t ⟨fun _ _ => ⟨_, _, rfl⟩, fun _ hr => ?_, fun l hl => ?_⟩ (Nat.le_refl _)
    (fun u _ hlt => hlt) (fun u hu => by rw [other u hu])
    (fun u op k _ hc' => absurd (hc.symm.trans hc') (by simp))
    (fun u hu hm => later _ hm fun e => hu (Ready.work.inj e))
    (fun u m _ hm => later _ hm (by simp)) (fun u m _ _ _ hm => mem_waiters_put id hm)
    (fun m o ho => by rw [outcome, ho]) fun m o hn ho => ?_
  · rw [self] at hr
    cases hr
  · rw [self] at hl
    cases hl
  · rw [outcome, hn] at ho
    cases ho

/-- A task is told that the task it waits for has ended. -/
theorem Scheduled.tell (h : Scheduled w) {l u : Nat} {o : Outcome} {rest : List Ready}
    (hq : w.queue = .tell l u :: rest) (hs : (w.tasks u).status = .awaiting l) :
    Scheduled ({ w with queue := rest }.wake u (.told o)) := by
  have self : (({ w with queue := rest }.wake u (.told o)).tasks u).status = .ready (.told o) := by
    simp only [World.wake, enqueue, updateTask, put_self]
  refine h.rouse u (.told o) rfl rfl (fun r hr => ?_) self
    (List.mem_append_right _ (List.mem_singleton.2 rfl)) (by simp only [outcome?, hs])
    (fun t ht => ?_) fun t m _ hm => mem_waiters_put id hm
  · obtain rfl | hr := List.mem_cons.1 (hq ▸ hr)
    · exact .inr ⟨l, rfl⟩
    · exact .inl (List.mem_append_left _ hr)
  · simp only [World.wake, enqueue, updateTask, put_of_ne _ _ ht]

/-- The first item of the queue takes effect. -/
theorem Scheduled.step_idle (h : Scheduled w) (hc : w.control = .idle) : Scheduled w.step := by
  have hidles := idles_step hc
  generalize w.step = w' at hidles
  cases hidles with
  | rests => exact h
  | works hq hs => exact h.startWork hc hq hs
  | tells hq hs => exact h.tell hq hs
  | forgets hq =>
    have drop := h.drop hq (by simp) (by simp)
    exact drop.congr rfl rfl rfl fun t op k hc => ⟨op, k, hc⟩
  | drops hq work tell => exact h.drop hq work tell

theorem Scheduled.make (hs : Sound w) (h : Scheduled w) (m : Move) : Scheduled (w.make m) := by
  have same : ∀ {v : World}, v.tasks = w.tasks → v.taskCount = w.taskCount → v.queue = w.queue →
      v.control = w.control → Scheduled v := fun tasks count queue control =>
    h.congr tasks count queue fun t op k hc => ⟨op, k, control.trans hc⟩
  by_cases hm : m = .step
  · subst hm
    cases hc : w.control with
    | idle => exact h.step_idle hc
    | working t op k => exact h.step_working hs hc
  · have hhappens := happens_make (w := w) hm
    generalize w.make m = w' at hhappens
    cases hhappens with
    | started calls => exact h.spawn hs.coherent _
    | opened g b =>
      exact openGate_keeps (same rfl rfl rfl rfl) fun v t p c hs h =>
        h.wake _ (by simp only [outcome?, hs])
    | cancels => exact h.cancel _
    | _ => exact same rfl rfl rfl rfl

theorem Scheduled.course (hs : Sound w) (h : Scheduled w) (ms : List Move) :
    Scheduled (w.course ms) := by
  induction ms generalizing w with
  | nil => exact h
  | cons m ms ih => exact ih (hs.make m) (h.make hs m)

/-- **Every world of a course is scheduled.** -/
theorem scheduled_course (hosts : Nat → SiteHost) (hostOf : Nat → Nat)
    (engine : EngineCall → Behaviour) (ms : List Move) :
    Scheduled ((initial hosts hostOf engine).course ms) := by
  refine Scheduled.course (sound_initial hosts hostOf engine) (fun t => ?_) ms
  exact ⟨fun h => absurd h (Nat.not_lt_zero t), nofun, nofun⟩

end ScriptBundle.World
