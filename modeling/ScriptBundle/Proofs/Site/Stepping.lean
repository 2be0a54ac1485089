import ScriptBundle.Proofs.Site.Following
import ScriptBundle.Proofs.Site.Proceeding
/-!
# What a move does to the other tasks

Every move follows from the world before in the sense of `World.Follows`: with the task at work as
the actor if the machine takes a step (`follows_step`), and with no actor otherwise
(`follows_step_idle`, `follows_make`).
-/

namespace ScriptBundle.World

variable {w w' v : World} {t : Nat} {op op' : Operation} {k k' : List Frame}

/-! ## Operations -/

theorem follows_record (hw : Coherent w) (e : Event) : Follows none w (w.record e) :=
  .of_same hw rfl rfl rfl (fun _ => .refl _) hw.settled (fun _ => rfl) (fun _ _ h => h)
    (List.prefix_append _ _) fun _ => .refl _

/-- The load of a site is started. -/
theorem follows_spawn_load (hw : Coherent w) {s : Nat} (hs : (w.sites s).setup.isSome)
    (hl : (w.sites s).load = none) :
    Follows none w ((w.spawn (.loads s)).updateSite s fun x =>
      { x with load := some w.taskCount }) := by
  have at_ := put_eq_or w.sites s { w.sites s with load := some w.taskCount }
  refine AddsTask.follows ⟨rfl, rfl, rfl, rfl, rfl, fun u => ?_, fun u => ?_, fun u l => ?_, nofun,
    fun u h => ?_, fun _ _ _ h => .inl h⟩ hw
  · obtain h | ⟨rfl, h⟩ := at_ u <;> simp only [updateSite, World.spawn, h]
    · exact .refl _
    · exact ⟨rfl, fun _ h => h, fun l h => by simp [hl] at h, fun h _ => h⟩
  · obtain h | ⟨rfl, h⟩ := at_ u <;> simp only [updateSite, World.spawn, h] <;>
      exact hw.settled u
  · by_cases hu : u = s
    · subst hu
      simp [updateSite, World.spawn, hl, eq_comm]
    · simp [updateSite, World.spawn, put_of_ne _ _ hu, Ne.symm hu]
  · cases h
    exact hs

/-- The import of a shared module is started. -/
theorem follows_spawn_import (hw : Coherent w) (r : Nat) (path : String) :
    Follows none w { w.spawn (.imports r path) with
      registries := put w.registries r (w.registries r ++ [(path, w.taskCount)]) } := by
  refine AddsTask.follows ⟨rfl, rfl, rfl, rfl, rfl, fun _ => .refl _, hw.settled,
    fun u l => by simp [World.spawn], nofun, nofun, fun r' path' l h => ?_⟩ hw
  dsimp only at h
  obtain h' | ⟨rfl, h'⟩ := put_eq_or w.registries r (w.registries r ++ [(path, w.taskCount)]) r' <;>
    rw [h'] at h
  · exact .inl h
  · rw [List.mem_append, List.mem_singleton, Prod.mk.injEq] at h
    obtain h | ⟨rfl, rfl⟩ := h
    · exact .inl h
    · exact .inr ⟨rfl, rfl⟩

/-- A task that waits goes on. -/
theorem follows_wake (hw : Coherent w) {u : Nat} {cause : Wake} {op' : Operation}
    (stood : (w.tasks u).position? = some (op', (w.tasks u).frames))
    (woken : Woken (w.wake u cause) u op' (cause.operation (w.tasks u).job))
    (starting : cause ≠ .start) : Follows none w (w.wake u cause) := by
  have changes : ChangesTask u w (w.wake u cause) :=
    .of_put rfl rfl rfl rfl rfl rfl (fun _ => .refl _) rfl id
  exact .rouse hw changes rfl (put_self ..) stood rfl woken
    fun h => starting (TaskStatus.ready.inj h)

theorem Coherent.interrupted_operation (hw : Coherent w) (u : Nat) :
    (w.tasks u).job.operation.interrupted = .give .cancelled := by
  cases h : (w.tasks u).job with
  | host op =>
    obtain ⟨calls, rfl⟩ := hw.hosted u op h
    rfl
  | loads | imports => rfl

/-- Being asked to stop changes no task but the one that is asked, except for who waits. -/
theorem same_cancel {u v : Nat} (hv : v ≠ u) : (w.tasks v).Same ((w.cancel u).tasks v) := by
  unfold cancel
  dsimp only
  split
  next => exact .refl _
  next => exact .refl _
  next =>
    simp only [updateTask, put_of_ne _ _ hv]
    exact .refl _
  next =>
    simp only [wake, enqueue, updateTask, put_of_ne _ _ hv]
    exact .refl _
  next l _ =>
    simp only [wake, enqueue, updateTask, put_of_ne _ _ hv]
    obtain h | ⟨rfl, h⟩ := put_eq_or w.tasks l
      { w.tasks l with waiters := (w.tasks l).waiters.erase u } v <;> rw [h]
    · exact .refl _
    · exact ⟨rfl, rfl, rfl, rfl⟩

/-- A task that is asked to stop and is not at work gives up what it was about to do. -/
theorem cancel_self (hw : Coherent w) {u : Nat} {op : Operation} {k : List Frame}
    (h : (w.tasks u).position? = some (op, k)) :
    ∃ y, (w.cancel u).tasks u = y ∧ y.job = (w.tasks u).job ∧ y.stopping = true ∧
      y.position? = some (op.interrupted, k) ∧ y.status ≠ .ready .start := by
  refine ⟨_, rfl, ?_⟩
  cases hs : (w.tasks u).status with
  | finished _ | active => simp [Task.position?, hs] at h
  | ready wake =>
    simp only [Task.position?, hs, Option.some.injEq, Prod.mk.injEq] at h
    obtain ⟨rfl, rfl⟩ := h
    simp only [cancel, hs, updateTask, put_self]
    refine ⟨trivial, trivial, ?_, ?_⟩
    · cases wake with
      | start => simp [Task.position?, Wake.interrupted, Wake.operation, hw.interrupted_operation]
      | resumed | told => rfl
    · cases wake <;> simp [Wake.interrupted]
  | atGate g p c =>
    simp only [Task.position?, hs, Option.some.injEq, Prod.mk.injEq] at h
    obtain ⟨rfl, rfl⟩ := h
    simp only [cancel, hs, updateTask, wake, enqueue, put_self]
    exact ⟨trivial, trivial, rfl, by simp⟩
  | awaiting l =>
    simp only [Task.position?, hs, Option.some.injEq, Prod.mk.injEq] at h
    obtain ⟨rfl, rfl⟩ := h
    simp only [cancel, hs, updateTask, wake, enqueue, put_self]
    obtain h | ⟨rfl, h⟩ := put_eq_or w.tasks l
      { w.tasks l with waiters := (w.tasks l).waiters.erase u } u <;> rw [h] <;>
      exact ⟨rfl, trivial, rfl, by simp⟩

/-- A task is asked to stop. -/
theorem follows_cancel (hw : Coherent w) {u : Nat} (hu : ∀ s, (w.tasks u).job ≠ .loads s) :
    Follows none w (w.cancel u) := by
  cases hp : (w.tasks u).position? with
  | none =>
    have h : w.cancel u = w := by
      cases hs : (w.tasks u).status <;> simp [Task.position?, hs] at hp <;> simp [cancel, hs]
    rw [h]
    exact .refl hw
  | some p =>
    obtain ⟨y, self, job, stopping, stands, starting⟩ := cancel_self hw hp
    subst self
    refine .rouse hw ⟨?_, ?_, ?_, ?_, ?_, fun v hv => same_cancel hv, job, fun _ => stopping⟩ ?_ rfl
      hp stands (.stopped stopping (job ▸ hu)) starting
    all_goals
      obtain ⟨_, _, _, h⟩ := w.exists_cancel_eq u
      rw [h]

/-- Another task that waits for a task changes no task in any other way. -/
theorem same_addWaiter (w : World) (t l v : Nat) :
    (w.tasks v).Same
      (put w.tasks l { w.tasks l with waiters := (w.tasks l).waiters ++ [t] } v) := by
  obtain h | ⟨rfl, h⟩ := put_eq_or w.tasks l
    { w.tasks l with waiters := (w.tasks l).waiters ++ [t] } v <;> rw [h]
  · exact .refl _
  · exact ⟨rfl, rfl, rfl, rfl⟩

theorem status_awaitTask {l : Nat} (hl : w.outcome? l = none) :
    ((w.awaitTask t l k).tasks t).status = .awaiting l := by
  rw [awaitTask_eq hl]
  exact congrArg Task.status (put_self ..)

theorem status_awaitTask_of_ne {l u : Nat} (hl : w.outcome? l = none) (hu : u ≠ t) :
    ((w.awaitTask t l k).tasks u).status = (w.tasks u).status := by
  simpa only [awaitTask_eq hl, updateTask, put_of_ne _ _ hu] using (same_addWaiter w t l u).status

theorem follows_awaitTask (hw : Coherent w) (hc : w.control = .working t op k) {l : Nat}
    (hl : w.outcome? l = none) (k' : List Frame) : Follows (some t) w (w.awaitTask t l k') := by
  have same := same_addWaiter w t l
  rw [awaitTask_eq hl]
  exact .stopWork hw hc (.of_put rfl rfl rfl rfl rfl rfl same (same t).job
    fun hs => (same t).stopping.trans hs) rfl (put_self ..) (by simp)

theorem follows_gate (hw : Coherent w) (hc : w.control = .working t op k) (p : Purpose)
    (c : EngineCall) (k' : List Frame) (g : String) :
    Follows (some t) w (w.follow t p c k' (.gate g)) :=
  .stopWork hw hc (.of_put rfl rfl rfl rfl rfl rfl (fun _ => .refl _) rfl id) rfl (put_self ..)
    (by simp)

theorem follows_finish (hw : Coherent w) (hc : w.control = .working t op k) (o : Outcome) :
    Follows (some t) w (w.finish t o) :=
  .stopWork hw hc (.of_put rfl rfl rfl rfl rfl rfl (fun _ => .refl _) rfl id) rfl (put_self ..)
    (by simp)

theorem control_cancel (w : World) (u : Nat) : (w.cancel u).control = w.control := by
  obtain ⟨_, _, _, h⟩ := w.exists_cancel_eq u
  rw [h]

/-- The tasks that an operation may ask to stop. -/
def loadsOf : Operation → List Nat
  | .closeLoads _ ls => ls
  | _ => []

theorem Proceeds.control (h : w.Proceeds op k v op' k') : v.control = w.control := by
  cases h with
  | cancels => exact control_cancel w _
  | _ => rfl

theorem Proceeds.follows (hw : Coherent w) (h : w.Proceeds op k v op' k')
    (hl : ∀ l ∈ loadsOf op, ∀ s, (w.tasks l).job ≠ .loads s) : Follows none w v := by
  cases h with
  | renders | keeps | unloads | releases =>
    exact .updateSite hw _ _ ⟨rfl, fun _ h => h, fun _ h => h, fun h _ => h⟩ (hw.settled _) rfl
  | disposes | disposesLoading =>
    exact .updateSite hw _ _ ⟨rfl, fun _ h => h, fun _ h => h, fun _ _ => rfl⟩ (hw.settled _) rfl
  | @finishes s =>
    refine .updateSite hw s _ ?_ ?_ ?_ <;> split_ifs with hr
    · exact ⟨rfl, fun _ h => h, fun _ h => h, fun h _ => by rw [hr] at h; cases h⟩
    · exact .refl _
    · exact hw.settled s
    · exact hw.settled s
    · rfl
    · rfl
  | startsLoad _ hs hnone => exact follows_spawn_load hw hs hnone
  | startsImport => exact follows_spawn_import hw _ _
  | @closes r =>
    refine .of_same hw rfl rfl rfl (fun _ => .refl _) hw.settled (fun _ => rfl) (fun r' e h => ?_)
      (List.prefix_refl _) fun _ => .refl _
    obtain h' | ⟨rfl, h'⟩ := put_eq_or w.registries r [] r' <;> simp only [h'] at h
    · exact h
    · cases h
  | cancels => exact follows_cancel hw (hl _ List.mem_cons_self)
  | calls => exact follows_record hw _
  | answered =>
    exact .of_same hw rfl rfl rfl (fun _ => .refl _) hw.settled (fun _ => rfl) (fun _ _ h => h)
      (List.prefix_append _ _) fun _ => .refl _
  | _ => exact .refl hw

/-! ## Steps and other moves -/

/-- The machine takes a step while a task is at work. -/
theorem follows_step (hw : Coherent w) (hc : w.control = .working t op k)
    (hl : ∀ l ∈ loadsOf op, ∀ s, (w.tasks l).job ≠ .loads s) : Follows (some t) w w.step := by
  have hworks := works_step hc
  generalize w.step = w' at hworks
  cases hworks with
  | goesOn h => exact (h.follows hw hl).goOn (h.control.trans hc) _ _
  | waits hnone => exact follows_awaitTask hw hc hnone _
  | atGate => exact follows_gate hw hc _ _ _ _
  | ends => exact follows_finish hw hc _

theorem Coherent.queue (hw : Coherent w) (q : List Ready) : Coherent { w with queue := q } :=
  hw.of_same rfl rfl (fun _ => .refl _) hw.settled (fun _ => rfl) (fun _ _ h => h)
    fun _ => .refl _

/-- What is in the queue does not matter. -/
theorem Follows.of_queue {q : List Ready} (h : Follows none { w with queue := q } w') :
    Follows none w w' := by
  obtain ⟨h₁, h₂, h₃, h₄, h₅, h₆, h₇⟩ := h.grows
  exact ⟨h.coherent, ⟨h₁, h₂, h₃, h₄, h₅, h₆, h₇⟩, h.others, h.newcomers, h.ends⟩

/-- The machine takes an item of the queue. -/
theorem follows_step_idle (hw : Coherent w) (hc : w.control = .idle) : Follows none w w.step := by
  have hidles := idles_step hc
  generalize w.step = w' at hidles
  cases hidles with
  | rests => exact .refl hw
  | @works t cause rest hq hs =>
    have hworks := Follows.startWork (hw.queue rest) hc hs
    exact hworks.of_queue
  | @tells l u o rest hq hs ho =>
    have hu : l ≠ u := fun h => by simp [outcome?, h, hs] at ho
    have hwoken : Woken ({ w with queue := rest }.wake u (.told o)) u (.await l) (.give o) := by
      refine .told ?_
      rw [← ho, outcome?, outcome?]
      simp [wake, enqueue, updateTask, put_of_ne _ _ hu]
    have htells := follows_wake (hw.queue rest) (by rw [Task.position?, hs]) hwoken (by simp)
    exact htells.of_queue
  | @forgets r l path o rest =>
    refine .of_same hw rfl rfl rfl (fun _ => .refl _) hw.settled (fun _ => rfl)
      (fun r' e h => ?_) (List.prefix_refl _) fun _ => .refl _
    obtain h' | ⟨rfl, h'⟩ := put_eq_or w.registries r
      ((w.registries r).filter fun e => e.1 ≠ path) r' <;> simp only [h'] at h
    · exact h
    · exact (List.mem_filter.1 h).1
  | drops => exact (Follows.refl (hw.queue _)).of_queue

theorem follows_attach (hw : Coherent w) {s : Nat} {h : RenderHandle} {x : Site}
    (hx : (w.sites s).attach h = .ok x) : Follows none w (w.updateSite s fun _ => x) := by
  simp only [Site.attach] at hx
  split_ifs at hx with hh hd
  cases hx
  have hs : (w.sites s).setup = none := by
    by_contra hs
    exact hh (hw.settled s (Option.isSome_iff_ne_none.2 hs)).2
  refine .updateSite hw s (fun _ => _) ⟨rfl, fun _ h => h, fun _ h => h, fun h _ => absurd h hd⟩
    ?_ rfl
  intro hs'
  simp [hs] at hs'

theorem Follows.trans_record {w₁ : World} (h : Follows none w w₁) (e : Event) :
    Follows none w (w₁.record e) := by
  obtain ⟨h₁, h₂, h₃, h₄, h₅, h₆, h₇⟩ := h.grows
  refine ⟨(follows_record h.coherent e).coherent,
    ⟨h₁, h₂, h₃, h₄, h₅, h₆, h₇.trans (List.prefix_append _ _)⟩, fun u op k hu hp => ?_,
    h.newcomers, h.ends⟩
  obtain ⟨op', hp', hwoken⟩ := h.others u op k hu hp
  have tasks : (w₁.record e).tasks = w₁.tasks := rfl
  exact ⟨op', hp', hwoken.of_tasks_eq tasks⟩

/-- Assigning parameters takes nothing back, and leaves alone a site that has some. -/
theorem grows_assignParameters {x : Site} (hx : x.Settled) (host : SiteHost)
    (pairs : List (String × Value)) :
    x.Grows (x.assignParameters host pairs).2 ∧ (x.assignParameters host pairs).2.Settled ∧
      (x.assignParameters host pairs).2.load = x.load := by
  simp only [Site.assignParameters]
  split_ifs with hi
  · exact ⟨.refl _, hx, rfl⟩
  · have hs : x.setup = none := by
      by_contra hs
      exact hi (hx (Option.isSome_iff_ne_none.2 hs)).1
    split
    next => exact ⟨.refl _, hx, rfl⟩
    next h hh =>
      split
      next =>
        refine ⟨⟨rfl, fun _ h => h, fun _ h => h, fun h _ => h⟩, fun h => ?_, rfl⟩
        simp [hs] at h
      next c _ =>
        refine ⟨⟨rfl, fun _ h => ?_, fun _ h => h, fun _ h => ?_⟩, fun _ => ⟨rfl, ?_⟩, rfl⟩
        · simp [hs] at h
        · simp [hs] at h
        · simp [hh]

theorem follows_assign (hw : Coherent w) (s : Nat) (pairs : List (String × Value)) :
    Follows none w
      (w.updateSite s fun x => (x.assignParameters (w.hosts x.host) pairs).2) := by
  obtain ⟨grows, settled, load⟩ :=
    grows_assignParameters (hw.settled s) (w.hosts (w.sites s).host) pairs
  exact .updateSite hw s (fun x => (x.assignParameters (w.hosts x.host) pairs).2) grows settled load

theorem follows_openGate (hw : Coherent w) (g : String) (b : Behaviour) :
    Follows none w (w.openGate g b) := by
  suffices Follows none w (w.openGate g b) ∧ (w.openGate g b).taskCount = w.taskCount from this.1
  refine openGate_keeps (motive := fun v => Follows none w v ∧ v.taskCount = w.taskCount)
    ⟨?_, rfl⟩ fun v t p c hs ⟨h, count⟩ => ⟨h.trans ?_ count, count⟩
  · exact .of_same hw rfl rfl rfl (fun _ => .refl _) hw.settled (fun _ => rfl) (fun _ _ h => h)
      (List.prefix_refl _) fun _ => .refl _
  · exact follows_wake h.coherent (by rw [Task.position?, hs]) .passed nofun

theorem follows_start (hw : Coherent w) (calls : List SiteCall) :
    Follows none w (w.spawn (.host (.inTurn calls))) := by
  refine AddsTask.follows ⟨rfl, rfl, rfl, rfl, rfl, fun _ => .refl _, hw.settled, fun u l => ?_,
    fun op h => ?_, nofun, fun _ _ _ h => .inl h⟩ hw
  · simp [World.spawn]
  · cases h
    exact ⟨calls, rfl⟩

/-- A move other than a step follows from the world before, with no actor. -/
theorem follows_make (hw : Coherent w) {m : Move} (hm : m ≠ .step) : Follows none w (w.make m) := by
  have hhappens := happens_make (w := w) hm
  generalize w.make m = w' at hhappens
  cases hhappens with
  | refused | unheld => exact .refl hw
  | attached hx => exact follows_attach hw hx
  | assigned s pairs => exact follows_assign hw s pairs
  | renders s pairs => exact (follows_assign hw s pairs).trans_record _
  | started calls => exact follows_start hw calls
  | opened g b => exact follows_openGate hw g b
  | behaves engine =>
    exact .of_same hw rfl rfl rfl (fun _ => .refl _) hw.settled (fun _ => rfl) (fun _ _ h => h)
      (List.prefix_refl _) fun _ => .refl _
  | cancels hj => exact follows_cancel hw fun s hs => by simp [hj] at hs

/-- A move that no task makes follows from the world before, with no actor. -/
theorem Aside.follows (hw : Coherent w) {m : Move} (hm : w.Aside m) :
    Follows none w (w.make m) := by
  by_cases h : m = .step
  · exact h ▸ follows_step_idle hw (hm h)
  · exact follows_make hw h

end ScriptBundle.World
