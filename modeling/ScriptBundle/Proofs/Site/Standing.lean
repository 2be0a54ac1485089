import ScriptBundle.Proofs.Site.Moving
/-!
# Where tasks stand

A task that has not ended is about to do an operation with a stack of frames: `World.position?`. The
task at work has its position in the control, and any other in the task itself.

`World.Coherent` says that the parts of a world fit together, `World.Grows` what is never taken
back, and `World.Follows` what a move does to everything but the task at work: each other task stays
where it is or is woken, and new tasks are at their start.
-/

namespace ScriptBundle

/-! ## Positions -/

/-- What a task that is not at work is about to do, if it has not ended. -/
def Task.position? (x : Task) : Option (Operation × List Frame) :=
  match x.status with
  | .ready wake => some (wake.operation x.job, x.frames)
  | .atGate g p c => some (.follow p c (.gate g), x.frames)
  | .awaiting l => some (.await l, x.frames)
  | .active | .finished _ => none

/-- What a task does instead of an operation once it is asked to stop. -/
def Operation.interrupted : Operation → Operation
  | .follow p c _ => .follow p c (.reply .cancelled)
  | _ => .give .cancelled

/-- Whether an operation gives an outcome to the frames. -/
def Operation.gives : Operation → Bool
  | .give _ => true
  | _ => false

theorem Operation.give_or_not (op : Operation) : (∃ o, op = .give o) ∨ op.gives = false := by
  cases op with
  | give o => exact .inl ⟨o, rfl⟩
  | _ => exact .inr rfl

namespace World

/-- What a task is about to do, if it has not ended. -/
def position? (w : World) (t : Nat) : Option (Operation × List Frame) :=
  match w.control with
  | .working u op k => if u = t then some (op, k) else (w.tasks t).position?
  | .idle => (w.tasks t).position?

theorem position?_of_idle {w : World} (h : w.control = .idle) (t : Nat) :
    w.position? t = (w.tasks t).position? := by
  simp [position?, h]

theorem position?_of_working {w : World} {t : Nat} {op : Operation} {k : List Frame}
    (h : w.control = .working t op k) : w.position? t = some (op, k) := by
  simp [position?, h]

theorem position?_of_working_ne {w : World} {t u : Nat} {op : Operation} {k : List Frame}
    (h : w.control = .working t op k) (hu : u ≠ t) :
    w.position? u = (w.tasks u).position? := by
  simp [position?, h, hu.symm]

theorem outcome?_eq_some {w : World} {t : Nat} {o : Outcome} :
    w.outcome? t = some o ↔ (w.tasks t).status = .finished o := by
  unfold outcome?
  cases (w.tasks t).status <;> simp

theorem outcome?_congr {w w' : World} {t : Nat}
    (h : (w'.tasks t).status = (w.tasks t).status) : w'.outcome? t = w.outcome? t := by
  simp only [outcome?, h]

/-- Being asked to stop changes nothing but tasks, gates and the end of the queue. -/
theorem exists_cancel_eq (w : World) (u : Nat) : ∃ tasks gates more,
    w.cancel u = { w with tasks := tasks, gates := gates, queue := w.queue ++ more } := by
  rw [cancel]
  cases (w.tasks u).status with
  | finished | active => exact ⟨w.tasks, w.gates, [], by simp⟩
  | ready => exact ⟨_, w.gates, [], by simp only [List.append_nil]; rfl⟩
  | atGate => exact ⟨_, _, [.work u], rfl⟩
  | awaiting => exact ⟨_, w.gates, [.work u], rfl⟩

/-! ## Worlds that fit together -/

end World

/-- Two tasks stand in the same place and differ at most in who waits for them. -/
structure Task.Same (x y : Task) : Prop where
  status : y.status = x.status
  frames : y.frames = x.frames
  stopping : y.stopping = x.stopping
  job : y.job = x.job

theorem Task.Same.refl (x : Task) : x.Same x := ⟨rfl, rfl, rfl, rfl⟩

theorem Task.Same.position? {x y : Task} (h : x.Same y) : y.position? = x.position? := by
  simp only [Task.position?, h.status, h.frames, h.job]

/-- What is never taken back at a site. -/
structure Site.Grows (x y : Site) : Prop where
  host : y.host = x.host
  setup : ∀ c, x.setup = some c → y.setup = some c
  load : ∀ l, x.load = some l → y.load = some l
  /-- A site with parameters that is disposed stays so. -/
  retired : x.state = .disposed → x.setup.isSome → y.state = .disposed

/-- A site that has parameters takes no others, and has a handle. -/
def Site.Settled (x : Site) : Prop :=
  x.setup.isSome → x.initialized = true ∧ x.handle.isSome

theorem Site.Grows.refl (x : Site) : x.Grows x :=
  ⟨rfl, fun _ h => h, fun _ h => h, fun h _ => h⟩

theorem Site.Grows.trans {x y z : Site} (h : x.Grows y) (h' : y.Grows z) : x.Grows z where
  host := h'.host.trans h.host
  setup c hc := h'.setup c (h.setup c hc)
  load l hl := h'.load l (h.load l hl)
  retired hx hs := by
    obtain ⟨c, hc⟩ := Option.isSome_iff_exists.1 hs
    exact h'.retired (h.retired hx hs) (by simp [h.setup c hc])

namespace World

/-- The parts of a world fit together. -/
structure Coherent (w : World) : Prop where
  /-- Nothing stands behind the last task. -/
  unspawned : ∀ t, w.taskCount ≤ t → Task.Same {} (w.tasks t)
  /-- The task at work is a task and knows that it is at work. -/
  atWork : ∀ t op k, w.control = .working t op k →
    t < w.taskCount ∧ (w.tasks t).status = .active
  /-- A task starts without frames. -/
  starting : ∀ t, (w.tasks t).status = .ready .start → (w.tasks t).frames = []
  /-- What a host's task is for are calls. -/
  hosted : ∀ t op, (w.tasks t).job = .host op → ∃ calls, op = .inTurn calls
  /-- The task that loads a site is the one with that job. -/
  loads : ∀ s l, (w.sites s).load = some l ↔ l < w.taskCount ∧ (w.tasks l).job = .loads s
  /-- Only a site with parameters is loaded. -/
  configured : ∀ s l, (w.sites s).load = some l → (w.sites s).setup.isSome
  settled : ∀ s, (w.sites s).Settled
  /-- A registry remembers tasks that import. -/
  remembered : ∀ r path l, (path, l) ∈ w.registries r →
    l < w.taskCount ∧ (w.tasks l).job = .imports r path

/-- What is never taken back between two worlds. -/
structure Grows (w w' : World) : Prop where
  hosts : w'.hosts = w.hosts
  site : ∀ s, (w.sites s).Grows (w'.sites s)
  count : w.taskCount ≤ w'.taskCount
  job : ∀ t, t < w.taskCount → (w'.tasks t).job = (w.tasks t).job
  outcome : ∀ t o, w.outcome? t = some o → w'.outcome? t = some o
  stopping : ∀ t, (w.tasks t).stopping = true → (w'.tasks t).stopping = true
  events : w.events <+: w'.events

theorem Grows.refl (w : World) : Grows w w :=
  ⟨rfl, fun _ => .refl _, le_refl _, fun _ _ => rfl, fun _ _ h => h, fun _ h => h,
    List.prefix_refl _⟩

theorem Grows.trans {w₁ w₂ w₃ : World} (h : Grows w₁ w₂) (h' : Grows w₂ w₃) : Grows w₁ w₃ where
  hosts := h'.hosts.trans h.hosts
  site s := (h.site s).trans (h'.site s)
  count := Nat.le_trans h.count h'.count
  job t ht := (h'.job t (Nat.lt_of_lt_of_le ht h.count)).trans (h.job t ht)
  outcome t o ho := h'.outcome t o (h.outcome t o ho)
  stopping t ht := h'.stopping t (h.stopping t ht)
  events := h.events.trans h'.events

/-- What can happen to a task that is not at work: nothing, it is told an outcome, it passes a gate,
or it is asked to stop. -/
inductive Woken (w : World) (t : Nat) : Operation → Operation → Prop
  | same {op} : Woken w t op op
  | told {l o} : w.outcome? l = some o → Woken w t (.await l) (.give o)
  | passed {p c g b} : Woken w t (.follow p c (.gate g)) (.follow p c b)
  | stopped {op} : (w.tasks t).stopping = true → (∀ s, (w.tasks t).job ≠ .loads s) →
      Woken w t op op.interrupted

theorem Woken.of_tasks_eq {w w' : World} (h : w'.tasks = w.tasks) {t : Nat} {op op' : Operation}
    (hw : Woken w t op op') : Woken w' t op op' := by
  cases hw with
  | same => exact .same
  | told ho => exact .told (by rw [outcome?, h]; exact ho)
  | passed => exact .passed
  | stopped hs hj => exact .stopped (by rw [h, hs]) (by rw [h]; exact hj)

theorem Woken.grows {w w' : World} (h : Grows w w') {t : Nat} (ht : t < w.taskCount)
    {op op' : Operation} (hw : Woken w t op op') : Woken w' t op op' := by
  cases hw with
  | same => exact .same
  | told ho => exact .told (h.outcome _ _ ho)
  | passed => exact .passed
  | stopped hs hj => exact .stopped (h.stopping t hs) (by rw [h.job t ht]; exact hj)

theorem Woken.trans {w : World} {t : Nat} {a b c : Operation} (h : Woken w t a b)
    (h' : Woken w t b c) : Woken w t a c := by
  cases h with
  | same => exact h'
  | told ho =>
    cases h' with
    | same => exact .told ho
    | stopped hs hj => exact .stopped hs hj
  | passed =>
    cases h' with
    | same | passed => exact .passed
    | stopped hs hj => exact .stopped hs hj
  | stopped hs hj =>
    suffices c = a.interrupted by
      subst this
      exact .stopped hs hj
    cases a <;> cases h' <;> rfl

/-- What a move does apart from what the task at work, the actor, does itself. -/
structure Follows (actor : Option Nat) (w w' : World) : Prop where
  coherent : Coherent w'
  grows : Grows w w'
  /-- Other tasks stay where they are or are woken. -/
  others : ∀ u op k, some u ≠ actor → w.position? u = some (op, k) →
    ∃ op', w'.position? u = some (op', k) ∧ Woken w' u op op'
  /-- Other tasks that appear are at their start. -/
  newcomers : ∀ u op k, some u ≠ actor → w.position? u = none → w'.position? u = some (op, k) →
    w.taskCount ≤ u ∧ op = (w'.tasks u).job.operation ∧ k = []
  /-- Other tasks do not end. -/
  ends : ∀ u o, some u ≠ actor → w'.outcome? u = some o → w.outcome? u = some o

end World

end ScriptBundle
