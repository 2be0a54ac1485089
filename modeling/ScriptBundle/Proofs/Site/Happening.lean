import ScriptBundle.Proofs.Site.Stepping
/-!
# What a move records

Only calls to the engine and their ends are recorded by steps, and each by the task at work
(`events_step`); every other move records renders at most (`events_make`). The events about loading
a site and about releasing its module are picked out by their purposes.
-/

namespace ScriptBundle

/-- Whether an event is a call to the engine for one of the given purposes, or the end of one. -/
def Event.serves (ps : List Purpose) : Event → Bool
  | .render _ => false
  | .called p _ | .ended p _ _ => ps.contains p

/-- Whether an event is a call to the engine for a purpose. -/
def Event.calls (p : Purpose) : Event → Bool
  | .called p' _ => p' = p
  | .ended _ _ _ | .render _ => false

/-- The number of calls to the engine for a purpose. -/
def calls (p : Purpose) (es : List Event) : Nat := es.countP (Event.calls p)

@[simp] theorem calls_append (p : Purpose) (es es' : List Event) :
    calls p (es ++ es') = calls p es + calls p es' := List.countP_append

/-- The events about the import of a site and its call after loading. -/
def loadEvents (s : Nat) (es : List Event) : List Event :=
  es.filter (Event.serves [.ownImport s, .init s])

/-- The events about releasing the module of a site. -/
def releaseEvents (s : Nat) (es : List Event) : List Event :=
  es.filter (Event.serves [.unload s, .release s])

@[simp] theorem loadEvents_append (s : Nat) (es es' : List Event) :
    loadEvents s (es ++ es') = loadEvents s es ++ loadEvents s es' := List.filter_append ..

@[simp] theorem releaseEvents_append (s : Nat) (es es' : List Event) :
    releaseEvents s (es ++ es') = releaseEvents s es ++ releaseEvents s es' :=
  List.filter_append ..

theorem calls_filter_serves {p : Purpose} {ps : List Purpose} (hp : p ∈ ps) (es : List Event) :
    calls p (es.filter (Event.serves ps)) = calls p es := by
  rw [calls, calls, List.countP_filter]
  congr 1
  funext e
  cases e with
  | called p' c =>
    by_cases h : p' = p
    · simp [Event.calls, Event.serves, h, hp]
    · simp [Event.calls, h]
  | ended | render => simp [Event.calls]

/-- What an operation records when it is done, where `n` modules have been named before. -/
def Operation.emits (n : Nat) : Operation → List Event
  | .call p c => [.called p c]
  | .follow p c (.reply r) => [.ended p c (c.outcome n r)]
  | _ => []

/-- The only event of a step that is a call is the call itself. -/
theorem Operation.emits_eq_called {n : Nat} {op : Operation} {p : Purpose} {c : EngineCall}
    {pre post : List Event} (h : op.emits n = pre ++ .called p c :: post) :
    op = .call p c ∧ pre = [] ∧ post = [] := by
  cases op with
  | call p' c' =>
    obtain ⟨rfl, h⟩ | ⟨-, h⟩ := List.singleton_eq_append_iff.1 h
    · cases h
      exact ⟨rfl, rfl, rfl⟩
    · cases h
  | follow p' c' b =>
    cases b with
    | reply r =>
      obtain ⟨-, h⟩ | ⟨-, h⟩ := List.singleton_eq_append_iff.1 h <;> cases h
    | gate g => simp [emits] at h
  | _ => simp [emits] at h

/-- What a call to the engine that an operation makes or goes on with is for. -/
def Operation.purpose? : Operation → Option Purpose
  | .call p _ | .follow p _ _ => some p
  | _ => none

theorem Operation.serves_emits {n : Nat} {op : Operation} {ps : List Purpose}
    (h : ∀ p, op.purpose? = some p → p ∉ ps) : ∀ e ∈ op.emits n, e.serves ps = false := by
  intro e he
  cases op with
  | call p c =>
    rw [List.mem_singleton.1 he]
    simpa [Event.serves] using h p rfl
  | follow p c b =>
    cases b with
    | reply r =>
      rw [List.mem_singleton.1 he]
      simpa [Event.serves] using h p rfl
    | gate g => cases he
  | _ => cases he

namespace World

variable {w w' v : World} {t : Nat} {op op' : Operation} {k k' : List Frame}

/-! ## A step of the task at work -/

theorem events_cancel (u : Nat) : (w.cancel u).events = w.events := by
  obtain ⟨_, _, _, h⟩ := w.exists_cancel_eq u
  rw [h]

theorem Proceeds.events (h : w.Proceeds op k v op' k') :
    v.events = w.events ++ op.emits w.named := by
  have silent : w.events = w.events ++ [] := (List.append_nil _).symm
  cases h with
  | calls | answered => rfl
  | cancels => exact (events_cancel _).trans silent
  | yields h => cases h <;> exact silent
  | _ => exact silent

/-- A step of a task at work records what its operation emits. -/
theorem events_step (hc : w.control = .working t op k) :
    w.step.events = w.events ++ op.emits w.named := by
  have hworks := works_step hc
  generalize w.step = w' at hworks
  cases hworks with
  | goesOn h => exact h.events
  | waits hl =>
    rw [awaitTask_eq hl]
    exact (List.append_nil _).symm
  | atGate | ends => exact (List.append_nil _).symm

/-- A task that is to do something has not ended. -/
theorem Coherent.outcome?_of_position? (hw : Coherent w) {p : Operation × List Frame}
    (h : w.position? t = some p) : w.outcome? t = none := by
  cases ho : w.outcome? t with
  | none => rfl
  | some o =>
    rw [outcome?_eq_some] at ho
    rw [position?_eq_task rfl fun op k => hw.not_atWork (by simp [ho]) op k] at h
    simp [Task.position?, ho] at h

/-! ## Other moves -/

theorem events_step_idle (hc : w.control = .idle) : w.step.events = w.events := by
  have hidles := idles_step hc
  generalize w.step = w' at hidles
  cases hidles <;> rfl

theorem events_openGate (g : String) (b : Behaviour) : (w.openGate g b).events = w.events :=
  openGate_keeps (motive := fun v => v.events = w.events) rfl fun _ _ _ _ _ h => h

/-- A move that no task makes records renders at most. -/
theorem events_make {m : Move} (hm : w.Aside m) :
    ∃ es, (w.make m).events = w.events ++ es ∧ ∀ e ∈ es, ∃ s, e = .render s := by
  by_cases hstep : m = .step
  · subst hstep
    exact ⟨[], by rw [make, events_step_idle (hm rfl), List.append_nil], by simp⟩
  · have hhappens := happens_make (w := w) hstep
    generalize w.make m = w' at hhappens
    cases hhappens with
    | renders s => exact ⟨[.render s], rfl, by simp⟩
    | opened g b => exact ⟨[], by rw [events_openGate, List.append_nil], by simp⟩
    | cancels => exact ⟨[], by rw [events_cancel, List.append_nil], by simp⟩
    | _ => exact ⟨[], (List.append_nil _).symm, by simp⟩

end World

end ScriptBundle
