import ScriptBundle.Proofs.Site.Soundness
import ScriptBundle.Proofs.Site.Turning
/-!
# Whom hosts stop

Tasks ask no others to stop than those that import for a registry. So a task of a host is asked to
stop only by the host itself (`stopping_course`).
-/

namespace ScriptBundle

namespace World

variable {w w' : World} {t : Nat} {op : Operation} {k : List Frame}

@[simp] theorem stopping_updateTask (w : World) (t : Nat) {f : Task → Task}
    (hf : ∀ x, (f x).stopping = x.stopping) (u : Nat) :
    ((w.updateTask t f).tasks u).stopping = (w.tasks u).stopping := by
  dsimp only [updateTask]
  obtain hu | ⟨rfl, hu⟩ := put_eq_or w.tasks t (f (w.tasks t)) u
  · rw [hu]
  · rw [hu, hf]

theorem stopping_spawn {job : Job} {u : Nat} (h : ((w.spawn job).tasks u).stopping = true) :
    (w.tasks u).stopping = true := by
  simp only [World.spawn] at h
  obtain hu | ⟨rfl, hu⟩ := put_eq_or w.tasks w.taskCount { status := .ready .start, job := job } u
  · rwa [hu] at h
  · rw [hu] at h
    cases h

@[simp] theorem stopping_wake (w : World) (t : Nat) (cause : Wake) (u : Nat) :
    ((w.wake t cause).tasks u).stopping = (w.tasks u).stopping := by
  simp [wake, enqueue]

/-- A step of the task at work asks a task to stop only if that imports for a registry. -/
theorem Sound.stopping_step (hs : Sound w) (hc : w.control = .working t op k) {u : Nat}
    (h : (w.step.tasks u).stopping = true) :
    (w.tasks u).stopping = true ∨ ∃ r path, (w.tasks u).job = .imports r path := by
  have hloads := (hs.stage t op k (position?_of_working hc)).loadsOf
  have hturn := turn_step hc
  generalize w.step = w' at hturn h
  cases hturn with
  | goesOn tasks =>
    simp only [goOn, tasks] at h
    exact .inl h
  | spawns job tasks =>
    simp only [goOn, tasks] at h
    exact .inl (stopping_spawn h)
  | cancels l hl =>
    by_cases hu : u = l
    · exact .inr (hu ▸ hloads l hl)
    · exact .inl ((same_cancel hu).stopping ▸ h)
  | waits hl =>
    exact .inl (by simpa [awaitTask_eq hl] using h)
  | atGate =>
    exact .inl (by simpa [World.follow] using h)
  | ends =>
    exact .inl (by simpa [finish] using h)

/-- Without a task at work, a step asks no task to stop. -/
theorem stopping_step_idle (hc : w.control = .idle) (u : Nat) :
    (w.step.tasks u).stopping = (w.tasks u).stopping := by
  have hidles := idles_step hc
  generalize w.step = w' at hidles
  cases hidles with
  | works | tells => simp [goOn]
  | rests | forgets | drops => rfl

theorem stopping_openGate (g : String) (b : Behaviour) (u : Nat) :
    ((w.openGate g b).tasks u).stopping = (w.tasks u).stopping :=
  openGate_keeps (motive := fun v => (v.tasks u).stopping = (w.tasks u).stopping) rfl
    fun v t _ _ _ h => (stopping_wake v t _ u).trans h

/-- A move of a host or the engine asks nobody to stop but a task that the host means to. -/
theorem stopping_make {m : Move} (hm : m ≠ .step) {u : Nat}
    (h : ((w.make m).tasks u).stopping = true) : (w.tasks u).stopping = true ∨ m = .cancel u := by
  have hhappens := happens_make (w := w) hm
  generalize w.make m = w' at hhappens h
  cases hhappens with
  | started calls => exact .inl (stopping_spawn h)
  | opened g b => exact .inl (stopping_openGate g b u ▸ h)
  | @cancels t =>
    by_cases hu : u = t
    · exact .inr (hu ▸ rfl)
    · exact .inl ((same_cancel hu).stopping ▸ h)
  | _ => exact .inl h

/-- A task of a host is asked to stop only by the host. -/
theorem stopping_course (hs : Sound w) {ms : List Move} {u : Nat} {op : Operation}
    (hj : ((w.course ms).tasks u).job = .host op)
    (h : ((w.course ms).tasks u).stopping = true) :
    (w.tasks u).stopping = true ∨ .cancel u ∈ ms := by
  induction ms generalizing w with
  | nil => exact .inl h
  | cons m ms ih =>
    obtain h' | hmem := ih (hs.make m) hj h
    · by_cases hm : m = .step
      · subst hm
        cases hc : w.control with
        | working t op k =>
          obtain h₀ | ⟨r, path, hi⟩ := hs.stopping_step hc h'
          · exact .inl h₀
          · have hlt : u < w.taskCount := hs.coherent.lt_of_job (by simp [hi])
            have hjob := (hs.grows_course (.step :: ms)).job u hlt
            rw [hj, hi] at hjob
            cases hjob
        | idle => exact .inl (stopping_step_idle hc u ▸ h')
      · obtain h₀ | rfl := stopping_make hm h'
        · exact .inl h₀
        · exact .inr List.mem_cons_self
    · exact .inr (List.mem_cons_of_mem _ hmem)

end World

end ScriptBundle
