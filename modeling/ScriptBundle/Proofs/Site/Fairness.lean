import ScriptBundle.Proofs.Site.Failing
import ScriptBundle.Proofs.Site.Queueing
/-!
# What must happen

Along an endless sequence of moves in which the machine keeps taking steps, `Fair`, everyone in the
queue has a turn: others may be added behind it only, and every turn comes to an end. So a task that
gets the module of a site whose load fails is given an answer (`Fails.eventually_answers`).

The progress of such a task is measured by `World.Nears`: how far it has come, then the place in the
queue, then what is left of the turn at work.
-/

namespace ScriptBundle.World

/-! ## Endless courses -/

/-- The worlds of an endless sequence of moves. -/
def along (w : World) (moves : Nat → Move) : Nat → World
  | 0 => w
  | n + 1 => (w.along moves n).make (moves n)

/-- The machine keeps taking steps. -/
def Fair (moves : Nat → Move) : Prop := ∀ n, ∃ m, n ≤ m ∧ moves m = .step

theorem along_add (w : World) (moves : Nat → Move) (m n : Nat) :
    w.along moves (m + n) = (w.along moves m).along (fun i => moves (m + i)) n := by
  induction n with
  | zero => rfl
  | succ n ih => exact congrArg (fun v => v.make (moves (m + n))) ih

/-- What an endless sequence of moves leads to, a course leads to. -/
theorem along_eq_course (w : World) (moves : Nat → Move) (n : Nat) :
    w.along moves n = w.course ((List.range n).map moves) := by
  induction n with
  | zero => rfl
  | succ n ih =>
    rw [List.range_succ, List.map_append, course_append, along, ih]
    rfl

theorem Fair.shift {moves : Nat → Move} (h : Fair moves) (m : Nat) :
    Fair fun i => moves (m + i) := fun n => by
  obtain ⟨i, hi, hstep⟩ := h (m + n)
  exact ⟨i - m, by omega, by simpa [show m + (i - m) = i by omega] using hstep⟩

/-- What every step brings nearer, and no move takes away, is reached. -/
theorem eventually_of_nears {α : Type} [Preorder α] [WellFoundedLT α] (goal : World → Prop)
    (nears : α → World → Prop)
    (move : ∀ a v m, nears a v → goal (v.make m) ∨ Nearer m a fun b => nears b (v.make m))
    {a : α} {w : World} (h : nears a w) {moves : Nat → Move} (fair : Fair moves) :
    ∃ n, goal (w.along moves n) := by
  induction a using WellFoundedLT.induction generalizing w moves with
  | ind a ih =>
    obtain ⟨m, -, hstep⟩ := fair 0
    -- Up to the next step, the goal is reached or comes no further away.
    have before : ∀ n, (∃ i, goal (w.along moves i)) ∨
        ∃ b, b ≤ a ∧ nears b (w.along moves n) := fun n => by
      induction n with
      | zero => exact .inr ⟨a, le_refl a, h⟩
      | succ n ihn =>
        obtain hgoal | ⟨b, hb, hn⟩ := ihn
        · exact .inl hgoal
        · obtain hgoal | ⟨b', hb', -, hn'⟩ := move b _ (moves n) hn
          · exact .inl ⟨n + 1, hgoal⟩
          · exact .inr ⟨b', le_trans hb' hb, hn'⟩
    obtain hgoal | ⟨b, hb, hn⟩ := before m
    · exact hgoal
    obtain hgoal | ⟨b', -, hlt, hn'⟩ := move b _ (moves m) hn
    · exact ⟨m + 1, hgoal⟩
    · obtain ⟨n, hn⟩ := ih b' (lt_of_lt_of_le (hlt hstep) hb) hn' (fair.shift (m + 1))
      exact ⟨m + 1 + n, by rwa [along_add]⟩

/-! ## Getting the module of a site whose load fails -/

variable {w w' : World} {t x s : Nat} {op : Operation} {k : List Frame} {o : Outcome} {f : Frame}

/-- The load of a site that fails and has not ended is due. -/
theorem Fails.due (hw : Coherent w) (hq : Scheduled w) (h : w.Fails s o) {l : Nat}
    (hl : (w.sites s).load = some l) (ho : w.outcome? l = none) : ∃ a, w.Due l a := by
  obtain ⟨-, l', hl', h⟩ := h
  cases hl.symm.trans hl'
  obtain h | ⟨op, k, hp, h⟩ := h
  · cases ho.symm.trans h
  by_cases hwork : ∃ op k, w.control = .working l op k
  · obtain ⟨op', k', hwork⟩ := hwork
    exact ⟨_, .atWork hwork⟩
  have hc : ∀ op k, w.control ≠ .working l op k := fun op k h => hwork ⟨op, k, h⟩
  cases h with
  | await hl' =>
    obtain ⟨i, hi⟩ := due_of_await hw hq hc hp hl'
    exact ⟨_, hi⟩
  | answered | checked | imported | initialized | ended =>
    obtain ⟨i, hi⟩ := due_of_give hq hc hp
    exact ⟨_, hi⟩

/-- At work, a load that fails comes nearer to its end. -/
theorem Fails.atWork (hs : Sound w) (h : w.Fails s o) {l : Nat} (hl : (w.sites s).load = some l)
    (hc : w.control = .working l op k) :
    w.step.outcome? l = some o ∨ ∃ op' k', w.step.control = .working l op' k' := by
  obtain ⟨ho, l', hl', h⟩ := h
  cases hl.symm.trans hl'
  obtain h | ⟨op', k', hp, h⟩ := h
  · rw [hs.coherent.outcome?_of_position? (position?_of_working hc)] at h
    cases h
  cases (position?_of_working hc).symm.trans hp
  have hg := hs.grows_make .step
  obtain hended | ⟨op', k', hp', h'⟩ := h.step hc hg ho
  · exact .inl hended
  have hturn := turn_step hc
  generalize w.step = w' at hturn
  cases hturn with
  | goesOn | spawns | cancels => exact .inr ⟨_, _, rfl⟩
  | waits hn =>
    cases h with
    | await hl => cases hn.symm.trans hl
  | atGate => cases h
  | ends =>
    cases h with
    | ended => exact .inl (outcome?_finish o)

/-- A step brings a load that fails nearer to its end, and no move takes it further away. -/
theorem Fails.make_due (hs : Sound w) (hq : Scheduled w) (h : w.Fails s o) {l : Nat}
    (hl : (w.sites s).load = some l) {a : Nat ×ₗ Nat ×ₗ Nat ×ₗ Nat} (hd : w.Due l a) (m : Move)
    (ho : (w.make m).outcome? l = none) : Nearer m a ((w.make m).Due l) := by
  by_cases hwork : ∃ op k, w.control = .working l op k
  · obtain ⟨op, k, hwork⟩ := hwork
    cases hd with
    | ready hn | told hn => exact absurd hwork (hn _ _)
    | atWork =>
      have working : ∃ op' k', (w.make m).control = .working l op' k' := by
        by_cases hm : m = .step
        · subst hm
          obtain hended | hwork' := h.atWork hs hl hwork
          · cases ho.symm.trans hended
          · exact hwork'
        · exact ⟨op, k, (make_frame hm).1.trans hwork⟩
      obtain ⟨op', k', hwork'⟩ := working
      have hturn : Nearer m (toLex (0, w.bustle)) (· = toLex (0, (w.make m).bustle)) :=
        (nearer_bustle hwork m).inPhase fun b hb => by rw [hb]
      exact hturn.inPhase fun b hb => hb ▸ .atWork hwork'
  · exact hd.make hs hq (fun op k h => hwork ⟨op, k, h⟩) m

/-- Only tasks of hosts get the module of a site to do something with it. -/
theorem Sound.hosted_of_seeks (hs : Sound w) (hp : w.position? t = some (op, f :: k))
    (hf : f.seeks = some s) :
    (∃ call, (w.tasks t).job = .host call) ∧ w.CallStage t op (f :: k) := by
  obtain ⟨u, c, es, -, -, -, h⟩ | ⟨r, path, -, h⟩ | ⟨call, hj, h⟩ := (hs.stage t op _ hp).byJob
  · cases h <;> cases hf
  · cases h <;> cases hf
  · exact ⟨⟨call, hj⟩, h⟩

/-- A task that gets the module of a site asks for it, waits for the load, or has its answer. -/
theorem Sound.seeks (hs : Sound w) (hp : w.position? t = some (op, f :: k))
    (hf : f.seeks = some s) : w.Seeks t s op := by
  obtain ⟨-, h⟩ := hs.hosted_of_seeks hp hf
  cases h with
  | plain _ hk =>
    have hplain := hk f List.mem_cons_self
    unfold Frame.seeks at hf
    split at hf
    · exact hplain.elim
    · exact hplain.elim
    · exact absurd rfl (hplain _)
    · cases hf
  | seeks hf' hop =>
    cases hf.symm.trans hf'
    exact hop
  | awaitsLoad | toldLoad | unloads | unloaded => cases hf

/-- Only a task in the queue is put to work. -/
theorem ready_of_atWork (hc : ∀ op k, w.control ≠ .working t op k) {m : Move}
    (h : (w.make m).control = .working t op k) : ∃ cause, (w.tasks t).status = .ready cause := by
  obtain ⟨-, -, cause, -, hs⟩ := head_of_atWork (fun ⟨op, k, hw⟩ => hc op k hw) ⟨op, k, h⟩
  exact ⟨cause, hs⟩

/-- How near a task is to an answer that gets the module of a site with the frame `f` on top. -/
inductive Nears (w : World) (t s : Nat) (f : Frame) (k : List Frame) :
    Nat ×ₗ Nat ×ₗ Nat ×ₗ Nat ×ₗ Nat → Prop
  /-- It asks for the module. -/
  | seeks {op : Operation} (hc : w.control = .working t op (f :: k)) (hgive : op.gives = false) :
      Nears w t s f k (toLex (2, toLex (0, toLex (0, w.bustle))))
  /-- It waits for the load, which is due. -/
  | awaits {l : Nat} {a : Nat ×ₗ Nat ×ₗ Nat ×ₗ Nat} (hc : ∀ op k, w.control ≠ .working t op k)
      (hp : w.position? t = some (.await l, f :: k)) (hl : (w.sites s).load = some l)
      (ho : w.outcome? l = none) (hd : w.Due l a) : Nears w t s f k (toLex (1, a))
  /-- It is due itself. -/
  | due {op : Operation} {a : Nat ×ₗ Nat ×ₗ Nat ×ₗ Nat} (hc : ∀ op k, w.control ≠ .working t op k)
      (hp : w.position? t = some (op, f :: k)) (hd : w.Due t a) : Nears w t s f k (toLex (0, a))

/-- A task that waits for a load that fails is near an answer. -/
theorem Fails.nears (hs : Sound w) (hq : Scheduled w) (h : w.Fails s o)
    (hc : ∀ op k, w.control ≠ .working t op k) (hp : w.position? t = some (op, f :: k))
    (hf : f.seeks = some s) : ∃ p a, p < 2 ∧ w.Nears t s f k (toLex (p, a)) := by
  have hw := hs.coherent
  have hop := hs.seeks hp hf
  cases hop with
  | get =>
    obtain ⟨cause, -, h⟩ | ⟨g, p, c, -, h⟩ | ⟨l, -, h⟩ := status_of_position hc hp
    · exact absurd h.symm ((hw.operation_of_wake t cause).2.1 s)
    · cases h
    · cases h
  | @await l hl =>
    cases ho : w.outcome? l with
    | none =>
      obtain ⟨a, ha⟩ := h.due hw hq hl ho
      exact ⟨1, a, by decide, .awaits hc hp hl ho ha⟩
    | some o' =>
      obtain ⟨i, hi⟩ := due_of_await hw hq hc hp ho
      exact ⟨0, _, by decide, .due hc hp hi⟩
  | give =>
    obtain ⟨i, hi⟩ := due_of_give hq hc hp
    exact ⟨0, _, by decide, .due hc hp hi⟩

/-- A task at work is to go on with an outcome and the frame on top. -/
def Resumes (w : World) (t : Nat) (f : Frame) (k : List Frame) : Prop :=
  ∃ o, w.control = .working t (.give o) (f :: k)

/-- A task that asks for the module goes on to ask, waits, or has its answer. -/
theorem Fails.nearer_of_seeks (hs : Sound w) (hq : Scheduled w) (hfails : w.Fails s o)
    (hf : f.seeks = some s) (hc : w.control = .working t op (f :: k)) (hgive : op.gives = false)
    (m : Move) : (w.make m).Resumes t f k ∨
      Nearer m (toLex (2, toLex (0, toLex (0, w.bustle)))) ((w.make m).Nears t s f k) := by
  have goesOn : ∀ {op'}, (w.make m).control = .working t op' (f :: k) → op'.gives = false →
      Nearer m (toLex (2, toLex (0, toLex (0, w.bustle)))) ((w.make m).Nears t s f k) := by
    intro op' hc' hgive'
    have hturn : Nearer m (toLex (0, w.bustle)) (· = toLex (0, (w.make m).bustle)) :=
      (nearer_bustle hc m).inPhase fun b hb => by rw [hb]
    have hturn : Nearer m (toLex (0, toLex (0, w.bustle)))
        (· = toLex (0, toLex (0, (w.make m).bustle))) := hturn.inPhase fun b hb => by rw [hb]
    exact hturn.inPhase fun b hb => hb ▸ .seeks hc' hgive'
  by_cases hm : m = .step
  · subst hm
    have hs' := hs.make .step
    obtain ⟨op', hp', -⟩ :=
      (hs.seeks (position?_of_working hc) hf).step hc (hs.grows_make .step) hgive
    by_cases hwork : ∃ op k, w.step.control = .working t op k
    · obtain ⟨op₁, k₁, hwork⟩ := hwork
      cases (position?_of_working hwork).symm.trans hp'
      obtain ⟨o', rfl⟩ | hgive' := op'.give_or_not
      · exact .inl ⟨o', hwork⟩
      · exact .inr (goesOn hwork hgive')
    · have hc' : ∀ op k, w.step.control ≠ .working t op k := fun op k h => hwork ⟨op, k, h⟩
      obtain ⟨p, b, hp2, hb⟩ :=
        (hfails.make hs .step).nears hs' (hq.make hs .step) hc' hp' hf
      exact .inr (.of_phase hp2 hb)
  · exact .inr (goesOn ((make_frame hm).1.trans hc) hgive)

/-- A task that waits for a load that fails goes on to wait while that is due, or is told. -/
theorem Fails.nearer_of_awaits (hs : Sound w) (hq : Scheduled w) (hfails : w.Fails s o) {l : Nat}
    {a : Nat ×ₗ Nat ×ₗ Nat ×ₗ Nat} (hc : ∀ op k, w.control ≠ .working t op k)
    (hp : w.position? t = some (.await l, f :: k)) (hl : (w.sites s).load = some l)
    (hd : w.Due l a) (m : Move) : Nearer m (toLex (1, a)) ((w.make m).Nears t s f k) := by
  have hs' := hs.make m
  have hq' := hq.make hs m
  have hstatus := status_of_await hs.coherent hc hp
  have hc' : ∀ op k, (w.make m).control ≠ .working t op k := fun op k h => by
    obtain ⟨cause, hready⟩ := ready_of_atWork hc h
    cases hstatus.symm.trans hready
  obtain ⟨op', hp', hwoken⟩ := hs.woken hc hp m
  cases hwoken with
  | told | stopped =>
    obtain ⟨i, hi⟩ := due_of_give hq' hc' hp'
    exact .of_phase (by decide) (.due hc' hp' hi)
  | same =>
    cases ho' : (w.make m).outcome? l with
    | some o' =>
      obtain ⟨i, hi⟩ := due_of_await hs'.coherent hq' hc' hp' ho'
      exact .of_phase (by decide) (.due hc' hp' hi)
    | none =>
      have hl' := ((hs.grows_make m).site s).load l hl
      exact (hfails.make_due hs hq hl hd m ho').inPhase fun b hb => .awaits hc' hp' hl' ho' hb

/-- A task that is due to be told an outcome goes on to be due, or has its answer. -/
theorem Due.nearer (hs : Sound w) (hq : Scheduled w) {a : Nat ×ₗ Nat ×ₗ Nat ×ₗ Nat}
    (hc : ∀ op k, w.control ≠ .working t op k) (hp : w.position? t = some (op, f :: k))
    (hd : w.Due t a) (m : Move) :
    (w.make m).Resumes t f k ∨ Nearer m (toLex (0, a)) ((w.make m).Nears t s f k) := by
  obtain ⟨op', hp', hwoken⟩ := hs.woken hc hp m
  by_cases hwork : ∃ op k, (w.make m).control = .working t op k
  · obtain ⟨op₁, k₁, hwork⟩ := hwork
    cases (position?_of_working hwork).symm.trans hp'
    left
    cases hd with
    | atWork h => exact absurd h (hc _ _)
    | ready _ hgive =>
      cases hgive.symm.trans hp
      cases hwoken with
      | same | stopped => exact ⟨_, hwork⟩
    | told _ hawait =>
      cases hawait.symm.trans hp
      obtain ⟨cause, hready⟩ := ready_of_atWork hc hwork
      cases (status_of_await hs.coherent hc hp).symm.trans hready
  · have hc' : ∀ op k, (w.make m).control ≠ .working t op k := fun op k h => hwork ⟨op, k, h⟩
    exact .inr ((hd.make hs hq hc m).inPhase fun b hb => .due hc' hp' hb)

/-- A step brings a task nearer to its answer, and no move takes it further away. -/
theorem Nears.make (hs : Sound w) (hq : Scheduled w) (hfails : w.Fails s o)
    (hf : f.seeks = some s) {a : Nat ×ₗ Nat ×ₗ Nat ×ₗ Nat ×ₗ Nat} (h : w.Nears t s f k a)
    (m : Move) : (w.make m).Resumes t f k ∨ Nearer m a ((w.make m).Nears t s f k) := by
  cases h with
  | seeks hc hgive => exact hfails.nearer_of_seeks hs hq hf hc hgive m
  | awaits hc hp hl _ hd => exact .inr (hfails.nearer_of_awaits hs hq hc hp hl hd m)
  | due hc hp hd => exact hd.nearer hs hq hc hp m

/-- **Every task gets its answer.** If the load of a site fails, then whoever gets the module of the
site is given an answer, whatever else happens. -/
theorem Fails.eventually_answers (hs : Sound w) (hq : Scheduled w) (hfails : w.Fails s o)
    (hp : w.position? t = some (op, f :: k)) (hf : f.seeks = some s) {moves : Nat → Move}
    (fair : Fair moves) :
    ∃ n o', (w.along moves n).control = .working t (.give o') (f :: k) := by
  have start : w.Resumes t f k ∨ ∃ a, w.Nears t s f k a := by
    by_cases hwork : ∃ op k, w.control = .working t op k
    · obtain ⟨op₁, k₁, hwork⟩ := hwork
      cases (position?_of_working hwork).symm.trans hp
      obtain ⟨o', rfl⟩ | hgive := op.give_or_not
      · exact .inl ⟨o', hwork⟩
      · exact .inr ⟨_, .seeks hwork hgive⟩
    · obtain ⟨p, a, -, ha⟩ := hfails.nears hs hq (fun op k h => hwork ⟨op, k, h⟩) hp hf
      exact .inr ⟨_, ha⟩
  obtain hnow | ⟨a, ha⟩ := start
  · exact ⟨0, hnow⟩
  refine eventually_of_nears (fun v => v.Resumes t f k)
    (fun a v => v.Sound ∧ v.Scheduled ∧ v.Fails s o ∧ v.Nears t s f k a) ?_
    ⟨hs, hq, hfails, ha⟩ fair
  rintro a v m ⟨hs, hq, hfails, ha⟩
  refine (ha.make hs hq hfails hf m).imp id ?_
  rintro ⟨b, hle, hlt, hb⟩
  exact ⟨b, hle, hlt, hs.make m, hq.make hs m, hfails.make hs m, hb⟩

end ScriptBundle.World
