import ScriptBundle.Proofs.Site.Scheduling
/-!
# Taking turns

A step of the task at work leaves less to do of its turn (`bustle_step`), and others are added
behind the queue only (`queue_step`, `make_frame`). So a task in the queue comes nearer to being put
to work with every step: `World.Due` measures how soon that is, and `Due.make` is what a move makes
of it.
-/

namespace ScriptBundle.World

/-! ## The queue and the control -/

variable {w : World} {t : Nat} {op : Operation} {k : List Frame}

/-- What is left to do of the turn at work. -/
def bustle (w : World) : Nat ×ₗ Nat :=
  match w.control with
  | .working _ op k => burden op k
  | .idle => toLex (0, 0)

/-- A step of the task at work is followed by others with less to do, or is the last of its turn. -/
theorem bustle_step (hc : w.control = .working t op k) : w.step.bustle < w.bustle := by
  have ended : toLex (0, 0) < burden op k := by
    rw [burden, Prod.Lex.toLex_lt_toLex]
    dsimp only
    omega
  have hturn := turn_step hc
  rw [bustle, bustle, hc]
  generalize w.step = w' at hturn
  cases hturn with
  | goesOn _ _ _ _ onward | spawns _ _ _ _ _ onward | cancels _ _ onward => exact onward.lighter
  | waits hl =>
    rw [awaitTask_eq hl]
    exact ended
  | atGate => exact ended
  | ends => exact ended

/-- The task at work stays at work as long as its turn lasts. -/
theorem control_step (hc : w.control = .working t op k) :
    w.step.control = .idle ∨ ∃ op' k', w.step.control = .working t op' k' := by
  have hturn := turn_step hc
  generalize w.step = w' at hturn
  cases hturn with
  | goesOn | spawns | cancels => exact .inr ⟨_, _, rfl⟩
  | waits hl =>
    rw [awaitTask_eq hl]
    exact .inl rfl
  | atGate => exact .inl rfl
  | ends => exact .inl rfl

theorem queue_cancel (u : Nat) : w.queue <+: (w.cancel u).queue := by
  obtain ⟨_, _, more, h⟩ := w.exists_cancel_eq u
  rw [h]
  exact List.prefix_append _ more

/-- While a task is at work, others are added behind the queue only. -/
theorem queue_step (hc : w.control = .working t op k) : w.queue <+: w.step.queue := by
  have hturn := turn_step hc
  generalize w.step = w' at hturn
  cases hturn with
  | goesOn _ _ queue => exact queue ▸ List.prefix_refl _
  | spawns _ _ _ queue =>
    have hqueue : w.queue <+: w.queue ++ [.work w.taskCount] := List.prefix_append _ _
    exact queue ▸ hqueue
  | cancels l => exact queue_cancel l
  | waits hl =>
    rw [awaitTask_eq hl]
    exact List.prefix_refl _
  | atGate => exact List.prefix_refl _
  | ends =>
    simp only [finish, List.append_assoc]
    exact List.prefix_append _ _

/-- The first item of the queue is taken, and others are added behind the rest only. -/
theorem queue_step_idle (hc : w.control = .idle) {r : Ready} {rest : List Ready}
    (hq : w.queue = r :: rest) : rest <+: w.step.queue := by
  have hidles := idles_step hc
  generalize w.step = w' at hidles
  cases hidles with
  | rests hq' => cases hq.symm.trans hq'
  | works hq' | forgets hq' | drops hq' =>
    cases hq.symm.trans hq'
    exact List.prefix_refl _
  | tells hq' =>
    cases hq.symm.trans hq'
    exact List.prefix_append _ _

/-- Moves other than steps leave the control alone and add to the queue behind the others. -/
theorem make_frame {m : Move} (hm : m ≠ .step) :
    (w.make m).control = w.control ∧ w.queue <+: (w.make m).queue := by
  have hhappens := happens_make (w := w) hm
  generalize w.make m = w' at hhappens
  cases hhappens with
  | started => exact ⟨rfl, List.prefix_append _ _⟩
  | opened g b =>
    exact openGate_keeps (motive := fun v => v.control = w.control ∧ w.queue <+: v.queue)
      ⟨rfl, List.prefix_refl _⟩ fun v _ _ _ _ h => ⟨h.1, h.2.trans (List.prefix_append _ _)⟩
  | @cancels t => exact ⟨control_cancel w t, queue_cancel t⟩
  | _ => exact ⟨rfl, List.prefix_refl _⟩

/-- A task that is not at work stands after a move as it did, or is woken. -/
theorem Sound.woken (hs : Sound w) (hc : ∀ op k, w.control ≠ .working t op k)
    (hp : w.position? t = some (op, k)) (m : Move) :
    ∃ op', (w.make m).position? t = some (op', k) ∧ (w.make m).Woken t op op' := by
  obtain ⟨u, op₁, k₁, -, hu, hf⟩ | hf := hs.follows_move m
  · exact hf.others t op k (fun e => hc op₁ k₁ (Option.some.inj e ▸ hu)) hp
  · exact hf.others t op k nofun hp

/-- A task is at work. -/
def AtWork (w : World) (t : Nat) : Prop := ∃ op k, w.control = .working t op k

/-- A task that takes no step stays where it is, at work or not, or is woken if it is not. -/
theorem Sound.stays (hs : Sound w) (hp : w.position? t = some (op, k)) {m : Move}
    (ht : m = .step → ¬ w.AtWork t) : ∃ op', (w.make m).position? t = some (op', k) ∧
      (op' = op ∧ (w.make m).AtWork t ∨ ¬ w.AtWork t ∧ (w.make m).Woken t op op') := by
  by_cases hc : w.AtWork t
  · obtain ⟨op₁, k₁, hc⟩ := hc
    have hm : m ≠ .step := fun hm => ht hm ⟨op₁, k₁, hc⟩
    have hc' := (make_frame hm).1.trans hc
    exact ⟨op, (position?_of_working hc').trans ((position?_of_working hc).symm.trans hp),
      .inl ⟨rfl, op₁, k₁, hc'⟩⟩
  · obtain ⟨op', hp', hwoken⟩ := hs.woken (fun op k h => hc ⟨op, k, h⟩) hp m
    exact ⟨op', hp', .inr ⟨hc, hwoken⟩⟩

/-- A task is put to work by a step of an idle world in which it is the first of those that wait
for that. -/
theorem head_of_atWork {m : Move} (hidle : ¬ w.AtWork t) (hwork : (w.make m).AtWork t) :
    w.control = .idle ∧ ∃ rest cause, w.queue = .work t :: rest ∧
      (w.tasks t).status = .ready cause := by
  obtain ⟨op, k, hc'⟩ := hwork
  obtain rfl : m = .step := by
    by_contra hm
    exact hidle ⟨op, k, (make_frame hm).1.symm.trans hc'⟩
  have hc : w.control = .idle := by
    cases hc : w.control with
    | idle => rfl
    | working u op₁ k₁ =>
      obtain hidle' | ⟨op₂, k₂, hwork⟩ := control_step hc
      · cases hidle'.symm.trans hc'
      · cases hwork.symm.trans hc'
        exact absurd ⟨op₁, k₁, hc⟩ hidle
  have hidles := idles_step hc
  change w.step.control = _ at hc'
  generalize w.step = w' at hidles hc'
  cases hidles with
  | works hqueue hst =>
    cases hc'
    exact ⟨hc, _, _, hqueue, hst⟩
  | rests | tells | forgets | drops => cases hc.symm.trans hc'

/-- The first of those that wait for that is put to work by a step of an idle world. -/
theorem atWork_of_head (hc : w.control = .idle) {rest : List Ready}
    (hq : w.queue = .work t :: rest) {cause : Wake} (hst : (w.tasks t).status = .ready cause) :
    w.step.AtWork t := by
  rw [step_of_idle hc hq]
  simp only [take, World.startWork, hst, goOn]
  exact ⟨_, _, rfl⟩

/-! ## Coming nearer -/

section

variable {α : Type} [Preorder α] {m : Move} {a b : α} {p : α → Prop}

/-- After a move something holds with a measure that is no higher, and with a lower one if the move
is a step. -/
def Nearer (m : Move) (a : α) (p : α → Prop) : Prop := ∃ b, b ≤ a ∧ (m = .step → b < a) ∧ p b

theorem Nearer.of_lt (hlt : b < a) (hb : p b) : Nearer m a p :=
  ⟨b, le_of_lt hlt, fun _ => hlt, hb⟩

theorem Nearer.of_not_step (hm : m ≠ .step) (ha : p a) : Nearer m a p :=
  ⟨a, le_refl a, fun e => absurd e hm, ha⟩

/-- What comes nearer within a phase comes nearer. -/
theorem Nearer.inPhase {n : Nat} {q : Nat ×ₗ α → Prop} (h : Nearer m a p)
    (hq : ∀ b, p b → q (toLex (n, b))) : Nearer m (toLex (n, a)) q := by
  obtain ⟨b, hle, hlt, hb⟩ := h
  exact ⟨toLex (n, b), Prod.Lex.toLex_le_toLex.2 (.inr ⟨rfl, hle⟩),
    fun e => Prod.Lex.toLex_lt_toLex.2 (.inr ⟨rfl, hlt e⟩), hq b hb⟩

/-- A phase with a lower number is nearer. -/
theorem Nearer.of_phase {n n' : Nat} {q : Nat ×ₗ α → Prop} (hn : n' < n)
    (hb : q (toLex (n', b))) : Nearer m (toLex (n, a)) q :=
  .of_lt (Prod.Lex.toLex_lt_toLex.2 (.inl hn)) hb

end

/-- The turn at work comes nearer to its end. -/
theorem nearer_bustle (hc : w.control = .working t op k) (m : Move) :
    Nearer m w.bustle (· = (w.make m).bustle) := by
  by_cases hm : m = .step
  · subst hm
    exact .of_lt (bustle_step hc) rfl
  · refine .of_not_step hm ?_
    rw [bustle, bustle, (make_frame hm).1]

/-! ## Places in the queue -/

variable {w' : World} {r : Ready} {i x : Nat}

/-- An item is in the queue behind `i` others. -/
def Queued (w : World) (r : Ready) (i : Nat) : Prop :=
  ∃ pre post, w.queue = pre ++ r :: post ∧ pre.length = i

theorem exists_queued (h : r ∈ w.queue) : ∃ i, w.Queued r i := by
  obtain ⟨pre, post, h⟩ := List.append_of_mem h
  exact ⟨pre.length, pre, post, h, rfl⟩

theorem Queued.of_prefix (h : w.Queued r i) (hq : w.queue <+: w'.queue) : w'.Queued r i := by
  obtain ⟨pre, post, h, hi⟩ := h
  obtain ⟨more, hq⟩ := hq
  exact ⟨pre, post ++ more, by rw [← hq, h, List.append_assoc, List.cons_append], hi⟩

/-- Unless an item of the queue is taken, it moves up, or the turn at work goes on. -/
theorem Queued.make (h : w.Queued r i) (m : Move) :
    (m = .step ∧ w.control = .idle ∧ ∃ rest, w.queue = r :: rest) ∨
      Nearer m (toLex (i, w.bustle)) fun b =>
        ∃ j, b = toLex (j, (w.make m).bustle) ∧ (w.make m).Queued r j := by
  by_cases hm : m = .step
  · subst hm
    cases hc : w.control with
    | working t op k =>
      exact .inr ((nearer_bustle hc .step).inPhase fun b hb =>
        ⟨i, by rw [hb], h.of_prefix (queue_step hc)⟩)
    | idle =>
      obtain ⟨pre, post, hq, hi⟩ := h
      cases pre with
      | nil => exact .inl ⟨rfl, rfl, post, hq⟩
      | cons r' pre =>
        have hrest : Queued { w with queue := pre ++ r :: post } r pre.length :=
          ⟨pre, post, rfl, rfl⟩
        refine .inr (.of_phase ?_ ⟨_, rfl, hrest.of_prefix (queue_step_idle hc hq)⟩)
        simp [← hi]
  · obtain ⟨hc, hq⟩ := make_frame (w := w) hm
    refine .inr (.of_not_step hm ⟨i, ?_, h.of_prefix hq⟩)
    rw [bustle, bustle, hc]

/-! ## Tasks that are due -/

/-- A task is at work or is to be put to work, with a measure of how soon. -/
inductive Due (w : World) (x : Nat) : Nat ×ₗ Nat ×ₗ Nat ×ₗ Nat → Prop
  | atWork {op : Operation} {k : List Frame} (hc : w.control = .working x op k) :
      Due w x (toLex (0, toLex (0, w.bustle)))
  | ready {o : Outcome} {k : List Frame} {i : Nat} (hc : ∀ op k, w.control ≠ .working x op k)
      (hp : w.position? x = some (.give o, k)) (hq : w.Queued (.work x) i) :
      Due w x (toLex (1, toLex (i, w.bustle)))
  | told {l i : Nat} {o : Outcome} {k : List Frame} (hc : ∀ op k, w.control ≠ .working x op k)
      (hp : w.position? x = some (.await l, k)) (hl : w.outcome? l = some o)
      (hq : w.Queued (.tell l x) i) : Due w x (toLex (2, toLex (i, w.bustle)))

/-- A task is not woken to wait, to get a module or to begin a call to the engine. -/
theorem Coherent.operation_of_wake (hw : Coherent w) (x : Nat) (cause : Wake) :
    (∀ l, cause.operation (w.tasks x).job ≠ .await l) ∧
      (∀ s, cause.operation (w.tasks x).job ≠ .getModule s) ∧
        ∀ p c, cause.operation (w.tasks x).job ≠ .call p c := by
  cases cause with
  | start =>
    cases hj : (w.tasks x).job with
    | host op =>
      obtain ⟨calls, rfl⟩ := hw.hosted x op hj
      exact ⟨nofun, nofun, nofun⟩
    | loads | imports => exact ⟨nofun, nofun, nofun⟩
  | resumed | told => exact ⟨nofun, nofun, nofun⟩

/-- A task that is not at work is in the queue, at a gate, or waits for a task. -/
theorem status_of_position (hc : ∀ op k, w.control ≠ .working x op k)
    (hp : w.position? x = some (op, k)) :
    (∃ cause, (w.tasks x).status = .ready cause ∧ op = cause.operation (w.tasks x).job) ∨
      (∃ g p c, (w.tasks x).status = .atGate g p c ∧ op = .follow p c (.gate g)) ∨
        ∃ l, (w.tasks x).status = .awaiting l ∧ op = .await l := by
  rw [position?_eq_task rfl hc, Task.position?] at hp
  cases hs : (w.tasks x).status with
  | active | finished => simp [hs] at hp
  | ready cause =>
    simp only [hs, Option.some.injEq, Prod.mk.injEq] at hp
    exact .inl ⟨cause, rfl, hp.1.symm⟩
  | atGate g p c =>
    simp only [hs, Option.some.injEq, Prod.mk.injEq] at hp
    exact .inr (.inl ⟨g, p, c, rfl, hp.1.symm⟩)
  | awaiting l =>
    simp only [hs, Option.some.injEq, Prod.mk.injEq] at hp
    exact .inr (.inr ⟨l, rfl, hp.1.symm⟩)

theorem status_of_give (hc : ∀ op k, w.control ≠ .working x op k) {o : Outcome}
    (hp : w.position? x = some (.give o, k)) : ∃ cause, (w.tasks x).status = .ready cause := by
  obtain ⟨cause, hs, -⟩ | ⟨g, p, c, -, h⟩ | ⟨l, -, h⟩ := status_of_position hc hp
  · exact ⟨cause, hs⟩
  · cases h
  · cases h

theorem status_of_await (hw : Coherent w) (hc : ∀ op k, w.control ≠ .working x op k) {l : Nat}
    (hp : w.position? x = some (.await l, k)) : (w.tasks x).status = .awaiting l := by
  obtain ⟨cause, -, h⟩ | ⟨g, p, c, -, h⟩ | ⟨l', hs, h⟩ := status_of_position hc hp
  · exact absurd h.symm ((hw.operation_of_wake x cause).1 l)
  · cases h
  · cases h
    exact hs

theorem due_of_give (hq : Scheduled w) (hc : ∀ op k, w.control ≠ .working x op k) {o : Outcome}
    (hp : w.position? x = some (.give o, k)) : ∃ i, w.Due x (toLex (1, toLex (i, w.bustle))) := by
  obtain ⟨cause, hs⟩ := status_of_give hc hp
  obtain ⟨i, hi⟩ := exists_queued ((hq x).ready cause hs)
  exact ⟨i, .ready hc hp hi⟩

theorem due_of_await (hw : Coherent w) (hq : Scheduled w)
    (hc : ∀ op k, w.control ≠ .working x op k) {l : Nat} {o : Outcome}
    (hp : w.position? x = some (.await l, k)) (hl : w.outcome? l = some o) :
    ∃ i, w.Due x (toLex (2, toLex (i, w.bustle))) := by
  obtain ⟨-, -, hsome⟩ := (hq x).awaits l (status_of_await hw hc hp)
  obtain ⟨i, hi⟩ := exists_queued (hsome o hl)
  exact ⟨i, .told hc hp hl hi⟩

/-- A task that is due and not at work yet comes nearer. -/
theorem Due.make (hs : Sound w) (hq : Scheduled w) {a : Nat ×ₗ Nat ×ₗ Nat ×ₗ Nat} (h : w.Due x a)
    (hc : ∀ op k, w.control ≠ .working x op k) (m : Move) : Nearer m a ((w.make m).Due x) := by
  have hs' := hs.make m
  have hq' := hq.make hs m
  by_cases hwork : ∃ op k, (w.make m).control = .working x op k
  · obtain ⟨op', k', hwork⟩ := hwork
    cases h with
    | atWork h => exact absurd h (hc _ _)
    | ready | told => exact .of_phase (by decide) (.atWork hwork)
  have hc' : ∀ op k, (w.make m).control ≠ .working x op k := fun op k h => hwork ⟨op, k, h⟩
  cases h with
  | atWork h => exact absurd h (hc _ _)
  | @ready o k i _ hp hi =>
    obtain ⟨op', hp', hwoken⟩ := hs.woken hc hp m
    have hgive : ∃ o', op' = .give o' := by
      cases hwoken with
      | same => exact ⟨o, rfl⟩
      | stopped => exact ⟨.cancelled, rfl⟩
    obtain ⟨o', rfl⟩ := hgive
    obtain ⟨rfl, hidle, rest, hrest⟩ | hi' := hi.make m
    · obtain ⟨cause, hstatus⟩ := status_of_give hc hp
      obtain ⟨op₁, k₁, hwork⟩ := atWork_of_head hidle hrest hstatus
      exact absurd hwork (hc' op₁ k₁)
    · refine hi'.inPhase ?_
      rintro _ ⟨j, rfl, hj⟩
      exact .ready hc' hp' hj
  | @told l i o k _ hp hl hi =>
    obtain ⟨op', hp', hwoken⟩ := hs.woken hc hp m
    cases hwoken with
    | told | stopped =>
      obtain ⟨j, hj⟩ := due_of_give hq' hc' hp'
      exact .of_phase (by decide) hj
    | same =>
      obtain ⟨rfl, hidle, rest, hrest⟩ | hi' := hi.make m
      · have hstatus : (w.tasks x).status = .awaiting l := status_of_await hs.coherent hc hp
        have hstatus' := status_of_await hs'.coherent hc' hp'
        have ho : World.outcome? { w with queue := rest } l = some o := hl
        rw [World.make, step_of_idle hidle hrest] at hstatus'
        simp [take, World.tell, hstatus, ho, World.wake, enqueue, updateTask] at hstatus'
      · refine hi'.inPhase ?_
        rintro _ ⟨j, rfl, hj⟩
        exact .told hc' hp' ((hs.grows_make m).outcome l o hl) hj

end ScriptBundle.World
