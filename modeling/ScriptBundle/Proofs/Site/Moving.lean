import Mathlib.Data.Nat.Basic
import ScriptBundle.Site.Course
/-!
# What moves make of a world

* Without a task at work, a step lets the first item of the queue take effect, or drops it if it is
  void: `World.Idles` lists what that may be (`idles_step`).
* `World.Happens` lists what the other moves do (`happens_make`). To open a gate is to wake the
  tasks that wait there one after the other (`openGate_keeps`).
-/

namespace ScriptBundle

@[simp] theorem put_self {α β : Type} [DecidableEq α] (f : α → β) (a : α) (b : β) :
    put f a b a = b := if_pos rfl

theorem put_of_ne {α β : Type} [DecidableEq α] (f : α → β) {a x : α} (b : β) (h : x ≠ a) :
    put f a b x = f x := if_neg h

theorem put_eq_or {α β : Type} [DecidableEq α] (f : α → β) (a : α) (b : β) (x : α) :
    put f a b x = f x ∨ x = a ∧ put f a b x = b := by
  by_cases h : x = a
  · exact .inr ⟨h, if_pos h⟩
  · exact .inl (if_neg h)

namespace World

variable {w : World}

/-! ## Steps without a task at work -/

/-- What a step may make of a world without a task at work. -/
inductive Idles (w : World) : World → Prop
  /-- There is nothing to do. -/
  | rests (hq : w.queue = []) : Idles w w
  /-- A task is put to work. -/
  | works {t : Nat} {cause : Wake} {rest : List Ready} (hq : w.queue = .work t :: rest)
      (hs : (w.tasks t).status = .ready cause) :
      Idles w (({ w with queue := rest }.updateTask t fun x => { x with status := .active }).goOn t
        (cause.operation (w.tasks t).job) (w.tasks t).frames)
  /-- A task is told the outcome that it waits for. -/
  | tells {l t : Nat} {o : Outcome} {rest : List Ready} (hq : w.queue = .tell l t :: rest)
      (hs : (w.tasks t).status = .awaiting l) (ho : w.outcome? l = some o) :
      Idles w ({ w with queue := rest }.wake t (.told o))
  /-- A registry forgets a task that has failed. -/
  | forgets {r l : Nat} {path : String} {o : Outcome} {rest : List Ready}
      (hq : w.queue = .forget r path l :: rest) (ho : w.outcome? l = some o)
      (hfail : o.isFailure = true) (hl : (w.registries r).lookup path = some l) :
      Idles w { w with
        queue := rest
        registries := put w.registries r ((w.registries r).filter fun e => e.1 ≠ path) }
  /-- The first item of the queue is void. -/
  | drops {item : Ready} {rest : List Ready} (hq : w.queue = item :: rest)
      (work : ∀ t, item = .work t → ∀ cause, (w.tasks t).status ≠ .ready cause)
      (tell : ∀ l t, item = .tell l t → (w.tasks t).status = .awaiting l → w.outcome? l = none) :
      Idles w { w with queue := rest }

theorem step_of_idle (hc : w.control = .idle) {item : Ready} {rest : List Ready}
    (hq : w.queue = item :: rest) : w.step = { w with queue := rest }.take item := by
  simp only [step, hc, hq]

theorem idles_step (hc : w.control = .idle) : w.Idles w.step := by
  cases hq : w.queue with
  | nil =>
    have hstep : w.step = w := by simp only [step, hc, hq]
    rw [hstep]
    exact .rests hq
  | cons item rest =>
    rw [step_of_idle hc hq]
    cases item with
    | work t =>
      simp only [take, startWork]
      split
      next cause hs => exact .works hq hs
      next hs =>
        refine .drops hq (fun u hu cause => ?_) (by simp)
        cases hu
        exact hs cause
    | tell l t =>
      simp only [take, tell]
      split
      next l' o hs ho =>
        split_ifs with hl
        · exact .tells hq (hl ▸ hs) ho
        · refine .drops hq (by simp) fun l₁ t₁ h₁ hs₁ => absurd ?_ hl
          cases h₁
          exact TaskStatus.awaiting.inj (hs.symm.trans hs₁)
      next hne =>
        refine .drops hq (by simp) fun l₁ t₁ h₁ hs₁ => ?_
        cases h₁
        exact Option.eq_none_iff_forall_ne_some.2 fun o => hne l o hs₁
    | forget r path l =>
      simp only [take, forget]
      split
      next o ho =>
        split_ifs with h
        · exact .forgets hq ho h.1 h.2
        · exact .drops hq (by simp) (by simp)
      next => exact .drops hq (by simp) (by simp)

/-! ## Other moves -/

/-- What a move other than a step may make of a world. -/
inductive Happens (w : World) : Move → World → Prop
  /-- A site takes no handle. -/
  | refused (s : Nat) (h : RenderHandle) : Happens w (.attach s h) w
  /-- A handle is attached to a site. -/
  | attached {s : Nat} {h : RenderHandle} {x : Site} (hx : (w.sites s).attach h = .ok x) :
      Happens w (.attach s h) (w.updateSite s fun _ => x)
  /-- Parameters are assigned to a site. -/
  | assigned (s : Nat) (pairs : List (String × Value)) : Happens w (.assign s pairs)
      (w.updateSite s fun x => (x.assignParameters (w.hosts x.host) pairs).2)
  /-- So they are, and the site asks for a render. -/
  | renders (s : Nat) (pairs : List (String × Value)) : Happens w (.assign s pairs)
      ((w.updateSite s fun x => (x.assignParameters (w.hosts x.host) pairs).2).record (.render s))
  | started (calls : List SiteCall) :
      Happens w (.start calls) (w.spawn (.host (.inTurn calls)))
  | opened (g : String) (b : Behaviour) : Happens w (.openGate g b) (w.openGate g b)
  | behaves (engine : EngineCall → Behaviour) :
      Happens w (.behave engine) { w with engine := engine }
  /-- A task of a host is asked to stop. -/
  | cancels {t : Nat} {op : Operation} (hj : (w.tasks t).job = .host op) :
      Happens w (.cancel t) (w.cancel t)
  /-- No host holds the task. -/
  | unheld (t : Nat) : Happens w (.cancel t) w

/-- What assigning parameters does to the world: the site changes, and asks for a render at most. -/
theorem setParameters_eq (w : World) (s : Nat) (pairs : List (String × Value)) :
    let w₁ := w.updateSite s fun x => (x.assignParameters (w.hosts x.host) pairs).2
    (w.setParameters s pairs).2 = w₁ ∨ (w.setParameters s pairs).2 = w₁.record (.render s) := by
  simp only [setParameters]
  split
  next => exact .inl rfl
  next =>
    simp only [requestRender]
    split
    next => exact .inl rfl
    next =>
      split
      · exact .inl rfl
      · exact .inr rfl
      · exact .inr rfl

theorem happens_make {m : Move} (hm : m ≠ .step) : w.Happens m (w.make m) := by
  cases m with
  | step => exact absurd rfl hm
  | attach s h =>
    simp only [make, attach]
    split
    next => exact .refused s h
    next x hx => exact .attached hx
  | assign s pairs =>
    rw [make]
    obtain h | h := w.setParameters_eq s pairs
    · exact h ▸ .assigned s pairs
    · exact h ▸ .renders s pairs
  | start calls => exact .started calls
  | openGate g b => exact .opened g b
  | behave engine => exact .behaves engine
  | cancel t =>
    simp only [make, cancelHosted]
    split
    next hj => exact .cancels hj
    next => exact .unheld t
    next => exact .unheld t

/-- What is kept when a task that waits at a gate is woken is kept when the gate is opened. -/
theorem openGate_keeps {motive : World → Prop} {g : String} {b : Behaviour}
    (closed : motive { w with gates := put w.gates g [] })
    (wakes : ∀ (v : World) (t : Nat) (p : Purpose) (c : EngineCall),
      (v.tasks t).status = .atGate g p c → motive v → motive (v.wake t (.resumed p c b))) :
    motive (w.openGate g b) := by
  suffices ∀ (ts : List Nat) (v : World), motive v →
      motive (ts.foldl (fun v t => v.passGate g b t) v) from this _ _ closed
  intro ts
  induction ts with
  | nil => exact fun _ h => h
  | cons t ts ih =>
    intro v h
    refine ih _ ?_
    simp only [passGate]
    split
    next hs =>
      split_ifs with hg
      · exact wakes v t _ _ (hg ▸ hs) h
      · exact h
    next => exact h

/-! ## Courses -/

/-- No task makes the move. -/
def Aside (w : World) (m : Move) : Prop := m = .step → w.control = .idle

theorem working_or_aside (w : World) (m : Move) :
    (∃ t op k, m = .step ∧ w.control = .working t op k) ∨ w.Aside m := by
  by_cases hm : m = .step
  · cases hc : w.control with
    | working t op k => exact .inl ⟨t, op, k, hm, rfl⟩
    | idle => exact .inr fun _ => hc
  · exact .inr fun h => absurd h hm

theorem course_append (w : World) (ms ms' : List Move) :
    w.course (ms ++ ms') = (w.course ms).course ms' := List.foldl_append

end World

end ScriptBundle
