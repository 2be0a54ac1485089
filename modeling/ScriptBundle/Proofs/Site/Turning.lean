import Mathlib.Algebra.Ring.Nat
import Mathlib.Data.Prod.Lex
import ScriptBundle.Proofs.Site.Happening
/-!
# Turns

A task that is put to work makes a turn: it takes steps until it waits or has ended. `World.Turn`
lists what such a step does to the tasks, the queue and the registries, and `turn_step` proves that
there is nothing else. A step that stays in the turn makes what is left to do lighter, so every turn
comes to an end; it begins to release the module of a site only after waiting for the load of the
site, and only when it closes a registry does that registry forget what it holds.

What is left to do is weighed by an upper bound on the steps to come. How many there are for closing
a registry is known only when it is closed, so the number of registries to close comes first.
-/

namespace ScriptBundle

/-! ## Weights -/

/-- The number of registries that a call closes. -/
def SiteCall.closes : SiteCall → Nat
  | .closeRegistry _ => 1
  | _ => 0

/-- The number of registries that an operation closes at once. -/
@[simp] def Operation.closes : Operation → Nat
  | .closeRegistry _ => 1
  | .inTurn calls => (calls.map SiteCall.closes).sum
  | _ => 0

/-- The number of registries that a frame closes. -/
@[simp] def Frame.closes : Frame → Nat
  | .afterCall _ calls => (calls.map SiteCall.closes).sum
  | _ => 0

/-- The steps of a call, up to those after a registry is closed. -/
def SiteCall.weight : SiteCall → Nat
  | .afterRender _ => 4
  | .getModule _ => 2
  | .invoke _ _ _ => 6
  | .invokeVoid _ _ _ => 8
  | .dispose _ => 10
  | .within _ ids => 14 + 8 * ids.length
  | .closeRegistry _ => 0

/-- The steps of an operation in one turn, up to those after a registry is closed. -/
@[simp] def Operation.weight : Operation → Nat
  | .afterRender _ => 4
  | .getModule _ => 2
  | .invoke _ _ _ => 6
  | .invokeVoid _ _ _ => 8
  | .dispose _ => 10
  | .within _ ids => 14 + 8 * ids.length
  | .callAll _ ids _ => 1 + 8 * ids.length
  | .closeRegistry _ => 0
  | .closeLoads _ ls => 1 + 6 * ls.length
  | .inTurn calls => 1 + (calls.map fun c => c.weight + 3).sum
  | .load _ => 10
  | .fetch _ _ => 4
  | .await _ => 1
  | .call _ _ => 2
  | .follow _ _ _ => 1
  | .give _ => 0

/-- The steps that a frame leads to in one turn, up to those after a registry is closed. -/
@[simp] def Frame.weight : Frame → Nat
  | .discard | .rendered _ | .restore _ | .imported _ | .keep _ | .finishLoad _ _ => 1
  | .invokeOn _ _ _ => 3
  | .nextCall _ ids _ => 2 + 8 * ids.length
  | .disposeAfter _ => 12
  | .callInit _ => 4
  | .releaseAfter _ => 7
  | .releaseModule _ _ => 4
  | .closeNext _ ls => 2 + 6 * ls.length
  | .afterCall _ calls => 2 + (calls.map fun c => c.weight + 3).sum

/-- What is left to do in a turn: the registries to close, and the steps besides. -/
def burden (op : Operation) (k : List Frame) : Nat ×ₗ Nat :=
  toLex (op.closes + (k.map Frame.closes).sum, op.weight + (k.map Frame.weight).sum + 1)

/-- What a call to the engine that an operation leads to is for. -/
@[simp, grind =] def Operation.aim? : Operation → Option Purpose
  | .fetch p _ | .call p _ | .follow p _ _ => some p
  | _ => none

theorem SiteCall.closes_operation (c : SiteCall) : c.operation.closes = c.closes := by
  cases c <;> rfl

theorem SiteCall.weight_operation (c : SiteCall) : c.operation.weight = c.weight := by
  cases c <;> rfl

theorem SiteCall.aim?_operation (c : SiteCall) : c.operation.aim? = none := by
  cases c <;> rfl

theorem SiteCall.operation_eq_closeRegistry {c : SiteCall} {r : Nat}
    (h : c.operation = .closeRegistry r) : c = .closeRegistry r := by
  cases c <;> cases h
  rfl

theorem SiteCall.operation_ne_inTurn (c : SiteCall) (calls : List SiteCall) :
    c.operation ≠ .inTurn calls := by
  cases c <;> nofun

theorem Frame.weight_pos (f : Frame) : 0 < f.weight := by
  cases f <;> simp only [Frame.weight] <;> omega

theorem burden_lt {op op' : Operation} {k k' : List Frame}
    (hc : op'.closes + (k'.map Frame.closes).sum ≤ op.closes + (k.map Frame.closes).sum)
    (hw : op'.weight + (k'.map Frame.weight).sum < op.weight + (k.map Frame.weight).sum) :
    burden op' k' < burden op k := by
  rw [burden, burden, Prod.Lex.toLex_lt_toLex]
  omega

/-- What is left to do includes releasing the module of a site. -/
@[grind =] def Releases (s : Nat) (op : Operation) (k : List Frame) : Prop :=
  op.aim? = some (.unload s) ∨ op.aim? = some (.release s) ∨ ∃ h, Frame.releaseModule s h ∈ k

/-- What is left to do includes closing a registry. -/
@[grind =] def Closes (r : Nat) (op : Operation) (k : List Frame) : Prop :=
  op = .closeRegistry r ∨ (∃ calls, op = .inTurn calls ∧ .closeRegistry r ∈ calls) ∨
    ∃ c calls, Frame.afterCall c calls ∈ k ∧ .closeRegistry r ∈ calls

/-- What is left to do after a step of a turn, compared with what was before. -/
structure Onward (op : Operation) (k : List Frame) (op' : Operation) (k' : List Frame) : Prop where
  lighter : burden op' k' < burden op k
  releases : ∀ s, Releases s op' k' →
    Releases s op k ∨ ∃ o k₁, op = .give o ∧ k = .releaseAfter s :: k₁
  closes : ∀ r, Closes r op' k' → Closes r op k

namespace World

/-! ## The steps of a turn -/

/-- What becomes of the registries when a task is started: one that imports is remembered under its
path, where no other is. Hosts' tasks are not started by others. -/
def Remembers (w : World) (registries : Nat → List (String × Nat)) : Job → Prop
  | .host _ => False
  | .loads _ => registries = w.registries
  | .imports r path => (w.registries r).lookup path = none ∧
      registries = put w.registries r (w.registries r ++ [(path, w.taskCount)])

/-- What a step of the task at work, given its operation and frames, may do. -/
inductive Turn (w : World) (t : Nat) : Operation → List Frame → World → Prop
  /-- It goes on. -/
  | goesOn {op op' : Operation} {k k' : List Frame} {v : World} (tasks : v.tasks = w.tasks)
      (count : v.taskCount = w.taskCount) (queue : v.queue = w.queue)
      (registries : ∀ r, v.registries r = w.registries r ∨ op = .closeRegistry r)
      (onward : Onward op k op' k') : Turn w t op k (v.goOn t op' k')
  /-- It starts a task and goes on. -/
  | spawns {op op' : Operation} {k k' : List Frame} {v : World} (job : Job)
      (tasks : v.tasks = (w.spawn job).tasks) (count : v.taskCount = (w.spawn job).taskCount)
      (queue : v.queue = (w.spawn job).queue) (registries : w.Remembers v.registries job)
      (onward : Onward op k op' k') :
      Turn w t op k (v.goOn t op' k')
  /-- It asks a task to stop and goes on. -/
  | cancels {op op' : Operation} {k k' : List Frame} (l : Nat) (hl : l ∈ loadsOf op)
      (onward : Onward op k op' k') : Turn w t op k ((w.cancel l).goOn t op' k')
  /-- It waits for a task. -/
  | waits {l : Nat} {k : List Frame} (hl : w.outcome? l = none) :
      Turn w t (.await l) k (w.awaitTask t l k)
  /-- It waits at a gate. -/
  | atGate {p : Purpose} {c : EngineCall} {g : String} {k : List Frame} :
      Turn w t (.follow p c (.gate g)) k (w.follow t p c k (.gate g))
  /-- It ends. -/
  | ends {o : Outcome} : Turn w t (.give o) [] (w.finish t o)

variable {w w' v : World} {t : Nat} {op op' : Operation} {k k' : List Frame}

theorem Yields.weight_pos {o : Outcome} (h : w.Yields op o) : 0 < op.weight := by
  cases h <;> simp

/-- Whatever a task goes on with, less is left to do. -/
theorem Proceeds.onward (h : w.Proceeds op k v op' k') : Onward op k op' k' := by
  cases h with
  | yields h =>
    exact ⟨burden_lt (by simp) (by simpa using h.weight_pos), by grind, by grind⟩
  | @returns _ _ f =>
    exact ⟨burden_lt (by simp) (by simp [-Frame.weight, f.weight_pos]), by grind, by grind⟩
  | closes =>
    refine ⟨?_, by grind, by grind⟩
    rw [burden, burden, Prod.Lex.toLex_lt_toLex]
    simp
  | @makesNext c =>
    refine ⟨burden_lt ?_ ?_, ?_, ?_⟩
    · rw [c.closes_operation]
      simp
      omega
    · rw [c.weight_operation]
      simp
      omega
    · intro s
      have haim := c.aim?_operation
      grind
    · intro r
      have hclose := c.operation_eq_closeRegistry (r := r)
      have hturn := c.operation_ne_inTurn
      grind
  | _ => exact ⟨burden_lt (by simp) (by simp <;> omega), by grind, by grind⟩

theorem Proceeds.turn (h : w.Proceeds op k v op' k') : Turn w t op k (v.goOn t op' k') := by
  have onward := h.onward
  cases h with
  | @startsLoad s => exact .spawns (.loads s) rfl rfl rfl rfl onward
  | @startsImport _ r c _ _ _ _ hl => exact .spawns (.imports r c.file) rfl rfl rfl ⟨hl, rfl⟩ onward
  | @closes r =>
    refine .goesOn rfl rfl rfl (fun r' => ?_) onward
    by_cases hr : r' = r
    · exact .inr (hr ▸ rfl)
    · exact .inl (put_of_ne _ _ hr)
  | @cancels _ l => exact .cancels l List.mem_cons_self onward
  | _ => exact .goesOn rfl rfl rfl (fun _ => .inl rfl) onward

/-- **The steps of a turn.** A step of the task at work keeps it in its turn with less to do, or
ends the turn. -/
theorem turn_step (hc : w.control = .working t op k) : Turn w t op k w.step := by
  have hworks := works_step hc
  generalize w.step = w' at hworks
  cases hworks with
  | goesOn h => exact h.turn
  | waits hl => exact .waits hl
  | atGate => exact .atGate
  | ends => exact .ends

/-- A step leads the task at work onward, or makes it wait where it is. -/
theorem onward_step (hc : w.control = .working t op k) (hp : w.step.position? t = some (op', k')) :
    Onward op k op' k' ∨ op' = op ∧ k' = k :=
  (proceeds_or_stays hc hp).imp (fun ⟨_, h⟩ => h.onward) And.left

end World

end ScriptBundle
