import ScriptBundle.Proofs.Site.Filing
import ScriptBundle.Proofs.Site.Waiting
/-!
# Who is to release shared modules

A shared import is kept by a registry, which remembers it, or by a task that closes a registry and
has yet to come to it: `World.keeps`. To close a registry is to take over all that it keeps. A move
does nothing else to what is kept, apart from adding a new import to a registry and dropping some,
and it takes one from a task when that begins to release the module: `World.Hands` and `hands_make`.

So no two keep the same import, and one whose module was released is kept by nobody: `World.Apart`,
which holds along every course together with the imports that were released along it
(`apart_course`).
-/

namespace ScriptBundle

/-- The imports that a frame is to release. -/
def Frame.remains : Frame → List Nat
  | .closeNext _ ls => ls
  | _ => []

/-- The imports that are left to release. -/
def remains (op : Operation) (k : List Frame) : List Nat :=
  World.loadsOf op ++ k.flatMap Frame.remains

/-- The module of a registry that an operation is about to release. -/
def Operation.discards? : Operation → Option Value
  | .call (.close _) (.dispose h) => some h
  | _ => none

theorem SiteCall.loadsOf_operation (c : SiteCall) : World.loadsOf c.operation = [] := by
  cases c <;> rfl

theorem SiteCall.discards?_operation (c : SiteCall) : c.operation.discards? = none := by
  cases c <;> rfl

/-- Who keeps shared imports. -/
inductive Keeper where
  /-- A registry remembers them. -/
  | registry (r : Nat)
  /-- A task closes a registry. -/
  | task (t : Nat)
  deriving DecidableEq

namespace World

/-- The shared imports that are kept. -/
def keeps (w : World) : Keeper → List Nat
  | .registry r => (w.registries r).map Prod.snd
  | .task t =>
    match w.position? t with
    | some (op, k) => remains op k
    | none => []

/-- The import whose module a step begins to release for a registry. -/
def releasing? (w : World) : Option Nat :=
  match w.control with
  | .working _ (.closeLoads _ (l :: _)) _ =>
    match w.outcome? l with
    | some (.value _) => some l
    | _ => none
  | _ => none

variable {w w' v : World} {t l : Nat} {op op' : Operation} {k k' : List Frame} {r : Nat}

theorem keeps_task (hp : w.position? t = some (op, k)) : w.keeps (.task t) = remains op k := by
  simp only [keeps, hp]

theorem keeps_task_of_none (hp : w.position? t = none) : w.keeps (.task t) = [] := by
  simp only [keeps, hp]

/-- The imports whose modules a move begins to release for registries. -/
def releasedBy (w : World) : Move → List Nat
  | .step => w.releasing?.toList
  | _ => []

/-- The imports whose modules begin to be released for registries along a course, in order. -/
def released (w : World) : List Move → List Nat
  | [] => []
  | m :: ms => w.releasedBy m ++ (w.make m).released ms

theorem released_append (w : World) (ms ms' : List Move) :
    w.released (ms ++ ms') = w.released ms ++ (w.course ms).released ms' := by
  induction ms generalizing w with
  | nil => rfl
  | cons m ms ih =>
    rw [List.cons_append, released, released, ih, List.append_assoc]
    rfl

/-! ## The task at work -/

/-- What the task at work is about to do after a step, as far as releasing shared modules is
concerned. -/
inductive Discards (w : World) (op : Operation) (k : List Frame) :
    Operation → List Frame → Prop
  /-- It is to release no others than before. -/
  | plain {op' : Operation} {k' : List Frame} (hop : ∀ r, op ≠ .closeRegistry r)
      (fewer : (remains op' k').Sublist (remains op k)) (releasing : w.releasing? = none)
      (discards : op'.discards? = none) : Discards w op k op' k'
  /-- It takes over what a registry keeps. -/
  | takes {r : Nat} (hop : op = .closeRegistry r) :
      Discards w op k (.closeLoads r ((w.registries r).map Prod.snd)) k
  /-- It begins to release a module. -/
  | releases {r l : Nat} {ls : List Nat} {h : Value} (hop : op = .closeLoads r (l :: ls))
      (ho : w.outcome? l = some (.value h)) :
      Discards w op k (.call (.close r) (.dispose h)) (.closeNext r ls :: k)

theorem releasing?_of_loadsOf (hc : w.control = .working t op k) (h : loadsOf op = []) :
    w.releasing? = none := by
  rw [releasing?, hc]
  cases op with
  | closeLoads r ls =>
    cases h
    rfl
  | _ => rfl

theorem Yields.loadsOf {o : Outcome} (h : w.Yields op o) : World.loadsOf op = [] := by
  cases h <;> rfl

/-- An operation that leads to another, and neither takes over nor releases a shared module. -/
theorem discards_of_sublist (hc : w.control = .working t op k) (hop : ∀ r, op ≠ .closeRegistry r)
    (hl : loadsOf op = []) (hl' : loadsOf op' = []) (hd : op'.discards? = none)
    (hk : (k'.flatMap Frame.remains).Sublist (k.flatMap Frame.remains)) :
    Discards w op k op' k' := by
  refine .plain hop ?_ (releasing?_of_loadsOf hc hl) hd
  rw [remains, remains, hl, hl']
  exact hk

theorem Proceeds.discards (hc : w.control = .working t op k) (h : w.Proceeds op k v op' k') :
    Discards w op k op' k' := by
  cases h with
  | closes => exact .takes rfl
  | releasesShared ho => exact .releases rfl ho
  | cancels ho =>
    exact .plain nofun ((List.sublist_cons_self _ _).append_right _)
      (by simp only [releasing?, hc, ho]) rfl
  | @skips _ _ o _ _ ho hfail =>
    refine .plain nofun ((List.sublist_cons_self _ _).append_right _) ?_ rfl
    cases o with
    | value => cases hfail
    | error | cancelled => simp only [releasing?, hc, ho]
  | closesNext =>
    exact .plain nofun (List.Sublist.refl _) (releasing?_of_loadsOf hc rfl) rfl
  | yields h =>
    refine discards_of_sublist hc ?_ h.loadsOf rfl rfl (List.Sublist.refl _)
    rintro r rfl
    cases h
  | @makesNext c =>
    exact discards_of_sublist hc nofun rfl c.loadsOf_operation c.discards?_operation
      (List.Sublist.refl _)
  | @fetches p =>
    exact discards_of_sublist hc nofun rfl rfl (by cases p <;> rfl) (List.Sublist.refl _)
  | returns => exact discards_of_sublist hc nofun rfl rfl rfl (List.sublist_append_right _ _)
  | _ => exact discards_of_sublist hc nofun rfl rfl rfl (List.Sublist.refl _)

theorem discards_step (hc : w.control = .working t op k)
    (hp : w.step.position? t = some (op', k')) : Discards w op k op' k' := by
  obtain ⟨_, h⟩ | ⟨⟨rfl, rfl⟩, hwait⟩ := proceeds_or_stays hc hp
  · exact h.discards hc
  · cases op' with
    | await | follow => exact discards_of_sublist hc nofun rfl rfl rfl (List.Sublist.refl _)
    | _ => cases hwait

/-! ## Every move -/

/-- What a move does to the imports that are kept, where it begins to release the given ones. -/
inductive Hands (w w' : World) : List Nat → Prop
  /-- Some are dropped. -/
  | fewer (others : ∀ x, (w'.keeps x).Sublist (w.keeps x)) : Hands w w' []
  /-- A registry remembers a new one. -/
  | files {r : Nat} (count : w.taskCount < w'.taskCount)
      (new : w'.keeps (.registry r) = w.keeps (.registry r) ++ [w.taskCount])
      (others : ∀ x, x ≠ .registry r → (w'.keeps x).Sublist (w.keeps x)) : Hands w w' []
  /-- A task takes over what a registry keeps. -/
  | passes {r t : Nat} (emptied : w'.keeps (.registry r) = [])
      (taken : w'.keeps (.task t) = w.keeps (.registry r) ++ w.keeps (.task t))
      (others : ∀ x, x ≠ .registry r → x ≠ .task t → (w'.keeps x).Sublist (w.keeps x)) :
      Hands w w' []
  /-- A task begins to release one. -/
  | releases {t l : Nat} (first : w.keeps (.task t) = l :: w'.keeps (.task t))
      (others : ∀ x, x ≠ .task t → (w'.keeps x).Sublist (w.keeps x)) : Hands w w' [l]

theorem Coherent.remains_start (hw : Coherent w) (t : Nat) :
    remains (w.tasks t).job.operation [] = [] := by
  cases hj : (w.tasks t).job with
  | host op =>
    obtain ⟨calls, rfl⟩ := hw.hosted t op hj
    rfl
  | loads | imports => rfl

theorem Woken.remains (h : w.Woken t op op') : (remains op' k).Sublist (remains op k) := by
  cases h with
  | same | told | passed => exact List.Sublist.refl _
  | stopped =>
    refine List.Sublist.append_right ?_ _
    cases op <;> exact List.nil_sublist _

/-- A task that is not at work takes nothing over. -/
theorem Follows.keeps {actor : Option Nat} (hf : Follows actor w w') (ht : some t ≠ actor) :
    (w'.keeps (.task t)).Sublist (w.keeps (.task t)) := by
  cases hp : w'.position? t with
  | none =>
    rw [keeps_task_of_none hp]
    exact List.nil_sublist _
  | some p =>
    rw [keeps_task hp]
    obtain ⟨hop, hk⟩ | ⟨op, hp₀, hwoken⟩ := hf.stood ht hp
    · rw [hop, hk, hf.coherent.remains_start]
      exact List.nil_sublist _
    · rw [keeps_task hp₀]
      exact hwoken.remains

/-- Without a task at work, registries take nothing over. -/
theorem Aside.keeps {m : Move} (hm : w.Aside m) :
    ((w.make m).keeps (.registry r)).Sublist (w.keeps (.registry r)) := by
  refine List.Sublist.map _ ?_
  by_cases hstep : m = .step
  · subst hstep
    obtain h | ⟨path, l, o, -, -, -, h⟩ := (started_step_idle (hm rfl)).2 r
    · exact h ▸ List.Sublist.refl _
    · exact h ▸ List.filter_sublist
  · rw [(started_make hstep).1]

theorem keeps_registry_of_eq (h : w'.registries r = w.registries r) :
    (w'.keeps (.registry r)).Sublist (w.keeps (.registry r)) :=
  List.Sublist.map _ (h ▸ List.Sublist.refl _)

/-- A step of one task takes nothing over for another. -/
theorem keeps_step_of_ne (hs : Sound w) (hc : w.control = .working t op k) {u : Nat} (hu : u ≠ t) :
    (w.step.keeps (.task u)).Sublist (w.keeps (.task u)) :=
  (hs.follows_step hc).keeps fun e => hu (Option.some.inj e)

/-- A step that does not close a registry takes nothing over, but may remember a new import. -/
theorem hands_of_plain (hs : Sound w) (hc : w.control = .working t op k)
    (hop : ∀ r, op ≠ .closeRegistry r)
    (sub : (w.step.keeps (.task t)).Sublist (w.keeps (.task t))) : Hands w w.step [] := by
  have tasks : ∀ u, (w.step.keeps (.task u)).Sublist (w.keeps (.task u)) := fun u => by
    by_cases hu : u = t
    · exact hu ▸ sub
    · exact keeps_step_of_ne hs hc hu
  have fewer : (∀ r, w.step.registries r = w.registries r) → Hands w w.step [] := fun hr => by
    refine .fewer fun x => ?_
    cases x with
    | registry r => exact keeps_registry_of_eq (hr r)
    | task u => exact tasks u
  obtain ⟨-, registries⟩ | ⟨count, registries⟩ := started_step hc
  · exact fewer fun r => (registries r).resolve_right (hop r)
  cases hj : (w.step.tasks w.taskCount).job with
  | host => simp [hj, Remembers] at registries
  | loads =>
    rw [hj] at registries
    exact fewer fun r => congrFun registries r
  | imports r path =>
    rw [hj] at registries
    obtain ⟨-, registries⟩ := registries
    refine .files (r := r) (by omega) ?_ fun x hx => ?_
    · simp [World.keeps, registries]
    · cases x with
      | registry r' =>
        refine keeps_registry_of_eq ?_
        rw [registries]
        exact put_of_ne _ _ fun e => hx (e ▸ rfl)
      | task u => exact tasks u

theorem hands_of_closeRegistry (hs : Sound w) (hc : w.control = .working t (.closeRegistry r) k) :
    Hands w w.step [] := by
  have hstep := step_operate hc rfl
  refine .passes (r := r) (t := t) ?_ ?_ fun x hr ht => ?_
  · rw [hstep]
    simp [World.keeps, operate, goOn]
  · rw [keeps_task (position?_of_goOn hstep), keeps_task (position?_of_working hc)]
    rfl
  · cases x with
    | registry r' =>
      refine keeps_registry_of_eq ?_
      rw [hstep]
      exact put_of_ne _ _ fun e => hr (e ▸ rfl)
    | task u => exact keeps_step_of_ne hs hc fun e => ht (e ▸ rfl)

theorem hands_of_closeLoads (hs : Sound w) {ls : List Nat} {h : Value}
    (hc : w.control = .working t (.closeLoads r (l :: ls)) k)
    (ho : w.outcome? l = some (.value h)) : Hands w w.step [l] := by
  have hstep := step_operate hc rfl
  simp only [operate, closeLoads, ho] at hstep
  refine .releases (t := t) ?_ fun x ht => ?_
  · rw [keeps_task (position?_of_goOn hstep), keeps_task (position?_of_working hc)]
    rfl
  · cases x with
    | registry r' => exact keeps_registry_of_eq (by rw [hstep]; rfl)
    | task u => exact keeps_step_of_ne hs hc fun e => ht (e ▸ rfl)

theorem hands_step (hs : Sound w) (hc : w.control = .working t op k) :
    Hands w w.step w.releasing?.toList := by
  cases hp : w.step.position? t with
  | none =>
    obtain ⟨o, rfl, rfl⟩ | ⟨op', k', hp', -⟩ :=
      (hs.stage t op k (position?_of_working hc)).step hs.coherent hc (hs.follows_step hc).grows
    · rw [releasing?_of_loadsOf hc rfl]
      refine hands_of_plain hs hc nofun ?_
      rw [keeps_task_of_none hp]
      exact List.nil_sublist _
    · cases hp.symm.trans hp'
  | some p =>
    obtain ⟨op', k'⟩ := p
    cases discards_step hc hp with
    | plain hop sub hr =>
      rw [hr]
      rw [← keeps_task hp, ← keeps_task (position?_of_working hc)] at sub
      exact hands_of_plain hs hc hop sub
    | takes hop =>
      subst hop
      rw [releasing?_of_loadsOf hc rfl]
      exact hands_of_closeRegistry hs hc
    | @releases r l ls h hop ho =>
      subst hop
      have hr : w.releasing? = some l := by rw [releasing?, hc]; simp only [ho]
      rw [hr]
      exact hands_of_closeLoads hs hc ho

/-- Without a task at work, no module begins to be released. -/
theorem Aside.releasedBy {m : Move} (hm : w.Aside m) : w.releasedBy m = [] := by
  cases m with
  | step => simp [World.releasedBy, releasing?, hm rfl]
  | _ => rfl

theorem hands_make (hs : Sound w) (m : Move) : Hands w (w.make m) (w.releasedBy m) := by
  obtain ⟨t, op, k, rfl, hc⟩ | hm := w.working_or_aside m
  · exact hands_step hs hc
  · rw [hm.releasedBy]
    refine .fewer fun x => ?_
    cases x with
    | registry r => exact hm.keeps
    | task t => exact (hm.follows hs.coherent).keeps nofun

/-- What is kept was kept before, or is new. -/
theorem Hands.source {rel : List Nat} (h : Hands w w' rel) {x : Keeper} (hl : l ∈ w'.keeps x) :
    (∃ y, l ∈ w.keeps y) ∨ l = w.taskCount := by
  cases h with
  | fewer others => exact .inl ⟨x, (others x).subset hl⟩
  | @files r _ new others =>
    by_cases hr : x = .registry r
    · rw [hr, new] at hl
      exact (List.mem_append.1 hl).imp (fun hl => ⟨_, hl⟩) List.mem_singleton.1
    · exact .inl ⟨x, (others x hr).subset hl⟩
  | @passes r t emptied taken others =>
    left
    by_cases hr : x = .registry r
    · rw [hr, emptied] at hl
      cases hl
    by_cases ht : x = .task t
    · rw [ht, taken] at hl
      obtain hl | hl := List.mem_append.1 hl <;> exact ⟨_, hl⟩
    · exact ⟨x, (others x hr ht).subset hl⟩
  | @releases t l' first others =>
    by_cases ht : x = .task t
    · exact .inl ⟨.task t, first ▸ List.mem_cons_of_mem l' (ht ▸ hl)⟩
    · exact .inl ⟨x, (others x ht).subset hl⟩

/-- What begins to be released was kept. -/
theorem Hands.kept {rel : List Nat} (h : Hands w w' rel) (hl : l ∈ rel) :
    ∃ x, l ∈ w.keeps x := by
  cases h with
  | fewer | files | passes => cases hl
  | releases first =>
    cases List.mem_singleton.1 hl
    exact ⟨_, first ▸ List.mem_cons_self⟩

/-! ## Nobody keeps what another keeps -/

/-- No two keep the same import, and nobody keeps one that was released. -/
structure Apart (w : World) (released : List Nat) : Prop where
  once : released.Nodup
  distinct : ∀ x, (w.keeps x).Nodup
  apart : ∀ x y, x ≠ y → (w.keeps x).Disjoint (w.keeps y)
  unreleased : ∀ x, (w.keeps x).Disjoint released
  older : ∀ x, ∀ l ∈ w.keeps x, l < w.taskCount
  past : ∀ l ∈ released, l < w.taskCount

variable {rel new : List Nat}

theorem Apart.mono (h : Apart w rel) (count : w.taskCount ≤ w'.taskCount)
    (others : ∀ x, (w'.keeps x).Sublist (w.keeps x)) : Apart w' rel where
  once := h.once
  distinct x := (h.distinct x).sublist (others x)
  apart x y hxy _ hx hy := h.apart x y hxy ((others x).subset hx) ((others y).subset hy)
  unreleased x _ hx := h.unreleased x ((others x).subset hx)
  older x l hl := Nat.lt_of_lt_of_le (h.older x l ((others x).subset hl)) count
  past l hl := Nat.lt_of_lt_of_le (h.past l hl) count

theorem Apart.files (h : Apart w rel) (count : w.taskCount < w'.taskCount)
    (new : w'.keeps (.registry r) = w.keeps (.registry r) ++ [w.taskCount])
    (others : ∀ x, x ≠ .registry r → (w'.keeps x).Sublist (w.keeps x)) : Apart w' rel := by
  have mem : ∀ x l, l ∈ w'.keeps x →
      l ∈ w.keeps x ∨ x = .registry r ∧ l = w.taskCount := fun x l hl => by
    by_cases hx : x = .registry r
    · rw [hx, new] at hl
      rw [hx]
      exact (List.mem_append.1 hl).imp_right fun hl => ⟨rfl, List.mem_singleton.1 hl⟩
    · exact .inl ((others x hx).subset hl)
  refine ⟨h.once, fun x => ?_, fun x y hxy l hx hy => ?_, fun x l hx hl => ?_, fun x l hx => ?_,
    fun l hl => (h.past l hl).trans count⟩
  · by_cases hx : x = .registry r
    · rw [hx, new, List.nodup_append]
      refine ⟨h.distinct _, List.nodup_singleton _, fun l hl l' hl' => ?_⟩
      rw [List.mem_singleton.1 hl']
      exact Nat.ne_of_lt (h.older _ l hl)
    · exact (h.distinct x).sublist (others x hx)
  · obtain hx | ⟨rfl, rfl⟩ := mem x l hx
    · obtain hy | ⟨-, rfl⟩ := mem y l hy
      · exact h.apart x y hxy hx hy
      · exact lt_irrefl _ (h.older x _ hx)
    · obtain hy | ⟨rfl, -⟩ := mem y _ hy
      · exact lt_irrefl _ (h.older y _ hy)
      · exact hxy rfl
  · obtain hx | ⟨-, rfl⟩ := mem x l hx
    · exact h.unreleased x hx hl
    · exact lt_irrefl _ (h.past _ hl)
  · obtain hx | ⟨-, rfl⟩ := mem x l hx
    · exact (h.older x l hx).trans count
    · exact count

theorem Apart.passes (h : Apart w rel) (count : w.taskCount ≤ w'.taskCount)
    (emptied : w'.keeps (.registry r) = [])
    (taken : w'.keeps (.task t) = w.keeps (.registry r) ++ w.keeps (.task t))
    (others : ∀ x, x ≠ .registry r → x ≠ .task t → (w'.keeps x).Sublist (w.keeps x)) :
    Apart w' rel := by
  have mem : ∀ x l, l ∈ w'.keeps x → x ≠ .registry r ∧
      (l ∈ w.keeps x ∨ x = .task t ∧ l ∈ w.keeps (.registry r)) := fun x l hl => by
    have hr : x ≠ .registry r := by
      rintro rfl
      rw [emptied] at hl
      cases hl
    by_cases ht : x = .task t
    · rw [ht, taken] at hl
      rw [ht]
      exact ⟨nofun, (List.mem_append.1 hl).symm.imp_right fun hl => ⟨rfl, hl⟩⟩
    · exact ⟨hr, .inl ((others x hr ht).subset hl)⟩
  have source : ∀ x l, l ∈ w'.keeps x → ∃ y, l ∈ w.keeps y := fun x l hl => by
    obtain ⟨-, hl | ⟨-, hl⟩⟩ := mem x l hl <;> exact ⟨_, hl⟩
  refine ⟨h.once, fun x => ?_, fun x y hxy l hx hy => ?_, fun x l hx hl => ?_, fun x l hx => ?_,
    fun l hl => Nat.lt_of_lt_of_le (h.past l hl) count⟩
  · by_cases hr : x = .registry r
    · rw [hr, emptied]
      exact List.nodup_nil
    by_cases ht : x = .task t
    · rw [ht, taken, List.nodup_append']
      exact ⟨h.distinct _, h.distinct _, h.apart _ _ nofun⟩
    · exact (h.distinct x).sublist (others x hr ht)
  · obtain ⟨hr, hx' | ⟨ht, hx'⟩⟩ := mem x l hx
    · obtain ⟨-, hy' | ⟨-, hy'⟩⟩ := mem y l hy
      · exact h.apart x y hxy hx' hy'
      · exact h.apart x _ hr hx' hy'
    · obtain ⟨hr, hy' | ⟨ht', -⟩⟩ := mem y l hy
      · exact h.apart y _ hr hy' hx'
      · exact hxy (ht.trans ht'.symm)
  · obtain ⟨y, hy⟩ := source x l hx
    exact h.unreleased y hy hl
  · obtain ⟨y, hy⟩ := source x l hx
    exact Nat.lt_of_lt_of_le (h.older y l hy) count

theorem Apart.releases (h : Apart w rel) (count : w.taskCount ≤ w'.taskCount)
    (first : w.keeps (.task t) = l :: w'.keeps (.task t))
    (others : ∀ x, x ≠ .task t → (w'.keeps x).Sublist (w.keeps x)) : Apart w' (rel ++ [l]) := by
  have held : l ∈ w.keeps (.task t) := first ▸ List.mem_cons_self
  have hmono : Apart w' rel := h.mono count fun x => by
    by_cases ht : x = .task t
    · rw [ht, first]
      exact List.sublist_cons_self _ _
    · exact others x ht
  refine ⟨?_, hmono.distinct, hmono.apart, fun x l' hx hl' => ?_, hmono.older, fun l' hl' => ?_⟩
  · rw [List.nodup_append']
    refine ⟨h.once, List.nodup_singleton l, fun l' hl' hmem => ?_⟩
    cases List.mem_singleton.1 hmem
    exact h.unreleased _ held hl'
  · obtain hl' | hl' := List.mem_append.1 hl'
    · exact hmono.unreleased x hx hl'
    cases List.mem_singleton.1 hl'
    by_cases ht : x = .task t
    · have hdistinct := h.distinct (.task t)
      rw [first] at hdistinct
      exact (List.nodup_cons.1 hdistinct).1 (ht ▸ hx)
    · exact h.apart x _ ht ((others x ht).subset hx) held
  · obtain hl' | hl' := List.mem_append.1 hl'
    · exact hmono.past l' hl'
    · cases List.mem_singleton.1 hl'
      exact Nat.lt_of_lt_of_le (h.older _ l held) count

theorem Apart.make (hs : Sound w) (h : Apart w rel) (m : Move) :
    Apart (w.make m) (rel ++ w.releasedBy m) := by
  have count := (hs.grows_make m).count
  have hands := hands_make hs m
  generalize w.releasedBy m = new at hands
  cases hands with
  | fewer others => exact (List.append_nil rel).symm ▸ h.mono count others
  | files count new others => exact (List.append_nil rel).symm ▸ h.files count new others
  | passes emptied taken others =>
    exact (List.append_nil rel).symm ▸ h.passes count emptied taken others
  | releases first others => exact h.releases count first others

theorem Apart.course (hs : Sound w) (h : Apart w rel) (ms : List Move) :
    Apart (w.course ms) (rel ++ w.released ms) := by
  induction ms generalizing w rel with
  | nil => exact (List.append_nil rel).symm ▸ h
  | cons m ms ih =>
    rw [released, ← List.append_assoc]
    exact ih (hs.make m) (h.make hs m)

theorem apart_initial (hosts : Nat → SiteHost) (hostOf : Nat → Nat)
    (engine : EngineCall → Behaviour) : Apart (initial hosts hostOf engine) [] := by
  have empty : ∀ x, (initial hosts hostOf engine).keeps x = [] := fun x => by
    cases x <;> rfl
  refine ⟨List.nodup_nil, fun x => ?_, fun x y _ => ?_, fun x => ?_, fun x l hl => ?_, nofun⟩
  · rw [empty]
    exact List.nodup_nil
  · rw [empty]
    exact List.disjoint_nil_left _
  · exact List.disjoint_nil_right _
  · rw [empty] at hl
    cases hl

/-- **Nobody keeps what another keeps**, nor what was released. -/
theorem apart_course (hosts : Nat → SiteHost) (hostOf : Nat → Nat)
    (engine : EngineCall → Behaviour) (ms : List Move) :
    Apart ((initial hosts hostOf engine).course ms) ((initial hosts hostOf engine).released ms) :=
  (apart_initial hosts hostOf engine).course (sound_initial hosts hostOf engine) ms

/-! ## What nobody keeps -/

/-- A task is kept by nobody as an import to release. -/
def Stray (w : World) (l : Nat) : Prop := l < w.taskCount ∧ ∀ x, l ∉ w.keeps x

theorem Stray.make (hs : Sound w) (h : w.Stray l) (m : Move) :
    (w.make m).Stray l ∧ l ∉ w.releasedBy m := by
  obtain ⟨hlt, hl⟩ := h
  have hands := hands_make hs m
  refine ⟨⟨Nat.lt_of_lt_of_le hlt (hs.grows_make m).count, fun x hx => ?_⟩, fun hnew => ?_⟩
  · obtain ⟨y, hy⟩ | rfl := hands.source hx
    · exact hl y hy
    · exact lt_irrefl _ hlt
  · obtain ⟨y, hy⟩ := hands.kept hnew
    exact hl y hy

/-- The module of an import that nobody keeps is never released. -/
theorem Stray.not_released (hs : Sound w) (h : w.Stray l) (ms : List Move) :
    l ∉ w.released ms := by
  induction ms generalizing w with
  | nil => exact List.not_mem_nil
  | cons m ms ih =>
    obtain ⟨hstray, hnot⟩ := h.make hs m
    exact fun hmem => (List.mem_append.1 hmem).elim hnot (ih (hs.make m) hstray)

end World

end ScriptBundle
