import Mathlib.Data.List.Forall2
import Mathlib.Data.List.Infix
import ScriptBundle.Proofs.Site.Keeping
/-!
# Closing registries

A task that closes a registry goes through what the registry has remembered, in that order. A module
that was imported is released, an import that is under way is asked to stop and ends cancelled
(`World.Quits`), and one that has failed is left alone. `World.CloseStage` says how far the task has
come, and every move keeps it on its way (`Closing.make`).

The registry is emptied at the beginning and nothing is released twice. But if the engine fails to
release a module then the task ends with that failure. What it has not come to by then is kept by
nobody any more, and never released. `World.ClosesRegistries` says so, `closesRegistries_course`
proves it of every course, and `left_behind` is a run in which a module stays behind.
-/

namespace ScriptBundle

/-- The module of a registry that is to be released by a call to the engine. -/
def Event.discards? : Event → Option Value
  | .called (.close _) (.dispose h) => some h
  | _ => none

/-- The modules of registries that were to be released by calls to the engine, in order. -/
def discarded (es : List Event) : List Value := es.filterMap Event.discards?

@[simp] theorem discarded_append (es es' : List Event) :
    discarded (es ++ es') = discarded es ++ discarded es' := List.filterMap_append

theorem discarded_emits (op : Operation) (n : Nat) :
    discarded (op.emits n) = op.discards?.toList := by
  cases op with
  | call p c =>
    cases p with
    | close r => cases c <;> rfl
    | _ => rfl
  | follow p c b => cases b <;> rfl
  | _ => rfl

theorem Operation.discards?_eq_none {op : Operation} (h : ∀ p c, op ≠ .call p c) :
    op.discards? = none := by
  cases op with
  | call p c => exact absurd rfl (h p c)
  | _ => rfl

/-- The module of a registry that is about to be released. -/
def Control.discards? : Control → Option Value
  | .working _ op _ => op.discards?
  | .idle => none

namespace World

variable {w w' : World} {t u l : Nat} {op op' : Operation} {k k' : List Frame} {r : Nat}

/-! ## Calls to release modules -/

/-- The modules that were to be released are those that the given imports have ended with. -/
def Accounts (w : World) (rel : List Nat) : Prop :=
  List.Forall₂ (fun l h => w.outcome? l = some (.value h)) rel
    (discarded w.events ++ w.control.discards?.toList)

variable {rel rel' : List Nat}

theorem Accounts.grows (hg : Grows w w') (h : Accounts w rel)
    (same : discarded w'.events ++ w'.control.discards?.toList =
      discarded w.events ++ w.control.discards?.toList) : Accounts w' rel := by
  rw [Accounts, same]
  exact h.imp fun l v ho => hg.outcome l _ ho

theorem Accounts.step_working (hs : Sound w) (h : Accounts w rel)
    (hc : w.control = .working t op k) : Accounts w.step (rel ++ w.releasing?.toList) := by
  have hg := (hs.follows_step hc).grows
  have recorded : discarded w.step.events =
      discarded w.events ++ w.control.discards?.toList := by
    rw [events_step hc, discarded_append, discarded_emits, hc]
    rfl
  have quiet : w.step.control.discards? = none → w.releasing? = none →
      Accounts w.step (rel ++ w.releasing?.toList) := fun hd hr => by
    rw [hr]
    refine (List.append_nil rel).symm ▸ h.grows hg ?_
    rw [recorded, hd]
    exact List.append_nil _
  have hworks := works_step hc
  generalize w.step = w' at *
  cases hworks with
  | goesOn hproceeds =>
    cases hproceeds.discards hc with
    | plain _ _ hr hd => exact quiet hd hr
    | takes hop => exact quiet rfl (releasing?_of_loadsOf hc (by rw [hop]; rfl))
    | @releases r l ls v hop ho =>
      subst hop
      have hr : w.releasing? = some l := by rw [releasing?, hc]; simp only [ho]
      rw [Accounts, recorded, hr]
      refine List.rel_append (h.imp fun l v ho => hg.outcome l _ ho) ?_
      exact .cons (hg.outcome l _ ho) .nil
  | waits hl =>
    refine quiet ?_ (releasing?_of_loadsOf hc rfl)
    rw [awaitTask_eq hl]
    rfl
  | atGate | ends => exact quiet rfl (releasing?_of_loadsOf hc rfl)

theorem Accounts.make (hs : Sound w) (h : Accounts w rel) (m : Move) :
    Accounts (w.make m) (rel ++ w.releasedBy m) := by
  obtain ⟨t, op, k, rfl, hc⟩ | hm := w.working_or_aside m
  · exact h.step_working hs hc
  obtain ⟨new, record, renders⟩ := events_make hm
  have hnew : discarded new = [] := List.filterMap_eq_nil_iff.2 fun e he => by
    obtain ⟨s, rfl⟩ := renders e he
    rfl
  have hcontrol : (w.make m).control.discards? = w.control.discards? := by
    by_cases hstep : m = .step
    · subst hstep
      have hc := hm rfl
      have hidles := idles_step hc
      rw [World.make, hc]
      generalize w.step = w' at hidles
      cases hidles with
      | works =>
        refine Operation.discards?_eq_none ?_
        exact (hs.coherent.operation_of_wake _ _).2.2
      | rests | tells | forgets | drops => exact congrArg Control.discards? hc
    · rw [(make_frame hstep).1]
  rw [hm.releasedBy]
  refine (List.append_nil rel).symm ▸ h.grows (hs.grows_make m) ?_
  rw [record, discarded_append, hnew, List.append_nil, hcontrol]

theorem Accounts.course (hs : Sound w) (h : Accounts w rel) (ms : List Move) :
    Accounts (w.course ms) (rel ++ w.released ms) := by
  induction ms generalizing w rel with
  | nil => exact (List.append_nil rel).symm ▸ h
  | cons m ms ih =>
    rw [released, ← List.append_assoc]
    exact ih (hs.make m) (h.make hs m)

/-! ## Imports that are asked to stop -/

/-- The stages of an import that was asked to stop. -/
inductive QuitStage : Operation → List Frame → Prop
  | stopped : QuitStage (.give .cancelled) []
  | interrupted {p : Purpose} {c : EngineCall} {path : String} :
      QuitStage (.follow p c (.reply .cancelled)) [.imported path]
  | answered {path : String} : QuitStage (.give .cancelled) [.imported path]

/-- A task has ended cancelled or is about to. -/
def Quits (w : World) (l : Nat) : Prop :=
  w.outcome? l = some .cancelled ∨ ∃ op k, w.position? l = some (op, k) ∧ QuitStage op k

theorem ImportStage.quits {path : String} (h : ImportStage r path op k) :
    QuitStage op.interrupted k := by
  cases h with
  | fetch => exact .stopped
  | call => exact .answered
  | follow => exact .interrupted
  | answered => exact .answered
  | ended => exact .stopped

theorem QuitStage.woken (h : QuitStage op k) (hwoken : w.Woken t op op') : QuitStage op' k := by
  cases hwoken with
  | same => exact h
  | told | passed => cases h
  | stopped =>
    cases h with
    | stopped => exact .stopped
    | interrupted => exact .interrupted
    | answered => exact .answered

theorem QuitStage.step (hc : w.control = .working l op k) (h : QuitStage op k) :
    w.step.Quits l := by
  cases h with
  | stopped => exact .inl (step_finish hc ▸ outcome?_finish _)
  | interrupted => exact .inr ⟨_, _, position?_of_goOn (step_operate hc rfl), .answered⟩
  | answered => exact .inr ⟨_, _, position?_of_goOn (step_resume hc), .stopped⟩

theorem Quits.make (hs : Sound w) (h : w.Quits l) (m : Move) : (w.make m).Quits l := by
  obtain ho | ⟨op, k, hp, h⟩ := h
  · exact .inl ((hs.grows_make m).outcome l _ ho)
  have follows : ∀ actor, some l ≠ actor → Follows actor w (w.make m) → (w.make m).Quits l :=
    fun actor hne hf => by
      obtain ⟨op', hp', hwoken⟩ := hf.others l op k hne hp
      exact .inr ⟨op', k, hp', h.woken hwoken⟩
  obtain ⟨t, op₁, k₁, rfl, hc, hf⟩ | hf := hs.follows_move m
  · by_cases ht : l = t
    · subst ht
      cases (position?_of_working hc).symm.trans hp
      exact h.step hc
    · exact follows _ (fun e => ht (Option.some.inj e)) hf
  · exact follows none nofun hf

/-- An import that has not ended and is asked to stop by a task that closes a registry ends
cancelled. -/
theorem quits_of_cancel (hs : Sound w) (hq : Scheduled w) {ls : List Nat}
    (hc : w.control = .working t (.closeLoads r (l :: ls)) k) (ho : w.outcome? l = none) :
    ((w.cancel l).goOn t op' k').Quits l := by
  have hstage := hs.stage t _ k (position?_of_working hc)
  obtain ⟨r', path, hj⟩ := hstage.loadsOf l List.mem_cons_self
  have hne : l ≠ t := by
    rintro rfl
    rw [Stage, hj] at hstage
    cases hstage
  obtain ⟨o, ho'⟩ | ⟨op, k₁, hp⟩ :=
    hq.standing hs.coherent (hs.coherent.lt_of_job (t := l) (by simp [hj]))
  · cases ho.symm.trans ho'
  have hquits := hs.stage l op k₁ hp
  rw [Stage, hj] at hquits
  rw [position?_of_working_ne hc hne] at hp
  obtain ⟨y, hy, -, -, stands, -⟩ := cancel_self hs.coherent hp
  refine .inr ⟨op.interrupted, k₁, ?_, ImportStage.quits hquits⟩
  rw [position?_of_working_ne rfl hne]
  exact hy ▸ stands

/-! ## What becomes of what a registry has remembered -/

/-- What has become of an import that a registry had remembered when it was closed, since the given
number of events. -/
inductive Settled (w : World) (n r : Nat) (rel : List Nat) (l : Nat) : Prop
  /-- Its module was released. -/
  | released {h : Value} (ho : w.outcome? l = some (.value h)) (hl : l ∈ rel)
      (called : .called (.close r) (.dispose h) ∈ w.events.drop n) : Settled w n r rel l
  /-- It has failed. -/
  | failed {o : Outcome} (ho : w.outcome? l = some o) (hfail : o.isFailure = true) :
      Settled w n r rel l
  /-- It was asked to stop, and ends cancelled. -/
  | quits (h : w.Quits l) : Settled w n r rel l

variable {n : Nat} {loads : List Nat}

theorem Settled.make (hs : Sound w) (h : w.Settled n r rel l) (hrel : rel ⊆ rel') (m : Move) :
    (w.make m).Settled n r rel' l := by
  have hg := hs.grows_make m
  cases h with
  | released ho hl called =>
    exact .released (hg.outcome l _ ho) (hrel hl) ((hg.events.drop n).subset called)
  | failed ho hfail => exact .failed (hg.outcome l _ ho) hfail
  | quits h => exact .quits (h.make hs m)

/-- How the closing of a registry ends. -/
inductive CloseResult (w : World) (n r : Nat) (loads rel : List Nat) : Outcome → Prop
  /-- The task has come to everything that the registry had remembered. -/
  | finished (settled : ∀ l ∈ loads, w.Settled n r rel l) :
      CloseResult w n r loads rel (.value .null)
  /-- The engine has failed to release a module, and the rest is kept by nobody. -/
  | failed {done todo : List Nat} {l : Nat} {h : Value} {o : Outcome}
      (split : loads = done ++ l :: todo) (settled : ∀ l' ∈ done ++ [l], w.Settled n r rel l')
      (ho : w.outcome? l = some (.value h))
      (ended : .ended (.close r) (.dispose h) o ∈ w.events.drop n) (hfail : o.isFailure = true)
      (left : ∀ l' ∈ todo, l' ∉ rel ∧ w.Stray l') : CloseResult w n r loads rel o

/-- The stages of a task that closes a registry. Most last only while it is at work. -/
inductive CloseStage (w : World) (n r : Nat) (loads rel : List Nat) (k : List Frame)
    (atWork : Prop) : Operation → List Frame → Prop
  | next {done todo : List Nat} (split : loads = done ++ todo)
      (settled : ∀ l ∈ done, w.Settled n r rel l) (hw : atWork) :
      CloseStage w n r loads rel k atWork (.closeLoads r todo) k
  | call {done todo : List Nat} {l : Nat} {h : Value} (split : loads = done ++ l :: todo)
      (settled : ∀ l ∈ done, w.Settled n r rel l) (ho : w.outcome? l = some (.value h))
      (hl : l ∈ rel) (hw : atWork) :
      CloseStage w n r loads rel k atWork (.call (.close r) (.dispose h)) (.closeNext r todo :: k)
  | follow {done todo : List Nat} {l : Nat} {h : Value} (split : loads = done ++ l :: todo)
      (settled : ∀ l' ∈ done ++ [l], w.Settled n r rel l') (ho : w.outcome? l = some (.value h))
      (b : Behaviour) :
      CloseStage w n r loads rel k atWork (.follow (.close r) (.dispose h) b)
        (.closeNext r todo :: k)
  | answered {done todo : List Nat} {l : Nat} {h : Value} {o : Outcome}
      (split : loads = done ++ l :: todo) (settled : ∀ l' ∈ done ++ [l], w.Settled n r rel l')
      (ho : w.outcome? l = some (.value h))
      (ended : .ended (.close r) (.dispose h) o ∈ w.events.drop n) (hw : atWork) :
      CloseStage w n r loads rel k atWork (.give o) (.closeNext r todo :: k)
  | ended {o : Outcome} (hr : w.CloseResult n r loads rel o) (hw : atWork) :
      CloseStage w n r loads rel k atWork (.give o) k

theorem CloseResult.make (hs : Sound w) {o : Outcome} (h : w.CloseResult n r loads rel o)
    (m : Move) : (w.make m).CloseResult n r loads (rel ++ w.releasedBy m) o := by
  have hg := hs.grows_make m
  have settled' : ∀ {l}, w.Settled n r rel l → (w.make m).Settled n r (rel ++ w.releasedBy m) l :=
    fun h => h.make hs (List.subset_append_left ..) m
  cases h with
  | finished settled => exact .finished fun l hl => settled' (settled l hl)
  | failed split settled ho ended hfail left =>
    refine .failed split (fun l hl => settled' (settled l hl)) (hg.outcome _ _ ho)
      ((hg.events.drop n).subset ended) hfail fun l hl => ?_
    obtain ⟨hnot, hstray⟩ := left l hl
    obtain ⟨hstray', hnot'⟩ := hstray.make hs m
    exact ⟨fun hmem => (List.mem_append.1 hmem).elim hnot hnot', hstray'⟩

/-- What the closing of a registry has come to stays so while the task makes no step. -/
theorem CloseStage.make (hs : Sound w) {a a' : Prop} (h : w.CloseStage n r loads rel k a op k')
    (ha : a → a') (m : Move) :
    (w.make m).CloseStage n r loads (rel ++ w.releasedBy m) k a' op k' := by
  have hg := hs.grows_make m
  have hsub : rel ⊆ rel ++ w.releasedBy m := List.subset_append_left ..
  have settled' : ∀ {l}, w.Settled n r rel l → (w.make m).Settled n r (rel ++ w.releasedBy m) l :=
    fun h => h.make hs hsub m
  cases h with
  | next split settled hw => exact .next split (fun l hl => settled' (settled l hl)) (ha hw)
  | call split settled ho hl hw =>
    exact .call split (fun l hl => settled' (settled l hl)) (hg.outcome _ _ ho) (hsub hl) (ha hw)
  | follow split settled ho b =>
    exact .follow split (fun l hl => settled' (settled l hl)) (hg.outcome _ _ ho) b
  | answered split settled ho ended hw =>
    exact .answered split (fun l hl => settled' (settled l hl)) (hg.outcome _ _ ho)
      ((hg.events.drop n).subset ended) (ha hw)
  | ended hr hw => exact .ended (hr.make hs m) (ha hw)

theorem CloseStage.result {a : Prop} {o : Outcome}
    (h : w.CloseStage n r loads rel k a (.give o) k) : w.CloseResult n r loads rel o := by
  cases h with
  | ended hr => exact hr

/-- Woken, the task goes on with its call to the engine. -/
theorem CloseStage.woken {a : Prop} (h : w.CloseStage n r loads rel k a op k') (hidle : ¬ a)
    (hwoken : Woken w' t op op') : w.CloseStage n r loads rel k a op' k' := by
  cases h with
  | follow split settled ho b =>
    cases hwoken <;> exact .follow split settled ho _
  | next _ _ hw | call _ _ _ _ hw | answered _ _ _ _ hw | ended _ hw => exact absurd hw hidle

/-- What is left to do is less than to give an outcome to the given frames. -/
def Behind (w : World) (t : Nat) (k : List Frame) : Prop :=
  ∀ op k', w.position? t = some (op, k') → burden op k' < burden (.give .cancelled) k

/-- A task closes a registry or has done so. -/
def Closing (w : World) (t n r : Nat) (loads rel : List Nat) (k : List Frame) : Prop :=
  (∃ op k', w.position? t = some (op, k') ∧
    w.CloseStage n r loads rel k (w.AtWork t) op k') ∨ w.Behind t k

/-- A task that gives an outcome to frames leaves that behind. -/
theorem behind_of_give {o : Outcome} (hc : w.control = .working t (.give o) k) :
    w.step.Behind t k := by
  intro op' k' hp
  obtain ⟨_, h⟩ | ⟨-, hwait⟩ := proceeds_or_stays hc hp
  · exact h.onward.lighter
  · cases hwait

theorem Closing.of_goOn {v : World} (h : w' = v.goOn t op' k')
    (hstage : w'.CloseStage n r loads rel k (w'.AtWork t) op' k') :
    w'.Closing t n r loads rel k :=
  .inl ⟨_, _, position?_of_goOn h, hstage⟩

theorem atWork_of_goOn {v : World} (h : w' = v.goOn t op' k') : w'.AtWork t :=
  ⟨_, _, by rw [h]; rfl⟩

theorem Settled.step (hs : Sound w) (h : w.Settled n r rel l) :
    w.step.Settled n r (rel ++ w.releasing?.toList) l :=
  h.make hs (List.subset_append_left ..) .step

theorem settled_step_append (hs : Sound w) {done : List Nat}
    (settled : ∀ l ∈ done, w.Settled n r rel l)
    (hl : w.step.Settled n r (rel ++ w.releasing?.toList) l) :
    ∀ l' ∈ done ++ [l], w.step.Settled n r (rel ++ w.releasing?.toList) l' := fun l' hl' =>
  (List.mem_append.1 hl').elim (fun h => (settled l' h).step hs) fun h =>
    List.mem_singleton.1 h ▸ hl

/-- The task comes to the next import. -/
theorem closing_step_of_closeLoads (hs : Sound w) (hq : Scheduled w) {done todo : List Nat}
    (hc : w.control = .working t (.closeLoads r todo) k) (split : loads = done ++ todo)
    (settled : ∀ l ∈ done, w.Settled n r rel l) :
    w.step.Closing t n r loads (rel ++ w.releasing?.toList) k := by
  obtain ⟨v, op', k', hstep, h⟩ := proceeds_step hc rfl (.inl rfl)
  have next : ∀ {l todo}, loads = done ++ l :: todo → loads = (done ++ [l]) ++ todo :=
    fun split => by simp [split]
  cases h with
  | yields h =>
    cases h with
    | allClosed =>
      rw [List.append_nil] at split
      exact .of_goOn hstep (.ended (.finished fun l hl => (settled l (split ▸ hl)).step hs)
        (atWork_of_goOn hstep))
  | @cancels _ l _ _ ho =>
    have hquits : w.step.Quits l := hstep ▸ quits_of_cancel hs hq hc ho
    exact .of_goOn hstep (.next (next split) (settled_step_append hs settled (.quits hquits))
      (atWork_of_goOn hstep))
  | @releasesShared _ l _ _ _ ho =>
    have hr : w.releasing? = some l := by rw [releasing?, hc]; simp only [ho]
    refine .of_goOn hstep (.call split (fun l hl => (settled l hl).step hs)
      ((hs.grows_make .step).outcome l _ ho) ?_ (atWork_of_goOn hstep))
    simp [hr]
  | skips ho hfail =>
    have ho := (hs.grows_make .step).outcome _ _ ho
    exact .of_goOn hstep (.next (next split) (settled_step_append hs settled (.failed ho hfail))
      (atWork_of_goOn hstep))

/-- What the task has yet to come to is kept by nobody when it gives that up. -/
theorem stray_step_of_closeNext (hs : Sound w) (hapart : Apart w rel) {todo : List Nat}
    {o : Outcome} (hc : w.control = .working t (.give o) (.closeNext r todo :: k))
    (hstep : w.step = w.goOn t (.give o) k) (hl : l ∈ todo) :
    l ∉ rel ++ w.releasing?.toList ∧ w.step.Stray l := by
  have kept : w.keeps (.task t) = todo ++ k.flatMap Frame.remains :=
    keeps_task (position?_of_working hc)
  have hmem : l ∈ w.keeps (.task t) := kept ▸ List.mem_append_left _ hl
  have count := (hs.grows_make .step).count
  refine ⟨?_, Nat.lt_of_lt_of_le (hapart.older _ l hmem) count, fun x hx => ?_⟩
  · rw [releasing?_of_loadsOf hc rfl]
    exact (List.append_nil rel).symm ▸ hapart.unreleased _ hmem
  · by_cases ht : x = .task t
    · have hdistinct := hapart.distinct (.task t)
      rw [kept, List.nodup_append'] at hdistinct
      rw [ht, keeps_task (position?_of_goOn hstep)] at hx
      exact hdistinct.2.2 hl hx
    · refine hapart.apart x _ ht ?_ hmem
      cases x with
      | registry r' => rwa [hstep] at hx
      | task u => exact (keeps_step_of_ne hs hc fun e => ht (e ▸ rfl)).subset hx

/-- The engine has answered: the task goes on, or gives up if that was a failure. -/
theorem closing_step_of_closeNext (hs : Sound w) (hapart : Apart w rel) {done todo : List Nat}
    {h : Value} {o : Outcome} (hc : w.control = .working t (.give o) (.closeNext r todo :: k))
    (split : loads = done ++ l :: todo) (settled : ∀ l' ∈ done ++ [l], w.Settled n r rel l')
    (ho : w.outcome? l = some (.value h))
    (ended : .ended (.close r) (.dispose h) o ∈ w.events.drop n) :
    w.step.Closing t n r loads (rel ++ w.releasing?.toList) k := by
  have hg := hs.grows_make .step
  have settled := fun l hl => (settled l hl).step hs
  have hstep := step_resume hc
  have failed : o.isFailure = true → w.step = w.goOn t (.give o) k →
      w.step.Closing t n r loads (rel ++ w.releasing?.toList) k := fun hfail hstep =>
    .of_goOn hstep (.ended (.failed split settled (hg.outcome _ _ ho)
      ((hg.events.drop n).subset ended) hfail
      fun l' hl' => stray_step_of_closeNext hs hapart hc hstep hl') (atWork_of_goOn hstep))
  cases o with
  | value v =>
    have split' : loads = (done ++ [l]) ++ todo := by simp [split]
    exact .of_goOn hstep (.next split' settled (atWork_of_goOn hstep))
  | error | cancelled => exact failed rfl hstep

/-- A step leads the task that closes a registry on. -/
theorem CloseStage.step (hs : Sound w) (hq : Scheduled w) (hapart : Apart w rel)
    (hn : n ≤ w.events.length) (hc : w.control = .working t op k') {a : Prop}
    (h : w.CloseStage n r loads rel k a op k') :
    w.step.Closing t n r loads (rel ++ w.releasing?.toList) k := by
  have hg := hs.grows_make .step
  have recorded : ∀ {e}, e ∈ op.emits w.named → e ∈ w.step.events.drop n := fun he => by
    rw [events_step hc, List.drop_append_of_le_length hn]
    exact List.mem_append_right _ he
  cases h with
  | next split settled => exact closing_step_of_closeLoads hs hq hc split settled
  | call split settled ho hl =>
    refine .of_goOn (step_operate hc rfl) (.follow split (settled_step_append hs settled ?_)
      (hg.outcome _ _ ho) _)
    exact .released (hg.outcome _ _ ho) (List.mem_append_left _ hl)
      (recorded (List.mem_singleton_self _))
  | follow split settled ho b =>
    have settled := fun l hl => (settled l hl).step hs
    cases b with
    | gate g =>
      exact .inl ⟨_, _, position?_of_gate (step_operate hc rfl),
        .follow split settled (hg.outcome _ _ ho) _⟩
    | reply reply =>
      have hstep := step_operate hc rfl
      exact .of_goOn hstep (.answered split settled (hg.outcome _ _ ho)
        (recorded (List.mem_singleton_self _)) (atWork_of_goOn hstep))
  | answered split settled ho ended =>
    exact closing_step_of_closeNext hs hapart hc split settled ho ended
  | ended => exact .inr (behind_of_give hc)

theorem Woken.burden_le (h : w.Woken t op op') : burden op' k ≤ burden op k := by
  have le : op'.closes ≤ op.closes → op'.weight ≤ op.weight → burden op' k ≤ burden op k :=
    fun hc hw => by
      rw [burden, burden, Prod.Lex.toLex_le_toLex]
      omega
  cases h with
  | same | passed => exact le_refl _
  | told => exact le (le_refl _) (Nat.zero_le _)
  | stopped => cases op <;> exact le (Nat.zero_le _) (by simp [Operation.interrupted])

theorem Behind.make (hs : Sound w) (ht : t < w.taskCount) (h : w.Behind t k) (m : Move) :
    (w.make m).Behind t k := by
  intro op' k' hp
  have others : ∀ actor, some t ≠ actor → Follows actor w (w.make m) →
      burden op' k' < burden (.give .cancelled) k := by
    intro actor hne hf
    cases hp₀ : w.position? t with
    | none => exact absurd ht (Nat.not_lt.2 (hf.newcomers t op' k' hne hp₀ hp).1)
    | some p =>
      obtain ⟨op, k₀⟩ := p
      obtain ⟨op₁, hp₁, hwoken⟩ := hf.others t op k₀ hne hp₀
      cases hp₁.symm.trans hp
      exact lt_of_le_of_lt hwoken.burden_le (h _ _ hp₀)
  obtain ⟨u, op, k₀, rfl, hc, hf⟩ | hf := hs.follows_move m
  · by_cases hu : t = u
    · subst hu
      have hlt := h op k₀ (position?_of_working hc)
      obtain onward | ⟨rfl, rfl⟩ := onward_step hc hp
      · exact lt_trans onward.lighter hlt
      · exact hlt
    · exact others _ (fun e => hu (Option.some.inj e)) hf
  · exact others none nofun hf

theorem Closing.make (hs : Sound w) (hq : Scheduled w) (hapart : Apart w rel)
    (hn : n ≤ w.events.length) (ht : t < w.taskCount) (h : w.Closing t n r loads rel k)
    (m : Move) : (w.make m).Closing t n r loads (rel ++ w.releasedBy m) k := by
  obtain ⟨op, k', hp, h⟩ | h := h
  · by_cases hwork : m = .step ∧ w.AtWork t
    · obtain ⟨rfl, op₁, k₁, hc⟩ := hwork
      cases (position?_of_working hc).symm.trans hp
      exact h.step hs hq hapart hn hc
    obtain ⟨op', hp', ⟨rfl, hw⟩ | ⟨hidle, hwoken⟩⟩ := hs.stays hp fun hm hw => hwork ⟨hm, hw⟩
    · exact .inl ⟨op', k', hp', h.make hs (fun _ => hw) m⟩
    · refine .inl ⟨op', k', hp', ?_⟩
      exact (h.woken hidle hwoken).make hs (fun hw => absurd hw hidle) m
  · exact .inr (h.make hs ht m)

theorem Closing.course (hs : Sound w) (hq : Scheduled w) (hapart : Apart w rel)
    (hn : n ≤ w.events.length) (ht : t < w.taskCount) (h : w.Closing t n r loads rel k)
    (ms : List Move) : (w.course ms).Closing t n r loads (rel ++ w.released ms) k := by
  induction ms generalizing w rel with
  | nil => exact (List.append_nil rel).symm ▸ h
  | cons m ms ih =>
    have hg := hs.grows_make m
    rw [released, ← List.append_assoc]
    exact ih (hs.make m) (hq.make hs m) (hapart.make hs m) (hn.trans hg.events.length_le)
      (Nat.lt_of_lt_of_le ht hg.count) (h.make hs hq hapart hn ht m)

/-! ## Courses -/

/-- What holds of closing registries after moves from a world. -/
structure ClosesRegistries (w : World) (ms : List Move) : Prop where
  /-- No module is released twice for registries, however often they are closed. -/
  once : (w.released ms).Nodup
  /-- Each call to release a module for a registry is for an import that has ended with it. -/
  calls : List.Forall₂ (fun l h => (w.course ms).outcome? l = some (.value h)) (w.released ms)
    (discarded (w.course ms).events ++ (w.course ms).control.discards?.toList)
  /-- What a registry remembers is not released, and is gone from all registries once that one is
  closed. -/
  emptied : ∀ t r k, (w.course ms).control = .working t (.closeRegistry r) k →
    ∀ path l, (path, l) ∈ (w.course ms).registries r → l ∉ w.released ms ∧
      ∀ ms' r', (path, l) ∉ (w.course (ms ++ .step :: ms')).registries r'
  /-- When a task has closed a registry, it has come to all that was remembered, or the engine has
  failed to release a module and the rest is kept by nobody. -/
  closed : ∀ t r k, (w.course ms).control = .working t (.closeRegistry r) k →
    ∀ ms' o, (w.course (ms ++ .step :: ms')).position? t = some (.give o, k) →
      (w.course (ms ++ .step :: ms')).CloseResult (w.course ms).events.length r
        (((w.course ms).registries r).map Prod.snd) (w.released (ms ++ .step :: ms')) o
  /-- What is kept by nobody is never released. -/
  left : ∀ l, (w.course ms).Stray l → ∀ ms', l ∉ (w.course ms).released ms'

/-- What a registry has remembered is gone from all registries once that is closed. -/
theorem not_mem_registries_of_closed (hs : Sound w) {path : String}
    (hc : w.control = .working t (.closeRegistry r) k) (hm : (path, l) ∈ w.registries r)
    (ms : List Move) (r' : Nat) : (path, l) ∉ (w.step.course ms).registries r' := by
  have hlt := (hs.coherent.remembered r path l hm).1
  have hstep : (path, l) ∉ w.step.registries r' := fun h => by
    obtain h' | ⟨rfl, -⟩ := mem_registries_make (m := .step) hs h
    · obtain ⟨-, hj⟩ := hs.coherent.remembered r path l hm
      cases hj.symm.trans (hs.coherent.remembered r' path l h').2
      rw [registries_of_closeRegistry hc] at h
      cases h
    · exact lt_irrefl _ hlt
  suffices ∀ v : World, Sound v → l < v.taskCount → (path, l) ∉ v.registries r' →
      (path, l) ∉ (v.course ms).registries r' from
    this w.step (hs.make .step) (Nat.lt_of_lt_of_le hlt (hs.grows_make .step).count) hstep
  induction ms with
  | nil => exact fun _ _ _ h => h
  | cons m ms ih =>
    intro v hv hlt' h
    refine ih (v.make m) (hv.make m) (Nat.lt_of_lt_of_le hlt' (hv.grows_make m).count) fun h' => ?_
    obtain h' | ⟨rfl, -⟩ := mem_registries_make hv h'
    · exact h h'
    · exact lt_irrefl _ hlt'

/-- **Closing registries.** Whatever hosts and engine do and in whatever order, a registry that is
closed is emptied at once and nothing is released twice. Everything that it had remembered is
released, asked to stop or has failed, up to the first module that the engine fails to release. -/
theorem closesRegistries_course (hosts : Nat → SiteHost) (hostOf : Nat → Nat)
    (engine : EngineCall → Behaviour) (ms : List Move) :
    ClosesRegistries (initial hosts hostOf engine) ms := by
  have hs := sound_course hosts hostOf engine ms
  have hq := scheduled_course hosts hostOf engine ms
  have hapart := apart_course hosts hostOf engine ms
  have haccounts : Accounts ((initial hosts hostOf engine).course ms)
      ([] ++ (initial hosts hostOf engine).released ms) :=
    Accounts.course (sound_initial hosts hostOf engine) .nil ms
  refine ⟨hapart.once, haccounts, fun t r k hc path l hm => ⟨?_, fun ms' r' => ?_⟩,
    fun t r k hc ms' o hp => ?_, fun l hl ms' => hl.not_released hs ms'⟩
  · exact hapart.unreleased (.registry r) (List.mem_map_of_mem hm)
  · rw [course_append]
    exact not_mem_registries_of_closed hs hc hm ms' r'
  · rw [released_append]
    rw [course_append] at hp ⊢
    generalize (initial hosts hostOf engine).course ms = w at hs hq hapart hc hp ⊢
    have hstep := step_operate hc rfl
    have hg := hs.grows_make .step
    have hclosing : w.step.Closing t w.events.length r ((w.registries r).map Prod.snd)
        ((initial hosts hostOf engine).released ms ++ w.releasedBy .step) k :=
      .of_goOn hstep (.next (List.nil_append _).symm nofun (atWork_of_goOn hstep))
    have hclosing := hclosing.course (hs.make .step) (hq.make hs .step) (hapart.make hs .step)
      hg.events.length_le (Nat.lt_of_lt_of_le (hs.coherent.atWork t _ _ hc).1 hg.count) ms'
    rw [List.append_assoc] at hclosing
    obtain ⟨op, k', hp', hstage⟩ | hbehind := hclosing
    · cases hp'.symm.trans hp
      exact hstage.result
    · exact absurd (hbehind _ _ hp) (lt_irrefl _)

/-- Two sites have imported a module each that is shared. The engine fails to release the first one
when the registry is closed. The second one stays behind, and to close the registry again does not
release it either. -/
theorem left_behind :
    let host : SiteHost := ⟨{}, ⟨"app", ⟨[], []⟩, []⟩, 0⟩
    let handle : RenderHandle := ⟨.nothing, .absent⟩
    let shared (file : String) : List (String × Value) :=
      [("ScriptFile", .string file), ("GlobalBundle", .bool true)]
    let engine : EngineCall → Behaviour
      | .dispose (.string h) => if h = "m1" then .reply (.failed "boom") else .reply .done
      | _ => .reply .done
    let w := (initial (fun _ => host) (fun _ => 0) engine).course
      ([.attach 0 handle, .assign 0 (shared "a.js"), .attach 1 handle, .assign 1 (shared "b.js"),
        .start [.getModule 0, .getModule 1]] ++ List.replicate 60 .step)
    let w' := w.course ([.start [.closeRegistry 0]] ++ List.replicate 30 .step)
    let w'' := w'.course ([.start [.closeRegistry 0]] ++ List.replicate 30 .step)
    (w.sites 0).state = .ready ∧ (w.sites 1).state = .ready ∧
      (w.registries 0).map Prod.fst = ["a.js", "b.js"] ∧
        calls (.close 0) w'.events = 1 ∧ w'.registries 0 = [] ∧ w'.isQuiet = true ∧
          calls (.close 0) w''.events = 1 ∧ w''.isQuiet = true := by
  decide +kernel

end World

end ScriptBundle
