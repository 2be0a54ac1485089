import ScriptBundle.Proofs.Site.OnlyForward
import ScriptBundle.Proofs.Site.Releasing
/-!
# Who waits for the module of a site

A task waits for the module of a site to call a function of it or to release it, with a frame on top
that tells which. A step of the task at work puts such a frame there only if it begins to call or to
dispose (`leads_step`).

A task that has been let through to the module of a site, `World.Using`, may call a function of it
even if the site is disposed meanwhile. But nobody is let through to a disposed site (`using_make`).
A task that is to release the module, `World.Holding`, is one that has disposed the site
(`holding_make`).
-/

namespace ScriptBundle

/-- Whether a frame waits for the module of a site, to call a function of it or to release it. -/
def Frame.waits : Frame → Bool
  | .invokeOn _ _ _ | .releaseAfter _ => true
  | _ => false

/-- The frames that wait for the module of a site once an operation is begun. -/
def Operation.asks : Operation → List Frame
  | .invoke s id args => [.invokeOn s id args]
  | .dispose s => [.releaseAfter s]
  | _ => []

/-- Whether an operation is to call a function of a site. -/
def Operation.isUse : Operation → Bool
  | .call (.use _) (.invoke _ _ _) => true
  | _ => false

/-- What is left to do leads to a call of a function of a site, which has not been made yet: the
module is there or is waited for. -/
inductive Uses (s : Nat) : Operation → List Frame → Prop
  | awaits {l : Nat} {id : String} {args : List Value} {k : List Frame} :
      Uses s (.await l) (.invokeOn s id args :: k)
  | given {h : Value} {id : String} {args : List Value} {k : List Frame} :
      Uses s (.give (.value h)) (.invokeOn s id args :: k)
  | calls {m : Value} {id : String} {args : List Value} {k : List Frame} :
      Uses s (.call (.use s) (.invoke m id args)) k

/-- What is left to do after a step, compared with what was before, as far as modules of sites are
concerned. -/
structure Leads (op : Operation) (k : List Frame) (op' : Operation) (k' : List Frame) : Prop where
  waits : ∀ f, f.waits = true → f ∈ k' → f ∈ k ∨ f ∈ op.asks
  calls : ∀ s m f as, op' = .call (.use s) (.invoke m f as) →
    ∃ h id args, op = .give (.value h) ∧ k = .invokeOn s id args :: k'

theorem SiteCall.isUse_operation (c : SiteCall) : c.operation.isUse = false := by
  cases c <;> rfl

theorem Leads.of_isUse {op op' : Operation} {k k' : List Frame}
    (waits : ∀ f, f.waits = true → f ∈ k' → f ∈ k ∨ f ∈ op.asks) (hop : op'.isUse = false) :
    Leads op k op' k' := by
  refine ⟨waits, ?_⟩
  rintro s m f as rfl
  cases hop

namespace World

variable {w w' v : World} {s t : Nat} {op op' : Operation} {k k' : List Frame}

/-! ## The task at work -/

theorem Proceeds.leads (h : w.Proceeds op k v op' k') : Leads op k op' k' := by
  cases h with
  | uses =>
    refine ⟨fun g _ hmem => .inl (List.mem_cons_of_mem _ hmem), ?_⟩
    rintro s m f as hcall
    cases hcall
    exact ⟨_, _, _, rfl, rfl⟩
  | @makesNext c => exact .of_isUse (by grind [Frame.waits]) c.isUse_operation
  | @fetches p => exact .of_isUse (by grind [Frame.waits]) (by cases p <;> rfl)
  | _ => exact .of_isUse (by grind [Frame.waits, Operation.asks]) rfl

/-- A step of the task at work leads on, or leaves it waiting where it is. -/
theorem leads_step (hc : w.control = .working t op k)
    (hp : w.step.position? t = some (op', k')) : Leads op k op' k' ∨ op' = op ∧ k' = k :=
  (proceeds_or_stays hc hp).imp (fun ⟨_, h⟩ => h.leads) And.left

/-! ## Where the frames lie -/

theorem PlainFrame.waits {f : Frame} (h : w.PlainFrame f) : f.waits = false := by
  cases f with
  | invokeOn | releaseAfter => exact h.elim
  | _ => rfl

theorem waits_of_loadStage {c : SiteSetup} {joins : Nat → Prop} {shares : Outcome → Prop}
    {es : List Event} (h : LoadStage c s joins shares es op k) : ∀ f ∈ k, f.waits = false := by
  cases h <;> simp [Frame.waits]

theorem waits_of_importStage {r : Nat} {path : String} (h : ImportStage r path op k) :
    ∀ f ∈ k, f.waits = false := by
  cases h <;> simp [Frame.waits]

/-- Only tasks of hosts wait for modules to do something with them. -/
theorem Sound.hosted_of_waits (hs : Sound w) (hp : w.position? t = some (op, k)) {f : Frame}
    (hf : f.waits = true) (hmem : f ∈ k) :
    (∃ call, (w.tasks t).job = .host call) ∧ w.CallStage t op k := by
  obtain ⟨u, c, es, -, -, -, h⟩ | ⟨r, path, -, h⟩ | ⟨call, hj, h⟩ := (hs.stage t op k hp).byJob
  · cases hf.symm.trans (waits_of_loadStage h f hmem)
  · cases hf.symm.trans (waits_of_importStage h f hmem)
  · exact ⟨⟨call, hj⟩, h⟩

/-- A task waits for one module at a time, with the frame for that on top. -/
theorem Sound.top_of_waits (hs : Sound w) (hp : w.position? t = some (op, k)) {f : Frame}
    (hf : f.waits = true) (hmem : f ∈ k) : ∃ k₁, k = f :: k₁ := by
  have absurd' : ∀ {p : Prop}, f.waits = false → p := fun h => absurd hf (by simp [h])
  have top : ∀ {g : Frame} {k₁ : List Frame}, (∀ g ∈ k₁, w.PlainFrame g) → f ∈ g :: k₁ →
      ∃ k₂, g :: k₁ = f :: k₂ := fun hk hmem => by
    obtain rfl | hmem := List.mem_cons.1 hmem
    · exact ⟨_, rfl⟩
    · exact absurd' (hk f hmem).waits
  obtain ⟨-, h⟩ := hs.hosted_of_waits hp hf hmem
  cases h with
  | plain _ hk => exact absurd' (hk f hmem).waits
  | seeks _ _ hk | awaitsLoad _ hk | toldLoad _ hk | unloads _ _ hk | unloaded _ hk =>
    exact top hk hmem

/-! ## Where a task stood before -/

/-- A task that is not at work stood where it stands, unless it was woken there or has just been
started. -/
theorem Follows.stood {actor : Option Nat} (hf : Follows actor w w') (ht : some t ≠ actor)
    (hp : w'.position? t = some (op', k)) :
    op' = (w'.tasks t).job.operation ∧ k = [] ∨
      ∃ op, w.position? t = some (op, k) ∧ w'.Woken t op op' := by
  cases hp₀ : w.position? t with
  | none => exact .inl (hf.newcomers t op' k ht hp₀ hp).2
  | some p =>
    obtain ⟨op, k₀⟩ := p
    obtain ⟨op₁, hp₁, hwoken⟩ := hf.others t op k₀ ht hp₀
    cases hp₁.symm.trans hp
    exact .inr ⟨op, rfl, hwoken⟩

theorem Sound.stood_make (hs : Sound w) {m : Move}
    (hp : (w.make m).position? t = some (op', k')) :
    op' = ((w.make m).tasks t).job.operation ∧ k' = [] ∨
      (∃ op, w.position? t = some (op, k') ∧ (w.make m).Woken t op op') ∨
        m = .step ∧ ∃ op k, w.control = .working t op k := by
  obtain ⟨u, op, k, rfl, hc, hf⟩ | hf := hs.follows_move m
  · by_cases ht : t = u
    · exact .inr (.inr ⟨rfl, op, k, ht ▸ hc⟩)
    · exact (hf.stood (fun h => ht (Option.some.inj h)) hp).imp_right .inl
  · exact (hf.stood nofun hp).imp_right .inl

/-! ## Those who are let through -/

theorem Coherent.not_uses_start (hw : Coherent w) : ¬ Uses s (w.tasks t).job.operation k := by
  cases hj : (w.tasks t).job with
  | host op =>
    obtain ⟨calls, rfl⟩ := hw.hosted t op hj
    nofun
  | loads | imports => nofun

theorem Woken.uses (h : w.Woken t op op') (hu : Uses s op' k) : Uses s op k := by
  cases h with
  | same => exact hu
  | told => cases hu with | given => exact .awaits
  | passed => cases hu
  | stopped => cases op <;> cases hu

/-- A step lets only those through to the module of a site who ask while it is not disposed. -/
theorem uses_step (hs : Sound w) (hc : w.control = .working t op k)
    (hp : w.step.position? t = some (op', k')) (hu : Uses s op' k') :
    Uses s op k ∨ op = .getModule s ∧ (w.sites s).state ≠ .disposed := by
  obtain hl | ⟨rfl, rfl⟩ := leads_step hc hp
  swap
  · exact .inl hu
  have waited : ∀ id args k₁, k' = .invokeOn s id args :: k₁ →
      (∃ l, op' = .await l) ∨ (∃ h, op' = .give (.value h)) →
        Uses s op k ∨ op = .getModule s ∧ (w.sites s).state ≠ .disposed := by
    rintro id args k₁ rfl hop
    obtain hmem | hmem := hl.waits _ rfl List.mem_cons_self
    · obtain ⟨k₂, rfl⟩ := hs.top_of_waits (position?_of_working hc) rfl hmem
      cases hs.seeks (position?_of_working hc) rfl with
      | get =>
        refine .inr ⟨rfl, fun hd => ?_⟩
        cases (position?_of_goOn (step_getModule hc hd)).symm.trans hp
        rcases hop with ⟨l, hop⟩ | ⟨h, hop⟩ <;> cases hop
      | await => exact .inl .awaits
      | @give o =>
        have hstep := step_resume hc
        cases o with
        | value => exact .inl .given
        | error | cancelled =>
          cases (position?_of_goOn hstep).symm.trans hp
          rcases hop with ⟨l, hop⟩ | ⟨h, hop⟩ <;> cases hop
    · cases op with
      | invoke u id args =>
        cases (position?_of_goOn (step_operate hc rfl)).symm.trans hp
        rcases hop with ⟨l, hop⟩ | ⟨h, hop⟩ <;> cases hop
      | dispose => cases List.mem_singleton.1 hmem
      | _ => cases hmem
  cases hu with
  | awaits => exact waited _ _ _ rfl (.inl ⟨_, rfl⟩)
  | given => exact waited _ _ _ rfl (.inr ⟨_, rfl⟩)
  | calls =>
    obtain ⟨h, id, args, rfl, rfl⟩ := hl.calls _ _ _ _ rfl
    exact .inl .given

/-- A task has been let through to the module of a site, and is to call a function of it. -/
def Using (w : World) (s t : Nat) : Prop := ∃ op k, w.position? t = some (op, k) ∧ Uses s op k

/-- Nobody is let through to the module of a site that is disposed. -/
theorem using_make (hs : Sound w) {m : Move} (hu : (w.make m).Using s t) :
    w.Using s t ∨ (w.sites s).state ≠ .disposed ∧
      m = .step ∧ ∃ k, w.control = .working t (.getModule s) k := by
  obtain ⟨op', k', hp, hu⟩ := hu
  obtain ⟨rfl, -⟩ | ⟨op, hp₀, hwoken⟩ | ⟨rfl, op, k, hc⟩ := hs.stood_make hp
  · exact absurd hu (hs.make m).coherent.not_uses_start
  · exact .inl ⟨op, k', hp₀, hwoken.uses hu⟩
  · obtain hu | ⟨rfl, hd⟩ := uses_step hs hc hp hu
    · exact .inl ⟨op, k, position?_of_working hc, hu⟩
    · exact .inr ⟨hd, rfl, k, hc⟩

/-- Only tasks of hosts are let through. -/
theorem Sound.hosted_of_uses (hs : Sound w) (hp : w.position? t = some (op, k)) (hu : Uses s op k) :
    ∃ op, (w.tasks t).job = .host op := by
  cases hu with
  | awaits | given => exact (hs.hosted_of_waits hp rfl List.mem_cons_self).1
  | calls =>
    have allowed := (hs.stage t _ _ hp).allows (p := .use s) rfl
    cases hj : (w.tasks t).job with
    | host op => exact ⟨op, rfl⟩
    | loads | imports =>
      rw [hj] at allowed
      exact allowed.elim

/-- Functions of a site are called only by those who are let through to its module. -/
theorem using_of_called (hs : Sound w) {c : EngineCall}
    (hc : w.control = .working t (.call (.use s) c) k) : w.Using s t := by
  have hp := position?_of_working hc
  obtain ⟨-, h, -, id, args, rfl⟩ | ⟨hu, -⟩ | ⟨hu, -⟩ :=
    (hs.stage t _ _ hp).warrants (s := s) List.mem_cons_self
  · exact ⟨_, _, hp, .calls⟩
  · cases hu
  · cases hu

/-! ## Those who are to release -/

/-- A task is to release the module of a site once the load has ended, and was not asked to stop. -/
def Holding (w : World) (s t : Nat) : Prop :=
  ∃ op k, w.position? t = some (op, .releaseAfter s :: k) ∧ op ≠ .give .cancelled

theorem Woken.ne_cancelled (h : w.Woken t op op') (hop : op' ≠ .give .cancelled) :
    op ≠ .give .cancelled := by
  rintro rfl
  cases h <;> exact hop rfl

/-- Whoever is to release the module of a site has disposed it. -/
theorem holding_make (hs : Sound w) {m : Move} (hh : (w.make m).Holding s t) :
    w.Holding s t ∨ (w.sites s).state ≠ .disposed ∧ m = .step ∧
      ∃ k c l, w.control = .working t (.dispose s) k ∧ (w.sites s).setup = some c ∧
        c.isShared = false ∧ (w.sites s).load = some l ∧
          w.step = (w.updateSite s fun x => { x with state := .disposed }).goOn t (.await l)
            (.releaseAfter s :: .discard :: k) := by
  obtain ⟨op', k', hp, hop'⟩ := hh
  obtain ⟨-, hnil⟩ | ⟨op, hp₀, hwoken⟩ | ⟨rfl, op, k, hc⟩ := hs.stood_make hp
  · cases hnil
  · exact .inl ⟨op, k', hp₀, hwoken.ne_cancelled hop'⟩
  have hpos := position?_of_working hc
  obtain hl | ⟨rfl, rfl⟩ := leads_step hc hp
  swap
  · exact .inl ⟨_, _, hpos, hop'⟩
  obtain hmem | hmem := hl.waits _ rfl List.mem_cons_self
  · obtain ⟨k₁, rfl⟩ := hs.top_of_waits hpos rfl hmem
    refine .inl ⟨op, k₁, hpos, ?_⟩
    rintro rfl
    cases (position?_of_goOn (step_resume hc)).symm.trans hp
    exact hop' rfl
  · cases op with
    | dispose u =>
      cases List.mem_singleton.1 hmem
      obtain ⟨hd, c, l, hsetup, hshared, hload, hstep⟩ | hstep := step_dispose hc
      · exact .inr ⟨hd, rfl, k, c, l, hc, hsetup, hshared, hload, hstep⟩
      · cases (position?_of_goOn hstep).symm.trans hp
        exact .inl ⟨_, k', hpos, nofun⟩
    | invoke => cases List.mem_singleton.1 hmem
    | _ => cases hmem

/-- Whoever is to release the module of a site waits for the load, or has been told that it ended.
-/
theorem Sound.awaits_of_holding (hs : Sound w)
    (hp : w.position? t = some (op, .releaseAfter s :: k)) (hop : op ≠ .give .cancelled) :
    (∃ l, op = .await l ∧ (w.sites s).load = some l) ∨ ∃ o, op = .give o ∧ w.LoadEnded s o := by
  obtain ⟨-, h⟩ := hs.hosted_of_waits hp rfl List.mem_cons_self
  cases h with
  | plain _ hk => exact (hk _ List.mem_cons_self).elim
  | seeks hf => cases hf
  | @awaitsLoad _ l _ hl => exact .inl ⟨l, rfl, hl⟩
  | @toldLoad _ o _ ho =>
    refine .inr ⟨o, rfl, ho.resolve_right ?_⟩
    rintro rfl
    exact hop rfl

/-! ## Beginning to release -/

/-- Somebody has begun to release the module of a site. -/
def Begun (w : World) (s : Nat) : Prop :=
  (∃ t, w.Releasing s t) ∨ releaseEvents s w.events ≠ []

theorem not_begun_initial (hosts : Nat → SiteHost) (hostOf : Nat → Nat)
    (engine : EngineCall → Behaviour) (s : Nat) : ¬ (initial hosts hostOf engine).Begun s := by
  rintro (⟨t, op, k, hp, -⟩ | hne)
  · cases hp
  · exact hne rfl

/-- Whoever releases the module of a site was to do so, and was told that the load has ended. -/
theorem releasing_make (hs : Sound w) {m : Move} (hr : (w.make m).Releasing s t) :
    w.Releasing s t ∨ m = .step ∧ ∃ o k,
      w.control = .working t (.give o) (.releaseAfter s :: k) ∧ o ≠ .cancelled := by
  obtain ⟨u, op, k, rfl, hc⟩ | hm := w.working_or_aside m
  swap
  · exact .inl ((hm.follows hs.coherent).releasing nofun hr)
  by_cases ht : t = u
  swap
  · exact .inl ((hs.follows_step hc).releasing (fun e => ht (Option.some.inj e)) hr)
  subst ht
  obtain ⟨op', k', hp, hrel⟩ := hr
  have hpos := position?_of_working hc
  obtain onward | ⟨rfl, rfl⟩ := onward_step hc hp
  swap
  · exact .inl ⟨_, _, hpos, hrel⟩
  obtain hrel' | ⟨o, k₁, rfl, rfl⟩ := onward.releases s hrel
  · exact .inl ⟨op, k, hpos, hrel'⟩
  refine .inr ⟨rfl, o, k₁, hc, ?_⟩
  rintro rfl
  cases (position?_of_goOn (step_resume hc)).symm.trans hp
  exact not_releases_give (hs.stage t _ _ hpos).of_releaseAfter.2 hrel

/-- To release the module of a site begins with a task that was to do so and was told that the load
has ended. -/
theorem begun_make (hs : Sound w) {m : Move} (hb : (w.make m).Begun s) :
    w.Begun s ∨ m = .step ∧ ∃ t o k,
      w.control = .working t (.give o) (.releaseAfter s :: k) ∧ o ≠ .cancelled := by
  by_cases hold : w.Begun s
  · exact .inl hold
  have nobody : ∀ t, ¬ w.Releasing s t := fun t ht => hold (.inl ⟨t, ht⟩)
  have events : releaseEvents s (w.make m).events = releaseEvents s w.events := by
    obtain ⟨t, op, k, rfl, hc⟩ | hm := w.working_or_aside m
    · exact releaseEvents_step hc (nobody t)
    · obtain ⟨new, record, renders⟩ := events_make hm
      rw [record, releaseEvents_append, List.append_right_eq_self]
      refine List.filter_eq_nil_iff.2 fun e he => ?_
      obtain ⟨u, rfl⟩ := renders e he
      simp [Event.serves]
  obtain ⟨t, ht⟩ | hne := hb
  · exact .inr (((releasing_make hs ht).resolve_left (nobody t)).imp_right fun h => ⟨t, h⟩)
  · exact absurd (.inr (events ▸ hne)) hold

/-! ## Calls to the engine -/

/-- A move makes at most one call, for the task at work. -/
theorem called_make (w : World) (m : Move) : ∃ new, (w.make m).events = w.events ++ new ∧
    ∀ p c, .called p c ∈ new → ∃ t k, w.control = .working t (.call p c) k := by
  obtain ⟨t, op, k, rfl, hc⟩ | hm := w.working_or_aside m
  · refine ⟨_, events_step hc, fun p c hmem => ⟨t, k, ?_⟩⟩
    obtain ⟨pre, post, he⟩ := List.append_of_mem hmem
    rw [hc, (Operation.emits_eq_called he).1]
  · obtain ⟨new, record, renders⟩ := events_make hm
    refine ⟨new, record, fun p c hmem => ?_⟩
    obtain ⟨u, hu⟩ := renders _ hmem
    cases hu

/-- A call ends when the task at work gets the answer of the engine. -/
theorem ended_make {m : Move} {p : Purpose} {c : EngineCall} {o : Outcome}
    (hmem : .ended p c o ∈ (w.make m).events) : .ended p c o ∈ w.events ∨
      m = .step ∧ ∃ t r k, w.control = .working t (.follow p c (.reply r)) k ∧
        o = c.outcome w.named r := by
  obtain ⟨t, op, k, rfl, hc⟩ | hm := w.working_or_aside m
  · change _ ∈ w.step.events at hmem
    rw [events_step hc] at hmem
    obtain hmem | hmem := List.mem_append.1 hmem
    · exact .inl hmem
    · cases op with
      | call => cases List.mem_singleton.1 hmem
      | follow p' c' b =>
        cases b with
        | reply r =>
          cases List.mem_singleton.1 hmem
          exact .inr ⟨rfl, t, r, k, hc, rfl⟩
        | gate => cases hmem
      | _ => cases hmem
  · obtain ⟨new, record, renders⟩ := events_make hm
    rw [record] at hmem
    obtain hmem | hmem := List.mem_append.1 hmem
    · exact .inl hmem
    · obtain ⟨u, hu⟩ := renders _ hmem
      cases hu

/-- What holds of each call that is about to be made along a course holds of all that are made. -/
theorem called_course {motive : Purpose → EngineCall → Prop}
    (h : ∀ ms t k p c, (w.course ms).control = .working t (.call p c) k → motive p c)
    (ms : List Move) : ∃ new, (w.course ms).events = w.events ++ new ∧
      ∀ p c, .called p c ∈ new → motive p c := by
  induction ms generalizing w with
  | nil => exact ⟨[], (List.append_nil _).symm, nofun⟩
  | cons m ms ih =>
    obtain ⟨new, hnew, hcalled⟩ := w.called_make m
    obtain ⟨later, hlater, hmotive⟩ := ih fun ms => h (m :: ms)
    refine ⟨new ++ later, ?_, fun p c hmem => ?_⟩
    · rw [← List.append_assoc, ← hnew]
      exact hlater
    · obtain hmem | hmem := List.mem_append.1 hmem
      · obtain ⟨t, k, hc⟩ := hcalled p c hmem
        exact h [] t k p c hc
      · exact hmotive p c hmem

/-! ## Retired sites -/

theorem using_course (hs : Sound w) (hr : (w.sites s).Retired) (ms : List Move)
    (hu : (w.course ms).Using s t) : w.Using s t := by
  induction ms generalizing w with
  | nil => exact hu
  | cons m ms ih =>
    have hu' := ih (hs.make m) (retired_make hr m) hu
    exact (using_make hs hu').resolve_right fun h => h.1 hr.1

/-- No load is started for a disposed site. -/
theorem load_make (hd : (w.sites s).state = .disposed) (m : Move) :
    ((w.make m).sites s).load = (w.sites s).load := by
  obtain ⟨t, op, k, rfl, hc⟩ | hm := w.working_or_aside m
  · have hch := changes_step hc s
    change (w.step.sites s).load = _
    generalize hx : w.step.sites s = x at hch
    cases hch with
    | loading =>
      rw [← hx, step_getModule hc hd]
      rfl
    | _ => rfl
  · obtain hs | ⟨handle, -, hs⟩ | ⟨pairs, -, hs⟩ := sites_make hm s
    · rw [hs]
    · exact absurd hd (Site.attach_ok hs).2.1
    · obtain ⟨e, heq⟩ | ⟨-, ⟨e, heq⟩ | ⟨c, heq⟩⟩ :=
        (w.sites s).assignParameters_cases (w.hosts (w.sites s).host) pairs <;> rw [hs, heq]

theorem load_course (hr : (w.sites s).Retired) (ms : List Move) :
    ((w.course ms).sites s).load = (w.sites s).load := by
  induction ms generalizing w with
  | nil => rfl
  | cons m ms ih => exact (ih (retired_make hr m)).trans (load_make hr.1 m)

end World

end ScriptBundle
