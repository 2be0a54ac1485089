import Mathlib.Data.List.Induction
import ScriptBundle.Proofs.Site.Fairness
import ScriptBundle.Proofs.Site.Waiting
/-!
# Renders and loads

The first render of a site is to start its load. A site counts the render before it gets the module,
and getting the module is refused while the site has no parameters. So a site that is told of a
render too early has used up its only one: nobody tells it again with effect, and its module is not
loaded until someone asks for it in another way (`rendered_in_vain`).

`rendersLoad_course` says that this is the only way in which a render leads to no load. It rests on
what is left to do while a site is told of a render (`Telling`), on frames that a step puts on top
of others (`stacks_step`), and on `Counted`, which says why a site may await no render.
-/

namespace ScriptBundle

/-- Whether a frame goes on with the calls of a host's task. -/
def Frame.isCall : Frame → Bool
  | .afterCall _ _ => true
  | _ => false

/-- What a step makes of the frames of the task at work, where it leads to the operation `op'`. -/
inductive Stacks (op : Operation) (k : List Frame) (op' : Operation) : List Frame → Prop
  /-- Some are put on top. -/
  | pushes (new : List Frame) (hnew : ∀ f ∈ new, f.isCall = false) : Stacks op k op' (new ++ k)
  /-- The first is taken away, and others may be put in its place. -/
  | pops {o : Outcome} {f : Frame} {k₁ : List Frame} (hop : op = .give o) (hk : k = f :: k₁)
      (new : List Frame) (hnew : ∀ f ∈ new, f.isCall = false) : Stacks op k op' (new ++ k₁)
  /-- A call of a host begins. -/
  | calls {c : SiteCall} {cs : List SiteCall} (hop : op = .inTurn (c :: cs))
      (hop' : op' = c.operation) : Stacks op k op' (.afterCall c cs :: k)

/-- The frame of a call of a host was there before a step, or the call has just begun. -/
theorem Stacks.before {op op' : Operation} {k k' pre' post : List Frame} {c : SiteCall}
    {cs : List SiteCall} (h : Stacks op k op' k') (hk : k' = pre' ++ .afterCall c cs :: post) :
    (op' = c.operation ∧ pre' = []) ∨ ∃ pre, k = pre ++ .afterCall c cs :: post := by
  -- No frame that is put on top is that of a call.
  have below : ∀ {new k₁ : List Frame}, (∀ f ∈ new, f.isCall = false) →
      new ++ k₁ = pre' ++ .afterCall c cs :: post → ∃ pre, k₁ = pre ++ .afterCall c cs :: post := by
    intro new k₁ hnew heq
    obtain ⟨as, -, hk₁⟩ | ⟨bs, hbs, heq⟩ := List.append_eq_append_iff.1 heq
    · exact ⟨as, hk₁⟩
    · cases bs with
      | nil => exact ⟨[], heq.symm⟩
      | cons f bs =>
        obtain ⟨rfl, -⟩ := List.cons.inj heq
        cases hnew (.afterCall c cs) (by simp [hbs])
  cases h with
  | pushes new hnew => exact .inr (below hnew hk)
  | @pops o f k₁ _ hk' new hnew =>
    obtain ⟨pre, rfl⟩ := below hnew hk
    exact .inr ⟨f :: pre, hk'⟩
  | @calls c' cs' hop hop' =>
    cases pre' with
    | nil =>
      cases hk
      exact .inl ⟨hop', rfl⟩
    | cons f pre => exact .inr ⟨pre, (List.cons.inj hk).2⟩

namespace World

variable {w w' v : World} {s t : Nat} {op op' : Operation} {k k' : List Frame}

/-! ## Frames -/

theorem Proceeds.stacks (h : w.Proceeds op k v op' k') : Stacks op k op' k' := by
  cases h with
  | makesNext => exact .calls rfl rfl
  | @disposesLoading s => exact .pushes [.releaseAfter s, .discard] (by simp [Frame.isCall])
  | @importsOwn s => exact .pushes [.keep s, .callInit s] (by simp [Frame.isCall])
  | renders | asks | asksVoid | within | callsNext | releasesShared | joinsImport | startsImport
  | fetches => exact .pushes [_] (by simp [Frame.isCall])
  | yields | joins | startsLoad | disposes | closes | cancels | skips | calls | answered =>
    exact .pushes [] (by simp)
  | leaves | initializes | hasNoInit | unloads | releasesUnloaded =>
    exact .pops rfl rfl [_] (by simp [Frame.isCall])
  | returns | uses | callsOn | keeps | finishes | releases | closesNext | hasMade =>
    exact .pops rfl rfl [] (by simp)

/-- A step puts frames on top of others, or takes the first away before that. -/
theorem stacks_step (hc : w.control = .working t op k)
    (hp : w.step.position? t = some (op', k')) : Stacks op k op' k' := by
  obtain ⟨_, h⟩ | ⟨⟨rfl, rfl⟩, -⟩ := proceeds_or_stays hc hp
  · exact h.stacks
  · exact .pushes [] (by simp)

/-! ## The render that counts -/

/-- A site that has just been told of its first render refuses to give its module. -/
def RefusesRender (w : World) (s : Nat) : Prop :=
  (w.sites s).awaitsRender = false ∧
    ∃ t k, w.control = .working t (.getModule s) (.rendered s :: k) ∧
      ((w.sites s).state = .disposed ∨ (w.sites s).setup = none)

/-- A site that awaits no render has its load started, unless that has been refused or comes next.
-/
def Counted (w : World) (s : Nat) (refused : Prop) : Prop :=
  (w.sites s).awaitsRender = false → (w.sites s).load.isSome ∨ refused ∨
    ∃ t k, w.control = .working t (.getModule s) (.rendered s :: k)

theorem Sound.load_isSome_make (hs : Sound w) (m : Move) (h : (w.sites s).load.isSome) :
    ((w.make m).sites s).load.isSome := by
  obtain ⟨l, hl⟩ := Option.isSome_iff_exists.1 h
  exact Option.isSome_iff_exists.2 ⟨l, ((hs.grows_make m).site s).load l hl⟩

/-- Getting the module of a site starts its load, unless the site refuses. -/
theorem load_isSome_of_getModule (hc : w.control = .working t (.getModule s) k)
    (hd : (w.sites s).state ≠ .disposed) (hsetup : (w.sites s).setup ≠ none) :
    (w.step.sites s).load.isSome := by
  obtain ⟨v, op', k', hstep, h⟩ := proceeds_step hc rfl (.inl rfl)
  rw [hstep]
  cases h with
  | yields h =>
    cases h with
    | refuses hd' => exact absurd hd' hd
    | hasNoParameters _ hnone => exact absurd hnone hsetup
  | joins _ _ hl => simp [goOn, hl]
  | startsLoad => simp [goOn, updateSite]

theorem awaitsRender_make {m : Move} (hm : w.Aside m) (s : Nat) :
    ((w.make m).sites s).awaitsRender = (w.sites s).awaitsRender := by
  obtain hs | ⟨handle, -, hs⟩ | ⟨pairs, -, hs⟩ := sites_make hm s
  · rw [hs]
  · rw [(Site.attach_ok hs).2.2]
  · obtain ⟨e, heq⟩ | ⟨-, ⟨e, heq⟩ | ⟨c, heq⟩⟩ :=
      (w.sites s).assignParameters_cases (w.hosts (w.sites s).host) pairs <;> rw [hs, heq]

theorem Counted.make {refused : Prop} (hs : Sound w) (h : w.Counted s refused) (m : Move) :
    (w.make m).Counted s (refused ∨ m = .step ∧ w.RefusesRender s) := by
  intro hflag
  obtain ⟨t, op, k, rfl, hc⟩ | hm := w.working_or_aside m
  · have hch := changes_step hc s
    -- What was so before, or comes with this step if it gets the module.
    have before : (w.sites s).awaitsRender = false → ((w.make .step).sites s).load.isSome ∨
        (refused ∨ Move.step = .step ∧ w.RefusesRender s) ∨
          ∃ t k, (w.make .step).control = .working t (.getModule s) (.rendered s :: k) := by
      intro hflag
      obtain hl | hr | ⟨u, k', hc'⟩ := h hflag
      · exact .inl (hs.load_isSome_make .step hl)
      · exact .inr (.inl (.inl hr))
      · by_cases hd : (w.sites s).state = .disposed
        · exact .inr (.inl (.inr ⟨rfl, hflag, u, k', hc', .inl hd⟩))
        by_cases hsetup : (w.sites s).setup = none
        · exact .inr (.inl (.inr ⟨rfl, hflag, u, k', hc', .inr hsetup⟩))
        · exact .inl (load_isSome_of_getModule hc' hd hsetup)
    cases hflag₀ : (w.sites s).awaitsRender with
    | false => exact before hflag₀
    | true =>
      change (w.step.sites s).awaitsRender = false at hflag
      generalize hx : w.step.sites s = x at hch hflag
      cases hch with
      | rendered =>
        refine .inr (.inr ⟨t, k, ?_⟩)
        change w.step.control = _
        rw [step_operate hc rfl]
        simp only [operate, hflag₀, if_true]
        rfl
      | _ => cases hflag₀.symm.trans hflag
  · obtain hl | hr | ⟨u, k', hc'⟩ := h (awaitsRender_make hm s ▸ hflag)
    · exact .inl (hs.load_isSome_make m hl)
    · exact .inr (.inl (.inl hr))
    · have hstep : m ≠ .step := fun hstep => by cases hc'.symm.trans (hm hstep)
      exact .inr (.inr ⟨u, k', (make_frame hstep).1.trans hc'⟩)

/-! ## Being told of a render -/

/-- What is left to do while a site is told of a render, with the frames that belong to it. If this
ends with a value then `loaded` holds. -/
inductive Telling (s : Nat) (loaded : Prop) : Operation → List Frame → Prop
  | begins : Telling s loaded (.afterRender s) []
  | gets {op : Operation} (hop : op = .getModule s ∨ (∃ l, op = .await l) ∨ ∃ o, op = .give o) :
      Telling s loaded op [.rendered s]
  | ends {o : Outcome} (ho : ∀ v, o = .value v → loaded) : Telling s loaded (.give o) []

/-- Every task that tells a site of a render is in the middle of that. -/
def Tells (w : World) (s : Nat) (loaded : Prop) : Prop :=
  ∀ t op k pre cs post, w.position? t = some (op, k) →
    k = pre ++ .afterCall (.afterRender s) cs :: post → Telling s loaded op pre

theorem Telling.mono {loaded loaded' : Prop} (h : Telling s loaded op k)
    (hl : loaded → loaded') : Telling s loaded' op k := by
  cases h with
  | begins => exact .begins
  | gets hop => exact .gets hop
  | ends ho => exact .ends fun v hv => hl (ho v hv)

theorem Telling.woken {loaded : Prop} (h : Telling s loaded op k) (hw : w.Woken t op op') :
    Telling s loaded op' k := by
  cases hw with
  | same => exact h
  | told =>
    cases h with
    | gets => exact .gets (.inr (.inr ⟨_, rfl⟩))
  | passed =>
    cases h with
    | gets hop => simp at hop
  | stopped =>
    cases h with
    | begins => exact .ends nofun
    | gets hop =>
      obtain rfl | ⟨l, rfl⟩ | ⟨o, rfl⟩ := hop <;> exact .gets (.inr (.inr ⟨_, rfl⟩))
    | ends => exact .ends nofun

/-- A step of a task that tells a site of a render. -/
theorem Telling.step {loaded refused : Prop} (hs : Sound w) (hcounted : w.Counted s refused)
    {pre post : List Frame} {cs : List SiteCall}
    (hc : w.control = .working t op (pre ++ .afterCall (.afterRender s) cs :: post))
    (h : Telling s loaded op pre) (hp : w.step.position? t = some (op', k')) :
    k' = post ∨ ∃ pre', k' = pre' ++ .afterCall (.afterRender s) cs :: post ∧
      Telling s (loaded ∨ (w.sites s).load.isSome ∨ refused) op' pre' := by
  obtain ⟨_, hproceeds⟩ | ⟨⟨rfl, rfl⟩, -⟩ := proceeds_or_stays hc hp
  swap
  · exact .inr ⟨pre, rfl, h.mono .inl⟩
  cases h with
  | begins =>
    cases hproceeds with
    | renders => exact .inr ⟨[.rendered s], rfl, .gets (.inl rfl)⟩
    | yields h =>
      cases h with
      | renderedBefore hflag =>
        refine .inr ⟨[], rfl, .ends fun _ _ => ?_⟩
        obtain hl | hr | ⟨u, k₁, hc'⟩ := hcounted hflag
        · exact .inr (.inl hl)
        · exact .inr (.inr hr)
        · cases hc.symm.trans hc'
  | gets hop =>
    obtain rfl | ⟨l, rfl⟩ | ⟨o, rfl⟩ := hop
    · cases hproceeds with
      | yields => exact .inr ⟨[.rendered s], rfl, .gets (.inr (.inr ⟨_, rfl⟩))⟩
      | joins | startsLoad => exact .inr ⟨[.rendered s], rfl, .gets (.inr (.inl ⟨_, rfl⟩))⟩
    · cases hproceeds with
      | yields => exact .inr ⟨[.rendered s], rfl, .gets (.inr (.inr ⟨_, rfl⟩))⟩
    · cases hproceeds with
      | yields h => cases h
      | returns h =>
        cases h with
        | fails hfail =>
          refine .inr ⟨[], rfl, .ends ?_⟩
          rintro v rfl
          cases hfail
        | renders =>
          refine .inr ⟨[], rfl, .ends fun _ _ => .inr (.inl ?_)⟩
          -- The module that was got is that of the site's load.
          cases hs.seeks (position?_of_working hc) rfl with
          | give ho =>
            cases ho with
            | ended ho =>
              obtain ⟨l, hl, -⟩ := ho
              exact Option.isSome_iff_exists.2 ⟨l, hl⟩
  | ends ho =>
    cases hproceeds with
    | yields h => cases h
    | returns h =>
      cases h with
      | fails _ hf => cases hf
    | hasMade => exact .inl rfl

/-- Tasks stay in the middle of telling a site of a render, until it is told. -/
theorem Tells.make {refused : Prop} (hs : Sound w) (hcounted : w.Counted s refused)
    (h : w.Tells s ((w.sites s).load.isSome ∨ refused)) (m : Move) :
    (w.make m).Tells s (((w.make m).sites s).load.isSome ∨ refused) := by
  have mono : (w.sites s).load.isSome ∨ refused → ((w.make m).sites s).load.isSome ∨ refused :=
    Or.imp_left (hs.load_isSome_make m)
  intro t op' k' pre' cs post hp hk
  obtain ⟨-, rfl⟩ | ⟨op, hp₀, hwoken⟩ | ⟨rfl, op, k, hc⟩ := hs.stood_make hp
  · simp at hk
  · exact ((h t op k' pre' cs post hp₀ hk).woken hwoken).mono mono
  · obtain ⟨rfl, rfl⟩ | ⟨pre, rfl⟩ := (stacks_step hc hp).before hk
    · exact .begins
    obtain hk' | ⟨pre₁, hk', htelling⟩ :=
      (h t op _ pre cs post (position?_of_working hc) rfl).step hs hcounted hc hp
    · -- Nothing is left of the frame after the call.
      have hlen := congrArg List.length (hk.symm.trans hk')
      simp only [List.length_append, List.length_cons] at hlen
      omega
    · obtain rfl := List.append_cancel_right (hk.symm.trans hk')
      exact htelling.mono fun hl => mono (hl.elim id id)

/-! ## Every world of a course -/

/-- A render was refused along a course, as a site that was told of it had no parameters or was
disposed. -/
def RefusedRender (w : World) (ms : List Move) (s : Nat) : Prop :=
  ∃ pre post, ms = pre ++ .step :: post ∧ (w.course pre).RefusesRender s

theorem RefusedRender.concat {ms : List Move} {m : Move} (h : w.RefusedRender ms s ∨
    m = .step ∧ (w.course ms).RefusesRender s) : w.RefusedRender (ms ++ [m]) s := by
  obtain ⟨pre, post, rfl, h⟩ | ⟨rfl, h⟩ := h
  · exact ⟨pre, post ++ [m], by simp, h⟩
  · exact ⟨ms, [], rfl, h⟩

theorem tells_course (hs : Sound w) (hflag : (w.sites s).awaitsRender = true)
    (hnew : ∀ t, w.position? t = none) (ms : List Move) :
    (w.course ms).Counted s (w.RefusedRender ms s) ∧
      (w.course ms).Tells s (((w.course ms).sites s).load.isSome ∨ w.RefusedRender ms s) := by
  induction ms using List.reverseRecOn with
  | nil =>
    refine ⟨fun h => ?_, fun t op k pre cs post hp => ?_⟩
    · cases hflag.symm.trans h
    · cases (hnew t).symm.trans hp
  | append_singleton ms m ih =>
    obtain ⟨hcounted, htells⟩ := ih
    have hs' := hs.course ms
    rw [course_append]
    refine ⟨fun h => ?_, fun t op k pre cs post hp hk => ?_⟩
    · exact (hcounted.make hs' m h).imp_right (Or.imp_left RefusedRender.concat)
    · exact (htells.make hs' hcounted m t op k pre cs post hp hk).mono
        (Or.imp_right fun h => RefusedRender.concat (.inl h))

/-- What holds of renders and the load of a site, in the world that a course from `w` leads to. -/
structure RendersLoad (w : World) (ms : List Move) (s : Nat) : Prop where
  /-- Once a site was told of a render, and nothing was raised, its load has been started, unless an
  earlier render was refused. -/
  loaded : ∀ t v cs k, (w.course ms).control =
    .working t (.give (.value v)) (.afterCall (.afterRender s) cs :: k) →
      ((w.course ms).sites s).load.isSome ∨ w.RefusedRender ms s
  /-- The first render starts the load of a site that has parameters and is not disposed. -/
  starts : ∀ t k, (w.course ms).control = .working t (.afterRender s) k →
    ((w.course ms).sites s).awaitsRender = true →
    ((w.course ms).sites s).state ≠ .disposed → ((w.course ms).sites s).setup ≠ none →
      ((w.course ms).step.step.sites s).load.isSome
  /-- A refusal is raised, and uses up the render: whenever the site is told of one after that,
  nothing is done. -/
  usesUp : (w.course ms).RefusesRender s →
    (∃ t e k, (w.course ms).step = (w.course ms).goOn t (.give (.error e)) (.rendered s :: k)) ∧
      ∀ later t k, ((w.course ms).course later).control = .working t (.afterRender s) k →
        ((w.course ms).course later).step =
          ((w.course ms).course later).goOn t (.give (.value .null)) k

theorem awaitsRender_course (h : (w.sites s).awaitsRender = false) (ms : List Move) :
    ((w.course ms).sites s).awaitsRender = false := by
  induction ms generalizing w with
  | nil => exact h
  | cons m ms ih =>
    refine ih ?_
    obtain ⟨t, op, k, rfl, hc⟩ | hm := w.working_or_aside m
    · have hch := changes_step hc s
      change (w.step.sites s).awaitsRender = false
      generalize w.step.sites s = x at hch
      cases hch with
      | rendered => rfl
      | _ => exact h
    · exact (awaitsRender_make hm s).trans h

theorem RefusesRender.step (h : w.RefusesRender s) :
    ∃ t e k, w.step = w.goOn t (.give (.error e)) (.rendered s :: k) := by
  obtain ⟨-, t, k, hc, hrefuses⟩ := h
  obtain ⟨v, op', k', hstep, h⟩ := proceeds_step hc rfl (.inl rfl)
  cases h with
  | yields h => cases h <;> exact ⟨t, _, k, hstep⟩
  | joins hd hsetup | startsLoad hd hsetup =>
    obtain hd' | hnone := hrefuses
    · exact absurd hd' hd
    · simp [hnone] at hsetup

/-- **Renders and loads.** Whatever hosts and engine do and in whatever order, telling a site of a
render has started its load whenever nothing was raised, unless an earlier render was refused, and
a render that is refused is the last one that counts. -/
theorem rendersLoad_course (hosts : Nat → SiteHost) (hostOf : Nat → Nat)
    (engine : EngineCall → Behaviour) (ms : List Move) (s : Nat) :
    RendersLoad (initial hosts hostOf engine) ms s where
  loaded t v cs k hc := by
    have htells := (tells_course (s := s) (sound_initial hosts hostOf engine) rfl
      (fun _ => rfl) ms).2
    cases htells t _ _ [] cs k (position?_of_working hc) rfl with
    | ends ho => exact ho v rfl
  starts t k hc hflag hd hsetup := by
    generalize (initial hosts hostOf engine).course ms = w at *
    have hstep := step_operate hc rfl
    simp only [operate, hflag, if_true] at hstep
    refine load_isSome_of_getModule (t := t) (k := .rendered s :: k) (hstep ▸ rfl) ?_ ?_ <;>
      rw [hstep] <;> simpa [goOn, updateSite]
  usesUp h := by
    generalize (initial hosts hostOf engine).course ms = w at *
    refine ⟨h.step, fun later t k hc => ?_⟩
    have hstep := step_operate hc rfl
    rwa [operate, awaitsRender_course h.1, if_neg Bool.false_ne_true] at hstep

/-- A site that is told of a render before it has parameters gets them after that and is told of
another, and its load has not been started. -/
theorem rendered_in_vain :
    let host : SiteHost := ⟨{}, ⟨"app", ⟨[], []⟩, []⟩, 0⟩
    let pairs := [("ScriptFile", .string "a.js")]
    let early := (initial (fun _ => host) (fun _ => 0) fun _ => .reply .done).course
      (.attach 0 ⟨.nothing, .absent⟩ :: .start [.afterRender 0] :: List.replicate 10 .step)
    let w := early.course (.assign 0 pairs :: .start [.afterRender 0] :: List.replicate 3 .step)
    (w.sites 0).state = .resolving ∧ (w.sites 0).load = none ∧
      (match w.control with
        | .working 1 (.give (.value .null)) [.afterCall (.afterRender 0) []] => true
        | _ => false) = true := by
  decide +kernel

end World

end ScriptBundle
