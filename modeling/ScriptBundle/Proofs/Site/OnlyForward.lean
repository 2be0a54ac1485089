import ScriptBundle.Proofs.Site.Changing
/-!
# Only forward

A site goes through its states in their order, and a disposed site stays disposed and refuses
everything: `World.MovesForward` says so, and `movesForward_course` proves it of every world of a
course. There is one exception. A site that was disposed after it got its handle and before it got
its parameters still takes parameters, and is alive again with them (`resolving_of_disposed`).

That a site goes forward rests on `Site.Fits`: as long as it is not disposed, its state tells
whether it has a handle and whether it may be assigned parameters.
-/

namespace ScriptBundle

theorem SiteState.rank_le_disposed (x : SiteState) : x.rank ≤ SiteState.disposed.rank := by
  cases x <;> decide

namespace Site

/-- A site that has a handle and has never been assigned parameters, so that it may be. -/
def AwaitsParameters (x : Site) : Prop := x.handle.isSome ∧ x.initialized = false

/-- The state of a site fits its handle and its parameters, unless it is disposed. -/
structure Fits (x : Site) : Prop where
  detached : x.handle = none → x.state = .uninitialized ∨ x.state = .disposed
  awaiting : x.AwaitsParameters → x.state = .attached ∨ x.state = .disposed

/-- A site that is disposed and cannot be assigned parameters any more. -/
def Retired (x : Site) : Prop := x.state = .disposed ∧ ¬ x.AwaitsParameters

variable {x y : Site} {s : Nat} {op : Operation} {k : List Frame}

/-! ## Steps -/

theorem Changes.handle_eq (h : x.Changes s op k y) :
    y.handle = x.handle ∧ y.initialized = x.initialized := by
  cases h <;> exact ⟨rfl, rfl⟩

theorem Changes.rank_le (h : x.Changes s op k y) : x.state.rank ≤ y.state.rank := by
  cases h with
  | disposed => exact x.state.rank_le_disposed
  | loaded hx => simp [hx, SiteState.rank]
  | _ => exact le_refl _

theorem Changes.fits (h : x.Changes s op k y) (hx : x.Fits) : y.Fits := by
  obtain ⟨handle, initialized⟩ := h.handle_eq
  have awaits : y.AwaitsParameters → x.AwaitsParameters := fun hy =>
    ⟨handle ▸ hy.1, initialized ▸ hy.2⟩
  cases h with
  | disposed => exact ⟨fun _ => .inr rfl, fun _ => .inr rfl⟩
  | loaded hs =>
    refine ⟨fun hy => absurd (hx.detached hy) (by simp [hs]), fun hy => ?_⟩
    exact absurd (hx.awaiting (awaits hy)) (by simp [hs])
  | _ => exact ⟨hx.detached, fun hy => hx.awaiting (awaits hy)⟩

theorem Changes.retired (h : x.Changes s op k y) (hx : x.Retired) : y.Retired := by
  obtain ⟨handle, initialized⟩ := h.handle_eq
  refine ⟨?_, fun hy => hx.2 ⟨handle ▸ hy.1, initialized ▸ hy.2⟩⟩
  cases h with
  | disposed => rfl
  | loaded hs => cases hs.symm.trans hx.1
  | _ => exact hx.1

/-! ## What hosts do -/

theorem attach_ok {h : RenderHandle} (hy : x.attach h = .ok y) :
    x.handle = none ∧ x.state ≠ .disposed ∧
      y = { x with handle := some h, state := .attached } := by
  simp only [attach] at hy
  split_ifs at hy with hh hd
  exact ⟨by simpa using hh, hd, (Except.ok.inj hy).symm⟩

/-- Assigning parameters leaves a site alone, or takes its only chance to be assigned any. -/
theorem assignParameters_cases (x : Site) (host : SiteHost) (pairs : List (String × Value)) :
    (∃ e, x.assignParameters host pairs = (.error e, x)) ∨ x.AwaitsParameters ∧
      ((∃ e, x.assignParameters host pairs = (.error e, { x with initialized := true })) ∨
        ∃ c, x.assignParameters host pairs =
          (.ok c, { x with initialized := true, setup := some c, state := .resolving })) := by
  simp only [assignParameters]
  split_ifs with hi
  · exact .inl ⟨_, rfl⟩
  · split
    next => exact .inl ⟨_, rfl⟩
    next h hh =>
      refine .inr ⟨⟨by simp [hh], by simpa using hi⟩, ?_⟩
      split
      next => exact .inl ⟨_, rfl⟩
      next => exact .inr ⟨_, rfl⟩

theorem Retired.attach (hx : x.Retired) (h : RenderHandle) : ∃ e, x.attach h = .error e := by
  cases hy : x.attach h with
  | error e => exact ⟨e, rfl⟩
  | ok y => exact absurd hx.1 (attach_ok hy).2.1

theorem Retired.assignParameters (hx : x.Retired) (host : SiteHost)
    (pairs : List (String × Value)) : ∃ e, x.assignParameters host pairs = (.error e, x) :=
  (x.assignParameters_cases host pairs).resolve_right fun h => hx.2 h.1

end Site

namespace World

variable {w : World} {s t : Nat} {k : List Frame}

/-! ## Every move -/

theorem fits_make (h : (w.sites s).Fits) (m : Move) : ((w.make m).sites s).Fits := by
  obtain ⟨t, op, k, rfl, hc⟩ | hm := w.working_or_aside m
  · exact (changes_step hc s).fits h
  obtain hs | ⟨handle, -, hs⟩ | ⟨pairs, -, hs⟩ := sites_make hm s
  · rwa [hs]
  · obtain ⟨-, -, hs⟩ := Site.attach_ok hs
    rw [hs]
    exact ⟨nofun, fun _ => .inl rfl⟩
  · obtain ⟨e, heq⟩ | ⟨awaits, ⟨e, heq⟩ | ⟨c, heq⟩⟩ :=
      (w.sites s).assignParameters_cases (w.hosts (w.sites s).host) pairs <;> rw [hs, heq]
    · exact h
    all_goals
      refine ⟨fun hnone => ?_, fun hawaits => absurd hawaits.2 (by simp)⟩
      exact absurd awaits.1 (by simpa using hnone)

/-- A move takes a site forward, unless it assigns parameters to a disposed site. -/
theorem rank_make (h : (w.sites s).Fits) (m : Move) :
    (w.sites s).state.rank ≤ ((w.make m).sites s).state.rank ∨
      ∃ pairs, m = .assign s pairs ∧ (w.sites s).state = .disposed ∧
        (w.sites s).AwaitsParameters := by
  obtain ⟨t, op, k, rfl, hc⟩ | hm := w.working_or_aside m
  · exact .inl (changes_step hc s).rank_le
  obtain hs | ⟨handle, -, hs⟩ | ⟨pairs, rfl, hs⟩ := sites_make hm s
  · exact .inl (by rw [hs])
  · obtain ⟨hnone, hd, hs⟩ := Site.attach_ok hs
    left
    simp [hs, (h.detached hnone).resolve_right hd, SiteState.rank]
  · obtain ⟨e, heq⟩ | ⟨awaits, ⟨e, heq⟩ | ⟨c, heq⟩⟩ :=
      (w.sites s).assignParameters_cases (w.hosts (w.sites s).host) pairs
    · exact .inl (by rw [hs, heq])
    · exact .inl (by rw [hs, heq])
    · obtain ha | hd := h.awaiting awaits
      · exact .inl (by simp [hs, heq, ha, SiteState.rank])
      · exact .inr ⟨pairs, rfl, hd, awaits⟩

/-- A retired site stays so. -/
theorem retired_make (h : (w.sites s).Retired) (m : Move) : ((w.make m).sites s).Retired := by
  obtain ⟨t, op, k, rfl, hc⟩ | hm := w.working_or_aside m
  · exact (changes_step hc s).retired h
  obtain hs | ⟨handle, -, hs⟩ | ⟨pairs, -, hs⟩ := sites_make hm s
  · rwa [hs]
  · obtain ⟨e, he⟩ := h.attach handle
    cases he.symm.trans hs
  · obtain ⟨e, heq⟩ := h.assignParameters (w.hosts (w.sites s).host) pairs
    rwa [hs, heq]

theorem retired_course (h : (w.sites s).Retired) (ms : List Move) :
    ((w.course ms).sites s).Retired := by
  induction ms generalizing w with
  | nil => exact h
  | cons m ms ih => exact ih (retired_make h m)

/-- Along a course a site goes forward, unless parameters are assigned to it once it is disposed. -/
theorem rank_course (h : (w.sites s).Fits) (ms : List Move) :
    (w.sites s).state.rank ≤ ((w.course ms).sites s).state.rank ∨
      ∃ pre pairs post, ms = pre ++ .assign s pairs :: post ∧
        ((w.course pre).sites s).state = .disposed ∧
          ((w.course pre).sites s).AwaitsParameters := by
  induction ms generalizing w with
  | nil => exact .inl (le_refl _)
  | cons m ms ih =>
    obtain hle | ⟨pairs, rfl, hd, hawaits⟩ := rank_make h m
    · obtain hle' | ⟨pre, pairs, post, rfl, hd, hawaits⟩ := ih (fits_make h m)
      · exact .inl (le_trans hle hle')
      · exact .inr ⟨m :: pre, pairs, post, rfl, hd, hawaits⟩
    · exact .inr ⟨[], pairs, ms, rfl, hd, hawaits⟩

/-- A site becomes disposed in no other way than by being disposed. -/
theorem disposes_of_make {m : Move} (hd : (w.sites s).state ≠ .disposed)
    (hd' : ((w.make m).sites s).state = .disposed) :
    m = .step ∧ ∃ t k, w.control = .working t (.dispose s) k := by
  obtain ⟨t, op, k, rfl, hc⟩ | hm := w.working_or_aside m
  · have hch := changes_step hc s
    change (w.step.sites s).state = _ at hd'
    generalize w.step.sites s = x at hch hd'
    cases hch with
    | disposed => exact ⟨rfl, t, k, hc⟩
    | loaded => cases hd'
    | _ => exact absurd hd' hd
  · obtain hsite | ⟨handle, -, hsite⟩ | ⟨pairs, -, hsite⟩ := sites_make hm s
    · exact absurd (hsite ▸ hd') hd
    · rw [(Site.attach_ok hsite).2.2] at hd'
      cases hd'
    · obtain ⟨e, heq⟩ | ⟨-, ⟨e, heq⟩ | ⟨c, heq⟩⟩ :=
        (w.sites s).assignParameters_cases (w.hosts (w.sites s).host) pairs <;>
          rw [hsite, heq] at hd'
      · exact absurd hd' hd
      · exact absurd hd' hd
      · cases hd'

/-! ## Refusals -/

theorem updateSite_self (w : World) (s : Nat) : (w.updateSite s fun _ => w.sites s) = w := by
  have h : put w.sites s (w.sites s) = w.sites := by
    funext u
    obtain hu | ⟨rfl, hu⟩ := put_eq_or w.sites s (w.sites s) u <;> exact hu
  simp only [updateSite, h]

theorem step_getModule (hc : w.control = .working t (.getModule s) k)
    (hd : (w.sites s).state = .disposed) : w.step = w.goOn t (.give (.error .disposed)) k := by
  rw [step_operate hc rfl]
  simp only [operate, World.getModule, hd, if_true]

/-- A site refuses whatever is to be done with it. Those who ask for it get an error at once, and
nothing else happens: no task is started and the engine is not called. -/
structure Refuses (w : World) (s : Nat) : Prop where
  attach : ∀ h, ∃ e, w.attach s h = (.error e, w)
  assign : ∀ pairs, ∃ e, w.setParameters s pairs = (.error e, w)
  getModule : ∀ t k, w.control = .working t (.getModule s) k →
    w.step = w.goOn t (.give (.error .disposed)) k
  invoke : ∀ t id args k, w.control = .working t (.invoke s id args) k →
    w.step.step.step = w.goOn t (.give (.error .disposed)) k

theorem refuses_of_retired (h : (w.sites s).Retired) : w.Refuses s where
  attach handle := by
    obtain ⟨e, he⟩ := h.attach handle
    exact ⟨e, by simp only [World.attach, he]⟩
  assign pairs := by
    obtain ⟨e, heq⟩ := h.assignParameters (w.hosts (w.sites s).host) pairs
    exact ⟨e, by simp only [setParameters, heq, updateSite_self]⟩
  getModule t k hc := step_getModule hc h.1
  invoke t id args k hc := by
    have asked : w.step = w.goOn t (.getModule s) (.invokeOn s id args :: k) := step_operate hc rfl
    have answered : (w.goOn t (.getModule s) (.invokeOn s id args :: k)).step =
        w.goOn t (.give (.error .disposed)) (.invokeOn s id args :: k) := step_getModule rfl h.1
    have told : (w.goOn t (.give (.error .disposed)) (.invokeOn s id args :: k)).step =
        w.goOn t (.give (.error .disposed)) k := rfl
    rw [asked, answered, told]

/-! ## Courses -/

/-- What holds of the states of a site. -/
structure MovesForward (w : World) (s : Nat) : Prop where
  /-- The state never goes back, unless parameters are assigned to a site that was disposed after it
  got its handle and before it got any parameters. -/
  forward : ∀ ms, (w.sites s).state.rank ≤ ((w.course ms).sites s).state.rank ∨
    ∃ pre pairs post, ms = pre ++ .assign s pairs :: post ∧
      ((w.course pre).sites s).state = .disposed ∧ ((w.course pre).sites s).AwaitsParameters
  disposes : ∀ t k, w.control = .working t (.dispose s) k → (w.step.sites s).state = .disposed
  /-- Any other disposed site stays disposed and refuses everything. -/
  final : (w.sites s).state = .disposed → ¬ (w.sites s).AwaitsParameters →
    ∀ ms, ((w.course ms).sites s).state = .disposed ∧ (w.course ms).Refuses s

/-- Disposing a site that is not disposed yet, and that has begun to load a module for itself alone,
waits for that load. Any other site is disposed at once. -/
theorem step_dispose (hc : w.control = .working t (.dispose s) k) :
    ((w.sites s).state ≠ .disposed ∧ ∃ c l, (w.sites s).setup = some c ∧ c.isShared = false ∧
      (w.sites s).load = some l ∧
        w.step = (w.updateSite s fun x => { x with state := .disposed }).goOn t (.await l)
          (.releaseAfter s :: .discard :: k)) ∨
    w.step = (w.updateSite s fun x => { x with state := .disposed }).goOn t
      (.give (.value .null)) k := by
  obtain ⟨v, op', k', hstep, h⟩ := proceeds_step hc rfl (.inl rfl)
  rw [hstep]
  cases h with
  | yields h =>
    cases h with
    | disposedBefore hd =>
      have hself : (w.updateSite s fun x => { x with state := .disposed }) = w := by
        rw [← hd]
        exact updateSite_self w s
      exact .inr (by rw [hself])
  | disposes => exact .inr rfl
  | disposesLoading hd hsetup hload hown => exact .inl ⟨hd, _, _, hsetup, hown, hload, rfl⟩

theorem disposed_step (hc : w.control = .working t (.dispose s) k) :
    (w.step.sites s).state = .disposed := by
  obtain ⟨-, c, l, -, -, -, hstep⟩ | hstep := step_dispose hc <;>
    rw [hstep] <;> simp [goOn, updateSite]

/-- **Only forward.** Whatever hosts and engine do and in whatever order, a site goes through its
states in their order, and once disposed it stays so and refuses everything, unless it was disposed
while it had a handle and had not been assigned parameters. -/
theorem movesForward_course (hosts : Nat → SiteHost) (hostOf : Nat → Nat)
    (engine : EngineCall → Behaviour) (ms : List Move) (s : Nat) :
    MovesForward ((initial hosts hostOf engine).course ms) s := by
  have fits : (((initial hosts hostOf engine).course ms).sites s).Fits := by
    have start : ((initial hosts hostOf engine).sites s).Fits := ⟨fun _ => .inl rfl, nofun⟩
    generalize initial hosts hostOf engine = w at start
    induction ms generalizing w with
    | nil => exact start
    | cons m ms ih => exact ih _ (fits_make start m)
  generalize (initial hosts hostOf engine).course ms = w at fits
  refine ⟨rank_course fits, fun t k => disposed_step, fun hd hn ms' => ?_⟩
  have retired := retired_course (w := w) ⟨hd, hn⟩ ms'
  exact ⟨retired.1, refuses_of_retired retired⟩

/-- A site that is disposed before it gets parameters takes them all the same. It is alive again
with them, and its module is imported. -/
theorem resolving_of_disposed :
    let host : SiteHost := ⟨{}, ⟨"app", ⟨[], []⟩, []⟩, 0⟩
    let pairs := [("ScriptFile", .string "a.js")]
    let w := (initial (fun _ => host) (fun _ => 0) fun _ => .reply .done).course
      (.attach 0 ⟨.nothing, .absent⟩ :: .start [.dispose 0] :: List.replicate 10 .step)
    let w' := w.make (.assign 0 pairs)
    (w.sites 0).state = .disposed ∧ (w'.sites 0).state = .resolving ∧
      ((w'.course (.start [.getModule 0] :: List.replicate 30 .step)).sites 0).state = .ready := by
  decide +kernel

end World

end ScriptBundle
