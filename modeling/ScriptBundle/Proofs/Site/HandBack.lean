import ScriptBundle.Proofs.Site.Custody
import ScriptBundle.Proofs.Site.Silence
import ScriptBundle.Proofs.Site.Stopping
/-!
# Handing back

Once a site is disposed, somebody is to release the module that the site has imported for itself,
has begun to, or takes the outcome of the load to mean that there is none (`World.Tended`). So the
module is released by the time the task goes on that has disposed the site: `World.HandsBack` says
so, and `handsBack_course` proves it of every world of a course in which the host asks no task to
stop.

There is one exception. Whoever is to release the module looks at the outcome of the load only. If
the call after loading fails in the way an import does, then the load has a module and ends as if it
had none, and nobody releases that (`kept_after_disposal`).
-/

namespace ScriptBundle.World

variable {w : World} {s t : Nat} {o : Outcome} {op : Operation} {k : List Frame} {c : SiteSetup}
  {h : Value}

/-- No host has asked any of its tasks to stop. -/
def Undisturbed (w : World) : Prop :=
  ∀ t op, (w.tasks t).job = .host op → (w.tasks t).stopping = false

theorem Undisturbed.make (hs : Sound w) (h : Undisturbed w) {m : Move} (hm : ∀ t, m ≠ .cancel t) :
    Undisturbed (w.make m) := by
  intro t op hj
  by_contra hstop
  have hj : ((w.course [m]).tasks t).job = .host op := hj
  have hstop : ((w.course [m]).tasks t).stopping = true := eq_true_of_ne_false hstop
  obtain hold | hmem := stopping_course hs hj hstop
  · by_cases ht : t < w.taskCount
    · have hj₀ := ((hs.grows_make m).job t ht).symm.trans hj
      cases hold.symm.trans (h t op hj₀)
    · cases hold.symm.trans (hs.coherent.unspawned t (Nat.le_of_not_lt ht)).stopping
  · exact hm t (List.mem_singleton.1 hmem).symm

/-! ## Those who have a module in hand -/

/-- A task is to release the module of a site, or is about to. -/
def Handling (w : World) (s t : Nat) : Prop := w.Holding s t ∨ w.Releasing s t

theorem handling_of_told (hc : w.control = .working t (.give o) (.releaseAfter s :: k))
    (ho : o ≠ .cancelled) : w.Handling s t :=
  .inl ⟨_, k, position?_of_working hc, fun h => ho (Operation.give.inj h)⟩

/-- Whoever has the module of a site in hand has disposed the site. -/
theorem handling_make (hs : Sound w) {m : Move} (hh : (w.make m).Handling s t) :
    w.Handling s t ∨ (w.sites s).state ≠ .disposed ∧ m = .step ∧
      ∃ k c, w.control = .working t (.dispose s) k ∧ (w.sites s).setup = some c := by
  obtain hh | hr := hh
  · obtain hh | ⟨hd, hm, k, c, l, hc, hsetup, -⟩ := holding_make hs hh
    · exact .inl (.inl hh)
    · exact .inr ⟨hd, hm, k, c, hc, hsetup⟩
  · obtain hr | ⟨-, o, k, hc, ho⟩ := releasing_make hs hr
    · exact .inl (.inr hr)
    · exact .inl (handling_of_told hc ho)

/-- The module of a site is in hand, or something has been done to release it. -/
def Touched (w : World) (s : Nat) : Prop :=
  (∃ t, w.Handling s t) ∨ releaseEvents s w.events ≠ []

theorem retired_of_touched_make (hs : Sound w) (h : w.Touched s → (w.sites s).Retired) {m : Move}
    (ht : (w.make m).Touched s) : ((w.make m).sites s).Retired := by
  by_cases hold : w.Touched s
  · exact retired_make (h hold) m
  obtain ⟨t, hh⟩ | hne := ht
  · obtain hh | ⟨-, rfl, k, c, hc, hsetup⟩ := handling_make hs hh
    · exact absurd (.inl ⟨t, hh⟩) hold
    · exact hs.retired_of_dispose hc hsetup
  · obtain (⟨t, hr⟩ | hne) | ⟨-, t, o, k, hc, ho⟩ := begun_make hs (.inr hne)
    · exact absurd (.inl ⟨t, .inr hr⟩) hold
    · exact absurd (.inr hne) hold
    · exact absurd (.inl ⟨t, handling_of_told hc ho⟩) hold

/-! ## Sites that are disposed -/

/-- Somebody is to release the module of a site or has begun to, or the load tells that there is
none. -/
inductive Tended (w : World) (s : Nat) : Prop
  | held {t : Nat} (ht : w.Holding s t) : Tended w s
  | begun (hb : w.Begun s) : Tended w s
  | nothing {o : Outcome} (hl : w.LoadEnded s o) (ho : o.leavesNothing = true) : Tended w s

/-- A move leaves nobody's module behind. -/
theorem Tended.make (hs : Sound w) (hr : w.ReleaseState s) (ha : Answered w)
    (hcustody : w.InCustody s) (hown : ∀ c, (w.sites s).setup = some c → c.isShared = false)
    (h : w.Tended s) {m : Move} (hu : Undisturbed (w.make m)) : (w.make m).Tended s := by
  have hg := hs.grows_make m
  have told : ∀ {t o k}, (w.make m).position? t = some (.give o, .releaseAfter s :: k) →
      (w.make m).LoadEnded s o → (w.make m).Tended s := fun {t o k} hp hl => by
    by_cases ho : o = .cancelled
    · exact .nothing hl (by rw [ho]; rfl)
    · exact .held ⟨_, k, hp, fun h => ho (Operation.give.inj h)⟩
  cases h with
  | begun hb => exact .begun (hb.make hs hr m)
  | nothing hl ho => exact .nothing (hl.grows hg) ho
  | @held t ht =>
    obtain ⟨op, k, hp, hop⟩ := ht
    by_cases hwork : m = .step ∧ w.AtWork t
    · obtain ⟨rfl, op₁, k₁, hc⟩ := hwork
      cases (position?_of_working hc).symm.trans hp
      obtain ⟨l, rfl, hl⟩ | ⟨o, rfl, hl⟩ := hs.awaits_of_holding hp hop
      · obtain ⟨o, ho, hp'⟩ | hp' := position?_of_awaitTask (step_operate hc rfl)
        · exact told hp' (LoadEnded.grows hg ⟨l, hl, ho⟩)
        · exact .held ⟨_, k, hp', nofun⟩
      · cases ho : o.leavesNothing with
        | true => exact .nothing (hl.grows hg) ho
        | false =>
          obtain himported | hb := hcustody.of_loadEnded hs ha hown hl ho
          · exact .begun (.inl ⟨t, releasing_of_imported hc ho himported⟩)
          · exact .begun (hb.make hs hr .step)
    · obtain ⟨op', hp', ⟨rfl, -⟩ | ⟨-, hwoken⟩⟩ :=
        hs.stays hp fun hm hat => hwork ⟨hm, hat⟩
      · exact .held ⟨_, k, hp', hop⟩
      · cases hwoken with
        | same => exact .held ⟨_, k, hp', hop⟩
        | told ho =>
          obtain ⟨l, hl', hl⟩ | ⟨o, ho', -⟩ := hs.awaits_of_holding hp hop
          · cases hl'
            exact told hp' ⟨_, (hg.site s).load _ hl, ho⟩
          · cases ho'
        | passed => exact .held ⟨_, k, hp', nofun⟩
        | stopped hstop =>
          obtain ⟨⟨op, hj⟩, -⟩ := (hs.make m).hosted_of_waits hp' rfl List.mem_cons_self
          cases hstop.symm.trans (hu t op hj)

/-- Disposing a site that has begun to load a module for itself alone waits for the load. -/
theorem holding_of_dispose {l : Nat} (hc : w.control = .working t (.dispose s) k)
    (hd : (w.sites s).state ≠ .disposed) (hsetup : (w.sites s).setup = some c)
    (hown : c.isShared = false) (hl : (w.sites s).load = some l) : w.step.Holding s t := by
  have hstep := step_operate hc rfl
  simp only [operate, World.dispose, hsetup, hl, hown, if_neg hd] at hstep
  refine ⟨_, _, position?_of_goOn hstep, ?_⟩
  rintro ⟨⟩

/-- What holds of a site whose tasks nobody stops. -/
structure Careful (w : World) (s : Nat) : Prop where
  sound : Sound w
  answered : Answered w
  undisturbed : Undisturbed w
  release : w.ReleaseState s
  retired : w.Touched s → (w.sites s).Retired
  custody : w.InCustody s
  leaves : w.Begun s → ∃ o, w.LoadEnded s o ∧ o.leavesNothing = false
  tended : (w.sites s).state = .disposed → (w.sites s).load ≠ none →
    (∀ c, (w.sites s).setup = some c → c.isShared = false) → w.Tended s

theorem Careful.make (h : w.Careful s) {m : Move} (hm : ∀ t, m ≠ .cancel t) :
    (w.make m).Careful s := by
  have hs := h.sound
  have hu := h.undisturbed.make hs hm
  refine ⟨hs.make m, h.answered.make m, hu, h.release.make hs m,
    retired_of_touched_make hs h.retired, h.custody.make hs h.release m,
    leaves_of_begun_make hs h.leaves, fun hd' hl' hown' => ?_⟩
  have hown : ∀ c, (w.sites s).setup = some c → c.isShared = false := fun c hc =>
    hown' c (((hs.grows_make m).site s).setup c hc)
  by_cases hd : (w.sites s).state = .disposed
  · rw [load_make hd] at hl'
    exact (h.tended hd hl' hown).make hs h.release h.answered h.custody hown hu
  · obtain ⟨rfl, t, k, hc⟩ := disposes_of_make hd hd'
    have hl : (w.sites s).load ≠ none := by
      obtain ⟨-, c, l, -, -, hl, -⟩ | hstep := step_dispose hc
      · simp [hl]
      · change (w.step.sites s).load ≠ none at hl'
        rw [hstep] at hl'
        simpa [goOn, updateSite] using hl'
    obtain ⟨l, hl⟩ := Option.ne_none_iff_exists'.1 hl
    obtain ⟨c, hsetup⟩ := Option.isSome_iff_exists.1 (hs.coherent.configured s l hl)
    exact .held (holding_of_dispose hc hd hsetup (hown c hsetup) hl)

theorem Careful.course (h : w.Careful s) {ms : List Move} (hms : ∀ t, .cancel t ∉ ms) :
    (w.course ms).Careful s := by
  induction ms generalizing w with
  | nil => exact h
  | cons m ms ih =>
    refine ih (h.make fun t hm => hms t ?_) fun t hmem => hms t (List.mem_cons_of_mem m hmem)
    exact hm ▸ List.mem_cons_self

theorem careful_initial (hosts : Nat → SiteHost) (hostOf : Nat → Nat)
    (engine : EngineCall → Behaviour) (s : Nat) : (initial hosts hostOf engine).Careful s where
  sound := sound_initial hosts hostOf engine
  answered := nofun
  undisturbed _ _ _ := rfl
  release := .before rfl nofun
  retired := by
    rintro (⟨t, ⟨op, k, hp, -⟩ | ⟨op, k, hp, -⟩⟩ | hne)
    · cases hp
    · cases hp
    · exact absurd rfl hne
  custody := by
    rintro ⟨c, h, owns⟩
    cases owns.imported
  leaves hb := absurd hb (not_begun_initial hosts hostOf engine s)
  tended := nofun

/-- A site has a module to hand back: it has imported the module for itself, and the call after
loading has not ended in a way that is taken to mean that there is none. -/
structure Owes (w : World) (s : Nat) (c : SiteSetup) (h : Value) : Prop where
  owns : w.Owns s c h
  init : ∀ call o, .ended (.init s) call o ∈ w.events → o.leavesNothing = false

/-- The module of a site that is disposed was released, or somebody has it in hand. -/
theorem Careful.handling (hw : w.Careful s) (hd : (w.sites s).state = .disposed)
    (hm : w.Owes s c h) :
    .called (.release s) (.dispose h) ∈ w.events ∨ ∃ t, w.Handling s t := by
  have hs := hw.sound
  obtain ⟨l, hl⟩ := hs.load_of_imported hm.owns.imported
  have tended := hw.tended hd (by simp [hl]) fun c' hc' => by
    cases hm.owns.setup.symm.trans hc'
    exact hm.owns.isShared
  cases tended with
  | @held t ht => exact .inr ⟨t, .inl ht⟩
  | begun hb =>
    cases hw.release with
    | before events nobody =>
      obtain ⟨t, ht⟩ | hne := hb
      · exact absurd ht (nobody t)
      · exact absurd events hne
    | during owns taken hp stage => exact .inr ⟨_, .inr ⟨_, _, hp, stage.releases⟩⟩
    | @after c' h' es o owns taken hes events =>
      obtain ⟨heq, -⟩ := importOutcome_eq_value.1 (owns.importOutcome_eq hs taken hm.owns.imported)
      obtain rfl := Outcome.value.inj heq
      have hcalled : .called (.release s) (.dispose h) ∈ releaseEvents s w.events := by
        simp [events]
      exact .inl (List.mem_filter.1 hcalled).1
  | @nothing o hended hn =>
    obtain ⟨c', -, hr⟩ := hs.result_of_loadEnded hended
    have hmem := mem_loadEvents_of_import hm.owns.imported
    have hleaves := hr.leaves hmem hm.owns.value fun call o hmem =>
      hm.init call o (List.mem_filter.1 hmem).1
    cases hn.symm.trans hleaves

/-- A module is not released if the call after loading has ended as if there were none. -/
theorem Careful.lost (hw : w.Careful s) {call : EngineCall}
    (hmem : .ended (.init s) call o ∈ w.events) (ho : o.leavesNothing = true) :
    releaseEvents s w.events = [] := by
  by_contra hne
  obtain ⟨o', hended, hleaves⟩ := hw.leaves (.inr hne)
  obtain ⟨c, -, hr⟩ := hw.sound.result_of_loadEnded hended
  have hfail : o.isFailure = true := by
    cases o with
    | value => cases ho
    | error | cancelled => rfl
  obtain rfl := hr.of_init (List.mem_filter.2 ⟨hmem, by simp [Event.serves]⟩) hfail
  cases ho.symm.trans hleaves

/-! ## The task that disposes a site -/

/-- Nobody but a task has the module of a site in hand, from when that task is about to dispose the
site. -/
structure Disposing (w : World) (s t : Nat) (k : List Frame) : Prop where
  alone : ∀ u, w.Handling s u → u = t
  disposes : w.control = .working t (.dispose s) k ∨ (w.sites s).Retired

theorem Disposing.make (hs : Sound w) (h : w.Disposing s t k) (hsetup : (w.sites s).setup = some c)
    (m : Move) : (w.make m).Disposing s t k := by
  refine ⟨fun u hu => ?_, ?_⟩
  · obtain hu | ⟨hd, -, k', c', hc, -⟩ := handling_make hs hu
    · exact h.alone u hu
    · obtain hc' | hr := h.disposes
      · cases hc.symm.trans hc'
        rfl
      · exact absurd hr.1 hd
  · obtain hc | hr := h.disposes
    · by_cases hm : m = .step
      · subst hm
        exact .inr (hs.retired_of_dispose hc hsetup)
      · exact .inl ((make_frame hm).1.trans hc)
    · exact .inr (retired_make hr m)

theorem Disposing.course (hs : Sound w) (h : w.Disposing s t k)
    (hsetup : (w.sites s).setup = some c) (ms : List Move) : (w.course ms).Disposing s t k := by
  induction ms generalizing w with
  | nil => exact h
  | cons m ms ih =>
    exact ih (hs.make m) (h.make hs hsetup m) (((hs.grows_make m).site s).setup c hsetup)

/-- What is left to do after disposing a site has nothing to do with modules. -/
theorem Sound.frames_of_dispose (hs : Sound w) (hc : w.control = .working t (.dispose s) k) :
    ∀ f ∈ k, w.PlainFrame f := by
  obtain ⟨u, c, es, -, -, -, h⟩ | ⟨r, path, -, h⟩ | ⟨call, -, h⟩ :=
    (hs.stage t _ _ (position?_of_working hc)).byJob
  · cases h
  · cases h
  · cases h with
    | plain _ hk => exact hk
    | seeks _ hop => cases hop
    | unloads hop => cases hop

/-- What holds of the module that a site has imported for itself, once the site is disposed. -/
structure HandsBack (w : World) (s : Nat) : Prop where
  /-- It was released, or a task has it in hand. -/
  inHand : (w.sites s).state = .disposed → ∀ c h, w.Owes s c h →
    .called (.release s) (.dispose h) ∈ w.events ∨ ∃ t, w.Handling s t
  /-- It was released by the time the task goes on that has disposed the site, if the load was begun
  before. -/
  released : ∀ t k, w.control = .working t (.dispose s) k → (w.sites s).state ≠ .disposed →
    (w.sites s).load ≠ none → ∀ ms, (∀ u, .cancel u ∉ ms) →
      ∀ o, (w.course ms).position? t = some (.give o, k) → ∀ c h, (w.course ms).Owes s c h →
        .called (.release s) (.dispose h) ∈ (w.course ms).events
  /-- It is not released at all if the call after loading has failed in the way an import does. -/
  lost : ∀ call o, .ended (.init s) call o ∈ w.events → o.leavesNothing = true →
    releaseEvents s w.events = []

/-- **Handing back.** Whatever hosts and engine do and in whatever order, as long as no task is
asked to stop, the module that a site has imported for itself is released by the time the task goes
on that has disposed the site, unless the call after loading has failed in the way an import does.
-/
theorem handsBack_course (hosts : Nat → SiteHost) (hostOf : Nat → Nat)
    (engine : EngineCall → Behaviour) (ms : List Move) (s : Nat) (hms : ∀ t, .cancel t ∉ ms) :
    HandsBack ((initial hosts hostOf engine).course ms) s := by
  have hw := (careful_initial hosts hostOf engine s).course hms
  generalize (initial hosts hostOf engine).course ms = w at hw
  refine ⟨fun hd c h => hw.handling hd, fun t k hc hd hl ms' hms' o hp c h howes => ?_,
    fun call o => hw.lost⟩
  have hs := hw.sound
  have hw' := hw.course hms'
  obtain ⟨l, hl⟩ := Option.ne_none_iff_exists'.1 hl
  obtain ⟨c', hsetup⟩ := Option.isSome_iff_exists.1 (hs.coherent.configured s l hl)
  have start : w.Disposing s t k :=
    ⟨fun u hu => absurd (hw.retired (.inl ⟨u, hu⟩)).1 hd, .inl hc⟩
  obtain ⟨alone, disposes⟩ := start.course hs hsetup ms'
  obtain hc' | hretired := disposes
  · cases (position?_of_working hc').symm.trans hp
  have plain := hs.frames_of_dispose hc
  refine (hw'.handling hretired.1 howes).resolve_right ?_
  rintro ⟨u, hu⟩
  obtain rfl := alone u hu
  obtain ⟨op, k', hp', -⟩ | ⟨op, k', hp', hr⟩ := hu
  · cases hp.symm.trans hp'
    exact (plain _ List.mem_cons_self).elim
  · cases hp.symm.trans hp'
    exact not_releases_give plain hr

/-- An engine in which calls of a function are answered as given, and all others with success. -/
def answering (f : String) (r : Reply) : EngineCall → Behaviour
  | .invoke _ g _ => .reply (if g = f then r else .done)
  | .importModule _ | .dispose _ => .reply .done

/-- The call after loading fails, and the site is disposed: its module has been released, after the
one call that failed. -/
theorem handsBack_failedInit :
    let host : SiteHost := ⟨{}, ⟨"app", ⟨[], []⟩, []⟩, 0⟩
    let pairs := [("ScriptFile", .string "a.js"), ("OnInit", .string "init")]
    let ms : List Move := [.attach 0 ⟨.nothing, .absent⟩, .assign 0 pairs, .start [.getModule 0]] ++
      List.replicate 30 .step ++ .start [.dispose 0] :: List.replicate 30 .step
    let w := (initial (fun _ => host) (fun _ => 0) (answering "init" (.failed "no"))).course ms
    HandsBack w 0 ∧ calls (.init 0) w.events = 1 ∧ calls (.release 0) w.events = 1 := by
  intro host pairs ms
  exact ⟨handsBack_course _ _ _ ms 0 (by simp [ms]), by decide +kernel, by decide +kernel⟩

/-- The call after loading fails in the way an import does. The site is disposed then, but the
module that it has imported is not released, and the site keeps it. -/
theorem kept_after_disposal :
    let host : SiteHost := ⟨{}, ⟨"app", ⟨[], []⟩, []⟩, 0⟩
    let pairs := [("ScriptFile", .string "a.js"), ("OnInit", .string "init")]
    let engine := answering "init" (.loadFailed "other.js" none)
    let w := (initial (fun _ => host) (fun _ => 0) engine).course
      ([.attach 0 ⟨.nothing, .absent⟩, .assign 0 pairs, .start [.getModule 0]] ++
        List.replicate 30 .step ++ .start [.dispose 0] :: List.replicate 30 .step)
    (w.outcome? 2).isSome ∧ (w.sites 0).state = .disposed ∧ (w.sites 0).imported.isSome ∧
      calls (.release 0) w.events = 0 := by
  decide +kernel

end ScriptBundle.World
