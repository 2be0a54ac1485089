import ScriptBundle.Proofs.Site.ReleaseOnce
import ScriptBundle.Proofs.Site.Waiting
/-!
# Disposed sites that share their module

Disposing a site that shares its module is over at once. The site is marked, and no other site and
no task notices: `World.FallsSilent` says so, and what may still be done for the site afterwards.
`fallsSilent_course` proves it of every site of a course that shares its module.

The site does not fall silent at once. If its load is under way then the call after loading is still
made, and so are the calls of functions for those who were let through to the module before the site
was disposed (`called_after_disposal`). Nothing else is done.
-/

namespace ScriptBundle

/-- Whether a site is about to be disposed by a task. -/
def Control.disposes (c : Control) (s t : Nat) : Bool :=
  match c with
  | .working u (.dispose v) _ => u = t ∧ v = s
  | _ => false

theorem Control.eq_of_disposes {c : Control} {s t : Nat} (h : c.disposes s t = true) :
    ∃ k, c = .working t (.dispose s) k := by
  unfold Control.disposes at h
  split at h
  next u v k =>
    obtain ⟨rfl, rfl⟩ := of_decide_eq_true h
    exact ⟨k, rfl⟩
  next => cases h

namespace World

/-- What disposing a site leaves to be done for it. -/
def Leaves (w : World) (s : Nat) : Purpose → Prop
  -- The call after loading is made if the load is under way and has not made it.
  | .init u => u = s →
    (∃ l, (w.sites s).load = some l ∧ w.outcome? l = none) ∧ calls (.init s) w.events = 0
  -- Functions are called for those who were let through.
  | .use u => u = s → ∃ t, w.Using s t
  | .ownImport u | .unload u | .release u => u ≠ s
  | .sharedImport _ | .close _ => True

/-- A site is about to be disposed by a task with the given frames. It is marked and nothing else
changes, and afterwards only what that leaves is done for it. -/
structure FallsSilent (w : World) (s t : Nat) (k : List Frame) : Prop where
  atOnce : w.step = (w.updateSite s fun x => { x with state := .disposed }).goOn t
    (.give (.value .null)) k
  later : ∀ ms, ∃ new, (w.step.course ms).events = w.events ++ new ∧
    ∀ p call, .called p call ∈ new → w.Leaves s p

variable {w : World} {s t : Nat} {k : List Frame} {c : SiteSetup}

theorem step_dispose_shared (hc : w.control = .working t (.dispose s) k)
    (hsetup : (w.sites s).setup = some c) (hshared : c.isShared = true) :
    w.step = (w.updateSite s fun x => { x with state := .disposed }).goOn t
      (.give (.value .null)) k := by
  obtain ⟨-, c', l, hsetup', hown, -⟩ | hstep := step_dispose hc
  · cases hsetup.symm.trans hsetup'
    cases hshared.symm.trans hown
  · exact hstep

/-- Whoever is let through to a site, when it has just been disposed, was let through before. -/
theorem Sound.using_of_dispose (hs : Sound w) (hc : w.control = .working t (.dispose s) k) {u : Nat}
    (hu : w.step.Using s u) : w.Using s u := by
  obtain hu | ⟨-, -, k', hc'⟩ := using_make (m := .step) hs hu
  · exact hu
  · cases hc.symm.trans hc'

/-- Disposing a site with parameters retires it. -/
theorem Sound.retired_of_dispose (hs : Sound w) (hc : w.control = .working t (.dispose s) k)
    (hsetup : (w.sites s).setup = some c) : (w.step.sites s).Retired := by
  have hsetup' := ((hs.grows_make .step).site s).setup c hsetup
  refine ⟨disposed_step hc, fun hawaits => ?_⟩
  have settled := (hs.make .step).coherent.settled s (Option.isSome_iff_exists.2 ⟨c, hsetup'⟩)
  cases hawaits.2.symm.trans settled.1

/-- The call after loading is made by the load of the site, before it has ended. -/
theorem Sound.load_of_init (hs : Sound w) {call : EngineCall}
    (hc : w.control = .working t (.call (.init s) call) k) :
    (w.sites s).load = some t ∧ w.outcome? t = none := by
  have hp := position?_of_working hc
  have allowed := (hs.stage t _ _ hp).allows (p := .init s) rfl
  exact ⟨hs.coherent.load_of_job (allowed.eq_loads (by simp)), hs.coherent.outcome?_of_position? hp⟩

theorem calls_step_of_call {p : Purpose} {call : EngineCall}
    (hc : w.control = .working t (.call p call) k) :
    calls p w.step.events = calls p w.events + 1 := by
  rw [events_step hc, calls_append, Operation.emits]
  simp [calls, Event.calls]

/-- A module that others share is not released by a site. -/
theorem not_released_of_shared (hs : Sound w) (hr : w.ReleaseState s)
    (hsetup : (w.sites s).setup = some c) (hshared : c.isShared = true) {p : Purpose}
    {call : EngineCall} (hc : w.control = .working t (.call p call) k) :
    p ∉ [.unload s, .release s] := by
  intro hp
  have mem : .called p call ∈ releaseEvents s w.step.events := by
    rw [events_step hc, releaseEvents_append]
    refine List.mem_append_right _ (List.mem_filter.2 ⟨List.mem_singleton_self _, ?_⟩)
    simpa [Event.serves] using hp
  have none : releaseEvents s w.step.events = [] :=
    (hr.make hs .step).shared (((hs.grows_make .step).site s).setup c hsetup) hshared
  rw [none] at mem
  cases mem

/-- Whatever is done for a site that shares its module, after it was disposed, was left to be done.
-/
theorem leaves_of_call (hs : Sound w) (hq : Scheduled w) (hr : w.ReleaseState s)
    (hc : w.control = .working t (.dispose s) k) (hsetup : (w.sites s).setup = some c)
    (hshared : c.isShared = true) {ms : List Move} {u' : Nat} {p : Purpose} {call : EngineCall}
    {k' : List Frame} (hc' : (w.step.course ms).control = .working u' (.call p call) k') :
    w.Leaves s p := by
  have hs' : Sound (w.step.course ms) := (hs.make .step).course ms
  have hg : Grows w (w.step.course ms) := hs.grows_course (.step :: ms)
  have retired := hs.retired_of_dispose hc hsetup
  have hq' : Scheduled (w.step.course ms) := hq.course hs (.step :: ms)
  have hr' : (w.step.course ms).ReleaseState s := hr.course hs (.step :: ms)
  have setup : ((w.step.course ms).sites s).setup = some c := (hg.site s).setup c hsetup
  have releases := not_released_of_shared hs' hr' setup hshared hc'
  -- The call that is about to be made counts among those after the step.
  have once := calls_step_of_call hc'
  obtain ⟨ownImports, inits⟩ := (hs'.make .step).calls_le (s := s) (hq'.make hs' .step)
  cases p with
  | init u =>
    rintro rfl
    obtain ⟨hload, hrunning⟩ := hs'.load_of_init hc'
    rw [load_course retired, step_dispose_shared hc hsetup hshared] at hload
    refine ⟨⟨u', by simpa [goOn, updateSite] using hload, ?_⟩, ?_⟩
    · cases ho : w.outcome? u' with
      | none => rfl
      | some o => cases hrunning.symm.trans (hg.outcome u' o ho)
    · have hle : calls (.init u) w.events ≤ calls (.init u) (w.step.course ms).events :=
        hg.events.sublist.countP_le
      rw [make, once] at inits
      omega
  | use u =>
    rintro rfl
    have using' := using_course (hs.make .step) retired ms (using_of_called hs' hc')
    exact ⟨u', hs.using_of_dispose hc using'⟩
  | ownImport u =>
    rintro rfl
    have hle := ownImports c (((hs'.grows_make .step).site u).setup c setup)
    rw [make, once, hshared] at hle
    cases hle
  | unload u | release u =>
    rintro rfl
    exact releases (by simp)
  | sharedImport | close => trivial

/-- **Falling silent.** Whatever hosts and engine do and in whatever order, a site that shares its
module is disposed at once, and afterwards the call after loading is made for it only if the load
was under way, and functions are called only for those who were let through before. -/
theorem fallsSilent_course (hosts : Nat → SiteHost) (hostOf : Nat → Nat)
    (engine : EngineCall → Behaviour) (ms : List Move) (s t : Nat) (k : List Frame) (c : SiteSetup)
    (hc : ((initial hosts hostOf engine).course ms).control = .working t (.dispose s) k)
    (hsetup : (((initial hosts hostOf engine).course ms).sites s).setup = some c)
    (hshared : c.isShared = true) :
    FallsSilent ((initial hosts hostOf engine).course ms) s t k := by
  have hs := sound_course hosts hostOf engine ms
  have hq := scheduled_course hosts hostOf engine ms
  have hr := releaseState_course hosts hostOf engine ms s
  generalize (initial hosts hostOf engine).course ms = w at *
  refine ⟨step_dispose_shared hc hsetup hshared, fun ms' => ?_⟩
  obtain ⟨new, hnew, hleaves⟩ := called_course (w := w.step) (motive := fun p _ => w.Leaves s p)
    (fun ms u k' p call hc' => leaves_of_call hs hq hr hc hsetup hshared hc') ms'
  refine ⟨new, ?_, hleaves⟩
  rw [hnew, events_step hc]
  simp [Operation.emits]

/-- An engine in which imports wait at a gate. -/
def gatedImport : EngineCall → Behaviour
  | .importModule _ => .gate "import"
  | .invoke _ _ _ | .dispose _ => .reply .done

/-- A site is about to be disposed while the import of its shared module waits at a gate, and a call
of a function waits for that. -/
theorem fallsSilent_gatedImport :
    let host : SiteHost := ⟨{}, ⟨"app", ⟨[], []⟩, []⟩, 0⟩
    let pairs := [("ScriptFile", .string "a.js"), ("GlobalBundle", .bool true)]
    let ms : List Move := [.attach 0 ⟨.nothing, .absent⟩, .assign 0 pairs,
      .start [.invoke 0 "work" []]] ++ List.replicate 20 .step ++
        [.start [.dispose 0], .step, .step]
    ∃ k, FallsSilent ((initial (fun _ => host) (fun _ => 0) gatedImport).course ms) 0 3 k := by
  intro host pairs ms
  have disposes : ((initial (fun _ => host) (fun _ => 0) gatedImport).course ms).control.disposes
      0 3 = true := by decide +kernel
  have shares : (((initial (fun _ => host) (fun _ => 0) gatedImport).course ms).sites 0).setup.any
      SiteSetup.isShared = true := by decide +kernel
  clear_value ms
  obtain ⟨k, hc⟩ := Control.eq_of_disposes disposes
  obtain ⟨hsome, hshared⟩ := (Option.any_eq_true_iff_get _ _).1 shares
  exact ⟨k, fallsSilent_course _ _ _ ms 0 3 k _ hc (Option.some_get hsome).symm hshared⟩

/-- A site is disposed while its module is being imported. Once the module is there, the call after
loading and a call of a function are made for the site, both after it was disposed. -/
theorem called_after_disposal :
    let host : SiteHost := ⟨{}, ⟨"app", ⟨[], []⟩, []⟩, 0⟩
    let pairs := [("ScriptFile", .string "a.js"), ("GlobalBundle", .bool true),
      ("OnInit", .string "init")]
    let w := (initial (fun _ => host) (fun _ => 0) gatedImport).course
      ([.attach 0 ⟨.nothing, .absent⟩, .assign 0 pairs, .start [.invoke 0 "work" []]] ++
        List.replicate 20 .step ++ .start [.dispose 0] :: List.replicate 7 .step)
    let w' := w.course (.openGate "import" (.reply .done) :: List.replicate 30 .step)
    (w.sites 0).state = .disposed ∧ (w.outcome? 3).isSome ∧
      calls (.init 0) w.events = 0 ∧ calls (.use 0) w.events = 0 ∧
        calls (.init 0) w'.events = 1 ∧ calls (.use 0) w'.events = 1 := by
  decide +kernel

end World

end ScriptBundle
