import ScriptBundle.Proofs.Site.ReleaseOnce
import ScriptBundle.Proofs.Site.Silence
import ScriptBundle.Proofs.Site.Tidy
/-!
# Releasing last

The module of a site is released behind all who wait for its load: a task that disposes the site
while the load is under way waits at the end of the line, `World.Orderly`, and once it is put to
work nobody is there any more, `World.Deserted`. So nothing of a module is called once it is
released, as `World.ReleasesLast` says and `releasesLast_course` proves.

There is one exception, `World.Overtakes`. A site that is disposed after the load has ended does not
wait, and those who were let through to the module and have yet to go on are overtaken. They call
functions of a module that is released (`used_after_release`).
-/

namespace ScriptBundle

/-- Whoever stands at the end of a line, and nowhere else in it, stands before nobody. -/
theorem not_sublist_append_self {α : Type} {a b : α} {l : List α} (h : a ∉ l) :
    ¬ [a, b].Sublist (l ++ [a]) := by
  intro hsub
  obtain ⟨l₁, l₂, hl, h₁, h₂⟩ := List.sublist_append_iff.1 hsub
  cases l₁ with
  | nil =>
    have hlength := h₂.length_le
    simp [← show [a, b] = l₂ from hl] at hlength
  | cons c l₁ =>
    rw [List.cons_append] at hl
    obtain ⟨rfl, -⟩ := List.cons.inj hl
    exact h (h₁.subset List.mem_cons_self)

namespace World

variable {w : World} {s t l : Nat} {op : Operation} {k : List Frame}

/-- A site is about to be disposed although its load has ended with success and somebody who was let
through to the module has yet to call a function of it. -/
def Overtakes (w : World) (s : Nat) : Prop :=
  ∃ t k h u, w.control = .working t (.dispose s) k ∧ (w.sites s).state ≠ .disposed ∧
    w.LoadEnded s (.value h) ∧ w.Using s u

/-- No function of a site will be called any more: nobody is let through to its module, or there is
none. -/
structure Deserted (w : World) (s : Nat) : Prop where
  retired : (w.sites s).Retired
  nobody : (∀ t, ¬ w.Using s t) ∨ ∃ o, w.LoadEnded s o ∧ o.isFailure = true

/-- The module of a site has not been released, and whoever is to release it waits for the load
behind all who have been let through. -/
structure Orderly (w : World) (s : Nat) : Prop where
  unreleased : ¬ w.Begun s
  retired : ∀ t, w.Holding s t → (w.sites s).Retired
  atWork : ∀ t op k, w.control = .working t op (.releaseAfter s :: k) → op ≠ .give .cancelled →
    ∃ l, op = .await l ∧ w.outcome? l = none
  behind : ∀ t l u, w.Holding s t → (w.sites s).load = some l → w.Using s u →
    ¬ [t, u].Sublist (w.line l)

/-! ## Places in the line -/

/-- A task that waits for another, or was told that it ended, stands in the line for that. -/
theorem Sound.mem_line (hs : Sound w) (hq : Scheduled w) (hidle : ¬ w.AtWork t)
    (hp : w.position? t = some (op, k)) (hop : op = .await l ∨ ∃ o, op = .give o) :
    t ∈ w.line l := by
  have hc : ∀ op k, w.control ≠ .working t op k := fun op k h => hidle ⟨op, k, h⟩
  have front : ∀ {cause}, (w.tasks t).status = .ready cause → t ∈ w.line l := fun h => by
    have hmem : t ∈ w.works := List.mem_filterMap.2 ⟨_, (hq t).ready _ h, rfl⟩
    exact List.mem_append_left _ (List.mem_append_left _ hmem)
  obtain rfl | ⟨o, rfl⟩ := hop
  · have hst := status_of_await hs.coherent hc hp
    obtain ⟨-, waits, tells⟩ := (hq t).awaits l hst
    cases ho : w.outcome? l with
    | none => exact List.mem_append_right _ (waits ho)
    | some o =>
      have hmem : t ∈ w.queue.filterMap (Ready.told? l) :=
        List.mem_filterMap.2 ⟨_, tells o ho, by simp [Ready.told?]⟩
      exact List.mem_append_left _ (List.mem_append_right _ hmem)
  · obtain ⟨cause, hst⟩ := status_of_give hc hp
    exact front hst

/-- A task of a host that waits for one task, or was told that it ended, and is not asked to stop,
keeps its place in the line for that unless it begins to wait. -/
theorem Sound.keepsPlace (hs : Sound w) {m : Move} {op' : Operation} {k' : List Frame}
    (hp : w.position? t = some (op, k)) (hl : ∀ l', op = .await l' → l' = l)
    (hop : ∀ p c b, op ≠ .follow p c b) (hj : ∃ op, (w.tasks t).job = .host op)
    (hp' : (w.make m).position? t = some (op', k')) (hop' : op' ≠ .give .cancelled)
    (hc : m = .step → ∀ l' k, w.control ≠ .working t (.await l') k) : w.KeepsPlace m l t := by
  obtain ⟨job, hj⟩ := hj
  have stands : (w.tasks t).status ≠ .active → (w.tasks t).position? = some (op, k) := fun h => by
    rw [← hp]
    exact (position?_eq_task rfl (hs.coherent.not_atWork h)).symm
  refine ⟨hs.coherent.lt_of_position? hp, fun r path h => ?_, fun l' h => ?_, fun g p c h => ?_, ?_,
    hc⟩
  · cases hj.symm.trans h
  · have hpos := stands (by simp [h])
    rw [Task.position?, h] at hpos
    cases hpos
    exact hl l' rfl
  · have hpos := stands (by simp [h])
    rw [Task.position?, h] at hpos
    cases hpos
    exact hop _ _ _ rfl
  · rintro rfl
    by_contra hst
    obtain ⟨y, hy, -, -, hpos, -⟩ := cancel_self hs.coherent (stands hst)
    have hmake : w.make (.cancel t) = w.cancel t := by
      rw [World.make, cancelHosted, hj]
    have hcontrol : (w.make (.cancel t)).control = w.control := by
      rw [hmake, control_cancel]
    rw [position?_eq_task hcontrol (hs.coherent.not_atWork hst), hmake, hy, hpos] at hp'
    cases hp'
    cases op with
    | follow p c b => exact hop p c b rfl
    | _ => exact hop' rfl

/-- Whoever is about to wait for the load of a site, to call a function of it, has just been let
through: the site is not disposed. -/
def Entering (w : World) (s : Nat) : Prop := ∀ t l id args k,
  w.control = .working t (.await l) (.invokeOn s id args :: k) → (w.sites s).state ≠ .disposed

theorem Entering.make (hs : Sound w) (h : w.Entering s) (m : Move) : (w.make m).Entering s := by
  intro t l id args k hc'
  obtain ⟨u, op, k₀, rfl, hc⟩ | hm := w.working_or_aside m
  · obtain hidle | ⟨op', k', hwork⟩ := control_step hc
    · cases hidle.symm.trans hc'
    cases hwork.symm.trans hc'
    obtain hu | ⟨rfl, hd⟩ := uses_step hs hc (position?_of_working hc') .awaits
    · exfalso
      cases hu with
      | awaits =>
        have hstep : w.step = w.awaitTask _ _ _ := step_operate hc rfl
        change w.step.control = _ at hc'
        rw [hstep, awaitTask] at hc'
        split at hc' <;> cases hc'
      | given => cases (congrArg World.control (step_resume hc)).symm.trans hc'
      | calls => cases (congrArg World.control (step_operate hc rfl)).symm.trans hc'
    · have hch := changes_step hc s
      change (w.step.sites s).state ≠ _
      generalize w.step.sites s = x at hch
      cases hch with
      | same | loading => exact hd
  · by_cases hstep : m = .step
    · subst hstep
      have hidle := hm rfl
      have hidles := idles_step hidle
      change w.step.control = _ at hc'
      generalize w.step = w' at hidles hc'
      cases hidles with
      | @works t₀ cause rest hq hst =>
        obtain ⟨-, hop, -⟩ := Control.working.inj hc'
        exact absurd hop ((hs.coherent.operation_of_wake t₀ cause).1 l)
      | rests | tells | forgets | drops => cases hidle.symm.trans hc'
    · have hd := h t l id args k ((make_frame hstep).1.symm.trans hc')
      exact fun hd' => hstep (disposes_of_make hd hd').1

theorem entering_initial (hosts : Nat → SiteHost) (hostOf : Nat → Nat)
    (engine : EngineCall → Behaviour) (s : Nat) : (initial hosts hostOf engine).Entering s := nofun

/-! ## Deserted sites -/

theorem Deserted.make (hs : Sound w) (h : w.Deserted s) (m : Move) : (w.make m).Deserted s := by
  refine ⟨retired_make h.retired m, ?_⟩
  obtain hnone | ⟨o, ho, hfail⟩ := h.nobody
  · refine .inl fun t hu => ?_
    obtain hu | ⟨hd, -⟩ := using_make hs hu
    · exact hnone t hu
    · exact hd h.retired.1
  · exact .inr ⟨o, ho.grows (hs.grows_make m), hfail⟩

theorem Deserted.not_used (hs : Sound w) (h : w.Deserted s) {call : EngineCall} :
    w.control ≠ .working t (.call (.use s) call) k := by
  intro hc
  obtain hnone | ⟨o, ⟨l, hl, ho⟩, hfail⟩ := h.nobody
  · exact hnone t (using_of_called hs hc)
  · obtain ⟨-, m, ⟨l', hl', hm⟩, -⟩ | ⟨hp, -⟩ | ⟨hp, -⟩ :=
      (hs.stage t _ _ (position?_of_working hc)).warrants (s := s) List.mem_cons_self
    · cases hl.symm.trans hl'
      cases ho.symm.trans hm
      cases hfail
    · cases hp
    · cases hp

/-! ## Disposing a site in good order -/

theorem Tidy.not_mem_line (h : Tidy w) (ht : (w.tasks t).status = .active)
    (hl : w.outcome? l = none) : t ∉ w.line l := by
  obtain ⟨hwork, hwaiter⟩ := h.of_active ht
  intro hmem
  obtain hmem | hmem := List.mem_append.1 hmem
  · obtain hmem | hmem := List.mem_append.1 hmem
    · exact List.count_eq_zero.1 hwork hmem
    · obtain ⟨item, hitem, htold⟩ := List.mem_filterMap.1 hmem
      cases item with
      | work | forget => cases htold
      | tell l' t' =>
        simp only [Ready.told?] at htold
        split_ifs at htold with hl'
        obtain ⟨o, ho⟩ := h.told l' t' hitem
        cases (hl' ▸ hl).symm.trans ho
  · exact List.count_eq_zero.1 (hwaiter l) hmem

theorem Orderly.not_begun_make (hs : Sound w) (h : w.Orderly s) (m : Move) :
    ¬ (w.make m).Begun s := by
  intro hb
  obtain hb | ⟨-, t, o, k, hc, ho⟩ := begun_make hs hb
  · exact h.unreleased hb
  · obtain ⟨l, hop, -⟩ := h.atWork t _ k hc (by simpa using ho)
    cases hop

/-- A site that is disposed while its load is under way is disposed behind all who have been let
through, and if the load has ended then nobody is there any more. -/
theorem Orderly.dispose (hs : Sound w) (htidy : Tidy w) (h : w.Orderly s) (hover : ¬ w.Overtakes s)
    (hc : w.control = .working t (.dispose s) k) (hd : (w.sites s).state ≠ .disposed)
    {c : SiteSetup} (hsetup : (w.sites s).setup = some c) (hl : (w.sites s).load = some l)
    (hstep : w.step = (w.updateSite s fun x => { x with state := .disposed }).goOn t (.await l)
      (.releaseAfter s :: .discard :: k)) : w.step.Deserted s ∨ w.step.Orderly s := by
  have retired := hs.retired_of_dispose hc hsetup
  have outcome : w.step.outcome? = w.outcome? := by rw [hstep]; rfl
  have hl' : (w.step.sites s).load = some l := by rw [hstep]; simpa [goOn, updateSite] using hl
  cases ho : w.outcome? l with
  | some o =>
    refine .inl ⟨retired, ?_⟩
    cases o with
    | value m =>
      exact .inl fun u hu => hover ⟨t, k, m, u, hc, hd, ⟨l, hl, ho⟩, hs.using_of_dispose hc hu⟩
    | error | cancelled => exact .inr ⟨_, ⟨l, hl', by rw [outcome, ho]⟩, rfl⟩
  | none =>
    refine .inr ⟨h.not_begun_make hs .step, fun _ _ => retired,
      fun t' op' k' hc' _ => ?_, fun t' l' u ht' hload _ hsub => ?_⟩
    · rw [hstep] at hc'
      cases hc'
      exact ⟨l, rfl, by rw [outcome, ho]⟩
    · cases hl'.symm.trans hload
      obtain hold | ⟨-, -, k', -, -, hc', -⟩ := holding_make (m := .step) hs ht'
      · exact hd (h.retired t' hold).1
      · cases hc.symm.trans hc'
        have hline : w.step.line l = w.line l := by rw [hstep]; rfl
        rw [hline] at hsub
        exact htidy.not_mem_line (hs.coherent.atWork t _ _ hc).2 ho (hsub.subset List.mem_cons_self)

/-! ## Who stands behind whom -/

theorem Sound.load_of_uses (hs : Sound w) (hp : w.position? t = some (op, k)) (hu : Uses s op k)
    {l' : Nat} (hop : op = .await l') : (w.sites s).load = some l' := by
  cases hu with
  | awaits =>
    cases hop
    cases hs.seeks hp rfl with
    | await hl => exact hl
  | given | calls => cases hop

/-- Whoever has been let through and is not at work stands in the line for the load. -/
theorem Sound.mem_line_of_using (hs : Sound w) (hq : Scheduled w) (hu : w.Using s t)
    (hidle : ¬ w.AtWork t) (hl : (w.sites s).load = some l) : t ∈ w.line l := by
  obtain ⟨op, k, hp, hu⟩ := hu
  apply hs.mem_line hq hidle hp
  have hload := fun l' (hop : op = .await l') => hs.load_of_uses hp hu hop
  cases hu with
  | @awaits l' =>
    cases hl.symm.trans (hload l' rfl)
    exact .inl rfl
  | given => exact .inr ⟨_, rfl⟩
  | calls =>
    obtain ⟨cause, -, hop⟩ | ⟨g, p, c, -, hop⟩ | ⟨l', -, hop⟩ :=
      status_of_position (fun op k h => hidle ⟨op, k, h⟩) hp
    · exact absurd hop.symm ((hs.coherent.operation_of_wake t cause).2.2 _ _)
    · cases hop
    · cases hop

/-- Whoever is to release the module is put to work once nobody is there any more. -/
theorem Orderly.deserted_of_atWork (hs : Sound w) (hq : Scheduled w) (h : w.Orderly s)
    (ht : w.Holding s t) (hidle : ¬ w.AtWork t) {m : Move} (hwork : (w.make m).AtWork t) :
    w.Deserted s := by
  refine ⟨h.retired t ht, ?_⟩
  obtain ⟨op, k, hp, hop⟩ := ht
  obtain ⟨hc, rest, cause, hqueue, hst⟩ := head_of_atWork hidle hwork
  obtain ⟨l, rfl, hl⟩ | ⟨o, rfl, ho⟩ := hs.awaits_of_holding hp hop
  · -- Nobody is put to work before being told.
    rw [position?_of_idle hc, Task.position?, hst] at hp
    exact absurd (Prod.mk.inj (Option.some.inj hp)).1 ((hs.coherent.operation_of_wake t cause).1 l)
  · cases o with
    | error | cancelled => exact .inr ⟨_, ho, rfl⟩
    | value v =>
      obtain ⟨l, hl, -⟩ := id ho
      refine .inl fun u hu => ?_
      have hne : u ≠ t := by
        rintro rfl
        obtain ⟨op, k, hp', hu⟩ := hu
        cases hp.symm.trans hp'
        cases hu
      have idle : ¬ w.AtWork u := by
        rintro ⟨op, k, h⟩
        cases hc.symm.trans h
      have hmem := hs.mem_line_of_using hq hu idle hl
      have hline : ∃ behind, w.line l = t :: behind := ⟨_, by
        rw [line, works_of_head hqueue, List.cons_append, List.cons_append]⟩
      obtain ⟨behind, hline⟩ := hline
      refine h.behind t l u ⟨_, k, hp, hop⟩ hl hu ?_
      rw [hline] at hmem ⊢
      exact ((List.singleton_sublist.2 ((List.mem_cons.1 hmem).resolve_left hne)).cons_cons t)

/-- Whoever is to release the module keeps the place in the line for the load. -/
theorem Sound.keepsPlace_of_holding (hs : Sound w) {m : Move} (ht : w.Holding s t)
    (ht' : (w.make m).Holding s t) (hl : (w.sites s).load = some l)
    (hidle : m = .step → ¬ w.AtWork t) : w.KeepsPlace m l t := by
  obtain ⟨op, k, hp, hop⟩ := ht
  obtain ⟨op', k', hp', hop'⟩ := ht'
  have awaits := hs.awaits_of_holding hp hop
  refine hs.keepsPlace hp (fun l' heq => ?_) (fun p c b heq => ?_)
    (hs.hosted_of_waits hp rfl List.mem_cons_self).1 hp' hop' fun hm l' k hc => ?_
  · obtain ⟨l'', hl', hload⟩ | ⟨o, ho, -⟩ := awaits
    · cases heq.symm.trans hl'
      exact Option.some.inj (hload.symm.trans hl)
    · cases heq.symm.trans ho
  · obtain ⟨l', hl', -⟩ | ⟨o, ho, -⟩ := awaits
    · cases heq.symm.trans hl'
    · cases heq.symm.trans ho
  · exact hidle hm ⟨_, _, hc⟩

/-- Whoever was let through keeps the place in that line, once the site is disposed. -/
theorem Sound.keepsPlace_of_using (hs : Sound w) (hentering : w.Entering s)
    (hd : (w.sites s).state = .disposed) {m : Move} (hu : w.Using s t)
    (hu' : (w.make m).Using s t) (hl : (w.sites s).load = some l) : w.KeepsPlace m l t := by
  obtain ⟨op, k, hp, hu⟩ := hu
  obtain ⟨op', k', hp', hu'⟩ := hu'
  refine hs.keepsPlace hp (fun l' heq => ?_) (fun p c b heq => ?_) (hs.hosted_of_uses hp hu) hp'
    (fun heq => ?_) fun _ l' k hc => ?_
  · exact Option.some.inj ((hs.load_of_uses hp hu heq).symm.trans hl)
  · subst heq
    cases hu
  · subst heq
    cases hu'
  · cases (position?_of_working hc).symm.trans hp
    cases hu with
    | awaits => exact hentering t _ _ _ _ hc hd

theorem Orderly.behind_make (hs : Sound w) (htidy : Tidy w) (hentering : w.Entering s)
    (h : w.Orderly s) {m : Move} {u : Nat} (ht : w.Holding s t) (ht' : (w.make m).Holding s t)
    (hu : w.Using s u) (hu' : (w.make m).Using s u) (hl : (w.sites s).load = some l) :
    ¬ [t, u].Sublist ((w.make m).line l) := by
  intro hsub
  by_cases hwait : m = .step ∧ w.AtWork t
  · -- Whoever begins to wait stands at the end.
    obtain ⟨rfl, op, k, hc⟩ := hwait
    obtain ⟨op₁, k₁, hp, hop⟩ := ht
    cases (position?_of_working hc).symm.trans hp
    obtain ⟨l', rfl, ho⟩ := h.atWork t _ _ hc hop
    obtain ⟨l'', hl', hload⟩ | ⟨o, ho', -⟩ := hs.awaits_of_holding hp hop
    · cases hl'
      cases hl.symm.trans hload
      have hstep : w.make .step = w.awaitTask t l (.releaseAfter s :: k₁) := step_operate hc rfl
      rw [hstep, line_awaitTask ho] at hsub
      have hactive := (hs.coherent.atWork t _ _ hc).2
      exact not_sublist_append_self (htidy.not_mem_line hactive ho) hsub
    · cases ho'
  · -- Both keep their places.
    let P : Nat → Bool := fun x => x = t ∨ x = u
    have places : ∀ x, P x = true → w.KeepsPlace m l x := fun x hx => by
      obtain rfl | rfl := of_decide_eq_true hx
      · exact hs.keepsPlace_of_holding ht ht' hl fun hm hat => hwait ⟨hm, hat⟩
      · exact hs.keepsPlace_of_using hentering (h.retired t ht).1 hu hu' hl
    have hkeeps : [t, u].filter P = [t, u] := by simp [P]
    have hsub' := hsub.filter P
    rw [hkeeps] at hsub'
    exact h.behind t l u ht hl hu
      ((hsub'.trans (shortens_make hs places)).trans List.filter_sublist)

/-- Unless the site is disposed too late, a move keeps it in good order or leaves it deserted. -/
theorem Orderly.make (hs : Sound w) (hq : Scheduled w) (htidy : Tidy w) (hentering : w.Entering s)
    (h : w.Orderly s) (hover : ¬ w.Overtakes s) (m : Move) :
    (w.make m).Deserted s ∨ (w.make m).Orderly s := by
  by_cases hnew : ∃ t, ¬ w.Holding s t ∧ (w.make m).Holding s t
  · obtain ⟨t, hn, ht⟩ := hnew
    obtain ht | ⟨hd, rfl, k, c, l, hc, hsetup, -, hl, hstep⟩ := holding_make hs ht
    · exact absurd ht hn
    · exact h.dispose hs htidy hover hc hd hsetup hl hstep
  by_cases hput : ∃ t, w.Holding s t ∧ ¬ w.AtWork t ∧ (w.make m).AtWork t
  · obtain ⟨t, ht, hidle, hwork⟩ := hput
    exact .inl ((h.deserted_of_atWork hs hq ht hidle hwork).make hs m)
  have held : ∀ t, (w.make m).Holding s t → w.Holding s t := fun t ht => by
    by_contra hn
    exact hnew ⟨t, hn, ht⟩
  refine .inr ⟨h.not_begun_make hs m, fun t ht => retired_make (h.retired t (held t ht)) m,
    fun t op k hc hop => ?_, fun t l u ht hl hu => ?_⟩
  · have ht := held t ⟨op, k, position?_of_working hc, hop⟩
    have hwork : w.AtWork t := by
      by_contra hn
      exact hput ⟨t, ht, hn, op, _, hc⟩
    obtain ⟨op₁, k₁, hc₁⟩ := hwork
    obtain ⟨op₂, k₂, hp, hop₂⟩ := ht
    cases (position?_of_working hc₁).symm.trans hp
    obtain ⟨l, rfl, ho⟩ := h.atWork t _ _ hc₁ hop₂
    by_cases hm : m = .step
    · -- Whoever waits is not at work.
      subst hm
      have hstep : w.make .step = w.awaitTask t l (.releaseAfter s :: k₂) := step_operate hc₁ rfl
      rw [hstep, awaitTask, ho] at hc
      cases hc
    · cases ((make_frame hm).1.trans hc₁).symm.trans hc
      refine ⟨l, rfl, ?_⟩
      cases ho' : (w.make m).outcome? l with
      | none => rfl
      | some o =>
        have hf := follows_make hs.coherent hm
        cases ho.symm.trans (hf.ends l o (Option.some_ne_none l) ho')
  · have retired := h.retired t (held t ht)
    have hu' : w.Using s u := (using_make hs hu).resolve_right fun hd => hd.1 retired.1
    rw [load_make retired.1] at hl
    exact h.behind_make hs htidy hentering (held t ht) ht hu' hu hl

/-! ## Courses -/

theorem orderly_initial (hosts : Nat → SiteHost) (hostOf : Nat → Nat)
    (engine : EngineCall → Behaviour) (s : Nat) : (initial hosts hostOf engine).Orderly s where
  unreleased := not_begun_initial hosts hostOf engine s
  retired t ht := by
    obtain ⟨op, k, hp, -⟩ := ht
    cases hp
  atWork t op k hc := by cases hc
  behind t l u ht hl := by cases hl

/-- No function of a site was called after its module was released. -/
def UsesFirst (w : World) (s : Nat) : Prop := ∀ pre call post,
  w.events = pre ++ .called (.release s) call :: post → ∀ call', .called (.use s) call' ∉ post

theorem UsesFirst.make (hs : Sound w) (h : w.UsesFirst s)
    (hsafe : w.Deserted s ∨ w.Orderly s) (m : Move) : (w.make m).UsesFirst s := by
  intro pre call post he call' hmem
  obtain ⟨new, hnew, hcalled⟩ := w.called_make m
  rw [hnew] at he
  have old : ∀ post', w.events = pre ++ .called (.release s) call :: post' → post = post' ++ new →
      False := fun post' he' hpost => by
    rw [hpost] at hmem
    obtain hmem | hmem := List.mem_append.1 hmem
    · exact h pre call post' he' call' hmem
    obtain ⟨t, k, hc⟩ := hcalled _ _ hmem
    obtain hd | ho := hsafe
    · exact hd.not_used hs hc
    · refine ho.unreleased (.inr ?_)
      rw [he', releaseEvents_append]
      simp [releaseEvents, Event.serves]
  have both : ∀ pre', new = pre' ++ .called (.release s) call :: post → False := by
    intro pre' hpost
    obtain ⟨t, k, hc⟩ := hcalled (.use s) call' (by simp [hpost, hmem])
    obtain ⟨t', k', hc'⟩ := hcalled (.release s) call (by simp [hpost])
    cases hc.symm.trans hc'
  obtain ⟨pre', -, hpost⟩ | ⟨c', he', hpost⟩ := List.append_eq_append_iff.1 he
  · exact both pre' hpost
  · cases c' with
    | nil => exact both [] hpost.symm
    | cons e c' =>
      rw [List.cons_append] at hpost
      obtain ⟨rfl, rfl⟩ := List.cons.inj hpost
      exact old c' he' rfl

/-- Functions are called first if the site is never disposed too late. -/
theorem usesFirst_course (hs : Sound w) (hq : Scheduled w) (htidy : Tidy w)
    (hentering : w.Entering s) (hsafe : w.Deserted s ∨ w.Orderly s) (h : w.UsesFirst s)
    (ms : List Move) (hover : ∀ ms', ms' <+: ms → ¬ (w.course ms').Overtakes s) :
    (w.course ms).UsesFirst s := by
  induction ms generalizing w with
  | nil => exact h
  | cons m ms ih =>
    have hsafe' : (w.make m).Deserted s ∨ (w.make m).Orderly s := by
      obtain hd | ho := hsafe
      · exact .inl (hd.make hs m)
      · exact ho.make hs hq htidy hentering (hover [] List.nil_prefix) m
    exact ih (hs.make m) (hq.make hs m) (htidy.make hs.coherent m) (hentering.make hs m) hsafe'
      (h.make hs hsafe m) fun ms' hms => hover (m :: ms') ((List.prefix_cons_inj m).2 hms)

/-- What holds of the calls to a module once it is released, after moves from a world. -/
structure ReleasesLast (w : World) (ms : List Move) (s : Nat) : Prop where
  /-- The call after loading and the one before releasing have been made by then. -/
  hooks : ∀ pre call post, (w.course ms).events = pre ++ .called (.release s) call :: post →
    ∀ call', .called (.init s) call' ∉ post ∧ .called (.unload s) call' ∉ post
  /-- So have those of functions, unless somebody was overtaken when the site was disposed. -/
  uses : ∀ pre call post, (w.course ms).events = pre ++ .called (.release s) call :: post →
    ∀ call', .called (.use s) call' ∈ post → ∃ ms', ms' <+: ms ∧ (w.course ms').Overtakes s

/-- **Releasing last.** Whatever hosts and engine do and in whatever order, nothing of a module is
called once it is released, unless the site was disposed after the load had ended with success and
before everybody who was let through to the module had gone on. -/
theorem releasesLast_course (hosts : Nat → SiteHost) (hostOf : Nat → Nat)
    (engine : EngineCall → Behaviour) (ms : List Move) (s : Nat) :
    ReleasesLast (initial hosts hostOf engine) ms s := by
  have hs := sound_course hosts hostOf engine ms
  refine ⟨fun pre call post he call' => ⟨fun hmem => ?_, fun hmem => ?_⟩,
    fun pre call post he call' hmem => ?_⟩
  · have hafter := (hs.after s (.release s) call pre post (by simp) he).1
    have hinit : .called (.init s) call' ∈ loadEvents s post :=
      List.mem_filter.2 ⟨hmem, by simp [Event.serves]⟩
    rw [hafter] at hinit
    cases hinit
  · have hr := releaseState_course hosts hostOf engine ms s
    have hes := mem_releaseEvents (s := s) (by simp) he
    obtain hev | ⟨c, h, -, -, hrel⟩ := hr.releasal
    · simp [hev] at hes
    · have hunload : .called (.unload s) call' ∈ releaseEvents s post :=
        List.mem_filter.2 ⟨hmem, by simp [Event.serves]⟩
      exact (hrel.of_release hes).2.2 call' hunload
  · by_contra hover
    have hfirst : ((initial hosts hostOf engine).course ms).UsesFirst s := by
      refine usesFirst_course (sound_initial hosts hostOf engine)
        (scheduled_course hosts hostOf engine []) (tidy_initial hosts hostOf engine)
        (entering_initial hosts hostOf engine s) (.inr (orderly_initial hosts hostOf engine s))
        (fun pre call post he => ?_) ms fun ms' hms hms' => hover ⟨ms', hms, hms'⟩
      cases pre <;> cases he
    exact hfirst pre call post he call' hmem

/-- Two tasks wait for the load of a site. The one that came first disposes the site when the load
has ended, and releases the module. The other one calls a function of it all the same. -/
theorem used_after_release :
    let host : SiteHost := ⟨{}, ⟨"app", ⟨[], []⟩, []⟩, 0⟩
    let w := (initial (fun _ => host) (fun _ => 0) fun _ => .reply .done).course
      ([.attach 0 ⟨.nothing, .absent⟩, .assign 0 [("ScriptFile", .string "a.js")],
        .start [.getModule 0, .dispose 0], .start [.invoke 0 "work" []]] ++ List.replicate 30 .step)
    let w' := w.course (List.replicate 10 .step)
    calls (.release 0) w.events = 1 ∧ calls (.use 0) w.events = 0 ∧
      calls (.use 0) w'.events = 1 := by
  decide +kernel

end World

end ScriptBundle
