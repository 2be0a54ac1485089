import ScriptBundle.Proofs.Site.ImportOnce
import ScriptBundle.Proofs.Site.Rendering
/-!
# Asking the registry

The load of a site that shares its module asks the registry, which gives it an import to wait for:
the one that it remembers, or a new one (`Sound.given_step`). Whoever gets the module of such a site
begins its load, if it has not been begun. Then it is in the queue and moves up, is put to work, and
asks: `Gets.eventually_given`.
-/

namespace ScriptBundle.World

variable {w w' : World} {s l d t : Nat} {op : Operation} {k : List Frame} {r : Nat} {path : String}
  {moves : Nat → Move}

/-- The load of a site is given a shared import: it waits for that. -/
def Given (w : World) (s d : Nat) : Prop :=
  ∃ l k, (w.sites s).load = some l ∧ w.position? l = some (.await d, k)

/-! ## Moves one after the other -/

theorem Sound.along (hs : Sound w) (moves : Nat → Move) (n : Nat) : Sound (w.along moves n) :=
  along_eq_course w moves n ▸ hs.course _

theorem Scheduled.along (hq : Scheduled w) (hs : Sound w) (moves : Nat → Move) (n : Nat) :
    Scheduled (w.along moves n) := along_eq_course w moves n ▸ hq.course hs _

theorem Sound.grows_along (hs : Sound w) (moves : Nat → Move) (n : Nat) :
    Grows w (w.along moves n) := along_eq_course w moves n ▸ hs.grows_course _

/-! ## What a load is given -/

theorem SharesAt.grows (h : w.SharesAt s r path) (hg : Grows w w') : w'.SharesAt s r path := by
  obtain ⟨c, hc, hshared, rfl, rfl⟩ := h
  exact ⟨c, (hg.site s).setup c hc, hshared, by rw [hg.hosts, (hg.site s).host], rfl⟩

/-- A site that has parameters shares what it ever shares. -/
theorem SharesAt.of_grows (h : w'.SharesAt s r path) (hg : Grows w w')
    (hsetup : (w.sites s).setup.isSome) : w.SharesAt s r path := by
  obtain ⟨c, hc, hshared, rfl, rfl⟩ := h
  obtain ⟨c', hc'⟩ := Option.isSome_iff_exists.1 hsetup
  cases ((hg.site s).setup c' hc').symm.trans hc
  exact ⟨c, hc', hshared, by rw [hg.hosts, (hg.site s).host], rfl⟩

/-- What the load of a site waits for is the import that the site shares. -/
theorem Given.job_eq (hs : Sound w) (h : w.Given s d) (hshares : w.SharesAt s r path) :
    (w.tasks d).job = .imports r path := by
  obtain ⟨l, k, hl, hp⟩ := h
  have hstage := hs.stage l _ k hp
  rw [Stage, ((hs.coherent.loads s l).1 hl).2] at hstage
  obtain ⟨c, -, hstage⟩ := hstage
  generalize loadEvents s w.events = es at hstage
  cases hstage with
  | await _ hjoins =>
    obtain ⟨c₁, hc₁, hj⟩ := hjoins
    obtain ⟨c₂, hc₂, -, rfl, rfl⟩ := hshares
    cases hc₁.symm.trans hc₂
    exact hj

/-- **A load is given an import when it asks the registry**: the one that is remembered under the
path, or else a new one. -/
theorem Sound.given_step (hs : Sound w) (hc : w.control = .working l (.load s) k)
    (hshares : w.SharesAt s r path) : ∃ d, w.step.Given s d ∧
      ((w.registries r).lookup path = some d ∨
        (w.registries r).lookup path = none ∧ d = w.taskCount) := by
  have hload := ((hs.grows_make .step).site s).load l
    (hs.coherent.load_of_job (hs.job_of_load hc))
  have given : ∀ {v : World} {d k'}, w.step = v.goOn l (.await d) k' → w.step.Given s d :=
    fun hstep => ⟨l, _, hload, position?_of_goOn hstep⟩
  obtain ⟨c, hsetup, hshared, rfl, rfl⟩ := hshares
  have hstep := step_operate hc rfl
  simp only [operate, World.load, hsetup, hshared, if_true] at hstep
  split at hstep
  next d hd => exact ⟨d, given hstep, .inl hd⟩
  next hnone => exact ⟨w.taskCount, given hstep, .inr ⟨hnone, rfl⟩⟩

/-! ## Loads that are to ask -/

/-- The load of a site is begun and has not asked the registry. -/
def Asks (w : World) (s : Nat) : Prop :=
  ∃ l k, (w.sites s).load = some l ∧ w.position? l = some (.load s, k)

/-- The load of a site is given the import of a path for a registry. -/
def GivenAt (w : World) (s r : Nat) (path : String) : Prop :=
  ∃ d, w.Given s d ∧ (w.tasks d).job = .imports r path

/-- A load that is to ask is left so by a move that is not its own step. -/
theorem Sound.asks_stays (hs : Sound w) (hl : (w.sites s).load = some l)
    (hp : w.position? l = some (.load s, k)) {m : Move} (hm : m = .step → ¬ w.AtWork l) :
    ((w.make m).sites s).load = some l ∧ (w.make m).position? l = some (.load s, k) := by
  have hg := hs.grows_make m
  obtain ⟨hlt, hj⟩ := (hs.coherent.loads s l).1 hl
  obtain ⟨op, hp', ⟨rfl, -⟩ | ⟨-, hwoken⟩⟩ := hs.stays hp hm
  · exact ⟨(hg.site s).load l hl, hp'⟩
  · cases hwoken with
    | same => exact ⟨(hg.site s).load l hl, hp'⟩
    | stopped _ hn => exact absurd ((hg.job l hlt).trans hj) (hn s)

/-- At work, such a load asks with its next step. -/
theorem working_of_asks (hp : w.position? l = some (.load s, k)) (hwork : w.AtWork l) :
    w.control = .working l (.load s) k := by
  obtain ⟨op, k', hc⟩ := hwork
  cases (position?_of_working hc).symm.trans hp
  exact hc

/-- Until then it is in the queue. -/
theorem ready_of_asks (hp : w.position? l = some (.load s, k)) (hidle : ¬ w.AtWork l) :
    ∃ cause, (w.tasks l).status = .ready cause := by
  obtain ⟨cause, hstatus, -⟩ | ⟨g, p, c, -, hop⟩ | ⟨u, -, hop⟩ :=
    status_of_position (fun op k h => hidle ⟨op, k, h⟩) hp
  · exact ⟨cause, hstatus⟩
  · cases hop
  · cases hop

theorem Asks.make (hs : Sound w) (h : w.Asks s) (hshares : w.SharesAt s r path) (m : Move) :
    (w.make m).Asks s ∨ (w.make m).GivenAt s r path := by
  obtain ⟨l, k, hl, hp⟩ := h
  by_cases hm : m = .step → ¬ w.AtWork l
  · exact .inl ⟨l, k, hs.asks_stays hl hp hm⟩
  · obtain ⟨rfl, hwork⟩ := Classical.not_imp.1 hm
    obtain ⟨d, hd, -⟩ := hs.given_step (working_of_asks hp (not_not.1 hwork)) hshares
    exact .inr ⟨d, hd, hd.job_eq (hs.make .step) (hshares.grows (hs.grows_make .step))⟩

/-- A load that has just been begun is to ask. -/
theorem Sound.asks_make (hs : Sound w) (hq : Scheduled w) {m : Move}
    (hnone : (w.sites s).load = none) (hsome : ((w.make m).sites s).load.isSome) :
    (w.make m).Asks s := by
  obtain ⟨l, hl⟩ := Option.isSome_iff_exists.1 hsome
  have hs' := hs.make m
  have hg := hs.grows_make m
  obtain ⟨hlt, hj⟩ := (hs'.coherent.loads s l).1 hl
  -- The task is new.
  have hnew : ¬ l < w.taskCount := fun h => by
    cases hnone.symm.trans (hs.coherent.load_of_job ((hg.job l h).symm.trans hj))
  obtain ⟨o, ho⟩ | ⟨op, k, hp⟩ := (hq.make hs m).standing hs'.coherent hlt
  · have ended : w.outcome? l = some o := by
      obtain ⟨u, op, k, -, hc, hf⟩ | hf := hs.follows_move m
      · refine hf.ends l o (fun h => hnew ?_) ho
        exact Option.some.inj h ▸ (hs.coherent.atWork u op k hc).1
      · exact hf.ends l o nofun ho
    exact absurd (hs.coherent.lt_of_outcome? ended) hnew
  · obtain ⟨rfl, -⟩ | ⟨op', hp', -⟩ | ⟨-, op', k', hc⟩ := hs.stood_make hp
    · exact ⟨l, k, hl, by rw [hp, hj]; rfl⟩
    · exact absurd (hs.coherent.lt_of_position? hp') hnew
    · exact absurd (hs.coherent.atWork l op' k' hc).1 hnew

/-- A load that is begun on the way is to ask in the end, or has been given an import before. -/
theorem Sound.asks_or_given (hs : Sound w) (hq : Scheduled w) (hnone : (w.sites s).load = none)
    (moves : Nat → Move) {n : Nat} (hsome : ((w.along moves n).sites s).load.isSome)
    (hshares : (w.along moves n).SharesAt s r path) :
    (w.along moves n).Asks s ∨ ∃ m, (w.along moves m).GivenAt s r path := by
  induction n with
  | zero => simp [World.along, hnone] at hsome
  | succ n ih =>
    have hs' := hs.along moves n
    have hq' := hq.along hs moves n
    cases hl : ((w.along moves n).sites s).load with
    | none => exact .inl (hs'.asks_make hq' hl hsome)
    | some l =>
      have hshares' := hshares.of_grows (hs'.grows_make _) (hs'.coherent.configured s l hl)
      obtain hasks | hgiven := ih (Option.isSome_iff_exists.2 ⟨l, hl⟩) hshares'
      · exact (hasks.make hs' hshares' _).imp_right fun h => ⟨n + 1, h⟩
      · exact .inr hgiven

/-! ## How soon a load asks -/

/-- The load of a site is at work and asks, or is in the queue and is to ask, with a measure of how
soon. -/
inductive AsksWithin (w : World) (s : Nat) : Nat ×ₗ Nat ×ₗ Nat ×ₗ Nat → Prop
  | atWork {l : Nat} {k : List Frame} (hc : w.control = .working l (.load s) k) :
      AsksWithin w s (toLex (0, toLex (0, w.bustle)))
  | queued {l i : Nat} {k : List Frame} (hl : (w.sites s).load = some l)
      (hp : w.position? l = some (.load s, k)) (hidle : ¬ w.AtWork l)
      (hq : w.Queued (.work l) i) : AsksWithin w s (toLex (1, toLex (i, w.bustle)))

theorem Asks.exists_within (hq : Scheduled w) (h : w.Asks s) :
    ∃ a, w.AsksWithin s a := by
  obtain ⟨l, k, hl, hp⟩ := h
  by_cases hwork : w.AtWork l
  · exact ⟨_, .atWork (working_of_asks hp hwork)⟩
  · obtain ⟨cause, hstatus⟩ := ready_of_asks hp hwork
    obtain ⟨i, hi⟩ := exists_queued ((hq l).ready cause hstatus)
    exact ⟨_, .queued hl hp hwork hi⟩

/-- A step brings a load nearer to asking, and no move takes it further away. -/
theorem AsksWithin.make (hs : Sound w) (hshares : w.SharesAt s r path)
    {a : Nat ×ₗ Nat ×ₗ Nat ×ₗ Nat} (h : w.AsksWithin s a) (m : Move) :
    (w.make m).GivenAt s r path ∨ Nearer m a ((w.make m).AsksWithin s) := by
  cases h with
  | @atWork l k hc =>
    by_cases hm : m = .step
    · subst hm
      obtain ⟨d, hd, -⟩ := hs.given_step hc hshares
      exact .inl ⟨d, hd, hd.job_eq (hs.make .step) (hshares.grows (hs.grows_make .step))⟩
    · have hturn : Nearer m (toLex (0, w.bustle)) (· = toLex (0, (w.make m).bustle)) :=
        (nearer_bustle hc m).inPhase fun b hb => by rw [hb]
      exact .inr (hturn.inPhase fun b hb => hb ▸ .atWork ((make_frame hm).1.trans hc))
  | @queued l i k hl hp hidle hq =>
    right
    obtain ⟨hl', hp'⟩ := hs.asks_stays hl hp (m := m) fun _ => hidle
    by_cases hwork : (w.make m).AtWork l
    · exact .of_phase (by decide) (.atWork (working_of_asks hp' hwork))
    · obtain ⟨rfl, hc, rest, hrest⟩ | hnearer := hq.make m
      · obtain ⟨cause, hstatus⟩ := ready_of_asks hp hidle
        exact absurd (atWork_of_head hc hrest hstatus) hwork
      · refine hnearer.inPhase ?_
        rintro _ ⟨j, rfl, hj⟩
        exact .queued hl' hp' hwork hj

/-- **A load that is to ask is given an import**, whatever else happens. -/
theorem Asks.eventually_given (hs : Sound w) (hq : Scheduled w) (hshares : w.SharesAt s r path)
    (h : w.Asks s) (fair : Fair moves) : ∃ n, (w.along moves n).GivenAt s r path := by
  obtain ⟨a, ha⟩ := h.exists_within hq
  refine eventually_of_nears (fun v => v.GivenAt s r path)
    (fun a v => v.Sound ∧ v.SharesAt s r path ∧ v.AsksWithin s a) ?_ ⟨hs, hshares, ha⟩ fair
  rintro a v m ⟨hs, hshares, ha⟩
  refine (ha.make hs hshares m).imp_right ?_
  rintro ⟨b, hle, hlt, hb⟩
  exact ⟨b, hle, hlt, hs.make m, hshares.grows (hs.grows_make m), hb⟩

/-! ## Whoever gets the module -/

/-- A task at work gets the module of a site, which is not disposed. -/
def Gets (w : World) (s : Nat) : Prop :=
  ∃ t k, w.control = .working t (.getModule s) k ∧ (w.sites s).state ≠ .disposed

/-- The next step begins the load of the site, if it has not been begun. -/
theorem Gets.eventually_begun (hs : Sound w) (h : w.Gets s) (hshares : w.SharesAt s r path)
    (fair : Fair moves) : ∃ n, ((w.along moves n).sites s).load.isSome := by
  obtain ⟨t, k, hc, hd⟩ := h
  refine eventually_of_nears (fun v => (v.sites s).load.isSome)
    (fun a v => v.Sound ∧ v.SharesAt s r path ∧ v.control = .working t (.getModule s) k ∧
      (v.sites s).state ≠ .disposed ∧ a = v.bustle) ?_ ⟨hs, hshares, hc, hd, rfl⟩ fair
  rintro a v m ⟨hs, hshares, hc, hd, rfl⟩
  by_cases hm : m = .step
  · obtain ⟨c, hsetup, -⟩ := hshares
    exact .inl (hm ▸ load_isSome_of_getModule hc hd (by simp [hsetup]))
  · have hd' : ((v.make m).sites s).state ≠ .disposed := fun h => hm (disposes_of_make hd h).1
    obtain ⟨b, hle, hlt, rfl⟩ := nearer_bustle hc m
    exact .inr ⟨_, hle, hlt, hs.make m, hshares.grows (hs.grows_make m),
      (make_frame hm).1.trans hc, hd', rfl⟩

/-- **Whoever gets the module of a site that shares it** makes the load of the site wait for one of
its imports. -/
theorem Gets.eventually_given (hs : Sound w) (hq : Scheduled w) (hnone : (w.sites s).load = none)
    (fair : Fair moves) {n : Nat} (hshares : (w.along moves n).SharesAt s r path)
    (h : (w.along moves n).Gets s) : ∃ m, (w.along moves m).GivenAt s r path := by
  obtain ⟨i, hi⟩ := h.eventually_begun (hs.along moves n) hshares (fair.shift n)
  have hgrows := (hs.along moves n).grows_along (fun j => moves (n + j)) i
  rw [← along_add] at hi hgrows
  have hshares' := hshares.grows hgrows
  obtain hasks | hgiven := hs.asks_or_given hq hnone moves hi hshares'
  · obtain ⟨j, hj⟩ := hasks.eventually_given (hs.along moves _) (hq.along hs moves _) hshares'
      (fair.shift (n + i))
    rw [← along_add] at hj
    exact ⟨_, hj⟩
  · exact hgiven

end ScriptBundle.World
