import ScriptBundle.Proofs.Site.Happening
/-!
# What a move changes at sites

A step of the task at work changes a site in one of the ways that `Site.Changes` lists
(`changes_step`). No other move changes sites but by attaching handles and assigning parameters
(`sites_make`), which neither gives a site a module nor makes it ready.
-/

namespace ScriptBundle

/-- What a step of the task at work, given its operation and frames, can make of the site `s`. -/
inductive Site.Changes (x : Site) (s : Nat) : Operation → List Frame → Site → Prop
  | same {op : Operation} {k : List Frame} : Changes x s op k x
  | rendered {k : List Frame} :
      Changes x s (.afterRender s) k { x with awaitsRender := false }
  | loading {k : List Frame} (l : Nat) (hl : x.load = none) :
      Changes x s (.getModule s) k { x with load := some l }
  | disposed {k : List Frame} : Changes x s (.dispose s) k { x with state := .disposed }
  | kept {h : Value} {k : List Frame} :
      Changes x s (.give (.value h)) (.keep s :: k) { x with imported := some h }
  | loaded {v h : Value} {k : List Frame} (hx : x.state = .resolving) :
      Changes x s (.give (.value v)) (.finishLoad s h :: k) { x with state := .ready }
  | released {o : Outcome} {k : List Frame} :
      Changes x s (.give o) (.releaseAfter s :: k) { x with imported := none }

namespace World

variable {w w' v : World} {t : Nat} {op op' : Operation} {k k' : List Frame}

/-! ## A step of the task at work -/

theorem sites_cancel (u : Nat) : (w.cancel u).sites = w.sites := by
  obtain ⟨_, _, _, h⟩ := w.exists_cancel_eq u
  rw [h]

theorem changes_updateSite {s : Nat} (u : Nat) {x : Site} (h : w'.sites = put w.sites u x)
    (hx : (w.sites u).Changes u op k x) : (w.sites s).Changes s op k (w'.sites s) := by
  rw [h]
  by_cases hs : s = u
  · rw [hs, put_self]
    exact hx
  · rw [put_of_ne _ _ hs]
    exact .same

theorem Proceeds.changes (h : w.Proceeds op k v op' k') (s : Nat) :
    (w.sites s).Changes s op k (v.sites s) := by
  cases h with
  | renders => exact changes_updateSite _ rfl .rendered
  | startsLoad _ _ hl => exact changes_updateSite _ rfl (.loading _ hl)
  | disposes | disposesLoading => exact changes_updateSite _ rfl .disposed
  | keeps => exact changes_updateSite _ rfl .kept
  | finishes =>
    refine changes_updateSite _ rfl ?_
    split_ifs with hx
    · exact .loaded hx
    · exact .same
  | unloads | releases => exact changes_updateSite _ rfl .released
  | cancels =>
    rw [sites_cancel]
    exact .same
  | _ => exact .same

/-- **The changes of sites.** A step changes a site in one of a few ways, which the operation and
the frames of the task at work tell. -/
theorem changes_step (hc : w.control = .working t op k) (s : Nat) :
    (w.sites s).Changes s op k (w.step.sites s) := by
  have hworks := works_step hc
  generalize w.step = w' at hworks
  cases hworks with
  | goesOn h => exact h.changes s
  | waits hl =>
    rw [awaitTask_eq hl]
    exact .same
  | atGate | ends => exact .same

/-! ## Other moves -/

theorem sites_step_idle (hc : w.control = .idle) : w.step.sites = w.sites := by
  have hidles := idles_step hc
  generalize w.step = w' at hidles
  cases hidles <;> rfl

theorem sites_openGate (g : String) (b : Behaviour) : (w.openGate g b).sites = w.sites :=
  openGate_keeps (motive := fun v => v.sites = w.sites) rfl fun _ _ _ _ _ h => h

/-- A move that no task makes changes sites only by attaching handles and assigning parameters. -/
theorem sites_make {m : Move} (hm : w.Aside m) (s : Nat) :
    (w.make m).sites s = w.sites s ∨
      (∃ h, m = .attach s h ∧ (w.sites s).attach h = .ok ((w.make m).sites s)) ∨
      ∃ pairs, m = .assign s pairs ∧ (w.make m).sites s =
        ((w.sites s).assignParameters (w.hosts (w.sites s).host) pairs).2 := by
  by_cases hstep : m = .step
  · subst hstep
    exact .inl (by rw [make, sites_step_idle (hm rfl)])
  · have hhappens := happens_make (w := w) hstep
    generalize w.make m = w' at hhappens
    cases hhappens with
    | @attached u h x hx =>
      obtain hs | ⟨rfl, hs⟩ := put_eq_or w.sites u x s
      · exact .inl hs
      · exact .inr (.inl ⟨h, rfl, hx.trans (congrArg Except.ok hs.symm)⟩)
    | assigned u pairs | renders u pairs =>
      obtain hs | ⟨rfl, hs⟩ := put_eq_or w.sites u
        ((w.sites u).assignParameters (w.hosts (w.sites u).host) pairs).2 s
      · exact .inl hs
      · exact .inr (.inr ⟨pairs, rfl, hs⟩)
    | opened g b => exact .inl (congrFun (sites_openGate g b) s)
    | cancels => exact .inl (congrFun (sites_cancel _) s)
    | _ => exact .inl rfl

theorem imported_make {m : Move} (hm : w.Aside m) (s : Nat) :
    ((w.make m).sites s).imported = (w.sites s).imported := by
  obtain hs | ⟨handle, -, hs⟩ | ⟨pairs, -, hs⟩ := sites_make hm s
  · rw [hs]
  · simp only [Site.attach] at hs
    split_ifs at hs
    rw [← Except.ok.inj hs]
  · rw [hs]
    simp only [Site.assignParameters]
    split_ifs
    · rfl
    · split
      · rfl
      · split <;> rfl

theorem ready_make {m : Move} (hm : w.Aside m) {s : Nat}
    (hr : ((w.make m).sites s).state = .ready) : (w.sites s).state = .ready := by
  obtain hs | ⟨handle, -, hs⟩ | ⟨pairs, -, hs⟩ := sites_make hm s
  · rwa [hs] at hr
  · simp only [Site.attach] at hs
    split_ifs at hs
    rw [← Except.ok.inj hs] at hr
    cases hr
  · rw [hs] at hr
    simp only [Site.assignParameters] at hr
    split_ifs at hr
    · exact hr
    · split at hr
      · exact hr
      · split at hr
        · exact hr
        · cases hr

end World

end ScriptBundle
