import ScriptBundle.Proofs.Site.Standing
/-!
# How the task at work proceeds

With an operation and frames, the task at work gives an outcome at once (`World.Yields`,
`World.Returns`) or goes on with others: `World.Proceeds` lists the ways, each with the world in
which it goes on. Otherwise it waits or has ended. `World.Works` says so, and `works_step` that
there is nothing else: what holds of all steps of a task at work is shown by cases on these
relations.
-/

namespace ScriptBundle

/-- Whether a frame goes on with a value only, and hands on any other outcome. -/
def Frame.needsValue : Frame → Bool
  | .discard | .rendered _ | .invokeOn _ _ _ | .nextCall _ _ _ | .restore _ | .keep _ | .callInit _
  | .finishLoad _ _ | .closeNext _ _ => true
  | .disposeAfter _ | .imported _ | .releaseAfter _ | .releaseModule _ _ | .afterCall _ _ => false

/-- Whether a task may wait with an operation. -/
def Operation.isWait : Operation → Bool
  | .await _ | .follow _ _ (.gate _) => true
  | _ => false

/-- Whether a load has succeeded, if its end leads to a release. -/
def Outcome.releases? : Outcome → Option Bool
  | .value _ => some true
  | .error (.moduleLoad _ _ _) | .cancelled => none
  | .error _ => some false

namespace World

/-! ## The ways to proceed -/

/-- The outcome that an operation gives at once, without a change of the world. -/
inductive Yields (w : World) : Operation → Outcome → Prop
  | renderedBefore {s : Nat} (h : (w.sites s).awaitsRender = false) :
      Yields w (.afterRender s) (.value .null)
  | refuses {s : Nat} (h : (w.sites s).state = .disposed) :
      Yields w (.getModule s) (.error .disposed)
  | hasNoParameters {s : Nat} (hd : (w.sites s).state ≠ .disposed) (h : (w.sites s).setup = none) :
      Yields w (.getModule s) (.error .noParameters)
  | disposedBefore {s : Nat} (h : (w.sites s).state = .disposed) :
      Yields w (.dispose s) (.value .null)
  | allCalled {s : Nat} {results : List Value} :
      Yields w (.callAll s [] results) (.value (.array results))
  | allClosed {r : Nat} : Yields w (.closeLoads r []) (.value .null)
  | allMade : Yields w (.inTurn []) (.value .null)
  | loadsNothing {s : Nat} (h : (w.sites s).setup = none) :
      Yields w (.load s) (.error .noParameters)
  | hasEnded {l : Nat} {o : Outcome} (h : w.outcome? l = some o) : Yields w (.await l) o

/-- The outcome that a frame gives at once when it is handed one, without a change of the world. -/
inductive Returns (w : World) : Outcome → Frame → Outcome → Prop
  | fails {o : Outcome} {f : Frame} (ho : o.isFailure = true) (hf : f.needsValue = true) :
      Returns w o f o
  | discards {v : Value} : Returns w (.value v) .discard (.value .null)
  | renders {s : Nat} {v : Value} : Returns w (.value v) (.rendered s) (.value .null)
  | restores {kept : Outcome} {v : Value} : Returns w (.value v) (.restore kept) kept
  | checks {path : String} {o : Outcome} : Returns w o (.imported path) (importOutcome path o)
  | hasNothing {s : Nat} {o : Outcome} {loaded : Bool} (ho : o.releases? = some loaded)
      (h : (w.sites s).imported = none) : Returns w o (.releaseAfter s) (.value .null)
  | loadedNothing {s : Nat} {path : String} {reason : Option String} {fromEngine : Bool} :
      Returns w (.error (.moduleLoad path reason fromEngine)) (.releaseAfter s) (.value .null)
  | stops {s : Nat} : Returns w .cancelled (.releaseAfter s) .cancelled

/-- How a task with an operation and frames goes on: in which world, and with what. -/
inductive Proceeds (w : World) : Operation → List Frame → World → Operation → List Frame → Prop
  /-- The operation gives an outcome. -/
  | yields {op : Operation} {o : Outcome} {k : List Frame} (h : w.Yields op o) :
      Proceeds w op k w (.give o) k
  /-- A site is told of its first render. -/
  | renders {s : Nat} {k : List Frame} (h : (w.sites s).awaitsRender = true) :
      Proceeds w (.afterRender s) k (w.updateSite s fun x => { x with awaitsRender := false })
        (.getModule s) (.rendered s :: k)
  /-- It waits for the load of a site. -/
  | joins {s l : Nat} {k : List Frame} (hd : (w.sites s).state ≠ .disposed)
      (hc : (w.sites s).setup.isSome = true) (hl : (w.sites s).load = some l) :
      Proceeds w (.getModule s) k w (.await l) k
  /-- It starts the load of a site. -/
  | startsLoad {s : Nat} {k : List Frame} (hd : (w.sites s).state ≠ .disposed)
      (hc : (w.sites s).setup.isSome = true) (hl : (w.sites s).load = none) :
      Proceeds w (.getModule s) k
        ((w.spawn (.loads s)).updateSite s fun x => { x with load := some w.taskCount })
        (.await w.taskCount) k
  | asks {s : Nat} {id : String} {args : List Value} {k : List Frame} :
      Proceeds w (.invoke s id args) k w (.getModule s) (.invokeOn s id args :: k)
  | asksVoid {s : Nat} {id : String} {args : List Value} {k : List Frame} :
      Proceeds w (.invokeVoid s id args) k w (.invoke s id args) (.discard :: k)
  /-- It disposes a site that has nothing of its own to release. -/
  | disposes {s : Nat} {k : List Frame} (hd : (w.sites s).state ≠ .disposed)
      (h : ∀ c l, (w.sites s).setup = some c → (w.sites s).load = some l → c.isShared = true) :
      Proceeds w (.dispose s) k (w.updateSite s fun x => { x with state := .disposed })
        (.give (.value .null)) k
  /-- It disposes a site and waits for its load. -/
  | disposesLoading {s l : Nat} {c : SiteSetup} {k : List Frame}
      (hd : (w.sites s).state ≠ .disposed) (hc : (w.sites s).setup = some c)
      (hl : (w.sites s).load = some l) (hown : c.isShared = false) :
      Proceeds w (.dispose s) k (w.updateSite s fun x => { x with state := .disposed })
        (.await l) (.releaseAfter s :: .discard :: k)
  | within {s : Nat} {ids : List String} {k : List Frame} :
      Proceeds w (.within s ids) k w (.callAll s ids []) (.disposeAfter s :: k)
  | callsNext {s : Nat} {id : String} {ids : List String} {results : List Value} {k : List Frame} :
      Proceeds w (.callAll s (id :: ids) results) k
        w (.invoke s id []) (.nextCall s ids results :: k)
  /-- It takes over all that a registry keeps. -/
  | closes {r : Nat} {k : List Frame} :
      Proceeds w (.closeRegistry r) k { w with registries := put w.registries r [] }
        (.closeLoads r ((w.registries r).map Prod.snd)) k
  /-- It stops an import that is not finished. -/
  | cancels {r l : Nat} {ls : List Nat} {k : List Frame} (h : w.outcome? l = none) :
      Proceeds w (.closeLoads r (l :: ls)) k (w.cancel l) (.closeLoads r ls) k
  /-- It begins to release a module for a registry. -/
  | releasesShared {r l : Nat} {ls : List Nat} {h : Value} {k : List Frame}
      (ho : w.outcome? l = some (.value h)) :
      Proceeds w (.closeLoads r (l :: ls)) k
        w (.call (.close r) (.dispose h)) (.closeNext r ls :: k)
  /-- It passes over an import that has failed. -/
  | skips {r l : Nat} {o : Outcome} {ls : List Nat} {k : List Frame} (ho : w.outcome? l = some o)
      (hfail : o.isFailure = true) :
      Proceeds w (.closeLoads r (l :: ls)) k w (.closeLoads r ls) k
  | makesNext {c : SiteCall} {cs : List SiteCall} {k : List Frame} :
      Proceeds w (.inTurn (c :: cs)) k w c.operation (.afterCall c cs :: k)
  /-- It loads a shared module that a registry remembers. -/
  | joinsImport {s l : Nat} {c : SiteSetup} {k : List Frame} (hc : (w.sites s).setup = some c)
      (hshared : c.isShared = true)
      (hl : (w.registries (w.hosts (w.sites s).host).registry).lookup c.file = some l) :
      Proceeds w (.load s) k w (.await l) (.callInit s :: k)
  /-- It starts the import of a shared module, which a registry remembers. -/
  | startsImport {s r : Nat} {c : SiteSetup} {k : List Frame} (hc : (w.sites s).setup = some c)
      (hshared : c.isShared = true) (hr : r = (w.hosts (w.sites s).host).registry)
      (hl : (w.registries r).lookup c.file = none) :
      Proceeds w (.load s) k
        { w.spawn (.imports r c.file) with
          registries := put w.registries r (w.registries r ++ [(c.file, w.taskCount)]) }
        (.await w.taskCount) (.callInit s :: k)
  /-- It imports a module for a site alone. -/
  | importsOwn {s : Nat} {c : SiteSetup} {k : List Frame} (hc : (w.sites s).setup = some c)
      (hown : c.isShared = false) :
      Proceeds w (.load s) k w (.fetch (.ownImport s) c.file) (.keep s :: .callInit s :: k)
  | fetches {p : Purpose} {path : String} {k : List Frame} :
      Proceeds w (.fetch p path) k w (.call p (.importModule path)) (.imported path :: k)
  | calls {p : Purpose} {c : EngineCall} {k : List Frame} :
      Proceeds w (.call p c) k (w.record (.called p c)) (.follow p c (w.engine c)) k
  /-- It gets the answer of the engine. -/
  | answered {p : Purpose} {c : EngineCall} {r : Reply} {k : List Frame} :
      Proceeds w (.follow p c (.reply r)) k
        (record { w with named := if c.namesModule r then w.named + 1 else w.named }
          (.ended p c (c.outcome w.named r)))
        (.give (c.outcome w.named r)) k
  /-- The frame on top gives an outcome. -/
  | returns {o o' : Outcome} {f : Frame} {k : List Frame} (h : w.Returns o f o') :
      Proceeds w (.give o) (f :: k) w (.give o') k
  | uses {s : Nat} {h : Value} {id : String} {args : List Value} {k : List Frame} :
      Proceeds w (.give (.value h)) (.invokeOn s id args :: k) w
        (.call (.use s) ((w.sites s).useCall h id args)) k
  | callsOn {s : Nat} {v : Value} {ids : List String} {results : List Value} {k : List Frame} :
      Proceeds w (.give (.value v)) (.nextCall s ids results :: k) w
        (.callAll s ids (results ++ [v])) k
  | leaves {s : Nat} {o : Outcome} {k : List Frame} :
      Proceeds w (.give o) (.disposeAfter s :: k) w (.dispose s) (.restore o :: k)
  | keeps {s : Nat} {h : Value} {k : List Frame} :
      Proceeds w (.give (.value h)) (.keep s :: k)
        (w.updateSite s fun x => { x with imported := some h }) (.give (.value h)) k
  | initializes {s : Nat} {h : Value} {c : EngineCall} {k : List Frame}
      (hc : (w.sites s).initCall? h = some c) :
      Proceeds w (.give (.value h)) (.callInit s :: k) w (.call (.init s) c) (.finishLoad s h :: k)
  | hasNoInit {s : Nat} {h : Value} {k : List Frame} (hc : (w.sites s).initCall? h = none) :
      Proceeds w (.give (.value h)) (.callInit s :: k) w (.give (.value .null))
        (.finishLoad s h :: k)
  /-- It makes a site ready that waits for that. -/
  | finishes {s : Nat} {h v : Value} {k : List Frame} :
      Proceeds w (.give (.value v)) (.finishLoad s h :: k)
        (w.updateSite s fun x => if x.state = .resolving then { x with state := .ready } else x)
        (.give (.value h)) k
  /-- It takes the module from a site, and calls the function for before releasing. -/
  | unloads {s : Nat} {o : Outcome} {h : Value} {c : EngineCall} {k : List Frame}
      (ho : o.releases? = some true) (hi : (w.sites s).imported = some h)
      (hc : (w.sites s).unloadCall? h = some c) :
      Proceeds w (.give o) (.releaseAfter s :: k)
        (w.updateSite s fun x => { x with imported := none }) (.call (.unload s) c)
        (.releaseModule s h :: k)
  /-- It takes the module from a site and releases it. -/
  | releases {s : Nat} {o : Outcome} {h : Value} {loaded : Bool} {k : List Frame}
      (ho : o.releases? = some loaded) (hi : (w.sites s).imported = some h)
      (hc : loaded = true → (w.sites s).unloadCall? h = none) :
      Proceeds w (.give o) (.releaseAfter s :: k)
        (w.updateSite s fun x => { x with imported := none }) (.call (.release s) (.dispose h)) k
  | releasesUnloaded {s : Nat} {o : Outcome} {h : Value} {k : List Frame} :
      Proceeds w (.give o) (.releaseModule s h :: k) w (.call (.release s) (.dispose h))
        (.restore o :: k)
  | closesNext {r : Nat} {v : Value} {ls : List Nat} {k : List Frame} :
      Proceeds w (.give (.value v)) (.closeNext r ls :: k) w (.closeLoads r ls) k
  | hasMade {o : Outcome} {c : SiteCall} {cs : List SiteCall} {k : List Frame} :
      Proceeds w (.give o) (.afterCall c cs :: k) w (.inTurn cs) k

/-- What a step of the task at work may make of a world, given its operation and frames. -/
inductive Works (w : World) (t : Nat) : Operation → List Frame → World → Prop
  | goesOn {op op' : Operation} {k k' : List Frame} {v : World} (h : w.Proceeds op k v op' k') :
      Works w t op k (v.goOn t op' k')
  /-- It waits for a task. -/
  | waits {l : Nat} {k : List Frame} (hl : w.outcome? l = none) :
      Works w t (.await l) k (w.awaitTask t l k)
  /-- It waits at a gate. -/
  | atGate {p : Purpose} {c : EngineCall} {g : String} {k : List Frame} :
      Works w t (.follow p c (.gate g)) k (w.follow t p c k (.gate g))
  | ends {o : Outcome} : Works w t (.give o) [] (w.finish t o)

/-! ## Steps -/

variable {w w' v : World} {t : Nat} {op op' : Operation} {k k' : List Frame}

theorem step_finish {o : Outcome} (hc : w.control = .working t (.give o) []) :
    w.step = w.finish t o := by
  simp only [step, hc]

theorem step_resume {o : Outcome} {f : Frame} (hc : w.control = .working t (.give o) (f :: k)) :
    w.step = w.resume t k o f := by
  simp only [step, hc]

theorem step_operate (hc : w.control = .working t op k) (hop : op.gives = false) :
    w.step = w.operate t k op := by
  cases op with
  | give => cases hop
  | _ => simp only [step, hc]

/-- A task that is to wait for one that has not ended is added behind all that wait for it, and
nobody is at work. -/
theorem awaitTask_eq {l : Nat} (hl : w.outcome? l = none) :
    w.awaitTask t l k = { (w.updateTask l fun x =>
      { x with waiters := x.waiters ++ [t] }).updateTask t fun x =>
        { x with status := .awaiting l, frames := k } with control := .idle } := by
  simp only [awaitTask, hl]

theorem works_getModule (s : Nat) : w.Works t (.getModule s) k (w.getModule t s k) := by
  simp only [World.getModule]
  split_ifs with hd hc
  · exact .goesOn (.yields (.refuses hd))
  · exact .goesOn (.yields (.hasNoParameters hd (Option.isNone_iff_eq_none.1 hc)))
  · have hc : (w.sites s).setup.isSome = true := by simpa [Option.isSome_iff_ne_none] using hc
    split
    next l hl => exact .goesOn (.joins hd hc hl)
    next hl => exact .goesOn (.startsLoad hd hc hl)

theorem works_load (s : Nat) : w.Works t (.load s) k (w.load t s k) := by
  simp only [World.load]
  split
  next hc => exact .goesOn (.yields (.loadsNothing hc))
  next c hc =>
    split_ifs with hshared
    · split
      next l hl => exact .goesOn (.joinsImport hc hshared hl)
      next hl => exact .goesOn (.startsImport hc hshared rfl hl)
    · exact .goesOn (.importsOwn hc (Bool.eq_false_iff.2 hshared))

theorem works_dispose (s : Nat) : w.Works t (.dispose s) k (w.dispose t s k) := by
  simp only [World.dispose]
  split_ifs with hd
  · exact .goesOn (.yields (.disposedBefore hd))
  · split
    next c l hc hl =>
      split_ifs with hshared
      · refine .goesOn (.disposes hd fun c' l' hc' _ => ?_)
        cases hc.symm.trans hc'
        exact hshared
      · exact .goesOn (.disposesLoading hd hc hl (Bool.eq_false_iff.2 hshared))
    next hne => exact .goesOn (.disposes hd fun c l hc hl => absurd hl (hne c l hc))

theorem works_closeLoads (r : Nat) (ls : List Nat) :
    w.Works t (.closeLoads r ls) k (w.closeLoads t r k ls) := by
  cases ls with
  | nil => exact .goesOn (.yields .allClosed)
  | cons l ls =>
    simp only [closeLoads]
    split
    next ho => exact .goesOn (.cancels ho)
    next h ho => exact .goesOn (.releasesShared ho)
    next o hne ho =>
      refine .goesOn (.skips ho ?_)
      cases o with
      | value h => exact absurd rfl (hne h)
      | error | cancelled => rfl

theorem works_operate (hop : op.gives = false) : w.Works t op k (w.operate t k op) := by
  cases op with
  | give => cases hop
  | afterRender s =>
    simp only [operate]
    split_ifs with h
    · exact .goesOn (.renders h)
    · exact .goesOn (.yields (.renderedBefore (Bool.eq_false_iff.2 h)))
  | getModule s => exact works_getModule s
  | invoke => exact .goesOn .asks
  | invokeVoid => exact .goesOn .asksVoid
  | dispose s => exact works_dispose s
  | within => exact .goesOn .within
  | callAll s ids results =>
    cases ids with
    | nil => exact .goesOn (.yields .allCalled)
    | cons => exact .goesOn .callsNext
  | closeRegistry => exact .goesOn .closes
  | closeLoads r ls => exact works_closeLoads r ls
  | inTurn calls =>
    cases calls with
    | nil => exact .goesOn (.yields .allMade)
    | cons => exact .goesOn .makesNext
  | load s => exact works_load s
  | fetch => exact .goesOn .fetches
  | await l =>
    cases hl : w.outcome? l with
    | none => exact .waits hl
    | some o =>
      simp only [operate, awaitTask, hl]
      exact .goesOn (.yields (.hasEnded hl))
  | call => exact .goesOn .calls
  | follow p c b =>
    cases b with
    | reply => exact .goesOn .answered
    | gate => exact .atGate

theorem works_release {s : Nat} {o : Outcome} {loaded : Bool} (ho : o.releases? = some loaded) :
    w.Works t (.give o) (.releaseAfter s :: k) (w.release t s loaded k) := by
  simp only [World.release]
  split
  next hi => exact .goesOn (.returns (.hasNothing ho hi))
  next h hi =>
    cases loaded with
    | true =>
      simp only [if_true]
      split
      next c hc => exact .goesOn (.unloads ho hi hc)
      next hc => exact .goesOn (.releases ho hi fun _ => hc)
    | false => exact .goesOn (.releases ho hi nofun)

theorem works_resume (o : Outcome) (f : Frame) :
    w.Works t (.give o) (f :: k) (w.resume t k o f) := by
  cases f with
  | discard =>
    cases o with
    | value => exact .goesOn (.returns .discards)
    | error | cancelled => exact .goesOn (.returns (.fails rfl rfl))
  | rendered =>
    cases o with
    | value => exact .goesOn (.returns .renders)
    | error | cancelled => exact .goesOn (.returns (.fails rfl rfl))
  | invokeOn =>
    cases o with
    | value => exact .goesOn .uses
    | error | cancelled => exact .goesOn (.returns (.fails rfl rfl))
  | nextCall =>
    cases o with
    | value => exact .goesOn .callsOn
    | error | cancelled => exact .goesOn (.returns (.fails rfl rfl))
  | disposeAfter => exact .goesOn .leaves
  | restore =>
    cases o with
    | value => exact .goesOn (.returns .restores)
    | error | cancelled => exact .goesOn (.returns (.fails rfl rfl))
  | imported => exact .goesOn (.returns .checks)
  | keep =>
    cases o with
    | value => exact .goesOn .keeps
    | error | cancelled => exact .goesOn (.returns (.fails rfl rfl))
  | callInit =>
    cases o with
    | value =>
      simp only [resume]
      split
      next hc => exact .goesOn (.initializes hc)
      next hc => exact .goesOn (.hasNoInit hc)
    | error | cancelled => exact .goesOn (.returns (.fails rfl rfl))
  | finishLoad =>
    cases o with
    | value => exact .goesOn .finishes
    | error | cancelled => exact .goesOn (.returns (.fails rfl rfl))
  | releaseAfter s =>
    cases o with
    | value => exact works_release rfl
    | error e =>
      cases e with
      | moduleLoad => exact .goesOn (.returns .loadedNothing)
      | disposed | noParameters | engine =>
        change w.Works t _ _ (w.release t s false k)
        exact works_release rfl
    | cancelled => exact .goesOn (.returns .stops)
  | releaseModule => exact .goesOn .releasesUnloaded
  | closeNext =>
    cases o with
    | value => exact .goesOn .closesNext
    | error | cancelled => exact .goesOn (.returns (.fails rfl rfl))
  | afterCall => exact .goesOn .hasMade

/-- **The steps of the task at work.** It proceeds, waits or ends. -/
theorem works_step (hc : w.control = .working t op k) : w.Works t op k w.step := by
  obtain ⟨o, rfl⟩ | hop := op.give_or_not
  · cases k with
    | nil => exact step_finish hc ▸ .ends
    | cons f k => exact step_resume hc ▸ works_resume o f
  · exact step_operate hc hop ▸ works_operate hop

/-- A task at work that need not wait and has something left to do goes on. -/
theorem proceeds_step (hc : w.control = .working t op k) (hwait : op.isWait = false)
    (hleft : op.gives = false ∨ k ≠ []) :
    ∃ v op' k', w.step = v.goOn t op' k' ∧ w.Proceeds op k v op' k' := by
  have hworks := works_step hc
  generalize w.step = w' at hworks
  cases hworks with
  | goesOn h => exact ⟨_, _, _, rfl, h⟩
  | waits | atGate => cases hwait
  | ends =>
    obtain hleft | hleft := hleft
    · cases hleft
    · exact absurd rfl hleft

/-! ## Where a step leads the task at work -/

theorem position?_of_goOn {v : World} {op' : Operation} {k' : List Frame}
    (h : w' = v.goOn t op' k') : w'.position? t = some (op', k') :=
  h ▸ position?_of_working rfl

/-- The task at work goes on with the outcome of the task that it is to wait for, or waits. -/
theorem position?_of_awaitTask {l : Nat} (h : w' = w.awaitTask t l k) :
    (∃ o, w.outcome? l = some o ∧ w'.position? t = some (.give o, k)) ∨
      w'.position? t = some (.await l, k) := by
  subst h
  cases hl : w.outcome? l with
  | some o => exact .inl ⟨o, rfl, position?_of_goOn (v := w) (by simp only [awaitTask, hl])⟩
  | none =>
    right
    rw [awaitTask_eq hl, position?_of_idle rfl]
    dsimp only [updateTask]
    rw [put_self]
    rfl

theorem position?_of_gate {p : Purpose} {c : EngineCall} {g : String}
    (h : w' = w.follow t p c k (.gate g)) :
    w'.position? t = some (.follow p c (.gate g), k) := by
  subst h
  rw [position?_of_idle rfl]
  dsimp only [World.follow, updateTask]
  rw [put_self]
  rfl

theorem outcome?_finish (o : Outcome) : (w.finish t o).outcome? t = some o := by
  rw [outcome?_eq_some]
  dsimp only [finish, updateTask]
  rw [put_self]

theorem position?_finish (o : Outcome) : (w.finish t o).position? t = none := by
  rw [position?_of_idle rfl]
  dsimp only [finish, updateTask]
  rw [put_self]
  rfl

/-- A step leads the task at work on, or leaves it waiting where it is. -/
theorem proceeds_or_stays (hc : w.control = .working t op k)
    (hp : w.step.position? t = some (op', k')) :
    (∃ v, w.Proceeds op k v op' k') ∨ (op' = op ∧ k' = k) ∧ op.isWait = true := by
  have hworks := works_step hc
  generalize w.step = w' at hworks hp
  cases hworks with
  | goesOn h =>
    cases (position?_of_goOn rfl).symm.trans hp
    exact .inl ⟨_, h⟩
  | waits hl =>
    obtain ⟨o, ho, -⟩ | hp' := position?_of_awaitTask (w := w) (t := t) (k := k) rfl
    · cases hl.symm.trans ho
    · cases hp'.symm.trans hp
      exact .inr ⟨⟨rfl, rfl⟩, rfl⟩
  | atGate =>
    cases (position?_of_gate rfl).symm.trans hp
    exact .inr ⟨⟨rfl, rfl⟩, rfl⟩
  | ends => cases (position?_finish _).symm.trans hp

/-- What holds wherever a step leads, and where it leaves the task at work waiting, holds where that
stands after the step, unless it has ended. -/
theorem ends_or_leads (hc : w.control = .working t op k) {motive : Operation → List Frame → Prop}
    (goes : ∀ {v op' k'}, w.step = v.goOn t op' k' → w.Proceeds op k v op' k' → motive op' k')
    (stays : motive op k) :
    (∃ o, op = .give o ∧ k = []) ∨
      ∃ op' k', w.step.position? t = some (op', k') ∧ motive op' k' := by
  have hworks := works_step hc
  generalize hstep : w.step = w' at hworks goes
  cases hworks with
  | goesOn h => exact .inr ⟨_, _, position?_of_goOn rfl, goes rfl h⟩
  | waits hl =>
    obtain ⟨o, ho, -⟩ | hp := position?_of_awaitTask (w := w) (t := t) (k := k) rfl
    · cases hl.symm.trans ho
    · exact .inr ⟨_, _, hp, stays⟩
  | atGate => exact .inr ⟨_, _, position?_of_gate rfl, stays⟩
  | ends => exact .inl ⟨_, rfl, rfl⟩

end World

end ScriptBundle
