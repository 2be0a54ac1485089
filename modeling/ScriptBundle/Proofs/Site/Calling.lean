import ScriptBundle.Proofs.Site.Loading
/-!
# What the tasks of hosts do

A task of a host stands in one of a few situations, `CallStage`: it does something whose outcome may
be anything, it waits for the module of a site, or it releases one. In particular it calls a
function of a module for a site only if that is the module which the site's load gave.
-/

namespace ScriptBundle

/-- The site whose module is handed to a frame. -/
def Frame.seeks : Frame → Option Nat
  | .rendered s | .invokeOn s _ _ => some s
  | .afterCall (.getModule s) _ => some s
  | _ => none

namespace World

/-- All of the given tasks import for registries. -/
def AllImport (w : World) (ls : List Nat) : Prop :=
  ∀ l ∈ ls, ∃ r path, (w.tasks l).job = .imports r path

/-- A frame of a host's task that may be handed any outcome. -/
def PlainFrame (w : World) : Frame → Prop
  | .discard | .nextCall _ _ _ | .disposeAfter _ | .restore _ => True
  | .closeNext _ ls => w.AllImport ls
  | .afterCall c _ => ∀ s, c ≠ .getModule s
  | _ => False

/-- A call to the engine that a host's task may make at any time, except for the call before the
module of a site is released. -/
def PlainCall (w : World) (c : EngineCall) : Purpose → Prop
  | .use s => ∃ h id args, c = (w.sites s).useCall h id args ∧ w.LoadEnded s (.value h)
  | .release s => ∃ o, w.LoadEnded s o
  | .close _ => True
  | _ => False

/-- An operation of a host's task that may give any outcome. -/
def PlainOperation (w : World) : Operation → Prop
  | .load _ | .fetch _ _ => False
  | .closeLoads _ ls => w.AllImport ls
  | .await l => l < w.taskCount
  | .call p c | .follow p c _ => w.PlainCall c p
  | _ => True

/-- What a task that gets the module of a site may be given: an error, the outcome of the site's
load, or nothing because it is to stop. -/
inductive Answers (w : World) (t s : Nat) : Outcome → Prop
  | disposed : Answers w t s (.error .disposed)
  | noParameters : Answers w t s (.error .noParameters)
  | ended {o : Outcome} (ho : w.LoadEnded s o) : Answers w t s o
  | stopped (ht : (w.tasks t).stopping = true) : Answers w t s .cancelled

/-- The operations of a task that gets the module of a site. -/
inductive Seeks (w : World) (t s : Nat) : Operation → Prop
  | get : Seeks w t s (.getModule s)
  | await {l : Nat} (hl : (w.sites s).load = some l) : Seeks w t s (.await l)
  | give {o : Outcome} (ho : w.Answers t s o) : Seeks w t s (.give o)

/-- The situations of a task of a host. -/
inductive CallStage (w : World) (t : Nat) : Operation → List Frame → Prop
  | plain {op : Operation} {k : List Frame} (hop : w.PlainOperation op)
      (hk : ∀ f ∈ k, w.PlainFrame f) : CallStage w t op k
  | seeks {op : Operation} {f : Frame} {k : List Frame} {s : Nat} (hf : f.seeks = some s)
      (hop : w.Seeks t s op) (hk : ∀ f ∈ k, w.PlainFrame f) : CallStage w t op (f :: k)
  | awaitsLoad {s l : Nat} {k : List Frame} (hl : (w.sites s).load = some l)
      (hk : ∀ f ∈ k, w.PlainFrame f) : CallStage w t (.await l) (.releaseAfter s :: k)
  | toldLoad {s : Nat} {o : Outcome} {k : List Frame}
      (ho : w.LoadEnded s o ∨ o = .cancelled)
      (hk : ∀ f ∈ k, w.PlainFrame f) : CallStage w t (.give o) (.releaseAfter s :: k)
  | unloads {s : Nat} {op : Operation} {h v : Value} {k : List Frame}
      (hop : op.purpose? = some (.unload s)) (hl : w.LoadEnded s (.value v))
      (hk : ∀ f ∈ k, w.PlainFrame f) : CallStage w t op (.releaseModule s h :: k)
  | unloaded {s : Nat} {o : Outcome} {h v : Value} {k : List Frame}
      (hl : w.LoadEnded s (.value v)) (hk : ∀ f ∈ k, w.PlainFrame f) :
      CallStage w t (.give o) (.releaseModule s h :: k)

section Grows

variable {w w' : World} (hw : Coherent w) (h : Grows w w')

include hw h in
theorem AllImport.grows {ls : List Nat} (hl : w.AllImport ls) : w'.AllImport ls := by
  intro l hm
  obtain ⟨r, path, hj⟩ := hl l hm
  exact ⟨r, path, by rw [h.job l (hw.lt_of_job (by simp [hj])), hj]⟩

include hw h in
theorem PlainFrame.grows {f : Frame} (hf : w.PlainFrame f) : w'.PlainFrame f := by
  cases f with
  | closeNext r ls => exact AllImport.grows hw h hf
  | _ => exact hf

include hw h in
theorem useCall_grows {s : Nat} {m : Value} (hl : w.LoadEnded s (.value m)) (id : String)
    (args : List Value) : (w'.sites s).useCall m id args = (w.sites s).useCall m id args := by
  obtain ⟨l, hl, -⟩ := hl
  obtain ⟨c, hc⟩ := Option.isSome_iff_exists.1 (hw.configured s l hl)
  simp only [Site.useCall, Site.qualify, hc, (h.site s).setup c hc]

include hw h in
theorem PlainOperation.grows {op : Operation} (hop : w.PlainOperation op) :
    w'.PlainOperation op := by
  have call : ∀ c p, w.PlainCall c p → w'.PlainCall c p := fun c p hc => by
    cases p with
    | use s =>
      obtain ⟨m, id, args, rfl, hl⟩ := hc
      exact ⟨m, id, args, (useCall_grows hw h hl id args).symm, hl.grows h⟩
    | release s =>
      obtain ⟨o, ho⟩ := hc
      exact ⟨o, ho.grows h⟩
    | _ => exact hc
  cases op with
  | closeLoads r ls => exact AllImport.grows hw h hop
  | await l => exact Nat.lt_of_lt_of_le hop h.count
  | call p c => exact call c p hop
  | follow p c b => exact call c p hop
  | _ => exact hop

include h in
theorem Answers.grows {t s : Nat} {o : Outcome} (ho : w.Answers t s o) : w'.Answers t s o := by
  cases ho with
  | disposed => exact .disposed
  | noParameters => exact .noParameters
  | ended ho => exact .ended (ho.grows h)
  | stopped ht => exact .stopped (h.stopping t ht)

include h in
theorem Seeks.grows {t s : Nat} {op : Operation} (hop : w.Seeks t s op) : w'.Seeks t s op := by
  cases hop with
  | get => exact .get
  | await hl => exact .await ((h.site s).load _ hl)
  | give ho => exact .give (ho.grows h)

include hw h in
theorem CallStage.grows {t : Nat} {op : Operation} {k : List Frame} (hs : w.CallStage t op k) :
    w'.CallStage t op k := by
  have frames : ∀ {k : List Frame}, (∀ f ∈ k, w.PlainFrame f) → ∀ f ∈ k, w'.PlainFrame f :=
    fun hk f hf => (hk f hf).grows hw h
  cases hs with
  | plain hop hk => exact .plain (hop.grows hw h) (frames hk)
  | seeks hf hop hk => exact .seeks hf (hop.grows h) (frames hk)
  | awaitsLoad hl hk => exact .awaitsLoad ((h.site _).load _ hl) (frames hk)
  | toldLoad ho hk => exact .toldLoad (ho.imp (·.grows h) id) (frames hk)
  | unloads hop hl hk => exact .unloads hop (hl.grows h) (frames hk)
  | unloaded hl hk => exact .unloaded (hl.grows h) (frames hk)

end Grows

/-- A task of a host that is woken stays in one of its situations. -/
theorem CallStage.woken {w : World} {t : Nat} {op op' : Operation} {k : List Frame}
    (hs : w.CallStage t op k) (hwoken : w.Woken t op op') : w.CallStage t op' k := by
  cases hs with
  | plain hop hk =>
    refine .plain ?_ hk
    cases hwoken with
    | same => exact hop
    | told => trivial
    | passed => exact hop
    | stopped =>
      cases op with
      | follow => exact hop
      | _ => trivial
  | seeks hf hop hk =>
    refine .seeks hf ?_ hk
    cases hwoken with
    | same => exact hop
    | told ho =>
      cases hop with
      | await hl => exact .give (.ended ⟨_, hl, ho⟩)
    | passed => cases hop
    | stopped ht => cases hop <;> exact .give (.stopped ht)
  | awaitsLoad hl hk =>
    cases hwoken with
    | same => exact .awaitsLoad hl hk
    | told ho => exact .toldLoad (.inl ⟨_, hl, ho⟩) hk
    | stopped => exact .toldLoad (.inr rfl) hk
  | toldLoad ho hk =>
    cases hwoken with
    | same => exact .toldLoad ho hk
    | stopped => exact .toldLoad (.inr rfl) hk
  | unloads hop hl hk =>
    cases hwoken with
    | same => exact .unloads hop hl hk
    | told => cases hop
    | passed => exact .unloads hop hl hk
    | stopped =>
      cases op with
      | follow => exact .unloads hop hl hk
      | _ => exact .unloaded hl hk
  | unloaded hl hk =>
    cases hwoken with
    | same | stopped => exact .unloaded hl hk

end World

end ScriptBundle
