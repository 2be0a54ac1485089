import ScriptBundle.Site.Lifecycle
/-!
# Script sites at work

Calls on script sites run as tasks that take turns: one queue holds what is ready, in the order in
which it became so, and a task runs until it has to wait. The machine below is that schedule. Its
control is a task at work on an operation with a stack of frames, which say what to do with the
outcome; `step` is one step of it, and between tasks takes what is first in the queue. Where a task
that is not at work stands is part of the task, and the queue holds its number only.

* The module of a site is loaded by a task of its own, which the first caller starts. Everyone else
  waits for the same task.
* A shared module is imported by a task that a registry remembers by its path. A failed import is
  forgotten as soon as its task has ended.
* Whoever waits for a task is put into the queue in two moves, first to be told the outcome and then
  to go on, so all who wait for it are told before the first of them has gone on and finished.
-/

namespace ScriptBundle

/-- A function with the value at one argument replaced. -/
def put {α β : Type} [DecidableEq α] (f : α → β) (a : α) (b : β) : α → β :=
  fun x => if x = a then b else f x

/-- A call that a task of a host makes on a site or on a registry. -/
inductive SiteCall where
  /-- Tells a site that it was rendered. -/
  | afterRender (site : Nat)
  /-- Gets the module of a site. -/
  | getModule (site : Nat)
  /-- Calls a function of the module of a site. -/
  | invoke (site : Nat) (identifier : String) (args : List Value)
  /-- The same, without the result. -/
  | invokeVoid (site : Nat) (identifier : String) (args : List Value)
  /-- Disposes a site. -/
  | dispose (site : Nat)
  /-- Calls functions of the module of a site one after the other, and disposes it. -/
  | within (site : Nat) (identifiers : List String)
  /-- Releases the modules of a registry. -/
  | closeRegistry (registry : Nat)

/-- What a task is to do. -/
inductive Operation where
  /-- Tells a site that it was rendered. -/
  | afterRender (site : Nat)
  /-- Gets the module of a site. -/
  | getModule (site : Nat)
  /-- Calls a function of the module of a site. -/
  | invoke (site : Nat) (identifier : String) (args : List Value)
  /-- The same, without the result. -/
  | invokeVoid (site : Nat) (identifier : String) (args : List Value)
  /-- Disposes a site. -/
  | dispose (site : Nat)
  /-- Calls functions of the module of a site one after the other, and disposes it. -/
  | within (site : Nat) (identifiers : List String)
  /-- The same after some of the calls, before the site is disposed. -/
  | callAll (site : Nat) (identifiers : List String) (results : List Value)
  /-- Releases the modules of a registry. -/
  | closeRegistry (registry : Nat)
  /-- Releases what the given tasks have loaded. -/
  | closeLoads (registry : Nat) (loads : List Nat)
  /-- Makes calls one after the other, whatever each of them leads to. -/
  | inTurn (calls : List SiteCall)
  /-- Loads the module of a site. -/
  | load (site : Nat)
  /-- Imports the module at a path. -/
  | fetch (purpose : Purpose) (path : String)
  /-- Waits for a task. -/
  | await (task : Nat)
  /-- Calls the engine. -/
  | call (purpose : Purpose) (call : EngineCall)
  /-- Goes on with a call as the engine behaves. -/
  | follow (purpose : Purpose) (call : EngineCall) (behaviour : Behaviour)
  /-- Gives an outcome to the frames. -/
  | give (outcome : Outcome)

/-- The operation that a call is. -/
def SiteCall.operation : SiteCall → Operation
  | .afterRender s => .afterRender s
  | .getModule s => .getModule s
  | .invoke s id args => .invoke s id args
  | .invokeVoid s id args => .invokeVoid s id args
  | .dispose s => .dispose s
  | .within s ids => .within s ids
  | .closeRegistry r => .closeRegistry r

/-- What to do with the outcome of an operation. -/
inductive Frame where
  /-- Forget the value. -/
  | discard
  /-- Forget the module of a site, which was got after a render. -/
  | rendered (site : Nat)
  /-- Call a function of the module given. -/
  | invokeOn (site : Nat) (identifier : String) (args : List Value)
  /-- Go on with further calls. -/
  | nextCall (site : Nat) (identifiers : List String) (results : List Value)
  /-- Dispose the site and give the outcome. -/
  | disposeAfter (site : Nat)
  /-- Give this outcome, unless there is a failure. -/
  | restore (outcome : Outcome)
  /-- Check the outcome of an import. -/
  | imported (path : String)
  /-- Keep the module given for the site alone. -/
  | keep (site : Nat)
  /-- Call the function for after loading. -/
  | callInit (site : Nat)
  /-- Make the site ready and give its module. -/
  | finishLoad (site : Nat) (module : Value)
  /-- Release what the site has loaded. -/
  | releaseAfter (site : Nat)
  /-- Release the module whatever the outcome. -/
  | releaseModule (site : Nat) (module : Value)
  /-- Release what the other tasks have loaded. -/
  | closeNext (registry : Nat) (loads : List Nat)
  /-- Go on after a call of a host's task with the calls that follow it. -/
  | afterCall (call : SiteCall) (calls : List SiteCall)

/-- What a task is for. -/
inductive Job where
  /-- It does something for a host. -/
  | host (op : Operation)
  /-- It loads the module of a site. -/
  | loads (site : Nat)
  /-- It imports a shared module, and a registry remembers it by the path. -/
  | imports (registry : Nat) (path : String)

/-- The operation that a task starts with. -/
def Job.operation : Job → Operation
  | .host op => op
  | .loads s => .load s
  | .imports r path => .fetch (.sharedImport r) path

/-- What puts a task to work again. -/
inductive Wake where
  /-- It starts. -/
  | start
  /-- Its call to the engine goes on. -/
  | resumed (purpose : Purpose) (call : EngineCall) (behaviour : Behaviour)
  /-- What it waited for has ended. -/
  | told (outcome : Outcome)

/-- The operation that a wake leads to in a task with the given job. -/
def Wake.operation (job : Job) : Wake → Operation
  | .start => job.operation
  | .resumed p c b => .follow p c b
  | .told o => .give o

/-- What puts a task to work if it is asked to stop before that. -/
def Wake.interrupted : Wake → Wake
  | .start | .told _ => .told .cancelled
  | .resumed p c _ => .resumed p c (.reply .cancelled)

/-- Where a task stands. -/
inductive TaskStatus where
  /-- At work. -/
  | active
  /-- In the queue. -/
  | ready (wake : Wake)
  /-- Its call to the engine waits at a gate. -/
  | atGate (gate : String) (purpose : Purpose) (call : EngineCall)
  /-- It waits for a task. -/
  | awaiting (task : Nat)
  /-- It has ended. -/
  | finished (outcome : Outcome)

/-- A task. -/
structure Task where
  /-- What is to be done with the outcome of what it waits for. -/
  frames : List Frame := []
  /-- Where it stands. -/
  status : TaskStatus := .active
  /-- Whether it was asked to stop. -/
  stopping : Bool := false
  /-- The tasks that wait for it, in the order in which they came. -/
  waiters : List Nat := []
  /-- What it is for. -/
  job : Job := .host (.inTurn [])

/-- An item of the queue. -/
inductive Ready where
  /-- Puts a task to work. -/
  | work (task : Nat)
  /-- Tells a task that what it waits for has ended. -/
  | tell (ended task : Nat)
  /-- Makes a registry forget a task that failed. -/
  | forget (registry : Nat) (path : String) (ended : Nat)

/-- What is being done. -/
inductive Control where
  /-- Nothing. -/
  | idle
  /-- A task works on an operation. -/
  | working (task : Nat) (op : Operation) (frames : List Frame)

/-- Hosts, sites and tasks, each by number, with all that they share. -/
structure World where
  /-- The hosts. -/
  hosts : Nat → SiteHost
  /-- The sites. -/
  sites : Nat → Site
  /-- The tasks. -/
  tasks : Nat → Task
  /-- The number of tasks. -/
  taskCount : Nat := 0
  /-- The registries: the tasks that import shared modules, by their paths. -/
  registries : Nat → List (String × Nat) := fun _ => []
  /-- How the engine behaves. -/
  engine : EngineCall → Behaviour
  /-- The tasks that wait at each gate, in the order in which they came. -/
  gates : String → List Nat := fun _ => []
  /-- The queue. -/
  queue : List Ready := []
  /-- The number of modules named so far. -/
  named : Nat := 0
  /-- What has happened, in order. -/
  events : List Event := []
  /-- What is being done. -/
  control : Control := .idle

namespace World

/-! ## Changing parts of the world -/

/-- The world with a site changed. -/
def updateSite (w : World) (s : Nat) (f : Site → Site) : World :=
  { w with sites := put w.sites s (f (w.sites s)) }

/-- The world with a task changed. -/
def updateTask (w : World) (t : Nat) (f : Task → Task) : World :=
  { w with tasks := put w.tasks t (f (w.tasks t)) }

/-- The world with an item at the end of the queue. -/
def enqueue (w : World) (r : Ready) : World := { w with queue := w.queue ++ [r] }

/-- The world after an event. -/
def record (w : World) (e : Event) : World := { w with events := w.events ++ [e] }

/-- The world in which the task at work goes on with an operation. -/
def goOn (w : World) (t : Nat) (op : Operation) (k : List Frame) : World :=
  { w with control := .working t op k }

/-- The world with one more task, which has yet to start. -/
def spawn (w : World) (job : Job) : World :=
  { w with
    tasks := put w.tasks w.taskCount { status := .ready .start, job := job }
    taskCount := w.taskCount + 1
    queue := w.queue ++ [.work w.taskCount] }

/-- The world in which a task that waits is to go on. -/
def wake (w : World) (t : Nat) (cause : Wake) : World :=
  (w.updateTask t fun x => { x with status := .ready cause }).enqueue (.work t)

/-- The outcome of a task that has ended. -/
def outcome? (w : World) (t : Nat) : Option Outcome :=
  match (w.tasks t).status with
  | .finished o => some o
  | _ => none

/-! ## Cancelling -/

/-- The world in which a task is asked to stop. What it waits for is given up; a task in the queue
stops when it is put to work, and one that has ended is left alone. So is the task at work, which
does not ask itself. -/
def cancel (w : World) (t : Nat) : World :=
  let stop (x : Task) : Task := { x with stopping := true }
  match (w.tasks t).status with
  | .finished _ | .active => w
  | .ready wake => w.updateTask t fun x => { stop x with status := .ready wake.interrupted }
  | .atGate g p c =>
    let w := { w with gates := put w.gates g ((w.gates g).erase t) }
    (w.updateTask t stop).wake t (.resumed p c (.reply .cancelled))
  | .awaiting l =>
    let w := w.updateTask l fun x => { x with waiters := x.waiters.erase t }
    (w.updateTask t stop).wake t (.told .cancelled)

/-! ## Operations -/

/-- The task at work waits for another task, or goes on at once if that has ended. -/
def awaitTask (w : World) (t l : Nat) (k : List Frame) : World :=
  match w.outcome? l with
  | some o => w.goOn t (.give o) k
  | none =>
    let w := w.updateTask l fun x => { x with waiters := x.waiters ++ [t] }
    { w.updateTask t fun x => { x with status := .awaiting l, frames := k } with control := .idle }

/-- The task at work ends. The registry that remembers it is told first, and then those who wait
for it. -/
def finish (w : World) (t : Nat) (o : Outcome) : World :=
  let x := w.tasks t
  let forgets := match x.job with
    | .imports r path => [Ready.forget r path t]
    | .host _ | .loads _ => []
  { w.updateTask t fun x => { x with status := .finished o, waiters := [] } with
    queue := w.queue ++ forgets ++ x.waiters.map (Ready.tell t)
    control := .idle }

/-- The task at work goes on with a call to the engine. -/
def follow (w : World) (t : Nat) (p : Purpose) (c : EngineCall) (k : List Frame) :
    Behaviour → World
  | .gate g =>
    let w := { w with gates := put w.gates g (w.gates g ++ [t]) }
    { w.updateTask t fun x => { x with status := .atGate g p c, frames := k } with
      control := .idle }
  | .reply r =>
    let o := c.outcome w.named r
    let w := { w with named := if c.namesModule r then w.named + 1 else w.named }
    (w.record (.ended p c o)).goOn t (.give o) k

/-- Gets the module of a site, and starts to load it if nobody has. -/
def getModule (w : World) (t s : Nat) (k : List Frame) : World :=
  let x := w.sites s
  if x.state = .disposed then w.goOn t (.give (.error .disposed)) k
  else if x.setup.isNone then w.goOn t (.give (.error .noParameters)) k
  else
    match x.load with
    | some l => w.goOn t (.await l) k
    | none =>
      let l := w.taskCount
      ((w.spawn (.loads s)).updateSite s fun x => { x with load := some l }).goOn t (.await l) k

/-- Loads the module of a site: a shared one through the registry, any other by importing it. -/
def load (w : World) (t s : Nat) (k : List Frame) : World :=
  let x := w.sites s
  match x.setup with
  | none => w.goOn t (.give (.error .noParameters)) k
  | some c =>
    if c.isShared then
      let r := (w.hosts x.host).registry
      match (w.registries r).lookup c.file with
      | some l => w.goOn t (.await l) (.callInit s :: k)
      | none =>
        let l := w.taskCount
        let w := w.spawn (.imports r c.file)
        let w := { w with registries := put w.registries r (w.registries r ++ [(c.file, l)]) }
        w.goOn t (.await l) (.callInit s :: k)
    else w.goOn t (.fetch (.ownImport s) c.file) (.keep s :: .callInit s :: k)

/-- Disposes a site. One that shares its module, or has not begun to load it, has nothing to
release. -/
def dispose (w : World) (t s : Nat) (k : List Frame) : World :=
  let x := w.sites s
  if x.state = .disposed then w.goOn t (.give (.value .null)) k
  else
    let w := w.updateSite s fun x => { x with state := .disposed }
    match x.setup, x.load with
    | some c, some l =>
      if c.isShared then w.goOn t (.give (.value .null)) k
      else w.goOn t (.await l) (.releaseAfter s :: .discard :: k)
    | _, _ => w.goOn t (.give (.value .null)) k

/-- Releases what tasks have loaded: one that is not finished is cancelled, and one that failed
has loaded nothing. -/
def closeLoads (w : World) (t r : Nat) (k : List Frame) : List Nat → World
  | [] => w.goOn t (.give (.value .null)) k
  | l :: ls =>
    match w.outcome? l with
    | none => (w.cancel l).goOn t (.closeLoads r ls) k
    | some (.value h) => w.goOn t (.call (.close r) (.dispose h)) (.closeNext r ls :: k)
    | some _ => w.goOn t (.closeLoads r ls) k

/-- The task at work does an operation. -/
def operate (w : World) (t : Nat) (k : List Frame) : Operation → World
  | .afterRender s =>
    if (w.sites s).awaitsRender then
      (w.updateSite s fun x => { x with awaitsRender := false }).goOn t (.getModule s)
        (.rendered s :: k)
    else w.goOn t (.give (.value .null)) k
  | .getModule s => w.getModule t s k
  | .invoke s id args => w.goOn t (.getModule s) (.invokeOn s id args :: k)
  | .invokeVoid s id args => w.goOn t (.invoke s id args) (.discard :: k)
  | .dispose s => w.dispose t s k
  | .within s ids => w.goOn t (.callAll s ids []) (.disposeAfter s :: k)
  | .callAll _ [] results => w.goOn t (.give (.value (.array results))) k
  | .callAll s (id :: ids) results =>
    w.goOn t (.invoke s id []) (.nextCall s ids results :: k)
  | .closeRegistry r =>
    let loads := (w.registries r).map Prod.snd
    { w with registries := put w.registries r [] }.goOn t (.closeLoads r loads) k
  | .closeLoads r loads => w.closeLoads t r k loads
  | .inTurn [] => w.goOn t (.give (.value .null)) k
  | .inTurn (c :: cs) => w.goOn t c.operation (.afterCall c cs :: k)
  | .load s => w.load t s k
  | .fetch p path => w.goOn t (.call p (.importModule path)) (.imported path :: k)
  | .await l => w.awaitTask t l k
  | .call p c => (w.record (.called p c)).goOn t (.follow p c (w.engine c)) k
  | .follow p c b => w.follow t p c k b
  | .give o => w.goOn t (.give o) k

/-! ## Frames -/

/-- Releases the module that a site imported for itself, after its load has ended. The call made
before that is left out if the load was no success. -/
def release (w : World) (t s : Nat) (loaded : Bool) (k : List Frame) : World :=
  let x := w.sites s
  match x.imported with
  | none => w.goOn t (.give (.value .null)) k
  | some h =>
    let w := w.updateSite s fun x => { x with imported := none }
    match if loaded then x.unloadCall? h else none with
    | some c => w.goOn t (.call (.unload s) c) (.releaseModule s h :: k)
    | none => w.goOn t (.call (.release s) (.dispose h)) k

/-- The task at work hands an outcome to a frame. -/
def resume (w : World) (t : Nat) (k : List Frame) (o : Outcome) : Frame → World
  | .discard | .rendered _ =>
    match o with
    | .value _ => w.goOn t (.give (.value .null)) k
    | o => w.goOn t (.give o) k
  | .invokeOn s id args =>
    match o with
    | .value h => w.goOn t (.call (.use s) ((w.sites s).useCall h id args)) k
    | o => w.goOn t (.give o) k
  | .nextCall s ids results =>
    match o with
    | .value v => w.goOn t (.callAll s ids (results ++ [v])) k
    | o => w.goOn t (.give o) k
  | .disposeAfter s => w.goOn t (.dispose s) (.restore o :: k)
  | .restore kept =>
    match o with
    | .value _ => w.goOn t (.give kept) k
    | o => w.goOn t (.give o) k
  | .imported path => w.goOn t (.give (importOutcome path o)) k
  | .keep s =>
    match o with
    | .value h =>
      (w.updateSite s fun x => { x with imported := some h }).goOn t (.give (.value h)) k
    | o => w.goOn t (.give o) k
  | .callInit s =>
    match o with
    | .value h =>
      match (w.sites s).initCall? h with
      | some c => w.goOn t (.call (.init s) c) (.finishLoad s h :: k)
      | none => w.goOn t (.give (.value .null)) (.finishLoad s h :: k)
    | o => w.goOn t (.give o) k
  | .finishLoad s h =>
    match o with
    | .value _ =>
      let ready : Site → Site := fun x =>
        if x.state = .resolving then { x with state := .ready } else x
      (w.updateSite s ready).goOn t (.give (.value h)) k
    | o => w.goOn t (.give o) k
  | .releaseAfter s =>
    match o with
    | .value _ => w.release t s true k
    | .error (.moduleLoad _ _ _) => w.goOn t (.give (.value .null)) k
    | .error _ => w.release t s false k
    | .cancelled => w.goOn t (.give .cancelled) k
  | .releaseModule s h => w.goOn t (.call (.release s) (.dispose h)) (.restore o :: k)
  | .closeNext r ls =>
    match o with
    | .value _ => w.goOn t (.closeLoads r ls) k
    | o => w.goOn t (.give o) k
  | .afterCall _ cs => w.goOn t (.inTurn cs) k

/-! ## The queue -/

/-- A task in the queue is put to work. -/
def startWork (w : World) (t : Nat) : World :=
  let x := w.tasks t
  match x.status with
  | .ready wake =>
    (w.updateTask t fun x => { x with status := .active }).goOn t (wake.operation x.job) x.frames
  | _ => w

/-- A task is told that the task it waits for has ended, if it still waits for it. -/
def tell (w : World) (l t : Nat) : World :=
  match (w.tasks t).status, w.outcome? l with
  | .awaiting l', some o => if l' = l then w.wake t (.told o) else w
  | _, _ => w

/-- A registry forgets a task that failed, if it still remembers it. -/
def forget (w : World) (r : Nat) (path : String) (l : Nat) : World :=
  match w.outcome? l with
  | some o =>
    if o.isFailure ∧ (w.registries r).lookup path = some l then
      { w with registries := put w.registries r ((w.registries r).filter fun e => e.1 ≠ path) }
    else w
  | none => w

/-- An item of the queue takes effect. -/
def take (w : World) : Ready → World
  | .work t => w.startWork t
  | .tell l t => w.tell l t
  | .forget r path l => w.forget r path l

/-- One step: the task at work does an operation or hands an outcome to a frame, and if no task is
at work the first item of the queue takes effect. -/
def step (w : World) : World :=
  match w.control with
  | .working t (.give o) [] => w.finish t o
  | .working t (.give o) (f :: k) => w.resume t k o f
  | .working t op k => w.operate t k op
  | .idle =>
    match w.queue with
    | [] => w
    | r :: rest => { w with queue := rest }.take r

/-- Whether nothing is being done and nothing is ready. -/
def isQuiet (w : World) : Bool :=
  match w.control with
  | .idle => w.queue.isEmpty
  | .working _ _ _ => false

end World

end ScriptBundle
