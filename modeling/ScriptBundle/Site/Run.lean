import ScriptBundle.Site.Machine
/-!
# Running script sites

What a host does with sites takes effect at once or starts a task. In between, the machine runs
until nothing more can move: `settle` takes as many steps as that may need.
-/

namespace ScriptBundle

/-! ## How many steps there can be -/

/-- The sum of numbers. -/
def total (ns : List Nat) : Nat := ns.foldr (· + ·) 0

/-- The number of calls that a call makes besides those of its kind. -/
def SiteCall.breadth : SiteCall → Nat
  | .within _ ids => ids.length
  | _ => 0

/-- The number of calls that an operation makes besides those of its kind. -/
def Operation.breadth : Operation → Nat
  | .within _ ids => ids.length
  | .callAll _ ids _ => ids.length
  | .closeLoads _ loads => loads.length
  | .inTurn calls => total (calls.map fun c => c.breadth + 1)
  | _ => 0

/-- The number of calls that a frame makes besides those of its kind. -/
def Frame.breadth : Frame → Nat
  | .nextCall _ ids _ => ids.length
  | .closeNext _ loads => loads.length
  | .afterCall _ calls => total (calls.map fun c => c.breadth + 1)
  | _ => 0

/-- The number of calls that a task that is not at work makes besides those of its kind. -/
def Task.breadth (x : Task) : Nat :=
  total (x.frames.map Frame.breadth) +
    match x.status with
    | .ready wake => (wake.operation x.job).breadth
    | _ => 0

namespace World

/-- The calls that all tasks have yet to make, besides those of their kinds. -/
def breadth (w : World) : Nat :=
  total ((List.range w.taskCount).map fun t => (w.tasks t).breadth)

/-- A number of steps after which the machine has come to rest: every task takes a few turns, starts
at most one load and one import, and in each turn makes a few steps for every call. -/
def patience (w : World) : Nat :=
  (w.taskCount + w.queue.length + 1) * (256 + 64 * (w.breadth + 3 * w.taskCount))

/-- The world after at most `n` steps, fewer if nothing more can move. -/
def run : Nat → World → World
  | 0, w => w
  | n + 1, w => if w.isQuiet then w else run n w.step

/-- The world once nothing more can move. -/
def settle (w : World) : World := w.run w.patience

/-! ## What a host does -/

/-- A new site of a host. -/
def create (w : World) (s host : Nat) : World :=
  { w with sites := put w.sites s { host := host } }

/-- A handle is attached to a site. -/
def attach (w : World) (s : Nat) (h : RenderHandle) : Except SiteError Unit × World :=
  match (w.sites s).attach h with
  | .error e => (.error e, w)
  | .ok x => (.ok (), w.updateSite s fun _ => x)

/-- A site asks for a render. -/
def requestRender (w : World) (s : Nat) : Except SiteError Unit × World :=
  match (w.sites s).handle with
  | none => (.ok (), w)
  | some h =>
    match h.renderer with
    | .absent => (.ok (), w)
    | .renders => (.ok (), w.record (.render s))
    | .fails => (.error .renderFailed, w.record (.render s))

/-- Parameters are assigned to a site, which then asks for a render. -/
def setParameters (w : World) (s : Nat) (pairs : List (String × Value)) :
    Except SiteError Unit × World :=
  let (r, x) := (w.sites s).assignParameters (w.hosts (w.sites s).host) pairs
  let w := w.updateSite s fun _ => x
  match r with
  | .error e => (.error e, w)
  | .ok _ => w.requestRender s

/-- A task is started. Its number is the number of tasks before. -/
def start (w : World) (op : Operation) : World := w.spawn (.host op)

/-- A task that waits at a gate goes on, as the engine now behaves. -/
def passGate (w : World) (g : String) (b : Behaviour) (t : Nat) : World :=
  match (w.tasks t).status with
  | .atGate g' p c => if g' = g then w.wake t (.resumed p c b) else w
  | _ => w

/-- A gate is opened: those who wait at it go on, in the order in which they came, as the engine now
behaves. -/
def openGate (w : World) (g : String) (b : Behaviour) : World :=
  (w.gates g).foldl (fun w t => w.passGate g b t) { w with gates := put w.gates g [] }

/-- Whether a task can still be cancelled. -/
def isRunning (w : World) (t : Nat) : Bool := (w.outcome? t).isNone

end World

end ScriptBundle
