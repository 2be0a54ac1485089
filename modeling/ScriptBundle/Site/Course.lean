import ScriptBundle.Site.Run
/-!
# Courses of events

Hosts and the script engine are free in what they do and when. A course is any sequence of moves:
the machine takes a step, a host attaches a handle or assigns parameters, a task with calls of its
own is started or asked to stop, the engine answers a call that waits or changes how it behaves.
-/

namespace ScriptBundle

/-- What can happen next. -/
inductive Move where
  /-- The machine takes a step. -/
  | step
  /-- A handle is attached to a site. -/
  | attach (site : Nat) (handle : RenderHandle)
  /-- Parameters are assigned to a site. -/
  | assign (site : Nat) (pairs : List (String × Value))
  /-- A task starts that makes calls one after the other. -/
  | start (calls : List SiteCall)
  /-- The engine goes on with the calls that wait at a gate. -/
  | openGate (gate : String) (behaviour : Behaviour)
  /-- The engine behaves differently from now on. -/
  | behave (engine : EngineCall → Behaviour)
  /-- A task of a host is asked to stop. -/
  | cancel (task : Nat)

namespace World

/-- The world in which a task of a host is asked to stop. The tasks that load sites and import
modules are held by no host. -/
def cancelHosted (w : World) (t : Nat) : World :=
  match (w.tasks t).job with
  | .host _ => w.cancel t
  | .loads _ | .imports _ _ => w

/-- The world after a move. -/
def make (w : World) : Move → World
  | .step => w.step
  | .attach s h => (w.attach s h).2
  | .assign s pairs => (w.setParameters s pairs).2
  | .start calls => w.start (.inTurn calls)
  | .openGate g b => w.openGate g b
  | .behave engine => { w with engine := engine }
  | .cancel t => w.cancelHosted t

/-- The world after a course of moves. -/
def course (w : World) (ms : List Move) : World := ms.foldl make w

/-- A world of new sites, in which nothing has happened yet. -/
def initial (hosts : Nat → SiteHost) (hostOf : Nat → Nat) (engine : EngineCall → Behaviour) :
    World where
  hosts := hosts
  sites := fun s => { host := hostOf s }
  tasks := fun _ => {}
  engine := engine

end World

end ScriptBundle
