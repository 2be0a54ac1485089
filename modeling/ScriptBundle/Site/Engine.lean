import ScriptBundle.Failure
import ScriptBundle.Value.Text
/-!
# The script engine

Modules are imported, called and released through a script engine. A call to the engine is answered
at once, or waits at a gate until the gate is opened. Each call is made for a purpose, which the
record of events keeps.
-/

namespace ScriptBundle

/-- A call to the script engine. -/
inductive EngineCall where
  /-- Imports the module at a path. -/
  | importModule (path : String)
  /-- Calls a function of a module. -/
  | invoke (module : Value) (identifier : String) (args : List Value)
  /-- Releases a module. -/
  | dispose (module : Value)

/-- What the engine answers to a call. -/
inductive Reply where
  /-- Success, with nothing in particular to return. -/
  | done
  /-- Success with a value. -/
  | returned (v : Value)
  /-- Failure with a message. -/
  | failed (message : String)
  /-- Failure to load a script. -/
  | loadFailed (path : String) (reason : Option String)
  /-- The call is cancelled. -/
  | cancelled

/-- What the engine does with a call. -/
inductive Behaviour where
  /-- It answers at once. -/
  | reply (r : Reply)
  /-- The call waits at a gate. -/
  | gate (name : String)

/-- What a call is made for. -/
inductive Purpose where
  /-- To import the module of one site. -/
  | ownImport (site : Nat)
  /-- To import a module for a registry. -/
  | sharedImport (registry : Nat)
  /-- To call the function for after loading. -/
  | init (site : Nat)
  /-- To call a function for a caller of a site. -/
  | use (site : Nat)
  /-- To call the function for before releasing. -/
  | unload (site : Nat)
  /-- To release the module of one site. -/
  | release (site : Nat)
  /-- To release a module of a registry. -/
  | close (registry : Nat)
  deriving DecidableEq, Repr

/-- Why a task fails. -/
inductive TaskError where
  /-- The site is disposed. -/
  | disposed
  /-- The site has no parameters yet. -/
  | noParameters
  /-- The engine fails with a message. -/
  | engine (message : String)
  /-- A script cannot be loaded. `fromEngine` tells whether the engine failed with a message. -/
  | moduleLoad (path : String) (reason : Option String) (fromEngine : Bool)
  deriving DecidableEq, Repr

/-- The failure that reports an error, if it is not one of the engine. -/
def TaskError.failure? : TaskError → Option Failure
  | .disposed => some ⟨.siteState, "The script site has been disposed.", none⟩
  | .noParameters => some ⟨.siteState, "The script site has no parameters yet.", none⟩
  | .engine _ => none
  | .moduleLoad path reason _ => some (Failure.moduleLoad path reason)

/-- How an activity ends. -/
inductive Outcome where
  /-- With a value. -/
  | value (v : Value)
  /-- With an error. -/
  | error (e : TaskError)
  /-- By being cancelled. -/
  | cancelled

/-- Whether an activity ends without a value. -/
def Outcome.isFailure : Outcome → Bool
  | .value _ => false
  | .error _ | .cancelled => true

/-- Something that happens between sites and the world outside. -/
inductive Event where
  /-- A site asks for a render. -/
  | render (site : Nat)
  /-- The engine is called. -/
  | called (purpose : Purpose) (call : EngineCall)
  /-- A call to the engine ends. -/
  | ended (purpose : Purpose) (call : EngineCall) (outcome : Outcome)

/-- The name of the `n`th module that has no name of its own. -/
def moduleName (n : Nat) : String := "m" ++ Decimal.intText n

/-- The outcome of a call that is answered, where `n` modules have been named before. -/
def EngineCall.outcome (c : EngineCall) (n : Nat) : Reply → Outcome
  | .done =>
    match c with
    | .importModule _ => .value (.string (moduleName (n + 1)))
    | .invoke _ _ _ | .dispose _ => .value .null
  | .returned v => .value v
  | .failed message => .error (.engine message)
  | .loadFailed path reason => .error (.moduleLoad path reason false)
  | .cancelled => .cancelled

/-- Whether a call with this answer names a module. -/
def EngineCall.namesModule : EngineCall → Reply → Bool
  | .importModule _, .done => true
  | _, _ => false

/-- The outcome of importing the module at a path, from the outcome of the call: no module is a
failure, and so is any other failure. -/
def importOutcome (path : String) : Outcome → Outcome
  | .value .null => .error (.moduleLoad path none false)
  | .value v => .value v
  | .error (.moduleLoad p r f) => .error (.moduleLoad p r f)
  | .error (.engine message) => .error (.moduleLoad path (some message) true)
  | .error e => .error e
  | .cancelled => .cancelled

end ScriptBundle
