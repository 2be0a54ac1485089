import ScriptBundle.Owner.Lookup
import ScriptBundle.Site.Engine
import ScriptBundle.Site.Location
/-!
# The life of a script site

A host attaches a render handle to a site and then assigns its parameters, each once. Assigning
parameters settles where the site loads from, all at once or not at all, and asks for a render. The
module is loaded later, and a disposed site stays disposed.
-/

namespace ScriptBundle

/-- The states of a site, in the order in which it goes through them. -/
inductive SiteState where
  | uninitialized
  | attached
  | resolving
  | ready
  | disposed
  deriving DecidableEq, Repr

/-- The word for a state. -/
def SiteState.word : SiteState → String
  | .uninitialized => "uninitialized"
  | .attached => "attached"
  | .resolving => "resolving"
  | .ready => "ready"
  | .disposed => "disposed"

/-- The place of a state in the order of states. -/
def SiteState.rank : SiteState → Nat
  | .uninitialized => 0
  | .attached => 1
  | .resolving => 2
  | .ready => 3
  | .disposed => 4

/-- What happens when a site asks its host for a render. -/
inductive Renderer where
  /-- Nothing: the host gave no way to ask. -/
  | absent
  /-- The site is rendered. -/
  | renders
  /-- The attempt fails. -/
  | fails
  deriving DecidableEq, Repr

/-- What a host attaches to a site. -/
structure RenderHandle where
  /-- What the site is nested in. -/
  owner : OwnerContext
  /-- How the site asks for a render. -/
  renderer : Renderer
  deriving DecidableEq, Repr

/-- What the sites of one host share. -/
structure SiteHost where
  /-- Its settings. -/
  settings : SiteSettings
  /-- How it tells owners. -/
  owners : OwnerLookup
  /-- The number of the registry of shared modules. -/
  registry : Nat

/-- What assigning parameters to a site settles, all at once. -/
structure SiteSetup where
  /-- Its parameters. -/
  parameters : SiteParameters
  /-- Its owner, if it needs one. -/
  owner : Option OwnerInfo
  /-- The path it loads from. -/
  file : String
  /-- The class that its identifiers belong to. -/
  className : Option String

/-- A script site. Tasks are given by their numbers. -/
structure Site where
  /-- The number of its host. -/
  host : Nat
  /-- The attached handle. -/
  handle : Option RenderHandle := none
  /-- Whether parameters have been assigned, with success or without. -/
  initialized : Bool := false
  /-- Whether it has not been told of a render yet. -/
  awaitsRender : Bool := true
  /-- The task that loads its module. -/
  load : Option Nat := none
  /-- The module it imported for itself and has not released. -/
  imported : Option Value := none
  /-- Its state. -/
  state : SiteState := .uninitialized
  /-- Its parameters and what follows from them, once they have been assigned. -/
  setup : Option SiteSetup := none

/-- Why a host may not do something with a site. -/
inductive SiteError where
  /-- A handle is attached already. -/
  | attachedTwice
  /-- A handle is attached to a disposed site. -/
  | attachedDisposed
  /-- Parameters were assigned before. -/
  | initializedTwice
  /-- Parameters are assigned before a handle is attached. -/
  | noHandle
  /-- The parameters are refused. -/
  | binding (e : BindingError)
  /-- The owner is needed and cannot be told. -/
  | owner (e : OwnerError)
  /-- The path to load from cannot be told. -/
  | noPath
  /-- The render that was asked for fails. -/
  | renderFailed
  deriving DecidableEq, Repr

/-- The failure that reports an error, if it is one of this library. -/
def SiteError.failure? : SiteError → Option Failure
  | .attachedTwice =>
    some ⟨.doubleAttach,
      "The render handle is already set. Cannot initialize a script site more than once.", none⟩
  | .attachedDisposed => some ⟨.siteState, "Cannot attach a disposed script site.", none⟩
  | .initializedTwice =>
    some ⟨.reinitialization,
      "The script site has already been initialized - " ++
        "cannot change parameters after first init.", none⟩
  | .noHandle =>
    some ⟨.siteState, "Attach a render handle before assigning parameters.", none⟩
  | .binding e => some e.failure
  | .owner e => some e.failure
  | .noPath | .renderFailed => none

namespace SiteSetup

/-- Whether the module of the site is shared. -/
def isShared (c : SiteSetup) : Bool := c.parameters.globalBundle

/-- An identifier as a member of the class of the site. -/
def qualify (c : SiteSetup) (identifier : String) : String :=
  ScriptBundle.qualify c.className identifier

/-- The call to a function of a module of the site. -/
def useCall (c : SiteSetup) (module : Value) (identifier : String) (args : List Value) :
    EngineCall :=
  .invoke module (c.qualify identifier) args

/-- The call made once a module is loaded, if there is one. -/
def initCall? (c : SiteSetup) (module : Value) : Option EngineCall :=
  c.parameters.onInit.map fun f => c.useCall module f [c.parameters.hostRef]

/-- The call made before a module is released, if there is one. -/
def unloadCall? (c : SiteSetup) (module : Value) : Option EngineCall :=
  c.parameters.onUnload.map fun f => c.useCall module f []

end SiteSetup

namespace Site

/-- The parameters of a site. -/
def parameters (s : Site) : Option SiteParameters := s.setup.map (·.parameters)

/-- The owner of a site. -/
def owner (s : Site) : Option OwnerInfo := s.setup.bind (·.owner)

/-- The path that a site loads from. -/
def file (s : Site) : Option String := s.setup.map (·.file)

/-- An identifier as a member of the class of a site. -/
def qualify (s : Site) (identifier : String) : String :=
  ScriptBundle.qualify (s.setup.bind (·.className)) identifier

/-- The call to a function of a module of a site. -/
def useCall (s : Site) (module : Value) (identifier : String) (args : List Value) : EngineCall :=
  .invoke module (s.qualify identifier) args

/-- The call that a site makes once a module is loaded, if there is one. -/
def initCall? (s : Site) (module : Value) : Option EngineCall :=
  s.setup.bind (·.initCall? module)

/-- The call that a site makes before a module is released, if there is one. -/
def unloadCall? (s : Site) (module : Value) : Option EngineCall :=
  s.setup.bind (·.unloadCall? module)

/-- The site with a handle attached. -/
def attach (s : Site) (h : RenderHandle) : Except SiteError Site :=
  if s.handle.isSome then .error .attachedTwice
  else if s.state = .disposed then .error .attachedDisposed
  else .ok { s with handle := some h, state := .attached }

/-- The owner of a site with the given parameters, if they need one. -/
def findOwner (host : SiteHost) (h : RenderHandle) (p : SiteParameters) :
    Except OwnerError (Option OwnerInfo) :=
  if p.needsOwner then ((host.owners.lookup h.owner).1).map fun a => some a.owner
  else .ok none

/-- What assigning parameters to a site with the given handle settles. -/
def findSetup (host : SiteHost) (h : RenderHandle) (pairs : List (String × Value)) :
    Except SiteError SiteSetup :=
  match bindParameters pairs with
  | .error e => .error (.binding e)
  | .ok p =>
    match findOwner host h p with
    | .error e => .error (.owner e)
    | .ok owner =>
      match host.settings.locate? p owner with
      | none => .error .noPath
      | some file => .ok ⟨p, owner, file, host.settings.className p owner⟩

/-- What assigning parameters to a site leads to, before a render is asked for. From the first
attempt with a handle on, no other is allowed. -/
def assignParameters (s : Site) (host : SiteHost) (pairs : List (String × Value)) :
    Except SiteError SiteSetup × Site :=
  if s.initialized then (.error .initializedTwice, s)
  else
    match s.handle with
    | none => (.error .noHandle, s)
    | some h =>
      let s := { s with initialized := true }
      match findSetup host h pairs with
      | .error e => (.error e, s)
      | .ok c => (.ok c, { s with setup := some c, state := .resolving })

end Site

end ScriptBundle
