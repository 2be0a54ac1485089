import ScriptBundle.Failure
import ScriptBundle.Naming
import ScriptBundle.Validation.Lax
/-!
# Parameters of script sites

A host assigns parameters to a script site by name. A name that no site has is refused, the first
one in the given order; otherwise each value must have exactly the type of its parameter, and all
that do not are reported. A parameter that is not given has its default.
-/

namespace ScriptBundle

open Validation

/-- The parameters of a script site. -/
structure SiteParameters where
  /-- What stands inside the site's markup. -/
  childContent : Value := .null
  /-- Whether all components share the bundle. -/
  globalBundle : Bool := false
  /-- The name of the bundle. -/
  bundleName : Option String := some defaultBundleName
  /-- The function called once the module is loaded. -/
  onInit : Option String := none
  /-- The function called before the module is released. -/
  onUnload : Option String := none
  /-- A script file to load instead of a bundle. -/
  scriptFile : Option String := none
  /-- Whether a class may be written around the scripts. -/
  asClass : Bool := true
  /-- The name of that class. -/
  className : Option String := none
  /-- Whether the class is also published under its name. -/
  addToGlobal : Bool := false
  /-- Whether an instance is exported in place of the class. -/
  addAsInstance : Bool := false
  /-- What the host passes to the function called after loading. -/
  hostRef : Value := .null

/-- The names that parameters are assigned by, in the order in which they are checked. -/
def SiteParameters.names : List String :=
  ["ChildContent", "GlobalBundle", "BundleName", "OnInit", "OnUnload", "ScriptFile", "AsClass",
    "ClassName", "AddToGlobal", "AddAsInstance", "HostRef"]

/-- Why parameters are refused. -/
inductive BindingError where
  /-- No site has a parameter of this name. -/
  | unknownParameter (name : String)
  /-- Values have the wrong types. -/
  | wrongTypes (issues : List Issue)
  deriving DecidableEq, Repr

/-- The failure that reports refused parameters. -/
def BindingError.failure : BindingError → Failure
  | .unknownParameter name => Failure.unknownParameter name
  | .wrongTypes _ => ⟨.parameterValue, "Invalid script parameters", none⟩

/-- The parameters that named values describe. -/
def decodeParameters (ps : List (String × Value)) : Checked SiteParameters :=
  let any : Value → Checked Value := .ok
  Checked.both
    (Checked.both
      (Checked.both
        (Checked.both
          (Checked.both
            (Checked.both
              (Checked.both
                (Checked.both
                  (Checked.both
                    (Checked.both
                      (Checked.both (.ok SiteParameters.mk)
                        (withDefault "ChildContent" .null any ps))
                      (withDefault "GlobalBundle" false strictBool ps))
                    (withDefault "BundleName" (some defaultBundleName) optionalString ps))
                  (withDefault "OnInit" none optionalString ps))
                (withDefault "OnUnload" none optionalString ps))
              (withDefault "ScriptFile" none optionalString ps))
            (withDefault "AsClass" true strictBool ps))
          (withDefault "ClassName" none optionalString ps))
        (withDefault "AddToGlobal" false strictBool ps))
      (withDefault "AddAsInstance" false strictBool ps))
    (withDefault "HostRef" .null any ps)

/-- The parameters that a host assigns. If a name is given several times, the last value counts. -/
def bindParameters (pairs : List (String × Value)) : Except BindingError SiteParameters :=
  match pairs.find? fun p => !SiteParameters.names.contains p.1 with
  | some p => .error (.unknownParameter p.1)
  | none =>
    match decodeParameters (lastValues pairs) with
    | .ok ps => .ok ps
    | .error issues => .error (.wrongTypes issues)

end ScriptBundle
