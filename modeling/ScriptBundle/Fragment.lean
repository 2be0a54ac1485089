import ScriptBundle.Naming
import ScriptBundle.Validation.Lax
/-!
# Script fragments

A fragment is one script found in a component, with the parameters that decide into which bundle it
goes and whether a class is written around it.
-/

namespace ScriptBundle

/-- One script of a component. -/
structure Fragment where
  /-- The identity of the component. -/
  ownerId : String
  /-- The script. -/
  body : String
  /-- Whether all components share the bundle. -/
  globalBundle : Bool
  /-- The name of the bundle. -/
  bundleName : Option String
  /-- A script file to load instead of a bundle. -/
  scriptFile : Option String
  /-- Whether a class may be written around the script. -/
  asClass : Bool
  /-- The name of that class. -/
  className : Option String
  /-- Whether the class is also published under its name. -/
  addToGlobal : Bool
  /-- Whether an instance is exported in place of the class. -/
  addAsInstance : Bool
  deriving DecidableEq, Repr

/-- The key of the bundle the fragment goes into. -/
def Fragment.bundleKey (f : Fragment) : String :=
  ScriptBundle.bundleKey f.globalBundle f.bundleName f.ownerId

/-- The name of the class around the fragment. -/
def Fragment.effectiveClassName (f : Fragment) : String :=
  ScriptBundle.effectiveClassName f.className f.ownerId

/-- Holds of a fragment whose script is nothing but blanks. -/
def Fragment.isBlank (f : Fragment) : Bool := Text.isBlankText f.body

open Validation

/-- A script, which is never empty. -/
def decodeBody (v : Value) : Checked String :=
  match string v with
  | .ok s => if s.isEmpty then .fail .stringTooShort else .ok s
  | .error is => .error is

/-- The fragment that an object describes. -/
def decodeFragment (ms : List (String × Value)) : Checked Fragment :=
  Checked.both
    (Checked.both
      (Checked.both
        (Checked.both
          (Checked.both
            (Checked.both
              (Checked.both
                (Checked.both
                  (Checked.both (.ok Fragment.mk) (required "owner_id" string ms))
                  (required "body" decodeBody ms))
                (withDefault "global_bundle" false laxBool ms))
              (withDefault "bundle_name" (some defaultBundleName) optionalString ms))
            (withDefault "script_file" none optionalString ms))
          (withDefault "as_class" true laxBool ms))
        (withDefault "class_name" none optionalString ms))
      (withDefault "add_to_global" false laxBool ms))
    (withDefault "add_as_instance" false laxBool ms)

end ScriptBundle
