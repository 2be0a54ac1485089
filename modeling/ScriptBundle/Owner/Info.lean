import ScriptBundle.Validation.Lax
/-!
# Owners

The owner of a script site is the component it is nested in: its identity, the package it comes
from, and whether that package is a library and not the application itself.
-/

namespace ScriptBundle

open Validation

/-- The component around a script site. -/
structure OwnerInfo where
  /-- The identity that bundles are named by. -/
  identity : String
  /-- The package. -/
  packageId : String
  /-- Whether the package is a library. -/
  isFromLib : Bool
  deriving DecidableEq, Repr

/-- The owner that an object describes. -/
def decodeOwner (ms : List (String × Value)) : Checked OwnerInfo :=
  Checked.both
    (Checked.both
      (Checked.both (.ok OwnerInfo.mk) (required "identity" string ms))
      (required "package_id" string ms))
    (withDefault "is_from_lib" false laxBool ms)

end ScriptBundle
