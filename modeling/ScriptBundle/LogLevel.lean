import ScriptBundle.Text.Capital
import ScriptBundle.Text.Quoted
/-!
# Log levels

How much is logged is set by a switch, or else by the name of a level in the environment. Names
are read in any case, and an unknown name counts as the level for warnings. Two names are known for
something else than a level and are refused.
-/

namespace ScriptBundle

/-- What a name in capitals stands for. -/
inductive LevelMeaning where
  /-- A level. -/
  | level (n : Nat)
  /-- A text, which is no level. -/
  | text (s : String)
  /-- A table, which is no level. -/
  | table

/-- Why there is no level. -/
inductive LevelError where
  /-- A text stands where a level is expected. -/
  | unknownLevel (s : String)
  /-- Something else stands there. -/
  | notLevel
  deriving DecidableEq

/-- The message of a failure. -/
def LevelError.message : LevelError → String
  | .unknownLevel s => "Unknown level: " ++ Text.quoted s
  | .notLevel => "Level not an integer or a valid string"

/-- The names that mean something. -/
def levelMeanings : List (String × LevelMeaning) :=
  [("NOTSET", .level 0), ("DEBUG", .level 10), ("INFO", .level 20), ("WARN", .level 30),
    ("WARNING", .level 30), ("ERROR", .level 40), ("FATAL", .level 50), ("CRITICAL", .level 50),
    ("BASIC_FORMAT", .text "%(levelname)s:%(name)s:%(message)s"), ("_STYLES", .table)]

/-- The level for warnings. -/
def warningLevel : Nat := 30

/-- The level that is set. -/
def logLevel (verbose : Bool) (name : Option String) : Except LevelError Nat :=
  if verbose then .ok 10
  else
    match levelMeanings.lookup (Text.upper (name.getD "WARNING")) with
    | some (.level n) => .ok n
    | some (.text s) => .error (.unknownLevel s)
    | some .table => .error .notLevel
    | none => .ok warningLevel

end ScriptBundle
